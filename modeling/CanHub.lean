import CanHub.Agent.Early
import CanHub.Agent.Reception
import CanHub.Client.Checksum
import CanHub.Hub.Announcements
import CanHub.Hub.Capability
import CanHub.Hub.Channels
import CanHub.Hub.Correlation
import CanHub.Hub.Counters
import CanHub.Hub.Displacement
import CanHub.Hub.Flood
import CanHub.Hub.Identities
import CanHub.Hub.Names
import CanHub.Hub.Refusals
import CanHub.Hub.Shaper
import CanHub.Hub.Targets
import CanHub.Platform.MessageFramer
import CanHub.Platform.QuicControlChannel
import CanHub.Socketcand.Ownership
import CanHub.System.Cancel
import CanHub.System.Credit
import CanHub.System.Pacing
import CanHub.System.Relay
import CanHub.System.RoundTrip
import CanHub.Web.AuthStore
