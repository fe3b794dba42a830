/-
# Frames through the hub

A frame captured by an agent goes to every channel open on its interface, along
the bridge routes and into the groups of its bus; a frame a client writes goes
to the agent that serves its channel, or to the members of its group. A frame
the transport or the pace refuses is parked in the destination's egress queue
and drained when the peer is writable again. A reliable channel is never parked:
a client that cannot keep up is disconnected, and a client that writes too fast
is told to try again.
-/
import CanHub.Hub.Broker

namespace CanHub

@[simp] abbrev frameRoutesMax : ℕ := peerDirectoryMax * clientSessionBindingsMax
@[simp] abbrev framePaceOverheadBits : ℕ := 64
@[simp] abbrev framePaceBitsPerByte : ℕ := 10
@[simp] abbrev liveEgressMaxAgeUs : ℕ := 50000

/-! ### Routes -/

structure FrameRoute where
  peerId : UInt32
  channel : UInt8
  suppressEcho : Bool
  reliable : Bool
deriving DecidableEq

/-- The routes to one client's channels of an interface. -/
def HubPeer.routesToInterface (p : HubPeer) (interfaceId : UInt32) : List FrameRoute :=
  if p.inUse ∧ p.role = .client then
    (p.session.bindingsForInterface interfaceId).map fun b => ⟨p.peerId, b.channel, b.suppressEcho, b.reliable⟩
  else []

namespace FrameRoutes

/-- All routes `FrameRoutes_ToInterface` meets. It keeps the first `FRAME_ROUTES_MAX`. -/
def toInterface (d : PeerDirectory) (interfaceId : UInt32) : List FrameRoute :=
  (List.finRange peerDirectoryMax).flatMap fun i => (d i).routesToInterface interfaceId

def fromAgent (r : InterfaceRegistry) (d : PeerDirectory) (agentPeerId : UInt32) (agentChannel : UInt8) :
    List FrameRoute :=
  match r.findByAgentChannel agentPeerId agentChannel with
  | none => []
  | some k => toInterface d (r.entries k).interfaceId

/-- `FrameRoutes_FromClient`: the one route there is. -/
def fromClient (r : InterfaceRegistry) (client : HubPeer) (channel : UInt8) : Option FrameRoute :=
  match client.session.interfaceForChannel channel with
  | none => none
  | some interfaceId =>
    (r.findById interfaceId).map fun k =>
      ⟨(r.entries k).agentPeerId, (r.entries k).agentChannel, false, client.session.channelReliable channel⟩

end FrameRoutes

/-- The length a frame has on the wire. -/
def FrameMessage.wireSize (f : FrameMessage) : ℕ := messageHeaderSize + frameFixedFieldsSize + f.payload.length

/-- `frameWireBits`: what a frame costs the pace. -/
def FrameMessage.wireBits (f : FrameMessage) : ℕ := framePaceOverheadBits + framePaceBitsPerByte * f.payload.length

namespace Broker

def routeTakesFrame (s : Broker) (r : FrameRoute) (f : FrameMessage) (echoOriginatorPeerId : UInt32) : Bool :=
  if r.suppressEcho ∧ r.peerId = echoOriginatorPeerId then false
  else
    match s.find r.peerId with
    | none => true
    | some i =>
      if (s.directory i).role ≠ .client then true
      else (s.directory i).session.channelAccepts r.channel f.canId

/-! ### Counting -/

/-- A change of the frame counters. -/
def countFrames (s : Broker) (f : HubMetrics → HubMetrics) : Broker := { s with metrics := f s.metrics }

section

variable (s : Broker) (i : PeerSlot) (channel : UInt8)

/-- A change of a client's binding for a channel. -/
def modifyBinding (f : ChannelBinding → ChannelBinding) : Broker :=
  if (s.directory i).role = .client then
    match (s.directory i).session.findByChannel channel with
    | some j => s.modifySession i (·.modify j f)
    | none => s
  else s

def countForwarded : Broker :=
  let s := s.countFrames fun m => { m with framesForwarded := m.framesForwarded + 1 }
  let s := s.modifyPeer i fun p => { p with framesForwarded := p.framesForwarded + 1 }
  s.modifyBinding i channel fun b => { b with framesForwarded := b.framesForwarded + 1 }

def countDropped : Broker :=
  let s := s.countFrames fun m => { m with framesDropped := m.framesDropped + 1 }
  let s := s.modifyPeer i fun p => { p with framesDropped := p.framesDropped + 1 }
  s.modifyBinding i channel fun b => { b with framesDropped := b.framesDropped + 1 }

def countInterfaceFrame : Broker :=
  let peer := s.directory i
  if peer.role = .agent then
    match s.registry.findByAgentChannel peer.peerId channel with
    | some k => { s with registry := s.registry.countFrame (s.registry.entries k).interfaceId }
    | none => s
  else
    match peer.session.interfaceForChannel channel with
    | some interfaceId => { s with registry := s.registry.countFrame interfaceId }
    | none => s

end

/-! ### Forwarding and parking -/

def enqueueFrame (s : Broker) (i : PeerSlot) (channel : UInt8) (f : FrameMessage) : Broker :=
  let (egress, evicted) := (s.directory i).egress.push channel ⟨f, s.nowUs⟩
  let s := s.modifyPeer i fun p => { p with egress }
  match evicted with
  | some c => s.countDropped i c
  | none => s

/-- A reliable client that does not keep up is disconnected; of an agent the
caller is told. -/
def disconnectSlowConsumer [Transport] (s : Broker) (i : PeerSlot) : Broker × Bool :=
  let peerId := (s.directory i).peerId
  if (s.directory i).role ≠ .client then (s, false)
  else ((s.sendError peerId .slowConsumer "reliable channel stalled").disconnectPeer peerId, true)

/-- `InterfaceRegistry_TryEgress` on the broker's registry. -/
def tryEgress (s : Broker) (peerId : UInt32) (channel : UInt8) (f : FrameMessage) : Broker × Bool :=
  let (registry, go) := s.registry.tryEgress peerId channel f.wireBits s.nowUs
  ({ s with registry }, go)

def forwardFrame [Transport] (s : Broker) (r : FrameRoute) (f : FrameMessage) (routeFlags : UInt8) : Broker × Bool :=
  let outgoing := { f with channel := r.channel, routeFlags }
  match s.find r.peerId with
  | none =>
    match s.sendFrame r.peerId r.channel (.frame outgoing) with
    | (s, true) => (s.countFrames fun m => { m with framesForwarded := m.framesForwarded + 1 }, true)
    | (s, false) => (s.countFrames fun m => { m with framesDropped := m.framesDropped + 1 }, true)
  | some i =>
    if r.reliable then
      match s.sendFrame r.peerId r.channel (.frame outgoing) with
      | (s, true) => (s.countForwarded i r.channel, true)
      | (s, false) => s.disconnectSlowConsumer i
    else if (s.directory i).egress.channelPending r.channel then (s.enqueueFrame i r.channel outgoing, true)
    else
      match s.tryEgress r.peerId r.channel outgoing with
      | (s, false) => (s.enqueueFrame i r.channel outgoing, true)
      | (s, true) =>
        match s.sendFrame r.peerId r.channel (.frame outgoing) with
        | (s, true) => (s.countForwarded i r.channel, true)
        | (s, false) => (s.enqueueFrame i r.channel outgoing, true)

/-- The loop over the routes of a frame: the broker, and whether every route took it. -/
def forwardRoutes [Transport] (f : FrameMessage) (echoOriginatorPeerId : UInt32) (routeFlags : UInt8) :
    Broker → List FrameRoute → Broker × Bool
  | s, [] => (s, true)
  | s, r :: routes =>
    if !s.routeTakesFrame r f echoOriginatorPeerId then forwardRoutes f echoOriginatorPeerId routeFlags s routes
    else
      let (s, accepted) := s.forwardFrame r f routeFlags
      let (s, rest) := forwardRoutes f echoOriginatorPeerId routeFlags s routes
      (s, accepted && rest)

def reliableRoutesFit (f : FrameMessage) (echoOriginatorPeerId : UInt32) : Broker → List FrameRoute → Broker × Bool
  | s, [] => (s, true)
  | s, r :: routes =>
    if !r.reliable ∨ !s.routeTakesFrame r f echoOriginatorPeerId then
      reliableRoutesFit f echoOriginatorPeerId s routes
    else
      match s.ask with
      | (s, false) => (s, false)
      | (s, true) => reliableRoutesFit f echoOriginatorPeerId s routes

/-! ### Bridging -/

/-- `EchoTokens_Issue` on an agent's table. -/
def issueToken (s : Broker) (agent : PeerSlot) (clientPeerId : UInt32) : Broker × UInt8 :=
  let (echoTokens, token) := (s.directory agent).echoTokens.issue clientPeerId
  (s.modifyPeer agent fun p => { p with echoTokens }, token)

def injectionToken (s : Broker) (senderPeerId : UInt32) (r : Option FrameRoute) : Broker × UInt8 :=
  match r.bind fun r => s.find r.peerId with
  | none => (s, frameRouteNoToken)
  | some agent => s.issueToken agent senderPeerId

def chargeForwarded (s : Broker) : BridgeCharge → Broker
  | .route i => { s with bridges := s.bridges.modify i fun r => { r with forwarded := r.forwarded + 1 } }
  | .group i => { s with groups := s.groups.modify i fun g => { g with forwarded := g.forwarded + 1 } }

def chargeDropped (s : Broker) : BridgeCharge → Broker
  | .route i => { s with bridges := s.bridges.modify i fun r => { r with dropped := r.dropped + 1 } }
  | .group i => { s with groups := s.groups.modify i fun g => { g with dropped := g.dropped + 1 } }

/-- `bridgeInto`: no injection without an echo token. -/
def bridgeInto [Transport] (s : Broker) (t : BridgeTarget) (f : FrameMessage) : Broker :=
  match s.registry.findByName t.destination.agentName t.destination.interfaceName with
  | none => s.chargeDropped t.charge
  | some k =>
    let destination := s.registry.entries k
    if destination.refusesFrame f.frameFlags then s.chargeDropped t.charge
    else
      match s.find destination.agentPeerId with
      | none => s.chargeDropped t.charge
      | some agent =>
        let (s, token) := s.issueToken agent echoTokensBridgeOwner
        if token = frameRouteNoToken then s.chargeDropped t.charge
        else
          let route := ⟨destination.agentPeerId, destination.agentChannel, false, false⟩
          (s.forwardFrame route f (token <<< frameRouteTokenShift)).1.chargeForwarded t.charge

/-- `showToGroup`: the broker and the number of routes. -/
def showToGroup [Transport] (s : Broker) (k : EntrySlot) (f : FrameMessage) (echoOriginatorPeerId : UInt32)
    (routeFlags : UInt8) : Broker × ℕ :=
  let interfaceId := (s.registry.entries k).interfaceId
  let routes := FrameRoutes.toInterface s.directory interfaceId
  let s := s.countFrames fun m =>
    { m with framesDropped := m.framesDropped + UInt64.ofNat (routes.length - frameRoutesMax) }
  let s := { s with registry := s.registry.countFrame interfaceId }
  let (s, _) := forwardRoutes f echoOriginatorPeerId routeFlags s (routes.take frameRoutesMax)
  (s, (routes.take frameRoutesMax).length)

/-- The body of the loop of `showToGroups`. -/
def showToGroupSlot [Transport] (origin : BridgeEndpoint) (f : FrameMessage) (echoOriginatorPeerId : UInt32)
    (routeFlags : UInt8) (shown : Broker × ℕ) (g : GroupSlot) : Broker × ℕ :=
  let (s, count) := shown
  let slot := s.groups.slots g
  if slot.inUse ∧ slot.group.carries origin f.canId then
    match s.registry.findByName bridgeGroupAgentName slot.group.name with
    | none => (s, count)
    | some k =>
      let (s, n) := s.showToGroup k f echoOriginatorPeerId routeFlags
      (s, count + n)
  else (s, count)

def showToGroups [Transport] (s : Broker) (origin : BridgeEndpoint) (f : FrameMessage) (echoOriginatorPeerId : UInt32)
    (routeFlags : UInt8) : Broker × ℕ :=
  (List.finRange bridgeGroupsMax).foldl (showToGroupSlot origin f echoOriginatorPeerId routeFlags) (s, 0)

/-- `bridgeFrame`: the broker, and how many places the frame went. -/
def bridgeFrame [Transport] (s : Broker) (agentPeerId : UInt32) (f : FrameMessage) (echoOriginatorPeerId : UInt32)
    (routeFlags : UInt8) : Broker × ℕ :=
  match s.registry.findByAgentChannel agentPeerId f.channel with
  | none => (s, 0)
  | some k =>
    let origin := ⟨(s.registry.entries k).agentName, (s.registry.entries k).interfaceName⟩
    let targets := BridgeTarget.collect s.bridges s.groups origin f.canId
    let s := targets.foldl (fun s t => s.bridgeInto t f) s
    let (s, shown) := s.showToGroups origin f echoOriginatorPeerId routeFlags
    (s, targets.length + shown)

def bridgesConfigured (s : Broker) : Bool := !s.bridges.isEmpty || !s.groups.isEmpty

/-- `groupOfChannel`: the group behind a client's channel and its interface. -/
def groupOfChannel (s : Broker) (i : PeerSlot) (channel : UInt8) : Option (GroupSlot × EntrySlot) :=
  match (s.directory i).session.interfaceForChannel channel with
  | none => none
  | some interfaceId =>
    match s.registry.findById interfaceId with
    | none => none
    | some k =>
      if !(s.registry.entries k).isVirtual then none
      else (s.groups.find (s.registry.entries k).interfaceName).map fun g => (g, k)

def channelRefusesFrame (s : Broker) (i : PeerSlot) (f : FrameMessage) : Bool :=
  match (s.directory i).session.interfaceForChannel f.channel with
  | none => false
  | some interfaceId =>
    match s.registry.findById interfaceId with
    | none => false
    | some k => (s.registry.entries k).refusesFrame f.frameFlags

/-- The body of the loop of `writeIntoGroup`. -/
def writeIntoMember [Transport] (writerPeerId : UInt32) (g : GroupSlot) (f : FrameMessage) (s : Broker)
    (m : BridgeGroupMember) : Broker :=
  if !m.receives then s
  else if s.endpointLeasedToAnother m.endpoint writerPeerId then
    s.countTransactions fun c => { c with leaseFrameDrops := c.leaseFrameDrops + 1 }
  else s.bridgeInto ⟨m.endpoint, .group g⟩ f

def writeIntoGroup [Transport] (s : Broker) (writerPeerId : UInt32) (g : GroupSlot) (k : EntrySlot) (f : FrameMessage) :
    Broker :=
  let s := (s.groups.slots g).group.members.foldl (writeIntoMember writerPeerId g f) s
  (s.showToGroup k f writerPeerId 0).1

/-! ### One frame -/

section

variable (s : Broker) (i : PeerSlot) (f : FrameMessage)

/-- `routeFrame` for a frame of an agent. -/
def routeAgentFrame [Transport] : Broker × Bool :=
  let agent := s.directory i
  let routes := FrameRoutes.fromAgent s.registry s.directory agent.peerId f.channel
  let originator := agent.echoTokens.originator f.routeFlags
  let bridged := originator = echoTokensBridgeOwner ∨ f.routeFlags &&& frameRouteFlagBridged ≠ 0
  let routeFlags := f.routeFlags &&& (frameRouteFlagBridged ||| frameRouteFlagEcho)
    ||| (if bridged then frameRouteFlagBridged else 0)
  let s := s.countFrames fun m =>
    { m with framesDropped := m.framesDropped + UInt64.ofNat (routes.length - frameRoutesMax) }
  let (s, accepted) := forwardRoutes f originator routeFlags s (routes.take frameRoutesMax)
  let (s, bridgedCount) :=
    if (s.directory i).role = .agent ∧ ¬ bridged ∧ s.bridgesConfigured then
      s.bridgeFrame (s.directory i).peerId f originator routeFlags
    else (s, 0)
  if routes = [] ∧ bridgedCount = 0 then
    (s.countFrames fun m => { m with framesUnroutable := m.framesUnroutable + 1 }, accepted)
  else (s, accepted)

/-- The end of `routeFrame` for a frame of a client whose channel is not a group's. -/
def injectFrame [Transport] (route : Option FrameRoute) : Broker × Bool :=
  let (s, token) := s.injectionToken (s.directory i).peerId route
  match reliableRoutesFit f 0 s route.toList with
  | (s, false) => (s, false)
  | (s, true) =>
    let (s, accepted) := forwardRoutes f 0 (token <<< frameRouteTokenShift) s route.toList
    if route.isNone then
      (s.countFrames fun m => { m with framesUnroutable := m.framesUnroutable + 1 }, accepted)
    else (s, accepted)

/-- `routeFrame` for a frame of a client. -/
def routeClientFrame [Transport] : Broker × Bool :=
  if !(s.directory i).session.canWrite f.channel ∨ f.canId &&& frameCanIdFlagErr ≠ 0 then
    (s.countFrames fun m => { m with framesDropped := m.framesDropped + 1 }, true)
  else if s.channelLeasedToAnother i f.channel then
    (s.countTransactions fun c => { c with leaseFrameDrops := c.leaseFrameDrops + 1 }, true)
  else
    match s.groupOfChannel i f.channel with
    | some (g, k) => (s.writeIntoGroup (s.directory i).peerId g k f, true)
    | none =>
      if s.channelRefusesFrame i f then
        (s.countFrames fun m => { m with framesDropped := m.framesDropped + 1 }, true)
      else s.injectFrame i f (FrameRoutes.fromClient s.registry (s.directory i) f.channel)

def routeFrame [Transport] : Broker × Bool :=
  let s := s.countFrames fun m => { m with framesReceived := m.framesReceived + 1 }
  let s := s.countInterfaceFrame i f.channel
  if (s.directory i).role = .agent then s.routeAgentFrame i f else s.routeClientFrame i f

end

/-- The frames of one datagram, in order. -/
def routeFrames [Transport] (i : PeerSlot) : Broker → List FrameMessage → Broker × Bool
  | s, [] => (s, true)
  | s, f :: frames =>
    let (s, accepted) := s.routeFrame i f
    let (s, rest) := routeFrames i s frames
    (s, accepted && rest)

/-! ### Draining -/

def liveFrameTooOld (s : Broker) (i : PeerSlot) (slot : EgressSlot) : Bool :=
  (s.directory i).role = .client ∧ slot.enqueuedUs < s.nowUs ∧ liveEgressMaxAgeUs < s.nowUs - slot.enqueuedUs

def popChannel (s : Broker) (i : PeerSlot) (channel : UInt8) : Broker :=
  s.modifyPeer i fun p => { p with egress := p.egress.popChannel channel }

/-- The inner loop of `drainPeer`, with the frames the channel has: the broker,
and whether to go on with the next channel. -/
def drainChannel [Transport] (i : PeerSlot) (channel : UInt8) : Broker → ℕ → Broker × Bool
  | s, 0 => (s, true)
  | s, frames + 1 =>
    match (s.directory i).egress.frontOfChannel channel with
    | none => (s, true)
    | some slot =>
      if s.liveFrameTooOld i slot then drainChannel i channel ((s.popChannel i channel).countDropped i channel) frames
      else
        match s.tryEgress (s.directory i).peerId channel slot.frame with
        | (s, false) => (s, true)
        | (s, true) =>
          match s.sendFrame (s.directory i).peerId channel (.frame slot.frame) with
          | (s, false) => (s, false)
          | (s, true) => drainChannel i channel ((s.popChannel i channel).countForwarded i channel) frames

/-- The outer loop of `drainPeer`, with the channels still to visit. -/
def drainChannels [Transport] (i : PeerSlot) : Broker → ℕ → Broker
  | s, 0 => s
  | s, channels + 1 =>
    match (s.directory i).egress.nextPendingChannel with
    | none => s
    | some (egress, channel) =>
      let s := s.modifyPeer i fun p => { p with egress }
      match drainChannel i channel s (egress.channels channel).length with
      | (s, false) => s
      | (s, true) => drainChannels i s channels

def drainPeer [Transport] (s : Broker) (i : PeerSlot) : Broker := drainChannels i s egressQueueChannelsMax

end Broker
end CanHub
