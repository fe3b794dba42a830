/-
# The control messages of the hub

What the hub's handlers read of a decoded message, and what the hub sends back.
A C string is the list of its bytes before the terminating zero. The decoders
bound every name by the size of the field it is copied to, so no copy cuts one
short. A handler that does something about a message its decoder refuses gets
`none` in its place.

Left out: the bodies of the pages that only show data (LIST_REPLY and the admin
views), and of the settings of an interface all but what the hub reads.
-/
import CanHub.Protocol.Txn

namespace CanHub

@[simp] abbrev registerInterfacesMax : ℕ := 16

/-- A C string. -/
abbrev Text := List UInt8

structure CanFilter where
  canId : UInt32
  canMask : UInt32
deriving DecidableEq

def CanFilter.passes (f : CanFilter) (canId : UInt32) : Bool := canId &&& f.canMask = f.canId &&& f.canMask

def helloCapReliableChannels : UInt32 := 1
def helloCapTransactions : UInt32 := 2
def helloCapIsotp : UInt32 := 4
def openFlagSuppressOwnEcho : UInt8 := 1
def openFlagWantWrite : UInt8 := 2
def openFlagReliable : UInt8 := 4
def openFlagErrorFrames : UInt8 := 8
def interfaceFieldCtrlmode : UInt32 := 0x10
def interfaceCtrlmodeFd : UInt32 := 0x20

/-- The roles a HELLO may declare. -/
inductive PeerRole | agent | client | admin
deriving DecidableEq

inductive RegisterStatus | ok | rejected | identityMismatch | unknownAgent
deriving DecidableEq

inductive OpenStatus | ok | rejected | writeDenied | readDenied | reliableUnsupported
deriving DecidableEq

inductive ErrorCode | malformed | roleRejected | hubFull | helloTimeout | kicked | slowConsumer
deriving DecidableEq

inductive ConfigureStatus | ok | unknownInterface | agentUnreachable | applyFailed | denied
deriving DecidableEq

inductive IfconfigStatus | ok | unknownInterface | applyFailed
deriving DecidableEq

inductive AdminStatus | ok | unknownAgent | unknownPeer | pinFailed
deriving DecidableEq

inductive AdminBridgeStatus | ok | invalid | full | storeFailed | unknown
deriving DecidableEq

inductive RejectedReason | notAllowed | fingerprintMismatch
deriving DecidableEq

structure HelloMessage where
  role : PeerRole
  capabilities : UInt32 := 0
  name : Text := []
deriving DecidableEq

/-- A REGISTER the decoder accepts: at most 16 interfaces, each with a name. -/
structure RegisterMessage where
  agentName : Text
  interfaceNames : List Text
  fdReported : Bool := false
  fdInterfaces : UInt16 := 0
  count_le : interfaceNames.length ≤ registerInterfacesMax := by decide
  named : ∀ name ∈ interfaceNames, name ≠ [] := by decide
deriving DecidableEq

structure RegisterAckMessage where
  status : RegisterStatus
  channels : List UInt8
deriving DecidableEq

structure OpenMessage where
  interfaceId : UInt32
  flags : UInt8 := 0
deriving DecidableEq

structure OpenAckMessage where
  status : OpenStatus
  channel : UInt8
  interfaceId : UInt32
deriving DecidableEq

structure ListReplyEntry where
  interfaceId : UInt32
  agentName : Text
  interfaceName : Text
deriving DecidableEq

/-- LIST_REPLY, with its flag for more entries. -/
structure ListReplyMessage where
  entries : List ListReplyEntry
  more : Bool
deriving DecidableEq

structure SubscribeMessage where
  channel : UInt8
  filters : List CanFilter
deriving DecidableEq

structure InterfaceStatusEntry where
  channel : UInt8
  leased : Bool := false
  advertisedRate : UInt32 := 0
  credit : UInt32 := 0
  txDropped : UInt64 := 0
deriving DecidableEq

/-- The settings of an interface, as far as the hub reads them. -/
structure InterfaceSettings where
  fields : UInt32 := 0
  ctrlmodeMask : UInt32 := 0
  ctrlmodeFlags : UInt32 := 0
deriving DecidableEq

structure ConfigureMessage where
  agentName : Text
  interfaceName : Text
  op : UInt8
  settings : InterfaceSettings := {}
deriving DecidableEq

structure IfconfigMessage where
  requestId : UInt32
  interfaceName : Text
  op : UInt8
  settings : InterfaceSettings
deriving DecidableEq

structure IfconfigReplyMessage where
  requestId : UInt32
  status : IfconfigStatus
  settings : InterfaceSettings := {}
  detail : Text := []
deriving DecidableEq

structure ConfigureReplyMessage where
  status : ConfigureStatus
  settings : InterfaceSettings := {}
  detail : Text := []
deriving DecidableEq

/-- The queries whose reply is a page of data. -/
inductive AdminQuery
  | status | peers | pins | agents | clients | interfaces | txns | aclList | rejected | bridgeList | groupList
deriving DecidableEq

/-- The messages that carry a transaction's content. -/
inductive TxnContentType | roster | template | steps
deriving DecidableEq

end CanHub
