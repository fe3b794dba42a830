/-
# The socketcand bridge

`SocketcandBridge` is a client of the hub on one side and a socketcand server
on the other. It keeps the hub's interfaces in a catalogue, filled from the
pages of LIST, and one entry for each ASCII client. A client's `open` becomes
an OPEN for writing, after a WRITE_DENIED one for reading; the hub's OPEN_ACK
names only the interface, so the bridge gives it to the oldest open of that
interface that still waits. Bus configurations wait in the entries and go out
one at a time.

What a client sends is modelled as the commands its bytes parse to, a chunk at
a time. What the bridge sends is kept in `log`, the newest last; an OPEN is
logged with the connection it was sent for, which is not on the wire.
-/
import CanHub.Lib.Table
import CanHub.Protocol.InterfaceName

namespace CanHub

@[simp] abbrev socketcandConnectionsMax : ℕ := 32
@[simp] abbrev interfaceCatalogueMax : ℕ := 128
@[simp] abbrev socketcandBusNameSize : ℕ := 160
@[simp] abbrev beaconIntervalUs : ℕ := 3000000
@[simp] abbrev listRefreshIntervalUs : ℕ := 5000000
@[simp] abbrev reconnectDelayUs : ℕ := 1000000

def openFlagsReadOnly : UInt8 := openFlagSuppressOwnEcho
def openFlagsReadWrite : UInt8 := openFlagSuppressOwnEcho ||| openFlagWantWrite
def ifconfigOpApply : UInt8 := 0

/-! ### The catalogue -/

structure CatalogueEntry where
  interfaceId : UInt32
  name : Text
deriving DecidableEq

abbrev InterfaceCatalogue := List CatalogueEntry

namespace InterfaceCatalogue

def composeName (entry : ListReplyEntry) : Option Text :=
  if entry.agentName.length = 0 ∨ entry.interfaceName.length = 0 then none
  else if socketcandBusNameSize < entry.agentName.length + 1 + entry.interfaceName.length + 1 then none
  else some (InterfaceName.namespaced entry.agentName entry.interfaceName)

def appendPage : InterfaceCatalogue → List ListReplyEntry → InterfaceCatalogue
  | c, [] => c
  | c, entry :: entries =>
    if interfaceCatalogueMax ≤ c.length then c
    else
      match composeName entry with
      | none => appendPage c entries
      | some name => appendPage (c ++ [⟨entry.interfaceId, name⟩]) entries

def findByName (c : InterfaceCatalogue) (name : Text) : Option UInt32 :=
  (c.find? (·.name = name)).map (·.interfaceId)

end InterfaceCatalogue

/-! ### The connections -/

inductive SocketcandMode | noBus | bcm | raw
deriving DecidableEq

inductive SocketcandOpenState | none | pendingWrite | pendingRead | done
deriving DecidableEq

structure PendingConfigure where
  queued : Bool := false
  seq : UInt32 := 0
  bus : Text := []
  settings : InterfaceSettings := {}
deriving DecidableEq

structure SocketcandConnection where
  inUse : Bool := false
  connectionId : UInt32 := 0
  mode : SocketcandMode := .noBus
  openState : SocketcandOpenState := .none
  interfaceId : UInt32 := 0
  openSeq : UInt32 := 0
  channel : UInt8 := 0
  channelValid : Bool := false
  canWrite : Bool := false
  bus : Text := []
  configure : PendingConfigure := {}
deriving DecidableEq

abbrev ConnectionSlot := Fin socketcandConnectionsMax

structure ConnectionTable where
  connections : Table socketcandConnectionsMax SocketcandConnection := fun _ => {}
  nextOpenSeq : UInt32 := 0
  nextConfigureSeq : UInt32 := 0

namespace ConnectionTable

section

variable (t : ConnectionTable)

def modify (i : ConnectionSlot) (f : SocketcandConnection → SocketcandConnection) : ConnectionTable :=
  { t with connections := Function.update t.connections i (f (t.connections i)) }

def add (connectionId : UInt32) : Option ConnectionTable :=
  match t.connections.find? (!·.inUse) with
  | none => none
  | some i => some (t.modify i fun _ => { inUse := true, connectionId })

def find (t : ConnectionTable) (connectionId : UInt32) : Option ConnectionSlot :=
  t.connections.find? fun c => c.inUse && c.connectionId == connectionId

def findByChannel (channel : UInt8) : Option ConnectionSlot :=
  t.connections.find? fun c => c.inUse && c.channelValid && c.channel == channel

/-- A connection whose OPEN of the interface waits for its answer. -/
def isPendingOpen (interfaceId : UInt32) (c : SocketcandConnection) : Bool :=
  c.inUse && c.interfaceId == interfaceId && (c.openState == .pendingWrite || c.openState == .pendingRead)

def findPendingOpen (interfaceId : UInt32) : Option ConnectionSlot :=
  t.connections.least? (isPendingOpen interfaceId) (·.openSeq.toNat)

def queueConfigure (i : ConnectionSlot) (bus : Text) (settings : InterfaceSettings) : ConnectionTable :=
  let t := { t with nextConfigureSeq := t.nextConfigureSeq + 1 }
  t.modify i fun c => { c with configure := { queued := true, seq := t.nextConfigureSeq, bus, settings } }

def oldestQueuedConfigure : Option ConnectionSlot :=
  t.connections.least? (fun c => c.inUse && c.configure.queued) (·.configure.seq.toNat)

def remove (connectionId : UInt32) : ConnectionTable :=
  match t.find connectionId with
  | none => t
  | some i => t.modify i fun c => { c with inUse := false }

end

end ConnectionTable

/-! ### The bridge -/

/-- The texts of the error lines. -/
inductive SocketcandDetail
  | configureAfterOpen | nothingToConfigure | unknownBus | openRejected | busAlreadyOpen | couldNotOpenBus | noBusOpen
  | writeNotPermitted
deriving DecidableEq

/-- The lines a client gets. -/
inductive SocketcandLine
  | greeting
  | ok
  | echo
  | error (detail : SocketcandDetail)
  | reasonedError (status : ConfigureStatus) (detail : Text)
  | frame (f : FrameMessage)
deriving DecidableEq

inductive SocketcandCommand
  | unknown
  | open (bus : Text)
  | rawmode
  | bcmmode
  | send (f : FrameMessage)
  | echo
  | bittiming (bus : Text) (settings : InterfaceSettings)
  | controlmode (bus : Text) (settings : InterfaceSettings)
deriving DecidableEq

inductive BridgeOutput
  | hello
  | list (offset : UInt16)
  | open (connectionId : UInt32) (m : OpenMessage)
  | close (channel : UInt8)
  | configure (m : ConfigureMessage)
  | frame (channel : UInt8) (f : FrameMessage)
  | line (connectionId : UInt32) (l : SocketcandLine)
  | closeClient (connectionId : UInt32)
  | beacon
deriving DecidableEq

inductive SocketcandHubState | disconnected | connecting | ready
deriving DecidableEq

structure SocketcandBridge where
  catalogue : InterfaceCatalogue := []
  connections : ConnectionTable := {}
  hubState : SocketcandHubState := .disconnected
  nextConnectAtUs : ℕ := 0
  nextBeaconAtUs : ℕ := 0
  nextListAtUs : ℕ := 0
  listingOffset : UInt16 := 0
  listingActive : Bool := false
  configureInFlight : Bool := false
  configuringConnectionId : UInt32 := 0
  beaconEnabled : Bool := false
  log : List BridgeOutput := []

namespace SocketcandBridge

section

variable (b : SocketcandBridge)

def emit (o : BridgeOutput) : SocketcandBridge := { b with log := b.log ++ [o] }

def connection (i : ConnectionSlot) : SocketcandConnection := b.connections.connections i

def modify (b : SocketcandBridge) (i : ConnectionSlot) (f : SocketcandConnection → SocketcandConnection) :
    SocketcandBridge :=
  { b with connections := b.connections.modify i f }

def sendLine (i : ConnectionSlot) (l : SocketcandLine) : SocketcandBridge :=
  b.emit (.line (b.connection i).connectionId l)

def sendError (i : ConnectionSlot) (detail : SocketcandDetail) : SocketcandBridge :=
  b.sendLine i (.error detail)

def sendOpen (i : ConnectionSlot) (flags : UInt8) : SocketcandBridge :=
  b.emit (.open (b.connection i).connectionId { interfaceId := (b.connection i).interfaceId, flags })

def closeConnection (i : ConnectionSlot) (detail : SocketcandDetail) : SocketcandBridge :=
  let b := (b.sendError i detail).emit (.closeClient (b.connection i).connectionId)
  { b with connections := b.connections.remove (b.connection i).connectionId }

end

/-! ### Listing -/

def startListing (b : SocketcandBridge) : SocketcandBridge :=
  { b with catalogue := [], listingOffset := 0, listingActive := true }.emit (.list 0)

/-- `handleListReply`; `none` is a body that does not decode. -/
def handleListReply (b : SocketcandBridge) (reply : Option ListReplyMessage) (nowUs : ℕ) : SocketcandBridge :=
  match reply with
  | none => { b with listingActive := false, nextListAtUs := nowUs + listRefreshIntervalUs }
  | some reply =>
    let b :=
      { b with
        catalogue := b.catalogue.appendPage reply.entries
        listingOffset := b.listingOffset + UInt16.ofNat reply.entries.length }
    if reply.more ∧ 0 < reply.entries.length then b.emit (.list b.listingOffset)
    else { b with listingActive := false, nextListAtUs := nowUs + listRefreshIntervalUs }

/-! ### Opening -/

def nextOpenSeq (b : SocketcandBridge) : SocketcandBridge :=
  { b with connections := { b.connections with nextOpenSeq := b.connections.nextOpenSeq + 1 } }

/-- The open of a slot waits from now on. -/
def awaitOpen (b : SocketcandBridge) (i : ConnectionSlot) (state : SocketcandOpenState) : SocketcandBridge :=
  let b := b.nextOpenSeq
  b.modify i fun c => { c with openState := state, openSeq := b.connections.nextOpenSeq }

def handleOpenAck (b : SocketcandBridge) (ack : OpenAckMessage) : SocketcandBridge :=
  match b.connections.findPendingOpen ack.interfaceId with
  | none => b
  | some i =>
    if ack.status = .ok then
      (b.modify i fun c =>
        { c with
          channel := ack.channel, channelValid := true, canWrite := c.openState == .pendingWrite
          openState := .done, mode := .bcm }).sendLine i .ok
    else if (b.connection i).openState = .pendingWrite ∧ ack.status = .writeDenied then
      (b.awaitOpen i .pendingRead).sendOpen i openFlagsReadOnly
    else b.closeConnection i .openRejected

/-- `openBus`, and whether the connection is still there. -/
def openBus (b : SocketcandBridge) (i : ConnectionSlot) (bus : Text) : SocketcandBridge × Bool :=
  if (b.connection i).openState ≠ .none then (b.closeConnection i .busAlreadyOpen, false)
  else if b.hubState ≠ .ready then (b.closeConnection i .couldNotOpenBus, false)
  else
    match b.catalogue.findByName bus with
    | none => (b.closeConnection i .couldNotOpenBus, false)
    | some interfaceId =>
      let b := b.modify i fun c => { c with interfaceId, bus }
      ((b.awaitOpen i .pendingWrite).sendOpen i openFlagsReadWrite, true)

/-! ### Configuring -/

/-- `sendConfigure`, and whether a CONFIGURE went out. -/
def sendConfigure (b : SocketcandBridge) (i : ConnectionSlot) : SocketcandBridge × Bool :=
  let b := b.modify i fun c => { c with configure := { c.configure with queued := false } }
  match InterfaceName.split (b.connection i).configure.bus with
  | none => (b.sendError i .unknownBus, false)
  | some (agentName, interfaceName) =>
    ({ b with configureInFlight := true, configuringConnectionId := (b.connection i).connectionId }.emit
      (.configure { agentName, interfaceName, op := ifconfigOpApply, settings := (b.connection i).configure.settings }),
      true)

/-- The loop of `sendNextConfigure`; each round takes one configuration out of the queue. -/
def sendQueued : ℕ → SocketcandBridge → SocketcandBridge
  | 0, b => b
  | fuel + 1, b =>
    match b.connections.oldestQueuedConfigure with
    | none => b
    | some i =>
      let (b, sent) := b.sendConfigure i
      if sent then b else sendQueued fuel b

def sendNextConfigure (b : SocketcandBridge) : SocketcandBridge :=
  if b.configureInFlight ∨ b.hubState ≠ .ready then b else sendQueued (socketcandConnectionsMax + 1) b

def queueConfigure (b : SocketcandBridge) (i : ConnectionSlot) (bus : Text) (settings : InterfaceSettings) :
    SocketcandBridge :=
  if (b.connection i).openState ≠ .none then b.sendError i .configureAfterOpen
  else if settings.fields = 0 then b.sendError i .nothingToConfigure
  else { b with connections := b.connections.queueConfigure i bus settings }.sendNextConfigure

def handleConfigureReply (b : SocketcandBridge) (reply : ConfigureReplyMessage) : SocketcandBridge :=
  if !b.configureInFlight then b
  else
    let b := { b with configureInFlight := false }
    let b :=
      match b.connections.find b.configuringConnectionId with
      | none => b
      | some i => b.sendLine i (if reply.status = ConfigureStatus.ok then .ok else .reasonedError reply.status reply.detail)
    b.sendNextConfigure

/-! ### Frames -/

def deliverFrame (b : SocketcandBridge) (f : FrameMessage) : SocketcandBridge :=
  match b.connections.findByChannel f.channel with
  | none => b
  | some i => if (b.connection i).mode ≠ .raw then b else b.sendLine i (.frame f)

def handleSend (b : SocketcandBridge) (i : ConnectionSlot) (f : FrameMessage) : SocketcandBridge :=
  if !(b.connection i).channelValid then b.sendError i .noBusOpen
  else if !(b.connection i).canWrite then b.sendError i .writeNotPermitted
  else b.emit (.frame (b.connection i).channel { f with channel := (b.connection i).channel, routeFlags := 0 })

/-! ### Commands and events -/

/-- `dispatchCommand`, and whether the connection is still there. -/
def dispatchCommand (b : SocketcandBridge) (i : ConnectionSlot) : SocketcandCommand → SocketcandBridge × Bool
  | .open bus => b.openBus i bus
  | .rawmode => ((b.sendLine i .ok).modify i fun c => { c with mode := .raw }, true)
  | .bcmmode => ((b.sendLine i .ok).modify i fun c => { c with mode := .bcm }, true)
  | .send f => (b.handleSend i f, true)
  | .echo => (b.sendLine i .echo, true)
  | .bittiming bus settings => (b.queueConfigure i bus settings, true)
  | .controlmode bus settings => (b.queueConfigure i bus settings, true)
  | .unknown => (b, true)

/-- The commands of a chunk, until one ends the connection. -/
def dispatchCommands (i : ConnectionSlot) : List SocketcandCommand → SocketcandBridge → SocketcandBridge
  | [], b => b
  | c :: cs, b =>
    let (b, alive) := b.dispatchCommand i c
    if alive then dispatchCommands i cs b else b

section

variable (b : SocketcandBridge)

def onClientConnected (connectionId : UInt32) : SocketcandBridge :=
  match b.connections.add connectionId with
  | none => b.emit (.closeClient connectionId)
  | some connections => { b with connections }.emit (.line connectionId .greeting)

def onClientCommands (connectionId : UInt32) (cs : List SocketcandCommand) : SocketcandBridge :=
  match b.connections.find connectionId with
  | none => b
  | some i => dispatchCommands i cs b

def onClientDisconnected (connectionId : UInt32) : SocketcandBridge :=
  match b.connections.find connectionId with
  | none => b
  | some i =>
    let b :=
      if (b.connection i).channelValid ∧ b.hubState = .ready then b.emit (.close (b.connection i).channel) else b
    { b with connections := b.connections.remove connectionId }

def onConnected : SocketcandBridge :=
  if b.hubState ≠ .connecting then b
  else
    { (b.emit .hello).startListing with hubState := .ready, nextBeaconAtUs := 0 }.sendNextConfigure

def closeAllConnections : SocketcandBridge :=
  let ids := ((List.finRange socketcandConnectionsMax).filter fun i => (b.connection i).inUse).map fun i =>
    (b.connection i).connectionId
  { b with log := b.log ++ ids.map .closeClient, connections := {} }

def onDisconnected (nowUs : ℕ) : SocketcandBridge :=
  if b.hubState = .disconnected then b
  else
    { b.closeAllConnections with
      catalogue := []
      listingActive := false
      configureInFlight := false
      hubState := .disconnected
      nextConnectAtUs := nowUs + reconnectDelayUs
      nextBeaconAtUs := 0
      nextListAtUs := 0 }

/-- `SocketcandBridge_Tick`; `connects` is what the transport says when it is asked to connect. -/
def tick (nowUs : ℕ) (connects : Bool) : SocketcandBridge :=
  match b.hubState with
  | .disconnected =>
    if nowUs < b.nextConnectAtUs then b
    else if connects then { b with hubState := .connecting }
    else { b with nextConnectAtUs := nowUs + reconnectDelayUs }
  | .connecting => b
  | .ready =>
    let b := if !b.listingActive ∧ b.nextListAtUs ≤ nowUs then b.startListing else b
    if b.beaconEnabled ∧ b.nextBeaconAtUs ≤ nowUs then
      { b.emit .beacon with nextBeaconAtUs := nowUs + beaconIntervalUs }
    else b

end

end SocketcandBridge
end CanHub
