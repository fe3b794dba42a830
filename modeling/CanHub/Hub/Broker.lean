/-
# The broker

`Broker` mediates between agents and clients: it keeps the interface catalogue,
answers the control plane, relays transactions and forwards frames. This module
has its state, its ports, and what the handlers share: sending, the transactions
of a leaving peer, channels opened, closed, detached and attached again.

The ports (transport, identity store, authorization, bridge store) answer as
they please: `answer n` is the answer to the `n`-th question asked during one
event, whoever is asked. Everything the broker hands to the transport is in
`log`, in order, each send with the transport's answer, and what it has the identity
store write is in `writes`. A transport that finds a
connection dead during a send reports it before it answers, and so calls the broker
from inside the send: what it does there is the parameter `Transport` of every
function that sends. By default it reports nothing and the disconnection is an event
of its own, after the one at hand; `losing` (`CanHub/Hub/Counters.lean`) is the
transports' own way. A `HubPeer *`, a `RelayedTransaction *` and an
`InterfaceEntry *` are slots; times are natural numbers.
-/
import CanHub.Hub.Bridges
import CanHub.Hub.Registry
import CanHub.Hub.Transactions

namespace CanHub

@[simp] abbrev brokerPendingIfconfigMax : ℕ := 16
@[simp] abbrev controlBufferSize : ℕ := 4096

/-! ### State -/

/-- The control messages the hub sends. A page shows data that is left out here. -/
inductive HubMessage
  | registerAck (m : RegisterAckMessage)
  | listReply
  | openAck (m : OpenAckMessage)
  | pong
  | error (code : ErrorCode) (detail : String)
  | interfaceStatus (entry : InterfaceStatusEntry)
  | ifconfig (m : IfconfigMessage)
  | configureReply (m : ConfigureReplyMessage)
  | adminPage (query : AdminQuery)
  | adminReply (status : AdminStatus)
  | bridgeReply (status : AdminBridgeStatus)
  | txnBegin (m : TxnBeginMessage)
  | txnBeginAck (m : TxnBeginAckMessage)
  | txnProgress (m : TxnProgressMessage)
  | txnStatus (m : TxnStatusMessage)
  | txnAbort (m : TxnAbortMessage)
  | txnRosterReport (m : TxnRosterReportMessage)
deriving DecidableEq

/-- What goes on a channel: a CAN frame, or content of a transaction. -/
inductive Datagram
  | frame (f : FrameMessage)
  | content (type : TxnContentType) (payload : List UInt8)
deriving DecidableEq

inductive HubOutput
  | control (peerId : UInt32) (m : HubMessage) (taken : Bool)
  | datagram (peerId : UInt32) (channel : UInt8) (d : Datagram) (taken : Bool)
  | channelMode (peerId : UInt32) (channel : UInt8) (reliable : Bool)
  | closePeer (peerId : UInt32)
deriving DecidableEq

/-- A write to the identity store, and whether the store did it. -/
inductive IdentityWrite
  | pin (agentName fingerprintHex : Text) (done : Bool)
  | enroll (agentName fingerprintHex : Text) (done : Bool)
  | forget (agentName : Text) (done : Bool)
deriving DecidableEq

structure HubPort where
  answer : ℕ → Bool
  pinned : ℕ → Option Text
  firstContacts : ℕ → ℕ
  asked : ℕ := 0
  log : List HubOutput := []
  writes : List IdentityWrite := []

structure TransactionCounters where
  started : UInt64 := 0
  completed : UInt64 := 0
  aborted : UInt64 := 0
  rejected : UInt64 := 0
  stepsCompleted : UInt64 := 0
  leaseFrameDrops : UInt64 := 0
deriving DecidableEq

structure HubMetrics where
  framesReceived : UInt64 := 0
  framesForwarded : UInt64 := 0
  framesDropped : UInt64 := 0
  framesUnroutable : UInt64 := 0
  transactions : TransactionCounters := {}
deriving DecidableEq

structure PendingIfconfig where
  inUse : Bool := false
  requesterPeerId : UInt32 := 0
  agentPeerId : UInt32 := 0
  interfaceId : UInt32 := 0
  requestId : UInt32 := 0
deriving DecidableEq

/-- Which optional ports the hub has, and whether it admits known peers only. -/
structure HubConfig where
  hasIdentityStore : Bool := false
  hasAuthorization : Bool := false
  hasBridgeStore : Bool := false
  requireKnownPeers : Bool := false
deriving DecidableEq

structure Broker where
  config : HubConfig
  port : HubPort
  registry : InterfaceRegistry := {}
  bridges : BridgeRoutes := {}
  groups : BridgeGroups := {}
  directory : PeerDirectory := fun _ => {}
  metrics : HubMetrics := {}
  pendingIfconfig : Table brokerPendingIfconfigMax PendingIfconfig := fun _ => {}
  transactions : TransactionTable := {}
  nextIfconfigRequestId : UInt32 := 0
  rejectedPeers : RejectedPeers := fun _ => {}
  nowUs : ℕ := 0

/-- What a transport reports from inside a send, as what it makes of the broker. -/
class Transport where
  reports : Broker → HubOutput → Broker

/-- A transport that reports nothing before it has answered. -/
instance : Transport where
  reports s _ := s

namespace Broker

def find (s : Broker) (peerId : UInt32) : Option PeerSlot := s.directory.find peerId

/-- A change of one peer. -/
def modifyPeer (s : Broker) (i : PeerSlot) (f : HubPeer → HubPeer) : Broker :=
  { s with directory := Function.update s.directory i (f (s.directory i)) }

/-- A change of a client's session. -/
def modifySession (s : Broker) (i : PeerSlot) (f : ClientSession → ClientSession) : Broker :=
  s.modifyPeer i fun p => { p with session := f p.session }

/-- A change of the transaction counters. -/
def countTransactions (s : Broker) (f : TransactionCounters → TransactionCounters) : Broker :=
  { s with metrics := { s.metrics with transactions := f s.metrics.transactions } }

def modifyTransaction (s : Broker) (t : TransactionSlot) (f : RelayedTransaction → RelayedTransaction) : Broker :=
  { s with transactions := s.transactions.modify t f }

/-! ### Ports -/

section

variable (s : Broker)

/-- A question to a port, answered yes or no. -/
def ask : Broker × Bool :=
  ({ s with port := { s.port with asked := s.port.asked + 1 } }, s.port.answer s.port.asked)

/-- A write to the identity store is a question, too. -/
def write (w : Bool → IdentityWrite) : Broker × Bool :=
  let (s, done) := s.ask
  ({ s with port := { s.port with writes := s.port.writes ++ [w done] } }, done)

def emit (o : HubOutput) : Broker := { s with port := { s.port with log := s.port.log ++ [o] } }

/-- A send, and what the transport reports meanwhile. -/
def transmit [Transport] (o : HubOutput) : Broker := Transport.reports (s.emit o) o

@[simp] theorem transmit_eq (o : HubOutput) : s.transmit o = s.emit o := rfl

/-- `sendControl`: a refused message marks the peer. Every message the broker
hands it has an encoding. -/
def sendControl [Transport] (i : PeerSlot) (m : HubMessage) : Broker :=
  let (s, taken) := s.ask
  let s := s.transmit (.control (s.directory i).peerId m taken)
  if taken then s else s.modifyPeer i fun p => { p with sendFailed := true }

def sendError [Transport] (peerId : UInt32) (code : ErrorCode) (detail : String) : Broker :=
  let (s, taken) := s.ask
  s.transmit (.control peerId (.error code detail) taken)

def sendFrame [Transport] (peerId : UInt32) (channel : UInt8) (d : Datagram) : Broker × Bool :=
  let (s, taken) := s.ask
  (s.transmit (.datagram peerId channel d taken), taken)

def setChannelMode (peerId : UInt32) (channel : UInt8) (reliable : Bool) : Broker :=
  s.emit (.channelMode peerId channel reliable)

/-- What the authorization port says of a peer: everything goes without one, or
for a peer without a fingerprint. -/
def authorized (i : PeerSlot) : Broker × Bool :=
  if (s.directory i).fingerprintHex = [] then (s, true)
  else if !s.config.hasAuthorization then (s, true)
  else s.ask

def clientCanRead (i : PeerSlot) : Broker × Bool := s.authorized i

def clientCanWrite (i : PeerSlot) : Broker × Bool := s.authorized i

def peerCanConfigure (i : PeerSlot) : Broker × Bool :=
  if (s.directory i).role = .admin then (s, true) else s.authorized i

end

/-! ### Leases -/

def leasedToAnother (s : Broker) (interfaceId clientPeerId : UInt32) : Bool :=
  match s.transactions.leaseHolder interfaceId with
  | none => false
  | some holder => holder ≠ clientPeerId

def channelLeasedToAnother (s : Broker) (i : PeerSlot) (channel : UInt8) : Bool :=
  if !s.transactions.anyLease then false
  else
    match (s.directory i).session.interfaceForChannel channel with
    | none => false
    | some interfaceId => s.leasedToAnother interfaceId (s.directory i).peerId

def endpointLeasedToAnother (s : Broker) (endpoint : BridgeEndpoint) (clientPeerId : UInt32) : Bool :=
  if !s.transactions.anyLease then false
  else
    match s.registry.findByName endpoint.agentName endpoint.interfaceName with
    | none => false
    | some k => s.leasedToAnother (s.registry.entries k).interfaceId clientPeerId

/-- The body of the loop of `relayPaceToClients`. -/
def relayPaceTo [Transport] (interfaceId paceRate : UInt32) (s : Broker) (i : PeerSlot) : Broker :=
  if !(s.directory i).inUse ∨ (s.directory i).role ≠ .client then s
  else
    match (s.directory i).session.channelForInterface interfaceId with
    | none => s
    | some channel =>
      s.sendControl i (.interfaceStatus
        { channel, advertisedRate := paceRate, leased := s.leasedToAnother interfaceId (s.directory i).peerId })

def relayPaceToClients [Transport] (s : Broker) (interfaceId paceRate : UInt32) : Broker :=
  (List.finRange peerDirectoryMax).foldl (relayPaceTo interfaceId paceRate) s

def announceLease [Transport] (s : Broker) (interfaceId : UInt32) : Broker :=
  match s.registry.findById interfaceId with
  | some k => s.relayPaceToClients interfaceId (s.registry.entries k).shaper.rateBitsPerS
  | none => s

/-! ### Ending transactions -/

def sendTxnAbort [Transport] (s : Broker) (agent : PeerSlot) (channel : UInt8) (txnId : UInt16) : Broker :=
  s.sendControl agent (.txnAbort ⟨channel, txnId⟩)

def sendTxnStatus [Transport] (s : Broker) (client : Option PeerSlot) (t : RelayedTransaction) (reason : TxnReason) :
    Broker :=
  match client with
  | none => s
  | some i =>
    s.sendControl i (.txnStatus
      { channel := t.clientChannel, state := TxnState.aborted.code, txnId := t.txnId, reason := reason.code
        failingSeq := t.completedSteps, completedSteps := t.completedSteps })

def finishTransaction [Transport] (s : Broker) (t : TransactionSlot) : Broker :=
  let transaction := s.transactions.entries t
  let s := { s with transactions := s.transactions.close t }
  if transaction.holdsLease then s.announceLease transaction.interfaceId else s

def abandonTransaction [Transport] (s : Broker) (t : TransactionSlot) : Broker :=
  let transaction := s.transactions.entries t
  if transaction.state = .pending then
    s.modifyTransaction t fun t => { t with clientPeerId := transactionNoClient }
  else
    let s := match s.find transaction.agentPeerId with
      | some agent => s.sendTxnAbort agent transaction.agentChannel transaction.txnId
      | none => s
    (s.countTransactions fun c => { c with aborted := c.aborted + 1 }).finishTransaction t

/-- The body of the loop of `abandonClientTransactions`. -/
def abandonIfOf [Transport] (clientPeerId : UInt32) (s : Broker) (t : TransactionSlot) : Broker :=
  if (s.transactions.entries t).isInUse ∧ (s.transactions.entries t).clientPeerId = clientPeerId then
    s.abandonTransaction t
  else s

def abandonClientTransactions [Transport] (s : Broker) (clientPeerId : UInt32) : Broker :=
  (List.finRange transactionTableMax).foldl (abandonIfOf clientPeerId) s

def failAgentTransaction [Transport] (s : Broker) (agentPeerId : UInt32) : Broker :=
  match s.transactions.forAgent agentPeerId with
  | none => s
  | some t =>
    let transaction := s.transactions.entries t
    let s := s.sendTxnStatus (s.find transaction.clientPeerId) transaction .agentDisconnected
    let s := s.countTransactions fun c =>
      if (s.transactions.entries t).state = .active then { c with aborted := c.aborted + 1 }
      else { c with rejected := c.rejected + 1 }
    s.finishTransaction t

def refuseTransaction [Transport] (s : Broker) (t : TransactionSlot) (agent : PeerSlot) (reason : TxnReason) : Broker :=
  let transaction := s.transactions.entries t
  let client := s.find transaction.clientPeerId
  let s := s.sendTxnAbort agent transaction.agentChannel transaction.txnId
  let s := s.sendTxnStatus client (s.transactions.entries t) reason
  (s.countTransactions fun c => { c with aborted := c.aborted + 1 }).finishTransaction t

/-! ### Channels -/

def revertAgentChannelIfUnused (s : Broker) (interfaceId : UInt32) : Broker :=
  match s.registry.findById interfaceId with
  | none => s
  | some k =>
    let entry := s.registry.entries k
    if entry.isVirtual then s
    else if (Table.find? s.directory fun p =>
        p.inUse && p.role == .client && p.session.holdsReliable interfaceId).isSome then s
    else s.setChannelMode entry.agentPeerId entry.agentChannel false

def closeClientChannel [Transport] (s : Broker) (i : PeerSlot) (channel : UInt8) : Broker :=
  match (s.directory i).session.findByChannel channel with
  | none => s
  | some j =>
    let s := match s.transactions.forClientChannel (s.directory i).peerId channel with
      | some t => s.abandonTransaction t
      | none => s
    let binding := (s.directory i).session.bindings j
    let s := s.modifySession i (·.closeChannel channel)
    if !binding.reliable then s
    else
      (s.setChannelMode (s.directory i).peerId channel false).revertAgentChannelIfUnused binding.interfaceId

/-- The loop of `removeClientInterface`, with the bindings there can be. -/
def removeClientInterface [Transport] (s : Broker) (i : PeerSlot) (interfaceId : UInt32) : ℕ → Broker
  | 0 => s
  | bindings + 1 =>
    match (s.directory i).session.channelForInterface interfaceId with
    | none => s
    | some channel => (s.closeClientChannel i channel).removeClientInterface i interfaceId bindings

/-- The loop of `releaseReliableBindings`, with the bindings there can be. -/
def releaseReliableBindings (s : Broker) (i : PeerSlot) : ℕ → Broker
  | 0 => s
  | bindings + 1 =>
    match (s.directory i).session.takeReliableBinding with
    | none => s
    | some (session, interfaceId) =>
      ((s.modifySession i fun _ => session).revertAgentChannelIfUnused interfaceId).releaseReliableBindings i bindings

/-- `detachInterface`: every client's bindings of the interface go dormant. -/
def detachInterface (s : Broker) (interfaceId : UInt32) : Broker :=
  { s with directory := fun i =>
    if (s.directory i).inUse ∧ (s.directory i).role = .client then
      { s.directory i with session := (s.directory i).session.detachInterface interfaceId }
    else s.directory i }

/-- The body of the loop of `detachAgent`. -/
def detachEntryOf (agentPeerId : UInt32) (s : Broker) (k : EntrySlot) : Broker :=
  let entry := s.registry.entries k
  if entry.inUse ∧ entry.agentPeerId = agentPeerId then s.detachInterface entry.interfaceId else s

def detachAgent (s : Broker) (agentPeerId : UInt32) : Broker :=
  let s := (List.finRange interfaceRegistryMax).foldl (detachEntryOf agentPeerId) s
  { s with registry := s.registry.removePeer agentPeerId }

/-- The body of the loop of `reattachInterface`. -/
def reattachPeer [Transport] (k : EntrySlot) (s : Broker) (i : PeerSlot) : Broker :=
  let entry := s.registry.entries k
  if !(s.directory i).inUse ∨ (s.directory i).role ≠ .client then s
  else
    let (s, canWrite) := s.clientCanWrite i
    let (session, reattached) :=
      (s.directory i).session.reattachInterface entry.agentName entry.interfaceName entry.interfaceId canWrite
    let s := s.modifySession i fun _ => session
    if !reattached then s
    else
      let (s, canRead) := s.clientCanRead i
      if !canRead then s.removeClientInterface i entry.interfaceId clientSessionBindingsMax
      else
        match (s.directory i).session.channelForInterface entry.interfaceId with
        | none => s
        | some channel =>
          if (s.directory i).session.channelReliable channel then
            s.setChannelMode entry.agentPeerId entry.agentChannel true
          else s

def reattachInterface [Transport] (s : Broker) (k : EntrySlot) : Broker :=
  (List.finRange peerDirectoryMax).foldl (reattachPeer k) s

/-- The body of the loop of `reattachClientsToAgent`. -/
def reattachEntryOf [Transport] (agentPeerId : UInt32) (s : Broker) (k : EntrySlot) : Broker :=
  if (s.registry.entries k).inUse ∧ (s.registry.entries k).agentPeerId = agentPeerId then s.reattachInterface k
  else s

def reattachClientsToAgent [Transport] (s : Broker) (agentPeerId : UInt32) : Broker :=
  (List.finRange interfaceRegistryMax).foldl (reattachEntryOf agentPeerId) s

/-! ### Peers that leave -/

def releaseEchoTokens (s : Broker) (clientPeerId : UInt32) : Broker :=
  { s with directory := fun i =>
    if (s.directory i).inUse ∧ (s.directory i).role = .agent then
      { s.directory i with echoTokens := (s.directory i).echoTokens.releaseClient clientPeerId }
    else s.directory i }

def replyConfigure [Transport] (s : Broker) (i : PeerSlot) (status : ConfigureStatus) : Broker :=
  s.sendControl i (.configureReply { status })

/-- A pending request is answered or forgotten. -/
def clearPendingIfconfig (s : Broker) (k : Fin brokerPendingIfconfigMax) : Broker :=
  { s with pendingIfconfig :=
    Function.update s.pendingIfconfig k { s.pendingIfconfig k with inUse := false } }

/-- The body of the loop of `releasePendingIfconfig`. -/
def releasePendingOf [Transport] (peerId : UInt32) (s : Broker) (k : Fin brokerPendingIfconfigMax) : Broker :=
  let pending := s.pendingIfconfig k
  if !pending.inUse then s
  else if pending.agentPeerId = peerId then
    (match s.find pending.requesterPeerId with
      | some requester => s.replyConfigure requester .agentUnreachable
      | none => s).clearPendingIfconfig k
  else if pending.requesterPeerId = peerId then s.clearPendingIfconfig k
  else s

def releasePendingIfconfig [Transport] (s : Broker) (peerId : UInt32) : Broker :=
  (List.finRange brokerPendingIfconfigMax).foldl (releasePendingOf peerId) s

/-- `PeerDirectory_Release`. -/
def releaseSlot (s : Broker) (peerId : UInt32) : Broker :=
  match s.find peerId with
  | some i => s.modifyPeer i fun _ => {}
  | none => s

def releasePeer [Transport] (s : Broker) (i : PeerSlot) : Broker :=
  let peerId := (s.directory i).peerId
  let s := if (s.directory i).role = .agent then (s.failAgentTransaction peerId).detachAgent peerId else s
  let s :=
    if (s.directory i).role = .client then
      ((s.abandonClientTransactions peerId).releaseReliableBindings i clientSessionBindingsMax).releaseEchoTokens peerId
    else s
  (s.releasePendingIfconfig peerId).releaseSlot peerId

def disconnectPeer [Transport] (s : Broker) (peerId : UInt32) : Broker :=
  match s.find peerId with
  | some i => (s.releasePeer i).emit (.closePeer peerId)
  | none => s

end Broker
end CanHub
