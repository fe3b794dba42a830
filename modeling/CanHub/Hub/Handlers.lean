/-
# The broker's handlers and events

One function for each control message and each transport event, and `step`,
which is one event with the answers the ports give during it. A `run` is a list
of them from `init`.

A page query only answers, so all of them are one handler. The messages come
decoded; what the decoders refuse reaches no handler but those that answer it
(`none`).
-/
import CanHub.Hub.Frames
import CanHub.Lib.Run
import CanHub.Protocol.Steps

namespace CanHub

@[simp] abbrev helloTimeoutUs : ℕ := 5000000
@[simp] abbrev awaitingHelloMax : ℕ := peerDirectoryMax / 2
@[simp] abbrev awaitingHelloPerHostMax : ℕ := 4
@[simp] abbrev firstContactPinsMax : ℕ := 2 * peerDirectoryMax

structure HubPeerConnectInfo where
  fingerprintHex : Option Text := none
  origin : Option Text := none
  originHost : Option Text := none
  transportKind : PeerTransport := .unknown
  isLocal : Bool := false
deriving DecidableEq

/-- A control message, as the hub's decoders hand it over. -/
inductive ControlMessage
  | hello (m : Option HelloMessage)
  | register (m : Option RegisterMessage)
  | list
  | openInterface (m : OpenMessage)
  | close (channel : UInt8)
  | subscribe (m : Option SubscribeMessage)
  | ping (isReply : Bool)
  | configure (m : ConfigureMessage)
  | ifconfigReply (m : IfconfigReplyMessage)
  | interfaceStatus (entries : List InterfaceStatusEntry)
  | adminQuery (query : AdminQuery)
  | adminKick (agentName : Text)
  | adminKickPeer (peerId : UInt32)
  | adminForget (agentName : Text)
  | adminPinAdd (agentName fingerprintHex : Text)
  | adminAclSet
  | adminAclRevoke
  | adminBridgeSet (route : BridgeRoute)
  | adminBridgeDelete (source destination : BridgeEndpoint)
  | adminGroupSet (name : Text) (filters : List CanFilter)
  | adminGroupDelete (name : Text)
  | adminGroupJoin (name : Text) (member : BridgeGroupMember)
  | adminGroupLeave (name : Text) (endpoint : BridgeEndpoint)
  | txnBegin (m : TxnBeginMessage)
  | txnBeginAck (m : TxnBeginAckMessage)
  | txnContent (type : TxnContentType) (payload : List UInt8)
  | txnProgress (m : TxnProgressMessage)
  | txnStatus (m : TxnStatusMessage)
  | txnAbort (m : TxnAbortMessage)
  | txnRosterReport (m : TxnRosterReportMessage)
deriving DecidableEq

/-- What a peer sends on its channels. -/
inductive InboundDatagram
  | content (type : TxnContentType) (payload : List UInt8)
  | frames (frames : List FrameMessage)
deriving DecidableEq

namespace Broker

/-! ### Transactions -/

section

variable (s : Broker)

def activeTransactionOfAgent (i : PeerSlot) (txnId : UInt16) : Option TransactionSlot :=
  if (s.directory i).role ≠ .agent then none
  else
    match s.transactions.forAgent (s.directory i).peerId with
    | none => none
    | some t =>
      if (s.transactions.entries t).state = .active ∧ (s.transactions.entries t).txnId = txnId then some t else none

def relayTransactionMessage [Transport] (destination : Option PeerSlot) (m : HubMessage) : Broker :=
  match destination with
  | some i => s.sendControl i m
  | none => s

def replyTxnBegin [Transport] (i : PeerSlot) (channel : UInt8) (status : UInt8) : Broker :=
  s.sendControl i (.txnBeginAck ⟨channel, status, 0, 0⟩)

/-- `admitTransaction`: the refusal, or the entry to open. -/
def admitTransaction (i : PeerSlot) (b : TxnBeginMessage) : Broker × Except TxnBeginStatus RelayedTransaction :=
  let client := s.directory i
  match client.session.interfaceForChannel b.channel with
  | none => (s, .error .invalid)
  | some interfaceId =>
    match s.registry.findById interfaceId with
    | none => (s, .error .invalid)
    | some k =>
      let entry := s.registry.entries k
      if entry.isVirtual then (s, .error .invalid)
      else
        match s.find entry.agentPeerId with
        | none => (s, .error .invalid)
        | some a =>
          let agent := s.directory a
          if agent.capabilities &&& helloCapTransactions = 0 then (s, .error .unsupported)
          else if !client.session.channelReliable b.channel then (s, .error .reliableChannelRequired)
          else
            match s.ask with
            | (s, false) => (s, .error .reliableChannelRequired)
            | (s, true) =>
              if !client.session.canWrite b.channel then (s, .error .writeDenied)
              else if (s.transactions.forAgent agent.peerId).isSome then (s, .error .busy)
              else
                (s, .ok
                  { exclusive := b.flags &&& txnBeginFlagExclusive ≠ 0, interfaceId, agentPeerId := agent.peerId
                    agentChannel := entry.agentChannel, clientPeerId := client.peerId, clientChannel := b.channel
                    startedAtUs := s.nowUs })

def rejectTxnBegin [Transport] (i : PeerSlot) (channel : UInt8) (status : TxnBeginStatus) : Broker :=
  (s.countTransactions fun c => { c with rejected := c.rejected + 1 }).replyTxnBegin i channel status.code

def handleTxnBegin [Transport] (i : PeerSlot) (b : TxnBeginMessage) : Broker :=
  if (s.directory i).role ≠ .client then s
  else
    match s.admitTransaction i b with
    | (s, .error status) => s.rejectTxnBegin i b.channel status
    | (s, .ok request) =>
      match s.transactions.openEntry request with
      | none => s.rejectTxnBegin i b.channel .busy
      | some (transactions, _) =>
        { s with transactions }.relayTransactionMessage (s.find request.agentPeerId)
          (.txnBegin { b with channel := request.agentChannel })

/-- The window the hub passes on. -/
def relayedWindow (windowBytes : UInt32) : UInt32 :=
  if UInt32.ofNat transactionRelayWindowMax < windowBytes then UInt32.ofNat transactionRelayWindowMax
  else windowBytes

def handleTxnBeginAck [Transport] (i : PeerSlot) (ack : TxnBeginAckMessage) : Broker :=
  if (s.directory i).role ≠ .agent then s
  else
    match s.transactions.forAgent (s.directory i).peerId with
    | none => s
    | some t =>
      let transaction := s.transactions.entries t
      if transaction.state ≠ .pending then s
      else if ack.status ≠ TxnBeginStatus.ok.code then
        let client := s.find transaction.clientPeerId
        let s := s.countTransactions fun c => { c with rejected := c.rejected + 1 }
        let s := { s with transactions := s.transactions.close t }
        match client with
        | some client => s.replyTxnBegin client transaction.clientChannel ack.status
        | none => s
      else
        match s.find transaction.clientPeerId with
        | none =>
          let s := s.countTransactions fun c => { c with aborted := c.aborted + 1 }
          let s := s.sendTxnAbort i transaction.agentChannel ack.txnId
          { s with transactions := s.transactions.close t }
        | some client =>
          let s := { s with transactions := s.transactions.activate t ack.txnId }
          let s := s.countTransactions fun c => { c with started := c.started + 1 }
          let s := if transaction.exclusive then s.announceLease transaction.interfaceId else s
          s.sendControl client (.txnBeginAck
            { ack with channel := transaction.clientChannel, windowBytes := relayedWindow ack.windowBytes })

/-- `agentRefusesTemplate`: an ISO-TP template for an agent without ISO-TP. -/
def agentRefusesTemplate (agent : HubPeer) (type : TxnContentType) (payload : List UInt8) : Bool :=
  type = .template ∧ agent.capabilities &&& helloCapIsotp = 0 ∧ txnTemplateBodySize ≤ payload.length
    ∧ (Wire.byteAt payload 1).toNat < txnTemplatesMax ∧ Wire.byteAt payload 16 = TxnTemplateType.isotp.code

/-- `relayTransactionContent`: the broker, and `false` when the agent's channel has no room. -/
def relayTransactionContent [Transport] (i : PeerSlot) (type : TxnContentType) (payload : List UInt8) : Broker × Bool :=
  if (s.directory i).role ≠ .client ∨ payload = [] ∨ controlBufferSize < messageHeaderSize + payload.length then
    (s, true)
  else
    match s.transactions.forClientChannel (s.directory i).peerId (Wire.byteAt payload 0) with
    | none => (s, true)
    | some t =>
      let transaction := s.transactions.entries t
      if transaction.state ≠ .active then (s, true)
      else
        match s.find transaction.agentPeerId with
        | none => (s, true)
        | some agent =>
          if agentRefusesTemplate (s.directory agent) type payload then
            (s.refuseTransaction t agent .unsupported, true)
          else
            match s.ask with
            | (s, false) => (s, false)
            | (s, true) =>
              let s :=
                if type = .steps ∧ txnStepsFixedFieldsSize ≤ payload.length then
                  s.modifyTransaction t fun t =>
                    { t with relayedBytes := t.relayedBytes + UInt32.ofNat (payload.length - txnStepsFixedFieldsSize) }
                else s
              ((s.sendFrame (s.directory agent).peerId transaction.agentChannel
                (.content type (payload.set 0 transaction.agentChannel))).1, true)

def handleTxnProgress [Transport] (i : PeerSlot) (m : TxnProgressMessage) : Broker :=
  match s.activeTransactionOfAgent i m.txnId with
  | none => s
  | some t =>
    let transaction := s.transactions.entries t
    let s := s.modifyTransaction t fun t =>
      { t with completedSteps := m.completedSteps, consumedBytes := m.consumedBytes, lastProgressUs := s.nowUs }
    s.relayTransactionMessage (s.find transaction.clientPeerId)
      (.txnProgress { m with channel := transaction.clientChannel })

def handleTxnStatus [Transport] (i : PeerSlot) (m : TxnStatusMessage) : Broker :=
  match s.activeTransactionOfAgent i m.txnId with
  | none => s
  | some t =>
    let transaction := s.transactions.entries t
    let s := s.countTransactions fun c =>
      if m.state = TxnState.done.code then { c with completed := c.completed + 1 }
      else { c with aborted := c.aborted + 1 }
    let s := s.countTransactions fun c => { c with stepsCompleted := c.stepsCompleted + m.completedSteps.toUInt64 }
    let s := s.relayTransactionMessage (s.find transaction.clientPeerId)
      (.txnStatus { m with channel := transaction.clientChannel })
    s.finishTransaction t

def handleTxnAbort [Transport] (i : PeerSlot) (m : TxnAbortMessage) : Broker :=
  if (s.directory i).role ≠ .client then s
  else
    match s.transactions.forClientChannel (s.directory i).peerId m.channel with
    | none => s
    | some t =>
      let transaction := s.transactions.entries t
      if transaction.state = .pending then s.abandonTransaction t
      else
        s.relayTransactionMessage (s.find transaction.agentPeerId)
          (.txnAbort { m with channel := transaction.agentChannel })

def handleTxnRosterReport [Transport] (i : PeerSlot) (m : TxnRosterReportMessage) : Broker :=
  match s.activeTransactionOfAgent i m.txnId with
  | none => s
  | some t =>
    let transaction := s.transactions.entries t
    s.relayTransactionMessage (s.find transaction.clientPeerId)
      (.txnRosterReport { m with channel := transaction.clientChannel })

end

/-! ### Peers and their names -/

section

variable (s : Broker)

/-- The known peers of a store: no port, or no fingerprint, knows nobody. -/
def knownTo (hasPort : Bool) (fingerprintHex : Text) : Broker × Bool :=
  if !hasPort ∨ fingerprintHex = [] then (s, false) else s.ask

def agentIsEnrolled (i : PeerSlot) : Broker × Bool :=
  s.knownTo s.config.hasIdentityStore (s.directory i).fingerprintHex

def clientIsNamedByAcl (i : PeerSlot) : Broker × Bool :=
  s.knownTo s.config.hasAuthorization (s.directory i).fingerprintHex

def clientIsAdmitted (i : PeerSlot) : Bool :=
  !s.config.requireKnownPeers ∨ (s.directory i).fingerprintHex = [] ∨ (s.directory i).vouched

def recordRejection (i : PeerSlot) (name : Text) (reason : RejectedReason) : Broker :=
  { s with rejectedPeers := s.rejectedPeers.record (s.directory i) name reason s.nowUs }

def forgetRejection (i : PeerSlot) : Broker :=
  { s with rejectedPeers := s.rejectedPeers.forget (s.directory i) }

def rejectClient [Transport] (i : PeerSlot) : Broker :=
  let s := s.recordRejection i (s.directory i).agentName .notAllowed
  let s := s.sendError (s.directory i).peerId .roleRejected "client fingerprint not in the hub allowlist"
  s.disconnectPeer (s.directory i).peerId

/-- A peer is told why and disconnected. -/
def turnAway [Transport] (i : PeerSlot) (code : ErrorCode) (detail : String) : Broker :=
  let s := s.sendError (s.directory i).peerId code detail
  s.disconnectPeer (s.directory i).peerId

def handleHello [Transport] (i : PeerSlot) (m : Option HelloMessage) : Broker :=
  if (s.directory i).role ≠ .unknown then s
  else
    match m with
    | none => s.turnAway i .malformed "malformed hello"
    | some hello =>
      match (s.directory i).adoptRole hello.role with
      | none => s.turnAway i .roleRejected "admin role requires a local transport"
      | some peer =>
        let s := s.modifyPeer i fun _ => { peer with capabilities := hello.capabilities }
        if (s.directory i).role ≠ .client then s
        else
          let s := if hello.name ≠ [] then s.modifyPeer i fun p => { p with agentName := hello.name } else s
          let (s, vouched) := s.clientIsNamedByAcl i
          let s := s.modifyPeer i fun p => { p with vouched }
          if !s.clientIsAdmitted i then s.rejectClient i else s.forgetRejection i

/-- `IdentityStorePort.lookup`. -/
def lookupPin : Broker × Option Text := (s.ask.1, s.port.pinned s.port.asked)

def firstContactPinsFull : Broker × Bool :=
  (s.ask.1, firstContactPinsMax ≤ s.port.firstContacts s.port.asked)

def agentIdentityStatus (i : PeerSlot) (m : RegisterMessage) : Broker × RegisterStatus :=
  let fingerprint := (s.directory i).fingerprintHex
  if !s.config.hasIdentityStore ∨ fingerprint = [] then (s, .ok)
  else
    match s.lookupPin with
    | (s, some pinned) => (s, if pinned = fingerprint then .ok else .identityMismatch)
    | (s, none) =>
      if s.config.requireKnownPeers then (s, .unknownAgent)
      else
        match s.firstContactPinsFull with
        | (s, true) => (s, .unknownAgent)
        | (s, false) =>
          match s.write (.pin m.agentName fingerprint) with
          | (s, false) => (s, .rejected)
          | (s, true) => (s, .ok)

def unknownAgentDetail : String :=
  if s.config.requireKnownPeers then "agent fingerprint not in the hub allowlist"
  else "first-contact pins are full; enroll the agent with pins add"

def rejectAgent [Transport] (i : PeerSlot) (agentName : Text) (status : RegisterStatus) : Broker :=
  let s := s.sendControl i (.registerAck ⟨status, []⟩)
  match status with
  | .unknownAgent => (s.recordRejection i agentName .notAllowed).turnAway i .roleRejected s.unknownAgentDetail
  | .identityMismatch =>
    (s.recordRejection i agentName .fingerprintMismatch).turnAway i .roleRejected
      "agent name pinned to a different fingerprint"
  | _ => s.turnAway i .roleRejected "agent identity could not be pinned"

/-- `displaceGhostPeer`: an earlier connection of the same agent makes way. -/
def displaceGhostPeer [Transport] (i : PeerSlot) (m : RegisterMessage) : Broker × Bool :=
  match s.registry.collidingPeer m with
  | none => (s, false)
  | some ghostPeerId =>
    if ghostPeerId = (s.directory i).peerId then (s, false)
    else
      match s.find ghostPeerId with
      | none => (s, false)
      | some ghost =>
        if !(s.directory i).isSameAgent (s.directory ghost) then (s, false)
        else (s.disconnectPeer ghostPeerId, true)

def registryHasRoomFor (interfaceCount : ℕ) : Bool :=
  interfaceCount ≤ interfaceRegistryMax - s.registry.count

/-- The loop of `makeRoomForInterfaces`, with the peers there can be. -/
def displaceAgentsFor [Transport] (s : Broker) (interfaceCount : ℕ) : ℕ → Broker × Bool
  | 0 => (s, s.registryHasRoomFor interfaceCount)
  | peers + 1 =>
    if s.registryHasRoomFor interfaceCount then (s, true)
    else
      match s.directory.findDisplaceableAgent with
      | none => (s, false)
      | some i => (s.turnAway i .hubFull "displaced by an enrolled agent").displaceAgentsFor interfaceCount peers

section

-- The loop is unfolded once; what it calls stays as it is.
attribute [local irreducible] turnAway registryHasRoomFor PeerDirectory.findDisplaceableAgent

theorem displaceAgentsFor_succ [Transport] (s : Broker) (interfaceCount peers : ℕ) :
    s.displaceAgentsFor interfaceCount (peers + 1) =
      if s.registryHasRoomFor interfaceCount then (s, true)
      else
        match s.directory.findDisplaceableAgent with
        | none => (s, false)
        | some i => (s.turnAway i .hubFull "displaced by an enrolled agent").displaceAgentsFor interfaceCount peers := rfl

end

def makeRoomForInterfaces [Transport] (interfaceCount : ℕ) : Broker × Bool :=
  if s.registryHasRoomFor interfaceCount then (s, false)
  else s.displaceAgentsFor interfaceCount peerDirectoryMax

end

/-- `InterfaceRegistry_RegisterAgent` on the broker's registry. -/
def registerAgent (s : Broker) (i : PeerSlot) (m : RegisterMessage) : Broker × RegisterAckMessage × Bool :=
  let (registry, ack, registered) := s.registry.registerAgent (s.directory i).peerId m
  ({ s with registry }, ack, registered)

/-- Another attempt to register, when room was made for it. -/
def retryRegister (i : PeerSlot) (m : RegisterMessage) (attempt : Broker × RegisterAckMessage × Bool)
    (makeRoom : Broker → Broker × Bool) : Broker × RegisterAckMessage × Bool :=
  let (s, ack, registered) := attempt
  if registered then (s, ack, true)
  else
    match makeRoom s with
    | (s, false) => (s, ack, false)
    | (s, true) => s.registerAgent i m

/-- The attempts to register: as it is, without a ghost, and with room made for it. -/
def attempts [Transport] (s : Broker) (i : PeerSlot) (m : RegisterMessage) : Broker × RegisterAckMessage × Bool :=
  retryRegister i m (retryRegister i m (s.registerAgent i m) fun s => s.displaceGhostPeer i m) fun s =>
    if (s.directory i).vouched then s.makeRoomForInterfaces m.interfaceNames.length else (s, false)

/-- The agent is marked as the identity store says. -/
def vouchFor (s : Broker) (i : PeerSlot) : Broker :=
  (s.agentIsEnrolled i).1.modifyPeer i fun p => { p with vouched := (s.agentIsEnrolled i).2 }

/-- The end of `handleRegister`: the agent is told, and gone or reattached to. -/
def acknowledge [Transport] (s : Broker) (i : PeerSlot) (m : RegisterMessage) (ack : RegisterAckMessage)
    (registered : Bool) : Broker :=
  let s := s.sendControl i (.registerAck ack)
  if !registered then s.disconnectPeer (s.directory i).peerId
  else
    let s := s.modifyPeer i fun p => { p with agentName := m.agentName }
    (s.forgetRejection i).reattachClientsToAgent (s.directory i).peerId

def handleRegister [Transport] (s : Broker) (i : PeerSlot) (m : Option RegisterMessage) : Broker :=
  if (s.directory i).role ≠ .agent then s
  else
    match m with
    | none => s.turnAway i .malformed "malformed register"
    | some m =>
      if m.agentName = bridgeGroupAgentName then
        s.turnAway i .roleRejected "the agent name group is reserved for bridge groups"
      else
        match s.agentIdentityStatus i m with
        | (s, .ok) =>
          let (s, ack, registered) := (s.vouchFor i).attempts i m
          s.acknowledge i m ack registered
        | (s, status) => s.rejectAgent i m.agentName status

variable {m : RegisterMessage}

theorem retryRegister_again {i : PeerSlot} (s₁ : Broker) (ack : RegisterAckMessage)
    {makeRoom : Broker → Broker × Bool} : retryRegister i m (s₁, ack, false) makeRoom =
    if (makeRoom s₁).2 then (makeRoom s₁).1.registerAgent i m else ((makeRoom s₁).1, ack, false) := by
  unfold retryRegister
  dsimp only
  rw [if_neg (by simp)]
  rcases hroom : makeRoom s₁ with ⟨s₂, made⟩
  cases made <;> rfl

/-! ### Channels -/

section

variable (s : Broker) (i : PeerSlot)

def reliableEndpointsSupport (entry : InterfaceEntry) : Bool :=
  if (s.directory i).capabilities &&& helloCapReliableChannels = 0 then false
  else
    match s.find entry.agentPeerId with
    | none => false
    | some agent => (s.directory agent).capabilities &&& helloCapReliableChannels ≠ 0

def sendOpenAck [Transport] (m : OpenMessage) (status : OpenStatus) (channel : UInt8) : Broker :=
  s.sendControl i (.openAck ⟨status, channel, m.interfaceId⟩)

/-- The last part of `handleOpen`: everybody agrees that the channel may open. -/
def openChannel [Transport] (m : OpenMessage) (entry : InterfaceEntry) (canWrite : Bool) : Broker :=
  let reliable : Bool := m.flags &&& openFlagReliable ≠ 0
  let request : ChannelOpenRequest :=
    { interfaceId := m.interfaceId, suppressEcho := m.flags &&& openFlagSuppressOwnEcho ≠ 0, canWrite, reliable
      errorFrames := m.flags &&& openFlagErrorFrames ≠ 0, agentName := entry.agentName
      interfaceName := entry.interfaceName }
  let (session, opened) := (s.directory i).session.openInterface request
  let s := s.modifySession i fun _ => session
  match opened with
  | none => s.sendOpenAck i m .rejected 0
  | some channel =>
    let s := if reliable then s.setChannelMode entry.agentPeerId entry.agentChannel true else s
    let s := s.sendOpenAck i m .ok channel
    if s.leasedToAnother entry.interfaceId (s.directory i).peerId then s.announceLease entry.interfaceId else s

def handleOpen [Transport] (m : OpenMessage) : Broker :=
  if (s.directory i).role ≠ .client then s
  else
    match s.registry.findById m.interfaceId with
    | none => s.sendOpenAck i m .rejected 0
    | some k =>
      let entry := s.registry.entries k
      match s.clientCanRead i with
      | (s, false) =>
        (s.sendOpenAck i m .readDenied 0).sendError (s.directory i).peerId .roleRejected
          "not authorized to read this interface"
      | (s, true) =>
        let (s, canWrite) := s.clientCanWrite i
        if m.flags &&& openFlagWantWrite ≠ 0 ∧ !canWrite then
          (s.sendOpenAck i m .writeDenied 0).sendError (s.directory i).peerId .roleRejected
            "not authorized to inject on this interface"
        else if m.flags &&& openFlagReliable ≠ 0 ∧ !s.reliableEndpointsSupport i entry then
          s.sendOpenAck i m .reliableUnsupported 0
        else s.openChannel i m entry canWrite

def handleClose [Transport] (channel : UInt8) : Broker :=
  if (s.directory i).role ≠ .client then s else s.closeClientChannel i channel

def handleSubscribe [Transport] (m : Option SubscribeMessage) : Broker :=
  if (s.directory i).role ≠ .client then s
  else
    match m with
    | none => s.sendError (s.directory i).peerId .malformed "malformed subscribe"
    | some m =>
      match (s.directory i).session.setFilters m.channel m.filters with
      | none => s.sendError (s.directory i).peerId .malformed "subscribe on unopened channel"
      | some session => s.modifySession i fun _ => session

end

/-! ### Interfaces -/

def handleInterfaceStatusEntry [Transport] (i : PeerSlot) (s : Broker) (e : InterfaceStatusEntry) : Broker :=
  let peerId := (s.directory i).peerId
  let registry := (s.registry.setTxDropped peerId e.channel e.txDropped).applyAdvertisedRate peerId e.channel
    e.advertisedRate e.credit s.nowUs
  let s := { s with registry }
  match s.registry.findByAgentChannel peerId e.channel with
  | none => s
  | some k =>
    s.relayPaceToClients (s.registry.entries k).interfaceId (s.registry.entries k).shaper.rateBitsPerS

def handleInterfaceStatus [Transport] (s : Broker) (i : PeerSlot) (entries : List InterfaceStatusEntry) : Broker :=
  if (s.directory i).role ≠ .agent then s else entries.foldl (handleInterfaceStatusEntry i) s

/-- `rememberPendingIfconfig`: the broker and the request id. -/
def rememberPendingIfconfig (s : Broker) (requesterPeerId : UInt32) (entry : InterfaceEntry) :
    Option (Broker × UInt32) :=
  (s.pendingIfconfig.find? fun p => !p.inUse).map fun k =>
    let requestId := s.nextIfconfigRequestId + 1
    ({ s with
        nextIfconfigRequestId := requestId
        pendingIfconfig := Function.update s.pendingIfconfig k
          { inUse := true, requesterPeerId, agentPeerId := entry.agentPeerId
            interfaceId := entry.interfaceId, requestId } }, requestId)

def handleConfigure [Transport] (s : Broker) (i : PeerSlot) (m : ConfigureMessage) : Broker :=
  if (s.directory i).role ≠ .admin ∧ (s.directory i).role ≠ .client then s
  else
    match s.registry.findByName m.agentName m.interfaceName with
    | none => s.replyConfigure i .unknownInterface
    | some k =>
      let entry := s.registry.entries k
      if entry.isVirtual then s.replyConfigure i .unknownInterface
      else
        match s.peerCanConfigure i with
        | (s, false) => s.replyConfigure i .denied
        | (s, true) =>
          match s.find entry.agentPeerId with
          | none => s.replyConfigure i .agentUnreachable
          | some agent =>
            if (s.directory agent).role ≠ .agent then s.replyConfigure i .agentUnreachable
            else
              match s.rememberPendingIfconfig (s.directory i).peerId entry with
              | none => s.replyConfigure i .agentUnreachable
              | some (s, requestId) =>
                s.sendControl agent (.ifconfig ⟨requestId, entry.interfaceName, m.op, m.settings⟩)

def configureStatus : IfconfigStatus → ConfigureStatus
  | .ok => .ok
  | .unknownInterface => .unknownInterface
  | .applyFailed => .applyFailed

def learnFdFromSettings (s : Broker) (interfaceId : UInt32) (settings : InterfaceSettings) : Broker :=
  if settings.fields &&& interfaceFieldCtrlmode = 0 ∨ settings.ctrlmodeMask &&& interfaceCtrlmodeFd = 0 then s
  else { s with registry :=
    s.registry.setFdCapable interfaceId (settings.ctrlmodeFlags &&& interfaceCtrlmodeFd ≠ 0) }

def handleIfconfigReply [Transport] (s : Broker) (i : PeerSlot) (m : IfconfigReplyMessage) : Broker :=
  if (s.directory i).role ≠ .agent then s
  else
    match s.pendingIfconfig.find? fun p =>
        p.inUse && p.agentPeerId == (s.directory i).peerId && p.requestId == m.requestId with
    | none => s
    | some k =>
      let pending := s.pendingIfconfig k
      let s := (s.clearPendingIfconfig k).learnFdFromSettings pending.interfaceId m.settings
      match s.find pending.requesterPeerId with
      | none => s
      | some requester =>
        s.sendControl requester (.configureReply ⟨configureStatus m.status, m.settings, m.detail⟩)

/-! ### Administration -/

section

variable (s : Broker) (i : PeerSlot)

/-- The queries: an answer, for an administrator. -/
def handleAdminQuery [Transport] (query : AdminQuery) : Broker :=
  if (s.directory i).role ≠ .admin then s else s.sendControl i (.adminPage query)

/-- The requests a store decides: `ADMIN_PIN_ADD`, `ADMIN_FORGET`, `ADMIN_ACL_SET` and `ADMIN_ACL_REVOKE`. -/
def handleStoreRequest [Transport] (hasStore : Bool) (request : Broker → Broker × Bool) (refused : AdminStatus) : Broker :=
  if (s.directory i).role ≠ .admin then s
  else
    let (s, done) := if hasStore then request s else (s, false)
    s.sendControl i (.adminReply (if done then .ok else refused))

def handleAdminPinAdd [Transport] (agentName fingerprintHex : Text) : Broker :=
  s.handleStoreRequest i s.config.hasIdentityStore (·.write (.enroll agentName fingerprintHex)) .pinFailed

def handleAdminForget [Transport] (agentName : Text) : Broker :=
  s.handleStoreRequest i s.config.hasIdentityStore (·.write (.forget agentName)) .unknownAgent

def handleAdminAclSet [Transport] : Broker :=
  s.handleStoreRequest i s.config.hasAuthorization ask .pinFailed

def handleAdminAclRevoke [Transport] : Broker :=
  s.handleStoreRequest i s.config.hasAuthorization ask .unknownAgent

/-- A peer the administrator turns out, once the administrator has been answered. -/
def kick [Transport] (victim : Option UInt32) (unknown : AdminStatus) : Broker :=
  match victim with
  | none => s.sendControl i (.adminReply unknown)
  | some peerId =>
    ((s.sendControl i (.adminReply .ok)).sendError peerId .kicked "kicked by the hub administrator").disconnectPeer
      peerId

def handleAdminKick [Transport] (agentName : Text) : Broker :=
  if (s.directory i).role ≠ .admin then s
  else s.kick i ((s.directory.findAgentByName agentName).map fun a => (s.directory a).peerId) .unknownAgent

def handleAdminKickPeer [Transport] (peerId : UInt32) : Broker :=
  if (s.directory i).role ≠ .admin then s
  else s.kick i ((s.find peerId).map fun _ => peerId) .unknownPeer

/-- A change is written to the bridge store first, if there is one. -/
def store (s : Broker) : Broker × Bool := if s.config.hasBridgeStore then s.ask else (s, true)

def isGroupEndpoint (e : BridgeEndpoint) : Bool := e.agentName = bridgeGroupAgentName

def applyBridgeRoute (s : Broker) (r : BridgeRoute) : Broker × AdminBridgeStatus :=
  if !r.isValid ∨ isGroupEndpoint r.source ∨ isGroupEndpoint r.destination then (s, .invalid)
  else if !s.bridges.hasRoom r then (s, .full)
  else
    match s.store with
    | (s, false) => (s, .storeFailed)
    | (s, true) => ({ s with bridges := s.bridges.set r }, .ok)

def removeBridgeRoute (s : Broker) (source destination : BridgeEndpoint) : Broker × AdminBridgeStatus :=
  if (s.bridges.findIndex source destination).isNone then (s, .unknown)
  else
    match s.store with
    | (s, false) => (s, .storeFailed)
    | (s, true) => ({ s with bridges := s.bridges.remove source destination }, .ok)

def openGroupInterface [Transport] (s : Broker) (name : Text) : Broker :=
  match s.registry.findByName bridgeGroupAgentName name with
  | some _ => s
  | none =>
    match s.registry.addVirtual bridgeGroupAgentName name with
    | none => s
    | some (registry, k) => { s with registry }.reattachInterface k

def closeGroupInterface (s : Broker) (name : Text) : Broker :=
  match s.registry.findByName bridgeGroupAgentName name with
  | none => s
  | some k =>
    let interfaceId := (s.registry.entries k).interfaceId
    let s := s.detachInterface interfaceId
    { s with registry := s.registry.removeVirtual interfaceId }

/-- `BridgeGroups_Set` on the broker's groups, whose result `applyGroup` does not look at. -/
def setGroup (s : Broker) (name : Text) (filters : List CanFilter) : Broker :=
  { s with groups := (s.groups.set name filters).getD s.groups }

def applyGroup [Transport] (s : Broker) (name : Text) (filters : List CanFilter) : Broker × AdminBridgeStatus :=
  if !BridgeGroup.isNameValid name then (s, .invalid)
  else if !s.groups.hasRoom name then (s, .full)
  else if (s.groups.find name).isNone ∧ interfaceRegistryMax ≤ s.registry.count then (s, .full)
  else
    match s.store with
    | (s, false) => (s, .storeFailed)
    | (s, true) => ((s.setGroup name filters).openGroupInterface name, .ok)

def removeGroup (s : Broker) (name : Text) : Broker × AdminBridgeStatus :=
  if (s.groups.find name).isNone then (s, .unknown)
  else
    match s.store with
    | (s, false) => (s, .storeFailed)
    | (s, true) =>
      let s := s.closeGroupInterface name
      ({ s with groups := s.groups.remove name }, .ok)

def joinGroup (s : Broker) (name : Text) (m : BridgeGroupMember) : Broker × AdminBridgeStatus :=
  match s.groups.find name with
  | none => (s, .unknown)
  | some g =>
    let group := (s.groups.slots g).group
    if isGroupEndpoint m.endpoint ∨ !m.isValid then (s, .invalid)
    else if !group.hasMember m.endpoint ∧ group.members.length = bridgeGroupMembersMax then (s, .full)
    else
      match s.store with
      | (s, false) => (s, .storeFailed)
      | (s, true) => ({ s with groups := s.groups.join name m }, .ok)

def leaveGroup (s : Broker) (name : Text) (endpoint : BridgeEndpoint) : Broker × AdminBridgeStatus :=
  match s.groups.find name with
  | none => (s, .unknown)
  | some g =>
    if !(s.groups.slots g).group.hasMember endpoint then (s, .unknown)
    else
      match s.store with
      | (s, false) => (s, .storeFailed)
      | (s, true) => ({ s with groups := s.groups.leave name endpoint }, .ok)

/-- The requests about bridges and groups: the change, and its status as the answer. -/
def handleBridgeRequest [Transport] (change : Broker → Broker × AdminBridgeStatus) : Broker :=
  if (s.directory i).role ≠ .admin then s
  else
    let (s, status) := change s
    s.sendControl i (.bridgeReply status)

def handleAdminBridgeSet [Transport] (r : BridgeRoute) : Broker :=
  s.handleBridgeRequest i (·.applyBridgeRoute r)

def handleAdminBridgeDelete [Transport] (source destination : BridgeEndpoint) : Broker :=
  s.handleBridgeRequest i (·.removeBridgeRoute source destination)

def handleAdminGroupSet [Transport] (name : Text) (filters : List CanFilter) : Broker :=
  s.handleBridgeRequest i (·.applyGroup name filters)

def handleAdminGroupDelete [Transport] (name : Text) : Broker :=
  s.handleBridgeRequest i (·.removeGroup name)

def handleAdminGroupJoin [Transport] (name : Text) (m : BridgeGroupMember) : Broker :=
  s.handleBridgeRequest i (·.joinGroup name m)

def handleAdminGroupLeave [Transport] (name : Text) (endpoint : BridgeEndpoint) : Broker :=
  s.handleBridgeRequest i (·.leaveGroup name endpoint)

end

/-! ### Events -/

section

variable (s : Broker)

def handlePing [Transport] (i : PeerSlot) (isReply : Bool) : Broker :=
  if isReply then s else s.sendControl i .pong

/-- `control_handlers`. -/
def handleControl [Transport] (i : PeerSlot) : ControlMessage → Broker
  | .hello m => s.handleHello i m
  | .register m => s.handleRegister i m
  | .list => s.sendControl i .listReply
  | .openInterface m => s.handleOpen i m
  | .close channel => s.handleClose i channel
  | .subscribe m => s.handleSubscribe i m
  | .ping isReply => s.handlePing i isReply
  | .configure m => s.handleConfigure i m
  | .ifconfigReply m => s.handleIfconfigReply i m
  | .interfaceStatus entries => s.handleInterfaceStatus i entries
  | .adminQuery query => s.handleAdminQuery i query
  | .adminKick agentName => s.handleAdminKick i agentName
  | .adminKickPeer peerId => s.handleAdminKickPeer i peerId
  | .adminForget agentName => s.handleAdminForget i agentName
  | .adminPinAdd agentName fingerprintHex => s.handleAdminPinAdd i agentName fingerprintHex
  | .adminAclSet => s.handleAdminAclSet i
  | .adminAclRevoke => s.handleAdminAclRevoke i
  | .adminBridgeSet r => s.handleAdminBridgeSet i r
  | .adminBridgeDelete source destination => s.handleAdminBridgeDelete i source destination
  | .adminGroupSet name filters => s.handleAdminGroupSet i name filters
  | .adminGroupDelete name => s.handleAdminGroupDelete i name
  | .adminGroupJoin name m => s.handleAdminGroupJoin i name m
  | .adminGroupLeave name endpoint => s.handleAdminGroupLeave i name endpoint
  | .txnBegin m => s.handleTxnBegin i m
  | .txnBeginAck m => s.handleTxnBeginAck i m
  | .txnContent type payload => (s.relayTransactionContent i type payload).1
  | .txnProgress m => s.handleTxnProgress i m
  | .txnStatus m => s.handleTxnStatus i m
  | .txnAbort m => s.handleTxnAbort i m
  | .txnRosterReport m => s.handleTxnRosterReport i m

def admitsPeerAwaitingHello (info : HubPeerConnectInfo) : Bool :=
  if info.isLocal then true
  else if awaitingHelloMax ≤ s.directory.countRole .unknown then false
  else
    match info.originHost with
    | none => true
    | some host => s.directory.countAwaitingHelloFrom host < awaitingHelloPerHostMax

def connectingPeerIsKnown (info : HubPeerConnectInfo) : Broker × Bool :=
  if info.isLocal ∨ info.fingerprintHex.isNone then (s, true)
  else
    match if s.config.hasAuthorization then s.ask else (s, false) with
    | (s, true) => (s, true)
    | (s, false) => if s.config.hasIdentityStore then s.ask else (s, false)

def makeRoomForKnownPeer [Transport] (info : HubPeerConnectInfo) : Broker × Bool :=
  match s.connectingPeerIsKnown info with
  | (s, false) => (s, false)
  | (s, true) =>
    match s.directory.findDisplaceable with
    | none => (s, false)
    | some i => (s.turnAway i .hubFull "displaced by a known peer", true)

/-- The peer `PeerDirectory_Allocate` and `onPeerConnected` set up. -/
def newPeer (peerId : UInt32) (info : HubPeerConnectInfo) (nowUs : ℕ) : HubPeer :=
  { inUse := true, peerId, isLocal := info.isLocal, transportKind := info.transportKind, connectedAtUs := nowUs
    fingerprintHex := info.fingerprintHex.getD [], origin := info.origin.getD [], originHost := info.originHost.getD [] }

/-- A connection the hub has no room for. -/
def refusePeer [Transport] (peerId : UInt32) (detail : String) : Broker :=
  (s.sendError peerId .hubFull detail).emit (.closePeer peerId)

/-- The peer that comes gets the first free slot. -/
def seat (s : Broker) (peerId : UInt32) (info : HubPeerConnectInfo) (nowUs : ℕ) : Broker :=
  match s.directory.freeSlot with
  | some i => s.modifyPeer i fun _ => newPeer peerId info nowUs
  | none => s

/-- `onPeerConnected` once the clock is set. -/
def receive [Transport] (s : Broker) (peerId : UInt32) (info : HubPeerConnectInfo) (nowUs : ℕ) : Broker :=
  if !s.admitsPeerAwaitingHello info then s.refusePeer peerId "too many peers awaiting hello"
  else
    match if s.directory.isFull then s.makeRoomForKnownPeer info else (s, true) with
    | (s, false) => s.refusePeer peerId "no peer slot available"
    | (s, true) => s.seat peerId info nowUs

def onPeerConnected [Transport] (peerId : UInt32) (info : HubPeerConnectInfo) (nowUs : ℕ) : Broker :=
  { s with nowUs }.receive peerId info nowUs

def onPeerDisconnected [Transport] (peerId : UInt32) : Broker :=
  match s.find peerId with
  | some i => s.releasePeer i
  | none => s

/-- A peer one of whose control messages was refused is disconnected after its own message. -/
def dropIfSendFailed [Transport] (peerId : UInt32) : Broker :=
  match s.find peerId with
  | some i => if (s.directory i).sendFailed then s.disconnectPeer peerId else s
  | none => s

def onPeerControl [Transport] (peerId : UInt32) (m : ControlMessage) (nowUs : ℕ) : Broker :=
  let s := { s with nowUs }
  match s.find peerId with
  | none => s
  | some i => (s.handleControl i m).dropIfSendFailed peerId

theorem dropIfSendFailed_sound {s : Broker} {peerId : UInt32} {i : PeerSlot} (h : s.find peerId = some i)
    (hsound : (s.directory i).sendFailed = false) : s.dropIfSendFailed peerId = s := by
  rw [dropIfSendFailed, h]
  exact if_neg (by simp [hsound])

theorem onPeerControl_eq (peerId : UInt32) (m : ControlMessage) (nowUs : ℕ) :
    s.onPeerControl peerId m nowUs = ({ s with nowUs }.find peerId).elim { s with nowUs }
      fun i => ({ s with nowUs }.handleControl i m).dropIfSendFailed peerId := by
  unfold onPeerControl
  dsimp only
  cases ({ s with nowUs } : Broker).find peerId <;> rfl

/-- `onPeerFrame`: the broker, and whether everything was taken. -/
def onPeerFrame [Transport] (peerId : UInt32) (d : InboundDatagram) : Broker × Bool :=
  match s.find peerId with
  | none => (s, true)
  | some i =>
    if (s.directory i).role ≠ .agent ∧ (s.directory i).role ≠ .client then (s, true)
    else
      match d with
      | .content type payload => s.relayTransactionContent i type payload
      | .frames frames => routeFrames i s frames

def onPeerWritable [Transport] (peerId : UInt32) : Broker :=
  match s.find peerId with
  | some i => s.drainPeer i
  | none => s

def tickHelloDeadline [Transport] (i : PeerSlot) : Broker :=
  if (s.directory i).helloDeadlineUs = 0 then
    s.modifyPeer i fun p => { p with helloDeadlineUs := s.nowUs + helloTimeoutUs }
  else if (s.directory i).helloDeadlineUs ≤ s.nowUs then
    s.turnAway i .helloTimeout "no hello within the deadline"
  else s

/-- The body of the loop of `Broker_Tick`. -/
def tickPeer [Transport] (s : Broker) (i : PeerSlot) : Broker :=
  if !(s.directory i).inUse then s
  else
    let s := if (s.directory i).role = .unknown then s.tickHelloDeadline i else s
    if (s.directory i).egress.hasPending then s.drainPeer i else s

def tick [Transport] (nowUs : ℕ) : Broker := (List.finRange peerDirectoryMax).foldl tickPeer { s with nowUs }

end

end Broker

/-- What can happen to the hub. -/
inductive HubEvent
  | connected (peerId : UInt32) (info : HubPeerConnectInfo) (nowUs : ℕ)
  | disconnected (peerId : UInt32)
  | control (peerId : UInt32) (m : ControlMessage) (nowUs : ℕ)
  | frame (peerId : UInt32) (d : InboundDatagram)
  | writable (peerId : UInt32)
  | tick (nowUs : ℕ)

/-- An event, and what the ports answer during it. -/
structure HubTurn where
  event : HubEvent
  answer : ℕ → Bool := fun _ => true
  pinned : ℕ → Option Text := fun _ => none
  firstContacts : ℕ → ℕ := fun _ => 0

/-- An event with what the ports answer, and which of the messages they refuse are lost with their connection. -/
structure LosingTurn extends HubTurn where
  lost : ℕ → HubOutput → Bool := fun _ _ => false

/-- The port at the beginning of an event. -/
def HubTurn.port (t : HubTurn) : HubPort := { answer := t.answer, pinned := t.pinned, firstContacts := t.firstContacts }

namespace Broker

def handle [Transport] (s : Broker) : HubEvent → Broker
  | .connected peerId info nowUs => s.onPeerConnected peerId info nowUs
  | .disconnected peerId => s.onPeerDisconnected peerId
  | .control peerId m nowUs => s.onPeerControl peerId m nowUs
  | .frame peerId d => (s.onPeerFrame peerId d).1
  | .writable peerId => s.onPeerWritable peerId
  | .tick nowUs => s.tick nowUs

def step [Transport] (s : Broker) (t : HubTurn) : Broker := { s with port := t.port }.handle t.event

def run [Transport] (s : Broker) (turns : List HubTurn) : Broker := Run.run step s turns

/-- The transports' own way: a message that is refused may be lost with its connection, which is then reported before the
send returns. What is reported while a report is handled is of another connection, so the reports have a depth. -/
def reportLoss (lost : ℕ → HubOutput → Bool) : ℕ → Broker → HubOutput → Broker
  | 0, s, _ => s
  | depth + 1, s, o =>
    let report (peerId : UInt32) : Broker :=
      if lost s.port.asked o then @onPeerDisconnected s ⟨reportLoss lost depth⟩ peerId else s
    match o with
    | .control peerId _ false => report peerId
    | .datagram peerId _ _ false => report peerId
    | _ => s

def stepLosing (s : Broker) (t : LosingTurn) : Broker := @step ⟨reportLoss t.lost peerDirectoryMax⟩ s t.toHubTurn

/-- `loadBridgeGroups`: one stored group. -/
def loadGroup [Transport] (s : Broker) (g : BridgeGroup) : Broker :=
  match s.groups.restore g with
  | some groups => { s with groups }.openGroupInterface g.name
  | none => s

/-- `Broker_Init`, with what the bridge store has. -/
def init [Transport] (config : HubConfig) (port : HubPort) (routes : List BridgeRoute) (groups : List BridgeGroup) :
    Broker :=
  let s : Broker := { config, port }
  if !config.hasBridgeStore then s
  else
    let s := { s with bridges := (routes.take bridgeRoutesMax).foldl BridgeRoutes.set s.bridges }
    (groups.take bridgeGroupsMax).foldl loadGroup s

/-! ### Small runs, for the instances below -/

/-- A hub without a store, and without peers. -/
def small : Broker :=
  .init {} { answer := fun _ => true, pinned := fun _ => none, firstContacts := fun _ => 0 } [] []

/-- An agent connects and registers interfaces. -/
def agentJoins (peerId : UInt32) (m : RegisterMessage) : List HubTurn :=
  [{ event := .connected peerId { isLocal := true } 0 },
   { event := .control peerId (.hello (some { role := .agent, capabilities := 7 })) 0 },
   { event := .control peerId (.register (some m)) 0 }]

/-- The registration of one interface. -/
def registersOne (agent interface : UInt8) : RegisterMessage where
  agentName := [agent]
  interfaceNames := [[interface]]
  count_le := by simp
  named := by simp

/-- A client connects and opens an interface for writing, by reliable channel. -/
def clientJoins (peerId interfaceId : UInt32) : List HubTurn :=
  [{ event := .connected peerId { isLocal := true } 0 },
   { event := .control peerId (.hello (some { role := .client, capabilities := 7 })) 0 },
   { event := .control peerId (.openInterface { interfaceId, flags := 6 }) 0 }]

/-- A client begins a transaction, which the agent grants. -/
def transactionBegins (client agent : UInt32) (m : TxnBeginMessage) (ack : TxnBeginAckMessage) : List HubTurn :=
  [{ event := .control client (.txnBegin m) 0 }, { event := .control agent (.txnBeginAck ack) 0 }]

end Broker
end CanHub
