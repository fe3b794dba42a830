/-
# The hub's peers

`HubPeer` is one live connection: unknown until its HELLO declares a role. An
agent carries its name and the echo tokens of the clients writing through it, a
client its session; every peer has a pool of frames its transport refused.
`PeerDirectory` is the array of them. A `HubPeer *` is a slot of that array; it
stays valid memory when the peer is released, and so does the slot here.

`EgressQueue` chains the slots of a pool into one list per channel. Here the
lists are lists, and a slot is free while fewer than 512 are used.
-/
import CanHub.Hub.Session

namespace CanHub

@[simp] abbrev hubPeersMax : ℕ := 512
@[simp] abbrev peerDirectoryMax : ℕ := hubPeersMax
@[simp] abbrev frameRouteTokenValuesMax : ℕ := 63
@[simp] abbrev egressQueueSlotsMax : ℕ := 512
@[simp] abbrev egressQueueChannelCap : ℕ := 64
@[simp] abbrev egressQueueChannelsMax : ℕ := 256
@[simp] abbrev rejectedPeersMax : ℕ := 16

/-! ### Echo tokens -/

def echoTokensBridgeOwner : UInt32 := 0xFFFFFFFF

/-- `NO_OWNER`. -/
def echoTokensNoOwner : UInt32 := 0

structure EchoTokens where
  ownerPeerIds : Table frameRouteTokenValuesMax UInt32 := fun _ => echoTokensNoOwner
  nextIndex : ℕ := 0

namespace EchoTokens

def findOwnerIndex (t : EchoTokens) (clientPeerId : UInt32) : Option (Fin frameRouteTokenValuesMax) :=
  t.ownerPeerIds.find? (· == clientPeerId)

/-- `claimFreeIndex`: the first free index from `next_index` on, cyclically. -/
def claimFreeIndex (t : EchoTokens) : Option (Fin frameRouteTokenValuesMax) :=
  ((List.finRange frameRouteTokenValuesMax).map fun i => (Fin.ofNat frameRouteTokenValuesMax (t.nextIndex + i))).find?
    fun i => t.ownerPeerIds i == echoTokensNoOwner

/-- `EchoTokens_Issue`: the table and the token. -/
def issue (t : EchoTokens) (clientPeerId : UInt32) : EchoTokens × UInt8 :=
  if clientPeerId = echoTokensNoOwner then (t, frameRouteNoToken)
  else
    match t.findOwnerIndex clientPeerId with
    | some i => (t, UInt8.ofNat (i + 1))
    | none =>
      match t.claimFreeIndex with
      | none => (t, frameRouteNoToken)
      | some i =>
        ({ ownerPeerIds := Function.update t.ownerPeerIds i clientPeerId
           nextIndex := (i + 1) % frameRouteTokenValuesMax }, UInt8.ofNat (i + 1))

def originator (t : EchoTokens) (routeFlags : UInt8) : UInt32 :=
  let token := ((routeFlags &&& frameRouteTokenMask) >>> frameRouteTokenShift).toNat
  if routeFlags &&& frameRouteFlagEcho = 0 then echoTokensNoOwner
  else if h : token ≠ 0 ∧ token ≤ frameRouteTokenValuesMax then
    t.ownerPeerIds ⟨token - 1, by simp only [frameRouteTokenValuesMax] at h ⊢; omega⟩
  else echoTokensNoOwner

def releaseClient (t : EchoTokens) (clientPeerId : UInt32) : EchoTokens :=
  match t.findOwnerIndex clientPeerId with
  | some i => { t with ownerPeerIds := Function.update t.ownerPeerIds i echoTokensNoOwner }
  | none => t

end EchoTokens

/-! ### Parked frames -/

structure EgressSlot where
  frame : FrameMessage
  enqueuedUs : ℕ
deriving DecidableEq

structure EgressQueue where
  channels : UInt8 → List EgressSlot := fun _ => []
  used : ℕ := 0
  cursor : UInt8 := 0

namespace EgressQueue

section

variable (q : EgressQueue)

def hasPending : Bool := 0 < q.used

def channelPending (channel : UInt8) : Bool := 0 < (q.channels channel).length

def frontOfChannel (channel : UInt8) : Option EgressSlot := (q.channels channel).head?

/-- `fullestChannel`: the first of the channels with most frames. -/
def fullestChannel : UInt8 :=
  ((List.range egressQueueChannelsMax).map UInt8.ofNat).foldl
    (fun best c => if (q.channels best).length < (q.channels c).length then c else best) 0

def append (channel : UInt8) (slot : EgressSlot) : EgressQueue :=
  { q with channels := Function.update q.channels channel (q.channels channel ++ [slot]) }

def dropHead (channel : UInt8) : EgressQueue :=
  { q with channels := Function.update q.channels channel (q.channels channel).tail }

/-- `EgressQueue_Push`: the queue, and the channel a frame was evicted from, if any. -/
def push (channel : UInt8) (slot : EgressSlot) : EgressQueue × Option UInt8 :=
  if egressQueueChannelCap ≤ (q.channels channel).length then
    ((q.dropHead channel).append channel slot, some channel)
  else if q.used < egressQueueSlotsMax then ({ q.append channel slot with used := q.used + 1 }, none)
  else ((q.dropHead q.fullestChannel).append channel slot, some q.fullestChannel)

def popChannel (channel : UInt8) : EgressQueue :=
  if (q.channels channel) = [] then q else { q.dropHead channel with used := q.used - 1 }

/-- `EgressQueue_NextPendingChannel`: the next channel with a frame, and the cursor past it. -/
def nextPendingChannel : Option (EgressQueue × UInt8) :=
  (((List.range egressQueueChannelsMax).map fun i => q.cursor + UInt8.ofNat i).find? q.channelPending).map
    fun c => ({ q with cursor := c + 1 }, c)

end

end EgressQueue

/-! ### Peers -/

inductive HubPeerRole | unknown | agent | client | admin
deriving DecidableEq

inductive PeerTransport | unknown | unix | tcp | tls | quic
deriving DecidableEq

inductive HubPeerDisplacement | unidentified | idleClient | activeClient | unvouchedAgent | never
deriving DecidableEq

structure HubPeer where
  inUse : Bool := false
  isLocal : Bool := false
  sendFailed : Bool := false
  vouched : Bool := false
  peerId : UInt32 := 0
  capabilities : UInt32 := 0
  role : HubPeerRole := .unknown
  transportKind : PeerTransport := .unknown
  helloDeadlineUs : ℕ := 0
  connectedAtUs : ℕ := 0
  framesForwarded : UInt32 := 0
  framesDropped : UInt32 := 0
  fingerprintHex : Text := []
  agentName : Text := []
  origin : Text := []
  originHost : Text := []
  session : ClientSession := {}
  echoTokens : EchoTokens := {}
  egress : EgressQueue := {}

namespace HubPeer

/-- `HubPeer_AdoptRole`: `none` when the role is refused. -/
def adoptRole (p : HubPeer) (wireRole : PeerRole) : Option HubPeer :=
  match wireRole with
  | .admin => if p.isLocal then some { p with role := .admin } else none
  | .agent => some { p with role := .agent }
  | .client => some { p with role := .client }

def isSamePlaintextAgent (p other : HubPeer) : Bool :=
  if p.transportKind ≠ other.transportKind then false
  else if p.isLocal ∧ other.isLocal then true
  else p.originHost ≠ [] ∧ p.originHost = other.originHost

def isSameAgent (p other : HubPeer) : Bool :=
  if p.fingerprintHex ≠ [] ∨ other.fingerprintHex ≠ [] then p.fingerprintHex = other.fingerprintHex
  else p.isSamePlaintextAgent other

def isUnidentified (p : HubPeer) : Bool := p.role = .unknown ∨ (p.role = .agent ∧ p.agentName = [])

def displacement (p : HubPeer) : HubPeerDisplacement :=
  if p.isLocal ∨ p.fingerprintHex = [] ∨ p.vouched then .never
  else if p.isUnidentified then .unidentified
  else if p.role = .agent then .unvouchedAgent
  else if p.role ≠ .client then .never
  else if p.session.holdsChannels then .activeClient
  else .idleClient

/-- `displacesBefore`. -/
def displacesBefore (p other : HubPeer) : Bool :=
  if p.displacement ≠ other.displacement then p.displacement.ctorIdx < other.displacement.ctorIdx
  else other.connectedAtUs < p.connectedAtUs

end HubPeer

abbrev PeerSlot := Fin peerDirectoryMax

instance : NeZero peerDirectoryMax := ⟨by decide⟩

abbrev PeerDirectory := Table peerDirectoryMax HubPeer

namespace PeerDirectory

/-- `PeerDirectory_Find`. -/
def find (d : PeerDirectory) (peerId : UInt32) : Option PeerSlot :=
  Table.find? d fun p => p.inUse && p.peerId == peerId

theorem find_some {d : PeerDirectory} {peerId : UInt32} {i : PeerSlot} (h : d.find peerId = some i) :
    (d i).inUse ∧ (d i).peerId = peerId := by
  simpa using Table.find?_some h

section

variable (d : PeerDirectory)

def freeSlot : Option PeerSlot := Table.find? d fun p => !p.inUse

def findAgentByName (agentName : Text) : Option PeerSlot :=
  Table.find? d fun p => p.inUse && p.role == .agent && p.agentName == agentName

/-- The slot the loop of a `FindDisplaceable` ends with: candidates in order of
their slots, each replaced by a later one that goes first. -/
def displaced (candidate : HubPeer → Bool) (before : HubPeer → HubPeer → Bool) : Option PeerSlot :=
  (List.finRange peerDirectoryMax).foldl
    (fun best i =>
      if !candidate (d i) then best
      else match best with
        | none => some i
        | some b => if before (d i) (d b) then some i else some b) none

/-- The slot the loop ends with is a candidate, and no candidate goes before it; it finds one if there is any. -/
theorem displaced_spec (candidate : HubPeer → Bool) (before : HubPeer → HubPeer → Bool)
    (hirrefl : ∀ p, before p p = false) (htrans : ∀ p q r, before p q → before q r → before p r) :
    (∀ i, d.displaced candidate before = some i → candidate (d i))
      ∧ ∀ j, candidate (d j) → ∃ i, d.displaced candidate before = some i ∧ before (d j) (d i) = false := by
  have hloop : d.displaced candidate before
      = (List.finRange peerDirectoryMax).foldl (Table.first?Round d candidate before) none := by
    unfold displaced
    congr 1
    funext best i
    cases best <;> rfl
  rw [hloop]
  obtain ⟨hprop, -, hfirst⟩ := Table.foldl_first?Round (t := d) (p := candidate) before hirrefl none nofun htrans
    (List.finRange peerDirectoryMax)
  exact ⟨hprop, fun j => hfirst j (List.mem_finRange j)⟩

def findDisplaceable : Option PeerSlot :=
  d.displaced (fun p => p.inUse && p.displacement != .never) HubPeer.displacesBefore

def findDisplaceableAgent : Option PeerSlot :=
  d.displaced (fun p => p.inUse && p.displacement == .unvouchedAgent) fun p q => q.connectedAtUs < p.connectedAtUs

theorem findDisplaceableAgent_spec {d : PeerDirectory} :
    (∀ i, d.findDisplaceableAgent = some i → (d i).inUse ∧ (d i).displacement = .unvouchedAgent)
      ∧ ∀ j, (d j).inUse ∧ (d j).displacement = .unvouchedAgent →
        ∃ i, d.findDisplaceableAgent = some i ∧ (d j).connectedAtUs ≤ (d i).connectedAtUs := by
  obtain ⟨hprop, hfirst⟩ := displaced_spec d (fun p => p.inUse && p.displacement == .unvouchedAgent)
    (fun p q => q.connectedAtUs < p.connectedAtUs) (by simp) fun p q r h h' => by
      simpa using (of_decide_eq_true h').trans (of_decide_eq_true h)
  exact ⟨fun i hi => by simpa using hprop i hi, fun j hj => by simpa [findDisplaceableAgent] using hfirst j (by simpa using hj)⟩

def count (d : PeerDirectory) : ℕ := Table.count d (·.inUse)

def countRole (role : HubPeerRole) : ℕ := Table.count d fun p => p.inUse && p.role == role

def countAwaitingHelloFrom (originHost : Text) : ℕ :=
  Table.count d fun p => p.inUse && p.role == .unknown && p.originHost == originHost

def isFull : Bool := d.count = peerDirectoryMax

end

end PeerDirectory

/-! ### The identities turned away -/

structure RejectedPeer where
  inUse : Bool := false
  role : HubPeerRole := .unknown
  reason : RejectedReason := .notAllowed
  attempts : ℕ := 0
  lastSeenUs : ℕ := 0
  name : Text := []
  fingerprintHex : Text := []
  origin : Text := []
deriving DecidableEq

def RejectedPeer.isLessWorthKeeping (candidate current : RejectedPeer) : Bool :=
  if candidate.attempts ≠ current.attempts then candidate.attempts < current.attempts
  else candidate.lastSeenUs < current.lastSeenUs

abbrev RejectedPeers := Table rejectedPeersMax RejectedPeer

instance : NeZero rejectedPeersMax := ⟨by decide⟩

namespace RejectedPeers

def findEntry (t : RejectedPeers) (p : HubPeer) : Option (Fin rejectedPeersMax) :=
  Table.find? t fun e => e.inUse && e.role == p.role && e.fingerprintHex == p.fingerprintHex

/-- `claimEntry`: a free entry, or the one least worth keeping. -/
def claimEntry (t : RejectedPeers) : Fin rejectedPeersMax :=
  match Table.find? t fun e => !e.inUse with
  | some i => i
  | none => (List.finRange rejectedPeersMax).foldl
      (fun victim i => if (t i).isLessWorthKeeping (t victim) then i else victim) 0

def record (t : RejectedPeers) (p : HubPeer) (name : Text) (reason : RejectedReason) (nowUs : ℕ) : RejectedPeers :=
  if p.fingerprintHex = [] then t
  else
    let (i, entry) :=
      match t.findEntry p with
      | some i => (i, t i)
      | none => (t.claimEntry, { inUse := true, role := p.role, fingerprintHex := p.fingerprintHex })
    Function.update t i
      { entry with reason, attempts := (entry.attempts + 1) % 2 ^ 32, lastSeenUs := nowUs, name, origin := p.origin }

def forget (t : RejectedPeers) (p : HubPeer) : RejectedPeers :=
  match t.findEntry p with
  | some i => Function.update t i {}
  | none => t

end RejectedPeers
end CanHub
