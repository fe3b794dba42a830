/-
# A session of the socketcand bridge with the hub

`Session` is the bridge together with the hub as it sees it: the OPENs that
wait for an answer, in the order sent, the channels granted and not given back,
and the connections that were granted a write OPEN. The hub answers the OPENs
in order, each as it likes, and never grants a channel that is taken.

What the ownership of channels rests on is kept apart in a `Book`, without the
modes and configurations: `Turn` lists what can happen to it as long as every
connection lives until its answer comes, and every turn keeps it sound
(`Turn.sound`).
-/
import CanHub.Lib.Run
import CanHub.Socketcand.Bridge

namespace CanHub

open Function List

/-! ### The session -/

/-- The OPENs of a log, with the connections they were sent for. -/
def opened (log : List BridgeOutput) : List (UInt32 × OpenMessage) :=
  log.filterMap fun o => match o with | .open id m => some (id, m) | _ => none

/-- The channels given back in a log. -/
def closed (log : List BridgeOutput) : List UInt8 :=
  log.filterMap fun o => match o with | .close channel => some channel | _ => none

structure Session where
  bridge : SocketcandBridge := {}
  sent : List (UInt32 × OpenMessage) := []
  granted : List (UInt8 × UInt32) := []
  writers : List UInt32 := []

inductive SessionEvent
  | clientConnected (connectionId : UInt32)
  | clientCommands (connectionId : UInt32) (cs : List SocketcandCommand)
  | clientDisconnected (connectionId : UInt32)
  | answer (status : OpenStatus) (channel : UInt8)
  | listReply (reply : Option ListReplyMessage) (nowUs : ℕ)
  | configureReply (reply : ConfigureReplyMessage)
  | frame (f : FrameMessage)
  | hubConnected
  | hubDisconnected (nowUs : ℕ)
  | tick (nowUs : ℕ) (connects : Bool)

namespace Session

def wantsWrite (m : OpenMessage) : Bool := m.flags &&& openFlagWantWrite != 0

/-- The bridge at the start of an event. -/
def fresh (s : Session) : SocketcandBridge := { s.bridge with log := [] }

/-- The session behind what the bridge did: its OPENs are on their way, the channels it closed are the hub's. -/
def follow (s : Session) (bridge : SocketcandBridge) : Session :=
  { s with
    bridge
    sent := s.sent ++ opened bridge.log
    granted := s.granted.filter fun g => !(closed bridge.log).contains g.1 }

/-- The hub's answer to the oldest OPEN. -/
def answer (s : Session) (status : OpenStatus) (channel : UInt8) : Session :=
  match s.sent with
  | [] => s
  | (id, m) :: rest =>
    { s with
      sent := rest
      granted := if status = OpenStatus.ok then (channel, m.interfaceId) :: s.granted else s.granted
      writers := if status = OpenStatus.ok ∧ wantsWrite m then id :: s.writers else s.writers }.follow
      (s.fresh.handleOpenAck { status, channel, interfaceId := m.interfaceId })

def step (s : Session) : SessionEvent → Session
  | .clientConnected id =>
    { s with writers := s.writers.filter (· ≠ id) }.follow (s.fresh.onClientConnected id)
  | .clientCommands id cs => s.follow (s.fresh.onClientCommands id cs)
  | .clientDisconnected id => s.follow (s.fresh.onClientDisconnected id)
  | .answer status channel => s.answer status channel
  | .listReply reply nowUs => s.follow (s.fresh.handleListReply reply nowUs)
  | .configureReply reply => s.follow (s.fresh.handleConfigureReply reply)
  | .frame f => s.follow (s.fresh.deliverFrame f)
  | .hubConnected => s.follow s.fresh.onConnected
  -- a connection that is lost takes its channels and its answers with it
  | .hubDisconnected nowUs => { bridge := s.fresh.onDisconnected nowUs }
  | .tick nowUs connects => s.follow (s.fresh.tick nowUs connects)

def run (s : Session) (es : List SessionEvent) : Session := Run.run step s es

/-- `SocketcandBridge_Init`. -/
def init (beaconEnabled : Bool) : Session := { bridge := { beaconEnabled } }

/-! ### What is asked of a session -/

/-- The answer to come is applied to the connection whose OPEN it answers, for what that OPEN asked, or to none if
that connection has gone. -/
def Attributed (s : Session) : Prop :=
  ∀ a ∈ s.sent.head?, s.bridge.connections.findPendingOpen a.2.interfaceId = s.bridge.connections.find a.1 ∧
    ∀ i, s.bridge.connections.find a.1 = some i →
      ((s.bridge.connection i).openState = .pendingWrite ↔ wantsWrite a.2)

/-- A live connection that owns the channel. -/
def Owns (s : Session) (i : ConnectionSlot) (channel : UInt8) : Prop :=
  (s.bridge.connection i).inUse ∧ (s.bridge.connection i).channelValid ∧ (s.bridge.connection i).channel = channel

/-- Once all answers have come, each channel granted and not given back has exactly one owner, which asked for the
interface. -/
def Owned (s : Session) : Prop :=
  s.sent = [] → ∀ g ∈ s.granted, ∃ i, s.Owns i g.1 ∧ (s.bridge.connection i).interfaceId = g.2 ∧
    ∀ j, s.Owns j g.1 → j = i

/-- Whoever may write was granted a write OPEN of its own. -/
def WriteRights (s : Session) : Prop :=
  ∀ i, (s.bridge.connection i).inUse → (s.bridge.connection i).canWrite →
    (s.bridge.connection i).connectionId ∈ s.writers

/-- The live connection with the id, if there is one, is as given. -/
def Lives (s : Session) (id : UInt32) (P : SocketcandConnection → Prop) : Prop :=
  ∀ i, (s.bridge.connection i).inUse → (s.bridge.connection i).connectionId = id → P (s.bridge.connection i)

def isOpen : SocketcandCommand → Bool
  | .open _ => true
  | _ => false

/-- How many `open` commands a chunk has. -/
def opens (cs : List SocketcandCommand) : ℕ := cs.countP isOpen

/-- The condition: ids are new, no connection leaves while its OPEN waits or opens a second time, the hub grants no
channel that is taken, and the counter of opens does not wrap. -/
def Patient (s : Session) : SessionEvent → Prop
  | .clientConnected id => s.Lives id fun _ => False
  | .clientCommands id cs => opens cs = 0 ∨
      (opens cs = 1 ∧ s.bridge.connections.nextOpenSeq + 1 ≠ 0 ∧ s.Lives id fun c => c.openState = .none)
  | .clientDisconnected id => s.Lives id fun c => c.openState ≠ .pendingWrite ∧ c.openState ≠ .pendingRead
  | .answer status channel =>
    (status = .ok → ∀ g ∈ s.granted, g.1 ≠ channel) ∧
      (status = .writeDenied → s.bridge.connections.nextOpenSeq + 1 ≠ 0)
  | _ => True

instance (s : Session) (id : UInt32) (P : SocketcandConnection → Prop) [DecidablePred P] : Decidable (s.Lives id P) :=
  inferInstanceAs (Decidable (∀ i, (s.bridge.connection i).inUse → (s.bridge.connection i).connectionId = id → _))

instance (s : Session) : (e : SessionEvent) → Decidable (s.Patient e)
  | .clientConnected id => inferInstanceAs (Decidable (s.Lives id fun _ => False))
  | .clientCommands id cs =>
    inferInstanceAs (Decidable (opens cs = 0 ∨
      (opens cs = 1 ∧ s.bridge.connections.nextOpenSeq + 1 ≠ 0 ∧ s.Lives id fun c => c.openState = .none)))
  | .clientDisconnected id =>
    inferInstanceAs (Decidable (s.Lives id fun c => c.openState ≠ .pendingWrite ∧ c.openState ≠ .pendingRead))
  | .answer status channel =>
    -- over the rows, not over every pair of a channel and an interface id
    have := decidableBAll (fun g : UInt8 × UInt32 => g.1 ≠ channel) s.granted
    inferInstanceAs (Decidable ((status = .ok → ∀ g ∈ s.granted, g.1 ≠ channel) ∧
      (status = .writeDenied → s.bridge.connections.nextOpenSeq + 1 ≠ 0)))
  | .listReply .. | .configureReply .. | .frame .. | .hubConnected | .hubDisconnected .. | .tick .. => .isTrue trivial

instance (s : Session) (i : ConnectionSlot) (channel : UInt8) : Decidable (s.Owns i channel) :=
  inferInstanceAs (Decidable (_ ∧ _ ∧ _))

instance (s : Session) : Decidable s.Attributed :=
  inferInstanceAs (Decidable (∀ a ∈ s.sent.head?, _))

instance (s : Session) : Decidable s.Owned :=
  have := decidableBAll (fun g : UInt8 × UInt32 => ∃ i, s.Owns i g.1 ∧
    (s.bridge.connection i).interfaceId = g.2 ∧ ∀ j, s.Owns j g.1 → j = i) s.granted
  inferInstanceAs (Decidable (s.sent = [] → ∀ g ∈ s.granted, _))

end Session

/-! ### The books

What the ownership rests on, without the modes and configurations: the faces
of the connections, and the hub's side of the session. -/

/-- What a connection shows of its open. -/
structure OpenFace where
  inUse : Bool := false
  connectionId : UInt32 := 0
  openState : SocketcandOpenState := .none
  interfaceId : UInt32 := 0
  openSeq : ℕ := 0
  channel : UInt8 := 0
  channelValid : Bool := false
  canWrite : Bool := false

def SocketcandConnection.face (c : SocketcandConnection) : OpenFace where
  inUse := c.inUse
  connectionId := c.connectionId
  openState := c.openState
  interfaceId := c.interfaceId
  openSeq := c.openSeq.toNat
  channel := c.channel
  channelValid := c.channelValid
  canWrite := c.canWrite

namespace OpenFace

def IsPending (f : OpenFace) : Prop := f.openState = .pendingWrite ∨ f.openState = .pendingRead

/-- The face of a connection that owns this channel. -/
def Owns (f : OpenFace) (channel : UInt8) : Prop := f.inUse ∧ f.channelValid ∧ f.channel = channel

/-- The face of a connection that waits for the answer to this OPEN. -/
structure Waits (f : OpenFace) (a : UInt32 × OpenMessage) : Prop where
  inUse : f.inUse = true
  connectionId : f.connectionId = a.1
  interfaceId : f.interfaceId = a.2.interfaceId
  state : f.openState = if Session.wantsWrite a.2 then .pendingWrite else .pendingRead

variable {a : UInt32 × OpenMessage}

theorem Waits.isPending {f : OpenFace} (h : f.Waits a) : f.IsPending := by
  have hstate := h.state
  split at hstate
  · exact .inl hstate
  · exact .inr hstate

theorem Waits.between {f : OpenFace} (h : f.Waits a) :
    f.openState ≠ .none ∧ f.openState ≠ .done := by
  rcases h.isPending with hp | hp <;> simp [hp]

end OpenFace

structure Book where
  faces : ConnectionSlot → OpenFace
  ready : Bool
  seq : ℕ
  sent : List (UInt32 × OpenMessage)
  granted : List (UInt8 × UInt32)
  writers : List UInt32

def Session.book (s : Session) : Book where
  faces i := (s.bridge.connection i).face
  ready := s.bridge.hubState = .ready
  seq := s.bridge.connections.nextOpenSeq.toNat
  sent := s.sent
  granted := s.granted
  writers := s.writers

namespace Book

/-- The invariant: each OPEN on its way has its connection waiting, in the order sent, and each channel granted has
its owner. -/
structure Sound (k : Book) : Prop where
  ids : ∀ i j, (k.faces i).inUse → (k.faces j).inUse → (k.faces i).connectionId = (k.faces j).connectionId → i = j
  asked : ∀ a ∈ k.sent, ∃ i, (k.faces i).Waits a
  waiting : ∀ i, (k.faces i).inUse → (k.faces i).IsPending → ∃ a ∈ k.sent, a.1 = (k.faces i).connectionId
  order : k.sent.Pairwise fun a a' => ∀ i j, (k.faces i).Waits a → (k.faces j).Waits a' →
    (k.faces i).openSeq < (k.faces j).openSeq
  bound : ∀ i, (k.faces i).inUse → (k.faces i).openSeq ≤ k.seq
  owned : ∀ g ∈ k.granted, ∃ i, (k.faces i).inUse ∧ (k.faces i).channelValid ∧ (k.faces i).channel = g.1 ∧
    (k.faces i).interfaceId = g.2
  held : ∀ i, (k.faces i).inUse → (k.faces i).channelValid → ∃ g ∈ k.granted, g.1 = (k.faces i).channel
  single : ∀ i j, (k.faces i).inUse → (k.faces i).channelValid → (k.faces j).inUse → (k.faces j).channelValid →
    (k.faces i).channel = (k.faces j).channel → i = j
  done : ∀ i, (k.faces i).inUse → ((k.faces i).channelValid ↔ (k.faces i).openState = .done)
  write : ∀ i, (k.faces i).inUse → (k.faces i).canWrite →
    (k.faces i).channelValid ∧ (k.faces i).connectionId ∈ k.writers
  ready : ∀ i, (k.faces i).inUse → (k.faces i).openState ≠ .none → k.ready

/-- A slot with another face. -/
def set (k : Book) (i : ConnectionSlot) (f : OpenFace) : Book := { k with faces := update k.faces i f }

/-- What can happen to the books. -/
inductive Turn : Book → Book → Prop
  | joined (k : Book) (i : ConnectionSlot) (id : UInt32) (hfree : (k.faces i).inUse = false)
      (hnew : ∀ j, (k.faces j).inUse → (k.faces j).connectionId ≠ id) :
      Turn k { k.set i { inUse := true, connectionId := id } with writers := k.writers.filter (· ≠ id) }
  | refused (k : Book) (id : UInt32) (hnew : ∀ j, (k.faces j).inUse → (k.faces j).connectionId ≠ id) :
      Turn k { k with writers := k.writers.filter (· ≠ id) }
  | left (k : Book) (i : ConnectionSlot) (hlive : (k.faces i).inUse) (hstate : (k.faces i).openState = .none) :
      Turn k (k.set i { k.faces i with inUse := false })
  | gave (k : Book) (i : ConnectionSlot) (hlive : (k.faces i).inUse) (hstate : (k.faces i).openState = .done) :
      Turn k { k.set i { k.faces i with inUse := false } with
        granted := k.granted.filter (·.1 ≠ (k.faces i).channel) }
  | opened (k : Book) (i : ConnectionSlot) (interfaceId : UInt32) (flags : UInt8) (hlive : (k.faces i).inUse)
      (hstate : (k.faces i).openState = .none) (hready : k.ready)
      (hflags : Session.wantsWrite ⟨interfaceId, flags⟩ = true) :
      Turn k { k.set i { k.faces i with openState := .pendingWrite, interfaceId, openSeq := k.seq + 1 } with
        seq := k.seq + 1
        sent := k.sent ++ [((k.faces i).connectionId, ⟨interfaceId, flags⟩)] }
  | granted (k : Book) (i : ConnectionSlot) (a : UInt32 × OpenMessage) (rest : List (UInt32 × OpenMessage))
      (channel : UInt8) (hsent : k.sent = a :: rest) (hwaits : (k.faces i).Waits a)
      (hnew : ∀ g ∈ k.granted, g.1 ≠ channel) :
      Turn k { k.set i { k.faces i with openState := .done, channel, channelValid := true,
                                        canWrite := Session.wantsWrite a.2 } with
        sent := rest
        granted := (channel, a.2.interfaceId) :: k.granted
        writers := if Session.wantsWrite a.2 then a.1 :: k.writers else k.writers }
  | reopened (k : Book) (i : ConnectionSlot) (a : UInt32 × OpenMessage) (rest : List (UInt32 × OpenMessage))
      (flags : UInt8) (hsent : k.sent = a :: rest) (hwaits : (k.faces i).Waits a)
      (hflags : Session.wantsWrite ⟨a.2.interfaceId, flags⟩ = false) :
      Turn k { k.set i { k.faces i with openState := .pendingRead, openSeq := k.seq + 1 } with
        seq := k.seq + 1
        sent := rest ++ [(a.1, ⟨a.2.interfaceId, flags⟩)] }
  | denied (k : Book) (i : ConnectionSlot) (a : UInt32 × OpenMessage) (rest : List (UInt32 × OpenMessage))
      (hsent : k.sent = a :: rest) (hwaits : (k.faces i).Waits a) :
      Turn k { k.set i { k.faces i with inUse := false } with sent := rest }
  | ready (k : Book) : Turn k { k with ready := true }
  | idle (k : Book) (hready : k.ready = false) : Turn k { k with sent := [], granted := [], writers := [] }
  | lost (k : Book) : Turn k { faces := fun _ => {}, ready := false, seq := 0, sent := [], granted := [], writers := [] }

section Keeps

variable {k k' : Book} {i : ConnectionSlot} {others mine : List (UInt32 × OpenMessage)}

/-- One connection comes, goes, or takes its open a step further: its OPEN leaves the list, the OPENs of the `others`
stay and those of `mine` are new; the channel it had is no longer granted, the one it has is. -/
structure Changes (k k' : Book) (i : ConnectionSlot) (f : OpenFace) (others mine : List (UInt32 × OpenMessage)) :
    Prop where
  self : k'.faces i = f
  other : ∀ j, j ≠ i → k'.faces j = k.faces j
  ids : f.inUse → ∀ j, j ≠ i → (k.faces j).inUse → (k.faces j).connectionId ≠ f.connectionId
  sub : others.Sublist k.sent
  kept : ∀ a ∈ k.sent, a ∈ others ↔ ¬(k.faces i).Waits a
  sent : k'.sent = others ++ mine
  single : mine.length ≤ 1
  waits : ∀ a ∈ mine, f.Waits a ∧ k.seq < f.openSeq
  pending : f.inUse → f.IsPending → mine ≠ []
  seq : k.seq ≤ k'.seq
  bound : f.inUse → f.openSeq ≤ k'.seq
  granted : ∀ g, g ∈ k'.granted ↔ (g ∈ k.granted ∧ ¬(k.faces i).Owns g.1) ∨ (f.Owns g.1 ∧ f.interfaceId = g.2)
  fresh : ∀ c, f.Owns c → ∀ g ∈ k.granted, g.1 ≠ c
  done : f.inUse → (f.channelValid ↔ f.openState = .done)
  write : f.inUse → f.canWrite → f.channelValid ∧ f.connectionId ∈ k'.writers
  writers : ∀ j, j ≠ i → (k.faces j).inUse → (k.faces j).connectionId ∈ k.writers →
    (k.faces j).connectionId ∈ k'.writers
  ready : k'.ready = k.ready
  up : f.inUse → f.openState ≠ .none → k.ready

variable (h : k.Sound)
include h

theorem Sound.changed {f : OpenFace} (hc : Changes k k' i f others mine) : k'.Sound := by
  have hself := hc.self
  subst hself
  -- who waits for an OPEN of the others is another connection
  have hothers : ∀ a ∈ others, ∃ j, j ≠ i ∧ (k.faces j).Waits a := by
    intro a ha
    have hold := hc.sub.subset ha
    obtain ⟨j, hj⟩ := h.asked a hold
    refine ⟨j, ?_, hj⟩
    rintro rfl
    exact (hc.kept a hold).1 ha hj
  have hstill : ∀ a ∈ others, ∀ j, (k'.faces j).Waits a → j ≠ i ∧ (k.faces j).Waits a := by
    intro a ha j hj
    have hji : j ≠ i := by
      rintro rfl
      obtain ⟨l, hl, hwaits⟩ := hothers a ha
      exact hc.ids hj.inUse l hl hwaits.inUse (hwaits.connectionId.trans hj.connectionId.symm)
    exact ⟨hji, hc.other j hji ▸ hj⟩
  have hids : ∀ j j', (k'.faces j).inUse → (k'.faces j').inUse →
      (k'.faces j).connectionId = (k'.faces j').connectionId → j = j' :=
    Table.unrelated_of_ne (R := fun a b => a.connectionId = b.connectionId) (fun _ _ => Eq.symm) hc.other h.ids hc.ids
  refine ⟨hids, ?_, ?_, ?_, ?_, ?_, ?_, ?_, ?_, ?_, ?_⟩
  · intro a ha
    rw [hc.sent] at ha
    rcases mem_append.mp ha with ha | ha
    · obtain ⟨j, hji, hj⟩ := hothers a ha
      exact ⟨j, (hc.other j hji).symm ▸ hj⟩
    · exact ⟨i, (hc.waits a ha).1⟩
  · intro j hj hp
    rw [hc.sent]
    by_cases hji : j = i
    · subst hji
      obtain ⟨a, ha⟩ := exists_mem_of_ne_nil mine (hc.pending hj hp)
      exact ⟨a, mem_append_right _ ha, (hc.waits a ha).1.connectionId.symm⟩
    · rw [hc.other j hji] at hj hp ⊢
      obtain ⟨a, ha, haid⟩ := h.waiting j hj hp
      have hmem := (hc.kept a ha).2 fun hw => hji (h.ids j i hj hw.inUse (haid.symm.trans hw.connectionId.symm))
      exact ⟨a, mem_append_left _ hmem, haid⟩
  · rw [hc.sent, pairwise_append]
    refine ⟨(h.order.sublist hc.sub).imp_of_mem fun {a a'} ha ha' hlt j j' hj hj' => ?_, ?_, ?_⟩
    · obtain ⟨hji, hold⟩ := hstill a ha j hj
      obtain ⟨hji', hold'⟩ := hstill a' ha' j' hj'
      rw [hc.other j hji, hc.other j' hji']
      exact hlt j j' hold hold'
    · match mine, hc.single with
      | [], _ => exact List.Pairwise.nil
      | [a], _ => exact pairwise_singleton _ a
    · intro a ha a' ha' j j' hj hj'
      obtain ⟨hji, hold⟩ := hstill a ha j hj
      obtain ⟨hw, hlt⟩ := hc.waits a' ha'
      obtain rfl := hids j' i hj'.inUse hw.inUse (hj'.connectionId.trans hw.connectionId.symm)
      rw [hc.other j hji]
      exact lt_of_le_of_lt (h.bound j hold.inUse) hlt
  · intro j hj
    by_cases hji : j = i
    · subst hji
      exact hc.bound hj
    · rw [hc.other j hji] at hj ⊢
      exact (h.bound j hj).trans hc.seq
  · intro g hg
    rcases (hc.granted g).1 hg with ⟨hold, hnot⟩ | ⟨⟨hi, hv, hch⟩, hid⟩
    · obtain ⟨j, hj, hv, hch, hid⟩ := h.owned g hold
      have hji : j ≠ i := by
        rintro rfl
        exact hnot ⟨hj, hv, hch⟩
      rw [← hc.other j hji] at hj hv hch hid
      exact ⟨j, hj, hv, hch, hid⟩
    · exact ⟨i, hi, hv, hch, hid⟩
  · intro j hj hv
    by_cases hji : j = i
    · subst hji
      exact ⟨(_, _), (hc.granted _).2 (.inr ⟨⟨hj, hv, rfl⟩, rfl⟩), rfl⟩
    · rw [hc.other j hji] at hj hv ⊢
      obtain ⟨g, hg, hch⟩ := h.held j hj hv
      refine ⟨g, (hc.granted g).2 (.inl ⟨hg, fun ⟨hi, hvi, hci⟩ => ?_⟩), hch⟩
      exact hji (h.single j i hj hv hi hvi (hch.symm.trans hci.symm))
  · intro j j' hj hv hj' hv' hch
    refine Table.unrelated_of_ne (p := fun f => f.inUse && f.channelValid) (R := fun a b => a.channel = b.channel)
      (fun _ _ => Eq.symm) hc.other (fun j j' hj hj' => ?_) (fun hi j _ hj he => ?_) j j' (by simp [hj, hv])
      (by simp [hj', hv']) hch
    · simp only [Bool.and_eq_true] at hj hj'
      exact h.single j j' hj.1 hj.2 hj'.1 hj'.2
    · simp only [Bool.and_eq_true] at hi hj
      obtain ⟨g, hg, hgc⟩ := h.held j hj.1 hj.2
      exact hc.fresh _ ⟨hi.1, hi.2, rfl⟩ g hg (hgc.trans he)
  · intro j hj
    by_cases hji : j = i
    · subst hji
      exact hc.done hj
    · rw [hc.other j hji] at hj ⊢
      exact h.done j hj
  · intro j hj hw
    by_cases hji : j = i
    · subst hji
      exact hc.write hj hw
    · rw [hc.other j hji] at hj hw ⊢
      obtain ⟨hv, hm⟩ := h.write j hj hw
      exact ⟨hv, hc.writers j hji hj hm⟩
  · intro j hj hs
    rw [hc.ready]
    by_cases hji : j = i
    · subst hji
      exact hc.up hj hs
    · rw [hc.other j hji] at hj hs
      exact h.ready j hj hs

/-- A connection that goes. -/
theorem Sound.vacated (hself : (k'.faces i).inUse = false) (hother : ∀ j, j ≠ i → k'.faces j = k.faces j)
    (hready : k'.ready = k.ready) (hseq : k'.seq = k.seq) (hwriters : k'.writers = k.writers)
    (hsub : k'.sent.Sublist k.sent) (hsent : ∀ a ∈ k.sent, a ∈ k'.sent ↔ ¬(k.faces i).Waits a)
    (hgranted : ∀ g, g ∈ k'.granted ↔ g ∈ k.granted ∧ ¬(k.faces i).Owns g.1) : k'.Sound := by
  have hgone : ¬(k'.faces i).inUse = true := by simp [hself]
  exact h.changed
    { self := rfl, other := hother, sub := hsub, kept := hsent, ready := hready
      sent := (append_nil _).symm
      single := Nat.zero_le 1
      waits := nofun
      seq := hseq.ge
      granted := fun g => (hgranted g).trans (or_iff_left fun ho => hgone ho.1.1).symm
      fresh := fun c ho => absurd ho.1 hgone
      writers := fun j _ _ hm => hwriters ▸ hm
      ids := fun hi => absurd hi hgone
      pending := fun hi => absurd hi hgone
      bound := fun hi => absurd hi hgone
      done := fun hi => absurd hi hgone
      write := fun hi => absurd hi hgone
      up := fun hi => absurd hi hgone }

/-- A live connection without a channel that asks for a bus. -/
theorem Sound.asks (hlive : (k.faces i).inUse) (hold : (k.faces i).openState ≠ .done) (hready : k.ready)
    {m : OpenMessage} {state : SocketcandOpenState}
    (hstate : state = if Session.wantsWrite m then .pendingWrite else .pendingRead) (hsub : others.Sublist k.sent)
    (hkept : ∀ a ∈ k.sent, a ∈ others ↔ ¬(k.faces i).Waits a) :
    Sound { k.set i { k.faces i with openState := state, interfaceId := m.interfaceId, openSeq := k.seq + 1 } with
      seq := k.seq + 1
      sent := others ++ [((k.faces i).connectionId, m)] } := by
  have hinvalid : ¬(k.faces i).channelValid = true := fun hv => hold ((h.done i hlive).1 hv)
  have hpending : state ≠ .done := by
    rw [hstate]
    split <;> decide
  exact h.changed
    { self := update_self _ _ _
      other := fun j hj => update_of_ne hj _ _
      ids := fun _ j hji hj he => hji (h.ids j i hj hlive he)
      sub := hsub
      kept := hkept
      sent := rfl
      single := le_refl 1
      waits := by
        intro a ha
        obtain rfl := mem_singleton.mp ha
        exact ⟨⟨hlive, rfl, rfl, hstate⟩, Nat.lt_succ_self _⟩
      pending := fun _ _ => cons_ne_nil _ _
      seq := Nat.le_succ _
      bound := fun _ => le_refl _
      granted := fun g =>
        ⟨fun hg => .inl ⟨hg, fun ho => hinvalid ho.2.1⟩, fun hg => hg.elim And.left fun ho => absurd ho.1.2.1 hinvalid⟩
      fresh := fun c ho => absurd ho.2.1 hinvalid
      done := fun _ => iff_of_false hinvalid hpending
      write := fun _ hw => absurd (h.write i hlive hw).1 hinvalid
      writers := fun _ _ _ hm => hm
      ready := rfl
      up := fun _ _ => hready }

/-- In sound books the OPENs of one connection are one at most. -/
theorem Sound.head_only {rest : List (UInt32 × OpenMessage)}
    (hsent : k.sent = a :: rest) (hwaits : (k.faces i).Waits a) :
    ∀ a' ∈ k.sent, a' ∈ rest ↔ ¬(k.faces i).Waits a' := by
  have horder := h.order
  rw [hsent, pairwise_cons] at horder
  intro a' ha'
  refine ⟨fun hr hw => Nat.lt_irrefl _ (horder.1 a' hr i i hwaits hw), fun hw => ?_⟩
  rw [hsent] at ha'
  rcases mem_cons.mp ha' with rfl | ha'
  · exact absurd hwaits hw
  · exact ha'

/-- **Every turn keeps the books sound.** -/
theorem Turn.sound (hturn : Turn k k') : k'.Sound := by
  have hother : ∀ {i j : ConnectionSlot} {f : OpenFace}, j ≠ i → update k.faces i f j = k.faces j :=
    fun hne => update_of_ne hne _ _
  have hself : ∀ {i : ConnectionSlot} {f : OpenFace}, update k.faces i f i = f :=
    update_self _ _ _
  -- a connection that has not asked has no OPEN on its way
  have hquiet : ∀ i, ¬(k.faces i).IsPending → ∀ a ∈ k.sent, a ∈ k.sent ↔ ¬(k.faces i).Waits a :=
    fun i hnone a ha => iff_of_true ha fun hw => hnone hw.isPending
  -- one that has not been granted a channel owns none
  have hnoChannel : ∀ i, (k.faces i).openState ≠ .done → ∀ c, ¬(k.faces i).Owns c :=
    fun i hold c ho => hold ((h.done i ho.1).1 ho.2.1)
  cases hturn with
  | joined i id hfree hnew =>
    have hgone : ¬(k.faces i).inUse = true := by simp [hfree]
    exact h.changed
      { self := hself
        other := fun j hj => hother hj
        ids := fun _ j _ => hnew j
        sub := .refl k.sent
        kept := fun a ha => iff_of_true ha fun hw => hgone hw.inUse
        sent := (append_nil _).symm
        single := Nat.zero_le 1
        waits := nofun
        pending := fun _ hp => hp.elim nofun nofun
        seq := le_refl _
        bound := fun _ => Nat.zero_le _
        granted := fun g => by simp [set, OpenFace.Owns, hfree]
        fresh := fun c ho => nomatch ho.2.1
        done := fun _ => iff_of_false nofun nofun
        write := fun _ hw => nomatch hw
        writers := fun j _ hj hm => mem_filter.mpr ⟨hm, by simpa using hnew j hj⟩
        ready := rfl
        up := fun _ hs => absurd rfl hs }
  | refused id hnew =>
    refine ⟨h.ids, h.asked, h.waiting, h.order, h.bound, h.owned, h.held, h.single, h.done, ?_, h.ready⟩
    intro j hj hw
    obtain ⟨hv, hm⟩ := h.write j hj hw
    exact ⟨hv, mem_filter.mpr ⟨hm, by simpa using hnew j hj⟩⟩
  | left i hlive hstate =>
    have hnone : ¬(k.faces i).IsPending := by simp [OpenFace.IsPending, hstate]
    have hold : (k.faces i).openState ≠ .done := by simp [hstate]
    exact h.vacated (congrArg OpenFace.inUse hself) (fun j hj => hother hj) rfl rfl rfl (.refl _) (hquiet i hnone)
      fun g => (and_iff_left (hnoChannel i hold g.1)).symm
  | gave i hlive hstate =>
    have hnone : ¬(k.faces i).IsPending := by simp [OpenFace.IsPending, hstate]
    refine h.vacated (congrArg OpenFace.inUse hself) (fun j hj => hother hj) rfl rfl rfl (.refl _) (hquiet i hnone) ?_
    intro g
    rw [mem_filter]
    simp [OpenFace.Owns, hlive, (h.done i hlive).mpr hstate, eq_comm (a := g.1)]
  | opened i interfaceId flags hlive hstate hready hflags =>
    have hnone : ¬(k.faces i).IsPending := by simp [OpenFace.IsPending, hstate]
    exact h.asks hlive (by simp [hstate]) hready (by rw [if_pos hflags]) (.refl _) (hquiet i hnone)
  | granted i a rest channel hsent hwaits hnew =>
    obtain ⟨hasked, hold⟩ := hwaits.between
    exact h.changed
      { self := hself
        other := fun j hj => hother hj
        ids := fun _ j hji hj he => hji (h.ids j i hj hwaits.inUse he)
        sub := hsent ▸ sublist_cons_self a rest
        kept := h.head_only hsent hwaits
        sent := (append_nil rest).symm
        single := Nat.zero_le 1
        waits := nofun
        pending := fun _ hp => hp.elim nofun nofun
        seq := le_refl _
        bound := fun _ => h.bound i hwaits.inUse
        granted := by
          intro g
          rw [mem_cons, and_iff_left (hnoChannel i hold g.1), or_comm]
          simp [OpenFace.Owns, hwaits.inUse, hwaits.interfaceId, Prod.ext_iff, eq_comm]
        fresh := fun c ho => ho.2.2 ▸ hnew
        done := fun _ => iff_of_true rfl rfl
        write := by
          intro _ hw
          refine ⟨rfl, ?_⟩
          dsimp only at hw ⊢
          rw [if_pos hw, hwaits.connectionId]
          exact mem_cons_self
        writers := by
          intro j _ _ hm
          dsimp only
          split
          · exact mem_cons_of_mem _ hm
          · exact hm
        ready := rfl
        up := fun _ _ => h.ready i hwaits.inUse hasked }
  | reopened i a rest flags hsent hwaits hflags =>
    obtain ⟨hasked, hold⟩ := hwaits.between
    rw [← hwaits.connectionId, ← hwaits.interfaceId]
    rw [← hwaits.interfaceId] at hflags
    exact h.asks hwaits.inUse hold (h.ready i hwaits.inUse hasked) (by rw [hflags]) (hsent ▸ sublist_cons_self a rest)
      (h.head_only hsent hwaits)
  | denied i a rest hsent hwaits =>
    exact h.vacated (congrArg OpenFace.inUse hself) (fun j hj => hother hj) rfl rfl rfl
      (hsent ▸ sublist_cons_self a rest) (h.head_only hsent hwaits)
      fun g => (and_iff_left (hnoChannel i hwaits.between.2 g.1)).symm
  | ready =>
    exact ⟨h.ids, h.asked, h.waiting, h.order, h.bound, h.owned, h.held, h.single, h.done, h.write, fun _ _ _ => rfl⟩
  | idle hready =>
    -- without the hub nobody has asked for a bus
    have hnone : ∀ j, (k.faces j).inUse → (k.faces j).openState = .none := by
      intro j hj
      by_contra hs
      rw [h.ready j hj hs] at hready
      cases hready
    have hinvalid : ∀ j, (k.faces j).inUse → ¬(k.faces j).channelValid = true := by
      intro j hj
      rw [h.done j hj, hnone j hj]
      decide
    refine ⟨h.ids, nofun, ?_, List.Pairwise.nil, h.bound, nofun, ?_, h.single, h.done, ?_, h.ready⟩
    · intro j hj hp
      rcases hp with hp | hp <;> rw [hnone j hj] at hp <;> cases hp
    · exact fun j hj hv => absurd hv (hinvalid j hj)
    · exact fun j hj hw => absurd (h.write j hj hw).1 (hinvalid j hj)
  | lost =>
    exact ⟨nofun, nofun, nofun, List.Pairwise.nil, nofun, nofun, nofun, nofun, nofun, nofun, nofun⟩

end Keeps
end Book

end CanHub
