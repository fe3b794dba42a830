/-
# The desk of the CONFIGUREs

A CONFIGURE waits in a table of requests until the agent answers or leaves. What
of the broker has to do with it is its desk: the table, the last request id, the
requests forwarded and the replies sent, and which peers are there. When a peer
leaves, its requests are forgotten, and those for it are answered for it
(`Desk.leave`); `Empties` is any number of peers that leave. Almost everything the
broker does leaves the desk as it is or empties it, which is shown along with what it
does to the books (`CanHub/Hub/Alike.lean`, `CanHub/Hub/Moves.lean`).
-/
import CanHub.Hub.Sends

namespace CanHub

open List

/-- A CONFIGURE_REPLY, and whom it goes to. -/
def HubOutput.configureReply? : HubOutput → Option (UInt32 × ConfigureReplyMessage)
  | .control peerId (.configureReply m) _ => some (peerId, m)
  | _ => none

/-- An IFCONFIG, and the agent it goes to. -/
def HubOutput.ifconfig? : HubOutput → Option (UInt32 × IfconfigMessage)
  | .control peerId (.ifconfig m) _ => some (peerId, m)
  | _ => none

/-- What the broker has to do with CONFIGURE: the requests it waits for, the requests it forwarded, the replies it
sent, and who is there. -/
structure Desk where
  pending : Table brokerPendingIfconfigMax PendingIfconfig
  nextRequestId : UInt32
  forwarded : List (UInt32 × IfconfigMessage)
  replies : List (UInt32 × ConfigureReplyMessage)
  seats : PeerSlot → Bool × UInt32

namespace Desk

variable {d d' d'' : Desk}

/-- `PeerDirectory_Find`. -/
def find (d : Desk) (peerId : UInt32) : Option PeerSlot := Table.find? d.seats fun p => p.1 && p.2 == peerId

/-- The peer is there. -/
def IsSeated (d : Desk) (peerId : UInt32) : Prop := ∃ i, d.seats i = (true, peerId)

theorem find_isSome {peerId : UInt32} : (d.find peerId).isSome ↔ d.IsSeated peerId := by
  unfold find IsSeated
  rw [Table.find?_isSome_iff]
  refine exists_congr fun i => ?_
  rcases d.seats i with ⟨inUse, id⟩
  simp

/-- No two peers have one id. -/
def Distinct (d : Desk) : Prop := ∀ i j id, d.seats i = (true, id) → d.seats j = (true, id) → i = j

def reply (d : Desk) (peerId : UInt32) (m : ConfigureReplyMessage) : Desk := { d with replies := d.replies ++ [(peerId, m)] }

/-- The request of a slot is answered or forgotten. -/
def clear (d : Desk) (k : Fin brokerPendingIfconfigMax) : Desk :=
  { d with pending := Function.update d.pending k { d.pending k with inUse := false } }

/-- The reply to a request whose agent has left. -/
def unreachable : ConfigureReplyMessage := { status := .agentUnreachable }

/-- The body of the loop of `releasePendingIfconfig`. -/
def releaseOf (peerId : UInt32) (d : Desk) (k : Fin brokerPendingIfconfigMax) : Desk :=
  if !(d.pending k).inUse then d
  else if (d.pending k).agentPeerId = peerId then
    (if (d.find (d.pending k).requesterPeerId).isSome then d.reply (d.pending k).requesterPeerId unreachable else d).clear k
  else if (d.pending k).requesterPeerId = peerId then d.clear k
  else d

def release (d : Desk) (peerId : UInt32) : Desk := (finRange brokerPendingIfconfigMax).foldl (releaseOf peerId) d

/-- `PeerDirectory_Release`. -/
def stand (d : Desk) (peerId : UInt32) : Desk :=
  match d.find peerId with
  | some i => { d with seats := Function.update d.seats i (false, 0) }
  | none => d

/-- A peer leaves. -/
def leave (d : Desk) (peerId : UInt32) : Desk := (d.release peerId).stand peerId

/-- Peers leave, one after the other. -/
inductive Empties (d : Desk) : Desk → Prop
  | refl : Empties d d
  | leave {d' peerId} (h : Empties d d') (hseat : d'.IsSeated peerId) : Empties d (d'.leave peerId)

theorem Empties.trans (h : Empties d d') (h' : Empties d' d'') : Empties d d'' := by
  induction h' with
  | refl => exact h
  | leave _ hseat ih => exact ih.leave hseat

end Desk

namespace Broker

variable (s : Broker)

def desk : Desk where
  pending := s.pendingIfconfig
  nextRequestId := s.nextIfconfigRequestId
  forwarded := s.port.log.filterMap HubOutput.ifconfig?
  replies := s.port.log.filterMap HubOutput.configureReply?
  seats i := ((s.directory i).inUse, (s.directory i).peerId)

theorem emit_desk {o : HubOutput} (h : o.ifconfig? = none) (h' : o.configureReply? = none) :
    (s.emit o).desk = s.desk := by
  simp [desk, emit, h, h']

theorem modifyPeer_desk {i : PeerSlot} {f : HubPeer → HubPeer}
    (h : (f (s.directory i)).inUse = (s.directory i).inUse ∧ (f (s.directory i)).peerId = (s.directory i).peerId) :
    (s.modifyPeer i f).desk = s.desk := by
  unfold desk modifyPeer
  congr 1
  funext j
  by_cases hj : j = i
  · subst hj
    simp [h]
  · simp [hj]

/-- A change of the peers that leaves them where they are. -/
theorem directory_desk {directory : PeerDirectory} (h : ∀ i, (directory i).inUse = (s.directory i).inUse
    ∧ (directory i).peerId = (s.directory i).peerId) : { s with directory }.desk = s.desk := by
  unfold desk
  congr 1
  funext i
  rw [(h i).1, (h i).2]

variable {s} in
/-- Messages that are none of the desk's leave it alone. -/
theorem SendsOnly.desk {P : HubOutput → Prop} {s' : Broker} (h : SendsOnly P s s')
    (hP : ∀ o, P o → o.ifconfig? = none ∧ o.configureReply? = none) : s'.desk = s.desk := by
  obtain ⟨_, _, o, ho, _, rfl⟩ := h
  have hnone : o.filterMap HubOutput.ifconfig? = [] ∧ o.filterMap HubOutput.configureReply? = [] :=
    ⟨filterMap_eq_nil_iff.mpr fun x hx => (hP x (ho x hx)).1, filterMap_eq_nil_iff.mpr fun x hx => (hP x (ho x hx)).2⟩
  simp [Broker.desk, sent, hnone]

/-! ### A peer that leaves -/

theorem desk_find (peerId : UInt32) : s.desk.find peerId = s.find peerId :=
  Table.find?_congr fun _ => rfl

theorem configureReply_desk (i : PeerSlot) (m : ConfigureReplyMessage) :
    (s.sendControl i (.configureReply m)).desk = s.desk.reply (s.directory i).peerId m := by
  have hemit : ∀ taken, (s.ask.1.emit (.control (s.ask.1.directory i).peerId (.configureReply m) taken)).desk =
      s.desk.reply (s.directory i).peerId m := by
    intro taken
    simp [desk, emit, ask, Desk.reply, HubOutput.ifconfig?, HubOutput.configureReply?]
  unfold sendControl
  dsimp only
  split
  · exact hemit _
  · rw [modifyPeer_desk _ ⟨rfl, rfl⟩]
    exact hemit _

theorem clearPendingIfconfig_desk (k : Fin brokerPendingIfconfigMax) :
    (s.clearPendingIfconfig k).desk = s.desk.clear k := rfl

theorem releasePendingOf_desk (peerId : UInt32) (k : Fin brokerPendingIfconfigMax) :
    (releasePendingOf peerId s k).desk = Desk.releaseOf peerId s.desk k := by
  have hpending : s.desk.pending k = s.pendingIfconfig k := rfl
  unfold releasePendingOf Desk.releaseOf
  rw [hpending, desk_find]
  dsimp only
  by_cases hu : (s.pendingIfconfig k).inUse
  · by_cases ha : (s.pendingIfconfig k).agentPeerId = peerId
    · cases h : s.find (s.pendingIfconfig k).requesterPeerId with
      | none => simp [hu, ha, clearPendingIfconfig_desk]
      | some i =>
        have hid : (s.directory i).peerId = (s.pendingIfconfig k).requesterPeerId := (PeerDirectory.find_some h).2
        simp [hu, ha, clearPendingIfconfig_desk, replyConfigure, configureReply_desk, hid, Desk.unreachable]
    · by_cases hr : (s.pendingIfconfig k).requesterPeerId = peerId <;> simp [hu, ha, hr, clearPendingIfconfig_desk]
  · simp [hu]

theorem releasePendingIfconfig_desk (peerId : UInt32) :
    (s.releasePendingIfconfig peerId).desk = s.desk.release peerId := by
  unfold releasePendingIfconfig Desk.release
  generalize finRange brokerPendingIfconfigMax = ks
  induction ks generalizing s with
  | nil => rfl
  | cons k ks ih => rw [foldl_cons, foldl_cons, ih, releasePendingOf_desk]

theorem releaseSlot_desk (peerId : UInt32) : (s.releaseSlot peerId).desk = s.desk.stand peerId := by
  unfold releaseSlot Desk.stand
  rw [desk_find]
  cases s.find peerId with
  | none => rfl
  | some i =>
    unfold desk modifyPeer
    congr 1
    funext j
    by_cases hj : j = i
    · subst hj
      simp
    · simp [hj]

end Broker
end CanHub
