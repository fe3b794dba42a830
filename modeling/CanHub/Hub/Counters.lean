/-
# The counters of transactions

The hub counts the transactions that agents grant, and of those it counts each as
completed or as aborted when it ends (`Balanced`). Two things break this. An agent grants
a transaction whose client has gone, and the hub counts it as aborted though it never
counted it as started (`GrantsLate`). And a transport reports, from inside the send of a
message that ends a transaction, that the other side of the transaction has gone: the hub
then ends it twice. `balanced_of_run` is what holds where agents grant in time and no
connection is lost from inside a send.
-/
import CanHub.Hub.Sound

namespace CanHub

/-- No connection is lost from inside a send of the turn. -/
def LosingTurn.LosesNone (t : LosingTurn) : Prop := ∀ n o, t.lost n o = false

namespace Broker

variable {s s' : Broker} {P : Broker → Act → Prop}

/-- Where no connection is lost nothing is reported from inside a send. -/
theorem stepLosing_of_losesNone {t : LosingTurn} (h : t.LosesNone) : s.stepLosing t = s.step t.toHubTurn := by
  have hquiet : ∀ depth s o, reportLoss t.lost depth s o = s := by
    intro depth s o
    cases depth with
    | zero => rfl
    | succ depth =>
      unfold reportLoss
      simp only [h _ _, Bool.false_eq_true, if_false]
      split <;> rfl
  have htransport : (⟨reportLoss t.lost peerDirectoryMax⟩ : Transport) = (inferInstance : Transport) :=
    congrArg Transport.mk (funext₂ (hquiet peerDirectoryMax))
  unfold stepLosing
  rw [htransport]

/-- Everything but to grant a transaction whose client has gone. -/
def InTime (_ : Broker) (a : Act) : Prop := ∀ t, a ≠ .mark (.late t)

theorem Balanced.passes {distinct : Prop} {n : ℕ} (h : Balanced s) (hp : Passes InTime distinct n s s') : Balanced s' :=
  hp.invariant (fun hs hm => hs.move hm fun t hlate => hlate t rfl) (fun hs hl => hs.leave hl)
    (fun _ hs => hs.same rfl rfl) h

/-! ### Runs -/

/-- The turn is not one in which an agent grants a transaction whose client has gone. -/
def GrantsInTime (s : Broker) (t : HubTurn) : Prop :=
  match t.event with
  | .control peerId (.txnBeginAck ack) _ => ∀ i, s.find peerId = some i → ∀ t, ¬ s.GrantsLate i ack t
  | _ => True

theorem GrantsInTime.permits {t : HubTurn} (h : s.GrantsInTime t) :
    Permits InTime { s with port := t.port } t.event := by
  refine permits_of_frames _ (fun _ a ha t hlate => ?_) fun peerId m nowUs he i hi => ?_
  · rw [hlate] at ha
    cases ha
  refine permitsControl_of _ (fun _ _ _ _ => nofun) (fun _ _ _ => nofun) (fun _ _ _ => nofun) (fun ack hm t' hlate => ?_)
    (fun _ _ => nofun) fun _ _ _ _ => nofun
  simp only [GrantsInTime, he, hm] at h
  exact absurd ⟨hlate.role, hlate.forAgent, hlate.pending, hlate.ok, hlate.client⟩ (h i hi t')

/-- **An event keeps the balance**, unless an agent grants a transaction late. -/
theorem Balanced.step (h : Balanced s) {t : HubTurn} (ht : s.GrantsInTime t) : Balanced (s.step t) := by
  have hport : Balanced { s with port := t.port } := h.same rfl rfl
  by_cases he : HubEvent.isLater t.event
  · obtain ⟨n, _, hp⟩ := handle_passes { s with port := t.port } (fun h : False => h.elim) he ht.permits
    exact hport.passes hp
  cases hevent : t.event with
  | connected peerId info nowUs =>
    simp only [Broker.step, hevent, handle]
    obtain ⟨s₁, hdeals, hafter⟩ := onPeerConnected_cases { s with port := t.port } (P := InTime) peerId info nowUs
    have h₁ : Balanced s₁ := hport.passes (.goes hdeals.goes : Passes InTime False 0 _ _)
    rcases hafter with he | ⟨i, _, he⟩
    · rw [he]
      exact h₁
    · rw [he]
      exact h₁.same rfl rfl
  | _ => exact absurd rfl (hevent ▸ he)

theorem Balanced.init (config : HubConfig) (port : HubPort) (routes : List BridgeRoute) (groups : List BridgeGroup) :
    Balanced (Broker.init config port routes groups) := by
  have hgroup : ∀ (s : Broker) (g : BridgeGroup), Balanced s → Balanced (s.loadGroup g) := by
    intro s g h
    unfold loadGroup
    split
    · rename_i groups _
      have hgroups : Balanced { s with groups } := h.same rfl rfl
      obtain ⟨n, _, hruns⟩ : ∃ n ≤ 1, Runs InTime False n _ _ := openGroupInterface_runs { s with groups } g.name
        fun _ _ _ _ _ _ _ _ _ => nofun
      exact hgroups.passes hruns.passes
    · exact h
  have hstart : ∀ bridges, Balanced { config, port, bridges } := by
    intro bridges
    have hnone : activeCount { config, port, bridges } = 0 := List.countP_eq_zero.mpr (by simp)
    unfold Balanced
    rw [hnone]
    rfl
  unfold Broker.init
  split
  · exact hstart {}
  · exact List.foldlRecOn _ _ (hstart _) fun s hs g _ => hgroup s g hs

/-- **In every run in which agents grant in time and no connection is lost from inside a send, what was started is
completed, aborted or active.** -/
theorem balanced_of_run (config : HubConfig) (port : HubPort) (routes : List BridgeRoute) (groups : List BridgeGroup)
    {turns : List LosingTurn}
    (h : Run.Along stepLosing (fun s t => s.GrantsInTime t.toHubTurn ∧ t.LosesNone) (init config port routes groups)
      turns) : Balanced (Run.run stepLosing (init config port routes groups) turns) := by
  refine h.invariant (fun s t hs ht => ?_) (Balanced.init config port routes groups)
  rw [stepLosing_of_losesNone ht.2]
  exact hs.step ht.1

instance (s : Broker) (i : PeerSlot) (ack : TxnBeginAckMessage) (t : TransactionSlot) :
    Decidable (s.GrantsLate i ack t) :=
  decidable_of_iff' _ (grantsLate_iff s i ack t)

/-- The acknowledgement an event brings, and from whom. -/
def beginAck? : HubEvent → Option (UInt32 × TxnBeginAckMessage)
  | .control peerId (.txnBeginAck ack) _ => some (peerId, ack)
  | _ => none

theorem grantsInTime_iff (s : Broker) (t : HubTurn) : s.GrantsInTime t
    ↔ ∀ x ∈ beginAck? t.event, ∀ i, s.find x.1 = some i → ∀ t, ¬ s.GrantsLate i x.2 t := by
  unfold GrantsInTime beginAck?
  split <;> simp

instance (s : Broker) (t : HubTurn) : Decidable (s.GrantsInTime t) := decidable_of_iff' _ (grantsInTime_iff s t)

/-- Client 3 asks agent 2 for a transaction. -/
def asked : List LosingTurn :=
  (agentJoins 2 (registersOne 1 2) ++ clientJoins 3 1).map (fun t => { toHubTurn := t })
    ++ [{ event := .control 3 (.txnBegin { channel := 0, flags := 0 }) 0 }]

/-- Agent 2 grants it. -/
def grants : LosingTurn := { event := .control 2 (.txnBeginAck ⟨0, 0, 1, 1000⟩) 0 }

/-- Client 3 leaves. -/
def leaves : LosingTurn := { event := .disconnected 3 }

set_option maxRecDepth 100000 in
theorem granted_facts :
    Run.Along stepLosing (fun s t => s.GrantsInTime t.toHubTurn) small (asked ++ [grants, leaves])
      ∧ (Run.run stepLosing small (asked ++ [grants, leaves])).metrics.transactions.started = 1
      ∧ (Run.run stepLosing small (asked ++ [grants, leaves])).metrics.transactions.aborted = 1 := by
  decide +kernel

/-- Granted, then left by its client: started and aborted. -/
theorem balanced_of_run_granted :
    Balanced (Run.run stepLosing small (asked ++ [grants, leaves]))
      ∧ (Run.run stepLosing small (asked ++ [grants, leaves])).metrics.transactions.started = 1
      ∧ (Run.run stepLosing small (asked ++ [grants, leaves])).metrics.transactions.aborted = 1 := by
  obtain ⟨hgrants, hcounts⟩ := granted_facts
  refine ⟨balanced_of_run _ _ _ _ (hgrants.and_forall fun t ht _ n o => ?_), hcounts⟩
  rw [asked, List.mem_append, List.mem_append, List.mem_map, List.mem_singleton] at ht
  rcases ht with (⟨_, _, rfl⟩ | rfl) | ht
  · rfl
  · rfl
  · rcases List.mem_pair.mp ht with rfl | rfl <;> rfl

/-- The transaction is done, and the hub finds that client 3 has gone when it passes this on. -/
def finishes : LosingTurn where
  event := .control 2 (.txnStatus { state := TxnState.done.code, txnId := 1 }) 0
  answer n := n ≠ 0
  lost _ _ := true

/-- Client 3 closes its channel, and the hub finds that agent 2 has gone when it tells it. -/
def closes : LosingTurn where
  event := .control 3 (.close 0) 0
  answer n := n ≠ 0
  lost _ _ := true

set_option maxRecDepth 100000 in
/-- **The counters come apart**: a transaction granted when its client has gone is aborted without having been started;
one that is done is aborted, too, if its client is lost meanwhile; one that its client leaves is aborted twice if its
agent is lost meanwhile. -/
theorem unbalanced_late : ¬ Balanced (Run.run stepLosing small (asked ++ [leaves, grants]))
    ∧ ¬ Balanced (Run.run stepLosing small (asked ++ [grants, finishes]))
    ∧ ¬ Balanced (Run.run stepLosing small (asked ++ [grants, closes])) := by decide +kernel

end Broker
end CanHub
