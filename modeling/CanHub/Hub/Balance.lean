/-
# The balance of the transactions

The hub counts the transactions that agents grant, and of those it counts each as
completed or as aborted when it ends: what was started is completed, aborted or still
in the table (`Balanced`). Here is what it takes of a change of the table and of the
counters to keep this; `CanHub/Hub/Moves.lean` has it of every change of the books, and
`CanHub/Hub/Counters.lean` of the runs.
-/
import CanHub.Hub.Alike

namespace CanHub
namespace Broker

variable {s s' : Broker}

/-- How many transactions are active. -/
def activeCount (s : Broker) : ℕ := Table.count s.transactions.entries fun t => t.state = .active

/-- **What was started is completed, aborted or active.** -/
def Balanced (s : Broker) : Prop :=
  s.metrics.transactions.started
    = s.metrics.transactions.completed + s.metrics.transactions.aborted + UInt64.ofNat s.activeCount

instance (s : Broker) : Decidable s.Balanced := inferInstanceAs (Decidable (_ = _))

/-- The active transactions are those counted as granted and not ended. -/
theorem balanced_iff : s.Balanced ↔ s.metrics.transactions.unended = UInt64.ofNat s.activeCount := by
  unfold Balanced TransactionCounters.unended
  constructor
  · intro h
    grind
  · intro h
    grind

/-- The entry of a transaction is cleared, and counted. -/
def ended (s : Broker) (t : TransactionSlot) (f : TransactionCounters → TransactionCounters) : Broker :=
  { s.countTransactions f with transactions := s.transactions.close t }

/-- The end of the transaction is counted if its grant was, and is not otherwise. -/
def Counts (s : Broker) (t : TransactionSlot) (f : TransactionCounters → TransactionCounters) : Prop :=
  ∀ c, (f c).unended + (if (s.transactions.entries t).state = .active then 1 else 0) = c.unended

theorem TransactionCounters.unended_aborted (c : TransactionCounters) :
    { c with aborted := c.aborted + 1 }.unended + 1 = c.unended := by
  unfold TransactionCounters.unended
  grind

/-- An entry changes: it was active before, or is active after, or not. -/
theorem activeCount_update (t : TransactionSlot) (e : RelayedTransaction)
    (h : s'.transactions.entries = Function.update s.transactions.entries t e) :
    s'.activeCount + (decide ((s.transactions.entries t).state = .active)).toNat
      = s.activeCount + (decide (e.state = .active)).toNat := by
  unfold activeCount
  rw [h]
  exact Table.count_update s.transactions.entries (fun t => t.state = .active) t e

variable {t : TransactionSlot}

theorem counts_aborted (h : (s.transactions.entries t).state = .active) :
    Counts s t fun c => { c with aborted := c.aborted + 1 } := by
  intro c
  rw [if_pos h]
  exact TransactionCounters.unended_aborted c

variable (h : Balanced s)
include h

namespace Balanced

theorem of_counters (hactive : s'.activeCount = s.activeCount)
    (hcount : s'.metrics.transactions.unended = s.metrics.transactions.unended) : Balanced s' := by
  rw [balanced_iff] at h ⊢
  rw [hactive, hcount]
  exact h

theorem like (hl : Like s s') : Balanced s' := by
  refine h.of_counters (Table.count_congr fun t => ?_) hl.unended
  rw [(RelayedTransaction.of_face (hl.transactions t)).1]

/-- Nothing else than the table and the counters matters. -/
theorem same (ht : s'.transactions.entries = s.transactions.entries)
    (hm : s'.metrics.transactions = s.metrics.transactions) : Balanced s' := by
  refine h.of_counters ?_ (by rw [hm])
  unfold activeCount
  rw [ht]

theorem activate (txnId : UInt16) (ht : (s.transactions.entries t).state = .pending) :
    Balanced { s.countTransactions fun c => { c with started := c.started + 1 } with
      transactions := s.transactions.activate t txnId } := by
  generalize hs' : ({ s.countTransactions fun c => { c with started := c.started + 1 } with
      transactions := s.transactions.activate t txnId } : Broker) = s'
  have hentries : s'.transactions.entries = Function.update s.transactions.entries t
      { s.transactions.entries t with state := .active, txnId } := by
    rw [← hs']
    exact TransactionTable.activate_entries txnId
  have hcount : s'.activeCount = s.activeCount + 1 := by simpa [ht] using activeCount_update t _ hentries
  unfold Balanced at h ⊢
  rw [hcount, UInt64.ofNat_add, ← UInt64.add_assoc, ← hs']
  exact congrArg (· + 1) h

/-- A transaction ends and is counted as it has to be. -/
theorem ended {f : TransactionCounters → TransactionCounters} (hf : Counts s t f) : Balanced (s.ended t f) := by
  have hentries : (s.ended t f).transactions.entries = Function.update s.transactions.entries t {} :=
    TransactionTable.close_entries
  have hactive := activeCount_update t _ hentries
  have hidle : (decide (({} : RelayedTransaction).state = .active)).toNat = 0 := rfl
  rw [hidle, Nat.add_zero] at hactive
  have hcount := hf s.metrics.transactions
  rw [balanced_iff] at h ⊢
  rw [h, ← hactive, UInt64.ofNat_add] at hcount
  have hbit : UInt64.ofNat (decide ((s.transactions.entries t).state = .active)).toNat
      = if (s.transactions.entries t).state = .active then 1 else 0 := by
    split <;> simp [*]
  rw [hbit] at hcount
  exact (UInt64.add_left_inj _).mp hcount

theorem requested {request : RelayedTransaction} {table : TransactionTable}
    (ht : s.transactions.openEntry request = some (table, t)) : Balanced { s with transactions := table } := by
  obtain ⟨_, hfree, htable⟩ := TransactionTable.openEntry_some ht
  have hstate : (s.transactions.entries t).state = .free := by simpa [RelayedTransaction.isInUse] using hfree
  have hentries : ({ s with transactions := table } : Broker).transactions.entries
      = Function.update s.transactions.entries t { request with state := .pending } := by
    rw [htable]
    rfl
  have hcount := activeCount_update t _ hentries
  refine h.of_counters ?_ rfl
  simpa [hstate] using hcount

theorem orphaned : Balanced (s.modifyTransaction t fun t => { t with clientPeerId := transactionNoClient }) := by
  have hcount : (s.modifyTransaction t fun t => { t with clientPeerId := transactionNoClient }).activeCount
      + _ = s.activeCount + _ := activeCount_update t _ rfl
  refine h.of_counters ?_ rfl
  simpa using hcount

end Balanced
end Broker
end CanHub
