/-
# The transactions the hub relays

`TransactionTable` holds at most one transaction per agent. An entry is pending
from the client's TXN_BEGIN until the agent's TXN_BEGIN_ACK, then active until
TXN_STATUS; an exclusive active entry leases its interface to its client. A
pending entry whose client left names `transactionNoClient`. Pointers to entries
are slot indices.

The lease counter lets the frame path skip the search when no lease is held.
`Counted` says that it counts the leases; `leaseHolder_eq` is what the search
then finds.
-/
import CanHub.Hub.Peers

namespace CanHub

open Table

@[simp] abbrev transactionTableMax : ℕ := hubPeersMax
@[simp] abbrev transactionRelayWindowMax : ℕ := 48 * 1024

def transactionNoClient : UInt32 := 0

inductive TransactionRelayState | free | pending | active
deriving DecidableEq

structure RelayedTransaction where
  state : TransactionRelayState := .free
  exclusive : Bool := false
  txnId : UInt16 := 0
  interfaceId : UInt32 := 0
  agentPeerId : UInt32 := 0
  agentChannel : UInt8 := 0
  clientPeerId : UInt32 := 0
  clientChannel : UInt8 := 0
  startedAtUs : ℕ := 0
  lastProgressUs : ℕ := 0
  completedSteps : UInt32 := 0
  relayedBytes : UInt32 := 0
  consumedBytes : UInt32 := 0
deriving DecidableEq

namespace RelayedTransaction

def isInUse (t : RelayedTransaction) : Bool := t.state ≠ .free

def holdsLease (t : RelayedTransaction) : Bool := t.state = .active ∧ t.exclusive

theorem isInUse_of_active {t : RelayedTransaction} (h : t.state = .active) : t.isInUse := by simp [isInUse, h]

theorem isInUse_of_holdsLease {t : RelayedTransaction} (h : t.holdsLease) : t.isInUse := by
  simp only [holdsLease, decide_eq_true_eq] at h
  exact isInUse_of_active h.1

end RelayedTransaction

abbrev TransactionSlot := Fin transactionTableMax

structure TransactionTable where
  entries : Table transactionTableMax RelayedTransaction := fun _ => {}
  activeLeases : UInt16 := 0

namespace TransactionTable

section

variable (s : TransactionTable)

def forAgent (agentPeerId : UInt32) : Option TransactionSlot :=
  s.entries.find? fun t => t.isInUse && t.agentPeerId == agentPeerId

def forClientChannel (clientPeerId : UInt32) (clientChannel : UInt8) : Option TransactionSlot :=
  s.entries.find? fun t => t.isInUse && t.clientPeerId == clientPeerId && t.clientChannel == clientChannel

/-- A change of one entry. -/
def modify (i : TransactionSlot) (f : RelayedTransaction → RelayedTransaction) : TransactionTable :=
  { s with entries := Function.update s.entries i (f (s.entries i)) }

/-- `TransactionTable_Open`: the table with the request pending, and its slot. -/
def openEntry (request : RelayedTransaction) : Option (TransactionTable × TransactionSlot) :=
  match s.forAgent request.agentPeerId with
  | some _ => none
  | none =>
    match s.entries.find? fun t => !t.isInUse with
    | none => none
    | some i => some (s.modify i fun _ => { request with state := .pending }, i)

def activate (i : TransactionSlot) (txnId : UInt16) : TransactionTable :=
  let granted := s.modify i fun t => { t with state := .active, txnId }
  if (s.entries i).exclusive then { granted with activeLeases := s.activeLeases + 1 } else granted

def close (i : TransactionSlot) : TransactionTable :=
  let cleared := s.modify i fun _ => {}
  if (s.entries i).holdsLease then { cleared with activeLeases := s.activeLeases - 1 } else cleared

def anyLease : Bool := 0 < s.activeLeases

/-- `TransactionTable_LeaseHolder`: the client an interface is leased to. -/
def leaseHolder (interfaceId : UInt32) : Option UInt32 :=
  if !s.anyLease then none
  else (s.entries.find? fun t => t.holdsLease && t.interfaceId == interfaceId).map fun i =>
    (s.entries i).clientPeerId

end

/-! ### Entries -/

variable {s : TransactionTable} {i j : TransactionSlot}

@[simp] theorem modify_entries_self (f : RelayedTransaction → RelayedTransaction) :
    (s.modify i f).entries i = f (s.entries i) := by simp [modify]

theorem modify_entries_of_ne (f : RelayedTransaction → RelayedTransaction) (h : j ≠ i) :
    (s.modify i f).entries j = s.entries j := by simp [modify, h]

@[simp] theorem activate_entries (txnId : UInt16) :
    (s.activate i txnId).entries = (s.modify i fun t => { t with state := .active, txnId }).entries := by
  unfold activate
  split <;> rfl

@[simp] theorem close_entries : (s.close i).entries = (s.modify i fun _ => {}).entries := by
  unfold close
  split <;> rfl

theorem forAgent_some {a : UInt32} (h : s.forAgent a = some i) :
    (s.entries i).isInUse ∧ (s.entries i).agentPeerId = a := by
  simpa using find?_some h

theorem forAgent_none {a : UInt32} (h : s.forAgent a = none) (ht : (s.entries i).isInUse) :
    (s.entries i).agentPeerId ≠ a := by
  have := find?_eq_none.mp h i
  simpa [ht] using this

theorem forClientChannel_some {c : UInt32} {k : UInt8} (h : s.forClientChannel c k = some i) :
    (s.entries i).isInUse ∧ (s.entries i).clientPeerId = c ∧ (s.entries i).clientChannel = k := by
  simpa [and_assoc] using find?_some h

theorem forClientChannel_none {c : UInt32} {k : UInt8} (h : s.forClientChannel c k = none)
    (ht : (s.entries i).isInUse) (hc : (s.entries i).clientPeerId = c) : (s.entries i).clientChannel ≠ k := by
  have := find?_eq_none.mp h i
  simpa [ht, hc] using this

/-- What opening does: a free slot takes the request, pending. -/
theorem openEntry_some {s' : TransactionTable} {request : RelayedTransaction} (h : s.openEntry request = some (s', i)) :
    s.forAgent request.agentPeerId = none ∧ (s.entries i).isInUse = false
      ∧ s' = s.modify i fun _ => { request with state := .pending } := by
  unfold openEntry at h
  split at h
  · cases h
  split at h
  · cases h
  · rename_i hagent _ _ hfree
    cases h
    exact ⟨hagent, by simpa using find?_some hfree, rfl⟩

/-! ### Leases -/

/-- The counter counts the leases. -/
def Counted (s : TransactionTable) : Prop := s.activeLeases.toNat = s.entries.count (·.holdsLease)

theorem Counted.init : Counted {} := by
  have h : (({} : TransactionTable).entries.count (·.holdsLease)) = 0 := by
    refine Nat.eq_zero_of_not_pos fun hpos => ?_
    obtain ⟨i, hi⟩ := count_pos_iff.mp hpos
    simp [RelayedTransaction.holdsLease] at hi
  simp [Counted, h]

variable (h : s.Counted)
include h

/-- Changing an entry that keeps its lease, or its lack of one. -/
theorem Counted.modify {f : RelayedTransaction → RelayedTransaction}
    (hf : (f (s.entries i)).holdsLease = (s.entries i).holdsLease) : (s.modify i f).Counted := by
  have hc := count_update s.entries (·.holdsLease) i (f (s.entries i))
  simp only [hf] at hc
  unfold Counted at h ⊢
  simp only [TransactionTable.modify]
  omega

theorem Counted.activate (hp : (s.entries i).state = .pending) (txnId : UInt16) :
    (s.activate i txnId).Counted := by
  have hc := count_update s.entries (·.holdsLease) i { s.entries i with state := .active, txnId }
  have hl := count_le s.entries (·.holdsLease)
  have hn : (s.entries i).holdsLease = false := by simp [RelayedTransaction.holdsLease, hp]
  unfold Counted at h ⊢
  unfold TransactionTable.activate TransactionTable.modify
  by_cases he : (s.entries i).exclusive
  · have hy : ({ s.entries i with state := .active, txnId } : RelayedTransaction).holdsLease := by
      simp [RelayedTransaction.holdsLease, he]
    simp only [hn, hy, Bool.toNat_true, Bool.toNat_false] at hc
    rw [if_pos he]
    simp only [UInt16.toNat_add, UInt16.toNat_one]
    simp only [transactionTableMax, hubPeersMax] at hl
    omega
  · have hy : ({ s.entries i with state := .active, txnId } : RelayedTransaction).holdsLease = false := by
      simp [RelayedTransaction.holdsLease, he]
    simp only [hn, hy, Bool.toNat_false] at hc
    rw [if_neg he]
    dsimp only
    omega

theorem Counted.close : (s.close i).Counted := by
  have hc := count_update s.entries (·.holdsLease) i {}
  have hn : ({} : RelayedTransaction).holdsLease = false := rfl
  have hl := count_le s.entries (·.holdsLease)
  unfold Counted at h ⊢
  unfold TransactionTable.close TransactionTable.modify
  by_cases he : (s.entries i).holdsLease
  · simp only [he, hn, Bool.toNat_true, Bool.toNat_false] at hc
    have h1 : (1 : UInt16) ≤ s.activeLeases := by
      rw [UInt16.le_iff_toNat_le, UInt16.toNat_one]
      omega
    rw [if_pos he]
    simp only [UInt16.toNat_sub_of_le _ _ h1, UInt16.toNat_one]
    omega
  · simp only [he, hn, Bool.toNat_false] at hc
    rw [if_neg he]
    dsimp only
    omega

theorem Counted.anyLease_iff : s.anyLease ↔ ∃ i, (s.entries i).holdsLease := by
  rw [anyLease, decide_eq_true_eq, UInt16.lt_iff_toNat_lt, UInt16.toNat_zero, h]
  exact count_pos_iff

/-- With the counter right, the holder is found by searching all entries. -/
theorem Counted.leaseHolder_eq (interfaceId : UInt32) :
    s.leaseHolder interfaceId = (s.entries.find? fun t => t.holdsLease && t.interfaceId == interfaceId).map
      fun i => (s.entries i).clientPeerId := by
  unfold leaseHolder
  by_cases ha : s.anyLease
  · simp [ha]
  · have hnone : (s.entries.find? fun t => t.holdsLease && t.interfaceId == interfaceId) = none := by
      rw [find?_eq_none]
      intro i
      have : ¬ (s.entries i).holdsLease := fun hi => ha (h.anyLease_iff.mpr ⟨i, hi⟩)
      simp [this]
    simp [ha, hnone]

end TransactionTable
end CanHub
