/-
# Pairing injected frames with their bus echo

The hub tags each frame it injects with an origin token. `EchoCorrelator` queues
the token, per interface, when the frame is written to the bus, and gives it
back when the kernel's echo returns: the oldest entry with the echo's
identifier matches, and older ones are discarded, since their echo will never
come. A queue is a ring of 32 slots; `EchoQueue.pending` is the list it stands
for, oldest first.

Key theorems: `push_pending`, `dropNewest_pending`, `popMatch_pending`: the ring
does to the list what a bounded FIFO with discards does.
-/
import CanHub.Protocol.Control
import CanHub.Lib.Run
import Mathlib.Data.List.Basic
import Mathlib.Data.List.TakeWhile

namespace CanHub

open List Nat

@[simp] abbrev echoCorrelatorPendingMax : ℕ := 32

structure EchoEntry where
  token : UInt8 := 0
  canId : UInt32 := 0
deriving DecidableEq

theorem echoCorrelatorPendingMax_pos : 0 < echoCorrelatorPendingMax := by decide

/-- The pending entries of one interface: its row of `tokens` and `can_ids`, `head` and `count`. -/
structure EchoQueue where
  slots : ℕ → EchoEntry := fun _ => {}
  head : ℕ := 0
  count : ℕ := 0
  head_lt : head < echoCorrelatorPendingMax := by first | exact echoCorrelatorPendingMax_pos | decide
  count_le : count ≤ echoCorrelatorPendingMax := by first | exact Nat.zero_le echoCorrelatorPendingMax | decide

namespace EchoQueue

section

variable (q : EchoQueue)

def slotAt (position : ℕ) : ℕ := (q.head + position) % echoCorrelatorPendingMax

def dropOldest : EchoQueue :=
  { q with
    head := (q.head + 1) % echoCorrelatorPendingMax
    count := q.count - 1
    head_lt := mod_lt _ (by decide)
    count_le := (sub_le _ _).trans q.count_le }

/-- The entry goes to the slot behind the newest. -/
def append (e : EchoEntry) (h : q.count < echoCorrelatorPendingMax) : EchoQueue :=
  { q with
    slots := fun i => if i = q.slotAt q.count then e else q.slots i
    count := q.count + 1
    count_le := h }

def push (token : UInt8) (canId : UInt32) : EchoQueue :=
  if h : q.count = echoCorrelatorPendingMax then
    q.dropOldest.append ⟨token, canId⟩ (by simp only [dropOldest, h]; decide)
  else q.append ⟨token, canId⟩ (lt_of_le_of_ne q.count_le h)

def dropNewest : EchoQueue :=
  { q with count := q.count - 1, count_le := (sub_le _ _).trans q.count_le }

/-- The ring behind the entry at a position. -/
def discardThrough (position : ℕ) : EchoQueue :=
  { q with
    head := (q.slotAt position + 1) % echoCorrelatorPendingMax
    count := q.count - (position + 1)
    head_lt := mod_lt _ (by decide)
    count_le := (sub_le _ _).trans q.count_le }

/-- The scan of `EchoCorrelator_PopMatch`: the first position with the identifier. -/
def findMatch (canId : UInt32) : Option ℕ :=
  (range q.count).find? fun position => (q.slots (q.slotAt position)).canId == canId

def popMatch (canId : UInt32) : EchoQueue × Option UInt8 :=
  match q.findMatch canId with
  | none => (q, none)
  | some position => (q.discardThrough position, some (q.slots (q.slotAt position)).token)

end

/-! ### The list a ring stands for -/

def pending (q : EchoQueue) : List EchoEntry := (range q.count).map fun p => q.slots (q.slotAt p)

variable (q : EchoQueue)

@[simp] theorem length_pending : q.pending.length = q.count := by simp [pending]

theorem dropOldest_pending : q.dropOldest.pending = q.pending.tail := by
  unfold pending
  rw [← map_tail]
  cases hc : q.count with
  | zero => simp [dropOldest, hc]
  | succ n =>
    have htail : (range (n + 1)).tail = (range n).map (· + 1) := by
      rw [range_succ_eq_map]
      rfl
    rw [htail, map_map]
    simp only [dropOldest, hc]
    refine map_congr_left fun p _ => ?_
    simp only [Function.comp, slotAt, echoCorrelatorPendingMax]
    congr 1
    omega

theorem append_pending (e : EchoEntry) (h : q.count < echoCorrelatorPendingMax) :
    (q.append e h).pending = q.pending ++ [e] := by
  unfold pending
  simp only [append, range_succ, map_append, map_cons, map_nil]
  congr 1
  · refine map_congr_left fun p hp => ?_
    have hp' := mem_range.mp hp
    -- the slots of the other entries differ from the one written
    have hne : q.slotAt p ≠ q.slotAt q.count := by
      simp only [slotAt, echoCorrelatorPendingMax] at h ⊢
      omega
    show (if q.slotAt p = q.slotAt q.count then e else q.slots (q.slotAt p)) = _
    rw [if_neg hne]
  · show [if q.slotAt q.count = q.slotAt q.count then e else _] = [e]
    rw [if_pos rfl]

/-- **A push appends**, at the price of the oldest entry of a full ring. -/
theorem push_pending (token : UInt8) (canId : UInt32) :
    (q.push token canId).pending
      = (if q.count = echoCorrelatorPendingMax then q.pending.tail else q.pending) ++ [⟨token, canId⟩] := by
  unfold push
  split
  · rw [append_pending, dropOldest_pending]
  · rw [append_pending]

theorem dropNewest_pending : q.dropNewest.pending = q.pending.dropLast := by
  unfold pending
  rw [← map_dropLast]
  cases hc : q.count with
  | zero => simp [dropNewest, hc]
  | succ n =>
    rw [range_succ, dropLast_concat]
    simp [dropNewest, hc, slotAt]

theorem discardThrough_pending (position : ℕ) :
    (q.discardThrough position).pending = q.pending.drop (position + 1) := by
  apply ext_getElem
  · simp [discardThrough]
  · intro i h₁ h₂
    simp only [pending, getElem_map, getElem_drop, getElem_range]
    show q.slots (((q.slotAt position + 1) % 32 + i) % 32) = q.slots (q.slotAt (position + 1 + i))
    congr 1
    simp only [slotAt, echoCorrelatorPendingMax]
    omega

theorem pending_getElem {p : ℕ} (h : p < q.pending.length) :
    q.pending[p] = q.slots (q.slotAt p) := by simp [pending]

variable {canId : UInt32}

/-- Without an entry of the identifier nothing happens. -/
theorem popMatch_none {q : EchoQueue} (h : ∀ e ∈ q.pending, e.canId ≠ canId) :
    q.popMatch canId = (q, none) := by
  have hfind : q.findMatch canId = none := by
    rw [findMatch, find?_eq_none]
    intro p hp
    have hp' : p < q.pending.length := by simpa using hp
    simpa [pending_getElem q hp'] using h _ (getElem_mem hp')
  unfold popMatch
  rw [hfind]

/-- **The oldest entry with the identifier matches**, and everything up to it is gone. -/
theorem popMatch_pending {q : EchoQueue} {before rest : List EchoEntry} {e : EchoEntry}
    (hq : q.pending = before ++ e :: rest) (hno : ∀ x ∈ before, x.canId ≠ canId) (he : e.canId = canId) :
    (q.popMatch canId).2 = some e.token ∧ (q.popMatch canId).1.pending = rest := by
  have hlen : before.length < q.pending.length := by simp [hq]
  have hslot : q.slots (q.slotAt before.length) = e := by
    rw [← pending_getElem q hlen]
    simp [hq]
  have hfind : q.findMatch canId = some before.length := by
    rw [findMatch, find?_range_eq_some]
    refine ⟨by simp [hslot, he], by simpa using hlen, fun j hj => ?_⟩
    have hj' : j < q.pending.length := hj.trans hlen
    have hmem : q.pending[j] ∈ before := by
      simp only [hq, getElem_append_left hj]
      exact getElem_mem hj
    simpa [pending_getElem q hj'] using hno _ hmem
  unfold popMatch
  rw [hfind]
  dsimp only
  refine ⟨by rw [hslot], ?_⟩
  rw [discardThrough_pending, hq]
  simp

end EchoQueue

/-! ### All interfaces -/

structure EchoCorrelator where
  queue : ℕ → EchoQueue := fun _ => {}

namespace EchoCorrelator

def reset : EchoCorrelator := {}

/-- An operation on the queue of one interface; none for an index outside the table. -/
def update (c : EchoCorrelator) (interfaceIndex : UInt8) (f : EchoQueue → EchoQueue) : EchoCorrelator :=
  if registerInterfacesMax ≤ interfaceIndex.toNat then c
  else { queue := fun i => if i = interfaceIndex.toNat then f (c.queue i) else c.queue i }

def push (c : EchoCorrelator) (interfaceIndex : UInt8) (token : UInt8) (canId : UInt32) : EchoCorrelator :=
  c.update interfaceIndex (·.push token canId)

def dropNewest (c : EchoCorrelator) (interfaceIndex : UInt8) : EchoCorrelator :=
  c.update interfaceIndex (·.dropNewest)

def popMatch (c : EchoCorrelator) (interfaceIndex : UInt8) (canId : UInt32) : EchoCorrelator × Option UInt8 :=
  if registerInterfacesMax ≤ interfaceIndex.toNat then (c, none)
  else
    (c.update interfaceIndex fun q => (q.popMatch canId).1, ((c.queue interfaceIndex.toNat).popMatch canId).2)

/-- The entries an interface still waits for the echo of. -/
def pending (c : EchoCorrelator) (interfaceIndex : UInt8) : List EchoEntry :=
  if registerInterfacesMax ≤ interfaceIndex.toNat then [] else (c.queue interfaceIndex.toNat).pending

variable {c : EchoCorrelator}

theorem pending_update {i : UInt8} (h : i.toNat < registerInterfacesMax)
    (f : EchoQueue → EchoQueue) : (c.update i f).pending i = (f (c.queue i.toNat)).pending := by
  unfold pending update
  rw [if_neg (not_le.mpr h), if_neg (not_le.mpr h)]
  simp

theorem popMatch_none {i : UInt8}
    (h : ∀ e ∈ c.pending i, e.canId ≠ canId) : c.popMatch i canId = (c, none) := by
  unfold popMatch
  split
  · rfl
  rename_i hi
  unfold pending at h
  rw [if_neg hi] at h
  have hq := EchoQueue.popMatch_none h
  rw [hq]
  unfold update
  rw [if_neg hi]
  congr 1
  have hsame : (fun i' => if i' = i.toNat then ((c.queue i').popMatch canId).1 else c.queue i') = c.queue := by
    funext i'
    split
    · rename_i he
      rw [he, hq]
    · rfl
  rw [hsame]

/-- **A pending identifier is popped**: the queue gets shorter. -/
theorem popMatch_pending {i : UInt8} {before rest : List EchoEntry}
    {e : EchoEntry} (hq : c.pending i = before ++ e :: rest) (hno : ∀ x ∈ before, x.canId ≠ canId)
    (he : e.canId = canId) :
    (c.popMatch i canId).2 = some e.token ∧ (c.popMatch i canId).1.pending i = rest := by
  have hi : i.toNat < registerInterfacesMax := by
    by_contra hout
    unfold pending at hq
    rw [if_pos (not_lt.mp hout)] at hq
    simp at hq
  have hq' : (c.queue i.toNat).pending = before ++ e :: rest := by
    unfold pending at hq
    rwa [if_neg (not_le.mpr hi)] at hq
  obtain ⟨ht, hr⟩ := EchoQueue.popMatch_pending hq' hno he
  unfold popMatch
  rw [if_neg (not_le.mpr hi)]
  exact ⟨ht, by rw [pending_update hi, hr]⟩

/-! ### Injections and echoes -/

open Run

/-- What the correlator does for `injectFrame`: the entry of a write that fails is dropped. -/
def inject (c : EchoCorrelator) (interfaceIndex token : UInt8) (canId : UInt32) (written : Bool) : EchoCorrelator :=
  if written then c.push interfaceIndex token canId
  else (c.push interfaceIndex token canId).dropNewest interfaceIndex

inductive EchoEvent
  | inject (interfaceIndex token : UInt8) (canId : UInt32) (written : Bool)
  | echo (interfaceIndex : UInt8) (canId : UInt32)

def step (c : EchoCorrelator) : EchoEvent → EchoCorrelator
  | .inject interfaceIndex token canId written => c.inject interfaceIndex token canId written
  | .echo interfaceIndex canId => (c.popMatch interfaceIndex canId).1

/-- The tokens the echoes are labelled with, in order. -/
def labels : EchoCorrelator → List EchoEvent → List (Option UInt8)
  | _, [] => []
  | c, .echo interfaceIndex canId :: es =>
    (c.popMatch interfaceIndex canId).2 :: labels (c.step (.echo interfaceIndex canId)) es
  | c, e :: es => labels (c.step e) es

/-- An operation that does something to the list a queue stands for does it to the interface's list. -/
theorem update_pending {f : EchoQueue → EchoQueue} {g : List EchoEntry → List EchoEntry}
    (hf : ∀ q : EchoQueue, (f q).pending = g q.pending) (c : EchoCorrelator) (i j : UInt8) :
    (c.update i f).pending j = if j = i ∧ i.toNat < registerInterfacesMax then g (c.pending j) else c.pending j := by
  unfold pending update
  by_cases hi : i.toNat < registerInterfacesMax
  · rw [if_neg (not_le.mpr hi)]
    by_cases hj : j = i
    · subst hj
      simp only [hi, if_neg (not_le.mpr hi), and_self, if_true, hf]
    · have hne : j.toNat ≠ i.toNat := fun h => hj (UInt8.toNat_inj.mp h)
      simp only [hj, false_and, if_false, hne]
  · have hout : ¬ (j = i ∧ i.toNat < registerInterfacesMax) := fun h => hi h.2
    rw [if_pos (not_lt.mp hi), if_neg hout]

theorem push_pending (c : EchoCorrelator) (i token : UInt8) (canId : UInt32) (j : UInt8) :
    (c.push i token canId).pending j = if j = i ∧ i.toNat < registerInterfacesMax then
      (if (c.pending j).length = echoCorrelatorPendingMax then (c.pending j).tail else c.pending j) ++ [⟨token, canId⟩]
    else c.pending j := by
  have hpush : ∀ q : EchoQueue, (q.push token canId).pending =
      (if q.pending.length = echoCorrelatorPendingMax then q.pending.tail else q.pending) ++ [⟨token, canId⟩] := by
    intro q
    rw [EchoQueue.push_pending, EchoQueue.length_pending]
  exact update_pending (g := fun l => (if l.length = echoCorrelatorPendingMax then l.tail else l) ++ [⟨token, canId⟩])
    hpush c i j

/-- A failed write costs a full queue its oldest entry, and no other queue anything. -/
theorem inject_failed_pending (c : EchoCorrelator) (i token : UInt8) (canId : UInt32) (j : UInt8) :
    (c.inject i token canId false).pending j =
      if j = i ∧ i.toNat < registerInterfacesMax ∧ (c.pending j).length = echoCorrelatorPendingMax then (c.pending j).tail
      else c.pending j := by
  have hdrop : (c.inject i token canId false).pending j = if j = i ∧ i.toNat < registerInterfacesMax then
      ((c.push i token canId).pending j).dropLast else (c.push i token canId).pending j :=
    update_pending EchoQueue.dropNewest_pending _ i j
  rw [hdrop, push_pending]
  by_cases hj : j = i ∧ i.toNat < registerInterfacesMax
  · simp only [hj, and_self, true_and, if_true, dropLast_concat]
  · rw [if_neg hj, if_neg hj, if_neg fun h => hj ⟨h.1, h.2.1⟩]

/-- The echo's label and what it leaves are read off the list. -/
theorem popMatch_congr {c' : EchoCorrelator} (h : ∀ j, c.pending j = c'.pending j) (i : UInt8) (canId : UInt32) :
    (c.popMatch i canId).2 = (c'.popMatch i canId).2
      ∧ ∀ j, (c.popMatch i canId).1.pending j = (c'.popMatch i canId).1.pending j := by
  by_cases hnone : ∀ e ∈ c.pending i, e.canId ≠ canId
  · rw [popMatch_none hnone, popMatch_none (h i ▸ hnone)]
    exact ⟨rfl, h⟩
  · have hex : ((c.pending i).find? fun e => e.canId == canId).isSome := by simpa using hnone
    obtain ⟨e, he⟩ := Option.isSome_iff_exists.mp hex
    obtain ⟨hfirst, before, rest, hq, hno⟩ := find?_eq_some_iff_append.mp he
    have hmiss : ∀ x ∈ before, x.canId ≠ canId := fun x hx => by simpa using hno x hx
    have hp := popMatch_pending hq hmiss (by simpa using hfirst)
    have hp' := popMatch_pending ((h i).symm.trans hq) hmiss (by simpa using hfirst)
    refine ⟨hp.1.trans hp'.1.symm, fun j => ?_⟩
    by_cases hj : j = i
    · rw [hj, hp.2, hp'.2]
    · have hother : ∀ d : EchoCorrelator, (d.popMatch i canId).1.pending j = d.pending j := by
        intro d
        have hne : j.toNat ≠ i.toNat := fun h => hj (UInt8.toNat_inj.mp h)
        unfold popMatch
        split
        · rfl
        · simp only [pending, update]
          split
          · rfl
          · simp [hne]
      rw [hother, hother, h]

/-- Correlators that stand for the same lists label the same. -/
theorem labels_congr : ∀ (es : List EchoEvent) {c c' : EchoCorrelator}, (∀ j, c.pending j = c'.pending j) →
    labels c es = labels c' es
  | [], _, _, _ => rfl
  | .inject i token canId written :: es, c, c', h => by
    refine labels_congr es fun j => ?_
    cases written with
    | true => exact (push_pending c i token canId j).trans ((push_pending c' i token canId j).trans (by rw [h])).symm
    | false =>
      have hf := inject_failed_pending c i token canId j
      rw [h, ← inject_failed_pending c' i token canId j] at hf
      exact hf
  | .echo i canId :: es, c, c', h => by
    obtain ⟨hlabel, hrest⟩ := popMatch_congr h i canId
    simp only [labels, hlabel, step]
    rw [labels_congr es hrest]

/-- **A failed write leaves no trace iff the queue of its interface was not full**: in any state, all queues are as they
were and all later echoes are labelled as if it had not been tried. -/
theorem failed_write_no_trace_iff (c : EchoCorrelator) (i token : UInt8) (canId : UInt32) :
    ((∀ j, (c.inject i token canId false).pending j = c.pending j)
      ∧ ∀ later, labels (c.inject i token canId false) later = labels c later)
    ↔ (i.toNat < registerInterfacesMax → (c.pending i).length < echoCorrelatorPendingMax) := by
  constructor
  · rintro ⟨hsame, -⟩ hi
    have hle : (c.pending i).length ≤ echoCorrelatorPendingMax := by
      unfold pending
      rw [if_neg (not_le.mpr hi), EchoQueue.length_pending]
      exact (c.queue i.toNat).count_le
    refine lt_of_le_of_ne hle fun hfull => ?_
    have htail := hsame i
    rw [inject_failed_pending, if_pos ⟨rfl, hi, hfull⟩] at htail
    have hlen := congrArg length htail
    rw [length_tail, hfull] at hlen
    simp at hlen
  · intro hroom
    have hsame : ∀ j, (c.inject i token canId false).pending j = c.pending j := by
      intro j
      rw [inject_failed_pending]
      refine if_neg ?_
      rintro ⟨rfl, hi, hfull⟩
      exact absurd hfull (hroom hi).ne
    exact ⟨hsame, fun later => labels_congr later hsame⟩

/-- Thirty-two writes wait for their echo, the thirty-third fails: the oldest entry is gone. -/
theorem failed_write_evicts :
    let c := run step reset (replicate 32 (.inject 0 1 0x100 true) : List EchoEvent)
    (c.pending 0).length = 32 ∧ ((c.inject 0 2 0x200 false).pending 0).length = 31 := by
  decide

end EchoCorrelator
end CanHub
