/-
# A backlog paid for in another unit

Messages travel in order through a buffer that counts their size, to a receiver
that reports how much of their content it has used up. The two measures differ:
a `Load` has both. `outstanding c ms` are the messages of `ms` that a report of
`c` does not show to have arrived, `arrived d ms` is the content of the messages
that `d` bytes of the stream complete.

Key theorem:
- `size_le_outstanding`: what waits behind messages with content `c` is no larger
  than what is outstanding at a report of `c`, also when messages were lost.
-/
import Mathlib.Algebra.Order.BigOperators.Group.List
import Mathlib.Algebra.Order.Ring.Nat

namespace CanHub

/-- What a message takes in the buffer, and the content it carries. -/
structure Load where
  size : ℕ
  content : ℕ
deriving DecidableEq

namespace Load

def totalSize (ms : List Load) : ℕ := (ms.map size).sum

def totalContent (ms : List Load) : ℕ := (ms.map content).sum

@[simp] theorem totalSize_nil : totalSize [] = 0 := rfl

@[simp] theorem totalSize_cons (m : Load) (ms : List Load) : totalSize (m :: ms) = m.size + totalSize ms := rfl

@[simp] theorem totalSize_append (ms ns : List Load) : totalSize (ms ++ ns) = totalSize ms + totalSize ns := by
  simp [totalSize]

@[simp] theorem totalContent_nil : totalContent [] = 0 := rfl

@[simp] theorem totalContent_cons (m : Load) (ms : List Load) :
    totalContent (m :: ms) = m.content + totalContent ms := rfl

theorem totalSize_le_of_sublist {ms ns : List Load} (h : ms.Sublist ns) : totalSize ms ≤ totalSize ns :=
  (h.map size).sum_le_sum fun _ _ => Nat.zero_le _

/-- The messages not covered by a report: content is used up in order, so a
message with used content, and every message before it, has arrived. -/
def outstanding : ℕ → List Load → List Load
  | _, [] => []
  | c, m :: ms => if c = 0 then m :: ms else outstanding (c - m.content) ms

/-- **What waits is outstanding**: the messages behind those that carry the
reported content. -/
theorem size_le_outstanding : ∀ (ms : List Load) {c : ℕ} {before waiting : List Load},
    (before ++ waiting).Sublist ms → c ≤ totalContent before → totalSize waiting ≤ totalSize (outstanding c ms)
  | [], _, before, waiting, hsub, _ => by
    have hnil := List.append_eq_nil_iff.mp (List.sublist_nil.mp hsub)
    rw [hnil.2]
    exact le_rfl
  | m :: ms, c, before, waiting, hsub, hc => by
    by_cases h0 : c = 0
    · rw [outstanding, if_pos h0]
      exact totalSize_le_of_sublist ((List.sublist_append_right before waiting).trans hsub)
    · rw [outstanding, if_neg h0]
      -- something was reported, so the first message sent is not among those that wait
      cases before with
      | nil =>
        rw [totalContent_nil] at hc
        omega
      | cons b before =>
        rw [totalContent_cons] at hc
        cases hsub with
        | cons _ hsub =>
          apply size_le_outstanding ms hsub
          rw [totalContent_cons]
          omega
        | cons_cons _ hsub =>
          apply size_le_outstanding ms hsub
          omega

/-- The content of the messages complete after `d` bytes of the stream. -/
def arrived : ℕ → List Load → ℕ
  | _, [] => 0
  | d, m :: ms => if m.size ≤ d then m.content + arrived (d - m.size) ms else 0

/-- The messages that have arrived, and the others. -/
theorem arrived_split : ∀ (d : ℕ) (ms : List Load), ∃ before waiting,
    ms = before ++ waiting ∧ totalSize before ≤ d ∧ arrived d ms = totalContent before
  | _, [] => ⟨[], [], rfl, Nat.zero_le _, rfl⟩
  | d, m :: ms => by
    by_cases h : m.size ≤ d
    · obtain ⟨before, waiting, hms, hle, hc⟩ := arrived_split (d - m.size) ms
      refine ⟨m :: before, waiting, by rw [hms, List.cons_append], ?_, ?_⟩
      · rw [totalSize_cons]
        omega
      · rw [arrived, if_pos h, hc, totalContent_cons]
    · exact ⟨[], m :: ms, rfl, Nat.zero_le _, by rw [arrived, if_neg h, totalContent_nil]⟩

/-- More bytes, or more messages behind, complete no fewer messages. -/
theorem arrived_mono : ∀ (ms ns : List Load) {d e : ℕ}, d ≤ e → arrived d ms ≤ arrived e (ms ++ ns)
  | [], _, _, _, _ => Nat.zero_le _
  | m :: ms, ns, d, e, h => by
    by_cases hm : m.size ≤ d
    · have ih := arrived_mono ms ns (Nat.sub_le_sub_right h m.size)
      rw [List.cons_append, arrived, arrived, if_pos hm, if_pos (hm.trans h)]
      omega
    · rw [arrived, if_neg hm]
      exact Nat.zero_le _

end Load
end CanHub
