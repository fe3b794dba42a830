/-
# A flood of identities turned away

The hub remembers the identities it turned away in a table of sixteen. A new one takes a free entry or the place of the
entry least worth keeping: the one of the fewest attempts, and of these the one not seen for longest. When an identity
was last seen is a matter of the calls, and every entry has it (`seenLast_run`). So however many identities show up
once, a device that keeps trying stays in the table (`flood_spares_retrying`): the first victim is an entry of one attempt
if there is any, and the later ones are entries the flood has made.
-/
import CanHub.Hub.Peers
import CanHub.Lib.Run
import Mathlib.Data.List.Induction

namespace CanHub

open Function Table

/-- `Rejection`: a peer turned away, and why and when. -/
structure Rejection where
  peer : HubPeer
  name : Text
  reason : RejectedReason
  nowUs : ℕ

/-- `RejectedPeers_Record` and `RejectedPeers_Forget`. -/
inductive RejectedCall
  | record (rejection : Rejection)
  | forget (peer : HubPeer)

def HubPeer.identity (p : HubPeer) : Text × HubPeerRole := (p.fingerprintHex, p.role)

def RejectedPeer.identity (e : RejectedPeer) : Text × HubPeerRole := (e.fingerprintHex, e.role)

theorem RejectedPeer.isLessWorthKeeping_iff {e v : RejectedPeer} : e.isLessWorthKeeping v ↔
    e.attempts < v.attempts ∨ e.attempts = v.attempts ∧ e.lastSeenUs < v.lastSeenUs := by
  unfold isLessWorthKeeping
  split <;> simp <;> omega

namespace RejectedPeers

variable {t : RejectedPeers} {i : Fin rejectedPeersMax} {calls : List RejectedCall} {x : Text × HubPeerRole}

def turnAway (t : RejectedPeers) (r : Rejection) : RejectedPeers := t.record r.peer r.name r.reason r.nowUs

def step (t : RejectedPeers) : RejectedCall → RejectedPeers
  | .record r => t.turnAway r
  | .forget p => t.forget p

/-- The identity is in the table. -/
def Holds (t : RejectedPeers) (x : Text × HubPeerRole) : Prop := ∃ i, (t i).inUse ∧ (t i).identity = x

/-- The entries in use are of different identities. -/
def Distinct (t : RejectedPeers) : Prop :=
  ∀ i j, (t i).inUse → (t j).inUse → (t i).identity = (t j).identity → i = j

/-- An entry is free or of one attempt. -/
def Spare (t : RejectedPeers) : Prop := ∃ i, (t i).inUse = false ∨ (t i).attempts ≤ 1

/-- The entries of two attempts or more that `v` allows are in `t'` as they are in `t`. -/
def Keeps (t t' : RejectedPeers) (v : Fin rejectedPeersMax → Prop) : Prop :=
  ∀ i, v i → (t i).inUse → 2 ≤ (t i).attempts → t' i = t i

theorem findEntry_eq_none {p : HubPeer} : t.findEntry p = none ↔ ¬t.Holds p.identity := by
  simp only [findEntry, find?_eq_none, Holds, RejectedPeer.identity, HubPeer.identity, Prod.mk.injEq, not_exists]
  exact forall_congr' fun i => by simp; tauto

/-- What a rejection of an identity that is not in the table writes. -/
theorem turnAway_new {r : Rejection} (hne : r.peer.fingerprintHex ≠ []) (hnew : ¬t.Holds r.peer.identity) :
    t.turnAway r = update t t.claimEntry
      { inUse := true, role := r.peer.role, reason := r.reason, attempts := 1, lastSeenUs := r.nowUs, name := r.name
        fingerprintHex := r.peer.fingerprintHex, origin := r.peer.origin } := by
  simp only [turnAway, record, if_neg hne, findEntry_eq_none.2 hnew]
  rfl

/-- What a rejection of an identity that is in the table writes. -/
theorem turnAway_known {r : Rejection} (hne : r.peer.fingerprintHex ≠ []) (ht : t.Distinct)
    (hi : (t i).inUse) (hid : (t i).identity = r.peer.identity) :
    t.turnAway r = update t i
      { t i with
        reason := r.reason, attempts := ((t i).attempts + 1) % 2 ^ 32, lastSeenUs := r.nowUs, name := r.name
        origin := r.peer.origin } := by
  cases hfind : t.findEntry r.peer with
  | none => exact absurd ⟨i, hi, hid⟩ (findEntry_eq_none.1 hfind)
  | some j =>
    have hj := find?_some hfind
    simp only [Bool.and_eq_true, beq_iff_eq] at hj
    have hji : j = i := ht j i hj.1.1 hi (.trans (congrArg₂ Prod.mk hj.2 hj.1.2) hid.symm)
    subst hji
    simp only [turnAway, record, if_neg hne, hfind]

/-- Of a full table the victim is an entry none is worth less than. -/
theorem claimEntry_least (hfull : ∀ i, (t i).inUse) (i : Fin rejectedPeersMax) :
    (t t.claimEntry).attempts < (t i).attempts ∨
      (t t.claimEntry).attempts = (t i).attempts ∧ (t t.claimEntry).lastSeenUs ≤ (t i).lastSeenUs := by
  have hnone : (find? t fun e => !e.inUse) = none := find?_eq_none.2 fun j => by simp [hfull j]
  have hloop : ∀ (l : List (Fin rejectedPeersMax)) (v : Fin rejectedPeersMax),
      l.foldl (first?Round t (fun _ => true) RejectedPeer.isLessWorthKeeping) (some v) =
        some (l.foldl (fun victim i => if (t i).isLessWorthKeeping (t victim) then i else victim) v) := by
    intro l
    induction l with
    | nil => exact fun _ => rfl
    | cons k l ih =>
      intro v
      rw [List.foldl_cons, List.foldl_cons, ← ih]
      congr 1
      exact (apply_ite some _ _ _).symm
  obtain ⟨-, -, hfirst⟩ := foldl_first?Round (t := t) (p := fun _ => true)
    RejectedPeer.isLessWorthKeeping (by simp [RejectedPeer.isLessWorthKeeping]) (some 0) (fun _ _ => rfl)
    (fun a b c => by simp only [RejectedPeer.isLessWorthKeeping_iff]; omega) (List.finRange _)
  obtain ⟨r, hr, hnot⟩ := hfirst i (List.mem_finRange i) rfl
  rw [hloop] at hr
  rw [← Bool.not_eq_true, RejectedPeer.isLessWorthKeeping_iff] at hnot
  simp only [claimEntry, hnone, Option.some.inj hr]
  omega

/-- While an entry is spare, no entry of more attempts is the victim. -/
theorem Spare.claimEntry (h : t.Spare) : (t t.claimEntry).inUse = false ∨ (t t.claimEntry).attempts ≤ 1 := by
  cases hfree : find? t fun e => !e.inUse with
  | some i =>
    left
    simpa [RejectedPeers.claimEntry, hfree] using find?_some hfree
  | none =>
    have hfull : ∀ i, (t i).inUse := fun i => by simpa using find?_eq_none.1 hfree i
    obtain ⟨i, hi | hi⟩ := h
    · simp [hfull i] at hi
    · right
      have hle := claimEntry_least hfull i
      omega

theorem Distinct.step (h : t.Distinct) (c : RejectedCall) : (t.step c).Distinct := by
  have hsymm : ∀ a b : RejectedPeer, a.identity = b.identity → b.identity = a.identity := fun _ _ => Eq.symm
  cases c with
  | forget p =>
    simp only [RejectedPeers.step, forget]
    cases hp : t.findEntry p with
    | none => exact h
    | some i =>
      exact unrelated_of_ne hsymm (fun j hj => update_of_ne hj _ _) h fun hi => by simp at hi
  | record r =>
    by_cases hne : r.peer.fingerprintHex = []
    · simpa only [RejectedPeers.step, turnAway, record, if_pos hne] using h
    · cases hp : t.findEntry r.peer with
      | none =>
        have hnew := findEntry_eq_none.1 hp
        simp only [RejectedPeers.step, turnAway_new hne hnew]
        refine unrelated_of_ne hsymm (fun j hj => update_of_ne hj _ _) h fun _ j _ hj hR => ?_
        rw [update_self] at hR
        exact hnew ⟨j, hj, hR⟩
      | some i =>
        -- the entry stays its identity's
        have hi := find?_some hp
        simp only [Bool.and_eq_true] at hi
        simp only [RejectedPeers.step, turnAway, record, if_neg hne, hp]
        refine unrelated_of_ne hsymm (fun j hj => update_of_ne hj _ _) h fun _ j hji hj hR => hji ?_
        rw [update_self] at hR
        exact h j i hj hi.1.1 hR

theorem distinct_run (calls : List RejectedCall) : Distinct (Run.run step (fun _ => {}) calls) := by
  have hstart : Distinct fun _ => {} := fun i j hi => by simp at hi
  exact List.foldlRecOn calls step hstart fun _ h c _ => h.step c

/-! ### When an identity was last seen -/

/-- The call records the identity, at a time. -/
def Records (c : RejectedCall) (x : Text × HubPeerRole) (nowUs : ℕ) : Prop :=
  ∃ r, c = .record r ∧ r.peer.fingerprintHex ≠ [] ∧ r.peer.identity = x ∧ r.nowUs = nowUs

/-- The last call that records the identity does so at that time. -/
def SeenLast (calls : List RejectedCall) (x : Text × HubPeerRole) (nowUs : ℕ) : Prop :=
  ∃ before c after, calls = before ++ c :: after ∧ Records c x nowUs ∧ ∀ c' ∈ after, ∀ n, ¬Records c' x n

theorem SeenLast.concat {nowUs : ℕ} {c : RejectedCall}
    (h : SeenLast calls x nowUs) (hc : ∀ n, ¬Records c x n) : SeenLast (calls ++ [c]) x nowUs := by
  obtain ⟨before, c', after, rfl, hrec, hafter⟩ := h
  refine ⟨before, c', after ++ [c], by simp, hrec, fun c'' hc'' => ?_⟩
  rcases List.mem_append.1 hc'' with hc'' | hc''
  · exact hafter c'' hc''
  · rw [List.mem_singleton.1 hc'']
    exact hc

/-- An entry in use after a call is as it was, and the call does not record its identity, or it is the one recorded. -/
theorem Distinct.step_inUse (h : t.Distinct) (c : RejectedCall) (hi : (t.step c i).inUse) :
    (t.step c i = t i ∧ ∀ n, ¬Records c (t i).identity n) ∨ Records c (t.step c i).identity (t.step c i).lastSeenUs := by
  cases c with
  | forget p =>
    refine .inl ⟨?_, fun n => by rintro ⟨_, hc, _⟩; cases hc⟩
    simp only [RejectedPeers.step, forget] at hi ⊢
    cases hp : t.findEntry p with
    | none => rfl
    | some j =>
      rw [hp] at hi
      have hij : i ≠ j := by
        rintro rfl
        simp at hi
      exact update_of_ne hij _ _
  | record r =>
    -- nothing that is not of the identity is written
    have hother : (∀ n, r.peer.fingerprintHex ≠ [] → (t i).identity = r.peer.identity → n ≠ r.nowUs) →
        ∀ n, ¬Records (.record r) (t i).identity n := by
      rintro hnot n ⟨_, hc, hne, hid, hn⟩
      cases hc
      exact hnot n hne hid.symm hn.symm
    by_cases hne : r.peer.fingerprintHex = []
    · have hstep : t.step (.record r) = t := if_pos hne
      rw [hstep]
      exact .inl ⟨rfl, hother fun _ hne' => absurd hne hne'⟩
    by_cases hheld : t.Holds r.peer.identity
    · obtain ⟨j, hj, hid⟩ := hheld
      have hstep : t.step (.record r) = _ := turnAway_known hne h hj hid
      rw [hstep] at hi ⊢
      by_cases hij : i = j
      · subst hij
        rw [update_self]
        exact .inr ⟨r, rfl, hne, hid.symm, rfl⟩
      · rw [update_of_ne hij] at hi ⊢
        exact .inl ⟨rfl, hother fun _ _ hx => absurd (h i j hi hj (hx.trans hid.symm)) hij⟩
    · have hstep : t.step (.record r) = _ := turnAway_new hne hheld
      rw [hstep] at hi ⊢
      by_cases hij : i = t.claimEntry
      · rw [hij, update_self]
        exact .inr ⟨r, rfl, hne, rfl, rfl⟩
      · rw [update_of_ne hij] at hi ⊢
        exact .inl ⟨rfl, hother fun _ _ hx => absurd ⟨i, hi, hx⟩ hheld⟩

/-- **An entry has the time its identity was last recorded.** -/
theorem seenLast_run (calls : List RejectedCall) :
    (Run.run step (fun _ => {}) calls i).inUse →
      SeenLast calls (Run.run step (fun _ => {}) calls i).identity (Run.run step (fun _ => {}) calls i).lastSeenUs := by
  induction calls using List.reverseRecOn with
  | nil => exact fun hi => by simp [Run.run] at hi
  | append_singleton calls c ih =>
    have hdistinct := distinct_run calls
    rw [Run.run_append]
    generalize Run.run step (fun _ => {}) calls = t at ih hdistinct ⊢
    intro hi
    rcases hdistinct.step_inUse c hi with ⟨hsame, hnot⟩ | hrec
    · have hrun : Run.run step t [c] i = t i := hsame
      rw [hrun] at hi ⊢
      exact (ih hi).concat hnot
    · exact ⟨calls, c, [], rfl, hrec, by simp⟩

/-- The times of the calls do not decrease. -/
def InTime (calls : List RejectedCall) : Prop :=
  calls.Pairwise fun c c' => ∀ x x' n n', Records c x n → Records c' x' n' → n ≤ n'

/-- Where times do not decrease, nothing was seen later than when it was seen last. -/
theorem SeenLast.latest {nowUs n : ℕ} (h : SeenLast calls x nowUs)
    (hcalls : InTime calls) {c : RejectedCall} (hc : c ∈ calls) (hrec : Records c x n) : n ≤ nowUs := by
  obtain ⟨before, c', after, rfl, hlast, hafter⟩ := h
  rcases List.mem_append.1 hc with hc | hc
  · exact (List.pairwise_append.1 hcalls).2.2 c hc c' (List.mem_cons_self ..) x x n nowUs hrec hlast
  · rcases List.mem_cons.1 hc with rfl | hc
    · obtain ⟨_, rfl, _, _, rfl⟩ := hrec
      obtain ⟨_, hr, _, _, rfl⟩ := hlast
      cases hr
      exact le_rfl
    · exact absurd hrec (hafter c hc n)

/-! ### The flood -/

theorem flood_keeps (flood : List Rejection) (t : RejectedPeers) (hne : (flood.map (·.peer.identity)).Nodup)
    (hnew : ∀ r ∈ flood, ¬t.Holds r.peer.identity) :
    (t.Spare → t.Keeps (Run.run turnAway t flood) fun _ => True) ∧ ∃ v, t.Keeps (Run.run turnAway t flood) (· ≠ v) := by
  induction flood generalizing t with
  | nil => exact ⟨fun _ _ _ _ _ => rfl, 0, fun _ _ _ _ => rfl⟩
  | cons r flood ih =>
    rw [List.forall_mem_cons] at hnew
    rw [List.map_cons, List.nodup_cons] at hne
    by_cases hempty : r.peer.fingerprintHex = []
    · -- an identity without a fingerprint is not recorded
      have hstep : t.turnAway r = t := if_pos hempty
      rw [Run.run, List.foldl_cons, hstep]
      exact ih t hne.2 hnew.2
    have hstep := turnAway_new hempty hnew.1
    have hother : ∀ i, i ≠ t.claimEntry → t.turnAway r i = t i := fun i hi => by rw [hstep, update_of_ne hi]
    obtain ⟨hone, hid⟩ : (t.turnAway r t.claimEntry).attempts = 1
        ∧ (t.turnAway r t.claimEntry).identity = r.peer.identity := by
      rw [hstep, update_self]
      exact ⟨rfl, rfl⟩
    have hnew' : ∀ r' ∈ flood, ¬(t.turnAway r).Holds r'.peer.identity := by
      rintro r' hr' ⟨i, hi, hc⟩
      by_cases hv : i = t.claimEntry
      · rw [hv, hid] at hc
        exact hne.1 (List.mem_map.2 ⟨r', hr', hc.symm⟩)
      · rw [hother i hv] at hi hc
        exact hnew.2 r' hr' ⟨i, hi, hc⟩
    -- from here on the entry just written is spare
    have hkeeps := (ih (t.turnAway r) hne.2 hnew').1 ⟨t.claimEntry, .inr hone.le⟩
    have hrest : t.Keeps (Run.run turnAway t (r :: flood)) (· ≠ t.claimEntry) := by
      intro i hv hi htwo
      rw [← hother i hv] at hi htwo ⊢
      exact hkeeps i trivial hi htwo
    refine ⟨fun hspare i _ hi htwo => hrest i (fun hv => ?_) hi htwo, _, hrest⟩
    rcases hspare.claimEntry with h | h
    · simp [← hv, hi] at h
    · rw [← hv] at h
      omega

/-- **A flood does not hide a retrying device.** Whatever was recorded and forgotten, the entries are of different
identities, each with the time its identity was last recorded, which is the latest if times do not decrease. A record of an
identity in the table counts another attempt; that of a new one writes an entry of one attempt, of a full table over the
entry of the fewest attempts, of these the one not seen for longest. So any rejections of new identities leave every entry
of two attempts or more as it is if an entry is free or of one attempt at the start, and all but one otherwise. -/
theorem flood_spares_retrying (calls : List RejectedCall) :
    let t : RejectedPeers := Run.run step (fun _ => {}) calls
    t.Distinct ∧
    (∀ i, (t i).inUse → SeenLast calls (t i).identity (t i).lastSeenUs ∧
      (InTime calls → ∀ c ∈ calls, ∀ n, Records c (t i).identity n → n ≤ (t i).lastSeenUs)) ∧
    ((∀ i, (t i).inUse) → ∀ i, (t t.claimEntry).attempts < (t i).attempts ∨
      (t t.claimEntry).attempts = (t i).attempts ∧ (t t.claimEntry).lastSeenUs ≤ (t i).lastSeenUs) ∧
    (∀ r : Rejection, r.peer.fingerprintHex ≠ [] → ¬t.Holds r.peer.identity →
      t.turnAway r = update t t.claimEntry
        { inUse := true, role := r.peer.role, reason := r.reason, attempts := 1, lastSeenUs := r.nowUs, name := r.name
          fingerprintHex := r.peer.fingerprintHex, origin := r.peer.origin }) ∧
    (∀ r : Rejection, r.peer.fingerprintHex ≠ [] → ∀ i, (t i).inUse → (t i).identity = r.peer.identity →
      t.turnAway r = update t i
        { t i with
          reason := r.reason, attempts := ((t i).attempts + 1) % 2 ^ 32, lastSeenUs := r.nowUs, name := r.name
          origin := r.peer.origin }) ∧
    ∀ flood : List Rejection, (flood.map (·.peer.identity)).Nodup → (∀ r ∈ flood, ¬t.Holds r.peer.identity) →
      (t.Spare → t.Keeps (Run.run turnAway t flood) fun _ => True) ∧
      ∃ v, t.Keeps (Run.run turnAway t flood) (· ≠ v) := by
  intro t
  refine ⟨distinct_run calls, fun i hi => ?_, claimEntry_least, fun r => turnAway_new,
    fun r hne i => turnAway_known hne (distinct_run calls), fun flood => flood_keeps flood t⟩
  have hseen : SeenLast calls (t i).identity (t i).lastSeenUs := seenLast_run calls hi
  exact ⟨hseen, fun htime c hc n => hseen.latest htime hc⟩

end RejectedPeers
end CanHub
