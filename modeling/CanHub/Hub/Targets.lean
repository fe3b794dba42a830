/-
# Where a captured frame goes

`BridgeTargets_Collect` walks the routes and then the groups, and takes each
endpoint once. What it returns is said here without the walk: a slot `Yields`
the endpoints it carries a frame to, and the targets are the endpoints that
some slot yields, but for the source, each with the first slot in table order
that yields it (`collect_exact`).

The walk searches a group for the first member at the source, and stops at
`bridgeTargetsMax` targets. Neither shows: in a configuration that requests
have made (`BridgeConfig.step`) an endpoint is a member of a group once, and
no group has more members than there is room for (`Tidy`).
-/
import CanHub.Hub.Bridges
import CanHub.Lib.Run
import Mathlib.Algebra.Order.BigOperators.Group.List
import Mathlib.Algebra.Order.Ring.Nat
import Mathlib.Data.List.Induction

namespace CanHub

open List

/-- The requests of an admin that change the routes and groups. -/
inductive BridgeCall
  | setRoute (r : BridgeRoute)
  | removeRoute (source destination : BridgeEndpoint)
  | setGroup (name : Text) (filters : List CanFilter)
  | removeGroup (name : Text)
  | join (name : Text) (m : BridgeGroupMember)
  | leave (name : Text) (endpoint : BridgeEndpoint)

structure BridgeConfig where
  routes : BridgeRoutes := {}
  groups : BridgeGroups := {}

namespace BridgeConfig

def step (c : BridgeConfig) : BridgeCall → BridgeConfig
  | .setRoute r => { c with routes := c.routes.set r }
  | .removeRoute source destination => { c with routes := c.routes.remove source destination }
  | .setGroup name filters => { c with groups := (c.groups.set name filters).getD c.groups }
  | .removeGroup name => { c with groups := c.groups.remove name }
  | .join name m => { c with groups := c.groups.join name m }
  | .leave name endpoint => { c with groups := c.groups.leave name endpoint }

/-- The slot carries a frame with the id from the source to the endpoint. -/
def Yields (c : BridgeConfig) (source : BridgeEndpoint) (canId : UInt32) : BridgeCharge → BridgeEndpoint → Prop
  | .route i, d =>
    let slot := c.routes.slots i
    slot.inUse ∧ slot.route.source = source ∧ bridgeFiltersPass slot.route.filters canId ∧ slot.route.destination = d
  | .group i, d =>
    let slot := c.groups.slots i
    slot.inUse ∧ bridgeFiltersPass slot.group.filters canId
      ∧ (∃ m ∈ slot.group.members,
          m.endpoint = source ∧ m.direction ≠ .receives ∧ bridgeFiltersPass m.filters canId)
      ∧ ∃ m ∈ slot.group.members, m.direction ≠ .sends ∧ m.endpoint = d

end BridgeConfig

/-- The place of a slot in table order: the routes, then the groups. -/
def BridgeCharge.place : BridgeCharge → ℕ
  | .route i => i
  | .group i => bridgeRoutesMax + i

theorem BridgeCharge.place_injective : Function.Injective BridgeCharge.place := by
  intro a b h
  rcases a with i | i <;> rcases b with j | j <;> simp only [place] at h
  · rw [Fin.ext h]
  · omega
  · omega
  · rw [Fin.ext (Nat.add_left_cancel h)]

/-! ### The members of a group -/

/-- An endpoint is a member once, and the members fit. -/
structure BridgeGroup.Tidy (g : BridgeGroup) : Prop where
  nodup : (g.members.map (·.endpoint)).Nodup
  length : g.members.length ≤ bridgeGroupMembersMax

namespace BridgeGroup.Tidy

variable {g : BridgeGroup}

theorem join (h : g.Tidy) (m : BridgeGroupMember) : (g.join m).Tidy := by
  unfold BridgeGroup.join
  split
  · next i hi =>
    obtain ⟨hlt, hm, -⟩ := findIdx?_eq_some_iff_getElem.mp hi
    have hsame : (g.members.set i m).map (·.endpoint) = g.members.map (·.endpoint) := by
      rw [map_set, ← beq_iff_eq.mp hm]
      exact ext_getElem (by simp) fun k _ _ => by simp [getElem_set]; rintro rfl; rfl
    exact ⟨hsame ▸ h.nodup, by simpa using h.length⟩
  · next hi =>
    split
    · exact h
    next hroom =>
    have hnew : ∀ m' ∈ g.members, m'.endpoint ≠ m.endpoint := by
      simpa [memberIndex, findIdx?_eq_none_iff] using hi
    refine ⟨?_, ?_⟩
    · rw [map_append, nodup_append]
      refine ⟨h.nodup, by simp, ?_⟩
      simpa using hnew
    · have := h.length
      simp only [length_append, length_singleton]
      omega

theorem leave (h : g.Tidy) (endpoint : BridgeEndpoint) : (g.leave endpoint).Tidy := by
  unfold BridgeGroup.leave
  split
  · exact h
  next i _ =>
  obtain ⟨hnodup, hlength⟩ := h
  generalize g.members = ms at hnodup hlength ⊢
  have hset : ∀ m, (ms.set i m).dropLast = ms.dropLast.set i m := fun m => by
    simp [dropLast_eq_take, take_set]
  refine ⟨?_, ?_⟩
  · -- the last member comes in the place of the one that leaves
    rw [hset, map_set]
    cases ms using reverseRecOn with
    | nil => simp
    | append_singleton ms m =>
      rw [map_append, nodup_append] at hnodup
      rw [dropLast_concat, getLastD_concat]
      refine hnodup.1.set fun hmem => hnodup.2.2 _ hmem _ ?_ rfl
      simp
  · simp only [length_dropLast, length_set]
    omega

end BridgeGroup.Tidy

/-- **Requests keep the groups tidy.** -/
theorem BridgeConfig.tidy (calls : List BridgeCall) (i : GroupSlot) :
    ((Run.run BridgeConfig.step {} calls).groups.slots i).group.Tidy := by
  have hmodify : ∀ {b : BridgeGroups} (k : GroupSlot) {f : BridgeGroupSlot → BridgeGroupSlot},
      (∀ j, (b.slots j).group.Tidy) → (∀ g : BridgeGroupSlot, g.group.Tidy → (f g).group.Tidy) →
      ∀ j, ((b.modify k f).slots j).group.Tidy := by
    intro b k f hb hf j
    unfold BridgeGroups.modify
    by_cases hj : j = k
    · subst hj
      simpa using hf _ (hb j)
    · simpa [hj] using hb j
  have hempty : ∀ name filters, (⟨name, filters, []⟩ : BridgeGroup).Tidy := fun _ _ => ⟨by simp, by simp⟩
  unfold Run.run
  refine foldlRecOn (b := ({} : BridgeConfig)) calls step (motive := fun c => ∀ j, (c.groups.slots j).group.Tidy)
    (fun _ => hempty [] []) (fun c h call _ => ?_) i
  cases call with
  | setRoute r => exact h
  | removeRoute source destination => exact h
  | setGroup name filters =>
    simp only [step, BridgeGroups.set]
    split
    · exact h
    split
    · exact hmodify (f := fun s => { s with group := { s.group with filters } }) _ h fun _ hg => ⟨hg.nodup, hg.length⟩
    · cases c.groups.freeIndex with
      | none => exact h
      | some k => exact hmodify (f := fun _ => { inUse := true, group := { name, filters } }) k h fun _ _ => hempty _ _
  | removeGroup name =>
    simp only [step, BridgeGroups.remove]
    split
    · exact hmodify (f := fun _ => {}) _ h fun _ _ => hempty [] []
    · exact h
  | join name m =>
    simp only [step, BridgeGroups.join]
    split
    · split
      · exact hmodify _ h fun _ hg => hg.join m
      · exact h
    · exact h
  | leave name endpoint =>
    simp only [step, BridgeGroups.leave]
    split
    · exact hmodify _ h fun _ hg => hg.leave endpoint
    · exact h

/-! ### The walk -/

/-- In a list sorted by a key, the first entry with the property is the one with the least key. -/
theorem find?_eq_some_of_sorted {α : Type*} {l : List α} {key : α → ℕ} {p : α → Bool} {t : α}
    (hsorted : l.Pairwise fun u v => key u ≤ key v) (hkey : ∀ u v, p u → p v → key u = key v → u = v) :
    l.find? p = some t ↔ t ∈ l ∧ p t ∧ ∀ u ∈ l, p u → key t ≤ key u := by
  induction l with
  | nil => simp
  | cons a l ih =>
    obtain ⟨ha, hl⟩ := pairwise_cons.mp hsorted
    by_cases hp : p a
    · rw [find?_cons_of_pos hp]
      constructor
      · rintro ⟨⟩
        exact ⟨mem_cons_self, hp, fun u hu _ => (mem_cons.mp hu).elim (fun he => he ▸ le_refl _) (ha u)⟩
      · rintro ⟨hmem, ht, hleast⟩
        have hle := hleast a mem_cons_self hp
        rcases mem_cons.mp hmem with rfl | hmem
        · rfl
        · rw [hkey a t hp ht (le_antisymm (ha t hmem) hle)]
    · rw [find?_cons_of_neg hp, ih hl]
      have hne : ∀ u, p u → (u ∈ a :: l ↔ u ∈ l) := by
        intro u hu
        rw [mem_cons, or_iff_right]
        rintro rfl
        exact hp hu
      constructor
      · exact fun ⟨hmem, ht, h⟩ => ⟨(hne t ht).mpr hmem, ht, fun u hu hpu => h u ((hne u hpu).mp hu) hpu⟩
      · exact fun ⟨hmem, ht, h⟩ => ⟨(hne t ht).mp hmem, ht, fun u hu hpu => h u ((hne u hpu).mpr hu) hpu⟩

namespace BridgeTarget

variable {c : BridgeConfig} {source : BridgeEndpoint} {canId : UInt32} {t : BridgeTarget}

/-- As long as there is room the loop takes of each endpoint the first, but for the source. -/
theorem foldl_addTarget (source : BridgeEndpoint) (l : List BridgeTarget) (hroom : l.length ≤ bridgeTargetsMax) :
    (l.foldl (addTarget source) []).length ≤ l.length ∧ ((l.foldl (addTarget source) []).map (·.destination)).Nodup
      ∧ ∀ t, t ∈ l.foldl (addTarget source) []
        ↔ t.destination ≠ source ∧ l.find? (·.destination == t.destination) = some t := by
  induction l using reverseRecOn with
  | nil => simp
  | append_singleton l a ih =>
    rw [length_append, length_singleton] at hroom ⊢
    obtain ⟨hlen, hnodup, hmem⟩ := ih (by omega)
    rw [foldl_concat]
    generalize l.foldl (addTarget source) [] = taken at hlen hnodup hmem
    by_cases hold : a.destination = source ∨ ∃ u ∈ taken, u.destination = a.destination
    · have hskip : addTarget source taken a = taken := by
        rcases hold with hs | hu
        · exact if_pos (.inl hs)
        · rw [addTarget, if_pos (show (taken.any fun u => u.destination == a.destination) = true by simpa using hu)]
          split <;> rfl
      rw [hskip]
      refine ⟨by omega, hnodup, fun t => (hmem t).trans (and_congr_right fun hs => ?_)⟩
      rw [find?_append]
      by_cases he : a.destination = t.destination
      · obtain ⟨u, hu, hd⟩ := hold.resolve_left (he ▸ hs)
        rw [← he, ← hd, ((hmem u).mp hu).2]
        rfl
      · simp [he]
    · obtain ⟨hs, hnew⟩ := not_or.mp hold
      have htake : addTarget source taken a = taken ++ [a] := by
        have hany : ¬(taken.any fun u => u.destination == a.destination) = true := by simpa using hnew
        rw [addTarget, if_neg (not_or.mpr ⟨hs, by omega⟩), if_neg hany]
      rw [htake]
      have hfresh : ∀ u ∈ taken, u.destination ≠ a.destination := fun u hu he => hnew ⟨u, hu, he⟩
      refine ⟨by simpa using hlen, ?_, fun t => ?_⟩
      · rw [map_append, nodup_append]
        exact ⟨hnodup, by simp, by simpa using hfresh⟩
      rw [mem_append, mem_singleton, find?_append, hmem]
      by_cases he : a.destination = t.destination
      · have hnone : l.find? (·.destination == t.destination) = none := by
          cases hf : l.find? (·.destination == t.destination) with
          | none => rfl
          | some u =>
            have hd : u.destination = t.destination := by simpa using find?_some hf
            have hu := (hmem u).mpr ⟨fun h => hs (he.trans (hd.symm.trans h)), by rw [hd]; exact hf⟩
            exact absurd (hd.trans he.symm) (hfresh u hu)
        have hs' : t.destination ≠ source := he ▸ hs
        simp [hnone, he, hs', eq_comm]
      · have hne : t ≠ a := fun h => he (h ▸ rfl)
        simp [he, hne]

/-- The targets of one group. -/
def ofGroup (c : BridgeConfig) (source : BridgeEndpoint) (canId : UInt32) (i : GroupSlot) : List BridgeTarget :=
  let slot := c.groups.slots i
  if slot.inUse ∧ slot.group.carries source canId then
    (slot.group.members.filter (·.receives)).map fun m => ⟨m.endpoint, .group i⟩
  else []

theorem carries_iff {g : BridgeGroup} (h : g.Tidy) (source : BridgeEndpoint) (canId : UInt32) :
    g.carries source canId = true
    ↔ bridgeFiltersPass g.filters canId ∧ ∃ m ∈ g.members,
      m.endpoint = source ∧ m.direction ≠ .receives ∧ bridgeFiltersPass m.filters canId := by
  unfold BridgeGroup.carries
  cases hf : g.members.find? fun m => m.endpoint == source with
  | none =>
    have hnone : ∀ m ∈ g.members, m.endpoint ≠ source := by simpa using hf
    simp +contextual [hnone]
  | some m =>
    have hm := mem_of_find?_eq_some hf
    have he : m.endpoint = source := by simpa using find?_some hf
    -- it is the only member there
    have hone : ∀ m' ∈ g.members, m'.endpoint = source → m' = m := fun m' hm' he' =>
      inj_on_of_nodup_map h.nodup hm' hm (he'.trans he.symm)
    simp only [decide_eq_true_eq]
    constructor
    · exact fun ⟨hd, hp, hg⟩ => ⟨hg, m, hm, he, hd, hp⟩
    · rintro ⟨hg, m', hm', he', hd, hp⟩
      rw [hone m' hm' he'] at hd hp
      exact ⟨hd, hp, hg⟩

theorem mem_ofGroup {i : GroupSlot} (h : (c.groups.slots i).group.Tidy) :
    t ∈ ofGroup c source canId i ↔ t.charge = .group i ∧ c.Yields source canId (.group i) t.destination := by
  have hcarries := carries_iff h source canId
  obtain ⟨d, charge⟩ := t
  simp only [ofGroup, mem_ite_nil_right, mem_map, mem_filter, BridgeGroupMember.receives,
    decide_eq_true_eq, hcarries, mk.injEq, BridgeConfig.Yields]
  constructor
  · rintro ⟨⟨huse, hpass, hsource⟩, m, ⟨hm, hreceives⟩, hd, hcharge⟩
    exact ⟨hcharge.symm, huse, hpass, hsource, m, hm, hreceives, hd⟩
  · rintro ⟨hcharge, huse, hpass, hsource, m, hm, hreceives, hd⟩
    exact ⟨⟨huse, hpass, hsource⟩, m, ⟨hm, hreceives⟩, hd, hcharge.symm⟩

/-- The target of one route. -/
def ofRoute (c : BridgeConfig) (source : BridgeEndpoint) (canId : UInt32) (i : Fin bridgeRoutesMax) :
    Option BridgeTarget :=
  let slot := c.routes.slots i
  if slot.inUse ∧ slot.route.source = source ∧ slot.route.passes canId then some ⟨slot.route.destination, .route i⟩
  else none

theorem ofRoute_eq_some {i : Fin bridgeRoutesMax} : ofRoute c source canId i = some t
    ↔ t.charge = .route i ∧ c.Yields source canId (.route i) t.destination := by
  obtain ⟨d, charge⟩ := t
  rw [ofRoute, Option.ite_none_right_eq_some, Option.some.injEq, mk.injEq]
  constructor
  · exact fun ⟨⟨huse, hsource, hpasses⟩, hd, hcharge⟩ => ⟨hcharge.symm, huse, hsource, hpasses, hd⟩
  · exact fun ⟨hcharge, huse, hsource, hpasses, hd⟩ => ⟨⟨huse, hsource, hpasses⟩, hd, hcharge.symm⟩

/-- All there is to take, in table order. -/
def candidates (c : BridgeConfig) (source : BridgeEndpoint) (canId : UInt32) : List BridgeTarget :=
  (finRange bridgeRoutesMax).filterMap (ofRoute c source canId)
    ++ (finRange bridgeGroupsMax).flatMap (ofGroup c source canId)

section Candidates

variable (h : ∀ i, (c.groups.slots i).group.Tidy)
include h

theorem mem_candidates : t ∈ candidates c source canId ↔ c.Yields source canId t.charge t.destination := by
  simp only [candidates, mem_append, mem_filterMap, mem_flatMap, mem_finRange, true_and,
    ofRoute_eq_some, mem_ofGroup (h _)]
  cases t.charge with
  | route i => simp
  | group i => simp

theorem candidates_sorted : (candidates c source canId).Pairwise fun t u => t.charge.place ≤ u.charge.place := by
  have hplace : ∀ {i t}, t ∈ ofGroup c source canId i → t.charge.place = bridgeRoutesMax + i :=
    fun ht => congrArg BridgeCharge.place ((mem_ofGroup (h _)).mp ht).1
  have hroute : ∀ {i t}, ofRoute c source canId i = some t → t.charge.place = i :=
    fun ht => congrArg BridgeCharge.place (ofRoute_eq_some.mp ht).1
  refine pairwise_append.mpr ⟨?_, ?_, fun t ht u hu => ?_⟩
  · refine pairwise_filterMap.mpr ((pairwise_lt_finRange _).imp fun {i j} hlt t ht u hu => ?_)
    rw [hroute ht, hroute hu]
    exact hlt.le
  · refine pairwise_flatMap.mpr ⟨fun i _ => ?_, (pairwise_lt_finRange _).imp fun {i j} hlt t ht u hu => ?_⟩
    · exact pairwise_of_forall_mem_list fun t ht u hu => ((hplace ht).trans (hplace hu).symm).le
    · rw [hplace ht, hplace hu]
      exact Nat.add_le_add_left hlt.le _
  · obtain ⟨i, -, hi⟩ := mem_filterMap.mp ht
    obtain ⟨j, -, hj⟩ := mem_flatMap.mp hu
    rw [hroute hi, hplace hj]
    omega

theorem candidates_length : (candidates c source canId).length ≤ bridgeTargetsMax := by
  have hgroup : ∀ n ∈ (finRange bridgeGroupsMax).map (fun i => (ofGroup c source canId i).length),
      n ≤ bridgeGroupMembersMax := by
    intro n hn
    obtain ⟨i, -, rfl⟩ := mem_map.mp hn
    rw [ofGroup]
    split
    · rw [length_map]
      exact (length_filter_le _ _).trans (h i).length
    · exact Nat.zero_le _
  rw [candidates, length_append, length_flatMap]
  refine Nat.add_le_add ((length_filterMap_le _ _).trans_eq length_finRange) ?_
  exact (sum_le_card_nsmul _ _ hgroup).trans_eq (by simp)

end Candidates
end BridgeTarget

/-- **Targets are exact and single**, whatever requests made the configuration: no endpoint twice, exactly the endpoints
that some slot yields but for the source, each charged to the first slot that yields it, and none for an error frame. -/
theorem collect_exact (calls : List BridgeCall) (source : BridgeEndpoint) (canId : UInt32) :
    let c := Run.run BridgeConfig.step {} calls
    let targets := BridgeTarget.collect c.routes c.groups source canId
    (targets.map (·.destination)).Nodup
      ∧ (∀ t, t ∈ targets ↔ t.destination ≠ source ∧ c.Yields source canId t.charge t.destination
        ∧ ∀ charge, c.Yields source canId charge t.destination → t.charge.place ≤ charge.place)
      ∧ (canId &&& frameCanIdFlagErr ≠ 0 → targets = []) := by
  intro c targets
  have htidy : ∀ i, (c.groups.slots i).group.Tidy := BridgeConfig.tidy calls
  obtain ⟨-, hnodup, hmem⟩ := BridgeTarget.foldl_addTarget source (BridgeTarget.candidates c source canId)
    (BridgeTarget.candidates_length htidy)
  have hfirst : ∀ t, t ∈ targets ↔ t.destination ≠ source ∧ c.Yields source canId t.charge t.destination
      ∧ ∀ charge, c.Yields source canId charge t.destination → t.charge.place ≤ charge.place := by
    intro t
    refine (hmem t).trans (and_congr_right fun _ => ?_)
    rw [find?_eq_some_of_sorted (BridgeTarget.candidates_sorted htidy), BridgeTarget.mem_candidates htidy]
    · simp only [beq_self_eq_true, true_and, beq_iff_eq, BridgeTarget.mem_candidates htidy]
      refine and_congr_right fun _ => ⟨fun hle charge hy => hle ⟨t.destination, charge⟩ hy rfl, fun hle u hu hd => ?_⟩
      exact hle u.charge (hd ▸ hu)
    · intro u v hu hv he
      obtain ⟨d, charge⟩ := u
      obtain ⟨d', charge'⟩ := v
      obtain rfl := BridgeCharge.place_injective he
      simp_all
  refine ⟨hnodup, hfirst, fun herr => eq_nil_iff_forall_not_mem.mpr fun t ht => ?_⟩
  have hfails : ∀ filters, bridgeFiltersPass filters canId = false := fun _ => if_pos herr
  obtain ⟨-, hy, -⟩ := (hfirst t).mp ht
  cases hc : t.charge with
  | route i => simp [hc, BridgeConfig.Yields, hfails] at hy
  | group i => simp [hc, BridgeConfig.Yields, hfails] at hy

end CanHub
