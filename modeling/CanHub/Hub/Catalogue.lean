/-
# The catalogue of interfaces

Searches of the registry take the first entry that matches, so that the hub rests on
there being one: no two entries have one id, one pair of names, or one channel of one agent
(`Distinct`). The registry checks a registration against the entries it has, and the cut
copies of a group's names against nothing; `distinct_of_calls` is that whatever is called,
the entries stay distinct as long as no message gives one name twice, names fit their
fields and fewer than `2 ^ 32` ids are taken.
-/
import CanHub.Hub.Registry
import CanHub.Protocol.Register

namespace CanHub

open InterfaceEntry List

/-- The calls that make and remove entries. -/
inductive RegistryCall
  | registerAgent (agentPeerId : UInt32) (m : RegisterMessage)
  | removePeer (agentPeerId : UInt32)
  | addVirtual (agentName interfaceName : Text)
  | removeVirtual (interfaceId : UInt32)

namespace InterfaceRegistry

/-- `InterfaceRegistry_AddVirtual` for names of any length: the fields take what fits. -/
def addVirtualCut (r : InterfaceRegistry) (agentName interfaceName : Text) : InterfaceRegistry :=
  match r.findByName agentName interfaceName with
  | some _ => r
  | none =>
    match r.findFreeEntry with
    | none => r
    | some k => r.assign k fun id e =>
      e.virtual id (agentName.take (registerAgentNameSize - 1)) (interfaceName.take (registerInterfaceNameSize - 1))

def call (r : InterfaceRegistry) : RegistryCall → InterfaceRegistry
  | .registerAgent agentPeerId m => (r.registerAgent agentPeerId m).1
  | .removePeer agentPeerId => r.removePeer agentPeerId
  | .addVirtual agentName interfaceName => r.addVirtualCut agentName interfaceName
  | .removeVirtual interfaceId => r.removeVirtual interfaceId

/-- How many ids the call takes. -/
def idsTaken (r : InterfaceRegistry) : RegistryCall → ℕ
  | .registerAgent agentPeerId m =>
    if r.isPeerRegistered agentPeerId ∨ (r.collision m).isSome then 0
    else (r.registerInterfaces agentPeerId m 0 m.interfaceNames).2
  | .addVirtual agentName interfaceName =>
    if (r.findByName agentName interfaceName).isSome ∨ r.findFreeEntry.isNone then 0 else 1
  | _ => 0

/-- How many ids the calls take. -/
def idsTakenBy (r : InterfaceRegistry) : List RegistryCall → ℕ
  | [] => 0
  | c :: calls => r.idsTaken c + (r.call c).idsTakenBy calls

/-- **No two entries are found by the same search.** -/
structure Distinct (r : InterfaceRegistry) : Prop where
  ids : ∀ k l, (r.entries k).inUse → (r.entries l).inUse →
    (r.entries k).interfaceId = (r.entries l).interfaceId → k = l
  names : ∀ k l, (r.entries k).inUse → (r.entries l).inUse → (r.entries k).agentName = (r.entries l).agentName →
    (r.entries k).interfaceName = (r.entries l).interfaceName → k = l
  channels : ∀ k l, (r.entries k).inUse → (r.entries l).inUse → (r.entries k).isVirtual = false →
    (r.entries l).isVirtual = false → (r.entries k).agentPeerId = (r.entries l).agentPeerId →
    (r.entries k).agentChannel = (r.entries l).agentChannel → k = l

/-- The entries are distinct, and the first `n` ids have been taken. -/
structure Catalogued (r : InterfaceRegistry) (n : ℕ) : Prop extends r.Distinct where
  next : r.nextInterfaceId = UInt32.ofNat (n + 1)
  taken : ∀ k, (r.entries k).inUse → (r.entries k).interfaceId.toNat ≤ n

variable {r r' : InterfaceRegistry} {n : ℕ}

/-! ### Entries that come and go -/

theorem Catalogued.fewer (h : r.Catalogued n) (hnext : r'.nextInterfaceId = r.nextInterfaceId)
    (hsame : ∀ k, (r'.entries k).inUse → r'.entries k = r.entries k) : r'.Catalogued n := by
  refine ⟨⟨fun k l hk hl => ?_, fun k l hk hl => ?_, fun k l hk hl => ?_⟩, hnext.trans h.next, fun k hk => ?_⟩
  · rw [hsame k hk, hsame l hl] at *
    exact h.ids k l hk hl
  · rw [hsame k hk, hsame l hl] at *
    exact h.names k l hk hl
  · rw [hsame k hk, hsame l hl] at *
    exact h.channels k l hk hl
  · rw [hsame k hk] at *
    exact h.taken k hk

variable {k : EntrySlot} {agentPeerId : UInt32}

theorem removeVirtual_same {interfaceId : UInt32}
    (hk : ((r.removeVirtual interfaceId).entries k).inUse) : (r.removeVirtual interfaceId).entries k = r.entries k := by
  simp only [removeVirtual, map] at hk ⊢
  split at hk
  · cases hk
  · rename_i hne
    rw [if_neg hne]

theorem Catalogued.removePeer (h : r.Catalogued n) (agentPeerId : UInt32) : (r.removePeer agentPeerId).Catalogued n :=
  h.fewer rfl fun _ => removePeer_same

theorem Catalogued.removeVirtual (h : r.Catalogued n) (interfaceId : UInt32) :
    (r.removeVirtual interfaceId).Catalogued n :=
  h.fewer rfl fun _ => removeVirtual_same

/-- An entry for the next id, with names and a channel of its own. -/
theorem Catalogued.assign (h : r.Catalogued n) (hroom : n + 1 < 2 ^ 32)
    {f : UInt32 → InterfaceEntry → InterfaceEntry}
    (hid : (f r.nextInterfaceId (r.entries k)).interfaceId = r.nextInterfaceId)
    (hname : ∀ l, (r.entries l).inUse → ¬ ((r.entries l).agentName = (f r.nextInterfaceId (r.entries k)).agentName
      ∧ (r.entries l).interfaceName = (f r.nextInterfaceId (r.entries k)).interfaceName))
    (hchannel : (f r.nextInterfaceId (r.entries k)).isVirtual = false → ∀ l, (r.entries l).inUse →
      ¬ ((r.entries l).agentPeerId = (f r.nextInterfaceId (r.entries k)).agentPeerId
        ∧ (r.entries l).agentChannel = (f r.nextInterfaceId (r.entries k)).agentChannel)) :
    (r.assign k f).Catalogued (n + 1) := by
  have hnext : r.nextInterfaceId.toNat = n + 1 := by
    rw [h.next, UInt32.toNat_ofNat', Nat.mod_eq_of_lt hroom]
  have hself := r.assign_entries_self (k := k) f
  have hold := fun l => r.assign_entries_of_ne (k := k) (l := l) f
  have hfresh : ∀ l, (r.entries l).inUse → (r.entries l).interfaceId ≠ r.nextInterfaceId := by
    intro l hl he
    have := h.taken l hl
    rw [he, hnext] at this
    omega
  refine ⟨⟨?_, ?_, ?_⟩, ?_, ?_⟩
  · refine Table.unrelated_of_ne (R := fun a b => a.interfaceId = b.interfaceId) (fun _ _ => Eq.symm) hold h.ids
      fun _ l _ hl => ?_
    rw [hself, hid]
    exact hfresh l hl
  · intro l m hl hm ha hi
    exact Table.unrelated_of_ne (R := fun a b => a.agentName = b.agentName ∧ a.interfaceName = b.interfaceName)
      (fun _ _ h => ⟨h.1.symm, h.2.symm⟩) hold (fun l m hl hm h' => h.names l m hl hm h'.1 h'.2)
      (fun _ l _ => by rw [hself]; exact hname l) l m hl hm ⟨ha, hi⟩
  · intro l m hl hm hvl hvm ha hc
    refine Table.unrelated_of_ne (R := fun a b => (a.isVirtual = false ∧ b.isVirtual = false)
      ∧ a.agentPeerId = b.agentPeerId ∧ a.agentChannel = b.agentChannel)
      (fun _ _ h => ⟨⟨h.1.2, h.1.1⟩, h.2.1.symm, h.2.2.symm⟩) hold
      (fun l m hl hm h' => h.channels l m hl hm h'.1.1 h'.1.2 h'.2.1 h'.2.2) (fun _ l _ hl => ?_) l m hl hm
      ⟨⟨hvl, hvm⟩, ha, hc⟩
    rw [hself]
    exact fun h' => hchannel h'.1.2 l hl h'.2
  · change r.nextInterfaceId + 1 = _
    rw [h.next, UInt32.ofNat_add (n + 1) 1]
    rfl
  · intro l hl
    by_cases hlk : l = k
    · rw [hlk, hself, hid, hnext]
    · rw [hold l hlk] at hl ⊢
      exact (h.taken l hl).trans (Nat.le_succ n)

/-! ### Registrations -/

theorem registerInterfaces_le (agentPeerId : UInt32) (m : RegisterMessage) (names : List Text) (r : InterfaceRegistry)
    (i : ℕ) : i ≤ (r.registerInterfaces agentPeerId m i names).2 := by
  fun_induction registerInterfaces r agentPeerId m i names with
  | case1 r i => exact Nat.le_refl i
  | case2 r i => exact Nat.le_refl i
  | case3 r i name names k _ ih => exact (Nat.le_succ i).trans ih

/-- The names to come are not taken by the entry of another one. -/
theorem named_assign {m : RegisterMessage} {name : Text} {names : List Text} (agentPeerId : UInt32) (i : ℕ)
    (hname : name ∉ names) (hfree : ∀ l, (r.entries l).inUse → (r.entries l).agentName = m.agentName →
      (r.entries l).interfaceName ∉ name :: names) (l : EntrySlot) :
    let e := (r.assign k fun id e => e.registered id agentPeerId m i name).entries l
    e.inUse → e.agentName = m.agentName → e.interfaceName ∉ names := by
  intro e hl ha
  by_cases hlk : l = k
  · subst hlk
    rwa [show e = _ from assign_entries_self _]
  · rw [show e = _ from assign_entries_of_ne _ hlk] at hl ha ⊢
    exact fun hmem => hfree l hl ha (mem_cons_of_mem name hmem)

/-- The loop over the names of a message: what it has filled in are the first channels of the agent, and none of the
names to come has been taken. -/
theorem Catalogued.registerInterfaces {m : RegisterMessage} (names : List Text) {i : ℕ}
    (h : r.Catalogued n) (hroom : n + ((r.registerInterfaces agentPeerId m i names).2 - i) < 2 ^ 32)
    (hlength : i + names.length ≤ registerInterfacesMax) (hnodup : names.Nodup)
    (hfirst : r.FirstChannels agentPeerId i)
    (hfree : ∀ l, (r.entries l).inUse → (r.entries l).agentName = m.agentName → (r.entries l).interfaceName ∉ names) :
    (r.registerInterfaces agentPeerId m i names).1.Catalogued
      (n + ((r.registerInterfaces agentPeerId m i names).2 - i)) := by
  fun_induction InterfaceRegistry.registerInterfaces r agentPeerId m i names generalizing n with
  | case1 => simpa using h
  | case2 r i =>
    rw [Nat.sub_self, Nat.add_zero]
    exact h.removePeer agentPeerId
  | case3 r i name names k _ ih =>
    rw [length_cons] at hlength
    rw [nodup_cons] at hnodup
    have hi : i < 2 ^ 8 := by
      simp only [registerInterfacesMax] at hlength
      omega
    have hle := registerInterfaces_le agentPeerId m names (r.assign k fun id e => e.registered id agentPeerId m i name) (i + 1)
    have h' : (r.assign k fun id e => e.registered id agentPeerId m i name).Catalogued (n + 1) := by
      refine h.assign (by omega) rfl (fun l hl he => ?_) fun _ l hl he => hfirst.ne hi hl he.1 he.2
      exact hfree l hl he.1 (he.2 ▸ mem_cons_self)
    have hfree' := named_assign (k := k) agentPeerId i hnodup.1 hfree
    have hfirst' := hfirst.assign (k := k) hi m name
    generalize (r.assign k fun id e => e.registered id agentPeerId m i name) = r' at *
    -- one id is taken here, the others by the rest of the loop
    have hcount : n + ((r'.registerInterfaces agentPeerId m (i + 1) names).2 - i)
        = (n + 1) + ((r'.registerInterfaces agentPeerId m (i + 1) names).2 - (i + 1)) := by omega
    rw [hcount] at hroom ⊢
    exact ih h' hroom (by omega) hnodup.2 hfirst' hfree'

/-! ### Calls -/

/-- A message gives no name twice, and what is copied fits. -/
def Admissible : RegistryCall → Prop
  | .registerAgent _ m => m.interfaceNames.Nodup
  | .addVirtual agentName interfaceName =>
    agentName.length < registerAgentNameSize ∧ interfaceName.length < registerInterfaceNameSize
  | _ => True

instance (c : RegistryCall) : Decidable (Admissible c) := by
  cases c <;> unfold Admissible <;> infer_instance

theorem Catalogued.registerAgent (h : r.Catalogued n) {m : RegisterMessage}
    (hm : m.interfaceNames.Nodup) (hroom : n + r.idsTaken (.registerAgent agentPeerId m) < 2 ^ 32) :
    (r.registerAgent agentPeerId m).1.Catalogued (n + r.idsTaken (.registerAgent agentPeerId m)) := by
  rcases r.registerAgent_cases agentPeerId m with ⟨hno, he⟩ | ⟨hpeer, hcollision, he, _⟩
  · simp only [idsTaken, if_pos hno, he]
    exact h
  have hyes : ¬ (r.isPeerRegistered agentPeerId ∨ (r.collision m).isSome) := by simp [hpeer, hcollision]
  simp only [idsTaken, if_neg hyes] at hroom ⊢
  rw [he]
  refine h.registerInterfaces m.interfaceNames hroom (by simpa using m.count_le) hm
    (fun l hl ha => absurd ha (not_registered hpeer hl)) fun l hl ha hmem => ?_
  have hnone := Table.find?_eq_none.mp hcollision l
  simp only [hl, Bool.true_and, any_eq_false] at hnone
  exact hnone _ hmem (by simp [namesMatch, ha])

theorem Catalogued.addVirtual (h : r.Catalogued n) {agentName interfaceName : Text}
    (hfits : agentName.length < registerAgentNameSize ∧ interfaceName.length < registerInterfaceNameSize)
    (hroom : n + r.idsTaken (.addVirtual agentName interfaceName) < 2 ^ 32) :
    (r.addVirtualCut agentName interfaceName).Catalogued (n + r.idsTaken (.addVirtual agentName interfaceName)) := by
  unfold addVirtualCut
  cases hname : r.findByName agentName interfaceName with
  | some _ => simpa [idsTaken, hname] using h
  | none =>
    cases hk : r.findFreeEntry with
    | none => simpa [idsTaken, hname, hk] using h
    | some k =>
      simp only [idsTaken, hname, hk, Option.isSome_none, Bool.false_eq_true, Option.isNone_some, or_self, if_false]
        at hroom ⊢
      rw [take_of_length_le (by omega), take_of_length_le (by omega)]
      refine h.assign hroom rfl (fun l hl he => ?_) fun hv => ?_
      · have hnone := Table.find?_eq_none.mp hname l
        simp [hl, namesMatch, he.1, he.2, virtual] at hnone
      · simp [isVirtual, virtual] at hv

/-- A call keeps the entries distinct. -/
theorem Catalogued.call (h : r.Catalogued n) {c : RegistryCall} (hc : Admissible c)
    (hroom : n + r.idsTaken c < 2 ^ 32) : (r.call c).Catalogued (n + r.idsTaken c) := by
  cases c with
  | registerAgent agentPeerId m => exact h.registerAgent hc hroom
  | removePeer agentPeerId => exact h.removePeer agentPeerId
  | addVirtual agentName interfaceName => exact h.addVirtual hc hroom
  | removeVirtual interfaceId => exact h.removeVirtual interfaceId

theorem Catalogued.calls {calls : List RegistryCall} (h : r.Catalogued n) (hc : ∀ c ∈ calls, Admissible c)
    (hroom : n + r.idsTakenBy calls < 2 ^ 32) : (calls.foldl InterfaceRegistry.call r).Catalogued
      (n + r.idsTakenBy calls) := by
  induction calls generalizing r n with
  | nil => exact h
  | cons c calls ih =>
    simp only [idsTakenBy] at hroom ⊢
    rw [← Nat.add_assoc] at hroom ⊢
    have hcall := h.call (hc c mem_cons_self) (by omega)
    exact ih hcall (fun c' hc' => hc c' (mem_cons_of_mem c hc')) hroom

theorem Catalogued.reset : ({} : InterfaceRegistry).Catalogued 0 where
  ids := fun _ _ h => nomatch h
  names := fun _ _ h => nomatch h
  channels := fun _ _ h => nomatch h
  next := rfl
  taken := fun _ h => nomatch h

/-- **Each search has one candidate at most**: it finds any entry that matches. -/
theorem Distinct.searches (h : r.Distinct) (hk : (r.entries k).inUse) :
    r.findById (r.entries k).interfaceId = some k
      ∧ r.findByName (r.entries k).agentName (r.entries k).interfaceName = some k
      ∧ ((r.entries k).isVirtual = false →
        r.findByAgentChannel (r.entries k).agentPeerId (r.entries k).agentChannel = some k) := by
  refine ⟨Table.find?_unique (by simp [hk]) fun l hl => ?_,
    Table.find?_unique (by simp [hk, namesMatch]) fun l hl => ?_,
    fun hv => Table.find?_unique (by simp [hk]) fun l hl => ?_⟩
  · simp only [Bool.and_eq_true, beq_iff_eq] at hl
    exact h.ids l k hl.1 hk hl.2
  · simp only [Bool.and_eq_true, namesMatch, decide_eq_true_eq] at hl
    exact h.names l k hl.1 hk hl.2.1 hl.2.2
  · simp only [Bool.and_eq_true, beq_iff_eq] at hl
    have hvl : (r.entries l).isVirtual = false := by
      rw [← hv]
      simp only [isVirtual, hl.1.2]
    exact h.channels l k hl.1.1 hk hvl hv hl.1.2 hl.2

/-- **Whatever is called, the entries stay distinct**, as long as messages give no name twice, names fit their fields
and ids last. -/
theorem distinct_of_calls {calls : List RegistryCall} (hc : ∀ c ∈ calls, Admissible c)
    (hroom : ({} : InterfaceRegistry).idsTakenBy calls < 2 ^ 32) :
    (calls.foldl call {}).Distinct ∧ ∀ k, ((calls.foldl call {}).entries k).inUse →
      let e := (calls.foldl call {}).entries k
      (calls.foldl call {}).findById e.interfaceId = some k
        ∧ (calls.foldl call {}).findByName e.agentName e.interfaceName = some k
        ∧ (e.isVirtual = false → (calls.foldl call {}).findByAgentChannel e.agentPeerId e.agentChannel = some k) := by
  have hdistinct := (Catalogued.reset.calls hc (by rwa [Nat.zero_add])).toDistinct
  exact ⟨hdistinct, fun k hk => hdistinct.searches hk⟩

/-- A REGISTER of agent 1 with two interfaces of one name. -/
def twinNames : List UInt8 :=
  1 :: replicate 127 0 ++ [2, 0, 0, 0] ++ (2 :: replicate 15 0) ++ (2 :: replicate 15 0)
    ++ replicate 224 0

/-- An agent with two interfaces, and a group. -/
def plainCalls : List RegistryCall :=
  [.registerAgent 7 { agentName := [1], interfaceNames := [[2], [3]] }, .addVirtual [4] [2]]

set_option maxRecDepth 20000 in
/-- Three entries, no two of which are found by one search. -/
theorem distinct_of_calls_plain : ({} : InterfaceRegistry).idsTakenBy plainCalls = 3
    ∧ (plainCalls.foldl call {}).Distinct := by
  have hids : ({} : InterfaceRegistry).idsTakenBy plainCalls = 3 := by decide +kernel
  exact ⟨hids, (distinct_of_calls (by decide) (by rw [hids]; decide)).1⟩

set_option maxRecDepth 20000 in
/-- **A message that gives a name twice makes two entries of one name.** -/
theorem twin_names_collide : ∃ m, RegisterMessage.decode twinNames = some m
    ∧ ¬ (({} : InterfaceRegistry).call (.registerAgent 7 m)).Distinct := by
  refine ⟨{ agentName := [1], interfaceNames := [[2], [2]] }, by decide +kernel, fun h => ?_⟩
  have htwins : ∀ k : EntrySlot, k = 0 ∨ k = 1 →
      let e := (({} : InterfaceRegistry).call
        (.registerAgent 7 { agentName := [1], interfaceNames := [[2], [2]] })).entries k
      e.inUse ∧ e.agentName = [1] ∧ e.interfaceName = [2] := by decide +kernel
  obtain ⟨huse₀, hagent₀, hname₀⟩ := htwins 0 (.inl rfl)
  obtain ⟨huse₁, hagent₁, hname₁⟩ := htwins 1 (.inr rfl)
  exact absurd (h.names 0 1 huse₀ huse₁ (hagent₀.trans hagent₁.symm) (hname₀.trans hname₁.symm)) (by decide)

end InterfaceRegistry
end CanHub
