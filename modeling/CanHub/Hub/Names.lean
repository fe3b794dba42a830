/-
# Interfaces called by their names

A client that opens `agent/interface` asks the hub for its LIST, page by page, and takes the
first entry the name is the name of (`resolve`). In a registry whose agents have names, and
names without a separator, this finds the interface shown under the name, and so does
taking the name apart (`names_identify`). REGISTER accepts any agent name.
-/
import CanHub.Hub.Bridges
import CanHub.Hub.Catalogue
import CanHub.Protocol.InterfaceName

namespace CanHub

open InterfaceName List

@[simp] abbrev listReplyEntriesMax : ℕ := 16

/-- `InterfaceName_Find`. -/
def InterfaceName.find (reply : ListReplyMessage) (name : Text) : Option UInt32 :=
  (reply.entries.find? fun e => namesEntry name e.agentName e.interfaceName).map (·.interfaceId)

/-- The name an interface is shown under. -/
def InterfaceEntry.shown (e : InterfaceEntry) : Text := namespaced e.agentName e.interfaceName

namespace InterfaceRegistry

/-! ### Looking a name up -/

/-- The entries a LIST shows, in the order of their slots. -/
def listed (r : InterfaceRegistry) : List ListReplyEntry :=
  (((finRange interfaceRegistryMax).map r.entries).filter (·.inUse)).map fun e =>
    ⟨e.interfaceId, e.agentName, e.interfaceName⟩

/-- `InterfaceRegistry_List`: one page. -/
def list (r : InterfaceRegistry) (offset : ℕ) : ListReplyMessage :=
  ⟨(r.listed.drop offset).take listReplyEntriesMax, listReplyEntriesMax < (r.listed.drop offset).length⟩

/-- `resolveFromReply` over the pages from an offset on: the id of the interface. -/
def resolve (r : InterfaceRegistry) (name : Text) : ℕ → ℕ → Option UInt32
  | 0, _ => none
  | pages + 1, offset =>
    let reply := r.list offset
    match find reply name with
    | some interfaceId => some interfaceId
    | none =>
      if reply.more ∧ 0 < reply.entries.length then r.resolve name pages (offset + reply.entries.length) else none

/-- The first listed entry of the name. -/
def firstNamed (r : InterfaceRegistry) (name : Text) : Option UInt32 :=
  (r.listed.find? fun e => namesEntry name e.agentName e.interfaceName).map (·.interfaceId)

variable {r r' : InterfaceRegistry}

/-- Page by page is all at once. -/
theorem resolve_eq (name : Text) (pages offset : ℕ) (h : r.listed.length ≤ offset + listReplyEntriesMax * pages) :
    r.resolve name pages offset = ((r.listed.drop offset).find? fun e =>
      namesEntry name e.agentName e.interfaceName).map (·.interfaceId) := by
  induction pages generalizing offset with
  | zero =>
    rw [drop_eq_nil_of_le (by omega)]
    rfl
  | succ pages ih =>
    unfold resolve find list
    simp only [listReplyEntriesMax] at h ih ⊢
    generalize hrest : r.listed.drop offset = rest
    have hlength : rest.length = r.listed.length - offset := by rw [← hrest, length_drop]
    have hnext : r.listed.drop (offset + 16) = rest.drop 16 := by
      rw [← hrest, drop_drop]
    have hsplit : rest.find? (fun e => namesEntry name e.agentName e.interfaceName)
        = ((rest.take 16).find? fun e => namesEntry name e.agentName e.interfaceName).or
          ((rest.drop 16).find? fun e =>
            namesEntry name e.agentName e.interfaceName) := by
      rw [← find?_append, take_append_drop]
    rw [hsplit]
    cases (rest.take 16).find? fun e => namesEntry name e.agentName e.interfaceName with
    | some e => rfl
    | none =>
      dsimp only [Option.map_none, Option.or]
      by_cases hmore : 16 < rest.length
      · have htake : (rest.take 16).length = 16 := by
          rw [length_take]
          omega
        rw [if_pos ⟨by simpa using hmore, by omega⟩, htake, ih _ (by omega), hnext]
      · rw [if_neg (by simp only [decide_eq_true_eq]; omega), drop_eq_nil_of_le (by omega)]
        rfl

theorem listed_length (r : InterfaceRegistry) : r.listed.length ≤ interfaceRegistryMax := by
  unfold listed
  rw [length_map]
  calc _ ≤ ((finRange interfaceRegistryMax).map r.entries).length := length_filter_le _ _
    _ = interfaceRegistryMax := by rw [length_map, length_finRange]

theorem resolve_all (r : InterfaceRegistry) (name : Text) :
    r.resolve name interfaceRegistryMax 0 = r.firstNamed name := by
  have := r.listed_length
  exact resolve_eq name interfaceRegistryMax 0 (by simp only [interfaceRegistryMax, listReplyEntriesMax] at *; omega)

/-! ### Names that can be called -/

/-- The parts of a name that comes apart where it was put together. -/
structure Addressed (e : InterfaceEntry) : Prop where
  separator : separator ∉ e.agentName
  agent : e.agentName ≠ []
  agentSize : e.agentName.length < registerAgentNameSize
  interface : e.interfaceName ≠ []
  interfaceSize : e.interfaceName.length < registerInterfaceNameSize

/-- No two entries have the same names, and every entry can be called by its. -/
structure Named (r : InterfaceRegistry) : Prop where
  names : ∀ k l, (r.entries k).inUse → (r.entries l).inUse → (r.entries k).agentName = (r.entries l).agentName ∧
    (r.entries k).interfaceName = (r.entries l).interfaceName → k = l
  addressed : ∀ k, (r.entries k).inUse → Addressed (r.entries k)

variable (h : r.Named) {k : EntrySlot}
include h

theorem Named.shown_inj {l : EntrySlot} (hk : (r.entries k).inUse) (hl : (r.entries l).inUse)
    (he : (r.entries k).shown = (r.entries l).shown) : k = l :=
  h.names k l hk hl (namespaced_inj (h.addressed k hk).separator (h.addressed l hl).separator he)

theorem Named.split (hk : (r.entries k).inUse) :
    split (r.entries k).shown = some ((r.entries k).agentName, (r.entries k).interfaceName) := by
  have ha := h.addressed k hk
  exact split_namespaced ha.separator ha.agent ha.agentSize ha.interface ha.interfaceSize

/-- The first entry listed under a name is the one shown under it. -/
theorem Named.firstNamed (hk : (r.entries k).inUse) :
    r.firstNamed (r.entries k).shown = some (r.entries k).interfaceId := by
  have hmem : ⟨(r.entries k).interfaceId, (r.entries k).agentName, (r.entries k).interfaceName⟩ ∈ r.listed := by
    refine mem_map.mpr ⟨r.entries k, mem_filter.mpr ⟨?_, hk⟩, rfl⟩
    exact mem_map_of_mem (mem_finRange k)
  unfold InterfaceRegistry.firstNamed
  cases hfind : r.listed.find? fun e => namesEntry (r.entries k).shown e.agentName e.interfaceName with
  | none =>
    have hno := find?_eq_none.mp hfind _ hmem
    exact absurd (namesEntry_iff.mpr rfl) hno
  | some e =>
    -- whatever is found is shown under the same name
    have hfound := find?_some hfind
    have hname := namesEntry_iff.mp hfound
    obtain ⟨entry, hentry, rfl⟩ := mem_map.mp (mem_of_find?_eq_some hfind)
    obtain ⟨hentry, huse⟩ := mem_filter.mp hentry
    obtain ⟨l, _, rfl⟩ := mem_map.mp hentry
    rw [h.shown_inj hk huse hname]
    rfl

/-! ### Entries that come and go -/

theorem Named.fewer (hsame : ∀ k, (r'.entries k).inUse → r'.entries k = r.entries k) : r'.Named := by
  refine ⟨fun k l hk hl => ?_, fun k hk => ?_⟩
  · rw [hsame k hk, hsame l hl] at *
    exact h.names k l hk hl
  · rw [hsame k hk] at *
    exact h.addressed k hk

theorem Named.removePeer (agentPeerId : UInt32) : (r.removePeer agentPeerId).Named :=
  h.fewer fun _ => removePeer_same

theorem Named.assign {f : UInt32 → InterfaceEntry → InterfaceEntry}
    (hname : ∀ l, (r.entries l).inUse → ¬ ((r.entries l).agentName = (f r.nextInterfaceId (r.entries k)).agentName
      ∧ (r.entries l).interfaceName = (f r.nextInterfaceId (r.entries k)).interfaceName))
    (hnew : Addressed (f r.nextInterfaceId (r.entries k))) : (r.assign k f).Named := by
  constructor
  · refine Table.unrelated_of_ne (R := fun a b => a.agentName = b.agentName ∧ a.interfaceName = b.interfaceName)
      (fun _ _ h => ⟨h.1.symm, h.2.symm⟩) (fun _ => assign_entries_of_ne f) h.names fun _ l _ => ?_
    rw [assign_entries_self]
    exact hname l
  · intro l hl
    by_cases hlk : l = k
    · rw [hlk, assign_entries_self]
      exact hnew
    · rw [assign_entries_of_ne f hlk] at hl ⊢
      exact h.addressed l hl

omit h

/-- The loop over the names of a message. -/
theorem Named.registerInterfaces {agentPeerId : UInt32} {m : RegisterMessage} (names : List Text) {i : ℕ} (h : r.Named)
    (hagent : separator ∉ m.agentName ∧ m.agentName ≠ [] ∧ m.agentName.length < registerAgentNameSize)
    (hnames : ∀ name ∈ names, name ≠ [] ∧ name.length < registerInterfaceNameSize) (hnodup : names.Nodup)
    (hfree : ∀ l, (r.entries l).inUse → (r.entries l).agentName = m.agentName → (r.entries l).interfaceName ∉ names) :
    (r.registerInterfaces agentPeerId m i names).1.Named := by
  fun_induction InterfaceRegistry.registerInterfaces r agentPeerId m i names with
  | case1 => exact h
  | case2 => exact h.removePeer agentPeerId
  | case3 r i name names k _ ih =>
    rw [nodup_cons] at hnodup
    obtain ⟨hname, hrest⟩ := forall_mem_cons.mp hnames
    have hassigned : (r.assign k fun id e => e.registered id agentPeerId m i name).Named := by
      refine h.assign (fun l hl he => hfree l hl he.1 (he.2 ▸ mem_cons_self)) ?_
      exact ⟨hagent.1, hagent.2.1, hagent.2.2, hname.1, hname.2⟩
    exact ih hassigned hrest hnodup.2 (named_assign agentPeerId i hnodup.1 hfree)

/-! ### Calls -/

/-- What the hub calls with: a REGISTER its decoder took, or a group with a valid name. -/
def Comes : RegistryCall → Prop
  | .registerAgent _ m => ∃ payload, RegisterMessage.decode payload = some m
  | .addVirtual agentName interfaceName => agentName = bridgeGroupAgentName ∧ BridgeGroup.isNameValid interfaceName
  | _ => True

/-- A registration that gives the agent a name without a separator, and no interface name twice. -/
def Callable : RegistryCall → Prop
  | .registerAgent _ m =>
    m.agentName ≠ [] ∧ separator ∉ m.agentName ∧ m.interfaceNames.Nodup
  | _ => True

theorem Named.registerAgent (h : r.Named) {agentPeerId : UInt32} {m : RegisterMessage}
    (hcomes : Comes (.registerAgent agentPeerId m)) (hcall : Callable (.registerAgent agentPeerId m)) :
    (r.registerAgent agentPeerId m).1.Named := by
  obtain ⟨payload, hpayload⟩ := hcomes
  obtain ⟨hagent, hnames⟩ := RegisterMessage.decode_texts hpayload
  obtain ⟨hne, hseparator, hnodup⟩ := hcall
  rcases r.registerAgent_cases agentPeerId m with ⟨_, he⟩ | ⟨_, hcollision, he, _⟩
  · rw [he]
    exact h
  rw [he]
  refine h.registerInterfaces m.interfaceNames ⟨hseparator, hne, hagent.1⟩
    (fun name hname => ⟨m.named name hname, (hnames name hname).1⟩) hnodup fun l hl ha hmem => ?_
  have hnone := Table.find?_eq_none.mp hcollision l
  simp only [hl, Bool.true_and, any_eq_false] at hnone
  exact hnone _ hmem (by simp [InterfaceEntry.namesMatch, ha])

theorem Named.addVirtual (h : r.Named) {agentName interfaceName : Text}
    (hcomes : Comes (.addVirtual agentName interfaceName)) : (r.addVirtualCut agentName interfaceName).Named := by
  obtain ⟨rfl, hvalid⟩ := hcomes
  simp only [BridgeGroup.isNameValid, Bool.and_eq_true, decide_eq_true_eq, bridgeGroupNameSize] at hvalid
  unfold addVirtualCut
  cases hname : r.findByName bridgeGroupAgentName interfaceName with
  | some _ => exact h
  | none =>
    cases hk : r.findFreeEntry with
    | none => exact h
    | some k =>
      rw [take_of_length_le (l := bridgeGroupAgentName) (by decide),
        take_of_length_le (by simp only [registerInterfaceNameSize]; omega)]
      refine h.assign (fun l hl he => ?_) ⟨(by decide : separator ∉ bridgeGroupAgentName),
        (by decide : bridgeGroupAgentName ≠ []), (by decide : bridgeGroupAgentName.length < 128), hvalid.1.1,
        hvalid.1.2⟩
      have hnone := Table.find?_eq_none.mp hname l
      simp [hl, InterfaceEntry.namesMatch, he.1, he.2, InterfaceEntry.virtual] at hnone

theorem Named.call (h : r.Named) {c : RegistryCall} (hcomes : Comes c) (hc : Callable c) : (r.call c).Named := by
  cases c with
  | registerAgent agentPeerId m => exact h.registerAgent hcomes hc
  | removePeer agentPeerId => exact h.removePeer agentPeerId
  | addVirtual agentName interfaceName => exact h.addVirtual hcomes
  | removeVirtual interfaceId => exact h.fewer fun _ => removeVirtual_same

theorem Named.calls {calls : List RegistryCall} (h : r.Named) (hcomes : ∀ c ∈ calls, Comes c)
    (hc : ∀ c ∈ calls, Callable c) : (calls.foldl InterfaceRegistry.call r).Named := by
  induction calls generalizing r with
  | nil => exact h
  | cons c calls ih =>
    obtain ⟨hcomes, hcomes'⟩ := forall_mem_cons.mp hcomes
    obtain ⟨hc, hc'⟩ := forall_mem_cons.mp hc
    exact ih (h.call hcomes hc) hcomes' hc'

/-- **An interface is the one shown under its name**: no two are shown under one, a name comes apart into the names of
its interface, and looking it up in the LIST finds that interface, as long as every agent registers with a name
that has no separator and gives no interface name twice. -/
theorem names_identify {calls : List RegistryCall} (hcomes : ∀ c ∈ calls, Comes c) (hc : ∀ c ∈ calls, Callable c) :
    let r := calls.foldl call {}
    (∀ k l, (r.entries k).inUse → (r.entries l).inUse → (r.entries k).shown = (r.entries l).shown → k = l)
      ∧ ∀ k, (r.entries k).inUse →
        split (r.entries k).shown = some ((r.entries k).agentName, (r.entries k).interfaceName)
        ∧ r.resolve (r.entries k).shown interfaceRegistryMax 0 = some (r.entries k).interfaceId := by
  intro r
  have hempty : ({} : InterfaceRegistry).Named := ⟨fun _ _ h => (nomatch h), fun _ h => (nomatch h)⟩
  have hnamed : r.Named := hempty.calls hcomes hc
  refine ⟨fun k l hk hl he => hnamed.shown_inj hk hl he, fun k hk => ⟨hnamed.split hk, ?_⟩⟩
  rw [resolve_all]
  exact hnamed.firstNamed hk

/-- A REGISTER body: the agent's name and one interface's. -/
def registerBody (agentName interfaceName : Text) : List UInt8 :=
  agentName ++ replicate (128 - agentName.length) 0 ++ [1, 0, 0, 0] ++ interfaceName
    ++ replicate (256 - interfaceName.length) 0

/-- Agent `A` with interface `c`, and group `g`. -/
def calledByName : List RegistryCall :=
  [.registerAgent 7 { agentName := [0x41], interfaceNames := [[0x63]] }, .addVirtual bridgeGroupAgentName [0x67]]

set_option maxRecDepth 20000 in
/-- `A/c` is found. -/
theorem names_identify_plain : (calledByName.foldl call {}).resolve [0x41, 0x2F, 0x63] interfaceRegistryMax 0 = some 1 := by
  have hcomes : ∀ c ∈ calledByName, Comes c := by
    intro c hc
    rcases mem_cons.mp hc with rfl | hc
    · exact ⟨registerBody [0x41] [0x63], by decide +kernel⟩
    · cases mem_singleton.mp hc
      exact ⟨rfl, by decide⟩
  have hcallable : ∀ c ∈ calledByName, Callable c := by
    intro c hc
    rcases mem_cons.mp hc with rfl | hc
    · exact ⟨by decide, by decide, nodup_singleton _⟩
    · cases mem_singleton.mp hc
      trivial
  have hentry : ((calledByName.foldl call {}).entries 0).inUse
      ∧ ((calledByName.foldl call {}).entries 0).shown = [0x41, 0x2F, 0x63]
      ∧ ((calledByName.foldl call {}).entries 0).interfaceId = 1 := by decide +kernel
  have hfound := ((names_identify hcomes hcallable).2 0 hentry.1).2
  rw [hentry.2.1, hentry.2.2] at hfound
  exact hfound

/-- Agent `A` with interface `B/c`, and agent `A/B` with interface `c`. -/
def slashed : List RegistryCall :=
  [.registerAgent 7 { agentName := [0x41], interfaceNames := [[0x42, 0x2F, 0x63]] },
   .registerAgent 8 { agentName := [0x41, 0x2F, 0x42], interfaceNames := [[0x63]] }]

set_option maxRecDepth 20000 in
/-- **Two interfaces are shown under one name**, the name comes apart into the names of the first, and a client that
opens the second gets the first. -/
theorem slashed_names : (∀ c ∈ slashed, Comes c) ∧ ∃ k l : EntrySlot, k ≠ l
    ∧ let r := slashed.foldl call {}
      (r.entries k).inUse ∧ (r.entries l).inUse ∧ (r.entries k).shown = (r.entries l).shown
        ∧ split (r.entries l).shown ≠ some ((r.entries l).agentName, (r.entries l).interfaceName)
        ∧ r.resolve (r.entries l).shown interfaceRegistryMax 0 ≠ some (r.entries l).interfaceId := by
  refine ⟨fun c hc => ?_, 0, 1, by decide, by decide +kernel⟩
  rcases mem_cons.mp hc with rfl | hc
  · exact ⟨registerBody [0x41] [0x42, 0x2F, 0x63], by decide +kernel⟩
  · cases mem_singleton.mp hc
    exact ⟨registerBody [0x41, 0x2F, 0x42] [0x63], by decide +kernel⟩

end InterfaceRegistry
end CanHub
