/-
# The interface registry

`InterfaceRegistry` lists every interface the live agents export. The hub gives
each an interface id from a 32-bit counter; a virtual entry is an interface the
hub serves itself (a bridge group) and has the peer id no peer has. Each entry
paces the frames towards its bus with an `EgressShaper`, a token bucket in bits.
-/
import CanHub.Lib.Table
import CanHub.Protocol.Control

namespace CanHub

@[simp] abbrev interfaceRegistryMax : ℕ := 256
@[simp] abbrev microsecondsPerSecond : ℕ := 1000000
@[simp] abbrev paceEffectivePercent : ℕ := 80
@[simp] abbrev paceBurstBits : ℕ := 8192

def interfaceRegistryHubPeer : UInt32 := 0

/-! ### The shaper -/

structure EgressShaper where
  rateBitsPerS : UInt32 := 0
  tokensBits : ℕ := 0
  burstBits : ℕ := 0
  remainder : ℕ := 0
  lastUs : ℕ := 0
deriving DecidableEq

namespace EgressShaper

def init (nowUs : ℕ) (rateBitsPerS : UInt32) (burstBits : ℕ) : EgressShaper :=
  { rateBitsPerS, burstBits, tokensBits := burstBits, lastUs := nowUs }

def setRate (s : EgressShaper) (rateBitsPerS : UInt32) : EgressShaper :=
  { s with rateBitsPerS, tokensBits := min s.tokensBits s.burstBits }

def refill (s : EgressShaper) (nowUs : ℕ) : EgressShaper :=
  if s.rateBitsPerS = 0 ∨ nowUs ≤ s.lastUs then { s with lastUs := nowUs }
  else
    let rate := s.rateBitsPerS.toNat
    let elapsed := nowUs - s.lastUs
    if s.burstBits * microsecondsPerSecond / rate + 1 ≤ elapsed then
      { s with lastUs := nowUs, tokensBits := s.burstBits, remainder := 0 }
    else
      let numerator := rate * elapsed + s.remainder
      let tokens := s.tokensBits + numerator / microsecondsPerSecond
      if s.burstBits < tokens then { s with lastUs := nowUs, tokensBits := s.burstBits, remainder := 0 }
      else { s with lastUs := nowUs, tokensBits := tokens, remainder := numerator % microsecondsPerSecond }

/-- `EgressShaper_TryConsume`: the bucket, and whether the bits were there. -/
def tryConsume (s : EgressShaper) (bits : ℕ) : EgressShaper × Bool :=
  if s.rateBitsPerS = 0 then (s, true)
  else if s.tokensBits < min bits s.burstBits then (s, false)
  else ({ s with tokensBits := s.tokensBits - min bits s.burstBits }, true)

end EgressShaper

/-! ### Entries -/

structure InterfaceEntry where
  inUse : Bool := false
  interfaceId : UInt32 := 0
  agentPeerId : UInt32 := 0
  agentChannel : UInt8 := 0
  framesReceived : UInt64 := 0
  txDropped : UInt64 := 0
  advertisedRate : UInt32 := 0
  fdReported : Bool := false
  fdCapable : Bool := false
  shaper : EgressShaper := {}
  agentName : Text := []
  interfaceName : Text := []
deriving DecidableEq

namespace InterfaceEntry

def isVirtual (e : InterfaceEntry) : Bool := e.agentPeerId = interfaceRegistryHubPeer

def refusesFrame (e : InterfaceEntry) (frameFlags : UInt8) : Bool :=
  frameFlags &&& frameFlagFd ≠ 0 ∧ e.fdReported ∧ !e.fdCapable

def namesMatch (e : InterfaceEntry) (agentName interfaceName : Text) : Bool :=
  e.agentName = agentName ∧ e.interfaceName = interfaceName

/-- The fields `InterfaceRegistry_RegisterAgent` sets for the `i`-th interface of a registration. -/
def registered (e : InterfaceEntry) (interfaceId agentPeerId : UInt32) (m : RegisterMessage) (i : ℕ)
    (interfaceName : Text) : InterfaceEntry :=
  { e with
    inUse := true, interfaceId, agentPeerId, agentChannel := UInt8.ofNat i, fdReported := m.fdReported
    fdCapable := m.fdInterfaces.toNat.testBit i, agentName := m.agentName, interfaceName }

/-- The fields `InterfaceRegistry_AddVirtual` sets. -/
def virtual (e : InterfaceEntry) (interfaceId : UInt32) (agentName interfaceName : Text) : InterfaceEntry :=
  { e with inUse := true, interfaceId, agentPeerId := interfaceRegistryHubPeer, agentName, interfaceName }

end InterfaceEntry

abbrev EntrySlot := Fin interfaceRegistryMax

structure InterfaceRegistry where
  entries : Table interfaceRegistryMax InterfaceEntry := fun _ => {}
  nextInterfaceId : UInt32 := 1

namespace InterfaceRegistry

section

variable (r : InterfaceRegistry)

/-- A change of one entry. -/
def modify (k : EntrySlot) (f : InterfaceEntry → InterfaceEntry) : InterfaceRegistry :=
  { r with entries := Function.update r.entries k (f (r.entries k)) }

/-- A change of every entry. -/
def map (f : InterfaceEntry → InterfaceEntry) : InterfaceRegistry :=
  { r with entries := fun k => f (r.entries k) }

def findFreeEntry : Option EntrySlot := r.entries.find? fun e => !e.inUse

def findById (interfaceId : UInt32) : Option EntrySlot :=
  r.entries.find? fun e => e.inUse && e.interfaceId == interfaceId

def findByName (agentName interfaceName : Text) : Option EntrySlot :=
  r.entries.find? fun e => e.inUse && e.namesMatch agentName interfaceName

def findByAgentChannel (agentPeerId : UInt32) (agentChannel : UInt8) : Option EntrySlot :=
  r.entries.find? fun e => e.inUse && e.agentPeerId == agentPeerId && e.agentChannel == agentChannel

def count (r : InterfaceRegistry) : ℕ := r.entries.count (·.inUse)

def isPeerRegistered (agentPeerId : UInt32) : Bool :=
  (r.entries.find? fun e => e.inUse && e.agentPeerId == agentPeerId).isSome

/-- An entry one of the registration's interfaces collides with. -/
def collision (m : RegisterMessage) : Option EntrySlot :=
  r.entries.find? fun e => e.inUse && m.interfaceNames.any (e.namesMatch m.agentName)

/-- `InterfaceRegistry_CollidingPeer`. -/
def collidingPeer (m : RegisterMessage) : Option UInt32 :=
  (r.collision m).map fun k => (r.entries k).agentPeerId

def removePeer (agentPeerId : UInt32) : InterfaceRegistry :=
  r.map fun e => if e.inUse ∧ e.agentPeerId = agentPeerId then {} else e

/-- An entry for the next interface id. -/
def assign (k : EntrySlot) (f : UInt32 → InterfaceEntry → InterfaceEntry) : InterfaceRegistry :=
  { r.modify k (f r.nextInterfaceId) with nextInterfaceId := r.nextInterfaceId + 1 }

/-- The loop of `InterfaceRegistry_RegisterAgent` from its `i`-th interface on:
the registry, and how many interfaces have an entry when it ends. -/
def registerInterfaces (r : InterfaceRegistry) (agentPeerId : UInt32) (m : RegisterMessage) (i : ℕ) :
    List Text → InterfaceRegistry × ℕ
  | [] => (r, i)
  | name :: names =>
    match r.findFreeEntry with
    | none => (r.removePeer agentPeerId, i)
    | some k => (r.assign k fun id e => e.registered id agentPeerId m i name).registerInterfaces agentPeerId m
        (i + 1) names

/-- The acknowledgement of a registration `assigned` of whose interfaces got a channel. -/
def registerAck (m : RegisterMessage) (status : RegisterStatus) (assigned : ℕ) : RegisterAckMessage :=
  ⟨status, (List.range m.interfaceNames.length).map fun i => if i < assigned then UInt8.ofNat i else 0⟩

/-- `InterfaceRegistry_RegisterAgent`: the registry, the acknowledgement and
whether the agent is registered. -/
def registerAgent (agentPeerId : UInt32) (m : RegisterMessage) : InterfaceRegistry × RegisterAckMessage × Bool :=
  if r.isPeerRegistered agentPeerId then (r, registerAck m .rejected 0, false)
  else if (r.collision m).isSome then (r, registerAck m .rejected 0, false)
  else
    let (r, assigned) := r.registerInterfaces agentPeerId m 0 m.interfaceNames
    if assigned < m.interfaceNames.length then (r, registerAck m .rejected assigned, false)
    else (r, registerAck m .ok assigned, true)

/-- `InterfaceRegistry_AddVirtual`: the registry and the new entry. -/
def addVirtual (agentName interfaceName : Text) : Option (InterfaceRegistry × EntrySlot) :=
  match r.findByName agentName interfaceName with
  | some _ => none
  | none =>
    match r.findFreeEntry with
    | none => none
    | some k => some (r.assign k fun id e => e.virtual id agentName interfaceName, k)

def removeVirtual (interfaceId : UInt32) : InterfaceRegistry :=
  r.map fun e => if e.inUse ∧ e.interfaceId = interfaceId ∧ e.isVirtual then {} else e

def setFdCapable (interfaceId : UInt32) (fdCapable : Bool) : InterfaceRegistry :=
  r.map fun e => if e.inUse ∧ e.interfaceId = interfaceId then { e with fdReported := true, fdCapable } else e

def countFrame (interfaceId : UInt32) : InterfaceRegistry :=
  match r.findById interfaceId with
  | some k => r.modify k fun e => { e with framesReceived := e.framesReceived + 1 }
  | none => r

def setTxDropped (agentPeerId : UInt32) (agentChannel : UInt8) (txDropped : UInt64) : InterfaceRegistry :=
  match r.findByAgentChannel agentPeerId agentChannel with
  | some k => r.modify k fun e => { e with txDropped }
  | none => r

def applyAdvertisedRate (agentPeerId : UInt32) (agentChannel : UInt8)
    (advertisedRate credit : UInt32) (nowUs : ℕ) : InterfaceRegistry :=
  let effectiveRate := if credit ≠ 0 then credit else advertisedRate
  let pacedRate := UInt32.ofNat (effectiveRate.toNat * paceEffectivePercent / 100)
  match r.findByAgentChannel agentPeerId agentChannel with
  | none => r
  | some k => r.modify k fun e =>
    { e with
      advertisedRate
      shaper := if e.shaper.burstBits = 0 then .init nowUs pacedRate paceBurstBits else e.shaper.setRate pacedRate }

/-- `InterfaceRegistry_TryEgress`: the registry, and whether the pace lets the bits go. -/
def tryEgress (agentPeerId : UInt32) (agentChannel : UInt8) (bits nowUs : ℕ) : InterfaceRegistry × Bool :=
  match r.findByAgentChannel agentPeerId agentChannel with
  | none => (r, true)
  | some k =>
    let (shaper, taken) := ((r.entries k).shaper.refill nowUs).tryConsume bits
    (r.modify k fun e => { e with shaper }, taken)

end

/-! ### Searches -/

variable {r : InterfaceRegistry} {k : EntrySlot}

theorem findById_some {interfaceId : UInt32}
    (h : r.findById interfaceId = some k) : (r.entries k).inUse ∧ (r.entries k).interfaceId = interfaceId := by
  simpa using Table.find?_some h

theorem findByName_some {agentName interfaceName : Text}
    (h : r.findByName agentName interfaceName = some k) :
    (r.entries k).inUse ∧ (r.entries k).agentName = agentName ∧ (r.entries k).interfaceName = interfaceName := by
  simpa [InterfaceEntry.namesMatch] using Table.find?_some h

/-! ### Ids -/

theorem findFreeEntry_some (h : r.findFreeEntry = some k) :
    (r.entries k).inUse = false := by
  simpa using Table.find?_some h

theorem assign_entries_self (f : UInt32 → InterfaceEntry → InterfaceEntry) :
    (r.assign k f).entries k = f r.nextInterfaceId (r.entries k) := Function.update_self ..

theorem assign_entries_of_ne {l : EntrySlot} (f : UInt32 → InterfaceEntry → InterfaceEntry) (h : l ≠ k) :
    (r.assign k f).entries l = r.entries l := Function.update_of_ne h ..

section
variable {agentPeerId : UInt32}

/-- An agent that is not registered has no entries. -/
theorem not_registered (h : r.isPeerRegistered agentPeerId = false) (hk : (r.entries k).inUse) :
    (r.entries k).agentPeerId ≠ agentPeerId := by
  have hnone := Table.find?_eq_none.mp (Option.not_isSome_iff_eq_none.mp (by simpa [isPeerRegistered] using h)) k
  simpa [hk] using hnone

theorem removePeer_other (h : (r.entries k).agentPeerId ≠ agentPeerId) :
    (r.removePeer agentPeerId).entries k = r.entries k := if_neg fun hboth => h hboth.2

/-- What is left after a peer has gone is not its own. -/
theorem removePeer_gone (hk : ((r.removePeer agentPeerId).entries k).inUse) : (r.entries k).agentPeerId ≠ agentPeerId := by
  intro ha
  by_cases huse : (r.entries k).inUse
  · simp [removePeer, map, huse, ha] at hk
  · simp [removePeer, map, huse] at hk

theorem removePeer_same (hk : ((r.removePeer agentPeerId).entries k).inUse) :
    (r.removePeer agentPeerId).entries k = r.entries k := removePeer_other (removePeer_gone hk)

/-- The agent has the channels of its first `i` interfaces at most. -/
def FirstChannels (r : InterfaceRegistry) (agentPeerId : UInt32) (i : ℕ) : Prop :=
  ∀ k, (r.entries k).inUse → (r.entries k).agentPeerId = agentPeerId → (r.entries k).agentChannel.toNat < i

variable {i : ℕ} (h : r.FirstChannels agentPeerId i) (hi : i < 2 ^ 8)
include h hi

theorem FirstChannels.ne (hk : (r.entries k).inUse) (ha : (r.entries k).agentPeerId = agentPeerId) :
    (r.entries k).agentChannel ≠ UInt8.ofNat i := by
  intro hc
  have hlt := h k hk ha
  rw [hc, UInt8.toNat_ofNat', Nat.mod_eq_of_lt hi] at hlt
  exact Nat.lt_irrefl i hlt

theorem FirstChannels.assign (m : RegisterMessage) (name : Text) :
    (r.assign k fun id e => e.registered id agentPeerId m i name).FirstChannels agentPeerId (i + 1) := by
  intro l hl ha
  by_cases hlk : l = k
  · rw [hlk, assign_entries_self]
    change (UInt8.ofNat i).toNat < i + 1
    rw [UInt8.toNat_ofNat', Nat.mod_eq_of_lt hi]
    exact Nat.lt_succ_self i
  · rw [assign_entries_of_ne _ hlk] at hl ha ⊢
    exact Nat.lt_succ_of_lt (h l hl ha)

end

/-- The free entries after one has been taken. -/
theorem assign_free (hk : (r.entries k).inUse = false)
    {f : UInt32 → InterfaceEntry → InterfaceEntry} (hf : (f r.nextInterfaceId (r.entries k)).inUse) :
    (r.assign k f).entries.count (!·.inUse) + 1 = r.entries.count (!·.inUse) := by
  have hc := Table.count_update r.entries (!·.inUse) k (f r.nextInterfaceId (r.entries k))
  simp only [hk, hf, Bool.not_false, Bool.not_true, Bool.toNat_true, Bool.toNat_false, Nat.add_zero] at hc
  exact hc

/-- A registration takes one id for each entry it fills, even if it fails in the end. -/
theorem registerInterfaces_next (agentPeerId : UInt32) (m : RegisterMessage) (names : List Text) (r : InterfaceRegistry)
    (i : ℕ) : ∃ n ≤ r.entries.count (!·.inUse),
      (r.registerInterfaces agentPeerId m i names).1.nextInterfaceId = r.nextInterfaceId + UInt32.ofNat n := by
  fun_induction registerInterfaces r agentPeerId m i names with
  | case1 => exact ⟨0, Nat.zero_le _, by simp⟩
  | case2 => exact ⟨0, Nat.zero_le _, by simp [removePeer, map]⟩
  | case3 r i name names k hfree ih =>
    obtain ⟨n, hn, hnext⟩ := ih
    have hcount := assign_free (findFreeEntry_some hfree)
      (f := fun id e => e.registered id agentPeerId m i name) rfl
    refine ⟨n + 1, by omega, ?_⟩
    have hassign : (r.assign k fun id e => e.registered id agentPeerId m i name).nextInterfaceId
        = r.nextInterfaceId + 1 := rfl
    rw [hnext, hassign, UInt32.ofNat_add, UInt32.add_assoc, UInt32.add_comm (UInt32.ofNat n)]
    rfl

/-- A registration is refused at once, or its interfaces get entries until there are no more. -/
theorem registerAgent_cases (r : InterfaceRegistry) (agentPeerId : UInt32) (m : RegisterMessage) :
    ((r.isPeerRegistered agentPeerId ∨ (r.collision m).isSome)
        ∧ r.registerAgent agentPeerId m = (r, registerAck m .rejected 0, false))
      ∨ (r.isPeerRegistered agentPeerId = false ∧ r.collision m = none
        ∧ (r.registerAgent agentPeerId m).1 = (r.registerInterfaces agentPeerId m 0 m.interfaceNames).1
        ∧ ((r.registerAgent agentPeerId m).2.2 ↔
          m.interfaceNames.length ≤ (r.registerInterfaces agentPeerId m 0 m.interfaceNames).2)) := by
  unfold registerAgent
  by_cases hreg : r.isPeerRegistered agentPeerId
  · exact .inl ⟨.inl hreg, if_pos hreg⟩
  rw [if_neg hreg]
  by_cases hcol : (r.collision m).isSome
  · exact .inl ⟨.inr hcol, if_pos hcol⟩
  rw [if_neg hcol]
  refine .inr ⟨by simpa using hreg, by simpa using hcol, ?_⟩
  dsimp only
  split
  · rename_i h
    exact ⟨rfl, by simpa using h⟩
  · rename_i h
    exact ⟨rfl, by simpa using h⟩

/-- The loop over the interfaces of a registration gives the agent interfaces of the names. -/
theorem registerInterfaces_named (agentPeerId : UInt32) (m : RegisterMessage) (names : List Text)
    (hnames : ∀ name ∈ names, name ∈ m.interfaceNames) (r : InterfaceRegistry) (i : ℕ)
    (h : ∀ k, (r.entries k).inUse → (r.entries k).agentPeerId = agentPeerId →
      (r.entries k).agentName = m.agentName ∧ (r.entries k).interfaceName ∈ m.interfaceNames)
    (hk : ((r.registerInterfaces agentPeerId m i names).1.entries k).inUse)
    (hagent : ((r.registerInterfaces agentPeerId m i names).1.entries k).agentPeerId = agentPeerId) :
    ((r.registerInterfaces agentPeerId m i names).1.entries k).agentName = m.agentName
      ∧ ((r.registerInterfaces agentPeerId m i names).1.entries k).interfaceName ∈ m.interfaceNames := by
  fun_induction registerInterfaces r agentPeerId m i names with
  | case1 => exact h k hk hagent
  | case2 =>
    rw [removePeer_same hk] at hagent
    exact absurd hagent (removePeer_gone hk)
  | case3 r i name names l hfree ih =>
    refine ih (fun name' hname' => hnames name' (List.mem_cons_of_mem name hname')) (fun k' hk' hagent' => ?_) hk hagent
    by_cases hl : k' = l
    · subst hl
      rw [assign_entries_self]
      exact ⟨rfl, hnames name List.mem_cons_self⟩
    · rw [assign_entries_of_ne _ hl] at hk' hagent' ⊢
      exact h k' hk' hagent'

/-- An agent that has registered has interfaces of the names of its message. -/
theorem registerAgent_named {agentPeerId : UInt32} {m : RegisterMessage}
    (h : (r.registerAgent agentPeerId m).2.2) (hk : ((r.registerAgent agentPeerId m).1.entries k).inUse)
    (hagent : ((r.registerAgent agentPeerId m).1.entries k).agentPeerId = agentPeerId) :
    ((r.registerAgent agentPeerId m).1.entries k).agentName = m.agentName
      ∧ ((r.registerAgent agentPeerId m).1.entries k).interfaceName ∈ m.interfaceNames := by
  rcases r.registerAgent_cases agentPeerId m with ⟨_, he⟩ | ⟨hreg, _, he, _⟩
  · rw [he] at h
    cases h
  rw [he] at hk hagent ⊢
  exact registerInterfaces_named agentPeerId m _ (fun _ h => h) r 0
    (fun k hk hagent => absurd hagent (not_registered hreg hk)) hk hagent

theorem registerAgent_next (r : InterfaceRegistry) (agentPeerId : UInt32) (m : RegisterMessage) :
    ∃ n ≤ interfaceRegistryMax,
      (r.registerAgent agentPeerId m).1.nextInterfaceId = r.nextInterfaceId + UInt32.ofNat n := by
  rcases r.registerAgent_cases agentPeerId m with ⟨_, h⟩ | ⟨_, _, h, _⟩
  · rw [h]
    exact ⟨0, Nat.zero_le _, by simp⟩
  · obtain ⟨n, hn, hnext⟩ := registerInterfaces_next agentPeerId m m.interfaceNames r 0
    rw [h]
    exact ⟨n, hn.trans (Table.count_le _ _), hnext⟩

/-- What adding a virtual interface does. -/
theorem addVirtual_some {r registry : InterfaceRegistry} {agentName interfaceName : Text}
    (h : r.addVirtual agentName interfaceName = some (registry, k)) :
    r.findByName agentName interfaceName = none ∧ (r.entries k).inUse = false
      ∧ registry = r.assign k fun id e => e.virtual id agentName interfaceName := by
  unfold addVirtual at h
  split at h
  · cases h
  split at h
  · cases h
  · rename_i hname _ _ hfree
    cases h
    exact ⟨hname, findFreeEntry_some hfree, rfl⟩

end InterfaceRegistry
end CanHub
