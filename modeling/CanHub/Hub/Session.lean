/-
# A client's session with the hub

`ClientSession` holds the interfaces a client has open, each bound to a channel
of its own. A binding survives its agent: it goes dormant, keeping its channel
and its filters, and is pointed at the new interface id when an agent registers
the same names again.
-/
import CanHub.Lib.Table
import CanHub.Protocol.Control

namespace CanHub

@[simp] abbrev clientSessionBindingsMax : ℕ := 32

structure ChannelBinding where
  inUse : Bool := false
  dormant : Bool := false
  suppressEcho : Bool := false
  canWrite : Bool := false
  reliable : Bool := false
  errorFrames : Bool := false
  interfaceId : UInt32 := 0
  channel : UInt8 := 0
  framesForwarded : UInt32 := 0
  framesDropped : UInt32 := 0
  agentName : Text := []
  interfaceName : Text := []
  filters : List CanFilter := []
deriving DecidableEq

structure ChannelOpenRequest where
  interfaceId : UInt32
  suppressEcho : Bool
  canWrite : Bool
  reliable : Bool
  errorFrames : Bool
  agentName : Text
  interfaceName : Text

abbrev BindingSlot := Fin clientSessionBindingsMax

structure ClientSession where
  bindings : Table clientSessionBindingsMax ChannelBinding := fun _ => {}
  nextChannel : UInt8 := 0

namespace ChannelBinding

/-- The binding is open and its interface is there. -/
def isLive (b : ChannelBinding) : Bool := b.inUse && !b.dormant

/-- The fields `ClientSession_OpenInterface` sets. -/
def bind (b : ChannelBinding) (request : ChannelOpenRequest) (channel : UInt8) : ChannelBinding :=
  { b with
    inUse := true, dormant := false, suppressEcho := request.suppressEcho
    canWrite := request.canWrite, reliable := request.reliable, errorFrames := request.errorFrames
    interfaceId := request.interfaceId, channel, agentName := request.agentName
    interfaceName := request.interfaceName }

/-- A dormant binding of the names. -/
def awaits (b : ChannelBinding) (agentName interfaceName : Text) : Bool :=
  b.inUse && b.dormant && b.agentName == agentName && b.interfaceName == interfaceName

end ChannelBinding

namespace ClientSession

section

variable (s : ClientSession)

/-- A change of one binding. -/
def modify (j : BindingSlot) (f : ChannelBinding → ChannelBinding) : ClientSession :=
  { s with bindings := Function.update s.bindings j (f (s.bindings j)) }

def findByChannel (channel : UInt8) : Option BindingSlot :=
  s.bindings.find? fun b => b.inUse && b.channel == channel

def findFree : Option BindingSlot := s.bindings.find? fun b => !b.inUse

/-- `allocateChannel` with the attempts it has left: the first channel from
`next_channel` on that no binding uses. -/
def allocateChannel (s : ClientSession) : ℕ → ClientSession × Option UInt8
  | 0 => (s, none)
  | attempts + 1 =>
    let moved := { s with nextChannel := s.nextChannel + 1 }
    match s.findByChannel s.nextChannel with
    | none => (moved, some s.nextChannel)
    | some _ => moved.allocateChannel attempts

/-- `ClientSession_OpenInterface`: the session, and the channel if there was one. -/
def openInterface (request : ChannelOpenRequest) : ClientSession × Option UInt8 :=
  match s.findFree with
  | none => (s, none)
  | some j =>
    match s.allocateChannel (clientSessionBindingsMax + 1) with
    | (s, none) => (s, none)
    | (s, some channel) =>
      (s.modify j (·.bind request channel), some channel)

def canWrite (s : ClientSession) (channel : UInt8) : Bool :=
  match s.findByChannel channel with
  | some j => (s.bindings j).canWrite
  | none => false

def channelReliable (channel : UInt8) : Bool :=
  match s.findByChannel channel with
  | some j => (s.bindings j).reliable
  | none => false

/-- `ClientSession_SetFilters`: `none` when the channel is not open. -/
def setFilters (channel : UInt8) (filters : List CanFilter) : Option ClientSession :=
  (s.findByChannel channel).map fun j => s.modify j fun b => { b with filters }

def channelAccepts (channel : UInt8) (canId : UInt32) : Bool :=
  match s.findByChannel channel with
  | none => true
  | some j =>
    if canId &&& frameCanIdFlagErr ≠ 0 then (s.bindings j).errorFrames
    else (s.bindings j).filters = [] || (s.bindings j).filters.any (·.passes canId)

def closeChannel (channel : UInt8) : ClientSession :=
  match s.findByChannel channel with
  | some j => s.modify j fun _ => {}
  | none => s

def interfaceForChannel (channel : UInt8) : Option UInt32 :=
  (s.bindings.find? fun b => b.isLive && b.channel == channel).map fun j => (s.bindings j).interfaceId

def channelForInterface (interfaceId : UInt32) : Option UInt8 :=
  (s.bindings.find? fun b => b.isLive && b.interfaceId == interfaceId).map fun j => (s.bindings j).channel

/-- All live bindings of an interface, in the order `ClientSession_NextBindingForInterface` gives them. -/
def bindingsForInterface (interfaceId : UInt32) : List ChannelBinding :=
  ((List.finRange clientSessionBindingsMax).map s.bindings).filter fun b => b.isLive && b.interfaceId == interfaceId

def holdsReliable (interfaceId : UInt32) : Bool :=
  (s.bindings.find? fun b => b.inUse && b.reliable && b.interfaceId == interfaceId).isSome

def holdsChannels : Bool := (s.bindings.find? (·.inUse)).isSome

/-- `ClientSession_TakeReliableBinding`: the session without its first reliable
binding, and the interface it was for. -/
def takeReliableBinding : Option (ClientSession × UInt32) :=
  (s.bindings.find? fun b => b.inUse && b.reliable).map fun j =>
    (s.modify j fun _ => {}, (s.bindings j).interfaceId)

def detachInterface (interfaceId : UInt32) : ClientSession :=
  { s with bindings := fun j =>
    if (s.bindings j).isLive ∧ (s.bindings j).interfaceId = interfaceId then { s.bindings j with dormant := true }
    else s.bindings j }

/-- `ClientSession_ReattachInterface`: the session, and whether a binding came back. -/
def reattachInterface (agentName interfaceName : Text) (interfaceId : UInt32)
    (canWrite : Bool) : ClientSession × Bool :=
  ({ s with bindings := fun j =>
      if (s.bindings j).awaits agentName interfaceName then
        { s.bindings j with interfaceId, canWrite, dormant := false }
      else s.bindings j },
    (s.bindings.find? (·.awaits agentName interfaceName)).isSome)

end

/-! ### Channels -/

variable {s s' : ClientSession} {c : UInt8} {j k : BindingSlot}

@[simp] theorem modify_bindings_self (f : ChannelBinding → ChannelBinding) :
    (s.modify j f).bindings j = f (s.bindings j) := by simp [modify]

theorem modify_bindings_of_ne (f : ChannelBinding → ChannelBinding) (h : k ≠ j) :
    (s.modify j f).bindings k = s.bindings k := by simp [modify, h]

theorem findByChannel_some (h : s.findByChannel c = some j) :
    (s.bindings j).inUse ∧ (s.bindings j).channel = c := by
  simpa using Table.find?_some h

theorem findByChannel_none (h : s.findByChannel c = none) (hj : (s.bindings j).inUse) :
    (s.bindings j).channel ≠ c := by
  have := Table.find?_eq_none.mp h j
  simpa [hj] using this

theorem interfaceForChannel_some {id : UInt32} (h : s.interfaceForChannel c = some id) :
    ∃ j, (s.bindings j).isLive ∧ (s.bindings j).channel = c ∧ (s.bindings j).interfaceId = id := by
  obtain ⟨j, hj, rfl⟩ := Option.map_eq_some_iff.mp h
  have := Table.find?_some hj
  exact ⟨j, by simpa [and_assoc] using this⟩

/-- A channel is bound once. -/
def ChannelsDistinct (s : ClientSession) : Prop :=
  ∀ j k, (s.bindings j).inUse → (s.bindings k).inUse → (s.bindings j).channel = (s.bindings k).channel → j = k

theorem inUse_of_isLive {b : ChannelBinding} (h : b.isLive) : b.inUse := by
  simp only [ChannelBinding.isLive, Bool.and_eq_true] at h
  exact h.1

/-- Allocating touches no binding, and the channel it gives is unused. -/
theorem allocateChannel_spec (s : ClientSession) :
    ∀ n, (s.allocateChannel n).1.bindings = s.bindings
      ∧ ∀ c, (s.allocateChannel n).2 = some c → ∀ j, (s.bindings j).inUse → (s.bindings j).channel ≠ c
  | 0 => ⟨rfl, fun _ h => nomatch h⟩
  | n + 1 => by
    unfold allocateChannel
    dsimp only
    cases hf : s.findByChannel s.nextChannel with
    | none =>
      refine ⟨rfl, fun c hc j hj => ?_⟩
      cases hc
      exact findByChannel_none hf hj
    | some k => exact allocateChannel_spec { s with nextChannel := s.nextChannel + 1 } n

/-- What opening does: at most one binding changes, from free to open on a
channel no other binding uses. -/
theorem openInterface_cases (s : ClientSession) (r : ChannelOpenRequest) :
    ((s.openInterface r).2 = none ∧ (s.openInterface r).1.bindings = s.bindings)
      ∨ ∃ j c, (s.openInterface r).2 = some c ∧ (s.bindings j).inUse = false
        ∧ (∀ k, (s.bindings k).inUse → (s.bindings k).channel ≠ c)
        ∧ (s.openInterface r).1.bindings = Function.update s.bindings j ((s.bindings j).bind r c) := by
  unfold openInterface
  cases hf : s.findFree with
  | none => exact .inl ⟨rfl, rfl⟩
  | some j =>
    obtain ⟨hsame, hnew⟩ := allocateChannel_spec s (clientSessionBindingsMax + 1)
    rcases ha : s.allocateChannel (clientSessionBindingsMax + 1) with ⟨t, o⟩
    rw [ha] at hsame hnew
    cases o with
    | none => exact .inl ⟨rfl, hsame⟩
    | some c =>
      refine .inr ⟨j, c, rfl, by simpa using Table.find?_some hf, fun k hk => hnew c rfl k hk, ?_⟩
      dsimp only [modify] at hsame ⊢
      rw [hsame]

/-- What taking a reliable binding does: one is cleared. -/
theorem takeReliableBinding_some {interfaceId : UInt32}
    (h : s.takeReliableBinding = some (s', interfaceId)) :
    ∃ j, (s.bindings j).inUse ∧ (s.bindings j).reliable ∧ (s.bindings j).interfaceId = interfaceId
      ∧ s' = s.modify j fun _ => {} := by
  obtain ⟨j, hj, he⟩ := Option.map_eq_some_iff.mp h
  have := Table.find?_some hj
  simp only [Bool.and_eq_true] at this
  cases he
  exact ⟨j, this.1, this.2, rfl, rfl⟩

theorem takeReliableBinding_count {interfaceId : UInt32}
    (h : s.takeReliableBinding = some (s', interfaceId)) :
    s'.bindings.count (fun b => b.inUse && b.reliable) + 1 = s.bindings.count fun b => b.inUse && b.reliable := by
  obtain ⟨j, huse, hrel, _, rfl⟩ := takeReliableBinding_some h
  have hc := Table.count_update s.bindings (fun b => b.inUse && b.reliable) j {}
  simp only [huse, hrel, Bool.and_self, Bool.toNat_true, Bool.toNat_false] at hc
  simpa [modify] using hc

/-! ### Distinct channels -/

theorem ChannelsDistinct.init : ChannelsDistinct {} := fun _ _ h => by cases h

variable (h : s.ChannelsDistinct)
include h

/-- Bindings may be cleared, and change but for their channels. -/
theorem ChannelsDistinct.of_fewer
    (hb : ∀ j, (s'.bindings j).inUse → (s.bindings j).inUse ∧ (s'.bindings j).channel = (s.bindings j).channel) :
    s'.ChannelsDistinct := by
  intro j k hj hk hch
  obtain ⟨hj', hcj⟩ := hb j hj
  obtain ⟨hk', hck⟩ := hb k hk
  rw [hcj, hck] at hch
  exact h j k hj' hk' hch

theorem ChannelsDistinct.modify (j : BindingSlot) : (s.modify j fun _ => {}).ChannelsDistinct := by
  refine h.of_fewer fun k hk => ?_
  by_cases hkj : k = j
  · subst hkj
    rw [modify_bindings_self] at hk
    cases hk
  · rw [modify_bindings_of_ne _ hkj] at hk ⊢
    exact ⟨hk, rfl⟩

theorem ChannelsDistinct.openInterface (r : ChannelOpenRequest) :
    (s.openInterface r).1.ChannelsDistinct := by
  unfold ChannelsDistinct
  rcases s.openInterface_cases r with ⟨_, hb⟩ | ⟨j, c, _, _, hnew, hb⟩
  · rw [hb]
    exact h
  · rw [hb]
    refine Table.unrelated_of_ne (t := s.bindings) (R := fun a b => a.channel = b.channel) (fun _ _ => Eq.symm)
      (fun k hk => Function.update_of_ne hk _ _) h fun _ k _ hk => ?_
    rw [Function.update_self]
    exact hnew k hk

theorem ChannelsDistinct.closeChannel (c : UInt8) : (s.closeChannel c).ChannelsDistinct := by
  unfold ClientSession.closeChannel
  split
  · exact h.modify _
  · exact h

omit h

/-- Closing a channel leaves the others. -/
theorem closeChannel_of_ne (h : (s.bindings j).channel ≠ c) : (s.closeChannel c).bindings j = s.bindings j := by
  unfold closeChannel
  cases hf : s.findByChannel c with
  | none => rfl
  | some k =>
    refine modify_bindings_of_ne _ ?_
    rintro rfl
    exact h (findByChannel_some hf).2

theorem ChannelsDistinct.detachInterface (h : s.ChannelsDistinct) (interfaceId : UInt32) :
    (s.detachInterface interfaceId).ChannelsDistinct := by
  refine h.of_fewer fun j => ?_
  unfold ClientSession.detachInterface
  dsimp only
  split <;> exact fun hj => ⟨hj, rfl⟩

theorem ChannelsDistinct.reattachInterface (h : s.ChannelsDistinct) (agentName interfaceName : Text)
    (interfaceId : UInt32) (canWrite : Bool) :
    (s.reattachInterface agentName interfaceName interfaceId canWrite).1.ChannelsDistinct := by
  refine h.of_fewer fun j => ?_
  unfold ClientSession.reattachInterface
  dsimp only
  split <;> exact fun hj => ⟨hj, rfl⟩

end ClientSession
end CanHub
