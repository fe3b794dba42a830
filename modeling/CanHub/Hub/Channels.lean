/-
# The channels of a client

The channels of a client are numbered by an 8-bit counter that wraps, and skips
the numbers in use. However often it has wrapped, an open finds a number as long
as a binding is free, since of 33 numbers in a row one is not in use
(`allocateChannel_ne_none`), and what is looked up under the number is the
binding that was opened until it is closed (`run_settings`).
-/
import CanHub.Hub.Session
import CanHub.Lib.Run
import Mathlib.Data.Fintype.Pigeonhole

namespace CanHub

open ChannelBinding

/-- The calls that change the bindings of a session. -/
inductive ChannelCall
  | openInterface (request : ChannelOpenRequest)
  | closeChannel (channel : UInt8)
  | setFilters (channel : UInt8) (filters : List CanFilter)
  | detachInterface (interfaceId : UInt32)
  | reattachInterface (agentName interfaceName : Text) (interfaceId : UInt32) (canWrite : Bool)

/-- What stays with a binding as long as it is open: its number, its names and the client's options. -/
def ChannelBinding.settings (b : ChannelBinding) : ChannelBinding :=
  { b with dormant := false, interfaceId := 0, canWrite := false, framesForwarded := 0, framesDropped := 0, filters := [] }

theorem ChannelBinding.of_settings {b b' : ChannelBinding} (h : b.settings = b'.settings) :
    b.inUse = b'.inUse ∧ b.channel = b'.channel := by
  have huse := congrArg inUse h
  have hchannel := congrArg channel h
  exact ⟨huse, hchannel⟩

namespace ClientSession

def step (s : ClientSession) : ChannelCall → ClientSession
  | .openInterface request => (s.openInterface request).1
  | .closeChannel channel => s.closeChannel channel
  | .setFilters channel filters => (s.setFilters channel filters).getD s
  | .detachInterface interfaceId => s.detachInterface interfaceId
  | .reattachInterface agentName interfaceName interfaceId canWrite =>
    (s.reattachInterface agentName interfaceName interfaceId canWrite).1

variable {s : ClientSession} {request : ChannelOpenRequest} {c : UInt8} {j : BindingSlot} {call : ChannelCall}
  {b : ChannelBinding}

theorem setFilters_bindings (s : ClientSession) (d : UInt8) (filters : List CanFilter) (j : BindingSlot) :
    ∃ filters', ((s.setFilters d filters).getD s).bindings j = { s.bindings j with filters := filters' } := by
  unfold setFilters
  cases s.findByChannel d with
  | none => exact ⟨_, rfl⟩
  | some k =>
    rw [Option.map_some, Option.getD_some]
    by_cases hjk : j = k
    · subst hjk
      exact ⟨filters, modify_bindings_self _⟩
    · exact ⟨_, modify_bindings_of_ne _ hjk⟩

theorem step_settings (h : (s.bindings j).inUse) (hcall : call ≠ .closeChannel (s.bindings j).channel) :
    ((s.step call).bindings j).settings = (s.bindings j).settings := by
  cases call with
  | openInterface request =>
    rcases s.openInterface_cases request with ⟨-, hb⟩ | ⟨k, d, -, hfree, -, hb⟩
    · exact congrArg settings (congrFun hb j)
    · have hjk : j ≠ k := by
        rintro rfl
        simp [h] at hfree
      exact congrArg settings ((congrFun hb j).trans (Function.update_of_ne hjk _ _))
  | closeChannel d =>
    refine congrArg settings (closeChannel_of_ne fun hd => hcall ?_)
    rw [hd]
  | setFilters d filters =>
    obtain ⟨_, hb⟩ := s.setFilters_bindings d filters j
    rw [step, hb]
    rfl
  | detachInterface id =>
    simp only [step, detachInterface]
    split <;> rfl
  | reattachInterface agentName interfaceName id canWrite =>
    simp only [step, reattachInterface]
    split <;> rfl

/-- **A binding keeps its settings until it is closed.** -/
theorem run_settings (h : (s.bindings j).settings = b.settings) (hb : b.inUse) {calls : List ChannelCall}
    (hcalls : .closeChannel b.channel ∉ calls) : ((Run.run step s calls).bindings j).settings = b.settings := by
  have halong : Run.Along step (fun _ call => call ≠ .closeChannel b.channel) s calls :=
    .of_forall (fun _ hcall _ => ne_of_mem_of_not_mem hcall hcalls) s
  refine halong.invariant (I := fun s => (s.bindings j).settings = b.settings) (fun s call h hcall => ?_) h
  obtain ⟨huse, hchannel⟩ := of_settings h
  exact (step_settings (huse.trans hb) (hchannel ▸ hcall)).trans h

/-- A number finds its binding, and its interface unless the agent is away. -/
theorem ChannelsDistinct.finds (h : s.ChannelsDistinct) (huse : (s.bindings j).inUse)
    (hc : (s.bindings j).channel = c) : s.findByChannel c = some j
      ∧ s.interfaceForChannel c = if (s.bindings j).dormant then none else some (s.bindings j).interfaceId := by
  have hone : ∀ k, (s.bindings k).inUse → (s.bindings k).channel = c → k = j := fun k hk hkc =>
    h k j hk huse (hkc.trans hc.symm)
  refine ⟨Table.find?_unique (by simp [huse, hc]) fun k hk => ?_, ?_⟩
  · simp only [Bool.and_eq_true, beq_iff_eq] at hk
    exact hone k hk.1 hk.2
  have hlive : ∀ k, ((s.bindings k).isLive && (s.bindings k).channel == c) → k = j := fun k hk => by
    simp only [Bool.and_eq_true, beq_iff_eq] at hk
    exact hone k (inUse_of_isLive hk.1) hk.2
  unfold interfaceForChannel
  cases hd : (s.bindings j).dormant with
  | false =>
    rw [Table.find?_unique (by simp [isLive, huse, hc, hd]) hlive]
    rfl
  | true =>
    have hnone : s.bindings.find? (fun b => b.isLive && b.channel == c) = none := by
      refine Table.find?_eq_none.mpr fun k => Bool.eq_false_iff.mpr fun hk => ?_
      obtain rfl := hlive k hk
      simp [isLive, hd] at hk
    rw [hnone]
    rfl

theorem ChannelsDistinct.run (h : s.ChannelsDistinct) (calls : List ChannelCall) :
    (Run.run step s calls).ChannelsDistinct := by
  refine List.foldlRecOn (motive := ChannelsDistinct) calls step h fun s h call _ => ?_
  cases call with
  | openInterface request => exact h.openInterface request
  | closeChannel d => exact h.closeChannel d
  | setFilters d filters =>
    refine h.of_fewer fun j hj => ?_
    obtain ⟨_, hb⟩ := s.setFilters_bindings d filters j
    rw [step, hb] at hj ⊢
    exact ⟨hj, rfl⟩
  | detachInterface id => exact h.detachInterface id
  | reattachInterface agentName interfaceName id canWrite => exact h.reattachInterface agentName interfaceName id canWrite

/-- Without a number, all that were tried are in use. -/
theorem allocateChannel_none (s : ClientSession) (n : ℕ) (h : (s.allocateChannel n).2 = none) :
    ∀ i < n, ∃ j, (s.bindings j).channel = s.nextChannel + UInt8.ofNat i := by
  induction n generalizing s with
  | zero => exact fun i hi => absurd hi (Nat.not_lt_zero i)
  | succ n ih =>
    unfold allocateChannel at h
    cases hf : s.findByChannel s.nextChannel with
    | none => simp [hf] at h
    | some k =>
      rw [hf] at h
      intro i hi
      cases i with
      | zero => exact ⟨k, by simpa using (findByChannel_some hf).2⟩
      | succ i =>
        obtain ⟨j, hj⟩ := ih _ h i (Nat.lt_of_succ_lt_succ hi)
        refine ⟨j, hj.trans ?_⟩
        rw [UInt8.ofNat_add, UInt8.add_assoc, UInt8.add_comm (UInt8.ofNat i)]
        rfl

/-- **Of 33 numbers in a row one is free.** -/
theorem allocateChannel_ne_none (s : ClientSession) : (s.allocateChannel (clientSessionBindingsMax + 1)).2 ≠ none := by
  intro h
  choose slot hslot using fun i : Fin (clientSessionBindingsMax + 1) => s.allocateChannel_none _ h i i.isLt
  obtain ⟨a, b, hab, he⟩ := Fintype.exists_ne_map_eq_of_card_lt slot (by simp)
  have hsame : s.nextChannel + UInt8.ofNat a = s.nextChannel + UInt8.ofNat b := by rw [← hslot, ← hslot, he]
  have hnat := congrArg UInt8.toNat ((UInt8.add_right_inj _).mp hsame)
  have hsmall : clientSessionBindingsMax + 1 ≤ 2 ^ 8 := by decide
  rw [UInt8.toNat_ofNat', UInt8.toNat_ofNat', Nat.mod_eq_of_lt (a.isLt.trans_le hsmall),
    Nat.mod_eq_of_lt (b.isLt.trans_le hsmall)] at hnat
  exact hab (Fin.ext hnat)

theorem openInterface_eq_none :
    (s.openInterface request).2 = none ↔ s.bindings.count (·.inUse) = clientSessionBindingsMax := by
  have hfull : s.bindings.count (·.inUse) = clientSessionBindingsMax ↔ s.findFree = none := by
    rw [Table.count_eq, findFree, Table.find?_eq_none]
    simp
  rw [hfull, openInterface]
  cases hf : s.findFree with
  | none => simp
  | some k =>
    have hsome := s.allocateChannel_ne_none
    rcases ha : s.allocateChannel (clientSessionBindingsMax + 1) with ⟨t, _ | d⟩
    · exact absurd (by rw [ha]) hsome
    · simp

/-- **Channels are distinct and to be had**, whatever was called: an open fails only when all bindings are in use, the
number it gives finds the binding opened until it is closed, and a reattachment changes only dormant bindings of the
names, whose numbers, filters and options it keeps. -/
theorem channels_distinct_available (calls : List ChannelCall) :
    let s := Run.run step {} calls
    s.ChannelsDistinct
      ∧ (∀ request, (s.openInterface request).2 = none ↔ s.bindings.count (·.inUse) = clientSessionBindingsMax)
      ∧ (∀ request c, (s.openInterface request).2 = some c → ∃ j, (s.bindings j).inUse = false
        ∧ ∀ later, .closeChannel c ∉ later → let s' := Run.run step (s.openInterface request).1 later
          (s'.bindings j).settings = (bind {} request c).settings ∧ s'.findByChannel c = some j
            ∧ s'.interfaceForChannel c = if (s'.bindings j).dormant then none else some (s'.bindings j).interfaceId)
      ∧ ∀ agentName interfaceName id canWrite j,
        let b := s.bindings j
        let b' := (s.reattachInterface agentName interfaceName id canWrite).1.bindings j
        (b' ≠ b → b.inUse ∧ b.dormant ∧ b.agentName = agentName ∧ b.interfaceName = interfaceName)
          ∧ b'.settings = b.settings ∧ b'.filters = b.filters := by
  intro s
  have hs : s.ChannelsDistinct := ChannelsDistinct.init.run calls
  refine ⟨hs, fun request => openInterface_eq_none, fun request c hc => ?_, fun agentName interfaceName id canWrite j => ?_⟩
  · rcases s.openInterface_cases request with ⟨hnone, -⟩ | ⟨j, d, hd, hfree, -, hb⟩
    · simp [hnone] at hc
    obtain rfl : d = c := Option.some.inj (hd.symm.trans hc)
    refine ⟨j, hfree, fun later hlater => ?_⟩
    have hself : ((s.openInterface request).1.bindings j).settings = (bind {} request d).settings := by
      rw [hb, Function.update_self]
      rfl
    have hkept := run_settings hself rfl hlater
    obtain ⟨huse, hchannel⟩ := of_settings hkept
    exact ⟨hkept, ((hs.openInterface request).run later).finds huse hchannel⟩
  · dsimp only [reattachInterface]
    split
    · next hawaits =>
      simp only [awaits, Bool.and_eq_true, beq_iff_eq, and_assoc] at hawaits
      exact ⟨fun _ => hawaits, rfl, rfl⟩
    · exact ⟨fun hne => absurd rfl hne, rfl, rfl⟩

end ClientSession
end CanHub
