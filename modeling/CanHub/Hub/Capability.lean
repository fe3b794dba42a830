/-
# CAN FD frames and classic buses

An agent reports which of its interfaces carry CAN FD, and IFCONFIG_REPLY changes it
later. The hub looks at it when a frame is routed: a frame with the FD flag for an
interface that is known to be classic is dropped and counted, whether a client, a
bridge or a group sends it. A frame that is parked is not looked at again when it is
drained, so that the interface may have become classic meanwhile.

`Clean` is what holds as long as no interface becomes classic while an FD frame is
parked for it (`KeepsFd`): no frame is parked for an interface that refuses it. From it
no FD frame is handed to a classic bus in any turn (`Clean.turn`).
-/
import CanHub.Hub.LeasedWrites
import CanHub.Hub.Lossy
import CanHub.Hub.Staffed

namespace CanHub

open List
namespace Broker

/-- No interface on the agent's channel refuses the frame. -/
def Takes (s : Broker) (peerId : UInt32) (channel : UInt8) (f : FrameMessage) : Prop :=
  ∀ k, s.Exports k → (s.registry.entries k).agentPeerId = peerId → (s.registry.entries k).agentChannel = channel →
    (s.registry.entries k).refusesFrame f.frameFlags = false

/-- No FD frame is parked for the interface. -/
def NoFdParked (s : Broker) (interfaceId : UInt32) : Prop :=
  ∀ k, s.Exports k → (s.registry.entries k).interfaceId = interfaceId →
    ∀ i, (s.directory i).peerId = (s.registry.entries k).agentPeerId →
      ∀ slot ∈ (s.directory i).egress.channels (s.registry.entries k).agentChannel,
        slot.frame.frameFlags &&& frameFlagFd = 0

variable {s s' s'' s₀ : Broker}

/-- Whether a frame is refused depends on what is known of the interface, and on nothing else. -/
theorem refusesFrame_congr {e e' : InterfaceEntry} (h : e'.fd = e.fd) (flags : UInt8) :
    e'.refusesFrame flags = e.refusesFrame flags := by
  obtain ⟨hr, hc⟩ : e'.fdReported = e.fdReported ∧ e'.fdCapable = e.fdCapable := Prod.mk.inj h
  rw [InterfaceEntry.refusesFrame, InterfaceEntry.refusesFrame, hr, hc]

/-! ### Where acts go -/

/-- The route leads to an interface of an agent that takes the frame. -/
def ToAgent (s : Broker) (r : FrameRoute) (f : FrameMessage) : Prop :=
  ∃ k, s.Exports k ∧ (s.registry.entries k).agentPeerId = r.peerId ∧ (s.registry.entries k).agentChannel = r.channel
    ∧ (s.registry.entries k).refusesFrame f.frameFlags = false

/-- The route leads to no agent. -/
def ToClient (s : Broker) (r : FrameRoute) : Prop :=
  (∀ k, s.Exports k → (s.registry.entries k).agentPeerId ≠ r.peerId)
    ∧ ∀ i, s.find r.peerId = some i → (s.directory i).role = .client

/-- The event is one that may carry frames. -/
def HubEvent.isFrames : HubEvent → Bool
  | .frame .. => true
  | .writable _ => true
  | .tick _ => true
  | _ => false

/-- What the hub does with frames in an event that begins in `s₀`. -/
def Suits (s₀ : Broker) (e : HubEvent) (s : Broker) : Act → Prop
  | .forward r f _ => HubEvent.isFrames e ∧ After s₀ s
    ∧ (s.ToAgent r f ∨ s.ToClient r ∧ ∀ k, s₀.Exports k → (s₀.registry.entries k).agentPeerId ≠ r.peerId)
  | .drain _ => HubEvent.isFrames e ∧ After s₀ s
  | .learn interfaceId fdCapable => HubEvent.isFrames e = false ∧ (fdCapable ∨ s.NoFdParked interfaceId)
  | _ => True

variable {f : FrameMessage} {r : FrameRoute}

theorem Staffed.toAgent_takes (h : Staffed s) (hr : s.ToAgent r f) :
    s.Takes r.peerId r.channel f := by
  obtain ⟨k, hk, hagent, hchannel, htakes⟩ := hr
  intro l hl hla hlc
  rw [h.served l k hl hk (hla.trans hagent.symm) (hlc.trans hchannel.symm)]
  exact htakes

theorem ToClient.takes (hr : s.ToClient r) (f : FrameMessage) : s.Takes r.peerId r.channel f :=
  fun k hk hagent _ => absurd hagent (hr.1 k hk)

/-! ### The invariant -/

/-- **No frame is parked for an interface that refuses it**, and what is parked for a peer that is no client is
parked for an interface. -/
structure Clean (s : Broker) : Prop where
  staffed : Staffed s
  tidy : Tidy s
  takes : ∀ i c, ∀ slot ∈ (s.directory i).egress.channels c, s.Takes (s.directory i).peerId c slot.frame
  parked : ∀ i c, (s.directory i).role ≠ .client → (s.directory i).egress.channels c ≠ [] →
    ∃ k, s.Exports k ∧ (s.registry.entries k).agentPeerId = (s.directory i).peerId
      ∧ (s.registry.entries k).agentChannel = c

/-- A change that teaches nothing of an interface keeps what its channel takes. -/
theorem Takes.steady (hr : s.registry.Steady s'.registry) {peerId : UInt32} {channel : UInt8}
    (h : s.Takes peerId channel f) : s'.Takes peerId channel f := by
  intro k hk hagent hchannel
  obtain ⟨hk', hagent', hchannel'⟩ := hk.of_face (hr.entries k)
  rw [refusesFrame_congr (hr.fd k)]
  exact h k hk' (hagent'.symm.trans hagent) (hchannel'.symm.trans hchannel)

/-- The interface is known to take FD frames now, or none is parked for it. -/
theorem Clean.learn (h : Clean s) {interfaceId : UInt32} {fdCapable : Bool}
    (hlearn : fdCapable ∨ s.NoFdParked interfaceId) : Clean (s.perform (.learn interfaceId fdCapable)) := by
  have hlike := (s.perform_still (.learn interfaceId fdCapable)).toLike
  have hface : ∀ k, ((s.perform (.learn interfaceId fdCapable)).registry.entries k).face = (s.registry.entries k).face :=
    fun k => hlike.registry.entries k
  refine ⟨h.staffed.like hlike, h.tidy.act _, fun i c slot hslot k hk hagent hchannel => ?_, fun i c hrole hne => ?_⟩
  · obtain ⟨hk', hagent', hchannel'⟩ := hk.of_face (hface k)
    have hold := h.takes i c slot hslot k hk' (hagent'.symm.trans hagent) (hchannel'.symm.trans hchannel)
    simp only [perform, InterfaceRegistry.setFdCapable, InterfaceRegistry.map]
    split
    · rename_i hid
      rcases hlearn with hcapable | hnone
      · simp [InterfaceEntry.refusesFrame, hcapable]
      · have hfd := hnone k hk' hid.2 i (hagent'.symm.trans hagent).symm slot
          (by rw [← hchannel', hchannel]; exact hslot)
        simp [InterfaceEntry.refusesFrame, hfd]
    · exact hold
  · obtain ⟨k, hk, hagent, hchannel⟩ := h.parked i c hrole hne
    obtain ⟨hk', hagent', hchannel'⟩ := KeepsEntry.of_face hk (hface k)
    exact ⟨k, hk', hagent'.trans hagent, hchannel'.trans hchannel⟩

variable {e : HubEvent}

theorem Clean.act (h : Clean s) {a : Act} (ha : Suits s₀ e s a) : Clean (s.perform a) := by
  by_cases hlearn : a.isLearn
  · cases a with
    | learn => exact h.learn ha.2
    | _ => cases hlearn
  have hsteady := perform_steady (s := s) (a := a) (by simpa using hlearn)
  have hlike := (s.perform_still a).toLike
  refine ⟨h.staffed.like hlike, h.tidy.act a, fun i c slot hslot => ?_, fun i c hrole hne => ?_⟩
  · rw [(hlike.peers i).peerId]
    apply Takes.steady hsteady
    rcases mem_perform hslot with hold | ⟨r, f, routeFlags, rfl, hi, rfl, hframe⟩
    · exact h.takes i c slot hold
    · rw [hframe, (PeerDirectory.find_some hi).2]
      have htakes : s.Takes r.peerId r.channel f := by
        rcases ha.2.2 with hagent | hclient
        · exact h.staffed.toAgent_takes hagent
        · exact hclient.1.takes f
      exact htakes
  · rw [(hlike.peers i).role] at hrole
    have hkeeps : ∀ k, s.Exports k → KeepsEntry s (s.perform a) k :=
      fun k hk => KeepsEntry.of_face hk (hlike.registry.entries k)
    obtain ⟨slot, hslot⟩ := exists_mem_of_ne_nil _ hne
    have hthere : ∃ k, s.Exports k ∧ (s.registry.entries k).agentPeerId = (s.directory i).peerId
        ∧ (s.registry.entries k).agentChannel = c := by
      rcases mem_perform hslot with hold | ⟨r, f, routeFlags, rfl, hi, rfl, _⟩
      · exact h.parked i c hrole (ne_nil_of_mem hold)
      · rcases ha.2.2 with ⟨k, hk, hagent, hchannel, _⟩ | hclient
        · exact ⟨k, hk, hagent.trans (PeerDirectory.find_some hi).2.symm, hchannel⟩
        · exact absurd (hclient.1.2 i hi) hrole
    obtain ⟨k, hk, hagent, hchannel⟩ := hthere
    obtain ⟨hk', hagent', hchannel'⟩ := hkeeps k hk
    exact ⟨k, hk', by rw [hagent', hagent, (hlike.peers i).peerId], hchannel'.trans hchannel⟩

variable {i : PeerSlot}

/-- Where something is parked, somebody is. -/
theorem Tidy.of_parked (h : Tidy s) {c : UInt8} (hne : (s.directory i).egress.channels c ≠ []) :
    (s.directory i).inUse := by
  by_contra hi
  exact hne (h.vacant i c (by simpa using hi))

/-- What is parked after a quiet change was parked before it, for a peer that is there before and after. -/
theorem Quiet.parked (hq : Quiet P True s s') (h : Tidy s) {c : UInt8}
    (hne : (s'.directory i).egress.channels c ≠ []) : (s.directory i).inUse ∧ (s'.directory i).inUse
      ∧ (s'.directory i).egress = (s.directory i).egress := by
  have hi' := (h.quiet hq).of_parked hne
  rcases hq.frames i with hf | ⟨hf, _⟩
  · have he : (s'.directory i).egress = (s.directory i).egress := congrArg Prod.fst hf
    exact ⟨h.of_parked (he ▸ hne), hi', he⟩
  · have he : (s'.directory i).egress = {} := congrArg Prod.fst hf
    rw [he] at hne
    exact absurd rfl hne

theorem Clean.quiet (h : Clean s) (hq : Quiet P True s s') : Clean s' := by
  refine ⟨h.staffed.quiet hq, h.tidy.quiet hq, fun i c slot hslot k hk hagent hchannel => ?_, fun i c hrole hne => ?_⟩
  · obtain ⟨hi, hi', hegress⟩ := hq.parked h.tidy (ne_nil_of_mem hslot)
    obtain ⟨hid, _⟩ := hq.peers hi hi'
    rw [hegress] at hslot
    rcases hq.entry hk with ⟨hface, hfd⟩ | ⟨j, hj, hrole, hj', hno⟩
    · obtain ⟨hk', hagent', hchannel'⟩ := hk.of_face hface
      rw [refusesFrame_congr hfd]
      exact h.takes i c slot hslot k hk' (hagent'.symm.trans (hagent.trans hid)) (hchannel'.symm.trans hchannel)
    · -- An agent without an interface has nothing parked.
      have hij : i = j := h.staffed.distinct i j hi hj (hid.symm.trans (hagent.symm.trans hj'))
      subst hij
      obtain ⟨l, hl, hla, _⟩ := h.parked i c (by rw [hrole]; simp) (ne_nil_of_mem hslot)
      exact absurd hla (hno l hl)
  · obtain ⟨hi, hi', hegress⟩ := hq.parked h.tidy hne
    obtain ⟨hid, hsame⟩ := hq.peers hi hi'
    rw [hegress] at hne
    have hrole' : (s.directory i).role ≠ .client := by
      rcases hsame with hsame | hunknown
      · rwa [hsame] at hrole
      · rw [hunknown]
        simp
    obtain ⟨k, hk, hagent, hchannel⟩ := h.parked i c hrole' hne
    obtain ⟨hk', hagent', hchannel'⟩ := hq.keeps h.staffed hk hi' (hid.trans hagent.symm)
    exact ⟨k, hk', by rw [hagent', hagent, hid], hchannel'.trans hchannel⟩

theorem Clean.init (config : HubConfig) (port : HubPort) (routes : List BridgeRoute) (groups : List BridgeGroup) :
    Clean (Broker.init config port routes groups) := by
  have hblank : Clean (blank config port) :=
    ⟨.blank config port,
      ⟨fun _ _ hi => (Bool.false_ne_true hi).elim, fun _ _ _ => rfl, fun _ => EgressQueue.init_counted⟩,
      fun _ _ _ hslot => absurd hslot (by simp [blank]), fun _ _ _ hne => absurd rfl hne⟩
  obtain ⟨l, hl, -⟩ : Leads (fun _ _ => False) True (blank config port) (Broker.init config port routes groups) :=
    init_leads config port routes groups
  exact (hl.invariant (fun _ _ _ h => h.elim) (fun _ _ h hq => h.quiet hq) hblank).1

/-! ### Turns -/

theorem Suits.isLearn (he : HubEvent.isFrames e) {a : Act} (ha : Suits s₀ e s a) :
    a.isLearn = false := by
  cases a with
  | learn =>
    have hno := ha.1
    rw [he] at hno
    cases hno
  | _ => rfl

/-- A frame shown to clients goes to no agent. -/
theorem Staffed.suits_shown (h₀ : Staffed s₀) (he : HubEvent.isFrames e) (hs : Goes (Suits s₀ e) s₀ s)
    (hs' : Goes (Suits s₀ e) s s') {interfaceId : UInt32}
    (hr : r ∈ FrameRoutes.toInterface s.directory interfaceId) (f : FrameMessage) (routeFlags : UInt8) :
    Suits s₀ e s' (.forward r f routeFlags) := by
  have h := h₀.goes hs
  have hfirst := hs.after fun _ _ ha => ha.isLearn he
  have hsecond := hs'.after fun _ _ ha => ha.isLearn he
  obtain ⟨i, hi, hrole, hid, _⟩ := mem_toInterface hr
  refine ⟨he, hfirst.trans hsecond, .inr ⟨⟨fun k hk hagent => ?_, fun j hj => ?_⟩, fun k hk hagent => ?_⟩⟩
  · obtain ⟨hk', hagent', _⟩ := hk.of_face (hsecond.entries k hk.1).1
    have hother := h.agent hk' hi (hid.trans (hagent.symm.trans hagent'))
    rw [hrole] at hother
    cases hother
  · obtain ⟨hj', hjd⟩ := PeerDirectory.find_some hj
    obtain ⟨hju, hsame, hjrole⟩ := hsecond.peers j hj'
    have hji : j = i := h.distinct j i hju hi (hsame.symm.trans (hjd.trans hid.symm))
    subst hji
    rcases hjrole with hjrole | hunknown
    · exact hjrole.trans hrole
    · rw [hrole] at hunknown
      cases hunknown
  · obtain ⟨hi₀, hsame, hrole₀⟩ := hfirst.peers i hi
    have hother := h₀.agent hk hi₀ (hsame.symm.trans (hid.trans hagent.symm))
    rw [hother, hrole] at hrole₀
    rcases hrole₀ with hrole₀ | hrole₀ <;> cases hrole₀

/-- A frame is bridged into an interface that takes it. -/
theorem Staffed.suits_bridged (h₀ : Staffed s₀) (he : HubEvent.isFrames e)
    (hs : Goes (Suits s₀ e) s₀ s) (t : BridgeTarget) (f : FrameMessage) : BridgesInto (Suits s₀ e) s t f := by
  intro k agent hk htakes hagent
  refine ⟨trivial, he, ?_, .inl ⟨k, ⟨(InterfaceRegistry.findByName_some hk).1, ?_⟩, rfl, rfl, htakes⟩⟩
  · have hissued : After s (s.issueToken agent echoTokensBridgeOwner).1 := by
      have hlike := s.issueToken_still agent echoTokensBridgeOwner
      exact ⟨.of_eq rfl, fun i hi =>
        ⟨(hlike.peers i).inUse.symm.trans hi, (hlike.peers i).peerId, .inl (hlike.peers i).role⟩⟩
    exact (hs.after fun _ _ ha => ha.isLearn he).trans hissued
  · obtain ⟨huse, hid⟩ := PeerDirectory.find_some hagent
    have hnamed := (h₀.goes hs).named agent huse
    rw [hid] at hnamed
    exact decide_eq_false hnamed

/-- A client's frame is injected into an interface that takes it. -/
theorem Staffed.suits_injected (h₀ : Staffed s₀) (he : HubEvent.isFrames e)
    (hs : Goes (Suits s₀ e) s₀ s) (htakes : s.channelRefusesFrame i f = false)
    (hr : FrameRoutes.fromClient s.registry (s.directory i) f.channel = some r)
    (senderPeerId : UInt32) : InjectsInto (Suits s₀ e) s senderPeerId r f := by
  refine ⟨fun _ _ => trivial, fun s' _ hreg hs' => ?_⟩
  have hgoes : Goes (Suits s₀ e) s₀ s' := hs.trans hs'
  have hafter := hgoes.after fun _ _ ha => ha.isLearn he
  have h' := h₀.goes hgoes
  unfold FrameRoutes.fromClient at hr
  unfold channelRefusesFrame at htakes
  cases hid : (s.directory i).session.interfaceForChannel f.channel with
  | none =>
    rw [hid] at hr
    cases hr
  | some id =>
    rw [hid] at hr htakes
    obtain ⟨k, hk, rfl⟩ := Option.map_eq_some_iff.mp hr
    dsimp only at htakes
    rw [hk] at htakes
    by_cases hvirtual : (s.registry.entries k).isVirtual
    · -- The hub's own interfaces are no agent's.
      have hzero : (s.registry.entries k).agentPeerId = 0 := of_decide_eq_true hvirtual
      refine ⟨he, hafter, .inr ⟨⟨fun l hl hagent => ?_, fun j hj => ?_⟩, fun l hl hagent => ?_⟩⟩
      · exact of_decide_eq_false hl.2 (hagent.trans hzero)
      · obtain ⟨huse, hjd⟩ := PeerDirectory.find_some hj
        exact absurd (hjd.trans hzero) (h'.named j huse)
      · exact of_decide_eq_false hl.2 (hagent.trans hzero)
    · refine ⟨he, hafter, .inl ⟨k, ⟨?_, ?_⟩, ?_, ?_, ?_⟩⟩
      · rw [hreg]
        exact (InterfaceRegistry.findById_some hk).1
      · rw [hreg]
        simpa using hvirtual
      · rw [hreg]
      · rw [hreg]
      · rw [hreg]
        exact htakes

/-- An interface becomes classic only when no FD frame is parked for it. -/
def KeepsFd (s : Broker) (t : HubTurn) : Prop :=
  ∀ peerId m nowUs, t.event = .control peerId (.ifconfigReply m) nowUs → ∀ i, s.find peerId = some i →
    ∀ k, s.Learns i m k → m.fd = false → s.NoFdParked (s.pendingIfconfig k).interfaceId

/-- **What the hub does with frames in a turn.** -/
theorem Staffed.permits (h : Staffed s) {t : HubTurn} (hfd : s.KeepsFd t) :
    Permits (Suits { s with port := t.port } t.event) { s with port := t.port } t.event := by
  have h₀ : Staffed { s with port := t.port } := ⟨h.distinct, h.named, h.owned, h.served⟩
  cases he : t.event with
  | control peerId m nowUs =>
    intro i hi
    refine permitsControl_of _ (fun _ _ _ _ => trivial) (fun _ _ _ => trivial) (fun _ _ _ => trivial)
      (fun _ _ _ _ => trivial) (fun _ _ => trivial) fun r hr k hk => ⟨rfl, ?_⟩
    cases hm : r.fd with
    | true => exact .inl rfl
    | false => exact .inr (hfd peerId r nowUs (hr ▸ he) i hi k ⟨hk.role, hk.pending, hk.field, hk.mode⟩ hm)
  | frame peerId d =>
    cases d with
    | frames frames =>
      intro i _ s₁ hs₁ f _
      exact routesFrame_of (fun s₂ s₃ _ r routeFlags hs₂ hs₃ hr => h₀.suits_shown rfl (hs₁.trans hs₂) hs₃ hr f routeFlags)
        (fun s₂ t hs₂ => h₀.suits_bridged rfl (hs₁.trans hs₂) t f) (fun _ _ => trivial)
        fun s₂ hs₂ _ _ _ htakes r hr => h₀.suits_injected rfl (hs₁.trans hs₂) htakes hr _
    | content => trivial
  | writable peerId => exact fun i _ => ⟨rfl, .refl _⟩
  | tick nowUs => exact fun s₁ hs₁ i => ⟨rfl, hs₁.after fun _ _ ha => ha.isLearn rfl⟩
  | connected => trivial
  | disconnected => trivial

/-- What a frame handed over says of the interfaces before the event. -/
theorem Clean.output (h₀ : Staffed s₀) (h : Clean s) {a : Act} (ha : Suits s₀ e s a)
    {peerId : UInt32} {channel : UInt8} {taken : Bool}
    (hx : .datagram peerId channel (.frame f) taken ∈ s.outputs a) : HubEvent.isFrames e ∧ s₀.Takes peerId channel f := by
  -- An interface on the channel now was there before the event, and is the only one on the channel.
  have hback : ∀ k, After s₀ s → s.Exports k → (s.registry.entries k).agentPeerId = peerId →
      (s.registry.entries k).agentChannel = channel → s.Takes peerId channel f → s₀.Takes peerId channel f := by
    intro k hafter hk hagent hchannel htakes l hl hla hlc
    obtain ⟨hface, hfd⟩ := hafter.entries k hk.1
    obtain ⟨hk', hagent', hchannel'⟩ := hk.of_face hface
    rw [h₀.served l k hl hk' (hla.trans (hagent.symm.trans hagent')) (hlc.trans (hchannel.symm.trans hchannel'))]
    rw [← refusesFrame_congr hfd]
    exact htakes k hk hagent hchannel
  rcases mem_outputs hx with ⟨r, g, routeFlags, taken', rfl, heq⟩ | ⟨i, c, slot, taken', rfl, hslot, heq⟩
  · cases heq
    obtain ⟨he, hafter, hagent | hclient⟩ := ha
    · obtain ⟨k, hk, hka, hkc, _⟩ := id hagent
      exact ⟨he, hback k hafter hk hka hkc (h.staffed.toAgent_takes hagent)⟩
    · exact ⟨he, fun k hk hka _ => absurd hka (hclient.2 k hk)⟩
  · cases heq
    obtain ⟨he, hafter⟩ := ha
    refine ⟨he, ?_⟩
    by_cases hrole : (s.directory i).role = .client
    · intro k hk hka _
      obtain ⟨hi₀, hid, hrole₀⟩ := hafter.peers i (h.tidy.of_parked (ne_nil_of_mem hslot))
      have hother := h₀.agent hk hi₀ (hid.symm.trans hka.symm)
      rw [hother, hrole] at hrole₀
      rcases hrole₀ with hrole₀ | hrole₀ <;> cases hrole₀
    · obtain ⟨k, hk, hka, hkc⟩ := h.parked i channel hrole (ne_nil_of_mem hslot)
      exact hback k hafter hk hka hkc (h.takes i channel slot hslot)

/-- **No turn hands an FD frame to a classic bus**: not to one that was classic before it, nor to one that is
classic after it. -/
theorem Clean.turn (h : Clean s) {t : HubTurn} (hfresh : s.FreshId t) (hfd : s.KeepsFd t) :
    Clean (s.step t) ∧ ∀ peerId channel f taken, .datagram peerId channel (.frame f) taken ∈ (s.step t).port.log →
      s.Takes peerId channel f ∧ (s.step t).Takes peerId channel f := by
  have hturned : Clean { s with port := t.port } := h.quiet (P := fun _ _ => True) (.turned t)
  have hpermits := h.staffed.permits hfd
  obtain ⟨l, hl, hlog⟩ : Leads (Suits { s with port := t.port } t.event) True { s with port := t.port } (s.step t) :=
    handle_leads { s with port := t.port } t.event (fun _ => hturned.staffed.distinct) (fun _ => hfresh.connected) hpermits
  obtain ⟨hclean, hall⟩ := hl.invariant (fun _ _ h ha => h.act ha) (fun _ _ h hq => h.quiet hq) hturned
  refine ⟨hclean, fun peerId channel f taken hx => ?_⟩
  have hframe : .datagram peerId channel (.frame f) taken ∈ (s.step t).frameLog := mem_filter.mpr ⟨hx, rfl⟩
  rw [hlog] at hframe
  obtain ⟨s₁, a, hmem, hout⟩ := mem_handedOver hframe
  obtain ⟨he, htakes⟩ := Clean.output hturned.staffed (hall _ hmem) (hl.permitted s₁ a hmem) hout
  refine ⟨htakes, fun k hk hagent hchannel => ?_⟩
  -- An event that hands over frames teaches nothing.
  have hgoes : Goes (Suits { s with port := t.port } t.event) { s with port := t.port } (s.step t) := by
    refine (handle_deals _ ?_ ?_ hpermits).goes
    · cases hte : t.event <;> rw [hte] at he <;> first | rfl | cases he
    · cases hte : t.event <;> rw [hte] at he <;> first | rfl | cases he
  obtain ⟨hface, hfd'⟩ := (hgoes.after fun _ _ ha => ha.isLearn he).entries k hk.1
  obtain ⟨hk', hagent', hchannel'⟩ := hk.of_face hface
  rw [refusesFrame_congr hfd']
  exact htakes k hk' (hagent'.symm.trans hagent) (hchannel'.symm.trans hchannel)

/-! ### What is counted -/

/-- The drops of a route or a group. -/
def droppedOf (s : Broker) : BridgeCharge → ℕ
  | .route i => (s.bridges.slots i).dropped
  | .group g => (s.groups.slots g).dropped

/-- The interface of the name refuses the frame. -/
def refusesAt (s : Broker) (e : BridgeEndpoint) (f : FrameMessage) : Bool :=
  (s.registry.findByName e.agentName e.interfaceName).any fun k => (s.registry.entries k).refusesFrame f.frameFlags

theorem droppedOf_chargeDropped (charge charge' : BridgeCharge) :
    (s.chargeDropped charge).droppedOf charge' = s.droppedOf charge' + if charge = charge' then 1 else 0 := by
  cases charge with
  | route i =>
    cases charge' with
    | route j =>
      by_cases hij : i = j
      · subst hij
        simp [chargeDropped, droppedOf, BridgeRoutes.modify]
      · simp [chargeDropped, droppedOf, BridgeRoutes.modify, Function.update_of_ne (Ne.symm hij), hij]
    | group g => simp [chargeDropped, droppedOf]
  | group g =>
    cases charge' with
    | route j => simp [chargeDropped, droppedOf]
    | group h =>
      by_cases hgh : g = h
      · subst hgh
        simp [chargeDropped, droppedOf, BridgeGroups.modify]
      · simp [chargeDropped, droppedOf, BridgeGroups.modify, Function.update_of_ne (Ne.symm hgh), hgh]

theorem droppedOf_chargeForwarded (charge charge' : BridgeCharge) :
    (s.chargeForwarded charge).droppedOf charge' = s.droppedOf charge' := by
  cases charge with
  | route i =>
    cases charge' with
    | route j =>
      by_cases hij : j = i
      · subst hij
        simp [chargeForwarded, droppedOf, BridgeRoutes.modify]
      · simp [chargeForwarded, droppedOf, BridgeRoutes.modify, Function.update_of_ne hij]
    | group g => rfl
  | group g =>
    cases charge' with
    | route j => rfl
    | group h =>
      by_cases hgh : h = g
      · subst hgh
        simp [chargeForwarded, droppedOf, BridgeGroups.modify]
      · simp [chargeForwarded, droppedOf, BridgeGroups.modify, Function.update_of_ne hgh]

/-- Forwarding on a lossy route leaves the counters of routes and groups. -/
theorem forwardFrame_droppedOf (hr : r.reliable = false) (f : FrameMessage) (routeFlags : UInt8)
    (charge : BridgeCharge) : (s.forwardFrame r f routeFlags).1.droppedOf charge = s.droppedOf charge := by
  have hbinding : ∀ (s : Broker) (i : PeerSlot) (channel : UInt8) (g : ChannelBinding → ChannelBinding),
      (s.modifyBinding i channel g).droppedOf charge = s.droppedOf charge := by
    intro s i channel g
    unfold modifyBinding
    split
    · split <;> rfl
    · rfl
  refine s.forwardFrame_keeps (Q := fun s' => s'.droppedOf charge = s.droppedOf charge) (.inl hr) f routeFlags rfl
    (fun _ _ h => h) (fun _ _ h => h) (fun s' i f h => ?_) (fun s' i h => (hbinding _ i r.channel _).trans h) fun _ _ _ h => h
  unfold enqueueFrame
  dsimp only
  split
  · exact (hbinding _ i _ _).trans h
  · exact h

/-- **A frame for an interface that refuses it is counted**, and the interfaces stay as they are. -/
theorem bridgeInto_counts (t : BridgeTarget) (f : FrameMessage) (charge : BridgeCharge) :
    s.droppedOf charge + (if t.charge = charge ∧ s.refusesAt t.destination f then 1 else 0)
      ≤ (s.bridgeInto t f).droppedOf charge
    ∧ s.registry.Steady (s.bridgeInto t f).registry := by
  have hcounted : s.droppedOf charge + (if t.charge = charge ∧ s.refusesAt t.destination f then 1 else 0)
      ≤ (s.chargeDropped t.charge).droppedOf charge := by
    rw [droppedOf_chargeDropped]
    split <;> split <;> simp_all
  have hreg : s.registry.Steady (s.chargeDropped t.charge).registry := (s.charge_fixed t.charge).2.registry
  unfold bridgeInto
  cases hk : s.registry.findByName t.destination.agentName t.destination.interfaceName with
  | none => exact ⟨hcounted, hreg⟩
  | some k =>
    dsimp only
    by_cases hrefuses : (s.registry.entries k).refusesFrame f.frameFlags
    · rw [if_pos hrefuses]
      exact ⟨hcounted, hreg⟩
    rw [if_neg hrefuses]
    cases s.find (s.registry.entries k).agentPeerId with
    | none => exact ⟨hcounted, hreg⟩
    | some agent =>
      have hno : ¬ (t.charge = charge ∧ s.refusesAt t.destination f = true) := by
        rintro ⟨_, hat⟩
        rw [refusesAt, hk] at hat
        exact hrefuses hat
      dsimp only
      rw [if_neg hno, Nat.add_zero]
      split
      · refine ⟨?_, ((s.issueToken agent echoTokensBridgeOwner).1.charge_fixed t.charge).2.registry⟩
        rw [droppedOf_chargeDropped]
        exact Nat.le_add_right _ _
      · refine ⟨?_, ?_⟩
        · rw [droppedOf_chargeForwarded, forwardFrame_droppedOf rfl]
          exact Nat.le_refl _
        · exact InterfaceRegistry.Steady.trans (forwardFrame_steady (s := (s.issueToken agent echoTokensBridgeOwner).1)
            (.inl rfl) f _) (charge_fixed _ t.charge).1.registry

theorem Like.refusesAt (hl : Like s s') (h : s.registry.Steady s'.registry) (e : BridgeEndpoint) (f : FrameMessage) :
    s'.refusesAt e f = s.refusesAt e f := by
  unfold Broker.refusesAt
  rw [hl.findByName]
  congr 1
  funext k
  exact refusesFrame_congr (h.fd k) f.frameFlags

/-- The loop over the targets of a frame. -/
theorem bridgeTargets_counts (targets : List BridgeTarget) (f : FrameMessage) (charge : BridgeCharge) (s : Broker) :
    s.droppedOf charge + targets.countP (fun t => t.charge = charge ∧ s.refusesAt t.destination f)
      ≤ (targets.foldl (fun s t => s.bridgeInto t f) s).droppedOf charge := by
  induction targets generalizing s with
  | nil => exact Nat.le_refl _
  | cons t targets ih =>
    obtain ⟨hone, hsteady⟩ := s.bridgeInto_counts t f charge
    have hrest := ih (s.bridgeInto t f)
    simp only [(s.bridgeInto_like t f).refusesAt hsteady] at hrest
    rw [countP_cons, foldl_cons]
    simp only [decide_eq_true_eq]
    omega

theorem Like.endpointLeasedToAnother (h : Like s s') (e : BridgeEndpoint) (clientPeerId : UInt32) :
    s'.endpointLeasedToAnother e clientPeerId = s.endpointLeasedToAnother e clientPeerId := by
  rw [endpointLeasedToAnother_eq, endpointLeasedToAnother_eq, h.interfaceOf]
  congr 1
  funext id
  exact h.leasedToAnother id clientPeerId

/-- A member of a group that refuses a frame: it is counted for the group, unless a lease drops it before. -/
theorem writeIntoMember_counts (writerPeerId : UInt32) (g : GroupSlot) (f : FrameMessage) (m : BridgeGroupMember) :
    s.droppedOf (.group g) + (if m.receives ∧ !s.endpointLeasedToAnother m.endpoint writerPeerId
        ∧ s.refusesAt m.endpoint f then 1 else 0) ≤ (writeIntoMember writerPeerId g f s m).droppedOf (.group g)
    ∧ (writeIntoMember writerPeerId g f s m).metrics.transactions.leaseFrameDrops = s.metrics.transactions.leaseFrameDrops
      + UInt64.ofNat (if m.receives ∧ s.endpointLeasedToAnother m.endpoint writerPeerId then 1 else 0)
    ∧ s.registry.Steady (writeIntoMember writerPeerId g f s m).registry := by
  by_cases hreceives : m.receives
  swap
  · have hstays : writeIntoMember writerPeerId g f s m = s := if_pos (by simpa using hreceives)
    rw [hstays, if_neg fun h => hreceives h.1, if_neg fun h => hreceives h.1]
    exact ⟨Nat.le_refl _, (UInt64.add_zero _).symm, .refl _⟩
  by_cases hleased : s.endpointLeasedToAnother m.endpoint writerPeerId
  · have hdrop : writeIntoMember writerPeerId g f s m = s.perform .suppress := by
      rw [writeIntoMember, if_neg (by simp [hreceives]), if_pos hleased]
      rfl
    rw [hdrop, if_neg (by simp [hleased]), if_pos ⟨hreceives, hleased⟩]
    exact ⟨Nat.le_refl _, rfl, .refl _⟩
  · have hinto : writeIntoMember writerPeerId g f s m = s.bridgeInto ⟨m.endpoint, .group g⟩ f := by
      rw [writeIntoMember, if_neg (by simp [hreceives]), if_neg hleased]
    obtain ⟨hcount, hsteady⟩ := s.bridgeInto_counts ⟨m.endpoint, .group g⟩ f (.group g)
    rw [hinto, bridgeInto_leaseFrameDrops]
    simp only [hreceives, hleased, true_and, Bool.not_false] at hcount ⊢
    exact ⟨hcount, (UInt64.add_zero _).symm, hsteady⟩

/-- The loop over the members of a group. -/
theorem writeMembers_counts (writerPeerId : UInt32) (g : GroupSlot) (f : FrameMessage) (members : List BridgeGroupMember)
    (s : Broker) :
    s.droppedOf (.group g) + members.countP (fun m => m.receives ∧ !s.endpointLeasedToAnother m.endpoint writerPeerId
        ∧ s.refusesAt m.endpoint f) ≤ (members.foldl (writeIntoMember writerPeerId g f) s).droppedOf (.group g)
    ∧ (members.foldl (writeIntoMember writerPeerId g f) s).metrics.transactions.leaseFrameDrops
      = s.metrics.transactions.leaseFrameDrops
        + UInt64.ofNat (members.countP fun m => m.receives ∧ s.endpointLeasedToAnother m.endpoint writerPeerId) := by
  induction members generalizing s with
  | nil => exact ⟨Nat.le_refl _, (UInt64.add_zero _).symm⟩
  | cons m members ih =>
    obtain ⟨hone, hlease, hsteady⟩ := s.writeIntoMember_counts writerPeerId g f m
    obtain ⟨hrest, hleases⟩ := ih (writeIntoMember writerPeerId g f s m)
    have hlike := s.writeIntoMember_like writerPeerId g f m
    simp only [hlike.refusesAt hsteady, hlike.endpointLeasedToAnother] at hrest hleases
    rw [countP_cons, countP_cons, foldl_cons]
    simp only [decide_eq_true_eq]
    refine ⟨by omega, ?_⟩
    rw [hleases, hlease, UInt64.ofNat_add, UInt64.add_assoc]
    congr 1
    exact UInt64.add_comm _ _

/-- A client's frame for an interface that refuses it. -/
theorem routeClientFrame_counts (hwrite : (s.directory i).session.canWrite f.channel)
    (herr : f.canId &&& frameCanIdFlagErr = 0) (hlease : s.channelLeasedToAnother i f.channel = false)
    (hgroup : s.groupOfChannel i f.channel = none) (hrefuses : s.channelRefusesFrame i f) :
    (s.routeClientFrame i f).1.metrics.framesDropped = s.metrics.framesDropped + 1
      ∧ (s.routeClientFrame i f).1.port = s.port := by
  rw [routeClientFrame, if_neg (by simp [hwrite, herr]), if_neg (by simp [hlease]), hgroup]
  rw [if_pos hrefuses]
  exact ⟨rfl, rfl⟩

/-! ### Runs -/

/-- **In a run in which no interface becomes classic while an FD frame is parked for it, no frame is handed to the
channel of an interface that refuses it**, by what is known of it before the turn and after it. A frame that is
refused is counted: a client's among the hub's drops, a bridged one with the route or the group it is bridged for, one
written to a group with the group, unless a lease drops it before, which is counted, too. -/
theorem fd_frames_avoid_classic (config : HubConfig) (port : HubPort) (routes : List BridgeRoute)
    (groups : List BridgeGroup) :
    (∀ turns, Run.Along step (fun s t => s.FreshId t ∧ s.KeepsFd t) (init config port routes groups) turns →
      Run.Along step (fun s t => ∀ peerId channel f taken,
        .datagram peerId channel (.frame f) taken ∈ (s.step t).port.log →
          s.Takes peerId channel f ∧ (s.step t).Takes peerId channel f) (init config port routes groups) turns)
    ∧ (∀ (s : Broker) (i : PeerSlot) (f : FrameMessage), (s.directory i).session.canWrite f.channel →
      f.canId &&& frameCanIdFlagErr = 0 → s.channelLeasedToAnother i f.channel = false →
      s.groupOfChannel i f.channel = none → s.channelRefusesFrame i f →
      (s.routeClientFrame i f).1.metrics.framesDropped = s.metrics.framesDropped + 1
        ∧ (s.routeClientFrame i f).1.port = s.port)
    ∧ (∀ (s : Broker) (targets : List BridgeTarget) (f : FrameMessage) (charge : BridgeCharge),
      s.droppedOf charge + targets.countP (fun t => t.charge = charge ∧ s.refusesAt t.destination f)
        ≤ (targets.foldl (fun s t => s.bridgeInto t f) s).droppedOf charge)
    ∧ ∀ (s : Broker) (writerPeerId : UInt32) (g : GroupSlot) (f : FrameMessage) (members : List BridgeGroupMember),
      s.droppedOf (.group g) + members.countP (fun m => m.receives ∧ !s.endpointLeasedToAnother m.endpoint writerPeerId
          ∧ s.refusesAt m.endpoint f) ≤ (members.foldl (writeIntoMember writerPeerId g f) s).droppedOf (.group g)
      ∧ (members.foldl (writeIntoMember writerPeerId g f) s).metrics.transactions.leaseFrameDrops
        = s.metrics.transactions.leaseFrameDrops
          + UInt64.ofNat (members.countP fun m => m.receives ∧ s.endpointLeasedToAnother m.endpoint writerPeerId) := by
  refine ⟨fun turns h => ?_, fun s i f hwrite herr hlease hgroup hrefuses => ?_, fun s targets f charge => ?_,
    fun s writerPeerId g f members => ?_⟩
  · exact Run.Along.carry (I := Clean) (fun _ _ hs ht => hs.turn ht.1 ht.2) h (.init config port routes groups)
  · exact routeClientFrame_counts hwrite herr hlease hgroup hrefuses
  · exact bridgeTargets_counts targets f charge s
  · exact writeMembers_counts writerPeerId g f members s

/-- A frame with the FD flag. -/
def fdFrame : FrameMessage := ⟨1, 0, 0, frameFlagFd, 0, []⟩

/-- An agent with an interface that carries CAN FD, and a client that writes to it by a lossy channel. -/
def fdBus : List HubTurn :=
  agentJoins 2 { agentName := [97], interfaceNames := [[98]], fdReported := true, fdInterfaces := 1 } ++
  [{ event := .connected 3 { isLocal := true } 0 },
   { event := .control 3 (.hello (some { role := .client, capabilities := 7 })) 0 },
   { event := .control 3 (.openInterface { interfaceId := 1, flags := 2 }) 0 }]

/-- The client writes an FD frame. -/
def fdWritten : HubTurn := { event := .frame 3 (.frames [fdFrame]) }

/-- The client asks for CAN FD to be switched off. -/
def fdConfigured : HubTurn := { event := .control 3 (.configure { agentName := [97], interfaceName := [98], op := 0 }) 0 }

/-- The agent reports that it was. -/
def fdReported : HubTurn :=
  { event := .control 2 (.ifconfigReply
      { requestId := 1, status := .ok, settings := { fields := 0x10, ctrlmodeMask := 0x20, ctrlmodeFlags := 0 } }) 0 }

set_option maxRecDepth 100000 in
theorem fdReported_facts : Run.Along step FreshId small (fdBus ++ [fdWritten, fdConfigured])
    ∧ HubOutput.datagram 2 0 (.frame { fdFrame with routeFlags := 4 }) true ∈ ((small.run fdBus).step fdWritten).port.log
    ∧ (∀ i, ((small.run (fdBus ++ [fdWritten, fdConfigured])).directory i).egress.channels 0 = [])
    ∧ (∀ k, ((small.run (fdBus ++ [fdWritten, fdConfigured])).registry.entries k).agentChannel = 0)
    ∧ (((small.run (fdBus ++ [fdWritten, fdConfigured])).step fdReported).registry.entries 0).refusesFrame
      fdFrame.frameFlags := by
  decide +kernel

/-- An FD frame is handed to a bus that carries CAN FD, before it is switched off. -/
theorem fd_frames_avoid_classic_fd_bus :
    (HubOutput.datagram 2 0 (.frame { fdFrame with routeFlags := 4 }) true ∈ ((small.run fdBus).step fdWritten).port.log
      ∧ ((small.run fdBus).step fdWritten).Takes 2 0 { fdFrame with routeFlags := 4 })
    ∧ (((small.run (fdBus ++ [fdWritten, fdConfigured])).step fdReported).registry.entries 0).refusesFrame
      fdFrame.frameFlags := by
  obtain ⟨hfresh, hsent, hparked, hchannel, hrefuses⟩ := fdReported_facts
  have hall := fd_frames_avoid_classic {} { answer := fun _ => true, pinned := fun _ => none, firstContacts := fun _ => 0 }
    [] []
  have hquiet : ∀ t ∈ fdBus ++ [fdWritten, fdConfigured], ∀ s, KeepsFd s t := by
    intro t ht s
    simp only [fdBus, agentJoins, cons_append, nil_append, mem_cons, not_mem_nil, or_false] at ht
    rcases ht with rfl | rfl | rfl | rfl | rfl | rfl | rfl | rfl <;> exact fun _ _ _ he => nomatch he
  -- Nothing is parked when the interface becomes classic.
  have hkeeps : KeepsFd (small.run (fdBus ++ [fdWritten, fdConfigured])) fdReported := by
    intro _ _ _ _ _ _ _ _ _ k _ _ i _ slot hslot
    rw [hchannel k, hparked i] at hslot
    cases hslot
  have hrun := hall.1 (fdBus ++ [fdWritten, fdConfigured] ++ [fdReported])
    (Run.Along.append.mpr ⟨Run.Along.and_forall hfresh hquiet, ⟨trivial, hkeeps⟩, trivial⟩)
  have hwritten := (Run.Along.append.mp (Run.Along.append.mp hrun).1).2.1
  exact ⟨⟨hsent, (hwritten 2 0 _ true hsent).2⟩, hrefuses⟩

/-- The client's FD frame is parked, since the agent's transport has no room. Then the agent reports that CAN FD was
switched off, and later has room. -/
def fdOff : List HubTurn := [{ fdWritten with answer := fun _ => false }, fdConfigured, fdReported]

set_option maxRecDepth 100000 in
/-- **An FD frame is handed to a classic bus**: it was parked before the interface became classic, and is taken from
the queue without another look. -/
theorem fd_frames_avoid_classic_fails :
    ∃ k, ((small.run (fdBus ++ fdOff)).registry.findByAgentChannel 2 0 = some k
      ∧ ((small.run (fdBus ++ fdOff)).registry.entries k).refusesFrame fdFrame.frameFlags)
    ∧ HubOutput.datagram 2 0 (.frame { fdFrame with routeFlags := 4 }) true
      ∈ ((small.run (fdBus ++ fdOff)).step { event := .writable 2 }).port.log
    ∧ ((small.run (fdBus ++ fdOff)).step { event := .writable 2 }).metrics.framesDropped = 0 := by
  refine ⟨0, ?_⟩
  decide +kernel

end Broker
end CanHub
