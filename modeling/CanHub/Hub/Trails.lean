/-
# Everything that happens, one change after the other

A run of the hub is a sequence of turns, a turn a sequence of changes: acts with frames,
and quiet ones (`Quiet`) that hand nothing to the transport but control messages and
modes. `Trail` lists them all, each with the state it happens in, so that a result can
speak of the moment a frame is handed over, and not only of the states between the
turns. Every run has a trail (`run_trail`), whose acts are permitted by what the
caller says of the events.

A quiet change leaves the frames of every peer, unless the peer comes or goes
(`Quiet.frames`), and it leaves the interfaces there are, unless an agent or a group
comes or goes (`Quiet.entries`).
-/
import CanHub.Hub.Departures
import CanHub.Hub.Forwarding

namespace CanHub

open List
namespace Broker

/-! ### What is handed over -/

/-- What an act hands to the transport. -/
def outputs (s : Broker) (a : Act) : List HubOutput := (s.perform a).port.log.drop s.port.log.length

theorem outputs_eq {s : Broker} {a : Act} {o : List HubOutput} (h : (s.perform a).port.log = s.port.log ++ o) :
    s.outputs a = o := by
  rw [outputs, h, drop_left]

/-- The frames in the log of the turn. -/
def frameLog (s : Broker) : List HubOutput := s.port.log.filter (·.isFrame)

/-- The frames that the changes hand to the transport. -/
def handedOver (l : List (Broker × Option Act)) : List HubOutput :=
  l.flatMap fun x => (x.2.elim [] x.1.outputs).filter (·.isFrame)

variable {l : List (Broker × Option Act)}

/-- A frame handed over is put out by an act. -/
theorem mem_handedOver {x : HubOutput} (h : x ∈ handedOver l) :
    ∃ s a, (s, some a) ∈ l ∧ x ∈ s.outputs a := by
  obtain ⟨⟨s, _ | a⟩, hmem, hx⟩ := mem_flatMap.mp h
  · cases hx
  · exact ⟨s, a, hmem, (mem_filter.mp hx).1⟩

theorem perform_frameLog (s : Broker) (a : Act) : (s.perform a).frameLog = s.frameLog ++ handedOver [(s, some a)] := by
  obtain ⟨o, ho, _⟩ := (s.perform_still a).log
  simp [frameLog, handedOver, outputs_eq ho, ho]

theorem Untouched.frameLog {s s' : Broker} (h : Untouched s s') : s'.frameLog = s.frameLog := by
  obtain ⟨o, ho, hno⟩ := h.log
  have hnone : o.filter (·.isFrame) = [] := filter_eq_nil_iff.mpr fun x hx => by simp [hno x hx]
  rw [Broker.frameLog, ho, filter_append, hnone, append_nil, Broker.frameLog]

/-! ### Trails -/

/-- A change that does nothing with frames; its mark is permitted. -/
inductive Quiet (P : Broker → Act → Prop) (distinct : Prop) : Broker → Broker → Prop
  | moved {s s'} (h : Move (fun s a => a.isMark ∧ P s a) s s') : Quiet P distinct s s'
  | left {s s'} (h : Leave s s') : Quiet P distinct s s'
  | registered {n s s'} (h : Registers distinct n s s') : Quiet P distinct s s'
  | connected {s i peerId info nowUs} (hi : (s.directory i).inUse = false)
      (hnew : distinct → peerId ≠ 0 ∧ ∀ j, (s.directory j).inUse → (s.directory j).peerId ≠ peerId) :
      Quiet P distinct s (s.modifyPeer i fun _ => newPeer peerId info nowUs)
  | turned {s} (t : HubTurn) : Quiet P distinct s { s with port := t.port }

/-- The changes from one state to another, each with the state it happens in; a quiet one is `none`. -/
inductive Trail (P : Broker → Act → Prop) (distinct : Prop) : Broker → List (Broker × Option Act) → Broker → Prop
  | refl (s) : Trail P distinct s [] s
  | acted {s l s₁ a} (h : Trail P distinct s l s₁) (ha : P s₁ a) :
      Trail P distinct s (l ++ [(s₁, some a)]) (s₁.perform a)
  | quiet {s l s₁ s₂} (h : Trail P distinct s l s₁) (hq : Quiet P distinct s₁ s₂) :
      Trail P distinct s (l ++ [(s₁, none)]) s₂

variable {s s' s'' : Broker} {P : Broker → Act → Prop} {distinct : Prop}

namespace Trail

theorem trans {l' : List (Broker × Option Act)} (h : Trail P distinct s l s') (h' : Trail P distinct s' l' s'') :
    Trail P distinct s (l ++ l') s'' := by
  induction h' with
  | refl => simpa using h
  | acted _ ha ih =>
    rw [← append_assoc]
    exact .acted ih ha
  | quiet _ hq ih =>
    rw [← append_assoc]
    exact .quiet ih hq

theorem single (h : Quiet P distinct s s') : Trail P distinct s [(s, none)] s' := .quiet (.refl s) h

/-- What every change keeps holds in every state of the trail. -/
theorem invariant {I : Broker → Prop} (h : Trail P distinct s l s')
    (hact : ∀ s a, I s → P s a → I (s.perform a)) (hquiet : ∀ s s', I s → Quiet P distinct s s' → I s') (hs : I s) :
    I s' ∧ ∀ x ∈ l, I x.1 := by
  induction h with
  | refl => exact ⟨hs, by simp⟩
  | acted _ ha ih =>
    refine ⟨hact _ _ ih.1 ha, fun x hx => ?_⟩
    rcases mem_append.mp hx with hx | hx
    · exact ih.2 x hx
    · rw [mem_singleton.mp hx]
      exact ih.1
  | quiet _ hq ih =>
    refine ⟨hquiet _ _ ih.1 hq, fun x hx => ?_⟩
    rcases mem_append.mp hx with hx | hx
    · exact ih.2 x hx
    · rw [mem_singleton.mp hx]
      exact ih.1

/-- Every act of the trail is permitted. -/
theorem permitted (h : Trail P distinct s l s') :
    ∀ s₁ a, (s₁, some a) ∈ l → P s₁ a := by
  induction h with
  | refl => simp
  | acted _ ha ih =>
    intro s₁ a hx
    rcases mem_append.mp hx with hx | hx
    · exact ih s₁ a hx
    · cases mem_singleton.mp hx
      exact ha
  | quiet _ _ ih =>
    intro s₁ a hx
    rcases mem_append.mp hx with hx | hx
    · exact ih s₁ a hx
    · cases mem_singleton.mp hx

end Trail

/-- A change is an act, or quiet. -/
theorem Move.act_or_quiet (h : Move P s s') :
    (∃ a, P s a ∧ s' = s.perform a) ∨ Move (fun s a => a.isMark ∧ P s a) s s' := by
  cases h with
  | acted ha => exact .inl ⟨_, ha, rfl⟩
  | alike ha => exact .inr (.alike ha)
  | said ha hP => exact .inr (.said ha ⟨rfl, hP⟩)
  | forgotten clientPeerId => exact .inr (.forgotten clientPeerId)
  | requested hreq ht => exact .inr (.requested hreq ht)
  | granted txnId hp hc => exact .inr (.granted txnId hp hc)
  | ended hf hcounts => exact .inr (.ended hf (hcounts.imp_right fun hP => ⟨rfl, hP⟩))
  | orphaned hp => exact .inr (.orphaned hp)
  | adopted role hi => exact .inr (.adopted role hi)
  | opened hi hrole hk hid hagent hname hrel ho hP =>
    exact .inr (.opened hi hrole hk hid hagent hname hrel ho ⟨rfl, hP⟩)
  | closed channel hrole hP => exact .inr (.closed channel hrole ⟨rfl, hP⟩)
  | dropped hrole ht hs => exact .inr (.dropped hrole ht hs)
  | groupClosed hk hname => exact .inr (.groupClosed hk hname)
  | reattached k i hP => exact .inr (.reattached k i ⟨rfl, hP⟩)

/-- A trail leads from the one state to the other, and the log has its frames after those it had. -/
def Leads (P : Broker → Act → Prop) (distinct : Prop) (s s' : Broker) : Prop :=
  ∃ l, Trail P distinct s l s' ∧ s'.frameLog = s.frameLog ++ handedOver l

namespace Leads

theorem refl (s : Broker) : Leads P distinct s s := ⟨[], .refl s, (append_nil _).symm⟩

theorem trans (h : Leads P distinct s s') (h' : Leads P distinct s' s'') : Leads P distinct s s'' := by
  obtain ⟨l, hl, hlog⟩ := h
  obtain ⟨l', hl', hlog'⟩ := h'
  exact ⟨l ++ l', hl.trans hl', by rw [hlog', hlog, append_assoc, handedOver, handedOver, handedOver, flatMap_append]⟩

theorem act {a : Act} (ha : P s a) : Leads P distinct s (s.perform a) :=
  ⟨_, .acted (.refl s) ha, s.perform_frameLog a⟩

/-- A quiet change puts out no frame, unless a turn begins. -/
theorem quiet (hq : Quiet P distinct s s') (hlog : s'.frameLog = s.frameLog) : Leads P distinct s s' :=
  ⟨_, .single hq, by rw [hlog]; exact (append_nil _).symm⟩

end Leads

theorem Move.leads (h : Move P s s') : Leads P distinct s s' := by
  rcases h.act_or_quiet with ⟨a, ha, rfl⟩ | hq
  · exact .act ha
  · refine .quiet (.moved hq) ?_
    rcases hq.frames with hu | ⟨a, ha, rfl⟩ | ⟨c, rfl⟩
    · exact hu.frameLog
    · cases a with
      | mark => rfl
      | _ => cases ha.1
    · rfl

theorem Leave.leads (h : Leave s s') : Leads P distinct s s' := by
  refine .quiet (.left h) ?_
  obtain ⟨s₁, hu, hport, _⟩ := h.frames
  rw [frameLog, hport]
  exact hu.frameLog

theorem Goes.leads (h : Goes P s s') : Leads P distinct s s' := by
  induction h with
  | refl => exact .refl s
  | tail _ hstep ih =>
    rcases hstep with hm | hleave
    · exact ih.trans hm.leads
    · exact ih.trans hleave.leads

theorem Passes.leads {n : ℕ} (h : Passes P distinct n s s') : Leads P distinct s s' := by
  induction h with
  | goes hg => exact hg.leads
  | register _ hr hg ih => exact (ih.trans (.quiet (.registered hr) (by cases hr <;> rfl))).trans hg.leads

/-- **Every event has a trail.** -/
theorem handle_leads (s : Broker) (e : HubEvent) (hd : distinct → DistinctPeers s)
    (hfresh : distinct → ∀ peerId info nowUs, e = .connected peerId info nowUs → peerId ≠ 0 ∧ s.find peerId = none)
    (hP : Permits P s e) : Leads P distinct s (s.handle e) := by
  by_cases he : HubEvent.isLater e
  · obtain ⟨n, _, hp⟩ := s.handle_passes hd he hP
    exact hp.leads
  · cases e with
    | connected peerId info nowUs =>
      simp only [handle]
      obtain ⟨s₁, ⟨hgoes, _⟩, hcase⟩ := s.onPeerConnected_cases (P := P) peerId info nowUs
      rcases hcase with hcase | ⟨i, hi, hcase⟩
      · rw [hcase]
        exact hgoes.leads
      · rw [hcase]
        refine hgoes.leads.trans (.quiet (.connected hi fun h => ?_) rfl)
        obtain ⟨h0, hnone⟩ := hfresh h peerId info nowUs rfl
        exact ⟨h0, fun j => hgoes.fresh hnone⟩
    | _ => exact absurd rfl he

/-- What a turn promises of a connection. -/
theorem FreshId.connected {t : HubTurn} (h : s.FreshId t) (peerId : UInt32) (info : HubPeerConnectInfo) (nowUs : ℕ)
    (he : t.event = .connected peerId info nowUs) : peerId ≠ 0 ∧ s.find peerId = none := by
  unfold FreshId at h
  rw [he] at h
  exact h

/-- **Every turn has a trail**, whose frames are in the log of the turn. -/
theorem step_trail (s : Broker) (t : HubTurn) (hd : distinct → DistinctPeers s) (hfresh : distinct → s.FreshId t)
    (hP : Permits P { s with port := t.port } t.event) :
    ∃ l, Trail P distinct s l (s.step t) ∧ handedOver l = (s.step t).frameLog := by
  have hturned : Trail P distinct s _ { s with port := t.port } := .single (.turned t)
  obtain ⟨l, hl, hlog⟩ := handle_leads { s with port := t.port } t.event hd (fun h => (hfresh h).connected) hP
  exact ⟨_, hturned.trans hl, hlog.symm⟩

/-- The turn may do what it does. -/
abbrev PermitsTurn (P : Broker → Act → Prop) (s : Broker) (t : HubTurn) : Prop :=
  Permits P { s with port := t.port } t.event

/-- The frames in the logs of the turns. -/
def frameLogs : Broker → List HubTurn → List HubOutput
  | _, [] => []
  | s, t :: turns => (s.step t).frameLog ++ frameLogs (s.step t) turns

/-- **Every run has a trail**, whose frames are in the logs of its turns. -/
theorem run_trail (turns : List HubTurn) (s : Broker) (hd : distinct → DistinctPeers s)
    (h : Run.Along step (fun s t => (distinct → s.FreshId t) ∧ PermitsTurn P s t) s turns) :
    ∃ l, Trail P distinct s l (s.run turns) ∧ handedOver l = s.frameLogs turns := by
  induction turns generalizing s with
  | nil => exact ⟨[], .refl s, rfl⟩
  | cons t turns ih =>
    obtain ⟨l, hl, hlog⟩ := s.step_trail t hd h.1.1 h.1.2
    obtain ⟨l', hl', hlog'⟩ := ih (s.step t) (fun hdist => (hd hdist).step (h.1.1 hdist)) h.2
    exact ⟨_, hl.trans hl', by rw [frameLogs, ← hlog, ← hlog', handedOver, handedOver, handedOver, flatMap_append]⟩

/-- The hub before it has loaded what the bridge store has. -/
def blank (config : HubConfig) (port : HubPort) : Broker := { config, port }

/-- **The hub's start has a trail**: the groups are loaded. -/
theorem init_leads (config : HubConfig) (port : HubPort) (routes : List BridgeRoute) (groups : List BridgeGroup) :
    Leads P distinct (blank config port) (init config port routes groups) := by
  unfold init
  split
  · exact .refl _
  have hload : ∀ (groups : List BridgeGroup) (s : Broker), (∀ i, (s.directory i).inUse = false) →
      Leads P distinct s (groups.foldl loadGroup s) := by
    intro groups
    induction groups with
    | nil => exact fun s _ => .refl s
    | cons g groups ih =>
      intro s hvacant
      have hone : ∃ n, Passes P distinct n s (loadGroup s g) := by
        unfold loadGroup
        split
        · rename_i restored _
          have hrestored : Goes P s { s with groups := restored } := (s.bridging_fixed s.bridges restored).goes
          -- No client is there whose channels could come back.
          obtain ⟨n, _, hopen, _⟩ := openGroupInterface_runs { s with groups := restored } (P := P) g.name
            fun n s' k hs' _ _ i hi => by
              have hi' := (hs'.back hi).1
              rw [hvacant i] at hi'
              cases hi'
          exact ⟨n, Passes.after_goes hrestored hopen⟩
        · exact ⟨0, .goes .refl⟩
      obtain ⟨n, hn⟩ := hone
      refine hn.leads.trans (ih (loadGroup s g) fun i => ?_)
      by_contra hi
      have hi' := (hn.back (by simpa using hi)).1
      rw [hvacant i] at hi'
      cases hi'
  have hgroups := hload (groups.take bridgeGroupsMax)
    { blank config port with bridges := (routes.take bridgeRoutesMax).foldl BridgeRoutes.set {} } fun _ => rfl
  have hroutes : Goes P (blank config port)
      { blank config port with bridges := (routes.take bridgeRoutesMax).foldl BridgeRoutes.set {} } :=
    (bridging_fixed _ _ (blank config port).groups).goes
  exact hroutes.leads.trans hgroups

/-! ### Quiet changes -/

/-- The interfaces there are were there before, and the same is known of them. -/
def SameEntries (s s' : Broker) : Prop := ∀ k, (s'.registry.entries k).inUse →
  (s'.registry.entries k).face = (s.registry.entries k).face ∧ (s'.registry.entries k).fd = (s.registry.entries k).fd

theorem SameEntries.of_steady (h : s.registry.Steady s'.registry) : SameEntries s s' :=
  fun k _ => ⟨h.entries k, h.fd k⟩

theorem SameEntries.of_eq (h : s'.registry = s.registry) : SameEntries s s' := fun k _ => by rw [h]; exact ⟨rfl, rfl⟩

theorem Move.sameEntries (h : Move (fun s a => a.isMark ∧ P s a) s s') : SameEntries s s' := by
  cases h.kind with
  | alike ha => exact .of_steady ha.registry
  | @acted a ha =>
    cases a with
    | mark => exact .of_eq rfl
    | _ => cases ha.1
  | forgotten => exact .of_eq rfl
  | adopted => exact .of_eq rfl
  | rearranged hr => exact .of_eq hr.registry
  | groupClosed interfaceId =>
    intro k hk
    simp only [InterfaceRegistry.removeVirtual, InterfaceRegistry.map] at hk ⊢
    split at hk
    · cases hk
    · rename_i hkept
      rw [if_neg hkept]
      exact ⟨rfl, rfl⟩

theorem Leave.sameEntries (h : Leave s s') : SameEntries s s' := by
  cases h with
  | released => exact .of_eq (releaseSlot_registry _ _)
  | @agentLeft i hi hrole =>
    have hsteady := s.releasePeer_agent_registry hrole
    intro k hk
    have huse := (InterfaceEntry.of_face (hsteady.entries k)).1
    rw [hsteady.entries k, hsteady.fd k]
    rw [huse] at hk
    rw [InterfaceRegistry.removePeer_same hk]
    exact ⟨rfl, rfl⟩

/-- **A quiet change leaves a peer's frames**, if the peer is there before and after; else there are none. -/
theorem Quiet.frames (h : Quiet P distinct s s') (i : PeerSlot) :
    (s'.directory i).frames = (s.directory i).frames
      ∨ (s'.directory i).frames = ({}, 0, 0) ∧ ¬ ((s.directory i).inUse ∧ (s'.directory i).inUse) := by
  cases h with
  | moved hm =>
    refine .inl ?_
    rcases hm.frames with hu | ⟨a, ha, rfl⟩ | ⟨c, rfl⟩
    · exact hu.frames i
    · cases a with
      | mark => rfl
      | _ => cases ha.1
    · unfold releaseEchoTokens
      dsimp only
      split <;> rfl
  | left hl =>
    obtain ⟨s₁, hu, _, _, hdir⟩ := hl.frames
    rcases hdir i with hd | hd
    · rw [hd]
      exact .inl (hu.frames i)
    · rw [hd]
      exact .inr ⟨rfl, by simp⟩
  | registered hr =>
    cases hr with
    | agent => exact .inl rfl
    | group => exact .inl rfl
  | connected hj =>
    rename_i j _ _ _ _
    by_cases hij : i = j
    · subst hij
      refine .inr ⟨?_, fun hboth => ?_⟩
      · rw [modifyPeer_directory_self]
        rfl
      · rw [hj] at hboth
        cases hboth.1
    · rw [modifyPeer_directory_of_ne _ hij]
      exact .inl rfl
  | turned => exact .inl rfl

/-! ### Drains -/

/-- What one round of a drain does to the frames of the peer: nothing but to look, or the frame at the front of a
channel is too old and dropped, handed over, or refused by the transport and left where it is. -/
inductive Pulled (i : PeerSlot) (s s' : Broker) : Prop
  | idle {q : EgressQueue} (hq : q.channels = (s.directory i).egress.channels) (hu : q.used = (s.directory i).egress.used)
      (h : Touched s s' i [] (q, (s.directory i).framesForwarded, (s.directory i).framesDropped))
  | aged {c : UInt8} {slot : EgressSlot} (hfront : ((s.directory i).egress.channels c).head? = some slot)
      (h : Touched s s' i [] ((s.directory i).egress.popChannel c, (s.directory i).framesForwarded,
        (s.directory i).framesDropped + 1))
  | sent {c : UInt8} {slot : EgressSlot} (hfront : ((s.directory i).egress.channels c).head? = some slot)
      (h : Touched s s' i [.datagram (s.directory i).peerId c (.frame slot.frame) true]
        ((s.directory i).egress.popChannel c, (s.directory i).framesForwarded + 1, (s.directory i).framesDropped))
  | kept {c : UInt8} {slot : EgressSlot} (hfront : ((s.directory i).egress.channels c).head? = some slot)
      (h : Touched s s' i [.datagram (s.directory i).peerId c (.frame slot.frame) false] (s.directory i).frames)

/-- One round of a drain. -/
structure Pull (i : PeerSlot) (s s' : Broker) : Prop where
  like : Like s s'
  registry : s.registry.Steady s'.registry
  frames : Pulled i s s'

section

variable (i : PeerSlot) (channel : UInt8)

theorem popChannel_touched : Touched s (s.popChannel i channel) i []
    ((s.directory i).egress.popChannel channel, (s.directory i).framesForwarded, (s.directory i).framesDropped) :=
  modifyPeer_touched rfl

theorem countDropped_registry : (s.countDropped i channel).registry = s.registry := by
  unfold countDropped modifyBinding
  dsimp only
  split
  · split <;> rfl
  · rfl

theorem countForwarded_registry : (s.countForwarded i channel).registry = s.registry := by
  unfold countForwarded modifyBinding
  dsimp only
  split
  · split <;> rfl
  · rfl

end

theorem Round.pull {i : PeerSlot} (h : Round i s s') : Pull i s s' := by
  have hlike := h.still.toLike
  cases h with
  | looked hnext =>
    obtain ⟨c, _, heq⟩ := Option.map_eq_some_iff.mp hnext
    cases heq
    refine ⟨hlike, .refl _, .idle ?_ ?_ (modifyPeer_touched rfl)⟩ <;> rfl
  | @aged channel slot hfront =>
    refine ⟨hlike, ?_, .aged hfront ?_⟩
    · rw [countDropped_registry]
      exact .refl _
    · have h := (popChannel_touched i channel).trans (countDropped_touched (s := s.popChannel i channel) i channel)
      rw [popChannel, modifyPeer_directory_self] at h
      exact h
  | paced peerId channel f =>
    refine ⟨hlike, (s.tryEgress_fixed peerId channel f).toAlike.registry, .idle rfl rfl ?_⟩
    exact ⟨rfl, fun _ _ => rfl, fun _ => rfl, rfl, (append_nil _).symm⟩
  | @sent channel slot s' taken hfront hs =>
    have hreg : s'.registry = s.registry := congrArg (fun x => x.1.registry) hs.symm
    obtain ⟨hdir, _, hsend⟩ := sendFrame_eq hs
    cases taken with
    | false => exact ⟨hlike, hreg ▸ .refl _, .kept hfront (hsend i)⟩
    | true =>
      refine ⟨hlike, ?_, .sent hfront ?_⟩
      · rw [if_pos rfl, countForwarded_registry]
        have hpop : (s'.popChannel i channel).registry = s.registry := hreg
        rw [hpop]
        exact .refl _
      · have h := ((hsend i).trans (popChannel_touched i channel)).trans
          (countForwarded_touched (s := s'.popChannel i channel) i channel)
        rw [popChannel, modifyPeer_directory_self, hdir] at h
        exact h

theorem drainPeer_pulls (s : Broker) (i : PeerSlot) : Relation.ReflTransGen (Pull i) s (s.drainPeer i) :=
  Relation.ReflTransGen.mono (fun _ _ => Round.pull) _ _ (s.drainPeer_rounds i)

/-! ### What is known of interfaces -/

/-- The act changes what is known of an interface. -/
def Act.isLearn : Act → Bool
  | .learn .. => true
  | _ => false

theorem enqueueFrame_registry (i : PeerSlot) (channel : UInt8) (f : FrameMessage) :
    (s.enqueueFrame i channel f).registry = s.registry := by
  unfold enqueueFrame
  dsimp only
  split
  · rw [countDropped_registry]
    rfl
  · rfl

theorem sendFrame_registry (peerId : UInt32) (channel : UInt8) (d : Datagram) :
    (s.sendFrame peerId channel d).1.registry = s.registry := rfl

theorem forwardFrame_steady {r : FrameRoute} (hr : r.reliable = false ∨ s.find r.peerId = none) (f : FrameMessage)
    (routeFlags : UInt8) : s.registry.Steady (s.forwardFrame r f routeFlags).1.registry := by
  refine s.forwardFrame_keeps (Q := fun s' => s.registry.Steady s'.registry) hr f routeFlags (.refl _) (fun _ _ h => h)
    (fun s' f h => h.trans (s'.tryEgress_fixed _ _ f).registry) (fun s' i f h => ?_) (fun s' i h => ?_) fun _ _ _ h => h
  · rw [enqueueFrame_registry]
    exact h
  · rw [countForwarded_registry]
    exact h

/-- **Frames teach the hub nothing of an interface.** -/
theorem perform_steady {a : Act} (ha : a.isLearn = false) : s.registry.Steady (s.perform a).registry := by
  cases a with
  | forward r f routeFlags =>
    simp only [perform]
    split
    · unfold offer
      cases hi : s.find r.peerId with
      | none => exact forwardFrame_steady (.inr hi) f routeFlags
      | some i =>
        have hreg := s.sendFrame_registry r.peerId r.channel (.frame { f with channel := r.channel, routeFlags })
        rcases hs : s.sendFrame r.peerId r.channel (.frame { f with channel := r.channel, routeFlags }) with ⟨s₁, taken⟩
        rw [hs] at hreg
        cases taken with
        | true =>
          rw [countForwarded_registry, hreg]
          exact .refl _
        | false =>
          rw [hreg]
          exact .refl _
    · rename_i hr
      exact forwardFrame_steady (.inl (by simpa using hr)) f routeFlags
  | drain i =>
    have hpulls := s.drainPeer_pulls i
    simp only [perform]
    generalize s.drainPeer i = s' at hpulls
    induction hpulls with
    | refl => exact .refl _
    | tail _ hpull ih => exact ih.trans hpull.registry
  | learn => cases ha
  | _ => exact .refl _

/-- What holds of the interfaces and the peers after changes that teach nothing of an interface. -/
structure After (s s' : Broker) : Prop where
  entries : SameEntries s s'
  peers : ∀ i, (s'.directory i).inUse → (s.directory i).inUse ∧ (s'.directory i).peerId = (s.directory i).peerId
    ∧ ((s'.directory i).role = (s.directory i).role ∨ (s.directory i).role = .unknown)

theorem SameEntries.trans (h : SameEntries s s') (h' : SameEntries s' s'') : SameEntries s s'' := by
  intro k hk
  obtain ⟨hface', hfd'⟩ := h' k hk
  obtain ⟨hface, hfd⟩ := h k ((InterfaceEntry.of_face hface').1.symm.trans hk)
  exact ⟨hface'.trans hface, hfd'.trans hfd⟩

theorem After.refl (s : Broker) : After s s := ⟨fun _ _ => ⟨rfl, rfl⟩, fun _ hi => ⟨hi, rfl, .inl rfl⟩⟩

theorem After.trans (h : After s s') (h' : After s' s'') : After s s'' := by
  refine ⟨h.entries.trans h'.entries, fun i hi => ?_⟩
  obtain ⟨hi', hid', hrole'⟩ := h'.peers i hi
  obtain ⟨hi'', hid, hrole⟩ := h.peers i hi'
  refine ⟨hi'', hid'.trans hid, ?_⟩
  rcases hrole with hrole | hunknown
  · rw [hrole] at hrole'
    exact hrole'
  · exact .inr hunknown

theorem Goes.after (hP : ∀ s a, P s a → a.isLearn = false) (h : Goes P s s') : After s s' := by
  induction h with
  | refl => exact .refl s
  | tail _ hstep ih =>
    refine ih.trans ?_
    rcases hstep with hm | hleave
    · refine ⟨?_, fun i hi => ?_⟩
      · rcases hm.act_or_quiet with ⟨a, ha, rfl⟩ | hq
        · exact .of_steady (perform_steady (hP _ a ha))
        · exact hq.sameEntries
      · obtain ⟨huse, hid, hrole⟩ := hm.peers i
        exact ⟨huse.symm.trans hi, hid, hrole⟩
    · refine ⟨hleave.sameEntries, fun i hi => ?_⟩
      rcases hleave.peers i with hgone | ⟨huse, hid, hrole⟩
      · rw [hgone] at hi
        cases hi
      · exact ⟨huse.symm.trans hi, hid, .inl hrole⟩

/-- A peer that is there before and after a quiet change. -/
theorem Quiet.peers (h : Quiet P distinct s s') {i : PeerSlot} (hi : (s.directory i).inUse) (hi' : (s'.directory i).inUse) :
    (s'.directory i).peerId = (s.directory i).peerId
      ∧ ((s'.directory i).role = (s.directory i).role ∨ (s.directory i).role = .unknown) := by
  cases h with
  | moved hm => exact (hm.peers i).2
  | left hl =>
    rcases hl.peers i with hgone | ⟨_, hid, hrole⟩
    · rw [hgone] at hi'
      cases hi'
    · exact ⟨hid, .inl hrole⟩
  | registered hr =>
    cases hr with
    | agent => exact ⟨rfl, .inl rfl⟩
    | group => exact ⟨rfl, .inl rfl⟩
  | connected hj =>
    rename_i j _ _ _ _
    have hij : i ≠ j := by
      rintro rfl
      rw [hi] at hj
      cases hj
    rw [modifyPeer_directory_of_ne _ hij]
    exact ⟨rfl, .inl rfl⟩
  | turned => exact ⟨rfl, .inl rfl⟩

/-! ### Frames under way -/

/-- **What routing a frame comes to**: it is shown to clients, bridged, injected along the route of its channel, or
dropped for a lease. -/
theorem routesFrame_of {i : PeerSlot} {f : FrameMessage}
    (hshow : ∀ s₁ s₂ interfaceId r routeFlags, Goes P s s₁ → Goes P s₁ s₂ →
      r ∈ FrameRoutes.toInterface s₁.directory interfaceId → P s₂ (.forward r f routeFlags))
    (hbridge : ∀ s₁ t, Goes P s s₁ → BridgesInto P s₁ t f) (hsuppress : ∀ s₁, Goes P s s₁ → P s₁ .suppress)
    (hinject : ∀ s₁, Goes P s s₁ → (s₁.directory i).role ≠ .agent → (s₁.directory i).session.canWrite f.channel →
      s₁.groupOfChannel i f.channel = none → s₁.channelRefusesFrame i f = false →
      ∀ r ∈ FrameRoutes.fromClient s₁.registry (s₁.directory i) f.channel,
        InjectsInto P s₁ (s₁.directory i).peerId r f) :
    RoutesFrame P s i f := by
  intro s₁ halike
  have hs₁ : Goes P s s₁ := halike.goes
  split
  · refine ⟨fun s₂ hs₂ r hr _ => ?_, fun _ s₂ hs₂ k _ s₃ hs₃ => ⟨fun _ t _ => ?_, fun g l _ _ _ s₄ hs₄ r hr _ => ?_⟩⟩
    · unfold FrameRoutes.fromAgent at hr
      split at hr
      · cases hr
      · exact hshow s₁ s₂ _ r _ hs₁ hs₂ hr
    · exact hbridge s₃ t (hs₁.trans (hs₂.trans hs₃))
    · exact hshow s₃ s₄ _ r _ (hs₁.trans (hs₂.trans hs₃)) hs₄ hr
  · rename_i hrole
    intro hwrite _
    split
    · exact hsuppress s₁ hs₁
    refine ⟨fun g k _ s₂ _ hs₂ => ⟨fun m _ _ => ?_, fun s₃ hs₃ r hr _ => ?_⟩, fun hnone htakes =>
      hinject s₁ hs₁ hrole hwrite hnone htakes⟩
    · split
      · exact hsuppress s₂ (hs₁.trans hs₂)
      · exact hbridge s₂ _ (hs₁.trans hs₂)
    · exact hshow s₂ s₃ _ r _ (hs₁.trans hs₂) hs₃ hr

/-- A route to a channel open on an interface goes to a client that is there. -/
theorem mem_toInterface {interfaceId : UInt32} {r : FrameRoute}
    (hr : r ∈ FrameRoutes.toInterface s.directory interfaceId) :
    ∃ i, (s.directory i).inUse ∧ (s.directory i).role = .client ∧ (s.directory i).peerId = r.peerId
      ∧ r ∈ (s.directory i).routesToInterface interfaceId := by
  obtain ⟨i, _, hi⟩ := mem_flatMap.mp hr
  have hmem := hi
  unfold HubPeer.routesToInterface at hi
  split at hi
  · rename_i hclient
    obtain ⟨b, _, rfl⟩ := mem_map.mp hi
    exact ⟨i, hclient.1, hclient.2, rfl, hmem⟩
  · cases hi

end Broker
end CanHub
