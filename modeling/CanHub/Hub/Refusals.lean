/-
# A frame the hub sends back

The reliable stream of a client offers the hub one FRAME at a time, and keeps the
frame when `onPeerFrame` refuses it, to offer it again. The hub refuses a frame
whose agent has no room for it on a reliable channel (`RefusesFrame`), and then
nothing is sent or parked. But the frame has been counted by then: each refused
attempt adds one to the frames received (`refused_frame_counted`), so that a
frame leaves no trace exactly where it is not refused
(`refused_frame_no_trace_iff`).
-/
import CanHub.Hub.LeasedWrites

namespace CanHub
namespace Broker

variable {s s' s'' : Broker}

/-- Nothing was sent or parked, and nothing was counted. -/
structure NoTrace (s s' : Broker) : Prop where
  sent : Says (fun x => ∀ peerId channel d, x ≠ .datagram peerId channel d true) s s'
  parked : ∀ j, (s'.directory j).egress = (s.directory j).egress
  metrics : s'.metrics = s.metrics
  interfaces : ∀ k, (s'.registry.entries k).framesReceived = (s.registry.entries k).framesReceived
  peers : ∀ j, (s'.directory j).framesForwarded = (s.directory j).framesForwarded
    ∧ (s'.directory j).framesDropped = (s.directory j).framesDropped

theorem NoTrace.trans (h : NoTrace s s') (h' : NoTrace s' s'') : NoTrace s s'' :=
  ⟨h.sent.trans h'.sent, fun j => (h'.parked j).trans (h.parked j), h'.metrics.trans h.metrics,
    fun k => (h'.interfaces k).trans (h.interfaces k),
    fun j => ⟨(h'.peers j).1.trans (h.peers j).1, (h'.peers j).2.trans (h.peers j).2⟩⟩

/-! ### Counting a frame changes nothing a route depends on -/

/-- The registry with one of its entries' counters changed. -/
def Recounts (r r' : InterfaceRegistry) : Prop :=
  ∀ k, r'.entries k = { r.entries k with framesReceived := (r'.entries k).framesReceived }

theorem Recounts.findById {r r' : InterfaceRegistry} (h : Recounts r r') (interfaceId : UInt32) :
    r'.findById interfaceId = r.findById interfaceId :=
  Table.find?_congr fun k => by rw [h k]

theorem recounts_countFrame (r : InterfaceRegistry) (interfaceId : UInt32) : Recounts r (r.countFrame interfaceId) := by
  intro k
  unfold InterfaceRegistry.countFrame
  cases r.findById interfaceId with
  | none => rfl
  | some l =>
    by_cases hkl : k = l
    · subst hkl
      simp [InterfaceRegistry.modify]
    · simp [InterfaceRegistry.modify, Function.update_of_ne hkl]

theorem countInterfaceFrame_recounts (s : Broker) (i : PeerSlot) (channel : UInt8) :
    ∃ r, s.countInterfaceFrame i channel = { s with registry := r } ∧ Recounts s.registry r := by
  have hsame : Recounts s.registry s.registry := fun _ => rfl
  unfold countInterfaceFrame
  dsimp only
  split
  · split
    · exact ⟨_, rfl, recounts_countFrame _ _⟩
    · exact ⟨_, rfl, hsame⟩
  · split
    · exact ⟨_, rfl, recounts_countFrame _ _⟩
    · exact ⟨_, rfl, hsame⟩

/-! ### When a frame is refused -/

/-- The one route of a client's frame is reliable and takes it, but its agent has no room: the transport says so
beforehand, or when it is handed the frame. -/
def RouteRefusesFrame (s : Broker) (f : FrameMessage) (r : FrameRoute) : Prop :=
  r.reliable ∧ s.routeTakesFrame r f 0 ∧ (s.port.answer s.port.asked = false
    ∨ ∃ agent, s.find r.peerId = some agent ∧ (s.directory agent).role ≠ .client
      ∧ s.port.answer (s.port.asked + 1) = false)

/-- The hub refuses the client's frame. -/
def RefusesFrame (s : Broker) (i : PeerSlot) (f : FrameMessage) : Prop :=
  (s.directory i).session.canWrite f.channel ∧ f.canId &&& frameCanIdFlagErr = 0
    ∧ s.channelLeasedToAnother i f.channel = false ∧ s.groupOfChannel i f.channel = none
    ∧ s.channelRefusesFrame i f = false
    ∧ ∃ r, FrameRoutes.fromClient s.registry (s.directory i) f.channel = some r ∧ s.RouteRefusesFrame f r

variable (s)

variable (senderPeerId : UInt32)

section

variable (route : Option FrameRoute)

/-- A token is all a peer is given. -/
theorem injectionToken_peers (j : PeerSlot) :
    ∃ t, (s.injectionToken senderPeerId route).1.directory j = { s.directory j with echoTokens := t } := by
  unfold injectionToken
  split
  · exact ⟨_, rfl⟩
  rename_i agent _
  unfold issueToken
  dsimp only
  by_cases hj : j = agent
  · subst hj
    exact ⟨_, modifyPeer_directory_self _⟩
  · exact ⟨_, modifyPeer_directory_of_ne _ hj⟩

/-- The rest of the broker is as it was. -/
theorem injectionToken_rest :
    (s.injectionToken senderPeerId route).1.port = s.port ∧ (s.injectionToken senderPeerId route).1.metrics = s.metrics
      ∧ (s.injectionToken senderPeerId route).1.registry = s.registry := by
  unfold injectionToken
  split <;> exact ⟨rfl, rfl, rfl⟩

theorem injectionToken_noTrace :
    NoTrace s (s.injectionToken senderPeerId route).1 := by
  obtain ⟨hport, hmetrics, hregistry⟩ := s.injectionToken_rest senderPeerId route
  refine ⟨⟨[], by rw [hport, List.append_nil], by simp⟩, fun j => ?_, hmetrics, fun k => by rw [hregistry], fun j => ?_⟩
  all_goals
    obtain ⟨t, ht⟩ := s.injectionToken_peers senderPeerId route j
    rw [ht]
  exact ⟨rfl, rfl⟩

end

theorem ask_noTrace : NoTrace s s.ask.1 :=
  ⟨⟨[], by simp [ask], by simp⟩, fun _ => rfl, rfl, fun _ => rfl, fun _ => ⟨rfl, rfl⟩⟩

/-- A datagram the transport refused. -/
theorem sendFrame_refused_noTrace (peerId : UInt32) (channel : UInt8) (d : Datagram)
    (h : s.port.answer s.port.asked = false) : NoTrace s (s.sendFrame peerId channel d).1 := by
  refine ⟨⟨[.datagram peerId channel d false], ?_, by simp⟩, fun _ => rfl, rfl, fun _ => rfl, fun _ => ⟨rfl, rfl⟩⟩
  simp [sendFrame, ask, emit, h]

/-- **When one route refuses a frame**: it is reliable, its peer is there and no client, and the transport refuses. -/
theorem forwardFrame_refused (r : FrameRoute) (f : FrameMessage) (routeFlags : UInt8) :
    ((s.forwardFrame r f routeFlags).2 = false ↔ r.reliable ∧ ∃ agent, s.find r.peerId = some agent
        ∧ (s.directory agent).role ≠ .client ∧ s.port.answer s.port.asked = false)
      ∧ ((s.forwardFrame r f routeFlags).2 = false → NoTrace s (s.forwardFrame r f routeFlags).1) := by
  unfold forwardFrame
  dsimp only
  cases hfind : s.find r.peerId with
  | none =>
    rcases s.sendFrame r.peerId r.channel (.frame { f with channel := r.channel, routeFlags }) with ⟨s₁, taken⟩
    cases taken <;> simp
  | some agent =>
    dsimp only
    by_cases hr : r.reliable
    · rw [if_pos hr]
      have htrace := s.sendFrame_refused_noTrace r.peerId r.channel (.frame { f with channel := r.channel, routeFlags })
      rcases hsend : s.sendFrame r.peerId r.channel (.frame { f with channel := r.channel, routeFlags }) with ⟨s₁, taken⟩
      rw [hsend] at htrace
      have hanswer : s.port.answer s.port.asked = taken := congrArg Prod.snd hsend
      have hdir : s₁.directory = s.directory := (congrArg (fun x => x.1.directory) hsend).symm
      cases taken with
      | true => simp [hanswer]
      | false =>
        unfold disconnectSlowConsumer
        dsimp only
        rw [hdir]
        by_cases hrole : (s.directory agent).role = .client
        · simp [hrole]
        · rw [if_pos hrole]
          exact ⟨iff_of_true rfl ⟨hr, agent, rfl, hrole, hanswer⟩, fun _ => htrace hanswer⟩
    · -- A lossy route parks what it cannot send.
      rw [if_neg hr]
      refine ⟨iff_of_false ?_ fun h => hr h.1, fun h => absurd h ?_⟩
      all_goals
        split
        · simp
        rcases s.tryEgress r.peerId r.channel { f with channel := r.channel, routeFlags } with ⟨s₁, go⟩
        cases go with
        | false => simp
        | true =>
          dsimp only
          rcases s₁.sendFrame r.peerId r.channel (.frame { f with channel := r.channel, routeFlags }) with ⟨s₂, taken⟩
          cases taken <;> simp

/-- A route that takes the frame and is reliable is asked whether the frame fits. -/
theorem reliableRoutesFit_one (f : FrameMessage) (r : FrameRoute) :
    reliableRoutesFit f 0 s [r] =
      if r.reliable ∧ s.routeTakesFrame r f 0 then (s.ask.1, s.port.answer s.port.asked) else (s, true) := by
  unfold reliableRoutesFit
  by_cases hr : r.reliable ∧ s.routeTakesFrame r f 0
  · rw [if_pos hr, if_neg (by simp [hr.1, hr.2])]
    rcases hask : s.ask with ⟨s₁, fits⟩
    have hfits : s.port.answer s.port.asked = fits := congrArg Prod.snd hask
    rw [hfits]
    cases fits <;> rfl
  · rw [if_neg hr, if_pos ?_]
    · rfl
    · rw [not_and_or] at hr
      simpa using hr

theorem forwardRoutes_one (f : FrameMessage) (r : FrameRoute) (routeFlags : UInt8) :
    forwardRoutes f 0 routeFlags s [r] = if s.routeTakesFrame r f 0 then s.forwardFrame r f routeFlags else (s, true) := by
  simp only [forwardRoutes]
  by_cases h : s.routeTakesFrame r f 0
  · rw [if_neg (by simp [h]), if_pos h]
    simp
  · rw [if_pos (by simpa using h), if_neg h]

variable {s} {i : PeerSlot}

/-- The end of `routeClientFrame` for a frame with a route. -/
def inject (s : Broker) (f : FrameMessage) (routeFlags : UInt8) (r : FrameRoute) : Broker × Bool :=
  match reliableRoutesFit f 0 s [r] with
  | (s, false) => (s, false)
  | (s, true) => forwardRoutes f 0 routeFlags s [r]

/-- **A route refuses a frame without a trace.** -/
theorem inject_refused (s : Broker) (f : FrameMessage) (routeFlags : UInt8) (r : FrameRoute) :
    ((s.inject f routeFlags r).2 = false ↔ s.RouteRefusesFrame f r)
      ∧ ((s.inject f routeFlags r).2 = false → NoTrace s (s.inject f routeFlags r).1) := by
  unfold inject RouteRefusesFrame
  rw [reliableRoutesFit_one]
  by_cases htakes : s.routeTakesFrame r f 0
  swap
  · rw [if_neg fun h => htakes h.2]
    dsimp only
    rw [forwardRoutes_one, if_neg htakes]
    simp [htakes]
  by_cases hr : r.reliable
  swap
  · rw [if_neg fun h => hr h.1]
    dsimp only
    rw [forwardRoutes_one, if_pos htakes]
    obtain ⟨hiff, htrace⟩ := s.forwardFrame_refused r f routeFlags
    exact ⟨by rw [hiff]; simp [hr], htrace⟩
  rw [if_pos ⟨hr, htakes⟩]
  have hasked := s.ask_noTrace
  have hfind : s.ask.1.find r.peerId = s.find r.peerId := rfl
  have hdir : s.ask.1.directory = s.directory := rfl
  have hanswer : s.ask.1.port.answer s.ask.1.port.asked = s.port.answer (s.port.asked + 1) := rfl
  have htakes' : s.ask.1.routeTakesFrame r f 0 := htakes
  generalize s.ask.1 = s₁ at *
  cases hfits : s.port.answer s.port.asked with
  | false => simp [hr, htakes, hasked]
  | true =>
    dsimp only
    rw [forwardRoutes_one, if_pos htakes']
    obtain ⟨hiff, htrace⟩ := s₁.forwardFrame_refused r f routeFlags
    refine ⟨?_, fun h => hasked.trans (htrace h)⟩
    rw [hiff, hfind, hdir, hanswer]
    simp [hr, htakes]

/-- The token a frame is given has no part in whether its route refuses it. -/
theorem RouteRefusesFrame.of_token {f : FrameMessage} {r : FrameRoute} (route : Option FrameRoute) :
    (s.injectionToken senderPeerId route).1.RouteRefusesFrame f r ↔ s.RouteRefusesFrame f r := by
  have hpeer := s.injectionToken_peers senderPeerId route
  have hport := (s.injectionToken_rest senderPeerId route).1
  generalize (s.injectionToken senderPeerId route).1 = s₁ at hpeer hport
  have hfind : s₁.find r.peerId = s.find r.peerId := Table.find?_congr fun j => by
    obtain ⟨t, ht⟩ := hpeer j
    rw [ht]
  have hrole : ∀ j, (s₁.directory j).role = (s.directory j).role := fun j => by
    obtain ⟨t, ht⟩ := hpeer j
    rw [ht]
  have hsession : ∀ j, (s₁.directory j).session = (s.directory j).session := fun j => by
    obtain ⟨t, ht⟩ := hpeer j
    rw [ht]
  have htakes : s₁.routeTakesFrame r f 0 = s.routeTakesFrame r f 0 := by
    unfold routeTakesFrame
    rw [hfind]
    cases s.find r.peerId with
    | none => rfl
    | some j =>
      dsimp only
      rw [hrole, hsession]
  unfold RouteRefusesFrame
  rw [hport, htakes, hfind]
  simp only [hrole]

/-- **When a client's frame is refused**, and that it leaves no trace from there on. -/
theorem routeClientFrame_refused (s : Broker) (i : PeerSlot) (f : FrameMessage) :
    ((s.routeClientFrame i f).2 = false ↔ s.RefusesFrame i f)
      ∧ ((s.routeClientFrame i f).2 = false → NoTrace s (s.routeClientFrame i f).1) := by
  unfold routeClientFrame RefusesFrame
  by_cases hwrite : (s.directory i).session.canWrite f.channel
  swap
  · rw [if_pos (.inl (by simpa using hwrite))]
    simp [hwrite]
  by_cases herr : f.canId &&& frameCanIdFlagErr = 0
  swap
  · rw [if_pos (.inr herr)]
    simp [herr]
  rw [if_neg (by simp [hwrite, herr])]
  by_cases hleased : s.channelLeasedToAnother i f.channel
  · rw [if_pos hleased]
    simp [hleased]
  rw [if_neg hleased]
  cases hgroup : s.groupOfChannel i f.channel with
  | some g => simp
  | none =>
    dsimp only
    by_cases hrefuses : s.channelRefusesFrame i f
    · rw [if_pos hrefuses]
      simp [hrefuses]
    rw [if_neg hrefuses]
    unfold injectFrame
    cases hroute : FrameRoutes.fromClient s.registry (s.directory i) f.channel with
    | none =>
      rcases s.injectionToken (s.directory i).peerId none with ⟨s₁, token⟩
      simp [reliableRoutesFit, forwardRoutes]
    | some r =>
      have htoken := s.injectionToken_noTrace (s.directory i).peerId (some r)
      have hof := RouteRefusesFrame.of_token (s := s) (f := f) (r := r) (s.directory i).peerId (some r)
      rcases htok : s.injectionToken (s.directory i).peerId (some r) with ⟨s₁, token⟩
      rw [htok] at htoken hof
      obtain ⟨hiff, htrace⟩ := s₁.inject_refused f (token <<< frameRouteTokenShift) r
      have hall : (s₁.RouteRefusesFrame f r ↔ (s.directory i).session.canWrite f.channel = true
          ∧ f.canId &&& frameCanIdFlagErr = 0 ∧ s.channelLeasedToAnother i f.channel = false
          ∧ (none : Option (GroupSlot × EntrySlot)) = none ∧ s.channelRefusesFrame i f = false
          ∧ ∃ r', some r = some r' ∧ s.RouteRefusesFrame f r') := by
        rw [hof]
        simp [hwrite, herr, hleased, hrefuses]
      rw [← hall, Option.toList_some]
      dsimp only
      unfold inject at hiff htrace
      rcases hfit : reliableRoutesFit f 0 s₁ [r] with ⟨s₂, fits⟩
      rw [hfit] at hiff htrace
      cases fits with
      | false => exact ⟨hiff, fun h => htoken.trans (htrace h)⟩
      | true =>
        dsimp only at hiff htrace ⊢
        rw [if_neg (by simp)]
        exact ⟨hiff, fun h => htoken.trans (htrace h)⟩

/-- What a frame is routed by is not what it is counted in. -/
theorem RefusesFrame.of_recounts {f : FrameMessage} {r : InterfaceRegistry} (h : Recounts s.registry r)
    (m : HubMetrics) : ({ s with registry := r, metrics := m }.RefusesFrame i f ↔ s.RefusesFrame i f) := by
  have hsame : { s with registry := r, metrics := m }.groupOfChannel i f.channel = s.groupOfChannel i f.channel
      ∧ { s with registry := r, metrics := m }.channelRefusesFrame i f = s.channelRefusesFrame i f
      ∧ FrameRoutes.fromClient r (s.directory i) f.channel
        = FrameRoutes.fromClient s.registry (s.directory i) f.channel := by
    unfold groupOfChannel channelRefusesFrame FrameRoutes.fromClient
    cases (s.directory i).session.interfaceForChannel f.channel with
    | none => exact ⟨rfl, rfl, rfl⟩
    | some interfaceId =>
      dsimp only
      rw [h.findById]
      cases s.registry.findById interfaceId with
      | none => exact ⟨rfl, rfl, rfl⟩
      | some k =>
        dsimp only [Option.map_some]
        rw [h k]
        exact ⟨rfl, rfl, rfl⟩
  obtain ⟨hgroup, hrefuses, hroute⟩ := hsame
  unfold RefusesFrame
  rw [hgroup, hrefuses]
  rw [hroute]
  rfl

/-- A refused frame has been counted, and that is all there is of it. -/
theorem refused_frame_counted (hrole : (s.directory i).role = .client) (f : FrameMessage) :
    ((s.routeFrame i f).2 = false ↔ s.RefusesFrame i f)
      ∧ ((s.routeFrame i f).2 = false →
        NoTrace (s.counted i f.channel) (s.routeFrame i f).1) := by
  unfold counted routeFrame
  dsimp only
  obtain ⟨r, hcount, hsame⟩ := countInterfaceFrame_recounts
    (s.countFrames fun m => { m with framesReceived := m.framesReceived + 1 }) i f.channel
  rw [hcount]
  rw [if_neg (by simp [countFrames, hrole])]
  obtain ⟨hiff, htrace⟩ := routeClientFrame_refused
    { s.countFrames fun m => { m with framesReceived := m.framesReceived + 1 } with registry := r } i f
  exact ⟨hiff.trans (RefusesFrame.of_recounts hsame _), htrace⟩

/-- **A refused frame leaves no trace** exactly where it is not refused: a frame that is dropped, that goes to a group
or nowhere, whose channel is lossy, or for which its agent has room. -/
theorem refused_frame_no_trace_iff {peerId : UInt32} (hfind : s.find peerId = some i)
    (hrole : (s.directory i).role = .client) (f : FrameMessage) :
    ((s.onPeerFrame peerId (.frames [f])).2 = false → NoTrace s (s.onPeerFrame peerId (.frames [f])).1)
      ↔ ¬ s.RefusesFrame i f := by
  have hevent : s.onPeerFrame peerId (.frames [f]) = s.routeFrame i f := by
    unfold onPeerFrame
    rw [hfind]
    dsimp only
    rw [if_neg (by simp [hrole])]
    simp only [routeFrames]
    simp
  rw [hevent]
  obtain ⟨hiff, htrace⟩ := refused_frame_counted hrole f
  rw [← hiff]
  refine ⟨fun h hrefused => ?_, fun h hrefused => absurd hrefused h⟩
  -- The frame is among those received.
  have hreceived := congrArg HubMetrics.framesReceived ((htrace hrefused).metrics.symm.trans (h hrefused).metrics)
  obtain ⟨r, hcount, -⟩ := countInterfaceFrame_recounts (s.countFrames fun _ => _) i f.channel
  rw [counted, hcount] at hreceived
  simp [countFrames] at hreceived

/-- An agent and a client with a reliable channel to its interface, and what the transport answers. -/
def writing (answer : ℕ → Bool) : Broker :=
  { small.run (agentJoins 2 (registersOne 1 2) ++ clientJoins 3 1) with
    port := { answer, pinned := fun _ => none, firstContacts := fun _ => 0 } }

/-- A frame on the client's first channel. -/
def emptyFrame : FrameMessage := ⟨0, 0, 0, 0, 0, []⟩

set_option maxRecDepth 100000 in
/-- With room at the agent the frame goes through. -/
theorem refused_frame_no_trace_room :
    (writing fun _ => true).find 3 = some 1 ∧ ((writing fun _ => true).directory 1).role = .client
      ∧ (((writing fun _ => true).onPeerFrame 3 (.frames [emptyFrame])).2 = false →
        NoTrace (writing fun _ => true) ((writing fun _ => true).onPeerFrame 3 (.frames [emptyFrame])).1) := by
  have hfacts : (writing fun _ => true).find 3 = some 1 ∧ ((writing fun _ => true).directory 1).role = .client := by
    decide +kernel
  refine ⟨hfacts.1, hfacts.2, (refused_frame_no_trace_iff hfacts.1 hfacts.2 emptyFrame).mpr ?_⟩
  rintro ⟨-, -, -, -, -, r, -, -, -, h | ⟨_, -, -, h⟩⟩ <;> cases h

set_option maxRecDepth 100000 in
/-- **A frame sent back has been counted.** -/
theorem refused_frame_trace :
    ((writing fun _ => false).onPeerFrame 3 (.frames [emptyFrame])).2 = false
      ∧ ¬ NoTrace (writing fun _ => false) ((writing fun _ => false).onPeerFrame 3 (.frames [emptyFrame])).1 := by
  have hfacts : ((writing fun _ => false).onPeerFrame 3 (.frames [emptyFrame])).2 = false
      ∧ (writing fun _ => false).metrics.framesReceived = 0
      ∧ ((writing fun _ => false).onPeerFrame 3 (.frames [emptyFrame])).1.metrics.framesReceived = 1 := by
    decide +kernel
  refine ⟨hfacts.1, fun h => ?_⟩
  have hsame := congrArg HubMetrics.framesReceived h.metrics
  rw [hfacts.2.1, hfacts.2.2] at hsame
  cases hsame

end Broker
end CanHub
