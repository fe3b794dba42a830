/-
# Every CONFIGURE has its reply

What the desk does over whole runs. At every moment the requests in the table
have different ids, and both the peer that asked and the agent that is to answer
are there (`Desk.Tended`). Each turn answers some of the requests and leaves the
others waiting (`AnswersConfigures`): an answer goes to the peer that asked, and it is the
reply of the agent the request was forwarded to, or says that this agent has
left. Over a run no request is answered twice (`configure_correlated`).
-/
import CanHub.Hub.Configure
import CanHub.Hub.Sound

namespace CanHub

open List

namespace Desk

variable {d d' : Desk}

/-- The requests have different ids, none from the future, and their requesters and agents are there. -/
structure Tended (d : Desk) : Prop where
  distinct : d.Distinct
  requester : ∀ k, (d.pending k).inUse → d.IsSeated (d.pending k).requesterPeerId
  agent : ∀ k, (d.pending k).inUse → d.IsSeated (d.pending k).agentPeerId
  past : ∀ k, (d.pending k).inUse → (d.pending k).requestId ≤ d.nextRequestId
  unique : ∀ k l, (d.pending k).inUse → (d.pending l).inUse → (d.pending k).requestId = (d.pending l).requestId → k = l

/-- The desk at the beginning of a turn. -/
def fresh (d : Desk) : Desk := { d with forwarded := [], replies := [] }

theorem Tended.fresh (h : d.Tended) : d.fresh.Tended := ⟨h.distinct, h.requester, h.agent, h.past, h.unique⟩

theorem Tended.reply (h : d.Tended) (peerId : UInt32) (m : ConfigureReplyMessage) : (d.reply peerId m).Tended :=
  ⟨h.distinct, h.requester, h.agent, h.past, h.unique⟩

variable {told : List (Fin brokerPendingIfconfigMax)}

/-- Requests that are closed, by peers that leave or by an answer, leave the others as they were. -/
theorem Tended.settles (h : d.Tended) (hs : Settles d d' told) : d'.Tended := by
  have hstays : ∀ k id, d.IsSeated id → (d'.pending k).inUse →
      ((d.pending k).agentPeerId = id ∨ (d.pending k).requesterPeerId = id) → d'.IsSeated id := by
    intro k id hid hk hcon
    by_contra hnot
    refine hs.left id hid hnot k ⟨hk, ?_⟩
    rwa [hs.kept hk]
  have huse : ∀ k, (d'.pending k).inUse → (d.pending k).inUse := fun k hk => by rwa [← hs.kept hk]
  refine ⟨hs.distinct, fun k hk => ?_, fun k hk => ?_, fun k hk => ?_, fun k l hk hl hid => ?_⟩
  · rw [hs.kept hk]
    exact hstays k _ (h.requester k (huse k hk)) hk (.inr rfl)
  · rw [hs.kept hk]
    exact hstays k _ (h.agent k (huse k hk)) hk (.inl rfl)
  · rw [hs.kept hk, hs.next]
    exact h.past k (huse k hk)
  · rw [hs.kept hk, hs.kept hl] at hid
    exact h.unique k l (huse k hk) (huse l hl) hid

theorem clear_inUse {k l : Fin brokerPendingIfconfigMax} : ((d.clear k).pending l).inUse ↔ l ≠ k ∧ (d.pending l).inUse := by
  by_cases h : l = k
  · simp [clear, h]
  · simp [clear, h]

theorem clear_of_ne {k l : Fin brokerPendingIfconfigMax} (h : l ≠ k) : (d.clear k).pending l = d.pending l := by
  simp [clear, h]

theorem Tended.clear (h : d.Tended) (k : Fin brokerPendingIfconfigMax) : (d.clear k).Tended := by
  have hkept : ∀ l, ((d.clear k).pending l).inUse → (d.clear k).pending l = d.pending l ∧ (d.pending l).inUse := by
    intro l hl
    obtain ⟨hne, hu⟩ := clear_inUse.1 hl
    exact ⟨clear_of_ne hne, hu⟩
  refine ⟨h.distinct, fun l hl => ?_, fun l hl => ?_, fun l hl => ?_, fun l j hl hj hid => ?_⟩
  · rw [(hkept l hl).1]
    exact h.requester l (hkept l hl).2
  · rw [(hkept l hl).1]
    exact h.agent l (hkept l hl).2
  · rw [(hkept l hl).1]
    exact h.past l (hkept l hl).2
  · rw [(hkept l hl).1, (hkept j hj).1] at hid
    exact h.unique l j (hkept l hl).2 (hkept j hj).2 hid

/-- A new request has the next id. -/
theorem Tended.accept (h : d.Tended) {k : Fin brokerPendingIfconfigMax} {r : PendingIfconfig} {out : IfconfigMessage}
    (hnext : d.nextRequestId < r.requestId) (hreq : d.IsSeated r.requesterPeerId) (hagent : d.IsSeated r.agentPeerId) :
    (d.accept k r out).Tended := by
  have hslot : ∀ l, (d.accept k r out).pending l = if l = k then r else d.pending l := by
    intro l
    by_cases hl : l = k <;> simp [Desk.accept, hl]
  have hold : ∀ l, l ≠ k → ((d.accept k r out).pending l).inUse → (d.pending l).inUse ∧ (d.pending l).requestId ≠ r.requestId := by
    intro l hl hu
    rw [hslot, if_neg hl] at hu
    refine ⟨hu, fun he => ?_⟩
    have hpast := h.past l hu
    rw [he] at hpast
    exact absurd hnext (UInt32.not_lt.2 hpast)
  refine ⟨h.distinct, fun l hl => ?_, fun l hl => ?_, fun l hl => ?_, fun l j hl hj hid => ?_⟩
  · by_cases hk : l = k
    · rw [hslot, if_pos hk]
      exact hreq
    · rw [hslot, if_neg hk]
      exact h.requester l (hold l hk hl).1
  · by_cases hk : l = k
    · rw [hslot, if_pos hk]
      exact hagent
    · rw [hslot, if_neg hk]
      exact h.agent l (hold l hk hl).1
  · by_cases hk : l = k
    · rw [hslot, if_pos hk]
      exact UInt32.le_refl _
    · rw [hslot, if_neg hk]
      exact UInt32.le_trans (h.past l (hold l hk hl).1) (UInt32.le_of_lt hnext)
  · refine Table.unrelated_of_ne (p := PendingIfconfig.inUse) (R := fun a b => a.requestId = b.requestId)
      (fun _ _ => Eq.symm) (fun l hl => (hslot l).trans (if_neg hl)) h.unique (fun _ l _ hu he => ?_) l j hl hj hid
    rw [hslot, if_pos rfl] at he
    exact absurd hnext (UInt32.not_lt.2 (he ▸ h.past l hu))

/-- A peer comes. -/
def sit (d : Desk) (i : PeerSlot) (peerId : UInt32) : Desk :=
  { d with seats := Function.update d.seats i (true, peerId) }

variable {peerId : UInt32}

theorem sit_isSeated {i : PeerSlot} {id : UInt32} (hfree : (d.seats i).1 = false) :
    (d.sit i peerId).IsSeated id ↔ id = peerId ∨ d.IsSeated id := by
  constructor
  · rintro ⟨j, hj⟩
    by_cases hji : j = i
    · left
      simp only [sit, hji, Function.update_self, Prod.mk.injEq, true_and] at hj
      exact hj.symm
    · exact .inr ⟨j, by simpa [sit, hji] using hj⟩
  · rintro (rfl | ⟨j, hj⟩)
    · exact ⟨i, by simp [sit]⟩
    · have hji : j ≠ i := by
        rintro rfl
        rw [hj] at hfree
        cases hfree
      exact ⟨j, by simpa [sit, hji] using hj⟩

theorem Tended.sit (h : d.Tended) {i : PeerSlot} (hfree : (d.seats i).1 = false)
    (hnew : ¬ d.IsSeated peerId) : (d.sit i peerId).Tended := by
  refine ⟨fun j l id hj hl => ?_, fun k hk => ?_, fun k hk => ?_, h.past, h.unique⟩
  · have hseat : ∀ j, j ≠ i → (d.sit i peerId).seats j = (true, id) → d.seats j = (true, id) := by
      intro j hji hj
      simpa [Desk.sit, hji] using hj
    have hself : ∀ {id}, (d.sit i peerId).seats i = (true, id) → id = peerId := by
      intro id hi
      simp only [Desk.sit, Function.update_self, Prod.mk.injEq, true_and] at hi
      exact hi.symm
    by_cases hji : j = i
    · by_cases hli : l = i
      · rw [hji, hli]
      · subst hji
        rw [hself hj] at hl hseat
        exact absurd ⟨l, hseat l hli hl⟩ hnew
    · by_cases hli : l = i
      · subst hli
        rw [hself hl] at hj hseat
        exact absurd ⟨j, hseat j hji hj⟩ hnew
      · exact h.distinct j l id (hseat j hji hj) (hseat l hli hl)
  · exact (sit_isSeated hfree).2 (.inr (h.requester k hk))
  · exact (sit_isSeated hfree).2 (.inr (h.agent k hk))

end Desk

namespace Broker

variable {s : Broker} {t : HubTurn}

/-! ### What a turn does to the desk -/

/-- A peer that connects finds a free seat, perhaps of one that leaves for it, or is refused. -/
theorem onPeerConnected_desk (s : Broker) (peerId : UInt32) (info : HubPeerConnectInfo) (nowUs : ℕ) :
    ∃ d, s.desk.Empties d ∧ ((s.onPeerConnected peerId info nowUs).desk = d
      ∨ ∃ i, (d.seats i).1 = false ∧ (s.onPeerConnected peerId info nowUs).desk = d.sit i peerId) := by
  obtain ⟨s₁, hdeals, hafter⟩ := s.onPeerConnected_cases (P := fun _ _ => True) peerId info nowUs
  refine ⟨s₁.desk, hdeals.desk, ?_⟩
  rcases hafter with he | ⟨i, hfree, he⟩
  · exact .inl (congrArg desk he)
  refine .inr ⟨i, hfree, ?_⟩
  rw [he]
  unfold desk Desk.sit modifyPeer
  congr 1
  funext j
  by_cases hj : j = i
  · subst hj
    simp [newPeer]
  · simp [hj]

/-- What the turn's own message does to the desk, before anybody leaves. -/
inductive Begins (s : Broker) (t : HubTurn) : Desk → Prop
  | other : Begins s t s.desk.fresh
  | refused {peerId m nowUs} (status : ConfigureStatus) (ht : t.event = .control peerId (.configure m) nowUs) :
      Begins s t (s.desk.fresh.reply peerId { status })
  | accepted {peerId m nowUs k r out} (ht : t.event = .control peerId (.configure m) nowUs)
      (hseat : s.desk.IsSeated peerId) (hfree : ¬ (s.pendingIfconfig k).inUse) (hr : s.Forwards peerId m r out) :
      Begins s t (s.desk.fresh.accept k r out)
  | relayed {m nowUs k} (ht : t.event = .control (s.pendingIfconfig k).agentPeerId (.ifconfigReply m) nowUs)
      (hk : (s.pendingIfconfig k).inUse) (hid : m.requestId = (s.pendingIfconfig k).requestId)
      (hseat : s.desk.IsSeated (s.pendingIfconfig k).requesterPeerId) :
      Begins s t ((s.desk.fresh.clear k).reply (s.pendingIfconfig k).requesterPeerId
        ⟨configureStatus m.status, m.settings, m.detail⟩)

/-- A message of the desk, and then the peer that sent it leaves, if it did not take the reply. -/
theorem onPeerControl_desk (hd : s.desk.Tended) {m : ControlMessage} {nowUs : ℕ}
    (ht : t.event = .control peerId m nowUs) :
    ∃ d₁, s.Begins t d₁ ∧ d₁.Empties ({ s with port := t.port }.onPeerControl peerId m nowUs).desk := by
  obtain ⟨s₀, hs₀⟩ : ∃ s₀ : Broker, s₀ = { s with port := t.port, nowUs } := ⟨_, rfl⟩
  have hdesk : s₀.desk = s.desk.fresh := by rw [hs₀]; rfl
  have hstep : { s with port := t.port }.onPeerControl peerId m nowUs
      = (s₀.find peerId).elim s₀ fun i => (s₀.handleControl i m).dropIfSendFailed peerId := by
    rw [hs₀]
    exact onPeerControl_eq ..
  rw [hstep]
  cases hfind : s₀.find peerId with
  | none =>
    refine ⟨_, .other, ?_⟩
    rw [← hdesk]
    exact .refl
  | some i =>
    obtain ⟨hi, hid⟩ := PeerDirectory.find_some hfind
    have hseat : s.desk.IsSeated peerId := by
      have : s₀.desk.IsSeated peerId := ⟨i, Prod.ext hi hid⟩
      rwa [hdesk] at this
    have hdrop := (dropIfSendFailed_deals (s₀.handleControl i m) (P := fun _ _ => True) peerId).desk
    suffices h : ∃ d₁, s.Begins t d₁ ∧ d₁.Empties (s₀.handleControl i m).desk by
      obtain ⟨d₁, hbegins, hempties⟩ := h
      exact ⟨d₁, hbegins, hempties.trans hdrop⟩
    by_cases hm : ControlMessage.isConfiguring m = false
    · have hpermits := { s with port := t.port }.permits_of_all (fun _ _ => trivial) (.control peerId m nowUs)
      obtain ⟨_, _, _, hempties⟩ := s₀.handleControl_few (P := fun _ _ => True) hi (fun h : False => h.elim) m
        (by rw [hs₀] at hfind ⊢; exact hpermits i hfind)
      refine ⟨_, .other, ?_⟩
      rw [← hdesk]
      exact hempties hm
    cases m with
    | configure r =>
      have hforwards : ∀ {rec out}, s₀.Forwards peerId r rec out → s.Forwards peerId r rec out := by
        intro rec out h
        rw [hs₀] at h
        exact ⟨h.inUse, h.requester, h.requestId, h.owner, h.agent⟩
      simp only [handleControl]
      rcases s₀.handleConfigure_desk i r with h | ⟨status, h⟩ | ⟨k, rec, out, hfree, hrec, h⟩
      · rw [h, hdesk]
        exact ⟨_, .other, .refl⟩
      · rw [h, hdesk, hid]
        exact ⟨_, .refused status ht, .refl⟩
      · rw [hid] at hrec
        rw [h, hdesk]
        exact ⟨_, .accepted ht hseat (by rw [hs₀] at hfree; exact hfree) (hforwards hrec), .refl⟩
    | ifconfigReply r =>
      simp only [handleControl]
      rcases s₀.handleIfconfigReply_desk i r with h | ⟨k, hk, hagent, hreq, h⟩
      · rw [h, hdesk]
        exact ⟨_, .other, .refl⟩
      have hpending : s₀.pendingIfconfig = s.pendingIfconfig := by rw [hs₀]
      rw [hpending] at hk hagent hreq h
      have hthere : s.desk.IsSeated (s.pendingIfconfig k).requesterPeerId := hd.requester k hk
      have hfound : (s₀.find (s.pendingIfconfig k).requesterPeerId).isSome := by
        rw [← isSeated_iff, hdesk]
        exact hthere
      rw [if_pos hfound, hdesk] at h
      rw [h]
      exact ⟨_, .relayed (by rw [ht, hagent, hid]) hk hreq.symm hthere, .refl⟩
    | _ => exact absurd rfl hm

/-- **A turn: its own message, then peers that leave, then one that comes.** -/
theorem step_desk (hd : s.desk.Tended) (t : HubTurn) :
    ∃ d₁ d₂, s.Begins t d₁ ∧ d₁.Empties d₂ ∧ ((s.step t).desk = d₂
      ∨ ∃ i peerId info nowUs, t.event = .connected peerId info nowUs ∧ (d₂.seats i).1 = false
        ∧ (s.step t).desk = d₂.sit i peerId) := by
  have hpermits := { s with port := t.port }.permits_of_all (P := fun _ _ => True) (fun _ _ => trivial) t.event
  by_cases hlater : HubEvent.isLater t.event ∧ HubEvent.isControl t.event = false
  · exact ⟨_, _, .other, (handle_deals _ hlater.1 hlater.2 hpermits).desk, .inl rfl⟩
  unfold step
  cases ht : t.event with
  | connected peerId info nowUs =>
    obtain ⟨d, hempties, hafter⟩ := { s with port := t.port }.onPeerConnected_desk peerId info nowUs
    refine ⟨_, d, .other, hempties, hafter.imp_right ?_⟩
    rintro ⟨i, hfree, hsit⟩
    exact ⟨i, peerId, info, nowUs, rfl, hfree, hsit⟩
  | control peerId m nowUs =>
    obtain ⟨d₁, hbegins, hempties⟩ := onPeerControl_desk hd ht
    exact ⟨d₁, _, hbegins, hempties, .inl rfl⟩
  | _ =>
    rw [ht] at hlater
    exact absurd ⟨rfl, rfl⟩ hlater

/-! ### What a turn answers -/

/-- The request waits for its agent. -/
def Waits (s : Broker) (r : PendingIfconfig) : Prop := r.inUse ∧ ∃ k, s.pendingIfconfig k = r

/-- The turn brings a CONFIGURE that is accepted: it is forwarded to the agent that owns the interface. -/
def Accepts (s : Broker) (t : HubTurn) (r : PendingIfconfig) : Prop :=
  ∃ m nowUs out, t.event = .control r.requesterPeerId (.configure m) nowUs ∧ s.Forwards r.requesterPeerId m r out
    ∧ (r.agentPeerId, out) ∈ (s.step t).desk.forwarded

/-- The turn brings a CONFIGURE that is refused at once, with one reply, or none that is. -/
def RefusesConfigure (s : Broker) (t : HubTurn) (refusals : List (UInt32 × ConfigureReplyMessage)) : Prop :=
  refusals = [] ∨ (∃ peerId m nowUs status, t.event = .control peerId (.configure m) nowUs
    ∧ refusals = [(peerId, { status })]) ∧ ∀ r, ¬ s.Accepts t r

/-- The reply of the agent the request was forwarded to, to that request. -/
def IsReplyTo (t : HubTurn) (r : PendingIfconfig) (reply : ConfigureReplyMessage) : Prop :=
  ∃ m nowUs, t.event = .control r.agentPeerId (.ifconfigReply m) nowUs ∧ m.requestId = r.requestId
    ∧ reply = ⟨configureStatus m.status, m.settings, m.detail⟩

/-- The requests a turn answers, with their answers. -/
structure AnswersConfigures (s : Broker) (t : HubTurn) (answers : List (PendingIfconfig × ConfigureReplyMessage)) : Prop where
  /-- Every CONFIGURE_REPLY is an answer, sent to the peer that asked, or refuses the turn's CONFIGURE. -/
  replies : ∃ refusals, s.RefusesConfigure t refusals
    ∧ (s.step t).desk.replies = refusals ++ answers.map fun a => (a.1.requesterPeerId, a.2)
  /-- What is answered was open, and is no longer. -/
  closed : ∀ a ∈ answers, (s.Waits a.1 ∨ s.Accepts t a.1) ∧ ¬ (s.step t).Waits a.1
  /-- No request is answered twice. -/
  once : (answers.map (·.1.requestId)).Nodup
  /-- An answer is the agent's reply to the request, or says that the agent has left. -/
  content : ∀ a ∈ answers, IsReplyTo t a.1 a.2 ∨ a.2 = { status := .agentUnreachable } ∧ ¬ (s.step t).desk.IsSeated a.1.agentPeerId
  /-- A request that is open no longer has been answered, if the peer that asked is still there. -/
  answered : ∀ r, s.Waits r ∨ s.Accepts t r → ¬ (s.step t).Waits r → (s.step t).desk.IsSeated r.requesterPeerId →
    ∃ reply, (r, reply) ∈ answers
  /-- If the agent leaves first, the peer that asked hears that it cannot be reached. -/
  lost : ∀ r, s.Waits r ∨ s.Accepts t r → ¬ (s.step t).desk.IsSeated r.agentPeerId →
    (s.step t).desk.IsSeated r.requesterPeerId → (∀ reply, ¬ IsReplyTo t r reply) →
    (r, { status := .agentUnreachable }) ∈ answers

/-- A turn accepts one request. -/
theorem Forwards.unique {m : ConfigureMessage} {r r' : PendingIfconfig} {out out' : IfconfigMessage}
    (h : s.Forwards peerId m r out) (h' : s.Forwards peerId m r' out') : r = r' := by
  obtain ⟨k, hk, -, ha, hi, -⟩ := h.owner
  obtain ⟨k', hk', -, ha', hi', -⟩ := h'.owner
  cases hk.symm.trans hk'
  rcases r with ⟨inUse, requester, agent, interface, request⟩
  rcases r' with ⟨inUse', requester', agent', interface', request'⟩
  have := h.inUse.trans h'.inUse.symm
  have := h.requester.trans h'.requester.symm
  have := h.requestId.trans h'.requestId.symm
  have := ha.trans ha'.symm
  have := hi.trans hi'.symm
  simp_all

theorem accepts_unique {r r' : PendingIfconfig} (h : s.Accepts t r) (h' : s.Accepts t r') : r = r' := by
  obtain ⟨m, nowUs, out, ht, hr, -⟩ := h
  obtain ⟨m', nowUs', out', ht', hr', -⟩ := h'
  rw [ht] at ht'
  injection ht' with hp hm
  injection hm with hm
  rw [← hp, ← hm] at hr'
  exact hr.unique hr'

/-- The desk after the turn's own message: what it has refused or answered, and what is open then. -/
structure Begun (s : Broker) (t : HubTurn) (d : Desk) (refusals : List (UInt32 × ConfigureReplyMessage))
    (first : List (PendingIfconfig × ConfigureReplyMessage)) : Prop where
  tended : d.Tended
  seats : d.seats = s.desk.seats
  refuses : s.RefusesConfigure t refusals
  replies : d.replies = refusals ++ first.map fun a => (a.1.requesterPeerId, a.2)
  waiting : ∀ k, (d.pending k).inUse → s.Waits (d.pending k) ∨ s.Accepts t (d.pending k)
  relayed : ∀ a ∈ first, s.Waits a.1 ∧ IsReplyTo t a.1 a.2
  apart : ∀ a ∈ first, ∀ k, (d.pending k).inUse → (d.pending k).requestId ≠ a.1.requestId
  once : (first.map (·.1.requestId)).Nodup
  all : ∀ r, s.Waits r ∨ s.Accepts t r → (∃ k, d.pending k = r) ∨ ∃ reply, (r, reply) ∈ first
  ids : ∀ r, s.Accepts t r → s.nextIfconfigRequestId < r.requestId ∧ r.requestId ≤ d.nextRequestId

/-- The next id is a new one, if the counter has not wrapped. -/
theorem lt_add_one_of_le {n : UInt32} (h : n ≤ n + 1) : n < n + 1 := by
  rw [UInt32.le_iff_toNat_le] at h
  rw [UInt32.lt_iff_toNat_lt]
  have := n.toNat_lt
  rw [UInt32.toNat_add] at h ⊢
  simp only [UInt32.reduceToNat, Nat.reducePow] at h ⊢ this
  omega

variable {d : Desk} {turns : List HubTurn}

theorem Begins.begun (hd : s.desk.Tended) (h : s.Begins t d) (hforwarded : (s.step t).desk.forwarded = d.forwarded)
    (hnext : s.nextIfconfigRequestId ≤ d.nextRequestId) : ∃ refusals first, s.Begun t d refusals first := by
  -- unless a request is forwarded, none is accepted
  have hnone : d.forwarded = [] → ∀ r, ¬ s.Accepts t r := by
    rintro he r ⟨m, nowUs, out, -, -, hmem⟩
    rw [hforwarded, he] at hmem
    exact not_mem_nil hmem
  cases h with
  | other =>
    have hnone := hnone rfl
    exact ⟨[], [], hd.fresh, rfl, .inl rfl, rfl, fun k hk => .inl ⟨hk, k, rfl⟩, by simp, by simp, .nil,
      fun r hr => .inl (hr.resolve_right (hnone r)).2, fun r hr => absurd hr (hnone r)⟩
  | @refused peerId m nowUs status ht =>
    have hnone := hnone rfl
    exact ⟨[(peerId, { status })], [], hd.fresh.reply _ _, rfl, .inr ⟨⟨peerId, m, nowUs, status, ht, rfl⟩, hnone⟩, rfl,
      fun k hk => .inl ⟨hk, k, rfl⟩, by simp, by simp, .nil, fun r hr => .inl (hr.resolve_right (hnone r)).2,
      fun r hr => absurd hr (hnone r)⟩
  | @accepted peerId m nowUs k r out ht hseat hfree hr =>
    obtain rfl : peerId = r.requesterPeerId := hr.requester.symm
    have hslot : ∀ l, (s.desk.fresh.accept k r out).pending l = if l = k then r else s.pendingIfconfig l := by
      intro l
      by_cases hl : l = k <;> simp [Desk.accept, Desk.fresh, desk, hl]
    have haccepts : s.Accepts t r := by
      refine ⟨m, nowUs, out, ht, hr, ?_⟩
      rw [hforwarded]
      simp [Desk.accept]
    have hlater : s.desk.nextRequestId < r.requestId := by
      rw [hr.requestId]
      have hle : s.nextIfconfigRequestId ≤ r.requestId := hnext
      rw [hr.requestId] at hle
      exact lt_add_one_of_le hle
    have hsame : ∀ r', s.Accepts t r' → r = r' := fun r' hr' => accepts_unique haccepts hr'
    refine ⟨[], [], hd.fresh.accept hlater hseat hr.agent, rfl, .inl rfl, rfl, fun l hl => ?_, by simp, by simp, .nil,
      fun r' hr' => .inl ?_, fun r' hr' => ?_⟩
    · rw [hslot] at hl ⊢
      by_cases hlk : l = k
      · rw [if_pos hlk]
        exact .inr haccepts
      · rw [if_neg hlk] at hl ⊢
        exact .inl ⟨hl, l, rfl⟩
    · rcases hr' with ⟨hu, l, hl⟩ | hr'
      · have hlk : l ≠ k := by
          rintro rfl
          rw [hl] at hfree
          exact hfree hu
        exact ⟨l, by rw [hslot, if_neg hlk, hl]⟩
      · exact ⟨k, by rw [hslot, if_pos rfl, hsame r' hr']⟩
    · rw [← hsame r' hr']
      exact ⟨hlater, UInt32.le_refl _⟩
  | @relayed m nowUs k ht hk hid hseat =>
    have hnone := hnone rfl
    have hslot : ∀ l, (((s.desk.fresh.clear k).reply (s.pendingIfconfig k).requesterPeerId
        ⟨configureStatus m.status, m.settings, m.detail⟩).pending l).inUse → l ≠ k ∧ (s.pendingIfconfig l).inUse
          ∧ (s.desk.fresh.clear k).pending l = s.pendingIfconfig l := by
      intro l hl
      obtain ⟨hne, hu⟩ := Desk.clear_inUse.1 hl
      exact ⟨hne, hu, Desk.clear_of_ne hne⟩
    refine ⟨[], [(s.pendingIfconfig k, ⟨configureStatus m.status, m.settings, m.detail⟩)], (hd.fresh.clear k).reply _ _,
      rfl, .inl rfl, rfl, fun l hl => .inl ?_, ?_, ?_, by simp, fun r hr => ?_, fun r hr => absurd hr (hnone r)⟩
    · obtain ⟨-, hu, heq⟩ := hslot l hl
      exact ⟨hl, l, heq.symm⟩
    · rintro a ha
      obtain rfl := mem_singleton.1 ha
      exact ⟨⟨hk, k, rfl⟩, m, nowUs, ht, hid, rfl⟩
    · rintro a ha l hl heq
      obtain rfl := mem_singleton.1 ha
      obtain ⟨hne, hu, hsame⟩ := hslot l hl
      rw [Desk.reply, hsame] at heq
      exact hne (hd.unique l k hu hk heq)
    · obtain ⟨hu, l, hl⟩ := hr.resolve_right (hnone r)
      by_cases hlk : l = k
      · rw [← hl, hlk]
        exact .inr ⟨_, mem_singleton.2 rfl⟩
      · exact .inl ⟨l, (Desk.clear_of_ne hlk).trans hl⟩

/-- What the message answered, and what the peers that left answered. -/
theorem Begun.answers {refusals : List (UInt32 × ConfigureReplyMessage)}
    {first : List (PendingIfconfig × ConfigureReplyMessage)} {d' : Desk}
    (h : s.Begun t d refusals first) (hs : d.Settles d' told) (hpending : (s.step t).desk.pending = d'.pending)
    (hreplies : (s.step t).desk.replies = d'.replies)
    (hseats : ∀ id, s.desk.IsSeated id → (s.step t).desk.IsSeated id → d'.IsSeated id)
    (hstays : ∀ id, d'.IsSeated id → (s.step t).desk.IsSeated id) :
    s.AnswersConfigures t (first ++ told.map fun k => (d.pending k, { status := .agentUnreachable })) := by
  have hwaits : ∀ r, (s.step t).Waits r ↔ r.inUse ∧ ∃ k, d'.pending k = r := by
    intro r
    unfold Waits
    rw [← hpending]
    exact Iff.rfl
  have hopen : ∀ r, (s.step t).Waits r → ∃ k, (d'.pending k).inUse ∧ (d.pending k).inUse ∧ d.pending k = r := by
    intro r hw
    obtain ⟨hu, k, hk⟩ := (hwaits r).1 hw
    have hused : (d'.pending k).inUse := by rw [hk]; exact hu
    have hkept := hs.kept hused
    exact ⟨k, hused, hkept ▸ hused, by rw [← hkept, hk]⟩
  have hthere : ∀ id, d.IsSeated id → s.desk.IsSeated id := by
    intro id hid
    unfold Desk.IsSeated at hid ⊢
    rwa [h.seats] at hid
  -- whatever is no longer open is answered, if the requester is there
  have hanswered : ∀ r, s.Waits r ∨ s.Accepts t r → ¬ (s.step t).Waits r →
      (s.step t).desk.IsSeated r.requesterPeerId → (∃ reply, (r, reply) ∈ first)
        ∨ (r, { status := .agentUnreachable })
          ∈ told.map fun k => (d.pending k, ({ status := .agentUnreachable } : ConfigureReplyMessage)) := by
    intro r hr hnot hseat
    rcases h.all r hr with ⟨k, hk⟩ | hreply
    · have hu : (d.pending k).inUse := by
        rw [hk]
        exact hr.elim (·.1) fun ⟨_, _, _, _, hf, _⟩ => hf.inUse
      have hclosed : Desk.Closed d d' k := by
        refine ⟨hu, fun hused => hnot ((hwaits r).2 ⟨by rw [← hk]; exact hu, k, ?_⟩)⟩
        rw [hs.kept hused, hk]
      have htold : k ∈ told := by
        refine hs.heard k hclosed (hseats _ (hthere _ (h.tended.requester k hu)) ?_)
        rwa [hk]
      exact .inr (mem_map.2 ⟨k, htold, by rw [hk]⟩)
    · exact .inl hreply
  refine ⟨⟨refusals, h.refuses, ?_⟩, ?_, ?_, ?_, ?_, ?_⟩
  · rw [hreplies, hs.replies, h.replies, append_assoc, map_append, map_map]
    rfl
  · intro a ha
    rcases mem_append.1 ha with ha | ha
    · refine ⟨.inl (h.relayed a ha).1, fun hw => ?_⟩
      obtain ⟨k, -, hu, hk⟩ := hopen _ hw
      exact h.apart a ha k hu (by rw [hk])
    · obtain ⟨k, hk, rfl⟩ := mem_map.1 ha
      have hclosed := (hs.closed k hk).1
      refine ⟨h.waiting k hclosed.1, fun hw => ?_⟩
      obtain ⟨l, hused, hu, hl⟩ := hopen _ hw
      obtain rfl := h.tended.unique l k hu hclosed.1 (by rw [hl])
      exact hclosed.2 hused
  · rw [map_append, map_map, nodup_append']
    refine ⟨h.once, hs.once.map_on fun k hk l hl hid => ?_, fun id hid hid' => ?_⟩
    · exact h.tended.unique k l (hs.closed k hk).1.1 (hs.closed l hl).1.1 hid
    · obtain ⟨a, ha, rfl⟩ := mem_map.1 hid
      obtain ⟨k, hk, heq⟩ := mem_map.1 hid'
      exact h.apart a ha k (hs.closed k hk).1.1 heq
  · intro a ha
    rcases mem_append.1 ha with ha | ha
    · exact .inl (h.relayed a ha).2
    · obtain ⟨k, hk, rfl⟩ := mem_map.1 ha
      refine .inr ⟨rfl, fun hseat => (hs.closed k hk).2 (hseats _ ?_ hseat)⟩
      exact hthere _ (h.tended.agent k (hs.closed k hk).1.1)
  · intro r hr hnot hseat
    rcases hanswered r hr hnot hseat with ⟨reply, hreply⟩ | htold
    · exact ⟨reply, mem_append.2 (.inl hreply)⟩
    · exact ⟨_, mem_append.2 (.inr htold)⟩
  · intro r hr hagent hseat hreply
    have hnot : ¬ (s.step t).Waits r := by
      intro hw
      obtain ⟨k, hused, hu, hk⟩ := hopen r hw
      have hstood : d.IsSeated r.agentPeerId := hk ▸ h.tended.agent k hu
      exact hs.left _ hstood (fun hseat' => hagent (hstays _ hseat')) k ⟨hused, .inl (by rw [hs.kept hused, hk])⟩
    refine mem_append.2 (.inr ((hanswered r hr hnot hseat).resolve_left ?_))
    rintro ⟨reply, hmem⟩
    exact hreply reply (h.relayed _ hmem).2

/-- **One turn**: the desk stays in order, and what is closed is answered. -/
theorem step_answers (hd : s.desk.Tended) (hfresh : s.FreshId t)
    (hnext : s.nextIfconfigRequestId ≤ (s.step t).nextIfconfigRequestId) :
    (s.step t).desk.Tended ∧ (∃ answers, s.AnswersConfigures t answers)
      ∧ (∀ r, (s.step t).Waits r → s.Waits r ∨ s.Accepts t r)
      ∧ ∀ r, s.Accepts t r →
        s.nextIfconfigRequestId < r.requestId ∧ r.requestId ≤ (s.step t).nextIfconfigRequestId := by
  obtain ⟨d₁, d₂, hbegins, hempties, hafter⟩ := step_desk hd t
  have hdistinct : d₁.Distinct := by
    cases hbegins <;> exact hd.distinct
  obtain ⟨told, hsettles⟩ := hempties.settles hdistinct
  have hrest : (s.step t).desk.pending = d₂.pending ∧ (s.step t).desk.replies = d₂.replies
      ∧ (s.step t).desk.forwarded = d₂.forwarded ∧ (s.step t).desk.nextRequestId = d₂.nextRequestId := by
    rcases hafter with h | ⟨i, peerId, info, nowUs, -, -, h⟩ <;> rw [h] <;> exact ⟨rfl, rfl, rfl, rfl⟩
  have hsame : (s.step t).nextIfconfigRequestId = d₁.nextRequestId := hrest.2.2.2.trans hsettles.next
  have hcount : s.nextIfconfigRequestId ≤ d₁.nextRequestId := by rwa [hsame] at hnext
  obtain ⟨refusals, first, hbegun⟩ := hbegins.begun hd (hrest.2.2.1.trans hsettles.forwarded) hcount
  have hleft := hbegun.tended.settles hsettles
  have hwaits : ∀ r, (s.step t).Waits r → s.Waits r ∨ s.Accepts t r := by
    rintro r ⟨hu, k, hk⟩
    have hk' : d₂.pending k = r := by
      rw [← hrest.1]
      exact hk
    have hused : (d₂.pending k).inUse := by rw [hk']; exact hu
    have hkept := hsettles.kept hused
    have hopen := hbegun.waiting k (hkept ▸ hused)
    rwa [← hkept, hk'] at hopen
  have hids : ∀ r, s.Accepts t r →
      s.nextIfconfigRequestId < r.requestId ∧ r.requestId ≤ (s.step t).nextIfconfigRequestId := by
    rw [hsame]
    exact hbegun.ids
  rcases hafter with h | ⟨i, peerId, info, nowUs, ht, hfree, h⟩
  · exact ⟨by rwa [h], ⟨_, hbegun.answers hsettles hrest.1 hrest.2.1 (fun id _ hid => h ▸ hid) fun id hid => h ▸ hid⟩,
      hwaits, hids⟩
  · have hnew : ¬ s.desk.IsSeated peerId := by
      have hid : peerId ≠ 0 ∧ s.find peerId = none := by
        unfold FreshId at hfresh
        rwa [ht] at hfresh
      rw [isSeated_iff, hid.2]
      simp
    have hgone : ¬ d₂.IsSeated peerId := by
      intro hseat
      have := hsettles.seats _ hseat
      unfold Desk.IsSeated at this
      rw [hbegun.seats] at this
      exact hnew this
    refine ⟨by rw [h]; exact hleft.sit hfree hgone, ⟨_, hbegun.answers hsettles hrest.1 hrest.2.1
      (fun id hid hseat => ?_) fun id hid => ?_⟩, hwaits, hids⟩
    · rw [h, Desk.sit_isSeated hfree] at hseat
      refine hseat.resolve_left fun he => hnew ?_
      rwa [he] at hid
    · rw [h, Desk.sit_isSeated hfree]
      exact .inr hid

/-! ### Runs -/

/-- The answers of a run, turn by turn. -/
def Accounts : Broker → List HubTurn → List (List (PendingIfconfig × ConfigureReplyMessage)) → Prop
  | _, [], answers => answers = []
  | s, t :: turns, answers => ∃ now later, answers = now :: later ∧ s.AnswersConfigures t now ∧ Accounts (s.step t) turns later

/-- The connecting peer's id is not taken, and the counter of the requests does not wrap. -/
def KeepsCount (s : Broker) (t : HubTurn) : Prop :=
  s.FreshId t ∧ s.nextIfconfigRequestId ≤ (s.step t).nextIfconfigRequestId

instance (s : Broker) (t : HubTurn) : Decidable (s.KeepsCount t) := inferInstanceAs (Decidable (_ ∧ _))

section

variable (config : HubConfig) (port : HubPort) (routes : List BridgeRoute) (groups : List BridgeGroup)

theorem init_desk : (init config port routes groups).desk = ({ config, port : Broker }).desk := by
  have hload : ∀ s g, (loadGroup s g).desk = s.desk := by
    intro s g
    unfold loadGroup
    split
    · unfold openGroupInterface
      split
      · rfl
      split
      · rfl
      · exact (reattachInterface_moves (P := fun _ _ => True) _ fun _ _ _ _ _ _ => trivial).2.desk
    · rfl
  have hloads : ∀ (l : List BridgeGroup) s, (l.foldl loadGroup s).desk = s.desk := by
    intro l
    induction l with
    | nil => exact fun _ => rfl
    | cons g l ih => exact fun s => (ih _).trans (hload s g)
  unfold init
  split
  · rfl
  · exact hloads _ _

/-- At first nobody is there, and nothing waits. -/
theorem init_empty :
    (init config port routes groups).desk.Tended ∧ ∀ r, ¬ (init config port routes groups).Waits r := by
  have hseat : ∀ i, (init config port routes groups).desk.seats i = (false, 0) := by
    intro i
    rw [init_desk]
    rfl
  have hslot : ∀ k, ((init config port routes groups).desk.pending k).inUse = false := by
    intro k
    rw [init_desk]
    rfl
  constructor
  · refine ⟨fun i j id hi => ?_, fun k hk => ?_, fun k hk => ?_, fun k hk => ?_, fun k l hk => ?_⟩
    · rw [hseat] at hi
      cases hi
    all_goals
      rw [hslot] at hk
      cases hk
  · rintro r ⟨hu, k, rfl⟩
    exact Bool.false_ne_true ((hslot k).symm.trans hu)

end

/-- What a run answers was waiting when it began, or is newer. No request is answered twice. -/
theorem run_accounts {s : Broker} (hd : s.desk.Tended) (h : Run.Along step KeepsCount s turns) :
    ∃ answers, s.Accounts turns answers ∧ (answers.flatten.map (·.1.requestId)).Nodup
      ∧ ∀ a ∈ answers.flatten, s.Waits a.1 ∨ s.nextIfconfigRequestId < a.1.requestId := by
  induction turns generalizing s with
  | nil => exact ⟨[], rfl, .nil, by simp⟩
  | cons t turns ih =>
    obtain ⟨hd', ⟨now, hnow⟩, hwaits, hids⟩ := step_answers hd h.1.1 h.1.2
    obtain ⟨later, hlater, honce, hnew⟩ := ih hd' h.2
    have hpast : ∀ s : Broker, s.desk.Tended → ∀ r, s.Waits r → r.requestId ≤ s.nextIfconfigRequestId := by
      rintro s hd r ⟨hu, k, rfl⟩
      exact hd.past k hu
    have hsingle : ∀ s : Broker, s.desk.Tended → ∀ r r', s.Waits r → s.Waits r' → r.requestId = r'.requestId → r = r' := by
      rintro s hd r r' ⟨hu, k, rfl⟩ ⟨hu', k', rfl⟩ hid
      rw [hd.unique k k' hu hu' hid]
    refine ⟨now :: later, ⟨now, later, rfl, hnow, hlater⟩, ?_, ?_⟩
    · rw [flatten_cons, map_append, nodup_append']
      refine ⟨hnow.once, honce, fun id hid hid' => ?_⟩
      obtain ⟨a, ha, rfl⟩ := mem_map.1 hid
      obtain ⟨b, hb, heq⟩ := mem_map.1 hid'
      obtain ⟨hopen, hclosed⟩ := hnow.closed a ha
      have hle : a.1.requestId ≤ (s.step t).nextIfconfigRequestId := by
        rcases hopen with hw | hacc
        · exact UInt32.le_trans (hpast s hd _ hw) h.1.2
        · exact (hids _ hacc).2
      rcases hnew b hb with hw | hlt
      · -- the later one was open when this one was: they are the same, but this one is closed
        rcases hwaits b.1 hw with hw' | hacc'
        · rcases hopen with hwa | hacca
          · exact hclosed (hsingle s hd _ _ hwa hw' heq.symm ▸ hw)
          · have hlt := (hids _ hacca).1
            rw [← heq] at hlt
            exact absurd (hpast s hd _ hw') (UInt32.not_le.2 hlt)
        · rcases hopen with hwa | hacca
          · have hlt := (hids _ hacc').1
            rw [heq] at hlt
            exact absurd (hpast s hd _ hwa) (UInt32.not_le.2 hlt)
          · exact hclosed (accepts_unique hacca hacc' ▸ hw)
      · rw [heq] at hlt
        exact absurd hle (UInt32.not_le.2 hlt)
    · intro a ha
      rw [flatten_cons, mem_append] at ha
      rcases ha with ha | ha
      · exact (hnow.closed a ha).1.imp_right fun hacc => (hids _ hacc).1
      · rcases hnew a ha with hw | hlt
        · exact (hwaits _ hw).imp_right fun hacc => (hids _ hacc).1
        · exact .inr (UInt32.lt_of_le_of_lt h.1.2 hlt)

/-- A request that waits was waiting when the run began, or was accepted in it. -/
theorem waits_origin {s : Broker} (hd : s.desk.Tended) (h : Run.Along step KeepsCount s turns)
    {r : PendingIfconfig} (hr : (s.run turns).Waits r) :
    s.Waits r ∨ ∃ past t later, turns = past ++ t :: later ∧ (s.run past).Accepts t r := by
  induction turns generalizing s with
  | nil => exact .inl hr
  | cons t turns ih =>
    obtain ⟨hd', -, hwaits, -⟩ := step_answers hd h.1.1 h.1.2
    rcases ih hd' h.2 hr with hw | ⟨past, t', later, rfl, hacc⟩
    · exact (hwaits r hw).imp_right fun hacc => ⟨[], t, turns, rfl, hacc⟩
    · exact .inr ⟨t :: past, t', later, rfl, hacc⟩

theorem tended_run {s : Broker} (hd : s.desk.Tended) (h : Run.Along step KeepsCount s turns) :
    (s.run turns).desk.Tended :=
  h.invariant (I := fun s => s.desk.Tended) (fun _ _ hd h => (step_answers hd h.1 h.2).1) hd

theorem nextIfconfigRequestId_le {s : Broker} (h : Run.Along step KeepsCount s turns) :
    s.nextIfconfigRequestId ≤ (s.run turns).nextIfconfigRequestId := by
  refine h.invariant (I := fun s' => s.nextIfconfigRequestId ≤ s'.nextIfconfigRequestId) ?_ (UInt32.le_refl _)
  exact fun _ _ hle h => UInt32.le_trans hle h.2

/-- **CONFIGURE correlation**: in every run in which connecting peers have ids of their own and the counter of the
requests does not wrap,

* the CONFIGURE_REPLYs of all turns are the refusals of the turns' own CONFIGUREs, and answers to accepted ones, no two
  to the same;
* a request that waits was accepted in an earlier turn, and both the peer that asked and the agent that is to answer are
  there;
* accepted requests have different ids.

What an answer is, whom it goes to and which requests a turn answers is said in `AnswersConfigures`. -/
theorem configure_correlated (config : HubConfig) (port : HubPort) (routes : List BridgeRoute) (groups : List BridgeGroup)
    (turns : List HubTurn) (h : Run.Along step KeepsCount (init config port routes groups) turns) :
    (∃ answers, (init config port routes groups).Accounts turns answers
      ∧ (answers.flatten.map (·.1.requestId)).Nodup)
    ∧ (∀ past later, turns = past ++ later → ∀ s, s = (init config port routes groups).run past →
      ∀ k, (s.pendingIfconfig k).inUse →
        (s.find (s.pendingIfconfig k).requesterPeerId).isSome ∧ (s.find (s.pendingIfconfig k).agentPeerId).isSome
        ∧ ∃ before t after, past = before ++ t :: after
          ∧ ((init config port routes groups).run before).Accepts t (s.pendingIfconfig k))
    ∧ ∀ past t between t' later r r', turns = past ++ t :: (between ++ t' :: later) →
      ((init config port routes groups).run past).Accepts t r →
      ((init config port routes groups).run (past ++ t :: between)).Accepts t' r' → r.requestId < r'.requestId := by
  obtain ⟨hd, hnone⟩ := init_empty config port routes groups
  generalize init config port routes groups = s₀ at hd hnone h ⊢
  refine ⟨?_, ?_, ?_⟩
  · obtain ⟨answers, haccounts, honce, -⟩ := run_accounts hd h
    exact ⟨answers, haccounts, honce⟩
  · rintro past later rfl s rfl k hk
    have hpast := (Run.Along.append.1 h).1
    have htended := tended_run hd hpast
    rw [← isSeated_iff, ← isSeated_iff]
    refine ⟨htended.requester k hk, htended.agent k hk, ?_⟩
    exact (waits_origin hd hpast ⟨hk, k, rfl⟩).resolve_left (hnone _)
  · rintro past t between t' later r r' rfl hr hr'
    obtain ⟨hpast, hturn, hrest⟩ := Run.Along.append.1 h
    obtain ⟨hbetween, hturn', -⟩ := Run.Along.append.1 hrest
    have htended := tended_run hd hpast
    have hafter := (step_answers htended hturn.1 hturn.2).1
    have hrun : s₀.run (past ++ t :: between) = ((s₀.run past).step t).run between := by
      rw [Broker.run, Run.run_append]
      rfl
    rw [hrun] at hr'
    have hle : r.requestId ≤ ((s₀.run past).step t).nextIfconfigRequestId :=
      ((step_answers htended hturn.1 hturn.2).2.2.2 r hr).2
    have hlt : (((s₀.run past).step t).run between).nextIfconfigRequestId < r'.requestId :=
      ((step_answers (tended_run hafter hbetween) hturn'.1 hturn'.2).2.2.2 r' hr').1
    exact UInt32.lt_of_le_of_lt (UInt32.le_trans hle (nextIfconfigRequestId_le hbetween)) hlt

/-- An agent with an interface, an administrator that configures it, and the agent leaves. -/
def agentLeavesFirst : List HubTurn :=
  agentJoins 1 (registersOne 1 2) ++
  [{ event := .connected 2 { isLocal := true } 0 },
   { event := .control 2 (.hello (some { role := .admin, capabilities := 7 })) 0 },
   { event := .control 2 (.configure { agentName := [1], interfaceName := [2], op := 0 }) 0 },
   { event := .disconnected 1 }]

set_option maxRecDepth 100000 in
/-- The administrator hears that the agent cannot be reached. -/
theorem configure_correlated_agentLeavesFirst : Run.Along step KeepsCount small agentLeavesFirst
    ∧ (small.run agentLeavesFirst).desk.replies = [(2, { status := .agentUnreachable })]
    ∧ ∃ answers, small.Accounts agentLeavesFirst answers ∧ (answers.flatten.map (·.1.requestId)).Nodup := by
  have hrun : Run.Along step KeepsCount small agentLeavesFirst
      ∧ (small.run agentLeavesFirst).desk.replies = [(2, { status := .agentUnreachable })] := by
    decide +kernel
  exact ⟨hrun.1, hrun.2, (configure_correlated _ _ _ _ _ hrun.1).1⟩

end Broker
end CanHub
