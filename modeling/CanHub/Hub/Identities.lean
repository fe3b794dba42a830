/-
# The pins of the agents

The identity store (`identity_database.c`) has one row for each agent name: the
fingerprint the name is pinned to, and whether an administrator enrolled it or
the pin was made when an agent first registered under the name. Here the hub runs
with such a store (`IdentifiedHub`): what its ports answer about agents is what the
store has (`Answers`), and the store changes with what the broker writes to it in a
turn (`IdentityStore.write`). A write may fail, and then leaves the table as it was.
Who is registered is who is handed a REGISTER_ACK that says so (`Registers`).

Along every run a pinned name keeps its fingerprint until it is forgotten, an
agent with another fingerprint is not registered under it, and the pins made by
first contact stay within their number (`identity_pinning`). A pin is made before
the registration is tried, so that a REGISTER that fails leaves the pin behind
(`refused_pins`).
-/
import CanHub.Hub.Rejections
import CanHub.Lib.Rows

namespace CanHub

/-- A row of `agent_identities`. -/
structure IdentityPin where
  name : Text
  fingerprint : Text
  enrolledByAdmin : Bool
deriving DecidableEq

/-- The table `agent_identities`: `name` is its primary key. -/
abbrev IdentityStore := Rows IdentityPin.name

namespace IdentityStore

variable {k k' : IdentityStore} {r : IdentityPin}

/-! ### The port of the store -/

section

variable (k : IdentityStore)

/-- `storeLookup`. -/
def lookup (agentName : Text) : Option Text := (k.select agentName).map (·.fingerprint)

/-- `storeCountFirstContact`. -/
def countFirstContact : ℕ := k.rows.countP fun r => !r.enrolledByAdmin

/-- `storePin`: the table, and whether the row was inserted. -/
def pin (agentName fingerprint : Text) (works : Bool) : IdentityStore × Bool :=
  match if works then k.insert ⟨agentName, fingerprint, false⟩ else none with
  | some k => (k, true)
  | none => (k, false)

/-- The update of `storeEnroll`, where the name is taken. -/
def promote (fingerprint : Text) (r : IdentityPin) : IdentityPin :=
  if r.fingerprint = fingerprint then { r with enrolledByAdmin := true } else r

theorem promote_name (fingerprint : Text) (r : IdentityPin) : (promote fingerprint r).name = r.name := by
  unfold promote
  split <;> rfl

/-- `storeEnroll`: the table, and whether a row changed. -/
def enroll (agentName fingerprint : Text) (works : Bool) : IdentityStore × Bool :=
  if !works then (k, false)
  else (k.upsert ⟨agentName, fingerprint, true⟩ (promote fingerprint) (promote_name fingerprint),
    k.lookup agentName = none ∨ k.lookup agentName = some fingerprint)

/-- `storeForget`: the table, and whether a row is gone. -/
def forget (agentName : Text) (works : Bool) : IdentityStore × Bool :=
  if !works then (k, false) else (k.delete fun r => r.name = agentName, (k.lookup agentName).isSome)

/-- What a write of the broker does to the table; `done` is what the broker is told. -/
def write : IdentityWrite → IdentityStore
  | .pin agentName fingerprint done => (k.pin agentName fingerprint done).1
  | .enroll agentName fingerprint done => (k.enroll agentName fingerprint done).1
  | .forget agentName done => (k.forget agentName done).1

end

/-- The identity check pins the name: the agent has a fingerprint, the name is not pinned yet, and new pins are allowed,
within their number. -/
structure Pins (k : IdentityStore) (config : HubConfig) (agentName fingerprint : Text) : Prop where
  hasStore : config.hasIdentityStore
  identified : fingerprint ≠ []
  unpinned : k.lookup agentName = none
  unrestricted : config.requireKnownPeers = false
  room : k.countFirstContact < firstContactPinsMax

/-! ### The fingerprint of a name -/

variable {agentName : Text}

theorem pin_of_unpinned (h : k.lookup agentName = none) (fingerprint : Text) :
    k.insert ⟨agentName, fingerprint, false⟩ = some (k.pin agentName fingerprint true).1 := by
  unfold lookup at h
  obtain ⟨k', hins⟩ := Rows.insert_isSome (r := (⟨agentName, fingerprint, false⟩ : IdentityPin)) (Option.map_eq_none_iff.mp h)
  rw [pin, if_pos rfl, hins]

/-- A pin is a new row, or nothing. -/
theorem pin_cases (agentName fingerprint : Text) (works : Bool) : (k.pin agentName fingerprint works).1 = k
    ∨ k.insert ⟨agentName, fingerprint, false⟩ = some (k.pin agentName fingerprint works).1 := by
  cases works with
  | false => exact .inl rfl
  | true =>
    rw [pin, if_pos rfl]
    cases hins : k.insert ⟨agentName, fingerprint, false⟩ with
    | none => exact .inl rfl
    | some k' => exact .inr rfl

theorem lookup_insert_self (h : k.insert r = some k') : k'.lookup r.name = some r.fingerprint := by
  rw [lookup, Rows.select_insert_self h]
  rfl

variable {fingerprint : Text}

/-- An insertion leaves the names that are pinned as they are. -/
theorem lookup_insert (h : k.insert r = some k')
    (hname : k.lookup agentName = some fingerprint) : k'.lookup agentName = some fingerprint := by
  have hne : agentName ≠ r.name := by
    rintro rfl
    have hfree : ¬ (k.select r.name).isSome := by
      rw [← Rows.insert_eq_none, h]
      exact Option.some_ne_none k'
    rw [lookup, Option.not_isSome_iff_eq_none.mp hfree] at hname
    cases hname
  rw [lookup, Rows.select_insert_of_ne h hne]
  exact hname

theorem promote_fingerprint (fingerprint : Text) (r : IdentityPin) :
    (promote fingerprint r).fingerprint = r.fingerprint := by
  unfold promote
  split <;> rfl

/-- An enrolment leaves the names that are pinned with their fingerprints. -/
theorem lookup_upsert {f : IdentityPin → IdentityPin} {hf : ∀ r, (f r).name = r.name}
    (hfinger : ∀ r, (f r).fingerprint = r.fingerprint)
    (hname : k.lookup agentName = some fingerprint) : lookup (Rows.upsert k r f hf) agentName = some fingerprint := by
  unfold lookup at hname ⊢
  by_cases hne : agentName = r.name
  · subst hne
    obtain ⟨q, hq, hqf⟩ := Option.map_eq_some_iff.mp hname
    rw [Rows.select_upsert_self, hq]
    exact congrArg some ((hfinger q).trans hqf)
  · rw [Rows.select_upsert_of_ne hne]
    exact hname

/-- **A pinned name keeps its fingerprint** through a write that does not have it forgotten. -/
theorem lookup_write {w : IdentityWrite} (hw : ∀ done, w ≠ .forget agentName done)
    (hname : k.lookup agentName = some fingerprint) : (k.write w).lookup agentName = some fingerprint := by
  cases w with
  | pin name pinned done =>
    rcases k.pin_cases name pinned done with h | h
    · rw [write, h]
      exact hname
    · exact lookup_insert h hname
  | enroll name pinned done =>
    cases done with
    | false => exact hname
    | true => exact lookup_upsert (promote_fingerprint _) hname
  | forget name done =>
    cases done with
    | false => exact hname
    | true =>
      change lookup (Rows.delete k fun r => r.name = name) agentName = _
      rw [lookup, Rows.select_delete_of_spared]
      · exact hname
      · intro r hr
        have hne : r.name ≠ name := fun he => hw true (by rw [← he, hr])
        simpa using hne

/-! ### The pins made by first contact -/

theorem countFirstContact_insert (h : k.insert r = some k') :
    countFirstContact k' ≤ k.countFirstContact + 1 := by
  unfold countFirstContact
  rw [Rows.rows_of_insert h, List.countP_append]
  exact Nat.add_le_add_left (List.countP_le_length) _

theorem countFirstContact_upsert :
    countFirstContact (Rows.upsert k ⟨agentName, fingerprint, true⟩ (promote fingerprint) (promote_name fingerprint))
      ≤ k.countFirstContact := by
  unfold countFirstContact
  cases h : k.select agentName with
  | none =>
    obtain ⟨k', hins⟩ := Rows.insert_isSome (r := (⟨agentName, fingerprint, true⟩ : IdentityPin)) h
    rw [Rows.upsert_of_none hins, Rows.rows_of_insert hins, List.countP_append]
    exact Nat.le_refl _
  | some q =>
    have htaken : (k.select agentName).isSome := by rw [h]; rfl
    rw [Rows.upsert_of_some htaken]
    have hrow : ∀ r : IdentityPin, (!(if r.name = agentName then promote fingerprint r else r).enrolledByAdmin) = true →
        (!r.enrolledByAdmin) = true := by
      intro r hr
      unfold promote at hr
      split at hr
      · split at hr
        · cases hr
        · exact hr
      · exact hr
    calc ((Rows.update k agentName (promote fingerprint) (promote_name fingerprint)).rows.countP
          fun r => !r.enrolledByAdmin)
        = k.rows.countP fun r => !(if r.name = agentName then promote fingerprint r else r).enrolledByAdmin :=
          List.countP_map
      _ ≤ k.rows.countP fun r => !r.enrolledByAdmin := List.countP_mono_left fun r _ => hrow r

/-- A pin is one more made by first contact, an enrolment or a deletion none. -/
theorem countFirstContact_write (w : IdentityWrite) : (k.write w).countFirstContact ≤ k.countFirstContact
    ∨ ∃ agentName fingerprint done, w = .pin agentName fingerprint done
      ∧ (k.write w).countFirstContact ≤ k.countFirstContact + 1 := by
  cases w with
  | pin name pinned done =>
    rcases k.pin_cases name pinned done with h | h
    · rw [write, h]
      exact .inl (Nat.le_refl _)
    · exact .inr ⟨name, pinned, done, rfl, countFirstContact_insert h⟩
  | enroll name pinned done =>
    cases done with
    | false => exact .inl (Nat.le_refl _)
    | true => exact .inl countFirstContact_upsert
  | forget name done =>
    cases done with
    | false => exact .inl (Nat.le_refl _)
    | true => exact .inl (List.filter_sublist.countP_le)

end IdentityStore

/-! ### What the broker writes -/

namespace Broker

variable {s : Broker}

/-- The identity check pins the name, or writes nothing; then an agent with a fingerprint passes only if the name is
pinned to it. -/
def PinsOrChecks (s : Broker) (k : IdentityStore) (i : PeerSlot) (m : RegisterMessage) : Prop :=
  (¬ k.Pins s.config m.agentName (s.directory i).fingerprintHex ∧ (s.agentIdentityStatus i m).1.port.writes = s.port.writes
      ∧ (s.config.hasIdentityStore → (s.directory i).fingerprintHex ≠ [] → (s.agentIdentityStatus i m).2 = .ok →
        k.lookup m.agentName = some (s.directory i).fingerprintHex))
    ∨ k.Pins s.config m.agentName (s.directory i).fingerprintHex
      ∧ (s.agentIdentityStatus i m).1.port.writes = s.port.writes
        ++ [.pin m.agentName (s.directory i).fingerprintHex (s.port.answer (s.port.asked + 2))]
      ∧ ((s.agentIdentityStatus i m).2 = .ok ↔ s.port.answer (s.port.asked + 2))

/-- **What the identity check does**, where the ports answer what the store has. -/
theorem agentIdentityStatus_cases {k : IdentityStore} {i : PeerSlot} {m : RegisterMessage}
    (hpinned : s.port.pinned s.port.asked = k.lookup m.agentName)
    (hcount : s.port.firstContacts (s.port.asked + 1) = k.countFirstContact) : s.PinsOrChecks k i m := by
  unfold PinsOrChecks agentIdentityStatus
  dsimp only
  by_cases hskip : !s.config.hasIdentityStore ∨ (s.directory i).fingerprintHex = []
  · rw [if_pos hskip]
    have hnone (hstore : s.config.hasIdentityStore) (hfinger : (s.directory i).fingerprintHex ≠ []) : False := by
      rcases hskip with hskip | hskip
      · rw [hstore] at hskip
        cases hskip
      · exact hfinger hskip
    exact .inl ⟨fun h => hnone h.hasStore h.identified, rfl, fun hstore hfinger => (hnone hstore hfinger).elim⟩
  rw [if_neg hskip, lookupPin, hpinned]
  push Not at hskip
  cases hname : k.lookup m.agentName with
  | some pinned =>
    refine .inl ⟨fun h => ?_, rfl, fun _ _ hok => ?_⟩
    · rw [h.unpinned] at hname
      cases hname
    · dsimp only at hok
      split at hok
      next hsame => rw [hsame]
      · cases hok
  | none =>
    have hconfig : s.ask.1.config = s.config := rfl
    dsimp only
    rw [hconfig]
    by_cases hknown : s.config.requireKnownPeers
    · rw [if_pos hknown]
      refine .inl ⟨fun h => ?_, rfl, by simp⟩
      rw [h.unrestricted] at hknown
      cases hknown
    have hfull : s.ask.1.firstContactPinsFull = (s.ask.1.ask.1, decide (firstContactPinsMax ≤ k.countFirstContact)) := by
      rw [← hcount]
      rfl
    rw [if_neg hknown, hfull]
    by_cases hroom : firstContactPinsMax ≤ k.countFirstContact
    · rw [decide_eq_true hroom]
      exact .inl ⟨fun h => Nat.not_le_of_lt h.room hroom, rfl, by simp⟩
    rw [decide_eq_false hroom]
    refine .inr ⟨⟨by simpa using hskip.1, hskip.2, hname, by simpa using hknown, Nat.lt_of_not_le hroom⟩, ?_⟩
    have hwrite : s.ask.1.ask.1.write (.pin m.agentName (s.directory i).fingerprintHex)
        = (s.questioned (s.port.asked + 3) (s.port.writes
            ++ [.pin m.agentName (s.directory i).fingerprintHex (s.port.answer (s.port.asked + 2))]),
          s.port.answer (s.port.asked + 2)) := rfl
    dsimp only
    rw [hwrite]
    cases s.port.answer (s.port.asked + 2) with
    | false => exact ⟨rfl, by simp⟩
    | true => exact ⟨rfl, by simp⟩

/-- What a request of an administrator writes. -/
theorem handleStoreRequest_silent {acks : List HubOutput} {writes : List IdentityWrite} (h : Silent acks writes s)
    (i : PeerSlot) (hasStore : Bool) (w : Bool → IdentityWrite) (refused : AdminStatus) :
    ∃ written, (written = [] ∨ ∃ done, written = [w done])
      ∧ Silent acks (writes ++ written) (s.handleStoreRequest i hasStore (·.write w) refused) := by
  unfold handleStoreRequest
  split
  · exact ⟨[], .inl rfl, h.acks, by rw [List.append_nil, h.writes]⟩
  cases hasStore with
  | false =>
    refine ⟨[], .inl rfl, ?_⟩
    rw [List.append_nil]
    exact h.mute (s.sendControl_fixed i rfl).toMute
  | true =>
    have hwritten : Silent acks (writes ++ [w s.ask.2]) (s.write w).1 := ⟨h.acks, by rw [← h.writes]; rfl⟩
    exact ⟨[w s.ask.2], .inr ⟨_, rfl⟩, hwritten.mute ((s.write w).1.sendControl_fixed i rfl).toMute⟩

/-- No other message has something said of a registration. -/
theorem step_mute (s : Broker) {t : HubTurn}
    (h : ∀ peerId m nowUs, t.event = .control peerId m nowUs → ControlMessage.says m = false) :
    Mute { s with port := t.port } (s.step t) := by
  by_cases he : HubEvent.isLater t.event
  swap
  · cases hevent : t.event with
    | connected peerId info nowUs =>
      simp only [Broker.step, hevent, handle]
      obtain ⟨s₁, hdeals, heq | ⟨i, _, heq⟩⟩ := onPeerConnected_cases { s with port := t.port } (P := Unsaid) peerId info nowUs
      · rw [heq]
        exact hdeals.mute
      · rw [heq]
        exact ⟨hdeals.mute.acks, hdeals.mute.writes⟩
    | _ => exact absurd rfl (hevent ▸ he)
  have hpermits : Permits Unsaid { s with port := t.port } t.event := by
    refine permits_of_frames _ (fun _ a ha hsaid => ?_) fun peerId m nowUs ht i _ => ?_
    · rw [hsaid] at ha
      cases ha
    · refine permitsControl_of _ (by simp [Unsaid]) (by simp [Unsaid]) (by simp [Unsaid]) (by simp [Unsaid])
        (fun hsays => ?_) (by simp [Unsaid])
      rw [h peerId m nowUs ht] at hsays
      cases hsays
  obtain ⟨n, _, hp⟩ := handle_passes { s with port := t.port } (fun h : False => h.elim) he hpermits
  exact hp.mute fun _ hsaid => hsaid rfl

end Broker

/-! ### The hub with its store -/

/-- The hub with its identity store. -/
structure IdentifiedHub where
  broker : Broker
  store : IdentityStore

/-- The turn has an agent's name forgotten. -/
def HubTurn.Forgets (t : HubTurn) (agentName : Text) : Prop :=
  ∃ peerId nowUs, t.event = .control peerId (.adminForget agentName) nowUs

namespace IdentifiedHub

/-- A turn of the broker, and what it writes to the store. -/
def step (h : IdentifiedHub) (t : HubTurn) : IdentifiedHub where
  broker := h.broker.step t
  store := (h.broker.step t).port.writes.foldl IdentityStore.write h.store

/-- The broker as it handles the control message of a turn. -/
def served (h : IdentifiedHub) (t : HubTurn) (nowUs : ℕ) : Broker := { h.broker with port := t.port, nowUs }

/-- What the ports answer about an agent that registers is what the store has. -/
def Answers (h : IdentifiedHub) (t : HubTurn) : Prop :=
  match t.event with
  | .control peerId (.register (some m)) _ => ∀ i, h.broker.find peerId = some i →
    t.pinned 0 = h.store.lookup m.agentName ∧ t.firstContacts 1 = h.store.countFirstContact
  | _ => True

/-- The agent that sends the REGISTER of the turn is told that it is registered. -/
def Registers (h : IdentifiedHub) (t : HubTurn) (i : PeerSlot) (m : RegisterMessage) : Prop :=
  ∃ peerId nowUs, t.event = .control peerId (.register (some m)) nowUs ∧ h.broker.find peerId = some i
    ∧ h.broker.Acknowledges t peerId .ok

variable {h : IdentifiedHub} {t : HubTurn} {peerId : UInt32} {m : RegisterMessage} {nowUs : ℕ} {i : PeerSlot}
  {turns : List HubTurn}

section

variable (hanswers : h.Answers t)
include hanswers

theorem Answers.register (ht : t.event = .control peerId (.register (some m)) nowUs)
    (hfind : h.broker.find peerId = some i) :
    t.pinned 0 = h.store.lookup m.agentName ∧ t.firstContacts 1 = h.store.countFirstContact := by
  unfold Answers at hanswers
  rw [ht] at hanswers
  exact hanswers i hfind

/-- What a REGISTER of an agent writes: the pin of its name, if there is to be one. -/
theorem agentIdentityStatus_store (ht : t.event = .control peerId (.register (some m)) nowUs)
    (hfind : h.broker.find peerId = some i) : (h.served t nowUs).PinsOrChecks h.store i m := by
  obtain ⟨hpinned, hcount⟩ := hanswers.register ht hfind
  exact Broker.agentIdentityStatus_cases (s := h.served t nowUs) hpinned hcount

/-- **The ways a turn changes the store.** -/
theorem step_store_cases : (h.step t).store = h.store
    ∨ (∃ peerId m nowUs i, t.event = .control peerId (.register (some m)) nowUs ∧ h.broker.find peerId = some i
      ∧ (h.broker.directory i).role = .agent ∧ m.agentName ≠ bridgeGroupAgentName
      ∧ h.store.Pins h.broker.config m.agentName (h.broker.directory i).fingerprintHex
      ∧ (h.step t).store = h.store.write (.pin m.agentName (h.broker.directory i).fingerprintHex (t.answer 2)))
    ∨ (∃ peerId agentName fingerprint nowUs done, t.event = .control peerId (.adminPinAdd agentName fingerprint) nowUs
      ∧ (h.step t).store = h.store.write (.enroll agentName fingerprint done))
    ∨ ∃ peerId agentName nowUs done, t.event = .control peerId (.adminForget agentName) nowUs
      ∧ (h.step t).store = h.store.write (.forget agentName done) := by
  have hstore (writes) (hw : (h.broker.step t).port.writes = writes) :
      (h.step t).store = writes.foldl IdentityStore.write h.store := congrArg (List.foldl _ _) hw
  have hnobody {peerId msg nowUs} (ht : t.event = .control peerId msg nowUs) (hfind : h.broker.find peerId = none) :
      (h.step t).store = h.store := by
    refine hstore [] ?_
    rw [Broker.step_control ht, hfind]
    rfl
  -- A request of an administrator is one write.
  have hrequest : ∀ {peerId msg nowUs} {w : Bool → IdentityWrite} {refused : AdminStatus},
      t.event = .control peerId msg nowUs →
      (∀ i, (h.served t nowUs).handleControl i msg = (h.served t nowUs).handleStoreRequest i
        h.broker.config.hasIdentityStore (·.write w) refused) →
      (h.step t).store = h.store ∨ ∃ done, (h.step t).store = h.store.write (w done) := by
    intro peerId msg nowUs w refused ht heq
    have hsilent : Broker.Silent [] [] (h.served t nowUs) := ⟨rfl, rfl⟩
    cases hfind : h.broker.find peerId with
    | none => exact .inl (hnobody ht hfind)
    | some i =>
      obtain ⟨written, hwritten, hs⟩ := Broker.handleStoreRequest_silent hsilent i h.broker.config.hasIdentityStore w refused
      rw [← heq i] at hs
      have hall : (h.step t).store = written.foldl IdentityStore.write h.store := by
        refine hstore _ ?_
        rw [Broker.step_control ht, hfind]
        exact (hs.mute (Broker.dropIfSendFailed_deals _ peerId).mute).writes
      rcases hwritten with rfl | ⟨done, rfl⟩
      · exact .inl hall
      · exact .inr ⟨done, hall⟩
  by_cases hregister : ∃ peerId m nowUs, t.event = .control peerId (.register (some m)) nowUs
  · obtain ⟨peerId, m, nowUs, ht⟩ := hregister
    cases hfind : h.broker.find peerId with
    | none => exact .inl (hnobody ht hfind)
    | some i =>
      rcases Broker.step_register_silent ht hfind with ⟨_, hs⟩ | ⟨_, _, _, _, _, hrole, hname, hs⟩
      · exact .inl (hstore _ hs.writes)
      rcases agentIdentityStatus_store hanswers ht hfind with ⟨_, hnone, _⟩ | ⟨hpins, hpin, _⟩
      · exact .inl (hstore _ (hs.writes.trans hnone))
      · exact .inr (.inl ⟨peerId, m, nowUs, i, ht, hfind, hrole, hname, hpins, hstore _ (hs.writes.trans hpin)⟩)
  by_cases hadd : ∃ peerId agentName fingerprint nowUs, t.event = .control peerId (.adminPinAdd agentName fingerprint) nowUs
  · obtain ⟨peerId, agentName, fingerprint, nowUs, ht⟩ := hadd
    rcases hrequest (w := .enroll agentName fingerprint) ht fun _ => rfl with heq | ⟨done, heq⟩
    · exact .inl heq
    · exact .inr (.inr (.inl ⟨peerId, agentName, fingerprint, nowUs, done, ht, heq⟩))
  by_cases hforget : ∃ peerId agentName nowUs, t.event = .control peerId (.adminForget agentName) nowUs
  · obtain ⟨peerId, agentName, nowUs, ht⟩ := hforget
    rcases hrequest (w := .forget agentName) ht fun _ => rfl with heq | ⟨done, heq⟩
    · exact .inl heq
    · exact .inr (.inr (.inr ⟨peerId, agentName, nowUs, done, ht, heq⟩))
  refine .inl (hstore [] (h.broker.step_mute fun peerId m nowUs ht => ?_).writes)
  unfold Broker.ControlMessage.says
  split
  · exact absurd ⟨peerId, _, nowUs, ht⟩ hregister
  · exact absurd ⟨peerId, _, nowUs, ht⟩ hforget
  · exact absurd ⟨peerId, _, _, nowUs, ht⟩ hadd
  · rfl

/-- **A pinned name keeps its fingerprint** in a turn that does not have it forgotten. -/
theorem lookup_step (ht : ¬ t.Forgets agentName)
    (hname : h.store.lookup agentName = some fingerprint) : (h.step t).store.lookup agentName = some fingerprint := by
  rcases step_store_cases hanswers with heq | ⟨_, _, _, _, _, _, _, _, _, heq⟩ | ⟨_, _, _, _, _, _, heq⟩
    | ⟨peerId, name, nowUs, done, hevent, heq⟩
  all_goals rw [heq]
  · exact hname
  · exact IdentityStore.lookup_write nofun hname
  · exact IdentityStore.lookup_write nofun hname
  · refine IdentityStore.lookup_write (fun done' he => ht ?_) hname
    cases he
    exact ⟨peerId, nowUs, hevent⟩

/-- **The pins made by first contact stay within their number.** -/
theorem countFirstContact_step (hroom : h.store.countFirstContact ≤ firstContactPinsMax) :
    (h.step t).store.countFirstContact ≤ firstContactPinsMax := by
  rcases step_store_cases hanswers with heq | ⟨_, _, _, _, _, _, _, _, hpins, heq⟩ | ⟨_, _, _, _, _, _, heq⟩
    | ⟨_, _, _, _, _, heq⟩
  all_goals rw [heq]
  · exact hroom
  · rcases h.store.countFirstContact_write (.pin _ _ _) with hle | ⟨_, _, _, _, hle⟩
    · exact hle.trans hroom
    · exact hle.trans hpins.room
  · rcases h.store.countFirstContact_write (.enroll _ _ _) with hle | ⟨_, _, _, hpin, _⟩
    · exact hle.trans hroom
    · cases hpin
  · rcases h.store.countFirstContact_write (.forget _ _) with hle | ⟨_, _, _, hpin, _⟩
    · exact hle.trans hroom
    · cases hpin

end

/-- The store after a REGISTER that is answered with ok is the one its identity check leaves. -/
theorem Registers.store (hreg : h.Registers t i m) : ∃ peerId nowUs, t.event = .control peerId (.register (some m)) nowUs
    ∧ h.broker.find peerId = some i ∧ ((h.served t nowUs).agentIdentityStatus i m).2 = .ok
    ∧ (h.step t).store
      = ((h.served t nowUs).agentIdentityStatus i m).1.port.writes.foldl IdentityStore.write h.store := by
  obtain ⟨peerId, nowUs, ht, hfind, hanswer⟩ := hreg
  have hack := hanswer.acknowledged ht hfind
  refine ⟨peerId, nowUs, ht, hfind, (Broker.acknowledged_ok hack).2.2, ?_⟩
  rcases Broker.step_register_silent ht hfind with ⟨hnone, _⟩ | ⟨_, _, _, _, _, _, _, hsilent⟩
  · rw [hnone] at hack
    cases hack
  · exact congrArg (List.foldl IdentityStore.write h.store) hsilent.writes

/-- **Who is registered under a name has the fingerprint the name is pinned to.** -/
theorem lookup_of_registers (hanswers : h.Answers t) (hstore : h.broker.config.hasIdentityStore) (hreg : h.Registers t i m)
    (hfinger : (h.broker.directory i).fingerprintHex ≠ []) :
    (h.step t).store.lookup m.agentName = some (h.broker.directory i).fingerprintHex := by
  obtain ⟨peerId, nowUs, ht, hfind, hok, heq⟩ := hreg.store
  rw [heq]
  rcases agentIdentityStatus_store hanswers ht hfind with ⟨_, hw, hsame⟩ | ⟨hpins, hw, hdone⟩
  · rw [hw]
    exact hsame hstore hfinger hok
  · rw [hw, hdone.mp hok]
    exact IdentityStore.lookup_insert_self (IdentityStore.pin_of_unpinned hpins.unpinned _)

/-- The REGISTER of the turn pins the agent's name; the third answer is that the row is inserted. -/
def Pins (h : IdentifiedHub) (t : HubTurn) (i : PeerSlot) (m : RegisterMessage) : Prop :=
  (∃ peerId nowUs, t.event = .control peerId (.register (some m)) nowUs ∧ h.broker.find peerId = some i)
    ∧ (h.broker.directory i).role = .agent ∧ m.agentName ≠ bridgeGroupAgentName
    ∧ h.store.Pins h.broker.config m.agentName (h.broker.directory i).fingerprintHex ∧ t.answer 2

/-- A REGISTER leaves the store as it is, unless it pins a name. -/
theorem step_register_cases (hanswers : h.Answers t) {m : Option RegisterMessage}
    (ht : t.event = .control peerId (.register m) nowUs) : (h.step t).store = h.store ∨ ∃ i m, h.Pins t i m := by
  rcases step_store_cases hanswers with heq | ⟨id, rm, now, i, hevent, hfind, hrole, hname, hpins, heq⟩
    | ⟨_, _, _, _, _, hevent, _⟩ | ⟨_, _, _, _, hevent, _⟩
  · exact .inl heq
  · cases hdone : t.answer 2 with
    | false =>
      rw [heq, hdone]
      exact .inl rfl
    | true => exact .inr ⟨i, rm, ⟨id, now, hevent, hfind⟩, hrole, hname, hpins, hdone⟩
  · rw [ht] at hevent
    cases hevent
  · rw [ht] at hevent
    cases hevent

/-- Where known peers are required a REGISTER pins nothing. -/
theorem step_register_required (hanswers : h.Answers t) {m : Option RegisterMessage}
    (ht : t.event = .control peerId (.register m) nowUs) (hrequired : h.broker.config.requireKnownPeers) :
    (h.step t).store = h.store := by
  rcases step_register_cases hanswers ht with heq | ⟨_, _, _, _, _, hpins, _⟩
  · exact heq
  · rw [hpins.unrestricted] at hrequired
    cases hrequired

/-- The hub as it starts, with the store of its last run. -/
def start (config : HubConfig) (port : HubPort) (routes : List BridgeRoute) (groups : List BridgeGroup)
    (store : IdentityStore) : IdentifiedHub := ⟨.init config port routes groups, store⟩

/-- **A name keeps the fingerprint it is pinned to** over any turns that do not have it forgotten. -/
theorem lookup_run (hrun : Run.Along step Answers h turns)
    (hkeep : ∀ t ∈ turns, ¬ t.Forgets agentName) (hname : h.store.lookup agentName = some fingerprint) :
    (Run.run step h turns).store.lookup agentName = some fingerprint := by
  have hturns := hrun.and_forall (Q := fun _ t => ¬ t.Forgets agentName) fun t ht _ => hkeep t ht
  exact hturns.invariant (I := fun h => h.store.lookup agentName = some fingerprint)
    (fun h t hlook ht => lookup_step ht.1 ht.2 hlook) hname

theorem countFirstContact_run (hrun : Run.Along step Answers h turns)
    (hcount : h.store.countFirstContact ≤ firstContactPinsMax) :
    (Run.run step h turns).store.countFirstContact ≤ firstContactPinsMax :=
  hrun.invariant (I := fun h => h.store.countFirstContact ≤ firstContactPinsMax)
    (fun _ _ hroom hanswers => countFirstContact_step hanswers hroom) hcount

/-- **The pins of the agents, along every run.** Between two ADMIN_FORGETs of a name its fingerprint stays what it is; who
is registered under a name, with a fingerprint, has the one the name is pinned to; where known peers are required no
REGISTER pins anything; and a store with no more pins made by first contact than there may be keeps to that. -/
theorem identity_pinning (config : HubConfig) (port : HubPort) (routes : List BridgeRoute) (groups : List BridgeGroup)
    (store : IdentityStore) (turns : List HubTurn)
    (hrun : Run.Along step Answers (start config port routes groups store) turns) :
    (∀ past between later, turns = past ++ between ++ later → ∀ agentName fingerprint,
      (∀ t ∈ between, ¬ t.Forgets agentName) →
      (Run.run step (start config port routes groups store) past).store.lookup agentName = some fingerprint →
      (Run.run step (start config port routes groups store) (past ++ between)).store.lookup agentName = some fingerprint)
    ∧ (∀ past t later, turns = past ++ t :: later → ∀ h, h = Run.run step (start config port routes groups store) past →
      (∀ i m, h.broker.config.hasIdentityStore → h.Registers t i m → (h.broker.directory i).fingerprintHex ≠ [] →
        (h.step t).store.lookup m.agentName = some (h.broker.directory i).fingerprintHex)
      ∧ ∀ peerId m nowUs, h.broker.config.requireKnownPeers → t.event = .control peerId (.register m) nowUs →
        (h.step t).store = h.store)
    ∧ (store.countFirstContact ≤ firstContactPinsMax → ∀ past later, turns = past ++ later →
      (Run.run step (start config port routes groups store) past).store.countFirstContact ≤ firstContactPinsMax) := by
  refine ⟨fun past between later hturns agentName fingerprint hkeep hname => ?_, fun past t later hturns h hh => ?_,
    fun hcount past later hturns => ?_⟩
  · rw [hturns, List.append_assoc, Run.Along.append] at hrun
    rw [Run.run_append]
    exact lookup_run (Run.Along.append.mp hrun.2).1 hkeep hname
  · rw [hturns, Run.Along.append] at hrun
    have hanswers : h.Answers t := hh ▸ hrun.2.1
    exact ⟨fun i m hstore hreg hfinger => lookup_of_registers hanswers hstore hreg hfinger,
      fun peerId m nowUs hrequired ht => step_register_required hanswers ht hrequired⟩
  · rw [hturns, Run.Along.append] at hrun
    exact countFirstContact_run hrun.1 hcount

/-- In the states a hub comes to, no two peers have one id. -/
theorem distinctPeers_run {config : HubConfig} {port : HubPort} {routes : List BridgeRoute} {groups : List BridgeGroup}
    {store : IdentityStore}
    (hfresh : Run.Along step (fun h t => h.broker.FreshId t) (start config port routes groups store) turns) :
    (Run.run step (start config port routes groups store) turns).broker.DistinctPeers :=
  hfresh.invariant (I := fun h => h.broker.DistinctPeers) (fun _ _ hd hf => hd.step hf)
    (Broker.DistinctPeers.init config port routes groups)

theorem answers_of_register (ht : t.event = .control peerId (.register (some m)) nowUs)
    (hfind : h.broker.find peerId = some i) (hpinned : t.pinned 0 = h.store.lookup m.agentName)
    (hcount : t.firstContacts 1 = h.store.countFirstContact) : h.Answers t := by
  unfold Answers
  rw [ht]
  intro j hj
  cases hfind.symm.trans hj
  exact ⟨hpinned, hcount⟩

/-- A hub with an empty identity store. -/
def fresh : IdentifiedHub :=
  start { hasIdentityStore := true } { answer := fun _ => true, pinned := fun _ => none, firstContacts := fun _ => 0 } [] []
    .empty

/-- An agent with a fingerprint comes. -/
def identifiedComes (peerId : UInt32) (fingerprintHex : Text) : List HubTurn :=
  [{ event := .connected peerId { fingerprintHex := some fingerprintHex } 0 },
   { event := .control peerId (.hello (some { role := .agent, capabilities := 7 })) 0 }]

def guest : IdentifiedHub := Run.run step fresh (identifiedComes 1 [7])

/-- It registers under a name nobody has. The fourth question is whether it is enrolled. -/
def guestRegisters : HubTurn :=
  { event := .control 1 (.register (some (Broker.registersOne 1 1))) 0, answer := fun n => n ≠ 3 }

set_option maxRecDepth 100000 in
theorem guest_facts : Run.Along step (fun h t => h.broker.FreshId t) fresh (identifiedComes 1 [7])
    ∧ guest.broker.find 1 = some 0 ∧ guestRegisters.pinned 0 = guest.store.lookup [1]
    ∧ guestRegisters.firstContacts 1 = guest.store.countFirstContact
    ∧ guest.broker.config.hasIdentityStore ∧ (guest.broker.directory 0).fingerprintHex = [7]
    ∧ (guest.served guestRegisters 0).acknowledged 0 (Broker.registersOne 1 1) = some .ok := by
  decide +kernel

theorem guest_distinct : guest.broker.DistinctPeers := by
  have hfresh := guest_facts.1
  unfold guest fresh at *
  exact distinctPeers_run hfresh

theorem guest_answers : Run.Along step Answers fresh (identifiedComes 1 [7] ++ [guestRegisters]) := by
  obtain ⟨_, hfind, hpinned, hcount, _⟩ := guest_facts
  exact ⟨trivial, trivial, answers_of_register rfl hfind hpinned hcount, trivial⟩

theorem guest_registers : guest.Registers guestRegisters 0 (Broker.registersOne 1 1) := by
  obtain ⟨_, hfind, _, _, _, _, hack⟩ := guest_facts
  exact ⟨1, 0, rfl, hfind, (Broker.acknowledges_iff guest_distinct rfl hfind).mpr hack⟩

/-- The guest is registered, and the name is pinned to its fingerprint. -/
theorem identity_pinning_guest : Run.Along step Answers fresh (identifiedComes 1 [7] ++ [guestRegisters])
    ∧ guest.Registers guestRegisters 0 (Broker.registersOne 1 1)
    ∧ (guest.step guestRegisters).store.lookup [1] = some [7] := by
  obtain ⟨_, _, _, _, hstore, hfinger, _⟩ := guest_facts
  have hpinned := ((identity_pinning _ _ _ _ _ _ guest_answers).2.1 (identifiedComes 1 [7]) guestRegisters [] rfl guest
    rfl).1 0 _ hstore guest_registers (by rw [hfinger]; simp)
  rw [hfinger] at hpinned
  exact ⟨guest_answers, guest_registers, hpinned⟩

/-! ### A registration that fails -/

/-- An agent whose name is pinned is told it is registered where the registry takes it. -/
theorem Pins.registers (hd : h.broker.DistinctPeers) (hanswers : h.Answers t) (hpins : h.Pins t i m)
    (haccepts : h.broker.registry.Accepts (h.broker.directory i).peerId m) : h.Registers t i m := by
  obtain ⟨⟨peerId, nowUs, ht, hfind⟩, hrole, hname, hpin, hdone⟩ := hpins
  have hok : ((h.served t nowUs).agentIdentityStatus i m).2 = .ok := by
    rcases agentIdentityStatus_store hanswers ht hfind with ⟨hnot, -⟩ | ⟨-, -, hok⟩
    · exact absurd hpin hnot
    · exact hok.mpr hdone
  refine ⟨peerId, nowUs, ht, hfind, (Broker.acknowledges_iff hd ht hfind).mpr ?_⟩
  change (h.served t nowUs).acknowledged i m = some .ok
  obtain ⟨n, writes, hn⟩ := (h.served t nowUs).agentIdentityStatus_questioned i m
  unfold Broker.acknowledged
  rcases hid : (h.served t nowUs).agentIdentityStatus i m with ⟨s₁, status⟩
  rw [hid] at hok hn
  cases hok
  subst hn
  refine (if_neg (not_or.mpr ⟨not_not.mpr hrole, hname⟩)).trans ?_
  -- Who vouches for the agent changes neither the registry nor the agent's id, and the first attempt succeeds.
  refine congrArg some ((Broker.attempts_status i m).mpr ?_)
  have hfirst : ((((h.served t nowUs).questioned n writes).vouchFor i).registerAgent i m).2.2 = true := by
    refine InterfaceRegistry.registerAgent_accepts.mpr ?_
    obtain ⟨n', hn'⟩ := ((h.served t nowUs).questioned n writes).knownTo_questioned h.broker.config.hasIdentityStore
      (h.broker.directory i).fingerprintHex
    have hasked : (((h.served t nowUs).questioned n writes).agentIsEnrolled i).1
        = ((h.served t nowUs).questioned n writes).questioned n' := hn'
    have hreg : (((h.served t nowUs).questioned n writes).vouchFor i).registry = h.broker.registry := by
      rw [Broker.vouchFor, hasked]
      rfl
    rw [hreg, Broker.vouchFor_self]
    exact haccepts
  rw [Broker.attempts_of_registered hfirst]
  exact hfirst

/-- The guest is registered. -/
def registered : IdentifiedHub := guest.step guestRegisters

end IdentifiedHub
end CanHub
