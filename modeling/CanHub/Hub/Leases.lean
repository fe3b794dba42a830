/-
# Transactions and leases of the hub

`Answered` is what the hub relies on when it relays a transaction: an agent has one at
most, the lease counter counts the leases, and the peers an entry names are there, the
client with the channel still bound. It follows from `Sound`, so it holds in every run in
which connections bring ids of their own and interface ids last (`answered_of_run`). Each
condition is needed: `wrapping` walks the interface ids around once, after which two agents
share an id.
-/
import CanHub.Hub.Sound

namespace CanHub

open List
namespace Broker

/-! ### The transaction table -/

/-- The client is there, with the channel bound, dormant or not. -/
def Bound (s : Broker) (clientPeerId : UInt32) (channel : UInt8) : Prop :=
  ∃ i j, (s.directory i).inUse ∧ (s.directory i).role = .client ∧ (s.directory i).peerId = clientPeerId
    ∧ ((s.directory i).session.bindings j).inUse ∧ ((s.directory i).session.bindings j).channel = channel

/-- Somebody answers for every transaction. -/
structure Answered (s : Broker) : Prop where
  agents : ∀ t u, (s.transactions.entries t).isInUse → (s.transactions.entries u).isInUse →
    (s.transactions.entries t).agentPeerId = (s.transactions.entries u).agentPeerId → t = u
  leases : s.transactions.activeLeases.toNat = s.transactions.entries.count (·.holdsLease)
  active : ∀ t, (s.transactions.entries t).state = .active →
    Present s .agent (s.transactions.entries t).agentPeerId
      ∧ Bound s (s.transactions.entries t).clientPeerId (s.transactions.entries t).clientChannel
  pending : ∀ t, (s.transactions.entries t).state = .pending →
    Present s .agent (s.transactions.entries t).agentPeerId
      ∧ ((s.transactions.entries t).clientPeerId = transactionNoClient
        ∨ Bound s (s.transactions.entries t).clientPeerId (s.transactions.entries t).clientChannel)

variable {s : Broker}

theorem Holds.bound {t : RelayedTransaction} (h : Holds s t) : Bound s t.clientPeerId t.clientChannel := by
  obtain ⟨i, hi, hrole, hid, j, hlive, hchannel, _⟩ := h
  refine ⟨i, j, hi, hrole, hid, ?_, hchannel⟩
  rw [ChannelBinding.isLive, Bool.and_eq_true] at hlive
  exact hlive.1

/-- The agent of a transaction exports an interface, so it is no group and it is there. -/
theorem Sound.present (h : Sound s) {t : TransactionSlot} (ht : (s.transactions.entries t).isInUse) :
    Present s .agent (s.transactions.entries t).agentPeerId := by
  obtain ⟨hne, k, hk, _, hagent, _⟩ := h.transactions.exported t ht
  rw [← hagent] at hne ⊢
  exact h.registry.owned k hk (decide_eq_false hne)

theorem Sound.answered (h : Sound s) : Answered s where
  agents := h.transactions.agents
  leases := h.transactions.counted
  active t ht := by
    have hin : (s.transactions.entries t).isInUse := by rw [RelayedTransaction.isInUse, ht]; rfl
    exact ⟨h.present hin, (h.transactions.held t hin (h.transactions.granted t ht)).bound⟩
  pending t ht := by
    have hin : (s.transactions.entries t).isInUse := by rw [RelayedTransaction.isInUse, ht]; rfl
    refine ⟨h.present hin, ?_⟩
    by_cases hclient : (s.transactions.entries t).clientPeerId = transactionNoClient
    · exact .inl hclient
    · exact .inr (h.transactions.held t hin hclient).bound

/-- **Somebody answers for every transaction**, in every run in which connections bring ids of their own and
interface ids last. -/
theorem answered_of_run (config : HubConfig) (port : HubPort) (routes : List BridgeRoute)
    (groups : List BridgeGroup) (turns : List HubTurn)
    (h : Run.Along step (fun s t => s.FreshId t ∧ s.IdsLast t) (init config port routes groups) turns) :
    Answered ((init config port routes groups).run turns) :=
  ((Sound.init config port routes groups).run h).answered

set_option maxRecDepth 100000 in
/-- A transaction that is granted, with a lease. -/
theorem answered_of_run_granted :
    let turns := agentJoins 2 (registersOne 1 2) ++ clientJoins 3 1
      ++ transactionBegins 3 2 { channel := 0, flags := txnBeginFlagExclusive } ⟨0, 0, 1, 1000⟩
    ((small.run turns).transactions.entries 0).holdsLease ∧ Answered (small.run turns) :=
  ⟨by decide +kernel, answered_of_run _ _ _ _ _ (by decide +kernel)⟩

/-! ### When ids do not last

A client whose id is `transactionNoClient` is taken for nobody: it closes its channel
while the transaction is pending, and the grant finds it there without the channel.

An interface id given twice names the interface with the lower entry. A client begins
a transaction, an agent comes with the same interface id in an entry before, and the
client begins another one on the same channel; closing the channel ends one of them. -/

def adminJoins (peerId : UInt32) : List HubTurn :=
  [{ event := .connected peerId { isLocal := true } 0 },
   { event := .control peerId (.hello (some { role := .admin })) 0 }]

/-- The administrator makes a group. -/
def groupComes : HubTurn := { event := .control 9 (.adminGroupSet [97] []) 0 }

/-- The administrator deletes it. -/
def groupGoes : HubTurn := { event := .control 9 (.adminGroupDelete [97]) 0 }

/-- The port after a request of the administrator that is granted. -/
def granted : HubPort := { groupComes.port with asked := 1, log := [.control 9 (.bridgeReply .ok) true] }

/-- The same hub later. -/
def later (s : Broker) (next : UInt32) : Broker :=
  { s with registry := { s.registry with nextInterfaceId := next }, port := granted, nowUs := 0 }

section

variable (hn : ∀ i, (s.directory i).inUse → (s.directory i).role ≠ .client)
include hn

theorem reattachInterface_none (k : EntrySlot) :
    s.reattachInterface k = s := by
  refine foldl_fixed' (fun i => ?_) _
  unfold reattachPeer
  refine if_pos ?_
  by_cases hi : (s.directory i).inUse
  · exact .inr (hn i hi)
  · exact .inl (by simpa using hi)

theorem detachInterface_none (interfaceId : UInt32) :
    s.detachInterface interfaceId = s := by
  unfold detachInterface
  have hdir : (fun i => if (s.directory i).inUse ∧ (s.directory i).role = .client then
      { s.directory i with session := (s.directory i).session.detachInterface interfaceId }
    else s.directory i) = s.directory := by
    funext i
    exact if_neg fun h => hn i h.1 h.2
  rw [hdir]

end

abbrev HasAdmin (s : Broker) : Prop :=
  s.find 9 = some 0 ∧ (s.directory 0).role = .admin ∧ (s.directory 0).sendFailed = false ∧ (s.directory 0).peerId = 9

/-- Nobody is a client, the group is not there, and a free slot of either table is blank. -/
structure Calm (s : Broker) : Prop where
  peers : ∀ i, (s.directory i).inUse → (s.directory i).role ≠ .client
  admin : HasAdmin s
  groups : s.groups.find [97] = none ∧ s.groups.freeIndex = some 0 ∧ s.groups.slots 0 = {}
  registry : s.registry.findByName bridgeGroupAgentName [97] = none ∧ s.registry.findFreeEntry = some 0
    ∧ s.registry.entries 0 = {} ∧ s.registry.count < interfaceRegistryMax
  owned : ∀ k, (s.registry.entries k).inUse → (s.registry.entries k).isVirtual = false
  store : s.config.hasBridgeStore = false

/-- The hub with the group. -/
def withGroup (s : Broker) : Broker :=
  { s with
    groups := { slots := Function.update s.groups.slots 0 { inUse := true, group := { name := [97] } }
                count := s.groups.count + 1 }
    registry := s.registry.assign 0 fun id e => e.virtual id bridgeGroupAgentName [97] }

theorem Calm.applyGroup (h : Calm s) : s.applyGroup [97] [] = (s.withGroup, .ok) := by
  have hvalid : BridgeGroup.isNameValid [97] = true := by decide
  have hset : s.groups.set [97] [] = some
      { slots := Function.update s.groups.slots 0 { inUse := true, group := { name := [97] } }
        count := s.groups.count + 1 } := by
    simp [BridgeGroups.set, hvalid, h.groups.1, h.groups.2.1, BridgeGroups.modify]
  have hadd : s.registry.addVirtual bridgeGroupAgentName [97]
      = some (s.registry.assign 0 fun id e => e.virtual id bridgeGroupAgentName [97], 0) := by
    simp [InterfaceRegistry.addVirtual, h.registry.1, h.registry.2.1]
  have hroom : s.groups.hasRoom [97] = true := by simp [BridgeGroups.hasRoom, h.groups.2.1]
  have hcount := h.registry.2.2.2
  unfold Broker.applyGroup
  rw [if_neg (by simp [hvalid]), if_neg (by simp [hroom]), if_neg (by omega)]
  have hstore : s.store = (s, true) := by simp [Broker.store, h.store]
  rw [hstore]
  dsimp only
  unfold openGroupInterface setGroup
  rw [hset]
  rw [h.registry.1]
  rw [hadd]
  dsimp only
  rw [reattachInterface_none]
  · rfl
  · exact h.peers

theorem Calm.withGroup_found (h : Calm s) : s.withGroup.groups.find [97] = some 0
    ∧ s.withGroup.registry.findByName bridgeGroupAgentName [97] = some 0 := by
  constructor
  · refine Table.find?_unique (by simp [withGroup]) fun q hq => ?_
    by_contra hne
    have := Table.find?_eq_none.mp h.groups.1 q
    simp_all [withGroup]
  · refine Table.find?_unique (by simp [withGroup, InterfaceRegistry.assign, InterfaceRegistry.modify,
      InterfaceEntry.virtual, InterfaceEntry.namesMatch]) fun k hk => ?_
    by_contra hne
    have := Table.find?_eq_none.mp h.registry.1 k
    simp_all [withGroup, InterfaceRegistry.assign, InterfaceRegistry.modify]

/-- The group is gone, and with it one interface id. -/
theorem Calm.removeGroup (h : Calm s) : s.withGroup.removeGroup [97]
    = ({ s with registry := { s.registry with nextInterfaceId := s.registry.nextInterfaceId + 1 } }, .ok) := by
  have hstore : s.withGroup.store = (s.withGroup, true) := by
    have : s.withGroup.config.hasBridgeStore = false := h.store
    simp [Broker.store, this]
  unfold Broker.removeGroup
  rw [if_neg (by simp [h.withGroup_found.1]), hstore]
  dsimp only
  have hgroups : s.withGroup.groups.remove [97] = s.groups := by
    unfold BridgeGroups.remove
    rw [h.withGroup_found.1]
    simp [BridgeGroups.modify, withGroup, ← h.groups.2.2]
  have hentries : s.withGroup.registry.removeVirtual s.registry.nextInterfaceId
      = { s.registry with nextInterfaceId := s.registry.nextInterfaceId + 1 } := by
    have hentry : ∀ k, (if ((s.withGroup.registry.entries k).inUse = true
          ∧ (s.withGroup.registry.entries k).interfaceId = s.registry.nextInterfaceId
          ∧ (s.withGroup.registry.entries k).isVirtual = true) then {} else s.withGroup.registry.entries k)
        = s.registry.entries k := fun k => by
      by_cases hk : k = 0
      · subst hk
        rw [h.registry.2.2.1]
        exact if_pos ⟨rfl, rfl, rfl⟩
      · have hsame : s.withGroup.registry.entries k = s.registry.entries k := by
          simp [withGroup, InterfaceRegistry.assign, InterfaceRegistry.modify, hk]
        rw [hsame]
        refine if_neg fun hv => ?_
        rw [h.owned k hv.1] at hv
        cases hv.2.2
    unfold InterfaceRegistry.removeVirtual InterfaceRegistry.map
    simp only [hentry]
    rfl
  have hid : (s.withGroup.registry.entries 0).interfaceId = s.registry.nextInterfaceId := rfl
  have hdetach : s.withGroup.detachInterface s.registry.nextInterfaceId = s.withGroup :=
    detachInterface_none (s := s.withGroup) h.peers _
  unfold closeGroupInterface
  rw [h.withGroup_found.2]
  dsimp only
  rw [hid, hdetach, hentries, hgroups]
  rfl

theorem HasAdmin.step (h : HasAdmin s) (m : ControlMessage) (change : Broker → Broker × AdminBridgeStatus)
    (s' : Broker)
    (hm : ∀ s : Broker, s.handleControl 0 m = s.handleBridgeRequest 0 change)
    (hchange : change { s with port := groupComes.port, nowUs := 0 } = (s', .ok)) (hdir : s'.directory = s.directory)
    (hport : s'.port = groupComes.port) :
    s.step { event := .control 9 m 0 } = { s' with port := granted } := by
  have hfind : ∀ s₁ : Broker, s₁.directory = s.directory → s₁.find 9 = some 0 := fun s₁ h₁ => by
    unfold Broker.find
    rw [h₁]
    exact h.1
  have hrequest : ({ s with port := groupComes.port, nowUs := 0 } : Broker).handleBridgeRequest 0 change
      = { s' with port := granted } := by
    have hyes : groupComes.port.answer groupComes.port.asked = true := rfl
    unfold handleBridgeRequest
    rw [if_neg (by simp [h.2.1]), hchange]
    unfold sendControl ask
    dsimp only
    rw [hport]
    simp only [transmit_eq, emit]
    rw [if_pos hyes, hdir, h.2.2.2]
    rfl
  have hfirst : ({ s with port := groupComes.port, nowUs := 0 } : Broker).find 9 = some 0 := hfind _ rfl
  have hlast : ({ s' with port := granted } : Broker).find 9 = some 0 := hfind _ hdir
  change ({ s with port := groupComes.port } : Broker).onPeerControl 9 m 0 = _
  rw [onPeerControl_eq]
  dsimp only
  rw [hfirst, Option.elim_some, hm, hrequest]
  exact dropIfSendFailed_sound hlast (by rw [hdir]; exact h.2.2.1)

theorem Calm.later (h : Calm s) (next : UInt32) : Calm (s.later next) :=
  ⟨h.peers, h.admin, h.groups, h.registry, h.owned, h.store⟩

theorem Calm.turn (h : Calm s) : Calm { s with port := groupComes.port, nowUs := 0 } :=
  ⟨h.peers, h.admin, h.groups, h.registry, h.owned, h.store⟩

theorem Calm.cycle (h : Calm s) :
    s.run [groupComes, groupGoes] = s.later (s.registry.nextInterfaceId + 1) := by
  have hcomes : s.step groupComes = { s.withGroup with port := granted, nowUs := 0 } :=
    h.admin.step _ (·.applyGroup [97] []) { s.withGroup with port := groupComes.port, nowUs := 0 } (fun _ => rfl)
      h.turn.applyGroup rfl rfl
  have hadmin : HasAdmin { s.withGroup with port := granted, nowUs := 0 } := h.admin
  change (s.step groupComes).step groupGoes = _
  rw [hcomes]
  exact hadmin.step _ (·.removeGroup [97])
    { s with registry := { s.registry with nextInterfaceId := s.registry.nextInterfaceId + 1 }
             port := groupComes.port, nowUs := 0 }
    (fun _ => rfl) h.turn.removeGroup rfl rfl

/-- **The ids go around**: a group that comes and goes takes one. -/
theorem Calm.cycles (h : Calm s) (n : ℕ) : s.run (replicate (n + 1) [groupComes, groupGoes]).flatten
    = s.later (s.registry.nextInterfaceId + UInt32.ofNat (n + 1)) := by
  induction n with
  | zero => exact h.cycle
  | succ n ih =>
    have hcycle := (h.later (s.registry.nextInterfaceId + UInt32.ofNat (n + 1))).cycle
    rw [replicate_succ', flatten_append, Broker.run, Run.run_append]
    change (s.run _).run _ = _
    rw [ih, flatten_singleton, UInt32.ofNat_add (n + 1) 1, ← UInt32.add_assoc]
    exact hcycle

/-- An agent (peer 2) exports an interface while a group has the first entry, which is then free. -/
def aging : List HubTurn :=
  adminJoins 9 ++ [groupComes] ++ agentJoins 2 (registersOne 1 2) ++ [groupGoes]

def aged : Broker := small.run aging

set_option maxRecDepth 100000 in
theorem aged_calm : Calm aged ∧ aged.registry.nextInterfaceId = 3 := by
  have h : (∀ i, (aged.directory i).inUse → (aged.directory i).role ≠ .client) ∧ HasAdmin aged
      ∧ (aged.groups.find [97] = none ∧ aged.groups.freeIndex = some 0 ∧ aged.groups.slots 0 = {})
      ∧ (aged.registry.findByName bridgeGroupAgentName [97] = none ∧ aged.registry.findFreeEntry = some 0
        ∧ aged.registry.entries 0 = {} ∧ aged.registry.count < interfaceRegistryMax)
      ∧ (∀ k, (aged.registry.entries k).inUse → (aged.registry.entries k).isVirtual = false)
      ∧ aged.config.hasBridgeStore = false ∧ aged.registry.nextInterfaceId = 3 := by
    decide +kernel
  obtain ⟨hpeers, hadmin, hgroups, hregistry, howned, hstore, hnext⟩ := h
  exact ⟨⟨hpeers, hadmin, hgroups, hregistry, howned, hstore⟩, hnext⟩

set_option maxRecDepth 100000 in
theorem aging_fresh : Run.Along step FreshId small aging := by decide +kernel

/-- A client (peer 3) begins a transaction with the agent and, when another agent (peer 4) has the same
interface id, one with that agent; then it closes the channel. -/
def reusing : List HubTurn :=
  clientJoins 3 2 ++ transactionBegins 3 2 { channel := 0 } ⟨0, 0, 1, 1000⟩
    ++ agentJoins 4 (registersOne 3 2)
    ++ transactionBegins 3 4 { channel := 0 } ⟨0, 0, 1, 1000⟩ ++ [{ event := .control 3 (.close 0) 0 }]

set_option maxRecDepth 100000 in
theorem reusing_fresh : Run.Along step FreshId (aged.later 2) reusing := by decide +kernel

set_option maxRecDepth 100000 in
theorem reusing_unbound : ¬ Answered ((aged.later 2).run reusing) := by
  have h : (((aged.later 2).run reusing).transactions.entries 1).state = .active
      ∧ (((aged.later 2).run reusing).transactions.entries 1).clientPeerId = 3
      ∧ (∀ i, (((aged.later 2).run reusing).directory i).peerId = 3 → i = 2)
      ∧ ∀ j, ((((aged.later 2).run reusing).directory 2).session.bindings j).inUse = false := by
    decide +kernel
  obtain ⟨hactive, hclient, hpeer, hbindings⟩ := h
  intro hanswered
  obtain ⟨_, i, j, _, _, hid, hbound, _⟩ := hanswered.active 1 hactive
  rw [hpeer i (hid.trans hclient), hbindings j] at hbound
  cases hbound

/-- The hub ages, ids go around, and the turns follow. -/
def wrapping (n : ℕ) (turns : List HubTurn) : List HubTurn :=
  aging ++ ((replicate (n + 1) [groupComes, groupGoes]).flatten ++ turns)

theorem wrapping_run {n : ℕ} (hn : 3 + UInt32.ofNat (n + 1) = 2) (turns : List HubTurn) :
    small.run (wrapping n turns) = (aged.later 2).run turns
      ∧ (Run.Along step FreshId (aged.later 2) turns → Run.Along step FreshId small (wrapping n turns)) := by
  have hcycles := aged_calm.1.cycles n
  rw [aged_calm.2, hn] at hcycles
  refine ⟨?_, fun hturns => ?_⟩
  · unfold wrapping
    rw [Broker.run, Run.run_append, Run.run_append]
    change (aged.run _).run turns = _
    rw [hcycles]
  · refine Run.Along.append.mpr ⟨aging_fresh, Run.Along.append.mpr ⟨?_, ?_⟩⟩
    · refine Run.Along.of_forall (fun t ht s => ?_) _
      obtain ⟨l, hl, ht⟩ := mem_flatten.mp ht
      rw [eq_of_mem_replicate hl] at ht
      rcases mem_pair.mp ht with rfl | rfl <;> trivial
    · change Run.Along step FreshId (aged.run _) turns
      rw [hcycles]
      exact hturns

/-- A client with the id 0 (`transactionNoClient`) leaves its channel before the grant. -/
def nobody : List HubTurn :=
  agentJoins 2 (registersOne 1 2) ++ clientJoins 0 1
    ++ [{ event := .control 0 (.txnBegin { channel := 0 }) 0 }, { event := .control 0 (.close 0) 0 },
        { event := .control 2 (.txnBeginAck ⟨0, 0, 1, 1000⟩) 0 }]

set_option maxRecDepth 100000 in
theorem nobody_unbound : ¬ Answered (small.run nobody) := by
  have h : ((small.run nobody).transactions.entries 0).state = .active
      ∧ (∀ i j, (((small.run nobody).directory i).session.bindings j).inUse = false) := by
    decide +kernel
  intro hanswered
  obtain ⟨_, i, j, _, _, _, hbound, _⟩ := hanswered.active 0 h.1
  rw [h.2 i j] at hbound
  cases hbound

/-- **Transactions without a channel**: of a client with the id 0, and once the interface ids have gone
around, though every connection brings an id of its own. -/
theorem unanswered_runs : ¬ Answered (small.run nobody)
    ∧ Run.Along step FreshId small (wrapping (2 ^ 32 - 2) reusing)
    ∧ ¬ Answered (small.run (wrapping (2 ^ 32 - 2) reusing)) := by
  obtain ⟨hrun, hfresh⟩ := wrapping_run (n := 2 ^ 32 - 2) (by decide) reusing
  refine ⟨nobody_unbound, hfresh reusing_fresh, ?_⟩
  rw [hrun]
  exact reusing_unbound

end Broker
end CanHub
