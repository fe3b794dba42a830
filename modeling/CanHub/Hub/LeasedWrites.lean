/-
# Writes under a lease

While an interface is leased, the frames of every client but the holder are dropped
before they reach it: on a channel of the interface, and where a channel of a group
has it among its members (`leased_frames`). `injections` is the list of interfaces a
client's frame is written to, and `routeClientFrameUnder held` the router that drops
what is written to an interface in `held`; the hub's router is the one for the
interfaces leased to another client when the frame arrives, so a lease is the only
thing between a frame and its bus, and a frame not written to the leased interface, or
written by its holder, goes the way it would go without the lease.
-/
import CanHub.Hub.Forwarding
import CanHub.Hub.Leases

namespace CanHub

open RelayedTransaction InterfaceEntry List Option
namespace Broker

variable {s s' : Broker}

/-! ### The lease as the books show it -/

theorem Like.anyLease (h : Like s s') : s'.transactions.anyLease = s.transactions.anyLease := by
  unfold TransactionTable.anyLease
  rw [h.activeLeases]

theorem Like.leasedToAnother (h : Like s s') (interfaceId clientPeerId : UInt32) :
    s'.leasedToAnother interfaceId clientPeerId = s.leasedToAnother interfaceId clientPeerId := by
  have hholder : s'.transactions.leaseHolder interfaceId = s.transactions.leaseHolder interfaceId := by
    have hfind : s'.transactions.entries.find? (fun t => t.holdsLease && t.interfaceId == interfaceId)
        = s.transactions.entries.find? (fun t => t.holdsLease && t.interfaceId == interfaceId) :=
      Table.find?_congr fun t => by
        obtain ⟨hstate, hex, hid, _⟩ := of_face (h.transactions t)
        rw [holdsLease, holdsLease, hstate, hex, hid]
    have hclient : ∀ t, (s'.transactions.entries t).clientPeerId = (s.transactions.entries t).clientPeerId :=
      fun t => (of_face (h.transactions t)).2.2.2.2.2.1
    unfold TransactionTable.leaseHolder
    rw [h.anyLease, hfind]
    simp only [hclient]
  unfold Broker.leasedToAnother
  rw [hholder]

theorem Like.findByName (h : Like s s') (agentName interfaceName : Text) :
    s'.registry.findByName agentName interfaceName = s.registry.findByName agentName interfaceName :=
  Table.find?_congr fun k => by
    obtain ⟨huse, _, _, _, hagent, hname⟩ := of_face (h.registry.entries k)
    rw [huse, namesMatch, namesMatch, hagent, hname]

/-- The interface an endpoint names. -/
def interfaceOf (s : Broker) (endpoint : BridgeEndpoint) : Option UInt32 :=
  (s.registry.findByName endpoint.agentName endpoint.interfaceName).map fun k => (s.registry.entries k).interfaceId

theorem Like.interfaceOf (h : Like s s') (endpoint : BridgeEndpoint) : s'.interfaceOf endpoint = s.interfaceOf endpoint := by
  unfold Broker.interfaceOf
  rw [h.findByName]
  congr 1
  funext k
  exact (of_face (h.registry.entries k)).2.1

/-- Without a lease nothing is leased to another; the hub asks the counter first. -/
theorem leasedToAnother_of_anyLease (h : s.transactions.anyLease = false) (interfaceId clientPeerId : UInt32) :
    s.leasedToAnother interfaceId clientPeerId = false := by
  unfold leasedToAnother TransactionTable.leaseHolder
  rw [h]
  rfl

theorem endpointLeasedToAnother_eq (endpoint : BridgeEndpoint) (clientPeerId : UInt32) :
    s.endpointLeasedToAnother endpoint clientPeerId
      = (s.interfaceOf endpoint).any fun interfaceId => s.leasedToAnother interfaceId clientPeerId := by
  unfold endpointLeasedToAnother interfaceOf
  cases ha : s.transactions.anyLease with
  | false =>
    have hnone : ∀ id, s.leasedToAnother id clientPeerId = false := fun id => leasedToAnother_of_anyLease ha id _
    cases s.registry.findByName endpoint.agentName endpoint.interfaceName <;> simp [hnone]
  | true => cases s.registry.findByName endpoint.agentName endpoint.interfaceName <;> rfl

theorem channelLeasedToAnother_eq (i : PeerSlot) (channel : UInt8) :
    s.channelLeasedToAnother i channel = ((s.directory i).session.interfaceForChannel channel).any
      fun interfaceId => s.leasedToAnother interfaceId (s.directory i).peerId := by
  unfold channelLeasedToAnother
  cases ha : s.transactions.anyLease with
  | false =>
    have hnone : ∀ id, s.leasedToAnother id (s.directory i).peerId = false :=
      fun id => leasedToAnother_of_anyLease ha id _
    cases (s.directory i).session.interfaceForChannel channel <;> simp [hnone]
  | true => cases (s.directory i).session.interfaceForChannel channel <;> rfl

variable {t : TransactionSlot}

/-- One transaction at most holds an interface, so its client is the holder. -/
theorem Sound.leasedToAnother (h : Sound s) (ht : (s.transactions.entries t).holdsLease)
    (clientPeerId : UInt32) : s.leasedToAnother (s.transactions.entries t).interfaceId clientPeerId
      = decide ((s.transactions.entries t).clientPeerId ≠ clientPeerId) := by
  unfold Broker.leasedToAnother
  rw [h.leaseHolder_iff.mpr ⟨t, ht, rfl, rfl⟩]

/-! ### The router under a rule -/

/-- The interfaces a client's frame is written to: the one of its channel, or the members of its group that receive. -/
def injections (s : Broker) (i : PeerSlot) (f : FrameMessage) : List UInt32 :=
  if !(s.directory i).session.canWrite f.channel ∨ f.canId &&& frameCanIdFlagErr ≠ 0 then []
  else
    match s.groupOfChannel i f.channel with
    | some (g, _) => ((s.groups.slots g).group.members.filter (·.receives)).filterMap fun m => s.interfaceOf m.endpoint
    | none => ((s.directory i).session.interfaceForChannel f.channel).toList

/-- `writeIntoMember` where the interfaces in `held` are not to be written. -/
def writeIntoMemberUnder (held : UInt32 → Bool) (g : GroupSlot) (f : FrameMessage) (s : Broker)
    (m : BridgeGroupMember) : Broker :=
  if !m.receives then s
  else if (s.interfaceOf m.endpoint).any held then
    s.countTransactions fun c => { c with leaseFrameDrops := c.leaseFrameDrops + 1 }
  else s.bridgeInto ⟨m.endpoint, .group g⟩ f

/-- `routeClientFrame` where the interfaces in `held` are not to be written. -/
def routeClientFrameUnder (held : UInt32 → Bool) (s : Broker) (i : PeerSlot) (f : FrameMessage) : Broker × Bool :=
  if !(s.directory i).session.canWrite f.channel ∨ f.canId &&& frameCanIdFlagErr ≠ 0 then
    (s.countFrames fun m => { m with framesDropped := m.framesDropped + 1 }, true)
  else if ((s.directory i).session.interfaceForChannel f.channel).any held then
    (s.countTransactions fun c => { c with leaseFrameDrops := c.leaseFrameDrops + 1 }, true)
  else
    match s.groupOfChannel i f.channel with
    | some (g, k) =>
      ((((s.groups.slots g).group.members.foldl (writeIntoMemberUnder held g f) s).showToGroup k f
        (s.directory i).peerId 0).1, true)
    | none =>
      if s.channelRefusesFrame i f then
        (s.countFrames fun m => { m with framesDropped := m.framesDropped + 1 }, true)
      else s.injectFrame i f (FrameRoutes.fromClient s.registry (s.directory i) f.channel)

/-- `routeFrame` where the interfaces in `held` are not to be written. -/
def routeFrameUnder (held : UInt32 → Bool) (s : Broker) (i : PeerSlot) (f : FrameMessage) : Broker × Bool :=
  let s := s.countFrames fun m => { m with framesReceived := m.framesReceived + 1 }
  let s := s.countInterfaceFrame i f.channel
  if (s.directory i).role = .agent then s.routeAgentFrame i f else routeClientFrameUnder held s i f

/-- The channel is not one to write on, or the frame not one to write. -/
abbrev Barred (s : Broker) (i : PeerSlot) (f : FrameMessage) : Prop :=
  !(s.directory i).session.canWrite f.channel ∨ f.canId &&& frameCanIdFlagErr ≠ 0

theorem writeIntoMemberUnder_like (held : UInt32 → Bool) (g : GroupSlot) (f : FrameMessage) (m : BridgeGroupMember) :
    Like s (writeIntoMemberUnder held g f s m) := by
  unfold writeIntoMemberUnder
  split
  · exact .refl s
  split
  · exact (s.perform_still .suppress).toLike
  · exact s.bridgeInto_like _ f

/-- Nothing a member is written changes what the next one is. -/
theorem writeMembers_eq {writerPeerId : UInt32} (g : GroupSlot) (f : FrameMessage) (members : List BridgeGroupMember)
    (h : Like s s') : members.foldl (writeIntoMember writerPeerId g f) s'
      = members.foldl (writeIntoMemberUnder (fun id => s.leasedToAnother id writerPeerId) g f) s' := by
  induction members generalizing s' with
  | nil => rfl
  | cons m members ih =>
    have hone : writeIntoMember writerPeerId g f s' m
        = writeIntoMemberUnder (fun id => s.leasedToAnother id writerPeerId) g f s' m := by
      unfold writeIntoMember writeIntoMemberUnder
      rw [endpointLeasedToAnother_eq]
      simp only [h.leasedToAnother]
    rw [foldl_cons, foldl_cons, hone]
    exact ih (h.trans (writeIntoMemberUnder_like _ g f m))

/-- Two rules that agree on the members write the same. -/
theorem writeMembersUnder_congr {held held' : UInt32 → Bool} (g : GroupSlot) (f : FrameMessage)
    (members : List BridgeGroupMember) (hs : Like s s')
    (h : ∀ m ∈ members, m.receives → ∀ id ∈ s.interfaceOf m.endpoint, held id = held' id) :
    members.foldl (writeIntoMemberUnder held g f) s' = members.foldl (writeIntoMemberUnder held' g f) s' := by
  induction members generalizing s' with
  | nil => rfl
  | cons m members ih =>
    have hone : writeIntoMemberUnder held g f s' m = writeIntoMemberUnder held' g f s' m := by
      unfold writeIntoMemberUnder
      rw [hs.interfaceOf]
      by_cases hr : m.receives
      · have hm := h m mem_cons_self hr
        cases hid : s.interfaceOf m.endpoint with
        | none => rfl
        | some id =>
          rw [hid] at hm
          simp only [any_some, hm id rfl]
      · simp [hr]
    rw [foldl_cons, foldl_cons, hone]
    exact ih (hs.trans (writeIntoMemberUnder_like held' g f m)) fun m' hm' => h m' (mem_cons_of_mem m hm')

/-- **The hub's router is the one under its leases.** -/
theorem routeClientFrame_eq_under (i : PeerSlot) (f : FrameMessage) : s.routeClientFrame i f
    = routeClientFrameUnder (fun id => s.leasedToAnother id (s.directory i).peerId) s i f := by
  rw [routeClientFrame, routeClientFrameUnder, channelLeasedToAnother_eq]
  by_cases hmay : s.Barred i f
  · rw [if_pos hmay, if_pos hmay]
  rw [if_neg hmay, if_neg hmay]
  split
  · rfl
  cases s.groupOfChannel i f.channel with
  | none => rfl
  | some gk =>
    obtain ⟨g, k⟩ := gk
    dsimp only
    rw [writeIntoGroup, writeMembers_eq g f _ (Like.refl s)]

variable {i : PeerSlot} {k : EntrySlot}

theorem mem_injections_of_group {f : FrameMessage} {g : GroupSlot}
    (hmay : ¬s.Barred i f)
    (hg : s.groupOfChannel i f.channel = some (g, k)) {m : BridgeGroupMember} (hm : m ∈ (s.groups.slots g).group.members)
    (hr : m.receives) {id : UInt32} (hid : id ∈ s.interfaceOf m.endpoint) : id ∈ s.injections i f := by
  unfold injections
  rw [if_neg hmay, hg]
  exact mem_filterMap.mpr ⟨m, mem_filter.mpr ⟨hm, hr⟩, hid⟩

/-- Two rules that agree on the interface of the channel and on the interfaces written to route the frame alike. -/
theorem routeClientFrameUnder_congr {held held' : UInt32 → Bool} {f : FrameMessage}
    (hchannel : ¬s.Barred i f → ∀ id ∈ (s.directory i).session.interfaceForChannel f.channel, held id = held' id)
    (h : ∀ id ∈ s.injections i f, held id = held' id) :
    routeClientFrameUnder held s i f = routeClientFrameUnder held' s i f := by
  unfold routeClientFrameUnder
  by_cases hmay : s.Barred i f
  · rw [if_pos hmay, if_pos hmay]
  have hany : ((s.directory i).session.interfaceForChannel f.channel).any held
      = ((s.directory i).session.interfaceForChannel f.channel).any held' := by
    cases hid : (s.directory i).session.interfaceForChannel f.channel with
    | none => rfl
    | some id => exact hchannel hmay id hid
  rw [if_neg hmay, if_neg hmay, hany]
  cases hg : s.groupOfChannel i f.channel with
  | none => rfl
  | some gk =>
    obtain ⟨g, k⟩ := gk
    dsimp only
    rw [writeMembersUnder_congr g f _ (Like.refl s) fun m hm hr id hid =>
      h id (mem_injections_of_group hmay hg hm hr hid)]

/-! ### The leased channel gets nothing -/

/-- A lease, as the books show it. -/
theorem Like.holdsLease (h : Like s s') (t : TransactionSlot) :
    (s'.transactions.entries t).holdsLease = (s.transactions.entries t).holdsLease
      ∧ (s'.transactions.entries t).interfaceId = (s.transactions.entries t).interfaceId
      ∧ (s'.transactions.entries t).agentPeerId = (s.transactions.entries t).agentPeerId
      ∧ (s'.transactions.entries t).agentChannel = (s.transactions.entries t).agentChannel
      ∧ (s'.transactions.entries t).clientPeerId = (s.transactions.entries t).clientPeerId := by
  obtain ⟨hstate, hex, hid, hagent, hchannel, hclient, _⟩ := of_face (h.transactions t)
  refine ⟨?_, hid, hagent, hchannel, hclient⟩
  rw [RelayedTransaction.holdsLease, RelayedTransaction.holdsLease, hstate, hex]

/-- An entry on the agent channel of a leased interface is that interface's. -/
theorem Sound.entry_of_leased (h : Sound s) (ht : (s.transactions.entries t).isInUse)
    (hk : (s.registry.entries k).inUse)
    (ha : (s.registry.entries k).agentPeerId = (s.transactions.entries t).agentPeerId)
    (hc : (s.registry.entries k).agentChannel = (s.transactions.entries t).agentChannel) :
    (s.registry.entries k).interfaceId = (s.transactions.entries t).interfaceId := by
  obtain ⟨hne, l, hl, hid, hagent, hchannel⟩ := h.transactions.exported t ht
  have hkl := h.registry.served k l hk hl (decide_eq_false (by rw [ha]; exact hne)) (ha.trans hagent.symm)
    (hc.trans hchannel.symm)
  rw [hkl, hid]

/-- Frames shown to clients do not go to an agent. -/
theorem Sound.not_client (h : Sound s) (ht : (s.transactions.entries t).isInUse)
    {interfaceId : UInt32} {r : FrameRoute} (hr : r ∈ FrameRoutes.toInterface s.directory interfaceId) :
    r.peerId ≠ (s.transactions.entries t).agentPeerId := by
  obtain ⟨i, _, hi⟩ := mem_flatMap.mp hr
  unfold HubPeer.routesToInterface at hi
  split at hi
  · rename_i hclient
    obtain ⟨b, _, rfl⟩ := mem_map.mp hi
    obtain ⟨a, ha, hrole, hid⟩ := h.present ht
    intro he
    have hia := h.peers.distinct i a hclient.1 ha (he.trans hid.symm)
    subst hia
    rw [hrole] at hclient
    cases hclient.2
  · cases hi

/-- The frame of another client than the holder avoids the leased channel. -/
theorem Sound.routesClient_avoids (h : Sound s) (ht : (s.transactions.entries t).holdsLease)
    (hne : (s.transactions.entries t).clientPeerId ≠ (s.directory i).peerId) (f : FrameMessage) :
    RoutesClient (fun _ act => act.Avoids (s.transactions.entries t).agentPeerId (s.transactions.entries t).agentChannel)
      s i f := by
  have huse := isInUse_of_holdsLease ht
  have hleased : s.leasedToAnother (s.transactions.entries t).interfaceId (s.directory i).peerId := by
    rw [h.leasedToAnother ht]
    exact decide_eq_true hne
  intro _ _
  split
  · trivial
  rename_i hfree
  refine ⟨fun g k hg s' hlike _ => ⟨fun m _ _ => ?_, fun s'' _ r hr _ => ?_⟩, fun hnone _ r hr =>
    ⟨fun _ _ => trivial, fun _ _ _ _ => ?_⟩⟩
  · -- A member that is not dropped is another interface, on another agent channel.
    split
    · trivial
    rename_i hmember
    intro k' agent hk' _ _
    refine ⟨trivial, fun hroute => hmember ?_⟩
    have hsound := h.like hlike
    obtain ⟨_, hid, hagent, hchannel, _⟩ := hlike.holdsLease t
    have huse' : (s'.transactions.entries t).isInUse :=
      isInUse_of_holdsLease ((hlike.holdsLease t).1.trans ht)
    obtain ⟨hin, _⟩ := InterfaceRegistry.findByName_some hk'
    have hentry := hsound.entry_of_leased huse' hin (hroute.1.trans hagent.symm) (hroute.2.trans hchannel.symm)
    rw [endpointLeasedToAnother_eq, Broker.interfaceOf, hk']
    simp only [map_some, any_some]
    rw [hentry, hid, hlike.leasedToAnother]
    exact hleased
  · have hsound := h.like hlike
    obtain ⟨_, _, hagent, _⟩ := hlike.holdsLease t
    have huse' : (s'.transactions.entries t).isInUse :=
      isInUse_of_holdsLease ((hlike.holdsLease t).1.trans ht)
    intro hroute
    exact hsound.not_client huse' hr (hroute.1.trans hagent.symm)
  · -- A channel that is not dropped is open on another interface.
    intro hroute
    rw [channelLeasedToAnother_eq] at hfree
    unfold FrameRoutes.fromClient at hr
    cases hid : (s.directory i).session.interfaceForChannel f.channel with
    | none =>
      rw [hid] at hr
      cases hr
    | some id =>
      rw [hid] at hr hfree
      obtain ⟨k, hk, rfl⟩ := map_eq_some_iff.mp hr
      obtain ⟨hin, hkid⟩ := InterfaceRegistry.findById_some hk
      have hentry := h.entry_of_leased huse hin hroute.1 hroute.2
      rw [hkid] at hentry
      rw [hentry] at hfree
      exact hfree hleased

theorem Sound.routesFrame_avoids (h : Sound s) (ht : (s.transactions.entries t).holdsLease)
    (hrole : (s.directory i).role = .client)
    (hne : (s.transactions.entries t).clientPeerId ≠ (s.directory i).peerId) (f : FrameMessage) :
    RoutesFrame (fun _ act => act.Avoids (s.transactions.entries t).agentPeerId (s.transactions.entries t).agentChannel)
      s i f := by
  intro s' halike
  have hlike := halike.like
  obtain ⟨hlease, _, hagent, hchannel, hclient⟩ := hlike.holdsLease t
  have hrole' : (s'.directory i).role ≠ .agent := by rw [(hlike.peers i).role, hrole]; simp
  rw [if_neg hrole', ← hagent, ← hchannel]
  exact (h.like hlike).routesClient_avoids (hlease.trans ht) (by rw [hclient, (hlike.peers i).peerId]; exact hne) f

/-! ### What is counted -/

theorem bridgeInto_leaseFrameDrops (t : BridgeTarget) (f : FrameMessage) :
    (s.bridgeInto t f).metrics.transactions.leaseFrameDrops = s.metrics.transactions.leaseFrameDrops :=
  Goes.leaseFrameDrops (P := fun _ act => act ≠ .suppress ∧ ∀ i, act ≠ .drain i) (fun _ _ h => h)
    (s.bridgeInto_deals fun _ _ _ _ _ => ⟨⟨nofun, nofun⟩, nofun, nofun⟩).goes

theorem showToGroup_leaseFrameDrops (k : EntrySlot) (f : FrameMessage) (originator : UInt32) (routeFlags : UInt8) :
    (s.showToGroup k f originator routeFlags).1.metrics.transactions.leaseFrameDrops
      = s.metrics.transactions.leaseFrameDrops :=
  Goes.leaseFrameDrops (P := fun _ act => act ≠ .suppress ∧ ∀ i, act ≠ .drain i) (fun _ _ h => h)
    (s.showToGroup_deals k fun _ _ _ _ _ => ⟨nofun, nofun⟩).goes

/-- One drop for each member that is held. -/
theorem writeMembersUnder_leaseFrameDrops (held : UInt32 → Bool) (g : GroupSlot) (f : FrameMessage)
    (members : List BridgeGroupMember) (h : Like s s') :
    (members.foldl (writeIntoMemberUnder held g f) s').metrics.transactions.leaseFrameDrops
      = s'.metrics.transactions.leaseFrameDrops
        + UInt64.ofNat (((members.filter (·.receives)).filterMap fun m => s.interfaceOf m.endpoint).filter held).length := by
  induction members generalizing s' with
  | nil => exact (UInt64.add_zero _).symm
  | cons m members ih =>
    rw [foldl_cons, ih (h.trans (writeIntoMemberUnder_like held g f m))]
    unfold writeIntoMemberUnder
    rw [h.interfaceOf]
    by_cases hr : m.receives
    · rw [if_neg (by simp [hr]), filter_cons_of_pos hr]
      cases hid : s.interfaceOf m.endpoint with
      | none =>
        rw [filterMap_cons, hid]
        simp only [any_none, Bool.false_eq_true, if_false, bridgeInto_leaseFrameDrops]
      | some id =>
        rw [filterMap_cons, hid]
        by_cases hh : held id
        · rw [any_some, if_pos hh, filter_cons_of_pos hh, length_cons]
          rw [UInt64.ofNat_add]
          exact (UInt64.add_assoc _ 1 _).trans (congrArg _ (UInt64.add_comm 1 _))
        · rw [any_some, if_neg hh, filter_cons_of_neg hh, bridgeInto_leaseFrameDrops]
    · rw [if_pos (by simp [hr]), filter_cons_of_neg hr]

/-- No group is leased: transactions are with agents. -/
theorem Sound.group_free (h : Sound s) {channel : UInt8} {g : GroupSlot}
    (hg : s.groupOfChannel i channel = some (g, k)) (clientPeerId : UInt32) :
    ∀ id ∈ (s.directory i).session.interfaceForChannel channel,
      (∀ t, (s.transactions.entries t).isInUse → (s.transactions.entries t).interfaceId ≠ id)
        ∧ s.leasedToAnother id clientPeerId = false := by
  intro id hid
  unfold groupOfChannel at hg
  rw [hid] at hg
  dsimp only at hg
  cases hl : s.registry.findById id with
  | none =>
    rw [hl] at hg
    cases hg
  | some l =>
    rw [hl] at hg
    dsimp only at hg
    obtain ⟨hin, hlid⟩ := InterfaceRegistry.findById_some hl
    have hvirtual : (s.registry.entries l).isVirtual := by
      by_contra hv
      rw [if_pos (by simpa using hv)] at hg
      cases hg
    have hnone : ∀ t, (s.transactions.entries t).isInUse → (s.transactions.entries t).interfaceId ≠ id := by
      intro t ht he
      obtain ⟨hne, k', hk', hid', hagent, _⟩ := h.transactions.exported t ht
      have hkl := h.registry.distinct k' l hk' hin (by rw [hid', he, hlid])
      subst hkl
      rw [isVirtual, hagent] at hvirtual
      exact hne (of_decide_eq_true hvirtual)
    refine ⟨hnone, ?_⟩
    unfold Broker.leasedToAnother
    have hfree : s.transactions.leaseHolder id = none := Option.eq_none_iff_forall_ne_some.mpr fun c hc => by
      obtain ⟨t, ht, hid', _⟩ := h.leaseHolder_iff.mp hc
      exact hnone t (isInUse_of_holdsLease ht) hid'
    rw [hfree]

theorem Sound.routeClientFrame_leaseFrameDrops (h : Sound s) (i : PeerSlot) (f : FrameMessage) :
    (s.routeClientFrame i f).1.metrics.transactions.leaseFrameDrops = s.metrics.transactions.leaseFrameDrops
      + UInt64.ofNat ((s.injections i f).filter fun id => s.leasedToAnother id (s.directory i).peerId).length := by
  by_cases hmay : s.Barred i f
  · rw [routeClientFrame, if_pos hmay, injections, if_pos hmay]
    exact (UInt64.add_zero _).symm
  by_cases hleased : s.channelLeasedToAnother i f.channel
  · rw [routeClientFrame, if_neg hmay, if_pos hleased]
    rw [channelLeasedToAnother_eq] at hleased
    cases hid : (s.directory i).session.interfaceForChannel f.channel with
    | none =>
      rw [hid] at hleased
      cases hleased
    | some id =>
      rw [hid, any_some] at hleased
      cases hg : s.groupOfChannel i f.channel with
      | some gk =>
        rw [(h.group_free hg _ id hid).2] at hleased
        cases hleased
      | none =>
        rw [injections, if_neg hmay, hg, hid]
        simp [countTransactions, hleased]
  cases hg : s.groupOfChannel i f.channel with
  | some gk =>
    obtain ⟨g, k⟩ := gk
    have hcount := writeMembersUnder_leaseFrameDrops (fun id => s.leasedToAnother id (s.directory i).peerId) g f
      (s.groups.slots g).group.members (Like.refl s)
    rw [routeClientFrame, if_neg hmay, if_neg hleased, hg, injections, if_neg hmay, hg]
    dsimp only
    rw [writeIntoGroup, showToGroup_leaseFrameDrops, writeMembers_eq g f _ (Like.refl s), hcount]
  | none =>
    have hnone : (s.injections i f).filter (fun id => s.leasedToAnother id (s.directory i).peerId) = [] := by
      rw [channelLeasedToAnother_eq] at hleased
      rw [injections, if_neg hmay, hg]
      cases hid : (s.directory i).session.interfaceForChannel f.channel with
      | none => rfl
      | some id =>
        rw [hid, any_some] at hleased
        simp [hleased]
    rw [hnone, length_nil, show UInt64.ofNat 0 = 0 from rfl, UInt64.add_zero]
    refine Goes.leaseFrameDrops (P := fun _ act => act ≠ .suppress ∧ ∀ i, act ≠ .drain i) (fun _ _ h => h)
      (s.routeClientFrame_deals fun _ _ => ?_).goes
    rw [if_neg hleased]
    refine ⟨fun g k hgk => ?_, fun _ _ r _ => ⟨fun _ _ => ⟨?_, ?_⟩, fun _ _ _ _ => ⟨?_, ?_⟩⟩⟩
    · rw [hg] at hgk
      cases hgk
    all_goals simp

/-! ### The counted frame -/

/-- The state in which a frame is routed: it has been counted. -/
def counted (s : Broker) (i : PeerSlot) (channel : UInt8) : Broker :=
  (s.countFrames fun m => { m with framesReceived := m.framesReceived + 1 }).countInterfaceFrame i channel

theorem counted_alike (i : PeerSlot) (channel : UInt8) : Alike s (s.counted i channel) :=
  (countFrames_fixed rfl).toAlike.trans (countInterfaceFrame_fixed _ i channel).toAlike

theorem counted_eq (i : PeerSlot) (channel : UInt8) :
    (s.counted i channel).directory = s.directory ∧ (s.counted i channel).groups = s.groups := by
  unfold counted countInterfaceFrame
  dsimp only
  split
  · split <;> exact ⟨rfl, rfl⟩
  · split <;> exact ⟨rfl, rfl⟩

theorem Like.groupOfChannel (h : Like s s') (hd : s'.directory = s.directory) (hg : s'.groups = s.groups) (i : PeerSlot)
    (channel : UInt8) : s'.groupOfChannel i channel = s.groupOfChannel i channel := by
  have hfind : ∀ id, s'.registry.findById id = s.registry.findById id := fun id => Table.find?_congr fun k => by
    obtain ⟨huse, hid, _⟩ := of_face (h.registry.entries k)
    rw [huse, hid]
  unfold Broker.groupOfChannel
  rw [hd, hg]
  cases (s.directory i).session.interfaceForChannel channel with
  | none => rfl
  | some id =>
    dsimp only
    rw [hfind]
    cases s.registry.findById id with
    | none => rfl
    | some k =>
      obtain ⟨_, _, hagent, _, _, hname⟩ := of_face (h.registry.entries k)
      dsimp only
      rw [isVirtual, isVirtual, hagent, hname]

theorem Like.injections (h : Like s s') (hd : s'.directory = s.directory) (hg : s'.groups = s.groups) (i : PeerSlot)
    (f : FrameMessage) : s'.injections i f = s.injections i f := by
  have hof : s'.interfaceOf = s.interfaceOf := funext h.interfaceOf
  unfold Broker.injections
  rw [h.groupOfChannel hd hg, hd, hg, hof]

/-! ### Every frame of every run -/

/-- The states a frame can meet: after any turns, with any frames of its datagram routed before it. Connections bring
ids of their own, and interface ids last. -/
inductive Reached : Broker → Prop
  | init (config : HubConfig) (port : HubPort) (routes : List BridgeRoute) (groups : List BridgeGroup) :
      Reached (Broker.init config port routes groups)
  | step {s : Broker} (h : Reached s) {t : HubTurn} (hfresh : s.FreshId t) (hids : s.IdsLast t) : Reached (s.step t)
  | turn {s : Broker} (h : Reached s) (port : HubPort) : Reached { s with port }
  | frame {s : Broker} (h : Reached s) (i : PeerSlot) (f : FrameMessage) : Reached (s.routeFrame i f).1

theorem Reached.sound (h : Reached s) : Sound s := by
  induction h with
  | init config port routes groups => exact .init config port routes groups
  | step _ hfresh hids ih => exact ih.step hfresh hids
  | turn _ port ih => exact ih.port port
  | frame _ i f ih =>
    exact ih.goes (P := fun _ _ => True) (routeFrame_deals _ (routesFrame_of_all _ (fun _ _ _ => trivial) i f)).goes

/-- **An exclusive lease**: a frame of another client leads to nothing on the agent channel of the leased interface; each
interface it would have been written to and that is leased to another counts one drop; a frame of the holder, and one
that is not written to the leased interface, goes the way it goes without the lease. -/
theorem lease_excludes (h : Reached s) {t : TransactionSlot} (ht : (s.transactions.entries t).holdsLease) {i : PeerSlot}
    (hrole : (s.directory i).role = .client) (f : FrameMessage) :
    ((s.directory i).peerId ≠ (s.transactions.entries t).clientPeerId →
      s.leasedToAnother (s.transactions.entries t).interfaceId (s.directory i).peerId
      ∧ ∀ k a, (s.registry.entries k).inUse →
        (s.registry.entries k).interfaceId = (s.transactions.entries t).interfaceId →
        (s.directory a).inUse → (s.directory a).peerId = (s.registry.entries k).agentPeerId →
        Spared a (s.registry.entries k).agentPeerId (s.registry.entries k).agentChannel s (s.routeFrame i f).1)
    ∧ (s.routeFrame i f).1.metrics.transactions.leaseFrameDrops = s.metrics.transactions.leaseFrameDrops
      + UInt64.ofNat ((s.injections i f).filter fun id => s.leasedToAnother id (s.directory i).peerId).length
    ∧ ((s.directory i).peerId = (s.transactions.entries t).clientPeerId
        ∨ (s.transactions.entries t).interfaceId ∉ s.injections i f →
      s.routeFrame i f = routeFrameUnder (fun id => decide (id ≠ (s.transactions.entries t).interfaceId)
        && s.leasedToAnother id (s.directory i).peerId) s i f) := by
  have hsound := h.sound
  have halike := s.counted_alike i f.channel
  obtain ⟨hdir, hgroups⟩ := s.counted_eq i f.channel
  have hclient : ¬((s.counted i f.channel).directory i).role = .agent := by rw [hdir, hrole]; exact nofun
  have hroute : s.routeFrame i f = (s.counted i f.channel).routeClientFrame i f := if_neg hclient
  have hunder (held) : routeFrameUnder held s i f = routeClientFrameUnder held (s.counted i f.channel) i f :=
    if_neg hclient
  generalize s.counted i f.channel = s₁ at halike hdir hgroups hroute hunder
  have hlike := halike.like
  have hinj : s₁.injections i f = s.injections i f := hlike.injections hdir hgroups i f
  have hheld : (fun id => s₁.leasedToAnother id (s₁.directory i).peerId)
      = fun id => s.leasedToAnother id (s.directory i).peerId := funext fun id => by
    rw [hlike.leasedToAnother, hdir]
  refine ⟨fun hne => ⟨?_, fun k a hk hid ha hpeer => ?_⟩, ?_, fun hfree => ?_⟩
  · rw [hsound.leasedToAnother ht]
    exact decide_eq_true fun he => hne he.symm
  · obtain ⟨_, l, hl, hlid, hagent, hchannel⟩ :=
      hsound.transactions.exported t (isInUse_of_holdsLease ht)
    have hkl := hsound.registry.distinct k l hk hl (hid.trans hlid.symm)
    subst hkl
    rw [hagent, hchannel]
    refine Goes.spared (fun _ _ hact => hact)
      (s.routeFrame_deals (hsound.routesFrame_avoids ht hrole (fun he => hne he.symm) f)).goes fun _ => hpeer.trans hagent
  · rw [hroute, (hsound.like hlike).routeClientFrame_leaseFrameDrops, hinj, hheld, halike.leaseFrameDrops]
  · rw [hroute, hunder, routeClientFrame_eq_under, hheld]
    -- The rules differ on the leased interface alone, which the router does not meet or does not hold.
    have hagree : ∀ id, (id = (s.transactions.entries t).interfaceId →
        s.leasedToAnother id (s.directory i).peerId = false) → s.leasedToAnother id (s.directory i).peerId
          = (decide (id ≠ (s.transactions.entries t).interfaceId) && s.leasedToAnother id (s.directory i).peerId) := by
      intro id hid
      by_cases he : id = (s.transactions.entries t).interfaceId
      · rw [hid he, Bool.and_false]
      · rw [decide_eq_true he, Bool.true_and]
    have hholder : (s.directory i).peerId = (s.transactions.entries t).clientPeerId →
        s.leasedToAnother (s.transactions.entries t).interfaceId (s.directory i).peerId = false := fun he => by
      rw [hsound.leasedToAnother ht]
      exact decide_eq_false fun hne => hne he.symm
    refine routeClientFrameUnder_congr (fun hmay id hid => hagree id fun he => ?_) fun id hid => hagree id fun he => ?_
    · rcases hfree with hsame | hnot
      · rw [he]
        exact hholder hsame
      · cases hg : s₁.groupOfChannel i f.channel with
        | some gk =>
          rw [← hlike.leasedToAnother]
          exact ((hsound.like hlike).group_free hg _ id hid).2
        | none =>
          refine absurd ?_ hnot
          rw [← hinj, Broker.injections, if_neg hmay, hg, ← he]
          exact mem_toList.mpr hid
    · rw [hinj] at hid
      rcases hfree with hsame | hnot
      · rw [he]
        exact hholder hsame
      · exact absurd (he ▸ hid) hnot

theorem Reached.run (h : Reached s) {turns : List HubTurn}
    (hturns : Run.Along Broker.step (fun s t => s.FreshId t ∧ s.IdsLast t) s turns) : Reached (s.run turns) :=
  hturns.invariant (fun _ _ hs ht => hs.step ht.1 ht.2) h

/-- A frame on the client's first channel. -/
def plainFrame : FrameMessage :=
  { channel := 0, canId := 0x100, timestampUs := 0, frameFlags := 0, routeFlags := 0, payload := [] }

/-- Clients 3 and 5 on one interface, which is leased to client 3. -/
def leasedTurns : List HubTurn :=
  agentJoins 2 (registersOne 1 2) ++ clientJoins 3 1 ++ clientJoins 5 1
    ++ transactionBegins 3 2 { channel := 0, flags := txnBeginFlagExclusive } ⟨0, 0, 1, 1000⟩

set_option maxRecDepth 100000 in
/-- A frame of client 5 is dropped, and counted. -/
theorem lease_excludes_five : ((small.run leasedTurns).directory 2).peerId = 5
    ∧ ((small.run leasedTurns).routeFrame 2 plainFrame).1.metrics.transactions.leaseFrameDrops = 1 := by
  have hreached : Reached (small.run leasedTurns) := (Reached.init _ _ _ _).run (by decide +kernel)
  have hlease := (lease_excludes hreached (t := 0) (by decide +kernel) (i := 2) (by decide +kernel)
    plainFrame).2.1
  rw [hlease]
  decide +kernel

/-- Client 3 and client 5 both have an exclusive transaction on interface 2, which two agents share. -/
def sharedTurns : List HubTurn :=
  clientJoins 3 2 ++ transactionBegins 3 2 { channel := 0, flags := txnBeginFlagExclusive } ⟨0, 0, 1, 1000⟩
    ++ agentJoins 4 (registersOne 3 2) ++ clientJoins 5 2
    ++ transactionBegins 5 4 { channel := 0, flags := txnBeginFlagExclusive } ⟨0, 0, 1, 1000⟩

set_option maxRecDepth 100000 in
theorem shared_facts : Run.Along step FreshId (aged.later 2) sharedTurns
    ∧ ((((aged.later 2).run sharedTurns).transactions.entries 1).holdsLease
      ∧ (((aged.later 2).run sharedTurns).transactions.entries 1).clientPeerId = 5
      ∧ (((aged.later 2).run sharedTurns).transactions.entries 1).agentPeerId = 4
      ∧ (((aged.later 2).run sharedTurns).transactions.entries 1).agentChannel = 0)
    ∧ ((((aged.later 2).run sharedTurns).directory 2).role = .client
      ∧ (((aged.later 2).run sharedTurns).directory 2).peerId = 3)
    ∧ ((aged.later 2).run sharedTurns).find 4 = some 3 := by
  decide +kernel

set_option maxRecDepth 100000 in
theorem shared_log : (((aged.later 2).run sharedTurns).routeFrame 2 plainFrame).1.port.log
    = ((aged.later 2).run sharedTurns).port.log
      ++ [.datagram 4 0 (.frame { plainFrame with routeFlags := 4 }) true] := by
  decide +kernel

/-- **Once interface ids have gone around, a lease excludes nobody**: client 5 has the lease, and a frame of client 3
goes to the agent channel. -/
theorem shared_lease_leaks :
    let s := small.run (wrapping (2 ^ 32 - 2) sharedTurns)
    Run.Along step FreshId small (wrapping (2 ^ 32 - 2) sharedTurns)
      ∧ ((s.transactions.entries 1).holdsLease ∧ (s.transactions.entries 1).clientPeerId = 5
        ∧ (s.transactions.entries 1).agentPeerId = 4 ∧ (s.transactions.entries 1).agentChannel = 0)
      ∧ ((s.directory 2).role = .client ∧ (s.directory 2).peerId = 3) ∧ s.find 4 = some 3
      ∧ ¬ Spared 3 4 0 s (s.routeFrame 2 plainFrame).1 := by
  obtain ⟨hrun, hfresh⟩ := wrapping_run (n := 2 ^ 32 - 2) (by decide) sharedTurns
  obtain ⟨hturns, hleased, hwriter, hagent⟩ := shared_facts
  rw [hrun]
  refine ⟨hfresh hturns, hleased, hwriter, hagent, fun hspared => ?_⟩
  obtain ⟨o, ho, hspared⟩ := hspared.log
  rw [shared_log] at ho
  have hout := append_cancel_left ho
  subst hout
  exact hspared _ (mem_singleton_self _) _ _ rfl

end Broker
end CanHub
