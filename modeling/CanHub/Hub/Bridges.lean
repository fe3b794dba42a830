/-
# Bridge routes and groups

A route injects what is captured on one interface into another; the members of
a group behave as one bus. Endpoints are named, not numbered, so routes and
groups outlive the agents that serve them. `BridgeTargets_Collect` says where a
captured frame goes: each target keeps which route or group is charged for it,
where the C struct keeps pointers to that slot's counters.
-/
import CanHub.Lib.Table
import CanHub.Protocol.Control

namespace CanHub

@[simp] abbrev bridgeRoutesMax : ℕ := 64
@[simp] abbrev bridgeGroupsMax : ℕ := 16
@[simp] abbrev bridgeGroupMembersMax : ℕ := 16
@[simp] abbrev bridgeFiltersMax : ℕ := 16
@[simp] abbrev bridgeMemberFiltersMax : ℕ := 8
@[simp] abbrev bridgeGroupNameSize : ℕ := 16
@[simp] abbrev bridgeTargetsMax : ℕ := bridgeRoutesMax + bridgeGroupsMax * bridgeGroupMembersMax

/-- `BRIDGE_GROUP_AGENT_NAME`: "group". -/
def bridgeGroupAgentName : Text := [0x67, 0x72, 0x6F, 0x75, 0x70]

structure BridgeEndpoint where
  agentName : Text := []
  interfaceName : Text := []
deriving DecidableEq

def BridgeEndpoint.isNamed (e : BridgeEndpoint) : Bool := e.agentName ≠ [] ∧ e.interfaceName ≠ []

/-- `BridgeFilters_Pass`. -/
def bridgeFiltersPass (filters : List CanFilter) (canId : UInt32) : Bool :=
  if canId &&& frameCanIdFlagErr ≠ 0 then false
  else filters = [] || filters.any (·.passes canId)

/-! ### Routes -/

structure BridgeRoute where
  source : BridgeEndpoint := {}
  destination : BridgeEndpoint := {}
  filters : List CanFilter := []
deriving DecidableEq

def BridgeRoute.isValid (r : BridgeRoute) : Bool :=
  r.source.isNamed ∧ r.destination.isNamed ∧ r.source ≠ r.destination ∧ r.filters.length ≤ bridgeFiltersMax

def BridgeRoute.passes (r : BridgeRoute) (canId : UInt32) : Bool := bridgeFiltersPass r.filters canId

structure BridgeRouteSlot where
  inUse : Bool := false
  route : BridgeRoute := {}
  forwarded : ℕ := 0
  dropped : ℕ := 0
deriving DecidableEq

structure BridgeRoutes where
  slots : Table bridgeRoutesMax BridgeRouteSlot := fun _ => {}
  count : ℕ := 0

namespace BridgeRoutes

section

variable (b : BridgeRoutes)

def findIndex (source destination : BridgeEndpoint) : Option (Fin bridgeRoutesMax) :=
  b.slots.find? fun s => s.inUse && s.route.source == source && s.route.destination == destination

def freeIndex : Option (Fin bridgeRoutesMax) := b.slots.find? fun s => !s.inUse

def isEmpty : Bool := b.count = 0

def hasRoom (r : BridgeRoute) : Bool :=
  (b.findIndex r.source r.destination).isSome || b.freeIndex.isSome

/-- A change of one slot. -/
def modify (i : Fin bridgeRoutesMax) (f : BridgeRouteSlot → BridgeRouteSlot) : BridgeRoutes :=
  { b with slots := Function.update b.slots i (f (b.slots i)) }

def set (r : BridgeRoute) : BridgeRoutes :=
  if !r.isValid then b
  else
    match b.findIndex r.source r.destination with
    | some i => b.modify i fun s => { s with route := r }
    | none =>
      match b.freeIndex with
      | some i => { b.modify i fun _ => { inUse := true, route := r } with count := b.count + 1 }
      | none => b

def remove (source destination : BridgeEndpoint) : BridgeRoutes :=
  match b.findIndex source destination with
  | some i => { b.modify i fun _ => {} with count := b.count - 1 }
  | none => b

end

end BridgeRoutes

/-! ### Groups -/

inductive BridgeMemberDirection | both | sends | receives
deriving DecidableEq

structure BridgeGroupMember where
  endpoint : BridgeEndpoint := {}
  direction : BridgeMemberDirection := .both
  filters : List CanFilter := []
deriving DecidableEq

def BridgeGroupMember.isValid (m : BridgeGroupMember) : Bool :=
  m.endpoint.isNamed ∧ m.filters.length ≤ bridgeMemberFiltersMax

def BridgeGroupMember.receives (m : BridgeGroupMember) : Bool := m.direction ≠ .sends

structure BridgeGroup where
  name : Text := []
  filters : List CanFilter := []
  members : List BridgeGroupMember := []
deriving DecidableEq

def isNameCharacter (c : UInt8) : Bool :=
  (0x61 ≤ c ∧ c ≤ 0x7A) ∨ (0x41 ≤ c ∧ c ≤ 0x5A) ∨ (0x30 ≤ c ∧ c ≤ 0x39) ∨ c = 0x2E ∨ c = 0x5F ∨ c = 0x2D

namespace BridgeGroup

def isNameValid (name : Text) : Bool :=
  name ≠ [] && name.length < bridgeGroupNameSize && name.all isNameCharacter

def memberIndex (g : BridgeGroup) (endpoint : BridgeEndpoint) : Option ℕ :=
  g.members.findIdx? fun m => m.endpoint == endpoint

def hasMember (g : BridgeGroup) (endpoint : BridgeEndpoint) : Bool := (g.memberIndex endpoint).isSome

def carries (g : BridgeGroup) (source : BridgeEndpoint) (canId : UInt32) : Bool :=
  match g.members.find? fun m => m.endpoint == source with
  | none => false
  | some m => m.direction ≠ .receives ∧ bridgeFiltersPass m.filters canId ∧ bridgeFiltersPass g.filters canId

/-- The members after a member has joined, or joined again with other settings. -/
def join (g : BridgeGroup) (m : BridgeGroupMember) : BridgeGroup :=
  match g.memberIndex m.endpoint with
  | some i => { g with members := g.members.set i m }
  | none => if g.members.length = bridgeGroupMembersMax then g else { g with members := g.members ++ [m] }

/-- The members after one has left: the last one takes its place. -/
def leave (g : BridgeGroup) (endpoint : BridgeEndpoint) : BridgeGroup :=
  match g.memberIndex endpoint with
  | none => g
  | some i => { g with members := (g.members.set i (g.members.getLastD {})).dropLast }

end BridgeGroup

structure BridgeGroupSlot where
  inUse : Bool := false
  group : BridgeGroup := {}
  forwarded : ℕ := 0
  dropped : ℕ := 0
deriving DecidableEq

abbrev GroupSlot := Fin bridgeGroupsMax

structure BridgeGroups where
  slots : Table bridgeGroupsMax BridgeGroupSlot := fun _ => {}
  count : ℕ := 0

namespace BridgeGroups

/-- `BridgeGroups_Find`. -/
def find (b : BridgeGroups) (name : Text) : Option GroupSlot :=
  b.slots.find? fun s => s.inUse && s.group.name == name

section

variable (b : BridgeGroups)

def freeIndex : Option GroupSlot := b.slots.find? fun s => !s.inUse

def isEmpty : Bool := b.count = 0

def hasRoom (name : Text) : Bool := (b.find name).isSome || b.freeIndex.isSome

/-- A change of one slot. -/
def modify (i : GroupSlot) (f : BridgeGroupSlot → BridgeGroupSlot) : BridgeGroups :=
  { b with slots := Function.update b.slots i (f (b.slots i)) }

/-- `BridgeGroups_Set`: `none` when the group is refused. -/
def set (name : Text) (filters : List CanFilter) : Option BridgeGroups :=
  if !BridgeGroup.isNameValid name ∨ bridgeFiltersMax < filters.length then none
  else
    match b.find name with
    | some i => some (b.modify i fun s => { s with group := { s.group with filters } })
    | none =>
      b.freeIndex.map fun i =>
        { b.modify i fun _ => { inUse := true, group := { name, filters } } with count := b.count + 1 }

def remove (name : Text) : BridgeGroups :=
  match b.find name with
  | some i => { b.modify i fun _ => {} with count := b.count - 1 }
  | none => b

def join (b : BridgeGroups) (name : Text) (m : BridgeGroupMember) : BridgeGroups :=
  match b.find name with
  | some i => if m.isValid then b.modify i fun s => { s with group := s.group.join m } else b
  | none => b

def leave (b : BridgeGroups) (name : Text) (endpoint : BridgeEndpoint) : BridgeGroups :=
  match b.find name with
  | some i => b.modify i fun s => { s with group := s.group.leave endpoint }
  | none => b

/-- `BridgeGroups_Restore` of a stored group. -/
def restore (g : BridgeGroup) : Option BridgeGroups :=
  (b.set g.name g.filters).map fun b =>
    (g.members.take bridgeGroupMembersMax).foldl (fun b m => b.join g.name m) b

end

end BridgeGroups

/-! ### Targets -/

/-- The slot whose counters a target charges. -/
inductive BridgeCharge
  | route (i : Fin bridgeRoutesMax)
  | group (i : GroupSlot)
deriving DecidableEq

structure BridgeTarget where
  destination : BridgeEndpoint
  charge : BridgeCharge
deriving DecidableEq

namespace BridgeTarget

def addTarget (source : BridgeEndpoint) (targets : List BridgeTarget) (t : BridgeTarget) : List BridgeTarget :=
  if t.destination = source ∨ targets.length = bridgeTargetsMax then targets
  else if targets.any fun u => u.destination == t.destination then targets
  else targets ++ [t]

def collectRoutes (routes : BridgeRoutes) (source : BridgeEndpoint) (canId : UInt32) : List BridgeTarget :=
  (List.finRange bridgeRoutesMax).filterMap fun i =>
    let slot := routes.slots i
    if slot.inUse ∧ slot.route.source = source ∧ slot.route.passes canId then
      some ⟨slot.route.destination, .route i⟩
    else none

def collectGroups (groups : BridgeGroups) (source : BridgeEndpoint) (canId : UInt32) : List BridgeTarget :=
  (List.finRange bridgeGroupsMax).flatMap fun i =>
    let slot := groups.slots i
    if slot.inUse ∧ slot.group.carries source canId then
      (slot.group.members.filter (·.receives)).map fun m => ⟨m.endpoint, .group i⟩
    else []

/-- `BridgeTargets_Collect`. -/
def collect (routes : BridgeRoutes) (groups : BridgeGroups) (source : BridgeEndpoint) (canId : UInt32) :
    List BridgeTarget :=
  (collectRoutes routes source canId ++ collectGroups groups source canId).foldl (addTarget source) []

end BridgeTarget
end CanHub
