/-
# The web daemon's accounts

`AuthStore` is the part of `web.db` that decides who may administer: users,
groups, the permissions of groups and the memberships. The statements are
modelled as SQLite executes them on the schema (unique keys, foreign keys,
cascading deletes), the operations as the store composes them, and a
transaction that ends in an error leaves the tables as they were.

The count of enabled users that hold `users.manage` must not fall to zero.
Every operation that can lower it looks at the count again before it commits,
except the removal of a membership (`no_lockout`).
-/
import CanHub.Lib.Run
import Mathlib.Data.Int.Notation
import Mathlib.Data.List.Dedup

namespace CanHub

open List

/-! ### Permissions and errors -/

inductive Permission
  | viewsRead | peersKick | interfacesConfig | pinsManage | aclManage | bridgesManage | usersManage
deriving DecidableEq

namespace Permission

def all : List Permission :=
  [viewsRead, peersKick, interfacesConfig, pinsManage, aclManage, bridgesManage, usersManage]

def asStr : Permission → String
  | viewsRead => "views.read"
  | peersKick => "peers.kick"
  | interfacesConfig => "interfaces.config"
  | pinsManage => "pins.manage"
  | aclManage => "acl.manage"
  | bridgesManage => "bridges.manage"
  | usersManage => "users.manage"

end Permission

inductive StoreError
  | db
  | hash (message : String)
  | conflict (message : String)
deriving DecidableEq

/-! ### The tables -/

structure UserRow where
  id : ℤ
  name : String
  passwordHash : String
  enabled : Bool
deriving DecidableEq

structure GroupRow where
  id : ℤ
  name : String
deriving DecidableEq

structure PermissionRow where
  groupId : ℤ
  permission : String
deriving DecidableEq

structure MembershipRow where
  userId : ℤ
  groupId : ℤ
deriving DecidableEq

structure AuthStore where
  users : List UserRow := []
  groups : List GroupRow := []
  groupPermissions : List PermissionRow := []
  userGroups : List MembershipRow := []
deriving DecidableEq

namespace AuthStore

/-! ### The statements

A row id is whatever free one SQLite picks. An insert that breaks a key or a
foreign key is an error and inserts nothing. -/

section

variable (s : AuthStore)

def insertUserRow (row : UserRow) : Option AuthStore :=
  if s.users.any (fun u => u.id = row.id ∨ u.name = row.name) then none
  else some { s with users := s.users ++ [row] }

def updateEnabled (userId : ℤ) (enabled : Bool) : AuthStore :=
  { s with users := s.users.map fun u => if u.id = userId then { u with enabled } else u }

/-- `DELETE FROM users`, with the memberships that reference the user. -/
def deleteUserRow (userId : ℤ) : AuthStore :=
  { s with
    users := s.users.filter (·.id ≠ userId)
    userGroups := s.userGroups.filter (·.userId ≠ userId) }

def insertGroupRow (row : GroupRow) : Option AuthStore :=
  if s.groups.any (fun g => g.id = row.id ∨ g.name = row.name) then none
  else some { s with groups := s.groups ++ [row] }

/-- `DELETE FROM groups`, with the permissions and memberships that reference the group. -/
def deleteGroupRow (groupId : ℤ) : AuthStore :=
  { s with
    groups := s.groups.filter (·.id ≠ groupId)
    groupPermissions := s.groupPermissions.filter (·.groupId ≠ groupId)
    userGroups := s.userGroups.filter (·.groupId ≠ groupId) }

def deletePermissionRows (groupId : ℤ) : AuthStore :=
  { s with groupPermissions := s.groupPermissions.filter (·.groupId ≠ groupId) }

def insertPermissionRow (row : PermissionRow) : Option AuthStore :=
  if row ∈ s.groupPermissions ∨ ¬s.groups.any (·.id = row.groupId) then none
  else some { s with groupPermissions := s.groupPermissions ++ [row] }

end

/-- The loop that inserts a group's permissions. -/
def insertPermissionRows (groupId : ℤ) : List Permission → AuthStore → Option AuthStore
  | [], s => some s
  | p :: ps, s => (s.insertPermissionRow ⟨groupId, p.asStr⟩).bind (insertPermissionRows groupId ps)

/-- `INSERT OR IGNORE`: a membership that exists is left, a foreign key still has to hold. -/
def insertMembershipRow (s : AuthStore) (row : MembershipRow) : Option AuthStore :=
  if row ∈ s.userGroups then some s
  else if s.users.any (·.id = row.userId) ∧ s.groups.any (·.id = row.groupId) then
    some { s with userGroups := s.userGroups ++ [row] }
  else none

def deleteMembershipRow (s : AuthStore) (row : MembershipRow) : AuthStore :=
  { s with userGroups := s.userGroups.filter (· ≠ row) }

/-- The join of `users_manage_holder_count`, one row for each way a user holds the permission. -/
def usersManageHolders (s : AuthStore) : List ℤ :=
  s.users.flatMap fun u => s.userGroups.flatMap fun m => s.groupPermissions.filterMap fun p =>
    if m.userId = u.id ∧ p.groupId = m.groupId ∧ u.enabled ∧ p.permission = Permission.usersManage.asStr
    then some u.id else none

def usersManageHolderCount (s : AuthStore) : ℕ := s.usersManageHolders.dedup.length

/-! ### The operations -/

/-- A transaction: the body works on the tables, and an error rolls them back. -/
def transaction {α : Type} (body : AuthStore → Except StoreError (AuthStore × α)) (s : AuthStore) :
    AuthStore × Except StoreError α :=
  match body s with
  | .ok (s', a) => (s', .ok a)
  | .error e => (s, .error e)

/-- The Unicode white space `str::trim` removes. -/
def isWhitespace (c : Char) : Bool :=
  let n := c.toNat
  (0x09 ≤ n && n ≤ 0x0D) || n == 0x20 || n == 0x85 || n == 0xA0 || n == 0x1680
    || (0x2000 ≤ n && n ≤ 0x200A) || n == 0x2028 || n == 0x2029 || n == 0x202F || n == 0x205F || n == 0x3000

@[simp] abbrev minPasswordLen : ℕ := 8

variable (hashPassword : String → Except String String)

def insertUser (name password : String) (enabled : Bool) (rowId : ℤ) (s : AuthStore) :
    Except StoreError (AuthStore × ℤ) :=
  if name.toList.all isWhitespace then .error (.conflict "empty user name")
  else if password.utf8ByteSize < minPasswordLen then .error (.conflict "password too short")
  else
    match hashPassword password with
    | .error message => .error (.hash message)
    | .ok passwordHash =>
      match s.insertUserRow { id := rowId, name, passwordHash, enabled } with
      | none => .error (.conflict "user name already exists")
      | some s => .ok (s, rowId)

def createUser (name password : String) (enabled : Bool) (rowId : ℤ) : AuthStore → AuthStore × Except StoreError ℤ :=
  transaction (insertUser hashPassword name password enabled rowId)

def ensureGroupId (name : String) (rowId : ℤ) (s : AuthStore) : Except StoreError (AuthStore × ℤ) :=
  match s.groups.find? (·.name = name) with
  | some g => .ok (s, g.id)
  | none =>
    match s.insertGroupRow { id := rowId, name } with
    | some s => .ok (s, rowId)
    | none => .error .db

def bootstrapAdmin (name password : String) (requireFirst : Bool) (userRowId groupRowId : ℤ) :
    AuthStore → AuthStore × Except StoreError ℤ :=
  transaction fun s => do
    if requireFirst ∧ s.users.length ≠ 0 then throw (.conflict "setup already completed")
    let (s, userId) ← insertUser hashPassword name password true userRowId s
    let (s, groupId) ← ensureGroupId "admins" groupRowId s
    match insertPermissionRows groupId Permission.all (s.deletePermissionRows groupId) with
    | none => throw .db
    | some s =>
      match s.insertMembershipRow { userId, groupId } with
      | none => throw .db
      | some s => return (s, userId)

/-- The check of the holders around a change: it must not take the last one. -/
def guarded (message : String) (change : AuthStore → Except StoreError AuthStore) :
    AuthStore → AuthStore × Except StoreError Unit :=
  transaction fun s => do
    let before := s.usersManageHolderCount
    let s ← change s
    if 0 < before ∧ s.usersManageHolderCount = 0 then throw (.conflict message)
    return (s, ())

def setUserEnabled (actorId userId : ℤ) (enabled : Bool) (s : AuthStore) : AuthStore × Except StoreError Unit :=
  if !enabled ∧ actorId = userId then (s, .error (.conflict "cannot disable your own account"))
  else
    transaction (fun s => do
      let before := s.usersManageHolderCount
      let s := s.updateEnabled userId enabled
      if !enabled ∧ 0 < before ∧ s.usersManageHolderCount = 0 then
        throw (.conflict "would disable the last users.manage account")
      return (s, ())) s

def deleteUser (actorId userId : ℤ) (s : AuthStore) : AuthStore × Except StoreError Unit :=
  if actorId = userId then (s, .error (.conflict "cannot delete your own account"))
  else guarded "would remove the last users.manage account" (fun s => .ok (s.deleteUserRow userId)) s

def createGroup (name : String) (rowId : ℤ) : AuthStore → AuthStore × Except StoreError ℤ :=
  transaction fun s =>
    match s.insertGroupRow { id := rowId, name } with
    | some s => .ok (s, rowId)
    | none => .error (.conflict "group name already exists")

def deleteGroup (groupId : ℤ) : AuthStore → AuthStore × Except StoreError Unit :=
  guarded "would remove the last users.manage account" fun s => .ok (s.deleteGroupRow groupId)

def setGroupPermissions (groupId : ℤ) (permissions : List Permission) : AuthStore → AuthStore × Except StoreError Unit :=
  guarded "would remove the last users.manage account" fun s =>
    match insertPermissionRows groupId permissions (s.deletePermissionRows groupId) with
    | some s => .ok s
    | none => .error .db

def addUserToGroup (userId groupId : ℤ) : AuthStore → AuthStore × Except StoreError Unit :=
  transaction fun s =>
    match s.insertMembershipRow { userId, groupId } with
    | some s => .ok (s, ())
    | none => .error .db

/-- Unlike the others it does not look at the holders. -/
def removeUserFromGroup (userId groupId : ℤ) : AuthStore → AuthStore × Except StoreError Unit :=
  transaction fun s => .ok (s.deleteMembershipRow { userId, groupId }, ())

end AuthStore

/-- The operations of the store that change who may administer. -/
inductive AuthOp
  | createUser (name password : String) (enabled : Bool) (rowId : ℤ)
  | bootstrapAdmin (name password : String) (requireFirst : Bool) (userRowId groupRowId : ℤ)
  | setUserEnabled (actorId userId : ℤ) (enabled : Bool)
  | deleteUser (actorId userId : ℤ)
  | createGroup (name : String) (rowId : ℤ)
  | deleteGroup (groupId : ℤ)
  | setGroupPermissions (groupId : ℤ) (permissions : List Permission)
  | addUserToGroup (userId groupId : ℤ)
  | removeUserFromGroup (userId groupId : ℤ)

namespace AuthStore

/-- What an operation leaves, and its error if it was refused. -/
def outcome {α : Type} (r : AuthStore × Except StoreError α) : AuthStore × Option StoreError :=
  (r.1, match r.2 with | .ok _ => none | .error e => some e)

section Run

variable (hashPassword : String → Except String String)

def apply (s : AuthStore) : AuthOp → AuthStore × Option StoreError
  | .createUser name password enabled rowId => outcome (createUser hashPassword name password enabled rowId s)
  | .bootstrapAdmin name password requireFirst userRowId groupRowId =>
    outcome (bootstrapAdmin hashPassword name password requireFirst userRowId groupRowId s)
  | .setUserEnabled actorId userId enabled => outcome (setUserEnabled actorId userId enabled s)
  | .deleteUser actorId userId => outcome (deleteUser actorId userId s)
  | .createGroup name rowId => outcome (createGroup name rowId s)
  | .deleteGroup groupId => outcome (deleteGroup groupId s)
  | .setGroupPermissions groupId permissions => outcome (setGroupPermissions groupId permissions s)
  | .addUserToGroup userId groupId => outcome (addUserToGroup userId groupId s)
  | .removeUserFromGroup userId groupId => outcome (removeUserFromGroup userId groupId s)

def step (s : AuthStore) (op : AuthOp) : AuthStore := (s.apply hashPassword op).1

end Run

/-! ### A refusal changes nothing -/

theorem outcome_transaction {α : Type} (body : AuthStore → Except StoreError (AuthStore × α)) (s : AuthStore)
    {e : StoreError} (h : (outcome (transaction body s)).2 = some e) : (outcome (transaction body s)).1 = s := by
  unfold outcome transaction at *
  cases hb : body s with
  | ok r =>
    rw [hb] at h
    cases h
  | error e' => rfl

variable {s : AuthStore}

theorem apply_refused (hashPassword : String → Except String String) {op : AuthOp} {e : StoreError}
    (h : (s.apply hashPassword op).2 = some e) : (s.apply hashPassword op).1 = s := by
  cases op with
  | createUser => exact outcome_transaction _ s h
  | bootstrapAdmin => exact outcome_transaction _ s h
  | setUserEnabled actorId userId enabled =>
    simp only [apply, setUserEnabled] at h ⊢
    split
    · rfl
    · next hother =>
      rw [if_neg hother] at h
      exact outcome_transaction _ s h
  | deleteUser actorId userId =>
    simp only [apply, deleteUser] at h ⊢
    split
    · rfl
    · next hother =>
      rw [if_neg hother] at h
      exact outcome_transaction _ s h
  | createGroup => exact outcome_transaction _ s h
  | deleteGroup => exact outcome_transaction _ s h
  | setGroupPermissions => exact outcome_transaction _ s h
  | addUserToGroup => exact outcome_transaction _ s h
  | removeUserFromGroup => exact outcome_transaction _ s h

/-! ### Who holds `users.manage` -/

/-- A membership through which an enabled user holds `users.manage`. -/
def Manages (s : AuthStore) (m : MembershipRow) : Prop :=
  (∃ u ∈ s.users, u.id = m.userId ∧ u.enabled = true) ∧
    ⟨m.groupId, Permission.usersManage.asStr⟩ ∈ s.groupPermissions

instance (s : AuthStore) (m : MembershipRow) : Decidable (s.Manages m) :=
  inferInstanceAs (Decidable (_ ∧ _))

/-- Some enabled user holds `users.manage`. -/
def Staffed (s : AuthStore) : Prop := ∃ m ∈ s.userGroups, s.Manages m

instance (s : AuthStore) : Decidable s.Staffed := inferInstanceAs (Decidable (∃ m ∈ s.userGroups, s.Manages m))

theorem mem_usersManageHolders {id : ℤ} :
    id ∈ s.usersManageHolders ↔ ∃ m ∈ s.userGroups, s.Manages m ∧ m.userId = id := by
  simp only [usersManageHolders, mem_flatMap, mem_filterMap]
  constructor
  · rintro ⟨u, hu, m, hm, ⟨g, p⟩, hp, hrow⟩
    split at hrow
    · next hjoin =>
      obtain ⟨huser, rfl, henabled, rfl⟩ := hjoin
      exact ⟨m, hm, ⟨⟨u, hu, huser.symm, henabled⟩, hp⟩, huser.trans (Option.some.inj hrow)⟩
    · cases hrow
  · rintro ⟨m, hm, ⟨⟨u, hu, huser, henabled⟩, hp⟩, rfl⟩
    refine ⟨u, hu, m, hm, _, hp, ?_⟩
    rw [if_pos ⟨huser.symm, rfl, henabled, rfl⟩, huser]

theorem usersManageHolderCount_pos : 0 < s.usersManageHolderCount ↔ s.Staffed := by
  rw [usersManageHolderCount, length_pos_iff_exists_mem]
  constructor
  · rintro ⟨id, hid⟩
    obtain ⟨m, hm, hmanages, -⟩ := mem_usersManageHolders.mp (mem_dedup.mp hid)
    exact ⟨m, hm, hmanages⟩
  · rintro ⟨m, hm, hmanages⟩
    exact ⟨m.userId, mem_dedup.mpr (mem_usersManageHolders.mpr ⟨m, hm, hmanages, rfl⟩)⟩

/-! ### What each operation does to the holders -/

theorem Staffed.transaction {α : Type} {body : AuthStore → Except StoreError (AuthStore × α)}
    (h : s.Staffed) (hbody : ∀ s' a, body s = .ok (s', a) → s'.Staffed) : (transaction body s).1.Staffed := by
  unfold AuthStore.transaction
  cases hb : body s with
  | ok r => exact hbody r.1 r.2 hb
  | error e => exact h

/-- Tables that only grew. -/
theorem Staffed.mono {s s' : AuthStore} (h : s.Staffed) (husers : ∀ u ∈ s.users, u ∈ s'.users)
    (hpermissions : ∀ p ∈ s.groupPermissions, p ∈ s'.groupPermissions)
    (hmemberships : ∀ m ∈ s.userGroups, m ∈ s'.userGroups) : s'.Staffed := by
  obtain ⟨m, hm, ⟨u, hu, hid, henabled⟩, hp⟩ := h
  exact ⟨m, hmemberships m hm, ⟨u, husers u hu, hid, henabled⟩, hpermissions _ hp⟩

/-- **The guard works**: whatever the change does, what is committed has a holder. -/
theorem Staffed.guarded (h : s.Staffed) (message : String)
    (change : AuthStore → Except StoreError AuthStore) : (guarded message change s).1.Staffed := by
  refine h.transaction fun s' a hbody => ?_
  have hbefore := usersManageHolderCount_pos.mpr h
  cases hc : change s with
  | error e =>
    rw [hc] at hbody
    cases hbody
  | ok t =>
    simp only [hc, bind, Except.bind, hbefore, true_and] at hbody
    split at hbody
    · cases hbody
    · next hcount =>
      obtain rfl : t = s' := by injection hbody with hbody; exact congrArg Prod.fst hbody
      exact usersManageHolderCount_pos.mp (Nat.pos_of_ne_zero hcount)

theorem Staffed.updateEnabled_true (h : s.Staffed) (userId : ℤ) : (s.updateEnabled userId true).Staffed := by
  obtain ⟨m, hm, ⟨u, hu, hid, henabled⟩, hp⟩ := h
  refine ⟨m, hm, ⟨if u.id = userId then { u with enabled := true } else u, mem_map_of_mem hu, ?_⟩, hp⟩
  split
  · exact ⟨hid, rfl⟩
  · exact ⟨hid, henabled⟩

theorem Staffed.setUserEnabled (h : s.Staffed) (actorId userId : ℤ) (enabled : Bool) :
    (setUserEnabled actorId userId enabled s).1.Staffed := by
  unfold AuthStore.setUserEnabled
  split
  · exact h
  refine h.transaction fun s' a hbody => ?_
  have hbefore := usersManageHolderCount_pos.mpr h
  simp only [bind, Except.bind, hbefore, true_and] at hbody
  split at hbody
  · cases hbody
  · next hkept =>
    obtain rfl : s.updateEnabled userId enabled = s' := by injection hbody with hbody; exact congrArg Prod.fst hbody
    cases enabled with
    | true => exact h.updateEnabled_true userId
    | false => exact usersManageHolderCount_pos.mp (Nat.pos_of_ne_zero fun h0 => hkept ⟨rfl, h0⟩)

theorem insertUser_ok {hashPassword : String → Except String String} {name password : String} {enabled : Bool}
    {rowId : ℤ} {s s' : AuthStore} {id : ℤ}
    (h : insertUser hashPassword name password enabled rowId s = .ok (s', id)) :
    ∃ row, s' = { s with users := s.users ++ [row] } := by
  unfold insertUser at h
  split at h
  · cases h
  split at h
  · cases h
  split at h
  · cases h
  split at h
  · cases h
  · next hrow =>
    unfold insertUserRow at hrow
    split at hrow
    · cases hrow
    · obtain rfl := Option.some.inj hrow
      injection h with h
      exact ⟨_, (congrArg Prod.fst h).symm⟩

theorem insertGroupRow_some {s s' : AuthStore} {row : GroupRow} (h : s.insertGroupRow row = some s') :
    s' = { s with groups := s.groups ++ [row] } := by
  unfold insertGroupRow at h
  split at h
  · cases h
  · exact (Option.some.inj h).symm

theorem insertMembershipRow_some {s s' : AuthStore} {row : MembershipRow} (h : s.insertMembershipRow row = some s') :
    s'.users = s.users ∧ s'.groupPermissions = s.groupPermissions ∧ ∀ m ∈ s.userGroups, m ∈ s'.userGroups := by
  unfold insertMembershipRow at h
  split at h
  · obtain rfl := Option.some.inj h
    exact ⟨rfl, rfl, fun m hm => hm⟩
  split at h
  · obtain rfl := Option.some.inj h
    exact ⟨rfl, rfl, fun m hm => mem_append_left _ hm⟩
  · cases h

/-- The loop inserts every permission of its list and changes nothing else. -/
theorem insertPermissionRows_some {groupId : ℤ} {ps : List Permission} {s s' : AuthStore}
    (h : insertPermissionRows groupId ps s = some s') :
    s' = { s with groupPermissions := s.groupPermissions ++ ps.map fun p => ⟨groupId, p.asStr⟩ } := by
  induction ps generalizing s with
  | nil =>
    obtain rfl := Option.some.inj h
    simp
  | cons p ps ih =>
    obtain ⟨t, hrow, hrest⟩ := Option.bind_eq_some_iff.mp h
    unfold insertPermissionRow at hrow
    split at hrow
    · cases hrow
    · obtain rfl := Option.some.inj hrow
      rw [ih hrest]
      simp

theorem ensureGroupId_ok {name : String} {rowId id : ℤ} {s s' : AuthStore}
    (h : ensureGroupId name rowId s = .ok (s', id)) :
    s'.users = s.users ∧ s'.groupPermissions = s.groupPermissions ∧ s'.userGroups = s.userGroups := by
  unfold ensureGroupId at h
  split at h
  · injection h with h
    obtain rfl := congrArg Prod.fst h
    exact ⟨rfl, rfl, rfl⟩
  split at h
  · next hrow =>
    injection h with h
    obtain rfl := congrArg Prod.fst h
    rw [insertGroupRow_some hrow]
    exact ⟨rfl, rfl, rfl⟩
  · cases h

/-- Replacing a group's permissions by all of them takes `users.manage` from nobody. -/
theorem mem_replaced {groupId : ℤ} {s s' : AuthStore}
    (h : insertPermissionRows groupId Permission.all (s.deletePermissionRows groupId) = some s') {g : ℤ}
    (hp : ⟨g, Permission.usersManage.asStr⟩ ∈ s.groupPermissions) :
    ⟨g, Permission.usersManage.asStr⟩ ∈ s'.groupPermissions := by
  rw [insertPermissionRows_some h]
  by_cases hg : g = groupId
  · subst hg
    exact mem_append_right _ (mem_map.mpr ⟨.usersManage, by decide, rfl⟩)
  · refine mem_append_left _ (mem_filter.mpr ⟨hp, ?_⟩)
    simpa using hg

theorem Staffed.bootstrapAdmin (h : s.Staffed) (hashPassword : String → Except String String)
    (name password : String) (requireFirst : Bool) (userRowId groupRowId : ℤ) :
    (bootstrapAdmin hashPassword name password requireFirst userRowId groupRowId s).1.Staffed := by
  refine h.transaction fun s' a hbody => ?_
  simp only [bind, Except.bind] at hbody
  split at hbody
  · cases hbody
  split at hbody
  · cases hbody
  next r₁ huser =>
  split at hbody
  · cases hbody
  next r₂ hgroup =>
  split at hbody
  · cases hbody
  next r₃ hperms =>
  split at hbody
  · cases hbody
  next r₄ hmember =>
  injection hbody with hbody
  obtain rfl : r₄ = s' := congrArg Prod.fst hbody
  obtain ⟨row, hs₁⟩ := insertUser_ok huser
  obtain ⟨hu₂, hp₂, hm₂⟩ := ensureGroupId_ok hgroup
  have hs₃ := insertPermissionRows_some hperms
  obtain ⟨hu₄, hp₄, hm₄⟩ := insertMembershipRow_some hmember
  obtain ⟨m, hm, ⟨u, hu, hid, henabled⟩, hp⟩ := h
  refine ⟨m, hm₄ m ?_, ⟨u, ?_, hid, henabled⟩, ?_⟩
  · rw [hs₃]
    change m ∈ r₂.1.userGroups
    rw [hm₂, hs₁]
    exact hm
  · rw [hu₄, hs₃]
    change u ∈ r₂.1.users
    rw [hu₂, hs₁]
    exact mem_append_left _ hu
  · rw [hp₄]
    refine mem_replaced hperms ?_
    rw [hp₂, hs₁]
    exact hp

/-- **The removal of a membership** leaves a holder just if another membership makes one. -/
theorem removeUserFromGroup_staffed {userId groupId : ℤ} :
    (removeUserFromGroup userId groupId s).1.Staffed ↔ ∃ m ∈ s.userGroups, m ≠ ⟨userId, groupId⟩ ∧ s.Manages m := by
  constructor
  · rintro ⟨m, hm, hmanages⟩
    obtain ⟨hold, hother⟩ := mem_filter.mp hm
    exact ⟨m, hold, by simpa using hother, hmanages⟩
  · rintro ⟨m, hm, hother, hmanages⟩
    exact ⟨m, mem_filter.mpr ⟨hm, by simpa using hother⟩, hmanages⟩

/-- The operation takes no membership that is the only one to give an enabled user `users.manage`. -/
def Spares (s : AuthStore) : AuthOp → Prop
  | .removeUserFromGroup userId groupId => ∃ m ∈ s.userGroups, m ≠ ⟨userId, groupId⟩ ∧ s.Manages m
  | _ => True

instance (s : AuthStore) : (op : AuthOp) → Decidable (s.Spares op)
  | .removeUserFromGroup userId groupId =>
    inferInstanceAs (Decidable (∃ m ∈ s.userGroups, m ≠ ⟨userId, groupId⟩ ∧ s.Manages m))
  | .createUser .. | .bootstrapAdmin .. | .setUserEnabled .. | .deleteUser .. | .createGroup .. | .deleteGroup ..
  | .setGroupPermissions .. | .addUserToGroup .. => .isTrue trivial

theorem Staffed.step_iff (h : s.Staffed) (hashPassword : String → Except String String) (op : AuthOp) :
    (s.step hashPassword op).Staffed ↔ s.Spares op := by
  cases op with
  | createUser name password enabled rowId =>
    refine iff_of_true (h.transaction fun s' a hbody => ?_) trivial
    obtain ⟨row, rfl⟩ := insertUser_ok hbody
    exact h.mono (fun u hu => mem_append_left _ hu) (fun p hp => hp) fun m hm => hm
  | bootstrapAdmin => exact iff_of_true (h.bootstrapAdmin _ _ _ _ _ _) trivial
  | setUserEnabled => exact iff_of_true (h.setUserEnabled _ _ _) trivial
  | deleteUser actorId userId =>
    refine iff_of_true ?_ trivial
    change (AuthStore.deleteUser actorId userId s).1.Staffed
    unfold AuthStore.deleteUser
    split
    · exact h
    · exact h.guarded _ _
  | createGroup name rowId =>
    refine iff_of_true (h.transaction fun s' a hbody => ?_) trivial
    split at hbody
    · next hrow =>
      injection hbody with hbody
      obtain rfl := congrArg Prod.fst hbody
      rw [insertGroupRow_some hrow]
      exact h
    · cases hbody
  | deleteGroup => exact iff_of_true (h.guarded _ _) trivial
  | setGroupPermissions => exact iff_of_true (h.guarded _ _) trivial
  | addUserToGroup userId groupId =>
    refine iff_of_true (h.transaction fun s' a hbody => ?_) trivial
    split at hbody
    · next hrow =>
      injection hbody with hbody
      obtain rfl := congrArg Prod.fst hbody
      obtain ⟨hu, hp, hm⟩ := insertMembershipRow_some hrow
      exact h.mono (fun u hu' => hu ▸ hu') (fun p hp' => hp ▸ hp') hm
    · cases hbody
  | removeUserFromGroup => exact removeUserFromGroup_staffed

/-- **No administrative lockout, but for the removal of a membership.** Once an enabled user holds `users.manage`,
one does after every operation of a run in which no removed membership is the only one that makes a holder; an
operation keeps a holder just if it meets that condition; and an operation that is refused changes nothing. -/
theorem no_lockout (hashPassword : String → Except String String) (s : AuthStore) (h : s.Staffed) :
    (∀ ops, Run.Along (step hashPassword) Spares s ops →
      ∀ done rest, ops = done ++ rest → (Run.run (step hashPassword) s done).Staffed) ∧
    (∀ op, (s.step hashPassword op).Staffed ↔ s.Spares op) ∧
    ∀ op e, (s.apply hashPassword op).2 = some e → (s.apply hashPassword op).1 = s := by
  refine ⟨?_, fun op => h.step_iff hashPassword op, fun op e he => apply_refused hashPassword he⟩
  rintro ops halong done rest rfl
  refine Run.Along.invariant (I := Staffed) (fun s op hs hspares => ?_) (Run.Along.append.mp halong).1 h
  exact (hs.step_iff hashPassword op).mpr hspares

/-- A store with two administrators, of which one gives the membership up. -/
theorem no_lockout_two_admins :
    (Run.run (step .ok) {}
      [.bootstrapAdmin "admin" "s3cret99" true 1 1, .bootstrapAdmin "second" "s3cret99" false 2 2,
        .removeUserFromGroup 1 1]).Staffed :=
  (no_lockout .ok (Run.run (step .ok) {}
    [.bootstrapAdmin "admin" "s3cret99" true 1 1, .bootstrapAdmin "second" "s3cret99" false 2 2])
    (by decide +kernel)).1 [.removeUserFromGroup 1 1] (by decide +kernel) [.removeUserFromGroup 1 1] [] rfl

/-- The only administrator leaves the only group that holds the permission, and nobody is left. -/
theorem no_lockout_fails :
    (step .ok {} (.bootstrapAdmin "admin" "s3cret99" true 1 1)).Staffed ∧
      ((step .ok {} (.bootstrapAdmin "admin" "s3cret99" true 1 1)).apply .ok (.removeUserFromGroup 1 1)).2 = none ∧
      ¬((step .ok {} (.bootstrapAdmin "admin" "s3cret99" true 1 1)).apply .ok
        (.removeUserFromGroup 1 1)).1.Staffed := by
  decide +kernel

end AuthStore
end CanHub
