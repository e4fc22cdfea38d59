import OpsMonitor.Library.Loops
import OpsMonitor.Library.Schema
import OpsMonitor.Library.Text
import OpsMonitor.Clock
import OpsMonitor.Exceptions

/-! The users and their roles (`services/user_service.py`). Every request runs in one
transaction, and what it has not committed is rolled back. -/

namespace OpsMonitor.Management
open Library

structure SysUser where
  id : ℕ
  username : String
  passwordHash : String
  nickname : Option String
  email : Option String
  phone : Option String
  status : ℕ
  deletedAt : Option Time
  deriving DecidableEq

structure SysRole where
  id : ℕ
  roleCode : String
  roleName : String
  description : Option String
  status : ℕ
  deriving DecidableEq

structure SysUserRole where
  userId : ℕ
  roleId : ℕ
  deriving DecidableEq

instance : Keyed SysUser := ⟨SysUser.id, fun n u => { u with id := n }, fun _ _ => rfl⟩

instance : Keyed SysRole := ⟨SysRole.id, fun n r => { r with id := n }, fun _ _ => rfl⟩

structure Accounts where
  users : Table SysUser
  roles : Table SysRole
  userRoles : List SysUserRole

/-! ## The constraints -/

def SysUser.overflow (user : SysUser) : Option Failure :=
  if 64 < user.username.length then some (.dataError "username")
  else if 255 < user.passwordHash.length then some (.dataError "password_hash")
  else if ∃ s ∈ user.nickname, 64 < s.length then some (.dataError "nickname")
  else if ∃ s ∈ user.email, 128 < s.length then some (.dataError "email")
  else if ∃ s ∈ user.phone, 32 < s.length then some (.dataError "phone")
  else none

def ukSysUserUsername : UniqueKey SysUser Failure where
  error := .integrity "uk_sys_user_username"
  collide a b := a.username = b.username
  symm _ _ := decide_eq_decide.mpr eq_comm

/-- A `NULL` collides with nothing, the empty text with the empty text. -/
def ukSysUserEmail : UniqueKey SysUser Failure where
  error := .integrity "uk_sys_user_email"
  collide a b := a.email.isSome ∧ a.email = b.email
  symm a b := decide_eq_decide.mpr ⟨fun h => ⟨h.2 ▸ h.1, h.2.symm⟩, fun h => ⟨h.2 ▸ h.1, h.2.symm⟩⟩

def userSchema : Schema SysUser Failure where
  column := SysUser.overflow
  unique := [ukSysUserUsername, ukSysUserEmail]

/-- What the database enforces of the three tables. -/
structure Accounts.Consistent (db : Accounts) : Prop where
  users : userSchema.Consistent db.users
  userRoles_nodup : db.userRoles.Nodup
  fkUser : ∀ link ∈ db.userRoles, ∃ user ∈ db.users, user.id = link.userId
  fkRole : ∀ link ∈ db.userRoles, ∃ role ∈ db.roles, role.id = link.roleId

/-! ## Requests -/

structure UserCreate where
  username : String
  password : String
  nickname : Option String
  email : Option String
  phone : Option String
  roleIds : List ℤ
  username_length : 3 ≤ username.length ∧ username.length ≤ 64
  username_pattern : username.toList.all fun c => c.isAlphanum || c = '_'
  password_length : 6 ≤ password.length ∧ password.length ≤ 128
  nickname_length : ∀ s ∈ nickname, s.length ≤ 64
  email_length : ∀ s ∈ email, s.length ≤ 128
  phone_length : ∀ s ∈ phone, s.length ≤ 32

/-- A field that the request does not name is `none`, one that it names as `null` is `some none`. -/
structure UserUpdate where
  password : Option (Option String)
  nickname : Option (Option String)
  email : Option (Option String)
  phone : Option (Option String)
  status : Option (Option ℕ)
  roleIds : Option (Option (List ℤ))
  password_length : ∀ s ∈ password.join, 6 ≤ s.length ∧ s.length ≤ 128
  nickname_length : ∀ s ∈ nickname.join, s.length ≤ 64
  email_length : ∀ s ∈ email.join, s.length ≤ 128
  phone_length : ∀ s ∈ phone.join, s.length ≤ 32
  status_range : ∀ n ∈ status.join, n ≤ 1

/-- The library behind `hash_password`, with the hash it computes of a password that it takes. -/
structure PasswordHasher where
  hash : String → Option String
  hash_length : ∀ password, ∀ s ∈ hash password, s.length ≤ 255

def hashPassword (hasher : PasswordHasher) (password : String) : Except Failure String :=
  match hasher.hash password with
  | none => .error (.uncaught "ValueError")
  | some s => .ok s

/-! ## Reading -/

def getByUsername (users : Table SysUser) (username : String) : Option SysUser :=
  (users.select fun u => u.username = username ∧ u.deletedAt = none).head?

def getByEmail (users : Table SysUser) (email : Option String) : Option SysUser :=
  (users.select fun u => u.email = email ∧ u.deletedAt = none).head?

def getUser (users : Table SysUser) (userId : ℕ) : Except Failure SysUser :=
  match users.get? userId with
  | some user => if user.deletedAt = none then .ok user
    else .error (.app ⟨.userNotFound, "用户不存在", 404⟩)
  | none => .error (.app ⟨.userNotFound, "用户不存在", 404⟩)

/-- `RoleRepository.get`. -/
def getRole (roles : Table SysRole) (roleId : ℤ) : Option SysRole :=
  (roles.select fun r => (r.id : ℤ) = roleId).head?

/-- `_validate_roles`: every role exists. -/
def validateRoles (roles : Table SysRole) (roleIds : List ℤ) : Except Failure Unit :=
  match roleIds.find? fun id => (getRole roles id).isNone with
  | some id => .error (.app ⟨.roleNotFound, s!"角色不存在: {id}", 404⟩)
  | none => .ok ()

/-! ## Writing -/

/-- `INSERT` into `sys_user_role`. -/
def addUserRole (db : Accounts) (userId : ℕ) (roleId : ℤ) : Except Failure Accounts :=
  if roleId < 0 then .error (.dataError "role_id")
  else if ⟨userId, roleId.toNat⟩ ∈ db.userRoles then .error (.integrity "PRIMARY")
  else if ¬∃ user ∈ db.users, user.id = userId then .error (.integrity "fk_sys_user_role_user")
  else if ¬∃ role ∈ db.roles, role.id = roleId.toNat then .error (.integrity "fk_sys_user_role_role")
  else .ok { db with userRoles := db.userRoles ++ [⟨userId, roleId.toNat⟩] }

/-- `UserRepository.set_roles`: the links of the user are deleted, then the new ones inserted. -/
def setRoles (db : Accounts) (userId : ℕ) (roleIds : List ℤ) : Except Failure Accounts :=
  roleIds.dedup.foldlM (fun db roleId => addUserRole db userId roleId)
    { db with userRoles := db.userRoles.filter fun link => link.userId ≠ userId }

def newUser (data : UserCreate) (passwordHash : String) : SysUser where
  id := 0
  username := data.username
  passwordHash := passwordHash
  nickname := data.nickname
  email := data.email
  phone := data.phone
  status := 1
  deletedAt := none

/-- What `create_user` writes after its checks. -/
def insertUser (hasher : PasswordHasher) (db : Accounts) (data : UserCreate) :
    Except Failure Accounts := do
  let passwordHash ← hashPassword hasher data.password
  let users ← userSchema.insert db.users (newUser data passwordHash)
  if data.roleIds = [] then pure { db with users := users }
  else setRoles { db with users := users } db.users.next data.roleIds

def createUser (hasher : PasswordHasher) (db : Accounts) (data : UserCreate) :
    Except Failure Accounts :=
  if (getByUsername db.users data.username).isSome then
    .error (.app ⟨.usernameExists, "用户名已存在", 409⟩)
  else if truthy data.email && (getByEmail db.users data.email).isSome then
    .error (.app ⟨.emailExists, "邮箱已被使用", 409⟩)
  else do
    validateRoles db.roles data.roleIds
    insertUser hasher db data

/-- The new password replaces the old one. -/
def newHash (hasher : PasswordHasher) (user : SysUser) (password : Option String) :
    Except Failure String :=
  match password with
  | some password => if password = "" then .ok user.passwordHash else hashPassword hasher password
  | none => .ok user.passwordHash

/-- The new email is another one, and another user that is not deleted has it. -/
def emailTaken (users : Table SysUser) (user : SysUser) (email : Option String) : Bool :=
  truthy email && email ≠ user.email && ((getByEmail users email).any fun u => u.id ≠ user.id)

/-- The columns that a request names take its values. -/
def SysUser.updated (user : SysUser) (data : UserUpdate) (passwordHash : String) (status : ℕ) :
    SysUser :=
  { user with
    passwordHash := passwordHash
    nickname := data.nickname.getD user.nickname
    email := data.email.getD user.email
    phone := data.phone.getD user.phone
    status := status }

theorem SysUser.key_updated (user : SysUser) (data : UserUpdate) (passwordHash : String)
    (status : ℕ) : Keyed.key (user.updated data passwordHash status) = Keyed.key user := rfl

/-- The column `status` takes no `NULL`. -/
def newStatus (user : SysUser) : Option (Option ℕ) → Except Failure ℕ
  | none => .ok user.status
  | some none => .error (.integrity "status")
  | some (some status) => .ok status

/-- What `update_user` writes after its checks. -/
def writeUser (db : Accounts) (user : SysUser) (data : UserUpdate) (passwordHash : String) :
    Except Failure Accounts := do
  let status ← newStatus user data.status
  let users ← userSchema.modify db.users user.id (·.updated data passwordHash status)
    fun u => u.key_updated data passwordHash status
  match data.roleIds.join with
  | none => pure { db with users := users }
  | some roleIds => setRoles { db with users := users } user.id roleIds

def updateUser (hasher : PasswordHasher) (db : Accounts) (userId : ℕ) (data : UserUpdate) :
    Except Failure Accounts := do
  let user ← getUser db.users userId
  let passwordHash ← newHash hasher user data.password.join
  if emailTaken db.users user data.email.join then
    .error (.app ⟨.emailExists, "邮箱已被使用", 409⟩)
  else
    validateRoles db.roles (data.roleIds.join.getD [])
    writeUser db user data passwordHash

def deleteUser (db : Accounts) (now : Time) (userId : ℕ) : Except Failure Accounts := do
  let user ← getUser db.users userId
  pure { db with users := db.users.modify user.id fun u => { u with deletedAt := some now } }

end OpsMonitor.Management
