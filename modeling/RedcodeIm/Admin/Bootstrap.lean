import RedcodeIm.Groups.Administration

/-!
# The first administrator

`bootstrap_admin` of `auth.rs`: a transaction that counts the administrators, and creates one with
the role `super_admin` if there is none.

* `AdminUser`, `AdminRole`, `AdminUserRole`, `AdminDb` — the tables.
* `AdminWrite` — the writes, and the keys that they lock.
* `bootstrapAdmin` — the statements of the handler.
* `bootstraps` — any number of such requests, under READ COMMITTED.
-/

namespace RedcodeIm

open ReadCommitted (Program Outcome View)

/-! ## The tables -/

inductive AdminUserStatus where
  | active
  | inactive
  | banned
  | locked
  deriving DecidableEq

/-- A row of `admin_users`. -/
structure AdminUser where
  id : Uuid
  username : String
  email : String
  passwordHash : String
  nickname : Option String
  status : AdminUserStatus
  requirePasswordChange : Bool
  passwordChangedAt : Timestamp
  createdAt : Timestamp
  updatedAt : Timestamp
  deletedAt : Option Timestamp
  deriving DecidableEq

/-- A row of `roles`. -/
structure AdminRole where
  id : Uuid
  code : String
  deriving DecidableEq

/-- A row of `admin_user_roles`. -/
structure AdminUserRole where
  adminUserId : Uuid
  roleId : Uuid
  assignedBy : Option Uuid
  assignedAt : Timestamp
  deriving DecidableEq

/-- `admin_user_roles_admin_user_id_role_id_key`. -/
def AdminUserRole.key (r : AdminUserRole) : Uuid × Uuid := (r.adminUserId, r.roleId)

structure AdminDb where
  admins : Table AdminUser.id
  roles : Table AdminRole.id
  adminRoles : Table AdminUserRole.key

inductive AdminWrite where
  | insertAdmin (a : AdminUser)
  | insertAdminRole (r : AdminUserRole)
  deriving DecidableEq

/-- What is locked: the keys of the unique indexes, and the rows that foreign keys refer to. -/
inductive AdminKey where
  | adminId (id : Uuid)
  | username (username : String)
  | email (email : String)
  | role (id : Uuid)
  | adminRole (adminUserId roleId : Uuid)
  deriving DecidableEq

namespace AdminDb

/-- How many administrators are not deleted. -/
def activeAdmins (db : AdminDb) : ℕ := db.admins.rows.countP (·.deletedAt = none)

def apply (db : AdminDb) : AdminWrite → AdminDb
  | .insertAdmin a => { db with admins := db.admins.put a }
  | .insertAdminRole r => { db with adminRoles := db.adminRoles.put r }

/-- A unique index of `admin_users` has the row's key already. -/
def hasAdminLike (db : AdminDb) (a : AdminUser) : Bool :=
  db.admins.rows.any fun b => b.id = a.id || b.username = a.username || b.email = a.email

end AdminDb

/-- The keys that an `INSERT` takes for itself. -/
def AdminWrite.guards : AdminWrite → Locks AdminKey
  | .insertAdmin a =>
    [(.adminId a.id, .update), (.username a.username, .update), (.email a.email, .update)]
  | .insertAdminRole r => [(.adminRole r.adminUserId r.roleId, .update)]

/-! ## The handler -/

/-- A request, with what is drawn for it: the id of the row, the salt of the password's hash, and a
UUID for an address of its own. -/
structure AdminBootstrapInitRequest where
  username : String
  password : String
  displayName : Option String
  adminId : Uuid
  salt : ℕ
  emailId : Uuid
  deriving DecidableEq

namespace AdminBootstrapInitRequest

def trimmedUsername (r : AdminBootstrapInitRequest) : String := Text.trim r.username

def trimmedPassword (r : AdminBootstrapInitRequest) : String := Text.trim r.password

/-- The display name, unless it is blank. -/
def nickname (r : AdminBootstrapInitRequest) : Option String :=
  (r.displayName.map Text.trim).filter (· ≠ "")

/-- What the handler checks before its transaction. -/
def check (r : AdminBootstrapInitRequest) : Except AppError Unit :=
  if r.trimmedUsername = "" ∨ r.trimmedPassword = "" then
    .error (.validationError "用户名和密码不能为空")
  else if r.trimmedUsername.utf8ByteSize < 3 then
    .error (.validationError "用户名长度至少为3个字符")
  else if r.trimmedPassword.utf8ByteSize < 8 then
    .error (.validationError "初始化密码长度至少为8个字符")
  else .ok ()

end AdminBootstrapInitRequest

/-- What the handler takes from elsewhere: bcrypt with a salt, and the text of a UUID without
hyphens. -/
structure BootstrapEnv where
  hashPassword : String → ℕ → Option String
  simpleText : Uuid → String

/-- `build_bootstrap_admin_email`. -/
def buildBootstrapAdminEmail (env : BootstrapEnv) (username : String) (emailId : Uuid) : String :=
  let localPart := String.ofList <| (Text.toAsciiLowercase (Text.trim username)).toList.filter
    fun c => c.isAlphanum || c = '.' || c = '_' || c = '-'
  (if localPart = "" then "admin-" ++ env.simpleText emailId else localPart) ++
    "@bootstrap.redcode-im.local"

/-- The row of the `INSERT`, if its columns take the values. -/
def AdminBootstrapInitRequest.row (env : BootstrapEnv) (r : AdminBootstrapInitRequest)
    (passwordHash : String) (now : Timestamp) : Option AdminUser := do
  let nickname := r.nickname.getD r.trimmedUsername
  let email := buildBootstrapAdminEmail env r.trimmedUsername r.emailId
  guard ([r.trimmedUsername, email, passwordHash, nickname].all fun text => storable (some text))
  return {
    id := r.adminId
    username := ← varchar 50 r.trimmedUsername
    email := ← varchar 100 email
    passwordHash := ← varchar 255 passwordHash
    nickname := some (← varchar 100 nickname)
    status := .active
    requirePasswordChange := false
    passwordChangedAt := now
    createdAt := now
    updatedAt := now
    deletedAt := none }

/-- Where a request stands. -/
inductive BootstrapStage where
  | refused (err : AppError)
  | count
  | username
  | insert
  | role (adminId : Uuid)
  | assign (adminId roleId : Uuid)
  | commit (adminId : Uuid)
  deriving DecidableEq

def AdminBootstrapInitRequest.start (r : AdminBootstrapInitRequest) : BootstrapStage :=
  match r.check with
  | .ok () => .count
  | .error e => .refused e

abbrev BootstrapOutcome : Type := Outcome AdminWrite AdminKey AppError Uuid BootstrapStage

/-- The statements of `bootstrap_admin`, up to its commit. -/
def bootstrapAdmin (env : BootstrapEnv) (r : AdminBootstrapInitRequest)
    (v : View AdminDb AdminKey) : BootstrapStage → BootstrapOutcome
  | .refused err => .fail err
  | .count =>
    if 0 < v.db.activeAdmins then
      .fail (.alreadyExists "管理员已初始化，不能重复创建首个超级管理员")
    else .next .username [] [] 0
  | .username =>
    if v.db.admins.rows.any fun a => a.username = r.trimmedUsername && a.deletedAt = none then
      .fail (.alreadyExists "用户名已存在")
    else .next .insert [] [] 0
  | .insert =>
    match env.hashPassword r.trimmedPassword r.salt with
    | none => .fail (.internalError "密码哈希失败")
    | some passwordHash =>
      match r.row env passwordHash v.now with
      | none => .fail .databaseError
      | some a =>
        if v.db.hasAdminLike a then .fail .databaseError
        else .next (.role a.id) [] [.insertAdmin a] 0
  | .role adminId =>
    match v.db.roles.rows.find? (·.code = "super_admin") with
    | none => .fail (.internalError "系统缺少 super_admin 角色")
    | some role => .next (.assign adminId role.id) [] [] 0
  | .assign adminId roleId =>
    if (v.db.roles.get roleId).isNone || (v.db.adminRoles.get (adminId, roleId)).isSome then
      .fail .databaseError
    else
      .next (.commit adminId) [(.role roleId, .keyShare)]
        [.insertAdminRole ⟨adminId, roleId, none, v.now⟩] 0
  | .commit adminId => .commit adminId

/-- Any number of requests. -/
def bootstraps (env : BootstrapEnv) :
    Program AdminDb AdminWrite AdminKey AdminBootstrapInitRequest AppError Uuid
      fun _ => BootstrapStage where
  start r := r.start
  stmt v r stage := bootstrapAdmin env r v stage
  apply := AdminDb.apply
  guards := AdminWrite.guards
  guards_isWrite w p hp := by
    cases w with
    | insertAdmin a =>
      simp only [AdminWrite.guards, List.mem_cons, List.not_mem_nil, or_false] at hp
      rcases hp with rfl | rfl | rfl <;> rfl
    | insertAdminRole r =>
      simp only [AdminWrite.guards, List.mem_singleton] at hp
      rw [hp]
      rfl

end RedcodeIm
