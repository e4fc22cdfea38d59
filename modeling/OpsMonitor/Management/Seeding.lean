import OpsMonitor.Library.Defaults
import OpsMonitor.Library.Snapshot
import OpsMonitor.Management.Requests

/-! The seed data of a start (`core/seed.py`): roles, permissions, alert rules and the administrator, all in
one transaction. Its queries see the snapshot that the transaction reads, its writes the rows that were
committed meanwhile. -/

namespace OpsMonitor.Management
open Library OpsMonitor.Alert

structure SysPermission where
  id : ℕ
  permissionCode : String
  permissionName : String
  permissionType : String
  path : Option String
  method : Option String
  status : ℕ
  deriving DecidableEq

instance : Keyed SysPermission := ⟨SysPermission.id, fun n p => { p with id := n }, fun _ _ => rfl⟩

/-- The tables of the management interface with the permissions. -/
structure System where
  db : Db
  permissions : Table SysPermission

/-- `SEED_ADMIN_USERNAME` and `SEED_ADMIN_PASSWORD`. -/
structure SeedSettings where
  username : String
  password : String

/-! ## The defaults -/

def defaultRoles : List SysRole :=
  [⟨0, "SYSTEM_ADMIN", "系统管理员", some "拥有系统全部管理权限", 1⟩,
    ⟨0, "OPS_ENGINEER", "运维人员", some "负责服务器监控、告警和任务操作", 1⟩,
    ⟨0, "NORMAL_USER", "普通用户", some "查看授权服务器和监控数据", 1⟩]

def defaultPermissions : List SysPermission :=
  [⟨0, "user:manage", "用户管理", "MENU", some "/system/users", none, 1⟩,
    ⟨0, "user:list", "用户列表", "API", some "/api/v1/users", some "GET", 1⟩,
    ⟨0, "user:create", "创建用户", "API", some "/api/v1/users", some "POST", 1⟩,
    ⟨0, "user:update", "更新用户", "API", some "/api/v1/users/\x7bid\x7d", some "PUT", 1⟩,
    ⟨0, "user:delete", "删除用户", "API", some "/api/v1/users/\x7bid\x7d", some "DELETE", 1⟩]

def defaultRule (ruleName metricType severity : String) (threshold : ℚ) (duration : Fin (2 ^ 32)) : AlertRule where
  id := 0
  ruleName := ruleName
  metricType := metricType
  targetType := "SERVER"
  severity := severity
  operator := "GT"
  threshold := Decimal.ofRat? 12 4 threshold
  durationSeconds := duration
  recoveryThreshold := none
  enabled := 1
  durationSeconds_unsigned := unsigned_lt duration

def defaultAlertRules : List AlertRule :=
  [defaultRule "CPU 使用率过高" "CPU" "WARNING" 80 300, defaultRule "CPU 使用率严重过高" "CPU" "CRITICAL" 95 120,
    defaultRule "内存使用率过高" "MEMORY" "WARNING" 80 300, defaultRule "内存使用率严重过高" "MEMORY" "CRITICAL" 95 120,
    defaultRule "磁盘使用率过高" "DISK" "WARNING" 85 300, defaultRule "磁盘使用率严重过高" "DISK" "CRITICAL" 95 120,
    defaultRule "负载过高" "LOAD" "WARNING" 1 300, defaultRule "负载严重过高" "LOAD" "CRITICAL" 2 120,
    defaultRule "Agent 心跳丢失" "AGENT" "WARNING" 90 0, defaultRule "Agent 心跳严重丢失" "AGENT" "CRITICAL" 180 0]

def adminUser (settings : SeedSettings) (passwordHash : String) : SysUser where
  id := 0
  username := settings.username
  passwordHash := passwordHash
  nickname := some "系统管理员"
  email := none
  phone := none
  status := 1
  deletedAt := none

/-! ## Seeding -/

def ukSysRoleCode : UniqueKey SysRole Failure where
  error := .integrity "uk_sys_role_code"
  collide a b := a.roleCode = b.roleCode
  symm _ _ := decide_eq_decide.mpr eq_comm

def ukSysPermissionCode : UniqueKey SysPermission Failure where
  error := .integrity "uk_sys_permission_code"
  collide a b := a.permissionCode = b.permissionCode
  symm _ _ := decide_eq_decide.mpr eq_comm

/-- The columns of the tables take every default. -/
def roleSchema : Schema SysRole Failure := ⟨fun _ => none, [ukSysRoleCode]⟩

def permissionSchema : Schema SysPermission Failure := ⟨fun _ => none, [ukSysPermissionCode]⟩

def roleDefaults : Defaults SysRole String Failure := ⟨SysRole.roleCode, fun _ _ => rfl, roleSchema.insert⟩

def permissionDefaults : Defaults SysPermission String Failure :=
  ⟨SysPermission.permissionCode, fun _ _ => rfl, permissionSchema.insert⟩

/-- The names of the rules are not unique in the database. -/
def ruleDefaults : Defaults AlertRule String Failure := ⟨AlertRule.ruleName, fun _ _ => rfl, fun t a => .ok (t.insert a)⟩

/-- `RoleRepository.get_by_code`. -/
def getByCode (roles : Table SysRole) (roleCode : String) : Option SysRole :=
  (roles.select fun r => r.roleCode = roleCode).head?

section
variable (hasher : PasswordHasher) (settings : SeedSettings)

/-- The administrator: the users and the id. -/
def seedAdmin (read users : Table SysUser) : Except Failure (Table SysUser × ℕ) :=
  match getByUsername read settings.username with
  | some admin => .ok (users, admin.id)
  | none => do
    let passwordHash ← hashPassword hasher settings.password
    let users' ← userSchema.insert users (adminUser settings passwordHash)
    pure (users', users.next)

/-- The role of the administrator replaces all others that he has. -/
def seedAdminRole (accounts : Accounts) (adminId : ℕ) : Except Failure Accounts :=
  match getByCode accounts.roles "SYSTEM_ADMIN" with
  | some role => setRoles accounts adminId [(role.id : ℤ)]
  | none => .ok accounts

/-- `_init_seed_data_once` with the snapshot `read`, on the committed tables `s`. -/
def seedOver (read s : System) : Except Failure System := do
  let newRoles ← roleDefaults.ensureAll read.db.accounts.roles s.db.accounts.roles defaultRoles
  let newPermissions ← permissionDefaults.ensureAll read.permissions s.permissions defaultPermissions
  let newRules ← ruleDefaults.ensureAll read.db.rules s.db.rules defaultAlertRules
  let (users, adminId) ← seedAdmin hasher settings read.db.accounts.users s.db.accounts.users
  let accounts ← seedAdminRole ⟨users, newRoles, s.db.accounts.userRoles⟩ adminId
  pure ⟨{ s.db with accounts := accounts, rules := newRules }, newPermissions⟩

def seed (s : System) : Except Failure System := seedOver hasher settings s s

end

/-! ## Seeding once -/

section
variable (hasher : PasswordHasher) (settings : SeedSettings)

/-- Every default is there exactly once, and so is the administrator. -/
structure Complete (s : System) : Prop where
  roles : ∀ a ∈ defaultRoles, ∃! r, r ∈ s.db.accounts.roles ∧ r.roleCode = a.roleCode
  permissions : ∀ a ∈ defaultPermissions, ∃! p, p ∈ s.permissions ∧ p.permissionCode = a.permissionCode
  rules : ∀ a ∈ defaultAlertRules, ∃! r, r ∈ s.db.rules ∧ r.ruleName = a.ruleName
  admin : ∃! u, u ∈ s.db.accounts.users ∧ u.username = settings.username

/-- Everything that existed before is still there as it was. -/
structure Untouched (s s' : System) : Prop where
  users : ∀ u ∈ s.db.accounts.users, u ∈ s'.db.accounts.users
  roles : ∀ r ∈ s.db.accounts.roles, r ∈ s'.db.accounts.roles
  userRoles : ∀ link ∈ s.db.accounts.userRoles, link ∈ s'.db.accounts.userRoles
  permissions : ∀ p ∈ s.permissions, p ∈ s'.permissions
  rules : ∀ r ∈ s.db.rules, r ∈ s'.db.rules
  servers : s'.db.servers = s.db.servers
  events : s'.db.events = s.db.events

/-- Seeding succeeds, completes the defaults, touches nothing, and does nothing the next time. -/
def SeedsOnce (s : System) : Prop :=
  ∃ s', seed hasher settings s = .ok s' ∧ Complete settings s' ∧ Untouched s s' ∧ seed hasher settings s' = .ok s'

/-- The administrator was not deleted and has no further roles; if there is none, one can be created. -/
structure AdminIntact (s : System) : Prop where
  undeleted : ∀ u ∈ s.db.accounts.users, u.username = settings.username → u.deletedAt = none
  links : ∀ u ∈ s.db.accounts.users, u.username = settings.username →
    ∀ link ∈ s.db.accounts.userRoles, link.userId = u.id →
      ∃ role ∈ s.db.accounts.roles, role.id = link.roleId ∧ role.roleCode = "SYSTEM_ADMIN"
  creatable : (∀ u ∈ s.db.accounts.users, u.username ≠ settings.username) →
    settings.username.length ≤ 64 ∧ (hasher.hash settings.password).isSome

end

/-- What holds of the tables in every run. -/
structure System.Named (s : System) : Prop where
  db : s.db.Consistent
  roles : roleDefaults.Distinct s.db.accounts.roles
  permissions : permissionDefaults.Distinct s.permissions
  rules : ruleDefaults.Distinct s.db.rules

/-! ### The defaults can be inserted -/

theorem insert_of_free {α : Type} [Keyed α] {sc : Schema α Failure} {name : α → String}
    (hcolumn : ∀ r, sc.column r = none) (hname : ∀ n a, name (Keyed.withKey n a) = name a)
    (hunique : ∀ u ∈ sc.unique, ∀ r s, u.collide r s = true → name r = name s) {t : Table α} {a : α}
    (hfree : ∀ r ∈ t, name r ≠ name a) : sc.insert t a = .ok (t.insert a) := by
  refine Schema.insert_eq_ok.mpr ⟨Schema.refuse_eq_none.mpr ⟨hcolumn _, Schema.clash_eq_none.mpr ?_⟩, rfl⟩
  intro u hu r hr hcollide
  have hsame := hunique u hu _ _ hcollide
  rw [hname] at hsame
  exact absurd hsame.symm (hfree r hr)

theorem roles_insertable : roleDefaults.Insertable defaultRoles where
  nodup := by decide
  inserts t a _ hfree := by
    refine @insert_of_free _ _ roleSchema SysRole.roleCode (fun _ => rfl) (fun _ _ => rfl) ?_ t a
      (Defaults.present_eq_false.mp hfree)
    intro u hu r s hcollide
    obtain rfl := List.mem_singleton.mp hu
    exact of_decide_eq_true hcollide

theorem permissions_insertable : permissionDefaults.Insertable defaultPermissions where
  nodup := by decide
  inserts t a _ hfree := by
    refine @insert_of_free _ _ permissionSchema SysPermission.permissionCode (fun _ => rfl) (fun _ _ => rfl) ?_ t a
      (Defaults.present_eq_false.mp hfree)
    intro u hu r s hcollide
    obtain rfl := List.mem_singleton.mp hu
    exact of_decide_eq_true hcollide

theorem rules_insertable : ruleDefaults.Insertable defaultAlertRules where
  nodup := by decide
  inserts _ _ _ _ := rfl

/-! ### A run of the seeding -/

section
variable {hasher : PasswordHasher} {settings : SeedSettings} {s s' : System}

theorem getByCode_eq_some {t : Table SysRole} (ht : roleDefaults.Distinct t) {role : SysRole} (hrole : role ∈ t) :
    getByCode t role.roleCode = some role := by
  unfold getByCode
  have hmem : role ∈ t.select fun r => r.roleCode = role.roleCode := Table.mem_select.mpr ⟨hrole, by simp⟩
  cases hfound : t.select fun r => r.roleCode = role.roleCode with
  | nil =>
    rw [hfound] at hmem
    exact absurd hmem List.not_mem_nil
  | cons r rest =>
    have hr : r ∈ t.select fun r => r.roleCode = role.roleCode := hfound ▸ List.mem_cons_self
    obtain ⟨hr, hcode⟩ := Table.mem_select.mp hr
    rw [ht r hr role hrole (of_decide_eq_true hcode)]
    rfl

/-- The tables after the defaults and the administrator. -/
structure Seeded (s : System) (users : Table SysUser) (adminId : ℕ) (s' : System) : Prop where
  users : s'.db.accounts.users = users
  roles : roleDefaults.Ensured defaultRoles s.db.accounts.roles s'.db.accounts.roles
  permissions : permissionDefaults.Ensured defaultPermissions s.permissions s'.permissions
  rules : ruleDefaults.Ensured defaultAlertRules s.db.rules s'.db.rules
  servers : s'.db.servers = s.db.servers
  events : s'.db.events = s.db.events
  userRoles : ∃ role ∈ s'.db.accounts.roles, role.roleCode = "SYSTEM_ADMIN" ∧
    s'.db.accounts.userRoles =
      (s.db.accounts.userRoles.filter fun link => link.userId ≠ adminId) ++ [⟨adminId, role.id⟩]

theorem seedAdminRole_eq {accounts : Accounts} {adminId : ℕ} (hroles : roleDefaults.Distinct accounts.roles) {role : SysRole}
    (hrole : role ∈ accounts.roles) (hcode : role.roleCode = "SYSTEM_ADMIN")
    (hadmin : ∃ u ∈ accounts.users, u.id = adminId) : seedAdminRole accounts adminId = .ok { accounts with
      userRoles := (accounts.userRoles.filter fun link => link.userId ≠ adminId) ++ [⟨adminId, role.id⟩] } := by
  have hget := getByCode_eq_some hroles hrole
  rw [hcode] at hget
  have hset := @setRoles_eq_ok accounts adminId [(role.id : ℤ)] hadmin fun id hid => by
    obtain rfl := List.mem_singleton.mp hid
    exact ⟨role, hrole, rfl⟩
  rw [seedAdminRole, hget]
  exact hset

/-- Only the administrator can stop the seeding. -/
theorem seed_spec (h : s.Named) (hadmin : ∀ users adminId,
      seedAdmin hasher settings s.db.accounts.users s.db.accounts.users = .ok (users, adminId) →
        ∃ u ∈ users, u.id = adminId) :
    (∃ e, seedAdmin hasher settings s.db.accounts.users s.db.accounts.users = .error e ∧
        seed hasher settings s = .error e) ∨
      ∃ users adminId s', seedAdmin hasher settings s.db.accounts.users s.db.accounts.users = .ok (users, adminId) ∧
        seed hasher settings s = .ok s' ∧ Seeded s users adminId s' := by
  obtain ⟨newRoles, hroles, henroles⟩ := Defaults.ensureAll_spec roles_insertable h.roles
  obtain ⟨newPermissions, hpermissions, henpermissions⟩ := Defaults.ensureAll_spec permissions_insertable h.permissions
  obtain ⟨newRules, hrules, henrules⟩ := Defaults.ensureAll_spec rules_insertable h.rules
  obtain ⟨role, hrole, hcode⟩ := Defaults.present_iff.mp (henroles.present _ List.mem_cons_self)
  unfold seed seedOver
  rw [hroles, hpermissions, hrules]
  cases hresult : seedAdmin hasher settings s.db.accounts.users s.db.accounts.users with
  | error e => exact .inl ⟨e, rfl, rfl⟩
  | ok p =>
    obtain ⟨users, adminId⟩ := p
    right
    have hset := @seedAdminRole_eq ⟨users, newRoles, s.db.accounts.userRoles⟩ adminId henroles.distinct role hrole hcode
      (hadmin users adminId hresult)
    refine ⟨users, adminId, ⟨{ s.db with
      accounts := ⟨users, newRoles,
        (s.db.accounts.userRoles.filter fun link => link.userId ≠ adminId) ++ [⟨adminId, role.id⟩]⟩
      rules := newRules }, newPermissions⟩, rfl, ?_, ?_⟩
    · show (seedAdminRole ⟨users, newRoles, s.db.accounts.userRoles⟩ adminId >>= _) = _
      rw [hset]
      rfl
    · exact ⟨rfl, henroles, henpermissions, henrules, rfl, rfl, role, hrole, hcode, rfl⟩

/-! ### The administrator -/

/-- The administrator was found, or there was none and one was created. -/
theorem seedAdmin_eq_ok {users users' : Table SysUser} {adminId : ℕ} :
    seedAdmin hasher settings users users = .ok (users', adminId) ↔
      (users' = users ∧ ∃ u, getByUsername users settings.username = some u ∧ u.id = adminId) ∨
        getByUsername users settings.username = none ∧ adminId = users.next ∧
          ∃ passwordHash, hasher.hash settings.password = some passwordHash ∧
            userSchema.insert users (adminUser settings passwordHash) = .ok users' := by
  unfold seedAdmin hashPassword
  cases hget : getByUsername users settings.username with
  | some u =>
    simp only [Except.ok.injEq, Prod.mk.injEq, Option.some.injEq, exists_eq_left', reduceCtorEq, false_and, or_false]
    exact and_congr_left fun _ => eq_comm
  | none =>
    cases hhash : hasher.hash settings.password with
    | none =>
      constructor
      · intro h
        obtain ⟨_, hraised, -⟩ := bind_eq_ok.mp h
        cases hraised
      · rintro (⟨-, _, hfound, -⟩ | ⟨-, -, _, hhashed, -⟩)
        · cases hfound
        · cases hhashed
    | some passwordHash =>
      constructor
      · intro h
        obtain ⟨_, hhashed, h⟩ := bind_eq_ok.mp h
        obtain rfl := Except.ok.inj hhashed
        obtain ⟨inserted, hinsert, hpair⟩ := bind_eq_ok.mp h
        obtain ⟨rfl, rfl⟩ := Prod.mk.inj (pure_eq_ok.mp hpair)
        exact .inr ⟨rfl, rfl, passwordHash, rfl, hinsert⟩
      · rintro (⟨-, _, hfound, -⟩ | ⟨-, rfl, _, hhashed, hinsert⟩)
        · cases hfound
        · obtain rfl := Option.some.inj hhashed
          exact bind_eq_ok.mpr ⟨passwordHash, rfl, bind_eq_ok.mpr ⟨users', hinsert, rfl⟩⟩

theorem adminUser_insert_eq_ok {users users' : Table SysUser} {passwordHash : String}
    (hhash : hasher.hash settings.password = some passwordHash) :
    userSchema.insert users (adminUser settings passwordHash) = .ok users' ↔
      (settings.username.length ≤ 64 ∧ ∀ u ∈ users, u.username ≠ settings.username) ∧
        users' = users.insert (adminUser settings passwordHash) := by
  rw [Schema.insert_eq_ok, Schema.refuse_eq_none, userSchema_clash_eq_none]
  refine and_congr_left fun _ => ?_
  have hcolumn : userSchema.column (Keyed.withKey users.next (adminUser settings passwordHash)) = none ↔
      settings.username.length ≤ 64 := by
    refine SysUser.overflow_eq_none.trans ⟨fun h => h.1, fun h => ⟨h, hasher.hash_length _ _ hhash, ?_, ?_, ?_⟩⟩
    · intro nickname hnickname
      obtain rfl := Option.some.inj hnickname
      decide
    · intro email hemail
      cases hemail
    · intro phone hphone
      cases hphone
  rw [hcolumn]
  refine and_congr_right fun _ => ⟨fun h u hu hname => ?_, fun h => ⟨fun u hu hname => ?_, ?_⟩⟩
  · have hid := h.1 u hu hname
    exact absurd hid (Table.key_lt hu).ne
  · exact absurd hname (h u hu)
  · intro email hemail
    cases hemail

/-- The user with the name, deleted or not. -/
theorem getByUsername_eq_some (h : userSchema.Consistent s.db.accounts.users) {u : SysUser}
    (hu : u ∈ s.db.accounts.users) (hname : u.username = settings.username) (hundeleted : u.deletedAt = none) :
    getByUsername s.db.accounts.users settings.username = some u := by
  have hsome := getByUsername_isSome.mpr ⟨u, hu, hname, hundeleted⟩
  obtain ⟨found, hfound⟩ := Option.isSome_iff_exists.mp hsome
  obtain ⟨hmem, hfoundName⟩ := Table.mem_select.mp (List.mem_of_mem_head? hfound)
  have hfoundName := (of_decide_eq_true hfoundName).1
  rw [hfound, h.unique ukSysUserUsername List.mem_cons_self found hmem u hu
    (decide_eq_true (hfoundName.trans hname.symm))]

theorem getByUsername_mem {users : Table SysUser} {username : String} {u : SysUser}
    (h : getByUsername users username = some u) : u ∈ users ∧ u.username = username ∧ u.deletedAt = none := by
  obtain ⟨hmem, hname⟩ := Table.mem_select.mp (List.mem_of_mem_head? h)
  exact ⟨hmem, of_decide_eq_true hname⟩

/-- Whoever has the name afterwards is the user whose id the seeding uses. -/
theorem seedAdmin_spec (h : userSchema.Consistent s.db.accounts.users) {users : Table SysUser} {adminId : ℕ}
    (hok : seedAdmin hasher settings s.db.accounts.users s.db.accounts.users = .ok (users, adminId)) :
    userSchema.Consistent users ∧ (∀ u ∈ s.db.accounts.users, u ∈ users) ∧
      ∃ admin ∈ users, admin.id = adminId ∧ admin.username = settings.username ∧ admin.deletedAt = none ∧
        ∀ u ∈ users, u.username = settings.username → u = admin := by
  rcases seedAdmin_eq_ok.mp hok with ⟨rfl, u, hget, rfl⟩ | ⟨-, rfl, passwordHash, hhash, hinsert⟩
  · obtain ⟨hu, hname, hundeleted⟩ := getByUsername_mem hget
    refine ⟨h, fun _ hv => hv, u, hu, rfl, hname, hundeleted, fun v hv hvname => ?_⟩
    exact h.unique ukSysUserUsername List.mem_cons_self v hv u hu (decide_eq_true (hvname.trans hname.symm))
  · obtain ⟨⟨-, hfree⟩, rfl⟩ := (adminUser_insert_eq_ok hhash).mp hinsert
    refine ⟨h.insert hinsert, fun _ hv => Table.mem_insert.mpr (.inl hv), _, Table.mem_insert.mpr (.inr rfl), rfl, rfl,
      rfl, fun v hv hvname => ?_⟩
    rcases Table.mem_insert.mp hv with hv | rfl
    · exact absurd hvname (hfree v hv)
    · rfl

theorem seed_cases (h : s.Named) :
    (∃ e, seedAdmin hasher settings s.db.accounts.users s.db.accounts.users = .error e ∧
        seed hasher settings s = .error e) ∨
      ∃ users adminId s', seedAdmin hasher settings s.db.accounts.users s.db.accounts.users = .ok (users, adminId) ∧
        seed hasher settings s = .ok s' ∧ Seeded s users adminId s' := by
  refine seed_spec h fun users adminId hok => ?_
  obtain ⟨-, -, admin, hadmin, hid, -⟩ := seedAdmin_spec h.db.accounts.users hok
  exact ⟨admin, hadmin, hid⟩

theorem seed_eq_ok (h : s.Named) (hok : seed hasher settings s = .ok s') :
    ∃ users adminId, seedAdmin hasher settings s.db.accounts.users s.db.accounts.users = .ok (users, adminId) ∧
      Seeded s users adminId s' := by
  rcases @seed_cases hasher settings s h with ⟨e, -, herror⟩ | ⟨users, adminId, s₁, hadmin, hseed, hseeded⟩
  · rw [herror] at hok
    cases hok
  · obtain rfl := Except.ok.inj (hseed.symm.trans hok)
    exact ⟨users, adminId, hadmin, hseeded⟩

/-! ### When the seeding is repeatable -/

theorem Seeded.named {users : Table SysUser} {adminId : ℕ} (hseeded : Seeded s users adminId s') (h : s.Named)
    (hok : seedAdmin hasher settings s.db.accounts.users s.db.accounts.users = .ok (users, adminId)) : s'.Named := by
  obtain ⟨hconsistent, hkept, admin, hadmin, rfl, -⟩ := seedAdmin_spec h.db.accounts.users hok
  obtain ⟨role, hrole, -, hlinks⟩ := hseeded.userRoles
  have hcases : ∀ link ∈ s'.db.accounts.userRoles, link ∈ s.db.accounts.userRoles ∨ link = ⟨admin.id, role.id⟩ := by
    intro link hlink
    rw [hlinks] at hlink
    rcases List.mem_append.mp hlink with hlink | hlink
    · exact .inl (List.mem_of_mem_filter hlink)
    · exact .inr (List.mem_singleton.mp hlink)
  have husers : s'.db.accounts.users = users := hseeded.users
  have hevents : ∀ event ∈ s'.db.events, ∃ rule ∈ s'.db.rules, rule.id = event.ruleId := by
    intro event hevent
    obtain ⟨rule, hrule, hid⟩ := h.db.fkEvent event (hseeded.events ▸ hevent)
    exact ⟨rule, hseeded.rules.kept rule hrule, hid⟩
  have hservers : serverSchema.Consistent s'.db.servers := hseeded.servers ▸ h.db.servers
  refine ⟨⟨⟨husers ▸ hconsistent, ?_, fun link hlink => ?_, fun link hlink => ?_⟩, hservers, hevents⟩,
    hseeded.roles.distinct, hseeded.permissions.distinct, hseeded.rules.distinct⟩
  · rw [hlinks]
    refine List.nodup_append.mpr ⟨h.db.accounts.userRoles_nodup.filter _, List.nodup_singleton _, ?_⟩
    rintro a ha b hb rfl
    obtain rfl := List.mem_singleton.mp hb
    exact of_decide_eq_true (List.mem_filter.mp ha).2 rfl
  · rw [husers]
    rcases hcases link hlink with hlink | rfl
    · obtain ⟨user, huser, hid⟩ := h.db.accounts.fkUser link hlink
      exact ⟨user, hkept user huser, hid⟩
    · exact ⟨admin, hadmin, rfl⟩
  · rcases hcases link hlink with hlink | rfl
    · obtain ⟨old, hold, hid⟩ := h.db.accounts.fkRole link hlink
      exact ⟨old, hseeded.roles.kept old hold, hid⟩
    · exact ⟨role, hrole, rfl⟩

theorem Seeded.complete {users : Table SysUser} {adminId : ℕ} (hseeded : Seeded s users adminId s') (h : s.Named)
    (hok : seedAdmin hasher settings s.db.accounts.users s.db.accounts.users = .ok (users, adminId)) :
    Complete settings s' := by
  obtain ⟨-, -, admin, hadmin, -, hname, -, hunique⟩ := seedAdmin_spec h.db.accounts.users hok
  have hexists : ∀ {α : Type} [Keyed α] {d : Defaults α String Failure} {rows : List α} {t t' : Table α},
      Defaults.Ensured d rows t t' → ∀ a ∈ rows, ∃! r, r ∈ t' ∧ d.name r = d.name a := by
    intro α _ d rows t t' hensured a ha
    obtain ⟨r, hr, hsame⟩ := Defaults.present_iff.mp (hensured.present a ha)
    exact ⟨r, ⟨hr, hsame⟩, fun r' hr' => hensured.distinct r' hr'.1 r hr (hr'.2.trans hsame.symm)⟩
  refine ⟨hexists hseeded.roles, hexists hseeded.permissions, hexists hseeded.rules, ?_⟩
  rw [hseeded.users]
  exact ⟨admin, ⟨hadmin, hname⟩, fun u hu => hunique u hu.1 hu.2⟩

/-- The tables that the seeding leaves are those that it would leave. -/
theorem Seeded.again {users : Table SysUser} {adminId : ℕ} (hseeded : Seeded s users adminId s') (h : s.Named)
    (hok : seedAdmin hasher settings s.db.accounts.users s.db.accounts.users = .ok (users, adminId)) :
    seed hasher settings s' = .ok s' := by
  obtain ⟨hconsistent, -, admin, hadmin, rfl, hname, hundeleted, -⟩ := seedAdmin_spec h.db.accounts.users hok
  obtain ⟨role, hrole, hcode, hlinks⟩ := hseeded.userRoles
  have husers : s'.db.accounts.users = users := hseeded.users
  have hfound : seedAdmin hasher settings s'.db.accounts.users s'.db.accounts.users =
      .ok (s'.db.accounts.users, admin.id) := by
    rw [seedAdmin, getByUsername_eq_some (husers ▸ hconsistent) (husers ▸ hadmin) hname hundeleted]
  have hset : seedAdminRole s'.db.accounts admin.id = .ok s'.db.accounts := by
    have hrelinked : (s'.db.accounts.userRoles.filter fun link => link.userId ≠ admin.id) ++ [⟨admin.id, role.id⟩] =
        s'.db.accounts.userRoles := by
      rw [hlinks, List.filter_append, List.filter_filter]
      simp
    rw [seedAdminRole_eq hseeded.roles.distinct hrole hcode ⟨admin, husers ▸ hadmin, rfl⟩, hrelinked]
  unfold seed seedOver
  rw [Defaults.ensureAll_of_present hseeded.roles.present, Defaults.ensureAll_of_present hseeded.permissions.present,
    Defaults.ensureAll_of_present hseeded.rules.present, hfound]
  show (seedAdminRole s'.db.accounts admin.id >>= _) = _
  rw [hset]
  rfl

/-- What was there before is there afterwards, unless the administrator had another role. -/
theorem Seeded.untouched_iff {users : Table SysUser} {adminId : ℕ} (hseeded : Seeded s users adminId s') (h : s.Named)
    (hok : seedAdmin hasher settings s.db.accounts.users s.db.accounts.users = .ok (users, adminId)) :
    Untouched s s' ↔ ∀ link ∈ s.db.accounts.userRoles, link.userId = adminId →
      ∃ role ∈ s.db.accounts.roles, role.id = link.roleId ∧ role.roleCode = "SYSTEM_ADMIN" := by
  obtain ⟨role, hrole, hcode, hlinks⟩ := hseeded.userRoles
  constructor
  · intro huntouched link hlink hadmin
    obtain ⟨old, hold, hid⟩ := h.db.accounts.fkRole link hlink
    have hnew := huntouched.userRoles link hlink
    rw [hlinks] at hnew
    rcases List.mem_append.mp hnew with hnew | hnew
    · exact absurd hadmin (of_decide_eq_true (List.mem_filter.mp hnew).2)
    · obtain rfl := List.mem_singleton.mp hnew
      have hsame : old = role := Table.eq_of_key_eq (hseeded.roles.kept old hold) hrole hid
      exact ⟨old, hold, hid, hsame ▸ hcode⟩
  · intro honly
    obtain ⟨-, hkept, -⟩ := seedAdmin_spec h.db.accounts.users hok
    refine ⟨fun u hu => hseeded.users ▸ hkept u hu, hseeded.roles.kept, fun link hlink => ?_, hseeded.permissions.kept,
      hseeded.rules.kept, hseeded.servers, hseeded.events⟩
    rw [hlinks]
    by_cases hadmin : link.userId = adminId
    · obtain ⟨old, hold, hid, holdCode⟩ := honly link hlink hadmin
      have hsame : old = role := hseeded.roles.distinct old (hseeded.roles.kept old hold) role hrole (holdCode.trans hcode.symm)
      refine List.mem_append_right _ (List.mem_singleton.mpr ?_)
      rw [← hadmin, ← hsame, hid]
    · exact List.mem_append_left _ (List.mem_filter.mpr ⟨hlink, decide_eq_true hadmin⟩)

/-- The administrator can be found or created. -/
theorem seedAdmin_isOk (h : userSchema.Consistent s.db.accounts.users) :
    (∃ r, seedAdmin hasher settings s.db.accounts.users s.db.accounts.users = .ok r) ↔
      (∀ u ∈ s.db.accounts.users, u.username = settings.username → u.deletedAt = none) ∧
        ((∀ u ∈ s.db.accounts.users, u.username ≠ settings.username) →
          settings.username.length ≤ 64 ∧ (hasher.hash settings.password).isSome) := by
  constructor
  · rintro ⟨⟨users, adminId⟩, hok⟩
    rcases seedAdmin_eq_ok.mp hok with ⟨-, u, hget, -⟩ | ⟨-, -, passwordHash, hhash, hinsert⟩
    · obtain ⟨hu, hname, hundeleted⟩ := getByUsername_mem hget
      refine ⟨fun v hv hvname => ?_, fun hfree => absurd hname (hfree u hu)⟩
      rwa [h.unique ukSysUserUsername List.mem_cons_self v hv u hu (decide_eq_true (hvname.trans hname.symm))]
    · obtain ⟨⟨hlength, hfree⟩, -⟩ := (adminUser_insert_eq_ok hhash).mp hinsert
      exact ⟨fun v hv hvname => absurd hvname (hfree v hv), fun _ => ⟨hlength, by rw [hhash]; rfl⟩⟩
  · rintro ⟨hundeleted, hcreatable⟩
    by_cases hexists : ∃ u ∈ s.db.accounts.users, u.username = settings.username
    · obtain ⟨u, hu, hname⟩ := hexists
      have hget := getByUsername_eq_some h hu hname (hundeleted u hu hname)
      exact ⟨(_, u.id), seedAdmin_eq_ok.mpr (.inl ⟨rfl, u, hget, rfl⟩)⟩
    · push Not at hexists
      obtain ⟨hlength, hsome⟩ := hcreatable hexists
      obtain ⟨passwordHash, hhash⟩ := Option.isSome_iff_exists.mp hsome
      have hnone : getByUsername s.db.accounts.users settings.username = none := by
        rw [← Option.not_isSome_iff_eq_none, getByUsername_isSome]
        rintro ⟨u, hu, hname, -⟩
        exact hexists u hu hname
      have hinsert := (adminUser_insert_eq_ok hhash).mpr ⟨⟨hlength, hexists⟩, rfl⟩
      exact ⟨(_, _), seedAdmin_eq_ok.mpr (.inr ⟨hnone, rfl, passwordHash, hhash, hinsert⟩)⟩

/-- The id of the administrator belongs to whoever had the name, and to nobody if none had it. -/
theorem seedAdmin_id (h : s.Named) {users : Table SysUser} {adminId : ℕ}
    (hok : seedAdmin hasher settings s.db.accounts.users s.db.accounts.users = .ok (users, adminId))
    {u : SysUser} (hu : u ∈ s.db.accounts.users) : u.id = adminId ↔ u.username = settings.username := by
  obtain ⟨-, hkept, admin, hadmin, rfl, hname, -, hunique⟩ := seedAdmin_spec h.db.accounts.users hok
  constructor
  · intro hid
    rwa [show u = admin from Table.eq_of_key_eq (hkept u hu) hadmin hid]
  · exact fun husername => congrArg SysUser.id (hunique u (hkept u hu) husername)

theorem seedsOnce_iff (h : s.Named) : SeedsOnce hasher settings s ↔ AdminIntact hasher settings s := by
  have hconsistent := h.db.accounts.users
  constructor
  · rintro ⟨s', hseed, -, huntouched, -⟩
    obtain ⟨users, adminId, hok, hseeded⟩ := seed_eq_ok h hseed
    obtain ⟨hundeleted, hcreatable⟩ := (seedAdmin_isOk hconsistent).mp ⟨_, hok⟩
    refine ⟨hundeleted, fun u hu hname link hlink hid => ?_, hcreatable⟩
    exact (hseeded.untouched_iff h hok).mp huntouched link hlink (hid.trans ((seedAdmin_id h hok hu).mpr hname))
  · rintro ⟨hundeleted, honly, hcreatable⟩
    obtain ⟨⟨users, adminId⟩, hok⟩ := (seedAdmin_isOk hconsistent).mpr ⟨hundeleted, hcreatable⟩
    rcases @seed_cases hasher settings s h with ⟨e, herror, -⟩ | ⟨users', adminId', s', hok', hseed, hseeded⟩
    · rw [hok] at herror
      cases herror
    refine ⟨s', hseed, hseeded.complete h hok', (hseeded.untouched_iff h hok').mpr fun link hlink hid => ?_,
      hseeded.again h hok'⟩
    obtain ⟨u, hu, huid⟩ := h.db.accounts.fkUser link hlink
    exact honly u hu ((seedAdmin_id h hok' hu).mp (huid.trans hid)) link hlink huid.symm

end

/-! ## Requests and starts in any order -/

inductive Operation
  | request (request : Request)
  | start (settings : SeedSettings)

def System.empty : System := ⟨Db.empty, .empty⟩

/-- A start that fails is rolled back. -/
def perform (hasher : PasswordHasher) (upper : String → String) (s : System) : Operation → System
  | .request request => { s with db := serve hasher upper s.db request }
  | .start settings =>
    match seed hasher settings s with
    | .ok s' => s'
    | .error _ => s

section
variable {hasher : PasswordHasher} {upper : String → String}

theorem setRoles_roles {accounts accounts' : Accounts} {userId : ℕ} {roleIds : List ℤ}
    (hok : setRoles accounts userId roleIds = .ok accounts') : accounts'.roles = accounts.roles := by
  have hloop : ∀ (ids : List ℤ) (db : Accounts), ids.foldlM (fun db roleId => addUserRole db userId roleId) db =
      .ok accounts' → accounts'.roles = db.roles := by
    intro ids
    induction ids with
    | nil =>
      intro db hok
      rw [pure_eq_ok.mp hok]
    | cons id ids ih =>
      intro db hok
      rw [List.foldlM_cons] at hok
      obtain ⟨next, hadd, hok⟩ := bind_eq_ok.mp hok
      unfold addUserRole at hadd
      split_ifs at hadd
      obtain rfl := Except.ok.inj hadd
      have hrest := ih _ hok
      exact hrest
  have hall := hloop roleIds.dedup _ hok
  exact hall

theorem createUser_roles {accounts accounts' : Accounts} {data : UserCreate}
    (hok : createUser hasher accounts data = .ok accounts') : accounts'.roles = accounts.roles := by
  unfold createUser insertUser at hok
  split_ifs at hok with husername hemail hnil
  all_goals
    obtain ⟨-, -, hok⟩ := bind_eq_ok.mp hok
    obtain ⟨passwordHash, -, hok⟩ := bind_eq_ok.mp hok
    obtain ⟨users, -, hok⟩ := bind_eq_ok.mp hok
  · rw [← pure_eq_ok.mp hok]
  · have hroles := setRoles_roles hok
    exact hroles

theorem updateUser_roles {accounts accounts' : Accounts} {userId : ℕ} {data : UserUpdate}
    (hok : updateUser hasher accounts userId data = .ok accounts') : accounts'.roles = accounts.roles := by
  unfold updateUser writeUser at hok
  obtain ⟨user, -, hok⟩ := bind_eq_ok.mp hok
  obtain ⟨passwordHash, -, hok⟩ := bind_eq_ok.mp hok
  split_ifs at hok with hemail
  obtain ⟨-, -, hok⟩ := bind_eq_ok.mp hok
  obtain ⟨status, -, hok⟩ := bind_eq_ok.mp hok
  obtain ⟨users, -, hok⟩ := bind_eq_ok.mp hok
  cases hids : data.roleIds.join with
  | none =>
    rw [hids] at hok
    rw [← pure_eq_ok.mp hok]
  | some roleIds =>
    rw [hids] at hok
    have hroles := setRoles_roles hok
    exact hroles

theorem deleteUser_roles {accounts accounts' : Accounts} {now : Time} {userId : ℕ}
    (hok : deleteUser accounts now userId = .ok accounts') : accounts'.roles = accounts.roles := by
  obtain ⟨user, -, hok⟩ := bind_eq_ok.mp hok
  rw [← pure_eq_ok.mp hok]

/-! ### The names of the rules -/

theorem varchar_of_length {name value stored : String} {n : ℕ} (hlength : value.length ≤ n)
    (hok : varchar name n value = .ok stored) : stored = value := by
  unfold varchar at hok
  split_ifs at hok
  rw [← Except.ok.inj hok, List.take_of_length_le hlength, String.ofList_toList]

theorem createRule_distinct {users : Table SysUser} {rules rules' : Table AlertRule} {data : RuleCreate}
    {createdBy : Option ℕ} (h : ruleDefaults.Distinct rules)
    (hok : createRule upper users rules data createdBy = .ok rules') : ruleDefaults.Distinct rules' := by
  unfold createRule at hok
  by_cases hname : (getByName rules data.ruleName).isSome
  · rw [if_pos hname] at hok
    cases hok
  rw [if_neg hname, insertRule] at hok
  simp only [bind_eq_ok] at hok
  obtain ⟨_, -, _, -, stored, hstored, _, -, _, -, _, -, _, -, _, -, _, -, _, -, hwrite⟩ := hok
  split_ifs at hwrite with hcreator
  obtain rfl := pure_eq_ok.mp hwrite
  obtain rfl := varchar_of_length data.ruleName_length.2 hstored
  rw [getByName, Table.isSome_head?_select] at hname
  refine h.insert (Defaults.present_eq_false.mpr fun rule hrule hsame => ?_)
  exact hname ⟨rule, hrule, decide_eq_true hsame⟩

/-- A new name is one that no other rule has. -/
theorem name_free {rules : Table AlertRule} {rule : AlertRule} {data : RuleUpdate} {ruleName : String}
    (h : ruleDefaults.Distinct rules) (hrule : rule ∈ rules) (htaken : ¬nameTaken rules rule data.ruleName)
    (hok : updated rule.ruleName (required "rule_name" (varchar "rule_name" 128)) data.ruleName = .ok ruleName) :
    ∀ other ∈ rules, other.ruleName = ruleName → other = rule := by
  intro other hother hsame
  have hlength := data.ruleName_length
  cases hnew : data.ruleName with
  | none =>
    rw [hnew] at hok
    exact h other hother rule hrule (hsame.trans (Except.ok.inj hok).symm)
  | some value =>
    rw [hnew] at hok htaken hlength
    cases value with
    | none => cases hok
    | some value =>
      obtain ⟨hpos, hmax⟩ := hlength value rfl
      obtain rfl := varchar_of_length hmax hok
      by_cases hold : ruleName = rule.ruleName
      · exact h other hother rule hrule (hsame.trans hold)
      have hempty : ruleName ≠ "" := by
        rintro rfl
        exact absurd hpos (by decide)
      simp only [nameTaken, hempty, hold, ne_eq, not_false_eq_true, decide_true, Bool.true_and,
        Bool.not_eq_true, Option.any_eq_false, decide_eq_false_iff_not, not_not] at htaken
      cases hfound : getByName rules ruleName with
      | none =>
        have hnone := Table.head?_select_eq_none.mp hfound other hother
        exact absurd hsame (of_decide_eq_false hnone)
      | some found =>
        obtain ⟨hmem, hname⟩ := Table.mem_select.mp (List.mem_of_mem_head? hfound)
        have hid := htaken found hfound
        obtain rfl := Table.eq_of_key_eq hmem hrule hid
        exact absurd (of_decide_eq_true hname).symm hold

theorem updateRule_distinct {rules rules' : Table AlertRule} {data : RuleUpdate} {ruleId : ℕ}
    (h : ruleDefaults.Distinct rules) (hok : updateRule upper rules ruleId data = .ok rules') :
    ruleDefaults.Distinct rules' := by
  obtain ⟨found, hget, hok⟩ := bind_eq_ok.mp hok
  by_cases htaken : nameTaken rules found data.ruleName
  · rw [if_pos htaken] at hok
    cases hok
  rw [if_neg htaken, writeRule] at hok
  simp only [bind_eq_ok] at hok
  obtain ⟨_, -, _, -, ruleName, hname, _, -, _, -, _, -, _, -, _, -, _, -, _, -, _, -, hwrite⟩ := hok
  obtain rfl := pure_eq_ok.mp hwrite
  have hmem : found ∈ rules := by
    unfold getRule at hget
    cases hrow : rules.get? ruleId with
    | none =>
      rw [hrow] at hget
      cases hget
    | some rule =>
      rw [hrow] at hget
      obtain rfl := Except.ok.inj hget
      exact (Table.get?_eq_some.mp hrow).1
  refine h.modify fun rule hrule hkey other hother hne hsame => hne ?_
  rw [name_free h hmem htaken hname other hother hsame.symm]
  rfl

theorem deleteRule_distinct {rules rules' : Table AlertRule} {events : Table AlertEvent} {ruleId : ℕ}
    (h : ruleDefaults.Distinct rules) (hok : deleteRule rules events ruleId = .ok rules') :
    ruleDefaults.Distinct rules' := by
  unfold deleteRule at hok
  obtain ⟨found, -, hok⟩ := bind_eq_ok.mp hok
  split_ifs at hok with hevents
  obtain rfl := pure_eq_ok.mp hok
  exact h.remove _

/-! ### Every operation keeps the names apart -/

theorem respond_named {s : System} {db : Db} {request : Request} (h : s.Named)
    (hok : respond hasher upper s.db request = .ok db) : ({ s with db := db } : System).Named := by
  have hdb := h.db.respond hok
  cases request with
  | createUser data =>
    obtain ⟨accounts, haccounts, hok⟩ := bind_eq_ok.mp hok
    obtain rfl := pure_eq_ok.mp hok
    have hroles : accounts.roles = s.db.accounts.roles := createUser_roles haccounts
    exact ⟨hdb, hroles ▸ h.roles, h.permissions, h.rules⟩
  | updateUser userId data =>
    obtain ⟨accounts, haccounts, hok⟩ := bind_eq_ok.mp hok
    obtain rfl := pure_eq_ok.mp hok
    have hroles : accounts.roles = s.db.accounts.roles := updateUser_roles haccounts
    exact ⟨hdb, hroles ▸ h.roles, h.permissions, h.rules⟩
  | deleteUser now userId =>
    obtain ⟨accounts, haccounts, hok⟩ := bind_eq_ok.mp hok
    obtain rfl := pure_eq_ok.mp hok
    have hroles : accounts.roles = s.db.accounts.roles := deleteUser_roles haccounts
    exact ⟨hdb, hroles ▸ h.roles, h.permissions, h.rules⟩
  | createServer data =>
    obtain ⟨servers, -, hok⟩ := bind_eq_ok.mp hok
    obtain rfl := pure_eq_ok.mp hok
    exact ⟨hdb, h.roles, h.permissions, h.rules⟩
  | createRule data createdBy =>
    obtain ⟨rules, hrules, hok⟩ := bind_eq_ok.mp hok
    obtain rfl := pure_eq_ok.mp hok
    exact ⟨hdb, h.roles, h.permissions, createRule_distinct h.rules hrules⟩
  | updateRule ruleId data =>
    obtain ⟨rules, hrules, hok⟩ := bind_eq_ok.mp hok
    obtain rfl := pure_eq_ok.mp hok
    exact ⟨hdb, h.roles, h.permissions, updateRule_distinct h.rules hrules⟩
  | deleteRule ruleId =>
    obtain ⟨rules, hrules, hok⟩ := bind_eq_ok.mp hok
    obtain rfl := pure_eq_ok.mp hok
    exact ⟨hdb, h.roles, h.permissions, deleteRule_distinct h.rules hrules⟩

theorem System.Named.perform {s : System} (h : s.Named) (operation : Operation) :
    (perform hasher upper s operation).Named := by
  cases operation with
  | request request =>
    show ({ s with db := serve hasher upper s.db request } : System).Named
    unfold serve
    cases hok : respond hasher upper s.db request with
    | ok db => exact respond_named h hok
    | error e => exact h
  | start settings =>
    show (match seed hasher settings s with | .ok s' => s' | .error _ => s : System).Named
    cases hok : seed hasher settings s with
    | ok s' =>
      obtain ⟨users, adminId, hadmin, hseeded⟩ := seed_eq_ok h hok
      exact hseeded.named h hadmin
    | error e => exact h

theorem System.named_empty : System.empty.Named where
  db := Db.consistent_empty
  roles := Defaults.distinct_empty
  permissions := Defaults.distinct_empty
  rules := Defaults.distinct_empty

theorem named_run (operations : List Operation) : (run (perform hasher upper) .empty operations).Named :=
  run_induction (C := fun _ _ => True) (I := fun _ (s : System) => s.Named) System.named_empty
    (fun _ operation _ h => h.perform operation) operations fun _ _ _ _ => trivial

end

/-! ## Two workers that start together -/

inductive Worker
  | one | two
  deriving DecidableEq

/-- The queries see the snapshot, everything else happens on the committed rows. -/
def seedings (hasher : PasswordHasher) (settings : SeedSettings) : Transactions Worker System Unit where
  body _ base := some (base, ())
  write base _ cur := (seedOver hasher settings base cur).toOption

/-- Both workers finish on an empty database, which is seeded as by one of them. -/
structure StartsTogether (hasher : PasswordHasher) (settings : SeedSettings) (l : List (Phase Worker)) : Prop where
  finished : ∀ i, ((seedings hasher settings).play .empty l).reply i = some ()
  complete : Complete settings ((seedings hasher settings).play .empty l).shared
  untouched : Untouched .empty ((seedings hasher settings).play .empty l).shared
  again : seed hasher settings ((seedings hasher settings).play .empty l).shared =
    .ok ((seedings hasher settings).play .empty l).shared

/-- The administrator of the settings can be created. -/
def Creatable (hasher : PasswordHasher) (settings : SeedSettings) : Prop :=
  settings.username.length ≤ 64 ∧ (hasher.hash settings.password).isSome

section
variable {hasher : PasswordHasher} {settings : SeedSettings} {base cur s : System} {i j : Worker}
  {l : List (Phase Worker)}

theorem adminIntact_empty : AdminIntact hasher settings .empty ↔ Creatable hasher settings := by
  have hnone : ∀ u, u ∉ System.empty.db.accounts.users := Table.notMem_empty
  constructor
  · exact fun h => h.creatable fun u hu => absurd hu (hnone u)
  · exact fun h => ⟨fun u hu => absurd hu (hnone u), fun u hu => absurd hu (hnone u), fun _ => h⟩

theorem answer_eq_some : (seedings hasher settings).answer i base cur = some () ↔
    ∃ s, seedOver hasher settings base cur = .ok s := by
  show ((Except.toOption (seedOver hasher settings base cur)).map fun s => (s, ())).map Prod.snd = some () ↔ _
  cases seedOver hasher settings base cur <;> simp [Except.toOption]

theorem result_eq (h : seedOver hasher settings base cur = .ok s) :
    (seedings hasher settings).result i base cur = s := by
  refine @Transactions.result_of_written _ _ _ (seedings hasher settings) i base base cur s () rfl ?_
  show (seedOver hasher settings base cur).toOption = some s
  rw [h]
  rfl

/-- A role that was committed meanwhile is in the way of one that was missing. -/
theorem seedOver_empty_clash (h : ∃ r ∈ cur.db.accounts.roles, r.roleCode = "SYSTEM_ADMIN") :
    seedOver hasher settings .empty cur ≠ .ok s := by
  intro hok
  obtain ⟨role, hrole, hcode⟩ := h
  obtain ⟨roles, hroles, -⟩ := bind_eq_ok.mp hok
  have hmissing : roleDefaults.present System.empty.db.accounts.roles ⟨0, "SYSTEM_ADMIN", "系统管理员",
      some "拥有系统全部管理权限", 1⟩ = false := Defaults.present_eq_false.mpr fun r hr => absurd hr (Table.notMem_empty r)
  rw [Defaults.ensureAll, defaultRoles, List.foldlM_cons, Defaults.ensure, if_neg (by rw [hmissing]; decide)] at hroles
  obtain ⟨inserted, hinsert, -⟩ := bind_eq_ok.mp hroles
  have hclash := (Schema.refuse_eq_none.mp (Schema.insert_eq_ok.mp hinsert).1).2
  have hsame := Schema.clash_eq_none.mp hclash ukSysRoleCode List.mem_cons_self role hrole (decide_eq_true hcode.symm)
  exact absurd hsame (Table.key_lt hrole).ne

theorem startsTogether_of_follows (h : Follows i j l) (hne : i ≠ j) :
    StartsTogether hasher settings l ↔ Creatable hasher settings := by
  obtain ⟨hfirst, hsecond⟩ := (seedings hasher settings).replies_of_follows (s := .empty) h hne
  have hshared := (seedings hasher settings).shared_of_follows (s := .empty) h hne
  constructor
  · rintro ⟨hfinished, -, -, -⟩
    obtain ⟨s, hs⟩ := answer_eq_some.mp (hfirst.symm.trans (hfinished i))
    obtain ⟨users, adminId, hok, -⟩ := seed_eq_ok System.named_empty hs
    obtain ⟨-, hcreatable⟩ := (seedAdmin_isOk System.named_empty.db.accounts.users).mp ⟨_, hok⟩
    exact hcreatable fun u hu => absurd hu (Table.notMem_empty u)
  · intro hcreatable
    obtain ⟨s, hs, hcomplete, huntouched, hagain⟩ :=
      (seedsOnce_iff System.named_empty).mpr (adminIntact_empty.mpr hcreatable)
    have hresult : (seedings hasher settings).result i .empty .empty = s := result_eq hs
    rw [hresult] at hsecond hshared
    have hend : ((seedings hasher settings).play .empty l).shared = s := hshared.trans (result_eq hagain)
    refine ⟨fun k => ?_, by rwa [hend], by rwa [hend], by rwa [hend]⟩
    have hone : ((seedings hasher settings).play .empty l).reply i = some () :=
      hfirst.trans (answer_eq_some.mpr ⟨s, hs⟩)
    have htwo : ((seedings hasher settings).play .empty l).reply j = some () :=
      hsecond.trans (answer_eq_some.mpr ⟨s, hagain⟩)
    -- there are only two workers
    have hk : k = i ∨ k = j := by
      cases i <;> cases j <;> cases k <;> simp at hne ⊢
    rcases hk with rfl | rfl
    · exact hone
    · exact htwo

theorem not_startsTogether_of_overlaps (h : Overlaps i j l) (hne : i ≠ j) : ¬StartsTogether hasher settings l := by
  rintro ⟨hfinished, -, -, -⟩
  obtain ⟨hfirst, hsecond⟩ := (seedings hasher settings).replies_of_overlaps (s := .empty) h hne
  obtain ⟨s, hs⟩ := answer_eq_some.mp (hfirst.symm.trans (hfinished i))
  obtain ⟨users, adminId, -, hseeded⟩ := seed_eq_ok System.named_empty hs
  have hresult : (seedings hasher settings).result i .empty .empty = s := result_eq hs
  rw [hresult] at hsecond
  obtain ⟨s', hs'⟩ := answer_eq_some.mp (hsecond.symm.trans (hfinished j))
  obtain ⟨role, hrole, hcode, -⟩ := hseeded.userRoles
  exact seedOver_empty_clash ⟨role, hrole, hcode⟩ hs'

theorem startsTogether_iff (h : Interleaving .one .two l) :
    StartsTogether hasher settings l ↔ Serial .one .two l ∧ Creatable hasher settings := by
  rcases interleaving_cases h with hserial | hover | hover
  · rw [and_iff_right hserial]
    rcases hserial with hfollows | hfollows
    · exact startsTogether_of_follows hfollows (by decide)
    · exact startsTogether_of_follows hfollows (by decide)
  · exact iff_of_false (not_startsTogether_of_overlaps hover (by decide)) fun hserial => hover.not_serial hserial.1
  · exact iff_of_false (not_startsTogether_of_overlaps hover (by decide)) fun hserial => hover.not_serial hserial.1

end

namespace Sample

def seedSettings : SeedSettings := ⟨"admin", "admin123456"⟩

/-- The administrator is given the role of an operator too. -/
def moreRoles : UserUpdate where
  password := none
  nickname := none
  email := none
  phone := none
  status := none
  roleIds := some (some [1, 2])
  password_length := nofun
  nickname_length := nofun
  email_length := nofun
  phone_length := nofun
  status_range := nofun

def adminPromoted : System :=
  run (perform bcrypt Library.upper) .empty [.start seedSettings, .request (.updateUser 1 moreRoles)]

def adminDeleted : System :=
  run (perform bcrypt Library.upper) .empty [.start seedSettings, .request (.deleteUser 0 1)]

def overlapping : List (Phase Worker) := [.read .one, .read .two, .commit .one, .commit .two]

end Sample

end OpsMonitor.Management
