import OpsMonitor.Management.Accounts

/-! When creating and updating a user ends with an answer. The checks of the service look at the
users that are not deleted and at emails that are not empty, the unique keys at every row. -/

namespace OpsMonitor.Management
open Library

section Answers
universe u
variable {α β : Type u}

/-- The request is committed, or refused by the application itself. -/
def Answered (result : Except Failure α) : Prop :=
  (∃ a, result = .ok a) ∨ ∃ e, result = .error (.app e)

@[simp] theorem answered_ok (a : α) : Answered (.ok a : Except Failure α) := .inl ⟨a, rfl⟩

@[simp] theorem answered_pure (a : α) : Answered (pure a : Except Failure α) := .inl ⟨a, rfl⟩

@[simp] theorem answered_app (e : AppException) : Answered (.error (.app e) : Except Failure α) :=
  .inr ⟨e, rfl⟩

@[simp] theorem answered_error {f : Failure} :
    Answered (.error f : Except Failure α) ↔ ∃ e, f = .app e := by
  simp [Answered]

theorem answered_bind {x : Except Failure α} {f : α → Except Failure β} :
    Answered (x >>= f) ↔ (∃ e, x = .error (.app e)) ∨ ∃ a, x = .ok a ∧ Answered (f a) := by
  cases x <;> simp [Answered, bind, Except.bind]

/-- A step that the application does not refuse. -/
theorem answered_bind_of_ne {x : Except Failure α} {f : α → Except Failure β}
    (h : ∀ e, x ≠ .error (.app e)) : Answered (x >>= f) ↔ ∃ a, x = .ok a ∧ Answered (f a) := by
  rw [answered_bind]
  exact or_iff_right fun ⟨e, he⟩ => h e he

variable {ρ : Type*} [Keyed ρ] {sc : Schema ρ Failure} {t : Table ρ}

/-- The errors of a table are errors of the database. -/
def Unhandled (sc : Schema ρ Failure) : Prop :=
  (∀ r e, sc.column r ≠ some (.app e)) ∧ ∀ u ∈ sc.unique, ∀ e, u.error ≠ .app e

theorem Unhandled.refuse_ne (h : Unhandled sc) (r : ρ) (e : AppException) :
    sc.refuse t r ≠ some (.app e) := by
  intro hrefuse
  rcases Schema.refuse_eq_some hrefuse with hcolumn | ⟨u, hu, herror⟩
  · exact h.1 r e hcolumn
  · exact h.2 u hu e herror

theorem Unhandled.insert_ne (h : Unhandled sc) (a : ρ) (e : AppException) :
    sc.insert t a ≠ .error (.app e) :=
  fun hinsert => h.refuse_ne _ e (Schema.insert_eq_error.mp hinsert)

theorem Unhandled.modify_ne (h : Unhandled sc) {k : ℕ} {f : ρ → ρ}
    {hf : ∀ r, Keyed.key (f r) = Keyed.key r} (e : AppException) :
    sc.modify t k f hf ≠ .error (.app e) := fun hmodify =>
  have ⟨_, _, _, hrefuse⟩ := Schema.modify_eq_error.mp hmodify
  h.refuse_ne _ e hrefuse

end Answers

/-! ## Reading -/

section Reading
variable {users : Table SysUser} {roles : Table SysRole} {user : SysUser}

theorem getByUsername_isSome {username : String} : (getByUsername users username).isSome ↔
    ∃ u ∈ users, u.username = username ∧ u.deletedAt = none := by
  rw [getByUsername, Table.isSome_head?_select]
  simp

theorem getByEmail_isSome {email : Option String} : (getByEmail users email).isSome ↔
    ∃ u ∈ users, u.email = email ∧ u.deletedAt = none := by
  rw [getByEmail, Table.isSome_head?_select]
  simp

theorem getUser_eq_ok {userId : ℕ} : getUser users userId = .ok user ↔
    user ∈ users ∧ user.id = userId ∧ user.deletedAt = none := by
  unfold getUser
  cases hget : users.get? userId with
  | none =>
    have hno := Table.get?_eq_none.mp hget
    simp only [reduceCtorEq, false_iff]
    exact fun h => hno user h.1 h.2.1
  | some u =>
    obtain ⟨hu, hid⟩ := Table.get?_eq_some.mp hget
    constructor
    · intro h
      dsimp only at h
      split_ifs at h with hdeleted
      obtain rfl := Except.ok.inj h
      exact ⟨hu, hid, hdeleted⟩
    · rintro ⟨huser, huid, hdeleted⟩
      obtain rfl := Table.eq_of_key_eq hu huser (hid.trans huid.symm)
      simp [hdeleted]

theorem getUser_answered (userId : ℕ) : Answered (getUser users userId) := by
  unfold getUser
  cases users.get? userId with
  | none => simp
  | some u =>
    dsimp only
    split_ifs <;> simp

theorem getRole_eq_none {roleId : ℤ} :
    getRole roles roleId = none ↔ ∀ role ∈ roles, (role.id : ℤ) ≠ roleId := by
  rw [getRole, Table.head?_select_eq_none]
  simp

theorem validateRoles_answered (roleIds : List ℤ) : Answered (validateRoles roles roleIds) := by
  unfold validateRoles
  split <;> simp

theorem getRole_ne_none {roleId : ℤ} :
    getRole roles roleId ≠ none ↔ ∃ role ∈ roles, (role.id : ℤ) = roleId := by
  rw [ne_eq, getRole_eq_none]
  push Not
  rfl

theorem validateRoles_eq_error {roleIds : List ℤ} {id : ℤ} (hid : id ∈ roleIds)
    (hnone : getRole roles id = none) : ∃ e, validateRoles roles roleIds = .error (.app e) := by
  unfold validateRoles
  cases hfind : roleIds.find? fun id => (getRole roles id).isNone with
  | none =>
    have hall := List.find?_eq_none.mp hfind id hid
    simp [hnone] at hall
  | some id => exact ⟨_, rfl⟩

theorem validateRoles_eq_ok {roleIds : List ℤ} : validateRoles roles roleIds = .ok () ↔
    ∀ id ∈ roleIds, getRole roles id ≠ none := by
  constructor
  · intro h id hid hnone
    obtain ⟨e, he⟩ := validateRoles_eq_error hid hnone
    rw [h] at he
    cases he
  · intro h
    have hfind : (roleIds.find? fun id => (getRole roles id).isNone) = none := by
      simpa using h
    rw [validateRoles, hfind]

end Reading

/-! ## The links between users and roles -/

section Links
variable {db : Accounts} {userId : ℕ}

theorem addUserRole_eq_ok {roleId : ℤ} (huser : ∃ user ∈ db.users, user.id = userId)
    (hrole : ∃ role ∈ db.roles, (role.id : ℤ) = roleId)
    (hnew : ⟨userId, roleId.toNat⟩ ∉ db.userRoles) :
    addUserRole db userId roleId =
      .ok { db with userRoles := db.userRoles ++ [⟨userId, roleId.toNat⟩] } := by
  obtain ⟨role, hmem, rfl⟩ := hrole
  have hpos : ¬(role.id : ℤ) < 0 := by omega
  have hfk : ∃ r ∈ db.roles, r.id = (role.id : ℤ).toNat := ⟨role, hmem, by simp⟩
  rw [addUserRole, if_neg hpos, if_neg hnew, if_neg (not_not.mpr huser), if_neg (not_not.mpr hfk)]

/-- Links to different roles that exist are inserted one after the other. -/
theorem addUserRoles_eq_ok {roleIds : List ℤ} (huser : ∃ user ∈ db.users, user.id = userId)
    (hroles : ∀ id ∈ roleIds, ∃ role ∈ db.roles, (role.id : ℤ) = id) (hnodup : roleIds.Nodup)
    (hnew : ∀ link ∈ db.userRoles, link.userId ≠ userId ∨ (link.roleId : ℤ) ∉ roleIds) :
    roleIds.foldlM (fun db roleId => addUserRole db userId roleId) db =
      .ok { db with userRoles := db.userRoles ++ roleIds.map fun id => ⟨userId, id.toNat⟩ } := by
  induction roleIds generalizing db with
  | nil => simp [pure, Except.pure]
  | cons id ids ih =>
    obtain ⟨hid, hnodup⟩ := List.nodup_cons.mp hnodup
    have hrole := hroles id List.mem_cons_self
    have hnonneg : ((id.toNat : ℕ) : ℤ) = id := by
      obtain ⟨role, -, rfl⟩ := hrole
      simp
    have hfresh : (⟨userId, id.toNat⟩ : SysUserRole) ∉ db.userRoles := by
      intro hmem
      rcases hnew _ hmem with h | h
      · exact h rfl
      · exact h (hnonneg ▸ List.mem_cons_self)
    have hrest : ∀ link ∈ db.userRoles ++ [(⟨userId, id.toNat⟩ : SysUserRole)],
        link.userId ≠ userId ∨ (link.roleId : ℤ) ∉ ids := by
      intro link hlink
      rcases List.mem_append.mp hlink with hlink | hlink
      · exact (hnew link hlink).imp_right fun h hmem => h (List.mem_cons_of_mem _ hmem)
      · obtain rfl := List.mem_singleton.mp hlink
        exact .inr (hnonneg.symm ▸ hid)
    rw [List.foldlM_cons, addUserRole_eq_ok huser hrole hfresh]
    have hfold := @ih { db with userRoles := db.userRoles ++ [⟨userId, id.toNat⟩] } huser
      (fun i hi => hroles i (List.mem_cons_of_mem _ hi)) hnodup hrest
    refine hfold.trans ?_
    simp

/-- The new links of a user: those of the others stay, and no constraint is in the way. -/
theorem setRoles_eq_ok {roleIds : List ℤ} (huser : ∃ user ∈ db.users, user.id = userId)
    (hroles : ∀ id ∈ roleIds, ∃ role ∈ db.roles, (role.id : ℤ) = id) :
    setRoles db userId roleIds = .ok { db with
      userRoles := (db.userRoles.filter fun link => link.userId ≠ userId) ++
        (roleIds.dedup.map fun id => ⟨userId, id.toNat⟩) } := by
  unfold setRoles
  refine addUserRoles_eq_ok huser (fun id hid => hroles id (List.mem_dedup.mp hid))
    (List.nodup_dedup roleIds) fun link hlink => .inl ?_
  simpa using (List.mem_filter.mp hlink).2

end Links

/-! ## The constraints on users -/

section Constraints
variable {users : Table SysUser} {user : SysUser}

theorem SysUser.overflow_eq_none : user.overflow = none ↔ user.username.length ≤ 64 ∧
    user.passwordHash.length ≤ 255 ∧ (∀ s ∈ user.nickname, s.length ≤ 64) ∧
      (∀ s ∈ user.email, s.length ≤ 128) ∧ ∀ s ∈ user.phone, s.length ≤ 32 := by
  unfold SysUser.overflow
  split_ifs with husername hhash hnickname hemail hphone
  · simp [not_le.mpr husername]
  · simp [not_le.mpr hhash]
  · simpa using fun _ _ h => absurd hnickname (by simpa using h)
  · simpa using fun _ _ _ h => absurd hemail (by simpa using h)
  · simpa using fun _ _ _ _ => hphone
  · simp only [not_exists, not_and, not_lt] at husername hhash hnickname hemail hphone
    simp only [true_iff]
    exact ⟨husername, hhash, hnickname, hemail, hphone⟩

/-- No other row has the name, and none has the email, deleted or not. -/
theorem userSchema_clash_eq_none : userSchema.clash users user = none ↔
    (∀ u ∈ users, u.username = user.username → u.id = user.id) ∧
      ∀ s ∈ user.email, ∀ u ∈ users, u.email = some s → u.id = user.id := by
  rw [Schema.clash_eq_none]
  simp only [userSchema, List.forall_mem_cons, ukSysUserUsername, ukSysUserEmail,
    decide_eq_true_eq, List.not_mem_nil, false_imp_iff, implies_true, and_true, and_imp]
  refine and_congr (forall₂_congr fun u _ => imp_congr eq_comm Iff.rfl) ?_
  constructor
  · intro h s hs u hu he
    rw [Option.mem_def] at hs
    exact h u hu (by rw [hs]; rfl) (hs.trans he.symm)
  · intro h u hu hsome he
    obtain ⟨s, hs⟩ := Option.isSome_iff_exists.mp hsome
    exact h s hs u hu (he.symm.trans hs)

end Constraints

/-! ## Creating a user -/

section Create
variable {hasher : PasswordHasher} {db db' : Accounts} {data : UserCreate}

/-- What the service itself refuses. -/
def UserCreate.Refused (db : Accounts) (data : UserCreate) : Prop :=
  (getByUsername db.users data.username).isSome ∨
    (truthy data.email ∧ (getByEmail db.users data.email).isSome) ∨
      ∃ id ∈ data.roleIds, getRole db.roles id = none

/-- No user has the name or the email: no user that was deleted either, and the empty email counts
like any other. -/
def UserCreate.Unused (db : Accounts) (data : UserCreate) : Prop :=
  ∀ u ∈ db.users, u.username ≠ data.username ∧ ∀ s ∈ data.email, u.email ≠ some s

def UserCreate.Clean (hasher : PasswordHasher) (db : Accounts) (data : UserCreate) : Prop :=
  data.Refused db ∨ (hasher.hash data.password).isSome ∧ data.Unused db

theorem userSchema_unhandled : Unhandled userSchema := by
  refine ⟨fun user e h => ?_, ?_⟩
  · simp only [userSchema, SysUser.overflow] at h
    split_ifs at h <;> simp at h
  · simp [userSchema, ukSysUserUsername, ukSysUserEmail]

theorem newUser_overflow {passwordHash : String}
    (h : hasher.hash data.password = some passwordHash) :
    (newUser data passwordHash).overflow = none :=
  SysUser.overflow_eq_none.mpr ⟨data.username_length.2, hasher.hash_length _ _ h,
    data.nickname_length, data.email_length, data.phone_length⟩

theorem newUser_insert_eq_ok {passwordHash : String} {users : Table SysUser}
    (h : hasher.hash data.password = some passwordHash) :
    userSchema.insert db.users (newUser data passwordHash) = .ok users ↔
      data.Unused db ∧ users = db.users.insert (newUser data passwordHash) := by
  rw [Schema.insert_eq_ok, Schema.refuse_eq_none, userSchema_clash_eq_none]
  refine and_congr_left fun _ => ?_
  have hfresh : ∀ u ∈ db.users, u.id ≠ db.users.next := fun u hu => (Table.key_lt hu).ne
  constructor
  · rintro ⟨-, husername, hemail⟩ u hu
    exact ⟨fun hname => hfresh u hu (husername u hu hname),
      fun s hs he => hfresh u hu (hemail s hs u hu he)⟩
  · intro hunused
    exact ⟨newUser_overflow h, fun u hu hname => absurd hname (hunused u hu).1,
      fun s hs u hu he => absurd he ((hunused u hu).2 s hs)⟩

theorem createUser_of_refused (h : data.Refused db) :
    ∃ e, createUser hasher db data = .error (.app e) := by
  unfold createUser
  by_cases husername : (getByUsername db.users data.username).isSome
  · exact ⟨_, if_pos husername⟩
  by_cases hemail : truthy data.email && (getByEmail db.users data.email).isSome
  · exact ⟨_, (if_neg husername).trans (if_pos hemail)⟩
  have hroles : ∃ e, validateRoles db.roles data.roleIds = .error (.app e) := by
    rw [Bool.and_eq_true] at hemail
    obtain ⟨id, hid, hnone⟩ := (h.resolve_left husername).resolve_left hemail
    exact validateRoles_eq_error hid hnone
  obtain ⟨e, he⟩ := hroles
  exact ⟨e, by rw [if_neg husername, if_neg hemail, he]; rfl⟩

theorem createUser_of_not_refused (h : ¬data.Refused db) :
    createUser hasher db data = insertUser hasher db data := by
  simp only [UserCreate.Refused, not_or, not_exists, not_and] at h
  obtain ⟨husername, hemail, hroles⟩ := h
  have hok : validateRoles db.roles data.roleIds = .ok () :=
    validateRoles_eq_ok.mpr hroles
  rw [createUser, if_neg husername, if_neg (by simpa using hemail), hok]
  rfl

/-- After the checks only the password, the name and the email are in the way. -/
theorem insertUser_answered (hroles : ∀ id ∈ data.roleIds, getRole db.roles id ≠ none) :
    Answered (insertUser hasher db data) ↔
      (hasher.hash data.password).isSome ∧ data.Unused db := by
  unfold insertUser hashPassword
  cases hhash : hasher.hash data.password with
  | none => simp [answered_bind]
  | some passwordHash =>
    have hwrite : ∀ users, users = db.users.insert (newUser data passwordHash) →
        Answered (if data.roleIds = [] then pure { db with users := users }
          else setRoles { db with users := users } db.users.next data.roleIds) := by
      rintro users rfl
      split_ifs
      · simp
      · refine .inl ⟨_, setRoles_eq_ok ⟨_, Table.mem_insert.mpr (.inr rfl), rfl⟩ ?_⟩
        exact fun id hid => getRole_ne_none.mp (hroles id hid)
    simp only [answered_bind, reduceCtorEq, exists_false, false_or, Except.ok.injEq,
      exists_eq_left', userSchema_unhandled.insert_ne, newUser_insert_eq_ok hhash,
      Option.isSome_some, true_and]
    constructor
    · rintro ⟨users, ⟨hunused, -⟩, -⟩
      exact hunused
    · exact fun hunused => ⟨_, ⟨hunused, rfl⟩, hwrite _ rfl⟩

theorem createUser_answered_iff : Answered (createUser hasher db data) ↔ data.Clean hasher db := by
  by_cases h : data.Refused db
  · obtain ⟨e, he⟩ := @createUser_of_refused hasher db data h
    simp [he, UserCreate.Clean, h]
  have hroles : ∀ id ∈ data.roleIds, getRole db.roles id ≠ none := by
    simp only [UserCreate.Refused, not_or, not_exists, not_and] at h
    exact h.2.2
  rw [createUser_of_not_refused h, insertUser_answered hroles, UserCreate.Clean, or_iff_right h]

end Create

/-! ## Updating a user -/

section Update
variable {hasher : PasswordHasher} {db db' : Accounts} {user : SysUser} {data : UserUpdate}

def UserUpdate.Refused (db : Accounts) (user : SysUser) (data : UserUpdate) : Prop :=
  emailTaken db.users user data.email.join ∨
    ∃ id ∈ data.roleIds.join.getD [], getRole db.roles id = none

/-- The status is not set to `NULL`, and no other user has the new email, deleted or not, the empty
email included. -/
def UserUpdate.Writable (db : Accounts) (user : SysUser) (data : UserUpdate) : Prop :=
  data.status ≠ some none ∧
    ∀ s ∈ data.email.join, ∀ u ∈ db.users, u.email = some s → u.id = user.id

def UserUpdate.Clean (hasher : PasswordHasher) (db : Accounts) (userId : ℕ) (data : UserUpdate) :
    Prop :=
  ∀ user, getUser db.users userId = .ok user →
    (∀ password ∈ data.password.join, (hasher.hash password).isSome) ∧
      (data.Refused db user ∨ data.Writable db user)

theorem newHash_eq_ok {passwordHash : String} (h : newHash hasher user data.password.join =
    .ok passwordHash) (huser : user.passwordHash.length ≤ 255) : passwordHash.length ≤ 255 := by
  unfold newHash hashPassword at h
  cases hpassword : data.password.join with
  | none =>
    rw [hpassword] at h
    rwa [← Except.ok.inj h]
  | some password =>
    rw [hpassword] at h
    dsimp only at h
    split_ifs at h with hempty
    · rwa [← Except.ok.inj h]
    · cases hhash : hasher.hash password with
      | none => simp [hhash] at h
      | some s =>
        rw [hhash] at h
        rw [← Except.ok.inj h]
        exact hasher.hash_length _ _ hhash

theorem newHash_isOk : (∃ passwordHash, newHash hasher user data.password.join = .ok passwordHash) ↔
    ∀ password ∈ data.password.join, (hasher.hash password).isSome := by
  unfold newHash hashPassword
  cases hpassword : data.password.join with
  | none => simp
  | some password =>
    have hne : password ≠ "" := by
      rintro rfl
      exact absurd (data.password_length _ hpassword).1 (by decide)
    cases hhash : hasher.hash password <;> simp [hne, hhash]

theorem newStatus_isOk {status : Option (Option ℕ)} :
    (∃ n, newStatus user status = .ok n) ↔ status ≠ some none := by
  unfold newStatus
  split <;> simp

theorem newStatus_ne {status : Option (Option ℕ)} (e : AppException) :
    newStatus user status ≠ .error (.app e) := by
  unfold newStatus
  split <;> simp

theorem newHash_ne (e : AppException) :
    newHash hasher user data.password.join ≠ .error (.app e) := by
  unfold newHash hashPassword
  split
  · split_ifs
    · simp
    · split <;> simp
  · simp

theorem updated_overflow {passwordHash : String} {status : ℕ} (huser : user.overflow = none)
    (hhash : passwordHash.length ≤ 255) :
    (user.updated data passwordHash status).overflow = none := by
  obtain ⟨husername, -, hnickname, hemail, hphone⟩ := SysUser.overflow_eq_none.mp huser
  -- a field that the request does not name keeps a value that fits already
  have hgetD : ∀ {n : ℕ} {old : Option String} {new : Option (Option String)},
      (∀ s ∈ old, s.length ≤ n) → (∀ s ∈ new.join, s.length ≤ n) → ∀ s ∈ new.getD old, s.length ≤ n := by
    intro n old new hold hnew
    cases new with
    | none => exact hold
    | some value => exact hnew
  exact SysUser.overflow_eq_none.mpr ⟨husername, hhash, hgetD hnickname data.nickname_length,
    hgetD hemail data.email_length, hgetD hphone data.phone_length⟩

/-- The email of the row that is written is free when the new one is. -/
theorem updated_clash (hdb : db.Consistent) (huser : user ∈ db.users) {passwordHash : String}
    {status : ℕ} : userSchema.clash db.users (user.updated data passwordHash status) = none ↔
      ∀ s ∈ data.email.join, ∀ u ∈ db.users, u.email = some s → u.id = user.id := by
  have hold := (Schema.refuse_eq_none.mp (hdb.users.refuse_of_mem huser)).2
  obtain ⟨husername, hemail⟩ := userSchema_clash_eq_none.mp hold
  rw [userSchema_clash_eq_none]
  refine (and_iff_right husername).trans ?_
  change (∀ s ∈ data.email.getD user.email, _) ↔ _
  cases data.email with
  | none => exact iff_of_true hemail (by simp)
  | some email => exact Iff.rfl

theorem writeUser_answered (hdb : db.Consistent) (huser : user ∈ db.users) {passwordHash : String}
    (hhash : passwordHash.length ≤ 255)
    (hroles : ∀ id ∈ data.roleIds.join.getD [], getRole db.roles id ≠ none) :
    Answered (writeUser db user data passwordHash) ↔ data.Writable db user := by
  have hoverflow : ∀ status, (user.updated data passwordHash status).overflow = none :=
    fun _ => updated_overflow (hdb.users.column user huser) hhash
  have hupdate : ∀ status users, userSchema.modify db.users user.id
      (·.updated data passwordHash status) (fun u => u.key_updated data passwordHash status) =
        .ok users ↔
        (∀ s ∈ data.email.join, ∀ u ∈ db.users, u.email = some s → u.id = user.id) ∧
          users = db.users.modify user.id (·.updated data passwordHash status)
            fun u => u.key_updated data passwordHash status := by
    intro status users
    refine (Schema.modify_key_eq_ok huser).trans (and_congr_left fun _ => ?_)
    rw [Schema.refuse_eq_none, updated_clash hdb huser]
    exact and_iff_right (hoverflow status)
  have hwrite : ∀ status users,
      users = db.users.modify user.id (·.updated data passwordHash status)
        (fun u => u.key_updated data passwordHash status) →
        Answered (data.roleIds.join.elim (pure { db with users := users })
          (setRoles { db with users := users } user.id)) := by
    rintro status users rfl
    cases hids : data.roleIds.join with
    | none => simp
    | some roleIds =>
      rw [hids] at hroles
      have hmem := Schema.mem_modify_key
        (fun u => SysUser.key_updated u data passwordHash status) huser
      refine .inl ⟨_, setRoles_eq_ok ⟨_, hmem, rfl⟩ fun id hid => ?_⟩
      exact getRole_ne_none.mp (hroles id hid)
  have hstep : ∀ status, Answered (do
      let users ← userSchema.modify db.users user.id (·.updated data passwordHash status)
        fun u => u.key_updated data passwordHash status
      data.roleIds.join.elim (pure { db with users := users })
        (setRoles { db with users := users } user.id)) ↔
        ∀ s ∈ data.email.join, ∀ u ∈ db.users, u.email = some s → u.id = user.id := by
    intro status
    rw [answered_bind_of_ne fun e => userSchema_unhandled.modify_ne e]
    constructor
    · rintro ⟨users, hok, -⟩
      exact ((hupdate status users).mp hok).1
    · exact fun hemail => ⟨_, (hupdate status _).mpr ⟨hemail, rfl⟩, hwrite status _ rfl⟩
  have hwritten : writeUser db user data passwordHash = (do
      let status ← newStatus user data.status
      let users ← userSchema.modify db.users user.id (·.updated data passwordHash status)
        fun u => u.key_updated data passwordHash status
      data.roleIds.join.elim (pure { db with users := users })
        (setRoles { db with users := users } user.id)) := by
    unfold writeUser
    cases data.roleIds.join <;> rfl
  rw [hwritten, UserUpdate.Writable, answered_bind_of_ne newStatus_ne]
  constructor
  · rintro ⟨status, hstatus, hanswered⟩
    exact ⟨newStatus_isOk.mp ⟨status, hstatus⟩, (hstep status).mp hanswered⟩
  · rintro ⟨hnull, hemail⟩
    obtain ⟨status, hstatus⟩ := (@newStatus_isOk user _).mpr hnull
    exact ⟨status, hstatus, (hstep status).mpr hemail⟩

theorem updateUser_answered_iff (hdb : db.Consistent) {userId : ℕ} :
    Answered (updateUser hasher db userId data) ↔ data.Clean hasher db userId := by
  unfold updateUser UserUpdate.Clean
  rcases @getUser_answered db.users userId with ⟨user, hget⟩ | ⟨e, hget⟩
  · have huser := (getUser_eq_ok.mp hget).1
    have hchecks : ∀ passwordHash, newHash hasher user data.password.join = .ok passwordHash →
        (Answered (if emailTaken db.users user data.email.join then
          .error (.app ⟨.emailExists, "邮箱已被使用", 409⟩)
        else do
          validateRoles db.roles (data.roleIds.join.getD [])
          writeUser db user data passwordHash) ↔
            data.Refused db user ∨ data.Writable db user) := by
      intro passwordHash hhash
      by_cases hemail : emailTaken db.users user data.email.join
      · simp [hemail, UserUpdate.Refused]
      rw [if_neg hemail]
      by_cases hroles : ∃ id ∈ data.roleIds.join.getD [], getRole db.roles id = none
      · obtain ⟨id, hid, hnone⟩ := hroles
        obtain ⟨e, he⟩ := validateRoles_eq_error hid hnone
        exact iff_of_true (by simp [answered_bind, he]) (.inl (.inr ⟨id, hid, hnone⟩))
      · have hrefused : ¬data.Refused db user := not_or.mpr ⟨hemail, hroles⟩
        push Not at hroles
        have hlength := newHash_eq_ok hhash
          (SysUser.overflow_eq_none.mp (hdb.users.column user huser)).2.1
        rw [validateRoles_eq_ok.mpr hroles, or_iff_right hrefused,
          ← writeUser_answered hdb huser hlength hroles]
        rfl
    rw [hget]
    change Answered (newHash hasher user data.password.join >>= _) ↔ _
    rw [answered_bind_of_ne newHash_ne]
    simp only [Except.ok.injEq, forall_eq', ← @newHash_isOk hasher user]
    constructor
    · rintro ⟨passwordHash, hhash, h⟩
      exact ⟨⟨passwordHash, hhash⟩, (hchecks passwordHash hhash).mp h⟩
    · rintro ⟨⟨passwordHash, hhash⟩, h⟩
      exact ⟨passwordHash, hhash, (hchecks passwordHash hhash).mpr h⟩
  · simp [answered_bind, hget]

end Update

/-! ## The constraints hold after every request -/

section Consistency
variable {hasher : PasswordHasher} {db db' : Accounts} {userId : ℕ}

theorem Accounts.Consistent.addUserRole (h : db.Consistent) {roleId : ℤ}
    (hok : addUserRole db userId roleId = .ok db') : db'.Consistent := by
  unfold Management.addUserRole at hok
  split_ifs at hok with hnegative hnew huser hrole
  obtain rfl := Except.ok.inj hok
  have hlinks : ∀ link ∈ db.userRoles ++ [⟨userId, roleId.toNat⟩],
      link ∈ db.userRoles ∨ link = ⟨userId, roleId.toNat⟩ := by simp
  refine ⟨h.users, List.nodup_append.mpr ⟨h.userRoles_nodup, List.nodup_singleton _, ?_⟩, ?_, ?_⟩
  · rintro a ha b hb rfl
    exact hnew (List.mem_singleton.mp hb ▸ ha)
  · intro link hlink
    rcases hlinks link hlink with hlink | rfl
    · exact h.fkUser link hlink
    · exact huser
  · intro link hlink
    rcases hlinks link hlink with hlink | rfl
    · exact h.fkRole link hlink
    · exact hrole

theorem Accounts.Consistent.setRoles (h : db.Consistent) {roleIds : List ℤ}
    (hok : setRoles db userId roleIds = .ok db') : db'.Consistent := by
  have hloop : ∀ (ids : List ℤ) (db : Accounts), db.Consistent →
      ids.foldlM (fun db roleId => Management.addUserRole db userId roleId) db = .ok db' →
        db'.Consistent := by
    intro ids
    induction ids with
    | nil =>
      intro db h hok
      obtain rfl := pure_eq_ok.mp hok
      exact h
    | cons id ids ih =>
      intro db h hok
      rw [List.foldlM_cons] at hok
      obtain ⟨db₁, hadd, hok⟩ := bind_eq_ok.mp hok
      exact ih db₁ (h.addUserRole hadd) hok
  refine hloop roleIds.dedup _ ?_ hok
  exact ⟨h.users, h.userRoles_nodup.filter _, fun link hlink => h.fkUser link (List.mem_of_mem_filter hlink),
    fun link hlink => h.fkRole link (List.mem_of_mem_filter hlink)⟩

/-- Users are added and changed, none disappears. -/
theorem Accounts.Consistent.withUsers (h : db.Consistent) {users : Table SysUser}
    (husers : userSchema.Consistent users)
    (hkeep : ∀ user ∈ db.users, ∃ user' ∈ users, user'.id = user.id) :
    ({ db with users := users } : Accounts).Consistent := by
  refine ⟨husers, h.userRoles_nodup, fun link hlink => ?_, h.fkRole⟩
  obtain ⟨user, huser, hid⟩ := h.fkUser link hlink
  obtain ⟨user', huser', hid'⟩ := hkeep user huser
  exact ⟨user', huser', hid'.trans hid⟩

theorem modify_keeps {users : Table SysUser} {id : ℕ} {f : SysUser → SysUser}
    (hf : ∀ u, Keyed.key (f u) = Keyed.key u) :
    ∀ user ∈ users, ∃ user' ∈ users.modify id f hf, user'.id = user.id := by
  intro user huser
  refine ⟨_, Table.mem_modify.mpr ⟨user, huser, rfl⟩, ?_⟩
  split_ifs
  · exact hf user
  · rfl

theorem Accounts.Consistent.createUser (h : db.Consistent) {data : UserCreate}
    (hok : createUser hasher db data = .ok db') : db'.Consistent := by
  unfold Management.createUser insertUser at hok
  split_ifs at hok with husername hemail hnil
  all_goals
    obtain ⟨-, -, hok⟩ := bind_eq_ok.mp hok
    obtain ⟨passwordHash, -, hok⟩ := bind_eq_ok.mp hok
    obtain ⟨users, hinsert, hok⟩ := bind_eq_ok.mp hok
    have hkeep : ∀ user ∈ db.users, ∃ user' ∈ users, user'.id = user.id := by
      intro user huser
      obtain rfl := (Schema.insert_eq_ok.mp hinsert).2
      exact ⟨user, Table.mem_insert.mpr (.inl huser), rfl⟩
    have hwith := h.withUsers (h.users.insert hinsert) hkeep
  · rwa [← pure_eq_ok.mp hok]
  · exact hwith.setRoles hok

theorem Accounts.Consistent.updateUser (h : db.Consistent) {data : UserUpdate}
    (hok : updateUser hasher db userId data = .ok db') : db'.Consistent := by
  unfold Management.updateUser writeUser at hok
  obtain ⟨user, -, hok⟩ := bind_eq_ok.mp hok
  obtain ⟨passwordHash, -, hok⟩ := bind_eq_ok.mp hok
  split_ifs at hok with hemail
  obtain ⟨-, -, hok⟩ := bind_eq_ok.mp hok
  obtain ⟨status, -, hok⟩ := bind_eq_ok.mp hok
  obtain ⟨users, hmodify, hok⟩ := bind_eq_ok.mp hok
  have hkeep : ∀ user ∈ db.users, ∃ user' ∈ users, user'.id = user.id := by
    obtain rfl := (Schema.modify_eq_ok.mp hmodify).2
    exact modify_keeps _
  have hwith := h.withUsers (h.users.modify hmodify) hkeep
  cases hids : data.roleIds.join with
  | none =>
    rw [hids] at hok
    rwa [← pure_eq_ok.mp hok]
  | some roleIds =>
    rw [hids] at hok
    exact hwith.setRoles hok

theorem Accounts.Consistent.deleteUser (h : db.Consistent) {now : Time}
    (hok : deleteUser db now userId = .ok db') : db'.Consistent := by
  obtain ⟨user, hget, hok⟩ := bind_eq_ok.mp hok
  rw [← pure_eq_ok.mp hok]
  -- deletion leaves the columns with a length and the unique keys alone
  refine h.withUsers (h.users.update (fun r hr => ?_) fun u hu r s => ?_) (modify_keeps _)
  · have hcolumn := h.users.column r hr
    split_ifs <;> exact hcolumn
  · obtain rfl | rfl : u = ukSysUserUsername ∨ u = ukSysUserEmail := by
      simpa [userSchema] using hu
    all_goals split_ifs <;> rfl

end Consistency

end OpsMonitor.Management
