import OpsMonitor.Management.Seeding

/-! Logins, access tokens and what they open (`core/security.py`, `services/auth_service.py`,
`api/v1/deps.py`). A token names its user and an end; everything else is looked up at each request. -/

namespace OpsMonitor.Management
open Library

/-! ## Tokens -/

/-- The payload of an access token, its times in whole seconds. -/
structure Claims where
  sub : String
  iat : ℤ
  exp : ℤ

/-- PyJWT with the key of the platform: what `encode` made is decoded from its first second to its last. -/
structure Jwt where
  encode : Claims → String
  decode : Time → String → Option Claims
  decode_encode : ∀ now claims, decode now (encode claims) =
    if 1000 * claims.iat ≤ now ∧ now < 1000 * claims.exp then some claims else none

/-- The password library, which raises for some passwords. -/
structure PasswordLibrary extends PasswordHasher where
  verify : String → String → Option Bool

structure Auth where
  passwords : PasswordLibrary
  jwt : Jwt
  jwtExpireMinutes : ℤ

def verifyPassword (auth : Auth) (plainPassword hashedPassword : String) : Except Failure Bool :=
  match auth.passwords.verify plainPassword hashedPassword with
  | some b => .ok b
  | none => .error (.uncaught "ValueError")

def createAccessToken (auth : Auth) (now : Time) (userId : ℕ) : String :=
  auth.jwt.encode ⟨toString userId, now / 1000, (now + 60000 * auth.jwtExpireMinutes) / 1000⟩

def decodeAccessToken (auth : Auth) (now : Time) (token : String) : Except Failure ℤ :=
  match (auth.jwt.decode now token).bind fun claims => readInt claims.sub with
  | some userId => .ok userId
  | none => .error (.app ⟨.unauthorized, "Token 无效或已过期", 401⟩)

/-! ## Logins -/

structure LoginRequest where
  username : String
  password : String
  ip : Option String
  userAgent : Option String
  requestId : Option String
  username_length : 1 ≤ username.length ∧ username.length ≤ 64
  password_length : 1 ≤ password.length ∧ password.length ≤ 128

structure SysLoginLog where
  id : ℕ
  userId : Option ℕ
  username : String
  loginIp : Option String
  userAgent : Option String
  loginStatus : String
  failureReason : Option String
  requestId : Option String
  deriving DecidableEq

instance : Keyed SysLoginLog := ⟨SysLoginLog.id, fun n l => { l with id := n }, fun _ _ => rfl⟩

/-- The columns `last_login_at` and `last_login_ip` of a user. -/
structure LastLogin where
  at? : Option Time
  ip : Option String

/-- A token that a login returned. -/
structure Issue where
  token : String
  userId : ℕ
  issuedAt : Time
  deriving DecidableEq

/-- What logins write, and what they gave away. -/
structure Sessions where
  lastLogins : ℕ → LastLogin
  loginLogs : Table SysLoginLog
  issued : List Issue

def createLoginLog (logs : Table SysLoginLog) (request : LoginRequest) (userId : Option ℕ) (loginStatus : String)
    (failureReason : Option String) : Except Failure (Table SysLoginLog) := do
  let username ← varchar "username" 64 request.username
  let loginIp ← nullable (varchar "login_ip" 64) request.ip
  let userAgent ← nullable (varchar "user_agent" 500) request.userAgent
  let requestId ← nullable (varchar "request_id" 64) request.requestId
  pure (logs.insert ⟨0, userId, username, loginIp, userAgent, loginStatus, failureReason, requestId⟩)

/-- `UserRepository.update_last_login`. -/
def updateLastLogin (lastLogins : ℕ → LastLogin) (user : SysUser) (now : Time) (ip : Option String) :
    Except Failure (ℕ → LastLogin) :=
  if truthy ip then do
    let ip ← nullable (varchar "last_login_ip" 64) ip
    pure (Function.update lastLogins user.id ⟨some now, ip⟩)
  else .ok (Function.update lastLogins user.id ⟨some now, (lastLogins user.id).ip⟩)

inductive LoginOutcome
  | granted (token : String)
  | refused (e : AppException)

/-- The failure is logged, then the exception raised. -/
def refuseLogin (s : Sessions) (request : LoginRequest) (userId : Option ℕ) (failureReason : String) (e : AppException) :
    Except Failure (Sessions × LoginOutcome) := do
  let logs ← createLoginLog s.loginLogs request userId "FAILED" (some failureReason)
  pure ({ s with loginLogs := logs }, .refused e)

def grantLogin (auth : Auth) (s : Sessions) (now : Time) (request : LoginRequest) (user : SysUser) :
    Except Failure (Sessions × LoginOutcome) := do
  let lastLogins ← updateLastLogin s.lastLogins user now request.ip
  let token := createAccessToken auth now user.id
  let logs ← createLoginLog s.loginLogs request (some user.id) "SUCCESS" none
  pure (⟨lastLogins, logs, s.issued ++ [⟨token, user.id, now⟩]⟩, .granted token)

/-- What `login` commits and answers; an error of the database or of a library rolls it back. -/
def login (auth : Auth) (users : Table SysUser) (s : Sessions) (now : Time) (request : LoginRequest) :
    Except Failure (Sessions × LoginOutcome) :=
  match getByUsername users request.username with
  | none => refuseLogin s request none "用户名或密码错误" ⟨.invalidCredentials, "用户名或密码错误", 401⟩
  | some user => do
    let valid ← verifyPassword auth request.password user.passwordHash
    if !valid then
      refuseLogin s request none "用户名或密码错误" ⟨.invalidCredentials, "用户名或密码错误", 401⟩
    else if user.status ≠ 1 then
      refuseLogin s request (some user.id) "账号已禁用" ⟨.accountDisabled, "账号已禁用", 401⟩
    else grantLogin auth s now request user

/-! ## Requests -/

def getCurrentUser (auth : Auth) (users : Table SysUser) (now : Time) (token : String) : Except Failure SysUser := do
  let userId ← decodeAccessToken auth now token
  match (users.select fun u => (u.id : ℤ) = userId ∧ u.deletedAt = none).head? with
  | none => .error (.app ⟨.unauthorized, "用户不存在或已被删除", 401⟩)
  | some user => if user.status ≠ 1 then .error (.app ⟨.accountDisabled, "账号已禁用", 401⟩) else .ok user

/-- `get_current_roles`. -/
def roleCodes (accounts : Accounts) (userId : ℕ) : List String :=
  (accounts.roles.select fun r => (⟨userId, r.id⟩ : SysUserRole) ∈ accounts.userRoles).map (·.roleCode)

def requireRoles (auth : Auth) (accounts : Accounts) (now : Time) (token : String) (codes : List String) :
    Except Failure SysUser := do
  let user ← getCurrentUser auth accounts.users now token
  if ∃ code ∈ codes, code ∈ roleCodes accounts user.id then .ok user
  else .error (.app ⟨.forbidden, "无权限执行该操作", 403⟩)

/-- What the interface fills in. -/
def Request.filled (user : SysUser) (now : Time) : Request → Request
  | .deleteUser _ userId => .deleteUser now userId
  | .createRule data _ => .createRule data (some user.id)
  | request => request

/-- A request of the management interface, all of them for administrators. -/
def respondAs (auth : Auth) (upper : String → String) (db : Db) (now : Time) (token : String) (request : Request) :
    Except Failure Db := do
  let user ← requireRoles auth db.accounts now token ["SYSTEM_ADMIN"]
  respond auth.passwords.toPasswordHasher upper db (request.filled user now)

/-! ## Runs -/

structure Platform where
  system : System
  sessions : Sessions

def Platform.users (p : Platform) : Table SysUser := p.system.db.accounts.users

inductive Visit
  | login (now : Time) (request : LoginRequest)
  | request (now : Time) (token : String) (request : Request)
  | start (settings : SeedSettings)

def visit (auth : Auth) (upper : String → String) (p : Platform) : Visit → Platform
  | .login now request =>
    match login auth p.users p.sessions now request with
    | .ok (sessions, _) => { p with sessions := sessions }
    | .error _ => p
  | .request now token request =>
    match respondAs auth upper p.system.db now token request with
    | .ok db => { p with system := { p.system with db := db } }
    | .error _ => p
  | .start settings =>
    match seed auth.passwords.toPasswordHasher settings p.system with
    | .ok system => { p with system := system }
    | .error _ => p

section
variable {auth : Auth} {upper : String → String} {p : Platform} {db db' : Db} {users : Table SysUser}
  {accounts : Accounts} {sessions sessions' : Sessions} {now : Time} {token : String} {user : SysUser}

/-! ## Who a request speaks for -/

theorem getCurrentUser_eq_ok : getCurrentUser auth users now token = .ok user ↔
    decodeAccessToken auth now token = .ok (user.id : ℤ) ∧ user ∈ users ∧ user.deletedAt = none ∧ user.status = 1 := by
  unfold getCurrentUser
  cases hdecode : decodeAccessToken auth now token with
  | error e => exact iff_of_false (fun h => by cases h) fun h => by cases h.1
  | ok userId =>
    show (match (users.select fun u => (u.id : ℤ) = userId ∧ u.deletedAt = none).head? with
      | none => _
      | some u => if u.status ≠ 1 then _ else .ok u) = Except.ok user ↔ _
    cases hfound : (users.select fun u => (u.id : ℤ) = userId ∧ u.deletedAt = none).head? with
    | none =>
      refine iff_of_false (fun h => by cases h) fun h => ?_
      have hno := Table.head?_select_eq_none.mp hfound user h.2.1
      rw [decide_eq_false_iff_not] at hno
      exact hno ⟨(Except.ok.inj h.1).symm, h.2.2.1⟩
    | some u =>
      obtain ⟨hu, hprop⟩ := Table.mem_select.mp (List.mem_of_mem_head? hfound)
      obtain ⟨hid, hdeleted⟩ := of_decide_eq_true hprop
      dsimp only
      constructor
      · intro h
        by_cases hstatus : u.status ≠ 1
        · rw [if_pos hstatus] at h
          cases h
        · rw [if_neg hstatus] at h
          obtain rfl := Except.ok.inj h
          exact ⟨congrArg _ hid.symm, hu, hdeleted, not_not.mp hstatus⟩
      · rintro ⟨huserId, huser, -, hstatus⟩
        have hsame : user.id = u.id := by
          have hcast := (Except.ok.inj huserId).symm.trans hid.symm
          exact_mod_cast hcast
        obtain rfl := Table.eq_of_key_eq huser hu hsame
        rw [if_neg (not_not.mpr hstatus)]

theorem requireRoles_eq_ok {codes : List String} : requireRoles auth accounts now token codes = .ok user ↔
    getCurrentUser auth accounts.users now token = .ok user ∧ ∃ code ∈ codes, code ∈ roleCodes accounts user.id := by
  unfold requireRoles
  cases hcurrent : getCurrentUser auth accounts.users now token with
  | error e => exact iff_of_false (fun h => by cases h) fun h => by cases h.1
  | ok u =>
    show (if _ then Except.ok u else _) = Except.ok user ↔ _
    split_ifs with hcode
    · exact ⟨fun h => ⟨h, by obtain rfl := Except.ok.inj h; exact hcode⟩, fun h => h.1⟩
    · refine iff_of_false (fun h => by cases h) fun h => ?_
      obtain rfl := Except.ok.inj h.1
      exact hcode h.2

/-- An administrator as the tables have him: not deleted, enabled, linked to the role. -/
structure Administrator (accounts : Accounts) (user : SysUser) : Prop where
  mem : user ∈ accounts.users
  undeleted : user.deletedAt = none
  enabled : user.status = 1
  role : "SYSTEM_ADMIN" ∈ roleCodes accounts user.id

/-- A request is carried out for an administrator, under the number in his token. -/
theorem respondAs_eq_ok {request : Request} : respondAs auth upper db now token request = .ok db' ↔
    ∃ user, Administrator db.accounts user ∧ decodeAccessToken auth now token = .ok (user.id : ℤ) ∧
      respond auth.passwords.toPasswordHasher upper db (request.filled user now) = .ok db' := by
  unfold respondAs
  rw [bind_eq_ok]
  refine exists_congr fun user => ?_
  rw [requireRoles_eq_ok, getCurrentUser_eq_ok]
  constructor
  · rintro ⟨⟨⟨hdecode, hmem, hundeleted, henabled⟩, code, hcode, hrole⟩, hrespond⟩
    obtain rfl := List.mem_singleton.mp hcode
    exact ⟨⟨hmem, hundeleted, henabled, hrole⟩, hdecode, hrespond⟩
  · rintro ⟨h, hdecode, hrespond⟩
    exact ⟨⟨⟨hdecode, h.mem, h.undeleted, h.enabled⟩, _, List.mem_singleton_self _, h.role⟩, hrespond⟩

/-! ## What a login does -/

/-- The user whom a login lets in. -/
structure LetsIn (auth : Auth) (users : Table SysUser) (request : LoginRequest) (user : SysUser) : Prop where
  mem : user ∈ users
  username : user.username = request.username
  undeleted : user.deletedAt = none
  password : auth.passwords.verify request.password user.passwordHash = some true
  enabled : user.status = 1

/-- The client's data fit the columns of the log. -/
def LoginRequest.Loggable (request : LoginRequest) : Prop :=
  (∀ ip ∈ request.ip, Fits 64 ip) ∧ (∀ userAgent ∈ request.userAgent, Fits 500 userAgent) ∧
    ∀ requestId ∈ request.requestId, Fits 64 requestId

theorem createLoginLog_eq_ok {logs logs' : Table SysLoginLog} {request : LoginRequest} {userId : Option ℕ}
    {loginStatus : String} {failureReason : Option String}
    (h : createLoginLog logs request userId loginStatus failureReason = .ok logs') :
    ∃ log, logs' = logs.insert log ∧ log.userId = userId ∧ log.username = request.username ∧
      log.loginStatus = loginStatus ∧ log.failureReason = failureReason := by
  obtain ⟨username, husername, h⟩ := bind_eq_ok.mp h
  obtain ⟨ip, -, h⟩ := bind_eq_ok.mp h
  obtain ⟨userAgent, -, h⟩ := bind_eq_ok.mp h
  obtain ⟨requestId, -, h⟩ := bind_eq_ok.mp h
  obtain rfl := varchar_of_length request.username_length.2 husername
  exact ⟨_, (pure_eq_ok.mp h).symm, rfl, rfl, rfl, rfl⟩

theorem createLoginLog_isOk {logs : Table SysLoginLog} {request : LoginRequest} {userId : Option ℕ}
    {loginStatus : String} {failureReason : Option String} :
    (∃ logs', createLoginLog logs request userId loginStatus failureReason = .ok logs') ↔ request.Loggable := by
  have hip := @nullable_isOk _ _ (varchar "login_ip" 64) request.ip
  have huserAgent := @nullable_isOk _ _ (varchar "user_agent" 500) request.userAgent
  have hrequestId := @nullable_isOk _ _ (varchar "request_id" 64) request.requestId
  simp only [varchar_isOk] at hip huserAgent hrequestId
  unfold LoginRequest.Loggable
  rw [← hip, ← huserAgent, ← hrequestId]
  constructor
  · rintro ⟨logs', h⟩
    obtain ⟨_, -, h⟩ := bind_eq_ok.mp h
    obtain ⟨ip, hip, h⟩ := bind_eq_ok.mp h
    obtain ⟨userAgent, huserAgent, h⟩ := bind_eq_ok.mp h
    obtain ⟨requestId, hrequestId, -⟩ := bind_eq_ok.mp h
    exact ⟨⟨ip, hip⟩, ⟨userAgent, huserAgent⟩, ⟨requestId, hrequestId⟩⟩
  · rintro ⟨⟨ip, hip⟩, ⟨userAgent, huserAgent⟩, ⟨requestId, hrequestId⟩⟩
    obtain ⟨username, husername⟩ := varchar_isOk.mpr (Fits.of_length request.username_length.2)
    exact ⟨_, bind_eq_ok.mpr ⟨username, husername, bind_eq_ok.mpr ⟨ip, hip, bind_eq_ok.mpr ⟨userAgent, huserAgent,
      bind_eq_ok.mpr ⟨requestId, hrequestId, rfl⟩⟩⟩⟩⟩

theorem updateLastLogin_isOk {lastLogins : ℕ → LastLogin} {ip : Option String} (h : ∀ s ∈ ip, Fits 64 s) :
    ∃ lastLogins', updateLastLogin lastLogins user now ip = .ok lastLogins' := by
  unfold updateLastLogin
  split_ifs
  · obtain ⟨stored, hstored⟩ := nullable_isOk.mpr fun s hs => varchar_isOk.mpr (h s hs)
    exact ⟨_, bind_eq_ok.mpr ⟨stored, hstored, rfl⟩⟩
  · exact ⟨_, rfl⟩

/-- A login that is granted: one log row and one token, for the user it lets in. -/
theorem login_granted {request : LoginRequest} (h : login auth users sessions now request = .ok (sessions', .granted token)) :
    ∃ user log, LetsIn auth users request user ∧ token = createAccessToken auth now user.id ∧
      sessions'.loginLogs = sessions.loginLogs.insert log ∧ log.userId = some user.id ∧ log.loginStatus = "SUCCESS" ∧
      sessions'.issued = sessions.issued ++ [⟨token, user.id, now⟩] := by
  unfold login at h
  cases hget : getByUsername users request.username with
  | none =>
    rw [hget] at h
    obtain ⟨logs, -, h⟩ := bind_eq_ok.mp h
    cases (Prod.mk.inj (pure_eq_ok.mp h)).2
  | some user =>
    rw [hget] at h
    obtain ⟨hmem, hname, hundeleted⟩ := getByUsername_mem hget
    obtain ⟨valid, hverify, h⟩ := bind_eq_ok.mp h
    by_cases hvalid : (!valid) = true
    · rw [if_pos hvalid] at h
      obtain ⟨logs, -, h⟩ := bind_eq_ok.mp h
      cases (Prod.mk.inj (pure_eq_ok.mp h)).2
    rw [if_neg hvalid] at h
    by_cases hstatus : user.status ≠ 1
    · rw [if_pos hstatus] at h
      obtain ⟨logs, -, h⟩ := bind_eq_ok.mp h
      cases (Prod.mk.inj (pure_eq_ok.mp h)).2
    rw [if_neg hstatus] at h
    obtain ⟨lastLogins, -, h⟩ := bind_eq_ok.mp h
    obtain ⟨logs, hlogs, h⟩ := bind_eq_ok.mp h
    obtain ⟨log, rfl, huserId, -, hlogStatus, -⟩ := createLoginLog_eq_ok hlogs
    obtain ⟨rfl, hgranted⟩ := Prod.mk.inj (pure_eq_ok.mp h)
    obtain rfl := LoginOutcome.granted.inj hgranted
    have hpassword : auth.passwords.verify request.password user.passwordHash = some true := by
      unfold verifyPassword at hverify
      cases hresult : auth.passwords.verify request.password user.passwordHash with
      | none =>
        rw [hresult] at hverify
        cases hverify
      | some b =>
        rw [hresult] at hverify
        obtain rfl := Except.ok.inj hverify
        simpa using hvalid
    exact ⟨user, log, ⟨hmem, hname, hundeleted, hpassword, not_not.mp hstatus⟩, rfl, rfl, huserId, hlogStatus, rfl⟩

/-- A login that is refused: one log row that says so, and nothing else. -/
theorem login_refused {request : LoginRequest} {e : AppException}
    (h : login auth users sessions now request = .ok (sessions', .refused e)) :
    ∃ log, sessions' = { sessions with loginLogs := sessions.loginLogs.insert log } ∧ log.loginStatus = "FAILED" := by
  have hrefused : ∀ {userId reason e'}, refuseLogin sessions request userId reason e' = .ok (sessions', .refused e) →
      ∃ log, sessions' = { sessions with loginLogs := sessions.loginLogs.insert log } ∧ log.loginStatus = "FAILED" := by
    intro userId reason e' h
    obtain ⟨logs, hlogs, h⟩ := bind_eq_ok.mp h
    obtain ⟨log, rfl, -, -, hstatus, -⟩ := createLoginLog_eq_ok hlogs
    exact ⟨log, (Prod.mk.inj (pure_eq_ok.mp h)).1.symm, hstatus⟩
  unfold login at h
  cases hget : getByUsername users request.username with
  | none =>
    rw [hget] at h
    exact hrefused h
  | some user =>
    rw [hget] at h
    obtain ⟨valid, -, h⟩ := bind_eq_ok.mp h
    split_ifs at h with hvalid hstatus
    · exact hrefused h
    · exact hrefused h
    · obtain ⟨lastLogins, -, h⟩ := bind_eq_ok.mp h
      obtain ⟨logs, -, h⟩ := bind_eq_ok.mp h
      cases (Prod.mk.inj (pure_eq_ok.mp h)).2

/-- Nobody is let in: the name is nobody's, the password is another one, or the account is disabled. -/
def TurnedAway (auth : Auth) (users : Table SysUser) (request : LoginRequest) : Prop :=
  (∀ user ∈ users, user.username = request.username → user.deletedAt ≠ none) ∨
    ∃ user ∈ users, user.username = request.username ∧ user.deletedAt = none ∧
      (auth.passwords.verify request.password user.passwordHash = some false ∨
        auth.passwords.verify request.password user.passwordHash = some true ∧ user.status ≠ 1)

theorem refuseLogin_isOk {request : LoginRequest} {userId : Option ℕ} {reason : String} {e : AppException} :
    (∃ sessions' e', refuseLogin sessions request userId reason e = .ok (sessions', .refused e')) ↔ request.Loggable := by
  rw [← @createLoginLog_isOk sessions.loginLogs request userId "FAILED" (some reason)]
  constructor
  · rintro ⟨sessions', e', h⟩
    obtain ⟨logs, hlogs, -⟩ := bind_eq_ok.mp h
    exact ⟨logs, hlogs⟩
  · rintro ⟨logs, hlogs⟩
    exact ⟨_, _, bind_eq_ok.mpr ⟨logs, hlogs, rfl⟩⟩

theorem not_granted_refuseLogin {request : LoginRequest} {userId : Option ℕ} {reason : String} {e : AppException} :
    ¬∃ sessions' token, refuseLogin sessions request userId reason e = .ok (sessions', .granted token) := by
  rintro ⟨sessions', token, h⟩
  obtain ⟨logs, -, h⟩ := bind_eq_ok.mp h
  cases (Prod.mk.inj (pure_eq_ok.mp h)).2

theorem grantLogin_isOk {request : LoginRequest} :
    (∃ sessions' token, grantLogin auth sessions now request user = .ok (sessions', .granted token)) ↔
      request.Loggable := by
  constructor
  · rintro ⟨sessions', token, h⟩
    obtain ⟨lastLogins, -, h⟩ := bind_eq_ok.mp h
    obtain ⟨logs, hlogs, -⟩ := bind_eq_ok.mp h
    exact createLoginLog_isOk.mp ⟨logs, hlogs⟩
  · intro hlog
    obtain ⟨lastLogins, hlast⟩ := @updateLastLogin_isOk now user sessions.lastLogins request.ip hlog.1
    obtain ⟨logs, hlogs⟩ := @createLoginLog_isOk sessions.loginLogs request (some user.id) "SUCCESS" none |>.mpr hlog
    exact ⟨_, _, bind_eq_ok.mpr ⟨lastLogins, hlast, bind_eq_ok.mpr ⟨logs, hlogs, rfl⟩⟩⟩

theorem not_refused_grantLogin {request : LoginRequest} :
    ¬∃ sessions' e, grantLogin auth sessions now request user = .ok (sessions', .refused e) := by
  rintro ⟨sessions', e, h⟩
  obtain ⟨lastLogins, -, h⟩ := bind_eq_ok.mp h
  obtain ⟨logs, -, h⟩ := bind_eq_ok.mp h
  cases (Prod.mk.inj (pure_eq_ok.mp h)).2

/-! ## Every accepted request has a login behind it -/

/-- A login that returned the token to the user, who had given his password. -/
def Granted (auth : Auth) (p : Platform) (issue : Issue) (v : Visit) : Prop :=
  ∃ request sessions user, v = .login issue.issuedAt request ∧
    login auth p.users p.sessions issue.issuedAt request = .ok (sessions, .granted issue.token) ∧
    LetsIn auth p.users request user ∧ user.id = issue.userId

/-- The key is the platform's alone: a client has a token that is decoded from a login. -/
def Genuine (auth : Auth) (p : Platform) : Visit → Prop
  | .request now token _ => (auth.jwt.decode now token).isSome → ∃ issue ∈ p.sessions.issued, issue.token = token
  | _ => True

theorem visit_login {request : LoginRequest} {outcome : LoginOutcome}
    (h : login auth p.users p.sessions now request = .ok (sessions, outcome)) :
    visit auth upper p (.login now request) = { p with sessions := sessions } := by
  simp only [visit, h]

theorem visit_login_error {request : LoginRequest} {e : Failure}
    (h : login auth p.users p.sessions now request = .error e) : visit auth upper p (.login now request) = p := by
  simp only [visit, h]

theorem visit_request {request : Request} (h : respondAs auth upper p.system.db now token request = .ok db) :
    visit auth upper p (.request now token request) = { p with system := { p.system with db := db } } := by
  simp only [visit, h]

theorem visit_request_error {request : Request} {e : Failure}
    (h : respondAs auth upper p.system.db now token request = .error e) :
    visit auth upper p (.request now token request) = p := by
  simp only [visit, h]

theorem sessions_start {settings : SeedSettings} : (visit auth upper p (.start settings)).sessions = p.sessions := by
  cases h : seed auth.passwords.toPasswordHasher settings p.system <;> simp only [visit, h]

theorem sessions_request {request : Request} :
    (visit auth upper p (.request now token request)).sessions = p.sessions := by
  cases h : respondAs auth upper p.system.db now token request with
  | ok db => rw [visit_request h]
  | error e => rw [visit_request_error h]

theorem system_login {request : LoginRequest} : (visit auth upper p (.login now request)).system = p.system := by
  cases h : login auth p.users p.sessions now request with
  | ok result => rw [visit_login h]
  | error e => rw [visit_login_error h]

theorem visit_issued (v : Visit) : (visit auth upper p v).sessions.issued = p.sessions.issued ∨
    ∃ issue, (visit auth upper p v).sessions.issued = p.sessions.issued ++ [issue] ∧ Granted auth p issue v ∧
      issue.token = createAccessToken auth issue.issuedAt issue.userId := by
  cases v with
  | login now request =>
    cases hlogin : login auth p.users p.sessions now request with
    | error e => exact .inl (by rw [visit_login_error hlogin])
    | ok result =>
      obtain ⟨sessions, outcome⟩ := result
      rw [visit_login hlogin]
      cases outcome with
      | granted token =>
        obtain ⟨user, -, hlets, htoken, -, -, -, hissued⟩ := login_granted hlogin
        exact .inr ⟨⟨token, user.id, now⟩, hissued, ⟨request, sessions, user, rfl, hlogin, hlets, rfl⟩, htoken⟩
      | refused e =>
        obtain ⟨log, rfl, -⟩ := login_refused hlogin
        exact .inl rfl
  | request now token request => exact .inl (by rw [sessions_request])
  | start settings => exact .inl (by rw [sessions_start])

/-- Every token that was given away comes from a login of the run. -/
theorem issued_granted (hstart : p.sessions.issued = []) (visits : List Visit) :
    ∀ issue ∈ (run (visit auth upper) p visits).sessions.issued,
      issue.token = createAccessToken auth issue.issuedAt issue.userId ∧
        Happened (fun before v => Granted auth (run (visit auth upper) p before) issue v) visits := by
  induction visits using List.reverseRecOn with
  | nil =>
    intro issue hissue
    rw [run_nil, hstart] at hissue
    cases hissue
  | append_singleton visits v ih =>
    intro issue hissue
    rw [run_concat] at hissue
    rcases @visit_issued auth upper (run (visit auth upper) p visits) v with hsame | ⟨new, hnew, hgranted, htoken⟩
    · rw [hsame] at hissue
      exact ⟨(ih issue hissue).1, (ih issue hissue).2.concat v⟩
    · rw [hnew] at hissue
      rcases List.mem_append.mp hissue with hissue | hissue
      · exact ⟨(ih issue hissue).1, (ih issue hissue).2.concat v⟩
      · obtain rfl := List.mem_singleton.mp hissue
        exact ⟨htoken, happened_concat.mpr (.inr hgranted)⟩

/-- The number in a token that is decoded, and its time. -/
theorem decode_createAccessToken {issuedAt : Time} {userId : ℕ} {decoded : ℤ}
    (h : decodeAccessToken auth now (createAccessToken auth issuedAt userId) = .ok decoded) :
    decoded = userId ∧ 1000 * (issuedAt / 1000) ≤ now ∧ now < issuedAt + 60000 * auth.jwtExpireMinutes := by
  unfold decodeAccessToken createAccessToken at h
  rw [auth.jwt.decode_encode] at h
  split_ifs at h with htime
  · rw [Option.bind_some, readInt_toString_nat] at h
    have hlate : now < 1000 * ((issuedAt + 60000 * auth.jwtExpireMinutes) / 1000) := htime.2
    have hfloor := Int.mul_ediv_self_le (x := issuedAt + 60000 * auth.jwtExpireMinutes) (k := 1000) (by decide)
    exact ⟨(Except.ok.inj h).symm, htime.1, hlate.trans_le hfloor⟩
  · cases h

/-- Whoever gets a request of the management interface carried out is an administrator at that moment, and logged in
with his password before, no longer ago than a token lasts. -/
theorem carried_out_for_administrator {visits : List Visit} (hstart : p.sessions.issued = [])
    (hgenuine : Along (fun before v => Genuine auth (run (visit auth upper) p before) v) visits) :
    Along (fun before v => ∀ now token request db, v = .request now token request →
      respondAs auth upper (run (visit auth upper) p before).system.db now token request = .ok db →
      ∃ user, Administrator (run (visit auth upper) p before).system.db.accounts user ∧
        ∃ issue : Issue, issue.token = token ∧ issue.userId = user.id ∧
          now < issue.issuedAt + 60000 * auth.jwtExpireMinutes ∧
          Happened (fun earlier v => Granted auth (run (visit auth upper) p earlier) issue v) before) visits := by
  rintro before v after rfl now token request db rfl hok
  obtain ⟨user, hadministrator, hdecode, -⟩ := respondAs_eq_ok.mp hok
  have hsome : (auth.jwt.decode now token).isSome := by
    by_contra hnone
    unfold decodeAccessToken at hdecode
    rw [Option.not_isSome_iff_eq_none.mp hnone] at hdecode
    cases hdecode
  obtain ⟨issue, hissue, rfl⟩ := hgenuine before _ after rfl hsome
  obtain ⟨htoken, hgranted⟩ := issued_granted hstart before issue hissue
  rw [htoken] at hdecode
  obtain ⟨hid, -, hlate⟩ := decode_createAccessToken hdecode
  exact ⟨user, hadministrator, issue, rfl, (Nat.cast_injective hid).symm, hlate, hgranted⟩

/-! ## When a login is answered -/

theorem login_nobody {request : LoginRequest} (h : getByUsername users request.username = none) :
    login auth users sessions now request =
      refuseLogin sessions request none "用户名或密码错误" ⟨.invalidCredentials, "用户名或密码错误", 401⟩ := by
  simp only [login, h]

/-- What the password decides once the user is found. -/
theorem login_found {request : LoginRequest} (h : getByUsername users request.username = some user) :
    login auth users sessions now request =
      match auth.passwords.verify request.password user.passwordHash with
      | none => .error (.uncaught "ValueError")
      | some false => refuseLogin sessions request none "用户名或密码错误" ⟨.invalidCredentials, "用户名或密码错误", 401⟩
      | some true =>
        if user.status ≠ 1 then
          refuseLogin sessions request (some user.id) "账号已禁用" ⟨.accountDisabled, "账号已禁用", 401⟩
        else grantLogin auth sessions now request user := by
  simp only [login, h, verifyPassword]
  cases auth.passwords.verify request.password user.passwordHash with
  | none => rfl
  | some valid => cases valid <;> rfl

theorem login_answers (h : userSchema.Consistent p.users) (request : LoginRequest) :
    ((∃ sessions token, login auth p.users p.sessions now request = .ok (sessions, .granted token)) ↔
      request.Loggable ∧ ∃ user, LetsIn auth p.users request user) ∧
    ((∃ sessions e, login auth p.users p.sessions now request = .ok (sessions, .refused e)) ↔
      request.Loggable ∧ TurnedAway auth p.users request) := by
  cases hget : getByUsername p.users request.username with
  | none =>
    have hnobody : ∀ user ∈ p.users, user.username = request.username → user.deletedAt ≠ none := by
      intro user huser hname hundeleted
      have hsome := getByUsername_isSome.mpr ⟨user, huser, hname, hundeleted⟩
      rw [hget] at hsome
      cases hsome
    rw [login_nobody hget]
    refine ⟨iff_of_false not_granted_refuseLogin ?_, ?_⟩
    · rintro ⟨-, user, hlets⟩
      exact hnobody user hlets.mem hlets.username hlets.undeleted
    · rw [refuseLogin_isOk]
      exact (and_iff_left (.inl hnobody)).symm
  | some user =>
    obtain ⟨hmem, hname, hundeleted⟩ := getByUsername_mem hget
    have hunique : ∀ other ∈ p.users, other.username = request.username → other.deletedAt = none → other = user := by
      intro other hother hothername hotherundeleted
      have hsame := @getByUsername_eq_some ⟨request.username, ""⟩ p.system h other hother hothername hotherundeleted
      exact Option.some.inj (hsame.symm.trans hget)
    -- both sides speak about the one user who is found
    have hlets : (∃ other, LetsIn auth p.users request other) ↔
        auth.passwords.verify request.password user.passwordHash = some true ∧ user.status = 1 := by
      constructor
      · rintro ⟨other, hother⟩
        obtain rfl := hunique other hother.mem hother.username hother.undeleted
        exact ⟨hother.password, hother.enabled⟩
      · rintro ⟨hpassword, henabled⟩
        exact ⟨user, hmem, hname, hundeleted, hpassword, henabled⟩
    have haway : TurnedAway auth p.users request ↔
        auth.passwords.verify request.password user.passwordHash = some false ∨
          auth.passwords.verify request.password user.passwordHash = some true ∧ user.status ≠ 1 := by
      constructor
      · rintro (hnobody | ⟨other, hother, hothername, hotherundeleted, hresult⟩)
        · exact absurd hundeleted (hnobody user hmem hname)
        · rwa [hunique other hother hothername hotherundeleted] at hresult
      · exact fun hresult => .inr ⟨user, hmem, hname, hundeleted, hresult⟩
    rw [hlets, haway, login_found hget]
    cases auth.passwords.verify request.password user.passwordHash with
    | none => simp
    | some valid =>
      cases valid with
      | false =>
        dsimp only
        rw [refuseLogin_isOk]
        exact ⟨iff_of_false not_granted_refuseLogin (by simp), by simp⟩
      | true =>
        dsimp only
        by_cases hstatus : user.status ≠ 1
        · rw [if_pos hstatus, refuseLogin_isOk]
          exact ⟨iff_of_false not_granted_refuseLogin (by simp [hstatus]), by simp [hstatus]⟩
        · rw [if_neg hstatus, grantLogin_isOk]
          exact ⟨by simp [not_not.mp hstatus], iff_of_false not_refused_grantLogin (by simp [not_not.mp hstatus])⟩

def NoAdministrator (accounts : Accounts) : Prop := ∀ user, ¬Administrator accounts user

/-- Without an administrator no request is carried out, and none can make one. -/
theorem frozen_without_administrator (h : NoAdministrator p.system.db.accounts) {visits : List Visit}
    (hstarts : ∀ settings, .start settings ∉ visits) : (run (visit auth upper) p visits).system = p.system := by
  induction visits using List.reverseRecOn with
  | nil => rfl
  | append_singleton visits v ih =>
    have hsame := ih fun settings hmem => hstarts settings (List.mem_append_left _ hmem)
    rw [run_concat]
    cases v with
    | login now request => rw [system_login, hsame]
    | request now token request =>
      cases hok : respondAs auth upper (run (visit auth upper) p visits).system.db now token request with
      | ok db =>
        obtain ⟨user, hadministrator, -⟩ := respondAs_eq_ok.mp hok
        rw [hsame] at hadministrator
        exact absurd hadministrator (h user)
      | error e => rw [visit_request_error hok, hsame]
    | start settings => exact absurd (List.mem_append_right _ (List.mem_singleton_self _)) (hstarts settings)

/-! ## A deleted user stays out -/

theorem setRoles_users {userId : ℕ} {roleIds : List ℤ} {accounts' : Accounts}
    (hok : setRoles accounts userId roleIds = .ok accounts') : accounts'.users = accounts.users := by
  have hloop : ∀ (ids : List ℤ) (db : Accounts), ids.foldlM (fun db roleId => addUserRole db userId roleId) db =
      .ok accounts' → accounts'.users = db.users := by
    intro ids
    induction ids with
    | nil =>
      intro db hok
      rw [pure_eq_ok.mp hok]
    | cons id ids ih =>
      intro db hok
      rw [List.foldlM_cons] at hok
      obtain ⟨next, hadd, hok⟩ := bind_eq_ok.mp hok
      unfold addUserRole at hadd
      split_ifs at hadd
      obtain rfl := Except.ok.inj hadd
      have hrest := ih _ hok
      exact hrest
  have hall := hloop roleIds.dedup _ hok
  exact hall

/-- The user is still there under his name, unchanged if he was deleted. -/
def Kept (users : Table SysUser) (user : SysUser) : Prop :=
  ∃ user' ∈ users, user'.id = user.id ∧ user'.username = user.username ∧ (user.deletedAt ≠ none → user' = user)

theorem Kept.of_mem (hmem : user ∈ users) : Kept users user := ⟨user, hmem, rfl, rfl, fun _ => rfl⟩

/-- A change of a user who is not deleted leaves the deleted ones alone. -/
theorem kept_modify {f : SysUser → SysUser} {hf : ∀ u, Keyed.key (f u) = Keyed.key u} {changed : SysUser}
    (hname : ∀ u, (f u).username = u.username) (hchanged : changed ∈ users) (hundeleted : changed.deletedAt = none)
    (hmem : user ∈ users) : Kept (users.modify changed.id f hf) user := by
  by_cases hkey : Keyed.key user = Keyed.key changed
  · obtain rfl := Table.eq_of_key_eq hmem hchanged hkey
    refine ⟨f user, (Table.mem_modify_of_mem hmem rfl).mpr (.inl rfl), hf user, hname user, fun hdeleted => ?_⟩
    exact absurd hundeleted hdeleted
  · exact .of_mem ((Table.mem_modify_of_mem hchanged rfl).mpr (.inr ⟨hmem, hkey⟩))

theorem respond_keeps {hasher : PasswordHasher} {request : Request} (h : respond hasher upper db request = .ok db')
    (hmem : user ∈ db.accounts.users) : Kept db'.accounts.users user := by
  cases request with
  | createUser data =>
    obtain ⟨accounts, hok, h⟩ := bind_eq_ok.mp h
    obtain rfl := pure_eq_ok.mp h
    unfold createUser insertUser at hok
    split_ifs at hok with husername hemail hnil
    all_goals
      obtain ⟨-, -, hok⟩ := bind_eq_ok.mp hok
      obtain ⟨passwordHash, -, hok⟩ := bind_eq_ok.mp hok
      obtain ⟨users, hinsert, hok⟩ := bind_eq_ok.mp hok
      obtain rfl := (Schema.insert_eq_ok.mp hinsert).2
    · rw [← pure_eq_ok.mp hok]
      exact .of_mem (Table.mem_insert.mpr (.inl hmem))
    · have hsame := setRoles_users hok
      rw [show accounts.users = _ from hsame]
      exact .of_mem (Table.mem_insert.mpr (.inl hmem))
  | updateUser userId data =>
    obtain ⟨accounts, hok, h⟩ := bind_eq_ok.mp h
    obtain rfl := pure_eq_ok.mp h
    unfold updateUser writeUser at hok
    obtain ⟨changed, hget, hok⟩ := bind_eq_ok.mp hok
    obtain ⟨hchanged, -, hundeleted⟩ := getUser_eq_ok.mp hget
    obtain ⟨passwordHash, -, hok⟩ := bind_eq_ok.mp hok
    split_ifs at hok with hemail
    obtain ⟨-, -, hok⟩ := bind_eq_ok.mp hok
    obtain ⟨status, -, hok⟩ := bind_eq_ok.mp hok
    obtain ⟨users, hmodify, hok⟩ := bind_eq_ok.mp hok
    obtain rfl := (Schema.modify_eq_ok.mp hmodify).2
    have hkept := @kept_modify db.accounts.users user (·.updated data passwordHash status)
      (fun u => u.key_updated data passwordHash status) changed (fun _ => rfl) hchanged hundeleted hmem
    cases hids : data.roleIds.join with
    | none =>
      rw [hids] at hok
      rw [← pure_eq_ok.mp hok]
      exact hkept
    | some roleIds =>
      rw [hids] at hok
      have hsame := setRoles_users hok
      rw [show accounts.users = _ from hsame]
      exact hkept
  | deleteUser now userId =>
    obtain ⟨accounts, hok, h⟩ := bind_eq_ok.mp h
    obtain rfl := pure_eq_ok.mp h
    obtain ⟨changed, hget, hok⟩ := bind_eq_ok.mp hok
    obtain ⟨hchanged, -, hundeleted⟩ := getUser_eq_ok.mp hget
    rw [← pure_eq_ok.mp hok]
    have hkept := @kept_modify db.accounts.users user (fun u => { u with deletedAt := some now })
      (fun _ => rfl) changed (fun _ => rfl) hchanged hundeleted hmem
    exact hkept
  | createServer data =>
    obtain ⟨servers, -, h⟩ := bind_eq_ok.mp h
    obtain rfl := pure_eq_ok.mp h
    exact .of_mem hmem
  | createRule data createdBy =>
    obtain ⟨rules, -, h⟩ := bind_eq_ok.mp h
    obtain rfl := pure_eq_ok.mp h
    exact .of_mem hmem
  | updateRule ruleId data =>
    obtain ⟨rules, -, h⟩ := bind_eq_ok.mp h
    obtain rfl := pure_eq_ok.mp h
    exact .of_mem hmem
  | deleteRule ruleId =>
    obtain ⟨rules, -, h⟩ := bind_eq_ok.mp h
    obtain rfl := pure_eq_ok.mp h
    exact .of_mem hmem

theorem seed_keeps_users {hasher : PasswordHasher} {settings : SeedSettings} {s s' : System}
    (h : seed hasher settings s = .ok s') (hmem : user ∈ s.db.accounts.users) : user ∈ s'.db.accounts.users := by
  unfold seed seedOver at h
  obtain ⟨newRoles, -, h⟩ := bind_eq_ok.mp h
  obtain ⟨newPermissions, -, h⟩ := bind_eq_ok.mp h
  obtain ⟨newRules, -, h⟩ := bind_eq_ok.mp h
  obtain ⟨⟨users, adminId⟩, hadmin, h⟩ := bind_eq_ok.mp h
  obtain ⟨accounts, hrole, h⟩ := bind_eq_ok.mp h
  obtain rfl := pure_eq_ok.mp h
  have husers : accounts.users = users := by
    unfold seedAdminRole at hrole
    split at hrole
    · have hsame := setRoles_users hrole
      exact hsame
    · rw [← Except.ok.inj hrole]
  show user ∈ accounts.users
  rw [husers]
  rcases seedAdmin_eq_ok.mp hadmin with ⟨rfl, -⟩ | ⟨-, -, passwordHash, -, hinsert⟩
  · exact hmem
  · obtain rfl := (Schema.insert_eq_ok.mp hinsert).2
    exact Table.mem_insert.mpr (.inl hmem)

theorem visit_keeps_deleted (v : Visit) (hmem : user ∈ p.users) (hdeleted : user.deletedAt ≠ none) :
    user ∈ (visit auth upper p v).users := by
  cases v with
  | login now request =>
    unfold Platform.users
    rw [system_login]
    exact hmem
  | request now token request =>
    cases hok : respondAs auth upper p.system.db now token request with
    | ok db =>
      rw [visit_request hok]
      obtain ⟨_, -, -, hrespond⟩ := respondAs_eq_ok.mp hok
      obtain ⟨user', hmem', -, -, hsame⟩ := respond_keeps hrespond hmem
      rwa [hsame hdeleted] at hmem'
    | error e =>
      rw [visit_request_error hok]
      exact hmem
  | start settings =>
    cases hok : seed auth.passwords.toPasswordHasher settings p.system with
    | ok system =>
      have hsystem : visit auth upper p (.start settings) = { p with system := system } := by simp only [visit, hok]
      rw [hsystem]
      exact seed_keeps_users hok hmem
    | error e =>
      have hsystem : visit auth upper p (.start settings) = p := by simp only [visit, hok]
      rwa [hsystem]

/-- Whatever happens after a user was deleted: no token speaks for his number, and no login gives one away. -/
theorem deleted_user_stays_out {visits : List Visit} (hmem : user ∈ p.users) (hdeleted : user.deletedAt ≠ none) :
    (∀ now token current, getCurrentUser auth (run (visit auth upper) p visits).users now token = .ok current →
      current.id ≠ user.id) ∧
    (run (visit auth upper) p visits).sessions.issued.filter (·.userId = user.id) =
      p.sessions.issued.filter (·.userId = user.id) := by
  have hkept : ∀ visits, user ∈ (run (visit auth upper) p visits).users := by
    intro visits
    induction visits using List.reverseRecOn with
    | nil => exact hmem
    | append_singleton visits v ih =>
      rw [run_concat]
      exact visit_keeps_deleted v ih hdeleted
  refine ⟨fun now token current h hid => ?_, ?_⟩
  · obtain ⟨-, hcurrent, hundeleted, -⟩ := getCurrentUser_eq_ok.mp h
    rw [Table.eq_of_key_eq hcurrent (hkept visits) hid] at hundeleted
    exact hdeleted hundeleted
  · induction visits using List.reverseRecOn with
    | nil => rfl
    | append_singleton visits v ih =>
      rw [run_concat, ← ih]
      rcases @visit_issued auth upper (run (visit auth upper) p visits) v with hsame | ⟨new, hnew, hgranted, -⟩
      · rw [hsame]
      · have hnone : [new].filter (·.userId = user.id) = [] := by
          rw [List.filter_eq_nil_iff]
          intro issue hissue
          obtain rfl := List.mem_singleton.mp hissue
          obtain ⟨request, sessions, granted, -, -, hlets, hid⟩ := hgranted
          rw [decide_eq_true_eq, ← hid]
          intro hsame
          have hundeleted := hlets.undeleted
          rw [Table.eq_of_key_eq hlets.mem (hkept visits) hsame] at hundeleted
          exact hdeleted hundeleted
        rw [hnew, List.filter_append, hnone, List.append_nil]

/-! ## The log of the logins -/

/-- The logins that the log calls successful are the tokens that were given away, in the same order and for the same
users, and each row is of one kind. -/
structure Sessions.Recorded (s : Sessions) : Prop where
  granted : (s.loginLogs.select fun l => l.loginStatus = "SUCCESS").map (·.userId) = s.issued.map (some ·.userId)
  status : ∀ l ∈ s.loginLogs, l.loginStatus = "SUCCESS" ∨ l.loginStatus = "FAILED"

theorem Sessions.Recorded.visit (h : p.sessions.Recorded) (v : Visit) : (visit auth upper p v).sessions.Recorded := by
  cases v with
  | login now request =>
    cases hlogin : login auth p.users p.sessions now request with
    | error e => rwa [visit_login_error hlogin]
    | ok result =>
      obtain ⟨sessions, outcome⟩ := result
      rw [visit_login hlogin]
      cases outcome with
      | granted token =>
        obtain ⟨user, log, -, -, hlogs, huserId, hstatus, hissued⟩ := login_granted hlogin
        refine ⟨?_, fun l hl => ?_⟩
        · show (sessions.loginLogs.select _).map _ = _
          rw [hlogs, hissued, Table.select_insert, List.map_append, h.granted]
          simp [hstatus, huserId, Keyed.withKey]
        · rw [show l ∈ sessions.loginLogs ↔ l ∈ p.sessions.loginLogs.insert log by rw [hlogs]] at hl
          rcases Table.mem_insert.mp hl with hl | rfl
          · exact h.status l hl
          · exact .inl hstatus
      | refused e =>
        obtain ⟨log, rfl, hstatus⟩ := login_refused hlogin
        refine ⟨?_, fun l hl => ?_⟩
        · show ((p.sessions.loginLogs.insert log).select _).map _ = _
          rw [Table.select_insert, List.map_append, h.granted]
          simp [hstatus, Keyed.withKey]
        · rcases Table.mem_insert.mp hl with hl | rfl
          · exact h.status l hl
          · exact .inr hstatus
  | request now token request => rwa [sessions_request]
  | start settings => rwa [sessions_start]

theorem recorded_run (h : p.sessions.Recorded) (visits : List Visit) :
    (run (visit auth upper) p visits).sessions.Recorded :=
  run_induction (C := fun _ _ => True) (I := fun _ (p : Platform) => p.sessions.Recorded) h
    (fun _ v _ h => h.visit v) visits fun _ _ _ _ => trivial

end

namespace Sample

def encodeClaims (claims : Claims) : String :=
  toString claims.iat ++ "." ++ (toString claims.exp ++ "." ++ claims.sub)

def readClaims (token : String) : Option Claims := do
  let rest := (token.toList.dropWhile (· ≠ '.')).tail
  let iat ← readInt (.ofList (token.toList.takeWhile (· ≠ '.')))
  let exp ← readInt (.ofList (rest.takeWhile (· ≠ '.')))
  pure ⟨.ofList (rest.dropWhile (· ≠ '.')).tail, iat, exp⟩

theorem ne_dot_of_mem_toString {z : ℤ} {c : Char} (hc : c ∈ (toString z).toList) : decide (c ≠ '.') = true := by
  rw [decide_eq_true_eq]
  rintro rfl
  cases z with
  | ofNat n => exact notMem_toString (by decide) n hc
  | negSucc n =>
    have hsign : toString (Int.negSucc n) = "-" ++ toString (n + 1) := rfl
    rw [hsign, String.toList_append, List.mem_append] at hc
    rcases hc with hc | hc
    · revert hc
      decide
    · exact notMem_toString (by decide) (n + 1) hc

theorem readClaims_encodeClaims (claims : Claims) : readClaims (encodeClaims claims) = some claims := by
  have hcut : ∀ (z : ℤ) (rest : List Char),
      ((toString z).toList ++ '.' :: rest).takeWhile (· ≠ '.') = (toString z).toList ∧
        ((toString z).toList ++ '.' :: rest).dropWhile (· ≠ '.') = '.' :: rest := by
    intro z rest
    have hne : ∀ c ∈ (toString z).toList, decide (c ≠ '.') = true := fun _ => ne_dot_of_mem_toString
    rw [List.takeWhile_append_of_pos hne, List.dropWhile_append_of_pos hne]
    simp
  have htoList : (encodeClaims claims).toList =
      (toString claims.iat).toList ++ '.' :: ((toString claims.exp).toList ++ '.' :: claims.sub.toList) := by
    simp [encodeClaims]
  unfold readClaims
  rw [htoList, (hcut _ _).1, (hcut _ _).2, List.tail_cons]
  dsimp only
  rw [(hcut _ _).1, (hcut _ _).2]
  rw [String.ofList_toList, String.ofList_toList, readInt_toString, readInt_toString]
  simp

/-- Tokens that are not signed. -/
def jwt : Jwt where
  encode := encodeClaims
  decode now token := (readClaims token).filter fun claims => 1000 * claims.iat ≤ now ∧ now < 1000 * claims.exp
  decode_encode now claims := by
    rw [readClaims_encodeClaims, Option.filter_some]
    simp only [decide_eq_true_eq]

/-- A library that raises for the empty character, as bcrypt does. -/
def auth : Auth where
  passwords := ⟨bcrypt, fun password hash =>
    if '\x00' ∈ password.toList then none else some (hash = "$2b$12$hash" ∧ password = "admin123456")⟩
  jwt := jwt
  jwtExpireMinutes := 120

def loginRequest : LoginRequest where
  username := "admin"
  password := "admin123456"
  ip := some "10.0.0.5"
  userAgent := some "Mozilla/5.0"
  requestId := none
  username_length := by decide
  password_length := by decide

def fresh : Platform := ⟨.empty, ⟨fun _ => ⟨none, none⟩, .empty, []⟩⟩

def seeded : Platform := ⟨run (perform bcrypt Library.upper) .empty [.start seedSettings], fresh.sessions⟩

/-- The administrator logs in a second after the start, and deletes himself. -/
def farewell : List Visit :=
  [.start seedSettings, .login 1000 loginRequest, .request 2000 (createAccessToken auth 1000 1) (.deleteUser 0 1)]

def farewelled : Platform := run (visit auth Library.upper) fresh farewell

def formerAdmin : SysUser := ⟨1, "admin", "$2b$12$hash", some "系统管理员", none, none, 1, some 2000⟩

end Sample

theorem farewell_carried_out :
    (respondAs Sample.auth Library.upper
      (run (visit Sample.auth Library.upper) Sample.fresh (Sample.farewell.take 2)).system.db 2000
      (createAccessToken Sample.auth 1000 1) (.deleteUser 0 1)).isOk = true ∧
    Along (fun before v => ∀ now token request db, v = .request now token request →
      respondAs Sample.auth Library.upper (run (visit Sample.auth Library.upper) Sample.fresh before).system.db now token
        request = .ok db →
      ∃ user, Administrator (run (visit Sample.auth Library.upper) Sample.fresh before).system.db.accounts user ∧
        ∃ issue : Issue, issue.token = token ∧ issue.userId = user.id ∧
          now < issue.issuedAt + 60000 * Sample.auth.jwtExpireMinutes ∧
          Happened (fun earlier v => Granted Sample.auth
            (run (visit Sample.auth Library.upper) Sample.fresh earlier) issue v) before) Sample.farewell := by
  refine ⟨by decide +kernel, carried_out_for_administrator rfl ?_⟩
  rw [Sample.farewell, along_cons, along_cons, along_cons]
  refine ⟨trivial, trivial, fun _ => ⟨⟨createAccessToken Sample.auth 1000 1, 1, 1000⟩, ?_, rfl⟩, along_nil⟩
  decide +kernel

theorem former_admin_stays_out :
    (∀ now token current, getCurrentUser Sample.auth
      (run (visit Sample.auth Library.upper) Sample.farewelled [.start Sample.seedSettings]).users now token = .ok current →
      current.id ≠ 1) ∧
    (run (visit Sample.auth Library.upper) Sample.farewelled [.start Sample.seedSettings]).sessions.issued.filter
      (·.userId = 1) = Sample.farewelled.sessions.issued.filter (·.userId = 1) :=
  @deleted_user_stays_out Sample.auth Library.upper Sample.farewelled Sample.formerAdmin [.start Sample.seedSettings]
    (Table.mem_rows.mp (by decide +kernel)) (by decide)

theorem frozen_after_farewell :
    (run (visit Sample.auth Library.upper) Sample.farewelled
      [.login 3000 Sample.loginRequest,
        .request 4000 (createAccessToken Sample.auth 1000 1) (.createUser Sample.alice)]).system =
      Sample.farewelled.system := by
  refine frozen_without_administrator (fun user h => ?_) fun settings hmem => by simp at hmem
  have hdeleted : ∀ u ∈ Sample.farewelled.users, u.deletedAt ≠ none := by decide +kernel
  exact hdeleted user h.mem h.undeleted

theorem recorded_farewell : Sample.farewelled.sessions.Recorded :=
  recorded_run ⟨rfl, fun l hl => absurd hl (Table.notMem_empty l)⟩ Sample.farewell

end OpsMonitor.Management
