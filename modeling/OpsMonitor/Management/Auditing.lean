import OpsMonitor.Management.Sessions
import OpsMonitor.Server.ClientAddress

/-! The audit of the management interface (`middleware/operation_log.py`, `middleware/request_context.py`) and the
envelopes of its answers (`exceptions/handlers.py`). A row is written after the answer, in a transaction of its own whose
failure is only logged. -/

namespace OpsMonitor.Management
open Library OpsMonitor.Alert

/-! ## Answers -/

/-- What the router returns to the middlewares: an envelope with its HTTP status, or an exception. -/
inductive Answer
  | envelope (httpStatus code : ℕ) (message : String)
  | raised (text : String)

def Answer.httpStatus : Answer → ℕ
  | .envelope httpStatus _ _ => httpStatus
  | .raised _ => 500

def Answer.errorMessage : Answer → Option String
  | .envelope _ _ _ => none
  | .raised text => some text

def Answer.resultStatus (answer : Answer) : String :=
  if 400 ≤ answer.httpStatus ∨ truthy answer.errorMessage then "FAILED" else "SUCCESS"

/-- The handlers of the application, and the text of an exception that reaches none of them. -/
structure Handlers where
  text : String → String
  text_size : ∀ exception, (text exception).utf8ByteSize ≤ 65535

/-- `register_exception_handlers`; the handler of `Exception` itself stands outside the middlewares. -/
def Handlers.handle (handlers : Handlers) : Failure → Answer
  | .app e => .envelope e.httpStatus e.code.value e.message
  | .integrity _ => .envelope 500 ErrorCode.internalError.value "服务器内部错误"
  | .dataError _ => .envelope 500 ErrorCode.internalError.value "服务器内部错误"
  | .keyError key => .raised (handlers.text key)
  | .uncaught exception => .raised (handlers.text exception)

def Request.method : Request → String
  | .createUser _ | .createServer _ | .createRule _ _ => "POST"
  | .updateUser _ _ | .updateRule _ _ => "PUT"
  | .deleteUser _ _ | .deleteRule _ => "DELETE"

/-- The path of a request, with the number as the client writes it. -/
def Request.path (number : String) : Request → String
  | .createUser _ => "/api/v1/users"
  | .updateUser _ _ | .deleteUser _ _ => "/api/v1/users/" ++ number
  | .createServer _ => "/api/v1/servers"
  | .createRule _ _ => "/api/v1/alerts/rules"
  | .updateRule _ _ | .deleteRule _ => "/api/v1/alerts/rules/" ++ number

/-- `success(...)`, with the status of the route. -/
def Request.success : Request → Answer
  | .createUser _ | .createServer _ | .createRule _ _ => .envelope 201 0 "创建成功"
  | .updateUser _ _ | .updateRule _ _ => .envelope 200 0 "更新成功"
  | .deleteUser _ _ | .deleteRule _ => .envelope 200 0 "删除成功"

/-! ## The context of a request -/

/-- FastAPI's `OAuth2PasswordBearer`: the scheme of the header has no case. -/
structure Bearer where
  token : String → Option String
  token_eq : ∀ scheme token', ' ' ∉ scheme.toList →
    token (scheme ++ " " ++ token') = if lower scheme = "bearer".toList then some token' else none

/-- What a client sends besides the body, and the request id that is drawn for it. -/
structure Client where
  authorization : Option String
  number : String
  requestIdHeader : Option String
  address : ForwardedRequest
  uuid : String
  uuid_length : uuid.length = 32

/-- `authorization[len("Bearer "):]`, of a header that starts so. -/
def bearerText (authorization : Option String) : Option String :=
  match authorization with
  | none => none
  | some text =>
    if "Bearer ".toList.isPrefixOf text.toList then some (.ofList (text.toList.drop 7)) else none

/-- `RequestContextMiddleware`: the user of the request, as far as the token tells. -/
def contextUser (auth : Auth) (now : Time) (client : Client) : Option ℤ :=
  (bearerText client.authorization).bind fun token => (decodeAccessToken auth now token).toOption

def Client.requestId (client : Client) : String := orText client.requestIdHeader client.uuid

/-! ## The operation log -/

structure SysOperationLog where
  id : ℕ
  userId : Option ℕ
  username : Option String
  module : String
  operation : String
  httpMethod : String
  requestPath : String
  requestIp : Option String
  requestId : String
  resultStatus : String
  errorMessage : Option String
  deriving DecidableEq

instance : Keyed SysOperationLog := ⟨SysOperationLog.id, fun n l => { l with id := n }, fun _ _ => rfl⟩

def excludePaths : List String :=
  ["/api/v1/health", "/api/v1/auth/login", "/docs", "/redoc", "/openapi.json"]

/-- The paths whose requests are recorded. -/
def audited (operationLogEnabled : Bool) (path : String) : Bool :=
  operationLogEnabled && "/api/v1".toList.isPrefixOf path.toList &&
    !"/api/v1/agent/".toList.isPrefixOf path.toList && path ∉ excludePaths

/-- `path.strip("/").split("/")`. -/
def pathParts (path : String) : List String :=
  ((trim (· = '/') path).toList.splitOn '/').map .ofList

def guessModule (path : String) : String := (pathParts path)[2]?.getD path

def guessResource (path : String) : String := (pathParts path)[3]?.getD (guessModule path)

/-- `select(SysUser.username).where(SysUser.id == user_id)`, deleted users included. -/
def userOf (users : Table SysUser) (userId : Option ℤ) : Option SysUser :=
  userId.bind fun id => (users.select fun u => (u.id : ℤ) = id).head?

def writeLog (users : Table SysUser) (logs : Table SysOperationLog) (client : Client) (userId : Option ℤ)
    (method path : String) (answer : Answer) : Except Failure (Table SysOperationLog) := do
  let user := userOf users userId
  let username ← nullable (varchar "username" 64) (user.map (·.username))
  let module ← varchar "module" 64 (guessModule path)
  let operation ← varchar "operation" 64 (method ++ " " ++ guessResource path)
  let httpMethod ← varchar "http_method" 16 method
  let requestPath ← varchar "request_path" 255 path
  let requestIp ← nullable (varchar "request_ip" 64) (getClientIp client.address)
  let requestId ← varchar "request_id" 64 client.requestId
  if userId.isSome ∧ user = none then .error (.integrity "fk_sys_operation_log_user")
  else
    pure (logs.insert
      { id := 0
        userId := user.map (·.id)
        username := username
        module := module
        operation := operation
        httpMethod := httpMethod
        requestPath := requestPath
        requestIp := requestIp
        requestId := requestId
        resultStatus := answer.resultStatus
        errorMessage := answer.errorMessage })

/-! ## Runs -/

/-- The platform with its operation log. -/
structure Site where
  platform : Platform
  operationLogs : Table SysOperationLog

/-- What the interface is built from. -/
structure Interface where
  auth : Auth
  upper : String → String
  handlers : Handlers
  bearer : Bearer
  operationLogEnabled : Bool

/-- What the router makes of a request. -/
def Interface.route (i : Interface) (p : Platform) (now : Time) (client : Client) (request : Request) :
    Platform × Answer :=
  match client.authorization.bind i.bearer.token with
  | none => (p, .envelope 401 ErrorCode.unauthorized.value "Not authenticated")
  | some token =>
    match respondAs i.auth i.upper p.system.db now token request with
    | .ok db => ({ p with system := { p.system with db := db } }, request.success)
    | .error e => (p, i.handlers.handle e)

/-- `OperationLogMiddleware.dispatch`, after the router. -/
def Interface.audit (i : Interface) (logs : Table SysOperationLog) (users : Table SysUser) (now : Time) (client : Client)
    (method path : String) (answer : Answer) : Table SysOperationLog :=
  if audited i.operationLogEnabled path then
    match writeLog users logs client (contextUser i.auth now client) method path answer with
    | .ok logs' => logs'
    | .error _ => logs
  else logs

inductive Call
  | login (now : Time) (request : LoginRequest)
  | request (now : Time) (client : Client) (request : Request)
  | start (settings : SeedSettings)

/-- A login is at one of the excluded paths. -/
def Interface.serve (i : Interface) (site : Site) : Call → Site
  | .login now request => { site with platform := visit i.auth i.upper site.platform (.login now request) }
  | .request now client request =>
    let (platform, answer) := i.route site.platform now client request
    ⟨platform, i.audit site.operationLogs platform.users now client request.method (request.path client.number) answer⟩
  | .start settings => { site with platform := visit i.auth i.upper site.platform (.start settings) }

example : audited true "/api/v1/auth/login" = false := by decide

example : (guessModule "/api/v1/users/7", guessResource "/api/v1/users/7") = ("users", "7") := by decide

/-! ## A refusal is an error to the log -/

section Refusals
universe u
variable {γ δ : Type u} {x : Except Failure γ} {f : γ → Except Failure δ} {e : AppException}

/-- Whatever the application refuses, it refuses with a status that the log calls failed. -/
def Refuses (x : Except Failure γ) : Prop := ∀ e, x = .error (.app e) → 400 ≤ e.httpStatus

theorem Refuses.bind (hx : Refuses x) (hf : ∀ a, Refuses (f a)) : Refuses (x >>= f) := by
  intro e h
  rcases bind_eq_error.mp h with h | ⟨a, -, h⟩
  · exact hx e h
  · exact hf a e h

theorem Silent.refuses (h : Silent x) : Refuses x := fun e he => absurd he (h e)

theorem refuses_error (h : 400 ≤ e.httpStatus) : Refuses (.error (.app e) : Except Failure γ) := by
  intro e' he
  obtain rfl := Failure.app.inj (Except.error.inj he)
  exact h

theorem Refuses.ite {c : Prop} [Decidable c] {y : Except Failure γ} (hx : Refuses x) (hy : Refuses y) :
    Refuses (if c then x else y) := by
  split_ifs
  · exact hx
  · exact hy

end Refusals

section
variable {users : Table SysUser} {accounts : Accounts} {hasher : PasswordHasher} {upper : String → String} {db : Db}

theorem refuses_getUser {userId : ℕ} : Refuses (getUser users userId) := by
  unfold getUser
  split
  · exact Refuses.ite (silent_ok _).refuses (refuses_error (by decide))
  · exact refuses_error (by decide)

theorem refuses_getRule {rules : Table AlertRule} {ruleId : ℕ} : Refuses (getRule rules ruleId) := by
  unfold getRule
  split
  · exact refuses_error (by decide)
  · exact (silent_ok _).refuses

theorem refuses_validateRoles {roles : Table SysRole} {roleIds : List ℤ} : Refuses (validateRoles roles roleIds) := by
  unfold validateRoles
  split
  · exact refuses_error (by simp)
  · exact (silent_ok _).refuses

theorem silent_hashPassword {password : String} : Silent (hashPassword hasher password) := by
  unfold hashPassword
  split <;> nofun

theorem silent_setRoles {userId : ℕ} {roleIds : List ℤ} : Silent (setRoles accounts userId roleIds) := by
  have hloop : ∀ (ids : List ℤ) (db : Accounts), Silent (ids.foldlM (fun db id => addUserRole db userId id) db) := by
    intro ids
    induction ids with
    | nil => exact fun db => silent_pure db
    | cons id ids ih =>
      intro db
      rw [List.foldlM_cons]
      have hadd : Silent (addUserRole db userId id) := by
        unfold addUserRole
        split_ifs <;> nofun
      exact hadd.bind ih
  exact hloop _ _

theorem refuses_createUser {data : UserCreate} : Refuses (createUser hasher accounts data) := by
  unfold createUser
  refine .ite (refuses_error (by decide)) (.ite (refuses_error (by decide)) ?_)
  refine refuses_validateRoles.bind fun _ => Silent.refuses (silent_hashPassword.bind fun hash => ?_)
  refine Silent.bind (userSchema_unhandled.insert_ne _) fun users => ?_
  split_ifs
  · exact silent_pure _
  · exact silent_setRoles

theorem refuses_updateUser {userId : ℕ} {data : UserUpdate} : Refuses (updateUser hasher accounts userId data) := by
  unfold updateUser
  refine refuses_getUser.bind fun user => ?_
  have hhash : Silent (newHash hasher user data.password.join) := by
    unfold newHash
    split
    · split_ifs
      · exact silent_ok _
      · exact silent_hashPassword
    · exact silent_ok _
  refine hhash.refuses.bind fun hash => .ite (refuses_error (by decide)) (refuses_validateRoles.bind fun _ => ?_)
  have hstatus : Silent (newStatus user data.status) := by
    unfold newStatus
    split <;> nofun
  refine Silent.refuses (hstatus.bind fun status => Silent.bind (userSchema_unhandled.modify_ne) fun users => ?_)
  split
  · exact silent_pure _
  · exact silent_setRoles

theorem refuses_deleteUser {now : Time} {userId : ℕ} : Refuses (deleteUser accounts now userId) :=
  refuses_getUser.bind fun _ => (silent_pure _).refuses

theorem refuses_createServer {servers : Table OpsServer} {data : ServerCreate} : Refuses (createServer servers data) :=
  .ite (refuses_error (by decide)) (.ite (refuses_error (by decide))
    (Silent.refuses (serverSchema_unhandled.insert_ne _)))

theorem refuses_respond {request : Request} : Refuses (respond hasher upper db request) := by
  cases request with
  | createUser data => exact refuses_createUser.bind fun _ => (silent_pure _).refuses
  | updateUser userId data => exact refuses_updateUser.bind fun _ => (silent_pure _).refuses
  | deleteUser now userId => exact refuses_deleteUser.bind fun _ => (silent_pure _).refuses
  | createServer data => exact refuses_createServer.bind fun _ => (silent_pure _).refuses
  | createRule data createdBy =>
    have hcreate : Refuses (createRule upper db.accounts.users db.rules data createdBy) :=
      .ite (refuses_error (by decide)) (silent_insertRule data).refuses
    exact hcreate.bind fun _ => (silent_pure _).refuses
  | updateRule ruleId data =>
    have hupdate : Refuses (updateRule upper db.rules ruleId data) :=
      refuses_getRule.bind fun rule => .ite (refuses_error (by decide)) silent_writeRule.refuses
    exact hupdate.bind fun _ => (silent_pure _).refuses
  | deleteRule ruleId =>
    have hdelete : Refuses (deleteRule db.rules db.events ruleId) :=
      refuses_getRule.bind fun rule => .ite (Silent.refuses nofun) (silent_pure _).refuses
    exact hdelete.bind fun _ => (silent_pure _).refuses

theorem refuses_respondAs {auth : Auth} {now : Time} {token : String} {request : Request} :
    Refuses (respondAs auth upper db now token request) := by
  have hdecode : Refuses (decodeAccessToken auth now token) := by
    unfold decodeAccessToken
    split
    · exact (silent_ok _).refuses
    · exact refuses_error (by decide)
  have hcurrent : Refuses (getCurrentUser auth db.accounts.users now token) := by
    refine hdecode.bind fun userId => ?_
    split
    · exact refuses_error (by decide)
    · exact Refuses.ite (refuses_error (by decide)) (silent_ok _).refuses
  have hroles : Refuses (requireRoles auth db.accounts now token ["SYSTEM_ADMIN"]) :=
    hcurrent.bind fun user => Refuses.ite (silent_ok _).refuses (refuses_error (by decide))
  exact hroles.bind fun user => refuses_respond

end

/-! ## A row of the log -/

/-- What a column of `n` characters keeps of a text that fits. -/
def stored (n : ℕ) (text : String) : String := .ofList (text.toList.take n)

theorem stored_of_length {n : ℕ} {text : String} (h : text.length ≤ n) : stored n text = text := by
  rw [stored, List.take_of_length_le h, String.ofList_toList]

theorem varchar_eq_ok {name : String} {n : ℕ} {text text' : String} :
    varchar name n text = .ok text' ↔ Fits n text ∧ stored n text = text' := by
  unfold varchar
  have hfits : (text.toList.drop n).all (· = ' ') = true ↔ Fits n text := by simp [Fits]
  split_ifs with h
  · rw [and_iff_right (hfits.mp h), Except.ok.injEq, stored]
  · exact iff_of_false nofun fun hboth => h (hfits.mpr hboth.1)

theorem nullable_varchar_eq_ok {name : String} {n : ℕ} {text text' : Option String} :
    nullable (varchar name n) text = .ok text' ↔ (∀ s ∈ text, Fits n s) ∧ text.map (stored n) = text' := by
  cases text with
  | none => simp [nullable]
  | some s => simp [nullable_some_eq_ok, varchar_eq_ok, and_assoc]

/-- The client's part of a row fits its columns. -/
structure Client.Loggable (client : Client) (request : Request) : Prop where
  module : Fits 64 (guessModule (request.path client.number))
  operation : Fits 64 (request.method ++ " " ++ guessResource (request.path client.number))
  requestPath : Fits 255 (request.path client.number)
  requestIp : ∀ ip ∈ getClientIp client.address, Fits 64 ip
  requestId : Fits 64 client.requestId

/-- The row that a request leaves when it leaves one. -/
def auditRow (users : Table SysUser) (client : Client) (userId : Option ℤ) (request : Request) (answer : Answer) :
    SysOperationLog where
  id := 0
  userId := (userOf users userId).map (·.id)
  username := (userOf users userId).map fun user => stored 64 user.username
  module := stored 64 (guessModule (request.path client.number))
  operation := stored 64 (request.method ++ " " ++ guessResource (request.path client.number))
  httpMethod := request.method
  requestPath := stored 255 (request.path client.number)
  requestIp := (getClientIp client.address).map (stored 64)
  requestId := stored 64 client.requestId
  resultStatus := answer.resultStatus
  errorMessage := answer.errorMessage

section
variable {users : Table SysUser} {logs logs' : Table SysOperationLog} {client : Client} {userId : Option ℤ}
  {request : Request} {answer : Answer}

theorem method_length : request.method.length ≤ 16 := by
  have hall : ∀ method ∈ ["POST", "PUT", "DELETE"], method.length ≤ 16 := by decide
  apply hall
  cases request <;> simp [Request.method]

theorem writeLog_eq_ok :
    writeLog users logs client userId request.method (request.path client.number) answer = .ok logs' ↔
      client.Loggable request ∧ (∀ user ∈ userOf users userId, Fits 64 user.username) ∧
        (userId.isSome → (userOf users userId).isSome) ∧
        logs' = logs.insert (auditRow users client userId request answer) := by
  have husername : (∀ s ∈ (userOf users userId).map (·.username), Fits 64 s) ↔
      ∀ user ∈ userOf users userId, Fits 64 user.username := by
    cases userOf users userId <;> simp
  unfold writeLog
  simp only [bind_eq_ok, nullable_varchar_eq_ok, varchar_eq_ok]
  constructor
  · rintro ⟨_, ⟨hname, rfl⟩, _, ⟨hmodule, rfl⟩, _, ⟨hoperation, rfl⟩, _, ⟨-, rfl⟩, _, ⟨hpath, rfl⟩, _, ⟨hip, rfl⟩,
      _, ⟨hid, rfl⟩, h⟩
    split_ifs at h with hfound
    refine ⟨⟨hmodule, hoperation, hpath, hip, hid⟩, husername.mp hname, fun hsome => ?_, ?_⟩
    · by_contra hnone
      exact hfound ⟨hsome, Option.not_isSome_iff_eq_none.mp hnone⟩
    · rw [← pure_eq_ok.mp h, stored_of_length method_length, Option.map_map]
      rfl
  · rintro ⟨hlog, hname, hfound, rfl⟩
    refine ⟨_, ⟨husername.mpr hname, rfl⟩, _, ⟨hlog.module, rfl⟩, _, ⟨hlog.operation, rfl⟩, _,
      ⟨Fits.of_length method_length, rfl⟩, _, ⟨hlog.requestPath, rfl⟩, _, ⟨hlog.requestIp, rfl⟩, _,
      ⟨hlog.requestId, rfl⟩, ?_⟩
    have hnone : ¬(userId.isSome ∧ userOf users userId = none) := by
      rintro ⟨hsome, hnone⟩
      have hthere := hfound hsome
      rw [hnone] at hthere
      cases hthere
    rw [if_neg hnone, stored_of_length method_length, Option.map_map]
    rfl

theorem path_eq (number : String) :
    ∃ a ∈ ["/api/v1/users", "/api/v1/servers", "/api/v1/alerts/rules"], ∃ rest, request.path number = a ++ rest := by
  have hsame : ∀ a : String, a = a ++ "" := fun a => (String.append_empty).symm
  have husers : "/api/v1/users/" ++ number = "/api/v1/users" ++ ("/" ++ number) := by
    rw [← String.append_assoc, show "/api/v1/users" ++ "/" = "/api/v1/users/" by decide]
  have hrules : "/api/v1/alerts/rules/" ++ number = "/api/v1/alerts/rules" ++ ("/" ++ number) := by
    rw [← String.append_assoc, show "/api/v1/alerts/rules" ++ "/" = "/api/v1/alerts/rules/" by decide]
  cases request with
  | createUser data => exact ⟨_, List.mem_cons_self, "", hsame _⟩
  | createServer data => exact ⟨_, by simp, "", hsame "/api/v1/servers"⟩
  | createRule data createdBy => exact ⟨_, by simp, "", hsame "/api/v1/alerts/rules"⟩
  | updateUser userId data => exact ⟨"/api/v1/users", by simp, "/" ++ number, husers⟩
  | deleteUser now userId => exact ⟨"/api/v1/users", by simp, "/" ++ number, husers⟩
  | updateRule ruleId data => exact ⟨"/api/v1/alerts/rules", by simp, "/" ++ number, hrules⟩
  | deleteRule ruleId => exact ⟨"/api/v1/alerts/rules", by simp, "/" ++ number, hrules⟩

theorem audited_path (number : String) : audited true (request.path number) = true := by
  obtain ⟨a, ha, rest, hpath⟩ := @path_eq request number
  have hfacts : ∀ a ∈ ["/api/v1/users", "/api/v1/servers", "/api/v1/alerts/rules"],
      "/api/v1".toList <+: a.toList ∧ ¬"/api/v1/agent/".toList <+: a.toList ∧ ¬a.toList <+: "/api/v1/agent/".toList ∧
        ∀ e ∈ excludePaths, ¬a.toList <+: e.toList := by decide
  obtain ⟨hapi, hagent, hagent', hexcluded⟩ := hfacts a ha
  have hprefix : a.toList <+: (request.path number).toList := by
    rw [hpath, String.toList_append]
    exact List.prefix_append _ _
  have hnot : ¬"/api/v1/agent/".toList <+: (request.path number).toList := by
    intro h
    rcases List.prefix_or_prefix_of_prefix h hprefix with h | h
    · exact hagent h
    · exact hagent' h
  have hnotMem : request.path number ∉ excludePaths := fun h => hexcluded _ h hprefix
  unfold audited
  rw [List.isPrefixOf_iff_prefix.mpr (hapi.trans hprefix), Bool.eq_false_iff.mpr fun h =>
    hnot (List.isPrefixOf_iff_prefix.mp h), decide_eq_true hnotMem]
  rfl

end

/-! ## The trail -/

/-- What a row says about who did what. -/
structure Trace where
  userId : Option ℕ
  username : Option String
  httpMethod : String
  requestPath : String
  deriving DecidableEq

def SysOperationLog.trace (row : SysOperationLog) : Trace :=
  ⟨row.userId, row.username, row.httpMethod, row.requestPath⟩

def successes (logs : Table SysOperationLog) : List Trace :=
  (logs.select fun row => row.resultStatus = "SUCCESS").map (·.trace)

/-- The trace of a request of the user. He is named if the header starts with `Bearer ` in this very spelling. -/
def Client.trace (client : Client) (request : Request) (user : SysUser) : Trace where
  userId := (bearerText client.authorization).map fun _ => user.id
  username := (bearerText client.authorization).map fun _ => user.username
  httpMethod := request.method
  requestPath := stored 255 (request.path client.number)

instance {n : ℕ} {text : String} : Decidable (Fits n text) :=
  inferInstanceAs (Decidable (∀ c ∈ text.toList.drop n, c = ' '))

instance {client : Client} {request : Request} : Decidable (client.Loggable request) :=
  decidable_of_iff (Fits 64 (guessModule (request.path client.number)) ∧
      Fits 64 (request.method ++ " " ++ guessResource (request.path client.number)) ∧
      Fits 255 (request.path client.number) ∧ (∀ ip ∈ getClientIp client.address, Fits 64 ip) ∧ Fits 64 client.requestId)
    ⟨fun h => ⟨h.1, h.2.1, h.2.2.1, h.2.2.2.1, h.2.2.2.2⟩, fun h => ⟨h.1, h.2, h.3, h.4, h.5⟩⟩

namespace Interface
variable (i : Interface)

/-- The user for whom a request is carried out. -/
def carriedOutFor (p : Platform) (now : Time) (client : Client) (request : Request) : Option SysUser :=
  (client.authorization.bind i.bearer.token).bind fun token =>
    match requireRoles i.auth p.system.db.accounts now token ["SYSTEM_ADMIN"],
      respondAs i.auth i.upper p.system.db now token request with
    | .ok user, .ok _ => some user
    | _, _ => none

def traces (p : Platform) : Call → List Trace
  | .request now client request =>
    match i.carriedOutFor p now client request with
    | some user => if client.Loggable request then [client.trace request user] else []
    | none => []
  | _ => []

/-- The traces of the requests of a run that are carried out and whose texts fit. -/
def trail : Site → List Call → List Trace
  | _, [] => []
  | site, call :: calls => i.traces site.platform call ++ trail (i.serve site call) calls

end Interface

section
variable {i : Interface} {auth : Auth} {upper : String → String} {p : Platform} {site : Site} {now : Time} {client : Client}
  {request : Request} {user : SysUser} {users : Table SysUser} {logs : Table SysOperationLog} {answer : Answer}

theorem carriedOutFor_eq_some : i.carriedOutFor p now client request = some user ↔
    ∃ token, client.authorization.bind i.bearer.token = some token ∧ Administrator p.system.db.accounts user ∧
      decodeAccessToken i.auth now token = .ok (user.id : ℤ) ∧
      ∃ db, respondAs i.auth i.upper p.system.db now token request = .ok db := by
  unfold Interface.carriedOutFor
  rw [Option.bind_eq_some_iff]
  refine exists_congr fun token => and_congr_right fun _ => ?_
  constructor
  · intro h
    split at h
    · rename_i user' db hroles hrespond
      obtain rfl := Option.some.inj h
      obtain ⟨hcurrent, code, hcode, hrole⟩ := requireRoles_eq_ok.mp hroles
      obtain rfl := List.mem_singleton.mp hcode
      obtain ⟨hdecode, hmem, hundeleted, henabled⟩ := getCurrentUser_eq_ok.mp hcurrent
      exact ⟨⟨hmem, hundeleted, henabled, hrole⟩, hdecode, db, hrespond⟩
    · cases h
  · rintro ⟨hadministrator, hdecode, db, hrespond⟩
    have hcurrent := getCurrentUser_eq_ok.mpr
      ⟨hdecode, hadministrator.mem, hadministrator.undeleted, hadministrator.enabled⟩
    have hroles := requireRoles_eq_ok.mpr ⟨hcurrent, _, List.mem_singleton_self _, hadministrator.role⟩
    rw [hroles, hrespond]

/-- The seeded names stay unique. -/
theorem System.Named.visit (h : p.system.Named) (v : Visit) : (visit auth upper p v).system.Named := by
  cases v with
  | login now request => rwa [system_login]
  | request now token request =>
    cases hok : respondAs auth upper p.system.db now token request with
    | error e => rwa [visit_request_error hok]
    | ok db =>
      obtain ⟨user, -, -, hrespond⟩ := respondAs_eq_ok.mp hok
      have hperform := @System.Named.perform auth.passwords.toPasswordHasher upper p.system h (.request (request.filled user now))
      rw [visit_request hok]
      simpa only [Management.perform, Management.serve, hrespond] using hperform
  | start settings =>
    have hperform := @System.Named.perform auth.passwords.toPasswordHasher upper p.system h (.start settings)
    cases hok : seed auth.passwords.toPasswordHasher settings p.system with
    | ok system => simpa only [Management.perform, Management.visit, hok] using hperform
    | error e => simpa only [Management.visit, hok] using h

theorem route_of_none (h : client.authorization.bind i.bearer.token = none) :
    i.route p now client request = (p, .envelope 401 ErrorCode.unauthorized.value "Not authenticated") := by
  simp only [Interface.route, h]

theorem route_ok {token : String} {db : Db} (h : client.authorization.bind i.bearer.token = some token)
    (hok : respondAs i.auth i.upper p.system.db now token request = .ok db) : i.route p now client request =
      ({ p with system := { p.system with db := db } }, request.success) := by
  simp only [Interface.route, h, hok]

theorem route_error {token : String} {e : Failure} (h : client.authorization.bind i.bearer.token = some token)
    (hok : respondAs i.auth i.upper p.system.db now token request = .error e) :
    i.route p now client request = (p, i.handlers.handle e) := by
  simp only [Interface.route, h, hok]

/-- The three ways of a request. -/
theorem route_cases : (∃ user, i.carriedOutFor p now client request = some user ∧
      (i.route p now client request).2 = request.success) ∨
    (i.carriedOutFor p now client request = none ∧ (i.route p now client request).1 = p ∧
      (i.route p now client request).2.resultStatus = "FAILED") := by
  cases htoken : client.authorization.bind i.bearer.token with
  | none =>
    right
    rw [route_of_none htoken]
    exact ⟨by simp only [Interface.carriedOutFor, htoken, Option.bind_none], rfl, if_pos (.inl (by show 400 ≤ 401; decide))⟩
  | some token =>
    cases hok : respondAs i.auth i.upper p.system.db now token request with
    | ok db =>
      obtain ⟨user, hadministrator, hdecode, -⟩ := respondAs_eq_ok.mp hok
      left
      rw [route_ok htoken hok]
      exact ⟨user, carriedOutFor_eq_some.mpr ⟨token, htoken, hadministrator, hdecode, db, hok⟩, rfl⟩
    | error e =>
      right
      rw [route_error htoken hok]
      refine ⟨?_, rfl, ?_⟩
      · rw [Option.eq_none_iff_forall_ne_some]
        intro user huser
        obtain ⟨token', htoken', -, -, db, hdb⟩ := carriedOutFor_eq_some.mp huser
        obtain rfl := Option.some.inj (htoken.symm.trans htoken')
        cases hok.symm.trans hdb
      · cases e with
        | app e => exact if_pos (.inl (refuses_respondAs e hok))
        | integrity key => exact if_pos (.inl (by show 400 ≤ 500; decide))
        | dataError column => exact if_pos (.inl (by show 400 ≤ 500; decide))
        | keyError key => exact if_pos (.inl (by show 400 ≤ 500; decide))
        | uncaught exception => exact if_pos (.inl (by show 400 ≤ 500; decide))

/-! ### The log after a request -/

theorem successes_insert {row : SysOperationLog} : successes (logs.insert row) =
    successes logs ++ if row.resultStatus = "SUCCESS" then [row.trace] else [] := by
  have hkey : (Keyed.withKey logs.next row).resultStatus = row.resultStatus := rfl
  unfold successes
  rw [Table.select_insert, List.map_append, hkey]
  congr 1
  by_cases h : row.resultStatus = "SUCCESS"
  · rw [if_pos h, if_pos (decide_eq_true h)]
    rfl
  · rw [if_neg h, if_neg (by simpa using h)]
    rfl

theorem successes_audit_failed (h : answer.resultStatus = "FAILED") :
    successes (i.audit logs users now client request.method (request.path client.number) answer) = successes logs := by
  unfold Interface.audit
  split_ifs
  · split
    · rename_i logs' hlog
      obtain ⟨-, -, -, rfl⟩ := writeLog_eq_ok.mp hlog
      rw [successes_insert, if_neg (by simp [auditRow, h]), List.append_nil]
    · rfl
  · rfl

/-- The user of the context is the one for whom the request is carried out, if the header spells `Bearer` so. -/
theorem contextUser_of_carriedOut (h : i.carriedOutFor p now client request = some user) :
    contextUser i.auth now client = (bearerText client.authorization).map fun _ => (user.id : ℤ) := by
  obtain ⟨token, htoken, -, hdecode, -⟩ := carriedOutFor_eq_some.mp h
  unfold contextUser
  cases htext : bearerText client.authorization with
  | none => rfl
  | some text =>
    have hsame : token = text := by
      cases hauthorization : client.authorization with
      | none =>
        rw [hauthorization] at htext
        cases htext
      | some header =>
        rw [hauthorization] at htoken htext
        unfold bearerText at htext
        dsimp only at htext
        split_ifs at htext with hprefix
        obtain ⟨rest, hrest⟩ := List.isPrefixOf_iff_prefix.mp hprefix
        have hheader : header = "Bearer" ++ " " ++ text := by
          rw [← Option.some.inj htext, ← String.toList_inj, ← hrest]
          simp
        rw [Option.bind_some, hheader, i.bearer.token_eq _ _ (by decide), if_pos (by decide)] at htoken
        exact (Option.some.inj htoken).symm
    rw [Option.bind_some, Option.map_some, ← hsame, hdecode]
    rfl

theorem successes_audit_success (henabled : i.operationLogEnabled = true) (h : answer.resultStatus = "SUCCESS")
    (hname : ∀ user ∈ userOf users (contextUser i.auth now client), Fits 64 user.username)
    (hfound : (contextUser i.auth now client).isSome → (userOf users (contextUser i.auth now client)).isSome) :
    successes (i.audit logs users now client request.method (request.path client.number) answer) = successes logs ++
      if client.Loggable request then [(auditRow users client (contextUser i.auth now client) request answer).trace]
      else [] := by
  unfold Interface.audit
  rw [henabled, if_pos (audited_path client.number)]
  by_cases hlog : client.Loggable request
  · rw [writeLog_eq_ok.mpr ⟨hlog, hname, hfound, rfl⟩]
    dsimp only
    have hrow : (auditRow users client (contextUser i.auth now client) request answer).resultStatus = "SUCCESS" := h
    rw [successes_insert, if_pos hrow, if_pos hlog]
  · split
    · rename_i logs' hok
      exact absurd (writeLog_eq_ok.mp hok).1 hlog
    · rw [if_neg hlog, List.append_nil]

theorem userOf_eq {user' : SysUser} (hmem : user' ∈ users) (hid : user'.id = user.id) :
    userOf users (some (user.id : ℤ)) = some user' := by
  unfold userOf
  rw [Option.bind_some]
  cases hfound : (users.select fun u => (u.id : ℤ) = user.id).head? with
  | none =>
    have hno := Table.head?_select_eq_none.mp hfound user' hmem
    simp [hid] at hno
  | some u =>
    obtain ⟨hu, hsame⟩ := Table.mem_select.mp (List.mem_of_mem_head? hfound)
    have hkey : u.id = user'.id := by
      have hcast := of_decide_eq_true hsame
      rw [hid]
      exact_mod_cast hcast
    rw [Table.eq_of_key_eq hu hmem hkey]

theorem trace_auditRow {userId : Option ℤ} {user' : SysUser}
    (huserOf : userOf users userId = (bearerText client.authorization).map fun _ => user') (hid : user'.id = user.id)
    (hname : user'.username = user.username) (hlength : user.username.length ≤ 64) :
    (auditRow users client userId request answer).trace = client.trace request user := by
  have hid' : (userOf users userId).map (·.id) = (bearerText client.authorization).map fun _ => user.id := by
    rw [huserOf, Option.map_map, ← hid]
    rfl
  have hname' : ((userOf users userId).map fun u => stored 64 u.username) =
      (bearerText client.authorization).map fun _ => user.username := by
    rw [huserOf, Option.map_map]
    refine congrArg (Option.map · _) (funext fun _ => ?_)
    show stored 64 user'.username = user.username
    rw [hname, stored_of_length hlength]
  simp only [auditRow, SysOperationLog.trace, Client.trace, hid', hname']

theorem successes_serve (h : site.platform.system.Named) (henabled : i.operationLogEnabled = true) (call : Call) :
    successes (i.serve site call).operationLogs = successes site.operationLogs ++ i.traces site.platform call := by
  cases call with
  | login now request => exact (List.append_nil _).symm
  | start settings => exact (List.append_nil _).symm
  | request now client request =>
    show successes (i.audit site.operationLogs (i.route site.platform now client request).1.users now client
      request.method (request.path client.number) (i.route site.platform now client request).2) = _
    rcases @route_cases i site.platform now client request with ⟨user, hcarried, hanswer⟩ | ⟨hnot, -, hfailed⟩
    · obtain ⟨token, htoken, hadministrator, hdecode, db, hok⟩ := carriedOutFor_eq_some.mp hcarried
      have htraces : i.traces site.platform (.request now client request) =
          if client.Loggable request then [client.trace request user] else [] := by
        simp only [Interface.traces, hcarried]
      have hsuccess : request.success.resultStatus = "SUCCESS" := by
        cases request <;> rfl
      -- the administrator is still in the table when the row is written
      obtain ⟨_, -, -, hrespond⟩ := respondAs_eq_ok.mp hok
      obtain ⟨user', hmem', hid, husername, -⟩ := respond_keeps hrespond hadministrator.mem
      have hnamed : (visit i.auth i.upper site.platform (.request now token request)).system.Named := h.visit _
      rw [visit_request hok] at hnamed
      have hfits : Fits 64 user'.username := by
        have hcolumn := hnamed.db.accounts.users.column user' hmem'
        exact Fits.of_length (SysUser.overflow_eq_none.mp hcolumn).1
      have hlength : user.username.length ≤ 64 :=
        (SysUser.overflow_eq_none.mp (h.db.accounts.users.column user hadministrator.mem)).1
      have hcontext := contextUser_of_carriedOut hcarried
      have huserOf : userOf db.accounts.users (contextUser i.auth now client) =
          (bearerText client.authorization).map fun _ => user' := by
        rw [hcontext]
        cases bearerText client.authorization with
        | none => rfl
        | some text => exact userOf_eq hmem' hid
      have hroute := route_ok htoken hok
      rw [hroute, htraces]
      dsimp only
      have hfits' : ∀ named ∈ userOf db.accounts.users (contextUser i.auth now client), Fits 64 named.username := by
        intro named hmem
        rw [huserOf] at hmem
        obtain ⟨_, -, rfl⟩ := Option.map_eq_some_iff.mp hmem
        exact hfits
      have hfound : (contextUser i.auth now client).isSome →
          (userOf db.accounts.users (contextUser i.auth now client)).isSome := by
        rw [huserOf, hcontext, Option.isSome_map, Option.isSome_map]
        exact id
      have hlog := @successes_audit_success i now client request db.accounts.users site.operationLogs request.success
        henabled hsuccess hfits' hfound
      rw [trace_auditRow huserOf hid husername hlength] at hlog
      exact hlog
    · rw [successes_audit_failed hfailed]
      have htraces : i.traces site.platform (.request now client request) = [] := by
        simp only [Interface.traces, hnot]
      rw [htraces, List.append_nil]

theorem named_serve (h : site.platform.system.Named) (call : Call) : (i.serve site call).platform.system.Named := by
  cases call with
  | login now request => exact @System.Named.visit i.auth i.upper site.platform h (.login now request)
  | start settings => exact @System.Named.visit i.auth i.upper site.platform h (.start settings)
  | request now client request =>
    show (i.route site.platform now client request).1.system.Named
    cases htoken : client.authorization.bind i.bearer.token with
    | none => rwa [route_of_none htoken]
    | some token =>
      cases hok : respondAs i.auth i.upper site.platform.system.db now token request with
      | error e => rwa [route_error htoken hok]
      | ok db =>
        have hvisit : (visit i.auth i.upper site.platform (.request now token request)).system.Named := h.visit _
        rw [visit_request hok] at hvisit
        rw [route_ok htoken hok]
        exact hvisit

/-- The successful rows of a run are the requests that were carried out and whose texts fit, one row each and in order.
Whatever a request changes, it changes for an administrator. -/
theorem audit_trail (h : site.platform.system.Named) (henabled : i.operationLogEnabled = true) (calls : List Call) :
    successes (run i.serve site calls).operationLogs = successes site.operationLogs ++ i.trail site calls ∧
    Along (fun before call => ∀ now client request, call = .request now client request →
      (i.serve (run i.serve site before) call).platform ≠ (run i.serve site before).platform →
      ∃ user, i.carriedOutFor (run i.serve site before).platform now client request = some user ∧
        Administrator (run i.serve site before).platform.system.db.accounts user) calls := by
  constructor
  · induction calls generalizing site with
    | nil => exact (List.append_nil _).symm
    | cons call calls ih =>
      show successes (run i.serve (i.serve site call) calls).operationLogs = _
      rw [ih (named_serve h call), successes_serve h henabled, List.append_assoc]
      rfl
  · rintro before call after rfl now client request rfl hchanged
    rcases @route_cases i (run i.serve site before).platform now client request with ⟨user, hcarried, -⟩ | ⟨-, hsame, -⟩
    · obtain ⟨-, -, hadministrator, -⟩ := carriedOutFor_eq_some.mp hcarried
      exact ⟨user, hcarried, hadministrator⟩
    · exact absurd hsame hchanged

end

namespace Sample

/-- `authorization.partition(" ")`. -/
def bearer : Bearer where
  token header :=
    if lower (.ofList (header.toList.takeWhile (· ≠ ' '))) = "bearer".toList then
      some (.ofList (header.toList.dropWhile (· ≠ ' ')).tail)
    else none
  token_eq scheme token' hscheme := by
    have hne : ∀ c ∈ scheme.toList, decide (c ≠ ' ') = true := by
      intro c hc
      rw [decide_eq_true_eq]
      rintro rfl
      exact hscheme hc
    have htoList : (scheme ++ " " ++ token').toList = scheme.toList ++ ' ' :: token'.toList := by simp
    rw [htoList, List.takeWhile_append_of_pos hne, List.dropWhile_append_of_pos hne]
    simp

def interface : Interface where
  auth := auth
  upper := Library.upper
  handlers := ⟨fun _ => "", fun _ => by decide⟩
  bearer := bearer
  operationLogEnabled := true

/-- The administrator's browser, which is free in how it spells the scheme. -/
def browser (scheme : String) : Client where
  authorization := some (scheme ++ " " ++ createAccessToken auth 1000 1)
  number := "1"
  requestIdHeader := none
  address := ⟨some "10.0.0.5", none⟩
  uuid := "0123456789abcdef0123456789abcdef"
  uuid_length := by decide

def started : Platform := visit auth Library.upper fresh (.start seedSettings)

/-- The administrator has logged in. -/
def site : Site := ⟨visit auth Library.upper started (.login 1000 loginRequest), .empty⟩

def deletion (scheme : String) : Call := .request 2000 (browser scheme) (.deleteUser 0 1)

end Sample

theorem named_site : Sample.site.platform.system.Named :=
  have hstarted : Sample.started.system.Named :=
    @System.Named.visit Sample.auth Library.upper Sample.fresh System.named_empty (.start Sample.seedSettings)
  hstarted.visit _

theorem browser_loggable (scheme : String) : (Sample.browser scheme).Loggable (.deleteUser 0 1) := by
  have hpath : (Request.deleteUser 0 1).path (Sample.browser scheme).number = "/api/v1/users/1" := by
    show "/api/v1/users/" ++ "1" = _
    decide
  have hmodule : guessModule "/api/v1/users/1" = "users" := by decide
  have hresource : guessResource "/api/v1/users/1" = "1" := by decide
  refine ⟨?_, ?_, ?_, ?_, ?_⟩
  · rw [hpath, hmodule]
    exact Fits.of_length (by decide)
  · rw [hpath, hresource]
    exact Fits.of_length (by decide)
  · rw [hpath]
    exact Fits.of_length (by decide)
  · have haddress : getClientIp ⟨some "10.0.0.5", none⟩ = some "10.0.0.5" := by decide
    show ∀ ip ∈ getClientIp ⟨some "10.0.0.5", none⟩, Fits 64 ip
    rw [haddress]
    rintro ip ⟨⟩
    exact Fits.of_length (by decide)
  · show Fits 64 "0123456789abcdef0123456789abcdef"
    exact Fits.of_length (by decide)

theorem traces_deletion {scheme : String} (h : Sample.interface.carriedOutFor Sample.site.platform 2000
    (Sample.browser scheme) (.deleteUser 0 1) = some { Sample.formerAdmin with deletedAt := none }) :
    Sample.interface.trail Sample.site [Sample.deletion scheme] =
      [(Sample.browser scheme).trace (.deleteUser 0 1) { Sample.formerAdmin with deletedAt := none }] := by
  rw [Interface.trail, Interface.trail, List.append_nil, Sample.deletion]
  simp only [Interface.traces, h, if_pos (browser_loggable scheme)]

/-- The same deletion under two spellings of the scheme: the second row does not say who deleted. -/
theorem audit_trail_spelling :
    successes (run Sample.interface.serve Sample.site [Sample.deletion "Bearer"]).operationLogs =
      [⟨some 1, some "admin", "DELETE", "/api/v1/users/1"⟩] ∧
    successes (run Sample.interface.serve Sample.site [Sample.deletion "bearer"]).operationLogs =
      [⟨none, none, "DELETE", "/api/v1/users/1"⟩] := by
  have hstored : stored 255 ((Request.deleteUser 0 1).path "1") = "/api/v1/users/1" :=
    stored_of_length (by decide)
  have hnamed : (bearerText (Sample.browser "Bearer").authorization).isSome = true := by decide +kernel
  have hunnamed : bearerText (Sample.browser "bearer").authorization = none := by decide +kernel
  obtain ⟨text, htext⟩ := Option.isSome_iff_exists.mp hnamed
  constructor
  · rw [(@audit_trail Sample.interface Sample.site named_site rfl _).1, traces_deletion (by decide +kernel)]
    show [] ++ [Trace.mk _ _ _ (stored 255 ((Request.deleteUser 0 1).path "1"))] = _
    rw [htext, hstored]
    rfl
  · rw [(@audit_trail Sample.interface Sample.site named_site rfl _).1, traces_deletion (by decide +kernel)]
    show [] ++ [Trace.mk _ _ _ (stored 255 ((Request.deleteUser 0 1).path "1"))] = _
    rw [hunnamed, hstored]
    rfl

end OpsMonitor.Management
