import OpsMonitor.Agent.Records

/-! The authentication of the agent endpoints (`api/v1/deps.py`): the bearer token, then the
signature with its timestamp, then the cache of used request ids. The cache is not part of the
transaction, so what it holds afterwards is returned also when the request is refused. -/

namespace OpsMonitor.Agent
open Library Base64

structure SignatureSettings where
  agentRequireSignature : Bool := false
  agentSignatureMaxSkew : ℤ := 300

/-- The request as the framework hands it over. -/
structure Request where
  method : String
  path : String
  body : Bytes

/-- The headers `X-Agent-Id`, `X-Timestamp`, `X-Request-Id` and `X-Signature`. -/
structure SignatureHeaders where
  agentId : Option String
  timestamp : Option String
  requestId : Option String
  signature : Option String
  deriving DecidableEq

section
variable (ed : Ed25519) (settings : SignatureSettings)

/-- The checks of a request that has all four headers, up to the signature; with the request id
that is to be recorded, which is none when no key is registered. -/
def checkHeaders (now : ℚ) (request : Request) (token : OpsAgentToken) (server : OpsServer)
    (agentId timestamp requestId signature : String) : Except AppException (Option String) :=
  if agentId ≠ server.serverCode then
    .error ⟨.agentSignatureInvalid, "Agent 标识与凭证不匹配", 401⟩
  else
    match readInt timestamp with
    | none => .error ⟨.agentTimestampInvalid, "时间戳非法", 401⟩
    | some sent =>
      if settings.agentSignatureMaxSkew < |unixTime now - sent| then
        .error ⟨.agentTimestampInvalid, "时间戳超出允许范围", 401⟩
      else
        match token.registeredKey with
        | none =>
          if settings.agentRequireSignature then
            .error ⟨.agentSignatureInvalid, "未注册签名公钥", 401⟩
          else .ok none
        | some key =>
          if verifySignature ed key signature
              (canonicalString request.method request.path timestamp requestId request.body) then
            .ok (some requestId)
          else .error ⟨.agentSignatureInvalid, "请求签名无效", 401⟩

/-- The part of `_verify_agent_signature` before the cache is asked. -/
def checkSignature (now : ℚ) (request : Request) (token : OpsAgentToken) (server : OpsServer)
    (headers : SignatureHeaders) : Except AppException (Option String) :=
  match headers.agentId, headers.timestamp, headers.requestId, headers.signature with
  | some agentId, some timestamp, some requestId, some signature =>
    checkHeaders ed settings now request token server agentId timestamp requestId signature
  | _, _, _, _ =>
    if settings.agentRequireSignature then .error ⟨.agentSignatureMissing, "缺少请求签名", 401⟩
    else .ok none

/-- `_verify_agent_signature`. -/
def verifyAgentSignature (redis : Redis) (now : ℚ) (request : Request) (token : OpsAgentToken)
    (server : OpsServer) (headers : SignatureHeaders) : Except AppException Unit × Redis :=
  match checkSignature ed settings now request token server headers with
  | .error e => (.error e, redis)
  | .ok none => (.ok (), redis)
  | .ok (some requestId) =>
    match isReplayed redis now server.id requestId (settings.agentSignatureMaxSkew * 2) with
    | none =>
      if settings.agentRequireSignature then
        (.error ⟨.agentSignatureInvalid, "重放校验服务不可用", 503⟩, redis)
      else (.ok (), redis)
    | some (true, redis) => (.error ⟨.agentRequestReplayed, "请求已重放", 401⟩, redis)
    | some (false, redis) => (.ok (), redis)

/-- `_resolve_agent`. -/
def resolveAgent (tokens : Table OpsAgentToken) (servers : Table OpsServer) (redis : Redis)
    (now : ℚ) (request : Request) (token : String) (headers : SignatureHeaders) :
    Except AppException (OpsAgentToken × OpsServer) × Redis :=
  match authenticate tokens now token with
  | none => (.error ⟨.agentUnauthorized, "Agent 凭证无效", 401⟩, redis)
  | some tokenRecord =>
    match (getServer servers tokenRecord.serverId).filter (·.status = 1) with
    | none => (.error ⟨.serverNotFound, "服务器不存在或已停用", 404⟩, redis)
    | some server =>
      match verifyAgentSignature ed settings redis now request tokenRecord server headers with
      | (.error e, redis) => (.error e, redis)
      | (.ok (), redis) => (.ok (tokenRecord, server), redis)

/-- `get_agent_server`. -/
def getAgentServer (tokens : Table OpsAgentToken) (servers : Table OpsServer) (redis : Redis)
    (now : ℚ) (request : Request) (token : String) (headers : SignatureHeaders) :
    Except AppException OpsServer × Redis :=
  let (result, redis) := resolveAgent ed settings tokens servers redis now request token headers
  (result.map Prod.snd, redis)

/-- `get_agent_token`. -/
def getAgentToken (tokens : Table OpsAgentToken) (servers : Table OpsServer) (redis : Redis)
    (now : ℚ) (request : Request) (token : String) (headers : SignatureHeaders) :
    Except AppException OpsAgentToken × Redis :=
  let (result, redis) := resolveAgent ed settings tokens servers redis now request token headers
  (result.map Prod.fst, redis)

/-! ## What the checks establish -/

/-- The signature is one of the registered key over what was received, and the timestamp is
within the skew of the clock. -/
def Verified (now : ℚ) (request : Request) (token : OpsAgentToken)
    (timestamp requestId signature : String) : Prop :=
  (∃ sent ∈ readInt timestamp, |unixTime now - sent| ≤ settings.agentSignatureMaxSkew) ∧
    ∃ key ∈ token.registeredKey, verifySignature ed key signature
      (canonicalString request.method request.path timestamp requestId request.body) = true

/-- All four headers are there, the code is that of the server and the signature is verified. -/
def Signed (now : ℚ) (request : Request) (token : OpsAgentToken) (server : OpsServer)
    (headers : SignatureHeaders) (requestId : String) : Prop :=
  ∃ timestamp signature,
    headers = ⟨some server.serverCode, some timestamp, some requestId, some signature⟩ ∧
      Verified ed settings now request token timestamp requestId signature

end

section
variable {ed : Ed25519} {settings : SignatureSettings} {now : ℚ} {request : Request}
  {token : OpsAgentToken} {server : OpsServer} {headers : SignatureHeaders} {requestId : String}
  {redis : Redis}

/-- The ways a request with all four headers gets past the checks. -/
theorem checkHeaders_eq_ok {agentId timestamp requestId' signature : String} {r : Option String} :
    checkHeaders ed settings now request token server agentId timestamp requestId' signature =
        .ok r ↔
      agentId = server.serverCode ∧
        (∃ sent ∈ readInt timestamp, |unixTime now - sent| ≤ settings.agentSignatureMaxSkew) ∧
        ((token.registeredKey = none ∧ settings.agentRequireSignature = false ∧ r = none) ∨
          ∃ key ∈ token.registeredKey, verifySignature ed key signature (canonicalString
            request.method request.path timestamp requestId' request.body) = true ∧
              r = some requestId') := by
  unfold checkHeaders
  by_cases hagent : agentId = server.serverCode
  swap
  · simp [hagent]
  rw [if_neg (not_not.mpr hagent)]
  cases hsent : readInt timestamp with
  | none => simp
  | some sent =>
    by_cases hskew : settings.agentSignatureMaxSkew < |unixTime now - sent|
    · simp [hskew]
    · have hle := not_lt.mp hskew
      cases hkey : token.registeredKey with
      | none =>
        by_cases hrequire : settings.agentRequireSignature = true
        · simp [hskew, hrequire]
        · simpa [hagent, hskew, hle, hrequire] using eq_comm
      | some key =>
        by_cases hverify : verifySignature ed key signature (canonicalString request.method
            request.path timestamp requestId' request.body) = true
        · simpa [hagent, hskew, hle, hverify] using eq_comm
        · simp [hskew, hverify]

theorem checkSignature_eq_some :
    checkSignature ed settings now request token server headers = .ok (some requestId) ↔
      Signed ed settings now request token server headers requestId := by
  obtain ⟨agentId, timestamp, requestId', signature⟩ := headers
  constructor
  · intro h
    unfold checkSignature at h
    split at h
    · rename_i agentId timestamp requestId' signature hagent htimestamp hid hsignature
      obtain ⟨rfl, hsent, ⟨-, -, hr⟩ | ⟨key, hkey, hverify, hr⟩⟩ := checkHeaders_eq_ok.mp h
      · cases hr
      · obtain rfl := Option.some.inj hr
        refine ⟨timestamp, signature, ?_, hsent, key, hkey, hverify⟩
        rw [← hagent, ← htimestamp, ← hid, ← hsignature]
    · split at h <;> cases h
  · rintro ⟨timestamp', signature', heq, hsent, key, hkey, hverify⟩
    obtain ⟨rfl, rfl, rfl, rfl⟩ := SignatureHeaders.mk.inj heq
    exact checkHeaders_eq_ok.mpr ⟨rfl, hsent, .inr ⟨key, hkey, hverify, rfl⟩⟩

/-- With signatures required, no request passes without one. -/
theorem checkSignature_ne_none (hrequire : settings.agentRequireSignature = true) :
    checkSignature ed settings now request token server headers ≠ .ok none := by
  intro h
  unfold checkSignature at h
  split at h
  · obtain ⟨-, -, ⟨-, hlenient, -⟩ | ⟨key, -, -, hr⟩⟩ := checkHeaders_eq_ok.mp h
    · rw [hrequire] at hlenient
      cases hlenient
    · cases hr
  · rw [if_pos hrequire] at h
    cases h

theorem verifyAgentSignature_ok {redis' : Redis}
    (h : verifyAgentSignature ed settings redis now request token server headers =
      (.ok (), redis')) :
    (checkSignature ed settings now request token server headers = .ok none ∧ redis' = redis) ∨
      ∃ requestId, Signed ed settings now request token server headers requestId ∧
        (isReplayed redis now server.id requestId (settings.agentSignatureMaxSkew * 2) =
            some (false, redis') ∨
          isReplayed redis now server.id requestId (settings.agentSignatureMaxSkew * 2) = none ∧
            settings.agentRequireSignature = false ∧ redis' = redis) := by
  unfold verifyAgentSignature at h
  split at h
  · cases h
  · rename_i hcheck
    exact .inl ⟨hcheck, (Prod.ext_iff.mp h).2.symm⟩
  · rename_i requestId hcheck
    refine .inr ⟨requestId, checkSignature_eq_some.mp hcheck, ?_⟩
    split at h
    · rename_i hdown
      split_ifs at h with hrequire
      · cases h
      · exact .inr ⟨hdown, Bool.eq_false_iff.mpr hrequire, (Prod.ext_iff.mp h).2.symm⟩
    · cases h
    · rename_i hfresh
      obtain rfl := (Prod.ext_iff.mp h).2
      exact .inl hfresh

/-- A refused request leaves the cache as it was. -/
theorem redis_eq_of_refused {e : AppException}
    (h : (verifyAgentSignature ed settings redis now request token server headers).1 = .error e) :
    (verifyAgentSignature ed settings redis now request token server headers).2 = redis := by
  unfold verifyAgentSignature at h ⊢
  split at h
  · rfl
  · cases h
  · split at h
    · split_ifs at h ⊢
      rfl
    · rename_i hreplayed
      exact (isReplayed_eq_true hreplayed).2
    · cases h

end

/-! ## An agent

One server, its token with the key whose seed are the bytes from 0 to 31, and requests that this
key signed. -/

namespace Sample

def publicKey : Bytes :=
  [3, 161, 7, 191, 243, 206, 16, 190, 29, 112, 221, 24, 231, 75, 192, 153, 103, 228, 214, 48,
    155, 165, 13, 95, 29, 220, 134, 100, 18, 85, 49, 184]

def heartbeatSignature : Bytes :=
  [123, 187, 91, 179, 199, 34, 48, 146, 147, 120, 70, 178, 181, 14, 173, 31, 67, 248, 222, 44,
    71, 168, 161, 3, 63, 63, 36, 144, 164, 121, 131, 96, 116, 147, 65, 101, 218, 43, 30, 224, 131,
    142, 83, 243, 113, 160, 52, 245, 95, 197, 52, 119, 62, 98, 30, 9, 87, 91, 4, 11, 12, 10, 169,
    4]

def earlySignature : Bytes :=
  [132, 214, 54, 106, 83, 153, 118, 73, 15, 207, 186, 174, 202, 17, 59, 221, 81, 77, 159, 179,
    183, 92, 195, 196, 68, 43, 138, 166, 206, 184, 239, 212, 1, 91, 231, 249, 80, 83, 65, 31, 138,
    29, 253, 236, 191, 37, 156, 204, 146, 194, 184, 35, 91, 15, 197, 146, 54, 24, 36, 197, 182,
    60, 211, 6]

def pollSignature : Bytes :=
  [75, 111, 147, 249, 126, 17, 114, 133, 149, 27, 186, 80, 139, 247, 175, 184, 234, 108, 62, 148,
    231, 221, 103, 150, 87, 221, 3, 162, 112, 166, 192, 255, 52, 118, 229, 59, 29, 72, 97, 226,
    29, 238, 36, 149, 53, 201, 65, 59, 0, 131, 222, 102, 224, 129, 231, 55, 209, 166, 39, 57, 18,
    37, 85, 5]

def heartbeat : Request := ⟨"POST", "/api/v1/agent/heartbeat", utf8 "{}"⟩

def poll : Request := ⟨"GET", "/api/v1/agent/tasks/pending", []⟩

def requestId : String := "0123456789abcdef0123456789abcdef"

/-- What the key signed: a heartbeat at two instants, and a poll. -/
def signatures : List (Bytes × Bytes) :=
  [(canonicalString heartbeat.method heartbeat.path "1700000000" requestId heartbeat.body,
      heartbeatSignature),
    (canonicalString heartbeat.method heartbeat.path "100" requestId heartbeat.body, earlySignature),
    (canonicalString poll.method poll.path "1700000000" requestId poll.body, pollSignature)]

/-- Signing with the key; messages that are not in the list get a text of no signature's length. -/
def sign (message : Bytes) : Bytes :=
  match signatures.find? fun entry => entry.1 = message with
  | some entry => entry.2
  | none => List.replicate 65 0 ++ message

/-- The signatures of the key are the ones that verify. -/
def ed25519 : Ed25519 where
  fromPublicBytes key := key.length = 32
  verify key signature message := key = publicKey ∧ signature = sign message

def server : OpsServer :=
  ⟨1, "web-01", "web-01", "10.0.0.1", 22, none, none, none, none, none, none, none, none, none,
    "ONLINE", none, none, 1, none⟩

def bearer : String := "agent-token"

def token : OpsAgentToken :=
  ⟨1, 1, "eb47b9ce4840a5b3ea138b8691253b78035b9289d9014409067e9844c272ef99", some (b64encode publicKey),
    some "ed25519", none, 1, none, none, none⟩

def tokens : Table OpsAgentToken := Table.empty.insert token

def servers : Table OpsServer := Table.empty.insert server

def headers : SignatureHeaders :=
  ⟨some "web-01", some "1700000000", some requestId, some (b64encode heartbeatSignature)⟩

def redis : Redis := ⟨true, []⟩

end Sample

end OpsMonitor.Agent
