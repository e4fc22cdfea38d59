import OpsMonitor.Agent.Authentication

/-! What an accepted request is known to be. With signatures required every check lies on every
accepting path; without, a request that leaves a header out is not checked at all. -/

namespace OpsMonitor.Agent
open Library Base64

variable {ed : Ed25519} {settings : SignatureSettings} {tokens : Table OpsAgentToken}
  {servers : Table OpsServer} {redis redis' : Redis} {now : ℚ} {request : Request} {bearer : String}
  {headers : SignatureHeaders} {token : OpsAgentToken} {server : OpsServer} {requestId : String}

/-- The token of the request and its server, as an accepted request must show them. -/
structure Authentic (ed : Ed25519) (settings : SignatureSettings) (tokens : Table OpsAgentToken)
    (servers : Table OpsServer) (redis redis' : Redis) (now : ℚ) (request : Request)
    (bearer : String) (headers : SignatureHeaders) (token : OpsAgentToken) (server : OpsServer) :
    Prop where
  token_mem : token ∈ tokens
  token_hash : token.tokenHash = hashToken bearer
  enabled : token.status = 1
  unexpired : ∀ expiresAt ∈ token.expiresAt, utcnow now ≤ 1000 * expiresAt
  unrevoked : token.revokedAt = none
  server_mem : server ∈ servers
  bound : server.id = token.serverId
  undeleted : server.deletedAt = none
  active : server.status = 1
  signed : ∃ timestamp requestId signature sent key,
    headers = ⟨some server.serverCode, some timestamp, some requestId, some signature⟩ ∧
      readInt timestamp = some sent ∧ |unixTime now - sent| ≤ settings.agentSignatureMaxSkew ∧
      token.registeredKey = some key ∧
      verifySignature ed key signature
        (canonicalString request.method request.path timestamp requestId request.body) = true ∧
      ¬ redis.Holds now (replayKey server.id requestId) ∧
      redis'.Holds now (replayKey server.id requestId)

theorem getServer_eq_some {id : ℕ} (h : getServer servers id = some server) :
    server ∈ servers ∧ server.id = id ∧ server.deletedAt = none := by
  unfold getServer at h
  cases hget : servers.get? id with
  | none => simp [hget] at h
  | some found =>
    obtain ⟨hmem, hid⟩ := Table.get?_eq_some.mp hget
    rw [hget] at h
    dsimp only at h
    split_ifs at h with hdeleted
    obtain rfl := Option.some.inj h
    exact ⟨hmem, hid, Option.isNone_iff_eq_none.mp hdeleted⟩

theorem resolveAgent_ok
    (h : resolveAgent ed settings tokens servers redis now request bearer headers =
      (.ok (token, server), redis')) :
    authenticate tokens now bearer = some token ∧ getServer servers token.serverId = some server ∧
      server.status = 1 ∧
      verifyAgentSignature ed settings redis now request token server headers = (.ok (), redis') := by
  unfold resolveAgent at h
  split at h
  · cases h
  · rename_i record htoken
    split at h
    · cases h
    · rename_i found hserver
      obtain ⟨hget, hactive⟩ := Option.filter_eq_some_iff.mp hserver
      split at h
      · cases h
      · rename_i redis₁ hverify
        obtain ⟨hresult, rfl⟩ := Prod.ext_iff.mp h
        obtain ⟨rfl, rfl⟩ := Prod.ext_iff.mp (Except.ok.inj hresult)
        exact ⟨htoken, hget, of_decide_eq_true hactive, hverify⟩

/-- A request that the authentication refuses leaves the cache as it was. -/
theorem resolveAgent_error {e : AppException}
    (h : resolveAgent ed settings tokens servers redis now request bearer headers =
      (.error e, redis')) : redis' = redis := by
  unfold resolveAgent at h
  split at h
  · exact (Prod.ext_iff.mp h).2.symm
  · split at h
    · exact (Prod.ext_iff.mp h).2.symm
    · split at h
      · rename_i e redis₁ hverify
        obtain ⟨-, rfl⟩ := Prod.ext_iff.mp h
        have hredis := redis_eq_of_refused (congrArg Prod.fst hverify)
        rwa [hverify] at hredis
      · cases h

theorem holds_of_isReplayed {serverId : ℕ} {ttlSeconds : ℤ}
    (h : isReplayed redis now serverId requestId ttlSeconds = some (false, redis')) :
    ¬ redis.Holds now (replayKey serverId requestId) ∧
      redis'.Holds now (replayKey serverId requestId) := by
  obtain ⟨-, hpositive, hfree, rfl⟩ := isReplayed_eq_false.mp h
  have hlater : now < now + (ttlSeconds : ℚ) := lt_add_of_pos_right _ (by exact_mod_cast hpositive)
  exact ⟨hfree, _, List.mem_cons_self, rfl, hlater⟩

/-- With signatures required, an accepted request is authentic. -/
theorem authentic_of_resolveAgent (hrequire : settings.agentRequireSignature = true)
    (h : resolveAgent ed settings tokens servers redis now request bearer headers =
      (.ok (token, server), redis')) :
    Authentic ed settings tokens servers redis redis' now request bearer headers token server := by
  obtain ⟨htoken, hserver, hactive, hverify⟩ := resolveAgent_ok h
  obtain ⟨htmem, hhash, hstatus, hexpires, hrevoked⟩ := authenticate_eq_some htoken
  obtain ⟨hsmem, hbound, hdeleted⟩ := getServer_eq_some hserver
  refine ⟨htmem, hhash, hstatus, hexpires, hrevoked, hsmem, hbound, hdeleted, hactive, ?_⟩
  rcases verifyAgentSignature_ok hverify with ⟨hnone, -⟩ | ⟨requestId, hsigned, hcache⟩
  · exact absurd hnone (checkSignature_ne_none hrequire)
  · have hfresh := hcache.resolve_right fun hdown => by simp [hrequire] at hdown
    obtain ⟨timestamp, signature, hheaders, ⟨sent, hsent, hskew⟩, key, hkey, hvalid⟩ := hsigned
    exact ⟨timestamp, requestId, signature, sent, key, hheaders, hsent, hskew, hkey, hvalid,
      holds_of_isReplayed hfresh⟩

theorem getAgentServer_eq {result : Except AppException OpsServer}
    (h : getAgentServer ed settings tokens servers redis now request bearer headers =
      (result, redis')) :
    ∃ r, resolveAgent ed settings tokens servers redis now request bearer headers = (r, redis') ∧
      result = r.map Prod.snd := by
  obtain ⟨hresult, rfl⟩ := Prod.ext_iff.mp h
  exact ⟨_, rfl, hresult.symm⟩

theorem getAgentToken_eq {result : Except AppException OpsAgentToken}
    (h : getAgentToken ed settings tokens servers redis now request bearer headers =
      (result, redis')) :
    ∃ r, resolveAgent ed settings tokens servers redis now request bearer headers = (r, redis') ∧
      result = r.map Prod.fst := by
  obtain ⟨hresult, rfl⟩ := Prod.ext_iff.mp h
  exact ⟨_, rfl, hresult.symm⟩

/-- With signatures required both dependencies accept authentic requests only, a refused request
leaves the cache alone, and the signed string has one reading: the upper-cased method, the path,
the timestamp, the request id and, unless the two bodies are a collision, the body. -/
theorem acceptance_sound (ed : Ed25519) (settings : SignatureSettings)
    (tokens : Table OpsAgentToken) (servers : Table OpsServer) (redis : Redis) (now : ℚ)
    (request : Request) (bearer : String) (headers : SignatureHeaders)
    (hrequire : settings.agentRequireSignature = true) :
    (∀ server redis', getAgentServer ed settings tokens servers redis now request bearer headers =
        (.ok server, redis') → ∃ token, Authentic ed settings tokens servers redis redis' now
          request bearer headers token server) ∧
      (∀ token redis', getAgentToken ed settings tokens servers redis now request bearer headers =
        (.ok token, redis') → ∃ server, Authentic ed settings tokens servers redis redis' now
          request bearer headers token server) ∧
      (∀ e redis', getAgentServer ed settings tokens servers redis now request bearer headers =
        (.error e, redis') → redis' = redis) ∧
      (∀ e redis', getAgentToken ed settings tokens servers redis now request bearer headers =
        (.error e, redis') → redis' = redis) ∧
      ∀ method path timestamp requestId body method' path' timestamp' requestId' body',
        '\n' ∉ method.toList → '\n' ∉ path.toList → '\n' ∉ timestamp.toList →
        '\n' ∉ method'.toList → '\n' ∉ path'.toList → '\n' ∉ timestamp'.toList →
        (bodySha256 body = bodySha256 body' → body = body') →
        canonicalString method path timestamp requestId body =
          canonicalString method' path' timestamp' requestId' body' →
        upper method = upper method' ∧ path = path' ∧ timestamp = timestamp' ∧
          requestId = requestId' ∧ body = body' := by
  refine ⟨?_, ?_, ?_, ?_, ?_⟩
  · intro server redis' h
    obtain ⟨r | ⟨token, found⟩, hresolve, hresult⟩ := getAgentServer_eq h
    · cases hresult
    · obtain rfl := Except.ok.inj hresult
      exact ⟨token, authentic_of_resolveAgent hrequire hresolve⟩
  · intro token redis' h
    obtain ⟨r | ⟨found, server⟩, hresolve, hresult⟩ := getAgentToken_eq h
    · cases hresult
    · obtain rfl := Except.ok.inj hresult
      exact ⟨server, authentic_of_resolveAgent hrequire hresolve⟩
  · intro e redis' h
    obtain ⟨r | r, hresolve, hresult⟩ := getAgentServer_eq h
    · exact resolveAgent_error hresolve
    · cases hresult
  · intro e redis' h
    obtain ⟨r | r, hresolve, hresult⟩ := getAgentToken_eq h
    · exact resolveAgent_error hresolve
    · cases hresult
  · intro method path timestamp requestId body method' path' timestamp' requestId' body' hm hp ht
      hm' hp' ht' hcollision h
    obtain ⟨hmethod, hpath, htimestamp, hid, hbody⟩ := canonicalString_inj hm hm' hp hp' ht ht' h
    exact ⟨hmethod, hpath, htimestamp, hid, hcollision hbody⟩

/-- A signed heartbeat is accepted. -/
theorem acceptance_sound_heartbeat :
    ∃ server redis', getAgentServer Sample.ed25519 ⟨true, 300⟩ Sample.tokens Sample.servers
        Sample.redis 1700000010 Sample.heartbeat Sample.bearer Sample.headers =
          (.ok server, redis') ∧
      ∃ token, Authentic Sample.ed25519 ⟨true, 300⟩ Sample.tokens Sample.servers Sample.redis redis'
        1700000010 Sample.heartbeat Sample.bearer Sample.headers token server := by
  have haccepted : (getAgentServer Sample.ed25519 ⟨true, 300⟩ Sample.tokens Sample.servers
      Sample.redis 1700000010 Sample.heartbeat Sample.bearer Sample.headers).1.isOk = true := by
    decide +kernel
  cases hresult : getAgentServer Sample.ed25519 ⟨true, 300⟩ Sample.tokens Sample.servers
      Sample.redis 1700000010 Sample.heartbeat Sample.bearer Sample.headers with
  | mk result redis' =>
    cases result with
    | error e =>
      rw [hresult] at haccepted
      cases haccepted
    | ok server =>
      refine ⟨server, redis', rfl, ?_⟩
      exact (acceptance_sound _ _ _ _ _ _ _ _ _ rfl).1 server redis' hresult

/-! ## Lenient mode -/

/-- The signature of the request is one of the registered key over what was received, in time,
and its request id was not used before. -/
def Genuine (ed : Ed25519) (settings : SignatureSettings) (redis : Redis) (now : ℚ)
    (request : Request) (token : OpsAgentToken) (server : OpsServer) (headers : SignatureHeaders) :
    Prop :=
  ∃ timestamp ∈ headers.timestamp, ∃ requestId ∈ headers.requestId,
    ∃ signature ∈ headers.signature,
      Verified ed settings now request token timestamp requestId signature ∧
        ¬ redis.Holds now (replayKey server.id requestId)

/-- A header besides the signature is missing, or the cache does not answer about a request that
passed the checks before. -/
def Unchecked (ed : Ed25519) (settings : SignatureSettings) (redis : Redis) (now : ℚ)
    (request : Request) (token : OpsAgentToken) (server : OpsServer) (headers : SignatureHeaders) :
    Prop :=
  headers.agentId = none ∨ headers.timestamp = none ∨ headers.requestId = none ∨
    (redis.available = false ∨ settings.agentSignatureMaxSkew ≤ 0) ∧
      ∃ requestId, Signed ed settings now request token server headers requestId

theorem Signed.genuine (h : Signed ed settings now request token server headers requestId)
    (hfree : ¬ redis.Holds now (replayKey server.id requestId)) :
    Genuine ed settings redis now request token server headers := by
  obtain ⟨timestamp, signature, rfl, hverified⟩ := h
  exact ⟨timestamp, rfl, requestId, rfl, signature, rfl, hverified, hfree⟩

/-- In lenient mode a request without one of the headers passes. -/
theorem checkSignature_incomplete (hlenient : settings.agentRequireSignature = false)
    (hmissing : headers.agentId = none ∨ headers.timestamp = none ∨ headers.requestId = none) :
    checkSignature ed settings now request token server headers = .ok none := by
  unfold checkSignature
  split
  · rename_i hagent htimestamp hid _
    rcases hmissing with h | h | h
    · rw [h] at hagent; cases hagent
    · rw [h] at htimestamp; cases htimestamp
    · rw [h] at hid; cases hid
  · simp [hlenient]

theorem unchecked_accepted (hlenient : settings.agentRequireSignature = false)
    (h : Unchecked ed settings redis now request token server headers) :
    (verifyAgentSignature ed settings redis now request token server headers).1 = .ok () := by
  have hincomplete : (headers.agentId = none ∨ headers.timestamp = none ∨ headers.requestId = none) →
      (verifyAgentSignature ed settings redis now request token server headers).1 = .ok () := by
    intro hmissing
    rw [verifyAgentSignature, checkSignature_incomplete hlenient hmissing]
  rcases h with h | h | h | ⟨hdown, requestId, hsigned⟩
  · exact hincomplete (.inl h)
  · exact hincomplete (.inr (.inl h))
  · exact hincomplete (.inr (.inr h))
  · have herror : isReplayed redis now server.id requestId (settings.agentSignatureMaxSkew * 2) =
        none := isReplayed_eq_none.mpr (hdown.imp_right fun hle => by omega)
    rw [verifyAgentSignature, checkSignature_eq_some.mpr hsigned]
    simp only [herror, hlenient, Bool.false_eq_true, if_false]

/-- A complete request with a key registered is not let through unsigned. -/
theorem incomplete_of_checkSignature {key signature : String} (hkey : token.registeredKey = some key)
    (hsignature : headers.signature = some signature)
    (h : checkSignature ed settings now request token server headers = .ok none) :
    headers.agentId = none ∨ headers.timestamp = none ∨ headers.requestId = none := by
  by_contra hcomplete
  simp only [not_or, ← ne_eq, Option.ne_none_iff_exists'] at hcomplete
  obtain ⟨⟨agentId, hagent⟩, ⟨timestamp, htimestamp⟩, requestId, hid⟩ := hcomplete
  rw [checkSignature, hagent, htimestamp, hid, hsignature] at h
  obtain ⟨-, -, ⟨hno, -⟩ | ⟨-, -, -, hr⟩⟩ := checkHeaders_eq_ok.mp h
  · rw [hkey] at hno
    cases hno
  · cases hr

theorem genuine_of_accepted {key signature : String} (hkey : token.registeredKey = some key)
    (hsignature : headers.signature = some signature)
    (hchecked : ¬ Unchecked ed settings redis now request token server headers)
    (h : (verifyAgentSignature ed settings redis now request token server headers).1 = .ok ()) :
    Genuine ed settings redis now request token server headers := by
  rcases verifyAgentSignature_ok (Prod.ext h rfl) with ⟨hnone, -⟩ | ⟨requestId, hsigned, hcache⟩
  · refine absurd ?_ hchecked
    rcases incomplete_of_checkSignature hkey hsignature hnone with h | h | h
    · exact .inl h
    · exact .inr (.inl h)
    · exact .inr (.inr (.inl h))
  · rcases hcache with hfresh | ⟨herror, -⟩
    · exact hsigned.genuine (holds_of_isReplayed hfresh).1
    · refine absurd (.inr (.inr (.inr ⟨?_, requestId, hsigned⟩))) hchecked
      exact (isReplayed_eq_none.mp herror).imp_right fun hle => by omega

/-- In lenient mode, a request that presents a signature for a registered key is accepted only
when it is genuine, unless it leaves another header out or the cache does not answer. -/
theorem presented_signature_checked (ed : Ed25519) (settings : SignatureSettings) (redis : Redis)
    (now : ℚ) (request : Request) (token : OpsAgentToken) (server : OpsServer)
    (headers : SignatureHeaders) (hlenient : settings.agentRequireSignature = false)
    (hkey : token.registeredKey.isSome = true) (hsignature : headers.signature.isSome = true) :
    ((verifyAgentSignature ed settings redis now request token server headers).1 = .ok () →
        Genuine ed settings redis now request token server headers) ↔
      ¬ Unchecked ed settings redis now request token server headers ∨
        Genuine ed settings redis now request token server headers := by
  obtain ⟨key, hkey⟩ := Option.isSome_iff_exists.mp hkey
  obtain ⟨signature, hsignature⟩ := Option.isSome_iff_exists.mp hsignature
  constructor
  · intro h
    by_cases hunchecked : Unchecked ed settings redis now request token server headers
    · exact .inr (h (unchecked_accepted hlenient hunchecked))
    · exact .inl hunchecked
  · rintro (hchecked | hgenuine)
    · exact genuine_of_accepted hkey hsignature hchecked
    · exact fun _ => hgenuine

/-- The signed heartbeat with all its headers is checked. -/
theorem presented_signature_checked_heartbeat :
    (verifyAgentSignature Sample.ed25519 ⟨false, 300⟩ Sample.redis 1700000010 Sample.heartbeat
        Sample.token Sample.server Sample.headers).1 = .ok () ∧
      Genuine Sample.ed25519 ⟨false, 300⟩ Sample.redis 1700000010 Sample.heartbeat Sample.token
        Sample.server Sample.headers := by
  have haccepted : (verifyAgentSignature Sample.ed25519 ⟨false, 300⟩ Sample.redis 1700000010
      Sample.heartbeat Sample.token Sample.server Sample.headers).1 = .ok () := by decide +kernel
  refine ⟨haccepted, (presented_signature_checked _ _ _ _ _ _ _ _ rfl rfl rfl).mpr (.inl ?_)
    haccepted⟩
  rintro (h | h | h | ⟨h | h, -⟩)
  · cases h
  · cases h
  · cases h
  · cases h
  · exact absurd h (by decide)

/-- The heartbeat with another body, sent without its request id, is accepted. -/
theorem stripped_heartbeat_accepted :
    ¬ ∀ (ed : Ed25519) (settings : SignatureSettings) (redis : Redis) (now : ℚ) (request : Request)
      (token : OpsAgentToken) (server : OpsServer) (headers : SignatureHeaders),
      settings.agentRequireSignature = false → token.registeredKey.isSome = true →
      headers.signature.isSome = true →
      (verifyAgentSignature ed settings redis now request token server headers).1 = .ok () →
      Genuine ed settings redis now request token server headers := by
  intro hclaim
  obtain ⟨-, -, requestId, hid, -⟩ := hclaim Sample.ed25519 ⟨false, 300⟩ Sample.redis 1700000010
    { Sample.heartbeat with body := utf8 "tampered" } Sample.token Sample.server
    { Sample.headers with requestId := none } rfl rfl rfl (by decide +kernel)
  cases hid

end OpsMonitor.Agent
