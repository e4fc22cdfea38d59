import OpsMonitor.Agent.Signer

/-! Signed requests through the gateway (`nginx/conf.d/default.conf`). The location of the API
sets `X-Request-ID` to an id of its own, and a header name has no case, so the backend checks the
signature against another request id than the one that was signed. -/

namespace OpsMonitor.Agent
open Library Base64

/-- The variables of the server that the location uses. -/
structure NginxVariables where
  host : String
  remoteAddr : String
  proxyAddXForwardedFor : String
  requestId : String

/-- `proxy_set_header`: the field replaces those of its name. -/
def proxySetHeader (name value : String) (headers : Headers) : Headers :=
  (name, value) :: headers.filter fun field => upper field.1 ≠ upper name

/-- `location /api/`. -/
def apiLocation (vars : NginxVariables) (headers : Headers) : Headers :=
  proxySetHeader "X-Request-ID" vars.requestId
    (proxySetHeader "X-Forwarded-For" vars.proxyAddXForwardedFor
      (proxySetHeader "X-Real-IP" vars.remoteAddr
        (proxySetHeader "Host" vars.host headers)))

theorem header?_proxySetHeader (headers : Headers) (name value other : String) :
    header? (proxySetHeader name value headers) other =
      if upper other = upper name then some value else header? headers other := by
  rw [proxySetHeader, header?_cons]
  split_ifs with h
  · rfl
  · have hsame : (fun field : String × String => decide (decide (upper field.1 ≠ upper name) = true ∧
        decide (upper field.1 = upper other) = true)) =
          fun field => decide (upper field.1 = upper other) := by
      funext field
      by_cases hother : upper field.1 = upper other
      · simp [hother, h]
      · simp [hother]
    rw [header?, List.find?_filter, hsame, header?]

theorem header?_apiLocation_of_ne {vars : NginxVariables} {headers : Headers} {name : String}
    (hname : ∀ n ∈ ["X-Request-ID", "X-Forwarded-For", "X-Real-IP", "Host"], upper name ≠ upper n) :
    header? (apiLocation vars headers) name = header? headers name := by
  simp only [List.mem_cons, List.not_mem_nil, or_false, forall_eq_or_imp, forall_eq] at hname
  obtain ⟨hid, hforwarded, hreal, hhost⟩ := hname
  rw [apiLocation, header?_proxySetHeader, if_neg hid, header?_proxySetHeader, if_neg hforwarded,
    header?_proxySetHeader, if_neg hreal, header?_proxySetHeader, if_neg hhost]

/-- The gateway replaces the request id and nothing else of the signature headers. -/
theorem signatureHeaders_apiLocation (vars : NginxVariables) (headers : Headers) :
    signatureHeaders (apiLocation vars headers) =
      { signatureHeaders headers with requestId := some vars.requestId } := by
  have hid : header? (apiLocation vars headers) "X-Request-Id" = some vars.requestId := by
    rw [apiLocation, header?_proxySetHeader, if_pos (by decide)]
  unfold signatureHeaders
  rw [hid, header?_apiLocation_of_ne (by decide), header?_apiLocation_of_ne (by decide),
    header?_apiLocation_of_ne (by decide)]

/-- The request id is part of what is signed. -/
theorem requestId_of_canonicalString {method path timestamp requestId requestId' : String}
    {body : Bytes} (h : canonicalString method path timestamp requestId body =
      canonicalString method path timestamp requestId' body) : requestId = requestId' := by
  have htext := utf8_injective h
  obtain ⟨hfront, -⟩ := separated_last_inj (c := '\n') (notMem_bodySha256 body)
    (notMem_bodySha256 body) htext
  exact (String.append_right_inj _).mp hfront

/-- What the backend answers to a request that it gets through the gateway. -/
def throughGateway (ed : Ed25519) (settings : SignatureSettings) (vars : NginxVariables)
    (redis : Redis) (now : ℚ) (request : Request) (token : OpsAgentToken) (server : OpsServer)
    (headers : Headers) : Except AppException Unit :=
  (verifyAgentSignature ed settings redis now request token server
    (signatureHeaders (apiLocation vars headers))).1

/-- No signed request passes the gateway: each is answered with an invalid signature. -/
theorem signed_request_refused (ed : Ed25519) (settings : SignatureSettings) (signer : AgentSigner)
    (vars : NginxVariables) (redis : Redis) (agentNow now : ℚ) (requestId : String)
    (request : Request) (token : OpsAgentToken) (server : OpsServer) (others : Headers)
    (hsigner : signer.Sound ed) (hkey : token.registeredKey = some signer.publicKeyB64)
    (hcode : signer.serverCode = server.serverCode)
    (hskew : |unixTime now - unixTime agentNow| ≤ settings.agentSignatureMaxSkew)
    (hfresh : vars.requestId ≠ requestId) :
    throughGateway ed settings vars redis now request token server
        (signer.signHeaders agentNow requestId request.method request.path request.body ++ others) =
      .error ⟨.agentSignatureInvalid, "请求签名无效", 401⟩ := by
  have hheaders := signatureHeaders_signHeaders signer agentNow requestId request.method
    request.path request.body others
  have hunverified : verifySignature ed signer.publicKeyB64 (b64encode (signer.sign
      (canonicalString request.method request.path (toString (unixTime agentNow)) requestId
        request.body))) (canonicalString request.method request.path
          (toString (unixTime agentNow)) vars.requestId request.body) = false := by
    rw [Bool.eq_false_iff, ne_eq, hsigner.verifySignature_iff]
    exact fun heq => hfresh (requestId_of_canonicalString heq)
  have hcheck : checkSignature ed settings now request token server (signatureHeaders (apiLocation
      vars (signer.signHeaders agentNow requestId request.method request.path request.body ++
        others))) = .error ⟨.agentSignatureInvalid, "请求签名无效", 401⟩ := by
    rw [signatureHeaders_apiLocation, hheaders]
    show checkHeaders ed settings now request token server signer.serverCode _ vars.requestId _ = _
    rw [checkHeaders, if_neg (not_not.mpr hcode), readInt_toString]
    dsimp only
    rw [if_neg (not_lt.mpr hskew), hkey]
    dsimp only
    rw [hunverified]
    rfl
  rw [throughGateway, verifyAgentSignature, hcheck]

/-! ## The agent of the installation -/

namespace Sample

def signer : AgentSigner := ⟨"web-01", publicKey, sign⟩

theorem length_signature {entry : Bytes × Bytes} (h : entry ∈ signatures) : entry.2.length = 64 := by
  have hall : ∀ entry ∈ signatures, entry.2.length = 64 := by decide +kernel
  exact hall entry h

theorem sign_injective : Function.Injective sign := by
  have hdistinct : (signatures.map Prod.snd).Nodup := by decide +kernel
  have hother : ∀ {entry : Bytes × Bytes} {message : Bytes}, entry ∈ signatures →
      entry.2 ≠ List.replicate 65 0 ++ message := by
    intro entry message hentry h
    have hlength := congrArg List.length h
    rw [length_signature hentry] at hlength
    simp at hlength
  intro message message' h
  unfold sign at h
  split at h
  · rename_i entry hfind
    have hentry := List.mem_of_find?_eq_some hfind
    split at h
    · rename_i entry' hfind'
      have hsame : entry = entry' :=
        List.inj_on_of_nodup_map hdistinct hentry (List.mem_of_find?_eq_some hfind') h
      have hmessage : entry.1 = message := by simpa using List.find?_some hfind
      have hmessage' : entry'.1 = message' := by simpa using List.find?_some hfind'
      rw [← hmessage, ← hmessage', hsame]
    · exact absurd h (hother hentry)
  · split at h
    · rename_i entry' hfind'
      exact absurd h.symm (hother (List.mem_of_find?_eq_some hfind'))
    · exact List.append_cancel_left h

theorem signer_sound : signer.Sound ed25519 where
  publicBytes := by decide
  verifies := fun message => decide_eq_true ⟨rfl, rfl⟩
  binds := fun message message' h => sign_injective (of_decide_eq_true h).2.symm

def nginx : NginxVariables :=
  ⟨"monitor", "10.0.0.1", "10.0.0.1", "fedcba9876543210fedcba9876543210"⟩

end Sample

/-- The heartbeat of the installation does not get through. -/
theorem signed_request_refused_heartbeat :
    throughGateway Sample.ed25519 ⟨true, 300⟩ Sample.nginx Sample.redis 1700000010 Sample.heartbeat
        Sample.token Sample.server (Sample.signer.signHeaders 1700000000 Sample.requestId
          Sample.heartbeat.method Sample.heartbeat.path Sample.heartbeat.body ++ []) =
      .error ⟨.agentSignatureInvalid, "请求签名无效", 401⟩ := by
  refine signed_request_refused Sample.ed25519 ⟨true, 300⟩ Sample.signer Sample.nginx Sample.redis
    1700000000 1700000010 Sample.requestId Sample.heartbeat Sample.token Sample.server []
    Sample.signer_sound rfl rfl (by decide +kernel) (by decide)

/-- A gateway in front of the backend breaks the signature of a request that would pass. -/
theorem gateway_breaks_signature :
    ¬ ∀ (ed : Ed25519) (settings : SignatureSettings) (signer : AgentSigner)
      (vars : NginxVariables) (redis : Redis) (agentNow now : ℚ) (requestId : String)
      (request : Request) (token : OpsAgentToken) (server : OpsServer) (others : Headers),
      signer.Sound ed → token.registeredKey = some signer.publicKeyB64 →
      signer.serverCode = server.serverCode →
      |unixTime now - unixTime agentNow| ≤ settings.agentSignatureMaxSkew →
      redis.available = true → ¬ redis.Holds now (replayKey server.id requestId) →
      ¬ redis.Holds now (replayKey server.id vars.requestId) → vars.requestId ≠ requestId →
      throughGateway ed settings vars redis now request token server
          (signer.signHeaders agentNow requestId request.method request.path request.body ++
            others) = .ok () := by
  intro hclaim
  have hpassed := hclaim Sample.ed25519 ⟨true, 300⟩ Sample.signer Sample.nginx Sample.redis
    1700000000 1700000010 Sample.requestId Sample.heartbeat Sample.token Sample.server []
    Sample.signer_sound rfl rfl (by decide +kernel) rfl (by decide) (by decide) (by decide)
  have hrefused : (throughGateway Sample.ed25519 ⟨true, 300⟩ Sample.nginx Sample.redis 1700000010
      Sample.heartbeat Sample.token Sample.server (Sample.signer.signHeaders 1700000000
        Sample.requestId Sample.heartbeat.method Sample.heartbeat.path Sample.heartbeat.body ++
          [])).isOk = false := by decide +kernel
  rw [hpassed] at hrefused
  cases hrefused

end OpsMonitor.Agent
