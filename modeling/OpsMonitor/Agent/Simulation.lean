import OpsMonitor.Agent.Isolation

/-! The endpoints over all tables refine the machine over the credentials: what they write besides never changes what
becomes of the tokens, the servers and the cache. -/

namespace OpsMonitor.Agent.Endpoints
open Library Management

/-! ## The call of a request -/

def Body.call : Body → AgentCall
  | .register data ip => .register data ip
  | .signingKey publicKey => .signingKey publicKey
  | .heartbeat data ip => .heartbeat data.serverId ip data.agentVersion
  | .metrics _ => .metrics
  | .assets _ => .assets
  | .services _ => .services
  | .tasksPending => .tasksPending
  | .taskResult _ => .taskResult

/-- The request without what it is about. -/
def Post.agent (r : Post) : AgentRequest := ⟨r.now, r.request, r.bearer, r.headers, r.body.call⟩

/-- The bound of the schema on the version in a registration. -/
def Post.Bounded (r : Post) : Prop :=
  ∀ data ip, r.body = .register data ip → ∀ version ∈ data.agentVersion, version.length ≤ 32

/-! ## The heartbeat is never in the way -/

section
variable {ip agentVersion : Option String} {servers servers' : Table OpsServer} {id : ℕ}
  {f : OpsServer → OpsServer} {hf : ∀ s, Keyed.key (f s) = Keyed.key s}

theorem nullable_varchar_ok {name : String} {n : ℕ} {value : Option String} (h : ∀ s ∈ value, s.length ≤ n) :
    ∃ stored, nullable (varchar name n) value = .ok stored := by
  cases value with
  | none => exact ⟨none, rfl⟩
  | some s =>
    have hfits : Fits n s := .of_length (h s rfl)
    obtain ⟨stored, hstored⟩ : ∃ stored, varchar name n s = .ok stored := varchar_isOk.mpr hfits
    refine ⟨some stored, ?_⟩
    rw [nullable, hstored]
    rfl

/-- The servers were written before: their column takes the address, and then the heartbeats take it too. -/
theorem ip_length (hok : serverSchema.modify servers id f hf = .ok servers') {server : OpsServer}
    (hmem : server ∈ servers) (hid : server.id = id) (haddress : (f server).ipAddress = orText ip server.ipAddress) :
    ∀ address ∈ ip, address.length ≤ 64 := by
  rintro address rfl
  have hrefuse := (Schema.modify_eq_ok.mp hok).1 server hmem hid
  have hcolumn : (f server).overflow = none := (Schema.refuse_eq_none.mp hrefuse).1
  have hlength := (overflow_eq_none.mp hcolumn).1
  rw [haddress, orText] at hlength
  split_ifs at hlength with hempty
  · rw [hempty]
    exact Nat.zero_le 64
  · exact hlength

theorem recordHeartbeat_ok (heartbeats : Table OpsAgentHeartbeat) (now : ℚ) (serverId : ℕ) (collectedAt : Option ℤ)
    (hversion : ∀ version ∈ agentVersion, version.length ≤ 32) (hip : ∀ address ∈ ip, address.length ≤ 64) :
    ∃ heartbeats', recordHeartbeat heartbeats now serverId agentVersion ip collectedAt = .ok heartbeats' := by
  obtain ⟨version, hversion⟩ := nullable_varchar_ok hversion
  obtain ⟨address, haddress⟩ := nullable_varchar_ok hip
  unfold recordHeartbeat
  rw [hversion, haddress]
  exact ⟨_, rfl⟩

end

/-! ## One request -/

section
variable {ed : Ed25519} {ι : Type} [DecidableEq ι] {collate : String → ι} {settings : SignatureSettings}
  {b : Backend} {now : ℚ} {token : OpsAgentToken} {server : OpsServer} {ip : Option String}

theorem heartbeat_credentials {data : HeartbeatRequest} (hmem : server ∈ b.servers) :
    (heartbeat b now server data ip).map Backend.credentials =
      Agent.heartbeat b.credentials now server data.serverId ip data.agentVersion := by
  unfold heartbeat
  cases hs : Agent.heartbeat b.credentials now server data.serverId ip data.agentVersion with
  | error e => rfl
  | ok s =>
    have hip : ∀ address ∈ ip, address.length ≤ 64 := by
      unfold Agent.heartbeat at hs
      split_ifs at hs
      obtain ⟨servers, hservers, -⟩ := bind_eq_ok.mp hs
      exact ip_length hservers hmem rfl rfl
    obtain ⟨heartbeats, hheartbeats⟩ :=
      recordHeartbeat_ok b.heartbeats now server.id data.timestamp data.agentVersion_length hip
    dsimp only [bind, Except.bind]
    rw [hheartbeats]
    rfl

theorem register_credentials (ed : Ed25519) (b : Backend) (now : ℚ) (ip : Option String) {data : RegisterRequest}
    (hversion : ∀ version ∈ data.agentVersion, version.length ≤ 32) :
    (register ed b now data ip).map Backend.credentials = Agent.register ed b.credentials now data ip := by
  unfold register
  cases hs : Agent.register ed b.credentials now data ip with
  | error e => rfl
  | ok s =>
    obtain ⟨token, server, servers, -, hserver, -, hservers, -⟩ := register_ok hs
    have hmem : server ∈ b.credentials.servers := (getServer_eq_some hserver).1
    have hip := ip_length hservers hmem rfl rfl
    obtain ⟨heartbeats, hheartbeats⟩ := recordHeartbeat_ok b.heartbeats now
      (((authenticate b.tokens now data.token).map (·.serverId)).getD 0) none hversion hip
    dsimp only [bind, Except.bind]
    rw [hheartbeats]
    rfl

/-- What an endpoint makes of the credentials, when it fails too. -/
def called (ed : Ed25519) (s : State) (now : ℚ) (token : OpsAgentToken) (server : OpsServer) :
    AgentCall → Except Failure State
  | .signingKey publicKey => rotateSigningKey ed s now token publicKey
  | .heartbeat serverId ip agentVersion => Agent.heartbeat s now server serverId ip agentVersion
  | .register .. | .metrics | .assets | .services | .tasksPending | .taskResult => .ok s

/-- An endpoint that leaves the tokens, the servers and the cache alone. -/
theorem getD_of_same {result : Except Failure (Backend × Reply)}
    (h : ∀ b' reply, result = .ok (b', reply) → b'.credentials = b.credentials) :
    ((result.map fun p => p.1.credentials).toOption.getD b.credentials) = b.credentials := by
  cases result with
  | error e => rfl
  | ok p => exact h p.1 p.2 rfl

theorem endpoint_credentials (ed : Ed25519) (collate : String → ι) (now : ℚ) (token : OpsAgentToken) (body : Body)
    (hmem : server ∈ b.servers) :
    (((endpoint ed collate b now token server body).map fun p => p.1.credentials).toOption.getD b.credentials) =
      (called ed b.credentials now token server body.call).toOption.getD b.credentials := by
  cases body with
  | register data ip => rfl
  | signingKey publicKey =>
    show _ = (rotateSigningKey ed b.credentials now token publicKey).toOption.getD _
    cases hs : rotateSigningKey ed b.credentials now token publicKey with
    | error e =>
      simp only [endpoint, hs]
      rfl
    | ok s =>
      simp only [endpoint, hs]
      rfl
  | heartbeat data ip =>
    show _ = (Agent.heartbeat b.credentials now server data.serverId ip data.agentVersion).toOption.getD _
    rw [← heartbeat_credentials hmem]
    cases hb : heartbeat b now server data ip with
    | error e =>
      simp only [endpoint, hb]
      rfl
    | ok b' =>
      simp only [endpoint, hb]
      rfl
  | metrics data =>
    refine getD_of_same fun b' reply h => ?_
    obtain ⟨metrics, -, h⟩ := bind_eq_ok.mp h
    obtain ⟨rfl, -⟩ := Prod.ext_iff.mp (pure_eq_ok.mp h)
    rfl
  | assets data =>
    refine getD_of_same fun b' reply h => ?_
    obtain ⟨assets, -, h⟩ := bind_eq_ok.mp h
    obtain ⟨rfl, -⟩ := Prod.ext_iff.mp (pure_eq_ok.mp h)
    rfl
  | services data =>
    refine getD_of_same fun b' reply h => ?_
    obtain ⟨services, -, h⟩ := bind_eq_ok.mp h
    obtain ⟨rfl, -⟩ := Prod.ext_iff.mp (pure_eq_ok.mp h)
    rfl
  | tasksPending =>
    refine getD_of_same fun b' reply h => ?_
    obtain ⟨rfl, -⟩ := Prod.ext_iff.mp (Except.ok.inj h)
    have hservers := (fetchPending_frame b.taskDb (stored now) server.id).1.servers
    exact congrArg (State.mk b.tokens · b.redis) hservers
  | taskResult data =>
    refine getD_of_same fun b' reply h => ?_
    obtain ⟨db, hdb, h⟩ := bind_eq_ok.mp h
    obtain ⟨rfl, -⟩ := Prod.ext_iff.mp (pure_eq_ok.mp h)
    exact congrArg (State.mk b.tokens · b.redis) (reportResult_frame hdb).1.servers

/-- A request other than a registration, on the credentials. -/
theorem serve_agent {r : Post} (h : ∀ data ip, r.body ≠ .register data ip) (s : State) :
    Agent.serve ed settings s r.agent =
      match resolveAgent ed settings s.tokens s.servers s.redis r.now r.request r.bearer r.headers with
      | (.error _, redis) => { s with redis := redis }
      | (.ok (token, server), redis) =>
        (called ed { s with redis := redis } r.now token server r.body.call).toOption.getD
          { s with redis := redis } := by
  obtain ⟨now, request, bearer, headers, body⟩ := r
  cases hresolve : resolveAgent ed settings s.tokens s.servers s.redis now request bearer headers with
  | mk result redis =>
    cases body with
    | register data ip => exact absurd rfl (h data ip)
    | _ =>
      simp only [Agent.serve, Post.agent, Body.call, serveSigned, hresolve]
      cases result with
      | error e => rfl
      | ok accepted => rfl

/-- One request does to the credentials what the smaller machine does. -/
theorem serve_credentials (ed : Ed25519) (collate : String → ι) (settings : SignatureSettings) (b : Backend) {r : Post}
    (hbounded : r.Bounded) :
    (serve ed collate settings b r).2.credentials = Agent.serve ed settings b.credentials r.agent := by
  by_cases hbody : ∃ data ip, r.body = .register data ip
  · obtain ⟨data, ip, hbody⟩ := hbody
    have hcall : r.agent.call = .register data ip := congrArg Body.call hbody
    have hagent : Agent.serve ed settings b.credentials r.agent =
        (Agent.register ed b.credentials r.now data ip).toOption.getD b.credentials := by
      simp only [Agent.serve, hcall]
      rfl
    rw [serve_register hbody, hagent, ← register_credentials ed b r.now ip (hbounded data ip hbody)]
    cases register ed b r.now data ip with
    | error e => rfl
    | ok b' => rfl
  · have hsigned : ∀ data ip, r.body ≠ .register data ip := fun data ip h => hbody ⟨data, ip, h⟩
    rw [(serve_signed ed collate settings b hsigned).2, serve_agent hsigned]
    show _ = match resolveAgent ed settings b.tokens b.servers b.redis r.now r.request r.bearer r.headers with
      | (.error _, redis) => _
      | (.ok (token, server), redis) => _
    cases hresolve : resolveAgent ed settings b.tokens b.servers b.redis r.now r.request r.bearer r.headers with
    | mk result redis =>
      cases result with
      | error e => rfl
      | ok accepted =>
        obtain ⟨token, server⟩ := accepted
        have hmem : server ∈ ({ b with redis := redis } : Backend).servers := (resolveAgent_server hresolve).2.1
        refine Eq.trans ?_ (endpoint_credentials ed collate r.now token r.body hmem)
        dsimp only
        cases endpoint ed collate { b with redis := redis } r.now token server r.body with
        | error e => rfl
        | ok answer => rfl

end

namespace Sample

/-- A registration of the first server, before its poll. -/
def registration : Post :=
  { post with
    body := .register { serverCode := "web-01", token := Agent.Sample.bearer, agentVersion := some "1.0.0" } none }

end Sample

end OpsMonitor.Agent.Endpoints
