import OpsMonitor.Library.Loops
import OpsMonitor.Library.Runs
import OpsMonitor.Agent.Acceptance
import OpsMonitor.Agent.Service

/-! Who replaces the signing key of a token. The rotation endpoint asks for a signature of the
stored key; the registration asks for the bearer token only. -/

namespace OpsMonitor.Agent
open Library Base64

variable {ed : Ed25519} {settings : SignatureSettings} {s s' : State} {r : AgentRequest}
  {token token' : OpsAgentToken} {server : OpsServer}

/-! ## What a request can write -/

/-- The request is a rotation that was signed with the stored key of the token. -/
def SignedRotation (ed : Ed25519) (settings : SignatureSettings) (s : State) (r : AgentRequest)
    (token : OpsAgentToken) (publicKey : String) : Prop :=
  r.call = .signingKey publicKey ∧ ∃ server redis',
    resolveAgent ed settings s.tokens s.servers s.redis r.now r.request r.bearer r.headers =
      (.ok (token, server), redis')

/-- The request registers the agent of the token, with a key or without. -/
def Registration (s : State) (r : AgentRequest) (token : OpsAgentToken) (publicKey : Option String) :
    Prop :=
  ∃ data ip, r.call = .register data ip ∧ data.signingPublicKey = publicKey ∧
    authenticate s.tokens r.now data.token = some token

theorem tokens_register {now : ℚ} {data : RegisterRequest} {ip : Option String}
    (h : register ed s now data ip = .ok s') :
    ∃ token, authenticate s.tokens now data.token = some token ∧
      s'.tokens = s.tokens.modify token.id (registerKey ed now data.signingPublicKey)
        (key_registerKey ed now data.signingPublicKey) := by
  unfold register at h
  split at h
  · cases h
  · rename_i token htoken
    split at h
    · cases h
    · split_ifs at h
      obtain ⟨servers, -, h⟩ := bind_eq_ok.mp h
      obtain rfl := pure_eq_ok.mp h
      exact ⟨token, htoken, rfl⟩

theorem tokens_heartbeat {now : ℚ} {serverId : Option ℕ} {ip agentVersion : Option String}
    (h : heartbeat s now server serverId ip agentVersion = .ok s') : s'.tokens = s.tokens := by
  unfold heartbeat at h
  split_ifs at h
  obtain ⟨servers, -, h⟩ := bind_eq_ok.mp h
  obtain rfl := pure_eq_ok.mp h
  rfl

/-- Behind the authentication only the rotation writes a token. -/
theorem tokens_serveSigned (ed : Ed25519) (settings : SignatureSettings) (s : State)
    (r : AgentRequest) :
    (serveSigned ed settings s r).2.tokens = s.tokens ∨
      ∃ token publicKey, SignedRotation ed settings s r token publicKey ∧
        (serveSigned ed settings s r).2.tokens =
          s.tokens.modify token.id (·.withKey r.now publicKey) fun _ => rfl := by
  unfold serveSigned
  cases hresolve : resolveAgent ed settings s.tokens s.servers s.redis r.now r.request r.bearer
      r.headers with
  | mk result redis =>
    cases result with
    | error e => exact .inl rfl
    | ok p =>
      obtain ⟨token, server⟩ := p
      cases hcall : r.call with
      | register | metrics | assets | services | tasksPending | taskResult => exact .inl rfl
      | heartbeat serverId ip agentVersion =>
        left
        dsimp only
        cases hbeat : heartbeat { s with redis := redis } r.now server serverId ip agentVersion with
        | error e => rfl
        | ok s' =>
          have htokens := tokens_heartbeat hbeat
          exact htokens
      | signingKey publicKey =>
        dsimp only
        by_cases hvalid : isValidPublicKey ed publicKey = true
        · refine .inr ⟨token, publicKey, ⟨hcall, server, redis, hresolve⟩, ?_⟩
          rw [rotateSigningKey, if_pos hvalid]
          rfl
        · left
          rw [rotateSigningKey, if_neg hvalid]
          rfl

/-- A request leaves the tokens as they were, rotates a key, or registers an agent. -/
theorem tokens_serve (ed : Ed25519) (settings : SignatureSettings) (s : State) (r : AgentRequest) :
    (serve ed settings s r).tokens = s.tokens ∨
      (∃ token publicKey, SignedRotation ed settings s r token publicKey ∧
        (serve ed settings s r).tokens =
          s.tokens.modify token.id (·.withKey r.now publicKey) fun _ => rfl) ∨
      ∃ token publicKey, Registration s r token publicKey ∧
        (serve ed settings s r).tokens = s.tokens.modify token.id (registerKey ed r.now publicKey)
          (key_registerKey ed r.now publicKey) := by
  have hsigned := tokens_serveSigned ed settings s r
  unfold serve
  cases hcall : r.call with
  | register data ip =>
    dsimp only
    cases hregister : register ed s r.now data ip with
    | error e => exact .inl rfl
    | ok s' =>
      obtain ⟨token, htoken, htokens⟩ := tokens_register hregister
      exact .inr (.inr ⟨token, _, ⟨data, ip, hcall, rfl, htoken⟩, htokens⟩)
  | _ => exact hsigned.imp_right .inl

/-! ## Custody -/

/-- The request carries the signature, and `message` is what the backend checks it against. -/
def AgentRequest.Shows (r : AgentRequest) (signature : String) (message : Bytes) : Prop :=
  ∃ agentId timestamp requestId, r.headers = ⟨some agentId, some timestamp, some requestId, some signature⟩ ∧
    message = canonicalString r.request.method r.request.path timestamp requestId r.request.body

def SignedUnder (ed : Ed25519) (key : String) (r : AgentRequest) : Prop :=
  ∃ signature message, r.Shows signature message ∧ verifySignature ed key signature message = true

/-- No request replaces a key unless its signature verifies under the key. -/
def KeyKept (ed : Ed25519) (settings : SignatureSettings) (s : State) (r : AgentRequest) : Prop :=
  ∀ token ∈ s.tokens, ∀ token' ∈ (serve ed settings s r).tokens, token'.id = token.id →
    ∀ key, token.registeredKey = some key → token'.registeredKey ≠ some key → SignedUnder ed key r

/-- The request registers the agent again: it shows the token and the code of its server, and brings the new key. -/
def Reinstalled (ed : Ed25519) (s : State) (r : AgentRequest) (token token' : OpsAgentToken) : Prop :=
  ∃ data ip publicKey, r.call = .register data ip ∧ hashToken data.token = token.tokenHash ∧
    (∃ server ∈ s.servers, server.id = token.serverId ∧ server.serverCode = data.serverCode) ∧
    data.signingPublicKey = some publicKey ∧ isValidPublicKey ed publicKey = true ∧
    token'.signingPublicKey = some publicKey

/-- What a request can do to the keys, and what a signed-only endpoint accepts. -/
structure Custody (ed : Ed25519) (settings : SignatureSettings) (signedBy : String → Bytes → Prop) (s : State)
    (r : AgentRequest) : Prop where
  replaced : ∀ token ∈ s.tokens, ∀ token' ∈ (serve ed settings s r).tokens, token'.id = token.id →
    ∀ key, token.registeredKey = some key → token'.registeredKey ≠ some key →
      ((∃ publicKey, r.call = .signingKey publicKey ∧ token'.signingPublicKey = some publicKey) ∧ SignedUnder ed key r) ∨
        Reinstalled ed s r token token'
  accepted : ∀ token server, accepts ed settings s r = some (token, server) → token ∈ s.tokens ∧
    ∃ key signature message, token.registeredKey = some key ∧ r.Shows signature message ∧ signedBy key message

theorem signedUnder_of_resolveAgent (hrequire : settings.agentRequireSignature = true) {redis' : Redis}
    (h : resolveAgent ed settings s.tokens s.servers s.redis r.now r.request r.bearer r.headers =
      (.ok (token, server), redis')) :
    token ∈ s.tokens ∧ ∃ key, token.registeredKey = some key ∧ SignedUnder ed key r := by
  have hauthentic := authentic_of_resolveAgent hrequire h
  obtain ⟨timestamp, requestId, signature, sent, key, hheaders, -, -, hkey, hverify, -, -⟩ := hauthentic.signed
  exact ⟨hauthentic.token_mem, key, hkey, signature, _, ⟨_, timestamp, requestId, hheaders, rfl⟩, hverify⟩

theorem accepts_eq_some (h : accepts ed settings s r = some (token, server)) : ∃ redis',
    resolveAgent ed settings s.tokens s.servers s.redis r.now r.request r.bearer r.headers =
      (.ok (token, server), redis') := by
  have hserved : (serveSigned ed settings s r).1.toOption = some (token, server) := by
    unfold accepts at h
    split at h
    · cases h
    · exact h
  unfold serveSigned at hserved
  cases hresolve : resolveAgent ed settings s.tokens s.servers s.redis r.now r.request r.bearer r.headers with
  | mk result redis =>
    rw [hresolve] at hserved
    cases result with
    | error e => cases hserved
    | ok p =>
      obtain ⟨found, bound⟩ := p
      obtain ⟨rfl, rfl⟩ := Prod.mk.inj (Option.some.inj hserved)
      exact ⟨redis, rfl⟩

/-- A registration that succeeds shows the token and the code of its server. -/
theorem reinstalled_of_register {data : RegisterRequest} {ip : Option String} (hcall : r.call = .register data ip)
    (h : register ed s r.now data ip = .ok s') (hmem : token ∈ s.tokens) (hmem' : token' ∈ s'.tokens)
    (hid : token'.id = token.id) {key : String} (hkey : token.registeredKey = some key)
    (hnew : token'.registeredKey ≠ some key) : Reinstalled ed s r token token' := by
  obtain ⟨found, hfound, htokens⟩ := tokens_register h
  obtain ⟨hfoundMem, hhash, -⟩ := authenticate_eq_some hfound
  rw [htokens] at hmem'
  obtain ⟨old, hold, heq⟩ := Table.mem_modify.mp hmem'
  by_cases hsame : old.id = found.id
  · have hchosen : Keyed.key old = found.id := hsame
    rw [if_pos hchosen] at heq
    have holdId : old.id = token.id := by
      have hkeep := key_registerKey ed r.now data.signingPublicKey old
      rw [heq] at hkeep
      exact hkeep.symm.trans hid
    obtain rfl := Table.eq_of_key_eq hold hmem holdId
    obtain rfl := Table.eq_of_key_eq hfoundMem hold hsame.symm
    -- The key of the token changes only by a key that the registration brings.
    cases hbrought : data.signingPublicKey with
    | none =>
      rw [hbrought] at heq
      subst heq
      exact absurd hkey hnew
    | some publicKey =>
      rw [hbrought] at heq
      by_cases htaken : publicKey ≠ "" ∧ isValidPublicKey ed publicKey ∧ some publicKey ≠ found.signingPublicKey
      · refine ⟨data, ip, publicKey, hcall, hhash.symm, ?_, hbrought, htaken.2.1, ?_⟩
        · unfold register at h
          rw [hfound] at h
          dsimp only at h
          split at h
          · cases h
          · rename_i server hserver
            split_ifs at h with hcode
            obtain ⟨hget, -⟩ := Option.filter_eq_some_iff.mp hserver
            obtain ⟨hserverMem, hserverId, -⟩ := getServer_eq_some hget
            exact ⟨server, hserverMem, hserverId, not_not.mp hcode⟩
        · rw [← heq, registerKey, if_pos htaken]
          rfl
      · rw [registerKey, if_neg htaken] at heq
        subst heq
        exact absurd hkey hnew
  · have hother : ¬ Keyed.key old = found.id := hsame
    rw [if_neg hother] at heq
    subst heq
    obtain rfl := Table.eq_of_key_eq hold hmem hid
    exact absurd hkey hnew

theorem custody_serve (hrequire : settings.agentRequireSignature = true) {signedBy : String → Bytes → Prop}
    (hunforgeable : ∀ key signature message, verifySignature ed key signature message = true → signedBy key message)
    (s : State) (r : AgentRequest) : Custody ed settings signedBy s r where
  replaced token hmem token' hmem' hid key hkey hnew := by
    rcases tokens_serve ed settings s r with hsame | ⟨found, publicKey, ⟨hcall, server, redis', hresolve⟩, htokens⟩ |
      ⟨found, publicKey, ⟨data, ip, hcall, -, -⟩, -⟩
    · rw [hsame] at hmem'
      obtain rfl := Table.eq_of_key_eq hmem' hmem hid
      exact absurd hkey hnew
    · obtain ⟨hfoundMem, stored, hstored, hsigned⟩ := signedUnder_of_resolveAgent hrequire hresolve
      rw [htokens] at hmem'
      obtain ⟨old, hold, heq⟩ := Table.mem_modify.mp hmem'
      by_cases hsame : old.id = found.id
      · have hchosen : Keyed.key old = found.id := hsame
        rw [if_pos hchosen] at heq
        subst heq
        obtain rfl := Table.eq_of_key_eq hold hmem hid
        obtain rfl := Table.eq_of_key_eq hfoundMem hold hsame.symm
        obtain rfl := Option.some.inj (hstored.symm.trans hkey)
        exact .inl ⟨⟨publicKey, hcall, rfl⟩, hsigned⟩
      · have hother : ¬ Keyed.key old = found.id := hsame
        rw [if_neg hother] at heq
        subst heq
        obtain rfl := Table.eq_of_key_eq hold hmem hid
        exact absurd hkey hnew
    · right
      rw [serve, hcall] at hmem'
      dsimp only at hmem'
      cases hregister : register ed s r.now data ip with
      | error e =>
        rw [hregister] at hmem'
        obtain rfl := Table.eq_of_key_eq hmem' hmem hid
        exact absurd hkey hnew
      | ok s' =>
        rw [hregister] at hmem'
        exact reinstalled_of_register hcall hregister hmem hmem' hid hkey hnew
  accepted token server haccepts := by
    obtain ⟨redis', hresolve⟩ := accepts_eq_some haccepts
    obtain ⟨hmem, key, hkey, signature, message, hshows, hverify⟩ := signedUnder_of_resolveAgent hrequire hresolve
    exact ⟨hmem, key, signature, message, hkey, hshows, hunforgeable key signature message hverify⟩

/-- In every run a stored key is replaced by a rotation signed with it or by another registration, and a signed-only
endpoint accepts what the holder of the stored key signed. -/
theorem key_custody (ed : Ed25519) (settings : SignatureSettings) (signedBy : String → Bytes → Prop) (s : State)
    (requests : List AgentRequest) (hrequire : settings.agentRequireSignature = true)
    (hunforgeable : ∀ key signature message, verifySignature ed key signature message = true → signedBy key message) :
    Along (fun before r => Custody ed settings signedBy (run (serve ed settings) s before) r) requests :=
  fun before r _ _ => custody_serve hrequire hunforgeable (run (serve ed settings) s before) r

/-! ### A registration without a signature -/

namespace Sample

def otherKey : String := "ebVWLo/mVPlAeLES6KmLp5AfhTrmlb7X4OORC60ElmQ="

def state : State := ⟨tokens, servers, redis⟩

/-- Who knows the token registers the agent with a key of his own and signs nothing. -/
def registration : AgentRequest where
  now := 1700000010
  request := ⟨"POST", "/api/v1/agent/register", []⟩
  bearer := ""
  headers := ⟨none, none, none, none⟩
  call := .register { serverCode := "web-01", token := bearer, signingPublicKey := some otherKey } none

def tokenAfter : OpsAgentToken :=
  { Sample.token with
    signingPublicKey := some otherKey
    keyRegisteredAt := some 1700000010000
    lastUsedAt := some 1700000010000 }

/-- The signatures of the key, and no others, verify. -/
def strict : Ed25519 where
  fromPublicBytes key := key.length = 32
  verify key signature message := key = publicKey ∧ (message, signature) ∈ signatures

theorem strict_unforgeable (key signature : String) (message : Bytes)
    (h : verifySignature strict key signature message = true) : message ∈ signatures.map Prod.fst := by
  unfold verifySignature at h
  split at h
  · have hverify := of_decide_eq_true ((Bool.and_eq_true _ _).mp h).2
    exact List.mem_map.mpr ⟨_, hverify.2, rfl⟩
  · cases h

end Sample

theorem key_custody_registration :
    Along (fun before r => Custody Sample.strict ⟨true, 300⟩ (fun _ message => message ∈ Sample.signatures.map Prod.fst)
      (run (serve Sample.strict ⟨true, 300⟩) Sample.state before) r)
      [⟨1700000010, Sample.heartbeat, Sample.bearer, Sample.headers, .heartbeat none none none⟩, Sample.registration] :=
  key_custody Sample.strict ⟨true, 300⟩ _ Sample.state _ rfl Sample.strict_unforgeable

theorem registration_replaces_key :
    ¬ ∀ (ed : Ed25519) (settings : SignatureSettings) (s : State) (requests : List AgentRequest),
      settings.agentRequireSignature = true →
      Along (fun before r => KeyKept ed settings (run (serve ed settings) s before) r) requests := by
  intro h
  have hkept : KeyKept Sample.strict ⟨true, 300⟩ Sample.state Sample.registration :=
    h Sample.strict ⟨true, 300⟩ Sample.state [Sample.registration] rfl [] Sample.registration [] rfl
  have hregistered : Sample.tokenAfter ∈
      (serve Sample.strict ⟨true, 300⟩ Sample.state Sample.registration).tokens.rows := by
    decide +kernel
  have hstored : Sample.token ∈ Sample.state.tokens.rows := by decide +kernel
  have hkey : Sample.token.registeredKey = some (b64encode Sample.publicKey) := by decide +kernel
  have hid : Sample.tokenAfter.id = Sample.token.id := rfl
  have hnew : Sample.tokenAfter.registeredKey ≠ some (b64encode Sample.publicKey) := by decide +kernel
  obtain ⟨signature, message, ⟨agentId, timestamp, requestId, hheaders, -⟩, -⟩ :=
    hkept Sample.token (Table.mem_rows.mp hstored) Sample.tokenAfter (Table.mem_rows.mp hregistered) hid _ hkey hnew
  cases hheaders

end OpsMonitor.Agent
