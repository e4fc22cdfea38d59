import OpsMonitor.Agent.Acceptance

/-! How long a used request id is remembered, against how long its timestamp is accepted. The
timestamp is compared with whole seconds, so it is accepted during `2 * skew + 1` seconds, one
more than the key of the request id lives. -/

namespace OpsMonitor.Agent
open Library Base64

/-- A request that reaches the check of its signature. -/
structure Arrival where
  now : ℚ
  request : Request
  token : OpsAgentToken
  server : OpsServer
  headers : SignatureHeaders

section
variable (ed : Ed25519) (settings : SignatureSettings)

/-- The cache after an arrival. -/
def deliver (redis : Redis) (a : Arrival) : Redis :=
  (verifyAgentSignature ed settings redis a.now a.request a.token a.server a.headers).2

/-- The arrival passes. -/
def Passes (redis : Redis) (a : Arrival) : Prop :=
  (verifyAgentSignature ed settings redis a.now a.request a.token a.server a.headers).1 = .ok ()

end

variable {ed : Ed25519} {settings : SignatureSettings} {redis : Redis} {a : Arrival}

/-- An arrival leaves the cache as it was, or adds a key that it found free. -/
theorem deliver_cases (ed : Ed25519) (settings : SignatureSettings) (redis : Redis) (a : Arrival) :
    deliver ed settings redis a = redis ∨ ∃ key expiry, ¬ redis.Holds a.now key ∧
      deliver ed settings redis a = redis.put key expiry := by
  unfold deliver
  cases hresult : verifyAgentSignature ed settings redis a.now a.request a.token a.server
      a.headers with
  | mk result redis' =>
    cases result with
    | error e =>
      have hrefused := redis_eq_of_refused (congrArg Prod.fst hresult)
      rw [hresult] at hrefused
      exact .inl hrefused
    | ok u =>
      rcases verifyAgentSignature_ok hresult with ⟨-, hsame⟩ | ⟨requestId, -, hfresh | ⟨-, -, hsame⟩⟩
      · exact .inl hsame
      · obtain ⟨-, -, hfree, hredis⟩ := isReplayed_eq_false.mp hfresh
        exact .inr ⟨_, _, hfree, hredis⟩
      · exact .inl hsame

theorem available_deliver (redis : Redis) (a : Arrival) :
    (deliver ed settings redis a).available = redis.available := by
  rcases deliver_cases ed settings redis a with h | ⟨key, expiry, -, h⟩ <;> rw [h]
  rfl

/-- A key is kept until it expires. -/
theorem mem_deliver {key : String} {expiry : ℚ} (h : (key, expiry) ∈ redis.keys)
    (hlive : a.now < expiry) : (key, expiry) ∈ (deliver ed settings redis a).keys := by
  rcases deliver_cases ed settings redis a with hsame | ⟨key', expiry', hfree, hnew⟩
  · rwa [hsame]
  · have hne : key ≠ key' := by
      rintro rfl
      exact hfree ⟨_, h, rfl, hlive⟩
    rw [hnew]
    exact List.mem_cons_of_mem _ (List.mem_filter.mpr ⟨h, decide_eq_true hne⟩)

theorem mem_deliver_foldl {key : String} {expiry : ℚ} {between : List Arrival}
    (h : (key, expiry) ∈ redis.keys) (hlive : ∀ b ∈ between, b.now < expiry) :
    (key, expiry) ∈ (between.foldl (deliver ed settings) redis).keys := by
  induction between generalizing redis with
  | nil => exact h
  | cons b between ih =>
    exact ih (mem_deliver h (hlive b List.mem_cons_self))
      fun c hc => hlive c (List.mem_cons_of_mem _ hc)

theorem available_foldl {between : List Arrival} :
    (between.foldl (deliver ed settings) redis).available = redis.available := by
  induction between generalizing redis with
  | nil => rfl
  | cons b between ih => rw [List.foldl_cons, ih, available_deliver]

/-! ## One signed request -/

/-- A request with the signature of its server's agent. -/
structure SignedRequest (ed : Ed25519) where
  request : Request
  token : OpsAgentToken
  server : OpsServer
  timestamp : String
  sent : ℤ
  requestId : String
  signature : String
  key : String
  reads : readInt timestamp = some sent
  registered : token.registeredKey = some key
  verifies : verifySignature ed key signature
    (canonicalString request.method request.path timestamp requestId request.body) = true

/-- The request when it arrives at `now`. -/
def SignedRequest.at (r : SignedRequest ed) (now : ℚ) : Arrival :=
  ⟨now, r.request, r.token, r.server,
    ⟨some r.server.serverCode, some r.timestamp, some r.requestId, some r.signature⟩⟩

def SignedRequest.replayKey (r : SignedRequest ed) : String :=
  Agent.replayKey r.server.id r.requestId

namespace SignedRequest
variable {r : SignedRequest ed} {now : ℚ}

theorem signed_iff {requestId : String} :
    Signed ed settings now r.request r.token r.server (r.at now).headers requestId ↔
      requestId = r.requestId ∧ |unixTime now - r.sent| ≤ settings.agentSignatureMaxSkew := by
  constructor
  · rintro ⟨timestamp, signature, hheaders, ⟨sent, hsent, hskew⟩, -⟩
    obtain ⟨-, htimestamp, hid, -⟩ := SignatureHeaders.mk.inj hheaders
    obtain rfl := Option.some.inj htimestamp
    obtain rfl := Option.some.inj (hsent.symm.trans r.reads)
    exact ⟨(Option.some.inj hid).symm, hskew⟩
  · rintro ⟨rfl, hskew⟩
    exact ⟨_, _, rfl, ⟨_, r.reads, hskew⟩, _, r.registered, r.verifies⟩

/-- A signed request that passes has its timestamp within the skew and its request id free; the
request id is then taken for twice the skew. -/
theorem of_passes (hup : redis.available = true) (hskew : 1 ≤ settings.agentSignatureMaxSkew)
    (h : Passes ed settings redis (r.at now)) :
    |unixTime now - r.sent| ≤ settings.agentSignatureMaxSkew ∧
      ¬ redis.Holds now r.replayKey ∧ deliver ed settings redis (r.at now) =
        redis.put r.replayKey (now + 2 * settings.agentSignatureMaxSkew) := by
  have hexpiry : now + ((settings.agentSignatureMaxSkew * 2 : ℤ) : ℚ) =
      now + 2 * (settings.agentSignatureMaxSkew : ℚ) := by
    push_cast
    ring
  rcases verifyAgentSignature_ok (Prod.ext h rfl) with ⟨hnone, -⟩ | ⟨requestId, hsigned, hcache⟩
  · have hmissing := incomplete_of_checkSignature r.registered rfl hnone
    rcases hmissing with h | h | h <;> cases h
  · obtain ⟨rfl, hwithin⟩ := signed_iff.mp hsigned
    rcases hcache with hfresh | ⟨herror, -⟩
    · obtain ⟨-, -, hfree, hredis⟩ := isReplayed_eq_false.mp hfresh
      rw [← hexpiry]
      exact ⟨hwithin, hfree, hredis⟩
    · rcases isReplayed_eq_none.mp herror with hdown | hle
      · rw [hup] at hdown
        cases hdown
      · omega

theorem passes (hup : redis.available = true) (hskew : 1 ≤ settings.agentSignatureMaxSkew)
    (hwithin : |unixTime now - r.sent| ≤ settings.agentSignatureMaxSkew)
    (hfree : ¬ redis.Holds now r.replayKey) : Passes ed settings redis (r.at now) := by
  have hcheck : checkSignature ed settings now r.request r.token r.server (r.at now).headers =
      .ok (some r.requestId) := checkSignature_eq_some.mpr (signed_iff.mpr ⟨rfl, hwithin⟩)
  have hset := isReplayed_eq_false.mpr
    ⟨hup, (by omega : 0 < settings.agentSignatureMaxSkew * 2), hfree, rfl⟩
  show (verifyAgentSignature ed settings redis now r.request r.token r.server
    (r.at now).headers).1 = .ok ()
  rw [verifyAgentSignature, hcheck]
  dsimp only
  rw [hset]

end SignedRequest

/-! ## Two arrivals -/

/-- The two arrivals that the cache misses: the first as early as the skew allows, up to a second,
and the other in the last second that the skew allows, after the key has expired. -/
def Outlived (skew sent : ℤ) (first second : ℚ) : Prop :=
  sent - skew ≤ first ∧ first + 2 * skew ≤ second ∧ second < sent + skew + 1

theorem within_iff {skew sent : ℤ} {now : ℚ} :
    |unixTime now - sent| ≤ skew ↔ (sent : ℚ) - skew ≤ now ∧ now < sent + skew + 1 := by
  have hlow : sent - skew ≤ unixTime now ↔ ((sent - skew : ℤ) : ℚ) ≤ now := Int.le_floor
  have hhigh : unixTime now < sent + skew + 1 ↔ now < ((sent + skew + 1 : ℤ) : ℚ) := Int.floor_lt
  push_cast at hlow hhigh
  rw [← hlow, ← hhigh, abs_le]
  constructor
  · rintro ⟨h, h'⟩
    omega
  · rintro ⟨h, h'⟩
    omega

/-- Whatever arrives in between, the same signed request does not pass twice unless its second
arrival outlives the key of its first one. -/
theorem not_passes_twice {r : SignedRequest ed} {first second : ℚ} {between : List Arrival}
    (hup : redis.available = true) (hskew : 1 ≤ settings.agentSignatureMaxSkew)
    (hbetween : ∀ b ∈ between, b.now ≤ second)
    (hout : ¬ Outlived settings.agentSignatureMaxSkew r.sent first second)
    (hfirst : Passes ed settings redis (r.at first)) :
    ¬ Passes ed settings
      (between.foldl (deliver ed settings) (deliver ed settings redis (r.at first)))
      (r.at second) := by
  intro hsecond
  obtain ⟨hwithin, -, hput⟩ := SignedRequest.of_passes hup hskew hfirst
  have hup' : (between.foldl (deliver ed settings)
      (deliver ed settings redis (r.at first))).available = true := by
    rw [available_foldl, available_deliver, hup]
  obtain ⟨hwithin', hfree, -⟩ := SignedRequest.of_passes hup' hskew hsecond
  refine hout ⟨(within_iff.mp hwithin).1, ?_, (within_iff.mp hwithin').2⟩
  by_contra hlive
  rw [not_le] at hlive
  have hkept : (r.replayKey, first + 2 * (settings.agentSignatureMaxSkew : ℚ)) ∈
      (between.foldl (deliver ed settings) (deliver ed settings redis (r.at first))).keys := by
    refine mem_deliver_foldl ?_ fun b hb => (hbetween b hb).trans_lt hlive
    rw [hput]
    exact List.mem_cons_self
  exact hfree ⟨_, hkept, rfl, hlive⟩

theorem passes_twice {r : SignedRequest ed} {first second : ℚ}
    (hskew : 1 ≤ settings.agentSignatureMaxSkew)
    (hout : Outlived settings.agentSignatureMaxSkew r.sent first second) :
    Passes ed settings ⟨true, []⟩ (r.at first) ∧
      Passes ed settings (deliver ed settings ⟨true, []⟩ (r.at first)) (r.at second) := by
  obtain ⟨hlow, hexpired, hhigh⟩ := hout
  have hone : (1 : ℚ) ≤ settings.agentSignatureMaxSkew := by exact_mod_cast hskew
  have hfirst : Passes ed settings ⟨true, []⟩ (r.at first) := by
    refine SignedRequest.passes rfl hskew (within_iff.mpr ⟨hlow, by linarith⟩) ?_
    rintro ⟨entry, hentry, -⟩
    cases hentry
  refine ⟨hfirst, ?_⟩
  obtain ⟨-, -, hput⟩ := SignedRequest.of_passes rfl hskew hfirst
  rw [hput]
  refine SignedRequest.passes rfl hskew (within_iff.mpr ⟨by linarith, hhigh⟩) ?_
  rintro ⟨entry, hentry, -, hlive⟩
  obtain rfl := List.mem_singleton.mp hentry
  exact absurd hexpired (not_le.mpr hlive)

/-- With the cache available, a signed request passes at most once, whatever arrives in between,
exactly when its second arrival does not outlive the key of the first one. -/
theorem passes_at_most_once (ed : Ed25519) (settings : SignatureSettings) (r : SignedRequest ed)
    (first second : ℚ) (hskew : 1 ≤ settings.agentSignatureMaxSkew) :
    (∀ (redis : Redis) (between : List Arrival), redis.available = true → (∀ b ∈ between, b.now ≤ second) →
        ¬ (Passes ed settings redis (r.at first) ∧ Passes ed settings
          (between.foldl (deliver ed settings) (deliver ed settings redis (r.at first)))
          (r.at second))) ↔
      ¬ (r.sent - settings.agentSignatureMaxSkew ≤ first ∧
        first + 2 * settings.agentSignatureMaxSkew ≤ second ∧
        second < r.sent + settings.agentSignatureMaxSkew + 1) := by
  constructor
  · intro h hout
    exact h ⟨true, []⟩ [] rfl (by simp) (passes_twice hskew hout)
  · rintro hout redis between hup hbetween ⟨hfirst, hsecond⟩
    exact not_passes_twice hup hskew hbetween hout hfirst hsecond

/-- A heartbeat stamped 100, from an agent whose clock is a second ahead. -/
def Sample.early : SignedRequest Sample.ed25519 where
  request := Sample.heartbeat
  token := Sample.token
  server := Sample.server
  timestamp := "100"
  sent := 100
  requestId := Sample.requestId
  signature := b64encode Sample.earlySignature
  key := b64encode Sample.publicKey
  reads := by decide
  registered := rfl
  verifies := by decide +kernel

/-- Sent again within its second, the heartbeat is refused. -/
theorem passes_at_most_once_early :
    ¬ (Passes Sample.ed25519 ⟨true, 1⟩ Sample.redis (Sample.early.at 99) ∧
      Passes Sample.ed25519 ⟨true, 1⟩
        (deliver Sample.ed25519 ⟨true, 1⟩ Sample.redis (Sample.early.at 99))
        (Sample.early.at (199 / 2))) := by
  have honce := (passes_at_most_once Sample.ed25519 ⟨true, 1⟩ Sample.early 99 (199 / 2)
    le_rfl).mpr (by norm_num)
  exact honce Sample.redis [] rfl (by simp)

/-- Sent again two and a half seconds later, it passes a second time. -/
theorem early_heartbeat_passes_twice :
    ¬ ∀ (ed : Ed25519) (settings : SignatureSettings) (r : SignedRequest ed) (first second : ℚ),
      1 ≤ settings.agentSignatureMaxSkew → first ≤ second →
      ∀ (redis : Redis) (between : List Arrival), redis.available = true → (∀ b ∈ between, b.now ≤ second) →
        ¬ (Passes ed settings redis (r.at first) ∧ Passes ed settings
          (between.foldl (deliver ed settings) (deliver ed settings redis (r.at first)))
          (r.at second)) := by
  intro hclaim
  have hout : Outlived 1 Sample.early.sent 99 (203 / 2) := by
    have hsent : Sample.early.sent = 100 := rfl
    rw [Outlived, hsent]
    norm_num
  exact hclaim Sample.ed25519 ⟨true, 1⟩ Sample.early 99 (203 / 2) le_rfl (by norm_num)
    ⟨true, []⟩ [] rfl (by simp) (passes_twice le_rfl hout)

end OpsMonitor.Agent
