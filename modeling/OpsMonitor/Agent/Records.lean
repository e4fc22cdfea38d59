import OpsMonitor.Agent.Signing
import OpsMonitor.Server.Records
import OpsMonitor.Exceptions

/-! The credentials of the agents (`AgentTokenRepository`) and the cache of the request ids that
were used (`core/replay.py`). An instant is a number of seconds since the epoch. -/

namespace OpsMonitor.Agent
open Library

structure OpsAgentToken where
  id : ℕ
  serverId : ℕ
  tokenHash : String
  signingPublicKey : Option String
  signingAlgorithm : Option String
  keyRegisteredAt : Option Time
  status : ℕ
  expiresAt : Option Time
  lastUsedAt : Option Time
  revokedAt : Option Time
  deriving DecidableEq, Repr

instance : Keyed OpsAgentToken := ⟨OpsAgentToken.id, fun n t => { t with id := n }, fun _ _ => rfl⟩

/-- `int(time.time())`; the clock is past the epoch, so this is rounding down. -/
def unixTime (now : ℚ) : ℤ := ⌊now⌋

/-- `_utcnow()`, in microseconds. -/
def utcnow (now : ℚ) : ℤ := ⌊1000000 * now⌋

/-- An instant in a column `DATETIME(fsp=3)`, which rounds to milliseconds. -/
def stored (now : ℚ) : Time := (utcnow now + 500) / 1000

def hashToken (token : String) : String := Sha256.hexdigest (utf8 token)

def getByTokenHash (tokens : Table OpsAgentToken) (tokenHash : String) : Option OpsAgentToken :=
  (tokens.select fun t => t.tokenHash = tokenHash).head?

/-- `AgentTokenRepository.authenticate`. -/
def authenticate (tokens : Table OpsAgentToken) (now : ℚ) (plaintext : String) :
    Option OpsAgentToken :=
  match getByTokenHash tokens (hashToken plaintext) with
  | none => none
  | some token =>
    if token.status ≠ 1 then none
    else if ∃ expiresAt ∈ token.expiresAt, 1000 * expiresAt < utcnow now then none
    else if token.revokedAt.isSome then none
    else some token

/-- The public key of a token; an empty column counts as missing. -/
def OpsAgentToken.registeredKey (token : OpsAgentToken) : Option String :=
  token.signingPublicKey.filter (· ≠ "")

theorem authenticate_eq_some {tokens : Table OpsAgentToken} {now : ℚ} {plaintext : String}
    {token : OpsAgentToken} (h : authenticate tokens now plaintext = some token) :
    token ∈ tokens ∧ token.tokenHash = hashToken plaintext ∧ token.status = 1 ∧
      (∀ e ∈ token.expiresAt, utcnow now ≤ 1000 * e) ∧ token.revokedAt = none := by
  unfold authenticate at h
  cases hget : getByTokenHash tokens (hashToken plaintext) with
  | none => simp [hget] at h
  | some found =>
    obtain ⟨hmem, hhash⟩ := Table.mem_select.mp (List.mem_of_mem_head? hget)
    rw [hget] at h
    dsimp only at h
    split_ifs at h with hstatus hexpired hrevoked
    obtain rfl := Option.some.inj h
    refine ⟨hmem, of_decide_eq_true hhash, not_not.mp hstatus, ?_, by simpa using hrevoked⟩
    exact fun e he => not_lt.mp fun hlt => hexpired ⟨e, he, hlt⟩

/-! ## Used request ids -/

/-- The cache: each key with the instant it expires at. -/
structure Redis where
  available : Bool
  keys : List (String × ℚ)

namespace Redis

/-- The key is stored and has not expired. -/
def Holds (redis : Redis) (now : ℚ) (key : String) : Prop :=
  ∃ entry ∈ redis.keys, entry.1 = key ∧ now < entry.2

instance (redis : Redis) (now : ℚ) (key : String) : Decidable (redis.Holds now key) :=
  inferInstanceAs (Decidable (∃ entry ∈ redis.keys, _))

/-- The key lives until `expiry`. -/
def put (redis : Redis) (key : String) (expiry : ℚ) : Redis :=
  { redis with keys := (key, expiry) :: redis.keys.filter fun entry => entry.1 ≠ key }

/-- `SET key "1" NX EX seconds`: whether the key was set, or an error when the cache does not
answer or the time to live is not positive. -/
def setNx (redis : Redis) (now : ℚ) (key : String) (seconds : ℤ) : Option (Bool × Redis) :=
  if redis.available = false ∨ seconds ≤ 0 then none
  else if redis.Holds now key then some (false, redis)
  else some (true, redis.put key (now + seconds))

end Redis

def replayKey (serverId : ℕ) (requestId : String) : String :=
  "agent:sig:" ++ toString serverId ++ ":" ++ requestId

/-- `is_replayed`, where `none` is the `RedisError`. -/
def isReplayed (redis : Redis) (now : ℚ) (serverId : ℕ) (requestId : String) (ttlSeconds : ℤ) :
    Option (Bool × Redis) :=
  (redis.setNx now (replayKey serverId requestId) ttlSeconds).map fun r => (!r.1, r.2)

/-- The servers do not share keys. -/
theorem replayKey_inj {serverId serverId' : ℕ} {requestId requestId' : String}
    (h : replayKey serverId requestId = replayKey serverId' requestId') :
    serverId = serverId' ∧ requestId = requestId' := by
  have htail : toString serverId ++ ":" ++ requestId = toString serverId' ++ ":" ++ requestId' := by
    unfold replayKey at h
    rw [String.append_assoc, String.append_assoc, String.append_assoc, String.append_assoc] at h
    simpa [String.append_assoc] using h
  obtain ⟨hserver, hid⟩ := separated_inj (c := ':') (notMem_toString rfl _)
    (notMem_toString rfl _) htail
  have hread := congrArg readInt hserver
  rw [readInt_toString_nat, readInt_toString_nat] at hread
  exact ⟨Int.ofNat_inj.mp (Option.some.inj hread), hid⟩

section Replayed
variable {redis redis' : Redis} {now : ℚ} {serverId : ℕ} {requestId : String} {ttlSeconds : ℤ}

theorem isReplayed_eq_none : isReplayed redis now serverId requestId ttlSeconds = none ↔
    redis.available = false ∨ ttlSeconds ≤ 0 := by
  unfold isReplayed Redis.setNx
  split_ifs <;> simp [*]

theorem isReplayed_eq_true
    (h : isReplayed redis now serverId requestId ttlSeconds = some (true, redis')) :
    redis.Holds now (replayKey serverId requestId) ∧ redis' = redis := by
  unfold isReplayed Redis.setNx at h
  split_ifs at h with herror hheld
  · cases h
  · obtain ⟨-, rfl⟩ := Prod.ext_iff.mp (Option.some.inj h)
    exact ⟨hheld, rfl⟩
  · cases (Prod.ext_iff.mp (Option.some.inj h)).1

theorem isReplayed_eq_false :
    isReplayed redis now serverId requestId ttlSeconds = some (false, redis') ↔
      redis.available = true ∧ 0 < ttlSeconds ∧ ¬ redis.Holds now (replayKey serverId requestId) ∧
        redis' = redis.put (replayKey serverId requestId) (now + ttlSeconds) := by
  unfold isReplayed Redis.setNx
  constructor
  · intro h
    split_ifs at h with herror hheld
    · cases h
    · cases (Prod.ext_iff.mp (Option.some.inj h)).1
    · obtain ⟨-, rfl⟩ := Prod.ext_iff.mp (Option.some.inj h)
      obtain ⟨hup, hpositive⟩ := not_or.mp herror
      exact ⟨Bool.not_eq_false _ ▸ hup, not_le.mp hpositive, hheld, rfl⟩
  · rintro ⟨hup, hpositive, hfree, rfl⟩
    have hok : ¬ (redis.available = false ∨ ttlSeconds ≤ 0) := by
      rintro (hdown | hle)
      · rw [hup] at hdown
        cases hdown
      · exact absurd hpositive (not_lt.mpr hle)
    rw [if_neg hok, if_neg hfree]
    rfl

end Replayed

end OpsMonitor.Agent
