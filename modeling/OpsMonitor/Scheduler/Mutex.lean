import OpsMonitor.Library.Runs
import OpsMonitor.Scheduler.Lock

/-! Any number of workers that take the locks of any jobs, in any order of their steps. A body
that is still within the time to live of its lock is the only one of its job. -/

namespace OpsMonitor.Scheduler
open Library

def lockKey (jobName : String) : String := "sched:lock:" ++ jobName

/-- The time to live of a lock in milliseconds. -/
def ttlMillis (ttlSeconds : ℤ) : ℤ := max 1 ttlSeconds * 1000

/-- Where a worker is in `scheduler_lock`: outside, in the body with the token and the expiry of
its lock, or about to release. -/
inductive Pc
  | idle
  | body (jobName : String) (token : ℕ) (expires : Time)
  | release (jobName : String) (token : ℕ)
  | crashed
  deriving DecidableEq

/-- The token that a worker still uses. -/
def Pc.token : Pc → Option ℕ
  | body _ token _ | release _ token => some token
  | idle | crashed => none

structure Workers (ι : Type*) where
  now : Time
  redis : Redis
  pc : ι → Pc

/-- A `SET` that raises may have been stored or not. -/
inductive Action (ι : Type*)
  | wait (d : ℕ)
  | set (i : ι) (jobName : String) (ttlSeconds : ℤ)
  | setError (i : ι) (jobName : String) (ttlSeconds : ℤ) (stored : Bool)
  | finish (i : ι)
  | release (i : ι)
  | releaseError (i : ι)
  | crash (i : ι)

namespace Workers
variable {ι : Type*} [DecidableEq ι]

def start (now : Time) : Workers ι := ⟨now, .empty, fun _ => .idle⟩

def goto (w : Workers ι) (i : ι) (pc : Pc) : Workers ι := { w with pc := Function.update w.pc i pc }

/-- `uuid4`, then the `SET`. -/
def attempt (w : Workers ι) (jobName : String) (ttlSeconds : ℤ) : Redis × Option Redis :=
  let redis := { w.redis with uuids := w.redis.uuids + 1 }
  (redis, redis.setNx w.now (lockKey jobName) w.redis.uuids (ttlMillis ttlSeconds))

/-- A step that the worker is not at changes nothing. -/
def step (w : Workers ι) : Action ι → Workers ι
  | .wait d => { w with now := w.now + d }
  | .set i jobName ttlSeconds =>
    match w.pc i with
    | .idle =>
      match w.attempt jobName ttlSeconds with
      | (redis, none) => { w with redis := redis }
      | (_, some redis) =>
        { w with redis := redis }.goto i
          (.body jobName w.redis.uuids (w.now + ttlMillis ttlSeconds))
    | _ => w
  | .setError i jobName ttlSeconds stored =>
    match w.pc i with
    | .idle =>
      match w.attempt jobName ttlSeconds with
      | (redis, none) => { w with redis := redis }
      | (redis, some redis') => { w with redis := if stored then redis' else redis }
    | _ => w
  | .finish i =>
    match w.pc i with
    | .body jobName token _ => w.goto i (.release jobName token)
    | _ => w
  | .release i =>
    match w.pc i with
    | .release jobName token =>
      { w with redis := w.redis.release w.now (lockKey jobName) token }.goto i .idle
    | _ => w
  | .releaseError i =>
    match w.pc i with
    | .release _ _ => w.goto i .idle
    | _ => w
  | .crash i => w.goto i .crashed

def after (now : Time) (as : List (Action ι)) : Workers ι := run step (start now) as

/-- Every body in progress is within the time to live of its lock. -/
def InTime (w : Workers ι) : Prop :=
  ∀ i jobName token expires, w.pc i = .body jobName token expires → w.now < expires

def Inside (w : Workers ι) (i : ι) (jobName : String) : Prop :=
  ∃ token expires, w.pc i = .body jobName token expires

end Workers

/-! ## Redis -/

namespace Redis
variable {r r' : Redis} {now : Time} {key k : String} {token t : ℕ} {px u : ℤ}

theorem get_eq_some : r.get now key = some token ↔
    ∃ expires, r.entry key = some (token, expires) ∧ now < expires := by
  unfold get
  cases r.entry key with
  | none => simp
  | some p =>
    obtain ⟨t, u⟩ := p
    dsimp only
    split_ifs with hlive
    · simp [hlive]
    · simp only [reduceCtorEq, Option.some.injEq, Prod.mk.injEq, false_iff]
      rintro ⟨u', ⟨-, rfl⟩, hlt⟩
      exact hlive hlt

theorem setNx_eq_some : r.setNx now key token px = some r' ↔ r.get now key = none ∧
    r' = { r with entry := Function.update r.entry key (some (token, now + px)) } := by
  unfold setNx
  cases r.get now key with
  | none => simp [eq_comm]
  | some t => simp

theorem entry_setNx (h : r.setNx now k token px = some r') (key : String) :
    r'.entry key = if key = k then some (token, now + px) else r.entry key := by
  obtain ⟨-, rfl⟩ := setNx_eq_some.mp h
  exact Function.update_apply _ _ _ _

theorem entry_release (r : Redis) (now : Time) (k : String) (token : ℕ) (key : String) :
    (r.release now k token).entry key =
      if key = k ∧ r.get now k = some token then none else r.entry key := by
  unfold release
  by_cases hget : r.get now k = some token
  · rw [if_pos hget]
    simp only [hget, and_true]
    exact Function.update_apply _ _ _ _
  · rw [if_neg hget, if_neg fun h => hget h.2]

@[simp] theorem uuids_release : (r.release now key token).uuids = r.uuids := by
  unfold release
  split_ifs <;> rfl

/-- Since the lock `token` was taken until `u`, nothing older is stored under its key. -/
def Since (r : Redis) (key : String) (token : ℕ) (u : Time) : Prop :=
  ∀ t expires, r.entry key = some (t, expires) → token ≤ t ∧ (t = token → expires = u)

/-- What holds of a lock that a worker has taken and not released. -/
structure Holds (r : Redis) (now : Time) (key : String) (token : ℕ) (u : Time) : Prop where
  since : r.Since key token u
  held : now < u → r.entry key = some (token, u)

theorem Since.setNx (h : r.Since key token u) (hlt : token < t) (hset : r.setNx now k t px = some r') :
    r'.Since key token u := by
  intro t' u' hentry
  rw [entry_setNx hset] at hentry
  split_ifs at hentry with hk
  · obtain ⟨rfl, -⟩ := Prod.ext_iff.mp (Option.some.inj hentry)
    exact ⟨hlt.le, fun heq => absurd heq hlt.ne'⟩
  · exact h t' u' hentry

theorem Since.release (h : r.Since key token u) : (r.release now k t).Since key token u := by
  intro t' u' hentry
  rw [entry_release] at hentry
  split_ifs at hentry
  exact h t' u' hentry

theorem Holds.wait (h : r.Holds now key token u) {later : Time} (hle : now ≤ later) :
    r.Holds later key token u := ⟨h.since, fun hlt => h.held (hle.trans_lt hlt)⟩

/-- The key of a lock in time is taken, so a `SET` of it fails. -/
theorem Holds.setNx (h : r.Holds now key token u) (hlt : token < t)
    (hset : r.setNx now k t px = some r') : r'.Holds now key token u := by
  refine ⟨h.since.setNx hlt hset, fun hlive => ?_⟩
  have hentry := h.held hlive
  rw [entry_setNx hset]
  split_ifs with hk
  · have hget : r.get now key = some token := get_eq_some.mpr ⟨u, hentry, hlive⟩
    rw [hk, (setNx_eq_some.mp hset).1] at hget
    cases hget
  · exact hentry

/-- The release of another lock leaves the entry alone. -/
theorem Holds.release (h : r.Holds now key token u) (hne : t ≠ token) :
    (r.release now k t).Holds now key token u := by
  refine ⟨h.since.release, fun hlive => ?_⟩
  have hentry := h.held hlive
  rw [entry_release]
  split_ifs with hdeleted
  · obtain ⟨rfl, hget⟩ := hdeleted
    obtain ⟨u', hentry', -⟩ := get_eq_some.mp hget
    rw [hentry] at hentry'
    exact absurd (Prod.ext_iff.mp (Option.some.inj hentry')).1.symm hne
  · exact hentry

theorem holds_of_setNx (hset : r.setNx now key token px = some r') :
    r'.Holds now key token (now + px) := by
  have hentry := entry_setNx hset key
  rw [if_pos rfl] at hentry
  refine ⟨fun t expires ht => ?_, fun _ => hentry⟩
  rw [hentry] at ht
  obtain ⟨rfl, rfl⟩ := Prod.ext_iff.mp (Option.some.inj ht)
  exact ⟨le_rfl, fun _ => rfl⟩

end Redis

/-! ## The invariant -/

namespace Workers
variable {ι : Type*} [DecidableEq ι] {w : Workers ι} {i j : ι}

theorem pc_goto (w : Workers ι) (i : ι) (pc : Pc) (j : ι) :
    (w.goto i pc).pc j = if j = i then pc else w.pc j := Function.update_apply _ _ _ _

structure Inv (w : Workers ι) : Prop where
  drawn : ∀ i token, (w.pc i).token = some token → token < w.redis.uuids
  distinct : ∀ i j token, (w.pc i).token = some token → (w.pc j).token = some token → i = j
  holds : ∀ i jobName token expires, w.pc i = .body jobName token expires →
    w.redis.Holds w.now (lockKey jobName) token expires

theorem Inv.start (now : Time) : Inv (Workers.start now : Workers ι) where
  drawn := nofun
  distinct := nofun
  holds := nofun

/-- A worker that moves on without a new token. -/
theorem Inv.goto (h : Inv w) {pc : Pc} (htoken : pc.token = none ∨ pc.token = (w.pc i).token)
    (hbody : ∀ jobName token expires, pc ≠ .body jobName token expires) : Inv (w.goto i pc) := by
  have hold : ∀ j token, ((w.goto i pc).pc j).token = some token → (w.pc j).token = some token := by
    intro j token hj
    rw [pc_goto] at hj
    split_ifs at hj with hji
    · subst hji
      rcases htoken with hnone | hsame
      · rw [hnone] at hj
        cases hj
      · rwa [← hsame]
    · exact hj
  refine ⟨fun j token hj => h.drawn j token (hold j token hj), fun j k token hj hk =>
    h.distinct j k token (hold j token hj) (hold k token hk), fun j jobName token expires hj => ?_⟩
  rw [pc_goto] at hj
  split_ifs at hj with hji
  · exact absurd hj (hbody jobName token expires)
  · exact h.holds j jobName token expires hj

omit [DecidableEq ι] in
/-- A `SET` that is stored, whoever knows of it. -/
theorem Inv.stored (h : Inv w) {jobName : String} {ttlSeconds : ℤ} {redis : Redis}
    (hset : (w.attempt jobName ttlSeconds).2 = some redis) : Inv { w with redis := redis } := by
  have huuids : redis.uuids = w.redis.uuids + 1 := by
    obtain ⟨-, rfl⟩ := Redis.setNx_eq_some.mp hset
    rfl
  refine ⟨fun j token hj => ?_, h.distinct, fun j name token expires hj => ?_⟩
  · dsimp only
    rw [huuids]
    exact (h.drawn j token hj).trans w.redis.uuids.lt_succ_self
  · have hlt : token < w.redis.uuids := h.drawn j token (by rw [hj]; rfl)
    obtain ⟨hsince, hheld⟩ := h.holds j name token expires hj
    have hbefore : ({ w.redis with uuids := w.redis.uuids + 1 } : Redis).Holds w.now (lockKey name)
        token expires := ⟨hsince, hheld⟩
    exact hbefore.setNx hlt hset

omit [DecidableEq ι] in
theorem Inv.drew (h : Inv w) (jobName : String) (ttlSeconds : ℤ) :
    Inv { w with redis := (w.attempt jobName ttlSeconds).1 } where
  drawn := fun j token hj => (h.drawn j token hj).trans w.redis.uuids.lt_succ_self
  distinct := h.distinct
  holds := fun j name token expires hj =>
    ⟨(h.holds j name token expires hj).since, (h.holds j name token expires hj).held⟩

/-- A `SET` whose worker enters the body. -/
theorem Inv.entered (h : Inv w) {jobName : String} {ttlSeconds : ℤ} {redis : Redis}
    (hset : (w.attempt jobName ttlSeconds).2 = some redis) :
    Inv ({ w with redis := redis }.goto i
      (.body jobName w.redis.uuids (w.now + ttlMillis ttlSeconds))) := by
  have hstored := h.stored hset
  have huuids : redis.uuids = w.redis.uuids + 1 := by
    obtain ⟨-, rfl⟩ := Redis.setNx_eq_some.mp hset
    rfl
  have htoken : ∀ j token, (({ w with redis := redis }.goto i
      (.body jobName w.redis.uuids (w.now + ttlMillis ttlSeconds))).pc j).token = some token →
        j = i ∧ token = w.redis.uuids ∨ j ≠ i ∧ (w.pc j).token = some token := by
    intro j token hj
    rw [pc_goto] at hj
    split_ifs at hj with hji
    · exact .inl ⟨hji, (Option.some.inj hj).symm⟩
    · exact .inr ⟨hji, hj⟩
  constructor
  · intro j token hj
    rcases htoken j token hj with ⟨-, rfl⟩ | ⟨-, hold⟩
    · exact huuids ▸ w.redis.uuids.lt_succ_self
    · exact hstored.drawn j token hold
  · intro j k token hj hk
    rcases htoken j token hj with ⟨rfl, rfl⟩ | ⟨hji, hold⟩
    · rcases htoken k _ hk with ⟨rfl, -⟩ | ⟨-, hold⟩
      · rfl
      · exact absurd (h.drawn k _ hold) (lt_irrefl _)
    · rcases htoken k token hk with ⟨rfl, rfl⟩ | ⟨-, hold'⟩
      · exact absurd (h.drawn j _ hold) (lt_irrefl _)
      · exact h.distinct j k token hold hold'
  · intro j name token expires hj
    rw [pc_goto] at hj
    split_ifs at hj with hji
    · obtain ⟨rfl, rfl, rfl⟩ := Pc.body.inj hj
      exact Redis.holds_of_setNx hset
    · exact hstored.holds j name token expires hj

theorem Inv.step (h : Inv w) (a : Action ι) : Inv (w.step a) := by
  unfold Workers.step
  cases a with
  | wait d =>
    have hle : w.now ≤ w.now + d := Int.le_add_of_nonneg_right (Int.natCast_nonneg d)
    exact ⟨h.drawn, h.distinct, fun i jobName token expires hi =>
      (h.holds i jobName token expires hi).wait hle⟩
  | set i jobName ttlSeconds =>
    dsimp only
    split
    · split
      · rename_i hset
        have hdrew := h.drew jobName ttlSeconds
        rwa [hset] at hdrew
      · rename_i hset
        exact h.entered (congrArg Prod.snd hset)
    · exact h
  | setError i jobName ttlSeconds stored =>
    dsimp only
    split
    · split
      · rename_i hset
        have hdrew := h.drew jobName ttlSeconds
        rwa [hset] at hdrew
      · rename_i hset
        cases stored with
        | true => exact h.stored (congrArg Prod.snd hset)
        | false =>
          have hdrew := h.drew jobName ttlSeconds
          rwa [hset] at hdrew
    · exact h
  | finish i =>
    dsimp only
    split
    · rename_i hpc
      exact h.goto (.inr (by rw [hpc]; rfl)) nofun
    · exact h
  | release i =>
    dsimp only
    split
    · rename_i jobName token hpc
      have hi : (w.pc i).token = some token := by
        rw [hpc]
        rfl
      have hmid : ∀ j name t expires, w.pc j = .body name t expires → j ≠ i →
          (w.redis.release w.now (lockKey jobName) token).Holds w.now (lockKey name) t expires := by
        intro j name t expires hj hne
        refine (h.holds j name t expires hj).release ?_
        rintro rfl
        exact hne (h.distinct j i _ (by rw [hj]; rfl) hi)
      have hgone : Inv (w.goto i .idle) := h.goto (.inl rfl) nofun
      refine ⟨fun j t hj => ?_, hgone.distinct, fun j name t expires hj => ?_⟩
      · have huuids := @Redis.uuids_release w.redis w.now (lockKey jobName) token
        exact huuids ▸ hgone.drawn j t hj
      · have hj' := hj
        rw [pc_goto] at hj'
        split_ifs at hj' with hji
        exact hmid j name t expires hj' hji
    · exact h
  | releaseError i =>
    dsimp only
    split
    · exact h.goto (.inl rfl) nofun
    · exact h
  | crash i => exact h.goto (.inl rfl) nofun

theorem inv_after (now : Time) (as : List (Action ι)) : Inv (after now as) := by
  induction as using List.reverseRecOn with
  | nil => exact .start now
  | append_singleton as a ih =>
    have hlast : after now (as ++ [a]) = (after now as).step a := run_concat _ _ _ _
    rw [hlast]
    exact ih.step a

/-! ## What follows for the workers -/

/-- Two workers whose locks are both in time are not in the body of the same job. -/
theorem Inv.exclusive (h : Inv w) {jobName : String} {t t' : ℕ} {u u' : Time}
    (hi : w.pc i = .body jobName t u) (hj : w.pc j = .body jobName t' u') (hlive : w.now < u)
    (hlive' : w.now < u') : i = j := by
  have hentry := (h.holds i jobName t u hi).held hlive
  have hentry' := (h.holds j jobName t' u' hj).held hlive'
  rw [hentry] at hentry'
  obtain ⟨rfl, -⟩ := Prod.ext_iff.mp (Option.some.inj hentry')
  exact h.distinct i j t (by rw [hi]; rfl) (by rw [hj]; rfl)

/-- A release removes an entry only when it holds the worker's own token. -/
theorem Inv.release_own (h : Inv w) {key : String}
    (hremoved : (w.step (.release i)).redis.entry key ≠ w.redis.entry key) :
    ∃ jobName token, w.pc i = .release jobName token ∧ key = lockKey jobName ∧
      w.redis.get w.now key = some token ∧ ∀ j ≠ i, (w.pc j).token ≠ some token := by
  cases hpc : w.pc i with
  | idle | body | crashed =>
    simp only [Workers.step, hpc] at hremoved
    exact absurd rfl hremoved
  | release jobName token =>
    simp only [Workers.step, hpc] at hremoved
    have hentry := w.redis.entry_release w.now (lockKey jobName) token key
    by_cases hdeleted : key = lockKey jobName ∧ w.redis.get w.now (lockKey jobName) = some token
    · obtain ⟨rfl, hget⟩ := hdeleted
      refine ⟨jobName, token, rfl, rfl, hget, fun j hj hother => hj ?_⟩
      exact h.distinct j i token hother (by rw [hpc]; rfl)
    · rw [if_neg hdeleted] at hentry
      exact absurd hentry hremoved

/-- Nothing older than a lock comes back under its key. -/
theorem since_step {key : String} {token : ℕ} {u : Time} (h : w.redis.Since key token u)
    (hlt : token < w.redis.uuids) (a : Action ι) :
    (w.step a).redis.Since key token u ∧ token < (w.step a).redis.uuids := by
  have hset : ∀ {jobName : String} {ttlSeconds : ℤ} {redis : Redis},
      (w.attempt jobName ttlSeconds).2 = some redis →
        redis.Since key token u ∧ token < redis.uuids := by
    intro jobName ttlSeconds redis hset
    have hbefore : ({ w.redis with uuids := w.redis.uuids + 1 } : Redis).Since key token u := h
    refine ⟨hbefore.setNx hlt hset, ?_⟩
    obtain ⟨-, rfl⟩ := Redis.setNx_eq_some.mp hset
    exact hlt.trans w.redis.uuids.lt_succ_self
  have hdrew : ∀ jobName ttlSeconds, (w.attempt jobName ttlSeconds).1.Since key token u ∧
      token < (w.attempt jobName ttlSeconds).1.uuids :=
    fun _ _ => ⟨h, hlt.trans w.redis.uuids.lt_succ_self⟩
  unfold Workers.step
  cases a with
  | wait d => exact ⟨h, hlt⟩
  | crash i => exact ⟨h, hlt⟩
  | set i jobName ttlSeconds =>
    have hdrew := hdrew jobName ttlSeconds
    dsimp only
    split
    · split
      · rename_i hattempt
        rwa [hattempt] at hdrew
      · rename_i hattempt
        exact hset (congrArg Prod.snd hattempt)
    · exact ⟨h, hlt⟩
  | setError i jobName ttlSeconds stored =>
    have hdrew := hdrew jobName ttlSeconds
    dsimp only
    split
    · split
      · rename_i hattempt
        rwa [hattempt] at hdrew
      · rename_i hattempt
        rw [hattempt] at hdrew
        cases stored with
        | true => exact hset (congrArg Prod.snd hattempt)
        | false => exact hdrew
    · exact ⟨h, hlt⟩
  | finish i | releaseError i =>
    dsimp only
    split <;> exact ⟨h, hlt⟩
  | release i =>
    dsimp only
    split
    · rename_i jobName t hpc
      have huuids := @Redis.uuids_release w.redis w.now (lockKey jobName) t
      exact ⟨h.release, huuids.symm ▸ hlt⟩
    · exact ⟨h, hlt⟩

theorem since_run {key : String} {token : ℕ} {u : Time} (h : w.redis.Since key token u)
    (hlt : token < w.redis.uuids) (as : List (Action ι)) :
    (run step w as).redis.Since key token u := by
  have hboth : (run step w as).redis.Since key token u ∧ token < (run step w as).redis.uuids := by
    induction as using List.reverseRecOn with
    | nil => exact ⟨h, hlt⟩
    | append_singleton as a ih =>
      rw [run_concat]
      exact since_step ih.1 ih.2 a
  exact hboth.1

theorem step_set_none (hidle : w.pc i = .idle) {jobName : String} {ttlSeconds : ℤ}
    (hset : (w.attempt jobName ttlSeconds).2 = none) :
    w.step (.set i jobName ttlSeconds) = { w with redis := (w.attempt jobName ttlSeconds).1 } := by
  have hattempt : w.attempt jobName ttlSeconds = ((w.attempt jobName ttlSeconds).1, none) :=
    Prod.ext rfl hset
  simp only [step, hidle]
  rw [hattempt]

theorem step_set_some (hidle : w.pc i = .idle) {jobName : String} {ttlSeconds : ℤ} {redis : Redis}
    (hset : (w.attempt jobName ttlSeconds).2 = some redis) :
    w.step (.set i jobName ttlSeconds) = { w with redis := redis }.goto i
      (.body jobName w.redis.uuids (w.now + ttlMillis ttlSeconds)) := by
  have hattempt : w.attempt jobName ttlSeconds = ((w.attempt jobName ttlSeconds).1, some redis) :=
    Prod.ext rfl hset
  simp only [step, hidle]
  rw [hattempt]

/-- A free key can be taken. -/
theorem inside_step_set (hidle : w.pc i = .idle) {jobName : String}
    (hfree : w.redis.get w.now (lockKey jobName) = none) (ttlSeconds : ℤ) :
    Inside (w.step (.set i jobName ttlSeconds)) i jobName := by
  obtain ⟨redis, hset⟩ : ∃ redis, (w.attempt jobName ttlSeconds).2 = some redis :=
    ⟨_, Redis.setNx_eq_some.mpr ⟨hfree, rfl⟩⟩
  rw [step_set_some hidle hset]
  exact ⟨_, _, (pc_goto _ i _ i).trans (if_pos rfl)⟩

/-- The job of a crashed worker can be taken once the time to live of its lock is over, unless
another call has taken it since. -/
theorem Inv.acquirable (h : Inv w) {jobName : String} {token : ℕ} {u : Time}
    (hbody : w.pc i = .body jobName token u) (as : List (Action ι)) {w' : Workers ι}
    (hw' : w' = run Workers.step w (.crash i :: as)) (hover : u ≤ w'.now) :
    (∃ t > token, w'.redis.get w'.now (lockKey jobName) = some t) ∨
      ∀ j ttlSeconds, w'.pc j = .idle → Inside (w'.step (.set j jobName ttlSeconds)) j jobName := by
  have hlt := h.drawn i token (by rw [hbody]; rfl)
  have hsince := since_run (h.holds i jobName token u hbody).since hlt (.crash i :: as)
  rw [← hw'] at hsince
  cases hget : w'.redis.get w'.now (lockKey jobName) with
  | none => exact .inr fun j ttlSeconds hidle => inside_step_set hidle hget ttlSeconds
  | some t =>
    obtain ⟨expires, hentry, hlive⟩ := Redis.get_eq_some.mp hget
    obtain ⟨hle, hsame⟩ := hsince t expires hentry
    refine .inl ⟨t, lt_of_le_of_ne hle fun heq => ?_, rfl⟩
    rw [hsame heq.symm] at hlive
    exact absurd hlive hover.not_gt

/-- For any number of workers and any order of their steps: while the bodies in progress are
within the time to live of their locks no two are of the same job; a release removes nothing but
the worker's own lock; and the job of a crashed worker can be taken again once the time to live
is over, unless that has happened already. -/
theorem scheduler_lock_exclusive (now : Time) (as : List (Action ι)) :
    ((after now as).InTime → ∀ i j jobName, (after now as).Inside i jobName →
        (after now as).Inside j jobName → i = j) ∧
      (∀ i key, ((after now as).step (.release i)).redis.entry key ≠ (after now as).redis.entry key →
        ∃ jobName token, (after now as).pc i = .release jobName token ∧ key = lockKey jobName ∧
          (after now as).redis.get (after now as).now key = some token ∧
            ∀ j ≠ i, ((after now as).pc j).token ≠ some token) ∧
      ∀ i jobName token u, (after now as).pc i = .body jobName token u → ∀ as' w',
        w' = after now (as ++ .crash i :: as') → u ≤ w'.now →
          (∃ t > token, w'.redis.get w'.now (lockKey jobName) = some t) ∨
            ∀ j ttlSeconds, w'.pc j = .idle →
              Inside (w'.step (.set j jobName ttlSeconds)) j jobName := by
  have hinv := inv_after now as
  refine ⟨?_, fun i key hremoved => hinv.release_own hremoved, ?_⟩
  · rintro htime i j jobName ⟨t, u, hi⟩ ⟨t', u', hj⟩
    exact hinv.exclusive hi hj (htime i jobName t u hi) (htime j jobName t' u' hj)
  · intro i jobName token u hbody as' w' hw' hover
    exact hinv.acquirable hbody as' (hw'.trans (run_append _ _ _ _)) hover

/-- `run_with_lock` is a `SET`, the body and a release of one worker at one instant. -/
theorem runWithLock_eq {σ : Type*} {settings : Settings} (henabled : settings.schedulerLockEnabled = true)
    (hidle : w.pc i = .idle) (jobName : String) (fn : σ → σ) (s : σ) :
    (runWithLock settings jobName w.now fn (w.redis, s)).1 = (run step w
        [.set i jobName settings.schedulerLockTtlSeconds, .finish i, .release i]).redis ∧
      ((runWithLock settings jobName w.now fn (w.redis, s)).2 = fn s ∧
          Inside (w.step (.set i jobName settings.schedulerLockTtlSeconds)) i jobName ∨
        (runWithLock settings jobName w.now fn (w.redis, s)).2 = s ∧
          ¬ Inside (w.step (.set i jobName settings.schedulerLockTtlSeconds)) i jobName) := by
  have hattempt : (w.attempt jobName settings.schedulerLockTtlSeconds).2 =
      Redis.setNx { w.redis with uuids := w.redis.uuids + 1 } w.now ("sched:lock:" ++ jobName)
        w.redis.uuids (max 1 settings.schedulerLockTtlSeconds * 1000) := rfl
  simp only [runWithLock, henabled, if_true, ← hattempt, run, List.foldl_cons, List.foldl_nil]
  cases hset : (w.attempt jobName settings.schedulerLockTtlSeconds).2 with
  | none =>
    rw [step_set_none hidle hset]
    simp only [step, hidle]
    refine ⟨rfl, .inr ⟨trivial, ?_⟩⟩
    rintro ⟨token, expires, hpc⟩
    exact nomatch hidle.symm.trans hpc
  | some redis =>
    have hinside := pc_goto { w with redis := redis } i
      (.body jobName w.redis.uuids (w.now + ttlMillis settings.schedulerLockTtlSeconds)) i
    rw [if_pos rfl] at hinside
    rw [step_set_some hidle hset]
    refine ⟨?_, .inl ⟨rfl, _, _, hinside⟩⟩
    have hfinished := pc_goto ({ w with redis := redis }.goto i
      (.body jobName w.redis.uuids (w.now + ttlMillis settings.schedulerLockTtlSeconds))) i
      (.release jobName w.redis.uuids) i
    rw [if_pos rfl] at hfinished
    simp only [step, hinside, hfinished]
    rfl

end Workers
end OpsMonitor.Scheduler
