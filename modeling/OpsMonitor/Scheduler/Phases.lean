import OpsMonitor.Library.Intervals
import OpsMonitor.Scheduler.Mutex

/-! One job in several workers, each of which has called `setup_scheduler` at a time of its own.
The lock keeps the bodies apart, but it is gone when a body ends, so a worker whose tick comes
later in the same interval runs the body again; it says here exactly when that happens. -/

namespace OpsMonitor.Scheduler
open Library Library.Intervals

/-- Time is in milliseconds. A worker is the place of its start in the list, and `duration i n`
is how long a body takes that worker `i` starts at `n`. -/
structure Cluster where
  starts : List ℕ
  interval : ℕ
  jobName : String
  ttlSeconds : ℤ
  duration : ℕ → ℕ → ℕ

/-- The lock, the bodies in progress as tokens with their ends, and the starts of all bodies so
far as workers with their times. -/
structure Progress where
  redis : Redis
  running : List (ℕ × ℕ)
  log : List (ℕ × ℕ)

namespace Cluster

def jobs (c : Cluster) : List (Job ℕ) :=
  c.starts.zipIdx.map fun (start, i) => addJob start i c.interval none

/-- The bodies that have ended by `n` release their locks. -/
def settle (c : Cluster) (n : ℕ) (p : Progress) : Progress :=
  { p with
    redis := (p.running.filter (·.2 ≤ n)).foldl
      (fun redis body => redis.release body.2 (lockKey c.jobName) body.1) p.redis
    running := p.running.filter (n < ·.2) }

/-- The wrapped job of worker `i` at `n`: `run_with_lock` up to the start of the body. -/
def tick (c : Cluster) (i n : ℕ) (p : Progress) : Progress :=
  let p := c.settle n p
  let token := p.redis.uuids
  let redis := { p.redis with uuids := token + 1 }
  match redis.setNx n (lockKey c.jobName) token (ttlMillis c.ttlSeconds) with
  | none => { p with redis := redis }
  | some redis =>
    { redis := redis
      running := p.running ++ [(token, n + c.duration i n)]
      log := p.log ++ [(i, n)] }

def start : Progress := ⟨.empty, [], []⟩

/-- The workers after the instant `n`. -/
def progressAt (c : Cluster) (n : ℕ) : Progress := (elapse c.tick (fun _ p => p) c.jobs start n).2

/-- In every window of one interval at most one body starts. -/
def OncePerInterval (c : Cluster) (log : List (ℕ × ℕ)) : Prop :=
  ∀ a, (log.filter fun s => a ≤ s.2 ∧ s.2 < a + c.interval).length ≤ 1

/-- The first tick of any worker. -/
structure First (c : Cluster) (m : ℕ) : Prop where
  ticks : ∃ j ∈ c.jobs, j.ticks m = true
  first : ∀ j ∈ c.jobs, ∀ n, j.ticks n = true → m ≤ n

/-- The tick of `j` at `n` is the one that opens the `k`-th interval, or it comes while the body
that was started there is running. -/
def CoveredAt (c : Cluster) (m n : ℕ) : Prop :=
  ∀ k opener, m + k * c.interval ≤ n → n < m + (k + 1) * c.interval →
    c.jobs.find? (·.ticks (m + k * c.interval)) = some opener →
      ∀ j ∈ c.jobs, j.ticks n = true → (j = opener → n ≠ m + k * c.interval) →
        n < m + k * c.interval + c.duration opener.name (m + k * c.interval)

/-- Every tick but the one that opens its interval comes while the body started there is running. -/
def Covered (c : Cluster) : Prop := ∀ m, c.First m → ∀ n, c.CoveredAt m n

variable {c : Cluster} {p : Progress} {i n m : ℕ} {log : List (ℕ × ℕ)}

/-! ## The lock -/

/-- The body that was started last has ended by `n`. -/
def Free (c : Cluster) (log : List (ℕ × ℕ)) (n : ℕ) : Prop :=
  ∀ s ∈ log.getLast?, s.2 + c.duration s.1 s.2 ≤ n

instance (c : Cluster) (log : List (ℕ × ℕ)) (n : ℕ) : Decidable (c.Free log n) :=
  inferInstanceAs (Decidable (∀ s ∈ log.getLast?, _))

/-- What a tick adds to the log. -/
def push (c : Cluster) (i n : ℕ) (log : List (ℕ × ℕ)) : List (ℕ × ℕ) :=
  if c.Free log n then log ++ [(i, n)] else log

/-- Nothing has run yet, or the lock is that of the body started last. -/
def Locked (c : Cluster) (p : Progress) : Prop :=
  (p.log = [] ∧ p.running = [] ∧ p.redis.entry (lockKey c.jobName) = none) ∨
    ∃ i s token, p.log.getLast? = some (i, s) ∧ p.running = [(token, s + c.duration i s)] ∧
      p.redis.entry (lockKey c.jobName) = some (token, s + ttlMillis c.ttlSeconds)

/-- A free key is taken. -/
theorem tick_of_free {q : Progress} (hq : c.settle n p = q) (hlog : q.log = p.log)
    (hrunning : q.running = []) (hentry : q.redis.entry (lockKey c.jobName) = none)
    (hfree : c.Free p.log n) : (c.tick i n p).log = c.push i n p.log ∧ c.Locked (c.tick i n p) := by
  have hget : Redis.get { q.redis with uuids := q.redis.uuids + 1 } n (lockKey c.jobName) = none := by
    simp only [Redis.get, hentry]
  obtain ⟨redis, hset⟩ : ∃ redis, Redis.setNx { q.redis with uuids := q.redis.uuids + 1 } n
      (lockKey c.jobName) q.redis.uuids (ttlMillis c.ttlSeconds) = some redis :=
    ⟨_, Redis.setNx_eq_some.mpr ⟨hget, rfl⟩⟩
  have hentry' := Redis.entry_setNx hset (lockKey c.jobName)
  rw [if_pos rfl] at hentry'
  have htick : c.tick i n p =
      ⟨redis, q.running ++ [(q.redis.uuids, n + c.duration i n)], q.log ++ [(i, n)]⟩ := by
    unfold tick
    rw [hq]
    dsimp only
    rw [hset]
  rw [htick, hrunning, hlog, push, if_pos hfree]
  exact ⟨rfl, .inr ⟨i, n, _, List.getLast?_concat, rfl, hentry'⟩⟩

/-- While a body runs the key is taken. -/
theorem tick_of_taken {q : Progress} (hq : c.settle n p = q) (hlog : q.log = p.log)
    (hlocked : c.Locked q) {token : ℕ} (hget : q.redis.get n (lockKey c.jobName) = some token)
    (hfree : ¬ c.Free p.log n) : (c.tick i n p).log = c.push i n p.log ∧ c.Locked (c.tick i n p) := by
  have hget' : Redis.get { q.redis with uuids := q.redis.uuids + 1 } n (lockKey c.jobName) =
      some token := hget
  have hset : Redis.setNx { q.redis with uuids := q.redis.uuids + 1 } n (lockKey c.jobName)
      q.redis.uuids (ttlMillis c.ttlSeconds) = none := by
    rw [Redis.setNx, hget']
  have htick : c.tick i n p =
      { q with redis := { q.redis with uuids := q.redis.uuids + 1 } } := by
    unfold tick
    rw [hq]
    dsimp only
    rw [hset]
  rw [htick, push, if_neg hfree]
  exact ⟨hlog, hlocked⟩

theorem tick_eq (hshort : ∀ i n, (c.duration i n : ℤ) < ttlMillis c.ttlSeconds) (h : c.Locked p)
    (i n : ℕ) : (c.tick i n p).log = c.push i n p.log ∧ c.Locked (c.tick i n p) := by
  rcases h with ⟨hlog, hrunning, hentry⟩ | ⟨j, s, token, hlast, hrunning, hentry⟩
  · refine tick_of_free rfl rfl ?_ ?_ ?_
    · simp [settle, hrunning]
    · simp [settle, hrunning, hentry]
    · simp [Free, hlog]
  · have hlive : ((s + c.duration j s : ℕ) : ℤ) < s + ttlMillis c.ttlSeconds := by
      have hlt := hshort j s
      push_cast
      omega
    have hfree : c.Free p.log n ↔ s + c.duration j s ≤ n := by
      simp [Free, hlast]
    by_cases hended : s + c.duration j s ≤ n
    · have hget : p.redis.get ((s + c.duration j s : ℕ) : ℤ) (lockKey c.jobName) = some token :=
        Redis.get_eq_some.mpr ⟨_, hentry, hlive⟩
      refine tick_of_free rfl rfl ?_ ?_ (hfree.mpr hended)
      · simp [settle, hrunning, hended]
      · simp only [settle, hrunning, hended, List.filter_cons_of_pos, decide_true, List.filter_nil,
          List.foldl_cons, List.foldl_nil, Redis.entry_release, hget, and_self, if_true]
    · have hgo : n < s + c.duration j s := not_le.mp hended
      have hsettle : c.settle n p = p := by
        simp only [settle, hrunning, hended, hgo, List.filter_cons_of_neg, List.filter_cons_of_pos,
          decide_true, decide_false, Bool.false_eq_true, not_false_eq_true, List.filter_nil,
          List.foldl_nil]
        rw [← hrunning]
      have hget : p.redis.get n (lockKey c.jobName) = some token := by
        have hbefore : (n : ℤ) < ((s + c.duration j s : ℕ) : ℤ) := by exact_mod_cast hgo
        exact Redis.get_eq_some.mpr ⟨_, hentry, hbefore.trans hlive⟩
      exact tick_of_taken hsettle rfl (.inr ⟨j, s, token, hlast, hrunning, hentry⟩) hget
        (mt hfree.mp hended)

/-! ## The instants -/

theorem mem_jobs {j : Job ℕ} : j ∈ c.jobs ↔
    ∃ i start, c.starts[i]? = some start ∧ j = addJob start i c.interval none := by
  simp only [jobs, List.mem_map, Prod.exists, List.mk_mem_zipIdx_iff_getElem?]
  constructor
  · rintro ⟨start, i, hget, rfl⟩
    exact ⟨i, start, hget, rfl⟩
  · rintro ⟨i, start, hget, rfl⟩
    exact ⟨start, i, hget, rfl⟩

theorem nodup_jobs (c : Cluster) : c.jobs.Nodup := by
  have hnames : (c.jobs.map Job.name).Nodup := by
    have hmap : c.jobs.map Job.name = c.starts.zipIdx.map Prod.snd := by
      rw [jobs, List.map_map]
      rfl
    rw [hmap, List.zipIdx_map_snd]
    exact List.nodup_range' _ Nat.one_pos
  exact List.Nodup.of_map _ hnames

theorem ticks_iff {j : Job ℕ} (hj : j ∈ c.jobs) :
    j.ticks n = true ↔ ∃ t, j.nextRunTime = some t ∧ t ≤ n ∧ (n - t) % c.interval = 0 := by
  obtain ⟨i, start, -, rfl⟩ := mem_jobs.mp hj
  simp only [Job.ticks, addJob, Option.getD_none, Option.some.injEq, exists_eq_left']
  exact decide_eq_true_iff

/-- A worker that ticks once ticks after every interval. -/
theorem ticks_add {j : Job ℕ} (hj : j ∈ c.jobs) (h : j.ticks m = true) (k : ℕ) :
    j.ticks (m + k * c.interval) = true := by
  obtain ⟨t, hnext, hle, hmod⟩ := (ticks_iff hj).mp h
  refine (ticks_iff hj).mpr ⟨t, hnext, by omega, ?_⟩
  have hsub : m + k * c.interval - t = (m - t) + k * c.interval := by omega
  rw [hsub, Nat.add_mul_mod_self_right, hmod]

section Log
variable (hshort : ∀ i n, (c.duration i n : ℤ) < ttlMillis c.ttlSeconds) (hpos : 0 < c.interval)
include hshort hpos

theorem log_succ (n : ℕ) : (c.progressAt (n + 1)).log =
    (c.jobs.filter (·.ticks (n + 1))).foldl (fun log j => c.push j.name (n + 1) log)
      (c.progressAt n).log := by
  have hjobs : ∀ j ∈ c.jobs, j.nextRunTime ≠ some 0 := by
    intro j hj hzero
    obtain ⟨i, start, -, rfl⟩ := mem_jobs.mp hj
    have hsum : start + c.interval = 0 := Option.some.inj hzero
    omega
  have hloop : ∀ (l : List (Job ℕ)) (n : ℕ) (p : Progress), c.Locked p →
      (l.foldl (fun p j => c.tick j.name n p) p).log =
          l.foldl (fun log j => c.push j.name n log) p.log ∧
        c.Locked (l.foldl (fun p j => c.tick j.name n p) p) := by
    intro l n
    induction l with
    | nil => exact fun p hp => ⟨rfl, hp⟩
    | cons j l ih =>
      intro p hp
      obtain ⟨hlog, hlocked⟩ := tick_eq hshort hp j.name n
      obtain ⟨hrest, hlocked'⟩ := ih _ hlocked
      rw [List.foldl_cons, List.foldl_cons, hrest, hlog]
      exact ⟨rfl, hlocked'⟩
  have hstep : ∀ n, c.progressAt (n + 1) = (c.jobs.filter (·.ticks (n + 1))).foldl
      (fun p j => c.tick j.name (n + 1) p) (c.progressAt n) := fun n => elapse_snd_succ hjobs n
  have hlocked : c.Locked (c.progressAt n) := by
    induction n with
    | zero => exact .inl ⟨rfl, rfl, rfl⟩
    | succ n ih =>
      rw [hstep]
      exact (hloop _ _ _ ih).2
  rw [hstep]
  exact (hloop _ _ _ hlocked).1

end Log

/-! ## The ticks of one instant -/

theorem prefix_foldl_push (l : List (Job ℕ)) (n : ℕ) (log : List (ℕ × ℕ)) :
    log <+: l.foldl (fun log j => c.push j.name n log) log := by
  induction l generalizing log with
  | nil => exact List.prefix_rfl
  | cons j l ih =>
    refine List.IsPrefix.trans ?_ (ih _)
    dsimp only [push]
    split_ifs
    · exact List.prefix_append _ _
    · exact List.prefix_rfl

/-- While a body runs no other one starts. -/
theorem foldl_push_of_busy (h : ¬ c.Free log n) (l : List (Job ℕ)) :
    l.foldl (fun log j => c.push j.name n log) log = log := by
  induction l with
  | nil => rfl
  | cons j l ih => rw [List.foldl_cons, push, if_neg h, ih]

theorem free_concat {x : ℕ × ℕ} : c.Free (log ++ [x]) n ↔ x.2 + c.duration x.1 x.2 ≤ n := by
  simp [Free]

def Separated (c : Cluster) (log : List (ℕ × ℕ)) : Prop :=
  log.Pairwise fun a b => a.2 + c.interval ≤ b.2

theorem Separated.once (h : c.Separated log) : c.OncePerInterval log := by
  intro a
  have hfar := h.filter fun s => a ≤ s.2 ∧ s.2 < a + c.interval
  have hwindow : ∀ s ∈ log.filter (fun s => a ≤ s.2 ∧ s.2 < a + c.interval),
      a ≤ s.2 ∧ s.2 < a + c.interval := fun s hs => of_decide_eq_true (List.mem_filter.mp hs).2
  generalize log.filter (fun s => a ≤ s.2 ∧ s.2 < a + c.interval) = l at hfar hwindow ⊢
  match l with
  | [] => exact Nat.zero_le 1
  | [_] => exact le_rfl
  | x :: y :: rest =>
    have hle := (List.pairwise_cons.mp hfar).1 y List.mem_cons_self
    have hx := hwindow x List.mem_cons_self
    have hy := hwindow y (List.mem_cons_of_mem _ List.mem_cons_self)
    omega

/-- Two starts that are less than an interval apart. -/
theorem not_once {x y : ℕ × ℕ} {log' : List (ℕ × ℕ)} (h : log ++ [x, y] <+: log')
    (hle : x.2 ≤ y.2) (hlt : y.2 < x.2 + c.interval) : ¬ c.OncePerInterval log' := by
  intro honce
  have hsub : [x, y].Sublist log' := (List.sublist_append_right log [x, y]).trans h.sublist
  have hwindow := (hsub.filter fun s => x.2 ≤ s.2 ∧ s.2 < x.2 + c.interval).length_le
  have hboth : [x, y].filter (fun s => x.2 ≤ s.2 ∧ s.2 < x.2 + c.interval) = [x, y] := by
    refine List.filter_eq_self.mpr fun s hs => decide_eq_true ?_
    rcases List.mem_cons.mp hs with rfl | hs
    · exact ⟨le_rfl, by omega⟩
    · rw [List.mem_singleton.mp hs]
      exact ⟨hle, hlt⟩
  rw [hboth] at hwindow
  have hone := honce x.2
  simp only [List.length_cons, List.length_nil] at hwindow
  omega

/-! ## The intervals -/

/-- The log at `n` when every tick so far was covered: the last start opened the interval. -/
structure Shape (c : Cluster) (m n : ℕ) (log : List (ℕ × ℕ)) : Prop where
  separated : c.Separated log
  last : ∃ k opener, m + k * c.interval ≤ n ∧ n < m + (k + 1) * c.interval ∧
    c.jobs.find? (·.ticks (m + k * c.interval)) = some opener ∧
      log.getLast? = some (opener.name, m + k * c.interval)

def stepLog (c : Cluster) (n : ℕ) (log : List (ℕ × ℕ)) : List (ℕ × ℕ) :=
  (c.jobs.filter (·.ticks n)).foldl (fun log j => c.push j.name n log) log

theorem interval_unique {k k' : ℕ} (h : m + k * c.interval ≤ n) (h' : n < m + (k + 1) * c.interval)
    (hk : m + k' * c.interval ≤ n) (hk' : n < m + (k' + 1) * c.interval) : k' = k := by
  have hlt : k * c.interval < (k' + 1) * c.interval := by omega
  have hlt' : k' * c.interval < (k + 1) * c.interval := by omega
  have hle := Nat.lt_of_mul_lt_mul_right hlt
  have hle' := Nat.lt_of_mul_lt_mul_right hlt'
  omega

/-- The instant that opens an interval, with no body in progress. -/
theorem stepLog_opening (hpos : 0 < c.interval) (hfirst : c.First m) {k : ℕ}
    (hn : n = m + k * c.interval) (hfree : c.Free log n) (hsep : c.Separated log)
    (hbefore : ∀ a ∈ log, a.2 + c.interval ≤ n) :
    (c.OncePerInterval (c.stepLog n log) → c.CoveredAt m n) ∧
      (c.CoveredAt m n → c.Shape m n (c.stepLog n log)) := by
  have hnext : n < m + (k + 1) * c.interval := by
    rw [hn, add_mul]
    omega
  obtain ⟨opener, rest, hfilter⟩ : ∃ opener rest, c.jobs.filter (·.ticks n) = opener :: rest := by
    obtain ⟨j, hj, hticks⟩ := hfirst.ticks
    have hmem : j ∈ c.jobs.filter (·.ticks n) := by
      rw [hn]
      exact List.mem_filter.mpr ⟨hj, ticks_add hj hticks k⟩
    exact List.exists_cons_of_ne_nil (List.ne_nil_of_mem hmem)
  have hfind : c.jobs.find? (·.ticks (m + k * c.interval)) = some opener := by
    rw [← hn, ← List.head?_filter, hfilter]
    rfl
  have hnodup := (nodup_jobs c).filter (·.ticks n)
  rw [hfilter] at hnodup
  have hstep : c.stepLog n log =
      rest.foldl (fun log j => c.push j.name n log) (log ++ [(opener.name, n)]) := by
    rw [stepLog, hfilter, List.foldl_cons, push, if_pos hfree]
  constructor
  · intro honce k' opener' hle hlt hfind' j hj hticks hne
    obtain rfl := interval_unique hn.ge hnext hle hlt
    obtain rfl : opener = opener' := Option.some.inj (hfind.symm.trans hfind')
    by_contra hover
    have hjrest : j ∈ rest := by
      have hmem : j ∈ opener :: rest := hfilter ▸ List.mem_filter.mpr ⟨hj, hticks⟩
      exact (List.mem_cons.mp hmem).resolve_left fun heq => hne heq hn
    have hidle : c.Free (log ++ [(opener.name, n)]) n := by
      rw [free_concat]
      rw [← hn] at hover
      exact not_lt.mp hover
    obtain ⟨j', rest', rfl⟩ := List.exists_cons_of_ne_nil (List.ne_nil_of_mem hjrest)
    rw [hstep, List.foldl_cons, push, if_pos hidle, List.append_assoc] at honce
    exact @not_once c log (opener.name, n) (j'.name, n) _ (prefix_foldl_push rest' n _) le_rfl
      (Nat.lt_add_of_pos_right hpos) honce
  · intro hcovered
    have hlog : c.stepLog n log = log ++ [(opener.name, n)] := by
      rw [hstep]
      cases hrest : rest with
      | nil => rfl
      | cons j rest' =>
        rw [← hrest]
        refine foldl_push_of_busy ?_ rest
        have hj : j ∈ c.jobs.filter (·.ticks n) := by
          rw [hfilter, hrest]
          simp
        obtain ⟨hj, hticks⟩ := List.mem_filter.mp hj
        have hne : j ≠ opener := by
          rintro rfl
          rw [hrest] at hnodup
          simp at hnodup
        have hrunning := hcovered k opener hn.ge hnext hfind j hj hticks fun heq => absurd heq hne
        rw [free_concat, ← hn] at *
        exact not_le.mpr hrunning
    rw [hlog]
    refine ⟨List.pairwise_append.mpr ⟨hsep, List.pairwise_singleton _ _, ?_⟩,
      k, opener, hn.ge, hnext, hfind, ?_⟩
    · intro a ha b hb
      rw [List.mem_singleton.mp hb]
      exact hbefore a ha
    · rw [List.getLast?_concat, hn]

/-- An instant within an interval. -/
theorem stepLog_inside {k : ℕ} {opener : Job ℕ} (hlo : m + k * c.interval < n)
    (hhi : n < m + (k + 1) * c.interval)
    (hfind : c.jobs.find? (·.ticks (m + k * c.interval)) = some opener)
    (hlast : log.getLast? = some (opener.name, m + k * c.interval)) :
    (c.OncePerInterval (c.stepLog n log) → c.CoveredAt m n) ∧
      (c.CoveredAt m n → c.stepLog n log = log) := by
  have hfree : c.Free log n ↔
      m + k * c.interval + c.duration opener.name (m + k * c.interval) ≤ n := by
    simp [Free, hlast]
  constructor
  · intro honce k' opener' hle hlt hfind' j hj hticks _
    obtain rfl := interval_unique hlo.le hhi hle hlt
    obtain rfl : opener = opener' := Option.some.inj (hfind.symm.trans hfind')
    by_contra hover
    have hidle := hfree.mpr (not_lt.mp hover)
    have hmem : j ∈ c.jobs.filter (·.ticks n) := List.mem_filter.mpr ⟨hj, hticks⟩
    obtain ⟨j', rest, hfilter⟩ := List.exists_cons_of_ne_nil (List.ne_nil_of_mem hmem)
    obtain ⟨before, rfl⟩ := List.getLast?_eq_some_iff.mp hlast
    rw [stepLog, hfilter, List.foldl_cons, push, if_pos hidle, List.append_assoc] at honce
    have hclose : n < m + k' * c.interval + c.interval := by
      rw [add_mul, one_mul] at hhi
      omega
    exact @not_once c before (opener.name, m + k' * c.interval) (j'.name, n) _
      (prefix_foldl_push rest n _) hlo.le hclose honce
  · intro hcovered
    cases hfilter : c.jobs.filter (·.ticks n) with
    | nil => rw [stepLog, hfilter, List.foldl_nil]
    | cons j rest =>
      have hj : j ∈ c.jobs.filter (·.ticks n) := by
        rw [hfilter]
        exact List.mem_cons_self
      obtain ⟨hj, hticks⟩ := List.mem_filter.mp hj
      have hrunning := hcovered k opener hlo.le hhi hfind j hj hticks fun _ => hlo.ne'
      exact foldl_push_of_busy (mt hfree.mp (not_le.mpr hrunning)) _

/-! ## All instants -/

/-- Before the first tick nothing has run, and later the last body opened its interval. -/
structure Regular (c : Cluster) (m n : ℕ) : Prop where
  before : n < m → (c.progressAt n).log = []
  later : m ≤ n → c.Shape m n (c.progressAt n).log

section Rounds
variable (hlock : ∀ i n, (c.duration i n : ℤ) < ttlMillis c.ttlSeconds)
  (hshort : ∀ i n, c.duration i n < c.interval)
include hlock hshort

theorem regular_succ (hfirst : c.First m) (h : c.Regular m n) :
    (c.OncePerInterval (c.progressAt (n + 1)).log → c.CoveredAt m (n + 1)) ∧
      (c.CoveredAt m (n + 1) → c.Regular m (n + 1)) := by
  have hpos : 0 < c.interval := (hshort 0 0).pos
  have hlog : (c.progressAt (n + 1)).log = c.stepLog (n + 1) (c.progressAt n).log :=
    log_succ hlock hpos n
  rcases lt_trichotomy (n + 1) m with hlt | heq | hgt
  · have hnone : c.jobs.filter (·.ticks (n + 1)) = [] := by
      refine List.filter_eq_nil_iff.mpr fun j hj hticks => ?_
      exact (hfirst.first j hj _ hticks).not_gt hlt
    rw [hlog, stepLog, hnone, List.foldl_nil]
    refine ⟨fun _ k opener hle => absurd hle (by omega), fun _ => ⟨fun _ => ?_, fun hle => ?_⟩⟩
    · rw [hlog, stepLog, hnone, List.foldl_nil]
      exact h.before (by omega)
    · exact absurd hle hlt.not_ge
  · have hempty := h.before (by omega)
    have hopening := stepLog_opening hpos hfirst (k := 0) (by omega : n + 1 = _)
      (by simp [Free] : c.Free [] _) List.Pairwise.nil (fun a ha => absurd ha List.not_mem_nil)
    rw [hlog, hempty]
    refine ⟨hopening.1, fun hcovered => ⟨fun hlt => absurd heq hlt.ne, fun _ => ?_⟩⟩
    rw [hlog, hempty]
    exact hopening.2 hcovered
  · obtain ⟨hsep, k, opener, hle, hwithin, hfind, hlast⟩ := h.later (by omega)
    rcases (show n + 1 ≤ m + (k + 1) * c.interval from hwithin).lt_or_eq with hinside | hopens
    · have hinside' := stepLog_inside (by omega) hinside hfind hlast
      rw [hlog]
      refine ⟨hinside'.1, fun hcovered => ⟨fun hlt => absurd hgt hlt.not_gt, fun _ => ?_⟩⟩
      rw [hlog, hinside'.2 hcovered]
      exact ⟨hsep, k, opener, by omega, hinside, hfind, hlast⟩
    · have hfar : ∀ a ∈ (c.progressAt n).log, a.2 + c.interval ≤ n + 1 := by
        obtain ⟨before, hbefore⟩ := List.getLast?_eq_some_iff.mp hlast
        rw [hbefore] at hsep ⊢
        rw [add_mul, one_mul] at hopens
        intro a ha
        rcases List.mem_append.mp ha with ha | ha
        · have hle := (List.pairwise_append.mp hsep).2.2 a ha _ (List.mem_singleton.mpr rfl)
          dsimp only at hle
          omega
        · rw [List.mem_singleton.mp ha]
          dsimp only
          omega
      have hended : c.Free (c.progressAt n).log (n + 1) := by
        intro s hs
        rw [hlast, Option.mem_some_iff] at hs
        have hd := hshort opener.name (m + k * c.interval)
        rw [← hs]
        rw [add_mul, one_mul] at hopens
        dsimp only
        omega
      have hopening := stepLog_opening hpos hfirst hopens hended hsep hfar
      rw [hlog]
      refine ⟨hopening.1, fun hcovered => ⟨fun hlt => absurd hgt hlt.not_gt, fun _ => ?_⟩⟩
      rw [hlog]
      exact hopening.2 hcovered

omit hlock in
theorem First.pos (hfirst : c.First m) : 0 < m := by
  obtain ⟨j, hj, hticks⟩ := hfirst.ticks
  obtain ⟨t, hnext, hle, -⟩ := (ticks_iff hj).mp hticks
  obtain ⟨i, start, -, rfl⟩ := mem_jobs.mp hj
  have hpos : 0 < c.interval := (hshort 0 0).pos
  have hsum : start + c.interval = t := Option.some.inj hnext
  omega

omit hlock in
theorem regular_zero (hfirst : c.First m) : c.Regular m 0 ∧ c.CoveredAt m 0 := by
  have hm := hfirst.pos hshort
  refine ⟨⟨fun _ => rfl, fun hle => absurd hle hm.not_ge⟩, fun k opener hle => ?_⟩
  exact absurd hle (by omega)

theorem coveredAt_of_once (honce : ∀ n, c.OncePerInterval (c.progressAt n).log)
    (hfirst : c.First m) (n : ℕ) : c.CoveredAt m n := by
  have hregular : ∀ n, c.Regular m n := by
    intro n
    induction n with
    | zero => exact (regular_zero hshort hfirst).1
    | succ n ih =>
      have hstep := regular_succ hlock hshort hfirst ih
      exact hstep.2 (hstep.1 (honce (n + 1)))
  cases n with
  | zero => exact (regular_zero hshort hfirst).2
  | succ n => exact (regular_succ hlock hshort hfirst (hregular n)).1 (honce (n + 1))

theorem once_of_covered (hcovered : c.Covered) (n : ℕ) : c.OncePerInterval (c.progressAt n).log := by
  by_cases hsome : ∃ m, ∃ j ∈ c.jobs, j.ticks m = true
  · have hfirst : c.First (Nat.find hsome) :=
      ⟨Nat.find_spec hsome, fun j hj n hticks => Nat.find_min' hsome ⟨j, hj, hticks⟩⟩
    have hregular : c.Regular (Nat.find hsome) n := by
      induction n with
      | zero => exact (regular_zero hshort hfirst).1
      | succ n ih => exact (regular_succ hlock hshort hfirst ih).2 (hcovered _ hfirst _)
    rcases lt_or_ge n (Nat.find hsome) with hlt | hle
    · rw [hregular.before hlt]
      exact fun _ => Nat.zero_le 1
    · exact (hregular.later hle).separated.once
  · have hempty : (c.progressAt n).log = [] := by
      induction n with
      | zero => rfl
      | succ n ih =>
        have hnone : c.jobs.filter (·.ticks (n + 1)) = [] :=
          List.filter_eq_nil_iff.mpr fun j hj hticks => hsome ⟨_, j, hj, hticks⟩
        rw [log_succ hlock (hshort 0 0).pos, hnone, List.foldl_nil, ih]
    rw [hempty]
    exact fun _ => Nat.zero_le 1

/-- The body starts at most once in each window of one interval exactly when every tick but the
one that opens its interval comes while the body started there is running. -/
theorem once_iff_covered : (∀ n, c.OncePerInterval (c.progressAt n).log) ↔ c.Covered :=
  ⟨fun honce _ hfirst n => coveredAt_of_once hlock hshort honce hfirst n,
    fun hcovered n => once_of_covered hlock hshort hcovered n⟩

end Rounds

/-! ## Two workers -/

/-- `evaluate_alerts` in two workers, the second of which starts `shift` later; a round takes a
tenth of a second. -/
def twoWorkers (shift : ℕ) : Cluster where
  starts := [0, shift]
  interval := 10000
  jobName := "evaluate_alerts"
  ttlSeconds := 600
  duration := fun _ _ => 100

theorem short_twoWorkers (shift : ℕ) :
    (∀ i n, ((twoWorkers shift).duration i n : ℤ) < ttlMillis (twoWorkers shift).ttlSeconds) ∧
      ∀ i n, (twoWorkers shift).duration i n < (twoWorkers shift).interval := by
  refine ⟨fun i n => ?_, fun i n => ?_⟩
  · exact (by decide : (100 : ℤ) < ttlMillis 600)
  · exact (by decide : 100 < 10000)

theorem ticks_twoWorkers {shift : ℕ} {j : Job ℕ} (hj : j ∈ (twoWorkers shift).jobs) :
    ∃ t, (t = 10000 ∨ t = shift + 10000) ∧
      ∀ n, j.ticks n = true ↔ t ≤ n ∧ (n - t) % 10000 = 0 := by
  have hjobs : (twoWorkers shift).jobs = [addJob 0 0 10000 none, addJob shift 1 10000 none] := rfl
  rw [hjobs, List.mem_cons, List.mem_singleton] at hj
  rcases hj with rfl | rfl
  · exact ⟨10000, .inl rfl, fun n => decide_eq_true_iff⟩
  · exact ⟨shift + 10000, .inr rfl, fun n => decide_eq_true_iff⟩

/-- Both workers start at the same time. -/
theorem once_twoWorkers :
    (twoWorkers 0).OncePerInterval ((twoWorkers 0).progressAt 30000).log := by
  obtain ⟨hlock, hshort⟩ := short_twoWorkers 0
  refine (once_iff_covered hlock hshort).mpr ?_ 30000
  intro m hfirst n k opener hle hlt _ j hj hticks _
  have hinterval : (twoWorkers 0).interval = 10000 := rfl
  have hduration : ∀ i n, (twoWorkers 0).duration i n = 100 := fun _ _ => rfl
  have hm : m = 10000 := by
    obtain ⟨j, hj, hticks⟩ := hfirst.ticks
    obtain ⟨t, ht, hiff⟩ := ticks_twoWorkers hj
    have hge := ((hiff m).mp hticks).1
    have hle := hfirst.first (addJob 0 0 10000 none) List.mem_cons_self 10000 (by decide)
    omega
  obtain ⟨t, ht, hiff⟩ := ticks_twoWorkers hj
  have hmod := ((hiff n).mp hticks).2
  rw [hinterval] at hle hlt ⊢
  rw [hduration]
  omega

/-- The second worker starts half an interval later, and every round runs twice. -/
theorem twoWorkers_run_twice :
    ¬ ∀ c : Cluster, (∀ i n, (c.duration i n : ℤ) < ttlMillis c.ttlSeconds) →
      (∀ i n, c.duration i n < c.interval) → ∀ n, c.OncePerInterval (c.progressAt n).log := by
  intro h
  obtain ⟨hlock, hshort⟩ := short_twoWorkers 5000
  have hfirst : (twoWorkers 5000).First 10000 := by
    refine ⟨⟨addJob 0 0 10000 none, List.mem_cons_self, by decide⟩, fun j hj n hticks => ?_⟩
    obtain ⟨t, ht, hiff⟩ := ticks_twoWorkers hj
    have hle := ((hiff n).mp hticks).1
    omega
  have hcovered := coveredAt_of_once hlock hshort (h (twoWorkers 5000) hlock hshort) hfirst 15000 0
    (addJob 0 0 10000 none) (by decide) (by decide) rfl (addJob 5000 1 10000 none)
    (List.mem_cons_of_mem _ List.mem_cons_self) (by decide) fun _ => by decide
  exact absurd hcovered (by decide)

end Cluster
end OpsMonitor.Scheduler
