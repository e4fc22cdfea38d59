import OpsMonitor.Clock
import OpsMonitor.Config

/-! The job lock (`core/scheduler_lock.py`) on the part of Redis that it uses. A token is the
number of the UUID that was drawn for it, so no two locks share one. -/

namespace OpsMonitor.Scheduler

structure Redis where
  entry : String → Option (ℕ × Time)
  uuids : ℕ

namespace Redis

def empty : Redis := ⟨fun _ => none, 0⟩

/-- The value of a key that has not expired. -/
def get (r : Redis) (now : Time) (key : String) : Option ℕ :=
  match r.entry key with
  | none => none
  | some (token, expires) => if now < expires then some token else none

/-- `SET key token NX PX px`. -/
def setNx (r : Redis) (now : Time) (key : String) (token : ℕ) (px : ℤ) : Option Redis :=
  match r.get now key with
  | some _ => none
  | none => some { r with entry := Function.update r.entry key (some (token, now + px)) }

/-- The release script: compare and delete. -/
def release (r : Redis) (now : Time) (key : String) (token : ℕ) : Redis :=
  if r.get now key = some token then { r with entry := Function.update r.entry key none } else r

end Redis

variable {σ : Type*}

/-- `run_with_lock` of a job that takes no time, with Redis available. -/
def runWithLock (settings : Settings) (jobName : String) (now : Time) (fn : σ → σ)
    (s : Redis × σ) : Redis × σ :=
  if settings.schedulerLockEnabled then
    let key := "sched:lock:" ++ jobName
    let token := s.1.uuids
    let redis := { s.1 with uuids := token + 1 }
    match redis.setNx now key token (max 1 settings.schedulerLockTtlSeconds * 1000) with
    | none => (redis, s.2)
    | some redis => (redis.release now key token, fn s.2)
  else (s.1, fn s.2)

/-- A job under the lock runs, or its round is skipped. -/
theorem runWithLock_snd (settings : Settings) (jobName : String) (now : Time) (fn : σ → σ)
    (s : Redis × σ) : (runWithLock settings jobName now fn s).2 = fn s.2 ∨
      (runWithLock settings jobName now fn s).2 = s.2 := by
  unfold runWithLock
  split_ifs
  · dsimp only
    split
    · exact .inr rfl
    · exact .inl rfl
  · exact .inl rfl

end OpsMonitor.Scheduler
