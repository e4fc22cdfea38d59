import OpsMonitor.Agent.Polling
import OpsMonitor.Agent.Reports

/-! What the two agents report on a command that outlives its time limit, and on one that ends by
itself (`subprocess.run`, `ExecRunner.Run`). -/

namespace OpsMonitor.Agent.Polling
open Library Library.Action
open OpsMonitor.Task (TaskResultRequest)
open Base64 (Bytes)

/-- What becomes of a command that is given a time limit. -/
inductive Fate
  | ended (outcome : CommandOutcome)
  /-- It still runs when the limit is reached, and has printed this by then. -/
  | expired (stdout stderr : Bytes)
  deriving DecidableEq, Repr

/-! ## The two runners -/

/-- `subprocess.run` with a timeout, where `expiry` is the text of `TimeoutExpired`. -/
def completed (expiry : String) (argv : List String) : Fate → Except PyException CompletedProcess
  | .expired _ _ => .error (.timeoutExpired expiry)
  | .ended outcome =>
    match TaskWorker.subprocessRun argv outcome with
    | .error (.osError message) => .error (.osError message)
    | .error (.valueError message) => .error (.valueError message)
    | .ok (code, stdout, stderr) => .ok ⟨code, stdout, stderr⟩

/-- A Python agent whose commands have this fate. -/
def pyWorld (expiry : String) (fail : Trace → TaskResultRequest → Option PyException)
    (fate : Fate) : PyWorld :=
  ⟨fun _ c => completed expiry c.argv fate, fail⟩

/-- The errors of `cmd.Run`. -/
inductive CmdError
  | exitError (code : ℤ)
  | other (message : String)
  deriving DecidableEq, Repr

/-- What is known after `cmd.Run`. -/
structure CmdRun where
  stdout : Bytes
  stderr : Bytes
  err : Option CmdError
  contextExpired : Bool
  deriving DecidableEq, Repr

/-- `cmd.Run` of `exec.CommandContext`. A process that is killed because the context has expired
ends with the exit code -1. -/
def cmdRun : Fate → CmdRun
  | .ended (.exited code stdout stderr) =>
    ⟨stdout, stderr, if code = 0 then none else some (.exitError code), false⟩
  | .ended (.notStarted message) => ⟨[], [], some (.other message), false⟩
  | .expired stdout stderr => ⟨stdout, stderr, some (.exitError (-1)), true⟩

/-- `ExecRunner.Run`. -/
def ExecRunner.run (cmd : CmdRun) : Result × Option RunError :=
  match cmd.err with
  | none => (⟨cmd.stdout, cmd.stderr, 0⟩, none)
  | some (.exitError code) => (⟨cmd.stdout, cmd.stderr, code⟩, none)
  | some (.other message) =>
    (⟨cmd.stdout, cmd.stderr, 0⟩,
      some (if cmd.contextExpired then .deadlineExceeded else .failed message))

theorem ExecRunner.run_exited (code : ℤ) (stdout stderr : Bytes) :
    ExecRunner.run (cmdRun (.ended (.exited code stdout stderr))) =
      (⟨stdout, stderr, code⟩, none) := by
  by_cases hcode : code = 0
  · simp [cmdRun, run, hcode]
  · simp [cmdRun, run, hcode]

/-- A Go agent whose commands have this fate. -/
def goWorld (fail : Trace → TaskResultRequest → Option String) (fate : Fate) : GoWorld :=
  ⟨fun _ _ => ExecRunner.run (cmdRun fate), fail⟩

/-! ## What the executors answer -/

variable {allowed : List String} {task : PendingTask} {name action : String} {t : Trace}

namespace ServiceExecutor

variable {w : PyWorld}

/-- What `run_action` makes of the runner's answer. -/
def acted (timeout : ℚ) : Except PyException CompletedProcess → Except PyException (Bool × String)
  | .ok result => .ok (finished result)
  | .error (.timeoutExpired _) => .ok (false, timeoutMessage timeout)
  | .error (.osError message) => .ok (false, "执行失败: " ++ message)
  | .error e => .error e

/-- What `fetch_logs` makes of the runner's answer. -/
def logged : Except PyException CompletedProcess → Except PyException (Bool × String)
  | .ok result => .ok (fetched result)
  | .error (.timeoutExpired message) | .error (.subprocessError message)
  | .error (.osError message) => .ok (false, "获取日志失败: " ++ message)
  | .error e => .error e

theorem exec_runAction (hname : name ∈ allowed) (haction : action ∈ allowedActions)
    (timeout : ℚ) :
    (exec (runAction w allowed (some name) action timeout) t).1 =
      acted timeout (w.run t ⟨["systemctl", actionCommand action, name], timeout⟩) := by
  have hvalid : TaskWorker.validate allowed (some name) action = .ok name := by
    simp [TaskWorker.validate, hname, haction]
  unfold runAction
  rw [exec_bind, exec_validate, hvalid]
  dsimp only [Except.mapError]
  rw [exec_tryCatch, exec_map, exec_subprocessRun]
  rcases w.run t ⟨["systemctl", actionCommand action, name], timeout⟩ with e | result
  · cases e <;> rfl
  · rfl

theorem exec_fetchLogs (hname : name ∈ allowed) (lines : ℤ) :
    (exec (fetchLogs w allowed (some name) lines) t).1 =
      logged (w.run t ⟨["journalctl", "-n", toString lines, "-u", name, "--no-pager"], 30⟩) := by
  have hvalid : TaskWorker.validate allowed (some name) "STATUS" = .ok name := by
    simp [TaskWorker.validate, hname, allowedActions]
  unfold fetchLogs
  rw [exec_bind, exec_validate, hvalid]
  dsimp only [Except.mapError]
  rw [exec_tryCatch, exec_map, exec_subprocessRun]
  rcases w.run t ⟨["journalctl", "-n", toString lines, "-u", name, "--no-pager"], 30⟩ with
    e | result
  · cases e <;> rfl
  · rfl

end ServiceExecutor

namespace Executor

variable {w : GoWorld}

theorem run_runAction (hname : name ∈ allowed) (haction : action ∈ allowedActions)
    (timeout : ℤ) :
    ((runAction w allowed name action timeout).run t).1 =
      finished (limit timeout)
        (w.run t ⟨["systemctl", actionCommand action, name], limit timeout / second⟩) := by
  have hvalid : Agent.Worker.validate allowed name action = .ok () := by
    simp [Agent.Worker.validate, hname, haction]
  unfold runAction
  rw [hvalid]
  rfl

theorem run_fetchLogs (hname : name ∈ allowed) :
    ((fetchLogs w allowed name 0).run t).1 =
      fetched (w.run t ⟨["journalctl", "-n", "200", "-u", name, "--no-pager"], 30⟩) := by
  have hvalid : Agent.Worker.validate allowed name "STATUS" = .ok () := by
    simp [Agent.Worker.validate, hname, allowedActions]
  unfold fetchLogs
  rw [hvalid]
  rfl

end Executor

/-! ## The keywords -/

theorem TaskWorker.classify_timeout_iff (text : String) :
    Agent.TaskWorker.classifyFailure text = .executionTimeout ↔
      Agent.TaskWorker.timedOut text = true := by
  unfold Agent.TaskWorker.classifyFailure
  split_ifs <;> simp_all

theorem Worker.classify_timeout_iff (text : String) :
    Agent.Worker.classifyFailure text = .executionTimeout ↔ Agent.Worker.timedOut text = true := by
  unfold Agent.Worker.classifyFailure
  split_ifs <;> simp_all

theorem TaskWorker.timedOut_message (rest : String) :
    Agent.TaskWorker.timedOut ("执行超时（" ++ rest) = true := by
  have hword : occursIn "超时" (lower ("执行超时（" ++ rest)) = true := by
    have hlower : lower ("执行超时（" ++ rest) = "执行".toList ++ "超时".toList ++
        ("（".toList ++ lower rest) := by
      have hfront : lower "执行超时（" = "执行".toList ++ "超时".toList ++ "（".toList := by
        decide +kernel
      simp only [lower, String.toList_append, List.flatMap_append] at hfront ⊢
      simp only [hfront, List.append_assoc]
    exact occursIn_iff.mpr ⟨_, _, hlower.symm⟩
  simp only [Agent.TaskWorker.timedOut, Agent.TaskWorker.mentions, List.any_cons, hword,
    Bool.true_or]

theorem Worker.timedOut_message (rest : String) :
    Agent.Worker.timedOut ("执行超时（" ++ rest) = true := by
  have hword : occursIn "超时" ("执行超时（" ++ rest).toList = true := by
    refine occursIn_iff.mpr ⟨"执行".toList, "（".toList ++ rest.toList, ?_⟩
    simp
  simp only [Agent.Worker.timedOut, Agent.Worker.mentions, List.any_cons, hword, Bool.true_or]

/-! ## What the workers report -/

theorem Adds.reports_eq {t' : Trace} {lines : List (List String)} (h : Adds t t' lines []) :
    t'.reports = t.reports := by
  obtain ⟨commands, reports, rfl, -, hreports⟩ := h
  rw [List.map_eq_nil_iff.mp hreports, List.append_nil]

namespace TaskWorker

/-- The types of error that the Python agent reports on a task. -/
def types (w : PyWorld) (allowed : List String) (task : PendingTask) : List (Option String) :=
  (exec (executeOne w allowed task) .empty).2.reports.map TaskResultRequest.errorType

theorem types_eq (w : PyWorld) (allowed : List String) (task : PendingTask) :
    types w allowed task =
      [(reportOf task (exec (execute w allowed task) .empty).1).errorType] := by
  have hreports : (exec (execute w allowed task) .empty).2.reports = [] :=
    (execute_adds task .empty).reports_eq
  rw [types, exec_executeOne, Trace.reported, hreports]
  rfl

/-- The output of the command has a keyword, as the Python agent decodes it. -/
def Keyword (stdout stderr : Bytes) : Prop :=
  ∃ text, (Utf8.decode stdout = some text ∨ Utf8.decode stderr = some text) ∧
    Agent.TaskWorker.timedOut text

end TaskWorker

namespace Worker

/-- The types of error that the Go agent reports on a task. -/
def types (w : GoWorld) (allowed : List String) (task : PendingTask) : List (Option String) :=
  ((executeOne w allowed task).run .empty).2.reports.map TaskResultRequest.errorType

theorem types_eq (w : GoWorld) (allowed : List String) (task : PendingTask) :
    types w allowed task =
      [(Agent.Worker.report task.executionId ((execute w allowed task).run .empty).1.1
        ((execute w allowed task).run .empty).1.2).errorType] := by
  have hreports : ((execute w allowed task).run .empty).2.reports = [] :=
    (execute_adds task .empty).reports_eq
  rw [types, run_executeOne, Trace.reported, hreports]
  rfl

/-- The output of the command has a keyword, as the Go agent reads it. -/
def Keyword (stdout stderr : Bytes) : Prop :=
  Agent.Worker.timedOut (Utf8.decodeLossy stdout) ∨ Agent.Worker.timedOut (Utf8.decodeLossy stderr)

end Worker

/-- The type of a timeout. -/
def timeoutType : Option String := some ErrorType.executionTimeout.text

/-- Timeouts are reported as timeouts, and nothing else is. `seconds` and `duration` are the limits
that the executors are given when they are called on their own. -/
structure TimeoutsReported (allowed : List String) (task : PendingTask) (name : String)
    (seconds : ℚ) (duration : ℤ) (fate : Fate) (py : PyWorld) (go : GoWorld) : Prop where
  pythonExpired : ∀ stdout stderr, fate = .expired stdout stderr → task.action ∈ allowedActions →
    (exec (ServiceExecutor.runAction py allowed (some name) task.action seconds) .empty).1 =
        .ok (false, ServiceExecutor.timeoutMessage seconds) ∧
      TaskWorker.types py allowed task = [timeoutType]
  goExpired : ∀ stdout stderr, fate = .expired stdout stderr → task.action ∈ allowedActions →
    ((Executor.runAction go allowed name task.action duration).run .empty).1 =
        (false, Executor.timeoutMessage (Executor.limit duration)) ∧
      Worker.types go allowed task = [timeoutType]
  pythonEnded : ∀ code stdout stderr, fate = .ended (.exited code stdout stderr) →
    TaskWorker.types py allowed task = [timeoutType] → TaskWorker.Keyword stdout stderr
  goEnded : ∀ code stdout stderr, fate = .ended (.exited code stdout stderr) →
    Worker.types go allowed task = [timeoutType] → Worker.Keyword stdout stderr

theorem ne_logs (h : action ∈ allowedActions) : action ≠ "LOGS" := by
  rintro rfl
  exact absurd h (by decide)

/-! ## Commands that end by themselves -/

theorem completed_exited (expiry : String) (argv : List String) (code : ℤ) (stdout stderr : Bytes) :
    (∃ message, completed expiry argv (.ended (.exited code stdout stderr)) =
      .error (.valueError message)) ∨
    ∃ out err, Utf8.decode stdout = some out ∧ Utf8.decode stderr = some err ∧
      completed expiry argv (.ended (.exited code stdout stderr)) =
        .ok ⟨code, newlines out, newlines err⟩ := by
  unfold completed TaskWorker.subprocessRun
  dsimp only
  split_ifs with hnul
  · exact .inl ⟨_, rfl⟩
  · cases hout : Utf8.decode stdout with
    | none => exact .inl ⟨_, rfl⟩
    | some out =>
      cases herr : Utf8.decode stderr with
      | none => exact .inl ⟨_, rfl⟩
      | some err => exact .inr ⟨out, err, rfl, rfl, rfl⟩

namespace TaskWorker

theorem timedOut_trimmed (s : String) :
    Agent.TaskWorker.timedOut (trim isStrSpace (newlines s)) = Agent.TaskWorker.timedOut s := by
  rw [Bool.eq_iff_iff, ← classify_timeout_iff, ← classify_timeout_iff,
    Agent.TaskWorker.classifyFailure_trimmed]

theorem timedOut_of_type {answer : Bool × String}
    (h : (reportOf task (.ok answer)).errorType = timeoutType) :
    Agent.TaskWorker.timedOut answer.2 = true := by
  obtain ⟨success, output⟩ := answer
  cases success with
  | true => cases h
  | false =>
    have htext : some (Agent.TaskWorker.classifyFailure output).text = timeoutType := h
    exact (classify_timeout_iff output).mp (ErrorType.text_inj.mp (Option.some.inj htext))

theorem type_of_valueError (message : String) :
    (reportOf task (.error (.valueError message))).errorType ≠ timeoutType := by
  unfold reportOf Agent.TaskWorker.classifyValidationError
  dsimp only
  split_ifs <;> decide

/-- An executor reads one of the two streams of a command that has ended, and lets a `ValueError`
pass. -/
structure Reading (f : Except PyException CompletedProcess → Except PyException (Bool × String)) :
    Prop where
  ok : ∀ r, ∃ answer text, f (.ok r) = .ok answer ∧ answer.2 = trim isStrSpace text ∧
    (text = r.stdout ∨ text = r.stderr)
  valueError : ∀ message, f (.error (.valueError message)) = .error (.valueError message)

theorem reading_acted (timeout : ℚ) : Reading (ServiceExecutor.acted timeout) where
  ok r := by
    refine ⟨_, if r.returncode = 0 then r.stdout else if r.stderr = "" then r.stdout else r.stderr,
      rfl, ?_, ?_⟩
    · unfold ServiceExecutor.finished
      split_ifs <;> rfl
    · split_ifs <;> simp
  valueError _ := rfl

theorem reading_logged : Reading ServiceExecutor.logged where
  ok r := by
    refine ⟨_, if r.stdout = "" then r.stderr else r.stdout, rfl, rfl, ?_⟩
    split_ifs <;> simp
  valueError _ := rfl

theorem Reading.keyword
    {f : Except PyException CompletedProcess → Except PyException (Bool × String)}
    (hf : Reading f) (expiry : String) {argv : List String} {code : ℤ} {stdout stderr : Bytes}
    (h : (reportOf task
      (f (completed expiry argv (.ended (.exited code stdout stderr))))).errorType = timeoutType) :
    Keyword stdout stderr := by
  rcases completed_exited expiry argv code stdout stderr with
    ⟨message, hraise⟩ | ⟨out, err, hout, herr, hok⟩
  · rw [hraise, hf.valueError] at h
    exact absurd h (type_of_valueError message)
  · obtain ⟨answer, text, hanswer, htext, hstream⟩ := hf.ok ⟨code, newlines out, newlines err⟩
    rw [hok, hanswer] at h
    have hword := timedOut_of_type h
    rw [htext] at hword
    rcases hstream with rfl | rfl
    · rw [timedOut_trimmed] at hword
      exact ⟨out, .inl hout, hword⟩
    · rw [timedOut_trimmed] at hword
      exact ⟨err, .inr herr, hword⟩

theorem ended {expiry : String} {fail : Trace → TaskResultRequest → Option PyException} {code : ℤ}
    {stdout stderr : Bytes} (hservice : task.serviceName = some name) (hname : name ∈ allowed)
    (hrun : Runnable task)
    (h : types (pyWorld expiry fail (.ended (.exited code stdout stderr))) allowed task =
      [timeoutType]) : Keyword stdout stderr := by
  rw [types_eq, List.singleton_inj] at h
  unfold execute at h
  rw [hservice] at h
  by_cases hlogs : task.action = "LOGS"
  · rw [if_pos hlogs, ServiceExecutor.exec_fetchLogs hname] at h
    exact reading_logged.keyword expiry h
  · rw [if_neg hlogs, ServiceExecutor.exec_runAction hname (hrun.resolve_left hlogs)] at h
    exact (reading_acted _).keyword expiry h

theorem expired {expiry : String} {fail : Trace → TaskResultRequest → Option PyException}
    {stdout stderr : Bytes} (hservice : task.serviceName = some name) (hname : name ∈ allowed)
    (haction : task.action ∈ allowedActions) :
    types (pyWorld expiry fail (.expired stdout stderr)) allowed task = [timeoutType] := by
  rw [types_eq]
  unfold execute
  rw [if_neg (ne_logs haction), hservice, ServiceExecutor.exec_runAction hname haction]
  have htimeout : Agent.TaskWorker.classifyFailure
      (ServiceExecutor.timeoutMessage task.timeoutSeconds) = .executionTimeout := by
    rw [classify_timeout_iff, ServiceExecutor.timeoutMessage, String.append_assoc]
    exact timedOut_message _
  exact congrArg (fun type : ErrorType => [some type.text]) htimeout

end TaskWorker

namespace Worker

theorem timedOut_trimSpace (s : String) :
    Agent.Worker.timedOut (Agent.Worker.trimSpace s) = Agent.Worker.timedOut s := by
  rw [Bool.eq_iff_iff, ← classify_timeout_iff, ← classify_timeout_iff,
    Agent.Worker.classifyFailure_trimSpace]

theorem type_iff (executionId : ℕ) (success : Bool) (output : String) :
    (Agent.Worker.report executionId success output).errorType = timeoutType ↔
      success = false ∧ Agent.Worker.timedOut output = true := by
  cases success with
  | true => simp [Agent.Worker.report, timeoutType]
  | false => simp [Agent.Worker.report, timeoutType, ErrorType.text_inj, classify_timeout_iff]

/-- Where a text is read in place of a blank one, its keywords are those of the two. -/
theorem keyword_of_read {text other : String}
    (h : Agent.Worker.timedOut (if Agent.Worker.trimSpace text = "" then
      Agent.Worker.trimSpace other else Agent.Worker.trimSpace text) = true) :
    Agent.Worker.timedOut text = true ∨ Agent.Worker.timedOut other = true := by
  split_ifs at h
  · exact .inr (timedOut_trimSpace other ▸ h)
  · exact .inl (timedOut_trimSpace text ▸ h)

theorem ended {fail : Trace → TaskResultRequest → Option String} {code : ℤ}
    {stdout stderr : Bytes} (hservice : task.serviceName = some name) (hname : name ∈ allowed)
    (hrun : Runnable task)
    (h : types (goWorld fail (.ended (.exited code stdout stderr))) allowed task = [timeoutType]) :
    Keyword stdout stderr := by
  rw [types_eq, List.singleton_inj, type_iff] at h
  obtain ⟨hfailed, hword⟩ := h
  have hgetD : task.serviceName.getD "" = name := by rw [hservice]; rfl
  unfold execute at hfailed hword
  rw [hgetD] at hfailed hword
  by_cases hlogs : task.action = "LOGS"
  · rw [if_pos hlogs, Executor.run_fetchLogs hname, goWorld, ExecRunner.run_exited] at hword
    simp only [Executor.fetched] at hword
    exact keyword_of_read hword
  · rw [if_neg hlogs, Executor.run_runAction hname (hrun.resolve_left hlogs), goWorld,
      ExecRunner.run_exited] at hfailed hword
    by_cases hcode : code = 0
    · simp [Executor.finished, hcode] at hfailed
    · simp only [Executor.finished, if_neg hcode, Executor.failureOutput] at hword
      exact (keyword_of_read hword).symm

/-- The runner takes the killed command for one that has failed by itself. -/
theorem expired {fail : Trace → TaskResultRequest → Option String} {stdout stderr : Bytes}
    (hname : name ∈ allowed) (haction : action ∈ allowedActions) (duration : ℤ) :
    ((Executor.runAction (goWorld fail (.expired stdout stderr)) allowed name action duration).run
      t).1 = (false, Executor.failureOutput stdout stderr) := by
  rw [Executor.run_runAction hname haction]
  rfl

theorem expired_type {fail : Trace → TaskResultRequest → Option String} {stdout stderr : Bytes}
    (hservice : task.serviceName = some name) (hname : name ∈ allowed)
    (haction : task.action ∈ allowedActions) :
    types (goWorld fail (.expired stdout stderr)) allowed task = [timeoutType] ↔
      Agent.Worker.timedOut (Executor.failureOutput stdout stderr) = true := by
  have hgetD : task.serviceName.getD "" = name := by rw [hservice]; rfl
  rw [types_eq, List.singleton_inj, type_iff]
  unfold execute
  rw [if_neg (ne_logs haction), hgetD, expired hname haction]
  simp

end Worker

/-- Both agents report timeouts and nothing else as timeouts exactly if a command that outlives its
limit has printed the very message of the Go agent: its runner never sees the limit. -/
theorem timeoutsReported_iff (hservice : task.serviceName = some name) (hname : name ∈ allowed)
    (hrun : Runnable task) (seconds : ℚ) (duration : ℤ) (fate : Fate) (expiry : String)
    (pyFail : Trace → TaskResultRequest → Option PyException)
    (goFail : Trace → TaskResultRequest → Option String) :
    TimeoutsReported allowed task name seconds duration fate (pyWorld expiry pyFail fate)
        (goWorld goFail fate) ↔
      ∀ stdout stderr, fate = .expired stdout stderr → task.action ∈ allowedActions →
        Executor.failureOutput stdout stderr =
          Executor.timeoutMessage (Executor.limit duration) := by
  constructor
  · rintro h stdout stderr rfl haction
    have hanswer := (h.goExpired stdout stderr rfl haction).1
    rw [Worker.expired hname haction] at hanswer
    exact (Prod.mk.inj hanswer).2
  · intro hprinted
    refine ⟨?_, ?_, ?_, ?_⟩
    · rintro stdout stderr rfl haction
      refine ⟨?_, TaskWorker.expired hservice hname haction⟩
      rw [ServiceExecutor.exec_runAction hname haction]
      rfl
    · rintro stdout stderr rfl haction
      have houtput := hprinted stdout stderr rfl haction
      refine ⟨?_, (Worker.expired_type hservice hname haction).mpr ?_⟩
      · rw [Worker.expired hname haction, houtput]
      · rw [houtput, Executor.timeoutMessage, String.append_assoc]
        exact Worker.timedOut_message _
    · rintro code stdout stderr rfl htype
      exact TaskWorker.ended hservice hname hrun htype
    · rintro code stdout stderr rfl htype
      exact Worker.ended hservice hname hrun htype

/-- A status that is read in time. -/
theorem timeouts_reported_status :
    TimeoutsReported ["nginx"] ⟨1, "STATUS", some "nginx", 60⟩ "nginx" 60 (60 * second)
      (.ended (.exited 3 [0x69, 0x6E] []))
      (pyWorld "" (fun _ _ => none) (.ended (.exited 3 [0x69, 0x6E] [])))
      (goWorld (fun _ _ => none) (.ended (.exited 3 [0x69, 0x6E] []))) :=
  (timeoutsReported_iff rfl (by decide) (.inr (by decide)) 60 (60 * second)
    (.ended (.exited 3 [0x69, 0x6E] [])) "" (fun _ _ => none) (fun _ _ => none)).mpr
    (by rintro stdout stderr hfate; cases hfate)

/-- A silent restart that outlives its limit is of no known type for the Go agent. -/
theorem killed_restart_unknown :
    ¬ ∀ (allowed : List String) (task : PendingTask) (name : String) (seconds : ℚ) (duration : ℤ)
      (fate : Fate) (expiry : String) (pyFail : Trace → TaskResultRequest → Option PyException)
      (goFail : Trace → TaskResultRequest → Option String),
      task.serviceName = some name → name ∈ allowed → Runnable task →
        TimeoutsReported allowed task name seconds duration fate (pyWorld expiry pyFail fate)
          (goWorld goFail fate) := by
  intro h
  have htype := ((h ["nginx"] ⟨1, "RESTART", some "nginx", 60⟩ "nginx" 60 (60 * second)
    (.expired [] []) "" (fun _ _ => none) (fun _ _ => none) rfl (by decide)
    (.inr (by decide))).goExpired [] [] rfl (by decide)).2
  exact absurd htype (by decide +kernel)

end OpsMonitor.Agent.Polling
