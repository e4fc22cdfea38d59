import OpsMonitor.Agent.Worker
import OpsMonitor.Library.Actions
import OpsMonitor.Library.Double

/-! The executors of the two agents and a polling round of their workers, step by step: every
command is given to a runner and every report to the client, and either may fail
(`agent/executor/service.py`, `agent/worker.py`; `internal/executor`, `internal/worker`,
`internal/syscmd`). -/

namespace OpsMonitor.Agent.Polling
open Library Library.Action
open OpsMonitor.Task (TaskResultRequest)
open Base64 (Bytes)

/-- A command as it is given to the runner, with its time limit in seconds. -/
structure Invocation where
  argv : List String
  timeout : ℚ
  deriving DecidableEq, Repr

/-- What has been done in a round: the commands run and the report calls made, oldest first. -/
structure Trace where
  commands : List Invocation
  reports : List TaskResultRequest
  deriving DecidableEq, Repr

def Trace.empty : Trace := ⟨[], []⟩

def Trace.ran (t : Trace) (c : Invocation) : Trace := { t with commands := t.commands ++ [c] }

def Trace.reported (t : Trace) (r : TaskResultRequest) : Trace :=
  { t with reports := t.reports ++ [r] }

/-- How the commands and the report calls of a worker end. Both may depend on all that has been
done before. -/
structure World (Answer Failure : Type) where
  run : Trace → Invocation → Answer
  fail : Trace → TaskResultRequest → Option Failure

namespace World

variable {Answer Failure : Type} (w : World Answer Failure)

/-- The runner runs a command. -/
def spawn (c : Invocation) : StateM Trace Answer := fun t => (w.run t c, t.ran c)

/-- The client makes a report call. -/
def call (r : TaskResultRequest) : StateM Trace (Option Failure) := fun t =>
  (w.fail t r, t.reported r)

end World

/-! ## The Python agent -/

/-- The exceptions that the executor and the worker tell apart, with their texts. -/
inductive PyException
  | timeoutExpired (message : String)
  | subprocessError (message : String)
  | osError (message : String)
  | valueError (message : String)
  | other (message : String)
  deriving DecidableEq, Repr

def PyException.text : PyException → String
  | timeoutExpired message | subprocessError message | osError message | valueError message
  | other message => message

/-- `subprocess.CompletedProcess` with its decoded output. -/
structure CompletedProcess where
  returncode : ℤ
  stdout : String
  stderr : String
  deriving DecidableEq, Repr

abbrev PyWorld := World (Except PyException CompletedProcess) PyException

abbrev PyAction (α : Type) := Action PyException Trace α

/-- `subprocess.run`. -/
def subprocessRun (w : PyWorld) (c : Invocation) : PyAction CompletedProcess := w.spawn c

/-- `report_task_result`. -/
def reportTaskResult (w : PyWorld) (r : TaskResultRequest) : PyAction Unit := do
  match ← w.call r with
  | none => return
  | some failure => throw failure

/-- `int(x)` of a float. -/
def truncate (x : ℚ) : ℤ := Int.tdiv x.num x.den

namespace ServiceExecutor

variable (w : PyWorld) (allowed : List String)

/-- `ServiceExecutor.validate`. -/
def validate (service : Option String) (action : String) : PyAction String :=
  match TaskWorker.validate allowed service action with
  | .error message => throw (.valueError message)
  | .ok name => return name

def timeoutMessage (timeout : ℚ) : String := "执行超时（" ++ toString (truncate timeout) ++ "s）"

/-- What `run_action` makes of a command that has ended. -/
def finished (result : CompletedProcess) : Bool × String :=
  if result.returncode = 0 then (true, trim isStrSpace result.stdout)
  else (false, trim isStrSpace (if result.stderr = "" then result.stdout else result.stderr))

/-- `ServiceExecutor.run_action`. -/
def runAction (service : Option String) (action : String) (timeout : ℚ) :
    PyAction (Bool × String) := do
  let name ← validate allowed service action
  tryCatch (finished <$> subprocessRun w ⟨["systemctl", actionCommand action, name], timeout⟩) fun
    | .timeoutExpired _ => return (false, timeoutMessage timeout)
    | .osError message => return (false, "执行失败: " ++ message)
    | e => throw e

/-- What `fetch_logs` makes of a command that has ended. -/
def fetched (result : CompletedProcess) : Bool × String :=
  (result.returncode = 0,
    trim isStrSpace (if result.stdout = "" then result.stderr else result.stdout))

/-- `ServiceExecutor.fetch_logs`. -/
def fetchLogs (service : Option String) (lines : ℤ) : PyAction (Bool × String) := do
  let name ← validate allowed service "STATUS"
  tryCatch (fetched <$> subprocessRun w
      ⟨["journalctl", "-n", toString lines, "-u", name, "--no-pager"], 30⟩) fun
    | .timeoutExpired message | .subprocessError message | .osError message =>
      return (false, "获取日志失败: " ++ message)
    | e => throw e

end ServiceExecutor

namespace TaskWorker

variable (w : PyWorld) (allowed : List String)

/-- The call of the executor in `_execute_one`. -/
def execute (task : PendingTask) : PyAction (Bool × String) :=
  if task.action = "LOGS" then ServiceExecutor.fetchLogs w allowed task.serviceName 200
  else ServiceExecutor.runAction w allowed task.serviceName task.action task.timeoutSeconds

/-- The exception handlers of `_execute_one`, which report themselves. -/
def handle (task : PendingTask) : PyException → PyAction (Option (Bool × String))
  | .valueError message => do
    reportTaskResult w ⟨task.executionId, "FAILED", none, none, some message,
      some (TaskWorker.classifyValidationError message).text, none⟩
    return none
  | e => do
    reportTaskResult w ⟨task.executionId, "FAILED", none, none, some e.text,
      some ErrorType.unknown.text, none⟩
    return none

/-- `TaskWorker._execute_one`. -/
def executeOne (task : PendingTask) : PyAction Unit := do
  match ← tryCatch (some <$> execute w allowed task) (handle w task) with
  | none => return
  | some (true, output) =>
    reportTaskResult w ⟨task.executionId, "SUCCESS", none, some output, none, none,
      if task.action = "LOGS" then some output else none⟩
  | some (false, output) =>
    reportTaskResult w ⟨task.executionId, "FAILED", none, none, some output,
      some (TaskWorker.classifyFailure output).text, none⟩

/-- `TaskWorker.poll_once` on the tasks it has fetched. -/
def pollOnce (pending : List PendingTask) : StateM Trace ℕ :=
  pending.foldlM (fun processed task => do
    match ← (executeOne w allowed task).run with
    | .ok () => return processed + 1
    | .error _ => return processed) 0

end TaskWorker

/-! ## The Go agent -/

/-- `syscmd.Result`. -/
structure Result where
  stdout : Bytes
  stderr : Bytes
  exitCode : ℤ
  deriving DecidableEq, Repr

/-- The errors of a runner. -/
inductive RunError
  | deadlineExceeded
  | failed (message : String)
  deriving DecidableEq, Repr

def RunError.text : RunError → String
  | deadlineExceeded => "context deadline exceeded"
  | failed message => message

abbrev GoWorld := World (Result × Option RunError) String

/-- `time.Second` in nanoseconds. -/
def second : ℤ := 10 ^ 9

/-- `Duration.Seconds` as an `int`. -/
def wholeSeconds (d : ℤ) : ℤ :=
  truncate (Double.ofRat
    (Double.ofRat (d.tdiv second) + Double.ofRat (Double.ofRat (d.tmod second) / second)))

namespace Executor

variable (w : GoWorld) (allowed : List String)

/-- The limit that `RunAction` sets where it is given none. -/
def limit (timeout : ℤ) : ℤ := if timeout ≤ 0 then 60 * second else timeout

def timeoutMessage (timeout : ℤ) : String :=
  "执行超时（" ++ toString (wholeSeconds timeout) ++ "s）"

/-- What `RunAction` takes from a command that has failed. -/
def failureOutput (stdout stderr : Bytes) : String :=
  let output := Worker.trimSpace (Utf8.decodeLossy stderr)
  if output = "" then Worker.trimSpace (Utf8.decodeLossy stdout) else output

/-- What `RunAction` makes of the answer of the runner. -/
def finished (timeout : ℤ) : Result × Option RunError → Bool × String
  | (_, some .deadlineExceeded) => (false, timeoutMessage timeout)
  | (_, some (.failed message)) => (false, "执行失败: " ++ message)
  | (res, none) =>
    if res.exitCode = 0 then (true, Worker.trimSpace (Utf8.decodeLossy res.stdout))
    else (false, failureOutput res.stdout res.stderr)

/-- `Executor.RunAction`, with a time limit in nanoseconds. -/
def runAction (service action : String) (timeout : ℤ) : StateM Trace (Bool × String) := do
  match Worker.validate allowed service action with
  | .error message => return (false, message)
  | .ok () =>
    let timeout := limit timeout
    return finished timeout
      (← w.spawn ⟨["systemctl", actionCommand action, service], timeout / second⟩)

/-- What `FetchLogs` makes of the answer of the runner. -/
def fetched : Result × Option RunError → Bool × String
  | (_, some err) => (false, "获取日志失败: " ++ err.text)
  | (res, none) =>
    let out := Worker.trimSpace (Utf8.decodeLossy res.stdout)
    (res.exitCode = 0, if out = "" then Worker.trimSpace (Utf8.decodeLossy res.stderr) else out)

/-- `Executor.FetchLogs`. -/
def fetchLogs (service : String) (lines : ℤ) : StateM Trace (Bool × String) := do
  match Worker.validate allowed service "STATUS" with
  | .error message => return (false, message)
  | .ok () =>
    let lines := if lines ≤ 0 then 200 else lines
    return fetched
      (← w.spawn ⟨["journalctl", "-n", toString lines, "-u", service, "--no-pager"], 30⟩)

end Executor

namespace Worker

variable (w : GoWorld) (allowed : List String)

/-- `Worker.report`. -/
def report (executionId : ℕ) (success : Bool) (output : String) :
    StateM Trace (Option String) :=
  w.call (Agent.Worker.report executionId success output)

/-- The time limit of a task in nanoseconds, a 64-bit integer. -/
def timeout (task : PendingTask) : ℤ :=
  let timeout := Int.bmod (task.timeoutSeconds * second) (2 ^ 64)
  if timeout ≤ 0 then 60 * second else timeout

/-- `Worker.executeOne`. A service that is `null` is decoded to the empty string. -/
def executeOne (task : PendingTask) : StateM Trace (Option String) := do
  let service := task.serviceName.getD ""
  if task.action = "LOGS" then
    let (success, output) ← Executor.fetchLogs w allowed service 0
    report w task.executionId success output
  else
    let (success, output) ← Executor.runAction w allowed service task.action (timeout task)
    report w task.executionId success output

/-- `Worker.PollOnce` on the tasks it has fetched. -/
def pollOnce (tasks : List PendingTask) : StateM Trace ℕ :=
  tasks.foldlM (fun processed task => do
    match ← executeOne w allowed task with
    | some _ => return processed
    | none => return processed + 1) 0

end Worker

end OpsMonitor.Agent.Polling
