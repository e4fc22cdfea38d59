import OpsMonitor.Agent.Executor

/-! What a polling round leaves behind, however its commands and its report calls end. -/

namespace OpsMonitor.Agent.Polling
open Library Library.Action
open OpsMonitor.Task (TaskResultRequest)

variable {allowed : List String} {task : PendingTask} {t t' t'' : Trace}

/-- What was done between the two traces: the lines of the commands that were run and the
executions that report calls were made for. -/
def Adds (t t' : Trace) (lines : List (List String)) (executions : List ℕ) : Prop :=
  ∃ commands reports, t' = ⟨t.commands ++ commands, t.reports ++ reports⟩ ∧
    commands.map Invocation.argv = lines ∧
    reports.map TaskResultRequest.executionId = executions

theorem Adds.refl (t : Trace) : Adds t t [] [] := ⟨[], [], by simp, rfl, rfl⟩

theorem Adds.trans {lines lines' : List (List String)} {executions executions' : List ℕ}
    (h : Adds t t' lines executions) (h' : Adds t' t'' lines' executions') :
    Adds t t'' (lines ++ lines') (executions ++ executions') := by
  obtain ⟨commands, reports, rfl, rfl, rfl⟩ := h
  obtain ⟨commands', reports', rfl, rfl, rfl⟩ := h'
  exact ⟨commands ++ commands', reports ++ reports', by simp, by simp, by simp⟩

theorem Adds.report {lines : List (List String)} {executions : List ℕ}
    (h : Adds t t' lines []) (h' : Adds t' t'' [] executions) : Adds t t'' lines executions := by
  simpa using h.trans h'

theorem Adds.ran (t : Trace) (c : Invocation) : Adds t (t.ran c) [c.argv] [] :=
  ⟨[c], [], by simp [Trace.ran], rfl, rfl⟩

theorem Adds.reported (t : Trace) (r : TaskResultRequest) :
    Adds t (t.reported r) [] [r.executionId] :=
  ⟨[], [r], by simp [Trace.reported], rfl, rfl⟩

/-- A round over tasks, each of which adds its own part. -/
theorem foldlM_adds {step : ℕ → PendingTask → StateM Trace ℕ}
    {lines : PendingTask → List (List String)}
    (hstep : ∀ processed task t,
      Adds t ((step processed task).run t).2 (lines task) [task.executionId])
    (tasks : List PendingTask) (processed : ℕ) (t : Trace) :
    Adds t ((tasks.foldlM step processed).run t).2 (tasks.flatMap lines)
      (tasks.map PendingTask.executionId) := by
  induction tasks generalizing processed t with
  | nil => exact .refl t
  | cons task tasks ih => exact (hstep processed task t).trans (ih _ _)

/-- The command line for an action on a service, if the service is allowed and there is one. -/
def commandLine (allowed : List String) (service : Option String) (action : String) :
    Option (List String) :=
  match service with
  | none => none
  | some name =>
    if name ∉ allowed then none
    else if action = "LOGS" then some ["journalctl", "-n", "200", "-u", name, "--no-pager"]
    else if action ∈ allowedActions then some ["systemctl", actionCommand action, name]
    else none

/-- One of the commands that the agents may run, each argument for itself. -/
def SafeCommand (allowed : List String) (argv : List String) : Prop :=
  (∃ verb ∈ ["is-active", "start", "stop", "restart"], ∃ service ∈ allowed,
    argv = ["systemctl", verb, service]) ∨
  ∃ lines : ℤ, ∃ service ∈ allowed,
    argv = ["journalctl", "-n", toString lines, "-u", service, "--no-pager"]

theorem actionCommand_mem {action : String} (h : action ∈ allowedActions) :
    actionCommand action ∈ ["is-active", "start", "stop", "restart"] := by
  have hall : ∀ action ∈ allowedActions,
      actionCommand action ∈ ["is-active", "start", "stop", "restart"] := by decide
  exact hall action h

theorem safe_commandLine {service : Option String} {action : String} {argv : List String}
    (h : commandLine allowed service action = some argv) : SafeCommand allowed argv := by
  unfold commandLine at h
  cases service with
  | none => cases h
  | some name =>
    dsimp only at h
    split_ifs at h with hname hlogs haction
    · cases h
      exact .inr ⟨200, name, hname, rfl⟩
    · cases h
      exact .inl ⟨_, actionCommand_mem haction, name, hname, rfl⟩

/-! ## The Python agent -/

@[simp] theorem exec_subprocessRun (w : PyWorld) (c : Invocation) (t : Trace) :
    exec (subprocessRun w c) t = (w.run t c, t.ran c) := rfl

theorem exec_reportTaskResult (w : PyWorld) (r : TaskResultRequest) (t : Trace) :
    exec (reportTaskResult w r) t = ((w.fail t r).elim (.ok ()) .error, t.reported r) := by
  unfold reportTaskResult World.call
  rw [exec_bind, exec_lift]
  cases w.fail t r <;> rfl

namespace ServiceExecutor

variable {w : PyWorld}

theorem exec_validate (service : Option String) (action : String) (t : Trace) :
    exec (validate allowed service action) t =
      ((TaskWorker.validate allowed service action).mapError .valueError, t) := by
  unfold validate
  cases TaskWorker.validate allowed service action <;> rfl

/-- A handler that does nothing leaves the command alone in the trace. -/
theorem exec_handled {β : Type} {f : CompletedProcess → β} {handle : PyException → PyAction β}
    (hhandle : ∀ e t, (exec (handle e) t).2 = t) (c : Invocation) (t : Trace) :
    (exec (tryCatch (f <$> subprocessRun w c) handle) t).2 = t.ran c := by
  rw [exec_tryCatch, exec_map, exec_subprocessRun]
  cases w.run t c with
  | error e => exact hhandle e _
  | ok result => rfl

theorem runAction_adds (service : Option String) {action : String} (hlogs : action ≠ "LOGS")
    (timeout : ℚ) (t : Trace) :
    Adds t (exec (runAction w allowed service action timeout) t).2
      (commandLine allowed service action).toList [] := by
  unfold runAction
  rw [exec_bind, exec_validate]
  unfold TaskWorker.validate commandLine
  cases service with
  | none => exact .refl t
  | some name =>
    dsimp only
    rw [if_neg hlogs]
    split_ifs with hname haction
    · dsimp only [Except.mapError]
      rw [exec_handled fun e t => by cases e <;> rfl]
      exact .ran t _
    · exact .refl t
    · exact .refl t

theorem fetchLogs_adds (service : Option String) (t : Trace) :
    Adds t (exec (fetchLogs w allowed service 200) t).2
      (commandLine allowed service "LOGS").toList [] := by
  unfold fetchLogs
  rw [exec_bind, exec_validate]
  unfold TaskWorker.validate commandLine
  cases service with
  | none => exact .refl t
  | some name =>
    dsimp only
    by_cases hname : name ∈ allowed
    · rw [if_neg (not_not.mpr hname), if_neg (not_not.mpr hname), if_pos rfl, if_neg (by decide)]
      dsimp only [Except.mapError]
      rw [exec_handled fun e t => by cases e <;> rfl]
      exact .ran t _
    · rw [if_pos hname, if_pos hname]
      exact .refl t

end ServiceExecutor

namespace TaskWorker

variable {w : PyWorld}

theorem execute_adds (task : PendingTask) (t : Trace) :
    Adds t (exec (execute w allowed task) t).2
      (commandLine allowed task.serviceName task.action).toList [] := by
  unfold execute
  by_cases hlogs : task.action = "LOGS"
  · rw [if_pos hlogs, hlogs]
    exact ServiceExecutor.fetchLogs_adds _ t
  · rw [if_neg hlogs]
    exact ServiceExecutor.runAction_adds _ hlogs _ t

/-- What is reported on an answer of the executor, or on the exception that it raises. -/
def reportOf (task : PendingTask) : Except PyException (Bool × String) → TaskResultRequest
  | .error (.valueError message) =>
    ⟨task.executionId, "FAILED", none, none, some message,
      some (TaskWorker.classifyValidationError message).text, none⟩
  | .error e =>
    ⟨task.executionId, "FAILED", none, none, some e.text, some ErrorType.unknown.text, none⟩
  | .ok (true, output) =>
    ⟨task.executionId, "SUCCESS", none, some output, none, none,
      if task.action = "LOGS" then some output else none⟩
  | .ok (false, output) =>
    ⟨task.executionId, "FAILED", none, none, some output,
      some (TaskWorker.classifyFailure output).text, none⟩

theorem reportOf_executionId (task : PendingTask) (answer : Except PyException (Bool × String)) :
    (reportOf task answer).executionId = task.executionId := by
  rcases answer with e | ⟨success, output⟩
  · cases e <;> rfl
  · cases success <;> rfl

/-- A handler makes one report call and leaves nothing more to report. -/
theorem exec_handle (task : PendingTask) (e : PyException) (t : Trace) :
    exec (handle w task e) t =
      ((w.fail t (reportOf task (.error e))).elim (.ok none) .error,
        t.reported (reportOf task (.error e))) := by
  have hthen : ∀ r : TaskResultRequest,
      exec (do reportTaskResult w r; return (none : Option (Bool × String))) t =
        ((w.fail t r).elim (.ok none) .error, t.reported r) := by
    intro r
    rw [exec_bind, exec_reportTaskResult]
    cases w.fail t r <;> rfl
  cases e <;> exact hthen _

/-- Each path through `_execute_one` makes one report call, also where the call fails. -/
theorem exec_executeOne (task : PendingTask) (t : Trace) :
    (exec (executeOne w allowed task) t).2 =
      (exec (execute w allowed task) t).2.reported
        (reportOf task (exec (execute w allowed task) t).1) := by
  unfold executeOne
  rw [exec_bind, exec_tryCatch, exec_map]
  rcases exec (execute w allowed task) t with ⟨e | ⟨success, output⟩, t'⟩
  · dsimp only [Except.map]
    rw [exec_handle]
    cases w.fail t' (reportOf task (.error e)) <;> rfl
  · cases success <;> exact congrArg Prod.snd (exec_reportTaskResult w _ t')

theorem executeOne_adds (task : PendingTask) (t : Trace) :
    Adds t (exec (executeOne w allowed task) t).2
      (commandLine allowed task.serviceName task.action).toList [task.executionId] := by
  rw [exec_executeOne, ← reportOf_executionId task (exec (execute w allowed task) t).1]
  exact (execute_adds task t).report (.reported _ _)

theorem pollOnce_adds (pending : List PendingTask) (t : Trace) :
    Adds t ((pollOnce w allowed pending).run t).2
      (pending.flatMap fun task => (commandLine allowed task.serviceName task.action).toList)
      (pending.map PendingTask.executionId) := by
  refine foldlM_adds (fun processed task t => ?_) pending 0 t
  have hone : Adds t (exec (executeOne w allowed task) t).2
      (commandLine allowed task.serviceName task.action).toList [task.executionId] :=
    executeOne_adds task t
  unfold exec at hone
  rw [StateT.run_bind]
  revert hone
  rcases StateT.run (executeOne w allowed task).run t with ⟨e | u, t'⟩ <;> exact id

end TaskWorker

/-! ## The Go agent -/

namespace Executor

variable {w : GoWorld}

theorem runAction_adds (service : String) {action : String} (hlogs : action ≠ "LOGS")
    (timeout : ℤ) (t : Trace) :
    Adds t ((runAction w allowed service action timeout).run t).2
      (commandLine allowed (some service) action).toList [] := by
  unfold runAction Agent.Worker.validate commandLine
  dsimp only
  rw [if_neg hlogs]
  split_ifs with hname haction
  · exact .ran t _
  · exact .refl t
  · exact .refl t

theorem fetchLogs_adds (service : String) (t : Trace) :
    Adds t ((fetchLogs w allowed service 0).run t).2
      (commandLine allowed (some service) "LOGS").toList [] := by
  unfold fetchLogs Agent.Worker.validate commandLine
  dsimp only
  by_cases hname : service ∈ allowed
  · rw [if_neg (not_not.mpr hname), if_neg (not_not.mpr hname), if_pos rfl, if_neg (by decide)]
    exact .ran t _
  · rw [if_pos hname, if_pos hname]
    exact .refl t

end Executor

namespace Worker

variable {w : GoWorld}

/-- A service that is `null` is decoded to the empty string. -/
def decodedService (task : PendingTask) : Option String := some (task.serviceName.getD "")

/-- The call of the executor in `executeOne`. -/
def execute (w : GoWorld) (allowed : List String) (task : PendingTask) :
    StateM Trace (Bool × String) :=
  if task.action = "LOGS" then Executor.fetchLogs w allowed (task.serviceName.getD "") 0
  else Executor.runAction w allowed (task.serviceName.getD "") task.action (timeout task)

theorem execute_adds (task : PendingTask) (t : Trace) :
    Adds t ((execute w allowed task).run t).2
      (commandLine allowed (decodedService task) task.action).toList [] := by
  unfold execute
  by_cases hlogs : task.action = "LOGS"
  · rw [if_pos hlogs, hlogs]
    exact Executor.fetchLogs_adds _ t
  · rw [if_neg hlogs]
    exact Executor.runAction_adds _ hlogs _ t

theorem run_executeOne (task : PendingTask) (t : Trace) :
    ((executeOne w allowed task).run t).2 =
      ((execute w allowed task).run t).2.reported
        (Agent.Worker.report task.executionId ((execute w allowed task).run t).1.1
          ((execute w allowed task).run t).1.2) := by
  unfold executeOne execute
  dsimp only
  split_ifs <;> rfl

theorem executeOne_adds (task : PendingTask) (t : Trace) :
    Adds t ((executeOne w allowed task).run t).2
      (commandLine allowed (decodedService task) task.action).toList [task.executionId] := by
  have hreport : ∀ success output,
      (Agent.Worker.report task.executionId success output).executionId = task.executionId := by
    intro success output
    cases success <;> rfl
  have hreported := Adds.reported ((execute w allowed task).run t).2
    (Agent.Worker.report task.executionId ((execute w allowed task).run t).1.1
      ((execute w allowed task).run t).1.2)
  rw [hreport] at hreported
  rw [run_executeOne]
  exact (execute_adds task t).report hreported

theorem pollOnce_adds (tasks : List PendingTask) (t : Trace) :
    Adds t ((pollOnce w allowed tasks).run t).2
      (tasks.flatMap fun task => (commandLine allowed (decodedService task) task.action).toList)
      (tasks.map PendingTask.executionId) := by
  refine foldlM_adds (fun processed task t => ?_) tasks 0 t
  have hone : Adds t ((executeOne w allowed task).run t).2
      (commandLine allowed (decodedService task) task.action).toList [task.executionId] :=
    executeOne_adds task t
  rw [StateT.run_bind]
  revert hone
  rcases StateT.run (executeOne w allowed task) t with ⟨_ | failure, t'⟩ <;> exact id

end Worker

/-! ## A round -/

/-- What a round over the tasks has done: one report call for each task, in their order, and the
commands of those tasks that have one, in their order too; each is one that may be run. -/
structure Isolated (allowed : List String) (service : PendingTask → Option String)
    (tasks : List PendingTask) (t : Trace) : Prop where
  reports : t.reports.map TaskResultRequest.executionId = tasks.map PendingTask.executionId
  commands : t.commands.map Invocation.argv =
    tasks.filterMap fun task => commandLine allowed (service task) task.action
  safe : ∀ c ∈ t.commands, SafeCommand allowed c.argv

theorem Adds.isolated {service : PendingTask → Option String} {tasks : List PendingTask}
    (h : Adds .empty t
      (tasks.flatMap fun task => (commandLine allowed (service task) task.action).toList)
      (tasks.map PendingTask.executionId)) :
    Isolated allowed service tasks t := by
  obtain ⟨commands, reports, rfl, hcommands, hreports⟩ := h
  have hlines : commands.map Invocation.argv =
      tasks.filterMap fun task => commandLine allowed (service task) task.action := by
    rw [hcommands, List.filterMap_eq_flatMap_toList]
  refine ⟨by simpa [Trace.empty] using hreports, by simpa [Trace.empty] using hlines, ?_⟩
  intro c hc
  have hmem : c.argv ∈ tasks.filterMap fun task =>
      commandLine allowed (service task) task.action := by
    rw [← hlines]
    exact List.mem_map_of_mem (by simpa [Trace.empty] using hc)
  obtain ⟨task, _, htask⟩ := List.mem_filterMap.mp hmem
  exact safe_commandLine htask

/-- A round of either worker, however its commands and its report calls end. -/
theorem round_isolated (allowed : List String) (tasks : List PendingTask) (py : PyWorld)
    (go : GoWorld) :
    Isolated allowed PendingTask.serviceName tasks
        ((TaskWorker.pollOnce py allowed tasks).run .empty).2 ∧
      Isolated allowed Worker.decodedService tasks
        ((Worker.pollOnce go allowed tasks).run .empty).2 :=
  ⟨(TaskWorker.pollOnce_adds tasks .empty).isolated, (Worker.pollOnce_adds tasks .empty).isolated⟩

end OpsMonitor.Agent.Polling
