import OpsMonitor.Library.Utf8
import OpsMonitor.Library.Words
import OpsMonitor.Task.Records

/-! How the two agents execute a task and what they report on it (`agent/worker.py`,
`agent/errors.py`, `agent/executor/service.py`; `internal/worker`, `internal/executor`,
`internal/syscmd`). -/

namespace OpsMonitor.Agent
open Library
open OpsMonitor.Task (TaskResultRequest)
open Base64 (Bytes)

inductive ErrorType
  | commandNotFound | permissionDenied | executionTimeout | serviceNotWhitelisted
  | taskActionInvalid | serviceUnhealthy | unknown
  deriving DecidableEq, Repr

def ErrorType.text : ErrorType → String
  | commandNotFound => "COMMAND_NOT_FOUND"
  | permissionDenied => "PERMISSION_DENIED"
  | executionTimeout => "AGENT_EXECUTION_TIMEOUT"
  | serviceNotWhitelisted => "SERVICE_NOT_WHITELISTED"
  | taskActionInvalid => "TASK_ACTION_INVALID"
  | serviceUnhealthy => "SERVICE_UNHEALTHY"
  | unknown => "UNKNOWN"

theorem ErrorType.text_inj {a b : ErrorType} : a.text = b.text ↔ a = b := by
  constructor
  · intro h
    cases a <;> cases b <;> first | rfl | exact absurd h (by decide)
  · exact congrArg _

/-- A task as the agents receive it. -/
structure PendingTask where
  executionId : ℕ
  action : String
  serviceName : Option String
  timeoutSeconds : ℕ
  deriving DecidableEq, Repr

/-- A command as the agents spawn it, with its time limit in seconds. -/
structure Command where
  argv : List String
  timeout : ℕ
  deriving DecidableEq, Repr

/-- What becomes of a spawned command. The expiry of its time limit is not among the outcomes. -/
inductive CommandOutcome
  | exited (code : ℤ) (stdout stderr : Bytes)
  | notStarted (message : String)
  deriving DecidableEq, Repr

/-- What the agent does with a task: the command it spawns, if any, and its report. -/
structure Execution where
  command : Option Command
  report : TaskResultRequest
  deriving DecidableEq, Repr

/-- The keys of both tables of commands. -/
def allowedActions : List String := ["STATUS", "START", "STOP", "RESTART"]

/-- The `systemctl` command of an action, the same in both tables. -/
def actionCommand : String → String
  | "STATUS" => "is-active"
  | "START" => "start"
  | "STOP" => "stop"
  | "RESTART" => "restart"
  | _ => ""

/-! ## The Python agent -/

namespace TaskWorker

def mentions (words : List String) (text : String) : Bool := words.any (occursIn · (lower text))

def timedOut : String → Bool := mentions ["超时", "timeout"]

def notFound : String → Bool :=
  mentions ["not found", "not-found", "no such file", "unknown service"]

def denied : String → Bool := mentions ["permission", "access denied", "authentication"]

def unhealthy : String → Bool := mentions ["failed", "inactive", "dead"]

/-- `classify_failure`. -/
def classifyFailure (output : String) : ErrorType :=
  if timedOut output then .executionTimeout
  else if notFound output then .commandNotFound
  else if denied output then .permissionDenied
  else if unhealthy output then .serviceUnhealthy
  else .unknown

/-- The words of a refusal for the whitelist. -/
def notWhitelisted (message : String) : Bool :=
  occursIn "白名单" message.toList || occursIn "whitelist" (lower message)

/-- `classify_validation_error`. -/
def classifyValidationError (message : String) : ErrorType :=
  if notWhitelisted message then .serviceNotWhitelisted else .taskActionInvalid

/-- `ServiceExecutor.validate`, with the text of the `ValueError`. -/
def validate (allowed : List String) (service : Option String) (action : String) :
    Except String String :=
  match service with
  | none => .error ("服务 " ++ "None" ++ " 不在白名单内，拒绝执行")
  | some name =>
    if name ∉ allowed then .error ("服务 " ++ name ++ " 不在白名单内，拒绝执行")
    else if action ∉ allowedActions then .error ("不允许的操作类型: " ++ action)
    else .ok name

inductive SpawnError
  | osError (message : String)
  | valueError (message : String)
  deriving DecidableEq, Repr

/-- `subprocess.run(argv, capture_output=True, text=True)`. Arguments with a NUL and output that
is not UTF-8 raise a `ValueError`. -/
def subprocessRun (argv : List String) :
    CommandOutcome → Except SpawnError (ℤ × String × String)
  | outcome =>
    if argv.any fun arg => '\x00' ∈ arg.toList then .error (.valueError "embedded null byte")
    else match outcome with
      | .notStarted message => .error (.osError message)
      | .exited code stdout stderr =>
        match Utf8.decode stdout, Utf8.decode stderr with
        | some out, some err => .ok (code, newlines out, newlines err)
        | _, _ => .error (.valueError "'utf-8' codec can't decode")

/-- `ServiceExecutor.run_action`: the command, and the answer or the text of the `ValueError`. -/
def runAction (allowed : List String) (service : Option String) (action : String) (timeout : ℕ)
    (outcome : CommandOutcome) : Option Command × Except String (Bool × String) :=
  match validate allowed service action with
  | .error message => (none, .error message)
  | .ok name =>
    let argv := ["systemctl", actionCommand action, name]
    (some ⟨argv, timeout⟩,
      match subprocessRun argv outcome with
      | .error (.valueError message) => .error message
      | .error (.osError message) => .ok (false, "执行失败: " ++ message)
      | .ok (code, stdout, stderr) =>
        if code = 0 then .ok (true, trim isStrSpace stdout)
        else .ok (false, trim isStrSpace (if stderr = "" then stdout else stderr)))

/-- `ServiceExecutor.fetch_logs`. -/
def fetchLogs (allowed : List String) (service : Option String) (outcome : CommandOutcome) :
    Option Command × Except String (Bool × String) :=
  match validate allowed service "STATUS" with
  | .error message => (none, .error message)
  | .ok name =>
    let argv := ["journalctl", "-n", "200", "-u", name, "--no-pager"]
    (some ⟨argv, 30⟩,
      match subprocessRun argv outcome with
      | .error (.valueError message) => .error message
      | .error (.osError message) => .ok (false, "获取日志失败: " ++ message)
      | .ok (code, stdout, stderr) =>
        .ok (code = 0, trim isStrSpace (if stdout = "" then stderr else stdout)))

/-- What `_execute_one` reports. -/
def report (task : PendingTask) : Except String (Bool × String) → TaskResultRequest
  | .error message =>
    ⟨task.executionId, "FAILED", none, none, some message,
      some (classifyValidationError message).text, none⟩
  | .ok (true, output) =>
    ⟨task.executionId, "SUCCESS", none, some output, none, none,
      if task.action = "LOGS" then some output else none⟩
  | .ok (false, output) =>
    ⟨task.executionId, "FAILED", none, none, some output, some (classifyFailure output).text,
      none⟩

/-- `TaskWorker._execute_one`. -/
def executeOne (allowed : List String) (task : PendingTask) (outcome : CommandOutcome) :
    Execution :=
  let (command, answer) :=
    if task.action = "LOGS" then fetchLogs allowed task.serviceName outcome
    else runAction allowed task.serviceName task.action task.timeoutSeconds outcome
  ⟨command, report task answer⟩

end TaskWorker

/-! ## The Go agent -/

namespace Worker

/-- `unicode.ToLower` as far as ASCII letters come out. -/
def toLowerChar (c : Char) : Char :=
  if 'A' ≤ c ∧ c ≤ 'Z' then Char.ofNat (c.toNat + 32)
  else if c = '\u212A' then 'k'
  else if c = '\u0130' then 'i'
  else c

/-- `strings.ToLower`. -/
def toLower (s : String) : List Char := s.toList.map toLowerChar

/-- Whether the text has one of the phrases, or one of the words in lower case. -/
def mentions (phrases words : List String) (text : String) : Bool :=
  phrases.any (occursIn · text.toList) || words.any (occursIn · (toLower text))

def timedOut : String → Bool := mentions ["超时"] ["timeout"]

def notFound : String → Bool := mentions [] ["not found", "no such file", "unknown service"]

def denied : String → Bool := mentions [] ["permission", "access denied", "authentication"]

def notWhitelisted : String → Bool := mentions ["白名单"] ["whitelist"]

def actionInvalid : String → Bool := mentions ["不允许的操作"] []

def unhealthy : String → Bool := mentions [] ["failed", "inactive", "dead"]

/-- `classifyFailure`. -/
def classifyFailure (output : String) : ErrorType :=
  if timedOut output then .executionTimeout
  else if notFound output then .commandNotFound
  else if denied output then .permissionDenied
  else if notWhitelisted output then .serviceNotWhitelisted
  else if actionInvalid output then .taskActionInvalid
  else if unhealthy output then .serviceUnhealthy
  else .unknown

/-- `Executor.Validate`, with the text of the error. -/
def validate (allowed : List String) (service action : String) : Except String Unit :=
  if service ∉ allowed then .error ("服务 " ++ service ++ " 不在白名单内，拒绝执行")
  else if action ∉ allowedActions then .error ("不允许的操作类型: " ++ action)
  else .ok ()

/-- `strings.TrimSpace`. -/
def trimSpace : String → String := trim isWhiteSpace

/-- `Executor.RunAction`. -/
def runAction (allowed : List String) (service action : String) (timeout : ℕ)
    (outcome : CommandOutcome) : Option Command × Bool × String :=
  match validate allowed service action with
  | .error message => (none, false, message)
  | .ok () =>
    (some ⟨["systemctl", actionCommand action, service], timeout⟩,
      match outcome with
      | .notStarted message => (false, "执行失败: " ++ message)
      | .exited code stdout stderr =>
        if code = 0 then (true, trimSpace (Utf8.decodeLossy stdout))
        else
          let output := trimSpace (Utf8.decodeLossy stderr)
          (false, if output = "" then trimSpace (Utf8.decodeLossy stdout) else output))

/-- `Executor.FetchLogs` with the default number of lines. -/
def fetchLogs (allowed : List String) (service : String) (outcome : CommandOutcome) :
    Option Command × Bool × String :=
  match validate allowed service "STATUS" with
  | .error message => (none, false, message)
  | .ok () =>
    (some ⟨["journalctl", "-n", "200", "-u", service, "--no-pager"], 30⟩,
      match outcome with
      | .notStarted message => (false, "获取日志失败: " ++ message)
      | .exited code stdout stderr =>
        let output := trimSpace (Utf8.decodeLossy stdout)
        (code = 0, if output = "" then trimSpace (Utf8.decodeLossy stderr) else output))

/-- `Worker.report`. -/
def report (executionId : ℕ) (success : Bool) (output : String) : TaskResultRequest :=
  if success then ⟨executionId, "SUCCESS", some 0, some output, none, none, some output⟩
  else
    ⟨executionId, "FAILED", none, none, some output, some (classifyFailure output).text, none⟩

/-- `Worker.executeOne`. A service that is `null` is decoded to the empty string. -/
def executeOne (allowed : List String) (task : PendingTask) (outcome : CommandOutcome) :
    Execution :=
  let timeout := if task.timeoutSeconds = 0 then 60 else task.timeoutSeconds
  let service := task.serviceName.getD ""
  let (command, success, output) :=
    if task.action = "LOGS" then fetchLogs allowed service outcome
    else runAction allowed service task.action timeout outcome
  ⟨command, report task.executionId success output⟩

end Worker

/-! ## The words that decide

The texts of the two agents differ in what they trim and in their line ends. Neither matters for
the words they look for. -/

/-- The words of the refusal texts apart, what both agents look for. -/
def failureWords : List String :=
  ["超时", "timeout", "not found", "not-found", "no such file", "unknown service", "permission",
    "access denied", "authentication", "failed", "inactive", "dead", "whitelist"]

/-- What one of the agents looks for. -/
def vocabulary : List String := failureWords ++ ["白名单", "不允许的操作"]

/-- A phrase to look for: its ends are no spaces, and it stays in one line. -/
def Phrase (w : String) : Prop :=
  EndsOutside isStrSpace w ∧ w.toList.all fun c => !isNewline c

instance {w : String} : Decidable (Phrase w) := inferInstanceAs (Decidable (_ ∧ _))

theorem phrase_of_mem {w : String} (hw : w ∈ vocabulary) : Phrase w := by
  have hall : ∀ w ∈ vocabulary, Phrase w := by decide +kernel
  exact hall w hw

theorem lowerChar_of_isStrSpace {c : Char} (h : isStrSpace c = true) : lowerChar c = [c] := by
  unfold lowerChar
  rw [if_neg, if_neg, if_neg]
  · rintro rfl
    exact absurd h (by decide)
  · rintro rfl
    exact absurd h (by decide)
  · rintro ⟨hlow, hhigh⟩
    have hl : 65 ≤ c.toNat := UInt32.le_iff_toNat_le.mp hlow
    have hh : c.toNat ≤ 90 := UInt32.le_iff_toNat_le.mp hhigh
    simp [isStrSpace, isWhiteSpace] at h
    omega

theorem toLowerChar_of_isStrSpace {c : Char} (h : isStrSpace c = true) :
    Worker.toLowerChar c = c := by
  have hlower := lowerChar_of_isStrSpace h
  unfold lowerChar at hlower
  unfold Worker.toLowerChar
  split_ifs at hlower ⊢ <;> simp_all

theorem isStrSpace_of_isNewline {c : Char} (h : isNewline c = true) : isStrSpace c = true := by
  have hnat : c.toNat = 10 ∨ c.toNat = 13 := by simpa [isNewline] using h
  simp [isStrSpace, isWhiteSpace]
  omega

theorem isStrSpace_of_isWhiteSpace {c : Char} (h : isWhiteSpace c = true) :
    isStrSpace c = true := by
  rw [isStrSpace, h, Bool.true_or]

/-- None of the words starts in the text before or ends in the text after. -/
def Outside (words : List String) (a b : List Char) : Prop :=
  ∀ w ∈ words, w ≠ "" ∧ (a.all fun c => w.toList.head? ≠ some c) ∧
    b.all fun c => w.toList.getLast? ≠ some c

instance {words : List String} {a b : List Char} : Decidable (Outside words a b) :=
  inferInstanceAs (Decidable (∀ w ∈ words, _))

theorem Outside.occursIn_eq {words : List String} {a b : List Char} (h : Outside words a b)
    {w : String} (hw : w ∈ words) (t : List Char) : occursIn w (a ++ (t ++ b)) = occursIn w t := by
  obtain ⟨hne, hhead, hlast⟩ := h w hw
  rw [occursIn_append_left hne fun c hc => by simpa using List.all_eq_true.mp hhead c hc,
    occursIn_append_right hne fun c hc => by simpa using List.all_eq_true.mp hlast c hc]

namespace TaskWorker

theorem mentions_congr {words vocab : List String} {s t : String}
    (h : ∀ w ∈ vocab, occursIn w (lower s) = occursIn w (lower t)) (hwords : words ⊆ vocab) :
    mentions words s = mentions words t :=
  any_congr_of_mem fun w hw => h w (hwords hw)

theorem classifyFailure_congr {s t : String}
    (h : ∀ w ∈ failureWords, occursIn w (lower s) = occursIn w (lower t)) :
    classifyFailure s = classifyFailure t := by
  have htimedOut : timedOut s = timedOut t := mentions_congr h (by simp [failureWords])
  have hnotFound : notFound s = notFound t := mentions_congr h (by simp [failureWords])
  have hdenied : denied s = denied t := mentions_congr h (by simp [failureWords])
  have hunhealthy : unhealthy s = unhealthy t := mentions_congr h (by simp [failureWords])
  simp only [classifyFailure, htimedOut, hnotFound, hdenied, hunhealthy]

theorem classifyFailure_trimmed (s : String) :
    classifyFailure (trim isStrSpace (newlines s)) = classifyFailure s := by
  refine classifyFailure_congr fun w hw => ?_
  obtain ⟨hends, hline⟩ := phrase_of_mem (List.mem_append_left _ hw)
  have hfixed : ∀ c, isStrSpace c = true → lowerChar c = [c] := fun c => lowerChar_of_isStrSpace
  unfold lower
  rw [occursIn_trim hfixed hends,
    occursIn_newlines (fun c hc => hfixed c (isStrSpace_of_isNewline hc)) hends.1 fun c hc => by
      simpa using List.all_eq_true.mp hline c hc]

theorem classifyFailure_after {a : String} (ha : Outside failureWords (lower a) [])
    (s : String) : classifyFailure (a ++ s) = classifyFailure s := by
  refine classifyFailure_congr fun w hw => ?_
  have hlower : lower (a ++ s) = lower a ++ (lower s ++ []) := by simp [lower]
  rw [hlower, ha.occursIn_eq hw]

end TaskWorker

namespace Worker

/-- Both ways of looking for a word give the same answer in the two texts. -/
def SameFor (vocab : List String) (s t : String) : Prop :=
  ∀ w ∈ vocab, occursIn w s.toList = occursIn w t.toList ∧
    occursIn w (toLower s) = occursIn w (toLower t)

theorem SameFor.mentions_eq {vocab phrases words : List String} {s t : String}
    (h : SameFor vocab s t) (hphrases : phrases ⊆ vocab) (hwords : words ⊆ vocab) :
    mentions phrases words s = mentions phrases words t := by
  unfold mentions
  rw [any_congr_of_mem fun w hw => (h w (hphrases hw)).1,
    any_congr_of_mem fun w hw => (h w (hwords hw)).2]

theorem SameFor.classifyFailure_eq {s t : String} (h : SameFor vocabulary s t) :
    classifyFailure s = classifyFailure t := by
  have htimedOut : timedOut s = timedOut t :=
    h.mentions_eq (by simp [vocabulary, failureWords]) (by simp [vocabulary, failureWords])
  have hnotFound : notFound s = notFound t :=
    h.mentions_eq (by simp [vocabulary, failureWords]) (by simp [vocabulary, failureWords])
  have hdenied : denied s = denied t :=
    h.mentions_eq (by simp [vocabulary, failureWords]) (by simp [vocabulary, failureWords])
  have hnotWhitelisted : notWhitelisted s = notWhitelisted t :=
    h.mentions_eq (by simp [vocabulary, failureWords]) (by simp [vocabulary, failureWords])
  have hactionInvalid : actionInvalid s = actionInvalid t :=
    h.mentions_eq (by simp [vocabulary, failureWords]) (by simp [vocabulary, failureWords])
  have hunhealthy : unhealthy s = unhealthy t :=
    h.mentions_eq (by simp [vocabulary, failureWords]) (by simp [vocabulary, failureWords])
  simp only [classifyFailure, htimedOut, hnotFound, hdenied, hnotWhitelisted, hactionInvalid,
    hunhealthy]

theorem sameFor_trimSpace (s : String) : SameFor vocabulary (trimSpace s) s := by
  intro w hw
  obtain ⟨hne, hhead, hlast⟩ := (phrase_of_mem hw).1
  have hends : EndsOutside isWhiteSpace w := by
    have hweaker : ∀ c, (!isStrSpace c) = true → (!isWhiteSpace c) = true := by
      intro c hc
      by_contra hspace
      simp [isStrSpace_of_isWhiteSpace (by simpa using hspace)] at hc
    refine ⟨hne, ?_, ?_⟩
    · rw [Option.all_eq_true] at hhead ⊢
      exact fun c hc => hweaker c (hhead c hc)
    · rw [Option.all_eq_true] at hlast ⊢
      exact fun c hc => hweaker c (hlast c hc)
  constructor
  · simpa [trimSpace] using occursIn_trim (f := fun c => [c]) (fun c _ => rfl) hends s
  · have hfixed : ∀ c, isWhiteSpace c = true → [toLowerChar c] = [c] := by
      intro c hc
      rw [toLowerChar_of_isStrSpace (isStrSpace_of_isWhiteSpace hc)]
    simpa only [toLower, trimSpace, List.map_eq_flatMap] using occursIn_trim hfixed hends s

theorem classifyFailure_trimSpace (s : String) : classifyFailure (trimSpace s) = classifyFailure s :=
  (sameFor_trimSpace s).classifyFailure_eq

theorem sameFor_between {vocab : List String} {a b : String} (h : Outside vocab a.toList b.toList)
    (hlower : Outside vocab (toLower a) (toLower b)) (s : String) :
    SameFor vocab (a ++ s ++ b) s := by
  intro w hw
  have htext : (a ++ s ++ b).toList = a.toList ++ (s.toList ++ b.toList) := by simp
  have htextLower : toLower (a ++ s ++ b) = toLower a ++ (toLower s ++ toLower b) := by
    simp [toLower]
  rw [htext, htextLower]
  exact ⟨h.occursIn_eq hw _, hlower.occursIn_eq hw _⟩

end Worker

end OpsMonitor.Agent
