import OpsMonitor.Agent.Worker

/-! When the two agents do the same with a task and report the same on it. -/

namespace OpsMonitor.Agent
open Library
open Base64 (Bytes)

variable {allowed : List String} {task : PendingTask} {outcome : CommandOutcome}

/-- The two agents run the same command line or both refuse, and report the same status and the
same type of error. -/
structure ReportAlike (allowed : List String) (task : PendingTask) (outcome : CommandOutcome) :
    Prop where
  command : (TaskWorker.executeOne allowed task outcome).command.map Command.argv =
    (Worker.executeOne allowed task outcome).command.map Command.argv
  status : (TaskWorker.executeOne allowed task outcome).report.status =
    (Worker.executeOne allowed task outcome).report.status
  errorType : (TaskWorker.executeOne allowed task outcome).report.errorType =
    (Worker.executeOne allowed task outcome).report.errorType

/-! ## Verdicts on a text -/

/-- The text has one of the words that the Go agent looks for before the words of a refusal. -/
def Overtaken (text : String) : Prop :=
  Worker.timedOut text ∨ Worker.notFound text ∨ Worker.denied text

/-- The Go agent takes the text for the refusal of an action. -/
def ActionRefused (text : String) : Prop :=
  ¬ Overtaken text ∧ ¬ Worker.notWhitelisted text ∧ Worker.actionInvalid text

/-- The text has no word that the Go agent looks for. -/
def Silent (text : String) : Prop :=
  ¬ Overtaken text ∧ ¬ Worker.notWhitelisted text ∧ ¬ Worker.actionInvalid text ∧
    ¬ Worker.unhealthy text

/-- The first kind of words that the text has is the same for both agents, and where it decides
on the last kind, the text has none of the words of a refusal either. -/
def SameVerdict (text : String) : Prop :=
  TaskWorker.timedOut text ∧ Worker.timedOut text ∨
  ¬ TaskWorker.timedOut text ∧ ¬ Worker.timedOut text ∧
    (TaskWorker.notFound text ∧ Worker.notFound text ∨
    ¬ TaskWorker.notFound text ∧ ¬ Worker.notFound text ∧
      (TaskWorker.denied text ∧ Worker.denied text ∨
      ¬ TaskWorker.denied text ∧ ¬ Worker.denied text ∧
        ¬ Worker.notWhitelisted text ∧ ¬ Worker.actionInvalid text ∧
        (TaskWorker.unhealthy text ↔ Worker.unhealthy text)))

theorem sameVerdict_iff (text : String) :
    TaskWorker.classifyFailure text = Worker.classifyFailure text ↔ SameVerdict text := by
  unfold TaskWorker.classifyFailure Worker.classifyFailure SameVerdict
  split_ifs <;> simp_all

theorem actionRefused_iff (text : String) :
    Worker.classifyFailure text = .taskActionInvalid ↔ ActionRefused text := by
  unfold Worker.classifyFailure ActionRefused Overtaken
  split_ifs <;> simp_all

theorem silent_iff (text : String) : Worker.classifyFailure text = .unknown ↔ Silent text := by
  unfold Worker.classifyFailure Silent Overtaken
  split_ifs <;> simp_all

theorem serviceRefused_iff (text : String) :
    Worker.classifyFailure text = .serviceNotWhitelisted ↔
      ¬ Overtaken text ∧ Worker.notWhitelisted text := by
  unfold Worker.classifyFailure Overtaken
  split_ifs <;> simp_all

/-! ## Fixed texts -/

/-- The words that overtake those of a refusal. -/
def overtakingWords : List String :=
  ["超时", "timeout", "not found", "no such file", "unknown service", "permission",
    "access denied", "authentication"]

/-- None of the words starts in the text before a quotation or ends in the one after it, whichever
way the agents read them. -/
def Around (words : List String) (a b : String) : Prop :=
  Outside words a.toList b.toList ∧ Outside words (Worker.toLower a) (Worker.toLower b) ∧
    Outside words (lower a) (lower b)

instance {words : List String} {a b : String} : Decidable (Around words a b) :=
  inferInstanceAs (Decidable (_ ∧ _))

theorem around_failed (logs : Bool) :
    Around vocabulary (bif logs then "获取日志失败: " else "执行失败: ") "" := by
  cases logs <;> decide +kernel

theorem around_refusal :
    Around ("白名单" :: "whitelist" :: overtakingWords) "不允许的操作类型: " "" ∧
      Around overtakingWords "服务 " " 不在白名单内，拒绝执行" := by decide +kernel

theorem fixed_verdicts :
    TaskWorker.classifyFailure "" = .unknown ∧ ¬ Overtaken "" ∧
      TaskWorker.classifyValidationError "embedded null byte" = .taskActionInvalid ∧
      TaskWorker.classifyValidationError "'utf-8' codec can't decode" = .taskActionInvalid := by
  unfold Overtaken
  decide +kernel

/-! ## Refusals -/

theorem occursIn_refusedService (name : String) :
    occursIn "白名单" ("服务 " ++ name ++ " 不在白名单内，拒绝执行").toList = true := by
  refine occursIn_iff.mpr
    ⟨"服务 ".toList ++ name.toList ++ " 不在".toList, "内，拒绝执行".toList, ?_⟩
  simp

theorem TaskWorker.classify_refusedService (name : String) :
    classifyValidationError ("服务 " ++ name ++ " 不在白名单内，拒绝执行") =
      .serviceNotWhitelisted := by
  unfold classifyValidationError notWhitelisted
  rw [occursIn_refusedService, Bool.true_or, if_pos rfl]

theorem TaskWorker.classify_refusedAction (action : String) :
    classifyValidationError ("不允许的操作类型: " ++ action) =
      if notWhitelisted action then .serviceNotWhitelisted else .taskActionInvalid := by
  obtain ⟨hplain, -, hlowered⟩ := around_refusal.1
  have hlower : lower ("不允许的操作类型: " ++ action) =
      lower "不允许的操作类型: " ++ (lower action ++ lower "") := by simp [lower]
  have htext : ("不允许的操作类型: " ++ action).toList =
      "不允许的操作类型: ".toList ++ (action.toList ++ "".toList) := by simp
  unfold classifyValidationError notWhitelisted
  rw [hlower, htext, hplain.occursIn_eq (by simp), hlowered.occursIn_eq (by simp)]

theorem overtaken_congr {s t : String} (h : Worker.SameFor overtakingWords s t) :
    Overtaken s ↔ Overtaken t := by
  have htimedOut : Worker.timedOut s = Worker.timedOut t :=
    h.mentions_eq (by simp [overtakingWords]) (by simp [overtakingWords])
  have hnotFound : Worker.notFound s = Worker.notFound t :=
    h.mentions_eq (by simp [overtakingWords]) (by simp [overtakingWords])
  have hdenied : Worker.denied s = Worker.denied t :=
    h.mentions_eq (by simp [overtakingWords]) (by simp [overtakingWords])
  rw [Overtaken, Overtaken, htimedOut, hnotFound, hdenied]

theorem Worker.classify_refusedService (name : String) :
    classifyFailure ("服务 " ++ name ++ " 不在白名单内，拒绝执行") = .serviceNotWhitelisted ↔
      ¬ Overtaken name := by
  have hword : notWhitelisted ("服务 " ++ name ++ " 不在白名单内，拒绝执行") = true := by
    simp only [notWhitelisted, mentions, List.any_cons, occursIn_refusedService, Bool.true_or]
  have hsame : SameFor overtakingWords ("服务 " ++ name ++ " 不在白名单内，拒绝执行") name :=
    sameFor_between around_refusal.2.1 around_refusal.2.2.1 name
  rw [serviceRefused_iff, overtaken_congr hsame, and_iff_left hword]

/-- What the words of the action make of the refusal of it. -/
theorem Worker.refusedAction (action : String) :
    (Overtaken ("不允许的操作类型: " ++ action) ↔ Overtaken action) ∧
      notWhitelisted ("不允许的操作类型: " ++ action) = notWhitelisted action ∧
      actionInvalid ("不允许的操作类型: " ++ action) = true := by
  have hsame : SameFor ("白名单" :: "whitelist" :: overtakingWords)
      ("不允许的操作类型: " ++ action) action := by
    simpa using sameFor_between around_refusal.1.1 around_refusal.1.2.1 action
  refine ⟨overtaken_congr fun w hw => hsame w (by simp [hw]),
    hsame.mentions_eq (by simp) (by simp), ?_⟩
  have hphrase : occursIn "不允许的操作" ("不允许的操作类型: " ++ action).toList = true := by
    refine occursIn_iff.mpr ⟨[], "类型: ".toList ++ action.toList, ?_⟩
    simp
  simp only [actionInvalid, mentions, List.any_cons, hphrase, Bool.true_or]

/-! ## Outcomes -/

/-- The Go agent takes the text for blank. -/
def Blank (text : String) : Prop := ∀ c ∈ text.toList, isWhiteSpace c = true

/-- The verdicts on a failure agree, where `text` stands in the stream that both agents prefer and
`other` in the second one: a text of spaces is a text for the Python agent only. -/
def TextAlike (text other : String) : Prop :=
  text = "" ∧ SameVerdict other ∨ text ≠ "" ∧ Blank text ∧ Silent other ∨
    ¬ Blank text ∧ SameVerdict text

/-- What the Go agent reads of the two streams. -/
def Reads (text other : String) (P : String → Prop) : Prop :=
  Blank text ∧ P other ∨ ¬ Blank text ∧ P text

/-- The stream that a failed command is judged by. -/
def judged {α : Type} (logs : Bool) (stdout stderr : α) : α := bif logs then stdout else stderr

/-- The stream that is read in its place. -/
def spare {α : Type} (logs : Bool) (stdout stderr : α) : α := bif logs then stderr else stdout

theorem judged_map {α β : Type} (f : α → β) (logs : Bool) (stdout stderr : α) :
    f (judged logs stdout stderr) = judged logs (f stdout) (f stderr) := by cases logs <;> rfl

theorem spare_map {α β : Type} (f : α → β) (logs : Bool) (stdout stderr : α) :
    f (spare logs stdout stderr) = spare logs (f stdout) (f stderr) := by cases logs <;> rfl

/-- The Python agent raises a `ValueError`: the name of the service has a NUL, or a stream is not
UTF-8. -/
def Raises (name : String) (stdout stderr : Bytes) : Prop :=
  '\x00' ∈ name.toList ∨ Utf8.decode stdout = none ∨ Utf8.decode stderr = none

/-- The outcome is reported alike. -/
def OutcomeAlike (logs : Bool) (name : String) : CommandOutcome → Prop
  | .notStarted message =>
    '\x00' ∈ name.toList ∧ ActionRefused message ∨ '\x00' ∉ name.toList ∧ SameVerdict message
  | .exited code stdout stderr =>
    let text := Utf8.decodeLossy (judged logs stdout stderr)
    let other := Utf8.decodeLossy (spare logs stdout stderr)
    Raises name stdout stderr ∧ code ≠ 0 ∧ Reads text other ActionRefused ∨
      ¬ Raises name stdout stderr ∧ (code = 0 ∨ TextAlike text other)

theorem trimSpace_eq_empty {s : String} : Worker.trimSpace s = "" ↔ Blank s := trim_eq_empty

theorem classify_reads {text other : String} {type : ErrorType} {P : String → Prop}
    (hP : ∀ s, Worker.classifyFailure s = type ↔ P s) :
    Worker.classifyFailure
        (if Worker.trimSpace text = "" then Worker.trimSpace other else Worker.trimSpace text) =
      type ↔ Reads text other P := by
  unfold Reads
  by_cases hblank : Blank text
  · rw [if_pos (trimSpace_eq_empty.mpr hblank), Worker.classifyFailure_trimSpace, hP]
    simp [hblank]
  · rw [if_neg (fun h => hblank (trimSpace_eq_empty.mp h)), Worker.classifyFailure_trimSpace, hP]
    simp [hblank]

theorem TaskWorker.classify_blank {text : String} (h : Blank text) :
    classifyFailure (trim isStrSpace (newlines text)) = .unknown := by
  have hempty : trim isStrSpace (newlines text) = "" := by
    refine trim_eq_empty.mpr fun c hc => ?_
    rw [newlines, String.toList_ofList] at hc
    rcases mem_newlineChars hc with rfl | hc
    · decide
    · exact isStrSpace_of_isWhiteSpace (h c hc)
  rw [hempty]
  exact fixed_verdicts.1

theorem textAlike_iff (text other : String) :
    TaskWorker.classifyFailure
        (trim isStrSpace (if newlines text = "" then newlines other else newlines text)) =
      Worker.classifyFailure
        (if Worker.trimSpace text = "" then Worker.trimSpace other else Worker.trimSpace text) ↔
    TextAlike text other := by
  unfold TextAlike
  by_cases hempty : text = ""
  · subst hempty
    have hblank : Blank "" := by simp [Blank]
    rw [if_pos (newlines_eq_empty.mpr rfl), if_pos (trimSpace_eq_empty.mpr hblank),
      TaskWorker.classifyFailure_trimmed, Worker.classifyFailure_trimSpace, sameVerdict_iff]
    simp [hblank]
  rw [if_neg (fun h => hempty (newlines_eq_empty.mp h))]
  by_cases hblank : Blank text
  · rw [TaskWorker.classify_blank hblank, eq_comm, classify_reads silent_iff]
    simp [Reads, hempty, hblank]
  · rw [if_neg (fun h => hblank (trimSpace_eq_empty.mp h)), TaskWorker.classifyFailure_trimmed,
      Worker.classifyFailure_trimSpace, sameVerdict_iff]
    simp [hempty, hblank]

/-! ## Both agents on one task -/

theorem TaskWorker.classifyFailure_before (logs : Bool) (message : String) :
    classifyFailure ((bif logs then "获取日志失败: " else "执行失败: ") ++ message) =
      classifyFailure message := by
  refine classifyFailure_after (fun w hw => ?_) message
  exact (around_failed logs).2.2 w (List.mem_append_left _ hw)

theorem Worker.classifyFailure_before (logs : Bool) (message : String) :
    classifyFailure ((bif logs then "获取日志失败: " else "执行失败: ") ++ message) =
      classifyFailure message := by
  refine SameFor.classifyFailure_eq ?_
  simpa using sameFor_between (around_failed logs).1 (around_failed logs).2.1 message

theorem nul_mem_argv {argv : List String} {name : String} (hmem : name ∈ argv)
    (hothers : ∀ arg ∈ argv, arg = name ∨ '\x00' ∉ arg.toList) :
    (argv.any fun arg => '\x00' ∈ arg.toList) = true ↔ '\x00' ∈ name.toList := by
  rw [List.any_eq_true]
  constructor
  · rintro ⟨arg, harg, hnul⟩
    rcases hothers arg harg with rfl | hnone
    · simpa using hnul
    · exact absurd (by simpa using hnul) hnone
  · exact fun hnul => ⟨name, hmem, by simpa using hnul⟩

theorem nul_notMem_actionCommand (action : String) : '\x00' ∉ (actionCommand action).toList := by
  unfold actionCommand
  split <;> simp

/-- What the Python agent makes of a spawned command. -/
def TaskWorker.answer (logs : Bool) (argv : List String) (outcome : CommandOutcome) :
    Except String (Bool × String) :=
  match subprocessRun argv outcome with
  | .error (.valueError message) => .error message
  | .error (.osError message) =>
    .ok (false, (bif logs then "获取日志失败: " else "执行失败: ") ++ message)
  | .ok (code, stdout, stderr) =>
    if code = 0 ∧ !logs then .ok (true, trim isStrSpace stdout)
    else .ok (code = 0, trim isStrSpace
      (if judged logs stdout stderr = "" then spare logs stdout stderr
        else judged logs stdout stderr))

/-- What the Go agent makes of a spawned command. -/
def Worker.answer (logs : Bool) : CommandOutcome → Bool × String
  | .notStarted message => (false, (bif logs then "获取日志失败: " else "执行失败: ") ++ message)
  | .exited code stdout stderr =>
    if code = 0 ∧ !logs then (true, trimSpace (Utf8.decodeLossy stdout))
    else
      let output := trimSpace (Utf8.decodeLossy (judged logs stdout stderr))
      (code = 0, if output = "" then trimSpace (Utf8.decodeLossy (spare logs stdout stderr))
        else output)

theorem TaskWorker.runAction_eq {name action : String} {timeout : ℕ} (hname : name ∈ allowed)
    (haction : action ∈ allowedActions) :
    runAction allowed (some name) action timeout outcome =
      (some ⟨["systemctl", actionCommand action, name], timeout⟩,
        answer false ["systemctl", actionCommand action, name] outcome) := by
  have hvalid : validate allowed (some name) action = .ok name := by
    simp [validate, hname, haction]
  unfold runAction answer
  rw [hvalid]
  dsimp only
  rcases subprocessRun ["systemctl", actionCommand action, name] outcome with
    (message | message) | ⟨code, stdout, stderr⟩
  · rfl
  · rfl
  · by_cases hcode : code = 0
    · simp [hcode]
    · simp [hcode, judged, spare]
      rfl

theorem TaskWorker.fetchLogs_eq {name : String} (hname : name ∈ allowed) :
    fetchLogs allowed (some name) outcome =
      (some ⟨["journalctl", "-n", "200", "-u", name, "--no-pager"], 30⟩,
        answer true ["journalctl", "-n", "200", "-u", name, "--no-pager"] outcome) := by
  have hvalid : validate allowed (some name) "STATUS" = .ok name := by
    simp [validate, hname, allowedActions]
  unfold fetchLogs answer
  rw [hvalid]
  dsimp only
  rcases subprocessRun ["journalctl", "-n", "200", "-u", name, "--no-pager"] outcome with
    (message | message) | ⟨code, stdout, stderr⟩
  · rfl
  · rfl
  · simp [judged, spare]
    rfl

theorem Worker.runAction_eq {name action : String} {timeout : ℕ} (hname : name ∈ allowed)
    (haction : action ∈ allowedActions) :
    runAction allowed name action timeout outcome =
      (some ⟨["systemctl", actionCommand action, name], timeout⟩, answer false outcome) := by
  have hvalid : validate allowed name action = .ok () := by simp [validate, hname, haction]
  unfold runAction answer
  rw [hvalid]
  dsimp only
  rcases outcome with ⟨code, stdout, stderr⟩ | message
  · by_cases hcode : code = 0
    · simp [hcode]
    · simp [hcode, judged, spare]
      rfl
  · rfl

theorem Worker.fetchLogs_eq {name : String} (hname : name ∈ allowed) :
    fetchLogs allowed name outcome =
      (some ⟨["journalctl", "-n", "200", "-u", name, "--no-pager"], 30⟩, answer true outcome) := by
  have hvalid : validate allowed name "STATUS" = .ok () := by
    simp [validate, hname, allowedActions]
  unfold fetchLogs answer
  rw [hvalid]
  dsimp only
  rcases outcome with ⟨code, stdout, stderr⟩ | message
  · simp [judged, spare]
    rfl
  · rfl

/-- The answers lead to the same report. -/
def AnswersAlike : Except String (Bool × String) → Bool × String → Prop
  | .error message, (success, output) =>
    success = false ∧
      TaskWorker.classifyValidationError message = Worker.classifyFailure output
  | .ok (true, _), (success, _) => success = true
  | .ok (false, text), (success, output) =>
    success = false ∧ TaskWorker.classifyFailure text = Worker.classifyFailure output

theorem reportAlike_iff_of_answers {command goCommand : Option Command}
    {answer : Except String (Bool × String)} {goAnswer : Bool × String}
    (h : (if task.action = "LOGS" then TaskWorker.fetchLogs allowed task.serviceName outcome
      else TaskWorker.runAction allowed task.serviceName task.action task.timeoutSeconds outcome) =
        (command, answer))
    (hgo : (if task.action = "LOGS" then
        Worker.fetchLogs allowed (task.serviceName.getD "") outcome
      else Worker.runAction allowed (task.serviceName.getD "") task.action
        (if task.timeoutSeconds = 0 then 60 else task.timeoutSeconds) outcome) =
          (goCommand, goAnswer)) :
    ReportAlike allowed task outcome ↔
      command.map Command.argv = goCommand.map Command.argv ∧ AnswersAlike answer goAnswer := by
  have hexec : TaskWorker.executeOne allowed task outcome =
      ⟨command, TaskWorker.report task answer⟩ := by
    unfold TaskWorker.executeOne
    rw [h]
  have hgoExec : Worker.executeOne allowed task outcome =
      ⟨goCommand, Worker.report task.executionId goAnswer.1 goAnswer.2⟩ := by
    simp only [Worker.executeOne, hgo]
  have hfields : ReportAlike allowed task outcome ↔ _ ∧ _ ∧ _ :=
    ⟨fun h => ⟨h.command, h.status, h.errorType⟩, fun h => ⟨h.1, h.2.1, h.2.2⟩⟩
  rw [hfields, hexec, hgoExec]
  refine and_congr_right fun _ => ?_
  obtain ⟨success, output⟩ := goAnswer
  rcases answer with message | ⟨_ | _, text⟩ <;> cases success <;>
    simp [AnswersAlike, TaskWorker.report, Worker.report, ErrorType.text_inj]

theorem Worker.answer_exited (logs : Bool) (code : ℤ) (stdout stderr : Bytes) :
    ∃ output, answer logs (.exited code stdout stderr) = (decide (code = 0), output) ∧
      (code ≠ 0 → output =
        if trimSpace (Utf8.decodeLossy (judged logs stdout stderr)) = "" then
          trimSpace (Utf8.decodeLossy (spare logs stdout stderr))
        else trimSpace (Utf8.decodeLossy (judged logs stdout stderr))) := by
  unfold answer
  by_cases hcode : code = 0
  · cases logs <;> simp [hcode]
  · simp [hcode]

theorem TaskWorker.answer_of_raises {logs : Bool} {argv : List String} {name : String} {code : ℤ}
    {stdout stderr : Bytes}
    (hnul : (argv.any fun arg => '\x00' ∈ arg.toList) = true ↔ '\x00' ∈ name.toList)
    (h : Raises name stdout stderr) :
    ∃ message, answer logs argv (.exited code stdout stderr) = .error message ∧
      classifyValidationError message = .taskActionInvalid := by
  by_cases hname : '\x00' ∈ name.toList
  · refine ⟨"embedded null byte", ?_, fixed_verdicts.2.2.1⟩
    unfold answer subprocessRun
    rw [if_pos (hnul.mpr hname)]
  · refine ⟨"'utf-8' codec can't decode", ?_, fixed_verdicts.2.2.2⟩
    have hdecode : Utf8.decode stdout = none ∨ Utf8.decode stderr = none := h.resolve_left hname
    unfold answer subprocessRun
    rw [if_neg (fun h => hname (hnul.mp h))]
    rcases hdecode with hnone | hnone
    · simp [hnone]
    · cases hout : Utf8.decode stdout <;> simp [hnone]

theorem TaskWorker.answer_of_decodes {logs : Bool} {argv : List String} {name : String}
    {code : ℤ} {stdout stderr : Bytes}
    (hnul : (argv.any fun arg => '\x00' ∈ arg.toList) = true ↔ '\x00' ∈ name.toList)
    (h : ¬ Raises name stdout stderr) :
    ∃ text, answer logs argv (.exited code stdout stderr) = .ok (code = 0, text) ∧
      (code ≠ 0 → text = trim isStrSpace
        (if newlines (Utf8.decodeLossy (judged logs stdout stderr)) = "" then
          newlines (Utf8.decodeLossy (spare logs stdout stderr))
        else newlines (Utf8.decodeLossy (judged logs stdout stderr)))) := by
  simp only [Raises, not_or] at h
  obtain ⟨hname, hout, herr⟩ := h
  obtain ⟨out, hout⟩ := Option.ne_none_iff_exists'.mp hout
  obtain ⟨err, herr⟩ := Option.ne_none_iff_exists'.mp herr
  have hrun : subprocessRun argv (.exited code stdout stderr) =
      .ok (code, newlines out, newlines err) := by
    unfold subprocessRun
    rw [if_neg (fun h => hname (hnul.mp h))]
    simp [hout, herr]
  unfold answer
  rw [hrun]
  by_cases hcode : code = 0
  · cases logs <;> simp [hcode]
  · refine ⟨_, by simp [hcode]; rfl, fun _ => ?_⟩
    rw [judged_map Utf8.decodeLossy, spare_map Utf8.decodeLossy,
      Utf8.decodeLossy_of_decode hout, Utf8.decodeLossy_of_decode herr, judged_map newlines,
      spare_map newlines]

/-- What the two agents make of a spawned command is reported alike. -/
theorem answersAlike_iff {logs : Bool} {argv : List String} {name : String} (hmem : name ∈ argv)
    (hothers : ∀ arg ∈ argv, arg = name ∨ '\x00' ∉ arg.toList) :
    AnswersAlike (TaskWorker.answer logs argv outcome) (Worker.answer logs outcome) ↔
      OutcomeAlike logs name outcome := by
  have hnul := nul_mem_argv hmem hothers
  rcases outcome with ⟨code, stdout, stderr⟩ | message
  · obtain ⟨output, hgo, houtput⟩ : ∃ output,
        Worker.answer logs (.exited code stdout stderr) = (decide (code = 0), output) ∧
          (code ≠ 0 → output = _) := Worker.answer_exited logs code stdout stderr
    rw [hgo]
    by_cases hraises : Raises name stdout stderr
    · obtain ⟨message, hanswer, hclass⟩ :=
        @TaskWorker.answer_of_raises logs argv name code stdout stderr hnul hraises
      rw [hanswer]
      simp only [AnswersAlike, OutcomeAlike, hclass, hraises, true_and, not_true_eq_false,
        false_and, or_false, decide_eq_false_iff_not]
      refine and_congr_right fun hcode => ?_
      rw [houtput hcode, eq_comm, classify_reads actionRefused_iff]
    · obtain ⟨text, hanswer, htext⟩ :=
        @TaskWorker.answer_of_decodes logs argv name code stdout stderr hnul hraises
      rw [hanswer]
      by_cases hcode : code = 0
      · simp [AnswersAlike, OutcomeAlike, hcode, hraises]
      · simp only [AnswersAlike, OutcomeAlike, hcode, hraises, decide_false, true_and,
          not_false_eq_true, false_and, false_or]
        rw [htext hcode, houtput hcode, textAlike_iff]
  · by_cases hname : '\x00' ∈ name.toList
    · have hanswer : TaskWorker.answer logs argv (.notStarted message) =
          .error "embedded null byte" := by
        unfold TaskWorker.answer TaskWorker.subprocessRun
        rw [if_pos (hnul.mpr hname)]
      rw [hanswer]
      simp only [AnswersAlike, Worker.answer, OutcomeAlike, fixed_verdicts.2.2.1]
      rw [Worker.classifyFailure_before, eq_comm, actionRefused_iff]
      simp [hname]
    · have hanswer : TaskWorker.answer logs argv (.notStarted message) =
          .ok (false, (bif logs then "获取日志失败: " else "执行失败: ") ++ message) := by
        unfold TaskWorker.answer TaskWorker.subprocessRun
        rw [if_neg (fun h => hname (hnul.mp h))]
      rw [hanswer]
      simp only [AnswersAlike, Worker.answer, OutcomeAlike]
      rw [Worker.classifyFailure_before, TaskWorker.classifyFailure_before, sameVerdict_iff]
      simp [hname]

/-- The action is one that the agents have a command for. -/
def Runnable (task : PendingTask) : Prop := task.action = "LOGS" ∨ task.action ∈ allowedActions

/-- When both agents do and report the same: no name or action that a refusal repeats has a word
that overtakes the refusal, a missing name is not whitelisted as the empty one, and the outcome of
a command that is run is reported alike. -/
def TaskAlike (allowed : List String) (task : PendingTask) (outcome : CommandOutcome) : Prop :=
  match task.serviceName with
  | none =>
    "" ∉ allowed ∨
      ¬ Runnable task ∧ ¬ Overtaken task.action ∧ Worker.notWhitelisted task.action
  | some name =>
    name ∉ allowed ∧ ¬ Overtaken name ∨
      name ∈ allowed ∧ ¬ Runnable task ∧ ¬ Overtaken task.action ∧
        (TaskWorker.notWhitelisted task.action ↔ Worker.notWhitelisted task.action) ∨
      name ∈ allowed ∧ Runnable task ∧ OutcomeAlike (task.action = "LOGS") name outcome

/-- A command that both agents spawn. -/
theorem reportAlike_iff_of_runnable {name : String} (hsome : task.serviceName = some name)
    (hname : name ∈ allowed) (hrun : Runnable task) :
    ReportAlike allowed task outcome ↔ OutcomeAlike (task.action = "LOGS") name outcome := by
  have hservice : task.serviceName.getD "" = name := by rw [hsome]; rfl
  by_cases hlogs : task.action = "LOGS"
  · have hpy := @TaskWorker.fetchLogs_eq allowed outcome name hname
    have hgo := @Worker.fetchLogs_eq allowed outcome name hname
    have hothers : ∀ arg ∈ ["journalctl", "-n", "200", "-u", name, "--no-pager"],
        arg = name ∨ '\x00' ∉ arg.toList := by simp
    rw [reportAlike_iff_of_answers (by rw [if_pos hlogs, hsome, hpy])
      (by rw [if_pos hlogs, hservice, hgo]), answersAlike_iff (by simp) hothers]
    simp [hlogs]
  · have haction := hrun.resolve_left hlogs
    have hpy := @TaskWorker.runAction_eq allowed outcome name task.action task.timeoutSeconds
      hname haction
    have hgo := @Worker.runAction_eq allowed outcome name task.action
      (if task.timeoutSeconds = 0 then 60 else task.timeoutSeconds) hname haction
    have hothers : ∀ arg ∈ ["systemctl", actionCommand task.action, name],
        arg = name ∨ '\x00' ∉ arg.toList := by
      simpa using Or.inr (nul_notMem_actionCommand task.action)
    rw [reportAlike_iff_of_answers (by rw [if_neg hlogs, hsome, hpy])
      (by rw [if_neg hlogs, hservice, hgo]), answersAlike_iff (by simp) hothers]
    simp [hlogs]

theorem TaskWorker.answer_of_service (h : ∀ name ∈ task.serviceName, name ∉ allowed) :
    (if task.action = "LOGS" then fetchLogs allowed task.serviceName outcome
      else runAction allowed task.serviceName task.action task.timeoutSeconds outcome) =
        (none, .error ("服务 " ++ task.serviceName.getD "None" ++ " 不在白名单内，拒绝执行")) := by
  have hvalid : ∀ action, validate allowed task.serviceName action =
      .error ("服务 " ++ task.serviceName.getD "None" ++ " 不在白名单内，拒绝执行") := by
    intro action
    cases hservice : task.serviceName with
    | none => rfl
    | some name => simp [validate, h name hservice]
  split_ifs <;> simp [fetchLogs, runAction, hvalid]

theorem Worker.answer_of_service {service : String} {timeout : ℕ} (h : service ∉ allowed) :
    (if task.action = "LOGS" then fetchLogs allowed service outcome
      else runAction allowed service task.action timeout outcome) =
        (none, false, "服务 " ++ service ++ " 不在白名单内，拒绝执行") := by
  split_ifs <;> simp [fetchLogs, runAction, validate, h]

theorem TaskWorker.answer_of_action {name : String} (hname : name ∈ allowed)
    (h : ¬ Runnable task) :
    (if task.action = "LOGS" then fetchLogs allowed (some name) outcome
      else runAction allowed (some name) task.action task.timeoutSeconds outcome) =
        (none, .error ("不允许的操作类型: " ++ task.action)) := by
  simp only [Runnable, not_or] at h
  rw [if_neg h.1]
  simp [runAction, validate, hname, h.2]

theorem Worker.answer_of_action {service : String} {timeout : ℕ} (hname : service ∈ allowed)
    (h : ¬ Runnable task) :
    (if task.action = "LOGS" then fetchLogs allowed service outcome
      else runAction allowed service task.action timeout outcome) =
        (none, false, "不允许的操作类型: " ++ task.action) := by
  simp only [Runnable, not_or] at h
  rw [if_neg h.1]
  simp [runAction, validate, hname, h.2]

theorem Worker.answer_of_runnable {service : String} (hname : service ∈ allowed)
    (h : Runnable task) (timeout : ℕ) :
    ∃ command answer, (if task.action = "LOGS" then fetchLogs allowed service outcome
      else runAction allowed service task.action timeout outcome) = (some command, answer) := by
  by_cases hlogs : task.action = "LOGS"
  · rw [if_pos hlogs, fetchLogs_eq hname]
    exact ⟨_, _, rfl⟩
  · rw [if_neg hlogs, runAction_eq hname (h.resolve_left hlogs)]
    exact ⟨_, _, rfl⟩

/-- Two refusals are reported alike when they get the same type of error. -/
theorem reportAlike_iff_of_refused {message goMessage : String}
    (h : (if task.action = "LOGS" then TaskWorker.fetchLogs allowed task.serviceName outcome
      else TaskWorker.runAction allowed task.serviceName task.action task.timeoutSeconds outcome) =
        (none, .error message))
    (hgo : (if task.action = "LOGS" then
        Worker.fetchLogs allowed (task.serviceName.getD "") outcome
      else Worker.runAction allowed (task.serviceName.getD "") task.action
        (if task.timeoutSeconds = 0 then 60 else task.timeoutSeconds) outcome) =
          (none, false, goMessage)) :
    ReportAlike allowed task outcome ↔
      Worker.classifyFailure goMessage = TaskWorker.classifyValidationError message := by
  rw [reportAlike_iff_of_answers h hgo, eq_comm (a := Worker.classifyFailure goMessage)]
  simp [AnswersAlike]

theorem Worker.classify_refusedAction (action : String) :
    (classifyFailure ("不允许的操作类型: " ++ action) = .serviceNotWhitelisted ↔
      ¬ Overtaken action ∧ notWhitelisted action) ∧
    (classifyFailure ("不允许的操作类型: " ++ action) = .taskActionInvalid ↔
      ¬ Overtaken action ∧ ¬ notWhitelisted action) := by
  obtain ⟨hovertaken, hnotWhitelisted, hinvalid⟩ := refusedAction action
  rw [serviceRefused_iff, actionRefused_iff, ActionRefused, hovertaken, hnotWhitelisted, hinvalid]
  simp

/-- The service is missing. The Go agent takes the empty name for it. -/
theorem reportAlike_iff_of_missing (hservice : task.serviceName = none) :
    ReportAlike allowed task outcome ↔ "" ∉ allowed ∨
      ¬ Runnable task ∧ ¬ Overtaken task.action ∧ Worker.notWhitelisted task.action := by
  have hpy := @TaskWorker.answer_of_service allowed task outcome (by simp [hservice])
  have hgetD : task.serviceName.getD "" = "" := by rw [hservice]; rfl
  by_cases hempty : "" ∈ allowed
  · by_cases hrun : Runnable task
    · -- The Go agent spawns a command for the empty name, the Python agent refuses.
      obtain ⟨command, answer, hgo⟩ := @Worker.answer_of_runnable allowed task outcome "" hempty
        hrun (if task.timeoutSeconds = 0 then 60 else task.timeoutSeconds)
      rw [reportAlike_iff_of_answers hpy (by rw [hgetD, hgo])]
      simp [hempty, hrun]
    · rw [reportAlike_iff_of_refused hpy (by rw [hgetD, Worker.answer_of_action hempty hrun]),
        TaskWorker.classify_refusedService, (Worker.classify_refusedAction _).1]
      simp [hempty, hrun]
  · have hquiet : ¬ Overtaken "" := fixed_verdicts.2.1
    rw [reportAlike_iff_of_refused hpy (by rw [hgetD, Worker.answer_of_service hempty]),
      TaskWorker.classify_refusedService, Worker.classify_refusedService]
    simp [hempty, hquiet]

/-- The agents report alike exactly on the tasks and outcomes that are `TaskAlike`. -/
theorem reportAlike_iff :
    ReportAlike allowed task outcome ↔ TaskAlike allowed task outcome := by
  unfold TaskAlike
  cases hservice : task.serviceName with
  | none => exact reportAlike_iff_of_missing hservice
  | some name =>
    have hgetD : task.serviceName.getD "" = name := by rw [hservice]; rfl
    by_cases hname : name ∈ allowed
    · by_cases hrun : Runnable task
      · simpa [hname, hrun] using reportAlike_iff_of_runnable hservice hname hrun
      · have hpy := @TaskWorker.answer_of_action allowed task outcome name hname hrun
        rw [reportAlike_iff_of_refused (by rw [hservice, hpy])
          (by rw [hgetD, Worker.answer_of_action hname hrun]), TaskWorker.classify_refusedAction]
        obtain ⟨hrefused, hinvalid⟩ := Worker.classify_refusedAction task.action
        cases hword : TaskWorker.notWhitelisted task.action
        · rw [if_neg (by simp), hinvalid]
          simp [hname, hrun]
        · rw [if_pos rfl, hrefused]
          simp [hname, hrun]
    · have hpy := @TaskWorker.answer_of_service allowed task outcome (by simpa [hservice])
      rw [reportAlike_iff_of_refused hpy (by rw [hgetD, Worker.answer_of_service hname]),
        TaskWorker.classify_refusedService, Worker.classify_refusedService]
      simp [hname]

/-- The log of a service in which one line is not UTF-8: only the Python agent fails. -/
theorem undecodable_log_not_alike :
    ¬ ∀ (allowed : List String) (task : PendingTask) (outcome : CommandOutcome),
      ReportAlike allowed task outcome := by
  intro h
  have hstatus := (h ["nginx"] ⟨1, "LOGS", some "nginx", 60⟩
    (.exited 0 [0x63, 0x61, 0x66, 0xE9, 0x0A] [])).status
  exact absurd hstatus (by decide +kernel)

end OpsMonitor.Agent
