import OpsMonitor.Agent.Worker
import OpsMonitor.Task.Retry

/-! What the server retries, with the types of error that the agents assign and without them. -/

namespace OpsMonitor.Agent
open Library
open OpsMonitor.Task.Retry

/-- The words for which the server retries a failure that has no type. -/
def retryWords : List String :=
  ["timeout", "超时", "network", "connection", "refused", "unreachable", "网络", "offline", "离线"]

/-- The text has one of these words. -/
def WorthRetrying (text : String) : Prop := ∃ word ∈ retryWords, occursIn word (lower text)

/-- No type that an agent assigns is one of those that the server retries. -/
theorem ErrorType.not_retryable (errorType : ErrorType) (message : Option String) :
    isRetryable (some errorType.text) message = false := by
  cases errorType <;> rfl

theorem any_retryWords (p : String → Bool) :
    retryWords.any p = ((p "timeout" || p "超时") ||
      (["network", "connection", "refused", "unreachable"].any p || p "网络") ||
        (p "offline" || p "离线")) := by
  simp only [retryWords, List.any_cons, List.any_nil, Bool.or_false, Bool.or_assoc]

theorem isRetryable_none_iff (text : String) :
    isRetryable none (some text) = true ↔ WorthRetrying text := by
  have hany : WorthRetrying text ↔ (retryWords.any (occursIn · (lower text))) = true := by
    simp [WorthRetrying]
  rw [hany, any_retryWords]
  unfold isRetryable classifyError classifyError.infer
  dsimp only [Option.getD_some]
  -- one case for each of the three types that the server infers, and the unknown one
  split_ifs with htimeout hnetwork hoffline
  · rw [htimeout]
    simp [retryableErrorTypes]
  · rw [hnetwork]
    simp [retryableErrorTypes]
  · rw [hoffline]
    simp [retryableErrorTypes]
  · rw [Bool.eq_false_of_not_eq_true htimeout, Bool.eq_false_of_not_eq_true hnetwork,
      Bool.eq_false_of_not_eq_true hoffline]
    decide

/-- The server decides alike with the type of either agent and without a type. -/
structure DecidesAlike (text : String) : Prop where
  python : isRetryable (some (TaskWorker.classifyFailure text).text) (some text) =
    isRetryable none (some text)
  go : isRetryable (some (Worker.classifyFailure text).text) (some text) =
    isRetryable none (some text)

/-- The types of the agents never lead to a retry, so the decisions agree exactly on the texts that
the server does not retry by itself. -/
theorem decidesAlike_iff (text : String) : DecidesAlike text ↔ ¬ WorthRetrying text := by
  rw [← isRetryable_none_iff, Bool.not_eq_true]
  constructor
  · intro h
    rw [← h.python, ErrorType.not_retryable]
  · intro h
    exact ⟨by rw [h, ErrorType.not_retryable], by rw [h, ErrorType.not_retryable]⟩

/-- A refused connection is retried only if the agent sends no type. -/
theorem refused_connection_decided_apart : ¬ ∀ text, DecidesAlike text := by
  intro h
  exact absurd (h "connection refused").python (by decide +kernel)

end OpsMonitor.Agent
