import OpsMonitor.Library.Text

/-! Error classification and backoff (`core/retry.py`). -/

namespace OpsMonitor.Task.Retry
open Library

def retryableErrorTypes : List String :=
  ["NETWORK_ERROR", "AGENT_OFFLINE", "AGENT_TIMEOUT", "SERVER_5XX"]

def unknownErrorType : String := "UNKNOWN"

def backoffTable : List ℕ := [5, 10, 30, 60]

def classifyError (errorType errorMessage : Option String) : String :=
  match errorType with
  | some t => if t = "" then infer else t
  | none => infer
where
  /-- The fallback that looks for keywords in the message. -/
  infer : String :=
    let text := lower (errorMessage.getD "")
    if occursIn "timeout" text || occursIn "超时" text then "AGENT_TIMEOUT"
    else if ["network", "connection", "refused", "unreachable"].any (occursIn · text) ||
        occursIn "网络" text then "NETWORK_ERROR"
    else if occursIn "offline" text || occursIn "离线" text then "AGENT_OFFLINE"
    else unknownErrorType

def isRetryable (errorType errorMessage : Option String) : Bool :=
  classifyError errorType errorMessage ∈ retryableErrorTypes

/-- Seconds to wait after attempt number `attempt`; the table's last entry is the cap. -/
def backoffSeconds (attempt : ℕ) : ℕ :=
  backoffTable.getD (min (attempt - 1) (backoffTable.length - 1)) 0

theorem backoffSeconds_pos (attempt : ℕ) : 0 < backoffSeconds attempt := by
  have h : min (attempt - 1) (backoffTable.length - 1) < 4 :=
    lt_of_le_of_lt (min_le_right _ _) (by decide)
  unfold backoffSeconds
  generalize min (attempt - 1) (backoffTable.length - 1) = i at h
  interval_cases i <;> decide

end OpsMonitor.Task.Retry
