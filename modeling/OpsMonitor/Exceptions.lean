import Mathlib

/-! The ways a request ends without a result. -/

namespace OpsMonitor

inductive ErrorCode
  | badRequest | invalidTimestamp | taskActionInvalid
  | unauthorized | invalidCredentials | accountDisabled | agentUnauthorized
  | agentSignatureInvalid | agentRequestReplayed | agentSignatureMissing | agentTimestampInvalid
  | forbidden | serviceNotWhitelisted
  | notFound | userNotFound | roleNotFound | serverNotFound | ruleNotFound | alertEventNotFound
  | taskNotFound | taskExecutionNotFound | serverServiceNotFound
  | conflict | usernameExists | emailExists | serverCodeExists | serverIpExists | ruleNameExists
  | internalError
  deriving DecidableEq, Repr

def ErrorCode.value : ErrorCode → ℕ
  | badRequest => 40000
  | invalidTimestamp => 40001
  | taskActionInvalid => 40002
  | unauthorized => 40100
  | invalidCredentials => 40101
  | accountDisabled => 40102
  | agentUnauthorized => 40103
  | agentSignatureInvalid => 40104
  | agentRequestReplayed => 40105
  | agentSignatureMissing => 40106
  | agentTimestampInvalid => 40107
  | forbidden => 40300
  | serviceNotWhitelisted => 40301
  | notFound => 40400
  | userNotFound => 40401
  | roleNotFound => 40402
  | serverNotFound => 40403
  | ruleNotFound => 40404
  | alertEventNotFound => 40405
  | taskNotFound => 40406
  | taskExecutionNotFound => 40407
  | serverServiceNotFound => 40408
  | conflict => 40900
  | usernameExists => 40901
  | emailExists => 40902
  | serverCodeExists => 40903
  | serverIpExists => 40904
  | ruleNameExists => 40905
  | internalError => 50000

def ErrorCode.all : List ErrorCode :=
  [badRequest, invalidTimestamp, taskActionInvalid, unauthorized, invalidCredentials,
    accountDisabled, agentUnauthorized, agentSignatureInvalid, agentRequestReplayed,
    agentSignatureMissing, agentTimestampInvalid, forbidden, serviceNotWhitelisted, notFound,
    userNotFound, roleNotFound, serverNotFound, ruleNotFound, alertEventNotFound, taskNotFound,
    taskExecutionNotFound, serverServiceNotFound, conflict, usernameExists, emailExists,
    serverCodeExists, serverIpExists, ruleNameExists, internalError]

theorem ErrorCode.mem_all (code : ErrorCode) : code ∈ all := by
  cases code <;> decide

/-- Clients tell the errors apart by their numbers. -/
theorem ErrorCode.value_injective : Function.Injective ErrorCode.value := by
  have hnodup : (all.map value).Nodup := by decide
  exact fun a b h => List.inj_on_of_nodup_map hnodup a.mem_all b.mem_all h

structure AppException where
  code : ErrorCode
  message : String
  httpStatus : ℕ
  deriving DecidableEq, Repr

/-- What a service call can raise: a business error, a violated constraint of the database, a
value that does not fit its column, Python's `KeyError`, or another exception that no handler
expects. -/
inductive Failure
  | app (e : AppException)
  | integrity (key : String)
  | dataError (column : String)
  | keyError (key : String)
  | uncaught (exception : String)
  deriving DecidableEq, Repr

end OpsMonitor
