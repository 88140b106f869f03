-- SUMMARY: The approval state machine, as statemachine.asl.json wires it.
import ServerlessPatterns.ApprovalWorkflow.World
import ServerlessPatterns.Library.Workflow

/-!
# The approval state machine
-/

namespace ApprovalWorkflow

open Asl

inductive StateName where
  | prepareRequest
  | requestApproval
  | recordApproval
  | approved
  | handleRejection
  | rejected
  | approvalTimedOut
  | approvalError
  | requestInvalid
  deriving DecidableEq

/-- The Lambda functions behind the tasks. -/
inductive Function where
  | prepareRequest
  | sendApprovalEmail
  | onApproved
  | onRejected
  deriving DecidableEq

def retryAll : Retrier := ⟨["States.ALL"], 2, 3, 2⟩

def prepareRequestTask : Task StateName Function where
  resource := .prepareRequest
  integration := .invoke
  parameters := some (.object [("Payload", .path [])])
  resultSelector := some (.object [("request", .path ["Payload"])])
  resultPath := ["request"]
  timeoutSeconds := none
  retry := [⟨["Lambda.ServiceException", "Lambda.AWSLambdaException", "Lambda.SdkClientException",
    "Lambda.TooManyRequestsException"], 2, 4, 2⟩]
  catchers := [⟨["States.ALL"], ["error"], .requestInvalid⟩]
  next := some .requestApproval

def requestApprovalTask : Task StateName Function where
  resource := .sendApprovalEmail
  integration := .invokeWaitForTaskToken
  parameters := some (.object [("Payload", .object [("task_token", .context ["Task", "Token"]),
    ("request", .path ["request"]), ("execution", .context ["Execution", "Id"])])])
  resultSelector := none
  resultPath := ["decision"]
  timeoutSeconds := some 172800
  retry := []
  catchers := [⟨["ApprovalRejected"], ["decision"], .handleRejection⟩,
    ⟨["States.Timeout"], ["error"], .approvalTimedOut⟩,
    ⟨["States.ALL"], ["error"], .approvalError⟩]
  next := some .recordApproval

def recordApprovalTask : Task StateName Function where
  resource := .onApproved
  integration := .invoke
  parameters := some (.object [("Payload", .path [])])
  resultSelector := some (.object [("result", .path ["Payload"])])
  resultPath := ["result"]
  timeoutSeconds := none
  retry := [retryAll]
  catchers := []
  next := some .approved

def handleRejectionTask : Task StateName Function where
  resource := .onRejected
  integration := .invoke
  parameters := some (.object [("Payload", .path [])])
  resultSelector := some (.object [("result", .path ["Payload"])])
  resultPath := ["result"]
  timeoutSeconds := none
  retry := [retryAll]
  catchers := []
  next := some .rejected

def machine : Machine StateName Function where
  startAt := .prepareRequest
  timeoutSeconds := 259200
  states
    | .prepareRequest => .task prepareRequestTask
    | .requestApproval => .task requestApprovalTask
    | .recordApproval => .task recordApprovalTask
    | .approved => .succeed
    | .handleRejection => .task handleRejectionTask
    | .rejected => .fail "ApprovalRejected" "The request was rejected by an approver."
    | .approvalTimedOut =>
      .fail "ApprovalTimedOut" "No approval decision was received before the task timeout."
    | .approvalError =>
      .fail "ApprovalError"
        "The approval workflow errored while requesting or processing the decision."
    | .requestInvalid => .fail "RequestInvalid" "The approval request failed validation."

def function (py : Python) (env : Env) : Function → Json → Handler Json
  | .prepareRequest => prepareRequest py
  | .sendApprovalEmail => sendApprovalEmail py env
  | .onApproved => onApproved
  | .onRejected => onRejected py

def workflow (py : Python) (env : Env) : Workflow StateName Function Op Ans World where
  machine := machine
  handler := function py env
  exec := exec py

def sampleEnv : Env where
  apiBaseUrl := "https://api.example.com"
  fromAddress := "approvals@example.com"
  approverAddresses := "manager@example.com"
  emailSubjectPrefix := "[Approval Required]"

end ApprovalWorkflow
