import OmniviaCore.Jobs.Records
import OmniviaCore.Lib.Check

/-!
# The relations of the agent runtime

The rows that migrations 0018 and 0025 keep for one canonical run, and those that 0001, 0010 and 0015 keep
for the durable job carrying it, each relation in the order of insertion. A primary key on the row a second
relation completes (an attempt and its outcome, a wait and its resolution) makes that row an `Option`.
Sequences and ordinals that every writer computes as `MAX + 1` are positions.

The controls of a runtime-bound job are system recoveries alone. Documents that no statement reads are
left out, and so are the identifiers of events.
-/

namespace OmniviaCore.Runtime

open Lib
open Jobs (JobState SchedulerState Authority)

/-! ## Statuses -/

/-- `run_status`. -/
inductive RunStatus where
  | admitted
  | running
  | waiting
  | succeeded
  | partiallyCompleted
  | failed
  | cancelled
  | uncertain
  deriving DecidableEq

/-- Membership in `RUN_TERMINAL_STATUSES`. -/
def RunStatus.terminal : RunStatus → Bool
  | .succeeded | .partiallyCompleted | .failed | .cancelled => true
  | .admitted | .running | .waiting | .uncertain => false

def RunStatus.admits : RunStatus → RunStatus → Bool
  | .admitted, .running | .admitted, .cancelled => true
  | .running, .waiting | .running, .succeeded | .running, .partiallyCompleted | .running, .failed
  | .running, .cancelled | .running, .uncertain => true
  | .waiting, .running | .waiting, .cancelled | .waiting, .failed => true
  | .uncertain, .running | .uncertain, .succeeded | .uncertain, .partiallyCompleted
  | .uncertain, .failed | .uncertain, .cancelled => true
  | _, _ => false

/-- `status` of a step state. -/
inductive StepStatus where
  | pending
  | running
  | waiting
  | succeeded
  | failed
  | cancelled
  | skipped
  deriving DecidableEq

/-- Membership in `RUN_STEP_TERMINAL_STATUSES`. -/
def StepStatus.terminal : StepStatus → Bool
  | .succeeded | .failed | .cancelled | .skipped => true
  | .pending | .running | .waiting => false

/-- `status` of an attempt outcome. -/
inductive AttemptStatus where
  | succeeded
  | failed
  | cancelled
  | uncertain
  deriving DecidableEq

/-- `only a failed, cancelled or uncertain attempt may be followed by another`. -/
def AttemptStatus.followable : AttemptStatus → Bool
  | .failed | .cancelled | .uncertain => true
  | .succeeded => false

/-- `kind` of a wait. -/
inductive WaitKind where
  | approval
  | externalSignal
  | timer
  deriving DecidableEq

/-- `status` of a wait resolution; a wait without one is pending. -/
inductive WaitStatus where
  | resolved
  | expired
  | cancelled
  deriving DecidableEq

/-! ## The run -/

/-- A row of `omnivia_runtime_run_step_states`. -/
structure StepState where
  status : StepStatus
  observedAtUs : Nat

/-- A row of `omnivia_runtime_attempt_outcomes`. -/
structure AttemptOutcome where
  status : AttemptStatus
  finishedAtUs : Nat

/-- A row of `omnivia_runtime_attempts`, with its outcome. -/
structure Attempt where
  attemptNumber : Nat
  startedAtUs : Nat
  outcome : Option AttemptOutcome

/-- `ATTEMPT_STATUS_RUNNING`: no outcome is stored. -/
def Attempt.isOpen (a : Attempt) : Bool := a.outcome.isNone

/-- A row of `omnivia_runtime_run_steps`, with its states and attempts. -/
structure RunStep where
  runStepId : String
  createdAtUs : Nat
  states : List StepState
  attempts : List Attempt

/-- A row of `omnivia_runtime_wait_resolutions`. -/
structure WaitResolution where
  status : WaitStatus
  resolvedAtUs : Nat
  reason : String
  approvalId : Option String

/-- A row of `omnivia_runtime_waits`, with its resolution. -/
structure Wait where
  waitId : String
  runStepId : String
  kind : WaitKind
  createdAtUs : Nat
  expiresAtUs : Option Nat
  resumeDigest : String
  resolution : Option WaitResolution

/-- `WAIT_STATUS_PENDING`. -/
def Wait.isPending (w : Wait) : Bool := w.resolution.isNone

/-- The members of an event's details that the completion decision's trigger reads. -/
structure AttemptLineage where
  runtimeAttemptNumber : Nat
  applicationAttemptNumber : Nat
  deriving DecidableEq

/-- A row of `omnivia_runtime_events`. -/
structure RunEvent where
  occurredAtUs : Nat
  runStatus : RunStatus
  runStepId : Option String
  lineage : Option AttemptLineage

/-! ## The durable job -/

/-- A row of `omnivia_job_attempts`. -/
structure JobAttempt where
  startedAtUs : Nat
  finishedAtUs : Option Nat
  state : JobState

/-- A row of `omnivia_job_events`. -/
structure JobEvent where
  occurredAtUs : Nat
  state : JobState

/-- A row of `omnivia_job_terminal_observations`. -/
structure JobObservation where
  attemptNumber : Option Nat
  terminalState : JobState
  finishedAtUs : Nat

/-- A `system.recovery` row of `omnivia_application_job_controls`. -/
structure SystemRecovery where
  fencingGeneration : Nat
  settledAtUs : Nat

/-- The durable job a run is carried by. -/
structure DurableJob where
  jobId : String
  createdAtUs : Nat
  maxAttempts : Nat
  state : SchedulerState
  claimedBy : Option String
  fencingGeneration : Nat
  attempts : List JobAttempt
  events : List JobEvent
  observations : List JobObservation
  recoveries : List SystemRecovery

/-- Membership in `_TERMINAL_JOB_STATES`. -/
def DurableJob.terminal (j : DurableJob) : Bool :=
  j.state = .succeeded || j.state = .failed || j.state = .cancelled

/-- A row of `omnivia_runtime_runs`, with the relations that hang off it and its job. -/
structure Run where
  runId : String
  createdAtUs : Nat
  job : DurableJob
  steps : List RunStep
  waits : List Wait
  events : List RunEvent

/-! ## The stop ledger -/

/-- A row of `omnivia_runtime_stop_requests`. -/
structure RunStopRequest where
  stopRequestId : String
  runId : String
  requestedAtUs : Nat
  requestedBy : String
  reason : String
  auditRef : String
  deriving DecidableEq

/-- `STOP_OUTCOMES`; the `CHECK` ties the event sequence to `accepted`. -/
inductive StopOutcome where
  | accepted (runtimeEventSequence : Nat)
  | ignoredAlreadyTerminal
  | rejected

/-- `outcome = 'accepted'`. -/
def StopOutcome.isAccepted : StopOutcome → Bool
  | .accepted _ => true
  | .ignoredAlreadyTerminal | .rejected => false

/-- A row of `omnivia_runtime_stop_outcomes`. -/
structure RunStopOutcome where
  stopRequestId : String
  outcome : StopOutcome
  completedAtUs : Nat
  reason : String
  auditRef : String

/-- A row of `omnivia_runtime_stop_progress`, with the intents of the effects it found
unresolved. -/
structure StopProgress where
  stopRequestId : String
  observedAtUs : Nat
  cleanupRequired : Bool
  obligations : List String

/-- `CLEANUP_RECEIPT_OUTCOMES`. -/
inductive CleanupOutcome where
  | released
  | notRequired
  | failed
  | unknown
  deriving DecidableEq

/-- A row of `omnivia_runtime_stop_cleanup_receipts`. -/
structure StopCleanupReceipt where
  stopRequestId : String
  outcome : CleanupOutcome

/-- The relations of the stop ledger. -/
structure StopLedger where
  requests : List RunStopRequest
  outcomes : List RunStopOutcome
  progress : List StopProgress
  receipts : List StopCleanupReceipt

/-! ## Refusals -/

/-- The refusals of the runtime: a trigger's or a constraint's abort, and the errors its functions
raise. -/
inductive RuntimeError where
  /-- the caller does not hold the workspace -/
  | staleAuthority
  /-- a `CHECK` on the form of a column -/
  | malformed
  /-- a primary key or a unique constraint -/
  | notUnique
  /-- a foreign key -/
  | unknownReference
  /-- a `CHECK (… > 0)` on a time column -/
  | timeNotPositive
  /-- `a step state must not predate the step`, and its like -/
  | predates
  /-- `step state time must not regress`, `run event time must not regress` -/
  | timeRegresses
  /-- `a step state that restates its predecessor records nothing` -/
  | restatesStepState
  /-- `a terminal step state is final`, `a terminal step admits no further attempt` -/
  | terminalStep
  /-- `a waiting step must name the wait holding it` -/
  | stepHoldsNoWait
  /-- `a terminal run admits no further history`, `a terminal run event is final` -/
  | terminalRun
  /-- the `CHECK` on `attempt_number`, or on the event `sequence` -/
  | numberOutOfRange
  /-- `only a failed, cancelled or uncertain attempt may be followed by another` -/
  | attemptNotFollowable
  /-- `attempts of one step must not overlap` -/
  | attemptsOverlap
  /-- `a step may hold only one unresolved wait` -/
  | stepHoldsWait
  /-- `a run may hold at most 64 waits` -/
  | tooManyWaits
  /-- `only a resolved approval wait names an approval` -/
  | approvalNotNamed
  /-- `a wait resolved past its deadline has expired, not resolved` -/
  | pastDeadline
  /-- `only a time-bounded wait expires, and never before its deadline` -/
  | beforeDeadline
  /-- `a run stream opens at sequence zero with the admitted status` -/
  | streamOpening
  /-- `run status transition is not permitted` -/
  | transitionNotPermitted
  /-- a statement on the durable job that its triggers abort -/
  | job (reason : Jobs.JobError)
  /-- `a run must be admitted onto an open durable job`, a plan without steps or of too many -/
  | notAdmissible
  /-- `RuntimeSchedulingError`: the claim does not match this scheduler -/
  | claimNotThisScheduler
  /-- `RuntimeSchedulingError`: the job, its attempt or the run is not as the claim states -/
  | claimNotOpen
  /-- `RuntimeSchedulingError`: unfinished steps, and none of them is ready -/
  | noReadyStep
  /-- `RuntimeSchedulingError`: not exactly one open attempt to recover -/
  | notOneOpenAttempt
  /-- `RuntimeSchedulingError`: the run is terminal -/
  | runNotLive
  /-- `RuntimeSchedulingError`: the recovery did not do what the classification found -/
  | recoveryDisagrees
  /-- `RuntimeStopRequested` -/
  | stopRequested
  /-- `CompletionRefused`, or the triggers of the completion decision -/
  | completionRefused
  /-- `WaitResolutionConflict` -/
  | waitConflict
  /-- `stop request … was already recorded on different terms` -/
  | stopRequestDiffers
  /-- `run … is not a run of this workspace` -/
  | unknownRun
  /-- `run … carries … unsettled stop requests` -/
  | ambiguousStop
  /-- `stop request … is not a stop request of this workspace` -/
  | unknownStopRequest
  /-- `stop request … is recorded with neither progress nor an outcome` -/
  | stopNotObserved
  /-- `stop outcome cannot predate its request`, and its like -/
  | predatesRequest
  /-- `an accepted stop outcome must name the cancelled event for its run` -/
  | outcomeWithoutEvent
  /-- `more than the … one stop observation may record` -/
  | tooManyObligations
  /-- `application_refusal`: the run cannot be reported as pending reconciliation -/
  | pendingTransition
  deriving DecidableEq

end OmniviaCore.Runtime
