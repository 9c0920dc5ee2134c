import OmniviaCore.Execution.LoopRecords
import OmniviaCore.Lib.Machine
import OmniviaCore.Lib.SortBy

/-!
# The loop runner

`LoopRunner` of `execution/loop.py`, with `_resolve_elements` before it and `replay_ledger` after.
What never changes once a runner is built, its plan and its resolved elements, is a `BoundLoop`; a
`LoopRunner` is the rest. Every method is run from a runner and ends in one also when it raises, with
the writes in the order of the source.
-/

namespace OmniviaCore.Execution.Loop

open Lib CanonicalJson

variable (sha256 : List UInt8 → String)

/-! ## Source resolution -/

/-- A plan and its effective elements, which are `(element_key, inputs_digest)` pairs. No two of them
share a key or a derived identity. -/
structure BoundLoop where
  plan : FrozenLoopPlan
  elements : List (String × String)
  keys_distinct : (elements.map Prod.fst).Nodup
  identities_distinct : (elements.map fun element => plan.iterationIdentity sha256 element.1).Nodup

/-- `_reject_collisions`. -/
def rejectCollisions (plan : FrozenLoopPlan) (resolved : List (String × String)) :
    Except ExecutionError (BoundLoop sha256) :=
  if hkeys : (resolved.map Prod.fst).Nodup then
    if hidentities : (resolved.map fun element => plan.iterationIdentity sha256 element.1).Nodup then
      .ok ⟨plan, resolved, hkeys, hidentities⟩
    else .error (.refused "duplicate_iteration"
      "the resolved source derives the same iteration identity twice")
  else .error (.refused "duplicate_iteration"
    "the resolved source names the same element key twice")

/-- `_PAD_KEY_PREFIX` and a position. -/
def padKey (index : Nat) : String := "pad-" ++ toString index

/-- One zipped position: the key of the primary source or a synthesised one, and the hash of the
digests of every source, absent past its end. -/
def zippedElement (source : List LoopElement) (zipSources : List (List LoopElement)) (index : Nat) :
    Except ExecutionError (String × String) := do
  let digests := (source :: zipSources).map fun entries =>
    match entries[index]? with
    | some element => Value.str (ofChars element.payloadDigest.toList)
    | none => Value.none
  let key := match source[index]? with
    | some element => element.key
    | none => padKey index
  let inputsDigest ← canonicalHash sha256 (.sequence digests)
  pure (key, inputsDigest)

def zippedCount (policy : ZipMismatchPolicy) (lengths : List Nat) : Except ExecutionError Nat := do
  match policy with
  | .REFUSE =>
    require (∀ length ∈ lengths, length = lengths.headD 0)
      (.refused "zip_mismatch" "zipped sources differ in length under REFUSE")
    pure (lengths.headD 0)
  | .TRUNCATE_TO_SHORTEST => pure (lengths.foldl min (lengths.headD 0))
  | .PAD_WITH_ABSENT => pure (lengths.foldl max 0)

/-- `_resolve_elements`. -/
def resolveElements (plan : FrozenLoopPlan) (source : List LoopElement)
    (zipSources : List (List LoopElement)) : Except ExecutionError (BoundLoop sha256) :=
  if zipSources = [] then do
    require (plan.zipMismatchPolicy = none)
      (.contract "invalid_loop_plan" "zip_mismatch_policy is declared without zipped sources")
    rejectCollisions sha256 plan (source.map fun element => (element.key, element.payloadDigest))
  else
    match plan.zipMismatchPolicy with
    | none => .error (.contract "invalid_loop_plan" "zipped sources require a zip_mismatch_policy")
    | some policy => do
      let count ← zippedCount policy ((source :: zipSources).map List.length)
      let zipped ← (List.range count).mapM (zippedElement sha256 source zipSources)
      rejectCollisions sha256 plan zipped

/-! ## The runner -/

/-- `LOOP_STATES`. -/
inductive LoopState where
  | RUNNING
  | STOPPING
  | SETTLED
  deriving DecidableEq

def LoopState.name : LoopState → String
  | .RUNNING => "RUNNING"
  | .STOPPING => "STOPPING"
  | .SETTLED => "SETTLED"

/-- `LOOP_OUTCOMES`. -/
inductive LoopOutcome where
  | SUCCEEDED
  | FAILED
  | CANCELLED
  | INCOMPLETE
  deriving DecidableEq

/-- The mutable attributes of a `LoopRunner`. -/
structure LoopRunner where
  entries : List IterationLedgerEntry
  late : List LateResult
  carryDigest : Option String
  carryAsserted : Bool
  state : LoopState
  failureReason : Option String
  cancellationRequested : Bool
  sequence : Int
  sequences : Finset Int

abbrev Runner (α : Type) := EStateM ExecutionError LoopRunner α

namespace BoundLoop

variable {sha256} (loop : BoundLoop sha256)

/-- The element at an ordinal the caller has found within the source. -/
def element (ordinal : Int) : String × String := loop.elements.getD ordinal.toNat ("", "")

/-- The identity and the inputs digest the plan derives at an ordinal. -/
def derived (ordinal : Int) : String × String :=
  (loop.plan.iterationIdentity sha256 (loop.element ordinal).1, (loop.element ordinal).2)

/-- `min(len(self._elements), self.plan.maximum_iterations)`. -/
def reachable : Nat := min loop.elements.length loop.plan.maximumIterations

end BoundLoop

namespace LoopRunner

/-! ### Observation -/

/-- `ledger`. -/
def ledger (runner : LoopRunner) : LoopLedger :=
  ⟨runner.entries, runner.cancellationRequested, runner.late⟩

/-- `in_flight`. -/
def inFlight (runner : LoopRunner) : List IterationLedgerEntry :=
  runner.entries.filter fun entry => !entry.val.isSettled

variable {sha256} (loop : BoundLoop sha256)

/-- `outcome`. -/
def outcome (runner : LoopRunner) : Option LoopOutcome :=
  if runner.state ≠ .SETTLED then none
  else if runner.failureReason ≠ none then some .FAILED
  else if runner.cancellationRequested then some .CANCELLED
  else if runner.entries.length < loop.reachable ∨
      runner.entries.any (fun entry => entry.val.outcome = some .FAILED) then some .INCOMPLETE
  else some .SUCCEEDED

/-- The succeeded iterations in the guaranteed order. -/
def orderedSucceeded (runner : LoopRunner) : List IterationLedgerEntry :=
  let succeeded := runner.entries.filter fun entry => entry.val.outcome = some .SUCCEEDED
  match loop.plan.orderGuarantee with
  | .SETTLEMENT_ORDER =>
    sortBy (fun entry : IterationLedgerEntry => entry.val.settlementSequence.getD 0) succeeded
  | .ITERATION_IDENTITY_ORDER =>
    sortBy (fun entry : IterationLedgerEntry => entry.val.ordinal) succeeded

/-- `gather`. -/
def gather (runner : LoopRunner) (partially : Bool) : Except ExecutionError (List String) :=
  match runner.failureReason with
  | some reason => .error (.refused "loop_failed"
      s!"a loop that failed with {quoted reason} has no gather")
  | none => do
    require (partially = true ∨ runner.outcome loop ≠ some .INCOMPLETE)
      (.refused "loop_incomplete"
        "a loop that did not run every iteration clean has no whole gather")
    pure ((runner.orderedSucceeded loop).filterMap fun entry =>
      entry.val.outputsDigest.filter (· ≠ ""))

/-! ### Planning and launching -/

/-- `plan_launches`. -/
def planLaunches (runner : LoopRunner) (schedulingIntents : List String) :
    Except ExecutionError (List IterationLaunch) :=
  if runner.state ≠ .RUNNING then pure []
  else
    let launched := runner.entries.map fun entry => entry.val.ordinal
    let available := (loop.plan.maximumConcurrency : Int) - runner.inFlight.length
    if available < 1 then pure []
    else
      let unlaunched := (List.range loop.reachable).filter fun ordinal : Nat =>
        (ordinal : Int) ∉ launched
      (unlaunched.take available.toNat).mapM fun ordinal : Nat => Validated.build LaunchMembers.postInit
        { iterationIdentity := (loop.derived ordinal).1
          ordinal
          inputsDigest := (loop.derived ordinal).2
          carryDigest := if loop.plan.carryEnabled then runner.carryDigest else none
          schedulingIntents }

/-- `record_launch`. -/
def recordLaunch (launch : IterationLaunch) : Runner IterationLedgerEntry := do
  let runner ← get
  demand (runner.state = .RUNNING)
    (.refused "loop_not_launching" s!"a {runner.state.name} loop launches no iteration")
  demand (∀ entry ∈ runner.entries, ¬(entry.val.ordinal = launch.val.ordinal ∨
      entry.val.iterationIdentity = launch.val.iterationIdentity))
    (.refused "iteration_already_launched" "the ledger already records this iteration")
  demand (launch.val.ordinal < loop.plan.maximumIterations)
    (.refused "loop_exhausted" "the launch is beyond maximum_iterations")
  demand (launch.val.ordinal < loop.elements.length)
    (.refused "unknown_iteration" "the launch is beyond the bound source")
  demand (launch.val.ordinal = runner.entries.length)
    (.refused "ledger_not_contiguous"
      "a launch out of ordinal order would leave a hole in the ledger")
  demand (runner.inFlight.length < loop.plan.maximumConcurrency)
    (.refused "concurrency_exhausted" "the concurrency bound is already saturated")
  demand (launch.val.iterationIdentity = (loop.derived launch.val.ordinal).1 ∧
      launch.val.inputsDigest = (loop.derived launch.val.ordinal).2)
    (.refused "iteration_identity_drift"
      "the launch is not the one this plan derives for its ordinal")
  demand (launch.val.carryDigest = if loop.plan.carryEnabled then runner.carryDigest else none)
    (.refused "carry_drift" "the launch does not carry the loop's current carry")
  let entry ← lift <| Validated.build EntryMembers.postInit
    { iterationIdentity := launch.val.iterationIdentity
      ordinal := launch.val.ordinal
      inputsDigest := launch.val.inputsDigest
      carryDigest := launch.val.carryDigest
      schedulingIntents := launch.val.schedulingIntents
      outcome := none
      outputsDigest := none
      failureReason := none
      settlementSequence := none
      effectSettlements := []
      cancellationDisposition := none
      resultingCarryDigest := none }
  set { runner with entries := runner.entries ++ [entry] }
  pure entry

/-! ### Settlement -/

/-- `_index_of`, with the entry at the index. -/
def indexOf (iterationIdentity : String) : Runner (Nat × IterationLedgerEntry) := do
  let runner ← get
  match runner.entries.zipIdx.find? fun found => found.1.val.iterationIdentity = iterationIdentity with
  | some (entry, index) => pure (index, entry)
  | none => throw (.refused "unknown_iteration" "the ledger records no such iteration identity")

/-- `record_effect_settlement`. -/
def recordEffectSettlement (iterationIdentity : String) (settlement : EffectSettlement) :
    Runner PUnit := do
  let (index, entry) ← indexOf iterationIdentity
  demand (entry.val.isSettled = false)
    (.refused "iteration_already_settled" "a settled iteration records no further effect")
  demand (∀ recorded ∈ entry.val.effectSettlements,
      recorded.val.effectRequestId ≠ settlement.val.effectRequestId)
    (.refused "duplicate_effect_settlement" "the iteration already records this effect settlement")
  let replaced ← lift <| Validated.build EntryMembers.postInit
    { entry.val with effectSettlements := entry.val.effectSettlements ++ [settlement] }
  modify fun runner => { runner with entries := runner.entries.set index replaced }

/-- `if self._state == LOOP_RUNNING: self._state = LOOP_STOPPING`. -/
def stopLaunching (runner : LoopRunner) : LoopRunner :=
  if runner.state = .RUNNING then { runner with state := .STOPPING } else runner

/-- `_apply_partial_success`. -/
def applyPartialSuccess (runner : LoopRunner) : LoopRunner :=
  match loop.plan.partialSuccessPolicy with
  | .RECORD_AND_CONTINUE => runner
  | .RECORD_AND_STOP_AFTER_CURRENT => stopLaunching runner
  | .FAIL_LOOP =>
    if runner.failureReason = none then
      { stopLaunching runner with failureReason := some "iteration_failed" }
    else stopLaunching runner

/-- The state `_refresh` finds with nothing in flight. -/
def markSettled (runner : LoopRunner) : LoopRunner :=
  if runner.state = .STOPPING ∨ loop.reachable ≤ runner.entries.length then
    { runner with state := .SETTLED }
  else runner

/-- An iteration beyond the frozen bound fails a settled loop; it never extends it. -/
def failOverflow (runner : LoopRunner) : LoopRunner :=
  if runner.state = .SETTLED ∧ runner.failureReason = none ∧
      loop.plan.maximumIterations < loop.elements.length ∧
      loop.plan.maximumIterations ≤ runner.entries.length then
    { runner with failureReason := some "maximum_iterations_exceeded" }
  else runner

/-- `_refresh`. -/
def refresh (runner : LoopRunner) : LoopRunner :=
  if runner.state = .SETTLED ∨ runner.inFlight ≠ [] then runner
  else failOverflow loop (markSettled loop runner)

/-- The writes of `settle`. -/
def settled (index : Nat) (entry : IterationLedgerEntry) (runner : LoopRunner) : LoopRunner :=
  let sequence := runner.sequence + 1
  let recorded :=
    { runner with
      sequence
      sequences := insert sequence runner.sequences
      entries := runner.entries.set index entry
      carryDigest := entry.val.resultingCarryDigest.or runner.carryDigest }
  refresh loop (if entry.val.outcome = some .FAILED then applyPartialSuccess loop recorded else recorded)

/-- `settle`. -/
def settle (iterationIdentity outcome : String)
    (outputsDigest failureReason resultingCarryDigest : Option String) :
    Runner IterationLedgerEntry := do
  let outcome ← lift (IterationOutcome.require "outcome" outcome)
  demand (outcome ≠ .CANCELLED)
    (.refused "cancellation_not_a_settlement"
      "an iteration is cancelled by the loop's cancellation policy, not settled cancelled")
  let (index, entry) ← indexOf iterationIdentity
  demand (entry.val.isSettled = false)
    (.refused "iteration_already_settled" "the iteration is already settled")
  demand (resultingCarryDigest = none ∨ loop.plan.carryEnabled = true)
    (.contract "invalid_settlement" "a carry digest requires a carrying plan")
  let runner ← get
  let replaced ← lift <| Validated.build EntryMembers.postInit
    { entry.val with
      outcome := some outcome
      outputsDigest
      failureReason
      settlementSequence := some (runner.sequence + 1)
      resultingCarryDigest }
  modify (settled loop index replaced)
  pure replaced

/-! ### Cancellation -/

/-- The sweep of `cancel`, from an index on. -/
def sweepFrom (index : Nat) : List IterationLedgerEntry → Runner (List IterationLedgerEntry)
  | [] => pure []
  | entry :: rest =>
    if entry.val.isSettled then sweepFrom (index + 1) rest
    else do
      modify fun runner => { runner with
        sequence := runner.sequence + 1
        sequences := insert (runner.sequence + 1) runner.sequences }
      let runner ← get
      let swept ← lift <| Validated.build EntryMembers.postInit
        { entry.val with
          outcome := some .CANCELLED
          settlementSequence := some runner.sequence
          cancellationDisposition := some DISPOSITION_CANCELLED_IN_FLIGHT }
      set { runner with entries := runner.entries.set index swept }
      let later ← sweepFrom (index + 1) rest
      pure (swept :: later)

/-- `cancel`. -/
def cancel : Runner (List IterationLedgerEntry) := do
  modify fun runner => { runner with cancellationRequested := true }
  if loop.plan.cancellationPolicy = .COMPLETE_ALL then pure []
  else do
    modify stopLaunching
    let runner ← get
    let cancelled ← if loop.plan.cancellationPolicy = .CANCEL_REMAINING then
      sweepFrom 0 runner.entries else pure []
    modify (refresh loop)
    pure cancelled

/-! ### Late results -/

/-- `_admit_late`. -/
def admitLate (late : LateResult) : Runner LateResult := do
  let runner ← get
  demand (runner.state = .SETTLED)
    (.refused "loop_not_settled" "a result before the loop settles is not late")
  let _ ← indexOf late.val.iterationIdentity
  demand (∀ recorded ∈ runner.late, recorded.val.iterationIdentity ≠ late.val.iterationIdentity)
    (.refused "duplicate_late_result" "the iteration already records a late result")
  set { runner with late := runner.late ++ [late] }
  pure late

/-- `record_late_result`. -/
def recordLateResult (iterationIdentity evidenceRef : String) : Runner LateResult := do
  let late ← lift <| Validated.build LateMembers.postInit
    { iterationIdentity, evidenceRef, appliedToRunState := false }
  admitLate late

/-! ### Replay -/

/-- What `_replay_carry` does at the first launch of a loop that was given no initial carry. -/
def adoptCarry (entry : IterationLedgerEntry) : Runner PUnit := do
  let runner ← get
  if runner.carryAsserted = true ∨ runner.entries ≠ [] then pure ⟨⟩
  else do
    demand (entry.val.carryDigest ≠ none)
      (.refused "carry_drift" "a carrying ledger must record its frozen initial carry")
    set { runner with carryDigest := entry.val.carryDigest, carryAsserted := true }

/-- `_replay_carry`. -/
def replayCarry (entry : IterationLedgerEntry) : Runner PUnit :=
  if loop.plan.carryEnabled = false then
    demand (entry.val.carryDigest = none)
      (.refused "carry_drift" "a non-carrying plan records no carry digest")
  else do
    adoptCarry entry
    let runner ← get
    demand (entry.val.carryDigest = runner.carryDigest)
      (.refused "carry_drift" "a recorded launch does not carry the carry the ledger replays")

def replaySequence (entry : IterationLedgerEntry) : Runner PUnit :=
  match entry.val.settlementSequence with
  | none => pure ⟨⟩
  | some sequence => do
    let runner ← get
    demand (sequence ∉ runner.sequences)
      (.refused "duplicate_settlement_sequence"
        "the ledger settles two iterations at the same sequence")
    set { runner with
      sequences := insert sequence runner.sequences
      sequence := max runner.sequence sequence }

/-- The writes of `_replay` after its checks. -/
def replayed (entry : IterationLedgerEntry) (runner : LoopRunner) : LoopRunner :=
  let recorded := { runner with
    entries := runner.entries ++ [entry]
    carryDigest := entry.val.resultingCarryDigest.or runner.carryDigest }
  if entry.val.outcome = some .FAILED then applyPartialSuccess loop recorded else recorded

/-- `_replay`. -/
def replay (entry : IterationLedgerEntry) : Runner PUnit := do
  let runner ← get
  demand (entry.val.ordinal = runner.entries.length)
    (.refused "ledger_not_contiguous" "the ledger is not contiguous in ordinal launch order")
  demand (0 ≤ entry.val.ordinal ∧ entry.val.ordinal < loop.elements.length)
    (.refused "iteration_identity_drift" "a recorded ordinal is outside the bound source")
  demand (entry.val.ordinal < loop.plan.maximumIterations)
    (.refused "loop_exhausted" "a recorded ordinal is beyond maximum_iterations")
  demand (entry.val.iterationIdentity = (loop.derived entry.val.ordinal).1)
    (.refused "iteration_identity_drift"
      "a recorded iteration identity is not the one this plan derives")
  demand (entry.val.inputsDigest = (loop.derived entry.val.ordinal).2)
    (.refused "iteration_identity_drift"
      "a recorded iteration's inputs digest is not the one this source derives")
  demand (∀ recorded ∈ runner.entries, recorded.val.iterationIdentity ≠ entry.val.iterationIdentity)
    (.refused "duplicate_iteration" "the ledger records the same iteration twice")
  replayCarry loop entry
  replaySequence entry
  modify (replayed loop entry)

/-- The settlement sequences of the iterations settled cancelled. -/
def sweptSequences (runner : LoopRunner) : List Int :=
  (runner.entries.filter fun entry => entry.val.outcome = some .CANCELLED).filterMap
    fun entry => entry.val.settlementSequence

/-- `set(range(1, n + 1))`. -/
def countedFromOne (n : Nat) : Finset Int := (Finset.range n).image fun k : Nat => (k : Int) + 1

/-- `_require_replayable_ledger`. -/
def requireReplayableLedger (cancellationRequested : Bool) : Runner PUnit := do
  let runner ← get
  demand (runner.sequences = countedFromOne runner.sequences.card)
    (.refused "settlement_not_contiguous"
      "the ledger's settlement sequences are not 1..n without gap or repeat")
  demand (runner.inFlight.length ≤ loop.plan.maximumConcurrency)
    (.refused "concurrency_exhausted"
      "the ledger records more iterations in flight than the frozen bound")
  let cancelled := runner.entries.any fun entry => entry.val.outcome = some .CANCELLED
  demand (cancelled = true → cancellationRequested = true)
    (.refused "cancellation_not_recorded"
      "the ledger settles an iteration cancelled but records no cancellation")
  demand (cancelled = true → loop.plan.cancellationPolicy = .CANCEL_REMAINING)
    (.refused "cancellation_not_possible"
      s!"a {loop.plan.cancellationPolicy.name} plan settles no iteration cancelled")
  -- after the least of the swept sequences nothing else settles
  demand (∀ first ∈ runner.sweptSequences.min?, ∀ entry ∈ runner.entries,
      ∀ sequence ∈ entry.val.settlementSequence, first < sequence →
        entry.val.outcome = some .CANCELLED)
    (.refused "settlement_after_stop"
      "the ledger settles an iteration after the cancellation swept the loop")

def start (carryDigest : Option String) : LoopRunner where
  entries := []
  late := []
  carryDigest
  carryAsserted := carryDigest.isSome
  state := .RUNNING
  failureReason := none
  cancellationRequested := false
  sequence := 0
  sequences := ∅

/-- The checks of `LoopRunner.__init__` on the initial carry. -/
def requireInitialCarry (ledger : LoopLedger) : Option String → Runner PUnit
  | some digest => do
    demand (loop.plan.carryEnabled = true)
      (.contract "invalid_loop_plan" "a carry digest requires a carrying plan")
    lift (checkDigest "carry_digest" digest)
  | none =>
    demand (loop.plan.carryEnabled = false ∨ ledger.entries ≠ [])
      (.contract "invalid_loop_plan" "a new carrying loop requires its frozen initial carry digest")

/-- The recorded posture, applied as the live runner applied it. -/
def resumeCancellation (cancellationRequested : Bool) : Runner PUnit :=
  if cancellationRequested = true then (fun _ => ⟨⟩) <$> cancel loop else pure ⟨⟩

def replayAll : List IterationLedgerEntry → Runner PUnit
  | [] => pure ⟨⟩
  | entry :: entries => do
    replay loop entry
    replayAll entries

def admitAll : List LateResult → Runner PUnit
  | [] => pure ⟨⟩
  | late :: lateResults => do
    let _ ← admitLate late
    admitAll lateResults

/-- `LoopRunner.__init__` after the elements are resolved. -/
def init (ledger : LoopLedger) (carryDigest : Option String) : Runner PUnit := do
  requireInitialCarry loop ledger carryDigest
  replayAll loop ledger.entries
  requireReplayableLedger loop ledger.cancellationRequested
  resumeCancellation loop ledger.cancellationRequested
  modify (refresh loop)
  admitAll ledger.lateResults

end LoopRunner

/-- `LoopRunner(…)`: what it is bound to, and the runner. -/
def LoopRunner.construct (plan : FrozenLoopPlan) (source : List LoopElement)
    (zipSources : List (List LoopElement)) (ledger : LoopLedger) (carryDigest : Option String) :
    Except ExecutionError (BoundLoop sha256 × LoopRunner) := do
  let loop ← resolveElements sha256 plan source zipSources
  match LoopRunner.init loop ledger carryDigest (LoopRunner.start carryDigest) with
  | .ok _ runner => pure (loop, runner)
  | .error e _ => throw e

/-- `replay_ledger`. -/
def replayLedger (plan : FrozenLoopPlan) (source : List LoopElement) (ledger : LoopLedger)
    (zipSources : List (List LoopElement)) (carryDigest : Option String) :
    Except ExecutionError (BoundLoop sha256 × LoopRunner) :=
  LoopRunner.construct sha256 plan source zipSources ledger carryDigest

/-! ## Calls -/

/-- A call of one of the methods that may write. -/
inductive Call where
  | recordLaunch (launch : IterationLaunch)
  | recordEffectSettlement (iterationIdentity : String) (settlement : EffectSettlement)
  | settle (iterationIdentity outcome : String)
      (outputsDigest failureReason resultingCarryDigest : Option String)
  | cancel
  | recordLateResult (iterationIdentity evidenceRef : String)

/-- What a call answers. -/
inductive Answer where
  | entry (entry : IterationLedgerEntry)
  | recorded
  | cancelled (entries : List IterationLedgerEntry)
  | late (late : LateResult)

variable {sha256} (loop : BoundLoop sha256)

def Call.perform : Call → Runner Answer
  | .recordLaunch launch => Answer.entry <$> LoopRunner.recordLaunch loop launch
  | .recordEffectSettlement iterationIdentity settlement =>
    (fun _ => Answer.recorded) <$> LoopRunner.recordEffectSettlement iterationIdentity settlement
  | .settle iterationIdentity outcome outputsDigest failureReason resultingCarryDigest =>
    Answer.entry <$>
      LoopRunner.settle loop iterationIdentity outcome outputsDigest failureReason resultingCarryDigest
  | .cancel => Answer.cancelled <$> LoopRunner.cancel loop
  | .recordLateResult iterationIdentity evidenceRef =>
    Answer.late <$> LoopRunner.recordLateResult iterationIdentity evidenceRef

def LoopRunner.step (runner : LoopRunner) (call : Call) : LoopRunner :=
  finalState (call.perform loop runner)

end OmniviaCore.Execution.Loop
