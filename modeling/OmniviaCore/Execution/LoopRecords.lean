import OmniviaCore.Execution.Profile
import OmniviaCore.Lib.Validated

/-!
# The values of the loop seam

From `execution/loop.py`: the frozen plan and its source elements, one atomic launch, one settled
effect, one ledger entry, one late result, and the whole ledger. A value whose constructor runs a
check is a `Validated` one, so an incoherent entry is not a value here. What a validated entry is
known to satisfy is `EntryMembers.Shaped` and `EntryMembers.Coherent` (`postInit_eq_ok`).
-/

namespace OmniviaCore.Execution.Loop

open Lib

/-! ## Vocabularies -/

/-- `LOOP_MODES`. -/
inductive LoopMode where
  | SEQUENTIAL
  | PARALLEL
  deriving DecidableEq

/-- `LOOP_ORDER_GUARANTEES`. -/
inductive OrderGuarantee where
  | ITERATION_IDENTITY_ORDER
  | SETTLEMENT_ORDER
  deriving DecidableEq

/-- `LOOP_CANCELLATION_POLICIES`. -/
inductive CancellationPolicy where
  | CANCEL_REMAINING
  | DRAIN_IN_FLIGHT
  | COMPLETE_ALL
  deriving DecidableEq

/-- `LOOP_PARTIAL_SUCCESS_POLICIES`. -/
inductive PartialSuccessPolicy where
  | FAIL_LOOP
  | RECORD_AND_CONTINUE
  | RECORD_AND_STOP_AFTER_CURRENT
  deriving DecidableEq

/-- `LOOP_ZIP_MISMATCH_POLICIES`. -/
inductive ZipMismatchPolicy where
  | REFUSE
  | TRUNCATE_TO_SHORTEST
  | PAD_WITH_ABSENT
  deriving DecidableEq

/-- `ITERATION_OUTCOMES`. -/
inductive IterationOutcome where
  | SUCCEEDED
  | FAILED
  | CANCELLED
  | SKIPPED
  deriving DecidableEq

/-- `EFFECT_SETTLEMENT_CLASSES`. -/
inductive SettlementClass where
  | committed
  | not_committed
  | unknown
  deriving DecidableEq

def CancellationPolicy.name : CancellationPolicy → String
  | .CANCEL_REMAINING => "CANCEL_REMAINING"
  | .DRAIN_IN_FLIGHT => "DRAIN_IN_FLIGHT"
  | .COMPLETE_ALL => "COMPLETE_ALL"

def IterationOutcome.name : IterationOutcome → String
  | .SUCCEEDED => "SUCCEEDED"
  | .FAILED => "FAILED"
  | .CANCELLED => "CANCELLED"
  | .SKIPPED => "SKIPPED"

def SettlementClass.name : SettlementClass → String
  | .committed => "committed"
  | .not_committed => "not_committed"
  | .unknown => "unknown"

def outsideVocabulary (fieldName value : String) : ExecutionError :=
  .contract "unknown_vocabulary_member"
    s!"{fieldName} {quoted value} is not a member of its closed vocabulary"

/-- `require_vocabulary`, which reads the member of a closed vocabulary out of its spelling. -/
def requireVocabulary {α : Type} (name : α → String) (allowed : List α) (fieldName value : String) :
    Except ExecutionError α :=
  match allowed.find? fun member => name member = value with
  | some member => .ok member
  | none => .error (outsideVocabulary fieldName value)

def IterationOutcome.require (fieldName value : String) : Except ExecutionError IterationOutcome :=
  requireVocabulary IterationOutcome.name [.SUCCEEDED, .FAILED, .CANCELLED, .SKIPPED] fieldName value

def SettlementClass.require (fieldName value : String) : Except ExecutionError SettlementClass :=
  requireVocabulary SettlementClass.name [.committed, .not_committed, .unknown] fieldName value

@[simp] theorem IterationOutcome.require_name (fieldName : String) (outcome : IterationOutcome) :
    IterationOutcome.require fieldName outcome.name = .ok outcome := by
  cases outcome <;> rfl

@[simp] theorem SettlementClass.require_name (fieldName : String) (settlementClass : SettlementClass) :
    SettlementClass.require fieldName settlementClass.name = .ok settlementClass := by
  cases settlementClass <;> rfl

def DISPOSITION_CANCELLED_IN_FLIGHT : String := "CANCELLED_IN_FLIGHT"

def MAX_LOOP_ITERATIONS : Nat := 10000

def MAX_LOOP_NESTING : Nat := 16

def MAX_EFFECT_SETTLEMENTS : Nat := 64

/-! ## Checks of a constructor -/

/-- `require_identifier`. -/
def checkIdentifier (fieldName value : String) : Except ExecutionError Unit :=
  require (isIdentifier value = true)
    (.contract "invalid_identifier" s!"{fieldName} is not a bounded lowercase identifier")

/-- `require_digest`. -/
def checkDigest (fieldName value : String) : Except ExecutionError Unit :=
  require (isDigest value = true)
    (.contract "invalid_digest" s!"{fieldName} is not spelled sha256:<64 lowercase hex>")

def checkOptional (check : String → String → Except ExecutionError Unit) (fieldName : String) :
    Option String → Except ExecutionError Unit
  | none => pure ()
  | some value => check fieldName value

/-- `require_collection` of identifiers that need not declare any. -/
def checkCollection (fieldName : String) (values : List String) : Except ExecutionError Unit := do
  require (values.length ≤ MAX_COLLECTION_LENGTH)
    (.contract "collection_too_large" s!"{fieldName} exceeds its bound")
  require (values.all isIdentifier = true)
    (.contract "invalid_identifier" s!"{fieldName} entry is not a bounded lowercase identifier")
  require values.Nodup (.contract "duplicate_entry" s!"{fieldName} declares the same entry twice")

@[simp] theorem checkIdentifier_eq_ok {fieldName value : String} {u : Unit} :
    checkIdentifier fieldName value = .ok u ↔ isIdentifier value = true := by
  simp [checkIdentifier]

@[simp] theorem checkDigest_eq_ok {fieldName value : String} {u : Unit} :
    checkDigest fieldName value = .ok u ↔ isDigest value = true := by
  simp [checkDigest]

theorem checkOptional_eq_ok {check : String → String → Except ExecutionError Unit}
    {fieldName : String} {value : Option String} {u : Unit} :
    checkOptional check fieldName value = .ok u ↔ ∀ text ∈ value, check fieldName text = .ok u := by
  cases value with
  | none => simp [checkOptional]
  | some text => simp [checkOptional]

/-- A collection that `require_collection` accepts. -/
structure BoundedCollection (values : List String) : Prop where
  length_le : values.length ≤ MAX_COLLECTION_LENGTH
  isIdentifier : values.all isIdentifier = true
  nodup : values.Nodup

@[simp] theorem checkCollection_eq_ok {fieldName : String} {values : List String} {u : Unit} :
    checkCollection fieldName values = .ok u ↔ BoundedCollection values := by
  simp only [checkCollection, bind_eq_ok, exists_unit, require_eq_ok]
  constructor
  · rintro ⟨hlength, hidentifier, hnodup⟩
    exact ⟨hlength, hidentifier, hnodup⟩
  · rintro ⟨hlength, hidentifier, hnodup⟩
    exact ⟨hlength, hidentifier, hnodup⟩

/-! ## The plan and its source -/

/-- `LoopElement`. -/
structure LoopElement where
  key : String
  payloadDigest : String
  key_valid : isIdentifier key = true
  payloadDigest_valid : isDigest payloadDigest = true

/-- `FrozenLoopPlan`: the fields its constructor checks, and that they passed. The enclosing
iteration identities are its `namespace`. -/
structure FrozenLoopPlan where
  loopStableId : String
  mode : LoopMode
  orderGuarantee : OrderGuarantee
  maximumIterations : Nat
  cancellationPolicy : CancellationPolicy
  partialSuccessPolicy : PartialSuccessPolicy
  maximumConcurrency : Nat
  zipMismatchPolicy : Option ZipMismatchPolicy
  carryEnabled : Bool
  enclosing : List String
  loopStableId_valid : isIdentifier loopStableId = true
  maximumIterations_mem : 0 < maximumIterations ∧ maximumIterations ≤ MAX_LOOP_ITERATIONS
  parallel_concurrency : mode = .PARALLEL →
    0 < maximumConcurrency ∧ maximumConcurrency ≤ maximumIterations
  sequential_concurrency : mode = .SEQUENTIAL → maximumConcurrency = 1
  carry_sequential : carryEnabled = true → mode = .SEQUENTIAL
  enclosing_length : enclosing.length ≤ MAX_LOOP_NESTING
  enclosing_valid : ∀ entry ∈ enclosing, isDigest entry = true

namespace FrozenLoopPlan

variable (plan : FrozenLoopPlan) (sha256 : List UInt8 → String)

/-- What `iteration_identity` digests. -/
def identityParts (elementKey : String) : List String :=
  plan.enclosing ++ [plan.loopStableId, elementKey]

/-- `iteration_identity`. -/
def iterationIdentity (elementKey : String) : String :=
  deriveId sha256 (plan.identityParts elementKey)

/-- `nested`: another plan, re-namespaced under one of this loop's iterations. -/
def nested (iterationIdentity : String) (other : FrozenLoopPlan) :
    Except ExecutionError FrozenLoopPlan :=
  if hdigest : isDigest iterationIdentity = true then
    if hlength : (plan.enclosing ++ [iterationIdentity]).length ≤ MAX_LOOP_NESTING then
      .ok { other with
        enclosing := plan.enclosing ++ [iterationIdentity]
        enclosing_length := hlength
        enclosing_valid := by
          intro entry hentry
          rcases List.mem_append.1 hentry with hentry | hentry
          · exact plan.enclosing_valid entry hentry
          · rw [List.mem_singleton.1 hentry]
            exact hdigest }
    else .error (.contract "invalid_loop_plan" s!"namespace nests beyond {MAX_LOOP_NESTING}")
  else .error (.contract "invalid_digest"
    "iteration_identity is not spelled sha256:<64 lowercase hex>")

end FrozenLoopPlan

/-! ## One launch -/

/-- The members of an `IterationLaunch`. -/
structure LaunchMembers where
  iterationIdentity : String
  ordinal : Int
  inputsDigest : String
  carryDigest : Option String
  schedulingIntents : List String

/-- `IterationLaunch.__post_init__`. -/
def LaunchMembers.postInit (launch : LaunchMembers) : Except ExecutionError Unit := do
  checkDigest "iteration_identity" launch.iterationIdentity
  require (0 ≤ launch.ordinal) (.contract "invalid_ordinal" "ordinal must be non-negative")
  checkDigest "inputs_digest" launch.inputsDigest
  checkOptional checkDigest "carry_digest" launch.carryDigest
  checkCollection "scheduling_intents" launch.schedulingIntents

/-- `IterationLaunch`. -/
abbrev IterationLaunch := Validated LaunchMembers.postInit

/-! ## One settled effect -/

/-- The members of an `EffectSettlement`. -/
structure SettlementMembers where
  effectRequestId : String
  settlementClass : SettlementClass
  completionContribution : String
  verifiedReceiptRef : Option String

/-- `EffectSettlement.__post_init__`, after the class was read. -/
def SettlementMembers.postInit (settlement : SettlementMembers) : Except ExecutionError Unit := do
  checkIdentifier "effect_request_id" settlement.effectRequestId
  checkIdentifier "completion_contribution" settlement.completionContribution
  require (settlement.settlementClass = .committed ↔ settlement.verifiedReceiptRef.isSome = true)
    (.contract "invalid_effect_settlement"
      "a verified receipt is recorded exactly for a committed settlement")
  checkOptional checkIdentifier "verified_receipt_ref" settlement.verifiedReceiptRef

/-- `EffectSettlement`. -/
abbrev EffectSettlement := Validated SettlementMembers.postInit

/-- `EffectSettlement(…)` of a class that is spelled out: it is read between the first check and the
others. -/
def EffectSettlement.construct (effectRequestId settlementClass completionContribution : String)
    (verifiedReceiptRef : Option String) : Except ExecutionError EffectSettlement := do
  checkIdentifier "effect_request_id" effectRequestId
  let settlementClass ← SettlementClass.require "settlement_class" settlementClass
  Validated.build SettlementMembers.postInit
    { effectRequestId, settlementClass, completionContribution, verifiedReceiptRef }

/-! ## One ledger entry -/

/-- The members of an `IterationLedgerEntry`. -/
structure EntryMembers where
  iterationIdentity : String
  ordinal : Int
  inputsDigest : String
  carryDigest : Option String
  schedulingIntents : List String
  outcome : Option IterationOutcome
  outputsDigest : Option String
  failureReason : Option String
  settlementSequence : Option Int
  effectSettlements : List EffectSettlement
  cancellationDisposition : Option String
  resultingCarryDigest : Option String

/-- `_require_effect_settlements`. -/
def requireEffectSettlements (values : List EffectSettlement) : Except ExecutionError Unit := do
  require (values.length ≤ MAX_EFFECT_SETTLEMENTS)
    (.contract "collection_too_large" "effect_settlements exceeds its bound")
  require (values.map fun value => value.val.effectRequestId).Nodup
    (.contract "duplicate_entry" "effect_settlements settles the same effect twice")

namespace EntryMembers

variable (entry : EntryMembers)

/-- The checks of `IterationLedgerEntry.__post_init__` before the outcome. -/
def checkShape : Except ExecutionError Unit := do
  checkDigest "iteration_identity" entry.iterationIdentity
  require (0 ≤ entry.ordinal) (.contract "invalid_ordinal" "ordinal must be non-negative")
  checkDigest "inputs_digest" entry.inputsDigest
  checkOptional checkDigest "carry_digest" entry.carryDigest
  checkOptional checkDigest "outputs_digest" entry.outputsDigest
  checkOptional checkDigest "resulting_carry_digest" entry.resultingCarryDigest
  checkOptional checkIdentifier "failure_reason" entry.failureReason
  checkCollection "scheduling_intents" entry.schedulingIntents
  requireEffectSettlements entry.effectSettlements

/-- What `_validate_settlement` asks of outputs and failure under an outcome. -/
def checkClass : IterationOutcome → Except ExecutionError Unit
  | .SUCCEEDED => require (entry.outputsDigest ≠ none ∧ entry.failureReason = none)
      (.contract "invalid_settlement" "a succeeded iteration records outputs and no failure")
  | .FAILED => require (entry.outputsDigest = none ∧ entry.failureReason.getD "" ≠ "")
      (.contract "invalid_settlement" "a failed iteration records a failure and no outputs")
  | outcome => require (entry.outputsDigest = none ∧ entry.failureReason = none)
      (.contract "invalid_settlement"
        s!"a {outcome.name} iteration records neither outputs nor a failure")

/-- `_validate_settlement`. -/
def validateSettlement : Except ExecutionError Unit :=
  match entry.outcome with
  | none =>
    require (entry.outputsDigest = none ∧ entry.failureReason = none ∧
        entry.settlementSequence = none ∧ entry.cancellationDisposition = none ∧
        entry.resultingCarryDigest = none)
      (.contract "invalid_settlement" "an unsettled iteration records no settlement of any kind")
  | some outcome => do
    require (1 ≤ entry.settlementSequence.getD 0)
      (.contract "invalid_settlement"
        "a settled iteration records a positive settlement sequence")
    entry.checkClass outcome
    require (outcome = .CANCELLED ↔ entry.cancellationDisposition.isSome = true)
      (.contract "invalid_settlement"
        "a cancellation disposition is recorded exactly for a cancelled iteration")
    require (outcome = .CANCELLED →
        entry.cancellationDisposition.getD "" = DISPOSITION_CANCELLED_IN_FLIGHT)
      (outsideVocabulary "cancellation_disposition" (entry.cancellationDisposition.getD ""))
    require (entry.resultingCarryDigest = none ∨ outcome = .SUCCEEDED)
      (.contract "invalid_settlement" s!"a {outcome.name} iteration produces no carry")

/-- `IterationLedgerEntry.__post_init__`, after the outcome was read. -/
def postInit : Except ExecutionError Unit := do
  entry.checkShape
  entry.validateSettlement

/-- `is_settled`. -/
def isSettled : Bool := entry.outcome.isSome

end EntryMembers

/-- `IterationLedgerEntry`. -/
abbrev IterationLedgerEntry := Validated EntryMembers.postInit

/-- `IterationLedgerEntry(…)` of an outcome that is spelled out: it is read after the checks of the
other members. -/
def IterationLedgerEntry.construct (members : EntryMembers) (outcome : Option String) :
    Except ExecutionError IterationLedgerEntry := do
  members.checkShape
  let outcome ← outcome.mapM (IterationOutcome.require "outcome")
  Validated.build EntryMembers.postInit { members with outcome }

/-! ## Late results and the ledger -/

/-- The members of a `LateResult`. -/
structure LateMembers where
  iterationIdentity : String
  evidenceRef : String
  appliedToRunState : Bool

/-- `LateResult.__post_init__`. -/
def LateMembers.postInit (late : LateMembers) : Except ExecutionError Unit := do
  checkDigest "iteration_identity" late.iterationIdentity
  checkIdentifier "evidence_ref" late.evidenceRef
  require (late.appliedToRunState = false)
    (.contract "late_result_applied" "a late result is Evidence and is never applied to Run state")

/-- `LateResult`. -/
abbrev LateResult := Validated LateMembers.postInit

/-- `LoopLedger`. -/
structure LoopLedger where
  entries : List IterationLedgerEntry
  cancellationRequested : Bool
  lateResults : List LateResult

/-- `EMPTY_LOOP_LEDGER`. -/
def EMPTY_LOOP_LEDGER : LoopLedger := ⟨[], false, []⟩

/-! ## What a validated entry satisfies -/

/-- What holds of an entry whatever its outcome. -/
structure EntryMembers.Shaped (entry : EntryMembers) : Prop where
  iterationIdentity : isDigest entry.iterationIdentity = true
  ordinal : 0 ≤ entry.ordinal
  inputsDigest : isDigest entry.inputsDigest = true
  carryDigest : ∀ digest ∈ entry.carryDigest, isDigest digest = true
  outputsDigest : ∀ digest ∈ entry.outputsDigest, isDigest digest = true
  resultingCarryDigest : ∀ digest ∈ entry.resultingCarryDigest, isDigest digest = true
  failureReason : ∀ reason ∈ entry.failureReason, isIdentifier reason = true
  schedulingIntents : BoundedCollection entry.schedulingIntents
  effects_length : entry.effectSettlements.length ≤ MAX_EFFECT_SETTLEMENTS
  effects_nodup : (entry.effectSettlements.map fun value => value.val.effectRequestId).Nodup

/-- What the members of a settlement are under an outcome. -/
def EntryMembers.Coherent (entry : EntryMembers) : Prop :=
  match entry.outcome with
  | none => entry.outputsDigest = none ∧ entry.failureReason = none ∧
      entry.settlementSequence = none ∧ entry.cancellationDisposition = none ∧
      entry.resultingCarryDigest = none
  | some outcome => (∃ sequence, entry.settlementSequence = some sequence ∧ 1 ≤ sequence) ∧
      (match outcome with
        | .SUCCEEDED => entry.outputsDigest ≠ none ∧ entry.failureReason = none
        | .FAILED => entry.outputsDigest = none ∧ entry.failureReason.getD "" ≠ ""
        | _ => entry.outputsDigest = none ∧ entry.failureReason = none) ∧
      entry.cancellationDisposition =
        (if outcome = .CANCELLED then some DISPOSITION_CANCELLED_IN_FLIGHT else none) ∧
      (entry.resultingCarryDigest = none ∨ outcome = .SUCCEEDED)

namespace EntryMembers

variable {entry : EntryMembers}

theorem checkShape_eq_ok {u : Unit} : entry.checkShape = .ok u ↔ entry.Shaped := by
  simp only [checkShape, requireEffectSettlements, bind_eq_ok, exists_unit, require_eq_ok,
    checkDigest_eq_ok, checkOptional_eq_ok, checkIdentifier_eq_ok, checkCollection_eq_ok]
  constructor
  · rintro ⟨h₁, h₂, h₃, h₄, h₅, h₆, h₇, h₈, h₉, h₁₀⟩
    exact ⟨h₁, h₂, h₃, h₄, h₅, h₆, h₇, h₈, h₉, h₁₀⟩
  · rintro ⟨h₁, h₂, h₃, h₄, h₅, h₆, h₇, h₈, h₉, h₁₀⟩
    exact ⟨h₁, h₂, h₃, h₄, h₅, h₆, h₇, h₈, h₉, h₁₀⟩

theorem validateSettlement_eq_ok {u : Unit} : entry.validateSettlement = .ok u ↔ entry.Coherent := by
  unfold validateSettlement Coherent
  cases houtcome : entry.outcome with
  | none => simp only [require_eq_ok]
  | some outcome =>
    have hsequence : (1 ≤ entry.settlementSequence.getD 0) ↔
        ∃ sequence, entry.settlementSequence = some sequence ∧ 1 ≤ sequence := by
      cases entry.settlementSequence with
      | none => simp
      | some sequence => simp
    cases entry.cancellationDisposition with
    | none => cases outcome <;> simp [checkClass, hsequence, and_assoc]
    | some disposition => cases outcome <;> simp [checkClass, hsequence, and_assoc]

theorem postInit_eq_ok {u : Unit} : entry.postInit = .ok u ↔ entry.Shaped ∧ entry.Coherent := by
  simp only [postInit, bind_eq_ok, exists_unit, checkShape_eq_ok, validateSettlement_eq_ok]

end EntryMembers

end OmniviaCore.Execution.Loop
