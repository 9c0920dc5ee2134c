import OmniviaCore.Lib.Check
import OmniviaCore.Lib.Dict
import OmniviaCore.Lib.Kleene
import OmniviaCore.Lib.Stateful
import OmniviaCore.Knowledge.Instants

/-!
# Applicability expressions and their evaluation

The evaluator of `governed_knowledge/applicability.py`: typed operands, the facts of a task, expressions
of typed comparisons under `all`, `any` and `not`, and `evaluate_applicability`, which walks the required
expression and then the exceptions with a ledger of the facts it looked up. Values carry the checks of
their `__post_init__`. A `Decimal` is finite, and two are compared as numbers.
-/

namespace OmniviaCore.Knowledge

open Lib

/-! ## Operands -/

/-- A finite `Decimal`. -/
structure DecimalNumber where
  negative : Bool
  coefficient : Nat
  exponent : Int

/-- The number a `Decimal` is compared as. -/
def DecimalNumber.value (d : DecimalNumber) : ℚ :=
  (if d.negative then -1 else 1) * d.coefficient * (10 : ℚ) ^ d.exponent

/-- A `literal_value`. -/
inductive LiteralValue where
  | text (s : String)
  | flag (b : Bool)
  deriving DecidableEq

/-- The kind of an operand and the one payload it carries. -/
inductive Payload where
  | factRef (name : String)
  | literal (value : LiteralValue)
  | enum (value : String)
  | numeric (value : DecimalNumber)
  | date (value : TemporalInstant)

/-- What `Operand.__post_init__` asks of a payload and a unit. -/
def Payload.check (unit : Option String) : Payload → Bool
  | .factRef name => !isBlank name
  | .literal _ => true
  | .enum value => !isBlank value
  | .numeric _ => unit.any fun u => !isBlank u
  | .date _ => true

/-- `Operand`. A unit may stand beside any payload. -/
structure Operand where
  payload : Payload
  unit : Option String
  valid : payload.check unit = true

/-- Whether the payload is a typed value: not a reference. -/
def Operand.isValue (operand : Operand) : Bool :=
  match operand.payload with
  | .factRef _ => false
  | _ => true

/-- Two dates are equal when both ends of their intervals are, and differ when the intervals are apart. -/
def datesEqual (left right : TemporalInstant) : Except Raised TruthValue := do
  let (leftStart, leftEnd) ← instantBounds left
  let (rightStart, rightEnd) ← instantBounds right
  pure <| if leftStart.equals rightStart ∧ leftEnd.equals rightEnd then .true
    else if leftEnd.notAfter rightStart ∨ rightEnd.notAfter leftStart then .false
    else .unknown

/-- `_values_equal`. -/
def valuesEqual (left right : Operand) : Except Raised TruthValue :=
  match left.payload, right.payload with
  | .literal v, .literal w => pure (.ofBool (v = w))
  | .enum v, .enum w => pure (.ofBool (v = w))
  | .numeric v, .numeric w =>
    if left.unit ≠ right.unit then pure .unknown else pure (.ofBool (v.value = w.value))
  | .date v, .date w => datesEqual v w
  | .factRef _, .factRef _ => throw .assertionError
  | _, _ => pure .false

/-! ## Facts -/

/-- `FactProvenanceClass`. -/
inductive FactProvenanceClass where
  | userAssumption
  | verifiedOrganisationalRecord
  | authenticatedInstruction
  | externalAttestation
  | unknown
  deriving DecidableEq

def FactProvenanceClass.value : FactProvenanceClass → String
  | .userAssumption => "user_assumption"
  | .verifiedOrganisationalRecord => "verified_organisational_record"
  | .authenticatedInstruction => "authenticated_instruction"
  | .externalAttestation => "external_attestation"
  | .unknown => "unknown"

/-- `FactEntry`. -/
structure FactEntry where
  values : List Operand
  visible : Bool
  provenanceClass : FactProvenanceClass
  typed : ∀ v ∈ values, v.isValue = true

/-- `FactSnapshot`. -/
structure FactSnapshot where
  factSnapshotRef : String
  facts : Dict String FactEntry
  factSnapshotRef_valid : isBlank factSnapshotRef = false
  keys_valid : ∀ fact ∈ facts.entries, isBlank fact.1 = false

/-- The payload of a value as the ledger tells values apart: a date by its `datetime` alone. -/
inductive PayloadKey where
  | factRef
  | literal (value : LiteralValue)
  | enum (value : String)
  | numeric (value : ℚ)
  | date (start : Instant × Option Zone)
  deriving DecidableEq

def Operand.key (operand : Operand) : PayloadKey × Option String :=
  (match operand.payload with
    | .factRef _ => .factRef
    | .literal value => .literal value
    | .enum value => .enum value
    | .numeric value => .numeric value.value
    | .date value => .date value.key, operand.unit)

/-! ## The ledger -/

/-- `_Ledger`. -/
structure Ledger where
  resolvedVisible : Finset String
  unresolvedVisible : Finset String
  hiddenUnresolved : Bool
  provenance : Dict String FactProvenanceClass

def Ledger.empty : Ledger := ⟨∅, ∅, false, ⟨[], List.nodup_nil⟩⟩

def Ledger.unresolved (ledger : Ledger) (name : String) (entry : FactEntry) : Ledger :=
  if entry.visible then
    { ledger with
      provenance := ledger.provenance.set name entry.provenanceClass
      unresolvedVisible := insert name ledger.unresolvedVisible }
  else { ledger with hiddenUnresolved := true }

def Ledger.resolved (ledger : Ledger) (name : String) (entry : FactEntry) : Ledger :=
  if entry.visible then
    { ledger with
      provenance := ledger.provenance.set name entry.provenanceClass
      resolvedVisible := insert name ledger.resolvedVisible }
  else ledger

/-- `len(distinct) > 1`. -/
def FactEntry.conflicting (entry : FactEntry) : Prop :=
  1 < (entry.values.map Operand.key).dedup.length

instance (entry : FactEntry) : Decidable entry.conflicting := by
  unfold FactEntry.conflicting
  infer_instance

/-- `_Ledger.consult`. -/
def consult (name : String) (snapshot : FactSnapshot) : EStateM Raised Ledger (Option Operand) :=
  match snapshot.facts.get name with
  | none => do
    modify fun ledger => { ledger with hiddenUnresolved := true }
    pure none
  | some entry =>
    match entry.values with
    | [] => do
      modify fun ledger => ledger.unresolved name entry
      pure none
    | value :: _ => do
      if entry.conflicting then do
        modify fun ledger => ledger.unresolved name entry
        pure none
      else do
        modify fun ledger => ledger.resolved name entry
        pure (some value)

/-! ## Expressions -/

/-- `BooleanOperator`. -/
inductive BooleanOperator where
  | all
  | any
  | not
  deriving DecidableEq

/-- The orderings of numbers and of dates. -/
inductive OrderRelation where
  | lt
  | lte
  | gt
  | gte
  deriving DecidableEq

/-- `ComparisonOperator`. -/
inductive ComparisonOperator where
  | equals
  | memberOf
  | numeric (relation : OrderRelation)
  | date (relation : OrderRelation)

def MAX_NODES : Nat := 64

def MAX_DEPTH : Nat := 8

def MAX_SET_MEMBERS : Nat := 100

/-- The kind of right operand an operator takes. -/
def ComparisonOperator.takes : ComparisonOperator → Payload → Bool
  | .equals, payload => match payload with
    | .factRef _ => false
    | _ => true
  | .numeric _, .numeric _ => true
  | .date _, .date _ => true
  | _, _ => false

/-- What `ComparisonNode.__post_init__` asks for. -/
def ComparisonNode.check (operator : ComparisonOperator) (left : Operand) (right : Option Operand)
    (members : List Operand) : Bool :=
  !left.isValue &&
    match operator with
    | .memberOf => right.isNone && 1 ≤ members.length && members.length ≤ MAX_SET_MEMBERS &&
        members.all Operand.isValue
    | operator => members.isEmpty && right.any fun r => operator.takes r.payload

/-- `ComparisonNode`. -/
structure ComparisonNode where
  operator : ComparisonOperator
  left : Operand
  right : Option Operand
  members : List Operand
  valid : ComparisonNode.check operator left right members = true

/-- `ApplicabilityNode`. -/
inductive ApplicabilityNode where
  | comparison (node : ComparisonNode)
  | boolean (operator : BooleanOperator) (children : List ApplicabilityNode)

mutual

/-- The number of children `BooleanNode.__post_init__` asks for, everywhere. -/
def ApplicabilityNode.wellFormed : ApplicabilityNode → Bool
  | .comparison _ => true
  | .boolean operator children =>
    (match operator with
      | .not => children.length = 1
      | _ => 1 ≤ children.length) && wellFormedAll children

def wellFormedAll : List ApplicabilityNode → Bool
  | [] => true
  | child :: children => child.wellFormed && wellFormedAll children

end

mutual

/-- The first of `_count_and_depth`. -/
def ApplicabilityNode.count : ApplicabilityNode → Nat
  | .comparison _ => 1
  | .boolean _ children => 1 + countAll children

def countAll : List ApplicabilityNode → Nat
  | [] => 0
  | child :: children => child.count + countAll children

end

mutual

/-- The second of `_count_and_depth`. -/
def ApplicabilityNode.depth : ApplicabilityNode → Nat
  | .comparison _ => 1
  | .boolean _ children => max 1 (depthAll children)

def depthAll : List ApplicabilityNode → Nat
  | [] => 0
  | child :: children => max (1 + child.depth) (depthAll children)

end

/-- `ApplicabilityExpression`, whose version is the one the contract has. -/
structure ApplicabilityExpression where
  root : ApplicabilityNode
  wellFormed : root.wellFormed = true
  count_le : root.count ≤ MAX_NODES
  depth_le : root.depth ≤ MAX_DEPTH

/-! ## Evaluation -/

/-- Whether an ordering holds of two numbers. -/
def OrderRelation.holds (left right : ℚ) : OrderRelation → Bool
  | .lt => left < right
  | .lte => left ≤ right
  | .gt => right < left
  | .gte => right ≤ left

/-- `_dates_ordered`. -/
def datesOrdered (relation : OrderRelation) (left right : TemporalInstant) :
    Except Raised TruthValue := do
  let (leftStart, leftEnd) ← instantBounds left
  let (rightStart, rightEnd) ← instantBounds right
  let identical := leftStart.equals rightStart ∧ leftEnd.equals rightEnd
  let entirelyBefore := leftEnd.notAfter rightStart
  let entirelyAfter := rightEnd.notAfter leftStart
  pure <| match relation with
    | .lt => if entirelyBefore then .true
      else if entirelyAfter ∨ identical then .false else .unknown
    | .lte => if entirelyBefore ∨ identical then .true
      else if entirelyAfter then .false else .unknown
    | .gt => if entirelyAfter then .true
      else if entirelyBefore ∨ identical then .false else .unknown
    | .gte => if entirelyAfter ∨ identical then .true
      else if entirelyBefore then .false else .unknown

/-- What `_evaluate_comparison` makes of the value of a fact. -/
def compareValue (node : ComparisonNode) (value : Operand) : Except Raised TruthValue :=
  match node.operator, node.right with
  | .equals, some right => valuesEqual value right
  | .memberOf, _ => do
    let found ← node.members.mapM (valuesEqual value)
    pure (.anyOf found)
  | .numeric relation, some right =>
    match value.payload, right.payload with
    | .numeric left, .numeric number =>
      if value.unit ≠ right.unit then pure .unknown
      else pure (.ofBool (relation.holds left.value number.value))
    | _, _ => pure .unknown
  | .date relation, some right =>
    match value.payload, right.payload with
    | .date left, .date instant => datesOrdered relation left instant
    | _, _ => pure .unknown
  | _, none => throw .assertionError

def ComparisonNode.factRef (node : ComparisonNode) : String :=
  match node.left.payload with
  | .factRef name => name
  | _ => ""

/-- `_evaluate_comparison`. -/
def evaluateComparison (node : ComparisonNode) (snapshot : FactSnapshot) :
    EStateM Raised Ledger TruthValue := do
  let value ← consult node.factRef snapshot
  match value with
  | none => pure .unknown
  | some value => attempt (compareValue node value)

/-- What an operator makes of the truth of the children. A `not` has one. -/
def BooleanOperator.combine (values : List TruthValue) : BooleanOperator → Except Raised TruthValue
  | .not => match values with
    | [] => throw .assertionError
    | value :: _ => pure value.negate
  | .all => pure (.allOf values)
  | .any => pure (.anyOf values)

mutual

/-- `_evaluate_node`. -/
def evaluateNode (snapshot : FactSnapshot) :
    ApplicabilityNode → EStateM Raised Ledger TruthValue
  | .comparison node => evaluateComparison node snapshot
  | .boolean operator children => do
    let values ← evaluateNodes snapshot children
    attempt (operator.combine values)

def evaluateNodes (snapshot : FactSnapshot) :
    List ApplicabilityNode → EStateM Raised Ledger (List TruthValue)
  | [] => pure []
  | child :: children => do
    let value ← evaluateNode snapshot child
    let values ← evaluateNodes snapshot children
    pure (value :: values)

end

/-- `ApplicabilityOutcome`. -/
inductive ApplicabilityOutcome where
  | applicable
  | notApplicable
  | needsInformation
  | contested
  deriving DecidableEq

def ApplicabilityOutcome.value : ApplicabilityOutcome → String
  | .applicable => "applicable"
  | .notApplicable => "not_applicable"
  | .needsInformation => "needs_information"
  | .contested => "contested"

/-- `ApplicabilityResult`, whose evaluator version is the one the contract has. -/
structure ApplicabilityResult where
  outcome : ApplicabilityOutcome
  factSnapshotRef : String
  positionVersionRef : String
  authorizedFactRefs : List String
  reasons : List String
  factProvenanceClasses : List (String × String)

def HIDDEN_CONTEXT_REASON : String := "Required context is unavailable"

section

-- `!r` of a text.
variable (reprOf : String → String)

def unresolvedReason (ref : String) : String :=
  "Required fact " ++ reprOf ref ++ " could not be resolved."

/-- `_build_result`. The checks of the result are those of the position's version reference and of what
is built here: the provenance is sorted, and names references that are authorised. -/
def buildResult (outcome : ApplicabilityOutcome) (factSnapshotRef positionVersionRef : String)
    (ledger : Ledger) (baseReason : Option String) : ApplicabilityResult where
  outcome := outcome
  factSnapshotRef := factSnapshotRef
  positionVersionRef := positionVersionRef
  authorizedFactRefs := (ledger.resolvedVisible ∪ ledger.unresolvedVisible).sort (· ≤ ·)
  reasons := baseReason.toList ++
    (ledger.unresolvedVisible.sort (· ≤ ·)).map (unresolvedReason reprOf) ++
    if ledger.hiddenUnresolved then [HIDDEN_CONTEXT_REASON] else []
  factProvenanceClasses :=
    ((ledger.provenance.entries.insertionSort fun a b => a.1 ≤ b.1).filter fun entry =>
      entry.1 ∈ ledger.resolvedVisible ∪ ledger.unresolvedVisible).map fun entry =>
        (entry.1, entry.2.value)

/-- What is decided of the truth values, with the reason it is given. -/
def decideOutcome (required : TruthValue) (exceptions : List TruthValue) :
    ApplicabilityOutcome × Option String :=
  if .true ∈ exceptions then (.notApplicable, some "An excluding exception applies.")
  else if required = .unknown ∨ .unknown ∈ exceptions then (.needsInformation, none)
  else (.applicable, some "All required conditions are satisfied and no exception applies.")

/-- `evaluate_applicability`. -/
def evaluateApplicability (required : ApplicabilityExpression)
    (exceptions : List ApplicabilityExpression) (facts : FactSnapshot) (positionVersionRef : String) :
    Except Raised ApplicabilityResult := do
  require (isBlank positionVersionRef = false)
    (.validation .missingField "position_version_ref is required")
  match evaluateNode facts required.root Ledger.empty with
  | .error e _ => throw e
  | .ok .false ledger =>
    pure (buildResult reprOf .notApplicable facts.factSnapshotRef positionVersionRef ledger
      (some "A required condition is not satisfied."))
  | .ok requiredTruth ledger =>
    match evaluateNodes facts (exceptions.map (·.root)) ledger with
    | .error e _ => throw e
    | .ok exceptionTruths ledger =>
      let (outcome, reason) := decideOutcome requiredTruth exceptionTruths
      pure (buildResult reprOf outcome facts.factSnapshotRef positionVersionRef ledger reason)

end

/-- `contested_positions`. -/
def contestedPositions (applicable : List String) (contradictions : List (String × String)) :
    Finset String :=
  (contradictions.filter fun pair => pair.1 ∈ applicable ∧ pair.2 ∈ applicable).foldl
    (fun contested pair => insert pair.2 (insert pair.1 contested)) ∅

end OmniviaCore.Knowledge
