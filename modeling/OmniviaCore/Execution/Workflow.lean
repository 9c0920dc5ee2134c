import OmniviaCore.Lib.Check
import OmniviaCore.Lib.Kahn
import OmniviaCore.CanonicalJson.Documents
import OmniviaCore.Execution.Profile

/-!
# Workflow definitions and their materialisation

The values of `execution/workflow.py` an author declares, what they are hashed as, and
`materialise_workflow`, which orders the steps of a definition by Kahn's algorithm and addresses each
again at its position. The values carry the checks of their `__post_init__` as fields; those of a
definition, of which some look at the hashes and the graph of its steps, are the function `check`. A
sealed value carries the hash of its own preimage.
-/

namespace OmniviaCore.Execution.Workflow

open Lib CanonicalJson

/-! ## Vocabulary -/

/-- `EXECUTION_CLASSES`. -/
inductive ExecutionClass where
  | agent
  | deterministic
  | effect
  | wait
  deriving DecidableEq

def ExecutionClass.text : ExecutionClass → String
  | .agent => "AGENT"
  | .deterministic => "DETERMINISTIC"
  | .effect => "EFFECT"
  | .wait => "WAIT"

/-- `BRANCH_OPERATORS`. -/
inductive BranchOperator where
  | equals
  | notEquals
  | present
  deriving DecidableEq

def BranchOperator.text : BranchOperator → String
  | .equals => "EQUALS"
  | .notEquals => "NOT_EQUALS"
  | .present => "PRESENT"

def isNumeral : List Char → Bool
  | [] => false
  | ['0'] => true
  | c :: rest => c.isDigit && c != '0' && rest.all Char.isDigit

/-- `_SEMVER`. -/
def isVersion (value : String) : Bool :=
  match value.toList.splitOn '.' with
  | [major, minor, patch] => isNumeral major && isNumeral minor && isNumeral patch
  | _ => false

/-- What `require_collection` accepts. -/
def isCollection (values : List String) : Bool :=
  values.length ≤ MAX_COLLECTION_LENGTH && values.all isIdentifier && values.Nodup

/-- `require_collection`. -/
def checkCollection (fieldName : String) (required : Bool) (values : List String) :
    Except ExecutionError Unit := do
  require (¬(required = true ∧ values = []))
    (.contract "empty_collection" s!"{fieldName} must declare at least one entry")
  require (values.length ≤ MAX_COLLECTION_LENGTH)
    (.contract "collection_too_large" s!"{fieldName} exceeds its bound")
  require (values.all isIdentifier = true)
    (.contract "invalid_identifier" s!"{fieldName} entry is not a bounded lowercase identifier")
  require values.Nodup
    (.contract "duplicate_entry" s!"{fieldName} declares the same entry twice")

def UNSEALED_CONTENT_HASH : String := "sha256:" ++ String.ofList (List.replicate 64 '0')

def MAX_LOOP_ITERATIONS : Nat := 10000

/-! ## What an author declares -/

/-- An operator that compares has a value to compare with, and `PRESENT` has none. -/
def BranchOperator.coherent : BranchOperator → Option String → Bool
  | .present, expected => expected = none
  | _, expected => expected.any isIdentifier

/-- `BranchDefinition`. -/
structure BranchDefinition where
  inputKey : String
  operator : BranchOperator
  expectedValue : Option String
  inputKey_valid : isIdentifier inputKey = true
  coherent : operator.coherent expectedValue = true

/-- `LoopDefinition`. -/
structure LoopDefinition where
  maxIterations : Nat
  perIterationBudget : Nat
  totalBudget : Nat
  maxIterations_mem : 0 < maxIterations ∧ maxIterations ≤ MAX_LOOP_ITERATIONS
  perIterationBudget_pos : 1 ≤ perIterationBudget
  totalBudget_ge : perIterationBudget ≤ totalBudget

/-- `ChildWorkflowDefinition`. -/
structure ChildWorkflowDefinition where
  workflowId : String
  version : String
  workflowHash : String
  budget : Nat
  workflowId_valid : isIdentifier workflowId = true
  version_valid : isVersion version = true
  workflowHash_valid : isDigest workflowHash = true
  budget_pos : 1 ≤ budget

def optionalValue {α : Type} (write : α → Value) : Option α → Value
  | none => .none
  | some a => write a

def BranchDefinition.preimage (branch : BranchDefinition) : Value :=
  mappingOf [("input_key", textValue branch.inputKey), ("operator", textValue branch.operator.text),
    ("expected_value", optionalValue textValue branch.expectedValue)]

def LoopDefinition.preimage (loop : LoopDefinition) : Value :=
  mappingOf [("max_iterations", .int loop.maxIterations),
    ("per_iteration_budget", .int loop.perIterationBudget),
    ("total_budget", .int loop.totalBudget)]

def ChildWorkflowDefinition.preimage (child : ChildWorkflowDefinition) : Value :=
  mappingOf [("workflow_id", textValue child.workflowId), ("version", textValue child.version),
    ("workflow_hash", textValue child.workflowHash), ("budget", .int child.budget)]

/-- `StepDefinition`. -/
structure StepDefinition where
  stepId : String
  componentId : String
  componentVersion : String
  executionClass : ExecutionClass
  dependsOn : List String
  branch : Option BranchDefinition
  loop : Option LoopDefinition
  childWorkflow : Option ChildWorkflowDefinition
  contentHash : String
  stepId_valid : isIdentifier stepId = true
  componentId_valid : isIdentifier componentId = true
  componentVersion_valid : isVersion componentVersion = true
  dependsOn_valid : isCollection dependsOn = true
  not_self : stepId ∉ dependsOn
  child_waits : childWorkflow.isSome = true → executionClass = .wait
  contentHash_valid : isDigest contentHash = true

/-- `StepDefinition.canonical_preimage`. -/
def StepDefinition.canonicalPreimage (step : StepDefinition) : Value :=
  mappingOf [("step_id", textValue step.stepId), ("component_id", textValue step.componentId),
    ("component_version", textValue step.componentVersion),
    ("execution_class", textValue step.executionClass.text),
    ("depends_on", .sequence (step.dependsOn.map textValue)),
    ("branch", optionalValue BranchDefinition.preimage step.branch),
    ("loop", optionalValue LoopDefinition.preimage step.loop),
    ("child_workflow", optionalValue ChildWorkflowDefinition.preimage step.childWorkflow)]

section

variable (sha256 : List UInt8 → String)

/-- `verify_content_hash`. -/
def verifyContentHash (contentHash : String) (preimage : Value) : Except ExecutionError Unit := do
  require (contentHash ≠ UNSEALED_CONTENT_HASH)
    (.contract "unsealed_descriptor" "descriptor carries no content hash")
  let computed ← canonicalHash sha256 preimage
  require (contentHash = computed) (.contract "content_hash_mismatch"
    "descriptor content hash does not match its canonical preimage")

def StepDefinition.Sealed (step : StepDefinition) : Prop :=
  verifyContentHash sha256 step.contentHash step.canonicalPreimage = .ok ()

/-! ## The order of the steps -/

/-- `by_id`. -/
def byId (steps : List StepDefinition) (stepId : String) : Option StepDefinition :=
  steps.find? fun step => step.stepId = stepId

def dependencies (steps : List StepDefinition) (stepId : String) : List String :=
  ((byId steps stepId).map (·.dependsOn)).getD []

/-- `dependents`: a step is listed once for each time it names the dependency. -/
def dependents (steps : List StepDefinition) (stepId : String) : List String :=
  steps.flatMap fun step => (step.dependsOn.filter (· = stepId)).map fun _ => step.stepId

def unknownDependency (steps : List StepDefinition) (step : StepDefinition) :
    Option (String × String) :=
  (step.dependsOn.find? fun dep => dep ∉ steps.map (·.stepId)).map (step.stepId, ·)

/-- `_topological_order`. The loop turns while a step is ready, which is at most once a step. -/
def topologicalOrder (steps : List StepDefinition) : Except ExecutionError (List String) :=
  match steps.findSome? (unknownDependency steps) with
  | some (stepId, dep) => .error (.contract "unknown_dependency"
      s!"step {quoted stepId} depends on unknown step {quoted dep}")
  | none =>
    let ids := steps.map (·.stepId)
    let order := (Kahn.turns (dependents steps) ids.length
      (Kahn.start ids (dependencies steps))).order
    if order.length ≠ ids.length then
      .error (.contract "cyclic_dependency" "workflow steps contain a dependency cycle")
    else .ok order

/-! ## Definitions of workflows -/

/-- `WorkflowDefinition.__post_init__`. -/
def WorkflowDefinition.check (workflowId version : String) (steps : List StepDefinition)
    (contentHash : String) : Except ExecutionError Unit := do
  require (isIdentifier workflowId = true)
    (.contract "invalid_identifier" "workflow_id is not a bounded lowercase identifier")
  require (isVersion version = true)
    (.contract "invalid_version" "version is not an exact three-part version")
  checkCollection "steps" true (steps.map (·.stepId))
  steps.forM fun step => verifyContentHash sha256 step.contentHash step.canonicalPreimage
  discard (topologicalOrder steps)
  require (isDigest contentHash = true)
    (.contract "invalid_digest" "content_hash is not spelled sha256:<64 lowercase hex>")

/-- `WorkflowDefinition`. -/
structure WorkflowDefinition where
  workflowId : String
  version : String
  steps : List StepDefinition
  contentHash : String
  checked : WorkflowDefinition.check sha256 workflowId version steps contentHash = .ok ()

/-- `WorkflowDefinition.canonical_preimage`. -/
def workflowPreimage (workflowId version : String) (steps : List StepDefinition) : Value :=
  mappingOf [("workflow_id", textValue workflowId), ("version", textValue version),
    ("steps", .sequence ((steps.insertionSort fun a b => a.stepId ≤ b.stepId).map
      fun step => textValue step.contentHash))]

def WorkflowDefinition.verify (definition : WorkflowDefinition sha256) :
    Except ExecutionError Unit :=
  verifyContentHash sha256 definition.contentHash
    (workflowPreimage definition.workflowId definition.version definition.steps)

/-! ## Materialisation -/

/-- `MaterialisedStep`, whose checks are those of the step it is made of. -/
structure MaterialisedStep where
  stepId : String
  componentId : String
  componentVersion : String
  executionClass : ExecutionClass
  sequenceIndex : Nat
  dependsOn : List String
  definitionHash : String
  branch : Option BranchDefinition
  loop : Option LoopDefinition
  childWorkflow : Option ChildWorkflowDefinition
  contentHash : String

/-- `MaterialisedStep.canonical_preimage`. -/
def MaterialisedStep.canonicalPreimage (step : MaterialisedStep) : Value :=
  mappingOf [("step_id", textValue step.stepId), ("component_id", textValue step.componentId),
    ("component_version", textValue step.componentVersion),
    ("execution_class", textValue step.executionClass.text),
    ("sequence_index", .int step.sequenceIndex),
    ("depends_on", .sequence (step.dependsOn.map textValue)),
    ("definition_hash", textValue step.definitionHash),
    ("branch", optionalValue BranchDefinition.preimage step.branch),
    ("loop", optionalValue LoopDefinition.preimage step.loop),
    ("child_workflow", optionalValue ChildWorkflowDefinition.preimage step.childWorkflow)]

/-- `MaterialisedWorkflow`. -/
structure MaterialisedWorkflow where
  workflowId : String
  version : String
  definitionHash : String
  steps : List MaterialisedStep
  contentHash : String
  collected : isCollection (steps.map (·.stepId)) = true

/-- `MaterialisedWorkflow.canonical_preimage`. -/
def planPreimage (workflowId version definitionHash : String) (steps : List MaterialisedStep) :
    Value :=
  mappingOf [("workflow_id", textValue workflowId), ("version", textValue version),
    ("definition_hash", textValue definitionHash),
    ("steps", .sequence (steps.map fun step => textValue step.contentHash))]

/-- `MaterialisedWorkflow.verify_content_hash`. -/
def MaterialisedWorkflow.verify (workflow : MaterialisedWorkflow) : Except ExecutionError Unit :=
  verifyContentHash sha256 workflow.contentHash
    (planPreimage workflow.workflowId workflow.version workflow.definitionHash workflow.steps)

def StepDefinition.placed (step : StepDefinition) (index : Nat) : MaterialisedStep where
  stepId := step.stepId
  componentId := step.componentId
  componentVersion := step.componentVersion
  executionClass := step.executionClass
  sequenceIndex := index
  dependsOn := step.dependsOn
  definitionHash := step.contentHash
  branch := step.branch
  loop := step.loop
  childWorkflow := step.childWorkflow
  contentHash := UNSEALED_CONTENT_HASH

/-- `sealed`, of a step at its position. -/
def MaterialisedStep.seal (step : MaterialisedStep) : Except ExecutionError MaterialisedStep := do
  let contentHash ← canonicalHash sha256 step.canonicalPreimage
  pure { step with contentHash }

/-- The sealed plan of these steps, with the checks of `MaterialisedWorkflow.__post_init__` that are not
those of its definition. -/
def MaterialisedWorkflow.construct (definition : WorkflowDefinition sha256)
    (steps : List MaterialisedStep) : Except ExecutionError MaterialisedWorkflow := do
  checkCollection "steps" true (steps.map (·.stepId))
  steps.forM fun step => verifyContentHash sha256 step.contentHash step.canonicalPreimage
  let contentHash ← canonicalHash sha256
    (planPreimage definition.workflowId definition.version definition.contentHash steps)
  if collected : isCollection (steps.map (·.stepId)) = true then
    pure ⟨definition.workflowId, definition.version, definition.contentHash, steps, contentHash,
      collected⟩
  else throw (.contract "duplicate_entry" "steps declares the same entry twice")

/-- `materialise_workflow`. Every id of the order is a step's. -/
def materialiseWorkflow (definition : WorkflowDefinition sha256) :
    Except ExecutionError MaterialisedWorkflow := do
  definition.verify
  definition.steps.forM fun step =>
    verifyContentHash sha256 step.contentHash step.canonicalPreimage
  let order ← topologicalOrder definition.steps
  let steps ← (order.zipIdx.filterMap fun (stepId, index) =>
    (byId definition.steps stepId).map fun step => step.placed index).mapM
      (MaterialisedStep.seal sha256)
  MaterialisedWorkflow.construct sha256 definition steps

end

end OmniviaCore.Execution.Workflow
