import OmniviaCore.Lib.Check
import OmniviaCore.Lib.SortBy
import OmniviaCore.Execution.Workflow

/-!
# Autonomy resolution

`resolve_autonomy` of `execution/governed.py`: seven kinds of source, each supplied or replaced by a
bounded default, are folded into one bound. Scopes are intersected, numeric bounds minimised and approval
requirements united; the digest is taken over the result and the contributions, in the order of the kinds.
A scope of `none` declares no narrowing.
-/

namespace OmniviaCore.Execution.Autonomy

open Lib CanonicalJson

/-! ## Sources -/

/-- `AUTONOMY_SOURCE_KINDS`. -/
inductive AutonomySourceKind where
  | COMPONENT_IMPLEMENTATION
  | WORKFLOW_SETTINGS
  | POLICY
  | RESOURCE_SCOPE
  | MODEL_SCOPE
  | KNOWLEDGE_SCOPE
  | APPROVAL_LIMITS
  deriving DecidableEq

def AutonomySourceKind.name : AutonomySourceKind → String
  | .COMPONENT_IMPLEMENTATION => "COMPONENT_IMPLEMENTATION"
  | .WORKFLOW_SETTINGS => "WORKFLOW_SETTINGS"
  | .POLICY => "POLICY"
  | .RESOURCE_SCOPE => "RESOURCE_SCOPE"
  | .MODEL_SCOPE => "MODEL_SCOPE"
  | .KNOWLEDGE_SCOPE => "KNOWLEDGE_SCOPE"
  | .APPROVAL_LIMITS => "APPROVAL_LIMITS"

/-- `source_kind.lower()`. -/
def AutonomySourceKind.slug : AutonomySourceKind → String
  | .COMPONENT_IMPLEMENTATION => "component_implementation"
  | .WORKFLOW_SETTINGS => "workflow_settings"
  | .POLICY => "policy"
  | .RESOURCE_SCOPE => "resource_scope"
  | .MODEL_SCOPE => "model_scope"
  | .KNOWLEDGE_SCOPE => "knowledge_scope"
  | .APPROVAL_LIMITS => "approval_limits"

def AUTONOMY_SOURCE_ORDER : List AutonomySourceKind :=
  [.COMPONENT_IMPLEMENTATION, .WORKFLOW_SETTINGS, .POLICY, .RESOURCE_SCOPE, .MODEL_SCOPE,
    .KNOWLEDGE_SCOPE, .APPROVAL_LIMITS]

/-- `EFFECT_CLASSES`. -/
inductive EffectClass where
  | PURE
  | RECOMPUTABLE
  | SNAPSHOT_BOUND_READ
  | INTERNAL_WRITE
  | EXTERNAL_EFFECT
  deriving DecidableEq

def EffectClass.name : EffectClass → String
  | .PURE => "PURE"
  | .RECOMPUTABLE => "RECOMPUTABLE"
  | .SNAPSHOT_BOUND_READ => "SNAPSHOT_BOUND_READ"
  | .INTERNAL_WRITE => "INTERNAL_WRITE"
  | .EXTERNAL_EFFECT => "EXTERNAL_EFFECT"

/-- `SCOPE_DIMENSIONS`. -/
inductive ScopeDimension where
  | action_scope
  | resource_scope
  | model_scope
  | knowledge_scope
  deriving DecidableEq

def ScopeDimension.name : ScopeDimension → String
  | .action_scope => "action_scope"
  | .resource_scope => "resource_scope"
  | .model_scope => "model_scope"
  | .knowledge_scope => "knowledge_scope"

/-- `BOUND_DIMENSIONS`. -/
inductive BoundDimension where
  | maximum_wall_clock_ms
  | maximum_tokens
  | maximum_cost_units
  | maximum_steps
  deriving DecidableEq

def BoundDimension.name : BoundDimension → String
  | .maximum_wall_clock_ms => "maximum_wall_clock_ms"
  | .maximum_tokens => "maximum_tokens"
  | .maximum_cost_units => "maximum_cost_units"
  | .maximum_steps => "maximum_steps"

/-- `DEFAULT_MAXIMUM_WALL_CLOCK_MS` and its siblings. -/
def BoundDimension.defaultMaximum : BoundDimension → ℕ
  | .maximum_wall_clock_ms => 900000
  | .maximum_tokens => 100000
  | .maximum_cost_units => 1000
  | .maximum_steps => 100

/-- `AutonomySource`. Its snapshot digest is any text here, since a default derives one. -/
structure AutonomySource where
  sourceKind : AutonomySourceKind
  sourceRef : String
  snapshotRef : String
  snapshotDigest : String
  scope : ScopeDimension → Option (List String)
  approvalRequired : List EffectClass
  bound : BoundDimension → Option ℕ
  refs_valid : isIdentifier sourceRef = true ∧ isIdentifier snapshotRef = true
  scope_valid : ∀ d, ∀ values ∈ scope d, Workflow.isCollection values = true
  approvalRequired_nodup : approvalRequired.Nodup

/-- `RequestedSpend`. -/
structure RequestedSpend where
  spend : BoundDimension → Option ℕ

/-- `EffectiveAutonomy`, which grants no permission. -/
structure EffectiveAutonomy where
  scope : ScopeDimension → List String
  approvalRequired : List EffectClass
  bound : BoundDimension → ℕ
  sourceContributions : List (String × String × String)
  resolutionDigest : String

/-- `AutonomySource.provenance`. -/
def AutonomySource.provenance (source : AutonomySource) : String × String × String :=
  (source.sourceKind.name, source.snapshotRef, source.snapshotDigest)

def AUTONOMY_PROFILE_REFUSED : String := "AUTONOMY_PROFILE_REFUSED"

def refused (message : String) : ExecutionError := .refused AUTONOMY_PROFILE_REFUSED message

/-! ## Resolution -/

/-- One source of the fold of `_intersect`. -/
def narrow (d : ScopeDimension) (narrowed : Option (Finset String)) (source : AutonomySource) :
    Option (Finset String) :=
  match source.scope d, narrowed with
  | none, _ => narrowed
  | some declared, none => some declared.toFinset
  | some declared, some kept => some (kept ∩ declared.toFinset)

/-- `_intersect`. -/
def intersect (sources : List AutonomySource) (d : ScopeDimension) : Option (List String) :=
  (sources.foldl (narrow d) none).map fun kept => kept.sort (· ≤ ·)

/-- The intersection of a dimension, which must not be empty. -/
def resolveScope (sources : List AutonomySource) (d : ScopeDimension) :
    Except ExecutionError (List String) :=
  match intersect sources d with
  | some (entry :: entries) => pure (entry :: entries)
  | _ => throw (refused s!"{d.name} resolves to an empty intersection")

def resolveBound (sources : List AutonomySource) (d : BoundDimension) :
    Except ExecutionError ℕ :=
  match (sources.filterMap (·.bound d)).min? with
  | some least => pure least
  | none => throw (refused s!"no source bounds {d.name}")

/-- The resolved scopes and bounds, by their dimension. -/
def byScope (action resource model knowledge : List String) : ScopeDimension → List String
  | .action_scope => action
  | .resource_scope => resource
  | .model_scope => model
  | .knowledge_scope => knowledge

def byBound (wallClock tokens costUnits steps : ℕ) : BoundDimension → ℕ
  | .maximum_wall_clock_ms => wallClock
  | .maximum_tokens => tokens
  | .maximum_cost_units => costUnits
  | .maximum_steps => steps

def requireWithin (requested : RequestedSpend) (bound : BoundDimension → ℕ) (d : BoundDimension) :
    Except ExecutionError Unit :=
  require (∀ want ∈ requested.spend d, want ≤ bound d)
    (refused s!"requested {d.name} exceeds the resolved bound")

section

-- The hexadecimal digest of some bytes.
variable (sha256 : List UInt8 → String)

/-- `default_autonomy_source`. -/
def defaultAutonomySource (kind : AutonomySourceKind) : AutonomySource where
  sourceKind := kind
  sourceRef := s!"default.{kind.slug}"
  snapshotRef := s!"default.{kind.slug}.snapshot"
  snapshotDigest := deriveId sha256 ["autonomy.default", kind.name]
  scope := fun _ => none
  approvalRequired := []
  bound := fun d => some d.defaultMaximum
  refs_valid := by cases kind <;> decide
  scope_valid := fun _ _ h => by cases h
  approvalRequired_nodup := List.nodup_nil

/-- `supplied.get(kind) or default_autonomy_source(kind)`. -/
def contribution (sources : List AutonomySource) (kind : AutonomySourceKind) : AutonomySource :=
  (sources.find? fun source => source.sourceKind = kind).getD (defaultAutonomySource sha256 kind)

def resolutionDocument (approval : List EffectClass) (bound : BoundDimension → ℕ)
    (scope : ScopeDimension → List String) (contributions : List (String × String × String)) : Value :=
  mappingOf
    [("approvalRequired", .sequence (approval.map fun e => textValue e.name)),
      ("bounds", .sequence
        [.int (bound .maximum_wall_clock_ms), .int (bound .maximum_tokens),
          .int (bound .maximum_cost_units), .int (bound .maximum_steps)]),
      ("scopes", .sequence
        [.sequence ((scope .action_scope).map textValue),
          .sequence ((scope .resource_scope).map textValue),
          .sequence ((scope .model_scope).map textValue),
          .sequence ((scope .knowledge_scope).map textValue)]),
      ("sourceContributions", .sequence (contributions.map fun entry =>
        .sequence [textValue entry.1, textValue entry.2.1, textValue entry.2.2]))]

/-- `resolve_autonomy`, from its check of the sources on. -/
def resolveAutonomy (sources : List AutonomySource) (permissionGranted : Bool)
    (requested : Option RequestedSpend) : Except ExecutionError EffectiveAutonomy := do
  require (sources.map (·.sourceKind)).Nodup
    (.contract "duplicate_source_kind" "a source kind was supplied more than once")
  require (permissionGranted = true) (refused "Permission does not admit this resolution")
  let ordered := AUTONOMY_SOURCE_ORDER.map (contribution sha256 sources)
  let actionScope ← resolveScope ordered .action_scope
  let resourceScope ← resolveScope ordered .resource_scope
  let modelScope ← resolveScope ordered .model_scope
  let knowledgeScope ← resolveScope ordered .knowledge_scope
  let scope := byScope actionScope resourceScope modelScope knowledgeScope
  let approval := sortBy EffectClass.name (ordered.flatMap (·.approvalRequired)).dedup
  let wallClock ← resolveBound ordered .maximum_wall_clock_ms
  let tokens ← resolveBound ordered .maximum_tokens
  let costUnits ← resolveBound ordered .maximum_cost_units
  let steps ← resolveBound ordered .maximum_steps
  let bound := byBound wallClock tokens costUnits steps
  requested.toList.forM fun requested => do
    requireWithin requested bound .maximum_wall_clock_ms
    requireWithin requested bound .maximum_tokens
    requireWithin requested bound .maximum_cost_units
    requireWithin requested bound .maximum_steps
  let contributions := ordered.map (·.provenance)
  let digest ← canonicalHash sha256 (resolutionDocument approval bound scope contributions)
  pure
    { scope := scope
      approvalRequired := approval
      bound := bound
      sourceContributions := contributions
      resolutionDigest := digest }

def DEPLOYMENT_MODES : List String := ["LOCAL", "DISTRIBUTED"]

/-- `resolve_autonomy`, with `require_deployment_mode`. -/
def resolveAutonomyIn (deploymentMode : String) (sources : List AutonomySource) (permissionGranted : Bool)
    (requested : Option RequestedSpend) : Except ExecutionError EffectiveAutonomy := do
  require (deploymentMode ∈ DEPLOYMENT_MODES) (.contract "unknown_vocabulary_member"
    s!"deployment_mode {quoted deploymentMode} is not a member of its closed vocabulary")
  resolveAutonomy sha256 sources permissionGranted requested

/-- No answer depends on the mode. -/
theorem resolveAutonomyIn_eq {deploymentMode : String} (h : deploymentMode ∈ DEPLOYMENT_MODES) :
    resolveAutonomyIn sha256 deploymentMode = resolveAutonomy sha256 := by
  funext sources permissionGranted requested
  rw [resolveAutonomyIn, require_pos h, ok_bind]

end

end OmniviaCore.Execution.Autonomy
