import OmniviaCore.Lib.Dict
import OmniviaCore.Lib.Joins
import OmniviaCore.Lib.SortBy
import OmniviaCore.Lib.Check

/-!
# Governed versions and the views that hold them

The relations of governed truth that a read of the graph joins, each with the keys its schema declares
unique, and the two reads the resolver is made of: the sealed versions
(`omnivia_authoritative_governed_versions`) and the supersessions that have taken effect at an instant.
`resolveGovernedVersions` is the fold over both that a view names.

The columns of an assembly that only the body of a record is made of are the type `δ`.
-/

namespace OmniviaCore.Governed

open Lib

inductive Layer where
  | candidate
  | governed
  | contextModel
  deriving DecidableEq

inductive GovernanceDisposition where
  | accepted
  | rejected
  | contested
  | withdrawn
  | superseded
  deriving DecidableEq

inductive AuthorityLevel where
  | proposed
  | reviewed
  | canonical
  deriving DecidableEq

def AuthorityLevel.rank : AuthorityLevel → Int
  | .proposed => 0
  | .reviewed => 100
  | .canonical => 200

/-- A row of `omnivia_governed_version_assemblies`. -/
structure Assembly (δ : Type) where
  workspaceId : String
  assemblyId : String
  governedRecordId : String
  governedRecordVersionId : String
  layer : Layer
  governanceDisposition : Option GovernanceDisposition
  authorityLevel : AuthorityLevel
  validFromUs : Int
  validToUs : Option Int
  recordedAtUs : Int
  appendOrdinal : Int
  correlationKind : String
  correlationId : String
  details : δ

/-- A row of `omnivia_governed_version_seals`. -/
structure Seal where
  workspaceId : String
  sealId : String
  assemblyId : String
  governedRecordVersionId : String
  sealedAtUs : Int

/-- A row of `omnivia_governed_provenance_events`: what names it and the reason a supersession takes from it. -/
structure ProvenanceEvent where
  workspaceId : String
  provenanceEventId : String
  reasonCode : Option String

/-- A row of `omnivia_governed_relation_endpoints`. -/
structure RelationEndpoints where
  workspaceId : String
  assemblyId : String
  relationType : String
  sourceRecordId : String
  sourceVersionId : String
  targetRecordId : String
  targetVersionId : String
  recordedAtUs : Int

/-- A row of `omnivia_record_supersessions`. -/
structure RecordSupersession where
  workspaceId : String
  supersessionId : String
  assemblyId : String
  governedRecordId : String
  sourceVersionId : String
  targetVersionId : String
  provenanceEventId : String
  recordedAtUs : Int

/-- A row of `omnivia_code_analysis_import_members`. -/
structure CodeMember where
  workspaceId : String
  importId : String
  governedRecordVersionId : String

/-- A row of `omnivia_code_analysis_imports`. -/
structure CodeImport where
  workspaceId : String
  importId : String
  repositoryId : String
  producerId : String
  profileDigest : String

/-- A row of `omnivia_code_analysis_activations`. -/
structure CodeActivation where
  workspaceId : String
  repositoryId : String
  producerId : String
  profileDigest : String
  activationSequence : Int
  importId : String
  activatedAtUs : Int

/-- The relations that came with the import of code analysis. -/
structure CodeAnalysis where
  members : List CodeMember
  imports : List CodeImport
  activations : List CodeActivation
  members_version : Unique (fun row => (row.workspaceId, row.governedRecordVersionId)) members
  imports_identity : Unique (fun row => (row.workspaceId, row.importId)) imports
  activations_identity : Unique (fun row =>
    (row.workspaceId, row.repositoryId, row.producerId, row.profileDigest, row.activationSequence))
    activations

/-- The governed relations of a database, with the unique indexes the read of the graph leans on. A schema
that has no code analysis has no relations of it. -/
structure GovernedStore (δ : Type) where
  assemblies : List (Assembly δ)
  seals : List Seal
  events : List ProvenanceEvent
  endpoints : List RelationEndpoints
  supersessions : List RecordSupersession
  codeAnalysis : Option CodeAnalysis
  assemblies_identity : Unique (fun row => (row.workspaceId, row.assemblyId)) assemblies
  assemblies_version : Unique (fun row => (row.workspaceId, row.governedRecordVersionId)) assemblies
  seals_assembly : Unique (fun row => (row.workspaceId, row.assemblyId)) seals
  seals_version : Unique (fun row => (row.workspaceId, row.governedRecordVersionId)) seals
  events_identity : Unique (fun row => (row.workspaceId, row.provenanceEventId)) events
  endpoints_assembly : Unique (fun row => (row.workspaceId, row.assemblyId)) endpoints
  supersessions_identity : Unique (fun row => (row.workspaceId, row.supersessionId)) supersessions
  supersessions_assembly : Unique (fun row => (row.workspaceId, row.assemblyId)) supersessions
  supersessions_source : Unique (fun row => (row.workspaceId, row.sourceVersionId)) supersessions
  supersessions_target : Unique (fun row => (row.workspaceId, row.targetVersionId)) supersessions

/-- One sealed version: a row of `omnivia_authoritative_governed_versions`. -/
structure GovernedVersion (δ : Type) where
  assembly : Assembly δ
  sealId : String
  sealedAtUs : Int

/-- One sealed supersession, at the instant it took effect. -/
structure GovernedSupersession where
  workspaceId : String
  governedRecordId : String
  sourceVersionId : String
  targetVersionId : String
  assemblyId : String
  effectiveAtUs : Int
  reasonCode : Option String

inductive GovernedRecordView where
  | currentCanonical
  | candidates
  | history
  deriving DecidableEq

def GovernedRecordView.code : GovernedRecordView → String
  | .currentCanonical => "current_canonical"
  | .candidates => "candidates"
  | .history => "history"

def GOVERNED_RECORD_VIEWS : List GovernedRecordView := [.currentCanonical, .candidates, .history]

variable {δ : Type}

/-- A supersession with its seal, its sealed target and, where there is one, its event. -/
abbrev SupersessionRow (δ : Type) : Type :=
  ((RecordSupersession × Seal) × GovernedVersion δ) × Option ProvenanceEvent

namespace SupersessionRow

def superseded (row : SupersessionRow δ) : RecordSupersession := row.1.1.1

/-- The later of the edge and its sealed target. -/
def effectiveAtUs (row : SupersessionRow δ) : Int :=
  max row.superseded.recordedAtUs row.1.2.assembly.recordedAtUs

end SupersessionRow

namespace GovernedStore

variable (store : GovernedStore δ) (workspaceId : String) (resolutionInstantUs : Int)

/-- `omnivia_authoritative_governed_versions`. -/
def authoritativeGovernedVersions : List (GovernedVersion δ) :=
  (innerJoin
    (fun (a : Assembly δ) (s : Seal) => s.workspaceId = a.workspaceId ∧ s.assemblyId = a.assemblyId ∧
      s.governedRecordVersionId = a.governedRecordVersionId) store.assemblies store.seals).map
    fun (a, s) => ⟨a, s.sealId, s.sealedAtUs⟩

/-- The joins of `_read_supersession_facts`. -/
def supersessionJoin : List (SupersessionRow δ) :=
  leftJoin
    (fun (row : (RecordSupersession × Seal) × GovernedVersion δ) (e : ProvenanceEvent) =>
      e.workspaceId = row.1.1.workspaceId ∧ e.provenanceEventId = row.1.1.provenanceEventId)
    (innerJoin
      (fun (row : RecordSupersession × Seal) (t : GovernedVersion δ) => t.assembly.workspaceId = row.1.workspaceId ∧
        t.assembly.assemblyId = row.1.assemblyId ∧
        t.assembly.governedRecordVersionId = row.1.targetVersionId)
      (innerJoin
        (fun (r : RecordSupersession) (s : Seal) =>
          s.workspaceId = r.workspaceId ∧ s.assemblyId = r.assemblyId)
        store.supersessions store.seals)
      store.authoritativeGovernedVersions)
    store.events

/-- `_read_supersession_facts`, of every record of the workspace. -/
def readSupersessionFacts : List GovernedSupersession :=
  let rows := store.supersessionJoin.filter fun row => row.superseded.workspaceId = workspaceId ∧
    row.effectiveAtUs ≤ resolutionInstantUs
  (sortBy
    (fun row => toLex (row.superseded.sourceVersionId,
      toLex (row.superseded.targetVersionId, row.superseded.assemblyId)))
    rows).map fun row =>
      { workspaceId := row.superseded.workspaceId
        governedRecordId := row.superseded.governedRecordId
        sourceVersionId := row.superseded.sourceVersionId
        targetVersionId := row.superseded.targetVersionId
        assemblyId := row.superseded.assemblyId
        effectiveAtUs := row.effectiveAtUs
        reasonCode := row.2.bind (·.reasonCode) }

/-- `_ACTIVE_CODE_IMPORT`: the newest activation, by then, of what a member's import covers. -/
def activeCodeImport (analysis : CodeAnalysis) (m : CodeMember) : Option String :=
  let rows := (innerJoin
    (fun (a : CodeActivation) (i : CodeImport) => i.workspaceId = m.workspaceId ∧ i.importId = m.importId ∧
      a.workspaceId = i.workspaceId ∧ a.repositoryId = i.repositoryId ∧ a.producerId = i.producerId ∧
      a.profileDigest = i.profileDigest ∧ a.activatedAtUs ≤ resolutionInstantUs)
    analysis.activations analysis.imports).map Prod.fst
  (sortBy (fun a : CodeActivation => -a.activationSequence) rows).head?.map (·.importId)

/-- The rows of the version query: each version with its code applicability, `none` for a version that
no code import enrolled. -/
def versionRows : List (GovernedVersion δ × Option Bool) :=
  let versions := store.authoritativeGovernedVersions
  let rows : List (GovernedVersion δ × Option Bool) := match store.codeAnalysis with
    | none => versions.map fun v => (v, none)
    | some analysis =>
      (leftJoin
        (fun (v : GovernedVersion δ) (m : CodeMember) => m.workspaceId = v.assembly.workspaceId ∧
          m.governedRecordVersionId = v.assembly.governedRecordVersionId)
        versions analysis.members).map fun (row : GovernedVersion δ × Option CodeMember) =>
          (row.1, row.2.map fun (m : CodeMember) =>
            decide (activeCodeImport resolutionInstantUs analysis m = some m.importId))
  sortBy
    (fun row => toLex (row.1.assembly.governedRecordId, toLex (row.1.assembly.recordedAtUs,
      toLex (row.1.assembly.appendOrdinal, row.1.assembly.assemblyId))))
    (rows.filter fun row =>
      row.1.assembly.workspaceId = workspaceId ∧ row.1.assembly.recordedAtUs ≤ resolutionInstantUs)

end GovernedStore

/-! ## The resolver -/

/-- `resolve_governed_record_view` and the check of its answer. -/
def resolveView (reprOf : String → String) (view : Option String) :
    Except String GovernedRecordView :=
  match view with
  | none => .ok .currentCanonical
  | some view =>
    match GOVERNED_RECORD_VIEWS.find? (·.code = view) with
    | some resolved => .ok resolved
    | none => .error ("view " ++ reprOf view ++ " is not a recognized GovernedRecordView; must be one of " ++
        "['candidates', 'current_canonical', 'history'] or absent")

/-- `replaced_at`: the earliest effective instant of a supersession out of each version. -/
def replacedAt (facts : List GovernedSupersession) : Dict String Int :=
  facts.foldl (fun replaced fact =>
    match replaced.get fact.sourceVersionId with
    | some endedAt =>
      if fact.effectiveAtUs < endedAt then replaced.set fact.sourceVersionId fact.effectiveAtUs
      else replaced
    | none => replaced.set fact.sourceVersionId fact.effectiveAtUs) ⟨[], List.nodup_nil⟩

namespace GovernedVersion

variable (version : GovernedVersion δ)

/-- `_is_canonical`. -/
def isCanonical : Bool :=
  version.assembly.layer = .governed ∧ version.assembly.governanceDisposition = some .accepted ∧
    version.assembly.authorityLevel = .canonical

/-- `_valid_at`. -/
def validAt (instantUs : Int) : Bool :=
  version.assembly.validFromUs ≤ instantUs ∧ version.assembly.validToUs.all (instantUs < ·)

/-- `_replaced_by`. -/
def replacedBy (replaced : Dict String Int) (instantUs : Int) : Bool :=
  (replaced.get version.assembly.governedRecordVersionId).any (· ≤ instantUs)

/-- `_precedence`. -/
def precedence : Int ×ₗ Int ×ₗ String ×ₗ String ×ₗ Int ×ₗ String :=
  toLex (version.assembly.authorityLevel.rank, toLex (version.assembly.recordedAtUs,
    toLex (version.assembly.correlationKind, toLex (version.assembly.correlationId,
      toLex (version.assembly.appendOrdinal, version.assembly.assemblyId)))))

end GovernedVersion

/-- The version of each record that the others give way to. -/
def frontier (versions : List (GovernedVersion δ)) : Dict String (GovernedVersion δ) :=
  versions.foldl (fun frontier version =>
    match frontier.get version.assembly.governedRecordId with
    | some incumbent =>
      if version.precedence > incumbent.precedence then
        frontier.set version.assembly.governedRecordId version
      else frontier
    | none => frontier.set version.assembly.governedRecordId version) ⟨[], List.nodup_nil⟩

/-- `resolve_governed_versions`. -/
def resolveGovernedVersions (reprOf : String → String) (store : GovernedStore δ) (workspaceId : String)
    (resolutionInstantUs : Int) (view : Option String) : Except String (List (GovernedVersion δ)) := do
  let resolved ← resolveView reprOf view
  let rows := store.versionRows workspaceId resolutionInstantUs
  let replaced := replacedAt (store.readSupersessionFacts workspaceId resolutionInstantUs)
  let versions := rows.map Prod.fst
  let retiredCode := (rows.filter fun row => row.2 = some false).map
    fun row => row.1.assembly.governedRecordVersionId
  let canonical := versions.filter (·.isCanonical)
  match resolved with
  | .candidates => pure (versions.filter fun version => version.assembly.layer = .candidate)
  | .history => pure (canonical.filter fun version => version.replacedBy replaced resolutionInstantUs)
  | .currentCanonical =>
    let live := canonical.filter fun version =>
      !version.replacedBy replaced resolutionInstantUs && version.validAt resolutionInstantUs &&
        version.assembly.governedRecordVersionId ∉ retiredCode
    pure (sortBy (·.assembly.governedRecordId) (frontier live).values)

/-! ## What the joins keep apart -/

variable {store : GovernedStore δ} {workspaceId : String} {resolutionInstantUs : Int}

/-- A column the assemblies keep apart is kept apart in the view. -/
theorem unique_authoritativeGovernedVersions {κ : Type} {key : Assembly δ → κ}
    (h : Unique key store.assemblies) :
    Unique (fun version => key version.assembly) store.authoritativeGovernedVersions := by
  have hjoin := h.innerJoin store.seals_assembly
    (fun a s => s.workspaceId = a.workspaceId ∧ s.assemblyId = a.assemblyId ∧
      s.governedRecordVersionId = a.governedRecordVersionId)
    (fun a => (a.workspaceId, a.assemblyId)) (by
      intro a s hon
      obtain ⟨hworkspace, hassembly, -⟩ := of_decide_eq_true hon
      exact Prod.ext hworkspace hassembly)
  unfold Lib.Unique at hjoin ⊢
  rw [GovernedStore.authoritativeGovernedVersions, List.map_map]
  exact hjoin

theorem unique_supersessionJoin {κ : Type} {key : RecordSupersession → κ}
    (h : Unique key store.supersessions) :
    Unique (fun row => key row.superseded) store.supersessionJoin := by
  have hseals := h.innerJoin store.seals_assembly
    (fun r s => s.workspaceId = r.workspaceId ∧ s.assemblyId = r.assemblyId)
    (fun r => (r.workspaceId, r.assemblyId)) (by
      intro r s hon
      exact Prod.ext (of_decide_eq_true hon).1 (of_decide_eq_true hon).2)
  have htargets := hseals.innerJoin
    (unique_authoritativeGovernedVersions store.assemblies_identity)
    (fun row t => t.assembly.workspaceId = row.1.workspaceId ∧
        t.assembly.assemblyId = row.1.assemblyId ∧
        t.assembly.governedRecordVersionId = row.1.targetVersionId)
    (fun row => (row.1.workspaceId, row.1.assemblyId)) (by
      intro row t hon
      obtain ⟨hworkspace, hassembly, -⟩ := of_decide_eq_true hon
      exact Prod.ext hworkspace hassembly)
  exact htargets.leftJoin store.events_identity _
    (fun row => (row.1.1.workspaceId, row.1.1.provenanceEventId)) (by
      intro row e hon
      exact Prod.ext (of_decide_eq_true hon).1 (of_decide_eq_true hon).2)

theorem unique_readSupersessionFacts :
    Unique (·.targetVersionId) (store.readSupersessionFacts workspaceId resolutionInstantUs) := by
  unfold Lib.Unique GovernedStore.readSupersessionFacts
  rw [List.map_map]
  have hfilter := (unique_supersessionJoin store.supersessions_target).filter
    fun row => row.superseded.workspaceId = workspaceId ∧ row.effectiveAtUs ≤ resolutionInstantUs
  refine Unique.perm ?_ (perm_sortBy _).symm
  refine hfilter.of_determines fun row hrow row' hrow' htarget => ?_
  have hworkspace := (of_decide_eq_true (List.mem_filter.1 hrow).2).1
  have hworkspace' := (of_decide_eq_true (List.mem_filter.1 hrow').2).1
  exact Prod.ext (hworkspace.trans hworkspace'.symm) htarget

end OmniviaCore.Governed
