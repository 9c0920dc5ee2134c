import OmniviaCore.Governed.Views

/-!
# The graph snapshot

`readGraphSnapshot` hydrates the versions a view holds, turns the endpoint rows whose relation the view
holds into edges, and adds an edge for each supersession whose replacement the view holds and no explicit
edge names already: no two edges name one relation (`read_graph_snapshot_edges`).

What hydration makes of a version besides its identity is a parameter, with its refusals.
-/

namespace OmniviaCore.Governed

open Lib

/-- `RecordKey`. -/
abbrev RecordKey : Type := String × String

/-- `RELATION_TYPE_SUPERSEDED`. -/
def RELATION_TYPE_SUPERSEDED : String := "record.superseded"

/-- A hydrated record: its identity, and the rest. -/
structure GovernedRecord (β : Type) where
  recordId : String
  version : String
  body : β

structure GovernedRecordValue (β : Type) where
  recordedAtUs : Int
  record : GovernedRecord β

/-- How the rest of a record is made: the check of the claim lineage of the selected versions, and one
version's record, from the supersession into it and the one out of it. -/
structure Hydration (δ β : Type) where
  lineage : List (GovernedVersion δ) → Except String Unit
  body : GovernedVersion δ → Option GovernedSupersession → Option GovernedSupersession → Except String β

structure GraphRelation (β : Type) where
  relationType : String
  source : RecordKey
  target : RecordKey
  relation : RecordKey
  record : GovernedRecord β

structure GraphSnapshot (β : Type) where
  watermarkUs : Int
  records : Dict RecordKey (GovernedRecord β)
  relations : List (GraphRelation β)

variable {δ β : Type}

def GovernedVersion.key (version : GovernedVersion δ) : RecordKey :=
  (version.assembly.governedRecordId, version.assembly.governedRecordVersionId)

namespace GovernedSupersession

variable (fact : GovernedSupersession)

/-- The version that was replaced. -/
def superseded : RecordKey := (fact.governedRecordId, fact.sourceVersionId)

/-- The version that replaced it. -/
def replacement : RecordKey := (fact.governedRecordId, fact.targetVersionId)

end GovernedSupersession

/-- The supersession at each version, by the end that `versionOf` names: the earliest effective one. -/
def edgesAt (versionOf : GovernedSupersession → String) (facts : List GovernedSupersession) :
    Dict String GovernedSupersession :=
  facts.foldl (fun edges fact =>
    match edges.get (versionOf fact) with
    | some held => if fact.effectiveAtUs < held.effectiveAtUs then edges.set (versionOf fact) fact else edges
    | none => edges.set (versionOf fact) fact) ⟨[], List.nodup_nil⟩

/-- `_governed_record`. -/
def governedRecord (hydration : Hydration δ β) (version : GovernedVersion δ)
    (supersedes supersededBy : Option GovernedSupersession) : Except String (GovernedRecord β) := do
  let body ← hydration.body version supersedes supersededBy
  pure { recordId := version.assembly.governedRecordId
         version := version.assembly.governedRecordVersionId
         body := body }

/-- `read_governed_record_values`. -/
def readGovernedRecordValues (reprOf : String → String) (hydration : Hydration δ β)
    (store : GovernedStore δ) (workspaceId : String) (resolutionInstantUs : Int)
    (view : Option String) : Except String (List (GovernedRecordValue β)) := do
  let versions ← resolveGovernedVersions reprOf store workspaceId resolutionInstantUs view
  let selected := versions.map fun version => version.assembly.governedRecordVersionId
  let facts := (store.readSupersessionFacts workspaceId resolutionInstantUs).filter fun fact =>
    fact.sourceVersionId ∈ selected ∨ fact.targetVersionId ∈ selected
  hydration.lineage versions
  versions.mapM fun version => do
    let id := version.assembly.governedRecordVersionId
    let record ← governedRecord hydration version ((edgesAt (·.targetVersionId) facts).get id)
      ((edgesAt (·.sourceVersionId) facts).get id)
    pure { recordedAtUs := version.assembly.recordedAtUs, record := record }

/-- An endpoint row with the sealed version of its assembly. -/
abbrev EndpointRow (δ : Type) : Type := RelationEndpoints × GovernedVersion δ

/-- The relation record an endpoint row belongs to. -/
def EndpointRow.relation (row : EndpointRow δ) : RecordKey := row.2.key

namespace GovernedStore

variable (store : GovernedStore δ) (workspaceId : String) (resolutionInstantUs : Int)

/-- The endpoint query. -/
def endpointRows : List (EndpointRow δ) :=
  sortBy
    (fun row : EndpointRow δ => toLex (row.1.relationType, toLex (row.1.sourceRecordId,
      toLex (row.1.sourceVersionId, toLex (row.1.targetRecordId,
        toLex (row.1.targetVersionId, row.1.assemblyId))))))
    ((innerJoin
      (fun (r : RelationEndpoints) (a : GovernedVersion δ) =>
        a.assembly.workspaceId = r.workspaceId ∧ a.assembly.assemblyId = r.assemblyId)
      store.endpoints store.authoritativeGovernedVersions).filter fun row =>
        row.1.workspaceId = workspaceId ∧ row.1.recordedAtUs ≤ resolutionInstantUs ∧
          row.2.assembly.recordedAtUs ≤ resolutionInstantUs)

/-- `SELECT COALESCE(MAX(recorded_at_us), 0)` over the sealed versions of the instant. -/
def versionWatermark : Int :=
  (((store.authoritativeGovernedVersions.filter fun version =>
    version.assembly.workspaceId = workspaceId ∧ version.assembly.recordedAtUs ≤ resolutionInstantUs).map
      fun version => version.assembly.recordedAtUs).max?).getD 0

/-- `SELECT COALESCE(MAX(activated_at_us), 0)` over the activations of the instant. -/
def activationWatermark : Int :=
  match store.codeAnalysis with
  | none => 0
  | some analysis =>
    (((analysis.activations.filter fun row =>
      row.workspaceId = workspaceId ∧ row.activatedAtUs ≤ resolutionInstantUs).map
        fun row => row.activatedAtUs).max?).getD 0

end GovernedStore

/-- The edge an endpoint row asserts, where the view holds its relation. -/
def explicitRelation (records : Dict RecordKey (GovernedRecord β)) (row : EndpointRow δ) :
    Option (GraphRelation β) :=
  (records.get row.relation).map fun record =>
    { relationType := row.1.relationType
      source := (row.1.sourceRecordId, row.1.sourceVersionId)
      target := (row.1.targetRecordId, row.1.targetVersionId)
      relation := row.relation
      record := record }

/-- The edge of a supersession whose replacement the view holds. -/
def derivedRelation (records : Dict RecordKey (GovernedRecord β)) (fact : GovernedSupersession) :
    Option (GraphRelation β) :=
  (records.get fact.replacement).map fun record =>
    { relationType := RELATION_TYPE_SUPERSEDED
      source := fact.superseded
      target := fact.replacement
      relation := fact.replacement
      record := record }

/-- `read_graph_snapshot`. -/
def readGraphSnapshot (reprOf : String → String) (hydration : Hydration δ β) (store : GovernedStore δ)
    (workspaceId : String) (resolutionInstantUs : Int) (view : Option String) :
    Except String (GraphSnapshot β) := do
  let values ← readGovernedRecordValues reprOf hydration store workspaceId resolutionInstantUs view
  let endpointRows := store.endpointRows workspaceId resolutionInstantUs
  let supersessions := store.readSupersessionFacts workspaceId resolutionInstantUs
  let records := Dict.ofList (fun record : GovernedRecord β => (record.recordId, record.version))
    (values.map (·.record))
  let explicit := endpointRows.filterMap (explicitRelation records)
  let asserted := explicit.map (·.relation)
  let derived := (supersessions.filter fun fact => fact.replacement ∉ asserted).filterMap
    (derivedRelation records)
  pure
    { watermarkUs :=
        (endpointRows.map (·.1.recordedAtUs) ++ supersessions.map (·.effectiveAtUs)).foldl max
          (max (max (store.versionWatermark workspaceId resolutionInstantUs)
            (store.activationWatermark workspaceId resolutionInstantUs)) 0)
      records := records
      relations := explicit ++ derived }

variable {reprOf : String → String} {hydration : Hydration δ β} {store : GovernedStore δ}
  {workspaceId : String} {resolutionInstantUs : Int} {view : Option String} {snapshot : GraphSnapshot β}
  {records : Dict RecordKey (GovernedRecord β)}

/-! ## Relation references -/

/-- A version of the view belongs to one endpoint row at most. -/
theorem unique_endpointRows :
    Unique EndpointRow.relation (store.endpointRows workspaceId resolutionInstantUs) := by
  refine Unique.perm ?_ (perm_sortBy _).symm
  have hjoin := (store.endpoints_assembly.innerJoin
    (unique_authoritativeGovernedVersions store.assemblies_identity)
    (fun r a => a.assembly.workspaceId = r.workspaceId ∧ a.assembly.assemblyId = r.assemblyId)
    (fun r => (r.workspaceId, r.assemblyId)) (by
      intro r a hon
      exact Prod.ext (of_decide_eq_true hon).1 (of_decide_eq_true hon).2)).filter
    fun row => row.1.workspaceId = workspaceId ∧ row.1.recordedAtUs ≤ resolutionInstantUs ∧
      row.2.assembly.recordedAtUs ≤ resolutionInstantUs
  refine hjoin.of_determines fun row hrow row' hrow' hrelation => ?_
  obtain ⟨hmem, hkept⟩ := List.mem_filter.1 hrow
  obtain ⟨hmem', hkept'⟩ := List.mem_filter.1 hrow'
  obtain ⟨-, hversion, hon⟩ := mem_innerJoin.1 hmem
  obtain ⟨-, hversion', hon'⟩ := mem_innerJoin.1 hmem'
  have hon := of_decide_eq_true hon
  have hon' := of_decide_eq_true hon'
  have hworkspace : row.1.workspaceId = row'.1.workspaceId :=
    (of_decide_eq_true hkept).1.trans (of_decide_eq_true hkept').1.symm
  -- one version of a workspace is in the view once, so the rows are of one assembly
  have hsame : row.2 = row'.2 :=
    List.inj_on_of_nodup_map (unique_authoritativeGovernedVersions store.assemblies_version) hversion
      hversion' (Prod.ext (hon.1.trans (hworkspace.trans hon'.1.symm)) (Prod.mk.inj hrelation).2)
  refine Prod.ext hworkspace ?_
  rw [← hon.2, ← hon'.2, hsame]

theorem unique_explicit :
    Unique (·.relation)
      ((store.endpointRows workspaceId resolutionInstantUs).filterMap (explicitRelation records)) := by
  refine unique_endpointRows.filterMap fun row _ edge hedge => ?_
  obtain ⟨record, -, rfl⟩ := Option.map_eq_some_iff.1 hedge
  rfl

theorem unique_derived {facts : List GovernedSupersession} (h : Unique (·.targetVersionId) facts)
    (kept : GovernedSupersession → Bool) :
    Unique (·.relation) ((facts.filter kept).filterMap (derivedRelation records)) := by
  have hfacts : Unique (·.replacement) (facts.filter kept) :=
    (h.filter kept).of_determines fun _ _ _ _ heq => (Prod.mk.inj heq).2
  refine hfacts.filterMap fun fact _ edge hedge => ?_
  obtain ⟨record, -, rfl⟩ := Option.map_eq_some_iff.1 hedge
  rfl

/-! ## The edges of a snapshot -/

/-- The edge is one an endpoint row asserts. -/
def GraphRelation.Explicit (edge : GraphRelation β) (rows : List (EndpointRow δ)) : Prop :=
  ∃ row ∈ rows, edge.relation = row.relation ∧ edge.relationType = row.1.relationType ∧
    edge.source = (row.1.sourceRecordId, row.1.sourceVersionId) ∧
      edge.target = (row.1.targetRecordId, row.1.targetVersionId)

/-- The edge is the supersession as an edge: from the version replaced to the one replacing it, whose
record is the edge's own. -/
def GraphRelation.Derived (edge : GraphRelation β) (records : Dict RecordKey (GovernedRecord β))
    (fact : GovernedSupersession) : Prop :=
  edge.relationType = RELATION_TYPE_SUPERSEDED ∧ edge.source = fact.superseded ∧
    edge.target = fact.replacement ∧ records.get fact.replacement = some edge.record

theorem readGraphSnapshot_eq_ok
    (h : readGraphSnapshot reprOf hydration store workspaceId resolutionInstantUs view = .ok snapshot) :
    ∃ explicit derived, snapshot.relations = explicit ++ derived ∧
      explicit = (store.endpointRows workspaceId resolutionInstantUs).filterMap
        (explicitRelation snapshot.records) ∧
      derived = ((store.readSupersessionFacts workspaceId resolutionInstantUs).filter fun fact =>
        fact.replacement ∉ explicit.map (·.relation)).filterMap (derivedRelation snapshot.records) := by
  simp only [readGraphSnapshot, bind_eq_ok, pure_eq_ok] at h
  obtain ⟨values, -, rfl⟩ := h
  exact ⟨_, _, rfl, rfl, rfl⟩

/-- Every supersession that was read and has both ends in the view is an edge of the snapshot, the derived
one or the explicit one of the same relation, and no two edges name one relation. -/
theorem read_graph_snapshot_edges
    (h : readGraphSnapshot reprOf hydration store workspaceId resolutionInstantUs view = .ok snapshot) :
    (∀ fact ∈ store.readSupersessionFacts workspaceId resolutionInstantUs,
      (snapshot.records.get fact.superseded).isSome → (snapshot.records.get fact.replacement).isSome →
        ∃ edge ∈ snapshot.relations, edge.relation = fact.replacement ∧
          (edge.Derived snapshot.records fact ∨
            edge.Explicit (store.endpointRows workspaceId resolutionInstantUs))) ∧
      (snapshot.relations.map (·.relation)).Nodup := by
  obtain ⟨explicit, derived, hrelations, hexplicit, hderived⟩ := readGraphSnapshot_eq_ok h
  rw [hrelations]
  constructor
  · intro fact hfact _ hreplacement
    by_cases hasserted : fact.replacement ∈ explicit.map (·.relation)
    · obtain ⟨edge, hedge, hrelation⟩ := List.mem_map.1 hasserted
      refine ⟨edge, List.mem_append_left _ hedge, hrelation, .inr ?_⟩
      rw [hexplicit] at hedge
      obtain ⟨row, hrow, hmade⟩ := List.mem_filterMap.1 hedge
      obtain ⟨record, -, rfl⟩ := Option.map_eq_some_iff.1 hmade
      exact ⟨row, hrow, rfl, rfl, rfl, rfl⟩
    · obtain ⟨record, hrecord⟩ := Option.isSome_iff_exists.1 hreplacement
      let edge : GraphRelation β :=
        ⟨RELATION_TYPE_SUPERSEDED, fact.superseded, fact.replacement, fact.replacement, record⟩
      have hmade : derivedRelation snapshot.records fact = some edge := by
        rw [derivedRelation, hrecord]
        rfl
      refine ⟨edge, List.mem_append_right _ ?_, rfl, .inl ⟨rfl, rfl, rfl, hrecord⟩⟩
      rw [hderived]
      exact List.mem_filterMap.2 ⟨fact, List.mem_filter.2 ⟨hfact, decide_eq_true hasserted⟩, hmade⟩
  · rw [List.map_append, List.nodup_append]
    refine ⟨?_, ?_, ?_⟩
    · rw [hexplicit]
      exact unique_explicit
    · rw [hderived]
      exact unique_derived unique_readSupersessionFacts _
    · intro relation hrelation relation' hrelation' heq
      subst heq
      obtain ⟨edge, hedge, rfl⟩ := List.mem_map.1 hrelation'
      rw [hderived] at hedge
      obtain ⟨fact, hfact, hmade⟩ := List.mem_filterMap.1 hedge
      obtain ⟨record, -, rfl⟩ := Option.map_eq_some_iff.1 hmade
      exact of_decide_eq_true (List.mem_filter.1 hfact).2 hrelation

/-! Three versions of one record, each replacing the one before it: history holds the first two, and the first
is a relation between them. -/

def thrice : List (Assembly Unit) :=
  [("a1", "v1", 1), ("a2", "v2", 2), ("a3", "v3", 3)].map fun (assemblyId, version, recordedAtUs) =>
    { workspaceId := "w"
      assemblyId := assemblyId
      governedRecordId := "r"
      governedRecordVersionId := version
      layer := .governed
      governanceDisposition := some .accepted
      authorityLevel := .canonical
      validFromUs := 0
      validToUs := none
      recordedAtUs := recordedAtUs
      appendOrdinal := 1
      correlationKind := "audit"
      correlationId := assemblyId
      details := () }

def thriceReplaced : GovernedStore Unit where
  assemblies := thrice
  seals := thrice.map fun a => ⟨"w", a.assemblyId, a.assemblyId, a.governedRecordVersionId, a.recordedAtUs⟩
  events := [⟨"w", "e2", none⟩, ⟨"w", "e3", some "correction"⟩]
  endpoints := [⟨"w", "a1", "mentions", "r", "v2", "r", "v1", 1⟩]
  supersessions := [⟨"w", "s2", "a2", "r", "v1", "v2", "e2", 2⟩, ⟨"w", "s3", "a3", "r", "v2", "v3", "e3", 3⟩]
  codeAnalysis := none
  assemblies_identity := by unfold Lib.Unique; decide
  assemblies_version := by unfold Lib.Unique; decide
  seals_assembly := by unfold Lib.Unique; decide
  seals_version := by unfold Lib.Unique; decide
  events_identity := by unfold Lib.Unique; decide
  endpoints_assembly := by unfold Lib.Unique; decide
  supersessions_identity := by unfold Lib.Unique; decide
  supersessions_assembly := by unfold Lib.Unique; decide
  supersessions_source := by unfold Lib.Unique; decide
  supersessions_target := by unfold Lib.Unique; decide

/-- Hydration that refuses nothing. -/
def bare : Hydration Unit Unit where
  lineage _ := .ok ()
  body _ _ _ := .ok ()

theorem read_graph_snapshot_edges_history :
    ∃ snapshot, readGraphSnapshot id bare thriceReplaced "w" 5 (some "history") = .ok snapshot ∧
      snapshot.relations.map (·.source) = [("r", "v2"), ("r", "v1")] ∧
        (snapshot.relations.map (·.relation)).Nodup := by
  have hread : (readGraphSnapshot id bare thriceReplaced "w" 5 (some "history")).toOption.map
      (·.relations.map (·.source)) = some [("r", "v2"), ("r", "v1")] := by decide +kernel
  cases h : readGraphSnapshot id bare thriceReplaced "w" 5 (some "history") with
  | error e =>
    rw [h] at hread
    cases hread
  | ok snapshot =>
    rw [h] at hread
    exact ⟨snapshot, rfl, Option.some.inj hread, (read_graph_snapshot_edges h).2⟩

end OmniviaCore.Governed
