import OmniviaCore.Lib.Digest
import OmniviaCore.Lib.Rows
import OmniviaCore.Lib.SortBy
import OmniviaCore.Execution.Workflow

/-!
# Materialisation is canonical

`materialise_workflow` orders the steps of a definition greedily: every place holds the least step whose
dependencies are all placed (`Lib.Greedy`). A graph has one such order of all its steps, so the plan does
not depend on the order the steps were declared in; and it is content-addressed through the hashes of the
steps, so it is the plan of one graph.
-/

namespace OmniviaCore.Execution.Workflow

open Lib CanonicalJson

/-! ## Authorings and graphs -/

/-- What a step declares, with its dependencies as `δ`. -/
structure Declared (δ : Type) where
  stepId : String
  componentId : String
  componentVersion : String
  executionClass : ExecutionClass
  dependsOn : δ
  branch : Option BranchDefinition
  loop : Option LoopDefinition
  childWorkflow : Option ChildWorkflowDefinition

def StepDefinition.declared (step : StepDefinition) : Declared (List String) where
  stepId := step.stepId
  componentId := step.componentId
  componentVersion := step.componentVersion
  executionClass := step.executionClass
  dependsOn := step.dependsOn
  branch := step.branch
  loop := step.loop
  childWorkflow := step.childWorkflow

def Declared.node (declared : Declared (List String)) : Declared (Finset String) :=
  { declared with dependsOn := declared.dependsOn.toFinset }

/-- A named set of declared steps. -/
structure Authoring (δ : Type) where
  workflowId : String
  version : String
  steps : Multiset (Declared δ)

variable {sha256 : List UInt8 → String}

/-- The steps of a definition in no order, each with its list of dependencies. -/
def WorkflowDefinition.authoring (definition : WorkflowDefinition sha256) :
    Authoring (List String) where
  workflowId := definition.workflowId
  version := definition.version
  steps := definition.steps.map StepDefinition.declared

def WorkflowDefinition.graph (definition : WorkflowDefinition sha256) :
    Authoring (Finset String) where
  workflowId := definition.workflowId
  version := definition.version
  steps := definition.steps.map fun step => step.declared.node

theorem WorkflowDefinition.graph_eq_of_authoring {a b : WorkflowDefinition sha256}
    (h : a.authoring = b.authoring) : a.graph = b.graph := by
  simp only [authoring, Authoring.mk.injEq] at h
  obtain ⟨hworkflow, hversion, hsteps⟩ := h
  have hnodes := congrArg (Multiset.map Declared.node) hsteps
  simp only [Multiset.map_coe, List.map_map] at hnodes
  rw [graph, graph, hworkflow, hversion]
  exact congrArg _ hnodes

/-! ## The graph the order is over -/

section Order

variable {steps : List StepDefinition}

def Closed (steps : List StepDefinition) : Prop :=
  ∀ step ∈ steps, ∀ dep ∈ step.dependsOn, dep ∈ steps.map (·.stepId)

theorem byId_eq (hids : (steps.map (·.stepId)).Nodup) {step : StepDefinition} (hstep : step ∈ steps) :
    byId steps step.stepId = some step :=
  Unique.find? hids hstep rfl

theorem dependencies_eq (hids : (steps.map (·.stepId)).Nodup) {step : StepDefinition}
    (hstep : step ∈ steps) : dependencies steps step.stepId = step.dependsOn := by
  rw [dependencies, byId_eq hids hstep, Option.map_some, Option.getD_some]

theorem nodup_of_isCollection {values : List String} (h : isCollection values = true) :
    values.Nodup := by
  simp only [isCollection, Bool.and_eq_true, decide_eq_true_eq] at h
  exact h.2

theorem length_le_of_isCollection {values : List String} (h : isCollection values = true) :
    values.length ≤ MAX_COLLECTION_LENGTH := by
  simp only [isCollection, Bool.and_eq_true, decide_eq_true_eq] at h
  exact h.1.1

theorem isCollection_perm {values values' : List String} (hperm : values'.Perm values)
    (h : isCollection values = true) : isCollection values' = true := by
  simp only [isCollection, Bool.and_eq_true, decide_eq_true_eq, List.all_eq_true] at h ⊢
  refine ⟨⟨hperm.length_eq.trans_le h.1.1, fun v hv => ?_⟩, hperm.nodup_iff.2 h.2⟩
  exact h.1.2 v (hperm.mem_iff.1 hv)

theorem StepDefinition.dependsOn_nodup (step : StepDefinition) : step.dependsOn.Nodup :=
  nodup_of_isCollection step.dependsOn_valid

theorem mem_dependents {dep stepId : String} :
    stepId ∈ dependents steps dep ↔ ∃ step ∈ steps, step.stepId = stepId ∧ dep ∈ step.dependsOn := by
  simp only [dependents, List.mem_flatMap, List.mem_map, List.mem_filter, decide_eq_true_eq]
  constructor
  · rintro ⟨step, hstep, d, ⟨hd, rfl⟩, rfl⟩
    exact ⟨step, hstep, rfl, hd⟩
  · rintro ⟨step, hstep, rfl, hdep⟩
    exact ⟨step, hstep, dep, ⟨hdep, rfl⟩, rfl⟩

theorem named_sublist (step : StepDefinition) (dep : String) :
    ((step.dependsOn.filter (· = dep)).map fun _ => step.stepId).Sublist [step.stepId] := by
  have hnamed : (step.dependsOn.filter (· = dep)).Sublist [dep] := by
    have hcount := List.nodup_iff_count_le_one.1 step.dependsOn_nodup dep
    rw [List.filter_eq, ← List.replicate_one]
    exact List.replicate_sublist_replicate dep |>.2 hcount
  exact hnamed.map fun _ => step.stepId

theorem dependents_sublist (dep : String) :
    (dependents steps dep).Sublist (steps.map (·.stepId)) := by
  induction steps with
  | nil => exact List.Sublist.slnil
  | cons step steps ih =>
    have hstep := (named_sublist step dep).append ih
    rwa [List.singleton_append] at hstep

theorem describes (hids : (steps.map (·.stepId)).Nodup) (hclosed : Closed steps) :
    Kahn.Describes (steps.map (·.stepId)) (dependencies steps) (dependents steps) where
  nodes_nodup := hids
  deps_nodup := by
    intro stepId hmem
    obtain ⟨step, hstep, rfl⟩ := List.mem_map.1 hmem
    rw [dependencies_eq hids hstep]
    exact step.dependsOn_nodup
  closed := by
    intro stepId hmem
    obtain ⟨step, hstep, rfl⟩ := List.mem_map.1 hmem
    rw [dependencies_eq hids hstep]
    exact hclosed step hstep
  dependents_nodup dep := hids.sublist (dependents_sublist dep)
  mem_dependents := by
    intro dep stepId
    rw [mem_dependents]
    constructor
    · rintro ⟨step, hstep, rfl, hdep⟩
      rw [dependencies_eq hids hstep]
      exact ⟨List.mem_map_of_mem hstep, hdep⟩
    · rintro ⟨hmem, hdep⟩
      obtain ⟨step, hstep, rfl⟩ := List.mem_map.1 hmem
      rw [dependencies_eq hids hstep] at hdep
      exact ⟨step, hstep, rfl, hdep⟩

theorem findSome?_unknownDependency :
    steps.findSome? (unknownDependency steps) = none ↔ Closed steps := by
  simp only [List.findSome?_eq_none_iff, unknownDependency, Option.map_eq_none_iff,
    List.find?_eq_none, decide_eq_true_eq, not_not, Closed]

theorem topologicalOrder_of_closed (hclosed : Closed steps) :
    topologicalOrder steps =
      if (Kahn.finish (steps.map (·.stepId)) (dependencies steps) (dependents steps)).length ≠
          (steps.map (·.stepId)).length then
        .error (.contract "cyclic_dependency" "workflow steps contain a dependency cycle")
      else .ok (Kahn.finish (steps.map (·.stepId)) (dependencies steps) (dependents steps)) := by
  rw [topologicalOrder, findSome?_unknownDependency.2 hclosed]
  rfl

/-- The order of the steps is the greedy order of all of them. -/
theorem topologicalOrder_eq_ok (hids : (steps.map (·.stepId)).Nodup) {order : List String} :
    topologicalOrder steps = .ok order ↔
      Closed steps ∧ Greedy (steps.map (·.stepId)) (dependencies steps) order ∧
        order.length = (steps.map (·.stepId)).length := by
  by_cases hclosed : Closed steps
  · have hgraph := describes hids hclosed
    have hgreedy := Kahn.finish_greedy hgraph
    rw [topologicalOrder_of_closed hclosed]
    split
    · next hshort =>
      refine iff_of_false (fun h => by cases h) fun ⟨_, horder, hlength⟩ => hshort ?_
      have hacyclic := horder.acyclic fun v hv => (horder.perm hlength.ge).mem_iff.2 hv
      exact (Kahn.finish_length_iff hgraph).2 hacyclic
    · next hfull =>
      rw [not_not] at hfull
      rw [Except.ok.injEq]
      constructor
      · rintro rfl
        exact ⟨hclosed, hgreedy, hfull⟩
      · rintro ⟨-, horder, hlength⟩
        exact hgreedy.unique horder (hfull.trans hlength.symm)
  · refine iff_of_false (fun h => ?_) fun h => hclosed h.1
    obtain ⟨⟨stepId, dep⟩, hfound⟩ :=
      Option.ne_none_iff_exists'.1 (mt findSome?_unknownDependency.1 hclosed)
    rw [topologicalOrder, hfound] at h
    cases h

/-- The steps have an order when their dependencies are steps and leave no cycle. -/
theorem exists_topologicalOrder (hids : (steps.map (·.stepId)).Nodup) :
    (∃ order, topologicalOrder steps = .ok order) ↔
      Closed steps ∧ Acyclic (steps.map (·.stepId)) (dependencies steps) := by
  simp only [topologicalOrder_eq_ok hids]
  constructor
  · rintro ⟨order, hclosed, horder, hlength⟩
    exact ⟨hclosed, horder.acyclic fun v hv => (horder.perm hlength.ge).mem_iff.2 hv⟩
  · rintro ⟨hclosed, hacyclic⟩
    have hgraph := describes hids hclosed
    exact ⟨_, hclosed, Kahn.finish_greedy hgraph, (Kahn.finish_length_iff hgraph).2 hacyclic⟩

end Order

/-! ## Acceptance -/

theorem checkCollection_eq_ok {fieldName : String} {values : List String} :
    checkCollection fieldName true values = .ok () ↔ values ≠ [] ∧ isCollection values = true := by
  simp only [checkCollection, bind_eq_ok, require_eq_ok, exists_unit, isCollection,
    Bool.and_eq_true, decide_eq_true_eq, true_and, ne_eq, and_assoc]

theorem discard_eq_ok {ε α : Type} {x : Except ε α} :
    discard x = .ok ⟨⟩ ↔ ∃ a, x = .ok a := by
  cases x with
  | error e => exact iff_of_false (fun h => by cases h) (fun ⟨_, h⟩ => by cases h)
  | ok a => exact iff_of_true rfl ⟨a, rfl⟩

theorem check_eq_ok {workflowId version contentHash : String} {steps : List StepDefinition} :
    WorkflowDefinition.check sha256 workflowId version steps contentHash = .ok () ↔
      isIdentifier workflowId = true ∧ isVersion version = true ∧ isDigest contentHash = true ∧
        steps ≠ [] ∧ isCollection (steps.map (·.stepId)) = true ∧
        (∀ step ∈ steps, step.Sealed sha256) ∧ Closed steps ∧
        Acyclic (steps.map (·.stepId)) (dependencies steps) := by
  simp only [WorkflowDefinition.check, bind_eq_ok, require_eq_ok, exists_unit, checkCollection_eq_ok,
    forM_eq_ok, discard_eq_ok, ne_eq, List.map_eq_nil_iff]
  constructor
  · rintro ⟨hworkflow, hversion, ⟨hsome, hids⟩, hsealed, horder, hhash⟩
    exact ⟨hworkflow, hversion, hhash, hsome, hids, hsealed,
      (exists_topologicalOrder (nodup_of_isCollection hids)).1 horder⟩
  · rintro ⟨hworkflow, hversion, hhash, hsome, hids, hsealed, hgraph⟩
    exact ⟨hworkflow, hversion, ⟨hsome, hids⟩, hsealed,
      (exists_topologicalOrder (nodup_of_isCollection hids)).2 hgraph, hhash⟩

/-! ## What a step is hashed as -/

theorem verifyContentHash_eq_ok {contentHash : String} {preimage : Value} :
    verifyContentHash sha256 contentHash preimage = .ok () ↔
      contentHash ≠ UNSEALED_CONTENT_HASH ∧ canonicalHash sha256 preimage = .ok contentHash := by
  simp only [verifyContentHash, bind_eq_ok, require_eq_ok, exists_unit]
  constructor
  · rintro ⟨hsealed, computed, hcomputed, rfl⟩
    exact ⟨hsealed, hcomputed⟩
  · rintro ⟨hsealed, hcomputed⟩
    exact ⟨hsealed, contentHash, hcomputed, rfl⟩

theorem denote_optionalValue_injective {α : Type} {write : α → Value}
    (hwrite : Function.Injective fun a => denote (write a))
    (hnull : ∀ a, denote (write a) ≠ .null) :
    Function.Injective fun a => denote (optionalValue write a) := by
  intro a b h
  cases a with
  | none =>
    cases b with
    | none => rfl
    | some b => exact absurd h.symm (hnull b)
  | some a =>
    cases b with
    | none => exact absurd h (hnull a)
    | some b => exact congrArg some (hwrite h)

theorem denote_mappingOf_ne_null (members : List (String × Value)) :
    denote (mappingOf members) ≠ .null := by
  intro h
  rw [mappingOf, denote] at h
  cases h

theorem BranchOperator.text_injective : Function.Injective BranchOperator.text := by
  intro a b
  cases a <;> cases b <;> decide

theorem ExecutionClass.text_injective : Function.Injective ExecutionClass.text := by
  intro a b
  cases a <;> cases b <;> decide

theorem denote_int {m n : Int} : denote (.int m) = denote (.int n) ↔ m = n := by
  simp only [denote, IJson.number.injEq, Int.cast_inj]

theorem BranchDefinition.denote_preimage_injective :
    Function.Injective fun branch => denote (BranchDefinition.preimage branch) := by
  intro a b h
  have hmembers := denote_mappingOf_eq_iff.1 h
  have hkey := hmembers "input_key"
  have hoperator := hmembers "operator"
  have hexpected := hmembers "expected_value"
  simp only [List.lookup_cons, String.reduceBEq, beq_self_eq_true, Option.map_some,
    Option.some.injEq] at hkey hoperator hexpected
  have hvalue := denote_optionalValue_injective (fun _ _ h => denote_textValue.1 h)
    (fun s h => by cases h) hexpected
  have hoperator' := BranchOperator.text_injective (denote_textValue.1 hoperator)
  cases a
  cases b
  simp_all [denote_textValue]

theorem LoopDefinition.denote_preimage_injective :
    Function.Injective fun loop => denote (LoopDefinition.preimage loop) := by
  intro a b h
  have hmembers := denote_mappingOf_eq_iff.1 h
  have hiterations := hmembers "max_iterations"
  have hbudget := hmembers "per_iteration_budget"
  have htotal := hmembers "total_budget"
  simp only [List.lookup_cons, String.reduceBEq, beq_self_eq_true, Option.map_some,
    Option.some.injEq, denote_int, Nat.cast_inj] at hiterations hbudget htotal
  cases a
  cases b
  simp_all

theorem ChildWorkflowDefinition.denote_preimage_injective :
    Function.Injective fun child => denote (ChildWorkflowDefinition.preimage child) := by
  intro a b h
  have hmembers := denote_mappingOf_eq_iff.1 h
  have hworkflow := hmembers "workflow_id"
  have hversion := hmembers "version"
  have hhash := hmembers "workflow_hash"
  have hbudget := hmembers "budget"
  simp only [List.lookup_cons, String.reduceBEq, beq_self_eq_true, Option.map_some,
    Option.some.injEq, denote_textValue, denote_int, Nat.cast_inj] at hworkflow hversion hhash hbudget
  cases a
  cases b
  simp_all

theorem declared_eq_of_denote {a b : StepDefinition}
    (h : denote a.canonicalPreimage = denote b.canonicalPreimage) : a.declared = b.declared := by
  have hmembers := denote_mappingOf_eq_iff.1 h
  have hstep := hmembers "step_id"
  have hcomponent := hmembers "component_id"
  have hversion := hmembers "component_version"
  have hclass := hmembers "execution_class"
  have hdepends := hmembers "depends_on"
  have hbranch := hmembers "branch"
  have hloop := hmembers "loop"
  have hchild := hmembers "child_workflow"
  simp only [List.lookup_cons, String.reduceBEq, beq_self_eq_true, Option.map_some,
    Option.some.injEq] at hstep hcomponent hversion hclass hdepends hbranch hloop hchild
  simp only [StepDefinition.declared, Declared.mk.injEq]
  exact ⟨denote_textValue.1 hstep, denote_textValue.1 hcomponent, denote_textValue.1 hversion,
    ExecutionClass.text_injective (denote_textValue.1 hclass),
    (denote_sequence_eq_iff fun _ _ => denote_textValue.1).1 hdepends,
    denote_optionalValue_injective BranchDefinition.denote_preimage_injective
      (fun _ => denote_mappingOf_ne_null _) hbranch,
    denote_optionalValue_injective LoopDefinition.denote_preimage_injective
      (fun _ => denote_mappingOf_ne_null _) hloop,
    denote_optionalValue_injective ChildWorkflowDefinition.denote_preimage_injective
      (fun _ => denote_mappingOf_ne_null _) hchild⟩

theorem canonicalPreimage_eq_of_declared {a b : StepDefinition} (h : a.declared = b.declared) :
    a.canonicalPreimage = b.canonicalPreimage := by
  simp only [StepDefinition.declared, Declared.mk.injEq] at h
  obtain ⟨hstep, hcomponent, hversion, hclass, hdepends, hbranch, hloop, hchild⟩ := h
  rw [StepDefinition.canonicalPreimage, StepDefinition.canonicalPreimage, hstep, hcomponent, hversion,
    hclass, hdepends, hbranch, hloop, hchild]

theorem eq_of_declared {a b : StepDefinition} (ha : a.Sealed sha256) (hb : b.Sealed sha256)
    (h : a.declared = b.declared) : a = b := by
  have hpreimage := canonicalPreimage_eq_of_declared h
  obtain ⟨-, hasha⟩ := verifyContentHash_eq_ok.1 ha
  obtain ⟨-, hbsha⟩ := verifyContentHash_eq_ok.1 hb
  rw [hpreimage, hbsha, Except.ok.injEq] at hasha
  simp only [StepDefinition.declared, Declared.mk.injEq] at h
  cases a
  cases b
  simp_all

theorem eq_contentHash_iff (hsha : Function.Injective sha256) {a b : StepDefinition}
    (ha : a.Sealed sha256) (hb : b.Sealed sha256) :
    a.contentHash = b.contentHash ↔ a.declared = b.declared := by
  constructor
  · intro h
    obtain ⟨-, hahash⟩ := verifyContentHash_eq_ok.1 ha
    obtain ⟨-, hbhash⟩ := verifyContentHash_eq_ok.1 hb
    rw [h] at hahash
    exact declared_eq_of_denote (denote_eq_of_canonicalHash hsha hahash hbhash)
  · intro h
    rw [eq_of_declared ha hb h]

/-! ## Definitions of one authoring -/

namespace WorkflowDefinition

variable {a b : WorkflowDefinition sha256}

theorem accepted (definition : WorkflowDefinition sha256) :
    isIdentifier definition.workflowId = true ∧ isVersion definition.version = true ∧
      isDigest definition.contentHash = true ∧ definition.steps ≠ [] ∧
      isCollection (definition.steps.map (·.stepId)) = true ∧
      (∀ step ∈ definition.steps, step.Sealed sha256) ∧ Closed definition.steps ∧
      Acyclic (definition.steps.map (·.stepId)) (dependencies definition.steps) :=
  check_eq_ok.1 definition.checked

theorem stepIds_nodup (definition : WorkflowDefinition sha256) :
    (definition.steps.map (·.stepId)).Nodup :=
  nodup_of_isCollection definition.accepted.2.2.2.2.1

theorem step_sealed (definition : WorkflowDefinition sha256) :
    ∀ step ∈ definition.steps, step.Sealed sha256 :=
  definition.accepted.2.2.2.2.2.1

/-- Definitions that declare the same have the same steps. -/
theorem steps_perm (h : a.authoring = b.authoring) : a.steps.Perm b.steps := by
  have hdeclared : (a.steps.map StepDefinition.declared).Perm (b.steps.map StepDefinition.declared) :=
    Multiset.coe_eq_coe.1 (Authoring.mk.inj h).2.2
  refine (List.perm_ext_iff_of_nodup a.stepIds_nodup.of_map b.stepIds_nodup.of_map).2 fun step => ?_
  constructor
  · intro hstep
    have hmem := hdeclared.mem_iff.1 (List.mem_map_of_mem hstep)
    obtain ⟨step', hstep', hsame⟩ := List.mem_map.1 hmem
    rwa [← eq_of_declared (b.step_sealed step' hstep') (a.step_sealed step hstep) hsame]
  · intro hstep
    have hmem := hdeclared.mem_iff.2 (List.mem_map_of_mem hstep)
    obtain ⟨step', hstep', hsame⟩ := List.mem_map.1 hmem
    rwa [← eq_of_declared (a.step_sealed step' hstep') (b.step_sealed step hstep) hsame]

/-- Definitions that declare the same are hashed alike. -/
theorem contentHash_eq (ha : a.verify = .ok ()) (hb : b.verify = .ok ())
    (h : a.authoring = b.authoring) : a.contentHash = b.contentHash := by
  have hsorted : sortBy StepDefinition.stepId a.steps = sortBy StepDefinition.stepId b.steps :=
    (sortBy_eq_iff_perm (List.inj_on_of_nodup_map a.stepIds_nodup)).2 (steps_perm h)
  have hpreimage : workflowPreimage a.workflowId a.version a.steps =
      workflowPreimage b.workflowId b.version b.steps := by
    simp only [authoring, Authoring.mk.injEq] at h
    change workflowPreimage _ _ _ = mappingOf [_, _, ("steps", .sequence
      ((sortBy StepDefinition.stepId b.steps).map fun step => textValue step.contentHash))]
    rw [← hsorted, ← h.1, ← h.2.1]
    rfl
  obtain ⟨-, hahash⟩ := verifyContentHash_eq_ok.1 ha
  obtain ⟨-, hbhash⟩ := verifyContentHash_eq_ok.1 hb
  rw [hpreimage, hbhash, Except.ok.injEq] at hahash
  exact hahash.symm

theorem authoring_eq (hsha : Function.Injective sha256) (ha : a.verify = .ok ())
    (hb : b.verify = .ok ()) (h : a.contentHash = b.contentHash) : a.authoring = b.authoring := by
  obtain ⟨-, hahash⟩ := verifyContentHash_eq_ok.1 ha
  obtain ⟨-, hbhash⟩ := verifyContentHash_eq_ok.1 hb
  rw [h] at hahash
  have hmembers := denote_mappingOf_eq_iff.1 (denote_eq_of_canonicalHash hsha hahash hbhash)
  have hworkflow := hmembers "workflow_id"
  have hversion := hmembers "version"
  have hsteps := hmembers "steps"
  simp only [List.lookup_cons, String.reduceBEq, beq_self_eq_true, Option.map_some,
    Option.some.injEq, denote_textValue] at hworkflow hversion hsteps
  have hhashes : (sortBy StepDefinition.stepId a.steps).map StepDefinition.contentHash =
      (sortBy StepDefinition.stepId b.steps).map StepDefinition.contentHash := by
    have htext : Function.Injective fun s => denote (textValue s) := fun _ _ => denote_textValue.1
    refine (denote_sequence_eq_iff htext).1 ?_
    rw [List.map_map, List.map_map]
    exact hsteps
  have hdeclared := (map_eq_map_iff_of fun s hs t ht => eq_contentHash_iff hsha
    (a.step_sealed s (mem_sortBy.1 hs)) (b.step_sealed t (mem_sortBy.1 ht))).1 hhashes
  have hperm := ((perm_sortBy a.steps).map StepDefinition.declared).symm.trans
    (hdeclared ▸ (perm_sortBy b.steps).map StepDefinition.declared)
  rw [authoring, authoring, hworkflow, hversion, Multiset.coe_eq_coe.2 hperm]

end WorkflowDefinition

/-! ## The plan -/

/-- The steps in an order of their ids, each at its position. -/
def placedSteps (steps : List StepDefinition) (order : List String) : List MaterialisedStep :=
  order.zipIdx.filterMap fun (stepId, index) =>
    (byId steps stepId).map fun step => step.placed index

section Plan

variable {a b definition : WorkflowDefinition sha256} {steps ordered : List StepDefinition}

theorem placedSteps_eq (hids : (steps.map (·.stepId)).Nodup) (hperm : ordered.Perm steps) :
    placedSteps steps (ordered.map (·.stepId)) = ordered.zipIdx.map fun p => p.1.placed p.2 := by
  rw [placedSteps, List.zipIdx_map, List.filterMap_map, ← List.filterMap_eq_map]
  refine List.filterMap_congr fun p hp => ?_
  have hstep : p.1 ∈ steps := hperm.mem_iff.1 (List.fst_mem_of_mem_zipIdx hp)
  simp only [Function.comp_apply, Prod.map_fst, Prod.map_snd, id_eq, byId_eq hids hstep,
    Option.map_some]

theorem materialiseWorkflow_eq (hverify : definition.verify = .ok ()) {order : List String}
    (horder : topologicalOrder definition.steps = .ok order) :
    materialiseWorkflow sha256 definition =
      ((placedSteps definition.steps order).mapM (MaterialisedStep.seal sha256) >>=
        MaterialisedWorkflow.construct sha256 definition) := by
  rw [materialiseWorkflow, hverify, ok_bind, forM_eq_ok.2 definition.step_sealed, ok_bind, horder,
    ok_bind]
  rfl

/-- The order of the definition, as an order of its steps. -/
theorem exists_ordered (definition : WorkflowDefinition sha256) :
    ∃ ordered : List StepDefinition, ordered.Perm definition.steps ∧
      topologicalOrder definition.steps = .ok (ordered.map (·.stepId)) ∧
      Greedy (definition.steps.map (·.stepId)) (dependencies definition.steps)
        (ordered.map (·.stepId)) := by
  obtain ⟨-, -, -, -, -, -, hgraph⟩ := definition.accepted
  obtain ⟨order, horder⟩ := (exists_topologicalOrder definition.stepIds_nodup).2 hgraph
  obtain ⟨-, hgreedy, hlength⟩ := (topologicalOrder_eq_ok definition.stepIds_nodup).1 horder
  obtain ⟨ordered, rfl, hordered⟩ : ∃ ordered : List StepDefinition,
      order = ordered.map (·.stepId) ∧ ordered.Perm definition.steps := by
    have hcomp := List.eq_map_comp_perm StepDefinition.stepId
    exact (congrFun₂ hcomp order definition.steps).mpr (hgreedy.perm hlength.ge)
  exact ⟨ordered, hordered, horder, hgreedy⟩

/-- A step that is accepted is accepted at its position. -/
theorem accepted_placed {step : StepDefinition} (hstep : step.Sealed sha256) {index : Nat}
    (hindex : index < 2 ^ 53) : Accepted 0 (step.placed index).canonicalPreimage := by
  obtain ⟨-, hhash⟩ := verifyContentHash_eq_ok.1 hstep
  have haccepted := exists_canonicalHash.1 ⟨_, hhash⟩
  rw [StepDefinition.canonicalPreimage, accepted_mappingOf (by simp)] at haccepted
  rw [MaterialisedStep.canonicalPreimage, accepted_mappingOf (by simp)]
  simp only [List.forall_mem_cons] at haccepted ⊢
  obtain ⟨hdepth, hid, hcomponent, hversion, hclass, hdepends, hbranch, hloop, hchild, -⟩ := haccepted
  obtain ⟨x, hx, -⟩ := requireBinary64_natCast hindex
  exact ⟨hdepth, hid, hcomponent, hversion, hclass, .int (by decide) hx, hdepends,
    accepted_textValue (by decide) _, hbranch, hloop, hchild, by simp⟩

theorem exists_seal {step : StepDefinition} (hstep : step.Sealed sha256) {index : Nat}
    (hindex : index < 2 ^ 53) :
    ∃ placed, MaterialisedStep.seal sha256 (step.placed index) = .ok placed := by
  obtain ⟨hash, hhash⟩ := (@exists_canonicalHash sha256 _).2 (accepted_placed hstep hindex)
  exact ⟨_, by rw [MaterialisedStep.seal, hhash]; rfl⟩

/-- Sealing gives a step its hash and leaves the rest. -/
theorem seal_eq_ok {step placed : MaterialisedStep}
    (h : MaterialisedStep.seal sha256 step = .ok placed) :
    placed = { step with contentHash := placed.contentHash } ∧
      canonicalHash sha256 placed.canonicalPreimage = .ok placed.contentHash := by
  simp only [MaterialisedStep.seal, bind_eq_ok, pure_eq_ok] at h
  obtain ⟨hash, hhash, rfl⟩ := h
  exact ⟨rfl, hhash⟩

/-- What a plan is of: the sealed steps of the definition, at their positions. -/
structure PlanOf (definition : WorkflowDefinition sha256) (ordered : List StepDefinition)
    (plan : MaterialisedWorkflow) : Prop where
  workflowId : plan.workflowId = definition.workflowId
  version : plan.version = definition.version
  definitionHash : plan.definitionHash = definition.contentHash
  steps : List.Forall₂
    (fun (p : StepDefinition × Nat) step => MaterialisedStep.seal sha256 (p.1.placed p.2) = .ok step)
    ordered.zipIdx plan.steps
  verified : plan.verify sha256 = .ok ()

theorem stepIds_of_forall₂ {steps : List MaterialisedStep} {start : Nat}
    (h : List.Forall₂ (fun (p : StepDefinition × Nat) step =>
      MaterialisedStep.seal sha256 (p.1.placed p.2) = .ok step) (ordered.zipIdx start) steps) :
    steps.map (·.stepId) = ordered.map (·.stepId) := by
  induction ordered generalizing steps start with
  | nil =>
    rw [List.zipIdx_nil, List.forall₂_nil_left_iff] at h
    rw [h]
    rfl
  | cons step ordered ih =>
    rw [List.zipIdx_cons, List.forall₂_cons_left_iff] at h
    obtain ⟨placed, steps, hplaced, hsteps, rfl⟩ := h
    rw [List.map_cons, List.map_cons, ih hsteps, (seal_eq_ok hplaced).1]
    rfl

theorem accepted_planPreimage (workflowId version definitionHash : String)
    (steps : List MaterialisedStep) :
    Accepted 0 (planPreimage workflowId version definitionHash steps) := by
  rw [planPreimage, accepted_mappingOf (by simp)]
  simp only [List.forall_mem_cons]
  refine ⟨by decide, accepted_textValue (by decide) _, accepted_textValue (by decide) _,
    accepted_textValue (by decide) _, .sequence (by decide) fun item hitem => ?_, by simp⟩
  obtain ⟨step, -, rfl⟩ := List.mem_map.1 hitem
  exact accepted_textValue (by decide) _

/-- A definition that carries its own hash has a plan. -/
theorem exists_plan (hunsealed : ∀ payload, "sha256:" ++ sha256 payload ≠ UNSEALED_CONTENT_HASH)
    (hverify : definition.verify = .ok ()) (hperm : ordered.Perm definition.steps)
    (horder : topologicalOrder definition.steps = .ok (ordered.map (·.stepId))) :
    ∃ plan, materialiseWorkflow sha256 definition = .ok plan ∧ PlanOf definition ordered plan := by
  obtain ⟨hworkflow, hversion, -, hsome, hids, hsealed, -, -⟩ := definition.accepted
  have hverified : ∀ {preimage hash}, canonicalHash sha256 preimage = .ok hash →
      verifyContentHash sha256 hash preimage = .ok () := by
    intro preimage hash h
    obtain ⟨payload, -, rfl⟩ := canonicalHash_eq_ok.1 h
    exact verifyContentHash_eq_ok.2 ⟨hunsealed payload, h⟩
  obtain ⟨steps, hsteps⟩ : ∃ steps, (ordered.zipIdx.map fun p => p.1.placed p.2).mapM
      (MaterialisedStep.seal sha256) = .ok steps := by
    refine mapM_isOk.2 fun placed hplaced => ?_
    obtain ⟨p, hp, rfl⟩ := List.mem_map.1 hplaced
    refine exists_seal (hsealed _ (hperm.mem_iff.1 (List.fst_mem_of_mem_zipIdx hp))) ?_
    have hindex := List.snd_lt_of_mem_zipIdx hp
    have hlength := hperm.length_eq
    have hbound := length_le_of_isCollection hids
    rw [List.length_map, MAX_COLLECTION_LENGTH] at hbound
    omega
  have hforall := mapM_eq_ok.1 hsteps
  rw [List.forall₂_map_left_iff] at hforall
  have hcollected : isCollection (steps.map (·.stepId)) = true := by
    rw [stepIds_of_forall₂ hforall]
    exact isCollection_perm (hperm.map _) hids
  have hnonempty : steps.map (·.stepId) ≠ [] := by
    rw [stepIds_of_forall₂ hforall]
    intro hnil
    rw [List.map_eq_nil_iff] at hnil
    rw [hnil] at hperm
    exact hsome hperm.symm.eq_nil
  have hchecked : ∀ step ∈ steps,
      verifyContentHash sha256 step.contentHash step.canonicalPreimage = .ok () := by
    intro step hstep
    obtain ⟨p, -, hp⟩ := exists_of_forall₂_right hforall hstep
    exact hverified (seal_eq_ok hp).2
  obtain ⟨hash, hhash⟩ := (@exists_canonicalHash sha256 _).2 (accepted_planPreimage
    definition.workflowId definition.version definition.contentHash steps)
  refine ⟨⟨_, _, _, steps, hash, hcollected⟩, ?_, ⟨rfl, rfl, rfl, hforall, hverified hhash⟩⟩
  rw [materialiseWorkflow_eq hverify horder, placedSteps_eq definition.stepIds_nodup hperm, hsteps,
    ok_bind, MaterialisedWorkflow.construct, checkCollection_eq_ok.2 ⟨hnonempty, hcollected⟩, ok_bind,
    forM_eq_ok.2 hchecked, ok_bind, hhash, ok_bind, dif_pos hcollected]
  rfl

theorem byId_perm (hids : (steps.map (·.stepId)).Nodup) (hperm : ordered.Perm steps)
    (stepId : String) : byId ordered stepId = byId steps stepId := by
  have hids' : (ordered.map (·.stepId)).Nodup := (hperm.map _).nodup_iff.2 hids
  by_cases hmem : ∃ step ∈ steps, step.stepId = stepId
  · obtain ⟨step, hstep, rfl⟩ := hmem
    rw [byId_eq hids hstep, byId_eq hids' (hperm.mem_iff.2 hstep)]
  · have hnone : ∀ step ∈ steps, step.stepId ≠ stepId := fun step hstep h => hmem ⟨step, hstep, h⟩
    rw [byId, byId, List.find?_eq_none.2 fun step hstep => by
      simpa using hnone step (hperm.mem_iff.1 hstep), List.find?_eq_none.2 fun step hstep => by
      simpa using hnone step hstep]

/-- The order does not depend on the order the steps stand in. -/
theorem topologicalOrder_perm (hids : (steps.map (·.stepId)).Nodup) (hperm : ordered.Perm steps)
    {order : List String} (horder : topologicalOrder steps = .ok order) :
    topologicalOrder ordered = .ok order := by
  have hids' : (ordered.map (·.stepId)).Nodup := (hperm.map _).nodup_iff.2 hids
  obtain ⟨hclosed, hgreedy, hlength⟩ := (topologicalOrder_eq_ok hids).1 horder
  refine (topologicalOrder_eq_ok hids').2 ⟨fun step hstep dep hdep => ?_, ?_, ?_⟩
  · exact (hperm.map _).mem_iff.2 (hclosed step (hperm.mem_iff.1 hstep) dep hdep)
  · refine hgreedy.congr (fun v => (hperm.map _).mem_iff.symm) fun v _ d => ?_
    rw [dependencies, dependencies, byId_perm hids hperm]
  · rw [hlength, (hperm.map _).length_eq]

/-- Definitions that declare the same have one plan. -/
theorem materialiseWorkflow_congr (ha : a.verify = .ok ()) (hb : b.verify = .ok ())
    (h : a.authoring = b.authoring) : materialiseWorkflow sha256 a = materialiseWorkflow sha256 b := by
  have hperm := WorkflowDefinition.steps_perm h
  have hhash := WorkflowDefinition.contentHash_eq ha hb h
  obtain ⟨ordered, -, horder, -⟩ := exists_ordered b
  have hplaced : ∀ order, placedSteps a.steps order = placedSteps b.steps order := by
    intro order
    simp only [placedSteps, byId_perm b.stepIds_nodup hperm]
  have hconstruct : MaterialisedWorkflow.construct sha256 a = MaterialisedWorkflow.construct sha256 b := by
    simp only [WorkflowDefinition.authoring, Authoring.mk.injEq] at h
    funext steps
    simp only [MaterialisedWorkflow.construct, h.1, h.2.1, hhash]
  rw [materialiseWorkflow_eq ha (topologicalOrder_perm b.stepIds_nodup hperm horder),
    materialiseWorkflow_eq hb horder, hplaced, hconstruct]

end Plan

/-! ## One graph, one plan -/

/-- A definition is accepted when it is within its bounds, its steps are sealed, their dependencies are
steps and leave no cycle. A definition that carries its own hash has a plan: its steps in the greedy
order of the graph. Definitions that declare the same steps in any order have one hash and one plan,
and definitions of one hash or one plan have one graph. -/
theorem materialisation_canonical (hsha : Function.Injective sha256)
    (hunsealed : ∀ payload, "sha256:" ++ sha256 payload ≠ UNSEALED_CONTENT_HASH) :
    (∀ workflowId version steps contentHash,
      WorkflowDefinition.check sha256 workflowId version steps contentHash = .ok () ↔
        isIdentifier workflowId = true ∧ isVersion version = true ∧ isDigest contentHash = true ∧
          steps ≠ [] ∧ isCollection (steps.map (·.stepId)) = true ∧
          (∀ step ∈ steps, step.Sealed sha256) ∧ Closed steps ∧
          Acyclic (steps.map (·.stepId)) (dependencies steps)) ∧
    (∀ definition : WorkflowDefinition sha256, definition.verify = .ok () →
      ∃ ordered plan, materialiseWorkflow sha256 definition = .ok plan ∧
        PlanOf definition ordered plan ∧ ordered.Perm definition.steps ∧
        Greedy (definition.steps.map (·.stepId)) (dependencies definition.steps)
          (ordered.map (·.stepId))) ∧
    ∀ a b : WorkflowDefinition sha256, a.verify = .ok () → b.verify = .ok () →
      (a.authoring = b.authoring → a.contentHash = b.contentHash ∧
        materialiseWorkflow sha256 a = materialiseWorkflow sha256 b) ∧
      (a.contentHash = b.contentHash ∨
        materialiseWorkflow sha256 a = materialiseWorkflow sha256 b → a.graph = b.graph) := by
  have hplan : ∀ definition : WorkflowDefinition sha256, definition.verify = .ok () →
      ∃ ordered plan, materialiseWorkflow sha256 definition = .ok plan ∧
        PlanOf definition ordered plan ∧ ordered.Perm definition.steps ∧
        Greedy (definition.steps.map (·.stepId)) (dependencies definition.steps)
          (ordered.map (·.stepId)) := by
    intro definition hverify
    obtain ⟨ordered, hperm, horder, hgreedy⟩ := exists_ordered definition
    obtain ⟨plan, hmaterialise, hplan⟩ := exists_plan hunsealed hverify hperm horder
    exact ⟨ordered, plan, hmaterialise, hplan, hperm, hgreedy⟩
  refine ⟨fun _ _ _ _ => check_eq_ok, hplan, fun a b ha hb => ⟨fun h => ?_, fun h => ?_⟩⟩
  · exact ⟨WorkflowDefinition.contentHash_eq ha hb h, materialiseWorkflow_congr ha hb h⟩
  · have hhash : a.contentHash = b.contentHash := by
      rcases h with hhash | hsame
      · exact hhash
      · obtain ⟨_, plan, hmaterialise, hofa, -⟩ := hplan a ha
        obtain ⟨_, plan', hmaterialise', hofb, -⟩ := hplan b hb
        rw [hmaterialise, hmaterialise', Except.ok.injEq] at hsame
        rw [← hofa.definitionHash, hsame, hofb.definitionHash]
    exact WorkflowDefinition.graph_eq_of_authoring (WorkflowDefinition.authoring_eq hsha ha hb hhash)

/-! ## Two listings of one graph -/

theorem tabledDigest_unsealed (table : List (List UInt8)) (payload : List UInt8) :
    "sha256:" ++ tabledDigest table payload ≠ UNSEALED_CONTENT_HASH := by
  intro h
  have hzero : tabledDigest table payload = String.ofList (List.replicate 64 '0') := by
    have hchars := congrArg String.toList h
    simp only [UNSEALED_CONTENT_HASH, String.toList_append] at hchars
    exact String.toList_injective (List.append_cancel_left hchars)
  exact tabledDigest_ne_zeros _ payload hzero

/-- A step of one component, sealed with an entry of the table. -/
def tabledStep (stepId : String) (executionClass : ExecutionClass) (dependsOn : List String)
    (entry : Nat)
    (stepId_valid : isIdentifier stepId = true) (dependsOn_valid : isCollection dependsOn = true)
    (not_self : stepId ∉ dependsOn)
    (contentHash_valid : isDigest ("sha256:" ++ tableEntry entry) = true) : StepDefinition where
  stepId := stepId
  componentId := "component"
  componentVersion := "1.0.0"
  executionClass := executionClass
  dependsOn := dependsOn
  branch := none
  loop := none
  childWorkflow := none
  contentHash := "sha256:" ++ tableEntry entry
  stepId_valid := stepId_valid
  componentId_valid := by decide
  componentVersion_valid := by decide
  dependsOn_valid := dependsOn_valid
  not_self := not_self
  child_waits := by simp
  contentHash_valid := contentHash_valid

def collectStep : StepDefinition :=
  tabledStep "collect" .deterministic [] 0 (by decide) (by decide) (by decide) (by decide +kernel)

def reviewStep : StepDefinition :=
  tabledStep "review" .deterministic [] 1 (by decide) (by decide) (by decide) (by decide +kernel)

def publishStep : StepDefinition :=
  tabledStep "publish" .deterministic ["collect", "review"] 2 (by decide) (by decide) (by decide)
    (by decide +kernel)

def relistedStep : StepDefinition :=
  tabledStep "publish" .deterministic ["review", "collect"] 3 (by decide) (by decide) (by decide)
    (by decide +kernel)

def payload (value : Value) : List UInt8 :=
  match canonicalBytes value [] with
  | .ok payload => payload
  | .error _ => []

/-- The digest of the four steps and the two workflows. -/
def listingDigest : List UInt8 → String :=
  tabledDigest ([collectStep.canonicalPreimage, reviewStep.canonicalPreimage,
    publishStep.canonicalPreimage, relistedStep.canonicalPreimage,
    workflowPreimage "release" "1.0.0" [publishStep, collectStep, reviewStep],
    workflowPreimage "release" "1.0.0" [relistedStep, collectStep, reviewStep]].map payload)

def listedWorkflow : WorkflowDefinition listingDigest where
  workflowId := "release"
  version := "1.0.0"
  steps := [publishStep, collectStep, reviewStep]
  contentHash := "sha256:" ++ tableEntry 4
  checked := by decide +kernel

def relistedWorkflow : WorkflowDefinition listingDigest where
  workflowId := "release"
  version := "1.0.0"
  steps := [relistedStep, collectStep, reviewStep]
  contentHash := "sha256:" ++ tableEntry 5
  checked := by decide +kernel

theorem node_relistedStep : relistedStep.declared.node = publishStep.declared.node := by
  have hlisted : (["review", "collect"] : List String).toFinset = ["collect", "review"].toFinset := by
    decide
  simp only [StepDefinition.declared, Declared.node, Declared.mk.injEq]
  exact ⟨rfl, rfl, rfl, rfl, hlisted, rfl, rfl, rfl⟩

/-- No steps are a graph without cycles, and are refused; and the hash of a step depends on the order its
dependencies are listed in. -/
theorem listing_changes_contentHash :
    (Closed [] ∧ Acyclic ([] : List String) (dependencies []) ∧
      ∀ workflowId version contentHash,
        WorkflowDefinition.check listingDigest workflowId version [] contentHash ≠ .ok ()) ∧
    Function.Injective listingDigest ∧ listedWorkflow.verify = .ok () ∧
    relistedWorkflow.verify = .ok () ∧ listedWorkflow.graph = relistedWorkflow.graph ∧
    listedWorkflow.contentHash ≠ relistedWorkflow.contentHash := by
  refine ⟨⟨fun step hstep => absurd hstep List.not_mem_nil, fun v hcycle => ?_, fun _ _ _ h => ?_⟩,
    tabledDigest_injective _, by decide +kernel, by decide +kernel, ?_, by decide +kernel⟩
  · obtain ⟨d, ⟨hmem, -⟩, -⟩ := Relation.TransGen.head'_iff.1 hcycle
    exact List.not_mem_nil hmem
  · obtain ⟨-, -, -, hsome, -⟩ := check_eq_ok.1 h
    exact hsome rfl
  · simp only [WorkflowDefinition.graph, listedWorkflow, relistedWorkflow, List.map_cons,
      List.map_nil, node_relistedStep]

/-- What is ready is placed in the order of the ids: the plan of the listed workflow. -/
theorem materialisation_canonical_listed :
    ∃ plan, materialiseWorkflow listingDigest listedWorkflow = .ok plan ∧
      plan.steps.map (·.stepId) = ["collect", "review", "publish"] := by
  obtain ⟨-, hplan, -⟩ :=
    materialisation_canonical (tabledDigest_injective _) (tabledDigest_unsealed _)
  obtain ⟨ordered, plan, hmaterialise, hof, hperm, hgreedy⟩ :=
    hplan listedWorkflow (by decide +kernel)
  obtain ⟨-, hlisted, hlength⟩ := (topologicalOrder_eq_ok listedWorkflow.stepIds_nodup).1
    (show topologicalOrder listedWorkflow.steps = .ok ["collect", "review", "publish"] by
      decide +kernel)
  refine ⟨plan, hmaterialise, (stepIds_of_forall₂ hof.steps).trans ?_⟩
  exact hgreedy.unique hlisted (((hperm.map _).length_eq).trans hlength.symm)

end OmniviaCore.Execution.Workflow
