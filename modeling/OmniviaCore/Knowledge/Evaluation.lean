import OmniviaCore.Knowledge.Applicability

/-!
# What an evaluation computes

A walk of an expression returns the truth of the expression over the values the facts resolve to
(`truthOf`), and has looked up every fact it names, in order (`evaluateNode_returns`): nothing it finds
changes what it looks up next. `evaluateApplicability_eq_ok` says the same of a whole evaluation.
-/

namespace OmniviaCore.Knowledge

open Lib

/-! ## Facts -/

def FactEntry.single (entry : FactEntry) : Option Operand :=
  match entry.values with
  | [] => none
  | value :: _ => if entry.conflicting then none else some value

def FactSnapshot.resolve (snapshot : FactSnapshot) (name : String) : Option Operand :=
  (snapshot.facts.get name).bind FactEntry.single

/-- The ledger after a fact is looked up. -/
def Ledger.consulted (snapshot : FactSnapshot) (ledger : Ledger) (name : String) : Ledger :=
  match snapshot.facts.get name with
  | none => { ledger with hiddenUnresolved := true }
  | some entry =>
    if entry.single.isSome then ledger.resolved name entry else ledger.unresolved name entry

theorem consult_eq (name : String) (snapshot : FactSnapshot) (ledger : Ledger) :
    consult name snapshot ledger =
      .ok (snapshot.resolve name) (ledger.consulted snapshot name) := by
  unfold consult FactSnapshot.resolve Ledger.consulted
  cases snapshot.facts.get name with
  | none => rfl
  | some entry =>
    cases hvalues : entry.values with
    | nil =>
      have hsingle : entry.single = none := by rw [FactEntry.single, hvalues]
      simp only [hvalues, Option.bind_some, hsingle]
      rfl
    | cons value values =>
      by_cases hconflicting : entry.conflicting
      · have hsingle : entry.single = none := by
          rw [FactEntry.single, hvalues]
          exact if_pos hconflicting
        simp only [hvalues, Option.bind_some, hsingle, if_pos hconflicting]
        rfl
      · have hsingle : entry.single = some value := by
          rw [FactEntry.single, hvalues]
          exact if_neg hconflicting
        simp only [hvalues, Option.bind_some, hsingle, if_neg hconflicting]
        rfl

/-! ## Expressions -/

/-- Induction over an expression and its children. -/
theorem ApplicabilityNode.induct {motive : ApplicabilityNode → Prop}
    (comparison : ∀ node, motive (.comparison node))
    (boolean : ∀ operator children, (∀ child ∈ children, motive child) →
      motive (.boolean operator children)) (node : ApplicabilityNode) : motive node :=
  @ApplicabilityNode.rec motive (fun children => ∀ child ∈ children, motive child)
    comparison boolean (fun _ h => absurd h List.not_mem_nil)
    (fun _ _ hhead htail _ h => (List.mem_cons.1 h).elim (fun heq => heq ▸ hhead) (htail _))
    node

def comparisonTruth (snapshot : FactSnapshot) (node : ComparisonNode) : Except Raised TruthValue :=
  match snapshot.resolve node.factRef with
  | none => pure .unknown
  | some value => compareValue node value

mutual

def truthOf (snapshot : FactSnapshot) : ApplicabilityNode → Except Raised TruthValue
  | .comparison node => comparisonTruth snapshot node
  | .boolean operator children => do
    let values ← truthsOf snapshot children
    operator.combine values

def truthsOf (snapshot : FactSnapshot) : List ApplicabilityNode → Except Raised (List TruthValue)
  | [] => pure []
  | child :: children => do
    let value ← truthOf snapshot child
    let values ← truthsOf snapshot children
    pure (value :: values)

end

mutual

/-- The facts an expression names, in order. -/
def factRefs : ApplicabilityNode → List String
  | .comparison node => [node.factRef]
  | .boolean _ children => factRefsOf children

def factRefsOf : List ApplicabilityNode → List String
  | [] => []
  | child :: children => factRefs child ++ factRefsOf children

end

theorem truthsOf_eq (snapshot : FactSnapshot) (children : List ApplicabilityNode) :
    truthsOf snapshot children = children.mapM (truthOf snapshot) := by
  induction children with
  | nil => rfl
  | cons child children ih => rw [truthsOf, List.mapM_cons, ih]

theorem truthsOf_congr {f g : FactSnapshot} {roots : List ApplicabilityNode}
    (h : ∀ root ∈ roots, truthOf f root = truthOf g root) : truthsOf f roots = truthsOf g roots := by
  induction roots with
  | nil => rfl
  | cons root roots ih =>
    rw [truthsOf, truthsOf, h root List.mem_cons_self,
      ih fun root hroot => h root (List.mem_cons_of_mem _ hroot)]

variable {snapshot : FactSnapshot}

/-- What a walk of an expression that returns has computed and looked up. -/
def Walks (snapshot : FactSnapshot) (node : ApplicabilityNode) : Prop :=
  ∀ ledger truth after, evaluateNode snapshot node ledger = .ok truth after ↔
    truthOf snapshot node = .ok truth ∧
      after = (factRefs node).foldl (Ledger.consulted snapshot) ledger

theorem walks_comparison (node : ComparisonNode) : Walks snapshot (.comparison node) := by
  intro ledger truth after
  rw [evaluateNode, truthOf, factRefs, evaluateComparison, comparisonTruth, bind_returns]
  simp only [consult_eq, EStateM.Result.ok.injEq]
  constructor
  · rintro ⟨value, _, ⟨rfl, rfl⟩, h⟩
    cases hvalue : snapshot.resolve node.factRef with
    | none =>
      rw [hvalue] at h
      obtain ⟨rfl, rfl⟩ := pure_returns.1 h
      exact ⟨rfl, rfl⟩
    | some value =>
      rw [hvalue] at h
      obtain ⟨htruth, rfl⟩ := attempt_returns.1 h
      exact ⟨htruth, rfl⟩
  · rintro ⟨htruth, rfl⟩
    refine ⟨_, _, ⟨rfl, rfl⟩, ?_⟩
    cases hvalue : snapshot.resolve node.factRef with
    | none =>
      rw [hvalue] at htruth
      exact pure_returns.2 ⟨pure_eq_ok.1 htruth, rfl⟩
    | some value =>
      rw [hvalue] at htruth
      exact attempt_returns.2 ⟨htruth, rfl⟩

theorem walks_all {children : List ApplicabilityNode} (h : ∀ child ∈ children, Walks snapshot child)
    (ledger : Ledger) (truths : List TruthValue) (after : Ledger) :
    evaluateNodes snapshot children ledger = .ok truths after ↔
      truthsOf snapshot children = .ok truths ∧
        after = (factRefsOf children).foldl (Ledger.consulted snapshot) ledger := by
  induction children generalizing ledger truths after with
  | nil =>
    rw [evaluateNodes, truthsOf, factRefsOf, pure_returns, pure_eq_ok, List.foldl_nil]
    exact and_congr_right fun _ => eq_comm
  | cons child children ih =>
    have hchild := h child List.mem_cons_self
    have hrest := ih fun child hchild => h child (List.mem_cons_of_mem _ hchild)
    simp only [evaluateNodes, truthsOf, factRefsOf, bind_returns, bind_eq_ok, pure_returns,
      pure_eq_ok, hchild _ _ _, hrest _ _ _, List.foldl_append]
    constructor
    · rintro ⟨value, _, ⟨hvalue, rfl⟩, values, _, ⟨hvalues, rfl⟩, rfl, rfl⟩
      exact ⟨⟨value, hvalue, values, hvalues, rfl⟩, rfl⟩
    · rintro ⟨⟨value, hvalue, values, hvalues, rfl⟩, rfl⟩
      exact ⟨value, _, ⟨hvalue, rfl⟩, values, _, ⟨hvalues, rfl⟩, rfl, rfl⟩

/-- A walk returns the truth of the expression and has looked up every fact it names. -/
theorem evaluateNode_returns (snapshot : FactSnapshot) (node : ApplicabilityNode) :
    Walks snapshot node := by
  induction node using ApplicabilityNode.induct with
  | comparison node => exact walks_comparison node
  | boolean operator children ih =>
    intro ledger truth after
    rw [evaluateNode, truthOf, factRefs, bind_returns, bind_eq_ok]
    simp only [walks_all ih _ _ _, attempt_returns]
    constructor
    · rintro ⟨values, _, ⟨hvalues, rfl⟩, hcombine, rfl⟩
      exact ⟨⟨values, hvalues, hcombine⟩, rfl⟩
    · rintro ⟨⟨values, hvalues, hcombine⟩, rfl⟩
      exact ⟨values, _, ⟨hvalues, rfl⟩, hcombine, rfl⟩

/-! ## Whole evaluations -/

/-- The ledger of the facts that were looked up. -/
def consultAll (snapshot : FactSnapshot) (names : List String) : Ledger :=
  names.foldl (Ledger.consulted snapshot) Ledger.empty

theorem evaluateNodes_returns (snapshot : FactSnapshot) (children : List ApplicabilityNode)
    (ledger : Ledger) (truths : List TruthValue) (after : Ledger) :
    evaluateNodes snapshot children ledger = .ok truths after ↔
      truthsOf snapshot children = .ok truths ∧
        after = (factRefsOf children).foldl (Ledger.consulted snapshot) ledger :=
  walks_all (fun child _ => evaluateNode_returns snapshot child) ledger truths after

/-- An evaluation returns when the expressions it reaches have a truth: the required one, and unless that
is refuted the exceptions. -/
theorem evaluateApplicability_eq_ok {reprOf : String → String} {required : ApplicabilityExpression}
    {exceptions : List ApplicabilityExpression} {facts : FactSnapshot} {positionVersionRef : String}
    {result : ApplicabilityResult} :
    evaluateApplicability reprOf required exceptions facts positionVersionRef = .ok result ↔
      isBlank positionVersionRef = false ∧
        (truthOf facts required.root = .ok .false ∧
            result = buildResult reprOf .notApplicable facts.factSnapshotRef positionVersionRef
              (consultAll facts (factRefs required.root))
              (some "A required condition is not satisfied.") ∨
          ∃ truth truths, truthOf facts required.root = .ok truth ∧ truth ≠ .false ∧
            truthsOf facts (exceptions.map (·.root)) = .ok truths ∧
            result = buildResult reprOf (decideOutcome truth truths).1 facts.factSnapshotRef
              positionVersionRef
              (consultAll facts (factRefs required.root ++ factRefsOf (exceptions.map (·.root))))
              (decideOutcome truth truths).2) := by
  have hrequired := evaluateNode_returns facts required.root Ledger.empty
  have hexceptions := evaluateNodes_returns facts (exceptions.map (·.root))
  unfold evaluateApplicability
  rw [bind_eq_ok]
  simp only [require_eq_ok, exists_unit]
  refine and_congr_right fun _ => ?_
  split
  · next e after hraised =>
    have hnone : ∀ truth, truthOf facts required.root ≠ .ok truth := by
      intro truth htruth
      rw [(hrequired truth _).2 ⟨htruth, rfl⟩] at hraised
      cases hraised
    refine iff_of_false (fun h => by cases h) ?_
    rintro (⟨htruth, -⟩ | ⟨truth, _, htruth, -⟩)
    · exact hnone _ htruth
    · exact hnone _ htruth
  · next after hreturned =>
    obtain ⟨htruth, rfl⟩ := (hrequired _ _).1 hreturned
    rw [pure_eq_ok, htruth]
    constructor
    · rintro rfl
      exact .inl ⟨rfl, rfl⟩
    · rintro (⟨-, rfl⟩ | ⟨truth, _, hsame, hne, -⟩)
      · rfl
      · exact absurd (Except.ok.inj hsame).symm hne
  · next truth after hne hreturned =>
    obtain ⟨htruth, rfl⟩ := (hrequired _ _).1 hreturned
    have hreached : ∀ result',
        ((truthOf facts required.root = .ok .false ∧ result = result') ∨
          ∃ t truths, truthOf facts required.root = .ok t ∧ t ≠ .false ∧
            truthsOf facts (exceptions.map (·.root)) = .ok truths ∧
            result = buildResult reprOf (decideOutcome t truths).1 facts.factSnapshotRef
              positionVersionRef
              (consultAll facts (factRefs required.root ++ factRefsOf (exceptions.map (·.root))))
              (decideOutcome t truths).2) ↔
        ∃ truths, truthsOf facts (exceptions.map (·.root)) = .ok truths ∧
          result = buildResult reprOf (decideOutcome truth truths).1 facts.factSnapshotRef
            positionVersionRef
            (consultAll facts (factRefs required.root ++ factRefsOf (exceptions.map (·.root))))
            (decideOutcome truth truths).2 := by
      intro result'
      rw [htruth]
      constructor
      · rintro (⟨hfalse, -⟩ | ⟨t, truths, hsame, -, htruths, hresult⟩)
        · exact absurd (Except.ok.inj hfalse) hne
        · cases hsame
          exact ⟨truths, htruths, hresult⟩
      · rintro ⟨truths, htruths, hresult⟩
        exact .inr ⟨truth, truths, rfl, hne, htruths, hresult⟩
    rw [hreached]
    split
    · next e after hraised =>
      refine iff_of_false (fun h => by cases h) ?_
      rintro ⟨truths, htruths, -⟩
      rw [(hexceptions _ truths _).2 ⟨htruths, rfl⟩] at hraised
      cases hraised
    · next truths after hwalked =>
      obtain ⟨htruths, rfl⟩ := (hexceptions _ _ _).1 hwalked
      rw [pure_eq_ok, htruths, consultAll, List.foldl_append]
      constructor
      · rintro rfl
        exact ⟨truths, rfl, rfl⟩
      · rintro ⟨truths', hsame, rfl⟩
        cases hsame
        rfl

end OmniviaCore.Knowledge
