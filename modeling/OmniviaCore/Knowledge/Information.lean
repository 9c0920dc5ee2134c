import OmniviaCore.Knowledge.Rearrangement
import OmniviaCore.Knowledge.Visibility

/-!
# Learning a fact

The truth of an expression is monotone in what the facts resolve to: over more values it says the same,
or says something where it said nothing (`informs_truthOf`). An evaluation raises where the interval of a
date has no end in the calendar (`truthOf_isOk`). So an outcome that
decides stays as facts are learnt while the dates are in range, and it does not depend on the order
anything is written in when no comparison tells apart two dates the ledger does not
(`applicability_information`).
-/

namespace OmniviaCore.Knowledge

open Lib

variable {f g : FactSnapshot} {v w : Operand}

/-! ## Dates in range -/

/-- If both values are dates, the calendar has the ends of both. -/
def DatesInRange (v w : Operand) : Prop :=
  ∀ a b, v.payload = .date a → w.payload = .date b →
    (∃ bounds, instantBounds a = .ok bounds) ∧ ∃ bounds, instantBounds b = .ok bounds

/-- The values a comparison holds a fact against. -/
def ComparisonNode.operands (node : ComparisonNode) : List Operand := node.right.toList ++ node.members

mutual

/-- The comparisons of an expression, in order. -/
def comparisons : ApplicabilityNode → List ComparisonNode
  | .comparison node => [node]
  | .boolean _ children => comparisonsOf children

def comparisonsOf : List ApplicabilityNode → List ComparisonNode
  | [] => []
  | child :: children => comparisons child ++ comparisonsOf children

end

/-- No comparison of the expression asks for the end of a date in the last unit of the calendar. -/
def InRange (f : FactSnapshot) (node : ApplicabilityNode) : Prop :=
  ∀ comparison ∈ comparisons node, ∀ value, f.resolve comparison.factRef = some value →
    ∀ operand ∈ comparison.operands, DatesInRange value operand

theorem comparisonsOf_eq (children : List ApplicabilityNode) :
    comparisonsOf children = children.flatMap comparisons := by
  induction children with
  | nil => rfl
  | cons child children ih => rw [comparisonsOf, List.flatMap_cons, ih]

theorem inRange_boolean {operator : BooleanOperator} {children : List ApplicabilityNode} :
    InRange f (.boolean operator children) ↔ ∀ child ∈ children, InRange f child := by
  simp only [InRange, comparisons, comparisonsOf_eq, List.mem_flatMap]
  constructor
  · intro h child hchild comparison hcomparison
    exact h comparison ⟨child, hchild, hcomparison⟩
  · rintro h comparison ⟨child, hchild, hcomparison⟩
    exact h child hchild comparison hcomparison

theorem valuesEqual_isOk (hw : w.isValue = true) :
    (∃ truth, valuesEqual v w = .ok truth) ↔ DatesInRange v w := by
  unfold DatesInRange valuesEqual
  cases hpv : v.payload with
  | date a =>
    cases hpw : w.payload with
    | date b =>
      simp only [datesEqual, bind_eq_ok, Payload.date.injEq]
      constructor
      · rintro ⟨truth, left, hleft, right, hright, -⟩ _ _ rfl rfl
        exact ⟨⟨left, hleft⟩, right, hright⟩
      · intro h
        obtain ⟨⟨left, hleft⟩, right, hright⟩ := h a b rfl rfl
        exact ⟨_, left, hleft, right, hright, rfl⟩
    | _ => exact iff_of_true ⟨_, rfl⟩ fun a b _ hb => by cases hb
  | factRef a =>
    refine iff_of_true ?_ fun a b ha => by cases ha
    cases hpw : w.payload with
    | factRef b =>
      rw [Operand.isValue, hpw] at hw
      cases hw
    | _ => exact ⟨_, rfl⟩
  | numeric a =>
    refine iff_of_true ?_ fun a b ha => by cases ha
    cases w.payload with
    | numeric b =>
      dsimp only
      split <;> exact ⟨_, rfl⟩
    | _ => exact ⟨_, rfl⟩
  | _ =>
    refine iff_of_true ?_ fun a b ha => by cases ha
    cases w.payload <;> exact ⟨_, rfl⟩

theorem datesOrdered_isOk {a b : TemporalInstant} {relation : OrderRelation} :
    (∃ truth, datesOrdered relation a b = .ok truth) ↔
      (∃ bounds, instantBounds a = .ok bounds) ∧ ∃ bounds, instantBounds b = .ok bounds := by
  unfold datesOrdered
  simp only [bind_eq_ok]
  constructor
  · rintro ⟨truth, left, hleft, right, hright, -⟩
    exact ⟨⟨left, hleft⟩, right, hright⟩
  · rintro ⟨⟨left, hleft⟩, right, hright⟩
    exact ⟨_, left, hleft, right, hright, rfl⟩

/-- A comparison returns when the dates it compares have ends. -/
theorem compareValue_isOk {node : ComparisonNode} :
    (∃ truth, compareValue node v = .ok truth) ↔ ∀ w ∈ node.operands, DatesInRange v w := by
  obtain ⟨operator, left, right, members, valid⟩ := node
  have hvalid := (Bool.and_eq_true_iff.1 valid).2
  unfold compareValue ComparisonNode.operands
  dsimp only at hvalid ⊢
  clear valid
  cases operator with
  | memberOf =>
    simp only [Bool.and_eq_true, Option.isNone_iff_eq_none, List.all_eq_true] at hvalid
    obtain ⟨⟨⟨rfl, -⟩, -⟩, hvalues⟩ := hvalid
    simp only [Option.toList_none, List.nil_append, bind_eq_ok, pure_eq_ok]
    have hmembers : (∃ found, members.mapM (valuesEqual v) = .ok found) ↔
        ∀ w ∈ members, DatesInRange v w := by
      rw [mapM_isOk]
      exact forall₂_congr fun w hw => valuesEqual_isOk (hvalues w hw)
    rw [← hmembers]
    constructor
    · rintro ⟨_, found, hfound, -⟩
      exact ⟨found, hfound⟩
    · rintro ⟨found, hfound⟩
      exact ⟨_, found, hfound, rfl⟩
  | equals =>
    simp only [Bool.and_eq_true, List.isEmpty_iff, Option.any_eq_true] at hvalid
    obtain ⟨rfl, r, rfl, htakes⟩ := hvalid
    have hr : r.isValue = true := by
      unfold ComparisonOperator.takes at htakes
      unfold Operand.isValue
      cases hr : r.payload with
      | factRef name =>
        rw [hr] at htakes
        exact htakes
      | _ => rfl
    simpa using valuesEqual_isOk hr
  | numeric relation =>
    simp only [Bool.and_eq_true, List.isEmpty_iff, Option.any_eq_true] at hvalid
    obtain ⟨rfl, r, rfl, htakes⟩ := hvalid
    cases hr : r.payload with
    | numeric number =>
      refine iff_of_true ?_ fun w hw a b _ hb => ?_
      · cases v.payload with
        | numeric left =>
          dsimp only
          rw [hr]
          dsimp only
          split <;> exact ⟨_, rfl⟩
        | _ => exact ⟨_, rfl⟩
      · obtain rfl : w = r := by simpa using hw
        rw [hr] at hb
        cases hb
    | _ =>
      rw [hr] at htakes
      cases htakes
  | date relation =>
    simp only [Bool.and_eq_true, List.isEmpty_iff, Option.any_eq_true] at hvalid
    obtain ⟨rfl, r, rfl, htakes⟩ := hvalid
    cases hr : r.payload with
    | date instant =>
      have hone : (∀ w ∈ (some r).toList ++ [], DatesInRange v w) ↔ DatesInRange v r := by simp
      rw [hone, DatesInRange, hr]
      cases hv : v.payload with
      | date a =>
        dsimp only
        rw [hr, datesOrdered_isOk]
        constructor
        · rintro h _ _ ha hb
          cases ha
          cases hb
          exact h
        · intro h
          exact h a instant rfl rfl
      | _ => exact iff_of_true ⟨_, rfl⟩ fun a b ha => by cases ha
    | _ =>
      rw [hr] at htakes
      cases htakes

theorem combine_isOk {operator : BooleanOperator} {truths : List TruthValue}
    (hnot : operator = .not → truths.length = 1) : ∃ truth, operator.combine truths = .ok truth := by
  cases operator with
  | all => exact ⟨_, rfl⟩
  | any => exact ⟨_, rfl⟩
  | not =>
    obtain ⟨truth, rfl⟩ := List.length_eq_one_iff.1 (hnot rfl)
    exact ⟨_, rfl⟩

/-- An expression has a truth when its comparisons are in range. -/
theorem truthOf_isOk {node : ApplicabilityNode} (h : node.wellFormed = true) :
    (∃ truth, truthOf f node = .ok truth) ↔ InRange f node := by
  induction node using ApplicabilityNode.induct with
  | comparison node =>
    simp only [InRange, comparisons, List.mem_singleton, forall_eq, truthOf, comparisonTruth]
    cases f.resolve node.factRef with
    | none => exact iff_of_true ⟨_, rfl⟩ fun _ h => by cases h
    | some value => simpa using compareValue_isOk
  | boolean operator children ih =>
    obtain ⟨hnot, -, hchildren⟩ := wellFormed_boolean.1 h
    have hall : (∃ truths, children.mapM (truthOf f) = .ok truths) ↔
        ∀ child ∈ children, InRange f child := by
      rw [mapM_isOk]
      exact forall₂_congr fun child hchild => ih child hchild (hchildren child hchild)
    rw [inRange_boolean, ← hall, truthOf, truthsOf_eq]
    simp only [bind_eq_ok]
    constructor
    · rintro ⟨truth, truths, htruths, -⟩
      exact ⟨truths, htruths⟩
    · rintro ⟨truths, htruths⟩
      have hone : operator = .not → truths.length = 1 := fun hop => by
        rw [← (mapM_eq_ok.1 htruths).length_eq, hnot hop]
      obtain ⟨truth, htruth⟩ := combine_isOk hone
      exact ⟨truth, truths, htruths, htruth⟩

/-! ## Learning a fact -/

/-- Whatever a fact resolves to in `f` it resolves to in `g`. -/
def Refines (f g : FactSnapshot) : Prop :=
  ∀ name value, f.resolve name = some value → g.resolve name = some value

theorem informs_combine {operator : BooleanOperator} {truths truths' : List TruthValue}
    (h : List.Forall₂ TruthValue.Informs truths truths') {a b : TruthValue}
    (ha : operator.combine truths = .ok a) (hb : operator.combine truths' = .ok b) : a.Informs b := by
  cases operator with
  | all =>
    obtain rfl := Except.ok.inj ha
    obtain rfl := Except.ok.inj hb
    exact .allOf h
  | any =>
    obtain rfl := Except.ok.inj ha
    obtain rfl := Except.ok.inj hb
    exact .anyOf h
  | not =>
    cases h with
    | nil => cases ha
    | cons hhead _ =>
      obtain rfl := Except.ok.inj ha
      obtain rfl := Except.ok.inj hb
      exact hhead.negate

theorem informs_truths {children : List ApplicabilityNode} {truths truths' : List TruthValue}
    (h : ∀ child ∈ children, ∀ a b, truthOf f child = .ok a → truthOf g child = .ok b → a.Informs b)
    (hf : List.Forall₂ (fun c t => truthOf f c = .ok t) children truths)
    (hg : List.Forall₂ (fun c t => truthOf g c = .ok t) children truths') :
    List.Forall₂ TruthValue.Informs truths truths' := by
  induction hf generalizing truths' with
  | nil =>
    cases hg
    exact .nil
  | cons hhead _ ih =>
    cases hg with
    | cons hhead' htail' =>
      exact .cons (h _ List.mem_cons_self _ _ hhead hhead')
        (ih (fun c hc => h c (List.mem_cons_of_mem _ hc)) htail')

/-- Over more facts an expression says the same, or says something where it said nothing. -/
theorem informs_truthOf (hrefines : Refines f g) {node : ApplicabilityNode} {a b : TruthValue}
    (ha : truthOf f node = .ok a) (hb : truthOf g node = .ok b) : a.Informs b := by
  induction node using ApplicabilityNode.induct generalizing a b with
  | comparison node =>
    rw [truthOf, comparisonTruth] at ha hb
    cases hvalue : f.resolve node.factRef with
    | none =>
      rw [hvalue] at ha
      exact .inl (Except.ok.inj ha).symm
    | some value =>
      rw [hvalue] at ha
      rw [hrefines _ _ hvalue] at hb
      exact .inr (Except.ok.inj (ha.symm.trans hb))
  | boolean operator children ih =>
    rw [truthOf, truthsOf_eq, bind_eq_ok] at ha hb
    obtain ⟨truths, htruths, ha⟩ := ha
    obtain ⟨truths', htruths', hb⟩ := hb
    rw [mapM_eq_ok] at htruths htruths'
    exact informs_combine
      (informs_truths (fun child hchild a b => ih child hchild) htruths htruths') ha hb

/-! ## Outcomes -/

variable {reprOf : String → String} {required : ApplicabilityExpression}
  {exceptions : List ApplicabilityExpression} {positionVersionRef : String}

/-- The outcome of an evaluation that answers. -/
def outcomeOf (reprOf : String → String) (required : ApplicabilityExpression)
    (exceptions : List ApplicabilityExpression) (facts : FactSnapshot) (positionVersionRef : String) :
    Option ApplicabilityOutcome :=
  (evaluateApplicability reprOf required exceptions facts positionVersionRef).toOption.map (·.outcome)

/-- Applicable or not: the facts decide. -/
def ApplicabilityOutcome.decides (outcome : ApplicabilityOutcome) : Prop :=
  outcome = .applicable ∨ outcome = .notApplicable

/-- The expressions an evaluation reaches are in range: the required one, and the exceptions unless the
facts refute the required one. -/
def ReachedInRange (f : FactSnapshot) (required : ApplicabilityExpression)
    (exceptions : List ApplicabilityExpression) : Prop :=
  InRange f required.root ∧
    (truthOf f required.root = .ok .false ∨ ∀ exception ∈ exceptions, InRange f exception.root)

theorem outcomeOf_eq_some {outcome : ApplicabilityOutcome} :
    outcomeOf reprOf required exceptions f positionVersionRef = some outcome ↔
      isBlank positionVersionRef = false ∧
        (truthOf f required.root = .ok .false ∧ outcome = .notApplicable ∨
          ∃ truth truths, truthOf f required.root = .ok truth ∧ truth ≠ .false ∧
            truthsOf f (exceptions.map (·.root)) = .ok truths ∧
            outcome = (decideOutcome truth truths).1) := by
  have hok : outcomeOf reprOf required exceptions f positionVersionRef = some outcome ↔
      ∃ r, evaluateApplicability reprOf required exceptions f positionVersionRef = .ok r ∧
        r.outcome = outcome := by
    unfold outcomeOf
    cases evaluateApplicability reprOf required exceptions f positionVersionRef with
    | error e => simp [Except.toOption]
    | ok r => simp [Except.toOption]
  rw [hok]
  simp only [evaluateApplicability_eq_ok]
  constructor
  · rintro ⟨r, ⟨hposition, ⟨hfalse, rfl⟩ | ⟨truth, truths, htruth, hne, htruths, rfl⟩⟩, rfl⟩
    · exact ⟨hposition, .inl ⟨hfalse, rfl⟩⟩
    · exact ⟨hposition, .inr ⟨truth, truths, htruth, hne, htruths, rfl⟩⟩
  · rintro ⟨hposition, ⟨hfalse, rfl⟩ | ⟨truth, truths, htruth, hne, htruths, rfl⟩⟩
    · exact ⟨_, ⟨hposition, .inl ⟨hfalse, rfl⟩⟩, rfl⟩
    · exact ⟨_, ⟨hposition, .inr ⟨truth, truths, htruth, hne, htruths, rfl⟩⟩, rfl⟩

theorem decideOutcome_congr {truth : TruthValue} {truths truths' : List TruthValue}
    (h : ∀ t, t ∈ truths ↔ t ∈ truths') : decideOutcome truth truths = decideOutcome truth truths' := by
  simp only [decideOutcome, h]

theorem decideOutcome_informs {truth truth' : TruthValue} {truths truths' : List TruthValue}
    (htruth : truth.Informs truth') (htruths : List.Forall₂ TruthValue.Informs truths truths')
    (h : (decideOutcome truth truths).1.decides) :
    (decideOutcome truth' truths').1 = (decideOutcome truth truths).1 := by
  unfold decideOutcome at h ⊢
  by_cases htrue : TruthValue.true ∈ truths
  · rw [if_pos htrue, if_pos (TruthValue.mem_of_informs htruths (by decide) htrue)]
  · rw [if_neg htrue] at h ⊢
    by_cases hunknown : truth = .unknown ∨ TruthValue.unknown ∈ truths
    · rw [if_pos hunknown] at h
      rcases h with h | h <;> cases h
    · rw [if_neg hunknown]
      have hall : ∀ t ∈ truths, t = TruthValue.false := by
        intro t ht
        cases t with
        | true => exact absurd ht htrue
        | false => rfl
        | unknown => exact absurd (.inr ht) hunknown
      have hall' := TruthValue.forall_of_informs htruths (by decide) hall
      have hnone : ∀ t : TruthValue, t ≠ .false → t ∉ truths' := fun t ht hmem => ht (hall' t hmem)
      have hsame : truth = truth' := htruth.resolve_left fun h => hunknown (.inl h)
      rw [if_neg (hnone .true (by decide)), if_neg]
      rw [← hsame]
      rintro (h | h)
      · exact hunknown (.inl h)
      · exact hnone .unknown (by decide) h

theorem truths_of_inRange (h : ∀ exception ∈ exceptions, InRange f exception.root) :
    ∃ truths, truthsOf f (exceptions.map (·.root)) = .ok truths := by
  rw [truthsOf_eq, mapM_isOk]
  intro root hroot
  obtain ⟨exception, hexception, rfl⟩ := List.mem_map.1 hroot
  exact (truthOf_isOk exception.wellFormed).2 (h exception hexception)

theorem inRange_of_truths {truths : List TruthValue}
    (h : truthsOf f (exceptions.map (·.root)) = .ok truths) :
    ∀ exception ∈ exceptions, InRange f exception.root := by
  intro exception hexception
  rw [truthsOf_eq] at h
  exact (truthOf_isOk exception.wellFormed).1
    (mapM_isOk.1 ⟨truths, h⟩ _ (List.mem_map_of_mem hexception))

/-- An evaluation that answers has reached expressions in range only. -/
theorem reachedInRange_of_outcome {outcome : ApplicabilityOutcome}
    (h : outcomeOf reprOf required exceptions f positionVersionRef = some outcome) :
    ReachedInRange f required exceptions := by
  obtain ⟨-, ⟨hfalse, -⟩ | ⟨truth, truths, htruth, -, htruths, -⟩⟩ := outcomeOf_eq_some.1 h
  · exact ⟨(truthOf_isOk required.wellFormed).1 ⟨_, hfalse⟩, .inl hfalse⟩
  · exact ⟨(truthOf_isOk required.wellFormed).1 ⟨_, htruth⟩, .inr (inRange_of_truths htruths)⟩

/-- Learning a fact never reverses a decision, where the evaluation answers at all. -/
theorem outcome_of_refines (hrefines : Refines f g) {outcome : ApplicabilityOutcome}
    (h : outcomeOf reprOf required exceptions f positionVersionRef = some outcome)
    (hdecides : outcome.decides) (hreached : ReachedInRange g required exceptions) :
    outcomeOf reprOf required exceptions g positionVersionRef = some outcome := by
  obtain ⟨truth', htruth'⟩ := (truthOf_isOk required.wellFormed).2 hreached.1
  rw [outcomeOf_eq_some] at h ⊢
  obtain ⟨hposition, ⟨hfalse, rfl⟩ | ⟨truth, truths, htruth, hne, htruths, rfl⟩⟩ := h
  · obtain rfl := (informs_truthOf hrefines hfalse htruth').eq_false
    exact ⟨hposition, .inl ⟨htruth', rfl⟩⟩
  · have hinforms := informs_truthOf hrefines htruth htruth'
    refine ⟨hposition, ?_⟩
    by_cases hfalse : truth' = .false
    · -- the facts learnt refute what nothing was known of; an exception had applied already
      subst hfalse
      have hunknown : truth = .unknown := hinforms.resolve_right hne
      refine .inl ⟨htruth', ?_⟩
      rcases hdecides with hdecides | hdecides
      · unfold decideOutcome at hdecides
        split at hdecides
        · cases hdecides
        · rw [if_pos (.inl hunknown)] at hdecides
          cases hdecides
      · exact hdecides
    · have hexceptions := hreached.2.resolve_left fun h =>
        hfalse (Except.ok.inj (htruth'.symm.trans h))
      obtain ⟨truths', htruths'⟩ := truths_of_inRange hexceptions
      refine .inr ⟨truth', truths', htruth', hfalse, htruths', ?_⟩
      have hall := informs_truths (fun _ _ _ _ => informs_truthOf hrefines)
        (mapM_eq_ok.1 ((truthsOf_eq _ _).symm.trans htruths))
        (mapM_eq_ok.1 ((truthsOf_eq _ _).symm.trans htruths'))
      exact (decideOutcome_informs hinforms hall hdecides).symm

/-! ## Order -/

variable {required' : ApplicabilityExpression} {exceptions' : List ApplicabilityExpression}

/-- The same exceptions in another order, each of them rearranged. -/
def RearrangedAll (exceptions exceptions' : List ApplicabilityExpression) : Prop :=
  ∃ mid, List.Forall₂ (fun a b => Rearranged a.root b.root) exceptions mid ∧ mid.Perm exceptions'

theorem RearrangedAll.symm (h : RearrangedAll exceptions exceptions') :
    RearrangedAll exceptions' exceptions := by
  obtain ⟨mid, hmid, hperm⟩ := h
  have hback : List.Forall₂ (fun a b : ApplicabilityExpression => Rearranged a.root b.root) mid
      exceptions := hmid.flip.imp fun a b h => h.symm
  exact forall₂_perm hperm hback

theorem truths_rearranged (h : RearrangedAll exceptions exceptions') {truths : List TruthValue}
    (htruths : truthsOf f (exceptions.map (·.root)) = .ok truths) :
    ∃ truths', truthsOf f (exceptions'.map (·.root)) = .ok truths' ∧ truths'.Perm truths := by
  obtain ⟨mid, hmid, hperm⟩ := h
  rw [truthsOf_eq, mapM_eq_ok, List.forall₂_map_left_iff] at htruths
  have hmidTruths : List.Forall₂ (fun (e : ApplicabilityExpression) t => truthOf f e.root = .ok t) mid
      truths := by
    clear hperm
    induction hmid generalizing truths with
    | nil => exact htruths
    | @cons a b _ _ hab _ ih =>
      cases htruths with
      | cons ht htruths => exact .cons (truthOf_rearranged hab a.wellFormed ht) (ih htruths)
  obtain ⟨truths', htruths', hperm'⟩ := forall₂_perm hperm hmidTruths
  exact ⟨truths', by rwa [truthsOf_eq, mapM_eq_ok, List.forall₂_map_left_iff], hperm'⟩

theorem outcomeOf_rearranged_some (hrequired : Rearranged required.root required'.root)
    (hexceptions : RearrangedAll exceptions exceptions') {outcome : ApplicabilityOutcome}
    (h : outcomeOf reprOf required exceptions f positionVersionRef = some outcome) :
    outcomeOf reprOf required' exceptions' f positionVersionRef = some outcome := by
  rw [outcomeOf_eq_some] at h ⊢
  obtain ⟨hposition, ⟨hfalse, rfl⟩ | ⟨truth, truths, htruth, hne, htruths, rfl⟩⟩ := h
  · exact ⟨hposition, .inl ⟨truthOf_rearranged hrequired required.wellFormed hfalse, rfl⟩⟩
  · obtain ⟨truths', htruths', hperm⟩ := truths_rearranged hexceptions htruths
    exact ⟨hposition, .inr ⟨truth, truths', truthOf_rearranged hrequired required.wellFormed htruth,
      hne, htruths', congrArg Prod.fst (decideOutcome_congr fun t => hperm.mem_iff.symm)⟩⟩

theorem outcomeOf_rearranged (hrequired : Rearranged required.root required'.root)
    (hexceptions : RearrangedAll exceptions exceptions') :
    outcomeOf reprOf required' exceptions' f positionVersionRef =
      outcomeOf reprOf required exceptions f positionVersionRef := by
  refine Option.ext fun outcome => ⟨fun h => ?_, fun h => ?_⟩
  · exact outcomeOf_rearranged_some hrequired.symm hexceptions.symm h
  · exact outcomeOf_rearranged_some hrequired hexceptions h

theorem outcomeOf_congr (h : ∀ name, Option.Rel Operand.Alike (f.resolve name) (g.resolve name)) :
    outcomeOf reprOf required exceptions f positionVersionRef =
      outcomeOf reprOf required exceptions g positionVersionRef := by
  have htruths : truthsOf f (exceptions.map (·.root)) = truthsOf g (exceptions.map (·.root)) :=
    truthsOf_congr fun root _ => truthOf_congr h root
  refine Option.ext fun outcome => ?_
  rw [outcomeOf_eq_some, outcomeOf_eq_some, truthOf_congr h, htruths]

/-! ## Dates of one key -/

/-- An entry with one of its values in front. -/
def FactEntry.fronted (entry : FactEntry) (v : Operand) (hv : v ∈ entry.values) : FactEntry :=
  { entry with
    values := v :: entry.values
    typed := List.forall_mem_cons.2 ⟨entry.typed v hv, entry.typed⟩ }

/-- A snapshot with another entry for a fact it has. -/
def FactSnapshot.replaced (f : FactSnapshot) (name : String) (entry : FactEntry)
    (hname : isBlank name = false) : FactSnapshot where
  factSnapshotRef := f.factSnapshotRef
  facts := f.facts.set name entry
  factSnapshotRef_valid := f.factSnapshotRef_valid
  keys_valid := by
    rintro ⟨key, e⟩ hfact
    rw [← Dict.get_eq_some, Dict.get_set] at hfact
    by_cases hkey : key = name
    · rw [hkey]
      exact hname
    · rw [if_neg hkey, Dict.get_eq_some] at hfact
      exact f.keys_valid _ hfact

variable {entry : FactEntry} {name : String}

theorem fronted_sameValues (hv : v ∈ entry.values) : entry.SameValues (entry.fronted v hv) := by
  refine ⟨rfl, rfl, fun u => ?_⟩
  rw [FactEntry.fronted, List.mem_cons]
  constructor
  · exact .inr
  · rintro (rfl | h)
    · exact hv
    · exact h

theorem replaced_sameFacts (hentry : f.facts.get name = some entry) (hv : v ∈ entry.values)
    (hname : isBlank name = false) : f.SameFacts (f.replaced name (entry.fronted v hv) hname) := by
  refine ⟨rfl, fun key => ?_⟩
  rw [FactSnapshot.replaced, Dict.get_set]
  by_cases hkey : key = name
  · rw [if_pos hkey, hkey, hentry]
    exact .some (fronted_sameValues hv)
  · rw [if_neg hkey]
    cases f.facts.get key with
    | none => exact .none
    | some e => exact .some ⟨rfl, rfl, fun _ => Iff.rfl⟩

theorem resolve_replaced (hv : v ∈ entry.values) (hname : isBlank name = false)
    (hconflicting : ¬entry.conflicting) :
    (f.replaced name (entry.fronted v hv) hname).resolve name = some v := by
  rw [FactSnapshot.resolve, FactSnapshot.replaced, Dict.get_set_self, Option.bind_some,
    FactEntry.single]
  refine if_neg ?_
  rw [conflicting_iff] at hconflicting ⊢
  simpa only [(fronted_sameValues hv).2.2] using hconflicting

def comparedWith (name : String) (operator : ComparisonOperator) (d : TemporalInstant)
    (hname : isBlank name = false) (htakes : operator.takes (.date d) = true) :
    ApplicabilityExpression where
  root := .comparison ⟨operator, ⟨.factRef name, none, by rw [Payload.check, hname]; rfl⟩,
    some ⟨.date d, none, rfl⟩, [], by
      cases operator with
      | equals => rfl
      | date relation => rfl
      | memberOf => cases htakes
      | numeric relation => cases htakes⟩
  wellFormed := rfl
  count_le := by simp [ApplicabilityNode.count, MAX_NODES]
  depth_le := by simp [ApplicabilityNode.depth, MAX_DEPTH]

/-- The truth of a fact that is a date, compared with a date. -/
theorem truthOf_comparedWith {operator : ComparisonOperator} {a d : TemporalInstant}
    {hname : isBlank name = false} {htakes : operator.takes (.date d) = true}
    (hresolve : f.resolve name = some v) (hv : v.payload = .date a) :
    truthOf f (comparedWith name operator d hname htakes).root = compareDates operator a d := by
  have hfact : ∀ node : ComparisonNode, node.operator = operator →
      node.left.payload = .factRef name → node.right = some ⟨.date d, none, rfl⟩ →
        truthOf f (.comparison node) = compareDates operator a d := by
    intro node hoperator hleft hright
    rw [truthOf, comparisonTruth, ComparisonNode.factRef, hleft]
    dsimp only
    rw [hresolve]
    dsimp only
    rw [compareValue, hoperator, hright]
    cases operator with
    | equals =>
      dsimp only
      rw [valuesEqual, hv]
      rfl
    | date relation =>
      dsimp only
      rw [hv]
      rfl
    | memberOf => cases htakes
    | numeric relation => cases htakes
  exact hfact _ rfl rfl rfl

/-- What is decided by the required expression alone. -/
def TruthValue.decided (truth : TruthValue) : ApplicabilityOutcome :=
  if truth = .false then .notApplicable else (decideOutcome truth []).1

theorem decided_injective : Function.Injective TruthValue.decided := by
  intro a b
  cases a <;> cases b <;> decide

theorem outcomeOf_alone (hposition : isBlank positionVersionRef = false) :
    outcomeOf reprOf required [] f positionVersionRef =
      (truthOf f required.root).toOption.map TruthValue.decided := by
  refine Option.ext fun outcome => ?_
  rw [outcomeOf_eq_some, Option.map_eq_some_iff]
  cases truthOf f required.root with
  | error e => simp [Except.toOption]
  | ok truth =>
    simp only [Except.toOption, Option.some.injEq, Except.ok.injEq, exists_eq_left', hposition,
      true_and, TruthValue.decided]
    constructor
    · rintro (⟨rfl, rfl⟩ | ⟨_, truths, rfl, hne, htruths, rfl⟩)
      · rfl
      · obtain rfl := Except.ok.inj htruths
        rw [if_neg hne]
    · rintro rfl
      by_cases hfalse : truth = .false
      · exact .inl ⟨hfalse, if_pos hfalse⟩
      · exact .inr ⟨truth, [], rfl, hfalse, rfl, if_neg hfalse⟩

/-! ## Dates that are told apart -/

variable {a b d : TemporalInstant} {operator : ComparisonOperator}

theorem equals_self (left : Moment) : left.equals left = true := by simp [Moment.equals]

theorem datesEqual_eq_true : datesEqual a b = .ok .true ↔ ∃ left right, instantBounds a = .ok left ∧
    instantBounds b = .ok right ∧ left.1.equals right.1 = true ∧ left.2.equals right.2 = true := by
  simp only [datesEqual, bind_eq_ok, pure_eq_ok]
  constructor
  · rintro ⟨left, hleft, right, hright, h⟩
    refine ⟨left, right, hleft, hright, ?_⟩
    split at h
    · next hsame => exact hsame
    · split at h <;> cases h
  · rintro ⟨left, right, hleft, hright, hsame⟩
    exact ⟨left, hleft, right, hright, if_pos hsame⟩

theorem datesEqual_self (h : ∃ bounds, instantBounds a = .ok bounds) : datesEqual a a = .ok .true := by
  obtain ⟨bounds, hbounds⟩ := h
  exact datesEqual_eq_true.2 ⟨bounds, bounds, hbounds, hbounds, equals_self _, equals_self _⟩

/-- A comparison returns when both dates have ends, and raises what the first missing end raises. -/
theorem compareDates_of_error {e : Raised} (h : instantBounds a = .error e) :
    compareDates operator a d = .error e := by
  cases operator <;> simp only [compareDates, datesEqual, datesOrdered, h] <;> rfl

theorem compareDates_error {e : Raised} {bounds : Moment × Moment} (h : instantBounds a = .ok bounds) :
    compareDates operator a d = .error e ↔ instantBounds d = .error e := by
  cases hd : instantBounds d with
  | error e' => cases operator <;> simp only [compareDates, datesEqual, datesOrdered, h, hd, ok_bind, error_bind,
      Except.error.injEq]
  | ok other =>
    refine iff_of_false ?_ (by simp)
    cases operator <;> simp only [compareDates, datesEqual, datesOrdered, h, hd] <;> nofun

theorem bounds_error_eq (hvalue : a.value = b.value) {e e' : Raised} (ha : instantBounds a = .error e)
    (hb : instantBounds b = .error e') : e = e' := by
  have hends : ∀ {c : TemporalInstant} {e : Raised}, instantBounds c = .error e →
      instantEnd c.value c.precision = .error e := by
    intro c e h
    unfold instantBounds at h
    cases hend : instantEnd c.value c.precision with
    | error e' =>
      rw [hend, error_bind] at h
      exact congrArg _ (Except.error.inj h)
    | ok finish =>
      rw [hend] at h
      cases h
  replace ha := hends ha
  replace hb := hends hb
  rcases Nat.lt_trichotomy a.precision.worth b.precision.worth with hlt | heq | hlt
  · obtain ⟨finish, hfinish, -⟩ := exists_instantEnd_of_coarser b.calendar.1 b.truncated hlt
    rw [← hvalue, ha] at hfinish
    cases hfinish
  · rw [hvalue, worth_injective heq, hb] at ha
    exact (Except.error.inj ha).symm
  · obtain ⟨finish, hfinish, -⟩ := exists_instantEnd_of_coarser a.calendar.1 a.truncated hlt
    rw [hvalue, hb] at hfinish
    cases hfinish

/-- Dates of one start that no outcome tells apart are compared alike. -/
theorem datesAlike_of_toOption (hvalue : a.value = b.value)
    (h : ∀ operator d, (compareDates operator a d).toOption = (compareDates operator b d).toOption) :
    DatesAlike a b := by
  -- Compared with a date that has an end, one without raises.
  have hends : ∀ {x y : TemporalInstant}, (datesEqual x y).toOption = (datesEqual y y).toOption →
      (∃ bounds, instantBounds y = .ok bounds) → ∃ bounds, instantBounds x = .ok bounds := by
    intro x y hsame hy
    rw [datesEqual_self hy] at hsame
    cases hx : instantBounds x with
    | ok bounds => exact ⟨bounds, rfl⟩
    | error e =>
      have hraised : compareDates .equals x y = .error e := compareDates_of_error hx
      rw [show datesEqual x y = .error e from hraised] at hsame
      cases hsame
  intro operator d
  cases ha : instantBounds a with
  | error e =>
    cases hb : instantBounds b with
    | error e' =>
      rw [compareDates_of_error ha, compareDates_of_error hb, bounds_error_eq hvalue ha hb]
    | ok bounds =>
      obtain ⟨_, hok⟩ := hends (h .equals b) ⟨bounds, hb⟩
      rw [ha] at hok
      cases hok
  | ok bounds =>
    cases hb : instantBounds b with
    | error e =>
      obtain ⟨_, hok⟩ := hends (h .equals a).symm ⟨bounds, ha⟩
      rw [hb] at hok
      cases hok
    | ok bounds' =>
      cases hd : instantBounds d with
      | error e => rw [(compareDates_error ha).2 hd, (compareDates_error hb).2 hd]
      | ok other =>
        have hsome := h operator d
        cases hleft : compareDates operator a d with
        | error e =>
          rw [compareDates_error ha, hd] at hleft
          cases hleft
        | ok truth =>
          cases hright : compareDates operator b d with
          | error e =>
            rw [compareDates_error hb, hd] at hright
            cases hright
          | ok truth' =>
            rw [hleft, hright] at hsome
            exact congrArg _ (Option.some.inj hsome)

/-- Of dates of one wall time under one `tzinfo` and `fold`, those of one precision are compared alike. -/
theorem datesAlike_iff (hvalue : a.value = b.value) (hzone : a.zone = b.zone) (hfold : a.fold = b.fold) :
    DatesAlike a b ↔ a.precision = b.precision := by
  -- The finer of two precisions has an end, which the other's is not equal to.
  have hfiner : ∀ {x y : TemporalInstant}, x.value = y.value → x.zone = y.zone →
      x.precision.worth < y.precision.worth → datesEqual y x ≠ datesEqual x x := by
    intro x y hvalue hzone hlt hsame
    obtain ⟨finish, hfinish, -⟩ := exists_instantEnd_of_coarser y.calendar.1 y.truncated hlt
    rw [← hvalue] at hfinish
    have hbounds : instantBounds x =
        .ok (x.start, ⟨finish, x.zone, x.fold && x.precision.keepsFold⟩) := by
      rw [instantBounds, hfinish]
      rfl
    rw [datesEqual_self ⟨_, hbounds⟩, datesEqual_eq_true] at hsame
    obtain ⟨left, right, hleft, hright, -, hequal⟩ := hsame
    rw [hbounds, Except.ok.injEq] at hright
    subst hright
    rw [instantBounds, bind_eq_ok] at hleft
    obtain ⟨coarse, hcoarse, hleft⟩ := hleft
    obtain rfl := pure_eq_ok.1 hleft
    have hless := rank_lt_of_coarser y.calendar.1 y.truncated hlt hcoarse (hvalue ▸ hfinish)
    simp only [Moment.equals, hzone, if_true, decide_eq_true_eq] at hequal
    rw [hequal] at hless
    exact lt_irrefl _ hless
  constructor
  · intro h
    by_contra hne
    rcases Nat.lt_or_gt_of_ne fun heq => hne (worth_injective heq) with hlt | hlt
    · exact hfiner hvalue hzone hlt (h .equals a).symm
    · exact hfiner hvalue.symm hzone.symm hlt (h .equals b)
  · intro hprecision operator d
    have hbounds : instantBounds a = instantBounds b := by
      simp only [instantBounds, TemporalInstant.start, hvalue, hzone, hfold, hprecision]
    cases operator <;> simp only [compareDates, datesEqual, datesOrdered, hbounds]

/-- Where the outcomes over a snapshot depend on no order, its entries are uniform. -/
theorem uniform_of_order_free
    (h : ∀ f', f.SameFacts f' → ∀ (required : ApplicabilityExpression) (positionVersionRef : String),
      outcomeOf reprOf required [] f' positionVersionRef =
        outcomeOf reprOf required [] f positionVersionRef)
    (hentry : f.facts.get name = some entry) : entry.Uniform := by
  by_contra huniform
  unfold FactEntry.Uniform at huniform
  push Not at huniform
  obtain ⟨hconflicting, v, hv, w, hw, a, b, hpv, hpw, hdates⟩ := huniform
  have hname : isBlank name = false := f.keys_valid _ (Dict.get_eq_some.1 hentry)
  have hposition : isBlank "position" = false := by decide
  have hkey : v.key = w.key := by
    by_contra hkey
    exact hconflicting (conflicting_iff.2 ⟨v, hv, w, hw, hkey⟩)
  have hvalue : a.value = b.value := by
    have hpayload := congrArg Prod.fst hkey
    simp only [Operand.key, hpv, hpw, PayloadKey.date.injEq] at hpayload
    exact congrArg Prod.fst hpayload
  -- In front of the other values either date is compared, with one outcome.
  have hcompared : ∀ operator d, operator.takes (.date d) = true →
      (compareDates operator a d).toOption = (compareDates operator b d).toOption := by
    intro operator d htakes
    have hfirst := h _ (replaced_sameFacts hentry hv hname) (comparedWith name operator d hname htakes)
      "position"
    have hsecond := h _ (replaced_sameFacts hentry hw hname) (comparedWith name operator d hname htakes)
      "position"
    rw [← hsecond, outcomeOf_alone hposition, outcomeOf_alone hposition,
      truthOf_comparedWith (resolve_replaced hv hname hconflicting) hpv,
      truthOf_comparedWith (resolve_replaced hw hname hconflicting) hpw] at hfirst
    exact Option.map_injective decided_injective hfirst
  refine hdates (datesAlike_of_toOption hvalue fun operator d => ?_)
  cases operator with
  | date relation => exact hcompared (.date relation) d rfl
  | _ => exact hcompared .equals d rfl

/-- Learning facts keeps a decision exactly when the dates the evaluation reaches are in range; and the
outcomes over a snapshot depend on no order exactly when its entries are uniform. Dates of one key under one
`tzinfo` and `fold` are compared alike when they have one precision. -/
theorem applicability_information (reprOf : String → String) :
    (∀ (required : ApplicabilityExpression) (exceptions : List ApplicabilityExpression)
      (f g : FactSnapshot) (positionVersionRef : String) (outcome : ApplicabilityOutcome),
      Refines f g → outcomeOf reprOf required exceptions f positionVersionRef = some outcome →
        outcome.decides →
        (outcomeOf reprOf required exceptions g positionVersionRef = some outcome ↔
          ReachedInRange g required exceptions)) ∧
    (∀ f : FactSnapshot,
      (∀ (f' : FactSnapshot) (required required' : ApplicabilityExpression)
        (exceptions exceptions' : List ApplicabilityExpression) (positionVersionRef : String),
        f.SameFacts f' → Rearranged required.root required'.root →
          RearrangedAll exceptions exceptions' →
          outcomeOf reprOf required' exceptions' f' positionVersionRef =
            outcomeOf reprOf required exceptions f positionVersionRef) ↔
        ∀ name entry, f.facts.get name = some entry → entry.Uniform) ∧
    ∀ a b : TemporalInstant, a.value = b.value → a.zone = b.zone → a.fold = b.fold →
      (DatesAlike a b ↔ a.precision = b.precision) := by
  refine ⟨fun required exceptions f g positionVersionRef outcome hrefines houtcome hdecides => ?_,
    fun f => ?_, fun a b hvalue hzone hfold => datesAlike_iff hvalue hzone hfold⟩
  · exact ⟨reachedInRange_of_outcome, outcome_of_refines hrefines houtcome hdecides⟩
  · constructor
    · intro h name entry hentry
      have horder := fun f' hsame required positionVersionRef =>
        h f' required required [] [] positionVersionRef hsame (.refl _) ⟨[], .nil, .refl _⟩
      exact uniform_of_order_free horder hentry
    · intro huniform f' required required' exceptions exceptions' positionVersionRef hsame hrequired
        hexceptions
      rw [outcomeOf_rearranged hrequired hexceptions]
      exact (outcomeOf_congr (resolve_sameFacts hsame huniform)).symm

/-! ## A year and its first month -/

def year9999 : TemporalInstant :=
  instantOf ⟨9999, 1, 1, 0, 0, 0, 0⟩ .year (by decide) (by decide)

def dueOn (values : List TemporalInstant) : FactEntry where
  values := values.map fun a => ⟨.date a, none, rfl⟩
  visible := true
  provenanceClass := .unknown
  typed := by
    intro v hv
    obtain ⟨a, -, rfl⟩ := List.mem_map.1 hv
    rfl

theorem isBlank_facts : isBlank "facts-1" = false := by decide

/-- An approved status beside a fact of dates. -/
def dueFacts (values : List TemporalInstant) : FactSnapshot where
  factSnapshotRef := "facts-1"
  facts := ⟨[("status", statusEntry), ("due", dueOn values)],
    (by decide : ["status", "due"].Nodup)⟩
  factSnapshotRef_valid := isBlank_facts
  keys_valid := by
    intro fact hfact
    rw [List.mem_cons, List.mem_singleton] at hfact
    rcases hfact with rfl | rfl
    · exact (by decide : isBlank "status" = false)
    · exact (by decide : isBlank "due" = false)

theorem dueFacts_get (values : List TemporalInstant) (name : String) :
    (dueFacts values).facts.get name =
      if name = "status" then some statusEntry else if name = "due" then some (dueOn values) else none := by
  unfold Dict.get dueFacts
  by_cases hstatus : name = "status"
  · simp [hstatus]
  · by_cases hdue : name = "due"
    · simp [List.lookup, hdue]
    · simp [List.lookup, hstatus, hdue, beq_false_of_ne hstatus, beq_false_of_ne hdue]

theorem dueFacts_sameFacts {values values' : List TemporalInstant} (h : values.Perm values') :
    (dueFacts values).SameFacts (dueFacts values') := by
  refine ⟨rfl, fun name => ?_⟩
  rw [dueFacts_get, dueFacts_get]
  split
  · exact .some ⟨rfl, rfl, fun _ => Iff.rfl⟩
  · split
    · exact .some ⟨rfl, rfl, fun v => (h.map _).mem_iff⟩
    · exact .none

theorem refines_dueFacts (values : List TemporalInstant) : Refines withoutRisk (dueFacts values) := by
  intro name value h
  rw [FactSnapshot.resolve, Option.bind_eq_some_iff] at h ⊢
  obtain ⟨entry, hentry, hvalue⟩ := h
  rw [Dict.get_eq_some, withoutRisk, List.mem_singleton] at hentry
  cases hentry
  exact ⟨statusEntry, by rw [dueFacts_get, if_pos rfl], hvalue⟩

def dueInJanuary : ApplicabilityExpression := comparedWith "due" .equals january2024 (by decide) rfl

theorem isBlank_status : (!isBlank "status") = true := by decide

theorem isBlank_approved : (!isBlank "approved") = true := by decide

def approvedOrDue : ApplicabilityExpression where
  root := .boolean .any [factIs "status" "approved" isBlank_status isBlank_approved, dueInJanuary.root]
  wellFormed := by decide
  count_le := by decide
  depth_le := by decide

/-- A `tzinfo` an hour ahead of UTC from the last of March on. -/
def london : Zone := ⟨1, [((⟨2024, 3, 31, 2, 0, 0, 0⟩ : Instant).rank, 3600000000, 3600000000)]⟩

def march2024 (zone : Zone) (utc : zone.utcoffset ⟨2024, 3, 1, 0, 0, 0, 0⟩ false = 0) :
    TemporalInstant :=
  { instantOf ⟨2024, 3, 1, 0, 0, 0, 0⟩ .month (by decide) (by decide) with zone := zone, utc := utc }

def marchInUtc : TemporalInstant := march2024 .utc rfl

def marchInLondon : TemporalInstant := march2024 london (by decide)

def dueInMarch : ApplicabilityExpression := comparedWith "due" .equals marchInUtc (by decide) rfl

/-- January is due when it stands in front of its year, and not known to be behind it; a March of UTC is told
from one of London, whose last hour is another, by the order they stand in; and an evaluation that an approval
decides raises when the last year of the calendar is found to be due. -/
theorem january_depends_on_order :
    ((dueFacts [january2024, year2024]).SameFacts (dueFacts [year2024, january2024]) ∧
      outcomeOf id dueInJanuary [] (dueFacts [january2024, year2024]) "position-1" =
        some .applicable ∧
      outcomeOf id dueInJanuary [] (dueFacts [year2024, january2024]) "position-1" =
        some .needsInformation) ∧
    ((dueFacts [marchInUtc, marchInLondon]).SameFacts (dueFacts [marchInLondon, marchInUtc]) ∧
      outcomeOf id dueInMarch [] (dueFacts [marchInUtc, marchInLondon]) "position-1" =
        some .applicable ∧
      outcomeOf id dueInMarch [] (dueFacts [marchInLondon, marchInUtc]) "position-1" =
        some .needsInformation) ∧
    Refines withoutRisk (dueFacts [year9999]) ∧
      outcomeOf id approvedOrDue [] withoutRisk "position-1" = some .applicable ∧
      outcomeOf id approvedOrDue [] (dueFacts [year9999]) "position-1" = none :=
  ⟨⟨dueFacts_sameFacts (.swap _ _ _), by rfl, by rfl⟩,
    ⟨dueFacts_sameFacts (.swap _ _ _), by rfl, by rfl⟩, refines_dueFacts _, by rfl, by rfl⟩

/-- January is learnt to be due after the approval has decided. -/
theorem applicability_information_january :
    outcomeOf id approvedOrDue [] (dueFacts [january2024]) "position-1" = some .applicable ↔
      ReachedInRange (dueFacts [january2024]) approvedOrDue [] := by
  obtain ⟨hlearn, -, -⟩ := applicability_information id
  exact hlearn approvedOrDue [] withoutRisk (dueFacts [january2024]) "position-1" _
    (refines_dueFacts _) (by rfl) (.inl rfl)

end OmniviaCore.Knowledge
