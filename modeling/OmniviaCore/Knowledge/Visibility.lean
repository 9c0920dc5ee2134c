import OmniviaCore.Knowledge.Evaluation

/-!
# Hidden facts do not leak

A ledger records the names and the provenance of visible facts only, and of the hidden ones that one was
left without a value. So two snapshots that agree on the visible facts leave the same ledgers up to that
flag (`consultAll_sameVisible`), and results of the same truths differ in the one generic reason.
-/

namespace OmniviaCore.Knowledge

open Lib

def FactSnapshot.Visible (snapshot : FactSnapshot) (name : String) : Prop :=
  ∃ entry, snapshot.facts.get name = some entry ∧ entry.visible = true

/-- The same entries are marked visible on both sides. -/
def AgreeOnVisible (f g : FactSnapshot) : Prop :=
  f.factSnapshotRef = g.factSnapshotRef ∧ ∀ name entry, entry.visible = true →
    (f.facts.get name = some entry ↔ g.facts.get name = some entry)

/-! ## The ledger -/

/-- Ledgers that differ in the flag at most. -/
def SameVisible (l m : Ledger) : Prop := { l with hiddenUnresolved := m.hiddenUnresolved } = m

theorem SameVisible.refl (l : Ledger) : SameVisible l l := rfl

variable {f g snapshot : FactSnapshot} {l m ledger : Ledger} {name : String}

/-- A fact that is not visible leaves its mark in the flag alone. -/
theorem consulted_hidden (ledger : Ledger) (h : ¬snapshot.Visible name) :
    ∃ flag, ledger.consulted snapshot name = { ledger with hiddenUnresolved := flag } := by
  unfold Ledger.consulted
  split
  · exact ⟨true, rfl⟩
  · next entry hentry =>
    have hvisible : entry.visible ≠ true := fun hvisible => h ⟨entry, hentry, hvisible⟩
    split
    · exact ⟨ledger.hiddenUnresolved, by rw [Ledger.resolved, if_neg hvisible]⟩
    · exact ⟨true, by rw [Ledger.unresolved, if_neg hvisible]⟩

theorem consulted_sameVisible (hagree : AgreeOnVisible f g) (h : SameVisible l m) (name : String) :
    SameVisible (l.consulted f name) (m.consulted g name) := by
  by_cases hvisible : f.Visible name
  · obtain ⟨entry, hf, hentry⟩ := hvisible
    have hg := (hagree.2 name entry hentry).1 hf
    rw [← h]
    simp only [Ledger.consulted, hf, hg, Ledger.resolved, Ledger.unresolved, hentry, if_true]
    split <;> rfl
  · have hg : ¬g.Visible name := by
      rintro ⟨entry, hg, hentry⟩
      exact hvisible ⟨entry, (hagree.2 name entry hentry).2 hg, hentry⟩
    obtain ⟨flag, hl⟩ := consulted_hidden l hvisible
    obtain ⟨flag', hm⟩ := consulted_hidden m hg
    rw [hl, hm, ← h]
    rfl

theorem consultAll_sameVisible (hagree : AgreeOnVisible f g) (names : List String) :
    SameVisible (consultAll f names) (consultAll g names) := by
  have hrun : ∀ l m, SameVisible l m →
      SameVisible (names.foldl (Ledger.consulted f) l) (names.foldl (Ledger.consulted g) m) := by
    induction names with
    | nil => exact fun _ _ h => h
    | cons name names ih => exact fun l m h => ih _ _ (consulted_sameVisible hagree h name)
  exact hrun _ _ (.refl _)

def Ledger.Records (ledger : Ledger) (name : String) : Prop :=
  name ∈ ledger.resolvedVisible ∪ ledger.unresolvedVisible

theorem records_consulted (h : ∀ ref, ledger.Records ref → snapshot.Visible ref) (ref : String)
    (hrecords : (ledger.consulted snapshot name).Records ref) : snapshot.Visible ref := by
  by_cases hvisible : snapshot.Visible name
  · obtain ⟨entry, hget, hentry⟩ := hvisible
    have hcases : ref = name ∨ ledger.Records ref := by
      simp only [Ledger.consulted, hget, Ledger.resolved, Ledger.unresolved, hentry, if_true] at hrecords
      split at hrecords
      all_goals
        simp only [Ledger.Records, Finset.mem_union, Finset.mem_insert] at hrecords ⊢
        tauto
    rcases hcases with rfl | hrecords
    · exact ⟨entry, hget, hentry⟩
    · exact h ref hrecords
  · obtain ⟨flag, hsame⟩ := consulted_hidden ledger hvisible
    rw [hsame] at hrecords
    exact h ref hrecords

theorem records_foldl (names : List String) (ledger : Ledger)
    (h : ∀ ref, ledger.Records ref → snapshot.Visible ref) :
    ∀ ref, (names.foldl (Ledger.consulted snapshot) ledger).Records ref → snapshot.Visible ref := by
  induction names generalizing ledger with
  | nil => exact h
  | cons name names ih => exact ih _ (records_consulted h)

theorem records_consultAll (names : List String) (ref : String)
    (hrecords : (consultAll snapshot names).Records ref) : snapshot.Visible ref := by
  refine records_foldl names Ledger.empty (fun ref hempty => ?_) ref hrecords
  simp [Ledger.Records, Ledger.empty] at hempty

/-! ## Results -/

def GENERIC_REASONS : List String :=
  ["A required condition is not satisfied.", "An excluding exception applies.",
    "All required conditions are satisfied and no exception applies.", HIDDEN_CONTEXT_REASON]

/-- The results are equal up to the generic reason, which each may end with. -/
def SameButHidden (r r' : ApplicabilityResult) : Prop :=
  { r with reasons := r'.reasons } = r' ∧
    ∃ reasons, (r.reasons = reasons ∨ r.reasons = reasons ++ [HIDDEN_CONTEXT_REASON]) ∧
      (r'.reasons = reasons ∨ r'.reasons = reasons ++ [HIDDEN_CONTEXT_REASON])

/-- A result that names visible facts only. -/
def NamesVisible (reprOf : String → String) (snapshot : FactSnapshot) (r : ApplicabilityResult) :
    Prop :=
  (∀ ref ∈ r.authorizedFactRefs, snapshot.Visible ref) ∧
    (∀ provenance ∈ r.factProvenanceClasses, snapshot.Visible provenance.1) ∧
    ∀ reason ∈ r.reasons, reason ∈ GENERIC_REASONS ∨
      ∃ ref, snapshot.Visible ref ∧ reason = unresolvedReason reprOf ref

variable {reprOf : String → String} {outcome : ApplicabilityOutcome} {factRef positionRef : String}
  {reason : Option String}

/-- The reasons that do not speak of hidden facts. -/
def visibleReasons (reprOf : String → String) (ledger : Ledger) (reason : Option String) :
    List String :=
  reason.toList ++ (ledger.unresolvedVisible.sort (· ≤ ·)).map (unresolvedReason reprOf)

theorem reasons_buildResult :
    (buildResult reprOf outcome factRef positionRef ledger reason).reasons =
        visibleReasons reprOf ledger reason ∨
      (buildResult reprOf outcome factRef positionRef ledger reason).reasons =
        visibleReasons reprOf ledger reason ++ [HIDDEN_CONTEXT_REASON] := by
  simp only [buildResult]
  cases ledger.hiddenUnresolved with
  | true => exact .inr rfl
  | false => exact .inl (List.append_nil _)

theorem buildResult_sameButHidden (h : SameVisible l m) :
    SameButHidden (buildResult reprOf outcome factRef positionRef l reason)
      (buildResult reprOf outcome factRef positionRef m reason) := by
  have hreasons : visibleReasons reprOf m reason = visibleReasons reprOf l reason := by
    rw [← h]
    rfl
  refine ⟨?_, visibleReasons reprOf l reason, reasons_buildResult, ?_⟩
  · rw [← h]
    rfl
  · rw [← hreasons]
    exact reasons_buildResult

theorem buildResult_namesVisible (h : ∀ ref, ledger.Records ref → snapshot.Visible ref)
    (hreason : ∀ text ∈ reason, text ∈ GENERIC_REASONS) :
    NamesVisible reprOf snapshot (buildResult reprOf outcome factRef positionRef ledger reason) := by
  refine ⟨fun ref href => ?_, fun provenance hprovenance => ?_, fun text htext => ?_⟩
  · exact h ref (Finset.mem_sort (· ≤ ·) |>.1 href)
  · obtain ⟨entry, hentry, rfl⟩ := List.mem_map.1 hprovenance
    have hmem := (List.mem_filter.1 hentry).2
    simp only [decide_eq_true_eq] at hmem
    exact h entry.1 hmem
  · simp only [buildResult, List.mem_append, Option.mem_toList, List.mem_map, Finset.mem_sort] at htext
    rcases htext with (htext | ⟨ref, href, rfl⟩) | htext
    · exact .inl (hreason text htext)
    · exact .inr ⟨ref, h ref (Finset.mem_union_right _ href), rfl⟩
    · split at htext
      · rw [List.mem_singleton.1 htext]
        exact .inl (by decide)
      · cases htext

theorem decideOutcome_generic (required : TruthValue) (exceptions : List TruthValue) :
    ∀ text ∈ (decideOutcome required exceptions).2, text ∈ GENERIC_REASONS := by
  intro text htext
  unfold decideOutcome at htext
  split at htext
  · rw [← Option.some.inj htext]
    decide
  · split at htext
    · cases htext
    · rw [← Option.some.inj htext]
      decide

/-- Evaluations with the same truths over snapshots that agree on the visible facts give one result up to
the generic reason, and a result names visible facts only. -/
theorem hidden_facts_do_not_leak (reprOf : String → String) (required : ApplicabilityExpression)
    (exceptions : List ApplicabilityExpression) (positionRef : String) :
    (∀ f g : FactSnapshot, AgreeOnVisible f g → truthOf f required.root = truthOf g required.root →
      (∀ exception ∈ exceptions, truthOf f exception.root = truthOf g exception.root) →
      ∀ r, evaluateApplicability reprOf required exceptions f positionRef = .ok r →
        ∃ r', evaluateApplicability reprOf required exceptions g positionRef = .ok r' ∧
          SameButHidden r r') ∧
    ∀ (f : FactSnapshot) (r : ApplicabilityResult),
      evaluateApplicability reprOf required exceptions f positionRef = .ok r →
        NamesVisible reprOf f r := by
  refine ⟨fun f g hagree hrequired hexceptions r hr => ?_, fun f r hr => ?_⟩
  · have htruths : truthsOf f (exceptions.map (·.root)) = truthsOf g (exceptions.map (·.root)) := by
      refine truthsOf_congr fun root hroot => ?_
      obtain ⟨exception, hexception, rfl⟩ := List.mem_map.1 hroot
      exact hexceptions exception hexception
    simp only [evaluateApplicability_eq_ok] at hr ⊢
    rw [hrequired, htruths, hagree.1] at hr
    obtain ⟨hposition, ⟨hfalse, rfl⟩ | ⟨truth, truths, htruth, hne, htruths, rfl⟩⟩ := hr
    · exact ⟨_, ⟨hposition, .inl ⟨hfalse, rfl⟩⟩,
        buildResult_sameButHidden (consultAll_sameVisible hagree _)⟩
    · exact ⟨_, ⟨hposition, .inr ⟨truth, truths, htruth, hne, htruths, rfl⟩⟩,
        buildResult_sameButHidden (consultAll_sameVisible hagree _)⟩
  · obtain ⟨-, ⟨-, rfl⟩ | ⟨truth, truths, -, -, -, rfl⟩⟩ := evaluateApplicability_eq_ok.1 hr
    · refine buildResult_namesVisible (records_consultAll _) fun text htext => ?_
      rw [← Option.some.inj htext]
      decide
    · exact buildResult_namesVisible (records_consultAll _) (decideOutcome_generic truth truths)

/-! ## A hidden fact beside a visible one -/

def enumOperand (value : String) (valid : (!isBlank value) = true) : Operand :=
  ⟨.enum value, none, valid⟩

/-- A fact is one value of an enumeration. -/
def factIs (name value : String) (name_valid : (!isBlank name) = true)
    (value_valid : (!isBlank value) = true) : ApplicabilityNode :=
  .comparison ⟨.equals, ⟨.factRef name, none, name_valid⟩, some (enumOperand value value_valid), [],
    rfl⟩

def approvedOrTrusted : ApplicabilityExpression where
  root := .boolean .any
    [factIs "status" "approved" (by decide) (by decide),
      factIs "risk" "trusted" (by decide) (by decide)]
  wellFormed := by decide
  count_le := by decide
  depth_le := by decide

def statusEntry : FactEntry :=
  ⟨[enumOperand "approved" (by decide)], true, .userAssumption, by decide⟩

def riskEntry : FactEntry := ⟨[enumOperand "known" (by decide)], false, .unknown, by decide⟩

def withRisk : FactSnapshot :=
  ⟨"facts-1", ⟨[("status", statusEntry), ("risk", riskEntry)], by decide⟩, by decide, by decide⟩

def withoutRisk : FactSnapshot := ⟨"facts-1", ⟨[("status", statusEntry)], by decide⟩, by decide, by decide⟩

theorem agree_risk : AgreeOnVisible withRisk withoutRisk := by
  refine ⟨rfl, fun name entry hentry => ?_⟩
  simp only [Dict.get_eq_some, withRisk, withoutRisk, List.mem_cons, Prod.mk.injEq, List.not_mem_nil,
    or_false]
  refine or_iff_left ?_
  rintro ⟨-, rfl⟩
  cases hentry

/-- The hidden fact is in neither result, and its absence only in the generic reason. -/
theorem hidden_facts_do_not_leak_risk :
    ∃ r r', evaluateApplicability id approvedOrTrusted [] withRisk "position-1" = .ok r ∧
      evaluateApplicability id approvedOrTrusted [] withoutRisk "position-1" = .ok r' ∧
      SameButHidden r r' ∧ NamesVisible id withRisk r := by
  obtain ⟨hsame, hnames⟩ := hidden_facts_do_not_leak id approvedOrTrusted [] "position-1"
  have htruth : truthOf withRisk approvedOrTrusted.root = .ok .true := by rfl
  have htruth' : truthOf withoutRisk approvedOrTrusted.root = .ok .true := by rfl
  have hr := (@evaluateApplicability_eq_ok id approvedOrTrusted [] withRisk "position-1" _).2
    ⟨by decide, .inr ⟨_, [], htruth, by decide, rfl, rfl⟩⟩
  obtain ⟨r', hr', hrr'⟩ := hsame withRisk withoutRisk agree_risk (htruth.trans htruth'.symm)
    (fun _ h => absurd h List.not_mem_nil) _ hr
  exact ⟨_, r', hr, hr', hrr', hnames withRisk _ hr⟩

end OmniviaCore.Knowledge
