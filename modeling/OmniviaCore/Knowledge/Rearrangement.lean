import OmniviaCore.Knowledge.Evaluation

/-!
# Rearranging what is known

Rearranging an expression keeps its truth (`truthOf_rearranged`): an operator looks at which truths its
children have. Rearranging the values of a fact keeps it when no comparison tells apart two dates the ledger
does not (`Uniform`, `truthOf_congr`): the ledger compares dates by their start alone and an evaluation by
both ends.
-/

namespace OmniviaCore.Knowledge

open Lib

/-! ## Values that are compared alike -/

/-- What a comparison makes of two dates. -/
def compareDates (operator : ComparisonOperator) (left right : TemporalInstant) :
    Except Raised TruthValue :=
  match operator with
  | .date relation => datesOrdered relation left right
  | _ => datesEqual left right

/-- Dates every comparison with a date treats alike. -/
def DatesAlike (a b : TemporalInstant) : Prop :=
  ∀ operator d, compareDates operator a d = compareDates operator b d

/-- Payloads no comparison tells apart. -/
inductive SamePayload : Payload → Payload → Prop
  | factRef (a b : String) : SamePayload (.factRef a) (.factRef b)
  | literal (value : LiteralValue) : SamePayload (.literal value) (.literal value)
  | enum (value : String) : SamePayload (.enum value) (.enum value)
  | numeric {a b : DecimalNumber} (h : a.value = b.value) : SamePayload (.numeric a) (.numeric b)
  | date {a b : TemporalInstant} (h : DatesAlike a b) : SamePayload (.date a) (.date b)

def Operand.Alike (v w : Operand) : Prop := v.unit = w.unit ∧ SamePayload v.payload w.payload

variable {v w : Operand}

/-- Values of one key, dates only if they are compared alike. -/
theorem alike_of_key (hkey : v.key = w.key)
    (hdates : ∀ a b, v.payload = .date a → w.payload = .date b → DatesAlike a b) : v.Alike w := by
  simp only [Operand.key, Prod.mk.injEq] at hkey
  obtain ⟨hpayload, hunit⟩ := hkey
  refine ⟨hunit, ?_⟩
  cases hv : v.payload <;> cases hw : w.payload <;> rw [hv, hw] at hpayload
  case factRef.factRef a b => exact .factRef a b
  case literal.literal a b =>
    obtain rfl := PayloadKey.literal.inj hpayload
    exact .literal a
  case enum.enum a b =>
    obtain rfl := PayloadKey.enum.inj hpayload
    exact .enum a
  case numeric.numeric a b => exact .numeric (PayloadKey.numeric.inj hpayload)
  case date.date a b => exact .date (hdates a b hv hw)
  all_goals cases hpayload

theorem valuesEqual_congr (h : v.Alike w) (right : Operand) :
    valuesEqual v right = valuesEqual w right := by
  obtain ⟨hunit, hpayload⟩ := h
  unfold valuesEqual
  rw [hunit]
  generalize v.payload = p at hpayload
  generalize w.payload = q at hpayload
  cases hpayload with
  | factRef a b => cases right.payload <;> rfl
  | literal value => rfl
  | enum value => rfl
  | numeric hvalue => cases right.payload <;> simp only [hvalue]
  | date h =>
    cases right.payload with
    | date d => exact h .equals d
    | _ => rfl

theorem compareValue_congr (h : v.Alike w) (node : ComparisonNode) :
    compareValue node v = compareValue node w := by
  have hequal : valuesEqual v = valuesEqual w := funext (valuesEqual_congr h)
  obtain ⟨hunit, hpayload⟩ := h
  unfold compareValue
  rw [hequal, hunit]
  generalize v.payload = p at hpayload
  generalize w.payload = q at hpayload
  cases hpayload with
  | factRef a b => rfl
  | literal value => rfl
  | enum value => rfl
  | numeric hvalue =>
    rcases node.operator with _ | _ | relation | relation <;> rcases node.right with _ | right <;> try rfl
    dsimp only
    cases right.payload <;> simp only [hvalue]
  | date h =>
    rcases node.operator with _ | _ | relation | relation <;> rcases node.right with _ | right <;> try rfl
    dsimp only
    cases right.payload with
    | date d => exact h (.date relation) d
    | _ => rfl

/-! ## Facts in another order -/

/-- Entries of the same values, in any order and number. -/
def FactEntry.SameValues (e e' : FactEntry) : Prop :=
  e.visible = e'.visible ∧ e.provenanceClass = e'.provenanceClass ∧ ∀ v, v ∈ e.values ↔ v ∈ e'.values

/-- Snapshots of the same facts, in any order. -/
def FactSnapshot.SameFacts (f g : FactSnapshot) : Prop :=
  f.factSnapshotRef = g.factSnapshotRef ∧ ∀ name, Option.Rel FactEntry.SameValues (f.facts.get name)
    (g.facts.get name)

/-- The dates the ledger takes any of are compared alike. -/
def FactEntry.Uniform (entry : FactEntry) : Prop :=
  entry.conflicting ∨ ∀ v ∈ entry.values, ∀ w ∈ entry.values, ∀ a b, v.payload = .date a →
    w.payload = .date b → DatesAlike a b

theorem conflicting_iff {entry : FactEntry} :
    entry.conflicting ↔ ∃ v ∈ entry.values, ∃ w ∈ entry.values, v.key ≠ w.key := by
  unfold FactEntry.conflicting
  constructor
  · intro h
    by_contra hsame
    push Not at hsame
    have hle : (entry.values.map Operand.key).dedup.length ≤ 1 := by
      rw [← not_lt]
      intro hlong
      obtain ⟨a, b, ha, hb, hne⟩ : ∃ a b, a ∈ (entry.values.map Operand.key).dedup ∧
          b ∈ (entry.values.map Operand.key).dedup ∧ a ≠ b := by
        have hnodup := List.nodup_dedup (entry.values.map Operand.key)
        refine ⟨_, _, List.getElem_mem (by omega : 0 < _), List.getElem_mem hlong, fun heq => ?_⟩
        exact absurd (hnodup.getElem_inj_iff.1 heq) (by decide)
      rw [List.mem_dedup, List.mem_map] at ha hb
      obtain ⟨v, hv, rfl⟩ := ha
      obtain ⟨w, hw, rfl⟩ := hb
      exact hne (hsame v hv w hw)
    omega
  · rintro ⟨v, hv, w, hw, hne⟩
    by_contra hshort
    have hmem : ∀ u ∈ entry.values, u.key ∈ (entry.values.map Operand.key).dedup := fun u hu =>
      List.mem_dedup.2 (List.mem_map_of_mem hu)
    obtain ⟨a, ha⟩ : ∃ a, (entry.values.map Operand.key).dedup = [a] := by
      have hpos := List.length_pos_of_mem (hmem v hv)
      exact List.length_eq_one_iff.1 (by omega)
    have hva := hmem v hv
    have hwa := hmem w hw
    rw [ha, List.mem_singleton] at hva hwa
    exact hne (hva.trans hwa.symm)

variable {f g : FactSnapshot} {e e' : FactEntry}

/-- The values of uniform entries of the same values are alike. -/
theorem single_sameValues (hsame : e.SameValues e') (huniform : e.Uniform) :
    Option.Rel Operand.Alike e.single e'.single := by
  have hconflicting : e.conflicting ↔ e'.conflicting := by
    simp only [conflicting_iff, hsame.2.2]
  unfold FactEntry.single
  cases he : e.values with
  | nil =>
    have he' : e'.values = [] := by
      rw [List.eq_nil_iff_forall_not_mem]
      intro v hv
      rw [← hsame.2.2, he] at hv
      cases hv
    rw [he']
    exact .none
  | cons v values =>
    have hv : v ∈ e.values := by simp [he]
    cases he' : e'.values with
    | nil =>
      have hmem := (hsame.2.2 v).1 hv
      rw [he'] at hmem
      cases hmem
    | cons w values' =>
      have hw : w ∈ e.values := (hsame.2.2 w).2 (by simp [he'])
      by_cases hc : e.conflicting
      · simp only [if_pos hc, if_pos (hconflicting.1 hc)]
        exact .none
      · simp only [if_neg hc, if_neg (mt hconflicting.2 hc)]
        have hkey : v.key = w.key := by
          by_contra hne
          exact hc (conflicting_iff.2 ⟨v, hv, w, hw, hne⟩)
        exact .some (alike_of_key hkey (huniform.resolve_left hc v hv w hw))

theorem resolve_sameFacts (hsame : f.SameFacts g)
    (huniform : ∀ name entry, f.facts.get name = some entry → entry.Uniform) (name : String) :
    Option.Rel Operand.Alike (f.resolve name) (g.resolve name) := by
  unfold FactSnapshot.resolve
  have hrel := hsame.2 name
  cases hf : f.facts.get name with
  | none =>
    rw [hf] at hrel
    generalize g.facts.get name = other at hrel
    cases hrel
    exact .none
  | some entry =>
    rw [hf] at hrel
    generalize g.facts.get name = other at hrel
    cases hrel with
    | some hvalues => exact single_sameValues hvalues (huniform name entry hf)

theorem truthOf_congr (h : ∀ name, Option.Rel Operand.Alike (f.resolve name) (g.resolve name))
    (node : ApplicabilityNode) : truthOf f node = truthOf g node := by
  induction node using ApplicabilityNode.induct with
  | comparison node =>
    rw [truthOf, truthOf, comparisonTruth, comparisonTruth]
    have hrel := h node.factRef
    generalize f.resolve node.factRef = x at hrel
    generalize g.resolve node.factRef = y at hrel
    cases hrel with
    | none => rfl
    | some halike => exact compareValue_congr halike node
  | boolean operator children ih =>
    rw [truthOf, truthOf, truthsOf_congr ih]

/-! ## Expressions in another order -/

/-- The same expression with children and set members in another order. -/
inductive Rearranged : ApplicabilityNode → ApplicabilityNode → Prop
  | refl (node : ApplicabilityNode) : Rearranged node node
  | trans {a b c : ApplicabilityNode} (hab : Rearranged a b) (hbc : Rearranged b c) : Rearranged a c
  | members {node node' : ComparisonNode} (hoperator : node.operator = node'.operator)
      (hleft : node.left = node'.left) (hright : node.right = node'.right)
      (hmembers : node.members.Perm node'.members) : Rearranged (.comparison node) (.comparison node')
  | children (operator : BooleanOperator) {l m : List ApplicabilityNode} (h : l.Perm m) :
      Rearranged (.boolean operator l) (.boolean operator m)
  | child (operator : BooleanOperator) (before after : List ApplicabilityNode)
      {a b : ApplicabilityNode} (h : Rearranged a b) :
      Rearranged (.boolean operator (before ++ a :: after)) (.boolean operator (before ++ b :: after))

theorem forall₂_perm {α β : Type} {r : α → β → Prop} {l m : List α} {bs : List β} (h : l.Perm m)
    (hbs : List.Forall₂ r l bs) : ∃ bs', List.Forall₂ r m bs' ∧ bs'.Perm bs :=
  List.perm_comp_forall₂ h.symm hbs

theorem compareValue_members {node node' : ComparisonNode} (hoperator : node.operator = node'.operator)
    (hright : node.right = node'.right) (hmembers : node.members.Perm node'.members) (value : Operand)
    {truth : TruthValue} (h : compareValue node value = .ok truth) :
    compareValue node' value = .ok truth := by
  unfold compareValue at h ⊢
  rw [← hoperator, ← hright]
  generalize node.right = right at h
  rcases hop : node.operator with _ | _ | relation | relation <;> rw [hop] at h
  · cases right <;> exact h
  · simp only [bind_eq_ok, mapM_eq_ok, pure_eq_ok] at h ⊢
    obtain ⟨found, hfound, rfl⟩ := h
    obtain ⟨found', hfound', hperm⟩ := forall₂_perm hmembers hfound
    exact ⟨found', hfound', TruthValue.anyOf_congr fun v => hperm.mem_iff⟩
  · cases right <;> exact h
  · cases right <;> exact h

/-- What an operator makes of truths depends on their order for a `not` alone, which has one. -/
theorem combine_perm {operator : BooleanOperator} {truths truths' : List TruthValue}
    (hperm : truths'.Perm truths) (hnot : operator = .not → truths.length = 1) :
    operator.combine truths' = operator.combine truths := by
  cases operator with
  | all => exact congrArg _ (TruthValue.allOf_congr fun v => hperm.mem_iff)
  | any => exact congrArg _ (TruthValue.anyOf_congr fun v => hperm.mem_iff)
  | not =>
    obtain ⟨truth, rfl⟩ := List.length_eq_one_iff.1 (hnot rfl)
    rw [List.perm_singleton.1 hperm]

theorem wellFormedAll_iff {children : List ApplicabilityNode} :
    wellFormedAll children = true ↔ ∀ child ∈ children, child.wellFormed = true := by
  induction children with
  | nil => simp [wellFormedAll]
  | cons child children ih => simp [wellFormedAll, ih]

theorem wellFormed_boolean {operator : BooleanOperator} {children : List ApplicabilityNode} :
    (ApplicabilityNode.boolean operator children).wellFormed = true ↔
      (operator = .not → children.length = 1) ∧ 1 ≤ children.length ∧
        ∀ child ∈ children, child.wellFormed = true := by
  cases operator with
  | all => simp [ApplicabilityNode.wellFormed, wellFormedAll_iff]
  | any => simp [ApplicabilityNode.wellFormed, wellFormedAll_iff]
  | not =>
    simp only [ApplicabilityNode.wellFormed, Bool.and_eq_true, wellFormedAll_iff, decide_eq_true_eq,
      forall_const, ← and_assoc]
    refine and_congr_left fun _ => ?_
    omega

theorem Rearranged.wellFormed {a b : ApplicabilityNode} (h : Rearranged a b)
    (ha : a.wellFormed = true) : b.wellFormed = true := by
  induction h with
  | refl node => exact ha
  | trans _ _ ihab ihbc => exact ihbc (ihab ha)
  | members _ _ _ _ => rfl
  | children operator hperm =>
    rw [wellFormed_boolean] at ha ⊢
    rw [← hperm.length_eq]
    exact ⟨ha.1, ha.2.1, fun child hchild => ha.2.2 child (hperm.mem_iff.2 hchild)⟩
  | child operator before after _ ih =>
    rw [wellFormed_boolean] at ha ⊢
    simp only [List.length_append, List.length_cons, List.forall_mem_append, List.forall_mem_cons] at ha ⊢
    exact ⟨ha.1, ha.2.1, ha.2.2.1, ih ha.2.2.2.1, ha.2.2.2.2⟩

theorem forall₂_truths_child {a b : ApplicabilityNode} {before after : List ApplicabilityNode}
    {truths : List TruthValue} (h : ∀ t, truthOf f a = .ok t → truthOf f b = .ok t)
    (htruths : List.Forall₂ (fun c t => truthOf f c = .ok t) (before ++ a :: after) truths) :
    List.Forall₂ (fun c t => truthOf f c = .ok t) (before ++ b :: after) truths := by
  induction before generalizing truths with
  | nil =>
    obtain ⟨t, rest, ht, hrest, rfl⟩ := List.forall₂_cons_left_iff.1 htruths
    exact .cons (h t ht) hrest
  | cons c before ih =>
    obtain ⟨t, rest, ht, hrest, rfl⟩ := List.forall₂_cons_left_iff.1 htruths
    exact .cons ht (ih hrest)

theorem truthOf_rearranged {a b : ApplicabilityNode} (h : Rearranged a b)
    (ha : a.wellFormed = true) {truth : TruthValue} (htruth : truthOf f a = .ok truth) :
    truthOf f b = .ok truth := by
  induction h generalizing truth with
  | refl node => exact htruth
  | trans hab _ ihab ihbc => exact ihbc (hab.wellFormed ha) (ihab ha htruth)
  | @members node node' hoperator hleft hright hmembers =>
    have hfact : node.factRef = node'.factRef := by rw [ComparisonNode.factRef, hleft]; rfl
    rw [truthOf, comparisonTruth] at htruth ⊢
    rw [← hfact]
    cases hvalue : f.resolve node.factRef with
    | none =>
      rw [hvalue] at htruth
      exact htruth
    | some value =>
      rw [hvalue] at htruth
      exact compareValue_members hoperator hright hmembers value htruth
  | @children operator l m hperm =>
    rw [truthOf, truthsOf_eq, bind_eq_ok] at htruth ⊢
    obtain ⟨truths, htruths, hcombine⟩ := htruth
    rw [mapM_eq_ok] at htruths
    obtain ⟨truths', htruths', hperm'⟩ := forall₂_perm hperm htruths
    refine ⟨truths', mapM_eq_ok.2 htruths', ?_⟩
    rw [combine_perm hperm' fun hnot => ?_]
    · exact hcombine
    · rw [← htruths.length_eq]
      exact (wellFormed_boolean.1 ha).1 hnot
  | @child operator before after a b _ ih =>
    rw [truthOf, truthsOf_eq, bind_eq_ok] at htruth ⊢
    obtain ⟨truths, htruths, hcombine⟩ := htruth
    rw [mapM_eq_ok] at htruths
    have hchild := (wellFormed_boolean.1 ha).2.2 a (by simp)
    exact ⟨truths, mapM_eq_ok.2 (forall₂_truths_child (fun t => ih hchild) htruths), hcombine⟩

theorem Rearranged.symm {a b : ApplicabilityNode} (h : Rearranged a b) : Rearranged b a := by
  induction h with
  | refl node => exact .refl node
  | trans _ _ ihab ihbc => exact .trans ihbc ihab
  | members hoperator hleft hright hmembers =>
    exact .members hoperator.symm hleft.symm hright.symm hmembers.symm
  | children operator hperm => exact .children operator hperm.symm
  | child operator before after _ ih => exact .child operator before after ih

end OmniviaCore.Knowledge
