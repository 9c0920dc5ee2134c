import Mathlib

/-!
# Kleene's three truth values

Conjunction and disjunction of a list are decisive: one `false` decides the one and one `true` the other
beside any `unknown`. Both look at which values are there and not at their order or number, and both
keep the order of information, in which `unknown` is below the two definite values.
-/

namespace OmniviaCore.Lib

/-- The three truth values. -/
inductive TruthValue where
  | true
  | false
  | unknown
  deriving DecidableEq

namespace TruthValue

def negate : TruthValue → TruthValue
  | .true => .false
  | .false => .true
  | .unknown => .unknown

def allOf (values : List TruthValue) : TruthValue :=
  if .false ∈ values then .false else if .unknown ∈ values then .unknown else .true

def anyOf (values : List TruthValue) : TruthValue :=
  if .true ∈ values then .true else if .unknown ∈ values then .unknown else .false

def ofBool (b : Bool) : TruthValue := if b then .true else .false

/-- `b` says what `a` says, and more when `a` says nothing. -/
def Informs (a b : TruthValue) : Prop := a = .unknown ∨ a = b

variable {a b : TruthValue} {l m : List TruthValue}

theorem Informs.refl (a : TruthValue) : Informs a a := .inr rfl

theorem Informs.eq_false (h : Informs .false b) : b = .false := by
  rcases h with h | h
  · cases h
  · exact h.symm

theorem Informs.negate (h : Informs a b) : Informs a.negate b.negate := by
  rcases h with rfl | rfl
  · exact .inl rfl
  · exact .refl _

theorem allOf_congr (h : ∀ v, v ∈ l ↔ v ∈ m) : allOf l = allOf m := by
  simp only [allOf, h]

theorem anyOf_congr (h : ∀ v, v ∈ l ↔ v ∈ m) : anyOf l = anyOf m := by
  simp only [anyOf, h]

theorem allOf_eq_false : allOf l = .false ↔ .false ∈ l := by
  unfold allOf
  split
  · next h => exact iff_of_true rfl h
  · next h => split <;> exact iff_of_false (by decide) h

theorem allOf_eq_true : allOf l = .true ↔ ∀ v ∈ l, v = .true := by
  unfold allOf
  split
  · next h => exact iff_of_false (by decide) fun hall => by cases hall _ h
  · next hfalse =>
    split
    · next h => exact iff_of_false (by decide) fun hall => by cases hall _ h
    · next hunknown =>
      refine iff_of_true rfl fun v hv => ?_
      cases v with
      | true => rfl
      | false => exact absurd hv hfalse
      | unknown => exact absurd hv hunknown

theorem anyOf_eq_true : anyOf l = .true ↔ .true ∈ l := by
  unfold anyOf
  split
  · next h => exact iff_of_true rfl h
  · next h => split <;> exact iff_of_false (by decide) h

theorem anyOf_eq_false : anyOf l = .false ↔ ∀ v ∈ l, v = .false := by
  unfold anyOf
  split
  · next h => exact iff_of_false (by decide) fun hall => by cases hall _ h
  · next htrue =>
    split
    · next h => exact iff_of_false (by decide) fun hall => by cases hall _ h
    · next hunknown =>
      refine iff_of_true rfl fun v hv => ?_
      cases v with
      | true => exact absurd hv htrue
      | false => rfl
      | unknown => exact absurd hv hunknown

/-- What is said of an element is said of its partner. -/
theorem mem_of_informs (h : List.Forall₂ Informs l m) (ha : a ≠ .unknown) (hmem : a ∈ l) : a ∈ m := by
  induction h with
  | nil => exact hmem
  | cons hhead _ ih =>
    rcases List.mem_cons.1 hmem with rfl | hmem
    · rcases hhead with hunknown | rfl
      · exact absurd hunknown ha
      · exact List.mem_cons_self
    · exact List.mem_cons_of_mem _ (ih hmem)

theorem forall_of_informs (h : List.Forall₂ Informs l m) (ha : a ≠ .unknown)
    (hall : ∀ v ∈ l, v = a) : ∀ v ∈ m, v = a := by
  induction h with
  | nil => exact hall
  | cons hhead _ ih =>
    rw [List.forall_mem_cons] at hall ⊢
    refine ⟨?_, ih hall.2⟩
    rcases hhead with hunknown | hsame
    · exact absurd (hall.1.symm.trans hunknown) ha
    · exact hsame.symm.trans hall.1

theorem Informs.allOf (h : List.Forall₂ Informs l m) : Informs (allOf l) (TruthValue.allOf m) := by
  cases hl : TruthValue.allOf l with
  | true => exact .inr (allOf_eq_true.2 (forall_of_informs h (by decide) (allOf_eq_true.1 hl))).symm
  | false => exact .inr (allOf_eq_false.2 (mem_of_informs h (by decide) (allOf_eq_false.1 hl))).symm
  | unknown => exact .inl rfl

theorem Informs.anyOf (h : List.Forall₂ Informs l m) : Informs (anyOf l) (TruthValue.anyOf m) := by
  cases hl : TruthValue.anyOf l with
  | true => exact .inr (anyOf_eq_true.2 (mem_of_informs h (by decide) (anyOf_eq_true.1 hl))).symm
  | false => exact .inr (anyOf_eq_false.2 (forall_of_informs h (by decide) (anyOf_eq_false.1 hl))).symm
  | unknown => exact .inl rfl

end TruthValue

end OmniviaCore.Lib
