import OmniviaCore.SemanticRegistry.Operations

/-!
# The version impact of a change set

`semantic_registry/diff.py`: the version increment an operation forces, read off its kind, and for a
cardinality change off the two bounds its `before` and `after` name. The bounds are compared with
Python's `>`, which any JSON payload reaches.
-/

namespace OmniviaCore.SemanticRegistry

open Lib CanonicalJson

/-! ## Python's comparison -/

/-- A number, as `>` compares it. -/
def number : Value → Option ℚ
  | .bool b => some (if b then 1 else 0)
  | .int n => some n
  | .float (.finite negative x) => some (x.signedValue negative)
  | _ => none

/-- The number of a code point, by which a `str` is ordered. -/
def codePointNumber : CodePoint → ℕ
  | .scalar c => c.toNat
  | .surrogate n => 0xD800 + n

def codePoints (s : Str) : List ℕ := s.map codePointNumber

mutual

/-- `a == b`. -/
def equal : Value → Value → Bool
  | .mapping members, .mapping members' =>
    members.length = members'.length && equalMembers members members'
  | .sequence items, .sequence items' => equalItems items items'
  | a, b =>
    match hashed a, hashed b with
    | .ok p, .ok q => p = q
    | _, _ => false

def equalMembers : List (Key × Value) → List (Key × Value) → Bool
  | [], _ => true
  | (key, item) :: members, members' =>
    (members'.any fun m => m.1 = key && equal item m.2) && equalMembers members members'

def equalItems : List Value → List Value → Bool
  | [], [] => true
  | item :: items, item' :: items' => equal item item' && equalItems items items'
  | _, _ => false

end

mutual

/-- `a > b`. -/
def greater : Value → Value → Except ElementError Bool
  | .str s, .str t => .ok (codePoints t < codePoints s)
  | .sequence items, .sequence items' => greaterItems items items'
  | a, b =>
    match number a, number b with
    | some p, some q => .ok (q < p)
    | _, _ => .error .typeError

/-- Lists are compared at the first place where they differ. -/
def greaterItems : List Value → List Value → Except ElementError Bool
  | [], _ => .ok false
  | _ :: _, [] => .ok true
  | item :: items, item' :: items' =>
    if equal item item' then greaterItems items items' else greater item item'

end

/-! ## Classification -/

inductive VersionImpact where
  | patch | minor | major
  deriving DecidableEq

def VersionImpact.rank : VersionImpact → ℕ
  | .patch => 0
  | .minor => 1
  | .major => 2

def VersionImpact.worst (a b : VersionImpact) : VersionImpact := if a.rank < b.rank then b else a

inductive CompatibilityClassification where
  | compatible | conditionallyCompatible | migrationRequired | breaking | unknown
  deriving DecidableEq

/-- `after_min is not None and (before_min is None or after_min > before_min)`. -/
def tightensMin (before after : JsonMapping) : Except ElementError Bool :=
  match after.get "min_cardinality", before.get "min_cardinality" with
  | .none, _ => .ok false
  | _, .none => .ok true
  | afterMin, beforeMin => greater afterMin beforeMin

/-- `after_max is not None and before_max is not None and after_max < before_max`. -/
def tightensMax (before after : JsonMapping) : Except ElementError Bool :=
  match after.get "max_cardinality", before.get "max_cardinality" with
  | .none, _ => .ok false
  | _, .none => .ok false
  | afterMax, beforeMax => greater beforeMax afterMax

/-- `_cardinality_impact`. -/
def cardinalityImpact (op : ChangeOperation) : Except ElementError VersionImpact := do
  let before := op.before.getD []
  let tightensMin ← tightensMin before op.after
  let tightensMax ← tightensMax before op.after
  pure (if tightensMin || tightensMax then .major else .minor)

/-- `classify_operation`. -/
def classifyOperation (op : ChangeOperation) : Except ElementError VersionImpact :=
  match op.kind with
  | .addAlias | .changeLabel | .changeDescription => .ok .patch
  | .changeCardinality => cardinalityImpact op
  | .addConcept | .addProperty | .addRelationship | .addVocabularyMember | .addActionType
  | .deprecateElement => .ok .minor
  | .addConstraint | .changeHierarchy | .changeDomainRange | .changeEquivalence | .changeDisjointness
  | .changeActionContract | .replaceElement | .removeElement => .ok .major

/-- `classify_change_set`. -/
def classifyChangeSet (operations : List ChangeOperation) : Except ElementError VersionImpact := do
  let impacts ← operations.mapM classifyOperation
  pure (impacts.foldl VersionImpact.worst .patch)

/-- `impact_to_compatibility`. -/
def impactToCompatibility : VersionImpact → CompatibilityClassification
  | .major => .breaking
  | _ => .compatible

/-! ## The worst operation -/

theorem VersionImpact.rank_worst (a b : VersionImpact) : (a.worst b).rank = max a.rank b.rank := by
  unfold worst
  split <;> omega

theorem rank_foldl_worst (impacts : List VersionImpact) (impact : VersionImpact) :
    ∀ i, i = impact ∨ i ∈ impacts → i.rank ≤ (impacts.foldl VersionImpact.worst impact).rank := by
  induction impacts generalizing impact with
  | nil =>
    rintro i (rfl | hi)
    · exact le_rfl
    · exact absurd hi List.not_mem_nil
  | cons j impacts ih =>
    intro i hi
    rw [List.foldl_cons]
    have hworst := impact.rank_worst j
    have hhead := ih (impact.worst j) _ (.inl rfl)
    rw [List.mem_cons] at hi
    rcases hi with rfl | rfl | hi
    · omega
    · omega
    · exact ih _ i (.inr hi)

/-- No operation of a change set has a larger impact than the set. -/
theorem classifyOperation_of_mem {operations : List ChangeOperation} {impact : VersionImpact}
    (h : classifyChangeSet operations = .ok impact) {op : ChangeOperation} (hop : op ∈ operations) :
    ∃ i, classifyOperation op = .ok i ∧ i.rank ≤ impact.rank := by
  simp only [classifyChangeSet, bind_eq_ok, pure_eq_ok] at h
  obtain ⟨impacts, himpacts, rfl⟩ := h
  obtain ⟨i, hi, hclass⟩ := exists_of_forall₂_left (mapM_eq_ok.1 himpacts) hop
  exact ⟨i, hclass, rank_foldl_worst impacts .patch i (.inr hi)⟩

end OmniviaCore.SemanticRegistry
