import OmniviaCore.SemanticRegistry.VersionImpact
import OmniviaCore.Lib.Kahn
import OmniviaCore.Lib.Dict
import OmniviaCore.Lib.Rows
import OmniviaCore.Lib.Shuffled
import OmniviaCore.Lib.SortBy

/-!
# The order of a change set

`order_operations` of `semantic_registry/ordering.py`. The operations are the nodes of Kahn's algorithm
(`Lib.Kahn`) under their sort keys, so the order is greedy: every place holds the operation with the least
sort key among those whose dependencies are all placed.
-/

namespace OmniviaCore.SemanticRegistry

open Lib CanonicalJson

/-- What a `SemanticConflictError` of `order_operations` says. -/
inductive OrderingError where
  | duplicateIds
  | unknownDependency (operationId dependencyId : Str)
  | cycle (stuck : List Str)

def OrderingError.code : OrderingError → String
  | .duplicateIds => "duplicate_id"
  | .unknownDependency .. => "unknown_reference"
  | .cycle _ => "cyclic_dependency"

/-- The kind and the identifier of an operation, compared by code points. -/
abbrev SortKey := List ℕ ×ₗ List ℕ

/-- `sort_key`. -/
def sortKey (op : ChangeOperation) : SortKey :=
  toLex (codePoints (ofChars op.kind.value.toList), codePoints op.operationId)

section

variable (operations : List ChangeOperation)

/-- `by_id`. -/
def operationsById : Dict Str ChangeOperation := Dict.ofList (·.operationId) operations

/-- The operation whose identifier a sort key ends with. -/
def operationAt (key : SortKey) : Option ChangeOperation :=
  operations.find? fun op => sortKey op = key

def dependencyKeys (key : SortKey) : List SortKey :=
  ((operationAt operations key).map fun op => op.dependsOnOperationIds.filterMap fun dependencyId =>
    ((operationsById operations).get dependencyId).map sortKey).getD []

/-- `dependents[dependency_id]`: an operation is listed once for each time it names the dependency. -/
def dependentsOf (dependencyId : Str) : List SortKey :=
  operations.flatMap fun op =>
    (op.dependsOnOperationIds.filter (· = dependencyId)).map fun _ => sortKey op

def dependentKeys (key : SortKey) : List SortKey :=
  ((operationAt operations key).map fun op => dependentsOf operations op.operationId).getD []

/-- The loop, which turns while an operation is ready: at most once an operation. -/
def worklist : Kahn SortKey :=
  Kahn.turns (dependentKeys operations) (operations.map sortKey).length
    (Kahn.start (operations.map sortKey) (dependencyKeys operations))

/-- The operations something is still to be placed before. -/
def stuckIds : List Str :=
  sortBy codePoints ((operations.filter fun op => 0 < (worklist operations).remaining (sortKey op)).map
    (·.operationId))

/-- The dependencies of an operation are operations. -/
def requireKnown (op : ChangeOperation) : Except OrderingError Unit :=
  op.dependsOnOperationIds.forM fun dependencyId =>
    require ((operationsById operations).get dependencyId).isSome
      (.unknownDependency op.operationId dependencyId)

/-- `order_operations`. -/
def orderOperations : Except OrderingError (List ChangeOperation) := do
  require ((operationsById operations).entries.length = operations.length) .duplicateIds
  operations.forM (requireKnown operations)
  let ordered := (worklist operations).order.filterMap (operationAt operations)
  require (ordered.length = operations.length) (.cycle (stuckIds operations))
  pure ordered

end

/-! ## What the order is for -/

def UniqueIds (operations : List ChangeOperation) : Prop := (operations.map (·.operationId)).Nodup

def DependenciesKnown (operations : List ChangeOperation) : Prop :=
  ∀ op ∈ operations, ∀ d ∈ op.dependsOnOperationIds, d ∈ operations.map (·.operationId)

/-- One of the operations depends on another, by their identifiers. -/
def OperationDependsOn (operations : List ChangeOperation) (operationId dependencyId : Str) : Prop :=
  ∃ op ∈ operations, op.operationId = operationId ∧ dependencyId ∈ op.dependsOnOperationIds

/-- An operation depends on itself, through others. -/
def DependenciesCycle (operations : List ChangeOperation) : Prop :=
  ∃ operationId, Relation.TransGen (OperationDependsOn operations) operationId operationId

/-- An operation that is not placed yet, and whose dependencies are. -/
def Placeable (operations placed : List ChangeOperation) (op : ChangeOperation) : Prop :=
  op ∈ operations ∧ op ∉ placed ∧ ∀ d ∈ op.dependsOnOperationIds, d ∈ placed.map (·.operationId)

/-- The operations in an order in which every place holds the least operation that can be placed. -/
structure Canonical (operations ordered : List ChangeOperation) : Prop where
  perm : ordered.Perm operations
  least : ∀ placed op later, ordered = placed ++ op :: later →
    Placeable operations placed op ∧ ∀ u, Placeable operations placed u → sortKey op ≤ sortKey u

/-! ## Keys and identifiers -/

theorem codePointNumber_injective : Function.Injective codePointNumber := by
  intro a b h
  cases a with
  | scalar c =>
    cases b with
    | scalar d => exact congrArg CodePoint.scalar (Char.ext (UInt32.toNat_inj.1 h))
    | surrogate n =>
      have hn := n.isLt
      have hvalid := c.valid
      simp only [codePointNumber] at h
      simp only [UInt32.isValidChar, Nat.isValidChar, Char.toNat] at hvalid h
      omega
  | surrogate m =>
    cases b with
    | scalar d =>
      have hm := m.isLt
      have hvalid := d.valid
      simp only [codePointNumber] at h
      simp only [UInt32.isValidChar, Nat.isValidChar, Char.toNat] at hvalid h
      omega
    | surrogate n =>
      simp only [codePointNumber] at h
      congr 1
      apply Fin.ext
      omega

theorem codePoints_injective : Function.Injective codePoints :=
  List.map_injective_iff.2 codePointNumber_injective

theorem operationId_of_sortKey {op u : ChangeOperation} (h : sortKey op = sortKey u) :
    op.operationId = u.operationId :=
  codePoints_injective (Prod.mk.inj (toLex.injective h)).2

variable {operations operations' ordered : List ChangeOperation} {op u : ChangeOperation}

theorem UniqueIds.eq (h : UniqueIds operations) (hop : op ∈ operations) (hu : u ∈ operations)
    (hid : op.operationId = u.operationId) : op = u :=
  List.inj_on_of_nodup_map h hop hu hid

theorem UniqueIds.sortKey (h : UniqueIds operations) : Unique sortKey operations := by
  refine (List.nodup_map_iff_inj_on (List.Nodup.of_map _ h)).2 fun op hop u hu hkey => ?_
  exact h.eq hop hu (operationId_of_sortKey hkey)

theorem operationAt_sortKey (h : UniqueIds operations) (hop : op ∈ operations) :
    operationAt operations (SemanticRegistry.sortKey op) = some op :=
  h.sortKey.find? hop rfl

theorem get_operationsById (h : UniqueIds operations) {d : Str} :
    (operationsById operations).get d = some u ↔ u ∈ operations ∧ u.operationId = d :=
  Dict.get_ofList h

theorem isSome_operationsById (h : UniqueIds operations) {d : Str} :
    ((operationsById operations).get d).isSome ↔ d ∈ operations.map (·.operationId) := by
  simp only [Option.isSome_iff_exists, get_operationsById h, List.mem_map]

theorem mem_dependencyKeys (h : UniqueIds operations) (hop : op ∈ operations) {key : SortKey} :
    key ∈ dependencyKeys operations (sortKey op) ↔
      ∃ u ∈ operations, u.operationId ∈ op.dependsOnOperationIds ∧ sortKey u = key := by
  rw [dependencyKeys, operationAt_sortKey h hop]
  simp only [Option.map_some, Option.getD_some, List.mem_filterMap, Option.map_eq_some_iff,
    get_operationsById h]
  constructor
  · rintro ⟨d, hd, u, ⟨hu, rfl⟩, rfl⟩
    exact ⟨u, hu, hd, rfl⟩
  · rintro ⟨u, hu, hd, rfl⟩
    exact ⟨u.operationId, hd, u, ⟨hu, rfl⟩, rfl⟩

theorem ChangeOperation.dependsOn_nodup (op : ChangeOperation) : op.dependsOnOperationIds.Nodup := by
  have hvalid := op.valid
  simp only [OperationMembers.postInit, bind_eq_ok, require_eq_ok, exists_unit] at hvalid
  exact hvalid.2.2.2.2.2.1

theorem mem_dependentsOf {d : Str} {key : SortKey} :
    key ∈ dependentsOf operations d ↔
      ∃ u ∈ operations, d ∈ u.dependsOnOperationIds ∧ sortKey u = key := by
  simp only [dependentsOf, List.mem_flatMap, List.mem_map, List.mem_filter, decide_eq_true_eq]
  constructor
  · rintro ⟨u, hu, _, ⟨hd, rfl⟩, rfl⟩
    exact ⟨u, hu, hd, rfl⟩
  · rintro ⟨u, hu, hd, rfl⟩
    exact ⟨u, hu, d, ⟨hd, rfl⟩, rfl⟩

theorem dependentsOf_sublist (operations : List ChangeOperation) (d : Str) :
    (dependentsOf operations d).Sublist (operations.map sortKey) := by
  induction operations with
  | nil => exact List.Sublist.slnil
  | cons op operations ih =>
    have hnamed : (op.dependsOnOperationIds.filter (· = d)).Sublist [d] := by
      have hcount := List.nodup_iff_count_le_one.1 op.dependsOn_nodup d
      rw [List.filter_eq, ← List.replicate_one]
      exact List.replicate_sublist_replicate d |>.2 hcount
    exact (hnamed.map fun _ => sortKey op).append ih

theorem describes (h : UniqueIds operations) :
    Kahn.Describes (operations.map sortKey) (dependencyKeys operations) (dependentKeys operations) where
  nodes_nodup := h.sortKey
  deps_nodup := by
    intro key hkey
    obtain ⟨op, hop, rfl⟩ := List.mem_map.1 hkey
    rw [dependencyKeys, operationAt_sortKey h hop]
    refine op.dependsOn_nodup.filterMap fun d d' key hd hd' => ?_
    simp only [Option.mem_def, Option.map_eq_some_iff, get_operationsById h] at hd hd'
    obtain ⟨u, ⟨-, rfl⟩, rfl⟩ := hd
    obtain ⟨u', ⟨-, rfl⟩, hkey'⟩ := hd'
    exact (operationId_of_sortKey hkey').symm
  closed := by
    intro key hkey d hd
    obtain ⟨op, hop, rfl⟩ := List.mem_map.1 hkey
    obtain ⟨u, hu, -, rfl⟩ := (mem_dependencyKeys h hop).1 hd
    exact List.mem_map_of_mem hu
  dependents_nodup := by
    intro key
    unfold dependentKeys
    cases operationAt operations key with
    | none => exact List.nodup_nil
    | some op => exact h.sortKey.sublist (dependentsOf_sublist operations op.operationId)
  mem_dependents := by
    intro key key'
    cases hat : operationAt operations key with
    | none =>
      have hnot : ∀ op ∈ operations, sortKey op ≠ key := by
        simpa [operationAt] using hat
      have hempty : dependentKeys operations key = [] := by
        rw [dependentKeys, hat]
        rfl
      rw [hempty]
      refine iff_of_false List.not_mem_nil fun hkeys => ?_
      obtain ⟨hkey', hdep⟩ := hkeys
      obtain ⟨op, hop, rfl⟩ := List.mem_map.1 hkey'
      obtain ⟨u, hu, -, rfl⟩ := (mem_dependencyKeys h hop).1 hdep
      exact hnot u hu rfl
    | some u =>
      have hu := List.mem_of_find?_eq_some hat
      have hkey : sortKey u = key := by simpa using List.find?_some hat
      subst hkey
      rw [dependentKeys, hat, Option.map_some, Option.getD_some, mem_dependentsOf]
      constructor
      · rintro ⟨op, hop, hdep, rfl⟩
        exact ⟨List.mem_map_of_mem hop, (mem_dependencyKeys h hop).2 ⟨u, hu, hdep, rfl⟩⟩
      · rintro ⟨hkey', hdep⟩
        obtain ⟨op, hop, rfl⟩ := List.mem_map.1 hkey'
        obtain ⟨u', -, hdep, hsame⟩ := (mem_dependencyKeys h hop).1 hdep
        rw [operationId_of_sortKey hsame] at hdep
        exact ⟨op, hop, hdep, rfl⟩

/-! ## Orders of operations and orders of keys -/

theorem filterMap_operationAt (h : UniqueIds operations) (hall : ∀ op ∈ ordered, op ∈ operations) :
    (ordered.map sortKey).filterMap (operationAt operations) = ordered := by
  induction ordered with
  | nil => rfl
  | cons op ordered ih =>
    rw [List.forall_mem_cons] at hall
    rw [List.map_cons, List.filterMap_cons, operationAt_sortKey h hall.1, ih hall.2]

theorem map_operationAt (h : UniqueIds operations) {keys : List SortKey}
    (hall : ∀ key ∈ keys, key ∈ operations.map sortKey) :
    (keys.filterMap (operationAt operations)).map sortKey = keys := by
  induction keys with
  | nil => rfl
  | cons key keys ih =>
    rw [List.forall_mem_cons] at hall
    obtain ⟨op, hop, rfl⟩ := List.mem_map.1 hall.1
    rw [List.filterMap_cons, operationAt_sortKey h hop, List.map_cons, ih hall.2]

theorem next_iff (h : UniqueIds operations) (hknown : DependenciesKnown operations)
    (hall : ∀ op ∈ ordered, op ∈ operations) (hop : op ∈ operations) :
    Next (operations.map sortKey) (dependencyKeys operations) (ordered.map sortKey) (sortKey op) ↔
      Placeable operations ordered op := by
  have hkey : ∀ {u : ChangeOperation}, u ∈ operations →
      (sortKey u ∈ ordered.map sortKey ↔ u ∈ ordered) := by
    intro u hu
    constructor
    · intro hmem
      obtain ⟨v, hv, hsame⟩ := List.mem_map.1 hmem
      rw [← h.eq (hall v hv) hu (operationId_of_sortKey hsame)]
      exact hv
    · exact fun hmem => List.mem_map_of_mem hmem
  unfold Next Placeable
  rw [hkey hop, iff_true_intro hop, iff_true_intro (List.mem_map_of_mem hop)]
  refine and_congr_right fun _ => and_congr_right fun _ => ?_
  constructor
  · intro hdeps d hd
    obtain ⟨u, hu, rfl⟩ := List.mem_map.1 (hknown op hop d hd)
    have hplaced := hdeps _ ((mem_dependencyKeys h hop).2 ⟨u, hu, hd, rfl⟩)
    exact List.mem_map_of_mem ((hkey hu).1 hplaced)
  · intro hdeps key hkey'
    obtain ⟨u, hu, hd, rfl⟩ := (mem_dependencyKeys h hop).1 hkey'
    obtain ⟨v, hv, hsame⟩ := List.mem_map.1 (hdeps _ hd)
    rw [← h.eq (hall v hv) hu hsame]
    exact List.mem_map_of_mem hv

theorem canonical_iff (h : UniqueIds operations) (hknown : DependenciesKnown operations)
    (hperm : ordered.Perm operations) :
    Canonical operations ordered ↔
      Greedy (operations.map sortKey) (dependencyKeys operations) (ordered.map sortKey) := by
  constructor
  · intro hcanonical before key after hsplit
    obtain ⟨placed, rest, rfl, rfl, hrest⟩ := List.map_eq_append_iff.1 hsplit
    obtain ⟨op, later, rfl, rfl, rfl⟩ := List.map_eq_cons_iff.1 hrest
    have hall : ∀ u ∈ placed ++ op :: later, u ∈ operations := fun u hu => hperm.mem_iff.1 hu
    have hplaced : ∀ u ∈ placed, u ∈ operations := fun u hu => hall u (List.mem_append_left _ hu)
    obtain ⟨hop, hleast⟩ := hcanonical.least placed op later rfl
    refine ⟨(next_iff h hknown hplaced hop.1).2 hop, fun key hkey => ?_⟩
    obtain ⟨u, hu, rfl⟩ := List.mem_map.1 hkey.1
    exact hleast u ((next_iff h hknown hplaced hu).1 hkey)
  · intro hgreedy
    refine ⟨hperm, ?_⟩
    rintro placed op later rfl
    have hall : ∀ u ∈ placed ++ op :: later, u ∈ operations := fun u hu => hperm.mem_iff.1 hu
    have hplaced : ∀ u ∈ placed, u ∈ operations := fun u hu => hall u (List.mem_append_left _ hu)
    have hop : op ∈ operations := hall op (by simp)
    obtain ⟨hnext, hleast⟩ := hgreedy (placed.map sortKey) (sortKey op) (later.map sortKey) (by simp)
    refine ⟨(next_iff h hknown hplaced hop).1 hnext, fun u hu => ?_⟩
    exact hleast _ ((next_iff h hknown hplaced hu.1).2 hu)

/-- Operations depend on themselves, through others, as their keys do. -/
theorem acyclic_iff (h : UniqueIds operations) (hknown : DependenciesKnown operations) :
    Acyclic (operations.map sortKey) (dependencyKeys operations) ↔ ¬DependenciesCycle operations := by
  have hkeys : ∀ {op u : ChangeOperation}, op ∈ operations → u ∈ operations →
      (Lib.DependsOn (operations.map sortKey) (dependencyKeys operations) (sortKey op) (sortKey u) ↔
        OperationDependsOn operations op.operationId u.operationId) := by
    intro op u hop hu
    unfold Lib.DependsOn OperationDependsOn
    rw [iff_true_intro (List.mem_map_of_mem hop), true_and, mem_dependencyKeys h hop]
    constructor
    · rintro ⟨v, hv, hd, hsame⟩
      exact ⟨op, hop, rfl, operationId_of_sortKey hsame ▸ hd⟩
    · rintro ⟨v, hv, hsame, hd⟩
      rw [h.eq hv hop hsame] at hd
      exact ⟨u, hu, hd, rfl⟩
  have hid : ∀ {op : ChangeOperation} {d : Str}, op ∈ operations →
      Relation.TransGen (OperationDependsOn operations) op.operationId d →
      ∃ u ∈ operations, u.operationId = d ∧ Relation.TransGen
        (Lib.DependsOn (operations.map sortKey) (dependencyKeys operations)) (sortKey op) (sortKey u) := by
    intro op d hop hpath
    induction hpath with
    | single hstep =>
      obtain ⟨v, hv, -, hd⟩ := id hstep
      obtain ⟨u, hu, rfl⟩ := List.mem_map.1 (hknown v hv _ hd)
      exact ⟨u, hu, rfl, .single ((hkeys hop hu).2 hstep)⟩
    | tail _ hstep ih =>
      obtain ⟨v, hv, rfl, hreach⟩ := ih
      obtain ⟨w, hw, -, hd⟩ := id hstep
      obtain ⟨u, hu, rfl⟩ := List.mem_map.1 (hknown w hw _ hd)
      exact ⟨u, hu, rfl, hreach.tail ((hkeys hv hu).2 hstep)⟩
  have hback : ∀ {op : ChangeOperation} {key : SortKey}, op ∈ operations →
      Relation.TransGen (Lib.DependsOn (operations.map sortKey) (dependencyKeys operations)) (sortKey op) key →
      ∃ u ∈ operations, sortKey u = key ∧
        Relation.TransGen (OperationDependsOn operations) op.operationId u.operationId := by
    intro op key hop hpath
    induction hpath with
    | single hstep =>
      obtain ⟨u, hu, -, rfl⟩ := (mem_dependencyKeys h hop).1 hstep.2
      exact ⟨u, hu, rfl, .single ((hkeys hop hu).1 hstep)⟩
    | tail _ hstep ih =>
      obtain ⟨v, hv, rfl, hreach⟩ := ih
      obtain ⟨u, hu, -, rfl⟩ := (mem_dependencyKeys h hv).1 hstep.2
      exact ⟨u, hu, rfl, hreach.tail ((hkeys hv hu).1 hstep)⟩
  constructor
  · rintro hacyclic ⟨d, hcycle⟩
    have hstart : ∃ op ∈ operations, op.operationId = d := by
      obtain ⟨c, hstep, -⟩ := Relation.TransGen.head'_iff.1 hcycle
      obtain ⟨op, hop, hd, -⟩ := hstep
      exact ⟨op, hop, hd⟩
    obtain ⟨op, hop, rfl⟩ := hstart
    obtain ⟨u, hu, hsame, hreach⟩ := hid hop hcycle
    rw [h.eq hu hop hsame] at hreach
    exact hacyclic _ hreach
  · intro hnone key hcycle
    have hstart : ∃ op ∈ operations, sortKey op = key := by
      obtain ⟨c, hstep, -⟩ := Relation.TransGen.head'_iff.1 hcycle
      exact List.mem_map.1 hstep.1
    obtain ⟨op, hop, rfl⟩ := hstart
    obtain ⟨u, hu, hsame, hreach⟩ := hback hop hcycle
    rw [h.eq hu hop (operationId_of_sortKey hsame)] at hreach
    exact hnone ⟨_, hreach⟩

/-! ## What `order_operations` returns -/

theorem worklist_ready (h : UniqueIds operations) : (worklist operations).ready = [] :=
  Kahn.turns_ready (describes h)

theorem worklist_sound (h : UniqueIds operations) :
    Kahn.Sound (operations.map sortKey) (dependencyKeys operations) (worklist operations) :=
  (Kahn.turns_sound (describes h) _ (Kahn.start_sound (describes h))).1

theorem length_operationsById :
    (operationsById operations).entries.length = operations.length ↔ UniqueIds operations :=
  Dict.length_ofList_iff

theorem requireKnown_eq_ok (h : UniqueIds operations) :
    operations.forM (requireKnown operations) = .ok ⟨⟩ ↔ DependenciesKnown operations := by
  simp only [forM_eq_ok, requireKnown, require_eq_ok, isSome_operationsById h]
  rfl

theorem orderOperations_of_known (h : UniqueIds operations) (hknown : DependenciesKnown operations) :
    orderOperations operations =
      if ((worklist operations).order.filterMap (operationAt operations)).length = operations.length then
        .ok ((worklist operations).order.filterMap (operationAt operations))
      else .error (.cycle (stuckIds operations)) := by
  rw [orderOperations, require_pos (length_operationsById.2 h), ok_bind, (requireKnown_eq_ok h).2 hknown,
    ok_bind]
  dsimp only
  split
  · next hlength =>
    rw [require_pos hlength]
    rfl
  · next hlength =>
    rw [require_neg hlength]
    rfl

theorem map_ordered (h : UniqueIds operations) :
    ((worklist operations).order.filterMap (operationAt operations)).map sortKey =
      (worklist operations).order :=
  map_operationAt h fun _ hkey => (worklist_sound h).greedy.mem_nodes hkey

/-- The operations are returned in their canonical order, when they have one. -/
theorem orderOperations_eq_ok :
    orderOperations operations = .ok ordered ↔
      UniqueIds operations ∧ DependenciesKnown operations ∧ Canonical operations ordered := by
  by_cases h : UniqueIds operations
  · by_cases hknown : DependenciesKnown operations
    · rw [orderOperations_of_known h hknown, iff_true_intro h, iff_true_intro hknown, true_and, true_and]
      have hkeys := map_ordered h
      have hgreedy := (worklist_sound h).greedy
      constructor
      · intro hok
        split at hok
        · next hlength =>
          obtain rfl := Except.ok.inj hok
          have hall : (worklist operations).order.Perm (operations.map sortKey) := by
            apply hgreedy.perm
            rw [← hkeys, List.length_map, List.length_map, hlength]
          have hperm := hall.filterMap (operationAt operations)
          rw [filterMap_operationAt h fun _ hop => hop] at hperm
          apply (canonical_iff h hknown hperm).2
          rw [hkeys]
          exact hgreedy
        · cases hok
      · intro hcanonical
        have hordered := (canonical_iff h hknown hcanonical.perm).1 hcanonical
        have hlength : (ordered.map sortKey).length = (operations.map sortKey).length := by
          rw [List.length_map, List.length_map, hcanonical.perm.length_eq]
        have hfull : (worklist operations).order.length = (operations.map sortKey).length := by
          apply (Kahn.finish_length_iff (describes h)).2
          exact hordered.acyclic fun key hkey => (hordered.perm hlength.ge).mem_iff.2 hkey
        have hsame : (worklist operations).order = ordered.map sortKey :=
          hgreedy.unique hordered (hfull.trans hlength.symm)
        rw [hsame, filterMap_operationAt h fun op hop => hcanonical.perm.mem_iff.1 hop,
          if_pos hcanonical.perm.length_eq]
    · refine iff_of_false (fun hok => hknown ?_) fun hok => hknown hok.2.1
      rw [orderOperations, require_pos (length_operationsById.2 h), ok_bind, bind_eq_ok] at hok
      obtain ⟨⟨⟩, hchecks, -⟩ := hok
      exact (requireKnown_eq_ok h).1 hchecks
  · refine iff_of_false (fun hok => h ?_) fun hok => h hok.1
    rw [orderOperations, bind_eq_ok] at hok
    obtain ⟨⟨⟩, hlength, -⟩ := hok
    exact length_operationsById.1 (require_eq_ok.1 hlength)

/-- The operations have an order unless a check fails or they depend on themselves. -/
theorem exists_order :
    (∃ ordered, orderOperations operations = .ok ordered) ↔
      UniqueIds operations ∧ DependenciesKnown operations ∧ ¬DependenciesCycle operations := by
  simp only [orderOperations_eq_ok, exists_and_left]
  refine and_congr_right fun h => and_congr_right fun hknown => ?_
  rw [← acyclic_iff h hknown]
  constructor
  · rintro ⟨ordered, hcanonical⟩
    have hgreedy := (canonical_iff h hknown hcanonical.perm).1 hcanonical
    apply hgreedy.acyclic
    intro key hkey
    exact (hcanonical.perm.map sortKey).mem_iff.2 hkey
  · intro hacyclic
    have hlength : (worklist operations).order.length = (operations.map sortKey).length :=
      (Kahn.finish_length_iff (describes h)).2 hacyclic
    have hfull : ((worklist operations).order.filterMap (operationAt operations)).length =
        operations.length := by
      rw [← List.length_map (f := sortKey), map_ordered h, hlength, List.length_map]
    have hok := orderOperations_of_known h hknown
    rw [if_pos hfull] at hok
    exact ⟨_, (orderOperations_eq_ok.1 hok).2.2⟩

/-! ## Another order of the operations -/

/-- One answer, or two that name a dependency no operation has: the first one met is named. -/
inductive SameAnswer : Except OrderingError (List ChangeOperation) →
    Except OrderingError (List ChangeOperation) → Prop
  | same (answer : Except OrderingError (List ChangeOperation)) : SameAnswer answer answer
  | unknown (operationId dependencyId operationId' dependencyId' : Str) :
    SameAnswer (.error (.unknownDependency operationId dependencyId))
      (.error (.unknownDependency operationId' dependencyId'))

theorem UniqueIds.perm (h : UniqueIds operations) (hperm : operations'.Perm operations) :
    UniqueIds operations' :=
  (hperm.map _).nodup_iff.2 h

theorem DependenciesKnown.perm (hknown : DependenciesKnown operations)
    (hperm : operations'.Perm operations) : DependenciesKnown operations' :=
  fun op hop d hd => (hperm.map _).mem_iff.2 (hknown op (hperm.mem_iff.1 hop) d hd)

theorem Canonical.of_perm (hcanonical : Canonical operations ordered)
    (hperm : operations'.Perm operations) : Canonical operations' ordered := by
  have hplaceable : ∀ placed op, Placeable operations' placed op ↔ Placeable operations placed op := by
    intro placed op
    unfold Placeable
    rw [hperm.mem_iff]
  refine ⟨hcanonical.perm.trans hperm.symm, fun placed op later hsplit => ?_⟩
  simp only [hplaceable]
  exact hcanonical.least placed op later hsplit

theorem dependencyKeys_perm (h : UniqueIds operations) (hperm : operations'.Perm operations)
    (hop : op ∈ operations) :
    dependencyKeys operations' (sortKey op) = dependencyKeys operations (sortKey op) := by
  have hget : ∀ d, (operationsById operations').get d = (operationsById operations).get d := by
    intro d
    refine Option.ext fun u => ?_
    rw [get_operationsById h, get_operationsById (h.perm hperm), hperm.mem_iff]
  simp only [dependencyKeys, operationAt_sortKey h hop,
    operationAt_sortKey (h.perm hperm) (hperm.mem_iff.2 hop), hget]

/-- The operations that are stuck do not depend on the order given either. -/
theorem stuckIds_perm (h : UniqueIds operations) (hperm : operations'.Perm operations) :
    stuckIds operations' = stuckIds operations := by
  have hsound := worklist_sound h
  have hsound' := worklist_sound (h.perm hperm)
  have horder : (worklist operations').order = (worklist operations).order := by
    have hkeys : ∀ key, key ∈ operations'.map sortKey ↔ key ∈ operations.map sortKey :=
      fun key => (hperm.map sortKey).mem_iff
    have hdeps : ∀ key ∈ operations'.map sortKey, ∀ d,
        d ∈ dependencyKeys operations' key ↔ d ∈ dependencyKeys operations key := by
      intro key hkey d
      obtain ⟨op, hop, rfl⟩ := List.mem_map.1 ((hkeys key).1 hkey)
      rw [dependencyKeys_perm h hperm hop]
    apply (hsound'.greedy.congr hkeys hdeps).eq_of_ended hsound.greedy
    · intro key hnext
      refine Kahn.turns_ended (describes (h.perm hperm)) key ?_
      obtain ⟨hkey, hrest⟩ := hnext
      have hkey' := (hkeys key).2 hkey
      exact ⟨hkey', hrest.1, fun d hd => hrest.2 d ((hdeps key hkey' d).1 hd)⟩
    · exact Kahn.turns_ended (describes h)
  have hremaining : ∀ op ∈ operations, (worklist operations').remaining (sortKey op) =
      (worklist operations).remaining (sortKey op) := by
    intro op hop
    rw [hsound.remaining _ (List.mem_map_of_mem hop),
      hsound'.remaining _ (List.mem_map_of_mem (hperm.mem_iff.2 hop)), dependencyKeys_perm h hperm hop,
      horder]
  apply (sortBy_eq_iff_perm fun _ _ _ _ heq => codePoints_injective heq).2
  refine List.Perm.map _ ((hperm.filter _).trans ?_)
  exact List.Perm.of_eq (List.filter_congr fun op hop => by rw [hremaining op hop])

theorem exists_unknownDependency (h : UniqueIds operations) (hknown : ¬DependenciesKnown operations) :
    ∃ operationId dependencyId,
      orderOperations operations = .error (.unknownDependency operationId dependencyId) := by
  rw [orderOperations, require_pos (length_operationsById.2 h), ok_bind]
  cases hchecks : operations.forM (requireKnown operations) with
  | ok _ => exact absurd ((requireKnown_eq_ok h).1 hchecks) hknown
  | error e =>
    obtain ⟨_, op, _, -, -, hop⟩ := firstError_of_forM hchecks
    obtain ⟨_, d, _, -, -, hd⟩ := firstError_of_forM hop
    dsimp only [require] at hd
    split at hd
    · cases hd
    · obtain rfl := Except.error.inj hd
      exact ⟨op.operationId, d, rfl⟩

/-- The order the operations are given in decides nothing but which unknown dependency is named. -/
theorem orderOperations_perm (hperm : operations'.Perm operations) :
    SameAnswer (orderOperations operations) (orderOperations operations') := by
  by_cases h : UniqueIds operations
  · have h' := h.perm hperm
    by_cases hknown : DependenciesKnown operations
    · cases hanswer : orderOperations operations with
      | ok ordered =>
        obtain ⟨-, -, hcanonical⟩ := orderOperations_eq_ok.1 hanswer
        rw [orderOperations_eq_ok.2 ⟨h', hknown.perm hperm, hcanonical.of_perm hperm⟩]
        exact .same _
      | error e =>
        have hstuck : ∀ l, UniqueIds l → DependenciesKnown l → (∀ ordered, orderOperations l ≠ .ok ordered) →
            orderOperations l = .error (.cycle (stuckIds l)) := by
          intro l hl hl' hnone
          rw [orderOperations_of_known hl hl'] at hnone ⊢
          split at hnone
          · exact absurd rfl (hnone _)
          · next hlength => rw [if_neg hlength]
        have herror := hstuck operations h hknown fun _ hok => by rw [hanswer] at hok; cases hok
        have herror' := hstuck operations' h' (hknown.perm hperm) fun ordered hok => by
          obtain ⟨-, -, hcanonical⟩ := orderOperations_eq_ok.1 hok
          rw [orderOperations_eq_ok.2 ⟨h, hknown, hcanonical.of_perm hperm.symm⟩] at hanswer
          cases hanswer
        rw [← hanswer, herror, herror', stuckIds_perm h hperm]
        exact .same _
    · obtain ⟨_, _, herror⟩ := exists_unknownDependency h hknown
      obtain ⟨_, _, herror'⟩ := exists_unknownDependency h' fun hk => hknown (hk.perm hperm.symm)
      rw [herror, herror']
      exact .unknown ..
  · have hduplicate : ∀ l, ¬UniqueIds l → orderOperations l = .error .duplicateIds := by
      intro l hl
      rw [orderOperations, require_neg (mt length_operationsById.1 hl), error_bind]
    rw [hduplicate _ h, hduplicate _ fun h' => h (h'.perm hperm.symm)]
    exact .same _

/-- `order_operations` ends with no operation ready; what it returns is the canonical order, in which
every operation comes after those it depends on, and is the least that can be placed there. It refuses
exactly operations that share an identifier, depend on an absent one or depend on themselves, and the
order they are given in does not matter. -/
theorem order_operations_canonical (operations : List ChangeOperation) :
    (UniqueIds operations → (worklist operations).ready = []) ∧
    (∀ ordered, orderOperations operations = .ok ordered → Canonical operations ordered) ∧
    ((∃ e, orderOperations operations = .error e) ↔
      ¬UniqueIds operations ∨ ¬DependenciesKnown operations ∨ DependenciesCycle operations) ∧
    ∀ operations' : List ChangeOperation, operations'.Perm operations →
      SameAnswer (orderOperations operations) (orderOperations operations') := by
  refine ⟨worklist_ready, fun _ hok => (orderOperations_eq_ok.1 hok).2.2, ?_,
    fun _ hperm => orderOperations_perm hperm⟩
  have hrefused : (∃ e, orderOperations operations = .error e) ↔
      ¬∃ ordered, orderOperations operations = .ok ordered := by
    cases orderOperations operations with
    | ok ordered => simp
    | error e => simp
  rw [hrefused, exists_order]
  tauto

end OmniviaCore.SemanticRegistry
