import Mathlib

/-!
# Sorting by a key

`sortBy` is a stable sort by a key. Where the key tells the elements apart, sorting forgets the order of the
list and nothing else: `sortBy_eq_iff_perm`.

A page of a set of keys, read in order strictly past a cursor: `SELECT DISTINCT … WHERE key > after ORDER BY
key LIMIT limit`, where a negative limit is none. A page that is not full holds every key past its cursor
(`mem_page_of_short`), and any page holds every key between its cursor and its last key
(`mem_page_of_le_last`).
-/

namespace OmniviaCore.Lib

section

/-! The order of texts, named once for every sort of a set of texts. -/

instance transText : IsTrans String (· ≤ ·) := inferInstance

instance antisymmText : Std.Antisymm fun a b : String => a ≤ b := inferInstance

variable {α β κ : Type} [LinearOrder κ]

/-- The elements of a list in the order of their keys. -/
def sortBy (key : α → κ) (l : List α) : List α := l.insertionSort fun a b => key a ≤ key b

variable {key : α → κ}

theorem perm_sortBy (l : List α) : (sortBy key l).Perm l := List.perm_insertionSort _ _

theorem mem_sortBy {l : List α} {a : α} : a ∈ sortBy key l ↔ a ∈ l := (perm_sortBy l).mem_iff

theorem pairwise_sortBy (l : List α) : (sortBy key l).Pairwise fun a b => key a ≤ key b := by
  have htotal : Std.Total fun a b : α => key a ≤ key b := ⟨fun a b => le_total _ _⟩
  have htrans : IsTrans α fun a b : α => key a ≤ key b := ⟨fun a b c => le_trans⟩
  exact List.pairwise_insertionSort _ l

theorem sortBy_of_pairwise {l : List α} (h : l.Pairwise fun a b => key a ≤ key b) : sortBy key l = l :=
  h.insertionSort_eq

theorem map_sortBy {key : β → κ} (f : α → β) (l : List α) :
    (sortBy (fun a => key (f a)) l).map f = sortBy key (l.map f) :=
  List.map_insertionSort _ _ f l fun _ _ _ _ => Iff.rfl

/-- Sorting by a key that tells the elements apart forgets their order alone. -/
theorem sortBy_eq_iff_perm {l m : List α} (hkey : ∀ a ∈ l, ∀ b ∈ l, key a = key b → a = b) :
    sortBy key l = sortBy key m ↔ l.Perm m := by
  constructor
  · intro h
    exact (perm_sortBy l).symm.trans (h ▸ perm_sortBy m)
  · intro h
    have hperm : (sortBy key l).Perm (sortBy key m) :=
      (perm_sortBy l).trans (h.trans (perm_sortBy m).symm)
    refine hperm.eq_of_pairwise ?_ (pairwise_sortBy l) (pairwise_sortBy m)
    intro a b ha hb hab hba
    exact hkey a (mem_sortBy.1 ha) b (h.mem_iff.2 (mem_sortBy.1 hb)) (le_antisymm hab hba)

/-- Two readings of two lists are one list when they agree element by element. -/
theorem map_eq_map_iff_forall₂ {γ : Type} {f : α → γ} {g : β → γ} {l : List α} {m : List β} :
    l.map f = m.map g ↔ List.Forall₂ (fun a b => f a = g b) l m := by
  rw [← List.forall₂_eq_eq_eq, List.forall₂_map_left_iff, List.forall₂_map_right_iff]

/-- Lists that correspond, element by element, do so when both are sorted by a key they share. -/
theorem forall₂_sortBy {R : α → β → Prop} {key' : β → κ} (hkey : ∀ a b, R a b → key a = key' b) {l : List α}
    {m : List β} (h : List.Forall₂ R l m) (hinj : ∀ a ∈ m, ∀ b ∈ m, key' a = key' b → a = b) :
    List.Forall₂ R (sortBy key l) (sortBy key' m) := by
  have hl : (sortBy key l).Perm l := perm_sortBy l
  obtain ⟨sorted, hsorted, hperm⟩ := List.perm_comp_forall₂ hl h
  have hkeys : (sortBy key l).map key = sorted.map key' := map_eq_map_iff_forall₂.2 (hsorted.imp hkey)
  have hpairwise : sorted.Pairwise fun a b => key' a ≤ key' b := by
    have hle : (sortBy key l).Pairwise fun a b => key a ≤ key b := pairwise_sortBy l
    rw [← List.pairwise_map (f := key) (R := (· ≤ ·)), hkeys] at hle
    exact List.pairwise_map.1 hle
  have heq : sortBy key' m = sorted := by
    rw [← sortBy_of_pairwise hpairwise]
    exact (sortBy_eq_iff_perm hinj).2 hperm.symm
  rw [heq]
  exact hsorted

end

/-! ## Keyset pages -/

section

variable {κ : Type} [LinearOrder κ]

/-- `LIMIT limit`. -/
def limitRows {α : Type} (limit : Int) (rows : List α) : List α :=
  if limit < 0 then rows else rows.take limit.toNat

/-- Whether a key is past a cursor; a page without one starts at the first key. -/
def PastCursor (after : Option κ) (key : κ) : Prop := ∀ last, after = some last → last < key

instance (after : Option κ) (key : κ) : Decidable (PastCursor after key) :=
  match after with
  | none => isTrue (by intro last h; cases h)
  | some last => decidable_of_iff (last < key)
      ⟨fun h _ hlast => Option.some.inj hlast ▸ h, fun h => h last rfl⟩

/-- The keys past a cursor, each once, in order. -/
def pastCursor (keys : List κ) (after : Option κ) : List κ :=
  sortBy id (keys.filter fun key => PastCursor after key).dedup

def page (keys : List κ) (limit : Int) (after : Option κ) : List κ :=
  limitRows limit (pastCursor keys after)

variable {keys : List κ} {limit : Int} {after : Option κ} {key last : κ}

theorem pastCursor_none : PastCursor none key := by
  intro last h
  cases h

theorem pastCursor_some : PastCursor (some last) key ↔ last < key :=
  ⟨fun h => h last rfl, fun h _ hlast => Option.some.inj hlast ▸ h⟩

theorem limitRows_isPrefix_rows {α : Type} (rows : List α) : limitRows limit rows <+: rows := by
  unfold limitRows
  split
  · exact List.prefix_rfl
  · exact List.take_prefix _ _

theorem limitRows_of_short {α : Type} {rows : List α}
    (h : ((limitRows limit rows).length : Int) < limit) : limitRows limit rows = rows := by
  unfold limitRows at h ⊢
  split at h
  next hneg => omega
  next hpos =>
    rw [if_neg hpos, List.take_of_length_le]
    rw [List.length_take] at h
    omega

theorem mem_pastCursor : key ∈ pastCursor keys after ↔ key ∈ keys ∧ PastCursor after key := by
  unfold pastCursor
  rw [mem_sortBy, List.mem_dedup, List.mem_filter, decide_eq_true_eq]

theorem sorted_pastCursor : (pastCursor keys after).Pairwise (· < ·) := by
  have hle : (pastCursor keys after).Pairwise (· ≤ ·) := pairwise_sortBy _
  have hnodup : (pastCursor keys after).Nodup := (perm_sortBy _).nodup_iff.2 (List.nodup_dedup _)
  exact hle.imp₂ (fun _ _ hle hne => lt_of_le_of_ne hle hne) hnodup

theorem page_isPrefix_pastCursor : page keys limit after <+: pastCursor keys after := limitRows_isPrefix_rows _

theorem sorted_page : (page keys limit after).Pairwise (· < ·) :=
  sorted_pastCursor.sublist page_isPrefix_pastCursor.sublist

theorem nodup_page : (page keys limit after).Nodup := sorted_page.imp fun h => h.ne

theorem mem_of_mem_page (h : key ∈ page keys limit after) : key ∈ keys ∧ PastCursor after key :=
  mem_pastCursor.1 (page_isPrefix_pastCursor.subset h)

theorem mem_page_of_short (hshort : ((page keys limit after).length : Int) < limit)
    (hkey : key ∈ keys) (hpast : PastCursor after key) : key ∈ page keys limit after := by
  rw [page, limitRows_of_short hshort]
  exact mem_pastCursor.2 ⟨hkey, hpast⟩

theorem le_getLast_of_mem_page (hlast : (page keys limit after).getLast? = some last)
    (h : key ∈ page keys limit after) : key ≤ last := by
  obtain ⟨init, hinit⟩ := List.getLast?_eq_some_iff.1 hlast
  have hsorted : (init ++ [last]).Pairwise (· < ·) := hinit ▸ sorted_page
  rw [hinit] at h
  rcases List.mem_append.1 h with h | h
  · exact ((List.pairwise_append.1 hsorted).2.2 key h last (by simp)).le
  · exact (List.mem_singleton.1 h).le

theorem mem_page_of_le_last (hlast : (page keys limit after).getLast? = some last)
    (hkey : key ∈ keys) (hpast : PastCursor after key) (hle : key ≤ last) :
    key ∈ page keys limit after := by
  have hmem : key ∈ pastCursor keys after := mem_pastCursor.2 ⟨hkey, hpast⟩
  obtain ⟨rest, hrest⟩ := @page_isPrefix_pastCursor _ _ keys limit after
  rw [← hrest] at hmem
  rcases List.mem_append.1 hmem with h | h
  · exact h
  · have hsorted : (page keys limit after ++ rest).Pairwise (· < ·) := hrest ▸ sorted_pastCursor
    have hlt := (List.pairwise_append.1 hsorted).2.2 last (List.mem_of_getLast? hlast) key h
    exact absurd hle hlt.not_ge

end

end OmniviaCore.Lib
