import Mathlib

/-!
# Append-only relations

The rows of a relation stand in the order of their insertion. A column read by SQL's `MAX` is `maxOf`, which
is `NULL` on no rows. A relation whose numbers are assigned as `COALESCE(MAX(number), base) + 1` is
`Numbered`: the largest number is the last row's, the next one is known from the length, and the row with a
number stands at its place. The same holds of a column that never decreases.

-/

namespace OmniviaCore.Lib

section

universe u

variable {α : Type u}

/-- `SELECT MAX(column)`. -/
def maxOf (column : α → Nat) (rows : List α) : Option Nat := (rows.map column).max?

/-- `COALESCE(MAX(column), first - 1) + 1`. -/
def nextNumber (first : Nat) (column : α → Nat) (rows : List α) : Nat :=
  ((maxOf column rows).map (· + 1)).getD first

/-- The row whose number is the largest. -/
def latest (column : α → Nat) (rows : List α) : Option α :=
  rows.find? fun row => some (column row) = maxOf column rows

/-- `UPDATE … WHERE column = number`. -/
def updateAt (column : α → Nat) (number : Nat) (change : α → α) (rows : List α) : List α :=
  rows.map fun row => if column row = number then change row else row

/-- The rows are numbered from `first` on, in order. -/
def Numbered (first : Nat) (column : α → Nat) (rows : List α) : Prop :=
  ∀ i row, rows[i]? = some row → column row = first + i

variable {column : α → Nat} {rows : List α} {row : α} {first : Nat}

@[simp] theorem maxOf_nil : maxOf column [] = none := rfl

theorem le_maxOf {m : Nat} (h : maxOf column rows = some m) {r : α} (hr : r ∈ rows) :
    column r ≤ m :=
  (List.max?_eq_some_iff.1 h).2 _ (List.mem_map_of_mem hr)

theorem le_maxOf_getD {r : α} (hr : r ∈ rows) : column r ≤ (maxOf column rows).getD 0 := by
  cases h : maxOf column rows with
  | some m => exact le_maxOf h hr
  | none =>
    rw [maxOf, List.max?_eq_none_iff, List.map_eq_nil_iff] at h
    exact absurd (h ▸ hr) (List.not_mem_nil)

theorem exists_maxOf {m : Nat} (h : maxOf column rows = some m) : ∃ r ∈ rows, column r = m :=
  List.mem_map.1 (List.max?_eq_some_iff.1 h).1

theorem maxOf_eq_some {m : Nat} (hm : ∃ r ∈ rows, column r = m) (hle : ∀ r ∈ rows, column r ≤ m) :
    maxOf column rows = some m := by
  refine List.max?_eq_some_iff.2 ⟨?_, ?_⟩
  · obtain ⟨r, hr, rfl⟩ := hm
    exact List.mem_map_of_mem hr
  · intro b hb
    obtain ⟨r, hr, rfl⟩ := List.mem_map.1 hb
    exact hle r hr

theorem maxOf_eq_none : maxOf column rows = none ↔ rows = [] := by
  simp [maxOf]

/-- A column that never decreases has its maximum in the last row. -/
theorem maxOf_of_pairwise (h : rows.Pairwise fun r r' => column r ≤ column r') :
    maxOf column rows = rows.getLast?.map column := by
  rcases List.eq_nil_or_concat' rows with rfl | ⟨init, last, rfl⟩
  · rfl
  · rw [List.getLast?_concat]
    refine maxOf_eq_some ⟨last, by simp, rfl⟩ ?_
    intro r hr
    rcases List.mem_append.1 hr with hr | hr
    · exact (List.pairwise_append.1 h).2.2 r hr last (by simp)
    · rw [List.mem_singleton.1 hr]

theorem maxOf_concat : maxOf column (rows ++ [row]) =
    some (max ((maxOf column rows).getD 0) (column row)) := by
  cases h : maxOf column rows with
  | none =>
    rw [maxOf_eq_none.1 h]
    simp [maxOf]
  | some m =>
    obtain ⟨r, hr, hrm⟩ := exists_maxOf h
    refine maxOf_eq_some ?_ ?_
    · rcases le_total m (column row) with hle | hle
      · exact ⟨row, by simp, by simp [hle]⟩
      · exact ⟨r, by simp [hr], by simp [hle, hrm]⟩
    · intro r' hr'
      rcases List.mem_append.1 hr' with hr' | hr'
      · exact le_trans (le_maxOf h hr') (le_max_left _ _)
      · rw [List.mem_singleton.1 hr']
        exact le_max_right _ _

theorem numbered_nil : Numbered first column ([] : List α) := by
  intro i row h
  cases h

theorem numbered_concat :
    Numbered first column (rows ++ [row]) ↔
      Numbered first column rows ∧ column row = first + rows.length := by
  constructor
  · intro h
    refine ⟨?_, h rows.length row (by simp)⟩
    intro i r hr
    have hlt := (List.getElem?_eq_some_iff.1 hr).1
    exact h i r (by rw [List.getElem?_append_left hlt]; exact hr)
  · rintro ⟨h, hrow⟩ i r hr
    rw [List.getElem?_append] at hr
    split at hr
    · exact h i r hr
    · rw [List.getElem?_singleton] at hr
      split at hr
      · cases hr
        omega
      · cases hr

theorem numbered_singleton : Numbered first column [row] ↔ column row = first := by
  rw [← List.nil_append [row], numbered_concat]
  simp [numbered_nil]

theorem Numbered.tail (h : Numbered first column (row :: rows)) :
    column row = first ∧ Numbered (first + 1) column rows := by
  refine ⟨h 0 row rfl, fun i r hr => ?_⟩
  rw [h (i + 1) r hr]
  omega

theorem Numbered.pairwise (h : Numbered first column rows) :
    rows.Pairwise fun r r' => column r < column r' := by
  induction rows using List.reverseRecOn with
  | nil => exact .nil
  | append_singleton rows row ih =>
    obtain ⟨hrows, hrow⟩ := numbered_concat.1 h
    refine List.pairwise_append.2 ⟨ih hrows, List.pairwise_singleton _ _, ?_⟩
    intro r hr r' hr'
    obtain ⟨i, hi⟩ := List.mem_iff_getElem?.1 hr
    have hlt := (List.getElem?_eq_some_iff.1 hi).1
    rw [List.mem_singleton.1 hr', hrow, hrows i r hi]
    omega

theorem Numbered.maxOf (h : Numbered first column rows) :
    maxOf column rows = rows.getLast?.map column :=
  maxOf_of_pairwise (h.pairwise.imp Nat.le_of_lt)

theorem Numbered.nextNumber (h : Numbered first column rows) :
    nextNumber first column rows = first + rows.length := by
  unfold Lib.nextNumber
  rw [h.maxOf]
  rcases List.eq_nil_or_concat' rows with rfl | ⟨init, last, rfl⟩
  · rfl
  · rw [List.getLast?_concat]
    obtain ⟨-, hlast⟩ := numbered_concat.1 h
    simp [hlast]
    omega

theorem Numbered.find? (h : Numbered first column rows) {i : Nat} (hi : rows[i]? = some row) :
    rows.find? (fun r => column r = first + i) = some row := by
  have hrow := h i row hi
  rw [List.find?_eq_some_iff_getElem]
  obtain ⟨hlt, hget⟩ := List.getElem?_eq_some_iff.1 hi
  refine ⟨by simpa using hrow, i, hlt, hget, ?_⟩
  intro j hj
  have hjrow := h j rows[j] (List.getElem?_eq_getElem (by omega))
  simp only [Bool.not_eq_eq_eq_not, Bool.not_true, decide_eq_false_iff_not]
  omega

/-- The row before the next one to come is the last. -/
theorem Numbered.find?_last (h : Numbered first column rows) :
    rows.find? (fun r => column r = first + rows.length - 1) = rows.getLast? := by
  rcases List.eq_nil_or_concat' rows with rfl | ⟨init, last, rfl⟩
  · rfl
  · have hfind := h.find? (show (init ++ [last])[init.length]? = some last by simp)
    rw [List.getLast?_concat, ← hfind]
    congr 1
    funext r
    simp only [List.length_append, List.length_singleton, decide_eq_decide]
    omega

/-- An update of the last row changes that row only. -/
theorem Numbered.updateAt_concat {change : α → α} (h : Numbered first column (rows ++ [row])) :
    updateAt column (column row) change (rows ++ [row]) = rows ++ [change row] := by
  have hlt : ∀ r ∈ rows, column r ≠ column row := by
    intro r hr
    have := (List.pairwise_append.1 h.pairwise).2.2 r hr row (by simp)
    omega
  simp only [updateAt, List.map_append, List.map_cons, List.map_nil, ↓reduceIte]
  congr 1
  refine (List.map_congr_left fun r hr => ?_).trans (List.map_id _)
  simp [hlt r hr]

theorem Numbered.latest (h : Numbered first column rows) :
    latest column rows = rows.getLast? := by
  unfold Lib.latest
  rw [h.maxOf]
  rcases List.eq_nil_or_concat' rows with rfl | ⟨init, last, rfl⟩
  · rfl
  · obtain ⟨-, hlast⟩ := numbered_concat.1 h
    have hfind := h.find? (show (init ++ [last])[init.length]? = some last by simp)
    simpa [List.getLast?_concat, hlast] using hfind

/-! ## Unique columns -/

section Unique

universe v

variable {κ : Type v} {key : α → κ}

/-- `UNIQUE (column)`. -/
def Unique (key : α → κ) (rows : List α) : Prop := (rows.map key).Nodup

theorem unique_nil : Unique key ([] : List α) := List.nodup_nil

/-- A row whose key no other row has may be appended. -/
theorem Unique.concat (h : Unique key rows) (hrow : ∀ r ∈ rows, key r ≠ key row) :
    Unique key (rows ++ [row]) := by
  unfold Unique
  rw [List.map_append, List.map_singleton, List.nodup_append]
  refine ⟨h, List.nodup_singleton _, ?_⟩
  intro k hk k' hk' heq
  obtain ⟨r, hr, rfl⟩ := List.mem_map.1 hk
  exact hrow r hr (heq.trans (List.mem_singleton.1 hk'))

theorem Unique.find? [DecidableEq κ] (h : Unique key rows) (hrow : row ∈ rows) {k : κ} (hk : key row = k) :
    rows.find? (fun r => key r = k) = some row := by
  cases hfind : rows.find? (fun r => key r = k) with
  | none =>
    have hnone := List.find?_eq_none.1 hfind row hrow
    exact absurd (decide_eq_true hk) hnone
  | some r =>
    have hr : key r = k := by simpa using List.find?_some hfind
    rw [List.inj_on_of_nodup_map h (List.mem_of_find?_eq_some hfind) hrow (hr.trans hk.symm)]

variable [DecidableEq κ]

/-- `UPDATE … WHERE column = key`, to a row. -/
def updateKey (key : α → κ) (k : κ) (row' : α) (rows : List α) : List α :=
  rows.map fun row => if key row = k then row' else row

theorem Unique.updateKey (h : Unique key rows) (hrow : row ∈ rows) (row' : α) :
    ∃ before after, rows = before ++ row :: after ∧
      updateKey key (key row) row' rows = before ++ row' :: after := by
  obtain ⟨before, after, rfl⟩ := List.append_of_mem hrow
  refine ⟨before, after, rfl, ?_⟩
  unfold Unique at h
  rw [List.map_append, List.map_cons, List.nodup_append, List.nodup_cons] at h
  obtain ⟨-, ⟨hafter, -⟩, hbefore⟩ := h
  have hleft : ∀ r ∈ before, key r ≠ key row :=
    fun r hr => hbefore _ (List.mem_map_of_mem hr) _ (List.mem_cons_self ..)
  have hright : ∀ r ∈ after, key r ≠ key row :=
    fun r hr heq => hafter (heq ▸ List.mem_map_of_mem hr)
  have hsame : ∀ l : List α, (∀ r ∈ l, key r ≠ key row) →
      l.map (fun r => if key r = key row then row' else r) = l := by
    intro l hl
    refine (List.map_congr_left fun r hr => if_neg (hl r hr)).trans (List.map_id _)
  unfold Lib.updateKey
  rw [List.map_append, List.map_cons, if_pos rfl, hsame _ hleft, hsame _ hright]

theorem map_updateKey {k : κ} {row' : α} (hrow : key row' = k) :
    (Lib.updateKey key k row' rows).map key = rows.map key := by
  unfold Lib.updateKey
  rw [List.map_map]
  refine List.map_congr_left fun r _ => ?_
  simp only [Function.comp_apply]
  split
  next h => rw [hrow, h]
  next => rfl

end Unique

end

/-! ## Replacing one element of a list -/

section

variable {α β : Type*} {l : List α} {i : Nat} {a b : α}

theorem set_self (h : l[i]? = some a) : l.set i a = l := by
  obtain ⟨hi, rfl⟩ := List.getElem?_eq_some_iff.1 h
  exact List.set_getElem_self hi

/-- A function that does not tell the two elements apart. -/
theorem map_set_eq {f : α → β} (h : l[i]? = some a) (hf : f b = f a) : (l.set i b).map f = l.map f := by
  rw [List.map_set]
  exact set_self (by rw [List.getElem?_map, h, Option.map_some, hf])

theorem mem_set_iff (h : l[i]? = some a) {c : α} :
    c ∈ l.set i b ↔ c = b ∨ ∃ j, j ≠ i ∧ l[j]? = some c := by
  have hi : i < l.length := (List.getElem?_eq_some_iff.1 h).1
  rw [List.mem_iff_getElem?]
  constructor
  · rintro ⟨j, hj⟩
    rw [List.getElem?_set] at hj
    by_cases hij : i = j
    · subst hij
      rw [if_pos rfl, if_pos hi] at hj
      exact .inl (Option.some.inj hj).symm
    · rw [if_neg hij] at hj
      exact .inr ⟨j, Ne.symm hij, hj⟩
  · rintro (rfl | ⟨j, hij, hj⟩)
    · exact ⟨i, by rw [List.getElem?_set, if_pos rfl, if_pos hi]⟩
    · exact ⟨j, by rw [List.getElem?_set, if_neg (Ne.symm hij), hj]⟩

theorem mem_of_mem_set (h : l[i]? = some a) {c : α} (hc : c ∈ l.set i b) : c = b ∨ c ∈ l := by
  rcases (mem_set_iff h).1 hc with rfl | ⟨j, -, hj⟩
  · exact .inl rfl
  · exact .inr (List.mem_of_getElem? hj)

/-- A partial map that is undefined at the old element and defined at the new one. -/
theorem filterMap_set_perm {f : α → Option β} {c : β} (h : l[i]? = some a) (ha : f a = none)
    (hb : f b = some c) : ((l.set i b).filterMap f).Perm (l.filterMap f ++ [c]) := by
  induction l generalizing i with
  | nil => cases h
  | cons d l ih =>
    cases i with
    | zero =>
      obtain rfl : d = a := by simpa using h
      rw [List.set_cons_zero, List.filterMap_cons_some hb, List.filterMap_cons_none ha]
      exact (List.perm_append_singleton c _).symm
    | succ i =>
      have hrest := ih (i := i) (by simpa using h)
      rw [List.set_cons_succ]
      cases hd : f d with
      | none => simpa [List.filterMap_cons_none hd] using hrest
      | some e => simpa [List.filterMap_cons_some hd] using hrest.cons e

/-- An element that did not count is replaced by one that does. -/
theorem countP_set_gain {p : α → Bool} (h : l[i]? = some a) (ha : p a = false) (hb : p b = true) :
    (l.set i b).countP p = l.countP p + 1 := by
  obtain ⟨hi, rfl⟩ := List.getElem?_eq_some_iff.1 h
  rw [List.countP_set hi, ha, hb]
  simp

/-- An element that counted is replaced by one that does not. -/
theorem countP_set_lose {p : α → Bool} (h : l[i]? = some a) (ha : p a = true) (hb : p b = false) :
    (l.set i b).countP p + 1 = l.countP p := by
  obtain ⟨hi, rfl⟩ := List.getElem?_eq_some_iff.1 h
  have hpos : 0 < l.countP p := List.countP_pos_iff.2 ⟨_, List.getElem_mem hi, ha⟩
  rw [List.countP_set hi, ha, hb]
  simp
  omega

end

end OmniviaCore.Lib
