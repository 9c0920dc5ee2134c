import OmniviaCore.Lib.Rows

/-!
# Joins of relations

The nested loop of `JOIN … ON` and of `LEFT JOIN … ON`. A condition that fixes a unique column of the
right relation by the left row adds to a row at most one match, so that what is unique on the left is
unique in the join (`Unique.innerJoin`, `Unique.leftJoin`).
-/

namespace OmniviaCore.Lib

universe u v w x

variable {α : Type u} {β : Type v} {κ : Type w} {μ : Type x}

/-- `left JOIN right ON …`. -/
def innerJoin (on : α → β → Bool) (left : List α) (right : List β) : List (α × β) :=
  left.flatMap fun a => (right.filter (on a)).map fun b => (a, b)

/-- `left LEFT JOIN right ON …`. -/
def leftJoin (on : α → β → Bool) (left : List α) (right : List β) : List (α × Option β) :=
  left.flatMap fun a =>
    match right.filter (on a) with
    | [] => [(a, none)]
    | matched => matched.map fun b => (a, some b)

variable {on : α → β → Bool} {left : List α} {right : List β} {key : α → κ} {column : β → μ}

theorem mem_innerJoin {pair : α × β} :
    pair ∈ innerJoin on left right ↔ pair.1 ∈ left ∧ pair.2 ∈ right ∧ on pair.1 pair.2 = true := by
  simp only [innerJoin, List.mem_flatMap, List.mem_map, List.mem_filter]
  constructor
  · rintro ⟨a, ha, b, hb, rfl⟩
    exact ⟨ha, hb⟩
  · rintro ⟨ha, hb⟩
    exact ⟨pair.1, ha, pair.2, hb, rfl⟩

theorem Unique.filter {rows : List α} (h : Unique key rows) (p : α → Bool) :
    Unique key (rows.filter p) :=
  (List.filter_sublist.map key).nodup h

theorem Unique.perm {rows rows' : List α} (h : Unique key rows) (hperm : rows.Perm rows') :
    Unique key rows' :=
  (hperm.map key).nodup_iff.1 h

/-- A column that determines a unique one is unique. -/
theorem Unique.of_determines {rows : List α} {other : α → μ} (h : Unique key rows)
    (hother : ∀ a ∈ rows, ∀ b ∈ rows, other a = other b → key a = key b) : Unique other rows := by
  refine List.pairwise_map.2 ((List.pairwise_map.1 h).imp_of_mem ?_)
  intro a b ha hb hne heq
  exact hne (hother a ha b hb heq)

/-- A unique column that is fixed selects at most one row. -/
theorem Unique.filter_eq {rows : List β} (h : Unique column rows) {p : β → Bool} {k : μ}
    (hp : ∀ b ∈ rows, p b = true → column b = k) :
    rows.filter p = [] ∨ ∃ b ∈ rows, rows.filter p = [b] := by
  have hfilter : ∀ b ∈ rows.filter p, column b = k := fun b hb =>
    hp b (List.mem_of_mem_filter hb) (List.mem_filter.1 hb).2
  match hrows : rows.filter p with
  | [] => exact .inl rfl
  | [b] => exact .inr ⟨b, List.mem_of_mem_filter (p := p) (by rw [hrows]; simp), rfl⟩
  | b :: c :: matched =>
    have hunique := h.filter p
    rw [hrows] at hunique hfilter
    have hne : column b ≠ column c :=
      (List.pairwise_cons.1 (List.pairwise_map.1 hunique)).1 c (by simp)
    exact absurd ((hfilter b (by simp)).trans (hfilter c (by simp)).symm) hne

theorem unique_flatMap {γ : Type*} {f : α → List γ} {column : γ → κ} (h : Unique key left)
    (hf : ∀ a ∈ left, f a = [] ∨ ∃ c, f a = [c] ∧ column c = key a) :
    Unique column (left.flatMap f) := by
  have hsub : ((left.flatMap f).map column).Sublist (left.map key) := by
    clear h
    induction left with
    | nil => exact List.Sublist.refl _
    | cons a left ih =>
      rw [List.flatMap_cons, List.map_append, List.map_cons]
      have ih := ih fun b hb => hf b (List.mem_cons_of_mem _ hb)
      obtain hnil | ⟨c, hc, hkey⟩ := hf a List.mem_cons_self
      · rw [hnil]
        exact ih.cons _
      · rw [hc, ← hkey]
        exact ih.cons_cons _
  exact hsub.nodup h

/-- What is made of some of the rows is told apart by what tells the rows apart. -/
theorem Unique.filterMap {γ : Type*} {f : α → Option γ} {column : γ → κ} (h : Unique key left)
    (hf : ∀ a ∈ left, ∀ c, f a = some c → column c = key a) : Unique column (left.filterMap f) := by
  rw [List.filterMap_eq_flatMap_toList]
  refine unique_flatMap h fun a ha => ?_
  cases hc : f a with
  | none => exact .inl rfl
  | some c => exact .inr ⟨c, rfl, hf a ha c hc⟩

/-- A join on a unique column of the right relation repeats no row of the left one. -/
theorem Unique.innerJoin (hleft : Unique key left) (hright : Unique column right)
    (on : α → β → Bool) (value : α → μ)
    (hon : ∀ a b, on a b = true → column b = value a) :
    Unique (fun pair => key pair.1) (innerJoin on left right) := by
  refine unique_flatMap hleft fun a _ => ?_
  obtain hnil | ⟨b, -, hb⟩ := hright.filter_eq (p := on a) fun b _ => hon a b
  · rw [hnil]
    exact .inl rfl
  · rw [hb]
    exact .inr ⟨(a, b), rfl, rfl⟩

theorem Unique.leftJoin (hleft : Unique key left) (hright : Unique column right)
    (on : α → β → Bool) (value : α → μ)
    (hon : ∀ a b, on a b = true → column b = value a) :
    Unique (fun pair => key pair.1) (leftJoin on left right) := by
  refine unique_flatMap hleft fun a _ => .inr ?_
  obtain hnil | ⟨b, -, hb⟩ := hright.filter_eq (p := on a) fun b _ => hon a b
  · exact ⟨(a, none), by rw [hnil], rfl⟩
  · exact ⟨(a, some b), by rw [hb]; rfl, rfl⟩

end OmniviaCore.Lib
