import Mathlib

/-!
# Dictionaries in the order of insertion

A `Dict` keeps its keys apart by construction. Setting a key that is there replaces its value where it
stands, setting another one appends, and deleting removes the entry; `values` lists what is kept in
the order the keys came.
-/

namespace OmniviaCore.Lib

universe u v w

variable {κ : Type u} {α : Type v}

/-- A dictionary: its entries, no two under one key. -/
structure Dict (κ : Type u) (α : Type v) where
  entries : List (κ × α)
  nodup : (entries.map Prod.fst).Nodup

namespace Dict

variable [DecidableEq κ]

/-- The entries after a value is set under a key. -/
def setEntries (key : κ) (value : α) : List (κ × α) → List (κ × α)
  | [] => [(key, value)]
  | entry :: entries =>
    if entry.1 = key then (key, value) :: entries else entry :: setEntries key value entries

theorem mem_keys_setEntries {key : κ} {value : α} {entries : List (κ × α)} {k : κ} :
    k ∈ (setEntries key value entries).map Prod.fst ↔ k = key ∨ k ∈ entries.map Prod.fst := by
  induction entries with
  | nil => simp [setEntries]
  | cons entry entries ih =>
    unfold setEntries
    split
    · next h => simp [h]
    · simp only [List.map_cons, List.mem_cons, ih]
      tauto

theorem nodup_setEntries {key : κ} {value : α} {entries : List (κ × α)}
    (h : (entries.map Prod.fst).Nodup) : ((setEntries key value entries).map Prod.fst).Nodup := by
  induction entries with
  | nil => simp [setEntries]
  | cons entry entries ih =>
    rw [List.map_cons, List.nodup_cons] at h
    unfold setEntries
    split
    · next hkey =>
      rw [List.map_cons, List.nodup_cons, ← hkey]
      exact h
    · next hkey =>
      rw [List.map_cons, List.nodup_cons, mem_keys_setEntries, not_or]
      exact ⟨⟨hkey, h.1⟩, ih h.2⟩

def get (d : Dict κ α) (key : κ) : Option α := d.entries.lookup key

/-- `d[key] = value`. -/
def set (d : Dict κ α) (key : κ) (value : α) : Dict κ α :=
  ⟨setEntries key value d.entries, nodup_setEntries d.nodup⟩

/-- `del d[key]`. -/
def del (d : Dict κ α) (key : κ) : Dict κ α :=
  ⟨d.entries.filter fun entry => entry.1 ≠ key, (List.filter_sublist.map _).nodup d.nodup⟩

/-- `d.values()`. -/
def values (d : Dict κ α) : List α := d.entries.map Prod.snd

def filterValues (d : Dict κ α) (wanted : α → Bool) : Dict κ α :=
  ⟨d.entries.filter fun entry => wanted entry.2, (List.filter_sublist.map _).nodup d.nodup⟩

def mapValues {β : Type w} (d : Dict κ α) (f : α → β) : Dict κ β :=
  ⟨d.entries.map fun entry => (entry.1, f entry.2), by
    rw [List.map_map]
    exact d.nodup⟩

/-- The dictionary of values under a key of their own: the last value under a key is kept. -/
def ofList (key : α → κ) (values : List α) : Dict κ α :=
  values.foldl (fun d value => d.set (key value) value) ⟨[], List.nodup_nil⟩

variable {d : Dict κ α} {key k : κ} {value a : α}

theorem get_eq_some : d.get key = some a ↔ (key, a) ∈ d.entries := by
  obtain ⟨entries, nodup⟩ := d
  unfold get
  induction entries with
  | nil => simp
  | cons entry entries ih =>
    obtain ⟨k, b⟩ := entry
    rw [List.map_cons, List.nodup_cons] at nodup
    by_cases hkey : key = k
    · subst hkey
      have hnot : (key, a) ∉ entries := fun h =>
        nodup.1 (List.mem_map.2 ⟨_, h, rfl⟩)
      simp only [List.lookup_cons, beq_self_eq_true, Option.some.injEq, List.mem_cons, Prod.mk.injEq,
        true_and, hnot, or_false]
      exact eq_comm
    · simp only [List.lookup_cons, beq_eq_false_iff_ne.2 hkey, List.mem_cons, Prod.mk.injEq, hkey,
        false_and, false_or]
      exact ih nodup.2

theorem mem_values : a ∈ d.values ↔ ∃ key, d.get key = some a := by
  simp only [values, List.mem_map, get_eq_some]
  constructor
  · rintro ⟨⟨key, _⟩, hmem, rfl⟩
    exact ⟨key, hmem⟩
  · rintro ⟨key, hmem⟩
    exact ⟨_, hmem, rfl⟩

theorem get_set (key k : κ) (value : α) :
    (d.set key value).get k = if k = key then some value else d.get k := by
  obtain ⟨entries, nodup⟩ := d
  unfold get set
  induction entries with
  | nil =>
    by_cases h : k = key
    · simp [setEntries, h]
    · simp [setEntries, h]
  | cons entry entries ih =>
    obtain ⟨k', b⟩ := entry
    rw [List.map_cons, List.nodup_cons] at nodup
    have ih := ih nodup.2
    simp only [setEntries] at ih ⊢
    by_cases hentry : k' = key
    · subst hentry
      by_cases h : k = k'
      · simp [h]
      · rw [if_neg h, if_pos rfl, List.lookup_cons, List.lookup_cons, beq_eq_false_iff_ne.2 h]
    · rw [if_neg hentry, List.lookup_cons, List.lookup_cons]
      by_cases hk : k = k'
      · subst hk
        simp [hentry]
      · simp only [beq_eq_false_iff_ne.2 hk]
        exact ih

@[simp] theorem get_set_self : (d.set key value).get key = some value := by
  rw [get_set, if_pos rfl]

theorem get_set_of_ne (h : k ≠ key) : (d.set key value).get k = d.get k := by
  rw [get_set, if_neg h]

theorem get_del (key k : κ) : (d.del key).get k = if k = key then none else d.get k := by
  by_cases h : k = key
  · rw [if_pos h, Option.eq_none_iff_forall_not_mem]
    intro a ha
    have hmem := get_eq_some.1 ha
    simp [del, h] at hmem
  · rw [if_neg h]
    refine Option.ext fun a => ?_
    rw [get_eq_some, get_eq_some, del, List.mem_filter]
    simp [h]

theorem get_mapValues {β : Type w} (d : Dict κ α) (f : α → β) (key : κ) :
    (d.mapValues f).get key = (d.get key).map f := by
  obtain ⟨entries, nodup⟩ := d
  unfold get mapValues
  dsimp only
  clear nodup
  induction entries with
  | nil => rfl
  | cons entry entries ih =>
    obtain ⟨k, a⟩ := entry
    rw [List.map_cons, List.lookup_cons, List.lookup_cons]
    by_cases hkey : key = k
    · simp [hkey]
    · simp only [beq_eq_false_iff_ne.2 hkey]
      exact ih

theorem get_filterValues (d : Dict κ α) (wanted : α → Bool) (key : κ) :
    (d.filterValues wanted).get key = (d.get key).filter wanted := by
  refine Option.ext fun a => ?_
  rw [get_eq_some, Option.filter_eq_some_iff, get_eq_some]
  exact List.mem_filter

/-- Values that are told apart by their keys are found under them, and nothing else is. -/
theorem get_ofList_of_inj {keyOf : α → κ} {values : List α}
    (h : ∀ a ∈ values, ∀ b ∈ values, keyOf a = keyOf b → a = b) :
    (ofList keyOf values).get key = some a ↔ a ∈ values ∧ keyOf a = key := by
  have hfold : ∀ (d : Dict κ α) (values : List α),
      (∀ a ∈ values, ∀ b ∈ values, keyOf a = keyOf b → a = b) →
      (∀ a ∈ values, ∀ b, d.get (keyOf a) = some b → b = a) →
      ((values.foldl (fun d value => d.set (keyOf value) value) d).get key = some a ↔
        d.get key = some a ∨ a ∈ values ∧ keyOf a = key) := by
    intro d values
    induction values generalizing d with
    | nil => simp
    | cons b values ih =>
      intro hinj hkept
      rw [List.foldl_cons, ih _ fun x hx y hy => hinj x (List.mem_cons_of_mem _ hx) y
        (List.mem_cons_of_mem _ hy)]
      · rw [get_set]
        by_cases hkey : key = keyOf b
        · subst hkey
          have hb : ∀ c, d.get (keyOf b) = some c → c = b := hkept b List.mem_cons_self
          simp only [if_true, Option.some.injEq, List.mem_cons]
          constructor
          · rintro (rfl | ⟨hmem, heq⟩)
            · exact .inr ⟨.inl rfl, rfl⟩
            · exact .inr ⟨.inr hmem, heq⟩
          · rintro (hd | ⟨rfl | hmem, heq⟩)
            · exact .inl (hb a hd).symm
            · exact .inl rfl
            · exact .inr ⟨hmem, heq⟩
        · simp only [if_neg hkey, List.mem_cons]
          constructor
          · rintro (hd | ⟨hmem, heq⟩)
            · exact .inl hd
            · exact .inr ⟨.inr hmem, heq⟩
          · rintro (hd | ⟨rfl | hmem, heq⟩)
            · exact .inl hd
            · exact absurd heq.symm hkey
            · exact .inr ⟨hmem, heq⟩
      · intro c hc x hx
        rw [get_set] at hx
        split at hx
        · next hkey =>
          rw [← Option.some.inj hx]
          exact hinj b List.mem_cons_self c (List.mem_cons_of_mem _ hc) hkey.symm
        · exact hkept c (List.mem_cons_of_mem _ hc) x hx
  rw [ofList, hfold _ _ h (fun _ _ b hb => by cases hb)]
  simp [get]

/-- Values with a key of their own, all keys apart, are found under their keys, and nothing else is. -/
theorem get_ofList {keyOf : α → κ} {values : List α} (h : (values.map keyOf).Nodup) :
    (ofList keyOf values).get key = some a ↔ a ∈ values ∧ keyOf a = key :=
  get_ofList_of_inj fun _ ha _ hb heq => List.inj_on_of_nodup_map h ha hb heq

theorem mem_keys_ofList {keyOf : α → κ} {values : List α} {key : κ} :
    key ∈ (ofList keyOf values).entries.map Prod.fst ↔ key ∈ values.map keyOf := by
  have hfold : ∀ (d : Dict κ α) (values : List α),
      (key ∈ (values.foldl (fun d value => d.set (keyOf value) value) d).entries.map Prod.fst ↔
        key ∈ d.entries.map Prod.fst ∨ key ∈ values.map keyOf) := by
    intro d values
    induction values generalizing d with
    | nil => simp
    | cons b values ih =>
      rw [List.foldl_cons, ih, set, mem_keys_setEntries, List.map_cons, List.mem_cons]
      tauto
  rw [ofList, hfold]
  simp

/-- As many entries as values: no two have one key. -/
theorem length_ofList_iff {keyOf : α → κ} {values : List α} :
    (ofList keyOf values).entries.length = values.length ↔ (values.map keyOf).Nodup := by
  have hperm : ((ofList keyOf values).entries.map Prod.fst).Perm (values.map keyOf).dedup := by
    apply (List.perm_ext_iff_of_nodup (ofList keyOf values).nodup (List.nodup_dedup _)).2
    intro key
    rw [mem_keys_ofList, List.mem_dedup]
  have hlength := hperm.length_eq
  rw [List.length_map] at hlength
  have hvalues : (values.map keyOf).length = values.length := List.length_map _
  rw [hlength, ← hvalues]
  constructor
  · intro h
    exact List.dedup_eq_self.1 ((List.dedup_sublist _).eq_of_length h)
  · intro h
    rw [h.dedup]

end Dict

end OmniviaCore.Lib
