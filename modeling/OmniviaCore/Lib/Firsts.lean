import Mathlib

/-!
# The first of each key

A pass over a list that keeps an element when no element before it had its key, and none of the keys it
starts from. Leaving out an element whose key was seen changes nothing (`firstsBy_append_of_seen`), and an
element whose key was seen is kept only if it was kept before (`mem_firstsBy_left`).
-/

namespace OmniviaCore.Lib

universe u v

variable {α : Type u} {κ : Type v} [DecidableEq κ] (key : α → κ)

def firstsBy (seen : List κ) : List α → List α
  | [] => []
  | a :: rest => if key a ∈ seen then firstsBy seen rest else a :: firstsBy (key a :: seen) rest

variable {key} {seen : List κ} {a : α} {before after : List α}

theorem firstsBy_cons_seen (h : key a ∈ seen) (rest : List α) :
    firstsBy key seen (a :: rest) = firstsBy key seen rest := if_pos h

theorem firstsBy_cons_new (h : key a ∉ seen) (rest : List α) :
    firstsBy key seen (a :: rest) = a :: firstsBy key (key a :: seen) rest := if_neg h

theorem firstsBy_sublist (list : List α) : (firstsBy key seen list).Sublist list := by
  induction list generalizing seen with
  | nil => exact List.Sublist.slnil
  | cons b rest ih =>
    by_cases hb : key b ∈ seen
    · rw [firstsBy_cons_seen hb]
      exact ih.cons b
    · rw [firstsBy_cons_new hb]
      exact ih.cons_cons b

theorem key_notMem_of_mem_firstsBy {list : List α} (h : a ∈ firstsBy key seen list) : key a ∉ seen := by
  induction list generalizing seen with
  | nil => cases h
  | cons b rest ih =>
    by_cases hb : key b ∈ seen
    · rw [firstsBy_cons_seen hb] at h
      exact ih h
    · rw [firstsBy_cons_new hb] at h
      rcases List.mem_cons.mp h with rfl | h
      · exact hb
      · exact fun hseen => ih h (List.mem_cons_of_mem _ hseen)

theorem mem_firstsBy_of_new (h : key a ∉ seen ++ before.map key) :
    a ∈ firstsBy key seen (before ++ a :: after) := by
  induction before generalizing seen with
  | nil =>
    rw [List.map_nil, List.append_nil] at h
    rw [List.nil_append, firstsBy_cons_new h]
    exact List.mem_cons_self
  | cons b before ih =>
    simp only [List.map_cons, List.mem_append, List.mem_cons, not_or] at h
    rw [List.cons_append]
    by_cases hb : key b ∈ seen
    · rw [firstsBy_cons_seen hb]
      refine ih ?_
      simp only [List.mem_append, not_or]
      exact ⟨h.1, h.2.2⟩
    · rw [firstsBy_cons_new hb]
      refine List.mem_cons_of_mem _ (ih ?_)
      simp only [List.mem_append, List.mem_cons, not_or]
      exact ⟨⟨h.2.1, h.1⟩, h.2.2⟩

/-- Leaving out an element whose key was seen changes nothing. -/
theorem firstsBy_append_of_seen (h : key a ∈ seen ++ before.map key) :
    firstsBy key seen (before ++ a :: after) = firstsBy key seen (before ++ after) := by
  induction before generalizing seen with
  | nil =>
    rw [List.map_nil, List.append_nil] at h
    exact firstsBy_cons_seen h after
  | cons b before ih =>
    simp only [List.map_cons, List.mem_append, List.mem_cons] at h
    rw [List.cons_append, List.cons_append]
    by_cases hb : key b ∈ seen
    · rw [firstsBy_cons_seen hb, firstsBy_cons_seen hb]
      refine ih ?_
      rcases h with h | h | h
      · exact List.mem_append_left _ h
      · exact List.mem_append_left _ (h ▸ hb)
      · exact List.mem_append_right _ h
    · rw [firstsBy_cons_new hb, firstsBy_cons_new hb]
      congr 1
      refine ih ?_
      rcases h with h | h | h
      · exact List.mem_append_left _ (List.mem_cons_of_mem _ h)
      · exact List.mem_append_left _ (h ▸ List.mem_cons_self)
      · exact List.mem_append_right _ h

theorem mem_firstsBy_append (h : a ∈ firstsBy key seen before) :
    a ∈ firstsBy key seen (before ++ after) := by
  induction before generalizing seen with
  | nil => cases h
  | cons b before ih =>
    rw [List.cons_append]
    by_cases hb : key b ∈ seen
    · rw [firstsBy_cons_seen hb] at h ⊢
      exact ih h
    · rw [firstsBy_cons_new hb] at h ⊢
      rcases List.mem_cons.mp h with rfl | h
      · exact List.mem_cons_self
      · exact List.mem_cons_of_mem _ (ih h)

/-- A kept element whose key a beginning has is kept by the beginning. -/
theorem mem_firstsBy_left (hkey : key a ∈ before.map key)
    (h : a ∈ firstsBy key seen (before ++ after)) : a ∈ firstsBy key seen before := by
  induction before generalizing seen with
  | nil => cases hkey
  | cons b before ih =>
    rw [List.cons_append] at h
    by_cases hb : key b ∈ seen
    · rw [firstsBy_cons_seen hb] at h ⊢
      refine ih ?_ h
      rcases List.mem_cons.mp hkey with heq | hkey
      · exact absurd (heq ▸ hb) (key_notMem_of_mem_firstsBy h)
      · exact hkey
    · rw [firstsBy_cons_new hb] at h ⊢
      rcases List.mem_cons.mp h with rfl | h
      · exact List.mem_cons_self
      · refine List.mem_cons_of_mem _ (ih ?_ h)
        rcases List.mem_cons.mp hkey with heq | hkey
        · exact absurd (heq ▸ List.mem_cons_self) (key_notMem_of_mem_firstsBy h)
        · exact hkey

theorem mem_firstsBy_id {α : Type u} [DecidableEq α] {a : α} {list : List α} :
    a ∈ firstsBy id [] list ↔ a ∈ list := by
  constructor
  · exact fun h => (firstsBy_sublist list).subset h
  · intro h
    obtain ⟨before, after, rfl, hbefore⟩ := List.eq_append_cons_of_mem h
    refine mem_firstsBy_of_new ?_
    rw [List.nil_append, List.map_id]
    exact hbefore

end OmniviaCore.Lib
