import Mathlib

/-!
# Nested acquisitions

A trace of acquisitions and of calls that try to release what was acquired; `finishes` says which
outcomes give the resource up. `Nested finishes events held` is the discipline of a stack: what is tried
is always the newest resource still held, and it leaves the list exactly when its call finishes. Then
nothing finishes twice (`Nested.nodup_finished`), and nothing is tried before everything acquired after
it has finished (`Nested.attempt_newest`).
-/

namespace OmniviaCore.Lib

universe u v

variable {α : Type u} {ο : Type v}

/-- One event of the trace. -/
inductive ResourceEvent (α : Type u) (ο : Type v) where
  | acquire (a : α)
  | attempt (a : α) (outcome : ο)

def acquired : List (ResourceEvent α ο) → List α
  | [] => []
  | .acquire a :: events => a :: acquired events
  | .attempt _ _ :: events => acquired events

def finished (finishes : ο → Bool) : List (ResourceEvent α ο) → List α
  | [] => []
  | .acquire _ :: events => finished finishes events
  | .attempt a outcome :: events =>
    if finishes outcome then a :: finished finishes events else finished finishes events

theorem acquired_append (first second : List (ResourceEvent α ο)) :
    acquired (first ++ second) = acquired first ++ acquired second := by
  induction first with
  | nil => rfl
  | cons e first ih => cases e <;> simp [acquired, ih]

theorem finished_append (finishes : ο → Bool) (first second : List (ResourceEvent α ο)) :
    finished finishes (first ++ second) = finished finishes first ++ finished finishes second := by
  induction first with
  | nil => rfl
  | cons e first ih =>
    cases e with
    | acquire a => simpa [finished] using ih
    | attempt a outcome =>
      simp only [List.cons_append, finished, ih]
      split <;> rfl

variable {finishes : ο → Bool}

/-- The trace keeps to the stack discipline and ends with `held`, newest first. -/
inductive Nested (finishes : ο → Bool) : List (ResourceEvent α ο) → List α → Prop
  | start : Nested finishes [] []
  | acquire {events : List (ResourceEvent α ο)} {held : List α} {a : α}
      (h : Nested finishes events held) (hnew : a ∉ acquired events) :
      Nested finishes (events ++ [.acquire a]) (a :: held)
  | keep {events : List (ResourceEvent α ο)} {held : List α} {a : α} {outcome : ο}
      (h : Nested finishes events (a :: held)) (hkeep : finishes outcome = false) :
      Nested finishes (events ++ [.attempt a outcome]) (a :: held)
  | finish {events : List (ResourceEvent α ο)} {held : List α} {a : α} {outcome : ο}
      (h : Nested finishes events (a :: held)) (hfinish : finishes outcome = true) :
      Nested finishes (events ++ [.attempt a outcome]) held

namespace Nested

/-- What the discipline says of a trace: nothing is acquired or finished twice, only what was
acquired finishes, and what is held is the rest in the order of acquisition. -/
structure Balanced [DecidableEq α] (finishes : ο → Bool) (events : List (ResourceEvent α ο))
    (held : List α) : Prop where
  nodup_acquired : (acquired events).Nodup
  nodup_finished : (finished finishes events).Nodup
  finished_subset : ∀ a ∈ finished finishes events, a ∈ acquired events
  reverse_held : held.reverse =
    (acquired events).filter fun a => a ∉ finished finishes events

variable [DecidableEq α]

/-- What is held was acquired and has not finished. -/
theorem Balanced.mem_held {events : List (ResourceEvent α ο)} {held : List α}
    (h : Balanced finishes events held) {a : α} (ha : a ∈ held) :
    a ∈ acquired events ∧ a ∉ finished finishes events := by
  have hmem : a ∈ held.reverse := List.mem_reverse.mpr ha
  rw [h.reverse_held, List.mem_filter, decide_eq_true_eq] at hmem
  exact hmem

theorem Balanced.acquire {events : List (ResourceEvent α ο)} {held : List α} {a : α}
    (h : Balanced finishes events held) (hnew : a ∉ acquired events) :
    Balanced finishes (events ++ [.acquire a]) (a :: held) := by
  have hfinished : finished finishes (events ++ [.acquire a]) = finished finishes events := by
    rw [finished_append]
    exact List.append_nil _
  have hacquired : acquired (events ++ [ResourceEvent.acquire (ο := ο) a]) = acquired events ++ [a] :=
    acquired_append _ _
  have hunfinished : a ∉ finished finishes events := fun ha => hnew (h.finished_subset a ha)
  refine ⟨?_, ?_, ?_, ?_⟩
  · rw [hacquired, List.nodup_append]
    refine ⟨h.nodup_acquired, List.nodup_singleton a, ?_⟩
    intro b hb c hc heq
    rw [List.mem_singleton] at hc
    subst hc
    subst heq
    exact hnew hb
  · rw [hfinished]
    exact h.nodup_finished
  · intro b hb
    rw [hfinished] at hb
    rw [hacquired]
    exact List.mem_append_left _ (h.finished_subset b hb)
  · rw [List.reverse_cons, h.reverse_held, hfinished, hacquired, List.filter_append]
    simp [hunfinished]

theorem Balanced.keep {events : List (ResourceEvent α ο)} {held : List α} {a : α} {outcome : ο}
    (h : Balanced finishes events held) (hkeep : finishes outcome = false) :
    Balanced finishes (events ++ [.attempt a outcome]) held := by
  have hfinished : finished finishes (events ++ [.attempt a outcome]) = finished finishes events := by
    rw [finished_append, finished, if_neg (by simp [hkeep])]
    exact List.append_nil _
  have hacquired : acquired (events ++ [ResourceEvent.attempt a outcome]) = acquired events := by
    rw [acquired_append]
    exact List.append_nil _
  refine ⟨?_, ?_, ?_, ?_⟩
  · rw [hacquired]
    exact h.nodup_acquired
  · rw [hfinished]
    exact h.nodup_finished
  · rw [hfinished, hacquired]
    exact h.finished_subset
  · rw [hfinished, hacquired]
    exact h.reverse_held

theorem Balanced.finish {events : List (ResourceEvent α ο)} {held : List α} {a : α} {outcome : ο}
    (h : Balanced finishes events (a :: held)) (hfinish : finishes outcome = true) :
    Balanced finishes (events ++ [.attempt a outcome]) held := by
  have hfinished : finished finishes (events ++ [.attempt a outcome]) =
      finished finishes events ++ [a] := by
    rw [finished_append, finished, if_pos hfinish]
    rfl
  have hacquired : acquired (events ++ [ResourceEvent.attempt a outcome]) = acquired events := by
    rw [acquired_append]
    exact List.append_nil _
  obtain ⟨hmem, hunfinished⟩ := h.mem_held List.mem_cons_self
  have hnodup : (held.reverse ++ [a]).Nodup := by
    rw [← List.reverse_cons, h.reverse_held]
    exact h.nodup_acquired.filter _
  have hout : ∀ b ∈ held.reverse, b ≠ a := by
    intro b hb heq
    exact (List.nodup_append.mp hnodup).2.2 b hb a (List.mem_singleton_self a) heq
  refine ⟨?_, ?_, ?_, ?_⟩
  · rw [hacquired]
    exact h.nodup_acquired
  · rw [hfinished, List.nodup_append]
    refine ⟨h.nodup_finished, List.nodup_singleton a, ?_⟩
    intro b hb c hc heq
    rw [List.mem_singleton] at hc
    subst hc
    subst heq
    exact hunfinished hb
  · intro b hb
    rw [hfinished, List.mem_append, List.mem_singleton] at hb
    rw [hacquired]
    cases hb with
    | inl hb => exact h.finished_subset b hb
    | inr hb => exact hb ▸ hmem
  · -- the newest resource is the only one the filter drops
    have hsplit : ((acquired events).filter fun b => b ∉ finished finishes events ++ [a]) =
        ((acquired events).filter fun b => b ∉ finished finishes events).filter fun b => b ≠ a := by
      rw [List.filter_filter]
      apply List.filter_congr
      intro b _
      simp [and_comm]
    rw [hacquired, hfinished, hsplit, ← h.reverse_held, List.reverse_cons, List.filter_append,
      List.filter_eq_self.mpr (by simpa using hout)]
    simp

/-- Every trace that keeps to the discipline is balanced. -/
theorem balanced {events : List (ResourceEvent α ο)} {held : List α}
    (h : Nested finishes events held) : Balanced finishes events held := by
  induction h with
  | start => exact ⟨List.nodup_nil, List.nodup_nil, fun _ h => h, rfl⟩
  | acquire h hnew ih => exact ih.acquire hnew
  | keep h hkeep ih => exact ih.keep hkeep
  | finish h hfinish ih => exact ih.finish hfinish

omit [DecidableEq α] in
/-- What was tried was the newest resource held at that moment. -/
theorem of_attempt {before after : List (ResourceEvent α ο)} {a : α} {outcome : ο} {held : List α}
    (h : Nested finishes (before ++ .attempt a outcome :: after) held) :
    ∃ beneath, Nested finishes before (a :: beneath) := by
  generalize htrace : before ++ .attempt a outcome :: after = events at h
  induction h generalizing after with
  | start => simp at htrace
  | acquire h hnew ih =>
    cases after using List.reverseRecOn with
    | nil => exact nomatch (List.append_inj' htrace rfl).2
    | append_singleton after e =>
      rw [← List.cons_append, ← List.append_assoc] at htrace
      exact ih (List.append_inj' htrace rfl).1
  | keep h hkeep ih | finish h hfinish ih =>
    cases after using List.reverseRecOn with
    | nil =>
      obtain ⟨hbefore, hlast⟩ := List.append_inj' htrace rfl
      cases hlast
      subst hbefore
      exact ⟨_, h⟩
    | append_singleton after e =>
      rw [← List.cons_append, ← List.append_assoc] at htrace
      exact ih (List.append_inj' htrace rfl).1

/-- Nothing is tried that has finished, and everything acquired after it has. -/
theorem attempt_newest {before after : List (ResourceEvent α ο)} {a : α} {outcome : ο}
    {held : List α} (h : Nested finishes (before ++ .attempt a outcome :: after) held) :
    a ∉ finished finishes before ∧ ∃ earlier later, acquired before = earlier ++ a :: later ∧
      ∀ b ∈ later, b ∈ finished finishes before := by
  obtain ⟨beneath, hbefore⟩ := h.of_attempt
  have hbalanced := hbefore.balanced
  obtain ⟨hmem, hunfinished⟩ := hbalanced.mem_held List.mem_cons_self
  obtain ⟨earlier, later, hsplit⟩ := List.append_of_mem hmem
  refine ⟨hunfinished, earlier, later, hsplit, ?_⟩
  intro b hb
  by_contra hheld
  -- an unfinished later resource would be held above the one that was tried
  have hrest := hbalanced.reverse_held
  rw [List.reverse_cons, hsplit, List.filter_append, List.filter_cons_of_pos (by simpa using hunfinished)]
    at hrest
  obtain hnone | ⟨others, last, hlast⟩ :=
    List.eq_nil_or_concat (later.filter fun c => c ∉ finished finishes before)
  · have hmem : b ∈ later.filter fun c => c ∉ finished finishes before :=
      List.mem_filter.mpr ⟨hb, by simpa using hheld⟩
    rw [hnone] at hmem
    exact List.not_mem_nil hmem
  · rw [hlast, List.concat_eq_append, ← List.cons_append, ← List.append_assoc] at hrest
    have hsame : [a] = [last] := (List.append_inj' hrest rfl).2
    have hmem : last ∈ later.filter fun c => c ∉ finished finishes before := by
      rw [hlast, List.concat_eq_append]
      exact List.mem_append_right _ (List.mem_singleton_self last)
    have hagain : a ∈ later := List.singleton_inj.mp hsame ▸ (List.mem_filter.mp hmem).1
    have hnodup := hbalanced.nodup_acquired
    rw [hsplit, List.nodup_append, List.nodup_cons] at hnodup
    exact hnodup.2.1.1 hagain

end Nested

end OmniviaCore.Lib
