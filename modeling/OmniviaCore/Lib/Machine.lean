import Mathlib

/-!
# Runs of a deterministic machine

A label the machine refuses leaves the state as it was, so a run is the list of the labels tried and the
state after it is a fold. `Along` states that every step taken meets a condition on the state it is taken
from and its label. An invariant of every step is one of every run (`run_invariant`), also when only the
steps of this run keep it (`run_invariant_along`), and a measure no step lowers is lowered by no run
(`run_monotone`).

A schedule is a label for every moment; `trace` is the state at a moment. A bounded measure that no step
lowers is constant from some moment on (`exists_constant`).
-/

namespace OmniviaCore.Lib

section

universe u v w

variable {σ : Type u} {α : Type v} (step : σ → α → σ)

def run (s : σ) (labels : List α) : σ := labels.foldl step s

/-- Every step the run takes from `s` meets `C`. -/
def Along (C : σ → α → Prop) : σ → List α → Prop
  | _, [] => True
  | s, a :: labels => C s a ∧ Along C (step s a) labels

@[simp] theorem run_nil (s : σ) : run step s [] = s := rfl

@[simp] theorem run_cons (s : σ) (a : α) (labels : List α) :
    run step s (a :: labels) = run step (step s a) labels := rfl

theorem run_append (s : σ) (first second : List α) :
    run step s (first ++ second) = run step (run step s first) second :=
  List.foldl_append

theorem run_concat (s : σ) (labels : List α) (a : α) :
    run step s (labels ++ [a]) = step (run step s labels) a := by
  rw [run_append]
  rfl

variable {step}

theorem Along.and {C D : σ → α → Prop} {s : σ} {labels : List α} (hC : Along step C s labels)
    (hD : Along step D s labels) : Along step (fun s a => C s a ∧ D s a) s labels := by
  induction labels generalizing s with
  | nil => trivial
  | cons a labels ih => exact ⟨⟨hC.1, hD.1⟩, ih hC.2 hD.2⟩

/-- A run in two parts meets the condition along each. -/
theorem along_append {C : σ → α → Prop} {s : σ} {first second : List α} :
    Along step C s (first ++ second) ↔ Along step C s first ∧ Along step C (run step s first) second := by
  induction first generalizing s with
  | nil => exact ⟨fun h => ⟨trivial, h⟩, fun h => h.2⟩
  | cons a first ih =>
    rw [List.cons_append, Along, Along, ih, and_assoc]
    rfl

theorem run_invariant {P : σ → Prop} (hstep : ∀ s a, P s → P (step s a)) {s : σ} (hs : P s)
    (labels : List α) : P (run step s labels) := by
  induction labels generalizing s with
  | nil => exact hs
  | cons a labels ih => exact ih (hstep s a hs)

/-- What the steps meeting `C` keep, a run of such steps keeps. -/
theorem run_invariant_along {C : σ → α → Prop} {P : σ → Prop}
    (hstep : ∀ s a, C s a → P s → P (step s a)) {s : σ} (hs : P s) {labels : List α}
    (hC : Along step C s labels) : P (run step s labels) := by
  induction labels generalizing s with
  | nil => exact hs
  | cons a labels ih => exact ih (hstep s a hC.1 hs) hC.2

/-- Along such a run a step also meets what `C` and the invariant give together. -/
theorem along_of_invariant {C D : σ → α → Prop} {P : σ → Prop}
    (hstep : ∀ s a, C s a → P s → P (step s a)) (hD : ∀ s a, C s a → P s → D s a) {s : σ} (hs : P s)
    {labels : List α} (hC : Along step C s labels) : Along step D s labels := by
  induction labels generalizing s with
  | nil => trivial
  | cons a labels ih => exact ⟨hD s a hC.1 hs, ih (hstep s a hC.1 hs) hC.2⟩

/-- A measure that no step from an `I`-state lowers is lowered by no run from one. -/
theorem run_monotone {β : Type w} [Preorder β] {f : σ → β} {I : σ → Prop}
    (hI : ∀ s a, I s → I (step s a)) (hf : ∀ s a, I s → f s ≤ f (step s a)) {s : σ} (hs : I s)
    (labels : List α) : f s ≤ f (run step s labels) := by
  induction labels generalizing s with
  | nil => exact le_refl _
  | cons a labels ih => exact le_trans (hf s a hs) (ih (hI s a hs))

end

/-! ## Infinite schedules of a deterministic machine -/

section

universe u v

variable {σ : Type u} {α : Type v} (step : σ → α → σ) (s : σ) (schedule : Nat → α)

/-- The state after the first `n` labels of a schedule. -/
def trace : Nat → σ
  | 0 => s
  | n + 1 => step (trace n) (schedule n)

variable {step s schedule}

theorem trace_eq_run (n : Nat) :
    trace step s schedule n = run step s ((List.range n).map schedule) := by
  induction n with
  | zero => rfl
  | succ n ih =>
    rw [List.range_succ, List.map_append, List.map_cons, List.map_nil, run_concat, ← ih]
    rfl

theorem trace_invariant {P : σ → Prop} (hstep : ∀ s a, P s → P (step s a)) (hs : P s) (n : Nat) :
    P (trace step s schedule n) := by
  rw [trace_eq_run]
  exact run_invariant hstep hs _

/-- What every step keeps holds between two moments in order. -/
theorem trace_related {P : σ → Prop} {R : σ → σ → Prop} (hstep : ∀ s a, P s → P (step s a))
    (hs : P s) (hrefl : ∀ s, R s s) (htrans : ∀ a b c, R a b → R b c → R a c)
    (hR : ∀ s a, P s → R s (step s a)) {n m : Nat} (hnm : n ≤ m) :
    R (trace step s schedule n) (trace step s schedule m) := by
  induction m, hnm using Nat.le_induction with
  | base => exact hrefl _
  | succ m _ ih => exact htrans _ _ _ ih (hR _ _ (trace_invariant hstep hs m))

/-- A bounded sequence that never falls is constant from some place on. -/
theorem exists_constant {f : Nat → Nat} {bound : Nat} (hmono : ∀ n m, n ≤ m → f n ≤ f m)
    (hbound : ∀ n, f n ≤ bound) : ∃ n, ∀ m, n ≤ m → f m = f n := by
  by_contra hnot
  push Not at hnot
  have hclimb : ∀ k, ∃ n, k ≤ f n := by
    intro k
    induction k with
    | zero => exact ⟨0, Nat.zero_le _⟩
    | succ k ih =>
      obtain ⟨n, hn⟩ := ih
      obtain ⟨m, hnm, hne⟩ := hnot n
      have hle := hmono n m hnm
      exact ⟨m, by omega⟩
  obtain ⟨n, hn⟩ := hclimb (bound + 1)
  have hle := hbound n
  omega

end

/-! ## Sampling a history -/

section

variable {α : Type} {R : Bool → α → α → Prop} {Good : α → Prop} {flag : Nat → Bool} {readings : List α}

/-- Whether a flag was raised on a step from `i` to `j`. -/
def flagged (flag : Nat → Bool) (i j : Nat) : Bool := (List.range' i (j - i)).any flag

theorem flagged_succ (i : Nat) : flagged flag i (i + 1) = flag i := by
  rw [flagged, Nat.add_sub_cancel_left]
  simp [List.range']

theorem flagged_concat {i j : Nat} (hij : i ≤ j) :
    flagged flag i (j + 1) = (flagged flag i j || flag j) := by
  rw [flagged, Nat.succ_sub hij, List.range'_1_concat, List.any_append, Nat.add_sub_cancel' hij]
  simp [flagged]

/-- Readings further apart, by induction on the later one. -/
theorem sampled (compose : ∀ {r r' : Bool} {a b c : α}, Good b → R r a b → R r' b c → R (r || r') a c)
    (adjacent : ∀ (k : Nat) (hk : k + 1 < readings.length), R (flag k) readings[k] readings[k + 1])
    {i j : Nat} (hij : i < j) (hj : j < readings.length)
    (hgood : ∀ (k : Nat) (hk : k < readings.length), i < k → k < j → Good readings[k]) :
    R (flagged flag i j) readings[i] readings[j] := by
  induction j with
  | zero => exact absurd hij (Nat.not_lt_zero i)
  | succ j ih =>
    rcases Nat.lt_succ_iff_lt_or_eq.1 hij with hlt | rfl
    · rw [flagged_concat hlt.le]
      have hrelated := ih hlt (Nat.lt_of_succ_lt hj) fun k hk hik hkj => hgood k hk hik (by omega)
      exact compose (hgood j (Nat.lt_of_succ_lt hj) hlt (Nat.lt_succ_self j)) hrelated (adjacent j hj)
    · rw [flagged_succ]
      exact adjacent i hj

end

end OmniviaCore.Lib
