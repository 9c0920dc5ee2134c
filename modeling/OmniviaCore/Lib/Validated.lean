import OmniviaCore.Lib.Check
import OmniviaCore.Lib.Stateful

/-!
# Values that passed a check

A class whose constructor runs a check has no instance the check refuses. `Validated check` is the
type of its instances: a value, and the proof that the check passes on it. `build` is the
constructor. `lift` runs a constructor inside a fallible operation on a state, which it does not
touch.
-/

namespace OmniviaCore.Lib

universe u v

variable {ε : Type u} {α : Type v}

/-- A value its check accepts. -/
structure Validated (check : α → Except ε Unit) where
  val : α
  accepted : check val = .ok ()

namespace Validated

variable {check : α → Except ε Unit}

instance [DecidableEq α] : DecidableEq (Validated check) := fun a b =>
  decidable_of_iff (a.val = b.val) ⟨fun h => by cases a; cases b; cases h; rfl, fun h => h ▸ rfl⟩

@[ext] theorem ext {a b : Validated check} (h : a.val = b.val) : a = b := by
  cases a
  cases b
  cases h
  rfl

def build (check : α → Except ε Unit) (val : α) : Except ε (Validated check) :=
  match h : check val with
  | .ok () => .ok ⟨val, h⟩
  | .error e => .error e

theorem build_accepted {val : α} (h : check val = .ok ()) : build check val = .ok ⟨val, h⟩ := by
  unfold build
  split
  · rfl
  · next e he => rw [h] at he; cases he

@[simp] theorem build_eq_ok {val : α} {a : Validated check} : build check val = .ok a ↔ a.val = val := by
  constructor
  · intro h
    unfold build at h
    split at h
    · cases h
      rfl
    · cases h
  · rintro rfl
    exact build_accepted a.accepted

/-- The constructor, applied to each of some values. -/
theorem mapM_build_eq_ok {β : Type v} {f : β → α} {l : List β} {built : List (Validated check)} :
    (l.mapM fun b => build check (f b)) = .ok built ↔ built.map val = l.map f := by
  rw [mapM_eq_ok]
  induction l generalizing built with
  | nil =>
    rw [List.forall₂_nil_left_iff, List.map_nil, List.map_eq_nil_iff]
  | cons b l ih =>
    cases built with
    | nil => simp
    | cons a built =>
      rw [List.forall₂_cons, ih, build_eq_ok, List.map_cons, List.map_cons, List.cons.injEq]

/-- Values the check accepts can all be constructed. -/
theorem exists_built {β : Type v} {f : β → α} {l : List β} (h : ∀ b ∈ l, check (f b) = .ok ()) :
    ∃ built : List (Validated check), built.map val = l.map f := by
  induction l with
  | nil => exact ⟨[], rfl⟩
  | cons b l ih =>
    obtain ⟨built, hbuilt⟩ := ih fun c hc => h c (List.mem_cons_of_mem _ hc)
    exact ⟨⟨f b, h b List.mem_cons_self⟩ :: built, by rw [List.map_cons, List.map_cons, hbuilt]⟩

end Validated

/-! ## Inside an operation -/

section

variable {ε σ α : Type u} {s s' : σ} {a : α} {e : ε}

/-- A fallible step that reads and writes no state. -/
def lift : Except ε α → EStateM ε σ α
  | .ok a => pure a
  | .error e => throw e

@[simp] theorem lift_returns {x : Except ε α} : (lift x : EStateM ε σ α) s = .ok a s' ↔ x = .ok a ∧ s = s' := by
  cases x with
  | ok b => simp [lift]
  | error e => simp [lift]

@[simp] theorem lift_raises {x : Except ε α} :
    (lift x : EStateM ε σ α) s = .error e s' ↔ x = .error e ∧ s = s' := by
  cases x with
  | ok b => simp [lift]
  | error e => simp [lift]

theorem Reads.lift {x : Except ε α} : Reads (Lib.lift x : EStateM ε σ α) :=
  fun _ _ _ h => (lift_returns.1 h).2.symm

theorem Raises.lift {R : σ → σ → Prop} {x : Except ε α} (hR : ∀ s, R s s) :
    Raises R (Lib.lift x : EStateM ε σ α) := by
  intro s f s' h
  obtain ⟨-, rfl⟩ := lift_raises.1 h
  exact hR s

end

end OmniviaCore.Lib
