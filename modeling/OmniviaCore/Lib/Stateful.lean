import Mathlib

/-!
# Fallible operations on a state

An operation that may raise ends in a state either way: what was written before the failure stays written.
`EStateM` is that monad, `demand` one check. `bind_returns` and `bind_raises` take a sequence of steps apart
from its answer, so that what an operation did is read off without unfolding the monad.

Two operations are coupled when, run from related states, they both return related answers or both raise,
and end in related states.
-/

namespace OmniviaCore.Lib

section

universe u

variable {ε σ α β : Type u} {s s' : σ} {a : α} {e : ε}

def finalState : EStateM.Result ε σ α → σ
  | .ok _ s => s
  | .error _ s => s

def answer : EStateM.Result ε σ α → Except ε α
  | .ok a _ => .ok a
  | .error e _ => .error e

@[simp] theorem answer_eq_ok {r : EStateM.Result ε σ α} :
    answer r = .ok a ↔ r = .ok a (finalState r) := by
  cases r with
  | ok b t => simp [answer, finalState]
  | error e t => simp [answer]

@[simp] theorem answer_eq_error {r : EStateM.Result ε σ α} :
    answer r = .error e ↔ r = .error e (finalState r) := by
  cases r with
  | ok b t => simp [answer]
  | error e t => simp [answer, finalState]

/-- One check: nothing happens when the condition holds, and otherwise the error is raised. -/
def demand (condition : Prop) [Decidable condition] (error : ε) : EStateM ε σ PUnit :=
  if condition then pure ⟨⟩ else throw error

@[simp] theorem bind_returns {x : EStateM ε σ α} {f : α → EStateM ε σ β} {b : β} :
    (x >>= f) s = .ok b s' ↔ ∃ a t, x s = .ok a t ∧ f a t = .ok b s' := by
  show EStateM.bind x f s = .ok b s' ↔ _
  unfold EStateM.bind
  cases x s with
  | ok a t => simp
  | error e t => simp

@[simp] theorem bind_raises {x : EStateM ε σ α} {f : α → EStateM ε σ β} :
    (x >>= f) s = .error e s' ↔
      x s = .error e s' ∨ ∃ a t, x s = .ok a t ∧ f a t = .error e s' := by
  show EStateM.bind x f s = .error e s' ↔ _
  unfold EStateM.bind
  cases x s with
  | ok a t => simp
  | error e t => simp

@[simp] theorem pure_returns {b : α} : (pure a : EStateM ε σ α) s = .ok b s' ↔ a = b ∧ s = s' := by
  show EStateM.Result.ok a s = .ok b s' ↔ _
  simp

@[simp] theorem pure_raises : (pure a : EStateM ε σ α) s = .error e s' ↔ False := by
  show EStateM.Result.ok a s = .error e s' ↔ _
  simp

@[simp] theorem throw_returns : (throw e : EStateM ε σ α) s = .ok a s' ↔ False := by
  show EStateM.Result.error e s = .ok a s' ↔ _
  simp

@[simp] theorem throw_raises {f : ε} : (throw e : EStateM ε σ α) s = .error f s' ↔ e = f ∧ s = s' := by
  show EStateM.Result.error e s = .error f s' ↔ _
  simp

@[simp] theorem get_returns {t : σ} : (get : EStateM ε σ σ) s = .ok t s' ↔ s = t ∧ s = s' := by
  show EStateM.Result.ok s s = .ok t s' ↔ _
  simp

@[simp] theorem get_raises : (get : EStateM ε σ σ) s = .error e s' ↔ False := by
  show EStateM.Result.ok s s = .error e s' ↔ _
  simp

@[simp] theorem set_returns {t : σ} {u : PUnit} : (set t : EStateM ε σ PUnit) s = .ok u s' ↔ t = s' := by
  show EStateM.Result.ok PUnit.unit t = .ok u s' ↔ _
  simp

@[simp] theorem set_raises {t : σ} : (set t : EStateM ε σ PUnit) s = .error e s' ↔ False := by
  show EStateM.Result.ok PUnit.unit t = .error e s' ↔ _
  simp

@[simp] theorem modify_returns {f : σ → σ} {u : PUnit} :
    (modify f : EStateM ε σ PUnit) s = .ok u s' ↔ f s = s' := by
  show EStateM.Result.ok PUnit.unit (f s) = .ok u s' ↔ _
  simp

@[simp] theorem modify_raises {f : σ → σ} :
    (modify f : EStateM ε σ PUnit) s = .error e s' ↔ False := by
  show EStateM.Result.ok PUnit.unit (f s) = .error e s' ↔ _
  simp

@[simp] theorem map_returns {x : EStateM ε σ α} {f : α → β} {b : β} :
    (f <$> x) s = .ok b s' ↔ ∃ a, x s = .ok a s' ∧ f a = b := by
  show EStateM.map f x s = .ok b s' ↔ _
  unfold EStateM.map
  cases x s with
  | ok a t => simp [and_comm]
  | error e t => simp

@[simp] theorem map_raises {x : EStateM ε σ α} {f : α → β} :
    (f <$> x) s = .error e s' ↔ x s = .error e s' := by
  show EStateM.map f x s = .error e s' ↔ _
  unfold EStateM.map
  cases x s with
  | ok a t => simp
  | error e t => simp

@[simp] theorem demand_returns {condition : Prop} [Decidable condition] {u : PUnit} :
    (demand condition e : EStateM ε σ PUnit) s = .ok u s' ↔ condition ∧ s = s' := by
  unfold demand
  split
  · simp [pure_returns, *]
  · simp [throw_returns, *]

@[simp] theorem demand_raises {condition : Prop} [Decidable condition] {f : ε} :
    (demand condition e : EStateM ε σ PUnit) s = .error f s' ↔ ¬condition ∧ e = f ∧ s = s' := by
  unfold demand
  split
  · simp [pure_raises, *]
  · simp [throw_raises, *]

/-- The outcome of a computation that does not touch the state. -/
def attempt (x : Except ε α) : EStateM ε σ α :=
  match x with
  | .ok a => pure a
  | .error e => throw e

@[simp] theorem attempt_returns {x : Except ε α} :
    (attempt x : EStateM ε σ α) s = .ok a s' ↔ x = .ok a ∧ s = s' := by
  cases x with
  | ok b => simp [attempt]
  | error e => simp [attempt]

@[simp] theorem attempt_raises {x : Except ε α} :
    (attempt x : EStateM ε σ α) s = .error e s' ↔ x = .error e ∧ s = s' := by
  cases x with
  | ok b => simp [attempt]
  | error e => simp [attempt]

/-! ## What a failure leaves -/

/-- An operation that raises ends in a state `R` relates to the one it was run from. -/
def Raises (R : σ → σ → Prop) (x : EStateM ε σ α) : Prop :=
  ∀ s e s', x s = .error e s' → R s s'

/-- An operation that returns has written nothing. -/
def Reads (x : EStateM ε σ α) : Prop :=
  ∀ s a s', x s = .ok a s' → s' = s

variable {R : σ → σ → Prop} {x : EStateM ε σ α} {f : α → EStateM ε σ β}

theorem Reads.pure (a : α) : Reads (Pure.pure a : EStateM ε σ α) :=
  fun _ _ _ h => (pure_returns.1 h).2.symm

theorem Reads.get : Reads (MonadState.get : EStateM ε σ σ) :=
  fun _ _ _ h => (get_returns.1 h).2.symm

theorem Reads.demand {condition : Prop} [Decidable condition] :
    Reads (Lib.demand condition e : EStateM ε σ PUnit) :=
  fun _ _ _ h => (demand_returns.1 h).2.symm

theorem Reads.bind (hx : Reads x) (hf : ∀ a, Reads (f a)) : Reads (x >>= f) := by
  intro s b s' h
  obtain ⟨a, t, ha, hb⟩ := bind_returns.1 h
  rw [hf a t b s' hb, hx s a t ha]

theorem Raises.pure (a : α) : Raises R (Pure.pure a : EStateM ε σ α) :=
  fun _ _ _ h => (pure_raises.1 h).elim

theorem Raises.get : Raises R (MonadState.get : EStateM ε σ σ) :=
  fun _ _ _ h => (get_raises.1 h).elim

theorem Raises.modifies {g : σ → σ} : Raises R (modify g : EStateM ε σ PUnit) :=
  fun _ _ _ h => (modify_raises.1 h).elim

theorem Raises.throw (hR : ∀ s, R s s) : Raises R (MonadExcept.throw e : EStateM ε σ α) := by
  intro s f s' h
  obtain ⟨-, rfl⟩ := throw_raises.1 h
  exact hR s

theorem Raises.demand {condition : Prop} [Decidable condition] (hR : ∀ s, R s s) :
    Raises R (Lib.demand condition e : EStateM ε σ PUnit) := by
  intro s f s' h
  obtain ⟨-, -, rfl⟩ := demand_raises.1 h
  exact hR s

theorem Raises.bind_modify {g : σ → σ} {b : β} :
    Raises R ((modify g : EStateM ε σ PUnit) >>= fun _ => Pure.pure b) := by
  intro s e s' h
  simp only [bind_raises, modify_raises, pure_raises, false_or] at h
  obtain ⟨_, _, -, h⟩ := h
  exact h.elim

theorem Raises.bind_set {t : σ} {b : β} :
    Raises R ((MonadStateOf.set t : EStateM ε σ PUnit) >>= fun _ => Pure.pure b) := by
  intro s e s' h
  simp only [bind_raises, set_raises, pure_raises, false_or] at h
  obtain ⟨_, _, -, h⟩ := h
  exact h.elim

theorem Raises.map {g : α → β} (hx : Raises R x) : Raises R (g <$> x) :=
  fun s e s' h => hx s e s' (map_raises.1 h)

/-- After steps that only read, what follows decides. -/
theorem Raises.bind (hread : Reads x) (hx : Raises R x) (hf : ∀ a, Raises R (f a)) :
    Raises R (x >>= f) := by
  intro s e s' h
  rcases bind_raises.1 h with hfirst | ⟨a, t, ha, hrest⟩
  · exact hx s e s' hfirst
  · obtain rfl := hread s a t ha
    exact hf a _ e s' hrest

/-- After the state is read, the rest is run from that state. -/
theorem Raises.bind_get {g : σ → EStateM ε σ β} (hg : ∀ s e s', g s s = .error e s' → R s s') :
    Raises R (MonadState.get >>= g) := by
  intro s e s' h
  rcases bind_raises.1 h with hfirst | ⟨a, t, ha, hrest⟩
  · exact (get_raises.1 hfirst).elim
  · obtain ⟨rfl, rfl⟩ := get_returns.1 ha
    exact hg s e s' hrest

/-- After a step that wrote what `R` allows, steps that fail without writing leave that. -/
theorem raises_written {s' : σ} (hwritten : ∀ a t, x s = .ok a t → R s t)
    (hx : ∀ s', x s = .error e s' → R s s') (hf : ∀ a, Raises (fun t t' => t' = t) (f a))
    (h : (x >>= f) s = .error e s') : R s s' := by
  rcases bind_raises.1 h with hfirst | ⟨a, t, ha, hrest⟩
  · exact hx s' hfirst
  · obtain rfl := hf a t e s' hrest
    exact hwritten a _ ha

/-! ## Dictionaries in the state -/

section

variable {κ ν : Type u} [DecidableEq κ] {m : AList fun _ : κ => ν} {k k' : κ} {v w : ν}

/-- What is found after a write is what was written or what was there. -/
theorem lookup_insert_eq_some :
    (m.insert k v).lookup k' = some w ↔ k' = k ∧ v = w ∨ k' ≠ k ∧ m.lookup k' = some w := by
  by_cases hk : k' = k
  · subst hk
    simp
  · rw [AList.lookup_insert_ne hk]
    simp [hk]

end

end

/-! ## Two operations side by side -/

section

universe u v

variable {ε σ α α' : Type u} {δ τ β β' : Type v} {S : σ → τ → Prop} {R : α → β → Prop}
  {Q : α' → β' → Prop} {s : σ} {t : τ} {a : α} {b : β}

/-- Two results that both return or both raise. -/
inductive Alike (S : σ → τ → Prop) (R : α → β → Prop) :
    EStateM.Result ε σ α → EStateM.Result δ τ β → Prop
  | ok {a : α} {b : β} {s : σ} {t : τ} (answer : R a b) (state : S s t) :
      Alike S R (.ok a s) (.ok b t)
  | error {e : ε} {f : δ} {s : σ} {t : τ} (state : S s t) : Alike S R (.error e s) (.error f t)

theorem Alike.finalState {r : EStateM.Result ε σ α} {r' : EStateM.Result δ τ β}
    (h : Alike S R r r') : S (finalState r) (finalState r') := by
  cases h with
  | ok _ hstate => exact hstate
  | error hstate => exact hstate

/-- Run from related states, the two are alike. -/
def Coupled (S : σ → τ → Prop) (R : α → β → Prop) (x : EStateM ε σ α) (y : EStateM δ τ β) : Prop :=
  ∀ s t, S s t → Alike S R (x s) (y t)

namespace Coupled

variable {x : EStateM ε σ α} {y : EStateM δ τ β} {f : α → EStateM ε σ α'} {g : β → EStateM δ τ β'}

theorem pure (h : R a b) : Coupled S R (Pure.pure a : EStateM ε σ α) (Pure.pure b : EStateM δ τ β) :=
  fun _ _ hstate => .ok h hstate

theorem throw {e : ε} {d : δ} : Coupled S R (MonadExcept.throw e : EStateM ε σ α)
    (MonadExcept.throw d : EStateM δ τ β) :=
  fun _ _ hstate => .error hstate

theorem get : Coupled S S (MonadState.get : EStateM ε σ σ) (MonadState.get : EStateM δ τ τ) :=
  fun _ _ hstate => .ok hstate hstate

theorem set (h : S s t) : Coupled S (fun _ _ => True) (MonadStateOf.set s : EStateM ε σ PUnit)
    (MonadStateOf.set t : EStateM δ τ PUnit) :=
  fun _ _ _ => .ok trivial h

theorem modifies {φ : σ → σ} {ψ : τ → τ} (h : ∀ s t, S s t → S (φ s) (ψ t)) :
    Coupled S (fun _ _ => True) (modify φ : EStateM ε σ PUnit) (modify ψ : EStateM δ τ PUnit) :=
  fun s t hstate => .ok trivial (h s t hstate)

theorem demand {c : Prop} {d : Prop} [Decidable c] [Decidable d] {e : ε} {e' : δ} (h : c ↔ d) :
    Coupled S (fun _ _ => True) (Lib.demand c e : EStateM ε σ PUnit)
      (Lib.demand d e' : EStateM δ τ PUnit) := by
  unfold Lib.demand
  by_cases hc : c
  · rw [if_pos hc, if_pos (h.1 hc)]
    exact pure trivial
  · rw [if_neg hc, if_neg fun hd => hc (h.2 hd)]
    exact throw

/-- Coupled steps, and from related answers coupled steps again. -/
theorem bind (hx : Coupled S R x y) (hf : ∀ a b, R a b → Coupled S Q (f a) (g b)) :
    Coupled S Q (x >>= f) (y >>= g) := by
  intro s t hstate
  have h := hx s t hstate
  show Alike S Q (EStateM.bind x f s) (EStateM.bind y g t)
  unfold EStateM.bind
  cases hxs : x s <;> cases hyt : y t <;> rw [hxs, hyt] at h
  · cases h with
    | ok hanswer hstate => exact hf _ _ hanswer _ _ hstate
  · cases h
  · cases h
  · cases h with
    | error hstate => exact .error hstate

theorem map {φ : α → α'} {ψ : β → β'} (hx : Coupled S R x y) :
    Coupled S (fun _ _ => True) (φ <$> x) (ψ <$> y) := by
  intro s t hstate
  have h := hx s t hstate
  show Alike S _ (EStateM.map φ x s) (EStateM.map ψ y t)
  unfold EStateM.map
  cases hxs : x s <;> cases hyt : y t <;> rw [hxs, hyt] at h
  · cases h with
    | ok hanswer hstate => exact .ok trivial hstate
  · cases h
  · cases h
  · cases h with
    | error hstate => exact .error hstate

end Coupled

end

end OmniviaCore.Lib
