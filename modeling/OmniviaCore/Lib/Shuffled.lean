import OmniviaCore.Lib.Check

/-!
# Steps made in another order

A step made for each element of a list stops at the first element it fails for, so made in another order
it may stop at another one. `Matches E R` compares two results: both succeed, with values `R` relates, or
both fail, with errors `E` relates. The steps of a shuffled list match when `E` relates the errors of the
first elements that fail in the two orders (`matches_mapM`, `matches_forM`), and sequences of matching steps
match (`Matches.bind`).
-/

namespace OmniviaCore.Lib

variable {ε α β γ δ : Type} {E : ε → ε → Prop} {R R' : α → β → Prop} {S : γ → δ → Prop}

/-- Two results that succeed with related values, or fail with related errors. -/
inductive Matches (E : ε → ε → Prop) (R : α → β → Prop) : Except ε α → Except ε β → Prop
  | ok {a : α} {b : β} (h : R a b) : Matches E R (.ok a) (.ok b)
  | error {e e' : ε} (h : E e e') : Matches E R (.error e) (.error e')

namespace Matches

variable {x : Except ε α} {y : Except ε β}

theorem refl (hE : ∀ e, E e e) (x : Except ε α) : Matches E Eq x x := by
  cases x with
  | ok a => exact .ok rfl
  | error e => exact .error (hE e)

theorem bind {f : α → Except ε γ} {g : β → Except ε δ} (h : Matches E R x y)
    (hfg : ∀ a b, x = .ok a → y = .ok b → R a b → Matches E S (f a) (g b)) :
    Matches E S (x >>= f) (y >>= g) := by
  cases h with
  | ok h => exact hfg _ _ rfl rfl h
  | error h => exact .error h

theorem require {p : Prop} [Decidable p] {e : ε} {f : Unit → Except ε γ} {g : Unit → Except ε δ}
    (hE : E e e) (hfg : p → Matches E S (f ()) (g ())) :
    Matches E S (Lib.require p e >>= f) (Lib.require p e >>= g) := by
  by_cases hp : p
  · rw [require_pos hp]
    exact hfg hp
  · rw [require_neg hp]
    exact .error hE

end Matches

/-- Steps that succeed for each element of a list succeed for each of a shuffled one. -/
theorem exists_mapM_of_perm {f : γ → Except ε β} {l l' : List γ} (hperm : l.Perm l') {bs : List β}
    (h : l.mapM f = .ok bs) : ∃ bs', l'.mapM f = .ok bs' ∧ bs.Perm bs' := by
  obtain ⟨bs', hbs', hperm'⟩ := List.perm_comp_forall₂ hperm.symm (mapM_eq_ok.1 h)
  exact ⟨bs', mapM_eq_ok.2 hbs', hperm'.symm⟩

/-! ## The first element that fails -/

section FirstError

/-- The error of the first element of a list a step fails for. -/
def FirstError (f : γ → Except ε β) (l : List γ) (e : ε) : Prop :=
  ∃ before a after, l = before ++ a :: after ∧ (∀ b ∈ before, (f b).isOk) ∧ f a = .error e

variable {f : γ → Except ε β} {l : List γ} {e : ε}

theorem FirstError.raises {p : ε → Prop} (h : FirstError f l e) (hp : ∀ a ∈ l, OnlyRaises p (f a)) :
    p e := by
  obtain ⟨before, a, after, rfl, -, ha⟩ := h
  exact hp a (List.mem_append_right _ List.mem_cons_self) e ha

/-- An element that passes is not the first that fails. -/
theorem FirstError.cons {a : γ} (ha : (f a).isOk) (h : FirstError f l e) : FirstError f (a :: l) e := by
  obtain ⟨before, b, after, rfl, hbefore, hb⟩ := h
  exact ⟨a :: before, b, after, rfl, List.forall_mem_cons.2 ⟨ha, hbefore⟩, hb⟩

theorem firstError_of_mapM (h : l.mapM f = .error e) : FirstError f l e := by
  induction l with
  | nil => cases h
  | cons a l ih =>
    rw [List.mapM_cons] at h
    cases ha : f a with
    | error e' =>
      rw [ha, error_bind] at h
      obtain rfl := Except.error.inj h
      exact ⟨[], a, l, rfl, fun _ hb => absurd hb List.not_mem_nil, ha⟩
    | ok b =>
      rw [ha, ok_bind] at h
      refine (ih ?_).cons (by rw [ha]; rfl)
      cases hl : l.mapM f with
      | error e' => rw [hl] at h; exact h
      | ok bs => rw [hl] at h; cases h

theorem firstError_of_forM {f : γ → Except ε PUnit} (h : l.forM f = .error e) : FirstError f l e := by
  induction l with
  | nil => cases h
  | cons a l ih =>
    rw [List.forM] at h
    cases ha : f a with
    | error e' =>
      rw [ha, error_bind] at h
      obtain rfl := Except.error.inj h
      exact ⟨[], a, l, rfl, fun _ hb => absurd hb List.not_mem_nil, ha⟩
    | ok u =>
      rw [ha, ok_bind] at h
      exact (ih h).cons (by rw [ha]; rfl)

end FirstError

theorem matches_mapM {f : γ → Except ε β} {l l' : List γ} (hperm : l.Perm l')
    (hE : ∀ e e', FirstError f l e → FirstError f l' e' → E e e') :
    Matches E List.Perm (l.mapM f) (l'.mapM f) := by
  cases hl : l.mapM f with
  | ok bs =>
    obtain ⟨bs', hl', hbs⟩ := exists_mapM_of_perm hperm hl
    rw [hl']
    exact .ok hbs
  | error e =>
    cases hl' : l'.mapM f with
    | ok bs' =>
      obtain ⟨bs, hbs, -⟩ := exists_mapM_of_perm hperm.symm hl'
      rw [hl] at hbs
      cases hbs
    | error e' => exact .error (hE _ _ (firstError_of_mapM hl) (firstError_of_mapM hl'))

theorem matches_forM {f : γ → Except ε PUnit} {l l' : List γ} (hperm : l.Perm l')
    (hE : ∀ e e', FirstError f l e → FirstError f l' e' → E e e') :
    Matches E Eq (l.forM f) (l'.forM f) := by
  cases hl : l.forM f with
  | ok u =>
    have hl' : l'.forM f = .ok ⟨⟩ :=
      forM_eq_ok.2 fun a ha => forM_eq_ok.1 hl a (hperm.mem_iff.2 ha)
    rw [hl']
    exact .ok rfl
  | error e =>
    cases hl' : l'.forM f with
    | ok u =>
      have hok : l.forM f = .ok ⟨⟩ :=
        forM_eq_ok.2 fun a ha => forM_eq_ok.1 hl' a (hperm.mem_iff.1 ha)
      rw [hl] at hok
      cases hok
    | error e' => exact .error (hE _ _ (firstError_of_forM hl) (firstError_of_forM hl'))

/-- A loop whose checks do not look at what was gathered: the checks first, then the gathering. -/
theorem foldlM_eq_forM {σ : Type} {f : σ → γ → Except ε σ} {check : γ → Except ε PUnit} {g : σ → γ → σ}
    (h : ∀ s a, f s a = (do check a; pure (g s a))) (l : List γ) (s : σ) :
    l.foldlM f s = (do l.forM check; pure (l.foldl g s)) := by
  induction l generalizing s with
  | nil => rfl
  | cons a l ih =>
    rw [List.foldlM_cons, h]
    show (check a >>= fun _ => pure (g s a)) >>= (fun s' => l.foldlM f s') =
      (check a >>= fun _ => l.forM check) >>= fun _ => pure (l.foldl g (g s a))
    rw [bind_assoc, bind_assoc]
    congr 1
    funext u
    rw [pure_bind, ih]

end OmniviaCore.Lib
