import OmniviaCore.Lib.Machine

/-!
# Concurrent clients of one atomic object

A client is a program: a tree whose nodes are calls on a shared object and whose branches are the answers. A
`Pool` runs any number of clients over one object, one call at a time in any order, with steps of the
environment in between; a client may be abandoned before any of its calls. Each keeps the list of what its
calls did (`history`).

`run_meets` carries a client's specification, proved of its program alone, to every interleaving.
-/

namespace OmniviaCore.Lib

/-- A program over the calls `Op`. -/
inductive Prog (Op : Type) (Ans : Op → Type) (α : Type) where
  | ret (a : α)
  | call (op : Op) (k : Ans op → Prog Op Ans α)

/-- A shared object: its answer to a call, its next state and the events the call records, and what
its environment does to it. `Choice` is what the state does not determine. -/
structure Obj (Op : Type) (Ans : Op → Type) (σ Choice Act Env : Type) where
  exec : (op : Op) → Choice → σ → Ans op × σ × List Act
  env : Env → σ → σ

variable {Op : Type} {Ans : Op → Type} {α β σ Choice Act Env τ : Type}

namespace Prog

def bind : Prog Op Ans α → (α → Prog Op Ans β) → Prog Op Ans β
  | .ret a, f => f a
  | .call op k, f => .call op fun ans => (k ans).bind f

instance : Monad (Prog Op Ans) where
  pure := .ret
  bind := bind

def perform (op : Op) : Prog Op Ans (Ans op) := .call op .ret

variable (o : Obj Op Ans σ Choice Act Env) (S : σ → Prop) (I : List Act → Prop)

/-- The program keeps `I` of its history and returns only with `Q`, whatever the object answers in
states that satisfy `S`. -/
def Meets (Q : α → List Act → Prop) : Prog Op Ans α → List Act → Prop
  | .ret a, h => I h ∧ Q a h
  | .call op k, h =>
    I h ∧ ∀ c s, S s → Meets Q (k (o.exec op c s).1) (h ++ (o.exec op c s).2.2)

variable {o S I}

theorem Meets.invariant {Q : α → List Act → Prop} {p : Prog Op Ans α} {h : List Act}
    (hp : p.Meets o S I Q h) : I h := by
  cases p with
  | ret a => exact hp.1
  | call op k => exact hp.1

theorem meets_perform_bind {Q : α → List Act → Prop} {op : Op} {f : Ans op → Prog Op Ans α}
    {h : List Act} :
    Meets o S I Q (perform op >>= f) h ↔
      I h ∧ ∀ c s, S s →
        (f (o.exec op c s).1).Meets o S I Q (h ++ (o.exec op c s).2.2) := Iff.rfl

/-- The rule of composition: the second program starts where the first returns. -/
theorem meets_bind {Q : β → List Act → Prop} {p : Prog Op Ans α} {f : α → Prog Op Ans β}
    {h : List Act} (hp : p.Meets o S I (fun a h' => (f a).Meets o S I Q h') h) :
    Meets o S I Q (p >>= f) h := by
  induction p generalizing h with
  | ret a => exact hp.2
  | call op k ih => exact ⟨hp.1, fun c s hs => ih _ (hp.2 c s hs)⟩

theorem Meets.mono {I' : List Act → Prop} {Q Q' : α → List Act → Prop} (hI : ∀ h, I h → I' h)
    (hQ : ∀ a h, I h → Q a h → Q' a h) {p : Prog Op Ans α} {h : List Act}
    (hp : p.Meets o S I Q h) : p.Meets o S I' Q' h := by
  induction p generalizing h with
  | ret a => exact ⟨hI h hp.1, hQ a h hp.1 hp.2⟩
  | call op k ih => exact ⟨hI h hp.1, fun c s hs => ih _ (hp.2 c s hs)⟩

/-- A specification that asks nothing of the history is met. -/
theorem meets_of_forall {Q : α → List Act → Prop} (hI : ∀ h, I h) (hQ : ∀ a h, Q a h)
    (p : Prog Op Ans α) (h : List Act) : p.Meets o S I Q h := by
  induction p generalizing h with
  | ret a => exact ⟨hI h, hQ a h⟩
  | call op k ih => exact ⟨hI h, fun c s _ => ih _ _⟩

end Prog

/-- A client: the call it runs, what is left of its program (`none` once abandoned), and what it
has done. -/
structure Client (Op : Type) (Ans : Op → Type) (α τ Act : Type) where
  request : τ
  prog : Option (Prog Op Ans α)
  history : List Act

namespace Client

/-- The result of a client that has returned. -/
def result? (t : Client Op Ans α τ Act) : Option α :=
  match t.prog with
  | some (.ret a) => some a
  | _ => none

/-- What is left of the client's program meets its specification. -/
def Meets (o : Obj Op Ans σ Choice Act Env) (S : σ → Prop) (I : τ → List Act → Prop)
    (Q : τ → α → List Act → Prop) (t : Client Op Ans α τ Act) : Prop :=
  match t.prog with
  | some p => p.Meets o S (I t.request) (Q t.request) t.history
  | none => I t.request t.history

variable {o : Obj Op Ans σ Choice Act Env} {S : σ → Prop} {I : τ → List Act → Prop}
  {Q : τ → α → List Act → Prop}

theorem Meets.invariant {t : Client Op Ans α τ Act} (ht : t.Meets o S I Q) :
    I t.request t.history := by
  unfold Meets at ht
  split at ht
  · exact ht.invariant
  · exact ht

theorem Meets.returned {t : Client Op Ans α τ Act} (ht : t.Meets o S I Q) {a : α}
    (ha : t.result? = some a) : Q t.request a t.history := by
  unfold result? at ha
  split at ha
  · next hprog =>
    cases ha
    simp only [Meets, hprog] at ht
    exact ht.2
  · cases ha

end Client

/-- The object and its clients, in the order they started. -/
structure Pool (Op : Type) (Ans : Op → Type) (α σ τ Act : Type) where
  shared : σ
  clients : List (Client Op Ans α τ Act)

/-- One event of a pool. -/
inductive Label (τ Choice Env : Type) where
  | start (request : τ)
  | step (i : Nat) (c : Choice)
  | abandon (i : Nat)
  | environment (e : Env)

namespace Pool

def idle (s : σ) : Pool Op Ans α σ τ Act := ⟨s, []⟩

variable (o : Obj Op Ans σ Choice Act Env) (program : τ → Prog Op Ans α)

/-- The pool after an event; an event no client is ready for changes nothing. -/
def step (p : Pool Op Ans α σ τ Act) : Label τ Choice Env → Pool Op Ans α σ τ Act
  | .start request => { p with clients := p.clients ++ [⟨request, some (program request), []⟩] }
  | .step i c =>
    match p.clients[i]? with
    | some ⟨request, some (.call op k), h⟩ =>
      let answered := o.exec op c p.shared
      ⟨answered.2.1, p.clients.set i ⟨request, some (k answered.1), h ++ answered.2.2⟩⟩
    | _ => p
  | .abandon i =>
    match p.clients[i]? with
    | some t => { p with clients := p.clients.set i { t with prog := none } }
    | none => p
  | .environment e => { p with shared := o.env e p.shared }

/-- The number of events satisfying `q` in all histories. -/
def total (q : Act → Bool) (p : Pool Op Ans α σ τ Act) : Nat :=
  (p.clients.map fun t => t.history.countP q).sum

theorem step_cases (p : Pool Op Ans α σ τ Act) (label : Label τ Choice Env) :
    p.step o program label = p ∨
    (∃ request, label = .start request ∧ p.step o program label =
      { p with clients := p.clients ++ [⟨request, some (program request), []⟩] }) ∨
    (∃ i c request op k h, label = .step i c ∧
      p.clients[i]? = some ⟨request, some (.call op k), h⟩ ∧ p.step o program label =
        ⟨(o.exec op c p.shared).2.1, p.clients.set i ⟨request,
          some (k (o.exec op c p.shared).1), h ++ (o.exec op c p.shared).2.2⟩⟩) ∨
    (∃ i t, label = .abandon i ∧ p.clients[i]? = some t ∧ p.step o program label =
      { p with clients := p.clients.set i { t with prog := none } }) ∨
    ∃ e, label = .environment e ∧ p.step o program label = { p with shared := o.env e p.shared } := by
  cases label with
  | start request => exact .inr (.inl ⟨request, rfl, rfl⟩)
  | step i c =>
    simp only [step]
    split
    · next request op k h hi => exact .inr (.inr (.inl ⟨i, c, request, op, k, h, rfl, hi, rfl⟩))
    · exact .inl rfl
  | abandon i =>
    simp only [step]
    split
    · next t hi => exact .inr (.inr (.inr (.inl ⟨i, t, rfl, hi, rfl⟩)))
    · exact .inl rfl
  | environment e => exact .inr (.inr (.inr (.inr ⟨e, rfl, rfl⟩)))

variable {o program}

/-! ## What a client has done -/

/-- A client's history only grows, and not once the client has returned or been abandoned. -/
def Continues (t t' : Client Op Ans α τ Act) : Prop :=
  t'.request = t.request ∧ t.history <+: t'.history ∧
    ((t.prog = none ∨ t.result?.isSome) →
      t'.history = t.history ∧ (t'.prog = none ∨ t'.result?.isSome))

theorem Continues.refl (t : Client Op Ans α τ Act) : Continues t t :=
  ⟨rfl, List.prefix_refl _, fun h => ⟨rfl, h⟩⟩

theorem Continues.trans {t u v : Client Op Ans α τ Act} (htu : Continues t u)
    (huv : Continues u v) : Continues t v := by
  refine ⟨huv.1.trans htu.1, htu.2.1.trans huv.2.1, ?_⟩
  intro h
  obtain ⟨hu, hended⟩ := htu.2.2 h
  obtain ⟨hv, hended⟩ := huv.2.2 hended
  exact ⟨hv.trans hu, hended⟩

theorem step_continues (p : Pool Op Ans α σ τ Act) (label : Label τ Choice Env) {i : Nat}
    {t : Client Op Ans α τ Act} (ht : p.clients[i]? = some t) :
    ∃ t', (p.step o program label).clients[i]? = some t' ∧ Continues t t' := by
  have hlt := (List.getElem?_eq_some_iff.1 ht).1
  obtain h | ⟨_, _, h⟩ | ⟨j, c, request, op, k, hist, _, hj, h⟩ | ⟨j, u, _, hj, h⟩ | ⟨_, _, h⟩ :=
    step_cases o program p label <;> rw [h]
  · exact ⟨t, ht, .refl t⟩
  · exact ⟨t, by rw [List.getElem?_append_left hlt, ht], .refl t⟩
  · by_cases hij : j = i
    · subst hij
      obtain rfl := Option.some.inj (ht.symm.trans hj)
      refine ⟨_, List.getElem?_set_self hlt, rfl, List.prefix_append _ _, ?_⟩
      rintro (hprog | hprog) <;> cases hprog
    · exact ⟨t, by rw [List.getElem?_set_ne hij, ht], .refl t⟩
  · by_cases hij : j = i
    · subst hij
      obtain rfl := Option.some.inj (ht.symm.trans hj)
      exact ⟨_, List.getElem?_set_self hlt, rfl, List.prefix_refl _, fun _ => ⟨rfl, .inl rfl⟩⟩
    · exact ⟨t, by rw [List.getElem?_set_ne hij, ht], .refl t⟩
  · exact ⟨t, ht, .refl t⟩

theorem run_continues {p : Pool Op Ans α σ τ Act} (labels : List (Label τ Choice Env)) {i : Nat}
    {t : Client Op Ans α τ Act} (ht : p.clients[i]? = some t) :
    ∃ t', (run (step o program) p labels).clients[i]? = some t' ∧ Continues t t' := by
  induction labels generalizing p t with
  | nil => exact ⟨t, ht, .refl t⟩
  | cons label labels ih =>
    obtain ⟨u, hu, htu⟩ : ∃ u, (p.step o program label).clients[i]? = some u ∧ Continues t u :=
      step_continues p label ht
    obtain ⟨v, hv, huv⟩ := ih hu
    exact ⟨v, hv, htu.trans huv⟩

/-! ## Specifications of clients -/

variable {S : σ → Prop} {I : τ → List Act → Prop} {Q : τ → α → List Act → Prop}

/-- The object's state satisfies `S`, and the clients from the `n`-th on meet their
specifications. -/
def MeetsFrom (o : Obj Op Ans σ Choice Act Env) (S : σ → Prop) (I : τ → List Act → Prop)
    (Q : τ → α → List Act → Prop) (n : Nat) (p : Pool Op Ans α σ τ Act) : Prop :=
  S p.shared ∧ n ≤ p.clients.length ∧
    ∀ i t, n ≤ i → p.clients[i]? = some t → t.Meets o S I Q

theorem step_meets (hexec : ∀ op c s, S s → S (o.exec op c s).2.1)
    (henv : ∀ e s, S s → S (o.env e s))
    (hprogram : ∀ request, (program request).Meets o S (I request) (Q request) [])
    {n : Nat} (p : Pool Op Ans α σ τ Act) (label : Label τ Choice Env)
    (hp : p.MeetsFrom o S I Q n) : (p.step o program label).MeetsFrom o S I Q n := by
  obtain ⟨hS, hn, hclients⟩ := hp
  obtain h | ⟨request, _, h⟩ | ⟨i, c, request, op, k, hist, _, hi, h⟩ | ⟨i, t, _, hi, h⟩ |
    ⟨e, _, h⟩ := step_cases o program p label <;> rw [h]
  · exact ⟨hS, hn, hclients⟩
  · refine ⟨hS, by simp; omega, ?_⟩
    intro j t hj ht
    rw [List.getElem?_append] at ht
    split at ht
    · exact hclients j t hj ht
    · rw [List.getElem?_singleton] at ht
      split at ht
      · cases ht
        exact hprogram request
      · cases ht
  · refine ⟨hexec op c _ hS, by simpa using hn, ?_⟩
    intro j t hj ht
    rw [List.getElem?_set] at ht
    split at ht
    · next hij =>
      -- the client that took the step is at the branch of the answer it got
      subst hij
      split at ht
      · cases ht
        exact (hclients i _ hj hi).2 c p.shared hS
      · cases ht
    · exact hclients j t hj ht
  · refine ⟨hS, by simpa using hn, ?_⟩
    intro j t' hj ht
    rw [List.getElem?_set] at ht
    split at ht
    · next hij =>
      subst hij
      split at ht
      · cases ht
        exact (hclients i t hj hi).invariant
      · cases ht
    · exact hclients j t' hj ht
  · exact ⟨henv e _ hS, hn, hclients⟩

/-- Clients that start in a pool satisfying the stable `S` meet their specifications in every
continuation of the run. -/
theorem run_meets (hexec : ∀ op c s, S s → S (o.exec op c s).2.1)
    (henv : ∀ e s, S s → S (o.env e s))
    (hprogram : ∀ request, (program request).Meets o S (I request) (Q request) [])
    {p : Pool Op Ans α σ τ Act} (hS : S p.shared) (labels : List (Label τ Choice Env)) :
    (run (step o program) p labels).MeetsFrom o S I Q p.clients.length := by
  refine run_invariant (step_meets hexec henv hprogram) ⟨hS, le_refl _, ?_⟩ labels
  intro i t hi ht
  obtain ⟨hlt, -⟩ := List.getElem?_eq_some_iff.1 ht
  omega

/-! ## Totals over all clients -/

theorem total_set {q : Act → Bool} {p : Pool Op Ans α σ τ Act} {i : Nat}
    {t : Client Op Ans α τ Act} (hi : p.clients[i]? = some t) (s : σ) (t' : Client Op Ans α τ Act)
    {acts : List Act} (ht' : t'.history = t.history ++ acts) :
    total q (⟨s, p.clients.set i t'⟩ : Pool Op Ans α σ τ Act) = total q p + acts.countP q := by
  unfold total
  obtain ⟨shared, clients⟩ := p
  induction clients generalizing i with
  | nil => cases hi
  | cons u clients ih =>
    cases i with
    | zero =>
      cases hi
      simp [ht', List.countP_append]
      omega
    | succ i =>
      have := ih (i := i) hi
      simp only [List.set_cons_succ, List.map_cons, List.sum_cons] at this ⊢
      omega

/-- If each call a client makes within its specification, and the environment, pay for the events
`q` out of the potential and the events `r`, so does every run. -/
theorem run_balance (hexec : ∀ op c s, S s → S (o.exec op c s).2.1)
    (henv : ∀ e s, S s → S (o.env e s))
    (hprogram : ∀ request, (program request).Meets o S (I request) (Q request) [])
    {q r : Act → Bool} {φ : σ → Nat}
    (hpays : ∀ request op c s h, I request (h ++ (o.exec op c s).2.2) →
      (o.exec op c s).2.2.countP q + φ (o.exec op c s).2.1 ≤
        (o.exec op c s).2.2.countP r + φ s)
    (henvPays : ∀ e s, φ (o.env e s) ≤ φ s) {s : σ} (hS : S s)
    (labels : List (Label τ Choice Env)) :
    total q (run (step o program) (idle s) labels) +
        φ (run (step o program) (idle s) labels).shared ≤
      φ s + total r (run (step o program) (idle s) labels) := by
  refine (run_invariant (P := fun p => p.MeetsFrom o S I Q 0 ∧
    total q p + φ p.shared ≤ φ s + total r p) ?_ ?_ labels).2
  · rintro p label ⟨hmeets, hp⟩
    have hmeets' := step_meets hexec henv hprogram p label hmeets
    refine ⟨hmeets', ?_⟩
    obtain h | ⟨request, _, h⟩ | ⟨i, c, request, op, k, hist, _, hi, h⟩ | ⟨i, t, _, hi, h⟩ |
      ⟨e, _, h⟩ := step_cases o program p label <;> rw [h] at hmeets' ⊢
    · exact hp
    · simpa [total] using hp
    · -- the client's history after the call is within its specification
      have hclient := (hmeets'.2.2 i _ (Nat.zero_le i) (by
        have hlt := (List.getElem?_eq_some_iff.1 hi).1
        rw [List.getElem?_set_self hlt])).invariant
      have hpaid := hpays request op c p.shared hist hclient
      rw [total_set hi _ _ rfl, total_set hi _ _ rfl]
      dsimp only
      omega
    · rw [total_set hi _ { t with prog := none } (List.append_nil _).symm,
        total_set hi _ { t with prog := none } (List.append_nil _).symm]
      simpa using hp
    · have hpaid := henvPays e p.shared
      unfold total at hp ⊢
      dsimp only
      omega
  · refine ⟨⟨hS, le_refl _, ?_⟩, by simp [total, idle]⟩
    intro i t _ ht
    cases ht

theorem total_le {q r : Act → Bool} {p : Pool Op Ans α σ τ Act}
    (h : ∀ t ∈ p.clients, t.history.countP q ≤ t.history.countP r) : total q p ≤ total r p :=
  List.sum_le_sum h

end Pool

end OmniviaCore.Lib
