import OmniviaCore.Dispatch.Safety

/-!
# What a reconciliation closes

`reconcile` moves the ledger and recalls nothing: the dispatch callable carries no fence, so a
`dispatch_material` that won its claim before the reconciliation and has yet to call the callable calls
it afterwards, and finds the ledger moved only at its settlement, where it latches. A call claims at
most once and pays for one invocation with it, so two claims of one effect invoke the callable once
each.
-/

namespace OmniviaCore.Dispatch

open Lib AuthoritativeStore

/-! ## A call claims at most once -/

def ClaimsOnce (h : List Act) : Prop := ∀ e, h.countP (Act.claims e) ≤ 1

theorem claimsOnce_nil : ClaimsOnce [] := fun _ => Nat.zero_le 1

theorem ClaimsOnce.append {h : List Act} (hh : ClaimsOnce h) (acts : List Act)
    (hacts : ∀ e, acts.countP (Act.claims e) = 0) : ClaimsOnce (h ++ acts) := by
  intro e
  rw [List.countP_append, hacts e]
  exact hh e

theorem ClaimsOnce.latched {h : List Act} (hh : ClaimsOnce h) (latch : AttemptLatch) :
    ClaimsOnce (h ++ [.latched latch]) :=
  hh.append _ fun _ => rfl

theorem ClaimsOnce.settled {h : List Act} (hh : ClaimsOnce h) (effectId : String)
    {before after : EffectState} (hafter : after.reconciled = true) :
    ClaimsOnce (h ++ [.moved effectId before after]) := by
  refine hh.append _ fun e => ?_
  cases after with
  | settledApplied => rfl
  | provedNotApplied => rfl
  | _ => cases hafter

theorem claimsOnce_claimed (effectId : String) (state : EffectState) :
    ClaimsOnce [.moved effectId state .issuedUnknown] := by
  intro e
  rw [List.countP_singleton]
  split <;> omega

namespace MaterialDispatchCoordinator

variable (self : MaterialDispatchCoordinator) {S : AuthoritativeStore → Prop}

theorem latchedOutcome_claimsOnce {effectId : String} {dispatched owed : Bool} {attempts : Nat}
    {reason : StopReason} {h : List Act} (hh : ClaimsOnce h) :
    (self.latchedOutcome effectId dispatched attempts owed reason).Meets collaborators S ClaimsOnce
      (fun _ _ => True) h :=
  meets_writeLatch hh ⟨hh, trivial⟩ ⟨hh.latched _, trivial⟩

theorem recordReceipt_claimsOnce {effectId : String} {attempts : Nat} {h : List Act}
    (hh : ClaimsOnce h) :
    (self.recordReceipt effectId attempts).Meets collaborators S ClaimsOnce
      (fun _ _ => True) h := by
  refine Prog.meets_bind (self.commit_meets hh effectId .receipt fun result => ?_)
  obtain ⟨outcome, receiptAttempts⟩ := result
  dsimp only
  split
  · exact self.latchedOutcome_claimsOnce hh
  · exact meets_compareAndSet hh ⟨hh, trivial⟩ (self.latchedOutcome_claimsOnce hh)
      ⟨hh.settled effectId rfl, trivial⟩

theorem claim_claimsOnce (effectId : String) (state : EffectState) :
    (self.claim effectId state).Meets collaborators S ClaimsOnce (fun _ _ => True) [] := by
  refine Prog.meets_bind (self.commit_meets claimsOnce_nil effectId .intent fun result => ?_)
  obtain ⟨outcome, attempts⟩ := result
  dsimp only
  split
  · exact self.latchedOutcome_claimsOnce claimsOnce_nil
  · have hclaimed := claimsOnce_claimed effectId state
    refine meets_compareAndSet claimsOnce_nil ⟨claimsOnce_nil, trivial⟩ ⟨claimsOnce_nil, trivial⟩
      (meets_dispatchEffect hclaimed fun answer => ?_)
    have hissued := hclaimed.append [.invoked effectId] fun _ => rfl
    cases answer with
    | raised => exact self.latchedOutcome_claimsOnce hissued
    | returned => exact self.recordReceipt_claimsOnce hissued

theorem dispatchMaterial_claimsOnce (effectId : String) :
    (self.dispatchMaterial effectId).Meets collaborators S ClaimsOnce (fun _ _ => True) [] := by
  refine Prog.meets_bind
    (self.authorize_meets claimsOnce_nil .material fun decision _ _ => ?_)
  cases decision.allowed with
  | false => exact meets_readLatch claimsOnce_nil fun s _ => ⟨claimsOnce_nil, trivial⟩
  | true =>
    refine meets_readEffectState claimsOnce_nil fun state? => ?_
    cases state? with
    | none => exact ⟨claimsOnce_nil, trivial⟩
    | some state =>
      dsimp only
      split
      · exact ⟨claimsOnce_nil, trivial⟩
      · split
        · exact ⟨claimsOnce_nil, trivial⟩
        · exact self.claim_claimsOnce effectId state

theorem reconcile_claimsOnce (effectId : String) (resolvedState : EffectState) :
    (self.reconcile effectId resolvedState).Meets collaborators S ClaimsOnce
      (fun _ _ => True) [] := by
  unfold reconcile
  split
  · exact ⟨claimsOnce_nil, trivial⟩
  · next hresolved =>
    have hreconciled : resolvedState.reconciled = true := by simpa using hresolved
    refine meets_readEffectState claimsOnce_nil fun state? => ?_
    cases state? with
    | none => exact ⟨claimsOnce_nil, trivial⟩
    | some current =>
      dsimp only
      split
      · exact ⟨claimsOnce_nil, trivial⟩
      · split
        · exact ⟨claimsOnce_nil, trivial⟩
        · exact meets_compareAndSet claimsOnce_nil ⟨claimsOnce_nil, trivial⟩
            ⟨claimsOnce_nil, trivial⟩ ⟨claimsOnce_nil.settled effectId hreconciled, trivial⟩

end MaterialDispatchCoordinator

theorem Request.program_claimsOnce (request : Request) :
    request.program.Meets collaborators (fun _ => True) ClaimsOnce (fun _ _ => True) [] := by
  cases request with
  | authorize coordinator computationClass =>
    exact Prog.meets_bind (coordinator.authorize_meets claimsOnce_nil _ fun _ _ _ =>
      ⟨claimsOnce_nil, trivial⟩)
  | dispatchMaterial coordinator effectId =>
    exact Prog.meets_bind ((coordinator.dispatchMaterial_claimsOnce effectId).mono
      (fun _ hh => hh) fun _ _ hh _ => ⟨hh, trivial⟩)
  | reconcile coordinator effectId resolvedState =>
    exact Prog.meets_bind ((coordinator.reconcile_claimsOnce effectId resolvedState).mono
      (fun _ hh => hh) fun _ _ hh _ => ⟨hh, trivial⟩)

theorem after_claimsOnce (s : AuthoritativeStore) (events : List Event) :
    (after s events).MeetsFrom collaborators (fun _ => True) (fun _ => ClaimsOnce)
      (fun _ _ _ => True) 0 :=
  Pool.run_meets (p := Pool.idle s) (fun _ _ _ _ => trivial) (fun _ _ _ => trivial)
    Request.program_claimsOnce trivial events

theorem client_invokes_le {s : AuthoritativeStore} {events : List Event} {i : Nat}
    {t : Client Op Answer Audit Request Act} (ht : (after s events).clients[i]? = some t)
    (e : String) : t.history.countP (Act.invokesFor e) ≤ 1 := by
  have hpaid := (client_meets (List.mem_of_getElem? ht)).invariant.paid e
  have honce : ClaimsOnce t.history :=
    ((after_claimsOnce s events).2.2 i t (Nat.zero_le i) ht).invariant
  exact le_trans hpaid (honce e)

/-! ## The reconciliation -/

/-- The event is the commit of a `reconcile` of the effect: the step in which a call of it moves the
ledger from `issued_unknown` to the state it was given. -/
def Reconciles (effectId : String) (resolved : EffectState) (p : Calls) (event : Event) : Prop :=
  ∃ i w t t' coordinator, event = .step i w ∧ p.clients[i]? = some t ∧
    t.request = .reconcile coordinator effectId resolved ∧ (next p event).clients[i]? = some t' ∧
    t'.history = t.history ++ [.moved effectId .issuedUnknown resolved]

def Claimed (effectId : String) (t : Client Op Answer Audit Request Act) : Prop :=
  0 < t.history.countP (Act.claims effectId)

/-- The call is still running and has not invoked the callable for the effect. -/
def Outstanding (effectId : String) (t : Client Op Answer Audit Request Act) : Prop :=
  t.prog ≠ none ∧ t.result? = none ∧ t.history.countP (Act.invokesFor effectId) = 0

theorem invokes_eq_of_not_outstanding {s : AuthoritativeStore} {events later : List Event}
    {e : String} {i : Nat} {t₀ t : Client Op Answer Audit Request Act}
    (ht₀ : (after s events).clients[i]? = some t₀)
    (ht : (after s (events ++ later)).clients[i]? = some t) (hclosed : ¬ Outstanding e t₀) :
    t.history.countP (Act.invokesFor e) = t₀.history.countP (Act.invokesFor e) := by
  have hle := client_invokes_le ht e
  rw [after_append] at ht
  obtain ⟨t', ht', -, hprefix, hended⟩ : ∃ t', (run next (after s events) later).clients[i]? =
      some t' ∧ Pool.Continues t₀ t' := Pool.run_continues later ht₀
  obtain rfl := Option.some.inj (ht.symm.trans ht')
  by_cases hdone : t₀.prog = none ∨ t₀.result?.isSome
  · rw [(hended hdone).1]
  · obtain ⟨hrunning, hunreturned⟩ := not_or.1 hdone
    have hinvoked : t₀.history.countP (Act.invokesFor e) ≠ 0 := by
      intro hzero
      exact hclosed ⟨hrunning, by simpa using hunreturned, hzero⟩
    obtain ⟨rest, hrest⟩ := hprefix
    rw [← hrest, List.countP_append] at hle ⊢
    omega

/-- The commit of a reconciliation leaves the effect in the state it was given. -/
theorem Reconciles.resolved {e : String} {resolved : EffectState} {p : Calls} {event : Event}
    (h : Reconciles e resolved p event) : (next p event).shared.effects e = some resolved := by
  obtain ⟨i, w, t, t', coordinator, rfl, ht, -, ht', hhistory⟩ := h
  unfold next at ht' ⊢
  obtain h | ⟨_, h, _⟩ | ⟨j, c, request, op, k, hist, hlabel, hj, h⟩ | ⟨_, _, h, _⟩ | ⟨_, h, _⟩ :=
    Pool.step_cases collaborators Request.program p (.step i w)
  · rw [h, ht] at ht'
    cases ht'
    simp at hhistory
  · cases h
  · cases hlabel
    obtain rfl := Option.some.inj (ht.symm.trans hj)
    have hlt := (List.getElem?_eq_some_iff.1 hj).1
    rw [h] at ht' ⊢
    simp only [List.getElem?_set_self hlt, Option.some.injEq, collaborators_exec] at ht' ⊢
    subst ht'
    simp only [List.append_cancel_left_eq] at hhistory
    obtain ⟨-, hmoves⟩ | ⟨e', before, state, -, heffects, hacts⟩ := exec_cases op w p.shared
    · exact absurd (by simp [hhistory]) (hmoves e .issuedUnknown resolved)
    · rw [hacts] at hhistory
      cases hhistory
      rw [heffects, Function.update_self]
  · cases h
  · cases h

theorem next_claimings_settled {s : AuthoritativeStore} {events : List Event} {e : String}
    (hsettled : (after s events).shared.effects e = some .settledApplied) (event : Event) :
    claimings e (next (after s events) event) = claimings e (after s events) := by
  have hmeets := next_meets s events event
  unfold next at hmeets ⊢
  obtain h | ⟨request, _, h⟩ | ⟨i, w, request, op, k, hist, _, hi, h⟩ | ⟨i, t, _, hi, h⟩ |
    ⟨_, _, h⟩ := Pool.step_cases collaborators Request.program (after s events) event <;>
    rw [h] at hmeets ⊢
  · simp [claimings, Pool.total]
  · have hlt := (List.getElem?_eq_some_iff.1 hi).1
    have hlawful := (hmeets.2.2 i _ (Nat.zero_le i) (List.getElem?_set_self hlt)).invariant
    rw [claimings, Pool.total_set hi _ _ rfl]
    simp only [collaborators_exec] at hlawful ⊢
    have hclaims : (exec op w (after s events).shared).2.2.countP (Act.claims e) = 0 := by
      obtain ⟨-, hmoves⟩ | ⟨e', before, state, hbefore, -, hacts⟩ :=
        exec_cases op w (after s events).shared
      · exact claims_eq_zero hmoves e
      · have hmoves := hlawful.moves e' before state (by simp [hacts])
        have hne : e' ≠ e := by
          rintro rfl
          obtain rfl := Option.some.inj (hbefore.symm.trans hsettled)
          exact not_moves_settled state hmoves
        rw [hacts]
        cases state <;> simp [Act.claims, hne]
    rw [hclaims]
    rfl
  · rw [claimings, Pool.total_set hi _ { t with prog := none } (List.append_nil _).symm]
    rfl
  · rfl

theorem claimings_settled {s : AuthoritativeStore} {events : List Event} {e : String}
    (hsettled : (after s events).shared.effects e = some .settledApplied) (later : List Event) :
    claimings e (after s (events ++ later)) = claimings e (after s events) := by
  induction later generalizing events with
  | nil => simp
  | cons event later ih =>
    have hnext : (after s (events ++ [event])).shared.effects e = some .settledApplied :=
      settled_forever hsettled [event]
    have hrest := ih hnext
    rw [List.append_assoc, List.singleton_append] at hrest
    rw [hrest, after, run_concat]
    exact next_claimings_settled hsettled event

/-- What a committed reconciliation closes, in every run. A call that claimed the effect before it
invokes the callable for it at most once in all, and not any more unless that one invocation was
outstanding; no other call invokes it twice either; each claim is invoked for at most once, and the
claims are at most one more than the proofs of non-application; and an answer of `settled_applied` ends
the claims of the effect. -/
theorem reconciliation_closes (s : AuthoritativeStore) (events : List Event)
    (reconciliation : Event) (later : List Event) (e : String) (resolved : EffectState)
    (hcommits : Reconciles e resolved (after s events) reconciliation) :
    (∀ (i : Nat) (t₀ t : Client Op Answer Audit Request Act),
      (after s events).clients[i]? = some t₀ → Claimed e t₀ →
      (after s (events ++ reconciliation :: later)).clients[i]? = some t →
        t.history.countP (Act.invokesFor e) ≤ 1 ∧
        (¬ Outstanding e t₀ →
          t.history.countP (Act.invokesFor e) = t₀.history.countP (Act.invokesFor e))) ∧
    (∀ (i : Nat) (t : Client Op Answer Audit Request Act),
      (after s (events ++ reconciliation :: later)).clients[i]? = some t →
        t.history.countP (Act.invokesFor e) ≤ 1) ∧
    invocations e (after s (events ++ reconciliation :: later)) ≤
      claimings e (after s (events ++ reconciliation :: later)) ∧
    claimings e (after s (events ++ reconciliation :: later)) ≤
      1 + reopenings e (after s (events ++ reconciliation :: later)) ∧
    (resolved = .settledApplied →
      claimings e (after s (events ++ reconciliation :: later)) =
        claimings e (after s (events ++ [reconciliation]))) := by
  refine ⟨?_, fun i t ht => client_invokes_le ht e, invocations_le_claimings _ _ _, claimings_le _ _ _, ?_⟩
  · intro i t₀ t ht₀ _ ht
    exact ⟨client_invokes_le ht e, invokes_eq_of_not_outstanding ht₀ ht⟩
  · rintro rfl
    have hsettled : (after s (events ++ [reconciliation])).shared.effects e =
        some .settledApplied := by
      rw [after, run_concat]
      exact hcommits.resolved
    have hclaimings := claimings_settled hsettled later
    rwa [List.append_assoc, List.singleton_append] at hclaimings

/-- A dispatch that has claimed the effect and is about to invoke the callable, and a reconciliation
that has read the ledger. -/
def claimedAndAsked : List Event :=
  .start (.dispatchMaterial plainCoordinator "effect") ::
    .start (.reconcile plainCoordinator "effect" .provedNotApplied) ::
    (List.replicate 4 (.step 0 calm) ++ [.step 1 calm])

theorem reconciles_claimed : Reconciles "effect" .provedNotApplied
    (after (oneEffect .predeclared) claimedAndAsked) (.step 1 calm) :=
  ⟨1, calm, _, _, plainCoordinator, rfl, rfl, rfl, rfl, rfl⟩

/-- The continuation in which another call claims the effect anew and both claims are dispatched. -/
def dispatchedTwice : List Event :=
  .start (.dispatchMaterial plainCoordinator "effect") ::
    (List.replicate 7 (.step 2 calm) ++ List.replicate 3 (.step 0 calm))

/-- A claim, a proof of non-application under it and one more claim: both calls invoke the callable,
and there is no third. -/
theorem reconciliation_closes_two :
    invocations "effect" (after (oneEffect .predeclared)
      (claimedAndAsked ++ .step 1 calm :: dispatchedTwice)) = 2 ∧
    claimings "effect" (after (oneEffect .predeclared)
      (claimedAndAsked ++ .step 1 calm :: dispatchedTwice)) ≤ 2 :=
  ⟨by rfl, (reconciliation_closes (oneEffect .predeclared) claimedAndAsked (.step 1 calm)
    dispatchedTwice "effect" .provedNotApplied reconciles_claimed).2.2.2.1⟩

/-- The call whose claim a reconciliation answers as not applied invokes the callable afterwards. -/
theorem reconciliation_not_final :
    ¬ ∀ (s : AuthoritativeStore) (events : List Event) (reconciliation : Event)
      (later : List Event) (e : String) (resolved : EffectState),
      Reconciles e resolved (after s events) reconciliation →
        ∀ (i : Nat) (t₀ t : Client Op Answer Audit Request Act),
          (after s events).clients[i]? = some t₀ → Claimed e t₀ →
          (after s (events ++ reconciliation :: later)).clients[i]? = some t →
            t.history.countP (Act.invokesFor e) = t₀.history.countP (Act.invokesFor e) := by
  intro h
  have hinvoked := h (oneEffect .predeclared) claimedAndAsked (.step 1 calm) [.step 0 calm] "effect"
    .provedNotApplied reconciles_claimed 0 _ _ rfl Nat.one_pos rfl
  exact Nat.one_ne_zero hinvoked

end OmniviaCore.Dispatch
