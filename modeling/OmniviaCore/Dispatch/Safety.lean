import OmniviaCore.Dispatch.Coordinator

/-!
# Material dispatch safety

Any number of coordinators run `authorize`, `dispatch_material` and `reconcile` over one store, one
collaborator call at a time in any order.

`Lawful` is kept at every point of every call: each ledger move is one the ledger admits, and each
invocation of the dispatch callable has a claim of the same call before it. `Audited` relates the outcome a
call returns to what the call did.
-/

namespace OmniviaCore.Dispatch

open Lib

def Moves (before after : EffectState) : Prop :=
  (before.dispatchable = true ∧ after = .issuedUnknown) ∨
    (before = .issuedUnknown ∧ after.reconciled = true)

namespace Act

def invokes : Act → Bool
  | .invoked _ => true
  | _ => false

def invokesFor (effectId : String) : Act → Bool
  | .invoked e => e = effectId
  | _ => false

def claims (effectId : String) : Act → Bool
  | .moved e _ .issuedUnknown => e = effectId
  | _ => false

def reopens (effectId : String) : Act → Bool
  | .moved e .issuedUnknown .provedNotApplied => e = effectId
  | _ => false

end Act

/-- What holds of a call's history at every point of the call. -/
structure Lawful (h : List Act) : Prop where
  moves : ∀ e before after, Act.moved e before after ∈ h → Moves before after
  paid : ∀ e, h.countP (Act.invokesFor e) ≤ h.countP (Act.claims e)

/-- What holds of a returned outcome and the history of the call that returns it: `dispatched`
tells whether the callable was invoked, which it is at most once, and an outcome without a stop
reason comes with the move of the effect to `established`. -/
structure Audited (effectId : String) (established : EffectState) (v : DispatchOutcome)
    (h : List Act) : Prop where
  dispatched : v.dispatched = true ↔ h.countP Act.invokes = 1
  once : h.countP Act.invokes ≤ 1
  moved : v.stopReason = none → .moved effectId .issuedUnknown established ∈ h

theorem lawful_nil : Lawful [] := ⟨by simp, by simp⟩

theorem Lawful.latched {h : List Act} (hh : Lawful h) (latch : AttemptLatch) :
    Lawful (h ++ [.latched latch]) := by
  refine ⟨?_, ?_⟩
  · intro e before after hmem
    simp only [List.mem_append, List.mem_singleton, reduceCtorEq, or_false] at hmem
    exact hh.moves e before after hmem
  · intro e
    simpa [List.countP_append, Act.invokesFor, Act.claims] using hh.paid e

theorem Lawful.moved {h : List Act} (hh : Lawful h) (e : String) {before after : EffectState}
    (hmoves : Moves before after) : Lawful (h ++ [.moved e before after]) := by
  refine ⟨?_, ?_⟩
  · intro e' before' after' hmem
    rcases List.mem_append.1 hmem with hmem | hmem
    · exact hh.moves e' before' after' hmem
    · simp only [List.mem_singleton, Act.moved.injEq] at hmem
      obtain ⟨-, rfl, rfl⟩ := hmem
      exact hmoves
  · intro e'
    have hpaid := hh.paid e'
    simp only [List.countP_append, List.countP_singleton, Act.invokesFor]
    simp only [Bool.false_eq_true, ↓reduceIte]
    omega

theorem Audited.latched {effectId : String} {established : EffectState} {v : DispatchOutcome}
    {h : List Act} (hv : Audited effectId established v h) (latch : AttemptLatch) (b : Bool) :
    Audited effectId established { v with latched := b } (h ++ [.latched latch]) := by
  have hcount : (h ++ [Act.latched latch]).countP Act.invokes = h.countP Act.invokes := by
    simp [List.countP_append, Act.invokes]
  refine ⟨?_, ?_, ?_⟩
  · rw [hcount]
    exact hv.dispatched
  · rw [hcount]
    exact hv.once
  · intro hstop
    exact List.mem_append_left _ (hv.moved hstop)

/-! ## The collaborators -/

section Calls

variable {S : AuthoritativeStore → Prop} {I : List Act → Prop} {α : Type}
  {Q : α → List Act → Prop} {h : List Act}

theorem meets_stopIntent {f : Bool → Program α} (hI : I h)
    (hf : ∀ b, (f b).Meets collaborators S I Q h) :
    (Call.stopIntent >>= f).Meets collaborators S I Q h := by
  refine Prog.meets_perform_bind.2 ⟨hI, ?_⟩
  intro w s _
  simpa [AuthoritativeStore.exec] using hf w.stopRequested

theorem meets_readLatch {f : Option AttemptLatch → Program α} {attemptId : String} (hI : I h)
    (hf : ∀ s, S s → (f (s.latches attemptId)).Meets collaborators S I Q h) :
    (Call.readLatch attemptId >>= f).Meets collaborators S I Q h := by
  refine Prog.meets_perform_bind.2 ⟨hI, ?_⟩
  intro w s hs
  simpa [AuthoritativeStore.exec] using hf s hs

theorem meets_readEffectState {f : Option EffectState → Program α} {effectId : String} (hI : I h)
    (hf : ∀ state, (f state).Meets collaborators S I Q h) :
    (Call.readEffectState effectId >>= f).Meets collaborators S I Q h := by
  refine Prog.meets_perform_bind.2 ⟨hI, ?_⟩
  intro w s _
  simpa [AuthoritativeStore.exec] using hf (s.effects effectId)

theorem meets_commitJournal {f : CommitOutcome → Program α} {effectId : String}
    {phase : JournalPhase} (hI : I h) (hf : ∀ outcome, (f outcome).Meets collaborators S I Q h) :
    (Call.commitJournal effectId phase >>= f).Meets collaborators S I Q h := by
  refine Prog.meets_perform_bind.2 ⟨hI, ?_⟩
  intro w s _
  simpa [AuthoritativeStore.exec] using hf w.commit

theorem meets_compareAndSet {f : CasAnswer → Program α} {effectId : String}
    {expected desired : EffectState} {fence : Nat} (hI : I h)
    (hstale : (f .stale).Meets collaborators S I Q h)
    (hlost : (f .lost).Meets collaborators S I Q h)
    (hwon : (f .won).Meets collaborators S I Q (h ++ [.moved effectId expected desired])) :
    (Call.compareAndSet effectId expected desired fence >>= f).Meets collaborators S I Q h := by
  refine Prog.meets_perform_bind.2 ⟨hI, ?_⟩
  intro w s _
  simp only [collaborators_exec, AuthoritativeStore.exec, AuthoritativeStore.cas]
  split
  · simpa using hstale
  · split
    · simpa using hwon
    · simpa using hlost

theorem meets_dispatchEffect {f : DispatchAnswer → Program α} {effectId : String} (hI : I h)
    (hf : ∀ answer, (f answer).Meets collaborators S I Q (h ++ [.invoked effectId])) :
    (Call.dispatchEffect effectId >>= f).Meets collaborators S I Q h := by
  refine Prog.meets_perform_bind.2 ⟨hI, ?_⟩
  intro w s _
  exact hf w.dispatch

theorem meets_writeLatch {f : WriteAnswer → Program α} {latch : AttemptLatch} {fence : Nat}
    (hI : I h) (hstale : (f .stale).Meets collaborators S I Q h)
    (hwritten : (f .written).Meets collaborators S I Q (h ++ [.latched latch])) :
    (Call.writeLatch latch fence >>= f).Meets collaborators S I Q h := by
  refine Prog.meets_perform_bind.2 ⟨hI, ?_⟩
  intro w s _
  simp only [collaborators_exec, AuthoritativeStore.exec, AuthoritativeStore.writeLatch]
  split
  · simpa using hstale
  · simpa using hwritten

end Calls

/-! ## The coordinator's programs -/

namespace MaterialDispatchCoordinator

variable (self : MaterialDispatchCoordinator)

section Reads

variable {S : AuthoritativeStore → Prop} {I : List Act → Prop} {h : List Act}

/-- `authorize` reads, and leaves nothing on record. A decision carries a stop reason exactly when
it refuses, and a latched attempt is allowed no material computation. -/
theorem authorize_meets {Q : ComputationDecision → List Act → Prop} (hI : I h)
    (computationClass : ComputationClass)
    (hQ : ∀ decision, (decision.allowed = true ↔ decision.stopReason = none) →
      (computationClass = .material → (∀ s, S s → s.latches self.attemptId ≠ none) →
        decision.allowed = false) → Q decision h) :
    (self.authorize computationClass).Meets collaborators S I Q h := by
  cases computationClass with
  | unclassified text => exact ⟨hI, hQ _ (by simp) (by simp)⟩
  | pure =>
    refine meets_readLatch hI fun s _ => ?_
    cases s.latches self.attemptId with
    | none => exact ⟨hI, hQ _ (by simp) (by simp)⟩
    | some latch =>
      dsimp only
      split <;> exact ⟨hI, hQ _ (by simp) (by simp)⟩
  | material =>
    unfold authorize stopRequested
    cases self.stopIntent with
    | false =>
      refine meets_readLatch hI fun s hs => ?_
      cases hread : s.latches self.attemptId with
      | none => exact ⟨hI, hQ _ (by simp) fun _ hlatched => absurd hread (hlatched s hs)⟩
      | some latch => exact ⟨hI, hQ _ (by simp) (by simp)⟩
    | true =>
      refine meets_stopIntent hI fun stop => ?_
      cases stop with
      | true => exact ⟨hI, hQ _ (by simp) (by simp)⟩
      | false =>
        refine meets_readLatch hI fun s hs => ?_
        cases hread : s.latches self.attemptId with
        | none => exact ⟨hI, hQ _ (by simp) fun _ hlatched => absurd hread (hlatched s hs)⟩
        | some latch => exact ⟨hI, hQ _ (by simp) (by simp)⟩

/-- A journal commit leaves nothing on record, whatever its outcome. -/
theorem commit_meets {Q : CommitOutcome × Nat → List Act → Prop} (hI : I h) (effectId : String)
    (phase : JournalPhase) (hQ : ∀ result, Q result h) :
    (self.commit effectId phase).Meets collaborators S I Q h := by
  suffices hloop : ∀ remaining made,
      (commitLoop effectId phase remaining made).Meets collaborators S I Q h from
    hloop _ _
  intro remaining
  induction remaining with
  | zero => exact fun made => ⟨hI, hQ _⟩
  | succ remaining ih =>
    intro made
    refine meets_commitJournal hI fun outcome => ?_
    split
    · exact ⟨hI, hQ _⟩
    · exact ih _

end Reads

variable {S : AuthoritativeStore → Prop}

/-- An outcome that is right without the latch is right with it. -/
theorem latchedOutcome_meets {e effectId : String} {established : EffectState} {dispatched : Bool}
    {attempts : Nat} {owed : Bool} {reason : StopReason} {h : List Act} (hh : Lawful h)
    (hv : Audited e established ⟨effectId, dispatched, attempts, owed, some reason, false⟩ h) :
    (self.latchedOutcome effectId dispatched attempts owed reason).Meets collaborators S Lawful
      (Audited e established) h :=
  meets_writeLatch hh ⟨hh, hv⟩ ⟨hh.latched _, hv.latched _ true⟩

/-- The history of a dispatch that has claimed the effect and called the callable. -/
def issuedHistory (effectId : String) (state : EffectState) : List Act :=
  [.moved effectId state .issuedUnknown, .invoked effectId]

theorem lawful_issued {effectId : String} {state : EffectState} (hstate : state.dispatchable = true) :
    Lawful (issuedHistory effectId state) := by
  refine ⟨?_, ?_⟩
  · intro e before after hmem
    simp only [issuedHistory, List.mem_cons, Act.moved.injEq, reduceCtorEq, List.not_mem_nil,
      or_self, or_false] at hmem
    obtain ⟨-, rfl, rfl⟩ := hmem
    exact .inl ⟨hstate, rfl⟩
  · intro e
    simp [issuedHistory, List.countP_cons, Act.invokesFor, Act.claims]

theorem audited_issued {effectId : String} {state : EffectState} {attempts : Nat} {owed : Bool}
    {reason : StopReason} :
    Audited effectId .settledApplied ⟨effectId, true, attempts, owed, some reason, false⟩
      (issuedHistory effectId state) := by
  constructor <;> simp [issuedHistory, List.countP_cons, Act.invokes]

theorem audited_refused {effectId : String} {established : EffectState} {attempts : Nat}
    {owed : Bool} {reason : StopReason} :
    Audited effectId established ⟨effectId, false, attempts, owed, some reason, false⟩ [] := by
  constructor <;> simp

theorem recordReceipt_meets {effectId : String} {state : EffectState}
    (hstate : state.dispatchable = true) (attempts : Nat) :
    (self.recordReceipt effectId attempts).Meets collaborators S Lawful
      (Audited effectId .settledApplied) (issuedHistory effectId state) := by
  have hh : Lawful (issuedHistory effectId state) := lawful_issued hstate
  refine Prog.meets_bind (self.commit_meets hh effectId .receipt fun result => ?_)
  obtain ⟨outcome, receiptAttempts⟩ := result
  dsimp only
  split
  · exact self.latchedOutcome_meets hh audited_issued
  · refine meets_compareAndSet hh ⟨hh, audited_issued⟩
      (self.latchedOutcome_meets hh audited_issued) ⟨hh.moved _ (.inr ⟨rfl, rfl⟩), ?_⟩
    constructor <;> simp [issuedHistory, List.countP_cons, Act.invokes]

theorem issue_meets {effectId : String} {state : EffectState} (hstate : state.dispatchable = true)
    (attempts : Nat) :
    (self.issue effectId attempts).Meets collaborators S Lawful
      (Audited effectId .settledApplied) [.moved effectId state .issuedUnknown] := by
  refine meets_dispatchEffect (lawful_nil.moved _ (.inl ⟨hstate, rfl⟩)) fun answer => ?_
  cases answer with
  | raised => exact self.latchedOutcome_meets (lawful_issued hstate) audited_issued
  | returned => exact self.recordReceipt_meets hstate attempts

theorem claim_meets {effectId : String} {state : EffectState} (hstate : state.dispatchable = true) :
    (self.claim effectId state).Meets collaborators S Lawful
      (Audited effectId .settledApplied) [] := by
  refine Prog.meets_bind (self.commit_meets lawful_nil effectId .intent fun result => ?_)
  obtain ⟨outcome, attempts⟩ := result
  dsimp only
  split
  · exact self.latchedOutcome_meets lawful_nil audited_refused
  · exact meets_compareAndSet lawful_nil ⟨lawful_nil, audited_refused⟩
      ⟨lawful_nil, audited_refused⟩ (self.issue_meets hstate attempts)

theorem dispatchMaterial_meets (effectId : String) :
    (self.dispatchMaterial effectId).Meets collaborators S Lawful
      (Audited effectId .settledApplied) [] := by
  refine Prog.meets_bind
    (self.authorize_meets lawful_nil .material fun decision hreason _ => ?_)
  cases hallowed : decision.allowed with
  | false =>
    -- the refusal reads the latch once more, and passes the decision's reason on
    have hstop : decision.stopReason ≠ none := by simp [← hreason, hallowed]
    obtain ⟨reason, hreason⟩ := Option.ne_none_iff_exists'.1 hstop
    refine meets_readLatch lawful_nil fun s _ => ⟨lawful_nil, ?_⟩
    rw [hreason]
    exact audited_refused
  | true =>
    refine meets_readEffectState lawful_nil fun state? => ?_
    cases state? with
    | none => exact ⟨lawful_nil, audited_refused⟩
    | some state =>
      dsimp only
      split
      · exact ⟨lawful_nil, audited_refused⟩
      · split
        · exact ⟨lawful_nil, audited_refused⟩
        · next hstate => exact self.claim_meets (by simpa using hstate)

/-- Once the attempt's latch is on record, `dispatch_material` does nothing but read. -/
theorem dispatchMaterial_latched (hS : ∀ s, S s → s.latches self.attemptId ≠ none)
    (effectId : String) :
    (self.dispatchMaterial effectId).Meets collaborators S (fun h => h.countP Act.invokes = 0)
      (fun _ _ => True) [] := by
  have hnil : ([] : List Act).countP Act.invokes = 0 := rfl
  refine Prog.meets_bind (self.authorize_meets hnil .material fun decision _ hrefused => ?_)
  rw [hrefused rfl hS]
  exact meets_readLatch hnil fun s _ => ⟨hnil, trivial⟩

theorem reconcile_meets (effectId : String) (resolvedState : EffectState) :
    (self.reconcile effectId resolvedState).Meets collaborators S Lawful
      (Audited effectId resolvedState) [] := by
  unfold reconcile
  split
  · exact ⟨lawful_nil, audited_refused⟩
  · next hresolved =>
    have hreconciled : resolvedState.reconciled = true := by simpa using hresolved
    refine meets_readEffectState lawful_nil fun state? => ?_
    cases state? with
    | none => exact ⟨lawful_nil, audited_refused⟩
    | some current =>
      dsimp only
      split
      · exact ⟨lawful_nil, audited_refused⟩
      · split
        · exact ⟨lawful_nil, audited_refused⟩
        · refine meets_compareAndSet lawful_nil ⟨lawful_nil, audited_refused⟩
            ⟨lawful_nil, audited_refused⟩
            ⟨lawful_nil.moved _ (.inr ⟨rfl, hreconciled⟩), ?_⟩
          constructor <;> simp [Act.invokes]

end MaterialDispatchCoordinator

/-! ## Interleavings -/

abbrev Calls := Pool Op Answer Audit AuthoritativeStore Request Act

/-- A call starts, takes its next step or is abandoned, or the store's environment moves. -/
abbrev Event := Label Request World Environment

def next (p : Calls) (event : Event) : Calls := p.step collaborators Request.program event

def after (s : AuthoritativeStore) (events : List Event) : Calls := run next (Pool.idle s) events

namespace Request

def audits : Request → Audit → List Act → Prop
  | .authorize .., .decision _, h => h = []
  | .dispatchMaterial _ effectId, .outcome v, h => Audited effectId .settledApplied v h
  | .reconcile _ effectId resolvedState, .outcome v, h => Audited effectId resolvedState v h
  | _, _, _ => False

/-- The call is a `dispatch_material` of the attempt. -/
def dispatchesFor (attemptId : String) : Request → Prop
  | .dispatchMaterial coordinator _ => coordinator.attemptId = attemptId
  | _ => False

theorem program_meets (request : Request) :
    request.program.Meets collaborators (fun _ => True) Lawful request.audits [] := by
  cases request with
  | authorize coordinator computationClass =>
    exact Prog.meets_bind
      (coordinator.authorize_meets lawful_nil _ fun _ _ _ => ⟨lawful_nil, rfl⟩)
  | dispatchMaterial coordinator effectId =>
    exact Prog.meets_bind ((coordinator.dispatchMaterial_meets effectId).mono
      (fun _ hh => hh) fun _ _ hh hv => ⟨hh, hv⟩)
  | reconcile coordinator effectId resolvedState =>
    exact Prog.meets_bind ((coordinator.reconcile_meets effectId resolvedState).mono
      (fun _ hh => hh) fun _ _ hh hv => ⟨hh, hv⟩)

/-- A call that starts once the attempt's latch is on record does not dispatch for it. -/
theorem program_latched (attemptId : String) (request : Request) :
    request.program.Meets collaborators (fun s => s.latches attemptId ≠ none)
      (fun h => request.dispatchesFor attemptId → h.countP Act.invokes = 0)
      (fun _ _ => True) [] := by
  cases request with
  | authorize => exact Prog.meets_of_forall (by simp [dispatchesFor]) (by simp) _ _
  | reconcile => exact Prog.meets_of_forall (by simp [dispatchesFor]) (by simp) _ _
  | dispatchMaterial coordinator effectId =>
    by_cases hattempt : coordinator.attemptId = attemptId
    · subst hattempt
      exact Prog.meets_bind ((coordinator.dispatchMaterial_latched (fun _ hs => hs) effectId).mono
        (fun _ hh _ => hh) fun _ _ hh _ => ⟨fun _ => hh, trivial⟩)
    · exact Prog.meets_of_forall (fun _ h => absurd h hattempt) (by simp) _ _

end Request

namespace AuthoritativeStore

/-- All a call does to the ledger: nothing, or the one move it records. -/
theorem exec_cases (op : Op) (w : World) (s : AuthoritativeStore) :
    ((exec op w s).2.1.effects = s.effects ∧
      ∀ e before after, Act.moved e before after ∉ (exec op w s).2.2) ∨
    ∃ e before after, s.effects e = some before ∧
      (exec op w s).2.1.effects = Function.update s.effects e (some after) ∧
      (exec op w s).2.2 = [.moved e before after] := by
  cases op with
  | compareAndSet effectId expected desired fence =>
    simp only [exec, cas]
    split
    · exact .inl ⟨rfl, by simp⟩
    · split
      · next hexpected => exact .inr ⟨effectId, expected, desired, hexpected, rfl, by simp⟩
      · exact .inl ⟨rfl, by simp⟩
  | writeLatch latch fence =>
    simp only [exec, writeLatch]
    split <;> exact .inl ⟨rfl, by simp⟩
  | dispatchEffect effectId => exact .inl ⟨rfl, by simp [exec]⟩
  | stopIntent => exact .inl ⟨rfl, by simp [exec]⟩
  | readLatch attemptId => exact .inl ⟨rfl, by simp [exec]⟩
  | readEffectState effectId => exact .inl ⟨rfl, by simp [exec]⟩
  | commitJournal effectId phase => exact .inl ⟨rfl, by simp [exec]⟩

theorem claims_eq_zero {acts : List Act} (h : ∀ e before after, Act.moved e before after ∉ acts)
    (effectId : String) : acts.countP (Act.claims effectId) = 0 := by
  rw [List.countP_eq_zero]
  intro act hact
  cases act with
  | moved e before after => exact absurd hact (h e before after)
  | invoked e => simp [Act.claims]
  | latched latch => simp [Act.claims]

theorem exec_latches {attemptId : String} (op : Op) (w : World) (s : AuthoritativeStore)
    (hs : s.latches attemptId ≠ none) : (exec op w s).2.1.latches attemptId ≠ none := by
  cases op with
  | compareAndSet effectId expected desired fence =>
    simp only [exec, cas]
    split
    · exact hs
    · split <;> exact hs
  | writeLatch latch fence =>
    simp only [exec, writeLatch]
    split
    · exact hs
    · simp only [Function.update_apply]
      split
      · simp
      · exact hs
  | _ => exact hs

theorem environment_latches (e : Environment) (s : AuthoritativeStore) :
    (environment e s).latches = s.latches := by
  cases e with
  | predeclare effectId =>
    simp only [environment]
    split <;> rfl
  | raiseGeneration generation => rfl

theorem environment_effects {e : Environment} {s : AuthoritativeStore} {effectId : String}
    {state : EffectState} (hstate : s.effects effectId = some state) :
    (environment e s).effects effectId = some state := by
  cases e with
  | predeclare declared =>
    simp only [environment]
    split
    · next hnone =>
      have hne : effectId ≠ declared := by
        rintro rfl
        cases hnone.symm.trans hstate
      simpa [Function.update_apply, hne] using hstate
    · exact hstate
  | raiseGeneration generation => exact hstate

/-- One while the effect can be claimed without a proof that it was not applied. -/
def claimable (effectId : String) (s : AuthoritativeStore) : Nat :=
  match s.effects effectId with
  | none => 1
  | some state => if state.dispatchable then 1 else 0

theorem claimable_le (effectId : String) (s : AuthoritativeStore) : claimable effectId s ≤ 1 := by
  unfold claimable
  split
  · exact le_refl 1
  · split <;> omega

/-- A claim takes what makes the effect claimable; only a proof of non-application returns it. -/
theorem exec_claimable {h : List Act} (effectId : String) (op : Op) (w : World)
    (s : AuthoritativeStore) (hh : Lawful (h ++ (exec op w s).2.2)) :
    (exec op w s).2.2.countP (Act.claims effectId) + claimable effectId (exec op w s).2.1 ≤
      (exec op w s).2.2.countP (Act.reopens effectId) + claimable effectId s := by
  obtain ⟨heffects, hmoves⟩ | ⟨e, before, after, hbefore, heffects, hacts⟩ := exec_cases op w s
  · rw [claims_eq_zero hmoves]
    simp only [claimable, heffects]
    omega
  · rw [hacts] at hh ⊢
    have hmoves := hh.moves e before after (by simp)
    simp only [claimable, heffects, Function.update_apply, List.countP_singleton]
    by_cases he : effectId = e
    · subst he
      rw [hbefore]
      obtain ⟨hdispatchable, rfl⟩ | ⟨rfl, hreconciled⟩ := hmoves
      · have hissued : EffectState.issuedUnknown.dispatchable = false := rfl
        simp [Act.claims, hdispatchable, hissued]
      · cases after <;> simp_all [Act.claims, Act.reopens, EffectState.dispatchable,
          EffectState.reconciled]
    · have hclaims : Act.claims effectId (.moved e before after) = false := by
        unfold Act.claims
        split
        · next heq =>
          cases heq
          simp [Ne.symm he]
        · rfl
      simp [he, hclaims]

theorem environment_claimable (effectId : String) (e : Environment) (s : AuthoritativeStore) :
    claimable effectId (environment e s) ≤ claimable effectId s := by
  cases hstate : s.effects effectId with
  | none =>
    have hone : claimable effectId s = 1 := by simp [claimable, hstate]
    exact hone ▸ claimable_le effectId _
  | some state => simp [claimable, hstate, environment_effects hstate]

end AuthoritativeStore

open AuthoritativeStore

/-! ## Every run -/

theorem after_meets (s : AuthoritativeStore) (events : List Event) :
    (after s events).MeetsFrom collaborators (fun _ => True) (fun _ => Lawful) Request.audits 0 :=
  Pool.run_meets (p := Pool.idle s) (fun _ _ _ _ => trivial) (fun _ _ _ => trivial)
    Request.program_meets trivial events

theorem next_meets (s : AuthoritativeStore) (events : List Event) (event : Event) :
    (next (after s events) event).MeetsFrom collaborators (fun _ => True) (fun _ => Lawful)
      Request.audits 0 :=
  Pool.step_meets (fun _ _ _ _ => trivial) (fun _ _ _ => trivial) Request.program_meets _ event
    (after_meets s events)

theorem client_meets {s : AuthoritativeStore} {events : List Event}
    {t : Client Op Answer Audit Request Act} (ht : t ∈ (after s events).clients) :
    t.Meets collaborators (fun _ => True) (fun _ => Lawful) Request.audits := by
  obtain ⟨i, hi⟩ := List.mem_iff_getElem?.1 ht
  exact (after_meets s events).2.2 i t (Nat.zero_le i) hi

theorem after_append (s : AuthoritativeStore) (first second : List Event) :
    after s (first ++ second) = run next (after s first) second :=
  run_append _ _ _ _

/-- One event moves an entry of the ledger as the ledger admits, or not at all. -/
theorem next_moves (s : AuthoritativeStore) (events : List Event) (event : Event) {e : String}
    {before : EffectState} (hbefore : (after s events).shared.effects e = some before) :
    (next (after s events) event).shared.effects e = some before ∨
      ∃ state, (next (after s events) event).shared.effects e = some state ∧ Moves before state := by
  have hmeets := next_meets s events event
  unfold next at hmeets ⊢
  obtain h | ⟨_, _, h⟩ | ⟨i, w, request, op, k, hist, _, hi, h⟩ | ⟨_, _, _, _, h⟩ | ⟨_, _, h⟩ :=
    Pool.step_cases collaborators Request.program (after s events) event <;>
    rw [h] at hmeets ⊢
  · exact .inl hbefore
  · exact .inl hbefore
  · have hlt := (List.getElem?_eq_some_iff.1 hi).1
    have hlawful := (hmeets.2.2 i _ (Nat.zero_le i) (List.getElem?_set_self hlt)).invariant
    simp only [collaborators_exec] at hlawful ⊢
    obtain ⟨heffects, -⟩ | ⟨e', before', state, hexpected, heffects, hacts⟩ :=
      exec_cases op w (after s events).shared
    · exact .inl (heffects ▸ hbefore)
    · rw [heffects, Function.update_apply]
      split
      · next he =>
        subst he
        obtain rfl : before = before' := Option.some.inj (hbefore.symm.trans hexpected)
        exact .inr ⟨state, rfl, hlawful.moves e before state (by simp [hacts])⟩
      · exact .inl hbefore
  · exact .inl hbefore
  · exact .inl (environment_effects hbefore)

theorem not_moves_settled (state : EffectState) : ¬ Moves .settledApplied state := by
  simp [Moves, EffectState.dispatchable]

theorem settled_forever {s : AuthoritativeStore} {events : List Event} {e : String}
    (hsettled : (after s events).shared.effects e = some .settledApplied) (later : List Event) :
    (after s (events ++ later)).shared.effects e = some .settledApplied := by
  induction later generalizing events with
  | nil => simpa using hsettled
  | cons event later ih =>
    have hnext : (after s (events ++ [event])).shared.effects e = some .settledApplied := by
      rw [after, run_concat]
      obtain h | ⟨state, _, hmoves⟩ := next_moves s events event hsettled
      · exact h
      · exact absurd hmoves (not_moves_settled state)
    simpa using ih hnext

def invocations (effectId : String) (p : Calls) : Nat := p.total (Act.invokesFor effectId)

def reopenings (effectId : String) (p : Calls) : Nat := p.total (Act.reopens effectId)

def claimings (effectId : String) (p : Calls) : Nat := p.total (Act.claims effectId)

theorem claimings_le (s : AuthoritativeStore) (events : List Event) (effectId : String) :
    claimings effectId (after s events) ≤ 1 + reopenings effectId (after s events) := by
  have hbalance : claimings effectId (after s events) +
      claimable effectId (after s events).shared ≤
        claimable effectId s + reopenings effectId (after s events) :=
    Pool.run_balance (fun _ _ _ _ => trivial) (fun _ _ _ => trivial) Request.program_meets
      (fun _ op w s _ hh => exec_claimable effectId op w s hh)
      (environment_claimable effectId) trivial events
  have hone := claimable_le effectId s
  omega

theorem invocations_le_claimings (s : AuthoritativeStore) (events : List Event)
    (effectId : String) :
    invocations effectId (after s events) ≤ claimings effectId (after s events) :=
  Pool.total_le fun _ ht => (client_meets ht).invariant.paid effectId

/-- The world is touched at most once for the effect, and once more for each proof that it was
not. -/
theorem invocations_le (s : AuthoritativeStore) (events : List Event) (effectId : String) :
    invocations effectId (after s events) ≤ 1 + reopenings effectId (after s events) := by
  have hpaid := invocations_le_claimings s events effectId
  have hclaimed := claimings_le s events effectId
  omega

/-- The calls that start after an attempt's latch is on record never dispatch for it. -/
theorem latched_invokes_nothing {s : AuthoritativeStore} {events : List Event} {attemptId : String}
    (hlatched : (after s events).shared.latches attemptId ≠ none) (later : List Event) {i : Nat}
    {t : Client Op Answer Audit Request Act} (hi : (after s events).clients.length ≤ i)
    (ht : (after s (events ++ later)).clients[i]? = some t)
    (hrequest : t.request.dispatchesFor attemptId) : t.history.countP Act.invokes = 0 := by
  rw [after_append] at ht
  have hmeets := Pool.run_meets (fun op w s hs => exec_latches op w s hs)
    (fun e s hs => by simpa [environment_latches] using hs) (Request.program_latched attemptId)
    hlatched later
  exact (hmeets.2.2 i t hi ht).invariant hrequest

/-- Material dispatch safety, in every run: an entry of the ledger moves only as the ledger admits
and a settled one never; the callable is invoked for an effect at most once and once more for each
proof of non-application; `dispatched` tells whether the call invoked the callable, exactly once; a
dispatch without a stop reason is the call that settled the effect, and a reconciliation without
one the call that moved it to the state asked for; and a dispatch that starts once its attempt's
latch is on record invokes nothing. -/
theorem material_dispatch_safety (s : AuthoritativeStore) (events : List Event) :
    (∀ event e before, (after s events).shared.effects e = some before →
      (next (after s events) event).shared.effects e = some before ∨
        ∃ state, (next (after s events) event).shared.effects e = some state ∧
          Moves before state) ∧
    (∀ later e, (after s events).shared.effects e = some .settledApplied →
      (after s (events ++ later)).shared.effects e = some .settledApplied) ∧
    (∀ e, invocations e (after s events) ≤ 1 + reopenings e (after s events)) ∧
    (∀ t ∈ (after s events).clients, ∀ v, t.result? = some (.outcome v) →
      (v.dispatched = true ↔ t.history.countP Act.invokes = 1) ∧
        t.history.countP Act.invokes ≤ 1) ∧
    (∀ t ∈ (after s events).clients, ∀ v, t.result? = some (.outcome v) → v.stopReason = none →
      (∀ coordinator e, t.request = .dispatchMaterial coordinator e →
        .moved e .issuedUnknown .settledApplied ∈ t.history) ∧
      ∀ coordinator e resolved, t.request = .reconcile coordinator e resolved →
        .moved e .issuedUnknown resolved ∈ t.history) ∧
    (∀ attemptId later i t, (after s events).shared.latches attemptId ≠ none →
      (after s events).clients.length ≤ i → (after s (events ++ later)).clients[i]? = some t →
      t.request.dispatchesFor attemptId → t.history.countP Act.invokes = 0) := by
  refine ⟨fun event e before => next_moves s events event, fun later e h => settled_forever h later,
    invocations_le s events, ?_, ?_, ?_⟩
  · intro t ht v hv
    have haudits := (client_meets ht).returned hv
    obtain ⟨request, prog, h⟩ := t
    cases request with
    | authorize => exact haudits.elim
    | dispatchMaterial => exact ⟨haudits.dispatched, haudits.once⟩
    | reconcile => exact ⟨haudits.dispatched, haudits.once⟩
  · intro t ht v hv hstop
    have haudits := (client_meets ht).returned hv
    refine ⟨?_, ?_⟩
    · intro coordinator e hrequest
      rw [hrequest] at haudits
      exact haudits.moved hstop
    · intro coordinator e resolved hrequest
      rw [hrequest] at haudits
      exact haudits.moved hstop
  · intro attemptId later i t hlatched hi ht hrequest
    exact latched_invokes_nothing hlatched later hi ht hrequest

def plainCoordinator : MaterialDispatchCoordinator where
  attemptId := "attempt"
  fence := 8
  commitRetryLimit := 0
  purePermittedWhileLatched := false
  stopIntent := false
  attemptId_valid := by decide
  fence_le := by decide
  commitRetryLimit_le := by decide

def oneEffect (state : EffectState) : AuthoritativeStore where
  effects := fun e => if e = "effect" then some state else none
  latches := fun _ => none
  generation := 8

def calm : World := ⟨false, .committed, .returned⟩

def fullDispatch : List Event :=
  .start (.dispatchMaterial plainCoordinator "effect") :: List.replicate 7 (.step 0 calm)

/-- An uninterrupted dispatch of a predeclared effect returns without a stop reason: it has invoked
the callable once and settled the effect, and later dispatches find it settled. -/
theorem material_dispatch_safety_full :
    ∃ t ∈ (after (oneEffect .predeclared) fullDispatch).clients,
      t.history.countP Act.invokes = 1 ∧
      .moved "effect" .issuedUnknown .settledApplied ∈ t.history ∧
      (after (oneEffect .predeclared) (fullDispatch ++ fullDispatch)).shared.effects "effect" =
        some .settledApplied := by
  obtain ⟨-, hsettled, -, haudit, hmoved, -⟩ :=
    material_dispatch_safety (oneEffect .predeclared) fullDispatch
  obtain ⟨t, ht⟩ : ∃ t, (after (oneEffect .predeclared) fullDispatch).clients = [t] := ⟨_, rfl⟩
  have hmem : t ∈ (after (oneEffect .predeclared) fullDispatch).clients := by simp [ht]
  have hresult : t.result? = some (.outcome ⟨"effect", true, 2, false, none, false⟩) := by
    cases ht
    rfl
  have hrequest : t.request = .dispatchMaterial plainCoordinator "effect" := by
    cases ht
    rfl
  exact ⟨t, hmem, (haudit t hmem _ hresult).1.1 rfl, (hmoved t hmem _ hresult rfl).1 _ _ hrequest,
    hsettled fullDispatch "effect" rfl⟩

/-- A reconciliation that proves the effect was not applied returns without a stop reason and moves
nothing to `settled_applied`. -/
theorem reconcile_without_settling :
    ¬ ∀ (s : AuthoritativeStore) (events : List Event),
      ∀ t ∈ (after s events).clients, ∀ v, t.result? = some (.outcome v) → v.stopReason = none →
        ∃ e before, Act.moved e before .settledApplied ∈ t.history := by
  intro h
  obtain ⟨t, ht⟩ : ∃ t, (after (oneEffect .issuedUnknown)
      [.start (.reconcile plainCoordinator "effect" .provedNotApplied), .step 0 calm,
        .step 0 calm]).clients = [t] := ⟨_, rfl⟩
  obtain ⟨e, before, hmem⟩ := h _ _ t (by rw [ht]; simp) ⟨"effect", false, 0, false, none, false⟩
    (by cases ht; rfl) rfl
  cases ht
  have hhistory : Act.moved e before .settledApplied ∈
      [Act.moved "effect" .issuedUnknown .provedNotApplied] := hmem
  simp at hhistory

end OmniviaCore.Dispatch
