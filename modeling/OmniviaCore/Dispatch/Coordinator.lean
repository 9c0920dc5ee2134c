import OmniviaCore.Lib.Clients

/-!
# The material-effect dispatch coordinator

`service/material_dispatch_safety.py`. The collaborators of a `MaterialDispatchCoordinator` are calls on one
shared object, and `authorize`, `dispatch_material` and `reconcile` are programs over these calls. What
the source catches as an exception is an answer here; what it does not catch is the pool's `abandon`.

`AuthoritativeStore` is a protocol in the source; `AuthoritativeStore.cas` and `writeLatch` are what its
docstring requires: writes atomic, refused to a stale generation first, and compare-and-set.
-/

namespace OmniviaCore.Dispatch

open Lib

/-- `COMPUTATION_CLASSES`, and any other string. -/
inductive ComputationClass where
  | pure
  | material
  | unclassified (text : String)

/-- `COMMIT_OUTCOMES`, and any other string. -/
inductive CommitOutcome where
  | committed
  | failed
  | uncertain
  | unclassified (text : String)
  deriving DecidableEq

/-- `EFFECT_STATES`, and any other string. -/
inductive EffectState where
  | predeclared
  | issuedUnknown
  | settledApplied
  | provedNotApplied
  | unclassified (text : String)
  deriving DecidableEq

namespace EffectState

/-- Membership in `EFFECT_STATES`. -/
def known : EffectState → Bool
  | .unclassified _ => false
  | _ => true

/-- Membership in `DISPATCHABLE_EFFECT_STATES`. -/
def dispatchable : EffectState → Bool
  | .predeclared | .provedNotApplied => true
  | _ => false

/-- Membership in `RECONCILED_EFFECT_STATES`. -/
def reconciled : EffectState → Bool
  | .settledApplied | .provedNotApplied => true
  | _ => false

end EffectState

/-- `JOURNAL_PHASE_INTENT` and `JOURNAL_PHASE_RECEIPT`. -/
inductive JournalPhase where
  | intent
  | receipt
  deriving DecidableEq

/-- The `STOP_*` reasons. -/
inductive StopReason where
  | attemptLatched
  | commitRetriesExhausted
  | commitUncertain
  | dispatchUncertain
  | effectNotDeclared
  | effectNotDispatchable
  | effectNotReconcilable
  | effectStateRaced
  | pureNotPermittedWhileLatched
  | runStopRequested
  | staleFence
  | unknownCommitOutcome
  | unknownComputationClass
  | unknownEffectState
  | unknownReconciledState
  deriving DecidableEq

/-- `AttemptLatch`. -/
structure AttemptLatch where
  attemptId : String
  stopReason : StopReason
  reconciliationRequired : Bool
  effectId : Option String

/-- `DispatchOutcome`. -/
structure DispatchOutcome where
  effectId : String
  dispatched : Bool
  commitAttempts : Nat
  reconciliationRequired : Bool
  stopReason : Option StopReason := none
  latched : Bool := false

/-- `ComputationDecision`. -/
structure ComputationDecision where
  computationClass : ComputationClass
  allowed : Bool
  stopReason : Option StopReason := none

/-! ## The shared object -/

/-- The evidence of an `AuthoritativeStore`: the effect ledger, the Attempt latches and the current
fencing generation. -/
structure AuthoritativeStore where
  effects : String → Option EffectState
  latches : String → Option AttemptLatch
  generation : Nat

/-- The answers of `compare_and_set_effect_state`. -/
inductive CasAnswer where
  | stale
  | lost
  | won
  deriving DecidableEq

/-- The answers of `write_latch`. -/
inductive WriteAnswer where
  | stale
  | written
  deriving DecidableEq

/-- How the dispatch callable ended. -/
inductive DispatchAnswer where
  | returned
  | raised
  deriving DecidableEq

/-- The calls of a coordinator on its collaborators. -/
inductive Op where
  | stopIntent
  | readLatch (attemptId : String)
  | readEffectState (effectId : String)
  | commitJournal (effectId : String) (phase : JournalPhase)
  | compareAndSet (effectId : String) (expected desired : EffectState) (fence : Nat)
  | dispatchEffect (effectId : String)
  | writeLatch (latch : AttemptLatch) (fence : Nat)

abbrev Answer : Op → Type
  | .stopIntent => Bool
  | .readLatch _ => Option AttemptLatch
  | .readEffectState _ => Option EffectState
  | .commitJournal .. => CommitOutcome
  | .compareAndSet .. => CasAnswer
  | .dispatchEffect _ => DispatchAnswer
  | .writeLatch .. => WriteAnswer

/-- What the store does not decide: the stop intent, the journal and the world. -/
structure World where
  stopRequested : Bool
  commit : CommitOutcome
  dispatch : DispatchAnswer

/-- What a call leaves on record: a ledger move, an invocation of the dispatch callable, a latch. -/
inductive Act where
  | moved (effectId : String) (before after : EffectState)
  | invoked (effectId : String)
  | latched (latch : AttemptLatch)

/-- What happens to the store outside the coordinators: an identity is predeclared once, and the
fencing generation rises. -/
inductive Environment where
  | predeclare (effectId : String)
  | raiseGeneration (generation : Nat)

namespace AuthoritativeStore

/-- `compare_and_set_effect_state`: the generation is asked first, then the stored state. -/
def cas (s : AuthoritativeStore) (effectId : String) (expected desired : EffectState)
    (fence : Nat) : CasAnswer × AuthoritativeStore :=
  if fence < s.generation then (.stale, s)
  else if s.effects effectId = some expected then
    (.won, { s with effects := Function.update s.effects effectId (some desired) })
  else (.lost, s)

/-- `write_latch`. -/
def writeLatch (s : AuthoritativeStore) (latch : AttemptLatch) (fence : Nat) :
    WriteAnswer × AuthoritativeStore :=
  if fence < s.generation then (.stale, s)
  else (.written, { s with latches := Function.update s.latches latch.attemptId (some latch) })

def exec (op : Op) (w : World) (s : AuthoritativeStore) :
    Answer op × AuthoritativeStore × List Act :=
  match op with
  | .stopIntent => (w.stopRequested, s, [])
  | .readLatch attemptId => (s.latches attemptId, s, [])
  | .readEffectState effectId => (s.effects effectId, s, [])
  | .commitJournal _ _ => (w.commit, s, [])
  | .compareAndSet effectId expected desired fence =>
    let (answer, s') := s.cas effectId expected desired fence
    (answer, s', if answer = .won then [.moved effectId expected desired] else [])
  | .dispatchEffect effectId => (w.dispatch, s, [.invoked effectId])
  | .writeLatch latch fence =>
    let (answer, s') := s.writeLatch latch fence
    (answer, s', if answer = .written then [.latched latch] else [])

def environment (e : Environment) (s : AuthoritativeStore) : AuthoritativeStore :=
  match e with
  | .predeclare effectId =>
    if s.effects effectId = none then
      { s with effects := Function.update s.effects effectId (some .predeclared) }
    else s
  | .raiseGeneration generation => { s with generation := max s.generation generation }

end AuthoritativeStore

def collaborators : Obj Op Answer AuthoritativeStore World Act Environment where
  exec := AuthoritativeStore.exec
  env := AuthoritativeStore.environment

@[simp] theorem collaborators_exec : collaborators.exec = AuthoritativeStore.exec := rfl

@[simp] theorem collaborators_env : collaborators.env = AuthoritativeStore.environment := rfl

/-! ## The coordinator -/

/-- `MAX_COMMIT_RETRY_LIMIT`. -/
def maxCommitRetryLimit : Nat := 8

/-- `MAX_FENCE`. -/
def maxFence : Nat := 1000000000

/-- `_ATTEMPT_ID`: an alphanumeric character and at most 127 of a narrow set. -/
def isAttemptId (text : String) : Bool :=
  match text.toList with
  | [] => false
  | first :: rest =>
    first.isAlphanum && rest.length ≤ 127 &&
      rest.all fun c => c.isAlphanum || c == '.' || c == '_' || c == ':' || c == '-'

/-- A constructed `MaterialDispatchCoordinator`: what `__init__` checked is a field. `stopIntent`
tells whether a stop authority was supplied. -/
structure MaterialDispatchCoordinator where
  attemptId : String
  fence : Nat
  commitRetryLimit : Nat
  purePermittedWhileLatched : Bool
  stopIntent : Bool
  attemptId_valid : isAttemptId attemptId = true
  fence_le : fence ≤ maxFence
  commitRetryLimit_le : commitRetryLimit ≤ maxCommitRetryLimit

abbrev Program := Prog Op Answer

namespace Call

/-- `self._stop_intent()`. -/
def stopIntent : Program Bool := Prog.perform Op.stopIntent

/-- `self._store.read_latch`. -/
def readLatch (attemptId : String) : Program (Option AttemptLatch) :=
  Prog.perform (Op.readLatch attemptId)

/-- `self._store.read_effect_state`. -/
def readEffectState (effectId : String) : Program (Option EffectState) :=
  Prog.perform (Op.readEffectState effectId)

/-- `self._commit_journal`. -/
def commitJournal (effectId : String) (phase : JournalPhase) : Program CommitOutcome :=
  Prog.perform (Op.commitJournal effectId phase)

/-- `self._store.compare_and_set_effect_state`. -/
def compareAndSet (effectId : String) (expected desired : EffectState) (fence : Nat) :
    Program CasAnswer :=
  Prog.perform (Op.compareAndSet effectId expected desired fence)

/-- `self._dispatch_effect`. -/
def dispatchEffect (effectId : String) : Program DispatchAnswer :=
  Prog.perform (Op.dispatchEffect effectId)

/-- `self._store.write_latch`. -/
def writeLatch (latch : AttemptLatch) (fence : Nat) : Program WriteAnswer :=
  Prog.perform (Op.writeLatch latch fence)

end Call

namespace MaterialDispatchCoordinator

variable (self : MaterialDispatchCoordinator)

/-- `max_commit_attempts`. -/
def maxCommitAttempts : Nat := self.commitRetryLimit + 1

/-- `read_latch`. -/
def readLatch : Program (Option AttemptLatch) := Call.readLatch self.attemptId

/-- `stop_requested`. -/
def stopRequested : Program Bool :=
  if self.stopIntent then Call.stopIntent else pure false

/-- `authorize`. -/
def authorize (computationClass : ComputationClass) : Program ComputationDecision :=
  match computationClass with
  | .unclassified _ =>
    pure { computationClass, allowed := false, stopReason := some .unknownComputationClass }
  | .material => do
    if ← self.stopRequested then
      pure { computationClass, allowed := false, stopReason := some .runStopRequested }
    else
      match ← self.readLatch with
      | none => pure { computationClass, allowed := true }
      | some _ => pure { computationClass, allowed := false, stopReason := some .attemptLatched }
  | .pure => do
    match ← self.readLatch with
    | none => pure { computationClass, allowed := true }
    | some _ =>
      if self.purePermittedWhileLatched then pure { computationClass, allowed := true }
      else
        pure { computationClass, allowed := false,
               stopReason := some .pureNotPermittedWhileLatched }

/-- `_stop_for_commit`. -/
def stopForCommit : CommitOutcome → StopReason
  | .failed => .commitRetriesExhausted
  | .uncertain => .commitUncertain
  | _ => .unknownCommitOutcome

/-- The loop of `_commit`, with `remaining` tries left and `made` behind it. -/
def commitLoop (effectId : String) (phase : JournalPhase) :
    (remaining made : Nat) → Program (CommitOutcome × Nat)
  | 0, made => pure (.failed, made)
  | remaining + 1, made => do
    let outcome ← Call.commitJournal effectId phase
    if outcome ≠ .failed then pure (outcome, made + 1)
    else commitLoop effectId phase remaining (made + 1)

/-- `_commit`. -/
def commit (effectId : String) (phase : JournalPhase) : Program (CommitOutcome × Nat) :=
  commitLoop effectId phase self.maxCommitAttempts 0

/-- `_latched_outcome`: the stop is written before it is returned. -/
def latchedOutcome (effectId : String) (dispatched : Bool) (commitAttempts : Nat)
    (reconciliationRequired : Bool) (stopReason : StopReason) : Program DispatchOutcome := do
  let latch : AttemptLatch :=
    { attemptId := self.attemptId, stopReason, reconciliationRequired, effectId := some effectId }
  let outcome : DispatchOutcome :=
    { effectId, dispatched, commitAttempts, reconciliationRequired, stopReason := some stopReason }
  match ← Call.writeLatch latch self.fence with
  | .stale => pure outcome
  | .written => pure { outcome with latched := true }

/-- The part of `dispatch_material` after the callable returned: the receipt, then the
settlement. -/
def recordReceipt (effectId : String) (attempts : Nat) : Program DispatchOutcome := do
  let (outcome, receiptAttempts) ← self.commit effectId .receipt
  let attempts := attempts + receiptAttempts
  if outcome ≠ .committed then
    self.latchedOutcome effectId true attempts true (stopForCommit outcome)
  else
    match ← Call.compareAndSet effectId .issuedUnknown .settledApplied self.fence with
    | .stale => pure ⟨effectId, true, attempts, true, some .staleFence, false⟩
    | .lost => self.latchedOutcome effectId true attempts true .effectStateRaced
    | .won => pure ⟨effectId, true, attempts, false, none, false⟩

/-- The part of `dispatch_material` after the claim was won: the one call of the callable. -/
def issue (effectId : String) (attempts : Nat) : Program DispatchOutcome := do
  match ← Call.dispatchEffect effectId with
  | .raised => self.latchedOutcome effectId true attempts true .dispatchUncertain
  | .returned => self.recordReceipt effectId attempts

/-- The part of `dispatch_material` after a dispatchable state was read: the intent, then the
claim from exactly that state. -/
def claim (effectId : String) (state : EffectState) : Program DispatchOutcome := do
  let (outcome, attempts) ← self.commit effectId .intent
  if outcome ≠ .committed then
    self.latchedOutcome effectId false attempts true (stopForCommit outcome)
  else
    match ← Call.compareAndSet effectId state .issuedUnknown self.fence with
    | .stale => pure ⟨effectId, false, attempts, false, some .staleFence, false⟩
    | .lost => pure ⟨effectId, false, attempts, false, some .effectStateRaced, false⟩
    | .won => self.issue effectId attempts

/-- `dispatch_material`. -/
def dispatchMaterial (effectId : String) : Program DispatchOutcome := do
  let decision ← self.authorize .material
  if !decision.allowed then
    let latch ← self.readLatch
    pure ⟨effectId, false, 0, latch.any (·.reconciliationRequired), decision.stopReason, false⟩
  else
    match ← Call.readEffectState effectId with
    | none => pure ⟨effectId, false, 0, false, some .effectNotDeclared, false⟩
    | some state =>
      if !state.known then
        pure ⟨effectId, false, 0, false, some .unknownEffectState, false⟩
      else if !state.dispatchable then
        pure ⟨effectId, false, 0, state = .issuedUnknown, some .effectNotDispatchable, false⟩
      else self.claim effectId state

/-- `reconcile`. -/
def reconcile (effectId : String) (resolvedState : EffectState) : Program DispatchOutcome :=
  if !resolvedState.reconciled then
    pure ⟨effectId, false, 0, true, some .unknownReconciledState, false⟩
  else do
    match ← Call.readEffectState effectId with
    | none => pure ⟨effectId, false, 0, true, some .effectNotDeclared, false⟩
    | some current =>
      if !current.known then
        pure ⟨effectId, false, 0, true, some .unknownEffectState, false⟩
      else if current ≠ .issuedUnknown then
        pure ⟨effectId, false, 0, false, some .effectNotReconcilable, false⟩
      else
        match ← Call.compareAndSet effectId .issuedUnknown resolvedState self.fence with
        | .stale => pure ⟨effectId, false, 0, true, some .staleFence, false⟩
        | .lost => pure ⟨effectId, false, 0, false, some .effectNotReconcilable, false⟩
        | .won => pure ⟨effectId, false, 0, false, none, false⟩

end MaterialDispatchCoordinator

/-- A call on a coordinator. -/
inductive Request where
  | authorize (coordinator : MaterialDispatchCoordinator) (computationClass : ComputationClass)
  | dispatchMaterial (coordinator : MaterialDispatchCoordinator) (effectId : String)
  | reconcile (coordinator : MaterialDispatchCoordinator) (effectId : String)
      (resolvedState : EffectState)

/-- The audit value a call returns. -/
inductive Audit where
  | decision (value : ComputationDecision)
  | outcome (value : DispatchOutcome)

namespace Request

def program : Request → Program Audit
  | .authorize coordinator computationClass => do
    let value ← coordinator.authorize computationClass
    pure (.decision value)
  | .dispatchMaterial coordinator effectId => do
    let value ← coordinator.dispatchMaterial effectId
    pure (.outcome value)
  | .reconcile coordinator effectId resolvedState => do
    let value ← coordinator.reconcile effectId resolvedState
    pure (.outcome value)

end Request

end OmniviaCore.Dispatch
