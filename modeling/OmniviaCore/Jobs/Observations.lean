import OmniviaCore.Jobs.Contract
import OmniviaCore.Lib.Timestamp
import OmniviaCore.Lib.Machine

/-!
# Observing a job

`validate_job_observation_progression` of `contracts/v1/semantics_jobs.py` over the handles a peer may send:
a state or availability this build has never seen is judged for its shape only. Two readings of a job are
related by rules about its identity and instants, its attempts, its state and its counters. The first two
compose over any reading in between, the state rule over a known state and the counter rule over a reading
with counters.
-/

namespace OmniviaCore.Jobs

open Lib

/-! ## Handles on the wire -/

/-- `JOB_STATES`, read by their spelling. -/
def knownState : String → Option JobState
  | "queued" => some .queued
  | "running" => some .running
  | "succeeded" => some .succeeded
  | "failed" => some .failed
  | "cancelled" => some .cancelled
  | _ => none

/-- `JOB_CANCELLATION_AVAILABILITIES`, read by their spelling. -/
def knownCancellation : String → Option CancellationAvailability
  | "cancellable" => some .cancellable
  | "cancellation_pending" => some .cancellationPending
  | "cancelled" => some .cancelled
  | "not_cancellable" => some .notCancellable
  | _ => none

/-- `JOB_RECOVERY_AVAILABILITIES`, read by their spelling. -/
def knownRecovery : String → Option RecoveryAvailability
  | "retryable" => some .retryable
  | "resumable" => some .resumable
  | "not_retryable" => some .notRetryable
  | _ => none

/-- `JobProgress`. -/
structure ObservedProgress where
  unit : String
  completedUnits : Int
  totalUnits : Option Int
  message : Option String

/-- `ApiError`. Its optional members are compared with it and read by nothing. -/
structure ObservedError (δ : Type) where
  code : String
  message : String
  retryClass : String
  optional : δ
  deriving DecidableEq

/-- `JobAttempt`. -/
structure ObservedAttempt (δ : Type) where
  attemptNumber : Int
  startedAt : String
  finishedAt : Option String
  state : String
  error : Option (ObservedError δ)

/-- `JobHandle`. -/
structure ObservedHandle (δ : Type) where
  identity : JobIdentity
  state : String
  createdAt : String
  updatedAt : String
  cancellation : String
  recovery : String
  progress : Option ObservedProgress
  latestAttempt : Option (ObservedAttempt δ)

/-! ## One handle -/

/-- `_parse_timestamp`. -/
def readTimestamp (text : String) : Except ContractSemanticError Nat :=
  match parseTimestamp text with
  | some instant => .ok instant
  | none => .error .timestamp

variable {δ : Type} [DecidableEq δ]

namespace ObservedProgress

/-- `_validate_job_progress`. -/
def validate (progress : ObservedProgress) (state : String) : Validation := do
  require (isOpenCode progress.unit = true) .openCode
  require (0 ≤ progress.completedUnits) .negative
  require (progress.message.all isMessage = true) .message
  match progress.totalUnits with
  | none => pure ()
  | some total => do
    require (0 ≤ total) .negative
    require (progress.completedUnits ≤ total) .progressExceedsTotal
    require (knownState state = some .succeeded → progress.completedUnits = total) .progressIncomplete

/-- `_validate_progress_progression`. -/
def validateProgression (previous current : ObservedProgress) : Validation := do
  require (previous.unit = current.unit) .progressUnit
  require (0 ≤ previous.completedUnits) .negative
  require (0 ≤ current.completedUnits) .negative
  require (previous.completedUnits ≤ current.completedUnits) .progressFell
  require (previous.totalUnits.isSome = true → current.totalUnits.isSome = true)
    .progressTotalWithdrawn
  require (previous.totalUnits.isSome = true → current.totalUnits = previous.totalUnits)
    .progressTotalChanged

end ObservedProgress

namespace ObservedAttempt

/-- The error of `validate_job_attempt`. -/
def validateError (attempt : ObservedAttempt δ) : Validation :=
  match attempt.error with
  | some error => do
    require (isOpenCode error.code = true) .openCode
    require (isMessage error.message = true) .message
    require (isOpenCode error.retryClass = true) .openCode
    require (knownState attempt.state = some .failed) .attemptErrorUnlessFailed
  | none => require (knownState attempt.state ≠ some .failed) .attemptFailedWithoutError

/-- `validate_job_attempt`. -/
def validate (attempt : ObservedAttempt δ) : Validation := do
  require (1 ≤ attempt.attemptNumber) .attemptNumberPositive
  let started ← readTimestamp attempt.startedAt
  require (isOpenCode attempt.state = true) .openCode
  require (knownState attempt.state ≠ some .queued) .attemptQueued
  let finished ← attempt.finishedAt.mapM readTimestamp
  require (finished.all (started ≤ ·) = true) .attemptFinishesEarly
  attempt.validateError
  require (knownState attempt.state = some .running → finished = none) .attemptRunningFinished
  require ((knownState attempt.state).any JobState.terminal = true → finished.isSome = true)
    .attemptEndedUnfinished

/-- `_validate_attempt_instants`. -/
def validateInstants (attempt : ObservedAttempt δ) (created updated : Nat) : Validation := do
  let started ← readTimestamp attempt.startedAt
  require (created ≤ started) .attemptBeforeCreation
  require (started ≤ updated) .attemptAfterUpdate
  let finished ← attempt.finishedAt.mapM readTimestamp
  require (finished.all (created ≤ ·) = true) .attemptBeforeCreation
  require (finished.all (· ≤ updated) = true) .attemptAfterUpdate

end ObservedAttempt

/-- `_validate_attempt_progression`. -/
def validateObservedAttempts : Option (ObservedAttempt δ) → Option (ObservedAttempt δ) → Validation
  | none, _ => pure ()
  | some _, none => throw .attemptDropped
  | some previous, some current => do
    require (previous.attemptNumber ≤ current.attemptNumber) .attemptNumberRegresses
    if current.attemptNumber ≠ previous.attemptNumber then pure ()
    else do
      require (current.startedAt = previous.startedAt) .attemptRestarted
      require (previous.finishedAt.isSome = true → current.finishedAt = previous.finishedAt ∧
        current.state = previous.state ∧ current.error = previous.error) .attemptRewritten

namespace ObservedHandle

/-- `_validate_job_control`. -/
def validateControl (handle : ObservedHandle δ) : Validation := do
  require (isOpenCode handle.cancellation = true) .openCode
  require (isOpenCode handle.recovery = true) .openCode
  match knownState handle.state with
  | none => pure ()
  | some state => do
    require ((knownCancellation handle.cancellation).all (· ∈ allowedCancellation state) = true)
      .cancellationAvailability
    require ((knownRecovery handle.recovery).all (· ∈ allowedRecovery state) = true)
      .recoveryAvailability

/-- The part of `validate_job_handle` about the latest attempt. -/
def validateLatestAttempt (handle : ObservedHandle δ) (created updated : Nat) : Validation :=
  let state := knownState handle.state
  match handle.latestAttempt with
  | none => do
    require (state ≠ some .running) .runningWithoutAttempt
    require (state ≠ some .succeeded ∧ state ≠ some .failed) .outcomeWithoutAttempt
  | some attempt => do
    attempt.validate
    attempt.validateInstants created updated
    require (state = some .running → knownState attempt.state = some .running) .runningAttemptState
    require (state = some .succeeded ∨ state = some .failed → knownState attempt.state = state)
      .outcomeAttemptState
    require (state ≠ some .running → attempt.finishedAt.isSome = true) .unfinishedAttempt
    require (state = some .queued → (knownState attempt.state).all
        (fun known => known = .failed ∨ known = .cancelled) = true) .queuedAttemptState

/-- The part of `validate_job_handle` about the counters. -/
def validateProgress (handle : ObservedHandle δ) : Validation :=
  match handle.progress with
  | none => pure ()
  | some progress => progress.validate handle.state

/-- `validate_job_handle`. -/
def validate (handle : ObservedHandle δ) : Validation := do
  validateJobIdentity handle.identity
  require (isOpenCode handle.state = true) .openCode
  let created ← readTimestamp handle.createdAt
  let updated ← readTimestamp handle.updatedAt
  require (created ≤ updated) .updatedBeforeCreated
  handle.validateControl
  handle.validateProgress
  handle.validateLatestAttempt created updated

/-! ## Two handles -/

/-- `_validate_state_progression` under `JOB_STATE_OBSERVABLE_PROGRESSIONS`. -/
def validateState (previous current : ObservedHandle δ) (recoveryAccepted : Bool) : Validation :=
  match knownState previous.state, knownState current.state with
  | some before, some after =>
    validateStateProgression before after JOB_STATE_OBSERVABLE_PROGRESSIONS recoveryAccepted
  | _, _ => pure ()

/-- `validate_job_observation_progression` about the counters. -/
def validateCounters (previous current : ObservedHandle δ) : Validation :=
  match previous.progress, current.progress with
  | some before, some after => before.validateProgression after
  | _, _ => pure ()

/-- `validate_job_observation_progression`. -/
def validateProgression (previous current : ObservedHandle δ) (recoveryAccepted : Bool) :
    Validation := do
  previous.validate
  current.validate
  require (previous.identity = current.identity) .identityChanged
  let created ← readTimestamp current.createdAt
  let previouslyCreated ← readTimestamp previous.createdAt
  require (created = previouslyCreated) .createdAtChanged
  let updated ← readTimestamp current.updatedAt
  let previouslyUpdated ← readTimestamp previous.updatedAt
  require (previouslyUpdated ≤ updated) .updatedAtRegresses
  validateState previous current recoveryAccepted
  validateObservedAttempts previous.latestAttempt current.latestAttempt
  validateCounters previous current

end ObservedHandle

/-! ## The rules compose -/

theorem validateObservedAttempts_eq_ok {previous current : Option (ObservedAttempt δ)} {u : Unit} :
    validateObservedAttempts previous current = .ok u ↔
      ∀ before ∈ previous, ∃ after ∈ current, before.attemptNumber ≤ after.attemptNumber ∧
        (after.attemptNumber = before.attemptNumber → after.startedAt = before.startedAt ∧
          (before.finishedAt.isSome = true → after.finishedAt = before.finishedAt ∧
            after.state = before.state ∧ after.error = before.error)) := by
  cases previous with
  | none => simp [validateObservedAttempts]
  | some before =>
    cases current with
    | none => simp [validateObservedAttempts]
    | some after =>
      simp only [validateObservedAttempts, bind_eq_ok, exists_unit, require_eq_ok, Option.mem_def,
        Option.some.injEq, forall_eq', exists_eq_left']
      by_cases hsame : after.attemptNumber = before.attemptNumber
      · simp [hsame]
      · simp [hsame]

theorem validateObservedAttempts_trans {a b c : Option (ObservedAttempt δ)}
    (h : validateObservedAttempts a b = .ok ()) (h' : validateObservedAttempts b c = .ok ()) :
    validateObservedAttempts a c = .ok () := by
  rw [validateObservedAttempts_eq_ok] at h h' ⊢
  intro first hfirst
  obtain ⟨second, hsecond, hle, hsame⟩ := h first hfirst
  obtain ⟨third, hthird, hle', hsame'⟩ := h' second hsecond
  refine ⟨third, hthird, hle.trans hle', fun heq => ?_⟩
  -- An attempt seen first and last is the one seen in between.
  have hmiddle : second.attemptNumber = first.attemptNumber := by omega
  obtain ⟨hstarted, hfinished⟩ := hsame hmiddle
  obtain ⟨hstarted', hfinished'⟩ := hsame' (heq.trans hmiddle.symm)
  refine ⟨hstarted'.trans hstarted, fun hsome => ?_⟩
  obtain ⟨hinstant, hstate, herror⟩ := hfinished hsome
  obtain ⟨hinstant', hstate', herror'⟩ := hfinished' (by rw [hinstant]; exact hsome)
  exact ⟨hinstant'.trans hinstant, hstate'.trans hstate, herror'.trans herror⟩

theorem ObservedProgress.validateProgression_eq_ok {previous current : ObservedProgress} {u : Unit} :
    previous.validateProgression current = .ok u ↔
      previous.unit = current.unit ∧ 0 ≤ previous.completedUnits ∧ 0 ≤ current.completedUnits ∧
        previous.completedUnits ≤ current.completedUnits ∧
        ∀ total ∈ previous.totalUnits, current.totalUnits = some total := by
  simp only [validateProgression, bind_eq_ok, exists_unit, require_eq_ok]
  cases previous.totalUnits with
  | none => simp
  | some total =>
    simp only [Option.isSome_some, true_implies, Option.mem_def, Option.some.injEq, forall_eq']
    constructor
    · rintro ⟨h₁, h₂, h₃, h₄, -, h₅⟩
      exact ⟨h₁, h₂, h₃, h₄, h₅⟩
    · rintro ⟨h₁, h₂, h₃, h₄, h₅⟩
      exact ⟨h₁, h₂, h₃, h₄, by rw [h₅]; rfl, h₅⟩

theorem ObservedProgress.validateProgression_trans {a b c : ObservedProgress}
    (h : a.validateProgression b = .ok ()) (h' : b.validateProgression c = .ok ()) :
    a.validateProgression c = .ok () := by
  rw [validateProgression_eq_ok] at h h' ⊢
  obtain ⟨hunit, hfirst, -, hle, htotal⟩ := h
  obtain ⟨hunit', -, hthird, hle', htotal'⟩ := h'
  exact ⟨hunit.trans hunit', hfirst, hthird, hle.trans hle',
    fun total hsome => htotal' total (htotal total hsome)⟩

namespace ObservedHandle

variable {previous current : ObservedHandle δ} {r r' : Bool}

/-- The rules of an observation that hold of any two readings of one job, however far apart. -/
structure Succeeds (previous current : ObservedHandle δ) : Prop where
  previous_valid : previous.validate = .ok ()
  current_valid : current.validate = .ok ()
  identity : previous.identity = current.identity
  created : ∃ instant, readTimestamp current.createdAt = .ok instant ∧
    readTimestamp previous.createdAt = .ok instant
  updated : ∃ later earlier, readTimestamp current.updatedAt = .ok later ∧
    readTimestamp previous.updatedAt = .ok earlier ∧ earlier ≤ later
  attempts : validateObservedAttempts previous.latestAttempt current.latestAttempt = .ok ()

theorem validateProgression_eq_ok :
    validateProgression previous current r = .ok () ↔
      Succeeds previous current ∧ validateState previous current r = .ok () ∧
        validateCounters previous current = .ok () := by
  simp only [validateProgression, bind_eq_ok, exists_unit, require_eq_ok]
  constructor
  · rintro ⟨hprevious, hcurrent, hidentity, created, hcreated, _, hsame, rfl, later, hlater, earlier,
      hearlier, hle, hstate, hattempts, hcounters⟩
    exact ⟨⟨hprevious, hcurrent, hidentity, ⟨created, hcreated, hsame⟩,
      ⟨later, earlier, hlater, hearlier, hle⟩, hattempts⟩, hstate, hcounters⟩
  · rintro ⟨⟨hprevious, hcurrent, hidentity, ⟨created, hcreated, hsame⟩,
      ⟨later, earlier, hlater, hearlier, hle⟩, hattempts⟩, hstate, hcounters⟩
    exact ⟨hprevious, hcurrent, hidentity, created, hcreated, created, hsame, rfl, later, hlater,
      earlier, hearlier, hle, hstate, hattempts, hcounters⟩

theorem Succeeds.trans {a b c : ObservedHandle δ} (h : Succeeds a b) (h' : Succeeds b c) :
    Succeeds a c := by
  obtain ⟨created, hcreated, hsame⟩ := h.created
  obtain ⟨created', hcreated', hsame'⟩ := h'.created
  obtain ⟨later, earlier, hlater, hearlier, hle⟩ := h.updated
  obtain ⟨later', earlier', hlater', hearlier', hle'⟩ := h'.updated
  have hmiddle : created = created' := Except.ok.inj (hcreated.symm.trans hsame')
  have hinstant : later = earlier' := Except.ok.inj (hlater.symm.trans hearlier')
  subst hmiddle hinstant
  exact ⟨h.previous_valid, h'.current_valid, h.identity.trans h'.identity,
    ⟨created, hcreated', hsame⟩, ⟨later', earlier, hlater', hearlier, hle.trans hle'⟩,
    validateObservedAttempts_trans h.attempts h'.attempts⟩

/-- What the state rule admits, and the one step it leaves out: a running job that failed or was
cancelled, and was recovered since. -/
def Reaches (recoveryAccepted : Bool) (before after : JobState) : Prop :=
  after ∈ allowedProgressions JOB_STATE_OBSERVABLE_PROGRESSIONS recoveryAccepted before ∨
    (recoveryAccepted = true ∧ before = .running ∧ after = .queued)

instance (before after : JobState) : Decidable (Reaches r before after) := by
  unfold Reaches
  infer_instance

theorem Reaches.trans {a b c : JobState} (h : Reaches r a b) (h' : Reaches r' b c) :
    Reaches (r || r') a c := by
  cases a <;> cases b <;> cases c <;> revert r r' <;> decide

def StatesReach (recoveryAccepted : Bool) (previous current : ObservedHandle δ) : Prop :=
  ∀ before ∈ knownState previous.state, ∀ after ∈ knownState current.state,
    Reaches recoveryAccepted before after

omit [DecidableEq δ] in
theorem StatesReach.of_ok (h : validateState previous current r = .ok ()) :
    StatesReach r previous current := by
  intro before hbefore after hafter
  rw [validateState, hbefore, hafter] at h
  exact .inl (require_eq_ok.1 h)

omit [DecidableEq δ] in
theorem StatesReach.eq_ok (h : StatesReach r previous current)
    (hrecovered : ¬(knownState previous.state = some .running ∧
      knownState current.state = some .queued)) : validateState previous current r = .ok () := by
  unfold validateState
  split
  · next before after hbefore hafter =>
    rcases h before hbefore after hafter with hallowed | ⟨-, rfl, rfl⟩
    · exact require_eq_ok.2 hallowed
    · exact absurd ⟨hbefore, hafter⟩ hrecovered
  · rfl

omit [DecidableEq δ] in
theorem StatesReach.trans {a b c : ObservedHandle δ} (hknown : (knownState b.state).isSome = true)
    (h : StatesReach r a b) (h' : StatesReach r' b c) : StatesReach (r || r') a c := by
  obtain ⟨middle, hmiddle⟩ := Option.isSome_iff_exists.1 hknown
  intro before hbefore after hafter
  exact (h before hbefore middle hmiddle).trans (h' middle hmiddle after hafter)

omit [DecidableEq δ] in
theorem validateCounters_eq_ok : validateCounters previous current = .ok () ↔
    ∀ before ∈ previous.progress, ∀ after ∈ current.progress,
      before.validateProgression after = .ok () := by
  unfold validateCounters
  cases previous.progress with
  | none => simp
  | some before => cases current.progress <;> simp

omit [DecidableEq δ] in
theorem validateCounters_trans {a b c : ObservedHandle δ} (hprogress : b.progress.isSome = true)
    (h : validateCounters a b = .ok ()) (h' : validateCounters b c = .ok ()) :
    validateCounters a c = .ok () := by
  rw [validateCounters_eq_ok] at h h' ⊢
  obtain ⟨middle, hmiddle⟩ := Option.isSome_iff_exists.1 hprogress
  intro before hbefore after hafter
  exact ObservedProgress.validateProgression_trans (h before hbefore middle hmiddle)
    (h' middle hmiddle after hafter)

end ObservedHandle

/-! ## Readings further apart -/

open ObservedHandle

section Sampled

variable {readings : List (ObservedHandle δ)} {recovery : Nat → Bool} {i j : Nat}

def Between (readings : List (ObservedHandle δ)) (i j : Nat) (Good : ObservedHandle δ → Prop) : Prop :=
  ∀ (k : Nat) (hk : k < readings.length), i < k → k < j → Good readings[k]

def Accepted (readings : List (ObservedHandle δ)) (recovery : Nat → Bool) : Prop :=
  ∀ (k : Nat) (hk : k + 1 < readings.length),
    validateProgression readings[k] readings[k + 1] (recovery k) = .ok ()

theorem Accepted.succeeds (h : Accepted readings recovery) (hij : i < j) (hj : j < readings.length) :
    Succeeds readings[i] readings[j] :=
  @sampled _ (fun _ => Succeeds) (fun _ => True) recovery readings (fun _ h h' => h.trans h')
    (fun k hk => (validateProgression_eq_ok.1 (h k hk)).1) i j hij hj fun _ _ _ _ => trivial

theorem Accepted.statesReach (h : Accepted readings recovery) (hij : i < j) (hj : j < readings.length)
    (hknown : Between readings i j fun reading => (knownState reading.state).isSome = true) :
    StatesReach (flagged recovery i j) readings[i] readings[j] :=
  @sampled _ StatesReach (fun reading => (knownState reading.state).isSome = true) recovery readings
    (fun hmiddle h h' => h.trans hmiddle h')
    (fun k hk => .of_ok (validateProgression_eq_ok.1 (h k hk)).2.1) i j hij hj hknown

theorem Accepted.counters (h : Accepted readings recovery) (hij : i < j) (hj : j < readings.length)
    (hprogress : Between readings i j fun reading => reading.progress.isSome = true) :
    validateCounters readings[i] readings[j] = .ok () :=
  @sampled _ (fun _ previous current => validateCounters previous current = .ok ())
    (fun reading => reading.progress.isSome = true) recovery readings
    (fun hmiddle h h' => validateCounters_trans hmiddle h h')
    (fun k hk => (validateProgression_eq_ok.1 (h k hk)).2.2) i j hij hj hprogress

theorem ObservedHandle.Reaches.final {before after : JobState} (h : Reaches false before after)
    (hterminal : before.terminal = true) : after = before := by
  revert h hterminal
  cases before <;> cases after <;> decide

/-- Of a history each step of which was accepted, any two readings are accepted with the recoveries
between them, where two rules keep what they read. The state rule is passed when an end is in a state
this build does not know, or when every state in between is known and it is not a running job that is
seen queued; the counter rule when an end has no counters, or every reading in between has. The attempts
always grow; the completed units do as long as they are reported; a known terminal state is final until
a recovery, as long as the states are known. -/
theorem sampling_complete (h : Accepted readings recovery) (hij : i < j) (hj : j < readings.length) :
    ((knownState readings[i].state = none ∨ knownState readings[j].state = none ∨
        Between readings i j (fun reading => (knownState reading.state).isSome = true) ∧
          ¬(knownState readings[i].state = some .running ∧
            knownState readings[j].state = some .queued)) →
      (readings[i].progress = none ∨ readings[j].progress = none ∨
        Between readings i j fun reading => reading.progress.isSome = true) →
      validateProgression readings[i] readings[j] (flagged recovery i j) = .ok ()) ∧
    (∀ before ∈ readings[i].latestAttempt, ∃ after ∈ readings[j].latestAttempt,
      before.attemptNumber ≤ after.attemptNumber) ∧
    (Between readings i j (fun reading => reading.progress.isSome = true) →
      ∀ before ∈ readings[i].progress, ∀ after ∈ readings[j].progress,
        before.completedUnits ≤ after.completedUnits) ∧
    (Between readings i j (fun reading => (knownState reading.state).isSome = true) →
      flagged recovery i j = false → ∀ before ∈ knownState readings[i].state,
        before.terminal = true → ∀ after ∈ knownState readings[j].state, after = before) := by
  have hsucceeds := h.succeeds hij hj
  refine ⟨fun hstate hcounters => ?_, fun before hbefore => ?_, fun hprogress before hbefore after
    hafter => ?_, fun hknown hflag before hbefore hterminal after hafter => ?_⟩
  · refine validateProgression_eq_ok.2 ⟨hsucceeds, ?_, ?_⟩
    · rcases hstate with hnone | hnone | ⟨hknown, hrecovered⟩
      · simp only [validateState, hnone]
        rfl
      · unfold validateState
        split
        · next hafter => rw [hnone] at hafter; cases hafter
        · rfl
      · exact (h.statesReach hij hj hknown).eq_ok hrecovered
    · rcases hcounters with hnone | hnone | hprogress
      · exact validateCounters_eq_ok.2 fun before hbefore => by rw [hnone] at hbefore; cases hbefore
      · exact validateCounters_eq_ok.2 fun before _ after hafter => by
          rw [hnone] at hafter; cases hafter
      · exact h.counters hij hj hprogress
  · obtain ⟨after, hafter, hle, -⟩ := validateObservedAttempts_eq_ok.1 hsucceeds.attempts before hbefore
    exact ⟨after, hafter, hle⟩
  · have hadmitted := validateCounters_eq_ok.1 (h.counters hij hj hprogress) before hbefore after hafter
    exact (ObservedProgress.validateProgression_eq_ok.1 hadmitted).2.2.2.1
  · have hreaches := h.statesReach hij hj hknown before hbefore after hafter
    rw [hflag] at hreaches
    exact Reaches.final hreaches hterminal

end Sampled

/-! ### A job that is retried -/

/-- A handle of one job, in a state, with its latest attempt and its completed units. -/
def reading (state cancellation recovery : String) (attempt : Option (ObservedAttempt Unit))
    (completedUnits : Option Int) : ObservedHandle Unit where
  identity := ⟨"job-1", "ingestion.import", "import.start", "audit-1", none⟩
  state
  createdAt := "2024-01-01T00:00:00Z"
  updatedAt := "2024-01-01T00:00:09Z"
  cancellation
  recovery
  progress := completedUnits.map fun completedUnits => ⟨"item", completedUnits, none, none⟩
  latestAttempt := attempt

def runningAttempt : ObservedAttempt Unit := ⟨1, "2024-01-01T00:00:01Z", none, "running", none⟩

def endedAttempt (state : String) (error : Option (ObservedError Unit)) : ObservedAttempt Unit :=
  ⟨1, "2024-01-01T00:00:01Z", some "2024-01-01T00:00:02Z", state, error⟩

def failedAttempt : ObservedAttempt Unit :=
  endedAttempt "failed" (some ⟨"internal_recoverable", "lost", "retryable", ()⟩)

def queuedReading : ObservedHandle Unit := reading "queued" "cancellable" "not_retryable" none none

def runningReading (completedUnits : Option Int) : ObservedHandle Unit :=
  reading "running" "cancellable" "not_retryable" (some runningAttempt) completedUnits

def failedReading : ObservedHandle Unit :=
  reading "failed" "not_cancellable" "retryable" (some failedAttempt) none

def retriedReading : ObservedHandle Unit :=
  reading "queued" "cancellable" "not_retryable" (some failedAttempt) none

def pausedReading : ObservedHandle Unit :=
  reading "paused" "cancellable" "not_retryable" (some failedAttempt) none

def startedReadings : List (ObservedHandle Unit) :=
  [queuedReading, runningReading (some 3), failedReading]

theorem accepted_three {first second third : ObservedHandle Unit} {recovery : Nat → Bool}
    (h : validateProgression first second (recovery 0) = .ok ())
    (h' : validateProgression second third (recovery 1) = .ok ()) :
    Accepted [first, second, third] recovery := by
  intro k hk
  match k, hk with
  | 0, _ => exact h
  | 1, _ => exact h'

theorem startedReadings_accepted : Accepted startedReadings fun _ => false :=
  accepted_three (by decide +kernel) (by decide +kernel)

theorem sampling_complete_failed : validateProgression queuedReading failedReading false = .ok () := by
  refine (sampling_complete startedReadings_accepted (i := 0) (j := 2) (by decide) (by decide)).1
    (.inr (.inr ⟨fun k _ _ _ => ?_, by decide +kernel⟩)) (.inl rfl)
  obtain rfl : k = 1 := by omega
  exact (by decide +kernel : (knownState (runningReading (some 3)).state).isSome = true)

/-- A running job that failed and was retried is not seen queued, though each step was accepted and so
was the recovery; a step through a state this build does not know, or through a reading without
counters, hides what the states and counters around it would not have been allowed. -/
theorem sampling_incomplete :
    (Accepted [runningReading none, failedReading, retriedReading] (fun k => k == 1) ∧
      validateProgression (runningReading none) retriedReading (flagged (fun k => k == 1) 0 2) =
        .error .stateProgression) ∧
    (Accepted [failedReading, pausedReading, retriedReading] (fun _ => false) ∧
      validateProgression failedReading retriedReading (flagged (fun _ => false) 0 2) =
        .error .stateProgression) ∧
    (Accepted [runningReading (some 7), runningReading none, runningReading (some 3)] (fun _ => false) ∧
      validateProgression (runningReading (some 7)) (runningReading (some 3))
        (flagged (fun _ => false) 0 2) = .error .progressFell) := by
  exact ⟨⟨accepted_three (by decide +kernel) (by decide +kernel), by decide +kernel⟩,
    ⟨accepted_three (by decide +kernel) (by decide +kernel), by decide +kernel⟩,
    ⟨accepted_three (by decide +kernel) (by decide +kernel), by decide +kernel⟩⟩

end OmniviaCore.Jobs
