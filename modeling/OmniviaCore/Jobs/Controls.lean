import OmniviaCore.Jobs.Inert

/-!
# The two user controls

`ControlSound` is what the contract and the schema's design ask of the answer of `request_job_cancellation`
and `request_job_retry`: it passes the operation's validator, a refusal leaves state, attempts and events
alone and stands in nobody's way, and an acceptance is told by exactly one event.

Three calls fall short. A cancellation accepted in the microsecond of the job's last terminal observation
leaves a handle that still offers cancellation. A refused retry of a queued job is followed by the event of
an accepted one. And a retry accepted before the second the job's end was read as dates the job earlier.
-/

namespace OmniviaCore.Jobs

open Lib

/-! ## The calls -/

namespace Store

variable (s : Store) (authority : Authority) (jobId : JobId)

def control (op : JobOp) (disposition : Job → Disposition) :
    Except JobError (JobControlResult × Store) :=
  match s.find jobId with
  | none => throw .notFound
  | some before => do
    let s' ← s.perform authority (.write jobId op)
    match s'.find jobId with
    | none => throw .notFound
    | some after => pure (⟨after.handle, disposition before⟩, s')

/-- `request_job_cancellation`. -/
def requestJobCancellation (settledAtUs : Nat) : Except JobError (JobControlResult × Store) :=
  s.control authority jobId (.requestCancellation settledAtUs) Job.cancellationDisposition

/-- `request_job_retry`. -/
def requestJobRetry (settledAtUs : Nat) : Except JobError (JobControlResult × Store) :=
  s.control authority jobId (.requestRetry settledAtUs) Job.recoveryDisposition

end Store

/-- What is asked of a control's answer: `before` and `after` are the job as it was and as it is,
`validation` the operation's validator and `resultingState` the state an acceptance results in. -/
structure ControlSound (before after : Job) (validation : Validation) (accepted : Bool)
    (resultingState : JobState) : Prop where
  validated : validation = .ok ()
  refused : accepted = false → after.state = before.state ∧ after.attempts = before.attempts ∧
    after.events = before.events ∧ Harmless before after
  told : accepted = true → (∃ e, after.events = before.events ++ [e]) ∧
    after.snapshot.job.state = resultingState

def CancelSound (before after : Job) (result : JobControlResult) (request : Option JobInput) :
    Prop :=
  ControlSound before after (validateJobCancelResult result request before.snapshot.job)
    (isAcceptedCancellationDisposition result.disposition) before.publicState

def RetrySound (before after : Job) (result : JobControlResult) (request : Option JobInput) :
    Prop :=
  ControlSound before after (validateJobRetryResult result request before.snapshot.job)
    (isAcceptedRecoveryDisposition result.disposition) .queued

/-! ## Refusals -/

namespace Job

variable {j j' : Job} {authority : Authority} {settledAtUs : Nat} {request : Option JobInput}

theorem refusal_sound {c : ControlRow} (hc : c.live = false) {validation : Validation}
    (hvalidated : (j.noted c).handle = j.handle → validation = .ok ())
    {resultingState : JobState} :
    ControlSound j (j.noted c) validation false resultingState where
  validated := hvalidated (handle_alike (alike_noted j hc))
  refused := fun _ => ⟨rfl, rfl, rfl, (alike_noted j hc).harmless⟩
  told := fun h => by cases h

theorem cancelControl_live (h : j.cancellationDisposition ≠ .cancellationRequested) :
    (j.cancelControl authority settledAtUs).live = false := by
  simp [cancelControl, ControlRow.live, ControlRow.requestsCancellation,
    ControlRow.schedulesRecovery, ControlRow.requeueing, h]

theorem refusalControl_live (h : j.publicState ≠ .queued) :
    (j.refusalControl authority settledAtUs).live = false := by
  simp [refusalControl, ControlRow.live, ControlRow.requestsCancellation,
    ControlRow.schedulesRecovery, ControlRow.requeueing, Disposition.recovers, h]

/-- The shape of an answer: a handle of the job that was asked for. -/
theorem answers (hv : j.Valid)
    (hrequest : request.all (·.jobId = j.metadata.jobId.text) = true) (disposition : Disposition) :
    validateControlResultShape ⟨j.handle, disposition⟩ request = .ok () := by
  simp only [validateControlResultShape, bind_eq_ok, require_eq_ok, exists_unit]
  exact ⟨hv.handle, hrequest⟩

/-- A call that changes nothing passes after the handle it was read with. -/
theorem requirePreviousHandle_ok (hv : j.Valid) (hmetadata : j'.metadata = j.metadata) :
    requirePreviousHandle j.handle j'.handle = .ok () := by
  simp only [requirePreviousHandle, bind_eq_ok, require_eq_ok, exists_unit]
  exact ⟨hv.handle, by simp only [handle, identity, hmetadata]⟩

/-! ## Cancellation -/

theorem cancellationDisposition_requested :
    j.cancellationDisposition = .cancellationRequested ↔ j.control.cancellation = .cancellable := by
  unfold cancellationDisposition
  split
  next h => simp [h]
  next h => split <;> simp [h]

/-- A handle that offers cancellation is of a queued or running job with no request pending. -/
theorem cancellable_iff (hkind : j.metadata.jobKind = IMPORT_JOB_KIND) :
    j.control.cancellation = .cancellable ↔
      j.publicState.terminal = false ∧ j.hasPendingCancellation = false := by
  have hcontrollable : ¬ j.metadata.jobKind ∉ CONTROLLABLE_JOB_KINDS := by
    rw [hkind]
    decide
  simp only [control, if_neg hcontrollable, cancellationAvailability]
  cases j.publicState <;> simp [JobState.terminal]

def cancellationTold (j : Job) (authority : Authority) (settledAtUs : Nat) : Job :=
  (j.noted (j.cancelControl authority settledAtUs)).told settledAtUs j.publicState
    "job cancellation requested"

/-- After an accepted request the handle offers cancellation exactly when the request was settled in
the microsecond of the last terminal observation. -/
theorem cancellationTold_cancellable (hv : j.Valid)
    (hoffered : j.control.cancellation = .cancellable) (hpositive : 0 < settledAtUs)
    (hnow : j.horizonUs ≤ settledAtUs) :
    (j.cancellationTold authority settledAtUs).control.cancellation = .cancellable ↔
      j.lastFinishedAtUs = some settledAtUs := by
  obtain ⟨hstate, hpending⟩ := (cancellable_iff hv.kind).1 hoffered
  have hrequests : (j.cancelControl authority settledAtUs).requestsCancellation = true := by
    simp [cancelControl, ControlRow.requestsCancellation,
      cancellationDisposition_requested.2 hoffered]
  have hpending' : (j.cancellationTold authority settledAtUs).hasPendingCancellation =
      decide (j.lastFinishedAtUs.getD 0 < settledAtUs) := by
    change (j.controls ++ [j.cancelControl authority settledAtUs]).any _ = _
    rw [List.any_append]
    refine (congrArg₂ or hpending rfl).trans ?_
    simp only [List.any_cons, List.any_nil, hrequests, Bool.true_and, Bool.or_false, Bool.false_or]
    rfl
  have hlast := lastFinished_le hv
  rw [cancellable_iff (j := j.cancellationTold authority settledAtUs) hv.kind, hpending']
  have hsame : (j.cancellationTold authority settledAtUs).publicState.terminal = false := hstate
  simp only [hsame, true_and, decide_eq_false_iff_not, not_lt]
  cases hfinished : j.lastFinishedAtUs with
  | none => simp only [Option.getD_none, reduceCtorEq, iff_false]; omega
  | some last =>
    rw [hfinished] at hlast
    simp only [Option.getD_some, Option.some.injEq] at hlast ⊢
    omega

theorem cancellationTold_valid (hv : j.Valid) (hnow : j.horizonUs ≤ settledAtUs) :
    (j.cancellationTold authority settledAtUs).Valid :=
  (hv.noted (j.cancelControl authority settledAtUs)).told hnow

theorem cancellationTold_later (hv : j.Valid) (hnow : j.horizonUs ≤ settledAtUs) :
    j.Later (j.cancellationTold authority settledAtUs) := by
  have hchanges : Changes authority j (j.cancellationTold authority settledAtUs) :=
    (Relation.ReflTransGen.single (.noted (j.cancelControl authority settledAtUs)
      cancelControl_recovers)).tail (.told _ _ hnow)
  exact hchanges.later hv

/-- The pair of handles around an accepted cancellation is a legal observation. -/
theorem cancellationTold_progression (hv : j.Valid) (hnow : j.horizonUs ≤ settledAtUs) :
    validateJobObservationProgression j.handle (j.cancellationTold authority settledAtUs).handle
      false = .ok () := by
  have hrecovered : recoveredBetween j (j.cancellationTold authority settledAtUs) = false := by
    simp [recoveredBetween, cancellationTold, Job.told, Job.noted, cancelControl_recovers]
  have hlater : j.Later (j.cancellationTold authority settledAtUs) :=
    cancellationTold_later hv hnow
  rw [← hrecovered, hlater.observationProgression hv (cancellationTold_valid hv hnow)]
  refine ⟨timestamp_mono (max_le (le_max_left _ _) (le_trans hlater.horizon (le_max_right _ _))), ?_⟩
  rintro ⟨hclaimed, hqueued⟩
  exact absurd (hclaimed.symm.trans hqueued) (by decide)

/-- An accepted cancellation is sound unless it is settled in the microsecond of the last terminal
observation. -/
theorem accepted_cancel_sound_iff (hv : j.Valid) (hoffered : j.control.cancellation = .cancellable)
    (hpositive : 0 < settledAtUs) (hnow : j.horizonUs ≤ settledAtUs)
    (hrequest : request.all (·.jobId = j.metadata.jobId.text) = true) :
    CancelSound j (j.cancellationTold authority settledAtUs)
      ⟨(j.cancellationTold authority settledAtUs).handle, .cancellationRequested⟩ request ↔
      j.lastFinishedAtUs ≠ some settledAtUs := by
  have hv' : (j.cancellationTold authority settledAtUs).Valid := cancellationTold_valid hv hnow
  have hstate : j.publicState ≠ .succeeded ∧ j.publicState ≠ .failed := by
    have hactive := ((cancellable_iff hv.kind).1 hoffered).1
    constructor <;> intro h <;> rw [h] at hactive <;> cases hactive
  have hvalidated : validateJobCancelResult
      ⟨(j.cancellationTold authority settledAtUs).handle, .cancellationRequested⟩ request
        j.snapshot.job = .ok () ↔ j.lastFinishedAtUs ≠ some settledAtUs := by
    have hanswers : validateControlResultShape ⟨(j.cancellationTold authority settledAtUs).handle,
        .cancellationRequested⟩ request = .ok () := answers hv' hrequest _
    have hprevious : requirePreviousHandle j.snapshot.job
        (j.cancellationTold authority settledAtUs).handle = .ok () :=
      requirePreviousHandle_ok hv rfl
    rw [ne_eq, ← cancellationTold_cancellable hv hoffered hpositive hnow]
    simp only [validateJobCancelResult, bind_eq_ok, exists_unit, hanswers, hprevious, true_and,
      isAcceptedCancellationDisposition, decide_true, if_true, validateAcceptedCancellation,
      require_eq_ok]
    simp only [permitsCancellation, decide_eq_true_eq, decide_eq_false_iff_not]
    exact ⟨fun h => h.2.2.2, fun h => ⟨hoffered, hstate, cancellationTold_progression hv hnow, h⟩⟩
  refine ⟨fun h => hvalidated.1 h.validated, fun h => ?_⟩
  exact
    { validated := hvalidated.2 h
      refused := fun hrefused => by cases hrefused
      told := fun _ => ⟨⟨_, rfl⟩, rfl⟩ }

theorem refused_cancel_sound (hv : j.Valid)
    (hrefused : j.cancellationDisposition ≠ .cancellationRequested)
    (hrequest : request.all (·.jobId = j.metadata.jobId.text) = true) :
    CancelSound j (j.noted (j.cancelControl authority settledAtUs))
      ⟨(j.noted (j.cancelControl authority settledAtUs)).handle, j.cancellationDisposition⟩
      request := by
  have haccepted : isAcceptedCancellationDisposition j.cancellationDisposition = false := by
    simpa [isAcceptedCancellationDisposition] using hrefused
  unfold CancelSound
  rw [haccepted]
  refine refusal_sound (cancelControl_live hrefused) fun hsame => ?_
  have hanswers := answers (hv.noted (j.cancelControl authority settledAtUs))
    hrequest j.cancellationDisposition
  have hprevious : requirePreviousHandle j.snapshot.job
      (j.noted (j.cancelControl authority settledAtUs)).handle = .ok () :=
    requirePreviousHandle_ok hv rfl
  simp only [validateJobCancelResult, bind_eq_ok, exists_unit, hanswers, hprevious, true_and,
    haccepted, Bool.false_eq_true, if_false, require_eq_ok]
  refine ⟨fun hcancelled => ?_, hsame.symm⟩
  unfold cancellationDisposition at hcancelled
  split at hcancelled
  next => cases hcancelled
  next =>
    split at hcancelled
    next h => exact h
    next => cases hcancelled

/-! ## Retry -/

def recoveryTold (j : Job) (authority : Authority) (settledAtUs : Nat) : Job :=
  j.requeued authority (j.retryControl authority settledAtUs) (milliseconds settledAtUs)
    "job recovery scheduled"

theorem recoveryDisposition_precondition (h : j.recoveryDisposition ≠ .notRetryable) :
    RECOVERY_DISPOSITION_PRECONDITIONS j.recoveryDisposition =
      (j.publicState, j.control.recovery) := by
  unfold recoveryDisposition at h ⊢
  split
  next h => rw [h.1, h.2]; rfl
  next hfailed =>
    rw [if_neg hfailed] at h
    split
    next h => rw [h.1, h.2]; rfl
    next hcancelled => exact absurd (if_neg hcancelled) h

theorem recoveryDisposition_notRetryable :
    j.recoveryDisposition = .notRetryable ↔ j.control.recovery = .notRetryable := by
  unfold recoveryDisposition control
  split
  · simp
  · unfold recoveryAvailability
    cases j.publicState with
    | failed =>
      dsimp only
      split <;> simp
    | cancelled =>
      dsimp only
      split <;> simp
    | queued | running | succeeded => simp

/-- The handle offers a retry, which is settled before the second the end of the job is read as. -/
def RetryTurnsBack (j : Job) (settledAtUs : Nat) : Prop :=
  j.control.recovery ≠ .notRetryable ∧ 999500 ≤ j.updatedAtUs % 1000000 ∧
    settledAtUs < nextSecond j.updatedAtUs

instance (j : Job) (settledAtUs : Nat) : Decidable (j.RetryTurnsBack settledAtUs) :=
  inferInstanceAs (Decidable (_ ∧ _))

theorem recoveryTold_turnsBack (haccepted : j.recoveryDisposition ≠ .notRetryable)
    (hnow : j.horizonUs ≤ settledAtUs) :
    j.TurnsBack (j.recoveryTold authority settledAtUs) ↔ j.RetryTurnsBack settledAtUs := by
  have hhorizon : (j.recoveryTold authority settledAtUs).horizonUs = settledAtUs :=
    horizonUs_concat (e := ⟨_, settledAtUs, .queued, "job recovery scheduled"⟩) hnow rfl
  have hupdated : (j.recoveryTold authority settledAtUs).updatedAtUs = milliseconds settledAtUs := rfl
  rw [TurnsBack, RetryTurnsBack, hhorizon, hupdated, nextSecond, milliseconds, timestamp]
  constructor
  · exact fun h => ⟨mt recoveryDisposition_notRetryable.2 haccepted, h.1, h.2.2⟩
  · rintro ⟨-, hlast, hbefore⟩
    exact ⟨hlast, by omega, hbefore⟩

/-- An accepted retry is sound unless it turns back the second of the job's end. -/
theorem accepted_retry_sound_iff (hv : j.Valid) (haccepted : j.recoveryDisposition ≠ .notRetryable)
    (hnow : j.horizonUs ≤ settledAtUs)
    (hrequest : request.all (·.jobId = j.metadata.jobId.text) = true) :
    RetrySound j (j.recoveryTold authority settledAtUs)
      ⟨(j.recoveryTold authority settledAtUs).handle, j.recoveryDisposition⟩ request ↔
      ¬ j.RetryTurnsBack settledAtUs := by
  obtain hrefused | ⟨hrecovers, hstate⟩ := recoveryDisposition_cases (j := j)
  · exact absurd hrefused haccepted
  have hcontrol : (j.retryControl authority settledAtUs).recovers = true := by
    simp [ControlRow.recovers, ControlRow.schedulesRecovery, retryControl, hrecovers]
  have hchange : Change authority j (j.recoveryTold authority settledAtUs) :=
    .requeued (j.retryControl authority settledAtUs) _ hstate hcontrol hnow
  have hv' := hchange.valid hv
  have hlater := hchange.later hv
  have hnotRunning : j.state ≠ .claimed := by rcases hstate with h | h <;> rw [h] <;> decide
  have hprogression : validateJobObservationProgression j.handle
      (j.recoveryTold authority settledAtUs).handle true = .ok () ↔ ¬ j.RetryTurnsBack settledAtUs := by
    have hrecovered : recoveredBetween j (j.recoveryTold authority settledAtUs) = true := by
      simp [recoveredBetween, recoveryTold, Job.requeued, hcontrol]
    rw [← hrecovered, hlater.observationProgression hv hv',
      hlater.updated_iff hv (hv.updated_le hnotRunning), recoveryTold_turnsBack haccepted hnow]
    exact and_iff_left fun h => hnotRunning h.1
  have hprecondition := recoveryDisposition_precondition haccepted
  have hanswers := answers hv' hrequest j.recoveryDisposition
  have hprevious : requirePreviousHandle j.snapshot.job
      (j.recoveryTold authority settledAtUs).handle = .ok () := requirePreviousHandle_ok hv rfl
  have hvalidated : validateJobRetryResult
      ⟨(j.recoveryTold authority settledAtUs).handle, j.recoveryDisposition⟩ request j.snapshot.job =
        .ok () ↔ ¬ j.RetryTurnsBack settledAtUs := by
    rw [← hprogression]
    simp only [validateJobRetryResult, bind_eq_ok, exists_unit, hanswers, hprevious, true_and,
      isAcceptedRecoveryDisposition, hrecovers, if_true, validateAcceptedRecovery, require_eq_ok,
      hprecondition]
    exact ⟨fun h => h.2.2.2.1, fun h => ⟨rfl, rfl, rfl, h, rfl⟩⟩
  refine ⟨fun h => hvalidated.1 h.validated, fun h => ?_⟩
  exact
    { validated := hvalidated.2 h
      refused := fun h => absurd (h.symm.trans hrecovers) (by decide)
      told := fun _ => ⟨⟨_, rfl⟩, rfl⟩ }

theorem refused_retry_sound (hv : j.Valid) (hrefused : j.recoveryDisposition = .notRetryable)
    (hstate : j.publicState ≠ .queued)
    (hrequest : request.all (·.jobId = j.metadata.jobId.text) = true) :
    RetrySound j (j.noted (j.refusalControl authority settledAtUs))
      ⟨(j.noted (j.refusalControl authority settledAtUs)).handle, j.recoveryDisposition⟩ request := by
  unfold RetrySound
  rw [hrefused]
  refine refusal_sound (refusalControl_live hstate) fun hsame => ?_
  have hanswers := answers (hv.noted (j.refusalControl authority settledAtUs)) hrequest
    .notRetryable
  have hprevious : requirePreviousHandle j.snapshot.job
      (j.noted (j.refusalControl authority settledAtUs)).handle = .ok () :=
    requirePreviousHandle_ok hv rfl
  simp only [validateJobRetryResult, bind_eq_ok, exists_unit, hanswers, hprevious, true_and,
    isAcceptedRecoveryDisposition, Disposition.recovers, Bool.false_eq_true, if_false,
    require_eq_ok]
  exact hsame.symm

end Job

/-! ## Over the store -/

namespace Store

variable {s s' : Store} {authority : Authority} {jobId : JobId}

theorem write_find (hs : s.Valid) {op : JobOp} (h : s.write authority jobId op = .ok s') :
    ∃ j j', s.find jobId = some j ∧ op.apply authority j = .ok j' ∧ s'.find jobId = some j' := by
  obtain ⟨j, j', hj, happly, rfl⟩ := write_ok h
  obtain ⟨hmem, hjob⟩ := find_mem hj
  have hframe : j'.metadata.jobId = jobId :=
    (congrArg JobMetadata.jobId (JobOp.apply_frame (hs j hmem) happly).1).trans hjob
  refine ⟨j, j', hj, happly, ?_⟩
  have hsame : ∀ k : Job, decide ((if k.metadata.jobId = jobId then j' else k).metadata.jobId =
      jobId) = decide (k.metadata.jobId = jobId) := by
    intro k
    split
    next hk => simp only [hframe, hk]
    next => rfl
  unfold find at hj ⊢
  rw [List.find?_map, Function.comp_def]
  simp only [hsame, hj, Option.map_some, if_pos hjob]

theorem control_ok (hs : s.Valid) {op : JobOp} {disposition : Job → Disposition}
    {result : JobControlResult} {j : Job} (hj : s.find jobId = some j)
    (h : s.control authority jobId op disposition = .ok (result, s')) :
    s.perform authority (.write jobId op) = .ok s' ∧ ∃ j', s'.find jobId = some j' ∧
      op.apply authority j = .ok j' ∧ result = ⟨j'.handle, disposition j⟩ := by
  simp only [control, hj] at h
  obtain ⟨s'', hperform, h⟩ := bind_eq_ok.1 h
  obtain ⟨_, -, hwrite⟩ := bind_eq_ok.1 hperform
  obtain ⟨k, j', hk, happly, hj'⟩ := write_find hs hwrite
  obtain rfl := Option.some.inj (hj.symm.trans hk)
  simp only [hj'] at h
  obtain ⟨rfl, rfl⟩ := Prod.mk.inj (pure_eq_ok.1 h)
  exact ⟨hperform, j', hj', happly, rfl⟩

/-- A cancellation that returns is sound unless it accepted a request in the microsecond of the last
terminal observation. -/
theorem requestJobCancellation_sound_iff (hs : s.Valid) {before : Job}
    (hbefore : s.find jobId = some before) {settledAtUs : Nat} {request : Option JobInput}
    (hrequest : request.all (·.jobId = jobId.text) = true) {result : JobControlResult}
    (h : s.requestJobCancellation authority jobId settledAtUs = .ok (result, s')) :
    ∃ after, s'.find jobId = some after ∧ (CancelSound before after result request ↔
      ¬ (before.control.cancellation = .cancellable ∧
        before.lastFinishedAtUs = some settledAtUs)) := by
  obtain ⟨hmem, rfl⟩ := find_mem hbefore
  have hv := hs before hmem
  obtain ⟨-, after, hafter, happly, rfl⟩ := control_ok hs hbefore h
  refine ⟨after, hafter, ?_⟩
  obtain ⟨hrequested, hpositive, hnow, rfl⟩ | ⟨hrefused, rfl⟩ :=
    Job.requestCancellation_ok hv happly
  · have hoffered := Job.cancellationDisposition_requested.1 hrequested
    rw [hrequested, not_and]
    exact (Job.accepted_cancel_sound_iff hv hoffered hpositive hnow hrequest).trans
      ⟨fun h _ => h, fun h => h hoffered⟩
  · exact iff_of_true (Job.refused_cancel_sound hv hrefused hrequest) fun h =>
      hrefused (Job.cancellationDisposition_requested.2 h.1)

/-- A retry that returns is sound unless the job was in the queue, or the retry turns back the second of its
end. -/
theorem requestJobRetry_sound_iff (hs : s.Valid) {before : Job}
    (hbefore : s.find jobId = some before) {settledAtUs : Nat} {request : Option JobInput}
    (hrequest : request.all (·.jobId = jobId.text) = true) {result : JobControlResult}
    (h : s.requestJobRetry authority jobId settledAtUs = .ok (result, s')) :
    ∃ after, s'.find jobId = some after ∧ (RetrySound before after result request ↔
      before.state ≠ .queued ∧ ¬ before.RetryTurnsBack settledAtUs) := by
  obtain ⟨hmem, rfl⟩ := find_mem hbefore
  have hv := hs before hmem
  obtain ⟨-, after, hafter, happly, rfl⟩ := control_ok hs hbefore h
  refine ⟨after, hafter, ?_⟩
  have hpublic : before.state = .queued ↔ before.publicState = .queued := by
    unfold Job.publicState
    cases before.state <;> decide
  rw [ne_eq, hpublic]
  obtain ⟨haccepted, hnow, rfl⟩ | ⟨hrefused, hstate, rfl⟩ | ⟨hrefused, hqueued, -, rfl⟩ :=
    Job.requestRetry_ok hv happly
  · refine (Job.accepted_retry_sound_iff hv haccepted hnow hrequest).trans
      (and_iff_right fun hqueued => ?_).symm
    obtain h | ⟨-, h⟩ := Job.recoveryDisposition_cases (j := before)
    · exact haccepted h
    · rw [← hpublic] at hqueued
      rcases h with h | h <;> rw [hqueued] at h <;> cases h
  · exact iff_of_true (Job.refused_retry_sound hv hrefused hstate hrequest)
      ⟨hstate, fun h => h.1 (Job.recoveryDisposition_notRetryable.1 hrefused)⟩
  · -- the refusal's event is one too many
    refine iff_of_false (fun h => ?_) fun h => h.1 hqueued
    have hevents := (h.refused (by rw [hrefused]; rfl)).2.2.1
    exact absurd (congrArg List.length hevents) (by simp [Job.told, Job.noted])

end Store

/-- In every reachable store, for every call of a user control that returns, whatever its time and
whoever calls: a cancellation's answer is sound if and only if the call did not accept, in the
microsecond of the job's last terminal observation, a cancellation the handle offered; a retry's is
sound if and only if the job was not in the queue and the retry, if it was accepted, did not turn back the
second of the job's end. -/
theorem control_soundness_iff (s : Store) (hs : s.Reachable) (jobId : JobId) (before : Job)
    (hbefore : s.find jobId = some before) (authority : Authority) (settledAtUs : Nat)
    (request : Option JobInput) (hrequest : request.all (·.jobId = jobId.text) = true)
    (result : JobControlResult) (s' : Store) :
    (s.requestJobCancellation authority jobId settledAtUs = .ok (result, s') →
      ∃ after, s'.find jobId = some after ∧ (CancelSound before after result request ↔
        ¬ (before.control.cancellation = .cancellable ∧
          before.lastFinishedAtUs = some settledAtUs))) ∧
    (s.requestJobRetry authority jobId settledAtUs = .ok (result, s') →
      ∃ after, s'.find jobId = some after ∧ (RetrySound before after result request ↔
        before.state ≠ .queued ∧ ¬ before.RetryTurnsBack settledAtUs)) :=
  ⟨Store.requestJobCancellation_sound_iff hs.valid hbefore hrequest,
    Store.requestJobRetry_sound_iff hs.valid hbefore hrequest⟩

/-! ## The recovered import -/

/-- The store after an import's worker died and the import was recovered, at second two. -/
def importRecovered : Store := run Store.step importWorkspace (importStart :: importInterrupted)

theorem importRecovered_reachable : importRecovered.Reachable :=
  ⟨importWorkspaceId, firstService, [importSource], importStart :: importInterrupted, rfl⟩

def importCancellation : Except JobError (JobControlResult × Store) :=
  importRecovered.requestJobCancellation secondService importJobId 2000000

def importRetry : Except JobError (JobControlResult × Store) :=
  importRecovered.requestJobRetry secondService importJobId 2000000

theorem none_answers : (none : Option JobInput).all (·.jobId = importJobId.text) = true := rfl

/-- A recovered import, cancelled or retried in the microsecond of its recovery: the cancelled job is
still cancellable, and the refused retry tells an event. -/
theorem control_soundness_not_always :
    (¬ ∀ (s : Store), s.Reachable → ∀ (jobId : JobId) (before : Job), s.find jobId = some before →
      ∀ (authority : Authority) (settledAtUs : Nat) (result : JobControlResult) (s' : Store),
        s.requestJobCancellation authority jobId settledAtUs = .ok (result, s') →
        ∃ after, s'.find jobId = some after ∧ CancelSound before after result none) ∧
    ¬ ∀ (s : Store), s.Reachable → ∀ (jobId : JobId) (before : Job), s.find jobId = some before →
      ∀ (authority : Authority) (settledAtUs : Nat) (result : JobControlResult) (s' : Store),
        s.requestJobRetry authority jobId settledAtUs = .ok (result, s') →
        ∃ after, s'.find jobId = some after ∧ RetrySound before after result none := by
  refine ⟨fun hsound => ?_, fun hsound => ?_⟩
  · obtain ⟨⟨result, s'⟩, hcall⟩ := exists_ok_of_isOk (x := importCancellation) (by rfl)
    obtain ⟨after, hafter, h⟩ := hsound _ importRecovered_reachable importJobId importRequeued
      (by rfl) _ _ _ _ hcall
    obtain ⟨after', hafter', hiff⟩ := Store.requestJobCancellation_sound_iff
      importRecovered_reachable.valid (by rfl) none_answers hcall
    obtain rfl := Option.some.inj (hafter.symm.trans hafter')
    exact hiff.1 h ⟨by decide, by decide⟩
  · obtain ⟨⟨result, s'⟩, hcall⟩ := exists_ok_of_isOk (x := importRetry) (by rfl)
    obtain ⟨after, hafter, h⟩ := hsound _ importRecovered_reachable importJobId importRequeued
      (by rfl) _ _ _ _ hcall
    obtain ⟨after', hafter', hiff⟩ := Store.requestJobRetry_sound_iff
      importRecovered_reachable.valid (by rfl) none_answers hcall
    obtain rfl := Option.some.inj (hafter.symm.trans hafter')
    exact (hiff.1 h).1 rfl

/-- The same import: cancelled a second later the answer is sound, and the retry's is not. -/
theorem control_soundness_iff_import :
    (∃ result s' after, importRecovered.requestJobCancellation secondService importJobId 3000000 =
      .ok (result, s') ∧ s'.find importJobId = some after ∧
      CancelSound importRequeued after result none) ∧
    ∃ result s' after, importRetry = .ok (result, s') ∧ s'.find importJobId = some after ∧
      ¬ RetrySound importRequeued after result none := by
  refine ⟨?_, ?_⟩
  · obtain ⟨⟨result, s'⟩, hcall⟩ := exists_ok_of_isOk
      (x := importRecovered.requestJobCancellation secondService importJobId 3000000) (by rfl)
    obtain ⟨after, hafter, hiff⟩ := (control_soundness_iff importRecovered importRecovered_reachable
      importJobId importRequeued (by rfl) secondService 3000000 none rfl result s').1 hcall
    exact ⟨result, s', after, hcall, hafter, hiff.2 (by decide)⟩
  · obtain ⟨⟨result, s'⟩, hcall⟩ := exists_ok_of_isOk (x := importRetry) (by rfl)
    obtain ⟨after, hafter, hiff⟩ := (control_soundness_iff importRecovered importRecovered_reachable
      importJobId importRequeued (by rfl) secondService 2000000 none rfl result s').2 hcall
    exact ⟨result, s', after, hcall, hafter, fun h => (hiff.1 h).1 rfl⟩

end OmniviaCore.Jobs
