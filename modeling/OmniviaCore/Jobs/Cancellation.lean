import OmniviaCore.Jobs.Controls

/-!
# An accepted cancellation, and what becomes of it

After `request_job_cancellation` accepts a request the handle says `cancellation_pending` until the job
ends, in all but three cases. A request accepted in the microsecond of the last terminal observation is
pending at no time. A worker's claim starts a job whose cancellation is pending. And the recovery of a
stranded job requeues it, which shadows the request.

`LosesCancellation` are the last two.
-/

namespace OmniviaCore.Jobs

open Lib

namespace Job

variable {j j' : Job} {authority : Authority}

def IsPending (j : Job) : Prop := j.control.cancellation = .cancellationPending

theorem isPending_iff (hkind : j.metadata.jobKind = IMPORT_JOB_KIND) :
    j.IsPending ↔ j.publicState.terminal = false ∧ j.hasPendingCancellation = true := by
  have hcontrollable : ¬ j.metadata.jobKind ∉ CONTROLLABLE_JOB_KINDS := by
    rw [hkind]
    decide
  simp only [IsPending, control, if_neg hcontrollable, cancellationAvailability]
  cases j.publicState <;> simp [JobState.terminal]

/-- A request stays pending while the state and the observations stay and controls are added. -/
theorem IsPending.of_controls (hv : j.Valid) (h : j.IsPending) (hmetadata : j'.metadata = j.metadata)
    (hstate : j'.publicState = j.publicState) (hobservations : j'.observations = j.observations)
    (hcontrols : j.controls ⊆ j'.controls) : j'.IsPending := by
  rw [isPending_iff hv.kind] at h
  rw [isPending_iff (hmetadata ▸ hv.kind), hstate]
  refine ⟨h.1, ?_⟩
  have hpending := h.2
  unfold hasPendingCancellation lastFinishedAtUs at hpending ⊢
  rw [hobservations]
  obtain ⟨c, hc, hrequest⟩ := List.any_eq_true.1 hpending
  exact List.any_eq_true.2 ⟨c, hcontrols hc, hrequest⟩

/-- A request accepted in another microsecond than the last terminal observation's is pending. -/
theorem cancellationTold_isPending {settledAtUs : Nat} (hv : j.Valid)
    (hoffered : j.control.cancellation = .cancellable) (hpositive : 0 < settledAtUs)
    (hnow : j.horizonUs ≤ settledAtUs) (hinstant : j.lastFinishedAtUs ≠ some settledAtUs) :
    (j.cancellationTold authority settledAtUs).IsPending := by
  have hcancellable : (j.cancellationTold authority settledAtUs).control.cancellation ≠
      .cancellable := (cancellationTold_cancellable hv hoffered hpositive hnow).not.2 hinstant
  have hactive := ((cancellable_iff hv.kind).1 hoffered).1
  rw [isPending_iff (j := j.cancellationTold authority settledAtUs) hv.kind]
  rw [ne_eq, cancellable_iff (j := j.cancellationTold authority settledAtUs) hv.kind,
    not_and] at hcancellable
  exact ⟨hactive, by simpa using hcancellable hactive⟩

/-- A pending job is neither recovered from nor cancelled anew. -/
theorem IsPending.dispositions (h : j.IsPending) (hv : j.Valid) :
    j.cancellationDisposition ≠ .cancellationRequested ∧
      j.recoveryDisposition = .notRetryable := by
  have hactive := ((isPending_iff hv.kind).1 h).1
  refine ⟨fun hrequested => ?_, ?_⟩
  · rw [cancellationDisposition_requested, show j.control.cancellation = _ from h] at hrequested
    cases hrequested
  · obtain hrefused | ⟨-, hstate⟩ := recoveryDisposition_cases (j := j)
    · exact hrefused
    · unfold publicState at hactive
      rcases hstate with hstate | hstate <;> rw [hstate] at hactive <;> cases hactive

/-- The request is pending still, with the attempts as they were, or the job has ended. -/
def PendingSince (attempts : List AttemptRow) (j : Job) : Prop :=
  j.publicState.terminal = true ∨ (j.IsPending ∧ j.attempts = attempts)

theorem ended_terminal (nowUs updatedAtUs : Nat) (document : TerminalDocument) (message : String) :
    (j.ended authority nowUs updatedAtUs document message).publicState.terminal = true := by
  cases document <;> rfl

/-- A writer starts or requeues a pending job: a claim of it in the queue, or its recovery, with
budget left. -/
def LosesCancellation (j : Job) (authority : Authority) (op : JobOp) : Prop :=
  j.IsPending ∧ j.attempts.length < j.metadata.maxAttempts ∧
    match op with
    | .claim nowUs => j.state = .queued ∧ j.horizonUs ≤ nowUs
    | .recover nowUs => j.state = .claimed ∧ j.fencingGeneration < authority.fencingGeneration ∧
        j.horizonUs ≤ nowUs
    | _ => False

theorem IsPending.apply (h : j.IsPending) (hv : j.Valid) {op : JobOp}
    (hkeeps : ¬ j.LosesCancellation authority op) (happly : op.apply authority j = .ok j') :
    PendingSince j.attempts j' := by
  cases op with
  | claim nowUs =>
    obtain ⟨hqueued, hbudget, hnow, -⟩ := claim_ok hv happly
    exact absurd ⟨h, hbudget, hqueued, hnow⟩ hkeeps
  | terminalize outcome nowUs =>
    obtain ⟨-, -, -, -, document, -, -, rfl⟩ := terminalize_ok hv happly
    exact .inl (ended_terminal ..)
  | requestCancellation settledAtUs =>
    obtain ⟨hrequested, -⟩ | ⟨-, rfl⟩ := requestCancellation_ok hv happly
    · exact absurd hrequested (h.dispositions hv).1
    · exact .inr ⟨h.of_controls hv rfl rfl rfl (List.subset_append_left _ _), rfl⟩
  | requestRetry settledAtUs =>
    obtain ⟨haccepted, -⟩ | ⟨-, -, rfl⟩ | ⟨-, -, -, rfl⟩ := requestRetry_ok hv happly
    · exact absurd (h.dispositions hv).2 haccepted
    · exact .inr ⟨h.of_controls hv rfl rfl rfl (List.subset_append_left _ _), rfl⟩
    · exact .inr ⟨h.of_controls hv rfl rfl rfl (List.subset_append_left _ _), rfl⟩
  | acknowledgeCancellation sawQueued startedAtUs nowUs reason =>
    obtain ⟨started, hqueued, hbudget, hnow, rfl, hend⟩ | hend :=
      acknowledgeCancellation_ok hv happly
    · obtain ⟨-, -, -, -, document, -, -, rfl⟩ :=
        terminalize_ok (hv.started hqueued hbudget hnow) hend
      exact .inl (ended_terminal ..)
    · obtain ⟨-, -, -, -, document, -, -, rfl⟩ := terminalize_ok hv hend
      exact .inl (ended_terminal ..)
  | adoptStaleClaim nowUs =>
    obtain ⟨-, -, rfl⟩ := adoptStaleClaim_ok happly
    exact .inr ⟨h.of_controls hv rfl rfl rfl (List.Subset.refl _), rfl⟩
  | recover nowUs =>
    obtain ⟨hclaimed, hstale, hnow, ⟨hbudget, -⟩ | ⟨-, rfl⟩⟩ := recover_ok hv happly
    · exact absurd ⟨h, hbudget, hclaimed, hstale, hnow⟩ hkeeps
    · exact .inl (ended_terminal ..)
  | insertCheckpoint attemptNumber createdAtUs =>
    obtain ⟨row, rfl⟩ := insertCheckpoint_ok happly
    exact .inr ⟨h.of_controls hv rfl rfl rfl (List.Subset.refl _), rfl⟩

end Job

/-! ## Runs -/

namespace Store

/-- The step starts or requeues the job while its cancellation is pending. -/
def LosesCancellation (s : Store) (label : Label) (jobId : JobId) : Prop :=
  ∃ j op, s.find jobId = some j ∧ s.Asks label jobId op ∧ j.LosesCancellation s.holder op

def Active (s : Store) (jobId : JobId) : Prop :=
  ∀ j, s.find jobId = some j → j.publicState.terminal = false

end Store

/-- In every run from a call that accepts the cancellation of a job, in another microsecond than that
of the job's last terminal observation: while no step claims the pending job for a worker or requeues
it from a stranded attempt, and for as long as the job has not ended, every reading says
`cancellation_pending` and no attempt is started. -/
theorem accepted_cancellation_never_lost (s : Store) (hs : s.Reachable) (jobId : JobId)
    (before : Job) (hbefore : s.find jobId = some before) (authority : Authority)
    (settledAtUs : Nat) (hinstant : before.lastFinishedAtUs ≠ some settledAtUs)
    (result : JobControlResult) (s' : Store)
    (hcall : s.requestJobCancellation authority jobId settledAtUs = .ok (result, s'))
    (haccepted : result.disposition = .cancellationRequested) (later : List Label)
    (hkeeps : Along Store.step (fun s label => ¬ s.LosesCancellation label jobId) s' later)
    (hactive : Along Store.step (fun s _ => s.Active jobId) s' later) :
    ∃ after, (run Store.step s' later).find jobId = some after ∧
      (after.snapshot.job.state.terminal = true ∨
        (after.snapshot.job.control.cancellation = .cancellationPending ∧
          after.attempts = before.attempts)) := by
  have hv := hs.find_valid hbefore
  obtain ⟨hperform, told, htold, happly, rfl⟩ := Store.control_ok hs.valid hbefore hcall
  have hs' : s'.Valid := Store.perform_valid hs.valid hperform
  have hrequested : told.IsPending ∧ told.attempts = before.attempts := by
    obtain ⟨-, hpositive, hnow, rfl⟩ | ⟨hrefused, -⟩ := Job.requestCancellation_ok hv happly
    · exact ⟨Job.cancellationTold_isPending hv
        (Job.cancellationDisposition_requested.1 haccepted) hpositive hnow hinstant, rfl⟩
    · exact absurd haccepted hrefused
  refine Store.run_written_along (P := Job.PendingSince before.attempts)
    (C := fun s label => ¬ s.LosesCancellation label jobId ∧ s.Active jobId) ?_ hs' htold
    (.inr hrequested) (hkeeps.and hactive)
  rintro s label op j j' ⟨hkeeps, hactive⟩ hj hv hasks happly hpending
  obtain hended | ⟨hpending, hattempts⟩ := hpending
  · rw [hactive j hj] at hended
    cases hended
  · rw [← hattempts]
    exact hpending.apply hv (fun hloses => hkeeps ⟨j, op, hj, hasks, hloses⟩) happly

/-! ## The cancelled import -/

def importStarted : Store := importWorkspace.step importStart

def importCancelled : Store :=
  { importStarted with jobs := [importRunning.cancellationTold firstService 1500000] }

theorem importCancelled_eq :
    importStarted.requestJobCancellation firstService importJobId 1500000 =
      .ok (⟨(importRunning.cancellationTold firstService 1500000).handle, .cancellationRequested⟩,
        importCancelled) := by rfl

theorem importStarted_reachable : importStarted.Reachable :=
  ⟨importWorkspaceId, firstService, [importSource], [importStart], rfl⟩

theorem importCancelled_active : importCancelled.Active importJobId ∧
    (importCancelled.step (.takeover secondService)).Active importJobId := by
  refine ⟨fun j hj => ?_, fun j hj => ?_⟩
  all_goals
    obtain rfl := Option.some.inj hj
    rfl

/-- The import's worker dies, another service takes over and recovers the job: the request is lost,
and the job is in the queue and cancellable again. -/
theorem accepted_cancellation_lost :
    ¬ ∀ (s : Store), s.Reachable → ∀ (jobId : JobId) (before : Job), s.find jobId = some before →
      ∀ (authority : Authority) (settledAtUs : Nat) (result : JobControlResult) (s' : Store),
        s.requestJobCancellation authority jobId settledAtUs = .ok (result, s') →
        result.disposition = .cancellationRequested → ∀ later : List Label,
        Along Store.step (fun s _ => s.Active jobId) s' later →
        ∃ after, (run Store.step s' later).find jobId = some after ∧
          (after.snapshot.job.state.terminal = true ∨
            (after.snapshot.job.control.cancellation = .cancellationPending ∧
              after.attempts = before.attempts)) := by
  intro h
  obtain ⟨after, hafter, hkept⟩ := h importStarted importStarted_reachable importJobId importRunning
    (by rfl) firstService 1500000 _ _ importCancelled_eq rfl importInterrupted
    ⟨importCancelled_active.1, importCancelled_active.2, trivial⟩
  have hread : ((run Store.step importCancelled importInterrupted).find importJobId).map
      (fun k => (k.snapshot.job.state, k.snapshot.job.control.cancellation)) =
      some (.queued, .cancellable) := by rfl
  rw [hafter, Option.map_some, Option.some.injEq, Prod.mk.injEq] at hread
  rw [hread.1, hread.2] at hkept
  obtain h | ⟨h, -⟩ := hkept <;> cases h

/-- The import's worker is replaced by one that adopts its claim: the request stays pending. -/
theorem accepted_cancellation_never_lost_import :
    ∃ after, (run Store.step importCancelled [.takeover secondService,
        onImport secondService (.adoptStaleClaim 2000000)]).find importJobId = some after ∧
      (after.snapshot.job.state.terminal = true ∨
        (after.snapshot.job.control.cancellation = .cancellationPending ∧
          after.attempts = importRunning.attempts)) := by
  refine accepted_cancellation_never_lost importStarted importStarted_reachable importJobId
    importRunning (by rfl) firstService 1500000 (by decide) _ _ importCancelled_eq rfl _
    ⟨?_, ?_, trivial⟩ ⟨importCancelled_active.1, importCancelled_active.2, trivial⟩
  · rintro ⟨j, op, -, hasks, -⟩
    exact hasks
  · rintro ⟨j, op, -, ⟨-, -, rfl⟩, -, -, h⟩
    exact h

end OmniviaCore.Jobs
