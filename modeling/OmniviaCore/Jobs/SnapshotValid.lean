import OmniviaCore.Jobs.Store

/-!
# Every reading is a contract value

A valid job reads as a result `validate_job_get_result` accepts, with a history
`validate_job_attempt_history` accepts (`Job.Valid.snapshot`); so does every job of every store a
run reaches (`read_application_job_snapshot_valid`).
-/

namespace OmniviaCore.Jobs

open Lib

/-! ## Attempts -/

section Attempts

variable {created horizon updated : Nat} {a : AttemptRow} {attempts : List AttemptRow}

theorem validateApiError_ok (error : ApiError) : validateApiError error = .ok () := by
  simp [validateApiError, error.code_valid, error.message_valid, error.retryClass_valid]

theorem AttemptRow.Valid.attempt (h : a.Valid created horizon) (hnumber : 1 ≤ a.attemptNumber) :
    validateJobAttempt a.toWire = .ok () := by
  have herror : validateAttemptError a.toWire = .ok () := by
    have hfailed := h.failed
    unfold validateAttemptError AttemptRow.toWire
    cases hcase : a.error with
    | none => simp_all
    | some error => simp_all [validateApiError_ok]
  have hordered : (a.finishedAtUs.map timestamp).all (timestamp a.startedAtUs ≤ ·) = true := by
    cases hfinish : a.finishedAtUs with
    | none => rfl
    | some f => simpa using timestamp_mono (h.ordered f hfinish).1
  have hended : a.state.terminal = true → a.finishedAtUs.isSome = true := by
    intro hterminal
    refine Option.isSome_iff_ne_none.2 fun hopen => ?_
    rw [h.running.2 hopen] at hterminal
    cases hterminal
  simp only [validateJobAttempt, bind_eq_ok, require_eq_ok, exists_unit]
  refine ⟨hnumber, h.started, hordered, herror, ?_, ?_⟩
  · intro hrunning
    simp [AttemptRow.toWire, h.running.1 hrunning]
  · intro hterminal
    simpa [AttemptRow.toWire] using hended hterminal

theorem AttemptRow.Valid.instants (h : a.Valid created horizon) (hle : horizon ≤ updated) :
    validateAttemptInstants a.toWire (timestamp created) (timestamp updated) = .ok () := by
  simp only [validateAttemptInstants, bind_eq_ok, require_eq_ok, exists_unit]
  refine ⟨timestamp_mono h.after_created, timestamp_mono (le_trans h.start_le hle), ?_, ?_⟩
  all_goals
    simp only [AttemptRow.toWire]
    cases hfinish : a.finishedAtUs with
    | none => rfl
    | some f =>
      obtain ⟨hstart, hfinish⟩ := h.ordered f hfinish
      have := h.after_created
      simp only [Option.map_some, Option.all_some, decide_eq_true_eq]
      exact timestamp_mono (by omega)

theorem validateAttemptsFrom_ok {executing : Bool} {index : Nat} {previous : Option Nat}
    (hnumbered : Numbered (index + 1) AttemptRow.attemptNumber attempts)
    (hvalid : ∀ a ∈ attempts, a.Valid created horizon)
    (hpairwise : attempts.Pairwise AttemptRow.FollowedBy)
    (hprevious : ∀ a ∈ attempts.head?, ∀ f, previous = some f → f ≤ timestamp a.startedAtUs)
    (hopen : executing = true ∨ ∀ a ∈ attempts, a.finishedAtUs ≠ none) (hle : horizon ≤ updated) :
    validateAttemptsFrom executing (timestamp created) (timestamp updated) index previous
      (attempts.map AttemptRow.toWire) = .ok () := by
  induction attempts generalizing index previous with
  | nil => rfl
  | cons a rest ih =>
    obtain ⟨hnumber, hrest⟩ := hnumbered.tail
    obtain ⟨hfollowed, hpairwise⟩ := List.pairwise_cons.1 hpairwise
    have ha := hvalid a (List.mem_cons_self ..)
    simp only [List.map_cons, validateAttemptsFrom, bind_eq_ok, require_eq_ok, exists_unit]
    refine ⟨ha.attempt (by omega), hnumber, ?_, ?_, ?_, ?_, ha.instants hle, ?_⟩
    · cases previous with
      | none => rfl
      | some f =>
        simp only [Option.all_some, decide_eq_true_eq]
        exact hprevious a rfl f rfl
    · intro hunfinished
      refine List.map_eq_nil_iff.2 (List.eq_nil_iff_forall_not_mem.2 fun b hb => ?_)
      obtain ⟨f, hf, -⟩ := (hfollowed b hb).2
      simp [AttemptRow.toWire, hf] at hunfinished
    · intro hunfinished
      refine hopen.resolve_right fun hall => hall a (List.mem_cons_self ..) ?_
      simpa [AttemptRow.toWire] using hunfinished
    · intro hne
      obtain ⟨b, hb⟩ := List.exists_mem_of_ne_nil _ (mt (fun h => List.map_eq_nil_iff.2 h) hne)
      exact (hfollowed b hb).1
    · refine ih hrest (fun b hb => hvalid b (List.mem_cons_of_mem _ hb)) hpairwise ?_ ?_
      · intro b hb f hf
        obtain ⟨g, hg, hle⟩ := (hfollowed b (List.mem_of_mem_head? hb)).2
        simp only [AttemptRow.toWire, hg, Option.map_some, Option.some.injEq] at hf
        exact hf ▸ timestamp_mono hle
      · exact hopen.imp_right fun hall b hb => hall b (List.mem_cons_of_mem _ hb)

end Attempts

/-! ## A valid job -/

namespace Job

variable {j : Job}

theorem horizon_le_updated (j : Job) : j.horizonUs ≤ j.updatedUs := le_max_right _ _

theorem Valid.history (hv : j.Valid) :
    validateJobAttemptHistory j.history (decide (j.publicState = .running)) j.handle.createdAt
      j.handle.updatedAt = .ok () := by
  simp only [validateJobAttemptHistory, bind_eq_ok, require_eq_ok, exists_unit]
  refine ⟨?_, ?_⟩
  · rw [Job.history, List.length_map]
    exact le_trans hv.attempts_le hv.budget
  · refine validateAttemptsFrom_ok hv.attempts.numbered hv.attempts.valid hv.attempts.pairwise
      (fun _ _ _ h => by cases h) ?_ j.horizon_le_updated
    by_cases hclaimed : j.state = .claimed
    · exact .inl (by rw [publicState, hclaimed]; rfl)
    · refine .inr fun a ha => ?_
      obtain ⟨f, hf⟩ := hv.attempts.finished hclaimed ha
      simp [hf]

theorem Valid.identity (hv : j.Valid) : validateJobIdentity j.identity = .ok () := by
  simp only [validateJobIdentity, bind_eq_ok, require_eq_ok, exists_unit]
  refine ⟨j.metadata.jobId.isOpaqueToken, ?_, ?_, j.metadata.auditRef.valid, ?_⟩
  · show isOpenCode j.metadata.jobKind = true
    rw [hv.kind]
    decide
  · show isOperationName j.metadata.originatingOperation = true
    rw [hv.operation]
    decide
  · simpa [Job.identity] using j.metadata.workspaceId.valid

theorem Valid.control_eq (hv : j.Valid) :
    j.control = ⟨j.cancellationAvailability, j.recoveryAvailability⟩ := by
  have hkind : j.metadata.jobKind ∈ CONTROLLABLE_JOB_KINDS := by
    rw [hv.kind]
    exact List.mem_cons_self ..
  rw [Job.control, if_neg (not_not.2 hkind)]

theorem cancellationAvailability_mem (j : Job) :
    j.cancellationAvailability ∈ allowedCancellation j.publicState := by
  unfold cancellationAvailability allowedCancellation
  cases j.publicState <;> cases j.hasPendingCancellation <;> simp

theorem recoveryAvailability_mem (j : Job) :
    j.recoveryAvailability ∈ allowedRecovery j.publicState := by
  unfold recoveryAvailability allowedRecovery
  cases j.publicState
  case failed | cancelled =>
    dsimp only
    split <;> simp
  all_goals simp

theorem Valid.control (hv : j.Valid) : validateJobControl j.control j.publicState = .ok () := by
  rw [hv.control_eq]
  simp only [validateJobControl, bind_eq_ok, require_eq_ok, exists_unit]
  exact ⟨j.cancellationAvailability_mem, j.recoveryAvailability_mem⟩

theorem Valid.latestAttempt (hv : j.Valid) : validateLatestAttempt j.handle = .ok () := by
  obtain ⟨init, last, hattempts, hlast⟩ := hv.attempts.last
  have hvalid := hattempts ▸ hv.attempts
  have hmem : last ∈ init ++ [last] := by simp
  have hnumber := (numbered_concat.1 hvalid.numbered).2
  have hfinished : j.state ≠ .claimed → last.finishedAtUs.isSome = true := by
    intro hstate
    obtain ⟨f, hf⟩ := hvalid.finished hstate hmem
    simp [hf]
  have hlatest : j.handle.latestAttempt = some last.toWire := by
    simp [handle, Job.history, hattempts]
  unfold validateLatestAttempt
  simp only [hlatest, bind_eq_ok, require_eq_ok, exists_unit]
  refine ⟨(hvalid.valid last hmem).attempt (by omega),
    (hvalid.valid last hmem).instants j.horizon_le_updated, ?_⟩
  simp only [handle, publicState, AttemptRow.toWire, Option.isSome_map]
  cases hstate : j.state <;> rw [hstate] at hlast <;>
    simp_all [SchedulerState.HasLast, SchedulerState.publicState]

theorem Valid.handle (hv : j.Valid) : validateJobHandle j.handle = .ok () := by
  have hprogress : j.progress = none := by rw [progress, hv.progress_nil]; rfl
  simp only [validateJobHandle, bind_eq_ok, require_eq_ok, exists_unit]
  refine ⟨hv.identity, ?_, hv.control, ?_, hv.latestAttempt⟩
  · exact timestamp_mono (le_trans (le_max_left _ _) (le_max_left _ _))
  · simp [validateHandleProgress, Job.handle, hprogress]

/-- The last observation of a job that is not running states how its last attempt ended. -/
theorem Valid.latestObservation (hv : j.Valid) (h : j.state ≠ .claimed) :
    ∃ init last o, j.attempts = init ++ [last] ∧ j.state.HasLast last ∧
      j.latestObservation = some o ∧ o ∈ j.observations ∧ o.ending = last.ending := by
  obtain ⟨init, last, hattempts, hlast⟩ := hv.attempts.last
  have hending := hv.observations_ending
  rw [hv.endedAttempts_eq h, hattempts, List.map_append] at hending
  have hgetLast := congrArg List.getLast? hending
  rw [List.getLast?_map, List.map_singleton, List.getLast?_concat] at hgetLast
  obtain ⟨o, ho, heq⟩ := Option.map_eq_some_iff.1 hgetLast
  refine ⟨init, last, o, hattempts, hlast, ?_, List.mem_of_getLast? ho, heq⟩
  rw [Job.latestObservation, hv.observations_numbered.latest, ho]

/-- A document that fits the job passes as its terminal result. -/
theorem Valid.document (hv : j.Valid) {o : ObservationRow} (ho : o ∈ j.observations)
    (hending : ∀ error, o.document = .failure error →
      j.history.getLast?.all (·.error = some error) = true) :
    validateTerminalDocument
      ⟨j.identity, j.publicState, timestamp o.finishedAtUs, j.history, o.document⟩
      (some j.source) = .ok () := by
  have hfits := hv.observations_fit o ho
  unfold validateTerminalDocument
  cases hdocument : o.document with
  | failure error => simp [validateApiError_ok, hending error hdocument]
  | cancellation reason =>
    rw [hdocument] at hfits
    simpa [TerminalDocument.Fits] using hfits
  | success resultKind result =>
    rw [hdocument] at hfits
    obtain ⟨rfl, evidenceCreated, rfl⟩ := hfits
    have hsource : validateImportSourceDescriptor j.source = .ok () := by
      simp [validateImportSourceDescriptor, j.source.ref_valid, j.source.kind_valid,
        j.source.checksum_valid, j.source.media_valid, j.source.version_valid]
    have hkind : isOpenCode JOB_TERMINAL_RESULT_KIND_IMPORT_COMPLETION = true := by decide
    have hitems : (1 : Nat) = (if evidenceCreated then 1 else 0) + (if evidenceCreated then 0 else 1)
        := by cases evidenceCreated <;> rfl
    simp [validateImportTerminalSuccess, validateImportCompletionResult,
      validateImportCompletionResultShape, importCompletion, Job.identity, hv.kind, hv.operation,
      hsource, hkind, j.metadata.jobId.isOpaqueToken, hitems.symm]

theorem Valid.terminalResult (hv : j.Valid) (hterminal : j.publicState.terminal = true) :
    ∃ o : ObservationRow, j.terminalResult =
        some ⟨j.identity, j.publicState, timestamp o.finishedAtUs, j.history, o.document⟩ ∧
      validateJobTerminalResult
        ⟨j.identity, j.publicState, timestamp o.finishedAtUs, j.history, o.document⟩
        (some j.source) j.handle.createdAt j.handle.updatedAt = .ok () := by
  have hclaimed : j.state ≠ .claimed := by
    intro h
    rw [publicState, h] at hterminal
    cases hterminal
  obtain ⟨init, last, o, hattempts, hlast, hlatest, ho, hending⟩ := hv.latestObservation hclaimed
  have hstate : o.document.state = last.state := congrArg AttemptEnding.state hending
  have hfinished : some o.finishedAtUs = last.finishedAtUs :=
    congrArg AttemptEnding.finishedAtUs hending
  have herror : o.document.error = last.error := congrArg AttemptEnding.error hending
  have hpublic : last.state = j.publicState := by
    unfold publicState at hterminal ⊢
    cases h : j.state <;> rw [h] at hlast hterminal
    case queued => cases hterminal
    all_goals exact hlast
  have hgetLast : j.history.getLast? = some last.toWire := by
    rw [Job.history, hattempts, List.map_append, List.map_singleton, List.getLast?_concat]
  refine ⟨o, ?_, ?_⟩
  · rw [Job.terminalResult, hlatest]
    simp [hstate, hpublic]
  · have hexecuting : decide (j.publicState = .running) = false := by
      cases h : j.publicState <;> rw [h] at hterminal
      case running => cases hterminal
      all_goals rfl
    have hhistory := hv.history
    rw [hexecuting] at hhistory
    simp only [validateJobTerminalResult, bind_eq_ok, require_eq_ok, exists_unit]
    refine ⟨hv.identity, (hstate.trans hpublic).symm, hhistory, ?_, hv.document ho ?_⟩
    · simp [validateFinalAttempt, hgetLast, AttemptRow.toWire, hstate, ← hfinished]
    · intro error hdocument
      rw [hdocument] at herror
      simp [hgetLast, AttemptRow.toWire, ← herror, TerminalDocument.error]

theorem terminalResult_eq_none (hterminal : j.publicState.terminal = false) :
    j.terminalResult = none := by
  unfold terminalResult
  cases hlatest : j.latestObservation with
  | none => rfl
  | some o =>
    refine if_neg fun hstate => ?_
    have hdocument : o.document.state.terminal = true := by cases o.document <;> rfl
    rw [hstate, hterminal] at hdocument
    cases hdocument

theorem Valid.terminalPart (hv : j.Valid) :
    validateTerminalPart j.snapshot (some j.source) = .ok () := by
  unfold validateTerminalPart snapshot
  cases hterminal : j.publicState.terminal with
  | false =>
    rw [terminalResult_eq_none hterminal]
    exact require_eq_ok.2 hterminal
  | true =>
    obtain ⟨o, heq, hvalid⟩ := hv.terminalResult hterminal
    simp only [heq, bind_eq_ok, require_eq_ok, exists_unit]
    exact ⟨hterminal, hvalid, rfl, rfl, rfl⟩

theorem Valid.snapshot (hv : j.Valid) {request : Option JobInput}
    (hrequest : request.all (·.jobId = j.metadata.jobId.text) = true) :
    validateJobGetResult j.snapshot request (some j.source) = .ok () := by
  simp only [validateJobGetResult, bind_eq_ok, require_eq_ok, exists_unit]
  exact ⟨hv.handle, hrequest, hv.terminalPart⟩

end Job

/-! ## The store -/

/-- `JobGetInput` of the job an id names. -/
def JobId.getInput (jobId : JobId) : JobInput := ⟨jobId.text, none, jobId.isOpaqueToken, rfl⟩

/-- In every store a run reaches, reading a job succeeds; the reading passes
`validate_job_get_result` with the descriptor its import was accepted with; and its attempts, no
more than its budget, pass `validate_job_attempt_history`, which admits an open attempt of a running
job only. -/
theorem read_application_job_snapshot_valid (s : Store) (hs : s.Reachable) (jobId : JobId) (j : Job)
    (hj : s.find jobId = some j) :
    s.readApplicationJobSnapshot jobId = some j.snapshot ∧
    validateJobGetResult j.snapshot (some jobId.getInput) (some j.source) = .ok () ∧
    validateJobAttemptHistory j.history (decide (j.publicState = .running))
      j.snapshot.job.createdAt j.snapshot.job.updatedAt = .ok () ∧
    j.history.length ≤ j.metadata.maxAttempts := by
  have hv := hs.find_valid hj
  obtain ⟨-, hid⟩ := Store.find_mem hj
  refine ⟨by rw [Store.readApplicationJobSnapshot, hj]; rfl, ?_, hv.history, ?_⟩
  · refine hv.snapshot ?_
    simp [JobId.getInput, hid]
  · rw [Job.history, List.length_map]
    exact hv.attempts_le

/-- The reading of an import just started. -/
theorem read_application_job_snapshot_valid_import :
    (run Store.step importWorkspace [importStart]).readApplicationJobSnapshot importJobId =
      some (Job.imported importWorkspaceId firstService importSource importJobId importAuditRef
        1000000).snapshot :=
  (read_application_job_snapshot_valid (run Store.step importWorkspace [importStart])
    ⟨importWorkspaceId, firstService, [importSource], [importStart], rfl⟩ importJobId
    (Job.imported importWorkspaceId firstService importSource importJobId importAuditRef 1000000)
    rfl).1

end OmniviaCore.Jobs
