import OmniviaCore.Jobs.Invariant

/-!
# What each writer does

The changes of `Invariant` keep `Valid`, and each writer that goes through on a valid job is one or
two of them: one lemma for each writer, from which every later result is read.
-/

namespace OmniviaCore.Jobs

open Lib

namespace Job

variable {j j' : Job} {authority : Authority} {nowUs updatedAtUs : Nat} {message : String}

/-! ## The changes keep the invariant -/

theorem horizonUs_concat {e : EventRow} (hle : j.horizonUs ≤ e.occurredAtUs) {k : Job}
    (hk : k.events = j.events ++ [e]) : k.horizonUs = e.occurredAtUs := by
  unfold horizonUs lastEventAtUs
  rw [hk, maxOf_concat]
  exact max_eq_right hle

theorem lastFinished_le (hv : j.Valid) : j.lastFinishedAtUs.getD 0 ≤ j.horizonUs := by
  cases h : j.lastFinishedAtUs with
  | none => exact Nat.zero_le _
  | some m =>
    obtain ⟨o, ho, rfl⟩ := exists_maxOf h
    have hending : o.ending ∈ j.endedAttempts.map AttemptRow.ending :=
      hv.observations_ending ▸ List.mem_map_of_mem ho
    obtain ⟨a, ha, heq⟩ := List.mem_map.1 hending
    have hfinish : a.finishedAtUs = some o.finishedAtUs := congrArg AttemptEnding.finishedAtUs heq
    exact ((hv.attempts.valid a (List.mem_filter.1 ha).1).ordered _ hfinish).2

theorem Valid.open_attempt (hv : j.Valid) (h : j.state = .claimed) :
    ∃ init last, j.attempts = init ++ [last] ∧ last.state = .running ∧ last.finishedAtUs = none ∧
      j.endedAttempts = init := by
  obtain ⟨init, last, hattempts, hlast⟩ := hv.attempts.last
  have hvalid := hattempts ▸ hv.attempts
  rw [h] at hlast
  have hopen := (hvalid.valid last (by simp)).running.1 hlast
  refine ⟨init, last, hattempts, hlast, hopen, ?_⟩
  have hinit : init.filter (fun a => a.finishedAtUs.isSome) = init := by
    refine List.filter_eq_self.2 fun a ha => ?_
    obtain ⟨f, hf, -⟩ := (hvalid.init_followedBy ha).2
    simp [hf]
  rw [endedAttempts, hattempts, List.filter_append, hinit]
  simp [hopen]

theorem Valid.endedAttempts_eq (hv : j.Valid) (h : j.state ≠ .claimed) :
    j.endedAttempts = j.attempts := by
  refine List.filter_eq_self.2 fun a ha => ?_
  obtain ⟨f, hf⟩ := hv.attempts.finished h ha
  simp [hf]

theorem Valid.started (hv : j.Valid) (hqueued : j.state = .queued)
    (hbudget : j.attempts.length < j.metadata.maxAttempts) (hnow : j.horizonUs ≤ nowUs) :
    (j.started authority nowUs message).Valid := by
  have hhorizon : (j.started authority nowUs message).horizonUs = nowUs :=
    horizonUs_concat (e := ⟨j.events.length, nowUs, .running, message⟩) hnow rfl
  have hstate : j.publicState = .queued := by rw [publicState, hqueued]; rfl
  exact
    { hv with
      attempts := by
        rw [hhorizon]
        exact (hqueued ▸ hv.attempts).start hnow
      attempts_le := by
        simp only [Job.started, List.length_append, List.length_singleton]
        omega
      events := by
        refine hv.events.concat (e := ⟨j.events.length, nowUs, .running, message⟩) rfl hnow
          fun last hlast => ?_
        rw [legalStep_iff, hlast, hstate]
        simp [allowedProgressions, JOB_STATE_TRANSITIONS]
      observations_ending := by
        rw [show (j.started authority nowUs message).endedAttempts = j.endedAttempts by
          simp [Job.started, endedAttempts]]
        exact hv.observations_ending
      updated_le := fun h => absurd rfl h }

theorem Valid.ended (hv : j.Valid) (hclaimed : j.state = .claimed) (hnow : j.horizonUs ≤ nowUs)
    (hupdated : updatedAtUs ≤ nowUs) {document : TerminalDocument} (hfits : document.Fits j) :
    (j.ended authority nowUs updatedAtUs document message).Valid := by
  obtain ⟨init, last, hattempts, hrunning, hopen, hended⟩ := hv.open_attempt hclaimed
  have hmodify : (j.ended authority nowUs updatedAtUs document message).attempts =
      init ++ [last.finish document.state nowUs document.error] := by
    simp only [Job.ended, hattempts, List.modifyLast_concat]
  have hhorizon : (j.ended authority nowUs updatedAtUs document message).horizonUs = nowUs :=
    horizonUs_concat (e := ⟨j.events.length, nowUs, document.state, message⟩) hnow rfl
  have hterminal : document.state.terminal = true := by cases document <;> rfl
  have hvalid : AttemptsValid j.metadata.createdAtUs j.horizonUs .claimed (init ++ [last]) := by
    rw [← hclaimed, ← hattempts]
    exact hv.attempts
  have hattempts' : AttemptsValid j.metadata.createdAtUs nowUs document.state.scheduled
      (init ++ [last.finish document.state nowUs document.error]) :=
    hvalid.finish hnow hterminal
      (by cases document <;> simp [TerminalDocument.state, TerminalDocument.error])
  exact
    { hv with
      attempts := by
        rw [hhorizon, hmodify]
        exact hattempts'
      attempts_le := by
        have hle := hv.attempts_le
        rw [hattempts] at hle
        rw [hmodify, List.length_append, List.length_singleton]
        rwa [List.length_append, List.length_singleton] at hle
      events := by
        have hscheduled : document.state.scheduled.publicState = document.state := by
          cases document <;> rfl
        rw [show (j.ended authority nowUs updatedAtUs document message).publicState = document.state from
          hscheduled]
        refine hv.events.concat (e := ⟨j.events.length, nowUs, document.state, message⟩) rfl hnow
          fun last hlast => ?_
        rw [legalStep_iff, hlast, publicState, hclaimed]
        cases document <;>
          simp [allowedProgressions, JOB_STATE_TRANSITIONS, SchedulerState.publicState,
            TerminalDocument.state]
      observations_numbered := numbered_concat.2 ⟨hv.observations_numbered, rfl⟩
      observations_ending := by
        have hnotOpen : (j.ended authority nowUs updatedAtUs document message).endedAttempts =
            init ++ [last.finish document.state nowUs document.error] := by
          rw [← hended, endedAttempts, hmodify, List.filter_append, hended]
          have hinit : init.filter (fun a => a.finishedAtUs.isSome) = init := by
            rw [← hended, endedAttempts, List.filter_filter]
            simp
          rw [hinit]
          rfl
        have hnumber := (numbered_concat.1 hvalid.numbered).2
        rw [hnotOpen]
        simp only [Job.ended, List.map_append, hv.observations_ending, hended, List.map_cons,
          List.map_nil]
        congr 2
        simp [ObservationRow.ending, AttemptRow.ending, AttemptRow.finish, hattempts, hnumber,
          Nat.add_comm]
      observations_fit := by
        intro o ho
        rcases List.mem_append.1 ho with ho | ho
        · exact hv.observations_fit o ho
        · rw [List.mem_singleton.1 ho]
          exact hfits
      updated_le := fun _ => hupdated.trans_eq hhorizon.symm }

theorem Valid.noted (hv : j.Valid) (c : ControlRow) : (j.noted c).Valid :=
  { hv with events := hv.events.mono (List.subset_append_left _ _) }

theorem Valid.told (hv : j.Valid) (hnow : j.horizonUs ≤ nowUs) :
    (j.told nowUs j.publicState message).Valid := by
  have hhorizon : (j.told nowUs j.publicState message).horizonUs = nowUs :=
    horizonUs_concat (e := ⟨j.events.length, nowUs, j.publicState, message⟩) hnow rfl
  exact
    { hv with
      attempts := by
        rw [hhorizon]
        exact hv.attempts.mono hnow
      events := by
        refine hv.events.concat (e := ⟨j.events.length, nowUs, j.publicState, message⟩) rfl hnow
          fun last hlast => ?_
        rw [legalStep_iff, hlast]
        cases j.publicState <;> simp [allowedProgressions, JOB_STATE_TRANSITIONS]
      updated_le := by
        intro h
        rw [hhorizon]
        exact le_trans (hv.updated_le h) hnow }

theorem Valid.requeued (hv : j.Valid) (hstate : j.state = .failed ∨ j.state = .cancelled)
    {c : ControlRow} (hrecovers : c.recovers = true) (hnow : j.horizonUs ≤ c.settledAtUs)
    (hupdated : nowUs ≤ c.settledAtUs) : (j.requeued authority c nowUs message).Valid := by
  have hhorizon : (j.requeued authority c nowUs message).horizonUs = c.settledAtUs :=
    horizonUs_concat (e := ⟨j.events.length, c.settledAtUs, .queued, message⟩) hnow rfl
  exact
    { hv with
      attempts := by
        rw [hhorizon]
        refine (hv.attempts.mono hnow).of_state fun last hlast => ?_
        rcases hstate with h | h <;> rw [h] at hlast
        · exact .inl hlast
        · exact .inr hlast
      events := by
        refine (hv.events.mono (List.subset_append_left _ [c])).concat
          (e := ⟨j.events.length, c.settledAtUs, .queued, message⟩) rfl hnow fun last hlast => ?_
        have hany : ((j.controls ++ [c]).any fun c' =>
            c'.recovers && decide (c'.settledAtUs = c.settledAtUs)) = true := by
          simp [hrecovers]
        rw [legalStep_iff, hlast, hany, publicState]
        rcases hstate with h | h <;> rw [h] <;>
          simp [allowedProgressions, JOB_STATE_RECOVERY_TRANSITIONS, SchedulerState.publicState]
      updated_le := fun _ => hhorizon ▸ hupdated }

/-! ## The statements -/

theorem insertEvent_next {k k' : Job} {state : JobState} (hv : j.Valid)
    (h : k.insertEvent (k.nextEvent nowUs state message) = .ok k') (hk : k.events = j.events) :
    k' = k.told nowUs state message ∧ j.horizonUs ≤ nowUs := by
  obtain ⟨rfl, -, htime, -, -⟩ := insertEvent_ok h
  obtain ⟨init, last, hconcat, -⟩ := hv.events.last
  have hnext := hv.events.numbered.nextNumber
  have hlast := hv.events.numbered.find?_last
  rw [Nat.zero_add] at hnext hlast
  refine ⟨by rw [nextEvent, hk, hnext, ← hk]; rfl, ?_⟩
  simp only [nextEvent, eventAt, hk, hnext] at htime
  rw [hlast, hconcat] at htime
  unfold horizonUs lastEventAtUs
  rw [maxOf_of_pairwise hv.events.pairwise, hconcat]
  simpa using htime

theorem openAttempt_ok (hv : j.Valid)
    (h : (j.claimRow authority nowUs).openAttempt authority nowUs message = .ok j') :
    j.state = .queued ∧ j.attempts.length < j.metadata.maxAttempts ∧ j.horizonUs ≤ nowUs ∧
      j' = j.started authority nowUs message := by
  obtain ⟨attempted, hattempted, hevent⟩ := bind_eq_ok.1 h
  obtain ⟨rfl, hclaimed, -, hbudget, hretriable, -, -⟩ := insertAttempt_ok hattempted
  have hnumber := hv.attempts.numbered.nextNumber
  by_cases hqueued : j.state = .queued
  · simp only [claimRow, if_pos hqueued] at hbudget hevent
    obtain ⟨rfl, hnow⟩ := insertEvent_next hv hevent rfl
    rw [hnumber] at hbudget
    refine ⟨hqueued, by omega, hnow, ?_⟩
    rw [hnumber]
    rfl
  · -- the last attempt of a claimed job is running, so none may follow it
    simp only [claimRow, if_neg hqueued] at hclaimed hretriable
    obtain ⟨init, last, hattempts, hrunning, -, -⟩ := hv.open_attempt hclaimed
    have hlast := hv.attempts.numbered.find?_last
    rw [hnumber, attemptAt, hlast, hattempts] at hretriable
    rcases hretriable with hfirst | hretriable
    · rw [List.length_append, List.length_singleton] at hfirst
      omega
    · simp [hrunning] at hretriable

theorem finishAttempt_ok {k k' : Job} {state : JobState} {error : Option ApiError} (hv : j.Valid)
    (hclaimed : j.state = .claimed) (h : k.finishAttempt state nowUs error = .ok k')
    (hk : k.attempts = j.attempts) :
    k' = { k with attempts := j.attempts.modifyLast (·.finish state nowUs error) } := by
  obtain ⟨init, last, hattempts, hrunning, -, -⟩ := hv.open_attempt hclaimed
  have hnumbered := hattempts ▸ hv.attempts.numbered
  have hlatest : k.latestAttempt = some last := by
    rw [latestAttempt, hk, hattempts, hnumbered.latest, List.getLast?_concat]
  rw [finishAttempt, hlatest] at h
  simp only [hrunning, if_pos, bind_eq_ok, require_eq_ok, exists_unit, pure_eq_ok] at h
  obtain ⟨-, -, rfl⟩ := h
  rw [hk, hattempts, hnumbered.updateAt_concat, List.modifyLast_concat]

/-- The rows that end an attempt go through on a running job. -/
theorem endAttempt_ok {document : TerminalDocument} (hv : j.Valid) (hclaimed : j.state = .claimed)
    (h : j.endAttempt authority nowUs updatedAtUs document message = .ok j') :
    j.horizonUs ≤ nowUs ∧ (∀ reason, document = .cancellation reason → isOpenCode reason = true) ∧
      j' = j.ended authority nowUs updatedAtUs document message := by
  obtain ⟨finished, hfinished, h⟩ := bind_eq_ok.1 h
  obtain rfl := finishAttempt_ok hv hclaimed hfinished rfl
  obtain ⟨told, htold, hobservation⟩ := bind_eq_ok.1 h
  obtain ⟨rfl, hnow⟩ := insertEvent_next hv htold rfl
  obtain ⟨rfl, -, -, -, -, hdocument⟩ := insertObservation_ok hobservation
  obtain ⟨init, last, hattempts, -, -, -⟩ := hv.open_attempt hclaimed
  refine ⟨hnow, ?_, ?_⟩
  · rintro reason rfl
    simpa [checkDocument] using hdocument
  · have hnumbered := numbered_concat.1 (hattempts ▸ hv.attempts.numbered)
    have hfinished : Numbered 1 AttemptRow.attemptNumber
        (init ++ [last.finish document.state nowUs document.error]) := numbered_concat.2 hnumbered
    have hattempt : maxOf AttemptRow.attemptNumber
        (j.attempts.modifyLast (·.finish document.state nowUs document.error)) =
          some j.attempts.length := by
      rw [hattempts, List.modifyLast_concat, hfinished.maxOf, List.getLast?_concat,
        List.length_append, Nat.add_comm]
      exact congrArg some hnumbered.2
    simp only [Job.told, Job.ended, hattempt, hv.observations_numbered.nextNumber]

/-! ## The writers -/

def cancelControl (j : Job) (authority : Authority) (settledAtUs : Nat) : ControlRow :=
  ⟨.jobCancel, j.cancellationDisposition, j.publicState, j.publicState, none,
    authority.fencingGeneration, settledAtUs⟩

def retryControl (j : Job) (authority : Authority) (settledAtUs : Nat) : ControlRow :=
  ⟨.jobRetry, j.recoveryDisposition, j.publicState, .queued,
    maxOf ObservationRow.number j.observations, authority.fencingGeneration, settledAtUs⟩

def refusalControl (j : Job) (authority : Authority) (settledAtUs : Nat) : ControlRow :=
  ⟨.jobRetry, .notRetryable, j.publicState, j.publicState, none, authority.fencingGeneration,
    settledAtUs⟩

def recoveryControl (authority : Authority) (nowUs : Nat) : ControlRow :=
  ⟨.systemRecovery, .recoveryRequeued, .running, .queued, none, authority.fencingGeneration, nowUs⟩

theorem claim_ok (hv : j.Valid) (h : j.claim authority nowUs = .ok j') :
    j.state = .queued ∧ j.attempts.length < j.metadata.maxAttempts ∧ j.horizonUs ≤ nowUs ∧
      j' = j.started authority nowUs "job execution started" := by
  obtain ⟨-, -, h⟩ := bind_eq_ok.1 h
  exact openAttempt_ok hv h

theorem terminalize_ok (hv : j.Valid) {outcome : Outcome}
    (h : j.terminalize authority nowUs outcome = .ok j') :
    j.state = .claimed ∧ j.claimedBy = some authority.serviceInstanceId ∧
      j.fencingGeneration = authority.fencingGeneration ∧ j.horizonUs ≤ nowUs ∧
      ∃ document, j.documentOf outcome = .ok document ∧ document.Fits j ∧
        j' = j.ended authority nowUs nowUs document (terminalMessage document.state) := by
  simp only [terminalize, bind_eq_ok, require_eq_ok, exists_unit] at h
  obtain ⟨hclaimed, hholder, hgeneration, document, hdocument, h⟩ := h
  obtain ⟨hnow, hreason, rfl⟩ := endAttempt_ok hv hclaimed h
  refine ⟨hclaimed, hholder, hgeneration, hnow, document, hdocument, ?_, rfl⟩
  cases outcome with
  | succeeded evidenceCreated =>
    cases hdocument
    exact ⟨rfl, evidenceCreated, rfl⟩
  | failed error =>
    cases hdocument
    trivial
  | cancelled reason =>
    cases hdocument
    exact hreason reason rfl
  | other state => cases hdocument

theorem requestCancellation_ok (hv : j.Valid)
    (h : j.requestCancellation authority nowUs = .ok j') :
    (j.cancellationDisposition = .cancellationRequested ∧ 0 < nowUs ∧ j.horizonUs ≤ nowUs ∧
      j' = (j.noted (j.cancelControl authority nowUs)).told nowUs j.publicState
        "job cancellation requested") ∨
    (j.cancellationDisposition ≠ .cancellationRequested ∧
      j' = j.noted (j.cancelControl authority nowUs)) := by
  obtain ⟨noted, hnoted, h⟩ := bind_eq_ok.1 h
  obtain ⟨rfl, hpositive⟩ := insertControl_ok hnoted
  split at h
  next hrequested =>
    obtain ⟨rfl, hnow⟩ := insertEvent_next hv h rfl
    exact .inl ⟨hrequested, hpositive, hnow, rfl⟩
  next hrequested =>
    obtain rfl := pure_eq_ok.1 h
    exact .inr ⟨hrequested, rfl⟩

theorem requestRetry_ok (hv : j.Valid) (h : j.requestRetry authority nowUs = .ok j') :
    (j.recoveryDisposition ≠ .notRetryable ∧ j.horizonUs ≤ nowUs ∧
      j' = j.requeued authority (j.retryControl authority nowUs) (milliseconds nowUs)
        "job recovery scheduled") ∨
    (j.recoveryDisposition = .notRetryable ∧ j.publicState ≠ .queued ∧
      j' = j.noted (j.refusalControl authority nowUs)) ∨
    (j.recoveryDisposition = .notRetryable ∧ j.publicState = .queued ∧ j.horizonUs ≤ nowUs ∧
      j' = (j.noted (j.refusalControl authority nowUs)).told nowUs .queued
        "job recovery scheduled") := by
  unfold requestRetry at h
  split at h
  next haccepted =>
    obtain ⟨noted, hnoted, h⟩ := bind_eq_ok.1 h
    obtain ⟨rfl, -⟩ := insertControl_ok hnoted
    obtain ⟨rfl, hnow⟩ := insertEvent_next hv h rfl
    exact .inl ⟨haccepted, hnow, rfl⟩
  next hrefused =>
    obtain ⟨noted, hnoted, h⟩ := bind_eq_ok.1 h
    obtain ⟨rfl, -⟩ := insertControl_ok hnoted
    rw [not_not] at hrefused
    unfold insertRetryEvent at h
    split at h
    next hqueued =>
      obtain ⟨rfl, hnow⟩ := insertEvent_next hv h rfl
      exact .inr (.inr ⟨hrefused, hqueued, hnow, rfl⟩)
    next hqueued =>
      obtain rfl := pure_eq_ok.1 h
      exact .inr (.inl ⟨hrefused, hqueued, rfl⟩)

theorem adoptStaleClaim_ok (h : j.adoptStaleClaim authority nowUs = .ok j') :
    j.state = .claimed ∧ j.fencingGeneration < authority.fencingGeneration ∧
      j' = { j with
        updatedAtUs := milliseconds nowUs
        claimedBy := some authority.serviceInstanceId
        fencingGeneration := authority.fencingGeneration } := by
  simp only [adoptStaleClaim, bind_eq_ok, require_eq_ok, exists_unit, pure_eq_ok] at h
  obtain ⟨⟨hclaimed, hstale⟩, rfl⟩ := h
  exact ⟨hclaimed, hstale, rfl⟩

theorem ended_attempts_length (document : TerminalDocument) :
    (j.ended authority nowUs updatedAtUs document message).attempts.length = j.attempts.length := by
  rcases List.eq_nil_or_concat' j.attempts with h | ⟨init, last, h⟩
  · simp only [Job.ended, h]
    rfl
  · simp [Job.ended, h, List.modifyLast_concat]

abbrev interrupted (j : Job) (authority : Authority) (nowUs : Nat) : Job :=
  j.ended authority nowUs (milliseconds nowUs) (.failure recoveryError) "interrupted attempt failed"

theorem recover_ok (hv : j.Valid) (h : j.recover authority nowUs = .ok j') :
    j.state = .claimed ∧ j.fencingGeneration < authority.fencingGeneration ∧ j.horizonUs ≤ nowUs ∧
      ((j.attempts.length < j.metadata.maxAttempts ∧
        j' = (j.interrupted authority nowUs).requeued authority (recoveryControl authority nowUs)
          (milliseconds nowUs) "interrupted job recovered") ∨
      (¬ j.attempts.length < j.metadata.maxAttempts ∧
        j' = j.interrupted authority nowUs)) := by
  simp only [recover, bind_eq_ok, require_eq_ok, exists_unit] at h
  obtain ⟨⟨hclaimed, hstale⟩, ended, hended, h⟩ := h
  obtain ⟨hnow, -, rfl⟩ := endAttempt_ok hv hclaimed hended
  have hended' : (j.interrupted authority nowUs).Valid :=
    hv.ended hclaimed hnow (milliseconds_le nowUs) trivial
  have hlast : (maxOf AttemptRow.attemptNumber (j.interrupted authority nowUs).attempts).getD 0 =
      j.attempts.length := by
    have hnext := hended'.attempts.numbered.nextNumber
    obtain ⟨init, last, hattempts, -⟩ := hended'.attempts.last
    rw [← ended_attempts_length (.failure recoveryError), hended'.attempts.numbered.maxOf]
    have hnumber := (numbered_concat.1 (hattempts ▸ hended'.attempts.numbered)).2
    rw [hattempts, List.getLast?_concat, List.length_append]
    simp [hnumber, Nat.add_comm]
  rw [hlast] at h
  refine ⟨hclaimed, hstale, hnow, ?_⟩
  split at h
  next hbudget =>
    obtain ⟨noted, hnoted, h⟩ := bind_eq_ok.1 h
    obtain ⟨rfl, -⟩ := insertControl_ok hnoted
    obtain ⟨rfl, -⟩ := insertEvent_next hended' h rfl
    exact .inl ⟨hbudget, rfl⟩
  next hbudget =>
    obtain rfl := pure_eq_ok.1 h
    exact .inr ⟨hbudget, rfl⟩

theorem acknowledgeCancellation_ok (hv : j.Valid) {sawQueued : Bool} {startedAtUs : Nat}
    {reason : String}
    (h : j.acknowledgeCancellation authority sawQueued startedAtUs nowUs reason = .ok j') :
    (∃ started, j.state = .queued ∧ j.attempts.length < j.metadata.maxAttempts ∧
      j.horizonUs ≤ startedAtUs ∧
      started = j.started authority startedAtUs "cancellation acknowledgement started" ∧
      started.terminalize authority nowUs (.cancelled reason) = .ok j') ∨
    j.terminalize authority nowUs (.cancelled reason) = .ok j' := by
  unfold acknowledgeCancellation at h
  split at h
  next =>
    simp only [acknowledgeQueued, bind_eq_ok, require_eq_ok, exists_unit] at h
    obtain ⟨-, started, hstarted, h⟩ := h
    obtain ⟨hqueued, hbudget, hnow, rfl⟩ := openAttempt_ok hv hstarted
    exact .inl ⟨_, hqueued, hbudget, hnow, rfl, h⟩
  next => exact .inr h

end Job

end OmniviaCore.Jobs
