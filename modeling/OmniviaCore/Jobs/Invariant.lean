import OmniviaCore.Jobs.Operations

/-!
# What holds of every job

`Valid` relates the relations of a job to each other and to its scheduler row. Every writer changes
a job by a few elementary changes, each of which keeps it: an attempt starts (`started`), the
attempt ends and is observed (`ended`), the job goes back to the queue (`requeued`), and a control
or an event of the job's own state is noted (`noted`, `told`).
-/

namespace OmniviaCore.Jobs

open Lib

/-! ## The invariant -/

/-- An attempt of a job created at `created` whose last event is at `horizon`. -/
structure AttemptRow.Valid (created horizon : Nat) (a : AttemptRow) : Prop where
  started : a.state ≠ .queued
  running : a.state = .running ↔ a.finishedAtUs = none
  failed : a.state = .failed ↔ a.error.isSome = true
  after_created : created ≤ a.startedAtUs
  start_le : a.startedAtUs ≤ horizon
  ordered : ∀ f, a.finishedAtUs = some f → a.startedAtUs ≤ f ∧ f ≤ horizon

def AttemptRow.FollowedBy (a b : AttemptRow) : Prop :=
  (a.state = .failed ∨ a.state = .cancelled) ∧ ∃ f, a.finishedAtUs = some f ∧ f ≤ b.startedAtUs

/-- How an attempt ended, as its row and as its observation state it. -/
structure AttemptEnding where
  attemptNumber : Option Nat
  state : JobState
  finishedAtUs : Option Nat
  error : Option ApiError

def AttemptRow.ending (a : AttemptRow) : AttemptEnding :=
  ⟨some a.attemptNumber, a.state, a.finishedAtUs, a.error⟩

def ObservationRow.ending (o : ObservationRow) : AttemptEnding :=
  ⟨o.attemptNumber, o.document.state, some o.finishedAtUs, o.document.error⟩

def SchedulerState.HasLast (state : SchedulerState) (a : AttemptRow) : Prop :=
  match state with
  | .queued => a.state = .failed ∨ a.state = .cancelled
  | other => a.state = other.publicState

theorem SchedulerState.HasLast.eq_claimed {state : SchedulerState} {a : AttemptRow}
    (h : state.HasLast a) (ha : a.state = .running) : state = .claimed := by
  cases state <;> simp_all [SchedulerState.HasLast, SchedulerState.publicState]

/-- Adjacent events: a transition the contract admits, where a recovery is accepted at the instant
of the later one. -/
def LegalStep (controls : List ControlRow) (e e' : EventRow) : Prop :=
  validateJobStateTransition e.state e'.state
    (controls.any fun c => c.recovers && decide (c.settledAtUs = e'.occurredAtUs)) = .ok ()

/-- The attempts of a job in a scheduler state. -/
structure AttemptsValid (created horizon : Nat) (state : SchedulerState)
    (attempts : List AttemptRow) : Prop where
  numbered : Numbered 1 AttemptRow.attemptNumber attempts
  valid : ∀ a ∈ attempts, a.Valid created horizon
  pairwise : attempts.Pairwise AttemptRow.FollowedBy
  last : ∃ init last, attempts = init ++ [last] ∧ state.HasLast last

/-- The events of a job in a state. -/
structure EventsValid (controls : List ControlRow) (state : JobState) (events : List EventRow) :
    Prop where
  numbered : Numbered 0 EventRow.sequence events
  pairwise : events.Pairwise fun e e' => e.occurredAtUs ≤ e'.occurredAtUs
  legal : events.IsChain (LegalStep controls)
  last : ∃ init last, events = init ++ [last] ∧ last.state = state

theorem legalStep_iff {controls : List ControlRow} {e e' : EventRow} :
    LegalStep controls e e' ↔ e'.state ∈ allowedProgressions JOB_STATE_TRANSITIONS
      (controls.any fun c => c.recovers && decide (c.settledAtUs = e'.occurredAtUs)) e.state :=
  require_eq_ok

def TerminalDocument.Fits (d : TerminalDocument) (j : Job) : Prop :=
  match d with
  | .success resultKind result =>
    resultKind = JOB_TERMINAL_RESULT_KIND_IMPORT_COMPLETION ∧
      ∃ evidenceCreated, result = j.importCompletion evidenceCreated
  | .failure _ => True
  | .cancellation reason => isOpenCode reason = true

namespace Job

def horizonUs (j : Job) : Nat := j.lastEventAtUs.getD 0

def endedAttempts (j : Job) : List AttemptRow := j.attempts.filter (·.finishedAtUs.isSome)

/-- The invariant of a job. -/
structure Valid (j : Job) : Prop where
  kind : j.metadata.jobKind = IMPORT_JOB_KIND
  operation : j.metadata.originatingOperation = IMPORT_START_OPERATION
  budget : j.metadata.maxAttempts ≤ ATTEMPTS_MAX_ITEMS
  attempts : AttemptsValid j.metadata.createdAtUs j.horizonUs j.state j.attempts
  attempts_le : j.attempts.length ≤ j.metadata.maxAttempts
  events : EventsValid j.controls j.publicState j.events
  observations_numbered : Numbered 1 ObservationRow.number j.observations
  observations_ending :
    j.observations.map ObservationRow.ending = j.endedAttempts.map AttemptRow.ending
  observations_fit : ∀ o ∈ j.observations, o.document.Fits j
  progress_nil : j.progressEvents = []
  updated_le : j.state ≠ .claimed → j.updatedAtUs ≤ j.horizonUs

/-! ## The changes -/

section Changes

variable (j : Job) (authority : Authority) (nowUs : Nat)

def told (state : JobState) (message : String) : Job :=
  { j with events := j.events ++ [⟨j.events.length, nowUs, state, message⟩] }

def noted (c : ControlRow) : Job := { j with controls := j.controls ++ [c] }

def started (message : String) : Job :=
  { j with
    state := .claimed
    updatedAtUs := nowUs
    claimedBy := some authority.serviceInstanceId
    fencingGeneration := authority.fencingGeneration
    attempts := j.attempts ++ [⟨1 + j.attempts.length, nowUs, none, .running, none⟩]
    events := j.events ++ [⟨j.events.length, nowUs, .running, message⟩] }

def ended (updatedAtUs : Nat) (document : TerminalDocument) (message : String) : Job :=
  { j with
    state := document.state.scheduled
    updatedAtUs := updatedAtUs
    claimedBy := none
    fencingGeneration := authority.fencingGeneration
    attempts := j.attempts.modifyLast (·.finish document.state nowUs document.error)
    events := j.events ++ [⟨j.events.length, nowUs, document.state, message⟩]
    observations := j.observations ++ [⟨1 + j.observations.length, some j.attempts.length, document,
      nowUs, authority.fencingGeneration⟩] }

def requeued (c : ControlRow) (updatedAtUs : Nat) (message : String) : Job :=
  { j with
    state := .queued
    updatedAtUs := updatedAtUs
    claimedBy := none
    fencingGeneration := authority.fencingGeneration
    controls := j.controls ++ [c]
    events := j.events ++ [⟨j.events.length, c.settledAtUs, .queued, message⟩] }

end Changes

/-! ## Attempts and events -/

end Job

namespace EventsValid

variable {controls controls' : List ControlRow} {state : JobState} {events : List EventRow}
  {e : EventRow}

theorem legalStep_mono (hsub : controls ⊆ controls') {e e' : EventRow}
    (h : LegalStep controls e e') : LegalStep controls' e e' := by
  rw [legalStep_iff] at *
  unfold allowedProgressions at *
  rcases List.mem_append.1 h with h | h
  · exact List.mem_append_left _ h
  · split at h
    next hany =>
      obtain ⟨c, hc, hrecovers⟩ := List.any_eq_true.1 hany
      rw [if_pos (List.any_eq_true.2 ⟨c, hsub hc, hrecovers⟩)]
      exact List.mem_append_right _ h
    next => cases h

theorem mono (h : EventsValid controls state events) (hsub : controls ⊆ controls') :
    EventsValid controls' state events :=
  { h with legal := h.legal.imp fun _ _ => legalStep_mono hsub }

/-- An event no earlier than the last one, of a state the log's may move to, may be appended. -/
theorem concat (h : EventsValid controls state events)
    (hsequence : e.sequence = events.length)
    (htime : (maxOf EventRow.occurredAtUs events).getD 0 ≤ e.occurredAtUs)
    (hlegal : ∀ last : EventRow, last.state = state → LegalStep controls last e) :
    EventsValid controls e.state (events ++ [e]) where
  numbered := numbered_concat.2 ⟨h.numbered, by omega⟩
  pairwise := by
    refine List.pairwise_append.2 ⟨h.pairwise, List.pairwise_singleton _ _, ?_⟩
    intro x hx y hy
    rw [List.mem_singleton.1 hy]
    exact le_trans (le_maxOf_getD hx) htime
  legal := by
    refine List.isChain_append.2 ⟨h.legal, List.isChain_singleton _, ?_⟩
    intro x hx y hy
    obtain ⟨init, last, hevents, hlast⟩ := h.last
    rw [hevents, List.getLast?_concat] at hx
    cases hx
    cases hy
    exact hlegal _ hlast
  last := ⟨events, e, rfl, rfl⟩

end EventsValid

theorem AttemptRow.Valid.mono {created horizon horizon' : Nat} {a : AttemptRow}
    (h : a.Valid created horizon) (hle : horizon ≤ horizon') : a.Valid created horizon' :=
  { h with
    start_le := le_trans h.start_le hle
    ordered := fun f hf => ⟨(h.ordered f hf).1, le_trans (h.ordered f hf).2 hle⟩ }

namespace AttemptsValid

variable {created horizon horizon' nowUs : Nat} {state state' : SchedulerState}
  {attempts init : List AttemptRow} {last : AttemptRow}

theorem mono (h : AttemptsValid created horizon state attempts) (hle : horizon ≤ horizon') :
    AttemptsValid created horizon' state attempts :=
  { h with valid := fun a ha => (h.valid a ha).mono hle }

theorem of_state (h : AttemptsValid created horizon state attempts)
    (hlast : ∀ last, state.HasLast last → state'.HasLast last) :
    AttemptsValid created horizon state' attempts := by
  obtain ⟨init, last, hattempts, hstate⟩ := h.last
  exact { h with last := ⟨init, last, hattempts, hlast last hstate⟩ }

/-- Every attempt but the last has ended, failed or cancelled. -/
theorem init_followedBy (h : AttemptsValid created horizon state (init ++ [last]))
    {a : AttemptRow} (ha : a ∈ init) : a.FollowedBy last :=
  (List.pairwise_append.1 h.pairwise).2.2 a ha last (List.mem_singleton_self _)

theorem finished (h : AttemptsValid created horizon state attempts) (hstate : state ≠ .claimed)
    {a : AttemptRow} (ha : a ∈ attempts) : ∃ f, a.finishedAtUs = some f := by
  obtain ⟨init, last, rfl, hlast⟩ := h.last
  rcases List.mem_append.1 ha with ha | ha
  · obtain ⟨f, hf, -⟩ := (h.init_followedBy ha).2
    exact ⟨f, hf⟩
  · obtain rfl := List.mem_singleton.1 ha
    refine Option.ne_none_iff_exists'.1 fun hopen => ?_
    exact hstate (hlast.eq_claimed ((h.valid a (by simp)).running.2 hopen))

/-- A queued job may start its next attempt after its last event. -/
theorem start (h : AttemptsValid created horizon .queued attempts) (hnow : horizon ≤ nowUs) :
    AttemptsValid created nowUs .claimed
      (attempts ++ [⟨1 + attempts.length, nowUs, none, .running, none⟩]) where
  numbered := numbered_concat.2 ⟨h.numbered, rfl⟩
  valid := by
    intro a ha
    rcases List.mem_append.1 ha with ha | ha
    · exact (h.valid a ha).mono hnow
    · obtain ⟨init, last, rfl, -⟩ := h.last
      have hlast := h.valid last (by simp)
      obtain rfl := List.mem_singleton.1 ha
      exact
        { started := by simp
          running := by simp
          failed := by simp
          after_created := le_trans hlast.after_created (le_trans hlast.start_le hnow)
          start_le := le_refl _
          ordered := by simp }
  pairwise := by
    refine List.pairwise_append.2 ⟨h.pairwise, List.pairwise_singleton _ _, ?_⟩
    intro a ha b hb
    rw [List.mem_singleton.1 hb]
    obtain ⟨f, hf⟩ := h.finished (by simp) ha
    refine ⟨?_, f, hf, le_trans ((h.valid a ha).ordered f hf).2 hnow⟩
    obtain ⟨init, last, rfl, hlast⟩ := h.last
    rcases List.mem_append.1 ha with ha | ha
    · exact (h.init_followedBy ha).1
    · rw [List.mem_singleton.1 ha]
      exact hlast
  last := ⟨attempts, _, rfl, rfl⟩

theorem finish {ending : JobState} {error : Option ApiError}
    (h : AttemptsValid created horizon .claimed (init ++ [last])) (hnow : horizon ≤ nowUs)
    (hending : ending.terminal = true) (herror : ending = .failed ↔ error.isSome = true) :
    AttemptsValid created nowUs ending.scheduled (init ++ [last.finish ending nowUs error]) where
  numbered := numbered_concat.2 ⟨(numbered_concat.1 h.numbered).1, (numbered_concat.1 h.numbered).2⟩
  valid := by
    intro a ha
    rcases List.mem_append.1 ha with ha | ha
    · exact (h.valid a (List.mem_append_left _ ha)).mono hnow
    · have hlast := h.valid last (by simp)
      rw [List.mem_singleton.1 ha]
      have hstart := le_trans hlast.start_le hnow
      exact
        { started := by rintro rfl; cases hending
          running := ⟨fun hr => (by rw [show ending = .running from hr] at hending; cases hending),
            fun hr => by cases hr⟩
          failed := herror
          after_created := hlast.after_created
          start_le := hstart
          ordered := by
            intro f hf
            cases hf
            exact ⟨hstart, le_refl _⟩ }
  pairwise := by
    refine List.pairwise_append.2
      ⟨(List.pairwise_append.1 h.pairwise).1, List.pairwise_singleton _ _, ?_⟩
    intro a ha b hb
    rw [List.mem_singleton.1 hb]
    exact h.init_followedBy ha
  last := by
    refine ⟨init, _, rfl, ?_⟩
    cases ending <;> first | rfl | cases hending

end AttemptsValid

end OmniviaCore.Jobs
