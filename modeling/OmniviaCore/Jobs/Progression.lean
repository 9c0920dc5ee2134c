import OmniviaCore.Jobs.SnapshotValid

/-!
# Two readings of one job

`Later j j'` is what the writers leave true of a job between two moments: its attempts only advance, its
events only grow later, its controls are only added to, and its state moves as the observer's table allows
while no recovery settles. Two readings then satisfy `validate_job_observation_progression` in all but two
respects: it refuses a job read running and next read queued, which a failure and its recovery between the
two readings produce; and a scheduler time in the last half millisecond of a second is read as the next
second, so that the next reading may be earlier (`TurnsBack`).
-/

namespace OmniviaCore.Jobs

open Lib

def recoveredBetween (j j' : Job) : Bool :=
  (j'.controls.drop j.controls.length).any ControlRow.recovers

def AttemptRow.Advances (a a' : AttemptRow) : Prop :=
  a'.attemptNumber = a.attemptNumber ∧ a'.startedAtUs = a.startedAtUs ∧
    (a.finishedAtUs.isSome = true → a' = a)

/-- A job, at a later moment. -/
structure Job.Later (j j' : Job) : Prop where
  metadata : j'.metadata = j.metadata
  attempts : ∀ (i : Nat) (a : AttemptRow), j.attempts[i]? = some a →
    ∃ a', j'.attempts[i]? = some a' ∧ a.Advances a'
  horizon : j.horizonUs ≤ j'.horizonUs
  controls : ∃ added, j'.controls = j.controls ++ added
  state : recoveredBetween j j' = false →
    j'.publicState ∈ JOB_STATE_OBSERVABLE_PROGRESSIONS j.publicState
  succeeded : j.publicState = .succeeded → j'.publicState = .succeeded

theorem AttemptRow.Advances.refl (a : AttemptRow) : a.Advances a := ⟨rfl, rfl, fun _ => rfl⟩

theorem AttemptRow.Advances.trans {a b c : AttemptRow} (hab : a.Advances b) (hbc : b.Advances c) :
    a.Advances c := by
  refine ⟨hbc.1.trans hab.1, hbc.2.1.trans hab.2.1, fun hfinished => ?_⟩
  obtain rfl := hab.2.2 hfinished
  exact hbc.2.2 hfinished

theorem observable_refl (state : JobState) : state ∈ JOB_STATE_OBSERVABLE_PROGRESSIONS state := by
  cases state <;> simp [JOB_STATE_OBSERVABLE_PROGRESSIONS]

theorem observable_trans {a b c : JobState} (hab : b ∈ JOB_STATE_OBSERVABLE_PROGRESSIONS a)
    (hbc : c ∈ JOB_STATE_OBSERVABLE_PROGRESSIONS b) :
    c ∈ JOB_STATE_OBSERVABLE_PROGRESSIONS a := by
  cases a <;> cases b <;> simp_all [JOB_STATE_OBSERVABLE_PROGRESSIONS]

namespace Job

variable {j j' j'' : Job} {authority : Authority}

theorem Later.refl (j : Job) : j.Later j where
  metadata := rfl
  attempts := fun _ a ha => ⟨a, ha, .refl a⟩
  horizon := Nat.le_refl _
  controls := ⟨[], (List.append_nil _).symm⟩
  state := fun _ => observable_refl _
  succeeded := id

theorem Later.trans (h : j.Later j') (h' : j'.Later j'') : j.Later j'' where
  metadata := h'.metadata.trans h.metadata
  attempts := by
    intro i a ha
    obtain ⟨b, hb, hab⟩ := h.attempts i a ha
    obtain ⟨c, hc, hbc⟩ := h'.attempts i b hb
    exact ⟨c, hc, hab.trans hbc⟩
  horizon := le_trans h.horizon h'.horizon
  controls := by
    obtain ⟨first, hfirst⟩ := h.controls
    obtain ⟨second, hsecond⟩ := h'.controls
    exact ⟨first ++ second, by rw [hsecond, hfirst, List.append_assoc]⟩
  state := by
    intro hnone
    obtain ⟨first, hfirst⟩ := h.controls
    obtain ⟨second, hsecond⟩ := h'.controls
    simp only [recoveredBetween, hsecond, hfirst, List.append_assoc, List.drop_left,
      List.any_append, Bool.or_eq_false_iff] at hnone
    refine observable_trans (h.state ?_) (h'.state ?_)
    · rw [recoveredBetween, hfirst, List.drop_left]
      exact hnone.1
    · rw [recoveredBetween, hsecond, List.drop_left]
      exact hnone.2
  succeeded := fun hstate => h'.succeeded (h.succeeded hstate)

theorem advances_append (attempts added : List AttemptRow) (i : Nat) (a : AttemptRow)
    (ha : attempts[i]? = some a) : ∃ a', (attempts ++ added)[i]? = some a' ∧ a.Advances a' :=
  ⟨a, by rw [List.getElem?_append_left (List.getElem?_eq_some_iff.1 ha).1]; exact ha, .refl a⟩

theorem Change.later (hv : j.Valid) (h : Change authority j j') : j.Later j' := by
  cases h with
  | started nowUs message hqueued _ hnow =>
    exact
      { metadata := rfl
        attempts := advances_append _ _
        horizon := le_trans hnow
          (horizonUs_concat (e := ⟨_, nowUs, .running, message⟩) hnow rfl).ge
        controls := ⟨[], (List.append_nil _).symm⟩
        state := fun _ => by
          rw [publicState, hqueued]
          simp [JOB_STATE_OBSERVABLE_PROGRESSIONS, SchedulerState.publicState, Job.started,
            publicState]
        succeeded := fun hstate => by
          rw [publicState, hqueued] at hstate
          cases hstate }
  | ended nowUs updatedAtUs document message hclaimed hnow _ _ =>
    obtain ⟨init, last, hattempts, hrunning, hopen, -⟩ := hv.open_attempt hclaimed
    exact
      { metadata := rfl
        attempts := by
          intro i a ha
          simp only [Job.ended, hattempts, List.modifyLast_concat] at ha ⊢
          rw [List.getElem?_append] at ha ⊢
          split at ha
          next hlt => exact ⟨a, by rw [if_pos hlt]; exact ha, .refl a⟩
          next hlt =>
            rw [if_neg hlt]
            rw [List.getElem?_singleton] at ha ⊢
            split at ha
            next hzero =>
              obtain rfl := Option.some.inj ha
              exact ⟨_, if_pos hzero, rfl, rfl, fun hfinished => by rw [hopen] at hfinished; cases hfinished⟩
            next => cases ha
        horizon := le_trans hnow
          (horizonUs_concat (e := ⟨_, nowUs, document.state, message⟩) hnow rfl).ge
        controls := ⟨[], (List.append_nil _).symm⟩
        state := fun _ => by
          rw [publicState, hclaimed]
          cases document <;> simp [JOB_STATE_OBSERVABLE_PROGRESSIONS, SchedulerState.publicState,
            Job.ended, publicState, TerminalDocument.state, JobState.scheduled]
        succeeded := fun hstate => by
          rw [publicState, hclaimed] at hstate
          cases hstate }
  | requeued c message hstate hrecovers hnow =>
    exact
      { metadata := rfl
        attempts := fun _ a ha => ⟨a, ha, .refl a⟩
        horizon := le_trans hnow
          (horizonUs_concat (e := ⟨_, c.settledAtUs, .queued, message⟩) hnow rfl).ge
        controls := ⟨[c], rfl⟩
        state := fun hnone => by
          simp [recoveredBetween, Job.requeued, hrecovers] at hnone
        succeeded := fun hsucceeded => by
          rcases hstate with h | h <;> rw [publicState, h] at hsucceeded <;> cases hsucceeded }
  | noted c _ =>
    exact
      { metadata := rfl
        attempts := fun _ a ha => ⟨a, ha, .refl a⟩
        horizon := Nat.le_refl _
        controls := ⟨[c], rfl⟩
        state := fun _ => observable_refl _
        succeeded := id }
  | told nowUs message hnow =>
    exact
      { metadata := rfl
        attempts := fun _ a ha => ⟨a, ha, .refl a⟩
        horizon := le_trans hnow
          (horizonUs_concat (e := ⟨_, nowUs, j.publicState, message⟩) hnow rfl).ge
        controls := ⟨[], (List.append_nil _).symm⟩
        state := fun _ => observable_refl _
        succeeded := id }
  | checkpointed row =>
    exact { Later.refl j with }

theorem Changes.later (hv : j.Valid) (h : Changes authority j j') : j.Later j' :=
  (h.invariant (P := j.Later) (fun hv hlater hchange => hlater.trans (hchange.later hv)) hv
    (.refl j)).2

/-- A change sets the scheduler's time no later than the last event's. -/
theorem Change.settled (h : Change authority j j') (hsettled : j.updatedAtUs ≤ j.horizonUs) :
    j'.updatedAtUs ≤ j'.horizonUs := by
  cases h with
  | started nowUs message _ _ hnow =>
    exact (horizonUs_concat (e := ⟨_, nowUs, .running, message⟩) hnow rfl).ge
  | ended nowUs updatedAtUs document message _ hnow hupdated _ =>
    exact hupdated.trans_eq (horizonUs_concat (e := ⟨_, nowUs, document.state, message⟩) hnow rfl).symm
  | requeued c message _ _ hnow =>
    exact (milliseconds_le _).trans_eq
      (horizonUs_concat (e := ⟨_, c.settledAtUs, .queued, message⟩) hnow rfl).symm
  | noted c _ => exact hsettled
  | told nowUs message hnow =>
    rw [horizonUs_concat (e := ⟨_, nowUs, j.publicState, message⟩) hnow rfl]
    exact le_trans hsettled hnow
  | checkpointed row => exact hsettled

/-! ## The validator -/

/-- The parts of the observation rule that every later reading satisfies. -/
theorem Later.attemptProgression (hv : j.Valid) (h : j.Later j') (hv' : j'.Valid) :
    validateAttemptProgression j.handle.latestAttempt j'.handle.latestAttempt = .ok () := by
  obtain ⟨init, last, hattempts, -⟩ := hv.attempts.last
  obtain ⟨init', last', hattempts', -⟩ := hv'.attempts.last
  have hlast : j.handle.latestAttempt = some last.toWire := by
    simp [handle, Job.history, hattempts]
  have hlast' : j'.handle.latestAttempt = some last'.toWire := by
    simp [handle, Job.history, hattempts']
  obtain ⟨a', ha', hnumber, hstart, hfinished⟩ := h.attempts init.length last (by simp [hattempts])
  have hmem : a' ∈ init' ++ [last'] := hattempts' ▸ List.mem_of_getElem? ha'
  have hpairwise := (hattempts' ▸ hv'.attempts.numbered).pairwise
  rw [hlast, hlast']
  simp only [validateAttemptProgression, bind_eq_ok, require_eq_ok, exists_unit]
  rcases List.mem_append.1 hmem with hinit | hsame
  · -- a later attempt has started since
    have hlt := (List.pairwise_append.1 hpairwise).2.2 a' hinit last' (by simp)
    refine ⟨?_, ?_⟩
    · simp only [AttemptRow.toWire]
      omega
    · rw [if_pos]
      · rfl
      · simp only [AttemptRow.toWire]
        omega
  · obtain rfl := List.mem_singleton.1 hsame
    refine ⟨by simp [AttemptRow.toWire, hnumber], ?_⟩
    rw [if_neg (by simp [AttemptRow.toWire, hnumber])]
    simp only [bind_eq_ok, require_eq_ok, exists_unit]
    refine ⟨congrArg timestamp hstart, fun hended => ?_⟩
    rw [hfinished (by simpa [AttemptRow.toWire] using hended)]
    exact ⟨rfl, rfl, rfl⟩

/-- The state rule over two readings: under a recovery every move is observable but the one out of
`running` back to `queued`. -/
theorem Later.stateProgression (h : j.Later j') :
    validateStateProgression j.publicState j'.publicState JOB_STATE_OBSERVABLE_PROGRESSIONS
      (recoveredBetween j j') = .ok () ↔ ¬ (j.state = .claimed ∧ j'.state = .queued) := by
  have hpublic : (j.state = .claimed ∧ j'.state = .queued) ↔
      (j.publicState = .running ∧ j'.publicState = .queued) := by
    unfold publicState
    cases j.state <;> cases j'.state <;> decide
  rw [hpublic, validateStateProgression, require_eq_ok]
  have hstate := h.state
  have hsucceeded := h.succeeded
  generalize j.publicState = before at *
  generalize j'.publicState = after at *
  generalize recoveredBetween j j' = recovered at *
  cases recovered <;> cases before <;> cases after <;>
    simp_all [allowedProgressions, JOB_STATE_OBSERVABLE_PROGRESSIONS,
      JOB_STATE_RECOVERY_TRANSITIONS]

def nextSecond (us : Nat) : Nat := (us / 1000000 + 1) * 1000000

/-- The scheduler's time is read as the next second, which neither the later scheduler time, as it is read,
nor the last event of the later moment has reached. -/
def TurnsBack (j j' : Job) : Prop :=
  999500 ≤ j.updatedAtUs % 1000000 ∧ j'.updatedAtUs + 500 < nextSecond j.updatedAtUs ∧
    j'.horizonUs < nextSecond j.updatedAtUs

instance (j j' : Job) : Decidable (j.TurnsBack j') := inferInstanceAs (Decidable (_ ∧ _))

theorem Valid.created_le (hv : j.Valid) : j.metadata.createdAtUs ≤ j.horizonUs := by
  obtain ⟨init, last, hattempts, -⟩ := hv.attempts.last
  have hlast := hv.attempts.valid last (hattempts ▸ List.mem_concat_self)
  exact le_trans hlast.after_created hlast.start_le

/-- A job whose scheduler time its events have reached is read no later than a later job, unless its second
turns back. -/
theorem Later.updated_iff (hv : j.Valid) (h : j.Later j') (hsettled : j.updatedAtUs ≤ j.horizonUs) :
    timestamp j.updatedUs ≤ timestamp j'.updatedUs ↔ ¬ j.TurnsBack j' := by
  have hcreated := hv.created_le
  have hhorizon := h.horizon
  have hupdated : j.updatedUs = max (max j.metadata.createdAtUs j.schedulerUs) j.horizonUs := rfl
  have hupdated' : j'.updatedUs = max (max j.metadata.createdAtUs j'.schedulerUs) j'.horizonUs := by
    rw [← h.metadata]
    rfl
  rw [hupdated, hupdated']
  unfold TurnsBack nextSecond schedulerUs timestamp
  generalize j.horizonUs = horizon at *
  generalize j'.horizonUs = horizon' at *
  -- the second read is the instant's own, or the next one in its last half millisecond
  have hrounded : (j.updatedAtUs + 500) / 1000000 =
      if 999500 ≤ j.updatedAtUs % 1000000 then j.updatedAtUs / 1000000 + 1
        else j.updatedAtUs / 1000000 := by
    split <;> omega
  rw [hrounded]
  split <;> omega

/-- Two readings of one job pass as observations exactly when the later is not dated earlier and they do
not show a running job back in the queue. -/
theorem Later.observationProgression (hv : j.Valid) (hv' : j'.Valid) (h : j.Later j') :
    validateJobObservationProgression j.handle j'.handle (recoveredBetween j j') = .ok () ↔
      timestamp j.updatedUs ≤ timestamp j'.updatedUs ∧ ¬ (j.state = .claimed ∧ j'.state = .queued) := by
  have hidentity : j.handle.identity = j'.handle.identity := by
    simp only [handle, identity, h.metadata]
  have hcreated : j'.handle.createdAt = j.handle.createdAt := by simp only [handle, h.metadata]
  have hprogress : j.handle.progress = none := by
    rw [handle, progress, hv.progress_nil]
    rfl
  rw [← h.stateProgression]
  simp only [validateJobObservationProgression, bind_eq_ok, require_eq_ok, exists_unit, hv.handle,
    hv'.handle, Later.attemptProgression hv h hv', hidentity, hcreated, hprogress, true_and, pure_eq_ok,
    and_true]
  rfl

end Job

/-! ## Runs -/

def Label.adopts : Label → Bool
  | .call _ (.write _ (.adoptStaleClaim _)) => true
  | _ => false

theorem Store.Asks.changes {s : Store} {label : Label} {jobId : JobId} {op : JobOp} {j j' : Job}
    (hasks : s.Asks label jobId op) (hadopts : label.adopts = false) (hv : j.Valid)
    (happly : op.apply s.holder j = .ok j') : Job.Changes s.holder j j' := by
  obtain ⟨nowUs, rfl, -, -⟩ | hchanges := JobOp.apply_cases hv happly
  · cases label with
    | takeover authority => cases hasks
    | call authority call =>
      cases call with
      | write jobId' op' =>
        obtain ⟨-, -, rfl⟩ := hasks
        cases hadopts
      | startImportJob => cases hasks
      | claimOldest nowUs => cases hasks.2.2
      | recoverStranded jobIds nowUs => cases hasks.2.2
  · exact hchanges

theorem along_of_forall {σ α : Type} {step : σ → α → σ} {C : α → Prop} {s : σ} {labels : List α}
    (h : ∀ label ∈ labels, C label) : Along step (fun _ label => C label) s labels := by
  induction labels generalizing s with
  | nil => trivial
  | cons a labels ih =>
    exact ⟨h a (List.mem_cons_self ..), ih fun b hb => h b (List.mem_cons_of_mem _ hb)⟩

/-- Two readings of one job, at two moments of a run in which no stale claim is adopted: with
`recovery_accepted` set when a recovery of the job settled between them, the pair passes
`validate_job_observation_progression` if and only if the job was not running at the first and
queued at the second, and the second of the first does not turn back. -/
theorem observation_progression_iff (workspaceId : WorkspaceId) (holder : Authority)
    (stagedSources : List ImportSourceDescriptor) (labels later : List Label)
    (hlabels : ∀ label ∈ labels ++ later, label.adopts = false) (jobId : JobId) (j j' : Job)
    (hj : (run Store.step (Store.empty workspaceId holder stagedSources) labels).find jobId = some j)
    (hj' : (run Store.step (Store.empty workspaceId holder stagedSources)
      (labels ++ later)).find jobId = some j') :
    validateJobObservationProgression j.snapshot.job j'.snapshot.job (recoveredBetween j j') =
      .ok () ↔ ¬ (j.state = .claimed ∧ j'.state = .queued) ∧ ¬ j.TurnsBack j' := by
  have hempty : (Store.empty workspaceId holder stagedSources).Valid := by
    intro k hk
    cases hk
  have hs : (run Store.step (Store.empty workspaceId holder stagedSources) labels).Valid :=
    Store.Reachable.valid ⟨workspaceId, holder, stagedSources, labels, rfl⟩
  have hs' : (run Store.step (Store.empty workspaceId holder stagedSources) (labels ++ later)).Valid :=
    Store.Reachable.valid ⟨workspaceId, holder, stagedSources, labels ++ later, rfl⟩
  have hsettled : j.updatedAtUs ≤ j.horizonUs := by
    refine Store.run_find_along (C := fun _ label => label.adopts = false)
      (P := fun k => k.updatedAtUs ≤ k.horizonUs) (fun _ _ _ _ _ => milliseconds_le _) ?_ hempty ?_
      (along_of_forall fun label h => hlabels label (List.mem_append_left _ h)) j hj
    · intro s label op k k' hadopts _ hv hasks happly hk
      exact ((hasks.changes hadopts hv happly).invariant
        (fun _ hk hchange => hchange.settled hk) hv hk).2
    · intro k hk
      cases hk
  have hlater : j.Later j' := by
    rw [run_append] at hj'
    obtain ⟨k, hk, hlater⟩ := Store.run_written_along (C := fun _ label => label.adopts = false)
      (P := j.Later) (fun hadopts _ hv hasks happly hk =>
        hk.trans ((hasks.changes hadopts hv happly).later hv)) hs hj (.refl j)
      (along_of_forall fun label h => hlabels label (List.mem_append_right _ h))
    obtain rfl := Option.some.inj (hk.symm.trans hj')
    exact hlater
  have hv := hs j (Store.find_mem hj).1
  rw [← hlater.updated_iff hv hsettled, and_comm]
  exact Job.Later.observationProgression hv (hs' j' (Store.find_mem hj').1) hlater

/-- The import's worker dies: another service takes the workspace over and recovers the job. -/
def importInterrupted : List Label :=
  [.takeover secondService, .call secondService (.recoverStranded none 2000000)]

def importRunning : Job :=
  Job.imported importWorkspaceId firstService importSource importJobId importAuditRef 1000000

def importRequeued : Job :=
  (importRunning.ended secondService 2000000 2000000 (.failure recoveryError)
    "interrupted attempt failed").requeued secondService (Job.recoveryControl secondService 2000000)
    2000000 "interrupted job recovered"

/-- An import read running, recovered after a crash, and read queued: the validator refuses. -/
theorem observation_progression_not_always :
    ¬ ∀ (workspaceId : WorkspaceId) (holder : Authority) (stagedSources : List ImportSourceDescriptor)
      (labels later : List Label), (∀ label ∈ labels ++ later, label.adopts = false) →
      ∀ (jobId : JobId) (j j' : Job),
        (run Store.step (Store.empty workspaceId holder stagedSources) labels).find jobId = some j →
        (run Store.step (Store.empty workspaceId holder stagedSources) (labels ++ later)).find jobId =
          some j' →
        validateJobObservationProgression j.snapshot.job j'.snapshot.job (recoveredBetween j j') =
          .ok () := by
  intro h
  have hok := h importWorkspaceId firstService [importSource] [importStart] importInterrupted
    (by decide) importJobId importRunning importRequeued (by rfl) (by rfl)
  have herror : validateJobObservationProgression importRunning.snapshot.job
      importRequeued.snapshot.job (recoveredBetween importRunning importRequeued) =
      .error .stateProgression := by rfl
  rw [herror] at hok
  cases hok

/-- The same two readings, through the condition: the first reading alone passes after itself. -/
theorem observation_progression_iff_import :
    ¬ validateJobObservationProgression importRunning.snapshot.job importRequeued.snapshot.job
        (recoveredBetween importRunning importRequeued) = .ok () ∧
      validateJobObservationProgression importRunning.snapshot.job importRunning.snapshot.job
        (recoveredBetween importRunning importRunning) = .ok () := by
  refine ⟨?_, ?_⟩
  · rw [observation_progression_iff importWorkspaceId firstService [importSource] [importStart]
      importInterrupted (by decide) importJobId importRunning importRequeued (by rfl) (by rfl)]
    exact fun h => h.1 ⟨rfl, rfl⟩
  · refine (observation_progression_iff importWorkspaceId firstService [importSource] [importStart]
      [] (by decide) importJobId importRunning importRunning (by rfl) (by rfl)).2 ⟨?_, by decide⟩
    rintro ⟨-, hqueued⟩
    cases hqueued

end OmniviaCore.Jobs
