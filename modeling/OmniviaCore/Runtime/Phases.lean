import OmniviaCore.Runtime.Operations
import OmniviaCore.Runtime.Soundness

/-!
# The phases of a run

A run is queued without an open attempt, claimed with exactly one, or ended with its job (`Run.Phase`).
Every call of the scheduler, of a workflow command and of the startup recovery keeps this, and what the
rows of the run must be for the next one (`Run.Sound`): one lemma for each operation, and
`Store.run_sound` for every run of the workspace.
-/

namespace OmniviaCore.Runtime

open Lib
open Jobs (Authority)

variable {r r' : Run} {nowUs jobUs count generation : Nat} {authority : Authority}
  {claim : RuntimeClaim} {stop : Except RuntimeError (Option RunStopRequest)}

namespace Run

def horizon (r : Run) : Nat := (r.events.getLast?.map RunEvent.occurredAtUs).getD 0

/-- Where a run stands between two transactions. -/
inductive Phase (r : Run) : Prop where
  | queued (hjob : r.job.state = .queued) (hlive : r.job.Live r.horizon) (hstatus : r.terminal = false)
      (hopen : r.openAttempts = []) (hwaits : r.openWaits = [])
  | claimed (p : String × Attempt) (hjob : r.job.state = .claimed) (hlive : r.job.Live r.horizon)
      (hstatus : r.terminal = false) (hadmitted : r.status ≠ some .admitted)
      (hopen : r.openAttempts = [p])
  | ended (hstatus : r.terminal = true) (hjob : r.job.terminal = true)
      (hsucceeded : r.status = some .succeeded ↔ r.job.state = .succeeded)
      (hopen : r.openAttempts = [])

/-- What holds of every run between two transactions, under a fencing generation. -/
structure Sound (r : Run) (generation : Nat) : Prop where
  keyed : r.Keyed
  created : r.createdAtUs ≤ r.horizon
  steps : r.StepsSound r.horizon r.job.recoveries.length
  phase : r.Phase
  maxAttempts : r.job.maxAttempts = 3
  generation : r.job.fencingGeneration ≤ generation

theorem Sound.mono {generation' : Nat} (h : r.Sound generation) (hle : generation ≤ generation') :
    r.Sound generation' :=
  { h with generation := h.generation.trans hle }

theorem Phase.openAttempts_length (h : r.Phase) : r.openAttempts.length ≤ 1 := by
  cases h with
  | queued _ _ _ hopen => simp [hopen]
  | claimed p _ _ _ _ hopen => simp [hopen]
  | ended _ _ _ hopen => simp [hopen]

theorem terminal_of_status {status : RunStatus} (h : r.status = some status) :
    r.terminal = status.terminal := by
  simp [terminal, h]

/-! ## What an event leaves -/

/-- The run with an event appended, as a later statement finds it. -/
structure Told (r r' : Run) (e : RunEvent) : Prop where
  behind : r.horizon ≤ e.occurredAtUs
  positive : 0 < e.occurredAtUs
  live : r.terminal = false
  admitted : e.runStatus ≠ .admitted
  eq : r' = { r with events := r.events ++ [e] }

theorem appendRunEvent_told {e : RunEvent} (hkeyed : r.Keyed) (h : r.appendRunEvent e = .ok r') :
    Told r r' e := by
  obtain ⟨⟨-, hopening, -, hbehind, hlive, -, -, hpos⟩, heq⟩ := appendRunEvent_eq_ok.1 h
  obtain ⟨init, last, hevents, -, -⟩ := hkeyed.last
  refine ⟨?_, hpos, hkeyed.hasTerminalEvent ▸ hlive, fun h => hkeyed.opened (hopening.2 h), heq⟩
  simpa [horizon, hevents] using hbehind

theorem Told.horizon {e : RunEvent} (h : Told r r' e) : r'.horizon = e.occurredAtUs := by
  rw [h.eq]
  simp [Run.horizon]

theorem Told.status {e : RunEvent} (h : Told r r' e) : r'.status = some e.runStatus := by
  rw [h.eq]
  simp [Run.status]

/-! ## What the statements on steps leave alone -/

theorem recordStepStatus_frame {runStepId : String} {status : StepStatus}
    (h : r.recordStepStatus runStepId status nowUs = .ok r') : r' = { r with steps := r'.steps } := by
  obtain ⟨st, hst⟩ := recordStepStatus_found h
  obtain ⟨-, rfl⟩ := (recordStepStatus_eq_ok hst).1 h
  rfl

theorem finishAttempt_frame {runStepId : String} {number : Nat} {status : AttemptStatus}
    (h : r.finishAttempt runStepId number status nowUs = .ok r') :
    r' = { r with steps := r'.steps } := by
  obtain ⟨st, hst⟩ := finishAttempt_found h
  obtain ⟨a, -, -, rfl⟩ := (finishAttempt_eq_ok hst).1 h
  rfl

theorem startAttempt_frame {runStepId : String} (h : r.startAttempt runStepId nowUs = .ok r') :
    r' = { r with steps := r'.steps } := by
  obtain ⟨st, hst⟩ := startAttempt_found h
  obtain ⟨-, rfl⟩ := (startAttempt_eq_ok hst).1 h
  rfl

/-- An attempt that ends, and its step with it: only the steps change, and no attempt stays open. -/
theorem settle_frame {finished : Run} {runStepId : String} {number : Nat} {outcome : AttemptStatus}
    {status : StepStatus} (hkeyed : r.Keyed) (hsingle : r.openAttempts.length ≤ 1)
    (hfinish : r.finishAttempt runStepId number outcome nowUs = .ok finished)
    (hobserve : finished.recordStepStatus runStepId status nowUs = .ok r') :
    r' = { r with steps := r'.steps } ∧ r'.openAttempts = [] ∧ r'.Keyed := by
  have hfinished := Statement.keyed (.outcome hfinish) hkeyed
  refine ⟨?_, ?_, Statement.keyed (.stepStatus hobserve) hfinished⟩
  · rw [recordStepStatus_frame hobserve, finishAttempt_frame hfinish]
  · rw [recordStepStatus_openAttempts hfinished.steps hobserve]
    exact (finishAttempt_openAttempts hkeyed.steps hsingle hfinish).2

theorem Told.withJob {e : RunEvent} (h : Told r r' e) (job : DurableJob) :
    Told { r with job } { r' with job } e :=
  ⟨h.behind, h.positive, h.live, h.admitted, by rw [h.eq]⟩

/-! ## Opening an attempt -/

/-- What opening an attempt of a pending step leaves. -/
structure Opened (r r' : Run) (nowUs count : Nat) : Prop where
  behind : r.horizon ≤ nowUs
  positive : 0 < nowUs
  steps : r'.StepsSound nowUs count
  single : ∃ p, r'.openAttempts = [p]
  horizon : r'.horizon = nowUs
  status : r'.status = some .running
  waits : r'.waits = r.waits
  job : r'.job = r.job

theorem openAttempt_behind {runStepId : String} (hkeyed : r.Keyed)
    (h : r.openAttempt authority stop runStepId nowUs = .ok (r', claim)) : r.horizon ≤ nowUs := by
  simp only [openAttempt, bind_eq_ok, require_eq_ok, exists_unit, pure_eq_ok, Prod.mk.injEq] at h
  obtain ⟨pending, -, -, running, hrunning, started, hstarted, told, htold, -, -⟩ := h
  have hstartedKeyed : started.Keyed :=
    (Statement.attempt hstarted).keyed ((Statement.stepStatus hrunning).keyed hkeyed)
  have hhorizon : started.horizon = r.horizon := by
    rw [startAttempt_frame hstarted, recordStepStatus_frame hrunning]
    rfl
  exact hhorizon ▸ (appendRunEvent_told hstartedKeyed htold).behind

theorem openAttempt_opened {runStepId : String} {st : RunStep} (hkeyed : r.Keyed)
    (hsteps : r.StepsSound nowUs count) (hnone : r.openAttempts = [])
    (hst : r.step? runStepId = some st) (hpending : st.status = some .pending)
    (h : r.openAttempt authority stop runStepId nowUs = .ok (r', claim)) :
    Opened r r' nowUs count := by
  have hbehind := openAttempt_behind hkeyed h
  simp only [openAttempt, bind_eq_ok, require_eq_ok, exists_unit, pure_eq_ok, Prod.mk.injEq] at h
  obtain ⟨pending, -, -, running, hrunning, started, hstarted, told, htold, rfl, -⟩ := h
  have hstartedKeyed : started.Keyed :=
    (Statement.attempt hstarted).keyed ((Statement.stepStatus hrunning).keyed hkeyed)
  have htold := appendRunEvent_told hstartedKeyed htold
  obtain ⟨hsound, ⟨a, hopened⟩, hevents, hwaits, hjob⟩ :=
    hsteps.open hkeyed hnone hst hpending hrunning hstarted
  have heq := htold.eq
  exact
    { behind := hbehind
      positive := htold.positive
      steps := hsound.congr (by rw [heq])
      single := ⟨_, by rw [heq]; exact hopened⟩
      horizon := htold.horizon
      status := htold.status
      waits := by rw [heq]; exact hwaits
      job := by rw [heq]; exact hjob }

theorem readyStep_pending {scheduler : RuntimeScheduler} {runStepId : String} (hkeyed : r.Keyed)
    (h : r.readyStep scheduler = some runStepId) :
    ∃ st, r.step? runStepId = some st ∧ st.status = some .pending := by
  obtain ⟨st, hst, rfl⟩ := Option.map_eq_some_iff.1 h
  obtain ⟨hmem, hrunnable⟩ := List.mem_filter.1 (List.mem_of_find?_eq_some hst)
  refine ⟨st, step?_of_mem hkeyed.steps hmem, ?_⟩
  simp only [Bool.and_eq_true, decide_eq_true_eq] at hrunnable
  exact hrunnable.1.1

theorem Opened.sound (h : Opened r r' nowUs r.job.recoveries.length) (hkeyed : r'.Keyed)
    (hgrows : Grows r r') (hcreated : r.createdAtUs ≤ r.horizon) (hjob : r.job.state = .claimed)
    (hlive : r.job.Live nowUs) (hmax : r.job.maxAttempts = 3)
    (hgeneration : r.job.fencingGeneration ≤ generation) : r'.Sound generation := by
  obtain ⟨p, hp⟩ := h.single
  exact
    { keyed := hkeyed
      created := by
        rw [hgrows.created, h.horizon]
        exact hcreated.trans h.behind
      steps := by
        rw [h.horizon, h.job]
        exact h.steps
      phase := .claimed p (h.job ▸ hjob) (by rw [h.horizon, h.job]; exact hlive)
        (terminal_of_status h.status) (by rw [h.status]; exact fun heq => by cases heq) hp
      maxAttempts := h.job ▸ hmax
      generation := h.job ▸ hgeneration }

/-! ## The scheduler -/

theorem Sound.claimNext {runStepId : String} (h : r.Sound generation)
    (hgeneration : authority.fencingGeneration = generation) (hqueued : r.job.state = .queued)
    (hready : ∃ st, r.step? runStepId = some st ∧ st.status = some .pending)
    (hclaim : r.claimNext authority stop runStepId nowUs = .ok (r', claim)) :
    r'.Sound generation := by
  have hkeyed' := (claimNext_statements hclaim).keyed h.keyed
  obtain ⟨st, hst, hpending⟩ := hready
  simp only [Run.claimNext, bind_eq_ok, mapError_eq_ok] at hclaim
  obtain ⟨job, hjob, hopen⟩ := hclaim
  obtain ⟨-, rfl⟩ := DurableJob.claim_eq_ok hjob
  cases h.phase with
  | claimed p hclaimed => rw [hqueued] at hclaimed; cases hclaimed
  | ended _ hended => simp [DurableJob.terminal, hqueued] at hended
  | queued _ hlive hstatus hnone hwaits =>
    have hkeyed : ({ r with job := r.job.claimedAt authority nowUs } : Run).Keyed :=
      (Statement.job _).keyed h.keyed
    have hbehind := openAttempt_behind hkeyed hopen
    change r.horizon ≤ nowUs at hbehind
    have hopened := openAttempt_opened hkeyed ((h.steps.mono hbehind le_rfl).congr rfl) hnone hst
      hpending hopen
    cases hlive with
    | claimed _ _ hclaimed => rw [hqueued] at hclaimed; cases hclaimed
    | queued _ hhistory =>
      exact hopened.sound hkeyed' (openAttempt_statements hopen).grows h.created rfl
        (hhistory.claimed hopened.behind (h.generation.trans hgeneration.ge)) h.maxAttempts
        hgeneration.le

theorem requireOpenClaim_eq_ok (h : r.requireOpenClaim claim = .ok ()) :
    r.job.state = .claimed ∧ r.terminal = false := by
  simp only [requireOpenClaim, bind_eq_ok, require_eq_ok, exists_unit] at h
  obtain ⟨hlive, ⟨-, hclaimed, -⟩, -⟩ := h
  refine ⟨hclaimed, ?_⟩
  cases hstatus : r.status with
  | none => simp [hstatus] at hlive
  | some status => simpa [terminal, hstatus] using hlive

theorem Told.ended {e : RunEvent} (htold : Told r r' e) (hkeyed : r'.Keyed)
    (hcreated : r.createdAtUs ≤ r.horizon)
    (hsteps : r.StepsSound e.occurredAtUs r.job.recoveries.length) (hnone : r.openAttempts = [])
    (hterminal : e.runStatus.terminal = true) (hjob : r.job.terminal = true)
    (hsucceeded : e.runStatus = .succeeded ↔ r.job.state = .succeeded)
    (hmax : r.job.maxAttempts = 3) (hgeneration : r.job.fencingGeneration ≤ generation) :
    r'.Sound generation := by
  have hhorizon := htold.horizon
  have hstatus := htold.status
  have heq := htold.eq
  exact
    { keyed := hkeyed
      created := by
        rw [hhorizon, heq]
        exact hcreated.trans htold.behind
      steps := by
        rw [hhorizon]
        exact (hsteps.congr (by rw [heq])).mono le_rfl (by rw [heq])
      phase := .ended ((terminal_of_status hstatus).trans hterminal) (by rw [heq]; exact hjob)
        (by rw [hstatus, Option.some.injEq, hsucceeded, heq]) (by rw [heq]; exact hnone)
      maxAttempts := by rw [heq]; exact hmax
      generation := by rw [heq]; exact hgeneration }

theorem Sound.complete {scheduler : RuntimeScheduler} {next : Option RuntimeClaim}
    (h : r.Sound generation)
    (hcomplete : r.complete scheduler stop claim nowUs jobUs = .ok (r', next))
    (hgeneration : scheduler.authority.fencingGeneration = generation) : r'.Sound generation := by
  have hkeyed' := (complete_statements hcomplete).keyed h.keyed
  simp only [Run.complete, bind_eq_ok, exists_unit] at hcomplete
  obtain ⟨hclaim, finished, hfinished, settled, hsettled, hcomplete⟩ := hcomplete
  obtain ⟨hclaimed, hlive⟩ := requireOpenClaim_eq_ok hclaim
  have hsingle := h.phase.openAttempts_length
  obtain ⟨hframe, hnone, hkeyed⟩ := settle_frame h.keyed hsingle hfinished hsettled
  have hhorizon : settled.horizon = r.horizon := by rw [hframe]; rfl
  have hjob : settled.job = r.job := by rw [hframe]
  have hcreated : settled.createdAtUs ≤ settled.horizon := by
    rw [hhorizon, hframe]
    exact h.created
  have hsteps : settled.horizon ≤ nowUs → settled.StepsSound nowUs r.job.recoveries.length :=
    fun hle => ((h.steps.mono (hhorizon ▸ hle) le_rfl).settle h.keyed hsingle hfinished hsettled
      (fun hp => by cases hp)).1
  split at hcomplete
  · split at hcomplete
    · cases hcomplete
    next runStepId hready =>
      simp only [bind_eq_ok, pure_eq_ok, Prod.exists, Prod.mk.injEq] at hcomplete
      obtain ⟨advanced, next, hadvanced, rfl, -⟩ := hcomplete
      obtain ⟨st, hst, hpending⟩ := readyStep_pending hkeyed hready
      have hopened := openAttempt_opened hkeyed (hsteps (openAttempt_behind hkeyed hadvanced)) hnone hst
        hpending hadvanced
      cases h.phase with
      | queued hqueued => rw [hclaimed] at hqueued; cases hqueued
      | ended hended => rw [hlive] at hended; cases hended
      | claimed p _ hjobLive =>
        refine Opened.sound (r := settled) (hjob ▸ hopened) hkeyed'
          (openAttempt_statements hadvanced).grows hcreated (hjob ▸ hclaimed) ?_ (hjob ▸ h.maxAttempts)
          (hjob ▸ h.generation)
        rw [hjob]
        exact hjobLive.mono (hhorizon ▸ hopened.behind)
  · simp only [succeed, bind_eq_ok, mapError_eq_ok, pure_eq_ok, exists_unit, Prod.mk.injEq]
      at hcomplete
    obtain ⟨_, ⟨-, told, htold, job, hterminalize, rfl⟩, rfl, -⟩ := hcomplete
    have htold := appendRunEvent_told hkeyed htold
    have htoldJob : told.job = r.job := by rw [htold.eq]; exact hjob
    rw [htoldJob] at hterminalize
    obtain ⟨hstate, hjobGeneration, hrecoveries, hmax⟩ := DurableJob.terminalize_state hterminalize
    refine (htold.withJob job).ended hkeyed' hcreated ?_ hnone rfl ?_ ?_ (hmax.trans h.maxAttempts) ?_
    · rw [hrecoveries]
      exact (hsteps htold.behind).congr rfl
    · simp [DurableJob.terminal, hstate, Jobs.JobState.scheduled]
    · simp [hstate, Jobs.JobState.scheduled]
    · exact hjobGeneration.le.trans hgeneration.le

theorem Sound.fail {retryable : Bool} {next : Option RuntimeClaim} (h : r.Sound generation)
    (hfail : r.fail authority stop claim retryable nowUs jobUs = .ok (r', next))
    (hgeneration : authority.fencingGeneration = generation) : r'.Sound generation := by
  have hkeyed' := (fail_statements hfail).keyed h.keyed
  simp only [Run.fail, bind_eq_ok, exists_unit] at hfail
  obtain ⟨hclaim, finished, hfinished, hfail⟩ := hfail
  obtain ⟨hclaimed, hlive⟩ := requireOpenClaim_eq_ok hclaim
  have hsingle := h.phase.openAttempts_length
  split at hfail
  next hretry =>
    simp only [bind_eq_ok, pure_eq_ok, Prod.exists, Prod.mk.injEq] at hfail
    obtain ⟨pending, hpending, retried, next, hretried, rfl, -⟩ := hfail
    obtain ⟨hframe, hnone, hkeyed⟩ := settle_frame h.keyed hsingle hfinished hpending
    have hhorizon : pending.horizon = r.horizon := by rw [hframe]; rfl
    have hjob : pending.job = r.job := by rw [hframe]
    have hnumber : claim.runtimeAttemptNumber ≤ 2 + r.job.recoveries.length := by
      have hlt := hretry.2
      rw [finishAttempt_frame hfinished] at hlt
      rw [show ({ r with steps := finished.steps } : Run).job.maxAttempts = 3 from h.maxAttempts] at hlt
      omega
    have hbehind : r.horizon ≤ nowUs := hhorizon ▸ openAttempt_behind hkeyed hretried
    obtain ⟨hsteps, -, -, -, st, hst, hstatus⟩ := (h.steps.mono hbehind le_rfl).settle h.keyed hsingle
      hfinished hpending (fun _ => ⟨rfl, .inl hnumber⟩)
    have hopened := openAttempt_opened hkeyed hsteps hnone hst hstatus hretried
    cases h.phase with
    | queued hqueued => rw [hclaimed] at hqueued; cases hqueued
    | ended hended => rw [hlive] at hended; cases hended
    | claimed p _ hjobLive =>
      refine Opened.sound (r := pending) (hjob ▸ hopened) hkeyed'
        (openAttempt_statements hretried).grows ?_ (hjob ▸ hclaimed) ?_ (hjob ▸ h.maxAttempts)
        (hjob ▸ h.generation)
      · rw [hhorizon, hframe]
        exact h.created
      · rw [hjob]
        exact hjobLive.mono (hhorizon ▸ hopened.behind)
  next hretry =>
    simp only [failRun, bind_eq_ok, mapError_eq_ok, pure_eq_ok, Prod.mk.injEq] at hfail
    obtain ⟨_, ⟨closed, hclosed, job, hterminalize, htold⟩, rfl, -⟩ := hfail
    obtain ⟨hframe, hnone, hkeyed⟩ := settle_frame h.keyed hsingle hfinished hclosed
    have hhorizon : closed.horizon = r.horizon := by rw [hframe]; rfl
    have htold := appendRunEvent_told ((Statement.job job).keyed hkeyed) htold
    have hbehind : r.horizon ≤ nowUs := hhorizon ▸ htold.behind
    have hsteps := ((h.steps.mono hbehind le_rfl).settle h.keyed hsingle hfinished hclosed
      (fun hp => by cases hp)).1
    rw [show closed.job = r.job by rw [hframe]] at hterminalize
    obtain ⟨hstate, hjobGeneration, hrecoveries, hmax⟩ := DurableJob.terminalize_state hterminalize
    refine htold.ended hkeyed' ?_ ?_ hnone rfl ?_ ?_ (hmax.trans h.maxAttempts) ?_
    · rw [hframe]
      exact h.created
    · rw [hrecoveries]
      exact hsteps.congr rfl
    · simp [DurableJob.terminal, hstate, Jobs.JobState.scheduled]
    · simp [hstate, Jobs.JobState.scheduled]
    · exact hjobGeneration.le.trans hgeneration.le

/-- What a recovery of the run's job, and of its attempt, has done. -/
theorem recover_cases (h : r.recover authority nowUs = .ok r') :
    ∃ job requeued runStepId attempt finished closed,
      r.job.recover authority nowUs = .ok (job, requeued) ∧ r.openAttempts = [(runStepId, attempt)] ∧
      ({ r with job } : Run).finishAttempt runStepId attempt.attemptNumber .failed nowUs =
        .ok finished ∧
      finished.recordStepStatus runStepId (if requeued then .pending else .failed) nowUs = .ok closed ∧
      ∃ lineage, closed.appendRunEvent
        ⟨nowUs, if requeued then .running else .failed, some runStepId, lineage⟩ = .ok r' := by
  simp only [recover, bind_eq_ok, mapError_eq_ok, Prod.exists] at h
  obtain ⟨job, requeued, hjob, h⟩ := h
  unfold recoverAttempt at h
  split at h
  next runStepId attempt hopen =>
    simp only [bind_eq_ok] at h
    obtain ⟨finished, hfinished, closed, hclosed, htold⟩ := h
    exact ⟨job, requeued, runStepId, attempt, finished, closed, hjob, hopen, hfinished, hclosed, _,
      htold⟩
  · cases h

theorem Sound.recover (h : r.Sound generation) (hwaits : r.openWaits = [])
    (hsuperseded : r.job.state = .claimed ∧ r.job.fencingGeneration < authority.fencingGeneration)
    (hgeneration : authority.fencingGeneration = generation)
    (hrecover : r.recover authority nowUs = .ok r') : r'.Sound generation := by
  have hkeyed' := (recover_statements hrecover).keyed h.keyed
  obtain ⟨job, requeued, runStepId, attempt, finished, closed, hjob, hopen, hfinished, hclosed, lineage,
    htold⟩ := recover_cases hrecover
  have hjobKeyed : ({ r with job } : Run).Keyed := (Statement.job job).keyed h.keyed
  have hsingle := h.phase.openAttempts_length
  obtain ⟨hframe, hnone, hkeyed⟩ := settle_frame hjobKeyed hsingle hfinished hclosed
  have htold := appendRunEvent_told hkeyed htold
  have hbehind : r.horizon ≤ nowUs := by
    have hle := htold.behind
    rw [hframe] at hle
    exact hle
  have hcreated : closed.createdAtUs ≤ closed.horizon := by
    rw [hframe]
    exact h.created
  have hjobSteps : ∀ k, r.job.recoveries.length ≤ k → ({ r with job } : Run).StepsSound nowUs k :=
    fun k hk => (h.steps.mono hbehind hk).congr rfl
  cases h.phase with
  | queued hqueued => rw [hsuperseded.1] at hqueued; cases hqueued
  | ended _ hended => simp [DurableJob.terminal, hsuperseded.1] at hended
  | claimed p _ hlive hstatus hadmitted _ =>
    cases hlive with
    | queued hqueued => rw [hsuperseded.1] at hqueued; cases hqueued
    | claimed past startedAtUs _ hattempts hstarted hhistory =>
      have hresult := ((hhistory.recover_eq_ok hsuperseded.1 hattempts hstarted hbehind htold.positive
        hsuperseded.2).1 hjob).2
      split at hresult
      next hroom =>
        obtain ⟨rfl, rfl⟩ := hresult
        have hrecoveries : ∀ st ∈ r.steps, st.attempts.length ≤ 2 + (r.job.recoveries.length + 1) :=
          fun st hst => (h.steps.bounded st hst).trans (by omega)
        have hsteps := ((hjobSteps _ (Nat.le_succ _)).settle hjobKeyed hsingle hfinished hclosed
          (fun _ => ⟨rfl, .inr hrecoveries⟩)).1
        have heq := htold.eq
        have hhorizon := htold.horizon
        have hjob' : r'.job = (r.job.failedAt authority past startedAtUs nowUs).requeuedAt authority
            nowUs := by
          rw [heq, hframe]
        exact
          { keyed := hkeyed'
            created := by
              rw [hhorizon, heq]
              exact hcreated.trans htold.behind
            steps := by
              rw [hhorizon, hjob']
              refine (hsteps.congr (by rw [heq])).mono le_rfl ?_
              simp [DurableJob.requeuedAt, DurableJob.failedAt]
            phase := .queued (by rw [hjob']; rfl)
              (by
                rw [hhorizon, hjob']
                exact hhistory.requeued_live hattempts hbehind hsuperseded.2.le hroom)
              (terminal_of_status htold.status) (by rw [heq]; exact hnone)
              (by rw [heq, hframe]; exact hwaits)
            maxAttempts := by rw [hjob']; exact h.maxAttempts
            generation := by rw [hjob']; exact hgeneration.le }
      next hroom =>
        obtain ⟨rfl, rfl⟩ := hresult
        have hsteps := ((hjobSteps _ le_rfl).settle hjobKeyed hsingle hfinished hclosed
          (fun hp => by cases hp)).1
        have hjob' : closed.job = r.job.failedAt authority past startedAtUs nowUs := by rw [hframe]
        refine htold.ended hkeyed' hcreated ?_ hnone rfl ?_ ?_ ?_ ?_
        · rw [hjob']
          exact hsteps
        · rw [hjob']
          rfl
        · rw [hjob']
          simp [DurableJob.failedAt]
        · rw [hjob']
          exact h.maxAttempts
        · rw [hjob']
          exact hgeneration.le

/-! ## Events that leave the phase as it is -/

/-- A run whose steps and waits alone changed, and which tells of it, is in the phase it was in. -/
theorem Sound.told {mid : Run} {e : RunEvent} (h : r.Sound generation)
    (hframe : mid = { r with steps := mid.steps, waits := mid.waits })
    (hopen : mid.openAttempts = r.openAttempts)
    (hsteps : mid.StepsSound e.occurredAtUs r.job.recoveries.length)
    (hwaits : r.job.state = .queued → mid.openWaits = []) (htold : Told mid r' e) (hkeyed : r'.Keyed)
    (hterminal : e.runStatus.terminal = false) : r'.Sound generation := by
  have hhorizon := htold.horizon
  have hstatus := htold.status
  have heq := htold.eq
  have hbehind : r.horizon ≤ e.occurredAtUs := by
    have hle := htold.behind
    rw [hframe] at hle
    exact hle
  have hjob : r'.job = r.job := by rw [heq, hframe]
  have hopenAttempts : r'.openAttempts = r.openAttempts := by rw [heq]; exact hopen
  refine
    { keyed := hkeyed
      created := ?_
      steps := ?_
      phase := ?_
      maxAttempts := hjob ▸ h.maxAttempts
      generation := hjob ▸ h.generation }
  · rw [hhorizon, heq, hframe]
    exact h.created.trans hbehind
  · rw [hhorizon, hjob]
    exact hsteps.congr (by rw [heq])
  · cases h.phase with
    | queued hqueued hlive _ hnone _ =>
      refine .queued (hjob ▸ hqueued) ?_ ((terminal_of_status hstatus).trans hterminal)
        (hopenAttempts.trans hnone) (by rw [heq]; exact hwaits hqueued)
      rw [hhorizon, hjob]
      exact hlive.mono hbehind
    | claimed p hclaimed hlive _ _ hsingle =>
      refine .claimed p (hjob ▸ hclaimed) ?_ ((terminal_of_status hstatus).trans hterminal) ?_
        (hopenAttempts.trans hsingle)
      · rw [hhorizon, hjob]
        exact hlive.mono hbehind
      · rw [hstatus]
        exact fun hadmitted => htold.admitted (Option.some.inj hadmitted)
    | ended hended =>
      have hlive := htold.live
      rw [hframe] at hlive
      change r.terminal = false at hlive
      rw [hlive] at hended
      cases hended

theorem Sound.adoptOpenWait (h : r.Sound generation)
    (hgeneration : authority.fencingGeneration = generation)
    (hadopt : r.adoptOpenWait authority nowUs = .ok r') : r'.Sound generation := by
  have hkeyed' := (adoptOpenWait_statements hadopt).keyed h.keyed
  simp only [Run.adoptOpenWait, bind_eq_ok, mapError_eq_ok] at hadopt
  obtain ⟨job, hjob, hadopt⟩ := hadopt
  obtain ⟨⟨hclaimed, hstale⟩, rfl⟩ := DurableJob.adoptStaleClaim_eq_ok.1 hjob
  split at hadopt
  · cases hadopt
  next status hstatus =>
    have hrebound : ({ r with job := r.job.claimed authority } : Run).Sound generation := by
      refine
        { keyed := (Statement.job _).keyed h.keyed
          created := h.created
          steps := h.steps.congr rfl
          phase := ?_
          maxAttempts := h.maxAttempts
          generation := hgeneration.le }
      cases h.phase with
      | queued hqueued => rw [hclaimed] at hqueued; cases hqueued
      | ended _ hended => simp [DurableJob.terminal, hclaimed] at hended
      | claimed p _ hlive hterminal hadmitted hopen =>
        exact .claimed p rfl (hlive.adopted hclaimed hstale.le) hterminal hadmitted hopen
    have htold := appendRunEvent_told hrebound.keyed hadopt
    refine hrebound.told rfl rfl (hrebound.steps.mono htold.behind le_rfl) ?_ htold hkeyed' ?_
    · exact fun hqueued => by cases hqueued
    · have hlive : r.terminal = false := htold.live
      rwa [terminal_of_status hstatus] at hlive

/-! ## Waits -/

/-- The attempt a wait is about is the one the run has open. -/
theorem Sound.active {runStepId : String} {runStatus : RunStatus} {stepStatus : StepStatus}
    {reason : Option DeadLetterReason} (h : r.Sound generation)
    (hactive : r.requireActiveAttempt runStepId runStatus stepStatus reason = .ok ()) :
    r.status = some runStatus ∧ r.job.state = .claimed ∧ ∃ a, r.openAttempts = [(runStepId, a)] := by
  simp only [requireActiveAttempt, bind_eq_ok, require_eq_ok, exists_unit] at hactive
  obtain ⟨hstatus, -, -, hopen⟩ := hactive
  cases hst : r.step? runStepId with
  | none => simp [hst] at hopen
  | some st =>
    cases hlast : st.lastAttempt with
    | none => simp [hst, hlast] at hopen
    | some a =>
      have ha : a.isOpen = true := by simpa [hst, hlast] using hopen
      obtain ⟨hmem, hid⟩ := step?_mem hst
      have hmemOpen : (runStepId, a) ∈ r.openAttempts := by
        rw [← hid]
        exact List.mem_flatMap.2 ⟨st, hmem, List.mem_map_of_mem
          (List.mem_filter.2 ⟨List.mem_of_getLast? hlast, ha⟩)⟩
      refine ⟨hstatus, ?_⟩
      cases h.phase with
      | queued _ _ _ hnone => rw [hnone] at hmemOpen; cases hmemOpen
      | ended _ _ _ hnone => rw [hnone] at hmemOpen; cases hmemOpen
      | claimed p hclaimed _ _ _ hsingle =>
        rw [hsingle, List.mem_singleton] at hmemOpen
        exact ⟨hclaimed, a, hmemOpen ▸ hsingle⟩

theorem Sound.openRuntimeWait {expected : Expectation} {w : Wait} (h : r.Sound generation)
    (hnew : ∀ x ∈ r.waits, x.waitId ≠ w.waitId) (hopen : r.openRuntimeWait expected w = .ok r') :
    r'.Sound generation := by
  have hkeyed' := (openRuntimeWait_statements hnew hopen).keyed h.keyed
  simp only [Run.openRuntimeWait, suspend, bind_eq_ok, exists_unit, mapError_eq_ok] at hopen
  obtain ⟨-, -, hactive, opened, hopened, waiting, hwaiting, htold⟩ := hopen
  obtain ⟨-, hclaimed, -⟩ := h.active hactive
  have hopenedKeyed : opened.Keyed :=
    Statement.keyed (.wait (w := { w with resolution := none }) hnew rfl hopened) h.keyed
  have htold := appendRunEvent_told (Statement.keyed (.stepStatus hwaiting) hopenedKeyed) htold
  have hopenedFrame : opened = { r with waits := opened.waits } := by
    rw [(openWait_eq_ok hopened).2.2]
  have hframe := recordStepStatus_frame hwaiting
  have hbehind : r.horizon ≤ w.createdAtUs := by
    have hle := htold.behind
    rw [hframe, hopenedFrame] at hle
    exact hle
  have hsteps := ((h.steps.mono hbehind le_rfl).congr (by rw [hopenedFrame])).observe (.inr rfl)
    hwaiting
  refine h.told ?_ ?_ hsteps ?_ htold hkeyed' rfl
  · rw [hframe, hopenedFrame]
  · rw [recordStepStatus_openAttempts hopenedKeyed.steps hwaiting, hopenedFrame]
    rfl
  · intro hqueued
    rw [hclaimed] at hqueued
    cases hqueued

theorem closeWait_frame {waitId : String} {res : WaitResolution}
    (h : r.closeWait waitId res = .ok r') : r' = { r with waits := r'.waits } := by
  obtain ⟨w, hw⟩ := closeWait_found h
  obtain ⟨-, rfl⟩ := (closeWait_eq_ok hw).1 h
  rfl

theorem Sound.settleWait {command : ResolveWait} {policy : ResolutionPolicy} {w : Wait}
    {answer : WaitAnswer} (h : r.Sound generation)
    (hsettle : r.settleWait command policy w nowUs = .ok (r', answer)) : r'.Sound generation := by
  have hkeyed' := (settleWait_statements hsettle).keyed h.keyed
  unfold Run.settleWait at hsettle
  split at hsettle
  · cases hsettle
  simp only [bind_eq_ok, exists_unit] at hsettle
  obtain ⟨-, -, hsettle⟩ := hsettle
  split at hsettle
  · simp only [bind_eq_ok, pure_eq_ok, Prod.mk.injEq] at hsettle
    obtain ⟨_, -, rfl, -⟩ := hsettle
    exact h
  · simp only [settlePending, resume, bind_eq_ok, exists_unit, mapError_eq_ok, pure_eq_ok,
      Prod.mk.injEq] at hsettle
    obtain ⟨hactive, -, approval, -, -, resumed, ⟨closed, hclosed, running, hrunning, htold⟩, rfl, -⟩ :=
      hsettle
    obtain ⟨-, hclaimed, -⟩ := h.active hactive
    have hclosedKeyed : closed.Keyed := Statement.keyed (.resolution hclosed) h.keyed
    have htold := appendRunEvent_told (Statement.keyed (.stepStatus hrunning) hclosedKeyed) htold
    have hclosedFrame := closeWait_frame hclosed
    have hframe := recordStepStatus_frame hrunning
    have hbehind : r.horizon ≤ nowUs := by
      have hle := htold.behind
      rw [hframe, hclosedFrame] at hle
      exact hle
    have hsteps := ((h.steps.mono hbehind le_rfl).congr (by rw [hclosedFrame])).observe (.inl rfl)
      hrunning
    refine h.told ?_ ?_ hsteps ?_ htold hkeyed' rfl
    · rw [hframe, hclosedFrame]
    · rw [recordStepStatus_openAttempts hclosedKeyed.steps hrunning, hclosedFrame]
      rfl
    · intro hqueued
      rw [hclaimed] at hqueued
      cases hqueued

/-! ## Cancellation -/

theorem closeWaits_frame {res : WaitResolution} {waits : List Wait}
    (h : closeWaits res waits r = .ok r') : r' = { r with waits := r'.waits } := by
  induction waits generalizing r with
  | nil =>
    obtain rfl := pure_eq_ok.1 h
    rfl
  | cons w waits ih =>
    simp only [closeWaits, bind_eq_ok] at h
    obtain ⟨closed, hclosed, h⟩ := h
    rw [ih h, closeWait_frame hclosed]

theorem cancelAttempts_frame {attempts : List (String × Attempt)}
    (h : cancelAttempts nowUs attempts r = .ok r') : r' = { r with steps := r'.steps } := by
  induction attempts generalizing r with
  | nil =>
    obtain rfl := pure_eq_ok.1 h
    rfl
  | cons p attempts ih =>
    simp only [cancelAttempts, bind_eq_ok] at h
    obtain ⟨finished, hfinished, closed, hclosed, h⟩ := h
    rw [ih h, recordStepStatus_frame hclosed, finishAttempt_frame hfinished]

theorem releaseRunWork_frame {reason : String} (h : r.releaseRunWork reason nowUs = .ok r') :
    r' = { r with steps := r'.steps, waits := r'.waits } := by
  simp only [releaseRunWork, bind_eq_ok] at h
  obtain ⟨closed, hclosed, h⟩ := h
  rw [cancelAttempts_frame h, closeWaits_frame hclosed]

theorem releaseRunWork_released {reason : String} (hkeyed : r.Keyed)
    (hsingle : r.openAttempts.length ≤ 1) (h : r.releaseRunWork reason nowUs = .ok r') :
    r'.openAttempts = [] ∧ ∀ k, r.StepsSound nowUs k → r'.StepsSound nowUs k := by
  simp only [releaseRunWork, bind_eq_ok] at h
  obtain ⟨closed, hclosed, h⟩ := h
  have hframe := closeWaits_frame hclosed
  have hclosedKeyed := (closeWaits_statements hclosed).keyed hkeyed
  have hopen : closed.openAttempts = r.openAttempts := by rw [hframe]; rfl
  have hsteps : ∀ k, r.StepsSound nowUs k → closed.StepsSound nowUs k :=
    fun k hs => hs.congr (by rw [hframe])
  rcases hattempts : r.openAttempts with _ | ⟨⟨runStepId, a⟩, _ | ⟨p, rest⟩⟩
  · rw [hattempts] at h
    obtain rfl := pure_eq_ok.1 h
    exact ⟨hopen.trans hattempts, hsteps⟩
  · rw [hattempts] at h
    simp only [cancelAttempts, bind_eq_ok, pure_eq_ok] at h
    obtain ⟨finished, hfinished, settled, hsettled, rfl⟩ := h
    obtain ⟨-, hnone, -⟩ := settle_frame hclosedKeyed (hopen ▸ hsingle) hfinished hsettled
    refine ⟨hnone, fun k hs => ?_⟩
    exact ((hsteps k hs).settle hclosedKeyed (hopen ▸ hsingle) hfinished hsettled
      (fun hp => by cases hp)).1
  · rw [hattempts] at hsingle
    simp at hsingle

/-- The end of a cancellation whose stop carries no outcome: the run ends with its job, or had ended. -/
theorem settleStopOf_told {context : CancelContext} {l l' : StopLedger} {q : RunStopRequest}
    {reason : String} {disposition : CancelDisposition} (hkeyed : r.Keyed)
    (hunsettled : l.outcome? q.stopRequestId = none)
    (h : settleStopOf context l r q reason nowUs = .ok (l', r', disposition)) :
    (r.terminal = true ∧ r' = r ∧ disposition = .alreadyTerminal) ∨
      ∃ stopped job cancellation, Told r stopped ⟨nowUs, .cancelled, none, none⟩ ∧
        r.job.cancel context.authority nowUs cancellation = .ok job ∧ r' = { stopped with job } ∧
        disposition = .cancellationAccepted := by
  obtain ⟨settlement, stopped, hstop, hend⟩ := settleStopOf_cases h
  obtain ⟨recorded, hrecorded, ⟨hsettled, -, -⟩ | ⟨-, r₀, stopped₀, hr, hstopped, hsettle⟩⟩ :=
    StopLedger.stopRun_cases hstop
  · rw [StopLedger.recordStopIntent_outcome? hrecorded, hunsettled] at hsettled
    cases hsettled
  obtain rfl := Option.some.inj hr
  obtain rfl := Option.some.inj hstopped
  obtain ⟨-, -, -, ⟨hterminal, rfl, houtcome⟩ | ⟨-, happend, houtcome⟩⟩ :=
    StopLedger.settleStop_cases hsettle
  · obtain ⟨haccepted, -, -⟩ | ⟨-, hdisposition, rfl⟩ := hend
    · rw [houtcome] at haccepted
      cases haccepted
    · exact .inl ⟨hterminal, rfl, hdisposition⟩
  · have htold := appendRunEvent_told hkeyed happend
    obtain ⟨-, hdisposition, job, hjob, rfl⟩ | ⟨hignored, -, -⟩ := hend
    · rw [htold.eq] at hjob
      exact .inr ⟨stopped, job, _, htold, hjob, rfl, hdisposition⟩
    · rw [houtcome] at hignored
      cases hignored

/-- What a cancellation that went through did to its run: it found it ended, reported it as uncertain,
or released its work and ended it with its job. -/
inductive Cancels (authority : Authority) (nowUs : Nat) (r r' : Run) : CancelDisposition → Prop where
  | ended (hterminal : r.terminal = true) (heq : r' = r) : Cancels authority nowUs r r' .alreadyTerminal
  | pending (hstatus : r.status = some .uncertain ∧ r' = r ∨ r.status = some .running ∧
      Told r r' ⟨nowUs, .uncertain, none, none⟩) : Cancels authority nowUs r r' .pendingReconciliation
  | accepted (reason : String) (released stopped : Run) (job : DurableJob) (cancellation : Bool)
      (hlive : r.terminal = false) (hreleased : r.releaseRunWork reason nowUs = .ok released)
      (htold : Told released stopped ⟨nowUs, .cancelled, none, none⟩)
      (hjob : released.job.cancel authority nowUs cancellation = .ok job)
      (heq : r' = { stopped with job }) : Cancels authority nowUs r r' .cancellationAccepted

theorem cancelRun_cancels {context : CancelContext} {l l' : StopLedger} {auditRefs : List String}
    {command : CancelCommand} {disposition : CancelDisposition} (hkeyed : r.Keyed)
    (hl : l.Keyed auditRefs)
    (haudit : command.auditRef ∉ auditRefs)
    (h : cancelRun context l r command nowUs = .ok (l', r', disposition)) :
    Cancels context.authority nowUs r r' disposition := by
  obtain ⟨pending, hpending, ⟨hterminal, h⟩ | ⟨hlive, h⟩⟩ := cancelRun_cases h
  · obtain ⟨settlement, stopped, hstop, -⟩ := settleStopOf_cases h
    obtain ⟨recorded, hrecorded, -⟩ := StopLedger.stopRun_cases hstop
    have hunsettled := cancelRun_unsettled hl haudit hpending hrecorded
    obtain ⟨-, heq, rfl⟩ | ⟨stopped, job, cancellation, htold, -⟩ :=
      settleStopOf_told hkeyed hunsettled h
    · exact .ended hterminal heq
    · rw [htold.live] at hterminal
      cases hterminal
  · obtain ⟨intended, p, hintended, -, h | h⟩ := cancelLive_cases h
    · obtain ⟨-, rfl, ⟨hstatus, heq⟩ | ⟨hstatus, htold⟩⟩ := pendingCancellation_cases h
      · exact .pending (.inl ⟨hstatus, heq⟩)
      · exact .pending (.inr ⟨hstatus, appendRunEvent_told hkeyed htold⟩)
    · have hunsettled := cancelRun_unsettled hl haudit hpending hintended
      obtain ⟨released, receipts, hreleased, h⟩ := releaseAndSettle_cases h
      have hkeyed' := (releaseRunWork_statements hreleased).keyed hkeyed
      rw [← StopLedger.recordStopIntent_outcome? hintended] at hunsettled
      have hend := fun hnone => settleStopOf_told hkeyed' hnone h
      obtain ⟨hterminal, -, -⟩ | ⟨stopped, job, cancellation, htold, hjob, heq, rfl⟩ := hend hunsettled
      · rw [releaseRunWork_frame hreleased] at hterminal
        change r.terminal = true at hterminal
        rw [hlive] at hterminal
        cases hterminal
      · exact .accepted _ released stopped job cancellation hlive hreleased htold hjob heq

theorem Sound.cancels {disposition : CancelDisposition} (h : r.Sound generation)
    (hgeneration : authority.fencingGeneration = generation) (hkeyed : r'.Keyed)
    (hcancel : Cancels authority nowUs r r' disposition) : r'.Sound generation := by
  cases hcancel with
  | ended hterminal heq => exact heq ▸ h
  | pending hstatus =>
    rcases hstatus with ⟨-, rfl⟩ | ⟨-, htold⟩
    · exact h
    · refine h.told rfl rfl (h.steps.mono htold.behind le_rfl) ?_ htold hkeyed rfl
      intro hqueued
      cases h.phase with
      | queued _ _ _ _ hwaits => exact hwaits
      | claimed p hclaimed => rw [hqueued] at hclaimed; cases hclaimed
      | ended _ hended => simp [DurableJob.terminal, hqueued] at hended
  | accepted reason released stopped job cancellation hlive hreleased htold hjob heq =>
    have hframe := releaseRunWork_frame hreleased
    obtain ⟨hnone, hsteps⟩ := releaseRunWork_released h.keyed h.phase.openAttempts_length hreleased
    have hjobLive : r.job.terminal = false := by
      cases h.phase with
      | queued hqueued => simp [DurableJob.terminal, hqueued]
      | claimed p hclaimed => simp [DurableJob.terminal, hclaimed]
      | ended hended => rw [hlive] at hended; cases hended
    have hbehind : r.horizon ≤ nowUs := by
      have hle := htold.behind
      rw [hframe] at hle
      exact hle
    rw [show released.job = r.job by rw [hframe]] at hjob
    obtain ⟨hstate, hjobGeneration, hrecoveries, hmax⟩ := DurableJob.cancel_state hjobLive hjob
    subst heq
    refine (htold.withJob job).ended hkeyed ?_ ?_ hnone rfl ?_ ?_ (hmax.trans h.maxAttempts) ?_
    · rw [hframe]
      exact h.created
    · rw [hrecoveries]
      exact (hsteps _ (h.steps.mono hbehind le_rfl)).congr rfl
    · simp [DurableJob.terminal, hstate]
    · simp [hstate]
    · exact hjobGeneration.le.trans hgeneration.le

end Run

end OmniviaCore.Runtime
