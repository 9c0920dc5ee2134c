import OmniviaCore.Runtime.Histories

/-!
# The budget of attempts

`fail` compares the number of the attempt within its step with the job's `max_attempts`; a recovery
requeues by the attempts of the job. The two agree while no recovery requeues a run whose open attempt is
the last its step may have (`Store.RequeuesWithinBudget`): then a step has at most `max_attempts`
attempts, and one that has them all is never claimed again (`Store.attempts_within_budget`).
-/

namespace OmniviaCore.Runtime

open Lib
open Jobs (Authority)

variable {r r' : Run} {nowUs jobUs generation : Nat} {authority : Authority} {claim : RuntimeClaim}
  {stop : Except RuntimeError (Option RunStopRequest)}

namespace Run

/-- The attempts of every step are within the job's budget, and a pending step has one left. -/
structure Budgeted (r : Run) : Prop where
  bounded : ∀ st ∈ r.steps, st.attempts.length ≤ r.job.maxAttempts
  pending : ∀ st ∈ r.steps, st.status = some .pending → st.attempts.length < r.job.maxAttempts

/-- The steps of a run within its budget, up to a later instant. -/
theorem Budgeted.steps (hb : r.Budgeted) (h : r.Sound generation) (hle : r.horizon ≤ nowUs) :
    r.StepsSound nowUs 0 where
  sound := fun st hst => (h.steps.sound st hst).mono hle
  bounded := fun st hst => h.maxAttempts ▸ hb.bounded st hst
  retriable := fun st hst hpending => by
    have hlt := hb.pending st hst hpending
    rw [h.maxAttempts] at hlt
    omega

theorem StepsSound.budgeted {horizon : Nat} (hsteps : r.StepsSound horizon 0) (h : r.Sound generation) :
    r.Budgeted where
  bounded := fun st hst => h.maxAttempts.symm ▸ hsteps.bounded st hst
  pending := fun st hst hpending => by
    have hle := hsteps.retriable st hst hpending
    rw [h.maxAttempts]
    omega

/-! ## The scheduler -/

theorem Sound.openAttempts_queued (h : r.Sound generation) (hqueued : r.job.state = .queued) :
    r.openAttempts = [] := by
  cases h.phase with
  | queued _ _ _ hnone => exact hnone
  | claimed p hclaimed => rw [hqueued] at hclaimed; cases hclaimed
  | ended _ _ _ hnone => exact hnone

/-- A claim opens an attempt of a pending step, which has one left. -/
theorem Budgeted.claimNext {runStepId : String} (hb : r.Budgeted) (h : r.Sound generation)
    (hqueued : r.job.state = .queued)
    (hready : ∃ st, r.step? runStepId = some st ∧ st.status = some .pending)
    (hclaim : r.claimNext authority stop runStepId nowUs = .ok (r', claim)) : r'.StepsSound nowUs 0 := by
  obtain ⟨st, hst, hpending⟩ := hready
  simp only [Run.claimNext, bind_eq_ok, mapError_eq_ok] at hclaim
  obtain ⟨job, -, hopen⟩ := hclaim
  have hkeyed : ({ r with job } : Run).Keyed := (Statement.job job).keyed h.keyed
  have hbehind := openAttempt_behind hkeyed hopen
  change r.horizon ≤ nowUs at hbehind
  have hnone := h.openAttempts_queued hqueued
  exact (openAttempt_opened hkeyed ((hb.steps h hbehind).congr rfl) hnone hst hpending hopen).steps

/-- A completion settles an attempt, and opens one of the next step if there is one. -/
theorem Budgeted.complete {scheduler : RuntimeScheduler} {next : Option RuntimeClaim}
    (hb : r.Budgeted) (h : r.Sound generation)
    (hcomplete : r.complete scheduler stop claim nowUs jobUs = .ok (r', next)) :
    r'.StepsSound nowUs 0 := by
  simp only [Run.complete, bind_eq_ok, exists_unit] at hcomplete
  obtain ⟨-, finished, hfinished, settled, hsettled, hcomplete⟩ := hcomplete
  have hsingle := h.phase.openAttempts_length
  obtain ⟨hframe, hnone, hkeyed⟩ := settle_frame h.keyed hsingle hfinished hsettled
  have hhorizon : settled.horizon = r.horizon := by rw [hframe]; rfl
  have hsteps : settled.horizon ≤ nowUs → settled.StepsSound nowUs 0 := fun hle =>
    ((hb.steps h (hhorizon ▸ hle)).settle h.keyed hsingle hfinished hsettled fun hp => by cases hp).1
  split at hcomplete
  · split at hcomplete
    · cases hcomplete
    next runStepId hready =>
      simp only [bind_eq_ok, pure_eq_ok, Prod.exists, Prod.mk.injEq] at hcomplete
      obtain ⟨advanced, next, hadvanced, rfl, -⟩ := hcomplete
      obtain ⟨st, hst, hpending⟩ := readyStep_pending hkeyed hready
      have hbehind := openAttempt_behind hkeyed hadvanced
      exact (openAttempt_opened hkeyed (hsteps hbehind) hnone hst hpending hadvanced).steps
  · simp only [succeed, bind_eq_ok, mapError_eq_ok, pure_eq_ok, exists_unit, Prod.mk.injEq]
      at hcomplete
    obtain ⟨_, ⟨-, told, htold, job, -, rfl⟩, rfl, -⟩ := hcomplete
    have htold := appendRunEvent_told hkeyed htold
    exact (hsteps htold.behind).congr (by rw [htold.eq])

/-- A failure opens the next attempt of its step only below the budget. -/
theorem Budgeted.fail {retryable : Bool} {next : Option RuntimeClaim} (hb : r.Budgeted)
    (h : r.Sound generation)
    (hfail : r.fail authority stop claim retryable nowUs jobUs = .ok (r', next)) :
    r'.StepsSound nowUs 0 := by
  simp only [Run.fail, bind_eq_ok, exists_unit] at hfail
  obtain ⟨-, finished, hfinished, hfail⟩ := hfail
  have hsingle := h.phase.openAttempts_length
  split at hfail
  next hretry =>
    simp only [bind_eq_ok, pure_eq_ok, Prod.exists, Prod.mk.injEq] at hfail
    obtain ⟨pending, hpending, retried, next, hretried, rfl, -⟩ := hfail
    obtain ⟨hframe, hnone, hkeyed⟩ := settle_frame h.keyed hsingle hfinished hpending
    have hbehind := openAttempt_behind hkeyed hretried
    have hhorizon : pending.horizon = r.horizon := by rw [hframe]; rfl
    have hnumber : claim.runtimeAttemptNumber ≤ 2 + 0 := by
      have hlt := hretry.2
      rw [finishAttempt_frame hfinished] at hlt
      change claim.runtimeAttemptNumber < r.job.maxAttempts at hlt
      rw [h.maxAttempts] at hlt
      omega
    obtain ⟨hsteps, -, -, -, st, hst, hstatus⟩ := (hb.steps h (hhorizon ▸ hbehind)).settle h.keyed hsingle
      hfinished hpending (fun _ => ⟨rfl, .inl hnumber⟩)
    exact (openAttempt_opened hkeyed hsteps hnone hst hstatus hretried).steps
  next hretry =>
    simp only [failRun, bind_eq_ok, mapError_eq_ok, pure_eq_ok, Prod.mk.injEq] at hfail
    obtain ⟨_, ⟨closed, hclosed, job, -, htold⟩, rfl, -⟩ := hfail
    obtain ⟨hframe, -, hkeyed⟩ := settle_frame h.keyed hsingle hfinished hclosed
    have hhorizon : closed.horizon = r.horizon := by rw [hframe]; rfl
    have htold := appendRunEvent_told ((Statement.job job).keyed hkeyed) htold
    have hbehind : r.horizon ≤ nowUs := hhorizon ▸ htold.behind
    have hsteps := ((hb.steps h hbehind).settle h.keyed hsingle hfinished hclosed
      (fun hp => by cases hp)).1
    exact hsteps.congr (by rw [htold.eq])

/-! ## Recovery -/

/-- A recovery requeues exactly where the job has an attempt left. -/
theorem Sound.room_of_requeued {job : DurableJob} (h : r.Sound generation)
    (hsuperseded : r.job.state = .claimed ∧ r.job.fencingGeneration < authority.fencingGeneration)
    (hbehind : r.horizon ≤ nowUs) (hpos : 0 < nowUs)
    (hjob : r.job.recover authority nowUs = .ok (job, true)) :
    r.job.attempts.length < r.job.maxAttempts := by
  cases h.phase with
  | queued hqueued => rw [hsuperseded.1] at hqueued; cases hqueued
  | ended _ hended => simp [DurableJob.terminal, hsuperseded.1] at hended
  | claimed p _ hlive =>
    cases hlive with
    | queued hqueued => rw [hsuperseded.1] at hqueued; cases hqueued
    | claimed past startedAtUs _ hattempts hstarted hhistory =>
      have hresult := ((hhistory.recover_eq_ok hsuperseded.1 hattempts hstarted hbehind hpos
        hsuperseded.2).1 hjob).2
      split at hresult
      next hroom => exact hroom
      next => cases hresult.2

/-- A recovery leaves a step pending only where its open attempt was not the last it may have. -/
theorem Budgeted.recover (hb : r.Budgeted) (h : r.Sound generation)
    (hsuperseded : r.job.state = .claimed ∧ r.job.fencingGeneration < authority.fencingGeneration)
    (hroom : r.job.attempts.length < r.job.maxAttempts →
      ∀ p ∈ r.openAttempts, p.2.attemptNumber < r.job.maxAttempts)
    (hrecover : r.recover authority nowUs = .ok r') : r'.StepsSound nowUs 0 := by
  obtain ⟨job, requeued, runStepId, attempt, finished, closed, hjob, hopen, hfinished, hclosed, lineage,
    htold⟩ := recover_cases hrecover
  have hjobKeyed : ({ r with job } : Run).Keyed := (Statement.job job).keyed h.keyed
  have hsingle := h.phase.openAttempts_length
  obtain ⟨hframe, -, hkeyed⟩ := settle_frame hjobKeyed hsingle hfinished hclosed
  have htold := appendRunEvent_told hkeyed htold
  have hbehind : r.horizon ≤ nowUs := by
    have hle := htold.behind
    rw [hframe] at hle
    exact hle
  have hsteps : ({ r with job } : Run).StepsSound nowUs 0 := (hb.steps h hbehind).congr rfl
  refine (hsteps.settle hjobKeyed hsingle hfinished hclosed fun hp => ⟨rfl, .inl ?_⟩).1.congr
    (by rw [htold.eq])
  cases requeued with
  | false => cases hp
  | true =>
    have hmem : (runStepId, attempt) ∈ r.openAttempts := hopen ▸ List.mem_singleton_self _
    have hlt : attempt.attemptNumber < r.job.maxAttempts :=
      hroom (h.room_of_requeued hsuperseded hbehind htold.positive hjob) _ hmem
    rw [h.maxAttempts] at hlt
    omega

/-! ## Waits and cancellation -/

theorem Budgeted.openRuntimeWait {expected : Expectation} {w : Wait} (hb : r.Budgeted)
    (h : r.Sound generation) (hnew : ∀ x ∈ r.waits, x.waitId ≠ w.waitId)
    (hopen : r.openRuntimeWait expected w = .ok r') : r'.StepsSound w.createdAtUs 0 := by
  simp only [Run.openRuntimeWait, suspend, bind_eq_ok, exists_unit, mapError_eq_ok] at hopen
  obtain ⟨-, -, -, opened, hopened, waiting, hwaiting, htold⟩ := hopen
  have hopenedKeyed : opened.Keyed :=
    Statement.keyed (.wait (w := { w with resolution := none }) hnew rfl hopened) h.keyed
  have htold := appendRunEvent_told (Statement.keyed (.stepStatus hwaiting) hopenedKeyed) htold
  have hopenedFrame : opened = { r with waits := opened.waits } := by
    rw [(openWait_eq_ok hopened).2.2]
  have hbehind : r.horizon ≤ w.createdAtUs := by
    have hle := htold.behind
    rw [recordStepStatus_frame hwaiting, hopenedFrame] at hle
    exact hle
  have hsteps := ((hb.steps h hbehind).congr (by rw [hopenedFrame])).observe (.inr rfl) hwaiting
  exact hsteps.congr (by rw [htold.eq])

theorem Budgeted.settleWait {command : ResolveWait} {policy : ResolutionPolicy} {w : Wait}
    {answer : WaitAnswer} (hb : r.Budgeted) (h : r.Sound generation)
    (hsettle : r.settleWait command policy w nowUs = .ok (r', answer)) :
    r' = r ∨ r'.StepsSound nowUs 0 := by
  unfold Run.settleWait at hsettle
  split at hsettle
  · cases hsettle
  simp only [bind_eq_ok, exists_unit] at hsettle
  obtain ⟨-, -, hsettle⟩ := hsettle
  split at hsettle
  · simp only [bind_eq_ok, pure_eq_ok, Prod.mk.injEq] at hsettle
    obtain ⟨_, -, rfl, -⟩ := hsettle
    exact .inl rfl
  · simp only [settlePending, resume, bind_eq_ok, exists_unit, mapError_eq_ok, pure_eq_ok,
      Prod.mk.injEq] at hsettle
    obtain ⟨-, -, approval, -, -, resumed, ⟨closed, hclosed, running, hrunning, htold⟩, rfl, -⟩ :=
      hsettle
    have hclosedKeyed : closed.Keyed := Statement.keyed (.resolution hclosed) h.keyed
    have htold := appendRunEvent_told (Statement.keyed (.stepStatus hrunning) hclosedKeyed) htold
    have hclosedFrame := closeWait_frame hclosed
    have hbehind : r.horizon ≤ nowUs := by
      have hle := htold.behind
      rw [recordStepStatus_frame hrunning, hclosedFrame] at hle
      exact hle
    have hsteps := ((hb.steps h hbehind).congr (by rw [hclosedFrame])).observe (.inl rfl) hrunning
    exact .inr (hsteps.congr (by rw [htold.eq]))

theorem Budgeted.cancels {disposition : CancelDisposition} (hb : r.Budgeted) (h : r.Sound generation)
    (hcancel : Cancels authority nowUs r r' disposition) : r'.steps = r.steps ∨ r'.StepsSound nowUs 0 := by
  cases hcancel with
  | ended hterminal heq => exact .inl (by rw [heq])
  | pending hstatus =>
    rcases hstatus with ⟨-, rfl⟩ | ⟨-, htold⟩
    · exact .inl rfl
    · exact .inl (by rw [htold.eq])
  | accepted reason released stopped job cancellation hlive hreleased htold hjob heq =>
    have hframe := releaseRunWork_frame hreleased
    obtain ⟨-, hsteps⟩ := releaseRunWork_released h.keyed h.phase.openAttempts_length hreleased
    have hbehind : r.horizon ≤ nowUs := by
      have hle := htold.behind
      rw [hframe] at hle
      exact hle
    subst heq
    exact .inr ((hsteps 0 (hb.steps h hbehind)).congr (by rw [htold.eq]))

theorem adoptOpenWait_steps (h : r.adoptOpenWait authority nowUs = .ok r') : r'.steps = r.steps := by
  simp only [Run.adoptOpenWait, bind_eq_ok] at h
  obtain ⟨job, -, h⟩ := h
  split at h
  · cases h
  · obtain ⟨-, rfl⟩ := appendRunEvent_eq_ok.1 h
    rfl

def Spent (r r' : Run) : Prop := r'.steps = r.steps ∨ ∃ horizon, r'.StepsSound horizon 0

theorem Spent.budgeted (hspent : Spent r r') (hb : r.Budgeted) (h : r.Sound generation)
    (h' : r'.Sound generation) : r'.Budgeted := by
  rcases hspent with hsteps | ⟨horizon, hsteps⟩
  · have hmax : r'.job.maxAttempts = r.job.maxAttempts := h'.maxAttempts.trans h.maxAttempts.symm
    refine ⟨?_, ?_⟩
    · rw [hsteps, hmax]
      exact hb.bounded
    · rw [hsteps, hmax]
      exact hb.pending
  · exact hsteps.budgeted h'

/-! ## No attempt is taken back -/

def Attempted (r r' : Run) : Prop :=
  ∀ st ∈ r.steps, ∃ st' ∈ r'.steps, st'.runStepId = st.runStepId ∧
    st.attempts.length ≤ st'.attempts.length

theorem attempted_of_steps (h : r'.steps = r.steps) : Attempted r r' := fun st hst =>
  ⟨st, h ▸ hst, rfl, le_rfl⟩

theorem attempted_setStep {runStepId : String} {st st' : RunStep} (hkeyed : r.Keyed)
    (hst : r.step? runStepId = some st) (hid : st'.runStepId = st.runStepId)
    (hle : st.attempts.length ≤ st'.attempts.length) : Attempted r (r.setStep st') := by
  intro x hx
  obtain ⟨before, after, hold, hnew⟩ := setStep_steps hkeyed.steps (step?_mem hst).1 hid
  rw [hnew]
  rw [hold] at hx
  rcases List.mem_append.1 hx with hx | hx
  · exact ⟨x, List.mem_append_left _ hx, rfl, le_rfl⟩
  · rcases List.mem_cons.1 hx with rfl | hx
    · exact ⟨st', List.mem_append_right _ List.mem_cons_self, hid, hle⟩
    · exact ⟨x, List.mem_append_right _ (List.mem_cons_of_mem _ hx), rfl, le_rfl⟩

theorem Statement.attempted (h : Statement r r') (hkeyed : r.Keyed) : Attempted r r' := by
  cases h with
  | stepStatus h =>
    obtain ⟨st, hst⟩ := recordStepStatus_found h
    obtain ⟨-, rfl⟩ := (recordStepStatus_eq_ok hst).1 h
    exact attempted_setStep hkeyed hst rfl le_rfl
  | attempt h =>
    obtain ⟨st, hst⟩ := startAttempt_found h
    obtain ⟨-, rfl⟩ := (startAttempt_eq_ok hst).1 h
    refine attempted_setStep hkeyed hst rfl ?_
    rw [RunStep.started, List.length_append]
    omega
  | outcome h =>
    obtain ⟨st, hst⟩ := finishAttempt_found h
    obtain ⟨a, -, -, rfl⟩ := (finishAttempt_eq_ok hst).1 h
    refine attempted_setStep hkeyed hst rfl ?_
    rw [RunStep.finished, updateAt, List.length_map]
  | wait hnew hpending h =>
    obtain ⟨-, -, rfl⟩ := openWait_eq_ok h
    exact attempted_of_steps rfl
  | resolution h =>
    obtain ⟨w, hw⟩ := closeWait_found h
    obtain ⟨-, rfl⟩ := (closeWait_eq_ok hw).1 h
    exact attempted_of_steps rfl
  | event h =>
    obtain ⟨-, rfl⟩ := appendRunEvent_eq_ok.1 h
    exact attempted_of_steps rfl
  | job job => exact attempted_of_steps rfl

theorem Attempted.trans {r'' : Run} (h : Attempted r r') (h' : Attempted r' r'') : Attempted r r'' := by
  intro st hst
  obtain ⟨st', hst', hid, hle⟩ := h st hst
  obtain ⟨st'', hst'', hid', hle'⟩ := h' st' hst'
  exact ⟨st'', hst'', hid'.trans hid, hle.trans hle'⟩

theorem Statements.attempted (h : Statements r r') (hkeyed : r.Keyed) : Attempted r r' := by
  induction h with
  | refl => exact attempted_of_steps rfl
  | tail hsteps hstep ih => exact ih.trans (hstep.attempted (Statements.keyed hsteps hkeyed))

end Run

/-! ## Every call -/

namespace Store

variable {s s' : Store} {service : RuntimeScheduler} {call : Call}

/-- No startup recovery requeues a run whose open attempt is the last its step may have: where it finds
an orphaned attempt and the job has one left, the attempt's number is below the budget. -/
def RequeuesWithinBudget (s : Store) : Label → Prop
  | .call service (.recoverStartup _ _) => ∀ r ∈ s.runs, ∀ pending,
      s.ledger.readUnsettledStopRequest r.runId = .ok pending →
      r.classify service.authority pending.isSome = .orphanAttempt →
      r.job.attempts.length < r.job.maxAttempts →
      ∀ p ∈ r.openAttempts, p.2.attemptNumber < r.job.maxAttempts
  | _ => True

theorem Operated.spent (h : s.Operated service r call r') (hr : r ∈ s.runs) (hsound : r.Sound generation)
    (hledger : s.ledger.Keyed s.auditRefs) (hb : r.Budgeted)
    (hrequeues : s.RequeuesWithinBudget (.call service call)) : Run.Spent r r' := by
  cases call with
  | start => exact h.elim
  | claimNext nowUs =>
    obtain ⟨hqueued, runStepId, claim, hready, hclaim⟩ := h
    exact .inr ⟨_, hb.claimNext hsound hqueued (Run.readyStep_pending hsound.keyed hready) hclaim⟩
  | complete claim nowUs jobUs =>
    obtain ⟨-, next, hcomplete⟩ := h
    exact .inr ⟨_, hb.complete hsound hcomplete⟩
  | fail claim retryable nowUs jobUs =>
    obtain ⟨-, next, hfail⟩ := h
    exact .inr ⟨_, hb.fail hsound hfail⟩
  | openWait settlement runId expected wait =>
    exact .inr ⟨_, hb.openRuntimeWait (w := { wait with createdAtUs := settlement.settledAtUs }) hsound
      h.1 h.2⟩
  | resolveWait settlement expected command policy =>
    obtain ⟨w, answer, -, hsettle⟩ := h
    rcases hb.settleWait hsound hsettle with rfl | hsteps
    · exact .inl rfl
    · exact .inr ⟨_, hsteps⟩
  | cancel settlement runId reason obligations =>
    obtain ⟨-, haudit, context, l', disposition, -, hcancel⟩ := h
    rcases hb.cancels hsound (Run.cancelRun_cancels hsound.keyed hledger haudit hcancel) with h | h
    · exact .inl h
    · exact .inr ⟨_, h⟩
  | recoverStartup adoptedAtUs recoveredAtUs =>
    obtain ⟨surveyed, entry, entry', hsurvey, hrecover⟩ := h
    obtain ⟨pending, hpending, ⟨-, hadopt⟩ | ⟨horphan, hrecover⟩ | ⟨-, -, rfl⟩⟩ :=
      Run.recovery_cases hsurvey hrecover
    · exact .inl (Run.adoptOpenWait_steps hadopt)
    · obtain ⟨-, -, -, -, hsuperseded⟩ := Run.classify_orphanAttempt horphan
      exact .inr ⟨_, hb.recover hsound (Run.superseded_iff.1 hsuperseded)
        (hrequeues r hr pending hpending horphan) hrecover⟩
    · exact .inl rfl

/-- A sound store whose runs are within their budgets. -/
structure Budgeted (s : Store) : Prop where
  sound : s.Sound
  runs : ∀ r ∈ s.runs, r.Budgeted

theorem Budgeted.step (s : Store) (label : Label) (hrequeues : s.RequeuesWithinBudget label)
    (h : s.Budgeted) : (s.step label).Budgeted := by
  refine ⟨h.sound.step label, ?_⟩
  obtain heq | ⟨authority, -, -, heq⟩ | ⟨service, call, rfl, hservice, happly⟩ := step_cases s label
  · rw [heq]
    exact h.runs
  · rw [heq]
    exact h.runs
  · refine (apply_called h.sound.keyed.ids happly).forall h.runs ?_ ?_
    · intro runId runStepIds settledAtUs _ _
      refine ⟨fun st hst => ?_, fun st hst _ => ?_⟩
      · obtain ⟨runStepId, -, rfl⟩ := List.mem_map.1 hst
        exact Nat.zero_le _
      · obtain ⟨runStepId, -, rfl⟩ := List.mem_map.1 hst
        exact Nat.succ_pos _
    · intro r hr r' hoperated
      have hsound := h.sound.runs r hr
      exact (hoperated.spent hr hsound h.sound.keyed.ledger (h.runs r hr) hrequeues).budgeted
        (h.runs r hr) hsound (h.sound.operated hservice hr hoperated)

def Attempted (s s' : Store) : Prop :=
  ∀ r ∈ s.runs, ∃ r' ∈ s'.runs, r'.runId = r.runId ∧ Run.Attempted r r'

theorem Called.attempted {runs : List Run} (h : Called s service call runs)
    (hkeyed : ∀ r ∈ s.runs, r.Keyed) :
    ∀ r ∈ s.runs, ∃ r' ∈ runs, r'.runId = r.runId ∧ Run.Attempted r r' := by
  intro r hr
  cases h with
  | admitted hcall hnew hne hnodup =>
    exact ⟨r, List.mem_append_left _ hr, rfl, Run.attempted_of_steps rfl⟩
  | operated h =>
    obtain ⟨r', hr', rfl | hoperated⟩ := exists_of_forall₂_left h hr
    · exact ⟨r', hr', rfl, Run.attempted_of_steps rfl⟩
    · exact ⟨r', hr', hoperated.statements.grows.runId, hoperated.statements.attempted (hkeyed r hr)⟩

theorem Keyed.attempted_step (h : s.Keyed) (label : Label) : Attempted s (s.step label) := by
  have hsame : ∀ t : Store, t.runs = s.runs → Attempted s t := fun t ht r hr =>
    ⟨r, ht ▸ hr, rfl, Run.attempted_of_steps rfl⟩
  obtain heq | ⟨authority, -, -, heq⟩ | ⟨service, call, -, -, happly⟩ := step_cases s label
  · exact hsame _ (by rw [heq])
  · exact hsame _ (by rw [heq])
  · exact (apply_called h.ids happly).attempted h.runs

theorem Keyed.attempted_run (h : s.Keyed) (labels : List Label) :
    Attempted s (run Store.step s labels) := by
  induction labels generalizing s with
  | nil => exact fun r hr => ⟨r, hr, rfl, Run.attempted_of_steps rfl⟩
  | cons label labels ih =>
    intro r hr
    obtain ⟨r', hr', hid, hattempted⟩ := h.attempted_step label r hr
    obtain ⟨r'', hr'', hid', hattempted'⟩ := ih (h.step label) r' hr'
    exact ⟨r'', hr'', hid'.trans hid, hattempted.trans hattempted'⟩

theorem claimNext_pending {nowUs : Nat} {claim : RuntimeClaim} (hkeyed : s.Keyed)
    (h : s.claimNext service nowUs = .ok (s', some claim)) :
    ∃ r ∈ s.runs, r.runId = claim.runId ∧ ∃ st ∈ r.steps, st.runStepId = claim.runStepId ∧
      st.status = some .pending := by
  simp only [claimNext, bind_eq_ok, exists_unit] at h
  obtain ⟨-, selected, hselected, h⟩ := h
  split at h
  · cases h
  next r runStepId =>
    simp only [bind_eq_ok, pure_eq_ok, Prod.exists, Prod.mk.injEq, Option.some.injEq] at h
    obtain ⟨r', claim', hclaim, -, rfl⟩ := h
    obtain ⟨hmem, -, hready⟩ := selectClaimable_mem hselected
    have hr := (List.mem_filter.1 (mem_sortBy.1 hmem)).1
    obtain ⟨st, hst, hpending⟩ := Run.readyStep_pending (hkeyed.runs r hr) hready
    simp only [Run.claimNext, Run.openAttempt, bind_eq_ok, mapError_eq_ok, exists_unit, pure_eq_ok,
      Prod.mk.injEq] at hclaim
    obtain ⟨job, -, pending, -, -, running, -, started, -, told, -, -, rfl⟩ := hclaim
    obtain ⟨hmemStep, hid⟩ := Run.step?_mem hst
    exact ⟨r, hr, rfl, st, hmemStep, hid, hpending⟩

/-- In a run of the workspace that requeues within the budgets, a step has at most `max_attempts`
attempts, and one that has them all keeps them and is never claimed again. -/
theorem attempts_within_budget (holder : Authority) (first second : List Label)
    (h : Along step RequeuesWithinBudget (empty holder) (first ++ second)) :
    ∀ r ∈ (run step (empty holder) first).runs, ∀ st ∈ r.steps,
      st.attempts.length ≤ r.job.maxAttempts ∧
      (st.attempts.length = r.job.maxAttempts →
        (∃ r' ∈ (run step (empty holder) (first ++ second)).runs, r'.runId = r.runId ∧
          ∃ st' ∈ r'.steps, st'.runStepId = st.runStepId ∧
            st'.attempts.length = st.attempts.length) ∧
        ∀ service nowUs s' claim,
          (run step (empty holder) (first ++ second)).claimNext service nowUs = .ok (s', some claim) →
          ¬(claim.runId = r.runId ∧ claim.runStepId = st.runStepId)) := by
  have hempty : (empty holder).Budgeted := ⟨sound holder [], fun _ hr => absurd hr List.not_mem_nil⟩
  have hfirst := run_invariant_along Budgeted.step hempty (along_append.1 h).1
  have hboth := run_invariant_along Budgeted.step hempty h
  intro r hr st hst
  refine ⟨(hfirst.runs r hr).bounded st hst, fun hfull => ?_⟩
  rw [run_append] at hboth ⊢
  obtain ⟨r', hr', hid, hattempted⟩ := hfirst.sound.keyed.attempted_run second r hr
  obtain ⟨st', hst', hstep, hle⟩ := hattempted st hst
  have hmax : r'.job.maxAttempts = r.job.maxAttempts :=
    (hboth.sound.runs r' hr').maxAttempts.trans (hfirst.sound.runs r hr).maxAttempts.symm
  have hbounded := (hboth.runs r' hr').bounded st' hst'
  have hlength : st'.attempts.length = st.attempts.length := by omega
  refine ⟨⟨r', hr', hid, st', hst', hstep, hlength⟩, ?_⟩
  rintro service nowUs s' claim hclaim ⟨hrun, hclaimed⟩
  obtain ⟨x, hx, hxid, y, hy, hyid, hpending⟩ := claimNext_pending hboth.sound.keyed hclaim
  have hsame : x = r' :=
    List.inj_on_of_nodup_map hboth.sound.keyed.ids hx hr' (by rw [hxid, hrun, hid])
  subst hsame
  have hsameStep : y = st' :=
    List.inj_on_of_nodup_map (hboth.sound.keyed.runs x hx).steps hy hst' (by rw [hyid, hclaimed, hstep])
  subst hsameStep
  have hlt := (hboth.runs x hx).pending y hy hpending
  omega

/-! ## A worker lost on the last retry -/

def claimOfAttempt (number : Nat) : RuntimeClaim := ⟨"run-1", "run-1", "step-1", number, 1, "service-1", 1⟩

def startAndRetry : List Label :=
  startAndClaim ++
    [.call (schedulerOf firstHolder) (.fail (claimOfAttempt 1) true 30 31),
      .call (schedulerOf firstHolder) (.fail (claimOfAttempt 2) true 40 41)]

def secondHolder : Authority := ⟨"service-2", 2⟩

def claimRecovered (number : Nat) : RuntimeClaim := ⟨"run-1", "run-1", "step-1", number, 2, "service-2", 2⟩

def recoverAndRetry : List Label :=
  startAndClaim ++
    [.takeover secondHolder, .call (schedulerOf secondHolder) (.recoverStartup 50 60),
      .call (schedulerOf secondHolder) (.claimNext 70),
      .call (schedulerOf secondHolder) (.fail (claimRecovered 2) true 80 81)]

/-- The last retry of the recovered run fails, and the run with it. -/
theorem attempts_within_budget_failed :
    ∃ r ∈ (run step (empty firstHolder) recoverAndRetry).runs, ∃ st ∈ r.steps,
      st.attempts.length = r.job.maxAttempts ∧
      ∃ r' ∈ (run step (empty firstHolder) (recoverAndRetry ++
        [.call (schedulerOf secondHolder) (.fail (claimRecovered 3) true 90 91)])).runs,
        r'.runId = r.runId ∧ ∃ st' ∈ r'.steps, st'.runStepId = st.runStepId ∧
          st'.attempts.length = st.attempts.length := by
  have hspent : ∃ r ∈ (run step (empty firstHolder) recoverAndRetry).runs, ∃ st ∈ r.steps,
      st.attempts.length = r.job.maxAttempts := by
    decide +kernel
  have hopen : ∀ r ∈ (run step (empty firstHolder) (startAndClaim ++ [.takeover secondHolder])).runs,
      ∀ p ∈ r.openAttempts, p.2.attemptNumber < r.job.maxAttempts := by
    decide +kernel
  obtain ⟨r, hr, st, hst, hfull⟩ := hspent
  refine ⟨r, hr, st, hst, hfull, ?_⟩
  exact ((attempts_within_budget firstHolder recoverAndRetry
    [.call (schedulerOf secondHolder) (.fail (claimRecovered 3) true 90 91)]
    ⟨trivial, trivial, trivial, fun r hr _ _ _ _ => hopen r hr, trivial, trivial, trivial, trivial⟩
    r hr st hst).2 hfull).1

/-- The worker of the last retry is lost: the recovery requeues the run, its step is claimed again, and
has more attempts than the job allows. -/
theorem attempts_exceed_budget :
    ∃ r ∈ (run step (empty firstHolder) (startAndRetry ++
      [.takeover secondHolder, .call (schedulerOf secondHolder) (.recoverStartup 50 60),
        .call (schedulerOf secondHolder) (.claimNext 70)])).runs,
      ∃ st ∈ r.steps, r.job.maxAttempts < st.attempts.length ∧
        st.attempts.map Attempt.attemptNumber = [1, 2, 3, 4] := by
  decide +kernel

end Store

end OmniviaCore.Runtime
