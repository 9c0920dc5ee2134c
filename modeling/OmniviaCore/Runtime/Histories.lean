import OmniviaCore.Runtime.Invariant

/-!
# Histories that do not contradict

Between two transactions a run holds either no open wait, or one, which its one open attempt waits on
(`Run.Held`). Every call keeps this but a completion or a failure of a claim whose run holds a wait: these
write the step and the run as though nothing was open.
-/

namespace OmniviaCore.Runtime

open Lib
open Jobs (Authority)

variable {r r' : Run} {nowUs jobUs generation : Nat} {authority : Authority} {claim : RuntimeClaim}
  {stop : Except RuntimeError (Option RunStopRequest)}

namespace Run

/-- A run holds no open wait, or one, on its open attempt. -/
inductive Held (r : Run) : Prop where
  | free (hwaits : r.openWaits = []) (hstatus : r.status ≠ some .waiting)
  | held (w : Wait) (a : Attempt) (hwaits : r.openWaits = [w]) (hstatus : r.status = some .waiting)
      (hopen : r.openAttempts = [(w.runStepId, a)])

theorem Held.openWaits_nil (h : r.Held) (hstatus : r.status ≠ some .waiting) : r.openWaits = [] := by
  cases h with
  | free hwaits => exact hwaits
  | held w a _ hwaiting => exact absurd hwaiting hstatus

/-- A run that is sound and held does not contradict itself. -/
theorem Held.contradiction (h : r.Held) (hsound : r.Sound generation) : r.contradiction = none := by
  have hsingle : ¬1 < r.openAttempts.length := not_lt.2 hsound.phase.openAttempts_length
  have hterminality : ¬r.terminal ≠ r.job.terminal := by
    cases hsound.phase with
    | queued hjob _ hstatus => simp [hstatus, DurableJob.terminal, hjob]
    | claimed p hjob _ hstatus => simp [hstatus, DurableJob.terminal, hjob]
    | ended hstatus hjob => simp [hstatus, hjob]
  have hclaimed : ¬(r.job.state = .claimed ∧ r.openAttempts = []) := by
    cases hsound.phase with
    | queued hjob => simp [hjob]
    | claimed p _ _ _ _ hopen => simp [hopen]
    | ended _ hjob =>
      rintro ⟨hclaimed, -⟩
      simp [DurableJob.terminal, hclaimed] at hjob
  have hattempt : ¬(r.openAttempts ≠ [] ∧ r.job.state ≠ .claimed) := by
    cases hsound.phase with
    | queued _ _ _ hopen => simp [hopen]
    | claimed p hjob => simp [hjob]
    | ended _ _ _ hopen => simp [hopen]
  unfold Run.contradiction
  rw [if_neg hsingle]
  cases h with
  | free hwaits hstatus =>
    have hheld : ¬(r.terminal = true ∧ (r.openAttempts ≠ [] ∨ r.openWaits ≠ [])) := by
      rintro ⟨hterminal, hopen⟩
      cases hsound.phase with
      | queued _ _ hlive => rw [hlive] at hterminal; cases hterminal
      | claimed p _ _ hlive => rw [hlive] at hterminal; cases hterminal
      | ended _ _ _ hnone => simp [hnone, hwaits] at hopen
    rw [if_neg (by simp [hwaits]), if_neg hterminality, if_neg hheld, if_neg (by simp [hwaits, hstatus]),
      if_neg (by simp [hwaits]), if_neg hclaimed, if_neg hattempt]
  | held w a hwaits hstatus hopen =>
    have hlive : ¬(r.terminal = true ∧ (r.openAttempts ≠ [] ∨ r.openWaits ≠ [])) := by
      simp [terminal, hstatus, RunStatus.terminal]
    rw [if_neg (by simp [hwaits]), if_neg hterminality, if_neg hlive, if_neg (by simp [hwaits, hstatus]),
      if_neg (by simp [hwaits, hopen]), if_neg hclaimed, if_neg hattempt]

/-! ## What the scheduler leaves of the waits -/

theorem appendRunEvent_status {e : RunEvent} (h : r.appendRunEvent e = .ok r') :
    r'.status = some e.runStatus ∧ r'.waits = r.waits := by
  obtain ⟨-, rfl⟩ := appendRunEvent_eq_ok.1 h
  exact ⟨by simp [status], rfl⟩

theorem openAttempt_status {runStepId : String}
    (h : r.openAttempt authority stop runStepId nowUs = .ok (r', claim)) :
    r'.status = some .running ∧ r'.waits = r.waits := by
  simp only [openAttempt, bind_eq_ok, require_eq_ok, exists_unit, pure_eq_ok, Prod.mk.injEq] at h
  obtain ⟨pending, -, -, running, hrunning, started, hstarted, told, htold, rfl, -⟩ := h
  obtain ⟨hstatus, hwaits⟩ := appendRunEvent_status htold
  rw [startAttempt_frame hstarted, recordStepStatus_frame hrunning] at hwaits
  exact ⟨hstatus, hwaits⟩

theorem claimNext_status {runStepId : String}
    (h : r.claimNext authority stop runStepId nowUs = .ok (r', claim)) :
    r'.status = some .running ∧ r'.waits = r.waits := by
  simp only [claimNext, bind_eq_ok] at h
  obtain ⟨job, -, h⟩ := h
  obtain ⟨hstatus, hwaits⟩ := openAttempt_status h
  exact ⟨hstatus, hwaits⟩

theorem complete_status {scheduler : RuntimeScheduler} {next : Option RuntimeClaim}
    (h : r.complete scheduler stop claim nowUs jobUs = .ok (r', next)) :
    (r'.status = some .running ∨ r'.status = some .succeeded) ∧ r'.waits = r.waits := by
  simp only [complete, bind_eq_ok, exists_unit] at h
  obtain ⟨-, finished, hfinished, settled, hsettled, h⟩ := h
  have hframe : settled.waits = r.waits := by
    rw [recordStepStatus_frame hsettled, finishAttempt_frame hfinished]
  split at h
  · split at h
    · cases h
    · simp only [bind_eq_ok, pure_eq_ok, Prod.exists, Prod.mk.injEq] at h
      obtain ⟨advanced, claimed, hadvanced, rfl, -⟩ := h
      obtain ⟨hstatus, hwaits⟩ := openAttempt_status hadvanced
      exact ⟨.inl hstatus, hwaits.trans hframe⟩
  · simp only [succeed, bind_eq_ok, pure_eq_ok, exists_unit, Prod.mk.injEq] at h
    obtain ⟨_, ⟨-, told, htold, job, -, rfl⟩, rfl, -⟩ := h
    obtain ⟨hstatus, hwaits⟩ := appendRunEvent_status htold
    exact ⟨.inr hstatus, hwaits.trans hframe⟩

theorem fail_status {retryable : Bool} {next : Option RuntimeClaim}
    (h : r.fail authority stop claim retryable nowUs jobUs = .ok (r', next)) :
    (r'.status = some .running ∨ r'.status = some .failed) ∧ r'.waits = r.waits := by
  simp only [fail, bind_eq_ok, exists_unit] at h
  obtain ⟨-, finished, hfinished, h⟩ := h
  split at h
  · simp only [bind_eq_ok, pure_eq_ok, Prod.exists, Prod.mk.injEq] at h
    obtain ⟨pending, hpending, retried, claimed, hretried, rfl, -⟩ := h
    obtain ⟨hstatus, hwaits⟩ := openAttempt_status hretried
    rw [recordStepStatus_frame hpending, finishAttempt_frame hfinished] at hwaits
    exact ⟨.inl hstatus, hwaits⟩
  · simp only [failRun, bind_eq_ok, pure_eq_ok, Prod.mk.injEq] at h
    obtain ⟨failed, ⟨closed, hclosed, job, -, htold⟩, rfl, -⟩ := h
    obtain ⟨hstatus, hwaits⟩ := appendRunEvent_status htold
    rw [recordStepStatus_frame hclosed, finishAttempt_frame hfinished] at hwaits
    exact ⟨.inr hstatus, hwaits⟩

theorem recover_status (h : r.recover authority nowUs = .ok r') :
    (r'.status = some .running ∨ r'.status = some .failed) ∧ r'.waits = r.waits := by
  obtain ⟨job, requeued, runStepId, attempt, finished, closed, -, -, hfinished, hclosed, lineage, htold⟩ :=
    recover_cases h
  obtain ⟨hstatus, hwaits⟩ := appendRunEvent_status htold
  rw [recordStepStatus_frame hclosed, finishAttempt_frame hfinished] at hwaits
  refine ⟨?_, hwaits⟩
  cases requeued with
  | true => exact .inl hstatus
  | false => exact .inr hstatus

/-- A run whose waits stay as they were, none of them open, and which is not waiting. -/
theorem held_of_waits (hwaits : r'.waits = r.waits) (hnone : r.openWaits = [])
    (hstatus : r'.status ≠ some .waiting) : r'.Held := by
  refine .free ?_ hstatus
  rw [openWaits, hwaits]
  exact hnone

/-! ## What the waits and the cancellation leave -/

theorem Held.openRuntimeWait {expected : Expectation} {w : Wait} (h : r.Held)
    (hsound : r.Sound generation) (hnew : ∀ x ∈ r.waits, x.waitId ≠ w.waitId)
    (hopen : r.openRuntimeWait expected w = .ok r') : r'.Held := by
  simp only [Run.openRuntimeWait, suspend, bind_eq_ok, exists_unit, mapError_eq_ok] at hopen
  obtain ⟨-, -, hactive, opened, hopened, waiting, hwaiting, htold⟩ := hopen
  obtain ⟨hstatus, -, a, hsingle⟩ := hsound.active hactive
  have hnone := h.openWaits_nil (by rw [hstatus]; exact fun heq => by cases heq)
  have hopenedKeyed : opened.Keyed :=
    Statement.keyed (.wait (w := { w with resolution := none }) hnew rfl hopened) hsound.keyed
  have hattempts := recordStepStatus_openAttempts hopenedKeyed.steps hwaiting
  obtain ⟨hstatus', -⟩ := appendRunEvent_status htold
  obtain ⟨-, rfl⟩ := appendRunEvent_eq_ok.1 htold
  have hframe := recordStepStatus_frame hwaiting
  have hopenedEq := (openWait_eq_ok hopened).2.2
  refine .held { w with resolution := none } a ?_ hstatus' ?_
  · rw [openWaits] at hnone ⊢
    rw [hframe, hopenedEq]
    simp [hnone, Wait.isPending]
  · change waiting.openAttempts = _
    rw [hattempts, hopenedEq]
    exact hsingle

theorem closeWait_last {waitId : String} {res : WaitResolution} {w : Wait} (hkeyed : r.Keyed)
    (hw : r.openWaits = [w]) (h : r.closeWait waitId res = .ok r') : r'.openWaits = [] := by
  obtain ⟨v, before, after, -, hopen, hclosed⟩ := closeWait_openWaits hkeyed.waits h
  have hlength := congrArg List.length (hw.symm.trans hopen)
  simp only [List.length_append, List.length_cons, List.length_nil] at hlength
  obtain rfl : before = [] := List.length_eq_zero_iff.1 (by omega)
  obtain rfl : after = [] := List.length_eq_zero_iff.1 (by omega)
  exact hclosed

theorem Held.settleWait {command : ResolveWait} {policy : ResolutionPolicy} {w : Wait}
    {answer : WaitAnswer} (h : r.Held) (hkeyed : r.Keyed)
    (hsettle : r.settleWait command policy w nowUs = .ok (r', answer)) : r'.Held := by
  unfold Run.settleWait at hsettle
  split at hsettle
  · cases hsettle
  simp only [bind_eq_ok, exists_unit] at hsettle
  obtain ⟨-, -, hsettle⟩ := hsettle
  split at hsettle
  · simp only [bind_eq_ok, pure_eq_ok, Prod.mk.injEq] at hsettle
    obtain ⟨_, -, rfl, -⟩ := hsettle
    exact h
  · simp only [settlePending, resume, requireActiveAttempt, bind_eq_ok, require_eq_ok, exists_unit,
      mapError_eq_ok, pure_eq_ok, Prod.mk.injEq] at hsettle
    obtain ⟨⟨hwaiting, -⟩, -, approval, -, -, resumed, ⟨closed, hclosed, running, hrunning, htold⟩, rfl,
      -⟩ := hsettle
    obtain ⟨hstatus, hwaits⟩ := appendRunEvent_status htold
    rw [recordStepStatus_frame hrunning] at hwaits
    refine held_of_waits hwaits ?_ (by rw [hstatus]; exact fun heq => by cases heq)
    cases h with
    | free _ hfree => exact absurd hwaiting hfree
    | held x a hx =>
      have hlast := closeWait_last hkeyed hx hclosed
      exact hlast

/-- A run that released its work holds no open wait. -/
theorem Held.release {reason : String} (h : r.Held) (hkeyed : r.Keyed)
    (hrelease : r.releaseRunWork reason nowUs = .ok r') : r'.openWaits = [] := by
  simp only [releaseRunWork, bind_eq_ok] at hrelease
  obtain ⟨closed, hclosed, hrelease⟩ := hrelease
  rw [openWaits, cancelAttempts_frame hrelease]
  change closed.openWaits = []
  cases h with
  | free hnone =>
    rw [hnone] at hclosed
    obtain rfl := pure_eq_ok.1 hclosed
    exact hnone
  | held w a hw =>
    rw [hw] at hclosed
    simp only [closeWaits, bind_eq_ok, pure_eq_ok] at hclosed
    obtain ⟨_, hclosed, rfl⟩ := hclosed
    exact closeWait_last hkeyed hw hclosed

theorem Held.cancels {disposition : CancelDisposition} (h : r.Held) (hkeyed : r.Keyed)
    (hcancel : Cancels authority nowUs r r' disposition) : r'.Held := by
  cases hcancel with
  | ended hterminal heq => exact heq ▸ h
  | pending hstatus =>
    rcases hstatus with ⟨-, rfl⟩ | ⟨hrunning, htold⟩
    · exact h
    · have hnone := h.openWaits_nil (by rw [hrunning]; exact fun heq => by cases heq)
      exact held_of_waits (by rw [htold.eq]) hnone
        (by rw [htold.status]; exact fun heq => by cases heq)
  | accepted reason released stopped job cancellation hlive hreleased htold hjob heq =>
    have hwaits : r'.waits = released.waits := by rw [heq, htold.eq]
    have hstatus : r'.status = some .cancelled := by
      rw [heq]
      exact htold.status
    exact held_of_waits hwaits (h.release hkeyed hreleased)
      (by rw [hstatus]; exact fun heq => by cases heq)

theorem Held.adoptOpenWait (h : r.Held) (hadopt : r.adoptOpenWait authority nowUs = .ok r') :
    r'.Held := by
  simp only [Run.adoptOpenWait, bind_eq_ok] at hadopt
  obtain ⟨job, -, hadopt⟩ := hadopt
  split at hadopt
  · cases hadopt
  next status hstatus =>
    obtain ⟨hstatus', -⟩ := appendRunEvent_status hadopt
    obtain ⟨-, rfl⟩ := appendRunEvent_eq_ok.1 hadopt
    have heq := hstatus'.trans hstatus.symm
    cases h with
    | free hwaits hfree => exact .free hwaits (heq ▸ hfree)
    | held w a hwaits hwaiting hopen => exact .held w a hwaits (heq.trans hwaiting) hopen

end Run

/-! ## Every call -/

namespace Store

variable {s : Store} {service : RuntimeScheduler} {call : Call}

/-- A completion or a failure whose claim is open finds no unresolved wait on its run. -/
def Unheld (s : Store) : Label → Prop
  | .call _ (.complete claim _ _) | .call _ (.fail claim _ _ _) =>
    ∀ r, s.run? claim.runId = some r → r.requireOpenClaim claim = .ok () → r.openWaits = []
  | _ => True

theorem Operated.held (h : s.Operated service r call r') (hsound : r.Sound generation)
    (hledger : s.ledger.Keyed s.auditRefs) (hunheld : s.Unheld (.call service call))
    (hheld : r.Held) : r'.Held := by
  cases call with
  | start => exact h.elim
  | claimNext nowUs =>
    obtain ⟨hqueued, runStepId, claim, -, h⟩ := h
    obtain ⟨hstatus, hwaits⟩ := Run.claimNext_status h
    refine Run.held_of_waits hwaits ?_ (by rw [hstatus]; exact fun heq => by cases heq)
    cases hsound.phase with
    | queued _ _ _ _ hnone => exact hnone
    | claimed p hclaimed => rw [hqueued] at hclaimed; cases hclaimed
    | ended _ hended => simp [DurableJob.terminal, hqueued] at hended
  | complete claim nowUs jobUs =>
    obtain ⟨hr, next, h⟩ := h
    obtain ⟨hstatus, hwaits⟩ := Run.complete_status h
    simp only [Run.complete, bind_eq_ok, exists_unit] at h
    refine Run.held_of_waits hwaits (hunheld r hr h.1) ?_
    rcases hstatus with hstatus | hstatus
    · rw [hstatus]; exact fun heq => by cases heq
    · rw [hstatus]; exact fun heq => by cases heq
  | fail claim retryable nowUs jobUs =>
    obtain ⟨hr, next, h⟩ := h
    obtain ⟨hstatus, hwaits⟩ := Run.fail_status h
    simp only [Run.fail, bind_eq_ok, exists_unit] at h
    refine Run.held_of_waits hwaits (hunheld r hr h.1) ?_
    rcases hstatus with hstatus | hstatus
    · rw [hstatus]; exact fun heq => by cases heq
    · rw [hstatus]; exact fun heq => by cases heq
  | openWait settlement runId expected wait =>
    exact hheld.openRuntimeWait (w := { wait with createdAtUs := settlement.settledAtUs }) hsound h.1 h.2
  | resolveWait settlement expected command policy =>
    obtain ⟨w, answer, -, h⟩ := h
    exact hheld.settleWait hsound.keyed h
  | cancel settlement runId reason obligations =>
    obtain ⟨-, haudit, context, l', disposition, -, h⟩ := h
    exact hheld.cancels hsound.keyed
      (Run.cancelRun_cancels hsound.keyed hledger haudit h)
  | recoverStartup adoptedAtUs recoveredAtUs =>
    obtain ⟨surveyed, entry, entry', hsurvey, hrecover⟩ := h
    obtain ⟨pending, -, ⟨-, hadopt⟩ | ⟨horphan, hrecover⟩ | ⟨-, -, rfl⟩⟩ :=
      Run.recovery_cases hsurvey hrecover
    · exact hheld.adoptOpenWait hadopt
    · obtain ⟨-, -, hnone, -, -⟩ := Run.classify_orphanAttempt horphan
      obtain ⟨hstatus, hwaits⟩ := Run.recover_status hrecover
      refine Run.held_of_waits hwaits hnone ?_
      rcases hstatus with hstatus | hstatus
      · rw [hstatus]; exact fun heq => by cases heq
      · rw [hstatus]; exact fun heq => by cases heq
    · exact hheld

/-- What holds of the store while no completion or failure meets a wait. -/
theorem held_step (s : Store) (label : Label) (hunheld : s.Unheld label)
    (h : s.Sound ∧ ∀ r ∈ s.runs, r.Held) :
    (s.step label).Sound ∧ ∀ r ∈ (s.step label).runs, r.Held := by
  refine ⟨h.1.step label, ?_⟩
  obtain heq | ⟨authority, -, -, heq⟩ | ⟨service, call, rfl, hservice, happly⟩ := step_cases s label
  · rw [heq]
    exact h.2
  · rw [heq]
    exact h.2
  · refine (apply_called h.1.keyed.ids happly).forall h.2 ?_ ?_
    · intro runId runStepIds settledAtUs _ _
      exact .free rfl (fun heq => by cases heq)
    · intro r hr r' hoperated
      exact hoperated.held (h.1.runs r hr) h.1.keyed.ledger hunheld (h.2 r hr)

/-- What recovery compares of a run. -/
structure Consistent (r : Run) : Prop where
  classified : ∀ authority pending, r.classify authority pending ≠ .contradictoryHistory
  claimed : r.job.state = .claimed ↔ r.openAttempts.length = 1
  terminal : r.terminal = true ↔ r.job.terminal = true
  succeeded : r.status = some .succeeded ↔ r.job.state = .succeeded
  waiting : r.status = some .waiting ↔ ∃ w ∈ r.waits, w.isPending = true

theorem consistent_of_held (hsound : r.Sound generation) (hheld : r.Held) : Consistent r where
  classified := by
    intro authority pending h
    unfold Run.classify at h
    rw [hheld.contradiction hsound] at h
    simp only [Option.isSome_none, Bool.false_eq_true, ↓reduceIte] at h
    split at h
    · cases h
    · split at h
      · cases h
      · split at h
        · cases h
        · split at h
          · cases h
          · split at h
            · cases h
            · cases h
  claimed := by
    cases hsound.phase with
    | queued hjob _ _ hopen => simp [hjob, hopen]
    | claimed p hjob _ _ _ hopen => simp [hjob, hopen]
    | ended _ hjob _ hopen =>
      refine iff_of_false (fun hclaimed => ?_) (by simp [hopen])
      simp [DurableJob.terminal, hclaimed] at hjob
  terminal := by
    cases hsound.phase with
    | queued hjob _ hstatus => simp [DurableJob.terminal, hjob, hstatus]
    | claimed p hjob _ hstatus => simp [DurableJob.terminal, hjob, hstatus]
    | ended hstatus hjob => simp [hstatus, hjob]
  succeeded := by
    cases hsound.phase with
    | queued hjob _ hstatus =>
      refine iff_of_false (fun hsucceeded => ?_) (by simp [hjob])
      rw [Run.terminal_of_status hsucceeded] at hstatus
      cases hstatus
    | claimed p hjob _ hstatus =>
      refine iff_of_false (fun hsucceeded => ?_) (by simp [hjob])
      rw [Run.terminal_of_status hsucceeded] at hstatus
      cases hstatus
    | ended _ _ hsucceeded => exact hsucceeded
  waiting := by
    have hopen : r.openWaits ≠ [] ↔ ∃ w ∈ r.waits, w.isPending = true := by
      rw [Run.openWaits, Ne, List.filter_eq_nil_iff]
      push Not
      rfl
    rw [← hopen]
    cases hheld with
    | free hwaits hstatus => simp [hwaits, hstatus]
    | held w a hwaits hstatus => simp [hwaits, hstatus]

/-- While no completion or failure meets a wait, no history contradicts itself. -/
theorem runtime_histories_consistent (holder : Authority) (labels : List Label)
    (h : Along step Unheld (empty holder) labels) :
    ∀ r ∈ (run step (empty holder) labels).runs, Consistent r := by
  have hinvariant := run_invariant_along (P := fun s => s.Sound ∧ ∀ r ∈ s.runs, r.Held)
    held_step ⟨sound holder [], fun _ hr => absurd hr List.not_mem_nil⟩ h
  exact fun r hr => consistent_of_held (hinvariant.1.runs r hr) (hinvariant.2 r hr)

/-! ## A failure that meets a wait -/

def firstHolder : Authority := ⟨"service-1", 1⟩

/-- A scheduler whose plan finds every pending step ready, and whose gate passes every run. -/
def schedulerOf (authority : Authority) : RuntimeScheduler := ⟨authority, fun _ _ => true, some fun _ => true, false⟩

def startAndClaim : List Label :=
  [.call (schedulerOf firstHolder) (.start ⟨"claim-1", "audit-1", "owner", 10⟩ "run-1" ["step-1"]),
    .call (schedulerOf firstHolder) (.claimNext 20)]

def firstClaim : RuntimeClaim := ⟨"run-1", "run-1", "step-1", 1, 1, "service-1", 1⟩

def signalWait : Wait :=
  ⟨"wait-1", "step-1", .externalSignal, 30, none,
    "sha256:0000000000000000000000000000000000000000000000000000000000000000", none⟩

theorem runtime_histories_consistent_complete :
    ∃ r ∈ (run step (empty firstHolder)
      (startAndClaim ++ [.call (schedulerOf firstHolder) (.complete firstClaim 30 31)])).runs,
      r.terminal = true ∧ Consistent r := by
  have hended : ∃ r ∈ (run step (empty firstHolder)
      (startAndClaim ++ [.call (schedulerOf firstHolder) (.complete firstClaim 30 31)])).runs,
      r.terminal = true := by
    decide +kernel
  have hnone : ((run step (empty firstHolder) startAndClaim).run? "run-1").all (·.openWaits = []) =
      true := by
    decide +kernel
  obtain ⟨r, hr, hterminal⟩ := hended
  refine ⟨r, hr, hterminal, runtime_histories_consistent firstHolder _ ?_ r hr⟩
  refine ⟨trivial, trivial, fun t ht _ => ?_, trivial⟩
  have hrun : (run step (empty firstHolder) startAndClaim).run? "run-1" = some t := ht
  rw [hrun] at hnone
  simpa using hnone

/-- A failure of a claim whose run waits ends the run with its wait open. -/
theorem runtime_histories_contradict :
    ¬∀ (holder : Authority) (labels : List Label),
      ∀ r ∈ (run step (empty holder) labels).runs, Consistent r := by
  intro h
  have hrun : ∃ r ∈ (run step (empty firstHolder)
      (startAndClaim ++
        [.call (schedulerOf firstHolder)
          (.openWait ⟨"claim-2", "audit-2", "owner", 30⟩ "run-1" ⟨"run-1", 1⟩ signalWait),
        .call (schedulerOf firstHolder) (.fail firstClaim false 40 41)])).runs,
      r.classify firstHolder false = .contradictoryHistory := by
    decide +kernel
  obtain ⟨r, hr, hclass⟩ := hrun
  exact (h _ _ r hr).classified _ _ hclass

end Store

end OmniviaCore.Runtime
