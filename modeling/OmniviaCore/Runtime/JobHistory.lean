import OmniviaCore.Runtime.DurableJobs

/-!
# The history of a live job

A job that is not terminal is `Live`: every attempt before the running one failed at the instant of the
recovery that requeued the job, and each such end has its observation, its control and its `queued`
event. A claim leaves it live (`History.claimed`), and a recovery goes through as soon as the clock is not
behind and no recovery has this very instant (`Live.recover_eq_ok`).
-/

namespace OmniviaCore.Runtime.DurableJob

open Lib
open Jobs (JobState SchedulerState Authority JobError)

variable {j j' : DurableJob} {past : List JobAttempt} {horizon nowUs : Nat} {authority : Authority}

/-- The attempts that ended before the job was last requeued, up to an instant. -/
structure History (j : DurableJob) (past : List JobAttempt) (horizon : Nat) : Prop where
  failed : ∀ a ∈ past, a.state = .failed
  ended : past.map JobAttempt.finishedAtUs = j.recoveries.map (some ·.settledAtUs)
  observed : j.observations.map JobObservation.finishedAtUs =
    j.recoveries.map SystemRecovery.settledAtUs
  numbers : ∀ o ∈ j.observations, ∀ n, o.attemptNumber = some n → n ≤ past.length
  ordered : j.recoveries.Pairwise fun c c' => c.settledAtUs ≤ c'.settledAtUs
  requeued : ∀ c ∈ j.recoveries, j.queuedAt c.settledAtUs = true
  settled : ∀ c ∈ j.recoveries, c.settledAtUs ≤ horizon
  generations : ∀ c ∈ j.recoveries, c.fencingGeneration ≤ j.fencingGeneration
  told : ∀ e, j.events.getLast? = some e → e.occurredAtUs ≤ horizon
  room : past.length < j.maxAttempts

/-- A job that is not terminal. -/
inductive Live (horizon : Nat) (j : DurableJob) : Prop where
  | queued (hstate : j.state = .queued) (h : j.History j.attempts horizon)
  | claimed (past : List JobAttempt) (startedAtUs : Nat) (hstate : j.state = .claimed)
      (hattempts : j.attempts = past ++ [⟨startedAtUs, none, .running⟩])
      (hstarted : startedAtUs ≤ horizon) (h : j.History past horizon)

theorem Live.mono {horizon' : Nat} (h : j.Live horizon) (hle : horizon ≤ horizon') :
    j.Live horizon' := by
  have hhistory : ∀ {past}, j.History past horizon → j.History past horizon' := fun h =>
    { h with
      settled := fun c hc => (h.settled c hc).trans hle
      told := fun e he => (h.told e he).trans hle }
  cases h with
  | queued hstate h => exact .queued hstate (hhistory h)
  | claimed past start hstate hattempts hstarted h =>
    exact .claimed past start hstate hattempts (hstarted.trans hle) (hhistory h)

namespace History

theorem length_past (h : j.History past horizon) : past.length = j.recoveries.length := by
  have := congrArg List.length h.ended
  simpa using this

/-- The last recovery settled the last of the attempts. -/
theorem last (h : j.History past horizon) (hne : past ≠ []) :
    ∃ c a, j.recoveries.getLast? = some c ∧ past.getLast? = some a ∧
      a.finishedAtUs = some c.settledAtUs ∧
      maxOf SystemRecovery.settledAtUs j.recoveries = some c.settledAtUs ∧
      maxOf JobObservation.finishedAtUs j.observations = some c.settledAtUs := by
  have hlength := h.length_past
  rcases List.eq_nil_or_concat' j.recoveries with hnil | ⟨before, c, hrecoveries⟩
  · rw [hnil] at hlength
    exact absurd (List.length_eq_zero_iff.1 hlength) hne
  rcases List.eq_nil_or_concat' past with hnil | ⟨init, a, rfl⟩
  · exact absurd hnil hne
  have hended := h.ended
  have hmax : maxOf SystemRecovery.settledAtUs j.recoveries = some c.settledAtUs := by
    rw [maxOf_of_pairwise h.ordered, hrecoveries]
    simp
  refine ⟨c, a, by simp [hrecoveries], by simp, ?_, hmax, ?_⟩
  · rw [hrecoveries] at hended
    simp only [List.map_append, List.map_cons, List.map_nil] at hended
    exact (List.singleton_inj.1 (List.append_inj_right' hended rfl))
  · rw [maxOf, h.observed, ← hmax, maxOf]

theorem observations_nil (h : j.History past horizon) (hnil : past = []) : j.observations = [] := by
  have hlength := congrArg List.length h.observed
  rw [List.length_map, List.length_map, ← h.length_past, hnil] at hlength
  exact List.length_eq_zero_iff.1 hlength

/-- An event of the latest attempt has the lineage it requires. -/
theorem hasEventLineage (h : j.History past horizon) {k : DurableJob} {a : JobAttempt} {e : JobEvent}
    (hrecoveries : k.recoveries = j.recoveries) (hobservations : k.observations = j.observations)
    (hevents : k.events = j.events) (ha : k.lastAttempt = some a) (hstate : a.state = e.state)
    (hend : e.state = .running ∨ a.finishedAtUs = some e.occurredAtUs) :
    k.hasEventLineage e = true := by
  unfold DurableJob.hasEventLineage
  rw [hobservations, hrecoveries, ha]
  by_cases hne : past = []
  · simp [h.observations_nil hne]
  · obtain ⟨c, b, hc, -, -, -, hmax⟩ := h.last hne
    have hmem := List.mem_of_getLast? hc
    have hqueued : k.queuedAt c.settledAtUs = true := by
      simpa only [queuedAt, hevents] using h.requeued c hmem
    have hany : (j.recoveries.any fun d => k.queuedAt d.settledAtUs &&
        decide (c.settledAtUs ≤ d.settledAtUs)) = true :=
      List.any_eq_true.2 ⟨c, hmem, by simp [hqueued]⟩
    simp only [hmax, hany, Option.any_some, hstate]
    rcases hend with hend | hend
    · simp [hend]
    · simp [hend]

end History

/-! ## Claiming -/

def claimedAt (j : DurableJob) (authority : Authority) (nowUs : Nat) : DurableJob :=
  { j.claimed authority with
    attempts := j.attempts ++ [⟨nowUs, none, .running⟩]
    events := j.events ++ [⟨nowUs, .running⟩] }

theorem claim_eq_ok (h : j.claim authority nowUs = .ok j') :
    j.state = .queued ∧ j' = j.claimedAt authority nowUs := by
  simp only [claim, insertAttempt, insertEvent, bind_eq_ok, require_eq_ok, exists_unit,
    pure_eq_ok] at h
  obtain ⟨hstate, attempted, ⟨-, -, -, -, -, -, rfl⟩, -, -, -, -, rfl⟩ := h
  exact ⟨hstate, rfl⟩

theorem History.claimed (h : j.History j.attempts horizon) (hnow : horizon ≤ nowUs)
    (hgeneration : j.fencingGeneration ≤ authority.fencingGeneration) :
    (j.claimedAt authority nowUs).Live nowUs :=
  .claimed j.attempts nowUs rfl rfl le_rfl
    { failed := h.failed
      ended := h.ended
      observed := h.observed
      numbers := h.numbers
      ordered := h.ordered
      requeued := fun c hc => by
        have hqueued := h.requeued c hc
        simp only [queuedAt, claimedAt, List.any_append] at hqueued ⊢
        simp [hqueued]
      settled := fun c hc => (h.settled c hc).trans hnow
      generations := fun c hc => (h.generations c hc).trans hgeneration
      told := fun e he => by
        simp only [claimedAt, List.getLast?_concat, Option.some.injEq] at he
        simp [← he]
      room := h.room }

/-! ## Adopting -/

theorem adoptStaleClaim_eq_ok :
    j.adoptStaleClaim authority = .ok j' ↔
      (j.state = .claimed ∧ j.fencingGeneration < authority.fencingGeneration) ∧
        j' = j.claimed authority := by
  simp only [adoptStaleClaim, bind_eq_ok, require_eq_ok, exists_unit, pure_eq_ok]
  exact and_congr_right fun _ => eq_comm

theorem Live.adopted (h : j.Live horizon) (hstate : j.state = .claimed)
    (hgeneration : j.fencingGeneration ≤ authority.fencingGeneration) :
    (j.claimed authority).Live horizon := by
  cases h with
  | queued hqueued => rw [hstate] at hqueued; cases hqueued
  | claimed past start _ hattempts hstarted h =>
    exact .claimed past start rfl hattempts hstarted
      { h with generations := fun c hc => (h.generations c hc).trans hgeneration }

/-! ## Recovering -/

section Recover

variable {startedAtUs : Nat}

def failedAt (j : DurableJob) (authority : Authority) (past : List JobAttempt)
    (startedAtUs nowUs : Nat) : DurableJob :=
  { j with
    state := .failed
    claimedBy := none
    fencingGeneration := authority.fencingGeneration
    attempts := past ++ [⟨startedAtUs, some nowUs, .failed⟩]
    events := j.events ++ [⟨nowUs, .failed⟩]
    observations := j.observations ++ [⟨some (past.length + 1), .failed, nowUs⟩] }

def requeuedAt (j : DurableJob) (authority : Authority) (nowUs : Nat) : DurableJob :=
  { j with
    state := .queued
    events := j.events ++ [⟨nowUs, .queued⟩]
    recoveries := j.recoveries ++ [⟨authority.fencingGeneration, nowUs⟩] }

/-- The running attempt of a claimed job fails as soon as the clock is not behind. -/
theorem History.fail (hattempts : j.attempts = past ++ [⟨startedAtUs, none, .running⟩])
    (hstarted : startedAtUs ≤ horizon) (h : j.History past horizon) (hnow : horizon ≤ nowUs)
    (hpos : 0 < nowUs) :
    j.terminate authority .failed nowUs false = .ok (j.failedAt authority past startedAtUs nowUs) := by
  let settled : DurableJob :=
    { j with state := .failed, claimedBy := none, fencingGeneration := authority.fencingGeneration }
  let finished : DurableJob :=
    { settled with attempts := past ++ [⟨startedAtUs, some nowUs, .failed⟩] }
  have hfinished : settled.finishAttempt .failed nowUs = .ok finished := by
    have hlast : settled.lastAttempt = some ⟨startedAtUs, none, .running⟩ := by
      simp [lastAttempt, settled, hattempts]
    have hdrop : settled.attempts.dropLast = past := by simp [settled, hattempts]
    simp only [finishAttempt, hlast, ↓reduceIte, bind_eq_ok, require_eq_ok, exists_unit, pure_eq_ok,
      hdrop]
    exact ⟨rfl, hstarted.trans hnow, rfl⟩
  have hlast : finished.lastAttempt = some ⟨startedAtUs, some nowUs, .failed⟩ := by
    simp [lastAttempt, finished]
  have htold : (j.events.getLast?.all fun p => decide (p.occurredAtUs ≤ nowUs)) = true := by
    cases he : j.events.getLast? with
    | none => rfl
    | some e => simpa using (h.told e he).trans hnow
  have hevent : finished.insertEvent ⟨nowUs, .failed⟩ = .ok
      { finished with events := j.events ++ [⟨nowUs, .failed⟩] } := by
    simp only [insertEvent, bind_eq_ok, require_eq_ok, exists_unit, pure_eq_ok]
    exact ⟨htold, rfl, h.hasEventLineage rfl rfl rfl hlast rfl (.inr rfl), hpos, rfl⟩
  have hobserved : (j.observations.getLast?.all fun p => decide (p.finishedAtUs ≤ nowUs)) = true := by
    cases ho : j.observations.getLast? with
    | none => rfl
    | some o =>
      have hmem : o.finishedAtUs ∈ j.recoveries.map SystemRecovery.settledAtUs := by
        rw [← h.observed]
        exact List.mem_map_of_mem (List.mem_of_getLast? ho)
      obtain ⟨c, hc, hco⟩ := List.mem_map.1 hmem
      simpa [← hco] using (h.settled c hc).trans hnow
  have hlineage : j.observations = [] ∨ (j.recoveries.any fun c =>
      ({ finished with events := j.events ++ [⟨nowUs, .failed⟩] } : DurableJob).queuedAt c.settledAtUs) =
        true := by
    by_cases hne : past = []
    · exact .inl (h.observations_nil hne)
    · obtain ⟨c, -, hc, -⟩ := h.last hne
      have hqueued := h.requeued c (List.mem_of_getLast? hc)
      refine .inr (List.any_eq_true.2 ⟨c, List.mem_of_getLast? hc, ?_⟩)
      simp only [queuedAt, List.any_append] at hqueued ⊢
      simp [hqueued]
  have hunique : (j.observations.all fun o => decide (o.attemptNumber ≠ some (past.length + 1))) =
      true := by
    rw [List.all_eq_true]
    intro o ho
    rw [decide_eq_true_eq]
    intro heq
    have := h.numbers o ho _ heq
    omega
  have hobservation : ({ finished with events := j.events ++ [⟨nowUs, .failed⟩] } :
      DurableJob).insertObservation ⟨some (past.length + 1), .failed, nowUs⟩ false =
        .ok (j.failedAt authority past startedAtUs nowUs) := by
    simp only [insertObservation, bind_eq_ok, require_eq_ok, exists_unit, pure_eq_ok]
    refine ⟨hobserved, ⟨rfl, by simp⟩, ?_, hlineage, .inl (by simp), hunique, hpos, rfl⟩
    simp [hasObservedAttempt, lastAttempt, finished]
  simp only [terminate, bind_eq_ok]
  refine ⟨finished, hfinished, _, hevent, ?_⟩
  have hnumber : (if finished.attempts = [] then none else some finished.attempts.length) =
      some (past.length + 1) := by
    simp [finished]
  exact hnumber ▸ hobservation

/-- The failed job is requeued when no recovery has this very instant. -/
theorem History.requeue (h : j.History past horizon) (hpos : 0 < nowUs)
    (hgeneration : j.fencingGeneration < authority.fencingGeneration) :
    ((j.failedAt authority past startedAtUs nowUs).requeueInterrupted authority nowUs = .ok j' ↔
      (∀ c ∈ j.recoveries, c.settledAtUs ≠ nowUs) ∧
        j' = (j.failedAt authority past startedAtUs nowUs).requeuedAt authority nowUs) := by
  have hinterrupted : ((j.failedAt authority past startedAtUs nowUs).lastAttempt.any fun a =>
      a.state = .failed && a.finishedAtUs = some nowUs) = true := by
    simp [lastAttempt, failedAt]
  have hunique : ((j.recoveries.all fun p => decide (p.settledAtUs ≠ nowUs ∧
      p.fencingGeneration ≠ authority.fencingGeneration)) = true) ↔
        ∀ c ∈ j.recoveries, c.settledAtUs ≠ nowUs := by
    rw [List.all_eq_true]
    refine forall₂_congr fun c hc => ?_
    have hle := h.generations c hc
    rw [decide_eq_true_eq]
    exact and_iff_left (by omega)
  have hlineage : ({ j.failedAt authority past startedAtUs nowUs with
      state := .queued
      recoveries := j.recoveries ++ [⟨authority.fencingGeneration, nowUs⟩] } :
        DurableJob).hasEventLineage ⟨nowUs, .queued⟩ = true := by
    unfold DurableJob.hasEventLineage
    split
    · rfl
    · simp
  simp only [requeueInterrupted, insertRecovery, insertEvent, bind_eq_ok, require_eq_ok, exists_unit,
    pure_eq_ok]
  constructor
  · rintro ⟨_, ⟨-, -, hall, -, rfl⟩, -, -, -, -, rfl⟩
    exact ⟨hunique.1 hall, rfl⟩
  · rintro ⟨hall, rfl⟩
    refine ⟨_, ⟨trivial, hinterrupted, hunique.2 hall, hpos, rfl⟩, ?_, rfl, hlineage, hpos, rfl⟩
    simp [failedAt]

def Recoverable (j : DurableJob) (nowUs : Nat) : Prop :=
  j.attempts.length < j.maxAttempts → ∀ c ∈ j.recoveries, c.settledAtUs ≠ nowUs

/-- What the recovery of a claimed job leaves: the job requeued, or failed for good. -/
theorem History.recover_eq_ok {requeued : Bool} (hstate : j.state = .claimed)
    (hattempts : j.attempts = past ++ [⟨startedAtUs, none, .running⟩]) (hstarted : startedAtUs ≤ horizon)
    (h : j.History past horizon) (hnow : horizon ≤ nowUs) (hpos : 0 < nowUs)
    (hgeneration : j.fencingGeneration < authority.fencingGeneration) :
    j.recover authority nowUs = .ok (j', requeued) ↔ j.Recoverable nowUs ∧
      if j.attempts.length < j.maxAttempts then
        j' = (j.failedAt authority past startedAtUs nowUs).requeuedAt authority nowUs ∧ requeued = true
      else j' = j.failedAt authority past startedAtUs nowUs ∧ requeued = false := by
  have hlength : (j.failedAt authority past startedAtUs nowUs).attempts.length = j.attempts.length := by
    simp [failedAt, hattempts]
  have hmax : (j.failedAt authority past startedAtUs nowUs).maxAttempts = j.maxAttempts := rfl
  rw [recover, require_pos ⟨hstate, hgeneration⟩, ok_bind, h.fail hattempts hstarted hnow hpos, ok_bind,
    hlength, hmax]
  unfold Recoverable
  by_cases hroom : j.attempts.length < j.maxAttempts
  · simp only [hroom, ↓reduceIte, bind_eq_ok, pure_eq_ok, Prod.mk.injEq,
      h.requeue hpos hgeneration, forall_const]
    constructor
    · rintro ⟨_, ⟨hall, rfl⟩, rfl, rfl⟩
      exact ⟨hall, rfl, rfl⟩
    · rintro ⟨hall, rfl, rfl⟩
      exact ⟨_, ⟨hall, rfl⟩, rfl, rfl⟩
  · simp only [hroom, ↓reduceIte, pure_eq_ok, Prod.mk.injEq, false_imp_iff, true_and]
    exact and_congr eq_comm eq_comm

theorem History.requeued_live (hattempts : j.attempts = past ++ [⟨startedAtUs, none, .running⟩])
    (h : j.History past horizon) (hnow : horizon ≤ nowUs)
    (hgeneration : j.fencingGeneration ≤ authority.fencingGeneration)
    (hroom : j.attempts.length < j.maxAttempts) :
    ((j.failedAt authority past startedAtUs nowUs).requeuedAt authority nowUs).Live nowUs := by
  have hqueued : ∀ c ∈ j.recoveries ++ [⟨authority.fencingGeneration, nowUs⟩],
      ((j.failedAt authority past startedAtUs nowUs).requeuedAt authority nowUs).queuedAt
        c.settledAtUs = true := by
    intro c hc
    simp only [queuedAt, requeuedAt, failedAt, List.any_append]
    rcases List.mem_append.1 hc with hc | hc
    · have hold := h.requeued c hc
      simp only [queuedAt] at hold
      simp [hold]
    · rw [List.mem_singleton.1 hc]
      simp
  have hsettled : ∀ c ∈ j.recoveries ++ [⟨authority.fencingGeneration, nowUs⟩],
      c.settledAtUs ≤ nowUs ∧ c.fencingGeneration ≤ authority.fencingGeneration := by
    intro c hc
    rcases List.mem_append.1 hc with hc | hc
    · exact ⟨(h.settled c hc).trans hnow, (h.generations c hc).trans hgeneration⟩
    · rw [List.mem_singleton.1 hc]
      exact ⟨le_rfl, le_rfl⟩
  refine .queued rfl
    { failed := ?_
      ended := ?_
      observed := ?_
      numbers := ?_
      ordered := ?_
      requeued := hqueued
      settled := fun c hc => (hsettled c hc).1
      generations := fun c hc => (hsettled c hc).2
      told := ?_
      room := ?_ }
  · intro a ha
    rcases List.mem_append.1 ha with ha | ha
    · exact h.failed a ha
    · rw [List.mem_singleton.1 ha]
  · simp [requeuedAt, failedAt, h.ended]
  · simp [requeuedAt, failedAt, h.observed]
  · intro o ho n hn
    simp only [requeuedAt, failedAt, List.length_append, List.length_singleton]
    rcases List.mem_append.1 ho with ho | ho
    · have := h.numbers o ho n hn
      omega
    · rw [List.mem_singleton.1 ho] at hn
      cases hn
      rfl
  · refine List.pairwise_append.2 ⟨h.ordered, List.pairwise_singleton _ _, ?_⟩
    intro c hc c' hc'
    rw [List.mem_singleton.1 hc']
    exact (h.settled c hc).trans hnow
  · intro e he
    simp only [requeuedAt, List.getLast?_concat, Option.some.injEq] at he
    rw [← he]
  · simpa [requeuedAt, failedAt, hattempts] using hroom

end Recover

/-! ## Ending -/

/-- A writer that ends the job leaves the state it names. -/
theorem terminate_state {state : JobState} {cancellation : Bool}
    (h : j.terminate authority state nowUs cancellation = .ok j') :
    j'.state = state.scheduled ∧ j'.fencingGeneration = authority.fencingGeneration ∧
      j'.recoveries = j.recoveries ∧ j'.maxAttempts = j.maxAttempts := by
  simp only [terminate, bind_eq_ok] at h
  obtain ⟨finished, hfinished, told, htold, hobserved⟩ := h
  have hf : finished.state = state.scheduled ∧ finished.fencingGeneration = authority.fencingGeneration ∧
      finished.recoveries = j.recoveries ∧ finished.maxAttempts = j.maxAttempts := by
    unfold finishAttempt at hfinished
    split at hfinished
    · obtain rfl := pure_eq_ok.1 hfinished
      exact ⟨rfl, rfl, rfl, rfl⟩
    · split at hfinished
      · simp only [bind_eq_ok, require_eq_ok, exists_unit, pure_eq_ok] at hfinished
        obtain ⟨-, -, rfl⟩ := hfinished
        exact ⟨rfl, rfl, rfl, rfl⟩
      · obtain rfl := pure_eq_ok.1 hfinished
        exact ⟨rfl, rfl, rfl, rfl⟩
  simp only [insertEvent, bind_eq_ok, require_eq_ok, exists_unit, pure_eq_ok] at htold
  obtain ⟨-, -, -, -, rfl⟩ := htold
  simp only [insertObservation, bind_eq_ok, require_eq_ok, exists_unit, pure_eq_ok] at hobserved
  obtain ⟨-, -, -, -, -, -, -, rfl⟩ := hobserved
  exact hf

theorem terminalize_state {state : JobState} (h : j.terminalize authority state nowUs = .ok j') :
    j'.state = state.scheduled ∧ j'.fencingGeneration = authority.fencingGeneration ∧
      j'.recoveries = j.recoveries ∧ j'.maxAttempts = j.maxAttempts := by
  simp only [terminalize, bind_eq_ok, exists_unit] at h
  obtain ⟨-, -, -, h⟩ := h
  exact terminate_state h

theorem cancel_state {cancellation : Bool} (hlive : j.terminal = false)
    (h : j.cancel authority nowUs cancellation = .ok j') :
    j'.state = .cancelled ∧ j'.fencingGeneration = authority.fencingGeneration ∧
      j'.recoveries = j.recoveries ∧ j'.maxAttempts = j.maxAttempts := by
  unfold cancel at h
  rw [hlive, if_neg Bool.false_ne_true] at h
  split at h
  · simp only [bind_eq_ok] at h
    obtain ⟨running, hrunning, h⟩ := h
    obtain ⟨-, rfl⟩ := claim_eq_ok hrunning
    exact terminate_state h
  · exact terminate_state h

end OmniviaCore.Runtime.DurableJob
