import OmniviaCore.Runtime.JobHistory
import OmniviaCore.Runtime.Writes

/-!
# Sound runs

What holds of a run between two transactions. A step is `Sound` up to an instant: its attempts are
numbered, all but the last have ended, and its status says whether the last has. A run is in one of three
phases (`Phase`): queued without an open attempt, claimed with exactly one, or ended with its job.
-/

namespace OmniviaCore.Runtime

open Lib

/-! ## Steps -/

/-- A step whose attempts ended one after the other, at instants up to a horizon. -/
structure RunStep.Sound (horizon : Nat) (st : RunStep) : Prop where
  created : st.createdAtUs ≤ horizon
  observed : ∀ s ∈ st.states, s.observedAtUs ≤ horizon
  numbered : Numbered 1 Attempt.attemptNumber st.attempts
  begun : ∀ a ∈ st.attempts, a.startedAtUs ≤ horizon
  ended : ∀ a ∈ st.attempts, ∀ o, a.outcome = some o → o.finishedAtUs ≤ horizon
  settled : ∀ a ∈ st.attempts.dropLast, a.outcome ≠ none
  active : ∀ a, st.lastAttempt = some a → a.outcome = none →
    st.status = some .running ∨ st.status = some .waiting
  retriable : st.status = some .pending → ∀ a, st.lastAttempt = some a →
    ∃ o, a.outcome = some o ∧ o.status.followable = true
  closed : st.closed = true → ∃ s, st.status = some s ∧ s.terminal = true

namespace RunStep

variable {st : RunStep} {horizon nowUs : Nat}

theorem Sound.mono {horizon' : Nat} (h : st.Sound horizon) (hle : horizon ≤ horizon') :
    st.Sound horizon' :=
  { h with
    created := h.created.trans hle
    observed := fun s hs => (h.observed s hs).trans hle
    begun := fun a ha => (h.begun a ha).trans hle
    ended := fun a ha o ho => (h.ended a ha o ho).trans hle }

theorem status_observed (status : StepStatus) : (st.observed status nowUs).status = some status := by
  simp [RunStep.status, observed]

theorem closed_observed (status : StepStatus) (hclosed : st.closed = false) :
    (st.observed status nowUs).closed = status.terminal := by
  simp only [closed] at hclosed
  simp [closed, observed, hclosed]

theorem Sound.observe (h : st.Sound nowUs) {status : StepStatus} (hclosed : st.closed = false)
    (hactive : ∀ a, st.lastAttempt = some a → a.outcome = none → status = .running ∨ status = .waiting)
    (hretriable : status = .pending → ∀ a, st.lastAttempt = some a →
      ∃ o, a.outcome = some o ∧ o.status.followable = true) :
    (st.observed status nowUs).Sound nowUs where
  created := h.created
  observed := by
    intro s hs
    rcases List.mem_append.1 hs with hs | hs
    · exact h.observed s hs
    · rw [List.mem_singleton.1 hs]
  numbered := h.numbered
  begun := h.begun
  ended := h.ended
  settled := h.settled
  active := by
    intro a ha hopen
    rw [status_observed]
    rcases hactive a ha hopen with rfl | rfl
    · exact .inl rfl
    · exact .inr rfl
  retriable := by
    intro hpending
    rw [status_observed] at hpending
    exact hretriable (Option.some.inj hpending)
  closed := by
    intro hterminal
    rw [closed_observed status hclosed] at hterminal
    exact ⟨status, status_observed status, hterminal⟩

theorem Sound.nextAttemptNumber (h : st.Sound horizon) :
    st.nextAttemptNumber = st.attempts.length + 1 := by
  rw [RunStep.nextAttemptNumber, h.numbered.nextNumber]
  omega

/-- The next attempt of a running step whose attempts have ended. -/
theorem Sound.start (h : st.Sound nowUs) (hstatus : st.status = some .running)
    (hended : ∀ a, st.lastAttempt = some a → a.outcome ≠ none) : (st.started nowUs).Sound nowUs where
  created := h.created
  observed := h.observed
  numbered := by
    refine numbered_concat.2 ⟨h.numbered, ?_⟩
    simp only [h.nextAttemptNumber]
    omega
  begun := by
    intro a ha
    rcases List.mem_append.1 ha with ha | ha
    · exact h.begun a ha
    · rw [List.mem_singleton.1 ha]
  ended := by
    intro a ha o ho
    rcases List.mem_append.1 ha with ha | ha
    · exact h.ended a ha o ho
    · rw [List.mem_singleton.1 ha] at ho
      cases ho
  settled := by
    intro a ha
    rw [started, List.dropLast_concat] at ha
    rcases List.eq_nil_or_concat' st.attempts with hnil | ⟨init, last, hattempts⟩
    · rw [hnil] at ha
      cases ha
    · rw [hattempts] at ha
      rcases List.mem_append.1 ha with ha | ha
      · exact h.settled a (by rw [hattempts, List.dropLast_concat]; exact ha)
      · rw [List.mem_singleton.1 ha]
        exact hended last (by rw [lastAttempt, hattempts, List.getLast?_concat])
  active := fun _ _ _ => .inl hstatus
  retriable := by
    intro hpending
    rw [show (st.started nowUs).status = st.status from rfl, hstatus] at hpending
    cases hpending
  closed := h.closed

/-- The open attempt is the last, and its outcome is recorded there. -/
theorem Sound.find_open (h : st.Sound horizon) {a : Attempt} {number : Nat}
    (ha : st.attempts.find? (·.attemptNumber = number) = some a) (hopen : a.outcome = none) :
    ∃ init, st.attempts = init ++ [a] ∧ number = init.length + 1 ∧
      ∀ status nowUs,
        (st.finished number status nowUs).attempts = init ++ [a.finish status nowUs] := by
  have hnumber : a.attemptNumber = number := by simpa using List.find?_some ha
  rcases List.eq_nil_or_concat' st.attempts with hnil | ⟨init, last, hattempts⟩
  · rw [hnil] at ha
    cases ha
  have hmem := List.mem_of_find?_eq_some ha
  have hlast : a = last := by
    rw [hattempts] at hmem
    rcases List.mem_append.1 hmem with hmem | hmem
    · exact absurd hopen (h.settled a (by rw [hattempts, List.dropLast_concat]; exact hmem))
    · exact List.mem_singleton.1 hmem
  subst hlast
  have hnumbered := h.numbered
  rw [hattempts] at hnumbered
  have hlength := (numbered_concat.1 hnumbered).2
  refine ⟨init, hattempts, by omega, fun status nowUs => ?_⟩
  rw [finished, hattempts, ← hnumber]
  exact hnumbered.updateAt_concat

theorem Sound.finish (h : st.Sound nowUs) {a : Attempt} {number : Nat} {status : AttemptStatus}
    (ha : st.attempts.find? (·.attemptNumber = number) = some a) (hopen : a.outcome = none) :
    (st.finished number status nowUs).Sound nowUs := by
  obtain ⟨init, hattempts, -, hfinished⟩ := h.find_open ha hopen
  have hattempts' := hfinished status nowUs
  have hlast : st.lastAttempt = some a := by rw [lastAttempt, hattempts, List.getLast?_concat]
  have hstatus : st.status = some .running ∨ st.status = some .waiting := h.active a hlast hopen
  have hnumbered := h.numbered
  rw [hattempts] at hnumbered
  have hinit : ∀ x ∈ init, x ∈ st.attempts := fun x hx => by
    rw [hattempts]
    exact List.mem_append_left _ hx
  refine
    { created := h.created
      observed := h.observed
      numbered := ?_
      begun := ?_
      ended := ?_
      settled := ?_
      active := ?_
      retriable := ?_
      closed := h.closed }
  · rw [hattempts']
    obtain ⟨hbefore, hnumber⟩ := numbered_concat.1 hnumbered
    exact numbered_concat.2 ⟨hbefore, hnumber⟩
  · intro x hx
    rw [hattempts'] at hx
    rcases List.mem_append.1 hx with hx | hx
    · exact h.begun x (hinit x hx)
    · rw [List.mem_singleton.1 hx]
      exact h.begun a (by rw [hattempts]; simp)
  · intro x hx o ho
    rw [hattempts'] at hx
    rcases List.mem_append.1 hx with hx | hx
    · exact h.ended x (hinit x hx) o ho
    · rw [List.mem_singleton.1 hx] at ho
      obtain rfl := Option.some.inj ho
      exact le_rfl
  · intro x hx
    rw [hattempts', List.dropLast_concat] at hx
    exact h.settled x (by rw [hattempts, List.dropLast_concat]; exact hx)
  · intro x hx hnone
    rw [lastAttempt, hattempts', List.getLast?_concat] at hx
    rw [← Option.some.inj hx] at hnone
    cases hnone
  · intro hpending
    rw [show (st.finished number status nowUs).status = st.status from rfl] at hpending
    rcases hstatus with hstatus | hstatus
    · rw [hstatus] at hpending
      cases hpending
    · rw [hstatus] at hpending
      cases hpending

end RunStep

/-! ## The steps of a run -/

namespace Run

variable {r r' finished : Run} {st : RunStep} {runStepId : String} {horizon count nowUs number : Nat}

/-- The steps of a run up to an instant, when its job has been recovered `count` times. An attempt is
the first of a claim, or a retry, of which there are at most two. -/
structure StepsSound (r : Run) (horizon count : Nat) : Prop where
  sound : ∀ st ∈ r.steps, st.Sound horizon
  bounded : ∀ st ∈ r.steps, st.attempts.length ≤ 3 + count
  retriable : ∀ st ∈ r.steps, st.status = some .pending → st.attempts.length ≤ 2 + count

theorem StepsSound.mono {horizon' count' : Nat} (h : r.StepsSound horizon count)
    (hhorizon : horizon ≤ horizon') (hcount : count ≤ count') : r.StepsSound horizon' count' where
  sound := fun st hst => (h.sound st hst).mono hhorizon
  bounded := fun st hst => (h.bounded st hst).trans (by omega)
  retriable := fun st hst hp => (h.retriable st hst hp).trans (by omega)

theorem StepsSound.congr (h : r.StepsSound horizon count) (hsteps : r'.steps = r.steps) :
    r'.StepsSound horizon count where
  sound := hsteps ▸ h.sound
  bounded := hsteps ▸ h.bounded
  retriable := hsteps ▸ h.retriable

theorem StepsSound.setStep (h : r.StepsSound horizon count) (hsound : st.Sound horizon)
    (hbounded : st.attempts.length ≤ 3 + count)
    (hretriable : st.status = some .pending → st.attempts.length ≤ 2 + count) :
    (r.setStep st).StepsSound horizon count := by
  refine ⟨?_, ?_, ?_⟩
  · intro x hx
    rcases mem_setStep hx with hx | rfl
    · exact h.sound x hx
    · exact hsound
  · intro x hx
    rcases mem_setStep hx with hx | rfl
    · exact h.bounded x hx
    · exact hbounded
  · intro x hx
    rcases mem_setStep hx with hx | rfl
    · exact h.retriable x hx
    · exact hretriable

/-- The attempts of a step have ended where the run has no open one. -/
theorem outcome_ne_none (hnone : r.openAttempts = []) (hst : st ∈ r.steps) {a : Attempt}
    (ha : a ∈ st.attempts) : a.outcome ≠ none := by
  intro hopen
  have hmem : (st.runStepId, a) ∈ r.openAttempts :=
    List.mem_flatMap.2 ⟨st, hst, List.mem_map_of_mem
      (List.mem_filter.2 ⟨ha, by simp [Attempt.isOpen, hopen]⟩)⟩
  rw [hnone] at hmem
  cases hmem

/-- An attempt ends and its step with it: nothing of the run is open any more. -/
theorem StepsSound.settle {outcome : AttemptStatus} {status : StepStatus}
    (h : r.StepsSound nowUs count) (hkeyed : r.Keyed) (hsingle : r.openAttempts.length ≤ 1)
    (hfinish : r.finishAttempt runStepId number outcome nowUs = .ok finished)
    (hobserve : finished.recordStepStatus runStepId status nowUs = .ok r')
    (hpending : status = .pending → outcome.followable = true ∧
      (number ≤ 2 + count ∨ ∀ st ∈ r.steps, st.attempts.length ≤ 2 + count)) :
    r'.StepsSound nowUs count ∧ r'.openAttempts = [] ∧
      (∃ a, a.attemptNumber = number ∧ r.openAttempts = [(runStepId, a)]) ∧
      (r'.events = r.events ∧ r'.waits = r.waits ∧ r'.job = r.job) ∧
      ∃ st, r'.step? runStepId = some st ∧ st.status = some status := by
  obtain ⟨st, hst⟩ := finishAttempt_found hfinish
  obtain ⟨hopened, hclosed⟩ := finishAttempt_openAttempts hkeyed.steps hsingle hfinish
  obtain ⟨a, ha, ⟨hopen, -, -⟩, rfl⟩ := (finishAttempt_eq_ok hst).1 hfinish
  have hmem := (step?_mem hst).1
  have hsound := h.sound st hmem
  obtain ⟨init, hattempts, hnumber, hfinished⟩ := hsound.find_open ha hopen
  have hlength : (st.finished number outcome nowUs).attempts.length = st.attempts.length := by
    rw [hfinished, hattempts]
    simp
  have hst' : (r.setStep (st.finished number outcome nowUs)).step? runStepId =
      some (st.finished number outcome nowUs) := step?_setStep hst rfl
  obtain ⟨⟨-, -, -, hopenStep, -⟩, rfl⟩ := (recordStepStatus_eq_ok hst').1 hobserve
  have hlast : (st.finished number outcome nowUs).lastAttempt = some (a.finish outcome nowUs) := by
    rw [RunStep.lastAttempt, hfinished, List.getLast?_concat]
  have hfinishedSound := h.setStep (hsound.finish ha hopen)
    (hlength ▸ h.bounded st hmem) (fun hp => hlength ▸ h.retriable st hmem hp)
  have hended : (st.finished number outcome nowUs).Sound nowUs := hsound.finish ha hopen
  have hobserved : ((st.finished number outcome nowUs).observed status nowUs).Sound nowUs :=
    hended.observe hopenStep
    (fun x hx hnone => by
      rw [hlast] at hx
      rw [← Option.some.inj hx] at hnone
      cases hnone)
    (fun hp x hx => by
      rw [hlast] at hx
      exact ⟨⟨outcome, nowUs⟩, by rw [← Option.some.inj hx]; rfl, (hpending hp).1⟩)
  refine ⟨?_, ?_, hopened, ⟨rfl, rfl, rfl⟩, _, step?_setStep hst' rfl, RunStep.status_observed status⟩
  · refine hfinishedSound.setStep hobserved (hlength.trans_le (h.bounded st hmem)) fun hp => ?_
    rw [RunStep.status_observed] at hp
    refine hlength.trans_le ?_
    rcases (hpending (Option.some.inj hp)).2 with hle | hle
    · rw [hattempts, List.length_append, List.length_singleton]
      omega
    · exact hle st hmem
  · rw [← hclosed]
    exact recordStepStatus_openAttempts (setStep_unique hkeyed.steps) hobserve

/-- A pending step gets its next attempt: it is the one open attempt of the run. -/
theorem StepsSound.open {started : Run} (h : r.StepsSound nowUs count) (hkeyed : r.Keyed)
    (hnone : r.openAttempts = []) (hst : r.step? runStepId = some st)
    (hpending : st.status = some .pending)
    (hobserve : r.recordStepStatus runStepId .running nowUs = .ok finished)
    (hstart : finished.startAttempt runStepId nowUs = .ok started) :
    started.StepsSound nowUs count ∧ (∃ a, started.openAttempts = [(runStepId, a)]) ∧
      started.events = r.events ∧ started.waits = r.waits ∧ started.job = r.job := by
  have hmem := (step?_mem hst).1
  have hopened := recordStepStatus_openAttempts hkeyed.steps hobserve
  obtain ⟨⟨-, -, -, hopenStep, -⟩, rfl⟩ := (recordStepStatus_eq_ok hst).1 hobserve
  have hattempt := startAttempt_openAttempts (setStep_unique hkeyed.steps) (hopened.trans hnone) hstart
  have hst' : (r.setStep (st.observed .running nowUs)).step? runStepId =
      some (st.observed .running nowUs) := step?_setStep hst rfl
  obtain ⟨-, rfl⟩ := (startAttempt_eq_ok hst').1 hstart
  have hended : ∀ a, st.lastAttempt = some a → a.outcome ≠ none := fun a ha =>
    outcome_ne_none hnone hmem (List.mem_of_getLast? ha)
  have hobserved : (st.observed .running nowUs).Sound nowUs :=
    (h.sound st hmem).observe hopenStep (fun _ _ _ => .inl rfl) (fun hp => by cases hp)
  have hretriable := h.retriable st hmem hpending
  have hrunning := h.setStep hobserved (h.bounded st hmem) (fun hp => by
    rw [RunStep.status_observed] at hp
    cases hp)
  refine ⟨?_, hattempt, rfl, rfl, rfl⟩
  refine hrunning.setStep (hobserved.start (RunStep.status_observed _) hended) ?_ ?_
  · simp only [RunStep.started, RunStep.observed, List.length_append, List.length_singleton]
    omega
  · intro hp
    rw [show ((st.observed .running nowUs).started nowUs).status =
      (st.observed .running nowUs).status from rfl, RunStep.status_observed] at hp
    cases hp

/-- A status that leaves the open attempt running, or holds it. -/
theorem StepsSound.observe {status : StepStatus} (h : r.StepsSound nowUs count)
    (hstatus : status = .running ∨ status = .waiting)
    (hobserve : r.recordStepStatus runStepId status nowUs = .ok r') : r'.StepsSound nowUs count := by
  obtain ⟨st, hst⟩ := recordStepStatus_found hobserve
  obtain ⟨⟨-, -, -, hopenStep, -⟩, rfl⟩ := (recordStepStatus_eq_ok hst).1 hobserve
  have hmem := (step?_mem hst).1
  have hne : status ≠ .pending := by
    rcases hstatus with rfl | rfl
    · exact fun heq => by cases heq
    · exact fun heq => by cases heq
  refine h.setStep ((h.sound st hmem).observe hopenStep (fun _ _ _ => hstatus)
    (fun hp => absurd hp hne)) (h.bounded st hmem) fun hp => ?_
  rw [RunStep.status_observed] at hp
  exact absurd (Option.some.inj hp) hne

end Run

end OmniviaCore.Runtime
