import OmniviaCore.Runtime.Statements

/-!
# What the statements write

For each statement of the runtime writer, when it goes through and what it leaves. `Statement` is one
of them, or a write of the job's own rows, and `Statements` a sequence of them: every operation on a run
is such a sequence, so what each statement keeps, each operation keeps.
-/

namespace OmniviaCore.Runtime

open Lib

variable {r r' : Run} {runStepId : String} {st : RunStep} {nowUs : Nat}

namespace Run

/-! ## One step rewritten -/

theorem step?_mem (h : r.step? runStepId = some st) : st ∈ r.steps ∧ st.runStepId = runStepId :=
  ⟨List.mem_of_find?_eq_some h, by simpa using List.find?_some h⟩

theorem step?_of_mem (hunique : Unique RunStep.runStepId r.steps) (h : st ∈ r.steps) :
    r.step? st.runStepId = some st :=
  hunique.find? h rfl

theorem setStep_steps (hunique : Unique RunStep.runStepId r.steps) (h : st ∈ r.steps) {st' : RunStep}
    (hid : st'.runStepId = st.runStepId) :
    ∃ before after, r.steps = before ++ st :: after ∧
      (r.setStep st').steps = before ++ st' :: after := by
  obtain ⟨before, after, hsteps, hset⟩ := hunique.updateKey h st'
  exact ⟨before, after, hsteps, by simpa only [setStep, hid] using hset⟩

theorem setStep_unique (hunique : Unique RunStep.runStepId r.steps) :
    Unique RunStep.runStepId (r.setStep st).steps := by
  unfold Lib.Unique at *
  rwa [setStep, map_updateKey rfl]

theorem mem_setStep {st' x : RunStep} (h : x ∈ (r.setStep st').steps) : x ∈ r.steps ∨ x = st' := by
  obtain ⟨y, hy, rfl⟩ := List.mem_map.1 h
  split
  · exact .inr rfl
  · exact .inl hy

/-- The step rewritten is the one its identifier names now. -/
theorem step?_setStep (h : r.step? runStepId = some st) {st' : RunStep}
    (hid : st'.runStepId = st.runStepId) : (r.setStep st').step? runStepId = some st' := by
  obtain ⟨-, hst⟩ := step?_mem h
  unfold step? setStep updateKey at *
  rw [List.find?_map]
  rw [show ((fun x : RunStep => decide (x.runStepId = runStepId)) ∘
    fun x => if x.runStepId = st'.runStepId then st' else x) =
      fun x => decide (x.runStepId = runStepId) from ?_, h]
  · simp [hid]
  · funext x
    simp only [Function.comp_apply, decide_eq_decide]
    split
    next hx => rw [hx, hid, hst]
    next => rfl

/-! ## When a statement goes through -/

theorem recordStepStatus_eq_ok (hst : r.step? runStepId = some st) {status : StepStatus} :
    r.recordStepStatus runStepId status nowUs = .ok r' ↔
      (st.createdAtUs ≤ nowUs ∧
        st.states.getLast?.all (fun p => decide (p.observedAtUs ≤ nowUs)) = true ∧
        st.status ≠ some status ∧ st.closed = false ∧
        (status ≠ .waiting ∨ r.holdsStep st.runStepId = true) ∧
        (status.terminal = true ∨ r.hasTerminalEvent = false) ∧ 0 < nowUs) ∧
      r' = r.setStep (st.observed status nowUs) := by
  simp only [recordStepStatus, hst, insertStepState, bind_eq_ok, require_eq_ok, exists_unit,
    pure_eq_ok]
  constructor
  · rintro ⟨_, ⟨h₁, h₂, h₃, h₄, h₅, h₆, h₇, rfl⟩, rfl⟩
    exact ⟨⟨h₁, h₂, h₃, h₄, h₅, h₆, h₇⟩, rfl⟩
  · rintro ⟨⟨h₁, h₂, h₃, h₄, h₅, h₆, h₇⟩, rfl⟩
    exact ⟨_, ⟨h₁, h₂, h₃, h₄, h₅, h₆, h₇, rfl⟩, rfl⟩

theorem startAttempt_eq_ok (hst : r.step? runStepId = some st) :
    r.startAttempt runStepId nowUs = .ok r' ↔
      (st.createdAtUs ≤ nowUs ∧ st.nextAttemptNumber ≤ 256 ∧
        st.lastAttempt.all (fun p => p.outcome.any (·.status.followable)) = true ∧
        st.lastAttempt.all (fun p => p.outcome.all fun o => decide (o.finishedAtUs ≤ nowUs)) = true ∧
        st.closed = false ∧ r.hasTerminalEvent = false ∧ 0 < nowUs) ∧
      r' = r.setStep (st.started nowUs) := by
  simp only [startAttempt, hst, insertAttempt, bind_eq_ok, require_eq_ok, exists_unit, pure_eq_ok]
  constructor
  · rintro ⟨_, ⟨h₁, h₂, h₃, h₄, h₅, h₆, h₇, rfl⟩, rfl⟩
    exact ⟨⟨h₁, h₂, h₃, h₄, h₅, h₆, h₇⟩, rfl⟩
  · rintro ⟨⟨h₁, h₂, h₃, h₄, h₅, h₆, h₇⟩, rfl⟩
    exact ⟨_, ⟨h₁, h₂, h₃, h₄, h₅, h₆, h₇, rfl⟩, rfl⟩

theorem finishAttempt_eq_ok (hst : r.step? runStepId = some st) {number : Nat}
    {status : AttemptStatus} :
    r.finishAttempt runStepId number status nowUs = .ok r' ↔
      ∃ a, st.attempts.find? (·.attemptNumber = number) = some a ∧
        (a.outcome = none ∧ a.startedAtUs ≤ nowUs ∧ 0 < nowUs) ∧
        r' = r.setStep (st.finished number status nowUs) := by
  simp only [finishAttempt, hst, insertOutcome]
  split
  next h => exact iff_of_false (fun hr => by cases hr) (fun ⟨a, ha, _⟩ => by simp [h] at ha)
  next a h =>
    simp only [bind_eq_ok, require_eq_ok, exists_unit, pure_eq_ok, h, Option.some.injEq,
      exists_eq_left']
    constructor
    · rintro ⟨_, ⟨h₁, h₂, h₃, rfl⟩, rfl⟩
      exact ⟨⟨h₁, h₂, h₃⟩, rfl⟩
    · rintro ⟨⟨h₁, h₂, h₃⟩, rfl⟩
      exact ⟨_, ⟨h₁, h₂, h₃, rfl⟩, rfl⟩

theorem appendRunEvent_eq_ok {e : RunEvent} :
    r.appendRunEvent e = .ok r' ↔
      (r.events.length ≤ 999 ∧ (r.events = [] ↔ e.runStatus = .admitted) ∧
        r.createdAtUs ≤ e.occurredAtUs ∧
        r.events.getLast?.all (fun p => decide (p.occurredAtUs ≤ e.occurredAtUs)) = true ∧
        r.hasTerminalEvent = false ∧
        r.events.getLast?.all (fun p =>
          p.runStatus = e.runStatus || p.runStatus.admits e.runStatus) = true ∧
        e.runStepId.all (fun id => (r.step? id).isSome) = true ∧ 0 < e.occurredAtUs) ∧
      r' = { r with events := r.events ++ [e] } := by
  simp only [appendRunEvent, bind_eq_ok, require_eq_ok, exists_unit, pure_eq_ok]
  constructor
  · rintro ⟨h₁, h₂, h₃, h₄, h₅, h₆, h₇, h₈, rfl⟩
    exact ⟨⟨h₁, h₂, h₃, h₄, h₅, h₆, h₇, h₈⟩, rfl⟩
  · rintro ⟨⟨h₁, h₂, h₃, h₄, h₅, h₆, h₇, h₈⟩, rfl⟩
    exact ⟨h₁, h₂, h₃, h₄, h₅, h₆, h₇, h₈, rfl⟩

theorem closeWait_eq_ok {waitId : String} {w : Wait} (hw : r.wait? waitId = some w)
    {res : WaitResolution} :
    r.closeWait waitId res = .ok r' ↔
      (w.resolution = none ∧
        (Jobs.isOpenCode res.reason = true ∧ res.approvalId.all Jobs.isIdentifier = true) ∧
        w.createdAtUs ≤ res.resolvedAtUs ∧
        (res.approvalId = none ∨ (w.kind = .approval ∧ res.status = .resolved)) ∧
        (res.status ≠ .resolved ∨
          w.expiresAtUs.all (fun e => decide (res.resolvedAtUs ≤ e)) = true) ∧
        (res.status ≠ .expired ∨
          w.expiresAtUs.any (fun e => decide (e ≤ res.resolvedAtUs)) = true) ∧
        0 < res.resolvedAtUs) ∧
      r' = r.setWait { w with resolution := some res } := by
  simp only [closeWait, hw, insertResolution, bind_eq_ok, require_eq_ok, exists_unit, pure_eq_ok]
  constructor
  · rintro ⟨_, ⟨h₁, h₂, h₃, h₄, h₅, h₆, h₇, rfl⟩, rfl⟩
    exact ⟨⟨h₁, h₂, h₃, h₄, h₅, h₆, h₇⟩, rfl⟩
  · rintro ⟨⟨h₁, h₂, h₃, h₄, h₅, h₆, h₇⟩, rfl⟩
    exact ⟨_, ⟨h₁, h₂, h₃, h₄, h₅, h₆, h₇, rfl⟩, rfl⟩

/-! ## What went through was found -/

theorem recordStepStatus_found {status : StepStatus}
    (h : r.recordStepStatus runStepId status nowUs = .ok r') : ∃ st, r.step? runStepId = some st := by
  unfold recordStepStatus at h
  split at h
  · cases h
  next st hst => exact ⟨st, hst⟩

theorem startAttempt_found (h : r.startAttempt runStepId nowUs = .ok r') :
    ∃ st, r.step? runStepId = some st := by
  unfold startAttempt at h
  split at h
  · cases h
  next st hst => exact ⟨st, hst⟩

theorem finishAttempt_found {number : Nat} {status : AttemptStatus}
    (h : r.finishAttempt runStepId number status nowUs = .ok r') :
    ∃ st, r.step? runStepId = some st := by
  unfold finishAttempt at h
  split at h
  · cases h
  next st hst => exact ⟨st, hst⟩

theorem closeWait_found {waitId : String} {res : WaitResolution}
    (h : r.closeWait waitId res = .ok r') : ∃ w, r.wait? waitId = some w := by
  unfold closeWait at h
  split at h
  · cases h
  next w hw => exact ⟨w, hw⟩

theorem openWait_eq_ok {w : Wait} (h : r.openWait w = .ok r') :
    (∃ st, r.step? w.runStepId = some st) ∧ r.holdsStep w.runStepId = false ∧
      r' = { r with waits := r.waits ++ [w] } := by
  unfold openWait at h
  split at h
  · cases h
  next st hst =>
    simp only [bind_eq_ok, require_eq_ok, exists_unit, pure_eq_ok] at h
    obtain ⟨-, -, -, hholds, -, -, -, -, rfl⟩ := h
    exact ⟨⟨st, hst⟩, hholds, rfl⟩

/-! ## The attempts and waits that are open -/

end Run

def RunStep.opened (st : RunStep) : List (String × Attempt) :=
  (st.attempts.filter Attempt.isOpen).map (st.runStepId, ·)

theorem RunStep.opened_started (st : RunStep) :
    (st.started nowUs).opened = st.opened ++ [(st.runStepId, ⟨st.nextAttemptNumber, nowUs, none⟩)] := by
  simp [opened, started, Attempt.isOpen]

theorem RunStep.opened_finished (st : RunStep) {number : Nat} {status : AttemptStatus} :
    (st.finished number status nowUs).opened =
      st.opened.filter fun p => p.2.attemptNumber ≠ number := by
  unfold opened finished updateAt
  dsimp only
  induction st.attempts with
  | nil => rfl
  | cons a rest ih =>
    by_cases ha : a.attemptNumber = number
    · rw [List.map_cons, if_pos ha, List.filter_cons_of_neg (by simp [Attempt.isOpen, Attempt.finish]),
        ih]
      by_cases ho : a.isOpen = true
      · simp [ha, ho]
      · simp [ho]
    · rw [List.map_cons, if_neg ha]
      by_cases ho : a.isOpen = true
      · rw [List.filter_cons_of_pos ho, List.filter_cons_of_pos ho, List.map_cons, List.map_cons,
          List.filter_cons_of_pos (by simpa using ha), ih]
      · rw [List.filter_cons_of_neg ho, List.filter_cons_of_neg ho, ih]

namespace Run

theorem openAttempts_eq : r.openAttempts = r.steps.flatMap RunStep.opened := rfl

theorem openAttempts_setStep (hunique : Unique RunStep.runStepId r.steps) (h : st ∈ r.steps)
    {st' : RunStep} (hid : st'.runStepId = st.runStepId) :
    ∃ before after, r.openAttempts = before ++ st.opened ++ after ∧
      (r.setStep st').openAttempts = before ++ st'.opened ++ after := by
  obtain ⟨before, after, hsteps, hset⟩ := setStep_steps hunique h hid
  refine ⟨before.flatMap RunStep.opened, after.flatMap RunStep.opened, ?_, ?_⟩
  · rw [openAttempts_eq, hsteps]
    simp
  · rw [openAttempts_eq, hset]
    simp

theorem recordStepStatus_openAttempts {status : StepStatus}
    (hunique : Unique RunStep.runStepId r.steps)
    (h : r.recordStepStatus runStepId status nowUs = .ok r') : r'.openAttempts = r.openAttempts := by
  obtain ⟨st, hst⟩ := recordStepStatus_found h
  obtain ⟨-, rfl⟩ := (recordStepStatus_eq_ok hst).1 h
  obtain ⟨before, after, hold, hnew⟩ := openAttempts_setStep hunique (step?_mem hst).1
    (show (st.observed status nowUs).runStepId = st.runStepId from rfl)
  rw [hold, hnew]
  rfl

theorem startAttempt_openAttempts (hunique : Unique RunStep.runStepId r.steps)
    (hnone : r.openAttempts = []) (h : r.startAttempt runStepId nowUs = .ok r') :
    ∃ a, r'.openAttempts = [(runStepId, a)] := by
  obtain ⟨st, hst⟩ := startAttempt_found h
  obtain ⟨-, rfl⟩ := (startAttempt_eq_ok hst).1 h
  obtain ⟨before, after, hold, hnew⟩ := openAttempts_setStep hunique (step?_mem hst).1
    (show (st.started nowUs).runStepId = st.runStepId from rfl)
  rw [hnone] at hold
  simp only [List.nil_eq, List.append_eq_nil_iff] at hold
  obtain ⟨⟨rfl, hopened⟩, rfl⟩ := hold
  rw [hnew, RunStep.opened_started, hopened, (step?_mem hst).2]
  exact ⟨_, rfl⟩

theorem finishAttempt_openAttempts {number : Nat} {status : AttemptStatus}
    (hunique : Unique RunStep.runStepId r.steps) (hsingle : r.openAttempts.length ≤ 1)
    (h : r.finishAttempt runStepId number status nowUs = .ok r') :
    (∃ a, a.attemptNumber = number ∧ r.openAttempts = [(runStepId, a)]) ∧ r'.openAttempts = [] := by
  obtain ⟨st, hst⟩ := finishAttempt_found h
  obtain ⟨a, ha, ⟨hopen, -, -⟩, rfl⟩ := (finishAttempt_eq_ok hst).1 h
  obtain ⟨before, after, hold, hnew⟩ := openAttempts_setStep hunique (step?_mem hst).1
    (show (st.finished number status nowUs).runStepId = st.runStepId from rfl)
  have hnumber : a.attemptNumber = number := by simpa using List.find?_some ha
  have hmem : (st.runStepId, a) ∈ st.opened :=
    List.mem_map_of_mem (List.mem_filter.2 ⟨List.mem_of_find?_eq_some ha, by simp [Attempt.isOpen, hopen]⟩)
  have hlength : before.length + st.opened.length + after.length ≤ 1 := by
    simpa [hold, Nat.add_assoc] using hsingle
  have hpos : 0 < st.opened.length := List.length_pos_of_mem hmem
  obtain rfl : before = [] := List.length_eq_zero_iff.1 (by omega)
  obtain rfl : after = [] := List.length_eq_zero_iff.1 (by omega)
  have hopened : st.opened = [(st.runStepId, a)] := by
    obtain ⟨p, hp⟩ := List.length_eq_one_iff.1 (show st.opened.length = 1 by omega)
    rw [hp, List.mem_singleton] at hmem
    rw [hp, hmem]
  refine ⟨⟨a, hnumber, ?_⟩, ?_⟩
  · rw [hold, hopened, (step?_mem hst).2]
    rfl
  · rw [hnew, RunStep.opened_finished, hopened]
    simp [hnumber]

theorem setWait_waits (hunique : Unique Wait.waitId r.waits) {w w' : Wait} (h : w ∈ r.waits)
    (hid : w'.waitId = w.waitId) :
    ∃ before after, r.waits = before ++ w :: after ∧ (r.setWait w').waits = before ++ w' :: after := by
  obtain ⟨before, after, hwaits, hset⟩ := hunique.updateKey h w'
  exact ⟨before, after, hwaits, by simpa only [setWait, hid] using hset⟩

theorem wait?_mem {waitId : String} {w : Wait} (h : r.wait? waitId = some w) :
    w ∈ r.waits ∧ w.waitId = waitId :=
  ⟨List.mem_of_find?_eq_some h, by simpa using List.find?_some h⟩

theorem setWait_unique {w : Wait} (hunique : Unique Wait.waitId r.waits) :
    Unique Wait.waitId (r.setWait w).waits := by
  unfold Lib.Unique at *
  rwa [setWait, map_updateKey rfl]

theorem closeWait_openWaits {waitId : String} {res : WaitResolution}
    (hunique : Unique Wait.waitId r.waits) (h : r.closeWait waitId res = .ok r') :
    ∃ w before after, w.waitId = waitId ∧ r.openWaits = before ++ w :: after ∧
      r'.openWaits = before ++ after := by
  obtain ⟨w, hw⟩ := closeWait_found h
  obtain ⟨⟨hopen, -⟩, rfl⟩ := (closeWait_eq_ok hw).1 h
  obtain ⟨before, after, hold, hnew⟩ := setWait_waits hunique (wait?_mem hw).1
    (show ({ w with resolution := some res } : Wait).waitId = w.waitId from rfl)
  refine ⟨w, before.filter Wait.isPending, after.filter Wait.isPending, (wait?_mem hw).2, ?_, ?_⟩
  · rw [openWaits, hold]
    simp [Wait.isPending, hopen]
  · rw [openWaits, hnew]
    simp [Wait.isPending]

/-! ## Sequences of statements -/

/-- What one statement on the run, or a write of its job's own rows, makes of it. -/
inductive Statement : Run → Run → Prop where
  | stepStatus {before after runStepId status nowUs}
      (h : before.recordStepStatus runStepId status nowUs = .ok after) : Statement before after
  | attempt {before after runStepId nowUs} (h : before.startAttempt runStepId nowUs = .ok after) :
      Statement before after
  | outcome {before after runStepId number status nowUs}
      (h : before.finishAttempt runStepId number status nowUs = .ok after) : Statement before after
  | wait {before after w} (hnew : ∀ x ∈ before.waits, x.waitId ≠ w.waitId)
      (hpending : w.resolution = none) (h : before.openWait w = .ok after) : Statement before after
  | resolution {before after waitId res} (h : before.closeWait waitId res = .ok after) :
      Statement before after
  | event {before after e} (h : before.appendRunEvent e = .ok after) : Statement before after
  | job {before} (job : DurableJob) : Statement before { before with job }

def Statements : Run → Run → Prop := Relation.ReflTransGen Statement

theorem Statement.single (h : Statement r r') : Statements r r' := Relation.ReflTransGen.single h

theorem Statements.refl (r : Run) : Statements r r := Relation.ReflTransGen.refl

theorem Statements.trans {r'' : Run} (h : Statements r r') (h' : Statements r' r'') :
    Statements r r'' :=
  Relation.ReflTransGen.trans h h'

/-- A run whose rows have keys of their own, and whose stream no event but the last ends. -/
structure Keyed (r : Run) : Prop where
  steps : Unique RunStep.runStepId r.steps
  waits : Unique Wait.waitId r.waits
  opened : r.events ≠ []
  final : ∀ e ∈ r.events.dropLast, e.runStatus.terminal = false

/-- What a statement leaves of the keys and of the stream. -/
structure Grows (r r' : Run) : Prop where
  runId : r'.runId = r.runId
  created : r'.createdAtUs = r.createdAtUs
  stepIds : r'.steps.map RunStep.runStepId = r.steps.map RunStep.runStepId
  events : r.events <+: r'.events

theorem setStep_grows : Grows r (r.setStep st) :=
  ⟨rfl, rfl, map_updateKey rfl, List.prefix_rfl⟩

theorem Statement.grows (h : Statement r r') : Grows r r' := by
  cases h with
  | stepStatus h =>
    obtain ⟨st, hst⟩ := recordStepStatus_found h
    obtain ⟨-, rfl⟩ := (recordStepStatus_eq_ok hst).1 h
    exact setStep_grows
  | attempt h =>
    obtain ⟨st, hst⟩ := startAttempt_found h
    obtain ⟨-, rfl⟩ := (startAttempt_eq_ok hst).1 h
    exact setStep_grows
  | outcome h =>
    obtain ⟨st, hst⟩ := finishAttempt_found h
    obtain ⟨a, -, -, rfl⟩ := (finishAttempt_eq_ok hst).1 h
    exact setStep_grows
  | wait hnew hpending h =>
    obtain ⟨-, -, rfl⟩ := openWait_eq_ok h
    exact ⟨rfl, rfl, rfl, List.prefix_rfl⟩
  | resolution h =>
    obtain ⟨w, hw⟩ := closeWait_found h
    obtain ⟨-, rfl⟩ := (closeWait_eq_ok hw).1 h
    exact ⟨rfl, rfl, rfl, List.prefix_rfl⟩
  | event h =>
    obtain ⟨-, rfl⟩ := appendRunEvent_eq_ok.1 h
    exact ⟨rfl, rfl, rfl, List.prefix_append ..⟩
  | job job => exact ⟨rfl, rfl, rfl, List.prefix_rfl⟩

theorem Statements.grows (h : Statements r r') : Grows r r' := by
  induction h with
  | refl => exact ⟨rfl, rfl, rfl, List.prefix_rfl⟩
  | tail _ hstep ih =>
    have hnext := hstep.grows
    exact ⟨hnext.runId.trans ih.runId, hnext.created.trans ih.created, hnext.stepIds.trans ih.stepIds,
      ih.events.trans hnext.events⟩

theorem Statement.keyed (h : Statement r r') (hr : r.Keyed) : r'.Keyed := by
  have hgrows := h.grows
  have hsteps : Unique RunStep.runStepId r'.steps := by
    unfold Lib.Unique
    rw [hgrows.stepIds]
    exact hr.steps
  have hopened : r'.events ≠ [] := fun hnil =>
    hr.opened (List.prefix_nil.1 (hnil ▸ hgrows.events))
  cases h with
  | stepStatus h =>
    obtain ⟨st, hst⟩ := recordStepStatus_found h
    obtain ⟨-, rfl⟩ := (recordStepStatus_eq_ok hst).1 h
    exact ⟨hsteps, hr.waits, hopened, hr.final⟩
  | attempt h =>
    obtain ⟨st, hst⟩ := startAttempt_found h
    obtain ⟨-, rfl⟩ := (startAttempt_eq_ok hst).1 h
    exact ⟨hsteps, hr.waits, hopened, hr.final⟩
  | outcome h =>
    obtain ⟨st, hst⟩ := finishAttempt_found h
    obtain ⟨a, -, -, rfl⟩ := (finishAttempt_eq_ok hst).1 h
    exact ⟨hsteps, hr.waits, hopened, hr.final⟩
  | wait hnew hpending h =>
    obtain ⟨-, -, rfl⟩ := openWait_eq_ok h
    exact ⟨hsteps, hr.waits.concat hnew, hopened, hr.final⟩
  | resolution h =>
    obtain ⟨w, hw⟩ := closeWait_found h
    obtain ⟨-, rfl⟩ := (closeWait_eq_ok hw).1 h
    exact ⟨hsteps, setWait_unique hr.waits, hopened, hr.final⟩
  | event h =>
    obtain ⟨⟨-, -, -, -, hlive, -⟩, rfl⟩ := appendRunEvent_eq_ok.1 h
    refine ⟨hsteps, hr.waits, hopened, ?_⟩
    simpa [Run.hasTerminalEvent] using hlive
  | job job => exact ⟨hsteps, hr.waits, hopened, hr.final⟩

theorem Statements.keyed (h : Statements r r') (hr : r.Keyed) : r'.Keyed := by
  induction h with
  | refl => exact hr
  | tail _ hstep ih => exact hstep.keyed ih

/-- The last event of a stream, and what stands before it. -/
theorem Keyed.last (h : r.Keyed) : ∃ init last, r.events = init ++ [last] ∧
    r.status = some last.runStatus ∧ ∀ e ∈ init, e.runStatus.terminal = false := by
  rcases List.eq_nil_or_concat' r.events with hnil | ⟨init, last, hevents⟩
  · exact absurd hnil h.opened
  · have hfinal := h.final
    rw [hevents, List.dropLast_concat] at hfinal
    exact ⟨init, last, hevents, by simp [status, hevents], hfinal⟩

theorem Keyed.hasTerminalEvent (h : r.Keyed) : r.hasTerminalEvent = r.terminal := by
  obtain ⟨init, last, hevents, hstatus, hfinal⟩ := h.last
  have hnone : init.any (·.runStatus.terminal) = false := by simpa using hfinal
  rw [Run.hasTerminalEvent, terminal, hstatus, hevents]
  simp [hnone]

/-- The stream of a run that has ended stays as it is. -/
theorem Keyed.events_eq (h : r.Keyed) (h' : r'.Keyed) (hgrows : r.events <+: r'.events)
    (hterminal : r.terminal = true) : r'.events = r.events := by
  obtain ⟨init, last, hevents, hstatus, -⟩ := h.last
  obtain ⟨more, hmore⟩ := hgrows
  rcases List.eq_nil_or_concat' more with rfl | ⟨more, e, rfl⟩
  · simpa using hmore.symm
  · have hlast : last.runStatus.terminal = true := by simpa [terminal, hstatus] using hterminal
    have hmem : last ∈ r'.events.dropLast := by
      rw [← hmore, ← List.append_assoc, List.dropLast_concat, hevents]
      simp
    rw [h'.final last hmem] at hlast
    cases hlast

/-- A wait that is resolved stays as it was resolved. -/
theorem Statement.resolved (h : Statement r r') (hr : r.Keyed) {w : Wait} (hw : w ∈ r.waits)
    (hres : w.resolution ≠ none) : w ∈ r'.waits := by
  cases h with
  | stepStatus h =>
    obtain ⟨st, hst⟩ := recordStepStatus_found h
    obtain ⟨-, rfl⟩ := (recordStepStatus_eq_ok hst).1 h
    exact hw
  | attempt h =>
    obtain ⟨st, hst⟩ := startAttempt_found h
    obtain ⟨-, rfl⟩ := (startAttempt_eq_ok hst).1 h
    exact hw
  | outcome h =>
    obtain ⟨st, hst⟩ := finishAttempt_found h
    obtain ⟨a, -, -, rfl⟩ := (finishAttempt_eq_ok hst).1 h
    exact hw
  | wait hnew hpending h =>
    obtain ⟨-, -, rfl⟩ := openWait_eq_ok h
    exact List.mem_append_left _ hw
  | @resolution _ _ res h =>
    obtain ⟨v, hv⟩ := closeWait_found h
    obtain ⟨⟨hopen, -⟩, rfl⟩ := (closeWait_eq_ok hv).1 h
    obtain ⟨before, after, hold, hnew⟩ := setWait_waits hr.waits (wait?_mem hv).1
      (show ({ v with resolution := some res } : Wait).waitId = v.waitId from rfl)
    have hne : w ≠ v := fun heq => hres (heq ▸ hopen)
    rw [hnew]
    rw [hold] at hw
    rcases List.mem_append.1 hw with hw | hw
    · exact List.mem_append_left _ hw
    · exact List.mem_append_right _ (List.mem_cons_of_mem _ ((List.mem_cons.1 hw).resolve_left hne))
  | event h =>
    obtain ⟨-, rfl⟩ := appendRunEvent_eq_ok.1 h
    exact hw
  | job job => exact hw

theorem Statements.resolved (h : Statements r r') (hr : r.Keyed) {w : Wait} (hw : w ∈ r.waits)
    (hres : w.resolution ≠ none) : w ∈ r'.waits := by
  induction h with
  | refl => exact hw
  | tail hsteps hstep ih => exact hstep.resolved (Statements.keyed hsteps hr) ih hres

end Run

end OmniviaCore.Runtime
