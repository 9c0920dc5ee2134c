import OmniviaCore.Jobs.Progression

/-!
# Controls that nothing reads

A refused control leaves a row behind. Every trigger and every writer selects controls by what they
accepted, or, for the lineage of a later attempt, by their resulting in `queued`; a control that does
neither is not `live`, and two jobs that differ in such controls alone are `Alike`. Each writer acts
alike on the two (`JobOp.apply_alike`).
-/

namespace OmniviaCore.Jobs

open Lib

def ControlRow.live (c : ControlRow) : Bool :=
  c.requestsCancellation || c.schedulesRecovery || c.requeueing || c.operation = .systemRecovery

/-- Two jobs that differ in controls that are not live, if at all. -/
structure Alike (j j' : Job) : Prop where
  rows : j' = { j with controls := j'.controls }
  live : j'.controls.filter ControlRow.live = j.controls.filter ControlRow.live

abbrev ActsAlike : Except JobError Job → Except JobError Job → Prop := Related Alike

/-! ## Selections of live controls -/

section Selections

variable {cs cs' : List ControlRow} {p : ControlRow → Bool}

theorem filter_live (hp : ∀ c : ControlRow, p c = true → c.live = true)
    (h : cs'.filter ControlRow.live = cs.filter ControlRow.live) : cs'.filter p = cs.filter p := by
  have hselect : ∀ l : List ControlRow, l.filter p = (l.filter ControlRow.live).filter p := by
    intro l
    rw [List.filter_filter]
    refine List.filter_congr fun c _ => ?_
    cases hc : p c with
    | false => rfl
    | true => rw [hp c hc]; rfl
  rw [hselect cs', h, ← hselect cs]

theorem any_live (hp : ∀ c : ControlRow, p c = true → c.live = true)
    (h : cs'.filter ControlRow.live = cs.filter ControlRow.live) : cs'.any p = cs.any p := by
  have hselect : ∀ l : List ControlRow, l.any p = (l.filter p).any p := by
    intro l
    rw [List.any_filter]
    simp only [Bool.and_self]
  rw [hselect cs', filter_live hp h, ← hselect cs]

theorem all_live (hp : ∀ c : ControlRow, p c = false → c.live = true)
    (h : cs'.filter ControlRow.live = cs.filter ControlRow.live) : cs'.all p = cs.all p := by
  rw [List.all_eq_not_any_not, List.all_eq_not_any_not]
  exact congrArg _ (any_live (fun c hc => hp c (by simpa using hc)) h)

end Selections

namespace Job

/-! ## The guards -/

section Guards

variable {j : Job} {cs : List ControlRow}
  (h : cs.filter ControlRow.live = j.controls.filter ControlRow.live)

include h

theorem hasRecoveryLineage_alike (attemptNumber : Nat) :
    { j with controls := cs }.hasRecoveryLineage attemptNumber =
      j.hasRecoveryLineage attemptNumber := by
  have hlast : { j with controls := cs }.lastRequeueingAtUs = j.lastRequeueingAtUs := by
    unfold lastRequeueingAtUs
    rw [filter_live (fun c hc => by simp [ControlRow.live, hc]) h]
  unfold hasRecoveryLineage
  rw [hlast]
  exact any_live (fun c hc => by simp_all [ControlRow.live]) h

theorem hasEventLineage_alike (e : EventRow) :
    { j with controls := cs }.hasEventLineage e = j.hasEventLineage e := by
  have hqueued : ∀ instant, { j with controls := cs }.isQueuedByControl instant =
      j.isQueuedByControl instant :=
    fun _ => any_live (fun c hc => by simp [ControlRow.live] at hc ⊢; tauto) h
  have hrequeued : ∀ instant, { j with controls := cs }.isRequeuedSince instant =
      j.isRequeuedSince instant :=
    fun _ => any_live (fun c hc => by simp_all [ControlRow.live]) h
  have hcancelled : { j with controls := cs }.isCancelledAt e = j.isCancelledAt e :=
    any_live (fun c hc => by simp_all [ControlRow.live]) h
  simp only [hasEventLineage, hqueued, hrequeued, hcancelled]
  rfl

theorem hasObservationLineage_alike (o : ObservationRow) :
    { j with controls := cs }.hasObservationLineage o = j.hasObservationLineage o :=
  any_live (fun c hc => by
    simp [ControlRow.live, ControlRow.requeues] at hc ⊢
    tauto) h

theorem hasCancellation_alike (o : ObservationRow) :
    { j with controls := cs }.hasCancellation o = j.hasCancellation o :=
  any_live (fun c hc => by simp_all [ControlRow.live]) h

theorem controlIsUnique_alike (c : ControlRow) :
    { j with controls := cs }.controlIsUnique c = j.controlIsUnique c :=
  all_live (fun p hp => by
    cases hschedules : p.schedulesRecovery with
    | true => simp [ControlRow.live, hschedules]
    | false => simp_all [ControlRow.live]) h

theorem control_alike : { j with controls := cs }.control = j.control := by
  have hpending : { j with controls := cs }.hasPendingCancellation = j.hasPendingCancellation :=
    any_live (fun c hc => by simp_all [ControlRow.live]) h
  simp only [control, cancellationAvailability, hpending]
  rfl

end Guards

/-! ## The statements -/

section Statements

variable {j j' : Job}

theorem insertAttempt_alike (h : Alike j j') (authority : Authority)
    (attemptNumber startedAtUs : Nat) :
    ActsAlike (j.insertAttempt authority attemptNumber startedAtUs)
      (j'.insertAttempt authority attemptNumber startedAtUs) := by
  obtain ⟨hrows, hlive⟩ := h
  rw [hrows]
  unfold insertAttempt
  refine .require Iff.rfl (.require Iff.rfl (.require Iff.rfl (.require Iff.rfl
    (.require ?_ (.require Iff.rfl (.ok ⟨rfl, hlive⟩))))))
  rw [hasRecoveryLineage_alike hlive]

theorem insertEvent_alike (h : Alike j j') (e : EventRow) :
    ActsAlike (j.insertEvent e) (j'.insertEvent e) := by
  obtain ⟨hrows, hlive⟩ := h
  rw [hrows]
  unfold insertEvent
  refine .require Iff.rfl (.require Iff.rfl (.require Iff.rfl
    (.require ?_ (.require Iff.rfl (.ok ⟨rfl, hlive⟩)))))
  rw [hasEventLineage_alike hlive]

theorem finishAttempt_alike (h : Alike j j') (state : JobState) (finishedAtUs : Nat)
    (error : Option ApiError) :
    ActsAlike (j.finishAttempt state finishedAtUs error)
      (j'.finishAttempt state finishedAtUs error) := by
  obtain ⟨hrows, hlive⟩ := h
  rw [hrows]
  have hlatest : { j with controls := j'.controls }.latestAttempt = j.latestAttempt := rfl
  unfold finishAttempt
  rw [hlatest]
  cases j.latestAttempt with
  | none => exact .ok ⟨rfl, hlive⟩
  | some a =>
    dsimp only
    split
    · exact .require Iff.rfl (.require Iff.rfl (.ok ⟨rfl, hlive⟩))
    · exact .ok ⟨rfl, hlive⟩

theorem insertObservation_alike (h : Alike j j') (o : ObservationRow) :
    ActsAlike (j.insertObservation o) (j'.insertObservation o) := by
  obtain ⟨hrows, hlive⟩ := h
  rw [hrows]
  unfold insertObservation
  refine .require Iff.rfl (.require Iff.rfl (.require Iff.rfl (.require Iff.rfl
    (.require ?_ (.require ?_ (.bind (R := fun _ _ => True) ?_ fun _ _ _ =>
      .require Iff.rfl (.require Iff.rfl (.ok ⟨rfl, hlive⟩))))))))
  · rw [hasObservationLineage_alike hlive]
  · rw [hasCancellation_alike hlive]
  · change Related _ (j.checkDocument o) (j.checkDocument o)
    cases j.checkDocument o with
    | ok _ => exact .ok trivial
    | error e => exact .error e

theorem insertControl_alike (h : Alike j j') (c : ControlRow) :
    ActsAlike (j.insertControl c) (j'.insertControl c) := by
  obtain ⟨hrows, hlive⟩ := h
  rw [hrows]
  unfold insertControl
  refine .require Iff.rfl (.require Iff.rfl (.require Iff.rfl
    (.require ?_ (.require Iff.rfl (.ok ⟨rfl, ?_⟩)))))
  · rw [controlIsUnique_alike hlive]
  · simp only [List.filter_append, hlive]

theorem insertCheckpoint_alike (h : Alike j j') (attemptNumber createdAtUs : Nat) :
    ActsAlike (j.insertCheckpoint attemptNumber createdAtUs)
      (j'.insertCheckpoint attemptNumber createdAtUs) := by
  obtain ⟨hrows, hlive⟩ := h
  rw [hrows]
  exact .require Iff.rfl (.require Iff.rfl (.require Iff.rfl (.ok ⟨rfl, hlive⟩)))

end Statements

/-! ## The writers -/

section Writers

variable {j j' : Job}

/-- Alike jobs, both changed in the relations other than their controls. -/
theorem alike_update (h : Alike j j') (f : Job → Job)
    (hf : ∀ (k : Job) (cs : List ControlRow), f { k with controls := cs } =
      { f k with controls := cs })
    (hcontrols : ∀ k : Job, (f k).controls = k.controls) : Alike (f j) (f j') := by
  obtain ⟨hrows, hlive⟩ := h
  refine ⟨?_, by rw [hcontrols, hcontrols, hlive]⟩
  rw [hrows, hf]

theorem openAttempt_alike (h : Alike j j') (authority : Authority) (nowUs : Nat)
    (message : String) :
    ActsAlike ((j.claimRow authority nowUs).openAttempt authority nowUs message)
      ((j'.claimRow authority nowUs).openAttempt authority nowUs message) := by
  have hclaimed : Alike (j.claimRow authority nowUs) (j'.claimRow authority nowUs) := by
    refine alike_update h (·.claimRow authority nowUs) (fun k cs => ?_) (fun k => ?_)
    all_goals
      unfold claimRow
      by_cases hqueued : k.state = .queued <;> simp [hqueued]
  unfold openAttempt
  rw [show (j'.claimRow authority nowUs).attempts = (j.claimRow authority nowUs).attempts by
    rw [hclaimed.rows]]
  refine (insertAttempt_alike hclaimed _ _ _).bind fun k k' hk => ?_
  rw [show k'.nextEvent nowUs .running message = k.nextEvent nowUs .running message by
    rw [hk.rows]; rfl]
  exact insertEvent_alike hk _

theorem claim_alike (h : Alike j j') (authority : Authority) (nowUs : Nat) :
    ActsAlike (j.claim authority nowUs) (j'.claim authority nowUs) :=
  .require (by rw [h.rows]) (openAttempt_alike h authority nowUs _)

theorem endAttempt_alike (h : Alike j j') (authority : Authority) (nowUs updatedAtUs : Nat)
    (document : TerminalDocument) (message : String) :
    ActsAlike (j.endAttempt authority nowUs updatedAtUs document message)
      (j'.endAttempt authority nowUs updatedAtUs document message) := by
  refine (finishAttempt_alike (alike_update h (fun k => { k with
    state := document.state.scheduled
    updatedAtUs := updatedAtUs
    claimedBy := none
    fencingGeneration := authority.fencingGeneration }) (fun _ _ => rfl) fun _ => rfl)
    _ _ _).bind fun k k' hk => ?_
  rw [show k'.nextEvent nowUs document.state message = k.nextEvent nowUs document.state message by
    rw [hk.rows]; rfl]
  refine (insertEvent_alike hk _).bind fun k k' hk => ?_
  rw [show k'.observations = k.observations by rw [hk.rows],
    show k'.attempts = k.attempts by rw [hk.rows]]
  exact insertObservation_alike hk _

theorem terminalize_alike (h : Alike j j') (authority : Authority) (nowUs : Nat)
    (outcome : Outcome) :
    ActsAlike (j.terminalize authority nowUs outcome) (j'.terminalize authority nowUs outcome) := by
  unfold terminalize
  refine .require (by rw [h.rows]) (.require (by rw [h.rows]) (.require (by rw [h.rows]) ?_))
  rw [show j'.documentOf outcome = j.documentOf outcome by rw [h.rows]; cases outcome <;> rfl]
  refine Related.bind (R := Eq) ?_ fun document _ hdocument => ?_
  · cases j.documentOf outcome with
    | ok document => exact .ok rfl
    | error e => exact .error e
  · subst hdocument
    exact endAttempt_alike h authority nowUs nowUs document _

/-- A job's handle shows nothing of the controls that are not live. -/
theorem handle_alike (h : Alike j j') : j'.handle = j.handle := by
  obtain ⟨hrows, hlive⟩ := h
  have hcontrol : j'.control = j.control := by
    rw [hrows]
    exact control_alike hlive
  unfold handle
  rw [hcontrol, hrows]
  rfl

theorem requestCancellation_alike (h : Alike j j') (authority : Authority) (settledAtUs : Nat) :
    ActsAlike (j.requestCancellation authority settledAtUs)
      (j'.requestCancellation authority settledAtUs) := by
  have hpublic : j'.publicState = j.publicState := congrArg JobHandle.state (handle_alike h)
  have hdisposition : j'.cancellationDisposition = j.cancellationDisposition := by
    have hcontrol : j'.control = j.control := congrArg JobHandle.control (handle_alike h)
    simp only [cancellationDisposition, hcontrol, hpublic]
  unfold requestCancellation
  rw [hdisposition, hpublic]
  refine (insertControl_alike h _).bind fun k k' hk => ?_
  split
  · rw [show k'.nextEvent settledAtUs j.publicState "job cancellation requested" =
      k.nextEvent settledAtUs j.publicState "job cancellation requested" by rw [hk.rows]; rfl]
    exact insertEvent_alike hk _
  · exact .ok hk

theorem insertRetryEvent_alike (h : Alike j j') (settledAtUs : Nat) (resultingState : JobState) :
    ActsAlike (j.insertRetryEvent settledAtUs resultingState)
      (j'.insertRetryEvent settledAtUs resultingState) := by
  unfold insertRetryEvent
  split
  · rw [show j'.nextEvent settledAtUs .queued "job recovery scheduled" =
      j.nextEvent settledAtUs .queued "job recovery scheduled" by rw [h.rows]; rfl]
    exact insertEvent_alike h _
  · exact .ok h

theorem requestRetry_alike (h : Alike j j') (authority : Authority) (settledAtUs : Nat) :
    ActsAlike (j.requestRetry authority settledAtUs) (j'.requestRetry authority settledAtUs) := by
  have hpublic : j'.publicState = j.publicState := congrArg JobHandle.state (handle_alike h)
  have hdisposition : j'.recoveryDisposition = j.recoveryDisposition := by
    have hcontrol : j'.control = j.control := congrArg JobHandle.control (handle_alike h)
    simp only [recoveryDisposition, hcontrol, hpublic]
  have hsource : maxOf ObservationRow.number j'.observations =
      maxOf ObservationRow.number j.observations := by rw [h.rows]
  unfold requestRetry
  rw [hdisposition, hpublic, hsource]
  split
  · refine (insertControl_alike (alike_update h (fun k => { k with
      state := .queued
      updatedAtUs := milliseconds settledAtUs
      claimedBy := none
      fencingGeneration := authority.fencingGeneration }) (fun _ _ => rfl) fun _ => rfl)
      _).bind fun k k' hk => ?_
    exact insertRetryEvent_alike hk _ _
  · exact (insertControl_alike h _).bind fun k k' hk => insertRetryEvent_alike hk _ _

theorem acknowledgeCancellation_alike (h : Alike j j') (authority : Authority) (sawQueued : Bool)
    (startedAtUs nowUs : Nat) (reason : String) :
    ActsAlike (j.acknowledgeCancellation authority sawQueued startedAtUs nowUs reason)
      (j'.acknowledgeCancellation authority sawQueued startedAtUs nowUs reason) := by
  unfold acknowledgeCancellation
  split
  · refine .require ?_ ((openAttempt_alike h _ _ _).bind fun k k' hk =>
      terminalize_alike hk _ _ _)
    rw [any_live (fun c hc => by simp_all [ControlRow.live]) h.live]
  · exact terminalize_alike h _ _ _

theorem adoptStaleClaim_alike (h : Alike j j') (authority : Authority) (nowUs : Nat) :
    ActsAlike (j.adoptStaleClaim authority nowUs) (j'.adoptStaleClaim authority nowUs) :=
  .require (by rw [h.rows]) (.ok (alike_update h (fun k => { k with
    updatedAtUs := milliseconds nowUs
    claimedBy := some authority.serviceInstanceId
    fencingGeneration := authority.fencingGeneration }) (fun _ _ => rfl) fun _ => rfl))

theorem recover_alike (h : Alike j j') (authority : Authority) (nowUs : Nat) :
    ActsAlike (j.recover authority nowUs) (j'.recover authority nowUs) := by
  unfold recover
  refine .require (by rw [h.rows]) ((endAttempt_alike h _ _ _ _ _).bind fun k k' hk => ?_)
  rw [show k'.attempts = k.attempts by rw [hk.rows],
    show k'.metadata = k.metadata by rw [hk.rows]]
  split
  · refine (insertControl_alike (alike_update hk (fun k => { k with state := .queued })
      (fun _ _ => rfl) fun _ => rfl) _).bind fun k k' hk => ?_
    rw [show k'.nextEvent nowUs .queued "interrupted job recovered" =
      k.nextEvent nowUs .queued "interrupted job recovered" by rw [hk.rows]; rfl]
    exact insertEvent_alike hk _
  · exact .ok hk

end Writers

end Job

theorem JobOp.apply_alike {j j' : Job} (h : Alike j j') (op : JobOp) (authority : Authority) :
    ActsAlike (op.apply authority j) (op.apply authority j') := by
  cases op with
  | claim nowUs => exact Job.claim_alike h authority nowUs
  | terminalize outcome nowUs => exact Job.terminalize_alike h authority nowUs outcome
  | requestCancellation settledAtUs => exact Job.requestCancellation_alike h authority settledAtUs
  | requestRetry settledAtUs => exact Job.requestRetry_alike h authority settledAtUs
  | acknowledgeCancellation sawQueued startedAtUs nowUs reason =>
    exact Job.acknowledgeCancellation_alike h authority sawQueued startedAtUs nowUs reason
  | adoptStaleClaim nowUs => exact Job.adoptStaleClaim_alike h authority nowUs
  | recover nowUs => exact Job.recover_alike h authority nowUs
  | insertCheckpoint attemptNumber createdAtUs =>
    exact Job.insertCheckpoint_alike h attemptNumber createdAtUs

/-! ## Sequences -/

def applyAll : List (Authority × JobOp) → Job → Except JobError Job
  | [], j => pure j
  | (authority, op) :: rest, j => do
    let j' ← op.apply authority j
    applyAll rest j'

/-- Whatever writers would go through on the first job, go through on the second. -/
def Harmless (j j' : Job) : Prop :=
  ∀ ops k, applyAll ops j = .ok k → ∃ k', applyAll ops j' = .ok k'

theorem Alike.harmless {j j' : Job} (h : Alike j j') : Harmless j j' := by
  have hall : ∀ ops, ∀ {j j' : Job}, Alike j j' → ActsAlike (applyAll ops j) (applyAll ops j') := by
    intro ops
    induction ops with
    | nil => exact fun h => .ok h
    | cons op ops ih => exact fun h => (JobOp.apply_alike h op.2 op.1).bind fun _ _ hk => ih hk
  intro ops k hk
  obtain ⟨k', hk', -⟩ := (hall ops h).exists_ok hk
  exact ⟨k', hk'⟩

/-- A row that is not live leaves a job as it was for every writer. -/
theorem alike_noted (j : Job) {c : ControlRow} (hc : c.live = false) : Alike j (j.noted c) :=
  ⟨rfl, by simp [Job.noted, List.filter_append, hc]⟩

end OmniviaCore.Jobs
