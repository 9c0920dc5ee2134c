import OmniviaCore.Jobs.Effects

/-!
# A writer is a path of changes

`Change` is one elementary change of a job with its guard, and `Changes` a sequence of them. Every
writer that goes through on a valid job is such a sequence, adoption of a stale claim excepted,
which moves the claim and nothing else (`JobOp.apply_cases`).
-/

namespace OmniviaCore.Jobs

open Lib

namespace Job

/-- One elementary change, made under an authority. -/
inductive Change (authority : Authority) (j : Job) : Job → Prop where
  | started (nowUs : Nat) (message : String) (hqueued : j.state = .queued)
      (hbudget : j.attempts.length < j.metadata.maxAttempts) (hnow : j.horizonUs ≤ nowUs) :
      Change authority j (j.started authority nowUs message)
  | ended (nowUs updatedAtUs : Nat) (document : TerminalDocument) (message : String)
      (hclaimed : j.state = .claimed) (hnow : j.horizonUs ≤ nowUs) (hupdated : updatedAtUs ≤ nowUs)
      (hfits : document.Fits j) : Change authority j (j.ended authority nowUs updatedAtUs document message)
  | requeued (c : ControlRow) (message : String) (hstate : j.state = .failed ∨ j.state = .cancelled)
      (hrecovers : c.recovers = true) (hnow : j.horizonUs ≤ c.settledAtUs) :
      Change authority j (j.requeued authority c (milliseconds c.settledAtUs) message)
  | noted (c : ControlRow) (hrecovers : c.recovers = false) : Change authority j (j.noted c)
  | told (nowUs : Nat) (message : String) (hnow : j.horizonUs ≤ nowUs) :
      Change authority j (j.told nowUs j.publicState message)
  | checkpointed (row : CheckpointRow) :
      Change authority j { j with checkpoints := j.checkpoints ++ [row] }

abbrev Changes (authority : Authority) : Job → Job → Prop :=
  Relation.ReflTransGen (Change authority)

variable {j j' : Job} {authority : Authority} {nowUs : Nat}

theorem Change.valid (hv : j.Valid) (h : Change authority j j') : j'.Valid := by
  cases h with
  | started nowUs message hqueued hbudget hnow => exact hv.started hqueued hbudget hnow
  | ended nowUs updatedAtUs document message hclaimed hnow hupdated hfits =>
    exact hv.ended hclaimed hnow hupdated hfits
  | requeued c message hstate hrecovers hnow =>
    exact hv.requeued hstate hrecovers hnow (milliseconds_le _)
  | noted c _ => exact hv.noted c
  | told nowUs message hnow => exact hv.told hnow
  | checkpointed row => exact { hv with }

/-- What every change of a valid job keeps, every sequence keeps. -/
theorem Changes.invariant {P : Job → Prop}
    (hchange : ∀ {k k' : Job}, k.Valid → P k → Change authority k k' → P k')
    (h : Changes authority j j') (hv : j.Valid) (hj : P j) : j'.Valid ∧ P j' := by
  induction h with
  | refl => exact ⟨hv, hj⟩
  | tail _ hstep ih => exact ⟨hstep.valid ih.1, hchange ih.1 ih.2 hstep⟩

theorem Changes.valid (h : Changes authority j j') (hv : j.Valid) : j'.Valid :=
  (h.invariant (P := fun _ => True) (fun _ _ _ => trivial) hv trivial).1

/-! ## The writers as sequences -/

theorem cancelControl_recovers : (j.cancelControl authority nowUs).recovers = false := rfl

theorem refusalControl_recovers : (j.refusalControl authority nowUs).recovers = false := rfl

theorem recoveryDisposition_cases : j.recoveryDisposition = .notRetryable ∨
    (j.recoveryDisposition.recovers = true ∧ (j.state = .failed ∨ j.state = .cancelled)) := by
  have hpublic : ∀ {state : SchedulerState}, (state.publicState = .failed → state = .failed) ∧
      (state.publicState = .cancelled → state = .cancelled) := by
    intro state
    cases state <;> decide
  unfold recoveryDisposition
  split
  next h => exact .inr ⟨rfl, .inl (hpublic.1 h.1)⟩
  next =>
    split
    next h => exact .inr ⟨rfl, .inr (hpublic.2 h.1)⟩
    next => exact .inl rfl

theorem terminalize_changes (hv : j.Valid) {outcome : Outcome}
    (h : j.terminalize authority nowUs outcome = .ok j') : Changes authority j j' := by
  obtain ⟨hclaimed, -, -, hnow, document, -, hfits, rfl⟩ := terminalize_ok hv h
  exact .single (.ended _ _ _ _ hclaimed hnow le_rfl hfits)

theorem requestRetry_changes (hv : j.Valid) (h : j.requestRetry authority nowUs = .ok j') :
    Changes authority j j' := by
  obtain ⟨haccepted, hnow, rfl⟩ | ⟨-, -, rfl⟩ | ⟨-, hqueued, hnow, rfl⟩ := requestRetry_ok hv h
  · obtain hrefused | ⟨hrecovers, hstate⟩ := recoveryDisposition_cases (j := j)
    · exact absurd hrefused haccepted
    · exact .single (.requeued (j.retryControl authority nowUs) _ hstate
        (by simp [ControlRow.recovers, ControlRow.schedulesRecovery, retryControl, hrecovers]) hnow)
  · exact .single (.noted _ refusalControl_recovers)
  · rw [← hqueued]
    exact (Relation.ReflTransGen.single (.noted (j.refusalControl authority nowUs)
      refusalControl_recovers)).tail (.told _ _ hnow)

theorem recover_changes (hv : j.Valid) (h : j.recover authority nowUs = .ok j') :
    Changes authority j j' := by
  obtain ⟨hclaimed, -, hnow, ⟨-, rfl⟩ | ⟨-, rfl⟩⟩ := recover_ok hv h
  · refine (Relation.ReflTransGen.single (.ended nowUs _ (.failure recoveryError)
      "interrupted attempt failed" hclaimed hnow (milliseconds_le _) trivial)).tail ?_
    exact .requeued (recoveryControl authority nowUs) _ (.inl rfl) rfl
      (horizonUs_concat (e := ⟨_, nowUs, .failed, _⟩) hnow rfl).le
  · exact .single (.ended nowUs _ (.failure recoveryError) _ hclaimed hnow (milliseconds_le _) trivial)

end Job

/-- A writer that goes through on a valid job either adopts its stale claim or is a sequence of
changes. -/
theorem JobOp.apply_cases {op : JobOp} {authority : Authority} {j j' : Job} (hv : j.Valid)
    (h : op.apply authority j = .ok j') :
    (∃ nowUs, op = .adoptStaleClaim nowUs ∧ j.state = .claimed ∧
      j' = { j with
        updatedAtUs := milliseconds nowUs
        claimedBy := some authority.serviceInstanceId
        fencingGeneration := authority.fencingGeneration }) ∨
    Job.Changes authority j j' := by
  cases op with
  | claim nowUs =>
    obtain ⟨hqueued, hbudget, hnow, rfl⟩ := Job.claim_ok hv h
    exact .inr (.single (.started _ _ hqueued hbudget hnow))
  | terminalize outcome nowUs => exact .inr (Job.terminalize_changes hv h)
  | requestCancellation settledAtUs =>
    refine .inr ?_
    obtain ⟨-, -, hnow, rfl⟩ | ⟨-, rfl⟩ := Job.requestCancellation_ok hv h
    · exact (Relation.ReflTransGen.single (.noted _ Job.cancelControl_recovers)).tail
        (.told _ _ hnow)
    · exact .single (.noted _ Job.cancelControl_recovers)
  | requestRetry settledAtUs => exact .inr (Job.requestRetry_changes hv h)
  | acknowledgeCancellation sawQueued startedAtUs nowUs reason =>
    refine .inr ?_
    obtain ⟨started, hqueued, hbudget, hnow, rfl, h⟩ | h := Job.acknowledgeCancellation_ok hv h
    · exact .head (.started _ _ hqueued hbudget hnow)
        (Job.terminalize_changes (hv.started hqueued hbudget hnow) h)
    · exact Job.terminalize_changes hv h
  | adoptStaleClaim nowUs =>
    obtain ⟨hclaimed, -, rfl⟩ := Job.adoptStaleClaim_ok h
    exact .inl ⟨nowUs, rfl, hclaimed, rfl⟩
  | recover nowUs => exact .inr (Job.recover_changes hv h)
  | insertCheckpoint attemptNumber createdAtUs =>
    obtain ⟨row, rfl⟩ := Job.insertCheckpoint_ok h
    exact .inr (.single (.checkpointed row))

theorem JobOp.apply_valid {op : JobOp} {authority : Authority} {j j' : Job} (hv : j.Valid)
    (h : op.apply authority j = .ok j') : j'.Valid := by
  obtain ⟨nowUs, -, hclaimed, rfl⟩ | hchanges := JobOp.apply_cases hv h
  · exact { hv with updated_le := fun hstate => absurd hclaimed hstate }
  · exact hchanges.valid hv

end OmniviaCore.Jobs
