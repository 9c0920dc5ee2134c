import OmniviaCore.Jobs.SnapshotValid

/-!
# The log of a job

What the relations of every job say of its history in every store a run reaches: the events are one
gapless log of legal steps that ends at the state a reading shows, the attempts are numbered from 1
and follow one another, and each ended attempt is observed once.
-/

namespace OmniviaCore.Jobs

open Lib

/-- The authority that observes the end of an attempt, given the job its writer found: the claimant,
under the generation of its claim; the claimant of an attempt the same call opened, which
acknowledges the cancellation of a queued job; or a recovery, of a claim of a smaller generation. -/
inductive ObservedBy (authority : Authority) (op : JobOp) (j : Job) (o : ObservationRow) : Prop where
  | claimant (hclaimed : j.state = .claimed)
      (hholder : j.claimedBy = some authority.serviceInstanceId)
      (hgeneration : j.fencingGeneration = authority.fencingGeneration)
      (hattempt : o.attemptNumber = some j.attempts.length)
  | acknowledging (sawQueued : Bool) (startedAtUs nowUs : Nat) (reason : String)
      (hop : op = .acknowledgeCancellation sawQueued startedAtUs nowUs reason)
      (hqueued : j.state = .queued) (hattempt : o.attemptNumber = some (j.attempts.length + 1))
  | recovery (nowUs : Nat) (hop : op = .recover nowUs) (hclaimed : j.state = .claimed)
      (hstale : j.fencingGeneration < authority.fencingGeneration)
      (hattempt : o.attemptNumber = some j.attempts.length)

/-- A writer appends at most one observation, under its own generation and as `ObservedBy` says. -/
theorem JobOp.apply_observations {op : JobOp} {authority : Authority} {j j' : Job} (hv : j.Valid)
    (h : op.apply authority j = .ok j') :
    j'.observations = j.observations ∨
    ∃ o, j'.observations = j.observations ++ [o] ∧
      o.fencingGeneration = authority.fencingGeneration ∧ ObservedBy authority op j o := by
  cases op with
  | claim nowUs =>
    obtain ⟨-, -, -, rfl⟩ := Job.claim_ok hv h
    exact .inl rfl
  | terminalize outcome nowUs =>
    obtain ⟨hclaimed, hholder, hgeneration, -, document, -, -, rfl⟩ := Job.terminalize_ok hv h
    exact .inr ⟨_, rfl, rfl, .claimant hclaimed hholder hgeneration rfl⟩
  | requestCancellation settledAtUs =>
    obtain ⟨-, -, -, rfl⟩ | ⟨-, rfl⟩ := Job.requestCancellation_ok hv h <;> exact .inl rfl
  | requestRetry settledAtUs =>
    obtain ⟨-, -, rfl⟩ | ⟨-, -, rfl⟩ | ⟨-, -, -, rfl⟩ := Job.requestRetry_ok hv h <;> exact .inl rfl
  | acknowledgeCancellation sawQueued startedAtUs nowUs reason =>
    obtain ⟨started, hqueued, hbudget, hnow, rfl, h⟩ | h := Job.acknowledgeCancellation_ok hv h
    · obtain ⟨-, -, -, -, document, -, -, rfl⟩ :=
        Job.terminalize_ok (hv.started hqueued hbudget hnow) h
      refine .inr ⟨_, rfl, rfl, .acknowledging sawQueued startedAtUs nowUs reason rfl hqueued ?_⟩
      simp [Job.started]
    · obtain ⟨hclaimed, hholder, hgeneration, -, document, -, -, rfl⟩ := Job.terminalize_ok hv h
      exact .inr ⟨_, rfl, rfl, .claimant hclaimed hholder hgeneration rfl⟩
  | adoptStaleClaim nowUs =>
    obtain ⟨-, -, rfl⟩ := Job.adoptStaleClaim_ok h
    exact .inl rfl
  | recover nowUs =>
    obtain ⟨hclaimed, hstale, -, ⟨-, rfl⟩ | ⟨-, rfl⟩⟩ := Job.recover_ok hv h <;>
      exact .inr ⟨_, rfl, rfl, .recovery nowUs rfl hclaimed hstale rfl⟩
  | insertCheckpoint attemptNumber createdAtUs =>
    obtain ⟨row, rfl⟩ := Job.insertCheckpoint_ok h
    exact .inl rfl

theorem Job.Change.events_prefix {authority : Authority} {j j' : Job}
    (h : Job.Change authority j j') : j.events <+: j'.events := by
  cases h with
  | started | ended | requeued | told => exact ⟨_, rfl⟩
  | noted | checkpointed => exact List.prefix_refl _

theorem JobOp.apply_events {op : JobOp} {authority : Authority} {j j' : Job} (hv : j.Valid)
    (h : op.apply authority j = .ok j') : j.events <+: j'.events := by
  obtain ⟨-, -, -, rfl⟩ | hchanges := JobOp.apply_cases hv h
  · exact List.prefix_refl _
  · exact (hchanges.invariant (P := fun k => j.events <+: k.events)
      (fun _ hk hchange => hk.trans hchange.events_prefix) hv (List.prefix_refl _)).2

namespace Job

variable {j : Job}

theorem Valid.event_sequence (hv : j.Valid) {i : Nat} {e : EventRow} (he : j.events[i]? = some e) :
    e.sequence = i := by
  rw [hv.events.numbered i e he, Nat.zero_add]

/-- Adjacent events are a legal step, a recovery being accepted at the instant of the later one. -/
theorem Valid.event_step (hv : j.Valid) {i : Nat} {e e' : EventRow} (he : j.events[i]? = some e)
    (he' : j.events[i + 1]? = some e') : LegalStep j.controls e e' := by
  obtain ⟨hlt, rfl⟩ := List.getElem?_eq_some_iff.1 he'
  obtain ⟨_, rfl⟩ := List.getElem?_eq_some_iff.1 he
  exact List.isChain_iff_getElem.1 hv.events.legal i hlt

theorem Valid.event_last (hv : j.Valid) :
    j.events.getLast?.map EventRow.state = some j.handle.state := by
  obtain ⟨init, last, hevents, hlast⟩ := hv.events.last
  rw [hevents, List.getLast?_concat, Option.map_some, hlast]
  rfl

theorem Valid.attempt_number (hv : j.Valid) {i : Nat} {a : AttemptRow}
    (ha : j.attempts[i]? = some a) : a.attemptNumber = i + 1 := by
  rw [hv.attempts.numbered i a ha, Nat.add_comm]

theorem Valid.attempt_follows (hv : j.Valid) {i : Nat} {a b : AttemptRow}
    (ha : j.attempts[i]? = some a) (hb : j.attempts[i + 1]? = some b) :
    ∃ f, a.finishedAtUs = some f ∧ f ≤ b.startedAtUs := by
  obtain ⟨hlt, rfl⟩ := List.getElem?_eq_some_iff.1 hb
  obtain ⟨_, rfl⟩ := List.getElem?_eq_some_iff.1 ha
  exact (List.pairwise_iff_getElem.1 hv.attempts.pairwise i (i + 1) _ hlt (Nat.lt_succ_self i)).2

theorem Valid.observations_nodup (hv : j.Valid) :
    (j.observations.map ObservationRow.attemptNumber).Nodup := by
  have hmap : j.observations.map ObservationRow.attemptNumber =
      j.endedAttempts.map fun a => some a.attemptNumber := by
    have := congrArg (List.map AttemptEnding.attemptNumber) hv.observations_ending
    rw [List.map_map, List.map_map] at this
    exact this
  rw [hmap]
  refine List.Pairwise.map _ ?_ (hv.attempts.numbered.pairwise.sublist List.filter_sublist)
  intro a b hlt heq
  have := Option.some.inj heq
  omega

end Job

/-! ## The store -/

/-- In every store a run reaches, and for every job of it: the events are numbered from 0, in order
and with times that do not decrease, each pair of neighbours is a legal transition, and the last has
the state a reading shows; the attempts are numbered from 1 up to at most the budget, each ended
before the next starts; no attempt has two terminal observations; and the next step only appends to
the log, and appends at most one observation, which the holder of the workspace wrote as
`ObservedBy` says. -/
theorem job_event_log_integrity (s : Store) (hs : s.Reachable) (jobId : JobId) (j : Job)
    (hj : s.find jobId = some j) :
    (∀ (i : Nat) (e : EventRow), j.events[i]? = some e → e.sequence = i) ∧
    j.events.Pairwise (fun e e' => e.occurredAtUs ≤ e'.occurredAtUs) ∧
    (∀ (i : Nat) (e e' : EventRow), j.events[i]? = some e → j.events[i + 1]? = some e' →
      validateJobStateTransition e.state e'.state (j.controls.any fun c =>
        c.recovers && decide (c.settledAtUs = e'.occurredAtUs)) = .ok ()) ∧
    j.events.getLast?.map EventRow.state = some j.snapshot.job.state ∧
    (∀ (i : Nat) (a : AttemptRow), j.attempts[i]? = some a → a.attemptNumber = i + 1) ∧
    j.attempts.length ≤ j.metadata.maxAttempts ∧
    (∀ (i : Nat) (a b : AttemptRow), j.attempts[i]? = some a → j.attempts[i + 1]? = some b →
      ∃ f, a.finishedAtUs = some f ∧ f ≤ b.startedAtUs) ∧
    (j.observations.map ObservationRow.attemptNumber).Nodup ∧
    ∀ (label : Label) (j' : Job), (s.step label).find jobId = some j' →
      j.events <+: j'.events ∧
      (j'.observations = j.observations ∨
        ∃ op o, s.Asks label jobId op ∧ j'.observations = j.observations ++ [o] ∧
          o.fencingGeneration = s.holder.fencingGeneration ∧ ObservedBy s.holder op j o) := by
  have hv := hs.find_valid hj
  refine ⟨fun _ _ he => hv.event_sequence he, hv.events.pairwise,
    fun _ _ _ he he' => hv.event_step he he', hv.event_last, fun _ _ ha => hv.attempt_number ha,
    hv.attempts_le, fun _ _ _ ha hb => hv.attempt_follows ha hb, hv.observations_nodup, ?_⟩
  intro label j' hj'
  cases Store.step_find hs.valid label jobId with
  | absent h _ => cases hj.symm.trans h
  | created _ _ _ h _ => cases hj.symm.trans h
  | untouched k h h' =>
    obtain rfl := Option.some.inj (hj.symm.trans h)
    obtain rfl := Option.some.inj (hj'.symm.trans h')
    exact ⟨List.prefix_refl _, .inl rfl⟩
  | written op k k' h h' hasks happly =>
    obtain rfl := Option.some.inj (hj.symm.trans h)
    obtain rfl := Option.some.inj (hj'.symm.trans h')
    refine ⟨JobOp.apply_events hv happly, ?_⟩
    obtain hsame | ⟨o, hobservations, hgeneration, hby⟩ := JobOp.apply_observations hv happly
    · exact .inl hsame
    · exact .inr ⟨op, o, hasks, hobservations, hgeneration, hby⟩

/-- The log of an import just started, and of its failure. -/
theorem job_event_log_integrity_import :
    (Job.imported importWorkspaceId firstService importSource importJobId importAuditRef
      1000000).events.getLast?.map EventRow.state = some .running ∧
    ∀ j', ((run Store.step importWorkspace [importStart]).step
        (onImport firstService (.terminalize (.failed recoveryError) 2000000))).find importJobId =
          some j' →
      (Job.imported importWorkspaceId firstService importSource importJobId importAuditRef
        1000000).events <+: j'.events := by
  obtain ⟨-, -, -, hlast, -, -, -, -, hstep⟩ := job_event_log_integrity
    (run Store.step importWorkspace [importStart])
    ⟨importWorkspaceId, firstService, [importSource], [importStart], rfl⟩ importJobId
    (Job.imported importWorkspaceId firstService importSource importJobId importAuditRef 1000000)
    (by rfl)
  exact ⟨hlast, fun j' hj' => (hstep _ j' hj').1⟩

end OmniviaCore.Jobs
