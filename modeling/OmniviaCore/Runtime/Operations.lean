import OmniviaCore.Runtime.Machine
import OmniviaCore.Runtime.Writes

/-!
# The operations as sequences of statements

Every operation that goes through made a sequence of statements (`…_statements`), so it keeps what each
statement keeps. `Store.Operated` says what a call did to a run it touched, and `Store.perform_cases`
that it touched runs in that way alone.
-/

namespace OmniviaCore.Runtime

open Lib
open Jobs (Authority)

variable {r r' : Run} {nowUs jobUs : Nat} {authority : Authority} {claim : RuntimeClaim}
  {stop : Except RuntimeError (Option RunStopRequest)}

namespace Run

/-! ## The scheduler -/

theorem openAttempt_statements {runStepId : String}
    (h : r.openAttempt authority stop runStepId nowUs = .ok (r', claim)) : Statements r r' := by
  simp only [openAttempt, bind_eq_ok, require_eq_ok, exists_unit, pure_eq_ok, Prod.mk.injEq] at h
  obtain ⟨pending, -, -, running, hrunning, started, hstarted, told, htold, rfl, -⟩ := h
  exact (Statement.single (.stepStatus hrunning)).trans
    ((Statement.single (.attempt hstarted)).trans (.single (.event htold)))

theorem claimNext_statements {runStepId : String}
    (h : r.claimNext authority stop runStepId nowUs = .ok (r', claim)) : Statements r r' := by
  simp only [claimNext, bind_eq_ok] at h
  obtain ⟨job, -, h⟩ := h
  exact (Statement.single (.job job)).trans (openAttempt_statements h)

theorem complete_statements {scheduler : RuntimeScheduler} {next : Option RuntimeClaim}
    (h : r.complete scheduler stop claim nowUs jobUs = .ok (r', next)) : Statements r r' := by
  simp only [complete, bind_eq_ok, exists_unit] at h
  obtain ⟨-, finished, hfinished, settled, hsettled, h⟩ := h
  have hprefix := (Statement.single (.outcome hfinished)).trans (.single (.stepStatus hsettled))
  split at h
  · split at h
    · cases h
    · simp only [bind_eq_ok, pure_eq_ok, Prod.exists, Prod.mk.injEq] at h
      obtain ⟨advanced, claimed, hadvanced, rfl, -⟩ := h
      exact hprefix.trans (openAttempt_statements hadvanced)
  · simp only [succeed, bind_eq_ok, pure_eq_ok, exists_unit, Prod.mk.injEq] at h
    obtain ⟨_, ⟨-, told, htold, job, -, rfl⟩, rfl, -⟩ := h
    exact hprefix.trans ((Statement.single (.event htold)).trans (.single (.job job)))

theorem fail_statements {retryable : Bool} {next : Option RuntimeClaim}
    (h : r.fail authority stop claim retryable nowUs jobUs = .ok (r', next)) : Statements r r' := by
  simp only [fail, bind_eq_ok, exists_unit] at h
  obtain ⟨-, finished, hfinished, h⟩ := h
  have hprefix := Statement.single (.outcome hfinished)
  split at h
  · simp only [bind_eq_ok, pure_eq_ok, Prod.exists, Prod.mk.injEq] at h
    obtain ⟨pending, hpending, retried, claimed, hretried, rfl, -⟩ := h
    exact hprefix.trans ((Statement.single (.stepStatus hpending)).trans
      (openAttempt_statements hretried))
  · simp only [failRun, bind_eq_ok, pure_eq_ok, Prod.mk.injEq] at h
    obtain ⟨failed, ⟨closed, hclosed, job, -, htold⟩, rfl, -⟩ := h
    exact hprefix.trans ((Statement.single (.stepStatus hclosed)).trans
      ((Statement.single (.job job)).trans (.single (.event htold))))

theorem recoverAttempt_statements {requeued : Bool}
    (h : r.recoverAttempt requeued nowUs = .ok r') : Statements r r' := by
  unfold recoverAttempt at h
  split at h
  · simp only [bind_eq_ok] at h
    obtain ⟨finished, hfinished, closed, hclosed, htold⟩ := h
    exact (Statement.single (.outcome hfinished)).trans
      ((Statement.single (.stepStatus hclosed)).trans (.single (.event htold)))
  · cases h

theorem recover_statements (h : r.recover authority nowUs = .ok r') : Statements r r' := by
  simp only [recover, bind_eq_ok, Prod.exists] at h
  obtain ⟨job, requeued, -, h⟩ := h
  exact (Statement.single (.job job)).trans (recoverAttempt_statements h)

theorem adoptOpenWait_statements (h : r.adoptOpenWait authority nowUs = .ok r') :
    Statements r r' := by
  simp only [adoptOpenWait, bind_eq_ok] at h
  obtain ⟨job, -, h⟩ := h
  split at h
  · cases h
  · exact (Statement.single (.job job)).trans (.single (.event h))

/-! ## Waits -/

theorem openRuntimeWait_statements {expected : Expectation} {w : Wait}
    (hnew : ∀ x ∈ r.waits, x.waitId ≠ w.waitId) (h : r.openRuntimeWait expected w = .ok r') :
    Statements r r' := by
  simp only [openRuntimeWait, suspend, bind_eq_ok, exists_unit, mapError_eq_ok] at h
  obtain ⟨-, -, -, opened, hopened, waiting, hwaiting, htold⟩ := h
  exact (Statement.single (.wait (w := { w with resolution := none }) hnew rfl hopened)).trans
    ((Statement.single (.stepStatus hwaiting)).trans (.single (.event htold)))

theorem resume_statements {w : Wait} {res : WaitResolution} (h : r.resume w res = .ok r') :
    Statements r r' := by
  simp only [resume, bind_eq_ok] at h
  obtain ⟨closed, hclosed, running, hrunning, htold⟩ := h
  exact (Statement.single (.resolution hclosed)).trans
    ((Statement.single (.stepStatus hrunning)).trans (.single (.event htold)))

theorem settleWait_statements {command : ResolveWait} {policy : ResolutionPolicy} {w : Wait}
    {answer : WaitAnswer} (h : r.settleWait command policy w nowUs = .ok (r', answer)) :
    Statements r r' := by
  unfold settleWait at h
  split at h
  · cases h
  · simp only [bind_eq_ok, exists_unit] at h
    obtain ⟨-, -, h⟩ := h
    split at h
    · simp only [bind_eq_ok, pure_eq_ok, Prod.mk.injEq] at h
      obtain ⟨_, -, rfl, -⟩ := h
      exact .refl r
    · simp only [settlePending, bind_eq_ok, exists_unit, mapError_eq_ok, pure_eq_ok,
        Prod.mk.injEq] at h
      obtain ⟨-, -, approval, -, -, resumed, hresumed, rfl, -⟩ := h
      exact resume_statements hresumed

/-! ## Cancellation -/

theorem closeWaits_statements {res : WaitResolution} {waits : List Wait}
    (h : closeWaits res waits r = .ok r') : Statements r r' := by
  induction waits generalizing r with
  | nil =>
    obtain rfl := pure_eq_ok.1 h
    exact .refl r
  | cons w waits ih =>
    simp only [closeWaits, bind_eq_ok] at h
    obtain ⟨closed, hclosed, h⟩ := h
    exact (Statement.single (.resolution hclosed)).trans (ih h)

theorem cancelAttempts_statements {attempts : List (String × Attempt)}
    (h : cancelAttempts nowUs attempts r = .ok r') : Statements r r' := by
  induction attempts generalizing r with
  | nil =>
    obtain rfl := pure_eq_ok.1 h
    exact .refl r
  | cons p attempts ih =>
    simp only [cancelAttempts, bind_eq_ok] at h
    obtain ⟨finished, hfinished, closed, hclosed, h⟩ := h
    exact (Statement.single (.outcome hfinished)).trans
      ((Statement.single (.stepStatus hclosed)).trans (ih h))

theorem releaseRunWork_statements {reason : String}
    (h : r.releaseRunWork reason nowUs = .ok r') : Statements r r' := by
  simp only [releaseRunWork, bind_eq_ok] at h
  obtain ⟨closed, hclosed, h⟩ := h
  exact (closeWaits_statements hclosed).trans (cancelAttempts_statements h)

end Run

/-! ## The stop ledger -/

section Stop

variable {l l' : StopLedger} {q : RunStopRequest} {auditRefs : List String}
  {occurredAtUs completedAtUs : Nat} {outcomeAuditRef : Option String} {settlement : RunStopOutcome}
  {found found' : Option Run}

namespace StopLedger

/-- A request is recorded once; the same request again changes nothing. -/
theorem recordStopIntent_cases (h : l.recordStopIntent found auditRefs q = .ok l') :
    (l.request? q.stopRequestId = some q ∧ l' = l) ∨
      (l.request? q.stopRequestId = none ∧ q.auditRef ∈ auditRefs ∧
        (∃ r, found = some r ∧ r.createdAtUs ≤ q.requestedAtUs) ∧
        l' = { l with requests := l.requests ++ [q] }) := by
  unfold recordStopIntent at h
  split at h
  next recorded hrecorded =>
    simp only [bind_eq_ok, require_eq_ok, exists_unit, pure_eq_ok] at h
    obtain ⟨rfl, rfl⟩ := h
    exact .inl ⟨hrecorded, rfl⟩
  next hnone =>
    split at h
    · cases h
    next r =>
      simp only [insertRequest, bind_eq_ok, require_eq_ok, exists_unit, pure_eq_ok] at h
      obtain ⟨-, -, hcreated, haudit, rfl⟩ := h
      exact .inr ⟨hnone, haudit, ⟨r, rfl, hcreated⟩, rfl⟩

theorem recordStopIntent_outcome? (h : l.recordStopIntent found auditRefs q = .ok l') (id : String) :
    l'.outcome? id = l.outcome? id := by
  obtain ⟨-, rfl⟩ | ⟨-, -, -, rfl⟩ := recordStopIntent_cases h
  · rfl
  · rfl

theorem insertOutcome_eq_ok {o : RunStopOutcome} (h : l.insertOutcome r auditRefs q o = .ok l') :
    l.outcome? o.stopRequestId = none ∧ l' = { l with outcomes := l.outcomes ++ [o] } := by
  simp only [insertOutcome, bind_eq_ok, require_eq_ok, exists_unit, pure_eq_ok] at h
  obtain ⟨hnone, -, -, -, -, rfl⟩ := h
  exact ⟨by simpa using hnone, rfl⟩

/-- A stop settles as ignored on a run that has ended, and otherwise ends the run. -/
theorem settleStop_cases
    (h : l.settleStop r auditRefs q occurredAtUs completedAtUs outcomeAuditRef =
      .ok (l', r', settlement)) :
    settlement.stopRequestId = q.stopRequestId ∧ l.outcome? q.stopRequestId = none ∧
      l' = { l with outcomes := l.outcomes ++ [settlement] } ∧
      ((r.terminal = true ∧ r' = r ∧ settlement.outcome = .ignoredAlreadyTerminal) ∨
        (r.terminal = false ∧ r.appendRunEvent ⟨occurredAtUs, .cancelled, none, none⟩ = .ok r' ∧
          settlement.outcome = .accepted r.events.length)) := by
  unfold settleStop at h
  split at h
  next hterminal =>
    simp only [bind_eq_ok, pure_eq_ok, Prod.mk.injEq] at h
    obtain ⟨_, hinsert, rfl, rfl, rfl⟩ := h
    obtain ⟨hnone, hl⟩ := insertOutcome_eq_ok hinsert
    exact ⟨rfl, hnone, hl, .inl ⟨hterminal, rfl, rfl⟩⟩
  next hterminal =>
    simp only [bind_eq_ok, pure_eq_ok, Prod.mk.injEq] at h
    obtain ⟨stopped, hstopped, _, hinsert, rfl, rfl, rfl⟩ := h
    obtain ⟨hnone, hl⟩ := insertOutcome_eq_ok hinsert
    exact ⟨rfl, hnone, hl, .inr ⟨by simpa using hterminal, hstopped, rfl⟩⟩

theorem settleStop_statements
    (h : l.settleStop r auditRefs q occurredAtUs completedAtUs outcomeAuditRef =
      .ok (l', r', settlement)) : r.Statements r' := by
  obtain ⟨-, -, -, ⟨-, rfl, -⟩ | ⟨-, happend, -⟩⟩ := settleStop_cases h
  · exact .refl _
  · exact Run.Statement.single (.event happend)

/-- `stop_run` answers the stored outcome, or settles the request it has recorded. -/
theorem stopRun_cases
    (h : l.stopRun found auditRefs q occurredAtUs completedAtUs outcomeAuditRef =
      .ok (l', found', settlement)) :
    ∃ recorded, l.recordStopIntent found auditRefs q = .ok recorded ∧
      ((recorded.outcome? q.stopRequestId = some settlement ∧ l' = recorded ∧ found' = found) ∨
        (recorded.outcome? q.stopRequestId = none ∧ ∃ r r', found = some r ∧ found' = some r' ∧
          recorded.settleStop r auditRefs q occurredAtUs completedAtUs outcomeAuditRef =
            .ok (l', r', settlement))) := by
  simp only [stopRun, bind_eq_ok] at h
  obtain ⟨recorded, hrecorded, h⟩ := h
  refine ⟨recorded, hrecorded, ?_⟩
  split at h
  next settled hsettled =>
    simp only [pure_eq_ok, Prod.mk.injEq] at h
    obtain ⟨rfl, rfl, rfl⟩ := h
    exact .inl ⟨hsettled, rfl, rfl⟩
  next hnone =>
    split at h
    · cases h
    next r =>
      simp only [bind_eq_ok, pure_eq_ok, Prod.exists, Prod.mk.injEq] at h
      obtain ⟨_, r', _, hsettle, rfl, rfl, rfl⟩ := h
      exact .inr ⟨hnone, r, r', rfl, rfl, hsettle⟩

end StopLedger

/-! ## Cancellation -/

variable {context : CancelContext} {stop : RunStopRequest} {reason : String}
  {disposition : CancelDisposition} {command : CancelCommand}

/-- The end of a cancellation is a `stop_run`, and the end of the job where it was accepted. -/
theorem settleStopOf_cases
    (h : settleStopOf context l r stop reason nowUs = .ok (l', r', disposition)) :
    ∃ settlement stopped,
      l.stopRun (some r) context.auditRefs stop nowUs nowUs none =
        .ok (l', some stopped, settlement) ∧
      ((settlement.outcome.isAccepted = true ∧ disposition = .cancellationAccepted ∧
          ∃ job, (stopped.job.cancel context.authority nowUs
            (hasStopLineage context.claims l' stopped reason nowUs)) = .ok job ∧
            r' = { stopped with job }) ∨
        (settlement.outcome = .ignoredAlreadyTerminal ∧ disposition = .alreadyTerminal ∧
          r' = stopped)) := by
  simp only [settleStopOf, bind_eq_ok, Prod.exists] at h
  obtain ⟨settled, stopped, settlement, hstop, h⟩ := h
  split at h
  next houtcome =>
    simp only [bind_eq_ok, mapError_eq_ok, pure_eq_ok, Prod.mk.injEq] at h
    obtain ⟨job, hjob, rfl, rfl, rfl⟩ := h
    exact ⟨settlement, _, hstop, .inl ⟨by rw [houtcome]; rfl, rfl, job, hjob, rfl⟩⟩
  next houtcome =>
    simp only [pure_eq_ok, Prod.mk.injEq] at h
    obtain ⟨rfl, rfl, rfl⟩ := h
    exact ⟨settlement, _, hstop, .inr ⟨houtcome, rfl, rfl⟩⟩
  · cases h

theorem settleStopOf_statements
    (h : settleStopOf context l r stop reason nowUs = .ok (l', r', disposition)) :
    r.Statements r' := by
  obtain ⟨settlement, stopped, hstop, h⟩ := settleStopOf_cases h
  have hstopped : r.Statements stopped := by
    obtain ⟨recorded, -, ⟨-, -, heq⟩ | ⟨-, r₀, stopped₀, hr, hstopped, hsettle⟩⟩ :=
      StopLedger.stopRun_cases hstop
    · obtain rfl := Option.some.inj heq
      exact .refl _
    · obtain rfl := Option.some.inj hr
      obtain rfl := Option.some.inj hstopped
      exact StopLedger.settleStop_statements hsettle
  obtain ⟨-, -, job, -, rfl⟩ | ⟨-, -, rfl⟩ := h
  · exact hstopped.trans (Run.Statement.single (.job job))
  · exact hstopped

theorem pendingCancellation_cases
    (h : pendingCancellation l r nowUs = .ok (l', r', disposition)) :
    l' = l ∧ disposition = .pendingReconciliation ∧
      ((r.status = some .uncertain ∧ r' = r) ∨
        (r.status = some .running ∧
          r.appendRunEvent ⟨nowUs, .uncertain, none, none⟩ = .ok r')) := by
  unfold pendingCancellation at h
  split at h
  next hstatus =>
    simp only [pure_eq_ok, Prod.mk.injEq] at h
    obtain ⟨rfl, rfl, rfl⟩ := h
    exact ⟨rfl, rfl, .inl ⟨hstatus, rfl⟩⟩
  next =>
    simp only [bind_eq_ok, require_eq_ok, exists_unit, pure_eq_ok, Prod.mk.injEq] at h
    obtain ⟨hstatus, told, htold, rfl, rfl, rfl⟩ := h
    exact ⟨rfl, rfl, .inr ⟨hstatus, htold⟩⟩

theorem recordProgress_eq_ok {p : StopProgress} (h : l.recordProgress q p = .ok l') :
    l' = { l with progress := l.progress ++ [p] } := by
  simp only [StopLedger.recordProgress, bind_eq_ok, require_eq_ok, exists_unit, pure_eq_ok] at h
  obtain ⟨-, -, -, -, rfl⟩ := h
  rfl

/-- The ledger once a cancellation has released what its run holds. -/
theorem releaseAndSettle_cases
    (h : releaseAndSettle context l r stop reason nowUs = .ok (l', r', disposition)) :
    ∃ released receipts, r.releaseRunWork reason nowUs = .ok released ∧
      settleStopOf context { l with receipts } released stop reason nowUs =
        .ok (l', r', disposition) := by
  simp only [releaseAndSettle, StopLedger.recordCleanupReceipts, bind_eq_ok, exists_unit,
    pure_eq_ok] at h
  obtain ⟨released, hreleased, _, ⟨-, rfl⟩, h⟩ := h
  exact ⟨released, _, hreleased, h⟩

/-- A cancellation of a live run records its intent and what it observed, and then either reports the
run as uncertain or settles. -/
theorem cancelLive_cases
    (h : cancelLive context l r stop command nowUs = .ok (l', r', disposition)) :
    ∃ intended p, l.recordStopIntent (some r) context.auditRefs stop = .ok intended ∧
      p.stopRequestId = stop.stopRequestId ∧
      (pendingCancellation { intended with progress := intended.progress ++ [p] } r nowUs =
          .ok (l', r', disposition) ∨
        releaseAndSettle context { intended with progress := intended.progress ++ [p] } r stop
          command.reason nowUs = .ok (l', r', disposition)) := by
  simp only [cancelLive, bind_eq_ok] at h
  obtain ⟨intended, hintended, observed, hobserved, h⟩ := h
  obtain rfl := recordProgress_eq_ok hobserved
  refine ⟨intended, ⟨stop.stopRequestId, nowUs, r.heldResources ≠ 0, command.obligations⟩, hintended,
    rfl, ?_⟩
  split at h
  · exact .inl h
  · exact .inr h

theorem cancelLive_statements
    (h : cancelLive context l r stop command nowUs = .ok (l', r', disposition)) :
    r.Statements r' := by
  obtain ⟨intended, p, -, -, h | h⟩ := cancelLive_cases h
  · obtain ⟨-, -, ⟨-, rfl⟩ | ⟨-, htold⟩⟩ := pendingCancellation_cases h
    · exact .refl _
    · exact Run.Statement.single (.event htold)
  · obtain ⟨released, receipts, hreleased, h⟩ := releaseAndSettle_cases h
    exact (Run.releaseRunWork_statements hreleased).trans (settleStopOf_statements h)

/-- A cancellation reads the stop the run carries, and takes its own where there is none. -/
theorem cancelRun_cases (h : cancelRun context l r command nowUs = .ok (l', r', disposition)) :
    ∃ pending, l.readUnsettledStopRequest r.runId = .ok pending ∧
      ((r.terminal = true ∧ settleStopOf context l r (pending.getD (command.stop nowUs))
          command.reason nowUs = .ok (l', r', disposition)) ∨
        (r.terminal = false ∧ cancelLive context l r (pending.getD (command.stop nowUs)) command
          nowUs = .ok (l', r', disposition))) := by
  simp only [cancelRun, bind_eq_ok] at h
  obtain ⟨pending, hpending, h⟩ := h
  refine ⟨pending, hpending, ?_⟩
  split at h
  next hterminal => exact .inl ⟨hterminal, h⟩
  next hterminal => exact .inr ⟨by simpa using hterminal, h⟩

/-- The keys and references of the stop ledger. -/
structure StopLedger.Keyed (l : StopLedger) (auditRefs : List String) : Prop where
  requests : Unique RunStopRequest.stopRequestId l.requests
  outcomes : Unique RunStopOutcome.stopRequestId l.outcomes
  referenced : ∀ o ∈ l.outcomes, ∃ q ∈ l.requests, q.stopRequestId = o.stopRequestId
  audited : ∀ q ∈ l.requests, q.auditRef ∈ auditRefs

theorem StopLedger.Keyed.outcome?_none {id : String} (h : l.Keyed auditRefs)
    (hnone : l.request? id = none) : l.outcome? id = none := by
  cases ho : l.outcome? id with
  | none => rfl
  | some o =>
    obtain ⟨q, hq, hid⟩ := h.referenced o (List.mem_of_find?_eq_some ho)
    have hid' : o.stopRequestId = id := by simpa using List.find?_some ho
    have := List.find?_eq_none.1 hnone q hq
    simp [hid, hid'] at this

theorem StopLedger.mem_openRequests {runId : String} :
    q ∈ l.openRequests runId ↔
      q ∈ l.requests ∧ q.runId = runId ∧ l.outcome? q.stopRequestId = none := by
  simp [StopLedger.openRequests]

theorem StopLedger.readUnsettledStopRequest_eq_ok {runId : String} {pending : Option RunStopRequest} :
    l.readUnsettledStopRequest runId = .ok pending ↔ l.openRequests runId = pending.toList := by
  unfold StopLedger.readUnsettledStopRequest
  rcases hopen : l.openRequests runId with _ | ⟨x, _ | ⟨y, rest⟩⟩
  · cases pending with
    | none => simp
    | some q => simp
  · cases pending with
    | none => simp
    | some q => simp
  · cases pending with
    | none => simp
    | some q => simp

/-- The stop a cancellation settles carries no outcome: it is the one the run carries, or one whose audit
event is new. -/
theorem cancelRun_unsettled (hl : l.Keyed auditRefs) (haudit : command.auditRef ∉ auditRefs)
    {pending : Option RunStopRequest} (hpending : l.readUnsettledStopRequest r.runId = .ok pending)
    {recorded : StopLedger} (hrecorded : l.recordStopIntent (some r) context.auditRefs
      (pending.getD (command.stop nowUs)) = .ok recorded) :
    l.outcome? (pending.getD (command.stop nowUs)).stopRequestId = none := by
  rw [StopLedger.readUnsettledStopRequest_eq_ok] at hpending
  cases pending with
  | some q =>
    have hmem : q ∈ l.openRequests r.runId := by simp [hpending]
    exact (StopLedger.mem_openRequests.1 hmem).2.2
  | none =>
    obtain ⟨hsome, -⟩ | ⟨hnone, -⟩ := StopLedger.recordStopIntent_cases hrecorded
    · exact absurd (hl.audited _ (List.mem_of_find?_eq_some hsome)) haudit
    · exact hl.outcome?_none hnone

theorem cancelRun_statements (h : cancelRun context l r command nowUs = .ok (l', r', disposition)) :
    r.Statements r' := by
  obtain ⟨pending, -, ⟨-, h⟩ | ⟨-, h⟩⟩ := cancelRun_cases h
  · exact settleStopOf_statements h
  · exact cancelLive_statements h

end Stop

/-! ## The calls -/

/-- What a call of the store `s` did to a run it touched: `r` is the run in `s`. -/
def Store.Operated (s : Store) (service : RuntimeScheduler) (r : Run) : Call → Run → Prop
  | .start .., _ => False
  | .claimNext nowUs, r' => r.job.state = .queued ∧ ∃ runStepId claim,
      r.readyStep service = some runStepId ∧
        r.claimNext service.authority (s.ledger.readUnsettledStopRequest r.runId) runStepId nowUs =
          .ok (r', claim)
  | .complete claim nowUs jobUs, r' => s.run? claim.runId = some r ∧ ∃ next,
      r.complete service (s.ledger.readUnsettledStopRequest r.runId) claim nowUs jobUs =
        .ok (r', next)
  | .fail claim retryable nowUs jobUs, r' => s.run? claim.runId = some r ∧ ∃ next,
      r.fail service.authority (s.ledger.readUnsettledStopRequest r.runId) claim retryable nowUs
        jobUs = .ok (r', next)
  | .openWait settlement _ expected wait, r' => (∀ x ∈ r.waits, x.waitId ≠ wait.waitId) ∧
      r.openRuntimeWait expected { wait with createdAtUs := settlement.settledAtUs } = .ok r'
  | .resolveWait settlement _ command policy, r' => ∃ w answer, r.wait? command.waitId = some w ∧
      r.settleWait command policy w settlement.settledAtUs = .ok (r', answer)
  | .cancel settlement runId reason obligations, r' => s.run? runId = some r ∧
      settlement.auditRef ∉ s.auditRefs ∧
      ∃ context l' disposition, context.authority = service.authority ∧
        cancelRun context s.ledger r ⟨runId, settlement.claimId, settlement.auditRef,
          settlement.principalId, reason, obligations⟩ settlement.settledAtUs =
            .ok (l', r', disposition)
  | .recoverStartup adoptedAtUs recoveredAtUs, r' => ∃ surveyed entry entry',
      r.survey service.authority s.ledger adoptedAtUs = .ok (surveyed, entry) ∧
        surveyed.recoverFound service.authority recoveredAtUs entry = .ok (r', entry')

/-! ## The recovery of one run -/

namespace Run

variable {l : StopLedger} {adoptedAtUs recoveredAtUs : Nat} {entry entry' : RuntimeJobRecovery}
  {surveyed : Run}

theorem superseded_iff : r.superseded authority = true ↔
    r.job.state = .claimed ∧ r.job.fencingGeneration < authority.fencingGeneration := by
  simp [superseded]

theorem classify_orphanAttempt {pending : Bool}
    (h : r.classify authority pending = .orphanAttempt) :
    r.contradiction = none ∧ r.terminal = false ∧ r.openWaits = [] ∧ r.openAttempts ≠ [] ∧
      r.superseded authority = true := by
  unfold classify at h
  split at h
  · cases h
  next hnone =>
    split at h
    · cases h
    next hterminal =>
      split at h
      · cases h
      · split at h
        · cases h
        next hwaits =>
          split at h
          · cases h
          next hopen =>
            split at h
            next hsuperseded =>
              exact ⟨by simpa using hnone, by simpa using hterminal, by simpa using hwaits, hopen,
                hsuperseded⟩
            · cases h

def Adopted (r : Run) (authority : Authority) (pending : Bool) : Prop :=
  r.classify authority pending = .durableOpenWait ∧ r.superseded authority = true

theorem survey_cases (h : r.survey authority l adoptedAtUs = .ok (surveyed, entry)) :
    ∃ pending, l.readUnsettledStopRequest r.runId = .ok pending ∧
      entry.classification = r.classify authority pending.isSome ∧
      entry.superseded = r.superseded authority ∧
      ((r.Adopted authority pending.isSome ∧ r.adoptOpenWait authority adoptedAtUs = .ok surveyed) ∨
        (¬r.Adopted authority pending.isSome ∧ surveyed = r)) := by
  simp only [survey, stopPending, bind_eq_ok, pure_eq_ok] at h
  obtain ⟨_, ⟨pending, hpending, rfl⟩, h⟩ := h
  refine ⟨pending, hpending, ?_⟩
  split at h
  next hadopted =>
    simp only [bind_eq_ok, pure_eq_ok, Prod.mk.injEq] at h
    obtain ⟨adopted, hadopt, rfl, rfl⟩ := h
    exact ⟨rfl, rfl, .inl ⟨hadopted, hadopt⟩⟩
  next hadopted =>
    simp only [pure_eq_ok, Prod.mk.injEq] at h
    obtain ⟨rfl, rfl⟩ := h
    exact ⟨rfl, rfl, .inr ⟨hadopted, rfl⟩⟩

theorem recoverFound_cases
    (h : surveyed.recoverFound authority recoveredAtUs entry = .ok (r', entry')) :
    (entry.classification = .orphanAttempt ∧ surveyed.recover authority recoveredAtUs = .ok r') ∨
      (entry.classification ≠ .orphanAttempt ∧ r' = surveyed) := by
  unfold recoverFound at h
  split at h
  next horphan =>
    simp only [bind_eq_ok, pure_eq_ok, Prod.mk.injEq] at h
    obtain ⟨recovered, hrecovered, rfl, -⟩ := h
    exact .inl ⟨horphan, hrecovered⟩
  next horphan =>
    simp only [pure_eq_ok, Prod.mk.injEq] at h
    obtain ⟨rfl, -⟩ := h
    exact .inr ⟨horphan, rfl⟩

/-- The pass adopts a run's wait, recovers its attempt, or leaves the run alone. -/
theorem recovery_cases (h : r.survey authority l adoptedAtUs = .ok (surveyed, entry))
    (h' : surveyed.recoverFound authority recoveredAtUs entry = .ok (r', entry')) :
    ∃ pending, l.readUnsettledStopRequest r.runId = .ok pending ∧
      ((r.Adopted authority pending.isSome ∧ r.adoptOpenWait authority adoptedAtUs = .ok r') ∨
        (r.classify authority pending.isSome = .orphanAttempt ∧
          r.recover authority recoveredAtUs = .ok r') ∨
        (¬r.Adopted authority pending.isSome ∧
          r.classify authority pending.isSome ≠ .orphanAttempt ∧ r' = r)) := by
  obtain ⟨pending, hpending, hclass, -, hsurvey⟩ := survey_cases h
  refine ⟨pending, hpending, ?_⟩
  rcases recoverFound_cases h' with ⟨horphan, hrecover⟩ | ⟨horphan, rfl⟩
  · rw [hclass] at horphan
    obtain ⟨⟨hadopted, -⟩, -⟩ | ⟨-, rfl⟩ := hsurvey
    · rw [horphan] at hadopted
      cases hadopted
    · exact .inr (.inl ⟨horphan, hrecover⟩)
  · rw [hclass] at horphan
    obtain ⟨hadopted, hadopt⟩ | ⟨hadopted, rfl⟩ := hsurvey
    · exact .inl ⟨hadopted, hadopt⟩
    · exact .inr (.inr ⟨hadopted, horphan, rfl⟩)

end Run

/-! ## What a call leaves -/

namespace Store

variable {s s' : Store} {service : RuntimeScheduler} {call : Call}

theorem Operated.statements (h : s.Operated service r call r') : r.Statements r' := by
  cases call with
  | start => exact h.elim
  | claimNext nowUs =>
    obtain ⟨-, runStepId, claim, -, h⟩ := h
    exact Run.claimNext_statements h
  | complete claim nowUs jobUs =>
    obtain ⟨-, next, h⟩ := h
    exact Run.complete_statements h
  | fail claim retryable nowUs jobUs =>
    obtain ⟨-, next, h⟩ := h
    exact Run.fail_statements h
  | openWait settlement runId expected wait =>
    exact Run.openRuntimeWait_statements (w := { wait with createdAtUs := settlement.settledAtUs })
      h.1 h.2
  | resolveWait settlement expected command policy =>
    obtain ⟨w, answer, -, h⟩ := h
    exact Run.settleWait_statements h
  | cancel settlement runId reason obligations =>
    obtain ⟨-, -, context, l', disposition, -, h⟩ := h
    exact cancelRun_statements h
  | recoverStartup adoptedAtUs recoveredAtUs =>
    obtain ⟨surveyed, entry, entry', hsurvey, hrecover⟩ := h
    obtain ⟨pending, -, ⟨-, h⟩ | ⟨-, h⟩ | ⟨-, -, rfl⟩⟩ := Run.recovery_cases hsurvey hrecover
    · exact Run.adoptOpenWait_statements h
    · exact Run.recover_statements h
    · exact .refl _

/-- The runs after a call: those before it, in their order, each as the call left it, and at most one
more. -/
inductive Called (s : Store) (service : RuntimeScheduler) (call : Call) : List Run → Prop where
  | admitted {settlement runId runStepIds} (hcall : call = .start settlement runId runStepIds)
      (hnew : s.run? runId = none) (hne : runStepIds ≠ []) (hnodup : runStepIds.Nodup) :
      Called s service call
        (s.runs ++ [admittedRun service.authority runId runStepIds settlement.settledAtUs])
  | operated {runs}
      (h : List.Forall₂ (fun r r' => r' = r ∨ s.Operated service r call r') s.runs runs) :
      Called s service call runs

theorem run?_mem {runId : String} (h : s.run? runId = some r) : r ∈ s.runs ∧ r.runId = runId :=
  ⟨List.mem_of_find?_eq_some h, by simpa using List.find?_some h⟩

theorem setRun_runs (hunique : Unique Run.runId s.runs) (hr : r ∈ s.runs)
    (hid : r'.runId = r.runId) :
    List.Forall₂ (fun x x' => x' = x ∨ (x = r ∧ x' = r')) s.runs (s.setRun r').runs := by
  obtain ⟨before, after, hold, hnew⟩ := hunique.updateKey hr r'
  have hsame : ∀ l : List Run, List.Forall₂ (fun x x' => x' = x ∨ (x = r ∧ x' = r')) l l := by
    intro l
    exact List.forall₂_same.2 fun x _ => .inl rfl
  have hset : (s.setRun r').runs = before ++ r' :: after := by
    simpa only [setRun, hid] using hnew
  rw [hset, hold]
  exact List.rel_append (hsame before) (.cons (.inr ⟨rfl, rfl⟩) (hsame after))

theorem Called.set (hunique : Unique Run.runId s.runs) (hr : r ∈ s.runs)
    (h : s.Operated service r call r') : Called s service call (s.setRun r').runs :=
  .operated ((setRun_runs hunique hr h.statements.grows.runId).imp fun _ _ hx =>
    hx.imp_right fun ⟨hr, hr'⟩ => hr ▸ hr' ▸ h)

theorem selectClaimable_mem {runs : List Run} {runStepId : String}
    (h : selectClaimable service runs = .ok (some (r, runStepId))) :
    r ∈ runs ∧ r.terminal = false ∧ r.readyStep service = some runStepId := by
  induction runs with
  | nil => cases h
  | cons x rest ih =>
    simp only [selectClaimable] at h
    split at h
    · cases h
    next status hstatus =>
      split at h
      next hterminal =>
        obtain ⟨hmem, hrest⟩ := ih h
        exact ⟨List.mem_cons_of_mem _ hmem, hrest⟩
      next hterminal =>
        split at h
        next found hready =>
          cases h
          exact ⟨List.mem_cons_self, by simpa [Run.terminal, hstatus] using hterminal, hready⟩
        next hready =>
          obtain ⟨hmem, hrest⟩ := ih h
          exact ⟨List.mem_cons_of_mem _ hmem, hrest⟩

theorem recordClaim_eq_ok {c : CommandClaim} (h : s.recordClaim c = .ok s') :
    c.auditRef ∉ s.auditRefs ∧
      s' = { s with claims := s.claims ++ [c], auditRefs := s.auditRefs ++ [c.auditRef] } := by
  simp only [recordClaim, bind_eq_ok, require_eq_ok, exists_unit, pure_eq_ok] at h
  obtain ⟨-, haudit, -, rfl⟩ := h
  exact ⟨haudit, rfl⟩

theorem recovered_runs {l : StopLedger} {adoptedAtUs recoveredAtUs : Nat} {runs : List Run}
    {recovered : List (Run × RuntimeJobRecovery)}
    (h : recoverRuntimeStartup authority l adoptedAtUs recoveredAtUs runs = .ok recovered) :
    List.Forall₂ (fun r p => ∃ surveyed entry,
      r.survey authority l adoptedAtUs = .ok (surveyed, entry) ∧
        surveyed.recoverFound authority recoveredAtUs entry = .ok p) runs recovered := by
  simp only [recoverRuntimeStartup, bind_eq_ok] at h
  obtain ⟨found, hfound, hrecovered⟩ := h
  rw [mapM_eq_ok] at hfound hrecovered
  induction hfound generalizing recovered with
  | nil =>
    cases hrecovered
    exact .nil
  | cons hr _ ih =>
    cases hrecovered with
    | cons hp hrest => exact .cons ⟨_, _, hr, hp⟩ (ih hrest)

theorem apply_called (hunique : Unique Run.runId s.runs) (h : s.apply service call = .ok s') :
    Called s service call s'.runs := by
  have hsame : Called s service call s.runs :=
    .operated (List.forall₂_same.2 fun x _ => .inl rfl)
  cases call with
  | start settlement runId runStepIds =>
    simp only [apply, start, recordCommand, bind_eq_ok, require_eq_ok, exists_unit, pure_eq_ok] at h
    obtain ⟨claimed, hclaimed, -, hnew, ⟨hne, -, hnodup⟩, rfl⟩ := h
    obtain ⟨-, rfl⟩ := recordClaim_eq_ok hclaimed
    exact .admitted rfl (by simpa using hnew) hne hnodup
  | claimNext nowUs =>
    simp only [apply, claimNext, except_map_eq_ok, bind_eq_ok, exists_unit] at h
    obtain ⟨_, ⟨-, selected, hselected, h⟩, rfl⟩ := h
    split at h
    next =>
      simp only [pure_eq_ok] at h
      obtain rfl := h
      exact hsame
    next r runStepId =>
      simp only [bind_eq_ok, pure_eq_ok, Prod.exists] at h
      obtain ⟨r', claim, hclaim, rfl⟩ := h
      obtain ⟨hmem, -, hready⟩ := selectClaimable_mem hselected
      obtain ⟨hmem, hqueued⟩ := List.mem_filter.1 (mem_sortBy.1 hmem)
      exact .set hunique hmem ⟨by simpa using hqueued, runStepId, claim, hready, hclaim⟩
  | complete claim nowUs jobUs =>
    simp only [apply, complete, except_map_eq_ok, bind_eq_ok, exists_unit] at h
    obtain ⟨_, ⟨-, -, h⟩, rfl⟩ := h
    split at h
    · cases h
    next r hr =>
      simp only [bind_eq_ok, pure_eq_ok, Prod.exists] at h
      obtain ⟨r', next, hcomplete, rfl⟩ := h
      exact .set hunique (run?_mem hr).1 ⟨hr, next, hcomplete⟩
  | fail claim retryable nowUs jobUs =>
    simp only [apply, fail, except_map_eq_ok, bind_eq_ok, exists_unit] at h
    obtain ⟨_, ⟨-, h⟩, rfl⟩ := h
    split at h
    · cases h
    next r hr =>
      simp only [bind_eq_ok, pure_eq_ok, Prod.exists] at h
      obtain ⟨r', next, hfail, rfl⟩ := h
      exact .set hunique (run?_mem hr).1 ⟨hr, next, hfail⟩
  | openWait settlement runId expected wait =>
    simp only [apply, openWait, recordCommand, bind_eq_ok, require_eq_ok, exists_unit] at h
    obtain ⟨claimed, hclaimed, hnew, h⟩ := h
    obtain ⟨-, rfl⟩ := recordClaim_eq_ok hclaimed
    split at h
    · cases h
    next r hr =>
      simp only [bind_eq_ok, pure_eq_ok, mapError_eq_ok] at h
      obtain ⟨r', hopen, rfl⟩ := h
      have hfresh : ∀ x ∈ r.waits, x.waitId ≠ wait.waitId := by
        have hnone := List.all_eq_true.1 hnew r (run?_mem hr).1
        simpa [Run.wait?] using hnone
      exact Called.set hunique (run?_mem hr).1 ⟨hfresh, hopen⟩
  | resolveWait settlement expected command policy =>
    simp only [apply, resolveWait, recordCommand, except_map_eq_ok, bind_eq_ok, require_eq_ok,
      exists_unit] at h
    obtain ⟨_, ⟨claimed, hclaimed, -, h⟩, rfl⟩ := h
    obtain ⟨-, rfl⟩ := recordClaim_eq_ok hclaimed
    split at h
    · cases h
    next r hr =>
      simp only [bind_eq_ok, require_eq_ok, exists_unit] at h
      obtain ⟨-, h⟩ := h
      split at h
      · cases h
      next w hw =>
        simp only [bind_eq_ok, pure_eq_ok, mapError_eq_ok, Prod.exists] at h
        obtain ⟨r', answer, hsettle, rfl⟩ := h
        exact Called.set hunique (run?_mem hr).1 ⟨w, answer, hw, hsettle⟩
  | cancel settlement runId reason obligations =>
    simp only [apply, cancel, except_map_eq_ok, bind_eq_ok] at h
    obtain ⟨_, ⟨claimed, hclaimed, h⟩, rfl⟩ := h
    obtain ⟨haudit, rfl⟩ := recordClaim_eq_ok hclaimed
    split at h
    · cases h
    next r hr =>
      simp only [bind_eq_ok, pure_eq_ok, Prod.exists] at h
      obtain ⟨l', r', disposition, hcancel, rfl⟩ := h
      exact Called.set hunique (run?_mem hr).1 ⟨hr, haudit, _, l', disposition, rfl, hcancel⟩
  | recoverStartup adoptedAtUs recoveredAtUs =>
    simp only [apply, recoverStartup, except_map_eq_ok, bind_eq_ok, pure_eq_ok] at h
    obtain ⟨_, ⟨recovered, hrecovered, rfl⟩, rfl⟩ := h
    refine .operated (List.forall₂_map_right_iff.2 ((recovered_runs hrecovered).imp ?_))
    rintro r ⟨r', entry'⟩ ⟨surveyed, entry, hsurvey, hrecover⟩
    exact .inr ⟨surveyed, entry, entry', hsurvey, hrecover⟩

end Store

end OmniviaCore.Runtime
