import OmniviaCore.Runtime.StopIntegrity

/-!
# A stop is honoured

A stop request settles on a run that has ended, or by ending it (`Store.Closed`). So a run that an unsettled
stop names either still carries one or has ended, in every later store, and under neither is an attempt of it
opened: no `claim_next`, `complete` or `fail` answers with a claim of the run (`Store.Opens`).
-/

namespace OmniviaCore.Runtime

open Lib
open Jobs (Authority)

variable {s s' : Store} {q : RunStopRequest} {r r' : Run} {l l' : StopLedger}

/-! ## What settles -/

theorem Run.terminal_congr (h : r'.events = r.events) : r'.terminal = r.terminal := by
  simp only [Run.terminal, Run.status, h]

namespace StopLedger

variable {found found' : Option Run} {auditRefs : List String} {occurredAtUs completedAtUs : Nat}
  {outcomeAuditRef : Option String} {settlement : RunStopOutcome}

theorem recordStopIntent_requests (h : l.recordStopIntent found auditRefs q = .ok l') :
    l.requests ⊆ l'.requests ∧ q ∈ l'.requests := by
  refine ⟨?_, (request?_mem (recordStopIntent_steps h).2).1⟩
  obtain ⟨-, rfl⟩ | ⟨-, -, -, rfl⟩ := recordStopIntent_cases h
  · exact List.Subset.refl _
  · exact List.subset_append_left _ _

/-- The outcome a `stop_run` adds is that of its own request, and its run has ended. -/
theorem stopRun_outcomes
    (h : l.stopRun found auditRefs q occurredAtUs completedAtUs outcomeAuditRef =
      .ok (l', found', settlement)) :
    l.requests ⊆ l'.requests ∧ q ∈ l'.requests ∧ ∀ o ∈ l'.outcomes, o ∈ l.outcomes ∨
      (o.stopRequestId = q.stopRequestId ∧ ∃ r, found' = some r ∧ r.terminal = true) := by
  obtain ⟨recorded, hrecorded, hcases⟩ := stopRun_cases h
  obtain ⟨hsubset, hq⟩ := recordStopIntent_requests hrecorded
  have hold : recorded.outcomes = l.outcomes := by
    obtain ⟨-, rfl⟩ | ⟨-, -, -, rfl⟩ := recordStopIntent_cases hrecorded
    · rfl
    · rfl
  obtain ⟨-, rfl, -⟩ | ⟨-, r, r', -, rfl, hsettle⟩ := hcases
  · exact ⟨hsubset, hq, fun o ho => .inl (hold ▸ ho)⟩
  · obtain ⟨hid, -, rfl, hend⟩ := settleStop_cases hsettle
    have hterminal : r'.terminal = true := by
      obtain ⟨hterminal, rfl, -⟩ | ⟨-, happend, -⟩ := hend
      · exact hterminal
      · obtain ⟨-, rfl⟩ := Run.appendRunEvent_eq_ok.1 happend
        simp [Run.terminal, Run.status, RunStatus.terminal]
    refine ⟨hsubset, hq, fun o ho => ?_⟩
    rcases List.mem_append.1 ho with ho | ho
    · exact .inl (hold ▸ ho)
    · rw [List.mem_singleton.1 ho]
      exact .inr ⟨hid, r', rfl, hterminal⟩

end StopLedger

section Cancel

variable {context : CancelContext} {disposition : CancelDisposition} {command : CancelCommand}
  {reason : String} {nowUs : Nat}

def SettledFor (l l' : StopLedger) (r' : Run) : Prop :=
  l.requests ⊆ l'.requests ∧ ∀ o ∈ l'.outcomes, o ∈ l.outcomes ∨
    ∃ q ∈ l'.requests, o.stopRequestId = q.stopRequestId ∧ q.runId = r'.runId ∧ r'.terminal = true

theorem settleStopOf_settled (hrun : q.runId = r.runId)
    (h : settleStopOf context l r q reason nowUs = .ok (l', r', disposition)) : SettledFor l l' r' := by
  have hid := (settleStopOf_statements h).grows.runId
  obtain ⟨settlement, stopped, hstop, hend⟩ := settleStopOf_cases h
  obtain ⟨hsubset, hq, houtcomes⟩ := StopLedger.stopRun_outcomes hstop
  have hsame : r'.terminal = stopped.terminal := by
    obtain ⟨-, -, job, -, rfl⟩ | ⟨-, -, rfl⟩ := hend
    · rfl
    · rfl
  refine ⟨hsubset, fun o ho => (houtcomes o ho).imp_right ?_⟩
  rintro ⟨hoid, x, hx, hterminal⟩
  obtain rfl := Option.some.inj hx
  exact ⟨q, hq, hoid, hrun.trans hid.symm, hsame.trans hterminal⟩

theorem cancelRun_settled (hrun : command.runId = r.runId)
    (h : cancelRun context l r command nowUs = .ok (l', r', disposition)) : SettledFor l l' r' := by
  obtain ⟨pending, hpending, hcases⟩ := cancelRun_cases h
  have hstop : (pending.getD (command.stop nowUs)).runId = r.runId := by
    rw [StopLedger.readUnsettledStopRequest_eq_ok] at hpending
    cases pending with
    | none => exact hrun
    | some q =>
      have hmem : q ∈ l.openRequests r.runId := by simp [hpending]
      exact (StopLedger.mem_openRequests.1 hmem).2.1
  obtain ⟨-, hend⟩ | ⟨-, hlive⟩ := hcases
  · exact settleStopOf_settled hstop hend
  · obtain ⟨intended, p, hintended, -, hend⟩ := cancelLive_cases hlive
    have hsubset := (StopLedger.recordStopIntent_requests hintended).1
    have hold : intended.outcomes = l.outcomes := by
      obtain ⟨-, rfl⟩ | ⟨-, -, -, rfl⟩ := StopLedger.recordStopIntent_cases hintended
      · rfl
      · rfl
    obtain hend | hend := hend
    · obtain ⟨rfl, -, -⟩ := pendingCancellation_cases hend
      exact ⟨hsubset, fun o ho => .inl (hold ▸ ho)⟩
    · obtain ⟨released, receipts, hreleased, hend⟩ := releaseAndSettle_cases hend
      have hid := (Run.releaseRunWork_statements hreleased).grows.runId
      obtain ⟨hsettled, houtcomes⟩ := settleStopOf_settled (hstop.trans hid.symm) hend
      exact ⟨List.Subset.trans hsubset hsettled, fun o ho => (houtcomes o ho).imp_left fun ho => hold ▸ ho⟩

end Cancel

/-! ## The invariant -/

namespace Store

def Ended (s : Store) (runId : String) : Prop := ∃ r ∈ s.runs, r.runId = runId ∧ r.terminal = true

def Closed (s : Store) : Prop :=
  ∀ q ∈ s.ledger.requests, ∀ o ∈ s.ledger.outcomes, o.stopRequestId = q.stopRequestId → s.Ended q.runId

theorem Keyed.ended (h : s.Keyed) (hgrows : s.Grows s') {runId : String} (hended : s.Ended runId) :
    s'.Ended runId := by
  obtain ⟨r, hr, hid, hterminal⟩ := hended
  obtain ⟨r', hr', hstatements⟩ := hgrows r hr
  have hkeyed := h.runs r hr
  have hevents := hkeyed.events_eq (hstatements.keyed hkeyed) hstatements.grows.events hterminal
  exact ⟨r', hr', hstatements.grows.runId.trans hid, (Run.terminal_congr hevents).trans hterminal⟩

def Settles (s s' : Store) : Prop :=
  s.ledger.requests ⊆ s'.ledger.requests ∧ ∀ o ∈ s'.ledger.outcomes, o ∈ s.ledger.outcomes ∨
    ∃ q ∈ s'.ledger.requests, o.stopRequestId = q.stopRequestId ∧ s'.Ended q.runId

theorem settles_of_ledger (h : s'.ledger = s.ledger) : s.Settles s' := by
  rw [Settles, h]
  exact ⟨List.Subset.refl _, fun o ho => .inl ho⟩

/-- The run a call rewrote is a run of the store it left. -/
theorem setRun_mem (h : s.Keyed) (hr : r ∈ s.runs) (hid : r'.runId = r.runId) :
    r' ∈ (s.setRun r').runs := (run?_mem (setRun_run? h.ids hr hid)).1

theorem Keyed.settles_ledgerStep (h : s.Keyed) (label : LedgerLabel) :
    s.Settles (s.ledgerStep label) := by
  obtain ⟨lifecycle, -, heq⟩ | heq | ⟨authority, call, -, happly⟩ := ledgerStep_cases s label
  · rw [heq]
    obtain heq | ⟨_, -, -, heq⟩ | ⟨service, call, -, -, happly⟩ := step_cases s lifecycle
    · exact settles_of_ledger (by rw [heq])
    · exact settles_of_ledger (by rw [heq])
    · obtain ⟨-, -, hledger | ⟨settlement, runId, reason, obligations, r, r', context, disposition, -, hr,
        -, -, -, hcancel, hruns⟩⟩ := apply_ledger happly
      · exact settles_of_ledger hledger
      · obtain ⟨hmem, hrid⟩ := run?_mem hr
        obtain ⟨hsubset, houtcomes⟩ := cancelRun_settled hrid.symm hcancel
        have hmem' : r' ∈ (s.step lifecycle).runs := by
          rw [hruns]
          exact setRun_mem h hmem (cancelRun_statements hcancel).grows.runId
        refine ⟨hsubset, fun o ho => (houtcomes o ho).imp_right ?_⟩
        rintro ⟨q, hq, hoid, hqid, hterminal⟩
        exact ⟨q, hq, hoid, r', hmem', hqid.symm, hterminal⟩
  · exact settles_of_ledger (by rw [heq])
  · cases call with
    | recordStopIntent q =>
      simp only [Store.applyLedger, Store.recordStopIntent, bind_eq_ok, pure_eq_ok] at happly
      obtain ⟨ledger, hrecord, heq⟩ := happly
      rw [← heq]
      refine ⟨(StopLedger.recordStopIntent_requests hrecord).1, fun o ho => .inl ?_⟩
      obtain ⟨-, rfl⟩ | ⟨-, -, -, rfl⟩ := StopLedger.recordStopIntent_cases hrecord
      · exact ho
      · exact ho
    | stopRun q occurredAtUs completedAtUs outcomeAuditRef =>
      simp only [Store.applyLedger, except_map_eq_ok, Prod.exists] at happly
      obtain ⟨_, settlement, hstop, heq⟩ := happly
      obtain ⟨found, hledger, -, -, hruns⟩ := stopRun_runs hstop
      rw [← heq]
      obtain ⟨hsubset, hq, houtcomes⟩ := StopLedger.stopRun_outcomes hledger
      refine ⟨hsubset, fun o ho => (houtcomes o ho).imp_right ?_⟩
      rintro ⟨hoid, r', hfound, hterminal⟩
      obtain ⟨r, hr, hstatements⟩ := stopRun_statements hledger hfound
      obtain ⟨hmem, hrid⟩ := run?_mem hr
      have hid := hstatements.grows.runId
      obtain ⟨hnone, -⟩ | ⟨x, hx, hruns⟩ := hruns
      · rw [hfound] at hnone
        cases hnone
      · obtain rfl := Option.some.inj (hfound.symm.trans hx)
        refine ⟨q, hq, hoid, r', ?_, hid.trans hrid, hterminal⟩
        rw [hruns]
        exact setRun_mem h hmem hid
    | recordAudit auditRef =>
      simp only [Store.applyLedger, pure_eq_ok] at happly
      rw [← happly]
      exact settles_of_ledger rfl

/-- A step keeps the runs of settled requests ended. -/
theorem closed_ledgerStep (s : Store) (label : LedgerLabel) (h : s.Keyed ∧ s.Closed) :
    (s.ledgerStep label).Keyed ∧ (s.ledgerStep label).Closed := by
  obtain ⟨hkeyed', hgrows⟩ := h.1.ledgerStep label
  obtain ⟨hsubset, houtcomes⟩ := h.1.settles_ledgerStep label
  refine ⟨hkeyed', fun q hq o ho hid => ?_⟩
  have hsame : ∀ x ∈ (s.ledgerStep label).ledger.requests, o.stopRequestId = x.stopRequestId → x = q :=
    fun x hx hxid => List.inj_on_of_nodup_map hkeyed'.ledger.requests hx hq (hxid.symm.trans hid)
  rcases houtcomes o ho with hold | ⟨x, hx, hxid, hended⟩
  · obtain ⟨x, hx, hxid⟩ := h.1.ledger.referenced o hold
    obtain rfl := hsame x (hsubset hx) hxid.symm
    exact h.1.ended hgrows (h.2 x hx o hold hid)
  · obtain rfl := hsame x hx hxid
    exact hended

/-! ## What opens an attempt -/

def Opens (s : Store) (runId : String) : Prop :=
  ∃ service s' claim, claim.runId = runId ∧
    ((∃ nowUs, s.claimNext service nowUs = .ok (s', some claim)) ∨
      (∃ ended nowUs jobUs, s.complete service ended nowUs jobUs = .ok (s', some claim)) ∨
      ∃ ended retryable nowUs jobUs, s.fail service ended retryable nowUs jobUs = .ok (s', some claim))

theorem openAttempt_clear {authority : Authority} {stop : Except RuntimeError (Option RunStopRequest)}
    {runStepId : String} {nowUs : Nat} {claim : RuntimeClaim}
    (h : r.openAttempt authority stop runStepId nowUs = .ok (r', claim)) :
    stop = .ok none ∧ claim.runId = r.runId := by
  simp only [Run.openAttempt, bind_eq_ok, require_eq_ok, exists_unit, pure_eq_ok, Prod.mk.injEq] at h
  obtain ⟨pending, hpending, rfl, running, -, started, -, told, -, -, rfl⟩ := h
  exact ⟨hpending, rfl⟩

theorem requireOpenClaim_live {claim : RuntimeClaim} (h : r.requireOpenClaim claim = .ok ()) :
    r.terminal = false := by
  simp only [Run.requireOpenClaim, bind_eq_ok, exists_unit, require_eq_ok] at h
  rw [Run.terminal]
  cases hstatus : r.status with
  | none => rfl
  | some status => simpa [hstatus] using h.1

/-- The run a claim is opened of is live and carries no unsettled stop. -/
theorem Opens.clear {runId : String} (h : s.Opens runId) :
    s.ledger.openRequests runId = [] ∧ ∃ r ∈ s.runs, r.runId = runId ∧ r.terminal = false := by
  obtain ⟨service, s', claim, hclaimed, hcall⟩ := h
  suffices hclear : ∃ r ∈ s.runs, r.terminal = false ∧ claim.runId = r.runId ∧
      s.ledger.readUnsettledStopRequest r.runId = .ok none by
    obtain ⟨r, hr, hlive, hid, hnone⟩ := hclear
    rw [StopLedger.readUnsettledStopRequest_eq_ok] at hnone
    exact ⟨by rw [← hclaimed, hid, hnone]; rfl, r, hr, hid.symm.trans hclaimed, hlive⟩
  rcases hcall with ⟨nowUs, h⟩ | ⟨ended, nowUs, jobUs, h⟩ | ⟨ended, retryable, nowUs, jobUs, h⟩
  · simp only [claimNext, bind_eq_ok, exists_unit] at h
    obtain ⟨-, selected, hselected, h⟩ := h
    split at h
    · cases h
    next r runStepId =>
      simp only [bind_eq_ok, pure_eq_ok, Prod.exists, Prod.mk.injEq, Option.some.injEq] at h
      obtain ⟨r', claim', hclaim, -, rfl⟩ := h
      obtain ⟨hmem, hlive, -⟩ := selectClaimable_mem hselected
      simp only [Run.claimNext, bind_eq_ok] at hclaim
      obtain ⟨job, -, hopened⟩ := hclaim
      obtain ⟨hstop, hid⟩ := openAttempt_clear hopened
      exact ⟨r, (List.mem_filter.1 (mem_sortBy.1 hmem)).1, hlive, hid, hstop⟩
  · simp only [complete, bind_eq_ok, exists_unit] at h
    obtain ⟨-, -, h⟩ := h
    split at h
    · cases h
    next r hr =>
      simp only [bind_eq_ok, pure_eq_ok, Prod.exists, Prod.mk.injEq] at h
      obtain ⟨r', next, hcomplete, -, rfl⟩ := h
      simp only [Run.complete, bind_eq_ok, exists_unit] at hcomplete
      obtain ⟨hopen, finished, hfinished, settled, hsettled, hrest⟩ := hcomplete
      have hid := ((Run.Statement.outcome hfinished).grows.runId)
      have hid' := ((Run.Statement.stepStatus hsettled).grows.runId)
      split at hrest
      · split at hrest
        · cases hrest
        · simp only [bind_eq_ok, pure_eq_ok, Prod.exists, Prod.mk.injEq, Option.some.injEq] at hrest
          obtain ⟨advanced, next, hopened, -, rfl⟩ := hrest
          obtain ⟨hstop, hnext⟩ := openAttempt_clear hopened
          exact ⟨r, (run?_mem hr).1, requireOpenClaim_live hopen, hnext.trans (hid'.trans hid), hstop⟩
      · simp only [bind_eq_ok, pure_eq_ok, Prod.mk.injEq] at hrest
        obtain ⟨_, -, -, hnone⟩ := hrest
        cases hnone
  · simp only [fail, bind_eq_ok, exists_unit] at h
    obtain ⟨-, h⟩ := h
    split at h
    · cases h
    next r hr =>
      simp only [bind_eq_ok, pure_eq_ok, Prod.exists, Prod.mk.injEq] at h
      obtain ⟨r', next, hfail, -, rfl⟩ := h
      simp only [Run.fail, bind_eq_ok, exists_unit] at hfail
      obtain ⟨hopen, finished, hfinished, hrest⟩ := hfail
      have hid := ((Run.Statement.outcome hfinished).grows.runId)
      split at hrest
      · simp only [bind_eq_ok, pure_eq_ok, Prod.exists, Prod.mk.injEq, Option.some.injEq] at hrest
        obtain ⟨pending, hpending, retried, next, hopened, -, rfl⟩ := hrest
        have hid' := ((Run.Statement.stepStatus hpending).grows.runId)
        obtain ⟨hstop, hnext⟩ := openAttempt_clear hopened
        exact ⟨r, (run?_mem hr).1, requireOpenClaim_live hopen, hnext.trans (hid'.trans hid), hstop⟩
      · simp only [bind_eq_ok, pure_eq_ok, Prod.mk.injEq] at hrest
        obtain ⟨_, -, -, hnone⟩ := hrest
        cases hnone

/-- Once a run carries an unsettled stop, no attempt of it is opened again: in every later store it carries
one still, or it has ended. -/
theorem stop_honoured (holder : Authority) (labels later : List LedgerLabel) {runId : String}
    (hopen : (run ledgerStep (empty holder) labels).ledger.openRequests runId ≠ []) :
    ((run ledgerStep (empty holder) (labels ++ later)).ledger.openRequests runId ≠ [] ∨
      (run ledgerStep (empty holder) (labels ++ later)).Ended runId) ∧
    ¬(run ledgerStep (empty holder) (labels ++ later)).Opens runId := by
  have hkeyed := ledgerRun_keyed holder labels
  have hclosed := run_invariant (P := fun s : Store => s.Keyed ∧ s.Closed) closed_ledgerStep
    ⟨keyed_empty holder, fun q hq => absurd hq List.not_mem_nil⟩ (labels ++ later)
  have hrequests : {q | q ∈ (run ledgerStep (empty holder) labels).ledger.requests} ⊆
      {q | q ∈ (run ledgerStep (run ledgerStep (empty holder) labels) later).ledger.requests} :=
    run_monotone (f := fun s : Store => {q | q ∈ s.ledger.requests}) (I := Keyed)
      (fun s label h => (h.ledgerStep label).1) (fun s label h => (h.settles_ledgerStep label).1) hkeyed later
  rw [← run_append] at hrequests
  generalize run ledgerStep (empty holder) (labels ++ later) = s at hclosed hrequests ⊢
  obtain ⟨q, hq⟩ := List.exists_mem_of_ne_nil _ hopen
  obtain ⟨hmem, hrun, -⟩ := StopLedger.mem_openRequests.1 hq
  have hbarred : s.ledger.openRequests runId ≠ [] ∨ s.Ended runId := by
    cases houtcome : s.ledger.outcome? q.stopRequestId with
    | none => exact .inl (List.ne_nil_of_mem (StopLedger.mem_openRequests.2 ⟨hrequests hmem, hrun, houtcome⟩))
    | some o =>
      have hid : o.stopRequestId = q.stopRequestId := by simpa using List.find?_some houtcome
      exact .inr (hrun ▸ hclosed.2 q (hrequests hmem) o (List.mem_of_find?_eq_some houtcome) hid)
  refine ⟨hbarred, fun hopens => ?_⟩
  obtain ⟨hnone, r, hr, hid, hlive⟩ := hopens.clear
  rcases hbarred with hsome | ⟨x, hx, hxid, hterminal⟩
  · exact hsome hnone
  · obtain rfl := List.inj_on_of_nodup_map hclosed.1.ids hx hr (hxid.trans hid.symm)
    rw [hlive] at hterminal
    cases hterminal

/-- A stop is recorded and the run is stopped under it: it is not claimed again. -/
theorem stop_honoured_recorded : ¬(run ledgerStep (empty ⟨"service-1", 1⟩)
    ([startedRun, .ledger ⟨"service-1", 1⟩ (.recordStopIntent (runStop "stop-1"))] ++
      [stoppedRun])).Opens "run-1" :=
  (stop_honoured ⟨"service-1", 1⟩
    [startedRun, .ledger ⟨"service-1", 1⟩ (.recordStopIntent (runStop "stop-1"))] [stoppedRun]
    (by decide +kernel)).2

end Store

end OmniviaCore.Runtime
