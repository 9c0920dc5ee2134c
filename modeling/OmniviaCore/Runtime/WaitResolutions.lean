import OmniviaCore.Runtime.StopIntegrity
import OmniviaCore.Runtime.Histories

/-!
# A wait is resolved once

A stored resolution is never rewritten (`Statements.resolved`), and an accepted command answers with the
resolution its wait then holds (`Run.settleWait_answer`). So whatever is done between two accepted commands on
one wait, by competing resolvers, by a cancellation or by a recovery that adopts the wait, they are answered
alike, and what they are answered was settled on the right side of the deadline (`Wait.Timely`).
-/

namespace OmniviaCore.Runtime

open Lib
open Jobs (Authority)

variable {r r' : Run} {w : Wait} {command : ResolveWait} {policy : ResolutionPolicy} {answer : WaitAnswer}

/-! ## Deadlines -/

/-- What the wait stores came in time: an outcome not after its deadline, an expiry not before it. -/
def Wait.Timely (w : Wait) : Prop :=
  ∀ res, w.resolution = some res →
    (res.status = .resolved → ∀ e, w.expiresAtUs = some e → res.resolvedAtUs ≤ e) ∧
    (res.status = .expired → ∃ e, w.expiresAtUs = some e ∧ e ≤ res.resolvedAtUs)

namespace Run

def Timely (r : Run) : Prop := ∀ w ∈ r.waits, w.Timely

theorem closeWait_timely {waitId : String} {res : WaitResolution} (hr : r.Timely)
    (h : r.closeWait waitId res = .ok r') : r'.Timely := by
  obtain ⟨v, hv⟩ := closeWait_found h
  obtain ⟨⟨-, -, -, -, hresolved, hexpired, -⟩, rfl⟩ := (closeWait_eq_ok hv).1 h
  intro w hw
  obtain ⟨x, hx, rfl⟩ := List.mem_map.1 hw
  split
  · rintro res' ⟨⟩
    refine ⟨fun hstatus e he => ?_, fun hstatus => ?_⟩
    · have hle := hresolved.resolve_left (not_not.2 hstatus)
      rw [show v.expiresAtUs = some e from he] at hle
      simpa using hle
    · have hle := hexpired.resolve_left (not_not.2 hstatus)
      obtain ⟨e, he, hle⟩ := (Option.any_eq_true _ _).1 hle
      exact ⟨e, he, by simpa using hle⟩
  · exact hr x hx

theorem Statement.timely (h : Statement r r') (hr : r.Timely) : r'.Timely := by
  cases h with
  | stepStatus h =>
    obtain ⟨st, hst⟩ := recordStepStatus_found h
    obtain ⟨-, rfl⟩ := (recordStepStatus_eq_ok hst).1 h
    exact hr
  | attempt h =>
    obtain ⟨st, hst⟩ := startAttempt_found h
    obtain ⟨-, rfl⟩ := (startAttempt_eq_ok hst).1 h
    exact hr
  | outcome h =>
    obtain ⟨st, hst⟩ := finishAttempt_found h
    obtain ⟨a, -, -, rfl⟩ := (finishAttempt_eq_ok hst).1 h
    exact hr
  | wait hnew hpending h =>
    obtain ⟨-, -, rfl⟩ := openWait_eq_ok h
    intro x hx
    rcases List.mem_append.1 hx with hx | hx
    · exact hr x hx
    · obtain rfl := List.mem_singleton.1 hx
      intro res hres
      rw [hpending] at hres
      cases hres
  | resolution h => exact closeWait_timely hr h
  | event h =>
    obtain ⟨-, rfl⟩ := appendRunEvent_eq_ok.1 h
    exact hr
  | job job => exact hr

theorem Statements.timely (h : Statements r r') (hr : r.Timely) : r'.Timely := by
  induction h with
  | refl => exact hr
  | tail _ hstep ih => exact hstep.timely ih

/-! ## Answers -/

/-- A command that is accepted is answered with what its wait then stores, and rewrites no resolution. -/
theorem settleWait_answer {settledAtUs : Nat} (hkeyed : r.Keyed) (hw : w ∈ r.waits)
    (h : r.settleWait command policy w settledAtUs = .ok (r', answer)) :
    ∃ w' ∈ r'.waits, w'.waitId = w.waitId ∧ (w.resolution ≠ none → w' = w) ∧
      ∃ res, w'.resolution = some res ∧ answer = w'.answer r.runId res := by
  unfold settleWait at h
  split at h
  · cases h
  next status hstatus =>
    simp only [bind_eq_ok, exists_unit] at h
    obtain ⟨-, -, h⟩ := h
    split at h
    next res hres =>
      -- a replay: the stored resolution answers, and nothing is written
      simp only [replayResolution, bind_eq_ok, exists_unit, pure_eq_ok, Prod.mk.injEq] at h
      obtain ⟨_, ⟨-, approval, -, -, rfl⟩, rfl, rfl⟩ := h
      exact ⟨w, hw, rfl, fun _ => rfl, res, hres, rfl⟩
    next hnone =>
      simp only [settlePending, resume, bind_eq_ok, exists_unit, mapError_eq_ok, pure_eq_ok,
        Prod.mk.injEq] at h
      obtain ⟨-, -, approval, -, -, resumed, ⟨closed, hclosed, running, hrunning, htold⟩, rfl, rfl⟩ := h
      have hfound : r.wait? w.waitId = some w := hkeyed.waits.find? hw rfl
      have hclosing := Statement.resolution hclosed
      have hrest : Statements closed resumed :=
        (Statement.single (.stepStatus hrunning)).trans (.single (.event htold))
      obtain ⟨-, rfl⟩ := (closeWait_eq_ok hfound).1 hclosed
      let w' : Wait := { w with resolution := some (command.storedResolution status settledAtUs) }
      obtain ⟨before, after, -, hwaits⟩ := setWait_waits hkeyed.waits hw (show w'.waitId = w.waitId from rfl)
      have hmem : w' ∈ (r.setWait w').waits := by simp [hwaits]
      exact ⟨w', hrest.resolved (hclosing.keyed hkeyed) hmem (Option.some_ne_none _), rfl,
        fun hsome => absurd hnone hsome, _, rfl, rfl⟩

end Run

/-! ## Stores -/

namespace Store

variable {s s' : Store} {settlement : Settlement} {expected : Expectation}

def Timely (s : Store) : Prop := ∀ r ∈ s.runs, r.Timely

theorem Timely.apply {service : RuntimeScheduler} {call : Call} (hkeyed : s.Keyed) (h : s.Timely)
    (happly : s.apply service call = .ok s') : s'.Timely :=
  (apply_called hkeyed.ids happly).forall h (fun _ _ _ _ _ _ hw => absurd hw List.not_mem_nil)
    fun r hr _ hoperated => hoperated.statements.timely (h r hr)

theorem timely_ledgerStep (s : Store) (label : LedgerLabel) (h : s.Keyed ∧ s.Timely) :
    (s.ledgerStep label).Keyed ∧ (s.ledgerStep label).Timely := by
  refine ⟨(h.1.ledgerStep label).1, ?_⟩
  obtain ⟨lifecycle, -, heq⟩ | heq | ⟨authority, call, -, happly⟩ := ledgerStep_cases s label
  · rw [heq]
    obtain heq | ⟨_, -, -, heq⟩ | ⟨service, call, -, -, happly⟩ := step_cases s lifecycle
    · rw [heq]
      exact h.2
    · rw [heq]
      exact h.2
    · exact h.2.apply h.1 happly
  · rw [heq]
    exact h.2
  · cases call with
    | recordStopIntent q =>
      simp only [Store.applyLedger, Store.recordStopIntent, bind_eq_ok, pure_eq_ok] at happly
      obtain ⟨ledger, -, heq⟩ := happly
      rw [← heq]
      exact h.2
    | stopRun q occurredAtUs completedAtUs outcomeAuditRef =>
      simp only [Store.applyLedger, except_map_eq_ok, Prod.exists] at happly
      obtain ⟨_, settlement, hstop, heq⟩ := happly
      obtain ⟨found, hledger, -, -, ⟨-, hruns⟩ | ⟨r', hfound, hruns⟩⟩ := stopRun_runs hstop
      · rw [← heq, Timely, hruns]
        exact h.2
      · obtain ⟨r, hr, hstatements⟩ := stopRun_statements hledger hfound
        have hmem := (run?_mem hr).1
        rw [← heq, Timely, hruns]
        intro x hx
        obtain ⟨y, hy, rfl | ⟨rfl, rfl⟩⟩ :=
          exists_of_forall₂_right (setRun_runs h.1.ids hmem hstatements.grows.runId) hx
        · exact h.2 _ hy
        · exact hstatements.timely (h.2 _ hy)
    | recordAudit auditRef =>
      simp only [Store.applyLedger, pure_eq_ok] at happly
      rw [← happly]
      exact h.2

/-- The run and the wait an accepted command was settled on. -/
theorem resolveWait_settled (h : s.resolveWait settlement expected command policy = .ok (s', answer)) :
    ∃ r ∈ s.runs, r.runId = command.runId ∧ ∃ w, r.wait? command.waitId = some w ∧
      ∃ r', r.settleWait command policy w settlement.settledAtUs = .ok (r', answer) ∧
        s'.runs = (s.setRun r').runs := by
  simp only [resolveWait, recordCommand, bind_eq_ok, exists_unit] at h
  obtain ⟨claimed, hclaimed, -, h⟩ := h
  obtain ⟨-, rfl⟩ := recordClaim_eq_ok hclaimed
  split at h
  · cases h
  next r hr =>
    simp only [bind_eq_ok, exists_unit] at h
    obtain ⟨-, h⟩ := h
    split at h
    · cases h
    next w hw =>
      simp only [bind_eq_ok, mapError_eq_ok, pure_eq_ok, Prod.exists, Prod.mk.injEq] at h
      obtain ⟨r', _, hsettle, rfl, rfl⟩ := h
      obtain ⟨hmem, hid⟩ := run?_mem hr
      exact ⟨r, hmem, hid, w, hw, r', hsettle, rfl⟩

/-- A wait has one resolution: in every store after a command on it was accepted it holds the resolution that
was answered, settled in time, and any other command that is accepted on it is answered the same. -/
theorem waits_resolve_once (holder : Authority) (labels later : List LedgerLabel)
    (h : (run ledgerStep (empty holder) labels).resolveWait settlement expected command policy =
      .ok (s', answer)) :
    (∃ r ∈ (run ledgerStep s' later).runs, r.runId = command.runId ∧
      ∃ w, r.wait? command.waitId = some w ∧ w.Timely ∧
        ∃ res, w.resolution = some res ∧ answer = w.answer r.runId res) ∧
    ∀ settlement' expected' command' policy' s'' answer', command'.runId = command.runId →
      command'.waitId = command.waitId →
      (run ledgerStep s' later).resolveWait settlement' expected' command' policy' = .ok (s'', answer') →
        answer' = answer := by
  have hreached := run_invariant timely_ledgerStep
    (show (empty holder).Keyed ∧ (empty holder).Timely from
      ⟨keyed_empty holder, fun r hr => absurd hr List.not_mem_nil⟩) labels
  generalize run ledgerStep (empty holder) labels = s at h hreached
  obtain ⟨hkeyed, htimely⟩ := hreached
  have happly : s.apply ⟨holder, fun _ _ => false, none, false⟩
      (.resolveWait settlement expected command policy) = .ok s' := by
    rw [apply, h]
    rfl
  have hreached' := run_invariant timely_ledgerStep ⟨hkeyed.apply happly, htimely.apply hkeyed happly⟩ later
  have hgrows := (hkeyed.apply happly).ledgerRun_grows later
  generalize run ledgerStep s' later = t at hreached' hgrows ⊢
  obtain ⟨hkeyed', htimely'⟩ := hreached'
  -- where the command was settled, and what is left of that in the later store
  obtain ⟨r, hr, hid, w, hw, r', hsettle, hruns⟩ := resolveWait_settled h
  obtain ⟨w', hw', hwid, -, res, hres, rfl⟩ :=
    Run.settleWait_answer (hkeyed.runs r hr) (Run.wait?_mem hw).1 hsettle
  have hsettled := Run.settleWait_statements hsettle
  have hr' : r' ∈ s'.runs :=
    hruns ▸ (run?_mem (setRun_run? hkeyed.ids hr hsettled.grows.runId)).1
  obtain ⟨r'', hr'', hstatements⟩ := hgrows r' hr'
  have hrid : r''.runId = r.runId := hstatements.grows.runId.trans hsettled.grows.runId
  have hw'' : w' ∈ r''.waits := hstatements.resolved (hsettled.keyed (hkeyed.runs r hr)) hw'
    (hres ▸ Option.some_ne_none res)
  have hfound : r''.wait? command.waitId = some w' :=
    (hkeyed'.runs r'' hr'').waits.find? hw'' (hwid.trans (Run.wait?_mem hw).2)
  refine ⟨⟨r'', hr'', hrid.trans hid, w', hfound, htimely' r'' hr'' w' hw'', res, hres, by rw [hrid]⟩, ?_⟩
  intro settlement' expected' command' policy' s'' answer' hrun hwait h'
  obtain ⟨x, hx, hxid, v, hv, x', hsettle', -⟩ := resolveWait_settled h'
  obtain rfl : x = r'' :=
    List.inj_on_of_nodup_map hkeyed'.ids hx hr'' (hxid.trans (hrun.trans (hid.symm.trans hrid.symm)))
  obtain rfl : w' = v := Option.some.inj (hfound.symm.trans (hwait ▸ hv))
  obtain ⟨w'', -, -, hsame, res', hres', rfl⟩ :=
    Run.settleWait_answer (hkeyed'.runs x hx) hw'' hsettle'
  obtain rfl := hsame (hres ▸ Option.some_ne_none res)
  obtain rfl := Option.some.inj (hres.symm.trans hres')
  rw [hrid]

def awaitSignal : List LedgerLabel :=
  (startAndClaim ++ [Label.call (schedulerOf firstHolder)
    (.openWait ⟨"claim-2", "audit-2", "owner", 30⟩ "run-1" ⟨"run-1", 1⟩ signalWait)]).map .lifecycle

def signalReceived : ResolveWait :=
  ⟨"workspace-1", "run-1", "wait-1", .externalSignal, signalWait.resumeDigest, true, "signal_received", none⟩

theorem waits_resolve_once_signal :
    ∃ s answer, (run ledgerStep (empty firstHolder) awaitSignal).resolveWait
        ⟨"claim-3", "audit-3", "owner", 40⟩ ⟨"run-1", 2⟩ signalReceived (fun _ _ => some none) =
          .ok (s, answer) ∧
      ∃ r ∈ s.runs, r.runId = "run-1" ∧ ∃ w, r.wait? "wait-1" = some w ∧ w.Timely ∧
        ∃ res, w.resolution = some res ∧ answer = w.answer r.runId res := by
  have haccepted : ((run ledgerStep (empty firstHolder) awaitSignal).resolveWait
      ⟨"claim-3", "audit-3", "owner", 40⟩ ⟨"run-1", 2⟩ signalReceived (fun _ _ => some none)).isOk = true := by
    decide +kernel
  obtain ⟨⟨s, answer⟩, haccepted⟩ := exists_ok_of_isOk haccepted
  exact ⟨s, answer, haccepted, (waits_resolve_once firstHolder awaitSignal [] haccepted).1⟩

end Store

end OmniviaCore.Runtime
