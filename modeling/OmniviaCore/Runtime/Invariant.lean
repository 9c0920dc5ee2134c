import OmniviaCore.Runtime.Operations
import OmniviaCore.Runtime.Phases

/-!
# The invariant of the store

What the writers of the stop ledger do to it: record a request, tell of its progress and cleanup, or
settle it. Requests and outcomes keep their keys and references (`StopLedger.Keyed`) under each.

Every store a workspace reaches is `Keyed`, also when the stop ledger is called by itself, and while it is
not, each of its runs is `Sound` under the generation on record (`Store.sound`).
-/

namespace OmniviaCore.Runtime

section

open Lib

variable {l l' : StopLedger} {q : RunStopRequest} {auditRefs : List String} {r r' : Run} {nowUs : Nat}

namespace StopLedger

/-- One row of the stop ledger written. -/
inductive Step (auditRefs : List String) : StopLedger → StopLedger → Prop where
  | recorded {l : StopLedger} (q : RunStopRequest) (hnew : l.request? q.stopRequestId = none)
      (haudit : q.auditRef ∈ auditRefs) : Step auditRefs l { l with requests := l.requests ++ [q] }
  | observed {l : StopLedger} (progress : List StopProgress) (receipts : List StopCleanupReceipt) :
      Step auditRefs l { l with progress := l.progress ++ progress, receipts }
  | settled {l : StopLedger} (o : RunStopOutcome) (hnew : l.outcome? o.stopRequestId = none)
      (hrequest : ∃ q ∈ l.requests, q.stopRequestId = o.stopRequestId) :
      Step auditRefs l { l with outcomes := l.outcomes ++ [o] }

def Steps (auditRefs : List String) : StopLedger → StopLedger → Prop :=
  Relation.ReflTransGen (Step auditRefs)

theorem Steps.refl (l : StopLedger) : Steps auditRefs l l := Relation.ReflTransGen.refl

theorem Step.single (h : Step auditRefs l l') : Steps auditRefs l l' := Relation.ReflTransGen.single h

theorem Steps.trans {l'' : StopLedger} (h : Steps auditRefs l l') (h' : Steps auditRefs l' l'') :
    Steps auditRefs l l'' :=
  Relation.ReflTransGen.trans h h'

theorem Keyed.mono {auditRefs' : List String} (h : l.Keyed auditRefs)
    (hsubset : auditRefs ⊆ auditRefs') : l.Keyed auditRefs' :=
  { h with audited := fun q hq => hsubset (h.audited q hq) }

theorem request?_mem {id : String} (h : l.request? id = some q) :
    q ∈ l.requests ∧ q.stopRequestId = id :=
  ⟨List.mem_of_find?_eq_some h, by simpa using List.find?_some h⟩

theorem Step.keyed (h : Step auditRefs l l') (hl : l.Keyed auditRefs) : l'.Keyed auditRefs := by
  cases h with
  | recorded q hnew haudit =>
    have hfresh : ∀ x ∈ l.requests, x.stopRequestId ≠ q.stopRequestId := by
      simpa [request?] using hnew
    refine ⟨hl.requests.concat hfresh, hl.outcomes, ?_, ?_⟩
    · intro o ho
      obtain ⟨x, hx, hid⟩ := hl.referenced o ho
      exact ⟨x, List.mem_append_left _ hx, hid⟩
    · intro x hx
      rcases List.mem_append.1 hx with hx | hx
      · exact hl.audited x hx
      · rw [List.mem_singleton.1 hx]
        exact haudit
  | observed progress receipts => exact ⟨hl.requests, hl.outcomes, hl.referenced, hl.audited⟩
  | settled o hnew hrequest =>
    have hfresh : ∀ x ∈ l.outcomes, x.stopRequestId ≠ o.stopRequestId := by
      simpa [outcome?] using hnew
    refine ⟨hl.requests, hl.outcomes.concat hfresh, ?_, hl.audited⟩
    intro x hx
    rcases List.mem_append.1 hx with hx | hx
    · exact hl.referenced x hx
    · rw [List.mem_singleton.1 hx]
      exact hrequest

theorem Steps.keyed (h : Steps auditRefs l l') (hl : l.Keyed auditRefs) : l'.Keyed auditRefs := by
  induction h with
  | refl => exact hl
  | tail _ hstep ih => exact hstep.keyed ih

/-! ## What a writer writes -/

section

variable {found found' : Option Run} {occurredAtUs completedAtUs : Nat}
  {outcomeAuditRef : Option String} {settlement : RunStopOutcome}

theorem recordStopIntent_steps (h : l.recordStopIntent found auditRefs q = .ok l') :
    Steps auditRefs l l' ∧ l'.request? q.stopRequestId = some q := by
  obtain ⟨hsome, rfl⟩ | ⟨hnone, haudit, -, rfl⟩ := recordStopIntent_cases h
  · exact ⟨.refl _, hsome⟩
  · refine ⟨Step.single (.recorded q hnone haudit), ?_⟩
    simp only [request?] at hnone ⊢
    simp [List.find?_append, hnone]

theorem settleStop_steps
    (h : l.settleStop r auditRefs q occurredAtUs completedAtUs outcomeAuditRef =
      .ok (l', r', settlement)) (hq : l.request? q.stopRequestId = some q) :
    Steps auditRefs l l' := by
  obtain ⟨hid, hnone, rfl, -⟩ := settleStop_cases h
  exact Step.single (.settled settlement (by rw [hid]; exact hnone)
    ⟨q, (request?_mem hq).1, hid.symm⟩)

theorem stopRun_steps (h : l.stopRun found auditRefs q occurredAtUs completedAtUs outcomeAuditRef =
    .ok (l', found', settlement)) : Steps auditRefs l l' := by
  obtain ⟨recorded, hrecorded, h⟩ := stopRun_cases h
  obtain ⟨hsteps, hq⟩ := recordStopIntent_steps hrecorded
  obtain ⟨-, rfl, -⟩ | ⟨-, r, r', -, -, hsettle⟩ := h
  · exact hsteps
  · exact hsteps.trans (settleStop_steps hsettle hq)

end

end StopLedger

section Cancel

variable {context : CancelContext} {disposition : CancelDisposition} {command : CancelCommand}
  {reason : String}

theorem settleStopOf_steps
    (h : settleStopOf context l r q reason nowUs = .ok (l', r', disposition)) :
    StopLedger.Steps context.auditRefs l l' := by
  obtain ⟨settlement, stopped, hstop, -⟩ := settleStopOf_cases h
  exact StopLedger.stopRun_steps hstop

theorem cancelRun_steps (h : cancelRun context l r command nowUs = .ok (l', r', disposition)) :
    StopLedger.Steps context.auditRefs l l' := by
  obtain ⟨pending, -, ⟨-, h⟩ | ⟨-, h⟩⟩ := cancelRun_cases h
  · exact settleStopOf_steps h
  · obtain ⟨intended, p, hintended, -, h | h⟩ := cancelLive_cases h
    · obtain ⟨rfl, -, -⟩ := pendingCancellation_cases h
      exact (StopLedger.recordStopIntent_steps hintended).1.trans (StopLedger.Step.single (.observed ..))
    · obtain ⟨released, receipts, -, h⟩ := releaseAndSettle_cases h
      have hobserved : StopLedger.Steps context.auditRefs intended
          { intended with progress := intended.progress ++ [p], receipts } :=
        StopLedger.Step.single (.observed ..)
      exact (StopLedger.recordStopIntent_steps hintended).1.trans
        (hobserved.trans (settleStopOf_steps h))

end Cancel

end

/-! ## The invariant of the store -/

section

open Lib
open Jobs (Authority)

/-- The keys of the store, of its runs and of its stop ledger. -/
structure Store.Keyed (s : Store) : Prop where
  ids : Unique Run.runId s.runs
  runs : ∀ r ∈ s.runs, r.Keyed
  ledger : s.ledger.Keyed s.auditRefs

namespace Store

variable {s s' : Store} {service : RuntimeScheduler} {call : Call} {r r' : Run}

/-! ## What a step is -/

/-- A step is a takeover, a call that went through, or nothing. -/
theorem step_cases (s : Store) (label : Label) :
    s.step label = s ∨
      (∃ authority, label = .takeover authority ∧
        s.holder.fencingGeneration < authority.fencingGeneration ∧
        s.step label = { s with holder := authority }) ∨
      ∃ service call, label = .call service call ∧ service.authority = s.holder ∧
        s.apply service call = .ok (s.step label) := by
  cases label with
  | takeover authority =>
    simp only [step]
    split
    next hlt => exact .inr (.inl ⟨authority, rfl, hlt, rfl⟩)
    next => exact .inl rfl
  | call service call =>
    simp only [step]
    cases hperform : s.perform service call with
    | error e => exact .inl rfl
    | ok s' =>
      simp only [perform, bind_eq_ok, require_eq_ok, exists_unit] at hperform
      exact .inr (.inr ⟨service, call, rfl, hperform.1, hperform.2⟩)

/-- What a call did to the relations beside the runs: a cancellation alone writes the stop ledger. -/
theorem apply_ledger (h : s.apply service call = .ok s') :
    s'.holder = s.holder ∧ s.auditRefs ⊆ s'.auditRefs ∧
      (s'.ledger = s.ledger ∨
        ∃ settlement runId reason obligations r r' context disposition,
          call = .cancel settlement runId reason obligations ∧ s.run? runId = some r ∧
          settlement.auditRef ∉ s.auditRefs ∧ context.auditRefs = s'.auditRefs ∧
          context.authority = service.authority ∧
          cancelRun context s.ledger r ⟨runId, settlement.claimId, settlement.auditRef,
            settlement.principalId, reason, obligations⟩ settlement.settledAtUs =
              .ok (s'.ledger, r', disposition) ∧ s'.runs = (s.setRun r').runs) := by
  cases call with
  | start settlement runId runStepIds =>
    simp only [apply, start, recordCommand, bind_eq_ok, require_eq_ok, exists_unit, pure_eq_ok] at h
    obtain ⟨claimed, hclaimed, -, -, -, rfl⟩ := h
    obtain ⟨-, rfl⟩ := recordClaim_eq_ok hclaimed
    exact ⟨rfl, List.subset_append_left .., .inl rfl⟩
  | claimNext nowUs =>
    simp only [apply, claimNext, except_map_eq_ok, bind_eq_ok, exists_unit] at h
    obtain ⟨_, ⟨-, selected, -, h⟩, rfl⟩ := h
    split at h
    · obtain rfl := pure_eq_ok.1 h
      exact ⟨rfl, List.Subset.refl _, .inl rfl⟩
    · simp only [bind_eq_ok, pure_eq_ok, Prod.exists] at h
      obtain ⟨r', claim, -, rfl⟩ := h
      exact ⟨rfl, List.Subset.refl _, .inl rfl⟩
  | complete claim nowUs jobUs =>
    simp only [apply, complete, except_map_eq_ok, bind_eq_ok, exists_unit] at h
    obtain ⟨_, ⟨-, -, h⟩, rfl⟩ := h
    split at h
    · cases h
    · simp only [bind_eq_ok, pure_eq_ok, Prod.exists] at h
      obtain ⟨r', next, -, rfl⟩ := h
      exact ⟨rfl, List.Subset.refl _, .inl rfl⟩
  | fail claim retryable nowUs jobUs =>
    simp only [apply, fail, except_map_eq_ok, bind_eq_ok, exists_unit] at h
    obtain ⟨_, ⟨-, h⟩, rfl⟩ := h
    split at h
    · cases h
    · simp only [bind_eq_ok, pure_eq_ok, Prod.exists] at h
      obtain ⟨r', next, -, rfl⟩ := h
      exact ⟨rfl, List.Subset.refl _, .inl rfl⟩
  | openWait settlement runId expected wait =>
    simp only [apply, openWait, recordCommand, bind_eq_ok, require_eq_ok, exists_unit] at h
    obtain ⟨claimed, hclaimed, -, h⟩ := h
    obtain ⟨-, rfl⟩ := recordClaim_eq_ok hclaimed
    split at h
    · cases h
    · simp only [bind_eq_ok, pure_eq_ok] at h
      obtain ⟨r', -, rfl⟩ := h
      exact ⟨rfl, List.subset_append_left .., .inl rfl⟩
  | resolveWait settlement expected command policy =>
    simp only [apply, resolveWait, recordCommand, except_map_eq_ok, bind_eq_ok, require_eq_ok,
      exists_unit] at h
    obtain ⟨_, ⟨claimed, hclaimed, -, h⟩, rfl⟩ := h
    obtain ⟨-, rfl⟩ := recordClaim_eq_ok hclaimed
    split at h
    · cases h
    · simp only [bind_eq_ok, require_eq_ok, exists_unit] at h
      obtain ⟨-, h⟩ := h
      split at h
      · cases h
      · simp only [bind_eq_ok, pure_eq_ok, Prod.exists] at h
        obtain ⟨r', answer, -, rfl⟩ := h
        exact ⟨rfl, List.subset_append_left .., .inl rfl⟩
  | cancel settlement runId reason obligations =>
    simp only [apply, cancel, except_map_eq_ok, bind_eq_ok] at h
    obtain ⟨_, ⟨claimed, hclaimed, h⟩, rfl⟩ := h
    obtain ⟨haudit, rfl⟩ := recordClaim_eq_ok hclaimed
    split at h
    · cases h
    next r hr =>
      simp only [bind_eq_ok, pure_eq_ok, Prod.exists] at h
      obtain ⟨l', r', disposition, hcancel, rfl⟩ := h
      refine ⟨rfl, List.subset_append_left .., .inr ?_⟩
      exact ⟨settlement, runId, reason, obligations, r, r', _, disposition, rfl, hr, haudit, rfl, rfl,
        hcancel, rfl⟩
  | recoverStartup adoptedAtUs recoveredAtUs =>
    simp only [apply, recoverStartup, except_map_eq_ok, bind_eq_ok, pure_eq_ok] at h
    obtain ⟨_, ⟨found, -, rfl⟩, rfl⟩ := h
    exact ⟨rfl, List.Subset.refl _, .inl rfl⟩

/-! ## Keys -/

theorem admittedRun_keyed {authority : Authority} {runId : String} {runStepIds : List String}
    {settledAtUs : Nat} (hnodup : runStepIds.Nodup) :
    (admittedRun authority runId runStepIds settledAtUs).Keyed := by
  refine ⟨?_, unique_nil, ?_, ?_⟩
  · unfold Lib.Unique admittedRun
    rw [List.map_map]
    simpa [Function.comp_def] using hnodup
  · simp [admittedRun]
  · simp [admittedRun]

theorem Called.ids {runs : List Run} (h : Called s service call runs)
    (hids : Unique Run.runId s.runs) : Unique Run.runId runs := by
  cases h with
  | admitted hcall hnew hne hnodup =>
    refine hids.concat fun r hr hid => ?_
    have := List.find?_eq_none.1 hnew r hr
    rw [decide_eq_true_eq] at this
    exact this hid
  | operated h =>
    have hmap : runs.map Run.runId = s.runs.map Run.runId := by
      clear hids
      generalize s.runs = old at h
      induction h with
      | nil => rfl
      | cons hr _ ih =>
        rw [List.map_cons, List.map_cons, ih]
        rcases hr with rfl | hr
        · rfl
        · rw [hr.statements.grows.runId]
    unfold Lib.Unique
    rw [hmap]
    exact hids

/-- What holds of every admitted run, and of every run a call left, holds of the runs after it. -/
theorem Called.forall {runs : List Run} {P : Run → Prop} (h : Called s service call runs)
    (hs : ∀ r ∈ s.runs, P r)
    (hadmitted : ∀ runId runStepIds settledAtUs, runStepIds ≠ [] → runStepIds.Nodup →
      P (admittedRun service.authority runId runStepIds settledAtUs))
    (hoperated : ∀ r ∈ s.runs, ∀ r', s.Operated service r call r' → P r') : ∀ r ∈ runs, P r := by
  cases h with
  | admitted hcall hnew hne hnodup =>
    intro r hr
    rcases List.mem_append.1 hr with hr | hr
    · exact hs r hr
    · rw [List.mem_singleton.1 hr]
      exact hadmitted _ _ _ hne hnodup
  | operated h =>
    intro r' hr'
    obtain ⟨r, hr, h⟩ := exists_of_forall₂_right h hr'
    rcases h with rfl | h
    · exact hs _ hr
    · exact hoperated r hr r' h

theorem Keyed.apply (h : s.Keyed) (happly : s.apply service call = .ok s') : s'.Keyed := by
  have hcalled := apply_called h.ids happly
  obtain ⟨-, hsubset, hledger⟩ := apply_ledger happly
  refine ⟨hcalled.ids h.ids, ?_, ?_⟩
  · refine hcalled.forall h.runs ?_ ?_
    · intro runId runStepIds settledAtUs _ hnodup
      exact admittedRun_keyed hnodup
    · intro r hr r' hoperated
      exact hoperated.statements.keyed (h.runs r hr)
  · obtain heq | ⟨settlement, runId, reason, obligations, r, r', context, disposition, -, -, -, hrefs, -,
      hcancel, -⟩ := hledger
    · rw [heq]
      exact h.ledger.mono hsubset
    · have hsteps := cancelRun_steps hcancel
      rw [hrefs] at hsteps
      exact hsteps.keyed (h.ledger.mono hsubset)

theorem Keyed.step (h : s.Keyed) (label : Label) : (s.step label).Keyed := by
  obtain heq | ⟨authority, -, -, heq⟩ | ⟨service, call, -, -, happly⟩ := step_cases s label
  · rw [heq]
    exact h
  · rw [heq]
    exact ⟨h.ids, h.runs, h.ledger⟩
  · exact h.apply happly

theorem keyed_empty (holder : Authority) : (empty holder).Keyed :=
  ⟨unique_nil, fun _ hr => absurd hr List.not_mem_nil,
    ⟨unique_nil, unique_nil, fun _ ho => absurd ho List.not_mem_nil,
      fun _ hq => absurd hq List.not_mem_nil⟩⟩

/-! ## Sound runs -/

theorem admittedRun_sound {authority : Authority} {runId : String} {runStepIds : List String}
    {settledAtUs generation : Nat} (hnodup : runStepIds.Nodup)
    (hgeneration : authority.fencingGeneration = generation) :
    (admittedRun authority runId runStepIds settledAtUs).Sound generation := by
  have hstep : ∀ st ∈ (admittedRun authority runId runStepIds settledAtUs).steps, ∃ runStepId,
      st = ⟨runStepId, settledAtUs, [⟨.pending, settledAtUs⟩], []⟩ := by
    intro st hst
    obtain ⟨runStepId, -, rfl⟩ := List.mem_map.1 hst
    exact ⟨runStepId, rfl⟩
  have hnone : (admittedRun authority runId runStepIds settledAtUs).openAttempts = [] := by
    rw [Run.openAttempts_eq, List.flatMap_eq_nil_iff]
    intro st hst
    obtain ⟨runStepId, rfl⟩ := hstep st hst
    rfl
  refine
    { keyed := admittedRun_keyed hnodup
      created := le_rfl
      steps := ?_
      phase := ?_
      maxAttempts := rfl
      generation := hgeneration.le }
  · refine ⟨?_, ?_, ?_⟩
    · intro st hst
      obtain ⟨runStepId, rfl⟩ := hstep st hst
      exact
        { created := le_rfl
          observed := by simp [admittedRun, Run.horizon]
          numbered := numbered_nil
          begun := by simp
          ended := by simp
          settled := by simp
          active := by simp [RunStep.lastAttempt]
          retriable := by simp [RunStep.lastAttempt]
          closed := by simp [RunStep.closed, StepStatus.terminal] }
    · intro st hst
      obtain ⟨runStepId, rfl⟩ := hstep st hst
      simp
    · intro st hst _
      obtain ⟨runStepId, rfl⟩ := hstep st hst
      simp
  · refine .queued rfl (.queued rfl ?_) rfl hnone rfl
    exact
      { failed := by simp [admittedRun]
        ended := rfl
        observed := rfl
        numbers := by simp [admittedRun]
        ordered := List.Pairwise.nil
        requeued := by simp [admittedRun]
        settled := by simp [admittedRun]
        generations := by simp [admittedRun]
        told := by simp [admittedRun, Run.horizon]
        room := by simp [admittedRun] }

/-- Every run of the store is sound under the generation on record. -/
structure Sound (s : Store) : Prop where
  keyed : s.Keyed
  runs : ∀ r ∈ s.runs, r.Sound s.holder.fencingGeneration

theorem Sound.operated (h : s.Sound) (hservice : service.authority = s.holder) (hr : r ∈ s.runs)
    (hoperated : s.Operated service r call r') : r'.Sound s.holder.fencingGeneration := by
  have hsound := h.runs r hr
  have hgeneration : service.authority.fencingGeneration = s.holder.fencingGeneration := by rw [hservice]
  have hkeyed := hoperated.statements.keyed hsound.keyed
  cases call with
  | start => exact hoperated.elim
  | claimNext nowUs =>
    obtain ⟨hqueued, runStepId, claim, hready, hclaim⟩ := hoperated
    exact hsound.claimNext hgeneration hqueued (Run.readyStep_pending hsound.keyed hready) hclaim
  | complete claim nowUs jobUs =>
    obtain ⟨-, next, hcomplete⟩ := hoperated
    exact hsound.complete hcomplete hgeneration
  | fail claim retryable nowUs jobUs =>
    obtain ⟨-, next, hfail⟩ := hoperated
    exact hsound.fail hfail hgeneration
  | openWait settlement runId expected wait =>
    obtain ⟨hnew, hopen⟩ := hoperated
    exact hsound.openRuntimeWait (w := { wait with createdAtUs := settlement.settledAtUs }) hnew hopen
  | resolveWait settlement expected command policy =>
    obtain ⟨w, answer, -, hsettle⟩ := hoperated
    exact hsound.settleWait hsettle
  | cancel settlement runId reason obligations =>
    obtain ⟨-, haudit, context, l', disposition, hcontext, hcancel⟩ := hoperated
    exact hsound.cancels (hcontext ▸ hgeneration) hkeyed
      (Run.cancelRun_cancels hsound.keyed h.keyed.ledger haudit hcancel)
  | recoverStartup adoptedAtUs recoveredAtUs =>
    obtain ⟨surveyed, entry, entry', hsurvey, hrecover⟩ := hoperated
    obtain ⟨pending, -, ⟨-, hadopt⟩ | ⟨horphan, hrecover⟩ | ⟨-, -, rfl⟩⟩ :=
      Run.recovery_cases hsurvey hrecover
    · exact hsound.adoptOpenWait hgeneration hadopt
    · obtain ⟨-, -, hwaits, -, hsuperseded⟩ := Run.classify_orphanAttempt horphan
      exact hsound.recover hwaits (Run.superseded_iff.1 hsuperseded) hgeneration hrecover
    · exact hsound

theorem Sound.step (h : s.Sound) (label : Label) : (s.step label).Sound := by
  refine ⟨h.keyed.step label, ?_⟩
  obtain heq | ⟨authority, -, hlt, heq⟩ | ⟨service, call, -, hservice, happly⟩ := step_cases s label
  · rw [heq]
    exact h.runs
  · rw [heq]
    exact fun r hr => (h.runs r hr).mono hlt.le
  · obtain ⟨hholder, -, -⟩ := apply_ledger happly
    rw [hholder]
    refine (apply_called h.keyed.ids happly).forall h.runs ?_ ?_
    · intro runId runStepIds settledAtUs _ hnodup
      exact admittedRun_sound hnodup (by rw [hservice])
    · exact fun r hr r' hoperated => h.operated hservice hr hoperated

/-- Every store that the calls of a workspace reach is sound. -/
theorem sound (holder : Authority) (labels : List Label) :
    (run step (empty holder) labels).Sound :=
  run_invariant (P := Sound) (fun _ label h => h.step label)
    ⟨keyed_empty holder, fun _ hr => absurd hr List.not_mem_nil⟩ labels

end Store

end

end OmniviaCore.Runtime
