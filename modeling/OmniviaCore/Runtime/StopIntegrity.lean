import OmniviaCore.Runtime.Invariant

/-!
# Integrity of the stop ledger

A request has at most one outcome and a run at most one cancelled event; a run that has ended stays as it
ended; the call that settles a request answers accepted exactly when it appended the event, and a later call
answers what is stored.
-/

namespace OmniviaCore.Runtime

open Lib
open Jobs (Authority)

variable {s s' : Store} {q : RunStopRequest} {r r' : Run} {l l' : StopLedger}

/-! ## Stores the ledger's own callers reach -/

namespace Store

/-- A step of a workspace, or what a caller of the ledger did. -/
theorem ledgerStep_cases (s : Store) (label : LedgerLabel) :
    (∃ lifecycle, label = .lifecycle lifecycle ∧ s.ledgerStep label = s.step lifecycle) ∨
      s.ledgerStep label = s ∨
      ∃ authority call, label = .ledger authority call ∧ s.applyLedger call = .ok (s.ledgerStep label) := by
  cases label with
  | lifecycle label => exact .inl ⟨label, rfl, rfl⟩
  | ledger authority call =>
    simp only [ledgerStep]
    cases hperform : s.performLedger authority call with
    | error e => exact .inr (.inl rfl)
    | ok s' =>
      simp only [performLedger, bind_eq_ok, require_eq_ok, exists_unit] at hperform
      exact .inr (.inr ⟨authority, call, rfl, hperform.2⟩)

theorem stopRun_runs {occurredAtUs completedAtUs : Nat} {outcomeAuditRef : Option String}
    {settlement : RunStopOutcome}
    (h : s.stopRun q occurredAtUs completedAtUs outcomeAuditRef = .ok (s', settlement)) :
    ∃ found, s.ledger.stopRun (s.run? q.runId) s.auditRefs q occurredAtUs completedAtUs outcomeAuditRef =
        .ok (s'.ledger, found, settlement) ∧
      s'.auditRefs = s.auditRefs ∧ s'.holder = s.holder ∧
      ((found = none ∧ s'.runs = s.runs) ∨ ∃ r, found = some r ∧ s'.runs = (s.setRun r).runs) := by
  simp only [stopRun, bind_eq_ok, Prod.exists] at h
  obtain ⟨ledger, found, settlement', hstop, h⟩ := h
  split at h
  · simp only [pure_eq_ok, Prod.mk.injEq] at h
    obtain ⟨rfl, rfl⟩ := h
    exact ⟨_, hstop, rfl, rfl, .inl ⟨rfl, rfl⟩⟩
  · simp only [pure_eq_ok, Prod.mk.injEq] at h
    obtain ⟨rfl, rfl⟩ := h
    exact ⟨_, hstop, rfl, rfl, .inr ⟨_, rfl, rfl⟩⟩

def Grows (s s' : Store) : Prop := ∀ r ∈ s.runs, ∃ r' ∈ s'.runs, r.Statements r'

theorem Grows.refl (s : Store) : s.Grows s := fun r hr => ⟨r, hr, .refl r⟩

theorem Grows.trans {s'' : Store} (h : s.Grows s') (h' : s'.Grows s'') : s.Grows s'' := by
  intro r hr
  obtain ⟨r', hr', hstatements⟩ := h r hr
  obtain ⟨r'', hr'', hstatements'⟩ := h' r' hr'
  exact ⟨r'', hr'', hstatements.trans hstatements'⟩

theorem setRun_grows (hids : Unique Run.runId s.runs) (hr : r ∈ s.runs) (h : r.Statements r') :
    s.Grows (s.setRun r') := by
  intro x hx
  obtain ⟨x', hx', hcases⟩ := exists_of_forall₂_left (setRun_runs hids hr h.grows.runId) hx
  rcases hcases with rfl | ⟨rfl, rfl⟩
  · exact ⟨_, hx', .refl _⟩
  · exact ⟨_, hx', h⟩

theorem Keyed.step_grows (h : s.Keyed) (label : Label) : s.Grows (s.step label) := by
  obtain heq | ⟨authority, -, -, heq⟩ | ⟨service, call, -, -, happly⟩ := step_cases s label
  · rw [heq]
    exact .refl s
  · rw [heq]
    exact .refl s
  · intro r hr
    have hcalled := apply_called h.ids happly
    generalize (s.step label).runs = runs at hcalled ⊢
    cases hcalled with
    | admitted => exact ⟨r, List.mem_append_left _ hr, .refl r⟩
    | operated hcalled =>
      obtain ⟨r', hr', hcases⟩ := exists_of_forall₂_left hcalled hr
      rcases hcases with rfl | hoperated
      · exact ⟨_, hr', .refl _⟩
      · exact ⟨r', hr', hoperated.statements⟩

theorem stopRun_statements {found found' : Option Run} {auditRefs : List String}
    {occurredAtUs completedAtUs : Nat} {outcomeAuditRef : Option String} {settlement : RunStopOutcome}
    (h : l.stopRun found auditRefs q occurredAtUs completedAtUs outcomeAuditRef =
      .ok (l', found', settlement)) (hfound' : found' = some r') :
    ∃ r, found = some r ∧ r.Statements r' := by
  subst hfound'
  obtain ⟨recorded, -, ⟨-, -, rfl⟩ | ⟨-, r, r₁, rfl, hr₁, hsettle⟩⟩ := StopLedger.stopRun_cases h
  · exact ⟨r', rfl, .refl r'⟩
  · obtain rfl := Option.some.inj hr₁
    exact ⟨r, rfl, StopLedger.settleStop_statements hsettle⟩

/-- Keys and growth, over what a caller of the ledger did. -/
theorem Keyed.applyLedger {call : LedgerCall} (h : s.Keyed) (happly : s.applyLedger call = .ok s') :
    s'.Keyed ∧ s.Grows s' := by
  cases call with
  | recordStopIntent q =>
    simp only [Store.applyLedger, recordStopIntent, bind_eq_ok, pure_eq_ok] at happly
    obtain ⟨ledger, hrecord, rfl⟩ := happly
    exact ⟨⟨h.ids, h.runs, (StopLedger.recordStopIntent_steps hrecord).1.keyed h.ledger⟩, .refl s⟩
  | stopRun q occurredAtUs completedAtUs outcomeAuditRef =>
    simp only [Store.applyLedger, except_map_eq_ok, Prod.exists] at happly
    obtain ⟨_, settlement, hstop, rfl⟩ := happly
    obtain ⟨found, hledger, hrefs, -, hruns⟩ := stopRun_runs hstop
    have hkeys := (StopLedger.stopRun_steps hledger).keyed h.ledger
    rw [← hrefs] at hkeys
    rcases hruns with ⟨-, hruns⟩ | ⟨r', hfound, hruns⟩
    · exact ⟨⟨hruns ▸ h.ids, hruns ▸ h.runs, hkeys⟩, fun r hr => ⟨r, hruns ▸ hr, .refl r⟩⟩
    · obtain ⟨r, hr, hstatements⟩ := stopRun_statements hledger hfound
      have hmem := (run?_mem hr).1
      have hset := setRun_runs h.ids hmem hstatements.grows.runId
      refine ⟨⟨?_, ?_, hkeys⟩, ?_⟩
      · rw [hruns]
        unfold Lib.Unique
        rw [setRun, map_updateKey rfl]
        exact h.ids
      · intro x hx
        rw [hruns] at hx
        obtain ⟨y, hy, hcases⟩ := exists_of_forall₂_right hset hx
        rcases hcases with rfl | ⟨rfl, rfl⟩
        · exact h.runs _ hy
        · exact hstatements.keyed (h.runs _ hy)
      · intro x hx
        obtain ⟨x', hx', hstep⟩ := setRun_grows h.ids hmem hstatements x hx
        exact ⟨x', hruns ▸ hx', hstep⟩
  | recordAudit auditRef =>
    simp only [Store.applyLedger, pure_eq_ok] at happly
    subst happly
    exact ⟨⟨h.ids, h.runs, h.ledger.mono (List.subset_append_left ..)⟩, .refl s⟩

theorem Keyed.ledgerStep (h : s.Keyed) (label : LedgerLabel) :
    (s.ledgerStep label).Keyed ∧ s.Grows (s.ledgerStep label) := by
  obtain ⟨lifecycle, -, heq⟩ | heq | ⟨authority, call, -, happly⟩ := ledgerStep_cases s label
  · rw [heq]
    exact ⟨h.step lifecycle, h.step_grows lifecycle⟩
  · rw [heq]
    exact ⟨h, .refl s⟩
  · exact h.applyLedger happly

theorem ledgerRun_keyed (holder : Authority) (labels : List LedgerLabel) :
    (run ledgerStep (empty holder) labels).Keyed :=
  run_invariant (P := Keyed) (fun _ label h => (h.ledgerStep label).1) (keyed_empty holder) labels

theorem Keyed.ledgerRun_grows (h : s.Keyed) (labels : List LedgerLabel) :
    s.Grows (run Store.ledgerStep s labels) := by
  induction labels generalizing s with
  | nil => exact .refl s
  | cons label labels ih => exact (h.ledgerStep label).2.trans (ih (h.ledgerStep label).1)

end Store

/-! ## Unsettled stops -/

namespace StopLedger

variable {found found' : Option Run} {auditRefs : List String} {occurredAtUs completedAtUs nowUs : Nat}
  {outcomeAuditRef : Option String} {settlement : RunStopOutcome}

theorem openRequests_recorded (q : RunStopRequest) (runId : String) :
    ({ l with requests := l.requests ++ [q] } : StopLedger).openRequests runId =
      l.openRequests runId ++
        if q.runId = runId ∧ l.outcome? q.stopRequestId = none then [q] else [] := by
  rw [openRequests, openRequests, List.filter_append]
  congr 1
  by_cases hq : q.runId = runId ∧ l.outcome? q.stopRequestId = none
  · rw [if_pos hq]
    simp only [outcome?] at hq
    simp [outcome?, hq.1, hq.2]
  · rw [if_neg hq]
    rw [List.filter_eq_nil_iff]
    intro x hx hopen
    rw [List.mem_singleton.1 hx] at hopen
    simp only [Bool.and_eq_true, decide_eq_true_eq, Option.isNone_iff_eq_none] at hopen
    exact hq hopen

theorem outcome?_settled (hnew : l.outcome? settlement.stopRequestId = none) (id : String) :
    ({ l with outcomes := l.outcomes ++ [settlement] } : StopLedger).outcome? id =
      if settlement.stopRequestId = id then some settlement else l.outcome? id := by
  simp only [outcome?] at hnew ⊢
  rw [List.find?_append]
  by_cases hid : settlement.stopRequestId = id
  · rw [if_pos hid, ← hid, hnew]
    simp
  · rw [if_neg hid]
    simp [hid]

theorem openRequests_settled (hnew : l.outcome? settlement.stopRequestId = none) (runId : String) :
    ({ l with outcomes := l.outcomes ++ [settlement] } : StopLedger).openRequests runId =
      (l.openRequests runId).filter fun q => q.stopRequestId ≠ settlement.stopRequestId := by
  rw [openRequests, openRequests, List.filter_filter]
  refine List.filter_congr fun q _ => ?_
  rw [outcome?_settled hnew]
  by_cases hid : settlement.stopRequestId = q.stopRequestId
  · simp [hid]
  · have hne : q.stopRequestId ≠ settlement.stopRequestId := fun h => hid h.symm
    simp [hid, hne]

theorem stopRun_openRequests
    (h : l.stopRun found auditRefs q occurredAtUs completedAtUs outcomeAuditRef =
      .ok (l', found', settlement)) (runId : String) :
    (l'.openRequests runId).Sublist (l.openRequests runId) := by
  obtain ⟨recorded, hrecorded, hcases⟩ := stopRun_cases h
  have hrequests := recordStopIntent_cases hrecorded
  obtain ⟨hsettled, rfl, -⟩ | ⟨hnone, r, r', -, -, hsettle⟩ := hcases
  · obtain ⟨-, rfl⟩ | ⟨-, -, -, rfl⟩ := hrequests
    · exact List.Sublist.refl _
    · rw [openRequests_recorded, if_neg, List.append_nil]
      rintro ⟨-, hopen⟩
      change l.outcome? q.stopRequestId = some settlement at hsettled
      rw [hsettled] at hopen
      cases hopen
  · obtain ⟨hid, -, rfl, -⟩ := settleStop_cases hsettle
    rw [openRequests_settled (by rw [hid]; exact hnone), hid]
    obtain ⟨-, rfl⟩ | ⟨-, -, -, rfl⟩ := hrequests
    · exact List.filter_sublist
    · rw [openRequests_recorded, List.filter_append]
      have hnil : List.filter (fun x => decide (x.stopRequestId ≠ q.stopRequestId))
          (if q.runId = runId ∧ l.outcome? q.stopRequestId = none then [q] else []) = [] := by
        split
        · simp
        · rfl
      rw [hnil, List.append_nil]
      exact List.filter_sublist

def Single (l : StopLedger) : Prop := ∀ runId, (l.openRequests runId).length ≤ 1

theorem Single.recorded (h : l.Single)
    (hfree : l.request? q.stopRequestId ≠ none ∨ l.openRequests q.runId = [])
    (hrecord : l.recordStopIntent found auditRefs q = .ok l') : l'.Single := by
  obtain ⟨-, rfl⟩ | ⟨hnone, -, -, rfl⟩ := recordStopIntent_cases hrecord
  · exact h
  · have hfree := hfree.resolve_left (not_not.2 hnone)
    intro runId
    rw [openRequests_recorded]
    split
    next hq =>
      rw [← hq.1, hfree]
      simp
    next =>
      rw [List.append_nil]
      exact h runId

theorem Single.stopRun (h : l.Single)
    (hstop : l.stopRun found auditRefs q occurredAtUs completedAtUs outcomeAuditRef =
      .ok (l', found', settlement)) : l'.Single :=
  fun runId => (stopRun_openRequests hstop runId).length_le.trans (h runId)

def Observed (l : StopLedger) : Prop :=
  ∀ q ∈ l.requests, l.progressOf q.stopRequestId ≠ [] ∨ l.outcome? q.stopRequestId ≠ none

theorem Observed.stopRun (h : l.Observed)
    (hstop : l.stopRun found auditRefs q occurredAtUs completedAtUs outcomeAuditRef =
      .ok (l', found', settlement)) : l'.Observed := by
  obtain ⟨recorded, hrecorded, hcases⟩ := stopRun_cases hstop
  have hrequests := recordStopIntent_cases hrecorded
  have hother : ∀ x ∈ recorded.requests, x.stopRequestId = q.stopRequestId ∨
      recorded.progressOf x.stopRequestId ≠ [] ∨ recorded.outcome? x.stopRequestId ≠ none := by
    intro x hx
    obtain ⟨-, rfl⟩ | ⟨-, -, -, rfl⟩ := hrequests
    · exact .inr (h x hx)
    · rcases List.mem_append.1 hx with hx | hx
      · exact .inr (h x hx)
      · rw [List.mem_singleton.1 hx]
        exact .inl rfl
  obtain ⟨hsettled, rfl, -⟩ | ⟨hnone, r, r', -, -, hsettle⟩ := hcases
  · intro x hx
    rcases hother x hx with hid | hx
    · rw [hid, hsettled]
      exact .inr (by simp)
    · exact hx
  · obtain ⟨hid, -, rfl, -⟩ := settleStop_cases hsettle
    intro x hx
    rw [outcome?_settled (by rw [hid]; exact hnone), hid]
    rcases hother x hx with hxid | hprogress | houtcome
    · rw [if_pos hxid.symm]
      exact .inr (by simp)
    · exact .inl hprogress
    · split
      · exact .inr (by simp)
      · exact .inr houtcome

theorem Observed.projected (h : l.Observed) (settled : String → Bool) (hq : q ∈ l.requests) :
    ∃ p, l.readStopProjection settled q.stopRequestId = .ok p := by
  unfold readStopProjection
  split
  next hnone => simpa using List.find?_eq_none.1 hnone q hq
  next recorded hrecorded =>
    split
    next p hp => exact ⟨_, rfl⟩
    next hnone =>
      have houtcome := (h q hq).resolve_left (not_not.2 (List.getLast?_eq_none_iff.1 hnone))
      rw [require_pos (Option.isSome_iff_ne_none.2 houtcome), ok_bind]
      exact ⟨_, rfl⟩

end StopLedger

section Cancel

variable {context : CancelContext} {disposition : CancelDisposition} {command : CancelCommand}
  {nowUs : Nat}

theorem cancelRun_single (h : l.Single) (hl : l.Keyed auditRefs) (hrun : command.runId = r.runId)
    (hcancel : cancelRun context l r command nowUs = .ok (l', r', disposition)) : l'.Single := by
  have hstopOf : ∀ {l r r' stop}, l.Single →
      settleStopOf context l r stop command.reason nowUs = .ok (l', r', disposition) → l'.Single := by
    intro l r r' stop h hend
    obtain ⟨settlement, stopped, hstop, -⟩ := settleStopOf_cases hend
    exact h.stopRun hstop
  obtain ⟨pending, hpending, ⟨-, hend⟩ | ⟨-, hlive⟩⟩ := cancelRun_cases hcancel
  · exact hstopOf h hend
  · obtain ⟨intended, p, hintended, -, hend⟩ := cancelLive_cases hlive
    have hintendedSingle : intended.Single := by
      refine h.recorded ?_ hintended
      rw [StopLedger.readUnsettledStopRequest_eq_ok] at hpending
      cases pending with
      | some x =>
        have hmem : x ∈ l.openRequests r.runId := by simp [hpending]
        have hfound := hl.requests.find? (StopLedger.mem_openRequests.1 hmem).1 rfl
        exact .inl (by rw [Option.getD_some, StopLedger.request?, hfound]; simp)
      | none => exact .inr (by rw [Option.getD_none, CancelCommand.stop, hrun]; exact hpending)
    obtain hend | hend := hend
    · obtain ⟨rfl, -, -⟩ := pendingCancellation_cases hend
      exact hintendedSingle
    · obtain ⟨released, receipts, -, hend⟩ := releaseAndSettle_cases hend
      exact hstopOf (l := { intended with progress := _, receipts }) hintendedSingle hend

theorem cancelRun_observed (h : l.Observed)
    (hcancel : cancelRun context l r command nowUs = .ok (l', r', disposition)) : l'.Observed := by
  have hstopOf : ∀ {l r r' stop}, l.Observed →
      settleStopOf context l r stop command.reason nowUs = .ok (l', r', disposition) → l'.Observed := by
    intro l r r' stop h hend
    obtain ⟨settlement, stopped, hstop, -⟩ := settleStopOf_cases hend
    exact h.stopRun hstop
  obtain ⟨pending, -, ⟨-, hend⟩ | ⟨-, hlive⟩⟩ := cancelRun_cases hcancel
  · exact hstopOf h hend
  · obtain ⟨intended, p, hintended, hp, hend⟩ := cancelLive_cases hlive
    have hobserved : ∀ receipts,
        ({ intended with progress := intended.progress ++ [p], receipts } : StopLedger).Observed := by
      intro receipts x hx
      have hprogress : x.stopRequestId = p.stopRequestId →
          ({ intended with progress := intended.progress ++ [p], receipts } : StopLedger).progressOf
            x.stopRequestId ≠ [] := by
        intro hid
        simp [StopLedger.progressOf, hid]
      have hkept : intended.progressOf x.stopRequestId ≠ [] →
          ({ intended with progress := intended.progress ++ [p], receipts } : StopLedger).progressOf
            x.stopRequestId ≠ [] := by
        intro hne
        rw [StopLedger.progressOf, List.filter_append]
        exact fun hnil => hne (List.append_eq_nil_iff.1 hnil).1
      have hold : x ∈ l.requests →
          ({ intended with progress := intended.progress ++ [p], receipts } : StopLedger).progressOf
              x.stopRequestId ≠ [] ∨ intended.outcome? x.stopRequestId ≠ none := by
        intro hmem
        rw [StopLedger.recordStopIntent_outcome? hintended]
        rcases h x hmem with hx' | hx'
        · refine .inl (hkept ?_)
          obtain ⟨-, rfl⟩ | ⟨-, -, -, rfl⟩ := StopLedger.recordStopIntent_cases hintended
          · exact hx'
          · exact hx'
        · exact .inr hx'
      obtain ⟨-, heq⟩ | ⟨-, -, -, heq⟩ := StopLedger.recordStopIntent_cases hintended
      · exact hold (heq ▸ hx)
      · have hx' : x ∈ l.requests ++ [pending.getD (command.stop nowUs)] := by
          rw [heq] at hx
          exact hx
        rcases List.mem_append.1 hx' with hx' | hx'
        · exact hold hx'
        · rw [List.mem_singleton.1 hx']
          rw [List.mem_singleton.1 hx'] at hprogress
          exact .inl (hprogress hp.symm)
    obtain hend | hend := hend
    · obtain ⟨rfl, -, -⟩ := pendingCancellation_cases hend
      exact hobserved intended.receipts
    · obtain ⟨released, receipts, -, hend⟩ := releaseAndSettle_cases hend
      exact hstopOf (hobserved receipts) hend

end Cancel

/-! ## What the calls answer -/

namespace Store

def Cancelled (s s' : Store) (runId : String) : Prop :=
  ∃ r r' e, s.run? runId = some r ∧ s'.run? runId = some r' ∧ r'.events = r.events ++ [e] ∧
    e.runStatus = .cancelled

theorem run?_of_mem (hids : Unique Run.runId s.runs) (hr : r ∈ s.runs) : s.run? r.runId = some r :=
  hids.find? hr rfl

theorem setRun_run? (hids : Unique Run.runId s.runs) (hr : r ∈ s.runs) (hid : r'.runId = r.runId) :
    (s.setRun r').run? r.runId = some r' := by
  have hids' : Unique Run.runId (s.setRun r').runs := by
    unfold Lib.Unique
    rw [setRun, map_updateKey rfl]
    exact hids
  obtain ⟨before, after, hold, hnew⟩ := hids.updateKey hr r'
  have hmem : r' ∈ (s.setRun r').runs := by
    rw [setRun, hid]
    change r' ∈ Lib.updateKey Run.runId r.runId r' s.runs
    rw [hnew]
    simp
  rw [← hid]
  exact run?_of_mem hids' hmem

theorem setRun_self (hids : Unique Run.runId s.runs) (hr : r ∈ s.runs) :
    (s.setRun r).runs = s.runs := by
  obtain ⟨before, after, hold, hnew⟩ := hids.updateKey hr r
  rw [hold]
  exact hnew

theorem run?_congr (h : s'.runs = s.runs) (runId : String) : s'.run? runId = s.run? runId := by
  rw [run?, run?, h]

/-- A run whose stream stayed as it was was not cancelled. -/
theorem not_cancelled {runId : String} (hr : s.run? runId = some r) (hr' : s'.run? runId = some r')
    (h : ∀ e, r'.events = r.events ++ [e] → e.runStatus ≠ .cancelled) : ¬s.Cancelled s' runId := by
  rintro ⟨x, x', e, hx, hx', hevents, hcancelled⟩
  rw [hr] at hx
  rw [hr'] at hx'
  obtain rfl := Option.some.inj hx
  obtain rfl := Option.some.inj hx'
  exact h e hevents hcancelled

/-- A settled request is answered as it was settled; one that is not settles now, and the answer says
whether the run was cancelled by it. -/
theorem Keyed.stopRun_answer (h : s.Keyed) {occurredAtUs completedAtUs : Nat}
    {outcomeAuditRef : Option String} {settlement : RunStopOutcome}
    (hstop : s.stopRun q occurredAtUs completedAtUs outcomeAuditRef = .ok (s', settlement)) :
    s'.ledger.outcome? q.stopRequestId = some settlement ∧
      (∀ stored, s.ledger.outcome? q.stopRequestId = some stored →
        settlement = stored ∧ ∀ runId, s'.run? runId = s.run? runId) ∧
      (s.ledger.outcome? q.stopRequestId = none →
        (settlement.outcome.isAccepted = true ↔ s.Cancelled s' q.runId)) := by
  obtain ⟨found, hledger, -, -, hruns⟩ := stopRun_runs hstop
  obtain ⟨recorded, hrecorded, hcases⟩ := StopLedger.stopRun_cases hledger
  have houtcome := StopLedger.recordStopIntent_outcome? hrecorded q.stopRequestId
  obtain ⟨hsettled, hl, rfl⟩ | ⟨hnone, r, r', hr, rfl, hsettle⟩ := hcases
  · rw [houtcome] at hsettled
    have hsame : s'.runs = s.runs := by
      obtain ⟨-, hruns⟩ | ⟨r, hr, hruns⟩ := hruns
      · exact hruns
      · rw [hruns]
        exact setRun_self h.ids (run?_mem hr).1
    refine ⟨by rw [hl, houtcome, hsettled], ?_, ?_⟩
    · intro stored hstored
      rw [hsettled] at hstored
      exact ⟨Option.some.inj hstored, run?_congr hsame⟩
    · intro hnone
      rw [hsettled] at hnone
      cases hnone
  · obtain ⟨hid, -, hl, hend⟩ := StopLedger.settleStop_cases hsettle
    obtain ⟨hmem, hrid⟩ := run?_mem hr
    have hgrows := (StopLedger.settleStop_statements hsettle).grows
    have hr' : s'.run? q.runId = some r' := by
      obtain ⟨hfound, -⟩ | ⟨x, hx, hruns⟩ := hruns
      · cases hfound
      · obtain rfl := Option.some.inj hx
        rw [run?_congr hruns, ← hrid]
        exact setRun_run? h.ids hmem hgrows.runId
    refine ⟨?_, ?_, fun _ => ?_⟩
    · rw [hl, StopLedger.outcome?_settled (by rw [hid]; exact hnone), if_pos hid]
    · intro stored hstored
      rw [← houtcome, hnone] at hstored
      cases hstored
    · obtain ⟨-, rfl, hignored⟩ | ⟨-, happend, haccepted⟩ := hend
      · rw [hignored]
        refine iff_of_false (fun haccepted => by cases haccepted) (not_cancelled hr hr' ?_)
        intro e hevents
        simp at hevents
      · rw [haccepted]
        obtain ⟨-, rfl⟩ := Run.appendRunEvent_eq_ok.1 happend
        exact iff_of_true rfl ⟨r, _, _, hr, hr', rfl, rfl⟩

/-- A cancellation answers that it was accepted exactly when it cancelled its run. -/
theorem Keyed.cancel_answer (h : s.Keyed) {authority : Authority} {settlement : Settlement}
    {runId reason : String} {obligations : List String} {disposition : CancelDisposition}
    (hcancel : s.cancel authority settlement runId reason obligations = .ok (s', disposition)) :
    disposition = .cancellationAccepted ↔ s.Cancelled s' runId := by
  simp only [cancel, bind_eq_ok] at hcancel
  obtain ⟨claimed, hclaimed, hcancel⟩ := hcancel
  obtain ⟨haudit, rfl⟩ := recordClaim_eq_ok hclaimed
  split at hcancel
  · cases hcancel
  next r hr =>
    simp only [bind_eq_ok, pure_eq_ok, Prod.exists, Prod.mk.injEq] at hcancel
    obtain ⟨l', r', disposition', hcancel, rfl, rfl⟩ := hcancel
    obtain ⟨hmem, hrid⟩ := run?_mem hr
    have hid := (cancelRun_statements hcancel).grows.runId
    have hr' : (s.setRun r').run? runId = some r' := by
      rw [← hrid]
      exact setRun_run? h.ids hmem hid
    have hcancels := Run.cancelRun_cancels (h.runs r hmem) h.ledger haudit hcancel
    cases hcancels with
    | ended hterminal heq =>
      refine iff_of_false (fun heq => by cases heq) (not_cancelled hr hr' fun e hevents => ?_)
      rw [heq] at hevents
      simp at hevents
    | pending hstatus =>
      refine iff_of_false (fun heq => by cases heq) (not_cancelled hr hr' fun e hevents => ?_)
      obtain ⟨-, rfl⟩ | ⟨-, htold⟩ := hstatus
      · simp at hevents
      · rw [htold.eq] at hevents
        obtain rfl := List.singleton_inj.1 (List.append_cancel_left hevents)
        exact fun heq => by cases heq
    | accepted reason released stopped job cancellation hlive hreleased htold hjob heq =>
      refine iff_of_true rfl
        ⟨r, r', ⟨settlement.settledAtUs, .cancelled, none, none⟩, hr, hr', ?_, rfl⟩
      rw [heq, htold.eq, Run.releaseRunWork_frame hreleased]

/-! ## Integrity -/

/-- A recorded intent that is not recorded yet finds no unsettled stop of its run. -/
def Orderly (s : Store) : LedgerLabel → Prop
  | .ledger _ (.recordStopIntent q) =>
    s.ledger.request? q.stopRequestId ≠ none ∨ s.ledger.openRequests q.runId = []
  | _ => True

/-- Only a cancellation or a `stop_run` records a request. -/
def Observing (s : Store) : LedgerLabel → Prop
  | .ledger _ (.recordStopIntent q) => s.ledger.request? q.stopRequestId ≠ none
  | _ => True

theorem single_ledgerStep (s : Store) (label : LedgerLabel) (horderly : s.Orderly label)
    (h : s.Keyed ∧ s.ledger.Single) :
    (s.ledgerStep label).Keyed ∧ (s.ledgerStep label).ledger.Single := by
  refine ⟨(h.1.ledgerStep label).1, ?_⟩
  obtain ⟨lifecycle, -, heq⟩ | heq | ⟨authority, call, rfl, happly⟩ := ledgerStep_cases s label
  · rw [heq]
    obtain heq | ⟨_, -, -, heq⟩ | ⟨service, call, -, -, happly⟩ := step_cases s lifecycle
    · rw [heq]
      exact h.2
    · rw [heq]
      exact h.2
    · obtain ⟨-, -, hledger | ⟨settlement, runId, reason, obligations, r, r', context, disposition, -, hr,
        -, -, -, hcancel, -⟩⟩ := apply_ledger happly
      · rw [hledger]
        exact h.2
      · exact cancelRun_single h.2 h.1.ledger (run?_mem hr).2.symm hcancel
  · rw [heq]
    exact h.2
  · cases call with
    | recordStopIntent q =>
      simp only [applyLedger, recordStopIntent, bind_eq_ok, pure_eq_ok] at happly
      obtain ⟨ledger, hrecord, heq⟩ := happly
      rw [← heq]
      exact h.2.recorded horderly hrecord
    | stopRun q occurredAtUs completedAtUs outcomeAuditRef =>
      simp only [applyLedger, except_map_eq_ok, Prod.exists] at happly
      obtain ⟨_, settlement, hstop, heq⟩ := happly
      obtain ⟨found, hledger, -⟩ := stopRun_runs hstop
      rw [← heq]
      exact h.2.stopRun hledger
    | recordAudit auditRef =>
      simp only [applyLedger, pure_eq_ok] at happly
      rw [← happly]
      exact h.2

theorem observed_ledgerStep (s : Store) (label : LedgerLabel) (hobserving : s.Observing label)
    (h : s.ledger.Observed) : (s.ledgerStep label).ledger.Observed := by
  obtain ⟨lifecycle, -, heq⟩ | heq | ⟨authority, call, rfl, happly⟩ := ledgerStep_cases s label
  · rw [heq]
    obtain heq | ⟨_, -, -, heq⟩ | ⟨service, call, -, -, happly⟩ := step_cases s lifecycle
    · rw [heq]
      exact h
    · rw [heq]
      exact h
    · obtain ⟨-, -, hledger | ⟨settlement, runId, reason, obligations, r, r', context, disposition, -, -,
        -, -, -, hcancel, -⟩⟩ := apply_ledger happly
      · rw [hledger]
        exact h
      · exact cancelRun_observed h hcancel
  · rw [heq]
    exact h
  · cases call with
    | recordStopIntent q =>
      simp only [applyLedger, recordStopIntent, bind_eq_ok, pure_eq_ok] at happly
      obtain ⟨ledger, hrecord, heq⟩ := happly
      rw [← heq]
      obtain ⟨-, rfl⟩ | ⟨hnone, -⟩ := StopLedger.recordStopIntent_cases hrecord
      · exact h
      · exact absurd hnone hobserving
    | stopRun q occurredAtUs completedAtUs outcomeAuditRef =>
      simp only [applyLedger, except_map_eq_ok, Prod.exists] at happly
      obtain ⟨_, settlement, hstop, heq⟩ := happly
      obtain ⟨found, hledger, -⟩ := stopRun_runs hstop
      rw [← heq]
      exact h.stopRun hledger
    | recordAudit auditRef =>
      simp only [applyLedger, pure_eq_ok] at happly
      rw [← happly]
      exact h

/-- What holds of the stop ledger in every store. -/
structure StopIntegrity (s : Store) : Prop where
  outcomes : Unique RunStopOutcome.stopRequestId s.ledger.outcomes
  cancelled : ∀ r ∈ s.runs, (r.events.filter (·.runStatus = .cancelled)).length ≤ 1
  settles : ∀ q occurredAtUs completedAtUs outcomeAuditRef s' settlement,
    s.stopRun q occurredAtUs completedAtUs outcomeAuditRef = .ok (s', settlement) →
    s.ledger.outcome? q.stopRequestId = none →
    (settlement.outcome.isAccepted = true ↔ s.Cancelled s' q.runId)
  replays : ∀ q occurredAtUs completedAtUs outcomeAuditRef s' settlement stored,
    s.stopRun q occurredAtUs completedAtUs outcomeAuditRef = .ok (s', settlement) →
    s.ledger.outcome? q.stopRequestId = some stored →
    settlement = stored ∧ ∀ runId, s'.run? runId = s.run? runId
  cancels : ∀ authority settlement runId reason obligations s' disposition,
    s.cancel authority settlement runId reason obligations = .ok (s', disposition) →
    (disposition = .cancellationAccepted ↔ s.Cancelled s' runId)
  differs : ∀ q recorded authority call, s.ledger.request? q.stopRequestId = some recorded →
    recorded ≠ q → (call = .recordStopIntent q ∨ ∃ occurredAtUs completedAtUs outcomeAuditRef,
      call = .stopRun q occurredAtUs completedAtUs outcomeAuditRef) →
    (∃ e, s.performLedger authority call = .error e) ∧ s.ledgerStep (.ledger authority call) = s

theorem cancelled_le_one (h : r.Keyed) : (r.events.filter (·.runStatus = .cancelled)).length ≤ 1 := by
  obtain ⟨init, last, hevents, -, hfinal⟩ := h.last
  have hnone : init.filter (·.runStatus = .cancelled) = [] := by
    rw [List.filter_eq_nil_iff]
    intro e he hcancelled
    have hlive := hfinal e he
    rw [of_decide_eq_true hcancelled] at hlive
    cases hlive
  rw [hevents, List.filter_append, hnone, List.nil_append]
  exact (List.length_filter_le _ _).trans (le_of_eq List.length_singleton)

theorem recordStopIntent_differs {found : Option Run} {auditRefs : List String}
    {recorded : RunStopRequest} (hrecorded : l.request? q.stopRequestId = some recorded)
    (hne : recorded ≠ q) : l.recordStopIntent found auditRefs q = .error .stopRequestDiffers := by
  unfold StopLedger.recordStopIntent
  simp only [hrecorded]
  rw [require_neg hne, error_bind]

theorem Keyed.stopIntegrity (h : s.Keyed) : s.StopIntegrity where
  outcomes := h.ledger.outcomes
  cancelled := fun r hr => cancelled_le_one (h.runs r hr)
  settles := fun _ _ _ _ _ _ hstop => (h.stopRun_answer hstop).2.2
  replays := fun _ _ _ _ _ _ stored hstop => (h.stopRun_answer hstop).2.1 stored
  cancels := fun _ _ _ _ _ _ _ hcancel => h.cancel_answer hcancel
  differs := by
    intro q recorded authority call hrecorded hne hcall
    have herror : ∃ e, s.performLedger authority call = .error e := by
      unfold performLedger
      by_cases hholder : authority = s.holder
      · rw [require_pos hholder, ok_bind]
        rcases hcall with rfl | ⟨occurredAtUs, completedAtUs, outcomeAuditRef, rfl⟩
        · rw [Store.applyLedger, recordStopIntent, recordStopIntent_differs hrecorded hne, error_bind]
          exact ⟨_, rfl⟩
        · rw [Store.applyLedger, stopRun, StopLedger.stopRun, recordStopIntent_differs hrecorded hne,
            error_bind, error_bind]
          exact ⟨_, rfl⟩
      · rw [require_neg hholder, error_bind]
        exact ⟨_, rfl⟩
    obtain ⟨e, he⟩ := herror
    refine ⟨⟨e, he⟩, ?_⟩
    simp only [Store.ledgerStep, he]

/-- The stop ledger is sound after every sequence of calls; a run that has ended stays as it ended, a run
has at most one unsettled stop while intents are recorded in order, and what a cancellation or a
`stop_run` recorded can be projected. -/
theorem stop_ledger_integrity (holder : Authority) (labels : List LedgerLabel) :
    (run ledgerStep (empty holder) labels).StopIntegrity ∧
      (∀ r ∈ (run ledgerStep (empty holder) labels).runs, r.terminal = true → ∀ later,
        ∃ r' ∈ (run ledgerStep (empty holder) (labels ++ later)).runs,
          r'.runId = r.runId ∧ r'.events = r.events) ∧
      (Along ledgerStep Orderly (empty holder) labels → ∀ runId,
        ∃ pending, (run ledgerStep (empty holder) labels).ledger.readUnsettledStopRequest runId =
          .ok pending) ∧
      (Along ledgerStep Observing (empty holder) labels → ∀ settled,
        ∀ q ∈ (run ledgerStep (empty holder) labels).ledger.requests,
          ∃ p, (run ledgerStep (empty holder) labels).ledger.readStopProjection settled
            q.stopRequestId = .ok p) := by
  have hkeyed := ledgerRun_keyed holder labels
  refine ⟨hkeyed.stopIntegrity, ?_, ?_, ?_⟩
  · intro r hr hterminal later
    obtain ⟨r', hr', hstatements⟩ := hkeyed.ledgerRun_grows later r hr
    have hr₀ := hkeyed.runs r hr
    rw [run_append]
    exact ⟨r', hr', hstatements.grows.runId,
      hr₀.events_eq (hstatements.keyed hr₀) hstatements.grows.events hterminal⟩
  · intro horderly runId
    have hsingle := (run_invariant_along (P := fun s => s.Keyed ∧ s.ledger.Single) single_ledgerStep
      ⟨keyed_empty holder, fun _ => Nat.zero_le 1⟩ horderly).2 runId
    cases hopen : (run ledgerStep (empty holder) labels).ledger.openRequests runId with
    | nil => exact ⟨none, StopLedger.readUnsettledStopRequest_eq_ok.2 hopen⟩
    | cons q rest =>
      rw [hopen, List.length_cons] at hsingle
      obtain rfl : rest = [] := List.length_eq_zero_iff.1 (by omega)
      exact ⟨some q, StopLedger.readUnsettledStopRequest_eq_ok.2 hopen⟩
  · intro hobserving settled q hq
    exact (run_invariant_along (P := fun s : Store => s.ledger.Observed) observed_ledgerStep
      (fun q hq => absurd hq List.not_mem_nil) hobserving).projected settled hq

/-! ## One run, stopped -/

def startedRun : LedgerLabel :=
  .lifecycle (.call ⟨⟨"service-1", 1⟩, fun _ _ => true, none, false⟩
    (.start ⟨"claim-1", "audit-1", "owner", 10⟩ "run-1" ["step-1"]))

def runStop (stopRequestId : String) : RunStopRequest :=
  ⟨stopRequestId, "run-1", 20, "operator", "operator.cancelled", "audit-1"⟩

def stoppedRun : LedgerLabel := .ledger ⟨"service-1", 1⟩ (.stopRun (runStop "stop-1") 20 20 none)

def intendedStop : LedgerLabel := .ledger ⟨"service-1", 1⟩ (.recordStopIntent (runStop "stop-1"))

/-- The intent of a stop is recorded where none is unsettled, and again where it is recorded already. -/
theorem stop_ledger_integrity_stopped :
    (∀ runId, ∃ pending, (run ledgerStep (empty ⟨"service-1", 1⟩)
        [startedRun, intendedStop]).ledger.readUnsettledStopRequest runId = .ok pending) ∧
      ∀ settled, ∀ q ∈ (run ledgerStep (empty ⟨"service-1", 1⟩)
          [startedRun, stoppedRun, intendedStop]).ledger.requests,
        ∃ p, (run ledgerStep (empty ⟨"service-1", 1⟩)
          [startedRun, stoppedRun, intendedStop]).ledger.readStopProjection settled q.stopRequestId =
            .ok p := by
  obtain ⟨-, -, hpending, -⟩ := stop_ledger_integrity ⟨"service-1", 1⟩ [startedRun, intendedStop]
  obtain ⟨-, -, -, hprojected⟩ :=
    stop_ledger_integrity ⟨"service-1", 1⟩ [startedRun, stoppedRun, intendedStop]
  have hrecorded : ((run ledgerStep (empty ⟨"service-1", 1⟩) [startedRun, stoppedRun]).ledger.request?
      "stop-1").isSome = true := by
    decide +kernel
  exact ⟨hpending ⟨trivial, .inr (by decide +kernel), trivial⟩,
    hprojected ⟨trivial, trivial, Option.isSome_iff_ne_none.1 hrecorded, trivial⟩⟩

/-- The same `stop_run` twice: the second answers accepted and appends nothing. And two intents of one
run: neither is settled. -/
theorem stop_ledger_not_integral :
    (¬∀ holder labels q occurredAtUs completedAtUs outcomeAuditRef s' settlement,
      (run ledgerStep (empty holder) labels).stopRun q occurredAtUs completedAtUs outcomeAuditRef =
        .ok (s', settlement) →
      (settlement.outcome.isAccepted = true ↔
        (run ledgerStep (empty holder) labels).Cancelled s' q.runId)) ∧
    ¬∀ holder labels runId, ∃ pending,
      (run ledgerStep (empty holder) labels).ledger.readUnsettledStopRequest runId = .ok pending := by
  constructor
  · intro h
    have haccepted : ((run ledgerStep (empty ⟨"service-1", 1⟩) [startedRun, stoppedRun]).stopRun
        (runStop "stop-1") 20 20 none).map (fun p => (p.2.outcome.isAccepted,
          (p.1.run? "run-1").map (·.events.length))) = .ok (true, some 2) := by
      decide +kernel
    have hevents : ((run ledgerStep (empty ⟨"service-1", 1⟩) [startedRun, stoppedRun]).run?
        "run-1").map (·.events.length) = some 2 := by
      decide +kernel
    obtain ⟨⟨s', settlement⟩, hstop, hanswer⟩ := except_map_eq_ok.1 haccepted
    simp only [Prod.mk.injEq] at hanswer
    obtain ⟨r, r', e, hr, hr', happended, -⟩ := (h _ _ _ _ _ _ _ _ hstop).1 hanswer.1
    change _ = some r at hr
    change _ = some r' at hr'
    have hlength := congrArg List.length happended
    rw [show (runStop "stop-1").runId = "run-1" from rfl] at hr hr'
    rw [hr] at hevents
    rw [hr'] at hanswer
    simp only [Option.map_some, Option.some.injEq] at hevents hanswer
    rw [List.length_append, List.length_singleton] at hlength
    omega
  · intro h
    obtain ⟨pending, hpending⟩ := h ⟨"service-1", 1⟩ [startedRun,
      .ledger ⟨"service-1", 1⟩ (.recordStopIntent (runStop "stop-1")),
      .ledger ⟨"service-1", 1⟩ (.recordStopIntent (runStop "stop-2"))] "run-1"
    have hambiguous : (run ledgerStep (empty ⟨"service-1", 1⟩) [startedRun,
        .ledger ⟨"service-1", 1⟩ (.recordStopIntent (runStop "stop-1")),
        .ledger ⟨"service-1", 1⟩ (.recordStopIntent (runStop "stop-2"))]).ledger.readUnsettledStopRequest
          "run-1" = .error .ambiguousStop := by
      decide +kernel
    rw [hambiguous] at hpending
    cases hpending

end Store

end OmniviaCore.Runtime
