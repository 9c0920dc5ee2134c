import OmniviaCore.Execution.LoopRunner

/-!
# What a call of the runner does

One lemma a method for the call that returns, with the runner it ends in, and one for the call that
raises: it leaves the runner as it was (`Call.raises`). A cancellation never raises: its sweep turns the
entries into the ones `Swept` relates them to.
-/

namespace OmniviaCore.Execution.Loop

open Lib

variable {sha256 : List UInt8 → String} {loop : BoundLoop sha256} {runner after : LoopRunner}

def Untouched (before after : LoopRunner) : Prop := after = before

theorem untouched (s : LoopRunner) : Untouched s s := rfl

namespace LoopRunner

/-! ## Launching -/

def launchedMembers (launch : LaunchMembers) : EntryMembers where
  iterationIdentity := launch.iterationIdentity
  ordinal := launch.ordinal
  inputsDigest := launch.inputsDigest
  carryDigest := launch.carryDigest
  schedulingIntents := launch.schedulingIntents
  outcome := none
  outputsDigest := none
  failureReason := none
  settlementSequence := none
  effectSettlements := []
  cancellationDisposition := none
  resultingCarryDigest := none

/-- A launch the runner is ready to record. -/
structure Launchable (loop : BoundLoop sha256) (runner : LoopRunner) (launch : LaunchMembers) :
    Prop where
  running : runner.state = .RUNNING
  ordinal : launch.ordinal = runner.entries.length
  room : runner.entries.length < loop.reachable
  concurrency : runner.inFlight.length < loop.plan.maximumConcurrency
  identity : launch.iterationIdentity = (loop.derived launch.ordinal).1
  inputs : launch.inputsDigest = (loop.derived launch.ordinal).2
  carry : launch.carryDigest = if loop.plan.carryEnabled then runner.carryDigest else none

theorem recordLaunch_returns {launch : IterationLaunch} {entry : IterationLedgerEntry} :
    recordLaunch loop launch runner = .ok entry after ↔
      Launchable loop runner launch.val ∧
      (∀ recorded ∈ runner.entries, ¬(recorded.val.ordinal = launch.val.ordinal ∨
        recorded.val.iterationIdentity = launch.val.iterationIdentity)) ∧
      entry.val = launchedMembers launch.val ∧
      after = { runner with entries := runner.entries ++ [entry] } := by
  simp only [recordLaunch, bind_returns, get_returns, demand_returns, lift_returns, set_returns,
    pure_returns, Validated.build_eq_ok]
  constructor
  · rintro ⟨_, _, ⟨rfl, rfl⟩, _, _, ⟨hrunning, rfl⟩, _, _, ⟨hfresh, rfl⟩, _, _, ⟨hbound, rfl⟩, _, _,
      ⟨hsource, rfl⟩, _, _, ⟨hordinal, rfl⟩, _, _, ⟨hroom, rfl⟩, _, _, ⟨⟨hidentity, hinputs⟩, rfl⟩,
      _, _, ⟨hcarry, rfl⟩, _, _, ⟨hentry, rfl⟩, _, _, rfl, rfl, rfl⟩
    refine ⟨⟨hrunning, hordinal, ?_, hroom, hidentity, hinputs, hcarry⟩, hfresh, hentry, rfl⟩
    rw [BoundLoop.reachable, lt_min_iff]
    omega
  · rintro ⟨h, hfresh, hentry, rfl⟩
    have hroom := lt_min_iff.1 h.room
    have hordinal := h.ordinal
    exact ⟨_, _, ⟨rfl, rfl⟩, ⟨⟩, _, ⟨h.running, rfl⟩, ⟨⟩, _, ⟨hfresh, rfl⟩, ⟨⟩, _, ⟨by omega, rfl⟩,
      ⟨⟩, _, ⟨by omega, rfl⟩, ⟨⟩, _, ⟨hordinal, rfl⟩, ⟨⟩, _, ⟨h.concurrency, rfl⟩, ⟨⟩, _,
      ⟨⟨h.identity, h.inputs⟩, rfl⟩, ⟨⟩, _, ⟨h.carry, rfl⟩, _, _, ⟨hentry, rfl⟩, ⟨⟩, _, rfl, rfl, rfl⟩

theorem recordLaunch_raises (launch : IterationLaunch) :
    Raises Untouched (recordLaunch loop launch) := by
  refine Raises.bind_get fun s e s' h => ?_
  refine (?_ : Raises Untouched _) s e s' h
  refine .bind .demand (.demand untouched) fun _ => .bind .demand (.demand untouched) fun _ =>
    .bind .demand (.demand untouched) fun _ => .bind .demand (.demand untouched) fun _ =>
    .bind .demand (.demand untouched) fun _ => .bind .demand (.demand untouched) fun _ =>
    .bind .demand (.demand untouched) fun _ => .bind .demand (.demand untouched) fun _ =>
    .bind .lift (.lift untouched) fun _ => .bind_set

/-! ## Settlement -/

theorem indexOf_returns {iterationIdentity : String} {found : Nat × IterationLedgerEntry}
    (h : indexOf iterationIdentity runner = .ok found after) :
    runner.entries[found.1]? = some found.2 ∧ found.2.val.iterationIdentity = iterationIdentity ∧
      after = runner := by
  simp only [indexOf, bind_returns, get_returns] at h
  obtain ⟨_, _, ⟨rfl, rfl⟩, h⟩ := h
  cases hfound : runner.entries.zipIdx.find?
      fun found => found.1.val.iterationIdentity = iterationIdentity with
  | none =>
    rw [hfound] at h
    exact (throw_returns.1 h).elim
  | some pair =>
    rw [hfound] at h
    obtain ⟨rfl, rfl⟩ := pure_returns.1 h
    refine ⟨?_, ?_, rfl⟩
    · exact List.mk_mem_zipIdx_iff_getElem?.1 (List.mem_of_find?_eq_some hfound)
    · have hidentity := List.find?_some hfound
      simpa using hidentity

theorem indexOf_reads (iterationIdentity : String) : Reads (indexOf iterationIdentity) :=
  fun _ _ _ h => (indexOf_returns h).2.2

theorem indexOf_raises (iterationIdentity : String) : Raises Untouched (indexOf iterationIdentity) := by
  refine Raises.bind_get fun s e s' h => ?_
  cases hfound : s.entries.zipIdx.find?
      fun found => found.1.val.iterationIdentity = iterationIdentity with
  | none =>
    rw [hfound] at h
    exact (throw_raises.1 h).2.symm
  | some pair =>
    rw [hfound] at h
    exact (pure_raises.1 h).elim

/-- What one more settled effect makes of an entry. -/
theorem recordEffectSettlement_returns {iterationIdentity : String} {settlement : EffectSettlement}
    {u : PUnit} (h : recordEffectSettlement iterationIdentity settlement runner = .ok u after) :
    ∃ index entry replaced, runner.entries[index]? = some entry ∧ entry.val.isSettled = false ∧
      replaced.val = { entry.val with
        effectSettlements := entry.val.effectSettlements ++ [settlement] } ∧
      after = { runner with entries := runner.entries.set index replaced } := by
  simp only [recordEffectSettlement, bind_returns, demand_returns, lift_returns, modify_returns,
    Validated.build_eq_ok] at h
  obtain ⟨⟨index, entry⟩, _, hfound, _, _, ⟨hsettled, rfl⟩, _, _, ⟨-, rfl⟩, replaced, _,
    ⟨hreplaced, rfl⟩, rfl⟩ := h
  obtain ⟨hentry, -, rfl⟩ := indexOf_returns hfound
  exact ⟨index, entry, replaced, hentry, hsettled, hreplaced, rfl⟩

theorem recordEffectSettlement_raises (iterationIdentity : String) (settlement : EffectSettlement) :
    Raises Untouched (recordEffectSettlement iterationIdentity settlement) :=
  .bind (indexOf_reads _) (indexOf_raises _) fun _ => .bind .demand (.demand untouched) fun _ =>
    .bind .demand (.demand untouched) fun _ => .bind .lift (.lift untouched) fun _ => .modifies

def settledMembers (entry : EntryMembers) (outcome : IterationOutcome)
    (outputsDigest failureReason resultingCarryDigest : Option String) (sequence : Int) :
    EntryMembers :=
  { entry with
    outcome := some outcome
    outputsDigest
    failureReason
    settlementSequence := some sequence
    resultingCarryDigest }

theorem settle_returns {iterationIdentity outcome : String}
    {outputsDigest failureReason resultingCarryDigest : Option String} {answered : IterationLedgerEntry}
    (h : settle loop iterationIdentity outcome outputsDigest failureReason resultingCarryDigest runner =
      .ok answered after) :
    ∃ index entry member, runner.entries[index]? = some entry ∧ entry.val.isSettled = false ∧
      member ≠ .CANCELLED ∧ (resultingCarryDigest = none ∨ loop.plan.carryEnabled = true) ∧
      answered.val = settledMembers entry.val member outputsDigest failureReason
        resultingCarryDigest (runner.sequence + 1) ∧
      after = settled loop index answered runner := by
  simp only [settle, bind_returns, demand_returns, lift_returns, modify_returns, get_returns,
    pure_returns, Validated.build_eq_ok] at h
  obtain ⟨member, _, ⟨-, rfl⟩, _, _, ⟨hcancelled, rfl⟩, ⟨index, entry⟩, _, hfound, _, _,
    ⟨hsettled, rfl⟩, _, _, ⟨hcarry, rfl⟩, _, _, ⟨rfl, rfl⟩, replaced, _, ⟨hreplaced, rfl⟩, _, _, rfl,
    rfl, rfl⟩ := h
  obtain ⟨hentry, -, rfl⟩ := indexOf_returns hfound
  exact ⟨index, entry, member, hentry, hsettled, hcancelled, hcarry, hreplaced, rfl⟩

theorem settle_raises (iterationIdentity outcome : String)
    (outputsDigest failureReason resultingCarryDigest : Option String) :
    Raises Untouched (settle loop iterationIdentity outcome outputsDigest failureReason
      resultingCarryDigest) :=
  .bind .lift (.lift untouched) fun _ => .bind .demand (.demand untouched) fun _ =>
    .bind (indexOf_reads _) (indexOf_raises _) fun _ => .bind .demand (.demand untouched) fun _ =>
    .bind .demand (.demand untouched) fun _ => .bind .get .get fun _ =>
    .bind .lift (.lift untouched) fun _ => .bind_modify

/-! ## Late results -/

theorem admitLate_returns {late answered : LateResult}
    (h : admitLate late runner = .ok answered after) :
    runner.state = .SETTLED ∧
      (∃ entry ∈ runner.entries, entry.val.iterationIdentity = late.val.iterationIdentity) ∧
      (∀ recorded ∈ runner.late, recorded.val.iterationIdentity ≠ late.val.iterationIdentity) ∧
      answered = late ∧ after = { runner with late := runner.late ++ [late] } := by
  simp only [admitLate, bind_returns, get_returns, demand_returns, set_returns, pure_returns] at h
  obtain ⟨_, _, ⟨rfl, rfl⟩, _, _, ⟨hstate, rfl⟩, found, _, hfound, _, _, ⟨hfresh, rfl⟩, _, _, rfl,
    rfl, rfl⟩ := h
  obtain ⟨hentry, hidentity, rfl⟩ := indexOf_returns hfound
  exact ⟨hstate, ⟨found.2, List.mem_of_getElem? hentry, hidentity⟩, hfresh, rfl, rfl⟩

theorem admitLate_raises (late : LateResult) : Raises Untouched (admitLate late) := by
  refine Raises.bind_get fun s e s' h => ?_
  refine (?_ : Raises Untouched _) s e s' h
  exact .bind .demand (.demand untouched) fun _ =>
    .bind (indexOf_reads _) (indexOf_raises _) fun _ => .bind .demand (.demand untouched) fun _ =>
    .bind_set

theorem recordLateResult_raises (iterationIdentity evidenceRef : String) :
    Raises Untouched (recordLateResult iterationIdentity evidenceRef) :=
  .bind .lift (.lift untouched) fun _ => admitLate_raises _

end LoopRunner

/-! ## Cancellation -/

def sweptMembers (entry : EntryMembers) (sequence : Int) : EntryMembers :=
  { entry with
    outcome := some .CANCELLED
    settlementSequence := some sequence
    cancellationDisposition := some DISPOSITION_CANCELLED_IN_FLIGHT }

theorem sweptMembers_accepted {entry : IterationLedgerEntry} (h : entry.val.isSettled = false)
    {sequence : Int} (hsequence : 1 ≤ sequence) :
    (sweptMembers entry.val sequence).postInit = .ok () := by
  obtain ⟨hshaped, hcoherent⟩ := EntryMembers.postInit_eq_ok.1 entry.accepted
  have houtcome : entry.val.outcome = none := by simpa [EntryMembers.isSettled] using h
  simp only [EntryMembers.Coherent, houtcome] at hcoherent
  obtain ⟨houtputs, hfailure, -, -, hresulting⟩ := hcoherent
  refine EntryMembers.postInit_eq_ok.2 ⟨?_, ?_⟩
  · exact ⟨hshaped.1, hshaped.2, hshaped.3, hshaped.4, hshaped.5, hshaped.6, hshaped.7, hshaped.8,
      hshaped.9, hshaped.10⟩
  · exact ⟨⟨sequence, rfl, hsequence⟩, ⟨houtputs, hfailure⟩, rfl, .inl hresulting⟩

/-- The entries before and after a sweep that starts after `count` settlements and ends after
`count'`. -/
inductive Swept : Nat → List IterationLedgerEntry → Nat → List IterationLedgerEntry → Prop where
  | nil {count : Nat} : Swept count [] count []
  | settled {count count' : Nat} {entry : IterationLedgerEntry} {entries entries' : List IterationLedgerEntry}
      (h : entry.val.isSettled = true) (rest : Swept count entries count' entries') :
      Swept count (entry :: entries) count' (entry :: entries')
  | cancelled {count count' : Nat} {entry entry' : IterationLedgerEntry}
      {entries entries' : List IterationLedgerEntry} (h : entry.val.isSettled = false)
      (hval : entry'.val = sweptMembers entry.val ((count : Int) + 1))
      (rest : Swept (count + 1) entries count' entries') :
      Swept count (entry :: entries) count' (entry' :: entries')

namespace LoopRunner

theorem countedFromOne_succ (n : Nat) :
    countedFromOne (n + 1) = insert ((n : Int) + 1) (countedFromOne n) := by
  rw [countedFromOne, Finset.range_add_one, Finset.image_insert]
  rfl

/-- The sweep of the rest of the entries, the ones before them being done. -/
theorem sweepFrom_returns (rest done : List IterationLedgerEntry) {count : Nat}
    (hentries : runner.entries = done ++ rest) (hsequence : runner.sequence = count)
    (hsequences : runner.sequences = countedFromOne count) :
    ∃ cancelled count' rest', Swept count rest count' rest' ∧
      sweepFrom done.length rest runner = .ok cancelled { runner with
        entries := done ++ rest'
        sequence := count'
        sequences := countedFromOne count' } := by
  induction rest generalizing runner done count with
  | nil =>
    refine ⟨[], count, [], .nil, ?_⟩
    rw [sweepFrom, ← hsequence, ← hsequences, ← hentries]
    rfl
  | cons entry rest ih =>
    rw [sweepFrom]
    by_cases hsettled : entry.val.isSettled = true
    · rw [if_pos hsettled]
      obtain ⟨cancelled, count', rest', hswept, hreturns⟩ :=
        ih (done ++ [entry]) (by simpa using hentries) hsequence hsequences
      refine ⟨cancelled, count', entry :: rest', .settled hsettled hswept, ?_⟩
      simpa using hreturns
    · rw [if_neg hsettled]
      have hunsettled : entry.val.isSettled = false := by simpa using hsettled
      have haccepted : (sweptMembers entry.val ((count : Int) + 1)).postInit = .ok () :=
        sweptMembers_accepted hunsettled (by omega)
      obtain ⟨cancelled, count', rest', hswept, hreturns⟩ := @ih
        { runner with
          sequence := (count : Int) + 1
          sequences := insert ((count : Int) + 1) runner.sequences
          entries := done ++ ⟨_, haccepted⟩ :: rest }
        (done ++ [⟨_, haccepted⟩]) (count + 1) (by simp) (by simp)
        (by rw [countedFromOne_succ, hsequences])
      refine ⟨⟨_, haccepted⟩ :: cancelled, count', ⟨_, haccepted⟩ :: rest',
        .cancelled hunsettled rfl hswept, ?_⟩
      simp only [bind_returns, modify_returns, get_returns, lift_returns, set_returns, pure_returns,
        Validated.build_eq_ok]
      refine ⟨⟨⟩, _, rfl, _, _, ⟨rfl, rfl⟩, ⟨_, haccepted⟩, _, ⟨?_, rfl⟩, ⟨⟩, _, rfl, cancelled, _, ?_,
        rfl, rfl⟩
      · simp [sweptMembers, hsequence]
      · rw [List.length_append, List.length_singleton] at hreturns
        simpa [hsequence, hentries] using hreturns

/-- A cancellation returns, and this is the runner it ends in. -/
theorem cancel_returns (loop : BoundLoop sha256) {count : Nat} (hsequence : runner.sequence = count)
    (hsequences : runner.sequences = countedFromOne count) :
    ∃ cancelled after, cancel loop runner = .ok cancelled after ∧
      (loop.plan.cancellationPolicy = .COMPLETE_ALL ∧
          after = { runner with cancellationRequested := true } ∨
        loop.plan.cancellationPolicy = .DRAIN_IN_FLIGHT ∧
          after = refresh loop (stopLaunching { runner with cancellationRequested := true }) ∨
        loop.plan.cancellationPolicy = .CANCEL_REMAINING ∧
          ∃ count' entries', Swept count runner.entries count' entries' ∧
          after = refresh loop { stopLaunching { runner with cancellationRequested := true } with
            entries := entries'
            sequence := count'
            sequences := countedFromOne count' }) := by
  have hstop : ∀ r : LoopRunner, (stopLaunching r).entries = r.entries ∧
      (stopLaunching r).sequence = r.sequence ∧ (stopLaunching r).sequences = r.sequences := by
    intro r
    unfold stopLaunching
    split <;> exact ⟨rfl, rfl, rfl⟩
  cases hpolicy : loop.plan.cancellationPolicy with
  | COMPLETE_ALL =>
    refine ⟨[], { runner with cancellationRequested := true }, ?_, .inl ⟨rfl, rfl⟩⟩
    simp [cancel, hpolicy]
  | DRAIN_IN_FLIGHT =>
    refine ⟨[], _, ?_, .inr (.inl ⟨rfl, rfl⟩)⟩
    simp [cancel, hpolicy]
  | CANCEL_REMAINING =>
    obtain ⟨hentries, hsequence', hsequences'⟩ := hstop { runner with cancellationRequested := true }
    obtain ⟨cancelled, count', entries', hswept, hreturns⟩ :=
      @sweepFrom_returns (stopLaunching { runner with cancellationRequested := true })
        runner.entries [] count hentries (hsequence'.trans hsequence) (hsequences'.trans hsequences)
    refine ⟨cancelled, _, ?_, .inr (.inr ⟨rfl, count', entries', hswept, rfl⟩)⟩
    simp only [List.length_nil, List.nil_append] at hreturns
    simp [cancel, hpolicy, hentries, hreturns]

end LoopRunner

/-! ## Calls that raise -/

/-- A refused call leaves the runner as it was, as far as it raises at all. -/
theorem Call.raises (call : Call) {count : Nat} (hsequence : runner.sequence = count)
    (hsequences : runner.sequences = LoopRunner.countedFromOne count) {e : ExecutionError}
    (h : call.perform loop runner = .error e after) : after = runner := by
  cases call with
  | recordLaunch launch => exact (LoopRunner.recordLaunch_raises launch).map runner e after h
  | recordEffectSettlement iterationIdentity settlement =>
    exact (LoopRunner.recordEffectSettlement_raises iterationIdentity settlement).map runner e after h
  | settle iterationIdentity outcome outputsDigest failureReason resultingCarryDigest =>
    exact (LoopRunner.settle_raises iterationIdentity outcome outputsDigest failureReason
      resultingCarryDigest).map runner e after h
  | cancel =>
    obtain ⟨cancelled, s, hreturns, -⟩ := LoopRunner.cancel_returns loop hsequence hsequences
    rw [Call.perform, map_raises, hreturns] at h
    cases h
  | recordLateResult iterationIdentity evidenceRef =>
    exact (LoopRunner.recordLateResult_raises iterationIdentity evidenceRef).map runner e after h

end OmniviaCore.Execution.Loop
