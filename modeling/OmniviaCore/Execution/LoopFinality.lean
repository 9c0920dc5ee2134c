import OmniviaCore.Execution.LoopLaws

/-!
# The result of a settled loop

Once a loop is settled its entries, its failure reason and its carry are final, and what is left to
change is the cancellation posture and the late results. A cancellation can still turn a loop that
settled `SUCCEEDED` or `INCOMPLETE` into a cancelled one; no other call changes the result.
-/

namespace OmniviaCore.Execution.Loop

open Lib LoopRunner

variable {sha256 : List UInt8 → String} {loop : BoundLoop sha256} {initial : Option String}
  {runner fresh : LoopRunner}

/-! ## Finality -/

theorem settled_run (h : Sound loop initial runner) (hsettled : runner.state = .SETTLED)
    (calls : List Call) : (run (step loop) runner calls).state = .SETTLED ∧
      (run (step loop) runner calls).entries = runner.entries ∧
      (run (step loop) runner calls).failureReason = runner.failureReason ∧
      (run (step loop) runner calls).carryDigest = runner.carryDigest := by
  induction calls generalizing runner with
  | nil => exact ⟨hsettled, rfl, rfl, rfl⟩
  | cons call calls ih =>
    obtain ⟨hstate, hentries, hreason, hcarry⟩ := h.settled_step hsettled call
    obtain ⟨hstate', hentries', hreason', hcarry'⟩ := ih (h.step call) hstate
    exact ⟨hstate', hentries'.trans hentries, hreason'.trans hreason, hcarry'.trans hcarry⟩

/-- The outcome of a settled loop that recorded no failure reason and was not cancelled. -/
theorem outcome_uncancelled (hsettled : runner.state = .SETTLED) (hnone : runner.failureReason = none)
    (hposture : runner.cancellationRequested = false) :
    runner.outcome loop =
      if runner.entries.length < loop.reachable ∨
        runner.entries.any (fun entry => entry.val.outcome = some .FAILED) then some .INCOMPLETE
      else some .SUCCEEDED := by
  simp [outcome, hsettled, hnone, hposture]

theorem outcome_ne_incomplete (hposture : runner.cancellationRequested = true) :
    runner.outcome loop ≠ some .INCOMPLETE := by
  unfold outcome
  rw [if_pos hposture]
  split
  · simp
  · split <;> simp

section

variable {later : LoopRunner} (hstate : later.state = runner.state)
  (hentries : later.entries = runner.entries) (hreason : later.failureReason = runner.failureReason)

include hstate hentries hreason

theorem outcome_congr (hposture : later.cancellationRequested = runner.cancellationRequested) :
    later.outcome loop = runner.outcome loop := by
  simp only [outcome, hstate, hentries, hreason, hposture]

/-- A posture that changes the outcome of a settled loop is that of a loop without a failure that was
not cancelled before. -/
theorem outcome_of_cancelled (hsettled : runner.state = .SETTLED)
    (hresult : runner.outcome loop ≠ some .SUCCEEDED ∧ runner.outcome loop ≠ some .INCOMPLETE)
    (hkept : runner.cancellationRequested = true → later.cancellationRequested = true) :
    later.outcome loop = runner.outcome loop := by
  by_cases hnone : runner.failureReason = none
  · by_cases hposture : runner.cancellationRequested = true
    · exact outcome_congr hstate hentries hreason ((hkept hposture).trans hposture.symm)
    · exfalso
      rw [outcome_uncancelled hsettled hnone (by simpa using hposture)] at hresult
      split at hresult
      · exact hresult.2 rfl
      · exact hresult.1 rfl
  · simp [outcome, hstate, hreason, hsettled, hnone]

omit hstate in
/-- The gather reads the failure reason, the entries, and whether the outcome is `INCOMPLETE`. -/
theorem gather_congr (partially : Bool)
    (hincomplete : later.outcome loop = some .INCOMPLETE ↔ runner.outcome loop = some .INCOMPLETE) :
    later.gather loop partially = runner.gather loop partially := by
  have hordered : later.orderedSucceeded loop = runner.orderedSucceeded loop := by
    simp only [orderedSucceeded, hentries]
  unfold gather
  rw [hreason, hordered]
  simp only [ne_eq, hincomplete]

end

/-! ## A clean success -/

def guaranteedKey (loop : BoundLoop sha256) (entry : IterationLedgerEntry) : Int :=
  match loop.plan.orderGuarantee with
  | .SETTLEMENT_ORDER => entry.val.settlementSequence.getD 0
  | .ITERATION_IDENTITY_ORDER => entry.val.ordinal

namespace Sound

theorem succeeded_iff (h : Sound loop initial runner) :
    runner.outcome loop = some .SUCCEEDED ↔
      runner.state = .SETTLED ∧ runner.entries.length = loop.elements.length ∧
        (∀ entry ∈ runner.entries,
          entry.val.outcome ≠ some .FAILED ∧ entry.val.outcome ≠ some .CANCELLED) ∧
        runner.cancellationRequested = false := by
  have hle := h.ledgered.length_le
  rw [length_bare] at hle
  have hroom := le_min_iff.1 hle
  constructor
  · intro houtcome
    have hsettled : runner.state = .SETTLED := by
      by_contra hnot
      simp [outcome, hnot] at houtcome
    have hnone : runner.failureReason = none := by
      by_contra hnot
      simp [outcome, hsettled, hnot] at houtcome
    have hposture : runner.cancellationRequested = false := by
      by_contra hnot
      rw [Bool.not_eq_false] at hnot
      simp [outcome, hsettled, hnone, hnot] at houtcome
    rw [outcome_uncancelled hsettled hnone hposture] at houtcome
    split at houtcome
    · cases houtcome
    next hclean =>
    rw [not_or, not_lt, List.any_eq_true, not_exists] at hclean
    -- the bound was not met by a longer source, which would have failed the loop
    have hfinished := phase_eq_settled.1 (h.state.symm.trans hsettled)
    have hreason := h.failure.symm.trans hnone
    rw [reason, Option.or_eq_none_iff] at hreason
    have hbound : ¬(loop.plan.maximumIterations < loop.elements.length ∧
        loop.plan.maximumIterations ≤ runner.bare.length) := by
      intro hoverflow
      rw [if_pos ⟨hfinished, hoverflow⟩] at hreason
      cases hreason.2
    rw [length_bare] at hbound
    have hreachable := hclean.1
    rw [BoundLoop.reachable, min_le_iff] at hreachable
    refine ⟨hsettled, by omega, fun entry hentry => ⟨?_, ?_⟩, hposture⟩
    · intro hfailed
      exact hclean.2 entry ⟨hentry, decide_eq_true hfailed⟩
    · intro hcancelled
      rw [(h.cancelled (bare entry) (List.mem_map_of_mem hentry) hcancelled).1] at hposture
      cases hposture
  · rintro ⟨hsettled, hlength, hclean, hposture⟩
    have hfailed : ¬Failed runner.bare := by
      rintro ⟨m, hm, houtcome⟩
      obtain ⟨entry, hentry, rfl⟩ := List.mem_map.1 hm
      exact (hclean entry hentry).1 houtcome
    have hnone : runner.failureReason = none := by
      rw [h.failure, reason, openReason, if_neg (fun hfail => hfailed hfail.2), Option.none_or,
        if_neg]
      rintro ⟨-, hoverflow, -⟩
      omega
    rw [outcome_uncancelled hsettled hnone hposture, if_neg]
    rintro (hshort | hany)
    · rw [BoundLoop.reachable, lt_min_iff] at hshort
      omega
    · obtain ⟨entry, hentry, houtcome⟩ := List.any_eq_true.1 hany
      exact (hclean entry hentry).1 (of_decide_eq_true houtcome)

/-! ## The gather -/

theorem orderedSucceeded_eq (runner : LoopRunner) :
    runner.orderedSucceeded loop =
      sortBy (guaranteedKey loop) (runner.entries.filter fun entry =>
        entry.val.outcome = some .SUCCEEDED) := by
  unfold orderedSucceeded guaranteedKey
  cases loop.plan.orderGuarantee <;> rfl

/-- The guaranteed order tells any two settled iterations apart. -/
theorem nodup_guaranteedKey (h : Sound loop initial runner) :
    ((runner.entries.filter fun entry => entry.val.outcome = some .SUCCEEDED).map
      (guaranteedKey loop)).Nodup := by
  have hsub : (runner.entries.filter fun entry => entry.val.outcome = some .SUCCEEDED).Sublist
      runner.entries := List.filter_sublist
  unfold guaranteedKey
  cases loop.plan.orderGuarantee with
  | ITERATION_IDENTITY_ORDER =>
    refine List.Nodup.sublist (hsub.map _) ?_
    rw [h.laws.ordinals]
    exact List.nodup_range.map fun a b hab => by simpa using hab
  | SETTLEMENT_ORDER =>
    have hsequences := h.nodup_sequences.sublist (hsub.filterMap _)
    have hmap : ∀ l : List IterationLedgerEntry, (∀ entry ∈ l, entry.val.outcome = some .SUCCEEDED) →
        l.filterMap (fun entry => entry.val.settlementSequence) =
          l.map fun entry => entry.val.settlementSequence.getD 0 := by
      intro l hl
      induction l with
      | nil => rfl
      | cons entry l ih =>
        have hsettled : (bare entry).isSettled = true :=
          Option.isSome_iff_exists.2 ⟨_, hl entry List.mem_cons_self⟩
        obtain ⟨_, sequence, -, hsequence, -⟩ := (coherent_bare entry).settled hsettled
        have hsequence : entry.val.settlementSequence = some sequence := hsequence
        simp only [List.filterMap_cons, hsequence, List.map_cons, Option.getD_some]
        rw [ih fun other hother => hl other (List.mem_cons_of_mem _ hother)]
    rw [hmap _ fun entry hentry => of_decide_eq_true (List.mem_filter.1 hentry).2] at hsequences
    exact hsequences

theorem map_eq_filterMap {l : List IterationLedgerEntry}
    (h : ∀ entry ∈ l, ∃ digest, entry.val.outputsDigest = some digest ∧ digest ≠ "") :
    (l.map fun entry => entry.val.outputsDigest) =
      (l.filterMap fun entry => entry.val.outputsDigest.filter (· ≠ "")).map some := by
  induction l with
  | nil => rfl
  | cons entry l ih =>
    obtain ⟨digest, hdigest, hne⟩ := h entry List.mem_cons_self
    simp only [List.map_cons, List.filterMap_cons, hdigest, Option.filter_some, hne, ne_eq,
      not_false_eq_true, decide_true, reduceIte]
    rw [ih fun other hother => h other (List.mem_cons_of_mem _ hother)]

/-- The gather of a loop without a failure reason that is not incomplete. -/
theorem gather_ordered (h : Sound loop initial runner) (hnone : runner.failureReason = none)
    (hresult : runner.outcome loop ≠ some .INCOMPLETE) :
    ∃ (ordered : List IterationLedgerEntry) (digests : List String),
      ordered.Perm (runner.entries.filter fun entry => entry.val.outcome = some .SUCCEEDED) ∧
      (ordered.Pairwise fun a b => guaranteedKey loop a < guaranteedKey loop b) ∧
      (ordered.map fun entry => entry.val.outputsDigest) = digests.map some ∧
      ∀ partially, runner.gather loop partially = .ok digests := by
  have hperm : (runner.orderedSucceeded loop).Perm
      (runner.entries.filter fun entry => entry.val.outcome = some .SUCCEEDED) := by
    rw [orderedSucceeded_eq]
    exact perm_sortBy _
  -- a succeeded iteration records the digest of its outputs
  have houtputs : ∀ entry ∈ runner.orderedSucceeded loop, ∃ digest,
      entry.val.outputsDigest = some digest ∧ digest ≠ "" := by
    intro entry hentry
    have houtcome := of_decide_eq_true (List.mem_filter.1 (hperm.mem_iff.1 hentry)).2
    obtain ⟨hshaped, hcoherent⟩ := EntryMembers.postInit_eq_ok.1 entry.accepted
    simp only [EntryMembers.Coherent, houtcome] at hcoherent
    obtain ⟨digest, hdigest⟩ := Option.ne_none_iff_exists'.1 hcoherent.2.1.1
    refine ⟨digest, hdigest, ?_⟩
    rintro rfl
    exact absurd (hshaped.outputsDigest "" hdigest) (by decide)
  refine ⟨runner.orderedSucceeded loop, (runner.orderedSucceeded loop).filterMap fun entry =>
    entry.val.outputsDigest.filter (· ≠ ""), hperm, ?_, ?_, fun partially => ?_⟩
  · have hsorted : (runner.orderedSucceeded loop).Pairwise fun a b =>
        guaranteedKey loop a ≤ guaranteedKey loop b := by
      rw [orderedSucceeded_eq]
      exact pairwise_sortBy _
    have hdistinct := (hperm.map (guaranteedKey loop)).nodup_iff.2 h.nodup_guaranteedKey
    rw [List.Nodup, List.pairwise_map] at hdistinct
    exact (hsorted.and hdistinct).imp fun hkeys => lt_of_le_of_ne hkeys.1 hkeys.2
  · exact map_eq_filterMap houtputs
  · rw [gather, hnone]
    simp only [ne_eq, hresult, not_false_eq_true, or_true, require_pos, ok_bind]
    rfl

end Sound

/-! ## The result -/

/-- A settled loop keeps its entries, its failure reason and its carry, whatever is called. Its outcome
is changed by no call other than a cancellation of a loop that settled `SUCCEEDED` or `INCOMPLETE`, its
gather by none other than one of a loop that settled `INCOMPLETE`. The outcome is `SUCCEEDED` exactly
when the whole source was launched, nothing failed or was cancelled, and no cancellation was requested;
the gather then has the outputs of the succeeded iterations, in the guaranteed order. -/
theorem settled_result_final {plan : FrozenLoopPlan} {source : List LoopElement}
    {zipSources : List (List LoopElement)}
    (h : LoopRunner.construct sha256 plan source zipSources EMPTY_LOOP_LEDGER initial =
      .ok (loop, fresh)) (calls : List Call) :
    ((run (step loop) fresh calls).state = .SETTLED → ∀ more,
      (run (step loop) fresh (calls ++ more)).state = .SETTLED ∧
      (run (step loop) fresh (calls ++ more)).entries = (run (step loop) fresh calls).entries ∧
      (run (step loop) fresh (calls ++ more)).failureReason =
        (run (step loop) fresh calls).failureReason ∧
      (run (step loop) fresh (calls ++ more)).carryDigest =
        (run (step loop) fresh calls).carryDigest ∧
      ((Call.cancel ∈ more → (run (step loop) fresh calls).outcome loop ≠ some .SUCCEEDED ∧
          (run (step loop) fresh calls).outcome loop ≠ some .INCOMPLETE) →
        (run (step loop) fresh (calls ++ more)).outcome loop =
          (run (step loop) fresh calls).outcome loop) ∧
      ((Call.cancel ∈ more → (run (step loop) fresh calls).outcome loop ≠ some .INCOMPLETE) →
        ∀ partially, (run (step loop) fresh (calls ++ more)).gather loop partially =
          (run (step loop) fresh calls).gather loop partially)) ∧
    ((run (step loop) fresh calls).outcome loop = some .SUCCEEDED ↔
      (run (step loop) fresh calls).state = .SETTLED ∧
      (run (step loop) fresh calls).entries.length = loop.elements.length ∧
      (∀ entry ∈ (run (step loop) fresh calls).entries,
        entry.val.outcome ≠ some .FAILED ∧ entry.val.outcome ≠ some .CANCELLED) ∧
      Call.cancel ∉ calls) ∧
    ((run (step loop) fresh calls).outcome loop = some .SUCCEEDED →
      ∃ (ordered : List IterationLedgerEntry) (digests : List String),
        ordered.Perm ((run (step loop) fresh calls).entries.filter fun entry =>
          entry.val.outcome = some .SUCCEEDED) ∧
        (ordered.Pairwise fun a b => guaranteedKey loop a < guaranteedKey loop b) ∧
        (ordered.map fun entry => entry.val.outputsDigest) = digests.map some ∧
        ∀ partially, (run (step loop) fresh calls).gather loop partially = .ok digests) := by
  have hsound := (sound_fresh h).run calls
  have hposture := (sound_fresh h).run_cancellationRequested calls
  have hfresh : fresh.cancellationRequested = false := by
    rw [(fresh_eq h).1, refresh_cancellationRequested]
    rfl
  simp only [run_append]
  simp only [hfresh, Bool.false_eq_true, false_or] at hposture
  generalize run (step loop) fresh calls = runner at hsound hposture
  refine ⟨fun hsettled more => ?_, ?_, ?_⟩
  · obtain ⟨hstate, hentries, hreason, hcarry⟩ := settled_run hsound hsettled more
    have hlater := hsound.run_cancellationRequested more
    have hstate' := hstate.trans hsettled.symm
    have hsame : Call.cancel ∉ more → (run (step loop) runner more).outcome loop = runner.outcome loop := by
      intro hnone
      refine outcome_congr hstate' hentries hreason (Bool.eq_iff_iff.2 ?_)
      rw [hlater, or_iff_left hnone]
    refine ⟨hstate, hentries, hreason, hcarry, fun hresult => ?_, fun hresult partially => ?_⟩
    · by_cases hcancel : Call.cancel ∈ more
      · exact outcome_of_cancelled hstate' hentries hreason hsettled (hresult hcancel)
          fun _ => hlater.2 (.inr hcancel)
      · exact hsame hcancel
    · refine gather_congr hentries hreason partially ?_
      by_cases hcancel : Call.cancel ∈ more
      · exact iff_of_false (outcome_ne_incomplete (hlater.2 (.inr hcancel))) (hresult hcancel)
      · rw [hsame hcancel]
  · rw [hsound.succeeded_iff, ← hposture, Bool.not_eq_true]
  · intro houtcome
    have hclean := hsound.succeeded_iff.1 houtcome
    refine hsound.gather_ordered ?_ (by simp [houtcome])
    by_contra hnot
    simp [outcome, hclean.1, hnot] at houtcome

/-! ### A loop of one element -/

def singleSettle : Call :=
  .settle "sha256:88e6c0e545f08c4025dd098afda2bf7a8cab7312d5e577f2e682f650915f18d6" "SUCCEEDED"
    (some "sha256:3e23e8160039594a33894f6564e1b1348bbd7a0088d42c4acb73eeaed59c009d") none none

/-- The loop of one element, and its runner after some calls. -/
def singleRun (cancellationPolicy : CancellationPolicy) (calls : List Call) :
    Option (BoundLoop singleDigest × LoopRunner) :=
  (LoopRunner.construct singleDigest (singlePlan cancellationPolicy) singleSource [] EMPTY_LOOP_LEDGER
    none).toOption.map fun built => (built.1, run (step built.1) built.2 calls)

/-- A loop that completes under a recorded request ran everything clean and is cancelled, and a
cancellation after the loop settled replaces its success. -/
theorem success_replaced :
    (∃ built, singleRun .COMPLETE_ALL [.recordLaunch singleLaunch, .cancel, singleSettle] = some built ∧
      built.2.state = .SETTLED ∧ built.2.entries.length = built.1.elements.length ∧
      (∀ entry ∈ built.2.entries, entry.val.outcome = some .SUCCEEDED) ∧
      built.2.outcome built.1 = some .CANCELLED) ∧
    (∃ built, singleRun .DRAIN_IN_FLIGHT [.recordLaunch singleLaunch, singleSettle] = some built ∧
      built.2.outcome built.1 = some .SUCCEEDED ∧
      (built.2.step built.1 .cancel).outcome built.1 = some .CANCELLED) := by
  constructor
  · have hrun : (singleRun .COMPLETE_ALL [.recordLaunch singleLaunch, .cancel, singleSettle]).any
        (fun built => built.2.state = .SETTLED ∧ built.2.entries.length = built.1.elements.length ∧
          (∀ entry ∈ built.2.entries, entry.val.outcome = some .SUCCEEDED) ∧
          built.2.outcome built.1 = some .CANCELLED) = true := by
      decide +kernel
    obtain ⟨built, hbuilt, hresult⟩ := (Option.any_eq_true _ _).1 hrun
    exact ⟨built, hbuilt, of_decide_eq_true hresult⟩
  · have hrun : (singleRun .DRAIN_IN_FLIGHT [.recordLaunch singleLaunch, singleSettle]).any
        (fun built => built.2.outcome built.1 = some .SUCCEEDED ∧
          (built.2.step built.1 .cancel).outcome built.1 = some .CANCELLED) = true := by
      decide +kernel
    obtain ⟨built, hbuilt, hresult⟩ := (Option.any_eq_true _ _).1 hrun
    exact ⟨built, hbuilt, of_decide_eq_true hresult⟩

/-- The one iteration succeeded and the loop settled: its entries are final. -/
theorem settled_result_final_single : ∃ loop fresh,
    LoopRunner.construct singleDigest (singlePlan .DRAIN_IN_FLIGHT) singleSource [] EMPTY_LOOP_LEDGER
        none = .ok (loop, fresh) ∧
      ((run (step loop) fresh [.recordLaunch singleLaunch, singleSettle]).state = .SETTLED ∧
        ∀ more, (run (step loop) fresh ([.recordLaunch singleLaunch, singleSettle] ++ more)).entries =
          (run (step loop) fresh [.recordLaunch singleLaunch, singleSettle]).entries) := by
  have hrun : (LoopRunner.construct singleDigest (singlePlan .DRAIN_IN_FLIGHT) singleSource []
      EMPTY_LOOP_LEDGER none).toOption.any (fun built =>
        (run (step built.1) built.2 [.recordLaunch singleLaunch, singleSettle]).state = .SETTLED) =
          true := by
    decide +kernel
  obtain ⟨⟨loop, fresh⟩, hbuilt, hsettled⟩ := exists_ok_of_any hrun
  have hsettled := of_decide_eq_true hsettled
  exact ⟨loop, fresh, hbuilt, hsettled, fun more => ((settled_result_final hbuilt _).1 hsettled more).2.1⟩

end OmniviaCore.Execution.Loop
