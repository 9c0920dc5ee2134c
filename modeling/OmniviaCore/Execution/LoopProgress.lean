import OmniviaCore.Execution.LoopReplay

/-!
# How the entries of a runner move

Whatever the call, the entries after it extend the entries before it: a place keeps its iteration, and
an entry that is settled is not written again (`Extends`). `Moved` lists the four ways a call can
write them.
-/

namespace OmniviaCore.Execution.Loop

open Lib LoopRunner

variable {sha256 : List UInt8 → String} {loop : BoundLoop sha256} {initial : Option String}
  {runner after : LoopRunner}

/-! ## Entries that extend others -/

/-- Every recorded iteration keeps its place, and a settled entry is kept as it is. -/
def Extends (entries entries' : List IterationLedgerEntry) : Prop :=
  ∀ (i : Nat) entry, entries[i]? = some entry → ∃ entry', entries'[i]? = some entry' ∧
    entry'.val.iterationIdentity = entry.val.iterationIdentity ∧
    (entry.val.isSettled = true → entry' = entry)

namespace Extends

variable {entries entries' entries'' : List IterationLedgerEntry}

theorem refl (entries : List IterationLedgerEntry) : Extends entries entries :=
  fun _ entry h => ⟨entry, h, rfl, fun _ => rfl⟩

theorem trans (h : Extends entries entries') (h' : Extends entries' entries'') :
    Extends entries entries'' := by
  intro i entry hentry
  obtain ⟨entry', hentry', hidentity, hkept⟩ := h i entry hentry
  obtain ⟨entry'', hentry'', hidentity', hkept'⟩ := h' i entry' hentry'
  refine ⟨entry'', hentry'', hidentity'.trans hidentity, fun hsettled => ?_⟩
  obtain rfl := hkept hsettled
  exact hkept' hsettled

theorem append (entries : List IterationLedgerEntry) (entry : IterationLedgerEntry) :
    Extends entries (entries ++ [entry]) := by
  intro i found hfound
  have hi := (List.getElem?_eq_some_iff.1 hfound).1
  exact ⟨found, by rw [List.getElem?_append_left hi, hfound], rfl, fun _ => rfl⟩

theorem set {i : Nat} {entry replaced : IterationLedgerEntry} (hfound : entries[i]? = some entry)
    (hunsettled : entry.val.isSettled = false)
    (hidentity : replaced.val.iterationIdentity = entry.val.iterationIdentity) :
    Extends entries (entries.set i replaced) := by
  intro j other hother
  by_cases hij : i = j
  · subst hij
    rw [hfound] at hother
    cases hother
    refine ⟨replaced, ?_, hidentity, fun hsettled => ?_⟩
    · rw [List.getElem?_set_self (List.getElem?_eq_some_iff.1 hfound).1]
    · rw [hunsettled] at hsettled
      cases hsettled
  · exact ⟨other, by rw [List.getElem?_set_ne hij, hother], rfl, fun _ => rfl⟩

theorem length_le (h : Extends entries entries') : entries.length ≤ entries'.length := by
  by_contra hnot
  have hlt : entries'.length < entries.length := by omega
  obtain ⟨entry', hentry', -⟩ := h entries'.length _ (List.getElem?_eq_getElem hlt)
  rw [List.getElem?_eq_none (le_refl _)] at hentry'
  cases hentry'

theorem mem (h : Extends entries entries') {entry : IterationLedgerEntry} (hentry : entry ∈ entries)
    (hsettled : entry.val.isSettled = true) : entry ∈ entries' := by
  obtain ⟨i, hi⟩ := List.mem_iff_getElem?.1 hentry
  obtain ⟨entry', hentry', -, hkept⟩ := h i entry hi
  rw [hkept hsettled] at hentry'
  exact List.mem_of_getElem? hentry'

theorem failed (h : Extends entries entries') (hfailed : Failed (entries.map bare)) :
    Failed (entries'.map bare) := by
  obtain ⟨m, hm, houtcome⟩ := hfailed
  obtain ⟨entry, hentry, rfl⟩ := List.mem_map.1 hm
  refine ⟨bare entry, List.mem_map_of_mem (h.mem hentry ?_), houtcome⟩
  exact Option.isSome_iff_exists.2 ⟨_, houtcome⟩

end Extends

theorem Swept.extends {count count' : Nat} {entries entries' : List IterationLedgerEntry}
    (h : Swept count entries count' entries') : Extends entries entries' := by
  have hcons : ∀ {entry entry' : IterationLedgerEntry} {l l' : List IterationLedgerEntry},
      entry'.val.iterationIdentity = entry.val.iterationIdentity →
      (entry.val.isSettled = true → entry' = entry) → Extends l l' →
      Extends (entry :: l) (entry' :: l') := by
    intro entry entry' l l' hidentity hkept hrest i found hfound
    cases i with
    | zero =>
      rw [List.getElem?_cons_zero, Option.some.injEq] at hfound
      subst hfound
      exact ⟨entry', rfl, hidentity, hkept⟩
    | succ i => exact hrest i found hfound
  induction h with
  | nil => exact .refl _
  | settled _ _ ih => exact hcons rfl (fun _ => rfl) ih
  | cancelled hunsettled hval _ ih =>
    refine hcons (by rw [hval]; rfl) (fun hsettled => ?_) ih
    rw [hunsettled] at hsettled
    cases hsettled

theorem Swept.length_eq {count count' : Nat} {entries entries' : List IterationLedgerEntry}
    (h : Swept count entries count' entries') : entries'.length = entries.length := by
  induction h with
  | nil => rfl
  | settled _ _ ih => rw [List.length_cons, List.length_cons, ih]
  | cancelled _ _ _ ih => rw [List.length_cons, List.length_cons, ih]

/-! ## What one call writes to the entries -/

theorem refresh_entries (runner : LoopRunner) : (refresh loop runner).entries = runner.entries := by
  unfold refresh
  split
  · rfl
  · have hmark : (markSettled loop runner).entries = runner.entries := by
      unfold markSettled
      split <;> rfl
    rw [← hmark]
    unfold failOverflow
    split <;> rfl

theorem refresh_cancellationRequested (runner : LoopRunner) :
    (refresh loop runner).cancellationRequested = runner.cancellationRequested := by
  unfold refresh
  split
  · rfl
  · have hmark : (markSettled loop runner).cancellationRequested = runner.cancellationRequested := by
      unfold markSettled
      split <;> rfl
    rw [← hmark]
    unfold failOverflow
    split <;> rfl

theorem stopLaunching_entries (runner : LoopRunner) : (stopLaunching runner).entries = runner.entries := by
  unfold stopLaunching
  split <;> rfl

theorem stopLaunching_cancellationRequested (runner : LoopRunner) :
    (stopLaunching runner).cancellationRequested = runner.cancellationRequested := by
  unfold stopLaunching
  split <;> rfl

theorem applyPartialSuccess_entries (runner : LoopRunner) :
    (applyPartialSuccess loop runner).entries = runner.entries := by
  unfold applyPartialSuccess
  split
  · rfl
  · exact stopLaunching_entries runner
  · split
    · exact stopLaunching_entries runner
    · exact stopLaunching_entries runner

theorem applyPartialSuccess_cancellationRequested (runner : LoopRunner) :
    (applyPartialSuccess loop runner).cancellationRequested = runner.cancellationRequested := by
  unfold applyPartialSuccess
  split
  · rfl
  · exact stopLaunching_cancellationRequested runner
  · split
    · exact stopLaunching_cancellationRequested runner
    · exact stopLaunching_cancellationRequested runner

theorem settled_entries (index : Nat) (entry : IterationLedgerEntry) (runner : LoopRunner) :
    (settled loop index entry runner).entries = runner.entries.set index entry := by
  unfold settled
  rw [refresh_entries]
  split
  · rw [applyPartialSuccess_entries]
  · rfl

theorem settled_cancellationRequested (index : Nat) (entry : IterationLedgerEntry)
    (runner : LoopRunner) :
    (settled loop index entry runner).cancellationRequested = runner.cancellationRequested := by
  unfold settled
  rw [refresh_cancellationRequested]
  split
  · rw [applyPartialSuccess_cancellationRequested]
  · rfl

/-- The ways a call writes the entries. -/
inductive Moved (runner : LoopRunner) : List IterationLedgerEntry → Prop where
  | same : Moved runner runner.entries
  | launched (entry : IterationLedgerEntry) (hrunning : runner.state = .RUNNING) :
      Moved runner (runner.entries ++ [entry])
  | replaced (i : Nat) (entry replaced : IterationLedgerEntry) (hfound : runner.entries[i]? = some entry)
      (hunsettled : entry.val.isSettled = false)
      (hidentity : replaced.val.iterationIdentity = entry.val.iterationIdentity) :
      Moved runner (runner.entries.set i replaced)
  | swept (count count' : Nat) (entries' : List IterationLedgerEntry)
      (hswept : Swept count runner.entries count' entries') : Moved runner entries'

theorem Moved.extends {entries' : List IterationLedgerEntry} (h : Moved runner entries') :
    Extends runner.entries entries' := by
  cases h with
  | same => exact .refl _
  | launched entry _ => exact .append _ _
  | replaced i entry replaced hfound hunsettled hidentity => exact .set hfound hunsettled hidentity
  | swept count count' entries' hswept => exact hswept.extends

namespace Sound

/-- What a call does to the entries and to the cancellation posture. -/
theorem step_moved (h : Sound loop initial runner) (call : Call) :
    Moved runner (runner.step loop call).entries ∧
      ((runner.step loop call).cancellationRequested = true ↔
        runner.cancellationRequested = true ∨ call = .cancel) := by
  unfold LoopRunner.step
  cases hresult : call.perform loop runner with
  | error e after =>
    have hsame := call.raises h.sequence h.sequences hresult
    subst hsame
    refine ⟨.same, ?_⟩
    cases call with
    | cancel =>
      obtain ⟨cancelled, s, hreturns, -⟩ := cancel_returns loop h.sequence h.sequences
      rw [Call.perform, map_raises, hreturns] at hresult
      cases hresult
    | _ => simp [finalState]
  | ok answered after =>
    show Moved runner after.entries ∧ (after.cancellationRequested = true ↔ _)
    cases call with
    | recordLaunch launch =>
      obtain ⟨entry, hcall, -⟩ := map_returns.1 hresult
      obtain ⟨hlaunchable, -, -, rfl⟩ := recordLaunch_returns.1 hcall
      exact ⟨.launched entry hlaunchable.running, by simp⟩
    | recordEffectSettlement iterationIdentity settlement =>
      obtain ⟨u, hcall, -⟩ := map_returns.1 hresult
      obtain ⟨i, entry, replaced, hfound, hunsettled, hreplaced, rfl⟩ :=
        recordEffectSettlement_returns hcall
      exact ⟨.replaced i entry replaced hfound hunsettled (by rw [hreplaced]), by simp⟩
    | settle iterationIdentity outcome outputsDigest failureReason resultingCarryDigest =>
      obtain ⟨entry, hcall, -⟩ := map_returns.1 hresult
      obtain ⟨i, found, member, hfound, hunsettled, -, -, hanswered, rfl⟩ := settle_returns hcall
      rw [settled_entries, settled_cancellationRequested]
      exact ⟨.replaced i found entry hfound hunsettled (by rw [hanswered]; rfl), by simp⟩
    | cancel =>
      obtain ⟨cancelled, hcall, -⟩ := map_returns.1 hresult
      obtain ⟨_, _, hreturns, hafter⟩ := cancel_returns loop h.sequence h.sequences
      rw [hcall] at hreturns
      cases hreturns
      rcases hafter with ⟨-, rfl⟩ | ⟨-, rfl⟩ | ⟨-, count', entries', hswept, rfl⟩
      · exact ⟨.same, by simp⟩
      · rw [refresh_entries, stopLaunching_entries, refresh_cancellationRequested,
          stopLaunching_cancellationRequested]
        exact ⟨.same, by simp⟩
      · rw [refresh_entries, refresh_cancellationRequested]
        refine ⟨.swept _ _ _ hswept, ?_⟩
        show (stopLaunching { runner with cancellationRequested := true }).cancellationRequested = true ↔ _
        rw [stopLaunching_cancellationRequested]
        simp
    | recordLateResult iterationIdentity evidenceRef =>
      obtain ⟨late, hcall, -⟩ := map_returns.1 hresult
      simp only [LoopRunner.recordLateResult, bind_returns, lift_returns] at hcall
      obtain ⟨_, _, ⟨-, rfl⟩, hcall⟩ := hcall
      obtain ⟨-, -, -, -, rfl⟩ := admitLate_returns hcall
      exact ⟨.same, by simp⟩

theorem step_extends (h : Sound loop initial runner) (call : Call) :
    Extends runner.entries (runner.step loop call).entries :=
  (h.step_moved call).1.extends

theorem run_cancellationRequested (h : Sound loop initial runner) (calls : List Call) :
    (Lib.run (LoopRunner.step loop) runner calls).cancellationRequested = true ↔
      runner.cancellationRequested = true ∨ .cancel ∈ calls := by
  induction calls generalizing runner with
  | nil => simp
  | cons call calls ih =>
    rw [run_cons, ih (h.step call), (h.step_moved call).2, List.mem_cons, or_assoc,
      @eq_comm _ call]

/-! ## Stops -/

theorem stopped_not_running (h : Sound loop initial runner)
    (hstopped : Stopped loop runner.cancellationRequested runner.bare) : runner.state ≠ .RUNNING := by
  rw [h.state]
  intro hrunning
  exact (phase_eq_running.1 hrunning).2 hstopped

/-- A stop is not undone, and nothing is launched after it. -/
theorem stopped_step (h : Sound loop initial runner)
    (hstopped : Stopped loop runner.cancellationRequested runner.bare) (call : Call) :
    Stopped loop (runner.step loop call).cancellationRequested (runner.step loop call).bare ∧
      (runner.step loop call).entries.length = runner.entries.length := by
  obtain ⟨hmoved, hcancelled⟩ := h.step_moved call
  refine ⟨?_, ?_⟩
  · rcases hstopped with ⟨hrequested, hpolicy⟩ | ⟨hpolicy, hfailed⟩
    · exact .inl ⟨hcancelled.2 (.inl hrequested), hpolicy⟩
    · exact .inr ⟨hpolicy, hmoved.extends.failed hfailed⟩
  · generalize (runner.step loop call).entries = entries' at hmoved
    cases hmoved with
    | same => rfl
    | launched _ hrunning => exact absurd hrunning (h.stopped_not_running hstopped)
    | replaced => exact List.length_set
    | swept _ _ _ hswept => exact hswept.length_eq

theorem stopped_run (h : Sound loop initial runner)
    (hstopped : Stopped loop runner.cancellationRequested runner.bare) (calls : List Call) :
    Stopped loop (Lib.run (LoopRunner.step loop) runner calls).cancellationRequested
        (Lib.run (LoopRunner.step loop) runner calls).bare ∧
      (Lib.run (LoopRunner.step loop) runner calls).entries.length = runner.entries.length := by
  induction calls generalizing runner with
  | nil => exact ⟨hstopped, rfl⟩
  | cons call calls ih =>
    obtain ⟨hstep, hlength⟩ := h.stopped_step hstopped call
    obtain ⟨hrun, hrunLength⟩ := ih (h.step call) hstep
    exact ⟨hrun, hrunLength.trans hlength⟩

/-! ## A settled loop -/

/-- A settled loop stays settled, with its entries, its failure reason and its carry. -/
theorem settled_step (h : Sound loop initial runner) (hsettled : runner.state = .SETTLED) (call : Call) :
    (runner.step loop call).state = .SETTLED ∧ (runner.step loop call).entries = runner.entries ∧
      (runner.step loop call).failureReason = runner.failureReason ∧
      (runner.step loop call).carryDigest = runner.carryDigest := by
  have hstep := h.step call
  obtain ⟨hmoved, hcancelled⟩ := h.step_moved call
  have hfinished := phase_eq_settled.1 (h.state.symm.trans hsettled)
  have hentries : (runner.step loop call).entries = runner.entries := by
    generalize (runner.step loop call).entries = entries' at hmoved
    cases hmoved with
    | same => rfl
    | launched _ hrunning => rw [hsettled] at hrunning; cases hrunning
    | replaced i entry replaced hfound hunsettled _ =>
      have hentry : entry.val.isSettled = true :=
        hfinished.1 (bare entry) (List.mem_map_of_mem (List.mem_of_getElem? hfound))
      rw [hunsettled] at hentry
      cases hentry
    | swept count count' entries' hswept =>
      exact (hswept.eq_of_settled fun e he => hfinished.1 (bare e) (List.mem_map_of_mem he)).1
  have hbare : (runner.step loop call).bare = runner.bare := by
    rw [LoopRunner.bare, hentries]
    rfl
  have hfinished' : Finished loop (runner.step loop call).cancellationRequested runner.bare := by
    refine ⟨hfinished.1, hfinished.2.imp_left fun hstopped => ?_⟩
    exact hstopped.imp_left fun hstop => ⟨hcancelled.2 (.inl hstop.1), hstop.2⟩
  refine ⟨?_, hentries, ?_, ?_⟩
  · rw [hstep.state, hbare]
    exact phase_eq_settled.2 hfinished'
  · rw [hstep.failure, h.failure, hbare, reason, reason]
    simp only [hfinished, hfinished']
  · rw [hstep.carry, h.carry, hbare]

end Sound

end OmniviaCore.Execution.Loop
