import OmniviaCore.Execution.LoopLedgers

/-!
# The invariant of the loop runner

A live runner is determined by its ledger and its initial carry: the loop state, the failure reason,
the carry and the two sequence counters are functions of the entries and of the cancellation posture
(`phase`, `reason`, `carryAfter`, `settledCount`). `Sound` says so, together with what the posture and
the late results say about the entries. `Sound.step` is the step lemma and `sound_run` the run lemma.
-/

namespace OmniviaCore.Execution.Loop

open Lib LoopRunner

variable {sha256 : List UInt8 → String} (loop : BoundLoop sha256) (initial : Option String)

/-! ## What the entries and the posture determine -/

def Failed (entries : List EntryMembers) : Prop := ∃ entry ∈ entries, entry.outcome = some .FAILED

instance (entries : List EntryMembers) : Decidable (Failed entries) := by
  unfold Failed
  infer_instance

def Stopped (cancelled : Bool) (entries : List EntryMembers) : Prop :=
  (cancelled = true ∧ loop.plan.cancellationPolicy ≠ .COMPLETE_ALL) ∨
    (loop.plan.partialSuccessPolicy ≠ .RECORD_AND_CONTINUE ∧ Failed entries)

instance (cancelled : Bool) (entries : List EntryMembers) : Decidable (Stopped loop cancelled entries) := by
  unfold Stopped
  infer_instance

/-- The loop state while iterations may be in flight. -/
def openState (cancelled : Bool) (entries : List EntryMembers) : LoopState :=
  if Stopped loop cancelled entries then .STOPPING else .RUNNING

/-- Nothing is in flight, and nothing more is launched. -/
def Finished (cancelled : Bool) (entries : List EntryMembers) : Prop :=
  (∀ entry ∈ entries, entry.isSettled = true) ∧
    (Stopped loop cancelled entries ∨ loop.reachable ≤ entries.length)

instance (cancelled : Bool) (entries : List EntryMembers) :
    Decidable (Finished loop cancelled entries) := by
  unfold Finished
  infer_instance

def phase (cancelled : Bool) (entries : List EntryMembers) : LoopState :=
  if Finished loop cancelled entries then .SETTLED else openState loop cancelled entries

/-- The failure reason while iterations may be in flight. -/
def openReason (entries : List EntryMembers) : Option String :=
  if loop.plan.partialSuccessPolicy = .FAIL_LOOP ∧ Failed entries then some "iteration_failed" else none

def reason (cancelled : Bool) (entries : List EntryMembers) : Option String :=
  (openReason loop entries).or
    (if Finished loop cancelled entries ∧ loop.plan.maximumIterations < loop.elements.length ∧
        loop.plan.maximumIterations ≤ entries.length then some "maximum_iterations_exceeded"
      else none)

/-- What holds of every runner that calls lead to. -/
structure Sound (runner : LoopRunner) : Prop where
  initial_carry : initial.isSome = loop.plan.carryEnabled
  ledgered : Ledgered loop initial runner.bare
  carry : runner.carryDigest = carryAfter initial runner.bare
  asserted : runner.carryAsserted = initial.isSome
  sequence : runner.sequence = settledCount runner.bare
  sequences : runner.sequences = countedFromOne (settledCount runner.bare)
  state : runner.state = phase loop runner.cancellationRequested runner.bare
  failure : runner.failureReason = reason loop runner.cancellationRequested runner.bare
  cancelled : ∀ entry ∈ runner.bare, entry.outcome = some .CANCELLED →
    runner.cancellationRequested = true ∧ loop.plan.cancellationPolicy = .CANCEL_REMAINING
  swept : runner.cancellationRequested = true → loop.plan.cancellationPolicy = .CANCEL_REMAINING →
    ∀ entry ∈ runner.bare, entry.isSettled = true
  swept_last : ∀ entry ∈ runner.bare, entry.outcome = some .CANCELLED → ∀ other ∈ runner.bare,
    ∀ s ∈ entry.settlementSequence, ∀ s' ∈ other.settlementSequence, s < s' →
      other.outcome = some .CANCELLED
  late_nodup : (runner.late.map fun late => late.val.iterationIdentity).Nodup
  late_recorded : ∀ late ∈ runner.late, ∃ entry ∈ runner.bare,
    entry.iterationIdentity = late.val.iterationIdentity
  late_settled : runner.late ≠ [] → runner.state = .SETTLED

variable {loop initial} {runner : LoopRunner} {entries : List EntryMembers} {cancelled : Bool}

/-! ## States -/

theorem phase_eq_settled : phase loop cancelled entries = .SETTLED ↔ Finished loop cancelled entries := by
  unfold phase openState
  split
  · next h => simp [h]
  · next h => split <;> simp [h]

theorem phase_eq_running : phase loop cancelled entries = .RUNNING ↔
    ¬Finished loop cancelled entries ∧ ¬Stopped loop cancelled entries := by
  unfold phase openState
  split
  · next h => simp [h]
  · next h => split <;> simp_all

/-- `_refresh` on a runner that is not settled yet. -/
theorem refresh_open (hstate : runner.state = openState loop runner.cancellationRequested runner.bare)
    (hfailure : runner.failureReason = openReason loop runner.bare) :
    refresh loop runner = { runner with
      state := phase loop runner.cancellationRequested runner.bare
      failureReason := reason loop runner.cancellationRequested runner.bare } := by
  have hopen : runner.state ≠ .SETTLED := by
    rw [hstate, openState]
    split <;> simp
  have hstopping : runner.state = .STOPPING ↔ Stopped loop runner.cancellationRequested runner.bare := by
    rw [hstate, openState]
    split
    · next h => simp [h]
    · next h => simp [h]
  have hlength := length_bare runner
  unfold refresh
  by_cases hflight : runner.inFlight = []
  · have hall := (inFlight_eq_nil runner).1 hflight
    rw [if_neg (by simp [hopen, hflight])]
    by_cases hdone : Stopped loop runner.cancellationRequested runner.bare ∨
        loop.reachable ≤ runner.bare.length
    · have hfinished : Finished loop runner.cancellationRequested runner.bare := ⟨hall, hdone⟩
      have hmark : markSettled loop runner = { runner with state := .SETTLED } :=
        if_pos (by rwa [hstopping, ← hlength])
      rw [hmark, failOverflow, phase_eq_settled.2 hfinished, reason, hlength, ← hfailure]
      cases runner.failureReason with
      | none => simp [hfinished]; split <;> rfl
      | some text => simp
    · have hfinished : ¬Finished loop runner.cancellationRequested runner.bare := fun h => hdone h.2
      have hmark : markSettled loop runner = runner := if_neg (by rwa [hstopping, ← hlength])
      rw [hmark, failOverflow, if_neg (fun h => hopen h.1), phase, if_neg hfinished, reason,
        if_neg (fun h => hfinished h.1), Option.or_none, ← hstate, ← hfailure]
  · have hfinished : ¬Finished loop runner.cancellationRequested runner.bare :=
      fun h => hflight ((inFlight_eq_nil runner).2 h.1)
    rw [if_pos (.inr hflight), phase, if_neg hfinished, reason, if_neg (fun h => hfinished h.1),
      Option.or_none, ← hstate, ← hfailure]

theorem refresh_settled (h : runner.state = .SETTLED) : refresh loop runner = runner :=
  if_pos (.inl h)

theorem openState_of_not_finished (h : ¬Finished loop cancelled entries) :
    phase loop cancelled entries = openState loop cancelled entries :=
  if_neg h

theorem openReason_of_not_finished (h : ¬Finished loop cancelled entries) :
    reason loop cancelled entries = openReason loop entries := by
  rw [reason, if_neg (fun hfinished => h hfinished.1), Option.or_none]

theorem stopLaunching_open (h : runner.state ≠ .SETTLED) :
    stopLaunching runner = { runner with state := .STOPPING } := by
  unfold stopLaunching
  cases hstate : runner.state with
  | RUNNING => rfl
  | STOPPING => simp [← hstate]
  | SETTLED => exact absurd hstate h

theorem openReason_congr {entries' : List EntryMembers} (h : Failed entries' ↔ Failed entries) :
    openReason loop entries' = openReason loop entries := by
  simp only [openReason, h]

theorem openState_congr {cancelled' : Bool} {entries' : List EntryMembers}
    (h : Stopped loop cancelled' entries' ↔ Stopped loop cancelled entries) :
    openState loop cancelled' entries' = openState loop cancelled entries := by
  simp only [openState, h]

/-- `_apply_partial_success` brings a runner that recorded a failure up to date. -/
theorem applyPartialSuccess_open {before : List EntryMembers}
    (hstate : runner.state = openState loop runner.cancellationRequested before)
    (hfailure : runner.failureReason = openReason loop before) (hfailed : Failed runner.bare) :
    applyPartialSuccess loop runner = { runner with
      state := openState loop runner.cancellationRequested runner.bare
      failureReason := openReason loop runner.bare } := by
  have hopen : runner.state ≠ .SETTLED := by
    rw [hstate, openState]
    split <;> simp
  unfold applyPartialSuccess
  cases hpolicy : loop.plan.partialSuccessPolicy with
  | RECORD_AND_CONTINUE =>
    have hsame : ∀ entries, Stopped loop runner.cancellationRequested entries ↔
        runner.cancellationRequested = true ∧ loop.plan.cancellationPolicy ≠ .COMPLETE_ALL := by
      intro entries
      simp [Stopped, hpolicy]
    have hnone : ∀ entries, openReason loop entries = none := by
      intro entries
      simp [openReason, hpolicy]
    simp only [openState, hsame] at hstate ⊢
    rw [hnone] at hfailure ⊢
    simp only [← hstate, ← hfailure]
  | RECORD_AND_STOP_AFTER_CURRENT =>
    have hstopped : Stopped loop runner.cancellationRequested runner.bare :=
      .inr ⟨by simp [hpolicy], hfailed⟩
    have hnone : ∀ entries, openReason loop entries = none := by
      intro entries
      simp [openReason, hpolicy]
    rw [hnone] at hfailure ⊢
    simp only [stopLaunching_open hopen, openState, if_pos hstopped, ← hfailure]
  | FAIL_LOOP =>
    have hstopped : Stopped loop runner.cancellationRequested runner.bare :=
      .inr ⟨by simp [hpolicy], hfailed⟩
    have hsome : openReason loop runner.bare = some "iteration_failed" := if_pos ⟨hpolicy, hfailed⟩
    simp only [stopLaunching_open hopen, openState, if_pos hstopped, hsome]
    by_cases hbefore : Failed before
    · rw [openReason, if_pos ⟨hpolicy, hbefore⟩] at hfailure
      simp [hfailure]
    · rw [openReason, if_neg (fun h => hbefore h.2)] at hfailure
      simp [hfailure]

/-! ## Sweeps -/

section Sweeps

variable {count count' : Nat} {rest rest' : List IterationLedgerEntry}

theorem bare_swept {entry entry' : IterationLedgerEntry} {s : Int}
    (h : entry'.val = sweptMembers entry.val s) : bare entry' = sweptMembers (bare entry) s := by
  rw [bare, h]
  rfl

/-- A sweep changes no member but the three it writes. -/
theorem Swept.map_eq {β : Type} {f : EntryMembers → β} (hf : ∀ m s, f (sweptMembers m s) = f m)
    (h : Swept count rest count' rest') : rest'.map (fun e => f (bare e)) = rest.map (fun e => f (bare e)) := by
  induction h with
  | nil => rfl
  | settled _ _ ih => rw [List.map_cons, List.map_cons, ih]
  | cancelled _ hval _ ih => rw [List.map_cons, List.map_cons, ih, bare_swept hval, hf]

theorem Swept.eq_of_settled (h : Swept count rest count' rest')
    (hsettled : ∀ e ∈ rest, e.val.isSettled = true) : rest' = rest ∧ count' = count := by
  induction h with
  | nil => exact ⟨rfl, rfl⟩
  | settled _ _ ih =>
    obtain ⟨rfl, rfl⟩ := ih fun e he => hsettled e (List.mem_cons_of_mem _ he)
    exact ⟨rfl, rfl⟩
  | cancelled hunsettled _ _ _ =>
    rw [hsettled _ List.mem_cons_self] at hunsettled
    cases hunsettled

theorem Swept.mem (h : Swept count rest count' rest') {e' : IterationLedgerEntry} (he : e' ∈ rest') :
    (e' ∈ rest ∧ e'.val.isSettled = true) ∨
      ∃ e ∈ rest, ∃ s : Int, e.val.isSettled = false ∧ (count : Int) < s ∧
        e'.val = sweptMembers e.val s := by
  induction h with
  | nil => cases he
  | settled hsettled _ ih =>
    rcases List.mem_cons.1 he with rfl | he
    · exact .inl ⟨List.mem_cons_self, hsettled⟩
    · rcases ih he with ⟨hmem, hs⟩ | ⟨e, hmem, s, hrest⟩
      · exact .inl ⟨List.mem_cons_of_mem _ hmem, hs⟩
      · exact .inr ⟨e, List.mem_cons_of_mem _ hmem, s, hrest⟩
  | cancelled hunsettled hval _ ih =>
    rcases List.mem_cons.1 he with rfl | he
    · exact .inr ⟨_, List.mem_cons_self, _, hunsettled, by omega, hval⟩
    · rcases ih he with ⟨hmem, hs⟩ | ⟨e, hmem, s, he, hlt, hrest⟩
      · exact .inl ⟨List.mem_cons_of_mem _ hmem, hs⟩
      · exact .inr ⟨e, List.mem_cons_of_mem _ hmem, s, he, by omega, hrest⟩

theorem Swept.mem_of_settled (h : Swept count rest count' rest') {e : IterationLedgerEntry}
    (he : e ∈ rest) (hsettled : e.val.isSettled = true) : e ∈ rest' := by
  induction h with
  | nil => cases he
  | settled _ _ ih =>
    rcases List.mem_cons.1 he with rfl | he
    · exact List.mem_cons_self
    · exact List.mem_cons_of_mem _ (ih he)
  | cancelled hunsettled _ _ ih =>
    rcases List.mem_cons.1 he with rfl | he
    · rw [hsettled] at hunsettled
      cases hunsettled
    · exact List.mem_cons_of_mem _ (ih he)

theorem Swept.ledgered (h : Swept count rest count' rest') (done : List IterationLedgerEntry)
    (hledgered : Ledgered loop initial ((done ++ rest).map bare))
    (hcount : settledCount ((done ++ rest).map bare) = count) :
    Ledgered loop initial ((done ++ rest').map bare) ∧
      settledCount ((done ++ rest').map bare) = count' := by
  induction h generalizing done with
  | nil => exact ⟨hledgered, hcount⟩
  | @settled _ _ entry _ _ _ _ ih =>
    have hsplit : ∀ l : List IterationLedgerEntry, done ++ entry :: l = done ++ [entry] ++ l := by simp
    rw [hsplit] at hledgered hcount ⊢
    exact ih (done ++ [entry]) hledgered hcount
  | @cancelled count _ entry entry' l _ hunsettled hval _ ih =>
    have hget : ((done ++ entry :: l).map bare)[done.length]? = some (bare entry) := by simp
    have hset : ((done ++ entry :: l).map bare).set done.length (bare entry') =
        ((done ++ [entry'] ++ l).map bare) := by simp
    have hsettles : Ledgered.Settles loop ((done ++ entry :: l).map bare) done.length (bare entry)
        (bare entry') := by
      rw [bare_swept hval]
      refine ⟨hget, hunsettled, ?_, by rw [hcount]; rfl, rfl, rfl, rfl, rfl, .inl ?_⟩
      · rw [← bare_swept hval]
        exact coherent_bare entry'
      · exact ((coherent_bare entry).unsettled hunsettled).2.2.2.2.2
    have hstep := hledgered.settle hsettles
    have hcount' := hsettles.settledCount_eq
    rw [hset] at hstep hcount'
    have hnext := ih (done ++ [entry']) hstep (by rw [hcount', hcount])
    simpa using hnext

end Sweeps

/-! ## What each call keeps -/

namespace Sound

variable {after : LoopRunner}

theorem carryAfter_uncarried (h : Sound loop initial runner) (hdisabled : loop.plan.carryEnabled = false) :
    carryAfter initial runner.bare = none := by
  have hnone : initial = none := by
    have hcarry := h.initial_carry
    rw [hdisabled] at hcarry
    simpa using hcarry
  rw [carryAfter_of_none (h.ledgered.uncarried hdisabled), hnone]

theorem not_finished (h : Sound loop initial runner) (hstate : runner.state ≠ .SETTLED) :
    ¬Finished loop runner.cancellationRequested runner.bare := fun hfinished =>
  hstate (h.state.trans (phase_eq_settled.2 hfinished))

theorem recordLaunch (h : Sound loop initial runner) {launch : IterationLaunch}
    {entry : IterationLedgerEntry}
    (hcall : LoopRunner.recordLaunch loop launch runner = .ok entry after) :
    Sound loop initial after := by
  obtain ⟨hlaunch, -, hentry, rfl⟩ := recordLaunch_returns.1 hcall
  obtain ⟨hnotfinished, hnotstopped⟩ := phase_eq_running.1 (h.state.symm.trans hlaunch.running)
  have hbareEntry : bare entry = launchedMembers launch.val := by
    rw [bare, hentry]
    rfl
  have hlength := length_bare runner
  have hbare : ({ runner with entries := runner.entries ++ [entry] } : LoopRunner).bare =
      runner.bare ++ [bare entry] := by simp [LoopRunner.bare]
  have hunsettled : (bare entry).isSettled = false := by
    rw [hbareEntry]
    rfl
  have hoccurs : ∀ m ∈ runner.bare ++ [bare entry], m ∈ runner.bare ∨ m = launchedMembers launch.val := by
    intro m hm
    rcases List.mem_append.1 hm with hm | hm
    · exact .inl hm
    · exact .inr ((List.mem_singleton.1 hm).trans hbareEntry)
  have hfailed : Failed (runner.bare ++ [bare entry]) ↔ Failed runner.bare := by
    constructor
    · rintro ⟨m, hm, houtcome⟩
      rcases hoccurs m hm with hm | rfl
      · exact ⟨m, hm, houtcome⟩
      · cases houtcome
    · rintro ⟨m, hm, houtcome⟩
      exact ⟨m, List.mem_append_left _ hm, houtcome⟩
  have hstopped : Stopped loop runner.cancellationRequested (runner.bare ++ [bare entry]) ↔
      Stopped loop runner.cancellationRequested runner.bare := by
    rw [Stopped, Stopped, hfailed]
  have hflying : ¬Finished loop runner.cancellationRequested (runner.bare ++ [bare entry]) := by
    intro hfinished
    rw [hfinished.1 (bare entry) (by simp)] at hunsettled
    cases hunsettled
  have hcount : settledCount (runner.bare ++ [bare entry]) = settledCount runner.bare := by
    simp [settledCount, hunsettled]
  have hresulting : (bare entry).resultingCarryDigest = none := by
    rw [hbareEntry]
    rfl
  constructor
  case initial_carry => exact h.initial_carry
  case ledgered =>
    rw [hbare]
    apply h.ledgered.launch (coherent_bare entry) hunsettled
    · rw [hbareEntry, hlength]
      exact hlaunch.ordinal
    · rw [hbareEntry, hlength, ← hlaunch.ordinal]
      exact hlaunch.identity
    · rw [hbareEntry, hlength, ← hlaunch.ordinal]
      exact hlaunch.inputs
    · rw [hbareEntry]
      refine hlaunch.carry.trans ?_
      cases hcarrying : loop.plan.carryEnabled with
      | false => rw [h.carryAfter_uncarried hcarrying]; rfl
      | true => exact h.carry
    · rw [hlength]
      exact hlaunch.room
    · rw [← inFlight_length]
      exact hlaunch.concurrency
  case carry =>
    rw [hbare, carryAfter_concat, hresulting, Option.none_or]
    exact h.carry
  case asserted => exact h.asserted
  case sequence =>
    rw [hbare, hcount]
    exact h.sequence
  case sequences =>
    rw [hbare, hcount]
    exact h.sequences
  case state =>
    rw [hbare, phase, if_neg hflying, openState, if_neg (mt hstopped.1 hnotstopped)]
    exact hlaunch.running
  case failure =>
    rw [hbare, openReason_of_not_finished hflying, openReason_congr hfailed]
    exact h.failure.trans (openReason_of_not_finished hnotfinished)
  case cancelled =>
    intro m hm houtcome
    rw [hbare] at hm
    rcases hoccurs m hm with hm | rfl
    · exact h.cancelled m hm houtcome
    · cases houtcome
  case swept =>
    intro hcancelled hpolicy
    exact absurd (.inl ⟨hcancelled, by simp [hpolicy]⟩) hnotstopped
  case swept_last =>
    intro m hm houtcome other hother s hs s' hs' hlt
    rw [hbare] at hm hother
    rcases hoccurs m hm with hm | rfl
    · rcases hoccurs other hother with hother | rfl
      · exact h.swept_last m hm houtcome other hother s hs s' hs' hlt
      · cases hs'
    · cases houtcome
  case late_nodup => exact h.late_nodup
  case late_recorded =>
    intro late hlate
    obtain ⟨m, hm, hidentity⟩ := h.late_recorded late hlate
    rw [hbare]
    exact ⟨m, List.mem_append_left _ hm, hidentity⟩
  case late_settled =>
    intro hlate
    have hsettled := h.late_settled hlate
    rw [hlaunch.running] at hsettled
    cases hsettled

theorem recordEffectSettlement (h : Sound loop initial runner) {iterationIdentity : String}
    {settlement : EffectSettlement} {u : PUnit}
    (hcall : LoopRunner.recordEffectSettlement iterationIdentity settlement runner = .ok u after) :
    Sound loop initial after := by
  obtain ⟨index, entry, replaced, hfound, -, hreplaced, rfl⟩ := recordEffectSettlement_returns hcall
  have hbare : ({ runner with entries := runner.entries.set index replaced } : LoopRunner).bare =
      runner.bare := by
    refine map_set_eq hfound ?_
    rw [bare, hreplaced]
    rfl
  exact ⟨h.initial_carry, hbare ▸ h.ledgered, hbare ▸ h.carry, h.asserted, hbare ▸ h.sequence,
    hbare ▸ h.sequences, hbare ▸ h.state, hbare ▸ h.failure, hbare ▸ h.cancelled, hbare ▸ h.swept,
    hbare ▸ h.swept_last, h.late_nodup, hbare ▸ h.late_recorded, h.late_settled⟩

theorem recordLateResult (h : Sound loop initial runner) {late answered : LateResult}
    (hcall : LoopRunner.admitLate late runner = .ok answered after) : Sound loop initial after := by
  obtain ⟨hstate, ⟨entry, hentry, hidentity⟩, hfresh, -, rfl⟩ := admitLate_returns hcall
  refine { h with late_nodup := ?_, late_recorded := ?_, late_settled := fun _ => hstate }
  · rw [List.map_append, List.map_singleton, List.nodup_append]
    refine ⟨h.late_nodup, List.nodup_singleton _, ?_⟩
    intro identity hmem other hother
    obtain ⟨recorded, hrecorded, rfl⟩ := List.mem_map.1 hmem
    rw [List.mem_singleton.1 hother]
    exact hfresh recorded hrecorded
  · intro recorded hrecorded
    rcases List.mem_append.1 hrecorded with hrecorded | hrecorded
    · exact h.late_recorded recorded hrecorded
    · rw [List.mem_singleton.1 hrecorded]
      exact ⟨bare entry, List.mem_map_of_mem hentry, hidentity⟩

theorem settle (h : Sound loop initial runner) {iterationIdentity outcome : String}
    {outputsDigest failureReason resultingCarryDigest : Option String}
    {answered : IterationLedgerEntry}
    (hcall : LoopRunner.settle loop iterationIdentity outcome outputsDigest failureReason
      resultingCarryDigest runner = .ok answered after) : Sound loop initial after := by
  obtain ⟨i, entry, member, hfound, hunsettled, hmember, hcarrying, hanswered, rfl⟩ :=
    settle_returns hcall
  have hbareAnswered : bare answered = settledMembers (bare entry) member outputsDigest failureReason
      resultingCarryDigest (settledCount runner.bare + 1) := by
    rw [bare, hanswered, h.sequence]
    rfl
  have hget : runner.bare[i]? = some (bare entry) := by
    rw [LoopRunner.bare, List.getElem?_map, hfound]
    rfl
  have hflying : ¬∀ m ∈ runner.bare, m.isSettled = true := by
    intro hall
    have hsettled := hall (bare entry) (List.mem_of_getElem? hget)
    rw [show (bare entry).isSettled = entry.val.isSettled from rfl, hunsettled] at hsettled
    cases hsettled
  have hnotfinished : ¬Finished loop runner.cancellationRequested runner.bare :=
    fun hfinished => hflying hfinished.1
  have hsettles : Ledgered.Settles loop runner.bare i (bare entry) (bare answered) := by
    refine ⟨hget, hunsettled, coherent_bare answered, ?_, ?_, ?_, ?_, ?_, ?_⟩
    all_goals rw [hbareAnswered]
    · rfl
    · rfl
    · rfl
    · rfl
    · rfl
    · exact hcarrying
  have hledgered := h.ledgered.settle hsettles
  have hcount := hsettles.settledCount_eq
  have hcarry := h.ledgered.carryAfter_set hsettles
  have hnotswept : ¬(runner.cancellationRequested = true ∧
      loop.plan.cancellationPolicy = .CANCEL_REMAINING) := fun hswept =>
    hflying (h.swept hswept.1 hswept.2)
  -- the runner once the settlement is recorded, before its consequences
  generalize hrecorded : ({ runner with
    sequence := runner.sequence + 1
    sequences := insert (runner.sequence + 1) runner.sequences
    entries := runner.entries.set i answered
    carryDigest := answered.val.resultingCarryDigest.or runner.carryDigest } : LoopRunner) = recorded
  have hbare : recorded.bare = runner.bare.set i (bare answered) := by
    rw [← hrecorded, LoopRunner.bare, LoopRunner.bare, List.map_set]
  have hposture : recorded.cancellationRequested = runner.cancellationRequested := by rw [← hrecorded]
  have hstate : recorded.state = openState loop recorded.cancellationRequested runner.bare := by
    rw [hposture, ← openState_of_not_finished hnotfinished, ← h.state, ← hrecorded]
  have hreason : recorded.failureReason = openReason loop runner.bare := by
    rw [← openReason_of_not_finished hnotfinished, ← h.failure, ← hrecorded]
  have hmembers : ∀ m ∈ recorded.bare, m = bare answered ∨ m ∈ runner.bare := by
    intro m hm
    rw [hbare] at hm
    exact mem_of_mem_set hget hm
  have hafter : settled loop i answered runner = { recorded with
      state := phase loop recorded.cancellationRequested recorded.bare
      failureReason := reason loop recorded.cancellationRequested recorded.bare } := by
    have hunfold : settled loop i answered runner = refresh loop
        (if answered.val.outcome = some .FAILED then applyPartialSuccess loop recorded else recorded) := by
      rw [← hrecorded]
      rfl
    rw [hunfold]
    by_cases hfailed : answered.val.outcome = some .FAILED
    · have hfailed' : Failed recorded.bare := by
        refine ⟨bare answered, ?_, hfailed⟩
        rw [hbare]
        exact (mem_set_iff hget).2 (.inl rfl)
      rw [if_pos hfailed, applyPartialSuccess_open hstate hreason hfailed', refresh_open rfl rfl]
      rfl
    · have hsame : Failed recorded.bare ↔ Failed runner.bare := by
        constructor
        · rintro ⟨m, hm, houtcome⟩
          rcases hmembers m hm with rfl | hm
          · exact absurd houtcome hfailed
          · exact ⟨m, hm, houtcome⟩
        · rintro ⟨m, hm, houtcome⟩
          obtain ⟨j, hj⟩ := List.mem_iff_getElem?.1 hm
          refine ⟨m, ?_, houtcome⟩
          rw [hbare]
          refine (mem_set_iff hget).2 (.inr ⟨j, ?_, hj⟩)
          rintro rfl
          rw [hget, Option.some.injEq] at hj
          subst hj
          rw [((coherent_bare entry).unsettled hunsettled).1] at houtcome
          cases houtcome
      rw [if_neg hfailed, refresh_open]
      · rw [hstate]
        exact openState_congr (by rw [Stopped, Stopped, hsame])
      · rw [hreason, openReason_congr hsame]
  rw [hafter]
  have hlate : runner.late = [] := by
    by_contra hne
    exact hnotfinished (phase_eq_settled.1 (h.state.symm.trans (h.late_settled hne)))
  constructor
  case initial_carry => exact h.initial_carry
  case ledgered =>
    show Ledgered loop initial recorded.bare
    rw [hbare]
    exact hledgered
  case carry =>
    show recorded.carryDigest = carryAfter initial recorded.bare
    rw [hbare, hcarry, ← h.carry, ← hrecorded]
    rfl
  case asserted =>
    show recorded.carryAsserted = initial.isSome
    rw [← h.asserted, ← hrecorded]
  case sequence =>
    show recorded.sequence = (settledCount recorded.bare : Int)
    rw [hbare, hcount, ← hrecorded]
    push_cast
    rw [← h.sequence]
  case sequences =>
    show recorded.sequences = countedFromOne (settledCount recorded.bare)
    rw [hbare, hcount, countedFromOne_succ, ← h.sequence, ← h.sequences, ← hrecorded]
  case state => rfl
  case failure => rfl
  case cancelled =>
    intro m hm houtcome
    show recorded.cancellationRequested = true ∧ _
    rw [hposture]
    rcases hmembers m hm with rfl | hm
    · rw [hbareAnswered] at houtcome
      exact absurd (Option.some.inj houtcome) hmember
    · exact h.cancelled m hm houtcome
  case swept =>
    intro hcancelled hpolicy
    exact absurd ⟨hposture.symm.trans hcancelled, hpolicy⟩ hnotswept
  case swept_last =>
    intro m hm houtcome
    rcases hmembers m hm with rfl | hm
    · rw [hbareAnswered] at houtcome
      exact absurd (Option.some.inj houtcome) hmember
    · exact absurd (h.cancelled m hm houtcome) hnotswept
  case late_nodup =>
    show (recorded.late.map _).Nodup
    rw [← hrecorded]
    exact h.late_nodup
  case late_recorded =>
    intro late hmem
    have hmem : late ∈ runner.late := by
      rw [← hrecorded] at hmem
      exact hmem
    rw [hlate] at hmem
    cases hmem
  case late_settled =>
    intro hne
    refine absurd ?_ hne
    show recorded.late = []
    rw [← hrecorded]
    exact hlate

/-- The runner with its cancellation recorded, when that changes nothing else. -/
theorem request (h : Sound loop initial runner)
    (hsame : phase loop true runner.bare = runner.state ∧
      reason loop true runner.bare = runner.failureReason)
    (hswept : loop.plan.cancellationPolicy = .CANCEL_REMAINING →
      ∀ entry ∈ runner.bare, entry.isSettled = true) :
    Sound loop initial { runner with cancellationRequested := true } :=
  { h with
    state := hsame.1.symm
    failure := hsame.2.symm
    cancelled := fun m hm houtcome => ⟨rfl, (h.cancelled m hm houtcome).2⟩
    swept := fun _ hpolicy => hswept hpolicy }

/-- The runner after a cancellation that stops the loop: its entries may have been swept. -/
theorem stop (h : Sound loop initial runner) (hpolicy : loop.plan.cancellationPolicy ≠ .COMPLETE_ALL)
    (hopen : runner.state ≠ .SETTLED) {count' : Nat} {entries' : List IterationLedgerEntry}
    (hledgered : Ledgered loop initial (entries'.map bare))
    (hcount : settledCount (entries'.map bare) = count')
    (hfailed : Failed (entries'.map bare) ↔ Failed runner.bare)
    (hcarry : carryAfter initial (entries'.map bare) = carryAfter initial runner.bare)
    (hcancelled : ∀ m ∈ entries'.map bare, m.outcome = some .CANCELLED →
      loop.plan.cancellationPolicy = .CANCEL_REMAINING)
    (hswept : loop.plan.cancellationPolicy = .CANCEL_REMAINING →
      ∀ m ∈ entries'.map bare, m.isSettled = true)
    (hlast : ∀ m ∈ entries'.map bare, m.outcome = some .CANCELLED → ∀ other ∈ entries'.map bare,
      ∀ s ∈ m.settlementSequence, ∀ s' ∈ other.settlementSequence, s < s' →
        other.outcome = some .CANCELLED) :
    Sound loop initial (refresh loop
      { stopLaunching { runner with cancellationRequested := true } with
        entries := entries'
        sequence := count'
        sequences := countedFromOne count' }) := by
  have hnotfinished := h.not_finished hopen
  have hlate : runner.late = [] := by
    by_contra hne
    exact hopen (h.late_settled hne)
  rw [stopLaunching_open (by exact hopen), refresh_open]
  · constructor
    case initial_carry => exact h.initial_carry
    case ledgered => exact hledgered
    case carry => exact h.carry.trans hcarry.symm
    case asserted => exact h.asserted
    case sequence => exact congrArg Nat.cast hcount.symm
    case sequences => exact congrArg countedFromOne hcount.symm
    case state => rfl
    case failure => rfl
    case cancelled => exact fun m hm houtcome => ⟨rfl, hcancelled m hm houtcome⟩
    case swept => exact fun _ => hswept
    case swept_last => exact hlast
    case late_nodup => exact h.late_nodup
    case late_recorded =>
      intro late hmem
      rw [show late ∈ runner.late ↔ late ∈ ([] : List LateResult) by rw [hlate]] at hmem
      cases hmem
    case late_settled => exact fun hne => absurd hlate hne
  · exact (if_pos (.inl ⟨rfl, hpolicy⟩)).symm
  · exact (h.failure.trans (openReason_of_not_finished hnotfinished)).trans (openReason_congr hfailed).symm

theorem cancel (h : Sound loop initial runner) {cancelled : List IterationLedgerEntry}
    (hcall : LoopRunner.cancel loop runner = .ok cancelled after) : Sound loop initial after := by
  obtain ⟨_, _, hreturns, hafter⟩ := cancel_returns loop h.sequence h.sequences
  rw [hcall] at hreturns
  cases hreturns
  -- a settled loop keeps its state and its failure reason
  have hsettled : loop.plan.cancellationPolicy ≠ .COMPLETE_ALL → runner.state = .SETTLED →
      phase loop true runner.bare = runner.state ∧ reason loop true runner.bare = runner.failureReason := by
    intro hpolicy hstate
    have hfinished := phase_eq_settled.1 (h.state.symm.trans hstate)
    have hfinished' : Finished loop true runner.bare := ⟨hfinished.1, .inl (.inl ⟨rfl, hpolicy⟩)⟩
    refine ⟨(phase_eq_settled.2 hfinished').trans hstate.symm, ?_⟩
    rw [h.failure, reason, reason]
    simp only [hfinished, hfinished']
  have hkeep : runner.state = .SETTLED →
      stopLaunching { runner with cancellationRequested := true } =
        { runner with cancellationRequested := true } ∧
      refresh loop { runner with cancellationRequested := true } =
        { runner with cancellationRequested := true } := fun hstate =>
    ⟨if_neg (by simp [hstate]), refresh_settled hstate⟩
  rcases hafter with ⟨hpolicy, rfl⟩ | ⟨hpolicy, rfl⟩ | ⟨hpolicy, count', entries', hswept, rfl⟩
  · refine h.request ⟨?_, ?_⟩ (fun h' => by rw [hpolicy] at h'; cases h')
    · rw [h.state]
      simp [phase, openState, Finished, Stopped, hpolicy]
    · rw [h.failure]
      simp [reason, Finished, Stopped, hpolicy]
  · by_cases hstate : runner.state = .SETTLED
    · rw [(hkeep hstate).1, (hkeep hstate).2]
      exact h.request (hsettled (by simp [hpolicy]) hstate) (fun h' => by rw [hpolicy] at h'; cases h')
    · have hstopped := h.stop (by simp [hpolicy]) hstate
        h.ledgered (rfl : settledCount runner.bare = _) Iff.rfl rfl (fun m hm houtcome => (h.cancelled m hm houtcome).2)
        (fun h' => by rw [hpolicy] at h'; cases h') h.swept_last
      rw [stopLaunching_open (by exact hstate), ← h.sequence, ← h.sequences] at hstopped
      rw [stopLaunching_open (by exact hstate)]
      exact hstopped
  · obtain ⟨hledgered, hcount⟩ := hswept.ledgered [] h.ledgered rfl
    by_cases hstate : runner.state = .SETTLED
    · have hall := (phase_eq_settled.1 (h.state.symm.trans hstate)).1
      obtain ⟨rfl, rfl⟩ := hswept.eq_of_settled fun e he => hall (bare e) (List.mem_map_of_mem he)
      have hrequest := h.request (hsettled (by simp [hpolicy]) hstate) fun _ => hall
      rw [(hkeep hstate).1, ← h.sequence, ← h.sequences]
      show Sound loop initial (refresh loop { runner with cancellationRequested := true })
      rw [(hkeep hstate).2]
      exact hrequest
    · have hmem : ∀ m ∈ entries'.map bare, (m ∈ runner.bare ∧ m.isSettled = true) ∨
          ∃ s : Int, (settledCount runner.bare : Int) < s ∧ m.outcome = some .CANCELLED ∧
            m.settlementSequence = some s := by
        intro m hm
        obtain ⟨e', he', rfl⟩ := List.mem_map.1 hm
        rcases hswept.mem he' with ⟨he, hs⟩ | ⟨e, he, s, -, hlt, hval⟩
        · exact .inl ⟨List.mem_map_of_mem he, hs⟩
        · refine .inr ⟨s, hlt, ?_, ?_⟩
          · rw [bare_swept hval]
            rfl
          · rw [bare_swept hval]
            rfl
      refine h.stop (by simp [hpolicy]) hstate hledgered hcount ?_ ?_ (fun _ _ _ => hpolicy) ?_ ?_
      · constructor
        · rintro ⟨m, hm, houtcome⟩
          rcases hmem m hm with ⟨hm, -⟩ | ⟨s, -, hcancelled, -⟩
          · exact ⟨m, hm, houtcome⟩
          · rw [hcancelled] at houtcome
            cases houtcome
        · rintro ⟨m, hm, houtcome⟩
          obtain ⟨e, he, rfl⟩ := List.mem_map.1 hm
          refine ⟨bare e, List.mem_map_of_mem (hswept.mem_of_settled he ?_), houtcome⟩
          exact Option.isSome_iff_exists.2 ⟨_, houtcome⟩
      · apply carryAfter_eq_of_map
        rw [LoopRunner.bare, List.map_map, List.map_map]
        exact hswept.map_eq fun _ _ => rfl
      · intro _ m hm
        rcases hmem m hm with ⟨-, hs⟩ | ⟨s, -, hcancelled, -⟩
        · exact hs
        · exact Option.isSome_iff_exists.2 ⟨_, hcancelled⟩
      · intro m hm houtcome other hother s hs s' hs' hlt
        rcases hmem other hother with ⟨hother, -⟩ | ⟨_, -, hcancelled, -⟩
        · rcases hmem m hm with ⟨hm, -⟩ | ⟨t, ht, -, hseq⟩
          · exact h.swept_last m hm houtcome other hother s hs s' hs' hlt
          · have hbound := (h.ledgered.sequence_mem hother hs').2
            rw [hseq] at hs
            cases hs
            omega
        · exact hcancelled

end Sound

/-! ## Runs -/

theorem Sound.step (h : Sound loop initial runner) (call : Call) :
    Sound loop initial (runner.step loop call) := by
  unfold LoopRunner.step
  cases hresult : call.perform loop runner with
  | error e after =>
    rw [finalState, call.raises h.sequence h.sequences hresult]
    exact h
  | ok answered after =>
    rw [finalState]
    cases call with
    | recordLaunch launch =>
      obtain ⟨entry, hcall, -⟩ := map_returns.1 hresult
      exact h.recordLaunch hcall
    | recordEffectSettlement iterationIdentity settlement =>
      obtain ⟨u, hcall, -⟩ := map_returns.1 hresult
      exact h.recordEffectSettlement hcall
    | settle iterationIdentity outcome outputsDigest failureReason resultingCarryDigest =>
      obtain ⟨entry, hcall, -⟩ := map_returns.1 hresult
      exact h.settle hcall
    | cancel =>
      obtain ⟨cancelled, hcall, -⟩ := map_returns.1 hresult
      exact h.cancel hcall
    | recordLateResult iterationIdentity evidenceRef =>
      obtain ⟨late, hcall, -⟩ := map_returns.1 hresult
      simp only [LoopRunner.recordLateResult, bind_returns, lift_returns] at hcall
      obtain ⟨_, _, ⟨-, rfl⟩, hcall⟩ := hcall
      exact h.recordLateResult hcall

theorem Sound.run (h : Sound loop initial runner) (calls : List Call) :
    Sound loop initial (Lib.run (LoopRunner.step loop) runner calls) :=
  run_invariant (fun _ call hs => hs.step call) h calls

end OmniviaCore.Execution.Loop
