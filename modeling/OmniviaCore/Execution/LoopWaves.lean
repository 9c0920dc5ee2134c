import OmniviaCore.Execution.LoopProgress
import OmniviaCore.Lib.Machine

/-!
# Waves

`plan_launches` answers the ordinals that are not launched yet, in order and as many as the
concurrency bound leaves room for. A wave it answered is accepted by `record_launch` launch by launch
(`Wave.accepted`), and there is a wave to launch as long as the loop runs and none is in flight (`exists_wave`).
-/

namespace OmniviaCore.Execution.Loop

open Lib LoopRunner

variable {sha256 : List UInt8 → String} {loop : BoundLoop sha256} {initial : Option String}
  {runner after : LoopRunner}

/-- The launch `plan_launches` plans at an ordinal. -/
def plannedMembers (loop : BoundLoop sha256) (carryDigest : Option String)
    (schedulingIntents : List String) (ordinal : Nat) : LaunchMembers where
  iterationIdentity := (loop.derived ordinal).1
  ordinal
  inputsDigest := (loop.derived ordinal).2
  carryDigest := if loop.plan.carryEnabled then carryDigest else none
  schedulingIntents

/-- Launches a runner can record in their order: the next ordinals, within its bounds. -/
structure Wave (loop : BoundLoop sha256) (runner : LoopRunner) (intents : List String)
    (wave : List IterationLaunch) : Prop where
  planned : wave.map Validated.val =
    (List.range' runner.entries.length wave.length).map
      (plannedMembers loop runner.carryDigest intents)
  room : runner.entries.length + wave.length ≤ loop.reachable
  concurrency : runner.inFlight.length + wave.length ≤ loop.plan.maximumConcurrency

namespace Sound

theorem filter_launched (h : Sound loop initial runner) :
    ((List.range loop.reachable).filter fun ordinal : Nat =>
        (ordinal : Int) ∉ runner.entries.map fun entry => entry.val.ordinal) =
      List.range' runner.entries.length (loop.reachable - runner.entries.length) := by
  have hle := h.ledgered.length_le
  rw [length_bare] at hle
  have hmem : ∀ o : Nat, (o : Int) ∈ (runner.entries.map fun entry => entry.val.ordinal) ↔
      o < runner.entries.length := by
    intro o
    constructor
    · intro ho
      obtain ⟨entry, hentry, hordinal⟩ := List.mem_map.1 ho
      obtain ⟨i, hi⟩ := List.mem_iff_getElem?.1 hentry
      have hget : runner.bare[i]? = some (bare entry) := by
        rw [LoopRunner.bare, List.getElem?_map, hi]
        rfl
      have hlaunched : entry.val.ordinal = i := (h.ledgered.launched i _ hget).1
      have hlt := (List.getElem?_eq_some_iff.1 hi).1
      omega
    · intro ho
      refine List.mem_map.2 ⟨runner.entries[o], List.getElem_mem ho, ?_⟩
      have hget : runner.bare[o]? = some (bare runner.entries[o]) := by
        rw [LoopRunner.bare, List.getElem?_map, List.getElem?_eq_getElem ho]
        rfl
      exact (h.ledgered.launched o _ hget).1
  obtain ⟨d, hd⟩ := Nat.exists_eq_add_of_le hle
  rw [hd, List.range_add, List.filter_append, Nat.add_sub_cancel_left]
  have hnone : ((List.range runner.entries.length).filter fun ordinal : Nat =>
      (ordinal : Int) ∉ runner.entries.map fun entry => entry.val.ordinal) = [] := by
    rw [List.filter_eq_nil_iff]
    intro o ho
    simp [hmem, List.mem_range.1 ho]
  rw [hnone, List.nil_append, List.filter_eq_self.2, List.range'_eq_map_range]
  intro o ho
  obtain ⟨j, -, rfl⟩ := List.mem_map.1 ho
  rw [decide_eq_true_eq, hmem]
  omega

theorem planLaunches_eq_ok (h : Sound loop initial runner) {intents : List String}
    {wave : List IterationLaunch} (hplan : planLaunches loop runner intents = .ok wave) :
    wave = [] ∨ runner.state = .RUNNING ∧ Wave loop runner intents wave := by
  unfold planLaunches at hplan
  by_cases hrunning : runner.state ≠ .RUNNING
  · rw [if_pos hrunning] at hplan
    exact .inl (pure_eq_ok.1 hplan).symm
  have hflight := h.ledgered.inFlight_le
  rw [← inFlight_length] at hflight
  rw [if_neg hrunning] at hplan
  by_cases havailable : (loop.plan.maximumConcurrency : Int) - runner.inFlight.length < 1
  · simp only [if_pos havailable] at hplan
    exact .inl (pure_eq_ok.1 hplan).symm
  simp only [if_neg havailable, h.filter_launched, Validated.mapM_build_eq_ok] at hplan
  have hlength := congrArg List.length hplan
  rw [List.length_map, List.length_map, List.length_take, List.length_range'] at hlength
  have hle := h.ledgered.length_le
  rw [length_bare] at hle
  refine .inr ⟨by simpa using hrunning, ?_, by omega, by omega⟩
  have htake : (List.range' runner.entries.length (loop.reachable - runner.entries.length)).take
      ((loop.plan.maximumConcurrency : Int) - runner.inFlight.length).toNat =
        List.range' runner.entries.length wave.length := by
    rw [hlength]
    rcases le_total ((loop.plan.maximumConcurrency : Int) - runner.inFlight.length).toNat
      (loop.reachable - runner.entries.length) with hroom | hroom
    · rw [List.take_range'_of_length_ge hroom, min_eq_left hroom]
    · rw [List.take_range'_of_length_le hroom, min_eq_right hroom]
  rw [hplan, htake]
  rfl

end Sound

/-! ## Recording a wave -/

/-- Two places of the source derive two identities. -/
theorem BoundLoop.derived_inj {i j : Nat} (hi : i < loop.elements.length)
    (hj : j < loop.elements.length) (h : (loop.derived i).1 = (loop.derived j).1) : i = j := by
  simp only [derived, element, Int.toNat_natCast, List.getD_eq_getElem _ _ hi,
    List.getD_eq_getElem _ _ hj] at h
  have hnodup := loop.identities_distinct
  rw [List.nodup_iff_injective_getElem] at hnodup
  have hfin := @hnodup ⟨i, by rwa [List.length_map]⟩ ⟨j, by rwa [List.length_map]⟩
    (by simpa using h)
  simpa using hfin

/-- A launch that passed its own check can be recorded as an entry. -/
theorem launchedMembers_accepted (launch : IterationLaunch) :
    (launchedMembers launch.val).postInit = .ok () := by
  have haccepted := launch.accepted
  simp only [LaunchMembers.postInit, bind_eq_ok, exists_unit, require_eq_ok, checkDigest_eq_ok,
    checkOptional_eq_ok, checkCollection_eq_ok] at haccepted
  obtain ⟨hidentity, hordinal, hinputs, hcarry, hintents⟩ := haccepted
  refine EntryMembers.postInit_eq_ok.2 ⟨?_, ⟨rfl, rfl, rfl, rfl, rfl⟩⟩
  exact ⟨hidentity, hordinal, hinputs, hcarry, by simp [launchedMembers], by simp [launchedMembers],
    by simp [launchedMembers], hintents, Nat.zero_le _, List.nodup_nil⟩

section

variable {intents : List String} {launch : IterationLaunch} {rest : List IterationLaunch}

/-- The first launch of a wave is recorded, and the rest is a wave of the runner after it. -/
theorem Wave.record (hwave : Wave loop runner intents (launch :: rest)) (h : Sound loop initial runner)
    (hrunning : runner.state = .RUNNING) :
    ∃ entry, recordLaunch loop launch runner = .ok entry
        { runner with entries := runner.entries ++ [entry] } ∧
      Wave loop { runner with entries := runner.entries ++ [entry] } intents rest := by
  have hplanned := hwave.planned
  have hroom := hwave.room
  have hconcurrency := hwave.concurrency
  rw [List.length_cons] at hroom hconcurrency
  rw [List.length_cons, List.range'_succ, List.map_cons, List.map_cons, List.cons.injEq] at hplanned
  obtain ⟨hlaunch, hrest⟩ := hplanned
  have hreachable := lt_min_iff.1 (show runner.entries.length < loop.reachable by omega)
  have hentry := launchedMembers_accepted launch
  refine ⟨⟨_, hentry⟩, recordLaunch_returns.2 ⟨?_, ?_, rfl, rfl⟩, ?_, ?_, ?_⟩
  · rw [hlaunch]
    exact ⟨hrunning, rfl, by omega, by omega, rfl, rfl, rfl⟩
  · rintro recorded hrecorded
    obtain ⟨i, hi⟩ := List.mem_iff_getElem?.1 hrecorded
    have hlt := (List.getElem?_eq_some_iff.1 hi).1
    obtain ⟨hordinal, hidentity, -⟩ := h.ledgered.launched i (bare recorded)
      (by rw [LoopRunner.bare, List.getElem?_map, hi]; rfl)
    rw [hlaunch]
    rintro (hsame | hsame)
    · have hordinal : recorded.val.ordinal = i := hordinal
      simp only [plannedMembers] at hsame
      omega
    · have hplace := loop.derived_inj (by omega) hreachable.1 (hidentity.symm.trans hsame)
      omega
  · rw [hrest, List.length_append, List.length_singleton]
  · rw [List.length_append, List.length_singleton]
    omega
  · have hflight : ({ runner with entries := runner.entries ++ [⟨_, hentry⟩] } : LoopRunner).inFlight.length =
        runner.inFlight.length + 1 := by
      simp [inFlight, launchedMembers, EntryMembers.isSettled]
    rw [hflight]
    omega

/-- Every launch of a wave is accepted when nothing intervenes. -/
theorem Wave.accepted {before : List IterationLaunch}
    (hwave : Wave loop runner intents (before ++ launch :: rest)) (h : Sound loop initial runner)
    (hrunning : runner.state = .RUNNING) :
    ∃ entry after, recordLaunch loop launch
      (Lib.run (LoopRunner.step loop) runner (before.map .recordLaunch)) = .ok entry after := by
  induction before generalizing runner with
  | nil =>
    obtain ⟨entry, hrecord, -⟩ := hwave.record h hrunning
    exact ⟨entry, _, hrecord⟩
  | cons first before ih =>
    obtain ⟨entry, hrecord, hnext⟩ := hwave.record h hrunning
    have hstep : runner.step loop (.recordLaunch first) =
        { runner with entries := runner.entries ++ [entry] } := by
      rw [LoopRunner.step, Call.perform, map_returns.2 ⟨entry, hrecord, rfl⟩]
      rfl
    rw [List.map_cons, run_cons, hstep]
    exact ih hnext (h.recordLaunch hrecord) hrunning

end

/-! ## A wave to launch -/

/-- Every digest the loop derives or was given is spelled as one. -/
structure Spelled (loop : BoundLoop sha256) (initial : Option String) : Prop where
  derived : ∀ bytes, isDigest ("sha256:" ++ sha256 bytes) = true
  inputs : ∀ element ∈ loop.elements, isDigest element.2 = true
  initial : ∀ digest ∈ initial, isDigest digest = true

namespace Sound

theorem carry_spelled (h : Sound loop initial runner) (hspelled : Spelled loop initial) :
    ∀ digest ∈ runner.carryDigest, isDigest digest = true := by
  have hfold : ∀ entries : List IterationLedgerEntry,
      ∀ digest ∈ carryAfter initial (entries.map bare), isDigest digest = true := by
    intro entries
    induction entries using List.reverseRecOn with
    | nil => exact hspelled.initial
    | append_singleton entries entry ih =>
      intro digest hdigest
      rw [List.map_append, List.map_cons, List.map_nil, carryAfter_concat] at hdigest
      have hshaped := (EntryMembers.postInit_eq_ok.1 entry.accepted).1
      cases hresulting : (bare entry).resultingCarryDigest with
      | none =>
        rw [hresulting, Option.none_or] at hdigest
        exact ih digest hdigest
      | some resulting =>
        rw [hresulting, Option.some_or] at hdigest
        cases hdigest
        exact hshaped.resultingCarryDigest _ hresulting
  rw [h.carry]
  exact hfold runner.entries

/-- A launch that is planned within the source passes its own check. -/
theorem planned_accepted (h : Sound loop initial runner) (hspelled : Spelled loop initial) {o : Nat}
    (ho : o < loop.elements.length) :
    (plannedMembers loop runner.carryDigest [] o).postInit = .ok () := by
  simp only [LaunchMembers.postInit, bind_eq_ok, exists_unit, require_eq_ok, checkDigest_eq_ok,
    checkOptional_eq_ok, checkCollection_eq_ok]
  refine ⟨hspelled.derived _, Int.natCast_nonneg o, ?_, ?_, ?_, rfl, List.nodup_nil⟩
  · simp only [plannedMembers, BoundLoop.derived, BoundLoop.element, Int.toNat_natCast,
      List.getD_eq_getElem _ _ ho]
    exact hspelled.inputs _ (List.getElem_mem ho)
  · intro digest hdigest
    simp only [plannedMembers] at hdigest
    split at hdigest
    · exact h.carry_spelled hspelled digest hdigest
    · cases hdigest
  · exact Nat.zero_le _

/-- A running loop with nothing in flight plans a wave. -/
theorem exists_wave (h : Sound loop initial runner) (hspelled : Spelled loop initial)
    (hrunning : runner.state = .RUNNING) (hidle : runner.inFlight = []) :
    ∃ launch wave, planLaunches loop runner [] = .ok (launch :: wave) ∧
      launch.val.iterationIdentity = (loop.derived runner.entries.length).1 := by
  have hroom : runner.entries.length < loop.reachable := by
    by_contra hnot
    have hfinished : Finished loop runner.cancellationRequested runner.bare :=
      ⟨(inFlight_eq_nil runner).1 hidle, .inr (by rw [length_bare]; omega)⟩
    exact (phase_eq_running.1 (h.state.symm.trans hrunning)).1 hfinished
  have hconcurrency : 0 < loop.plan.maximumConcurrency := by
    cases hmode : loop.plan.mode with
    | PARALLEL => exact (loop.plan.parallel_concurrency hmode).1
    | SEQUENTIAL =>
      rw [loop.plan.sequential_concurrency hmode]
      exact Nat.one_pos
  obtain ⟨room, hroom'⟩ := Nat.exists_eq_add_of_lt hroom
  obtain ⟨count, hcount⟩ := Nat.exists_eq_add_of_lt hconcurrency
  -- the first ordinal that is not launched is within the room the bound leaves
  have hordinals : (List.range' runner.entries.length (loop.reachable - runner.entries.length)).take
      ((loop.plan.maximumConcurrency : Int) - runner.inFlight.length).toNat =
        runner.entries.length :: (List.range' (runner.entries.length + 1) room).take count := by
    have hleft : loop.reachable - runner.entries.length = room + 1 := by omega
    have hsize : ((loop.plan.maximumConcurrency : Int) - runner.inFlight.length).toNat = count + 1 := by
      rw [hidle]
      simp [hcount]
    rw [hleft, hsize, List.range'_succ, List.take_succ_cons]
  have haccepted : ∀ o ∈ (List.range' runner.entries.length
      (loop.reachable - runner.entries.length)).take
        ((loop.plan.maximumConcurrency : Int) - runner.inFlight.length).toNat,
      (plannedMembers loop runner.carryDigest [] o).postInit = .ok () := by
    intro o ho
    have hmem := List.mem_range'_1.1 (List.mem_of_mem_take ho)
    have hle := min_le_left loop.elements.length loop.plan.maximumIterations
    rw [← BoundLoop.reachable] at hle
    exact h.planned_accepted hspelled (by omega)
  obtain ⟨built, hbuilt⟩ := Validated.exists_built (fun o ho => haccepted o ho)
  have hplan : planLaunches loop runner [] = .ok built := by
    unfold planLaunches
    rw [if_neg (by simp [hrunning])]
    have havailable : ¬(loop.plan.maximumConcurrency : Int) - runner.inFlight.length < 1 := by
      rw [hidle]
      simp [hcount]
    simp only [if_neg havailable, h.filter_launched, Validated.mapM_build_eq_ok]
    exact hbuilt
  rw [hordinals, List.map_cons] at hbuilt
  obtain ⟨launch, wave, rfl, hlaunch, -⟩ := List.map_eq_cons_iff.1 hbuilt
  exact ⟨launch, wave, hplan, by rw [hlaunch]; rfl⟩

end Sound

end OmniviaCore.Execution.Loop
