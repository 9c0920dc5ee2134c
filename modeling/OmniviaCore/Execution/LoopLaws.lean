import OmniviaCore.Execution.LoopWaves

/-!
# The laws of the loop runner

What the entries of a runner satisfy in every state (`LoopLaws`), whatever was called; `loop_laws` puts the laws
together.
-/

namespace OmniviaCore.Execution.Loop

open Lib LoopRunner

variable {sha256 : List UInt8 → String} {loop : BoundLoop sha256} {initial : Option String}
  {runner fresh : LoopRunner}

/-! ## What the source resolves to -/

theorem unsplit_of_isDigest {value : String} (h : isDigest value = true) : Unsplit value := by
  unfold isDigest at h
  simp only [Bool.and_eq_true, beq_iff_eq, List.all_eq_true] at h
  obtain ⟨⟨hscheme, -⟩, hdigits⟩ := h
  intro hmem
  rw [← List.take_append_drop 7 value.toList, List.mem_append] at hmem
  rcases hmem with hmem | hmem
  · rw [hscheme] at hmem
    exact absurd hmem (by decide)
  · exact absurd (hdigits _ hmem) (by decide)

theorem unsplit_padKey (index : Nat) : Unsplit (padKey index) := by
  intro hmem
  rw [padKey, String.toList_append, List.mem_append] at hmem
  rcases hmem with hmem | hmem
  · exact absurd hmem (by decide)
  · exact unsplit_repr index hmem

theorem rejectCollisions_eq_ok {plan : FrozenLoopPlan} {resolved : List (String × String)}
    (h : rejectCollisions sha256 plan resolved = .ok loop) :
    loop.plan = plan ∧ loop.elements = resolved := by
  unfold rejectCollisions at h
  split at h
  · split at h
    · cases h
      exact ⟨rfl, rfl⟩
    · cases h
  · cases h

theorem zippedElement_eq_ok {source : List LoopElement} {zipSources : List (List LoopElement)}
    {index : Nat} {element : String × String}
    (h : zippedElement sha256 source zipSources index = .ok element) :
    Unsplit element.1 ∧ ∃ bytes, element.2 = "sha256:" ++ sha256 bytes := by
  simp only [zippedElement, bind_eq_ok, pure_eq_ok] at h
  obtain ⟨digest, hdigest, rfl⟩ := h
  refine ⟨?_, ?_⟩
  · cases source[index]? with
    | none => exact unsplit_padKey index
    | some element => exact unsplit_of_isIdentifier element.key_valid
  · unfold canonicalHash at hdigest
    split at hdigest
    · next bytes _ => cases hdigest; exact ⟨bytes, rfl⟩
    · cases hdigest
    · cases hdigest

/-- What a plan and its source resolve to: the plan, and elements whose keys can be parts of an
identity and whose digests are the payloads' own or derived ones. -/
theorem resolveElements_eq_ok {plan : FrozenLoopPlan} {source : List LoopElement}
    {zipSources : List (List LoopElement)}
    (h : resolveElements sha256 plan source zipSources = .ok loop) :
    loop.plan = plan ∧ ∀ element ∈ loop.elements, Unsplit element.1 ∧
      (isDigest element.2 = true ∨ ∃ bytes, element.2 = "sha256:" ++ sha256 bytes) := by
  unfold resolveElements at h
  split at h
  · simp only [bind_eq_ok, exists_unit] at h
    obtain ⟨hplan, helements⟩ := rejectCollisions_eq_ok h.2
    refine ⟨hplan, fun element helement => ?_⟩
    rw [helements] at helement
    obtain ⟨declared, -, rfl⟩ := List.mem_map.1 helement
    exact ⟨unsplit_of_isIdentifier declared.key_valid, .inl declared.payloadDigest_valid⟩
  · split at h
    · cases h
    · simp only [bind_eq_ok] at h
      obtain ⟨count, -, zipped, hzipped, h⟩ := h
      obtain ⟨hplan, helements⟩ := rejectCollisions_eq_ok h
      refine ⟨hplan, fun element helement => ?_⟩
      rw [helements] at helement
      obtain ⟨index, -, hindex⟩ := exists_of_forall₂_right (mapM_eq_ok.1 hzipped) helement
      obtain ⟨hkey, hdigest⟩ := zippedElement_eq_ok hindex
      exact ⟨hkey, .inr hdigest⟩

/-! ## Progress -/

/-- Every in-flight iteration is eventually settled. -/
def Settling (loop : BoundLoop sha256) (runner : LoopRunner) (schedule : Nat → Call) : Prop :=
  ∀ n, ∀ entry ∈ (Lib.trace (LoopRunner.step loop) runner schedule n).inFlight,
    ∃ m, n ≤ m ∧ ∃ settled ∈ (Lib.trace (LoopRunner.step loop) runner schedule m).entries,
      settled.val.iterationIdentity = entry.val.iterationIdentity ∧ settled.val.isSettled = true

/-- Every planned wave is eventually launched, unless the loop stops running. -/
def Launching (loop : BoundLoop sha256) (runner : LoopRunner) (schedule : Nat → Call) : Prop :=
  ∀ n wave, planLaunches loop (Lib.trace (LoopRunner.step loop) runner schedule n) [] = .ok wave →
    ∀ launch ∈ wave, ∃ m, n ≤ m ∧
      ((∃ entry ∈ (Lib.trace (LoopRunner.step loop) runner schedule m).entries,
          entry.val.iterationIdentity = launch.val.iterationIdentity) ∨
        (Lib.trace (LoopRunner.step loop) runner schedule m).state ≠ .RUNNING)

namespace Sound

theorem trace (h : Sound loop initial runner) (schedule : Nat → Call) (n : Nat) :
    Sound loop initial (Lib.trace (LoopRunner.step loop) runner schedule n) :=
  trace_invariant (fun _ call hs => hs.step call) h n

theorem trace_extends (h : Sound loop initial runner) (schedule : Nat → Call) {n m : Nat}
    (hnm : n ≤ m) : Extends (Lib.trace (LoopRunner.step loop) runner schedule n).entries
      (Lib.trace (LoopRunner.step loop) runner schedule m).entries :=
  trace_related (R := fun s t => Extends s.entries t.entries) (fun _ call hs => hs.step call) h
    (fun _ => .refl _) (fun _ _ _ => .trans) (fun _ call hs => hs.step_extends call) hnm

theorem place (h : Sound loop initial runner) {entry : IterationLedgerEntry} {i : Nat}
    (hentry : entry ∈ runner.entries) (hi : i < loop.elements.length)
    (hidentity : entry.val.iterationIdentity = (loop.derived i).1) :
    runner.entries[i]? = some entry := by
  obtain ⟨j, hj⟩ := List.mem_iff_getElem?.1 hentry
  have hget : runner.bare[j]? = some (bare entry) := by
    rw [LoopRunner.bare, List.getElem?_map, hj]
    rfl
  have hle := h.ledgered.length_le
  rw [length_bare] at hle
  have hlt := (List.getElem?_eq_some_iff.1 hj).1
  have hsource := min_le_left loop.elements.length loop.plan.maximumIterations
  rw [← BoundLoop.reachable] at hsource
  have hplace := loop.derived_inj (by omega) hi
    ((h.ledgered.launched j _ hget).2.1.symm.trans hidentity)
  rw [← hplace]
  exact hj

/-- The first `k` iterations are eventually settled together. -/
theorem eventually_all_settled (h : Sound loop initial runner) {schedule : Nat → Call}
    (hsettling : Settling loop runner schedule) {n : Nat} (k : Nat)
    (hk : k ≤ (Lib.trace (LoopRunner.step loop) runner schedule n).entries.length) :
    ∃ m, n ≤ m ∧ ∀ i < k, ∃ entry,
      (Lib.trace (LoopRunner.step loop) runner schedule m).entries[i]? = some entry ∧
        entry.val.isSettled = true := by
  induction k with
  | zero => exact ⟨n, le_refl n, fun i hi => absurd hi (Nat.not_lt_zero i)⟩
  | succ k ih =>
    obtain ⟨m, hnm, hbefore⟩ := ih (by omega)
    have hlength := (h.trace_extends schedule hnm).length_le
    have hget := List.getElem?_eq_getElem
      (show k < (Lib.trace (LoopRunner.step loop) runner schedule m).entries.length by omega)
    generalize (Lib.trace (LoopRunner.step loop) runner schedule m).entries[k] = entry at hget
    -- the settled entry keeps its place, and so do the ones before it
    have hkeep : ∀ m', m ≤ m' → (∃ settled,
        (Lib.trace (LoopRunner.step loop) runner schedule m').entries[k]? = some settled ∧
          settled.val.isSettled = true) → ∃ m, n ≤ m ∧ ∀ i < k + 1, ∃ entry,
        (Lib.trace (LoopRunner.step loop) runner schedule m).entries[i]? = some entry ∧
          entry.val.isSettled = true := by
      intro m' hmm' hsettled
      refine ⟨m', hnm.trans hmm', fun i hi => ?_⟩
      by_cases hik : i = k
      · rw [hik]
        exact hsettled
      · obtain ⟨found, hfound, hdone⟩ := hbefore i (by omega)
        obtain ⟨kept, hkept, -, hsame⟩ := h.trace_extends schedule hmm' i found hfound
        rw [hsame hdone] at hkept
        exact ⟨found, hkept, hdone⟩
    by_cases hdone : entry.val.isSettled = true
    · exact hkeep m (le_refl m) ⟨entry, hget, hdone⟩
    · have hflying : entry ∈ (Lib.trace (LoopRunner.step loop) runner schedule m).inFlight :=
        List.mem_filter.2 ⟨List.mem_of_getElem? hget, by simpa using hdone⟩
      obtain ⟨m', hmm', settled, hmember, hidentity, hsettled⟩ := hsettling m entry hflying
      have hlaunched := ((h.trace schedule m).ledgered.launched k (bare entry)
        (by rw [LoopRunner.bare, List.getElem?_map, hget]; rfl)).2.1
      refine hkeep m' hmm' ⟨settled, (h.trace schedule m').place hmember ?_ ?_, hsettled⟩
      · have hle := (h.trace schedule m).ledgered.length_le
        have hlt := (List.getElem?_eq_some_iff.1 hget).1
        have hsource := min_le_left loop.elements.length loop.plan.maximumIterations
        rw [length_bare] at hle
        rw [← BoundLoop.reachable] at hsource
        omega
      · exact hidentity.trans hlaunched

/-- A loop whose iterations are settled and whose waves are launched settles. -/
theorem eventually_settled (h : Sound loop initial runner) (hspelled : Spelled loop initial)
    {schedule : Nat → Call} (hsettling : Settling loop runner schedule)
    (hlaunching : Launching loop runner schedule) :
    ∃ n, (Lib.trace (LoopRunner.step loop) runner schedule n).state = .SETTLED := by
  -- from `n` on nothing is launched any more
  obtain ⟨n, hn⟩ := exists_constant
    (f := fun n => (Lib.trace (LoopRunner.step loop) runner schedule n).entries.length)
    (fun n m hnm => (h.trace_extends schedule hnm).length_le)
    (fun n => by
      have hle := (h.trace schedule n).ledgered.length_le
      rwa [length_bare] at hle)
  obtain ⟨m, hnm, hall⟩ := h.eventually_all_settled hsettling _ (le_refl
    (Lib.trace (LoopRunner.step loop) runner schedule n).entries.length)
  -- and from `m` on everything launched is settled
  have hidle : ∀ m', m ≤ m' → ∀ entry ∈ (Lib.trace (LoopRunner.step loop) runner schedule m').entries,
      entry.val.isSettled = true := by
    intro m' hmm' entry hentry
    obtain ⟨i, hi⟩ := List.mem_iff_getElem?.1 hentry
    have hlt := (List.getElem?_eq_some_iff.1 hi).1
    rw [hn m' (hnm.trans hmm')] at hlt
    obtain ⟨found, hfound, hdone⟩ := hall i hlt
    obtain ⟨kept, hkept, -, hsame⟩ := h.trace_extends schedule hmm' i found hfound
    rw [hi, hsame hdone] at hkept
    rw [Option.some.inj hkept]
    exact hdone
  have hfinished : ∀ m', m ≤ m' →
      (Lib.trace (LoopRunner.step loop) runner schedule m').state ≠ .RUNNING →
      (Lib.trace (LoopRunner.step loop) runner schedule m').state = .SETTLED := by
    intro m' hmm' hstopped
    have hsound := h.trace schedule m'
    rw [hsound.state] at hstopped ⊢
    rw [phase_eq_settled]
    by_contra hnot
    refine hstopped (phase_eq_running.2 ⟨hnot, fun hstop => hnot ⟨?_, .inl hstop⟩⟩)
    intro m hm
    obtain ⟨entry, hentry, rfl⟩ := List.mem_map.1 hm
    exact hidle m' hmm' entry hentry
  by_cases hrunning : (Lib.trace (LoopRunner.step loop) runner schedule m).state = .RUNNING
  · have hflight : (Lib.trace (LoopRunner.step loop) runner schedule m).inFlight = [] :=
      List.filter_eq_nil_iff.2 fun entry hentry => by simp [hidle m (le_refl m) entry hentry]
    obtain ⟨launch, wave, hplan, hidentity⟩ :=
      (h.trace schedule m).exists_wave hspelled hrunning hflight
    obtain ⟨m', hmm', hrecorded | hstopped⟩ := hlaunching m _ hplan launch List.mem_cons_self
    · -- the recorded launch has no place among the ones before
      obtain ⟨entry, hentry, hsame⟩ := hrecorded
      have hsize := hn m hnm
      have hsize' := hn m' (hnm.trans hmm')
      have hroom : (Lib.trace (LoopRunner.step loop) runner schedule m).entries.length <
          loop.elements.length := by
        have hopen := (phase_eq_running.1 ((h.trace schedule m).state.symm.trans hrunning)).1
        have hlt : (Lib.trace (LoopRunner.step loop) runner schedule m).entries.length <
            loop.reachable := by
          by_contra hnot
          refine hopen ⟨(inFlight_eq_nil _).1 hflight, .inr ?_⟩
          rw [length_bare]
          omega
        exact (lt_min_iff.1 hlt).1
      have hplace := (h.trace schedule m').place hentry hroom (hsame.trans hidentity)
      have hlt := (List.getElem?_eq_some_iff.1 hplace).1
      omega
    · exact ⟨m', hfinished m' hmm' hstopped⟩
  · exact ⟨m, hfinished m (le_refl m) hrunning⟩

end Sound

/-! ## The laws -/

/-- What the entries of a runner satisfy in every state. -/
structure LoopLaws (loop : BoundLoop sha256) (initial : Option String) (runner : LoopRunner) : Prop where
  identities : (runner.entries.map fun entry => entry.val.iterationIdentity).Nodup
  ordinals : runner.entries.map (fun entry => entry.val.ordinal) =
    (List.range runner.entries.length).map fun i : Nat => (i : Int)
  bounded : runner.entries.length ≤ min loop.elements.length loop.plan.maximumIterations
  concurrency : (runner.entries.filter fun entry => !entry.val.isSettled).length ≤
    loop.plan.maximumConcurrency
  settlements : (runner.entries.filterMap fun entry => entry.val.settlementSequence).Perm
    ((List.range (runner.entries.filter fun entry => entry.val.isSettled).length).map
      fun k : Nat => (k : Int) + 1)
  carries : ∀ (i : Nat) entry, runner.entries[i]? = some entry → entry.val.carryDigest =
    (((runner.entries.take i).filterMap fun earlier => earlier.val.resultingCarryDigest).getLast?).or
      initial
  produced : ∀ entry ∈ runner.entries, entry.val.resultingCarryDigest ≠ none →
    entry.val.outcome = some .SUCCEEDED

theorem carryAfter_eq_getLast (entries : List EntryMembers) :
    carryAfter initial entries =
      ((entries.filterMap EntryMembers.resultingCarryDigest).getLast?).or initial := by
  induction entries using List.reverseRecOn with
  | nil => rfl
  | append_singleton entries entry ih =>
    rw [carryAfter_concat, List.filterMap_append]
    cases hresulting : entry.resultingCarryDigest with
    | none => rw [List.filterMap_cons_none hresulting, List.filterMap_nil, List.append_nil, ih,
        Option.none_or]
    | some resulting => rw [List.filterMap_cons_some hresulting, List.filterMap_nil,
        List.getLast?_concat, Option.some_or, Option.some_or]

theorem Sound.laws (h : Sound loop initial runner) : LoopLaws loop initial runner where
  identities := by
    have hnodup := h.nodup_identities
    rw [LoopRunner.bare, List.map_map] at hnodup
    exact hnodup
  ordinals := by
    apply List.ext_getElem (by simp)
    intro i hi _
    rw [List.length_map] at hi
    rw [List.getElem_map, List.getElem_map, List.getElem_range]
    exact (h.ledgered.launched i (bare runner.entries[i])
      (by rw [LoopRunner.bare, List.getElem?_map, List.getElem?_eq_getElem hi]; rfl)).1
  bounded := by
    have hle := h.ledgered.length_le
    rwa [length_bare] at hle
  concurrency := by
    have hle := h.ledgered.inFlight_le
    rwa [← inFlight_length] at hle
  settlements := by
    have hcount : settledCount runner.bare =
        (runner.entries.filter fun entry => entry.val.isSettled).length := by
      rw [settledCount, LoopRunner.bare, List.countP_map, List.countP_eq_length_filter]
      rfl
    rw [← hcount]
    exact h.perm_sequences
  carries := by
    intro i entry hentry
    have hcarry := h.ledgered.carries i (bare entry)
      (by rw [LoopRunner.bare, List.getElem?_map, hentry]; rfl)
    rw [carryAfter_eq_getLast, LoopRunner.bare, ← List.map_take, List.filterMap_map] at hcarry
    exact hcarry
  produced := by
    intro entry hentry hresulting
    have hcoherent := (EntryMembers.postInit_eq_ok.1 entry.accepted).2
    cases houtcome : entry.val.outcome with
    | none =>
      simp only [EntryMembers.Coherent, houtcome] at hcoherent
      exact absurd hcoherent.2.2.2.2 hresulting
    | some outcome =>
      simp only [EntryMembers.Coherent, houtcome] at hcoherent
      rw [hcoherent.2.2.2.resolve_left hresulting]

/-- Every part of an identity a loop derives is read back out of what it digests. -/
theorem identityParts_unsplit (plan : FrozenLoopPlan) {key : String} (hkey : Unsplit key) :
    ∀ part ∈ plan.identityParts key, Unsplit part := by
  intro part hpart
  rcases List.mem_append.1 hpart with hpart | hpart
  · exact unsplit_of_isDigest (plan.enclosing_valid part hpart)
  · rcases List.mem_cons.1 hpart with rfl | hpart
    · exact unsplit_of_isIdentifier plan.loopStableId_valid
    · rw [List.mem_singleton.1 hpart]
      exact hkey

theorem Sound.identity_parts (h : Sound loop initial runner) {entry : IterationLedgerEntry}
    (hentry : entry ∈ runner.entries)
    (hunsplit : ∀ element ∈ loop.elements, Unsplit element.1) :
    entry.val.iterationIdentity =
        deriveId sha256 (loop.plan.identityParts (loop.element entry.val.ordinal).1) ∧
      Unsplit (loop.element entry.val.ordinal).1 := by
  obtain ⟨i, hi⟩ := List.mem_iff_getElem?.1 hentry
  obtain ⟨hordinal, hidentity, -⟩ := h.ledgered.launched i (bare entry)
    (by rw [LoopRunner.bare, List.getElem?_map, hi]; rfl)
  have hordinal : entry.val.ordinal = i := hordinal
  have hlt := (List.getElem?_eq_some_iff.1 hi).1
  have hle := h.ledgered.length_le
  rw [length_bare, BoundLoop.reachable, le_min_iff] at hle
  have hsource : i < loop.elements.length := by omega
  rw [hordinal]
  refine ⟨hidentity, ?_⟩
  rw [BoundLoop.element, Int.toNat_natCast, List.getD_eq_getElem _ _ hsource]
  exact hunsplit _ (List.getElem_mem hsource)

/-- The laws of a runner from its construction on, over every sequence of calls: what holds in every
state; that a refused call changes nothing; that nothing is launched once the loop was stopped; that a
planned wave is accepted in its order; that identities tell namespaces, loops and elements apart, so
that no iteration of a nested loop is one of the loop around it; and that the loop settles when its
iterations are settled and its waves launched. -/
theorem loop_laws {plan : FrozenLoopPlan} {source : List LoopElement}
    {zipSources : List (List LoopElement)}
    (h : LoopRunner.construct sha256 plan source zipSources EMPTY_LOOP_LEDGER initial =
      .ok (loop, fresh)) :
    (∀ calls, LoopLaws loop initial (run (step loop) fresh calls)) ∧
    (∀ calls (call : Call) e after, call.perform loop (run (step loop) fresh calls) = .error e after →
      after = run (step loop) fresh calls) ∧
    (∀ calls more intents launch,
      (Call.cancel ∈ calls ∧ plan.cancellationPolicy ≠ .COMPLETE_ALL) ∨
        ((∃ entry ∈ (run (step loop) fresh calls).entries, entry.val.outcome = some .FAILED) ∧
          plan.partialSuccessPolicy ≠ .RECORD_AND_CONTINUE) →
      (run (step loop) fresh (calls ++ more)).entries.length =
          (run (step loop) fresh calls).entries.length ∧
        planLaunches loop (run (step loop) fresh (calls ++ more)) intents = .ok [] ∧
        ∃ e, recordLaunch loop launch (run (step loop) fresh (calls ++ more)) =
          .error e (run (step loop) fresh (calls ++ more))) ∧
    (∀ calls intents before launch rest,
      planLaunches loop (run (step loop) fresh calls) intents = .ok (before ++ launch :: rest) →
        ∃ entry after, recordLaunch loop launch
          (run (step loop) fresh (calls ++ before.map .recordLaunch)) = .ok entry after) ∧
    (Function.Injective sha256 → ∀ {plan' source' zipSources' initial' loop' fresh'},
      LoopRunner.construct sha256 plan' source' zipSources' EMPTY_LOOP_LEDGER initial' =
          .ok (loop', fresh') →
        ∀ calls calls', ∀ entry ∈ (run (step loop) fresh calls).entries,
        ∀ entry' ∈ (run (step loop') fresh' calls').entries,
          (entry.val.iterationIdentity = entry'.val.iterationIdentity →
            plan.enclosing = plan'.enclosing ∧ plan.loopStableId = plan'.loopStableId ∧
              (loop.element entry.val.ordinal).1 = (loop'.element entry'.val.ordinal).1) ∧
          (∀ identity inner, plan.nested identity inner = .ok plan' →
            entry.val.iterationIdentity ≠ entry'.val.iterationIdentity)) ∧
    ((∀ bytes, isDigest ("sha256:" ++ sha256 bytes) = true) → ∀ calls schedule,
      Settling loop (run (step loop) fresh calls) schedule →
      Launching loop (run (step loop) fresh calls) schedule →
        ∃ n, (trace (step loop) (run (step loop) fresh calls) schedule n).state = .SETTLED) := by
  have hsound := fun calls => (sound_fresh h).run calls
  obtain ⟨hplan, hresolved⟩ := resolveElements_eq_ok (construct_resolves h)
  refine ⟨fun calls => (hsound calls).laws, ?_, ?_, ?_, ?_, ?_⟩
  · intro calls call e after hraised
    exact call.raises (hsound calls).sequence (hsound calls).sequences hraised
  · intro calls more intents launch hstop
    have hstopped : Stopped loop (run (step loop) fresh calls).cancellationRequested
        (run (step loop) fresh calls).bare := by
      rw [← hplan] at hstop
      rcases hstop with ⟨hcancel, hpolicy⟩ | ⟨⟨entry, hentry, hfailed⟩, hpolicy⟩
      · exact .inl ⟨((sound_fresh h).run_cancellationRequested calls).2 (.inr hcancel), hpolicy⟩
      · exact .inr ⟨hpolicy, bare entry, List.mem_map_of_mem hentry, hfailed⟩
    obtain ⟨hlater, hlength⟩ := (hsound calls).stopped_run hstopped more
    rw [run_append]
    have hnot := ((hsound calls).run more).stopped_not_running hlater
    refine ⟨hlength, ?_, ?_⟩
    · rw [planLaunches, if_pos hnot]
      rfl
    · refine ⟨.refused "loop_not_launching"
        s!"a {(run (step loop) (run (step loop) fresh calls) more).state.name} loop launches no iteration",
        ?_⟩
      rw [recordLaunch, bind_raises]
      refine .inr ⟨_, _, get_returns.2 ⟨rfl, rfl⟩, bind_raises.2 (.inl ?_)⟩
      exact demand_raises.2 ⟨hnot, rfl, rfl⟩
  · intro calls intents before launch rest hwave
    rw [run_append]
    obtain hnil | ⟨hrunning, hwave⟩ := (hsound calls).planLaunches_eq_ok hwave
    · simp at hnil
    · exact hwave.accepted (hsound calls) hrunning
  · intro hsha plan' source' zipSources' initial' loop' fresh' h' calls calls' entry hentry entry' hentry'
    have hsound' := (sound_fresh h').run calls'
    obtain ⟨hplan', hresolved'⟩ := resolveElements_eq_ok (construct_resolves h')
    obtain ⟨hidentity, hkey⟩ := (hsound calls).identity_parts hentry fun e he => (hresolved e he).1
    obtain ⟨hidentity', hkey'⟩ := hsound'.identity_parts hentry' fun e he => (hresolved' e he).1
    have hsame : entry.val.iterationIdentity = entry'.val.iterationIdentity →
        plan.enclosing = plan'.enclosing ∧ plan.loopStableId = plan'.loopStableId ∧
          (loop.element entry.val.ordinal).1 = (loop'.element entry'.val.ordinal).1 := by
      intro heq
      rw [hidentity, hidentity', hplan, hplan'] at heq
      have hparts := deriveId_inj hsha (identityParts_unsplit plan hkey)
        (identityParts_unsplit plan' hkey') (by simp [FrozenLoopPlan.identityParts])
        (by simp [FrozenLoopPlan.identityParts]) heq
      obtain ⟨henclosing, hrest⟩ := List.append_inj' hparts rfl
      simp only [List.cons.injEq, and_true] at hrest
      exact ⟨henclosing, hrest.1, hrest.2⟩
    refine ⟨hsame, fun identity inner hnested heq => ?_⟩
    have henclosing := (hsame heq).1
    have hlonger : plan'.enclosing = plan.enclosing ++ [identity] := by
      unfold FrozenLoopPlan.nested at hnested
      split at hnested
      · split at hnested
        · cases hnested
          rfl
        · cases hnested
      · cases hnested
    rw [hlonger] at henclosing
    simp at henclosing
  · intro hderived calls schedule hsettling hlaunching
    refine (hsound calls).eventually_settled ⟨hderived, ?_, ?_⟩ hsettling hlaunching
    · intro element helement
      rcases (hresolved element helement).2 with hdigest | ⟨bytes, hdigest⟩
      · exact hdigest
      · rw [hdigest]
        exact hderived bytes
    · exact construct_carry h

/-! ### A loop of one element -/

/-- SHA-256 of the one identity the loop derives, and a spelling of everything else. -/
def singleDigest : List UInt8 → String :=
  spelledDigest (joinedParts ["loop", "a"])
    "88e6c0e545f08c4025dd098afda2bf7a8cab7312d5e577f2e682f650915f18d6"

def singlePlan (cancellationPolicy : CancellationPolicy) : FrozenLoopPlan where
  loopStableId := "loop"
  mode := .SEQUENTIAL
  orderGuarantee := .ITERATION_IDENTITY_ORDER
  maximumIterations := 1
  cancellationPolicy
  partialSuccessPolicy := .FAIL_LOOP
  maximumConcurrency := 1
  zipMismatchPolicy := none
  carryEnabled := false
  enclosing := []
  loopStableId_valid := by decide
  maximumIterations_mem := by decide
  parallel_concurrency := by decide
  sequential_concurrency := by decide
  carry_sequential := by decide
  enclosing_length := by decide
  enclosing_valid := by decide

def singleSource : List LoopElement :=
  [⟨"a", "sha256:ca978112ca1bbdcafac231b39a23dc4da786eff8147c4e72b9807785afee48bb",
    by decide, by decide⟩]

def singleLaunch : IterationLaunch :=
  ⟨{ iterationIdentity := "sha256:88e6c0e545f08c4025dd098afda2bf7a8cab7312d5e577f2e682f650915f18d6"
     ordinal := 0
     inputsDigest := "sha256:ca978112ca1bbdcafac231b39a23dc4da786eff8147c4e72b9807785afee48bb"
     carryDigest := none
     schedulingIntents := [] }, by decide⟩

/-! ### A loop of two elements -/

/-- SHA-256 of the two identities the loop derives. -/
def pairDigest (bytes : List UInt8) : String :=
  if bytes = joinedParts ["loop", "b"] then
    "7c68f165975515cd531679c8e695d77e48838dcaf86d61aa9c37e39c16c55454"
  else singleDigest bytes

def pairPlan : FrozenLoopPlan :=
  { singlePlan .CANCEL_REMAINING with
    maximumIterations := 2
    maximumIterations_mem := by decide
    parallel_concurrency := by decide }

def pairSource : List LoopElement :=
  singleSource ++ [⟨"b", "sha256:3e23e8160039594a33894f6564e1b1348bbd7a0088d42c4acb73eeaed59c009d",
    by decide, by decide⟩]

/-- The first iteration succeeds, and the second is launched and fails. -/
def pairCalls : List Call :=
  let first := "sha256:88e6c0e545f08c4025dd098afda2bf7a8cab7312d5e577f2e682f650915f18d6"
  let second := "sha256:7c68f165975515cd531679c8e695d77e48838dcaf86d61aa9c37e39c16c55454"
  [.recordLaunch singleLaunch,
    .settle first "SUCCEEDED"
      (some "sha256:2e7d2c03a9507ae265ecf5b5356885a53393a2029d241394997265a1a25aefc6") none none,
    .recordLaunch ⟨⟨second, 1, "sha256:3e23e8160039594a33894f6564e1b1348bbd7a0088d42c4acb73eeaed59c009d",
      none, []⟩, by decide⟩,
    .settle second "FAILED" none (some "refused") none]

theorem exists_pair : ∃ loop fresh,
    LoopRunner.construct pairDigest pairPlan pairSource [] EMPTY_LOOP_LEDGER none = .ok (loop, fresh) ∧
      (run (step loop) fresh pairCalls).entries.map (fun entry => entry.val.outcome) =
        [some .SUCCEEDED, some .FAILED] := by
  have hrun : (LoopRunner.construct pairDigest pairPlan pairSource [] EMPTY_LOOP_LEDGER
      none).toOption.any (fun built => (run (step built.1) built.2 pairCalls).entries.map
        (fun entry => entry.val.outcome) = [some .SUCCEEDED, some .FAILED]) = true := by
    decide +kernel
  obtain ⟨⟨loop, fresh⟩, hbuilt, houtcomes⟩ := exists_ok_of_any hrun
  exact ⟨loop, fresh, hbuilt, of_decide_eq_true houtcomes⟩

theorem loop_laws_pair : ∃ loop fresh,
    LoopRunner.construct pairDigest pairPlan pairSource [] EMPTY_LOOP_LEDGER none = .ok (loop, fresh) ∧
      (∀ calls, LoopLaws loop none (run (step loop) fresh calls)) ∧
      (∀ calls (call : Call) e after, call.perform loop (run (step loop) fresh calls) = .error e after →
        after = run (step loop) fresh calls) ∧
      -- The second iteration has failed: nothing is launched any more.
      ∀ intents launch, planLaunches loop (run (step loop) fresh pairCalls) intents = .ok [] ∧
        ∃ e, recordLaunch loop launch (run (step loop) fresh pairCalls) =
          .error e (run (step loop) fresh pairCalls) := by
  obtain ⟨loop, fresh, hbuilt, houtcomes⟩ := exists_pair
  obtain ⟨hlaws, hrefused, hstopped, -⟩ := loop_laws hbuilt
  have hfailed : ∃ entry ∈ (run (step loop) fresh pairCalls).entries, entry.val.outcome = some .FAILED := by
    rw [← List.mem_map, houtcomes]
    decide
  refine ⟨loop, fresh, hbuilt, hlaws, hrefused, fun intents launch => ?_⟩
  have hnone := hstopped pairCalls [] intents launch (.inr ⟨hfailed, by decide⟩)
  rw [List.append_nil] at hnone
  exact hnone.2

end OmniviaCore.Execution.Loop
