import OmniviaCore.Execution.LoopInvariant

/-!
# Replaying a ledger

The constructor on the ledger of a runner that calls led to. Entry by entry the replay rebuilds the part
of the runner its prefix determines (`replaying`), until the runner is rebuilt exactly
(`Sound.init_ledger`). With no ledger at all the constructor starts a sound runner (`sound_fresh`).
-/

namespace OmniviaCore.Execution.Loop

open Lib LoopRunner

variable {sha256 : List UInt8 → String} {loop : BoundLoop sha256} {initial : Option String}
  {runner after : LoopRunner}

/-! ## A fresh runner -/

theorem sound_start (hinitial : initial.isSome = loop.plan.carryEnabled) :
    Sound loop initial (refresh loop (start initial)) := by
  have hfailed : ¬Failed [] := by
    rintro ⟨m, hm, -⟩
    cases hm
  have hrefresh := @refresh_open sha256 loop (start initial)
    (by simp [openState, Stopped, start, LoopRunner.bare, hfailed])
    (by simp [openReason, start, LoopRunner.bare, hfailed])
  rw [hrefresh]
  constructor
  case initial_carry => exact hinitial
  case ledgered => exact Ledgered.nil
  case carry => rfl
  case asserted => rfl
  case sequence => rfl
  case sequences => rfl
  case state => rfl
  case failure => rfl
  case cancelled =>
    intro m hm
    cases hm
  case swept =>
    intro h
    cases h
  case swept_last =>
    intro m hm
    cases hm
  case late_nodup => exact List.nodup_nil
  case late_recorded =>
    intro late hlate
    cases hlate
  case late_settled => exact fun h => absurd rfl h

/-- The runner the constructor makes with no ledger. -/
theorem fresh_eq {plan : FrozenLoopPlan} {source : List LoopElement}
    {zipSources : List (List LoopElement)}
    (h : LoopRunner.construct sha256 plan source zipSources EMPTY_LOOP_LEDGER initial =
      .ok (loop, runner)) :
    runner = refresh loop (start initial) ∧ initial.isSome = loop.plan.carryEnabled := by
  simp only [LoopRunner.construct, bind_eq_ok] at h
  obtain ⟨bound, -, h⟩ := h
  split at h
  · next u built hinit =>
    cases h
    simp only [init, bind_returns, modify_returns] at hinit
    obtain ⟨_, s₁, hcarry, _, s₂, hreplay, _, s₃, hrequire, _, s₄, hresume, _, s₅, hrefresh, hadmit⟩ :=
      hinit
    obtain ⟨-, rfl⟩ := pure_returns.1 hreplay
    obtain ⟨-, rfl⟩ := pure_returns.1 hresume
    obtain ⟨-, rfl⟩ := pure_returns.1 hadmit
    have hread : s₃ = s₁ := by
      simp only [requireReplayableLedger, bind_returns, get_returns, demand_returns] at hrequire
      obtain ⟨_, _, ⟨rfl, rfl⟩, _, _, ⟨-, rfl⟩, _, _, ⟨-, rfl⟩, _, _, ⟨-, rfl⟩, _, _, ⟨-, rfl⟩, -,
        rfl⟩ := hrequire
      rfl
    subst hread
    cases initial with
    | none =>
      obtain ⟨hdisabled, rfl⟩ := demand_returns.1 hcarry
      refine ⟨hrefresh.symm, ?_⟩
      rcases hdisabled with hdisabled | hentries
      · exact hdisabled.symm
      · exact absurd rfl hentries
    | some digest =>
      simp only [requireInitialCarry, bind_returns, demand_returns, lift_returns] at hcarry
      obtain ⟨_, _, ⟨henabled, rfl⟩, -, rfl⟩ := hcarry
      exact ⟨hrefresh.symm, henabled.symm⟩
  · cases h

theorem sound_fresh {plan : FrozenLoopPlan} {source : List LoopElement}
    {zipSources : List (List LoopElement)}
    (h : LoopRunner.construct sha256 plan source zipSources EMPTY_LOOP_LEDGER initial =
      .ok (loop, runner)) : Sound loop initial runner := by
  obtain ⟨rfl, hinitial⟩ := fresh_eq h
  exact sound_start hinitial

/-! ## What a replayed prefix determines -/

def sequencesOf (entries : List IterationLedgerEntry) : List Int :=
  entries.filterMap fun entry => entry.val.settlementSequence

/-- A runner once the entries are replayed, when it was given this carry. -/
def replaying (loop : BoundLoop sha256) (initial given : Option String)
    (entries : List IterationLedgerEntry) : LoopRunner where
  entries
  late := []
  carryDigest := if entries = [] then given else carryAfter initial (entries.map bare)
  carryAsserted := if entries = [] then given.isSome else initial.isSome
  state := openState loop false (entries.map bare)
  failureReason := openReason loop (entries.map bare)
  cancellationRequested := false
  sequence := (sequencesOf entries).foldl max 0
  sequences := (sequencesOf entries).toFinset

theorem replaying_nil (given : Option String) : replaying loop initial given [] = start given := by
  have hfailed : ¬Failed [] := by
    rintro ⟨m, hm, -⟩
    cases hm
  simp [replaying, start, openState, openReason, Stopped, hfailed, sequencesOf]

theorem sequencesOf_concat (entries : List IterationLedgerEntry) (entry : IterationLedgerEntry) :
    sequencesOf (entries ++ [entry]) = sequencesOf entries ++ entry.val.settlementSequence.toList := by
  unfold sequencesOf
  cases h : entry.val.settlementSequence <;> simp [h]

theorem sequencesOf_eq (entries : List IterationLedgerEntry) :
    sequencesOf entries = (entries.map bare).filterMap EntryMembers.settlementSequence := by
  rw [List.filterMap_map]
  rfl

section Step

variable {entries : List IterationLedgerEntry} {entry : IterationLedgerEntry}

theorem replayCarry_returns (hinitial : initial.isSome = loop.plan.carryEnabled)
    (hnone : loop.plan.carryEnabled = false → entry.val.carryDigest = none)
    (hcarry : entry.val.carryDigest = carryAfter initial (entries.map bare)) :
    replayCarry loop entry (replaying loop initial none entries) = .ok ⟨⟩
      { replaying loop initial none entries with
        carryDigest := carryAfter initial (entries.map bare)
        carryAsserted := initial.isSome } := by
  unfold replayCarry
  cases hcarrying : loop.plan.carryEnabled with
  | false =>
    rw [hcarrying] at hinitial
    have hentry := hnone hcarrying
    rw [if_pos rfl, demand_returns]
    refine ⟨hentry, ?_⟩
    rw [← hcarry, hentry, hinitial]
    by_cases hentries : entries = []
    · simp [replaying, hentries]
    · simp [replaying, hentries, ← hcarry, hentry, hinitial]
  | true =>
    rw [hcarrying] at hinitial
    simp only [Bool.true_eq_false, reduceIte, bind_returns, get_returns, demand_returns]
    refine ⟨⟨⟩, _, ?_, _, _, ⟨rfl, rfl⟩, hcarry, rfl⟩
    by_cases hentries : entries = []
    · subst hentries
      have hsome : entry.val.carryDigest ≠ none := by
        rw [hcarry]
        exact Option.isSome_iff_ne_none.1 hinitial
      simp only [adoptCarry, replaying, bind_returns, get_returns]
      refine ⟨_, _, ⟨rfl, rfl⟩, ?_⟩
      rw [if_neg (by simp)]
      simp only [bind_returns, demand_returns, set_returns]
      exact ⟨⟨⟩, _, ⟨hsome, rfl⟩, by rw [hcarry, hinitial]⟩
    · simp only [adoptCarry, bind_returns, get_returns]
      refine ⟨_, _, ⟨rfl, rfl⟩, ?_⟩
      rw [if_pos (.inr hentries), pure_returns]
      refine ⟨rfl, ?_⟩
      simp [replaying, hentries]

theorem replaySequence_returns (hfresh : ∀ s ∈ entry.val.settlementSequence, s ∉ runner.sequences) :
    replaySequence entry runner = .ok ⟨⟩ { runner with
      sequences := runner.sequences ∪ entry.val.settlementSequence.toList.toFinset
      sequence := entry.val.settlementSequence.toList.foldl max runner.sequence } := by
  unfold replaySequence
  cases hsequence : entry.val.settlementSequence with
  | none => simp
  | some s =>
    rw [hsequence] at hfresh
    simp only [bind_returns, get_returns, demand_returns, set_returns]
    refine ⟨_, _, ⟨rfl, rfl⟩, ⟨⟩, _, ⟨hfresh s rfl, rfl⟩, ?_⟩
    simp [Finset.union_singleton]

theorem replay_returns (hinitial : initial.isSome = loop.plan.carryEnabled)
    (hordinal : entry.val.ordinal = entries.length) (hroom : entries.length < loop.reachable)
    (hidentity : entry.val.iterationIdentity = (loop.derived entries.length).1)
    (hinputs : entry.val.inputsDigest = (loop.derived entries.length).2)
    (hdistinct : ∀ recorded ∈ entries,
      recorded.val.iterationIdentity ≠ entry.val.iterationIdentity)
    (hnone : loop.plan.carryEnabled = false → entry.val.carryDigest = none)
    (hcarry : entry.val.carryDigest = carryAfter initial (entries.map bare))
    (hfresh : ∀ s ∈ entry.val.settlementSequence, s ∉ sequencesOf entries) :
    replay loop entry (replaying loop initial none entries) = .ok ⟨⟩
      (replaying loop initial none (entries ++ [entry])) := by
  have hroom' := lt_min_iff.1 hroom
  simp only [replay, bind_returns, get_returns, demand_returns, modify_returns]
  refine ⟨_, _, ⟨rfl, rfl⟩, ⟨⟩, _, ⟨hordinal, rfl⟩, ⟨⟩, _, ⟨⟨by omega, by omega⟩, rfl⟩, ⟨⟩, _,
    ⟨by omega, rfl⟩, ⟨⟩, _, ⟨by rw [hordinal, hidentity], rfl⟩, ⟨⟩, _,
    ⟨by rw [hordinal, hinputs], rfl⟩, ⟨⟩, _, ⟨hdistinct, rfl⟩, ⟨⟩, _,
    replayCarry_returns hinitial hnone hcarry, ⟨⟩, _,
    replaySequence_returns (by simpa [replaying] using hfresh), ?_⟩
  -- the runner once the entry is recorded, before the consequences of a failure
  generalize hrecorded : ({ replaying loop initial none (entries ++ [entry]) with
    state := openState loop false (entries.map bare)
    failureReason := openReason loop (entries.map bare) } : LoopRunner) = recorded
  have hbare : recorded.bare = entries.map bare ++ [bare entry] := by
    rw [← hrecorded, LoopRunner.bare, replaying, List.map_append]
    rfl
  have hunfold : replayed loop entry { replaying loop initial none entries with
      carryDigest := carryAfter initial (entries.map bare)
      carryAsserted := initial.isSome
      sequences := (replaying loop initial none entries).sequences ∪
        entry.val.settlementSequence.toList.toFinset
      sequence := entry.val.settlementSequence.toList.foldl max
        (replaying loop initial none entries).sequence } =
      if entry.val.outcome = some .FAILED then applyPartialSuccess loop recorded else recorded := by
    rw [← hrecorded]
    unfold replayed replaying
    simp only [List.append_eq_nil_iff, List.cons_ne_self, and_false, reduceIte, List.map_append,
      List.map_cons, List.map_nil, carryAfter_concat, sequencesOf_concat, List.foldl_append,
      List.toFinset_append]
    rfl
  refine hunfold.trans ?_
  by_cases hfailed : entry.val.outcome = some .FAILED
  · have hfailed' : Failed recorded.bare := ⟨bare entry, by rw [hbare]; simp, hfailed⟩
    have hstate : recorded.state = openState loop recorded.cancellationRequested (entries.map bare) := by
      rw [← hrecorded]
      rfl
    rw [if_pos hfailed, applyPartialSuccess_open hstate (by rw [← hrecorded]) hfailed', hbare,
      ← hrecorded]
    simp [replaying]
  · have hsame : Failed recorded.bare ↔ Failed (entries.map bare) := by
      rw [hbare]
      constructor
      · rintro ⟨m, hm, houtcome⟩
        rcases List.mem_append.1 hm with hm | hm
        · exact ⟨m, hm, houtcome⟩
        · rw [List.mem_singleton.1 hm] at houtcome
          exact absurd houtcome hfailed
      · rintro ⟨m, hm, houtcome⟩
        exact ⟨m, List.mem_append_left _ hm, houtcome⟩
    rw [hbare] at hsame
    have hstopped : Stopped loop false (entries.map bare ++ [bare entry]) ↔
        Stopped loop false (entries.map bare) := by rw [Stopped, Stopped, hsame]
    rw [if_neg hfailed, ← hrecorded]
    simp [replaying, openState_congr hstopped, openReason_congr hsame]

end Step

/-! ## The whole ledger -/

theorem nodup_firstSequences (k : Nat) : (firstSequences k).Nodup :=
  List.nodup_range.map fun a b h => by simpa using h

theorem foldl_max_firstSequences (k : Nat) : (firstSequences k).foldl max 0 = (k : Int) := by
  induction k with
  | zero => rfl
  | succ k ih =>
    rw [firstSequences_succ, List.foldl_append, ih]
    push_cast
    exact max_eq_right (by omega)

theorem toFinset_firstSequences (k : Nat) : (firstSequences k).toFinset = countedFromOne k := by
  ext s
  simp [firstSequences, countedFromOne]

theorem card_countedFromOne (k : Nat) : (countedFromOne k).card = k := by
  rw [← toFinset_firstSequences, List.toFinset_card_of_nodup (nodup_firstSequences k)]
  simp [firstSequences]

theorem refresh_phase (hstate : runner.state = phase loop runner.cancellationRequested runner.bare)
    (hfailure : runner.failureReason = reason loop runner.cancellationRequested runner.bare) :
    refresh loop runner = runner := by
  by_cases hfinished : Finished loop runner.cancellationRequested runner.bare
  · exact refresh_settled (hstate.trans (phase_eq_settled.2 hfinished))
  · rw [refresh_open (hstate.trans (openState_of_not_finished hfinished))
      (hfailure.trans (openReason_of_not_finished hfinished)), ← hstate, ← hfailure]

namespace Sound

theorem perm_sequences (h : Sound loop initial runner) :
    (sequencesOf runner.entries).Perm (firstSequences (settledCount runner.bare)) := by
  rw [sequencesOf_eq]
  exact h.ledgered.settlements

theorem nodup_sequences (h : Sound loop initial runner) : (sequencesOf runner.entries).Nodup :=
  h.perm_sequences.nodup_iff.2 (nodup_firstSequences _)

theorem launched (h : Sound loop initial runner) {before rest : List IterationLedgerEntry}
    {entry : IterationLedgerEntry} (hsplit : runner.entries = before ++ entry :: rest) :
    (bare entry).ordinal = before.length ∧
      (bare entry).iterationIdentity = (loop.derived before.length).1 ∧
      (bare entry).inputsDigest = (loop.derived before.length).2 ∧
      (bare entry).carryDigest = carryAfter initial (before.map bare) := by
  have hget : runner.bare[before.length]? = some (bare entry) := by simp [LoopRunner.bare, hsplit]
  obtain ⟨hordinal, hidentity, hinputs⟩ := h.ledgered.launched _ _ hget
  refine ⟨hordinal, hidentity, hinputs, ?_⟩
  rw [h.ledgered.carries _ _ hget, LoopRunner.bare, hsplit, List.map_append,
    List.take_append_of_le_length (by simp), List.take_of_length_le (by simp)]

theorem nodup_identities (h : Sound loop initial runner) :
    (runner.bare.map EntryMembers.iterationIdentity).Nodup := by
  have heq : runner.bare.map EntryMembers.iterationIdentity =
      (loop.elements.take runner.bare.length).map fun element =>
        loop.plan.iterationIdentity sha256 element.1 := by
    have hlength : runner.bare.length ≤ loop.elements.length :=
      h.ledgered.length_le.trans (Nat.min_le_left _ _)
    apply List.ext_getElem (by rw [List.length_map, List.length_map, List.length_take]; omega)
    intro i hi hi'
    rw [List.length_map] at hi
    have hget : runner.bare[i]? = some runner.bare[i] := List.getElem?_eq_getElem hi
    rw [List.getElem_map, List.getElem_map, (h.ledgered.launched i _ hget).2.1, List.getElem_take]
    simp only [BoundLoop.derived, BoundLoop.element, Int.toNat_natCast]
    rw [List.getD_eq_getElem _ _ (by omega)]
  rw [heq, List.map_take]
  exact loop.identities_distinct.sublist (List.take_sublist _ _)

/-- The replay of the entries, from some of them on. -/
theorem replayAll_returns (h : Sound loop initial runner) (before rest : List IterationLedgerEntry)
    (hsplit : runner.entries = before ++ rest) :
    replayAll loop rest (replaying loop initial none before) = .ok ⟨⟩
      (replaying loop initial none runner.entries) := by
  induction rest generalizing before with
  | nil =>
    rw [hsplit, List.append_nil]
    rfl
  | cons entry rest ih =>
    obtain ⟨hordinal, hidentity, hinputs, hcarry⟩ := h.launched hsplit
    have hlength : before.length < runner.entries.length := by simp [hsplit]
    have hroom : before.length < loop.reachable := by
      have hle := h.ledgered.length_le
      rw [length_bare] at hle
      omega
    have hidentities := h.nodup_identities
    have hsequences := h.nodup_sequences
    rw [LoopRunner.bare, hsplit, List.map_append, List.map_append, List.nodup_append] at hidentities
    rw [hsplit, sequencesOf, List.filterMap_append, List.nodup_append] at hsequences
    simp only [replayAll, bind_returns]
    refine ⟨⟨⟩, _, replay_returns h.initial_carry hordinal hroom hidentity hinputs ?_ ?_ hcarry ?_, ?_⟩
    · intro recorded hrecorded
      refine hidentities.2.2 _ (List.mem_map_of_mem (List.mem_map_of_mem hrecorded)) _ ?_
      exact List.mem_map.2 ⟨bare entry, List.mem_map_of_mem List.mem_cons_self, rfl⟩
    · intro hdisabled
      refine hcarry.trans ((carryAfter_of_none ?_).trans ?_)
      · intro m hm
        refine h.ledgered.uncarried hdisabled m ?_
        rw [LoopRunner.bare, hsplit, List.map_append]
        exact List.mem_append_left _ hm
      · have hinitial := h.initial_carry
        rw [hdisabled] at hinitial
        simpa using hinitial
    · intro s hs hmem
      exact hsequences.2.2 s hmem s (List.mem_filterMap.2 ⟨entry, List.mem_cons_self, hs⟩) rfl
    · exact ih (before ++ [entry]) (by simpa using hsplit)

/-- The runner the replayed entries determine, before the posture is applied. -/
theorem replaying_eq (h : Sound loop initial runner) {given : Option String}
    (hgiven : runner.entries = [] → given = initial) :
    replaying loop initial given runner.entries =
      { runner with
        late := []
        state := openState loop false runner.bare
        failureReason := openReason loop runner.bare
        cancellationRequested := false } := by
  have hsequence : (sequencesOf runner.entries).foldl max 0 = runner.sequence := by
    rw [h.perm_sequences.foldl_eq, foldl_max_firstSequences, h.sequence]
  have hsequences : (sequencesOf runner.entries).toFinset = runner.sequences := by
    rw [List.toFinset_eq_of_perm _ _ h.perm_sequences, toFinset_firstSequences, h.sequences]
  have hcarry : (if runner.entries = [] then given else carryAfter initial (runner.entries.map bare)) =
      runner.carryDigest := by
    rw [h.carry]
    split
    · next hentries => rw [hgiven hentries, LoopRunner.bare, hentries]; rfl
    · rfl
  have hasserted : (if runner.entries = [] then given.isSome else initial.isSome) =
      runner.carryAsserted := by
    rw [h.asserted]
    split
    · next hentries => rw [hgiven hentries]
    · rfl
  unfold replaying
  rw [hsequence, hsequences, hcarry, hasserted]
  rfl

/-- Nothing is refused about the ledger as a whole. -/
theorem requireReplayableLedger_returns (h : Sound loop initial runner) {replayed : LoopRunner}
    (hentries : replayed.entries = runner.entries) (hsequences : replayed.sequences = runner.sequences) :
    requireReplayableLedger loop runner.cancellationRequested replayed = .ok ⟨⟩ replayed := by
  have hcancelled : (replayed.entries.any fun entry => entry.val.outcome = some .CANCELLED) = true →
      runner.cancellationRequested = true ∧ loop.plan.cancellationPolicy = .CANCEL_REMAINING := by
    intro hany
    obtain ⟨entry, hentry, houtcome⟩ := List.any_eq_true.1 hany
    rw [hentries] at hentry
    exact h.cancelled (bare entry) (List.mem_map_of_mem hentry) (of_decide_eq_true houtcome)
  simp only [requireReplayableLedger, bind_returns, get_returns, demand_returns]
  refine ⟨_, _, ⟨rfl, rfl⟩, ⟨⟩, _, ⟨?_, rfl⟩, ⟨⟩, _, ⟨?_, rfl⟩, ⟨⟩, _,
    ⟨fun hany => (hcancelled hany).1, rfl⟩, ⟨⟩, _, ⟨fun hany => (hcancelled hany).2, rfl⟩, ?_, rfl⟩
  · rw [hsequences, h.sequences, card_countedFromOne]
  · rw [show replayed.inFlight = runner.inFlight by rw [inFlight, inFlight, hentries], inFlight_length]
    exact h.ledgered.inFlight_le
  · intro first hfirst entry hentry s hs hlt
    have hmem := List.min?_mem hfirst
    obtain ⟨swept, hswept, hseq⟩ := List.mem_filterMap.1 hmem
    obtain ⟨hmember, houtcome⟩ := List.mem_filter.1 hswept
    rw [hentries] at hentry hmember
    exact h.swept_last (bare swept) (List.mem_map_of_mem hmember) (of_decide_eq_true houtcome)
      (bare entry) (List.mem_map_of_mem hentry) first hseq s hs hlt

/-- The posture and the refresh bring the replayed entries to the runner. -/
theorem resumeCancellation_returns (h : Sound loop initial runner) :
    ∃ resumed, resumeCancellation loop runner.cancellationRequested { runner with
        late := []
        state := openState loop false runner.bare
        failureReason := openReason loop runner.bare
        cancellationRequested := false } = .ok ⟨⟩ resumed ∧
      refresh loop resumed = { runner with late := [] } := by
  -- a runner with these entries that is brought up to date
  have hrefresh : refresh loop { runner with
      late := []
      state := openState loop runner.cancellationRequested runner.bare
      failureReason := openReason loop runner.bare } = { runner with late := [] } := by
    rw [refresh_open rfl rfl]
    exact (congrArg₂ (fun s f => { runner with late := [], state := s, failureReason := f })
      h.state h.failure).symm
  have hidle : refresh loop { runner with late := [] } = { runner with late := [] } :=
    refresh_phase h.state h.failure
  have hopen : openState loop false runner.bare ≠ .SETTLED := by
    rw [openState]
    split <;> simp
  by_cases hposture : runner.cancellationRequested = true
  · obtain ⟨cancelled, after, hcancel, hafter⟩ := @cancel_returns sha256 { runner with
      late := []
      state := openState loop false runner.bare
      failureReason := openReason loop runner.bare
      cancellationRequested := false } loop _ h.sequence h.sequences
    refine ⟨after, ?_, ?_⟩
    · rw [resumeCancellation, if_pos hposture]
      exact map_returns.2 ⟨cancelled, hcancel, rfl⟩
    have hstopping : loop.plan.cancellationPolicy ≠ .COMPLETE_ALL → stopLaunching { runner with
        late := []
        state := openState loop false runner.bare
        failureReason := openReason loop runner.bare
        cancellationRequested := true } = { runner with
          late := []
          state := openState loop runner.cancellationRequested runner.bare
          failureReason := openReason loop runner.bare } := by
      intro hpolicy
      have hstopped : openState loop runner.cancellationRequested runner.bare = .STOPPING :=
        if_pos (.inl ⟨hposture, hpolicy⟩)
      rw [stopLaunching_open (by exact hopen), hstopped, ← hposture]
    rcases hafter with ⟨hpolicy, rfl⟩ | ⟨hpolicy, rfl⟩ | ⟨hpolicy, count', entries', hswept, rfl⟩
    · rw [← hrefresh]
      have hstate : openState loop runner.cancellationRequested runner.bare =
          openState loop false runner.bare := openState_congr (by simp [Stopped, hpolicy])
      rw [hstate, ← hposture]
    · rw [hstopping (by simp [hpolicy]), hrefresh]
      exact hidle
    · obtain ⟨rfl, rfl⟩ := hswept.eq_of_settled fun e he =>
        h.swept hposture hpolicy (bare e) (List.mem_map_of_mem he)
      rw [hstopping (by simp [hpolicy]), ← h.sequence, ← h.sequences]
      exact (congrArg (refresh loop) hrefresh).trans hidle
  · refine ⟨_, by rw [resumeCancellation, if_neg hposture]; rfl, ?_⟩
    rw [Bool.not_eq_true] at hposture
    rw [← hposture]
    exact hrefresh

theorem indexOf_recorded {identity : String}
    (hrecorded : ∃ entry ∈ runner.bare, entry.iterationIdentity = identity) :
    ∃ found, indexOf identity runner = .ok found runner := by
  obtain ⟨member, hmember, hidentity⟩ := hrecorded
  obtain ⟨entry, hentry, rfl⟩ := List.mem_map.1 hmember
  have hfind : (runner.entries.zipIdx.find? fun found =>
      found.1.val.iterationIdentity = identity).isSome = true := by
    obtain ⟨i, hi⟩ := List.mem_iff_getElem?.1 hentry
    rw [List.find?_isSome]
    exact ⟨(entry, i), List.mk_mem_zipIdx_iff_getElem?.2 hi, decide_eq_true hidentity⟩
  obtain ⟨found, hfound⟩ := Option.isSome_iff_exists.1 hfind
  refine ⟨(found.2, found.1), ?_⟩
  simp only [indexOf, bind_returns, get_returns]
  exact ⟨_, _, ⟨rfl, rfl⟩, by rw [hfound]; rfl⟩

/-- The late results are admitted one after the other. -/
theorem admitAll_returns (h : Sound loop initial runner) (hsettled : runner.state = .SETTLED)
    (done rest : List LateResult) (hsplit : runner.late = done ++ rest) :
    admitAll rest { runner with late := done } = .ok ⟨⟩ runner := by
  induction rest generalizing done with
  | nil =>
    rw [admitAll, pure_returns]
    rw [List.append_nil] at hsplit
    rw [← hsplit]
    exact ⟨rfl, rfl⟩
  | cons late rest ih =>
    have hmember : late ∈ runner.late := by simp [hsplit]
    have hnodup := h.late_nodup
    rw [hsplit, List.map_append, List.nodup_append] at hnodup
    obtain ⟨found, hfound⟩ := @indexOf_recorded { runner with late := done } _
      (h.late_recorded late hmember)
    simp only [admitAll, admitLate, bind_returns, get_returns, demand_returns, set_returns, pure_returns]
    refine ⟨late, _, ⟨_, _, ⟨rfl, rfl⟩, ⟨⟩, _, ⟨hsettled, rfl⟩, found, _, hfound, ⟨⟩, _, ⟨?_, rfl⟩, ⟨⟩,
      _, rfl, rfl, rfl⟩, ih (done ++ [late]) (by simp [hsplit])⟩
    intro recorded hrecorded
    exact hnodup.2.2 _ (List.mem_map_of_mem hrecorded) _ (List.mem_map_of_mem List.mem_cons_self)

/-- The constructor on the ledger of a live runner rebuilds the runner. The initial carry is given
again exactly when nothing was launched. -/
theorem init_ledger (h : Sound loop initial runner) {given : Option String}
    (hgiven : runner.entries = [] → given = initial) (hnone : runner.entries ≠ [] → given = none)
    (hdigest : ∀ digest ∈ given, isDigest digest = true) :
    init loop runner.ledger given (start given) = .ok ⟨⟩ runner := by
  have hcheck : requireInitialCarry loop runner.ledger given (start given) = .ok ⟨⟩ (start given) := by
    have hinitial := h.initial_carry
    cases hcarry : given with
    | none =>
      refine demand_returns.2 ⟨?_, rfl⟩
      by_cases hentries : runner.entries = []
      · rw [← hgiven hentries, hcarry] at hinitial
        exact .inl hinitial.symm
      · exact .inr hentries
    | some digest =>
      have hentries : runner.entries = [] := by
        by_contra hne
        rw [hnone hne] at hcarry
        cases hcarry
      rw [← hgiven hentries, hcarry] at hinitial
      simp only [requireInitialCarry, bind_returns, demand_returns, lift_returns]
      exact ⟨⟨⟩, _, ⟨hinitial.symm, rfl⟩, checkDigest_eq_ok.2 (hdigest digest hcarry), rfl⟩
  have hstart : replayAll loop runner.entries (start given) = .ok ⟨⟩
      (replaying loop initial given runner.entries) := by
    by_cases hentries : runner.entries = []
    · rw [hentries, replayAll, replaying_nil]
      rfl
    · rw [hnone hentries, ← @replaying_nil sha256 loop initial]
      exact h.replayAll_returns [] runner.entries rfl
  obtain ⟨resumed, hresumed, hrefreshed⟩ := h.resumeCancellation_returns
  have hrequire := @requireReplayableLedger_returns sha256 loop initial runner h { runner with
    late := []
    state := openState loop false runner.bare
    failureReason := openReason loop runner.bare
    cancellationRequested := false } rfl rfl
  rw [h.replaying_eq hgiven] at hstart
  simp only [init, bind_returns, modify_returns]
  refine ⟨⟨⟩, _, hcheck, ⟨⟩, _, hstart, ⟨⟩, _, hrequire, ⟨⟩, _, hresumed, ⟨⟩, _, rfl, ?_⟩
  rw [hrefreshed]
  by_cases hlate : runner.late = []
  · rw [show runner.ledger.lateResults = [] from hlate, admitAll, pure_returns]
    rw [← hlate]
    exact ⟨rfl, rfl⟩
  · exact h.admitAll_returns (h.late_settled hlate) [] runner.late rfl

end Sound

/-- What a constructor call without a ledger is bound to. -/
theorem construct_resolves {plan : FrozenLoopPlan} {source : List LoopElement}
    {zipSources : List (List LoopElement)} {ledger : LoopLedger} {carryDigest : Option String}
    (h : LoopRunner.construct sha256 plan source zipSources ledger carryDigest = .ok (loop, runner)) :
    resolveElements sha256 plan source zipSources = .ok loop := by
  simp only [LoopRunner.construct, bind_eq_ok] at h
  obtain ⟨bound, hbound, h⟩ := h
  split at h
  · cases h
    exact hbound
  · cases h

/-- A carry the constructor was given is spelled as a digest. -/
theorem construct_carry {plan : FrozenLoopPlan} {source : List LoopElement}
    {zipSources : List (List LoopElement)} {ledger : LoopLedger} {carryDigest : Option String}
    (h : LoopRunner.construct sha256 plan source zipSources ledger carryDigest = .ok (loop, runner)) :
    ∀ digest ∈ carryDigest, isDigest digest = true := by
  rintro digest rfl
  simp only [LoopRunner.construct, bind_eq_ok] at h
  obtain ⟨bound, -, h⟩ := h
  split at h
  · next hinit =>
    simp only [init, requireInitialCarry, bind_returns, lift_returns] at hinit
    obtain ⟨_, _, ⟨_, _, -, hdigest, -⟩, -⟩ := hinit
    exact checkDigest_eq_ok.1 hdigest
  · cases h

end OmniviaCore.Execution.Loop
