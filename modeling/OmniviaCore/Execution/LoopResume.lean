import OmniviaCore.Execution.LoopDocuments
import OmniviaCore.Execution.LoopLaws

/-!
# A loop that resumes

The ledger of a runner goes to canonical JSON bytes and back, and the constructor on what comes back is
the runner. The document of a reachable ledger is plain: its only numbers are ordinals and settlement
sequences, which the bound of the loop keeps far below `2 ^ 53` (`Sound.plain_ledger`). So the bytes are
read as the ledger they were written from.
-/

namespace OmniviaCore.Execution.Loop

open Lib CanonicalJson LoopRunner

/-- `json.loads` decodes bytes before it reads them. -/
def decodeText (payload : List UInt8) : Option (List Char) :=
  payload.toByteArray.utf8Decode?.map Array.toList

theorem decodeText_encoded (chars : List Char) :
    decodeText (chars.flatMap String.utf8EncodeChar) = some chars := by
  have hbytes : (chars.flatMap String.utf8EncodeChar).toByteArray = chars.utf8Encode := rfl
  rw [decodeText, hbytes, List.utf8Decode?_utf8Encode, Option.map_some]

/-! ## Plain documents -/

section Plain

variable {depth : Nat} (h : depth ≤ JCS_MAX_NESTING_DEPTH)
include h

theorem plain_text (s : String) : Plain depth (textValue s) := .str h s.toList

theorem plain_optionalText (value : Option String) : Plain depth (optionalText value) := by
  cases value with
  | none => exact .none h
  | some s => exact plain_text h s

theorem plain_count {n : Int} (hn : 0 ≤ n) (hlt : n < 2 ^ 53) : Plain depth (.int n) := by
  obtain ⟨k, rfl⟩ := Int.eq_ofNat_of_zero_le hn
  exact .int h (by omega)

theorem plain_optionalCount {value : Option Int} (hvalue : ∀ n ∈ value, 0 ≤ n ∧ n < 2 ^ 53) :
    Plain depth (optionalCount value) := by
  cases value with
  | none => exact .none h
  | some n => exact plain_count h (hvalue n rfl).1 (hvalue n rfl).2

theorem plain_mappingOf {members : List (String × Value)} (nodup : (members.map Prod.fst).Nodup)
    (hitems : ∀ m ∈ members, Plain (depth + 1) m.2) : Plain depth (mappingOf members) := by
  rw [mappingOf_eq]
  refine .mapping h (nodup_toList nodup) fun m hm => ?_
  obtain ⟨member, hmember, rfl⟩ := List.mem_map.1 hm
  exact hitems member hmember

theorem plain_sequenceOf {α : Type} {write : α → Value} {values : List α}
    (hitems : ∀ a ∈ values, Plain (depth + 1) (write a)) :
    Plain depth (.sequence (values.map write)) := by
  refine .sequence h fun item hitem => ?_
  obtain ⟨a, ha, rfl⟩ := List.mem_map.1 hitem
  exact hitems a ha

end Plain

variable {sha256 : List UInt8 → String} {loop : BoundLoop sha256} {initial : Option String}
  {runner fresh : LoopRunner}

theorem plain_settlement (settlement : EffectSettlement) : Plain 4 (settlementDocument settlement) := by
  refine plain_mappingOf (by decide) (show SETTLEMENT_MEMBERS.Nodup by decide) ?_
  simp only [settlementMembers, List.forall_mem_cons]
  exact ⟨plain_text (by decide) _, plain_text (by decide) _, plain_text (by decide) _,
    plain_optionalText (by decide) _, by simp⟩

theorem plain_late (late : LateResult) : Plain 2 (lateDocument late) := by
  refine plain_mappingOf (by decide) (show LATE_MEMBERS.Nodup by decide) ?_
  simp only [lateMembers, List.forall_mem_cons]
  exact ⟨plain_text (by decide) _, plain_text (by decide) _, .bool (by decide) _, by simp⟩

/-- An entry whose ordinal and settlement sequence are numbers JSON carries exactly. -/
theorem plain_entry {entry : IterationLedgerEntry}
    (hordinal : 0 ≤ entry.val.ordinal ∧ entry.val.ordinal < 2 ^ 53)
    (hsequence : ∀ n ∈ entry.val.settlementSequence, 0 ≤ n ∧ n < 2 ^ 53) :
    Plain 2 (entryDocument entry) := by
  refine plain_mappingOf (by decide) (show ENTRY_MEMBERS.Nodup by decide) ?_
  simp only [entryMembers, List.forall_mem_cons]
  refine ⟨plain_text (by decide) _, plain_count (by decide) hordinal.1 hordinal.2,
    plain_text (by decide) _, plain_optionalText (by decide) _,
    plain_sequenceOf (by decide) fun s _ => plain_text (by decide) s,
    plain_optionalText (by decide) _, plain_optionalText (by decide) _,
    plain_optionalText (by decide) _, plain_optionalCount (by decide) hsequence,
    plain_sequenceOf (by decide) fun settlement _ => plain_settlement settlement,
    plain_optionalText (by decide) _, plain_optionalText (by decide) _, by simp⟩

namespace Sound

theorem counts_lt (h : Sound loop initial runner) {entry : IterationLedgerEntry}
    (hentry : entry ∈ runner.entries) :
    (0 ≤ entry.val.ordinal ∧ entry.val.ordinal < 2 ^ 53) ∧
      ∀ n ∈ entry.val.settlementSequence, 0 ≤ n ∧ n < 2 ^ 53 := by
  have hle := h.ledgered.length_le
  have hreachable : loop.reachable ≤ 10000 :=
    (min_le_right _ _).trans loop.plan.maximumIterations_mem.2
  constructor
  · obtain ⟨i, hi⟩ := List.mem_iff_getElem?.1 hentry
    have hget : runner.bare[i]? = some (bare entry) := by
      rw [LoopRunner.bare, List.getElem?_map, hi]
      rfl
    have hordinal : entry.val.ordinal = i := (h.ledgered.launched i _ hget).1
    have hlt := (List.getElem?_eq_some_iff.1 hget).1
    omega
  · intro n hn
    have hmem : n ∈ runner.bare.filterMap EntryMembers.settlementSequence :=
      List.mem_filterMap.2 ⟨bare entry, List.mem_map_of_mem hentry, hn⟩
    have hbounds := mem_firstSequences.1 (h.ledgered.settlements.mem_iff.1 hmem)
    have hcount : settledCount runner.bare ≤ runner.bare.length := List.countP_le_length
    omega

/-- The document of the ledger of a live runner is one JSON carries exactly. -/
theorem plain_ledger (h : Sound loop initial runner) : Plain 0 (loopLedgerDocument runner.ledger) := by
  refine plain_mappingOf (by decide) (show LEDGER_MEMBERS.Nodup by decide) ?_
  simp only [ledgerMembers, List.forall_mem_cons]
  exact ⟨plain_text (by decide) _, .bool (by decide) _,
    plain_sequenceOf (by decide) fun entry hentry =>
      plain_entry (h.counts_lt hentry).1 (h.counts_lt hentry).2,
    plain_sequenceOf (by decide) fun late _ => plain_late late, by simp⟩

/-- The ledger of a live runner comes back from its canonical bytes. -/
theorem ledger_reread (h : Sound loop initial runner) (path : Str) :
    ∃ payload text value, canonicalBytes (loopLedgerDocument runner.ledger) path = .ok payload ∧
      decodeText payload = some text ∧ loads text = .ok value ∧
      loopLedgerFromDocument value = .ok runner.ledger := by
  obtain ⟨text, htext, hloads⟩ := loads_canonicalize h.plain_ledger path
  refine ⟨text.flatMap String.utf8EncodeChar, text, _, ?_, decodeText_encoded text, hloads,
    loopLedgerFromDocument_reread runner.ledger⟩
  rw [canonicalBytes, htext]
  rfl

theorem planned_unrecorded (h : Sound loop initial runner) {intents : List String}
    {wave : List IterationLaunch} (hplan : planLaunches loop runner intents = .ok wave) :
    ∀ launch ∈ wave, ∀ entry ∈ runner.entries,
      entry.val.iterationIdentity ≠ launch.val.iterationIdentity := by
  rcases h.planLaunches_eq_ok hplan with rfl | ⟨-, hwave⟩
  · exact fun launch hlaunch => absurd hlaunch List.not_mem_nil
  · intro launch hlaunch entry hentry hsame
    have hplanned : launch.val ∈ wave.map Validated.val := List.mem_map_of_mem hlaunch
    rw [hwave.planned] at hplanned
    obtain ⟨o, ho, hlaunched⟩ := List.mem_map.1 hplanned
    obtain ⟨hle, hlt⟩ := List.mem_range'_1.1 ho
    obtain ⟨i, hi⟩ := List.mem_iff_getElem?.1 hentry
    have hget : runner.bare[i]? = some (bare entry) := by
      rw [LoopRunner.bare, List.getElem?_map, hi]
      rfl
    have hidentity : entry.val.iterationIdentity = (loop.derived i).1 :=
      (h.ledgered.launched i _ hget).2.1
    have hil := (List.getElem?_eq_some_iff.1 hi).1
    have hroom := hwave.room
    have hreachable : loop.reachable ≤ loop.elements.length := min_le_left _ _
    have hderived : (loop.derived i).1 = (loop.derived o).1 := by
      rw [← hidentity, hsame, ← hlaunched]
      rfl
    have heq := BoundLoop.derived_inj (by omega) (by omega) hderived
    omega

end Sound

/-- Whatever calls led to a runner, its ledger comes back from its canonical bytes, the constructor on
it (given the initial carry again exactly when nothing was launched) is bound to the same elements and
rebuilds the whole runner, which then answers every further call as the runner would have, and plans
nothing that was recorded. -/
theorem replay_resumes {plan : FrozenLoopPlan} {source : List LoopElement}
    {zipSources : List (List LoopElement)}
    (h : LoopRunner.construct sha256 plan source zipSources EMPTY_LOOP_LEDGER initial =
      .ok (loop, fresh)) (calls : List Call) (path : Str) :
    ∃ payload text value ledger restored,
      canonicalBytes (loopLedgerDocument (run (step loop) fresh calls).ledger) path = .ok payload ∧
      decodeText payload = some text ∧ loads text = .ok value ∧
      loopLedgerFromDocument value = .ok ledger ∧
      ledger = (run (step loop) fresh calls).ledger ∧
      replayLedger sha256 plan source ledger zipSources (if ledger.entries = [] then initial else none) =
        .ok (loop, restored) ∧
      restored = run (step loop) fresh calls ∧
      (∀ further (call : Call), call.perform loop (run (step loop) restored further) =
        call.perform loop (run (step loop) fresh (calls ++ further))) ∧
      (∀ intents wave, planLaunches loop restored intents = .ok wave →
        ∀ launch ∈ wave, ∀ entry ∈ ledger.entries,
          entry.val.iterationIdentity ≠ launch.val.iterationIdentity) := by
  have hsound := (sound_fresh h).run calls
  obtain ⟨payload, text, value, hpayload, htext, hvalue, hledger⟩ := hsound.ledger_reread path
  refine ⟨payload, text, value, _, _, hpayload, htext, hvalue, hledger, rfl, ?_, rfl, ?_,
    fun intents wave hplan => hsound.planned_unrecorded hplan⟩
  · have hspelled : ∀ digest ∈ (if (run (step loop) fresh calls).ledger.entries = [] then initial
        else none), isDigest digest = true := by
      split
      · exact construct_carry h
      · simp
    have hinit : init loop (run (step loop) fresh calls).ledger
        (if (run (step loop) fresh calls).ledger.entries = [] then initial else none)
        (start (if (run (step loop) fresh calls).ledger.entries = [] then initial else none)) =
          .ok ⟨⟩ (run (step loop) fresh calls) :=
      hsound.init_ledger (fun hentries => if_pos hentries) (fun hentries => if_neg hentries) hspelled
    rw [replayLedger, LoopRunner.construct, construct_resolves h, ok_bind]
    simp only [hinit]
    rfl
  · intro further call
    rw [run_append]

/-- The loop of two elements is resumed after both were launched and settled. -/
theorem replay_resumes_pair : ∃ loop fresh,
    LoopRunner.construct pairDigest pairPlan pairSource [] EMPTY_LOOP_LEDGER none = .ok (loop, fresh) ∧
      ∃ payload text value ledger restored,
        canonicalBytes (loopLedgerDocument (run (step loop) fresh pairCalls).ledger) [] = .ok payload ∧
        decodeText payload = some text ∧ loads text = .ok value ∧
        loopLedgerFromDocument value = .ok ledger ∧ ledger.entries.length = 2 ∧
        replayLedger pairDigest pairPlan pairSource ledger [] none = .ok (loop, restored) ∧
        restored = run (step loop) fresh pairCalls := by
  obtain ⟨loop, fresh, hbuilt, houtcomes⟩ := exists_pair
  obtain ⟨payload, text, value, ledger, restored, hpayload, htext, hvalue, hledger, rfl, hreplay,
    hrestored, -⟩ := replay_resumes hbuilt pairCalls []
  have hlength := congrArg List.length houtcomes
  rw [List.length_map] at hlength
  rw [ite_self] at hreplay
  exact ⟨loop, fresh, hbuilt, payload, text, value, _, restored, hpayload, htext, hvalue, hledger, hlength,
    hreplay, hrestored⟩

end OmniviaCore.Execution.Loop
