import OmniviaCore.Execution.LoopCalls
import OmniviaCore.Lib.Rows

/-!
# Ledgers a live runner writes

What a ledger says apart from its recorded effects is the list of its `bare` entries. `Ledgered` is
what holds of that list in every runner: it is the launch record of the bound loop in ordinal order,
within both bounds, with settlement sequences `1, …, k` and with each launch carrying what the
iterations before it produced.
-/

namespace OmniviaCore.Execution.Loop

open Lib LoopRunner

def bare (entry : IterationLedgerEntry) : EntryMembers := { entry.val with effectSettlements := [] }

def LoopRunner.bare (runner : LoopRunner) : List EntryMembers := runner.entries.map Loop.bare

def carryAfter (initial : Option String) (entries : List EntryMembers) : Option String :=
  entries.foldl (fun carry entry => entry.resultingCarryDigest.or carry) initial

def settledCount (entries : List EntryMembers) : Nat := entries.countP EntryMembers.isSettled

def unsettledCount (entries : List EntryMembers) : Nat := entries.countP fun entry => !entry.isSettled

/-- `1, …, k`. -/
def firstSequences (k : Nat) : List Int := (List.range k).map fun n : Nat => (n : Int) + 1

variable {sha256 : List UInt8 → String} (loop : BoundLoop sha256) (initial : Option String)

/-- The record of the launches and settlements of a live runner. -/
structure Ledgered (entries : List EntryMembers) : Prop where
  coherent : ∀ entry ∈ entries, entry.Coherent
  launched : ∀ (i : Nat) entry, entries[i]? = some entry → entry.ordinal = i ∧
    entry.iterationIdentity = (loop.derived i).1 ∧ entry.inputsDigest = (loop.derived i).2
  length_le : entries.length ≤ loop.reachable
  inFlight_le : unsettledCount entries ≤ loop.plan.maximumConcurrency
  carries : ∀ (i : Nat) entry, entries[i]? = some entry →
    entry.carryDigest = carryAfter initial (entries.take i)
  uncarried : loop.plan.carryEnabled = false → ∀ entry ∈ entries, entry.resultingCarryDigest = none
  sequential : loop.plan.maximumConcurrency = 1 → ∀ entry ∈ entries.dropLast, entry.isSettled = true
  settlements : (entries.filterMap EntryMembers.settlementSequence).Perm
    (firstSequences (settledCount entries))

variable {loop initial} {entries : List EntryMembers}

/-! ## Summaries -/

theorem unsettledCount_eq_zero :
    unsettledCount entries = 0 ↔ ∀ entry ∈ entries, entry.isSettled = true := by
  simp [unsettledCount, List.countP_eq_zero]

theorem inFlight_length (runner : LoopRunner) : runner.inFlight.length = unsettledCount runner.bare := by
  rw [unsettledCount, LoopRunner.bare, List.countP_map, inFlight, ← List.countP_eq_length_filter]
  rfl

theorem inFlight_eq_nil (runner : LoopRunner) :
    runner.inFlight = [] ↔ ∀ entry ∈ runner.bare, entry.isSettled = true := by
  rw [← unsettledCount_eq_zero, ← inFlight_length, List.length_eq_zero_iff]

@[simp] theorem length_bare (runner : LoopRunner) : runner.bare.length = runner.entries.length :=
  List.length_map _

theorem carryAfter_concat (entry : EntryMembers) :
    carryAfter initial (entries ++ [entry]) =
      entry.resultingCarryDigest.or (carryAfter initial entries) := by
  simp [carryAfter]

theorem carryAfter_of_none (h : ∀ entry ∈ entries, entry.resultingCarryDigest = none) :
    carryAfter initial entries = initial := by
  induction entries using List.reverseRecOn with
  | nil => rfl
  | append_singleton entries entry ih =>
    rw [carryAfter_concat, h entry (by simp), Option.none_or]
    exact ih fun other hother => h other (List.mem_append_left _ hother)

/-- The carry is folded out of the resulting carries alone. -/
theorem carryAfter_eq_of_map {entries' : List EntryMembers}
    (h : entries'.map EntryMembers.resultingCarryDigest = entries.map EntryMembers.resultingCarryDigest) :
    carryAfter initial entries' = carryAfter initial entries := by
  have hfold : ∀ l : List EntryMembers, carryAfter initial l =
      (l.map EntryMembers.resultingCarryDigest).foldl (fun carry resulting => resulting.or carry)
        initial := by
    intro l
    rw [carryAfter, List.foldl_map]
  rw [hfold, hfold, h]

theorem firstSequences_succ (k : Nat) : firstSequences (k + 1) = firstSequences k ++ [(k : Int) + 1] := by
  simp [firstSequences, List.range_succ]

theorem mem_firstSequences {k : Nat} {s : Int} : s ∈ firstSequences k ↔ 1 ≤ s ∧ s ≤ k := by
  simp only [firstSequences, List.mem_map, List.mem_range]
  constructor
  · rintro ⟨n, hn, rfl⟩
    omega
  · rintro ⟨hlow, hhigh⟩
    exact ⟨(s - 1).toNat, by omega, by omega⟩

theorem EntryMembers.Coherent.unsettled {entry : EntryMembers} (h : entry.Coherent)
    (hunsettled : entry.isSettled = false) : entry.outcome = none ∧ entry.outputsDigest = none ∧
      entry.failureReason = none ∧ entry.settlementSequence = none ∧
      entry.cancellationDisposition = none ∧ entry.resultingCarryDigest = none := by
  have houtcome : entry.outcome = none := by simpa [isSettled] using hunsettled
  simp only [Coherent, houtcome] at h
  exact ⟨houtcome, h⟩

theorem EntryMembers.Coherent.settled {entry : EntryMembers} (h : entry.Coherent)
    (hsettled : entry.isSettled = true) : ∃ outcome sequence, entry.outcome = some outcome ∧
      entry.settlementSequence = some sequence ∧ 1 ≤ sequence := by
  cases houtcome : entry.outcome with
  | none => simp [isSettled, houtcome] at hsettled
  | some outcome =>
    simp only [Coherent, houtcome] at h
    obtain ⟨⟨sequence, hsequence, hpos⟩, -⟩ := h
    exact ⟨outcome, sequence, rfl, hsequence, hpos⟩

theorem coherent_bare (entry : IterationLedgerEntry) : (bare entry).Coherent :=
  (EntryMembers.postInit_eq_ok.1 entry.accepted).2

namespace Ledgered

theorem nil : Ledgered loop initial [] where
  coherent := by simp
  launched := by simp
  length_le := Nat.zero_le _
  inFlight_le := Nat.zero_le _
  carries := by simp
  uncarried := by simp
  sequential := by simp
  settlements := .refl _

/-! ## Launching -/

/-- A launch in ordinal order, with room under the concurrency bound. -/
theorem launch (h : Ledgered loop initial entries) {entry : EntryMembers}
    (hcoherent : entry.Coherent) (hunsettled : entry.isSettled = false)
    (hordinal : entry.ordinal = entries.length)
    (hidentity : entry.iterationIdentity = (loop.derived entries.length).1)
    (hinputs : entry.inputsDigest = (loop.derived entries.length).2)
    (hcarry : entry.carryDigest = carryAfter initial entries)
    (hroom : entries.length < loop.reachable)
    (hconcurrency : unsettledCount entries < loop.plan.maximumConcurrency) :
    Ledgered loop initial (entries ++ [entry]) := by
  obtain ⟨-, -, -, hsequence, -, hresulting⟩ := hcoherent.unsettled hunsettled
  have hget : ∀ i found, (entries ++ [entry])[i]? = some found →
      entries[i]? = some found ∨ i = entries.length ∧ found = entry := by
    intro i found hfound
    by_cases hi : i < entries.length
    · rw [List.getElem?_append_left hi] at hfound
      exact .inl hfound
    · obtain ⟨hlt, hfound⟩ := List.getElem?_eq_some_iff.1 hfound
      rw [List.length_append, List.length_singleton] at hlt
      have hi : i = entries.length := by omega
      subst hi
      simp only [List.getElem_concat_length] at hfound
      exact .inr ⟨rfl, hfound.symm⟩
  have hcount : unsettledCount (entries ++ [entry]) = unsettledCount entries + 1 := by
    simp [unsettledCount, hunsettled]
  have hsettledCount : settledCount (entries ++ [entry]) = settledCount entries := by
    simp [settledCount, hunsettled]
  constructor
  case coherent =>
    intro found hfound
    rcases List.mem_append.1 hfound with hfound | hfound
    · exact h.coherent found hfound
    · rw [List.mem_singleton.1 hfound]
      exact hcoherent
  case launched =>
    intro i found hfound
    rcases hget i found hfound with hfound | ⟨rfl, rfl⟩
    · exact h.launched i found hfound
    · exact ⟨hordinal, hidentity, hinputs⟩
  case length_le =>
    rw [List.length_append, List.length_singleton]
    omega
  case inFlight_le =>
    rw [hcount]
    omega
  case carries =>
    intro i found hfound
    rcases hget i found hfound with hfound | ⟨rfl, rfl⟩
    · have hi : i ≤ entries.length := (List.getElem?_eq_some_iff.1 hfound).1.le
      rw [List.take_append_of_le_length hi]
      exact h.carries i found hfound
    · rw [List.take_left]
      exact hcarry
  case uncarried =>
    intro hdisabled found hfound
    rcases List.mem_append.1 hfound with hfound | hfound
    · exact h.uncarried hdisabled found hfound
    · rw [List.mem_singleton.1 hfound]
      exact hresulting
  case sequential =>
    intro hone found hfound
    rw [List.dropLast_concat] at hfound
    exact unsettledCount_eq_zero.1 (by omega) found hfound
  case settlements =>
    rw [hsettledCount, List.filterMap_append, List.filterMap_cons_none hsequence, List.filterMap_nil,
      List.append_nil]
    exact h.settlements

/-! ## Settling -/

variable {i : Nat} {entry settled : EntryMembers}

/-- An iteration in flight is settled next. -/
structure Settles (loop : BoundLoop sha256) (entries : List EntryMembers) (i : Nat)
    (entry settled : EntryMembers) : Prop where
  found : entries[i]? = some entry
  unsettled : entry.isSettled = false
  coherent : settled.Coherent
  sequence : settled.settlementSequence = some ((settledCount entries : Int) + 1)
  ordinal : settled.ordinal = entry.ordinal
  identity : settled.iterationIdentity = entry.iterationIdentity
  inputs : settled.inputsDigest = entry.inputsDigest
  carry : settled.carryDigest = entry.carryDigest
  resulting : settled.resultingCarryDigest = none ∨ loop.plan.carryEnabled = true

theorem Settles.isSettled (hsettles : Settles loop entries i entry settled) :
    settled.isSettled = true := by
  by_contra hnot
  have hnone := (hsettles.coherent.unsettled (by simpa using hnot)).2.2.2.1
  rw [hsettles.sequence] at hnone
  cases hnone

theorem Settles.settledCount_eq (hsettles : Settles loop entries i entry settled) :
    settledCount (entries.set i settled) = settledCount entries + 1 :=
  countP_set_gain hsettles.found hsettles.unsettled hsettles.isSettled

theorem Settles.unsettledCount_eq (hsettles : Settles loop entries i entry settled) :
    unsettledCount (entries.set i settled) + 1 = unsettledCount entries :=
  countP_set_lose hsettles.found (by simp [hsettles.unsettled]) (by simp [hsettles.isSettled])

/-- A carrying loop settles the iteration it launched last. -/
theorem last_of_carrying (h : Ledgered loop initial entries) (hfound : entries[i]? = some entry)
    (hunsettled : entry.isSettled = false) (hcarrying : loop.plan.carryEnabled = true) :
    i + 1 = entries.length := by
  have hi : i < entries.length := (List.getElem?_eq_some_iff.1 hfound).1
  by_contra hnot
  have hmem : entry ∈ entries.dropLast := by
    rw [List.mem_iff_getElem?]
    refine ⟨i, ?_⟩
    rw [List.getElem?_dropLast, if_pos (by omega), hfound]
  have hone := loop.plan.sequential_concurrency (loop.plan.carry_sequential hcarrying)
  rw [h.sequential hone entry hmem] at hunsettled
  cases hunsettled

theorem carryAfter_set (h : Ledgered loop initial entries)
    (hsettles : Settles loop entries i entry settled) :
    carryAfter initial (entries.set i settled) =
      settled.resultingCarryDigest.or (carryAfter initial entries) := by
  have hmem := List.mem_of_getElem? hsettles.found
  have hnone := ((h.coherent entry hmem).unsettled hsettles.unsettled).2.2.2.2.2
  rcases hsettles.resulting with hresulting | hcarrying
  · rw [hresulting, Option.none_or]
    exact carryAfter_eq_of_map (map_set_eq hsettles.found (by rw [hresulting, hnone]))
  · have hlast := h.last_of_carrying hsettles.found hsettles.unsettled hcarrying
    obtain ⟨before, last, rfl⟩ := List.eq_nil_or_concat entries |>.resolve_left
      (by rintro rfl; simp at hlast)
    rw [List.concat_eq_append, List.length_append, List.length_singleton] at hlast
    obtain rfl : i = before.length := by omega
    have hentry : last = entry := by simpa using hsettles.found
    rw [List.concat_eq_append, List.set_append_right _ _ (le_refl _), Nat.sub_self,
      List.set_cons_zero, carryAfter_concat, carryAfter_concat, hentry, hnone, Option.none_or]

/-- What was folded before a launch is not changed by settling an iteration. -/
theorem carryAfter_take_set (h : Ledgered loop initial entries)
    (hsettles : Settles loop entries i entry settled) {j : Nat} (hj : j < entries.length) :
    carryAfter initial ((entries.set i settled).take j) = carryAfter initial (entries.take j) := by
  have hmem := List.mem_of_getElem? hsettles.found
  have hnone := ((h.coherent entry hmem).unsettled hsettles.unsettled).2.2.2.2.2
  rcases hsettles.resulting with hresulting | hcarrying
  · apply carryAfter_eq_of_map
    rw [List.map_take, List.map_take, map_set_eq hsettles.found (by rw [hresulting, hnone])]
  · have hlast := h.last_of_carrying hsettles.found hsettles.unsettled hcarrying
    rw [List.take_set_of_le (by omega)]

theorem settle (h : Ledgered loop initial entries) (hsettles : Settles loop entries i entry settled) :
    Ledgered loop initial (entries.set i settled) := by
  have hfound := hsettles.found
  have hget : ∀ j member, (entries.set i settled)[j]? = some member →
      j = i ∧ member = settled ∨ entries[j]? = some member := by
    intro j member hmember
    rw [List.getElem?_set] at hmember
    by_cases hij : i = j
    · rw [if_pos hij, if_pos (hij ▸ (List.getElem?_eq_some_iff.1 hfound).1)] at hmember
      exact .inl ⟨hij.symm, (Option.some.inj hmember).symm⟩
    · rw [if_neg hij] at hmember
      exact .inr hmember
  constructor
  case coherent =>
    intro member hmember
    rcases mem_of_mem_set hfound hmember with rfl | hmember
    · exact hsettles.coherent
    · exact h.coherent member hmember
  case launched =>
    intro j member hmember
    rcases hget j member hmember with ⟨rfl, rfl⟩ | hmember
    · rw [hsettles.ordinal, hsettles.identity, hsettles.inputs]
      exact h.launched j entry hfound
    · exact h.launched j member hmember
  case length_le =>
    rw [List.length_set]
    exact h.length_le
  case inFlight_le =>
    have hcount := hsettles.unsettledCount_eq
    have hle := h.inFlight_le
    omega
  case carries =>
    intro j member hmember
    rcases hget j member hmember with ⟨rfl, rfl⟩ | hmember
    · rw [h.carryAfter_take_set hsettles (List.getElem?_eq_some_iff.1 hfound).1, hsettles.carry]
      exact h.carries j entry hfound
    · rw [h.carryAfter_take_set hsettles (List.getElem?_eq_some_iff.1 hmember).1]
      exact h.carries j member hmember
  case uncarried =>
    intro hdisabled member hmember
    rcases mem_of_mem_set hfound hmember with rfl | hmember
    · rcases hsettles.resulting with hresulting | hcarrying
      · exact hresulting
      · rw [hdisabled] at hcarrying
        cases hcarrying
    · exact h.uncarried hdisabled member hmember
  case sequential =>
    intro hone member hmember
    obtain ⟨j, hj⟩ := List.mem_iff_getElem?.1 hmember
    rw [List.getElem?_dropLast] at hj
    split at hj
    · next hlt =>
      rw [List.length_set] at hlt
      rcases hget j member hj with ⟨rfl, rfl⟩ | hj
      · exact hsettles.isSettled
      · apply h.sequential hone member
        rw [List.mem_iff_getElem?]
        exact ⟨j, by rw [List.getElem?_dropLast, if_pos hlt, hj]⟩
    · cases hj
  case settlements =>
    have hmem := List.mem_of_getElem? hfound
    have hnone := ((h.coherent entry hmem).unsettled hsettles.unsettled).2.2.2.1
    rw [hsettles.settledCount_eq, firstSequences_succ]
    exact (filterMap_set_perm hfound hnone hsettles.sequence).trans (h.settlements.append_right _)

/-- A settlement sequence that is recorded is at most the number of settlements. -/
theorem sequence_mem (h : Ledgered loop initial entries) (hmem : entry ∈ entries) {s : Int}
    (hs : s ∈ entry.settlementSequence) : 1 ≤ s ∧ s ≤ settledCount entries := by
  apply mem_firstSequences.1
  rw [← h.settlements.mem_iff]
  exact List.mem_filterMap.2 ⟨entry, hmem, hs⟩

end Ledgered

end OmniviaCore.Execution.Loop
