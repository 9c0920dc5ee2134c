import OmniviaCore.SemanticRegistry.Operations
import OmniviaCore.Lib.Dict
import OmniviaCore.Knowledge.Instants

/-!
# Supersession chains

`AssertionSupersession` of `semantic_registry/assertions.py`, and `current_assertion_id`, which follows the
links from an assertion to the one that stands. Every link is checked before the first is followed; a cycle
is refused when the walk runs into it. Where it returns, what it returns is the one end of the chain, and
the answer for every other assertion of the chain (`current_assertion_id_unique`).
-/

namespace OmniviaCore.SemanticRegistry

open Lib CanonicalJson
open Knowledge (TemporalInstant)
open Relation (ReflTransGen TransGen)

/-- `AssertionSupersession`. -/
structure AssertionSupersession where
  workspaceId : Str
  supersessionId : Str
  priorAssertionId : Str
  successorAssertionId : Str
  reasonCode : Str
  decisionId : Str
  recordedAt : TemporalInstant
  ids : ∀ value ∈ [workspaceId, supersessionId, priorAssertionId, successorAssertionId, reasonCode,
    decisionId], value.all isSpace = false
  distinct : priorAssertionId ≠ successorAssertionId

/-- What `current_assertion_id` raises. -/
inductive HistoryError where
  | unknownAssertion (assertionId : Str)
  | unknownPrior (supersessionId : Str)
  | unknownSuccessor (supersessionId : Str)
  | branch (priorAssertionId : Str)
  | cycle

/-- The checks against `known_assertion_ids`. -/
def checkKnown (assertionId : Str) (supersessions : List AssertionSupersession) :
    Option (List Str) → Except HistoryError Unit
  | none => .ok ()
  | some known => do
    require (assertionId ∈ known) (.unknownAssertion assertionId)
    supersessions.forM fun s => do
      require (s.priorAssertionId ∈ known) (.unknownPrior s.supersessionId)
      require (s.successorAssertionId ∈ known) (.unknownSuccessor s.supersessionId)

/-- The loop that fills `successor_by_prior`. -/
def successorByPrior : List AssertionSupersession → Dict Str Str → Except HistoryError (Dict Str Str)
  | [], successors => .ok successors
  | s :: supersessions, successors => do
    require (successors.get s.priorAssertionId = none) (.branch s.priorAssertionId)
    successorByPrior supersessions (successors.set s.priorAssertionId s.successorAssertionId)

def unvisited (successors : Dict Str Str) (visited : List Str) : ℕ :=
  (successors.entries.filter fun entry => entry.2 ∉ visited).length

theorem unvisited_lt {successors : Dict Str Str} {visited : List Str} {current next : Str}
    (hnext : successors.get current = some next) (hnew : next ∉ visited) :
    unvisited successors (next :: visited) < unvisited successors visited := by
  have hmem : (current, next) ∈ successors.entries.filter fun entry => entry.2 ∉ visited :=
    List.mem_filter.2 ⟨Dict.get_eq_some.1 hnext, decide_eq_true hnew⟩
  have hsplit : (successors.entries.filter fun entry => entry.2 ∉ next :: visited) =
      (successors.entries.filter fun entry => entry.2 ∉ visited).filter fun entry => entry.2 ≠ next := by
    rw [List.filter_filter]
    refine List.filter_congr fun entry _ => ?_
    simp [List.mem_cons, not_or]
  rw [unvisited, unvisited, hsplit]
  exact List.length_filter_lt_length_iff_exists.2 ⟨_, hmem, by simp⟩

def follow (successors : Dict Str Str) (current : Str) (visited : List Str) : Except HistoryError Str :=
  match _hnext : successors.get current with
  | none => .ok current
  | some next =>
    if _hnew : next ∈ visited then .error .cycle
    else follow successors next (next :: visited)
  termination_by unvisited successors visited
  decreasing_by exact unvisited_lt _hnext _hnew

/-- `current_assertion_id`. -/
def currentAssertionId (assertionId : Str) (supersessions : List AssertionSupersession)
    (knownAssertionIds : Option (List Str)) : Except HistoryError Str := do
  checkKnown assertionId supersessions knownAssertionIds
  let successors ← successorByPrior supersessions ⟨[], List.nodup_nil⟩
  follow successors assertionId [assertionId]

/-! ## Chains -/

/-- A link leads from one assertion to the other. -/
def Supersedes (supersessions : List AssertionSupersession) (prior successor : Str) : Prop :=
  ∃ s ∈ supersessions, s.priorAssertionId = prior ∧ s.successorAssertionId = successor

/-- Every link names known assertions, and so does the start. -/
def KnownThroughout (assertionId : Str) (supersessions : List AssertionSupersession)
    (knownAssertionIds : Option (List Str)) : Prop :=
  ∀ known ∈ knownAssertionIds, assertionId ∈ known ∧
    ∀ s ∈ supersessions, s.priorAssertionId ∈ known ∧ s.successorAssertionId ∈ known

/-- The chain from an assertion runs into a cycle. -/
def EntersCycle (supersessions : List AssertionSupersession) (assertionId : Str) : Prop :=
  ∃ a, ReflTransGen (Supersedes supersessions) assertionId a ∧ TransGen (Supersedes supersessions) a a

variable {supersessions : List AssertionSupersession} {known : Option (List Str)}
  {successors filled : Dict Str Str} {start finish a : Str}

theorem checkKnown_eq_ok : checkKnown start supersessions known = .ok () ↔
    KnownThroughout start supersessions known := by
  cases known with
  | none => exact iff_of_true rfl fun known h => by cases h
  | some known =>
    simp only [checkKnown, bind_eq_ok, exists_unit, require_eq_ok, forM_eq_ok, KnownThroughout,
      Option.mem_some_iff, forall_eq']

/-- The loop fills in every link, and stops at an assertion that has a successor. -/
theorem successorByPrior_eq_ok (h : successorByPrior supersessions successors = .ok filled) (k v : Str) :
    filled.get k = some v ↔ successors.get k = some v ∨ Supersedes supersessions k v := by
  induction supersessions generalizing successors with
  | nil =>
    obtain rfl := Except.ok.inj h
    simp [Supersedes]
  | cons s supersessions ih =>
    simp only [successorByPrior, bind_eq_ok, exists_unit, require_eq_ok] at h
    obtain ⟨hnone, h⟩ := h
    rw [ih h, Dict.get_set]
    simp only [Supersedes, List.exists_mem_cons_iff]
    by_cases hk : k = s.priorAssertionId
    · rw [if_pos hk, hk, hnone, Option.some.injEq]
      simp
    · rw [if_neg hk]
      simp [Ne.symm hk]

theorem successorByPrior_isOk : (∃ filled, successorByPrior supersessions successors = .ok filled) ↔
    (supersessions.map AssertionSupersession.priorAssertionId).Nodup ∧
      ∀ s ∈ supersessions, successors.get s.priorAssertionId = none := by
  induction supersessions generalizing successors with
  | nil => exact iff_of_true ⟨_, rfl⟩ ⟨List.nodup_nil, fun _ h => absurd h List.not_mem_nil⟩
  | cons s supersessions ih =>
    rw [List.map_cons, List.nodup_cons, List.forall_mem_cons]
    have hset : (∀ t ∈ supersessions, (successors.set s.priorAssertionId s.successorAssertionId).get
        t.priorAssertionId = none) ↔
          s.priorAssertionId ∉ supersessions.map AssertionSupersession.priorAssertionId ∧
            ∀ t ∈ supersessions, successors.get t.priorAssertionId = none := by
      simp only [Dict.get_set, List.mem_map, not_exists, not_and]
      constructor
      · intro h
        refine ⟨fun t ht heq => ?_, fun t ht => ?_⟩
        · have hnone := h t ht
          rw [if_pos heq] at hnone
          cases hnone
        · have hnone := h t ht
          split at hnone
          · cases hnone
          · exact hnone
      · rintro ⟨hne, hnone⟩ t ht
        rw [if_neg (hne t ht)]
        exact hnone t ht
    constructor
    · rintro ⟨filled, h⟩
      simp only [successorByPrior, bind_eq_ok, exists_unit, require_eq_ok] at h
      obtain ⟨hnodup, hrest⟩ := ih.1 ⟨filled, h.2⟩
      obtain ⟨hnew, hnone⟩ := hset.1 hrest
      exact ⟨⟨hnew, hnodup⟩, h.1, hnone⟩
    · rintro ⟨⟨hnew, hnodup⟩, hs, hnone⟩
      obtain ⟨filled, hfilled⟩ := ih.2 ⟨hnodup, hset.2 ⟨hnew, hnone⟩⟩
      refine ⟨filled, ?_⟩
      rw [successorByPrior, require_pos hs, ok_bind, hfilled]

/-- Where no assertion has two links, a link is followed to one assertion. -/
theorem supersedes_rightUnique (h : (supersessions.map AssertionSupersession.priorAssertionId).Nodup) :
    Relator.RightUnique (Supersedes supersessions) := by
  rintro a b c ⟨s, hs, hprior, rfl⟩ ⟨t, ht, hprior', rfl⟩
  rw [List.inj_on_of_nodup_map h hs ht (hprior.trans hprior'.symm)]

theorem eq_of_unsuperseded (h : ReflTransGen (Supersedes supersessions) finish a)
    (hend : ∀ b, ¬Supersedes supersessions finish b) : a = finish := by
  cases Relation.ReflTransGen.cases_head h with
  | inl heq => exact heq.symm
  | inr hstep =>
    obtain ⟨b, hb, -⟩ := hstep
    exact absurd hb (hend b)

theorem not_cycle_of_end (hunique : Relator.RightUnique (Supersedes supersessions))
    (h : ReflTransGen (Supersedes supersessions) a finish) (hend : ∀ b, ¬Supersedes supersessions finish b) :
    ¬TransGen (Supersedes supersessions) a a := by
  induction h using Relation.ReflTransGen.head_induction_on with
  | refl =>
    intro hcycle
    obtain ⟨b, hb, -⟩ := TransGen.head'_iff.1 hcycle
    exact hend b hb
  | head hstep _ ih =>
    rename_i a c _
    intro hcycle
    obtain ⟨b, hb, hback⟩ := TransGen.head'_iff.1 hcycle
    obtain rfl := hunique hstep hb
    exact ih (TransGen.tail'_iff.2 ⟨a, hback, hstep⟩)

theorem reaches_end (hunique : Relator.RightUnique (Supersedes supersessions))
    (h : ReflTransGen (Supersedes supersessions) start finish) (hend : ∀ b, ¬Supersedes supersessions finish b)
    (ha : ReflTransGen (Supersedes supersessions) start a) : ReflTransGen (Supersedes supersessions) a finish := by
  rcases ReflTransGen.total_of_right_unique hunique h ha with hback | hforth
  · rw [eq_of_unsuperseded hback hend]
  · exact hforth

/-! ## The walk -/

theorem follow_none {visited : List Str} (h : successors.get start = none) :
    follow successors start visited = .ok start := by
  rw [follow]
  split
  · rfl
  · next next hnext => rw [h] at hnext; cases hnext

theorem follow_some {visited : List Str} {next : Str} (h : successors.get start = some next) :
    follow successors start visited =
      if next ∈ visited then .error .cycle else follow successors next (next :: visited) := by
  rw [follow]
  split
  · next hnone => rw [h] at hnone; cases hnone
  · next other hother =>
    obtain rfl : next = other := Option.some.inj (h.symm.trans hother)
    by_cases hmem : next ∈ visited
    · rw [dif_pos hmem, if_pos hmem]
    · rw [dif_neg hmem, if_neg hmem]

theorem follow_cases (hlinks : ∀ k v, successors.get k = some v ↔ Supersedes supersessions k v)
    {visited : List Str} (hvisited : ∀ v ∈ visited, ReflTransGen (Supersedes supersessions) v start) :
    (∃ finish, follow successors start visited = .ok finish ∧
      ReflTransGen (Supersedes supersessions) start finish ∧ ∀ b, ¬Supersedes supersessions finish b) ∨
    (follow successors start visited = .error .cycle ∧ EntersCycle supersessions start) := by
  induction start, visited using follow.induct successors with
  | case1 current visited hnone =>
    refine .inl ⟨current, follow_none hnone, .refl, fun b hb => ?_⟩
    rw [(hlinks current b).2 hb] at hnone
    cases hnone
  | case2 current visited next hnext hmem =>
    have hstep := (hlinks current next).1 hnext
    refine .inr ⟨by rw [follow_some hnext, if_pos hmem], next, .single hstep, ?_⟩
    exact TransGen.tail'_iff.2 ⟨current, hvisited next hmem, hstep⟩
  | case3 current visited next hnext hmem ih =>
    have hstep := (hlinks current next).1 hnext
    have hvisited' : ∀ v ∈ next :: visited, ReflTransGen (Supersedes supersessions) v next := by
      intro v hv
      rcases List.mem_cons.1 hv with rfl | hv
      · exact .refl
      · exact (hvisited v hv).tail hstep
    rw [follow_some hnext, if_neg hmem]
    rcases ih hvisited' with ⟨finish, hfinish, hreach, hend⟩ | ⟨hcycle, a, ha, hback⟩
    · exact .inl ⟨finish, hfinish, .head hstep hreach, hend⟩
    · exact .inr ⟨hcycle, a, .head hstep ha, hback⟩

/-! ## The assertion that stands -/

/-- Where an answer is returned, it is the end of a chain of which every link names known assertions and no
assertion has two. -/
theorem currentAssertionId_eq_ok : currentAssertionId start supersessions known = .ok finish ↔
    KnownThroughout start supersessions known ∧
      (supersessions.map AssertionSupersession.priorAssertionId).Nodup ∧
      ReflTransGen (Supersedes supersessions) start finish ∧ ∀ b, ¬Supersedes supersessions finish b := by
  have hempty : ∀ k : Str, Dict.get (⟨[], List.nodup_nil⟩ : Dict Str Str) k = none := fun _ => rfl
  simp only [currentAssertionId, bind_eq_ok, exists_unit, checkKnown_eq_ok]
  refine and_congr_right fun _ => ?_
  have hwalk : ∀ {filled : Dict Str Str}, successorByPrior supersessions ⟨[], List.nodup_nil⟩ = .ok filled →
      ∀ k v, filled.get k = some v ↔ Supersedes supersessions k v := by
    intro filled hfilled k v
    rw [successorByPrior_eq_ok hfilled, hempty]
    simp
  have hstart : ∀ v ∈ [start], ReflTransGen (Supersedes supersessions) v start := by
    intro v hv
    obtain rfl := List.mem_singleton.1 hv
    exact .refl
  constructor
  · rintro ⟨filled, hfilled, hfollow⟩
    refine ⟨(successorByPrior_isOk.1 ⟨filled, hfilled⟩).1, ?_⟩
    rcases follow_cases (hwalk hfilled) hstart with ⟨finish', hfinish', hreach, hend⟩ | ⟨hcycle, -⟩
    · rw [hfollow, Except.ok.injEq] at hfinish'
      rw [hfinish']
      exact ⟨hreach, hend⟩
    · rw [hfollow] at hcycle
      cases hcycle
  · rintro ⟨hnodup, hreach, hend⟩
    obtain ⟨filled, hfilled⟩ := successorByPrior_isOk.2 ⟨hnodup, fun s _ => hempty s.priorAssertionId⟩
    refine ⟨filled, hfilled, ?_⟩
    have hunique := supersedes_rightUnique hnodup
    rcases follow_cases (hwalk hfilled) hstart with ⟨finish', hfinish', hreach', hend'⟩ | ⟨-, a, ha, hcycle⟩
    · rw [hfinish', eq_of_unsuperseded (reaches_end hunique hreach hend hreach') hend']
    · exact absurd hcycle (not_cycle_of_end hunique (reaches_end hunique hreach hend ha) hend)

/-- An answer is returned unless an assertion is unknown, an assertion has two links, or the chain runs into
a cycle. -/
theorem currentAssertionId_isOk : (∃ finish, currentAssertionId start supersessions known = .ok finish) ↔
    KnownThroughout start supersessions known ∧
      (supersessions.map AssertionSupersession.priorAssertionId).Nodup ∧ ¬EntersCycle supersessions start := by
  constructor
  · rintro ⟨finish, h⟩
    obtain ⟨hknown, hnodup, hreach, hend⟩ := currentAssertionId_eq_ok.1 h
    refine ⟨hknown, hnodup, ?_⟩
    rintro ⟨a, ha, hcycle⟩
    have hunique := supersedes_rightUnique hnodup
    exact not_cycle_of_end hunique (reaches_end hunique hreach hend ha) hend hcycle
  · rintro ⟨hknown, hnodup, hacyclic⟩
    have hempty : ∀ k : Str, Dict.get (⟨[], List.nodup_nil⟩ : Dict Str Str) k = none := fun _ => rfl
    obtain ⟨filled, hfilled⟩ := successorByPrior_isOk.2 ⟨hnodup, fun s _ => hempty s.priorAssertionId⟩
    have hwalk : ∀ k v, filled.get k = some v ↔ Supersedes supersessions k v := by
      intro k v
      rw [successorByPrior_eq_ok hfilled, hempty]
      simp
    have hstart : ∀ v ∈ [start], ReflTransGen (Supersedes supersessions) v start := by
      intro v hv
      obtain rfl := List.mem_singleton.1 hv
      exact .refl
    rcases follow_cases hwalk hstart with ⟨finish, -, hreach, hend⟩ | ⟨-, hcycle⟩
    · exact ⟨finish, currentAssertionId_eq_ok.2 ⟨hknown, hnodup, hreach, hend⟩⟩
    · exact absurd hcycle hacyclic

/-- What is on the chain through an assertion: what it leads to, and what leads to it. -/
def OnChain (supersessions : List AssertionSupersession) (assertionId a : Str) : Prop :=
  ReflTransGen (Supersedes supersessions) assertionId a ∨ ReflTransGen (Supersedes supersessions) a assertionId

theorem KnownThroughout.onChain (h : KnownThroughout start supersessions known)
    (ha : OnChain supersessions start a) : KnownThroughout a supersessions known := by
  intro known' hknown'
  obtain ⟨hstart, hlinks⟩ := h known' hknown'
  refine ⟨?_, hlinks⟩
  rcases ha with ha | ha
  · rcases Relation.ReflTransGen.cases_tail ha with rfl | ⟨b, -, s, hs, -, rfl⟩
    · exact hstart
    · exact (hlinks s hs).2
  · rcases Relation.ReflTransGen.cases_head ha with rfl | ⟨b, ⟨s, hs, rfl, -⟩, -⟩
    · exact hstart
    · exact (hlinks s hs).1

/-- An answer is the one unsuperseded end of the chain through the start, and the answer for all of the
chain, in whatever order the links are given. It is refused exactly when an assertion that is named is not
known, an assertion has two links, or the chain runs into a cycle. -/
theorem current_assertion_id_unique (assertionId : Str) (supersessions : List AssertionSupersession)
    (known : Option (List Str)) :
    (∀ finish, currentAssertionId assertionId supersessions known = .ok finish →
      (ReflTransGen (Supersedes supersessions) assertionId finish ∧ ∀ b, ¬Supersedes supersessions finish b) ∧
      (∀ a, OnChain supersessions assertionId a → (∀ b, ¬Supersedes supersessions a b) → a = finish) ∧
      (∀ a, OnChain supersessions assertionId a → currentAssertionId a supersessions known = .ok finish) ∧
      ∀ others, supersessions.Perm others → currentAssertionId assertionId others known = .ok finish) ∧
    ((∃ error, currentAssertionId assertionId supersessions known = .error error) ↔
      (¬KnownThroughout assertionId supersessions known ∨
        ¬(supersessions.map AssertionSupersession.priorAssertionId).Nodup ∨
        EntersCycle supersessions assertionId)) := by
  constructor
  · intro finish h
    obtain ⟨hknown, hnodup, hreach, hend⟩ := currentAssertionId_eq_ok.1 h
    have hunique := supersedes_rightUnique hnodup
    have hchain : ∀ a, OnChain supersessions assertionId a →
        ReflTransGen (Supersedes supersessions) a finish := by
      intro a ha
      rcases ha with ha | ha
      · exact reaches_end hunique hreach hend ha
      · exact ha.trans hreach
    refine ⟨⟨hreach, hend⟩, fun a ha hstands => ?_, fun a ha => ?_, fun others hperm => ?_⟩
    · exact (eq_of_unsuperseded (hchain a ha) hstands).symm
    · exact currentAssertionId_eq_ok.2 ⟨hknown.onChain ha, hnodup, hchain a ha, hend⟩
    · have hsame : Supersedes others = Supersedes supersessions := by
        funext prior successor
        exact propext (exists_congr fun s => and_congr_left' hperm.mem_iff.symm)
      refine currentAssertionId_eq_ok.2 ⟨fun known' hknown' => ?_, ?_, ?_⟩
      · obtain ⟨hstart, hlinks⟩ := hknown known' hknown'
        exact ⟨hstart, fun s hs => hlinks s (hperm.mem_iff.2 hs)⟩
      · exact (hperm.map _).nodup_iff.1 hnodup
      · rw [hsame]
        exact ⟨hreach, hend⟩
  · have hok := @currentAssertionId_isOk supersessions known assertionId
    have hraises : (∃ error, currentAssertionId assertionId supersessions known = .error error) ↔
        ¬∃ finish, currentAssertionId assertionId supersessions known = .ok finish := by
      cases currentAssertionId assertionId supersessions known with
      | ok finish => simp
      | error error => simp
    rw [hraises, hok]
    tauto

/-! ## A branch elsewhere -/

def recorded2024 : TemporalInstant := Knowledge.year2024

def branchTo (supersessionId successor : Char) (h : CodePoint.scalar 'b' ≠ .scalar successor)
    (hid : isSpace (.scalar supersessionId) = false) (hsuccessor : isSpace (.scalar successor) = false) :
    AssertionSupersession where
  workspaceId := ofChars ['w']
  supersessionId := ofChars [supersessionId]
  priorAssertionId := ofChars ['b']
  successorAssertionId := ofChars [successor]
  reasonCode := ofChars ['r']
  decisionId := ofChars ['d']
  recordedAt := recorded2024
  ids := by
    simp only [List.forall_mem_cons, ofChars, List.map, List.all_cons, hid, hsuccessor, Bool.false_and]
    decide
  distinct := fun heq => h (List.head_eq_of_cons_eq heq)

def branches : List AssertionSupersession :=
  [branchTo '1' 'c' (by decide) (by decide) (by decide), branchTo '2' 'd' (by decide) (by decide) (by decide)]

/-- The start is unknown, an assertion on its path is superseded by two different ones, or its path enters a
cycle. -/
def RefusedOnPath (assertionId : Str) (supersessions : List AssertionSupersession)
    (known : Option (List Str)) : Prop :=
  (∃ ids ∈ known, assertionId ∉ ids) ∨
    (∃ a b c, ReflTransGen (Supersedes supersessions) assertionId a ∧ Supersedes supersessions a b ∧
      Supersedes supersessions a c ∧ b ≠ c) ∨
    EntersCycle supersessions assertionId

/-- An assertion without a link is refused for the branch of another. -/
theorem branch_elsewhere_refused :
    currentAssertionId (ofChars ['a']) branches none = .error (.branch (ofChars ['b'])) ∧
      ¬RefusedOnPath (ofChars ['a']) branches none := by
  have hprior : ∀ {a b : Str}, Supersedes branches a b → a = ofChars ['b'] := by
    rintro a b ⟨s, hs, rfl, -⟩
    simp only [branches, List.mem_cons, List.not_mem_nil, or_false] at hs
    rcases hs with rfl | rfl
    · rfl
    · rfl
  have hstart : ∀ b, ¬Supersedes branches (ofChars ['a']) b := by
    intro b hb
    exact absurd (hprior hb) (by decide)
  refine ⟨rfl, ?_⟩
  rintro (⟨ids, hids, -⟩ | ⟨a, b, c, ha, hb, -⟩ | ⟨a, ha, hcycle⟩)
  · cases hids
  · obtain rfl := eq_of_unsuperseded ha hstart
    exact hstart b hb
  · obtain rfl := eq_of_unsuperseded ha hstart
    obtain ⟨b, hb, -⟩ := TransGen.head'_iff.1 hcycle
    exact hstart b hb

end OmniviaCore.SemanticRegistry
