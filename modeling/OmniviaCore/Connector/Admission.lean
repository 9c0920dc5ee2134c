import OmniviaCore.Lib.Firsts
import OmniviaCore.Connector.CursorChains

/-!
# What admission keeps

The collapse of duplicates keeps the first observation of each identity and checksum, whatever its deletion
signal, and an unauthorised absence claims its key before it is withheld. So a collapsed observation may
have been the only one to delete its identity, or the last one to bring it back. The admitted observations
leave every source state as all of them do exactly when, for each identity, the last change that is no
duplicate does what the last change does.
-/

namespace OmniviaCore.Connector

open Lib

variable {sha256 : Bytes → Bytes}

/-! ## Effects on a source state -/

/-- What an observation says of its identity. -/
inductive Effect where
  | upsert (sourceNativeId : String) (contentChecksum : Option String)
  | delete (sourceNativeId : String)
  | absent (sourceNativeId : String)

def Observation.effect (observation : Observation) : Effect :=
  match observation.deletionSignal with
  | .none => .upsert observation.sourceNativeId observation.contentChecksum
  | .explicitDelete => .delete observation.sourceNativeId
  | .absentFromWindow => .absent observation.sourceNativeId

/-- The identities of a source that are present, with their checksums. -/
abbrev SourceState := String → Option (Option String)

def Effect.apply (state : SourceState) : Effect → SourceState
  | .upsert id checksum => Function.update state id (some checksum)
  | .delete id => Function.update state id none
  | .absent _ => state

/-- The effect changes the identity. -/
def Effect.changes (id : String) : Effect → Bool
  | .upsert id' _ => id' == id
  | .delete id' => id' == id
  | .absent _ => false

/-- What a change leaves of its identity. -/
def Effect.leaves : Effect → Option (Option String)
  | .upsert _ checksum => some checksum
  | .delete _ => none
  | .absent _ => none

/-- The last change of an identity. -/
def lastChange (id : String) (effects : List Effect) : Option Effect :=
  (effects.filter (Effect.changes id)).getLast?

theorem Effect.apply_of_changes {id : String} {effect : Effect} (h : effect.changes id = true)
    (state : SourceState) : effect.apply state id = effect.leaves := by
  cases effect with
  | upsert id' checksum =>
    obtain rfl : id' = id := by simpa [Effect.changes] using h
    simp [Effect.apply, Effect.leaves]
  | delete id' =>
    obtain rfl : id' = id := by simpa [Effect.changes] using h
    simp [Effect.apply, Effect.leaves]
  | absent id' => cases h

theorem Effect.apply_of_not_changes {id : String} {effect : Effect} (h : effect.changes id = false)
    (state : SourceState) : effect.apply state id = state id := by
  cases effect with
  | upsert id' checksum =>
    have hne : id ≠ id' := fun heq => by simp [Effect.changes, heq] at h
    exact Function.update_of_ne hne _ _
  | delete id' =>
    have hne : id ≠ id' := fun heq => by simp [Effect.changes, heq] at h
    exact Function.update_of_ne hne _ _
  | absent id' => rfl

/-- Only the last change of an identity tells in the state after a run of effects. -/
theorem foldl_apply (effects : List Effect) (state : SourceState) (id : String) :
    effects.foldl Effect.apply state id =
      match lastChange id effects with
      | some effect => effect.leaves
      | none => state id := by
  induction effects using List.reverseRecOn with
  | nil => rfl
  | append_singleton effects effect ih =>
    rw [List.foldl_append, List.foldl_cons, List.foldl_nil]
    by_cases h : effect.changes id = true
    · rw [Effect.apply_of_changes h]
      simp [lastChange, List.filter_append, h]
    · rw [Bool.not_eq_true] at h
      rw [Effect.apply_of_not_changes h, ih]
      simp [lastChange, List.filter_append, h]

theorem changes_of_lastChange {id : String} {effects : List Effect} {effect : Effect}
    (h : lastChange id effects = some effect) : effect.changes id = true :=
  (List.mem_filter.mp (List.mem_of_getLast? h)).2

/-- Two changes of one identity that leave it alike are one effect. -/
theorem Effect.eq_of_leaves {id : String} {effect effect' : Effect} (h : effect.changes id = true)
    (h' : effect'.changes id = true) (heq : effect.leaves = effect'.leaves) : effect = effect' := by
  cases effect <;> cases effect' <;> simp_all [Effect.changes, Effect.leaves]

/-- Two runs of effects take every state to one state when their last changes agree, and only then. -/
theorem foldl_apply_eq_iff {effects effects' : List Effect} :
    (∀ state, effects.foldl Effect.apply state = effects'.foldl Effect.apply state) ↔
      ∀ id, lastChange id effects = lastChange id effects' := by
  constructor
  · intro h id
    have hat : ∀ state : SourceState, (match lastChange id effects with
        | some effect => effect.leaves
        | none => state id) = match lastChange id effects' with
        | some effect => effect.leaves
        | none => state id := by
      intro state
      rw [← foldl_apply, ← foldl_apply, h state]
    cases hlast : lastChange id effects with
    | none =>
      cases hlast' : lastChange id effects' with
      | none => rfl
      | some effect' =>
        -- a state in which the identity is not what the change leaves
        rw [hlast, hlast'] at hat
        cases hleaves : effect'.leaves with
        | none =>
          have hstate := hat fun _ => some none
          simp [hleaves] at hstate
        | some checksum =>
          have hstate := hat fun _ => none
          simp [hleaves] at hstate
    | some effect =>
      cases hlast' : lastChange id effects' with
      | none =>
        rw [hlast, hlast'] at hat
        cases hleaves : effect.leaves with
        | none =>
          have hstate := hat fun _ => some none
          simp [hleaves] at hstate
        | some checksum =>
          have hstate := hat fun _ => none
          simp [hleaves] at hstate
      | some effect' =>
        rw [hlast, hlast'] at hat
        have hleaves := hat fun _ => none
        rw [Effect.eq_of_leaves (changes_of_lastChange hlast) (changes_of_lastChange hlast') hleaves]
  · intro h state
    funext id
    rw [foldl_apply, foldl_apply, h id]

/-! ## The admitted observations -/

/-- An observation over the metadata ceiling. -/
def isOver (ctx : PollContext) (observation : Observation) : Bool :=
  decide (ctx.maxItemMetadataBytes < observation.metadataBytes)

/-- An absence that is not authorised. -/
def isWithheld (reconciliationAuthorized : Bool) (observation : Observation) : Bool :=
  decide (observation.deletionSignal = .absentFromWindow ∧ reconciliationAuthorized = false)

/-- The key duplicates are collapsed by. -/
def collapseKey (observation : Observation) : String × Option String :=
  (observation.sourceNativeId, observation.contentChecksum)

/-- The failure reported of an observation over the ceiling. -/
def oversizedFailure (observation : Observation) : ItemFailure :=
  ⟨observation.sourceNativeId, ERROR_CODE_SIZE_LIMIT_EXCEEDED, "item metadata exceeds the declared ceiling"⟩

/-- The observations of acceptable size. -/
def acceptable (ctx : PollContext) (observations : List Observation) : List Observation :=
  observations.filter fun observation => !isOver ctx observation

/-- Those of them that are the first of their key. -/
def unrepeated (ctx : PollContext) (observations : List Observation) : List Observation :=
  firstsBy collapseKey [] (acceptable ctx observations)

/-- Those that are no absence without authorization. -/
def reported (reconciliationAuthorized : Bool) (observations : List Observation) : List Observation :=
  observations.filter fun observation => !isWithheld reconciliationAuthorized observation

variable {ctx : PollContext} {authorized : Bool}

theorem admitObservations_eq (seen : List (String × Option String)) (observations : List Observation) :
    admitObservations ctx authorized seen observations =
      (reported authorized (firstsBy collapseKey seen (acceptable ctx observations)),
        (observations.filter (isOver ctx)).map oversizedFailure) := by
  induction observations generalizing seen with
  | nil => rfl
  | cons o rest ih =>
    simp only [admitObservations]
    by_cases hover : ctx.maxItemMetadataBytes < o.metadataBytes
    · have hisOver : isOver ctx o = true := by simpa [isOver] using hover
      simp only [if_pos hover, ih, acceptable, hisOver, List.filter_cons, Bool.not_true,
        Bool.false_eq_true, if_false, if_true, List.map_cons]
      rfl
    · have hisOver : isOver ctx o = false := by simpa [isOver] using hover
      have hrest : acceptable ctx (o :: rest) = o :: acceptable ctx rest := by
        simp [acceptable, hisOver]
      have hfailures : (o :: rest).filter (isOver ctx) = rest.filter (isOver ctx) := by
        simp [hisOver]
      rw [if_neg hover, hrest, hfailures]
      by_cases hseen : collapseKey o ∈ seen
      · rw [firstsBy_cons_seen hseen, ← ih]
        exact if_pos hseen
      · have hnew : (o.sourceNativeId, o.contentChecksum) ∉ seen := hseen
        rw [if_neg hnew, firstsBy_cons_new hseen]
        by_cases hwithheld : o.deletionSignal = .absentFromWindow ∧ authorized = false
        · have hisWithheld : isWithheld authorized o = true := by simpa [isWithheld] using hwithheld
          rw [if_pos hwithheld, ih]
          simp [reported, hisWithheld, collapseKey]
        · have hisWithheld : isWithheld authorized o = false := by simpa [isWithheld] using hwithheld
          rw [if_neg hwithheld, ih]
          simp [reported, hisWithheld, collapseKey]

/-! ## Verdicts -/

/-- What a batch is admitted with. -/
def admittedOf (ctx : PollContext) (authorized : Bool) (batch : Batch) : List Observation :=
  reported authorized (unrepeated ctx batch.observations)

def failuresOf (ctx : PollContext) (batch : Batch) : List ItemFailure :=
  batch.itemFailures ++ (batch.observations.filter (isOver ctx)).map oversizedFailure

/-- The bytes the host compares with the resolved material. -/
def authoredOf (ctx : PollContext) (batch : Batch) : List Bytes :=
  batch.successorCursor.payload ::
    (batch.observations.map fun item => encodeText item.sourceLocator) ++
      (failuresOf ctx batch).map fun item => encodeText item.detail

def bytesOf (observations : List Observation) : Nat := (observations.map Observation.metadataBytes).sum

variable {batch : Batch} {record : CursorRecord} {descriptor : ConnectorDescriptor}
  {nowUs runBytesSpent : Nat} {resolved : List Bytes} {labels : Option (List String)}
  {verdict : BatchVerdict}

/-- An admitted batch passed every check, and this is its verdict. -/
structure Admits (sha256 : Bytes → Bytes) (batch : Batch) (ctx : PollContext) (record : CursorRecord)
    (descriptor : ConnectorDescriptor) (nowUs runBytesSpent : Nat) (resolved : List Bytes)
    (labels : Option (List String)) (authorized : Bool) (verdict : BatchVerdict) : Prop where
  in_time : nowUs ≤ ctx.expiresAtUs
  few : batch.observations.length ≤ ctx.maxBatchItems
  valid : ∀ o ∈ batch.observations, validateObservation sha256 labels o = .ok ()
  small : runBytesSpent + bytesOf (admittedOf ctx authorized batch) ≤ ctx.maxRunBytes
  clean : ∀ candidate ∈ authoredOf ctx batch, containsKnownMaterial candidate resolved = false
  follows : validateSuccessor sha256 record batch.successorCursor (contextBinding ctx descriptor) =
    .ok verdict.parentDigest
  outcome_eq : verdict.outcome = batchOutcome descriptor record batch.successorCursor
    (admittedOf ctx authorized batch) (failuresOf ctx batch)
  observations_eq : verdict.observations = admittedOf ctx authorized batch
  itemFailures_eq : verdict.itemFailures = failuresOf ctx batch
  successor_eq : verdict.successor = ⟨contextBinding ctx descriptor, batch.successorCursor⟩
  runBytesAfter_eq : verdict.runBytesAfter = runBytesSpent + bytesOf (admittedOf ctx authorized batch)

/-- Without a change nothing was admitted and nothing failed. -/
theorem of_batchOutcome_no_change {successor : CursorState} {admitted : List Observation}
    {failures : List ItemFailure}
    (h : batchOutcome descriptor record successor admitted failures = "no_change") :
    admitted = [] ∧ failures = [] := by
  unfold batchOutcome at h
  split at h
  · exact absurd h (by decide)
  · split at h
    · next hnone => exact ⟨hnone.1, hnone.2.1⟩
    · split at h <;> exact absurd h (by decide)

theorem if_no_change {α : Type} {outcome : String} {list : List α}
    (h : outcome = "no_change" → list = []) : (if outcome = "no_change" then [] else list) = list := by
  split
  · next heq => rw [h heq]
  · rfl

theorem validateBatch_eq_ok_iff :
    validateBatch sha256 batch ctx record descriptor nowUs runBytesSpent resolved labels authorized =
        .ok verdict ↔
      Admits sha256 batch ctx record descriptor nowUs runBytesSpent resolved labels authorized
        verdict := by
  simp only [validateBatch, admitObservations_eq, bind_eq_ok, require_eq_ok, exists_unit, forM_eq_ok,
    pure_eq_ok]
  constructor
  · rintro ⟨htime, hfew, hvalid, hsmall, hclean, parentDigest, hfollows, rfl⟩
    exact ⟨htime, hfew, hvalid, hsmall, hclean, hfollows, rfl,
      if_no_change fun h => (of_batchOutcome_no_change h).1,
      if_no_change fun h => (of_batchOutcome_no_change h).2, rfl, rfl⟩
  · rintro ⟨htime, hfew, hvalid, hsmall, hclean, hfollows, houtcome, hobservations, hfailures, hsuccessor,
      hbytes⟩
    refine ⟨htime, hfew, hvalid, hsmall, hclean, verdict.parentDigest, hfollows, ?_⟩
    obtain ⟨outcome, observations, itemFailures, successor, parentDigest, runBytesAfter⟩ := verdict
    simp only at houtcome hobservations hfailures hsuccessor hbytes
    subst houtcome hobservations hfailures hsuccessor hbytes
    congr 1
    · exact if_no_change fun h => (of_batchOutcome_no_change h).1
    · exact if_no_change fun h => (of_batchOutcome_no_change h).2

/-! ## Nothing is lost -/

/-- What a verdict owes to its batch. -/
structure Lossless (sha256 : Bytes → Bytes) (batch : Batch) (ctx : PollContext) (record : CursorRecord)
    (descriptor : ConnectorDescriptor) (nowUs runBytesSpent : Nat) (resolved : List Bytes)
    (labels : Option (List String)) (authorized : Bool) (verdict : BatchVerdict) : Prop where
  /-- Every observation is admitted, reported as a failure, withheld, or said already. -/
  accounted : ∀ before o after, batch.observations = before ++ o :: after →
    o ∈ verdict.observations ∨ (isOver ctx o = true ∧ oversizedFailure o ∈ verdict.itemFailures) ∨
      isWithheld authorized o = true ∨
      ∃ a ∈ before, a ∈ verdict.observations ∧ a.effect = o.effect
  /-- The admitted observations do to a source what all of them do. -/
  same_state : ∀ state : SourceState,
    (verdict.observations.map Observation.effect).foldl Effect.apply state =
      ((reported authorized (acceptable ctx batch.observations)).map Observation.effect).foldl
        Effect.apply state
  bytes_eq : verdict.runBytesAfter = runBytesSpent + bytesOf verdict.observations
  bytes_le : verdict.runBytesAfter ≤ ctx.maxRunBytes
  few : verdict.observations.length ≤ ctx.maxBatchItems
  /-- Leaving out a collapsed duplicate changes nothing. -/
  collapsed : ∀ before o after, batch.observations = before ++ o :: after → isOver ctx o = false →
    collapseKey o ∈ (acceptable ctx before).map collapseKey →
    validateBatch sha256 { batch with observations := before ++ after } ctx record descriptor nowUs
      runBytesSpent resolved labels authorized = .ok verdict

/-- The condition: an observation that repeats a key, and is no unauthorised absence, says what an earlier
unrepeated one said; and the last change of each identity is said by an unrepeated one. -/
structure Redundant (ctx : PollContext) (authorized : Bool) (observations : List Observation) : Prop where
  repeats : ∀ before o after, observations = before ++ o :: after → isOver ctx o = false →
    isWithheld authorized o = false → collapseKey o ∈ (acceptable ctx before).map collapseKey →
    ∃ a ∈ reported authorized (unrepeated ctx before), a.effect = o.effect
  last_change : ∀ id,
    lastChange id ((reported authorized (unrepeated ctx observations)).map Observation.effect) =
      lastChange id ((reported authorized (acceptable ctx observations)).map Observation.effect)

theorem acceptable_append (before after : List Observation) :
    acceptable ctx (before ++ after) = acceptable ctx before ++ acceptable ctx after :=
  List.filter_append _ _

theorem acceptable_cons {o : Observation} (h : isOver ctx o = false) (rest : List Observation) :
    acceptable ctx (o :: rest) = o :: acceptable ctx rest := by
  simp [acceptable, h]

/-- A collapsed duplicate is no part of what is unrepeated. -/
theorem unrepeated_of_repeat {before after : List Observation} {o : Observation}
    (hsize : isOver ctx o = false) (hkey : collapseKey o ∈ (acceptable ctx before).map collapseKey) :
    unrepeated ctx (before ++ o :: after) = unrepeated ctx (before ++ after) := by
  simp only [unrepeated, acceptable_append, acceptable_cons hsize]
  exact firstsBy_append_of_seen hkey

theorem admits_without_repeat {before after : List Observation} {o : Observation}
    (h : Admits sha256 batch ctx record descriptor nowUs runBytesSpent resolved labels authorized verdict)
    (heq : batch.observations = before ++ o :: after) (hsize : isOver ctx o = false)
    (hkey : collapseKey o ∈ (acceptable ctx before).map collapseKey) :
    Admits sha256 { batch with observations := before ++ after } ctx record descriptor nowUs
      runBytesSpent resolved labels authorized verdict := by
  have hadmitted : admittedOf ctx authorized { batch with observations := before ++ after } =
      admittedOf ctx authorized batch := by
    simp only [admittedOf, heq, unrepeated_of_repeat hsize hkey]
  have hfailures : failuresOf ctx { batch with observations := before ++ after } =
      failuresOf ctx batch := by
    simp [failuresOf, heq, List.filter_append, hsize]
  have hsub : ∀ a ∈ before ++ after, a ∈ batch.observations := by
    intro a ha
    rw [heq]
    rcases List.mem_append.mp ha with ha | ha
    · exact List.mem_append_left _ ha
    · exact List.mem_append_right _ (List.mem_cons_of_mem _ ha)
  refine ⟨h.in_time, ?_, fun a ha => h.valid a (hsub a ha), ?_, ?_, h.follows, ?_, ?_, ?_,
    h.successor_eq, ?_⟩
  · have hfew := h.few
    rw [heq] at hfew
    simp only [List.length_append, List.length_cons] at hfew ⊢
    omega
  · rw [hadmitted]
    exact h.small
  · intro candidate hcandidate
    refine h.clean candidate ?_
    simp only [authoredOf, hfailures, List.mem_append, List.mem_cons, List.mem_map] at hcandidate ⊢
    rcases hcandidate with (hpayload | ⟨a, ha, rfl⟩) | hdetail
    · exact Or.inl (Or.inl hpayload)
    · exact Or.inl (Or.inr ⟨a, hsub a (List.mem_append.mpr ha), rfl⟩)
    · exact Or.inr hdetail
  · rw [hadmitted, hfailures]
    exact h.outcome_eq
  · rw [hadmitted]
    exact h.observations_eq
  · rw [hfailures]
    exact h.itemFailures_eq
  · rw [hadmitted]
    exact h.runBytesAfter_eq

theorem mem_acceptable {o : Observation} {observations : List Observation} :
    o ∈ acceptable ctx observations ↔ o ∈ observations ∧ isOver ctx o = false := by
  simp [acceptable, List.mem_filter]

theorem mem_reported {o : Observation} {observations : List Observation} :
    o ∈ reported authorized observations ↔
      o ∈ observations ∧ isWithheld authorized o = false := by
  simp [reported, List.mem_filter]

theorem mem_of_mem_unrepeated {o : Observation} {observations : List Observation}
    (h : o ∈ unrepeated ctx observations) : o ∈ acceptable ctx observations :=
  (firstsBy_sublist _).subset h

/-- Every observation is accounted for exactly when every repeat says what was said. -/
theorem accounted_iff
    (h : Admits sha256 batch ctx record descriptor nowUs runBytesSpent resolved labels authorized
      verdict) {before after : List Observation} {o : Observation}
    (heq : batch.observations = before ++ o :: after) :
    (o ∈ verdict.observations ∨ (isOver ctx o = true ∧ oversizedFailure o ∈ verdict.itemFailures) ∨
      isWithheld authorized o = true ∨
      ∃ a ∈ before, a ∈ verdict.observations ∧ a.effect = o.effect) ↔
    (isOver ctx o = false → isWithheld authorized o = false →
      collapseKey o ∈ (acceptable ctx before).map collapseKey →
      ∃ a ∈ reported authorized (unrepeated ctx before), a.effect = o.effect) := by
  rw [h.observations_eq, h.itemFailures_eq]
  constructor
  · intro haccounted hsize hreported hkey
    rcases haccounted with hmem | ⟨hover, -⟩ | hwithheld | ⟨a, hbefore, hmem, heffect⟩
    · refine ⟨o, mem_reported.mpr ⟨?_, hreported⟩, rfl⟩
      have hfirst := (mem_reported.mp hmem).1
      rw [heq, unrepeated, acceptable_append] at hfirst
      exact mem_firstsBy_left hkey hfirst
    · rw [hsize] at hover
      cases hover
    · rw [hreported] at hwithheld
      cases hwithheld
    · obtain ⟨hfirst, hareported⟩ := mem_reported.mp hmem
      refine ⟨a, mem_reported.mpr ⟨?_, hareported⟩, heffect⟩
      have hasize := (mem_acceptable.mp (mem_of_mem_unrepeated hfirst)).2
      have hakey : collapseKey a ∈ (acceptable ctx before).map collapseKey :=
        List.mem_map.mpr ⟨a, mem_acceptable.mpr ⟨hbefore, hasize⟩, rfl⟩
      rw [heq, unrepeated, acceptable_append] at hfirst
      exact mem_firstsBy_left hakey hfirst
  · intro hrepeats
    by_cases hsize : isOver ctx o = true
    · refine Or.inr (Or.inl ⟨hsize, List.mem_append_right _ (List.mem_map.mpr ⟨o, ?_, rfl⟩)⟩)
      rw [heq]
      exact List.mem_filter.mpr ⟨List.mem_append_right _ List.mem_cons_self, hsize⟩
    rw [Bool.not_eq_true] at hsize
    by_cases hreported : isWithheld authorized o = true
    · exact Or.inr (Or.inr (Or.inl hreported))
    rw [Bool.not_eq_true] at hreported
    by_cases hkey : collapseKey o ∈ (acceptable ctx before).map collapseKey
    · obtain ⟨a, ha, heffect⟩ := hrepeats hsize hreported hkey
      obtain ⟨hfirst, hareported⟩ := mem_reported.mp ha
      have hbefore := (mem_acceptable.mp (mem_of_mem_unrepeated hfirst)).1
      refine Or.inr (Or.inr (Or.inr ⟨a, hbefore, mem_reported.mpr ⟨?_, hareported⟩, heffect⟩))
      rw [heq, unrepeated, acceptable_append]
      exact mem_firstsBy_append hfirst
    · refine Or.inl (mem_reported.mpr ⟨?_, hreported⟩)
      rw [heq, unrepeated, acceptable_append, acceptable_cons hsize]
      exact mem_firstsBy_of_new (by simpa using hkey)

/-- A batch that is admitted loses no effect exactly when its repeats are redundant. -/
theorem admitted_batch_lossless_iff
    (hadmitted : validateBatch sha256 batch ctx record descriptor nowUs runBytesSpent resolved labels
      authorized = .ok verdict) :
    Lossless sha256 batch ctx record descriptor nowUs runBytesSpent resolved labels authorized verdict ↔
      Redundant ctx authorized batch.observations := by
  have h := validateBatch_eq_ok_iff.mp hadmitted
  constructor
  · intro hlossless
    refine ⟨fun before o after heq => (accounted_iff h heq).mp (hlossless.accounted before o after heq), ?_⟩
    refine foldl_apply_eq_iff.mp fun state => ?_
    have hstate := hlossless.same_state state
    rwa [h.observations_eq] at hstate
  · intro hredundant
    refine ⟨fun before o after heq => (accounted_iff h heq).mpr (hredundant.repeats before o after heq),
      ?_, ?_, ?_, ?_, ?_⟩
    · rw [h.observations_eq]
      exact foldl_apply_eq_iff.mpr hredundant.last_change
    · rw [h.runBytesAfter_eq, h.observations_eq]
    · rw [h.runBytesAfter_eq]
      exact h.small
    · rw [h.observations_eq]
      have hlength : (admittedOf ctx authorized batch).length ≤ batch.observations.length :=
        ((List.filter_sublist.trans (firstsBy_sublist _)).trans List.filter_sublist).length_le
      exact hlength.trans h.few
    · intro before o after heq hsize hkey
      exact validateBatch_eq_ok_iff.mpr (admits_without_repeat h heq hsize hkey)

/-! ### Two polls -/

theorem isAsciiIdentifier_home : isAsciiIdentifier "home" = true := by decide

theorem isAsciiIdentifier_files : isAsciiIdentifier "files" = true := by decide

def filesContext : PollContext := ⟨"home", 10, 100, 1000, 5, isAsciiIdentifier_home⟩

def filesDescriptor : ConnectorDescriptor := ⟨"files", .sourceNative, isAsciiIdentifier_files⟩

/-- A report of one identity, without a checksum. -/
def reportOf (signal : DeletionSignal) : Observation :=
  ⟨"a", "a.txt", 1, none, none, none, [], signal, "", none⟩

/-- An identity that is reported twice is admitted once, and nothing is lost. -/
theorem admitted_batch_lossless_twice :
    ∃ verdict, validateBatch pollDigest ⟨[reportOf .none, reportOf .none], polledState, []⟩ filesContext
        genesisRecord filesDescriptor 0 0 [] none false = .ok verdict ∧
      (Lossless pollDigest ⟨[reportOf .none, reportOf .none], polledState, []⟩ filesContext genesisRecord
        filesDescriptor 0 0 [] none false verdict ↔
        Redundant filesContext false [reportOf .none, reportOf .none]) := by
  have hadmitted : (validateBatch pollDigest ⟨[reportOf .none, reportOf .none], polledState, []⟩
    filesContext genesisRecord filesDescriptor 0 0 [] none false).isOk = true := by decide +kernel
  obtain ⟨verdict, h⟩ := exists_ok_of_isOk hadmitted
  exact ⟨verdict, h, admitted_batch_lossless_iff h⟩

/-- The deletion of an identity that was reported without a checksum is collapsed as its duplicate. -/
theorem deletion_collapsed :
    ∃ verdict, validateBatch pollDigest
        ⟨[reportOf .none, reportOf .explicitDelete], polledState, []⟩ filesContext genesisRecord
        filesDescriptor 0 0 [] none false = .ok verdict ∧
      ¬ Lossless pollDigest ⟨[reportOf .none, reportOf .explicitDelete], polledState, []⟩ filesContext
        genesisRecord filesDescriptor 0 0 [] none false verdict := by
  have hadmitted : (validateBatch pollDigest
    ⟨[reportOf .none, reportOf .explicitDelete], polledState, []⟩ filesContext genesisRecord
    filesDescriptor 0 0 [] none false).isOk = true := by decide +kernel
  obtain ⟨verdict, h⟩ := exists_ok_of_isOk hadmitted
  refine ⟨verdict, h, fun hlossless => ?_⟩
  have hobservations := (validateBatch_eq_ok_iff.mp h).observations_eq
  have hstate := congrFun (hlossless.same_state fun _ => none) "a"
  rw [hobservations] at hstate
  exact absurd hstate (by decide +kernel)

end OmniviaCore.Connector
