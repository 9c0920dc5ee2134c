import OmniviaCore.Engineering.Invalidation

/-!
# What the steps of the worker do

A step of the worker either leaves the store as it was or is one page of one event: new rows for the
keys of the page, and the stream moved to where the page ends (`Advanced`). Every other writer leaves
the worker's rows alone (`Beside`).
-/

namespace OmniviaCore.Engineering

open Lib

def Assessment.subject (row : Assessment) : DependentKey × String := (row.key, row.targetSnapshotId)

namespace EngineeringStore

variable (store : EngineeringStore)

/-- The dependents the worker has assessed, each with the snapshot it was assessed for. -/
def assessed : List (DependentKey × String) :=
  (store.assessments.filter fun row => row.basis = .deterministic).map Assessment.subject

/-- How often the worker has assessed a dependent for a snapshot. -/
def timesAssessed (key : DependentKey) (snapshotId : String) : Nat :=
  store.assessed.count (key, snapshotId)

/-- The manifest an event is compared with. -/
def predecessorManifest (streamId : String) (sequence : Nat) : Option Manifest :=
  if sequence = 1 then some [] else (store.event streamId (sequence - 1)).map (·.manifest)

/-- A record version depends on an event of a stream: its sealed set, of the stream and its repository,
names a whole file whose digest the event changed. -/
def DependsOn (streamId : String) (e : SourceEvent) (key : DependentKey) : Prop :=
  ∃ stream previous set dependency, store.streams streamId = some stream ∧
    store.predecessorManifest streamId e.sequence = some previous ∧ set ∈ store.dependencySets ∧
    set.key = key ∧ set.repositoryId = stream.repositoryId ∧ set.streamId = streamId ∧
    dependency ∈ set.dependencies ∧ dependency.selectorType = .whole_file ∧
    previous.lookup dependency.selector ≠ e.manifest.lookup dependency.selector

end EngineeringStore

/-! ## Reads -/

variable {contentDigest : Manifest → String} {capturedDigest : CapturedSourceCommit → SnapshotCapture → String}
  {store store' : EngineeringStore} {streamId : String}

theorem mem_of_event {n : Nat} {e : SourceEvent} (h : store.event streamId n = some e) :
    e ∈ store.events ∧ e.streamId = streamId ∧ e.sequence = n := by
  have hkey := List.find?_some h
  simp only [decide_eq_true_eq] at hkey
  exact ⟨List.mem_of_find?_eq_some h, hkey⟩

theorem event_of_append {n : Nat} {e : SourceEvent} {added : List SourceEvent}
    (hevents : store'.events = store.events ++ added) (h : store.event streamId n = some e) :
    store'.event streamId n = some e := by
  unfold EngineeringStore.event at h ⊢
  rw [hevents, List.find?_append, h]
  rfl

theorem event_of_sequencedEvent {n : Nat} {e : SourceEvent}
    (h : sequencedEvent contentDigest store streamId n = some e) : store.event streamId n = some e := by
  unfold sequencedEvent at h
  cases hevent : store.event streamId n with
  | none => rw [hevent] at h; cases h
  | some found =>
    rw [hevent, Option.bind_eq_bind, Option.bind_some, Option.bind_eq_bind,
      Option.bind_eq_some_iff] at h
    obtain ⟨_, -, h⟩ := h
    split at h
    · exact h
    · cases h

theorem mem_changedPaths {previous : Option Manifest} {current : Manifest} {path : String}
    (h : (previous.getD []).lookup path ≠ current.lookup path) : path ∈ changedPaths previous current := by
  have hkeys : ∀ manifest : Manifest, manifest.lookup path ≠ none → path ∈ manifest.map Prod.fst := by
    intro manifest hlookup
    by_contra hpath
    refine hlookup (List.lookup_eq_none_iff.2 fun entry hentry => ?_)
    rw [bne_iff_ne]
    rintro rfl
    exact hpath (List.mem_map_of_mem hentry)
  cases previous with
  | none => exact hkeys current (Ne.symm h)
  | some previous =>
    refine List.mem_filter.2 ⟨?_, decide_eq_true h⟩
    rw [List.map_append, List.mem_append]
    by_cases hprevious : previous.lookup path = none
    · rw [Option.getD_some, hprevious] at h
      exact .inr (hkeys current (Ne.symm h))
    · exact .inl (hkeys previous hprevious)

/-- What a step reads of its target: the event of the next sequence, and every path it changed. -/
theorem targetEvent_ok {n : Nat} {current : SourceEvent} {changed : List String}
    (h : targetEvent contentDigest store streamId n = .ok (current, changed)) :
    store.event streamId n = some current ∧
      ∃ previous, store.predecessorManifest streamId n = some previous ∧
        ∀ path, previous.lookup path ≠ current.manifest.lookup path → path ∈ changed := by
  unfold targetEvent at h
  split at h
  · cases h
  next e he =>
  simp only [bind_eq_ok, pure_eq_ok, Prod.mk.injEq] at h
  obtain ⟨previous, hprevious, rfl, rfl⟩ := h
  refine ⟨event_of_sequencedEvent he, previous.getD [], ?_, fun path => mem_changedPaths⟩
  unfold previousManifest at hprevious
  unfold EngineeringStore.predecessorManifest
  split at hprevious
  next hone =>
    cases hprevious
    rw [if_pos hone]
    rfl
  next hone =>
    rw [if_neg hone]
    split at hprevious
    · cases hprevious
    next found hfound =>
      cases hprevious
      rw [event_of_sequencedEvent hfound]
      rfl

/-- A page of an event holds the dependents of the event that are in its reach. -/
theorem mem_affectedDependents {stream : SourceStream} {current : SourceEvent} {changed : List String}
    {limit : Int} {after : Option DependentKey} {key : DependentKey}
    (hstream : store.streams streamId = some stream)
    (htarget : targetEvent contentDigest store streamId current.sequence = .ok (current, changed))
    (hkey : store.DependsOn streamId current key) :
    key ∈ affectedKeys store stream.repositoryId streamId changed ∧
      affectedDependents store stream.repositoryId streamId changed limit after =
        page (affectedKeys store stream.repositoryId streamId changed) limit after := by
  obtain ⟨-, previous', hprevious', hchanged⟩ := targetEvent_ok htarget
  obtain ⟨stream', previous, set, dependency, hstream', hprevious, hset, rfl, hrepository, hid,
    hdependency, htype, hlookup⟩ := hkey
  rw [hstream] at hstream'
  cases hstream'
  rw [hprevious] at hprevious'
  cases hprevious'
  have hpath := hchanged _ hlookup
  refine ⟨List.mem_map_of_mem (List.mem_filter.2 ⟨hset, ?_⟩), if_neg (List.ne_nil_of_mem hpath)⟩
  rw [decide_eq_true_eq]
  refine ⟨List.any_eq_true.2 ⟨dependency, hdependency, ?_⟩, hrepository, hid⟩
  rw [decide_eq_true_eq]
  exact ⟨htype, hpath⟩

theorem affectedDependents_page {repositoryId : String} {paths : List String} {limit : Int}
    {after : Option DependentKey} :
    (affectedDependents store repositoryId streamId paths limit after).Nodup ∧
      (∀ key ∈ affectedDependents store repositoryId streamId paths limit after, PastCursor after key) ∧
      ∀ last, (affectedDependents store repositoryId streamId paths limit after).getLast? = some last →
        ∀ key ∈ affectedDependents store repositoryId streamId paths limit after, key ≤ last := by
  unfold affectedDependents
  split
  · refine ⟨List.nodup_nil, fun key h => ?_, fun last _ key h => ?_⟩ <;> cases h
  · exact ⟨nodup_page, fun key h => (mem_of_mem_page h).2, fun last hlast key =>
      le_getLast_of_mem_page hlast⟩

/-! ## One step of the worker -/

/-- One page of one event. -/
structure Advanced (contentDigest : Manifest → String) (store : EngineeringStore) (streamId : String)
    (store' : EngineeringStore) where
  stream : SourceStream
  current : SourceEvent
  changed : List String
  batchLimit : Int
  rows : List Assessment
  processed : Nat
  after : Option DependentKey
  updatedAtUs : Int
  row : store.streams streamId = some stream
  behind : stream.processedSequence < stream.coveredSequence
  target : targetEvent contentDigest store streamId (stream.processedSequence + 1) =
    .ok (current, changed)
  progress : pageProgress stream.processedSequence (affectedDependents store stream.repositoryId
    streamId changed batchLimit stream.pendingDependent) batchLimit = .ok (processed, after)
  subjects : rows.map Assessment.subject = (affectedDependents store stream.repositoryId streamId changed
    batchLimit stream.pendingDependent).map fun key => (key, current.snapshotId)
  basis : ∀ row ∈ rows, row.basis = .deterministic
  written : store' = { store with
    assessments := store.assessments ++ rows
    streams := Function.update store.streams streamId (some { stream with
      processedSequence := processed
      pendingDependent := after
      updatedAtUs := updatedAtUs
      auditRef := current.auditRef }) }

theorem foldlM_recordAssessment {f : EngineeringStore → DependentKey → Assessment} {snapshotId : String}
    (hsubject : ∀ fenced key, (f fenced key).subject = (key, snapshotId))
    (hbasis : ∀ fenced key, (f fenced key).basis = .deterministic) {keys : List DependentKey}
    (h : keys.foldlM (fun fenced key => recordAssessment fenced (f fenced key)) store = .ok store') :
    ∃ rows : List Assessment, store' = { store with assessments := store.assessments ++ rows } ∧
      rows.map Assessment.subject = keys.map (fun key => (key, snapshotId)) ∧
      ∀ row ∈ rows, row.basis = .deterministic := by
  induction keys generalizing store with
  | nil =>
    rw [List.foldlM_nil, pure_eq_ok] at h
    subst h
    exact ⟨[], by simp, rfl, by simp⟩
  | cons key keys ih =>
    simp only [List.foldlM_cons, bind_eq_ok, recordAssessment, require_eq_ok, exists_unit,
      pure_eq_ok] at h
    obtain ⟨_, ⟨-, rfl⟩, h⟩ := h
    obtain ⟨rows, rfl, hsubjects, hrows⟩ := ih h
    refine ⟨f store key :: rows, by simp, ?_, ?_⟩
    · rw [List.map_cons, List.map_cons, hsubject, hsubjects]
    · intro row hrow
      rcases List.mem_cons.1 hrow with rfl | hrow
      · exact hbasis store key
      · exact hrows row hrow

/-- A step of the worker writes nothing, or advances the stream. -/
theorem advanceInvalidation_ok {batchLimit nowUs : Int} {evidenceAvailable : DependentKey → Bool}
    {progress : Option InvalidationProgress}
    (h : advanceInvalidation contentDigest store streamId batchLimit nowUs evidenceAvailable =
      .ok (store', progress)) :
    store' = store ∨ Nonempty (Advanced contentDigest store streamId store') := by
  unfold advanceInvalidation at h
  split at h
  · cases h
    exact .inl rfl
  next stream hstream =>
  split at h
  · cases h
    exact .inl rfl
  next hbehind =>
  right
  rw [except_map_eq_ok] at h
  obtain ⟨⟨_, written⟩, h, heq⟩ := h
  cases heq
  unfold advancePending at h
  simp only [bind_eq_ok, Prod.exists] at h
  obtain ⟨current, changed, htarget, h⟩ := h
  split at h
  · cases h
  unfold fanOut at h
  simp only [bind_eq_ok, pure_eq_ok, Prod.exists, Prod.mk.injEq] at h
  obtain ⟨assessed, hassessed, processed, after, hprogress, rfl, -⟩ := h
  obtain ⟨rows, rfl, hsubjects, hbasis⟩ :=
    foldlM_recordAssessment (fun _ _ => rfl) (fun _ _ => rfl) hassessed
  exact ⟨{
    stream, current, changed, batchLimit, rows, processed, after
    updatedAtUs := max nowUs stream.updatedAtUs
    row := hstream
    behind := Nat.lt_of_not_le hbehind
    target := htarget
    progress := hprogress
    subjects := hsubjects
    basis := hbasis
    written := rfl }⟩

/-! ## The other writers -/

/-- What a writer beside the worker may do: rows are added to the events and the dependency sets, and a
stream moves its coverage only. -/
structure Beside (store store' : EngineeringStore) : Prop where
  events : ∃ added, store'.events = store.events ++ added
  dependencySets : ∃ added, store'.dependencySets = store.dependencySets ++ added
  assessed : store'.assessed = store.assessed
  streams : ∀ {id stream}, store.streams id = some stream → ∃ stream', store'.streams id = some stream' ∧
    stream'.repositoryId = stream.repositoryId ∧ stream'.processedSequence = stream.processedSequence ∧
    stream'.pendingDependent = stream.pendingDependent ∧
    stream.coveredSequence ≤ stream'.coveredSequence

theorem Beside.refl : Beside store store where
  events := ⟨[], by simp⟩
  dependencySets := ⟨[], by simp⟩
  assessed := rfl
  streams h := ⟨_, h, rfl, rfl, rfl, le_rfl⟩

/-- A drain passes only sequences whose events are stored. -/
theorem advanceCoverageFrom_spec {window covered : Nat} {previous : Option String} :
    covered ≤ advanceCoverageFrom store streamId window covered previous ∧
      ∀ n, covered < n → n ≤ advanceCoverageFrom store streamId window covered previous →
        (store.event streamId n).isSome = true := by
  induction window generalizing covered previous with
  | zero => exact ⟨le_rfl, fun n hlt hle => absurd hlt (Nat.not_lt.2 hle)⟩
  | succ window ih =>
    unfold advanceCoverageFrom
    split
    · exact ⟨le_rfl, fun n hlt hle => absurd hlt (Nat.not_lt.2 hle)⟩
    next following hfollowing =>
    split
    · exact ⟨le_rfl, fun n hlt hle => absurd hlt (Nat.not_lt.2 hle)⟩
    · refine ⟨Nat.le_of_succ_le ih.1, fun n hlt hle => ?_⟩
      rcases Nat.lt_or_eq_of_le (Nat.succ_le_of_lt hlt) with h | rfl
      · exact ih.2 n h hle
      · rw [hfollowing]
        rfl

theorem advanceCoverage_spec {covered covered' : Nat}
    (h : advanceCoverage store streamId covered = .ok covered') : covered ≤ covered' ∧
      ∀ n, covered < n → n ≤ covered' → (store.event streamId n).isSome = true := by
  unfold advanceCoverage at h
  split at h
  next hzero =>
    cases h
    subst hzero
    exact advanceCoverageFrom_spec
  · split at h
    · cases h
    · cases h
      exact advanceCoverageFrom_spec

/-- One appended event: its stream announced and covered as far as the stored events reach. -/
structure Appended (store : EngineeringStore) (e : SourceEvent) (store' : EngineeringStore) where
  opened : SourceStream
  covered : Nat
  stream : ∀ {found}, store.streams e.streamId = some found → opened.repositoryId = found.repositoryId ∧
    opened.processedSequence = found.processedSequence ∧
    opened.pendingDependent = found.pendingDependent ∧ opened.coveredSequence = found.coveredSequence
  fresh : store.streams e.streamId = none → opened.processedSequence = 0 ∧ opened.coveredSequence = 0
  raised : opened.coveredSequence ≤ covered
  stored : ∀ n, opened.coveredSequence < n → n ≤ covered → (store'.event e.streamId n).isSome = true
  written : store' = { store with
    events := store.events ++ [e]
    streams := Function.update store.streams e.streamId (some { opened with coveredSequence := covered }) }

theorem appendEvent_ok {repositoryId principalId : String} {e : SourceEvent}
    (h : appendEvent store repositoryId principalId e = .ok store') :
    Nonempty (Appended store e store') := by
  unfold appendEvent at h
  simp only [bind_eq_ok, require_eq_ok, exists_unit, pure_eq_ok] at h
  obtain ⟨-, -, -, covered, hcovered, rfl⟩ := h
  obtain ⟨hraised, hstored⟩ := advanceCoverage_spec hcovered
  exact ⟨{
    opened := announced (store.streams e.streamId) repositoryId principalId e
    covered
    stream := by rintro found hfound; rw [hfound]; exact ⟨rfl, rfl, rfl, rfl⟩
    fresh := by intro hnone; rw [hnone]; exact ⟨rfl, rfl⟩
    raised := hraised
    stored := hstored
    written := rfl }⟩

theorem Appended.beside {e : SourceEvent} (h : Appended store e store') : Beside store store' := by
  obtain ⟨opened, covered, hstream, -, hraised, -, rfl⟩ := h
  refine ⟨⟨[e], rfl⟩, ⟨[], by simp⟩, rfl, ?_⟩
  intro id stream hid
  by_cases heq : id = e.streamId
  · subst heq
    obtain ⟨hrepository, hprocessed, hpending, hcovered⟩ := hstream hid
    exact ⟨_, Function.update_self .., hrepository, hprocessed, hpending, hcovered ▸ hraised⟩
  · exact ⟨stream, (Function.update_of_ne heq ..).trans hid, rfl, rfl, rfl, le_rfl⟩

end OmniviaCore.Engineering
