import OmniviaCore.Engineering.FanOut

/-!
# Invalidation loses nothing

`Sound` is what every reachable store satisfies: the stored events reach as far as the coverage barrier,
the watermark is behind it, no dependent is assessed twice for one snapshot, and every assessment of the
worker is for an event behind the watermark, or for the next one and not past the dependent cursor. `Cohort`
follows the dependents one event has when its fan-out begins, to wherever the watermark and the cursor of
its stream move.
-/

namespace OmniviaCore.Engineering

open Lib

variable {contentDigest : Manifest → String} {capturedDigest : CapturedSourceCommit → SnapshotCapture → String}
  {store store' : EngineeringStore} {streamId : String}

/-- Whether the fan-out of an event has reached a key: it is behind the watermark, or the next one with
the key not past the cursor. -/
def SourceStream.Reached (stream : SourceStream) (sequence : Nat) (key : DependentKey) : Prop :=
  sequence ≤ stream.processedSequence ∨
    sequence = stream.processedSequence + 1 ∧ ∃ last, stream.pendingDependent = some last ∧ key ≤ last

structure Sound (store : EngineeringStore) : Prop where
  snapshots : Unique (·.snapshotId) store.events
  recorded : ∀ e ∈ store.events, (store.snapshots e.snapshotId).isSome = true
  registered : ∀ e ∈ store.events, (store.streams e.streamId).isSome = true
  covered : ∀ {id stream}, store.streams id = some stream →
    ∀ n, 0 < n → n ≤ stream.coveredSequence → (store.event id n).isSome = true
  processed : ∀ {id stream}, store.streams id = some stream →
    stream.processedSequence ≤ stream.coveredSequence
  once : store.assessed.Nodup
  accounted : ∀ subject ∈ store.assessed, ∃ e ∈ store.events, ∃ stream,
    store.streams e.streamId = some stream ∧ e.snapshotId = subject.2 ∧
      stream.Reached e.sequence subject.1

theorem Sound.empty : Sound .empty where
  snapshots := unique_nil
  recorded e h := absurd h List.not_mem_nil
  registered e h := absurd h List.not_mem_nil
  covered h := by cases h
  processed h := by cases h
  once := List.nodup_nil
  accounted subject h := absurd h List.not_mem_nil

/-- A writer that adds neither an event nor an assessment of the worker's. -/
theorem Sound.congr (h : Sound store) (hevents : store'.events = store.events)
    (hstreams : store'.streams = store.streams) (hassessed : store'.assessed = store.assessed)
    (hsnapshots : ∀ id, (store.snapshots id).isSome = true → (store'.snapshots id).isSome = true) :
    Sound store' where
  snapshots := hevents ▸ h.snapshots
  recorded e he := hsnapshots _ (h.recorded e (hevents ▸ he))
  registered e he := hstreams ▸ h.registered e (hevents ▸ he)
  covered hid n hn hle := by
    unfold EngineeringStore.event
    rw [hevents]
    exact h.covered (hstreams ▸ hid) n hn hle
  processed hid := h.processed (hstreams ▸ hid)
  once := hassessed ▸ h.once
  accounted subject hsubject := by
    rw [hevents, hstreams]
    exact h.accounted subject (hassessed ▸ hsubject)

/-! ## One appended event -/

theorem Sound.appended {e : SourceEvent} (h : Sound store) (happended : Appended store e store')
    (hfresh : ∀ e' ∈ store.events, e'.snapshotId ≠ e.snapshotId)
    (hrecorded : (store.snapshots e.snapshotId).isSome = true) : Sound store' := by
  have hbeside := happended.beside
  obtain ⟨opened, covered, hstream, hunregistered, hraised, hstored, rfl⟩ := happended
  constructor
  · exact h.snapshots.concat hfresh
  · intro e' he'
    rcases List.mem_append.1 he' with he' | he'
    · exact h.recorded e' he'
    · rw [List.mem_singleton.1 he']
      exact hrecorded
  · intro e' he'
    by_cases heq : e'.streamId = e.streamId
    · simp [heq]
    · rcases List.mem_append.1 he' with he' | he'
      · simp only [Function.update_of_ne heq]
        exact h.registered e' he'
      · exact absurd (congrArg SourceEvent.streamId (List.mem_singleton.1 he')) heq
  · intro id stream hid n hn hle
    by_cases heq : id = e.streamId
    · subst heq
      simp only [Function.update_self, Option.some.injEq] at hid
      subst hid
      by_cases hold : n ≤ opened.coveredSequence
      · cases hfound : store.streams e.streamId with
        | none => have := (hunregistered hfound).2; omega
        | some found =>
          rw [(hstream hfound).2.2.2] at hold
          obtain ⟨e', he'⟩ := Option.isSome_iff_exists.1 (h.covered hfound n hn hold)
          rw [event_of_append rfl he']
          rfl
      · exact hstored n (Nat.lt_of_not_le hold) hle
    · simp only [Function.update_of_ne heq] at hid
      obtain ⟨e', he'⟩ := Option.isSome_iff_exists.1 (h.covered hid n hn hle)
      rw [event_of_append rfl he']
      rfl
  · intro id stream hid
    by_cases heq : id = e.streamId
    · subst heq
      simp only [Function.update_self, Option.some.injEq] at hid
      subst hid
      refine le_trans ?_ hraised
      cases hfound : store.streams e.streamId with
      | none => rw [(hunregistered hfound).1]; exact Nat.zero_le _
      | some found =>
        rw [(hstream hfound).2.1, (hstream hfound).2.2.2]
        exact h.processed hfound
    · simp only [Function.update_of_ne heq] at hid
      exact h.processed hid
  · exact hbeside.assessed ▸ h.once
  · intro subject hsubject
    rw [hbeside.assessed] at hsubject
    obtain ⟨e', he', stream, hid, hsnapshot, hreached⟩ := h.accounted subject hsubject
    obtain ⟨stream', hid', -, hprocessed, hpending, -⟩ := hbeside.streams hid
    refine ⟨e', List.mem_append_left _ he', stream', hid', hsnapshot, ?_⟩
    unfold SourceStream.Reached at hreached ⊢
    rw [hprocessed, hpending]
    exact hreached

theorem recordNewSourceEvent_ok {settlement : MutationSettlement} {principalId : String}
    {record : SourceRecord} {disposition : Disposition}
    (h : recordNewSourceEvent store contentDigest settlement principalId record =
      .ok (store', disposition)) : Beside store store' ∧ (Sound store → Sound store') := by
  unfold recordNewSourceEvent at h
  simp only [bind_eq_ok, require_eq_ok, exists_unit, pure_eq_ok, Prod.mk.injEq] at h
  obtain ⟨hnone, _, happend, rfl, -⟩ := h
  obtain ⟨happended⟩ := appendEvent_ok happend
  have hbeside := happended.beside
  refine ⟨⟨hbeside.events, hbeside.dependencySets, hbeside.assessed, hbeside.streams⟩, fun hsound => ?_⟩
  refine Sound.appended ?_ happended (fun e' he' heq => ?_) ?_
  · refine hsound.congr rfl rfl rfl fun id hid => ?_
    simp only [Function.update_apply]
    split
    · rfl
    · exact hid
  · have hsome := hsound.recorded e' he'
    rw [heq] at hsome
    have hsome' : (store.snapshots record.snapshotId).isSome = true := hsome
    rw [hnone] at hsome'
    cases hsome'
  · simp [SourceRecord.event]

theorem recordSourceEvent_ok {settlement : MutationSettlement} {principalId : String}
    {record : SourceRecord} {disposition : Disposition}
    (h : recordSourceEvent store contentDigest settlement principalId record = .ok (store', disposition)) :
    Beside store store' ∧ (Sound store → Sound store') := by
  unfold recordSourceEvent at h
  split at h
  · exact recordNewSourceEvent_ok h
  simp only [bind_eq_ok, require_eq_ok, exists_unit] at h
  obtain ⟨-, -, h⟩ := h
  split at h
  · exact recordNewSourceEvent_ok h
  · simp only [bind_eq_ok, require_eq_ok, exists_unit, pure_eq_ok, Prod.mk.injEq] at h
    obtain ⟨-, rfl, -⟩ := h
    exact ⟨.refl, id⟩

theorem recordNewCapturedEvent_ok {settlement : MutationSettlement} {principalId : String}
    {request : CapturedSourceCommit} {capture : SnapshotCapture} {disposition : Disposition}
    (hsealed : (store.snapshots request.snapshotId).isSome = true)
    (h : recordNewCapturedEvent store capturedDigest settlement principalId request capture =
      .ok (store', disposition)) : Beside store store' ∧ (Sound store → Sound store') := by
  unfold recordNewCapturedEvent at h
  simp only [bind_eq_ok, require_eq_ok, exists_unit, pure_eq_ok, Prod.mk.injEq] at h
  obtain ⟨hnone, _, happend, rfl, -⟩ := h
  obtain ⟨happended⟩ := appendEvent_ok happend
  have hbeside := happended.beside
  refine ⟨⟨hbeside.events, hbeside.dependencySets, hbeside.assessed, hbeside.streams⟩, fun hsound => ?_⟩
  refine Sound.appended ?_ happended (fun e' he' heq => ?_) hsealed
  · exact hsound.congr rfl rfl rfl fun _ hid => hid
  · have hother := List.find?_eq_none.1 hnone e' he'
    exact hother (decide_eq_true heq)

theorem recordCapturedSourceEvent_ok {settlement : MutationSettlement} {principalId installationId : String}
    {request : CapturedSourceCommit} {disposition : Disposition}
    (h : recordCapturedSourceEvent store capturedDigest settlement principalId installationId request =
      .ok (store', disposition)) : Beside store store' ∧ (Sound store → Sound store') := by
  unfold recordCapturedSourceEvent at h
  simp only [bind_eq_ok, require_eq_ok, exists_unit] at h
  obtain ⟨capture, hsealed, -, -, -, h⟩ := h
  have hsnapshot : (store.snapshots request.snapshotId).isSome = true := by
    unfold sealedCapture at hsealed
    split at hsealed
    · cases hsealed
    · simp only [bind_eq_ok, require_eq_ok, exists_unit] at hsealed
      rw [hsealed.1]
      rfl
  unfold recordCapture at h
  split at h
  · exact recordNewCapturedEvent_ok hsnapshot h
  simp only [bind_eq_ok, require_eq_ok, exists_unit] at h
  obtain ⟨-, -, -, h⟩ := h
  split at h
  · exact recordNewCapturedEvent_ok hsnapshot h
  · simp only [bind_eq_ok, require_eq_ok, exists_unit, pure_eq_ok, Prod.mk.injEq] at h
    obtain ⟨-, rfl, -⟩ := h
    exact ⟨.refl, id⟩

/-! ## The writers that append no event -/

theorem sealCapture_ok {snapshotId : String} {capture : SnapshotCapture}
    (h : sealCapture store snapshotId capture = .ok store') :
    Beside store store' ∧ (Sound store → Sound store') := by
  unfold sealCapture at h
  simp only [bind_eq_ok, require_eq_ok, exists_unit, pure_eq_ok] at h
  obtain ⟨-, rfl⟩ := h
  have hbeside : Beside store store := .refl
  refine ⟨⟨hbeside.events, hbeside.dependencySets, rfl, hbeside.streams⟩, fun hsound => ?_⟩
  refine hsound.congr rfl rfl rfl fun id hid => ?_
  simp only [Function.update_apply]
  split
  · rfl
  · exact hid

theorem sealDependencySet_ok {set : DependencySet} (h : sealDependencySet store set = .ok store') :
    Beside store store' ∧ (Sound store → Sound store') := by
  unfold sealDependencySet at h
  simp only [bind_eq_ok, require_eq_ok, exists_unit, pure_eq_ok] at h
  obtain ⟨-, rfl⟩ := h
  have hbeside : Beside store store := .refl
  exact ⟨⟨hbeside.events, ⟨[set], rfl⟩, rfl, hbeside.streams⟩,
    fun hsound => hsound.congr rfl rfl rfl fun _ hid => hid⟩

theorem carryDependencySet_ok {recordId sourceVersion targetVersion : String} {carried : Bool}
    (h : carryDependencySet store recordId sourceVersion targetVersion = .ok (store', carried)) :
    Beside store store' ∧ (Sound store → Sound store') := by
  unfold carryDependencySet at h
  split at h
  · cases h
    exact ⟨.refl, id⟩
  split at h
  · cases h
    exact ⟨.refl, id⟩
  simp only [bind_eq_ok, pure_eq_ok, Prod.mk.injEq] at h
  obtain ⟨_, h, rfl, -⟩ := h
  exact sealDependencySet_ok h

theorem recordReview_ok {row : Assessment} (hbasis : row.basis = .review)
    (h : recordAssessment store row = .ok store') :
    Beside store store' ∧ (Sound store → Sound store') := by
  unfold recordAssessment at h
  simp only [bind_eq_ok, require_eq_ok, exists_unit, pure_eq_ok] at h
  obtain ⟨-, rfl⟩ := h
  have hassessed : ({ store with assessments := store.assessments ++ [row] } : EngineeringStore).assessed =
      store.assessed := by
    simp [EngineeringStore.assessed, List.filter_append, hbasis]
  have hbeside : Beside store store := .refl
  exact ⟨⟨hbeside.events, hbeside.dependencySets, hassessed, hbeside.streams⟩,
    fun hsound => hsound.congr rfl rfl hassessed fun _ hid => hid⟩

/-! ## One page -/

theorem pageProgress_ok {processed processed' : Nat} {dependents : List DependentKey} {batchLimit : Int}
    {after : Option DependentKey}
    (h : pageProgress processed dependents batchLimit = .ok (processed', after)) :
    ((dependents.length : Int) < batchLimit ∧ processed' = processed + 1 ∧ after = none) ∨
      ∃ last, dependents.getLast? = some last ∧ processed' = processed ∧ after = some last := by
  unfold pageProgress at h
  split at h
  next hshort =>
    cases h
    exact .inl ⟨hshort, rfl, rfl⟩
  · split at h
    · cases h
    next last hlast =>
      cases h
      exact .inr ⟨last, hlast, rfl, rfl⟩

namespace Advanced

variable (h : Advanced contentDigest store streamId store')

/-- The dependents of the page. -/
def dependents : List DependentKey :=
  affectedDependents store h.stream.repositoryId streamId h.changed h.batchLimit h.stream.pendingDependent

/-- The row the page leaves. -/
def row' : SourceStream := {
  h.stream with
  processedSequence := h.processed
  pendingDependent := h.after
  updatedAtUs := h.updatedAtUs
  auditRef := h.current.auditRef }

include h

theorem events_eq : store'.events = store.events := by rw [h.written]

theorem streams_self : store'.streams streamId = some h.row' :=
  (congrFun (congrArg EngineeringStore.streams h.written) streamId).trans (Function.update_self ..)

theorem streams_of_ne {id : String} (hid : id ≠ streamId) : store'.streams id = store.streams id :=
  (congrFun (congrArg EngineeringStore.streams h.written) id).trans (Function.update_of_ne hid ..)

theorem assessed_eq : store'.assessed =
    store.assessed ++ h.dependents.map fun key => (key, h.current.snapshotId) := by
  have hrows : h.rows.filter (fun row => row.basis = .deterministic) = h.rows :=
    List.filter_eq_self.2 fun row hrow => decide_eq_true (h.basis row hrow)
  refine (congrArg EngineeringStore.assessed h.written).trans ?_
  simp only [EngineeringStore.assessed, List.filter_append, List.map_append, hrows, h.subjects,
    dependents]

theorem current_event : store.event streamId (h.stream.processedSequence + 1) = some h.current :=
  (targetEvent_ok h.target).1

theorem moved : h.stream.processedSequence ≤ h.processed ∧ h.processed ≤ h.stream.processedSequence + 1 := by
  rcases pageProgress_ok h.progress with ⟨-, hprocessed, -⟩ | ⟨_, -, hprocessed, -⟩ <;> omega

/-- A page reaches the keys reached before it. -/
theorem reached {n : Nat} {key : DependentKey} (hreached : h.stream.Reached n key) : h.row'.Reached n key := by
  have hmoved := h.moved
  rcases hreached with hle | ⟨hnext, last, hlast, hkey⟩
  · exact .inl (le_trans hle hmoved.1)
  rcases pageProgress_ok h.progress with ⟨-, hprocessed, -⟩ | ⟨last', hlast', hprocessed, hafter⟩
  · refine .inl ?_
    show n ≤ h.processed
    omega
  · have hpast := affectedDependents_page.2.1 last' (List.mem_of_getLast? hlast') last hlast
    refine .inr ⟨?_, last', hafter, hkey.trans hpast.le⟩
    show n = h.processed + 1
    omega

/-- A page reaches the keys it assesses. -/
theorem reached_of_mem {key : DependentKey} (hkey : key ∈ h.dependents) :
    h.row'.Reached (h.stream.processedSequence + 1) key := by
  rcases pageProgress_ok h.progress with ⟨-, hprocessed, -⟩ | ⟨last, hlast, hprocessed, hafter⟩
  · exact .inl hprocessed.ge
  · exact .inr ⟨congrArg (· + 1) hprocessed.symm, last, hafter,
      affectedDependents_page.2.2 last hlast key hkey⟩

/-- A dependent of the event a page reaches has been reached before it, or is assessed by it. -/
theorem mem_of_reached {key : DependentKey} (hdepends : store.DependsOn streamId h.current key)
    (hreached : h.row'.Reached (h.stream.processedSequence + 1) key) :
    h.stream.Reached (h.stream.processedSequence + 1) key ∨ key ∈ h.dependents := by
  by_cases hbefore : h.stream.Reached (h.stream.processedSequence + 1) key
  · exact .inl hbefore
  right
  have hpast : PastCursor h.stream.pendingDependent key := by
    intro last hlast
    by_contra hkey
    exact hbefore (.inr ⟨rfl, last, hlast, not_lt.1 hkey⟩)
  have htarget := h.target
  rw [← (mem_of_event h.current_event).2.2] at htarget
  obtain ⟨hkeys, hpage⟩ := @mem_affectedDependents contentDigest store streamId _ _ _ h.batchLimit
    h.stream.pendingDependent _ h.row htarget hdepends
  have hprogress := pageProgress_ok h.progress
  unfold dependents
  rw [hpage] at hprogress ⊢
  rcases hprogress with ⟨hshort, -, -⟩ | ⟨last, hlast, hprocessed, hafter⟩
  · exact mem_page_of_short hshort hkeys hpast
  · rcases hreached with hle | ⟨-, last', hlast', hle⟩
    · have hle' : h.stream.processedSequence + 1 ≤ h.processed := hle
      omega
    · have hlast'' : h.after = some last' := hlast'
      rw [hafter, Option.some.injEq] at hlast''
      exact mem_page_of_le_last hlast hkeys hpast (hlast'' ▸ hle)

end Advanced

theorem Sound.advanced (h : Sound store) (ha : Advanced contentDigest store streamId store') :
    Sound store' := by
  have hsnapshots : store'.snapshots = store.snapshots := by rw [ha.written]
  have hevent : ∀ id n, store'.event id n = store.event id n := by
    intro id n
    unfold EngineeringStore.event
    rw [ha.events_eq]
  obtain ⟨hcurrent, hid, hsequence⟩ := mem_of_event ha.current_event
  constructor
  · exact ha.events_eq ▸ h.snapshots
  · intro e he
    rw [hsnapshots]
    exact h.recorded e (ha.events_eq ▸ he)
  · intro e he
    by_cases heq : e.streamId = streamId
    · rw [heq, ha.streams_self]
      rfl
    · rw [ha.streams_of_ne heq]
      exact h.registered e (ha.events_eq ▸ he)
  · intro id stream hstream n hn hle
    rw [hevent]
    by_cases heq : id = streamId
    · subst heq
      rw [ha.streams_self, Option.some.injEq] at hstream
      subst hstream
      exact h.covered ha.row n hn hle
    · rw [ha.streams_of_ne heq] at hstream
      exact h.covered hstream n hn hle
  · intro id stream hstream
    by_cases heq : id = streamId
    · subst heq
      rw [ha.streams_self, Option.some.injEq] at hstream
      subst hstream
      have hmoved := ha.moved
      have hbehind := ha.behind
      show ha.processed ≤ ha.stream.coveredSequence
      omega
    · rw [ha.streams_of_ne heq] at hstream
      exact h.processed hstream
  · rw [ha.assessed_eq, List.nodup_append]
    refine ⟨h.once, affectedDependents_page.1.map fun _ _ heq => (Prod.mk.inj heq).1, ?_⟩
    rintro subject hsubject _ hnew rfl
    obtain ⟨key, hkey, rfl⟩ := List.mem_map.1 hnew
    obtain ⟨e, he, stream, hstream, hsnapshot, hreached⟩ := h.accounted _ hsubject
    have heq : e = ha.current := List.inj_on_of_nodup_map h.snapshots he hcurrent hsnapshot
    subst heq
    rw [hid, ha.row, Option.some.injEq] at hstream
    subst hstream
    rw [hsequence] at hreached
    rcases hreached with hle | ⟨-, last, hlast, hle⟩
    · omega
    · exact absurd hle (affectedDependents_page.2.1 key hkey last hlast).not_ge
  · intro subject hsubject
    rw [ha.assessed_eq, List.mem_append] at hsubject
    rw [ha.events_eq]
    rcases hsubject with hsubject | hsubject
    · obtain ⟨e, he, stream, hstream, hsnapshot, hreached⟩ := h.accounted subject hsubject
      by_cases heq : e.streamId = streamId
      · rw [heq, ha.row, Option.some.injEq] at hstream
        subst hstream
        exact ⟨e, he, ha.row', by rw [heq, ha.streams_self], hsnapshot, ha.reached hreached⟩
      · exact ⟨e, he, stream, by rw [ha.streams_of_ne heq, hstream], hsnapshot, hreached⟩
    · obtain ⟨key, hkey, rfl⟩ := List.mem_map.1 hsubject
      refine ⟨ha.current, hcurrent, ha.row', by rw [hid, ha.streams_self], rfl, ?_⟩
      rw [hsequence]
      exact ha.reached_of_mem hkey

/-! ## The dependents of one event -/

/-- Dependents of an event, all those its fan-out has reached assessed for it. -/
structure Cohort (streamId : String) (e : SourceEvent) (keys : DependentKey → Prop)
    (store : EngineeringStore) : Prop where
  event : store.event streamId e.sequence = some e
  dependents : ∀ key, keys key → store.DependsOn streamId e key
  reached : ∃ stream, store.streams streamId = some stream ∧
    e.sequence ≤ stream.processedSequence + 1 ∧
    ∀ key, keys key → stream.Reached e.sequence key → (key, e.snapshotId) ∈ store.assessed

theorem DependsOn.of_rows {e : SourceEvent} {key : DependentKey} {added : List SourceEvent}
    {sealedSets : List DependencySet} (h : store.DependsOn streamId e key)
    (hevents : store'.events = store.events ++ added)
    (hsets : store'.dependencySets = store.dependencySets ++ sealedSets)
    (hstream : ∀ stream, store.streams streamId = some stream →
      ∃ stream', store'.streams streamId = some stream' ∧ stream'.repositoryId = stream.repositoryId) :
    store'.DependsOn streamId e key := by
  obtain ⟨stream, previous, set, dependency, hid, hprevious, hset, hkey, hrepository, hsetStream, h⟩ := h
  obtain ⟨stream', hid', hrepository'⟩ := hstream stream hid
  refine ⟨stream', previous, set, dependency, hid', ?_, ?_, hkey, hrepository.trans hrepository'.symm,
    hsetStream, h⟩
  · unfold EngineeringStore.predecessorManifest at hprevious ⊢
    split at hprevious
    next hone => rw [if_pos hone, hprevious]
    next hone =>
      rw [if_neg hone]
      obtain ⟨before, hbefore, rfl⟩ := Option.map_eq_some_iff.1 hprevious
      rw [event_of_append hevents hbefore]
      rfl
  · rw [hsets]
    exact List.mem_append_left _ hset

theorem Cohort.beside {e : SourceEvent} {keys : DependentKey → Prop} (h : Cohort streamId e keys store)
    (hbeside : Beside store store') : Cohort streamId e keys store' := by
  obtain ⟨added, hevents⟩ := hbeside.events
  obtain ⟨sealedSets, hsets⟩ := hbeside.dependencySets
  obtain ⟨stream, hid, hle, hreached⟩ := h.reached
  refine ⟨event_of_append hevents h.event, fun key hkey => ?_, ?_⟩
  · refine DependsOn.of_rows (h.dependents key hkey) hevents hsets fun stream hid => ?_
    obtain ⟨stream', hid', hrepository, -⟩ := hbeside.streams hid
    exact ⟨stream', hid', hrepository⟩
  · obtain ⟨stream', hid', -, hprocessed, hpending, -⟩ := hbeside.streams hid
    refine ⟨stream', hid', hprocessed ▸ hle, fun key hkey hkeyReached => ?_⟩
    unfold SourceStream.Reached at hkeyReached
    rw [hprocessed, hpending] at hkeyReached
    rw [hbeside.assessed]
    exact hreached key hkey hkeyReached

theorem Cohort.advanced {e : SourceEvent} {keys : DependentKey → Prop} {id : String}
    (h : Cohort streamId e keys store) (ha : Advanced contentDigest store id store') :
    Cohort streamId e keys store' := by
  have hevents : store'.events = store.events ++ [] := by rw [ha.events_eq, List.append_nil]
  have hsets : store'.dependencySets = store.dependencySets ++ [] := by rw [ha.written, List.append_nil]
  obtain ⟨stream, hid, hle, hreached⟩ := h.reached
  refine ⟨event_of_append hevents h.event, fun key hkey => ?_, ?_⟩
  · refine DependsOn.of_rows (h.dependents key hkey) hevents hsets fun stream hid => ?_
    by_cases heq : streamId = id
    · subst heq
      rw [ha.row, Option.some.injEq] at hid
      exact ⟨ha.row', ha.streams_self, hid ▸ rfl⟩
    · exact ⟨stream, (ha.streams_of_ne heq).trans hid, rfl⟩
  by_cases heq : streamId = id
  · subst heq
    rw [ha.row, Option.some.injEq] at hid
    subst hid
    have hmoved := ha.moved
    refine ⟨ha.row', ha.streams_self, le_trans hle (Nat.succ_le_succ hmoved.1), fun key hkey hnow => ?_⟩
    rw [ha.assessed_eq, List.mem_append]
    by_cases hbefore : ha.stream.Reached e.sequence key
    · exact .inl (hreached key hkey hbefore)
    -- a key first reached by this page belongs to the event the page is of
    have hnext : e.sequence = ha.stream.processedSequence + 1 := by
      have hnot : ¬e.sequence ≤ ha.stream.processedSequence := fun hle => hbefore (.inl hle)
      omega
    have hcurrent : ha.current = e := by
      have hevent := h.event
      rw [hnext, ha.current_event] at hevent
      exact Option.some.inj hevent
    rw [hnext] at hnow hbefore
    rcases ha.mem_of_reached (hcurrent ▸ h.dependents key hkey) hnow with hold | hmem
    · exact absurd hold hbefore
    · exact .inr (List.mem_map.2 ⟨key, hmem, by rw [hcurrent]⟩)
  · refine ⟨stream, (ha.streams_of_ne heq).trans hid, hle, fun key hkey hnow => ?_⟩
    rw [ha.assessed_eq]
    exact List.mem_append_left _ (hreached key hkey hnow)

/-! ## Every run -/

theorem perform_ok {label : EngineeringLabel}
    (h : perform contentDigest capturedDigest store label = .ok store') :
    (∃ id, Nonempty (Advanced contentDigest store id store')) ∨
      Beside store store' ∧ (Sound store → Sound store') := by
  cases label with
  | advance id batchLimit nowUs evidenceAvailable =>
    obtain ⟨⟨_, progress⟩, hbody, rfl⟩ := except_map_eq_ok.1 h
    rcases advanceInvalidation_ok hbody with rfl | ha
    · exact .inr ⟨.refl, fun hsound => hsound⟩
    · exact .inl ⟨id, ha⟩
  | recordSource settlement principalId record =>
    obtain ⟨⟨_, disposition⟩, hbody, rfl⟩ := except_map_eq_ok.1 h
    exact .inr (recordSourceEvent_ok hbody)
  | commitCapture settlement principalId installationId request =>
    obtain ⟨⟨_, disposition⟩, hbody, rfl⟩ := except_map_eq_ok.1 h
    exact .inr (recordCapturedSourceEvent_ok hbody)
  | sealCapture snapshotId capture => exact .inr (sealCapture_ok h)
  | recordDependencies set =>
    simp only [perform, recordDependencySet, bind_eq_ok, require_eq_ok, exists_unit] at h
    exact .inr (sealDependencySet_ok h.2)
  | carryDependencies recordId sourceVersion targetVersion =>
    obtain ⟨⟨_, carried⟩, hbody, rfl⟩ := except_map_eq_ok.1 h
    exact .inr (carryDependencySet_ok hbody)
  | reviewRecord recordId version targetSnapshotId status settlement =>
    exact .inr (recordReview_ok rfl h)

/-- What one step of the service does: one page of the worker, or none of its work. -/
theorem step_cases (step : ServiceStep) :
    (∃ id, Nonempty (Advanced contentDigest store id (store.step contentDigest capturedDigest step))) ∨
      Beside store (store.step contentDigest capturedDigest step) ∧
        (Sound store → Sound (store.step contentDigest capturedDigest step)) := by
  have hbeside : Beside store store := .refl
  cases step with
  | restart =>
    exact .inr ⟨⟨hbeside.events, hbeside.dependencySets, rfl, hbeside.streams⟩,
      fun hsound => hsound.congr rfl rfl rfl fun _ hid => hid⟩
  | transaction fencingGeneration label =>
    unfold EngineeringStore.step
    dsimp only
    split
    next committed hcommitted =>
      simp only [fenced, bind_eq_ok, require_eq_ok, exists_unit] at hcommitted
      exact perform_ok hcommitted.2
    · exact .inr ⟨hbeside, fun hsound => hsound⟩

theorem Sound.step (h : Sound store) (step : ServiceStep) :
    Sound (store.step contentDigest capturedDigest step) := by
  rcases step_cases step with ⟨_, ⟨ha⟩⟩ | ⟨-, hsound⟩
  · exact h.advanced ha
  · exact hsound h

theorem Sound.run (h : Sound store) (steps : List ServiceStep) :
    Sound (run (EngineeringStore.step contentDigest capturedDigest) store steps) :=
  run_invariant (P := Sound) (fun _ step h => Sound.step h step) h steps

theorem Cohort.run {e : SourceEvent} {keys : DependentKey → Prop} (h : Cohort streamId e keys store)
    (steps : List ServiceStep) :
    Cohort streamId e keys (run (EngineeringStore.step contentDigest capturedDigest) store steps) := by
  refine run_invariant (P := Cohort streamId e keys) (fun store step h => ?_) h steps
  rcases @step_cases contentDigest capturedDigest store step with ⟨_, ⟨ha⟩⟩ | ⟨hbeside, -⟩
  · exact h.advanced ha
  · exact h.beside hbeside

/-- A step moves the watermark of a stream by at most one event. -/
theorem step_watermark {stream stream' : SourceStream} (step : ServiceStep)
    (h : store.streams streamId = some stream)
    (h' : (store.step contentDigest capturedDigest step).streams streamId = some stream') :
    stream.processedSequence ≤ stream'.processedSequence ∧
      stream'.processedSequence ≤ stream.processedSequence + 1 := by
  rcases @step_cases contentDigest capturedDigest store step with ⟨id, ⟨ha⟩⟩ | ⟨hbeside, -⟩
  · by_cases heq : streamId = id
    · subst heq
      rw [ha.streams_self, Option.some.injEq] at h'
      rw [ha.row, Option.some.injEq] at h
      subst h h'
      exact ha.moved
    · rw [ha.streams_of_ne heq, h, Option.some.injEq] at h'
      subst h'
      exact ⟨le_rfl, Nat.le_succ _⟩
  · obtain ⟨found, hfound, -, hprocessed, -⟩ := hbeside.streams h
    rw [hfound, Option.some.injEq] at h'
    subst h'
    omega

/-- In every store the service reaches, the watermark of a stream is behind its coverage and every event
up to it is stored; a step moves it by at most one event; and the worker has assessed no dependent twice
for one event. A fan-out that has not begun has no dependent cursor: once the watermark has passed an
event, the dependents the event had when its fan-out began have each been assessed exactly once for it. -/
theorem invalidation_loses_nothing (contentDigest : Manifest → String)
    (capturedDigest : CapturedSourceCommit → SnapshotCapture → String) (steps : List ServiceStep)
    (store : EngineeringStore)
    (hstore : store = run (EngineeringStore.step contentDigest capturedDigest) .empty steps) :
    (∀ id stream, store.streams id = some stream →
      stream.processedSequence ≤ stream.coveredSequence ∧
      (∀ n, 0 < n → n ≤ stream.processedSequence → (store.event id n).isSome = true) ∧
      (∀ step stream', (store.step contentDigest capturedDigest step).streams id = some stream' →
        stream.processedSequence ≤ stream'.processedSequence ∧
          stream'.processedSequence ≤ stream.processedSequence + 1) ∧
      (stream.pendingDependent = none → ∀ e, store.event id (stream.processedSequence + 1) = some e →
        ∀ key, store.DependsOn id e key → ∀ later stream',
          (run (EngineeringStore.step contentDigest capturedDigest) store later).streams id =
            some stream' → stream.processedSequence < stream'.processedSequence →
          (run (EngineeringStore.step contentDigest capturedDigest) store later).timesAssessed key
            e.snapshotId = 1)) ∧
    ∀ e ∈ store.events, ∀ key, store.timesAssessed key e.snapshotId ≤ 1 := by
  have hsound : Sound store := hstore ▸ Sound.empty.run steps
  refine ⟨fun id stream hid => ⟨hsound.processed hid, fun n hn hle => ?_, fun step stream' hid' => ?_,
    fun hpending e he key hkey later stream' hid' hpassed => ?_⟩, fun e _ key => ?_⟩
  · exact hsound.covered hid n hn (hle.trans (hsound.processed hid))
  · exact step_watermark step hid hid'
  · have hsequence := (mem_of_event he).2.2
    have hcohort : Cohort id e (· = key) store := by
      refine ⟨by rw [hsequence, he], by rintro _ rfl; exact hkey, stream, hid, hsequence.le, ?_⟩
      rintro _ rfl (hle | ⟨-, last, hlast, -⟩)
      · omega
      · rw [hpending] at hlast
        cases hlast
    obtain ⟨found, hfound, -, hreached⟩ :=
      (@Cohort.run contentDigest capturedDigest store id e _ hcohort later).reached
    rw [hid', Option.some.injEq] at hfound
    subst hfound
    have hmem := hreached key rfl (.inl (by omega))
    exact List.count_eq_one_of_mem (hsound.run later).once hmem
  · exact List.nodup_iff_count_le_one.1 hsound.once _

/-- One recorded event and two sealed versions that name its file. -/
def recordedSteps : List ServiceStep := [
  .transaction 0 (.recordSource ⟨1, "audit"⟩ "producer" {
    repositoryId := "repository"
    streamId := "stream"
    sequence := 1
    predecessorSnapshotId := none
    snapshotId := "snapshot"
    captureStatus := .complete
    manifest := [("path", "digest")]
    eventDigest := "event" }),
  .transaction 0 (.recordDependencies (pathDependent "m1")),
  .transaction 0 (.recordDependencies (pathDependent "m2"))]
where
  /-- A version that depends on the whole file. -/
  pathDependent (recordId : String) : DependencySet := {
    recordId
    version := "v"
    repositoryId := "repository"
    streamId := "stream"
    snapshotId := "snapshot"
    coverage := .complete
    dependencies := [⟨.whole_file, "path", .must_match, some "digest"⟩] }

/-- Pages of one dependent, with a restart and a set sealed behind the cursor between them. -/
def pagedSteps : List ServiceStep := [
  .transaction 0 (.advance "stream" 1 1 fun _ => true),
  .restart,
  .transaction 1 (.recordDependencies (recordedSteps.pathDependent "m0")),
  .transaction 1 (.advance "stream" 1 1 fun _ => true),
  .transaction 1 (.advance "stream" 1 1 fun _ => true)]

/-- The steps of a service whose digest of a manifest is that of its first file. -/
def pathStep : EngineeringStore → ServiceStep → EngineeringStore :=
  EngineeringStore.step (fun manifest => (manifest.map Prod.snd).headD "") fun request _ =>
    request.snapshotId

theorem invalidation_loses_nothing_paged :
    (run pathStep (run pathStep .empty recordedSteps) pagedSteps).timesAssessed
      (toLex ("m2", "v")) "snapshot" = 1 := by
  have hstream : (run pathStep .empty recordedSteps).streams "stream" =
      some ⟨"repository", "producer", 1, 1, 0, none, 1, "audit"⟩ := by decide +kernel
  have hevent : (run pathStep .empty recordedSteps).event "stream" 1 = some ⟨"stream", 1, "snapshot",
      none, [("path", "digest")], "digest", .flat_v1, "event", 1, "audit"⟩ := by decide +kernel
  have hlater : (run pathStep (run pathStep .empty recordedSteps) pagedSteps).streams "stream" =
      some ⟨"repository", "producer", 1, 1, 1, none, 1, "audit"⟩ := by decide +kernel
  refine ((invalidation_loses_nothing _ _ recordedSteps _ rfl).1 "stream" _ hstream).2.2.2 rfl _ hevent
    (toLex ("m2", "v")) ?_ pagedSteps _ hlater Nat.zero_lt_one
  exact ⟨_, [], recordedSteps.pathDependent "m2", ⟨.whole_file, "path", .must_match, some "digest"⟩,
    hstream, rfl, by decide +kernel, rfl, rfl, rfl, by decide, rfl, by decide⟩

end OmniviaCore.Engineering
