import OmniviaCore.Connector.FilesystemPolls
import OmniviaCore.Lib.Digest

/-!
# The mirror of a tree

A run of polls, each from the successor of the one before. At every poll a path is present, with content the
poll could read or not, unresolved, or absent. A run keeps a mirror of the tree (`Mirrors`) exactly when no
present path has a newline in it and no path goes while it is unresolved (`mirrors_iff`).
-/

namespace OmniviaCore.Connector

open Lib

/-- What one observation does to a mirror of the source. -/
def applyObservation (mirror : String → Option Bytes) (o : Observation) : String → Option Bytes :=
  match o.deletionSignal with
  | .none => Function.update mirror o.sourceLocator o.content
  | .explicitDelete => Function.update mirror o.sourceLocator none
  | .absentFromWindow => mirror

/-- The observations of the first batches of a run, folded. -/
def mirrorAfter (batches : List Batch) (polls : Nat) : String → Option Bytes :=
  ((batches.take polls).flatMap (·.observations)).foldl applyObservation fun _ => none

section Categories

variable (py : PyText) (sha256 : Bytes → Bytes) (connector : FilesystemConnector)
  (inputs : List PollInput) (k : Nat) (path : RelativePath)

/-- The scan of a poll. -/
def ScanOf (scanned : ScanResult) : Prop :=
  ∃ input, inputs[k]? = some input ∧ scan sha256 connector input.tree = .ok scanned

/-- The `k`-th poll finds a file at the path. -/
def Present : Prop := ∃ scanned, ScanOf sha256 connector inputs k scanned ∧ path ∈ scanned.presentPaths

/-- The `k`-th poll reads this content at the path. -/
def Readable (content : Bytes) : Prop :=
  ∃ scanned, ScanOf sha256 connector inputs k scanned ∧ scanned.Readable py sha256 connector path content

/-- The `k`-th poll cannot tell what is at the path. -/
def Unresolved : Prop := ∃ scanned, ScanOf sha256 connector inputs k scanned ∧ path ∈ scanned.unresolved

/-- In no category of the scan. -/
def Absent : Prop := ∃ scanned, ScanOf sha256 connector inputs k scanned ∧
  path ∉ scanned.presentPaths ∧ path ∉ scanned.unresolved

/-- The content of a path last read, if the path has stayed since. -/
def LatestContent (content : Bytes) : Prop :=
  ∃ i ≤ k, Readable py sha256 connector inputs i path content ∧ ∀ j, i < j → j ≤ k →
    (Present sha256 connector inputs j path ∧ ∀ bytes, ¬Readable py sha256 connector inputs j path bytes) ∨
      Unresolved sha256 connector inputs j path

end Categories

/-- A path a poll reports as deleted. -/
def Deleted (batches : List Batch) (k : Nat) (locator : String) : Prop :=
  ∃ batch, batches[k]? = some batch ∧ ∃ o ∈ batch.observations,
    o.deletionSignal = .explicitDelete ∧ o.sourceLocator = locator

/-- The cursor a poll of a run is given. -/
def cursorBefore (cursor : Option CursorState) (batches : List Batch) : Nat → Option CursorState
  | 0 => cursor
  | k + 1 => batches[k]?.map (·.successorCursor)

section Mirrors

variable (py : PyText) (sha256 : Bytes → Bytes) (connector : FilesystemConnector)
  (inputs : List PollInput) (batches : List Batch)

/-- The run keeps a mirror of the tree. -/
structure Mirrors : Prop where
  /-- Each payload decodes to the present paths. -/
  decoded : ∀ k batch, batches[k]? = some batch →
    ∃ paths, decodeSnapshot batch.successorCursor.payload = .ok paths ∧
      ∀ path, path ∈ paths ↔ Present sha256 connector inputs k path
  /-- A path that goes is deleted in one poll before it is present again. -/
  deleted_once : ∀ i m path, Present sha256 connector inputs i path → i < m →
    (∀ j, i < j → j < m → ¬Present sha256 connector inputs j path) →
    (m = inputs.length ∨ Present sha256 connector inputs m path) →
    (∃ k, i < k ∧ k < m ∧ Absent sha256 connector inputs k path) →
    ∃! j, i < j ∧ j < m ∧ Deleted batches j (String.ofList path)
  /-- Only a path that has been present and is in no category is deleted. -/
  deleted_gone : ∀ k locator, Deleted batches k locator → ∃ path, locator = String.ofList path ∧
    Absent sha256 connector inputs k path ∧ ∃ i < k, Present sha256 connector inputs i path
  /-- The mirror has the latest content of every path that has stayed. -/
  folded : ∀ k < inputs.length, ∀ path content,
    mirrorAfter batches (k + 1) (String.ofList path) = some content ↔
      LatestContent py sha256 connector inputs k path content
  /-- Each successor is accepted against the state its poll was made from. -/
  accepted : ∀ k input batch, inputs[k]? = some input → batches[k]? = some batch →
    ∃ state, polledFrom connector (cursorBefore none batches k) = .ok state ∧
      validateSuccessor sha256 ⟨input.binding connector, state⟩ batch.successorCursor
        (input.binding connector) = .ok (canonicalCursorDigest sha256 (input.binding connector) state)

/-- No present path has a newline in it. -/
def OneLine : Prop := ∀ k path, Present sha256 connector inputs k path → '\n' ∉ path

/-- No path that was present and has been unresolved since is absent from the next poll. -/
def NotLost : Prop := ∀ i k path, Present sha256 connector inputs i path → i + 1 < k →
  (∀ j, i < j → j < k → Unresolved sha256 connector inputs j path) →
  ¬Absent sha256 connector inputs k path

end Mirrors

/-! ## A run, poll by poll -/

variable {py : PyText} {sha256 : Bytes → Bytes} {connector : FilesystemConnector}
  {inputs : List PollInput} {batches : List Batch} {cursor : Option CursorState}

theorem pollRun_ok (h : pollRun py sha256 connector cursor inputs = .ok batches) :
    batches.length = inputs.length ∧ ∀ k input, inputs[k]? = some input →
      ∃ batch, batches[k]? = some batch ∧
        poll py sha256 connector input (cursorBefore cursor batches k) = .ok batch := by
  induction inputs generalizing cursor batches with
  | nil =>
    cases h
    exact ⟨rfl, fun k input hk => by cases hk⟩
  | cons input inputs ih =>
    simp only [pollRun, bind_eq_ok, pure_eq_ok] at h
    obtain ⟨batch, hbatch, rest, hrest, rfl⟩ := h
    obtain ⟨hlength, hpolls⟩ := ih hrest
    refine ⟨by rw [List.length_cons, List.length_cons, hlength], fun k found hk => ?_⟩
    cases k with
    | zero =>
      cases hk
      exact ⟨batch, rfl, hbatch⟩
    | succ k =>
      obtain ⟨next, hnext, hpoll⟩ := hpolls k found hk
      refine ⟨next, hnext, ?_⟩
      cases k with
      | zero => exact hpoll
      | succ k => exact hpoll

/-- Each poll of a run, with its scan. -/
theorem polled_at (h : pollRun py sha256 connector none inputs = .ok batches) {k : Nat}
    (hk : k < inputs.length) : ∃ batch, batches[k]? = some batch ∧
      ∃ polled : Polled py sha256 connector inputs[k] (cursorBefore none batches k) batch,
        ScanOf sha256 connector inputs k polled.scanned := by
  obtain ⟨batch, hbatch, hpoll⟩ := (pollRun_ok h).2 k inputs[k] (List.getElem?_eq_getElem hk)
  obtain ⟨polled⟩ := poll_ok hpoll
  exact ⟨batch, hbatch, polled, inputs[k], List.getElem?_eq_getElem hk, polled.scan⟩

section Run

variable {k : Nat} {path : RelativePath} {scanned : ScanResult}

theorem ScanOf.lt (h : ScanOf sha256 connector inputs k scanned) : k < inputs.length := by
  obtain ⟨input, hinput, -⟩ := h
  exact (List.getElem?_eq_some_iff.1 hinput).1

theorem ScanOf.unique {scanned' : ScanResult} (h : ScanOf sha256 connector inputs k scanned)
    (h' : ScanOf sha256 connector inputs k scanned') : scanned = scanned' := by
  obtain ⟨input, hinput, hscan⟩ := h
  obtain ⟨input', hinput', hscan'⟩ := h'
  rw [hinput, Option.some.injEq] at hinput'
  subst hinput'
  rw [hscan, Except.ok.injEq] at hscan'
  exact hscan'

theorem ScanOf.present (h : ScanOf sha256 connector inputs k scanned) :
    Present sha256 connector inputs k path ↔ path ∈ scanned.presentPaths := by
  constructor
  · rintro ⟨scanned', h', hpath⟩
    exact h.unique h' ▸ hpath
  · exact fun hpath => ⟨scanned, h, hpath⟩

theorem ScanOf.unresolved (h : ScanOf sha256 connector inputs k scanned) :
    Unresolved sha256 connector inputs k path ↔ path ∈ scanned.unresolved := by
  constructor
  · rintro ⟨scanned', h', hpath⟩
    exact h.unique h' ▸ hpath
  · exact fun hpath => ⟨scanned, h, hpath⟩

theorem ScanOf.readable (h : ScanOf sha256 connector inputs k scanned) {content : Bytes} :
    Readable py sha256 connector inputs k path content ↔
      scanned.Readable py sha256 connector path content := by
  constructor
  · rintro ⟨scanned', h', hpath⟩
    exact h.unique h' ▸ hpath
  · exact fun hpath => ⟨scanned, h, hpath⟩

theorem ScanOf.absent (h : ScanOf sha256 connector inputs k scanned) :
    Absent sha256 connector inputs k path ↔
      path ∉ scanned.presentPaths ∧ path ∉ scanned.unresolved := by
  constructor
  · rintro ⟨scanned', h', hpath⟩
    exact h.unique h' ▸ hpath
  · exact fun hpath => ⟨scanned, h, hpath⟩

theorem ScanOf.wellFormed (h : ScanOf sha256 connector inputs k scanned) : scanned.WellFormed := by
  obtain ⟨input, -, hscan⟩ := h
  exact scan_wellFormed hscan

theorem Readable.present {content : Bytes} (h : Readable py sha256 connector inputs k path content) :
    Present sha256 connector inputs k path := by
  obtain ⟨scanned, hscanned, file, hfile, rfl, -⟩ := h
  exact ⟨scanned, hscanned, List.mem_map_of_mem hfile⟩

theorem ScanOf.not_unresolved (h : ScanOf sha256 connector inputs k scanned)
    (hpresent : path ∈ scanned.presentPaths) : path ∉ scanned.unresolved := by
  intro hpath
  exact (List.nodup_append.1 h.wellFormed.nodup).2.2 path hpresent path hpath rfl

/-- The payload of a successor decodes to the paths of its scan. -/
theorem decoded_scan (hlines : OneLine sha256 connector inputs)
    (hscanned : ScanOf sha256 connector inputs k scanned) :
    ∃ paths, decodeSnapshot (encodeSnapshot scanned.presentPaths) = .ok paths ∧
      ∀ path, path ∈ paths ↔ path ∈ scanned.presentPaths := by
  refine ⟨sortPaths scanned.presentPaths, decodeSnapshot_encodeSnapshot (fun path hpath => ?_)
    (fun path hpath => hlines k path (hscanned.present.2 hpath)), fun path => mem_sortPaths⟩
  exact hscanned.wellFormed.named path (List.mem_append_left _ hpath)

/-- What a poll finds in its cursor: the paths present in the poll before. -/
theorem mem_previous (h : pollRun py sha256 connector none inputs = .ok batches)
    (hlines : OneLine sha256 connector inputs) (hk : k < inputs.length) {batch : Batch}
    (polled : Polled py sha256 connector inputs[k] (cursorBefore none batches k) batch) :
    path ∈ polled.previous ↔ ∃ j, k = j + 1 ∧ Present sha256 connector inputs j path := by
  cases k with
  | zero =>
    have hprevious : (.ok [] : Except PollError (List RelativePath)) = .ok polled.previous :=
      polled.previousPaths
    rw [Except.ok.injEq] at hprevious
    rw [← hprevious]
    refine iff_of_false List.not_mem_nil ?_
    rintro ⟨j, hj, -⟩
    cases hj
  | succ k =>
    obtain ⟨before, hbefore, polledBefore, hscanned⟩ := polled_at h (Nat.lt_of_succ_lt hk)
    have hprevious : previousPaths (batches[k]?.map (·.successorCursor)) = .ok polled.previous :=
      polled.previousPaths
    obtain ⟨paths, hpaths, hmem⟩ := decoded_scan hlines hscanned
    rw [hbefore, Option.map_some, previousPaths, polledBefore.payload, hpaths, Except.ok.injEq]
      at hprevious
    rw [← hprevious, hmem, ← hscanned.present]
    constructor
    · exact fun hpresent => ⟨k, rfl, hpresent⟩
    · rintro ⟨j, hj, hpresent⟩
      cases hj
      exact hpresent

/-- A poll deletes exactly the paths present in the poll before and in no category of its scan. -/
theorem deleted_iff (h : pollRun py sha256 connector none inputs = .ok batches)
    (hlines : OneLine sha256 connector inputs) {locator : String} :
    Deleted batches k locator ↔ ∃ path, locator = String.ofList path ∧
      Absent sha256 connector inputs k path ∧
      ∃ j, k = j + 1 ∧ Present sha256 connector inputs j path := by
  constructor
  · rintro ⟨batch, hbatch, o, ho, hsignal, rfl⟩
    have hk : k < inputs.length := by
      rw [← (pollRun_ok h).1]
      exact (List.getElem?_eq_some_iff.1 hbatch).1
    obtain ⟨batch', hbatch', polled, hscanned⟩ := polled_at h hk
    rw [hbatch, Option.some.injEq] at hbatch'
    subst hbatch'
    rw [polled.observations, List.mem_append] at ho
    rcases ho with ho | ho
    · rw [polled.content_signal o ho] at hsignal
      cases hsignal
    · have hlocator := List.mem_map_of_mem (f := (·.sourceLocator)) ho
      rw [polled.deletion_locators] at hlocator
      obtain ⟨path, hpath, hlocator⟩ := List.mem_map.1 hlocator
      obtain ⟨hprevious, hgone⟩ := mem_missingPaths.1 hpath
      exact ⟨path, hlocator.symm, hscanned.absent.2 hgone, (mem_previous h hlines hk polled).1 hprevious⟩
  · rintro ⟨path, rfl, habsent, hpresent⟩
    obtain ⟨scanned, hscanned, hgone⟩ := habsent
    obtain ⟨batch, hbatch, polled, hscanned'⟩ := polled_at h hscanned.lt
    rw [hscanned.unique hscanned'] at hgone
    have hmissing := mem_missingPaths.2 ⟨(mem_previous h hlines hscanned.lt polled).2 hpresent, hgone⟩
    have hlocator := List.mem_map_of_mem (f := String.ofList) hmissing
    rw [← polled.deletion_locators] at hlocator
    obtain ⟨o, ho, hlocator⟩ := List.mem_map.1 hlocator
    refine ⟨batch, hbatch, o, ?_, polled.deletion_signal o ho, hlocator⟩
    rw [polled.observations]
    exact List.mem_append_right _ ho

/-! ## The fold -/

theorem applyObservation_of_ne {mirror : String → Option Bytes} {o : Observation} {locator : String}
    (h : o.sourceLocator ≠ locator) : applyObservation mirror o locator = mirror locator := by
  unfold applyObservation
  cases o.deletionSignal with
  | none => exact Function.update_of_ne h.symm ..
  | explicitDelete => exact Function.update_of_ne h.symm ..
  | absentFromWindow => rfl

theorem applyObservation_congr {mirror mirror' : String → Option Bytes} {o : Observation}
    (h : mirror o.sourceLocator = mirror' o.sourceLocator) :
    applyObservation mirror o o.sourceLocator = applyObservation mirror' o o.sourceLocator := by
  unfold applyObservation
  cases o.deletionSignal with
  | none => simp
  | explicitDelete => simp
  | absentFromWindow => exact h

theorem fold_of_not_mem {mirror : String → Option Bytes} {observations : List Observation}
    {locator : String} (h : locator ∉ observations.map (·.sourceLocator)) :
    observations.foldl applyObservation mirror locator = mirror locator := by
  induction observations generalizing mirror with
  | nil => rfl
  | cons o observations ih =>
    rw [List.map_cons, List.mem_cons, not_or] at h
    rw [List.foldl_cons, ih h.2, applyObservation_of_ne (Ne.symm h.1)]

/-- Of observations of distinct locators, each decides its own. -/
theorem fold_of_mem {mirror : String → Option Bytes} {observations : List Observation} {o : Observation}
    (hnodup : (observations.map (·.sourceLocator)).Nodup) (ho : o ∈ observations) :
    observations.foldl applyObservation mirror o.sourceLocator =
      applyObservation mirror o o.sourceLocator := by
  induction observations generalizing mirror with
  | nil => cases ho
  | cons first observations ih =>
    rw [List.map_cons, List.nodup_cons] at hnodup
    rw [List.foldl_cons]
    rcases List.mem_cons.1 ho with rfl | ho
    · exact fold_of_not_mem hnodup.1
    · rw [ih hnodup.2 ho]
      have hne : first.sourceLocator ≠ o.sourceLocator :=
        fun heq => hnodup.1 (heq ▸ List.mem_map_of_mem ho)
      exact applyObservation_congr (applyObservation_of_ne hne)

theorem Polled.nodup {input : PollInput} {batch : Batch}
    (h : Polled py sha256 connector input cursor batch) (hwell : h.scanned.WellFormed) :
    (batch.observations.map (·.sourceLocator)).Nodup := by
  have hpresent : (h.scanned.presentPaths.map String.ofList).Nodup :=
    (List.nodup_append.1 hwell.nodup).1.map fun _ _ h => String.ofList_injective h
  have hmissing : (missingPaths h.previous h.scanned).Nodup :=
    (perm_sortBy _).nodup_iff.2 ((List.nodup_dedup _).filter _)
  rw [h.observations, List.map_append, h.deletion_locators, List.nodup_append]
  refine ⟨hpresent.sublist h.content_locators, hmissing.map (fun _ _ h => String.ofList_injective h), ?_⟩
  rintro locator hcontent _ hdeleted rfl
  obtain ⟨path, hpath, heq⟩ := List.mem_map.1 (h.content_locators.subset hcontent)
  obtain ⟨gone, hgone, heq'⟩ := List.mem_map.1 hdeleted
  obtain rfl := String.ofList_injective (heq.trans heq'.symm)
  exact (mem_missingPaths.1 hgone).2.1 hpath

theorem mirrorAfter_succ {batch : Batch} (hbatch : batches[k]? = some batch) :
    mirrorAfter batches (k + 1) = batch.observations.foldl applyObservation (mirrorAfter batches k) := by
  unfold mirrorAfter
  rw [List.take_add_one, hbatch, Option.toList_some, List.flatMap_append, List.flatMap_singleton,
    List.foldl_append]

/-- What one poll does to the mirror at a path. -/
theorem mirror_step (h : pollRun py sha256 connector none inputs = .ok batches)
    (hk : k < inputs.length) (content : Bytes) :
    mirrorAfter batches (k + 1) (String.ofList path) = some content ↔
      Readable py sha256 connector inputs k path content ∨
        (∀ bytes, ¬Readable py sha256 connector inputs k path bytes) ∧
          ¬Deleted batches k (String.ofList path) ∧
          mirrorAfter batches k (String.ofList path) = some content := by
  obtain ⟨batch, hbatch, polled, hscanned⟩ := polled_at h hk
  have hnodup := polled.nodup hscanned.wellFormed
  rw [mirrorAfter_succ hbatch]
  by_cases hmem : String.ofList path ∈ batch.observations.map (·.sourceLocator)
  · obtain ⟨o, ho, hlocator⟩ := List.mem_map.1 hmem
    rw [← hlocator, fold_of_mem hnodup ho]
    have hsplit := ho
    rw [polled.observations, List.mem_append] at hsplit
    rcases hsplit with hcontent | hdeletion
    · obtain ⟨bytes, hbytes⟩ := polled.content_some o hcontent
      have hread : Readable py sha256 connector inputs k path bytes :=
        hscanned.readable.2 ((polled.content_readable path bytes).2 ⟨o, hcontent, hlocator, hbytes⟩)
      unfold applyObservation
      rw [polled.content_signal o hcontent]
      simp only [Function.update_self, hbytes, Option.some.injEq]
      constructor
      · rintro rfl
        exact .inl hread
      · rintro (hread' | ⟨hnone, -⟩)
        · obtain ⟨o', ho', hlocator', hbytes'⟩ :=
            (polled.content_readable path content).1 (hscanned.readable.1 hread')
          have hsame : o' = o := by
            refine List.inj_on_of_nodup_map hnodup ?_ ho (hlocator'.trans hlocator.symm)
            rw [polled.observations]
            exact List.mem_append_left _ ho'
          rw [hsame, hbytes] at hbytes'
          exact Option.some.inj hbytes'
        · exact absurd hread (hnone bytes)
    · have hsignal := polled.deletion_signal o hdeletion
      have hgone : Deleted batches k o.sourceLocator := ⟨batch, hbatch, o, ho, hsignal, rfl⟩
      unfold applyObservation
      rw [hsignal]
      simp only [Function.update_self]
      refine iff_of_false (fun h => by cases h) ?_
      rintro (hread | ⟨-, hnot, -⟩)
      · obtain ⟨o', ho', hlocator', -⟩ :=
          (polled.content_readable path content).1 (hscanned.readable.1 hread)
        have hsame : o' = o := by
          refine List.inj_on_of_nodup_map hnodup ?_ ho (hlocator'.trans hlocator.symm)
          rw [polled.observations]
          exact List.mem_append_left _ ho'
        rw [← hsame, polled.content_signal o' ho'] at hsignal
        cases hsignal
      · exact hnot hgone
  · rw [fold_of_not_mem hmem]
    have hnotRead : ∀ bytes, ¬Readable py sha256 connector inputs k path bytes := by
      intro bytes hread
      obtain ⟨o, ho, hlocator, -⟩ := (polled.content_readable path bytes).1 (hscanned.readable.1 hread)
      refine hmem (List.mem_map.2 ⟨o, ?_, hlocator⟩)
      rw [polled.observations]
      exact List.mem_append_left _ ho
    have hnotDeleted : ¬Deleted batches k (String.ofList path) := by
      rintro ⟨batch', hbatch', o, ho, -, hlocator⟩
      rw [hbatch, Option.some.injEq] at hbatch'
      subst hbatch'
      exact hmem (List.mem_map.2 ⟨o, ho, hlocator⟩)
    constructor
    · exact fun hmirror => .inr ⟨hnotRead, hnotDeleted, hmirror⟩
    · rintro (hread | ⟨-, -, hmirror⟩)
      · exact absurd hread (hnotRead content)
      · exact hmirror

/-! ## The history of one path -/

theorem present_or_absent (hk : k < inputs.length)
    (h : pollRun py sha256 connector none inputs = .ok batches) :
    Present sha256 connector inputs k path ∨ Unresolved sha256 connector inputs k path ∨
      Absent sha256 connector inputs k path := by
  obtain ⟨_, _, polled, hscanned⟩ := polled_at h hk
  rw [hscanned.present, hscanned.unresolved, hscanned.absent]
  tauto

theorem Absent.not_present (h : Absent sha256 connector inputs k path) :
    ¬Present sha256 connector inputs k path := by
  obtain ⟨scanned, hscanned, hgone⟩ := h
  rw [hscanned.present]
  exact hgone.1

theorem Absent.not_unresolved (h : Absent sha256 connector inputs k path) :
    ¬Unresolved sha256 connector inputs k path := by
  obtain ⟨scanned, hscanned, hgone⟩ := h
  rw [hscanned.unresolved]
  exact hgone.2

theorem Unresolved.not_present (h : Unresolved sha256 connector inputs k path) :
    ¬Present sha256 connector inputs k path := by
  obtain ⟨scanned, hscanned, hpath⟩ := h
  rw [hscanned.present]
  exact fun hpresent => hscanned.not_unresolved hpresent hpath

/-- A path that goes after it was present goes in the very next poll. -/
theorem absent_next (h : pollRun py sha256 connector none inputs = .ok batches)
    (hkept : NotLost sha256 connector inputs) {i : Nat} (hi : Present sha256 connector inputs i path)
    (hik : i < k) (hnot : ∀ j, i < j → j < k → ¬Present sha256 connector inputs j path)
    (habsent : Absent sha256 connector inputs k path) : Absent sha256 connector inputs (i + 1) path := by
  induction k using Nat.strong_induction_on with
  | _ k ih =>
    rcases Nat.eq_or_lt_of_le (Nat.succ_le_of_lt hik) with rfl | hlt
    · exact habsent
    -- some poll in between finds the path absent, or the path is lost
    by_cases hearlier : ∃ j, i < j ∧ j < k ∧ Absent sha256 connector inputs j path
    · obtain ⟨j, hij, hjk, hj⟩ := hearlier
      exact ih j hjk hij (fun l hil hlj => hnot l hil (hlj.trans hjk)) hj
    · refine absurd habsent (hkept i k path hi hlt fun j hij hjk => ?_)
      have hlength : j < inputs.length := by
        obtain ⟨scanned, hscanned, -⟩ := habsent
        exact hjk.trans hscanned.lt
      rcases present_or_absent hlength h with hpresent | hunresolved | hgone
      · exact absurd hpresent (hnot j hij hjk)
      · exact hunresolved
      · exact absurd ⟨j, hij, hjk, hgone⟩ hearlier

/-- The last poll a path that has stayed was present in. -/
theorem last_present {i : Nat} (hi : Present sha256 connector inputs i path) (hik : i ≤ k)
    (hstay : ∀ j, i < j → j ≤ k →
      Present sha256 connector inputs j path ∨ Unresolved sha256 connector inputs j path) :
    ∃ l ≤ k, Present sha256 connector inputs l path ∧
      ∀ j, l < j → j ≤ k → Unresolved sha256 connector inputs j path := by
  induction k with
  | zero => exact ⟨0, le_rfl, Nat.le_zero.1 hik ▸ hi, fun j hj hle => by omega⟩
  | succ k ih =>
    rcases Nat.eq_or_lt_of_le hik with rfl | hlt
    · exact ⟨_, le_rfl, hi, fun j hj hle => by omega⟩
    rcases hstay (k + 1) hlt le_rfl with hpresent | hunresolved
    · exact ⟨k + 1, le_rfl, hpresent, fun j hj hle => by omega⟩
    · obtain ⟨l, hlk, hl, hunresolved'⟩ := ih (Nat.le_of_lt_succ hlt) fun j hij hjk =>
        hstay j hij (Nat.le_succ_of_le hjk)
      refine ⟨l, Nat.le_succ_of_le hlk, hl, fun j hlj hjk => ?_⟩
      rcases Nat.le_succ_iff.1 hjk with hle | rfl
      · exact hunresolved' j hlj hle
      · exact hunresolved

theorem latestContent_zero {content : Bytes} : LatestContent py sha256 connector inputs 0 path content ↔
    Readable py sha256 connector inputs 0 path content := by
  constructor
  · rintro ⟨i, hi, hread, -⟩
    exact Nat.le_zero.1 hi ▸ hread
  · exact fun hread => ⟨0, le_rfl, hread, fun j hj hle => by omega⟩

theorem latestContent_succ {content : Bytes} :
    LatestContent py sha256 connector inputs (k + 1) path content ↔
      Readable py sha256 connector inputs (k + 1) path content ∨
        (∀ bytes, ¬Readable py sha256 connector inputs (k + 1) path bytes) ∧
          (Present sha256 connector inputs (k + 1) path ∨
            Unresolved sha256 connector inputs (k + 1) path) ∧
          LatestContent py sha256 connector inputs k path content := by
  constructor
  · rintro ⟨i, hi, hread, hstay⟩
    rcases Nat.le_succ_iff.1 hi with hle | rfl
    · right
      have hlast := hstay (k + 1) (Nat.lt_succ_of_le hle) le_rfl
      refine ⟨fun bytes hbytes => ?_, hlast.imp_left And.left, i, hle, hread, fun j hij hjk =>
        hstay j hij (Nat.le_succ_of_le hjk)⟩
      rcases hlast with ⟨-, hnone⟩ | hunresolved
      · exact hnone bytes hbytes
      · exact hunresolved.not_present hbytes.present
    · exact .inl hread
  · rintro (hread | ⟨hnone, hlast, i, hi, hread, hstay⟩)
    · exact ⟨k + 1, le_rfl, hread, fun j hj hle => by omega⟩
    · refine ⟨i, Nat.le_succ_of_le hi, hread, fun j hij hjk => ?_⟩
      rcases Nat.le_succ_iff.1 hjk with hle | rfl
      · exact hstay j hij hle
      · exact hlast.imp_left fun hpresent => ⟨hpresent, hnone⟩

/-- A path that has stayed until the poll before is deleted by this one exactly when it goes. -/
theorem LatestContent.not_deleted (h : pollRun py sha256 connector none inputs = .ok batches)
    (hlines : OneLine sha256 connector inputs) (hkept : NotLost sha256 connector inputs)
    (hk : k + 1 < inputs.length) {content : Bytes}
    (hlatest : LatestContent py sha256 connector inputs k path content) :
    ¬Deleted batches (k + 1) (String.ofList path) ↔
      Present sha256 connector inputs (k + 1) path ∨ Unresolved sha256 connector inputs (k + 1) path := by
  constructor
  · intro hnot
    rcases present_or_absent hk h with hpresent | hunresolved | hgone
    · exact .inl hpresent
    · exact .inr hunresolved
    · obtain ⟨i, hi, hread, hstay⟩ := hlatest
      obtain ⟨l, hlk, hl, hunresolved⟩ := last_present hread.present hi fun j hij hjk =>
        (hstay j hij hjk).imp_left And.left
      rcases Nat.eq_or_lt_of_le hlk with rfl | hlt
      · exact absurd ((deleted_iff h hlines).2 ⟨path, rfl, hgone, l, rfl, hl⟩) hnot
      · refine absurd hgone (hkept l (k + 1) path hl (Nat.succ_lt_succ hlt) fun j hlj hjk => ?_)
        exact hunresolved j hlj (Nat.le_of_lt_succ hjk)
  · rintro hstay hdeleted
    obtain ⟨path', heq, hgone, -⟩ := (deleted_iff h hlines).1 hdeleted
    rw [String.ofList_injective heq] at hstay
    rcases hstay with hpresent | hunresolved
    · exact hgone.not_present hpresent
    · exact hgone.not_unresolved hunresolved

end Run

/-! ## The mirror -/

theorem folded_of_kept (h : pollRun py sha256 connector none inputs = .ok batches)
    (hlines : OneLine sha256 connector inputs) (hkept : NotLost sha256 connector inputs) (k : Nat)
    (hk : k < inputs.length) (path : RelativePath) (content : Bytes) :
    mirrorAfter batches (k + 1) (String.ofList path) = some content ↔
      LatestContent py sha256 connector inputs k path content := by
  induction k with
  | zero =>
    rw [mirror_step h hk, latestContent_zero]
    refine ⟨?_, .inl⟩
    rintro (hread | ⟨-, -, hnone⟩)
    · exact hread
    · cases hnone
  | succ k ih =>
    have hbefore := ih (Nat.lt_of_succ_lt hk)
    rw [mirror_step h hk, latestContent_succ, hbefore]
    refine or_congr_right (and_congr_right fun _ => ?_)
    exact and_congr_left fun hlatest => hlatest.not_deleted h hlines hkept hk

theorem deleted_once_of_kept (h : pollRun py sha256 connector none inputs = .ok batches)
    (hlines : OneLine sha256 connector inputs) (hkept : NotLost sha256 connector inputs) {i m : Nat}
    {path : RelativePath} (hi : Present sha256 connector inputs i path)
    (hnot : ∀ j, i < j → j < m → ¬Present sha256 connector inputs j path)
    (hgone : ∃ k, i < k ∧ k < m ∧ Absent sha256 connector inputs k path) :
    ∃! j, i < j ∧ j < m ∧ Deleted batches j (String.ofList path) := by
  obtain ⟨k, hik, hkm, habsent⟩ := hgone
  have hnext := absent_next h hkept hi hik (fun j hij hjk => hnot j hij (hjk.trans hkm)) habsent
  refine ⟨i + 1, ⟨Nat.lt_succ_self i, by omega,
    (deleted_iff h hlines).2 ⟨path, rfl, hnext, i, rfl, hi⟩⟩, ?_⟩
  rintro j ⟨hij, hjm, hdeleted⟩
  obtain ⟨path', heq, -, l, rfl, hl⟩ := (deleted_iff h hlines).1 hdeleted
  obtain rfl := String.ofList_injective heq
  by_contra hne
  exact hnot l (by omega) (by omega) hl

theorem oneLine_of_mirrors (h : pollRun py sha256 connector none inputs = .ok batches)
    (hmirrors : Mirrors py sha256 connector inputs batches) : OneLine sha256 connector inputs := by
  intro k path hpresent
  obtain ⟨scanned, hscanned, -⟩ := id hpresent
  obtain ⟨batch, hbatch, -⟩ := polled_at h hscanned.lt
  obtain ⟨paths, hpaths, hmem⟩ := hmirrors.decoded k batch hbatch
  exact not_mem_of_decodeSnapshot hpaths path ((hmem path).2 hpresent)

theorem notLost_of_mirrors (h : pollRun py sha256 connector none inputs = .ok batches)
    (hmirrors : Mirrors py sha256 connector inputs batches) : NotLost sha256 connector inputs := by
  have hlines := oneLine_of_mirrors h hmirrors
  intro i k path hi hik hunresolved habsent
  have hk : k < inputs.length := by
    obtain ⟨scanned, hscanned, -⟩ := id habsent
    exact hscanned.lt
  -- the next poll the path is present in, or the end of the run
  have hend : ∃ m, i < m ∧ (m = inputs.length ∨ Present sha256 connector inputs m path) :=
    ⟨inputs.length, by omega, .inl rfl⟩
  classical
  have hm := Nat.find_spec hend
  have hnot : ∀ j, i < j → j < Nat.find hend → ¬Present sha256 connector inputs j path :=
    fun j hij hjm hpresent => Nat.find_min hend hjm ⟨hij, .inr hpresent⟩
  have hkm : k < Nat.find hend := by
    by_contra hle
    rcases hm.2 with hlength | hpresent
    · omega
    · rcases Nat.lt_or_eq_of_le (not_lt.1 hle) with hlt | heq
      · exact (hunresolved _ hm.1 hlt).not_present hpresent
      · exact habsent.not_present (heq ▸ hpresent)
  obtain ⟨j, ⟨hij, hjm, hdeleted⟩, -⟩ :=
    hmirrors.deleted_once i _ path hi hm.1 hnot hm.2 ⟨k, by omega, hkm, habsent⟩
  obtain ⟨path', heq, hgone, l, rfl, hl⟩ := (deleted_iff h hlines).1 hdeleted
  obtain rfl := String.ofList_injective heq
  by_cases hil : i = l
  · subst hil
    exact hgone.not_unresolved (hunresolved _ (Nat.lt_succ_self i) hik)
  · exact hnot l (by omega) (by omega) hl

/-- A run whose polls all answer keeps a mirror of its tree exactly when no present path has a newline
in it and no path that was present and has been unresolved since is absent from the next poll. -/
theorem mirrors_iff (py : PyText) (sha256 : Bytes → Bytes) (connector : FilesystemConnector)
    (inputs : List PollInput) (batches : List Batch)
    (h : pollRun py sha256 connector none inputs = .ok batches) :
    Mirrors py sha256 connector inputs batches ↔
      OneLine sha256 connector inputs ∧ NotLost sha256 connector inputs := by
  constructor
  · exact fun hmirrors => ⟨oneLine_of_mirrors h hmirrors, notLost_of_mirrors h hmirrors⟩
  · rintro ⟨hlines, hkept⟩
    refine ⟨fun k batch hbatch => ?_, fun i m path hi _ hnot _ hgone =>
      deleted_once_of_kept h hlines hkept hi hnot hgone, fun k locator hdeleted => ?_,
      folded_of_kept h hlines hkept, fun k input batch hinput hbatch => ?_⟩
    · have hk : k < inputs.length := (pollRun_ok h).1 ▸ (List.getElem?_eq_some_iff.1 hbatch).1
      obtain ⟨batch', hbatch', polled, hscanned⟩ := polled_at h hk
      rw [hbatch, Option.some.injEq] at hbatch'
      subst hbatch'
      obtain ⟨paths, hpaths, hmem⟩ := decoded_scan hlines hscanned
      refine ⟨paths, by rw [polled.payload, hpaths], fun path => ?_⟩
      rw [hmem, hscanned.present]
    · obtain ⟨path, heq, hgone, j, rfl, hj⟩ := (deleted_iff h hlines).1 hdeleted
      exact ⟨path, heq, hgone, j, Nat.lt_succ_self j, hj⟩
    · obtain ⟨hk, rfl⟩ := List.getElem?_eq_some_iff.1 hinput
      obtain ⟨batch', hbatch', polled, -⟩ := polled_at h hk
      rw [hbatch, Option.some.injEq] at hbatch'
      subst hbatch'
      exact polled.accepted

/-! ## Two runs over one file -/

/-- Python's text methods on ASCII. -/
def asciiText : PyText where
  isPrintable text := text.all fun c => 32 ≤ c.toNat && c.toNat ≤ 126
  lower text := text.map Char.toLower
  repr text := ['\''] ++ text ++ ['\'']

/-- The message of a cursor's digest in the runs below. -/
def cursorMessage (payload witness predecessor : Bytes) : Bytes :=
  [CURSOR_DIGEST_DOMAIN_TAG, encodeText "workspace", encodeText "local.filesystem", encodeText "1",
    payload, witness, predecessor].flatMap frame

/-- SHA-256 on the messages of the runs below. -/
def treeDigest : Bytes → Bytes :=
  let first := 0x1136326a36bb3d1be3013d4f57c7b1563c21e8531ceadb52dc4bc005fd457943
  let second := 0xdd525414bfcfafb8e4083e3584121d3dcde7f98395b16808f3a5da9590722d5e
  knownHash [(encodeText "a.txt", 0x18b7cb099a9ea3f50ba899b5ba81e0d377a5f3b16f8f6eeb8b3e58cd4692b993),
    (encodeText "hi", 0x8f434346648f6b96df89dda901c5176b10a6d83961dd3c1ac88b59b2dc327aa4),
    (cursorMessage [] (encodeText "0") [], first),
    (cursorMessage (encodeText "YS50eHQ") (encodeText "0") (bigEndian 32 first), second),
    (cursorMessage [] (encodeText "1") (bigEndian 32 second),
      0x4e6c5ab3e07c834661af3534e4ed8a0b2753e1216a81cd4e1f9bcb55ba377e1e)]

/-- The connector with its defaults. -/
def localFilesystem : FilesystemConnector where
  connectorId := "local.filesystem"
  stateVersion := 1
  supportedStateVersions := [1]
  maxItemBytes := 1048576
  maxPathLength := 512
  maxFiles := 4096
  maxTreeBytes := 67108864
  connectorId_valid := by decide +kernel

/-- A tree of one file, or of one symlink in its place. -/
def oneFile (symlink : Bool) : Tree where
  walk := [some { directories := [], files := [{
    relative := CanonicalJson.ofChars "a.txt".toList
    symlink
    resolution := .inPlace
    status := some ⟨true, 2⟩
    reading := some ⟨true, [104, 105], 1⟩ }] }]
  distinct := by simp [Listing.paths]
  named := by simp [Listing.paths, CanonicalJson.ofChars]

def emptyTree : Tree where
  walk := [some ⟨[], []⟩]
  distinct := by simp [Listing.paths]
  named := by simp [Listing.paths]

def pollOf (tree : Tree) : PollInput where
  workspaceId := "workspace"
  cancelledBefore := false
  cancelledDuring := false
  rootSymlink := false
  tree
  workspaceId_valid := by decide +kernel

theorem scan_oneFile : scan treeDigest localFilesystem (oneFile false) =
    .ok ⟨[⟨"a.txt".toList, 2, some ⟨true, [104, 105], 1⟩⟩], [], []⟩ := by decide +kernel

theorem scan_emptyTree : scan treeDigest localFilesystem emptyTree = .ok ⟨[], [], []⟩ := by
  decide +kernel

/-- A file that goes and comes back. -/
theorem mirrors_returning : ∃ batches,
    pollRun asciiText treeDigest localFilesystem none
      [pollOf (oneFile false), pollOf emptyTree, pollOf (oneFile false)] = .ok batches ∧
    Mirrors asciiText treeDigest localFilesystem
      [pollOf (oneFile false), pollOf emptyTree, pollOf (oneFile false)] batches := by
  have hanswers : (pollRun asciiText treeDigest localFilesystem none
      [pollOf (oneFile false), pollOf emptyTree, pollOf (oneFile false)]).isOk = true := by
    decide +kernel
  obtain ⟨batches, hrun⟩ := exists_ok_of_isOk hanswers
  refine ⟨batches, hrun, (mirrors_iff _ _ _ _ _ hrun).2 ?_⟩
  have hscans : ∀ k scanned, ScanOf treeDigest localFilesystem
      [pollOf (oneFile false), pollOf emptyTree, pollOf (oneFile false)] k scanned →
        scanned.unresolved = [] ∧ ∀ path ∈ scanned.presentPaths, path = "a.txt".toList := by
    rintro (_ | _ | _ | k) scanned ⟨input, hinput, hscan⟩
    · cases hinput
      cases scan_oneFile.symm.trans hscan
      exact ⟨rfl, fun path hpath => List.mem_singleton.1 hpath⟩
    · cases hinput
      cases scan_emptyTree.symm.trans hscan
      exact ⟨rfl, fun path hpath => absurd hpath List.not_mem_nil⟩
    · cases hinput
      cases scan_oneFile.symm.trans hscan
      exact ⟨rfl, fun path hpath => List.mem_singleton.1 hpath⟩
    · cases hinput
  constructor
  · rintro k path ⟨scanned, hscanned, hpath⟩
    rw [(hscans k scanned hscanned).2 path hpath]
    decide
  · intro i k path _ hik hunresolved _
    obtain ⟨scanned, hscanned, hpath⟩ := hunresolved (i + 1) (Nat.lt_succ_self i) hik
    rw [(hscans _ scanned hscanned).1] at hpath
    cases hpath

/-- A file that is a symlink in one poll and gone in the next is never reported as deleted. -/
theorem not_mirrors_vanishing : ∃ batches,
    pollRun asciiText treeDigest localFilesystem none
      [pollOf (oneFile false), pollOf (oneFile true), pollOf emptyTree] = .ok batches ∧
    ¬Mirrors asciiText treeDigest localFilesystem
      [pollOf (oneFile false), pollOf (oneFile true), pollOf emptyTree] batches := by
  have hanswers : (pollRun asciiText treeDigest localFilesystem none
      [pollOf (oneFile false), pollOf (oneFile true), pollOf emptyTree]).isOk = true := by
    decide +kernel
  obtain ⟨batches, hrun⟩ := exists_ok_of_isOk hanswers
  have hsymlink : (scan treeDigest localFilesystem (oneFile true)).map (·.unresolved) =
      .ok ["a.txt".toList] := by decide +kernel
  obtain ⟨scanned, hscanned, hunresolved⟩ := except_map_eq_ok.1 hsymlink
  refine ⟨batches, hrun, fun hmirrors => ?_⟩
  refine notLost_of_mirrors hrun hmirrors 0 2 "a.txt".toList ?_ (by decide) ?_ ?_
  · exact ⟨_, ⟨_, rfl, scan_oneFile⟩, List.mem_singleton.2 rfl⟩
  · intro j hj hle
    obtain rfl : j = 1 := by omega
    exact ⟨scanned, ⟨_, rfl, hscanned⟩, hunresolved ▸ List.mem_singleton.2 rfl⟩
  · exact ⟨_, ⟨_, rfl, scan_emptyTree⟩, List.not_mem_nil, List.not_mem_nil⟩

end OmniviaCore.Connector
