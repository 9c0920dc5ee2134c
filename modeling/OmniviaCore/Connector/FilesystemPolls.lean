import OmniviaCore.Connector.Filesystem

/-!
# What a poll reports

The paths a scan returns name distinct entries of the tree (`scan_wellFormed`). A poll that answers
observes the content of the files it could read, reports as deleted exactly the paths of the cursor's
snapshot that the scan has in neither of its categories, and hands on a successor that the host accepts
(`Polled`).
-/

namespace OmniviaCore.Connector

open Lib CanonicalJson

variable {py : PyText} {sha256 : Bytes → Bytes} {connector : FilesystemConnector}

/-! ## The scan -/

namespace ScanResult

variable (scanned : ScanResult)

/-- The paths a scan has a file at. -/
def presentPaths : List RelativePath := scanned.files.map (·.relativePath)

/-- Every path is in one category once, and none is empty. -/
structure WellFormed : Prop where
  nodup : (scanned.presentPaths ++ scanned.unresolved).Nodup
  named : ∀ path ∈ scanned.presentPaths ++ scanned.unresolved, path ≠ []

end ScanResult

def Scanned.path : Scanned → RelativePath
  | .file scanned => scanned.relativePath
  | .unresolved path _ => path

theorem encodable_ok {relative : Str} {path : RelativePath} (h : encodable relative = .ok path) :
    ofChars path = relative := by
  unfold encodable at h
  split at h
  · cases h
  next chars hchars =>
    cases h
    exact (toChars_eq_some.1 hchars).symm

theorem scanFile_path {entry : FileEntry} {s : Scanned} (h : scanFile sha256 connector entry = .ok s) :
    ofChars s.path = entry.relative := by
  unfold scanFile at h
  simp only [bind_eq_ok] at h
  obtain ⟨path, hpath, h⟩ := h
  split at h
  · simp only [bind_eq_ok, pure_eq_ok] at h
    obtain ⟨_, -, rfl⟩ := h
    exact encodable_ok hpath
  · cases h
    exact encodable_ok hpath

theorem scanDirectory_path {directory : Str × Bool} {found : Option (RelativePath × ItemFailure)}
    (h : scanDirectory sha256 directory = .ok found) : ∀ p ∈ found, ofChars p.1 = directory.1 := by
  unfold scanDirectory at h
  split at h
  · cases h
    exact fun p hp => by cases hp
  · simp only [bind_eq_ok, pure_eq_ok] at h
    obtain ⟨path, hpath, _, -, rfl⟩ := h
    intro p hp
    cases hp
    exact encodable_ok hpath

/-- The paths of the files and the unresolved ones are the paths scanned. -/
theorem scanned_perm (files : List Scanned) :
    ((files.filterMap Scanned.file?).map (·.relativePath) ++
      files.filterMap Scanned.unresolved?).Perm (files.map Scanned.path) := by
  induction files with
  | nil => exact .nil
  | cons s files ih =>
    cases s with
    | file scanned => exact ih.cons _
    | unresolved path failure => exact List.perm_middle.trans (ih.cons _)

theorem scannedFiles_perm {entries : List FileEntry} {files : List Scanned}
    (h : List.Forall₂ (fun entry s => scanFile sha256 connector entry = .ok s) entries files) :
    (files.map Scanned.path).map ofChars = entries.map (·.relative) := by
  induction h with
  | nil => rfl
  | cons hs _ ih => rw [List.map_cons, List.map_cons, List.map_cons, ih, scanFile_path hs]

theorem scannedDirectories_sublist {directories : List (Str × Bool)}
    {found : List (Option (RelativePath × ItemFailure))}
    (h : List.Forall₂ (fun d p => scanDirectory sha256 d = .ok p) directories found) :
    ((found.filterMap (·.map Prod.fst)).map ofChars).Sublist (directories.map Prod.fst) := by
  induction h with
  | nil => exact .slnil
  | @cons directory found _ _ hfound _ ih =>
    cases found with
    | none => exact ih.cons _
    | some p =>
      have hpath : ofChars p.1 = directory.1 := scanDirectory_path hfound p rfl
      simp only [List.filterMap_cons, Option.map_some, List.map_cons, hpath]
      exact ih.cons_cons _

theorem perm_sortNames {α : Type} {name : α → Str} (entries : List α) :
    (sortNames name entries).Perm entries := perm_sortBy _

/-- The paths of a scan are paths of the tree, each as often at most. -/
theorem scanFrom_subperm {walk : List (Option Listing)} {seen : Nat} {result : ScanResult}
    (h : scanFrom sha256 connector seen walk = .ok result) :
    ((result.presentPaths ++ result.unresolved).map ofChars).Subperm
      ((walk.flatMap Option.toList).flatMap Listing.paths) := by
  induction walk generalizing seen result with
  | nil =>
    cases h
    exact List.nil_subperm
  | cons listing walk ih =>
    cases listing with
    | none => cases h
    | some listing =>
      simp only [scanFrom, bind_eq_ok, require_eq_ok, exists_unit, pure_eq_ok, mapM_eq_ok] at h
      obtain ⟨-, directories, hdirectories, files, hfiles, rest, hrest, rfl⟩ := h
      have hlisting : (((directories.filterMap (·.map Prod.fst)).map ofChars) ++
          (files.map Scanned.path).map ofChars).Subperm listing.paths := by
        rw [scannedFiles_perm hfiles]
        exact ((scannedDirectories_sublist hdirectories).subperm.trans
          ((perm_sortNames _).map _).subperm).append ((perm_sortNames _).map _).subperm
      have hsplit : (((rest.add directories files).presentPaths ++
          (rest.add directories files).unresolved).map ofChars).Perm
          ((((directories.filterMap (·.map Prod.fst)).map ofChars) ++
            (files.map Scanned.path).map ofChars) ++
            (rest.presentPaths ++ rest.unresolved).map ofChars) := by
        rw [← List.map_append, ← List.map_append]
        refine List.Perm.map _ ?_
        simp only [ScanResult.presentPaths, ScanResult.add, List.map_append]
        rw [List.perm_iff_count]
        intro path
        have hcount := (scanned_perm files).count_eq path
        simp only [List.count_append] at hcount ⊢
        omega
      exact hsplit.subperm.trans (hlisting.append (ih hrest))

/-- A scan of a tree puts no path in two categories. -/
theorem scan_wellFormed {tree : Tree} {result : ScanResult}
    (h : scan sha256 connector tree = .ok result) : result.WellFormed := by
  unfold scan at h
  simp only [bind_eq_ok, pure_eq_ok] at h
  obtain ⟨found, hfound, rfl⟩ := h
  have hsub := scanFrom_subperm hfound
  have hperm : (ScanResult.presentPaths { found with
      files := sortBy (fun file => file.relativePath.map Char.toNat) found.files } ++
        found.unresolved).Perm (found.presentPaths ++ found.unresolved) :=
    ((perm_sortBy _).map _).append_right _
  constructor
  · refine hperm.nodup_iff.2 ?_
    obtain ⟨l, hl, hsublist⟩ := hsub
    exact (hl.nodup_iff.1 (tree.distinct.sublist hsublist)).of_map
  · intro path hpath
    have hmem := hsub.subset (List.mem_map_of_mem (hperm.mem_iff.1 hpath))
    intro hnil
    exact tree.named _ hmem (by rw [hnil]; rfl)

/-! ## The observations -/

/-- A file of the scan whose content the poll could read. -/
def ScanResult.Readable (py : PyText) (sha256 : Bytes → Bytes) (connector : FilesystemConnector)
    (scanned : ScanResult) (path : RelativePath) (content : Bytes) : Prop :=
  ∃ file ∈ scanned.files, file.relativePath = path ∧
    ∃ o, readItem py sha256 connector file = .ok (.inl o) ∧ o.content = some content

theorem observe_ok {path : RelativePath} {observedAtUs : Int} {mediaType : Option String}
    {content : Option Bytes} {signal : DeletionSignal} {o : Observation}
    (h : observe py sha256 path observedAtUs mediaType content signal = .ok o) :
    o.sourceLocator = String.ofList path ∧ o.content = content ∧ o.deletionSignal = signal := by
  unfold observe at h
  simp only [bind_eq_ok, require_eq_ok, exists_unit, pure_eq_ok] at h
  obtain ⟨-, -, -, -, -, rfl⟩ := h
  exact ⟨rfl, rfl, rfl⟩

theorem observed_locators {paths : List RelativePath} {signal : DeletionSignal}
    {observations : List Observation}
    (h : List.Forall₂ (fun path o => observe py sha256 path 0 none none signal = .ok o) paths observations) :
    observations.map (·.sourceLocator) = paths.map String.ofList := by
  induction h with
  | nil => rfl
  | cons ho _ ih => rw [List.map_cons, List.map_cons, ih, (observe_ok ho).1]

theorem map_inr_ne_inl {x : Except PollError ItemFailure} {o : Observation} :
    (.inr <$> x : Except PollError (Observation ⊕ ItemFailure)) ≠ .ok (.inl o) := by
  cases x with
  | error e => intro h; cases h
  | ok failure => intro h; cases h

theorem readItem_ok {file : ScannedFile} {o : Observation}
    (h : readItem py sha256 connector file = .ok (.inl o)) :
    o.sourceLocator = String.ofList file.relativePath ∧ (∃ content, o.content = some content) ∧
      o.deletionSignal = .none := by
  unfold readItem at h
  dsimp only at h
  split at h
  · exact absurd h map_inr_ne_inl
  split at h
  · exact absurd h map_inr_ne_inl
  unfold readContent at h
  split at h
  · exact absurd h map_inr_ne_inl
  next reading _ =>
  split at h
  · exact absurd h map_inr_ne_inl
  cases hobserve : observe py sha256 file.relativePath reading.modifiedAtUs
      (ACCEPTED_MEDIA_TYPES.lookup (py.lower (suffix file.relativePath))) (some reading.raw) .none with
  | error e => rw [hobserve] at h; cases h
  | ok observation =>
    rw [hobserve] at h
    cases h
    obtain ⟨hlocator, hcontent, hsignal⟩ := observe_ok hobserve
    exact ⟨hlocator, ⟨_, hcontent⟩, hsignal⟩

/-- The observations of the files, in the order of the files. -/
theorem readItems_sublist {files : List ScannedFile} {items : List (Observation ⊕ ItemFailure)}
    (h : List.Forall₂ (fun file item => readItem py sha256 connector file = .ok item) files items) :
    ((items.filterMap Sum.getLeft?).map (·.sourceLocator)).Sublist
      (files.map fun file => String.ofList file.relativePath) := by
  induction h with
  | nil => exact .slnil
  | @cons file item _ _ hitem _ ih =>
    cases item with
    | inr failure => exact ih.cons _
    | inl o =>
      simp only [List.filterMap_cons, Sum.getLeft?_inl, List.map_cons, (readItem_ok hitem).1]
      exact ih.cons_cons _

/-! ## One poll -/

theorem makeCursor_ok {stateVersion witnessSeq : Nat} {payload : Bytes} {digest : Option Bytes}
    {state : CursorState} (h : makeCursor stateVersion payload witnessSeq digest = .ok state) :
    state.payload = payload ∧ state.witnessSeq = witnessSeq ∧ state.predecessorDigest = digest := by
  unfold makeCursor at h
  split at h
  · split at h
    · split at h
      · cases h
      · split at h
        · cases h
          exact ⟨rfl, rfl, rfl⟩
        · cases h
    · cases h
  · cases h

/-- A poll that answered. -/
structure Polled (py : PyText) (sha256 : Bytes → Bytes) (connector : FilesystemConnector)
    (input : PollInput) (cursor : Option CursorState) (batch : Batch) where
  scanned : ScanResult
  previous : List RelativePath
  content : List Observation
  deletions : List Observation
  scan : scan sha256 connector input.tree = .ok scanned
  previousPaths : previousPaths cursor = .ok previous
  observations : batch.observations = content ++ deletions
  content_locators : (content.map (·.sourceLocator)).Sublist (scanned.presentPaths.map String.ofList)
  content_signal : ∀ o ∈ content, o.deletionSignal = .none
  content_readable : ∀ path bytes, scanned.Readable py sha256 connector path bytes ↔
    ∃ o ∈ content, o.sourceLocator = String.ofList path ∧ o.content = some bytes
  content_some : ∀ o ∈ content, ∃ bytes, o.content = some bytes
  deletion_locators : deletions.map (·.sourceLocator) =
    (missingPaths previous scanned).map String.ofList
  deletion_signal : ∀ o ∈ deletions, o.deletionSignal = .explicitDelete
  payload : batch.successorCursor.payload = encodeSnapshot scanned.presentPaths
  accepted : ∃ state, polledFrom connector cursor = .ok state ∧
    validateSuccessor sha256 ⟨input.binding connector, state⟩ batch.successorCursor
      (input.binding connector) = .ok (canonicalCursorDigest sha256 (input.binding connector) state)

theorem successorCursor_ok {input : PollInput} {cursor : Option CursorState}
    {current : List RelativePath} {successor : CursorState}
    (h : successorCursor sha256 connector input cursor current = .ok successor) :
    successor.payload = encodeSnapshot current ∧ ∃ state, polledFrom connector cursor = .ok state ∧
      validateSuccessor sha256 ⟨input.binding connector, state⟩ successor (input.binding connector) =
        .ok (canonicalCursorDigest sha256 (input.binding connector) state) := by
  unfold successorCursor at h
  simp only [bind_eq_ok, require_eq_ok, exists_unit] at h
  obtain ⟨-, state, hstate, h⟩ := h
  obtain ⟨hpayload, hwitness, hdigest⟩ := makeCursor_ok h
  refine ⟨hpayload, state, hstate, ?_⟩
  have hle : state.witnessSeq ≤ successor.witnessSeq := by
    rw [hwitness]
    unfold polledFrom at hstate
    split at hstate
    · cases hstate
      exact Nat.le_succ _
    · rw [(makeCursor_ok hstate).2.1]
      exact Nat.zero_le _
    · cases hstate
  unfold validateSuccessor
  rw [require_pos rfl, ok_bind]
  dsimp only
  rw [require_pos hdigest, ok_bind, require_pos hle, ok_bind]
  rfl

/-- What a poll that answers has scanned, read and committed to. -/
theorem poll_ok {input : PollInput} {cursor : Option CursorState} {batch : Batch}
    (h : poll py sha256 connector input cursor = .ok batch) :
    Nonempty (Polled py sha256 connector input cursor batch) := by
  unfold poll at h
  simp only [bind_eq_ok, require_eq_ok, exists_unit] at h
  obtain ⟨-, -, -, previous, hprevious, scanned, hscan, h⟩ := h
  unfold pollScanned at h
  simp only [bind_eq_ok, require_eq_ok, exists_unit, pure_eq_ok, mapM_eq_ok] at h
  obtain ⟨-, -, -, items, hitems, deletions, hdeletions, successor, hsuccessor, rfl⟩ := h
  obtain ⟨hpayload, haccepted⟩ := successorCursor_ok hsuccessor
  have hcontent : ∀ o ∈ items.filterMap Sum.getLeft?, ∃ file ∈ scanned.files,
      readItem py sha256 connector file = .ok (.inl o) := by
    intro o ho
    obtain ⟨item, hitem, heq⟩ := List.mem_filterMap.1 ho
    obtain ⟨file, hfile, hread⟩ := exists_of_forall₂_right hitems hitem
    exact ⟨file, hfile, by rw [hread, Sum.getLeft?_eq_some_iff.1 heq]⟩
  refine ⟨{
    scanned, previous, deletions
    content := items.filterMap Sum.getLeft?
    scan := hscan
    previousPaths := hprevious
    observations := rfl
    content_locators := ?_
    content_signal := ?_
    content_readable := ?_
    content_some := ?_
    deletion_locators := ?_
    deletion_signal := ?_
    payload := hpayload
    accepted := haccepted }⟩
  · rw [ScanResult.presentPaths, List.map_map]
    exact readItems_sublist hitems
  · intro o ho
    obtain ⟨_, _, hread⟩ := hcontent o ho
    exact (readItem_ok hread).2.2
  · intro path bytes
    constructor
    · rintro ⟨file, hfile, rfl, o, hread, hbytes⟩
      obtain ⟨item, hitem, hread'⟩ := exists_of_forall₂_left hitems hfile
      rw [hread, Except.ok.injEq] at hread'
      subst hread'
      exact ⟨o, List.mem_filterMap.2 ⟨_, hitem, rfl⟩, (readItem_ok hread).1, hbytes⟩
    · rintro ⟨o, ho, hlocator, hbytes⟩
      obtain ⟨file, hfile, hread⟩ := hcontent o ho
      refine ⟨file, hfile, ?_, o, hread, hbytes⟩
      exact String.ofList_injective ((readItem_ok hread).1.symm.trans hlocator)
  · intro o ho
    obtain ⟨_, _, hread⟩ := hcontent o ho
    exact (readItem_ok hread).2.1
  · exact observed_locators hdeletions
  · intro o ho
    obtain ⟨path, -, hobserve⟩ := exists_of_forall₂_right hdeletions ho
    exact (observe_ok hobserve).2.2

theorem mem_missingPaths {previous : List RelativePath} {scanned : ScanResult} {path : RelativePath} :
    path ∈ missingPaths previous scanned ↔
      path ∈ previous ∧ path ∉ scanned.presentPaths ∧ path ∉ scanned.unresolved := by
  rw [missingPaths, mem_sortPaths, List.mem_filter, List.mem_dedup, decide_eq_true_eq]
  rfl

end OmniviaCore.Connector
