import OmniviaCore.Lib.Sweep

/-!
# The streams that are behind

`select_pending_streams` of `storage/engineering_invalidation.py`: one page of the raw stream rows of a
workspace, past the cursor the call before left, of which the lagging ones are returned. Nothing is written
between the calls, so the rows are those of one table. Each call is a page of a sweep over the identifiers
(`selectPendingStreams_eq`), and so no lagging stream waits longer than a sweep and one call
(`select_pending_streams_fair`).
-/

namespace OmniviaCore.Engineering

open Lib

/-! ## The table -/

/-- What a row of `omnivia_engineering_source_streams` says of how far its stream is processed. -/
structure StreamRow where
  workspaceId : String
  streamId : String
  processedSequence : ℕ
  coveredSequence : ℕ

/-- The rows, under their primary key. -/
structure StreamTable where
  rows : List StreamRow
  key : (rows.map fun row => (row.workspaceId, row.streamId)).Nodup

/-- `processed < covered`. -/
def StreamRow.lagging (row : StreamRow) : Bool := row.processedSequence < row.coveredSequence

variable (table : StreamTable) (workspaceId : String) (limit : ℕ)

/-- The rows of a workspace, in the order of their primary key. -/
def StreamTable.streams : List StreamRow :=
  sortBy StreamRow.streamId (table.rows.filter fun row => row.workspaceId = workspaceId)

/-- `_stream_page`. -/
def streamPage (after : Option String) : List StreamRow :=
  ((table.streams workspaceId).filter fun row => PastCursor after row.streamId).take limit

/-- The raw rows of a call. -/
def pageRows (after : Option String) : List StreamRow :=
  let page := streamPage table workspaceId limit after
  if page = [] ∧ after.isSome then streamPage table workspaceId limit none else page

/-- `select_pending_streams`. -/
def selectPendingStreams (after : Option String) : List String × Option String :=
  let page := pageRows table workspaceId limit after
  ((page.filter StreamRow.lagging).map StreamRow.streamId, page.getLast?.map StreamRow.streamId)

/-- The cursor the calls before left. -/
def cursorAt (start : Option String) : ℕ → Option String
  | 0 => start
  | n + 1 => (selectPendingStreams table workspaceId limit (cursorAt start n)).2

/-- The streams a call returns, of calls that thread the cursor. -/
def selectionAt (start : Option String) (n : ℕ) : List String :=
  (selectPendingStreams table workspaceId limit (cursorAt table workspaceId limit start n)).1

/-- A stream of the workspace that is behind. -/
def Lagging (streamId : String) : Prop :=
  ∃ row ∈ table.streams workspaceId, row.streamId = streamId ∧ row.lagging = true

instance (streamId : String) : Decidable (Lagging table workspaceId streamId) :=
  inferInstanceAs (Decidable (∃ row ∈ table.streams workspaceId, row.streamId = streamId ∧ row.lagging = true))

/-! ## A call is a page of a sweep -/

variable {table workspaceId limit}

/-- The identifiers of the streams of the workspace. -/
def StreamTable.ids (table : StreamTable) (workspaceId : String) : List String :=
  (table.streams workspaceId).map StreamRow.streamId

theorem StreamTable.nodup_ids : (table.ids workspaceId).Nodup := by
  have hrows : ((table.rows.filter fun row => row.workspaceId = workspaceId).map StreamRow.streamId).Nodup := by
    have hkey : ((table.rows.filter fun row => row.workspaceId = workspaceId).map
        fun row => (row.workspaceId, row.streamId)).Nodup :=
      table.key.sublist (List.filter_sublist.map _)
    refine List.Nodup.of_map (fun id => (workspaceId, id)) ?_
    rw [List.map_map]
    convert hkey using 1
    refine List.map_congr_left fun row hrow => ?_
    have hworkspace := List.of_mem_filter hrow
    rw [decide_eq_true_eq] at hworkspace
    rw [Function.comp_apply, ← hworkspace]
  exact ((perm_sortBy _).map StreamRow.streamId).nodup_iff.2 hrows

theorem StreamTable.sorted_ids : (table.ids workspaceId).Pairwise (· < ·) := by
  have hle : (table.ids workspaceId).Pairwise (· ≤ ·) := List.pairwise_map.2 (pairwise_sortBy _)
  exact hle.imp₂ (fun _ _ hle hne => lt_of_le_of_ne hle hne) nodup_ids

theorem map_streamPage (after : Option String) :
    (streamPage table workspaceId limit after).map StreamRow.streamId =
      (past (table.ids workspaceId) after).take limit := by
  rw [streamPage, past, StreamTable.ids, List.filter_map, List.map_take]
  rfl

theorem map_pageRows (hlimit : 0 < limit) (after : Option String) :
    (pageRows table workspaceId limit after).map StreamRow.streamId =
      sweepPage (table.ids workspaceId) limit after := by
  have hnil : streamPage table workspaceId limit after = [] ↔ past (table.ids workspaceId) after = [] := by
    rw [← List.map_eq_nil_iff (f := StreamRow.streamId), map_streamPage, List.take_eq_nil_iff]
    simp [hlimit.ne']
  unfold pageRows sweepPage
  dsimp only
  by_cases hempty : past (table.ids workspaceId) after = []
  · rw [if_pos hempty]
    cases after with
    | none =>
      rw [if_neg (by simp), map_streamPage, past_none]
    | some cursor =>
      rw [if_pos ⟨hnil.2 hempty, rfl⟩, map_streamPage, past_none]
  · rw [if_neg hempty, if_neg fun h => hempty (hnil.1 h.1), map_streamPage]

theorem mem_streams_of_pageRows {after : Option String} {row : StreamRow}
    (h : row ∈ pageRows table workspaceId limit after) : row ∈ table.streams workspaceId := by
  have hpage : ∀ {cursor}, row ∈ streamPage table workspaceId limit cursor → row ∈ table.streams workspaceId :=
    fun hrow => List.mem_of_mem_filter (List.mem_of_mem_take hrow)
  unfold pageRows at h
  dsimp only at h
  split at h
  · exact hpage h
  · exact hpage h

/-- A row is behind when its stream is: the workspace has one row of a stream. -/
theorem lagging_iff {row : StreamRow} (h : row ∈ table.streams workspaceId) :
    row.lagging = true ↔ Lagging table workspaceId row.streamId := by
  constructor
  · exact fun hrow => ⟨row, h, rfl, hrow⟩
  · rintro ⟨other, hother, hid, hlagging⟩
    rwa [List.inj_on_of_nodup_map StreamTable.nodup_ids hother h hid] at hlagging

/-- A call returns the lagging streams of a page of the sweep, and leaves the cursor at its last key. -/
theorem selectPendingStreams_eq (hlimit : 0 < limit) (after : Option String) :
    selectPendingStreams table workspaceId limit after =
      ((sweepPage (table.ids workspaceId) limit after).filter fun id => Lagging table workspaceId id,
        (sweepPage (table.ids workspaceId) limit after).getLast?) := by
  have hmap : (pageRows table workspaceId limit after).map StreamRow.streamId =
      sweepPage (table.ids workspaceId) limit after := map_pageRows hlimit after
  unfold selectPendingStreams
  refine Prod.ext ?_ ?_
  · rw [← hmap, List.filter_map]
    refine congrArg (List.map _) (List.filter_congr fun row hrow => ?_)
    rw [Bool.eq_iff_iff, lagging_iff (mem_streams_of_pageRows hrow)]
    simp
  · rw [← hmap, List.getLast?_map]

theorem cursorAt_eq (hlimit : 0 < limit) (start : Option String) (n : ℕ) :
    cursorAt table workspaceId limit start n = sweepCursor (table.ids workspaceId) limit start n := by
  induction n with
  | zero => rfl
  | succ n ih => rw [cursorAt, ih, selectPendingStreams_eq hlimit, sweepCursor]

theorem selectionAt_eq (hlimit : 0 < limit) (start : Option String) (n : ℕ) :
    selectionAt table workspaceId limit start n =
      (sweepPage (table.ids workspaceId) limit (sweepCursor (table.ids workspaceId) limit start n)).filter
        fun id => Lagging table workspaceId id := by
  rw [selectionAt, cursorAt_eq hlimit, selectPendingStreams_eq hlimit]

theorem mem_ids_of_lagging {streamId : String} (h : Lagging table workspaceId streamId) :
    streamId ∈ table.ids workspaceId := by
  obtain ⟨row, hrow, rfl, -⟩ := h
  exact List.mem_map_of_mem hrow

/-- Of the calls that thread the cursor, one of any `⌈N / limit⌉ + 1` returns a lagging stream, none returns
a stream twice, and between two returns of a stream every other lagging one is returned. -/
theorem select_pending_streams_fair (table : StreamTable) (workspaceId : String) (limit : ℕ)
    (hlimit : 1 ≤ limit) (start : Option String) :
    (∀ streamId, Lagging table workspaceId streamId → ∀ m, ∃ n, m ≤ n ∧
      n < m + (((table.streams workspaceId).length + limit - 1) / limit + 1) ∧
        streamId ∈ selectionAt table workspaceId limit start n) ∧
    (∀ n, (selectionAt table workspaceId limit start n).Nodup ∧
      ∀ streamId ∈ selectionAt table workspaceId limit start n, Lagging table workspaceId streamId) ∧
    ∀ n before streamId between rest,
      (List.range n).flatMap (selectionAt table workspaceId limit start) =
        before ++ streamId :: (between ++ streamId :: rest) →
      ∀ other, Lagging table workspaceId other → other ≠ streamId → other ∈ between := by
  have hlength : (table.ids workspaceId).length = (table.streams workspaceId).length := List.length_map _
  refine ⟨fun streamId hlagging m => ?_, fun n => ?_, ?_⟩
  · obtain ⟨n, hn, hmem⟩ := exists_mem_sweepPage StreamTable.sorted_ids hlimit
      (sweepCursor (table.ids workspaceId) limit start m) (mem_ids_of_lagging hlagging)
    rw [hlength] at hn
    refine ⟨m + n, Nat.le_add_right _ _, by omega, ?_⟩
    rw [selectionAt_eq hlimit, sweepCursor_add]
    exact List.mem_filter.2 ⟨hmem, decide_eq_true hlagging⟩
  · rw [selectionAt_eq hlimit]
    refine ⟨(nodup_sweepPage StreamTable.nodup_ids _).filter _, fun streamId hmem => ?_⟩
    exact of_decide_eq_true (List.mem_filter.1 hmem).2
  · intro n before streamId between rest h other hother hdistinct
    obtain ⟨r, hr⟩ := exists_standsAt StreamTable.sorted_ids start
    have hne : table.ids workspaceId ≠ [] := List.ne_nil_of_mem (mem_ids_of_lagging hother)
    obtain ⟨read, hread, -⟩ := flatMap_sweepPage StreamTable.sorted_ids hlimit hne hr n
    have hselected : (List.range n).flatMap (selectionAt table workspaceId limit start) =
        ((List.range read).map fun k => around (table.ids workspaceId) hne (r + k)).filter
          fun id => Lagging table workspaceId id := by
      rw [← hread, List.filter_flatMap]
      exact List.flatMap_congr fun k _ => selectionAt_eq hlimit start k
    rw [hselected] at h
    exact mem_between_filter StreamTable.nodup_ids hne _ h (mem_ids_of_lagging hother)
      (decide_eq_true hother) hdistinct

/-- Five streams, of which three are behind, and a cursor whose stream is gone. -/
def fiveStreams : StreamTable where
  rows := [⟨"w", "e", 0, 1⟩, ⟨"w", "a", 2, 3⟩, ⟨"w", "c", 1, 1⟩, ⟨"w", "b", 0, 4⟩, ⟨"w", "d", 5, 5⟩]
  key := by decide

/-- The stream that is furthest behind is returned by the eighth call or one of the three after it. -/
theorem five_streams_fair : ∃ n, 7 ≤ n ∧ n < 7 + (((fiveStreams.streams "w").length + 2 - 1) / 2 + 1) ∧
    "b" ∈ selectionAt fiveStreams "w" 2 (some "cc") n :=
  (select_pending_streams_fair fiveStreams "w" 2 (by decide) (some "cc")).1 "b" (by decide +kernel) 7

end OmniviaCore.Engineering
