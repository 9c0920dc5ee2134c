import OmniviaCore.Connector.CursorRoundTrip
import OmniviaCore.Lib.Digest

/-!
# The cursor a connector resumes from

No table holds the cursor of a connector: the reader takes the last checkpoint of its last run that has one.
What the newest run of a connector to write wrote last is what the reader answers, whatever other connectors
and older runs write after it (`resume_cursor_last_write`).
-/

namespace OmniviaCore.Connector

open CanonicalJson Lib

variable (sha256 : Bytes → Bytes)

/-- What a run commits, and none where the call raises. -/
def CursorWrite.commit (store : CheckpointStore) (run : SyncRun) : CursorWrite → Option CheckpointStore
  | .spi record evidence =>
    (writeSpiCursorCheckpoint sha256 store run.workspaceId run.runId record evidence).toOption.map Prod.snd
  | .legacy cursor =>
    (writeCursorCheckpoint sha256 store run.workspaceId run.runId cursor).toOption.map Prod.snd

/-- The writes of some runs, one after the other. -/
def commitAll (writes : List (SyncRun × CursorWrite)) (store : CheckpointStore) : Option CheckpointStore :=
  writes.foldlM (fun store w => w.2.commit sha256 store w.1) store

/-- A run id is of one run of its workspace. -/
def UniqueRunIds (store : CheckpointStore) : Prop :=
  ∀ run ∈ store.runs, ∀ other ∈ store.runs, run.workspaceId = other.workspaceId → run.runId = other.runId →
    run = other

/-! ## The last row -/

theorem getLast?_sortBy {α κ : Type} [LinearOrder κ] {key : α → κ} {l : List α} {a : α} (h : a ∈ l)
    (hmax : ∀ b ∈ l, b = a ∨ key b < key a) : (sortBy key l).getLast? = some a := by
  have hmem : a ∈ sortBy key l := mem_sortBy.2 h
  have hne := List.ne_nil_of_mem hmem
  have hrefl : Std.Refl fun a b : α => key a ≤ key b := ⟨fun _ => le_rfl⟩
  have hle := (pairwise_sortBy l).rel_getLast hmem
  rw [List.getLast?_eq_some_getLast hne]
  rcases hmax _ (mem_sortBy.1 (List.getLast_mem hne)) with heq | hlt
  · rw [heq]
  · exact absurd hlt (not_lt.2 hle)

theorem rowKey_lt {row other : SyncRun × Checkpoint} : rowKey other < rowKey row ↔
    other.1.syncSequence < row.1.syncSequence ∨ other.1.syncSequence = row.1.syncSequence ∧
      other.2.checkpointSequence < row.2.checkpointSequence :=
  Prod.Lex.toLex_lt_toLex

variable {sha256} {store store' : CheckpointStore} {run : SyncRun} {write : CursorWrite}
  {workspaceId connectorId : Chars}

/-- A checkpoint holds a cursor of a run. -/
def Checkpoint.IsCursorOf (checkpoint : Checkpoint) (run : SyncRun) : Prop :=
  checkpoint.workspaceId = run.workspaceId ∧ checkpoint.jobId = run.runId ∧
    checkpoint.checkpointKind = CURSOR_CHECKPOINT_KIND

theorem mem_cursorRows {row : SyncRun × Checkpoint} : row ∈ cursorRows store workspaceId connectorId ↔
    (row.1 ∈ store.runs ∧ row.1.workspaceId = workspaceId ∧ row.1.connectorId = connectorId) ∧
      row.2 ∈ store.checkpoints ∧ row.2.IsCursorOf row.1 := by
  obtain ⟨run, checkpoint⟩ := row
  simp [cursorRows, List.mem_flatMap, Checkpoint.IsCursorOf]

theorem checkpointSequence_lt_next {checkpoint : Checkpoint} (h : checkpoint ∈ store.checkpoints) :
    checkpoint.checkpointSequence < nextCheckpointSequence store checkpoint.workspaceId checkpoint.jobId := by
  have hmem : checkpoint.checkpointSequence + 1 ∈ (store.checkpoints.filter fun c =>
      c.workspaceId = checkpoint.workspaceId ∧ c.jobId = checkpoint.jobId).map fun c => c.checkpointSequence + 1 :=
    List.mem_map.2 ⟨checkpoint, List.mem_filter.2 ⟨h, by simp⟩, rfl⟩
  rw [nextCheckpointSequence, List.foldl_eq_foldr]
  exact List.le_max_of_le' 0 hmem le_rfl

/-- A cursor is written as one new checkpoint of its run, which is read as what was written. -/
theorem commit_eq_some (interpreter : Interpreter) (h : write.commit sha256 store run = some store') :
    ∃ checkpoint, store' = insertCheckpoint store checkpoint ∧ checkpoint.IsCursorOf run ∧
      checkpoint.checkpointSequence = nextCheckpointSequence store run.workspaceId run.runId ∧
      readCheckpoint sha256 interpreter checkpoint = .ok write.record? := by
  have hcommit : write.commit sha256 store run = (dumps write.document).toOption.map fun text =>
      insertCheckpoint store (newCheckpoint sha256 store run.workspaceId run.runId text) := by
    cases write with
    | spi record evidence =>
      rw [CursorWrite.commit, writeSpiCursorCheckpoint, spiCheckpointText, CursorWrite.document]
      cases dumps (checkpointDocument record (evidence.map evidenceToWire)) <;> rfl
    | legacy cursor =>
      rw [CursorWrite.commit, writeCursorCheckpoint, CursorWrite.document]
      cases dumps cursor.toWire <;> rfl
  rw [hcommit] at h
  cases htext : dumps write.document with
  | error e =>
    rw [htext] at h
    cases h
  | ok text =>
    rw [htext] at h
    exact ⟨newCheckpoint sha256 store run.workspaceId run.runId text, (Option.some.inj h).symm,
      ⟨rfl, rfl, rfl⟩, rfl, readCheckpoint_new sha256 interpreter store run.workspaceId run.runId htext⟩

/-! ## After a write -/

/-- The row a connector resumes from. -/
def IsLast (store : CheckpointStore) (workspaceId connectorId : Chars) (row : SyncRun × Checkpoint) : Prop :=
  row ∈ cursorRows store workspaceId connectorId ∧
    ∀ other ∈ cursorRows store workspaceId connectorId, other = row ∨ rowKey other < rowKey row

theorem IsLast.read {row : SyncRun × Checkpoint} (h : IsLast store workspaceId connectorId row)
    (interpreter : Interpreter) : readSpiResumeCursor sha256 interpreter store workspaceId connectorId =
      readCheckpoint sha256 interpreter row.2 := by
  rw [readSpiResumeCursor, latestCheckpoint, getLast?_sortBy h.1 h.2]
  rfl

section Insert

variable {checkpoint : Checkpoint} {row : SyncRun × Checkpoint} (hids : UniqueRunIds store)
  (hrun : run ∈ store.runs) (hof : checkpoint.IsCursorOf run)

include hids hrun hof

/-- The rows of a connector after a write: the new one too, if the run is of the connector. -/
theorem mem_cursorRows_insert : row ∈ cursorRows (insertCheckpoint store checkpoint) workspaceId connectorId ↔
    row ∈ cursorRows store workspaceId connectorId ∨ row = (run, checkpoint) ∧
      run.workspaceId = workspaceId ∧ run.connectorId = connectorId := by
  simp only [mem_cursorRows, insertCheckpoint, List.mem_append, List.mem_singleton]
  constructor
  · rintro ⟨⟨hmem, hconnector⟩, hold | hnew, hrow⟩
    · exact .inl ⟨⟨hmem, hconnector⟩, hold, hrow⟩
    · rw [hnew] at hrow
      obtain rfl := hids run hrun row.1 hmem (hof.1.symm.trans hrow.1) (hof.2.1.symm.trans hrow.2.1)
      exact .inr ⟨Prod.ext rfl hnew, hconnector⟩
  · rintro (⟨hconnector, hold, hrow⟩ | ⟨rfl, hconnector⟩)
    · exact ⟨hconnector, .inl hold, hrow⟩
    · exact ⟨⟨hrun, hconnector⟩, .inr rfl, hof⟩

/-- A write of the newest run that wrote is the last. -/
theorem isLast_insert
    (hsequence : checkpoint.checkpointSequence = nextCheckpointSequence store run.workspaceId run.runId)
    (hnewest : ∀ row ∈ cursorRows store run.workspaceId run.connectorId,
      row.1.syncSequence ≤ run.syncSequence) :
    IsLast (insertCheckpoint store checkpoint) run.workspaceId run.connectorId (run, checkpoint) := by
  refine ⟨(mem_cursorRows_insert hids hrun hof).2 (.inr ⟨rfl, rfl, rfl⟩), fun row hrow => ?_⟩
  rcases (mem_cursorRows_insert hids hrun hof).1 hrow with hold | ⟨hnew, -⟩
  · refine .inr (rowKey_lt.2 ((hnewest row hold).lt_or_eq.imp_right fun heq => ⟨heq, ?_⟩))
    obtain ⟨⟨hmem, hworkspace, hconnector⟩, hc, hcursor⟩ := mem_cursorRows.1 hold
    have hkey : row.1.key = run.key := by rw [SyncRun.key, SyncRun.key, hworkspace, hconnector, heq]
    have hlt := checkpointSequence_lt_next hc
    rwa [hcursor.1, hcursor.2.1, List.inj_on_of_nodup_map store.runs_nodup hmem hrun hkey, ← hsequence] at hlt
  · exact .inl hnew

/-- A write of another connector, or of an older run, is not. -/
theorem IsLast.insert (h : IsLast store workspaceId connectorId row)
    (holder : run.workspaceId = workspaceId → run.connectorId = connectorId →
      run.syncSequence < row.1.syncSequence) :
    IsLast (insertCheckpoint store checkpoint) workspaceId connectorId row := by
  refine ⟨(mem_cursorRows_insert hids hrun hof).2 (.inl h.1), fun other hother => ?_⟩
  rcases (mem_cursorRows_insert hids hrun hof).1 hother with hold | ⟨rfl, hconnector⟩
  · exact h.2 other hold
  · exact .inr (rowKey_lt.2 (.inl (holder hconnector.1 hconnector.2)))

end Insert

theorem IsLast.commitAll {row : SyncRun × Checkpoint} {later : List (SyncRun × CursorWrite)}
    (h : IsLast store workspaceId connectorId row) (hids : UniqueRunIds store)
    (hlater : ∀ w ∈ later, w.1 ∈ store.runs ∧ (w.1.workspaceId = workspaceId → w.1.connectorId = connectorId →
      w.1.syncSequence < row.1.syncSequence)) (interpreter : Interpreter)
    (hcommit : commitAll sha256 later store = some store') : IsLast store' workspaceId connectorId row := by
  induction later generalizing store with
  | nil =>
    cases hcommit
    exact h
  | cons w later ih =>
    rw [List.forall_mem_cons] at hlater
    obtain ⟨⟨hrun, holder⟩, hlater⟩ := hlater
    obtain ⟨next, hnext, hrest⟩ := Option.bind_eq_some_iff.1 hcommit
    obtain ⟨checkpoint, rfl, hof, -, -⟩ := commit_eq_some interpreter hnext
    exact ih (h.insert hids hrun hof holder) hids hlater hrest

/-- The reader answers what the newest run of a connector to write wrote last, a record or, for a cursor of two
fields, none, whatever other connectors and older runs write after it. -/
theorem resume_cursor_last_write (interpreter : Interpreter) {later : List (SyncRun × CursorWrite)}
    (hids : UniqueRunIds store) (hrun : run ∈ store.runs)
    (hnewest : ∀ row ∈ cursorRows store run.workspaceId run.connectorId, row.1.syncSequence ≤ run.syncSequence)
    (hlater : ∀ w ∈ later, w.1 ∈ store.runs ∧ (w.1.workspaceId = run.workspaceId →
      w.1.connectorId = run.connectorId → w.1.syncSequence < run.syncSequence))
    (h : commitAll sha256 ((run, write) :: later) store = some store') :
    readSpiResumeCursor sha256 interpreter store' run.workspaceId run.connectorId = .ok write.record? := by
  obtain ⟨next, hnext, hrest⟩ := Option.bind_eq_some_iff.1 h
  obtain ⟨checkpoint, rfl, hof, hsequence, hread⟩ := commit_eq_some interpreter hnext
  have hlast := isLast_insert hids hrun hof hsequence hnewest
  rw [(hlast.commitAll hids hlater interpreter hrest).read interpreter, hread]

def firstRecord : CursorRecord where
  binding := ⟨"w", "c", by decide, by decide⟩
  state := ⟨41, [65, 66], 2, some (List.replicate 32 7), by decide, by decide, by decide, by decide⟩

/-- Two runs of one connector, before any write. -/
def twoRuns : CheckpointStore := ⟨[⟨['w'], ['c'], 1, ['r']⟩, ⟨['w'], ['c'], 2, ['s']⟩], [], by decide⟩

/-- The second run writes, and then the first, a cursor of two fields. -/
def secondThenFirst : List (SyncRun × CursorWrite) :=
  [(⟨['w'], ['c'], 2, ['s']⟩, .spi firstRecord none), (⟨['w'], ['c'], 1, ['r']⟩,
    .legacy ⟨1, ofChars ['t'], by decide, by decide, by decide, by decide, by decide⟩)]

/-- The bytes of the document that a write stores. -/
def CursorWrite.bytes (write : CursorWrite) : Bytes :=
  encodeText (String.ofList ((dumps write.document).toOption.getD []))

/-- SHA-256 on the two documents. -/
def documentDigest : Bytes → Bytes :=
  knownHash ((secondThenFirst.map fun w => w.2.bytes).zip
    [0xd276f592b7ad1fa207d55e76dea9560329754a34d2e8726341066e4cda3246a2,
      0x7db6171f308cc3e46326865c25df3c9022489d4c3be0068e3cbdf9cbac372dec])

theorem resume_cursor_last_write_second : ∃ store,
    commitAll documentDigest secondThenFirst twoRuns = some store ∧
    readSpiResumeCursor documentDigest ⟨1000, by decide⟩ store ['w'] ['c'] =
      .ok (some firstRecord) := by
  obtain ⟨store, h⟩ := Option.isSome_iff_exists.1
    (show (commitAll documentDigest secondThenFirst twoRuns).isSome = true by decide +kernel)
  refine ⟨store, h, resume_cursor_last_write ⟨1000, by decide⟩ ?_ ?_ ?_ ?_ h⟩
  · unfold UniqueRunIds
    decide
  · decide
  · exact fun row hrow => by cases hrow
  · exact List.forall_mem_singleton.2 ⟨by decide, fun _ _ => by decide⟩

end OmniviaCore.Connector
