import OmniviaCore.Jobs.Changes
import OmniviaCore.Lib.Machine

/-!
# The application job store

The jobs of one workspace, written by whoever holds the workspace. A call is one fenced transaction: it goes
through whole, under the authority on record, or changes nothing. A takeover puts a larger generation on
record.

`step_find` reduces a step of the store to one job: the job is untouched, or just created, or one writer
went through on it. From it every run keeps every job `Valid` (`run_valid`), and what holds of a job at one
moment and is kept by the writers holds at every later moment (`run_find`).
-/

namespace OmniviaCore.Jobs

open Lib

/-! ## The machine -/

/-- The store of a workspace. -/
structure Store where
  workspaceId : WorkspaceId
  holder : Authority
  stagedSources : List ImportSourceDescriptor
  jobs : List Job

/-- A call, with the instants it reads. -/
inductive Call where
  /-- `start_import_job` -/
  | startImportJob (source : ImportSourceDescriptor) (jobId : JobId) (auditRef : AuditRef)
      (settledAtUs : Nat)
  /-- `claim_application_job` of no job in particular -/
  | claimOldest (nowUs : Nat)
  /-- `recover_stranded_application_jobs`, of all jobs or of those named -/
  | recoverStranded (jobIds : Option (List JobId)) (nowUs : Nat)
  /-- a writer of one job -/
  | write (jobId : JobId) (op : JobOp)

/-- A step: the workspace changes hands, or someone calls. -/
inductive Label where
  | takeover (authority : Authority)
  | call (authority : Authority) (call : Call)

/-- The scheduler row, the metadata and the descriptor `start_import_job` inserts. -/
def importJob (workspaceId : WorkspaceId) (authority : Authority) (source : ImportSourceDescriptor)
    (jobId : JobId) (auditRef : AuditRef) (settledAtUs : Nat) : Job where
  metadata :=
    { workspaceId
      jobId
      jobKind := IMPORT_JOB_KIND
      originatingOperation := IMPORT_START_OPERATION
      auditRef
      createdAtUs := settledAtUs
      terminalResultKind := some JOB_TERMINAL_RESULT_KIND_IMPORT_COMPLETION
      supportsCheckpointResume := true
      maxAttempts := 3 }
  source
  state := .claimed
  updatedAtUs := milliseconds settledAtUs
  claimedBy := some authority.serviceInstanceId
  fencingGeneration := authority.fencingGeneration
  attempts := []
  checkpoints := []
  progressEvents := []
  events := []
  observations := []
  controls := []

/-- `created_at` as text: a whole second is spelled without its milliseconds and sorts last. -/
def Job.createdKey (j : Job) : Nat × Nat :=
  let milliseconds := timestamp j.metadata.createdAtUs
  (milliseconds / 1000, if milliseconds % 1000 = 0 then 1000 else milliseconds % 1000)

/-- `ORDER BY j.created_at, j.job_id`. -/
def Job.claimedBefore (j k : Job) : Bool :=
  j.createdKey.1 < k.createdKey.1 ||
    (j.createdKey.1 = k.createdKey.1 && (j.createdKey.2 < k.createdKey.2 ||
      (j.createdKey.2 = k.createdKey.2 && j.metadata.jobId.text < k.metadata.jobId.text)))

namespace Store

variable (s : Store)

def find (jobId : JobId) : Option Job := s.jobs.find? (·.metadata.jobId = jobId)

/-- `read_application_job_snapshot`. -/
def readApplicationJobSnapshot (jobId : JobId) : Option JobGetResult :=
  (s.find jobId).map Job.snapshot

/-- `start_import_job`. -/
def startImportJob (authority : Authority) (source : ImportSourceDescriptor) (jobId : JobId)
    (auditRef : AuditRef) (settledAtUs : Nat) : Except JobError Store := do
  require (source ∈ s.stagedSources) .sourceUnavailable
  require ((s.find jobId).isNone = true) .duplicateJob
  let job := importJob s.workspaceId authority source jobId auditRef settledAtUs
  let attempted ← job.insertAttempt authority 1 settledAtUs
  let told ← attempted.insertEvent ⟨0, settledAtUs, .running, "import started"⟩
  pure { s with jobs := s.jobs ++ [told] }

def write (authority : Authority) (jobId : JobId) (op : JobOp) : Except JobError Store :=
  match s.find jobId with
  | none => throw .notFound
  | some j => do
    let j' ← op.apply authority j
    pure { s with jobs := s.jobs.map fun k => if k.metadata.jobId = jobId then j' else k }

/-- The job `_claim_application_job_locked` selects. -/
def oldestQueued : Option JobId :=
  let queued := s.jobs.filter (·.state = .queued)
  (queued.find? fun j => queued.all fun k => !k.claimedBefore j).map (·.metadata.jobId)

/-- A row of `_STRANDED_APPLICATION_JOBS`, where the allowlist has it. -/
def isStranded (authority : Authority) (jobIds : Option (List JobId)) (j : Job) : Bool :=
  j.state = .claimed && decide (j.fencingGeneration < authority.fencingGeneration) &&
    jobIds.all (·.contains j.metadata.jobId)

/-- One round of the loop of `_recover_stranded_application_jobs_locked`. -/
def recoverIfStranded (authority : Authority) (jobIds : Option (List JobId)) (nowUs : Nat) (j : Job) :
    Except JobError Job :=
  if isStranded authority jobIds j then j.recover authority nowUs else pure j

/-- The loop. Each round is about its own job, so the rows may stand in the store's order. -/
def recoverEach (authority : Authority) (jobIds : Option (List JobId)) (nowUs : Nat) :
    List Job → Except JobError (List Job)
  | [] => pure []
  | j :: jobs => do
    let j' ← recoverIfStranded authority jobIds nowUs j
    let jobs' ← recoverEach authority jobIds nowUs jobs
    pure (j' :: jobs')

def perform (authority : Authority) (call : Call) : Except JobError Store := do
  require (authority = s.holder) .staleAuthority
  match call with
  | .startImportJob source jobId auditRef settledAtUs =>
    s.startImportJob authority source jobId auditRef settledAtUs
  | .claimOldest nowUs =>
    match s.oldestQueued with
    | none => throw .nothingQueued
    | some jobId => s.write authority jobId (.claim nowUs)
  | .recoverStranded jobIds nowUs => do
    let jobs' ← recoverEach authority jobIds nowUs s.jobs
    pure { s with jobs := jobs' }
  | .write jobId op => s.write authority jobId op

def step : Label → Store
  | .takeover authority =>
    if s.holder.fencingGeneration < authority.fencingGeneration then { s with holder := authority }
    else s
  | .call authority call =>
    match s.perform authority call with
    | .ok s' => s'
    | .error _ => s

/-- The holder of the workspace asks for the writer to be applied to the job. -/
def Asks (label : Label) (jobId : JobId) (op : JobOp) : Prop :=
  match label with
  | .call authority (.write jobId' op') => authority = s.holder ∧ jobId' = jobId ∧ op' = op
  | .call authority (.claimOldest nowUs) =>
    authority = s.holder ∧ s.oldestQueued = some jobId ∧ op = .claim nowUs
  | .call authority (.recoverStranded jobIds nowUs) =>
    authority = s.holder ∧ jobIds.all (·.contains jobId) = true ∧ op = .recover nowUs
  | _ => False

def empty (workspaceId : WorkspaceId) (holder : Authority)
    (stagedSources : List ImportSourceDescriptor) : Store := ⟨workspaceId, holder, stagedSources, []⟩

def Reachable : Prop :=
  ∃ workspaceId holder stagedSources labels,
    s = run step (empty workspaceId holder stagedSources) labels

/-- Every job keeps its invariant. -/
def Valid : Prop := ∀ j ∈ s.jobs, j.Valid

end Store

/-! ## A writer keeps the job's identity -/

theorem Job.Change.frame {j j' : Job} {authority : Authority} (h : Job.Change authority j j') :
    j'.metadata = j.metadata ∧ j'.source = j.source := by
  cases h <;> exact ⟨rfl, rfl⟩

theorem JobOp.apply_frame {op : JobOp} {authority : Authority} {j j' : Job} (hv : j.Valid)
    (h : op.apply authority j = .ok j') : j'.metadata = j.metadata ∧ j'.source = j.source := by
  obtain ⟨-, -, -, rfl⟩ | hchanges := JobOp.apply_cases hv h
  · exact ⟨rfl, rfl⟩
  · refine (hchanges.invariant (P := fun k => k.metadata = j.metadata ∧ k.source = j.source)
      ?_ hv ⟨rfl, rfl⟩).2
    intro k k' _ hk hchange
    exact ⟨hchange.frame.1.trans hk.1, hchange.frame.2.trans hk.2⟩

/-! ## One step, seen from one job -/

/-- A job as `start_import_job` leaves it. -/
def Job.imported (workspaceId : WorkspaceId) (authority : Authority)
    (source : ImportSourceDescriptor) (jobId : JobId) (auditRef : AuditRef) (settledAtUs : Nat) :
    Job :=
  { importJob workspaceId authority source jobId auditRef settledAtUs with
    attempts := [⟨1, settledAtUs, none, .running, none⟩]
    events := [⟨0, settledAtUs, .running, "import started"⟩] }

theorem Job.imported_valid {workspaceId : WorkspaceId} {authority : Authority}
    {source : ImportSourceDescriptor} {jobId : JobId} {auditRef : AuditRef} {settledAtUs : Nat} :
    (Job.imported workspaceId authority source jobId auditRef settledAtUs).Valid where
  kind := rfl
  operation := rfl
  budget := show 3 ≤ 256 by decide
  attempts :=
    { numbered := numbered_singleton.2 rfl
      valid := by
        intro a ha
        rw [List.mem_singleton.1 ha]
        exact
          { started := by simp
            running := by simp
            failed := by simp
            after_created := Nat.le_refl _
            start_le := Nat.le_refl _
            ordered := by simp }
      pairwise := List.pairwise_singleton _ _
      last := ⟨[], _, rfl, rfl⟩ }
  attempts_le := show 1 ≤ 3 by decide
  events :=
    { numbered := numbered_singleton.2 rfl
      pairwise := List.pairwise_singleton _ _
      legal := List.isChain_singleton _
      last := ⟨[], _, rfl, rfl⟩ }
  observations_numbered := numbered_nil
  observations_ending := rfl
  observations_fit := by intro o ho; cases ho
  progress_nil := rfl
  updated_le := fun h => absurd rfl h

namespace Store

variable {s s' : Store} {authority : Authority}

theorem startImportJob_ok {source : ImportSourceDescriptor} {jobId : JobId} {auditRef : AuditRef}
    {settledAtUs : Nat}
    (h : s.startImportJob authority source jobId auditRef settledAtUs = .ok s') :
    s.find jobId = none ∧ s' = { s with jobs := s.jobs ++
      [Job.imported s.workspaceId authority source jobId auditRef settledAtUs] } := by
  simp only [startImportJob, bind_eq_ok, require_eq_ok, exists_unit, pure_eq_ok] at h
  obtain ⟨-, hnew, attempted, hattempted, told, htold, rfl⟩ := h
  obtain ⟨rfl, -⟩ := Job.insertAttempt_ok hattempted
  obtain ⟨rfl, -⟩ := Job.insertEvent_ok htold
  exact ⟨by simpa using hnew, rfl⟩

theorem write_ok {jobId : JobId} {op : JobOp} (h : s.write authority jobId op = .ok s') :
    ∃ j j', s.find jobId = some j ∧ op.apply authority j = .ok j' ∧
      s' = { s with jobs := s.jobs.map fun k => if k.metadata.jobId = jobId then j' else k } := by
  unfold write at h
  split at h
  next => cases h
  next j hj =>
    obtain ⟨j', hj', h⟩ := bind_eq_ok.1 h
    exact ⟨j, j', hj, hj', (pure_eq_ok.1 h).symm⟩

theorem find_mem {jobId : JobId} {j : Job} (h : s.find jobId = some j) :
    j ∈ s.jobs ∧ j.metadata.jobId = jobId :=
  ⟨List.mem_of_find?_eq_some h, by simpa using List.find?_some h⟩

/-- What a step did to the job an id names. -/
inductive Step (s s' : Store) (label : Label) (jobId : JobId) : Prop where
  | absent (h : s.find jobId = none) (h' : s'.find jobId = none)
  | created (source : ImportSourceDescriptor) (auditRef : AuditRef) (settledAtUs : Nat)
      (h : s.find jobId = none)
      (h' : s'.find jobId =
        some (Job.imported s.workspaceId s.holder source jobId auditRef settledAtUs))
  | untouched (j : Job) (h : s.find jobId = some j) (h' : s'.find jobId = some j)
  | written (op : JobOp) (j j' : Job) (h : s.find jobId = some j) (h' : s'.find jobId = some j')
      (hasks : s.Asks label jobId op) (happly : op.apply s.holder j = .ok j')

/-- The loop recovers the jobs it selects, in place, and leaves the others. -/
theorem recoverEach_ok {jobIds : Option (List JobId)} {nowUs : Nat} {jobs jobs' : List Job}
    (h : recoverEach authority jobIds nowUs jobs = .ok jobs') :
    List.Forall₂ (fun j j' => j' = j ∨
      (isStranded authority jobIds j = true ∧ j.recover authority nowUs = .ok j')) jobs jobs' := by
  induction jobs generalizing jobs' with
  | nil =>
    obtain rfl := pure_eq_ok.1 h
    exact .nil
  | cons j jobs ih =>
    simp only [recoverEach, bind_eq_ok, pure_eq_ok] at h
    obtain ⟨j', hj', jobs'', hjobs, rfl⟩ := h
    refine .cons ?_ (ih hjobs)
    unfold recoverIfStranded at hj'
    split at hj'
    next hstranded => exact .inr ⟨hstranded, hj'⟩
    next => exact .inl (pure_eq_ok.1 hj').symm

theorem find_forall₂ {R : Job → Job → Prop} (jobId : JobId) {jobs jobs' : List Job}
    (hid : ∀ j ∈ jobs, ∀ j', R j j' → j'.metadata.jobId = j.metadata.jobId)
    (h : List.Forall₂ R jobs jobs') :
    (jobs.find? (·.metadata.jobId = jobId) = none ∧
      jobs'.find? (·.metadata.jobId = jobId) = none) ∨
    ∃ j j', jobs.find? (·.metadata.jobId = jobId) = some j ∧
      jobs'.find? (·.metadata.jobId = jobId) = some j' ∧ R j j' := by
  induction h with
  | nil => exact .inl ⟨rfl, rfl⟩
  | @cons j j' jobs jobs' hj _ ih =>
    simp only [List.find?_cons, hid j (List.mem_cons_self ..) j' hj]
    by_cases hjob : j.metadata.jobId = jobId
    · simp only [hjob, decide_true]
      exact .inr ⟨j, j', rfl, rfl, hj⟩
    · simp only [hjob, decide_false]
      exact ih fun k hk => hid k (List.mem_cons_of_mem _ hk)

theorem write_step (hs : s.Valid) {label : Label} {jobId : JobId} {op : JobOp}
    (hwrite : s.write s.holder jobId op = .ok s') (hasks : s.Asks label jobId op) (id : JobId) :
    Step s s' label id := by
  obtain ⟨j, j', hj, happly, rfl⟩ := write_ok hwrite
  obtain ⟨hmem, hjob⟩ := find_mem hj
  have hframe := (JobOp.apply_frame (hs j hmem) happly).1
  have hid : ∀ k ∈ s.jobs, ∀ k', k' = (if k.metadata.jobId = jobId then j' else k) →
      k'.metadata.jobId = k.metadata.jobId := by
    rintro k - k' rfl
    split
    next hk => rw [hframe, hjob, hk]
    next => rfl
  obtain ⟨h, h'⟩ | ⟨k, k', h, h', rfl⟩ := find_forall₂ id hid
    (List.forall₂_map_right_iff.2 (List.forall₂_same.2 fun _ _ => rfl))
  · exact .absent h h'
  · by_cases hk : k.metadata.jobId = jobId
    · obtain rfl : id = jobId := (find_mem h).2.symm.trans hk
      obtain rfl := Option.some.inj (hj.symm.trans h)
      rw [if_pos hk] at h'
      exact .written op j j' h h' hasks happly
    · rw [if_neg hk] at h'
      exact .untouched k h h'

theorem recoverStranded_step (hs : s.Valid) {jobIds : Option (List JobId)} {nowUs : Nat}
    {jobs' : List Job} (h : recoverEach s.holder jobIds nowUs s.jobs = .ok jobs') (id : JobId) :
    Step s { s with jobs := jobs' } (.call s.holder (.recoverStranded jobIds nowUs)) id := by
  have hid : ∀ j ∈ s.jobs, ∀ j', (j' = j ∨
      (isStranded s.holder jobIds j = true ∧ j.recover s.holder nowUs = .ok j')) →
      j'.metadata.jobId = j.metadata.jobId := by
    rintro j hj j' (rfl | ⟨-, hrecover⟩)
    · rfl
    · have happly : (JobOp.recover nowUs).apply s.holder j = .ok j' := hrecover
      exact congrArg _ (JobOp.apply_frame (hs j hj) happly).1
  obtain ⟨h, h'⟩ | ⟨j, j', h, h', rfl | ⟨hstranded, hrecover⟩⟩ :=
    find_forall₂ id hid (recoverEach_ok h)
  · exact .absent h h'
  · exact .untouched j' h h'
  · rw [isStranded, Bool.and_eq_true, (find_mem h).2] at hstranded
    exact .written (.recover nowUs) j j' h h' ⟨rfl, hstranded.2, rfl⟩ hrecover

theorem startImportJob_step {source : ImportSourceDescriptor} {jobId : JobId} {auditRef : AuditRef}
    {settledAtUs : Nat} {label : Label}
    (h : s.startImportJob s.holder source jobId auditRef settledAtUs = .ok s') (id : JobId) :
    Step s s' label id := by
  obtain ⟨hnew, rfl⟩ := startImportJob_ok h
  cases hfind : s.find id with
  | some j =>
    refine .untouched j hfind ?_
    unfold find at hfind ⊢
    rw [List.find?_append, hfind, Option.some_or]
  | none =>
    by_cases hid : jobId = id
    · subst hid
      refine .created source auditRef settledAtUs hfind ?_
      unfold find at hfind ⊢
      rw [List.find?_append, hfind, Option.none_or]
      simp [Job.imported, importJob]
    · refine .absent hfind ?_
      unfold find at hfind ⊢
      rw [List.find?_append, hfind, Option.none_or]
      simp [Job.imported, importJob, hid]

theorem step_find (hs : s.Valid) (label : Label) (id : JobId) : Step s (s.step label) label id := by
  have hsame : ∀ s' : Store, s'.jobs = s.jobs → Step s s' label id := by
    intro s' hjobs
    cases h : s.find id with
    | none => exact .absent h (by rw [find, hjobs]; exact h)
    | some j => exact .untouched j h (by rw [find, hjobs]; exact h)
  cases label with
  | takeover authority =>
    refine hsame _ ?_
    simp only [step]
    split <;> rfl
  | call authority call =>
    cases hperform : s.perform authority call with
    | error e => exact hsame _ (by simp only [step, hperform])
    | ok s' =>
      simp only [step, hperform]
      obtain ⟨_, hholder, hcall⟩ := bind_eq_ok.1 hperform
      obtain rfl := require_eq_ok.1 hholder
      cases call with
      | startImportJob source jobId auditRef settledAtUs => exact startImportJob_step hcall id
      | claimOldest nowUs =>
        cases holdest : s.oldestQueued with
        | none => simp [holdest] at hcall
        | some jobId =>
          simp only [holdest] at hcall
          refine write_step hs hcall ?_ id
          exact ⟨rfl, holdest, rfl⟩
      | recoverStranded jobIds nowUs =>
        obtain ⟨jobs', hjobs, hcall⟩ := bind_eq_ok.1 hcall
        obtain rfl := pure_eq_ok.1 hcall
        exact recoverStranded_step hs hjobs id
      | write jobId op =>
        refine write_step hs hcall ?_ id
        exact ⟨rfl, rfl, rfl⟩

/-! ## Runs -/

theorem write_valid (hs : s.Valid) {jobId : JobId} {op : JobOp}
    (h : s.write authority jobId op = .ok s') : s'.Valid := by
  obtain ⟨j, j', hj, happly, rfl⟩ := write_ok h
  intro k hk
  obtain ⟨k₀, hk₀, rfl⟩ := List.mem_map.1 hk
  split
  · exact JobOp.apply_valid (hs j (find_mem hj).1) happly
  · exact hs k₀ hk₀

theorem perform_valid (hs : s.Valid) {call : Call} (h : s.perform authority call = .ok s') :
    s'.Valid := by
  obtain ⟨_, -, hcall⟩ := bind_eq_ok.1 h
  cases call with
  | startImportJob source jobId auditRef settledAtUs =>
    obtain ⟨-, rfl⟩ := startImportJob_ok hcall
    intro j hj
    rcases List.mem_append.1 hj with hj | hj
    · exact hs j hj
    · rw [List.mem_singleton.1 hj]
      exact Job.imported_valid
  | claimOldest nowUs =>
    cases holdest : s.oldestQueued with
    | none => simp [holdest] at hcall
    | some jobId =>
      simp only [holdest] at hcall
      exact write_valid hs hcall
  | recoverStranded jobIds nowUs =>
    obtain ⟨jobs', hjobs, hcall⟩ := bind_eq_ok.1 hcall
    obtain rfl := pure_eq_ok.1 hcall
    intro j' hj'
    obtain ⟨i, hi⟩ := List.mem_iff_getElem?.1 hj'
    have hforall := recoverEach_ok hjobs
    have hlt : i < s.jobs.length := hforall.length_eq ▸ (List.getElem?_eq_some_iff.1 hi).1
    have hj := List.getElem_mem hlt
    have hstep := List.forall₂_iff_get.1 hforall |>.2 i hlt (List.getElem?_eq_some_iff.1 hi).1
    rw [List.get_eq_getElem, List.get_eq_getElem, (List.getElem?_eq_some_iff.1 hi).2] at hstep
    obtain rfl | ⟨-, hrecover⟩ := hstep
    · exact hs _ hj
    · have happly : (JobOp.recover nowUs).apply authority s.jobs[i] = .ok j' := hrecover
      exact JobOp.apply_valid (hs _ hj) happly
  | write jobId op => exact write_valid hs hcall

theorem step_valid (hs : s.Valid) (label : Label) : (s.step label).Valid := by
  cases label with
  | takeover authority =>
    simp only [step]
    split <;> exact hs
  | call authority call =>
    cases hperform : s.perform authority call with
    | error e => simpa only [step, hperform] using hs
    | ok s' =>
      simp only [step, hperform]
      exact perform_valid hs hperform

theorem Reachable.valid (h : s.Reachable) : s.Valid := by
  obtain ⟨workspaceId, holder, stagedSources, labels, rfl⟩ := h
  refine run_invariant (P := Valid) (fun _ label hs => step_valid hs label) ?_ labels
  intro j hj
  cases hj

theorem Reachable.find_valid (h : s.Reachable) {jobId : JobId} {j : Job}
    (hj : s.find jobId = some j) : j.Valid :=
  h.valid j (find_mem hj).1

/-- A property of a job that creation gives and every writer this run asks for keeps holds of the
job in every store the run reaches. -/
theorem run_find_along {C : Store → Label → Prop} {jobId : JobId} {P : Job → Prop}
    (hcreated : ∀ workspaceId authority source auditRef settledAtUs,
      P (Job.imported workspaceId authority source jobId auditRef settledAtUs))
    (hwritten : ∀ {s : Store} {label : Label} {op : JobOp} {j j' : Job}, C s label →
      s.find jobId = some j → j.Valid → s.Asks label jobId op → op.apply s.holder j = .ok j' →
      P j → P j')
    {s : Store} (hs : s.Valid) (hP : ∀ j, s.find jobId = some j → P j) {labels : List Label}
    (hC : Along Store.step C s labels) :
    ∀ j, (run Store.step s labels).find jobId = some j → P j := by
  refine (run_invariant_along (P := fun s => s.Valid ∧ ∀ j, s.find jobId = some j → P j)
    ?_ ⟨hs, hP⟩ hC).2
  rintro s label hc ⟨hs, hP⟩
  refine ⟨step_valid hs label, fun j hj => ?_⟩
  cases step_find hs label jobId with
  | absent _ h' => cases hj.symm.trans h'
  | created source auditRef settledAtUs _ h' =>
    obtain rfl := Option.some.inj (hj.symm.trans h')
    exact hcreated _ _ _ _ _
  | untouched k h h' =>
    obtain rfl := Option.some.inj (hj.symm.trans h')
    exact hP _ h
  | written op k k' h h' hasks happly =>
    obtain rfl := Option.some.inj (hj.symm.trans h')
    exact hwritten hc h (hs k (find_mem h).1) hasks happly (hP _ h)

/-- A job once created stays, and what every writer this run asks for keeps, it keeps. -/
theorem run_written_along {C : Store → Label → Prop} {jobId : JobId} {P : Job → Prop}
    (hwritten : ∀ {s : Store} {label : Label} {op : JobOp} {j j' : Job}, C s label →
      s.find jobId = some j → j.Valid → s.Asks label jobId op → op.apply s.holder j = .ok j' →
      P j → P j')
    {s : Store} (hs : s.Valid) {j : Job} (hj : s.find jobId = some j) (hP : P j)
    {labels : List Label} (hC : Along Store.step C s labels) :
    ∃ j', (run Store.step s labels).find jobId = some j' ∧ P j' := by
  refine (run_invariant_along (P := fun s => s.Valid ∧ ∃ j, s.find jobId = some j ∧ P j)
    ?_ ⟨hs, j, hj, hP⟩ hC).2
  rintro s label hc ⟨hs, j, hj, hP⟩
  refine ⟨step_valid hs label, ?_⟩
  cases step_find hs label jobId with
  | absent h _ => cases hj.symm.trans h
  | created _ _ _ h _ => cases hj.symm.trans h
  | untouched k h h' =>
    obtain rfl := Option.some.inj (hj.symm.trans h)
    exact ⟨_, h', hP⟩
  | written op k k' h h' hasks happly =>
    obtain rfl := Option.some.inj (hj.symm.trans h)
    exact ⟨k', h', hwritten hc h (hs _ (find_mem h).1) hasks happly hP⟩

end Store

/-! ## A workspace with one import -/

def firstService : Authority := ⟨"service-1", 1⟩

def secondService : Authority := ⟨"service-2", 2⟩

def importWorkspaceId : WorkspaceId := ⟨"workspace", by decide⟩

def importJobId : JobId := ⟨"job", by decide⟩

def importAuditRef : AuditRef := ⟨"audit", by decide⟩

def importSource : ImportSourceDescriptor where
  stagedSourceRef := "staged"
  sourceKind := "archive"
  contentChecksum := "sha256:e3b0c44298fc1c149afbf4c8996fb92427ae41e4649b934ca495991b7852b855"
  contentLengthBytes := 0
  mediaType := "application/zip"
  sourceVersion := none
  ref_valid := by decide
  kind_valid := by decide
  checksum_valid := by decide
  media_valid := by decide
  version_valid := rfl

def importWorkspace : Store := Store.empty importWorkspaceId firstService [importSource]

/-- `import.start`, at second one. -/
def importStart : Label :=
  .call firstService (.startImportJob importSource importJobId importAuditRef 1000000)

def onImport (authority : Authority) (op : JobOp) : Label :=
  .call authority (.write importJobId op)

end OmniviaCore.Jobs
