import OmniviaCore.Imports.Execution
import OmniviaCore.Imports.Completions
import OmniviaCore.Lib.Digest

/-!
# The accounting of an import

Whatever is interleaved with an execution, and wherever it ends, a staged handle has at most one
artifact and its first provenance event, and a completion counts what it found: the artifact as created
when its own job wrote it, and as skipped otherwise (`Accounted`). A job that wrote the artifact and
then failed leaves the others to skip it.
-/

namespace OmniviaCore.Imports

open Lib Jobs

/-! ## What is counted -/

def Executor.reports : Executor → Option (JobId × Bool)
  | .published jobId _ created => some (jobId, created)
  | .imported jobId created => some (jobId, created)
  | _ => none

def Wrote (s : ImportStore) (j : Job) : Prop :=
  ∃ a ∈ s.artifacts, a.stagedSourceRef = j.source.stagedSourceRef ∧
    a.importRunId = some j.metadata.jobId.text

instance (s : ImportStore) (j : Job) : Decidable (Wrote s j) :=
  inferInstanceAs (Decidable (∃ a ∈ s.artifacts, _))

def jobsOf (s : ImportStore) (handle : String) : List Job :=
  s.store.jobs.filter (·.source.stagedSourceRef = handle)

/-- `evidence_records_created`, summed over the completions of a staged handle. -/
def createdTotal (s : ImportStore) (handle : String) : Nat :=
  ((jobsOf s handle).map fun j =>
    ((completions j).map ImportCompletionResult.evidenceRecordsCreated).sum).sum

section

variable {sha256 : List UInt8 → String}

variable (sha256) in
/-- What a job counts is what the artifact of its staged handle says of it. -/
def Accounted (s : ImportStore) (jobId : JobId) (created : Bool) : Prop :=
  ∃ j, s.store.find jobId = some j ∧ ∃ a ∈ s.artifacts,
    a.evidenceId = evidenceIdOf sha256 s.store.workspaceId.text j.source.stagedSourceRef ∧
      created = decide (a.importRunId = some jobId.text)

variable (sha256) in
/-- The invariant. -/
structure Consistent (s : ImportStore) : Prop where
  valid : s.store.Valid
  jobs : Lib.Unique jobIdOf s.store.jobs
  once : ∀ jobId j, s.store.find jobId = some j → Once j
  artifacts : Lib.Unique ArtifactRow.evidenceId s.artifacts
  derived : ∀ a ∈ s.artifacts,
    a.evidenceId = evidenceIdOf sha256 s.store.workspaceId.text a.stagedSourceRef
  provenance : s.provenance.map ProvenanceRow.evidenceId = s.artifacts.map ArtifactRow.evidenceId
  wrote : ∀ a ∈ s.artifacts, ∃ jobId j, s.store.find jobId = some j ∧
    a.importRunId = some jobId.text ∧ a.stagedSourceRef = j.source.stagedSourceRef
  validated : ∀ authority jobId source, s.executors authority = .validated jobId source →
    ∃ j, s.store.find jobId = some j ∧ j.source = source
  reports : ∀ authority jobId created, (s.executors authority).reports = some (jobId, created) →
    Accounted sha256 s jobId created
  completed : ∀ jobId j, s.store.find jobId = some j → ∀ result ∈ completions j,
    ∃ created, result = j.importCompletion created ∧ Accounted sha256 s jobId created

/-- What no step takes back: a job keeps its descriptor, and an artifact stays. -/
structure Extends (s s' : ImportStore) : Prop where
  workspaceId : s'.store.workspaceId = s.store.workspaceId
  jobs : ∀ jobId j, s.store.find jobId = some j →
    ∃ j', s'.store.find jobId = some j' ∧ j'.source = j.source
  artifacts : ∀ a ∈ s.artifacts, a ∈ s'.artifacts

variable {s s' : ImportStore} {authority : Authority} {jobId : JobId} {created : Bool}

theorem Accounted.extends (h : Accounted sha256 s jobId created) (hextends : Extends s s') :
    Accounted sha256 s' jobId created := by
  obtain ⟨j, hj, a, ha, hid, hcreated⟩ := h
  obtain ⟨j', hj', hsource⟩ := hextends.jobs jobId j hj
  refine ⟨j', hj', a, hextends.artifacts a ha, ?_, hcreated⟩
  rw [hid, hextends.workspaceId, hsource]

/-! ## The executor of an instance -/

theorem Consistent.withExecutor (h : Consistent sha256 s) {executor : Executor}
    (hvalidated : ∀ jobId source, executor = .validated jobId source →
      ∃ j, s.store.find jobId = some j ∧ j.source = source)
    (hreports : ∀ jobId created, executor.reports = some (jobId, created) →
      Accounted sha256 s jobId created) : Consistent sha256 (s.withExecutor authority executor) where
  valid := h.valid
  jobs := h.jobs
  once := h.once
  artifacts := h.artifacts
  derived := h.derived
  provenance := h.provenance
  wrote := h.wrote
  validated := by
    intro authority' jobId source hexecutor
    simp only [ImportStore.withExecutor] at hexecutor
    split at hexecutor
    · exact hvalidated jobId source hexecutor
    · exact h.validated authority' jobId source hexecutor
  reports := by
    intro authority' jobId created hexecutor
    simp only [ImportStore.withExecutor] at hexecutor
    split at hexecutor
    · exact hreports jobId created hexecutor
    · exact h.reports authority' jobId created hexecutor
  completed := h.completed

theorem Consistent.withIdle (h : Consistent sha256 s) {executor : Executor}
    (hreports : executor.reports = none)
    (hvalidated : ∀ jobId source, executor ≠ .validated jobId source) :
    Consistent sha256 (s.withExecutor authority executor) :=
  h.withExecutor (fun jobId source heq => absurd heq (hvalidated jobId source))
    fun jobId created heq => by rw [hreports] at heq; cases heq

/-! ## A step of the job store -/

theorem extends_step (h : Consistent sha256 s) (label : Label) :
    Extends s { s with store := s.store.step label } where
  workspaceId := (step_ids h.valid label).1
  jobs := by
    intro jobId j hj
    cases Store.step_find h.valid label jobId with
    | absent hnone _ => cases hj.symm.trans hnone
    | created _ _ _ hnone _ => cases hj.symm.trans hnone
    | untouched k hk hk' =>
      obtain rfl := Option.some.inj (hj.symm.trans hk)
      exact ⟨_, hk', rfl⟩
    | written op k k' hk hk' _ happly =>
      obtain rfl := Option.some.inj (hj.symm.trans hk)
      exact ⟨k', hk', (JobOp.apply_frame (h.valid _ (Store.find_mem hj).1) happly).2⟩
  artifacts := fun _ ha => ha

/-- A step of the job store whose completions, if any, are accounted. -/
theorem Consistent.storeStep (h : Consistent sha256 s) {label : Label}
    (hcompletes : ∀ jobId created nowUs,
      s.store.Asks label jobId (.terminalize (.succeeded created) nowUs) →
      Accounted sha256 s jobId created) :
    Consistent sha256 { s with store := s.store.step label } := by
  have hextends := extends_step h label
  have hworkspace := hextends.workspaceId
  refine ⟨Store.step_valid h.valid label, unique_step h.valid h.jobs label, ?_, h.artifacts, ?_,
    h.provenance, ?_, ?_, ?_, ?_⟩
  · intro jobId j hj
    cases Store.step_find h.valid label jobId with
    | absent _ hnone => cases hj.symm.trans hnone
    | created source auditRef settledAtUs _ hk =>
      obtain rfl := Option.some.inj (hj.symm.trans hk)
      exact ⟨Nat.zero_le _, fun hne => absurd rfl hne⟩
    | untouched k hk hk' =>
      obtain rfl := Option.some.inj (hj.symm.trans hk')
      exact h.once jobId _ hk
    | written op k k' hk hk' _ happly =>
      obtain rfl := Option.some.inj (hj.symm.trans hk')
      exact apply_once (h.valid k (Store.find_mem hk).1) (h.once jobId k hk) happly
  · intro a ha
    rw [hworkspace]
    exact h.derived a ha
  · intro a ha
    obtain ⟨jobId, j, hj, hrun, hhandle⟩ := h.wrote a ha
    obtain ⟨j', hj', hsource⟩ := hextends.jobs jobId j hj
    exact ⟨jobId, j', hj', hrun, by rw [hhandle, hsource]⟩
  · intro authority jobId source hexecutor
    obtain ⟨j, hj, hsource⟩ := h.validated authority jobId source hexecutor
    obtain ⟨j', hj', hsame⟩ := hextends.jobs jobId j hj
    exact ⟨j', hj', hsame.trans hsource⟩
  · intro authority jobId created hexecutor
    exact (h.reports authority jobId created hexecutor).extends hextends
  · intro jobId j hj result hresult
    cases Store.step_find h.valid label jobId with
    | absent _ hnone => cases hj.symm.trans hnone
    | created source auditRef settledAtUs _ hk =>
      obtain rfl := Option.some.inj (hj.symm.trans hk)
      cases hresult
    | untouched k hk hk' =>
      obtain rfl := Option.some.inj (hj.symm.trans hk')
      obtain ⟨created, heq, haccounted⟩ := h.completed jobId _ hk result hresult
      exact ⟨created, heq, haccounted.extends hextends⟩
    | written op k k' hk hk' hasks happly =>
      obtain rfl := Option.some.inj (hj.symm.trans hk')
      have hvalid := h.valid k (Store.find_mem hk).1
      have hframe := JobOp.apply_frame hvalid happly
      have hbuilt : ∀ created, k.importCompletion created = j.importCompletion created := by
        intro created
        simp only [Job.importCompletion, hframe.1, hframe.2]
      have hold : result ∈ completions k →
          ∃ created, result = j.importCompletion created ∧
            Accounted sha256 { s with store := s.store.step label } jobId created := by
        intro hmem
        obtain ⟨created, heq, haccounted⟩ := h.completed jobId k hk result hmem
        exact ⟨created, by rw [heq, hbuilt], haccounted.extends hextends⟩
      by_cases hop : ∃ created nowUs, op = .terminalize (.succeeded created) nowUs
      · obtain ⟨created, nowUs, rfl⟩ := hop
        rw [complete_completions hvalid happly, List.mem_append, List.mem_singleton] at hresult
        rcases hresult with hmem | rfl
        · exact hold hmem
        · exact ⟨created, hbuilt created, (hcompletes jobId created nowUs hasks).extends hextends⟩
      · rw [apply_completions hvalid (fun created nowUs heq => hop ⟨created, nowUs, heq⟩) happly]
          at hresult
        exact hold hresult

/-! ## The publication -/

/-- A publication appends one artifact of the handle and one event of the artifact. -/
theorem insertArtifact_eq_some {source : ImportSourceDescriptor} {nowUs : Nat}
    (h : s.insertArtifact sha256 jobId source nowUs = some s') :
    ∃ artifact event, s' = { s with
        artifacts := s.artifacts ++ [artifact], provenance := s.provenance ++ [event] } ∧
      artifact.evidenceId = evidenceIdOf sha256 s.store.workspaceId.text source.stagedSourceRef ∧
      artifact.stagedSourceRef = source.stagedSourceRef ∧ artifact.importRunId = some jobId.text ∧
      event.evidenceId = artifact.evidenceId := by
  unfold ImportStore.insertArtifact at h
  dsimp only at h
  split at h
  · cases h
  · cases h
    exact ⟨_, _, rfl, rfl, rfl, rfl, rfl⟩

/-- The two rows of a job's own execution, where the handle has no artifact yet. -/
theorem Consistent.insert (h : Consistent sha256 s) {j : Job} (hj : s.store.find jobId = some j)
    (habsent : ∀ a ∈ s.artifacts,
      a.evidenceId ≠ evidenceIdOf sha256 s.store.workspaceId.text j.source.stagedSourceRef)
    {nowUs : Nat} (hinsert : s.insertArtifact sha256 jobId j.source nowUs = some s') :
    Consistent sha256 s' ∧ Accounted sha256 s' jobId true ∧ s'.executors = s.executors := by
  obtain ⟨artifact, event, rfl, hid, hhandle, hrun, hevent⟩ := insertArtifact_eq_some hinsert
  have hextends : Extends s { s with
      artifacts := s.artifacts ++ [artifact], provenance := s.provenance ++ [event] } :=
    ⟨rfl, fun jobId j hj => ⟨j, hj, rfl⟩, fun a ha => List.mem_append_left _ ha⟩
  refine ⟨⟨h.valid, h.jobs, h.once, ?_, ?_, ?_, ?_, h.validated, ?_, ?_⟩, ?_, rfl⟩
  · exact h.artifacts.concat fun a ha => by rw [hid]; exact habsent a ha
  · intro a ha
    rcases List.mem_append.1 ha with ha | ha
    · exact h.derived a ha
    · rw [List.mem_singleton.1 ha, hid, hhandle]
  · rw [List.map_append, List.map_append, h.provenance, List.map_singleton, List.map_singleton, hevent]
  · intro a ha
    rcases List.mem_append.1 ha with ha | ha
    · exact h.wrote a ha
    · rw [List.mem_singleton.1 ha]
      exact ⟨jobId, j, hj, hrun, hhandle⟩
  · intro authority jobId created hexecutor
    exact (h.reports authority jobId created hexecutor).extends hextends
  · intro jobId j hj result hresult
    obtain ⟨created, heq, haccounted⟩ := h.completed jobId j hj result hresult
    exact ⟨created, heq, haccounted.extends hextends⟩
  · exact ⟨j, hj, artifact, List.mem_append_right _ (List.mem_singleton_self _), hid,
      by rw [hrun]; simp⟩

theorem Consistent.publishEvidence (h : Consistent sha256 s) {source : ImportSourceDescriptor}
    (hexecutor : s.executors authority = .validated jobId source) (nowUs : Nat) :
    Consistent sha256 (s.publishEvidence sha256 authority jobId source nowUs) := by
  obtain ⟨j, hj, rfl⟩ := h.validated authority jobId source hexecutor
  have hidle : Consistent sha256 (s.withExecutor authority .idle) :=
    h.withIdle rfl fun jobId source heq => by cases heq
  unfold ImportStore.publishEvidence
  split
  · exact hidle
  · dsimp only
    split
    · next existing hfind =>
      have hid := List.find?_some hfind
      refine h.withExecutor (fun jobId source heq => by cases heq) ?_
      rintro _ _ ⟨⟩
      exact ⟨j, hj, existing, List.mem_of_find?_eq_some hfind, by simpa using hid, rfl⟩
    · next hfind =>
      have habsent : ∀ a ∈ s.artifacts, a.evidenceId ≠
          evidenceIdOf sha256 s.store.workspaceId.text j.source.stagedSourceRef := by
        intro a ha
        have hnone := List.find?_eq_none.1 hfind a ha
        simpa using hnone
      split
      · next s' hinsert =>
        obtain ⟨hs', haccounted, -⟩ := h.insert hj habsent hinsert
        refine hs'.withExecutor (fun jobId source heq => by cases heq) ?_
        rintro _ _ ⟨⟩
        exact haccounted
      · exact hidle

/-! ## Every step -/

theorem perform_step {call : Call} {store : Store} (h : s.store.perform authority call = .ok store) :
    store = s.store.step (.call authority call) := by
  simp only [Store.step, h]

theorem Consistent.terminalize (h : Consistent sha256 s) {outcome : Outcome}
    (houtcome : ∀ created, outcome = .succeeded created → Accounted sha256 s jobId created)
    (nowUs : Nat) : Consistent sha256 (s.terminalize authority jobId outcome nowUs) := by
  unfold ImportStore.terminalize
  split
  · next store hperform =>
    rw [perform_step hperform]
    refine (h.storeStep ?_).withIdle rfl fun jobId source heq => by cases heq
    rintro id created now ⟨-, rfl, hop⟩
    cases hop
    exact houtcome created rfl
  · exact h.withIdle rfl fun jobId source heq => by cases heq

theorem Consistent.nextPending (h : Consistent sha256 s) (nowUs : Nat) :
    Consistent sha256 (s.nextPending authority nowUs) := by
  unfold ImportStore.nextPending
  split
  · exact h
  · split
    · exact h.withIdle rfl fun jobId source heq => by cases heq
    · split
      · next store hperform =>
        rw [perform_step hperform]
        refine (h.storeStep ?_).withIdle rfl fun jobId source heq => by cases heq
        rintro id created now ⟨-, -, hop⟩
        cases hop
      · exact h

theorem Consistent.execute (h : Consistent sha256 s) (nowUs : Nat) (findable : Bool) :
    Consistent sha256 (s.execute sha256 authority nowUs findable) := by
  have hreports := h.reports authority
  unfold ImportStore.execute
  split
  · exact h.nextPending nowUs
  · next jobId hexecutor =>
    refine h.withExecutor ?_ ?_
    · intro id source heq
      unfold ImportStore.validate at heq
      split at heq
      · cases heq
      · next j hj =>
        split at heq
        · cases heq
          exact ⟨j, hj, rfl⟩
        · cases heq
    · intro id created heq
      unfold ImportStore.validate at heq
      split at heq
      · cases heq
      · split at heq <;> cases heq
  · next jobId source hexecutor => exact h.publishEvidence hexecutor nowUs
  · next jobId evidenceId created hexecutor =>
    refine h.withExecutor (fun id source heq => by split at heq <;> cases heq) ?_
    intro id created' heq
    refine hreports id created' ?_
    rw [hexecutor]
    split at heq
    · exact heq
    · cases heq
  · next jobId created hexecutor =>
    refine h.terminalize ?_ nowUs
    rintro _ ⟨⟩
    exact hreports jobId created (by rw [hexecutor]; rfl)
  · next jobId error hexecutor =>
    refine h.terminalize ?_ nowUs
    rintro _ ⟨⟩

theorem Consistent.unexpected (h : Consistent sha256 s) : Consistent sha256 (s.unexpected authority) := by
  unfold ImportStore.unexpected
  split
  · exact h.withIdle rfl fun jobId source heq => by cases heq
  · exact h.withIdle rfl fun jobId source heq => by cases heq
  · exact h.withIdle rfl fun jobId source heq => by cases heq
  · exact h

/-- The holder asks for a completion only by the label that `completes` refuses. -/
theorem completes_of_asks {label : Label} {nowUs : Nat}
    (h : s.store.Asks label jobId (.terminalize (.succeeded created) nowUs)) : completes label = true := by
  unfold Store.Asks at h
  split at h
  · obtain ⟨-, -, rfl⟩ := h
    rfl
  · cases h.2.2
  · cases h.2.2
  · cases h

theorem Consistent.step (h : Consistent sha256 s) (label : ImportLabel) :
    Consistent sha256 (s.step sha256 label) := by
  cases label with
  | jobs label =>
    simp only [ImportStore.step]
    split
    · exact h
    · next hcompletes =>
      exact h.storeStep fun jobId created nowUs hasks => absurd (completes_of_asks hasks) hcompletes
  | staged sources =>
    exact ⟨h.valid, h.jobs, h.once, h.artifacts, h.derived, h.provenance, h.wrote, h.validated,
      h.reports, h.completed⟩
  | execute authority nowUs findable => exact h.execute nowUs findable
  | unexpected authority => exact h.unexpected
  | crash authority => exact h.withIdle rfl fun jobId source heq => by cases heq

theorem consistent_empty (workspaceId : WorkspaceId) (holder : Authority)
    (stagedSources : List ImportSourceDescriptor) :
    Consistent sha256 (ImportStore.empty workspaceId holder stagedSources) where
  valid := fun _ hj => by cases hj
  jobs := List.nodup_nil
  once := fun _ _ hj => by cases hj
  artifacts := List.nodup_nil
  derived := fun _ ha => by cases ha
  provenance := rfl
  wrote := fun _ ha => by cases ha
  validated := fun _ _ _ heq => by cases heq
  reports := fun _ _ _ heq => by cases heq
  completed := fun _ _ hj => by cases hj

theorem consistent_run (workspaceId : WorkspaceId) (holder : Authority)
    (stagedSources : List ImportSourceDescriptor) (labels : List ImportLabel) :
    Consistent sha256 (run (ImportStore.step sha256)
      (ImportStore.empty workspaceId holder stagedSources) labels) :=
  run_invariant (fun _ label h => h.step label) (consistent_empty workspaceId holder stagedSources) labels

/-! ## The sums -/

theorem sum_indicators {α : Type} {p : α → Prop} [DecidablePred p] {l : List α} (hnodup : l.Nodup)
    (hunique : ∀ x ∈ l, ∀ y ∈ l, p x → p y → x = y) :
    (l.map fun x => if p x then 1 else 0).sum = if ∃ x ∈ l, p x then 1 else 0 := by
  induction l with
  | nil => simp
  | cons x l ih =>
    obtain ⟨hx, hnodup⟩ := List.nodup_cons.1 hnodup
    have hrest := ih hnodup fun y hy z hz =>
      hunique y (List.mem_cons_of_mem _ hy) z (List.mem_cons_of_mem _ hz)
    rw [List.map_cons, List.sum_cons, hrest]
    by_cases hpx : p x
    · have hnone : ¬ ∃ y ∈ l, p y := by
        rintro ⟨y, hy, hpy⟩
        obtain rfl := hunique x (List.mem_cons_self ..) y (List.mem_cons_of_mem _ hy) hpx hpy
        exact hx hy
      rw [if_pos hpx, if_neg hnone, if_pos ⟨x, List.mem_cons_self .., hpx⟩]
    · simp [hpx]

theorem Consistent.artifact_eq (h : Consistent sha256 s) {a b : ArtifactRow} (ha : a ∈ s.artifacts)
    (hb : b ∈ s.artifacts) (heq : a.evidenceId = b.evidenceId) : a = b :=
  List.inj_on_of_nodup_map h.artifacts ha hb heq

theorem Consistent.job_eq (h : Consistent sha256 s) {j k : Job} (hj : j ∈ s.store.jobs)
    (hk : k ∈ s.store.jobs) (heq : j.metadata.jobId.text = k.metadata.jobId.text) : j = k :=
  List.inj_on_of_nodup_map h.jobs hj hk (jobId_ext heq)

/-- A column without repetition has a value at most once, and once when it has it. -/
theorem length_filter_column {α : Type} {column : α → String} {l : List α} (h : (l.map column).Nodup)
    (value : String) : (l.filter (column · = value)).length ≤ 1 ∧
      (value ∈ l.map column → (l.filter (column · = value)).length = 1) := by
  have hcount : (l.filter (column · = value)).length = (l.map column).count value := by
    rw [List.count, List.countP_map, List.countP_eq_length_filter]
    rfl
  rw [hcount]
  exact ⟨List.nodup_iff_count_le_one.1 h value, fun hmem => List.count_eq_one_of_mem h hmem⟩

/-- What a job counts as created: the artifact, when its execution wrote it. -/
theorem Consistent.created_eq (h : Consistent sha256 s) {j : Job} (hj : j ∈ s.store.jobs) :
    ((completions j).map ImportCompletionResult.evidenceRecordsCreated).sum =
      if completions j ≠ [] ∧ Wrote s j then 1 else 0 := by
  have hfind := find_of_mem h.jobs hj
  have hle := (h.once _ j hfind).length_le
  cases hcompletions : completions j with
  | nil => rw [if_neg fun hne => hne.1 rfl]; rfl
  | cons result rest =>
    obtain rfl : rest = [] := by
      rw [hcompletions] at hle
      exact List.length_eq_zero_iff.1 (by simpa using hle)
    obtain ⟨created, rfl, k, hk, a, ha, hid, hcreated⟩ := h.completed _ j hfind result
      (by rw [hcompletions]; exact List.mem_singleton_self _)
    obtain rfl := Option.some.inj (hfind.symm.trans hk)
    have hwrote : Wrote s j ↔ created = true := by
      rw [hcreated, decide_eq_true_eq]
      constructor
      · rintro ⟨b, hb, hhandle, hrun⟩
        have hsame : b = a := h.artifact_eq hb ha (by rw [h.derived b hb, hid, hhandle])
        rw [← hsame]
        exact hrun
      · intro hrun
        obtain ⟨id, k, hk, hwriter, hhandle⟩ := h.wrote a ha
        rw [hrun, Option.some.injEq] at hwriter
        obtain rfl : id = j.metadata.jobId := jobId_ext hwriter.symm
        obtain rfl := Option.some.inj (hfind.symm.trans hk)
        exact ⟨a, ha, hhandle, hrun⟩
    rw [List.map_singleton, List.sum_singleton, Job.importCompletion]
    simp [hwrote]

/-- Under every interleaving of executions, crashes, recoveries and user controls, a staged handle has at
most one artifact and one provenance event, and has them once a job of it completes; every completion
accounts for the one item it discovered; and over all completions of the handle the artifact is counted as
created once if the job that wrote it completed, and otherwise not at all. -/
theorem import_effect_exact (sha256 : List UInt8 → String) (workspaceId : WorkspaceId)
    (holder : Authority) (stagedSources : List ImportSourceDescriptor) (labels : List ImportLabel)
    (handle : String) :
    let s := run (ImportStore.step sha256) (ImportStore.empty workspaceId holder stagedSources) labels
    let evidenceId := evidenceIdOf sha256 s.store.workspaceId.text handle
    (s.artifacts.filter (·.evidenceId = evidenceId)).length ≤ 1 ∧
      (∀ a ∈ s.artifacts, a.stagedSourceRef = handle → a.evidenceId = evidenceId) ∧
      (s.provenance.filter (·.evidenceId = evidenceId)).length ≤ 1 ∧
      (∀ j ∈ jobsOf s handle, completions j ≠ [] →
        (s.artifacts.filter (·.evidenceId = evidenceId)).length = 1 ∧
          (s.provenance.filter (·.evidenceId = evidenceId)).length = 1) ∧
      (∀ j ∈ jobsOf s handle, (completions j).length ≤ 1 ∧ ∀ result ∈ completions j,
        result.discoveredItems = result.evidenceRecordsCreated + result.skippedItems) ∧
      createdTotal s handle = if ∃ j ∈ jobsOf s handle, completions j ≠ [] ∧ Wrote s j then 1 else 0 := by
  intro s evidenceId
  have h : Consistent sha256 s := consistent_run workspaceId holder stagedSources labels
  have hjobs : ∀ j ∈ jobsOf s handle, j ∈ s.store.jobs ∧ j.source.stagedSourceRef = handle := by
    intro j hj
    simpa [jobsOf] using hj
  have hevents : (s.provenance.map ProvenanceRow.evidenceId).Nodup := h.provenance ▸ h.artifacts
  refine ⟨(length_filter_column h.artifacts evidenceId).1, ?_, (length_filter_column hevents evidenceId).1,
    ?_, ?_, ?_⟩
  · intro a ha hhandle
    rw [h.derived a ha, hhandle]
  · intro j hj hne
    obtain ⟨hmem, hhandle⟩ := hjobs j hj
    have hfind := find_of_mem h.jobs hmem
    obtain ⟨result, hresult⟩ := List.exists_mem_of_ne_nil _ hne
    obtain ⟨created, -, k, hk, a, ha, hid, -⟩ := h.completed _ j hfind result hresult
    obtain rfl := Option.some.inj (hfind.symm.trans hk)
    have hartifact : evidenceId ∈ s.artifacts.map ArtifactRow.evidenceId :=
      List.mem_map.2 ⟨a, ha, by rw [hid, hhandle]⟩
    exact ⟨(length_filter_column h.artifacts evidenceId).2 hartifact,
      (length_filter_column hevents evidenceId).2 (h.provenance ▸ hartifact)⟩
  · intro j hj
    have hfind := find_of_mem h.jobs (hjobs j hj).1
    refine ⟨(h.once _ j hfind).length_le, fun result hresult => ?_⟩
    obtain ⟨created, rfl, -⟩ := h.completed _ j hfind result hresult
    cases created <;> rfl
  · have hcounts : createdTotal s handle =
        ((jobsOf s handle).map fun j => if completions j ≠ [] ∧ Wrote s j then 1 else 0).sum := by
      unfold createdTotal
      rw [List.map_congr_left fun j hj => h.created_eq (hjobs j hj).1]
    rw [hcounts]
    refine sum_indicators ((List.Nodup.of_map _ h.jobs).filter _) ?_
    rintro j hj k hk ⟨-, a, ha, hhandle, hrun⟩ ⟨-, b, hb, hhandle', hrun'⟩
    have hsame : a = b := h.artifact_eq ha hb (by
      rw [h.derived a ha, h.derived b hb, hhandle, hhandle', (hjobs j hj).2, (hjobs k hk).2])
    rw [hsame, hrun', Option.some.injEq] at hrun
    exact h.job_eq (hjobs j hj).1 (hjobs k hk).1 hrun.symm

end

/-! ## Two imports of one staged archive -/

/-- SHA-256 of the two texts the identifiers are derived from, and a spelling of everything else. -/
def importDigest (bytes : List UInt8) : String :=
  if bytes = "workspace|staged".toList.flatMap String.utf8EncodeChar then
    "bc798a189aba0c10ad6dd240f3ab07c2ef056243163bce445842dffb9383ba99"
  else
    spelledDigest ("workspace|staged|1".toList.flatMap String.utf8EncodeChar)
      "35ae4335b8a2aac4965efb93b3eda84b7cfe2b92f7654efcdfdf9d91fc03abf3" bytes

/-- The first service executes, and its barrier finds what it looks for. -/
def executeFirst (nowUs : Nat) : ImportLabel := .execute firstService nowUs true

/-- The import that publishes the artifact and fails at its barrier, and a second one that completes. -/
def importTwice : List ImportLabel :=
  [.jobs importStart, executeFirst 2000000, executeFirst 2000001, executeFirst 2000002,
    .execute firstService 2000003 false, executeFirst 2000004,
    .jobs (.call firstService
      (.startImportJob importSource ⟨"job-2", by decide⟩ ⟨"audit-2", by decide⟩ 3000000)),
    executeFirst 4000000, executeFirst 4000001, executeFirst 4000002, executeFirst 4000003,
    executeFirst 4000004]

/-- The artifact is there and an import of its handle completed, and none counted it as created. -/
theorem created_never_counted :
    let s := run (ImportStore.step importDigest)
      (ImportStore.empty importWorkspaceId firstService [importSource]) importTwice
    s.artifacts.length = 1 ∧
      ((jobsOf s "staged").map fun j => (completions j).map fun result =>
        (result.discoveredItems, result.evidenceRecordsCreated, result.skippedItems)) =
          [[], [(1, 0, 1)]] ∧
      createdTotal s "staged" = 0 := by
  decide +kernel

end OmniviaCore.Imports
