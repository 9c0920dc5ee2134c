import OmniviaCore.Jobs.EventLog

/-!
# The completions of a job

A terminalization as `succeeded` adds a completion and no other writer does (`apply_completions`), and a
job that has one is settled for good: it has one, and no recovery takes it back (`apply_once`).
-/

namespace OmniviaCore.Imports

open Lib Jobs

def completions (j : Job) : List ImportCompletionResult :=
  j.observations.filterMap fun o =>
    match o.document with
    | .success _ result => some result
    | _ => none

/-- At most one completion, of a job that has succeeded. -/
structure Once (j : Job) : Prop where
  length_le : (completions j).length ≤ 1
  succeeded : completions j ≠ [] → j.state = .succeeded

variable {j j' : Job} {authority : Authority} {nowUs updatedAtUs : Nat}

theorem Once.completions_eq_nil (h : Once j) (hstate : j.state ≠ .succeeded) : completions j = [] := by
  by_contra hne
  exact hstate (h.succeeded hne)

theorem completions_ended_success (kind : String) (result : ImportCompletionResult) (message : String) :
    completions (j.ended authority nowUs updatedAtUs (.success kind result) message) =
      completions j ++ [result] := by
  simp [completions, Job.ended, List.filterMap_append]

theorem completions_ended {document : TerminalDocument} (h : document.state ≠ .succeeded)
    (message : String) :
    completions (j.ended authority nowUs updatedAtUs document message) = completions j := by
  cases document with
  | success kind result => exact absurd rfl h
  | failure error => simp [completions, Job.ended, List.filterMap_append]
  | cancellation reason => simp [completions, Job.ended, List.filterMap_append]

/-- The document of an outcome other than a completion. -/
theorem documentOf_state {outcome : Outcome} {document : TerminalDocument}
    (houtcome : ∀ created, outcome ≠ .succeeded created) (h : j.documentOf outcome = .ok document) :
    document.state ≠ .succeeded := by
  cases outcome with
  | succeeded created => exact absurd rfl (houtcome created)
  | failed error =>
    cases h
    exact fun hstate => by cases hstate
  | cancelled reason =>
    cases h
    exact fun hstate => by cases hstate
  | other state => cases h

theorem terminalize_completions (hv : j.Valid) {outcome : Outcome}
    (houtcome : ∀ created, outcome ≠ .succeeded created)
    (h : j.terminalize authority nowUs outcome = .ok j') : completions j' = completions j := by
  obtain ⟨-, -, -, -, document, hdocument, -, rfl⟩ := Job.terminalize_ok hv h
  exact completions_ended (documentOf_state houtcome hdocument) _

theorem complete_completions (hv : j.Valid) {created : Bool}
    (h : j.terminalize authority nowUs (.succeeded created) = .ok j') :
    completions j' = completions j ++ [j.importCompletion created] := by
  obtain ⟨-, -, -, -, document, hdocument, -, rfl⟩ := Job.terminalize_ok hv h
  cases hdocument
  exact completions_ended_success _ _ _

theorem apply_completions {op : JobOp} (hv : j.Valid)
    (hop : ∀ created nowUs, op ≠ .terminalize (.succeeded created) nowUs)
    (h : op.apply authority j = .ok j') : completions j' = completions j := by
  cases op with
  | claim nowUs =>
    obtain ⟨-, -, -, rfl⟩ := Job.claim_ok hv h
    rfl
  | terminalize outcome nowUs =>
    exact terminalize_completions hv (fun created heq => hop created nowUs (by rw [heq])) h
  | requestCancellation settledAtUs =>
    obtain ⟨-, -, -, rfl⟩ | ⟨-, rfl⟩ := Job.requestCancellation_ok hv h <;> rfl
  | requestRetry settledAtUs =>
    obtain ⟨-, -, rfl⟩ | ⟨-, -, rfl⟩ | ⟨-, -, -, rfl⟩ := Job.requestRetry_ok hv h <;> rfl
  | acknowledgeCancellation sawQueued startedAtUs nowUs reason =>
    have hcancelled : ∀ created, Outcome.cancelled reason ≠ .succeeded created := by
      rintro created ⟨⟩
    obtain ⟨started, hqueued, hbudget, hnow, rfl, h⟩ | h := Job.acknowledgeCancellation_ok hv h
    · rw [terminalize_completions (hv.started hqueued hbudget hnow) hcancelled h]
      rfl
    · exact terminalize_completions hv hcancelled h
  | adoptStaleClaim nowUs =>
    obtain ⟨-, -, rfl⟩ := Job.adoptStaleClaim_ok h
    rfl
  | recover nowUs =>
    obtain ⟨-, -, -, ⟨-, rfl⟩ | ⟨-, rfl⟩⟩ := Job.recover_ok hv h
    all_goals exact (completions_ended (by decide) _ : completions (j.interrupted authority nowUs) = _)
  | insertCheckpoint attemptNumber createdAtUs =>
    obtain ⟨row, rfl⟩ := Job.insertCheckpoint_ok h
    rfl

theorem Once.change (h : Once j) (hchange : Job.Change authority j j') : Once j' := by
  have hnil : ∀ {k : Job}, j.state ≠ .succeeded → completions k = completions j → Once k := by
    intro k hstate hsame
    rw [h.completions_eq_nil hstate] at hsame
    exact ⟨by rw [hsame]; exact Nat.zero_le _, fun hne => absurd hsame hne⟩
  cases hchange with
  | started nowUs message hqueued _ _ => exact hnil (by rw [hqueued]; decide) rfl
  | ended nowUs updatedAtUs document message hclaimed _ _ _ =>
    have hstate : j.state ≠ .succeeded := by
      rw [hclaimed]
      decide
    by_cases hdocument : document.state = .succeeded
    · cases document with
      | success kind result =>
        refine ⟨?_, fun _ => rfl⟩
        rw [completions_ended_success, h.completions_eq_nil hstate]
        exact Nat.le_refl 1
      | failure error => cases hdocument
      | cancellation reason => cases hdocument
    · exact hnil hstate (completions_ended hdocument message)
  | requeued c message hstate _ _ =>
    exact hnil (by rcases hstate with hstate | hstate <;> rw [hstate] <;> decide) rfl
  | noted c _ => exact ⟨h.length_le, h.succeeded⟩
  | told nowUs message _ => exact ⟨h.length_le, h.succeeded⟩
  | checkpointed row => exact ⟨h.length_le, h.succeeded⟩

theorem apply_once {op : JobOp} (hv : j.Valid) (h : Once j) (happly : op.apply authority j = .ok j') :
    Once j' := by
  obtain ⟨nowUs, -, -, rfl⟩ | hchanges := JobOp.apply_cases hv happly
  · exact ⟨h.length_le, h.succeeded⟩
  · exact (hchanges.invariant (P := Once) (fun _ hk hchange => hk.change hchange) hv h).2

/-! ## The ids of a store -/

variable {s s' : Store}

theorem jobId_ext {a b : JobId} (h : a.text = b.text) : a = b := by
  cases a
  cases b
  cases h
  rfl

def jobIdOf (j : Job) : JobId := j.metadata.jobId

theorem find_of_mem (h : Lib.Unique jobIdOf s.jobs) (hj : j ∈ s.jobs) :
    s.find j.metadata.jobId = some j :=
  h.find? hj rfl

theorem write_ids (hs : s.Valid) {jobId : JobId} {op : JobOp}
    (h : s.write authority jobId op = .ok s') : s'.jobs.map jobIdOf = s.jobs.map jobIdOf := by
  obtain ⟨j, j', hj, happly, rfl⟩ := Store.write_ok h
  obtain ⟨hmem, hjob⟩ := Store.find_mem hj
  rw [List.map_map]
  refine List.map_congr_left fun k _ => ?_
  simp only [Function.comp_apply]
  split
  · next hk => rw [jobIdOf, (JobOp.apply_frame (hs j hmem) happly).1, hjob, jobIdOf, hk]
  · rfl

theorem recoverEach_ids {jobIds : Option (List JobId)} {jobs jobs' : List Job}
    (hs : ∀ j ∈ jobs, j.Valid) (h : Store.recoverEach authority jobIds nowUs jobs = .ok jobs') :
    jobs'.map jobIdOf = jobs.map jobIdOf := by
  have hforall := Store.recoverEach_ok h
  clear h
  induction hforall with
  | nil => rfl
  | @cons j j' jobs jobs' hrow _ ih =>
    rw [List.map_cons, List.map_cons, ih fun k hk => hs k (List.mem_cons_of_mem _ hk)]
    obtain rfl | ⟨-, hrecover⟩ := hrow
    · rfl
    · have happly : (JobOp.recover nowUs).apply authority j = .ok j' := hrecover
      rw [jobIdOf, (JobOp.apply_frame (hs j (List.mem_cons_self ..)) happly).1, jobIdOf]

/-- A step keeps the workspace and the ids of its jobs, or creates a job of a new id. -/
theorem step_ids (hs : s.Valid) (label : Label) :
    (s.step label).workspaceId = s.workspaceId ∧
      ((s.step label).jobs.map jobIdOf = s.jobs.map jobIdOf ∨
        ∃ j, s.find j.metadata.jobId = none ∧ (s.step label).jobs = s.jobs ++ [j]) := by
  have hwrite : ∀ {authority : Authority} {jobId : JobId} {op : JobOp} {s' : Store},
      s.write authority jobId op = .ok s' →
      s'.workspaceId = s.workspaceId ∧ (s'.jobs.map jobIdOf = s.jobs.map jobIdOf ∨
        ∃ j, s.find j.metadata.jobId = none ∧ s'.jobs = s.jobs ++ [j]) := by
    intro authority jobId op s' hwritten
    have hids := write_ids hs hwritten
    obtain ⟨_, _, -, -, rfl⟩ := Store.write_ok hwritten
    exact ⟨rfl, .inl hids⟩
  cases label with
  | takeover authority =>
    simp only [Store.step]
    split <;> exact ⟨rfl, .inl rfl⟩
  | call authority call =>
    cases hperform : s.perform authority call with
    | error e =>
      simp only [Store.step, hperform]
      exact ⟨trivial, .inl trivial⟩
    | ok s' =>
      simp only [Store.step, hperform]
      obtain ⟨_, -, hcall⟩ := bind_eq_ok.1 hperform
      cases call with
      | startImportJob source jobId auditRef settledAtUs =>
        obtain ⟨hnew, rfl⟩ := Store.startImportJob_ok hcall
        exact ⟨rfl, .inr ⟨_, hnew, rfl⟩⟩
      | claimOldest nowUs =>
        cases holdest : s.oldestQueued with
        | none => simp [holdest] at hcall
        | some jobId =>
          simp only [holdest] at hcall
          exact hwrite hcall
      | recoverStranded jobIds nowUs =>
        obtain ⟨jobs', hjobs, hcall⟩ := bind_eq_ok.1 hcall
        obtain rfl := pure_eq_ok.1 hcall
        exact ⟨rfl, .inl (recoverEach_ids hs hjobs)⟩
      | write jobId op => exact hwrite hcall

theorem unique_step (hs : s.Valid) (h : Lib.Unique jobIdOf s.jobs) (label : Label) :
    Lib.Unique jobIdOf (s.step label).jobs := by
  obtain ⟨-, hids | ⟨j, hnew, hjobs⟩⟩ := step_ids hs label
  · unfold Lib.Unique
    rw [hids]
    exact h
  · rw [hjobs]
    refine h.concat fun k hk heq => ?_
    have hnone := List.find?_eq_none.1 hnew k hk
    exact hnone (decide_eq_true heq)

end OmniviaCore.Imports
