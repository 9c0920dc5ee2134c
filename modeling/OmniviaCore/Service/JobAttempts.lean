import OmniviaCore.Service.JobQueue

/-!
# The attempts of a queued job

A claim is an attempt, and `fail` counts it when it ends. `recover_stranded` takes a claim back and
counts nothing, and `complete` and `fail` ask only that the job is claimed. `Counted` is what a step
must meet for one job: it is not recovered while stranded, nobody completes or fails it while it is
stranded, and `fail` counts from what the row says. Then the claims of the job are its counted attempts
and the one that is open (`Accounted`).
-/

namespace OmniviaCore.Service

open Lib Ownership

variable {π : Type}

/-- What a queue operation must meet on the row of a job, under the generation of its owner. -/
def JobOperation.CountedOn (row : JobRow π) (generation : Nat) : JobOperation π → Prop
  | .recoverStranded _ => ¬ row.Stranded generation
  | .complete jobId _ => jobId = row.jobId → ¬ row.Stranded generation
  | .fail jobId _ seen _ =>
    jobId = row.jobId → ¬ row.Stranded generation ∧ (row.state = .claimed → seen = row.attempts)
  | _ => True

/-- What a step must meet for the job `jobId`. A queue operation whose owner does not hold the
workspace is refused and meets it. -/
def Counted (jobId : String) (s : Served π) : ServedCall π → Prop
  | .ownership _ _ => True
  | .queue owner operation =>
    RecordedHolder s.database.durable owner.identity.serviceInstanceId owner.fencingGeneration →
      ∀ row ∈ s.rows, row.jobId = jobId → operation.CountedOn row owner.fencingGeneration

def JobOperation.ends : JobOperation π → Option String
  | .complete jobId _ => some jobId
  | .fail jobId _ _ _ => some jobId
  | _ => none

/-- A step that completes or fails the job is its claimant's, under the generation of the claim. -/
def HolderOnly (maxAttempts : Int) (jobId : String) (s : Served π) : ServedCall π → Prop
  | .ownership _ _ => True
  | .queue owner operation =>
    operation.ends = some jobId →
    (perform s.database ((ServedCall.queue owner operation).call maxAttempts)).2 = .ok () →
      ∃ row ∈ s.rows, row.jobId = jobId ∧ row.state = .claimed ∧
        row.claimedByServiceInstance = some owner.identity.serviceInstanceId ∧
        row.fencingGeneration = some owner.fencingGeneration

/-! ## One step -/

theorem tableBody_ok {statements : JobTable π → Except String (Option (JobTable π))}
    {db : Db (JobTable π)} (h : (tableBody statements db).2 = none) :
    ∃ written, statements db.rows = .ok written ∧
      (tableBody statements db).1 = { db with rows := written.getD db.rows } := by
  unfold tableBody at h ⊢
  cases hstatements : statements db.rows with
  | error e => simp [hstatements] at h
  | ok written =>
    refine ⟨written, rfl, ?_⟩
    cases written with
    | none => rfl
    | some rows =>
      simp only [hstatements] at h
      obtain ⟨e, he⟩ | ⟨rows', hrows, hwrite, -⟩ := guardedWrite_cases (fun _ => .ok rows) db
      · rw [he] at h
        cases h
      · cases hrows
        exact congrArg Prod.fst hwrite

/-- A queue operation either fails and changes nothing, or its owner is the recorded holder and its
statements are what is written. -/
theorem queue_cases (maxAttempts : Int) (db : Db (JobTable π)) (claimed : List String)
    (owner : QueueOwner) (operation : JobOperation π) :
    let call := ServedCall.queue owner operation
    (Served.step maxAttempts ⟨.idle db, claimed⟩ call = ⟨.idle db, claimed⟩ ∧
      (perform (.idle db) (call.call maxAttempts)).2 ≠ .ok ()) ∨
    (RecordedHolder db owner.identity.serviceInstanceId owner.fencingGeneration ∧
      ∃ written, (JobQueue.mk owner maxAttempts).statements operation db.rows = .ok written ∧
        Served.step maxAttempts ⟨.idle db, claimed⟩ call =
          ⟨.idle { db with rows := written.getD db.rows }, claimed ++ operation.claims db.rows⟩) := by
  dsimp only
  simp only [Served.step, ServedCall.call, perform]
  obtain ⟨e, he⟩ | ⟨hok, hraised, hentry, -⟩ :=
    fencedTransaction_idle db owner.identity owner.workspaceId owner.fencingGeneration
      (tableBody ((JobQueue.mk owner maxAttempts).statements operation))
  · rw [he]
    exact .inl ⟨rfl, by simp⟩
  · obtain ⟨written, hwritten, hdb⟩ := tableBody_ok hraised
    rw [hok, hdb]
    exact .inr ⟨(validate_ok hentry).1, written, hwritten, rfl⟩

/-- A call on the lease or the guard leaves the jobs, and keeps the holder or raises the
generation. -/
theorem ownership_cases (maxAttempts : Int) (db : Db (JobTable π)) (claimed : List String)
    (call : Ownership.Call (JobTable π)) (hfences : call.fences = false) :
    ∃ db', Served.step maxAttempts ⟨.idle db, claimed⟩ (.ownership call hfences) =
        ⟨.idle db', claimed⟩ ∧ db'.rows = db.rows ∧
      (db.recordedGeneration < db'.recordedGeneration ∨
        db'.recordedGeneration = db.recordedGeneration ∧
          db'.readLease.map (·.serviceInstanceId) = db.readLease.map (·.serviceInstanceId)) := by
  simp only [Served.step, ServedCall.call]
  obtain ⟨e, he⟩ | ⟨db', hok, hgeneration, hrows⟩ := perform_cases db call
  · rw [he]
    exact ⟨db, rfl, rfl, .inr ⟨rfl, rfl⟩⟩
  · have hkeep : call.rowsAfter db = db.rows := by
      cases call <;> first | rfl | cases hfences
    rw [hok]
    refine ⟨db', by simp [ServedCall.claims], hrows.trans hkeep, ?_⟩
    cases hacquires : call.acquires with
    | true =>
      rw [hacquires, if_pos rfl] at hgeneration
      exact .inl (by omega)
    | false =>
      rw [hacquires] at hgeneration
      have hholder : (perform (.idle db) call).1.durable.readLease.map (·.serviceInstanceId) =
          db.readLease.map (·.serviceInstanceId) := perform_holder hfences hacquires
      rw [hok] at hholder
      exact .inr ⟨by simpa using hgeneration, hholder⟩

/-! ## The invariant -/

/-- How the claims of a job add up on its row: the counted attempts, and one more while it is
claimed, with attempts left; and a claim under the present generation is the holder's. -/
structure Accounted (maxAttempts : Int) (generation : Nat) (holder : Option String) (claims : Nat)
    (row : JobRow π) : Prop where
  bounded : (claims : Int) ≤ maxAttempts
  queued : row.state = .queued → claims = row.attempts ∧ (row.attempts : Int) < maxAttempts
  claimed : row.state = .claimed → claims = row.attempts + 1 ∧
    ∃ g claimant, row.fencingGeneration = some g ∧ row.claimedByServiceInstance = some claimant ∧
      g ≤ generation ∧ (g = generation → holder = some claimant)

def holderOf (db : Db (JobTable π)) : Option String := db.readLease.map (·.serviceInstanceId)

/-- The invariant of one job: ids are unique, a job not on record was never claimed, and the row of
the job accounts for its claims. -/
structure AttemptsKept (maxAttempts : Int) (jobId : String) (db : Db (JobTable π)) (claimed : List String) :
    Prop where
  nodup : (db.rows.map (·.jobId)).Nodup
  absent : (∀ row ∈ db.rows, row.jobId ≠ jobId) → claimed.count jobId = 0
  accounted : ∀ row ∈ db.rows, row.jobId = jobId →
    Accounted maxAttempts db.recordedGeneration (holderOf db) (claimed.count jobId) row

variable {maxAttempts : Int} {jobId : String} {db : Db (JobTable π)} {claimed : List String}

theorem holderOf_eq {serviceInstanceId : String} {generation : Nat}
    (h : RecordedHolder db serviceInstanceId generation) : holderOf db = some serviceInstanceId := by
  obtain ⟨-, lease, hlease, hinstance, -⟩ := h
  rw [holderOf, hlease, Option.map_some, hinstance]

theorem readJob_eq_some {rows : JobTable π} {row : JobRow π} (h : rows.readJob jobId = some row) :
    row ∈ rows ∧ row.jobId = jobId :=
  ⟨List.mem_of_find?_eq_some h, by simpa using List.find?_some h⟩

theorem readJob_eq_none {rows : JobTable π} (h : rows.readJob jobId = none) :
    ∀ row ∈ rows, row.jobId ≠ jobId := by
  intro row hrow
  simpa using List.find?_eq_none.mp h row hrow

theorem eq_of_jobId {rows : JobTable π} (hnodup : (rows.map (·.jobId)).Nodup) {row row' : JobRow π}
    (h : row ∈ rows) (h' : row' ∈ rows) (hid : row.jobId = row'.jobId) : row = row' :=
  List.inj_on_of_nodup_map hnodup h h' hid

theorem Accounted.ended {generation claims : Nat} {holder : Option String} {row : JobRow π}
    (hbounded : (claims : Int) ≤ maxAttempts) (hqueued : row.state ≠ .queued)
    (hclaimed : row.state ≠ .claimed) : Accounted maxAttempts generation holder claims row :=
  ⟨hbounded, fun h => absurd h hqueued, fun h => absurd h hclaimed⟩

theorem AttemptsKept.map (h : AttemptsKept maxAttempts jobId db claimed) (change : JobRow π → JobRow π)
    (hid : ∀ row, (change row).jobId = row.jobId) {db' : Db (JobTable π)} {claimed' : List String}
    (hrows : db'.rows = db.rows.map change)
    (habsent : (∀ row ∈ db.rows, row.jobId ≠ jobId) → claimed'.count jobId = 0)
    (haccounted : ∀ row ∈ db.rows, row.jobId = jobId →
      Accounted maxAttempts db'.recordedGeneration (holderOf db') (claimed'.count jobId)
        (change row)) :
    AttemptsKept maxAttempts jobId db' claimed' := by
  refine ⟨?_, ?_, ?_⟩
  · have hids : (fun row : JobRow π => row.jobId) ∘ change = fun row => row.jobId := funext hid
    rw [hrows, List.map_map, hids]
    exact h.nodup
  · intro hnone
    apply habsent
    intro row hrow
    have hchanged := hnone (change row) (hrows ▸ List.mem_map_of_mem hrow)
    rwa [hid] at hchanged
  · intro row hrow hjob
    rw [hrows, List.mem_map] at hrow
    obtain ⟨old, hold, rfl⟩ := hrow
    exact haccounted old hold (hid old ▸ hjob)

theorem AttemptsKept.update (h : AttemptsKept maxAttempts jobId db claimed) {target : String}
    {change : JobRow π → JobRow π} (hid : ∀ row, (change row).jobId = row.jobId)
    (haccounted : ∀ row ∈ db.rows, row.jobId = jobId → target = jobId →
      Accounted maxAttempts db.recordedGeneration (holderOf db) (claimed.count jobId) (change row)) :
    AttemptsKept maxAttempts jobId { db with rows := db.rows.update target change } claimed := by
  refine h.map (fun row => if row.jobId = target then change row else row) ?_ rfl h.absent ?_
  · intro row
    split
    · exact hid row
    · rfl
  · intro row hrow hjob
    split
    · next htarget => exact haccounted row hrow hjob (htarget.symm.trans hjob)
    · exact h.accounted row hrow hjob

/-! ## What each operation keeps -/

theorem transition_ok {target : String} {toState : JobState} {fromStates : List JobState}
    {attempts : Option Nat} {lastError : Option String} {clearClaim : Bool} {moment : String}
    {rows : JobTable π} {written : Option (JobTable π)}
    (h : JobQueue.transition target toState fromStates attempts lastError clearClaim moment rows =
      .ok written) :
    ∃ current, rows.readJob target = some current ∧ current.state ∈ fromStates ∧
      written = some (rows.update target fun row =>
        { row with
          state := toState
          payload := current.payload
          attempts := attempts.getD current.attempts
          lastError
          updatedAt := moment
          claimedByServiceInstance :=
            if clearClaim then none else current.claimedByServiceInstance }) := by
  unfold JobQueue.transition at h
  cases hread : rows.readJob target with
  | none => simp [hread] at h
  | some current =>
    simp only [hread] at h
    split at h
    · cases h
    · next hstate =>
      cases h
      exact ⟨current, rfl, not_not.mp hstate, rfl⟩

theorem AttemptsKept.enqueue (h : AttemptsKept maxAttempts jobId db claimed) (hmax : 1 ≤ maxAttempts)
    {queue : JobQueue} {jobType target moment : String} {payload : π}
    {written : Option (JobTable π)}
    (hwritten : queue.enqueue jobType payload target moment db.rows = .ok written) :
    AttemptsKept maxAttempts jobId { db with rows := written.getD db.rows } claimed := by
  unfold JobQueue.enqueue at hwritten
  split at hwritten
  · cases hwritten
  · next hfree =>
    cases hwritten
    rw [Bool.not_eq_true, Option.isSome_eq_false_iff, Option.isNone_iff_eq_none] at hfree
    have hnew := readJob_eq_none hfree
    refine ⟨?_, ?_, ?_⟩
    · simp only [Option.getD_some, List.map_append, List.map_cons, List.map_nil]
      rw [List.nodup_append]
      refine ⟨h.nodup, List.nodup_singleton _, ?_⟩
      intro a ha b hb heq
      obtain ⟨row, hrow, rfl⟩ := List.mem_map.mp ha
      rw [List.mem_singleton] at hb
      exact hnew row hrow (heq.trans hb)
    · intro hnone
      exact h.absent fun row hrow => hnone row (List.mem_append_left _ hrow)
    · intro row hrow hjob
      rw [Option.getD_some, List.mem_append, List.mem_singleton] at hrow
      cases hrow with
      | inl hrow => exact h.accounted row hrow hjob
      | inr hrow =>
        subst hrow
        have hzero : claimed.count jobId = 0 := h.absent fun row hrow => hjob ▸ hnew row hrow
        rw [hzero]
        have hpositive : ((0 : Nat) : Int) < maxAttempts := by omega
        exact ⟨hpositive.le, fun _ => ⟨rfl, hpositive⟩, fun h => nomatch h⟩

/-- The job that is claimed is queued, and its row is the one updated. -/
theorem nextQueued_eq_some {rows : JobTable π} {jobType : Option String} {row : JobRow π}
    (h : rows.nextQueued jobType = some row) : row ∈ rows ∧ row.state = .queued := by
  unfold JobTable.nextQueued at h
  have hmem := mem_sortBy.mp (List.mem_of_head? h)
  rw [List.mem_filter, decide_eq_true_eq] at hmem
  exact ⟨hmem.1, hmem.2.1⟩

theorem AttemptsKept.claimNext (h : AttemptsKept maxAttempts jobId db claimed) {queue : JobQueue}
    (hholder : RecordedHolder db queue.owner.identity.serviceInstanceId
      queue.owner.fencingGeneration)
    {jobType : Option String} {moment : String} {written : Option (JobTable π)}
    (hwritten : queue.claimNext jobType moment db.rows = .ok written) :
    AttemptsKept maxAttempts jobId { db with rows := written.getD db.rows }
      (claimed ++ (JobOperation.claimNext jobType moment).claims db.rows) := by
  have hclaims : (JobOperation.claimNext (π := π) jobType moment).claims db.rows =
      (db.rows.nextQueued jobType).toList.map (·.jobId) := rfl
  unfold JobQueue.claimNext at hwritten
  rw [hclaims]
  cases hnext : db.rows.nextQueued jobType with
  | none =>
    simp only [hnext, Except.ok.injEq] at hwritten
    subst hwritten
    rw [Option.toList_none, List.map_nil, List.append_nil]
    exact h
  | some candidate =>
    simp only [hnext, Except.ok.injEq] at hwritten
    subst hwritten
    obtain ⟨hmem, hqueued⟩ := nextQueued_eq_some hnext
    have hcount : (claimed ++ [candidate.jobId]).count jobId =
        claimed.count jobId + if candidate.jobId = jobId then 1 else 0 := by
      rw [List.count_append, List.count_singleton]
      simp only [beq_iff_eq]
    refine h.map (fun row => if row.jobId = candidate.jobId then
      if row.state = .queued then _ else row else row) ?_ rfl ?_ ?_
    · intro row
      split
      · split <;> rfl
      · rfl
    · intro hnone
      have hne := hnone candidate hmem
      rw [Option.toList_some, List.map_singleton, hcount, if_neg hne, h.absent hnone]
    · intro row hrow hjob
      rw [Option.toList_some, List.map_singleton, hcount]
      by_cases hsame : row.jobId = candidate.jobId
      · obtain rfl := eq_of_jobId h.nodup hrow hmem hsame
        obtain ⟨hclaims, hleft⟩ := (h.accounted row hrow hjob).queued hqueued
        rw [if_pos hjob, if_pos rfl, if_pos hqueued]
        refine ⟨by omega, (fun h => nomatch h), ?_⟩
        intro _
        exact ⟨by rw [hclaims], _, _, rfl, rfl, hholder.1.ge, fun _ => holderOf_eq hholder⟩
      · rw [if_neg (fun h => hsame (hjob.trans h.symm)), if_neg hsame]
        exact h.accounted row hrow hjob

/-- The row a transition of the job rewrites was in one of the states it starts from. -/
theorem AttemptsKept.transition (h : AttemptsKept maxAttempts jobId db claimed) {target : String}
    {toState : JobState} {fromStates : List JobState} {attempts : Option Nat}
    {lastError : Option String} {clearClaim : Bool} {moment : String}
    {written : Option (JobTable π)}
    (hwritten : JobQueue.transition target toState fromStates attempts lastError clearClaim moment
      db.rows = .ok written)
    (haccounted : ∀ row ∈ db.rows, row.jobId = jobId → target = jobId → row.state ∈ fromStates →
      ∀ row', row'.state = toState → row'.attempts = attempts.getD row.attempts →
        Accounted maxAttempts db.recordedGeneration (holderOf db) (claimed.count jobId)
          (row' : JobRow π)) :
    AttemptsKept maxAttempts jobId { db with rows := written.getD db.rows } claimed := by
  obtain ⟨current, hread, hstate, rfl⟩ := transition_ok hwritten
  obtain ⟨hmem, hid⟩ := readJob_eq_some hread
  rw [Option.getD_some]
  refine h.update (fun _ => rfl) ?_
  intro row hrow hjob htarget
  obtain rfl := eq_of_jobId h.nodup hrow hmem (hjob.trans (htarget.symm.trans hid.symm))
  exact haccounted row hrow hjob htarget hstate _ rfl rfl

/-- A failed attempt is counted: the job ends when it was the last, and has one left otherwise. -/
theorem AttemptsKept.fail (h : AttemptsKept maxAttempts jobId db claimed) {queue : JobQueue}
    (hqueue : queue.maxAttempts = maxAttempts) {target error moment : String} {seen : Nat}
    (hseen : ∀ row ∈ db.rows, row.jobId = jobId → target = jobId → row.state = .claimed →
      seen = row.attempts)
    {written : Option (JobTable π)}
    (hwritten : queue.fail target error seen moment db.rows = .ok written) :
    AttemptsKept maxAttempts jobId { db with rows := written.getD db.rows } claimed := by
  refine h.transition hwritten ?_
  intro row hrow hjob htarget hstate row' hto hattempts
  rw [List.mem_singleton] at hstate
  have hcounted := hseen row hrow hjob htarget hstate
  have hrow := h.accounted row hrow hjob
  obtain ⟨hclaims, -⟩ := hrow.claimed hstate
  rw [Option.getD_some] at hattempts
  by_cases hexhausted : queue.maxAttempts ≤ ((seen + 1 : Nat) : Int)
  · rw [decide_eq_true hexhausted, if_pos rfl] at hto
    exact .ended hrow.bounded (by rw [hto]; decide) (by rw [hto]; decide)
  · rw [decide_eq_false hexhausted, if_neg (by decide)] at hto
    refine ⟨hrow.bounded, ?_, ?_⟩
    · intro _
      rw [hattempts]
      exact ⟨by omega, by omega⟩
    · intro hclaimed
      rw [hto] at hclaimed
      cases hclaimed

theorem AttemptsKept.recoverStranded (h : AttemptsKept maxAttempts jobId db claimed) {queue : JobQueue}
    (hstranded : ∀ row ∈ db.rows, row.jobId = jobId →
      ¬ row.Stranded queue.owner.fencingGeneration)
    {moment : String} {written : Option (JobTable π)}
    (hwritten : queue.recoverStranded moment db.rows = .ok written) :
    AttemptsKept maxAttempts jobId { db with rows := written.getD db.rows } claimed := by
  unfold JobQueue.recoverStranded at hwritten
  split at hwritten
  · cases hwritten
    refine h.map (fun row => if row.Stranded queue.owner.fencingGeneration then _ else row)
      ?_ rfl h.absent ?_
    · intro row
      split <;> rfl
    · intro row hrow hjob
      rw [if_neg (hstranded row hrow hjob)]
      exact h.accounted row hrow hjob
  · cases hwritten
    exact h

/-- A step that leaves the jobs, and the holder unless the generation rises. -/
theorem AttemptsKept.ownership (h : AttemptsKept maxAttempts jobId db claimed) {db' : Db (JobTable π)}
    (hrows : db'.rows = db.rows)
    (hholder : db.recordedGeneration < db'.recordedGeneration ∨
      db'.recordedGeneration = db.recordedGeneration ∧ holderOf db' = holderOf db) :
    AttemptsKept maxAttempts jobId db' claimed := by
  refine ⟨hrows ▸ h.nodup, hrows ▸ h.absent, ?_⟩
  intro row hrow hjob
  rw [hrows] at hrow
  have haccounted := h.accounted row hrow hjob
  cases hholder with
  | inr hsame =>
    rw [hsame.1, hsame.2]
    exact haccounted
  | inl hlater =>
    refine ⟨haccounted.bounded, haccounted.queued, ?_⟩
    intro hclaimed
    obtain ⟨hclaims, g, claimant, hg, hclaimant, hle, -⟩ := haccounted.claimed hclaimed
    exact ⟨hclaims, g, claimant, hg, hclaimant, by omega, fun heq => by omega⟩

/-- The invariant after one queue operation of the recorded holder. -/
theorem AttemptsKept.operation (h : AttemptsKept maxAttempts jobId db claimed) (hmax : 1 ≤ maxAttempts)
    {owner : QueueOwner} {operation : JobOperation π}
    (hholder : RecordedHolder db owner.identity.serviceInstanceId owner.fencingGeneration)
    (hcounted : ∀ row ∈ db.rows, row.jobId = jobId →
      operation.CountedOn row owner.fencingGeneration)
    {written : Option (JobTable π)}
    (hwritten : (JobQueue.mk owner maxAttempts).statements operation db.rows = .ok written) :
    AttemptsKept maxAttempts jobId { db with rows := written.getD db.rows }
      (claimed ++ operation.claims db.rows) := by
  cases operation with
  | claimNext jobType moment => exact h.claimNext hholder hwritten
  | enqueue jobType payload target moment =>
    simp only [JobOperation.claims, List.append_nil]
    exact h.enqueue hmax hwritten
  | complete target moment =>
    simp only [JobOperation.claims, List.append_nil]
    refine h.transition hwritten ?_
    intro row hrow hjob _ _ row' hto _
    exact .ended (h.accounted row hrow hjob).bounded (by rw [hto]; decide) (by rw [hto]; decide)
  | cancel target moment =>
    simp only [JobOperation.claims, List.append_nil]
    refine h.transition hwritten ?_
    intro row hrow hjob _ _ row' hto _
    exact .ended (h.accounted row hrow hjob).bounded (by rw [hto]; decide) (by rw [hto]; decide)
  | fail target error seen moment =>
    simp only [JobOperation.claims, List.append_nil]
    refine h.fail rfl ?_ hwritten
    intro row hrow hjob htarget hstate
    exact (hcounted row hrow hjob (htarget.trans hjob.symm)).2 hstate
  | recoverStranded moment =>
    simp only [JobOperation.claims, List.append_nil]
    refine h.recoverStranded ?_ hwritten
    exact hcounted

/-! ## Runs -/

/-- A state reached: nobody is writing, and the job accounts for its claims. -/
def Reached (maxAttempts : Int) (jobId : String) (s : Served π) : Prop :=
  ∃ db, s.database = .idle db ∧ AttemptsKept maxAttempts jobId db s.claimed

theorem reached_start (db : Db (JobTable π)) : Reached maxAttempts jobId (Served.start db) :=
  ⟨_, rfl, List.nodup_nil, fun _ => rfl, fun _ h => absurd h List.not_mem_nil⟩

theorem Reached.step (hmax : 1 ≤ maxAttempts) (s : Served π) (call : ServedCall π)
    (hcounted : Counted jobId s call) (h : Reached maxAttempts jobId s) :
    Reached maxAttempts jobId (s.step maxAttempts call) := by
  obtain ⟨database, claimed⟩ := s
  obtain ⟨db, rfl, hkept⟩ := h
  cases call with
  | ownership call hfences =>
    obtain ⟨db', hstep, hrows, hholder⟩ := ownership_cases maxAttempts db claimed call hfences
    rw [hstep]
    exact ⟨db', rfl, hkept.ownership hrows hholder⟩
  | queue owner operation =>
    obtain ⟨hstep, -⟩ | ⟨hholder, written, hwritten, hstep⟩ :=
      queue_cases maxAttempts db claimed owner operation
    · rw [hstep]
      exact ⟨db, rfl, hkept⟩
    · rw [hstep]
      exact ⟨_, rfl, hkept.operation hmax hholder (hcounted hholder) hwritten⟩

theorem statements_ends {queue : JobQueue} {operation : JobOperation π}
    (hends : operation.ends = some jobId) {rows : JobTable π} {written : Option (JobTable π)}
    (hwritten : queue.statements operation rows = .ok written) :
    ∃ row ∈ rows, row.jobId = jobId ∧ row.state = .claimed := by
  cases operation with
  | enqueue => cases hends
  | claimNext => cases hends
  | cancel => cases hends
  | recoverStranded => cases hends
  | complete target moment | fail target error seen moment =>
    cases hends
    obtain ⟨current, hread, hstate, -⟩ := transition_ok hwritten
    obtain ⟨hmem, hid⟩ := readJob_eq_some hread
    exact ⟨current, hmem, hid, List.mem_singleton.mp hstate⟩

/-- Who ends the job holds it: its claim is of the present generation, which has one instance. -/
theorem Reached.holderOnly (s : Served π) (call : ServedCall π) (hcounted : Counted jobId s call)
    (h : Reached maxAttempts jobId s) : HolderOnly maxAttempts jobId s call := by
  obtain ⟨database, claimed⟩ := s
  obtain ⟨db, rfl, hkept⟩ := h
  cases call with
  | ownership call hfences => trivial
  | queue owner operation =>
    intro hends hcommits
    obtain ⟨-, hfailed⟩ | ⟨hholder, written, hwritten, -⟩ :=
      queue_cases maxAttempts db claimed owner operation
    · exact absurd hcommits hfailed
    · obtain ⟨row, hrow, hjob, hclaimed⟩ := statements_ends hends hwritten
      refine ⟨row, hrow, hjob, hclaimed, ?_⟩
      have hfresh : ¬ row.Stranded owner.fencingGeneration := by
        have hrowCounted := hcounted hholder row hrow hjob
        cases operation with
        | complete target moment =>
          exact hrowCounted ((Option.some.inj hends).trans hjob.symm)
        | fail target error seen moment =>
          exact (hrowCounted ((Option.some.inj hends).trans hjob.symm)).1
        | enqueue => cases hends
        | claimNext => cases hends
        | cancel => cases hends
        | recoverStranded => cases hends
      obtain ⟨-, g, claimant, hg, hclaimant, hle, hpresent⟩ :=
        (hkept.accounted row hrow hjob).claimed hclaimed
      have hgeneration : db.recordedGeneration = owner.fencingGeneration := hholder.1
      have hnotOlder : ¬ g < owner.fencingGeneration := by
        intro hlt
        exact hfresh ⟨hclaimed, by rw [hg]; exact hlt⟩
      have hsame : g = owner.fencingGeneration := by omega
      have hinstance := hpresent (hsame.trans hgeneration.symm)
      rw [holderOf_eq hholder] at hinstance
      exact ⟨by rw [hclaimant, hinstance], by rw [hg, hsame]⟩

/-- In every run whose steps count the attempts of a job, the job is claimed `maxAttempts` times at
most, is never pending once it was claimed that often, and is completed or failed by its claimant
under the generation of the claim only. -/
theorem job_attempts_bounded {maxAttempts : Int} (hmax : 1 ≤ maxAttempts) (jobId : String)
    (db : Db (JobTable π)) (calls : List (ServedCall π))
    (hcounted : Along (Served.step maxAttempts) (Counted jobId) (Served.start db) calls) :
    let s := run (Served.step maxAttempts) (Served.start db) calls
    (s.claims jobId : Int) ≤ maxAttempts ∧
    ((s.claims jobId : Int) = maxAttempts →
      ∀ row ∈ s.rows, row.jobId = jobId → row.state ≠ .queued) ∧
    Along (Served.step maxAttempts) (HolderOnly maxAttempts jobId) (Served.start db) calls := by
  have hreached : Reached maxAttempts jobId (run (Served.step maxAttempts) (Served.start db) calls) :=
    run_invariant_along (Reached.step hmax) (reached_start db) hcounted
  obtain ⟨last, hlast, hkept⟩ := hreached
  refine ⟨?_, ?_, ?_⟩
  · by_cases hrecorded : ∀ row ∈ last.rows, row.jobId ≠ jobId
    · have hzero := hkept.absent hrecorded
      unfold Served.claims
      omega
    · push Not at hrecorded
      obtain ⟨row, hrow, hjob⟩ := hrecorded
      exact (hkept.accounted row hrow hjob).bounded
  · intro hspent row hrow hjob hqueued
    have hrow : row ∈ last.rows := by
      rw [Served.rows, hlast] at hrow
      exact hrow
    obtain ⟨hclaims, hleft⟩ := (hkept.accounted row hrow hjob).queued hqueued
    unfold Served.claims at hspent
    omega
  · exact along_of_invariant (Reached.step hmax) Reached.holderOnly (reached_start db) hcounted

/-! ## A worker lost on every attempt -/

/-- A service start on the workspace, as the `generation`-th holder of its lease. -/
def queueOwner (generation : Nat) (name : String) : QueueOwner :=
  ⟨⟨name, "installation", ⟨1, "start", "boot", "principal"⟩⟩, "w", generation⟩

/-- A workspace at generation 1, with no lease and no guard. -/
def queueWorkspace : Db (JobTable Unit) where
  substrate := true
  guardTable := true
  workspaceState := some ⟨"w", 1, "1", "ready", "t", "t"⟩
  workspaceLease := none
  mutationGuard := none
  rows := []

/-- The owner takes the lease over and opens its guard. -/
def takesOver (owner : QueueOwner) : List (ServedCall Unit) :=
  [.ownership (.acquire owner.identity ⟨0, "t"⟩ "w" true "flock" none none) rfl,
    .ownership (.openGuard owner.identity ⟨0, "t"⟩ "w" owner.fencingGeneration) rfl]

/-- The owner takes over, requeues what its predecessor left, claims a job and is lost. -/
def crashes (owner : QueueOwner) : List (ServedCall Unit) :=
  takesOver owner ++ [.queue owner (.recoverStranded "t"), .queue owner (.claimNext none "t")]

/-- Two attempts: the first fails, another service takes over and finds nothing stranded, and the second
attempt is the last. -/
def twoAttempts : List (ServedCall Unit) :=
  takesOver (queueOwner 2 "first") ++
    [.queue (queueOwner 2 "first") (.enqueue "reindex" () "job-1" "t"),
      .queue (queueOwner 2 "first") (.claimNext none "t"),
      .queue (queueOwner 2 "first") (.fail "job-1" "boom" 0 "t")] ++
    takesOver (queueOwner 3 "second") ++
    [.queue (queueOwner 3 "second") (.recoverStranded "t"),
      .queue (queueOwner 3 "second") (.claimNext none "t"),
      .queue (queueOwner 3 "second") (.fail "job-1" "boom" 1 "t")]

theorem job_attempts_bounded_twice :
    let s := run (Served.step 2) (Served.start queueWorkspace) twoAttempts
    s.claims "job-1" = 2 ∧ ∀ row ∈ s.rows, row.jobId = "job-1" → row.state ≠ .queued := by
  have hcounted : Along (Served.step 2) (Counted "job-1") (Served.start queueWorkspace) twoAttempts := by
    refine ⟨trivial, trivial, ?_, ?_, ?_, trivial, trivial, ?_, ?_, ?_, trivial⟩
    · exact fun _ _ _ _ => trivial
    · exact fun _ _ _ _ => trivial
    · intro _ row hrow _ _
      revert row
      decide
    · intro _ row hrow _
      show ¬row.Stranded 3
      revert row
      decide
    · exact fun _ _ _ _ => trivial
    · intro _ row hrow _ _
      revert row
      decide
  obtain ⟨-, hspent, -⟩ := job_attempts_bounded (by decide) "job-1" queueWorkspace twoAttempts hcounted
  have hclaims : (run (Served.step 2) (Served.start queueWorkspace) twoAttempts).claims "job-1" = 2 :=
    by decide
  exact ⟨hclaims, hspent (by rw [hclaims]; rfl)⟩

/-- A job whose worker is lost four times is claimed four times on a budget of three. -/
theorem lost_worker_exceeds_budget :
    ¬ ∀ calls : List (ServedCall Unit),
      let s := run (Served.step defaultMaxAttempts) (Served.start queueWorkspace) calls
      (s.claims "job-1" : Int) ≤ defaultMaxAttempts := by
  intro h
  have hfour := h (takesOver (queueOwner 2 "first") ++
    [.queue (queueOwner 2 "first") (.enqueue "reindex" () "job-1" "t"),
      .queue (queueOwner 2 "first") (.claimNext none "t")] ++
    crashes (queueOwner 3 "second") ++ crashes (queueOwner 4 "third") ++
    crashes (queueOwner 5 "fourth"))
  exact absurd hfour (by decide)

end OmniviaCore.Service
