import OmniviaCore.Jobs.Observations

/-!
# Paging through the events of a job

`validate_job_events_result` of `contracts/v1/semantics_jobs.py` and the session its bindings thread. An
accepted page is a run of sequences (`accepted_page`), and an accepted session the runs of its pages end
to end.
-/

namespace OmniviaCore.Jobs

open Lib

/-! ## Values -/

/-- `JobEventsPageBinding`. -/
structure JobEventsPageBinding where
  tokenFormatVersion : Int
  principalId : String
  workspaceId : String
  operation : String
  jobId : String
  ordering : String
  snapshotEventCount : Int
  nextSequence : Int

/-- `PageMetadata`. -/
structure PageMetadata where
  continuationToken : Option String

/-- `JobEventsInput`. -/
structure JobEventsInput where
  jobId : String
  limit : Option Int
  page : Option PageMetadata

/-- `JobEvent`. Its details are read by nothing here and left out. -/
structure ObservedEvent where
  sequence : Int
  occurredAt : String
  state : String
  message : Option String

/-- `JobEventsResult`. -/
structure JobEventsResult where
  jobId : String
  events : List ObservedEvent
  snapshotEventCount : Int
  page : PageMetadata

def JOB_EVENTS_OPERATION : String := "job.events"

def JOB_EVENTS_ORDERING_SEQUENCE_ASC : String := "sequence_asc"

def JOB_EVENTS_PAGE_BINDING_FORMAT_VERSION : Int := 1

def JOB_EVENTS_MAX_PAGE_SIZE : Int := 1000

def MIN_PAGE_LIMIT : Int := 1

def MAX_PAGE_LIMIT : Int := 1000

/-! ## Validators -/

/-- `validate_job_events_page_binding`. -/
def validateJobEventsPageBinding (binding : JobEventsPageBinding)
    (principalId workspaceId jobId : String) : Validation := do
  require (isIdentifier principalId = true) .identifier
  require (isIdentifier workspaceId = true) .workspaceId
  require (isOpaqueToken jobId = true) .opaqueToken
  require (binding.tokenFormatVersion = JOB_EVENTS_PAGE_BINDING_FORMAT_VERSION ∧
    binding.principalId = principalId ∧ binding.workspaceId = workspaceId ∧
    binding.operation = JOB_EVENTS_OPERATION ∧ binding.jobId = jobId ∧
    binding.ordering = JOB_EVENTS_ORDERING_SEQUENCE_ASC ∧ 0 ≤ binding.nextSequence ∧
    binding.nextSequence ≤ binding.snapshotEventCount) .pageBinding

/-- `_validate_request_page`. -/
def validateRequestPage (page : PageMetadata) : Validation :=
  match page.continuationToken with
  | none => throw .pageWithoutToken
  | some token => require (isOpaqueToken token = true) .opaqueToken

/-- `validate_job_events_input`. -/
def validateJobEventsInput (input : JobEventsInput) : Validation := do
  require (isOpaqueToken input.jobId = true) .opaqueToken
  require (∀ limit ∈ input.limit, MIN_PAGE_LIMIT ≤ limit ∧ limit ≤ MAX_PAGE_LIMIT) .pageLimit
  match input.page with
  | none => pure ()
  | some page => validateRequestPage page

def requestCursor (request : JobEventsInput) (requestBinding : Option JobEventsPageBinding)
    (principalId workspaceId : String) (snapshot : Int) : Except ContractSemanticError Int :=
  match request.page, requestBinding with
  | none, none => pure 0
  | none, some _ => throw .bindingWithoutPage
  | some _, none => throw .pageBinding
  | some _, some binding => do
    validateJobEventsPageBinding binding principalId workspaceId request.jobId
    require (binding.snapshotEventCount = snapshot) .pageBinding
    pure binding.nextSequence

/-- `_validate_job_event`. -/
def validateJobEvent (event : ObservedEvent) : Except ContractSemanticError Nat := do
  require (0 ≤ event.sequence) .negative
  let occurred ← readTimestamp event.occurredAt
  require (isOpenCode event.state = true) .openCode
  require (event.message.all isMessage = true) .message
  pure occurred

/-- `validate_job_state_transition` of two spelled states, under an accepted recovery. -/
def validateEventTransition (previous state : String) : Validation :=
  match knownState previous, knownState state with
  | some before, some after => validateJobStateTransition before after true
  | _, _ => pure ()

/-- What `validate_job_events_result` asks of an event after another. -/
def validateFollowing (previous : Option (Nat × String)) (occurred : Nat) (state : String) :
    Validation :=
  match previous with
  | none => pure ()
  | some last => do
    require (last.1 ≤ occurred) .eventInstant
    validateEventTransition last.2 state

/-- The loop of `validate_job_events_result`, from a position on: the instant and state of the event
before. -/
def validateEventsFrom (snapshot : Int) : Int → Option (Nat × String) → List ObservedEvent → Validation
  | _, _, [] => pure ()
  | position, previous, event :: rest => do
    let occurred ← validateJobEvent event
    require (event.sequence = position) .pageContiguous
    require (event.sequence < snapshot) .outsideSnapshot
    validateFollowing previous occurred event.state
    validateEventsFrom snapshot (position + 1) (some (occurred, event.state)) rest

/-- The end of `validate_job_events_result`: a continuation, exactly while the snapshot has more. -/
def validateContinuation (result : JobEventsResult) (nextSequence : Int)
    (principalId workspaceId : String) (resultBinding : Option JobEventsPageBinding) : Validation :=
  if nextSequence < result.snapshotEventCount then
    match result.page.continuationToken, resultBinding with
    | none, _ => throw .continuationMissing
    | some token, none => do
      require (isOpaqueToken token = true) .opaqueToken
      throw .pageBinding
    | some token, some offered => do
      require (isOpaqueToken token = true) .opaqueToken
      validateJobEventsPageBinding offered principalId workspaceId result.jobId
      require (offered.snapshotEventCount = result.snapshotEventCount ∧
        offered.nextSequence = nextSequence) .pageBinding
  else do
    require (result.page.continuationToken = none) .continuationOffered
    require (resultBinding = none) .bindingWithoutToken

/-- `validate_job_events_result`. -/
def validateJobEventsResult (result : JobEventsResult) (request : JobEventsInput)
    (principalId workspaceId : String) (requestBinding resultBinding : Option JobEventsPageBinding) :
    Validation := do
  validateJobEventsInput request
  require (isOpaqueToken result.jobId = true) .opaqueToken
  require (result.jobId = request.jobId) .answersOtherJob
  require (0 ≤ result.snapshotEventCount) .negative
  let cursor ← requestCursor request requestBinding principalId workspaceId result.snapshotEventCount
  require ((result.events.length : Int) ≤ request.limit.getD JOB_EVENTS_MAX_PAGE_SIZE) .pageCeiling
  validateEventsFrom result.snapshotEventCount cursor none result.events
  require (cursor + result.events.length < result.snapshotEventCount → result.events ≠ []) .pageEmpty
  validateContinuation result (cursor + result.events.length) principalId workspaceId resultBinding

/-! ## One page -/

def positions (start : Int) (count : Nat) : List Int := (List.range count).map fun n : Nat => start + n

theorem positions_add (start : Int) (a b : Nat) :
    positions start (a + b) = positions start a ++ positions (start + a) b := by
  simp only [positions, List.range_add, List.map_append, List.map_map, List.append_cancel_left_eq]
  refine List.map_congr_left fun n _ => ?_
  simp only [Function.comp_apply]
  omega

theorem validateEventsFrom_eq_ok {snapshot : Int} {events : List ObservedEvent} :
    ∀ {position : Int} {previous : Option (Nat × String)},
      validateEventsFrom snapshot position previous events = .ok () →
      events.map ObservedEvent.sequence = positions position events.length ∧
        (events ≠ [] → position + events.length ≤ snapshot) := by
  induction events with
  | nil => exact fun _ => ⟨rfl, fun h => absurd rfl h⟩
  | cons event rest ih =>
    intro position previous h
    simp only [validateEventsFrom, bind_eq_ok, exists_unit, require_eq_ok] at h
    obtain ⟨occurred, -, hposition, hinside, -, hrest⟩ := h
    obtain ⟨hsequences, hbound⟩ := ih hrest
    constructor
    · rw [List.map_cons, hsequences, hposition, List.length_cons, Nat.add_comm, positions_add]
      simp [positions]
    · intro _
      rw [List.length_cons]
      -- The last event of the page is inside the snapshot, and so is the page.
      by_cases hempty : rest = []
      · subst hempty
        simp only [List.length_nil]
        omega
      · have hle := hbound hempty
        omega

/-- One request and its result, with what their tokens are bound to. -/
structure Exchange where
  principalId : String
  workspaceId : String
  request : JobEventsInput
  requestBinding : Option JobEventsPageBinding
  result : JobEventsResult
  resultBinding : Option JobEventsPageBinding

namespace Exchange

variable (exchange : Exchange)

def Accepted : Prop :=
  validateJobEventsResult exchange.result exchange.request exchange.principalId exchange.workspaceId
    exchange.requestBinding exchange.resultBinding = .ok ()

instance : Decidable exchange.Accepted := by
  unfold Accepted
  infer_instance

/-- What a binding says of the request that presents it. -/
structure Bound (binding : JobEventsPageBinding) : Prop where
  principalId : binding.principalId = exchange.principalId
  workspaceId : binding.workspaceId = exchange.workspaceId
  operation : binding.operation = JOB_EVENTS_OPERATION
  jobId : binding.jobId = exchange.request.jobId
  snapshotEventCount : binding.snapshotEventCount = exchange.result.snapshotEventCount

/-- A page of a job's snapshot, from a position on. -/
structure Page (cursor : Int) : Prop where
  answers : exchange.result.jobId = exchange.request.jobId
  cursor_le : 0 ≤ cursor ∧ cursor ≤ exchange.result.snapshotEventCount
  sequences : exchange.result.events.map ObservedEvent.sequence =
    positions cursor exchange.result.events.length
  within : cursor + exchange.result.events.length ≤ exchange.result.snapshotEventCount
  continued : exchange.result.page.continuationToken = none →
    cursor + exchange.result.events.length = exchange.result.snapshotEventCount
  offered : exchange.result.page.continuationToken ≠ none → exchange.result.events ≠ [] ∧
    cursor + exchange.result.events.length < exchange.result.snapshotEventCount ∧
    ∃ binding, exchange.resultBinding = some binding ∧ binding.jobId = exchange.result.jobId ∧
      binding.snapshotEventCount = exchange.result.snapshotEventCount ∧
      binding.nextSequence = cursor + exchange.result.events.length

end Exchange

theorem requestCursor_eq_ok {request : JobEventsInput} {binding : Option JobEventsPageBinding}
    {principalId workspaceId : String} {snapshot cursor : Int}
    (h : requestCursor request binding principalId workspaceId snapshot = .ok cursor) :
    (request.page = none ∧ binding = none ∧ cursor = 0) ∨
      ∃ bound, binding = some bound ∧ validateJobEventsPageBinding bound principalId workspaceId
        request.jobId = .ok () ∧ bound.snapshotEventCount = snapshot ∧ cursor = bound.nextSequence := by
  unfold requestCursor at h
  split at h
  · next hpage => exact .inl ⟨hpage, rfl, (pure_eq_ok.1 h).symm⟩
  · cases h
  · cases h
  · next bound _ =>
    simp only [bind_eq_ok, exists_unit, require_eq_ok, pure_eq_ok] at h
    obtain ⟨hbinding, hsnapshot, rfl⟩ := h
    exact .inr ⟨bound, rfl, hbinding, hsnapshot, rfl⟩

theorem validateContinuation_eq_ok {result : JobEventsResult} {nextSequence : Int}
    {principalId workspaceId : String} {binding : Option JobEventsPageBinding}
    (h : validateContinuation result nextSequence principalId workspaceId binding = .ok ()) :
    (nextSequence < result.snapshotEventCount ∧ result.page.continuationToken ≠ none ∧
      ∃ offered, binding = some offered ∧ offered.jobId = result.jobId ∧
        offered.snapshotEventCount = result.snapshotEventCount ∧
        offered.nextSequence = nextSequence) ∨
    (result.snapshotEventCount ≤ nextSequence ∧ result.page.continuationToken = none ∧
      binding = none) := by
  unfold validateContinuation at h
  split at h
  · next hmore =>
    split at h
    · cases h
    · simp only [bind_eq_ok, throw_ne_ok, and_false, exists_false] at h
    · next token offered htoken =>
      simp only [bind_eq_ok, exists_unit, require_eq_ok, validateJobEventsPageBinding] at h
      obtain ⟨-, ⟨-, -, -, hbound⟩, hsnapshot, hnext⟩ := h
      refine .inl ⟨hmore, ?_, offered, rfl, hbound.2.2.2.2.1, hsnapshot, hnext⟩
      rw [htoken]
      simp
  · next hdone =>
    simp only [bind_eq_ok, exists_unit, require_eq_ok] at h
    exact .inr ⟨not_lt.1 hdone, h.1, h.2⟩

namespace Exchange

variable {exchange : Exchange}

/-- An accepted result is a page, from the start or from where its binding says. -/
theorem Accepted.page (h : exchange.Accepted) : ∃ cursor, exchange.Page cursor ∧
    (exchange.requestBinding = none → cursor = 0) ∧
    ∀ binding ∈ exchange.requestBinding, exchange.Bound binding ∧ cursor = binding.nextSequence := by
  simp only [Accepted, validateJobEventsResult, bind_eq_ok, exists_unit, require_eq_ok] at h
  obtain ⟨-, -, hanswers, hsnapshot, cursor, hcursor, -, hevents, hempty, hcontinuation⟩ := h
  obtain ⟨hsequences, hbound⟩ := validateEventsFrom_eq_ok hevents
  have hstart : 0 ≤ cursor ∧ cursor ≤ exchange.result.snapshotEventCount := by
    rcases requestCursor_eq_ok hcursor with ⟨-, -, rfl⟩ | ⟨bound, -, hbinding, hsame, rfl⟩
    · exact ⟨le_rfl, hsnapshot⟩
    · simp only [validateJobEventsPageBinding, bind_eq_ok, exists_unit, require_eq_ok] at hbinding
      obtain ⟨-, -, -, -, -, -, -, -, -, hnonneg, hle⟩ := hbinding
      exact ⟨hnonneg, hsame ▸ hle⟩
  have hwithin : cursor + exchange.result.events.length ≤ exchange.result.snapshotEventCount := by
    by_cases hnil : exchange.result.events = []
    · simpa [hnil] using hstart.2
    · exact hbound hnil
  refine ⟨cursor, ⟨hanswers, hstart, hsequences, hwithin, fun hnone => ?_, fun hsome => ?_⟩,
    fun hnone => ?_, fun binding hbinding => ?_⟩
  · rcases validateContinuation_eq_ok hcontinuation with ⟨-, htoken, -⟩ | ⟨hle, -⟩
    · exact absurd hnone htoken
    · exact le_antisymm hwithin hle
  · rcases validateContinuation_eq_ok hcontinuation with ⟨hmore, -, hoffered⟩ | ⟨-, htoken, -⟩
    · exact ⟨hempty hmore, hmore, hoffered⟩
    · exact absurd htoken hsome
  · rcases requestCursor_eq_ok hcursor with ⟨-, -, hzero⟩ | ⟨bound, hsome, -⟩
    · exact hzero
    · rw [hnone] at hsome
      cases hsome
  · rcases requestCursor_eq_ok hcursor with ⟨-, hnone, -⟩ | ⟨bound, hsome, hvalid, hsame, hnext⟩
    · rw [hnone] at hbinding
      cases hbinding
    · obtain rfl : bound = binding := Option.some.inj (hsome.symm.trans hbinding)
      simp only [validateJobEventsPageBinding, bind_eq_ok, exists_unit, require_eq_ok] at hvalid
      obtain ⟨-, -, -, -, hprincipal, hworkspace, hoperation, hjob, -⟩ := hvalid
      exact ⟨⟨hprincipal, hworkspace, hoperation, hjob, hsame⟩, hnext⟩

theorem Page.events_ne_nil {cursor : Int} (h : exchange.Page cursor)
    (hinside : cursor < exchange.result.snapshotEventCount) : exchange.result.events ≠ [] := by
  intro hnil
  by_cases htoken : exchange.result.page.continuationToken = none
  · have hdone := h.continued htoken
    simp only [hnil, List.length_nil] at hdone
    omega
  · exact (h.offered htoken).1 hnil

end Exchange

/-! ## A session -/

/-- Exchanges each of which was accepted, under the token and the binding of the one before. -/
def Session : Option PageMetadata → Option JobEventsPageBinding → List Exchange → Prop
  | _, _, [] => True
  | page, binding, exchange :: rest =>
    exchange.request.page = page ∧ exchange.requestBinding = binding ∧ exchange.Accepted ∧
      (rest ≠ [] → exchange.result.page.continuationToken ≠ none) ∧
      Session (some exchange.result.page) exchange.resultBinding rest

def sessionEvents (session : List Exchange) : List ObservedEvent :=
  session.flatMap fun exchange => exchange.result.events

/-- The pages of one job's snapshot of `count` events, from a position on. -/
structure Ran (jobId : String) (count cursor : Int) (session : List Exchange) : Prop where
  pages : ∀ exchange ∈ session, exchange.result.jobId = jobId ∧
    exchange.request.jobId = jobId ∧ exchange.result.snapshotEventCount = count
  sequences : (sessionEvents session).map ObservedEvent.sequence =
    positions cursor (sessionEvents session).length
  within : session ≠ [] → cursor + (sessionEvents session).length ≤ count
  nonempty : ∀ exchange ∈ session, exchange.result.page.continuationToken ≠ none →
    exchange.result.events ≠ []
  length_le : cursor < count → session.length ≤ (sessionEvents session).length
  exhausted : ∀ last ∈ session.getLast?, last.result.page.continuationToken = none →
    cursor + (sessionEvents session).length = count

theorem Ran.nil (jobId : String) (count cursor : Int) : Ran jobId count cursor [] :=
  ⟨by simp, rfl, fun h => absurd rfl h, by simp, fun _ => le_rfl, by simp⟩

theorem sessionEvents_cons (exchange : Exchange) (rest : List Exchange) :
    sessionEvents (exchange :: rest) = exchange.result.events ++ sessionEvents rest := by
  simp [sessionEvents]

theorem Ran.cons {exchange : Exchange} {rest : List Exchange} {cursor : Int}
    (hpage : exchange.Page cursor)
    (hrest : Ran exchange.result.jobId exchange.result.snapshotEventCount
      (cursor + exchange.result.events.length) rest)
    (hcontinues : rest ≠ [] → exchange.result.page.continuationToken ≠ none) :
    Ran exchange.result.jobId exchange.result.snapshotEventCount cursor (exchange :: rest) where
  pages := by
    intro other hother
    rcases List.mem_cons.1 hother with rfl | hother
    · exact ⟨rfl, hpage.answers.symm, rfl⟩
    · exact hrest.pages other hother
  sequences := by
    rw [sessionEvents_cons, List.map_append, hpage.sequences, hrest.sequences, List.length_append,
      positions_add]
  within := by
    intro _
    rw [sessionEvents_cons, List.length_append]
    by_cases hnil : rest = []
    · subst hnil
      simpa [sessionEvents] using hpage.within
    · have hle := hrest.within hnil
      push_cast at hle ⊢
      omega
  nonempty := by
    intro other hother htoken
    rcases List.mem_cons.1 hother with rfl | hother
    · exact (hpage.offered htoken).1
    · exact hrest.nonempty other hother htoken
  length_le := by
    intro hinside
    have hsome := List.length_pos_iff.2 (hpage.events_ne_nil hinside)
    rw [sessionEvents_cons, List.length_append, List.length_cons]
    by_cases hnil : rest = []
    · subst hnil
      simp only [List.length_nil]
      omega
    · have hle := hrest.length_le (hpage.offered (hcontinues hnil)).2.1
      omega
  exhausted := by
    intro last hlast htoken
    rw [sessionEvents_cons, List.length_append]
    by_cases hnil : rest = []
    · subst hnil
      obtain rfl : exchange = last := by simpa using hlast
      simpa [sessionEvents] using hpage.continued htoken
    · have hrestlast : last ∈ rest.getLast? := by
        rwa [List.getLast?_cons_of_ne_nil hnil] at hlast
      have hdone := hrest.exhausted last hrestlast htoken
      push_cast at hdone ⊢
      omega

/-- A session under a binding, by induction on its exchanges. -/
theorem Session.ran {session : List Exchange} :
    ∀ {page : Option PageMetadata} {binding : JobEventsPageBinding},
      Session page (some binding) session →
      Ran binding.jobId binding.snapshotEventCount binding.nextSequence session := by
  induction session with
  | nil => exact fun _ => Ran.nil _ _ _
  | cons exchange rest ih =>
    rintro page binding ⟨-, hbinding, haccepted, hcontinues, hrest⟩
    obtain ⟨cursor, hpage, -, hcontinued⟩ := haccepted.page
    obtain ⟨hbound, rfl⟩ := hcontinued binding hbinding
    rw [hbound.jobId, ← hpage.answers, hbound.snapshotEventCount]
    refine Ran.cons hpage ?_ hcontinues
    by_cases hnil : rest = []
    · subst hnil
      exact Ran.nil _ _ _
    · obtain ⟨-, -, offered, hoffered, hjob, hsnapshot, hnext⟩ := hpage.offered (hcontinues hnil)
      rw [hoffered] at hrest
      have hran := ih hrest
      rwa [hjob, hsnapshot, hnext] at hran

theorem Session.ran_first {first : Exchange} {rest : List Exchange}
    (h : Session none none (first :: rest)) :
    Ran first.result.jobId first.result.snapshotEventCount 0 (first :: rest) ∧ first.Page 0 := by
  obtain ⟨-, hbinding, haccepted, hcontinues, hrest⟩ := h
  obtain ⟨cursor, hpage, hzero, -⟩ := haccepted.page
  obtain rfl := hzero hbinding
  refine ⟨Ran.cons hpage ?_ hcontinues, hpage⟩
  by_cases hnil : rest = []
  · subst hnil
    exact Ran.nil _ _ _
  · obtain ⟨-, -, offered, hoffered, hjob, hsnapshot, hnext⟩ := hpage.offered (hcontinues hnil)
    rw [hoffered] at hrest
    have hran := hrest.ran
    rwa [hjob, hsnapshot, hnext] at hran

/-- The pages of a session are one run of sequences of the snapshot its first page fixed, all of it
once the last page offers no continuation. A page that offers one is not empty, so there are at most as
many pages as events, and one page when there are none. A page is refused under a binding of another
principal, workspace or job, of another snapshot, or of another position. -/
theorem job_events_paging :
    (∀ first rest, Session none none (first :: rest) →
      (∀ exchange ∈ first :: rest, exchange.result.jobId = first.request.jobId ∧
        exchange.result.snapshotEventCount = first.result.snapshotEventCount) ∧
      (∃ count : Nat, (count : Int) ≤ first.result.snapshotEventCount ∧
        (sessionEvents (first :: rest)).map ObservedEvent.sequence = positions 0 count ∧
        (((first :: rest).getLast (List.cons_ne_nil _ _)).result.page.continuationToken = none →
          (count : Int) = first.result.snapshotEventCount)) ∧
      (∀ exchange ∈ first :: rest, exchange.result.page.continuationToken ≠ none →
        exchange.result.events ≠ []) ∧
      ((first :: rest).length : Int) ≤ max first.result.snapshotEventCount 1) ∧
    ∀ (exchange : Exchange) binding, exchange.requestBinding = some binding →
      (exchange.principalId ≠ binding.principalId ∨ exchange.workspaceId ≠ binding.workspaceId ∨
        exchange.request.jobId ≠ binding.jobId ∨ exchange.result.jobId ≠ binding.jobId ∨
        exchange.result.snapshotEventCount ≠ binding.snapshotEventCount ∨
        exchange.result.events.map ObservedEvent.sequence ≠
          positions binding.nextSequence exchange.result.events.length) →
      ¬exchange.Accepted := by
  constructor
  · intro first rest h
    obtain ⟨hran, hpage⟩ := h.ran_first
    refine ⟨fun exchange hexchange => ?_, ⟨_, ?_, hran.sequences, fun htoken => ?_⟩, hran.nonempty, ?_⟩
    · obtain ⟨hjob, -, hsnapshot⟩ := hran.pages exchange hexchange
      exact ⟨hjob.trans hpage.answers, hsnapshot⟩
    · simpa using hran.within (List.cons_ne_nil _ _)
    · simpa using hran.exhausted _ (List.getLast?_eq_some_getLast (List.cons_ne_nil _ _)) htoken
    · have hwithin := hran.within (List.cons_ne_nil _ _)
      by_cases hinside : 0 < first.result.snapshotEventCount
      · have hle := hran.length_le hinside
        omega
      · -- An empty snapshot is exhausted by its first page.
        have hrest : rest = [] := by
          by_contra hnil
          have hmore := (hpage.offered (h.2.2.2.1 hnil)).2.1
          have hle := hpage.cursor_le
          omega
        subst hrest
        simp
  · intro exchange binding hbinding hother haccepted
    obtain ⟨cursor, hpage, -, hcontinued⟩ := haccepted.page
    obtain ⟨hbound, rfl⟩ := hcontinued binding hbinding
    rcases hother with h | h | h | h | h | h
    · exact h hbound.principalId.symm
    · exact h hbound.workspaceId.symm
    · exact h hbound.jobId.symm
    · exact h (hpage.answers.trans hbound.jobId.symm)
    · exact h hbound.snapshotEventCount.symm
    · exact h hpage.sequences

/-! ### Two pages -/

def pageEvent (sequence : Int) : ObservedEvent := ⟨sequence, "2024-01-01T00:00:01Z", "queued", none⟩

def pageBinding : JobEventsPageBinding :=
  ⟨1, "owner", "home", "job.events", "job-1", "sequence_asc", 2, 1⟩

def firstPage : Exchange where
  principalId := "owner"
  workspaceId := "home"
  request := ⟨"job-1", some 1, none⟩
  requestBinding := none
  result := ⟨"job-1", [pageEvent 0], 2, ⟨some "next"⟩⟩
  resultBinding := some pageBinding

def secondPage (limit : Option Int) : Exchange where
  principalId := "owner"
  workspaceId := "home"
  request := ⟨"job-1", limit, some ⟨some "next"⟩⟩
  requestBinding := some pageBinding
  result := ⟨"job-1", [pageEvent 1], 2, ⟨none⟩⟩
  resultBinding := none

def emptyPage : Exchange where
  principalId := "owner"
  workspaceId := "home"
  request := ⟨"job-1", none, none⟩
  requestBinding := none
  result := ⟨"job-1", [], 0, ⟨none⟩⟩
  resultBinding := none

theorem twoPages : Session none none [firstPage, secondPage none] :=
  ⟨rfl, rfl, by decide +kernel, by decide, rfl, rfl, by decide +kernel, by decide, trivial⟩

theorem job_events_paging_two :
    (∃ count : Nat, (count : Int) ≤ 2 ∧
      (sessionEvents [firstPage, secondPage none]).map ObservedEvent.sequence = positions 0 count ∧
      ((secondPage none).result.page.continuationToken = none → (count : Int) = 2)) ∧
    ¬Exchange.Accepted { secondPage none with workspaceId := "away" } :=
  ⟨(job_events_paging.1 firstPage [secondPage none] twoPages).2.1,
    job_events_paging.2 { secondPage none with workspaceId := "away" } pageBinding rfl
      (.inr (.inl (by decide)))⟩

/-- A token is not bound to the limit of the request it was issued for, and a snapshot of no events
still takes a page. -/
theorem job_events_paging_limit :
    (firstPage.request.limit = some 1 ∧ Session none none [firstPage, secondPage (some 7)]) ∧
      Session none none [emptyPage] ∧ emptyPage.result.snapshotEventCount = 0 ∧
        ¬(([emptyPage].length : Int) ≤ emptyPage.result.snapshotEventCount) :=
  ⟨⟨rfl, rfl, rfl, by decide +kernel, by decide, rfl, rfl, by decide +kernel, by decide, trivial⟩,
    ⟨rfl, rfl, by decide +kernel, by decide, trivial⟩, rfl, by decide⟩

end OmniviaCore.Jobs
