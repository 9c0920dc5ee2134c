import OmniviaCore.Lib.Machine
import OmniviaCore.Execution.PlaneOwnership

/-!
# Settling an interaction request

`HumanInteractionSettlement` of `execution/governed.py`: one request, the result settled against it if
any, and the evidence of the answers that came too late. `submit` makes its checks on every call, a
replay included, and only then looks at what is settled; so a call is one of three (`submit_cases`): a
refusal that writes nothing, the one acceptance, or an answer compared with the settled one. What is
settled stays (`step_settled`).
-/

namespace OmniviaCore.Execution.Interaction

open Lib CanonicalJson

/-! ## The settlement -/

/-- `InteractionRequest`. -/
structure InteractionRequest where
  requestId : String
  requestVersion : ℕ
  idempotencyKey : String
  owner : String
  waitRef : Option String
  expiresAtTick : Option ℕ
  requestId_valid : isIdentifier requestId = true
  idempotencyKey_valid : isIdentifier idempotencyKey = true
  owner_valid : isIdentifier owner = true
  waitRef_valid : ∀ ref ∈ waitRef, isIdentifier ref = true

/-- `OutcomeSubmission`. -/
structure OutcomeSubmission where
  requestId : String
  requestVersion : ℕ
  idempotencyKey : String
  actor : String
  responseDigest : String
  atTick : ℕ
  requestId_valid : isIdentifier requestId = true
  idempotencyKey_valid : isIdentifier idempotencyKey = true
  actor_valid : isIdentifier actor = true
  responseDigest_valid : isDigest responseDigest = true

/-- `SettlementResult`. -/
structure SettlementResult where
  requestId : String
  requestVersion : ℕ
  acceptedActor : String
  responseDigest : String
  owner : String
  replayed : Bool
  continuationIssued : Bool
  continuationToken : Option String
  bundleInputDigest : Option String

/-- The slots of `HumanInteractionSettlement`. -/
structure Settlement where
  request : InteractionRequest
  result : Option SettlementResult
  evidence : List Evidence

def fresh (request : InteractionRequest) : Settlement := ⟨request, none, []⟩

/-- One call of `submit`, with its flags. -/
structure Call where
  submission : OutcomeSubmission
  permissionGranted : Bool
  eligible : Bool

def HUMAN_INTERACTION_OUTCOME_CONFLICT : String := "HUMAN_INTERACTION_OUTCOME_CONFLICT"

def conflict (message : String) : ExecutionError := .refused HUMAN_INTERACTION_OUTCOME_CONFLICT message

/-- `str` of an integer, which refuses more than 4300 digits. -/
def decimalText (n : ℕ) : Except ExecutionError String :=
  if (Nat.toDigits 10 n).length ≤ 4300 then pure (toString n) else throw .valueError

def SettlementResult.replay (settled : SettlementResult) : SettlementResult :=
  { settled with
    replayed := true
    continuationIssued := false
    continuationToken := none
    bundleInputDigest := none }

section

-- The hexadecimal digest of some bytes.
variable (sha256 : List UInt8 → String)

/-- The document `_accept` digests as the input of a bundle. -/
def bundleInput (request : InteractionRequest) (token responseDigest waitRef : String) : Value :=
  mappingOf
    [("continuationToken", textValue token),
      ("owner", textValue request.owner),
      ("requestId", textValue request.requestId),
      ("responseDigest", textValue responseDigest),
      ("waitRef", textValue waitRef)]

/-- The token and the bundle input of the one continuation, when the request waits. -/
def continuation (request : InteractionRequest) (submission : OutcomeSubmission) :
    Except ExecutionError (Option (String × String)) :=
  match request.waitRef with
  | none => pure none
  | some waitRef => do
    let version ← decimalText request.requestVersion
    let token := deriveId sha256 [request.requestId, version, waitRef, submission.responseDigest]
    let digest ← canonicalHash sha256 (bundleInput request token submission.responseDigest waitRef)
    pure (some (token, digest))

/-- `_accept`. -/
def accept (submission : OutcomeSubmission) :
    EStateM ExecutionError Settlement SettlementResult := do
  let s ← get
  let issued ← attempt (continuation sha256 s.request submission)
  let result : SettlementResult :=
    { requestId := s.request.requestId
      requestVersion := s.request.requestVersion
      acceptedActor := submission.actor
      responseDigest := submission.responseDigest
      owner := s.request.owner
      replayed := false
      continuationIssued := issued.isSome
      continuationToken := issued.map Prod.fst
      bundleInputDigest := issued.map Prod.snd }
  set { s with result := some result }
  pure result

/-- The document a conflicting answer is recorded as. -/
def conflictDetail (settled : SettlementResult) (submission : OutcomeSubmission) : Value :=
  mappingOf
    [("acceptedActor", textValue settled.acceptedActor),
      ("acceptedResponseDigest", textValue settled.responseDigest),
      ("conflictingActor", textValue submission.actor),
      ("conflictingResponseDigest", textValue submission.responseDigest)]

/-- The checks of `submit`, made on a replay too: the settlement is not a credential. -/
def checkCall (request : InteractionRequest) (call : Call) : Except ExecutionError Unit := do
  require (call.submission.requestId = request.requestId)
    (.contract "request_mismatch" "submission names a different request")
  require (call.submission.requestVersion = request.requestVersion)
    (conflict "submission answers a superseded request version")
  require (call.permissionGranted = true)
    (conflict "current Permission does not admit this responder")
  require (call.eligible = true)
    (conflict "the responder is not currently eligible for this request")
  require (∀ expiresAt ∈ request.expiresAtTick, call.submission.atTick < expiresAt)
    (conflict "the request had expired before this submission")
  require (call.submission.idempotencyKey = request.idempotencyKey)
    (conflict "submission carries a different idempotency key")

/-- The answer that differs from the settled one: evidence, and a refusal. -/
def refuseConflict (settled : SettlementResult) (submission : OutcomeSubmission) :
    EStateM ExecutionError Settlement SettlementResult := do
  let s ← get
  let detail ← attempt (canonicalHash sha256 (conflictDetail settled submission))
  let entry : Evidence := ⟨HUMAN_INTERACTION_OUTCOME_CONFLICT, s.request.requestId, detail⟩
  set { s with evidence := s.evidence ++ [entry] }
  throw (conflict "this request already carries a different accepted outcome")

/-- `submit`. -/
def submit (call : Call) : EStateM ExecutionError Settlement SettlementResult := do
  let s ← get
  attempt (checkCall s.request call)
  match s.result with
  | none => accept sha256 call.submission
  | some settled =>
    if call.submission.responseDigest = settled.responseDigest then
      pure settled.replay
    else refuseConflict sha256 settled call.submission

def step (s : Settlement) (call : Call) : Settlement := finalState (submit sha256 call s)

def replies (s : Settlement) : List Call → List (Except ExecutionError SettlementResult)
  | [] => []
  | call :: calls => answer (submit sha256 call s) :: replies (step sha256 s call) calls

end

/-! ## One call -/

/-- The conditions a call is checked for before the settled result is looked at. -/
structure Passes (request : InteractionRequest) (call : Call) : Prop where
  requestId : call.submission.requestId = request.requestId
  requestVersion : call.submission.requestVersion = request.requestVersion
  permitted : call.permissionGranted = true
  eligible : call.eligible = true
  unexpired : ∀ expiresAt ∈ request.expiresAtTick, call.submission.atTick < expiresAt
  idempotencyKey : call.submission.idempotencyKey = request.idempotencyKey

variable {sha256 : List UInt8 → String} {s : Settlement} {call : Call} {result settled : SettlementResult}

theorem checkCall_eq_ok {request : InteractionRequest} :
    checkCall request call = .ok () ↔ Passes request call := by
  unfold checkCall
  simp only [bind_eq_ok, require_eq_ok, exists_unit]
  constructor
  · rintro ⟨hid, hversion, hpermitted, heligible, hunexpired, hkey⟩
    exact ⟨hid, hversion, hpermitted, heligible, hunexpired, hkey⟩
  · rintro ⟨hid, hversion, hpermitted, heligible, hunexpired, hkey⟩
    exact ⟨hid, hversion, hpermitted, heligible, hunexpired, hkey⟩

/-- A call that fails a check is refused and writes nothing. -/
theorem submit_of_not_passes (h : ¬Passes s.request call) :
    ∃ e, submit sha256 call s = .error e s := by
  cases hcheck : checkCall s.request call with
  | ok u => exact absurd (checkCall_eq_ok.1 hcheck) h
  | error e =>
    refine ⟨e, bind_raises.2 (.inr ⟨s, s, rfl, bind_raises.2 (.inl ?_)⟩)⟩
    exact attempt_raises.2 ⟨hcheck, rfl⟩

theorem submit_of_passes (h : Passes s.request call) :
    submit sha256 call s = match s.result with
      | none => accept sha256 call.submission s
      | some settled =>
        if call.submission.responseDigest = settled.responseDigest then .ok settled.replay s
        else refuseConflict sha256 settled call.submission s := by
  have hcheck := checkCall_eq_ok.2 h
  show (attempt (checkCall s.request call) >>= fun _ => _) s = _
  rw [hcheck]
  show (match s.result with
    | none => accept sha256 call.submission
    | some settled => _) s = _
  cases s.result with
  | none => rfl
  | some settled =>
    dsimp only
    split <;> rfl

/-- The first answer that passes settles the request, unless its version has no decimal text. -/
theorem accept_cases (submission : OutcomeSubmission) :
    (∃ e, accept sha256 submission s = .error e s) ∨
    ∃ result, accept sha256 submission s = .ok result { s with result := some result } ∧
      result.replayed = false ∧ result.acceptedActor = submission.actor ∧
      result.responseDigest = submission.responseDigest := by
  cases hissued : continuation sha256 s.request submission with
  | error e =>
    refine .inl ⟨e, ?_⟩
    exact bind_raises.2 (.inr ⟨s, s, rfl, bind_raises.2 (.inl (attempt_raises.2 ⟨hissued, rfl⟩))⟩)
  | ok issued =>
    refine .inr ⟨_, bind_returns.2 ⟨s, s, rfl, bind_returns.2 ⟨issued, s, ?_, rfl⟩⟩, rfl, rfl, rfl⟩
    exact attempt_returns.2 ⟨hissued, rfl⟩

theorem accepted_conflictDetail (submission : OutcomeSubmission) :
    Accepted 0 (conflictDetail settled submission) := by
  refine (accepted_mappingOf (by simp)).2 ⟨by decide, ?_⟩
  simp only [List.forall_mem_cons]
  exact ⟨accepted_textValue (by decide) _, accepted_textValue (by decide) _,
    accepted_textValue (by decide) _, accepted_textValue (by decide) _,
    fun _ h => absurd h List.not_mem_nil⟩

/-- A different answer leaves one piece of evidence, which was not applied. -/
theorem refuseConflict_eq (submission : OutcomeSubmission) :
    ∃ message entry, refuseConflict sha256 settled submission s =
      .error (conflict message) { s with evidence := s.evidence ++ [entry] } := by
  obtain ⟨detail, hdetail⟩ :=
    (@exists_canonicalHash sha256 (conflictDetail settled submission)).2 (accepted_conflictDetail submission)
  refine ⟨"this request already carries a different accepted outcome",
    ⟨HUMAN_INTERACTION_OUTCOME_CONFLICT, s.request.requestId, detail⟩, ?_⟩
  refine bind_raises.2 (.inr ⟨s, s, rfl, bind_raises.2 (.inr ⟨detail, s, ?_, rfl⟩)⟩)
  exact attempt_returns.2 ⟨hdetail, rfl⟩

/-- What a call can do. -/
inductive Outcome (sha256 : List UInt8 → String) (s : Settlement) (call : Call) : Prop where
  | refused (e : ExecutionError) (h : submit sha256 call s = .error e s)
      (hnot : ¬(Passes s.request call ∧ ∃ settled ∈ s.result,
        call.submission.responseDigest ≠ settled.responseDigest))
  | accepted (result : SettlementResult) (hpasses : Passes s.request call) (hnone : s.result = none)
      (h : submit sha256 call s = .ok result { s with result := some result })
      (hreplayed : result.replayed = false) (hactor : result.acceptedActor = call.submission.actor)
      (hdigest : result.responseDigest = call.submission.responseDigest)
  | replayed (settled : SettlementResult) (hpasses : Passes s.request call)
      (hsettled : s.result = some settled)
      (hdigest : call.submission.responseDigest = settled.responseDigest)
      (h : submit sha256 call s = .ok settled.replay s)
  | conflicting (settled : SettlementResult) (message : String) (entry : Evidence)
      (hpasses : Passes s.request call) (hsettled : s.result = some settled)
      (hdigest : call.submission.responseDigest ≠ settled.responseDigest)
      (h : submit sha256 call s =
        .error (conflict message) { s with evidence := s.evidence ++ [entry] })

theorem submit_cases (sha256 : List UInt8 → String) (s : Settlement) (call : Call) :
    Outcome sha256 s call := by
  by_cases hpasses : Passes s.request call
  · have hsubmit : submit sha256 call s = _ := submit_of_passes hpasses
    cases hresult : s.result with
    | none =>
      rw [hresult] at hsubmit
      dsimp only at hsubmit
      rcases @accept_cases sha256 s call.submission with
        ⟨e, he⟩ | ⟨result, hok, hreplayed, hactor, hdigest⟩
      · exact .refused e (hsubmit.trans he) fun ⟨_, settled, hsettled, _⟩ => by simp [hresult] at hsettled
      · exact .accepted result hpasses hresult (hsubmit.trans hok) hreplayed hactor hdigest
    | some settled =>
      rw [hresult] at hsubmit
      dsimp only at hsubmit
      by_cases hdigest : call.submission.responseDigest = settled.responseDigest
      · rw [if_pos hdigest] at hsubmit
        exact .replayed settled hpasses hresult hdigest hsubmit
      · rw [if_neg hdigest] at hsubmit
        obtain ⟨message, entry, hrefused⟩ := @refuseConflict_eq sha256 s settled call.submission
        exact .conflicting settled message entry hpasses hresult hdigest (hsubmit.trans hrefused)
  · obtain ⟨e, he⟩ := @submit_of_not_passes sha256 s call hpasses
    exact .refused e he fun h => hpasses h.1

theorem step_request : (step sha256 s call).request = s.request := by
  cases submit_cases sha256 s call with
  | refused e h | accepted result _ _ h | replayed settled _ _ _ h
  | conflicting settled message entry _ _ _ h =>
    rw [step, h]
    rfl

theorem step_settled (hsettled : s.result = some settled) :
    (step sha256 s call).result = some settled := by
  cases submit_cases sha256 s call with
  | accepted result hpasses hnone => rw [hnone] at hsettled; cases hsettled
  | refused e h | replayed settled _ _ _ h | conflicting settled message entry _ _ _ h =>
    rw [step, h]
    exact hsettled

theorem run_request (request : InteractionRequest) (calls : List Call) :
    (run (step sha256) (fresh request) calls).request = request :=
  run_invariant (P := fun s : Settlement => s.request = request)
    (fun _ _ h => step_request.trans h) rfl calls

/-! ## Histories -/

/-- A reply that settles, and one that issues a continuation. -/
def settles : Except ExecutionError SettlementResult → Bool
  | .ok result => !result.replayed
  | .error _ => false

def continues : Except ExecutionError SettlementResult → Bool
  | .ok result => result.continuationIssued
  | .error _ => false

/-- A reply after the settlement: a refusal, or a replay of what was accepted. -/
def IsReplayOf (settled : SettlementResult) (reply : Except ExecutionError SettlementResult) : Prop :=
  ∀ result, reply = .ok result →
    result.replayed = true ∧ result.acceptedActor = settled.acceptedActor ∧
      result.responseDigest = settled.responseDigest ∧ result.continuationIssued = false ∧
      result.continuationToken = none

theorem reply_of_settled (hsettled : s.result = some settled) :
    IsReplayOf settled (answer (submit sha256 call s)) := by
  intro result hresult
  cases submit_cases sha256 s call with
  | refused e h => rw [h] at hresult; cases hresult
  | accepted result hpasses hnone => rw [hnone] at hsettled; cases hsettled
  | replayed settled' hpasses hsettled' hdigest h =>
    rw [h] at hresult
    cases hresult
    rw [hsettled] at hsettled'
    cases hsettled'
    exact ⟨rfl, rfl, rfl, rfl, rfl⟩
  | conflicting settled message entry _ _ _ h => rw [h] at hresult; cases hresult

theorem replies_of_settled (hsettled : s.result = some settled) (calls : List Call) :
    ∀ reply ∈ replies sha256 s calls, IsReplayOf settled reply := by
  induction calls generalizing s with
  | nil => exact fun _ h => absurd h List.not_mem_nil
  | cons call calls ih =>
    rw [replies, List.forall_mem_cons]
    exact ⟨reply_of_settled hsettled, ih (step_settled hsettled)⟩

theorem countP_of_settled {p : Except ExecutionError SettlementResult → Bool}
    (hp : ∀ reply, IsReplayOf settled reply → p reply = false) (hsettled : s.result = some settled)
    (calls : List Call) : (replies sha256 s calls).countP p = 0 := by
  rw [List.countP_eq_zero]
  intro reply hreply
  rw [hp reply (replies_of_settled hsettled calls reply hreply)]
  exact Bool.false_ne_true

/-- What only the settling reply does is done at most once. -/
theorem countP_le_one {p : Except ExecutionError SettlementResult → Bool}
    (hreplay : ∀ settled reply, IsReplayOf settled reply → p reply = false)
    (herror : ∀ e, p (.error e) = false) (s : Settlement) (calls : List Call) :
    (replies sha256 s calls).countP p ≤ 1 := by
  induction calls generalizing s with
  | nil => exact Nat.zero_le 1
  | cons call calls ih =>
    rw [replies, List.countP_cons]
    cases submit_cases sha256 s call with
    | refused e h | conflicting settled message entry _ _ _ h =>
      have hrest := ih (step sha256 s call)
      rw [h]
      simpa [answer, herror] using hrest
    | accepted result hpasses hnone h =>
      have hsettled : (step sha256 s call).result = some result := by
        rw [step, h]
        rfl
      rw [countP_of_settled (hreplay result) hsettled]
      split <;> omega
    | replayed settled hpasses hsettled hdigest h =>
      rw [countP_of_settled (hreplay settled) (step_settled hsettled),
        hreplay settled _ (reply_of_settled hsettled)]
      decide

theorem settles_replay (settled : SettlementResult) (reply : Except ExecutionError SettlementResult)
    (h : IsReplayOf settled reply) : settles reply = false := by
  cases reply with
  | ok result => rw [settles, (h result rfl).1]; rfl
  | error e => rfl

theorem continues_replay (settled : SettlementResult) (reply : Except ExecutionError SettlementResult)
    (h : IsReplayOf settled reply) : continues reply = false := by
  cases reply with
  | ok result => exact (h result rfl).2.2.2.1
  | error e => rfl

/-- At most one call of a history settles and at most one continuation is issued; after the settling call
every returned result replays it; what is returned passed every check; a different answer that passes them
is refused with one more piece of evidence; and any other refusal writes nothing. -/
theorem settles_at_most_once (sha256 : List UInt8 → String) (request : InteractionRequest)
    (calls : List Call) :
    (replies sha256 (fresh request) calls).countP settles ≤ 1 ∧
    (replies sha256 (fresh request) calls).countP continues ≤ 1 ∧
    (∀ before call after result,
      answer (submit sha256 call (run (step sha256) (fresh request) before)) = .ok result →
      result.replayed = false →
      result.acceptedActor = call.submission.actor ∧
      result.responseDigest = call.submission.responseDigest ∧
      ∀ reply ∈ replies sha256 (run (step sha256) (fresh request) (before ++ [call])) after,
        IsReplayOf result reply) ∧
    ∀ call s, s = run (step sha256) (fresh request) calls →
      (∀ result t, submit sha256 call s = .ok result t → Passes request call) ∧
      (∀ settled, s.result = some settled → Passes request call →
        call.submission.responseDigest ≠ settled.responseDigest →
        ∃ message entry, submit sha256 call s =
          .error (conflict message) { s with evidence := s.evidence ++ [entry] }) ∧
      (∀ e t, submit sha256 call s = .error e t →
        ¬(Passes request call ∧
          ∃ settled ∈ s.result, call.submission.responseDigest ≠ settled.responseDigest) → t = s) := by
  refine ⟨countP_le_one settles_replay (fun _ => rfl) _ _,
    countP_le_one continues_replay (fun _ => rfl) _ _, ?_, ?_⟩
  · intro before call after result hresult hfirst
    rw [answer_eq_ok] at hresult
    cases submit_cases sha256 (run (step sha256) (fresh request) before) call with
    | refused e h | conflicting settled message entry _ _ _ h => rw [h] at hresult; cases hresult
    | replayed settled hpasses hsettled hdigest h =>
      rw [h] at hresult
      cases hresult
      cases hfirst
    | accepted accepted hpasses hnone h hreplayed hactor hdigest =>
      rw [h] at hresult
      cases hresult
      refine ⟨hactor, hdigest, replies_of_settled ?_ after⟩
      rw [run_concat, step, h]
      rfl
  · intro call s hs
    have hrequest : s.request = request := hs ▸ run_request request calls
    clear hs
    subst hrequest
    refine ⟨fun result t hok => ?_, fun settled hsettled hpasses hdigest => ?_, fun e t herror hnot => ?_⟩
    · cases submit_cases sha256 s call with
      | refused e h | conflicting settled message entry _ _ _ h => rw [h] at hok; cases hok
      | accepted result hpasses => exact hpasses
      | replayed settled hpasses => exact hpasses
    · cases submit_cases sha256 s call with
      | refused e h hnot => exact absurd ⟨hpasses, settled, hsettled, hdigest⟩ hnot
      | accepted result _ hnone => rw [hnone] at hsettled; cases hsettled
      | replayed settled' _ hsettled' hdigest' =>
        rw [hsettled] at hsettled'
        cases hsettled'
        exact absurd hdigest' hdigest
      | conflicting settled message entry _ _ _ h => exact ⟨message, entry, h⟩
    · cases submit_cases sha256 s call with
      | refused e' h =>
        rw [h] at herror
        cases herror
        rfl
      | accepted result _ _ h | replayed settled _ _ _ h => rw [h] at herror; cases herror
      | conflicting settled message entry hpasses hsettled hdigest h =>
        exact absurd ⟨hpasses, settled, hsettled, hdigest⟩ hnot

end OmniviaCore.Execution.Interaction
