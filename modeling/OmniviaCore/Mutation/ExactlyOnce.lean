import OmniviaCore.Mutation.Settlement

/-!
# Mutations happen exactly once

A run is the fenced transactions on one workspace database in the order the writer lock put them:
calls of the seam, calls of the ownership substrate, and the transactions of other writers, which keep
the seam's rows. What a call leaves behind is there when a later one is made (`after_execute`): the
claim of its scope, so that no other call executes, and the execution of its grant, so that no other
call spends it.
-/

namespace OmniviaCore.Mutation

open Lib CanonicalJson Ownership

variable {δ : Type} {policy : Policy} {sha256 : List UInt8 → String}

/-! ## One call -/

theorem validate_rows (db : Db (Rows δ)) (rows : Rows δ) (identity : ServiceInstanceIdentity)
    (workspaceId : String) (generation : ℕ) (moment : String) :
    validate { db with rows } identity workspaceId generation moment =
      validate db identity workspaceId generation moment := rfl

theorem admission_ok {call : Call policy δ} {grant : MutationGrant policy} {version : Option String}
    (h : admission call = .ok (grant, version)) :
    call.grant = some grant ∧ grant.covers call.context = true ∧
      grant.isCurrent call.clock.entryMonotonicUs = true ∧
      call.context.idempotencyKey = some grant.idempotencyKey ∧
      requiredRecordVersion call grant = .ok version ∧
      call.equivalence.scope = grant.scope ∧
      (call.compatibleEquivalences.length ≤ 2 ∧
        ∀ candidate ∈ call.compatibleEquivalences, candidate.scope = call.equivalence.scope) ∧
      grant.binds grant.idempotencyKey call.equivalence.fingerprint version = true := by
  unfold admission at h
  split at h
  · cases h
  · next g hgrant =>
    split at h
    next => simp at h
    next key hkey =>
      simp only [bind_eq_ok, require_eq_ok, exists_unit, pure_eq_ok, Prod.mk.injEq] at h
      obtain ⟨hcovers, hcurrent, version', hversion, hscope, hcompatible, hbinds, rfl, rfl⟩ := h
      have hkey' : key = g.idempotencyKey := by
        simp only [MutationGrant.binds, Bool.and_eq_true, decide_eq_true_eq] at hbinds
        exact hbinds.1.1
      subst hkey'
      exact ⟨hgrant, hcovers, hcurrent, hkey, hversion, hscope, hcompatible, hbinds⟩

/-- All a call on an idle database can do: nothing, or commit what its transaction did. -/
theorem executeMutation_idle (sha256 : List UInt8 → String) (db : Db (Rows δ)) (identity : ServiceInstanceIdentity)
    (call : Call policy δ) :
    (∃ refusal, executeMutation sha256 (.idle db) identity call = (.idle db, .error refusal)) ∨
    ∃ grant version rows out, admission call = .ok (grant, version) ∧
      settle sha256 call grant version db.rows = .ok (rows, out) ∧
      executeMutation sha256 (.idle db) identity call = (.idle { db with rows }, .ok out) := by
  unfold executeMutation
  cases hadmission : admission call with
  | error refusal => exact .inl ⟨refusal, rfl⟩
  | ok admitted =>
    obtain ⟨grant, version⟩ := admitted
    dsimp only
    rcases fencedTransaction_idle db identity grant.workspaceId grant.fencingGeneration
      (guardedWrite fun rows =>
        ((settle sha256 call grant version rows).map Prod.fst).mapError fun _ => "refused") with
      ⟨e, hfenced⟩ | ⟨hfenced, hraised, -, -⟩
    · rw [hfenced, Database.current_idle]
      left
      cases e with
      | bodyRaised message => cases settle sha256 call grant version db.rows <;> exact ⟨_, rfl⟩
      | _ => exact ⟨_, rfl⟩
    · rw [hfenced]
      right
      rcases guardedWrite_cases (fun rows =>
        ((settle sha256 call grant version rows).map Prod.fst).mapError fun _ => "refused") db with
        ⟨e, hwrite⟩ | ⟨rows, hrows, hwrite, -⟩
      · rw [hwrite] at hraised
        cases hraised
      · rw [hwrite]
        cases hsettle : settle sha256 call grant version db.rows with
        | error refusal =>
          rw [hsettle] at hrows
          cases hrows
        | ok settled =>
          obtain ⟨rows', out⟩ := settled
          rw [hsettle] at hrows
          cases hrows
          refine ⟨grant, version, rows', out, rfl, hsettle, ?_⟩
          rw [Database.current_idle, hsettle]
          rfl

/-! ## Runs -/

/-- The call of the ownership substrate, or the fenced transaction of another writer, keeps the rows
of the seam. -/
def KeepsSeam : Ownership.Call (Rows δ) → Prop
  | .fenced _ _ _ body => ∀ db, (body db).1.rows.seam = db.rows.seam
  | _ => True

/-- One transaction on the workspace database. -/
inductive Label (policy : Policy) (δ : Type) where
  | execute (identity : ServiceInstanceIdentity) (call : Call policy δ)
  | other (call : Ownership.Call (Rows δ)) (keeps : KeepsSeam call)

/-- The database after a transaction. -/
def step (sha256 : List UInt8 → String) (d : Database (Rows δ)) :
    Label policy δ → Database (Rows δ)
  | .execute identity call => (executeMutation sha256 d identity call).1
  | .other call _ => (perform d call).1

/-- The database after transactions in the order the writer lock put them. -/
def after (sha256 : List UInt8 → String) (db : Db (Rows δ)) (labels : List (Label policy δ)) :
    Database (Rows δ) :=
  run (step sha256) (.idle db) labels

theorem step_grows (sha256 : List UInt8 → String) (db : Db (Rows δ)) (label : Label policy δ) :
    ∃ db', step sha256 (.idle db) label = .idle db' ∧ Grows db.rows.seam db'.rows.seam := by
  cases label with
  | execute identity call =>
    rcases executeMutation_idle sha256 db identity call with
      ⟨refusal, h⟩ | ⟨grant, version, rows, out, -, hsettle, h⟩
    · exact ⟨db, congrArg Prod.fst h, .refl _⟩
    · exact ⟨_, congrArg Prod.fst h, (settle_ok hsettle).2.1⟩
  | other call keeps =>
    rcases perform_cases db call with ⟨e, h⟩ | ⟨db', h, -, hrows⟩
    · exact ⟨db, congrArg Prod.fst h, .refl _⟩
    · refine ⟨db', congrArg Prod.fst h, ?_⟩
      have hseam : db'.rows.seam = db.rows.seam := by
        rw [hrows]
        cases call with
        | fenced identity workspaceId generation body => exact keeps db
        | _ => rfl
      rw [hseam]
      exact .refl _

theorem run_grows (sha256 : List UInt8 → String) (db : Db (Rows δ)) (labels : List (Label policy δ)) :
    ∃ db', run (step sha256) (.idle db) labels = .idle db' ∧ Grows db.rows.seam db'.rows.seam := by
  induction labels generalizing db with
  | nil => exact ⟨db, rfl, .refl _⟩
  | cons label labels ih =>
    obtain ⟨db₁, hstep, hgrows⟩ := step_grows sha256 db label
    obtain ⟨db₂, hrun, hgrows'⟩ := ih db₁
    refine ⟨db₂, ?_, hgrows.trans hgrows'⟩
    rw [run_cons, hstep, hrun]

/-- After a run from rows of which the seam's are empty. -/
theorem after_valid (sha256 : List UInt8 → String) {db : Db (Rows δ)} (hempty : db.rows.seam = .empty)
    (labels : List (Label policy δ)) :
    ∃ db', after sha256 db labels = .idle db' ∧ db'.rows.seam.Valid := by
  obtain ⟨db', hrun, hgrows⟩ := run_grows sha256 db labels
  refine ⟨db', hrun, hgrows.valid ?_⟩
  rw [hempty]
  exact ⟨unique_nil, unique_nil, unique_nil⟩

theorem after_append (sha256 : List UInt8 → String) (db : Db (Rows δ)) (first second : List (Label policy δ)) :
    after sha256 db (first ++ second) = run (step sha256) (after sha256 db first) second :=
  run_append _ _ _ _

/-! ## Exactly once -/

/-- The call commits and answers. -/
def Answers (sha256 : List UInt8 → String) (d : Database (Rows δ))
    (identity : ServiceInstanceIdentity) (call : Call policy δ) (out : MutationOutcome) : Prop :=
  (executeMutation sha256 d identity call).2 = .ok out

/-- The call commits its domain mutation. -/
def Executes (sha256 : List UInt8 → String) (d : Database (Rows δ))
    (identity : ServiceInstanceIdentity) (call : Call policy δ) (out : MutationOutcome) : Prop :=
  Answers sha256 d identity call out ∧ out.replayed = false

section Once

variable {db : Db (Rows δ)} {identity identity' : ServiceInstanceIdentity}
  {call call' : Call policy δ} {out out' : MutationOutcome}

theorem answers_idle (h : Answers sha256 (.idle db) identity call out) :
    ∃ grant version rows, admission call = .ok (grant, version) ∧
      settle sha256 call grant version db.rows = .ok (rows, out) ∧
      executeMutation sha256 (.idle db) identity call = (.idle { db with rows }, .ok out) := by
  rcases executeMutation_idle sha256 db identity call with
    ⟨refusal, heq⟩ | ⟨grant, version, rows, out', hadmission, hsettle, heq⟩
  · rw [Answers, heq] at h
    cases h
  · rw [Answers, heq] at h
    cases h
    exact ⟨grant, version, rows, hadmission, hsettle, heq⟩

/-- What a call left behind is still there when a later one is made. -/
theorem after_execute {first : List (Label policy δ)} (between : List (Label policy δ))
    (hempty : db.rows.seam = .empty)
    (h : Answers sha256 (after sha256 db first) identity call out) :
    ∃ before grant version rows later, after sha256 db first = .idle before ∧
      before.rows.seam.Valid ∧ admission call = .ok (grant, version) ∧
      settle sha256 call grant version before.rows = .ok (rows, out) ∧
      after sha256 db (first ++ .execute identity call :: between) = .idle later ∧
      later.rows.seam.Valid ∧ Grows rows.seam later.rows.seam := by
  obtain ⟨before, hbefore, hvalid⟩ := after_valid sha256 hempty first
  rw [hbefore] at h
  obtain ⟨grant, version, rows, hadmission, hsettle, heq⟩ := answers_idle h
  obtain ⟨later, hlater, hgrows⟩ :=
    run_grows sha256 { before with rows } between
  refine ⟨before, grant, version, rows, later, hbefore, hvalid, hadmission, hsettle, ?_, ?_, hgrows⟩
  · rw [after_append, hbefore, run_cons, step, heq, hlater]
  · exact hgrows.valid ((settle_ok hsettle).2.1.valid hvalid)

/-- Two calls of one scope never both execute. -/
theorem executes_once {first between : List (Label policy δ)} (hempty : db.rows.seam = .empty)
    (h : Executes sha256 (after sha256 db first) identity call out)
    (h' : Executes sha256 (after sha256 db (first ++ .execute identity call :: between)) identity'
      call' out') :
    call'.equivalence.scope ≠ call.equivalence.scope := by
  obtain ⟨before, grant, version, rows, later, -, -, hadmission, hsettle, hlater, hvalid, hgrows⟩ :=
    after_execute between hempty h.1
  obtain ⟨-, -, -, hreplayed | ⟨-, -, claim, text, hsettled⟩⟩ := settle_ok hsettle
  · exact absurd hreplayed.1 (by rw [h.2]; decide)
  rw [hlater] at h'
  obtain ⟨grant', version', rows', hadmission', hsettle', -⟩ := answers_idle h'.1
  obtain ⟨-, -, -, hreplayed | ⟨-, hnone, -⟩⟩ := settle_ok hsettle'
  · exact absurd hreplayed.1 (by rw [h'.2]; decide)
  intro hscope
  rw [(admission_ok hadmission').2.2.2.2.2.1, (admission_ok hadmission).2.2.2.2.2.1, ← hsettled.scope] at hscope
  have hfind := findClaim_eq hvalid (hgrows.extends_.claims hsettled.answered.claim_mem)
  rw [hscope, hfind] at hnone
  cases hnone

theorem spends_once {first between : List (Label policy δ)} (hempty : db.rows.seam = .empty)
    (h : Answers sha256 (after sha256 db first) identity call out)
    (h' : Answers sha256 (after sha256 db (first ++ .execute identity call :: between)) identity'
      call' out') :
    call'.grant.map (·.grantId) ≠ call.grant.map (·.grantId) := by
  obtain ⟨before, grant, version, rows, later, -, -, hadmission, hsettle, hlater, hvalid, hgrows⟩ :=
    after_execute between hempty h
  obtain ⟨-, -, ⟨e, he, hspent⟩, -⟩ := settle_ok hsettle
  rw [hlater] at h'
  obtain ⟨grant', version', rows', hadmission', hsettle', -⟩ := answers_idle h'
  have hfresh := (settle_ok hsettle').1 e (hgrows.extends_.executions he)
  rw [(admission_ok hadmission).1, (admission_ok hadmission').1, Option.map_some, Option.map_some, ne_eq,
    Option.some.injEq]
  exact fun hgrant => hfresh (hspent.trans hgrant.symm)

/-- What a call that answers has passed. -/
structure Passed (rows : Rows δ) (call : Call policy δ) (out : MutationOutcome) : Prop where
  grant : ∃ grant version, call.grant = some grant ∧ grant.covers call.context = true ∧
    grant.isCurrent call.clock.entryMonotonicUs = true ∧
    grant.isCurrent call.clock.settledMonotonicUs = true ∧
    grant.isCurrent call.clock.finalMonotonicUs = true ∧
    requiredRecordVersion call grant = .ok version ∧
    grant.binds grant.idempotencyKey call.equivalence.fingerprint version = true ∧
    (findClaim rows.seam call.equivalence.scope = none →
      ∀ precondition ∈ call.precondition, precondition rows = .ok version)
  fingerprint : ∀ claim, findClaim rows.seam call.equivalence.scope = some claim →
    claim.requestDigest ∈ call.acceptedFingerprints
  result : call.validateResult out.result = .ok true

theorem passed_of_settle {grant : MutationGrant policy} {version : Option String}
    {rows rows' : Rows δ} (hadmission : admission call = .ok (grant, version))
    (h : settle sha256 call grant version rows = .ok (rows', out)) : Passed rows call out := by
  obtain ⟨hgrant, hcovers, hentry, -, hversion, hscope, -, hbinds⟩ := admission_ok hadmission
  simp only [settle, bind_eq_ok, require_eq_ok, exists_unit] at h
  obtain ⟨-, h⟩ := h
  cases hclaim : findClaim rows.seam grant.scope with
  | none =>
    rw [hclaim] at h
    simp only [settleFresh, bind_eq_ok, called_eq_ok, mapError_eq_ok, require_eq_ok, exists_unit,
      pure_eq_ok, Prod.mk.injEq, Prod.exists, requireCurrent] at h
    obtain ⟨hprecondition, hsettled, auditRef, -, claimId, -, outcomeId, -, authority, -, -, seam₁, -,
      seam₂, -, domain, result, -, valid, hvalid, hresult, text, -, seam₃, -, seam₄, -, hfinal, -, rfl⟩ := h
    refine ⟨⟨grant, version, hgrant, hcovers, hentry, hsettled, hfinal, hversion, hbinds, ?_⟩, ?_, ?_⟩
    · intro _ precondition hmem
      rw [checkPrecondition, Option.mem_def.1 hmem] at hprecondition
      simp only [bind_eq_ok, called_eq_ok, require_eq_ok] at hprecondition
      obtain ⟨observed, hobserved, rfl⟩ := hprecondition
      exact hobserved
    · intro claim hfind
      rw [hscope, hclaim] at hfind
      cases hfind
    · rw [hvalid, hresult]
  | some claim =>
    rw [hclaim] at h
    simp only [bind_eq_ok, require_eq_ok, exists_unit, unserved_eq_ok, serveReplay, called_eq_ok,
      pure_eq_ok, Prod.mk.injEq, requireCurrent] at h
    obtain ⟨haccepted, -, replayed, -, valid, hvalid, hresult, hsettled, seam, -, hfinal, -, rfl⟩ := h
    refine ⟨⟨grant, version, hgrant, hcovers, hentry, hsettled, hfinal, hversion, hbinds, ?_⟩, ?_, ?_⟩
    · intro hnone
      rw [hscope, hclaim] at hnone
      cases hnone
    · intro claim' hfind
      rw [hscope, hclaim] at hfind
      cases hfind
      exact haccepted
    · rw [hvalid, hresult]

/-! ## Replays -/

/-- The grant's scopes and capabilities fit their columns. -/
def Recordable (grant : MutationGrant policy) : Prop :=
  (∃ text, scopesJson grant.scopes = .ok text ∧ text.length ≤ MAX_GRANTED_AUTHORITY) ∧
  ∃ text, capabilitiesJson grant.capabilities = .ok text ∧ text.length ≤ MAX_GRANTED_AUTHORITY

theorem two_le_length_of_sequence {items : List Value} {text : List Char}
    (h : dumps (.sequence items) = .ok text) : 2 ≤ text.length := by
  simp only [dumps, bind_eq_ok, pure_eq_ok] at h
  obtain ⟨texts, -, rfl⟩ := h
  simp [Tree.bracketed]

/-- An execution of an answered claim is recorded exactly when its grant fits. -/
theorem recordExecution_iff {seam : SeamRows} {grant : MutationGrant policy} {clock : Readings}
    {claim : Claim} {text : List Char} (h : Answered sha256 seam claim text grant.purpose)
    (hscope : claim.scope = grant.scope) (hfresh : ∀ e ∈ seam.executions, e.grantId ≠ grant.grantId)
    (hcurrent : grant.isCurrent clock.settledMonotonicUs = true) :
    (∃ seam', recordExecution seam grant clock .replayed claim.claimId claim.auditRef = .ok seam') ↔
      Recordable grant := by
  simp only [Claim.scope, MutationGrant.scope, IdempotencyScope.mk.injEq, Option.some.injEq] at hscope
  obtain ⟨hprincipal, hworkspace, hoperation, -⟩ := hscope
  constructor
  · rintro ⟨seam', hrecord⟩
    simp only [recordExecution, bind_eq_ok, mapError_eq_ok, require_eq_ok, exists_unit] at hrecord
    obtain ⟨scopes, hscopes, capabilities, hcapabilities, hlength, -⟩ := hrecord
    exact ⟨⟨scopes, hscopes, hlength.1⟩, capabilities, hcapabilities, hlength.2⟩
  · rintro ⟨⟨scopes, hscopes, hscopesLength⟩, capabilities, hcapabilities, hcapabilitiesLength⟩
    obtain ⟨hboundedWorkspace, hboundedPrincipal, hboundedOperation, hboundedPurpose, hboundedClaim,
      hboundedAudit⟩ := h.bounded
    obtain ⟨a, ha, haRef, haWorkspace, haPrincipal, haOperation, haPurpose⟩ := h.audit
    simp only [MutationGrant.isCurrent, Bool.and_eq_true, decide_eq_true_eq] at hcurrent
    have hbounded : (bounded grant.workspaceId && bounded grant.principalId && bounded grant.operation &&
        bounded grant.purpose && bounded grant.grantId && bounded grant.requiredRole &&
        bounded claim.claimId && bounded claim.auditRef) = true := by
      rw [← hworkspace, ← hprincipal, ← hoperation]
      simp only [hboundedWorkspace, hboundedPrincipal, hboundedOperation, hboundedPurpose,
        hboundedClaim, hboundedAudit, grant.grantId_bounded, grant.requiredRole_bounded, Bool.and_self]
    simp only [recordExecution, SeamRows.insertExecution, bind_eq_ok, mapError_eq_ok, require_eq_ok,
      exists_unit, pure_eq_ok]
    refine ⟨_, scopes, hscopes, capabilities, hcapabilities, ⟨hscopesLength, hcapabilitiesLength⟩,
      hfresh, ?_, hbounded, ?_, ?_, ?_, rfl⟩
    · intro heq
      cases heq
    · exact ⟨two_le_length_of_sequence hscopes, hscopesLength, two_le_length_of_sequence hcapabilities,
        hcapabilitiesLength⟩
    · exact ⟨grant.generation_pos, grant.issuedAt_pos, grant.window, hcurrent.1, hcurrent.2,
        clock.settledAt_pos⟩
    · exact ⟨⟨claim, h.claim_mem, rfl, hworkspace, hprincipal, hoperation, rfl⟩, a, ha, haRef,
        haWorkspace.trans hworkspace, haPrincipal.trans hprincipal, haOperation.trans hoperation,
        haPurpose⟩

/-- A later call of a settled scope which the seam has no other reason to refuse: it accepts the
claim's fingerprint, its grant is current and has not been spent, the service still holds the
workspace, and the domain's checks pass. -/
structure Presents (later : Db (Rows δ)) (identity : ServiceInstanceIdentity) (call : Call policy δ)
    (grant : MutationGrant policy) (version : Option String) (scope : IdempotencyScope)
    (fingerprint : String) (result : Value) : Prop where
  admitted : admission call = .ok (grant, version)
  scope_eq : call.equivalence.scope = scope
  accepted : fingerprint ∈ call.acceptedFingerprints
  fresh : ∀ e ∈ later.rows.seam.executions, e.grantId ≠ grant.grantId
  settled_current : grant.isCurrent call.clock.settledMonotonicUs = true
  final_current : grant.isCurrent call.clock.finalMonotonicUs = true
  entry : validate later identity grant.workspaceId grant.fencingGeneration "on entry" = .ok ()
  commit : validate later identity grant.workspaceId grant.fencingGeneration "before commit" = .ok ()
  writer : guardAdmits later = true
  authority : ∀ authority ∈ call.replayAuthority, authority later.rows = .ok ()
  result_valid : ∀ text w, dumps result = .ok text → loads text = .ok w →
    call.validateResult w = .ok true

theorem executeMutation_commits {db : Db (Rows δ)} {grant : MutationGrant policy}
    {version : Option String} (rows : Rows δ) (hadmission : admission call = .ok (grant, version))
    (hentry : validate db identity grant.workspaceId grant.fencingGeneration "on entry" = .ok ())
    (hcommit :
      validate db identity grant.workspaceId grant.fencingGeneration "before commit" = .ok ())
    (hwriter : guardAdmits db = true)
    (hsettle : settle sha256 call grant version db.rows = .ok (rows, out)) :
    executeMutation sha256 (.idle db) identity call = (.idle { db with rows }, .ok out) := by
  have hwrite : guardedWrite (fun rows =>
      ((settle sha256 call grant version rows).map Prod.fst).mapError fun _ => "refused") db =
      ({ db with rows }, none) :=
    guardedWrite_ok hwriter (by rw [hsettle]; rfl)
  unfold executeMutation
  rw [hadmission]
  dsimp only
  rw [fencedTransaction_commits hentry (by rw [hwrite]) (by rw [hwrite, validate_rows, hcommit]), hwrite,
    Database.current_idle, hsettle]
  rfl

/-- Such a call is answered exactly when the stored text is served and its grant can be recorded. -/
theorem answers_iff (out : MutationOutcome) {later : Db (Rows δ)} {grant : MutationGrant policy}
    {version : Option String} {claim : Claim} {text : List Char} {value : Value} (hvalid : later.rows.seam.Valid)
    (hanswered : Answered sha256 later.rows.seam claim text (policy.mutationPurpose claim.operation))
    (htext : dumps value = .ok text)
    (h : Presents later identity call grant version claim.scope claim.requestDigest value) :
    Answers sha256 (.idle later) identity call out ↔
      (∃ w, servedValue text = .ok w ∧ out = ⟨w, true, claim.claimId, claim.auditRef⟩) ∧
        Recordable grant := by
  have hscope : claim.scope = grant.scope := h.scope_eq.symm.trans (admission_ok h.admitted).2.2.2.2.2.1
  have hpurpose : policy.mutationPurpose claim.operation = grant.purpose := by
    simp only [Claim.scope, MutationGrant.scope, IdempotencyScope.mk.injEq] at hscope
    rw [grant.purpose_eq, hscope.2.2.1]
  rw [hpurpose] at hanswered
  have hfind : findClaim later.rows.seam grant.scope = some claim :=
    hscope ▸ findClaim_eq hvalid hanswered.claim_mem
  have hrecord := recordExecution_iff hanswered hscope h.fresh h.settled_current
  have hreplay := replay_eq hvalid hanswered
  constructor
  · intro hanswers
    obtain ⟨grant', version', rows, hadmission, hsettle, -⟩ := answers_idle hanswers
    rw [h.admitted] at hadmission
    cases hadmission
    simp only [settle, hfind, bind_eq_ok, require_eq_ok, exists_unit, unserved_eq_ok, serveReplay,
      called_eq_ok, pure_eq_ok, Prod.mk.injEq] at hsettle
    obtain ⟨-, -, -, replayed, hreplayed, valid, -, -, -, seam, hseam, -, -, rfl⟩ := hsettle
    rw [hreplay] at hreplayed
    cases hserved : servedValue text with
    | error refusal =>
      rw [hserved] at hreplayed
      cases hreplayed
    | ok w =>
      rw [hserved] at hreplayed
      cases hreplayed
      exact ⟨⟨w, rfl, rfl⟩, hrecord.1 ⟨seam, hseam⟩⟩
  · rintro ⟨⟨w, hserved, rfl⟩, hrecordable⟩
    obtain ⟨seam, hseam⟩ := hrecord.2 hrecordable
    rw [hserved] at hreplay
    have hauthority : checkReplayAuthority call later.rows = .ok () := by
      unfold checkReplayAuthority
      split
      · rfl
      · next authority heq => rw [h.authority authority heq]; rfl
    have hresult := h.result_valid text w htext (servedValue_eq_ok.1 hserved).1
    refine congrArg Prod.snd (executeMutation_commits ⟨seam, later.rows.domain⟩ h.admitted
      h.entry h.commit h.writer ?_)
    simp only [settle, hfind, bind_eq_ok, require_eq_ok, exists_unit, unserved_eq_ok, serveReplay,
      called_eq_ok, pure_eq_ok, Prod.mk.injEq, requireCurrent]
    exact ⟨h.fresh, h.accepted, hauthority, _, hreplay, true, hresult, rfl, h.settled_current, seam, hseam,
      h.final_current, rfl, rfl⟩

/-- A later call of a settled scope is answered with the result the first call returned exactly when the
canonicalizer writes that result as the encoder did, and the grant can be recorded. -/
theorem replayed_iff {first between : List (Label policy δ)} (hempty : db.rows.seam = .empty)
    (h : Executes sha256 (after sha256 db first) identity call out) {later : Db (Rows δ)}
    (hlater : after sha256 db (first ++ .execute identity call :: between) = .idle later)
    {grant : MutationGrant policy} {version : Option String}
    (h' : Presents later identity' call' grant version call.equivalence.scope
      call.equivalence.fingerprint out.result) :
    (∃ out', Answers sha256 (.idle later) identity' call' out' ∧ out'.replayed = true ∧
        denote out'.result = denote out.result) ↔
      (∃ text, dumps out.result = .ok text ∧ canonicalize out.result (ofChars ['$']) = .ok text) ∧
        Recordable grant := by
  obtain ⟨before, grant₁, version₁, rows, later', -, -, hadmission, hsettle, hlater', hvalid, hgrows⟩ :=
    after_execute between hempty h.1
  obtain rfl : later = later' := by
    rw [hlater] at hlater'
    exact congrArg Database.durable hlater'
  obtain ⟨-, -, -, hreplayed | ⟨-, -, claim, text, hsettled⟩⟩ := settle_ok hsettle
  · exact absurd hreplayed.1 (by rw [h.2]; decide)
  have hpurpose : grant₁.purpose = policy.mutationPurpose claim.operation := by
    have hscope := hsettled.scope
    simp only [Claim.scope, MutationGrant.scope, IdempotencyScope.mk.injEq] at hscope
    rw [grant₁.purpose_eq, hscope.2.2.1]
  have hanswered := (hpurpose ▸ hsettled.answered).extends hgrows.extends_
  rw [(admission_ok hadmission).2.2.2.2.2.1, ← hsettled.scope, ← hsettled.fingerprint] at h'
  have hiff := fun out' => answers_iff out' hvalid hanswered hsettled.dumps h'
  have hserved := servedValue_iff hsettled.distinct hsettled.mapping hsettled.dumps
  constructor
  · rintro ⟨out', hanswers, -, -⟩
    obtain ⟨⟨w, hw, -⟩, hrecordable⟩ := (hiff out').1 hanswers
    exact ⟨⟨text, hsettled.dumps, hserved.1 ⟨w, hw⟩⟩, hrecordable⟩
  · rintro ⟨⟨text', htext', hcanonical⟩, hrecordable⟩
    rw [hsettled.dumps] at htext'
    cases htext'
    obtain ⟨w, hw⟩ := hserved.2 hcanonical
    exact ⟨_, (hiff _).2 ⟨⟨w, hw, rfl⟩, hrecordable⟩, rfl,
      denote_servedValue hsettled.distinct hsettled.dumps hw⟩

end Once

/-- Mutations happen exactly once, over every interleaving: a scope is executed by one call, a grant is
spent by one call, a call that is refused changes no row and one that answers has passed every check,
a replay leaves the domain as it was, and a later call of a settled scope is answered with the first
result exactly when that result's text is canonical and the later grant can be recorded. -/
theorem mutation_exactly_once (db : Db (Rows δ)) (hempty : db.rows.seam = .empty) :
    (∀ (first between : List (Label policy δ)) identity identity' (call call' : Call policy δ) out out',
      Executes sha256 (after sha256 db first) identity call out →
      Executes sha256 (after sha256 db (first ++ .execute identity call :: between)) identity' call'
        out' →
      call'.equivalence.scope ≠ call.equivalence.scope) ∧
    (∀ (first between : List (Label policy δ)) identity identity' (call call' : Call policy δ) out out',
      Answers sha256 (after sha256 db first) identity call out →
      Answers sha256 (after sha256 db (first ++ .execute identity call :: between)) identity' call'
        out' →
      call'.grant.map (·.grantId) ≠ call.grant.map (·.grantId)) ∧
    (∀ (labels : List (Label policy δ)) identity (call : Call policy δ) refusal,
      (executeMutation sha256 (after sha256 db labels) identity call).2 = .error refusal →
      (executeMutation sha256 (after sha256 db labels) identity call).1 = after sha256 db labels) ∧
    (∀ (labels : List (Label policy δ)) identity (call : Call policy δ) out,
      Answers sha256 (after sha256 db labels) identity call out →
      Passed (after sha256 db labels).durable.rows call out ∧
      (out.replayed = true →
        (executeMutation sha256 (after sha256 db labels) identity call).1.durable.rows.domain =
          (after sha256 db labels).durable.rows.domain)) ∧
    ∀ (first between : List (Label policy δ)) identity identity' (call call' : Call policy δ) out later
        (grant : MutationGrant policy) version,
      Executes sha256 (after sha256 db first) identity call out →
      after sha256 db (first ++ .execute identity call :: between) = .idle later →
      Presents later identity' call' grant version call.equivalence.scope
        call.equivalence.fingerprint out.result →
      ((∃ out', Answers sha256 (.idle later) identity' call' out' ∧ out'.replayed = true ∧
          denote out'.result = denote out.result) ↔
        (∃ text, dumps out.result = .ok text ∧ canonicalize out.result (ofChars ['$']) = .ok text) ∧
          Recordable grant) := by
  refine ⟨fun _ _ _ _ _ _ _ _ => executes_once hempty, fun _ _ _ _ _ _ _ _ => spends_once hempty, ?_, ?_,
    fun _ _ _ _ _ _ _ _ _ _ h hlater h' => replayed_iff hempty h hlater h'⟩
  · intro labels identity call refusal h
    obtain ⟨db', hdb', -⟩ := after_valid sha256 hempty labels
    rw [hdb'] at h ⊢
    rcases executeMutation_idle sha256 db' identity call with
      ⟨refusal', heq⟩ | ⟨grant, version, rows, out, -, -, heq⟩
    · rw [heq]
    · rw [heq] at h
      cases h
  · intro labels identity call out h
    obtain ⟨db', hdb', -⟩ := after_valid sha256 hempty labels
    rw [hdb'] at h ⊢
    obtain ⟨grant, version, rows, hadmission, hsettle, heq⟩ := answers_idle h
    refine ⟨passed_of_settle hadmission hsettle, fun hreplayed => ?_⟩
    rw [heq]
    obtain ⟨-, -, -, ⟨-, hdomain⟩ | ⟨hexecuted, -⟩⟩ := settle_ok hsettle
    · exact hdomain
    · rw [hreplayed] at hexecuted
      cases hexecuted

/-! ## A service that answers and one that does not -/

def noPreconditions : Policy := ⟨fun _ => "authoring", fun _ => false⟩

def service : ServiceInstanceIdentity := ⟨"service", "installation", ⟨1, "start", "boot", "principal"⟩⟩

/-- A workspace the service holds at generation 1, whose domain is a counter. -/
def heldWorkspace : Db (Rows ℕ) where
  substrate := true
  guardTable := true
  workspaceState := some ⟨"w", 1, "1", "ready", "t", "t"⟩
  workspaceLease := some {
    workspaceId := "w"
    serviceInstanceId := "service"
    installationId := "installation"
    fencingGeneration := 1
    osPrincipal := none
    processPid := none
    processStart := none
    bootId := none
    endpoint := none
    lockMechanism := none
    heartbeatMonotonic := none
    heartbeatAt := none
    acquiredAt := "t"
    lifecycle := .held
    takeoverPredecessor := none
    shutdownState := none }
  mutationGuard := some ⟨"w", "service", 1, "t"⟩
  rows := ⟨.empty, 0⟩

/-- A grant to count under one key. -/
def countingGrant (grantId : String) (h : bounded grantId = true) : MutationGrant noPreconditions where
  grantId
  principalId := "p"
  workspaceId := "w"
  requiredRole := "contributor"
  scopes := ["write"]
  capabilities := []
  operation := "count"
  purpose := "authoring"
  idempotencyKey := "key"
  requestFingerprint := "fingerprint"
  requiredRecordVersion := none
  fencingGeneration := 1
  issuedAtUs := 1
  issuedMonotonicUs := 0
  expiresMonotonicUs := 10
  purpose_eq := rfl
  generation_pos := by decide
  issuedAt_pos := by decide
  window := by decide
  grantId_bounded := h
  requiredRole_bounded := by decide

/-- The call that counts and returns `result`. -/
def countingCall (grantId : String) (h : bounded grantId = true) (result : Result) :
    Call noPreconditions ℕ where
  grant := some (countingGrant grantId h)
  context := ⟨"count", "p", ["contributor"], some "w", ["write"], "authoring", [], "request",
    "correlation", "trace", .mapping [], some "key", none⟩
  equivalence := ⟨⟨"p", some "w", "count", "key"⟩, "fingerprint"⟩
  compatibleEquivalences := []
  precondition := none
  replayAuthority := none
  mutate := fun rows _ => .ok (rows.domain + 1, result)
  validateResult := fun _ => .ok true
  allocateIdentifier := fun kind => .ok (kind ++ grantId)
  clock := ⟨1, 2, 5, 3, by decide, by decide, by decide⟩

/-- A member `score`. -/
def scored (score : Value) (h : (Value.mapping [(.name (ofChars "score".toList), score)]).distinct = true) :
    Result := ⟨[(.name (ofChars "score".toList), score)], h⟩

def first (result : Result) : Call noPreconditions ℕ := countingCall "first" (by decide) result

def second (result : Result) : Call noPreconditions ℕ := countingCall "second" (by decide) result

/-- A score that is a text. -/
def textScore : Result := scored (str "high") (by decide +kernel)

/-- A score that is the `float` one. -/
def floatScore : Result :=
  scored (.float (.finite false ⟨2 ^ 52, -52, by norm_num, by decide, .inl le_rfl⟩)) (by decide +kernel)

def sha (_ : List UInt8) : String := "digest"

/-- The workspace after the first call. -/
def counted (result : Result) : Database (Rows ℕ) :=
  after sha heldWorkspace ([] ++ Label.execute service (first result) :: [])

/-- What the first call answers, and the two texts of its result. -/
def answer (result : Result) : Option (Bool × Except DumpsError (List Char) × Except Raised (List Char)) :=
  (executeMutation sha (.idle heldWorkspace) service (first result)).2.toOption.map fun out =>
    (out.replayed, dumps out.result, canonicalize out.result (ofChars ['$']))

theorem exists_executes (result : Result)
    (texts : Except DumpsError (List Char) × Except Raised (List Char))
    (h : answer result = some (false, texts)) :
    ∃ out, Executes sha (.idle heldWorkspace) service (first result) out ∧
      dumps out.result = texts.1 ∧ canonicalize out.result (ofChars ['$']) = texts.2 := by
  obtain ⟨out, hout, heq⟩ := Option.map_eq_some_iff.1 h
  simp only [Prod.mk.injEq] at heq
  obtain ⟨hreplayed, rfl⟩ := heq
  refine ⟨out, ⟨?_, hreplayed⟩, rfl, rfl⟩
  change (executeMutation sha (.idle heldWorkspace) service (first result)).2 = .ok out
  cases hanswer : (executeMutation sha (.idle heldWorkspace) service (first result)).2 with
  | error refusal =>
    rw [hanswer] at hout
    cases hout
  | ok out' =>
    rw [hanswer] at hout
    cases hout
    rfl

theorem presents_second (value : Value) {result : Result} {later : Db (Rows ℕ)}
    (hlater : counted result = .idle later)
    (hfresh : ((counted result).durable.rows.seam.executions.all fun e => e.grantId ≠ "second") = true)
    (hheld : validate (counted result).durable service "w" 1 "on entry" = .ok () ∧
      validate (counted result).durable service "w" 1 "before commit" = .ok () ∧
      guardAdmits (counted result).durable = true) :
    Presents later service (second result) (countingGrant "second" (by decide)) none
      ⟨"p", some "w", "count", "key"⟩ "fingerprint" value := by
  rw [hlater] at hfresh hheld
  refine ⟨rfl, rfl, List.mem_cons_self, ?_, rfl, rfl, hheld.1, hheld.2.1, hheld.2.2, ?_, ?_⟩
  · intro e he
    exact of_decide_eq_true (List.all_eq_true.1 hfresh e he)
  · intro authority hauthority
    cases hauthority
  · intro text w _ _
    rfl

theorem recordable_second : Recordable (countingGrant "second" (by decide)) :=
  ⟨⟨"[\"write\"]".toList, by decide +kernel, by decide +kernel⟩,
    "[]".toList, by decide +kernel, by decide +kernel⟩

/-- A result that is a text is answered again. -/
theorem mutation_exactly_once_text :
    ∃ out out', Executes sha (.idle heldWorkspace) service
        (first textScore) out ∧
      Answers sha (counted textScore) service
        (second textScore) out' ∧
      out'.replayed = true ∧ denote out'.result = denote out.result := by
  obtain ⟨out, hexecutes, hdumps, hcanonical⟩ := exists_executes textScore
    (.ok "\x7b\"score\":\"high\"\x7d".toList, .ok "\x7b\"score\":\"high\"\x7d".toList)
    (by decide +kernel)
  obtain ⟨later, hlater, -⟩ := after_valid sha (show heldWorkspace.rows.seam = .empty from rfl)
    ([] ++ Label.execute service (first textScore) :: [])
  obtain ⟨out', hanswers, hreplayed, hdenote⟩ :=
    ((mutation_exactly_once heldWorkspace rfl).2.2.2.2 [] [] service service _ _ out later _ none
      hexecutes hlater (presents_second _ hlater (by decide +kernel) (by decide +kernel))).2
      ⟨⟨_, hdumps, hcanonical⟩, recordable_second⟩
  have hcounted : counted textScore = .idle later := hlater
  exact ⟨out, out', hexecutes, hcounted ▸ hanswers, hreplayed, hdenote⟩

/-- A result that is the `float` one is stored and never answered again. -/
theorem mutation_not_replayed :
    ∃ out later, Executes sha (.idle heldWorkspace) service
        (first floatScore) out ∧
      counted floatScore = .idle later ∧
      Presents later service (second floatScore)
        (countingGrant "second" (by decide)) none ⟨"p", some "w", "count", "key"⟩ "fingerprint"
        out.result ∧
      Recordable (countingGrant "second" (by decide)) ∧
      ¬∃ out', Answers sha (.idle later) service (second floatScore) out' ∧
        out'.replayed = true ∧ denote out'.result = denote out.result := by
  obtain ⟨out, hexecutes, hdumps, hcanonical⟩ := exists_executes floatScore
    (.ok "\x7b\"score\":1.0\x7d".toList, .ok "\x7b\"score\":1\x7d".toList) (by decide +kernel)
  obtain ⟨later, hlater, -⟩ := after_valid sha (show heldWorkspace.rows.seam = .empty from rfl)
    ([] ++ Label.execute service (first floatScore) :: [])
  have hpresents := fun value => presents_second value hlater (by decide +kernel)
    (by decide +kernel)
  refine ⟨out, later, hexecutes, hlater, hpresents _, recordable_second, ?_⟩
  rw [replayed_iff rfl hexecutes hlater (hpresents _)]
  rintro ⟨⟨text, htext, hcanonical'⟩, -⟩
  rw [hdumps] at htext
  cases htext
  rw [hcanonical] at hcanonical'
  revert hcanonical'
  decide +kernel

end OmniviaCore.Mutation
