import OmniviaCore.Mutation.Seam

/-!
# What a settlement leaves behind

`SeamRows.Valid` are the keys of the tables, and `Extends` says that no row is taken away; every
insertion does both (`Grows`). A settlement leaves a claim whose outcome stores the text of the result
it returned (`Answered`), which is served exactly when the canonicalizer writes the result as the wire
encoder does (`servedValue_iff`). `settle_ok` is all the transaction can do.
-/

namespace OmniviaCore.Mutation

open Lib CanonicalJson Ownership

variable {δ : Type} {policy : Policy} {sha256 : List UInt8 → String}

/-! ## Rows are kept -/

/-- The keys of the tables. -/
structure SeamRows.Valid (rows : SeamRows) : Prop where
  claimScopes : Unique Claim.scope rows.claims
  outcomeClaims : Unique Outcome.claimId rows.outcomes
  references : Unique (fun d : OutcomeDocument => (d.workspaceId, d.outcomeReference)) rows.documents

/-- Every row is still there. -/
structure Extends (rows rows' : SeamRows) : Prop where
  audits : rows.audits ⊆ rows'.audits
  claims : rows.claims ⊆ rows'.claims
  outcomes : rows.outcomes ⊆ rows'.outcomes
  documents : rows.documents ⊆ rows'.documents
  executions : rows.executions ⊆ rows'.executions

theorem Extends.refl (rows : SeamRows) : Extends rows rows :=
  ⟨fun _ h => h, fun _ h => h, fun _ h => h, fun _ h => h, fun _ h => h⟩

theorem Extends.trans {a b c : SeamRows} (h : Extends a b) (h' : Extends b c) : Extends a c :=
  ⟨fun _ hr => h'.audits (h.audits hr), fun _ hr => h'.claims (h.claims hr),
    fun _ hr => h'.outcomes (h.outcomes hr), fun _ hr => h'.documents (h.documents hr),
    fun _ hr => h'.executions (h.executions hr)⟩

/-- What an insertion does: no row is lost and the keys stay unique. -/
structure Grows (rows rows' : SeamRows) : Prop where
  extends_ : Extends rows rows'
  valid : rows.Valid → rows'.Valid

theorem Grows.refl (rows : SeamRows) : Grows rows rows := ⟨.refl rows, id⟩

theorem Grows.trans {a b c : SeamRows} (h : Grows a b) (h' : Grows b c) : Grows a c :=
  ⟨h.extends_.trans h'.extends_, h'.valid ∘ h.valid⟩

section Insert

variable {rows rows' : SeamRows}

theorem insertAudit_ok {audit : AuditEvent} (h : rows.insertAudit audit = .ok rows') :
    rows' = { rows with audits := rows.audits ++ [audit] } ∧ bounded audit.workspaceId = true ∧
      bounded audit.principalId = true ∧ bounded audit.operation = true ∧
      bounded audit.purpose = true ∧ bounded audit.auditRef = true := by
  simp only [SeamRows.insertAudit, bind_eq_ok, require_eq_ok, exists_unit, pure_eq_ok,
    Bool.and_eq_true] at h
  obtain ⟨-, h, rfl⟩ := h
  exact ⟨rfl, h.1.1.1.1.1.1.1.1.1.2, h.1.1.1.1.1.1.1.1.2, h.1.1.1.1.1.1.1.2, h.1.1.1.1.1.1.2,
    h.1.1.1.1.1.1.1.1.1.1⟩

theorem insertClaim_ok {claim : Claim} (h : rows.insertClaim claim = .ok rows') :
    rows' = { rows with claims := rows.claims ++ [claim] } ∧
      (∀ c ∈ rows.claims, c.scope ≠ claim.scope) ∧ bounded claim.claimId = true := by
  simp only [SeamRows.insertClaim, bind_eq_ok, require_eq_ok, exists_unit, pure_eq_ok,
    Bool.and_eq_true] at h
  obtain ⟨-, hscope, h, -, rfl⟩ := h
  exact ⟨rfl, hscope, h.1.1.1.1.1.1⟩

theorem insertDocument_ok {document : OutcomeDocument}
    (h : rows.insertDocument document = .ok rows') :
    rows' = { rows with documents := rows.documents ++ [document] } ∧
      ∀ d ∈ rows.documents, (d.workspaceId, d.outcomeReference) ≠
        (document.workspaceId, document.outcomeReference) := by
  simp only [SeamRows.insertDocument, bind_eq_ok, require_eq_ok, exists_unit, pure_eq_ok] at h
  obtain ⟨hreference, -, -, -, rfl⟩ := h
  exact ⟨rfl, hreference⟩

theorem insertOutcome_ok {outcome : Outcome} (h : rows.insertOutcome outcome = .ok rows') :
    rows' = { rows with outcomes := rows.outcomes ++ [outcome] } ∧
      ∀ o ∈ rows.outcomes, o.claimId ≠ outcome.claimId := by
  simp only [SeamRows.insertOutcome, bind_eq_ok, require_eq_ok, exists_unit, pure_eq_ok] at h
  obtain ⟨-, hclaim, -, -, -, -, -, rfl⟩ := h
  exact ⟨rfl, hclaim⟩

theorem insertExecution_ok {execution : Execution} (h : rows.insertExecution execution = .ok rows') :
    rows' = { rows with executions := rows.executions ++ [execution] } := by
  simp only [SeamRows.insertExecution, bind_eq_ok, require_eq_ok, exists_unit, pure_eq_ok] at h
  obtain ⟨-, -, -, -, -, -, rfl⟩ := h
  rfl

theorem insertAudit_grows {audit : AuditEvent} (h : rows.insertAudit audit = .ok rows') :
    Grows rows rows' := by
  obtain ⟨rfl, -⟩ := insertAudit_ok h
  exact ⟨{ Extends.refl rows with audits := List.subset_append_left _ _ },
    fun hv => ⟨hv.claimScopes, hv.outcomeClaims, hv.references⟩⟩

theorem insertClaim_grows {claim : Claim} (h : rows.insertClaim claim = .ok rows') :
    Grows rows rows' := by
  obtain ⟨rfl, hscope, -⟩ := insertClaim_ok h
  exact ⟨{ Extends.refl rows with claims := List.subset_append_left _ _ },
    fun hv => ⟨hv.claimScopes.concat hscope, hv.outcomeClaims, hv.references⟩⟩

theorem insertDocument_grows {document : OutcomeDocument}
    (h : rows.insertDocument document = .ok rows') : Grows rows rows' := by
  obtain ⟨rfl, hreference⟩ := insertDocument_ok h
  exact ⟨{ Extends.refl rows with documents := List.subset_append_left _ _ },
    fun hv => ⟨hv.claimScopes, hv.outcomeClaims, hv.references.concat hreference⟩⟩

theorem insertOutcome_grows {outcome : Outcome} (h : rows.insertOutcome outcome = .ok rows') :
    Grows rows rows' := by
  obtain ⟨rfl, hclaim⟩ := insertOutcome_ok h
  exact ⟨{ Extends.refl rows with outcomes := List.subset_append_left _ _ },
    fun hv => ⟨hv.claimScopes, hv.outcomeClaims.concat hclaim, hv.references⟩⟩

theorem insertExecution_grows {execution : Execution}
    (h : rows.insertExecution execution = .ok rows') : Grows rows rows' := by
  obtain rfl := insertExecution_ok h
  exact ⟨{ Extends.refl rows with executions := List.subset_append_left _ _ },
    fun hv => ⟨hv.claimScopes, hv.outcomeClaims, hv.references⟩⟩

theorem recordExecution_ok {grant : MutationGrant policy} {clock : Readings} {kind : ExecutionKind}
    {claimId auditRef : String}
    (h : recordExecution rows grant clock kind claimId auditRef = .ok rows') :
    Grows rows rows' ∧ ∃ e ∈ rows'.executions, e.grantId = grant.grantId := by
  simp only [recordExecution, bind_eq_ok, exists_unit] at h
  obtain ⟨scopes, -, capabilities, -, -, h⟩ := h
  refine ⟨insertExecution_grows h, ?_⟩
  obtain rfl := insertExecution_ok h
  exact ⟨_, List.mem_append_right _ (List.mem_singleton_self _), rfl⟩

end Insert

/-! ## An answered claim -/

/-- The outcome stores the text, in its own column or in its document. -/
def Stores (rows : SeamRows) (outcome : Outcome) (text : List Char) : Prop :=
  outcome.outcomeJson = some text ∨
  (outcome.outcomeJson = none ∧ ∃ d ∈ rows.documents,
    outcome.outcomeReference = some d.outcomeReference ∧ d.workspaceId = outcome.workspaceId ∧
    d.outcomeDigest = outcome.outcomeDigest ∧ d.claimId = outcome.claimId ∧
    d.auditRef = outcome.auditRef ∧ d.outcomeJson = text ∧ d.outcomeByteLength = byteLength text)

/-- What a settlement leaves behind. -/
structure Answered (sha256 : List UInt8 → String) (rows : SeamRows) (claim : Claim)
    (text : List Char) (purpose : String) : Prop where
  claim_mem : claim ∈ rows.claims
  outcome : ∃ o ∈ rows.outcomes, o.claimId = claim.claimId ∧ o.auditRef = claim.auditRef ∧
    o.outcomeDigest = digest sha256 text ∧ Stores rows o text
  audit : ∃ a ∈ rows.audits, a.auditRef = claim.auditRef ∧ a.workspaceId = claim.workspaceId ∧
    a.principalId = claim.principalId ∧ a.operation = claim.operation ∧ a.purpose = purpose
  bounded : bounded claim.workspaceId = true ∧ bounded claim.principalId = true ∧
    bounded claim.operation = true ∧ bounded purpose = true ∧ bounded claim.claimId = true ∧
    bounded claim.auditRef = true

section Answered

variable {rows rows' : SeamRows} {claim : Claim} {text : List Char} {purpose : String}

theorem Stores.extends {outcome : Outcome} (h : Stores rows outcome text) (hext : Extends rows rows') :
    Stores rows' outcome text := by
  rcases h with h | ⟨hnone, d, hd, h⟩
  · exact .inl h
  · exact .inr ⟨hnone, d, hext.documents hd, h⟩

theorem Answered.extends (h : Answered sha256 rows claim text purpose) (hext : Extends rows rows') :
    Answered sha256 rows' claim text purpose := by
  obtain ⟨o, ho, hid, haudit, hdigest, hstores⟩ := h.outcome
  obtain ⟨a, ha, h'⟩ := h.audit
  exact ⟨hext.claims h.claim_mem, ⟨o, hext.outcomes ho, hid, haudit, hdigest, hstores.extends hext⟩,
    ⟨a, hext.audits ha, h'⟩, h.bounded⟩

theorem storedText_eq {outcome : Outcome} (hvalid : rows.Valid) (h : Stores rows outcome text) :
    storedText rows outcome = .ok text := by
  unfold storedText
  rcases h with hjson | ⟨hjson, d, hd, hreference, hworkspace, hdigest, hclaim, haudit, rfl, hlength⟩
  · rw [hjson]
    rfl
  · rw [hjson, hreference]
    have hfind := hvalid.references.find? hd (k := (outcome.workspaceId, d.outcomeReference))
      (by rw [hworkspace])
    simp only [hfind]
    rw [require_pos ⟨hdigest, hclaim, haudit⟩, require_pos hlength.symm]
    rfl

/-- An answered claim is replayed from the text it stores. -/
theorem replay_eq (hvalid : rows.Valid) (h : Answered sha256 rows claim text purpose) :
    replay sha256 rows claim =
      (servedValue text).map fun value => ⟨value, true, claim.claimId, claim.auditRef⟩ := by
  obtain ⟨o, ho, hid, haudit, hdigest, hstores⟩ := h.outcome
  have hfind := hvalid.outcomeClaims.find? ho hid
  simp only [replay, hfind]
  rw [require_pos haudit, storedText_eq hvalid hstores, ok_bind, ok_bind, require_pos hdigest.symm,
    ok_bind, haudit]
  cases servedValue text <;> rfl

theorem findClaim_eq (hvalid : rows.Valid) (h : claim ∈ rows.claims) :
    findClaim rows claim.scope = some claim :=
  hvalid.claimScopes.find? h rfl

end Answered

/-! ## Whether the stored text is served -/

theorem isMapping_of_reordered {v w : Value} (h : Reordered v w) : isMapping v = isMapping w := by
  induction h with
  | refl => rfl
  | symm h ih => exact ih.symm
  | trans h h' ih ih' => exact ih.trans ih'
  | perm h => rfl
  | member before after key h ih => rfl
  | item before after h ih => rfl

theorem servedValue_eq_ok {text : List Char} {w : Value} :
    servedValue text = .ok w ↔
      loads text = .ok w ∧ canonicalize w (ofChars ['$']) = .ok text ∧ isMapping w = true := by
  unfold servedValue
  cases hloads : loads text with
  | error e => simp
  | ok decoded =>
    cases hcanonical : canonicalize decoded (ofChars ['$']) with
    | error e =>
      simp only [hcanonical, throw_ne_ok, false_iff, Except.ok.injEq]
      rintro ⟨rfl, h, -⟩
      rw [hcanonical] at h
      cases h
    | ok canonical =>
      simp only [hcanonical, bind_eq_ok, require_eq_ok, exists_unit, pure_eq_ok, Except.ok.injEq]
      constructor
      · rintro ⟨⟨rfl, hmapping⟩, rfl⟩
        exact ⟨rfl, hcanonical, hmapping⟩
      · rintro ⟨rfl, h, hmapping⟩
        rw [hcanonical] at h
        cases h
        exact ⟨⟨rfl, hmapping⟩, rfl⟩

/-- A stored result is served exactly when the canonicalizer writes it as the encoder did, and then it
is the same JSON value. -/
theorem servedValue_iff {value : Value} {text : List Char} (hdistinct : value.distinct = true)
    (hmapping : isMapping value = true) (htext : dumps value = .ok text) :
    (∃ w, servedValue text = .ok w) ↔ canonicalize value (ofChars ['$']) = .ok text := by
  obtain ⟨w, hloads, hreordered⟩ := loads_dumps hdistinct htext
  rw [hreordered.canonicalize_iff]
  constructor
  · rintro ⟨w', hserved⟩
    obtain ⟨hloads', hcanonical, -⟩ := servedValue_eq_ok.1 hserved
    rw [hloads] at hloads'
    cases hloads'
    exact hcanonical
  · intro hcanonical
    exact ⟨w, servedValue_eq_ok.2 ⟨hloads, hcanonical, (isMapping_of_reordered hreordered) ▸ hmapping⟩⟩

theorem denote_servedValue {value w : Value} {text : List Char} (hdistinct : value.distinct = true)
    (htext : dumps value = .ok text) (hserved : servedValue text = .ok w) :
    denote w = denote value := by
  obtain ⟨w', hloads, hreordered⟩ := loads_dumps hdistinct htext
  obtain ⟨hloads', hcanonical, -⟩ := servedValue_eq_ok.1 hserved
  rw [hloads] at hloads'
  cases hloads'
  exact (canonicalize_eq_iff hcanonical ((hreordered.canonicalize_iff _ _).2 hcanonical)).1 rfl

/-! ## What the transaction does -/

/-- What a settlement returned and left behind. -/
structure Settled (sha256 : List UInt8 → String) (call : Call policy δ)
    (grant : MutationGrant policy) (rows : SeamRows) (out : MutationOutcome) (claim : Claim)
    (text : List Char) : Prop where
  scope : claim.scope = grant.scope
  fingerprint : claim.requestDigest = call.equivalence.fingerprint
  answered : Answered sha256 rows claim text grant.purpose
  distinct : out.result.distinct = true
  mapping : isMapping out.result = true
  dumps : dumps out.result = .ok text
  claimId : out.claimId = claim.claimId
  auditRef : out.auditRef = claim.auditRef

section Settlement

variable {call : Call policy δ} {grant : MutationGrant policy} {version : Option String}
  {rows rows' : Rows δ} {out : MutationOutcome}

@[simp] theorem called_eq_ok {α : Type} {answer : Except String α} {a : α} :
    called answer = .ok a ↔ answer = .ok a :=
  mapError_eq_ok

@[simp] theorem unserved_eq_ok {α : Type} {served : Except Refusal α} {a : α} :
    unserved served = .ok a ↔ served = .ok a :=
  mapError_eq_ok

/-- The outcome of a settlement stores its text. -/
theorem insertSettled_ok {seam seam' : SeamRows} {settlement : MutationSettlementContext}
    {text : List Char}
    (h : insertSettled sha256 call seam grant settlement text = .ok seam') :
    Grows seam seam' ∧ ∃ o ∈ seam'.outcomes, o.claimId = settlement.claimId ∧
      o.auditRef = settlement.auditRef ∧ o.outcomeDigest = digest sha256 text ∧ Stores seam' o text := by
  unfold insertSettled at h
  dsimp only at h
  split at h
  next =>
    simp only [bind_eq_ok, called_eq_ok] at h
    obtain ⟨reference, -, seam₁, hdocument, houtcome⟩ := h
    refine ⟨(insertDocument_grows hdocument).trans (insertOutcome_grows houtcome), ?_⟩
    obtain ⟨rfl, -⟩ := insertDocument_ok hdocument
    obtain ⟨rfl, -⟩ := insertOutcome_ok houtcome
    refine ⟨_, List.mem_append_right _ (List.mem_singleton_self _), rfl, rfl, rfl, .inr ⟨rfl, ?_⟩⟩
    exact ⟨_, List.mem_append_right _ (List.mem_singleton_self _), rfl, rfl, rfl, rfl, rfl, rfl, rfl⟩
  next =>
    refine ⟨insertOutcome_grows h, ?_⟩
    obtain ⟨rfl, -⟩ := insertOutcome_ok h
    exact ⟨_, List.mem_append_right _ (List.mem_singleton_self _), rfl, rfl, rfl, .inl rfl⟩

theorem settleFresh_ok (h : settleFresh sha256 call grant version rows = .ok (rows', out)) :
    out.replayed = false ∧ Grows rows.seam rows'.seam ∧
      (∃ e ∈ rows'.seam.executions, e.grantId = grant.grantId) ∧
      ∃ claim text, Settled sha256 call grant rows'.seam out claim text := by
  simp only [settleFresh, bind_eq_ok, called_eq_ok, mapError_eq_ok, require_eq_ok, exists_unit,
    pure_eq_ok, Prod.mk.injEq, Prod.exists] at h
  obtain ⟨-, -, auditRef, -, claimId, -, outcomeId, -, authority, -, -, seam₁, haudit, seam₂, hclaim,
    domain, result, -, valid, -, -, text, htext, seam₃, hsettled, seam₄, hexecution, -, rfl, rfl⟩ := h
  have hgrows₁ := insertAudit_grows haudit
  have hgrows₂ := insertClaim_grows hclaim
  obtain ⟨hgrows₃, houtcome⟩ := insertSettled_ok hsettled
  obtain ⟨hgrows₄, hspent⟩ := recordExecution_ok hexecution
  have hlast := hgrows₃.trans hgrows₄
  refine ⟨rfl, hgrows₁.trans (hgrows₂.trans hlast), hspent, ?_⟩
  obtain ⟨rfl, hworkspace, hprincipal, hoperation, hpurpose, hauditRef⟩ := insertAudit_ok haudit
  obtain ⟨rfl, -, hclaimId⟩ := insertClaim_ok hclaim
  obtain ⟨o, ho, hid, href, hdigest, hstores⟩ := houtcome
  let claim : Claim := ⟨claimId, grant.workspaceId, grant.principalId, grant.operation,
    grant.idempotencyKey, call.equivalence.fingerprint, auditRef, call.clock.settledAtUs⟩
  refine ⟨claim, text, rfl, rfl, ⟨?_, ?_, ?_, ?_⟩, result.distinct, rfl, htext, rfl, rfl⟩
  · exact hlast.extends_.claims (List.mem_append_right _ (List.mem_singleton_self _))
  · exact ⟨o, hgrows₄.extends_.outcomes ho, hid, href, hdigest, hstores.extends hgrows₄.extends_⟩
  · exact ⟨_, hlast.extends_.audits (List.mem_append_right _ (List.mem_singleton_self _)), rfl, rfl, rfl,
      rfl, rfl⟩
  · exact ⟨hworkspace, hprincipal, hoperation, hpurpose, hclaimId, hauditRef⟩

theorem serveReplay_ok {claim : Claim}
    (h : serveReplay sha256 call grant rows claim = .ok (rows', out)) :
    rows'.domain = rows.domain ∧ Grows rows.seam rows'.seam ∧
      (∃ e ∈ rows'.seam.executions, e.grantId = grant.grantId) ∧
      replay sha256 rows.seam claim = .ok out := by
  simp only [serveReplay, bind_eq_ok, called_eq_ok, require_eq_ok, exists_unit, pure_eq_ok,
    Prod.mk.injEq] at h
  obtain ⟨-, replayed, hreplay, valid, -, -, -, seam, hexecution, -, rfl, rfl⟩ := h
  obtain ⟨hgrows, hspent⟩ := recordExecution_ok hexecution
  exact ⟨rfl, hgrows, hspent, hreplay⟩

theorem replay_replayed {seam : SeamRows} {claim : Claim}
    (h : replay sha256 seam claim = .ok out) : out.replayed = true := by
  unfold replay at h
  split at h
  · cases h
  · simp only [bind_eq_ok, require_eq_ok, exists_unit, pure_eq_ok] at h
    obtain ⟨-, -, -, -, -, -, rfl⟩ := h
    rfl

theorem settle_ok (h : settle sha256 call grant version rows = .ok (rows', out)) :
    (∀ e ∈ rows.seam.executions, e.grantId ≠ grant.grantId) ∧ Grows rows.seam rows'.seam ∧
      (∃ e ∈ rows'.seam.executions, e.grantId = grant.grantId) ∧
      ((out.replayed = true ∧ rows'.domain = rows.domain) ∨
        (out.replayed = false ∧ findClaim rows.seam grant.scope = none ∧
          ∃ claim text, Settled sha256 call grant rows'.seam out claim text)) := by
  simp only [settle, bind_eq_ok, require_eq_ok, exists_unit] at h
  obtain ⟨hfresh, h⟩ := h
  refine ⟨hfresh, ?_⟩
  split at h
  next hnone =>
    obtain ⟨hreplayed, hgrows, hspent, hsettled⟩ := settleFresh_ok h
    exact ⟨hgrows, hspent, .inr ⟨hreplayed, hnone, hsettled⟩⟩
  next claim hclaim =>
    simp only [bind_eq_ok, require_eq_ok, exists_unit, unserved_eq_ok] at h
    obtain ⟨hdomain, hgrows, hspent, hreplay⟩ := serveReplay_ok h.2
    exact ⟨hgrows, hspent, .inl ⟨replay_replayed hreplay, hdomain⟩⟩

end Settlement

end OmniviaCore.Mutation
