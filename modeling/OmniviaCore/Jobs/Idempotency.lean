import OmniviaCore.Jobs.Contract
import OmniviaCore.CanonicalJson.Documents
import OmniviaCore.Lib.Digest
import OmniviaCore.Lib.SortBy

/-!
# Idempotency equivalence

`idempotency_equivalence` and `classify_idempotent_replay` of `contracts/v1/semantics_jobs.py`. The
fingerprint is the digest of a canonical document: the operation, its input, the purpose, and the scopes
and capability requirements as sorted sets. Two fingerprints are equal exactly when the documents say
the same.
-/

namespace OmniviaCore.Jobs

open Lib CanonicalJson

/-! ## Requests -/

/-- `CapabilityRequirement`. -/
structure CapabilityRequirement where
  id : String
  minimumVersion : String
  required : Bool
  deriving DecidableEq

/-- `RequestMetadata`: what the equivalence reads, and the identifiers of the attempt. -/
structure RequestMetadata where
  requestId : String
  correlationId : String
  traceId : String
  deadlineMs : Option Int
  scopes : List String
  purpose : String
  requiredCapabilities : List CapabilityRequirement
  idempotencyKey : Option String

/-- `IdempotencyScope`. -/
structure IdempotencyScope where
  principalId : String
  workspaceId : Option String
  operation : String
  idempotencyKey : String
  deriving DecidableEq

/-- `IdempotencyEquivalence`. -/
structure IdempotencyEquivalence where
  scope : IdempotencyScope
  fingerprint : String
  deriving DecidableEq

/-- `IDEMPOTENCY_REPLAY`, `IDEMPOTENCY_CONFLICT` and `IDEMPOTENCY_DISTINCT`. -/
inductive ReplayClass where
  | replay
  | conflict
  | distinct
  deriving DecidableEq

def SCOPES_MAX_ITEMS : Nat := 64

def REQUIRED_CAPABILITIES_MAX_ITEMS : Nat := 64

def scopeRest : List Char → Bool
  | [] => true
  | '.' :: c :: rest => c.isLower && scopeRest rest
  | ':' :: c :: rest => c.isLower && scopeRest rest
  | c :: rest => isWordChar c && scopeRest rest

/-- `SCOPE_PATTERN`, bounded. -/
def isScope (text : String) : Bool :=
  text.length ≤ 128 &&
    match text.toList with
    | [] => false
    | c :: rest => c.isLower && scopeRest rest

/-! ## The equivalence -/

/-- `_normalized_scopes`: a set, sorted. -/
def normalizedScopes (scopes : List String) : Except ContractSemanticError (List String) := do
  require (scopes.length ≤ SCOPES_MAX_ITEMS) .tooManyScopes
  require (∀ scope ∈ scopes, isScope scope = true) .scope
  pure (sortBy id scopes.dedup)

/-- The order of the tuples of `_normalized_capabilities`. -/
def CapabilityRequirement.key (requirement : CapabilityRequirement) : String ×ₗ String ×ₗ Bool :=
  toLex (requirement.id, toLex (requirement.minimumVersion, requirement.required))

/-- `_normalized_capabilities`: a set of tuples, sorted. -/
def normalizedCapabilities (requirements : List CapabilityRequirement) :
    Except ContractSemanticError (List CapabilityRequirement) := do
  require (requirements.length ≤ REQUIRED_CAPABILITIES_MAX_ITEMS) .tooManyCapabilities
  pure (sortBy CapabilityRequirement.key requirements.dedup)

def CapabilityRequirement.document (requirement : CapabilityRequirement) : Value :=
  .sequence [textValue requirement.id, textValue requirement.minimumVersion, .bool requirement.required]

/-- The members of the `document` of `idempotency_equivalence`. -/
def equivalenceMembers (operation : String) (operationInput : Value) (purpose : String)
    (scopes : List String) (requirements : List CapabilityRequirement) : List (String × Value) :=
  [("operation", textValue operation),
    ("operation_input", operationInput),
    ("purpose", textValue purpose),
    ("scopes", .sequence (scopes.map textValue)),
    ("required_capabilities", .sequence (requirements.map CapabilityRequirement.document))]

/-- `idempotency_equivalence`, with SHA-256 of some bytes in hexadecimal. -/
def idempotencyEquivalence (sha256 : List UInt8 → String) (operation : String)
    (metadata : RequestMetadata) (operationInput : Value) (principalId : String)
    (workspaceId : Option String) : Except ContractSemanticError IdempotencyEquivalence := do
  require (isOperationName operation = true) .operationName
  match metadata.idempotencyKey with
  | none => throw .idempotencyKeyMissing
  | some idempotencyKey => do
    require (isIdentifier idempotencyKey = true) .identifier
    require (isIdentifier principalId = true) .identifier
    require (workspaceId.all isIdentifier = true) .workspaceId
    require (isOpenCode metadata.purpose = true) .purpose
    let scopes ← normalizedScopes metadata.scopes
    let requirements ← normalizedCapabilities metadata.requiredCapabilities
    let payload ← (canonicalBytes (mappingOf (equivalenceMembers operation operationInput
      metadata.purpose scopes requirements)) (ofChars ['$'])).mapError fun _ => .notCanonical
    pure ⟨⟨principalId, workspaceId, operation, idempotencyKey⟩, "sha256:" ++ sha256 payload⟩

/-- `classify_idempotent_replay`. -/
def classifyIdempotentReplay (first second : IdempotencyEquivalence) : ReplayClass :=
  if first.scope ≠ second.scope then .distinct
  else if first.fingerprint = second.fingerprint then .replay
  else .conflict

/-! ## Sorted sets -/

theorem sortBy_dedup_eq_iff {α κ : Type} [DecidableEq α] [LinearOrder κ] {key : α → κ}
    (hkey : Function.Injective key) {l m : List α} :
    sortBy key l.dedup = sortBy key m.dedup ↔ ∀ a, a ∈ l ↔ a ∈ m := by
  rw [sortBy_eq_iff_perm fun _ _ _ _ h => hkey h,
    List.perm_ext_iff_of_nodup (List.nodup_dedup l) (List.nodup_dedup m)]
  simp only [List.mem_dedup]

theorem CapabilityRequirement.key_injective : Function.Injective CapabilityRequirement.key := by
  rintro ⟨id, version, required⟩ ⟨id', version', required'⟩ h
  have hpair := congrArg ofLex h
  simp only [key, ofLex_toLex, Prod.mk.injEq, EmbeddingLike.apply_eq_iff_eq] at hpair
  obtain ⟨rfl, rfl, rfl⟩ := hpair
  rfl

/-! ## What a document says -/

theorem denote_requirement_injective :
    Function.Injective fun requirement => denote (CapabilityRequirement.document requirement) := by
  rintro ⟨id, version, required⟩ ⟨id', version', required'⟩ h
  simp only [CapabilityRequirement.document, denote, denoteItems, IJson.array.injEq, List.cons.injEq,
    and_true, IJson.bool.injEq] at h
  obtain ⟨hid, hversion, rfl⟩ := h
  rw [denote_textValue] at hid hversion
  rw [hid, hversion]

theorem denote_equivalence_eq_iff {operation operation' purpose purpose' : String}
    {input input' : Value} {scopes scopes' : List String}
    {requirements requirements' : List CapabilityRequirement} :
    denote (mappingOf (equivalenceMembers operation input purpose scopes requirements)) =
        denote (mappingOf (equivalenceMembers operation' input' purpose' scopes' requirements')) ↔
      operation = operation' ∧ denote input = denote input' ∧ purpose = purpose' ∧ scopes = scopes' ∧
        requirements = requirements' := by
  rw [denote_mappingOf_eq_iff]
  constructor
  · intro h
    have hoperation := h "operation"
    have hinput := h "operation_input"
    have hpurpose := h "purpose"
    have hscopes := h "scopes"
    have hrequirements := h "required_capabilities"
    simp only [equivalenceMembers, List.lookup_cons, String.reduceBEq, beq_self_eq_true,
      Option.map_some, Option.some.injEq] at hoperation hinput hpurpose hscopes hrequirements
    exact ⟨denote_textValue.1 hoperation, hinput, denote_textValue.1 hpurpose,
      (denote_sequence_eq_iff fun _ _ => denote_textValue.1).1 hscopes,
      (denote_sequence_eq_iff denote_requirement_injective).1 hrequirements⟩
  · rintro ⟨rfl, hinput, rfl, rfl, rfl⟩ name
    simp only [equivalenceMembers, List.lookup_cons]
    cases name == "operation" with
    | true => rfl
    | false =>
      cases name == "operation_input" with
      | true => simp only [Option.map_some, hinput]
      | false => rfl

/-! ## Fingerprints -/

/-- The request an equivalence was computed of. -/
structure Request where
  operation : String
  metadata : RequestMetadata
  operationInput : Value
  principalId : String
  workspaceId : Option String

variable {sha256 : List UInt8 → String}

def Request.equivalence (sha256 : List UInt8 → String) (request : Request) :
    Except ContractSemanticError IdempotencyEquivalence :=
  idempotencyEquivalence sha256 request.operation request.metadata request.operationInput
    request.principalId request.workspaceId

/-- The document of a request whose equivalence was computed, and what the equivalence is. -/
theorem Request.equivalence_eq_ok {request : Request} {equivalence : IdempotencyEquivalence}
    (h : request.equivalence sha256 = .ok equivalence) :
    (∃ payload, canonicalBytes (mappingOf (equivalenceMembers request.operation
        request.operationInput request.metadata.purpose (sortBy id request.metadata.scopes.dedup)
        (sortBy CapabilityRequirement.key request.metadata.requiredCapabilities.dedup)))
          (ofChars ['$']) = .ok payload ∧ equivalence.fingerprint = "sha256:" ++ sha256 payload) ∧
    ∃ idempotencyKey, request.metadata.idempotencyKey = some idempotencyKey ∧
      equivalence.scope = ⟨request.principalId, request.workspaceId, request.operation, idempotencyKey⟩ := by
  rw [Request.equivalence, idempotencyEquivalence] at h
  split at h
  · simp only [bind_eq_ok, throw_ne_ok, and_false, exists_false] at h
  · next idempotencyKey hkey =>
    simp only [bind_eq_ok, exists_unit, require_eq_ok, normalizedScopes, normalizedCapabilities,
      pure_eq_ok, mapError_eq_ok] at h
    obtain ⟨-, -, -, -, -, _, ⟨-, -, rfl⟩, _, ⟨-, rfl⟩, payload, hpayload, rfl⟩ := h
    exact ⟨⟨payload, hpayload, rfl⟩, idempotencyKey, hkey, rfl⟩

/-- Requests that ask for the same: the operation, what its input stands for, the purpose, and the
scopes and capability requirements as sets. -/
def Request.Same (first second : Request) : Prop :=
  first.operation = second.operation ∧ denote first.operationInput = denote second.operationInput ∧
    first.metadata.purpose = second.metadata.purpose ∧
    (∀ scope, scope ∈ first.metadata.scopes ↔ scope ∈ second.metadata.scopes) ∧
    ∀ requirement, requirement ∈ first.metadata.requiredCapabilities ↔
      requirement ∈ second.metadata.requiredCapabilities

theorem Request.fingerprint_eq_iff (injective : Function.Injective sha256) {first second : Request}
    {x y : IdempotencyEquivalence} (hx : first.equivalence sha256 = .ok x)
    (hy : second.equivalence sha256 = .ok y) : x.fingerprint = y.fingerprint ↔ first.Same second := by
  obtain ⟨⟨p, hp, hx⟩, -⟩ := Request.equivalence_eq_ok hx
  obtain ⟨⟨q, hq, hy⟩, -⟩ := Request.equivalence_eq_ok hy
  have hdigest : x.fingerprint = y.fingerprint ↔ p = q := by
    rw [hx, hy]
    constructor
    · intro h
      have hchars := congrArg String.toList h
      simp only [String.toList_append, List.append_cancel_left_eq] at hchars
      exact injective (String.toList_injective hchars)
    · rintro rfl
      rfl
  rw [hdigest, canonicalBytes_eq_iff hp hq, denote_equivalence_eq_iff,
    sortBy_dedup_eq_iff Function.injective_id, sortBy_dedup_eq_iff CapabilityRequirement.key_injective]
  rfl

/-- The order of the members of the input, at any depth, is nothing the equivalence sees. -/
theorem Request.equivalence_reordered {request : Request} {input : Value}
    (h : Reordered request.operationInput input) (x : IdempotencyEquivalence) :
    request.equivalence sha256 = .ok x ↔
      Request.equivalence sha256 { request with operationInput := input } = .ok x := by
  have hbytes : ∀ scopes requirements payload,
      canonicalBytes (mappingOf (equivalenceMembers request.operation request.operationInput
        request.metadata.purpose scopes requirements)) (ofChars ['$']) = .ok payload ↔
      canonicalBytes (mappingOf (equivalenceMembers request.operation input request.metadata.purpose
        scopes requirements)) (ofChars ['$']) = .ok payload := by
    intro scopes requirements payload
    have hdocument : Reordered
        (mappingOf (equivalenceMembers request.operation request.operationInput
          request.metadata.purpose scopes requirements))
        (mappingOf (equivalenceMembers request.operation input request.metadata.purpose scopes
          requirements)) := Reordered.member [_] [_, _, _] _ h
    simp only [canonicalBytes, bind_eq_ok, hdocument.canonicalize_iff]
  simp only [Request.equivalence, idempotencyEquivalence]
  cases request.metadata.idempotencyKey with
  | none => exact Iff.rfl
  | some key => simp only [bind_eq_ok, mapError_eq_ok, hbytes]

/-- Fingerprints are equal exactly for requests that ask for the same. Neither the identifiers of an
attempt nor the order of object members is in them, and a repeat is classified by its key and its
fingerprint. -/
theorem idempotency_is_semantic (injective : Function.Injective sha256) :
    (∀ (first second : Request) x y, first.equivalence sha256 = .ok x →
      second.equivalence sha256 = .ok y →
      (x.fingerprint = y.fingerprint ↔ first.Same second) ∧
      (classifyIdempotentReplay x y = .replay ↔
        x.scope = y.scope ∧ x.fingerprint = y.fingerprint) ∧
      (classifyIdempotentReplay x y = .conflict ↔
        x.scope = y.scope ∧ x.fingerprint ≠ y.fingerprint) ∧
      (classifyIdempotentReplay x y = .distinct ↔ x.scope ≠ y.scope)) ∧
    (∀ (request : Request) requestId correlationId traceId deadlineMs,
      Request.equivalence sha256 { request with metadata := { request.metadata with
        requestId, correlationId, traceId, deadlineMs } } = request.equivalence sha256) ∧
    ∀ (request : Request) input, Reordered request.operationInput input → ∀ x,
      request.equivalence sha256 = .ok x ↔
        Request.equivalence sha256 { request with operationInput := input } = .ok x := by
  refine ⟨fun first second x y hx hy => ⟨Request.fingerprint_eq_iff injective hx hy, ?_, ?_, ?_⟩,
    fun _ _ _ _ _ => rfl, fun _ _ h x => Request.equivalence_reordered h x⟩
  · unfold classifyIdempotentReplay
    by_cases hscope : x.scope = y.scope <;> by_cases hprint : x.fingerprint = y.fingerprint <;>
      simp [hscope, hprint]
  · unfold classifyIdempotentReplay
    by_cases hscope : x.scope = y.scope <;> by_cases hprint : x.fingerprint = y.fingerprint <;>
      simp [hscope, hprint]
  · unfold classifyIdempotentReplay
    by_cases hscope : x.scope = y.scope <;> by_cases hprint : x.fingerprint = y.fingerprint <;>
      simp [hscope, hprint]

/-! ### A repeat -/

/-- SHA-256 of the document of the repeat below, and a spelling of everything else. -/
def repeatDigest : List UInt8 → String :=
  spelledDigest
    (("\x7b\"operation\":\"import.start\",\"operation_input\":\x7b\"a\":1\x7d,".toList ++
      "\"purpose\":\"import\",\"required_capabilities\":[],".toList ++
      "\"scopes\":[\"read\",\"write\"]\x7d".toList).flatMap String.utf8EncodeChar)
    "d3898a7f6322b0aab8027847067354123d8793bf2020aea559338bc06915ba75"

def importRequest (requestId : String) (scopes : List String) : Request where
  operation := "import.start"
  metadata := ⟨requestId, "c", "t", none, scopes, "import", [], some "key"⟩
  operationInput := mappingOf [("a", .int 1)]
  principalId := "owner"
  workspaceId := none

def importEquivalence : IdempotencyEquivalence where
  scope := ⟨"owner", none, "import.start", "key"⟩
  fingerprint := "sha256:d3898a7f6322b0aab8027847067354123d8793bf2020aea559338bc06915ba75"

theorem idempotency_is_semantic_repeat :
    (importRequest "1" ["read", "write"]).equivalence repeatDigest = .ok importEquivalence ∧
      (importRequest "2" ["write", "read", "write"]).equivalence repeatDigest = .ok importEquivalence ∧
      (importEquivalence.fingerprint = importEquivalence.fingerprint ↔
        (importRequest "1" ["read", "write"]).Same (importRequest "2" ["write", "read", "write"])) := by
  have hfirst : (importRequest "1" ["read", "write"]).equivalence repeatDigest =
    .ok importEquivalence := by decide +kernel
  have hsecond : (importRequest "2" ["write", "read", "write"]).equivalence repeatDigest =
    .ok importEquivalence := by decide +kernel
  exact ⟨hfirst, hsecond, ((idempotency_is_semantic (spelledDigest_injective (by decide))).1 _ _ _ _
    hfirst hsecond).1⟩

end OmniviaCore.Jobs
