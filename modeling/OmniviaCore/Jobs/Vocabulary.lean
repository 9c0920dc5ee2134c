import Mathlib

/-!
# The vocabulary of durable jobs

The wire patterns of `contracts/v1/generated.py` that the job contract reads, and the values that
satisfy them: an identifier as its column's `CHECK` admits it, the typed error of a failed attempt,
and the immutable descriptor of an import's staged source. Each carries the proof of its own form.
-/

namespace OmniviaCore.Jobs

/-! ## Patterns -/

/-- `[a-z0-9_]`. -/
def isWordChar (c : Char) : Bool := c.isLower || c.isDigit || c == '_'

/-- `[A-Za-z0-9._:-]`. -/
def isIdentifierChar (c : Char) : Bool :=
  c.isAlphanum || c == '.' || c == '_' || c == ':' || c == '-'

/-- `[!-~]`. -/
def isTokenChar (c : Char) : Bool := '!' ≤ c && c ≤ '~'

/-- `[A-Za-z0-9!#$&^_.+-]`. -/
def isMediaChar (c : Char) : Bool :=
  c.isAlphanum || c == '!' || c == '#' || c == '$' || c == '&' || c == '^' || c == '_' ||
    c == '.' || c == '+' || c == '-'

def openCodeRest : List Char → Bool
  | [] => true
  | '.' :: c :: rest => c.isLower && openCodeRest rest
  | c :: rest => isWordChar c && openCodeRest rest

/-- `OPEN_CODE_PATTERN`, bounded. The `GLOB`s of the `CHECK` constraints spell the same language. -/
def isOpenCode (text : String) : Bool :=
  text.length ≤ 128 &&
    match text.toList with
    | [] => false
    | c :: rest => c.isLower && openCodeRest rest

/-- `OPERATION_NAME_PATTERN`, bounded: an open code of at least two segments. -/
def isOperationName (text : String) : Bool := isOpenCode text && text.toList.contains '.'

/-- `IDENTIFIER_PATTERN`, bounded; `WORKSPACE_ID_PATTERN` is the same. -/
def isIdentifier (text : String) : Bool :=
  text.length ≤ 128 &&
    match text.toList with
    | [] => false
    | c :: rest => c.isAlphanum && rest.all isIdentifierChar

/-- `OPAQUE_TOKEN_PATTERN`, bounded. -/
def isOpaqueToken (text : String) : Bool :=
  text.length ≤ 512 && !text.toList.isEmpty && text.toList.all isTokenChar

/-- `CONTENT_CHECKSUM_PATTERN`. -/
def isContentChecksum (text : String) : Bool :=
  text.length = 71 && text.toList.take 7 = "sha256:".toList &&
    (text.toList.drop 7).all fun c => c.isDigit || ('a' ≤ c && c ≤ 'f')

/-- `MEDIA_TYPE_PATTERN`, bounded. -/
def isMediaType (text : String) : Bool :=
  let isPart : List Char → Bool
    | [] => false
    | c :: rest => c.isAlphanum && rest.all isMediaChar
  text.length ≤ 255 && isPart (text.toList.takeWhile (· != '/')) &&
    isPart ((text.toList.dropWhile (· != '/')).drop 1)

/-- `_validate_message`. -/
def isMessage (text : String) : Bool := text.length ≤ 2048

/-- The `CHECK` on `job_id`: the characters of an identifier, and `/`. -/
def isJobId (text : String) : Bool :=
  text.length ≤ 128 &&
    match text.toList with
    | [] => false
    | c :: rest => c.isAlphanum && rest.all fun c => isIdentifierChar c || c == '/'

/-! ## Values -/

/-- A `job_id` the schema admits. -/
structure JobId where
  text : String
  valid : isJobId text = true
  deriving DecidableEq

/-- An `audit_ref` the schema admits. -/
structure AuditRef where
  text : String
  valid : isIdentifier text = true

/-- A `workspace_id` the schema admits. -/
structure WorkspaceId where
  text : String
  valid : isIdentifier text = true

/-- `ApiError`, as the writers of a failed attempt build it: the codes of the frozen catalogue and a
bounded message. Its optional members are read by nothing here and left out. -/
structure ApiError where
  code : String
  message : String
  retryClass : String
  code_valid : isOpenCode code = true
  message_valid : isMessage message = true
  retryClass_valid : isOpenCode retryClass = true
  deriving DecidableEq

/-- `_RECOVERY_ERROR`. -/
def recoveryError : ApiError where
  code := "internal_recoverable"
  message := "the previous worker lost its fencing authority"
  retryClass := "retryable"
  code_valid := by decide
  message_valid := by decide
  retryClass_valid := by decide

/-- `ImportSourceDescriptor`, as `import.start` accepted it. -/
structure ImportSourceDescriptor where
  stagedSourceRef : String
  sourceKind : String
  contentChecksum : String
  contentLengthBytes : Nat
  mediaType : String
  sourceVersion : Option String
  ref_valid : isOpaqueToken stagedSourceRef = true
  kind_valid : isOpenCode sourceKind = true
  checksum_valid : isContentChecksum contentChecksum = true
  media_valid : isMediaType mediaType = true
  version_valid : sourceVersion.all isIdentifier = true
  deriving DecidableEq

theorem isTokenChar_of_isAlphanum {c : Char} (h : c.isAlphanum = true) : isTokenChar c = true := by
  simp only [Char.isAlphanum, Char.isAlpha, Char.isUpper, Char.isLower, Char.isDigit,
    Bool.or_eq_true, Bool.and_eq_true, decide_eq_true_eq] at h
  simp only [isTokenChar, Bool.and_eq_true, decide_eq_true_eq]
  constructor <;> rcases h with (h | h) | h <;>
    simp only [Char.le_def, UInt32.le_iff_toNat_le] at * <;> simp at * <;> omega

/-- A `job_id` of the schema is an opaque token of the contract. -/
theorem JobId.isOpaqueToken (id : JobId) : isOpaqueToken id.text = true := by
  have hvalid := id.valid
  unfold isJobId at hvalid
  unfold Jobs.isOpaqueToken
  cases hchars : id.text.toList with
  | nil => simp [hchars] at hvalid
  | cons c rest =>
    simp only [hchars, Bool.and_eq_true, decide_eq_true_eq, List.all_eq_true, Bool.or_eq_true,
      beq_iff_eq] at hvalid ⊢
    obtain ⟨hlength, hfirst, hrest⟩ := hvalid
    refine ⟨⟨by omega, by simp⟩, ?_⟩
    intro d hd
    rcases List.mem_cons.1 hd with rfl | hd
    · exact isTokenChar_of_isAlphanum hfirst
    · rcases hrest d hd with hd | rfl
      · simp only [isIdentifierChar, Bool.or_eq_true, beq_iff_eq] at hd
        rcases hd with (((hd | rfl) | rfl) | rfl) | rfl
        · exact isTokenChar_of_isAlphanum hd
        all_goals decide
      · decide

end OmniviaCore.Jobs
