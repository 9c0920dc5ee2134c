import OmniviaCore.CanonicalJson.Reread
import OmniviaCore.Connector.Batches
import OmniviaCore.Framing.Frames
import OmniviaCore.Jobs.Vocabulary
import OmniviaCore.Lib.Timestamp

/-!
# Which channel documents are believed

`update_trust.py`: the bytes of a channel document are parsed, required to be the canonical form of what
they parse to, and judged as a signed envelope, or as the unsigned document that preceded it under a policy
that asks for it. Ed25519 is a parameter, and so is whether its library can be imported.
-/

namespace OmniviaCore.Client.UpdateTrust

open CanonicalJson Connector Jobs Lib

abbrev Text := List Char

def ENVELOPE_SCHEMA_VERSION : Text := "omnivia-core-update.v2".toList

def LEGACY_SCHEMA_VERSION : Text := "omnivia-core-update.v1".toList

def SIGNATURE_DOMAIN : Text := "omnivia.update-channel.v2".toList

def SIGNATURE_ALGORITHM : Text := "ed25519".toList

def MAX_SEQUENCE : ℤ := 9007199254740991

def ENVELOPE_MEMBERS : List Text :=
  ["schema_version", "product_id", "channel", "sequence", "issued_at", "not_before", "not_after", "release",
    "signing", "signature"].map String.toList

def SIGNING_MEMBERS : List Text := ["key_id", "algorithm"].map String.toList

def LEGACY_MEMBERS : List Text := ["schema_version", "channel", "release"].map String.toList

/-- The codes of `EnvelopeRefused`. -/
inductive Refusal where
  | malformed
  | duplicateMember
  | noncanonical
  | unsigned
  | unsupportedVersion
  | wrongProduct
  | wrongChannel
  | badSignature
  | verifierUnavailable
  | untrustedKey
  | outsideValidity
  | replayed
  | downgrade
  deriving DecidableEq

/-- How an admission fails: `EnvelopeRefused`, or the `ValueError` of a number with too many digits. -/
inductive Failure where
  | refused (refusal : Refusal)
  | valueError

/-! ## Grammars -/

/-- `_INSTANT_RE`. -/
def isInstant (text : Text) : Bool :=
  followsTemplate "0000-00-00T00:00:00Z".toList text &&
    (let field (start : ℕ) := digitsValue ((text.drop start).take 2)
     1 ≤ field 5 && field 5 ≤ 12 && 1 ≤ field 8 && field 8 ≤ 31 && field 11 ≤ 23 && field 14 ≤ 59 &&
       field 17 ≤ 59)

/-- `[a-z0-9][a-z0-9-]*`, bounded: `_PRODUCT_ID_RE` and `_CHANNEL_RE`. -/
def isSlug (bound : ℕ) (text : Text) : Bool :=
  text.length ≤ bound &&
    match text with
    | [] => false
    | c :: rest => (c.isLower || c.isDigit) && rest.all fun d => d.isLower || d.isDigit || d == '-'

def isProductId : Text → Bool := isSlug 64

def isChannel : Text → Bool := isSlug 32

/-- `_KEY_ID_RE`. -/
def isKeyId (text : Text) : Bool := isIdentifier (String.ofList text)

/-- A decimal numeral without a leading zero. -/
def isNumeral : Text → Bool
  | [] => false
  | ['0'] => true
  | c :: rest => c.isDigit && c != '0' && rest.all Char.isDigit

def numeralValue (part : Text) : ℕ := Nat.ofDigitChars 10 part 0

/-- `int` of each part; one with too many digits raises `ValueError`. -/
def keyOfParts (parts : List Text) : Except Failure (List ℕ) := do
  require (∀ part ∈ parts, part.length ≤ MAX_STR_DIGITS) .valueError
  pure (parts.map numeralValue)

/-- `_version_key`: none for what is no dotted-integer version. -/
def versionKey (text : Text) : Except Failure (Option (List ℕ)) :=
  let parts := text.splitOn '.'
  if parts.all isNumeral then some <$> keyOfParts parts else pure none

/-! ## Policies -/

/-- `TrustedUpdateKey`, with what its constructor checks. -/
structure TrustedUpdateKey where
  keyId : Text
  publicKey : Bytes
  notBefore : Text
  notAfter : Text
  retiredAt : Option Text
  keyId_valid : isKeyId keyId = true
  publicKey_length : publicKey.length = 32
  notBefore_valid : isInstant notBefore = true
  notAfter_valid : isInstant notAfter = true
  retiredAt_valid : ∀ moment ∈ retiredAt, isInstant moment = true
  notBefore_lt : notBefore < notAfter

/-- `usable_at`. -/
def TrustedUpdateKey.usableAt (key : TrustedUpdateKey) (moment : Text) : Bool :=
  decide (key.notBefore ≤ moment) && decide (moment < key.notAfter) &&
    key.retiredAt.all fun retired => decide (moment < retired)

/-- `UpdateTrustPolicy`, with what its constructor checks. -/
structure UpdateTrustPolicy where
  trustedKeys : List TrustedUpdateKey
  expectedProductId : Text
  expectedChannel : Text
  acceptUnsignedV1 : Bool
  minimumSequence : Option ℤ
  versionFloor : List (Text × Text)
  productId_valid : isProductId expectedProductId = true
  channel_valid : isChannel expectedChannel = true
  keyIds_nodup : (trustedKeys.map (·.keyId)).Nodup

/-- `AdmittedChannel`. -/
structure AdmittedChannel where
  schemaVersion : Text
  channel : Text
  productId : Text
  release : Option (List (Key × Value))
  sequence : Option ℤ
  keyId : Option Text
  signed : Bool

/-! ## Documents -/

def refuse {α : Type} (refusal : Refusal) : Except Failure α := throw (.refused refusal)

/-- A value, or the refusal in its absence. -/
def orRefuse {α : Type} (value : Option α) (refusal : Refusal) : Except Failure α :=
  match value with
  | some a => pure a
  | none => refuse refusal

/-- The text of a `str`. One with a lone surrogate has no canonical form and does not get here. -/
def textOf : Value → Option Text
  | .str s => toChars s
  | _ => none

def textMember (document : List (Key × Value)) (name : String) (check : Text → Bool) : Option Text :=
  ((lookup document name.toList).bind textOf).filter check

/-- `parse_json_document` of bytes. -/
def parseJsonDocument (raw : Bytes) : Except Failure Value :=
  match Framing.decodeUtf8 raw with
  | .error _ => refuse .malformed
  | .ok text =>
    match loads text with
    | .ok value => pure value
    | .error .duplicateName => refuse .duplicateMember
    | .error _ => refuse .malformed

/-- `canonical_bytes`, its error as a refusal. -/
def canonicalOrRefuse (value : Value) : Except Failure Bytes :=
  match canonicalBytes value (ofChars ['$']) with
  | .ok bytes => pure bytes
  | .error (.contract _) => refuse .malformed
  | .error .valueError => throw .valueError

/-- `text.removesuffix(b"\n")`. -/
def removeNewline (raw : Bytes) : Bytes := if raw.getLast? = some 10 then raw.dropLast else raw

/-- `_parsed_and_canonical`. -/
def parsedAndCanonical (raw : Bytes) : Except Failure (List (Key × Value)) := do
  match ← parseJsonDocument raw with
  | .mapping document => do
    let canonical ← canonicalOrRefuse (.mapping document)
    require (removeNewline raw = canonical) (.refused .noncanonical)
    pure document
  | _ => refuse .malformed

def base64Value (c : Char) : Option ℕ :=
  if c.isUpper then some (c.toNat - 'A'.toNat)
  else if c.isLower then some (c.toNat - 'a'.toNat + 26)
  else if c.isDigit then some (c.toNat - '0'.toNat + 52)
  else if c = '-' then some 62
  else if c = '_' then some 63
  else none

/-- `urlsafe_b64decode` of unpadded sextets, the unused bits dropped. -/
def bytesOfSextets : List ℕ → Bytes
  | a :: b :: c :: d :: rest =>
    let n := ((a * 64 + b) * 64 + c) * 64 + d
    UInt8.ofNat (n / 65536) :: UInt8.ofNat (n / 256 % 256) :: UInt8.ofNat (n % 256) :: bytesOfSextets rest
  | [a, b, c] =>
    let n := (a * 64 + b) * 64 + c
    [UInt8.ofNat (n / 1024), UInt8.ofNat (n / 4 % 256)]
  | [a, b] => [UInt8.ofNat ((a * 64 + b) / 16)]
  | _ => []

/-- The unpadded base64url text of some bytes. -/
def base64Url (bytes : Bytes) : Text :=
  (((base64Encode 45 95 bytes).reverse.dropWhile (· = 61)).reverse).map fun b => Char.ofNat b.toNat

/-- `decode_base64url`. -/
def decodeBase64Url (text : Text) (expectedBytes : ℕ) : Option Bytes := do
  let sextets ← text.mapM base64Value
  let decoded := bytesOfSextets sextets
  if text.length = (expectedBytes * 4 + 2) / 3 ∧ decoded.length = expectedBytes ∧
      base64Url decoded = text then some decoded
  else none

/-- `signing_input`. -/
def signingInput (body : List (Key × Value)) (productId : Text) : Except Failure Bytes := do
  let canonical ← canonicalOrRefuse (.mapping body)
  pure (encodeText (String.ofList SIGNATURE_DOMAIN) ++ [0] ++ encodeText (String.ofList productId) ++ [0] ++
    canonical)

def bodyOf (document : List (Key × Value)) : List (Key × Value) :=
  document.filter fun m => m.1 ≠ .name (ofChars "signature".toList)

/-! ## Admission -/

/-- `_refuse_downgrade`. -/
def refuseDowngrade (release : Option (List (Key × Value))) (policy : UpdateTrustPolicy) :
    Except Failure Unit :=
  match release.bind fun members => lookup members "packages".toList with
  | some (.mapping packages) =>
    policy.versionFloor.forM fun pair => do
      let recommended ← match (lookup packages pair.1).bind textOf with
        | some text => versionKey text
        | none => pure none
      let installed ← versionKey pair.2
      require (∀ r ∈ recommended, ∀ i ∈ installed, ¬ r < i) (.refused .downgrade)
  | _ => pure ()

/-- The `release` member: an object, or `null`. -/
def releaseMember (document : List (Key × Value)) : Except Failure (Option (List (Key × Value))) :=
  match lookup document "release".toList with
  | some .none => pure none
  | some (.mapping members) => pure (some members)
  | _ => refuse .malformed

/-- `_admit_legacy`. -/
def admitLegacy (document : List (Key × Value)) (policy : UpdateTrustPolicy) :
    Except Failure AdmittedChannel := do
  require (hasMembers document LEGACY_MEMBERS = true) (.refused .malformed)
  let channel ← orRefuse (textMember document "channel" isChannel) .malformed
  require (channel = policy.expectedChannel) (.refused .wrongChannel)
  let release ← releaseMember document
  pure ⟨LEGACY_SCHEMA_VERSION, channel, policy.expectedProductId, release, none, none, false⟩

/-- The `sequence` member. -/
def sequenceMember (document : List (Key × Value)) : Option ℤ :=
  match lookup document "sequence".toList with
  | some (.int n) => if 1 ≤ n ∧ n ≤ MAX_SEQUENCE then some n else none
  | _ => none

/-- The key id and the algorithm of the `signing` member. -/
def signingMember (document : List (Key × Value)) : Option (Text × Value) :=
  match lookup document "signing".toList with
  | some (.mapping signing) =>
    if hasMembers signing SIGNING_MEMBERS then
      match textMember signing "key_id" isKeyId, lookup signing "algorithm".toList with
      | some keyId, some algorithm => some (keyId, algorithm)
      | _, _ => none
    else none
  | _ => none

/-- `_verify_ed25519`. -/
def verifyEd25519 (verifier : Option (Bytes → Bytes → Bytes → Bool)) (publicKey signature message : Bytes) :
    Except Failure Bool :=
  match verifier with
  | some verify => pure (verify publicKey signature message)
  | none => refuse .verifierUnavailable

/-- `_admit_envelope`. -/
def admitEnvelope (verifier : Option (Bytes → Bytes → Bytes → Bool)) (document : List (Key × Value))
    (policy : UpdateTrustPolicy) (moment : Text) : Except Failure AdmittedChannel := do
  require (hasMembers document ENVELOPE_MEMBERS = true) (.refused .malformed)
  let productId ← orRefuse (textMember document "product_id" isProductId) .malformed
  let channel ← orRefuse (textMember document "channel" isChannel) .malformed
  let sequence ← orRefuse (sequenceMember document) .malformed
  let issuedAt ← orRefuse (textMember document "issued_at" isInstant) .malformed
  let notBefore ← orRefuse (textMember document "not_before" isInstant) .malformed
  let notAfter ← orRefuse (textMember document "not_after" isInstant) .malformed
  require (notBefore < notAfter ∧ issuedAt ≤ notAfter) (.refused .malformed)
  let release ← releaseMember document
  let (keyId, algorithm) ← orRefuse (signingMember document) .malformed
  require (textOf algorithm = some SIGNATURE_ALGORITHM) (.refused .badSignature)
  require (productId = policy.expectedProductId) (.refused .wrongProduct)
  require (channel = policy.expectedChannel) (.refused .wrongChannel)
  let signature ← orRefuse (((lookup document "signature".toList).bind textOf).bind
    fun text => decodeBase64Url text 64) .badSignature
  let approved ← orRefuse ((policy.trustedKeys.find? fun key => key.keyId = keyId).filter
    fun key => key.usableAt moment) .untrustedKey
  let message ← signingInput (bodyOf document) productId
  let verified ← verifyEd25519 verifier approved.publicKey signature message
  require (verified = true) (.refused .badSignature)
  require (notBefore ≤ moment ∧ moment < notAfter) (.refused .outsideValidity)
  require (∀ floor ∈ policy.minimumSequence, floor < sequence) (.refused .replayed)
  refuseDowngrade release policy
  pure ⟨ENVELOPE_SCHEMA_VERSION, channel, productId, release, some sequence, some keyId, true⟩

/-- `admit_channel_document`. -/
def admitChannelDocument (verifier : Option (Bytes → Bytes → Bytes → Bool)) (raw : Bytes)
    (policy : UpdateTrustPolicy) (verifiedAt : Text) : Except Failure AdmittedChannel := do
  require (isInstant verifiedAt = true) (.refused .malformed)
  let document ← parsedAndCanonical raw
  let version := (lookup document "schema_version".toList).bind textOf
  if version = some LEGACY_SCHEMA_VERSION then do
    require (policy.acceptUnsignedV1 = true) (.refused .unsigned)
    admitLegacy document policy
  else do
    require (version = some ENVELOPE_SCHEMA_VERSION) (.refused .unsupportedVersion)
    admitEnvelope verifier document policy verifiedAt

end OmniviaCore.Client.UpdateTrust
