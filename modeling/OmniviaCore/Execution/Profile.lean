import OmniviaCore.Lib.PrefixCode
import OmniviaCore.Lib.Digest
import OmniviaCore.Lib.Stateful
import OmniviaCore.CanonicalJson.Documents

/-!
# The vocabulary of the execution seam

The shapes every value of `execution/` is checked against, from `execution/profile.py`: a bounded
lowercase identifier, a digest, a bounded collection of identifiers; and the two ways an identity is
taken, over canonical JSON (`canonicalHash`) and over joined parts (`deriveId`). SHA-256 is the
argument `sha256`, the hexadecimal digest of some bytes.
-/

namespace OmniviaCore.Execution

open Lib CanonicalJson

/-- What the seam raises: `ExecutionContractError`, `ExecutionRefused`, each with its reason and
message, and the bare `ValueError` the canonicalizer lets through. -/
inductive ExecutionError where
  | contract (reason message : String)
  | refused (reason message : String)
  | valueError
  deriving DecidableEq

/-- `!r` of a string without quotes, backslashes and unprintable characters. -/
def quoted (s : String) : String := "'" ++ s ++ "'"

def isLowerAlnum (c : Char) : Bool := c.isLower || c.isDigit

/-- `_IDENTIFIER`: `[a-z0-9][a-z0-9._-]{0,127}`. -/
def isIdentifier (value : String) : Bool :=
  match value.toList with
  | [] => false
  | c :: rest =>
    isLowerAlnum c && rest.length ≤ 127 && rest.all fun d => isLowerAlnum d || d ∈ ['.', '_', '-']

def isLowerHex (c : Char) : Bool := c.isDigit || ('a' ≤ c && c ≤ 'f')

/-- `_DIGEST`: `sha256:[0-9a-f]{64}`. -/
def isDigest (value : String) : Bool :=
  value.toList.take 7 == "sha256:".toList && (value.toList.drop 7).length == 64 &&
    (value.toList.drop 7).all isLowerHex

section

variable {σ : Type}

/-- `require_identifier`. -/
def requireIdentifier (fieldName value : String) : EStateM ExecutionError σ PUnit :=
  demand (isIdentifier value = true)
    (.contract "invalid_identifier" s!"{fieldName} is not a bounded lowercase identifier")

/-- `require_digest`. -/
def requireDigest (fieldName value : String) : EStateM ExecutionError σ PUnit :=
  demand (isDigest value = true)
    (.contract "invalid_digest" s!"{fieldName} is not spelled sha256:<64 lowercase hex>")

def MAX_COLLECTION_LENGTH : Nat := 64

/-- `require_collection` of identifiers that need not declare any. -/
def requireCollection (fieldName : String) (values : List String) :
    EStateM ExecutionError σ PUnit := do
  demand (values.length ≤ MAX_COLLECTION_LENGTH)
    (.contract "collection_too_large" s!"{fieldName} exceeds its bound")
  demand (values.all isIdentifier = true)
    (.contract "invalid_identifier" s!"{fieldName} entry is not a bounded lowercase identifier")
  demand values.Nodup (.contract "duplicate_entry" s!"{fieldName} declares the same entry twice")

variable (sha256 : List UInt8 → String)

/-- `canonical_hash`. -/
def canonicalHash (value : Value) : Except ExecutionError String :=
  match canonicalBytes value [] with
  | .ok payload => .ok ("sha256:" ++ sha256 payload)
  | .error (.contract _) =>
    .error (.contract "not_canonicalizable" "value has no canonical JSON form")
  | .error .valueError => .error .valueError

/-- `chr(31)`. -/
def unitSeparator : Char := Char.ofNat 31

/-- The bytes `derive_id` digests. -/
def joinedParts (parts : List String) : List UInt8 :=
  ([unitSeparator].intercalate (parts.map String.toList)).flatMap String.utf8EncodeChar

/-- `derive_id`. -/
def deriveId (parts : List String) : String := "sha256:" ++ sha256 (joinedParts parts)

end

/-! ## The canonical hash is a content address -/

section

variable {sha256 : List UInt8 → String} {a b : Value} {hash : String}

theorem canonicalHash_eq_ok :
    canonicalHash sha256 a = .ok hash ↔
      ∃ payload, canonicalBytes a [] = .ok payload ∧ hash = "sha256:" ++ sha256 payload := by
  unfold canonicalHash
  split
  · next payload hpayload => simp [hpayload, eq_comm]
  · next hraised => simp [hraised]
  · next hraised => simp [hraised]

theorem exists_canonicalHash : (∃ hash, canonicalHash sha256 a = .ok hash) ↔ Accepted 0 a := by
  have htree := canonicalizeInto_eq_ok a [] 0
  simp only [canonicalHash_eq_ok, canonicalBytes, canonicalize, bind_eq_ok, pure_eq_ok, htree]
  constructor
  · rintro ⟨hash, payload, ⟨text, ⟨haccepted, -⟩, -⟩, -⟩
    exact haccepted
  · intro haccepted
    exact ⟨_, _, ⟨_, ⟨haccepted, rfl⟩, rfl⟩, rfl⟩

theorem denote_eq_of_canonicalHash (hsha : Function.Injective sha256)
    (ha : canonicalHash sha256 a = .ok hash) (hb : canonicalHash sha256 b = .ok hash) :
    denote a = denote b := by
  obtain ⟨p, hp, rfl⟩ := canonicalHash_eq_ok.1 ha
  obtain ⟨q, hq, hsame⟩ := canonicalHash_eq_ok.1 hb
  have hchars := congrArg String.toList hsame
  simp only [String.toList_append] at hchars
  have hdigest := String.toList_injective (List.append_cancel_left hchars)
  exact (canonicalBytes_eq_iff hp hq).1 (hsha hdigest)

end

/-! ## Derived identities are injective -/

def Unsplit (part : String) : Prop := unitSeparator ∉ part.toList

instance (part : String) : Decidable (Unsplit part) := by
  unfold Unsplit
  infer_instance

theorem unsplit_of_isIdentifier {value : String} (h : isIdentifier value = true) :
    Unsplit value := by
  unfold isIdentifier at h
  unfold Unsplit
  intro hmem
  split at h
  · next hnil => simp [hnil] at hmem
  · next c rest hchars =>
    rw [hchars] at hmem
    simp only [Bool.and_eq_true, decide_eq_true_eq, List.all_eq_true] at h
    obtain ⟨⟨hc, -⟩, hrest⟩ := h
    rcases List.mem_cons.1 hmem with rfl | hmem
    · exact absurd hc (by decide)
    · exact absurd (hrest _ hmem) (by decide)

theorem unsplit_repr (n : Nat) : Unsplit n.repr := by
  intro hmem
  have hdigits : unitSeparator ∈ Nat.toDigits 10 n := by simpa [Nat.repr] using hmem
  exact absurd (Nat.isDigit_of_mem_toDigits (by decide) (by decide) hdigits) (by decide)

theorem unsplit_toString (n : Int) : Unsplit (toString n) := by
  cases n with
  | ofNat n => exact unsplit_repr n
  | negSucc n =>
    intro hmem
    have hsign : unitSeparator ∈ '-' :: (Nat.repr (n + 1)).toList := by
      simpa [toString, Int.repr] using hmem
    rcases List.mem_cons.1 hsign with hsign | hdigits
    · exact absurd hsign (by decide)
    · exact unsplit_repr (n + 1) hdigits

theorem deriveId_inj {sha256 : List UInt8 → String} (hsha : Function.Injective sha256)
    {ps qs : List String} (hp : ∀ p ∈ ps, Unsplit p) (hq : ∀ q ∈ qs, Unsplit q) (hps : ps ≠ [])
    (hqs : qs ≠ []) (h : deriveId sha256 ps = deriveId sha256 qs) : ps = qs := by
  have hdigest : sha256 (joinedParts ps) = sha256 (joinedParts qs) := by
    have hchars := congrArg String.toList h
    simp only [deriveId, String.toList_append] at hchars
    exact String.toList_injective (List.append_cancel_left hchars)
  exact joinedBytes_inj hp hq hps hqs (hsha hdigest)

end OmniviaCore.Execution
