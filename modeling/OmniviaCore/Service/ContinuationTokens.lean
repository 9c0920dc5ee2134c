import OmniviaCore.CanonicalJson.Rewriting
import OmniviaCore.CanonicalJson.ContentAddress
import OmniviaCore.Connector.CursorRoundTrip
import OmniviaCore.Service.StrictBase64

/-!
# Continuation tokens

`HmacContinuationTokenCodec` of `service/pagination.py`: a payload is written canonically and signed,
and a token is the two in base64url with a dot between them. HMAC-SHA-256 is a parameter. A token is
read back as its payload exactly when the numbers of the payload are exact
(`decode_encode_iff`), and a token the decoder accepts is the one the encoder writes exactly when both
its parts are base64url as the encoder writes it (`encode_decode_iff`).
-/

namespace OmniviaCore.Service

open CanonicalJson Connector Lib

/-- What `decode` raises. -/
inductive TokenError where
  | invalidEncoding
  | invalidSignature
  | invalidDocument
  /-- `parse_json_document` refused the document. -/
  | unreadable
  /-- `canonicalize` refused what was read. -/
  | uncanonical (error : Raised)

/-- `HmacContinuationTokenCodec`, with the HMAC it is computed by. -/
structure TokenCodec where
  hmac : Bytes → Bytes → Bytes
  secret : Bytes

/-- `base64.urlsafe_b64encode(material).rstrip(b"=").decode()`. -/
def encodedPart (material : Bytes) : List Char :=
  decodeAscii (rstripPadding (base64Encode 45 95 material))

/-- The `b64decode` of a part, padded. -/
def decodedPart (part : List Char) : Option Bytes :=
  (encodeAscii part).bind fun bytes => b64decode (bytes ++ padding bytes.length)

/-- `parse_json_document` of bytes. -/
def parseDocument (document : Bytes) : Except TokenError Value :=
  match Connector.decodeUtf8 document with
  | none => .error .unreadable
  | some text =>
    match loads text with
    | .error _ => .error .unreadable
    | .ok value => .ok value

namespace TokenCodec

def encode (codec : TokenCodec) (payload : List (Key × Value)) : Except Raised Str :=
  match canonicalBytes (.mapping payload) (ofChars ['$']) with
  | .error e => .error e
  | .ok document =>
    .ok (ofChars (encodedPart document ++ '.' :: encodedPart (codec.hmac codec.secret document)))

/-- `decode` of the two parts of a token. -/
def decodeParts (codec : TokenCodec) (encodedDocument encodedSignature : List Char) :
    Except TokenError (List (Key × Value)) :=
  match decodedPart encodedDocument, decodedPart encodedSignature with
  | some document, some signature =>
    if signature ≠ codec.hmac codec.secret document then .error .invalidSignature
    else
      match parseDocument document with
      | .error e => .error e
      | .ok (.mapping members) =>
        match canonicalBytes (.mapping members) (ofChars ['$']) with
        | .error e => .error (.uncanonical e)
        | .ok canonical => if canonical ≠ document then .error .invalidDocument else .ok members
      | .ok _ => .error .invalidDocument
  | _, _ => .error .invalidEncoding

/-- `decode`. A surrogate is no ASCII, in whichever part of the token it stands. -/
def decode (codec : TokenCodec) (token : Str) : Except TokenError (List (Key × Value)) :=
  match (toChars token).map (List.splitOn '.') with
  | some [encodedDocument, encodedSignature] => codec.decodeParts encodedDocument encodedSignature
  | _ => .error .invalidEncoding

end TokenCodec

/-- A part is spelled as the encoder spells it: base64url characters, no padding, and zero in the bits
that its last group does not use. -/
def CanonicalPart (part : List Char) : Prop :=
  ∃ bytes, encodeAscii part = some bytes ∧ UrlSafe bytes ∧ SpareBitsZero bytes

def CanonicalSpelling (token : Str) : Prop :=
  ∀ chars, toChars token = some chars → ∀ part ∈ chars.splitOn '.', CanonicalPart part

/-! ## Parts -/

theorem encodedPart_eq (material : Bytes) : encodedPart material = decodeAscii (base64Unpadded material) := by
  rw [encodedPart, rstripPadding_base64Encode]

theorem urlSafe_ascii {text : Bytes} (h : UrlSafe text) : ∀ byte ∈ text, byte.toNat < 128 := by
  have hall : ∀ byte : UInt8, (base64Value byte).isSome = true → byte.toNat < 128 := by
    apply forall_byte
    decide +kernel
  exact fun byte hbyte => hall byte (h byte hbyte)

theorem encodeAscii_encodedPart (material : Bytes) :
    encodeAscii (encodedPart material) = some (base64Unpadded material) := by
  rw [encodedPart_eq]
  exact encodeAscii_decodeAscii (urlSafe_ascii (base64Unpadded_spelling material).1)

theorem decodedPart_encodedPart (material : Bytes) :
    decodedPart (encodedPart material) = some material := by
  rw [decodedPart, encodeAscii_encodedPart, Option.bind_some, b64decode_unpadded]

theorem notMem_encodedPart (material : Bytes) : '.' ∉ encodedPart material := by
  have hall : ∀ byte : UInt8, (base64Value byte).isSome = true → Char.ofNat byte.toNat ≠ '.' := by
    apply forall_byte
    decide +kernel
  rw [encodedPart_eq, decodeAscii, List.mem_map]
  intro hmem
  obtain ⟨byte, hbyte, hdot⟩ := hmem
  exact hall byte ((base64Unpadded_spelling material).1 byte hbyte) hdot

/-- A part that is read is the encoding of what is read exactly when it is spelled so. -/
theorem encodedPart_eq_iff {part : List Char} {material : Bytes} (h : decodedPart part = some material) :
    encodedPart material = part ↔ CanonicalPart part := by
  unfold decodedPart at h
  obtain ⟨bytes, hbytes, hdecode⟩ := Option.bind_eq_some_iff.mp h
  have hpart := decodeAscii_of_encodeAscii hbytes
  constructor
  · intro heq
    refine ⟨bytes, hbytes, ?_⟩
    rw [← unpadded_eq_iff hdecode]
    have hascii := encodeAscii_encodedPart material
    rw [heq, hbytes] at hascii
    exact (Option.some.inj hascii).symm
  · intro hspelled
    obtain ⟨bytes', hbytes', hspelling⟩ := hspelled
    obtain rfl : bytes = bytes' := Option.some.inj (hbytes.symm.trans hbytes')
    rw [encodedPart_eq, (unpadded_eq_iff hdecode).mpr hspelling, hpart]

theorem splitOn_parts {first second : List Char} (hfirst : '.' ∉ first) (hsecond : '.' ∉ second) :
    (first ++ '.' :: second).splitOn '.' = [first, second] := by
  have hjoined : ['.'].intercalate [first, second] = first ++ '.' :: second := by
    simp [List.intercalate]
  rw [← hjoined, List.splitOn_intercalate '.' ?_ (List.cons_ne_nil _ _)]
  intro part hpart
  simp only [List.mem_cons, List.not_mem_nil, or_false] at hpart
  rcases hpart with rfl | rfl
  · exact hfirst
  · exact hsecond

theorem join_of_splitOn {chars first second : List Char} (h : chars.splitOn '.' = [first, second]) :
    chars = first ++ '.' :: second := by
  have hjoined : List.intercalate ['.'] (chars.splitOn '.') = chars := List.intercalate_splitOn '.'
  rw [h] at hjoined
  rw [← hjoined]
  simp [List.intercalate]

/-! ## Tokens -/

theorem canonicalBytes_eq_ok {value : Value} {path : Str} {document : Bytes} :
    canonicalBytes value path = .ok document ↔
      ∃ text, canonicalize value path = .ok text ∧ text.flatMap String.utf8EncodeChar = document := by
  unfold canonicalBytes
  cases canonicalize value path with
  | error e => simp [bind, Except.bind]
  | ok text => simp [bind, Except.bind, pure, Except.pure]

theorem decodeUtf8_encoded (text : List Char) :
    Connector.decodeUtf8 (text.flatMap String.utf8EncodeChar) = some text := by
  have hbytes : (text.flatMap String.utf8EncodeChar).toByteArray = text.utf8Encode := rfl
  rw [Connector.decodeUtf8, hbytes, List.utf8Decode?_utf8Encode, Option.map_some]

theorem parseDocument_canonicalBytes {value : Value} {path : Str} {document : Bytes}
    (h : canonicalBytes value path = .ok document) : parseDocument document = .ok (reread value) := by
  obtain ⟨text, htext, rfl⟩ := canonicalBytes_eq_ok.mp h
  obtain ⟨haccepted, rfl⟩ := (canonicalizeInto_eq_ok value path 0 _).1 htext
  have hloads := loads_render haccepted.readsAs
  simp only [parseDocument, decodeUtf8_encoded, hloads]

/-- What a canonical document is read as is written as the document exactly when the numbers of the
value are exact. -/
theorem canonicalBytes_reread_iff {value : Value} {path : Str} {document : Bytes}
    (h : canonicalBytes value path = .ok document) :
    canonicalBytes (reread value) path = .ok document ↔ Rewrites value := by
  obtain ⟨text, htext, rfl⟩ := canonicalBytes_eq_ok.mp h
  have haccepted := ((canonicalizeInto_eq_ok value path 0 _).1 htext).1
  constructor
  · intro hagain
    obtain ⟨text', htext', -⟩ := canonicalBytes_eq_ok.mp hagain
    exact haccepted.rewrites ((canonicalizeInto_eq_ok _ path 0 _).1 htext').1
  · intro hw
    exact canonicalBytes_eq_ok.mpr ⟨text, canonicalize_reread htext hw, rfl⟩

namespace TokenCodec

variable {codec : TokenCodec} {payload members : List (Key × Value)} {token : Str}

theorem encode_eq_ok : codec.encode payload = .ok token ↔
    ∃ document, canonicalBytes (.mapping payload) (ofChars ['$']) = .ok document ∧
      ofChars (encodedPart document ++ '.' :: encodedPart (codec.hmac codec.secret document)) = token := by
  unfold encode
  cases canonicalBytes (.mapping payload) (ofChars ['$']) with
  | error e => simp
  | ok document => simp

theorem decode_joined (codec : TokenCodec) (document signature : Bytes) :
    codec.decode (ofChars (encodedPart document ++ '.' :: encodedPart signature)) =
      codec.decodeParts (encodedPart document) (encodedPart signature) := by
  unfold decode
  rw [toChars_ofChars, Option.map_some,
    splitOn_parts (notMem_encodedPart document) (notMem_encodedPart signature)]

theorem decodeParts_eq_ok {encodedDocument encodedSignature : List Char} :
    codec.decodeParts encodedDocument encodedSignature = .ok members ↔
      ∃ document, decodedPart encodedDocument = some document ∧
        decodedPart encodedSignature = some (codec.hmac codec.secret document) ∧
        parseDocument document = .ok (.mapping members) ∧
        canonicalBytes (.mapping members) (ofChars ['$']) = .ok document := by
  unfold decodeParts
  cases hdocument : decodedPart encodedDocument with
  | none => simp
  | some document =>
    cases hsignature : decodedPart encodedSignature with
    | none => simp
    | some signature =>
      by_cases hsigned : signature = codec.hmac codec.secret document
      · simp only [hsigned, ne_eq, not_true_eq_false, if_false, Option.some.injEq, exists_eq_left',
          true_and]
        cases hparse : parseDocument document with
        | error e => simp
        | ok value =>
          cases value with
          | mapping read =>
            simp only [Except.ok.injEq, Value.mapping.injEq]
            cases hcanonical : canonicalBytes (.mapping read) (ofChars ['$']) with
            | error e =>
              constructor
              · intro h
                cases h
              · intro h
                rw [← h.1, hcanonical] at h
                cases h.2
            | ok canonical =>
              by_cases hsame : canonical = document
              · simp only [hsame, not_true_eq_false, if_false, Except.ok.injEq]
                constructor
                · intro h
                  rw [← h, hcanonical, hsame]
                  exact ⟨rfl, rfl⟩
                · exact fun h => h.1
              · simp only [hsame, not_false_eq_true, if_true]
                constructor
                · intro h
                  cases h
                · intro h
                  rw [← h.1, hcanonical] at h
                  exact absurd (Except.ok.inj h.2) hsame
          | _ => simp
      · simp only [ne_eq, hsigned, not_false_eq_true, if_true, Option.some.injEq, exists_eq_left',
          false_and]
        simp

/-- A token is read back as an equal payload exactly when the numbers of the payload are exact. -/
theorem decode_encode_iff (h : codec.encode payload = .ok token) :
    (∃ members, codec.decode token = .ok members ∧
      denote (.mapping members) = denote (.mapping payload)) ↔ Rewrites (.mapping payload) := by
  obtain ⟨document, hdocument, rfl⟩ := encode_eq_ok.mp h
  rw [decode_joined]
  have hparse := parseDocument_canonicalBytes hdocument
  have hrewrites := canonicalBytes_reread_iff hdocument
  have hreread : ∃ read, reread (.mapping payload) = .mapping read := by
    rw [reread]
    exact ⟨_, rfl⟩
  obtain ⟨read, hread⟩ := hreread
  rw [hread] at hparse hrewrites
  constructor
  · intro hback
    obtain ⟨members, hdecode, -⟩ := hback
    obtain ⟨document', hdecoded, -, hparse', hcanonical⟩ := decodeParts_eq_ok.mp hdecode
    rw [decodedPart_encodedPart] at hdecoded
    obtain rfl : document = document' := Option.some.inj hdecoded
    obtain rfl : read = members := Value.mapping.inj (Except.ok.inj (hparse.symm.trans hparse'))
    exact hrewrites.mp hcanonical
  · intro hw
    refine ⟨read, decodeParts_eq_ok.mpr ⟨document, decodedPart_encodedPart _,
      decodedPart_encodedPart _, hparse, hrewrites.mpr hw⟩, ?_⟩
    obtain ⟨text, htext, -⟩ := canonicalBytes_eq_ok.mp hdocument
    have haccepted := ((canonicalizeInto_eq_ok _ _ 0 _).1 htext).1
    obtain ⟨hagain, htree⟩ := haccepted.tree_reread hw
    rw [← hread]
    exact (tree_eq_iff hagain haccepted).mp htree

/-- A token that is accepted is what the encoder writes of its payload exactly when it is spelled as
the encoder spells. -/
theorem encode_decode_iff (h : codec.decode token = .ok members) :
    codec.encode members = .ok token ↔ CanonicalSpelling token := by
  unfold decode at h
  cases hchars : toChars token with
  | none => simp [hchars] at h
  | some chars =>
    rw [hchars, Option.map_some] at h
    split at h
    · next encodedDocument encodedSignature hsplit =>
      have hsplit := Option.some.inj hsplit
      obtain ⟨document, hdocument, hsignature, -, hcanonical⟩ := decodeParts_eq_ok.mp h
      have htoken : token = ofChars (encodedDocument ++ '.' :: encodedSignature) := by
        rw [← join_of_splitOn hsplit]
        exact (toChars_eq_some.mp hchars)
      have hspelling : CanonicalSpelling token ↔
          CanonicalPart encodedDocument ∧ CanonicalPart encodedSignature := by
        unfold CanonicalSpelling
        rw [hchars]
        simp [hsplit]
      rw [hspelling, ← encodedPart_eq_iff hdocument, ← encodedPart_eq_iff hsignature, encode_eq_ok]
      constructor
      · intro hencode
        obtain ⟨document', hcanonical', hjoined⟩ := hencode
        obtain rfl : document = document' := Except.ok.inj (hcanonical.symm.trans hcanonical')
        have hparts := splitOn_parts (notMem_encodedPart document)
          (notMem_encodedPart (codec.hmac codec.secret document))
        rw [ofChars_injective (hjoined.trans htoken), ← join_of_splitOn hsplit, hsplit] at hparts
        simp only [List.cons.injEq, and_true] at hparts
        exact ⟨hparts.1.symm, hparts.2.symm⟩
      · intro hparts
        exact ⟨document, hcanonical, by rw [hparts.1, hparts.2, htoken]⟩
    · cases h

/-- For every codec: the round trip of every payload the encoder accepts, and the one spelling of every
token the decoder accepts. -/
theorem tokens_canonical_iff (codec : TokenCodec) :
    (∀ payload token, codec.encode payload = .ok token →
      ((∃ members, codec.decode token = .ok members ∧
        denote (.mapping members) = denote (.mapping payload)) ↔ Rewrites (.mapping payload))) ∧
    (∀ token members, codec.decode token = .ok members →
      (codec.encode members = .ok token ↔ CanonicalSpelling token)) :=
  ⟨fun _ _ h => decode_encode_iff h, fun _ _ h => encode_decode_iff h⟩

/-- A codec under the key of 32 zero bytes, with the HMAC of the document `\x7b\x7d` under it. -/
def zeroKeyCodec : TokenCodec where
  hmac := fun _ _ =>
    [34, 248, 238, 169, 9, 64, 10, 249, 138, 223, 54, 129, 169, 243, 25, 35, 239, 107, 127, 203, 164, 171,
      181, 83, 217, 40, 35, 163, 233, 213, 194, 94]
  secret := List.replicate 32 0

/-- The token of the empty payload, with its last document character one further in the alphabet. -/
def respelledToken : Str := ofChars "e31.IvjuqQlACvmK3zaBqfMZI-9rf8ukq7VT2Sgjo-nVwl4".toList

/-- The respelled token is accepted as the empty payload, whose token is another. -/
theorem respelled_token_accepted :
    ¬ ∀ token members, zeroKeyCodec.decode token = .ok members →
      zeroKeyCodec.encode members = .ok token := by
  intro h
  have haccepted : zeroKeyCodec.decode respelledToken = .ok [] := by
    have hparts : (toChars respelledToken).map (List.splitOn '.') =
        some ["e31".toList, "IvjuqQlACvmK3zaBqfMZI-9rf8ukq7VT2Sgjo-nVwl4".toList] := by
      decide +kernel
    have hdocument : decodedPart "e31".toList = some [123, 125] := by decide +kernel
    have hsignature : decodedPart "IvjuqQlACvmK3zaBqfMZI-9rf8ukq7VT2Sgjo-nVwl4".toList =
        some (zeroKeyCodec.hmac zeroKeyCodec.secret [123, 125]) := by
      decide +kernel
    have hcanonical : canonicalBytes (.mapping []) (ofChars ['$']) = .ok [123, 125] := by
      decide +kernel
    have hparse := parseDocument_canonicalBytes hcanonical
    have hread : reread (.mapping []) = .mapping [] := rfl
    rw [hread] at hparse
    unfold decode
    rw [hparts]
    exact decodeParts_eq_ok.mpr ⟨_, hdocument, hsignature, hparse, hcanonical⟩
  have hencode := h respelledToken [] haccepted
  have hother : encodedPart [123, 125] = "e30".toList := by decide +kernel
  obtain ⟨document, hcanonical, hjoined⟩ := encode_eq_ok.mp hencode
  have hcanonical' : canonicalBytes (.mapping []) (ofChars ['$']) = .ok [123, 125] := by
    decide +kernel
  obtain rfl : [123, 125] = document := Except.ok.inj (hcanonical'.symm.trans hcanonical)
  rw [hother] at hjoined
  have hchars := ofChars_injective hjoined
  exact absurd hchars (by decide +kernel)

end TokenCodec

end OmniviaCore.Service
