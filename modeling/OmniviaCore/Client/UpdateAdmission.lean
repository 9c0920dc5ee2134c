import OmniviaCore.CanonicalJson.Documents
import OmniviaCore.Client.UpdateTrust

/-!
# A signature pins the channel it was made for

`_admit_envelope` believes a document when the key it names verifies a signature over `signing_input`.
The parts of that input end in a NUL no product id contains, and its last part is a canonical form, so
it pins the product and the members it covers.
-/

namespace OmniviaCore.Client.UpdateTrust

open CanonicalJson Connector Jobs Lib

variable {verifier : Option (Bytes → Bytes → Bytes → Bool)} {raw raw' : Bytes}
  {policy policy' : UpdateTrustPolicy} {moment moment' : Text} {admitted admitted' : AdmittedChannel}
  {document document' : List (Key × Value)}

/-! ## What a document denotes, by its members -/

theorem denoteMembers_eq (members : List (Key × Value)) (name : Text) :
    denoteMembers members name = (lookup members name).map denote := by
  induction members with
  | nil => rfl
  | cons m members ih =>
    rw [denoteMembers, lookup, List.find?_cons]
    by_cases h : m.1 = .name (ofChars name)
    · simp [h]
    · rw [if_neg h, ih, decide_eq_false h]
      rfl

theorem find?_filter_key {α β : Type*} [DecidableEq α] (l : List (α × β)) (k k' : α) :
    (l.filter fun m => m.1 ≠ k).find? (fun m => m.1 = k') =
      if k' = k then none else l.find? fun m => m.1 = k' := by
  rw [List.find?_filter]
  split
  next h =>
    rw [List.find?_eq_none, h]
    simp
  next h =>
    congr 1
    funext m
    by_cases hm : m.1 = k'
    · simp [hm, h]
    · simp [hm]

/-- The body has the members of its document, the signature apart. -/
theorem lookup_bodyOf {name : Text} (hname : name ≠ "signature".toList) :
    lookup (bodyOf document) name = lookup document name := by
  have hkey : Key.name (ofChars name) ≠ .name (ofChars "signature".toList) := fun heq =>
    hname (ofChars_injective (Key.name.inj heq))
  rw [lookup, bodyOf, find?_filter_key, if_neg hkey, lookup]

/-- Two mappings denote one object when they answer each name alike. -/
theorem denote_mapping_eq {l m : List (Key × Value)} :
    denote (.mapping l) = denote (.mapping m) ↔
      ∀ name, (lookup l name).map denote = (lookup m name).map denote := by
  rw [denote, denote, IJson.object.injEq, funext_iff]
  simp only [denoteMembers_eq]

/-- Documents with one signature and bodies that denote one object denote one object. -/
theorem denote_document_eq (hbody : denote (.mapping (bodyOf document)) = denote (.mapping (bodyOf document')))
    (hsignature : (lookup document "signature".toList).map denote =
      (lookup document' "signature".toList).map denote) :
    denote (.mapping document) = denote (.mapping document') := by
  refine denote_mapping_eq.2 fun name => ?_
  by_cases hname : name = "signature".toList
  · rw [hname, hsignature]
  · have hsame := denote_mapping_eq.1 hbody name
    rwa [lookup_bodyOf hname, lookup_bodyOf hname] at hsame

theorem textOf_denote {value : Value} {text : Text} (h : textOf value = some text) :
    denote value = .string text := by
  cases value with
  | str s => rw [denote, show toChars s = some text from h, Option.getD_some]
  | _ => cases h

/-! ## The signing input -/

theorem nul_not_mem_slug {bound : ℕ} {text : Text} (h : isSlug bound text = true) : '\x00' ∉ text := by
  unfold isSlug at h
  simp only [Bool.and_eq_true] at h
  obtain ⟨-, h⟩ := h
  cases text with
  | nil => exact List.not_mem_nil
  | cons c rest =>
    simp only [Bool.and_eq_true, List.all_eq_true] at h
    intro hmem
    rcases List.mem_cons.1 hmem with rfl | hmem
    · exact absurd h.1 (by decide)
    · exact absurd (h.2 _ hmem) (by decide)

theorem canonicalOrRefuse_ok {value : Value} {canonical : Bytes} (h : canonicalOrRefuse value = .ok canonical) :
    canonicalBytes value (ofChars ['$']) = .ok canonical := by
  unfold canonicalOrRefuse at h
  split at h
  next bytes hbytes =>
    obtain rfl := pure_eq_ok.1 h
    exact hbytes
  · cases h
  · cases h

theorem exists_text {value : Value} {canonical : Bytes} (h : canonicalOrRefuse value = .ok canonical) :
    ∃ text : Text, canonical = text.flatMap String.utf8EncodeChar := by
  have hcanonical := canonicalOrRefuse_ok h
  simp only [canonicalBytes, bind_eq_ok, pure_eq_ok] at hcanonical
  obtain ⟨text, -, rfl⟩ := hcanonical
  exact ⟨text, rfl⟩

/-- No two products, and no two bodies, have one signing input. -/
theorem signingInput_inj {body body' : List (Key × Value)} {productId productId' : Text} {message : Bytes}
    (hproduct : isProductId productId = true) (hproduct' : isProductId productId' = true)
    (h : signingInput body productId = .ok message) (h' : signingInput body' productId' = .ok message) :
    productId = productId' ∧ denote (.mapping body) = denote (.mapping body') := by
  simp only [signingInput, bind_eq_ok, pure_eq_ok] at h h'
  obtain ⟨canonical, hcanonical, rfl⟩ := h
  obtain ⟨canonical', hcanonical', heq⟩ := h'
  obtain ⟨text, rfl⟩ := exists_text hcanonical
  obtain ⟨text', rfl⟩ := exists_text hcanonical'
  simp only [List.append_assoc, List.append_cancel_left_eq] at heq
  have hseparated : ∀ id rest : Text, encodeText (String.ofList id) ++ ([0] ++ rest.flatMap
      String.utf8EncodeChar) = (id ++ '\x00' :: rest).flatMap String.utf8EncodeChar := by
    intro id rest
    rw [encodeText, String.toList_ofList, List.flatMap_append, List.flatMap_cons]
    rfl
  rw [hseparated, hseparated] at heq
  obtain ⟨rfl, rfl⟩ := append_separator_inj (nul_not_mem_slug hproduct') (nul_not_mem_slug hproduct)
    (utf8EncodeChar_prefixCode.flatMap_injective heq)
  exact ⟨rfl, (canonicalBytes_eq_iff (canonicalOrRefuse_ok hcanonical) (canonicalOrRefuse_ok hcanonical')).1 rfl⟩

/-! ## Admission -/

theorem orRefuse_eq_ok {α : Type} {value : Option α} {refusal : Refusal} {a : α} :
    orRefuse value refusal = .ok a ↔ value = some a := by
  cases value with
  | none => exact iff_of_false (fun h => by cases h) (fun h => by cases h)
  | some b => exact pure_eq_ok.trans Option.some_inj.symm

theorem base64Url_of_decode {text : Text} {count : ℕ} {bytes : Bytes}
    (h : decodeBase64Url text count = some bytes) : base64Url bytes = text := by
  simp only [decodeBase64Url, Option.bind_eq_bind, Option.bind_eq_some_iff] at h
  obtain ⟨sextets, -, h⟩ := h
  split at h
  next hdecoded =>
    obtain rfl := Option.some.inj h
    exact hdecoded.2.2
  · cases h

/-- What an admission on a signature rests on: the document the bytes are the canonical form of, its signature
and the message that covers the rest of it, the key that vouches for them, and the terms of the policy. -/
structure AdmittedOn (verifier : Option (Bytes → Bytes → Bytes → Bool)) (raw : Bytes)
    (policy : UpdateTrustPolicy) (moment : Text) (admitted : AdmittedChannel)
    (document : List (Key × Value)) (signature message : Bytes) : Prop where
  parsed : parsedAndCanonical raw = .ok document
  signed : ((lookup document "signature".toList).bind textOf).bind
    (fun text => decodeBase64Url text 64) = some signature
  covered : signingInput (bodyOf document) admitted.productId = .ok message
  vouched : ∃ verify, verifier = some verify ∧ ∃ key ∈ policy.trustedKeys,
    admitted.keyId = some key.keyId ∧ key.usableAt moment = true ∧
      verify key.publicKey signature message = true
  product : admitted.productId = policy.expectedProductId
  channel : textMember document "channel" isChannel = some admitted.channel ∧
    admitted.channel = policy.expectedChannel
  window : ∃ notBefore notAfter, textMember document "not_before" isInstant = some notBefore ∧
    textMember document "not_after" isInstant = some notAfter ∧ notBefore ≤ moment ∧ moment < notAfter
  sequence : ∃ n, sequenceMember document = some n ∧ admitted.sequence = some n ∧
    ∀ floor ∈ policy.minimumSequence, floor < n
  signer : ∃ keyId algorithm, signingMember document = some (keyId, algorithm) ∧ admitted.keyId = some keyId
  release : releaseMember document = .ok admitted.release
  upward : refuseDowngrade admitted.release policy = .ok ()

theorem admitEnvelope_on (hparsed : parsedAndCanonical raw = .ok document)
    (h : admitEnvelope verifier document policy moment = .ok admitted) :
    ∃ signature message, AdmittedOn verifier raw policy moment admitted document signature message := by
  simp only [admitEnvelope, bind_eq_ok, require_eq_ok, exists_unit, orRefuse_eq_ok, pure_eq_ok,
    Prod.exists] at h
  obtain ⟨-, productId, -, channel, hchannel, n, hn, issuedAt, -, notBefore, hbefore, notAfter, hafter, -,
    release, hrelease, keyId, algorithm, hsigning, -, hproduct, hexpected, signature, hsignature, key, hkey,
    message, hmessage, verified, hverified, rfl, hwindow, hfloor, hupward, rfl⟩ := h
  obtain ⟨hfound, husable⟩ := Option.filter_eq_some_iff.1 hkey
  have hkeyId : key.keyId = keyId := by simpa using List.find?_some hfound
  unfold verifyEd25519 at hverified
  split at hverified
  next verify =>
    exact ⟨signature, message, hparsed, hsignature, hmessage,
      ⟨verify, rfl, key, List.mem_of_find?_eq_some hfound, by rw [hkeyId], husable, pure_eq_ok.1 hverified⟩,
      hproduct, ⟨hchannel, hexpected⟩, ⟨notBefore, notAfter, hbefore, hafter, hwindow⟩, ⟨n, hn, rfl, hfloor⟩,
      ⟨keyId, algorithm, hsigning, rfl⟩, hrelease, hupward⟩
  · cases hverified

/-- Under a policy that asks for no unsigned document, what is admitted was signed. -/
theorem admitted_on (hsigned : policy.acceptUnsignedV1 = false)
    (h : admitChannelDocument verifier raw policy moment = .ok admitted) :
    ∃ document signature message,
      AdmittedOn verifier raw policy moment admitted document signature message := by
  simp only [admitChannelDocument, bind_eq_ok, require_eq_ok, exists_unit] at h
  obtain ⟨-, document, hparsed, h⟩ := h
  split at h
  · simp only [bind_eq_ok, require_eq_ok, exists_unit, hsigned] at h
    exact absurd h.1 Bool.false_ne_true
  · simp only [bind_eq_ok, require_eq_ok, exists_unit] at h
    exact ⟨document, admitEnvelope_on hparsed h.2⟩

theorem parsedAndCanonical_ok (h : parsedAndCanonical raw = .ok document) :
    canonicalBytes (.mapping document) (ofChars ['$']) = .ok (removeNewline raw) := by
  simp only [parsedAndCanonical, bind_eq_ok] at h
  obtain ⟨value, -, h⟩ := h
  split at h
  next members =>
    simp only [bind_eq_ok, require_eq_ok, exists_unit, pure_eq_ok] at h
    obtain ⟨canonical, hcanonical, hraw, rfl⟩ := h
    exact hraw ▸ canonicalOrRefuse_ok hcanonical
  · cases h

namespace AdmittedOn

variable {signature signature' message : Bytes}

theorem body (h : AdmittedOn verifier raw policy moment admitted document signature message)
    (h' : AdmittedOn verifier raw' policy' moment' admitted' document' signature' message) :
    admitted.productId = admitted'.productId ∧
      denote (.mapping (bodyOf document)) = denote (.mapping (bodyOf document')) :=
  signingInput_inj (h.product ▸ policy.productId_valid) (h'.product ▸ policy'.productId_valid) h.covered
    h'.covered

/-- Documents that were admitted over one message, with one signature, are one text. -/
theorem spelling_eq (h : AdmittedOn verifier raw policy moment admitted document signature message)
    (h' : AdmittedOn verifier raw' policy' moment' admitted' document' signature message) :
    removeNewline raw = removeNewline raw' := by
  obtain ⟨value, hvalue, hdecode⟩ := Option.bind_eq_some_iff.1 h.signed
  obtain ⟨value', hvalue', hdecode'⟩ := Option.bind_eq_some_iff.1 h'.signed
  obtain rfl := (base64Url_of_decode hdecode).symm.trans (base64Url_of_decode hdecode')
  have hsignature : ∀ {d : List (Key × Value)}, (lookup d "signature".toList).bind textOf = some value →
      (lookup d "signature".toList).map denote = some (.string value) := by
    intro d hd
    obtain ⟨member, hmember, htext⟩ := Option.bind_eq_some_iff.1 hd
    rw [hmember, Option.map_some, textOf_denote htext]
  exact (canonicalBytes_eq_iff (parsedAndCanonical_ok h.parsed) (parsedAndCanonical_ok h'.parsed)).2
    (denote_document_eq (h.body h').2 ((hsignature hvalue).trans (hsignature hvalue').symm))

end AdmittedOn

/-- A signature pins its channel. Of two documents that are admitted without asking for unsigned ones, under any
policies and at any moments, each was verified under a trusted key, usable at its moment, on its policy's terms;
and when they were verified over one message they are of one product and say the same in every member but their
signature, and with one signature they are one text, up to a final newline. -/
theorem signature_pins_channel (hsigned : policy.acceptUnsignedV1 = false)
    (hsigned' : policy'.acceptUnsignedV1 = false)
    (h : admitChannelDocument verifier raw policy moment = .ok admitted)
    (h' : admitChannelDocument verifier raw' policy' moment' = .ok admitted') :
    ∃ document signature message document' signature' message',
      AdmittedOn verifier raw policy moment admitted document signature message ∧
      AdmittedOn verifier raw' policy' moment' admitted' document' signature' message' ∧
      (message = message' → admitted.productId = admitted'.productId ∧
        denote (.mapping (bodyOf document)) = denote (.mapping (bodyOf document')) ∧
        (signature = signature' → removeNewline raw = removeNewline raw')) := by
  obtain ⟨document, signature, message, hadmitted⟩ := admitted_on hsigned h
  obtain ⟨document', signature', message', hadmitted'⟩ := admitted_on hsigned' h'
  refine ⟨document, signature, message, document', signature', message', hadmitted, hadmitted', ?_⟩
  rintro rfl
  obtain ⟨hproduct, hbody⟩ := hadmitted.body hadmitted'
  refine ⟨hproduct, hbody, ?_⟩
  rintro rfl
  exact hadmitted.spelling_eq hadmitted'

/-- A channel with no recommendation, in its canonical form, signed by the Ed25519 key whose seed is zero. -/
def signedChannel : Bytes :=
  (["\x7b\"channel\":\"stable\",", "\"issued_at\":\"2026-01-01T00:00:00Z\",",
    "\"not_after\":\"2027-01-01T00:00:00Z\",", "\"not_before\":\"2026-01-01T00:00:00Z\",",
    "\"product_id\":\"omnivia-core\",", "\"release\":null,",
    "\"schema_version\":\"omnivia-core-update.v2\",", "\"sequence\":1,",
    "\"signature\":\"PvBBIkWLE6jeKZLROkhyWj9Zbk", "_hmTUuwjoId2ZCUGwWG_UdBThvCe1",
    "Q7G5ZT9JaCUQxqAEaaWkZh3PzT7hODw\",", "\"signing\":\x7b\"algorithm\":\"ed25519\",",
    "\"key_id\":\"release\"\x7d\x7d"].flatMap String.toList).map fun c => UInt8.ofNat c.toNat

def releaseKey : TrustedUpdateKey where
  keyId := "release".toList
  publicKey := [59, 106, 39, 188, 206, 182, 164, 45, 98, 163, 168, 208, 42, 111, 13, 115, 101, 50, 21, 119, 29,
    226, 67, 166, 58, 192, 72, 161, 139, 89, 218, 41]
  notBefore := "2026-01-01T00:00:00Z".toList
  notAfter := "2028-01-01T00:00:00Z".toList
  retiredAt := none
  keyId_valid := by decide
  publicKey_length := rfl
  notBefore_valid := by decide +kernel
  notAfter_valid := by decide +kernel
  retiredAt_valid := fun _ h => by cases h
  notBefore_lt := by decide

def releasePolicy : UpdateTrustPolicy where
  trustedKeys := [releaseKey]
  expectedProductId := "omnivia-core".toList
  expectedChannel := "stable".toList
  acceptUnsignedV1 := false
  minimumSequence := none
  versionFloor := []
  productId_valid := by decide
  channel_valid := by decide
  keyIds_nodup := List.nodup_singleton _

/-- The channel, and its text with a final newline; the verifier answers as Ed25519 does on them. -/
theorem signature_pins_channel_newline :
    ∃ admitted admitted' document signature message document' signature' message',
      AdmittedOn (some fun _ _ _ => true) signedChannel releasePolicy "2026-06-01T00:00:00Z".toList admitted
        document signature message ∧
      AdmittedOn (some fun _ _ _ => true) (signedChannel ++ [10]) releasePolicy
        "2026-07-01T00:00:00Z".toList admitted' document' signature' message' ∧
      (message = message' → admitted.productId = admitted'.productId ∧
        denote (.mapping (bodyOf document)) = denote (.mapping (bodyOf document')) ∧
        (signature = signature' → removeNewline signedChannel = removeNewline (signedChannel ++ [10]))) := by
  obtain ⟨admitted, h⟩ := exists_ok_of_isOk (x := admitChannelDocument (some fun _ _ _ => true) signedChannel
    releasePolicy "2026-06-01T00:00:00Z".toList) (by decide +kernel)
  obtain ⟨admitted', h'⟩ := exists_ok_of_isOk (x := admitChannelDocument (some fun _ _ _ => true)
    (signedChannel ++ [10]) releasePolicy "2026-07-01T00:00:00Z".toList) (by decide +kernel)
  exact ⟨admitted, admitted', signature_pins_channel rfl rfl h h'⟩

end OmniviaCore.Client.UpdateTrust
