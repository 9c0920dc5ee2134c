import OmniviaCore.CanonicalJson.Accepted
import OmniviaCore.CanonicalJson.Parse

/-!
# What a written text is read as

The parser on the text of a tree. `matchNumber` finds the parts of a number again (`matchNumber_token`),
and `scanString` undoes `escape`. A tree of such tokens with distinct member names is read as one value
(`ReadsAs`), whatever text follows (`scanOnce_render`), so `loads` of its text is that value
(`loads_render`).
-/

namespace OmniviaCore.CanonicalJson

open Lib Tree

/-! ## Numbers -/

namespace NumberParts

/-- The fraction of a number as it is written. -/
def fractionText : Option (List Char) → List Char
  | none => []
  | some digits => '.' :: digits

/-- The exponent of a number as it is written, in so many digits at least. -/
def exponentPart (width : ℕ) : Option ℤ → List Char
  | none => []
  | some exponent => 'e' :: exponentText width exponent

def token (width : ℕ) (parts : NumberParts) : List Char :=
  (if parts.negative then ['-'] else []) ++
    (parts.integer ++ (fractionText parts.fraction ++ exponentPart width parts.exponent))

/-- The parts of a number that JSON can write. -/
structure Written (parts : NumberParts) : Prop where
  isDigit : ∀ c ∈ parts.integer, c.isDigit = true
  ne_nil : parts.integer ≠ []
  leading : parts.integer = ['0'] ∨ parts.integer.head? ≠ some '0'
  fraction : ∀ digits ∈ parts.fraction, digits ≠ [] ∧ ∀ c ∈ digits, c.isDigit = true

end NumberParts

/-- The text does not go on with a digit. -/
def NoDigit (text : List Char) : Prop := ∀ c ∈ text.head?, c.isDigit = false

/-- The text ends here, or goes on as it may after a value. -/
def Stops (text : List Char) : Prop := ∀ c ∈ text.head?, c = ',' ∨ c = ']' ∨ c = '\x7d'

theorem stops_nil : Stops [] := by
  intro c hc
  cases hc

theorem Stops.noDigit {text : List Char} (h : Stops text) : NoDigit text := by
  intro c hc
  rcases h c hc with rfl | rfl | rfl <;> rfl

theorem spanDigits_append {digits rest : List Char} (h : ∀ c ∈ digits, c.isDigit = true)
    (hrest : NoDigit rest) : spanDigits (digits ++ rest) = (digits, rest) := by
  have hspan : rest.takeWhile Char.isDigit = [] ∧ rest.dropWhile Char.isDigit = rest := by
    cases rest with
    | nil => exact ⟨rfl, rfl⟩
    | cons c rest =>
      have hc := hrest c rfl
      exact ⟨List.takeWhile_cons_of_neg (by simp [hc]), List.dropWhile_cons_of_neg (by simp [hc])⟩
  rw [spanDigits, List.takeWhile_append_of_pos h, List.dropWhile_append_of_pos h, hspan.1, hspan.2,
    List.append_nil]

/-- The digits of an exponent, at least `width` of them. -/
def exponentDigits (width : ℕ) (exponent : ℤ) : List Char :=
  let digits := Nat.toDigits 10 exponent.natAbs
  Decimal.zeros (width - digits.length) ++ digits

theorem isDigit_exponentDigits (width : ℕ) (exponent : ℤ) :
    ∀ c ∈ exponentDigits width exponent, c.isDigit = true := by
  intro c hc
  rcases List.mem_append.1 hc with hc | hc
  · rw [List.eq_of_mem_replicate hc]
    rfl
  · exact Nat.isDigit_of_mem_toDigits (by decide) (by decide) hc

theorem ofDigitChars_exponentDigits (width : ℕ) (exponent : ℤ) :
    Nat.ofDigitChars 10 (exponentDigits width exponent) 0 = exponent.natAbs := by
  rw [exponentDigits, Nat.ofDigitChars_append, Decimal.zeros, Nat.ofDigitChars_replicate_zero, mul_zero,
    Nat.ofDigitChars_ten_toDigits]

theorem matchExponent_exponentText {width : ℕ} {exponent : ℤ} {rest : List Char}
    (hrest : NoDigit rest) :
    matchExponent ('e' :: exponentText width exponent ++ rest) = (some exponent, rest) := by
  have hne : exponentDigits width exponent ≠ [] := by
    intro hnil
    exact Nat.toDigits_ne_nil (List.append_eq_nil_iff.1 hnil).2
  have hspan := spanDigits_append (isDigit_exponentDigits width exponent) hrest
  have hdigits := ofDigitChars_exponentDigits width exponent
  have htext : exponentText width exponent =
      (if 0 ≤ exponent then '+' else '-') :: exponentDigits width exponent := rfl
  rw [htext]
  by_cases h : 0 ≤ exponent
  · have hvalue : (exponent.natAbs : ℤ) = exponent := by omega
    simp only [if_pos h, List.cons_append, matchExponent, matchSign, true_or, if_true, hspan, if_neg hne,
      hdigits, hvalue, Bool.false_eq_true, if_false]
  · have hvalue : -(exponent.natAbs : ℤ) = exponent := by omega
    simp only [if_neg h, List.cons_append, matchExponent, matchSign, true_or, if_true, hspan, if_neg hne,
      hdigits, hvalue]

theorem matchExponent_exponentPart {width : ℕ} {rest : List Char} (exponent : Option ℤ)
    (hrest : Stops rest) :
    matchExponent (NumberParts.exponentPart width exponent ++ rest) = (exponent, rest) := by
  cases exponent with
  | none =>
    cases rest with
    | nil => rfl
    | cons c rest =>
      have hc : ¬(c = 'e' ∨ c = 'E') := by
        rcases hrest c rfl with rfl | rfl | rfl <;> decide
      simp only [NumberParts.exponentPart, List.nil_append, matchExponent, if_neg hc]
  | some exponent => exact matchExponent_exponentText hrest.noDigit

/-- Neither a fraction nor an exponent starts with a digit. -/
theorem noDigit_exponentPart {width : ℕ} {rest : List Char} (exponent : Option ℤ) (hrest : Stops rest) :
    NoDigit (NumberParts.exponentPart width exponent ++ rest) := by
  cases exponent with
  | none => exact hrest.noDigit
  | some exponent =>
    intro c hc
    cases hc
    rfl

theorem matchFraction_fractionText {width : ℕ} {fraction : Option (List Char)} {exponent : Option ℤ}
    {rest : List Char} (hrest : Stops rest)
    (h : ∀ digits ∈ fraction, digits ≠ [] ∧ ∀ c ∈ digits, c.isDigit = true) :
    matchFraction (NumberParts.fractionText fraction ++ (NumberParts.exponentPart width exponent ++ rest)) =
      (fraction, NumberParts.exponentPart width exponent ++ rest) := by
  cases fraction with
  | some digits =>
    obtain ⟨hne, hdigits⟩ := h digits rfl
    simp only [NumberParts.fractionText, List.cons_append, matchFraction,
      spanDigits_append hdigits (noDigit_exponentPart exponent hrest), if_neg hne]
  | none =>
    have hdot : (NumberParts.exponentPart width exponent ++ rest).head? ≠ some '.' := by
      cases exponent with
      | some exponent => exact fun h => by cases h
      | none =>
        intro hhead
        rcases hrest '.' hhead with h | h | h <;> cases h
    simp only [NumberParts.fractionText, List.nil_append]
    unfold matchFraction
    split
    next text heq =>
      rw [heq] at hdot
      exact absurd rfl hdot
    next => rfl

theorem noDigit_fractionText {width : ℕ} {fraction : Option (List Char)} {exponent : Option ℤ}
    {rest : List Char} (hrest : Stops rest) :
    NoDigit (NumberParts.fractionText fraction ++ (NumberParts.exponentPart width exponent ++ rest)) := by
  cases fraction with
  | some digits =>
    intro c hc
    cases hc
    rfl
  | none => exact noDigit_exponentPart exponent hrest

theorem matchInteger_append {digits rest : List Char} (h : ∀ c ∈ digits, c.isDigit = true)
    (hne : digits ≠ []) (hleading : digits = ['0'] ∨ digits.head? ≠ some '0') (hrest : NoDigit rest) :
    matchInteger (digits ++ rest) = (digits, rest) := by
  rcases hleading with rfl | hhead
  · rfl
  · unfold matchInteger
    split
    next text heq =>
      cases digits with
      | nil => exact absurd rfl hne
      | cons c digits =>
        cases heq
        exact absurd rfl hhead
    next => exact spanDigits_append h hrest

theorem matchNumber_token {width : ℕ} {parts : NumberParts} (h : parts.Written) {rest : List Char}
    (hrest : Stops rest) : matchNumber (parts.token width ++ rest) = some (parts, rest) := by
  have hminus : matchMinus (parts.token width ++ rest) = (parts.negative, parts.integer ++
      (NumberParts.fractionText parts.fraction ++ (NumberParts.exponentPart width parts.exponent ++ rest))) := by
    rw [NumberParts.token]
    cases parts.negative with
    | true => simp [matchMinus]
    | false =>
      simp only [Bool.false_eq_true, if_false, List.nil_append, List.append_assoc]
      unfold matchMinus
      split
      next text heq =>
        cases hinteger : parts.integer with
        | nil => exact absurd hinteger h.ne_nil
        | cons c digits =>
          rw [hinteger] at heq
          cases heq
          exact absurd (h.isDigit '-' (hinteger ▸ List.mem_cons_self)) (by decide)
      next => rfl
  simp only [matchNumber, hminus,
    matchInteger_append h.isDigit h.ne_nil h.leading (noDigit_fractionText hrest), if_neg h.ne_nil,
    matchFraction_fractionText hrest h.fraction, matchExponent_exponentPart parts.exponent hrest]

/-! ## Strings -/

/-- The escape of a character is one that `scanString` knows. -/
def unescapes (c : Char) : Bool :=
  match escape c with
  | ['\\', short] => short ≠ 'u' && BACKSLASH.lookup short = some c
  | ['\\', 'u', a, b, d, e] => hexUnit a b d e = .ok c.toNat && c.toNat < 0xD800
  | _ => false

theorem scanString_escape (c : Char) (text : List Char) :
    scanString (escape c ++ text) = before (.scalar c) (scanString text) := by
  by_cases h : c ∈ escaped
  · have hall : escaped.all unescapes = true := by decide +kernel
    have hunescapes := List.all_eq_true.1 hall c h
    unfold unescapes at hunescapes
    split at hunescapes
    next short hescape =>
      simp only [Bool.and_eq_true, ne_eq, decide_eq_true_eq] at hunescapes
      obtain ⟨hne, hlookup⟩ := hunescapes
      rw [hescape]
      simp only [List.cons_append, List.nil_append]
      rw [scanString]
      · simp only [hlookup]
      · rintro _ _ _ _ _ heq
        exact absurd heq hne
    next a b d e hescape =>
      simp only [Bool.and_eq_true, decide_eq_true_eq] at hunescapes
      obtain ⟨hunit, hlt⟩ := hunescapes
      have hpoint : codePoint c.toNat = .scalar c := by
        rw [codePoint, dif_neg (by omega), Char.ofNat_toNat]
      rw [hescape]
      simp only [List.cons_append, List.nil_append]
      rw [scanString, hunit]
      simp only [bind, Except.bind]
      rw [if_neg (by omega), hpoint]
    next => cases hunescapes
  · have hquote : c ≠ '"' := by
      rintro rfl
      exact h (by decide)
    have hbackslash : c ≠ '\\' := by
      rintro rfl
      exact h (by decide)
    have hcontrol : ¬c.toNat < 0x20 := by
      intro hlt
      refine h (List.mem_cons_of_mem _ (List.mem_cons_of_mem _ ?_))
      exact List.mem_map.2 ⟨c.toNat, List.mem_range.2 hlt, Char.ofNat_toNat c⟩
    rw [escape_of_notMem h, List.singleton_append]
    rw [scanString]
    · rw [if_neg hcontrol]
    · exact hquote
    · rintro _ _ _ _ _ rfl
      exact absurd rfl hbackslash
    · rintro _ _ rfl
      exact absurd rfl hbackslash

theorem scanString_flatMap (chars rest : List Char) :
    scanString (chars.flatMap escape ++ '"' :: rest) = .ok (ofChars chars, rest) := by
  induction chars with
  | nil => rfl
  | cons c chars ih =>
    rw [List.flatMap_cons, List.append_assoc, scanString_escape, ih]
    rfl

/-! ## Values -/

/-- The value a tree is read as. -/
inductive ReadsAs : Tree → Value → Prop where
  | null : ReadsAs .null .none
  | bool (b : Bool) : ReadsAs (.bool b) (.bool b)
  | number {width : ℕ} {parts : NumberParts} {value : Value} (written : parts.Written)
      (h : parseNumber parts = .ok value) : ReadsAs (.number (parts.token width)) value
  | string (chars : List Char) : ReadsAs (.string chars) (.str (ofChars chars))
  | array {items : List (Tree × Value)} (h : ∀ p ∈ items, ReadsAs p.1 p.2) :
      ReadsAs (.array (items.map Prod.fst)) (.sequence (items.map Prod.snd))
  | object {members : List (List Char × Tree × Value)} (nodup : (members.map Prod.fst).Nodup)
      (h : ∀ m ∈ members, ReadsAs m.2.1 m.2.2) :
      ReadsAs (.object (members.map fun m => (m.1, m.2.1)))
        (.mapping (members.map fun m => withName (m.1, m.2.2)))

theorem skipSpace_cons {c : Char} (h : isSpace c = false) (text : List Char) :
    skipSpace (c :: text) = c :: text :=
  List.dropWhile_cons_of_neg (by simp [h])

theorem head_token {width : ℕ} {parts : NumberParts} (h : parts.Written) :
    ∃ c text, parts.token width = c :: text ∧ (c = '-' ∨ c.isDigit = true) := by
  rw [NumberParts.token]
  cases parts.negative with
  | true => exact ⟨'-', _, rfl, .inl rfl⟩
  | false =>
    cases hinteger : parts.integer with
    | nil => exact absurd hinteger h.ne_nil
    | cons c digits => exact ⟨c, _, rfl, .inr (h.isDigit c (hinteger ▸ List.mem_cons_self))⟩

/-- A written tree starts with neither space nor a closing bracket. -/
theorem ReadsAs.head {t : Tree} {v : Value} (h : ReadsAs t v) :
    ∃ c text, render escape t = c :: text ∧ isSpace c = false ∧ c ≠ ']' ∧ c ≠ '\x7d' ∧
      c ≠ '\uFEFF' := by
  cases h with
  | null => exact ⟨_, _, rfl, by decide⟩
  | bool b => cases b <;> exact ⟨_, _, rfl, by decide⟩
  | number written h =>
    obtain ⟨c, text, htoken, hc⟩ := head_token written
    refine ⟨c, text, htoken, ?_⟩
    rcases hc with rfl | hc
    · decide
    · refine ⟨?_, ?_⟩
      · simp only [isSpace, Bool.or_eq_false_iff, decide_eq_false_iff_not]
        refine ⟨⟨⟨?_, ?_⟩, ?_⟩, ?_⟩ <;> rintro rfl <;> cases hc
      · refine ⟨?_, ?_, ?_⟩ <;> rintro rfl <;> cases hc
  | string chars => exact ⟨_, _, rfl, by decide⟩
  | array h => exact ⟨_, _, rfl, by decide⟩
  | object nodup h => exact ⟨_, _, rfl, by decide⟩

theorem stops_follow {closing : Char} (h : closing = ']' ∨ closing = '\x7d') (r : List Char)
    (texts : List (List Char)) : Stops (follow closing r texts) := by
  intro c hc
  cases texts with
  | nil =>
    cases hc
    exact .inr h
  | cons text texts =>
    cases hc
    exact .inl rfl

section Scan

variable {scan : List Char → Except ParseError (Value × List Char)} {fuel : ℕ} {rest : List Char}

/-- The scan reads a tree, whatever follows it, in texts shorter than its fuel. -/
def ScansTree (scan : List Char → Except ParseError (Value × List Char)) (fuel : ℕ)
    (p : Tree × Value) : Prop :=
  ∀ rest, Stops rest → (render escape p.1 ++ rest).length < fuel →
    scan (render escape p.1 ++ rest) = .ok (p.2, rest)

theorem scanItems_follow {p : Tree × Value} {items : List (Tree × Value)} {bound : ℕ}
    (h : ∀ q ∈ p :: items, ReadsAs q.1 q.2 ∧ ScansTree scan fuel q)
    (hfuel : (render escape p.1 ++ follow ']' rest (items.map fun q => render escape q.1)).length < fuel)
    (hbound : items.length < bound) :
    scanItems scan bound
        (render escape p.1 ++ follow ']' rest (items.map fun q => render escape q.1)) =
      .ok (p.2 :: items.map Prod.snd, rest) := by
  induction items generalizing p bound with
  | nil =>
    cases bound with
    | zero => exact absurd hbound (Nat.not_lt_zero _)
    | succ bound =>
      rw [scanItems, (h p List.mem_cons_self).2 _ (stops_follow (.inl rfl) _ _) hfuel]
      rfl
  | cons q items ih =>
    cases bound with
    | zero => exact absurd hbound (Nat.not_lt_zero _)
    | succ bound =>
      obtain ⟨c, text, hhead, hspace, -⟩ := (h q (by simp)).1.head
      have hskip : ∀ r, skipSpace (render escape q.1 ++ r) = render escape q.1 ++ r := by
        intro r
        rw [hhead, List.cons_append, skipSpace_cons hspace]
      rw [scanItems, (h p List.mem_cons_self).2 _ (stops_follow (.inl rfl) _ _) hfuel]
      simp only [List.map_cons, follow, bind, Except.bind, skipSpace_cons (show isSpace ',' = false from rfl),
        hskip]
      rw [ih (fun r hr => h r (List.mem_cons_of_mem _ hr))]
      · rfl
      · simp only [List.map_cons, follow, List.length_append, List.length_cons] at hfuel ⊢
        omega
      · simpa using hbound

def memberText (m : List Char × Tree × Value) : List Char :=
  quoted escape m.1 ++ ':' :: render escape m.2.1

theorem memberText_append (m : List Char × Tree × Value) (r : List Char) :
    memberText m ++ r =
      '"' :: (m.1.flatMap escape ++ '"' :: (':' :: (render escape m.2.1 ++ r))) := by
  simp [memberText, quoted]

theorem scanMembers_member {m : List Char × Tree × Value} {r : List Char} {bound : ℕ}
    (h : ReadsAs m.2.1 m.2.2 ∧ ScansTree scan fuel m.2) (hr : Stops r)
    (hfuel : (memberText m ++ r).length < fuel) :
    (∀ rest, r = '\x7d' :: rest →
      scanMembers scan (bound + 1) (memberText m ++ r) = .ok ([(ofChars m.1, m.2.2)], rest)) ∧
    ∀ rest, r = ',' :: rest →
      scanMembers scan (bound + 1) (memberText m ++ r) =
        scanMembers scan bound (skipSpace rest) >>= fun p =>
          pure ((ofChars m.1, m.2.2) :: p.1, p.2) := by
  obtain ⟨c, text, hhead, hspace, -⟩ := h.1.head
  have hskip : skipSpace (render escape m.2.1 ++ r) = render escape m.2.1 ++ r := by
    rw [hhead, List.cons_append, skipSpace_cons hspace]
  have hlt : (render escape m.2.1 ++ r).length < fuel := by
    rw [memberText_append] at hfuel
    simp only [List.length_cons, List.length_append] at hfuel ⊢
    omega
  rw [memberText_append, scanMembers, scanString_flatMap]
  simp only [bind, Except.bind, skipSpace_cons (show isSpace ':' = false from rfl), hskip]
  rw [h.2 r hr hlt]
  constructor
  · rintro rest rfl
    rfl
  · rintro rest rfl
    rfl

theorem scanMembers_follow {m : List Char × Tree × Value} {members : List (List Char × Tree × Value)}
    {bound : ℕ} (h : ∀ k ∈ m :: members, ReadsAs k.2.1 k.2.2 ∧ ScansTree scan fuel k.2)
    (hfuel : (memberText m ++ follow '\x7d' rest (members.map memberText)).length < fuel)
    (hbound : members.length < bound) :
    scanMembers scan bound (memberText m ++ follow '\x7d' rest (members.map memberText)) =
      .ok ((m :: members).map fun k => (ofChars k.1, k.2.2), rest) := by
  induction members generalizing m bound with
  | nil =>
    cases bound with
    | zero => exact absurd hbound (Nat.not_lt_zero _)
    | succ bound =>
      exact (scanMembers_member (h m List.mem_cons_self) (stops_follow (.inr rfl) _ _) hfuel).1 _ rfl
  | cons k members ih =>
    cases bound with
    | zero => exact absurd hbound (Nat.not_lt_zero _)
    | succ bound =>
      have hskip : ∀ r, skipSpace (memberText k ++ r) = memberText k ++ r := by
        intro r
        rw [memberText_append, skipSpace_cons (show isSpace '"' = false from rfl)]
      rw [(scanMembers_member (h m List.mem_cons_self) (stops_follow (.inr rfl) _ _) hfuel).2 _ rfl,
        hskip, ih (fun r hr => h r (List.mem_cons_of_mem _ hr))]
      · rfl
      · simp only [List.map_cons, follow, List.length_append, List.length_cons] at hfuel ⊢
        omega
      · simpa using hbound

theorem rejectDuplicateMemberNames_ok {pairs : List (List Char × Value)} {seen : List Str}
    (nodup : (pairs.map Prod.fst).Nodup) (hseen : ∀ p ∈ pairs, ofChars p.1 ∉ seen) :
    rejectDuplicateMemberNames seen (pairs.map fun p => (ofChars p.1, p.2)) =
      .ok (pairs.map withName) := by
  induction pairs generalizing seen with
  | nil => rfl
  | cons p pairs ih =>
    rw [List.map_cons, List.nodup_cons] at nodup
    have hrest : ∀ q ∈ pairs, ofChars q.1 ∉ ofChars p.1 :: seen := by
      intro q hq hmem
      rcases List.mem_cons.1 hmem with heq | hmem
      · exact nodup.1 (ofChars_injective heq ▸ List.mem_map_of_mem hq)
      · exact hseen q (List.mem_cons_of_mem _ hq) hmem
    rw [List.map_cons, rejectDuplicateMemberNames, require, if_pos (hseen p List.mem_cons_self),
      ih nodup.2 hrest]
    rfl

end Scan

theorem length_lt_follow (closing : Char) (rest : List Char) (texts : List (List Char)) :
    texts.length < (follow closing rest texts).length := by
  induction texts with
  | nil => exact Nat.succ_pos _
  | cons text texts ih =>
    simp only [follow, List.length_cons, List.length_append]
    omega

theorem scanOnce_number {c : Char} (hc : c = '-' ∨ c.isDigit = true) (fuel : ℕ) (text : List Char) :
    scanOnce (fuel + 1) (c :: text) = scanNumber (c :: text) := by
  have hne : ∀ d : Char, (d = '-' ∨ d.isDigit = true) → d ≠ '"' ∧ d ≠ '\x7b' ∧ d ≠ '[' ∧ d ≠ 'n' ∧
      d ≠ 't' ∧ d ≠ 'f' := by
    intro d hd
    refine ⟨?_, ?_, ?_, ?_, ?_, ?_⟩ <;> rintro rfl <;> revert hd <;> decide
  obtain ⟨hquote, hbrace, hbracket, hn, ht, hf⟩ := hne c hc
  have hprefix : ∀ (d : Char) (l : List Char), c ≠ d → (d :: l).isPrefixOf (c :: text) = false := by
    intro d l hd
    simp [List.isPrefixOf, Ne.symm hd]
  have hnull : "null".toList.isPrefixOf (c :: text) = false := hprefix 'n' _ hn
  have htrue : "true".toList.isPrefixOf (c :: text) = false := hprefix 't' _ ht
  have hfalse : "false".toList.isPrefixOf (c :: text) = false := hprefix 'f' _ hf
  simp only [scanOnce, if_neg hquote, if_neg hbrace, if_neg hbracket, hnull, htrue, hfalse,
    Bool.false_eq_true, if_false]

theorem scanArray_start {scan : List Char → Except ParseError (Value × List Char)} {c : Char}
    (hspace : isSpace c = false) (hc : c ≠ ']') (text : List Char) :
    scanArray scan (c :: text) =
      scanItems scan ((c :: text).length + 1) (c :: text) >>= fun p => pure (.sequence p.1, p.2) := by
  unfold scanArray
  rw [skipSpace_cons hspace]
  split
  next rest heq => exact absurd (List.head_eq_of_cons_eq heq) hc
  next => rfl

theorem scanObject_start {scan : List Char → Except ParseError (Value × List Char)} {c : Char}
    (hspace : isSpace c = false) (hc : c ≠ '\x7d') (text : List Char) :
    scanObject scan (c :: text) =
      scanMembers scan ((c :: text).length + 1) (c :: text) >>= fun p =>
        rejectDuplicateMemberNames [] p.1 >>= fun members => pure (.mapping members, p.2) := by
  unfold scanObject
  rw [skipSpace_cons hspace]
  split
  next rest heq => exact absurd (List.head_eq_of_cons_eq heq) hc
  next => rfl

/-- A tree is read as its value, whatever follows it. -/
theorem scanOnce_render {t : Tree} {v : Value} (h : ReadsAs t v) (fuel : ℕ) :
    ScansTree (scanOnce fuel) fuel (t, v) := by
  induction h generalizing fuel with
  | null =>
    intro rest hrest hlt
    cases fuel with
    | zero => exact absurd hlt (Nat.not_lt_zero _)
    | succ fuel => rfl
  | bool b =>
    intro rest hrest hlt
    cases fuel with
    | zero => exact absurd hlt (Nat.not_lt_zero _)
    | succ fuel => cases b <;> rfl
  | @number width parts value written h =>
    intro rest hrest hlt
    cases fuel with
    | zero => exact absurd hlt (Nat.not_lt_zero _)
    | succ fuel =>
      have hnumber : matchNumber (parts.token width ++ rest) = some (parts, rest) :=
        matchNumber_token written hrest
      obtain ⟨c, text, htoken, hc⟩ : ∃ c text, parts.token width = c :: text ∧ (c = '-' ∨ c.isDigit = true) :=
        head_token written
      change scanOnce (fuel + 1) (parts.token width ++ rest) = _
      rw [htoken, List.cons_append] at hnumber ⊢
      rw [scanOnce_number hc, scanNumber, hnumber]
      simp only [h]
      rfl
  | string chars =>
    intro rest hrest hlt
    cases fuel with
    | zero => exact absurd hlt (Nat.not_lt_zero _)
    | succ fuel =>
      have hscan := scanString_flatMap chars rest
      simp only [render, quoted, List.cons_append, List.append_assoc, List.nil_append, scanOnce, if_true,
        hscan]
      rfl
  | @array items h ih =>
    intro rest hrest hlt
    cases fuel with
    | zero => exact absurd hlt (Nat.not_lt_zero _)
    | succ fuel =>
      rw [render, renderItems_eq, List.map_map] at hlt ⊢
      cases items with
      | nil => rfl
      | cons p items =>
        obtain ⟨c, text, hhead, hspace, hclose, -⟩ := (h p List.mem_cons_self).head
        rw [List.map_cons, bracketed_cons] at hlt ⊢
        change scanArray (scanOnce fuel) (render escape p.1 ++
          follow ']' rest (items.map fun q => render escape q.1)) = _
        rw [hhead, List.cons_append, scanArray_start hspace hclose, ← List.cons_append, ← hhead,
          scanItems_follow (fun q hq => ⟨h q hq, ih q hq fuel⟩) (Nat.lt_of_succ_lt_succ hlt)]
        · rfl
        · have hlength := length_lt_follow ']' rest
            (items.map fun q => render escape q.1)
          rw [List.length_map] at hlength
          rw [List.length_append]
          omega
  | @object members nodup h ih =>
    intro rest hrest hlt
    cases fuel with
    | zero => exact absurd hlt (Nat.not_lt_zero _)
    | succ fuel =>
      rw [render, renderMembers_eq, List.map_map] at hlt ⊢
      cases members with
      | nil => rfl
      | cons m members =>
        rw [List.map_cons, bracketed_cons] at hlt ⊢
        change scanObject (scanOnce fuel) (memberText m ++
          follow '\x7d' rest (members.map memberText)) = _
        have hhead := memberText_append m (follow '\x7d' rest (members.map memberText))
        rw [hhead, scanObject_start (by decide) (by decide), ← hhead,
          scanMembers_follow (fun k hk => ⟨h k hk, ih k hk fuel⟩) (Nat.lt_of_succ_lt_succ hlt)]
        · have hnames : ((m :: members).map fun k => (k.1, k.2.2)).map Prod.fst =
              (m :: members).map Prod.fst := List.map_map
          have hreject := rejectDuplicateMemberNames_ok (hnames.symm ▸ nodup)
            (fun _ _ => List.not_mem_nil)
          rw [List.map_map, List.map_map] at hreject
          change (rejectDuplicateMemberNames [] ((m :: members).map fun k => (ofChars k.1, k.2.2)) >>=
            fun named => pure (Value.mapping named, rest)) = _
          exact congrArg (· >>= fun named => pure (Value.mapping named, rest)) hreject
        · have hlength := length_lt_follow '\x7d' rest (members.map memberText)
          rw [List.length_map] at hlength
          rw [List.length_append]
          omega

theorem loads_render {t : Tree} {v : Value} (h : ReadsAs t v) :
    loads (render escape t) = .ok v := by
  obtain ⟨c, text, hhead, hspace, -, -, hmark⟩ := h.head
  have hscan := scanOnce_render h ((render escape t).length + 1) [] stops_nil (by simp)
  rw [List.append_nil] at hscan
  have hstart : (render escape t).head? ≠ some '\uFEFF' := by
    rw [hhead, List.head?_cons, ne_eq, Option.some.injEq]
    exact hmark
  have hskip : skipSpace (render escape t) = render escape t := by
    rw [hhead, skipSpace_cons hspace]
  rw [loads, require, if_pos hstart]
  simp only [bind, Except.bind, hskip, hscan]
  rfl

end OmniviaCore.CanonicalJson
