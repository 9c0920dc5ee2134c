import OmniviaCore.SemanticRegistry.SourceTime

/-!
# Source timezones

Whether what `validate_source_timezone` accepts is resolved, and whether what `parse_source_time` records
reads back (`source_timezones_agree_iff`). Two slips stand in the way: the `$` of the pattern accepts a
numeric offset with a newline behind it, which `fullmatch` then sends to the time zone database, and an
explicit offset is recorded rounded down to whole minutes.
-/

namespace OmniviaCore.SemanticRegistry

open Lib
open Knowledge (TemporalInstant TemporalPrecision TemporalProvenance DateTime UtcOffset MINUTE DAY
  MAX_ORIGINAL_SOURCE_TEXT_CHARS truncate utcFields astimezoneUtc)

/-! ## Numeric offsets -/

theorem isDigit_bounds {c : Char} (h : c.isDigit = true) : 48 ≤ c.toNat ∧ c.toNat ≤ 57 := by
  simpa [Char.isDigit, UInt32.le_iff_toNat_le] using h

theorem digitsValue_pair (tens ones : Char) :
    digitsValue [tens, ones] = 10 * (tens.toNat - 48) + (ones.toNat - 48) := by
  simp [digitsValue]

theorem isHour_le {tens ones : Char} (h : isHour tens ones = true) : digitsValue [tens, ones] ≤ 23 := by
  simp only [isHour, Bool.or_eq_true, Bool.and_eq_true, beq_iff_eq] at h
  rw [digitsValue_pair]
  rcases h with ⟨htens, hones⟩ | ⟨rfl, hones⟩
  · have hbounds := isDigit_bounds hones
    rcases htens with rfl | rfl
    · have : ('0' : Char).toNat = 48 := rfl
      omega
    · have : ('1' : Char).toNat = 49 := rfl
      omega
  · simp only [List.contains_cons, List.contains_nil, Bool.or_eq_true, beq_iff_eq, Bool.or_false] at hones
    rcases hones with rfl | rfl | rfl | rfl <;> decide

theorem isMinute_le {tens ones : Char} (h : isMinute tens ones = true) :
    digitsValue [tens, ones] ≤ 59 := by
  simp only [isMinute, Bool.and_eq_true, List.contains_cons, List.contains_nil, Bool.or_eq_true,
    beq_iff_eq, Bool.or_false] at h
  obtain ⟨htens, hones⟩ := h
  have hbounds := isDigit_bounds hones
  rw [digitsValue_pair]
  have hle : tens.toNat ≤ 53 := by
    rcases htens with rfl | rfl | rfl | rfl | rfl | rfl <;> decide
  omega

theorem fullmatch_cases {chars : List Char} (h : fullmatchNumericOffset chars = true) :
    ∃ sign tens ones rest, chars = sign :: tens :: ones :: rest ∧ isHour tens ones = true ∧
      (rest = [] ∨ ∃ tens' ones', isMinute tens' ones' = true ∧
        (rest = [tens', ones'] ∨ rest = [':', tens', ones'])) := by
  match chars with
  | [] => cases h
  | [_] => cases h
  | [_, _] => cases h
  | sign :: tens :: ones :: rest =>
    simp only [fullmatchNumericOffset, Bool.and_eq_true] at h
    refine ⟨sign, tens, ones, rest, rfl, h.1.2, ?_⟩
    have hrest := h.2
    unfold isMinutePart at hrest
    split at hrest
    · exact .inl rfl
    · exact .inr ⟨_, _, hrest, .inl rfl⟩
    · exact .inr ⟨_, _, hrest, .inr rfl⟩
    · cases hrest

theorem isDigit_of_isHour {tens ones : Char} (h : isHour tens ones = true) :
    tens.isDigit = true ∧ ones.isDigit = true := by
  simp only [isHour, Bool.or_eq_true, Bool.and_eq_true, beq_iff_eq] at h
  rcases h with ⟨htens, hones⟩ | ⟨rfl, hones⟩
  · exact ⟨by rcases htens with rfl | rfl <;> rfl, hones⟩
  · simp only [List.contains_cons, List.contains_nil, Bool.or_eq_true, beq_iff_eq, Bool.or_false] at hones
    exact ⟨rfl, by rcases hones with rfl | rfl | rfl | rfl <;> rfl⟩

theorem isDigit_of_isMinute {tens ones : Char} (h : isMinute tens ones = true) :
    tens.isDigit = true ∧ ones.isDigit = true := by
  simp only [isMinute, Bool.and_eq_true, List.contains_cons, List.contains_nil, Bool.or_eq_true,
    beq_iff_eq, Bool.or_false] at h
  exact ⟨by rcases h.1 with rfl | rfl | rfl | rfl | rfl | rfl <;> rfl, h.2⟩

theorem ne_of_isDigit {c d : Char} (h : c.isDigit = true) (hd : d.isDigit = false) : c ≠ d := by
  rintro rfl
  rw [h] at hd
  cases hd

theorem fullmatch_shape {chars : List Char} (h : fullmatchNumericOffset chars = true) :
    chars.getLast? ≠ some '\n' ∧ chars.length ≤ 6 ∧ chars ≠ [] := by
  obtain ⟨sign, tens, ones, rest, rfl, hhour, hrest⟩ := fullmatch_cases h
  have hones : ones ≠ '\n' := ne_of_isDigit (isDigit_of_isHour hhour).2 rfl
  rcases hrest with rfl | ⟨tens', ones', hminute, rfl | rfl⟩
  · simpa using hones
  · have hones' : ones' ≠ '\n' := ne_of_isDigit (isDigit_of_isMinute hminute).2 rfl
    simpa using hones'
  · have hones' : ones' ≠ '\n' := ne_of_isDigit (isDigit_of_isMinute hminute).2 rfl
    simpa using hones'

/-- The hours and the minutes of a numeric offset are less than a day. -/
theorem fullmatch_lt {chars : List Char} (h : fullmatchNumericOffset chars = true) :
    digitsValue (((chars.drop 1).filter (· ≠ ':')).take 2) * 60 +
      (if ((chars.drop 1).filter (· ≠ ':')).length = 4 then
        digitsValue (((chars.drop 1).filter (· ≠ ':')).drop 2) else 0) < 1440 := by
  obtain ⟨sign, tens, ones, rest, rfl, hhour, hrest⟩ := fullmatch_cases h
  have hle := isHour_le hhour
  have htens : tens ≠ ':' := ne_of_isDigit (isDigit_of_isHour hhour).1 rfl
  have hones : ones ≠ ':' := ne_of_isDigit (isDigit_of_isHour hhour).2 rfl
  rcases hrest with rfl | ⟨tens', ones', hminute, hrest⟩
  · simp only [List.drop_succ_cons, List.drop_zero, List.filter_cons, htens, hones, ne_eq,
      not_false_eq_true, decide_true, if_true, List.filter_nil, List.take_succ_cons, List.take_zero,
      List.length_cons, List.length_nil]
    rw [if_neg (by decide)]
    omega
  · have hle' := isMinute_le hminute
    have htens' : tens' ≠ ':' := ne_of_isDigit (isDigit_of_isMinute hminute).1 rfl
    have hones' : ones' ≠ ':' := ne_of_isDigit (isDigit_of_isMinute hminute).2 rfl
    have hdigits : ((sign :: tens :: ones :: rest).drop 1).filter (· ≠ ':') =
        [tens, ones, tens', ones'] := by
      rcases hrest with rfl | rfl <;> simp [htens, hones, htens', hones']
    rw [hdigits]
    simp only [List.take_succ_cons, List.take_zero, List.length_cons, List.length_nil, if_true,
      List.drop_succ_cons, List.drop_zero]
    omega

/-! ## What is accepted is resolved -/

section

variable {zoneInfo : String → Except ZoneError TimeZone} {value : String}

theorem fixedTimezone_eq_ok {offset : Int} (h : -DAY < offset ∧ offset < DAY) :
    fixedTimezone offset = .ok fun _ => ⟨offset, h.1, h.2⟩ :=
  dif_pos h

theorem resolves_of_fullmatch (h : fullmatchNumericOffset value.toList = true) :
    ∃ zone, timezoneFromMetadata zoneInfo value = .ok zone := by
  have hlt := fullmatch_lt h
  unfold timezoneFromMetadata
  by_cases hutc : value ∈ UTC_SPELLINGS
  · exact ⟨_, if_pos hutc⟩
  · rw [if_neg hutc, if_pos h]
    dsimp only
    have hbounds : ∀ n : Nat, n < 1440 → ∀ sign : Int, sign = -1 ∨ sign = 1 →
        -DAY < sign * (n : Int) * MINUTE ∧ sign * (n : Int) * MINUTE < DAY := by
      intro n hn sign hsign
      unfold DAY MINUTE
      rcases hsign with rfl | rfl <;> omega
    rw [fixedTimezone_eq_ok (hbounds _ hlt _ (by split <;> simp))]
    exact ⟨_, rfl⟩

theorem resolves_of_lookup {zone : TimeZone} (h : zoneInfo value = .ok zone) :
    ∃ zone, timezoneFromMetadata zoneInfo value = .ok zone := by
  by_cases hutc : value ∈ UTC_SPELLINGS
  · exact ⟨_, if_pos hutc⟩
  · by_cases hfull : fullmatchNumericOffset value.toList = true
    · exact resolves_of_fullmatch hfull
    · exact ⟨zone, by rw [timezoneFromMetadata, if_neg hutc, if_neg hfull, h]; rfl⟩

variable (zoneInfo) in
/-- A numeric offset with a newline behind it is accepted, and looked up when it is resolved. -/
theorem newline_cases (hlast : value.toList.getLast? = some '\n')
    (hfull : fullmatchNumericOffset value.toList.dropLast = true) :
    validateSourceTimezone zoneInfo value = .ok () ∧
      timezoneFromMetadata zoneInfo value = (zoneInfo value).mapError .zone := by
  have hnotfull : ¬ fullmatchNumericOffset value.toList = true := fun h => (fullmatch_shape h).1 hlast
  have hutc : value ∉ UTC_SPELLINGS := by
    intro hmem
    have hnone : ∀ spelling ∈ UTC_SPELLINGS, spelling.toList.getLast? ≠ some '\n' := by decide
    exact hnone value hmem hlast
  have hlength := (fullmatch_shape hfull).2.1
  rw [List.length_dropLast, String.length_toList] at hlength
  have hne : value ≠ "" := by
    rintro rfl
    simp at hlast
  have hmatch : matchNumericOffset value.toList = true := by simp [matchNumericOffset, hlast, hfull]
  have hshort : ¬ MAX_SOURCE_TIMEZONE_CHARS < value.length := by
    unfold MAX_SOURCE_TIMEZONE_CHARS
    omega
  exact ⟨by rw [validateSourceTimezone, if_neg hne, if_neg hshort, if_pos (.inr hmatch)],
    by rw [timezoneFromMetadata, if_neg hutc, if_neg hnotfull]⟩

/-- Validation and resolution accept the same names, except for the newline. -/
theorem accepted_resolves_iff :
    (validateSourceTimezone zoneInfo value = .ok () →
      ∃ zone, timezoneFromMetadata zoneInfo value = .ok zone) ↔ ¬ Unresolved zoneInfo value := by
  constructor
  · intro h ⟨hlast, hfull, hmissing⟩
    obtain ⟨haccepted, hlookup⟩ := newline_cases zoneInfo hlast hfull
    obtain ⟨zone, hzone⟩ := h haccepted
    rw [hlookup] at hzone
    cases hfound : zoneInfo value with
    | ok zone => exact hmissing zone hfound
    | error e => rw [hfound] at hzone; cases hzone
  · intro hresolved haccepted
    unfold validateSourceTimezone at haccepted
    split at haccepted
    · cases haccepted
    · split at haccepted
      · cases haccepted
      · split at haccepted
        · next hspelled =>
          rcases hspelled with hutc | hmatch
          · exact ⟨_, if_pos hutc⟩
          · simp only [matchNumericOffset, Bool.or_eq_true, Bool.and_eq_true, beq_iff_eq] at hmatch
            rcases hmatch with hfull | ⟨hlast, hfull⟩
            · exact resolves_of_fullmatch hfull
            · have hfound : ∃ zone, zoneInfo value = .ok zone := by
                by_contra hmissing
                exact hresolved ⟨hlast, hfull, fun zone hzone => hmissing ⟨zone, hzone⟩⟩
              exact resolves_of_lookup hfound.choose_spec
        · split at haccepted
          · next zone hfound => exact resolves_of_lookup hfound
          · cases haccepted
          · cases haccepted

/-- What validation raises is a `TemporalValidationError`, unless the lookup raises something else. -/
theorem validate_cases (h : ¬ Uncaught zoneInfo value) :
    validateSourceTimezone zoneInfo value = .ok () ∨
      ∃ code message, validateSourceTimezone zoneInfo value = .error (.validation code message) := by
  unfold validateSourceTimezone
  split
  · exact .inr ⟨_, _, rfl⟩
  · next hne =>
    split
    · exact .inr ⟨_, _, rfl⟩
    · next hshort =>
      split
      · exact .inl rfl
      · next hspelled =>
        split
        · exact .inl rfl
        · next kind hlookup =>
          rw [not_or] at hspelled
          exact absurd ⟨hne, by omega, hspelled.1, by simpa using hspelled.2, kind, hlookup⟩ h
        · exact .inr ⟨_, _, rfl⟩

theorem validate_of_uncaught (h : Uncaught zoneInfo value) :
    ∃ kind, validateSourceTimezone zoneInfo value = .error (.zone (.other kind)) := by
  obtain ⟨hne, hshort, hutc, hmatch, kind, hlookup⟩ := h
  refine ⟨kind, ?_⟩
  rw [validateSourceTimezone, if_neg hne, if_neg (by omega), if_neg (by simp [hutc, hmatch])]
  simp only [hlookup]

end

/-! ## What is recorded of an explicit offset -/

section

variable {zoneInfo : String → Except ZoneError TimeZone} {sourceText : String} {offset : UtcOffset}

theorem twoDigits_eq {n : Nat} (h : n < 60) :
    twoDigits n = [Nat.digitChar (n / 10), Nat.digitChar (n % 10)] := by
  have hall : ∀ n < 60, twoDigits n = [Nat.digitChar (n / 10), Nat.digitChar (n % 10)] := by decide
  exact hall n h

theorem isHour_digitChar {n : Nat} (h : n < 24) :
    isHour (Nat.digitChar (n / 10)) (Nat.digitChar (n % 10)) = true := by
  have hall : ∀ n < 24, isHour (Nat.digitChar (n / 10)) (Nat.digitChar (n % 10)) = true := by decide
  exact hall n h

theorem isMinute_digitChar {n : Nat} (h : n < 60) :
    isMinute (Nat.digitChar (n / 10)) (Nat.digitChar (n % 10)) = true := by
  have hall : ∀ n < 60, isMinute (Nat.digitChar (n / 10)) (Nat.digitChar (n % 10)) = true := by decide
  exact hall n h

theorem digitsValue_digitChar {n : Nat} (h : n < 60) :
    digitsValue [Nat.digitChar (n / 10), Nat.digitChar (n % 10)] = n := by
  have hall : ∀ n < 60, digitsValue [Nat.digitChar (n / 10), Nat.digitChar (n % 10)] = n := by decide
  exact hall n h

theorem toList_metadata (hz : ¬ (sourceText.toList.getLast? = some 'Z' ∨
      sourceText.toList.getLast? = some 'z')) (hge : MINUTE - DAY ≤ offset.microseconds) :
    ∃ hours minutes : Nat, hours < 24 ∧ minutes < 60 ∧
      (offset.microseconds / MINUTE).natAbs = hours * 60 + minutes ∧
      (explicitTimezoneMetadata sourceText offset).toList =
        (if 0 ≤ offset.microseconds / MINUTE then '+' else '-') ::
          [Nat.digitChar (hours / 10), Nat.digitChar (hours % 10), ':',
            Nat.digitChar (minutes / 10), Nat.digitChar (minutes % 10)] := by
  have hlt := offset.lt
  unfold MINUTE DAY at hge
  unfold DAY at hlt
  have hhours : (offset.microseconds / MINUTE).natAbs / 60 < 24 := by
    unfold MINUTE
    omega
  have hminutes : (offset.microseconds / MINUTE).natAbs % 60 < 60 := Nat.mod_lt _ (by decide)
  refine ⟨_, _, hhours, hminutes, by omega, ?_⟩
  rw [explicitTimezoneMetadata, if_neg hz]
  simp only [String.toList_ofList, twoDigits_eq (Nat.lt_trans hhours (by decide)),
    twoDigits_eq hminutes, List.cons_append, List.nil_append]

variable (zoneInfo) in
/-- What is recorded of an offset that is not refused is accepted, and resolves to its whole minutes. -/
theorem metadata_resolves (hzero : sourceText.toList.getLast? = some 'Z' ∨
      sourceText.toList.getLast? = some 'z' → offset.microseconds = 0)
    (hge : MINUTE - DAY ≤ offset.microseconds) :
    validateSourceTimezone zoneInfo (explicitTimezoneMetadata sourceText offset) = .ok () ∧
      ∃ whole : UtcOffset, whole.microseconds = offset.microseconds / MINUTE * MINUTE ∧
        timezoneFromMetadata zoneInfo (explicitTimezoneMetadata sourceText offset) =
          .ok fun _ => whole := by
  by_cases hz : sourceText.toList.getLast? = some 'Z' ∨ sourceText.toList.getLast? = some 'z'
  · have hutc : explicitTimezoneMetadata sourceText offset = "UTC" := if_pos hz
    rw [hutc, hzero hz]
    exact ⟨by rw [validateSourceTimezone, if_neg (by decide), if_neg (by decide), if_pos (by decide)],
      .zero, by decide, by rw [timezoneFromMetadata, if_pos (by decide)]; rfl⟩
  · obtain ⟨hours, minutes, hhours, hminutes, habs, hchars⟩ := toList_metadata hz hge
    have hhour := isHour_digitChar hhours
    have hminute := isMinute_digitChar hminutes
    have hvalue := digitsValue_digitChar (Nat.lt_trans hhours (by decide))
    have hvalue' := digitsValue_digitChar hminutes
    generalize Nat.digitChar (hours / 10) = tens at *
    generalize Nat.digitChar (hours % 10) = ones at *
    generalize Nat.digitChar (minutes / 10) = tens' at *
    generalize Nat.digitChar (minutes % 10) = ones' at *
    generalize explicitTimezoneMetadata sourceText offset = name at *
    have hfull : fullmatchNumericOffset name.toList = true := by
      rw [hchars]
      split <;> simp [fullmatchNumericOffset, isMinutePart, hhour, hminute]
    have hlength : name.length = 6 := by rw [← String.length_toList, hchars]; rfl
    have hne : name ≠ "" := by
      rintro rfl
      simp at hlength
    refine ⟨?_, ?_⟩
    · rw [validateSourceTimezone, if_neg hne, if_neg (by rw [hlength]; decide),
        if_pos (.inr (by rw [matchNumericOffset, hfull, Bool.true_or]))]
    · have htotal : (if 0 ≤ offset.microseconds / MINUTE then (1 : Int) else -1) *
          ((hours * 60 + minutes : Nat) : Int) = offset.microseconds / MINUTE := by
        split <;> omega
      have hbounds : -DAY < offset.microseconds / MINUTE * MINUTE ∧
          offset.microseconds / MINUTE * MINUTE < DAY := by
        have hlt := offset.lt
        unfold DAY at hlt hge ⊢
        unfold MINUTE at hge ⊢
        omega
      refine ⟨⟨_, hbounds.1, hbounds.2⟩, rfl, ?_⟩
      unfold timezoneFromMetadata
      by_cases hutc : name ∈ UTC_SPELLINGS
      · -- the only recorded spelling of UTC is that of no minutes at all
        have hnone : hours * 60 + minutes = 0 := by
          have hzeros : ∀ spelling ∈ UTC_SPELLINGS, spelling.length = 6 →
              spelling.toList.drop 1 = ['0', '0', ':', '0', '0'] := by decide
          have hdrop := hzeros name hutc hlength
          rw [hchars] at hdrop
          simp only [List.drop_succ_cons, List.drop_zero, List.cons.injEq, and_true, true_and] at hdrop
          obtain ⟨rfl, rfl, rfl, rfl⟩ := hdrop
          have hvalues : digitsValue ['0', '0'] = 0 := by decide
          omega
        rw [hnone, Nat.cast_zero, mul_zero] at htotal
        rw [if_pos hutc]
        simp only [← htotal, zero_mul]
        rfl
      · have hdigit := isDigit_of_isHour hhour
        have hdigit' := isDigit_of_isMinute hminute
        have hdigits : (name.toList.drop 1).filter (· ≠ ':') = [tens, ones, tens', ones'] := by
          rw [hchars]
          simp [ne_of_isDigit hdigit.1 (d := ':') rfl, ne_of_isDigit hdigit.2 (d := ':') rfl,
            ne_of_isDigit hdigit'.1 (d := ':') rfl, ne_of_isDigit hdigit'.2 (d := ':') rfl]
        have hsign : (if name.toList.head? = some '-' then (-1 : Int) else 1) =
            if 0 ≤ offset.microseconds / MINUTE then 1 else -1 := by
          rw [hchars]
          split <;> rfl
        rw [if_neg hutc, if_pos hfull]
        dsimp only
        rw [hdigits, hsign]
        simp only [List.take_succ_cons, List.take_zero, List.length_cons, List.length_nil, if_true,
          List.drop_succ_cons, List.drop_zero, hvalue, hvalue', htotal]
        rw [fixedTimezone_eq_ok hbounds]
        rfl

/-- An offset further than a day's whole minutes is recorded as none that is accepted. -/
theorem metadata_refused (hkey : zoneInfo "-24:00" = .error .zoneInfoNotFoundError)
    (hzero : sourceText.toList.getLast? = some 'Z' ∨ sourceText.toList.getLast? = some 'z' →
      offset.microseconds = 0) (hlt : offset.microseconds < MINUTE - DAY) :
    ∃ code message, validateSourceTimezone zoneInfo (explicitTimezoneMetadata sourceText offset) =
      .error (.validation code message) := by
  have hgt := offset.gt
  unfold MINUTE DAY at hlt
  unfold DAY at hgt
  have hz : ¬ (sourceText.toList.getLast? = some 'Z' ∨ sourceText.toList.getLast? = some 'z') := by
    intro h
    have := hzero h
    omega
  have htotal : offset.microseconds / MINUTE = -1440 := by
    unfold MINUTE
    omega
  have hname : explicitTimezoneMetadata sourceText offset = "-24:00" := by
    rw [explicitTimezoneMetadata, if_neg hz, htotal]
    decide
  refine ⟨.temporalTimezoneIndeterminate,
    "source_timezone is not UTC, a numeric UTC offset or an IANA timezone", ?_⟩
  rw [hname, validateSourceTimezone, if_neg (by decide), if_neg (by decide), if_neg (by decide), hkey]

/-- The whole minutes of an offset put a clock in its second of UTC when the clock is far enough into
the second. -/
theorem utcSecond_whole_iff {clock : DateTime} {whole : UtcOffset}
    (hwhole : whole.microseconds = offset.microseconds / MINUTE * MINUTE) :
    Knowledge.utcSecond clock.fields offset = Knowledge.utcSecond clock.fields whole ↔
      offset.microseconds % MINUTE ≤ clock.fields.microsecond := by
  have hmicrosecond := clock.valid.microsecond_lt
  unfold Knowledge.utcSecond Knowledge.timeOfDay
  rw [hwhole]
  unfold MINUTE
  omega

end

/-! ## `parse_source_time` -/

section

variable {zoneInfo : String → Except ZoneError TimeZone} {fromisoformat : String → Option IsoTime}
  {sourceText : String} {trustedSourceTimezone : Option String} {precision kept : TemporalPrecision}
  {provenance : TemporalProvenance} {parsed : IsoTime} {zone : TimeZone} {recorded : Option String}

theorem canonicalUtc_eq_ok {value utc : DateTime} :
    canonicalUtc value zone precision = .ok utc ↔
      ∃ fields, utcFields value.fields (zone value) = .ok fields ∧
        truncate fields precision = utc.fields := by
  have hfields := Knowledge.astimezoneUtc_map_fields value (zone value)
  unfold canonicalUtc
  cases hutc : astimezoneUtc value (zone value) with
  | error e =>
    rw [hutc] at hfields
    rw [← hfields]
    exact iff_of_false (fun h => by cases h) (fun ⟨_, h, _⟩ => by cases h)
  | ok time =>
    rw [hutc] at hfields
    rw [← hfields]
    constructor
    · intro h
      cases h
      exact ⟨time.fields, rfl, rfl⟩
    · rintro ⟨fields, h, htruncate⟩
      cases h
      exact congrArg Except.ok (DateTime.ext htruncate)

variable (zone precision) in
theorem canonicalUtc_of_fields {value : DateTime} {fields : Lib.Instant}
    (h : utcFields value.fields (zone value) = .ok fields) :
    ∃ utc, canonicalUtc value zone precision = .ok utc ∧ utc.fields = truncate fields precision :=
  ⟨truncateTime ⟨fields, Knowledge.utcFields_isDateTime value.valid h⟩ precision,
    canonicalUtc_eq_ok.2 ⟨fields, h, rfl⟩, rfl⟩

theorem canonicalUtc_error {value : DateTime} {e : SourceTimeError}
    (h : canonicalUtc value zone precision = .error e) : ∃ code message, e = .validation code message := by
  unfold canonicalUtc at h
  split at h
  · cases h
  · cases h
    exact ⟨_, _, rfl⟩

theorem readAgain_of_resolved {name : String} (hparsed : fromisoformat sourceText = some parsed)
    (hzone : timezoneFromMetadata zoneInfo name = .ok zone) :
    readAgain zoneInfo fromisoformat sourceText name precision =
      canonicalUtc parsed.clock zone precision := by
  simp only [readAgain, hparsed, hzone, ok_bind]

theorem newTemporalInstant_error {value : DateTime} {e : SourceTimeError} (hne : sourceText ≠ "")
    (hlength : sourceText.length ≤ MAX_ORIGINAL_SOURCE_TEXT_CHARS)
    (htruncated : truncate value.fields precision = value.fields)
    (hcheck : checkSourceTimezone zoneInfo recorded = .error e) :
    newTemporalInstant zoneInfo value precision provenance (some sourceText) recorded = .error e := by
  unfold newTemporalInstant
  rw [dif_pos htruncated, dif_pos (by simpa using hlength), dif_pos (by simpa using hne),
    dif_pos (fun _ => Option.isSome_some), hcheck]
  rfl

variable (provenance) in
theorem newTemporalInstant_ok {value : DateTime} (hne : sourceText ≠ "")
    (hlength : sourceText.length ≤ MAX_ORIGINAL_SOURCE_TEXT_CHARS)
    (htruncated : truncate value.fields precision = value.fields)
    (hcheck : checkSourceTimezone zoneInfo recorded = .ok ()) :
    ∃ instant, newTemporalInstant zoneInfo value precision provenance (some sourceText) recorded =
      .ok instant ∧ instant.value = value.fields ∧ instant.precision = precision ∧
        instant.originalSourceText = some sourceText ∧ instant.sourceTimezone = recorded := by
  unfold newTemporalInstant
  rw [dif_pos htruncated, dif_pos (by simpa using hlength), dif_pos (by simpa using hne),
    dif_pos (fun _ => Option.isSome_some), hcheck]
  exact ⟨_, rfl, rfl, rfl, rfl, rfl⟩

/-- A text that is read is placed by its zone, and an instant is made of it. -/
theorem parse_eq (hne : sourceText ≠ "") (hlength : sourceText.length ≤ MAX_ORIGINAL_SOURCE_TEXT_CHARS)
    (hparsed : fromisoformat sourceText = some parsed) :
    parseSourceTime zoneInfo fromisoformat sourceText precision trustedSourceTimezone provenance =
      (sourceZone zoneInfo sourceText parsed trustedSourceTimezone precision).bind fun found =>
        (canonicalUtc parsed.clock found.1 found.2.2).bind fun canonical =>
          newTemporalInstant zoneInfo canonical found.2.2 provenance (some sourceText) found.2.1 := by
  unfold parseSourceTime
  rw [if_neg hne, if_neg (by omega), hparsed]
  rfl

/-- A text that is placed with a timezone whose record is accepted is settled by what the record denotes. -/
theorem settled_iff (hne : sourceText ≠ "")
    (hlength : sourceText.length ≤ MAX_ORIGINAL_SOURCE_TEXT_CHARS)
    (hparsed : fromisoformat sourceText = some parsed)
    (hzone : sourceZone zoneInfo sourceText parsed trustedSourceTimezone precision =
      .ok (zone, recorded, kept))
    (hcheck : checkSourceTimezone zoneInfo recorded = .ok ()) :
    Settled zoneInfo fromisoformat
        (parseSourceTime zoneInfo fromisoformat sourceText precision trustedSourceTimezone
          provenance) ↔
      ∀ fields, utcFields parsed.clock.fields (zone parsed.clock) = .ok fields → ∀ name ∈ recorded,
        (readAgain zoneInfo fromisoformat sourceText name kept).map DateTime.fields =
          .ok (truncate fields kept) := by
  rw [parse_eq hne hlength hparsed, hzone]
  simp only [Except.bind]
  cases hcanonical : canonicalUtc parsed.clock zone kept with
  | error e =>
    obtain ⟨code, message, rfl⟩ := canonicalUtc_error hcanonical
    refine iff_of_true trivial fun fields hfields => ?_
    obtain ⟨utc, hutc, -⟩ := canonicalUtc_of_fields kept zone hfields
    rw [hcanonical] at hutc
    cases hutc
  | ok canonical =>
    obtain ⟨fields, hfields, htruncate⟩ := canonicalUtc_eq_ok.1 hcanonical
    have htruncated : truncate canonical.fields kept = canonical.fields := by
      rw [← htruncate, Knowledge.truncate_truncate]
    obtain ⟨instant, hinstant, hvalue, hprecision, htext, hname⟩ :=
      newTemporalInstant_ok provenance hne hlength htruncated hcheck
    simp only [hinstant, Settled, ReadsBack, hvalue, hprecision, htext, hname, Option.mem_def,
      Option.some.injEq, forall_eq', hfields, Except.ok.injEq, htruncate]

theorem settled_of_refused (hne : sourceText ≠ "")
    (hlength : sourceText.length ≤ MAX_ORIGINAL_SOURCE_TEXT_CHARS)
    (hparsed : fromisoformat sourceText = some parsed)
    (hzone : sourceZone zoneInfo sourceText parsed trustedSourceTimezone precision =
      .ok (zone, recorded, kept)) {code : TemporalErrorCode} {message : String}
    (hcheck : checkSourceTimezone zoneInfo recorded = .error (.validation code message)) :
    Settled zoneInfo fromisoformat
      (parseSourceTime zoneInfo fromisoformat sourceText precision trustedSourceTimezone
        provenance) := by
  rw [parse_eq hne hlength hparsed, hzone]
  simp only [Except.bind]
  cases hcanonical : canonicalUtc parsed.clock zone kept with
  | error e =>
    obtain ⟨code, message, rfl⟩ := canonicalUtc_error hcanonical
    trivial
  | ok canonical =>
    obtain ⟨fields, hfields, htruncate⟩ := canonicalUtc_eq_ok.1 hcanonical
    have htruncated : truncate canonical.fields kept = canonical.fields := by
      rw [← htruncate, Knowledge.truncate_truncate]
    simp only [newTemporalInstant_error hne hlength htruncated hcheck]
    trivial

/-- A text with an explicit offset is settled at every precision when whole minutes stand for it. -/
theorem explicit_settled_iff (hkey : zoneInfo "-24:00" = .error .zoneInfoNotFoundError)
    (hne : sourceText ≠ "") (hlength : sourceText.length ≤ MAX_ORIGINAL_SOURCE_TEXT_CHARS)
    (hparsed : fromisoformat sourceText = some parsed) {offset : UtcOffset}
    (hoffset : parsed.utcoffset = some offset)
    (hzero : sourceText.toList.getLast? = some 'Z' ∨ sourceText.toList.getLast? = some 'z' →
      offset.microseconds = 0) :
    (∀ precision provenance, Settled zoneInfo fromisoformat
      (parseSourceTime zoneInfo fromisoformat sourceText precision trustedSourceTimezone
        provenance)) ↔ WholeMinutes parsed offset := by
  have hzone : ∀ precision, sourceZone zoneInfo sourceText parsed trustedSourceTimezone precision =
      .ok (fun _ => offset, some (explicitTimezoneMetadata sourceText offset), precision) := by
    intro precision
    simp only [sourceZone, hoffset]
  by_cases hlt : offset.microseconds < MINUTE - DAY
  · obtain ⟨code, message, hcheck⟩ := metadata_refused hkey hzero hlt
    exact iff_of_true (fun precision provenance =>
      settled_of_refused hne hlength hparsed (hzone precision) hcheck) (.inl hlt)
  · obtain ⟨hcheck, whole, hwhole, hresolved⟩ :=
      metadata_resolves zoneInfo hzero (not_lt.1 hlt)
    have hread : ∀ precision fields,
        ((readAgain zoneInfo fromisoformat sourceText (explicitTimezoneMetadata sourceText offset)
          precision).map DateTime.fields = .ok (truncate fields precision) ↔
        ∃ other, utcFields parsed.clock.fields whole = .ok other ∧
          truncate other precision = truncate fields precision) := by
      intro precision fields
      rw [readAgain_of_resolved hparsed hresolved, except_map_eq_ok]
      constructor
      · rintro ⟨utc, hutc, hfields⟩
        obtain ⟨other, hother, htruncate⟩ := canonicalUtc_eq_ok.1 hutc
        exact ⟨other, hother, htruncate.trans hfields⟩
      · rintro ⟨other, hother, htruncate⟩
        obtain ⟨utc, hutc, hother⟩ := canonicalUtc_of_fields precision (fun _ => whole) hother
        exact ⟨utc, hutc, hother.trans htruncate⟩
    constructor
    · intro hsettled
      refine .inr ?_
      cases hfields : utcFields parsed.clock.fields offset with
      | error e => exact .inl ⟨e, rfl⟩
      | ok fields =>
        refine .inr ?_
        have hsecond := (settled_iff hne hlength hparsed (hzone .second) hcheck).1
          (hsettled .second .stated) fields hfields _ rfl
        obtain ⟨other, hother, htruncate⟩ := (hread .second fields).1 hsecond
        exact (utcSecond_whole_iff hwhole).1
          (Knowledge.same_second parsed.clock.valid hfields hother htruncate.symm)
    · intro hminutes precision provenance
      rw [settled_iff hne hlength hparsed (hzone precision) hcheck]
      rintro fields hfields name ⟨⟩
      rw [hread]
      rcases hminutes with hlt' | ⟨e, he⟩ | hle
      · exact absurd hlt' hlt
      · rw [hfields] at he
        cases he
      · have hcongr := Knowledge.truncate_utcFields_congr ((utcSecond_whole_iff hwhole).2 hle) precision
        rw [hfields] at hcongr
        exact except_map_eq_ok.1 hcongr.symm

/-- A text without an offset is settled when its trusted timezone is validated and resolved alike. -/
theorem trusted_settled_iff (hne : sourceText ≠ "")
    (hlength : sourceText.length ≤ MAX_ORIGINAL_SOURCE_TEXT_CHARS)
    (hparsed : fromisoformat sourceText = some parsed) (hoffset : parsed.utcoffset = none)
    {name : String} :
    (∀ precision provenance, Settled zoneInfo fromisoformat
      (parseSourceTime zoneInfo fromisoformat sourceText precision (some name) provenance)) ↔
      ¬ Unresolved zoneInfo name ∧ ¬ Uncaught zoneInfo name := by
  have hsource : ∀ precision, sourceZone zoneInfo sourceText parsed (some name) precision =
      (validateSourceTimezone zoneInfo name).bind fun _ =>
        (timezoneFromMetadata zoneInfo name).bind fun zone => .ok (zone, some name, precision) := by
    intro precision
    simp only [sourceZone, hoffset]
    rfl
  constructor
  · intro hsettled
    have hfirst := hsettled .second .stated
    rw [parse_eq hne hlength hparsed, hsource] at hfirst
    constructor
    · intro ⟨hlast, hfull, hmissing⟩
      obtain ⟨haccepted, hlookup⟩ := newline_cases zoneInfo hlast hfull
      rw [haccepted, hlookup] at hfirst
      cases hfound : zoneInfo name with
      | ok zone => exact hmissing zone hfound
      | error e =>
        rw [hfound] at hfirst
        exact hfirst
    · intro huncaught
      obtain ⟨kind, hraises⟩ := validate_of_uncaught huncaught
      rw [hraises] at hfirst
      exact hfirst
  · rintro ⟨hresolved, hcaught⟩ precision provenance
    rcases validate_cases hcaught with haccepted | ⟨code, message, hrefused⟩
    · obtain ⟨zone, hzone⟩ := accepted_resolves_iff.2 hresolved haccepted
      have hfound : sourceZone zoneInfo sourceText parsed (some name) precision =
          .ok (zone, some name, precision) := by
        rw [hsource, haccepted, hzone]
        rfl
      rw [settled_iff hne hlength hparsed hfound haccepted]
      rintro fields hfields _ ⟨⟩
      rw [readAgain_of_resolved hparsed hzone, except_map_eq_ok]
      exact canonicalUtc_of_fields precision zone hfields
    · rw [parse_eq hne hlength hparsed, hsource, hrefused]
      trivial

/-- What is accepted is resolved, unless it is a numeric offset and a newline that the database does not
have. A text and a trusted timezone give a value that reads back or a `TemporalValidationError`, at every
precision, unless the timezone is such an offset, or a name whose lookup raises another exception, or the
text has an offset that whole minutes do not stand for. The database has no `-24:00`, and a `Z` is read as
no offset. -/
theorem source_timezones_agree_iff (hkey : zoneInfo "-24:00" = .error .zoneInfoNotFoundError)
    (hzero : ∀ text parsed, fromisoformat text = some parsed →
      text.toList.getLast? = some 'Z' ∨ text.toList.getLast? = some 'z' →
      ∀ offset ∈ parsed.utcoffset, offset.microseconds = 0) :
    (∀ value, (validateSourceTimezone zoneInfo value = .ok () →
      ∃ zone, timezoneFromMetadata zoneInfo value = .ok zone) ↔ ¬ Unresolved zoneInfo value) ∧
    ∀ sourceText trustedSourceTimezone,
      (∀ precision provenance, Settled zoneInfo fromisoformat
        (parseSourceTime zoneInfo fromisoformat sourceText precision trustedSourceTimezone
          provenance)) ↔ SoundSource zoneInfo fromisoformat sourceText trustedSourceTimezone := by
  refine ⟨fun value => accepted_resolves_iff, fun sourceText trusted => ?_⟩
  unfold SoundSource
  by_cases hne : sourceText = ""
  · refine iff_of_true (fun precision provenance => ?_) fun h => absurd hne h
    rw [parseSourceTime, if_pos hne]
    trivial
  · by_cases hlength : sourceText.length ≤ MAX_ORIGINAL_SOURCE_TEXT_CHARS
    · cases hparsed : fromisoformat sourceText with
      | none =>
        refine iff_of_true (fun precision provenance => ?_) fun _ _ _ h => by cases h
        rw [parseSourceTime, if_neg hne, if_neg (by omega), hparsed]
        trivial
      | some parsed =>
        simp only [ne_eq, hne, not_false_eq_true, hlength, Option.mem_def, Option.some.injEq,
          forall_eq', forall_true_left]
        cases hoffset : parsed.utcoffset with
        | some offset =>
          rw [explicit_settled_iff hkey hne hlength hparsed hoffset
            fun hz => hzero sourceText parsed hparsed hz offset hoffset]
          simp
        | none =>
          cases trusted with
          | none =>
            refine iff_of_true (fun precision provenance => ?_) (by simp)
            have hzone : sourceZone zoneInfo sourceText parsed none precision =
                .ok (utcZone, none, if precision ∈ SUB_DAY_PRECISIONS then .day else precision) := by
              simp only [sourceZone, hoffset]
            rw [settled_iff hne hlength hparsed hzone rfl]
            intro fields _ name hname
            cases hname
          | some name =>
            rw [trusted_settled_iff hne hlength hparsed hoffset]
            simp
    · refine iff_of_true (fun precision provenance => ?_) fun _ h => absurd h hlength
      rw [parseSourceTime, if_neg hne, if_pos (by omega)]
      trivial

end

/-! ## One zone and two texts -/

/-- A database with the one zone `Etc/GMT-3`. -/
def zoneTable (key : String) : Except ZoneError TimeZone :=
  if key = "Etc/GMT-3" then .ok fun _ => ⟨10800000000, by decide, by decide⟩
  else .error .zoneInfoNotFoundError

/-- `datetime(2024, 5, 17, 9, 30)`. -/
def morning : DateTime := ⟨⟨2024, 5, 17, 9, 30, 0, 0⟩, by decide⟩

/-- The texts of one clock, without an offset and with one of half a minute. -/
def isoTexts (text : String) : Option IsoTime :=
  if text = "2024-05-17T09:30:00" then some ⟨morning, none⟩
  else if text = "2024-05-17T09:30:00+00:00:30" then
    some ⟨morning, some ⟨30000000, by decide, by decide⟩⟩
  else none

theorem isoTexts_zero (text : String) (parsed : IsoTime) (h : isoTexts text = some parsed)
    (hz : text.toList.getLast? = some 'Z' ∨ text.toList.getLast? = some 'z') :
    ∀ offset ∈ parsed.utcoffset, offset.microseconds = 0 := by
  unfold isoTexts at h
  split at h
  · next heq => exact absurd hz (by rw [heq]; decide)
  · split at h
    · next heq => exact absurd hz (by rw [heq]; decide)
    · cases h

theorem source_timezones_agree_table :
    Settled zoneTable isoTexts
      (parseSourceTime zoneTable isoTexts "2024-05-17T09:30:00" .second (some "Etc/GMT-3") .stated) := by
  have hkey : zoneTable "-24:00" = .error .zoneInfoNotFoundError := if_neg (by decide)
  have hclock : isoTexts "2024-05-17T09:30:00" = some ⟨morning, none⟩ := if_pos rfl
  have hsound : SoundSource zoneTable isoTexts "2024-05-17T09:30:00" (some "Etc/GMT-3") := by
    intro _ _ parsed hparsed
    obtain rfl := Option.some.inj (hclock.symm.trans hparsed)
    refine ⟨fun offset h => absurd h (Option.not_mem_none offset), ?_⟩
    rintro _ name ⟨⟩
    refine ⟨?_, ?_⟩
    · rintro ⟨hlast, -⟩
      exact absurd hlast (by decide)
    · rintro ⟨-, -, -, -, kind, hlookup⟩
      rw [zoneTable, if_pos rfl] at hlookup
      cases hlookup
  exact ((source_timezones_agree_iff hkey isoTexts_zero).2 _ _).2 hsound _ _

/-- The newline is accepted and not resolved, and escapes as what the lookup raises; half a minute is
recorded as no offset. -/
theorem recorded_offset_rounded :
    (validateSourceTimezone zoneTable "+05:00\n" = .ok () ∧
      timezoneFromMetadata zoneTable "+05:00\n" = .error (.zone .zoneInfoNotFoundError)) ∧
    parseSourceTime zoneTable isoTexts "2024-05-17T09:30:00" .second (some "+05:00\n") .stated =
      .error (.zone .zoneInfoNotFoundError) ∧
    ∃ instant, parseSourceTime zoneTable isoTexts "2024-05-17T09:30:00+00:00:30" .second none .stated =
        .ok instant ∧ instant.sourceTimezone = some "+00:00" ∧
      ¬ ReadsBack zoneTable isoTexts instant := by
  obtain ⟨haccepted, hlookup⟩ : validateSourceTimezone zoneTable "+05:00\n" = .ok () ∧
      timezoneFromMetadata zoneTable "+05:00\n" = (zoneTable "+05:00\n").mapError .zone :=
    newline_cases zoneTable (by decide) (by decide)
  refine ⟨⟨haccepted, hlookup⟩, rfl, ?_⟩
  have hmade : (parseSourceTime zoneTable isoTexts "2024-05-17T09:30:00+00:00:30" .second none
      .stated).toOption.map (fun instant => (instant.value, instant.precision,
        instant.originalSourceText, instant.sourceTimezone)) =
      some (⟨2024, 5, 17, 9, 29, 30, 0⟩, .second, some "2024-05-17T09:30:00+00:00:30",
        some "+00:00") := by decide +kernel
  have hread : (readAgain zoneTable isoTexts "2024-05-17T09:30:00+00:00:30" "+00:00"
      .second).toOption.map DateTime.fields = some ⟨2024, 5, 17, 9, 30, 0, 0⟩ := by decide +kernel
  cases hparse : parseSourceTime zoneTable isoTexts "2024-05-17T09:30:00+00:00:30" .second none
      .stated with
  | error e => rw [hparse] at hmade; cases hmade
  | ok instant =>
    rw [hparse] at hmade
    simp only [Except.toOption, Option.map_some, Option.some.injEq, Prod.mk.injEq] at hmade
    obtain ⟨hvalue, hprecision, htext, hname⟩ := hmade
    refine ⟨instant, rfl, hname, fun hback => ?_⟩
    have hsame := hback _ htext _ hname
    rw [hprecision, hvalue] at hsame
    obtain ⟨utc, hutc, hfields⟩ := except_map_eq_ok.1 hsame
    rw [hutc, Except.toOption, Option.map_some, hfields] at hread
    exact absurd hread (by decide)

end OmniviaCore.SemanticRegistry
