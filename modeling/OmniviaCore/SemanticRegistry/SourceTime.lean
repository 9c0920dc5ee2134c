import OmniviaCore.Knowledge.WallClocks
import OmniviaCore.Lib.Check

/-!
# Source times

`validate_source_timezone`, `_timezone_from_metadata` and `parse_source_time` of
`semantic_registry/temporal.py`. The time zone database and `datetime.fromisoformat` are parameters: a
lookup returns a zone, or raises one of the two exceptions that are documented or some other, and a text is
read or is a `ValueError`.
-/

namespace OmniviaCore.SemanticRegistry

open Lib
open Knowledge (TemporalInstant TemporalPrecision TemporalProvenance DateTime UtcOffset MINUTE DAY
  MAX_ORIGINAL_SOURCE_TEXT_CHARS truncate utcFields astimezoneUtc)

def MAX_SOURCE_TIMEZONE_CHARS : Nat := 255

/-- The codes of `SemanticErrorCode` raised here. -/
inductive TemporalErrorCode where
  | missingField
  | invalidField
  | unsupportedValue
  | temporalTimezoneIndeterminate
  deriving DecidableEq

/-- What `ZoneInfo(key)` and `timezone(offset)` raise. -/
inductive ZoneError where
  | zoneInfoNotFoundError
  | valueError
  | other (kind : String)

/-- What is raised: a `TemporalValidationError`, or what a time zone raises. -/
inductive SourceTimeError where
  | validation (code : TemporalErrorCode) (message : String)
  | zone (error : ZoneError)

/-- A `tzinfo`, as its `utcoffset`. -/
abbrev TimeZone := DateTime → UtcOffset

/-- What `datetime.fromisoformat` reads. -/
structure IsoTime where
  clock : DateTime
  utcoffset : Option UtcOffset

/-! ## Numeric offsets -/

/-- `[01][0-9]|2[0-3]`. -/
def isHour (tens ones : Char) : Bool :=
  ((tens == '0' || tens == '1') && ones.isDigit) || (tens == '2' && ['0', '1', '2', '3'].contains ones)

/-- `[0-5][0-9]`. -/
def isMinute (tens ones : Char) : Bool :=
  ['0', '1', '2', '3', '4', '5'].contains tens && ones.isDigit

/-- `(?::?[0-5][0-9])?`. -/
def isMinutePart : List Char → Bool
  | [] => true
  | [tens, ones] => isMinute tens ones
  | [':', tens, ones] => isMinute tens ones
  | _ => false

/-- `_NUMERIC_UTC_OFFSET.fullmatch`. -/
def fullmatchNumericOffset : List Char → Bool
  | sign :: tens :: ones :: rest => (sign == '+' || sign == '-') && isHour tens ones && isMinutePart rest
  | _ => false

/-- `_NUMERIC_UTC_OFFSET.match`, whose `$` also matches before a newline that ends the text. -/
def matchNumericOffset (value : List Char) : Bool :=
  fullmatchNumericOffset value || (value.getLast? == some '\n' && fullmatchNumericOffset value.dropLast)

/-- `_UTC_SPELLINGS`. -/
def UTC_SPELLINGS : List String := ["UTC", "utc", "Z", "z", "+00:00", "-00:00"]

/-- `UTC`. -/
def utcZone : TimeZone := fun _ => .zero

/-- `timezone(timedelta(microseconds=offset))`. -/
def fixedTimezone (offset : Int) : Except ZoneError TimeZone :=
  if h : -DAY < offset ∧ offset < DAY then .ok fun _ => ⟨offset, h.1, h.2⟩ else .error .valueError

/-! ## Time zones -/

section

variable (zoneInfo : String → Except ZoneError TimeZone)

def validateSourceTimezone (value : String) : Except SourceTimeError Unit :=
  if value = "" then
    .error (.validation .temporalTimezoneIndeterminate "source_timezone must be a non-empty string")
  else if MAX_SOURCE_TIMEZONE_CHARS < value.length then
    .error (.validation .invalidField
      ("source_timezone exceeds " ++ toString MAX_SOURCE_TIMEZONE_CHARS ++ " characters"))
  else if value ∈ UTC_SPELLINGS ∨ matchNumericOffset value.toList = true then .ok ()
  else
    match zoneInfo value with
    | .ok _ => .ok ()
    | .error (.other kind) => .error (.zone (.other kind))
    | .error _ =>
      .error (.validation .temporalTimezoneIndeterminate
        "source_timezone is not UTC, a numeric UTC offset or an IANA timezone")

/-- `_timezone_from_metadata`. -/
def timezoneFromMetadata (value : String) : Except SourceTimeError TimeZone :=
  if value ∈ UTC_SPELLINGS then .ok utcZone
  else if fullmatchNumericOffset value.toList then
    let sign : Int := if value.toList.head? = some '-' then -1 else 1
    let digits := (value.toList.drop 1).filter (· ≠ ':')
    let hours := digitsValue (digits.take 2)
    let minutes := if digits.length = 4 then digitsValue (digits.drop 2) else 0
    (fixedTimezone (sign * (hours * 60 + minutes : Nat) * MINUTE)).mapError .zone
  else (zoneInfo value).mapError .zone

/-- `f"{n:02d}"`. -/
def twoDigits (n : Nat) : List Char := (Nat.toDigits 10 n).leftpad 2 '0'

/-- `_explicit_timezone_metadata`. -/
def explicitTimezoneMetadata (sourceText : String) (offset : UtcOffset) : String :=
  if sourceText.toList.getLast? = some 'Z' ∨ sourceText.toList.getLast? = some 'z' then "UTC"
  else
    let totalMinutes := offset.microseconds / MINUTE
    let sign := if 0 ≤ totalMinutes then '+' else '-'
    String.ofList (sign :: (twoDigits (totalMinutes.natAbs / 60) ++
      ':' :: twoDigits (totalMinutes.natAbs % 60)))

/-! ## Instants -/

/-- `_truncate` of a `datetime`. -/
def truncateTime (value : DateTime) (precision : TemporalPrecision) : DateTime :=
  ⟨truncate value.fields precision, Knowledge.truncate_isDateTime value.valid precision⟩

/-- `canonical_utc`, where `parse_source_time` calls it. -/
def canonicalUtc (value : DateTime) (zone : TimeZone) (precision : TemporalPrecision) :
    Except SourceTimeError DateTime :=
  match astimezoneUtc value (zone value) with
  | .ok utc => .ok (truncateTime utc precision)
  | .error _ =>
    .error (.validation .unsupportedValue
      "source_text could not be normalised to the requested precision")

/-- The timezone that an instant records, `TemporalInstant.__post_init__` checks last. -/
def checkSourceTimezone : Option String → Except SourceTimeError Unit
  | none => .ok ()
  | some name => validateSourceTimezone zoneInfo name

/-- `TemporalInstant(...)` for a value in UTC. -/
def newTemporalInstant (value : DateTime) (precision : TemporalPrecision)
    (provenance : TemporalProvenance) (originalSourceText sourceTimezone : Option String) :
    Except SourceTimeError TemporalInstant :=
  if htruncated : truncate value.fields precision = value.fields then
    if hlength : ∀ text ∈ originalSourceText, text.length ≤ MAX_ORIGINAL_SOURCE_TEXT_CHARS then
      if hempty : ∀ text ∈ originalSourceText, text ≠ "" then
        if hsource : sourceTimezone.isSome = true → originalSourceText.isSome = true then
          (checkSourceTimezone zoneInfo sourceTimezone).map fun _ =>
            { value := value.fields
              precision
              provenance
              originalSourceText
              sourceTimezone
              calendar := ⟨value.valid.calendar, value.valid.year_le⟩
              truncated := htruncated
              originalSourceText_valid := fun text h => ⟨hempty text h, hlength text h⟩
              sourceTimezone_valid := hsource }
        else
          .error (.validation .invalidField
            "TemporalInstant.source_timezone requires original_source_text")
      else
        .error (.validation .invalidField "TemporalInstant.original_source_text must not be empty")
    else
      .error (.validation .invalidField
        ("TemporalInstant.original_source_text exceeds " ++
          toString MAX_ORIGINAL_SOURCE_TEXT_CHARS ++ " characters"))
  else
    .error (.validation .invalidField
      "TemporalInstant.value must already be truncated to its precision")

/-! ## `parse_source_time` -/

/-- `_SUB_DAY_PRECISIONS`. -/
def SUB_DAY_PRECISIONS : List TemporalPrecision := [.hour, .minute, .second]

/-- The zone that places a clock in UTC, the timezone that is recorded and the precision that is left. -/
def sourceZone (sourceText : String) (parsed : IsoTime) (trustedSourceTimezone : Option String)
    (precision : TemporalPrecision) :
    Except SourceTimeError (TimeZone × Option String × TemporalPrecision) :=
  match parsed.utcoffset, trustedSourceTimezone with
  | some offset, _ =>
    .ok (fun _ => offset, some (explicitTimezoneMetadata sourceText offset), precision)
  | none, some name => do
    validateSourceTimezone zoneInfo name
    let zone ← timezoneFromMetadata zoneInfo name
    pure (zone, some name, precision)
  | none, none => .ok (utcZone, none, if precision ∈ SUB_DAY_PRECISIONS then .day else precision)

variable (fromisoformat : String → Option IsoTime)

def parseSourceTime (sourceText : String) (precision : TemporalPrecision)
    (trustedSourceTimezone : Option String) (provenance : TemporalProvenance) :
    Except SourceTimeError TemporalInstant :=
  if sourceText = "" then .error (.validation .missingField "source_text is required")
  else if MAX_ORIGINAL_SOURCE_TEXT_CHARS < sourceText.length then
    .error (.validation .invalidField
      ("source_text exceeds " ++ toString MAX_ORIGINAL_SOURCE_TEXT_CHARS ++ " characters"))
  else
    match fromisoformat sourceText with
    | none =>
      .error (.validation .invalidField "source_text is not a valid ISO 8601 datetime")
    | some parsed => do
      let (zone, sourceTimezone, precision) ←
        sourceZone zoneInfo sourceText parsed trustedSourceTimezone precision
      let canonical ← canonicalUtc parsed.clock zone precision
      newTemporalInstant zoneInfo canonical precision provenance (some sourceText) sourceTimezone

/-! ## What is read back -/

/-- The clock that a recorded text shows, placed in UTC by a recorded timezone. -/
def readAgain (sourceText sourceTimezone : String) (precision : TemporalPrecision) :
    Except SourceTimeError DateTime :=
  match fromisoformat sourceText with
  | none => .error (.validation .invalidField "source_text is not a valid ISO 8601 datetime")
  | some parsed => do
    let zone ← timezoneFromMetadata zoneInfo sourceTimezone
    canonicalUtc parsed.clock zone precision

def ReadsBack (instant : TemporalInstant) : Prop :=
  ∀ text ∈ instant.originalSourceText, ∀ name ∈ instant.sourceTimezone,
    (readAgain zoneInfo fromisoformat text name instant.precision).map DateTime.fields =
      .ok instant.value

/-- A value that reads back, or a `TemporalValidationError`. -/
def Settled : Except SourceTimeError TemporalInstant → Prop
  | .ok instant => ReadsBack zoneInfo fromisoformat instant
  | .error (.validation _ _) => True
  | .error (.zone _) => False

/-- A numeric offset and a newline, which the database does not have. -/
def Unresolved (value : String) : Prop :=
  value.toList.getLast? = some '\n' ∧ fullmatchNumericOffset value.toList.dropLast = true ∧
    ∀ zone, zoneInfo value ≠ .ok zone

/-- A name that is looked up, with an exception that is not caught. -/
def Uncaught (value : String) : Prop :=
  value ≠ "" ∧ value.length ≤ MAX_SOURCE_TIMEZONE_CHARS ∧ value ∉ UTC_SPELLINGS ∧
    matchNumericOffset value.toList = false ∧ ∃ kind, zoneInfo value = .error (.other kind)

/-- An explicit offset that is refused, or that its whole minutes stand for: it exceeds them by no more
microseconds than the clock is past its second. -/
def WholeMinutes (parsed : IsoTime) (offset : UtcOffset) : Prop :=
  offset.microseconds < MINUTE - DAY ∨ (∃ e, utcFields parsed.clock.fields offset = .error e) ∨
    offset.microseconds % MINUTE ≤ parsed.clock.fields.microsecond

/-- The texts and trusted timezones with which nothing goes wrong. -/
def SoundSource (sourceText : String) (trustedSourceTimezone : Option String) : Prop :=
  sourceText ≠ "" → sourceText.length ≤ MAX_ORIGINAL_SOURCE_TEXT_CHARS →
    ∀ parsed ∈ fromisoformat sourceText,
      (∀ offset ∈ parsed.utcoffset, WholeMinutes parsed offset) ∧
      (parsed.utcoffset = none → ∀ name ∈ trustedSourceTimezone,
        ¬ Unresolved zoneInfo name ∧ ¬ Uncaught zoneInfo name)

end

end OmniviaCore.SemanticRegistry
