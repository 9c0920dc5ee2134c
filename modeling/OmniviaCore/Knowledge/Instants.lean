import OmniviaCore.Lib.Timestamp
import OmniviaCore.SemanticRegistry.Elements

/-!
# Temporal instants

`TemporalInstant` of `semantic_registry/temporal.py`: an instant of the UTC calendar truncated to one of
six precisions, with what its source said. `instantEnd` is the other bound of `_instant_bounds` of
`governed_knowledge/applicability.py`: the start one unit of the precision later, which the calendar has
unless the start is in its last unit. `replace` and `timedelta` raise there.

An instant may carry any `tzinfo` whose offset is zero at its value. The end of its interval is a wall time
of that `tzinfo`, and may have another offset, so the bounds are aware datetimes (`Moment`).
-/

namespace OmniviaCore.Knowledge

open Lib

/-- `GovernedKnowledgeErrorCode`. -/
inductive KnowledgeErrorCode where
  | missingField
  | invalidField
  | unsupportedValue
  | payloadTooLarge
  | nodeLimitExceeded
  | depthLimitExceeded
  | setLimitExceeded
  deriving DecidableEq

/-- What the layer raises: a `GovernedKnowledgeValidationError`, or an exception of the standard
library. -/
inductive Raised where
  | validation (code : KnowledgeErrorCode) (message : String)
  | valueError
  | overflowError
  | assertionError

/-- `value.strip() == ""`. -/
def isBlank (value : String) : Bool :=
  value.toList.all fun c => SemanticRegistry.isSpace (.scalar c)

/-! ## Precisions -/

/-- `TemporalPrecision`. -/
inductive TemporalPrecision where
  | year
  | month
  | day
  | hour
  | minute
  | second
  deriving DecidableEq

/-- `TemporalProvenance`. -/
inductive TemporalProvenance where
  | stated
  | evidenceAttested
  | ingestionFallback
  deriving DecidableEq

/-- `_truncate`. -/
def truncate (value : Instant) : TemporalPrecision → Instant
  | .year => ⟨value.year, 1, 1, 0, 0, 0, 0⟩
  | .month => ⟨value.year, value.month, 1, 0, 0, 0, 0⟩
  | .day => ⟨value.year, value.month, value.day, 0, 0, 0, 0⟩
  | .hour => ⟨value.year, value.month, value.day, value.hour, 0, 0, 0⟩
  | .minute => ⟨value.year, value.month, value.day, value.hour, value.minute, 0, 0⟩
  | .second => ⟨value.year, value.month, value.day, value.hour, value.minute, value.second, 0⟩

def MAX_ORIGINAL_SOURCE_TEXT_CHARS : Nat := 2048

/-- `datetime.max.year`. -/
def MAX_YEAR : Nat := 9999

/-- A `tzinfo`: which object it is, and the wall times from which its offset, in microseconds, is another
one, for the first reading of a wall time and for the second. -/
structure Zone where
  object : Nat
  changes : List (Nat × Int × Int)
  deriving DecidableEq

/-- `utcoffset` of a wall time under a `fold`. -/
def Zone.utcoffset (zone : Zone) (wall : Instant) (fold : Bool) : Int :=
  match (zone.changes.filter fun change => change.1 ≤ wall.rank).getLast? with
  | none => 0
  | some (_, first, second) => if fold then second else first

/-- `timezone.utc`. -/
def Zone.utc : Zone := ⟨0, []⟩

/-- `TemporalInstant`. Which names of time zones there are is not looked at here. -/
structure TemporalInstant where
  value : Instant
  zone : Zone := .utc
  fold : Bool := false
  precision : TemporalPrecision
  provenance : TemporalProvenance
  originalSourceText : Option String
  sourceTimezone : Option String
  calendar : value.isCalendar = true ∧ value.year ≤ MAX_YEAR
  truncated : truncate value precision = value
  utc : zone.utcoffset value fold = 0 := by rfl
  originalSourceText_valid : ∀ text ∈ originalSourceText,
    text ≠ "" ∧ text.length ≤ MAX_ORIGINAL_SOURCE_TEXT_CHARS
  sourceTimezone_valid : sourceTimezone.isSome = true → originalSourceText.isSome = true

/-- An instant that is stated without a text. -/
def instantOf (value : Instant) (precision : TemporalPrecision)
    (calendar : value.isCalendar = true ∧ value.year ≤ MAX_YEAR)
    (truncated : truncate value precision = value) : TemporalInstant where
  value := value
  precision := precision
  provenance := .stated
  originalSourceText := none
  sourceTimezone := none
  calendar := calendar
  truncated := truncated
  originalSourceText_valid := fun _ h => by cases h
  sourceTimezone_valid := fun h => by cases h

def year2024 : TemporalInstant :=
  instantOf ⟨2024, 1, 1, 0, 0, 0, 0⟩ .year (by decide) (by decide)

def january2024 : TemporalInstant :=
  instantOf ⟨2024, 1, 1, 0, 0, 0, 0⟩ .month (by decide) (by decide)

/-! ## One unit later -/

/-- `value.replace(year=value.year + 1)`. -/
def yearAfter (value : Instant) : Except Raised Instant :=
  if value.year < MAX_YEAR then .ok { value with year := value.year + 1 } else .error .valueError

def monthAfter (value : Instant) : Except Raised Instant :=
  if value.month = 12 then yearAfter { value with month := 1 }
  else .ok { value with month := value.month + 1 }

/-- `value + timedelta(days=1)`. -/
def dayAfter (value : Instant) : Except Raised Instant :=
  if value.day < Instant.daysInMonth value.year value.month then
    .ok { value with day := value.day + 1 }
  else if value.month < 12 then .ok { value with month := value.month + 1, day := 1 }
  else if value.year < MAX_YEAR then .ok { value with year := value.year + 1, month := 1, day := 1 }
  else .error .overflowError

/-- `value + timedelta(hours=1)`. -/
def hourAfter (value : Instant) : Except Raised Instant :=
  if value.hour < 23 then .ok { value with hour := value.hour + 1 }
  else dayAfter { value with hour := 0 }

/-- `value + timedelta(minutes=1)`. -/
def minuteAfter (value : Instant) : Except Raised Instant :=
  if value.minute < 59 then .ok { value with minute := value.minute + 1 }
  else hourAfter { value with minute := 0 }

/-- `value + timedelta(seconds=1)`. -/
def secondAfter (value : Instant) : Except Raised Instant :=
  if value.second < 59 then .ok { value with second := value.second + 1 }
  else minuteAfter { value with second := 0 }

/-- The end of `_instant_bounds`. -/
def instantEnd (value : Instant) : TemporalPrecision → Except Raised Instant
  | .year => yearAfter value
  | .month => monthAfter value
  | .day => dayAfter value
  | .hour => hourAfter value
  | .minute => minuteAfter value
  | .second => secondAfter value

/-! ## Aware datetimes -/

/-- An aware `datetime`. -/
structure Moment where
  wall : Instant
  zone : Zone
  fold : Bool

/-- `toordinal`. -/
def toordinal (value : Instant) : Nat :=
  let years := value.year - 1
  365 * years + years / 4 - years / 100 + years / 400 +
    ((List.range (value.month - 1)).map fun month => Instant.daysInMonth value.year (month + 1)).sum +
    value.day

namespace Moment

variable (left right : Moment)

def utcoffset : Int := left.zone.utcoffset left.wall left.fold

/-- The microseconds up to the moment in UTC. -/
def inUtc : Int :=
  (((toordinal left.wall * 24 + left.wall.hour) * 60 + left.wall.minute) * 60 + left.wall.second) *
    1000000 + left.wall.microsecond - left.utcoffset

/-- The other reading of the wall time has another offset: such a datetime is equal to none of another
`tzinfo`. -/
def isRepeated : Bool := left.zone.utcoffset left.wall (!left.fold) ≠ left.utcoffset

/-- `==`: under one `tzinfo` the wall times are compared, and otherwise the moments in UTC. -/
def equals : Bool :=
  if left.zone = right.zone then left.wall = right.wall
  else !left.isRepeated && !right.isRepeated &&
    if left.utcoffset = right.utcoffset then left.wall = right.wall else left.inUtc = right.inUtc

/-- `<=`. -/
def notAfter : Bool :=
  if left.zone = right.zone ∨ left.utcoffset = right.utcoffset then left.wall.rank ≤ right.wall.rank
  else left.inUtc ≤ right.inUtc

end Moment

/-- The `datetime` of an instant. -/
def TemporalInstant.start (instant : TemporalInstant) : Moment :=
  ⟨instant.value, instant.zone, instant.fold⟩

/-- `replace` keeps the `fold`, and what is added to a datetime drops it. -/
def TemporalPrecision.keepsFold : TemporalPrecision → Bool
  | .year | .month => true
  | _ => false

/-- `_instant_bounds`. -/
def instantBounds (instant : TemporalInstant) : Except Raised (Moment × Moment) := do
  let finish ← instantEnd instant.value instant.precision
  pure (instant.start, ⟨finish, instant.zone, instant.fold && instant.precision.keepsFold⟩)

/-- What a set tells the datetimes of instants apart by. -/
def TemporalInstant.key (instant : TemporalInstant) : Instant × Option Zone :=
  (instant.value, if instant.start.isRepeated then some instant.zone else none)

theorem isRepeated_congr {zone : Zone} {wall : Instant} {f g : Bool} (hf : zone.utcoffset wall f = 0)
    (hg : zone.utcoffset wall g = 0) :
    (⟨wall, zone, f⟩ : Moment).isRepeated = (⟨wall, zone, g⟩ : Moment).isRepeated := by
  unfold Moment.isRepeated Moment.utcoffset
  cases f <;> cases g <;> simp [hf, hg]

/-- Instants have one key when their datetimes are equal. -/
theorem key_eq_iff {a b : TemporalInstant} : a.key = b.key ↔ a.start.equals b.start = true := by
  have ha : a.start.utcoffset = 0 := a.utc
  have hb : b.start.utcoffset = 0 := b.utc
  have hrepeated : a.value = b.value → a.zone = b.zone → a.start.isRepeated = b.start.isRepeated := by
    intro hvalue hzone
    have hua : b.zone.utcoffset b.value a.fold = 0 := by
      rw [← hvalue, ← hzone]
      exact a.utc
    unfold TemporalInstant.start
    rw [hvalue, hzone]
    exact isRepeated_congr hua b.utc
  unfold TemporalInstant.key Moment.equals
  rw [Prod.mk.injEq]
  by_cases hzone : a.zone = b.zone
  · rw [if_pos (show a.start.zone = b.start.zone from hzone), decide_eq_true_eq]
    constructor
    · rintro ⟨hvalue, -⟩
      exact hvalue
    · intro hvalue
      exact ⟨hvalue, by rw [hrepeated hvalue hzone, hzone]⟩
  · rw [if_neg (show ¬a.start.zone = b.start.zone from hzone), ha, hb, if_pos rfl]
    show _ ↔ (!a.start.isRepeated && !b.start.isRepeated && decide (a.value = b.value)) = true
    cases a.start.isRepeated <;> cases b.start.isRepeated <;> simp [hzone]

/-! ## Finer precisions -/

/-- The rank a unit of a precision is worth. -/
def TemporalPrecision.worth : TemporalPrecision → Nat
  | .year => 13 * 32 * 24 * 60 * 60 * 1000000
  | .month => 32 * 24 * 60 * 60 * 1000000
  | .day => 24 * 60 * 60 * 1000000
  | .hour => 60 * 60 * 1000000
  | .minute => 60 * 1000000
  | .second => 1000000

variable {value finish : Instant} {precision finer : TemporalPrecision}

theorem calendar_bounds (h : value.isCalendar = true) :
    1 ≤ value.month ∧ value.month ≤ 12 ∧ 1 ≤ value.day ∧ value.day ≤ 31 ∧ value.hour ≤ 23 ∧
      value.minute ≤ 59 ∧ value.second ≤ 59 ∧ 28 ≤ Instant.daysInMonth value.year value.month := by
  simp only [Instant.isCalendar, Bool.and_eq_true, decide_eq_true_eq] at h
  have hdays : 28 ≤ Instant.daysInMonth value.year value.month ∧
      Instant.daysInMonth value.year value.month ≤ 31 := by
    unfold Instant.daysInMonth
    split
    · split <;> omega
    · split <;> omega
  omega

theorem rank_add_worth_le (hcalendar : value.isCalendar = true)
    (h : instantEnd value precision = .ok finish) : value.rank + precision.worth ≤ finish.rank := by
  have hbounds := calendar_bounds hcalendar
  cases precision <;> simp only [instantEnd, yearAfter, monthAfter, dayAfter, hourAfter, minuteAfter, secondAfter] at h
  all_goals
    repeat' split at h
    all_goals first
      | cases h; done
      | (obtain rfl := Except.ok.inj h
         simp only [Instant.rank, TemporalPrecision.worth]
         omega)

/-- An instant that is truncated to a coarser precision is the first unit of a finer one. -/
theorem exists_instantEnd_of_coarser (hcalendar : value.isCalendar = true)
    (htruncated : truncate value precision = value) (hfiner : finer.worth < precision.worth) :
    ∃ finish, instantEnd value finer = .ok finish ∧ finish.rank = value.rank + finer.worth := by
  have hbounds := calendar_bounds hcalendar
  have hfirst : (finer = .month → value.month = 1) ∧ (finer = .day → value.day = 1) ∧
      (finer = .hour → value.hour = 0) ∧ (finer = .minute → value.minute = 0) ∧
      (finer = .second → value.second = 0) ∧ finer ≠ .year := by
    rw [← htruncated]
    cases precision <;> cases finer <;> simp [TemporalPrecision.worth, truncate] at hfiner ⊢
  cases finer with
  | year => exact absurd rfl hfirst.2.2.2.2.2
  | month =>
    have hmonth := hfirst.1 rfl
    exact ⟨_, if_neg (by omega), by simp only [Instant.rank, TemporalPrecision.worth]; omega⟩
  | day =>
    have hday := hfirst.2.1 rfl
    exact ⟨_, if_pos (by omega), by simp only [Instant.rank, TemporalPrecision.worth]; omega⟩
  | hour =>
    have hhour := hfirst.2.2.1 rfl
    exact ⟨_, if_pos (by omega), by simp only [Instant.rank, TemporalPrecision.worth]; omega⟩
  | minute =>
    have hminute := hfirst.2.2.2.1 rfl
    exact ⟨_, if_pos (by omega), by simp only [Instant.rank, TemporalPrecision.worth]; omega⟩
  | second =>
    have hsecond := hfirst.2.2.2.2.1 rfl
    exact ⟨_, if_pos (by omega), by simp only [Instant.rank, TemporalPrecision.worth]; omega⟩

/-- One start with two precisions has two ends, if the coarser one has any. -/
theorem rank_lt_of_coarser (hcalendar : value.isCalendar = true)
    (htruncated : truncate value precision = value) (hfiner : finer.worth < precision.worth)
    {coarse fine : Instant} (hcoarse : instantEnd value precision = .ok coarse)
    (hfine : instantEnd value finer = .ok fine) : fine.rank < coarse.rank := by
  have hle := rank_add_worth_le hcalendar hcoarse
  obtain ⟨fine', hfine', hrank⟩ := exists_instantEnd_of_coarser hcalendar htruncated hfiner
  rw [hfine, Except.ok.injEq] at hfine'
  subst hfine'
  omega

theorem worth_injective : Function.Injective TemporalPrecision.worth := by
  intro p q
  cases p <;> cases q <;> decide

end OmniviaCore.Knowledge
