import OmniviaCore.Knowledge.Instants
import OmniviaCore.Lib.Check

/-!
# Wall clocks

A `datetime` with a `utcoffset`, and `astimezone(UTC)`. An offset is less than a day, so the UTC day is the
day before, the same day or the day after, unless the calendar ends there. Two offsets under which a clock
falls in one second of UTC place it alike at every precision (`truncate_utcFields_congr`), and two under
which it does not are told apart at the precision of a second (`same_second`).
-/

namespace OmniviaCore.Knowledge

open Lib

def MINUTE : Int := 60000000

def DAY : Int := 86400000000

/-- The fields a `datetime` can have. -/
structure IsDateTime (fields : Instant) : Prop where
  calendar : fields.isCalendar = true
  year_le : fields.year ≤ MAX_YEAR
  microsecond_lt : fields.microsecond < 1000000

instance (fields : Instant) : Decidable (IsDateTime fields) :=
  decidable_of_iff (fields.isCalendar = true ∧ fields.year ≤ MAX_YEAR ∧ fields.microsecond < 1000000)
    ⟨fun ⟨h, h', h''⟩ => ⟨h, h', h''⟩, fun ⟨h, h', h''⟩ => ⟨h, h', h''⟩⟩

/-- A `datetime`, without its `tzinfo`. -/
@[ext]
structure DateTime where
  fields : Instant
  valid : IsDateTime fields

/-- What a `tzinfo.utcoffset` returns, in microseconds. -/
structure UtcOffset where
  microseconds : Int
  gt : -DAY < microseconds
  lt : microseconds < DAY

/-- `timedelta(0)`. -/
def UtcOffset.zero : UtcOffset := ⟨0, by decide, by decide⟩

def timeOfDay (value : Instant) : Int :=
  ((value.hour * 60 + value.minute) * 60 + value.second) * 1000000 + value.microsecond

/-- The same day, that many microseconds after midnight. -/
def withTimeOfDay (value : Instant) (time : Int) : Instant :=
  { value with
    hour := (time / 3600000000).toNat
    minute := (time / 60000000 % 60).toNat
    second := (time / 1000000 % 60).toNat
    microsecond := (time % 1000000).toNat }

/-- `value - timedelta(days=1)`. -/
def dayBefore (value : Instant) : Except Raised Instant :=
  if 1 < value.day then .ok { value with day := value.day - 1 }
  else if 1 < value.month then
    .ok { value with
      month := value.month - 1
      day := Instant.daysInMonth value.year (value.month - 1) }
  else if 1 < value.year then .ok { value with year := value.year - 1, month := 12, day := 31 }
  else .error .overflowError

/-- The day before, the same day or the day after. -/
def shiftDay (value : Instant) (days : Int) : Except Raised Instant :=
  if days < 0 then dayBefore value
  else if days = 0 then .ok value
  else dayAfter value

/-- The fields of `value.astimezone(UTC)`. -/
def utcFields (value : Instant) (offset : UtcOffset) : Except Raised Instant :=
  let time := timeOfDay value - offset.microseconds
  (shiftDay value (time / DAY)).map fun day => withTimeOfDay day (time % DAY)

variable {value day : Instant} {offset other : UtcOffset}

/-! ## The fields that are reached -/

theorem IsDateTime.bounds (h : IsDateTime value) :
    1 ≤ value.year ∧ value.year ≤ MAX_YEAR ∧ 1 ≤ value.month ∧ value.month ≤ 12 ∧ 1 ≤ value.day ∧
      value.day ≤ Instant.daysInMonth value.year value.month ∧ value.hour ≤ 23 ∧ value.minute ≤ 59 ∧
      value.second ≤ 59 ∧ value.microsecond < 1000000 := by
  have hcalendar := h.calendar
  simp only [Instant.isCalendar, Bool.and_eq_true, decide_eq_true_eq] at hcalendar
  exact ⟨by omega, h.year_le, by omega, by omega, by omega, by omega, by omega, by omega, by omega,
    h.microsecond_lt⟩

theorem isDateTime_of_bounds
    (h : 1 ≤ value.year ∧ value.year ≤ MAX_YEAR ∧ 1 ≤ value.month ∧ value.month ≤ 12 ∧
      1 ≤ value.day ∧ value.day ≤ Instant.daysInMonth value.year value.month ∧ value.hour ≤ 23 ∧
      value.minute ≤ 59 ∧ value.second ≤ 59 ∧ value.microsecond < 1000000) : IsDateTime value := by
  refine ⟨?_, h.2.1, h.2.2.2.2.2.2.2.2.2⟩
  simp only [Instant.isCalendar, Bool.and_eq_true, decide_eq_true_eq]
  omega

theorem timeOfDay_bounds (h : IsDateTime value) : 0 ≤ timeOfDay value ∧ timeOfDay value < DAY := by
  have hbounds := h.bounds
  unfold timeOfDay DAY
  omega

theorem daysInMonth_pos (year month : Nat) : 1 ≤ Instant.daysInMonth year month := by
  unfold Instant.daysInMonth
  split
  · split <;> omega
  · split <;> omega

theorem daysInMonth_le (year month : Nat) : Instant.daysInMonth year month ≤ 31 := by
  unfold Instant.daysInMonth
  split
  · split <;> omega
  · split <;> omega

theorem dayBefore_isDateTime (h : IsDateTime value) (hday : dayBefore value = .ok day) :
    IsDateTime day := by
  have hbounds := h.bounds
  have hlast := daysInMonth_pos value.year (value.month - 1)
  unfold dayBefore at hday
  apply isDateTime_of_bounds
  split at hday
  · cases hday
    dsimp only
    omega
  · split at hday
    · cases hday
      dsimp only
      omega
    · split at hday
      · cases hday
        have hdecember : Instant.daysInMonth (value.year - 1) 12 = 31 := rfl
        dsimp only
        omega
      · cases hday

theorem dayAfter_isDateTime (h : IsDateTime value) (hday : dayAfter value = .ok day) :
    IsDateTime day := by
  have hbounds := h.bounds
  have hnext := daysInMonth_pos value.year (value.month + 1)
  unfold dayAfter at hday
  apply isDateTime_of_bounds
  split at hday
  · cases hday
    dsimp only
    omega
  · split at hday
    · cases hday
      dsimp only
      omega
    · split at hday
      · cases hday
        have hjanuary : Instant.daysInMonth (value.year + 1) 1 = 31 := rfl
        dsimp only
        omega
      · cases hday

theorem shiftDay_isDateTime (h : IsDateTime value) {days : Int}
    (hday : shiftDay value days = .ok day) : IsDateTime day := by
  unfold shiftDay at hday
  split at hday
  · exact dayBefore_isDateTime h hday
  · split at hday
    · cases hday
      exact h
    · exact dayAfter_isDateTime h hday

theorem withTimeOfDay_isDateTime (h : IsDateTime value) {time : Int} (hnonneg : 0 ≤ time)
    (hlt : time < DAY) : IsDateTime (withTimeOfDay value time) := by
  have hbounds := h.bounds
  unfold DAY at hlt
  apply isDateTime_of_bounds
  dsimp only [withTimeOfDay]
  omega

theorem utcFields_isDateTime (h : IsDateTime value) {fields : Instant}
    (hfields : utcFields value offset = .ok fields) : IsDateTime fields := by
  unfold utcFields at hfields
  dsimp only at hfields
  cases hday : shiftDay value ((timeOfDay value - offset.microseconds) / DAY) with
  | error e => rw [hday] at hfields; cases hfields
  | ok day =>
    rw [hday] at hfields
    cases hfields
    exact withTimeOfDay_isDateTime (shiftDay_isDateTime h hday)
      (Int.emod_nonneg _ (by decide)) (Int.emod_lt_of_pos _ (by decide))

/-- `value.astimezone(UTC)`. -/
def astimezoneUtc (value : DateTime) (offset : UtcOffset) : Except Raised DateTime :=
  match h : utcFields value.fields offset with
  | .ok fields => .ok ⟨fields, utcFields_isDateTime value.valid h⟩
  | .error e => .error e

theorem astimezoneUtc_map_fields (value : DateTime) (offset : UtcOffset) :
    (astimezoneUtc value offset).map DateTime.fields = utcFields value.fields offset := by
  unfold astimezoneUtc
  split
  · next h => exact h.symm
  · next h => exact h.symm

theorem truncate_isDateTime (h : IsDateTime value) (precision : TemporalPrecision) :
    IsDateTime (truncate value precision) := by
  have hbounds := h.bounds
  have hfirst := daysInMonth_pos value.year 1
  have hsame := daysInMonth_pos value.year value.month
  apply isDateTime_of_bounds
  cases precision <;> dsimp only [truncate] <;> omega

/-- `_truncate` changes nothing the second time. -/
@[simp] theorem truncate_truncate (value : Instant) (precision : TemporalPrecision) :
    truncate (truncate value precision) precision = truncate value precision := by
  cases precision <;> rfl

/-! ## One second of UTC -/

/-- The second of UTC, counted from the midnight that begins the day on the clock. -/
def utcSecond (value : Instant) (offset : UtcOffset) : Int :=
  (timeOfDay value - offset.microseconds) / 1000000

theorem days_eq (value : Instant) (offset : UtcOffset) :
    (timeOfDay value - offset.microseconds) / DAY = utcSecond value offset / 86400 := by
  unfold utcSecond DAY
  omega

/-- The offsets that put a clock in one second of UTC place it alike at every precision. -/
theorem truncate_utcFields_congr (h : utcSecond value offset = utcSecond value other)
    (precision : TemporalPrecision) :
    (utcFields value offset).map (truncate · precision) =
      (utcFields value other).map (truncate · precision) := by
  have hdays : (timeOfDay value - offset.microseconds) / DAY =
      (timeOfDay value - other.microseconds) / DAY := by
    rw [days_eq, days_eq, h]
  unfold utcFields
  dsimp only
  rw [hdays]
  cases shiftDay value ((timeOfDay value - other.microseconds) / DAY) with
  | error e => rfl
  | ok day =>
    have hclock : ∀ time : Int, truncate (withTimeOfDay day time) precision =
        truncate (withTimeOfDay day (time / 1000000 * 1000000)) precision := by
      intro time
      cases precision <;>
        simp only [truncate, withTimeOfDay, Instant.mk.injEq, true_and, and_true] <;> omega
    have hseconds : (timeOfDay value - offset.microseconds) % DAY / 1000000 =
        (timeOfDay value - other.microseconds) % DAY / 1000000 := by
      unfold utcSecond at h
      unfold DAY
      omega
    simp only [Except.map]
    rw [hclock, hseconds, ← hclock]

/-- A number that orders the days of the calendar. -/
def dayRank (value : Instant) : Int := (value.year * 13 + value.month) * 32 + value.day

theorem dayRank_dayBefore (h : IsDateTime value) (hday : dayBefore value = .ok day) :
    dayRank day < dayRank value := by
  have hbounds := h.bounds
  have hlast := (dayBefore_isDateTime h hday).bounds
  have hdays := daysInMonth_le day.year day.month
  unfold dayBefore at hday
  unfold dayRank
  split at hday
  · cases hday
    dsimp only
    omega
  · split at hday
    · cases hday
      dsimp only at hlast hdays ⊢
      omega
    · split at hday
      · cases hday
        dsimp only
        omega
      · cases hday

theorem dayRank_dayAfter (h : IsDateTime value) (hday : dayAfter value = .ok day) :
    dayRank value < dayRank day := by
  have hbounds := h.bounds
  have hdays := daysInMonth_le value.year value.month
  unfold dayAfter at hday
  unfold dayRank
  split at hday
  · cases hday
    dsimp only
    omega
  · split at hday
    · cases hday
      dsimp only
      omega
    · split at hday
      · cases hday
        dsimp only
        omega
      · cases hday

/-- Where a shifted day stands says which way it was shifted. -/
theorem dayRank_shiftDay (h : IsDateTime value) {days : Int} (hday : shiftDay value days = .ok day) :
    (days < 0 ∧ dayRank day < dayRank value) ∨ (days = 0 ∧ day = value) ∨
      (0 < days ∧ dayRank value < dayRank day) := by
  unfold shiftDay at hday
  split at hday
  · next hneg => exact .inl ⟨hneg, dayRank_dayBefore h hday⟩
  · next hnonneg =>
    split at hday
    · next hzero =>
      cases hday
      exact .inr (.inl ⟨hzero, rfl⟩)
    · next hzero => exact .inr (.inr ⟨by omega, dayRank_dayAfter h hday⟩)

theorem shiftDay_injective (h : IsDateTime value) {days days' : Int} (hdays : -1 ≤ days ∧ days ≤ 1)
    (hdays' : -1 ≤ days' ∧ days' ≤ 1) {first second : Instant}
    (hfirst : shiftDay value days = .ok first) (hsecond : shiftDay value days' = .ok second)
    (hrank : dayRank first = dayRank second) : days = days' := by
  rcases dayRank_shiftDay h hfirst with ⟨hsign, hside⟩ | ⟨hsign, rfl⟩ | ⟨hsign, hside⟩
  · rcases dayRank_shiftDay h hsecond with ⟨hsign', hside'⟩ | ⟨hsign', rfl⟩ | ⟨hsign', hside'⟩ <;> omega
  · rcases dayRank_shiftDay h hsecond with ⟨hsign', hside'⟩ | ⟨hsign', rfl⟩ | ⟨hsign', hside'⟩ <;> omega
  · rcases dayRank_shiftDay h hsecond with ⟨hsign', hside'⟩ | ⟨hsign', rfl⟩ | ⟨hsign', hside'⟩ <;> omega

/-- A second of UTC is a day and a second of that day. -/
theorem same_second (h : IsDateTime value) {first second : Instant}
    (hfirst : utcFields value offset = .ok first) (hsecond : utcFields value other = .ok second)
    (hsame : truncate first .second = truncate second .second) :
    utcSecond value offset = utcSecond value other := by
  have hclock := timeOfDay_bounds h
  have hoffset := offset.gt
  have hoffset' := offset.lt
  have hother := other.gt
  have hother' := other.lt
  unfold utcFields at hfirst hsecond
  dsimp only at hfirst hsecond
  obtain ⟨day, hday, rfl⟩ := except_map_eq_ok.1 hfirst
  obtain ⟨day', hday', rfl⟩ := except_map_eq_ok.1 hsecond
  simp only [truncate, withTimeOfDay, Instant.mk.injEq, and_true] at hsame
  obtain ⟨hyear, hmonth, hdate, hhour, hminute, hsec⟩ := hsame
  have hdays : (timeOfDay value - offset.microseconds) / DAY =
      (timeOfDay value - other.microseconds) / DAY := by
    refine shiftDay_injective h ?_ ?_ hday hday' ?_
    · unfold DAY at hclock hoffset hoffset' ⊢
      omega
    · unfold DAY at hclock hother hother' ⊢
      omega
    · unfold dayRank
      rw [hyear, hmonth, hdate]
  unfold utcSecond
  unfold DAY at hdays hhour hminute hsec
  omega

end OmniviaCore.Knowledge
