/-!
# Dates

Days of the Gregorian calendar, ordered in time.
-/

namespace PanelCalc

namespace Calendar

def isLeap (year : Int) : Bool := year % 4 == 0 && (year % 100 != 0 || year % 400 == 0)

/-- The number of days of a month; zero for a month that does not exist. -/
def daysInMonth (year : Int) (month : Nat) : Nat :=
  match month with
  | 2 => if isLeap year then 29 else 28
  | 4 | 6 | 9 | 11 => 30
  | 1 | 3 | 5 | 7 | 8 | 10 | 12 => 31
  | _ => 0

def firstYear : Int := -262143

def lastYear : Int := 262142

/-- Whether year, month and day name a day of the calendar. -/
def IsDay (year : Int) (month day : Nat) : Prop :=
  firstYear ≤ year ∧ year ≤ lastYear ∧ 1 ≤ day ∧ day ≤ daysInMonth year month

instance (year : Int) (month day : Nat) : Decidable (IsDay year month day) :=
  inferInstanceAs (Decidable (_ ∧ _))

end Calendar

structure Date where
  year : Int
  month : Nat
  day : Nat
  isDay : Calendar.IsDay year month day := by decide
deriving DecidableEq

namespace Date

def ofParts? (year : Int) (month day : Nat) : Option Date :=
  if isDay : Calendar.IsDay year month day then some { year, month, day, isDay } else none

/-- A number that grows from day to day: months take 32 numbers and years 16 months. -/
def ordinal (date : Date) : Int := (date.year * 16 + date.month) * 32 + date.day

instance : LT Date := ⟨fun a b => a.ordinal < b.ordinal⟩

instance : LE Date := ⟨fun a b => a.ordinal ≤ b.ordinal⟩

instance (a b : Date) : Decidable (a < b) := inferInstanceAs (Decidable (a.ordinal < b.ordinal))

instance (a b : Date) : Decidable (a ≤ b) := inferInstanceAs (Decidable (a.ordinal ≤ b.ordinal))

theorem month_le (date : Date) : 1 ≤ date.month ∧ date.month ≤ 12 := by
  obtain ⟨year, month, day, -, -, one_le, le⟩ := date
  simp only
  unfold Calendar.daysInMonth at le
  split at le <;> omega

theorem day_le (date : Date) : 1 ≤ date.day ∧ date.day ≤ 31 := by
  obtain ⟨year, month, day, -, -, one_le, le⟩ := date
  refine ⟨one_le, Nat.le_trans le ?_⟩
  unfold Calendar.daysInMonth
  split
  · split <;> decide
  all_goals decide

/-- Different days have different ordinals. -/
theorem ordinal_injective {a b : Date} (same : a.ordinal = b.ordinal) : a = b := by
  have := a.month_le
  have := a.day_le
  have := b.month_le
  have := b.day_le
  obtain ⟨ya, ma, da, _⟩ := a
  obtain ⟨yb, mb, db, _⟩ := b
  simp only [ordinal] at *
  obtain ⟨rfl, rfl, rfl⟩ : ya = yb ∧ ma = mb ∧ da = db := by omega
  rfl

end Date

end PanelCalc
