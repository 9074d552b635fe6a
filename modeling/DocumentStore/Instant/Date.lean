/-!
The proleptic Gregorian calendar. Years are counted from March, so that the leap day comes last in
its year, the leap year last in its four years, and so on; every step of the conversion is then a
plain division.
-/

namespace DocumentStore

structure Date where
  year : Int
  month : Nat
  day : Nat
deriving DecidableEq, Repr

namespace Date

def isLeapYear (year : Int) : Bool := year % 4 == 0 && (year % 100 != 0 || year % 400 == 0)

def monthLength (year : Int) (month : Nat) : Nat :=
  if month = 2 then (if isLeapYear year then 29 else 28)
  else if month = 4 ∨ month = 6 ∨ month = 9 ∨ month = 11 then 30
  else 31

def Valid (d : Date) : Prop :=
  1 ≤ d.month ∧ d.month ≤ 12 ∧ 1 ≤ d.day ∧ d.day ≤ monthLength d.year d.month

instance (d : Date) : Decidable d.Valid := inferInstanceAs (Decidable (_ ∧ _ ∧ _ ∧ _))

/-- Days from the first of March of a year counted from March to the first day of its month, March
being 0. -/
def monthStart (month : Nat) : Nat := (153 * month + 2) / 5

def yearStart (year : Int) : Int := 365 * year + year / 4 - year / 100 + year / 400

def epoch : Int := 719468

def toDays (d : Date) : Int :=
  if d.month ≤ 2 then yearStart (d.year - 1) + monthStart (d.month + 9) + (d.day - 1) - epoch
  else yearStart d.year + monthStart (d.month - 3) + (d.day - 1) - epoch

def ofYearDay (year : Int) (day : Nat) : Date :=
  let month := (5 * day + 2) / 153
  let dayOfMonth := day - monthStart month + 1
  if month < 10 then ⟨year, month + 3, dayOfMonth⟩ else ⟨year + 1, month - 9, dayOfMonth⟩

def ofDays (days : Int) : Date :=
  let n := days + epoch
  let cycle := n / 146097
  let inCycle := (n % 146097).toNat
  let century := min (inCycle / 36524) 3
  let inCentury := inCycle - century * 36524
  let leap := inCentury / 1461
  let inLeap := inCentury - leap * 1461
  let year := min (inLeap / 365) 3
  ofYearDay (cycle * 400 + (century * 100 + leap * 4 + year : Nat)) (inLeap - year * 365)

end Date

end DocumentStore
