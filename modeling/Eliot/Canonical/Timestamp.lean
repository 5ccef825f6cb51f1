import Eliot.Text.Utf8
import Mathlib.Algebra.GroupWithZero.Nat
import Mathlib.Data.List.TakeWhile

namespace Timestamp

section

def isAsciiDigit (byte : Nat) : Bool := 48 ≤ byte && byte ≤ 57

/-- A `u32`, when it is one. -/
def checked (value : Nat) : Option Nat := if value < 2 ^ 32 then some value else none

def addDigit (value byte : Nat) : Option Nat := do
  checked ((← checked (value * 10)) + (byte - 48))

def digits (bytes : Bytes) : Option Nat :=
  if bytes.isEmpty || !bytes.all isAsciiDigit then none else bytes.foldlM addDigit 0

def isLeapYear (year : Nat) : Bool := year % 4 == 0 && !(year % 100 == 0) || year % 400 == 0

def daysInMonth (year month : Nat) : Nat :=
  match month with
  | 1 | 3 | 5 | 7 | 8 | 10 | 12 => 31
  | 4 | 6 | 9 | 11 => 30
  | 2 => if isLeapYear year then 29 else 28
  | _ => 31

/-- `bytes.get(start..stop)` -/
def get (bytes : Bytes) (start stop : Nat) : Option Bytes :=
  if start ≤ stop ∧ stop ≤ bytes.length then some ((bytes.drop start).take (stop - start)) else none

/-- `bytes.get(start..)` -/
def getFrom (bytes : Bytes) (start : Nat) : Option Bytes :=
  if start ≤ bytes.length then some (bytes.drop start) else none

def parseDate (date : Bytes) : Option Unit := do
  if date[4]? ≠ some 45 ∨ date[7]? ≠ some 45 then none
  let year ← digits (← get date 0 4)
  let month ← digits (← get date 5 7)
  let day ← digits (← get date 8 10)
  if ¬ (1 ≤ month ∧ month ≤ 12) then none
  if day < 1 ∨ daysInMonth year month < day then none

def parseClock (rest : Bytes) : Option Unit := do
  if rest.length < 5 then none
  let head ← get rest 0 5
  if head[2]? ≠ some 58 then none
  if 23 < (← digits (← get head 0 2)) then none
  if 59 < (← digits (← get head 3 5)) then none

def skipDigits (frac : Nat) : Bytes → Bytes × Nat
  | [] => ([], frac)
  | byte :: zone => if isAsciiDigit byte then skipDigits (frac + 1) zone else (byte :: zone, frac)

def parseFraction (zone : Bytes) : Option Bytes := do
  if zone.head? = some 46 then
    let (zone, frac) := skipDigits 0 (← getFrom zone 1)
    if frac = 0 then none
    return zone
  return zone

def parseSeconds (zone : Bytes) : Option Bytes := do
  if zone.head? = some 58 then
    if zone.length < 3 then none
    if 59 < (← digits (← get zone 1 3)) then none
    parseFraction (← getFrom zone 3)
  else if zone.head? = some 46 then none
  else return zone

def parseZone (zone : Bytes) : Option Unit := do
  if zone = [90] then return ()
  if zone.length = 6 ∧ (zone[0]? = some 43 ∨ zone[0]? = some 45) ∧ zone[3]? = some 58 then
    if 23 < (← digits (← get zone 1 3)) then none
    if 59 < (← digits (← get zone 4 6)) then none
    return ()
  none

def parseTimestamp (bytes : Bytes) : Option Unit := do
  if bytes.length < 17 ∨ bytes[10]? ≠ some 84 then none
  parseDate (← get bytes 0 10)
  let rest ← getFrom bytes 11
  parseClock rest
  parseZone (← parseSeconds (← getFrom rest 5))

variable {Error : Type}

def checkTimestampShape (timestamp : Error) (text : Bytes) : Except Error Unit :=
  match parseTimestamp text with
  | some accepted => .ok accepted
  | none => .error timestamp

end

def Leap (year : Nat) : Prop := 4 ∣ year ∧ (100 ∣ year → 400 ∣ year)

instance (year : Nat) : Decidable (Leap year) := inferInstanceAs (Decidable (_ ∧ (_ → _)))

def monthLengths (year : Nat) : Vector Nat 12 :=
  #v[31, if Leap year then 29 else 28, 31, 30, 31, 30, 31, 31, 30, 31, 30, 31]

open List

structure Date where
  year : Fin 10000
  month : Fin 12
  day : Nat
  real : day < (monthLengths year)[month]

inductive Seconds where
  | omitted
  | whole (second : Fin 60)
  | fraction (second : Fin 60) (first : Fin 10) (more : List (Fin 10))

inductive Zone where
  | utc
  | ahead (hour : Fin 24) (minute : Fin 60)
  | behind (hour : Fin 24) (minute : Fin 60)

structure Stamp where
  date : Date
  hour : Fin 24
  minute : Fin 60
  seconds : Seconds
  zone : Zone

def twoDigits (value : Nat) : Bytes := [48 + value / 10, 48 + value % 10]

def fractionDigits (values : List (Fin 10)) : Bytes := values.map fun digit => 48 + digit.val

def Date.write (date : Date) : Bytes :=
  twoDigits (date.year / 100) ++ twoDigits (date.year % 100) ++ 45 :: twoDigits (date.month + 1) ++
    45 :: twoDigits (date.day + 1)

def Seconds.write : Seconds → Bytes
  | omitted => []
  | whole second => 58 :: twoDigits second
  | fraction second first more => 58 :: twoDigits second ++ 46 :: fractionDigits (first :: more)

def Zone.write : Zone → Bytes
  | utc => [90]
  | ahead hour minute => 43 :: twoDigits hour ++ 58 :: twoDigits minute
  | behind hour minute => 45 :: twoDigits hour ++ 58 :: twoDigits minute

/-- `YYYY-MM-DDTHH:MM[:SS[.fraction]](Z|±HH:MM)` -/
def Stamp.write (stamp : Stamp) : Bytes :=
  stamp.date.write ++ 84 :: twoDigits stamp.hour ++ 58 :: twoDigits stamp.minute ++
    stamp.seconds.write ++ stamp.zone.write

theorem digit_iff {byte : Nat} : isAsciiDigit byte = true ↔ 48 ≤ byte ∧ byte ≤ 57 := by simp [isAsciiDigit]

theorem addDigit_small {value byte : Nat} (small : value < 10 ^ 4) (digit : byte ≤ 57) :
    addDigit value byte = some (value * 10 + (byte - 48)) := by
  rw [addDigit, checked, if_pos (by omega)]
  exact if_pos (by omega)

theorem digits_read {bytes : Bytes} (filled : bytes ≠ []) (read : ∀ byte ∈ bytes, isAsciiDigit byte = true) :
    digits bytes = bytes.foldlM addDigit 0 := by
  rw [digits, if_neg]
  simpa [filled] using read

theorem digits_refused {bytes : Bytes} {byte : Nat} (member : byte ∈ bytes) (other : isAsciiDigit byte = false) :
    digits bytes = none := by
  rw [digits, if_pos]
  have refused : bytes.all isAsciiDigit = false := all_eq_false.mpr ⟨byte, member, by simp [other]⟩
  rw [refused]
  simp

theorem digits_two {first second value : Nat} :
    digits [first, second] = some value ↔ value < 100 ∧ [first, second] = twoDigits value := by
  have parts : [first, second] = twoDigits value ↔ first = 48 + value / 10 ∧ second = 48 + value % 10 := by
    simp [twoDigits]
  rw [parts]
  by_cases read : isAsciiDigit first = true ∧ isAsciiDigit second = true
  · have tens := digit_iff.mp read.1
    have ones := digit_iff.mp read.2
    have number : digits [first, second] = some ((first - 48) * 10 + (second - 48)) := by
      rw [digits_read (by simp) (by simp [read]), foldlM_cons, addDigit_small (by omega) tens.2, Option.bind_eq_bind,
        Option.bind_some, foldlM_cons, addDigit_small (by omega) ones.2, Option.bind_eq_bind, Option.bind_some,
        foldlM_nil, Nat.zero_mul, Nat.zero_add]
      rfl
    rw [number, Option.some_inj]
    omega
  · have none : digits [first, second] = none := by
      rw [not_and_or, Bool.not_eq_true, Bool.not_eq_true] at read
      rcases read with other | other
      · exact digits_refused (by simp) other
      · exact digits_refused (by simp) other
    rw [none]
    refine iff_of_false (by simp) ?_
    rintro ⟨bound, rfl, rfl⟩
    exact read ⟨digit_iff.mpr (by omega), digit_iff.mpr (by omega)⟩

theorem digits_four {first second third fourth value : Nat} : digits [first, second, third, fourth] = some value ↔
    value < 10000 ∧ [first, second, third, fourth] = twoDigits (value / 100) ++ twoDigits (value % 100) := by
  have parts : [first, second, third, fourth] = twoDigits (value / 100) ++ twoDigits (value % 100) ↔
      first = 48 + value / 100 / 10 ∧ second = 48 + value / 100 % 10 ∧ third = 48 + value % 100 / 10 ∧
        fourth = 48 + value % 100 % 10 := by
    simp [twoDigits]
  rw [parts]
  by_cases read : (isAsciiDigit first = true ∧ isAsciiDigit second = true) ∧
      isAsciiDigit third = true ∧ isAsciiDigit fourth = true
  · have thousands := digit_iff.mp read.1.1
    have hundreds := digit_iff.mp read.1.2
    have tens := digit_iff.mp read.2.1
    have ones := digit_iff.mp read.2.2
    have number : digits [first, second, third, fourth] =
        some ((((first - 48) * 10 + (second - 48)) * 10 + (third - 48)) * 10 + (fourth - 48)) := by
      rw [digits_read (by simp) (by simp [read]), foldlM_cons, addDigit_small (by omega) thousands.2,
        Option.bind_eq_bind, Option.bind_some, foldlM_cons, addDigit_small (by omega) hundreds.2,
        Option.bind_eq_bind, Option.bind_some, foldlM_cons, addDigit_small (by omega) tens.2,
        Option.bind_eq_bind, Option.bind_some, foldlM_cons, addDigit_small (by omega) ones.2,
        Option.bind_eq_bind, Option.bind_some, foldlM_nil, Nat.zero_mul, Nat.zero_add]
      rfl
    rw [number, Option.some_inj]
    omega
  · have none : digits [first, second, third, fourth] = none := by
      simp only [not_and_or, Bool.not_eq_true] at read
      rcases read with (other | other) | other | other
      all_goals exact digits_refused (by simp) other
    rw [none]
    refine iff_of_false (by simp) ?_
    rintro ⟨bound, rfl, rfl, rfl, rfl⟩
    exact read ⟨⟨digit_iff.mpr (by omega), digit_iff.mpr (by omega)⟩, digit_iff.mpr (by omega),
      digit_iff.mpr (by omega)⟩

theorem leap_iff (year : Nat) : isLeapYear year = true ↔ Leap year := by
  simp only [isLeapYear, Leap, Bool.or_eq_true, Bool.and_eq_true, Bool.not_eq_true', beq_iff_eq, beq_eq_false_iff_ne,
    ne_eq]
  omega

theorem daysInMonth_eq (year : Nat) (month : Fin 12) : daysInMonth year (month + 1) = (monthLengths year)[month] := by
  have leap := leap_iff year
  have cases : month = 0 ∨ month = 1 ∨ month = 2 ∨ month = 3 ∨ month = 4 ∨ month = 5 ∨ month = 6 ∨ month = 7 ∨
      month = 8 ∨ month = 9 ∨ month = 10 ∨ month = 11 := by omega
  rcases cases with rfl | rfl | rfl | rfl | rfl | rfl | rfl | rfl | rfl | rfl | rfl | rfl
  case inr.inl =>
    change (if isLeapYear year = true then 29 else 28) = if Leap year then 29 else 28
    simp only [leap]
  all_goals rfl

theorem parseDate_iff {date : Bytes} (ten : date.length = 10) :
    parseDate date = some () ↔ ∃ day : Date, date = day.write := by
  obtain ⟨a, b, c, d, e, f, g, h, i, j, rfl⟩ : ∃ a b c d e f g h i j, date = [a, b, c, d, e, f, g, h, i, j] := by
    rcases date with _ | ⟨a, _ | ⟨b, _ | ⟨c, _ | ⟨d, _ | ⟨e, _ | ⟨f, _ | ⟨g, _ | ⟨h, _ | ⟨i, _ | ⟨j, date⟩⟩⟩⟩⟩⟩⟩⟩⟩⟩
    all_goals simp at ten
    exact ⟨a, b, c, d, e, f, g, h, i, j, by rw [ten]⟩
  have cut : parseDate [a, b, c, d, e, f, g, h, i, j] = some () ↔ (e = 45 ∧ h = 45) ∧
      ∃ year, digits [a, b, c, d] = some year ∧ ∃ month, digits [f, g] = some month ∧
        ∃ day, digits [i, j] = some day ∧ (1 ≤ month ∧ month ≤ 12) ∧ ¬ day = 0 ∧ day ≤ daysInMonth year month := by
    simp [parseDate, get, Option.bind_eq_some_iff]
  rw [cut]
  constructor
  · rintro ⟨⟨rfl, rfl⟩, year, yearRead, month, monthRead, day, dayRead, twelve, positive, real⟩
    obtain ⟨yearBound, yearSame⟩ := digits_four.mp yearRead
    have monthSame := (digits_two.mp monthRead).2
    have daySame := (digits_two.mp dayRead).2
    have back : month - 1 + 1 = month := by omega
    have length := daysInMonth_eq year ⟨month - 1, by omega⟩
    dsimp only at length
    rw [back] at length
    have within : day - 1 < (monthLengths year)[(⟨month - 1, by omega⟩ : Fin 12)] := by omega
    refine ⟨⟨⟨year, yearBound⟩, ⟨month - 1, by omega⟩, day - 1, within⟩, ?_⟩
    have back' : day - 1 + 1 = day := by omega
    simp only [Date.write, back, back', ← yearSame, ← monthSame, ← daySame, cons_append, nil_append]
  · rintro ⟨⟨year, month, day, real⟩, same⟩
    have yearBound := year.isLt
    have monthBound := month.isLt
    have dayBound : daysInMonth year (month + 1) < 32 := by
      unfold daysInMonth
      split <;> first | omega | split <;> omega
    rw [← daysInMonth_eq] at real
    simp only [Date.write, twoDigits, cons_append, nil_append, List.cons.injEq, and_true] at same
    obtain ⟨yearA, yearB, yearC, yearD, dash, monthA, monthB, dash', dayA, dayB⟩ := same
    refine ⟨⟨dash, dash'⟩, year, digits_four.mpr ⟨yearBound, ?_⟩, month + 1, digits_two.mpr ⟨by omega, ?_⟩,
      day + 1, digits_two.mpr ⟨by omega, ?_⟩, by omega, by omega, by omega⟩
    · simp [twoDigits, yearA, yearB, yearC, yearD]
    · simp [twoDigits, monthA, monthB]
    · simp [twoDigits, dayA, dayB]

theorem hours_minutes {a b d e : Nat} :
    (∃ hour, digits [a, b] = some hour ∧ hour ≤ 23 ∧ ∃ minute, digits [d, e] = some minute ∧ minute ≤ 59) ↔
      ∃ (hour : Fin 24) (minute : Fin 60), [a, b] = twoDigits hour ∧ [d, e] = twoDigits minute := by
  constructor
  · rintro ⟨hour, hourRead, hourBound, minute, minuteRead, minuteBound⟩
    exact ⟨⟨hour, by omega⟩, ⟨minute, by omega⟩, (digits_two.mp hourRead).2, (digits_two.mp minuteRead).2⟩
  · rintro ⟨hour, minute, hourSame, minuteSame⟩
    have hourBound := hour.isLt
    have minuteBound := minute.isLt
    exact ⟨hour, digits_two.mpr ⟨by omega, hourSame⟩, by omega, minute, digits_two.mpr ⟨by omega, minuteSame⟩,
      by omega⟩

theorem parseClock_iff {clock : Bytes} (rest : Bytes) (five : clock.length = 5) :
    parseClock (clock ++ rest) = some () ↔
      ∃ (hour : Fin 24) (minute : Fin 60), clock = twoDigits hour ++ 58 :: twoDigits minute := by
  obtain ⟨a, b, c, d, e, rfl⟩ : ∃ a b c d e, clock = [a, b, c, d, e] := by
    rcases clock with _ | ⟨a, _ | ⟨b, _ | ⟨c, _ | ⟨d, _ | ⟨e, clock⟩⟩⟩⟩⟩
    all_goals simp at five
    exact ⟨a, b, c, d, e, by rw [five]⟩
  have cut : parseClock ([a, b, c, d, e] ++ rest) = some () ↔ c = 58 ∧
      ∃ hour, digits [a, b] = some hour ∧ hour ≤ 23 ∧ ∃ minute, digits [d, e] = some minute ∧ minute ≤ 59 := by
    simp [parseClock, get, Option.bind_eq_some_iff]
  rw [cut, hours_minutes]
  constructor
  · rintro ⟨rfl, hour, minute, first, second⟩
    exact ⟨hour, minute, by rw [← first, ← second]; rfl⟩
  · rintro ⟨hour, minute, same⟩
    simp only [twoDigits, cons_append, nil_append, List.cons.injEq, and_true] at same
    obtain ⟨hourA, hourB, colon, minuteA, minuteB⟩ := same
    exact ⟨colon, hour, minute, by rw [hourA, hourB]; rfl, by rw [minuteA, minuteB]; rfl⟩

theorem parseZone_iff (zone : Bytes) : parseZone zone = some () ↔ ∃ written : Zone, zone = written.write := by
  by_cases utc : zone = [90]
  · subst utc
    exact iff_of_true rfl ⟨.utc, rfl⟩
  by_cases six : zone.length = 6
  · obtain ⟨sign, a, b, c, d, e, rfl⟩ : ∃ sign a b c d e, zone = [sign, a, b, c, d, e] := by
      rcases zone with _ | ⟨sign, _ | ⟨a, _ | ⟨b, _ | ⟨c, _ | ⟨d, _ | ⟨e, zone⟩⟩⟩⟩⟩⟩
      all_goals simp at six
      exact ⟨sign, a, b, c, d, e, by rw [six]⟩
    have cut : parseZone [sign, a, b, c, d, e] = some () ↔ ((sign = 43 ∨ sign = 45) ∧ c = 58) ∧
        ∃ hour, digits [a, b] = some hour ∧ hour ≤ 23 ∧ ∃ minute, digits [d, e] = some minute ∧ minute ≤ 59 := by
      by_cases shape : (sign = 43 ∨ sign = 45) ∧ c = 58
      · simp [parseZone, get, Option.bind_eq_some_iff, shape]
      · simp [parseZone, shape]
    rw [cut, hours_minutes]
    constructor
    · rintro ⟨⟨rfl | rfl, rfl⟩, hour, minute, first, second⟩
      · exact ⟨.ahead hour minute, by rw [Zone.write, ← first, ← second]; rfl⟩
      · exact ⟨.behind hour minute, by rw [Zone.write, ← first, ← second]; rfl⟩
    · rintro ⟨written, same⟩
      cases written with
      | utc => exact absurd same utc
      | ahead hour minute =>
        simp only [Zone.write, twoDigits, cons_append, nil_append, List.cons.injEq, and_true] at same
        obtain ⟨plus, hourA, hourB, colon, minuteA, minuteB⟩ := same
        exact ⟨⟨.inl plus, colon⟩, hour, minute, by rw [hourA, hourB]; rfl, by rw [minuteA, minuteB]; rfl⟩
      | behind hour minute =>
        simp only [Zone.write, twoDigits, cons_append, nil_append, List.cons.injEq, and_true] at same
        obtain ⟨minus, hourA, hourB, colon, minuteA, minuteB⟩ := same
        exact ⟨⟨.inr minus, colon⟩, hour, minute, by rw [hourA, hourB]; rfl, by rw [minuteA, minuteB]; rfl⟩
  · refine iff_of_false (by simp [parseZone, utc, six]) ?_
    rintro ⟨written, rfl⟩
    cases written with
    | utc => exact utc rfl
    | ahead hour minute => exact six rfl
    | behind hour minute => exact six rfl

theorem skipDigits_eq (frac : Nat) (zone : Bytes) :
    skipDigits frac zone = (zone.dropWhile isAsciiDigit, frac + (zone.takeWhile isAsciiDigit).length) := by
  induction zone generalizing frac with
  | nil => rfl
  | cons byte zone ih =>
    rw [skipDigits, dropWhile_cons, takeWhile_cons]
    split
    · rw [ih, length_cons, Nat.add_assoc, Nat.add_comm 1]
    · rfl

theorem digit_values {bytes : Bytes} (read : ∀ byte ∈ bytes, isAsciiDigit byte = true) :
    ∃ values, bytes = fractionDigits values := by
  induction bytes with
  | nil => exact ⟨[], rfl⟩
  | cons byte bytes ih =>
    obtain ⟨values, same⟩ := ih fun other member => read other (mem_cons_of_mem _ member)
    have bound := digit_iff.mp (read byte mem_cons_self)
    refine ⟨⟨byte - 48, by omega⟩ :: values, ?_⟩
    rw [fractionDigits, map_cons, same]
    congr 1
    dsimp only
    omega

def Starts (zone : Bytes) : Prop := ∃ byte rest, zone = byte :: rest ∧ (byte = 90 ∨ byte = 43 ∨ byte = 45)

theorem Zone.starts (zone : Zone) : Starts zone.write := by
  cases zone with
  | utc => exact ⟨90, [], rfl, .inl rfl⟩
  | ahead hour minute => exact ⟨43, _, rfl, .inr (.inl rfl)⟩
  | behind hour minute => exact ⟨45, _, rfl, .inr (.inr rfl)⟩

theorem starts_no_digit {left : Bytes} (starts : Starts left) (values : List (Fin 10)) :
    (fractionDigits values ++ left).takeWhile isAsciiDigit = fractionDigits values ∧
      (fractionDigits values ++ left).dropWhile isAsciiDigit = left := by
  obtain ⟨byte, rest, rfl, sign⟩ := starts
  have stops : isAsciiDigit byte = false := by
    rcases sign with rfl | rfl | rfl <;> rfl
  have digit : ∀ written ∈ fractionDigits values, isAsciiDigit written = true := by
    intro written member
    obtain ⟨value, -, rfl⟩ := mem_map.mp member
    exact digit_iff.mpr (by omega)
  rw [takeWhile_append_of_pos digit, dropWhile_append_of_pos digit, takeWhile_cons, dropWhile_cons,
    stops]
  simp

theorem parseFraction_iff {zone left : Bytes} (starts : Starts left) : parseFraction zone = some left ↔
    zone = left ∨ ∃ (first : Fin 10) (more : List (Fin 10)),
      zone = 46 :: fractionDigits (first :: more) ++ left := by
  by_cases point : zone.head? = some 46
  · obtain ⟨rest, rfl⟩ := head?_eq_some_iff.mp point
    have cut : parseFraction (46 :: rest) = some left ↔
        (rest.takeWhile isAsciiDigit).length ≠ 0 ∧ rest.dropWhile isAsciiDigit = left := by
      simp [parseFraction, getFrom, skipDigits_eq]
    rw [cut]
    constructor
    · rintro ⟨filled, rfl⟩
      obtain ⟨values, same⟩ := digit_values fun byte member => mem_takeWhile_imp member
      have whole := takeWhile_append_dropWhile (p := isAsciiDigit) (l := rest)
      cases values with
      | nil => exact absurd (by rw [same]; rfl) filled
      | cons first more =>
        refine .inr ⟨first, more, ?_⟩
        rw [cons_append, ← same, whole]
    · rintro (same | ⟨first, more, same⟩)
      · obtain ⟨byte, others, shape, sign⟩ := starts
        rw [shape, List.cons.injEq] at same
        omega
      · rw [cons_append, List.cons.injEq] at same
        obtain ⟨front, back⟩ := starts_no_digit starts (first :: more)
        rw [same.2, front, back]
        exact ⟨by simp [fractionDigits], rfl⟩
  · have cut : parseFraction zone = some left ↔ zone = left := by simp [parseFraction, point]
    rw [cut]
    constructor
    · exact .inl
    · rintro (same | ⟨first, more, rfl⟩)
      · exact same
      · exact absurd rfl point

theorem parseSeconds_iff {zone left : Bytes} (starts : Starts left) :
    parseSeconds zone = some left ↔ ∃ seconds : Seconds, zone = seconds.write ++ left := by
  by_cases colon : zone.head? = some 58
  · obtain ⟨rest, rfl⟩ := head?_eq_some_iff.mp colon
    have other : ∀ seconds : Seconds, 58 :: rest = seconds.write ++ left → seconds ≠ .omitted := by
      rintro _ same rfl
      obtain ⟨byte, others, rfl, sign⟩ := starts
      have first := (List.cons.inj same).1
      omega
    by_cases short : rest.length < 2
    · refine iff_of_false (by simp [parseSeconds, Nat.not_le.mpr short]) ?_
      rintro ⟨seconds, same⟩
      have length := congrArg List.length same
      cases seconds with
      | omitted => exact other _ same rfl
      | whole second =>
        simp [Seconds.write, twoDigits] at length
        omega
      | fraction second first more =>
        simp [Seconds.write, twoDigits] at length
        omega
    · obtain ⟨a, b, tail, rfl⟩ : ∃ a b tail, rest = a :: b :: tail := by
        rcases rest with _ | ⟨a, _ | ⟨b, tail⟩⟩
        all_goals simp at short
        exact ⟨a, b, tail, rfl⟩
      have cut : parseSeconds (58 :: a :: b :: tail) = some left ↔
          ∃ second, digits [a, b] = some second ∧ second ≤ 59 ∧ parseFraction tail = some left := by
        simp [parseSeconds, get, getFrom, Option.bind_eq_some_iff]
      rw [cut, parseFraction_iff starts]
      constructor
      · rintro ⟨second, read, bound, rfl | ⟨first, more, rfl⟩⟩
        · refine ⟨.whole ⟨second, by omega⟩, ?_⟩
          rw [Seconds.write, ← (digits_two.mp read).2]
          rfl
        · refine ⟨.fraction ⟨second, by omega⟩ first more, ?_⟩
          rw [Seconds.write, ← (digits_two.mp read).2]
          rfl
      · rintro ⟨seconds, same⟩
        cases seconds with
        | omitted => exact absurd rfl (other _ same)
        | whole second =>
          simp only [Seconds.write, twoDigits, cons_append, nil_append, List.cons.injEq, true_and] at same
          obtain ⟨rfl, rfl, rfl⟩ := same
          exact ⟨second, digits_two.mpr ⟨by omega, rfl⟩, by omega, .inl rfl⟩
        | fraction second first more =>
          simp only [Seconds.write, twoDigits, cons_append, nil_append, List.cons.injEq, true_and] at same
          obtain ⟨rfl, rfl, rfl⟩ := same
          exact ⟨second, digits_two.mpr ⟨by omega, rfl⟩, by omega, .inr ⟨first, more, rfl⟩⟩
  · have omitted : (∃ seconds : Seconds, zone = seconds.write ++ left) ↔ zone = left := by
      constructor
      · rintro ⟨seconds, rfl⟩
        cases seconds with
        | omitted => rfl
        | whole second => exact absurd rfl colon
        | fraction second first more => exact absurd rfl colon
      · rintro rfl
        exact ⟨.omitted, rfl⟩
    rw [omitted]
    by_cases point : zone.head? = some 46
    · refine iff_of_false (by simp [parseSeconds, point]) ?_
      rintro rfl
      obtain ⟨byte, others, rfl, sign⟩ := starts
      simp at point
      omega
    · simp [parseSeconds, colon, point]

section
variable {Error : Type} (timestamp : Error)

theorem Stamp.length (stamp : Stamp) : 17 ≤ stamp.write.length := by
  obtain ⟨byte, rest, zone, -⟩ := stamp.zone.starts
  simp only [Stamp.write, Date.write, twoDigits, zone, cons_append, nil_append, length_cons,
    length_append]
  omega

/-- A text is accepted exactly when it is one of the calendar: a real date, hours, minutes and maybe seconds in
    their ranges, any fraction of seconds, and a zone. -/
theorem checkTimestampShape_iff (text : Bytes) :
    checkTimestampShape timestamp text = .ok () ↔ ∃ stamp : Stamp, text = stamp.write := by
  have accepted : checkTimestampShape timestamp text = .ok () ↔ parseTimestamp text = some () := by
    rw [checkTimestampShape]
    cases parseTimestamp text with
    | none => exact iff_of_false (by simp) (by simp)
    | some accepted => exact iff_of_true rfl rfl
  rw [accepted]
  by_cases long : text.length < 17
  · refine iff_of_false (by simp [parseTimestamp, long]) ?_
    rintro ⟨stamp, rfl⟩
    have length := stamp.length
    omega
  · obtain ⟨date, mark, clock, zone, rfl, ten, five⟩ : ∃ date mark clock zone,
        text = date ++ (mark :: (clock ++ zone)) ∧ date.length = 10 ∧ clock.length = 5 := by
      refine ⟨text.take 10, text[10], (text.drop 11).take 5, (text.drop 11).drop 5, ?_, ?_, ?_⟩
      · rw [take_append_drop, getElem_cons_drop, take_append_drop]
      · rw [length_take]
        omega
      · rw [length_take, length_drop]
        omega
    have behind : (date ++ (mark :: (clock ++ zone))).drop 11 = clock ++ zone := by
      rw [drop_append, ten, drop_eq_nil_of_le (by omega)]
      rfl
    have fits : 17 ≤ 10 + (5 + zone.length + 1) := by
      simp only [length_append, length_cons, ten, five] at long
      omega
    have cut : parseTimestamp (date ++ (mark :: (clock ++ zone))) = some () ↔ mark = 84 ∧
        (∃ seen, parseDate date = some seen) ∧ (∃ seen, parseClock (clock ++ zone) = some seen) ∧
          ∃ left, parseSeconds zone = some left ∧ parseZone left = some () := by
      simp [parseTimestamp, get, getFrom, Option.bind_eq_some_iff, ten, five, behind, fits]
      omega
    rw [cut]
    constructor
    · rintro ⟨rfl, ⟨⟨⟩, dated⟩, ⟨⟨⟩, hours⟩, left, read, zoned⟩
      obtain ⟨day, rfl⟩ := (parseDate_iff ten).mp dated
      obtain ⟨hour, minute, rfl⟩ := (parseClock_iff zone five).mp hours
      obtain ⟨written, rfl⟩ := (parseZone_iff left).mp zoned
      obtain ⟨seconds, rfl⟩ := (parseSeconds_iff written.starts).mp read
      refine ⟨⟨day, hour, minute, seconds, written⟩, ?_⟩
      simp [Stamp.write]
    · rintro ⟨stamp, same⟩
      have shape : stamp.write = stamp.date.write ++ (84 :: ((twoDigits stamp.hour ++ 58 :: twoDigits stamp.minute) ++
          (stamp.seconds.write ++ stamp.zone.write))) := by
        simp [Stamp.write]
      rw [shape] at same
      obtain ⟨rfl, rest⟩ := append_inj same ten
      obtain ⟨rfl, tail⟩ := List.cons.inj rest
      obtain ⟨rfl, rfl⟩ := append_inj tail (by rw [five]; rfl)
      exact ⟨rfl, ⟨(), (parseDate_iff ten).mpr ⟨stamp.date, rfl⟩⟩,
        ⟨(), (parseClock_iff _ five).mpr ⟨stamp.hour, stamp.minute, rfl⟩⟩, stamp.zone.write,
        (parseSeconds_iff stamp.zone.starts).mpr ⟨stamp.seconds, rfl⟩, (parseZone_iff _).mpr ⟨stamp.zone, rfl⟩⟩

end

end Timestamp
