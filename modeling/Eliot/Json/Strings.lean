import Eliot.Text.Json
import Eliot.Text.Scalars

namespace Json

open List

def hexValue (unit : Nat) : Option Nat :=
  if 48 ≤ unit ∧ unit ≤ 57 then some (unit - 48)
  else if 97 ≤ unit ∧ unit ≤ 102 then some (unit - 87)
  else if 65 ≤ unit ∧ unit ≤ 70 then some (unit - 55)
  else none

def hexCode (one two three four : Nat) : Option Nat :=
  match hexValue one, hexValue two, hexValue three, hexValue four with
  | some one, some two, some three, some four => some (((one * 16 + two) * 16 + three) * 16 + four)
  | _, _, _, _ => none

def unescape : Nat → Option Nat
  | 34 => some 34
  | 92 => some 92
  | 47 => some 47
  | 98 => some 8
  | 102 => some 12
  | 110 => some 10
  | 114 => some 13
  | 116 => some 9
  | _ => none

def readString : Text → Option (Text × Text)
  | [] => none
  | unit :: rest =>
    if unit = 34 then some ([], rest)
    else if unit < 32 then none
    else if unit = 92 then
      match rest with
      | 117 :: one :: two :: three :: four :: rest =>
        match hexCode one two three four with
        | some code => (readString rest).map fun read => (code :: read.1, read.2)
        | none => none
      | letter :: rest =>
        match unescape letter with
        | some unit => (readString rest).map fun read => (unit :: read.1, read.2)
        | none => none
      | [] => none
    else (readString rest).map fun read => (unit :: read.1, read.2)

theorem readString_close (rest : Text) : readString (34 :: rest) = some ([], rest) := by
  rw [readString.eq_def]
  exact if_pos rfl

theorem readString_plain {unit : Nat} (quote : unit ≠ 34) (control : ¬ unit < 32) (backslash : unit ≠ 92) (rest : Text) :
    readString (unit :: rest) = (readString rest).map fun read => (unit :: read.1, read.2) := by
  conv_lhs => rw [readString.eq_def]
  simp only [if_neg quote, if_neg control, if_neg backslash]

theorem readString_letter {unit letter : Nat} (other : letter ≠ 117) (known : unescape letter = some unit) (rest : Text) :
    readString (92 :: letter :: rest) = (readString rest).map fun read => (unit :: read.1, read.2) := by
  rw [readString]
  · simp [known]
  · intro one two three four rest same
    exact absurd same other

theorem readString_unicode {one two three four code : Nat} (known : hexCode one two three four = some code)
    (rest : Text) : readString (92 :: 117 :: one :: two :: three :: four :: rest) =
      (readString rest).map fun read => (code :: read.1, read.2) := by
  rw [readString]
  simp [known]

def Quotes (quote : Text → Text) : Prop :=
  ∀ text rest, ∃ body, quote text = 34 :: body ∧ readString (body ++ rest) = some (text, rest)

def Spells (part written : Text) : Prop :=
  ∀ rest, readString (written ++ rest) = (readString rest).map fun read => (part ++ read.1, read.2)

theorem Spells.append {part other written more : Text} (first : Spells part written)
    (second : Spells other more) : Spells (part ++ other) (written ++ more) := by
  intro rest
  rw [append_assoc, first, second, Option.map_map]
  congr 1
  funext read
  simp

theorem spells_nil : Spells [] [] := by
  intro rest
  rw [nil_append]
  cases readString rest <;> rfl

theorem spells_plain {unit : Nat} (quote : unit ≠ 34) (control : ¬ unit < 32) (backslash : unit ≠ 92) :
    Spells [unit] [unit] := by
  intro rest
  exact readString_plain quote control backslash rest

theorem spells_escaped {unit letter : Nat} (other : letter ≠ 117) (known : unescape letter = some unit) :
    Spells [unit] [92, letter] := by
  intro rest
  exact readString_letter other known rest

theorem hexValue_hexDigit {value : Nat} (small : value < 16) : hexValue (Text.hexDigit value) = some value := by
  unfold hexValue Text.hexDigit
  by_cases decimal : value < 10
  · rw [if_pos decimal, if_pos (by omega)]
    congr 1
    omega
  · rw [if_neg decimal, if_neg (by omega), if_pos (by omega)]
    congr 1
    omega

theorem spells_unicode {unit : Nat} (small : unit < 0x10000) : Spells [unit] (Text.unicodeEscape unit) := by
  intro rest
  have code : ((unit / 4096 % 16 * 16 + unit / 256 % 16) * 16 + unit / 16 % 16) * 16 + unit % 16 = unit := by
    omega
  have read : hexCode (Text.hexDigit (unit / 4096 % 16)) (Text.hexDigit (unit / 256 % 16))
      (Text.hexDigit (unit / 16 % 16)) (Text.hexDigit (unit % 16)) = some unit := by
    rw [hexCode, hexValue_hexDigit (by omega), hexValue_hexDigit (by omega), hexValue_hexDigit (by omega),
      hexValue_hexDigit (by omega)]
    exact congrArg some code
  exact readString_unicode read rest

theorem quotes_of_spells {quote : Text → Text}
    (spelled : ∀ text, ∃ body, quote text = 34 :: (body ++ [34]) ∧ Spells text body) : Quotes quote := by
  intro text rest
  obtain ⟨body, shape, spells⟩ := spelled text
  refine ⟨body ++ [34], shape, ?_⟩
  rw [append_assoc, spells, singleton_append, readString_close]
  simp

theorem spells_points {written : Text → Text} {text : Text}
    (each : ∀ point ∈ Text.codePoints text, Spells point (written point)) :
    Spells text ((Text.codePoints text).flatMap written) := by
  have points (points : List Text) (each : ∀ point ∈ points, Spells point (written point)) :
      Spells points.flatten (points.flatMap written) := by
    induction points with
    | nil => exact spells_nil
    | cons point points ih =>
      rw [flatten_cons, flatMap_cons]
      exact (each point mem_cons_self).append (ih fun other listed => each other (mem_cons_of_mem _ listed))
  have whole := points _ each
  rwa [Text.codePoints_flatten] at whole

theorem unescape_shortEscape {unit letter : Nat} (known : Text.shortEscape unit = some letter) :
    unescape letter = some unit ∧ letter ≠ 117 := by
  have cases := Text.shortEscape_some known
  rcases cases with ⟨rfl, rfl⟩ | ⟨rfl, rfl⟩ | ⟨rfl, rfl⟩ | ⟨rfl, rfl⟩ | ⟨rfl, rfl⟩ <;> decide

inductive Spelling : Text → Text → Prop where
  | plain {unit : Nat} (quote : unit ≠ 34) (control : ¬ unit < 32) (backslash : unit ≠ 92)
      (alone : Text.isSurrogate unit = false) : Spelling [unit] [unit]
  | letter {unit letter : Nat} (known : unescape letter = some unit) (other : letter ≠ 117) :
      Spelling [unit] [92, letter]
  | code {unit : Nat} (small : unit < 0x10000) : Spelling [unit] (Text.unicodeEscape unit)
  | pair {high low : Nat} (first : Text.isHigh high = true) (second : Text.isLow low = true) :
      Spelling [high, low] [high, low]

theorem isLow_of_pair (text : Text) : ∀ high low, [high, low] ∈ Text.codePoints text → Text.isLow low = true := by
  induction text using Text.codePoints.induct with
  | case1 first second rest paired ih =>
    intro high low member
    rw [Text.codePoints, if_pos paired] at member
    rcases mem_cons.mp member with same | member
    · simp only [Bool.and_eq_true, decide_eq_true_eq] at paired
      simp only [List.cons.injEq, and_true] at same
      rw [same.2]
      simpa [Text.isLow] using paired.2
    · exact ih high low member
  | case2 first second rest unpaired ih =>
    intro high low member
    rw [Text.codePoints, if_neg unpaired] at member
    exact ih high low (by simpa using member)
  | case3 rest short =>
    intro high low member
    cases rest with
    | nil => simp [Text.codePoints] at member
    | cons first rest =>
      cases rest with
      | nil => simp [Text.codePoints] at member
      | cons second rest => exact absurd rfl (short first second rest)

theorem spelling_jsonPoint {text point : Text} (member : point ∈ Text.codePoints text) :
    Spelling point (Text.jsonPoint point) := by
  rcases Text.codePoints_points text point member with ⟨unit, rfl⟩ | ⟨high, low, rfl, first⟩
  · simp only [Text.jsonPoint]
    split_ifs with special control alone
    · rcases special with rfl | rfl
      · exact .letter rfl (by decide)
      · exact .letter rfl (by decide)
    · split
      · rename_i letter known
        have back := unescape_shortEscape known
        exact .letter back.1 back.2
      · exact .code (by omega)
    · simp only [Text.isSurrogate, Bool.and_eq_true, decide_eq_true_eq] at alone
      exact .code (by omega)
    · exact .plain (by omega) control (by omega) (by simpa using alone)
  · exact .pair first (isLow_of_pair text high low member)

theorem Spelling.spells {point written : Text} (spelling : Spelling point written) : Spells point written := by
  cases spelling with
  | plain quote control backslash alone => exact spells_plain quote control backslash
  | letter known other => exact spells_escaped other known
  | code small => exact spells_unicode small
  | @pair high low first second =>
    simp only [Text.isHigh, Text.isLow, Bool.and_eq_true, decide_eq_true_eq] at first second
    have left : Spells [high] [high] := spells_plain (by omega) (by omega) (by omega)
    have right : Spells [low] [low] := spells_plain (by omega) (by omega) (by omega)
    exact left.append right

/-- `JSON.stringify` of a string is read back. -/
theorem quotes_jsonString : Quotes Text.jsonString :=
  quotes_of_spells fun _ => ⟨_, rfl, spells_points fun _ member => (spelling_jsonPoint member).spells⟩

end Json
