import Eliot.Text.Basic

namespace Text

def prose (literal : String) {spelled : List Char} (_ : literal = String.ofList spelled) : Text :=
  spelled.map Char.toNat

def isHigh (unit : Nat) : Bool := 0xd800 ≤ unit && unit ≤ 0xdbff
def isLow (unit : Nat) : Bool := 0xdc00 ≤ unit && unit ≤ 0xdfff
def isSurrogate (unit : Nat) : Bool := 0xd800 ≤ unit && unit ≤ 0xdfff

def utf8PointBytes : Text → Nat
  | [code] => if code < 0x80 then 1 else if code < 0x800 then 2 else 3
  | _ => 4

def utf8Bytes (text : Text) : Nat := ((codePoints text).map utf8PointBytes).sum

def hexDigit (value : Nat) : Nat := if value < 10 then 48 + value else 87 + value

/-- `\uXXXX` -/
def unicodeEscape (code : Nat) : Text :=
  [92, 117, hexDigit (code / 4096 % 16), hexDigit (code / 256 % 16), hexDigit (code / 16 % 16),
    hexDigit (code % 16)]

def shortEscape : Nat → Option Nat
  | 8 => some 98
  | 9 => some 116
  | 10 => some 110
  | 12 => some 102
  | 13 => some 114
  | _ => none

def jsonPoint : Text → Text
  | [code] =>
    if code = 34 ∨ code = 92 then [92, code]
    else if code < 32 then
      match shortEscape code with
      | some letter => [92, letter]
      | none => unicodeEscape code
    else if isSurrogate code then unicodeEscape code
    else [code]
  | pair => pair

def jsonString (text : Text) : Text := 34 :: (codePoints text).flatMap jsonPoint ++ [34]

def jsonArray (items : List Text) : Text := 91 :: (items.intersperse [44]).flatten ++ [93]

theorem codePoints_append (first second : Text)
    (apart : ¬(first.getLast?.any isHigh ∧ second.head?.any isLow)) :
    codePoints (first ++ second) = codePoints first ++ codePoints second := by
  induction first using codePoints.induct with
  | case1 high low rest paired ih =>
    have below : ¬(rest.getLast?.any isHigh ∧ second.head?.any isLow) := by
      rintro ⟨last, next⟩
      refine apart ⟨?_, next⟩
      cases rest with
      | nil => simp at last
      | cons unit rest => simpa using last
    simp only [List.cons_append, codePoints, paired, if_true, ih below]
  | case2 high low rest unpaired ih =>
    have below : ¬((low :: rest).getLast?.any isHigh ∧ second.head?.any isLow) := by
      simpa using apart
    simp only [List.cons_append] at ih
    simp only [List.cons_append, codePoints, unpaired, ih below]
    rfl
  | case3 rest short =>
    match rest with
    | [] => simp [codePoints]
    | [unit] =>
      cases second with
      | nil => simp [codePoints]
      | cons next second =>
        rw [List.singleton_append, codePoints, if_neg (by simpa [isHigh, isLow] using apart)]
        rfl
    | high :: low :: rest => exact absurd rfl (short high low rest)

end Text
