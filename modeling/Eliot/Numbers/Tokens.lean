import Eliot.Text.Basic
import Eliot.Text.Matches

/-! A text here is its code points: the expressions of this module match those, or units that are
    code points by themselves. -/

namespace Numbers
open Regex (optional plus)
open Text (isDigit isSpace slice)

def isAlphanumeric (code : Nat) : Bool :=
  isDigit code || (65 ≤ code && code ≤ 90) || (97 ≤ code && code ≤ 122)

structure Unicode where
  /-- `[\p{L}\p{N}]` of an expression with the flags `iu` -/
  letterOrNumber : Nat → Bool
  /-- `[\p{L}\p{M}\p{N}]` -/
  letterMarkOrNumber : Nat → Bool
  ascii : ∀ code < 128, letterOrNumber code = isAlphanumeric code ∧
    letterMarkOrNumber code = isAlphanumeric code

def Unicode.plain : Unicode := ⟨isAlphanumeric, isAlphanumeric, fun _ _ => ⟨rfl, rfl⟩⟩

def isMinus (code : Nat) : Bool := code == 45 || code == 0x2212

def isSign (code : Nat) : Bool := code == 43 || isMinus code

/-- `[ \t\u00a0\u2009]` -/
def isBlank (code : Nat) : Bool := code == 32 || code == 9 || code == 0xa0 || code == 0x2009

def isSeparator (code : Nat) : Bool := code == 46 || code == 44

def unit (wanted : Nat) : Regex Nat := .one (· == wanted)

def digits : Regex Nat := (Regex.one isDigit).plus

def blanks : Regex Nat := .star (.one isBlank)

/-- `[0-9]+(?:[.,][0-9]+)*` -/
def number : Regex Nat := .seq digits (.star (.seq (.one isSeparator) digits))

/-- `\.[0-9]+` -/
def pointed : Regex Nat := .seq (unit 46) digits

/-- `(?:[eE][+\-\u2212]?[0-9]+)?` -/
def exponent : Regex Nat :=
  optional (.all [.one fun code => code == 101 || code == 69, optional (.one isSign), digits])

/-- `NUMERIC_TOKEN_RE` -/
def numericToken : Regex Nat := .seq number exponent

/-- `NUMERIC_LITERAL_RE` -/
def numericLiteral : Regex Nat :=
  .all [optional (.seq (.one isSign) blanks), .alt number pointed, exponent]

/-- A letter in either case; the long s folds to `s`. -/
def letter (lower : Nat) : Regex Nat :=
  .one fun code => code == lower || code + 32 == lower || (lower == 115 && code == 0x17f)

def word (literal : String) : Regex Nat := .all ((text literal).map letter)

def isSuperscript (code : Nat) : Bool :=
  code == 0x2070 || code == 0xb9 || code == 0xb2 || code == 0xb3 || (0x2074 ≤ code && code ≤ 0x2079)

def power : Regex Nat :=
  .alt (.all [unit 94, blanks,
      .alt (.all [unit 123, blanks, optional (.one isSign), digits, blanks, unit 125])
        (.seq (optional (.one isSign)) digits)])
    (.seq (optional (.one fun code => code == 0x207a || code == 0x207b)) (Regex.one isSuperscript).plus)

/-- What may not stand before a power: `[\p{L}\p{N}.,_+\-\u2212]`. -/
def attached (unicode : Unicode) (code : Nat) : Bool :=
  unicode.letterOrNumber code || isSeparator code || code == 95 || isSign code

/-- `COMPOUND_POWER_RE`; the groups are the mantissa and the power. -/
def compoundPower (unicode : Unicode) : Regex.Guarded Nat where
  notBefore := attached unicode
  body := .all [.capture (.seq (optional (.one isSign)) (.alt number pointed)), blanks,
    .alt (.one fun code => code == 0xd7 || code == 0xb7 || code == 42)
      (.alt (word "times") (.seq (unit 92) (.alt (word "times") (word "cdot")))),
    blanks, unit 49, unit 48, .capture power]
  notAfter := unicode.letterOrNumber

/-- `BARE_POWER_RE`; the groups are the sign and the power. -/
def barePower (unicode : Unicode) : Regex.Guarded Nat where
  notBefore := attached unicode
  body := .all [.capture (optional (.one isSign)), unit 49, unit 48, .capture power]
  notAfter := unicode.letterOrNumber

def hyphenated (value : Text) : Text := value.map fun code => if code = 0x2212 then 45 else code

/-- `replace` of the first occurrence of a code. -/
def replaceFirst (wanted by' : Nat) : Text → Text
  | [] => []
  | code :: rest => if code = wanted then by' :: rest else code :: replaceFirst wanted by' rest

/-- `[+-]?` -/
def plainSign : Regex Nat := optional (.one fun code => code == 43 || code == 45)

/-- `/^[1-9]\d{0,2},\d{3}$/` behind an optional sign: a comma between groups. -/
def commaGroup (signed : Regex Nat) : Regex Nat :=
  .all [signed, .one fun code => 49 ≤ code && code ≤ 57, (Regex.one isDigit).upTo 2, unit 44,
    (Regex.one isDigit).times 3, .finish]

/-- `/^\d+,\d+$/` behind an optional sign -/
def commaDecimal (signed : Regex Nat) : Regex Nat := .all [signed, digits, unit 44, digits, .finish]

def decimalPoint (signed : Regex Nat) (mantissa : Text) : Text :=
  if (commaDecimal signed).test mantissa && !(commaGroup signed).test mantissa then
    replaceFirst 44 46 mantissa
  else mantissa

/-- `replace(/^([+-]?)\./, …)` -/
def leadingZero : Text → Text
  | 46 :: rest => 48 :: 46 :: rest
  | 43 :: 46 :: rest => 43 :: 48 :: 46 :: rest
  | 45 :: 46 :: rest => 45 :: 48 :: 46 :: rest
  | mantissa => mantissa

def withoutZeros (mantissa : Text) : Text :=
  let kept := mantissa.rdropWhile (· == 48)
  if kept.getLast? = some 46 then kept.dropLast else kept

/-- `toLowerCase` of a literal, whose only letters are of its exponent. -/
def lowered (value : Text) : Text := value.map fun code => if code = 69 then 101 else code

def normalizeNumericLiteral (value : Text) : Text :=
  let pieces := (lowered (hyphenated (value.filter (!isBlank ·)))).splitOn 101
  let mantissa := leadingZero (decimalPoint plainSign (pieces.headD []))
  let mantissa := if (Regex.all [plainSign, digits, unit 46, digits, .finish]).test mantissa then
    withoutZeros mantissa else mantissa
  mantissa ++ match pieces[1]? with
    | none => []
    | some exponent => 101 :: exponent

/-- `SUPER_DIGITS`, with the superscript signs -/
def plainPower (code : Nat) : Nat :=
  if code = 0x207b then 45 else if code = 0x207a then 43
  else if code = 0xb9 then 49 else if code = 0xb2 then 50 else if code = 0xb3 then 51
  else if code = 0x2070 ∨ (0x2074 ≤ code ∧ code ≤ 0x2079) then code - 0x2070 + 48 else code

/-- `replace(/^\{([+-]?[0-9]+)}$/u, "$1")` -/
def unbraced (value : Text) : Text :=
  match (Regex.all [unit 123, .capture (.seq plainSign digits), unit 125, .finish]).exec value with
  | some once => once.captures.headD []
  | none => value

/-- `replace(/^0+(?=\d)/, "")`, or `0` for nothing at all -/
def withoutLeadingZeros (value : Text) : Text :=
  match value.dropWhile (· == 48) with
  | [] => [48]
  | code :: rest => if isDigit code ∨ value.head? ≠ some 48 then code :: rest else 48 :: code :: rest

def normalizePower (raw : Text) : Text :=
  let value := if raw.head? = some 94 then
      unbraced (replaceFirst 0x2212 45 ((raw.drop 1).filter (!isBlank ·)))
    else raw.map plainPower
  let unsigned := if value.head? = some 43 ∨ value.head? = some 45 then value.drop 1 else value
  (if value.head? = some 45 then [45] else []) ++ withoutLeadingZeros unsigned

structure CompoundPowerToken where
  value : Text
  start : Nat
  stop : Nat

def cut {α : Type} (filler : α) (list : List α) (last : Nat) : List CompoundPowerToken → List α
  | [] => list.drop last
  | token :: tokens =>
    (list.drop last).take (token.start - last) ++ filler :: cut filler list token.stop tokens

def withoutCompoundPowers (text : Text) (tokens : List CompoundPowerToken) : Text := cut 32 text 0 tokens

def compoundMantissa (raw : Text) : Text :=
  let mantissa := replaceFirst 0x2212 45 raw
  let sign := if mantissa.head? = some 43 ∨ mantissa.head? = some 45 then mantissa.take 1 else []
  let magnitude := mantissa.drop sign.length
  sign ++ if magnitude.contains 46 then magnitude else decimalPoint .empty magnitude

def compoundPowerTokens (unicode : Unicode) (text : Text) : List CompoundPowerToken :=
  ((compoundPower unicode).matchAll text).map fun hit =>
    ⟨compoundMantissa (hit.captures.headD []) ++ [0xd7, 49, 48, 94] ++
      normalizePower (hit.captures.getD 1 []), hit.start, hit.stop⟩

def barePowerTokens (unicode : Unicode) (text : Text) : List CompoundPowerToken :=
  ((barePower unicode).matchAll text).map fun hit =>
    ⟨replaceFirst 0x2212 45 (hit.captures.headD []) ++ [49, 48, 94] ++
      normalizePower (hit.captures.getD 1 []), hit.start, hit.stop⟩

/-- `/([+\-\u2212])\s*\(\s*$/u`: the sign before a parenthesis at the end of a text. -/
def openedSign (before : Text) : Option Nat :=
  match before.reverse.dropWhile isSpace with
  | 40 :: rest =>
    match rest.dropWhile isSpace with
    | code :: _ => if isSign code then some code else none
    | [] => none
  | _ => none

/-- `(?:\s|~|\\[,;:! ])*` -/
def spacing : Regex Nat :=
  .star (.alt (.one isSpace) (.alt (unit 126)
    (.seq (unit 92) (.one fun code => [44, 59, 58, 33, 32].contains code))))

/-- `/^(?:\s|~|\\[,;:! ])*(?:\\?%(?:\s|~|\\[,;:! ])*)?\)/u` -/
def closing : Regex Nat :=
  .all [spacing, optional (.all [optional (unit 92), unit 37, spacing]), unit 41]

def withParenthesizedSign (text : Text) (token : CompoundPowerToken) : Text :=
  match openedSign (text.take token.start) with
  | none => token.value
  | some sign =>
    if closing.test (text.drop token.stop) && !token.value.head?.any fun code => code == 43 || code == 45 then
      hyphenated [sign] ++ token.value
    else token.value

structure Literals where
  values : List Text
  previousEnd : Option Nat
  unattached : Bool

def Literals.step (unicode : Unicode) (remaining : Text) (literals : Literals) (hit : Regex.Hit Nat) :
    Literals :=
  let minus := hit.token.head?.any isMinus
  -- `slice(-1, start)` is empty before the first literal
  let gap := literals.previousEnd.map fun stop => slice remaining stop hit.start
  let spacedInfix := gap.any (fun gap => !gap.isEmpty && gap.all isBlank) && minus &&
    (hit.token.drop 1).head?.any isBlank
  let infixMinus := minus && literals.unattached && (literals.previousEnd = some hit.start || spacedInfix)
  let valueStart := if infixMinus then hit.start + 1 else hit.start
  let value := if infixMinus then hit.token.drop 1 else hit.token
  { values := literals.values ++
      [withParenthesizedSign remaining ⟨normalizeNumericLiteral value, valueStart, hit.stop⟩]
    previousEnd := some hit.stop
    unattached := !(remaining.take valueStart).getLast?.any fun code =>
      unicode.letterMarkOrNumber code || code == 95 }

def literalValues (unicode : Unicode) (remaining : Text) : List Text :=
  (((Regex.unguarded numericLiteral).matchAll remaining).foldl (Literals.step unicode remaining)
    ⟨[], none, false⟩).values

def withoutPowers (unicode : Unicode) (text : Text) : Text × Text :=
  let first := withoutCompoundPowers text (compoundPowerTokens unicode text)
  (first, withoutCompoundPowers first (barePowerTokens unicode first))

/-- Every value that `numericLiterals` adds to its set, in order. -/
def numericValues (unicode : Unicode) (text : Text) : List Text :=
  let (first, second) := withoutPowers unicode text
  (compoundPowerTokens unicode text).map (withParenthesizedSign text) ++
    (barePowerTokens unicode first).map (withParenthesizedSign first) ++ literalValues unicode second

def numericLiterals (unicode : Unicode) (text : Text) : List Text := (numericValues unicode text).eraseDups

/-- `/(?<![\d.,])[+\-\u2212]?\d{1,3}(?:[ \u00a0\u2009]\d{3})+(?![\d.,])/g` -/
def spacedGroups : Regex.Guarded Nat :=
  let digit : Regex Nat := .one isDigit
  let edge := fun code => isDigit code || isSeparator code
  ⟨edge, .all [optional (.one isSign), digit, digit.upTo 2,
    (Regex.seq (.one fun code => code == 32 || code == 0xa0 || code == 0x2009) (digit.times 3)).plus], edge⟩

/-- `spaced.replace(/[ \u00a0\u2009]/g, ",")` -/
def grouped (spaced : Text) : Text :=
  spaced.map fun code => if code = 32 ∨ code = 0xa0 ∨ code = 0x2009 then 44 else code

def replaceHits (replacement : Regex.Hit Nat → Text) (text : Text) (last : Nat) :
    List (Regex.Hit Nat) → Text
  | [] => text.drop last
  | hit :: hits => slice text last hit.start ++ replacement hit ++ replaceHits replacement text hit.stop hits

def writtenText (text : Text) (supported : List Text) : Text :=
  replaceHits (fun hit =>
    let token : CompoundPowerToken := ⟨normalizeNumericLiteral (grouped hit.token), hit.start, hit.stop⟩
    if withParenthesizedSign text token ∈ supported then grouped hit.token else hit.token)
    text 0 (spacedGroups.matchAll text)

def unsupportedNumbers (unicode : Unicode) (text quote : Text) : List Text :=
  let supported := numericLiterals unicode quote
  (numericLiterals unicode (writtenText text supported)).filter fun token => token ∉ supported

def numbersSupported (unicode : Unicode) (text quote : Text) : Bool :=
  (unsupportedNumbers unicode text quote).isEmpty

def countNumericQuantities (unicode : Unicode) (valueText : Text) : Nat :=
  let (first, second) := withoutPowers unicode valueText
  (compoundPowerTokens unicode valueText).length + (barePowerTokens unicode first).length +
    ((Regex.unguarded numericToken).matchAll second).length

end Numbers
