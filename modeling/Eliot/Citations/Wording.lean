import Eliot.Citations.Resolve
import Eliot.Numbers.Tokens
import Eliot.Text.Encoding
import Eliot.Text.Replaced

namespace Citations
open Text
open Regex (Guarded optional unguarded)

structure Language where
  unicode : Numbers.Unicode
  /-- `[\p{L}\p{N}]` -/
  letterOrNumber : Nat → Bool
  /-- `[\p{P}\p{S}]` -/
  punctuationOrSymbol : Nat → Bool
  toLowerCase : Text → Text
  /-- The segments of the sentence segmenter. -/
  segment : Text → List Text
  partition : ∀ text, (segment text).flatten = text

def point : Text → Nat
  | [high, low] => 0x10000 + (high - 0xd800) * 0x400 + (low - 0xdc00)
  | [unit] => unit
  | _ => 0

def points (text : Text) : Text := (codePoints text).map point

def space : Regex Nat := .one isSpace

def lineTerminator (unit : Nat) : Bool := unit == 10 || unit == 13 || unit == 0x2028 || unit == 0x2029

/-- `^` with the flag `m` -/
def atLineStart (body : Regex Nat) : Guarded Nat := ⟨(!lineTerminator ·), body, fun _ => false⟩

/-- `[-+*]|\d+[.)]` -/
def itemSign : Regex Nat :=
  .alt (.one fun unit => unit == 45 || unit == 43 || unit == 42)
    (.seq digits (.one fun unit => unit == 46 || unit == 41))

/-- `^\s{0,3}#{1,6}\s+` -/
def headingMark : Guarded Nat := atLineStart (.all [space.upTo 3, unit 35, (unit 35).upTo 5, space.plus])

/-- `^\s{0,3}(?:[-+*]|\d+[.)])\s+` -/
def itemMark : Guarded Nat := atLineStart (.all [space.upTo 3, itemSign, space.plus])

/-- `^\s{0,3}>\s?` -/
def quoteMark : Guarded Nat := atLineStart (.all [space.upTo 3, unit 62, optional space])

/-- `replace` of every match by a space -/
def blanked (expression : Guarded Nat) (text : Text) : Text :=
  Regex.replaced (fun _ => [32]) text 0 ((expression.matchAll text).map (·.toFound))

/-- `[|*_~`]` -/
def isMarkup (unit : Nat) : Bool := unit == 124 || unit == 42 || unit == 95 || unit == 126 || unit == 96

def cleanStatement (text : Text) : Text :=
  let text := blanked quoteMark (blanked itemMark (blanked headingMark (blanked (unguarded label) text)))
  trim (blanked (unguarded space.plus) (text.map fun unit => if isMarkup unit then 32 else unit))

/-- `[=<>+*/×÷^∑∫√]` -/
def isOperator (code : Nat) : Bool :=
  code == 61 || code == 60 || code == 62 || code == 43 || code == 42 || code == 47 || code == 0xd7 ||
    code == 0xf7 || code == 94 || code == 0x2211 || code == 0x222b || code == 0x221a

def hasStatementSignal (language : Language) (text : Text) : Bool :=
  (points text).any language.letterOrNumber || (points text).any isOperator

def otherCases : List (Nat × Nat) :=
  [(115, 0x17f), (107, 0x212a), (0x451, 0x401), (0x432, 0x1c80), (0x434, 0x1c81), (0x43e, 0x1c82),
    (0x441, 0x1c83), (0x442, 0x1c84), (0x442, 0x1c85), (0x44a, 0x1c86)]

def folded (wanted code : Nat) : Bool :=
  code == wanted || otherCases.contains (wanted, code) ||
    (((97 ≤ wanted && wanted ≤ 122) || (0x430 ≤ wanted && wanted ≤ 0x44f)) && code + 32 == wanted)

def phrase (literal : String) : Regex Nat := .all ((text literal).map fun wanted => .one (folded wanted))

def choice : List (Regex Nat) → Regex Nat
  | [] => .one fun _ => false
  | [regex] => regex
  | regex :: regexes => .alt regex (choice regexes)

def phrases (literals : List String) : Regex Nat := choice (literals.map phrase)

/-- `[ \t]` -/
def blank : Regex Nat := .one fun code => code == 32 || code == 9

def blanks : Regex Nat := .star blank

/-- `[—–]` -/
def dash : Regex Nat := .one fun code => code == 0x2014 || code == 0x2013

/-- `(?=\S)` -/
def shown : Regex Nat := .one (!isSpace ·)

/-- `\b` behind a letter -/
def wordEnd : Regex Nat :=
  .alt .finish (.one fun code => !(Numbers.isAlphanumeric code || code == 95 || code == 0x17f || code == 0x212a))

/-- `(?=$|[^\p{L}\p{N}_-])` -/
def termEnd (unicode : Numbers.Unicode) : Regex Nat :=
  .alt .finish (.one fun code => !(unicode.letterOrNumber code || code == 95 || code == 45))

/-- `(?::[ \t]*|[ \t]*[—–][ \t]*)(?=\S)` -/
def colonOrDash : Regex Nat := .seq (.alt (.seq (unit 58) blanks) (.all [blanks, dash, blanks])) shown

/-- `(?::[ \t]*|[—–][ \t]*)(?=\S)` -/
def colonOrDashAtOnce : Regex Nat := .seq (.alt (.seq (unit 58) blanks) (.seq dash blanks)) shown

def spaces : Regex Nat := space.plus

def inferences (unicode : Numbers.Unicode) : List (Regex Nat) :=
  [.seq (choice [.all [phrase "my", spaces, phrase "inference"], phrase "inference", phrase "interpretation"])
      colonOrDash,
    .all [phrase "[inference]", .alt (.seq (unit 58) blanks)
      (.alt blank.plus (.seq dash blanks)), shown],
    .all [phrase "this is ", optional (.all [phrase "a", optional (phrase "n"), unit 32]), phrase "inference", wordEnd],
    .all [phrases ["i", "we"], phrase " infer", wordEnd],
    .all [phrase "вывод", optional (.seq spaces (phrase "[inference]")), colonOrDashAtOnce],
    .seq (phrases ["предположение", "это предположение", "моё предположение", "мое предположение"])
      colonOrDashAtOnce,
    .all [phrases ["я предполагаю", "можно предположить"],
      .alt (.seq blanks (.one fun code => code == 44 || code == 0x2014 || code == 58))
        blank.plus, shown],
    .seq (phrase "интерпретация") colonOrDash,
    .all [phrase "полагаю,", .star space, phrase "что", termEnd unicode]]

def abstentions : List (Regex Nat) :=
  [.all [phrases ["i", "we"], phrase " abstain", wordEnd],
    .all [phrases ["i", "we"], unit 32,
      phrases ["cannot", "can't", "could not", "couldn't", "do not", "don't"], unit 32,
      phrases ["determine", "say", "tell", "identify", "answer", "conclude", "verify", "establish", "find", "see",
        "confirm", "know"], wordEnd],
    .all [optional (.seq (phrase "the") spaces),
      phrases ["source", "sources", "evidence", "provided sources", "provided source"], spaces,
      phrases ["do not", "don't", "does not", "doesn't"], spaces,
      phrases ["state", "say", "specify", "report", "provide", "contain"]],
    .all [phrase "no", spaces, phrases ["source", "evidence"], spaces,
      phrases ["says", "say", "states", "state", "shows", "show", "was provided"]],
    .seq (phrase "there is not enough ") (phrases ["evidence", "information"]),
    .seq (phrase "insufficient ") (phrases ["evidence", "information"]),
    .all [phrases ["не могу", "невозможно", "нельзя"], spaces,
      phrases ["определить", "установить", "сказать", "ответить", "проверить", "заключить"]],
    .all [phrases ["в источниках", "источники", "предоставленные источники"], spaces,
      phrases ["не указано", "не сообщают", "не содержат", "не позволяют определить"]],
    .all [phrase "недостаточно", spaces, phrases ["данных", "сведений", "информации"]],
    .all [phrase "воздерживаюсь", .star space, unit 58, .star space, shown]]

def russianMissingAnswer (unicode : Numbers.Unicode) : Regex Nat :=
  .all [phrase "я не нахожу в ", optional (.seq (phrase "этой") spaces), phrase "статье", spaces,
    phrase "ответа", termEnd unicode]

/-- `[\s"'“‘(]` -/
def opensStatement (code : Nat) : Bool :=
  isSpace code || code == 34 || code == 39 || code == 0x201c || code == 0x2018 || code == 40

def isExplicitInferenceOrAbstention (language : Language) (text : Text) : Bool :=
  let start := (points text).dropWhile opensStatement
  (inferences language.unicode).any (·.test start) || abstentions.any (·.test start) ||
    (russianMissingAnswer language.unicode).test start

end Citations
