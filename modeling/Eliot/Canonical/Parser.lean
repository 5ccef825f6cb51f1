import Eliot.Canonical.Value
import Eliot.Text.Basic

namespace Canonical
open Text (isDigit)

structure Profile (Error : Type) where
  maxInputBytes : Nat
  maxStringBytes : Nat
  maxDepth : Nat
  maxObjectMembers : Nat
  maxArrayItems : Nat
  maxNodes : Nat
  maxParserSteps : Nat
  inputTooLarge : (actualBytes maxBytes : Nat) → Error
  invalidUtf8 : (validUpTo : Nat) → Error
  syntaxError : (offset : Nat) → Error
  duplicateKey : (offset : Nat) → Error
  depthLimit : (maxDepth : Nat) → Error
  memberLimit : (maxMembers : Nat) → Error
  itemLimit : (maxItems : Nat) → Error
  nodeLimit : (maxNodes : Nat) → Error
  stringTooLarge : (maxBytes : Nat) → Error
  number : (offset : Nat) → Error
  unicode : (offset : Nat) → Error

def maxInteger : Nat := 9007199254740991

structure Parser where
  rest : Bytes
  cursor : Nat
  nodes : Nat

namespace Parser

def advance (parser : Parser) (width : Nat) : Parser :=
  { parser with rest := parser.rest.drop width, cursor := parser.cursor + width }

def peek (parser : Parser) : Option Nat := parser.rest.head?

def consumeIf (parser : Parser) (expected : Nat) : Option Parser :=
  if parser.peek = some expected then some (parser.advance 1) else none

end Parser

def isWhitespace (byte : Nat) : Bool := byte == 32 || byte == 10 || byte == 13 || byte == 9

def utf8Width (byte : Nat) : Option Nat :=
  if 0xc2 ≤ byte ∧ byte ≤ 0xdf then some 2
  else if 0xe0 ≤ byte ∧ byte ≤ 0xef then some 3
  else if 0xf0 ≤ byte ∧ byte ≤ 0xf4 then some 4
  else none

def hexNibble (byte : Nat) : Option Nat :=
  if isDigit byte then some (byte - 48)
  else if 97 ≤ byte ∧ byte ≤ 102 then some (byte - 97 + 10)
  else if 65 ≤ byte ∧ byte ≤ 70 then some (byte - 65 + 10)
  else none

section
variable {Error : Type} (profile : Profile Error)

def skipWhitespaceFrom : (steps : Nat) → Parser → Except Error Parser
  | steps, parser =>
    if parser.peek.any isWhitespace then
      match steps with
      | 0 => throw (profile.syntaxError parser.cursor)
      | steps + 1 => skipWhitespaceFrom steps (parser.advance 1)
    else return parser

def skipWhitespace (parser : Parser) : Except Error Parser :=
  skipWhitespaceFrom profile profile.maxParserSteps parser

-- The count never passes the limit, so one parser asks `==` where the other asks `>=`.
def registerNode (parser : Parser) : Except Error Parser :=
  if profile.maxNodes ≤ parser.nodes then throw (profile.nodeLimit profile.maxNodes)
  else return { parser with nodes := parser.nodes + 1 }

def parseLiteral (literal : Bytes) (value : JsonValue) (parser : Parser) :
    Except Error (JsonValue × Parser) :=
  if parser.rest.take literal.length ≠ literal then throw (profile.syntaxError parser.cursor)
  else return (value, parser.advance literal.length)

def skipDigits : (steps : Nat) → Parser → Except Error Parser
  | steps, parser =>
    if parser.peek.any isDigit then
      match steps with
      | 0 => throw (profile.syntaxError parser.cursor)
      | steps + 1 => skipDigits steps (parser.advance 1)
    else return parser

def magnitudeOf (start : Nat) : (digits : Bytes) → (magnitude : Nat) → Except Error Nat
  | [], magnitude => return magnitude
  | byte :: digits, magnitude =>
    let digit := byte - 48
    if (maxInteger - digit) / 10 < magnitude then throw (profile.number start)
    else magnitudeOf start digits (magnitude * 10 + digit)

def skipInteger (start : Nat) (parser : Parser) : Except Error Parser :=
  match parser.peek with
  | some 48 =>
    if (parser.advance 1).peek.any isDigit then throw (profile.number start)
    else return parser.advance 1
  | some byte =>
    if 49 ≤ byte ∧ byte ≤ 57 then
      skipDigits profile profile.maxParserSteps (parser.advance 1)
    else throw (profile.number start)
  | none => throw (profile.number start)

def parseInteger (parser : Parser) : Except Error (Int × Parser) := do
  let start := parser.cursor
  let negative := (parser.consumeIf 45).isSome
  let first := (parser.consumeIf 45).getD parser
  let parser ← skipInteger profile start first
  if parser.peek = some 46 ∨ parser.peek = some 101 ∨ parser.peek = some 69 then
    throw (profile.number start)
  let magnitude ←
    magnitudeOf profile start (first.rest.take (parser.cursor - first.cursor)) 0
  if negative = true ∧ magnitude = 0 then throw (profile.number start)
  return (if negative then -(magnitude : Int) else magnitude, parser)

def appendStringBytes (output bytes : Bytes) : Except Error Bytes :=
  if profile.maxStringBytes < output.length + bytes.length then
    throw (profile.stringTooLarge profile.maxStringBytes)
  else return output ++ bytes

def hexQuadFrom (offset : Nat) : Bytes → (value : Nat) → Except Error Nat
  | [], value => return value
  | byte :: bytes, value =>
    match hexNibble byte with
    | some nibble => hexQuadFrom offset bytes (value * 16 + nibble)
    | none => throw (profile.unicode offset)

def parseHexQuad (offset : Nat) (parser : Parser) : Except Error (Nat × Parser) := do
  if parser.rest.length < 4 then throw (profile.unicode offset)
  let value ← hexQuadFrom profile offset (parser.rest.take 4) 0
  return (value, parser.advance 4)

def pairScalar (first second : Nat) : Nat := 0x10000 + (first - 0xd800) * 1024 + (second - 0xdc00)

def parseLowSurrogate (first offset : Nat) (parser : Parser) : Except Error (Nat × Parser) := do
  if parser.rest.take 2 ≠ [92, 117] then throw (profile.unicode offset)
  let (second, parser) ← parseHexQuad profile offset (parser.advance 2)
  if 0xdc00 ≤ second ∧ second ≤ 0xdfff then return (pairScalar first second, parser)
  else throw (profile.unicode offset)

def parseScalar (offset : Nat) (parser : Parser) : Except Error (Nat × Parser) := do
  let (first, parser) ← parseHexQuad profile offset parser
  if 0xd800 ≤ first ∧ first ≤ 0xdbff then parseLowSurrogate profile first offset parser
  else if 0xdc00 ≤ first ∧ first ≤ 0xdfff then throw (profile.unicode offset)
  else return (first, parser)

def parseUnicodeEscape (output : Bytes) (offset : Nat) (parser : Parser) :
    Except Error (Bytes × Parser) := do
  let (scalar, parser) ← parseScalar profile offset parser
  match Utf8.scalar scalar with
  | some character =>
    let output ← appendStringBytes profile output (Utf8.encodeChar character)
    return (output, parser)
  | none => throw (profile.unicode offset)

def shortEscape : Nat → Option Nat
  | 34 => some 34
  | 92 => some 92
  | 47 => some 47
  | 98 => some 0x08
  | 102 => some 0x0c
  | 110 => some 0x0a
  | 114 => some 0x0d
  | 116 => some 0x09
  | _ => none

def parseEscape (output : Bytes) (parser : Parser) : Except Error (Bytes × Parser) :=
  let offset := parser.cursor - 1
  match parser.peek with
  | none => throw (profile.syntaxError offset)
  | some escape =>
    let parser := parser.advance 1
    match shortEscape escape with
    | some byte => do
      let output ← appendStringBytes profile output [byte]
      return (output, parser)
    | none =>
      if escape = 117 then parseUnicodeEscape profile output offset parser
      else throw (profile.syntaxError offset)

def parseStringFrom (start : Nat) : (steps : Nat) → Bytes → Parser →
    Except Error (List Char × Parser)
  | 0, _, parser => throw (profile.syntaxError parser.cursor)
  | steps + 1, output, parser =>
    match parser.peek with
    | none => throw (profile.syntaxError start)
    | some byte =>
      if byte = 34 then
        match Utf8.decode output with
        | some string => return (string, parser.advance 1)
        | none => throw (profile.unicode start)
      else if byte = 92 then do
        let (output, parser) ← parseEscape profile output (parser.advance 1)
        parseStringFrom start steps output parser
      else if byte < 0x20 then throw (profile.syntaxError parser.cursor)
      else if byte < 0x80 then do
        let output ← appendStringBytes profile output [byte]
        parseStringFrom start steps output (parser.advance 1)
      else
        match utf8Width byte with
        | none => throw (profile.unicode parser.cursor)
        | some width =>
          if parser.rest.length < width then throw (profile.unicode parser.cursor)
          else do
            let output ← appendStringBytes profile output (parser.rest.take width)
            parseStringFrom start steps output (parser.advance width)

def parseString (parser : Parser) : Except Error (List Char × Parser) :=
  match parser.consumeIf 34 with
  | none => throw (profile.syntaxError parser.cursor)
  | some inside => parseStringFrom profile parser.cursor profile.maxParserSteps [] inside

abbrev Inner (Error : Type) := Parser → Except Error (JsonValue × Parser)

def parseItems (inner : Inner Error) : (left : Nat) → List JsonValue → Parser →
    Except Error (List JsonValue × Parser)
  | 0, _, _ => throw (profile.itemLimit profile.maxArrayItems)
  | left + 1, values, parser => do
    let (value, parser) ← inner parser
    let values := values ++ [value]
    let parser ← skipWhitespace profile parser
    match parser.consumeIf 93 with
    | some parser => return (values, parser)
    | none =>
      match parser.consumeIf 44 with
      | none => throw (profile.syntaxError parser.cursor)
      | some parser =>
        let parser ← skipWhitespace profile parser
        parseItems inner left values parser

def parseArray (inner : Option (Inner Error)) (parser : Parser) :
    Except Error (JsonValue × Parser) :=
  match inner with
  | none => throw (profile.depthLimit profile.maxDepth)
  | some inner => do
    let parser ← skipWhitespace profile (parser.advance 1)
    match parser.consumeIf 93 with
    | some parser => return (.array [], parser)
    | none =>
      let (values, parser) ← parseItems profile inner profile.maxArrayItems [] parser
      return (.array values, parser)

def parseMembers (inner : Inner Error) : (left : Nat) → List Member → Parser →
    Except Error (List Member × Parser)
  | 0, _, _ => throw (profile.memberLimit profile.maxObjectMembers)
  | left + 1, members, parser => do
    if parser.peek ≠ some 34 then throw (profile.syntaxError parser.cursor)
    let keyOffset := parser.cursor
    let (key, parser) ← parseString profile parser
    if key ∈ members.map Prod.fst then throw (profile.duplicateKey keyOffset)
    let parser ← skipWhitespace profile parser
    match parser.consumeIf 58 with
    | none => throw (profile.syntaxError parser.cursor)
    | some parser =>
      let parser ← skipWhitespace profile parser
      let (value, parser) ← inner parser
      let members := members ++ [(key, value)]
      let parser ← skipWhitespace profile parser
      match parser.consumeIf 125 with
      | some parser => return (members, parser)
      | none =>
        match parser.consumeIf 44 with
        | none => throw (profile.syntaxError parser.cursor)
        | some parser =>
          let parser ← skipWhitespace profile parser
          parseMembers inner left members parser

def parseObject (arrange : List Member → List Member) (inner : Option (Inner Error))
    (parser : Parser) : Except Error (JsonValue × Parser) :=
  match inner with
  | none => throw (profile.depthLimit profile.maxDepth)
  | some inner => do
    let parser ← skipWhitespace profile (parser.advance 1)
    match parser.consumeIf 125 with
    | some parser => return (.object [], parser)
    | none =>
      let (members, parser) ← parseMembers profile inner profile.maxObjectMembers [] parser
      return (.object (arrange members), parser)

def parseByte (arrange : List Member → List Member) (inner : Option (Inner Error))
    (parser : Parser) : Except Error (JsonValue × Parser) :=
  match parser.peek with
  | some 110 => parseLiteral profile (text "null") .null parser
  | some 116 => parseLiteral profile (text "true") (.boolean true) parser
  | some 102 => parseLiteral profile (text "false") (.boolean false) parser
  | some 34 => do
    let (string, parser) ← parseString profile parser
    return (.string string, parser)
  | some 91 => parseArray profile inner parser
  | some 123 => parseObject profile arrange inner parser
  | some byte =>
    if byte = 45 ∨ isDigit byte then do
      let (integer, parser) ← parseInteger profile parser
      return (.integer integer, parser)
    else throw (profile.syntaxError parser.cursor)
  | none => throw (profile.syntaxError parser.cursor)

def parseValueWith (arrange : List Member → List Member) (inner : Option (Inner Error))
    (parser : Parser) : Except Error (JsonValue × Parser) := do
  let parser ← registerNode profile parser
  parseByte profile arrange inner parser

/-- A value with `levels` more levels of containers allowed in it. -/
def parseValue (arrange : List Member → List Member) : (levels : Nat) → Inner Error
  | 0, parser => parseValueWith profile arrange none parser
  | levels + 1, parser => parseValueWith profile arrange (some (parseValue arrange levels)) parser

/-- A whole document. The parsers of the crate arrange the members of an object by key; read
    without that, a value has its members as they are written. -/
def parseDocument (arrange : List Member → List Member) (input : Bytes) :
    Except Error JsonValue := do
  if profile.maxInputBytes < input.length then
    throw (profile.inputTooLarge input.length profile.maxInputBytes)
  if (Utf8.decode input).isNone then throw (profile.invalidUtf8 (Utf8.validUpTo input))
  let parser ← skipWhitespace profile ⟨input, 0, 0⟩
  let (value, parser) ← parseValue profile arrange profile.maxDepth parser
  let parser ← skipWhitespace profile parser
  if parser.rest ≠ [] then throw (profile.syntaxError parser.cursor)
  return value

end
end Canonical
