import Eliot.Blocks.Captions
import Eliot.Citations.Wording

namespace Blocks
open Text

/-- ` {0,3}#{1,6}(?:[ \t]+|$)` at the start -/
def headingMarks : Regex Nat :=
  .all [indent, unit 35, (unit 35).upTo 5, .alt Citations.blank.plus .finish]

/-- `/[ \t]+#{1,6}[ \t]*$/` -/
def closingMarks : Regex Nat := .all [Citations.blank.plus, unit 35, (unit 35).upTo 5, Citations.blanks, .finish]

/-- `/^(?:page|страница)\s+\d+$/iu` -/
def pageNumber : Regex Nat :=
  .all [Citations.phrases ["page", "страница"], space.plus, digits, .finish]

/-- `replace(/^…/, "")` -/
def withoutStart (marks : Regex Nat) (text : Text) : Text :=
  match marks.exec text with
  | some once => once.rest
  | none => text

/-- `replace(/…$/, "")` -/
def withoutEnd (marks : Regex Nat) (text : Text) : Text :=
  match (List.range (text.length + 1)).find? fun place => marks.test (text.drop place) with
  | some place => text.take place
  | none => text

def isCitableBlock (type : BlockType) (passage : Text) : Bool :=
  let trimmed := trim (withoutStart (unit 0xfeff) (trim passage))
  if trimmed = [] then false
  else
    let content := if type = .code then trimmed
      else trim (withoutEnd closingMarks (withoutStart headingMarks trimmed))
    if content = [] then false else !pageNumber.test content

def decoded (bytes : Bytes) : Option Text := (Utf8.decode bytes).map (·.flatMap units)

def citableIdsFromBytes (blocks : List Block) (bytes : Bytes) : List Nat :=
  (blocks.filter fun block => block.start < block.stop && block.stop ≤ bytes.length &&
    (decoded (slice bytes block.start block.stop)).any (isCitableBlock block.type)).map (·.id)

example : isCitableBlock .paragraph (text "Page 12") = false := by decide +kernel

theorem encode_decoded {bytes : Bytes} {text : Text} (found : decoded bytes = some text) : encode text = bytes := by
  obtain ⟨chars, read, rfl⟩ := Option.map_eq_some_iff.mp found
  rw [encode, scalars_units]
  exact Utf8.encode_decode read

end Blocks
