import Eliot.Blocks.Scan

namespace Blocks
open Text
open Regex (optional)

def letter (capital : Nat) : Regex Nat := .one fun unit => unit == capital || unit == capital + 32

def blank : Regex Nat := .one fun unit => unit == 32 || unit == 9

/-- `[A-Za-z]` regardless of case, which has the long s and the Kelvin sign too. -/
def suffix : Regex Nat := .one fun unit =>
  (65 ≤ unit && unit ≤ 90) || (97 ≤ unit && unit ≤ 122) || unit == 0x17f || unit == 0x212a

/-- `/^ {0,3}Table[ \t]+\d+[A-Za-z]?[.:][ \t]+\S/iu` -/
def tableCaptionStart : Regex Nat :=
  .all [indent, letter 84, letter 65, letter 66, letter 76, letter 69, blank.plus, digits, optional suffix,
    .one fun unit => unit == 46 || unit == 58, blank.plus, .one (!isSpace ·)]

section

variable {α : Type}

/-- `blocks[index - 1]` -/
def previous (blocks : List α) (index : Nat) : Option α := if index = 0 then none else blocks[index - 1]?

/-- `blocks[index + 1]` -/
def next (blocks : List α) (index : Nat) : Option α := blocks[index + 1]?

end

def isWholeBlock (type : BlockType) (blocks : List Scanned) (index : Nat) : Bool :=
  blocks[index]?.any fun ⟨block, _⟩ => block.type == type &&
    !((previous blocks index).any fun before => before.block.type == type && before.block.stop == block.start) &&
    !((next blocks index).any fun after => after.block.type == type && block.stop == after.block.start)

def isWholeTableBlock (blocks : List Scanned) (index : Nat) : Bool := isWholeBlock .table blocks index

def isWholeParagraphBlock (blocks : List Scanned) (index : Nat) : Bool := isWholeBlock .paragraph blocks index

def onlyWhitespace (text : Text) (start stop : Nat) : Bool :=
  start ≤ stop && (slice text start stop).all isSpace

structure TableCaptionCandidate where
  captionIndex : Nat
  tableIndex : Nat

section

variable (text : Text) (blocks : List Scanned)

def hasPreviousTable (index : Nat) (range : CharacterRange) : Bool :=
  (previous blocks index).any fun before =>
    before.block.type == .table && onlyWhitespace text before.range.stop range.start

def hasNextTable (index : Nat) (range : CharacterRange) : Bool :=
  (next blocks index).any fun after =>
    after.block.type == .table && onlyWhitespace text range.stop after.range.start

def candidate (index : Nat) : Option TableCaptionCandidate :=
  match blocks[index]? with
  | none => none
  | some ⟨block, range⟩ =>
    if block.type ≠ .paragraph then none
    else if !tableCaptionStart.test (bodyOf (slice text range.start range.stop)) then none
    else if hasPreviousTable text blocks index range = hasNextTable text blocks index range then none
    else
      let tableIndex := if hasPreviousTable text blocks index range then index - 1 else index + 1
      if isWholeTableBlock blocks tableIndex && isWholeParagraphBlock blocks index then some ⟨index, tableIndex⟩
      else none

def candidates : List TableCaptionCandidate := (List.range blocks.length).filterMap (candidate text blocks)

def captionsByTable (tableIndex : Nat) : List Nat :=
  ((candidates text blocks).filter (·.tableIndex == tableIndex)).map (·.captionIndex)

structure Joined where
  captionIndex : Nat
  tableIndex : Nat
  start : Nat
  stop : Nat

def joinTable (tableIndex : Nat) : Option Joined :=
  match captionsByTable text blocks tableIndex with
  | [captionIndex] =>
    match blocks[tableIndex]?, blocks[captionIndex]? with
    | some ⟨table, _⟩, some ⟨caption, _⟩ =>
      if table.type ≠ .table ∨ caption.type ≠ .paragraph then none
      else
        let start := min table.start caption.start
        let stop := max table.stop caption.stop
        if maxBlockBytes < stop - start then none else some ⟨captionIndex, tableIndex, start, stop⟩
    | _, _ => none
  | _ => none

def joinedTables : List Joined :=
  (((candidates text blocks).map (·.tableIndex)).dedup).filterMap (joinTable text blocks)

def pushBlock (joined : List Joined) (result : List Block) : Scanned × Nat → List Block
  | (⟨block, _⟩, index) =>
    if joined.any (·.captionIndex == index) then result
    else
      match joined.find? (·.tableIndex == index) with
      | some range => result ++ [{ block with id := result.length + 1, start := range.start, stop := range.stop }]
      | none => result ++ [{ block with id := result.length + 1 }]

def joinAdjacentTableCaptions : List Block :=
  let joined := joinedTables text blocks
  if joined = [] then blocks.map (·.block) else blocks.zipIdx.foldl (pushBlock joined) []

end

def scanBlocks (text : Text) : List Block := joinAdjacentTableCaptions text (scannedBlocks text)

end Blocks
