import Eliot.Blocks.Lines
import Eliot.Text.Matches

namespace Blocks
open Text
open Regex (optional)

inductive BlockType where
  | heading | paragraph | list | table | code | quote
deriving DecidableEq

def unit (wanted : Nat) : Regex Nat := .one (· == wanted)

def space : Regex Nat := .one isSpace

def spaces : Regex Nat := .star space

def digits : Regex Nat := (Regex.one isDigit).plus

/-- ` {0,3}` -/
def indent : Regex Nat := (unit 32).upTo 3

/-- `.` -/
def dot : Regex Nat := .one fun unit => unit != 10 && unit != 13 && unit != 0x2028 && unit != 0x2029

/-- A lazy repetition: none first, and never more than `bound` times. -/
def lazily (body : Regex Nat) : Nat → Regex Nat
  | 0 => .empty
  | bound + 1 => .alt .empty (.seq body (lazily body bound))

/-- `/^ {0,3}(`{3,}|~{3,})/` -/
def opening : Regex Nat :=
  let three (wanted : Nat) : Regex Nat := .seq ((unit wanted).times 3) (.star (unit wanted))
  .seq indent (.capture (.alt (three 96) (three 126)))

/-- `/^ {0,3}#{1,6}\s+(.+?)\s*#*\s*$/` for a body of some length -/
def atx (length : Nat) : Regex Nat :=
  .all [indent, unit 35, (unit 35).upTo 5, space.plus, .capture (.seq dot (lazily dot length)), spaces,
    .star (unit 35), spaces, .finish]

/-- `/^(?: {0,3}=+| {0,3}-+)\s*$/` -/
def setext : Regex Nat :=
  .all [.alt (.seq indent (unit 61).plus) (.seq indent (unit 45).plus), spaces, .finish]

/-- `/^\s*[-*+]>?\s/` -/
def bulleted : Regex Nat :=
  .all [spaces, .one fun unit => unit == 45 || unit == 42 || unit == 43, optional (unit 62), space]

/-- `/^\s*\|?\s*:?-{3,}:?\s*(?:\|\s*:?-{3,}:?\s*)+\|?\s*$/` -/
def delimiterRow : Regex Nat :=
  let cell : Regex Nat :=
    .all [spaces, optional (unit 58), (unit 45).times 3, .star (unit 45), optional (unit 58), spaces]
  .all [spaces, optional (unit 124), cell, (Regex.seq (unit 124) cell).plus, optional (unit 124), spaces, .finish]

/-- `/^\s*(?:[-*+]|(\d+)[.)])\s+/` -/
def listMarker : Regex Nat :=
  .all [spaces, .alt (.one fun unit => unit == 45 || unit == 42 || unit == 43)
    (.seq (.capture digits) (.one fun unit => unit == 46 || unit == 41)), space.plus]

/-- `/^ {0,3}>/` -/
def quoted : Regex Nat := .seq indent (unit 62)

/-- `/^(?: {2,}|\t)\S/` -/
def indented : Regex Nat :=
  .seq (.alt (.all [unit 32, unit 32, .star (unit 32)]) (unit 9)) (.one (!isSpace ·))

/-- `/^\s*\|/` -/
def barBefore : Regex Nat := .seq spaces (unit 124)

/-- `/\|\s*$/`, which may match anywhere. -/
def barBehind (body : Text) : Bool := body.tails.any (Regex.all [unit 124, spaces, .finish]).test

/-- A call of `emit`: what becomes of some lines, and the heading that they stand under. -/
structure Emission where
  type : BlockType
  first : Line
  last : Line
  heading : Option Text

structure Pending where
  type : BlockType
  first : Line
  last : Line

structure Fence where
  char : Nat
  count : Nat

def Fence.closes (fence : Fence) (body : Text) : Bool :=
  let close := trim body
  (List.replicate fence.count fence.char).isPrefixOf close && !close.isEmpty && close.all (· == fence.char)

structure ScanState where
  heading : Option Text
  pending : Option Pending
  fence : Option Fence
  emissions : List Emission

namespace ScanState

def emit (state : ScanState) (type : BlockType) (first last : Line) : ScanState :=
  { state with emissions := state.emissions ++ [⟨type, first, last, state.heading⟩] }

def flush (state : ScanState) : ScanState :=
  match state.pending with
  | none => state
  | some pending => { state.emit pending.type pending.first pending.last with pending := none }

def classify (state : ScanState) (line : Line) (next : Option Line) : BlockType :=
  let pending := state.pending.map (·.type)
  let tableStart := next.any fun next => line.body.contains 124 && delimiterRow.test next.body
  let startsList := match listMarker.exec line.body with
    | none => false
    | some marker => pending ≠ some .paragraph || marker.captures.isEmpty ||
        marker.captures.head?.map number = some 1
  if quoted.test line.body then .quote
  else if startsList || (pending = some .list && indented.test line.body) then .list
  else if tableStart || (pending = some .table && line.body.contains 124) || barBefore.test line.body ||
      barBehind line.body then .table
  else if pending = some .list then .list
  else .paragraph

def step (state : ScanState) (line : Line) (next : Option Line) : ScanState × Bool :=
  match state.fence with
  | some fence =>
    let extended := { state with pending := state.pending.map fun pending => { pending with last := line } }
    (if fence.closes line.body then { extended.flush with fence := none } else extended, false)
  | none =>
    match (opening.exec line.body).bind (·.captures[0]?) with
    | some opened =>
      ({ state.flush with
          fence := some ⟨opened.headD 96, opened.length⟩, pending := some ⟨.code, line, line⟩ }, false)
    | none =>
      if trim line.body = [] then (state.flush, false)
      else
        let atx := (atx line.body.length).exec line.body
        let underlined := next.filter fun next => setext.test next.body
        if atx.isSome || (underlined.isSome && !bulleted.test line.body) then
          let heading := ((atx.bind (·.captures[0]?)).getD (trim line.body)).take 500
          let headed := { state.flush with heading := some heading }
          match atx, underlined with
          | none, some next => (headed.emit .heading line next, true)
          | _, _ => (headed.emit .heading line line, false)
        else
          let type := state.classify line next
          match state.pending with
          | some pending =>
            if pending.type = type then ({ state with pending := some { pending with last := line } }, false)
            else ({ state.flush with pending := some ⟨type, line, line⟩ }, false)
          | none => ({ state with pending := some ⟨type, line, line⟩ }, false)

def scan (state : ScanState) : List Line → ScanState
  | [] => state.flush
  | line :: rest =>
    let (after, consumed) := state.step line rest.head?
    after.scan (if consumed then rest.tail else rest)
termination_by lines => lines.length
decreasing_by
  split <;> simp

end ScanState

/-- The calls of `emit` for a text. -/
def emissions (text : Text) : List Emission := (ScanState.scan ⟨none, none, none, []⟩ (lines text)).emissions

section
open Utf8 (continuation)

structure Block where
  id : Nat
  type : BlockType
  start : Nat
  stop : Nat
  heading : Option Text

structure CharacterRange where
  start : Nat
  stop : Nat

structure Scanned where
  block : Block
  range : CharacterRange

def maxBlockBytes : Nat := 4096

/-- `/[.!?…]["'”’»\])]*\s+/gu` -/
def sentence : Regex Nat :=
  .all [.one fun unit => [46, 33, 63, 0x2026].contains unit,
    .star (.one fun unit => [34, 39, 0x201d, 0x2019, 0xbb, 93, 41].contains unit), space.plus]

/-- `while (continuation(bytes[stop])) stop--` -/
def backUp (bytes : Bytes) : Nat → Nat
  | 0 => 0
  | stop + 1 => if continuation bytes[stop + 1]? then backUp bytes stop else stop + 1

/-- Behind the last byte of some kind after a place and before `stop`, or `stop` itself. -/
def behindLast (test : Nat → Bool) (bytes : Bytes) (after stop : Nat) : Nat :=
  match (List.range stop).reverse.find? fun point => after < point && bytes[point]?.any test with
  | some point => point + 1
  | none => stop

def chunkBytes (type : BlockType) : Nat := if type = .paragraph then 1024 else maxBlockBytes

def chunkStop (type : BlockType) (bytes : Bytes) (offset : Nat) : Nat :=
  let stop := backUp bytes (min bytes.length (offset + chunkBytes type))
  if stop < bytes.length then
    if type = .paragraph then
      let candidate := decode (slice bytes offset stop)
      let sentenceEnd := ((sentence.matchAll candidate).getLast?.map (·.stop)).getD 0
      if candidate.length < 2 * sentenceEnd then offset + (encode (candidate.take sentenceEnd)).length
      else behindLast (fun byte => byte == 32 || byte == 10) bytes (offset + 512) stop
    else behindLast (· == 10) bytes offset stop
  else stop

def chunks (type : BlockType) (bytes : Bytes) (offset : Nat) : List (Nat × Nat) :=
  if offset < bytes.length then
    let stop := chunkStop type bytes offset
    -- a chunk is never empty, or the loop would not end
    if offset < stop then (offset, stop) :: chunks type bytes stop else []
  else []
termination_by bytes.length - offset

/-- One chunk of a call, after `characterOffset` units of it. -/
def emitChunk (emission : Emission) (bytes : Bytes) :
    List Scanned × Nat → Nat × Nat → List Scanned × Nat
  | (emitted, characterOffset), (offset, stop) =>
    let length := (decode (slice bytes offset stop)).length
    (emitted ++ [⟨⟨emitted.length + 1, emission.type, emission.first.start + offset, emission.first.start + stop,
      emission.heading⟩, ⟨emission.first.charStart + characterOffset,
      emission.first.charStart + characterOffset + length⟩⟩], characterOffset + length)

def emit (text : Text) (emitted : List Scanned) (emission : Emission) : List Scanned :=
  let size := emission.last.stop - emission.first.start
  if size ≤ (if emission.type = .paragraph then 1536 else maxBlockBytes) then
    emitted ++ [⟨⟨emitted.length + 1, emission.type, emission.first.start, emission.last.stop, emission.heading⟩,
      ⟨emission.first.charStart, emission.last.charStop⟩⟩]
  else
    let bytes := encode (slice text emission.first.charStart emission.last.charStop)
    ((chunks emission.type bytes 0).foldl (emitChunk emission bytes) (emitted, 0)).1

def scannedBlocks (text : Text) : List Scanned := (emissions text).foldl (emit text) []

end

end Blocks
