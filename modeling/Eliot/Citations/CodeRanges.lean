import Eliot.Text.Basic
import Mathlib.Data.List.Sort

namespace Citations
open Text

structure CodeRange where
  start : Nat
  stop : Nat
deriving DecidableEq

structure FencedCodeRange extends CodeRange where
  contentStart : Nat
  contentStop : Nat
  closed : Bool

def backtick : Nat := 96
def tilde : Nat := 126
def backslash : Nat := 92

/-- `/^ {0,3}(`{3,}|~{3,})/` -/
def fenceOpen : Regex Nat :=
  let three (unit : Nat) : Regex Nat :=
    .seq ((Regex.one (· == unit)).times 3) (.star (.one (· == unit)))
  .seq ((Regex.one (· == 32)).upTo 3) (.capture (.alt (three backtick) (three tilde)))

structure OpenFence where
  char : Nat
  count : Nat
  fenceStart : Nat
  contentStart : Nat

def closesFence (fence : OpenFence) (line : Text) : Bool :=
  let trimmed := trim line
  (List.replicate fence.count fence.char).isPrefixOf trimmed &&
    !trimmed.isEmpty && trimmed.all (· == fence.char)

/-- The lines from `position` on, of a text of `length` units. Every line but the last
    ends with the line feed that was split away. -/
def fencedFrom (length position : Nat) (fence : Option OpenFence) :
    List Text → List FencedCodeRange
  | [] =>
    match fence with
    | none => []
    | some fence => [⟨⟨fence.fenceStart, length⟩, fence.contentStart, length, false⟩]
  | line :: lines =>
    let lineEnd := position + line.length + if lines.isEmpty then 0 else 1
    match fence with
    | none =>
      match (fenceOpen.exec line).bind (·.captures[0]?) with
      | some opened =>
        fencedFrom length lineEnd
          (some ⟨opened.headD backtick, opened.length, position, lineEnd⟩) lines
      | none => fencedFrom length lineEnd none lines
    | some fence =>
      if closesFence fence line then
        ⟨⟨fence.fenceStart, lineEnd⟩, fence.contentStart, position, true⟩ ::
          fencedFrom length lineEnd none lines
      else fencedFrom length lineEnd (some fence) lines

def fencedCodeRanges (text : Text) : List FencedCodeRange :=
  fencedFrom text.length 0 none (text.splitOn 10)

def fencedRanges (text : Text) : List CodeRange :=
  (fencedCodeRanges text).map (·.toCodeRange)

def tickRun (text : Text) (position : Nat) : Nat :=
  1 + ((text.drop (position + 1)).takeWhile (· == backtick)).length

theorem tickRun_pos (text : Text) (position : Nat) : 0 < tickRun text position := by
  unfold tickRun
  omega

/-- Where the first run of exactly `openLength` ticks between `position` and `limit` starts. -/
def closingRun (text : Text) (limit openLength position : Nat) : Option Nat :=
  if position < limit then
    if text[position]? = some backtick then
      if tickRun text position = openLength then some position
      else closingRun text limit openLength (position + tickRun text position)
    else closingRun text limit openLength (position + 1)
  else none
termination_by limit - position
decreasing_by
  · have advances := tickRun_pos text position
    omega
  · omega

theorem closingRun_after {text : Text} {limit openLength position closeStart : Nat}
    (h : closingRun text limit openLength position = some closeStart) : position ≤ closeStart := by
  fun_induction closingRun text limit openLength position with
  | case1 position within tick same => exact (Option.some.inj h).le
  | case2 position within tick other ih => exact (Nat.le_add_right _ _).trans (ih h)
  | case3 position within other ih => exact (Nat.le_add_right _ _).trans (ih h)
  | case4 position outside => cases h

def fencesAfter (fences : List CodeRange) (position : Nat) : List CodeRange :=
  fences.dropWhile (·.stop ≤ position)

theorem fencesAfter_head {fences : List CodeRange} {position : Nat} {fence : CodeRange}
    (h : (fencesAfter fences position).head? = some fence) : position < fence.stop := by
  have stopped := List.head?_dropWhile_not (fun fence : CodeRange => fence.stop ≤ position) fences
  rw [fencesAfter] at h
  simpa [h] using stopped

/-- Exact backtick runs outside ordered fences, from a position on. Unmatched openers
    remain literal prose; outside code a backslash escapes the next unit. -/
def inlineFrom (text : Text) (fences : List CodeRange) (position : Nat) : List CodeRange :=
  if position < text.length then
    let ahead := fencesAfter fences position
    match _inside : ahead.head?.filter (·.start ≤ position) with
    | some fence => inlineFrom text ahead fence.stop
    | none =>
      if text[position]? = some backslash then inlineFrom text ahead (position + 2)
      else if text[position]? ≠ some backtick then inlineFrom text ahead (position + 1)
      else
        let openLength := tickRun text position
        let limit := (ahead.head?.map (·.start)).getD text.length
        match _closed : closingRun text limit openLength (position + openLength) with
        | none => inlineFrom text ahead (position + openLength)
        | some closeStart =>
          ⟨position, closeStart + openLength⟩ :: inlineFrom text ahead (closeStart + openLength)
  else []
termination_by text.length - position
decreasing_by
  · have after := fencesAfter_head (Option.filter_eq_some_iff.mp _inside).1
    omega
  · omega
  · omega
  · have advances := tickRun_pos text position
    omega
  · have advances := tickRun_pos text position
    have after := closingRun_after _closed
    omega

def inlineCodeRanges (text : Text) (fences : List CodeRange) : List CodeRange :=
  inlineFrom text fences 0

end Citations
