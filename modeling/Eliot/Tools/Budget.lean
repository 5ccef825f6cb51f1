import Eliot.Citations.Wording
import Eliot.Context.Models
import Eliot.Text.Scalars

namespace Tools
open Text Context

def maxToolOutputTokens : Nat := 4000
def maxToolSourceScope : Nat := 50
def maxRows : Nat := 50

def invalid {α : Type} (message : String) : Except LibraryError α := .error ⟨.invalid, message, 400⟩

def outputBudget : Option Int → Except LibraryError Nat
  | none => .ok maxToolOutputTokens
  | some value =>
    if value < 1 ∨ maxToolOutputTokens < value then invalid "maxTokens must be an integer from 1 to 4000."
    else .ok value.toNat

def fits (body : Text) (tokens : Nat) : Bool := (encode body).length ≤ tokens * 3

def minimumTokensFor (body : Text) : Nat := max 1 (((encode body).length + 2) / 3)

/-- `value.replace(/\s+/gu, " ").trim()` after every control character is a space. -/
def singleLine (value : Text) : Text :=
  trim (Citations.blanked (Regex.unguarded Citations.space.plus)
    (value.map fun unit => if unit < 32 ∨ unit = 127 then 32 else unit))

def displayCursor (cursor : Text) : Text := prose "Continue with cursor " rfl ++ cursor ++ [46]

def cursorLine (cursor : Option Text) : Text :=
  match cursor with
  | none | some [] => []
  | some cursor => [10, 10] ++ displayCursor cursor

def blockLabel (revisionId : Text) (block : Nat) : Text :=
  prose "[R" rfl ++ revisionId ++ [58] ++ decimal block ++ [93]

/-- `bytes [start,stop)` -/
def byteRange (start stop : Nat) : Text :=
  prose "bytes [" rfl ++ decimal start ++ [44] ++ decimal stop ++ [41]

def joinLines (lines : List Text) : Text := [10].intercalate lines

/-- What a tool answers: text with a number of complete rows or chunks, or the advice to ask with a larger
    budget, of which `body` is what would have to fit. -/
inductive Reply where
  | page (rows : Nat) (body : Text)
  | minimum (body : Text) (purpose : Text)
deriving DecidableEq

namespace Reply

def oneCompleteResult : Text := prose "one complete result" rfl

def thisResponse : Text := prose "this response" rfl

def render : Reply → Text
  | page _ body => body
  | minimum body purpose =>
    prose "Minimum maxTokens: " rfl ++ decimal (minimumTokensFor body) ++ prose " to fit " rfl ++ purpose ++ [46]

def advised : Reply → Option Nat
  | page _ _ => none
  | minimum body _ => some (minimumTokensFor body)

end Reply

def withinBudget (body : Text) (tokens : Nat) : Reply :=
  if fits body tokens then .page 0 body else .minimum body Reply.thisResponse

theorem fits_minimum (body : Text) : fits body (minimumTokensFor body) = true := by
  unfold fits minimumTokensFor
  rw [decide_eq_true_eq]
  omega

section

/-- The rows of an answer, as many as fit: `cursor` is what stands below so many rows. -/
def listingOf (heading empty : Text) (rows : List Text) (cursor : Nat → Text) (tokens : Nat) : Nat → Option Reply
  | 0 =>
    let body := heading ++ empty ++ cursor 0
    if rows = [] ∧ fits body tokens then some (.page 0 body) else none
  | count + 1 =>
    let body := heading ++ joinLines (rows.take (count + 1)) ++ cursor (count + 1)
    if fits body tokens then some (.page (count + 1) body)
    else listingOf heading empty rows cursor tokens count

def listing (heading empty : Text) (rows : List Text) (cursor : Nat → Text) (firstCursor : Text) (tokens : Nat) :
    Reply :=
  (listingOf heading empty rows cursor tokens rows.length).getD
    (.minimum (heading ++ rows.headD empty ++ firstCursor) Reply.oneCompleteResult)

variable {heading empty firstCursor : Text} {rows : List Text} {cursor : Nat → Text} {tokens : Nat}

theorem listingOf_page {count : Nat} {reply : Reply}
    (found : listingOf heading empty rows cursor tokens count = some reply) :
    ∃ shown body, reply = .page shown body ∧ shown ≤ count ∧ fits body tokens = true ∧
      ((shown = 0 ∧ rows = [] ∧ body = heading ++ empty ++ cursor 0) ∨
        0 < shown ∧ body = heading ++ joinLines (rows.take shown) ++ cursor shown) := by
  induction count with
  | zero =>
    rw [listingOf] at found
    split at found
    · rename_i both
      cases found
      exact ⟨0, _, rfl, Nat.le_refl _, both.2, .inl ⟨rfl, both.1, rfl⟩⟩
    · cases found
  | succ count ih =>
    rw [listingOf] at found
    split at found
    · rename_i fit
      cases found
      exact ⟨count + 1, _, rfl, Nat.le_refl _, fit, .inr ⟨Nat.succ_pos _, rfl⟩⟩
    · obtain ⟨shown, body, same, below, rest⟩ := ih found
      exact ⟨shown, body, same, Nat.le_succ_of_le below, rest⟩

theorem listingOf_shows (empty : Text) {count : Nat} (positive : 0 < count)
    (room : fits (heading ++ joinLines (rows.take 1) ++ cursor 1) tokens = true) :
    ∃ shown body, listingOf heading empty rows cursor tokens count = .some (.page shown body) ∧ 0 < shown := by
  induction count with
  | zero => omega
  | succ count ih =>
    rw [listingOf]
    split
    · exact ⟨_, _, rfl, Nat.succ_pos _⟩
    · rename_i missed
      cases count with
      | zero => exact absurd room missed
      | succ count => exact ih (Nat.succ_pos _)

theorem listing_advised (same : firstCursor = cursor (min 1 rows.length)) {body purpose : Text}
    (advice : listing heading empty rows cursor firstCursor tokens = .minimum body purpose) :
    ∃ shown page, listing heading empty rows cursor firstCursor (minimumTokensFor body) = .page shown page ∧
      (rows ≠ [] → 0 < shown) := by
  unfold listing at advice ⊢
  cases found : listingOf heading empty rows cursor tokens rows.length with
  | some reply =>
    obtain ⟨shown, page, rfl, -⟩ := listingOf_page found
    rw [found] at advice
    cases advice
  | none =>
    rw [found] at advice
    cases advice
    cases rows with
    | nil =>
      have room := fits_minimum (heading ++ empty ++ cursor 0)
      refine ⟨0, heading ++ empty ++ cursor 0, ?_, fun filled => absurd rfl filled⟩
      have none : firstCursor = cursor 0 := same
      rw [none, List.headD_nil, List.length_nil, listingOf, if_pos ⟨rfl, room⟩]
      rfl
    | cons row rest =>
      have first : joinLines ((row :: rest).take 1) = row := by simp [joinLines]
      have room := fits_minimum (heading ++ row ++ cursor 1)
      have one : min 1 (row :: rest).length = 1 := by simp
      rw [one] at same
      rw [← first] at room
      obtain ⟨shown, page, listed, positive⟩ :=
        listingOf_shows empty (Nat.succ_pos rest.length) room
      rw [first] at listed
      refine ⟨shown, page, ?_, fun _ => positive⟩
      rw [same, List.headD_cons, List.length_cons, listed]
      rfl

end

end Tools
