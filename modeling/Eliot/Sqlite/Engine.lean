import Eliot.Text.Encoding
import Mathlib.Data.List.Range
import Mathlib.Data.List.Zip

namespace Sqlite

open List

/-- The value of an expression; `malformed` stands for one that could not be computed, which makes
    the statement fail. -/
inductive Value where
  | null
  | number (value : Rat)
  | text (value : Text)
  | malformed
deriving DecidableEq

/-- The key of a row of `json_each`; a value that is no container is a row without a key. -/
inductive Key where
  | root
  | index (position : Nat)
  | member (name : Text)
deriving DecidableEq

structure Engine where
  julianday : Text → Option Int
  /-- `strftime('%Y-%m-%dT%H:%M:%fZ', date)` -/
  strftime : Text → Option Text
  jsonValid : Text → Bool
  jsonArrayLength : Text → Nat
  jsonEach : Text → List (Key × Value)
  /-- `json_extract(value, '$.field')` -/
  jsonExtract : Value → Text → Value
  /-- `json_extract(json, '$[position].field')` -/
  jsonExtractAt : Text → Nat → Text → Value
  array : ∀ json, jsonArrayLength json ≠ 0 →
    (jsonEach json).map Prod.fst = (List.range (jsonArrayLength json)).map Key.index
  element : ∀ json position field, jsonValid json = true →
    jsonExtractAt json position field ≠ .null → ∃ value,
      (Key.index position, value) ∈ jsonEach json ∧
        jsonExtract value field = jsonExtractAt json position field

def Value.ofText : Option Text → Value
  | none => .null
  | some value => .text value

/-- Whether a condition `left IS right` lets a trigger fail the statement. -/
def Value.same (left right : Value) : Bool :=
  left = .malformed ∨ right = .malformed ∨ left = right

/-- Whether a condition `left IS NOT right` lets a trigger fail the statement. -/
def Value.differs (left right : Value) : Bool :=
  left = .malformed ∨ right = .malformed ∨ left ≠ right

/-- Whether a condition `value NOT IN (...)` lets a trigger fail the statement. -/
def Value.outside (value : Value) (values : List Value) : Bool :=
  value = .malformed ∨ value ≠ .null ∧ value ∉ values

theorem Value.eq_of_not_differs {left right : Value} (passed : left.differs right = false) :
    left = right := by
  simp only [Value.differs, decide_eq_false_iff_not, not_or, not_not] at passed
  exact passed.2.2

variable {values : List Value}

theorem Value.mem_of_not_outside {value : Value}
    (passed : value.outside values = false) : value = .null ∨ value ∈ values := by
  simp only [Value.outside, decide_eq_false_iff_not, not_or, not_and_or, not_not] at passed
  exact passed.2

def exceeds (left right : Option Int) : Bool :=
  match left, right with
  | some left, some right => right < left
  | _, _ => false

def atMost (left right : Option Int) : Bool :=
  match left, right with
  | some left, some right => left ≤ right
  | _, _ => false

/-- A `CHECK` only fails when its comparison is false. -/
def checkExceeds (left right : Option Int) : Bool :=
  match left, right with
  | some left, some right => right < left
  | _, _ => true

/-- `text GLOB pattern`, for a pattern in which only `?` is special. -/
def glob : Text → Text → Bool
  | [], [] => true
  | 63 :: pattern, _ :: rest => glob pattern rest
  | unit :: pattern, other :: rest => unit = other && glob pattern rest
  | _, _ => false

/-- `CAST(text AS INTEGER)`: the number that the text begins with. -/
def castInteger (value : Text) : Int :=
  match value.dropWhile Text.isSpace with
  | 45 :: digits => -Text.number (digits.takeWhile Text.isDigit)
  | 43 :: digits => Text.number (digits.takeWhile Text.isDigit)
  | digits => Text.number (digits.takeWhile Text.isDigit)

/-- `CAST(substr(text, first, 2) AS INTEGER) BETWEEN low AND high` -/
def pairBetween (value : Text) (first : Nat) (low high : Int) : Bool :=
  let part := castInteger (Text.slice value (first - 1) (first + 1))
  low ≤ part ∧ part ≤ high

section

/-- `json_each(left) o JOIN json_each(right) n ON n.key = o.key`, the values side by side. -/
def joined (left right : List (Key × Value)) : List (Value × Value) :=
  left.flatMap fun row => (right.filter fun other => other.1 ≠ .root ∧ other.1 = row.1).map
    fun other => (row.2, other.2)

def rows (start : Nat) (values : List Value) : List (Key × Value) :=
  (values.zipIdx start).map fun entry => (.index entry.2, entry.1)

@[simp] theorem rows_cons (start : Nat) (value : Value) (values : List Value) :
    rows start (value :: values) = (.index start, value) :: rows (start + 1) values := by
  simp [rows, zipIdx_cons]

theorem keys_rows (values : List Value) :
    (rows 0 values).map Prod.fst = (List.range values.length).map Key.index := by
  rw [rows, map_map, range_eq_range', ← zipIdx_map_snd 0 values, map_map]
  rfl

theorem mem_rows {position : Nat} {value : Value}
    (found : values[position]? = some value) : (.index position, value) ∈ rows 0 values :=
  mem_map.mpr ⟨(value, position), mk_mem_zipIdx_iff_getElem?.mpr found, rfl⟩

theorem rows_index {start : Nat} {row : Key × Value}
    (listed : row ∈ rows start values) : ∃ position, start ≤ position ∧ row.1 = .index position := by
  obtain ⟨⟨value, position⟩, member, rfl⟩ := mem_map.mp listed
  exact ⟨position, le_snd_of_mem_zipIdx member, rfl⟩

theorem filter_rows_below {start position : Nat} (below : position < start) :
    (rows start values).filter (fun other => other.1 ≠ .root ∧ other.1 = .index position) = [] := by
  rw [filter_eq_nil_iff]
  intro row listed
  obtain ⟨place, above, key⟩ := rows_index listed
  simp only [key, Key.index.injEq, decide_eq_true_eq, not_and]
  omega

theorem joined_rows (start : Nat) (left right : List Value) :
    joined (rows start left) (rows start right) = left.zip right := by
  induction left generalizing start right with
  | nil => rfl
  | cons value left ih =>
    cases right with
    | nil => simp [joined, rows]
    | cons other right =>
      have head : (rows start (other :: right)).filter
          (fun row => row.1 ≠ .root ∧ row.1 = .index start) = [(.index start, other)] := by
        rw [rows_cons, filter_cons_of_pos (by simp), filter_rows_below (Nat.lt_succ_self start)]
      have tail : joined (rows (start + 1) left) (rows start (other :: right)) =
          joined (rows (start + 1) left) (rows (start + 1) right) := by
        unfold joined
        refine flatMap_congr fun row listed => ?_
        obtain ⟨position, above, key⟩ := rows_index listed
        rw [rows_cons, filter_cons_of_neg]
        simp only [key, decide_eq_true_eq, not_and, Key.index.injEq]
        omega
      have split : joined (rows start (value :: left)) (rows start (other :: right)) =
          ((rows start (other :: right)).filter
            (fun row => row.1 ≠ .root ∧ row.1 = .index start)).map (fun row => (value, row.2)) ++
          joined (rows (start + 1) left) (rows start (other :: right)) := by
        rw [rows_cons start value left]
        rfl
      rw [split, head, tail, ih]
      rfl

/-- A text that `json_each` reads as the array whose length `json_array_length` gives. -/
def Engine.Listed (engine : Engine) (json : Text) : Prop :=
  (engine.jsonEach json).map Prod.fst = (List.range (engine.jsonArrayLength json)).map Key.index

def Engine.entries (engine : Engine) (json : Text) : List Value :=
  (engine.jsonEach json).map Prod.snd

variable {engine : Engine} {json : Text}

theorem Engine.Listed.each (listed : engine.Listed json) :
    engine.jsonEach json = rows 0 (engine.entries json) := by
  have places (start count : Nat) (pairs : List (Key × Value))
      (keys : pairs.map Prod.fst = (List.range' start count).map Key.index) :
      pairs = rows start (pairs.map Prod.snd) := by
    induction pairs generalizing start count with
    | nil => rfl
    | cons pair pairs ih =>
      cases count with
      | zero => simp at keys
      | succ count =>
        simp only [range'_succ, map_cons, List.cons.injEq] at keys
        obtain ⟨own, rest⟩ := keys
        rw [map_cons, rows_cons, ← ih (start + 1) count rest, ← own]
  refine places 0 (engine.jsonArrayLength json) _ ?_
  rw [← range_eq_range']
  exact listed

theorem Engine.Listed.length (listed : engine.Listed json) :
    (engine.entries json).length = engine.jsonArrayLength json := by
  have counted := congrArg List.length listed
  simpa [Engine.entries] using counted

theorem set_of_changed {left right : List Value} (equal : right.length = left.length)
    {change : Value × Value} (once : (left.zip right).filter (fun pair => pair.2 ≠ pair.1) = [change]) :
    ∃ position, left[position]? = some change.1 ∧ right = left.set position change.2 := by
  induction left generalizing right with
  | nil => simp at once
  | cons value left ih =>
    obtain ⟨other, right, rfl⟩ := exists_cons_of_length_eq_add_one equal
    rw [zip_cons_cons] at once
    by_cases same : other = value
    · rw [filter_cons_of_neg (by simp [same])] at once
      obtain ⟨position, found, rest⟩ := ih (Nat.succ.inj equal) once
      exact ⟨position + 1, found, by rw [same, rest, set_cons_succ]⟩
    · rw [filter_cons_of_pos (by simp [same])] at once
      obtain ⟨rfl, none⟩ := List.cons.inj once
      refine ⟨0, rfl, ?_⟩
      have alike : right = left := by
        refine ext_getElem (Nat.succ.inj equal) fun position first second => ?_
        by_contra apart
        have listed : (left[position], right[position]) ∈ left.zip right := by
          have bound : position < (left.zip right).length := by
            rw [length_zip]
            omega
          rw [← getElem_zip (h := bound)]
          exact getElem_mem bound
        exact filter_eq_nil_iff.mp none _ listed (by simpa using apart)
      rw [alike, set_cons_zero]

theorem append_of_kept {left right : List Value} (longer : right.length = left.length + 1)
    (kept : ((left.zip right).filter fun pair => pair.2 = pair.1).length = left.length) :
    ∃ value, right = left ++ [value] := by
  induction left generalizing right with
  | nil =>
    obtain ⟨value, rest, rfl⟩ := exists_cons_of_length_eq_add_one longer
    have short : rest = [] := length_eq_zero_iff.mp (by simpa using longer)
    exact ⟨value, by rw [short]; rfl⟩
  | cons value left ih =>
    obtain ⟨other, right, rfl⟩ := exists_cons_of_length_eq_add_one longer
    have longer' : right.length = left.length + 1 := Nat.succ.inj longer
    have most : ((left.zip right).filter fun pair => pair.2 = pair.1).length ≤ left.length := by
      have filtered := length_filter_le (fun pair : Value × Value => pair.2 = pair.1)
        (left.zip right)
      rw [length_zip] at filtered
      omega
    rw [zip_cons_cons] at kept
    by_cases same : other = value
    · rw [filter_cons_of_pos (by simp [same]), length_cons, length_cons] at kept
      obtain ⟨added, rest⟩ := ih longer' (Nat.succ.inj kept)
      exact ⟨added, by rw [same, rest, cons_append]⟩
    · rw [filter_cons_of_neg (by simp [same]), length_cons] at kept
      omega

end

/-- `length(value) BETWEEN low AND high` -/
def lengthBetween (low high : Nat) (value : Text) : Bool :=
  let characters := (Text.codePoints value).length
  low ≤ characters && characters ≤ high

/-- `length(CAST(value AS BLOB)) BETWEEN 1 AND high` -/
def bytesUpTo (high : Nat) (value : Text) : Bool :=
  let bytes := Text.utf8Bytes value
  1 ≤ bytes && bytes ≤ high

end Sqlite
