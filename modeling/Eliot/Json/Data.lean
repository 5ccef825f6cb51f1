import Eliot.Json.Numerals
import Eliot.Json.Strings

namespace Json
open Text List

/-- Finite numbers of the language, with both zeros as one: the shortest fraction that is rounded to
    a number, and the number a fraction is rounded to. -/
structure Numbers where
  Number : Type
  shortest : Number → Decimal
  nearest : ℚ → Number
  nearest_shortest : ∀ number, nearest (shortest number).value = number

theorem floor_shortest (value : Int) :
    Rat.floor (Decimal.value ⟨decide (value < 0), value.natAbs, (decimal value.natAbs).length⟩) = value := by
  have magnitude : Decimal.magnitude ⟨decide (value < 0), value.natAbs, (decimal value.natAbs).length⟩ =
      ((value.natAbs : Int) : ℚ) := by
    simp [Decimal.magnitude]
  by_cases negative : value < 0
  · have same : -((value.natAbs : Int) : ℚ) = ((value : Int) : ℚ) := by
      rw [← Int.cast_neg]
      congr 1
      omega
    rw [Decimal.value, magnitude, if_pos (decide_eq_true negative), same, Rat.floor_intCast]
  · have same : (value.natAbs : Int) = value := by omega
    rw [Decimal.value, magnitude, if_neg (by simpa using negative), same, Rat.floor_intCast]

def integers : Numbers where
  Number := Int
  shortest := fun value => ⟨decide (value < 0), value.natAbs, (decimal value.natAbs).length⟩
  nearest := Rat.floor
  nearest_shortest := floor_shortest

inductive Data (Number : Type) where
  | null
  | boolean (value : Bool)
  | number (value : Number)
  | text (value : Text)
  | array (items : List (Data Number))
  | object (members : List (Text × Data Number))

section
variable {Value : Type}

def index (name : Text) : Option Nat :=
  if decimal (Text.number name) = name ∧ Text.number name < 2 ^ 32 - 1 then some (Text.number name) else none

def earlier (name other : Text) : Bool :=
  match index name, index other with
  | some first, some second => first < second
  | some _, none => true
  | none, _ => false

def define (members : List (Text × Value)) (name : Text) (value : Value) : List (Text × Value) :=
  if members.any fun member => member.1 = name then
    members.map fun member => if member.1 = name then (name, value) else member
  else
    members.takeWhile (fun member => !earlier name member.1) ++
      (name, value) :: members.dropWhile fun member => !earlier name member.1

def Listed (members : List (Text × Value)) : Prop :=
  members.Pairwise fun first second => first.1 ≠ second.1 ∧ earlier second.1 first.1 = false

theorem define_last {members : List (Text × Value)} {name : Text} {value : Value}
    (listed : Listed (members ++ [(name, value)])) : define members name value = members ++ [(name, value)] := by
  have behind : ∀ member ∈ members, member.1 ≠ name ∧ earlier name member.1 = false := fun member within =>
    (pairwise_append.mp listed).2.2 member within (name, value) mem_cons_self
  have fresh : ¬ (members.any fun member => decide (member.1 = name)) = true := by
    intro found
    obtain ⟨member, within, same⟩ := any_eq_true.mp found
    exact (behind member within).1 (of_decide_eq_true same)
  have later : ∀ member ∈ members, (!earlier name member.1) = true := by
    intro member within
    rw [(behind member within).2]
    rfl
  rw [define, if_neg fresh, takeWhile_eq_self_iff.mpr later, dropWhile_eq_nil_iff.mpr later]

end

inductive Data.Regular {Number : Type} : Data Number → Prop where
  | null : Regular .null
  | boolean (value : Bool) : Regular (.boolean value)
  | number (value : Number) : Regular (.number value)
  | text (value : Text) : Regular (.text value)
  | array {items : List (Data Number)} (each : ∀ item ∈ items, Regular item) : Regular (.array items)
  | object {members : List (Text × Data Number)} (listed : Listed members)
      (each : ∀ member ∈ members, Regular member.2) : Regular (.object members)

structure Record (Number : Type) where
  members : List (Text × Data Number)
  regular : Data.Regular (.object members)

def Record.data {Number : Type} (record : Record Number) : Data Number := .object record.members

section

def enclosed (start stop : Nat) (parts : List Text) : Text :=
  start :: ((parts.intersperse [44]).flatten ++ [stop])

variable (numbers : Numbers) (quote : Text → Text)

mutual
/-- `JSON.stringify`, where `quote` writes the strings. -/
def write : Data numbers.Number → Text
  | .null => prose "null" rfl
  | .boolean true => prose "true" rfl
  | .boolean false => prose "false" rfl
  | .number value => (numbers.shortest value).text
  | .text value => quote value
  | .array items => enclosed 91 93 (writeItems items)
  | .object members => enclosed 123 125 (writeMembers members)
def writeItems : List (Data numbers.Number) → List Text
  | [] => []
  | item :: items => write item :: writeItems items
def writeMembers : List (Text × Data numbers.Number) → List Text
  | [] => []
  | (name, value) :: members => (quote name ++ 58 :: write value) :: writeMembers members
end

theorem write_array (items : List (Data numbers.Number)) :
    write numbers quote (.array items) = enclosed 91 93 (items.map (write numbers quote)) := by
  have parts : writeItems numbers quote items = items.map (write numbers quote) := by
    induction items with
    | nil => rfl
    | cons item items ih => rw [writeItems, ih, map_cons]
  rw [write, parts]

theorem write_object (members : List (Text × Data numbers.Number)) : write numbers quote (.object members) =
    enclosed 123 125 (members.map fun member => quote member.1 ++ 58 :: write numbers quote member.2) := by
  have parts : writeMembers numbers quote members =
      members.map fun member => quote member.1 ++ 58 :: write numbers quote member.2 := by
    induction members with
    | nil => rfl
    | cons member members ih => rw [writeMembers, ih, map_cons]
  rw [write, parts]

/-- `JSON.stringify` -/
def stringify : Data numbers.Number → Text := write numbers jsonString

end

end Json
