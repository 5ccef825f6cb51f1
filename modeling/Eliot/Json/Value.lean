import Eliot.Text.Encoding
import Mathlib.Data.List.Sort

namespace Json

inductive Value where
  | null
  | boolean (value : Bool)
  | number (value : Int)
  | text (value : Text)
  | array (items : List Value)
  | object (members : List (Text × Value))

def writeObject (members : List (Text × Text)) : Text :=
  let sorted := members.insertionSort fun first second => first.1 ≤ second.1
  123 :: ((sorted.map fun field => Text.jsonString field.1 ++ 58 :: field.2).intersperse [44]).flatten ++
    [125]

mutual
/-- `canonicalJson` -/
def canonicalJson : Value → Text
  | .null => Text.prose "null" rfl
  | .boolean true => Text.prose "true" rfl
  | .boolean false => Text.prose "false" rfl
  | .number value => Text.integer value
  | .text value => Text.jsonString value
  | .array items => Text.jsonArray (canonicalItems items)
  | .object members => writeObject (canonicalMembers members)
def canonicalItems : List Value → List Text
  | [] => []
  | item :: items => canonicalJson item :: canonicalItems items
def canonicalMembers : List (Text × Value) → List (Text × Text)
  | [] => []
  | (name, value) :: members => (name, canonicalJson value) :: canonicalMembers members
end

-- a text that is compared as a whole is not to be unfolded on the way
attribute [irreducible] canonicalJson

def optional (name : Text) (value : Option Value) : List (Text × Value) :=
  (value.map fun value => (name, value)).toList

example : canonicalJson (.object [([98], .number (-1)), ([97], .array [.text [120], .null])]) =
    Text.prose "\x7b\"a\":[\"x\",null],\"b\":-1\x7d" rfl := by decide +kernel

end Json
