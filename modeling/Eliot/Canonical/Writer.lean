import Eliot.Canonical.Parser

namespace Canonical

open List

def lowerHex (nibble : Nat) : Nat := if nibble ≤ 9 then 48 + nibble else 97 + (nibble - 10)

def escapeByte (byte : Nat) : Bytes :=
  if byte = 34 then [92, 34]
  else if byte = 92 then [92, 92]
  else if byte = 0x08 then [92, 98]
  else if byte = 0x09 then [92, 116]
  else if byte = 0x0a then [92, 110]
  else if byte = 0x0c then [92, 102]
  else if byte = 0x0d then [92, 114]
  else if byte ≤ 0x1f then [92, 117, 48, 48, lowerHex (byte / 16), lowerHex (byte % 16)]
  else [byte]

def renderString (string : List Char) : Bytes :=
  34 :: ((Utf8.encode string).flatMap escapeByte ++ [34])

/-- `integer.to_string()` -/
def renderInteger (integer : Int) : Bytes :=
  if integer < 0 then 45 :: Text.decimal integer.natAbs else Text.decimal integer.natAbs

def separator (index : Nat) : Bytes := if 0 < index then [44] else []

mutual
def render : JsonValue → Bytes
  | .null => text "null"
  | .boolean true => text "true"
  | .boolean false => text "false"
  | .integer integer => renderInteger integer
  | .string string => renderString string
  | .array items => 91 :: (renderItems 0 items ++ [93])
  | .object members => 123 :: (renderMembers 0 members ++ [125])
def renderItems (index : Nat) : List JsonValue → Bytes
  | [] => []
  | item :: items => separator index ++ render item ++ renderItems (index + 1) items
def renderMembers (index : Nat) : List Member → Bytes
  | [] => []
  | (key, value) :: members =>
    separator index ++ renderString key ++ [58] ++ render value ++
      renderMembers (index + 1) members
end

section
variable {Error : Type}

structure Budget (Error : Type) where
  maxOutputBytes : Nat
  outputTooLarge : (maxBytes : Nat) → Error

variable (budget : Budget Error)

def pushBytes (bytes output : Bytes) : Except Error Bytes :=
  if budget.maxOutputBytes < output.length + bytes.length then
    throw (budget.outputTooLarge budget.maxOutputBytes)
  else return output ++ bytes

def writeBytes : Bytes → Bytes → Except Error Bytes
  | [], output => return output
  | byte :: bytes, output => do
    let output ← pushBytes budget (escapeByte byte) output
    writeBytes bytes output

def writeString (string : List Char) (output : Bytes) : Except Error Bytes := do
  let output ← pushBytes budget [34] output
  let output ← writeBytes budget (Utf8.encode string) output
  pushBytes budget [34] output

def pushSeparator (index : Nat) (output : Bytes) : Except Error Bytes :=
  if 0 < index then pushBytes budget [44] output else return output

mutual
def writeValue : JsonValue → Bytes → Except Error Bytes
  | .null, output => pushBytes budget (text "null") output
  | .boolean true, output => pushBytes budget (text "true") output
  | .boolean false, output => pushBytes budget (text "false") output
  | .integer integer, output => pushBytes budget (renderInteger integer) output
  | .string string, output => writeString budget string output
  | .array items, output => do
    let output ← pushBytes budget [91] output
    let output ← writeItems 0 items output
    pushBytes budget [93] output
  | .object members, output => do
    let output ← pushBytes budget [123] output
    let output ← writeMembers 0 members output
    pushBytes budget [125] output
def writeItems (index : Nat) : List JsonValue → Bytes → Except Error Bytes
  | [], output => return output
  | item :: items, output => do
    let output ← pushSeparator budget index output
    let output ← writeValue item output
    writeItems (index + 1) items output
def writeMembers (index : Nat) : List Member → Bytes → Except Error Bytes
  | [], output => return output
  | (key, value) :: members, output => do
    let output ← pushSeparator budget index output
    let output ← writeString budget key output
    let output ← pushBytes budget [58] output
    let output ← writeValue value output
    writeMembers (index + 1) members output
end

end

section
variable {Error : Type} {budget : Budget Error}

def Writes (budget : Budget Error) (write : Bytes → Except Error Bytes) (bytes : Bytes) : Prop :=
  ∀ output, output.length ≤ budget.maxOutputBytes → write output = pushBytes budget bytes output

theorem writes_push (bytes : Bytes) : Writes budget (pushBytes budget bytes) bytes :=
  fun _ _ => rfl

theorem writes_nothing : Writes budget (fun output => .ok output) [] := by
  intro output within
  rw [pushBytes, if_neg (by simpa using within)]
  simp [pure, Except.pure]

theorem Writes.seq {first second : Bytes → Except Error Bytes} {left right : Bytes}
    (before : Writes budget first left) (after : Writes budget second right) :
    Writes budget (fun output => first output >>= second) (left ++ right) := by
  intro output within
  simp only [before output within, pushBytes, length_append]
  by_cases short : output.length + left.length ≤ budget.maxOutputBytes
  · rw [if_neg (by omega)]
    simp only [pure, Except.pure, bind, Except.bind]
    rw [after _ (by simpa using short), pushBytes, length_append]
    simp only [Nat.add_assoc, append_assoc, pure, Except.pure]
  · rw [if_pos (by omega), if_pos (by omega)]
    rfl

theorem Writes.cast {write : Bytes → Except Error Bytes} {bytes other : Bytes}
    (writes : Writes budget write bytes) (same : bytes = other) : Writes budget write other :=
  same ▸ writes

theorem writes_bytes (bytes : Bytes) :
    Writes budget (writeBytes budget bytes) (bytes.flatMap escapeByte) := by
  induction bytes with
  | nil => exact writes_nothing
  | cons byte bytes ih => exact (writes_push (escapeByte byte)).seq ih

theorem writes_string (string : List Char) :
    Writes budget (writeString budget string) (renderString string) :=
  (writes_push [34]).seq ((writes_bytes (Utf8.encode string)).seq (writes_push [34]))

theorem writes_separator (index : Nat) :
    Writes budget (pushSeparator budget index) (separator index) := by
  unfold pushSeparator separator
  split
  · exact writes_push [44]
  · exact writes_nothing

theorem writes_items (index : Nat) (items : List JsonValue)
    (each : ∀ item ∈ items, Writes budget (writeValue budget item) (render item)) :
    Writes budget (writeItems budget index items) (renderItems index items) := by
  induction items generalizing index with
  | nil => exact writes_nothing
  | cons item items ih =>
    have head := each item (mem_cons_self ..)
    have rest := ih (index + 1) fun other listed => each other (mem_cons_of_mem _ listed)
    exact ((writes_separator index).seq (head.seq rest)).cast (by simp [renderItems])

theorem writes_members (index : Nat) (members : List Member)
    (each : ∀ member ∈ members, Writes budget (writeValue budget member.2) (render member.2)) :
    Writes budget (writeMembers budget index members) (renderMembers index members) := by
  induction members generalizing index with
  | nil => exact writes_nothing
  | cons member members ih =>
    have head := each member (mem_cons_self ..)
    have rest := ih (index + 1) fun other listed => each other (mem_cons_of_mem _ listed)
    have name : Writes budget (writeString budget member.1) (renderString member.1) :=
      writes_string member.1
    exact ((writes_separator index).seq (name.seq ((writes_push [58]).seq (head.seq rest)))).cast
      (by simp [renderMembers])

theorem writes_value (value : JsonValue) : Writes budget (writeValue budget value) (render value) := by
  induction value using JsonValue.induct with
  | null => exact writes_push _
  | boolean value => cases value <;> exact writes_push _
  | integer value => exact writes_push _
  | string value => exact writes_string value
  | array items ih =>
    exact (writes_push [91]).seq ((writes_items 0 items ih).seq (writes_push [93]))
  | object members ih =>
    exact (writes_push [123]).seq ((writes_members 0 members ih).seq (writes_push [125]))

theorem writeValue_ok {value : JsonValue} {output : Bytes} :
    writeValue budget value [] = .ok output ↔
      output = render value ∧ (render value).length ≤ budget.maxOutputBytes := by
  rw [writes_value value [] (Nat.zero_le _), pushBytes]
  simp only [length_nil, Nat.zero_add, nil_append]
  split
  · rename_i large
    simp [throw, throwThe, MonadExceptOf.throw, large]
  · rename_i within
    simp [pure, Except.pure, not_lt.mp within, eq_comm]

end
end Canonical
