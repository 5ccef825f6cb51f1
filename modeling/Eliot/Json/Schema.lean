import Eliot.Json.Parsing

namespace Json
open Text List

structure Vocabulary (Member : Type) where
  members : List Member
  spelled : Member → Text
  complete : ∀ member, member ∈ members
  distinct : (members.map spelled).Nodup

section
variable {Number Member : Type}

def Vocabulary.read (vocabulary : Vocabulary Member) : Data Number → Option Member
  | .text value => vocabulary.members.find? fun member => vocabulary.spelled member = value
  | _ => none

def readBoolean : Data Number → Option Bool
  | .boolean value => some value
  | _ => none

def literal (value : Text) : Data Number → Option Unit
  | .text other => if other = value then some () else none
  | _ => none

def maybe (read : Data Number → Option Member) : Option (Data Number) → Option (Option Member)
  | none => some none
  | some data => (read data).map some

def nullable (read : Data Number → Option Member) : Data Number → Option (Option Member)
  | .null => some none
  | data => (read data).map some

def atMost (bound : Nat) (read : Data Number → Option Member) : Data Number → Option (List Member)
  | .array items => if items.length ≤ bound then items.mapM read else none
  | _ => none

def strict (names : List Text) : Data Number → Option (List (Text × Data Number))
  | .object members => if members.all (fun member => names.contains member.1) then some members else none
  | _ => none

theorem Vocabulary.spelled_injective (vocabulary : Vocabulary Member) {first second : Member}
    (same : vocabulary.spelled first = vocabulary.spelled second) : first = second :=
  inj_on_of_nodup_map vocabulary.distinct (vocabulary.complete first) (vocabulary.complete second) same

theorem Vocabulary.read_spelled (vocabulary : Vocabulary Member) (member : Member) :
    vocabulary.read (.text (vocabulary.spelled member) : Data Number) = some member := by
  have present : (vocabulary.members.find? fun other => vocabulary.spelled other = vocabulary.spelled member).isSome := by
    rw [find?_isSome]
    exact ⟨member, vocabulary.complete member, decide_eq_true rfl⟩
  obtain ⟨found, same⟩ := Option.isSome_iff_exists.mp present
  have spelled : vocabulary.spelled found = vocabulary.spelled member := by simpa using find?_some same
  rw [Vocabulary.read, same, vocabulary.spelled_injective spelled]

theorem literal_text (value : Text) : literal value (.text value : Data Number) = some () := if_pos rfl

theorem atMost_array {bound : Nat} {read : Data Number → Option Member} {write : Member → Data Number}
    (back : ∀ member, read (write member) = some member) {members : List Member} (short : members.length ≤ bound) :
    atMost bound read (.array (members.map write)) = some members := by
  have all : (members.map write).mapM read = some members := by
    clear short
    induction members with
    | nil => rfl
    | cons member members ih =>
      rw [map_cons, mapM_cons, back, ih]
      rfl
  rw [atMost, if_pos (by rwa [length_map]), all]

theorem strict_object {names : List Text} {members : List (Text × Data Number)}
    (known : members.all (fun member => names.contains member.1) = true) :
    strict names (.object members) = some members := if_pos known

end

section
variable {Number : Type}

theorem index_word {name : Text} (word : name.all isDigit = false) : index name = none := by
  refine if_neg fun number => ?_
  rw [← number.1, all_eq_true.mpr (decimal_digits _)] at word
  cases word

def words (names : List Text) : Bool := decide names.Nodup && names.all fun name => !name.all isDigit

theorem listed_words {members : List (Text × Data Number)} {names : List Text}
    (same : members.map Prod.fst = names) (free : words names = true) : Listed members := by
  obtain ⟨distinct, others⟩ := Bool.and_eq_true_iff.mp free
  have apart := pairwise_map.mp (same ▸ of_decide_eq_true distinct)
  refine apart.imp_of_mem fun {first second} _ member different => ⟨different, ?_⟩
  have word := all_eq_true.mp others second.1 (same ▸ mem_map_of_mem member)
  rw [earlier, index_word (by simpa using word)]

theorem stringify_injective {numbers : Numbers} {first second : Data numbers.Number} (regular : first.Regular)
    (other : second.Regular) (same : stringify numbers first = stringify numbers second) : first = second := by
  have read := parse_write quotes_jsonString regular
  have back := parse_write quotes_jsonString other
  rw [← stringify, same, stringify, back] at read
  exact (Option.some.inj read).symm

theorem parse_stringify {numbers : Numbers} {value : Data numbers.Number} (regular : value.Regular) :
    parse numbers (stringify numbers value) = some value := parse_write quotes_jsonString regular

end

theorem utf8Bytes_le (text : Text) : utf8Bytes text ≤ 3 * text.length := by
  unfold utf8Bytes
  induction text using codePoints.induct with
  | case1 high low rest paired ih =>
    rw [codePoints, if_pos paired, map_cons, sum_cons, utf8PointBytes, length_cons, length_cons]
    · omega
    · intro code same
      cases same
  | case2 high low rest unpaired ih =>
    have one : utf8PointBytes [high] ≤ 3 := by
      unfold utf8PointBytes
      dsimp only
      split
      · decide
      · split <;> decide
    rw [codePoints, if_neg unpaired, map_cons, sum_cons, length_cons]
    omega
  | case3 rest short =>
    cases rest with
    | nil => exact Nat.le_refl _
    | cons unit rest =>
      cases rest with
      | nil =>
        show utf8PointBytes [unit] + 0 ≤ 3
        unfold utf8PointBytes
        dsimp only
        split
        · decide
        · split <;> decide
      | cons low rest => exact absurd rfl (short unit low rest)

theorem enclosed_length (start stop : Nat) (parts : List Text) :
    (enclosed start stop parts).length = 2 + (parts.length - 1) + (parts.map List.length).sum := by
  cases parts with
  | nil => rfl
  | cons first parts =>
    have rest : (parts.flatMap fun part => [44] ++ part).length = parts.length + (parts.map List.length).sum := by
      induction parts with
      | nil => rfl
      | cons part parts ih =>
        rw [flatMap_cons, length_append, ih, length_append, length_singleton, map_cons,
          sum_cons, length_cons]
        omega
    rw [enclosed, intersperse_flatten, length_cons, length_append, length_append, rest,
      length_singleton, map_cons, sum_cons, length_cons]
    omega

theorem length_enclosed (start stop : Nat) (parts : List Text) :
    (enclosed start stop parts).length ≤ 2 + (parts.map fun part => part.length + 1).sum := by
  have sum : (parts.map fun part => part.length + 1).sum = (parts.map List.length).sum + parts.length := by
    induction parts with
    | nil => rfl
    | cons part parts ih =>
      rw [map_cons, sum_cons, ih, map_cons, sum_cons, length_cons]
      omega
  rw [enclosed_length, sum]
  omega

theorem length_enclosed_le (start stop : Nat) {parts : List Text} {bound : Nat}
    (each : ∀ part ∈ parts, part.length ≤ bound) :
    (enclosed start stop parts).length ≤ 2 + parts.length * (bound + 1) := by
  have sum : (parts.map fun part => part.length + 1).sum ≤ parts.length * (bound + 1) := by
    induction parts with
    | nil => exact Nat.zero_le _
    | cons part parts ih =>
      have first := each part mem_cons_self
      have rest := ih fun other listed => each other (mem_cons_of_mem _ listed)
      rw [map_cons, sum_cons, length_cons, Nat.succ_mul]
      omega
  exact Nat.le_trans (length_enclosed start stop parts) (Nat.add_le_add_left sum 2)

end Json
