import Eliot.Text.Utf8
import Mathlib.Data.List.Lex
import Mathlib.Data.List.Perm.Basic
import Mathlib.Data.List.Sort
import Mathlib.Algebra.GroupWithZero.Nat

namespace Canonical

open List

inductive JsonValue where
  | null
  | boolean (value : Bool)
  | integer (value : Int)
  | string (value : List Char)
  | array (items : List JsonValue)
  | object (members : List (List Char × JsonValue))

abbrev Member := List Char × JsonValue

namespace JsonValue

theorem induct {wanted : JsonValue → Prop} (null : wanted .null)
    (boolean : ∀ value, wanted (.boolean value)) (integer : ∀ value, wanted (.integer value))
    (string : ∀ value, wanted (.string value))
    (array : ∀ items, (∀ item ∈ items, wanted item) → wanted (.array items))
    (object : ∀ members, (∀ member ∈ members, wanted member.2) → wanted (.object members))
    (value : JsonValue) : wanted value :=
  JsonValue.rec (motive_1 := wanted) (motive_2 := fun items => ∀ item ∈ items, wanted item)
    (motive_3 := fun members => ∀ member ∈ members, wanted member.2)
    (motive_4 := fun member => wanted member.2) null boolean integer string array object
    (by simp) (by simp +contextual) (by simp) (by simp +contextual) (fun _ _ holds => holds) value

mutual
def count : JsonValue → Nat
  | .array items => 1 + countItems items
  | .object members => 1 + countMembers members
  | _ => 1
def countItems : List JsonValue → Nat
  | [] => 0
  | item :: items => item.count + countItems items
def countMembers : List Member → Nat
  | [] => 0
  | (_, value) :: members => value.count + countMembers members
end

mutual
def arranged (arrange : List Member → List Member) : JsonValue → JsonValue
  | .array items => .array (arrangedItems arrange items)
  | .object members => .object (arrange (arrangedMembers arrange members))
  | value => value
def arrangedItems (arrange : List Member → List Member) : List JsonValue → List JsonValue
  | [] => []
  | item :: items => item.arranged arrange :: arrangedItems arrange items
def arrangedMembers (arrange : List Member → List Member) : List Member → List Member
  | [] => []
  | (key, value) :: members => (key, value.arranged arrange) :: arrangedMembers arrange members
end

theorem countItems_eq (items : List JsonValue) : countItems items = (items.map count).sum := by
  induction items with
  | nil => rfl
  | cons item items ih => simp [countItems, ih]

theorem countMembers_eq (members : List Member) :
    countMembers members = (members.map fun member => member.2.count).sum := by
  induction members with
  | nil => rfl
  | cons member members ih => simp [countMembers, ih]

theorem arrangedItems_eq (arrange : List Member → List Member) (items : List JsonValue) :
    arrangedItems arrange items = items.map (arranged arrange) := by
  induction items with
  | nil => rfl
  | cons item items ih => simp [arrangedItems, ih]

theorem arrangedMembers_eq (arrange : List Member → List Member) (members : List Member) :
    arrangedMembers arrange members =
      members.map fun member => (member.1, member.2.arranged arrange) := by
  induction members with
  | nil => rfl
  | cons member members ih => simp [arrangedMembers, ih]

end JsonValue

def utf16Char (char : Char) : List Nat :=
  let code := char.toNat
  if code < 0x10000 then [code]
  else [0xd800 + (code - 0x10000) / 1024, 0xdc00 + (code - 0x10000) % 1024]

def utf16 (chars : List Char) : List Nat := chars.flatMap utf16Char

def compareUtf16CodeUnits (left right : List Char) : Bool := utf16 left ≤ utf16 right

def sortMembers (members : List Member) : List Member :=
  members.mergeSort fun left right => compareUtf16CodeUnits left.1 right.1

theorem utf16Char_append {first second : Char} {left right : List Nat}
    (same : utf16Char first ++ left = utf16Char second ++ right) :
    first = second ∧ left = right := by
  have firstValid := Utf8.toNat_valid first
  have secondValid := Utf8.toNat_valid second
  have ext : first.toNat = second.toNat → first = second := by
    intro code
    rw [← Char.ofNat_toNat first, code, Char.ofNat_toNat]
  unfold utf16Char at same
  simp only at same
  split at same <;> split at same <;>
    simp only [cons_append, nil_append, List.cons.injEq] at same
  · exact ⟨ext same.1, same.2⟩
  · omega
  · omega
  · exact ⟨ext (by omega), same.2.2⟩

theorem utf16Char_ne_nil (char : Char) : utf16Char char ≠ [] := by
  unfold utf16Char
  simp only
  split <;> simp

theorem utf16_injective : Function.Injective utf16 := by
  intro left right same
  induction left generalizing right with
  | nil =>
    cases right with
    | nil => rfl
    | cons char right => simp [utf16, utf16Char_ne_nil] at same
  | cons first left ih =>
    cases right with
    | nil => simp [utf16, utf16Char_ne_nil] at same
    | cons second right =>
      obtain ⟨rfl, rest⟩ := utf16Char_append (by simpa [utf16] using same)
      rw [ih (by simpa [utf16] using rest)]

theorem sortMembers_perm (members : List Member) : (sortMembers members).Perm members :=
  mergeSort_perm members _

theorem sortMembers_sorted (members : List Member) :
    (sortMembers members).Pairwise fun left right => compareUtf16CodeUnits left.1 right.1 := by
  apply pairwise_mergeSort
  · intro first second third below above
    simp only [compareUtf16CodeUnits, decide_eq_true_eq] at below above ⊢
    exact le_trans below above
  · intro first second
    simp only [compareUtf16CodeUnits, Bool.or_eq_true, decide_eq_true_eq]
    exact le_total _ _

theorem sortMembers_idem (members : List Member) :
    sortMembers (sortMembers members) = sortMembers members :=
  mergeSort_of_pairwise (sortMembers_sorted members)

theorem keys_perm {members others : List Member} (perm : members.Perm others)
    (keys : (members.map Prod.fst).Nodup) : (others.map Prod.fst).Nodup :=
  (perm.map Prod.fst).nodup_iff.mp keys

theorem member_unique {members : List Member} (keys : (members.map Prod.fst).Nodup)
    {first second : Member} (left : first ∈ members) (right : second ∈ members)
    (same : first.1 = second.1) : first = second :=
  inj_on_of_nodup_map keys left right same

theorem sortMembers_perm_eq {members others : List Member} (perm : members.Perm others)
    (keys : (members.map Prod.fst).Nodup) : sortMembers members = sortMembers others := by
  have reordered : (sortMembers members).Perm (sortMembers others) :=
    (sortMembers_perm members).trans (perm.trans (sortMembers_perm others).symm)
  refine List.Perm.eq_of_pairwise ?_ (sortMembers_sorted members) (sortMembers_sorted others)
    reordered
  intro first second left right below above
  simp only [compareUtf16CodeUnits, decide_eq_true_eq] at below above
  have member := (sortMembers_perm members).mem_iff.mp left
  have other := perm.mem_iff.mpr ((sortMembers_perm others).mem_iff.mp right)
  exact member_unique keys member other (utf16_injective (le_antisymm below above))

section

inductive Distinct : JsonValue → Prop where
  | null : Distinct .null
  | boolean (value : Bool) : Distinct (.boolean value)
  | integer (value : Int) : Distinct (.integer value)
  | string (value : List Char) : Distinct (.string value)
  | array {items : List JsonValue} (inner : ∀ item ∈ items, Distinct item) :
      Distinct (.array items)
  | object {members : List Member} (keys : (members.map Prod.fst).Nodup)
      (inner : ∀ member ∈ members, Distinct member.2) : Distinct (.object members)

inductive SameValue : JsonValue → JsonValue → Prop where
  | refl (value : JsonValue) : SameValue value value
  | symm {first second : JsonValue} (same : SameValue first second) : SameValue second first
  | trans {first second third : JsonValue} (left : SameValue first second)
      (right : SameValue second third) : SameValue first third
  | item {first second : JsonValue} (before after : List JsonValue)
      (same : SameValue first second) :
      SameValue (.array (before ++ first :: after)) (.array (before ++ second :: after))
  | member {first second : JsonValue} (before after : List Member) (key : List Char)
      (same : SameValue first second) :
      SameValue (.object (before ++ (key, first) :: after))
        (.object (before ++ (key, second) :: after))
  | order {members others : List Member} (perm : members.Perm others) :
      SameValue (.object members) (.object others)

def JsonValue.sorted (value : JsonValue) : JsonValue := value.arranged sortMembers

variable {first second : JsonValue}

theorem distinct_array {items : List JsonValue} :
    Distinct (.array items) ↔ ∀ item ∈ items, Distinct item :=
  ⟨fun | .array inner => inner, .array⟩

theorem distinct_object {members : List Member} :
    Distinct (.object members) ↔
      (members.map Prod.fst).Nodup ∧ ∀ member ∈ members, Distinct member.2 :=
  ⟨fun | .object keys inner => ⟨keys, inner⟩, fun h => .object h.1 h.2⟩

theorem sorted_array (items : List JsonValue) :
    (JsonValue.array items).sorted = .array (items.map JsonValue.sorted) := by
  rw [JsonValue.sorted, JsonValue.arranged, JsonValue.arrangedItems_eq]
  rfl

theorem sorted_object (members : List Member) :
    (JsonValue.object members).sorted =
      .object (sortMembers (members.map fun member => (member.1, member.2.sorted))) := by
  rw [JsonValue.sorted, JsonValue.arranged, JsonValue.arrangedMembers_eq]
  rfl

theorem SameValue.sorted (same : SameValue first second) :
    (Distinct first ↔ Distinct second) ∧ (Distinct first → first.sorted = second.sorted) := by
  induction same with
  | refl value => exact ⟨Iff.rfl, fun _ => rfl⟩
  | symm same ih => exact ⟨ih.1.symm, fun distinct => (ih.2 (ih.1.mpr distinct)).symm⟩
  | trans left right ihLeft ihRight =>
    exact ⟨ihLeft.1.trans ihRight.1,
      fun distinct => (ihLeft.2 distinct).trans (ihRight.2 (ihLeft.1.mp distinct))⟩
  | item before after same ih =>
    refine ⟨?_, fun distinct => ?_⟩
    · simp only [distinct_array, forall_mem_append, forall_mem_cons, ih.1]
    · have inner := ih.2 (distinct_array.mp distinct _ (by simp))
      simp [sorted_array, inner]
  | member before after key same ih =>
    refine ⟨?_, fun distinct => ?_⟩
    · simp only [distinct_object, map_append, map_cons, forall_mem_append,
        forall_mem_cons, ih.1]
    · have inner := ih.2 ((distinct_object.mp distinct).2 (key, _) (by simp))
      simp [sorted_object, inner]
  | order perm =>
    refine ⟨?_, fun distinct => ?_⟩
    · simp only [distinct_object, perm.mem_iff, (perm.map Prod.fst).nodup_iff]
    · rw [sorted_object, sorted_object, sortMembers_perm_eq (perm.map _)]
      simpa [Function.comp_def] using (distinct_object.mp distinct).1

theorem SameValue.items {items others : List JsonValue} (before : List JsonValue)
    (same : List.Forall₂ SameValue items others) :
    SameValue (.array (before ++ items)) (.array (before ++ others)) := by
  induction same generalizing before with
  | nil => exact .refl _
  | @cons first second items others head _ ih =>
    have rest := ih (before ++ [second])
    rw [append_assoc, append_assoc] at rest
    exact .trans (.item before items head) rest

theorem SameValue.members {members : List Member} (before : List Member)
    (change : JsonValue → JsonValue)
    (same : ∀ member ∈ members, SameValue member.2 (change member.2)) :
    SameValue (.object (before ++ members))
      (.object (before ++ members.map fun member => (member.1, change member.2))) := by
  induction members generalizing before with
  | nil => exact .refl _
  | cons member members ih =>
    have head := same member (mem_cons_self ..)
    have rest := ih (before ++ [(member.1, change member.2)])
      fun other listed => same other (mem_cons_of_mem _ listed)
    rw [append_assoc, append_assoc] at rest
    exact .trans (.member before members member.1 head) rest

theorem sameValue_sorted (value : JsonValue) : SameValue value value.sorted := by
  induction value using JsonValue.induct with
  | null => exact .refl _
  | boolean value => exact .refl _
  | integer value => exact .refl _
  | string value => exact .refl _
  | array items ih =>
    rw [sorted_array]
    refine SameValue.items [] (forall₂_map_right_iff.mpr ?_)
    exact forall₂_same.mpr ih
  | object members ih =>
    rw [sorted_object]
    exact .trans (SameValue.members [] JsonValue.sorted ih)
      (.order (sortMembers_perm _).symm)

end
end Canonical
