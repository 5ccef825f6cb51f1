import Eliot.Text.Encoding

namespace Text

open List

theorem codePoints_flatten (text : Text) : (codePoints text).flatten = text := by
  induction text using codePoints.induct with
  | case1 high low rest paired ih => simp [codePoints, paired, ih]
  | case2 high low rest unpaired ih => simp [codePoints, unpaired, ih]
  | case3 rest short =>
    cases rest with
    | nil => rfl
    | cons high rest =>
      cases rest with
      | nil => rfl
      | cons low rest => exact absurd rfl (short high low rest)

theorem codePoints_segment {whole : Text} {before points after : List Text}
    (found : codePoints whole = before ++ (points ++ after)) : codePoints points.flatten = points := by
  induction whole using codePoints.induct generalizing before points with
  | case1 high low rest paired ih =>
    rw [codePoints, if_pos paired] at found
    cases before with
    | cons first before => exact ih (List.cons.inj found).2
    | nil =>
      cases points with
      | nil => rfl
      | cons point points =>
        obtain ⟨rfl, tail⟩ := List.cons.inj found
        rw [flatten_cons, cons_append, singleton_append, codePoints, if_pos paired, @ih [] _ tail]
  | case2 high low rest unpaired ih =>
    have shape := codePoints_flatten (high :: low :: rest)
    rw [codePoints, if_neg unpaired] at found shape
    cases before with
    | cons first before => exact ih (List.cons.inj found).2
    | nil =>
      cases points with
      | nil => rfl
      | cons point points =>
        obtain ⟨rfl, tail⟩ : [high] = point ∧ codePoints (low :: rest) = points ++ after := List.cons.inj found
        rw [tail, flatten_cons, singleton_append, flatten_append] at shape
        have apart : ¬(([high] : Text).getLast?.any isHigh ∧ points.flatten.head?.any isLow) := by
          cases same : points.flatten with
          | nil => simp
          | cons unit others =>
            rw [same] at shape
            obtain rfl : unit = low := (List.cons.inj (List.cons.inj shape).2).1
            simpa [isHigh, isLow] using unpaired
        rw [flatten_cons, codePoints_append _ _ apart, @ih [] _ tail]
        rfl
  | case3 rest short =>
    have small : (codePoints rest).length ≤ 1 := by
      cases rest with
      | nil => decide
      | cons unit rest =>
        cases rest with
        | nil => exact Nat.le_refl _
        | cons other rest => exact absurd rfl (short unit other rest)
    rw [found, length_append, length_append] at small
    cases points with
    | nil => rfl
    | cons point points =>
      obtain rfl : points = [] := length_eq_zero_iff.mp (by rw [length_cons] at small; omega)
      obtain rfl : before = [] := length_eq_zero_iff.mp (by rw [length_cons] at small; omega)
      obtain rfl : after = [] := length_eq_zero_iff.mp (by rw [length_cons] at small; omega)
      have same := codePoints_flatten rest
      rw [found] at same
      rw [show ([point] : List Text).flatten = rest from same, found]
      rfl

def IsPoint (point : Text) : Prop :=
  (∃ unit, point = [unit]) ∨ ∃ high low, point = [high, low] ∧ isHigh high = true

theorem codePoints_points (text : Text) : ∀ point ∈ codePoints text, IsPoint point := by
  induction text using codePoints.induct with
  | case1 high low rest paired ih =>
    rw [codePoints, if_pos paired, forall_mem_cons]
    simp only [Bool.and_eq_true, decide_eq_true_eq] at paired
    exact ⟨.inr ⟨high, low, rfl, by simpa [isHigh] using paired.1⟩, ih⟩
  | case2 high low rest unpaired ih =>
    rw [codePoints, if_neg unpaired, forall_mem_cons]
    exact ⟨.inl ⟨high, rfl⟩, ih⟩
  | case3 rest short =>
    cases rest with
    | nil => simp [codePoints]
    | cons high rest =>
      cases rest with
      | nil => simp [codePoints, IsPoint]
      | cons low rest => exact absurd rfl (short high low rest)

theorem hexDigit_injective {first second : Nat} (same : hexDigit first = hexDigit second)
    (left : first < 16) (right : second < 16) : first = second := by
  unfold hexDigit at same
  split_ifs at same <;> omega

theorem unicodeEscape_injective {first second : Nat} {left right : Text}
    (same : unicodeEscape first ++ left = unicodeEscape second ++ right)
    (small : first < 0x10000) (other : second < 0x10000) : first = second ∧ left = right := by
  simp only [unicodeEscape, cons_append, nil_append, List.cons.injEq, true_and] at same
  obtain ⟨one, two, three, four, rest⟩ := same
  have one := hexDigit_injective one (by omega) (by omega)
  have two := hexDigit_injective two (by omega) (by omega)
  have three := hexDigit_injective three (by omega) (by omega)
  have four := hexDigit_injective four (by omega) (by omega)
  exact ⟨by omega, rest⟩

inductive Written : Text → Text → Prop where
  | plain {unit : Nat} (quote : unit ≠ 34) (backslash : unit ≠ 92) (alone : isSurrogate unit = false) :
      Written [unit] [unit]
  | escaped {unit letter : Nat} (other : letter ≠ 117)
      (known : (letter = unit ∧ (unit = 34 ∨ unit = 92)) ∨ shortEscape unit = some letter) :
      Written [unit] [92, letter]
  | unicode {unit : Nat} (small : unit < 0x10000) : Written [unit] (unicodeEscape unit)
  | pair {high low : Nat} (surrogate : isHigh high = true) : Written [high, low] [high, low]

theorem shortEscape_some {unit letter : Nat} (known : shortEscape unit = some letter) :
    (unit = 8 ∧ letter = 98) ∨ (unit = 9 ∧ letter = 116) ∨ (unit = 10 ∧ letter = 110) ∨
      (unit = 12 ∧ letter = 102) ∨ (unit = 13 ∧ letter = 114) := by
  unfold shortEscape at known
  split at known <;> simp_all

theorem written_jsonPoint {point : Text} (valid : IsPoint point) : Written point (jsonPoint point) := by
  rcases valid with ⟨unit, rfl⟩ | ⟨high, low, rfl, surrogate⟩
  · simp only [jsonPoint]
    split_ifs with special control alone
    · exact .escaped (by omega) (.inl ⟨rfl, special⟩)
    · split
      · rename_i letter known
        have cases := shortEscape_some known
        exact .escaped (by omega) (.inr known)
      · exact .unicode (by omega)
    · simp only [isSurrogate, Bool.and_eq_true, decide_eq_true_eq] at alone
      exact .unicode (by omega)
    · exact .plain (by omega) (by omega) (by simpa using alone)
  · exact .pair surrogate

theorem Written.unique {first second left right before after : Text} (one : Written first left)
    (two : Written second right) (same : left ++ before = right ++ after) :
    first = second ∧ before = after := by
  cases one with
  | plain quote backslash alone =>
    cases two with
    | plain _ _ _ => simpa using same
    | escaped _ _ => simp_all
    | unicode _ => simp_all [unicodeEscape]
    | @pair high low surrogate =>
      simp only [cons_append, nil_append, List.cons.injEq] at same
      simp only [isHigh, isSurrogate, Bool.and_eq_true, decide_eq_true_eq,
        Bool.and_eq_false_iff, decide_eq_false_iff_not] at surrogate alone
      omega
  | @escaped unit letter other known =>
    cases two with
    | plain _ backslash _ => simp_all
    | @escaped unit' letter' other' known' =>
      simp only [cons_append, nil_append, List.cons.injEq, true_and] at same
      obtain ⟨rfl, rest⟩ := same
      refine ⟨?_, rest⟩
      rcases known with ⟨rfl, special⟩ | known <;> rcases known' with ⟨rfl, special'⟩ | known'
      · rfl
      · have cases := shortEscape_some known'
        omega
      · have cases := shortEscape_some known
        omega
      · have cases := shortEscape_some known
        have cases' := shortEscape_some known'
        have equal : unit = unit' := by omega
        rw [equal]
    | unicode _ =>
      simp only [unicodeEscape, cons_append, nil_append, List.cons.injEq, true_and] at same
      exact absurd same.1 other
    | @pair high low surrogate =>
      simp only [cons_append, nil_append, List.cons.injEq] at same
      simp only [isHigh, Bool.and_eq_true, decide_eq_true_eq] at surrogate
      omega
  | @unicode unit small =>
    cases two with
    | plain _ backslash _ => simp_all [unicodeEscape]
    | escaped other _ =>
      simp only [unicodeEscape, cons_append, nil_append, List.cons.injEq, true_and] at same
      exact absurd same.1.symm other
    | unicode small' =>
      obtain ⟨rfl, rest⟩ := unicodeEscape_injective same small small'
      exact ⟨rfl, rest⟩
    | @pair high low surrogate =>
      simp only [unicodeEscape, cons_append, nil_append, List.cons.injEq] at same
      simp only [isHigh, Bool.and_eq_true, decide_eq_true_eq] at surrogate
      omega
  | @pair high low surrogate =>
    simp only [isHigh, Bool.and_eq_true, decide_eq_true_eq] at surrogate
    cases two with
    | @plain unit _ _ alone =>
      simp only [cons_append, nil_append, List.cons.injEq] at same
      simp only [isSurrogate, Bool.and_eq_false_iff, decide_eq_false_iff_not] at alone
      omega
    | escaped _ _ =>
      simp only [cons_append, nil_append, List.cons.injEq] at same
      omega
    | unicode _ =>
      simp only [unicodeEscape, cons_append, nil_append, List.cons.injEq] at same
      omega
    | pair _ => simpa [and_assoc] using same

theorem Written.head {point written : Text} (one : Written point written) (rest : Text) :
    ∃ unit more, written ++ rest = unit :: more ∧ unit ≠ 34 := by
  cases one with
  | plain quote _ _ => exact ⟨_, _, rfl, quote⟩
  | escaped _ _ => exact ⟨92, _, rfl, by decide⟩
  | unicode _ => exact ⟨92, _, rfl, by decide⟩
  | pair surrogate =>
    simp only [isHigh, Bool.and_eq_true, decide_eq_true_eq] at surrogate
    exact ⟨_, _, rfl, by omega⟩

theorem jsonString_unique {first second before after : Text}
    (same : jsonString first ++ before = jsonString second ++ after) :
    first = second ∧ before = after := by
  have points (left right : List Text) (leftPoints : ∀ point ∈ left, IsPoint point)
      (rightPoints : ∀ point ∈ right, IsPoint point)
      (same : left.flatMap jsonPoint ++ 34 :: before = right.flatMap jsonPoint ++ 34 :: after) :
      left = right ∧ before = after := by
    induction left generalizing right with
    | nil =>
      cases right with
      | nil => exact ⟨rfl, by simpa using same⟩
      | cons point right =>
        obtain ⟨unit, more, shape, other⟩ := (written_jsonPoint
          (rightPoints point (mem_cons_self ..))).head (right.flatMap jsonPoint ++ 34 :: after)
        rw [flatMap_cons, append_assoc, shape] at same
        exact absurd (List.cons.inj same).1.symm other
    | cons point left ih =>
      have one := written_jsonPoint (leftPoints point (mem_cons_self ..))
      cases right with
      | nil =>
        obtain ⟨unit, more, shape, other⟩ := one.head (left.flatMap jsonPoint ++ 34 :: before)
        rw [flatMap_cons, append_assoc, shape] at same
        exact absurd (List.cons.inj same).1 other
      | cons next right =>
        have two := written_jsonPoint (rightPoints next (mem_cons_self ..))
        rw [flatMap_cons, append_assoc, flatMap_cons, append_assoc] at same
        obtain ⟨rfl, rest⟩ := one.unique two same
        obtain ⟨rfl, tail⟩ := ih right
          (fun other listed => leftPoints other (mem_cons_of_mem _ listed))
          (fun other listed => rightPoints other (mem_cons_of_mem _ listed)) rest
        exact ⟨rfl, tail⟩
  simp only [jsonString, cons_append, append_assoc, nil_append, List.cons.injEq,
    true_and] at same
  obtain ⟨equal, rest⟩ := points _ _ (codePoints_points first) (codePoints_points second) same
  exact ⟨by rw [← codePoints_flatten first, equal, codePoints_flatten], rest⟩

def jsonItems (items : List Text) : Text := ((items.map jsonString).intersperse [44]).flatten

theorem intersperse_flatten (separator first : Text) (rest : List Text) :
    ((first :: rest).intersperse separator).flatten =
      first ++ rest.flatMap fun item => separator ++ item := by
  induction rest generalizing first with
  | nil => simp
  | cons next rest ih =>
    rw [intersperse_cons_cons, flatten_cons, flatten_cons, ih]
    simp

theorem jsonItems_cons (item : Text) (items : List Text) :
    jsonItems (item :: items) =
      jsonString item ++ items.flatMap fun item => 44 :: jsonString item := by
  rw [jsonItems, map_cons, intersperse_flatten, flatMap_map]
  rfl

theorem jsonItems_unique {first second : List Text} {close : Nat} {before after : Text}
    (comma : close ≠ 44) (quote : close ≠ 34)
    (same : jsonItems first ++ close :: before = jsonItems second ++ close :: after) :
    first = second ∧ before = after := by
  have rest (first second : List Text)
      (same : (first.flatMap fun item => 44 :: jsonString item) ++ close :: before =
        (second.flatMap fun item => 44 :: jsonString item) ++ close :: after) :
      first = second ∧ before = after := by
    induction first generalizing second with
    | nil =>
      cases second with
      | nil => exact ⟨rfl, by simpa using same⟩
      | cons item second => simp [comma] at same
    | cons item first ih =>
      cases second with
      | nil => simp [Ne.symm comma] at same
      | cons other second =>
        obtain ⟨rfl, tail⟩ := jsonString_unique (by simpa using same)
        obtain ⟨rfl, ends⟩ := ih second tail
        exact ⟨rfl, ends⟩
  cases first with
  | nil =>
    cases second with
    | nil => exact ⟨rfl, by simpa [jsonItems] using same⟩
    | cons item second =>
      rw [jsonItems_cons] at same
      simp [jsonItems, jsonString, quote] at same
  | cons item first =>
    cases second with
    | nil =>
      rw [jsonItems_cons] at same
      simp [jsonItems, jsonString, Ne.symm quote] at same
    | cons other second =>
      rw [jsonItems_cons, jsonItems_cons, append_assoc, append_assoc] at same
      obtain ⟨rfl, tail⟩ := jsonString_unique same
      obtain ⟨rfl, ends⟩ := rest first second tail
      exact ⟨rfl, ends⟩

theorem jsonArray_unique {first second : List Text} {before after : Text}
    (same : jsonArray (first.map jsonString) ++ before =
      jsonArray (second.map jsonString) ++ after) : first = second ∧ before = after := by
  have items : jsonItems first ++ 93 :: before = jsonItems second ++ 93 :: after := by
    simpa [jsonArray, jsonItems] using same
  exact jsonItems_unique (by decide) (by decide) items

end Text
