import Eliot.Numbers.Coverage
import Eliot.Text.Separated

namespace Numbers

open List
open Regex (Hit Located)
open Text (isDigit slice)

section
variable {unicode : Unicode}

def around (before inside after : Text) : Text := before ++ 10 :: (inside ++ 10 :: after)

def CompoundPowerToken.shift (distance : Nat) (token : CompoundPowerToken) : CompoundPowerToken :=
  ⟨token.value, distance + token.start, distance + token.stop⟩

theorem compound_apart (unicode : Unicode) : (compoundPower unicode).Apart 10 where
  free := by rfl
  avoided := by rfl
  before := by simp [compoundPower, attached, (unicode.ascii 10 (by decide)).1, isAlphanumeric, isDigit, isSeparator, isSign, isMinus]
  after := by simp [compoundPower, (unicode.ascii 10 (by decide)).1, isAlphanumeric, isDigit]

theorem bare_apart (unicode : Unicode) : (barePower unicode).Apart 10 where
  free := by rfl
  avoided := by rfl
  before := (compound_apart unicode).before
  after := (compound_apart unicode).after

theorem literal_apart : (Regex.unguarded numericLiteral).Apart 10 where
  free := by rfl
  avoided := by rfl
  before := rfl
  after := rfl

theorem tokensOf_separated {guarded : Regex.Guarded Nat} (apart : guarded.Apart 10) (consumes : guarded.Consumes)
    (value : Hit Nat → Text) (left right : Text) (same : ∀ distance hit, value (hit.shift distance) = value hit) :
    tokensOf value (guarded.matchAll (left ++ 10 :: right)) =
      tokensOf value (guarded.matchAll left) ++
        (tokensOf value (guarded.matchAll right)).map (CompoundPowerToken.shift (left.length + 1)) := by
  rw [Regex.Guarded.matchAll_separated apart consumes, tokensOf, map_append, map_map, tokensOf, tokensOf,
    map_map]
  congr 1
  apply map_congr_left
  intro hit _
  have stop : (hit.shift (left.length + 1)).stop = left.length + 1 + hit.stop := Nat.add_assoc _ _ _
  simp only [Function.comp_apply, same, stop, CompoundPowerToken.shift]
  rfl

theorem compound_separated (left right : Text) :
    compoundPowerTokens unicode (left ++ 10 :: right) = compoundPowerTokens unicode left ++
      (compoundPowerTokens unicode right).map (CompoundPowerToken.shift (left.length + 1)) :=
  tokensOf_separated (compound_apart unicode) (consumes_of_digits fun _ => accepts_compound) _ left right
    fun _ _ => rfl

theorem bare_separated (left right : Text) :
    barePowerTokens unicode (left ++ 10 :: right) = barePowerTokens unicode left ++
      (barePowerTokens unicode right).map (CompoundPowerToken.shift (left.length + 1)) :=
  tokensOf_separated (bare_apart unicode) (consumes_of_digits fun _ => accepts_bare) _ left right fun _ _ => rfl

theorem cut_shift {α : Type} (filler : α) (before list : List α) (last : Nat) (tokens : List CompoundPowerToken) :
    cut filler (before ++ list) (before.length + last) (tokens.map (CompoundPowerToken.shift before.length)) =
      cut filler list last tokens := by
  induction tokens generalizing last with
  | nil => simp [cut]
  | cons token tokens ih =>
    simp only [map_cons, cut, CompoundPowerToken.shift] at ih ⊢
    have there : (before ++ list).drop (before.length + last) = list.drop last := by
      rw [drop_append, drop_eq_nil_of_le (Nat.le_add_right _ _), nil_append, Nat.add_sub_cancel_left]
    rw [ih, there, Nat.add_sub_add_left]

theorem cut_separated {α : Type} {filler mark : α} {left right : List α} {last : Nat}
    {before after : List CompoundPowerToken} (placed : Placed left.length last before) :
    cut filler (left ++ mark :: right) last (before ++ after.map (CompoundPowerToken.shift (left.length + 1))) =
      cut filler left last before ++ mark :: cut filler right 0 after := by
  induction before generalizing last with
  | nil =>
    cases after with
    | nil => rw [map_nil, append_nil, cut, cut, cut, drop_append_of_le_length placed, drop_zero]
    | cons token tokens =>
      have rest := cut_shift filler (left ++ [mark]) right token.stop tokens
      rw [length_append, length_singleton, append_assoc, singleton_append] at rest
      have longer : left.length + 1 + token.start - last = (left.drop last).length + (1 + token.start) := by
        have bound : last ≤ left.length := placed
        rw [length_drop]
        omega
      rw [nil_append, map_cons, cut, cut, cut]
      simp only [CompoundPowerToken.shift] at rest ⊢
      rw [rest, drop_append_of_le_length placed, longer, take_length_add_append, Nat.add_comm 1,
        take_succ_cons, drop_zero, Nat.sub_zero, append_assoc, cons_append]
  | cons token tokens ih =>
    obtain ⟨order, inside, rest⟩ := placed
    rw [cons_append, cut, ih rest, cut, drop_append_of_le_length (order.trans (inside.trans rest.fits)),
      take_append_of_le_length, append_assoc, cons_append]
    have fits := rest.fits
    simp
    omega

theorem removed_separated {left right : Text} {before after : List CompoundPowerToken}
    (placed : Placed left.length 0 before) :
    withoutCompoundPowers (left ++ 10 :: right) (before ++ after.map (CompoundPowerToken.shift (left.length + 1))) =
      withoutCompoundPowers left before ++ 10 :: withoutCompoundPowers right after := cut_separated placed

end

section
variable {unicode : Unicode} {before inside after : Text}

def Literals.subtracts (remaining : Text) (literals : Literals) (hit : Hit Nat) : Bool :=
  let minus := hit.token.head?.any isMinus
  let gap := literals.previousEnd.map fun stop => slice remaining stop hit.start
  let spacedInfix := gap.any (fun gap => !gap.isEmpty && gap.all isBlank) && minus &&
    (hit.token.drop 1).head?.any isBlank
  minus && literals.unattached && (literals.previousEnd = some hit.start || spacedInfix)

def Literals.token (remaining : Text) (literals : Literals) (hit : Hit Nat) : CompoundPowerToken :=
  let subtracts := literals.subtracts remaining hit
  ⟨normalizeNumericLiteral (if subtracts then hit.token.drop 1 else hit.token),
    if subtracts then hit.start + 1 else hit.start, hit.stop⟩

theorem step_values (remaining : Text) (literals : Literals) (hit : Hit Nat) :
    (literals.step unicode remaining hit).values =
      literals.values ++ [withParenthesizedSign remaining (literals.token remaining hit)] := rfl

def literalPass (unicode : Unicode) (remaining : Text) : Literals → List (Hit Nat) → List CompoundPowerToken
  | _, [] => []
  | literals, hit :: hits =>
    literals.token remaining hit :: literalPass unicode remaining (literals.step unicode remaining hit) hits

theorem foldl_values (remaining : Text) (literals : Literals) (hits : List (Hit Nat)) :
    (hits.foldl (Literals.step unicode remaining) literals).values =
      literals.values ++ (literalPass unicode remaining literals hits).map (withParenthesizedSign remaining) := by
  induction hits generalizing literals with
  | nil => simp [literalPass]
  | cons hit hits ih =>
    rw [foldl_cons, ih, step_values, literalPass, map_cons, append_assoc, singleton_append]

theorem literalPass_append (remaining : Text) (literals : Literals) (hits more : List (Hit Nat)) :
    literalPass unicode remaining literals (hits ++ more) = literalPass unicode remaining literals hits ++
      literalPass unicode remaining (hits.foldl (Literals.step unicode remaining) literals) more := by
  induction hits generalizing literals with
  | nil => rfl
  | cons hit hits ih => rw [cons_append, literalPass, ih, literalPass, foldl_cons, cons_append]

structure Level (distance : Nat) (wide alone : Literals) : Prop where
  previousEnd : wide.previousEnd = alone.previousEnd.map (distance + ·)
  unattached : wide.unattached = alone.unattached

theorem slice_around {start stop : Nat} (fits : stop ≤ inside.length) :
    slice (around before inside after) (before.length + 1 + start) (before.length + 1 + stop) =
      slice inside start stop := by
  have whole : around before inside after = (before ++ [10]) ++ (inside ++ 10 :: after) := by simp [around]
  have length : (before ++ [10]).length = before.length + 1 := by simp
  rw [slice, slice, whole, ← length, drop_append, drop_eq_nil_of_le (Nat.le_add_right _ _),
    nil_append, Nat.add_sub_cancel_left, Nat.add_sub_add_left]
  by_cases order : start ≤ inside.length
  · rw [drop_append_of_le_length order, take_append_of_le_length]
    rw [length_drop]
    omega
  · have none : stop - start = 0 := by omega
    rw [none, take_zero, take_zero]

theorem last_around {place : Nat} (fits : place ≤ inside.length) {test : Nat → Bool} (newline : test 10 = false) :
    ((around before inside after).take (before.length + 1 + place)).getLast?.any test =
      (inside.take place).getLast?.any test := by
  have whole : around before inside after = before ++ 10 :: (inside ++ 10 :: after) := rfl
  rw [whole, Nat.add_assoc, take_length_add_append, Nat.add_comm 1, take_succ_cons,
    take_append_of_le_length fits, getLast?_append, getLast?_cons]
  cases (inside.take place).getLast? <;> simp [newline]

variable {wide alone : Literals} {hit : Hit Nat}

theorem subtracts_around (level : Level (before.length + 1) wide alone) (fits : hit.start ≤ inside.length) :
    wide.subtracts (around before inside after) (hit.shift (before.length + 1)) = alone.subtracts inside hit := by
  have gaps : wide.previousEnd.map (fun stop =>
      slice (around before inside after) stop (hit.shift (before.length + 1)).start) =
      alone.previousEnd.map fun stop => slice inside stop hit.start := by
    rw [level.previousEnd, Option.map_map]
    congr 1
    funext stop
    exact slice_around fits
  have ends : (wide.previousEnd = some (hit.shift (before.length + 1)).start) =
      (alone.previousEnd = some hit.start) := by
    rw [level.previousEnd]
    cases alone.previousEnd <;> simp [Hit.shift]
  simp only [Literals.subtracts, gaps, ends, level.unattached]
  rfl

theorem subtracts_first (ended : ∀ stop, wide.previousEnd = some stop → stop ≤ before.length) :
    wide.subtracts (around before inside after) (hit.shift (before.length + 1)) = false := by
  cases previous : wide.previousEnd with
  | none => simp [Literals.subtracts, previous]
  | some stop =>
    have order := ended stop previous
    have start : (hit.shift (before.length + 1)).start = before.length + 1 + hit.start := rfl
    have gap : (slice (around before inside after) stop (before.length + 1 + hit.start)).all isBlank = false := by
      have whole : around before inside after = before ++ ([10] ++ (inside ++ 10 :: after)) := rfl
      have length : before.length + 1 + hit.start - stop = (before.drop stop).length + (1 + hit.start) := by
        rw [length_drop]
        omega
      rw [slice, whole, drop_append_of_le_length order, length, take_length_add_append, Nat.add_comm 1]
      simp [isBlank]
    have apart : stop ≠ before.length + 1 + hit.start := by omega
    simp [Literals.subtracts, previous, start, gap, apart]

theorem subtracts_alone (remaining : Text) (values : List Text) (unattached : Bool) :
    Literals.subtracts remaining ⟨values, none, unattached⟩ hit = false := by
  simp [Literals.subtracts]

theorem token_shift {distance : Nat} {remaining : Text}
    (same : wide.subtracts remaining (hit.shift distance) = alone.subtracts inside hit) :
    wide.token remaining (hit.shift distance) = (alone.token inside hit).shift distance := by
  simp only [Literals.token, same, CompoundPowerToken.shift]
  have stop : (hit.shift distance).stop = distance + hit.stop := Nat.add_assoc _ _ _
  rw [stop]
  cases alone.subtracts inside hit <;> rfl

theorem token_start (fits : hit.stop ≤ inside.length) : (alone.token inside hit).start ≤ inside.length := by
  rw [Literals.token]
  have stop : hit.stop = hit.start + hit.token.length := rfl
  cases subtracts : alone.subtracts inside hit with
  | false =>
    simp only [Bool.false_eq_true, if_false]
    omega
  | true =>
    have minus : hit.token.head?.any isMinus = true := by
      simp only [Literals.subtracts, Bool.and_eq_true] at subtracts
      exact subtracts.1.1
    have filled : 0 < hit.token.length := by
      cases token : hit.token with
      | nil => simp [token] at minus
      | cons code rest => simp
    simp only [if_true]
    omega

theorem step_level (same : wide.subtracts (around before inside after) (hit.shift (before.length + 1)) =
      alone.subtracts inside hit) (fits : hit.stop ≤ inside.length) :
    Level (before.length + 1) (wide.step unicode (around before inside after) (hit.shift (before.length + 1)))
      (alone.step unicode inside hit) where
  previousEnd := congrArg some (Nat.add_assoc _ _ _)
  unattached := by
    have newline : (fun code => unicode.letterMarkOrNumber code || code == 95) 10 = false := by
      simp [(unicode.ascii 10 (by decide)).2, isAlphanumeric, isDigit]
    have start : (wide.token (around before inside after) (hit.shift (before.length + 1))).start =
        before.length + 1 + (alone.token inside hit).start := congrArg CompoundPowerToken.start (token_shift same)
    have bound : (alone.token inside hit).start ≤ inside.length := token_start fits
    show (!((around before inside after).take
      (wide.token (around before inside after) (hit.shift (before.length + 1))).start).getLast?.any _) = _
    rw [start, last_around bound newline]
    rfl

theorem literalPass_level (level : Level (before.length + 1) wide alone) {hits : List (Hit Nat)}
    (fits : ∀ hit ∈ hits, hit.stop ≤ inside.length) :
    literalPass unicode (around before inside after) wide (hits.map (Hit.shift (before.length + 1))) =
      (literalPass unicode inside alone hits).map (CompoundPowerToken.shift (before.length + 1)) := by
  induction hits generalizing wide alone with
  | nil => rfl
  | cons hit hits ih =>
    have stop := fits hit mem_cons_self
    have start : hit.start ≤ inside.length := (Nat.le_add_right _ _).trans stop
    have same : wide.subtracts (around before inside after) (hit.shift (before.length + 1)) =
        alone.subtracts inside hit := subtracts_around level start
    rw [map_cons, literalPass, literalPass, map_cons, token_shift same,
      ih (step_level same stop) fun hit member => fits hit (mem_cons_of_mem _ member)]

theorem literalPass_around (ended : ∀ stop, wide.previousEnd = some stop → stop ≤ before.length)
    {hits : List (Hit Nat)} (fits : ∀ hit ∈ hits, hit.stop ≤ inside.length) :
    literalPass unicode (around before inside after) wide (hits.map (Hit.shift (before.length + 1))) =
      (literalPass unicode inside ⟨[], none, false⟩ hits).map (CompoundPowerToken.shift (before.length + 1)) := by
  cases hits with
  | nil => rfl
  | cons hit hits =>
    have stop := fits hit mem_cons_self
    have same : wide.subtracts (around before inside after) (hit.shift (before.length + 1)) =
        Literals.subtracts inside ⟨[], none, false⟩ hit := by
      rw [subtracts_first ended, subtracts_alone]
    rw [map_cons, literalPass, literalPass, map_cons, token_shift same,
      literalPass_level (step_level same stop) fun other member => fits other (mem_cons_of_mem _ member)]

theorem foldl_previousEnd (remaining : Text) {literals : Literals} {hits : List (Hit Nat)} {bound : Nat}
    (start : ∀ stop, literals.previousEnd = some stop → stop ≤ bound) (fits : ∀ hit ∈ hits, hit.stop ≤ bound) :
    ∀ stop, (hits.foldl (Literals.step unicode remaining) literals).previousEnd = some stop → stop ≤ bound := by
  induction hits generalizing literals with
  | nil => exact start
  | cons hit hits ih =>
    refine ih ?_ fun other member => fits other (mem_cons_of_mem _ member)
    intro stop ended
    have same : hit.stop = stop := Option.some.inj ended
    exact same ▸ fits hit mem_cons_self

theorem Placed.stops {length last : Nat} {tokens : List CompoundPowerToken} (placed : Placed length last tokens) :
    ∀ token ∈ tokens, token.stop ≤ length := by
  induction tokens generalizing last with
  | nil => simp
  | cons token tokens ih =>
    intro one member
    rcases mem_cons.mp member with rfl | member
    · exact placed.2.2.fits
    · exact ih placed.2.2 one member

def literalHits (text : Text) : List (Hit Nat) := (Regex.unguarded numericLiteral).matchAll text

theorem literal_stops (text : Text) : ∀ hit ∈ literalHits text, hit.stop ≤ text.length := by
  intro hit member
  exact (literal_placed text).stops ⟨hit.token, hit.start, hit.stop⟩ (mem_map_of_mem member)

theorem literals_around (before inside after : Text) :
    ∀ token ∈ literalPass unicode inside ⟨[], none, false⟩ (literalHits inside),
      token.shift (before.length + 1) ∈
        literalPass unicode (around before inside after) ⟨[], none, false⟩ (literalHits (around before inside after)) := by
  have consumes : (Regex.unguarded numericLiteral).Consumes := consumes_of_digits fun _ => accepts_literal
  have hits : literalHits (around before inside after) = literalHits before ++
      ((literalHits inside).map (Hit.shift (before.length + 1)) ++
        ((literalHits after).map (Hit.shift (inside.length + 1))).map (Hit.shift (before.length + 1))) := by
    rw [literalHits, around, Regex.Guarded.matchAll_separated literal_apart consumes,
      Regex.Guarded.matchAll_separated literal_apart consumes, map_append]
    rfl
  have ended : ∀ stop, ((literalHits before).foldl (Literals.step unicode (around before inside after))
      ⟨[], none, false⟩).previousEnd = some stop → stop ≤ before.length :=
    foldl_previousEnd _ (by simp) (literal_stops before)
  intro token member
  rw [hits, literalPass_append, literalPass_append, literalPass_around ended (literal_stops inside)]
  exact mem_append_right _ (mem_append_left _ (mem_map_of_mem member))

end

section
variable {unicode : Unicode}

def passTokens (unicode : Unicode) (text : Text) : List (Text × List CompoundPowerToken) :=
  let (first, second) := withoutPowers unicode text
  [(text, compoundPowerTokens unicode text), (first, barePowerTokens unicode first),
    (second, literalPass unicode second ⟨[], none, false⟩ (literalHits second))]

theorem numericValues_passes (text : Text) :
    numericValues unicode text =
      (passTokens unicode text).flatMap fun pass => pass.2.map (withParenthesizedSign pass.1) := by
  have literals : literalValues unicode (withoutPowers unicode text).2 =
      (literalPass unicode (withoutPowers unicode text).2 ⟨[], none, false⟩
        (literalHits (withoutPowers unicode text).2)).map
        (withParenthesizedSign (withoutPowers unicode text).2) := by
    rw [literalValues, foldl_values]
    rfl
  simp [numericValues, literals, passTokens]

def SignsKept (unicode : Unicode) (before inside after : Text) : Prop :=
  ∀ pass ∈ (passTokens unicode before).zip ((passTokens unicode inside).zip (passTokens unicode after)),
    ∀ token ∈ pass.2.1.2,
      withParenthesizedSign (around pass.1.1 pass.2.1.1 pass.2.2.1) (token.shift (pass.1.1.length + 1)) =
        withParenthesizedSign pass.2.1.1 token

theorem withoutPowers_around (before inside after : Text) :
    withoutPowers unicode (around before inside after) =
      (around (withoutPowers unicode before).1 (withoutPowers unicode inside).1 (withoutPowers unicode after).1,
        around (withoutPowers unicode before).2 (withoutPowers unicode inside).2 (withoutPowers unicode after).2) := by
  have first : withoutCompoundPowers (around before inside after)
      (compoundPowerTokens unicode (around before inside after)) =
      around (withoutPowers unicode before).1 (withoutPowers unicode inside).1 (withoutPowers unicode after).1 := by
    rw [around, compound_separated, removed_separated (compound_placed unicode before), compound_separated,
      removed_separated (compound_placed unicode inside)]
    rfl
  rw [withoutPowers, first]
  congr 1
  rw [around, bare_separated, removed_separated (bare_placed unicode _), bare_separated,
    removed_separated (bare_placed unicode _)]
  rfl

theorem passTokens_around (before inside after : Text) :
    ∀ pass ∈ (passTokens unicode before).zip ((passTokens unicode inside).zip (passTokens unicode after)),
      ∀ token ∈ pass.2.1.2, ∃ whole ∈ passTokens unicode (around before inside after),
        whole.1 = around pass.1.1 pass.2.1.1 pass.2.2.1 ∧ token.shift (pass.1.1.length + 1) ∈ whole.2 := by
  have shifted : ∀ (first : List CompoundPowerToken) {tokens last : List CompoundPowerToken} {distance other : Nat},
      ∀ token ∈ tokens, CompoundPowerToken.shift distance token ∈
        first ++ (tokens ++ last.map (CompoundPowerToken.shift other)).map (CompoundPowerToken.shift distance) :=
    fun first _ _ _ _ token member =>
      mem_append_right _ (mem_map_of_mem (mem_append_left _ member))
  intro pass member token listed
  simp only [passTokens, zip_cons_cons, zip_nil_right, mem_cons, not_mem_nil, or_false] at member
  simp only [passTokens, withoutPowers_around, mem_cons, not_mem_nil, or_false]
  rcases member with rfl | rfl | rfl
  · refine ⟨_, .inl rfl, rfl, ?_⟩
    dsimp only
    rw [around, compound_separated, compound_separated]
    exact shifted _ token listed
  · refine ⟨_, .inr (.inl rfl), rfl, ?_⟩
    dsimp only
    rw [around, bare_separated, bare_separated]
    exact shifted _ token listed
  · exact ⟨_, .inr (.inr rfl), rfl, literals_around _ _ _ token listed⟩

theorem numericValues_around {before inside after : Text} (kept : SignsKept unicode before inside after) :
    ∀ value ∈ numericValues unicode inside, value ∈ numericValues unicode (around before inside after) := by
  intro value member
  rw [numericValues_passes, mem_flatMap] at member ⊢
  obtain ⟨pass, listed, member⟩ := member
  obtain ⟨token, inPass, rfl⟩ := mem_map.mp member
  obtain ⟨front, back, triple⟩ : ∃ front back,
      (front, (pass, back)) ∈ (passTokens unicode before).zip
        ((passTokens unicode inside).zip (passTokens unicode after)) := by
    simp only [passTokens, mem_cons, not_mem_nil, or_false] at listed
    simp only [passTokens, zip_cons_cons, zip_nil_right, mem_cons, not_mem_nil, or_false]
    rcases listed with rfl | rfl | rfl
    · exact ⟨_, _, .inl rfl⟩
    · exact ⟨_, _, .inr (.inl rfl)⟩
    · exact ⟨_, _, .inr (.inr rfl)⟩
  obtain ⟨whole, there, same, shifted⟩ := passTokens_around before inside after _ triple token inPass
  refine ⟨whole, there, mem_map.mpr ⟨_, shifted, ?_⟩⟩
  rw [same]
  exact kept _ triple token inPass

instance (unicode : Unicode) (before inside after : Text) : Decidable (SignsKept unicode before inside after) :=
  inferInstanceAs (Decidable (∀ pass ∈
    (passTokens unicode before).zip ((passTokens unicode inside).zip (passTokens unicode after)),
    ∀ token ∈ pass.2.1.2,
      withParenthesizedSign (around pass.1.1 pass.2.1.1 pass.2.2.1) (token.shift (pass.1.1.length + 1)) =
        withParenthesizedSign pass.2.1.1 token))

end

end Numbers
