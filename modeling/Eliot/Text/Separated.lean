import Eliot.Text.Preferred

namespace Regex

open List
variable {Symbol : Type} {mark : Symbol}

/-! A mark that an expression never takes keeps what stands on its two sides apart. -/

def Match.followed (tail : List Symbol) (once : Match Symbol) : Match Symbol :=
  ⟨once.captures, once.rest ++ tail⟩

theorem iterate_followed {step : List Symbol → List (Match Symbol)} {tail : List Symbol}
    (steps : ∀ input, step (input ++ tail) = (step input).map (Match.followed tail)) (fuel : Nat)
    (input : List Symbol) :
    iterate step fuel (input ++ tail) = (iterate step fuel input).map (Match.followed tail) := by
  induction fuel generalizing input with
  | zero => rfl
  | succ fuel ih =>
    rw [iterate, iterate, steps, map_append, map_flatMap]
    congr 1
    rw [filter_map, flatMap_map]
    have same : (fun once : Match Symbol => decide (once.rest.length < (input ++ tail).length)) ∘
        Match.followed tail = fun once => decide (once.rest.length < input.length) := by
      funext once
      simp [Match.followed]
    rw [same]
    apply flatMap_congr
    intro once _
    have next := ih once.rest
    simp only [Match.followed] at next ⊢
    rw [next, map_map, map_map]
    rfl

theorem ways_followed {regex : Regex Symbol} (free : regex.openEnded = true) (apart : regex.avoids mark = true)
    (input rest : List Symbol) :
    regex.ways (input ++ mark :: rest) = (regex.ways input).map (Match.followed (mark :: rest)) := by
  induction regex generalizing input with
  | empty => rfl
  | one test =>
    cases input with
    | nil =>
      have missed : test mark = false := by simpa [avoids] using apart
      simp [ways, missed]
    | cons symbol input =>
      rw [cons_append, ways, ways]
      split <;> rfl
  | seq first second ihFirst ihSecond =>
    simp only [openEnded, avoids, Bool.and_eq_true] at free apart
    rw [ways, ways, ihFirst free.1 apart.1, flatMap_map, map_flatMap]
    apply flatMap_congr
    intro once _
    rw [Match.followed, ihSecond free.2 apart.2, map_map, map_map]
    rfl
  | alt first second ihFirst ihSecond =>
    simp only [openEnded, avoids, Bool.and_eq_true] at free apart
    rw [ways, ways, ihFirst free.1 apart.1, ihSecond free.2 apart.2, map_append]
  | star body ih =>
    have enough : input.length ≤ (input ++ mark :: rest).length := by simp
    rw [ways, ways, iterate_followed (ih free apart), iterate_fuel body.ways enough]
  | capture body ih =>
    rw [ways, ways, ih free apart, map_map, map_map]
    apply map_congr_left
    intro once member
    obtain ⟨taken, split, -⟩ := body.ways_accepts input once member
    simp only [Function.comp_apply, Match.followed, split]
    simp
  | finish => cases free

namespace Guarded
variable {guarded : Guarded Symbol}

structure Apart (guarded : Guarded Symbol) (mark : Symbol) : Prop where
  free : guarded.body.openEnded = true
  avoided : guarded.body.avoids mark = true
  before : guarded.notBefore mark = false
  after : guarded.notAfter mark = false

theorem exec_followed (apart : guarded.Apart mark) (previous : Option Symbol) (input rest : List Symbol) :
    guarded.exec previous (input ++ mark :: rest) =
      (guarded.exec previous input).map (Match.followed (mark :: rest)) := by
  rw [exec, exec]
  split
  · rfl
  · rw [ways_followed apart.free apart.avoided, find?_map]
    congr 2
    funext once
    cases left : once.rest with
    | nil => simp [Match.followed, left, apart.after]
    | cons symbol others => simp [Match.followed, left]

theorem exec_behind (apart : guarded.Apart mark) (input : List Symbol) :
    guarded.exec (some mark) input = guarded.exec none input := by
  simp [exec, apart.before]

theorem exec_nil (consumes : guarded.Consumes) (previous : Option Symbol) : guarded.exec previous [] = none := by
  cases found : guarded.exec previous [] with
  | none => rfl
  | some once => exact absurd (consumes [] once (exec_some found).2.1) (by simp)

end Guarded

def Hit.shift (distance : Nat) (hit : Hit Symbol) : Hit Symbol :=
  ⟨⟨distance + hit.start, hit.token⟩, hit.captures⟩

namespace Guarded
variable {guarded : Guarded Symbol}

theorem scan_shift (distance position skip : Nat) (previous : Option Symbol) (input : List Symbol) :
    guarded.scan (distance + position) skip previous input =
      (guarded.scan position skip previous input).map (Hit.shift distance) := by
  induction input generalizing position skip previous with
  | nil =>
    rw [scan, scan]
    cases guarded.exec previous [] <;> rfl
  | cons symbol input ih =>
    have next := ih (position + 1)
    rw [← Nat.add_assoc] at next
    cases skip with
    | succ skip => rw [scan, scan, next]
    | zero =>
      rw [scan, scan]
      cases guarded.exec previous (symbol :: input) with
      | none => exact next _ _
      | some once =>
        dsimp only
        rw [next]
        rfl

theorem scan_behind (apart : guarded.Apart mark) (position : Nat) (input : List Symbol) :
    guarded.scan position 0 (some mark) input = guarded.scan position 0 none input := by
  cases input <;> simp only [scan, exec_behind apart]

theorem scan_separated (apart : guarded.Apart mark) (consumes : guarded.Consumes) (position skip : Nat)
    (previous : Option Symbol) (left right : List Symbol) (fits : skip ≤ left.length) :
    guarded.scan position skip previous (left ++ mark :: right) =
      guarded.scan position skip previous left ++
        guarded.scan (position + left.length + 1) 0 (some mark) right := by
  induction left generalizing position skip previous with
  | nil =>
    have none : skip = 0 := by simpa using fits
    have missed : guarded.exec previous (mark :: right) = Option.none := by
      have split := exec_followed apart previous [] right
      rwa [exec_nil consumes] at split
    rw [none, nil_append, scan_pass missed, scan, exec_nil consumes]
    rfl
  | cons symbol left ih =>
    have place : position + (symbol :: left).length + 1 = position + 1 + left.length + 1 := by
      simp only [length_cons]
      omega
    cases skip with
    | succ skip =>
      rw [cons_append, scan, scan, ih _ _ _ (by simpa using fits), place]
    | zero =>
      have split := exec_followed apart previous (symbol :: left) right
      rw [cons_append] at split ⊢
      rw [scan, scan, split]
      cases found : guarded.exec previous (symbol :: left) with
      | none =>
        simp only [Option.map_none]
        rw [ih _ _ _ (Nat.zero_le _), place]
      | some once =>
        obtain ⟨-, -, -, taken, shape, -⟩ := exec_some found
        have token : (symbol :: (left ++ mark :: right)).take
            ((symbol :: (left ++ mark :: right)).length - (once.followed (mark :: right)).rest.length) =
            (symbol :: left).take ((symbol :: left).length - once.rest.length) := by
          rw [← cons_append, shape]
          simp [Match.followed]
        have short : ((symbol :: left).take ((symbol :: left).length - once.rest.length)).length - 1 ≤
            left.length := by
          simp
        simp only [Option.map_some]
        rw [token, ih _ _ _ short, place, cons_append]
        rfl

theorem matchAll_separated (apart : guarded.Apart mark) (consumes : guarded.Consumes) (left right : List Symbol) :
    guarded.matchAll (left ++ mark :: right) =
      guarded.matchAll left ++ (guarded.matchAll right).map (Hit.shift (left.length + 1)) := by
  simp only [matchAll]
  rw [scan_separated apart consumes 0 0 none left right (Nat.zero_le _), scan_behind apart, Nat.zero_add,
    ← scan_shift, Nat.add_zero]

end Guarded

end Regex
