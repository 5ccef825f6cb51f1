import Mathlib.Data.List.Infix

/-- Backtracking regular expressions. `star` is greedy and gives up an iteration that
    matched nothing. -/
inductive Regex (Symbol : Type) where
  | empty
  | one (test : Symbol → Bool)
  | seq (first second : Regex Symbol)
  | alt (first second : Regex Symbol)
  | star (body : Regex Symbol)
  | capture (body : Regex Symbol)
  | finish

namespace Regex

open List

variable {Symbol : Type}

structure Match (Symbol : Type) where
  captures : List (List Symbol)
  rest : List Symbol

def iterate (step : List Symbol → List (Match Symbol)) : Nat → List Symbol → List (Match Symbol)
  | 0, input => [⟨[], input⟩]
  | fuel + 1, input =>
    ((step input).filter fun once => once.rest.length < input.length).flatMap (fun once =>
      (iterate step fuel once.rest).map fun more => ⟨once.captures ++ more.captures, more.rest⟩)
    ++ [⟨[], input⟩]

/-- Every way to match a prefix of the input, the preferred one first. An iteration of
    `star` consumes input, so the length of the input bounds their number. -/
def ways : Regex Symbol → List Symbol → List (Match Symbol)
  | .empty, input => [⟨[], input⟩]
  | .one _, [] => []
  | .one test, symbol :: input => if test symbol then [⟨[], input⟩] else []
  | .seq first second, input =>
    (first.ways input).flatMap fun left =>
      (second.ways left.rest).map fun right => ⟨left.captures ++ right.captures, right.rest⟩
  | .alt first second, input => first.ways input ++ second.ways input
  | .star body, input => iterate body.ways input.length input
  | .capture body, input =>
    (body.ways input).map fun once =>
      ⟨input.take (input.length - once.rest.length) :: once.captures, once.rest⟩
  | .finish, input => if input.isEmpty then [⟨[], []⟩] else []

def plus (body : Regex Symbol) : Regex Symbol := .seq body (.star body)

def times (body : Regex Symbol) : Nat → Regex Symbol
  | 0 => .empty
  | count + 1 => .seq body (body.times count)

/-- Between none and `count` times, as often as possible. -/
def upTo (body : Regex Symbol) : Nat → Regex Symbol
  | 0 => .empty
  | count + 1 => .alt (.seq body (body.upTo count)) .empty

def all : List (Regex Symbol) → Regex Symbol
  | [] => .empty
  | [regex] => regex
  | regex :: regexes => .seq regex (all regexes)

def exec (regex : Regex Symbol) (input : List Symbol) : Option (Match Symbol) :=
  (regex.ways input).head?

def test (regex : Regex Symbol) (input : List Symbol) : Bool := (regex.exec input).isSome

structure Found (Symbol : Type) where
  start : Nat
  token : List Symbol
deriving DecidableEq

def Found.stop (found : Found Symbol) : Nat := found.start + found.token.length

def scan (regex : Regex Symbol) (position skip : Nat) : List Symbol → List (Found Symbol)
  | [] =>
    match regex.exec [] with
    | some _ => [⟨position, []⟩]
    | none => []
  | symbol :: input =>
    match skip with
    | skip + 1 => regex.scan (position + 1) skip input
    | 0 =>
      match regex.exec (symbol :: input) with
      | some once =>
        let token := (symbol :: input).take ((symbol :: input).length - once.rest.length)
        ⟨position, token⟩ :: regex.scan (position + 1) (token.length - 1) input
      | none => regex.scan (position + 1) 0 input

def matchAll (regex : Regex Symbol) (text : List Symbol) : List (Found Symbol) := regex.scan 0 0 text

def Located (text : List Symbol) : Nat → List (Found Symbol) → Prop
  | last, [] => last ≤ text.length
  | last, found :: rest =>
    last ≤ found.start ∧ (text.drop found.start).take found.token.length = found.token ∧
      Located text found.stop rest

variable {founds : List (Found Symbol)}

theorem Located.weaken {text : List Symbol} {last earlier : Nat}
    (located : Located text last founds) (le : earlier ≤ last) : Located text earlier founds := by
  cases founds with
  | nil => exact Nat.le_trans le located
  | cons found rest => exact ⟨Nat.le_trans le located.1, located.2⟩

theorem Located.token_of_mem {text : List Symbol} {last : Nat}
    (located : Located text last founds) {found : Found Symbol} (member : found ∈ founds) :
    (text.drop found.start).take found.token.length = found.token := by
  induction founds generalizing last with
  | nil => cases member
  | cons first rest ih =>
    rcases mem_cons.mp member with rfl | member
    · exact located.2.1
    · exact ih located.2.2 member

theorem Located.filter {text : List Symbol} {last : Nat}
    (located : Located text last founds) (test : Found Symbol → Bool) :
    Located text last (founds.filter test) := by
  induction founds generalizing last with
  | nil => exact located
  | cons found rest ih =>
    obtain ⟨after, token, later⟩ := located
    rw [filter_cons]
    split
    · exact ⟨after, token, ih later⟩
    · exact (ih later).weaken (Nat.le_trans after (Nat.le_add_right _ _))

inductive Accepts : Regex Symbol → List Symbol → Prop where
  | empty : Accepts .empty []
  | one {test : Symbol → Bool} {symbol : Symbol} (passed : test symbol = true) :
      Accepts (.one test) [symbol]
  | seq {first second : Regex Symbol} {left right : List Symbol} (before : Accepts first left)
      (after : Accepts second right) : Accepts (.seq first second) (left ++ right)
  | altLeft {first second : Regex Symbol} {word : List Symbol} (chosen : Accepts first word) :
      Accepts (.alt first second) word
  | altRight {first second : Regex Symbol} {word : List Symbol} (chosen : Accepts second word) :
      Accepts (.alt first second) word
  | stop {body : Regex Symbol} : Accepts (.star body) []
  | more {body : Regex Symbol} {left right : List Symbol} (once : Accepts body left)
      (rest : Accepts (.star body) right) : Accepts (.star body) (left ++ right)
  | capture {body : Regex Symbol} {word : List Symbol} (inside : Accepts body word) :
      Accepts (.capture body) word
  | finish : Accepts .finish []

theorem iterate_accepts {body : Regex Symbol}
    (sound : ∀ input, ∀ once ∈ body.ways input,
      ∃ taken, input = taken ++ once.rest ∧ body.Accepts taken) (fuel : Nat)
    (input : List Symbol) : ∀ once ∈ iterate body.ways fuel input,
      ∃ taken, input = taken ++ once.rest ∧ (Regex.star body).Accepts taken := by
  induction fuel generalizing input with
  | zero =>
    intro once member
    rw [mem_singleton.mp member]
    exact ⟨[], rfl, .stop⟩
  | succ fuel ih =>
    intro once member
    simp only [iterate, mem_append, mem_flatMap, mem_filter, mem_map,
      mem_singleton] at member
    rcases member with ⟨first, ⟨found, _⟩, more, later, rfl⟩ | rfl
    · obtain ⟨left, split, accepted⟩ := sound input first found
      obtain ⟨right, rest, others⟩ := ih first.rest more later
      exact ⟨left ++ right, by rw [split, rest, append_assoc], accepted.more others⟩
    · exact ⟨[], rfl, .stop⟩

theorem ways_accepts (regex : Regex Symbol) (input : List Symbol) :
    ∀ once ∈ regex.ways input, ∃ taken, input = taken ++ once.rest ∧ regex.Accepts taken := by
  induction regex generalizing input with
  | empty =>
    intro once member
    rw [mem_singleton.mp member]
    exact ⟨[], rfl, .empty⟩
  | one test =>
    cases input with
    | nil => simp [ways]
    | cons symbol input =>
      intro once member
      simp only [ways] at member
      split at member
      · rename_i passed
        rw [mem_singleton.mp member]
        exact ⟨[symbol], rfl, .one passed⟩
      · cases member
  | seq first second ihFirst ihSecond =>
    intro once member
    simp only [ways, mem_flatMap, mem_map] at member
    obtain ⟨left, found, right, later, rfl⟩ := member
    obtain ⟨before, split, accepted⟩ := ihFirst _ left found
    obtain ⟨after, rest, followed⟩ := ihSecond _ right later
    exact ⟨before ++ after, by rw [split, rest, append_assoc], accepted.seq followed⟩
  | alt first second ihFirst ihSecond =>
    intro once member
    rcases mem_append.mp member with member | member
    · obtain ⟨taken, split, accepted⟩ := ihFirst input once member
      exact ⟨taken, split, .altLeft accepted⟩
    · obtain ⟨taken, split, accepted⟩ := ihSecond input once member
      exact ⟨taken, split, .altRight accepted⟩
  | star body ih => exact iterate_accepts ih _ _
  | capture body ih =>
    intro once member
    simp only [ways, mem_map] at member
    obtain ⟨inner, found, rfl⟩ := member
    obtain ⟨taken, split, accepted⟩ := ih input inner found
    exact ⟨taken, split, .capture accepted⟩
  | finish =>
    intro once member
    cases input with
    | nil =>
      rw [mem_singleton.mp member]
      exact ⟨[], rfl, .finish⟩
    | cons symbol input => cases member

theorem Accepts.star_one {test : Symbol → Bool} {word : List Symbol}
    (accepted : (Regex.star (.one test)).Accepts word) : ∀ symbol ∈ word, test symbol = true := by
  generalize shape : Regex.star (.one test) = regex at accepted
  induction accepted with
  | stop => simp
  | more once _ _ ih =>
    cases shape
    cases once with
    | one passed => simpa [passed] using ih rfl
  | empty | one | seq | altLeft | altRight | capture | finish => cases shape

theorem Accepts.plus_one {test : Symbol → Bool} {word : List Symbol}
    (accepted : (Regex.one test).plus.Accepts word) :
    word ≠ [] ∧ ∀ symbol ∈ word, test symbol = true := by
  cases accepted with
  | seq before after =>
    cases before with
    | one passed => simpa [passed] using after.star_one

theorem accepts_of_test {regex : Regex Symbol} {input : List Symbol}
    (passed : (Regex.seq regex .finish).test input = true) : regex.Accepts input := by
  obtain ⟨once, found⟩ := Option.isSome_iff_exists.mp passed
  have member := mem_of_head? found
  simp only [ways, mem_flatMap, mem_map] at member
  obtain ⟨left, before, right, after, -⟩ := member
  obtain ⟨taken, split, accepted⟩ := regex.ways_accepts input left before
  cases rest : left.rest with
  | nil => simpa [split, rest] using accepted
  | cons symbol others => simp [rest] at after

theorem scan_located (regex : Regex Symbol) (before : List Symbol) (skip : Nat) (input : List Symbol)
    (fits : skip ≤ input.length) :
    Located (before ++ input) (before.length + skip) (regex.scan before.length skip input) := by
  induction input generalizing before skip with
  | nil =>
    have none : skip = 0 := by simpa using fits
    subst none
    unfold scan
    split <;> simp [Located, Found.stop]
  | cons symbol input ih =>
    have moved : before ++ symbol :: input = (before ++ [symbol]) ++ input := by simp
    have longer : (before ++ [symbol]).length = before.length + 1 := by simp
    cases skip with
    | succ skip =>
      have rest := ih (before ++ [symbol]) skip (by simpa using fits)
      rw [longer, ← moved] at rest
      exact rest.weaken (by omega)
    | zero =>
      rw [scan]
      split
      · rename_i once found
        have member : once ∈ regex.ways (symbol :: input) := mem_of_head? found
        set token := (symbol :: input).take ((symbol :: input).length - once.rest.length) with named
        have bounded : token.length ≤ (symbol :: input).length := by
          simp [named]
        refine ⟨by simp, ?_, ?_⟩
        · have here : (before ++ symbol :: input).drop before.length = symbol :: input := by simp
          simp only [here, named, length_take]
          congr 1
          omega
        · have rest := ih (before ++ [symbol]) (token.length - 1) (by simp at bounded; omega)
          rw [longer, ← moved] at rest
          exact rest.weaken (by simp only [Found.stop]; omega)
      · have rest := ih (before ++ [symbol]) 0 (Nat.zero_le _)
        rw [longer, ← moved] at rest
        exact rest.weaken (by omega)

theorem scan_accepts (regex : Regex Symbol) (position skip : Nat) (input : List Symbol) :
    ∀ found ∈ regex.scan position skip input, regex.Accepts found.token := by
  induction input generalizing position skip with
  | nil =>
    intro found member
    rw [scan] at member
    split at member
    · rename_i once matched
      obtain ⟨taken, split, accepted⟩ := regex.ways_accepts [] once (mem_of_head? matched)
      obtain ⟨rfl, -⟩ := append_eq_nil_iff.mp split.symm
      rw [mem_singleton.mp member]
      exact accepted
    · cases member
  | cons symbol input ih =>
    intro found member
    cases skip with
    | succ skip => exact ih _ _ found member
    | zero =>
      rw [scan] at member
      split at member
      · rename_i once matched
        rcases mem_cons.mp member with rfl | member
        · obtain ⟨taken, split, accepted⟩ := regex.ways_accepts _ once (mem_of_head? matched)
          dsimp only
          rwa [split, length_append, Nat.add_sub_cancel, take_left]
        · exact ih _ _ found member
      · exact ih _ _ found member

theorem matchAll_located (regex : Regex Symbol) (text : List Symbol) :
    Located text 0 (regex.matchAll text) := by
  simpa [matchAll] using regex.scan_located [] 0 text (Nat.zero_le _)

end Regex
