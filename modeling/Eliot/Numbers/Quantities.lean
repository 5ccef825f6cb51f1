import Eliot.Numbers.Coverage
import Eliot.Text.Preferred

namespace Numbers

open List Regex
open Regex (Match exec_seq exec_seq_none exec_alt_left exec_alt_right exec_one exec_one_none exec_star_one
  exec_star_more exec_star_stop exec_plus_one exec_suffix occurrences occurrences_pass occurrences_found)
open Text (isDigit isSpace trim)

inductive ClaimKind where
  | method | result | limitation | dataset | definition | other
deriving DecidableEq

structure VerifiedClaim where
  kind : ClaimKind
  statement : Text
  quote : Text
  task : Option Text
  metric : Option Text
  dataset : Option Text
  valueText : Option Text
  unit : Option Text
  conditions : Option Text
  valueNumber : Option Bool

inductive RoleFailure where
  | nonResultMeasurementFields
  | compoundPrimaryMeasurement

/-- `split(/[;；]/u)` has more than one part with something in it. -/
def isCompound (value : Text) : Bool :=
  decide (1 < ((value.splitOnP fun code => code == 59 || code == 0xff1b).filter
    fun part => !(trim part).isEmpty).length)

def measurementRoleFailure (claim : VerifiedClaim) : Option RoleFailure :=
  let fields := [claim.valueText, claim.unit]
  if claim.kind ≠ .result ∧ fields.any Option.isSome then some .nonResultMeasurementFields
  else if fields.any fun value => value.any isCompound then some .compoundPrimaryMeasurement
  else none

def clean (value : Option Text) : Option Text :=
  (value.map trim).filter fun trimmed => !trimmed.isEmpty

def composed (claim : VerifiedClaim) (text : Text) : Text :=
  let scalar := match clean claim.unit with
    | none => text
    | some unit =>
      if unit.isSuffixOf text then text else if unit = [37] then text ++ unit else text ++ 32 :: unit
  let record := match clean claim.metric with
    | none => scalar
    | some metric => metric ++ 32 :: scalar
  let context := [clean claim.task, clean claim.dataset, clean claim.conditions].reduceOption
  if context.isEmpty then record else (context.intersperse [44, 32]).flatten ++ 58 :: 32 :: record

def resultStatement (unicode : Unicode) (claim : VerifiedClaim) : Option Text :=
  if (measurementRoleFailure claim).isSome then none
  else if claim.kind ≠ .result then some claim.statement
  else match claim.valueText with
    | none => none
    | some valueText =>
      let text := trim valueText
      if text.isEmpty then none
      else if claim.valueNumber = some false then none
      else if 1 < countNumericQuantities unicode text then none
      else if numbersSupported unicode (composed claim text) claim.quote &&
          numbersSupported unicode text claim.statement &&
          numbersSupported unicode claim.statement (composed claim text) then some claim.statement
      else none

section
variable {code : Nat} {rest core : Text}

/-- `(?:[.,][0-9]+)*` -/
def groups : Regex Nat := .star (.seq (.one isSeparator) digits)

def magnitude : Regex Nat := .seq (.alt number pointed) exponent

theorem isDigit_false_of_separator (separator : isSeparator code = true) : isDigit code = false := by
  simp only [isSeparator, Bool.or_eq_true, beq_iff_eq] at separator
  rcases separator with rfl | rfl <;> rfl

theorem exec_digits (digit : isDigit code = true) :
    digits.exec (code :: rest) = some ⟨[], rest.dropWhile isDigit⟩ := exec_plus_one digit

theorem exec_digits_none (other : isDigit code = false) : digits.exec (code :: rest) = none := by
  refine exec_seq_none fun once member => ?_
  simp [Regex.ways, other] at member

theorem exists_exponent (input : Text) : ∃ once, exponent.exec input = some once := by
  cases found : (Regex.all [.one fun code => code == 101 || code == 69, Regex.optional (.one isSign), digits]).exec
      input with
  | none => exact ⟨⟨[], input⟩, exec_alt_right found⟩
  | some once => exact ⟨once, exec_alt_left found⟩

theorem exponent_separator (separator : isSeparator code = true) :
    exponent.exec (code :: rest) = some ⟨[], code :: rest⟩ := by
  refine exec_alt_right (exec_seq_none fun once member => ?_)
  simp only [isSeparator, Bool.or_eq_true, beq_iff_eq] at separator
  rcases separator with rfl | rfl <;> simp [Regex.ways] at member

theorem groups_more {digit : Nat} {once : Match Nat} (separator : isSeparator code = true)
    (passed : isDigit digit = true) (more : groups.exec (rest.dropWhile isDigit) = some once) :
    groups.exec (code :: digit :: rest) = some once := by
  have one : (Regex.seq (.one isSeparator) digits).exec (code :: digit :: rest) =
      some ⟨[] ++ [], rest.dropWhile isDigit⟩ := exec_seq (exec_one separator) (exec_digits passed)
  have shorter : (rest.dropWhile isDigit).length ≤ rest.length := length_dropWhile_le _ _
  refine exec_star_more one ?_ more
  simp only [length_cons]
  omega

theorem groups_stop (other : ∀ separator digit, rest.take 2 = [separator, digit] →
    isSeparator separator = true → isDigit digit = false) : groups.exec rest = some ⟨[], rest⟩ := by
  refine exec_star_stop (exec_seq_none fun once member => ?_)
  obtain ⟨taken, split, accepted⟩ := ways_accepts _ rest once member
  obtain ⟨separator, rfl, passed⟩ := accepted.one_symbol
  cases left : once.rest with
  | nil => rfl
  | cons digit others =>
    rw [left] at split
    exact exec_digits_none (other separator digit (by rw [split]; rfl) passed)

def groupsEnd (input : Text) : Text := (groups.exec input).elim input (·.rest)

def exponentEnd (input : Text) : Text := (exponent.exec input).elim input (·.rest)

theorem groups_exec (input : Text) : ∃ once, groups.exec input = some once ∧ once.rest = groupsEnd input := by
  obtain ⟨once, found⟩ := exec_star_exists (Regex.seq (.one isSeparator) digits) input
  have found : groups.exec input = some once := found
  exact ⟨once, found, by rw [groupsEnd, found]; rfl⟩

theorem exponent_exec (input : Text) :
    ∃ once, exponent.exec input = some once ∧ once.rest = exponentEnd input := by
  obtain ⟨once, found⟩ := exists_exponent input
  exact ⟨once, found, by rw [exponentEnd, found]; rfl⟩

theorem groupsEnd_more {digit : Nat} (separator : isSeparator code = true) (passed : isDigit digit = true) :
    groupsEnd (code :: digit :: rest) = groupsEnd (rest.dropWhile isDigit) := by
  obtain ⟨once, found, left⟩ := groups_exec (rest.dropWhile isDigit)
  rw [groupsEnd, groups_more separator passed found, ← left]
  rfl

theorem exec_number (digit : isDigit code = true) :
    ∃ once, number.exec (code :: rest) = some once ∧ once.rest = groupsEnd (rest.dropWhile isDigit) := by
  obtain ⟨once, found, left⟩ := groups_exec (rest.dropWhile isDigit)
  exact ⟨_, exec_seq (exec_digits digit) found, left⟩

theorem exec_token (rest : Text) (digit : isDigit code = true) :
    ∃ once, numericToken.exec (code :: rest) = some once ∧
      once.rest = exponentEnd (groupsEnd (rest.dropWhile isDigit)) := by
  obtain ⟨whole, found, left⟩ := exec_number digit
  obtain ⟨once, last, leftover⟩ := exponent_exec whole.rest
  exact ⟨_, exec_seq found last, by rw [← left]; exact leftover⟩

theorem exec_magnitude (rest : Text) (digit : isDigit code = true) :
    ∃ once, magnitude.exec (code :: rest) = some once ∧
      once.rest = exponentEnd (groupsEnd (rest.dropWhile isDigit)) := by
  obtain ⟨whole, found, left⟩ := exec_number digit
  obtain ⟨once, last, leftover⟩ := exponent_exec whole.rest
  exact ⟨_, exec_seq (exec_alt_left found) last, by rw [← left]; exact leftover⟩

theorem number_none (other : isDigit code = false) : number.exec (code :: rest) = none :=
  exec_seq_left_none (exec_digits_none other)

theorem exec_pointed {digit : Nat} (rest : Text) (passed : isDigit digit = true) :
    ∃ once, magnitude.exec (46 :: digit :: rest) = some once ∧
      once.rest = exponentEnd (rest.dropWhile isDigit) := by
  have fraction : pointed.exec (46 :: digit :: rest) = some ⟨[] ++ [], rest.dropWhile isDigit⟩ :=
    exec_seq (exec_one rfl) (exec_digits passed)
  obtain ⟨once, last, leftover⟩ := exponent_exec (rest.dropWhile isDigit)
  have chosen : (Regex.alt number pointed).exec (46 :: digit :: rest) = some ⟨[] ++ [], rest.dropWhile isDigit⟩ := by
    rw [exec_alt_right (number_none rfl)]
    exact fraction
  exact ⟨_, exec_seq chosen last, leftover⟩

theorem magnitude_starts (core : Text) :
    (∃ digit rest, core = digit :: rest ∧ isDigit digit = true) ∨
    (∃ digit rest, core = 46 :: digit :: rest ∧ isDigit digit = true) ∨ magnitude.exec core = none := by
  cases found : magnitude.exec core with
  | none => exact .inr (.inr rfl)
  | some once =>
    obtain ⟨taken, split, accepted⟩ := ways_accepts _ core once (mem_of_head? found)
    obtain ⟨left, right, rfl, chosen, -⟩ := accepted.seq_split
    rcases chosen.alt_split with whole | fraction
    · obtain ⟨first, others, rfl, front, -⟩ := whole.seq_split
      obtain ⟨digit, tail, rfl, head, -⟩ := front.seq_split
      obtain ⟨code, rfl, passed⟩ := head.one_symbol
      exact .inl ⟨code, _, split, passed⟩
    · obtain ⟨point, others, rfl, front, back⟩ := fraction.seq_split
      obtain ⟨code, rfl, same⟩ := front.one_symbol
      obtain ⟨digit, tail, rfl, head, -⟩ := back.seq_split
      obtain ⟨second, rfl, passed⟩ := head.one_symbol
      rw [eq_of_beq same] at split
      exact .inr (.inl ⟨second, _, split, passed⟩)

def unsigned : Text → Text
  | [] => []
  | code :: rest => if isSign code then rest.dropWhile isBlank else code :: rest

theorem isSign_not_digit (sign : isSign code = true) : isDigit code = false ∧ code ≠ 46 := by
  simp only [isSign, isMinus, Bool.or_eq_true, beq_iff_eq] at sign
  rcases sign with rfl | rfl | rfl <;> decide

theorem isBlank_not_digit (blank : isBlank code = true) : isDigit code = false ∧ code ≠ 46 := by
  simp only [isBlank, Bool.or_eq_true, beq_iff_eq] at blank
  rcases blank with ((rfl | rfl) | rfl) | rfl <;> decide

theorem magnitude_none (other : isDigit code = false ∧ code ≠ 46) : magnitude.exec (code :: rest) = none := by
  rcases magnitude_starts (code :: rest) with ⟨digit, tail, same, passed⟩ | ⟨digit, tail, same, -⟩ | missed
  · cases same
    rw [other.1] at passed
    cases passed
  · cases same
    exact absurd rfl other.2
  · exact missed

theorem literal_some {input : Text} {once : Match Nat} (found : magnitude.exec (unsigned input) = some once) :
    ∃ whole, numericLiteral.exec input = some whole ∧ whole.rest = once.rest := by
  have signless : ∀ left : Match Nat,
      (Regex.optional (.seq (.one isSign) blanks)).exec input = some left → left.rest = unsigned input →
      ∃ whole, numericLiteral.exec input = some whole ∧ whole.rest = once.rest :=
    fun left chosen same => ⟨_, exec_seq chosen (same ▸ found), rfl⟩
  cases input with
  | nil => cases found
  | cons code rest =>
    by_cases sign : isSign code = true
    · have lead : (Regex.seq (.one isSign) blanks).exec (code :: rest) =
          some ⟨[] ++ [], rest.dropWhile isBlank⟩ := exec_seq (exec_one sign) (exec_star_one isBlank rest)
      exact signless _ (exec_alt_left lead) (by rw [unsigned, if_pos sign])
    · have lead : (Regex.seq (.one isSign) blanks).exec (code :: rest) = none :=
        exec_seq_left_none (exec_one_none (by simpa using sign))
      exact signless ⟨[], code :: rest⟩ (exec_alt_right lead) (by rw [unsigned, if_neg sign])

theorem literal_none {input : Text} (missed : magnitude.exec (unsigned input) = none) :
    numericLiteral.exec input = none := by
  refine exec_seq_none fun once member => ?_
  rcases mem_append.mp member with signed | bare
  · obtain ⟨taken, split, accepted⟩ := ways_accepts _ _ once signed
    obtain ⟨left, right, rfl, first, spaces⟩ := accepted.seq_split
    obtain ⟨code, rfl, sign⟩ := first.one_symbol
    have blank := spaces.star_one
    cases left : once.rest with
    | nil => rfl
    | cons next others =>
      by_cases more : isBlank next = true
      · exact magnitude_none (isBlank_not_digit more)
      · rw [split, left, singleton_append, cons_append, unsigned, if_pos sign,
          dropWhile_append_of_pos blank, dropWhile_cons_of_neg more] at missed
        exact missed
  · rw [mem_singleton.mp bare]
    cases input with
    | nil => exact missed
    | cons code rest =>
      by_cases sign : isSign code = true
      · exact magnitude_none (isSign_not_digit sign)
      · rwa [unsigned, if_neg sign] at missed

end

section
variable {code digit : Nat} {rest input : Text}

theorem exponentEnd_suffix (input : Text) : exponentEnd input <:+ input := by
  obtain ⟨once, found, left⟩ := exponent_exec input
  exact left ▸ exec_suffix found

theorem groupsEnd_suffix (input : Text) : groupsEnd input <:+ input := by
  obtain ⟨once, found, left⟩ := groups_exec input
  exact left ▸ exec_suffix found

def numberEnd (rest : Text) : Text := exponentEnd (groupsEnd (rest.dropWhile isDigit))

theorem numberEnd_suffix (rest : Text) : numberEnd rest <:+ rest :=
  (exponentEnd_suffix _).trans ((groupsEnd_suffix _).trans (dropWhile_suffix _))

def Continued (input : Text) : Prop :=
  ∃ separator digit rest, input = separator :: digit :: rest ∧ isSeparator separator = true ∧ isDigit digit = true

theorem groupsEnd_stop (stopped : ¬ Continued input) : groupsEnd input = input := by
  rw [groupsEnd, groups_stop]
  · rfl
  · intro separator digit front passed
    by_contra other
    refine stopped ⟨separator, digit, input.drop 2, ?_, passed, by simpa using other⟩
    have whole := take_append_drop 2 input
    rw [front] at whole
    exact whole.symm

theorem unsigned_split (input : Text) :
    ∃ lead, input = lead ++ unsigned input ∧ ∀ code ∈ lead, isDigit code = false ∧ code ≠ 46 := by
  cases input with
  | nil => exact ⟨[], rfl, by simp⟩
  | cons code rest =>
    by_cases sign : isSign code = true
    · refine ⟨code :: rest.takeWhile isBlank, ?_, ?_⟩
      · rw [unsigned, if_pos sign, cons_append, takeWhile_append_dropWhile]
      · intro other member
        rcases mem_cons.mp member with rfl | member
        · exact isSign_not_digit sign
        · exact isBlank_not_digit (mem_takeWhile_imp member)
    · exact ⟨[], by rw [unsigned, if_neg sign, nil_append], by simp⟩

theorem unsigned_length (input : Text) : (unsigned input).length ≤ input.length := by
  obtain ⟨lead, split, -⟩ := unsigned_split input
  conv_rhs => rw [split]
  simp

theorem literal_digit (core : unsigned input = digit :: rest) (passed : isDigit digit = true) :
    occurrences numericLiteral input = occurrences numericLiteral (numberEnd rest) + 1 := by
  obtain ⟨once, found, left⟩ := exec_magnitude rest passed
  rw [← core] at found
  obtain ⟨whole, literal, same⟩ := literal_some found
  have last : whole.rest = numberEnd rest := same.trans left
  have shorter := (numberEnd_suffix rest).length_le
  have length := unsigned_length input
  rw [core, length_cons] at length
  rw [occurrences_found literal (by rw [last]; omega), last]

theorem literal_pointed (core : unsigned input = 46 :: digit :: rest) (passed : isDigit digit = true) :
    occurrences numericLiteral input =
      occurrences numericLiteral (exponentEnd (rest.dropWhile isDigit)) + 1 := by
  obtain ⟨once, found, left⟩ := exec_pointed rest passed
  rw [← core] at found
  obtain ⟨whole, literal, same⟩ := literal_some found
  have last := same.trans left
  have shorter : (exponentEnd (rest.dropWhile isDigit)).length ≤ rest.length :=
    ((exponentEnd_suffix _).trans (dropWhile_suffix isDigit)).length_le
  have length := unsigned_length input
  rw [core, length_cons, length_cons] at length
  rw [occurrences_found literal (by rw [last]; omega), last]

theorem unsigned_digit (passed : isDigit digit = true) : unsigned (digit :: rest) = digit :: rest := by
  rw [unsigned, if_neg]
  intro sign
  rw [(isSign_not_digit sign).1] at passed
  cases passed

theorem literals_of_continued (continued : Continued input) :
    occurrences numericLiteral (exponentEnd (groupsEnd input)) < occurrences numericLiteral input := by
  induction length : input.length using Nat.strong_induction_on generalizing input with
  | _ length ih =>
  obtain ⟨separator, digit, rest, rfl, passed, first⟩ := continued
  rw [groupsEnd_more passed first]
  have code : separator = 46 ∨ separator = 44 := by
    simpa [isSeparator, Bool.or_eq_true, beq_iff_eq] using passed
  rcases code with rfl | rfl
  · have pointed : unsigned (46 :: digit :: rest) = 46 :: digit :: rest := rfl
    rw [literal_pointed pointed first]
    by_cases more : Continued (rest.dropWhile isDigit)
    · have shorter := (dropWhile_suffix isDigit (l := rest)).length_le
      have next := ih _ (by rw [← length, length_cons, length_cons]; omega) more rfl
      obtain ⟨separator, digit, others, same, passed, -⟩ := more
      have plain : exponentEnd (rest.dropWhile isDigit) = rest.dropWhile isDigit := by
        rw [same, exponentEnd, exponent_separator passed]
        rfl
      rw [plain]
      omega
    · rw [groupsEnd_stop more]
      exact Nat.lt_succ_self _
  · have comma : numericLiteral.exec (44 :: digit :: rest) = none := literal_none (magnitude_none (by decide))
    rw [occurrences_pass comma, literal_digit (unsigned_digit first) first, numberEnd]
    exact Nat.lt_succ_self _

def tokensFrom (before input : Text) : List (Regex.Hit Nat) :=
  (Regex.unguarded numericToken).scan before.length 0 before.getLast? input

def continuesFraction (text : Text) (hit : Regex.Hit Nat) : Bool :=
  (text.take hit.start).getLast? == some 46 && hit.token.any isSeparator

theorem tokensFrom_skip {before skipped : Text} (others : ∀ code ∈ skipped, isDigit code = false) :
    tokensFrom before (skipped ++ input) = tokensFrom (before ++ skipped) input := by
  induction skipped generalizing before with
  | nil => rw [nil_append, append_nil]
  | cons code skipped ih =>
    have missed : (Regex.unguarded numericToken).exec before.getLast? (code :: (skipped ++ input)) = none := by
      rw [exec_unguarded]
      exact exec_seq_left_none (number_none (others code mem_cons_self))
    have next : tokensFrom (before ++ [code]) (skipped ++ input) = _ :=
      ih fun other member => others other (mem_cons_of_mem _ member)
    rw [append_assoc, singleton_append] at next
    rw [← next, cons_append, tokensFrom, Regex.Guarded.scan_pass missed]
    simp [tokensFrom]

theorem tokensFrom_take (before : Text) (passed : isDigit digit = true) :
    ∃ taken captures, digit :: rest = taken ++ numberEnd rest ∧ numericToken.Accepts taken ∧
      tokensFrom before (digit :: rest) =
        ⟨⟨before.length, taken⟩, captures⟩ :: tokensFrom (before ++ taken) (numberEnd rest) := by
  obtain ⟨once, found, left⟩ := exec_token rest passed
  have found : (Regex.unguarded numericToken).exec before.getLast? (digit :: rest) = some once := by
    rwa [exec_unguarded]
  have last : once.rest = numberEnd rest := left
  have shorter := (numberEnd_suffix rest).length_le
  obtain ⟨taken, split, accepted, scanned⟩ :=
    Regex.Guarded.scan_found before.length found (by rw [last, length_cons]; omega)
  rw [last] at split scanned
  refine ⟨taken, once.captures, split, accepted, ?_⟩
  have filled : taken ≠ [] := by
    rintro rfl
    have lengths := congrArg List.length split
    simp only [nil_append, length_cons] at lengths
    omega
  rw [tokensFrom, scanned, tokensFrom, length_append, getLast?_append_of_ne_nil _ filled]

def EndsInDigit (word : Text) : Prop := ∃ code, word.getLast? = some code ∧ isDigit code = true

theorem EndsInDigit.append (left : Text) {right : Text} (last : EndsInDigit right) : EndsInDigit (left ++ right) := by
  obtain ⟨code, found, passed⟩ := last
  refine ⟨code, ?_, passed⟩
  rw [getLast?_append, found]
  rfl

theorem digits_end {word : Text} (accepted : digits.Accepts word) : EndsInDigit word := by
  obtain ⟨filled, all⟩ := accepted.plus_one
  exact ⟨_, getLast?_eq_some_getLast filled, all _ (getLast_mem filled)⟩

theorem exponent_end {word : Text} (accepted : exponent.Accepts word) : word = [] ∨ EndsInDigit word := by
  rcases accepted.alt_split with written | nothing
  · obtain ⟨left, right, rfl, -, behind⟩ := written.seq_split
    obtain ⟨sign, last, rfl, -, front⟩ := behind.seq_split
    exact .inr (((digits_end front).append sign).append left)
  · cases nothing
    exact .inl rfl

theorem token_end {word : Text} (accepted : numericToken.Accepts word) : EndsInDigit word := by
  obtain ⟨whole, power, rfl, number, behind⟩ := accepted.seq_split
  obtain ⟨first, others, rfl, front, more⟩ := number.seq_split
  have whole : EndsInDigit (first ++ others) := by
    have each : ∀ once, (Regex.seq (.one isSeparator) digits).Accepts once → EndsInDigit once := by
      intro once group
      obtain ⟨left, right, rfl, -, last⟩ := group.seq_split
      exact (digits_end last).append left
    rcases more.star_ends (fun left _ => EndsInDigit.append left) each with rfl | last
    · rw [append_nil]
      exact digits_end front
    · exact last.append first
  rcases exponent_end behind with rfl | last
  · rwa [append_nil]
  · exact last.append _

theorem exponent_plain {word : Text} (accepted : exponent.Accepts word) : word.any isSeparator = false := by
  have point : 46 ∉ word := accepted.avoids (by decide)
  have comma : 44 ∉ word := accepted.avoids (by decide)
  rw [any_eq_false]
  intro code member separator
  simp only [isSeparator, Bool.or_eq_true, beq_iff_eq] at separator
  rcases separator with rfl | rfl
  · exact point member
  · exact comma member

theorem token_separator {taken : Text} (passed : isDigit digit = true)
    (split : digit :: rest = taken ++ numberEnd rest) :
    taken.any isSeparator = true ↔ Continued (rest.dropWhile isDigit) := by
  have whole : rest.takeWhile isDigit ++ rest.dropWhile isDigit = rest := takeWhile_append_dropWhile
  constructor
  · intro separator
    by_contra stopped
    obtain ⟨once, found, left⟩ := exponent_exec (rest.dropWhile isDigit)
    obtain ⟨power, same, accepted⟩ := ways_accepts _ _ once (mem_of_head? found)
    rw [left] at same
    have last : numberEnd rest = exponentEnd (rest.dropWhile isDigit) := by
      rw [numberEnd, groupsEnd_stop stopped]
    have token : taken ++ numberEnd rest = (digit :: rest.takeWhile isDigit ++ power) ++ numberEnd rest := by
      rw [← split, last, append_assoc, ← same, cons_append, whole]
    have digits : ∀ code ∈ digit :: rest.takeWhile isDigit, isSeparator code = false := by
      intro code member
      by_contra found
      have number : isDigit code = true := by
        rcases mem_cons.mp member with rfl | member
        · exact passed
        · exact mem_takeWhile_imp member
      rw [isDigit_false_of_separator (by simpa using found)] at number
      cases number
    rw [append_cancel_right token, any_append, exponent_plain accepted, Bool.or_false, any_eq_true] at separator
    obtain ⟨code, member, found⟩ := separator
    rw [digits code member] at found
    cases found
  · rintro ⟨separator, next, others, continued, sign, first⟩
    obtain ⟨front, inside⟩ := numberEnd_suffix others
    have last : numberEnd rest = numberEnd others := by
      rw [numberEnd, continued, groupsEnd_more sign first, numberEnd]
    have token : taken ++ numberEnd others =
        (digit :: rest.takeWhile isDigit ++ separator :: next :: front) ++ numberEnd others := by
      rw [← last, ← split, last, append_assoc, cons_append, cons_append, cons_append, inside,
        ← continued, whole]
    rw [append_cancel_right token]
    simp [sign]

def Counted (before input : Text) : Prop :=
  (tokensFrom before input).length ≤ occurrences numericLiteral input ∧
    ((tokensFrom before input).length = occurrences numericLiteral input ↔
      ∀ hit ∈ tokensFrom before input, continuesFraction (before ++ input) hit = false)

theorem Counted.number {before skipped taken : Text} {captures : List Text}
    (others : ∀ code ∈ skipped, isDigit code = false) (passed : isDigit digit = true)
    (split : digit :: rest = taken ++ numberEnd rest)
    (scanned : tokensFrom (before ++ skipped) (digit :: rest) = ⟨⟨(before ++ skipped).length, taken⟩, captures⟩ ::
      tokensFrom (before ++ skipped ++ taken) (numberEnd rest))
    (more : occurrences numericLiteral (numberEnd rest) < occurrences numericLiteral (skipped ++ digit :: rest))
    (exact : occurrences numericLiteral (skipped ++ digit :: rest) = occurrences numericLiteral (numberEnd rest) + 1 ↔
      ¬ ((before ++ skipped).getLast? = some 46 ∧ Continued (rest.dropWhile isDigit)))
    (later : Counted (before ++ skipped ++ taken) (numberEnd rest)) : Counted before (skipped ++ digit :: rest) := by
  obtain ⟨fewer, same⟩ := later
  have text : before ++ (skipped ++ digit :: rest) = before ++ skipped ++ taken ++ numberEnd rest := by
    rw [split]
    simp
  have first : continuesFraction (before ++ (skipped ++ digit :: rest))
      ⟨⟨(before ++ skipped).length, taken⟩, captures⟩ = false ↔
      ¬ ((before ++ skipped).getLast? = some 46 ∧ Continued (rest.dropWhile isDigit)) := by
    rw [← token_separator passed split, text, continuesFraction, append_assoc (before ++ skipped),
      take_left]
    simp
  rw [Counted, tokensFrom_skip others, scanned, length_cons, forall_mem_cons, first, text, ← same]
  by_cases behind : (before ++ skipped).getLast? = some 46 ∧ Continued (rest.dropWhile isDigit)
  · simp only [behind, and_self, not_true, iff_false, false_and] at exact ⊢
    omega
  · simp only [behind, not_false_eq_true, iff_true, true_and] at exact ⊢
    omega

theorem apart_of_token {before taken input : Text} (accepted : numericToken.Accepts taken) :
    (before ++ taken).getLast? = some 46 → ∀ code, input.head? = some code → isDigit code = false := by
  intro point
  obtain ⟨last, found, passed⟩ := (token_end accepted).append before
  rw [point, Option.some.injEq] at found
  rw [← found] at passed
  cases passed

theorem counted (before input : Text)
    (apart : before.getLast? = some 46 → ∀ code, input.head? = some code → isDigit code = false) :
    Counted before input := by
  induction length : input.length using Nat.strong_induction_on generalizing before input with
  | _ length ih =>
  subst length
  cases input with
  | nil =>
    have none : tokensFrom before [] = [] := by
      rw [tokensFrom, Regex.Guarded.scan, exec_unguarded]
      rfl
    have nothing : occurrences numericLiteral [] = 0 := rfl
    simp [Counted, none, nothing]
  | cons code rest =>
    obtain ⟨lead, split, plain⟩ := unsigned_split (code :: rest)
    have lengths := congrArg List.length split
    rw [length_append] at lengths
    rcases magnitude_starts (unsigned (code :: rest)) with
      ⟨digit, others, core, passed⟩ | ⟨digit, others, core, passed⟩ | missed
    · obtain ⟨taken, captures, token, accepted, scanned⟩ := tokensFrom_take (before ++ lead) passed
      have literal := literal_digit core passed
      rw [core] at split lengths
      simp only [length_cons] at lengths ih
      have shorter := (numberEnd_suffix others).length_le
      have later := ih (numberEnd others).length (by omega) (before ++ lead ++ taken) (numberEnd others)
        (apart_of_token accepted) rfl
      rw [split] at literal apart ⊢
      refine Counted.number (fun one member => (plain one member).1) passed token scanned (by omega) ?_ later
      refine iff_of_true literal fun behind => ?_
      rcases eq_nil_or_concat lead with rfl | ⟨front, last, rfl⟩
      · have number := apart (by simpa using behind.1) digit rfl
        rw [passed] at number
        cases number
      · exact (plain last (by simp)).2 (by simpa using behind.1)
    · obtain ⟨taken, captures, token, accepted, scanned⟩ := tokensFrom_take (before ++ (lead ++ [46])) passed
      have literal := literal_pointed core passed
      rw [core] at split lengths
      simp only [length_cons] at lengths ih
      have shorter := (numberEnd_suffix others).length_le
      have later := ih (numberEnd others).length (by omega) (before ++ (lead ++ [46]) ++ taken) (numberEnd others)
        (apart_of_token accepted) rfl
      have split : code :: rest = (lead ++ [46]) ++ digit :: others := by rw [split]; simp
      rw [split] at literal ⊢
      have behind : (before ++ (lead ++ [46])).getLast? = some 46 := by simp
      have nondigit : ∀ one ∈ lead ++ [46], isDigit one = false := by
        intro one member
        rcases mem_append.mp member with member | member
        · exact (plain one member).1
        · rw [mem_singleton.mp member]
          rfl
      by_cases continued : Continued (others.dropWhile isDigit)
      · have fewer := literals_of_continued continued
        have same : exponentEnd (others.dropWhile isDigit) = others.dropWhile isDigit := by
          obtain ⟨separator, next, tail, shape, sign, -⟩ := continued
          rw [shape, exponentEnd, exponent_separator sign]
          rfl
        rw [same] at literal
        rw [← numberEnd] at fewer
        refine Counted.number nondigit passed token scanned (by omega) ?_ later
        exact iff_of_false (by omega) (not_not_intro ⟨behind, continued⟩)
      · have same : numberEnd others = exponentEnd (others.dropWhile isDigit) := by
          rw [numberEnd, groupsEnd_stop continued]
        rw [← same] at literal
        refine Counted.number nondigit passed token scanned (by omega) ?_ later
        exact iff_of_true literal fun both => continued both.2
    · have nondigit : isDigit code = false := by
        by_contra passed
        have passed : isDigit code = true := by simpa using passed
        obtain ⟨once, found, -⟩ := exec_magnitude rest passed
        rw [unsigned_digit passed, found] at missed
        cases missed
      have later := ih rest.length (by simp) (before ++ [code]) rest ?_ rfl
      · have skip : tokensFrom before ([code] ++ rest) = tokensFrom (before ++ [code]) rest :=
          tokensFrom_skip (by simpa using nondigit)
        have whole : before ++ code :: rest = before ++ [code] ++ rest := by simp
        rw [singleton_append] at skip
        rw [Counted, skip, occurrences_pass (literal_none missed), whole]
        exact later
      · intro point next there
        rw [getLast?_concat, Option.some.injEq] at point
        by_contra passed
        obtain ⟨tail, rfl⟩ : ∃ tail, rest = next :: tail := head?_eq_some_iff.mp there
        obtain ⟨once, found, -⟩ := exec_pointed tail (by simpa using passed)
        rw [point, show unsigned (46 :: next :: tail) = 46 :: next :: tail from rfl, found] at missed
        cases missed

end

section
variable {unicode : Unicode}

/-- Behind a point, a number of what the powers leave has a separator itself, as in `.5.6`. -/
def fractionContinued (unicode : Unicode) (text : Text) : Bool :=
  let residue := (withoutPowers unicode text).2
  ((Regex.unguarded numericToken).matchAll residue).any (continuesFraction residue)

theorem count_values (unicode : Unicode) (text : Text) :
    countNumericQuantities unicode text ≤ (numericValues unicode text).length ∧
      (countNumericQuantities unicode text = (numericValues unicode text).length ↔
        fractionContinued unicode text = false) := by
  obtain ⟨fewer, same⟩ := counted [] (withoutPowers unicode text).2 (by simp)
  have tokens : tokensFrom [] (withoutPowers unicode text).2 =
      (Regex.unguarded numericToken).matchAll (withoutPowers unicode text).2 := rfl
  have literals : (literalValues unicode (withoutPowers unicode text).2).length =
      occurrences numericLiteral (withoutPowers unicode text).2 := by
    rw [literalValues, foldl_step_length, length_nil, Nat.zero_add, occurrences]
  have continued : fractionContinued unicode text = false ↔
      ∀ hit ∈ tokensFrom [] (withoutPowers unicode text).2,
        continuesFraction ([] ++ (withoutPowers unicode text).2) hit = false := by
    rw [fractionContinued, tokens]
    simp
  rw [continued, ← same, countNumericQuantities, numericValues]
  simp only [length_append, length_map, literals, ← tokens]
  omega

theorem count_positive {text : Text} (continued : fractionContinued unicode text = true) :
    0 < countNumericQuantities unicode text := by
  obtain ⟨hit, member, -⟩ := any_eq_true.mp continued
  have length := length_pos_of_mem member
  simp only [countNumericQuantities]
  omega

theorem admitted_count {claim : VerifiedClaim} {statement valueText : Text}
    (admitted : resultStatement unicode claim = some statement) (result : claim.kind = .result)
    (value : claim.valueText = some valueText) : countNumericQuantities unicode (trim valueText) ≤ 1 := by
  by_contra more
  simp [resultStatement, result, value, Nat.lt_of_not_le more] at admitted

/-- The counter misses no token of the verifier, and a result has no second one, just where no
    fraction is continued. -/
theorem quantities_counted (unicode : Unicode) :
    (∀ text, (numericValues unicode text).length ≤ countNumericQuantities unicode text ↔
      fractionContinued unicode text = false) ∧
    ∀ claim statement valueText, claim.kind = .result → claim.valueText = some valueText →
      resultStatement unicode claim = some statement →
      ((numericValues unicode (trim valueText)).length ≤ 1 ↔
        fractionContinued unicode (trim valueText) = false) := by
  constructor
  · intro text
    obtain ⟨fewer, same⟩ := count_values unicode text
    rw [← same]
    omega
  · intro claim statement valueText result value admitted
    obtain ⟨fewer, same⟩ := count_values unicode (trim valueText)
    have one := admitted_count admitted result value
    rw [← same]
    refine ⟨fun single => ?_, fun equal => equal ▸ one⟩
    by_contra different
    have some : 0 < countNumericQuantities unicode (trim valueText) := count_positive (by
      rw [same] at different
      simpa using different)
    omega

/-- `.5.6` -/
def fractionCard : VerifiedClaim where
  kind := .result
  statement := text "BLEU .5.6"
  quote := text "BLEU .5.6"
  task := none
  metric := some (text "BLEU")
  dataset := none
  valueText := some (text ".5.6")
  unit := none
  conditions := none
  valueNumber := none

theorem fraction_miscounted :
    ¬ ((numericValues Unicode.plain (text ".5.6")).length ≤ countNumericQuantities Unicode.plain (text ".5.6")) ∧
    resultStatement Unicode.plain fractionCard = some (text "BLEU .5.6") ∧
    ¬ (numericValues Unicode.plain (trim (text ".5.6"))).length ≤ 1 := by decide +kernel

theorem sample_quantities_counted :
    (numericValues Unicode.plain (trim (text "41.8"))).length ≤ 1 :=
  ((quantities_counted Unicode.plain).2
    { fractionCard with statement := text "41.8", quote := text "41.8", metric := none, valueText := some (text "41.8") }
    (text "41.8") (text "41.8") rfl rfl (by decide +kernel)).mpr (by decide +kernel)

end

end Numbers
