import Eliot.Json.Data

namespace Json
open Text List

def isBlank (unit : Nat) : Bool := unit = 32 || unit = 9 || unit = 10 || unit = 13

def isNumeral (unit : Nat) : Bool :=
  isDigit unit || unit = 43 || unit = 45 || unit = 46 || unit = 69 || unit = 101

inductive Token (Number : Type) where
  | mark (unit : Nat)
  | scalar (value : Data Number)
  | string (raw value : Text)

section
variable (numbers : Numbers)

def literals : List (Text × Data numbers.Number) :=
  [(prose "null" rfl, .null), (prose "true" rfl, .boolean true), (prose "false" rfl, .boolean false)]

def next : Text → Option (Token numbers.Number × Text)
  | [] => none
  | unit :: rest =>
    if [44, 58, 91, 93, 123, 125].contains unit then some (.mark unit, rest)
    else if unit = 34 then
      (readString rest).map fun read =>
        (.string ((unit :: rest).take ((unit :: rest).length - read.2.length)) read.1, read.2)
    else if isDigit unit ∨ unit = 45 then
      (readNumber ((unit :: rest).takeWhile isNumeral)).map fun value =>
        (.scalar (.number (numbers.nearest value)), (unit :: rest).dropWhile isNumeral)
    else
      ((literals numbers).find? fun literal => literal.1.isPrefixOf (unit :: rest)).map fun literal =>
        (.scalar literal.2, (unit :: rest).drop literal.1.length)

def tokens : Nat → Text → Option (List (Token numbers.Number))
  | fuel, text =>
    match text.dropWhile isBlank, fuel with
    | [], _ => some []
    | _ :: _, 0 => none
    | unit :: rest, fuel + 1 =>
      match next numbers (unit :: rest) with
      | none => none
      | some (token, rest) => (tokens fuel rest).map fun others => token :: others

end

section
variable {Number : Type}

inductive Frame (Number : Type) where
  | array (items : List (Data Number))
  | object (members : List (Text × Data Number)) (name : Text)

inductive Expected (Number : Type) where
  | value (empty : Bool) (stack : List (Frame Number))
  | name (empty : Bool) (members : List (Text × Data Number)) (stack : List (Frame Number))
  | colon (name : Text) (members : List (Text × Data Number)) (stack : List (Frame Number))
  | after (value : Data Number) (stack : List (Frame Number))

def accept : Expected Number → Token Number → Option (Expected Number)
  | .value true (.array _ :: stack), .mark 93 => some (.after (.array []) stack)
  | .value _ stack, .mark 91 => some (.value true (.array [] :: stack))
  | .value _ stack, .mark 123 => some (.name true [] stack)
  | .value _ stack, .scalar value => some (.after value stack)
  | .value _ stack, .string _ text => some (.after (.text text) stack)
  | .name true _ stack, .mark 125 => some (.after (.object []) stack)
  | .name _ members stack, .string _ name => some (.colon name members stack)
  | .colon name members stack, .mark 58 => some (.value false (.object members name :: stack))
  | .after value (.array items :: stack), .mark 44 => some (.value false (.array (items ++ [value]) :: stack))
  | .after value (.array items :: stack), .mark 93 => some (.after (.array (items ++ [value])) stack)
  | .after value (.object members name :: stack), .mark 44 => some (.name false (define members name value) stack)
  | .after value (.object members name :: stack), .mark 125 => some (.after (.object (define members name value)) stack)
  | _, _ => none

section
variable (empty : Bool) (stack : List (Frame Number))

theorem accept_scalar (value : Data Number) : accept (.value empty stack) (.scalar value) = some (.after value stack) := by
  rcases empty with _ | _ <;> rcases stack with _ | ⟨_ | _, _⟩ <;> rfl

theorem accept_string (raw text : Text) :
    accept (.value empty stack) (.string raw text) = some (.after (.text text) stack) := by
  rcases empty with _ | _ <;> rcases stack with _ | ⟨_ | _, _⟩ <;> rfl

theorem accept_array : accept (.value empty stack) (.mark 91) = some (.value true (.array [] :: stack)) := by
  rcases empty with _ | _ <;> rcases stack with _ | ⟨_ | _, _⟩ <;> rfl

theorem accept_object : accept (.value empty stack) (.mark 123) = some (.name true [] stack) := by
  rcases empty with _ | _ <;> rcases stack with _ | ⟨_ | _, _⟩ <;> rfl

theorem accept_name (members : List (Text × Data Number)) (raw name : Text) :
    accept (.name empty members stack) (.string raw name) = some (.colon name members stack) := by
  cases empty <;> rfl

end

def build (tokens : List (Token Number)) : Option (Data Number) :=
  match tokens.foldlM accept (.value false []) with
  | some (.after value []) => some value
  | _ => none

end

/-- `JSON.parse` -/
def parse (numbers : Numbers) (text : Text) : Option (Data numbers.Number) :=
  (tokens numbers text.length text).bind build

def stringTokens (numbers : Numbers) (text : Text) : List Text :=
  ((tokens numbers text.length text).getD []).filterMap fun token =>
    match token with
    | .string raw _ => some raw
    | _ => none

section
variable {numbers : Numbers} {quote : Text → Text} {text rest : Text} {others : List (Token numbers.Number)}

def Lexed (text : Text) (found : List (Token numbers.Number)) : Prop :=
  ∀ fuel, text.length ≤ fuel → tokens numbers fuel text = some found

theorem lexed_nil : @Lexed numbers [] [] := by
  intro fuel enough
  cases fuel <;> rfl

theorem lexed_next {token : Token numbers.Number} {unit : Nat} (visible : isBlank unit = false)
    (first : next numbers (unit :: text) = some (token, rest)) (shorter : rest.length ≤ text.length)
    (lexed : Lexed rest others) : Lexed (unit :: text) (token :: others) := by
  intro fuel enough
  rw [length_cons] at enough
  obtain ⟨fuel, rfl⟩ : ∃ more, fuel = more + 1 := ⟨fuel - 1, by omega⟩
  have here : (unit :: text).dropWhile isBlank = unit :: text := dropWhile_cons_of_neg (by simp [visible])
  rw [tokens.eq_def]
  simp only [here, first, lexed fuel (by omega), Option.map_some]

def Ends (rest : Text) : Prop := ∀ unit, rest.head? = some unit → isNumeral unit = false

theorem ends_cons {unit : Nat} (other : isNumeral unit = false) : Ends (unit :: rest) := by
  intro first same
  rw [← Option.some.inj same, other]

theorem lexed_mark {unit : Nat} (mark : [44, 58, 91, 93, 123, 125].contains unit = true)
    (lexed : Lexed rest others) : Lexed (unit :: rest) (.mark unit :: others) := by
  have visible : isBlank unit = false := by
    simp only [contains_cons, contains_nil, Bool.or_eq_true, beq_iff_eq, Bool.false_eq_true, or_false] at mark
    rcases mark with rfl | rfl | rfl | rfl | rfl | rfl <;> rfl
  refine lexed_next visible ?_ (Nat.le_refl _) lexed
  rw [next, if_pos mark]

theorem lexed_string (quotes : Quotes quote) (lexed : Lexed rest others) :
    Lexed (quote text ++ rest) (.string (quote text) text :: others) := by
  obtain ⟨body, shape, read⟩ := quotes text rest
  have token : next numbers (34 :: (body ++ rest)) = some (.string (quote text) text, rest) := by
    have raw : (34 :: (body ++ rest)).take ((34 :: (body ++ rest)).length - rest.length) = quote text := by
      have length : (34 :: (body ++ rest)).length - rest.length = (34 :: body).length := by
        simp only [length_cons, length_append]
        omega
      rw [length, ← cons_append, take_left, shape]
    rw [next, if_neg (by decide), if_pos rfl, read, Option.map_some]
    dsimp only
    rw [raw]
  rw [shape, cons_append, ← shape]
  exact lexed_next rfl token (by simp) lexed

theorem numeral_placed {digits : Text} {point : Int} (all : ∀ unit ∈ digits, isDigit unit = true) :
    ∀ unit ∈ placed digits point, isNumeral unit = true := by
  have numeral {unit : Nat} (digit : isDigit unit = true) : isNumeral unit = true := by simp [isNumeral, digit]
  have zeros (count unit : Nat) (member : unit ∈ List.replicate count 48) : isNumeral unit = true :=
    numeral (zeros_digits count unit member)
  have exponent : ∀ unit ∈ 101 :: (if point - 1 < 0 then 45 else 43) :: decimal (point - 1).natAbs,
      isNumeral unit = true := by
    intro unit member
    rcases mem_cons.mp member with rfl | member
    · rfl
    · rcases mem_cons.mp member with rfl | member
      · split <;> rfl
      · exact numeral (decimal_digits _ unit member)
  intro unit member
  unfold placed at member
  by_cases whole : digits.length ≤ point ∧ point ≤ 21
  · rw [if_pos whole, mem_append] at member
    exact member.elim (fun digit => numeral (all unit digit)) (zeros _ unit)
  · rw [if_neg whole] at member
    by_cases inside : 0 < point ∧ point ≤ 21
    · rw [if_pos inside, mem_append, mem_cons] at member
      rcases member with digit | rfl | digit
      · exact numeral (all unit (mem_of_mem_take digit))
      · rfl
      · exact numeral (all unit (mem_of_mem_drop digit))
    · rw [if_neg inside] at member
      by_cases small : -6 < point ∧ point ≤ 0
      · rw [if_pos small, mem_cons, mem_cons, mem_append] at member
        rcases member with rfl | rfl | zero | digit
        · rfl
        · rfl
        · exact zeros _ unit zero
        · exact numeral (all unit digit)
      · rw [if_neg small] at member
        dsimp only at member
        split at member
        · rw [mem_append] at member
          exact member.elim (fun digit => numeral (all unit digit)) (exponent unit)
        · rw [mem_append, mem_cons, mem_append] at member
          rcases member with digit | rfl | digit | scale
          · exact numeral (all unit (mem_of_mem_take digit))
          · rfl
          · exact numeral (all unit (mem_of_mem_drop digit))
          · exact exponent unit scale

theorem numeral_text (fraction : Decimal) : ∀ unit ∈ fraction.text, isNumeral unit = true := by
  intro unit member
  unfold Decimal.text at member
  split at member
  · rw [mem_singleton.mp member]
    rfl
  · split at member
    · rcases mem_cons.mp member with rfl | member
      · rfl
      · exact numeral_placed (decimal_digits _) unit member
    · exact numeral_placed (decimal_digits _) unit member

theorem readNumber_head {token : Text} {value : ℚ} (read : readNumber token = some value) :
    ∃ unit rest, token = unit :: rest ∧ (isDigit unit = true ∨ unit = 45) := by
  cases token with
  | nil => cases read
  | cons unit rest =>
    refine ⟨unit, rest, rfl, ?_⟩
    by_cases minus : unit = 45
    · exact .inr minus
    · left
      by_contra other
      have nothing : readNumber (unit :: rest) = none := by
        have same : readNumber (unit :: rest) = readMagnitude (unit :: rest) := by
          rw [readNumber]
          intro token same
          exact minus (List.cons.inj same).1
        rw [same, readMagnitude, takeWhile_cons_of_neg other, if_pos (.inl rfl)]
      rw [nothing] at read
      cases read

theorem lexed_number (value : numbers.Number) (ends : Ends rest) (lexed : Lexed rest others) :
    Lexed ((numbers.shortest value).text ++ rest) (.scalar (.number value) :: others) := by
  have read := readNumber_text (numbers.shortest value)
  have all := numeral_text (numbers.shortest value)
  obtain ⟨unit, token, shape, start⟩ := readNumber_head read
  have stop : rest.takeWhile isNumeral = [] ∧ rest.dropWhile isNumeral = rest := by
    cases rest with
    | nil => exact ⟨rfl, rfl⟩
    | cons first rest =>
      have other : ¬ isNumeral first = true := by simp [ends first rfl]
      exact ⟨takeWhile_cons_of_neg other, dropWhile_cons_of_neg other⟩
  have taken : ((numbers.shortest value).text ++ rest).takeWhile isNumeral = (numbers.shortest value).text := by
    rw [takeWhile_append_of_pos all, stop.1, append_nil]
  have left : ((numbers.shortest value).text ++ rest).dropWhile isNumeral = rest := by
    rw [dropWhile_append_of_pos all, stop.2]
  rw [shape, cons_append] at taken left ⊢
  have first : next numbers (unit :: (token ++ rest)) = some (.scalar (.number value), rest) := by
    have mark : ¬ [44, 58, 91, 93, 123, 125].contains unit = true := by
      intro mark
      simp only [contains_cons, contains_nil, Bool.or_eq_true, beq_iff_eq, Bool.false_eq_true, or_false] at mark
      simp only [isDigit, Bool.and_eq_true, decide_eq_true_eq] at start
      omega
    have quote : unit ≠ 34 := by
      simp only [isDigit, Bool.and_eq_true, decide_eq_true_eq] at start
      omega
    rw [next, if_neg mark, if_neg quote, if_pos start, taken, left, ← shape, read, Option.map_some,
      numbers.nearest_shortest]
  have visible : isBlank unit = false := by
    simp only [isDigit, Bool.and_eq_true, decide_eq_true_eq] at start
    simp only [isBlank, Bool.or_eq_false_iff, decide_eq_false_iff_not]
    omega
  exact lexed_next visible first (by simp) lexed

theorem lexed_null (lexed : Lexed rest others) :
    Lexed (prose "null" rfl ++ rest) (.scalar .null :: others) := by
  have first : next numbers (110 :: ([117, 108, 108] ++ rest)) = some (.scalar .null, rest) := by
    rw [next, if_neg (by decide), if_neg (by decide), if_neg (by decide)]
    rfl
  exact lexed_next rfl first (length_append ▸ Nat.le_add_left _ _) lexed

theorem lexed_boolean (value : Bool) (lexed : Lexed rest others) :
    Lexed (write numbers quote (.boolean value) ++ rest) (.scalar (.boolean value) :: others) := by
  cases value with
  | false =>
    have first : next numbers (102 :: ([97, 108, 115, 101] ++ rest)) = some (.scalar (.boolean false), rest) := by
      rw [next, if_neg (by decide), if_neg (by decide), if_neg (by decide)]
      rfl
    exact lexed_next rfl first (length_append ▸ Nat.le_add_left _ _) lexed
  | true =>
    have first : next numbers (116 :: ([114, 117, 101] ++ rest)) = some (.scalar (.boolean true), rest) := by
      rw [next, if_neg (by decide), if_neg (by decide), if_neg (by decide)]
      rfl
    exact lexed_next rfl first (length_append ▸ Nat.le_add_left _ _) lexed

end

section
variable {numbers : Numbers} {quote : Text → Text}

def run (state : Expected numbers.Number) (tokens : List (Token numbers.Number)) : Option (Expected numbers.Number) :=
  tokens.foldlM accept state

theorem run_cons {state state' : Expected numbers.Number} {token : Token numbers.Number}
    (accepted : accept state token = some state') (others : List (Token numbers.Number)) :
    run state (token :: others) = run state' others := by
  rw [run, foldlM_cons, accepted]
  rfl

/-- Tokens of which the strings are written as `quote` writes them. -/
def Faithful (quote : Text → Text) (found : List (Token numbers.Number)) : Prop :=
  ∀ raw text, .string raw text ∈ found → raw = quote text

structure Reading (quote : Text → Text) (text : Text) (value : Data numbers.Number)
    (found : List (Token numbers.Number)) : Prop where
  lexed : ∀ rest others, Ends rest → Lexed rest others → Lexed (text ++ rest) (found ++ others)
  derives : ∀ empty stack others, run (.value empty stack) (found ++ others) = run (.after value stack) others
  faithful : Faithful quote found

theorem faithful_append {found others : List (Token numbers.Number)} (first : Faithful quote found)
    (second : Faithful quote others) : Faithful quote (found ++ others) := by
  intro raw text member
  rcases mem_append.mp member with member | member
  · exact first raw text member
  · exact second raw text member

theorem faithful_mark {found : List (Token numbers.Number)} (unit : Nat) (faithful : Faithful quote found) :
    Faithful quote (.mark unit :: found) := by
  intro raw text member
  rcases mem_cons.mp member with same | member
  · cases same
  · exact faithful raw text member

variable {value : Data numbers.Number}

theorem reading_scalar {text : Text}
    (lexed : ∀ rest others, Ends rest → Lexed rest others → Lexed (text ++ rest) (.scalar value :: others)) :
    Reading quote text value [.scalar value] where
  lexed := lexed
  derives := fun empty stack others => run_cons (accept_scalar empty stack value) others
  faithful := by
    intro raw text member
    cases mem_singleton.mp member

theorem reading_text (quotes : Quotes quote) (text : Text) :
    @Reading numbers quote (quote text) (.text text) [.string (quote text) text] where
  lexed := fun _ _ _ lexed => lexed_string quotes lexed
  derives := fun empty stack others => run_cons (accept_string empty stack _ text) others
  faithful := by
    intro raw other member
    injection mem_singleton.mp member with raw text
    rw [raw, text]

theorem enclosed_cons (start stop : Nat) (first : Text) (parts : List Text) (rest : Text) :
    enclosed start stop (first :: parts) ++ rest =
      start :: (first ++ ((parts.flatMap fun part => 44 :: part) ++ stop :: rest)) := by
  rw [enclosed, intersperse_flatten]
  simp

structure Items (quote : Text → Text) (items : List (Data numbers.Number)) (found : List (Token numbers.Number)) :
    Prop where
  lexed : ∀ rest others, Lexed rest others →
    Lexed (((items.map (write numbers quote)).flatMap fun part => 44 :: part) ++ 93 :: rest) (found ++ others)
  derives : ∀ value done stack others, run (.after value (.array done :: stack)) (found ++ others) =
    run (.after (.array (done ++ value :: items)) stack) others
  faithful : Faithful quote found

theorem ends_parts (parts : List Text) {stop : Nat} (other : isNumeral stop = false) (rest : Text) :
    Ends ((parts.flatMap fun part => 44 :: part) ++ stop :: rest) := by
  cases parts with
  | nil => exact ends_cons other
  | cons part parts => exact ends_cons rfl

theorem items_found {items : List (Data numbers.Number)}
    (each : ∀ item ∈ items, ∃ found, Reading quote (write numbers quote item) item found) :
    ∃ found, Items quote items found := by
  induction items with
  | nil =>
    refine ⟨[.mark 93], fun rest others lexed => lexed_mark rfl lexed, ?_, faithful_mark 93 (by simp [Faithful])⟩
    intro value done stack others
    exact run_cons rfl others
  | cons item items ih =>
    obtain ⟨found, reading⟩ := each item mem_cons_self
    obtain ⟨more, later⟩ := ih fun other member => each other (mem_cons_of_mem _ member)
    refine ⟨.mark 44 :: (found ++ more), ?_, ?_, faithful_mark 44 (faithful_append reading.faithful later.faithful)⟩
    · intro rest others lexed
      have behind := later.lexed rest others lexed
      have here := reading.lexed _ _ (ends_parts _ rfl rest) behind
      rw [map_cons, flatMap_cons, cons_append, cons_append, append_assoc, cons_append,
        append_assoc]
      exact lexed_mark rfl here
    · intro value done stack others
      rw [cons_append, append_assoc, run_cons rfl, reading.derives, later.derives]
      simp

theorem reading_array {items : List (Data numbers.Number)}
    (each : ∀ item ∈ items, ∃ found, Reading quote (write numbers quote item) item found) :
    ∃ found, Reading quote (write numbers quote (.array items)) (.array items) found := by
  rw [write_array]
  cases items with
  | nil =>
    refine ⟨[.mark 91, .mark 93], ?_, ?_, faithful_mark 91 (faithful_mark 93 (by simp [Faithful]))⟩
    · intro rest others _ lexed
      exact lexed_mark rfl (lexed_mark rfl lexed)
    · intro empty stack others
      rw [cons_append, run_cons (accept_array empty stack)]
      exact run_cons rfl others
  | cons item items =>
    obtain ⟨found, reading⟩ := each item mem_cons_self
    obtain ⟨more, later⟩ := items_found fun other member => each other (mem_cons_of_mem _ member)
    refine ⟨.mark 91 :: (found ++ more), ?_, ?_, faithful_mark 91 (faithful_append reading.faithful later.faithful)⟩
    · intro rest others _ lexed
      have behind := later.lexed rest others lexed
      have here := reading.lexed _ _ (ends_parts _ rfl rest) behind
      rw [map_cons, enclosed_cons, cons_append, append_assoc]
      exact lexed_mark rfl here
    · intro empty stack others
      rw [cons_append, append_assoc, run_cons (accept_array empty stack), reading.derives, later.derives]
      rfl

structure Members (quote : Text → Text) (members : List (Text × Data numbers.Number))
    (found : List (Token numbers.Number)) : Prop where
  lexed : ∀ rest others, Lexed rest others →
    Lexed (((members.map fun member => quote member.1 ++ 58 :: write numbers quote member.2).flatMap
      fun part => 44 :: part) ++ 125 :: rest) (found ++ others)
  derives : ∀ name value done stack others, Listed (done ++ (name, value) :: members) →
    run (.after value (.object done name :: stack)) (found ++ others) =
      run (.after (.object (done ++ (name, value) :: members)) stack) others
  faithful : Faithful quote found

theorem define_next {members done : List (Text × Data numbers.Number)} {name : Text}
    (listed : Listed (done ++ (name, value) :: members)) : define done name value = done ++ [(name, value)] := by
  have shape : done ++ (name, value) :: members = (done ++ [(name, value)]) ++ members := by simp
  rw [shape] at listed
  exact define_last (pairwise_append.mp listed).1

theorem faithful_string (text : Text) {found : List (Token numbers.Number)} (faithful : Faithful quote found) :
    Faithful quote (.string (quote text) text :: found) := by
  intro raw other member
  rcases mem_cons.mp member with same | member
  · injection same with raw text
    rw [raw, text]
  · exact faithful raw other member

variable (quotes : Quotes quote)
include quotes

theorem members_found {members : List (Text × Data numbers.Number)}
    (each : ∀ member ∈ members, ∃ found, Reading quote (write numbers quote member.2) member.2 found) :
    ∃ found, Members quote members found := by
  induction members with
  | nil =>
    refine ⟨[.mark 125], fun rest others lexed => lexed_mark rfl lexed, ?_, faithful_mark 125 (by simp [Faithful])⟩
    intro name value done stack others listed
    rw [singleton_append, run_cons rfl, define_next listed]
  | cons member members ih =>
    obtain ⟨found, reading⟩ := each member mem_cons_self
    obtain ⟨more, later⟩ := ih fun other listed => each other (mem_cons_of_mem _ listed)
    refine ⟨.mark 44 :: .string (quote member.1) member.1 :: .mark 58 :: (found ++ more), ?_, ?_, faithful_mark 44
      (faithful_string member.1 (faithful_mark 58 (faithful_append reading.faithful later.faithful)))⟩
    · intro rest others lexed
      have behind := later.lexed rest others lexed
      have here := reading.lexed _ _ (ends_parts _ rfl rest) behind
      have colon := lexed_mark (show [44, 58, 91, 93, 123, 125].contains 58 = true from rfl) here
      have named := lexed_mark (show [44, 58, 91, 93, 123, 125].contains 44 = true from rfl)
        (@lexed_string _ _ member.1 _ _ quotes colon)
      simpa using named
    · intro name value done stack others listed
      have whole : (done ++ [(name, value)]) ++ member :: members = done ++ (name, value) :: member :: members := by
        simp
      rw [cons_append, run_cons rfl, cons_append, run_cons (accept_name _ _ _ _ _), cons_append,
        run_cons rfl, append_assoc, reading.derives, later.derives, define_next listed, whole]
      rw [define_next listed, whole]
      exact listed

theorem reading_object {members : List (Text × Data numbers.Number)} (listed : Listed members)
    (each : ∀ member ∈ members, ∃ found, Reading quote (write numbers quote member.2) member.2 found) :
    ∃ found, Reading quote (write numbers quote (.object members)) (.object members) found := by
  rw [write_object]
  cases members with
  | nil =>
    refine ⟨[.mark 123, .mark 125], ?_, ?_, faithful_mark 123 (faithful_mark 125 (by simp [Faithful]))⟩
    · intro rest others _ lexed
      exact lexed_mark rfl (lexed_mark rfl lexed)
    · intro empty stack others
      rw [cons_append, run_cons (accept_object empty stack)]
      exact run_cons rfl others
  | cons member members =>
    obtain ⟨found, reading⟩ := each member mem_cons_self
    obtain ⟨more, later⟩ := members_found quotes fun other listed => each other (mem_cons_of_mem _ listed)
    refine ⟨.mark 123 :: .string (quote member.1) member.1 :: .mark 58 :: (found ++ more), ?_, ?_, faithful_mark 123
      (faithful_string member.1 (faithful_mark 58 (faithful_append reading.faithful later.faithful)))⟩
    · intro rest others _ lexed
      have behind := later.lexed rest others lexed
      have here := reading.lexed _ _ (ends_parts _ rfl rest) behind
      have colon := lexed_mark (show [44, 58, 91, 93, 123, 125].contains 58 = true from rfl) here
      have named := lexed_mark (show [44, 58, 91, 93, 123, 125].contains 123 = true from rfl)
        (@lexed_string _ _ member.1 _ _ quotes colon)
      rw [map_cons, enclosed_cons]
      simpa using named
    · intro empty stack others
      rw [cons_append, run_cons (accept_object empty stack), cons_append, run_cons (accept_name _ _ _ _ _),
        cons_append, run_cons rfl, append_assoc, reading.derives, later.derives]
      · rfl
      · exact listed

theorem reading_exists (regular : value.Regular) :
    ∃ found, Reading quote (write numbers quote value) value found := by
  induction regular with
  | null => exact ⟨_, reading_scalar fun _ _ _ lexed => lexed_null lexed⟩
  | boolean value => exact ⟨_, reading_scalar fun _ _ _ lexed => lexed_boolean value lexed⟩
  | number value => exact ⟨_, reading_scalar fun _ _ ends lexed => lexed_number value ends lexed⟩
  | text value => exact ⟨_, reading_text quotes value⟩
  | array each ih => exact reading_array ih
  | object listed each ih => exact reading_object quotes listed ih

theorem tokens_write (regular : value.Regular) :
    ∃ found, tokens numbers (write numbers quote value).length (write numbers quote value) = some found ∧
      build found = some value ∧ Faithful quote found := by
  obtain ⟨found, reading⟩ := reading_exists quotes regular
  refine ⟨found, ?_, ?_, reading.faithful⟩
  · have lexed := reading.lexed [] [] (fun unit none => by cases none) lexed_nil
    rw [append_nil, append_nil] at lexed
    exact lexed _ (Nat.le_refl _)
  · have derives := reading.derives false [] []
    rw [append_nil] at derives
    rw [build, ← run, derives]
    rfl

theorem parse_write (regular : value.Regular) :
    parse numbers (write numbers quote value) = some value := by
  obtain ⟨found, lexed, built, -⟩ := tokens_write quotes regular
  rw [parse, lexed]
  exact built

theorem stringTokens_write (regular : value.Regular) :
    ∀ raw ∈ stringTokens numbers (write numbers quote value), ∃ text, raw = quote text := by
  obtain ⟨found, lexed, -, faithful⟩ := tokens_write quotes regular
  intro raw member
  rw [stringTokens, lexed, Option.getD_some, mem_filterMap] at member
  obtain ⟨token, listed, same⟩ := member
  cases token with
  | string other text =>
    rw [Option.some.inj same] at listed
    exact ⟨text, faithful raw text listed⟩
  | mark unit => cases same
  | scalar value => cases same

end

end Json
