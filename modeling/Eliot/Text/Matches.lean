import Eliot.Text.Regex
import Mathlib.Data.List.Basic

namespace Regex

open List
variable {Symbol : Type}

structure Guarded (Symbol : Type) where
  notBefore : Symbol → Bool
  body : Regex Symbol
  notAfter : Symbol → Bool

def unguarded (body : Regex Symbol) : Guarded Symbol := ⟨fun _ => false, body, fun _ => false⟩

structure Hit (Symbol : Type) extends Found Symbol where
  captures : List (List Symbol)

def optional (body : Regex Symbol) : Regex Symbol := .alt body .empty

variable {guarded : Guarded Symbol} {previous : Option Symbol} {input : List Symbol}

namespace Guarded

def exec (guarded : Guarded Symbol) (previous : Option Symbol) (input : List Symbol) :
    Option (Match Symbol) :=
  if previous.any guarded.notBefore then none
  else (guarded.body.ways input).find? fun once => !once.rest.head?.any guarded.notAfter

/-- The successive matches of a scan, as `Regex.scan`, with the symbol that stands before. -/
def scan (guarded : Guarded Symbol) (position skip : Nat) (previous : Option Symbol) :
    List Symbol → List (Hit Symbol)
  | [] =>
    match guarded.exec previous [] with
    | some once => [⟨⟨position, []⟩, once.captures⟩]
    | none => []
  | symbol :: input =>
    match skip with
    | skip + 1 => guarded.scan (position + 1) skip (some symbol) input
    | 0 =>
      match guarded.exec previous (symbol :: input) with
      | some once =>
        let token := (symbol :: input).take ((symbol :: input).length - once.rest.length)
        ⟨⟨position, token⟩, once.captures⟩ ::
          guarded.scan (position + 1) (token.length - 1) (some symbol) input
      | none => guarded.scan (position + 1) 0 (some symbol) input

def matchAll (guarded : Guarded Symbol) (text : List Symbol) : List (Hit Symbol) :=
  guarded.scan 0 0 none text

def Consumes (guarded : Guarded Symbol) : Prop :=
  ∀ input, ∀ once ∈ guarded.body.ways input, once.rest.length < input.length

inductive Walk (guarded : Guarded Symbol) : Nat → Option Symbol → List Symbol → List (Hit Symbol) → Prop where
  | done {position : Nat} {previous : Option Symbol} : Walk guarded position previous [] []
  | pass {position : Nat} {previous : Option Symbol} {symbol : Symbol} {input : List Symbol}
      {hits : List (Hit Symbol)} (missed : guarded.exec previous (symbol :: input) = none)
      (rest : Walk guarded (position + 1) (some symbol) input hits) :
      Walk guarded position previous (symbol :: input) hits
  | take {position : Nat} {previous : Option Symbol} {first : Symbol} {token : List Symbol}
      {once : Match Symbol} {hits : List (Hit Symbol)}
      (found : guarded.exec previous (first :: token ++ once.rest) = some once)
      (rest : Walk guarded (position + (first :: token).length) ((first :: token).getLast?) once.rest hits) :
      Walk guarded position previous (first :: token ++ once.rest)
        (⟨⟨position, first :: token⟩, once.captures⟩ :: hits)

theorem exec_some
    {once : Match Symbol} (found : guarded.exec previous input = some once) :
    previous.any guarded.notBefore = false ∧ once ∈ guarded.body.ways input ∧
      once.rest.head?.any guarded.notAfter = false ∧
      ∃ taken, input = taken ++ once.rest ∧ guarded.body.Accepts taken := by
  unfold exec at found
  split at found
  · cases found
  rename_i free
  have passed := find?_some found
  have member := mem_of_find?_eq_some found
  exact ⟨by simpa using free, member, by simpa using passed, guarded.body.ways_accepts input once member⟩

theorem scan_skip (guarded : Guarded Symbol) (position : Nat) (previous : Option Symbol)
    (first : Symbol) (token rest : List Symbol) :
    guarded.scan position (first :: token).length previous (first :: token ++ rest) =
      guarded.scan (position + (first :: token).length) 0 ((first :: token).getLast?) rest := by
  induction token generalizing position previous first with
  | nil =>
    cases rest <;> simp [scan]
  | cons second token ih =>
    have next := ih (position + 1) (some first) second
    simp only [cons_append, length_cons, scan] at next ⊢
    rw [next]
    simp [getLast?_cons_cons, Nat.add_assoc, Nat.add_comm 1]

theorem scan_pass {position : Nat} {symbol : Symbol}
    (missed : guarded.exec previous (symbol :: input) = none) :
    guarded.scan position 0 previous (symbol :: input) = guarded.scan (position + 1) 0 (some symbol) input := by
  rw [scan, missed]

theorem scan_take {position : Nat} {first : Symbol}
    {token : List Symbol} {once : Match Symbol}
    (found : guarded.exec previous (first :: token ++ once.rest) = some once) :
    guarded.scan position 0 previous (first :: token ++ once.rest) =
      ⟨⟨position, first :: token⟩, once.captures⟩ ::
        guarded.scan (position + (first :: token).length) 0 ((first :: token).getLast?) once.rest := by
  have whole : (first :: (token ++ once.rest)).take
      ((first :: (token ++ once.rest)).length - once.rest.length) = first :: token := by
    rw [← cons_append, length_append, Nat.add_sub_cancel, take_left]
  rw [cons_append] at found ⊢
  rw [scan, found]
  dsimp only
  rw [whole]
  congr 1
  cases token with
  | nil => rfl
  | cons second token =>
    have skipped := scan_skip guarded (position + 1) (some first) second token once.rest
    simp only [length_cons, Nat.add_sub_cancel, cons_append] at skipped ⊢
    rw [skipped]
    simp [getLast?_cons_cons, Nat.add_assoc, Nat.add_comm 1]

theorem scan_found (position : Nat)
    {once : Match Symbol} (found : guarded.exec previous input = some once)
    (shorter : once.rest.length < input.length) :
    ∃ taken, input = taken ++ once.rest ∧ guarded.body.Accepts taken ∧
      guarded.scan position 0 previous input = ⟨⟨position, taken⟩, once.captures⟩ ::
        guarded.scan (position + taken.length) 0 taken.getLast? once.rest := by
  obtain ⟨-, -, -, taken, split, accepted⟩ := exec_some found
  refine ⟨taken, split, accepted, ?_⟩
  cases taken with
  | nil =>
    rw [split] at shorter
    simp at shorter
  | cons first token =>
    rw [split] at found ⊢
    exact scan_take found

theorem scan_walk (consumes : guarded.Consumes) (position : Nat)
    (previous : Option Symbol) (input : List Symbol) :
    guarded.Walk position previous input (guarded.scan position 0 previous input) := by
  induction length : input.length using Nat.strong_induction_on generalizing position previous input with
  | _ length ih =>
  subst length
  cases input with
  | nil =>
    have none : guarded.exec previous [] = none := by
      cases found : guarded.exec previous [] with
      | none => rfl
      | some once => exact absurd (consumes [] once (exec_some found).2.1) (by simp)
    rw [scan, none]
    exact .done
  | cons symbol input =>
    cases found : guarded.exec previous (symbol :: input) with
    | none =>
      rw [scan_pass found]
      exact .pass found (ih input.length (by simp) _ _ _ rfl)
    | some once =>
      obtain ⟨-, member, -, taken, split, -⟩ := exec_some found
      have shorter := consumes _ once member
      cases taken with
      | nil =>
        rw [split] at shorter
        simp at shorter
      | cons first token =>
        rw [split] at found shorter ⊢
        rw [scan_take found]
        exact .take found (ih once.rest.length (by rw [split]; exact shorter) _ _ once.rest rfl)

theorem matchAll_walk (consumes : guarded.Consumes) (text : List Symbol) :
    guarded.Walk 0 none text (guarded.matchAll text) := scan_walk consumes 0 none text

namespace Walk
variable {guarded : Guarded Symbol} {position : Nat} {previous : Option Symbol} {input : List Symbol}
  {hits : List (Hit Symbol)}

theorem located (walk : guarded.Walk position previous input hits) (before : List Symbol)
    (here : before.length = position) : Located (before ++ input) position (hits.map (·.toFound)) := by
  induction walk generalizing before with
  | done => simp [Located, here]
  | @pass position previous symbol input hits missed rest ih =>
    have next := ih (before ++ [symbol]) (by simp [here])
    rw [append_assoc, singleton_append] at next
    exact next.weaken (Nat.le_succ _)
  | @take position previous first token once hits found rest ih =>
    have next := ih (before ++ first :: token) (by simp [here])
    rw [append_assoc] at next
    refine ⟨Nat.le_refl _, ?_, next⟩
    simp only [← here, drop_left, take_left]

theorem accepts (walk : guarded.Walk position previous input hits) :
    ∀ hit ∈ hits, guarded.body.Accepts hit.token := by
  induction walk with
  | done => simp
  | pass missed rest ih => exact ih
  | take found rest ih =>
    intro hit member
    rcases mem_cons.mp member with rfl | member
    · obtain ⟨-, -, -, taken, split, accepted⟩ := exec_some found
      rw [append_cancel_right split]
      exact accepted
    · exact ih hit member

theorem covers (walk : guarded.Walk position previous input hits) {test : Symbol → Bool}
    (always : ∀ previous symbol rest, test symbol = true →
      (guarded.exec previous (symbol :: rest)).isSome = true) :
    ∀ place symbol, input[place]? = some symbol → test symbol = true →
      ∃ hit ∈ hits, hit.start ≤ position + place ∧ position + place < hit.stop := by
  induction walk with
  | done => simp
  | @pass position previous first input hits missed rest ih =>
    intro place symbol found passed
    cases place with
    | zero =>
      cases found
      have some := always previous first input passed
      rw [missed] at some
      cases some
    | succ place =>
      obtain ⟨hit, member, after, before⟩ := ih place symbol found passed
      exact ⟨hit, member, by omega, by omega⟩
  | @take position previous first token once hits found rest ih =>
    intro place symbol there passed
    by_cases inside : place < (first :: token).length
    · refine ⟨_, mem_cons_self, Nat.le_add_right _ _, ?_⟩
      simp only [Found.stop]
      omega
    · rw [getElem?_append_right (by omega)] at there
      obtain ⟨hit, member, after, before⟩ := ih _ symbol there passed
      exact ⟨hit, mem_cons_of_mem _ member, by omega, by omega⟩

end Walk

end Guarded

theorem iterate_complete {step : List Symbol → List (Match Symbol)} {fuel : Nat} :
    ∃ once ∈ iterate step fuel input, once.rest = input := by
  cases fuel with
  | zero => exact ⟨_, mem_singleton_self _, rfl⟩
  | succ fuel => exact ⟨_, mem_append_right _ (mem_singleton_self _), rfl⟩

def openEnded : Regex Symbol → Bool
  | .empty | .one _ => true
  | .seq first second | .alt first second => first.openEnded && second.openEnded
  | .star body | .capture body => body.openEnded
  | .finish => false

theorem Accepts.reaches {regex : Regex Symbol} {taken : List Symbol} (accepted : regex.Accepts taken)
    (free : regex.openEnded = true) (rest : List Symbol) :
    (∃ once ∈ regex.ways (taken ++ rest), once.rest = rest) ∧
      ∀ body, regex = .star body → ∀ fuel, (taken ++ rest).length ≤ fuel →
        ∃ once ∈ iterate body.ways fuel (taken ++ rest), once.rest = rest := by
  induction accepted generalizing rest with
  | empty => exact ⟨⟨_, mem_singleton_self _, rfl⟩, by simp⟩
  | @one test symbol passed =>
    refine ⟨⟨⟨[], rest⟩, ?_, rfl⟩, by simp⟩
    simp [ways, passed]
  | @seq first second left right before after ihBefore ihAfter =>
    simp only [openEnded, Bool.and_eq_true] at free
    obtain ⟨one, found, same⟩ := (ihBefore free.1 (right ++ rest)).1
    obtain ⟨two, next, last⟩ := (ihAfter free.2 rest).1
    refine ⟨⟨⟨one.captures ++ two.captures, two.rest⟩, ?_, last⟩, by simp⟩
    rw [append_assoc, ways]
    exact mem_flatMap.mpr ⟨one, found, mem_map.mpr ⟨two, same ▸ next, rfl⟩⟩
  | altLeft chosen ih =>
    simp only [openEnded, Bool.and_eq_true] at free
    obtain ⟨once, member, same⟩ := (ih free.1 rest).1
    exact ⟨⟨once, mem_append_left _ member, same⟩, by simp⟩
  | altRight chosen ih =>
    simp only [openEnded, Bool.and_eq_true] at free
    obtain ⟨once, member, same⟩ := (ih free.2 rest).1
    exact ⟨⟨once, mem_append_right _ member, same⟩, by simp⟩
  | stop => exact ⟨iterate_complete, fun body _ fuel _ => iterate_complete⟩
  | @more body left right once others ihOnce ihRest =>
    have whole : ∀ other, Regex.star body = .star other → ∀ fuel, (left ++ right ++ rest).length ≤ fuel →
        ∃ once ∈ iterate other.ways fuel (left ++ right ++ rest), once.rest = rest := by
      intro other same fuel enough
      cases same
      by_cases nothing : left = []
      · subst nothing
        exact (ihRest free rest).2 body rfl fuel enough
      obtain ⟨one, found, same⟩ := (ihOnce free (right ++ rest)).1
      have positive := length_pos_iff.mpr nothing
      cases fuel with
      | zero =>
        rw [append_assoc, length_append] at enough
        omega
      | succ fuel =>
        obtain ⟨two, next, last⟩ := (ihRest free rest).2 body rfl fuel (by
          rw [append_assoc, length_append] at enough
          omega)
        refine ⟨⟨one.captures ++ two.captures, two.rest⟩, ?_, last⟩
        rw [append_assoc, iterate]
        refine mem_append_left _ (mem_flatMap.mpr ⟨one, ?_, ?_⟩)
        · refine mem_filter.mpr ⟨found, ?_⟩
          simp only [same, decide_eq_true_eq, length_append]
          omega
        · exact mem_map.mpr ⟨two, same ▸ next, rfl⟩
    exact ⟨whole body rfl _ (Nat.le_refl _), whole⟩
  | capture inside ih =>
    obtain ⟨once, member, same⟩ := (ih free rest).1
    exact ⟨⟨_, mem_map_of_mem member, same⟩, by simp⟩
  | finish => cases free

theorem Guarded.exec_of_accepts {body : Regex Symbol} {taken rest : List Symbol}
    (accepted : body.Accepts taken) (free : body.openEnded = true) :
    ((unguarded body).exec previous (taken ++ rest)).isSome = true := by
  obtain ⟨once, member, -⟩ := (accepted.reaches free rest).1
  have some : (body.ways (taken ++ rest)).find? (fun once => !once.rest.head?.any fun _ => false) ≠ none := by
    simp only [ne_eq, find?_eq_none, not_forall]
    exact ⟨once, member, by simp⟩
  simpa [Guarded.exec, unguarded, Option.isSome_iff_ne_none] using some

def avoids (mark : Symbol) : Regex Symbol → Bool
  | .empty | .finish => true
  | .one test => !test mark
  | .seq first second | .alt first second => first.avoids mark && second.avoids mark
  | .star body | .capture body => body.avoids mark

theorem Accepts.avoids {mark : Symbol} {regex : Regex Symbol} {word : List Symbol}
    (accepted : regex.Accepts word) (avoided : regex.avoids mark = true) : mark ∉ word := by
  induction accepted with
  | empty | stop | finish => simp
  | one passed =>
    intro member
    rw [← mem_singleton.mp member] at passed
    simp [Regex.avoids, passed] at avoided
  | seq before after ihBefore ihAfter =>
    simp only [Regex.avoids, Bool.and_eq_true] at avoided
    simpa using And.intro (ihBefore avoided.1) (ihAfter avoided.2)
  | altLeft chosen ih =>
    simp only [Regex.avoids, Bool.and_eq_true] at avoided
    exact ih avoided.1
  | altRight chosen ih =>
    simp only [Regex.avoids, Bool.and_eq_true] at avoided
    exact ih avoided.2
  | more once rest ihOnce ihRest => simpa using And.intro (ihOnce avoided) (ihRest avoided)
  | capture inside ih => exact ih avoided

section
variable {first second body : Regex Symbol} {word : List Symbol}

theorem Accepts.seq_split (accepted : (Regex.seq first second).Accepts word) :
    ∃ left right, word = left ++ right ∧ first.Accepts left ∧ second.Accepts right := by
  cases accepted with
  | seq before after => exact ⟨_, _, rfl, before, after⟩

theorem Accepts.alt_split (accepted : (Regex.alt first second).Accepts word) :
    first.Accepts word ∨ second.Accepts word := by
  cases accepted with
  | altLeft chosen => exact .inl chosen
  | altRight chosen => exact .inr chosen

theorem Accepts.one_symbol {test : Symbol → Bool} (accepted : (Regex.one test).Accepts word) :
    ∃ symbol, word = [symbol] ∧ test symbol = true := by
  cases accepted with
  | one passed => exact ⟨_, rfl, passed⟩

theorem Accepts.captured (accepted : (Regex.capture body).Accepts word) : body.Accepts word := by
  cases accepted with
  | capture inside => exact inside

theorem Accepts.star_ends {ends : List Symbol → Prop}
    (kept : ∀ left right, ends right → ends (left ++ right)) (each : ∀ once, body.Accepts once → ends once)
    (accepted : (Regex.star body).Accepts word) : word = [] ∨ ends word := by
  generalize shape : Regex.star body = regex at accepted
  induction accepted with
  | stop => exact .inl rfl
  | more once _ _ ih =>
    cases shape
    rcases ih rfl with rfl | last
    · rw [append_nil]
      exact .inr (each _ once)
    · exact .inr (kept _ _ last)
  | empty | one | seq | altLeft | altRight | capture | finish => cases shape

theorem Accepts.part {regexes : List (Regex Symbol)} {part : Regex Symbol}
    (accepted : (all regexes).Accepts word) (member : part ∈ regexes) :
    ∃ inner, part.Accepts inner ∧ ∀ symbol ∈ inner, symbol ∈ word := by
  induction regexes generalizing word with
  | nil => cases member
  | cons regex regexes ih =>
    cases regexes with
    | nil =>
      rw [mem_singleton.mp member]
      exact ⟨word, accepted, fun _ there => there⟩
    | cons next regexes =>
      obtain ⟨left, right, rfl, before, after⟩ := accepted.seq_split
      rcases mem_cons.mp member with rfl | member
      · exact ⟨left, before, fun _ there => mem_append_left _ there⟩
      · obtain ⟨inner, word, there⟩ := ih after member
        exact ⟨inner, word, fun symbol in' => mem_append_right _ (there symbol in')⟩

theorem Guarded.consumes_of_words
    (filled : ∀ word, guarded.body.Accepts word → word ≠ []) : guarded.Consumes := by
  intro input once member
  obtain ⟨taken, split, accepted⟩ := guarded.body.ways_accepts input once member
  have length := length_pos_iff.mpr (filled taken accepted)
  rw [split, length_append]
  omega

end

end Regex
