import Eliot.Blocks.Coverage
import Eliot.Citations.CodeRanges
import Eliot.Text.Separated

namespace Blocks
open Text List

def firstUnit (body : Text) : Option Nat := (body.dropWhile (· == 32)).head?

theorem upTo_accepts {test : Nat → Bool} {count : Nat} {word : Text}
    (accepted : ((Regex.one test).upTo count).Accepts word) : ∀ unit ∈ word, test unit = true := by
  induction count generalizing word with
  | zero =>
    cases accepted with
    | empty => simp
  | succ count ih =>
    rcases accepted.alt_split with more | stop
    · obtain ⟨left, right, rfl, once, rest⟩ := more.seq_split
      obtain ⟨unit, rfl, passed⟩ := once.one_symbol
      intro other member
      rcases mem_cons.mp member with rfl | member
      · exact passed
      · exact ih rest other member
    · cases stop with
      | empty => simp

theorem indented_first {body : Regex Nat} {word rest : Text} {unit : Nat}
    (accepted : (Regex.seq indent body).Accepts word) (other : unit ≠ 32)
    (starts : ∀ inner, body.Accepts inner → ∃ more, inner = unit :: more) :
    firstUnit (word ++ rest) = some unit := by
  obtain ⟨left, right, rfl, spaces, inside⟩ := accepted.seq_split
  obtain ⟨more, rfl⟩ := starts right inside
  have skipped : ∀ symbol ∈ left, (symbol == 32) = true := upTo_accepts spaces
  rw [firstUnit, append_assoc, dropWhile_append_of_pos skipped, cons_append,
    dropWhile_cons_of_neg (by simpa using other)]
  rfl

theorem unit_first {wanted : Nat} {body : Regex Nat} {word : Text}
    (accepted : (Regex.seq (unit wanted) body).Accepts word) : ∃ more, word = wanted :: more := by
  obtain ⟨left, right, rfl, once, -⟩ := accepted.seq_split
  obtain ⟨symbol, rfl, same⟩ := once.one_symbol
  exact ⟨right, by rw [beq_iff_eq.mp same]; rfl⟩

theorem opens_first {body : Text} {fence : Fence} (opened : opens body = some fence) :
    firstUnit body = some 96 ∨ firstUnit body = some 126 := by
  obtain ⟨text, found, -⟩ := Option.map_eq_some_iff.mp opened
  obtain ⟨once, matched, -⟩ := Option.bind_eq_some_iff.mp found
  obtain ⟨taken, rfl, accepted⟩ := opening.ways_accepts body once (mem_of_head? matched)
  obtain ⟨left, right, rfl, spaces, inside⟩ := accepted.seq_split
  have three : ∀ wanted word, (Regex.seq ((unit wanted).times 3) (.star (unit wanted))).Accepts word →
      ∃ more, word = wanted :: more := by
    intro wanted word accepted
    obtain ⟨left, right, rfl, times, -⟩ := accepted.seq_split
    obtain ⟨more, rfl⟩ := unit_first times
    exact ⟨more ++ right, rfl⟩
  rcases inside.captured.alt_split with tick | tilde
  · exact .inl (indented_first (.seq spaces tick) (by decide) (three 96))
  · exact .inr (indented_first (.seq spaces tilde) (by decide) (three 126))

theorem setext_first {body : Text} (marked : setext.test body = true) :
    firstUnit body = some 61 ∨ firstUnit body = some 45 := by
  obtain ⟨once, matched⟩ := Option.isSome_iff_exists.mp marked
  obtain ⟨taken, rfl, accepted⟩ := setext.ways_accepts body once (mem_of_head? matched)
  obtain ⟨left, right, rfl, line, -⟩ := accepted.seq_split
  rw [append_assoc]
  rcases line.alt_split with equal | dash
  · exact .inl (indented_first equal (by decide) fun _ => unit_first)
  · exact .inr (indented_first dash (by decide) fun _ => unit_first)

theorem setext_plain {body : Text} (marked : setext.test body = true) : opens body = none := by
  cases opened : opens body with
  | none => rfl
  | some fence =>
    have under := setext_first marked
    have first := opens_first opened
    rcases under with under | under
    · rw [under] at first
      simp at first
    · rw [under] at first
      simp at first

structure Inside where
  fence : Fence
  first : Line
  last : Line

def fencedRuns : Option Inside → List Line → List (Line × Line)
  | none, [] => []
  | some inside, [] => [(inside.first, inside.last)]
  | none, line :: rest => fencedRuns ((opens line.body).map fun fence => ⟨fence, line, line⟩) rest
  | some inside, line :: rest =>
    if inside.fence.closes line.body then (inside.first, line) :: fencedRuns none rest
    else fencedRuns (some { inside with last := line }) rest

def codeRuns (calls : List Emission) : List (Line × Line) :=
  (calls.filter (·.type = .code)).map fun call => (call.first, call.last)

theorem codeRuns_append (first second : List Emission) :
    codeRuns (first ++ second) = codeRuns first ++ codeRuns second := by
  rw [codeRuns, filter_append, map_append]
  rfl

namespace ScanState
variable {state after : ScanState}

def Coded (state : ScanState) : Prop :=
  match state.fence with
  | none => ∀ pending, state.pending = some pending → pending.type ≠ .code
  | some _ => ∃ pending, state.pending = some pending ∧ pending.type = .code

def inside (state : ScanState) : Option Inside :=
  state.fence.bind fun fence => state.pending.map fun pending => ⟨fence, pending.first, pending.last⟩

theorem flush_codeRuns (coded : state.Coded) (free : state.fence = none) :
    codeRuns state.flush.emissions = codeRuns state.emissions := by
  rw [Coded, free] at coded
  unfold flush
  cases held : state.pending with
  | none => rfl
  | some pending =>
    have prose := coded pending held
    simp [emit, codeRuns, prose]

theorem Moved.codeRuns {line : Line} {next : Option Line} {consumed : Bool} {rest : List Line}
    (moved : Moved state line next after consumed) (coded : state.Coded)
    (follows : consumed = true → next = rest.head?) :
    after.Coded ∧ codeRuns after.emissions ++ fencedRuns after.inside (if consumed then rest.tail else rest) =
      codeRuns state.emissions ++ fencedRuns state.inside (line :: rest) := by
  obtain ⟨gone, fenced⟩ := state.flush_sound
  cases moved with
  | inside fence fenced' more =>
    rw [Coded, fenced'] at coded
    obtain ⟨pending, held, type⟩ := coded
    refine ⟨?_, ?_⟩
    · simp [Coded, fenced', held, type]
    · simp [ScanState.inside, fenced', held, fencedRuns, more]
  | closed fence fenced' closes =>
    rw [Coded, fenced'] at coded
    obtain ⟨pending, held, type⟩ := coded
    refine ⟨?_, ?_⟩
    · simp [Coded, flush, held]
    · simp [ScanState.inside, fenced', held, fencedRuns, closes, flush, emit, Blocks.codeRuns, type]
  | opened fence free opened =>
    refine ⟨⟨_, rfl, rfl⟩, ?_⟩
    have same := flush_codeRuns coded free
    simp [ScanState.inside, free, fencedRuns, opened, same]
  | blank free plain blank =>
    have same := flush_codeRuns coded free
    refine ⟨?_, ?_⟩
    · simp [Coded, fenced, free, gone]
    · simp [ScanState.inside, free, fenced, fencedRuns, plain, same]
  | headed heading free plain =>
    have same := flush_codeRuns coded free
    refine ⟨?_, ?_⟩
    · simp [Coded, emit, fenced, free, gone]
    · simp [ScanState.inside, emit, free, fenced, fencedRuns, plain, codeRuns_append, same]
      simp [Blocks.codeRuns]
  | underlined heading under free plain next' marked =>
    have same := flush_codeRuns coded free
    have head := (follows rfl).symm.trans next'
    cases rest with
    | nil => cases head
    | cons second rest =>
      cases head
      have under := setext_plain marked
      refine ⟨?_, ?_⟩
      · simp [Coded, emit, fenced, free, gone]
      · simp [ScanState.inside, emit, free, fenced, fencedRuns, plain, under, codeRuns_append, same]
        simp [Blocks.codeRuns]
  | extended pending free plain held =>
    rw [Coded, free] at coded
    have prose := coded pending held
    refine ⟨?_, ?_⟩
    · simp [Coded, free, prose]
    · simp [ScanState.inside, free, fencedRuns, plain]
  | started type free plain prose =>
    have same := flush_codeRuns coded free
    refine ⟨?_, ?_⟩
    · simp [Coded, fenced, free, prose]
    · simp [ScanState.inside, free, fenced, fencedRuns, plain, same]

theorem scan_codeRuns (lines : List Line) (coded : state.Coded) :
    codeRuns (state.scan lines).emissions = codeRuns state.emissions ++ fencedRuns state.inside lines := by
  fun_induction scan state lines with
  | case1 state =>
    cases fenced : state.fence with
    | none =>
      rw [flush_codeRuns coded fenced]
      simp [ScanState.inside, fenced, fencedRuns]
    | some fence =>
      rw [Coded, fenced] at coded
      obtain ⟨pending, held, type⟩ := coded
      simp [ScanState.inside, fenced, held, fencedRuns, flush, emit, codeRuns_append]
      simp [codeRuns, type]
  | case2 state line rest after consumed stepped ih =>
    have moved := state.step_moved line rest.head?
    rw [stepped] at moved
    obtain ⟨kept, same⟩ := moved.codeRuns coded fun _ => rfl
    simp only [dite_eq_ite] at ih
    rw [ih kept, same]

end ScanState

theorem emissions_codeRuns (text : Text) : codeRuns (emissions text) = fencedRuns none (lines text) := by
  have coded : ScanState.Coded ⟨none, none, none, []⟩ := by simp [ScanState.Coded]
  exact ScanState.scan_codeRuns (lines text) coded

end Blocks
