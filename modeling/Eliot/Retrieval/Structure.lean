import Eliot.Collections.Fallible
import Eliot.Context.Estimates
import Mathlib.Logic.Relation

namespace Structural
open Text List Fallible

def maxItems : Nat := 1024
def maxLines : Nat := 131072
def maxContextBytes : Nat := 4 * 1024
def maxMapObjectsPerField : Nat := 4096

inductive ProjectionErrorCode where
  | inputInvalid
  | documentEmpty
  | itemLimitExceeded
  | itemTooLarge
  | offsetInvalid

structure StructuralProjectionError where
  code : ProjectionErrorCode
  message : String

abbrev Projecting := Except StructuralProjectionError

def fail {Value : Type} (code : ProjectionErrorCode) (message : String) : Projecting Value := .error ⟨code, message⟩

structure Line where
  text : Text
  start : Nat
  stop : Nat

structure TextPiece extends Line where
  headingPath : List Text
  startsHeading : Bool

def splitLines : Text → (current : Text) → (byteStart : Nat) → (result : List Line) → Projecting (List Line)
  | [], current, byteStart, result =>
    if current = [] then .ok result
    else if maxLines ≤ result.length then fail .itemLimitExceeded "admitted lines exceed traversal bound"
    else .ok (result ++ [⟨current, byteStart, byteStart + utf8Bytes current⟩])
  | unit :: rest, current, byteStart, result =>
    if unit ≠ 10 then splitLines rest (current ++ [unit]) byteStart result
    else if maxLines ≤ result.length then fail .itemLimitExceeded "admitted lines exceed traversal bound"
    else
      let stop := byteStart + utf8Bytes (current ++ [unit])
      splitLines rest [] stop (result ++ [⟨current ++ [unit], byteStart, stop⟩])

structure Heading where
  level : Nat
  title : Text

def hash : Regex Nat := .one fun unit => unit = 35
def blanks : Regex Nat := .star (.one fun unit => unit = 32 ∨ unit = 9)

/-- `(?:\r?\n)?$` -/
def lineEnd : Regex Nat :=
  .seq (.upTo (.seq (.upTo (.one fun unit => unit = 13) 1) (.one fun unit => unit = 10)) 1) .finish

def headingLine : Regex Nat :=
  .all [.capture (.seq hash (.upTo hash 5)), .one fun unit => unit = 32 ∨ unit = 9, blanks,
    .capture (.plus (.one fun unit => unit ≠ 13 ∧ unit ≠ 10)), blanks, lineEnd]

def heading (line : Text) : Option Heading :=
  match headingLine.exec line with
  | some ⟨[marker, title], _⟩ => if trim title = [] then none else some ⟨marker.length, trim title⟩
  | _ => none

structure FenceOpener where
  char : Nat
  length : Nat

def fenceRun : Regex Nat :=
  .seq (.upTo (.one fun unit => unit = 32) 3)
    (.capture (.alt (.plus (.one fun unit => unit = 96)) (.plus (.one fun unit => unit = 126))))

def fenceOpener (line : Text) : Option FenceOpener :=
  match fenceRun.exec line with
  | some ⟨[run], rest⟩ =>
    let char := if run.head? = some 126 then 126 else 96
    if run.length < 3 then none
    else if char = 96 ∧ 96 ∈ rest then none
    else some ⟨char, run.length⟩
  | _ => none

def fenceCloser (line : Text) (opener : FenceOpener) : Bool :=
  match (Regex.all [fenceRun, blanks, lineEnd]).exec line with
  | some ⟨[run], _⟩ => run.head? = some opener.char && opener.length ≤ run.length
  | _ => false

structure MarkdownStructuralSection where
  label : Text
  headingPath : List Text
  level : Nat
  normalizedStartByte : Nat
  normalizedEndByte : Nat
  parentIndex : Option Nat

structure Mark extends Heading where
  start : Nat

structure PathEntry extends Heading where
  index : Nat

def scanLine (inFence : Option FenceOpener) (line : Text) : Option FenceOpener × Option Heading :=
  match inFence with
  | some opener => (if fenceCloser line opener then none else some opener, none)
  | none =>
    match fenceOpener line with
    | some opener => (some opener, none)
    | none => (none, heading line)

def push (stack : List Heading) (found : Heading) : List Heading :=
  stack.rdropWhile (fun entry => found.level ≤ entry.level) ++ [found]

def titles (stack : List Heading) : List Text := stack.map fun entry => entry.title

def parseLines (maxSections : Nat) : (inFence : Option FenceOpener) → (headingStack : List Heading) →
    (marked preambleCount : Nat) → List Line → Projecting (List Mark × List TextPiece)
  | _, _, _, _, [] => .ok ([], [])
  | inFence, headingStack, marked, preambleCount, line :: lines =>
    match (scanLine inFence line.text).2 with
    | none => do
      let (marks, pieces) ← parseLines maxSections (scanLine inFence line.text).1 headingStack marked preambleCount lines
      return (marks, ⟨line, titles headingStack, false⟩ :: pieces)
    | some found =>
      let preambleCount := if marked = 0 then (if 0 < line.start then 1 else 0) else preambleCount
      if maxContextBytes < utf8Bytes found.title then fail .inputInvalid "heading exceeds short-text ceiling"
      else if maxSections < marked + preambleCount + 1 then
        fail .itemLimitExceeded "derived sections exceed object ceiling"
      else do
        let (marks, pieces) ← parseLines maxSections (scanLine inFence line.text).1 (push headingStack found) (marked + 1)
          preambleCount lines
        return (⟨found, line.start⟩ :: marks, ⟨line, titles (push headingStack found), true⟩ :: pieces)

def sectionEnd (markdownByteLength level : Nat) (later : List Mark) : Nat :=
  match later.find? fun candidate => candidate.level ≤ level with
  | some candidate => candidate.start
  | none => markdownByteLength

def openPath (path : List PathEntry) (level : Nat) : List PathEntry :=
  path.rdropWhile fun entry => level ≤ entry.level

def buildSections (markdownByteLength : Nat) : (path : List PathEntry) → (index : Nat) → List Mark →
    Projecting (List MarkdownStructuralSection)
  | _, _, [] => .ok []
  | path, index, mark :: later =>
    let stop := sectionEnd markdownByteLength mark.level later
    let path := openPath path mark.level
    let headingPath := path.map (fun entry => entry.title) ++ [mark.title]
    if stop ≤ mark.start then fail .offsetInvalid "section byte range is invalid"
    else if 32 < headingPath.length then fail .inputInvalid "heading path exceeds depth ceiling"
    else do
      let sections ← buildSections markdownByteLength (path ++ [⟨mark.toHeading, index⟩]) (index + 1) later
      return ⟨mark.title, headingPath, mark.level, mark.start, stop, path.getLast?.map fun entry => entry.index⟩ ::
        sections

structure ParsedMarkdownStructure where
  sections : List MarkdownStructuralSection
  lines : List TextPiece

def preamble (stop : Nat) : MarkdownStructuralSection := ⟨prose "Preamble" rfl, [], 1, 0, stop, none⟩

def shiftParent (moved : MarkdownStructuralSection) : MarkdownStructuralSection :=
  { moved with parentIndex := moved.parentIndex.map (· + 1) }

def parseNormalizedMarkdownStructure (markdown : Text) (maxSections : Nat) : Projecting ParsedMarkdownStructure :=
  if markdown = [] then fail .documentEmpty "normalized Markdown is empty"
  else if maxSections < 1 then fail .inputInvalid "maxSections is invalid"
  else if maxMapObjectsPerField < maxSections then fail .inputInvalid "maxSections exceeds the structural object ceiling"
  else do
    let lines ← splitLines markdown [] 0 []
    let (marks, structuralLines) ← parseLines maxSections none [] 0 0 lines
    let markdownByteLength := (lines.getLast?.map fun line => line.stop).getD 0
    match marks with
    | [] =>
      if markdownByteLength = 0 then fail .documentEmpty "normalized Markdown has no projectable bytes"
      else return ⟨[preamble markdownByteLength], structuralLines⟩
    | first :: _ =>
      let sections ← buildSections markdownByteLength [] 0 marks
      if first.start = 0 then return ⟨sections, structuralLines⟩
      else if maxSections < sections.length + 1 then
        fail .itemLimitExceeded "derived sections exceed object ceiling"
      else return ⟨preamble first.start :: sections.map shiftParent, structuralLines⟩

def extractNormalizedMarkdownStructure (markdown : Text) (maxSections : Nat) :
    Projecting (List MarkdownStructuralSection) :=
  (parseNormalizedMarkdownStructure markdown maxSections).map fun parsed => parsed.sections

section
variable {Part : Type} {start stop : Part → Nat} {first middle total : Nat} {parts : List Part} {part : Part}

def Covers (start stop : Part → Nat) (first : Nat) : List Part → Nat → Prop
  | [], total => first = total
  | part :: parts, total => start part = first ∧ first < stop part ∧ Covers start stop (stop part) parts total

theorem Covers.le (covers : Covers start stop first parts total) : first ≤ total := by
  induction parts generalizing first with
  | nil => exact Nat.le_of_eq covers
  | cons part parts ih => exact Nat.le_of_lt (Nat.lt_of_lt_of_le covers.2.1 (ih covers.2.2))

theorem Covers.mem (covers : Covers start stop first parts total) (listed : part ∈ parts) :
    first ≤ start part ∧ start part < stop part ∧ stop part ≤ total := by
  induction parts generalizing first with
  | nil => cases listed
  | cons other parts ih =>
    obtain ⟨rfl, positive, rest⟩ := covers
    rcases mem_cons.mp listed with rfl | within
    · exact ⟨Nat.le_refl _, positive, rest.le⟩
    · have later := ih rest within
      exact ⟨by omega, later.2⟩

theorem Covers.last (covers : Covers start stop first parts total) : (parts.getLast?.map stop).getD first = total := by
  induction parts generalizing first with
  | nil => exact covers
  | cons part parts ih =>
    have later := ih covers.2.2
    cases parts with
    | nil => exact later
    | cons other parts => rwa [getLast?_cons_cons, getLast?_eq_getLast_of_ne_nil (cons_ne_nil _ _)] at *

end

section
variable {total index level : Nat} {path : List PathEntry} {mark : Mark} {later : List Mark}
  {all sections : List MarkdownStructuralSection}

def Parent (sections : List MarkdownStructuralSection) (first second : Nat) : Prop :=
  ∃ found, sections[second]? = some found ∧ found.parentIndex = some first

def Ancestor (sections : List MarkdownStructuralSection) : Nat → Nat → Prop := Relation.TransGen (Parent sections)

structure Ordered (total : Nat) (marks : List Mark) : Prop where
  ascending : marks.Pairwise fun first second => first.start < second.start
  inside : ∀ mark ∈ marks, mark.start < total

theorem Ordered.tail (ordered : Ordered total (mark :: later)) : Ordered total later :=
  ⟨(pairwise_cons.mp ordered.ascending).2, fun other listed => ordered.inside other (mem_cons_of_mem _ listed)⟩

theorem sectionEnd_cons : sectionEnd total level (mark :: later) =
    if mark.level ≤ level then mark.start else sectionEnd total level later := by
  unfold sectionEnd
  rw [find?_cons]
  by_cases closes : mark.level ≤ level
  · rw [if_pos closes, decide_eq_true closes]
  · rw [if_neg closes, decide_eq_false closes]

theorem sectionEnd_ge {bound : Nat} (before : bound ≤ total) (each : ∀ mark ∈ later, bound ≤ mark.start) :
    bound ≤ sectionEnd total level later := by
  unfold sectionEnd
  split
  · exact each _ (mem_of_find?_eq_some (by assumption))
  · exact before

theorem sectionEnd_mono {deeper : Nat} (ordered : Ordered total later) (less : level ≤ deeper) :
    sectionEnd total deeper later ≤ sectionEnd total level later := by
  induction later with
  | nil => exact Nat.le_refl _
  | cons mark later ih =>
    rw [sectionEnd_cons, sectionEnd_cons]
    split_ifs with closes
    · exact Nat.le_refl _
    · exact sectionEnd_ge (Nat.le_of_lt (ordered.inside mark mem_cons_self))
        fun other listed => Nat.le_of_lt ((pairwise_cons.mp ordered.ascending).1 other listed)
    · omega
    · exact ih ordered.tail

theorem openPath_filter (sorted : path.Pairwise fun first second => first.level < second.level) :
    openPath path level = path.filter fun entry => entry.level < level := by
  induction path using List.reverseRecOn with
  | nil => rfl
  | append_singleton path entry ih =>
    obtain ⟨before, -, between⟩ := pairwise_append.mp sorted
    have last := fun other listed => between other listed entry (mem_singleton_self entry)
    unfold openPath at ih ⊢
    by_cases closed : level ≤ entry.level
    · rw [rdropWhile_concat_pos _ _ _ (by simpa using closed), ih before, filter_append,
        filter_cons_of_neg (by simpa using closed), filter_nil, append_nil]
    · have all : ∀ other ∈ path ++ [entry], decide (other.level < level) = true := by
        intro other listed
        rcases mem_append.mp listed with within | same
        · have less := last other within
          exact decide_eq_true (by omega)
        · rw [mem_singleton.mp same]
          exact decide_eq_true (by omega)
      rw [rdropWhile_concat_neg _ _ _ (by simpa using closed), filter_eq_self.mpr all]

structure Opens (total : Nat) (all : List MarkdownStructuralSection) (index : Nat) (path : List PathEntry)
    (marks : List Mark) : Prop where
  sorted : path.Pairwise fun first second => first.level < second.level
  chained : path.Pairwise fun first second => Ancestor all first.index second.index
  known : ∀ entry ∈ path, entry.index < index ∧ ∃ found, all[entry.index]? = some found ∧ found.level = entry.level ∧
    (∀ mark ∈ marks, found.normalizedStartByte < mark.start) ∧
    found.normalizedEndByte = sectionEnd total entry.level marks

def sectionOf (total : Nat) (path : List PathEntry) (mark : Mark) (later : List Mark) : MarkdownStructuralSection :=
  ⟨mark.title, (openPath path mark.level).map (fun entry => entry.title) ++ [mark.title], mark.level, mark.start,
    sectionEnd total mark.level later, (openPath path mark.level).getLast?.map fun entry => entry.index⟩

theorem buildSections_cons : buildSections total path index (mark :: later) = .ok sections ↔
    mark.start < sectionEnd total mark.level later ∧ (openPath path mark.level).length < 32 ∧
      ∃ rest, sections = sectionOf total path mark later :: rest ∧
        buildSections total (openPath path mark.level ++ [⟨mark.toHeading, index⟩]) (index + 1) later = .ok rest := by
  conv => lhs; unfold buildSections
  dsimp only
  rw [length_append, length_map, length_singleton]
  constructor
  · intro built
    split_ifs at built with invalid deep
    · cases built
    · cases built
    · obtain ⟨rest, ran, same⟩ := bind_ok built
      cases same
      exact ⟨Nat.lt_of_not_le invalid, by omega, rest, rfl, ran⟩
  · rintro built
    obtain ⟨valid, shallow, rest, rfl, ran⟩ := built
    rw [if_neg (Nat.not_le_of_lt valid), if_neg (by omega), ran]
    rfl

theorem last_related {Value : Type} {relation : Value → Value → Prop} {values : List Value} {last value : Value}
    (pairs : values.Pairwise relation) (found : values.getLast? = some last) (listed : value ∈ values) :
    value = last ∨ relation value last := by
  obtain ⟨front, rfl⟩ := getLast?_eq_some_iff.mp found
  rcases mem_append.mp listed with within | same
  · exact .inr ((pairwise_append.mp pairs).2.2 value within last (mem_singleton_self last))
  · exact .inl (mem_singleton.mp same)

theorem mem_openPath (opens : Opens total all index path (mark :: later)) {entry : PathEntry} :
    entry ∈ openPath path level ↔ entry ∈ path ∧ entry.level < level := by
  rw [openPath_filter opens.sorted, mem_filter, decide_eq_true_iff]

theorem Opens.parent (opens : Opens total all index path (mark :: later))
    (placed : all[index]? = some (sectionOf total path mark later)) {entry : PathEntry}
    (kept : entry ∈ openPath path mark.level) : Ancestor all entry.index index := by
  obtain ⟨last, found⟩ : ∃ last, (openPath path mark.level).getLast? = some last :=
    ⟨_, getLast?_eq_getLast_of_ne_nil (ne_nil_of_mem kept)⟩
  have link : Parent all last.index index := ⟨_, placed, by rw [sectionOf, found]; rfl⟩
  have pairs : (openPath path mark.level).Pairwise fun first second => Ancestor all first.index second.index := by
    rw [openPath_filter opens.sorted]
    exact opens.chained.filter _
  rcases last_related pairs found kept with rfl | related
  · exact .single link
  · exact related.tail link

theorem Opens.step (opens : Opens total all index path (mark :: later)) (ordered : Ordered total (mark :: later))
    (placed : all[index]? = some (sectionOf total path mark later)) :
    Opens total all (index + 1) (openPath path mark.level ++ [⟨mark.toHeading, index⟩]) later := by
  have kept : openPath path mark.level = path.filter fun entry => entry.level < mark.level := openPath_filter opens.sorted
  refine ⟨?_, ?_, fun entry listed => ?_⟩
  · rw [pairwise_append]
    refine ⟨by rw [kept]; exact opens.sorted.filter _, pairwise_singleton _ _, fun entry within last same => ?_⟩
    rw [mem_singleton.mp same]
    exact ((mem_openPath opens).mp within).2
  · rw [pairwise_append]
    refine ⟨by rw [kept]; exact opens.chained.filter _, pairwise_singleton _ _, fun entry within last same => ?_⟩
    rw [mem_singleton.mp same]
    exact opens.parent placed within
  · rcases mem_append.mp listed with within | same
    · obtain ⟨before, less⟩ := (mem_openPath opens).mp within
      obtain ⟨earlier, found, at', levels, starts, stop⟩ := opens.known entry before
      refine ⟨by omega, found, at', levels, fun other member => starts other (mem_cons_of_mem _ member), ?_⟩
      rw [stop, sectionEnd_cons, if_neg (by omega)]
    · rw [mem_singleton.mp same]
      exact ⟨Nat.lt_succ_self _, _, placed, rfl, (pairwise_cons.mp ordered.ascending).1, rfl⟩

variable {found : MarkdownStructuralSection}

theorem sections_marks (built : buildSections total path index later = .ok sections) {place : Nat}
    (at' : sections[place]? = some found) :
    ∃ mark, later[place]? = some mark ∧ found.normalizedStartByte = mark.start ∧
      (⟨found.level, found.label⟩ : Heading) = mark.toHeading ∧
      found.normalizedEndByte = sectionEnd total mark.level (later.drop (place + 1)) := by
  induction later generalizing path index sections place with
  | nil =>
    cases built
    cases at'
  | cons mark later ih =>
    obtain ⟨-, -, rest, rfl, ran⟩ := buildSections_cons.mp built
    cases place with
    | zero =>
      cases at'
      exact ⟨mark, rfl, rfl, rfl, rfl⟩
    | succ place => exact ih ran at'

theorem place_succ (index place : Nat) : index + 1 + place = index + (place + 1) := by
  omega

theorem sections_length (built : buildSections total path index later = .ok sections) :
    sections.length = later.length := by
  induction later generalizing path index sections with
  | nil =>
    cases built
    rfl
  | cons mark later ih =>
    obtain ⟨-, -, rest, rfl, ran⟩ := buildSections_cons.mp built
    rw [length_cons, length_cons, ih ran]

theorem Opens.nested (opens : Opens total all index path later) (ordered : Ordered total later)
    (built : buildSections total path index later = .ok sections)
    (placed : ∀ place found, sections[place]? = some found → all[index + place]? = some found) {entry : PathEntry}
    (listed : entry ∈ path) {place : Nat} (at' : sections[place]? = some found)
    (inside : found.normalizedStartByte < sectionEnd total entry.level later) :
    Ancestor all entry.index (index + place) := by
  induction later generalizing path index sections place with
  | nil =>
    cases built
    cases at'
  | cons mark later ih =>
    obtain ⟨-, -, rest, rfl, ran⟩ := buildSections_cons.mp built
    have here := placed 0 _ rfl
    have less : entry.level < mark.level := by
      by_contra closed
      rw [sectionEnd_cons, if_pos (by omega)] at inside
      cases place with
      | zero =>
        cases at'
        exact absurd inside (Nat.lt_irrefl _)
      | succ place =>
        obtain ⟨other, known, start, -⟩ := sections_marks ran at'
        have behind := (pairwise_cons.mp ordered.ascending).1 other (mem_of_getElem? known)
        omega
    have kept := (mem_openPath opens).mpr ⟨listed, less⟩
    cases place with
    | zero => exact opens.parent here kept
    | succ place =>
      rw [sectionEnd_cons, if_neg (by omega)] at inside
      rw [← place_succ]
      refine ih (opens.step ordered here) ordered.tail ran (fun place found known => ?_) (mem_append_left _ kept) at'
        inside
      rw [place_succ]
      exact placed (place + 1) found known

def Within (all : List MarkdownStructuralSection) (found : MarkdownStructuralSection) (place parent : Nat) : Prop :=
  parent < place ∧ ∃ above, all[parent]? = some above ∧ above.level < found.level ∧
    above.normalizedStartByte ≤ found.normalizedStartByte ∧ found.normalizedEndByte ≤ above.normalizedEndByte

theorem Opens.laminar (opens : Opens total all index path later) (ordered : Ordered total later)
    (built : buildSections total path index later = .ok sections)
    (placed : ∀ place found, sections[place]? = some found → all[index + place]? = some found) {place : Nat}
    (at' : sections[place]? = some found) :
    (∀ parent, found.parentIndex = some parent → Within all found (index + place) parent) ∧
      ∀ behind other, place < behind → sections[behind]? = some other →
        Ancestor all (index + place) (index + behind) ∨ found.normalizedEndByte ≤ other.normalizedStartByte := by
  induction later generalizing path index sections place with
  | nil =>
    cases built
    cases at'
  | cons mark later ih =>
    obtain ⟨-, -, rest, rfl, ran⟩ := buildSections_cons.mp built
    have here := placed 0 _ rfl
    have next := opens.step ordered here
    have placed' : ∀ place found, rest[place]? = some found → all[index + 1 + place]? = some found := by
      intro place found known
      rw [place_succ]
      exact placed (place + 1) found known
    cases place with
    | zero =>
      cases at'
      refine ⟨fun parent known => ?_, fun behind other later' at' => ?_⟩
      · obtain ⟨entry, last, rfl⟩ := Option.map_eq_some_iff.mp known
        obtain ⟨before, less⟩ := (mem_openPath opens).mp (mem_of_getLast? last)
        obtain ⟨earlier, above, known', levels, starts, stop⟩ := opens.known entry before
        refine ⟨earlier, above, known', by rw [levels]; exact less, Nat.le_of_lt (starts mark mem_cons_self), ?_⟩
        rw [stop, sectionEnd_cons, if_neg (by omega)]
        exact sectionEnd_mono ordered.tail (Nat.le_of_lt less)
      · by_cases inside : other.normalizedStartByte < sectionEnd total mark.level later
        · obtain ⟨behind, rfl⟩ := Nat.exists_eq_add_one_of_ne_zero (by omega : behind ≠ 0)
          rw [← place_succ]
          exact .inl (next.nested ordered.tail ran placed' (mem_append_right _ (mem_singleton_self _)) at' inside)
        · exact .inr (Nat.le_of_not_lt inside)
    | succ place =>
      obtain ⟨parents, pairs⟩ := ih next ordered.tail ran placed' at'
      rw [← place_succ]
      refine ⟨parents, fun behind other later' at'' => ?_⟩
      obtain ⟨behind, rfl⟩ := Nat.exists_eq_add_one_of_ne_zero (by omega : behind ≠ 0)
      rw [← place_succ index behind]
      exact pairs behind other (by omega) at''

def topLevel (sections : List MarkdownStructuralSection) : List MarkdownStructuralSection :=
  sections.filter fun found => found.parentIndex.isNone

def nextTop (total : Nat) (path : List PathEntry) (marks : List Mark) : Nat :=
  match path with
  | [] => (marks.head?.map fun mark => mark.start).getD total
  | entry :: _ => sectionEnd total entry.level marks

theorem topLevel_covers (opens : Opens total all index path later) (ordered : Ordered total later)
    (built : buildSections total path index later = .ok sections)
    (placed : ∀ place found, sections[place]? = some found → all[index + place]? = some found) :
    Covers MarkdownStructuralSection.normalizedStartByte MarkdownStructuralSection.normalizedEndByte
      (nextTop total path later) (topLevel sections) total := by
  induction later generalizing path index sections with
  | nil =>
    cases built
    cases path <;> rfl
  | cons mark later ih =>
    obtain ⟨valid, -, rest, rfl, ran⟩ := buildSections_cons.mp built
    have here := placed 0 _ rfl
    have covers := ih (opens.step ordered here) ordered.tail ran fun place found known => by
      rw [place_succ]
      exact placed (place + 1) found known
    have kept : openPath path mark.level = path.filter fun entry => entry.level < mark.level := openPath_filter opens.sorted
    cases path with
    | nil => exact ⟨rfl, valid, covers⟩
    | cons entry path =>
      show Covers _ _ (sectionEnd total entry.level (mark :: later)) _ _
      rw [sectionEnd_cons]
      by_cases closes : mark.level ≤ entry.level
      · have none : openPath (entry :: path) mark.level = [] := by
          rw [kept, filter_eq_nil_iff]
          intro other listed
          have above : entry.level ≤ other.level := by
            rcases mem_cons.mp listed with rfl | within
            · exact Nat.le_refl _
            · exact Nat.le_of_lt ((pairwise_cons.mp opens.sorted).1 other within)
          simpa using Nat.le_trans closes above
        rw [none] at covers
        rw [if_pos closes, topLevel, filter_cons_of_pos (by rw [sectionOf, none]; rfl)]
        exact ⟨rfl, valid, covers⟩
      · have first : openPath (entry :: path) mark.level = entry :: path.filter fun entry => entry.level < mark.level := by
          rw [kept, filter_cons_of_pos (by simpa using closes)]
        rw [first] at covers
        obtain ⟨last, some'⟩ : ∃ last, (openPath (entry :: path) mark.level).getLast? = some last :=
          ⟨_, getLast?_eq_getLast_of_ne_nil (by rw [first]; exact cons_ne_nil _ _)⟩
        rw [if_neg closes, topLevel, filter_cons_of_neg (by rw [sectionOf, some']; simp)]
        exact covers

theorem openPath_headings (path : List PathEntry) (found : Heading) (index : Nat) :
    (openPath path found.level ++ [(⟨found, index⟩ : PathEntry)]).map PathEntry.toHeading = push (path.map PathEntry.toHeading) found := by
  rw [map_append, push, openPath, List.rdropWhile, List.rdropWhile, ← map_reverse, dropWhile_map,
    map_reverse]
  rfl

theorem sections_path (built : buildSections total path index later = .ok sections) {place : Nat}
    (at' : sections[place]? = some found) :
    found.headingPath = titles ((later.take (place + 1)).foldl (fun stack mark => push stack mark.toHeading)
      (path.map PathEntry.toHeading)) := by
  induction later generalizing path index sections place with
  | nil =>
    cases built
    cases at'
  | cons mark later ih =>
    obtain ⟨-, -, rest, rfl, ran⟩ := buildSections_cons.mp built
    rw [take_succ_cons, foldl_cons, ← openPath_headings path mark.toHeading index]
    cases place with
    | zero =>
      cases at'
      rw [take_zero, foldl_nil, titles, map_map, sectionOf, map_append]
      rfl
    | succ place => exact ih ran at'

def PathEntry.shift (entry : PathEntry) : PathEntry := { entry with index := entry.index + 1 }

theorem openPath_shift (path : List PathEntry) (level : Nat) :
    openPath (path.map PathEntry.shift) level = (openPath path level).map PathEntry.shift := by
  rw [openPath, openPath, List.rdropWhile, List.rdropWhile, ← map_reverse, dropWhile_map, ← map_reverse]
  rfl

theorem buildSections_shift (built : buildSections total path index later = .ok sections) :
    buildSections total (path.map PathEntry.shift) (index + 1) later = .ok (sections.map shiftParent) := by
  induction later generalizing path index sections with
  | nil =>
    cases built
    rfl
  | cons mark later ih =>
    obtain ⟨valid, shallow, rest, rfl, ran⟩ := buildSections_cons.mp built
    have moved := ih ran
    rw [map_append] at moved
    refine buildSections_cons.mpr ⟨valid, by rwa [openPath_shift, length_map], rest.map shiftParent, ?_, ?_⟩
    · have parent : ((openPath path mark.level).getLast?.map fun entry => entry.index).map (· + 1) =
          ((openPath path mark.level).map PathEntry.shift).getLast?.map fun entry => entry.index := by
        rw [getLast?_map, Option.map_map, Option.map_map]
        rfl
      rw [map_cons, shiftParent, sectionOf, sectionOf, openPath_shift, parent, map_map]
      rfl
    · rw [openPath_shift]
      exact moved

end

section
variable {total maxSections marked preambleCount : Nat} {inFence : Option FenceOpener} {headingStack : List Heading}
  {marks : List Mark} {pieces : List TextPiece} {lines : List Line}

theorem utf8Bytes_pos {content : Text} (some' : content ≠ []) : 0 < utf8Bytes content := by
  have points : codePoints content ≠ [] := fun none => some' (by rw [← codePoints_flatten content, none]; rfl)
  obtain ⟨point, rest, shape⟩ := exists_cons_of_ne_nil points
  have one : 0 < utf8PointBytes point := by
    unfold utf8PointBytes
    split
    · split_ifs <;> omega
    · omega
  rw [utf8Bytes, shape, map_cons, sum_cons]
  omega

theorem closed_line (current : Text) : ¬(current ++ [10]).getLast?.any isHigh := by
  rw [getLast?_concat]
  decide

theorem splitLines_exact {rest current : Text} {byteStart : Nat} {result : List Line}
    (ran : splitLines rest current byteStart result = .ok lines) : ∃ added, lines = result ++ added ∧
      Covers Line.start Line.stop byteStart added (byteStart + utf8Bytes (current ++ rest)) ∧
      (∀ line ∈ added, line.stop = line.start + utf8Bytes line.text) ∧
      (added.flatMap fun line => codePoints line.text) = codePoints (current ++ rest) := by
  induction rest generalizing current byteStart result with
  | nil =>
    unfold splitLines at ran
    rw [append_nil]
    split_ifs at ran with none full
    · cases ran
      exact ⟨[], by simp, by rw [none]; rfl, by simp, by rw [none]; rfl⟩
    · cases ran
    · cases ran
      have positive := utf8Bytes_pos none
      exact ⟨_, rfl, ⟨rfl, Nat.lt_add_of_pos_right positive, rfl⟩, by simp, append_nil _⟩
  | cons unit rest ih =>
    unfold splitLines at ran
    split_ifs at ran with other full
    · have tail := ih ran
      rwa [append_assoc, singleton_append] at tail
    · cases ran
    · obtain rfl : unit = 10 := not_not.mp other
      obtain ⟨added, whole, covers, exact', points⟩ := ih ran
      have bytes := Context.utf8Bytes_left (closed_line current) rest
      have cut := codePoints_append (current ++ [10]) rest fun both => closed_line current both.1
      have positive : 0 < utf8Bytes (current ++ [10]) := utf8Bytes_pos (by simp)
      rw [append_assoc, singleton_append] at bytes cut
      refine ⟨⟨current ++ [10], byteStart, _⟩ :: added, by rw [whole, append_assoc]; rfl, ⟨rfl, ?_, ?_⟩,
        forall_mem_cons.mpr ⟨rfl, exact'⟩, ?_⟩
      · exact Nat.lt_add_of_pos_right positive
      · rw [bytes, ← Nat.add_assoc]
        exact covers
      · rw [flatMap_cons, points, cut]
        rfl

def outside : Option FenceOpener → List Line → List Line
  | _, [] => []
  | some opener, line :: lines => outside (if fenceCloser line.text opener then none else some opener) lines
  | none, line :: lines =>
    match fenceOpener line.text with
    | some opener => outside (some opener) lines
    | none => line :: outside none lines

def headingOf (line : Line) : Option Mark := (heading line.text).map fun found => ⟨found, line.start⟩

theorem outside_cons (inFence : Option FenceOpener) (line : Line) (lines : List Line) :
    ∃ shown, outside inFence (line :: lines) = shown ++ outside (scanLine inFence line.text).1 lines ∧
      shown.filterMap headingOf = (scanLine inFence line.text).2.toList.map (fun found => ⟨found, line.start⟩) ∧
      (shown.filter fun shown => (heading shown.text).isSome) =
        if (scanLine inFence line.text).2.isSome then [line] else [] := by
  cases inFence with
  | some opener => exact ⟨[], rfl, rfl, rfl⟩
  | none =>
    cases opened : fenceOpener line.text with
    | some opener =>
      have scanned : scanLine none line.text = (some opener, none) := by simp only [scanLine, opened]
      rw [scanned]
      exact ⟨[], by simp only [outside, opened, nil_append], rfl, rfl⟩
    | none =>
      have scanned : scanLine none line.text = (none, heading line.text) := by simp only [scanLine, opened]
      rw [scanned]
      refine ⟨[line], by simp only [outside, opened, singleton_append], ?_, ?_⟩
      · rw [filterMap_cons, headingOf]
        cases heading line.text <;> rfl
      · rw [filter_cons]
        rfl

theorem parseLines_cons {line : Line} (ran : parseLines maxSections inFence headingStack marked preambleCount
    (line :: lines) = .ok (marks, pieces)) : ∃ after marked' preambleCount' marks' pieces',
      parseLines maxSections (scanLine inFence line.text).1 after marked' preambleCount' lines = .ok (marks', pieces') ∧
      marks = (scanLine inFence line.text).2.toList.map (fun found => ⟨found, line.start⟩) ++ marks' ∧
      after = ((scanLine inFence line.text).2.toList.foldl push headingStack) ∧
      pieces = ⟨line, titles after, (scanLine inFence line.text).2.isSome⟩ :: pieces' := by
  unfold parseLines at ran
  cases found : (scanLine inFence line.text).2 with
  | none =>
    rw [found] at ran
    obtain ⟨result, below, same⟩ := bind_ok ran
    cases same
    exact ⟨_, _, _, _, _, below, rfl, rfl, rfl⟩
  | some heading =>
    rw [found] at ran
    dsimp only at ran
    generalize (if marked = 0 then _ else preambleCount) = counted at ran
    split_ifs at ran
    · cases ran
    · cases ran
    · obtain ⟨result, below, same⟩ := bind_ok ran
      cases same
      exact ⟨_, _, _, _, _, below, rfl, rfl, rfl⟩

theorem parseLines_lines (ran : parseLines maxSections inFence headingStack marked preambleCount lines =
    .ok (marks, pieces)) : pieces.map TextPiece.toLine = lines ∧ marks = (outside inFence lines).filterMap headingOf ∧
      (pieces.filter fun piece => piece.startsHeading).map TextPiece.toLine =
        (outside inFence lines).filter fun line => (heading line.text).isSome := by
  induction lines generalizing inFence headingStack marked preambleCount marks pieces with
  | nil =>
    cases ran
    cases inFence <;> exact ⟨rfl, rfl, rfl⟩
  | cons line lines ih =>
    obtain ⟨after, marked', preambleCount', marks', pieces', below, rfl, -, rfl⟩ := parseLines_cons ran
    obtain ⟨whole, same, headed⟩ := ih below
    obtain ⟨shown, shape, marked, starts⟩ := outside_cons inFence line lines
    refine ⟨by rw [map_cons, whole], by rw [shape, filterMap_append, marked, same], ?_⟩
    rw [shape, filter_append, starts, ← headed, filter_cons]
    cases (scanLine inFence line.text).2 <;> rfl

theorem parseLines_paths {first : Nat} (covers : Covers Line.start Line.stop first lines total)
    (ran : parseLines maxSections inFence headingStack marked preambleCount lines = .ok (marks, pieces)) :
    (∀ mark ∈ marks, first ≤ mark.start) ∧ Ordered total marks ∧ ∀ piece ∈ pieces, ∃ before after,
      marks = before ++ after ∧ (∀ mark ∈ before, mark.start ≤ piece.start) ∧ (∀ mark ∈ after, piece.stop ≤ mark.start) ∧
        piece.headingPath = titles (before.foldl (fun stack mark => push stack mark.toHeading) headingStack) := by
  induction lines generalizing first inFence headingStack marked preambleCount marks pieces with
  | nil =>
    cases ran
    exact ⟨by simp, ⟨List.Pairwise.nil, by simp⟩, by simp⟩
  | cons line lines ih =>
    obtain ⟨after, marked', preambleCount', marks', pieces', below, rfl, opened, rfl⟩ := parseLines_cons ran
    obtain ⟨rfl, positive, rest⟩ := covers
    obtain ⟨later, ordered, paths⟩ := ih rest below
    have inner := (parseLines_lines below).1
    have started : ∀ piece ∈ pieces', line.stop ≤ piece.start := fun piece listed =>
      (rest.mem (by rw [← inner]; exact mem_map_of_mem listed)).1
    have total' := rest.le
    cases found : (scanLine inFence line.text).2 with
    | none =>
      rw [found] at opened
      obtain rfl : after = headingStack := opened
      refine ⟨fun mark listed => ?_, ordered, forall_mem_cons.mpr ⟨⟨[], marks', rfl, by simp, later, rfl⟩, paths⟩⟩
      exact Nat.le_trans (Nat.le_of_lt positive) (later mark listed)
    | some heading =>
      rw [found] at opened
      obtain rfl : after = push headingStack heading := opened
      refine ⟨fun mark listed => ?_, ⟨pairwise_cons.mpr ⟨fun mark listed => ?_, ordered.ascending⟩,
        forall_mem_cons.mpr ⟨Nat.lt_of_lt_of_le positive total', ordered.inside⟩⟩, fun piece listed => ?_⟩
      · rcases mem_cons.mp listed with rfl | within
        · exact Nat.le_refl _
        · exact Nat.le_trans (Nat.le_of_lt positive) (later mark within)
      · exact Nat.lt_of_lt_of_le positive (later mark listed)
      · rcases mem_cons.mp listed with rfl | within
        · exact ⟨[⟨heading, line.start⟩], marks', rfl, by simp, later, rfl⟩
        · obtain ⟨before, behind, rfl, starts, stops, path⟩ := paths piece within
          refine ⟨⟨heading, line.start⟩ :: before, behind, rfl, forall_mem_cons.mpr ⟨?_, starts⟩, stops, path⟩
          exact Nat.le_trans (Nat.le_of_lt positive) (started piece within)

end

section
variable {markdown : Text} {parsed : ParsedMarkdownStructure}

def Innermost (sections : List MarkdownStructuralSection) (line : TextPiece) : Prop :=
  ∃ place found, sections[place]? = some found ∧ found.headingPath = line.headingPath ∧
    found.normalizedStartByte ≤ line.start ∧ line.stop ≤ found.normalizedEndByte ∧
    ∀ other around, sections[other]? = some around → around.normalizedStartByte ≤ line.start →
      line.start < around.normalizedEndByte → other = place ∨ Ancestor sections other place

structure Laminar (markdown : Text) (parsed : ParsedMarkdownStructure) : Prop where
  parents : ∀ place found parent, parsed.sections[place]? = some found → found.parentIndex = some parent →
    Within parsed.sections found place parent
  disjoint : ∀ place behind found other, place < behind → parsed.sections[place]? = some found →
    parsed.sections[behind]? = some other →
      Ancestor parsed.sections place behind ∨ found.normalizedEndByte ≤ other.normalizedStartByte
  covers : Covers MarkdownStructuralSection.normalizedStartByte MarkdownStructuralSection.normalizedEndByte 0
    (topLevel parsed.sections) (utf8Bytes markdown)
  headings : ∀ found ∈ parsed.sections, found = preamble found.normalizedEndByte ∨
    ∃ line ∈ outside none (parsed.lines.map TextPiece.toLine), heading line.text = some ⟨found.level, found.label⟩ ∧
      found.normalizedStartByte = line.start
  lines : ∀ line ∈ parsed.lines, Innermost parsed.sections line

theorem laminar_of {before sections : List MarkdownStructuralSection} {marks : List Mark} {lines : List TextPiece}
    (front : before = [] ∧ nextTop (utf8Bytes markdown) [] marks = 0 ∨
      before = [preamble (nextTop (utf8Bytes markdown) [] marks)] ∧ 0 < nextTop (utf8Bytes markdown) [] marks)
    (built : buildSections (utf8Bytes markdown) [] before.length marks = .ok sections)
    (ordered : Ordered (utf8Bytes markdown) marks)
    (headed : marks = (outside none (lines.map TextPiece.toLine)).filterMap headingOf)
    (positive : ∀ line ∈ lines, line.start < line.stop ∧ line.stop ≤ utf8Bytes markdown)
    (paths : ∀ line ∈ lines, ∃ earlier after, marks = earlier ++ after ∧ (∀ mark ∈ earlier, mark.start ≤ line.start) ∧
      (∀ mark ∈ after, line.stop ≤ mark.start) ∧
        line.headingPath = titles (earlier.foldl (fun stack mark => push stack mark.toHeading) [])) :
    Laminar markdown ⟨before ++ sections, lines⟩ := by
  have opens : Opens (utf8Bytes markdown) (before ++ sections) before.length [] marks :=
    ⟨List.Pairwise.nil, List.Pairwise.nil, fun entry listed => by cases listed⟩
  have placed : ∀ place found, sections[place]? = some found → (before ++ sections)[before.length + place]? = some found := by
    intro place found known
    rwa [getElem?_append_right (Nat.le_add_right _ _), Nat.add_sub_cancel_left]
  have front' : ∀ (place : Nat) (found : MarkdownStructuralSection), place < before.length → (before ++ sections)[place]? = some found →
      place = 0 ∧ found = preamble (nextTop (utf8Bytes markdown) [] marks) := by
    intro place found small known
    rw [getElem?_append_left small] at known
    rcases front with ⟨rfl, -⟩ | ⟨rfl, -⟩
    · cases small
    · obtain rfl : place = 0 := by simpa using small
      exact ⟨rfl, (Option.some.inj known).symm⟩
  have behind : ∀ (place : Nat) (found : MarkdownStructuralSection), before.length ≤ place → (before ++ sections)[place]? = some found →
      ∃ later, place = before.length + later ∧ sections[later]? = some found := by
    intro place found large known
    rw [getElem?_append_right large] at known
    exact ⟨place - before.length, by omega, known⟩
  have starts : ∀ (place : Nat) (found : MarkdownStructuralSection), sections[place]? = some found →
      nextTop (utf8Bytes markdown) [] marks ≤ found.normalizedStartByte := by
    intro place found known
    obtain ⟨mark, at', start, -⟩ := sections_marks built known
    have listed := mem_of_getElem? at'
    rw [start]
    cases marks with
    | nil => cases listed
    | cons first marks =>
      rcases mem_cons.mp listed with rfl | within
      · exact Nat.le_refl _
      · exact Nat.le_of_lt ((pairwise_cons.mp ordered.ascending).1 mark within)
  refine ⟨fun place found parent known child => ?_, fun place later found other less known known' => ?_, ?_,
    fun found listed => ?_, fun line listed => ?_⟩
  · by_cases small : place < before.length
    · obtain ⟨-, rfl⟩ := front' place found small known
      cases child
    · obtain ⟨place, rfl, at'⟩ := behind place found (Nat.le_of_not_lt small) known
      exact (opens.laminar ordered built placed at').1 parent child
  · obtain ⟨later, rfl, at''⟩ := behind later other (by
      by_contra small
      have zero := (front' later other (by omega) known').1
      omega) known'
    by_cases small : place < before.length
    · obtain ⟨-, rfl⟩ := front' place found small known
      exact .inr (starts later other at'')
    · obtain ⟨place, rfl, at'⟩ := behind place found (Nat.le_of_not_lt small) known
      exact (opens.laminar ordered built placed at').2 later other (by omega) at''
  · have rest := topLevel_covers opens ordered built placed
    rcases front with ⟨rfl, zero⟩ | ⟨rfl, some'⟩
    · rwa [zero] at rest
    · exact ⟨rfl, some', rest⟩
  · obtain ⟨place, known⟩ := mem_iff_getElem?.mp listed
    by_cases small : place < before.length
    · obtain ⟨-, rfl⟩ := front' place found small known
      exact .inl rfl
    · obtain ⟨place, rfl, at'⟩ := behind place found (Nat.le_of_not_lt small) known
      obtain ⟨mark, member, start, same, -⟩ := sections_marks built at'
      have member' := mem_of_getElem? member
      rw [headed] at member'
      obtain ⟨line, outside', marked⟩ := mem_filterMap.mp member'
      obtain ⟨found', known', rfl⟩ := Option.map_eq_some_iff.mp marked
      exact .inr ⟨line, outside', known'.trans (congrArg some same.symm), start⟩
  · obtain ⟨earlier, after, rfl, low, high, path⟩ := paths line listed
    obtain ⟨short, inside⟩ := positive line listed
    rcases eq_nil_or_concat earlier with rfl | ⟨front'', last, rfl⟩
    · have bound : line.stop ≤ nextTop (utf8Bytes markdown) [] ([] ++ after) := by
        cases after with
        | nil => exact inside
        | cons mark after => exact high mark mem_cons_self
      rcases front with ⟨rfl, zero⟩ | ⟨rfl, some'⟩
      · omega
      · refine ⟨0, _, rfl, path.symm, Nat.zero_le _, bound, fun other around known start stop => ?_⟩
        by_cases small : other < 1
        · exact .inl (by omega)
        · obtain ⟨later, rfl, at'⟩ := behind other around (Nat.le_of_not_lt small) known
          have beyond := starts later around at'
          omega
    · rw [concat_eq_append] at *
      have size := sections_length built
      rw [length_append, length_append, length_singleton] at size
      obtain ⟨found, at'⟩ : ∃ found, sections[front''.length]? = some found :=
        ⟨_, getElem?_eq_getElem (by omega)⟩
      obtain ⟨mark, known, start, -, stop⟩ := sections_marks built at'
      rw [append_assoc, getElem?_append_right (Nat.le_refl _), Nat.sub_self] at known
      obtain rfl : last = mark := Option.some.inj known
      have taken : ((front'' ++ [last]) ++ after).take (front''.length + 1) = front'' ++ [last] :=
        take_left' (by simp)
      have left : ((front'' ++ [last]) ++ after).drop (front''.length + 1) = after := drop_left' (by simp)
      have same := sections_path built at'
      rw [taken] at same
      rw [left] at stop
      have opened := low last (mem_append_right _ (mem_singleton_self last))
      refine ⟨before.length + front''.length, found, placed _ _ at', same.trans path.symm, by rw [start]; exact opened, ?_,
        fun other around known start' stop' => ?_⟩
      · rw [stop]
        exact sectionEnd_ge inside high
      · by_cases small : other < before.length
        · obtain ⟨-, rfl⟩ := front' other around small known
          have beyond := starts _ found at'
          have near : line.start < nextTop (utf8Bytes markdown) [] ((front'' ++ [last]) ++ after) := stop'
          omega
        · obtain ⟨place, rfl, at''⟩ := behind other around (Nat.le_of_not_lt small) known
          rcases Nat.lt_trichotomy place front''.length with less | equal | more
          · rcases (opens.laminar ordered built placed at'').2 _ found less at' with above | apart
            · exact .inr above
            · omega
          · exact .inl (by rw [equal])
          · obtain ⟨mark, known', start'', -⟩ := sections_marks built at''
            rw [getElem?_append_right (by simp; omega)] at known'
            have beyond := high mark (mem_of_getElem? known')
            omega

structure Lined (markdown : Text) (lines : List TextPiece) : Prop where
  covers : Covers Line.start Line.stop 0 (lines.map TextPiece.toLine) (utf8Bytes markdown)
  bytes : ∀ line ∈ lines, line.stop = line.start + utf8Bytes line.text
  points : (lines.flatMap fun line => codePoints line.text) = codePoints markdown
  headed : (lines.filter fun line => line.startsHeading).map TextPiece.toLine =
    (outside none (lines.map TextPiece.toLine)).filter fun line => (heading line.text).isSome

theorem parse_ok {maxSections : Nat} (ran : parseNormalizedMarkdownStructure markdown maxSections = .ok parsed) :
    Laminar markdown parsed ∧ Lined markdown parsed.lines := by
  unfold parseNormalizedMarkdownStructure at ran
  split_ifs at ran
  · cases ran
  · cases ran
  · cases ran
  · obtain ⟨lines, split, ran⟩ := bind_ok ran
    obtain ⟨found, scanned, ran⟩ := bind_ok ran
    obtain ⟨marks, pieces⟩ := found
    obtain ⟨added, same, covers, bytes, points⟩ := splitLines_exact split
    obtain rfl : lines = added := same
    rw [nil_append, Nat.zero_add] at covers
    obtain ⟨whole, headed, starts⟩ := parseLines_lines scanned
    obtain ⟨-, ordered, paths⟩ := parseLines_paths covers scanned
    have lined : Lined markdown pieces := by
      refine ⟨by rwa [whole], fun line listed => bytes line.toLine (by rw [← whole]; exact mem_map_of_mem listed), ?_,
        by rw [whole]; exact starts⟩
      rw [← whole, flatMap_map] at points
      exact points
    have positive : ∀ line ∈ pieces, line.start < line.stop ∧ line.stop ≤ utf8Bytes markdown := fun line listed =>
      (covers.mem (by rw [← whole]; exact mem_map_of_mem listed)).2
    have marked : marks = (outside none (pieces.map TextPiece.toLine)).filterMap headingOf := by rw [whole]; exact headed
    dsimp only at ran
    rw [covers.last] at ran
    cases marks with
    | nil =>
      dsimp only at ran
      split_ifs at ran with none
      · cases ran
      · cases ran
        have late : 0 < nextTop (utf8Bytes markdown) [] [] := Nat.pos_of_ne_zero none
        exact ⟨laminar_of (.inr ⟨rfl, late⟩) rfl ordered marked positive paths, lined⟩
    | cons first marks =>
      obtain ⟨sections, built, ran⟩ := bind_ok ran
      split_ifs at ran with zero
      · cases ran
        have early : nextTop (utf8Bytes markdown) [] (first :: marks) = 0 := zero
        exact ⟨laminar_of (.inl ⟨rfl, early⟩) built ordered marked positive paths, lined⟩
      · cases ran
      · cases ran
        have late : 0 < nextTop (utf8Bytes markdown) [] (first :: marks) := Nat.pos_of_ne_zero zero
        exact ⟨laminar_of (.inr ⟨rfl, late⟩) (buildSections_shift built) ordered marked positive paths, lined⟩

/-- The sections that are extracted form a tree over the text, and each line has the path of the section it is in. -/
theorem extract_laminar (markdown : Text) (maxSections : Nat) :
    Fallible.Returns (fun sections => ∃ parsed, parseNormalizedMarkdownStructure markdown maxSections = .ok parsed ∧
      parsed.sections = sections ∧ Laminar markdown parsed)
      (extractNormalizedMarkdownStructure markdown maxSections) := by
  refine returns_of fun sections ran => ?_
  obtain ⟨parsed, ran, same⟩ := map_ok ran
  exact ⟨parsed, ran, same, (parse_ok ran).1⟩

end

end Structural
