import Eliot.Blocks.Fences

namespace Blocks
open Text List
open Citations (OpenFence FencedCodeRange closesFence fenceOpen fencedFrom fencedCodeRanges)

def Fed (text : Text) : Prop := ∀ place : Nat, text[place]? = some 13 → text[place + 1]? = some 10

theorem Fed.behind {first second : Text} (fed : Fed (first ++ second)) : Fed second := by
  intro place found
  have here : (first ++ second)[first.length + place]? = some 13 := by
    rwa [getElem?_append_right (Nat.le_add_right _ _), Nat.add_sub_cancel_left]
  have next := fed _ here
  rwa [Nat.add_assoc, getElem?_append_right (Nat.le_add_right _ _), Nat.add_sub_cancel_left] at next

inductive Part (rest : Text) : Prop where
  | last (only : rest.splitOn 10 = [rest]) (body : bodyOf rest = rest) (whole : firstLine rest = rest)
  | more (part after : Text) (split : rest = part ++ 10 :: after)
      (parts : rest.splitOn 10 = part :: after.splitOn 10) (line : firstLine rest = part ++ [10])
      (body : part = bodyOf rest ∨ part = bodyOf rest ++ [13])

theorem part_of_fed {rest : Text} (fed : Fed rest) : Part rest := by
  have whole : bodyOf rest ++ rest.dropWhile (!isLineEnd ·) = rest := takeWhile_append_dropWhile
  have plain : ∀ unit ∈ bodyOf rest, isLineEnd unit = false := by
    intro unit member
    simpa using mem_takeWhile_imp member
  have noFeed : 10 ∉ bodyOf rest := fun member => Bool.noConfusion (plain 10 member)
  have stopped := head?_dropWhile_not (!isLineEnd ·) rest
  have first : firstLine rest = bodyOf rest ++ lineEnd (rest.dropWhile (!isLineEnd ·)) := rfl
  generalize rest.dropWhile (!isLineEnd ·) = tail at *
  cases tail with
  | nil =>
    rw [append_nil] at whole
    rw [whole] at noFeed
    exact .last (splitOn_eq_singleton noFeed) whole (by rw [first, whole]; exact append_nil _)
  | cons unit after =>
    have left : Fed (unit :: after) := Fed.behind ((congrArg Fed whole).mpr fed)
    have lineEnds : unit = 10 ∨ unit = 13 := by
      have ends : isLineEnd unit = true := by simpa using stopped
      simpa [isLineEnd] using ends
    rcases lineEnds with rfl | rfl
    · have split := splitOn_append_cons_self_of_not_mem noFeed after
      rw [whole] at split
      exact .more (bodyOf rest) after whole.symm split first (.inl rfl)
    · have next := left 0 rfl
      cases after with
      | nil => cases next
      | cons unit after =>
        cases next
        have noFeed' : 10 ∉ bodyOf rest ++ [13] := by simpa using noFeed
        have split := splitOn_append_cons_self_of_not_mem noFeed' after
        have shape : (bodyOf rest ++ [13]) ++ 10 :: after = rest := by
          rw [← append_cons]
          exact whole
        rw [shape] at split
        exact .more (bodyOf rest ++ [13]) after shape.symm split (by rw [first, lineEnd]; simp) (.inr rfl)

theorem trim_space {body : Text} {unit : Nat} (space : isSpace unit = true) : trim (body ++ [unit]) = trim body := by
  rw [trim, trim, dropWhile_append]
  split
  · rename_i empty
    rw [isEmpty_iff.mp empty, dropWhile_cons_of_pos space]
    rfl
  · rw [rdropWhile_concat_pos _ _ _ space]

theorem closesFence_part {part body : Text} (fence : OpenFence) (same : part = body ∨ part = body ++ [13]) :
    closesFence fence part = Fence.closes ⟨fence.char, fence.count⟩ body := by
  have trimmed : trim part = trim body := by
    rcases same with rfl | rfl
    · rfl
    · exact trim_space rfl
  rw [closesFence, trimmed]
  rfl

theorem opening_part {part body : Text} (same : part = body ∨ part = body ++ [13]) :
    ((fenceOpen.exec part).bind (·.captures[0]?)).map (fun opened => Fence.mk (opened.headD 96) opened.length) =
      opens body := by
  have found : (fenceOpen.exec part).bind (·.captures[0]?) = (opening.exec body).bind (·.captures[0]?) := by
    rcases same with rfl | rfl
    · rfl
    · have ways : fenceOpen.ways (body ++ [13]) = (opening.ways body).map (Regex.Match.followed [13]) :=
        Regex.ways_followed (by decide) (by decide) body []
      rw [Regex.exec, ways, head?_map, Option.bind_map]
      rfl
  rw [found]
  rfl

section

def runUnits (run : Line × Line) : Nat × Nat := (run.1.charStart, run.2.charStop)

def rangeUnits (range : FencedCodeRange) : Nat × Nat := (range.start, range.stop)

def Same (position : Nat) : Option Inside → Option OpenFence → Prop
  | none, none => True
  | some inside, some fence => fence.char = inside.fence.char ∧ fence.count = inside.fence.count ∧
      fence.fenceStart = inside.first.charStart ∧ inside.last.charStop = position
  | _, _ => False

variable {length : Nat} {part : Text} {parts : List Text} {line : Line} {rest : List Line}

theorem fencedFrom_step (same : part = line.body ∨ part = line.body ++ [13])
    (stop : line.charStart + part.length + (if parts.isEmpty then 0 else 1) = line.charStop)
    (behind : ∀ inside fence, Same line.charStop inside fence →
      (fencedFrom length line.charStop fence parts).map rangeUnits = (fencedRuns inside rest).map runUnits)
    {inside : Option Inside} {fence : Option OpenFence} (agree : Same line.charStart inside fence) :
    (fencedFrom length line.charStart fence (part :: parts)).map rangeUnits =
      (fencedRuns inside (line :: rest)).map runUnits := by
  unfold fencedFrom
  rw [stop]
  cases inside with
  | none =>
    cases fence with
    | some fence => exact agree.elim
    | none =>
      have opened := opening_part same
      dsimp only
      rw [fencedRuns, ← opened]
      cases (fenceOpen.exec part).bind (·.captures[0]?) with
      | none => exact behind none none trivial
      | some opened => exact behind (some ⟨_, line, line⟩) (some _) ⟨rfl, rfl, rfl, rfl⟩
  | some inside =>
    cases fence with
    | none => exact agree.elim
    | some fence =>
      obtain ⟨char, count, start, -⟩ := agree
      have closes := closesFence_part fence same
      rw [char, count] at closes
      dsimp only
      rw [fencedRuns]
      by_cases closed : closesFence fence part = true
      · have closed' := closes.symm.trans closed
        rw [if_pos closed, if_pos closed', map_cons, map_cons, behind none none trivial]
        rw [runUnits, rangeUnits, start]
      · have closed' := fun same => closed (closes.trans same)
        rw [if_neg closed, if_neg closed']
        exact behind (some { inside with last := line }) (some fence) ⟨char, count, start, rfl⟩

theorem fencedFrom_nil (position : Nat) {inside : Option Inside} {fence : Option OpenFence}
    (agree : Same length inside fence) :
    (fencedFrom length position fence []).map rangeUnits = (fencedRuns inside []).map runUnits := by
  cases inside with
  | none =>
    cases fence with
    | none => rfl
    | some fence => exact agree.elim
  | some inside =>
    cases fence with
    | none => exact agree.elim
    | some fence =>
      obtain ⟨-, -, start, stop⟩ := agree
      rw [fencedFrom, fencedRuns, map_singleton, map_singleton, runUnits, rangeUnits, start, stop]

theorem fencedFrom_empty (position : Nat) (fence : Option OpenFence) :
    fencedFrom length position fence [[]] = fencedFrom length position fence [] := by
  cases fence with
  | none =>
    have plain : (fenceOpen.exec []).bind (·.captures[0]?) = none := by decide
    simp [fencedFrom, plain]
  | some fence =>
    have stays : closesFence fence [] = false := by simp [closesFence, trim]
    simp [fencedFrom, stays]

theorem fencedFrom_runs {char byte : Nat} {rest : Text} (fed : Fed rest) (whole : char + rest.length = length)
    {inside : Option Inside} {fence : Option OpenFence} (agree : Same char inside fence) :
    (fencedFrom length char fence (rest.splitOn 10)).map rangeUnits =
      (fencedRuns inside (linesFrom char byte rest)).map runUnits := by
  fun_induction linesFrom char byte rest generalizing inside fence with
  | case1 char byte =>
    rw [length_nil, Nat.add_zero] at whole
    subst whole
    have only : ([] : Text).splitOn 10 = [[]] := rfl
    rw [only, fencedFrom_empty]
    exact fencedFrom_nil char agree
  | case2 char byte rest filled raw stop ih =>
    have agree : Same (Line.charStart ⟨bodyOf rest, byte, stop, char, char + raw.length⟩) inside fence := agree
    cases part_of_fed fed with
    | last only body line =>
      have size : raw.length = rest.length := congrArg List.length line
      rw [only]
      refine fencedFrom_step (.inl body.symm) ?_ ?_ agree
      · simp [size]
      · intro inside fence agree
        have none : rest.drop raw.length = [] := by rw [size, drop_length]
        rw [none, linesFrom, dif_pos rfl]
        have ends : char + raw.length = length := by rw [size, whole]
        dsimp only at agree
        rw [ends] at agree
        exact fencedFrom_nil _ agree
    | more part after split parts line body =>
      have size : raw.length = part.length + 1 := by
        have same : raw = part ++ [10] := line
        rw [same, length_append]
        rfl
      have left : rest.drop raw.length = after := by
        rw [size, split, append_cons, drop_left' (by simp)]
      rw [left] at ih ⊢
      rw [parts]
      refine fencedFrom_step body ?_ (fun inside fence agree => ?_) agree
      · have some : (after.splitOn 10).isEmpty = false := by
          rw [isEmpty_eq_false_iff]
          exact splitOn_ne_nil _ _
        rw [some, if_neg Bool.false_ne_true]
        dsimp only
        omega
      · refine ih ?_ ?_ agree
        · rw [split, append_cons] at fed
          exact fed.behind
        · rw [split, length_append, length_cons] at whole
          omega

theorem fencedCodeRanges_runs {text : Text} (fed : Fed text) :
    (fencedCodeRanges text).map rangeUnits = (codeRuns (emissions text)).map runUnits := by
  rw [emissions_codeRuns]
  exact fencedFrom_runs fed (Nat.zero_add _) trivial

end

section

variable {text : Text}

theorem Emitted.within (byte : Nat) {number : Nat} {emission : Emission} {added : List Scanned}
    (emitted : Emitted text number emission added) :
    (∃ scanned ∈ added, scanned.block.type = .code ∧ scanned.block.start ≤ byte ∧ byte < scanned.block.stop) ↔
      emission.type = .code ∧ emission.first.start ≤ byte ∧ byte < emission.last.stop := by
  have whole := emitted.laid.within byte
  constructor
  · rintro ⟨scanned, member, type, inside⟩
    exact ⟨(emitted.types scanned member).symm.trans type,
      whole.mp ⟨bytesOf scanned, mem_map_of_mem member, inside⟩⟩
  · rintro ⟨type, inside⟩
    obtain ⟨range, member, within⟩ := whole.mpr inside
    obtain ⟨scanned, among, rfl⟩ := mem_map.mp member
    exact ⟨scanned, among, (emitted.types scanned among).trans type, within⟩

theorem Parts.within (byte : Nat) {number : Nat} {calls : List Emission} {blocks : List Scanned}
    (parts : Parts text number calls blocks) :
    (∃ scanned ∈ blocks, scanned.block.type = .code ∧ scanned.block.start ≤ byte ∧ byte < scanned.block.stop) ↔
      ∃ call ∈ calls, call.type = .code ∧ call.first.start ≤ byte ∧ byte < call.last.stop := by
  induction parts with
  | nil number => simp
  | cons first rest ih =>
    have here := first.within byte
    constructor
    · rintro ⟨scanned, member, inside⟩
      rcases mem_append.mp member with member | member
      · exact ⟨_, mem_cons_self, here.mp ⟨scanned, member, inside⟩⟩
      · obtain ⟨call, among, within⟩ := ih.mp ⟨scanned, member, inside⟩
        exact ⟨call, mem_cons_of_mem _ among, within⟩
    · rintro ⟨call, member, inside⟩
      rcases mem_cons.mp member with rfl | member
      · obtain ⟨scanned, among, within⟩ := here.mpr inside
        exact ⟨scanned, mem_append_left _ among, within⟩
      · obtain ⟨scanned, among, within⟩ := ih.mpr ⟨call, member, inside⟩
        exact ⟨scanned, mem_append_right _ among, within⟩

theorem mem_merged_code {kept : Block} (code : kept.type = .code) :
    kept ∈ merged (merges text (scannedBlocks text)) (scannedBlocks text) ↔
      ∃ scanned ∈ scannedBlocks text, scanned.block = kept := by
  have tables : ∀ (merge : TableCaptionCandidate) (scanned : Scanned),
      merge ∈ merges text (scannedBlocks text) → (scannedBlocks text)[merge.tableIndex]? = some scanned →
      scanned.block.type = .table := by
    intro merge scanned member here
    rcases (merges_unambiguous member).neighbour with
      ⟨-, ⟨table, caption, there, -, type, -⟩, -⟩ | ⟨-, ⟨table, caption, there, -, type, -⟩, -⟩
    · cases here.symm.trans there
      exact type
    · cases here.symm.trans there
      exact type
  constructor
  · intro member
    obtain ⟨⟨scanned, index⟩, item, stays⟩ := mem_filterMap.mp member
    have here := mem_zipIdx_iff_getElem?.mp item
    obtain ⟨-, rfl | ⟨merge, among, rfl, caption, -, rfl⟩⟩ := mergedBlock_cases stays
    · exact ⟨scanned, mem_of_getElem? here, rfl⟩
    · have type := tables merge scanned among here
      exact absurd (type.symm.trans code) (by decide)
  · rintro ⟨scanned, member, rfl⟩
    obtain ⟨index, here⟩ := mem_iff_getElem?.mp member
    have captions : ∀ merge ∈ merges text (scannedBlocks text), merge.captionIndex ≠ index := by
      rintro merge among rfl
      obtain ⟨caption, there, prose, -⟩ := (merges_unambiguous among).caption
      cases here.symm.trans there
      exact absurd (prose.symm.trans code) (by decide)
    obtain ⟨kept, stays⟩ : ∃ kept, mergedBlock (merges text (scannedBlocks text)) (scannedBlocks text)
        (scanned, index) = some kept := by
      obtain ⟨kept, stays, -⟩ := mergedBlock_stays scanned captions merges_tables
      exact ⟨kept, stays⟩
    have same : kept = scanned.block := by
      obtain ⟨-, same | ⟨merge, among, rfl, -⟩⟩ := mergedBlock_cases stays
      · exact same
      · have type := tables merge scanned among here
        exact absurd (type.symm.trans code) (by decide)
    exact mem_filterMap.mpr ⟨(scanned, index), mem_zipIdx_iff_getElem?.mpr here, same ▸ stays⟩

theorem scanBlocks_code (byte : Nat) :
    (∃ block ∈ scanBlocks text, block.type = .code ∧ block.start ≤ byte ∧ byte < block.stop) ↔
      ∃ run ∈ codeRuns (emissions text), run.1.start ≤ byte ∧ byte < run.2.stop := by
  have shapes := scanBlocks_map text (fun block => (block.type, rangeOf block)) fun _ _ => rfl
  have runs : (∃ run ∈ codeRuns (emissions text), run.1.start ≤ byte ∧ byte < run.2.stop) ↔
      ∃ call ∈ emissions text, call.type = .code ∧ call.first.start ≤ byte ∧ byte < call.last.stop := by
    simp [codeRuns, and_assoc]
  rw [runs, ← (scannedBlocks_parts text).within byte]
  constructor
  · rintro ⟨block, member, code, inside⟩
    have shape : (block.type, rangeOf block) ∈ (scanBlocks text).map fun block => (block.type, rangeOf block) :=
      mem_map_of_mem member
    rw [shapes] at shape
    obtain ⟨kept, among, same⟩ := mem_map.mp shape
    obtain ⟨type, range⟩ := Prod.mk.inj same
    obtain ⟨starts, stops⟩ := Prod.mk.inj range
    obtain ⟨scanned, there, rfl⟩ := (mem_merged_code (type.trans code)).mp among
    exact ⟨scanned, there, type.trans code, by omega⟩
  · rintro ⟨scanned, member, code, inside⟩
    have among := (mem_merged_code code).mpr ⟨scanned, member, rfl⟩
    have shape : (scanned.block.type, rangeOf scanned.block) ∈
        (merged (merges text (scannedBlocks text)) (scannedBlocks text)).map fun block =>
          (block.type, rangeOf block) := mem_map_of_mem among
    rw [← shapes] at shape
    obtain ⟨block, there, same⟩ := mem_map.mp shape
    obtain ⟨type, range⟩ := Prod.mk.inj same
    obtain ⟨starts, stops⟩ := Prod.mk.inj range
    exact ⟨block, there, type.trans code, by omega⟩

/-- A unit is in a block of code exactly when it is in a fence. -/
theorem code_fenced (text : Text) (fed : Fed text) (unit : Nat) :
    (∃ block ∈ scanBlocks text, block.type = .code ∧ block.start ≤ byteAt text unit ∧
      byteAt text unit < block.stop) ↔
      ∃ range ∈ fencedCodeRanges text, range.start ≤ unit ∧ unit < range.stop := by
  have ranges : (∃ range ∈ fencedCodeRanges text, range.start ≤ unit ∧ unit < range.stop) ↔
      ∃ units ∈ (fencedCodeRanges text).map rangeUnits, units.1 ≤ unit ∧ unit < units.2 := by
    simp [rangeUnits]
  have runs : (∃ units ∈ (codeRuns (emissions text)).map runUnits, units.1 ≤ unit ∧ unit < units.2) ↔
      ∃ run ∈ codeRuns (emissions text), run.1.charStart ≤ unit ∧ unit < run.2.charStop := by
    simp [runUnits]
  rw [ranges, fencedCodeRanges_runs fed, runs, scanBlocks_code]
  have places : ∀ run ∈ codeRuns (emissions text),
      (run.1.start ≤ byteAt text unit ↔ run.1.charStart ≤ unit) ∧
        (byteAt text unit < run.2.stop ↔ unit < run.2.charStop) := by
    intro run member
    obtain ⟨call, among, rfl⟩ := mem_map.mp member
    have lies := (emissions_laid text).2 call (mem_filter.mp among).1
    have start := lies.starts.units unit
    refine ⟨?_, lies.stops.units unit⟩
    rw [← Nat.not_lt, start, Nat.not_lt]
  constructor
  · rintro ⟨run, member, start, stop⟩
    obtain ⟨starts, stops⟩ := places run member
    exact ⟨run, member, starts.mp start, stops.mp stop⟩
  · rintro ⟨run, member, start, stop⟩
    obtain ⟨starts, stops⟩ := places run member
    exact ⟨run, member, starts.mpr start, stops.mpr stop⟩

def sampleFence : Text := [97, 13, 10, 96, 96, 96, 10, 120]

theorem sample_code_fenced :
    (∃ block ∈ scanBlocks sampleFence, block.type = .code ∧ block.start ≤ byteAt sampleFence 7 ∧
      byteAt sampleFence 7 < block.stop) ↔
      ∃ range ∈ fencedCodeRanges sampleFence, range.start ≤ 7 ∧ 7 < range.stop := by
  have fed : Fed sampleFence := by
    intro place found
    have within := (List.getElem?_eq_some_iff.mp found).1
    simp only [sampleFence, length_cons, length_nil] at within
    interval_cases place <;> simp_all [sampleFence]
  exact code_fenced sampleFence fed 7

end

end Blocks
