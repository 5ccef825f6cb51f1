import Eliot.Collections.Fallible
import Eliot.Tools.Reading
import Eliot.Tools.Search

namespace Tools
open Text Context List Fallible
open Utf8 (continuation Boundary)
open Blocks (decoded)

section

variable {characters : List Char} {bytes : Bytes} {labels : List LabelRange} {start place : Nat}

theorem continued_run (bytes : Bytes) :
    let run := (bytes.takeWhile fun byte => continuation (some byte)).length
    continuation bytes[run]? = false ∧ ∀ place < run, continuation bytes[place]? = true := by
  induction bytes with
  | nil => exact ⟨rfl, fun place before => absurd before (Nat.not_lt_zero _)⟩
  | cons byte bytes ih =>
    dsimp only at ih ⊢
    by_cases more : continuation (some byte) = true
    · rw [takeWhile_cons, if_pos more, length_cons, getElem?_cons_succ]
      refine ⟨ih.1, ?_⟩
      intro place before
      cases place with
      | zero => exact more
      | succ place =>
        rw [getElem?_cons_succ]
        exact ih.2 place (Nat.lt_of_succ_lt_succ before)
    · rw [takeWhile_cons, if_neg more]
      exact ⟨by simpa using more, fun place before => absurd before (Nat.not_lt_zero _)⟩

theorem forward_first (bytes : Bytes) (place : Nat) :
    continuation bytes[forward bytes place]? = false ∧
      ∀ between, place ≤ between → between < forward bytes place → continuation bytes[between]? = true := by
  obtain ⟨stops, goes⟩ := continued_run (bytes.drop place)
  unfold forward
  constructor
  · rw [getElem?_drop] at stops
    exact stops
  · intro between low high
    have inside := goes (between - place) (by omega)
    rw [getElem?_drop, Nat.add_sub_cancel' low] at inside
    exact inside

theorem forward_le {bytes : Bytes} {place : Nat} (within : place ≤ bytes.length) : forward bytes place ≤ bytes.length := by
  unfold forward
  have size := ( takeWhile_prefix (fun byte => continuation (some byte)) (l := bytes.drop place)).length_le
  rw [length_drop] at size
  omega

theorem firstPageUnitEnd_first (layout : Layout characters bytes labels) (safe : Safe characters labels start)
    (before : start < bytes.length) :
    Safe characters labels (firstPageUnitEnd bytes start labels) ∧ start < firstPageUnitEnd bytes start labels ∧
      ∀ place, Safe characters labels place → start < place → firstPageUnitEnd bytes start labels ≤ place := by
  unfold firstPageUnitEnd
  cases found : labels.find? (·.start == start) with
  | some label =>
    have member := mem_of_find?_eq_some found
    have here : label.start = start := by simpa using find?_some found
    have filled := (layout.shapes label member).filled
    dsimp only
    refine ⟨layout.safe_stop member, by omega, ?_⟩
    intro place cut after
    have outside := cut.2 label member
    omega
  | none =>
    dsimp only
    rw [if_neg (by omega)]
    obtain ⟨stops, goes⟩ := forward_first bytes (start + 1)
    have low : start + 1 ≤ forward bytes (start + 1) := Nat.le_add_right _ _
    have first : ∀ place, Boundary characters place → start < place → forward bytes (start + 1) ≤ place := by
      intro place cut after
      by_contra short
      have continued := goes place after (by omega)
      have starts := cut.start
      rw [← layout.encoded, continued] at starts
      cases starts
    refine ⟨⟨?_, ?_⟩, low, fun place cut after => first place cut.1 after⟩
    · refine Utf8.boundary_of_start (layout.encoded ▸ forward_le before) ?_
      rw [← layout.encoded]
      exact stops
    · intro range member inside
      have other : range.start ≠ start := by
        intro same
        have missed := find?_eq_none.mp found range member
        exact missed (by simpa using same)
      have outside := safe.2 range member
      by_cases early : range.start < start
      · omega
      · have late := first range.start (layout.shapes range member).starts (by omega)
        omega

end

theorem size_append_ascii (front : Text) {unit : Nat} (small : unit < 128) (rest : Text) :
    (encode (front ++ unit :: rest)).length = (encode front).length + (encode (unit :: rest)).length := by
  have whole : Whole front (unit :: rest) := by
    refine whole_of_start ?_
    show isLow unit = false
    unfold isLow
    simp
    omega
  rw [encode_append whole, length_append]

section

theorem fits_least {body longer : Text} (filled : body ≠ []) (fit : fits longer (minimumTokensFor body) = true) :
    (encode longer).length ≤ (encode body).length + 2 := by
  have positive := encode_pos filled
  unfold fits minimumTokensFor at fit
  rw [decide_eq_true_eq] at fit
  omega

variable {page : SavedPage} {bytes : Bytes} {labels : List LabelRange} {start stop first tokens : Nat}

def chunkLine (bytes : Bytes) (start stop : Nat) : Text :=
  prose "\n\nBody UTF-8 bytes [" rfl ++ decimal start ++ [44] ++ decimal stop ++ prose ") of " rfl ++
    decimal bytes.length ++ prose " (consumed through byte " rfl ++ decimal stop ++ prose ").\n\n" rfl

theorem ascii_chunkLine (bytes : Bytes) (start stop : Nat) : Ascii (chunkLine bytes start stop) := by
  have opening : Ascii (prose "\n\nBody UTF-8 bytes [" rfl) := by unfold Ascii; decide
  have comma : Ascii [44] := by unfold Ascii; decide
  have total : Ascii (prose ") of " rfl) := by unfold Ascii; decide
  have consumed : Ascii (prose " (consumed through byte " rfl) := by unfold Ascii; decide
  have closing : Ascii (prose ").\n\n" rfl) := by unfold Ascii; decide
  unfold chunkLine
  exact (((((((opening.append (ascii_decimal _)).append comma).append (ascii_decimal _)).append total).append
    (ascii_decimal _)).append consumed).append (ascii_decimal _)).append closing

theorem size_pageText (chunk rest : Text) :
    (encode (pageText page bytes start stop chunk (10 :: rest))).length =
      (encode (pageHeader page)).length + (chunkLine bytes start stop).length + (encode chunk).length +
        (encode (10 :: rest)).length := by
  have parts : pageText page bytes start stop chunk (10 :: rest) =
      pageHeader page ++ (chunkLine bytes start stop ++ (chunk ++ 10 :: rest)) := by
    unfold pageText chunkLine
    simp only [append_assoc]
  have opened : ∃ others, chunkLine bytes start stop = 10 :: others := ⟨_, rfl⟩
  obtain ⟨others, line⟩ := opened
  have front := size_append_ascii (pageHeader page) (by decide : 10 < 128) (others ++ (chunk ++ 10 :: rest))
  rw [← cons_append, ← line, size_ascii_append (ascii_chunkLine _ _ _),
    size_append_ascii chunk (by decide)] at front
  rw [parts, front]
  omega

theorem pageText_filled (chunk next : Text) : pageText page bytes start stop chunk next ≠ [] := by
  have opening : prose "## " rfl ≠ [] := cons_ne_nil _ _
  unfold pageText pageHeader
  simp [opening]

theorem nextLine_opens (page : SavedPage) (bytes : Bytes) (stop : Nat) :
    ∃ rest, nextLine page bytes stop = 10 :: rest := by
  unfold nextLine
  split
  · exact ⟨_, rfl⟩
  · exact ⟨_, rfl⟩

theorem chunkLine_mono (order : first ≤ stop) :
    (chunkLine bytes start first).length ≤ (chunkLine bytes start stop).length := by
  have digits := decimal_length_mono order
  unfold chunkLine
  simp only [length_append]
  omega

theorem nextLine_mono (order : first ≤ stop) (more : stop < bytes.length) :
    (encode (nextLine page bytes first)).length ≤ (encode (nextLine page bytes stop)).length := by
  have digits := decimal_length_mono order
  have opening : Ascii (prose "\n\nNext cursor: " rfl) := by unfold Ascii; decide
  have middle : Ascii (prose "; continue with headRevisionId " rfl) := by unfold Ascii; decide
  have size : ∀ place < bytes.length, (encode (nextLine page bytes place)).length =
      (prose "\n\nNext cursor: " rfl ++ decimal place ++ prose "; continue with headRevisionId " rfl).length +
        (encode (page.headRevisionId ++ [46])).length := by
    intro place before
    rw [nextLine, if_pos before, append_assoc,
      size_ascii_append ((opening.append (ascii_decimal place)).append middle)]
  rw [size first (by omega), size stop more]
  simp only [length_append]
  omega

theorem pageText_mono {chunk other : Text} (order : first ≤ stop) (more : stop < bytes.length)
    (shorter : (encode chunk).length ≤ (encode other).length) :
    (encode (pageText page bytes start first chunk (nextLine page bytes first))).length ≤
      (encode (pageText page bytes start stop other (nextLine page bytes stop))).length := by
  have line : (chunkLine bytes start first).length ≤ (chunkLine bytes start stop).length := chunkLine_mono order
  have next : (encode (nextLine page bytes first)).length ≤ (encode (nextLine page bytes stop)).length :=
    nextLine_mono order more
  obtain ⟨rest, opened⟩ := nextLine_opens page bytes first
  obtain ⟨others, opened'⟩ := nextLine_opens page bytes stop
  rw [opened, opened'] at next ⊢
  rw [size_pageText, size_pageText]
  omega

theorem chunk_le_pageText (chunk : Text) :
    (encode chunk).length ≤ (encode (pageText page bytes start stop chunk (nextLine page bytes stop))).length := by
  obtain ⟨rest, opened⟩ := nextLine_opens page bytes stop
  rw [opened, size_pageText]
  omega

theorem withSections_longer (result : Text) (visible : Nat) {citations : List Text} (cited : citations ≠ []) :
    (encode result).length + 3 ≤ (encode (withSections result (citationSections citations visible))).length := by
  have filled : ∃ unit section' sections, citationSections citations visible = (unit :: section') :: sections := by
    have some := length_pos_of_ne_nil cited
    unfold citationSections
    by_cases shown : 0 < visible
    · rw [if_pos shown]
      exact ⟨_, _, _, rfl⟩
    · rw [if_neg shown, if_pos (by omega)]
      cases digits : decimal (citations.length - visible) with
      | nil => exact ⟨_, _, _, rfl⟩
      | cons digit digits => exact ⟨_, _, _, rfl⟩
  obtain ⟨unit, section', sections, same⟩ := filled
  have joined : [10, 10].intercalate ((unit :: section') :: sections) ≠ [] := by
    cases sections with
    | nil => simp
    | cons next others => simp [List.intercalate]
  have positive := encode_pos joined
  rw [same, withSections, if_neg (cons_ne_nil _ _), append_assoc, cons_append,
    size_append_ascii result (by decide), size_ascii_cons (by decide), cons_append,
    size_ascii_cons (by decide), nil_append]
  omega

theorem chunkCitations_mono (order : first ≤ stop) (cited : chunkCitations page labels start first ≠ []) :
    chunkCitations page labels start stop ≠ [] := by
  unfold chunkCitations at cited ⊢
  dsimp only at cited ⊢
  rw [ne_eq, map_eq_nil_iff, filter_eq_nil_iff] at cited ⊢
  intro none
  refine cited ?_
  intro citation member inside
  refine none citation member ?_
  rw [contains_iff_mem, mem_map] at inside ⊢
  obtain ⟨label, listed, same⟩ := inside
  rw [mem_filter] at listed
  refine ⟨label, mem_filter.mpr ⟨listed.1, ?_⟩, same⟩
  have bounds := listed.2
  simp only [Bool.and_eq_true, decide_eq_true_eq] at bounds ⊢
  omega

def firstUnitText (page : SavedPage) (bytes : Bytes) (labels : List LabelRange) (start : Nat) : Text :=
  let stop := firstPageUnitEnd bytes start labels
  pageText page bytes start stop ((decoded (slice bytes start stop)).getD []) (nextLine page bytes stop)

theorem firstUnit_eq (page : SavedPage) (bytes : Bytes) (labels : List LabelRange) (start : Nat) :
    firstUnit page bytes labels start = .minimum (firstUnitText page bytes labels start) nextChunk := rfl

theorem withSections_le (result : Text) (sections : List Text) :
    (encode result).length ≤ (encode (withSections result sections)).length := by
  unfold withSections
  split
  · exact Nat.le_refl _
  · rw [append_assoc, cons_append, size_append_ascii result (by decide)]
    omega

theorem within_of_fits (layout : Layout page.characters bytes labels) (safe : Safe page.characters labels start)
    (ends : Safe page.characters labels stop) (order : start ≤ stop) {sections : List Text}
    (fit : fits (withSections (pageText page bytes start stop ((decoded (slice bytes start stop)).getD [])
      (nextLine page bytes stop)) sections) tokens = true) : stop ≤ start + tokens * 3 := by
  obtain ⟨chars, decodes, encodes⟩ := decoded_between layout safe.1 ends.1 order
  rw [decodes, Option.getD_some, fits, decide_eq_true_eq] at fit
  have around := withSections_le (pageText page bytes start stop (chars.flatMap units) (nextLine page bytes stop))
    sections
  have chunk : (encode (chars.flatMap units)).length ≤
      (encode (pageText page bytes start stop (chars.flatMap units) (nextLine page bytes stop))).length :=
    chunk_le_pageText _
  have size : (encode (chars.flatMap units)).length = stop - start := by
    rw [encode, scalars_units, ← encodes]
    unfold slice
    rw [length_take, length_drop]
    have within := layout.safe_le ends
    omega
  omega

theorem pageChunk_reaches (layout : Layout page.characters bytes labels) (safe : Safe page.characters labels start)
    (before : start < bytes.length) (uncited : chunkCitations page labels start (firstPageUnitEnd bytes start labels) = [])
    (room : fits (firstUnitText page bytes labels start) tokens = true) (ends : Safe page.characters labels stop)
    (order : firstPageUnitEnd bytes start labels ≤ stop) :
    ∃ last body, pageChunk page bytes labels start tokens stop = .ok (.chunk last body) := by
  obtain ⟨-, after, first⟩ := firstPageUnitEnd_first layout safe before
  have unit := (firstPageUnitEnd_first layout safe before).1
  unfold firstUnitText at room
  dsimp only at room
  generalize firstPageUnitEnd bytes start labels = unitEnd at *
  induction stop using Nat.strongRecOn with
  | ind stop ih =>
    obtain ⟨chars, decodes, -⟩ := decoded_between layout safe.1 ends.1 (by omega)
    rw [pageChunk, if_neg (by omega), decodes]
    dsimp only
    cases found : fittingCitations (pageText page bytes start stop (chars.flatMap units) (nextLine page bytes stop))
        (chunkCitations page labels start stop) tokens (chunkCitations page labels start stop).length with
    | some candidate => exact ⟨stop, candidate, rfl⟩
    | none =>
      have longer : unitEnd < stop := by
        by_contra same
        have here : unitEnd = stop := by omega
        subst here
        rw [decodes, Option.getD_some] at room
        rw [uncited, length_nil, fittingCitations] at found
        have bare : ∀ result : Text, withSections result (citationSections [] 0) = result := fun _ => rfl
        rw [bare, if_pos room] at found
        cases found
      obtain ⟨again, -, high, last⟩ := safePageChunkEnd_last layout safe (by omega : start ≤ stop - 1)
      have reached := last unitEnd unit (by omega)
      dsimp only
      rw [dif_neg (by omega)]
      exact ih _ (by omega) again reached

theorem chunkAnswer_advised (layout : Layout page.characters bytes labels) (safe : Safe page.characters labels start)
    (before : start < bytes.length) (ends : Safe page.characters labels stop) (after : start < stop) {body : Text}
    (answer : ChunkAnswer page bytes labels start (minimumTokensFor (firstUnitText page bytes labels start)) stop body) :
    chunkCitations page labels start (firstPageUnitEnd bytes start labels) = [] ∨ stop = bytes.length := by
  obtain ⟨fit, chars, encodes, visible, -, same⟩ := answer
  obtain ⟨unit, -, first⟩ := firstPageUnitEnd_first layout safe before
  have order := first stop ends after
  have low := (firstPageUnitEnd_first layout safe before).2.1
  by_contra neither
  rw [not_or] at neither
  obtain ⟨cited, inside⟩ := neither
  have more : stop < bytes.length := Nat.lt_of_le_of_ne (layout.safe_le ends) inside
  have sections := withSections_longer
    (pageText page bytes start stop (chars.flatMap units) (nextLine page bytes stop)) visible
    (chunkCitations_mono order cited)
  obtain ⟨others, decodes, encodes'⟩ := decoded_between layout safe.1 unit.1 low.le
  have shorter : (encode (others.flatMap units)).length ≤ (encode (chars.flatMap units)).length := by
    rw [encode, encode, scalars_units, scalars_units, ← encodes, ← encodes']
    unfold slice
    rw [length_take, length_take]
    omega
  have mono : (encode (pageText page bytes start (firstPageUnitEnd bytes start labels) (others.flatMap units)
      (nextLine page bytes (firstPageUnitEnd bytes start labels)))).length ≤
        (encode (pageText page bytes start stop (chars.flatMap units) (nextLine page bytes stop))).length :=
    pageText_mono order more shorter
  have unitText : firstUnitText page bytes labels start = pageText page bytes start (firstPageUnitEnd bytes start labels)
      (others.flatMap units) (nextLine page bytes (firstPageUnitEnd bytes start labels)) := by
    rw [firstUnitText, decodes, Option.getD_some]
  rw [← unitText] at mono
  rw [← same] at sections
  have filled : firstUnitText page bytes labels start ≠ [] := pageText_filled _ _
  have least := fits_least filled fit
  omega

theorem fittingCitations_finds {result : Text} {citations : List Text} {visible count : Nat} (order : visible ≤ count)
    (fit : fits (withSections result (citationSections citations visible)) tokens = true) :
    ∃ candidate, fittingCitations result citations tokens count = some candidate := by
  induction count with
  | zero =>
    rw [Nat.le_zero.mp order] at fit
    rw [fittingCitations, if_pos fit]
    exact ⟨_, rfl⟩
  | succ count ih =>
    rw [fittingCitations]
    split
    · exact ⟨_, rfl⟩
    · rename_i missed
      refine ih (Nat.le_of_lt_succ (Nat.lt_of_le_of_ne order ?_))
      intro same
      rw [same] at fit
      exact missed fit

def AdviceServes (page : SavedPage) (start : Nat) : Prop :=
  let bytes := encode page.body
  let labels := persistentLabels page.body
  let citations := chunkCitations page labels start bytes.length
  let rest := pageText page bytes start bytes.length ((decoded (slice bytes start bytes.length)).getD []) noNextCursor
  chunkCitations page labels start (firstPageUnitEnd bytes start labels) = [] ∨
    ∃ visible ≤ citations.length, fits (withSections rest (citationSections citations visible))
      (minimumTokensFor (firstUnitText page bytes labels start)) = true

variable {body purpose : Text}

theorem safe_of_answer {reply : PageReply} (answer : pageFrom page start tokens = .ok reply) :
    Safe page.characters (persistentLabels page.body) start := by
  have layout := page_layout page
  unfold pageFrom at answer
  dsimp only at answer
  split at answer
  · cases answer
  rename_i inside
  split at answer
  · cases answer
  rename_i apart
  rw [not_or] at inside
  constructor
  · refine Utf8.boundary_of_start (layout.encoded ▸ Nat.le_of_not_lt inside.1) ?_
    rw [← layout.encoded]
    by_contra continued
    have within : start < (encode page.body).length := by
      by_contra outside
      rw [getElem?_eq_none (Nat.not_lt.mp outside)] at continued
      exact continued rfl
    exact inside.2 ⟨within, by simpa using continued⟩
  · intro range member bounds
    refine apart (any_eq_true.mpr ⟨range, member, ?_⟩)
    simpa using bounds

theorem advice_firstUnit (before : start < (encode page.body).length)
    (advice : pageFrom page start tokens = .ok (.minimum body purpose)) :
    body = firstUnitText page (encode page.body) (persistentLabels page.body) start := by
  have layout := page_layout page
  have safe := safe_of_answer advice
  rw [pageFrom_safe page tokens safe, if_neg (Nat.ne_of_lt before)] at advice
  obtain ⟨ends, low, -, -⟩ := safePageChunkEnd_last layout safe (Nat.le_add_right start (tokens * 3))
  rcases pageChunk_answers layout safe ends low with unit | ⟨last, text, chunk, -⟩
  · rw [unit, firstUnit_eq] at advice
    exact (PageReply.minimum.inj (Except.ok.inj advice)).1.symm
  · rw [chunk] at advice
    cases advice

theorem pageFrom_advised (before : start < (encode page.body).length)
    (advice : pageFrom page start tokens = .ok (.minimum body purpose)) :
    (∃ stop text, pageFrom page start (minimumTokensFor body) = .ok (.chunk stop text)) ↔ AdviceServes page start := by
  have layout := page_layout page
  have safe := safe_of_answer advice
  rw [advice_firstUnit before advice]
  constructor
  · rintro ⟨stop, text, served⟩
    rcases pageFrom_answers page
        (minimumTokensFor (firstUnitText page (encode page.body) (persistentLabels page.body) start)) safe with
      ⟨_, _, refused⟩ | ⟨_, _, ended⟩ | ⟨last, shown, same, ends, after, answer⟩
    · rw [served] at refused
      cases refused
    · rw [served] at ended
      cases ended
    · rcases chunkAnswer_advised layout safe before ends after answer with uncited | total
      · exact .inl uncited
      · subst total
        obtain ⟨fit, chars, encodes, visible, few, text'⟩ := answer
        refine .inr ⟨visible, few, ?_⟩
        have decodes : decoded (slice (encode page.body) start (encode page.body).length) =
            some (chars.flatMap units) := by
          rw [encodes, decoded, Utf8.decode_encode]
          rfl
        have ending : nextLine page (encode page.body) (encode page.body).length = noNextCursor :=
          if_neg (Nat.lt_irrefl _)
        rw [ending] at text'
        rw [decodes, Option.getD_some, ← text']
        exact fit
  · intro serves
    rw [pageFrom_safe page _ safe, if_neg (Nat.ne_of_lt before)]
    generalize advised : minimumTokensFor (firstUnitText page (encode page.body) (persistentLabels page.body) start) =
      most
    obtain ⟨ends, low, high, last⟩ := safePageChunkEnd_last layout safe (Nat.le_add_right start (most * 3))
    rcases serves with uncited | ⟨visible, few, fit⟩
    · have room := fits_minimum (firstUnitText page (encode page.body) (persistentLabels page.body) start)
      rw [advised] at room
      obtain ⟨unit, after, -⟩ := firstPageUnitEnd_first layout safe before
      have bare : fits (withSections (firstUnitText page (encode page.body) (persistentLabels page.body) start) []) most =
        true := room
      exact pageChunk_reaches layout safe before uncited room ends
        (last _ unit (within_of_fits layout safe unit after.le bare))
    · rw [advised] at fit
      have ending : nextLine page (encode page.body) (encode page.body).length = noNextCursor :=
        if_neg (Nat.lt_irrefl _)
      rw [← ending] at fit
      have total := last _ layout.safe_total (within_of_fits layout safe layout.safe_total before.le fit)
      have same := Nat.le_antisymm (layout.safe_le ends) total
      obtain ⟨chars, decodes, -⟩ := decoded_between layout safe.1 layout.safe_total.1 before.le
      rw [decodes, Option.getD_some] at fit
      obtain ⟨candidate, found⟩ := fittingCitations_finds few fit
      rw [same, pageChunk, if_neg (by omega), decodes]
      dsimp only
      rw [found]
      exact ⟨_, _, rfl⟩

theorem pageFrom_end (advice : pageFrom page (encode page.body).length tokens = .ok (.minimum body purpose)) :
    (∃ text, pageFrom page (encode page.body).length (minimumTokensFor body) = .ok (.done text)) ∧
      (∀ more stop text, pageFrom page (encode page.body).length more ≠ .ok (.chunk stop text)) ∧
      AdviceServes page (encode page.body).length := by
  have layout := page_layout page
  have safe := safe_of_answer advice
  refine ⟨?_, ?_, .inl ?_⟩
  · rw [pageFrom_safe page tokens safe, if_pos rfl] at advice
    split at advice
    · cases Except.ok.inj advice
    · have same := (PageReply.minimum.inj (Except.ok.inj advice)).1
      rw [pageFrom_safe page _ safe, if_pos rfl, ← same, if_pos (fits_minimum _)]
      exact ⟨_, rfl⟩
  · intro more stop text chunk
    rw [pageFrom_safe page more safe, if_pos rfl] at chunk
    split at chunk
    · cases Except.ok.inj chunk
    · cases Except.ok.inj chunk
  · have none : ∀ label ∈ persistentLabels page.body, ¬ (encode page.body).length ≤ label.start := by
      intro label member late
      have shape := layout.shapes label member
      have within := layout.safe_le (layout.safe_stop member)
      have filled := shape.filled
      omega
    have empty : ∀ stop, (persistentLabels page.body).filter (fun label =>
        (encode page.body).length ≤ label.start && label.stop ≤ stop) = [] := by
      intro stop
      rw [filter_eq_nil_iff]
      intro label member inside
      simp only [Bool.and_eq_true, decide_eq_true_eq] at inside
      exact none label member inside.1
    unfold chunkCitations
    dsimp only
    rw [empty]
    simp

end

section

inductive Request where
  | listProjects (input : ListProjectsInput)
  | listSources (input : ListSourcesInput)
  | outline (input : OutlineInput)
  | findClaims (input : SearchInput)
  | search (input : SearchInput)
  | getPage (input : PageInput)

def Request.withBudget (tokens : Int) : Request → Request
  | listProjects input => listProjects { input with maxTokens := some tokens }
  | listSources input => listSources { input with maxTokens := some tokens }
  | outline input => outline { input with maxTokens := some tokens }
  | findClaims input => findClaims { input with maxTokens := some tokens }
  | search input => search { input with maxTokens := some tokens }
  | getPage input => getPage { input with maxTokens := some tokens }

def answer (storage : Storage) : Request → Except LibraryError Reply
  | .listProjects input => listProjectsTool storage input
  | .listSources input => listSourcesTool storage input
  | .outline input => outlineTool storage input
  | .findClaims input => findClaimsTool storage input
  | .search input => searchTool storage input
  | .getPage input => (getPageTool storage input).map PageReply.toReply

def Served (storage : Storage) (request : Request) : Prop :=
  ∃ rows body, answer storage request = .ok (.page rows body) ∧
    (rows = 0 → ∀ tokens shown other, answer storage (request.withBudget tokens) = .ok (.page shown other) → shown = 0)

def Sufficient (storage : Storage) : Request → Prop
  | .getPage input => ∀ page, storage.page input.projectId input.pageId = .ok page →
      AdviceServes page (input.cursor.getD 0).toNat
  | _ => True

def Advising (reply : Nat → Reply) : Prop :=
  ∀ tokens body purpose, reply tokens = .minimum body purpose →
    ∃ rows page, reply (minimumTokensFor body) = .page rows page ∧
      (rows = 0 → ∀ more shown other, reply more = .page shown other → shown = 0)

theorem listing_advising (heading empty : Text) (rows : List Text) (cursor : Nat → Text) {firstCursor : Text}
    (same : firstCursor = cursor (min 1 rows.length)) :
    Advising (listing heading empty rows cursor firstCursor) := by
  intro tokens body purpose advice
  obtain ⟨shown, page, answered, positive⟩ := listing_advised same advice
  refine ⟨shown, page, answered, ?_⟩
  intro none more others other listed
  have empty : rows = [] := by
    by_contra filled
    exact absurd none (Nat.pos_iff_ne_zero.mp (positive filled))
  subst empty
  unfold listing at listed
  cases found : listingOf heading _ [] cursor more ([] : List Text).length with
  | none =>
    rw [found] at listed
    cases listed
  | some reply =>
    obtain ⟨count, text, rfl, few, -⟩ := listingOf_page found
    rw [found] at listed
    cases listed
    exact Nat.le_zero.mp few

theorem withinBudget_advising (body : Text) : Advising (withinBudget body) := by
  intro tokens advised purpose advice
  unfold withinBudget at advice ⊢
  split at advice
  · cases advice
  · cases advice
    rw [if_pos (fits_minimum _)]
    refine ⟨0, body, rfl, ?_⟩
    intro _ more shown other page
    split at page
    · cases page
      rfl
    · cases page

def budgeted (maxTokens : Option Int) (replies : Except LibraryError (Nat → Reply)) : Except LibraryError Reply := do
  let limit ← outputBudget maxTokens
  let reply ← replies
  return reply limit

theorem outputBudget_minimum {body : Text} (most : minimumTokensFor body ≤ 4000) :
    outputBudget (some (minimumTokensFor body)) = .ok (minimumTokensFor body) := by
  have least : 1 ≤ minimumTokensFor body := Nat.le_max_left _ _
  rw [outputBudget, if_neg (by rw [maxToolOutputTokens]; omega), Int.toNat_natCast]

variable {storage : Storage} {request : Request} {body purpose : Text}

theorem withBudget_withBudget (request : Request) (tokens more : Int) :
    (request.withBudget tokens).withBudget more = request.withBudget more := by
  cases request <;> rfl

theorem served_of_budgeted {maxTokens : Option Int} {replies : Except LibraryError (Nat → Reply)}
    (now : answer storage request = budgeted maxTokens replies)
    (later : ∀ tokens : Int, answer storage (request.withBudget tokens) = budgeted (some tokens) replies)
    (advising : ∀ reply, replies = .ok reply → Advising reply)
    (advice : answer storage request = .ok (.minimum body purpose)) (most : minimumTokensFor body ≤ 4000) :
    Served storage (request.withBudget (minimumTokensFor body)) := by
  rw [now] at advice
  obtain ⟨limit, -, rest⟩ := bind_ok advice
  obtain ⟨reply, ready, same⟩ := bind_ok rest
  obtain ⟨rows, page, answered, none⟩ := advising reply ready limit body purpose (Except.ok.inj same)
  refine ⟨rows, page, ?_, ?_⟩
  · rw [later, budgeted, outputBudget_minimum most, ready]
    exact congrArg Except.ok answered
  · intro empty tokens shown other listed
    rw [withBudget_withBudget, later] at listed
    obtain ⟨more, -, rest⟩ := bind_ok listed
    obtain ⟨reply', ready', same'⟩ := bind_ok rest
    rw [ready] at ready'
    cases ready'
    exact none empty more shown other (Except.ok.inj same')

theorem listProjectsTool_budgeted (storage : Storage) (input : ListProjectsInput) :
    listProjectsTool storage input = budgeted input.maxTokens do
      let page ← storage.listProjects input.cursor
      return projectsReply page := by
  simp only [listProjectsTool, budgeted, bind_assoc, pure_bind]

theorem listSourcesTool_budgeted (storage : Storage) (input : ListSourcesInput) :
    listSourcesTool storage input = budgeted input.maxTokens
      (match input.sourceIds with
        | none => do
          let page ← storage.listSources input.projectId input.cursor
          return sourcesReply input.projectId page
        | some selected => do
          match ← selectedSources storage input selected with
          | none => return withinBudget (nothingSelected input.projectId)
          | some sources => return sourcesReply input.projectId ⟨sources, none⟩) := by
  unfold listSourcesTool budgeted
  cases input.sourceIds with
  | none => simp only [bind_assoc, pure_bind]
  | some selected =>
    cases outputBudget input.maxTokens with
    | error error => rfl
    | ok limit =>
      simp only [bind, Except.bind]
      cases selectedSources storage input selected with
      | error error => rfl
      | ok sources => cases sources <;> rfl

theorem outlineTool_budgeted (storage : Storage) (input : OutlineInput) :
    outlineTool storage input = budgeted input.maxTokens do
      let (selected, blocks) ← outlineBlocks storage input
      let bytes ← readText storage selected none
      return outlineReply selected (Blocks.citableIdsFromBytes blocks bytes) blocks := by
  simp only [outlineTool, budgeted, bind_assoc, pure_bind]

theorem findClaimsTool_budgeted (storage : Storage) (input : SearchInput) :
    findClaimsTool storage input = budgeted input.maxTokens do
      let (spec, hits) ← findClaims storage input
      return claimsReply spec hits := by
  simp only [findClaimsTool, budgeted, bind_assoc, pure_bind]

theorem searchTool_budgeted (storage : Storage) (input : SearchInput) :
    searchTool storage input = budgeted input.maxTokens do
      match ← search storage input with
      | .nothing => return withinBudget nothingToSearch
      | .hits hits unavailable => return searchReply hits unavailable := by
  unfold searchTool budgeted
  cases outputBudget input.maxTokens with
  | error error => rfl
  | ok limit =>
    cases search storage input with
    | error error => rfl
    | ok searched => cases searched <;> rfl

theorem projectsReply_advising (page : ProjectPage) : Advising (projectsReply page) := by
  refine listing_advising _ _ _ _ ?_
  rw [length_map, firstPageCursor_eq]

theorem sourcesReply_advising (projectId : Text) (page : SourcePage) : Advising (sourcesReply projectId page) := by
  refine listing_advising _ _ _ _ ?_
  rw [length_map, firstPageCursor_eq]

theorem claimsReply_advising (spec : StatementQuery) (hits : List ClaimHit) : Advising (claimsReply spec hits) := by
  refine listing_advising _ _ _ _ ?_
  rw [length_map, firstCursor_eq]

theorem searchReply_advising (hits : List SearchHit) (unavailable : Nat) : Advising (searchReply hits unavailable) := by
  refine listing_advising _ _ _ _ ?_
  rw [length_map, firstCursor_eq]

theorem outlineReply_advising (selected : ScopedRevision) (citable : List Nat) (blocks : List Blocks.Block) :
    Advising (outlineReply selected citable blocks) := by
  refine listing_advising _ _ _ _ ?_
  cases blocks with
  | nil => rfl
  | cons block rest =>
    have one : min 1 (((block :: rest).take maxRows).map (outlineRow selected.revisionId citable)).length = 1 := by
      simp [maxRows]
    rw [one]

theorem getPageTool_page {input : PageInput} {reply : PageReply} (answered : getPageTool storage input = .ok reply) :
    ∃ page, storage.page input.projectId input.pageId = .ok page ∧
      (∃ limit, outputBudget input.maxTokens = .ok limit) ∧
      ∀ tokens limit, outputBudget tokens = .ok limit →
        getPageTool storage { input with maxTokens := tokens } = pageFrom page (input.cursor.getD 0).toNat limit := by
  obtain ⟨limit, budget, rest⟩ := bind_ok answered
  obtain ⟨page, stored, rest⟩ := bind_ok rest
  refine ⟨page, stored, ⟨limit, budget⟩, ?_⟩
  intro tokens more allowed
  unfold getPageTool
  rw [allowed, stored]
  simp only [bind, Except.bind] at rest ⊢
  by_cases headless : input.cursor.isSome ∧ input.headRevisionId = none
  · rw [if_pos headless] at rest
    cases rest
  rw [if_neg headless] at rest ⊢
  by_cases changed : (input.headRevisionId.any (· != page.headRevisionId)) = true
  · rw [if_pos changed] at rest
    cases rest
  rw [if_neg changed] at rest ⊢
  by_cases negative : input.cursor.getD 0 < 0
  · rw [if_pos negative] at rest
    cases rest
  rw [if_neg negative]

theorem map_toReply {result : Except LibraryError PageReply} {rows : Nat} {body : Text}
    (answered : result.map PageReply.toReply = .ok (.page rows body)) :
    (∃ stop, result = .ok (.chunk stop body) ∧ rows = 1) ∨ result = .ok (.done body) ∧ rows = 0 := by
  cases result with
  | error error => cases answered
  | ok reply =>
    cases reply with
    | chunk stop text =>
      cases answered
      exact .inl ⟨stop, rfl, rfl⟩
    | done text =>
      cases answered
      exact .inr ⟨rfl, rfl⟩
    | minimum text purpose => cases answered

theorem getPage_served {input : PageInput} (advice : answer storage (.getPage input) = .ok (.minimum body purpose))
    (most : minimumTokensFor body ≤ 4000) :
    Served storage (.getPage { input with maxTokens := some (minimumTokensFor body) }) ↔
      Sufficient storage (.getPage input) := by
  obtain ⟨reply, answered, same⟩ := map_ok advice
  have advice : getPageTool storage input = .ok (.minimum body purpose) := by
    rw [answered]
    cases reply <;> cases same
    rfl
  obtain ⟨page, stored, ⟨limit, allowed⟩, each⟩ := getPageTool_page answered
  have now := each input.maxTokens limit allowed
  have from' : pageFrom page (input.cursor.getD 0).toNat limit = .ok (.minimum body purpose) := by
    rw [← now]
    exact advice
  have again := each _ _ (outputBudget_minimum most)
  have only : Sufficient storage (.getPage input) ↔ AdviceServes page (input.cursor.getD 0).toNat := by
    constructor
    · intro enough
      exact enough page stored
    · intro serves other found
      rw [stored] at found
      cases found
      exact serves
  rw [only]
  have safe := safe_of_answer from'
  by_cases total : (input.cursor.getD 0).toNat = (encode page.body).length
  · rw [total] at from' again ⊢
    obtain ⟨⟨text, ended⟩, never, serves⟩ := pageFrom_end from'
    refine ⟨fun _ => serves, fun _ => ⟨0, text, ?_, ?_⟩⟩
    · show (getPageTool storage _).map PageReply.toReply = _
      rw [again, ended]
      rfl
    · intro _ tokens shown other found
      have found : (getPageTool storage { input with maxTokens := some tokens }).map PageReply.toReply =
        .ok (.page shown other) := found
      rcases map_toReply found with ⟨stop, chunk, -⟩ | ⟨-, none⟩
      · obtain ⟨budget, fine, -⟩ := bind_ok chunk
        rw [each _ _ fine, total] at chunk
        exact absurd chunk (never budget stop other)
      · exact none
  · have before : (input.cursor.getD 0).toNat < (encode page.body).length :=
      Nat.lt_of_le_of_ne ((page_layout page).safe_le safe) total
    rw [← pageFrom_advised before from']
    constructor
    · rintro ⟨rows, text, found, -⟩
      have found : (getPageTool storage { input with maxTokens := some (minimumTokensFor body) }).map
        PageReply.toReply = .ok (.page rows text) := found
      rw [again] at found
      rcases map_toReply found with ⟨stop, chunk, -⟩ | ⟨ended, -⟩
      · exact ⟨stop, text, chunk⟩
      · rcases pageFrom_answers page (minimumTokensFor body) safe with
          ⟨_, _, refused⟩ | ⟨finished, -⟩ | ⟨_, _, chunk, -⟩
        · rw [ended] at refused
          cases refused
        · exact absurd finished total
        · rw [ended] at chunk
          cases chunk
    · rintro ⟨stop, text, chunk⟩
      refine ⟨1, text, ?_, fun none => absurd none Nat.one_ne_zero⟩
      show (getPageTool storage _).map PageReply.toReply = _
      rw [again, chunk]
      rfl

/-- The advised budget brings a complete row or chunk exactly when it is enough. -/
theorem minimum_served (advice : answer storage request = .ok (.minimum body purpose))
    (most : minimumTokensFor body ≤ 4000) :
    Served storage (request.withBudget (minimumTokensFor body)) ↔ Sufficient storage request := by
  cases request with
  | getPage input => exact getPage_served advice most
  | listProjects input =>
    refine iff_of_true (served_of_budgeted (listProjectsTool_budgeted storage input)
      (fun tokens => listProjectsTool_budgeted storage _) ?_ advice most) trivial
    intro reply ready
    obtain ⟨page, -, same⟩ := bind_ok ready
    cases same
    exact projectsReply_advising page
  | listSources input =>
    refine iff_of_true (served_of_budgeted (listSourcesTool_budgeted storage input)
      (fun tokens => listSourcesTool_budgeted storage _) ?_ advice most) trivial
    intro reply ready
    split at ready
    · obtain ⟨page, -, same⟩ := bind_ok ready
      cases same
      exact sourcesReply_advising _ page
    · obtain ⟨found, -, same⟩ := bind_ok ready
      cases found with
      | none =>
        cases same
        exact withinBudget_advising _
      | some sources =>
        cases same
        exact sourcesReply_advising _ _
  | outline input =>
    refine iff_of_true (served_of_budgeted (outlineTool_budgeted storage input)
      (fun tokens => outlineTool_budgeted storage _) ?_ advice most) trivial
    intro reply ready
    obtain ⟨⟨selected, blocks⟩, -, rest⟩ := bind_ok ready
    obtain ⟨bytes, -, same⟩ := bind_ok rest
    cases same
    exact outlineReply_advising _ _ _
  | findClaims input =>
    refine iff_of_true (served_of_budgeted (findClaimsTool_budgeted storage input)
      (fun tokens => findClaimsTool_budgeted storage _) ?_ advice most) trivial
    intro reply ready
    obtain ⟨⟨spec, hits⟩, -, same⟩ := bind_ok ready
    cases same
    exact claimsReply_advising _ _
  | search input =>
    refine iff_of_true (served_of_budgeted (searchTool_budgeted storage input)
      (fun tokens => searchTool_budgeted storage _) ?_ advice most) trivial
    intro reply ready
    obtain ⟨searched, -, same⟩ := bind_ok ready
    cases searched with
    | nothing =>
      cases same
      exact withinBudget_advising _
    | hits hits unavailable =>
      cases same
      exact searchReply_advising _ _

def citedPage : SavedPage where
  id := text "page"
  title := text "Note"
  kind := .note
  stale := false
  headRevisionId := text "head"
  characters := "[R12345678-1234-4234-8234-123456789abc:1] is.".toList
  citations := [⟨text "12345678-1234-4234-8234-123456789abc", text "source", 1, 0, 10, text "Source", false,
    text "[S1:1]"⟩]

def citedPages : Storage := { emptyStorage with page := fun _ _ => .ok citedPage }

def citedRequest (tokens : Int) : Request := .getPage ⟨text "p", text "page", none, none, some tokens⟩

def citedAdvice : Text := firstUnitText citedPage (encode citedPage.body) (persistentLabels citedPage.body) 0

/-- An agent that follows the advice is given the same advice for ever. -/
theorem citedPage_unserved :
    answer citedPages (citedRequest 1) = .ok (.minimum citedAdvice nextChunk) ∧ minimumTokensFor citedAdvice = 73 ∧
      answer citedPages (citedRequest 73) = .ok (.minimum citedAdvice nextChunk) ∧
      ¬ Served citedPages (citedRequest 73) := by
  have first : answer citedPages (citedRequest 1) = .ok (.minimum citedAdvice nextChunk) := by decide +kernel
  have again : answer citedPages (citedRequest 73) = .ok (.minimum citedAdvice nextChunk) := by decide +kernel
  have advised : minimumTokensFor citedAdvice = 73 := by decide +kernel
  refine ⟨first, advised, again, ?_⟩
  rintro ⟨rows, body, page, -⟩
  rw [again] at page
  cases page

def shortAdvice : Text := firstUnitText shortPage (encode shortPage.body) (persistentLabels shortPage.body) 0

theorem minimum_served_shortPage :
    minimumTokensFor shortAdvice = 59 ∧
      (Served shortPages ((citedRequest 1).withBudget (minimumTokensFor shortAdvice)) ↔
        Sufficient shortPages (citedRequest 1)) := by
  have first : answer shortPages (citedRequest 1) = .ok (.minimum shortAdvice nextChunk) := by decide +kernel
  have advised : minimumTokensFor shortAdvice = 59 := by decide +kernel
  have most : minimumTokensFor shortAdvice ≤ 4000 := by
    rw [advised]
    decide
  exact ⟨advised, minimum_served first most⟩

end

end Tools
