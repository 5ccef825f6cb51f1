import Eliot.Text.Ranges
import Eliot.Tools.Pages

namespace Tools
open Text Context List
open Utf8 (continuation Boundary)
open Regex (Found Located)
open Blocks (decoded)

section

variable {body : Text} {characters : List Char}

theorem whole_of_start {first second : Text} (start : second.head?.any isLow = false) : Whole first second := by
  rintro ⟨-, low⟩
  rw [start] at low
  cases low

theorem whole_of_end {first second : Text} (ending : first.getLast?.any isHigh = false) : Whole first second := by
  rintro ⟨high, -⟩
  rw [ending] at high
  cases high

theorem Whole.slice {first : Nat} (second : Nat) (whole : Whole (body.take first) (body.drop first)) :
    Whole (body.take first) (slice body first second) := by
  rw [← take_append_drop (second - first) (body.drop first)] at whole
  exact whole.front

def byteAt (body : Text) (place : Nat) : Nat := (encode (body.take place)).length

theorem boundary_of_whole {place : Nat} (same : scalars body = characters)
    (whole : Whole (body.take place) (body.drop place)) : Boundary characters (byteAt body place) := by
  have split := scalars_append whole
  rw [take_append_drop, same] at split
  exact ⟨_, _, split, rfl⟩

theorem byteAt_add {first second : Nat} (order : first ≤ second)
    (whole : Whole (body.take first) (body.drop first)) :
    byteAt body second = byteAt body first + (encode (slice body first second)).length := by
  have split : body.take second = body.take first ++ slice body first second := by
    rw [slice, ← take_add, Nat.add_sub_cancel' order]
  rw [byteAt, split, encode_append (Whole.slice second whole), length_append, byteAt]

theorem encode_pos {text : Text} (filled : text ≠ []) : 0 < (encode text).length := by
  cases text with
  | nil => exact absurd rfl filled
  | cons unit rest =>
    have points : codePoints (unit :: rest) ≠ [] := by
      cases rest with
      | nil => simp [codePoints]
      | cons next rest =>
        rw [codePoints]
        split
        · exact cons_ne_nil _ _
        · exact cons_ne_nil _ _
    rw [encode, scalars]
    cases points' : codePoints (unit :: rest) with
    | nil => exact absurd points' points
    | cons point others =>
      rw [map_cons, Utf8.encode, flatMap_cons, length_append]
      exact Nat.add_pos_left (Utf8.encodeChar_pos _) _

end

section

theorem all_last {regexes : List (Regex Nat)} {test : Nat → Bool} {word : Text}
    (accepted : (Regex.all (regexes ++ [.one test])).Accepts word) :
    ∃ front last, word = front ++ [last] ∧ test last = true := by
  induction regexes generalizing word with
  | nil =>
    obtain ⟨last, rfl, passed⟩ := accepted.one_symbol
    exact ⟨[], last, rfl, passed⟩
  | cons regex regexes ih =>
    have split : (Regex.all (regex :: regexes ++ [.one test])) = .seq regex (Regex.all (regexes ++ [.one test])) := by
      cases regexes <;> rfl
    rw [split] at accepted
    obtain ⟨left, right, rfl, -, after⟩ := accepted.seq_split
    obtain ⟨front, last, rfl, passed⟩ := ih after
    exact ⟨left ++ front, last, (append_assoc ..).symm, passed⟩

theorem persistentLabel_token {token : Text} (accepted : persistentLabel.Accepts token) :
    ∃ inside, token = 91 :: (inside ++ [93]) := by
  have parts : (Regex.all ([Blocks.unit 91, Blocks.unit 82, hexDigits 8, Blocks.unit 45, hexDigits 4,
      Blocks.unit 45, hexDigits 4, Blocks.unit 45, hexDigits 4, Blocks.unit 45, hexDigits 12, Blocks.unit 58,
      Blocks.digits] ++ [.one (· == 93)])).Accepts token := accepted
  obtain ⟨front, last, rfl, close⟩ := all_last parts
  obtain ⟨left, right, same, before, -⟩ := accepted.seq_split
  obtain ⟨first, rfl, opened⟩ := before.one_symbol
  rw [beq_iff_eq] at opened close
  subst opened close
  cases front with
  | nil =>
    obtain ⟨impossible, -⟩ := List.cons.inj same
    cases impossible
  | cons unit inside =>
    obtain ⟨rfl, -⟩ := List.cons.inj same
    exact ⟨inside, rfl⟩

structure LabelShape (characters : List Char) (range : LabelRange) : Prop where
  filled : range.start < range.stop
  starts : Boundary characters range.start
  stops : Boundary characters range.stop

variable {body : Text} {characters : List Char}

theorem label_whole {found : Found Nat} (accepted : persistentLabel.Accepts found.token)
    (token : slice body found.start found.stop = found.token) :
    Whole (body.take found.start) (body.drop found.start) ∧ Whole (body.take found.stop) (body.drop found.stop) := by
  obtain ⟨inside, shape⟩ := persistentLabel_token accepted
  rw [shape] at token
  have order : found.start ≤ found.stop := Nat.le_add_right _ _
  constructor
  · refine whole_of_start ?_
    cases rest : body.drop found.start with
    | nil => rfl
    | cons unit rest' =>
      have taken : (unit :: rest').take (found.stop - found.start) = 91 :: (inside ++ [93]) := by
        rw [← rest]
        exact token
      cases size : found.stop - found.start with
      | zero => simp [size] at taken
      | succ size' =>
        rw [size, take_succ_cons] at taken
        obtain ⟨rfl, -⟩ := List.cons.inj taken
        rfl
  · refine whole_of_end ?_
    have split : body.take found.stop = body.take found.start ++ slice body found.start found.stop := by
      rw [slice, ← take_add, Nat.add_sub_cancel' order]
    rw [split, token, ← cons_append, ← append_assoc, getLast?_concat]
    rfl

theorem labelRanges_shape (same : scalars body = characters) {charOffset : Nat} {founds : List (Found Nat)}
    (cut : Whole (body.take charOffset) (body.drop charOffset)) (located : Located body charOffset founds)
    (accepted : ∀ found ∈ founds, persistentLabel.Accepts found.token) :
    (∀ range ∈ labelRanges body charOffset (byteAt body charOffset) founds,
      LabelShape characters range ∧ byteAt body charOffset ≤ range.start) ∧
    (labelRanges body charOffset (byteAt body charOffset) founds).Pairwise fun earlier later =>
      earlier.stop ≤ later.start := by
  induction founds generalizing charOffset with
  | nil => exact ⟨by simp [labelRanges], List.Pairwise.nil⟩
  | cons found founds ih =>
    obtain ⟨order, token, later⟩ := located
    have token : slice body found.start found.stop = found.token := by
      rw [slice, Found.stop, Nat.add_sub_cancel_left]
      exact token
    have shape := accepted found mem_cons_self
    obtain ⟨before, behind⟩ := label_whole shape token
    have start := byteAt_add order cut
    have stop := byteAt_add (Nat.le_add_right found.start found.token.length) before
    have length : slice body found.start (found.start + found.token.length) = found.token := token
    rw [length] at stop
    have filled : 0 < (encode found.token).length := by
      obtain ⟨inside, same⟩ := persistentLabel_token shape
      rw [same]
      exact encode_pos (cons_ne_nil _ _)
    obtain ⟨rest, apart⟩ := ih behind later fun other member => accepted other (mem_cons_of_mem _ member)
    rw [labelRanges, ← start, ← stop]
    constructor
    · intro range member
      rcases mem_cons.mp member with rfl | member
      · refine ⟨⟨?_, boundary_of_whole same before, boundary_of_whole same behind⟩, ?_⟩
        · show byteAt body found.start < byteAt body (found.start + found.token.length)
          omega
        · show byteAt body charOffset ≤ byteAt body found.start
          omega
      · obtain ⟨shape, after⟩ := rest range member
        refine ⟨shape, Nat.le_trans ?_ after⟩
        show byteAt body charOffset ≤ byteAt body (found.start + found.token.length)
        omega
    · refine pairwise_cons.mpr ⟨?_, apart⟩
      intro range member
      exact (rest range member).2

end

section

structure Layout (characters : List Char) (bytes : Bytes) (labels : List LabelRange) : Prop where
  encoded : bytes = Utf8.encode characters
  shapes : ∀ range ∈ labels, LabelShape characters range
  apart : labels.Pairwise fun earlier later => earlier.stop ≤ later.start

def Safe (characters : List Char) (labels : List LabelRange) (place : Nat) : Prop :=
  Boundary characters place ∧ ∀ range ∈ labels, ¬(range.start < place ∧ place < range.stop)

variable {characters : List Char} {bytes : Bytes} {labels : List LabelRange} {start stop place proposed : Nat}

theorem Layout.others (layout : Layout characters bytes labels) {range other : LabelRange} (member : range ∈ labels)
    (listed : other ∈ labels) : range = other ∨ range.stop ≤ other.start ∨ other.stop ≤ range.start := by
  have apart := layout.apart
  clear layout
  induction labels with
  | nil => cases member
  | cons first rest ih =>
    obtain ⟨ahead, behind⟩ := pairwise_cons.mp apart
    rcases mem_cons.mp member with rfl | left
    · rcases mem_cons.mp listed with rfl | right
      · exact .inl rfl
      · exact .inr (.inl (ahead other right))
    · rcases mem_cons.mp listed with rfl | right
      · exact .inr (.inr (ahead range left))
      · exact ih left right behind

theorem Layout.safe_start (layout : Layout characters bytes labels) {range : LabelRange} (member : range ∈ labels) :
    Safe characters labels range.start := by
  refine ⟨(layout.shapes range member).starts, ?_⟩
  intro other listed inside
  have filled := (layout.shapes range member).filled
  rcases layout.others member listed with rfl | before | after
  · omega
  · omega
  · omega

theorem Layout.safe_stop (layout : Layout characters bytes labels) {range : LabelRange} (member : range ∈ labels) :
    Safe characters labels range.stop := by
  refine ⟨(layout.shapes range member).stops, ?_⟩
  intro other listed inside
  have filled := (layout.shapes range member).filled
  rcases layout.others member listed with rfl | before | after
  · omega
  · omega
  · omega

theorem Layout.safe_total (layout : Layout characters bytes labels) : Safe characters labels bytes.length := by
  rw [layout.encoded]
  refine ⟨Utf8.boundary_length _, ?_⟩
  intro range member inside
  have bound := (layout.shapes range member).stops.le_length
  omega

theorem Layout.safe_le (layout : Layout characters bytes labels) (safe : Safe characters labels place) :
    place ≤ bytes.length := by
  rw [layout.encoded]
  exact safe.1.le_length

/-- Going back ends at the last boundary that is not behind `stop`. -/
theorem backTo_last (layout : Layout characters bytes labels) (safe : Boundary characters start) (order : start ≤ stop)
    (within : stop ≤ bytes.length) :
    Boundary characters (backTo bytes start stop) ∧ start ≤ backTo bytes start stop ∧ backTo bytes start stop ≤ stop ∧
      ∀ place, Boundary characters place → place ≤ stop → place ≤ backTo bytes start stop := by
  induction stop with
  | zero =>
    rw [Nat.le_zero.mp order] at safe ⊢
    exact ⟨safe, Nat.le_refl _, Nat.le_refl _, fun _ _ before => before⟩
  | succ stop ih =>
    by_cases inside : start < stop + 1 ∧ stop + 1 < bytes.length ∧ continuation bytes[stop + 1]? = true
    · rw [backTo, if_pos inside]
      obtain ⟨after, before, continued⟩ := inside
      obtain ⟨boundary, low, high, last⟩ := ih (by omega) (by omega)
      refine ⟨boundary, low, Nat.le_succ_of_le high, ?_⟩
      intro place cut fits
      by_cases here : place = stop + 1
      · subst here
        have first := cut.start
        rw [← layout.encoded, continued] at first
        cases first
      · exact last place cut (by omega)
    · have stays : backTo bytes start (stop + 1) = stop + 1 := by rw [backTo, if_neg inside]
      rw [stays]
      refine ⟨?_, order, Nat.le_refl _, fun _ _ fits => fits⟩
      by_cases same : start = stop + 1
      · rw [← same]
        exact safe
      · by_cases total : stop + 1 = bytes.length
        · rw [total, layout.encoded]
          exact Utf8.boundary_length _
        · refine Utf8.boundary_of_start (layout.encoded ▸ within) ?_
          rw [← layout.encoded]
          by_contra continued
          exact inside ⟨by omega, by omega, by simpa using continued⟩

theorem safePageChunkEnd_last (layout : Layout characters bytes labels) (safe : Safe characters labels start)
    (order : start ≤ proposed) :
    Safe characters labels (safePageChunkEnd bytes start proposed labels) ∧
      start ≤ safePageChunkEnd bytes start proposed labels ∧
      safePageChunkEnd bytes start proposed labels ≤ proposed ∧
      ∀ place, Safe characters labels place → place ≤ proposed →
        place ≤ safePageChunkEnd bytes start proposed labels := by
  have bound := layout.safe_le safe
  obtain ⟨boundary, low, high, last⟩ := backTo_last layout safe.1 (Nat.le_min.mpr ⟨bound, order⟩) (Nat.min_le_left _ _)
  unfold safePageChunkEnd
  generalize backTo bytes start (min bytes.length proposed) = stop at *
  dsimp only
  have high : stop ≤ proposed := Nat.le_trans high (Nat.min_le_right _ _)
  cases found : labels.find? (fun range => range.start < stop && stop < range.stop) with
  | none =>
    refine ⟨⟨boundary, ?_⟩, low, high, ?_⟩
    · intro range member inside
      have outside := find?_eq_none.mp found range member
      simp only [Bool.and_eq_true, decide_eq_true_eq] at outside
      exact outside inside
    · intro place cut fits
      exact last place cut.1 (Nat.le_min.mpr ⟨layout.safe_le cut, fits⟩)
  | some range =>
    have member := mem_of_find?_eq_some found
    have inside := find?_some found
    simp only [Bool.and_eq_true, decide_eq_true_eq] at inside
    have outside := safe.2 range member
    dsimp only
    refine ⟨layout.safe_start member, by omega, by omega, ?_⟩
    intro place cut fits
    have early := last place cut.1 (Nat.le_min.mpr ⟨layout.safe_le cut, fits⟩)
    have apart := cut.2 range member
    omega

theorem decoded_between (layout : Layout characters bytes labels) (first : Boundary characters start)
    (last : Boundary characters stop) (order : start ≤ stop) :
    ∃ chars, decoded (slice bytes start stop) = some (chars.flatMap units) ∧
      slice bytes start stop = Utf8.encode chars := by
  obtain ⟨before, inside, after, -, -, -, same⟩ := first.between last order
  rw [← layout.encoded] at same
  refine ⟨inside, ?_, same⟩
  rw [decoded, slice, same, Utf8.decode_encode]
  rfl

end

section

variable {page : SavedPage} {bytes : Bytes} {labels : List LabelRange} {start stop tokens : Nat}

structure ChunkAnswer (page : SavedPage) (bytes : Bytes) (labels : List LabelRange) (start tokens stop : Nat)
    (body : Text) : Prop where
  fit : fits body tokens = true
  shown : ∃ chars, slice bytes start stop = Utf8.encode chars ∧
    ∃ visible ≤ (chunkCitations page labels start stop).length, body = withSections
      (pageText page bytes start stop (chars.flatMap units) (nextLine page bytes stop))
      (citationSections (chunkCitations page labels start stop) visible)

theorem fittingCitations_some {result candidate : Text} {citations : List Text} {count : Nat}
    (found : fittingCitations result citations tokens count = some candidate) :
    fits candidate tokens = true ∧ ∃ visible ≤ count,
      candidate = withSections result (citationSections citations visible) := by
  induction count with
  | zero =>
    rw [fittingCitations] at found
    split at found
    · rename_i fit
      cases found
      exact ⟨fit, 0, Nat.le_refl _, rfl⟩
    · cases found
  | succ count ih =>
    rw [fittingCitations] at found
    split at found
    · rename_i fit
      cases found
      exact ⟨fit, count + 1, Nat.le_refl _, rfl⟩
    · obtain ⟨fit, visible, below, same⟩ := ih found
      exact ⟨fit, visible, Nat.le_succ_of_le below, same⟩

theorem pageChunk_answers (layout : Layout page.characters bytes labels)
    (safe : Safe page.characters labels start) (ends : Safe page.characters labels stop) (order : start ≤ stop) :
    pageChunk page bytes labels start tokens stop = .ok (firstUnit page bytes labels start) ∨
      ∃ last body, pageChunk page bytes labels start tokens stop = .ok (.chunk last body) ∧
        Safe page.characters labels last ∧ start < last ∧ last ≤ stop ∧
        ChunkAnswer page bytes labels start tokens last body := by
  induction stop using Nat.strongRecOn with
  | ind stop ih =>
    rw [pageChunk]
    by_cases empty : stop = start
    · rw [if_pos empty]
      exact .inl rfl
    rw [if_neg empty]
    obtain ⟨chars, decodes, encodes⟩ := decoded_between layout safe.1 ends.1 order
    rw [decodes]
    dsimp only
    cases found : fittingCitations (pageText page bytes start stop (chars.flatMap units) (nextLine page bytes stop))
        (chunkCitations page labels start stop) tokens (chunkCitations page labels start stop).length with
    | some candidate =>
      obtain ⟨fit, visible, few, same⟩ := fittingCitations_some found
      exact .inr ⟨stop, candidate, rfl, ends, by omega, Nat.le_refl _, fit, chars, encodes, visible, few, same⟩
    | none =>
      dsimp only
      obtain ⟨again, low, high, -⟩ := safePageChunkEnd_last layout safe (Nat.le_pred_of_lt (by omega : start < stop))
      split
      · exact .inl rfl
      · rename_i smaller
        rw [not_or, not_le] at smaller
        rcases ih _ smaller.1 again low with advice | ⟨last, body, same, other, after, before, answer⟩
        · exact .inl advice
        · exact .inr ⟨last, body, same, other, after, by omega, answer⟩

theorem page_layout (page : SavedPage) :
    Layout page.characters (encode page.body) (persistentLabels page.body) := by
  have same : scalars page.body = page.characters := scalars_units page.characters
  have cut : Whole (page.body.take 0) (page.body.drop 0) := by
    rintro ⟨high, -⟩
    cases high
  have founds := persistentLabel.scan_accepts 0 0 page.body
  obtain ⟨shapes, apart⟩ := labelRanges_shape same cut (persistentLabel.matchAll_located page.body) founds
  exact ⟨by rw [encode, same], fun range member => (shapes range member).1, apart⟩

theorem pageFrom_safe (page : SavedPage) {start : Nat} (tokens : Nat)
    (safe : Safe page.characters (persistentLabels page.body) start) :
    pageFrom page start tokens =
      if start = (encode page.body).length then
        .ok (if fits (pageText page (encode page.body) start start [] noNextCursor) tokens then
          .done (pageText page (encode page.body) start start [] noNextCursor)
        else .minimum (pageText page (encode page.body) start start [] noNextCursor) Reply.thisResponse)
      else
        pageChunk page (encode page.body) (persistentLabels page.body) start tokens
          (safePageChunkEnd (encode page.body) start (start + tokens * 3) (persistentLabels page.body)) := by
  have layout := page_layout page
  have within := layout.safe_le safe
  have first : continuation (encode page.body)[start]? = false := by
    rw [layout.encoded]
    exact safe.1.start
  have outside : ¬ (persistentLabels page.body).any (fun range => range.start < start && start < range.stop) = true := by
    rw [any_eq_true]
    rintro ⟨range, member, inside⟩
    simp only [Bool.and_eq_true, decide_eq_true_eq] at inside
    exact safe.2 range member inside
  unfold pageFrom
  dsimp only
  rw [if_neg (by rw [first]; simp; omega), if_neg outside]

theorem pageFrom_answers (page : SavedPage) {start : Nat} (tokens : Nat)
    (safe : Safe page.characters (persistentLabels page.body) start) :
    (∃ body purpose, pageFrom page start tokens = .ok (.minimum body purpose)) ∨
      (start = (encode page.body).length ∧ ∃ body, pageFrom page start tokens = .ok (.done body)) ∨
      ∃ stop body, pageFrom page start tokens = .ok (.chunk stop body) ∧
        Safe page.characters (persistentLabels page.body) stop ∧ start < stop ∧
        ChunkAnswer page (encode page.body) (persistentLabels page.body) start tokens stop body := by
  have layout := page_layout page
  rw [pageFrom_safe page tokens safe]
  by_cases total : start = (encode page.body).length
  · rw [if_pos total]
    split
    · exact .inr (.inl ⟨total, _, rfl⟩)
    · exact .inl ⟨_, _, rfl⟩
  · rw [if_neg total]
    obtain ⟨ends, low, -, -⟩ := safePageChunkEnd_last layout safe (Nat.le_add_right start (tokens * 3))
    rcases pageChunk_answers layout safe ends low with advice | ⟨last, body, same, cut, after, -, answer⟩
    · exact .inl ⟨_, _, advice⟩
    · exact .inr (.inr ⟨last, body, same, cut, after, answer⟩)

end

section

structure Piece where
  start : Nat
  stop : Nat
  tokens : Int
  body : Text
deriving DecidableEq

def Piece.span (piece : Piece) : Nat × Nat := (piece.start, piece.stop)

/-- What comes of reading a page: a request was refused for its budget or failed, the budgets ran out, or no
    next cursor was left. -/
inductive Outcome where
  | refused
  | failed
  | unfinished
  | read (pieces : List Piece)
deriving DecidableEq

def Outcome.after (piece : Piece) : Outcome → Outcome
  | read pieces => read (piece :: pieces)
  | other => other

def readPages (storage : Storage) (projectId pageId : Text) (page : SavedPage) (cursor : Nat) : List Int → Outcome
  | [] => .unfinished
  | tokens :: budgets =>
    match getPageTool storage ⟨projectId, pageId, some cursor, some page.headRevisionId, some tokens⟩ with
    | .error _ => .failed
    | .ok (.minimum _ _) => .refused
    | .ok (.done _) => .read []
    | .ok (.chunk stop body) =>
      if stop < (encode page.body).length then
        (readPages storage projectId pageId page stop budgets).after ⟨cursor, stop, tokens, body⟩
      else .read [⟨cursor, stop, tokens, body⟩]

structure Piece.Exact (page : SavedPage) (piece : Piece) : Prop where
  advances : piece.start < piece.stop
  starts : Safe page.characters (persistentLabels page.body) piece.start
  stops : Safe page.characters (persistentLabels page.body) piece.stop
  size : (encode piece.body).length ≤ 3 * piece.tokens
  shown : ∃ visible, piece.body = withSections
    (pageText page (encode page.body) piece.start piece.stop (decode (slice (encode page.body) piece.start piece.stop))
      (nextLine page (encode page.body) piece.stop))
    (citationSections (chunkCitations page (persistentLabels page.body) piece.start piece.stop) visible)

variable {storage : Storage} {projectId pageId : Text} {page : SavedPage} {tokens : Int}

theorem getPageTool_from (stored : storage.page projectId pageId = .ok page) (cursor : Nat)
    (positive : 1 ≤ tokens) (most : tokens ≤ 4000) :
    getPageTool storage ⟨projectId, pageId, some cursor, some page.headRevisionId, some tokens⟩ =
      pageFrom page cursor tokens.toNat := by
  have budget : outputBudget (some tokens) = .ok tokens.toNat := by
    rw [outputBudget, if_neg]
    rw [maxToolOutputTokens]
    omega
  have head : (some page.headRevisionId).any (· != page.headRevisionId) = false := by simp
  unfold getPageTool
  rw [budget, stored]
  simp [bind, Except.bind, head]

def Outcome.Follows (page : SavedPage) (cursor count : Nat) : Outcome → Prop
  | refused => True
  | failed => False
  | unfinished => cursor + count ≤ (encode page.body).length
  | read pieces => Ranges.Laid (fun _ => False) (encode page.body).length cursor (pieces.map (·.span)) ∧
      ∀ piece ∈ pieces, piece.Exact page

theorem Outcome.Follows.after {cursor stop count : Nat} {body : Text} {outcome : Outcome}
    (follows : outcome.Follows page stop count) (advances : cursor < stop)
    (exact' : Piece.Exact page ⟨cursor, stop, tokens, body⟩) :
    (outcome.after ⟨cursor, stop, tokens, body⟩).Follows page cursor (count + 1) := by
  cases outcome with
  | refused => trivial
  | failed => exact follows
  | unfinished =>
    have bound : stop + count ≤ (encode page.body).length := follows
    show cursor + (count + 1) ≤ (encode page.body).length
    omega
  | read pieces =>
    obtain ⟨laid, each⟩ := follows
    refine ⟨⟨Nat.le_refl _, advances, ?_, laid⟩, ?_⟩
    · intro place after before
      exact absurd after (Nat.not_le_of_lt before)
    · intro piece member
      rcases mem_cons.mp member with rfl | member
      · exact exact'
      · exact each piece member

theorem piece_exact {cursor stop : Nat} {body : Text} (positive : 1 ≤ tokens)
    (safe : Safe page.characters (persistentLabels page.body) cursor)
    (ends : Safe page.characters (persistentLabels page.body) stop) (advances : cursor < stop)
    (answer : ChunkAnswer page (encode page.body) (persistentLabels page.body) cursor tokens.toNat stop body) :
    Piece.Exact page ⟨cursor, stop, tokens, body⟩ := by
  obtain ⟨fit, chars, encodes, visible, -, same⟩ := answer
  refine ⟨advances, safe, ends, ?_, visible, ?_⟩
  · rw [fits, decide_eq_true_eq] at fit
    dsimp only
    omega
  · have text : decode (slice (encode page.body) cursor stop) = chars.flatMap units := by
      rw [decode, encodes, Utf8.decode_encode, Option.getD_some]
    dsimp only
    rw [text]
    exact same

theorem readPages_follows (stored : storage.page projectId pageId = .ok page) {budgets : List Int}
    (valid : ∀ tokens ∈ budgets, 1 ≤ tokens ∧ tokens ≤ 4000) {cursor : Nat}
    (safe : Safe page.characters (persistentLabels page.body) cursor) :
    (readPages storage projectId pageId page cursor budgets).Follows page cursor budgets.length := by
  have layout := page_layout page
  induction budgets generalizing cursor with
  | nil => exact layout.safe_le safe
  | cons tokens budgets ih =>
    obtain ⟨positive, most⟩ := valid tokens mem_cons_self
    have later : ∀ tokens ∈ budgets, 1 ≤ tokens ∧ tokens ≤ 4000 :=
      fun tokens member => valid tokens (mem_cons_of_mem _ member)
    rw [readPages, getPageTool_from stored cursor positive most]
    rcases pageFrom_answers page tokens.toNat safe with
      ⟨body, purpose, same⟩ | ⟨total, body, same⟩ | ⟨stop, body, same, ends, advances, answer⟩
    · rw [same]
      trivial
    · rw [same]
      refine ⟨?_, by simp⟩
      rw [total]
      exact Ranges.laid_nil _
    · rw [same]
      dsimp only
      have one := piece_exact positive safe ends advances answer
      split
      · exact (ih later ends).after advances one
      · rename_i last
        have total : stop = (encode page.body).length := Nat.le_antisymm (layout.safe_le ends) (Nat.not_lt.mp last)
        refine ⟨?_, ?_⟩
        · rw [← total]
          exact Ranges.laid_singleton advances
        · intro piece member
          rw [mem_singleton.mp member]
          exact one

theorem pieces_body {pieces : List Piece}
    (laid : Ranges.Laid (fun _ => False) (encode page.body).length 0 (pieces.map (·.span)))
    (each : ∀ piece ∈ pieces, piece.Exact page) :
    (pieces.map fun piece => decode (slice (encode page.body) piece.start piece.stop)).flatten = page.body := by
  have layout := page_layout page
  have chosen : ∀ piece ∈ pieces, ∃ chars : List Char,
      decode (slice (encode page.body) piece.start piece.stop) = chars.flatMap units ∧
        slice (encode page.body) piece.start piece.stop = Utf8.encode chars := by
    intro piece member
    have exact' := each piece member
    obtain ⟨chars, -, same⟩ := decoded_between layout exact'.starts.1 exact'.stops.1 exact'.advances.le
    exact ⟨chars, by rw [decode, same, Utf8.decode_encode, Option.getD_some], same⟩
  have flat := laid.flatten (encode page.body)
  rw [map_map, drop_zero, Nat.sub_zero, take_length] at flat
  have texts : ∃ chars : List Char,
      (pieces.map fun piece => decode (slice (encode page.body) piece.start piece.stop)).flatten = chars.flatMap units ∧
        (pieces.map fun piece => slice (encode page.body) piece.start piece.stop).flatten = Utf8.encode chars := by
    clear flat laid each
    induction pieces with
    | nil => exact ⟨[], rfl, rfl⟩
    | cons piece pieces ih =>
      obtain ⟨first, text, bytes⟩ := chosen piece mem_cons_self
      obtain ⟨rest, texts, others⟩ := ih fun piece member => chosen piece (mem_cons_of_mem _ member)
      refine ⟨first ++ rest, ?_, ?_⟩
      · rw [map_cons, flatten_cons, text, texts, flatMap_append]
      · rw [map_cons, flatten_cons, bytes, others, Utf8.encode_append]
  obtain ⟨chars, texts, bytes⟩ := texts
  have whole : (pieces.map fun piece => slice (encode page.body) piece.start piece.stop).flatten =
      encode page.body := flat
  have same : Utf8.encode chars = Utf8.encode page.characters := by rw [← bytes, whole, layout.encoded]
  have equal : chars = page.characters := by
    have read := Utf8.decode_encode chars
    rw [same, Utf8.decode_encode] at read
    exact (Option.some.inj read).symm
  rw [texts, equal]
  rfl

/-- Reading a page by its cursors never fails and, unless a budget is refused, ends within as many requests as
    the page has bytes and one, with chunks that are the whole body. -/
theorem readPages_body (stored : storage.page projectId pageId = .ok page) (budgets : List Int)
    (valid : ∀ tokens ∈ budgets, 1 ≤ tokens ∧ tokens ≤ 4000)
    (unrefused : readPages storage projectId pageId page 0 budgets ≠ .refused)
    (enough : (encode page.body).length < budgets.length) :
    ∃ pieces, readPages storage projectId pageId page 0 budgets = .read pieces ∧
      (pieces.map fun piece => decode (slice (encode page.body) piece.start piece.stop)).flatten = page.body ∧
      (pieces.Pairwise fun earlier later => earlier.stop ≤ later.start) ∧ ∀ piece ∈ pieces, piece.Exact page := by
  have start : Safe page.characters (persistentLabels page.body) 0 := by
    refine ⟨Utf8.boundary_zero _, ?_⟩
    intro range _ inside
    omega
  have follows := readPages_follows stored valid start
  cases outcome : readPages storage projectId pageId page 0 budgets with
  | refused => exact absurd outcome unrefused
  | failed =>
    rw [outcome] at follows
    exact follows.elim
  | unfinished =>
    rw [outcome] at follows
    have bound : 0 + budgets.length ≤ (encode page.body).length := follows
    omega
  | read pieces =>
    rw [outcome] at follows
    obtain ⟨laid, each⟩ := follows
    exact ⟨pieces, rfl, pieces_body laid each, pairwise_map.mp laid.pairwise, each⟩

def shortPage : SavedPage where
  id := text "page"
  title := text "Note"
  kind := .note
  stale := false
  headRevisionId := text "head"
  characters := "Fact [R12345678-1234-4234-8234-123456789abc:1], and é.".toList
  citations := []

def shortPages : Storage := { emptyStorage with page := fun _ _ => .ok shortPage }

theorem readPages_shortPage :
    ∃ pieces, readPages shortPages (text "p") (text "page") shortPage 0 (List.replicate 60 66) = .read pieces ∧
      (pieces.map fun piece => decode (slice (encode shortPage.body) piece.start piece.stop)).flatten =
        shortPage.body ∧
      (pieces.Pairwise fun earlier later => earlier.stop ≤ later.start) ∧ ∀ piece ∈ pieces, piece.Exact shortPage :=
  readPages_body rfl _ (by decide) (by decide +kernel) (by decide +kernel)

end

end Tools
