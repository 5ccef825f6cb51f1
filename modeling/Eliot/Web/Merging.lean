import Eliot.Collections.Newest
import Eliot.Text.Basic
import Mathlib.Data.Prod.Lex

namespace Web

open List
open Collections (Newest Takes)

section
variable {Row Key : Type} [LinearOrder Key] {key : Row → Key} {compare : Row → Row → Int} {rows others : List Row}

/-- `rows.sort(compare)` -/
def sorted (compare : Row → Row → Int) (rows : List Row) : List Row :=
  rows.insertionSort fun a b => compare a b ≤ 0

theorem sorted_perm (compare : Row → Row → Int) (rows : List Row) : (sorted compare rows).Perm rows :=
  perm_insertionSort _ _

theorem sorted_strict (agrees : ∀ a b, compare a b ≤ 0 ↔ key a ≤ key b) (distinct : (rows.map key).Nodup) :
    Insertion.Strict key (sorted compare rows) := by
  have total : Std.Total fun a b => compare a b ≤ 0 := ⟨fun a b => by
    rw [agrees, agrees]
    exact le_total _ _⟩
  have trans : IsTrans Row fun a b => compare a b ≤ 0 := ⟨fun a b c ab bc => by
    rw [agrees] at *
    exact le_trans ab bc⟩
  have ordered : (sorted compare rows).Pairwise fun a b => compare a b ≤ 0 := pairwise_insertionSort _ _
  have apart := ((sorted_perm compare rows).map key).nodup_iff.mpr distinct
  have both := ordered.and (pairwise_map.mp apart)
  exact both.imp fun both => lt_of_le_of_ne ((agrees _ _).mp both.1) both.2

theorem merged_strict {merge : List Row → List Row → List Row} (agrees : ∀ a b, compare a b ≤ 0 ↔ key a ≤ key b)
    (sorts : ∀ current incoming, ∃ rows, merge current incoming = sorted compare rows) {batches : List (List Row)}
    (distinct : ((batches.foldl merge []).map key).Nodup) : Insertion.Strict key (batches.foldl merge []) := by
  rcases eq_nil_or_concat batches with rfl | ⟨earlier, last, rfl⟩
  · exact List.Pairwise.nil
  · rw [concat_eq_append, foldl_append] at distinct ⊢
    obtain ⟨rows, merged⟩ := sorts (earlier.foldl merge []) last
    simp only [foldl_cons, foldl_nil, merged] at distinct ⊢
    exact sorted_strict agrees (((sorted_perm compare rows).map key).nodup_iff.mp distinct)

end

section
variable {Payload : Type}

/-- A turn of a chat; `payload` stands for the fields that no merge reads. -/
structure TurnView (Payload : Type) where
  turnId : Text
  createdAt : Option Int
  historyVersion : Option Int
  payload : Payload
deriving DecidableEq

def compareTurnOrder (a b : TurnView Payload) : Int :=
  let difference := a.createdAt.getD 0 - b.createdAt.getD 0
  if difference ≠ 0 then difference
  else if a.turnId < b.turnId then -1 else if b.turnId < a.turnId then 1 else 0

def TurnView.version (turn : TurnView Payload) : Int := turn.historyVersion.getD 0

def TurnView.order (turn : TurnView Payload) : Int ×ₗ Text := toLex (turn.createdAt.getD 0, turn.turnId)

def recordTurn (turns : List (Text × TurnView Payload)) (turn : TurnView Payload) : List
    (Text × TurnView Payload) :=
  match Insertion.get turn.turnId turns with
  | none => Insertion.put turn.turnId turn turns
  | some previous =>
    if previous.version ≤ turn.version then Insertion.put turn.turnId turn turns else turns

def mergeTurnHistory (current incoming : List (TurnView Payload)) : List (TurnView Payload) :=
  sorted compareTurnOrder ((incoming.foldl recordTurn (Insertion.index TurnView.turnId current)).map Prod.snd)

/-- What a chat shows after the pages, snapshots and events of `batches` came in. -/
def mergedTurns (batches : List (List (TurnView Payload))) : List (TurnView Payload) :=
  batches.foldl mergeTurnHistory []

theorem compareTurnOrder_le (a b : TurnView Payload) : compareTurnOrder a b ≤ 0 ↔ a.order ≤ b.order := by
  unfold compareTurnOrder TurnView.order
  rw [Prod.Lex.toLex_le_toLex]
  by_cases same : a.createdAt.getD 0 - b.createdAt.getD 0 = 0
  · have equal : a.createdAt.getD 0 = b.createdAt.getD 0 := by omega
    rcases lt_trichotomy a.turnId b.turnId with below | level | above
    · simp [equal, below, below.le]
    · simp [equal, level]
    · simp [equal, above, above.not_gt, above.not_ge]
  · have differ : a.createdAt.getD 0 ≠ b.createdAt.getD 0 := fun equal => same (by omega)
    simp only [ne_eq, same, not_false_iff, if_true, differ, false_and, or_false]
    omega

theorem recordTurn_takes : Takes TurnView.turnId TurnView.version (@recordTurn Payload) := by
  intro turns turn keyed
  unfold recordTurn
  cases found : Insertion.get turn.turnId turns with
  | none => exact .inl ⟨rfl, fun current other => (nomatch other)⟩
  | some previous =>
    by_cases newer : previous.version ≤ turn.version
    · refine .inl ⟨if_pos newer, fun current other => ?_⟩
      rw [← Option.some.inj other]
      exact newer
    · simp only [newer, if_false]
      exact .inr ⟨keyed, fun _ => trivial, previous, rfl, (not_le.mp newer).le⟩

theorem mergedTurns_newest (batches : List (List (TurnView Payload))) :
    Newest TurnView.turnId TurnView.version batches.flatten (mergedTurns batches) :=
  recordTurn_takes.batches (fun _ _ => sorted_perm _ _) batches

theorem mergedTurns_strict (batches : List (List (TurnView Payload))) :
    Insertion.Strict TurnView.order (mergedTurns batches) := by
  have distinct := (mergedTurns_newest batches).distinct
  refine merged_strict compareTurnOrder_le (fun current incoming => ⟨_, rfl⟩) ?_
  refine List.Nodup.of_map (fun order : Int ×ₗ Text => (ofLex order).2) ?_
  rwa [map_map]

/-- A history is the newest version of each turn, in order, however and however often the turns came in. -/
theorem history_order_independent {batches others : List (List (TurnView Payload))}
    (versioned : ∀ first ∈ batches.flatten, ∀ second ∈ batches.flatten,
      first.turnId = second.turnId → first.version = second.version → first = second)
    (same : ∀ turn, turn ∈ batches.flatten ↔ turn ∈ others.flatten) :
    mergedTurns others = mergedTurns batches ∧
      ((mergedTurns batches).map TurnView.turnId).Nodup ∧
      (∀ turn, turn ∈ mergedTurns batches ↔
        turn ∈ batches.flatten ∧ ∀ other ∈ batches.flatten, other.turnId = turn.turnId →
          other.version ≤ turn.version) ∧
      (∀ turn ∈ batches.flatten, ∃ entry ∈ mergedTurns batches, entry.turnId = turn.turnId) ∧
      (mergedTurns batches).Pairwise fun a b =>
        a.createdAt.getD 0 < b.createdAt.getD 0 ∨
          a.createdAt.getD 0 = b.createdAt.getD 0 ∧ a.turnId < b.turnId := by
  have newest := mergedTurns_newest batches
  have another := mergedTurns_newest others
  have listed : ∀ turn, turn ∈ mergedTurns batches ↔
      turn ∈ batches.flatten ∧ ∀ other ∈ batches.flatten, other.turnId = turn.turnId →
        other.version ≤ turn.version := by
    intro turn
    constructor
    · intro chosen
      exact ⟨newest.listed turn chosen, fun other there own => newest.highest chosen there own⟩
    · rintro ⟨there, highest⟩
      obtain ⟨other, chosen, own, above⟩ := newest.covers turn there
      have back := newest.listed other chosen
      have level := le_antisymm (highest other back own) above
      exact versioned other back turn there own level ▸ chosen
  refine ⟨?_, newest.distinct, listed, fun turn there => ?_, ?_⟩
  · refine (mergedTurns_strict others).ext (mergedTurns_strict batches) fun turn => ?_
    have shown (list : List (TurnView Payload)) : list.map id = list := map_id list
    constructor
    · intro chosen
      have apart : ∀ first ∈ others.flatten, ∀ second ∈ others.flatten, first.turnId = second.turnId →
          first.version = second.version → id first = id second := fun first one second two =>
        versioned first ((same first).mpr one) second ((same second).mpr two)
      have agree := another.agree newest (fun turn => (same turn).symm) apart turn
      rw [shown, shown] at agree
      exact agree chosen
    · intro chosen
      have agree : turn ∈ (mergedTurns batches).map id → turn ∈ (mergedTurns others).map id :=
        newest.agree another same versioned turn
      rw [shown, shown] at agree
      exact agree chosen
  · obtain ⟨entry, chosen, own, -⟩ := newest.covers turn there
    exact ⟨entry, chosen, own⟩
  · exact (mergedTurns_strict batches).imp fun below => Prod.Lex.toLex_lt_toLex.mp below

/-- A delayed page with an older version of a turn that was streamed since, and the page once more. -/
theorem history_order_independent_late :
    let older : TurnView Unit := ⟨[49], some 5, none, ()⟩
    let newer : TurnView Unit := ⟨[49], some 5, some 2, ()⟩
    let first : TurnView Unit := ⟨[48], some 5, some 1, ()⟩
    mergedTurns [[newer], [first, older], [older]] = mergedTurns [[older, first], [newer]] ∧
      mergedTurns [[older, first], [newer]] = [first, newer] := by
  intro older newer first
  refine ⟨(@history_order_independent Unit [[older, first], [newer]] [[newer], [first, older], [older]] ?_ ?_).1,
    by decide⟩
  · decide
  · simp only [flatten_cons, flatten_nil, mem_append, mem_cons, not_mem_nil]
    tauto

end

inductive PageKind where
  | overview | note | answer | report | wiki | map
deriving DecidableEq

inductive Freshness where
  | current | stale
deriving DecidableEq

structure PageSummary where
  id : Text
  title : Text
  kind : PageKind
  headRevisionId : Option Text
  freshness : Freshness
  headRevisionNo : Int
  createdAt : Int
  updatedAt : Int
deriving DecidableEq

def newerPage (current : Option PageSummary) (incoming : PageSummary) : PageSummary :=
  match current with
  | none => incoming
  | some current =>
    if current.headRevisionNo > incoming.headRevisionNo ∨
        (current.headRevisionNo = incoming.headRevisionNo ∧ current.freshness = .stale ∧
          incoming.freshness = .current) then current
    else incoming

def recordPage (rows : List (Text × PageSummary)) (page : PageSummary) : List (Text × PageSummary) :=
  Insertion.put page.id (newerPage (Insertion.get page.id rows) page) rows

def comparePages (a b : PageSummary) : Int :=
  let difference := b.createdAt - a.createdAt
  if difference ≠ 0 then difference else if a.id < b.id then 1 else if b.id < a.id then -1 else 0

def mergeStudioPages (current incoming : List PageSummary) : List PageSummary :=
  sorted comparePages ((incoming.foldl recordPage (Insertion.index PageSummary.id current)).map Prod.snd)

/-- What the studio lists after the responses of `batches` came in. -/
def mergedPages (batches : List (List PageSummary)) : List PageSummary :=
  batches.foldl mergeStudioPages []

def PageSummary.rank (page : PageSummary) : Int ×ₗ Bool :=
  toLex (page.headRevisionNo, decide (page.freshness = .stale))

def PageSummary.order (page : PageSummary) : Int ×ₗ Textᵒᵈ := toLex (-page.createdAt, OrderDual.toDual page.id)

def Regular (history : List PageSummary) : Prop :=
  history.Pairwise fun earlier later =>
    earlier.id = later.id → earlier.createdAt = later.createdAt ∧ earlier.rank ≤ later.rank

theorem comparePages_le (a b : PageSummary) : comparePages a b ≤ 0 ↔ a.order ≤ b.order := by
  unfold comparePages PageSummary.order
  rw [Prod.Lex.toLex_le_toLex]
  by_cases same : b.createdAt - a.createdAt = 0
  · have equal : a.createdAt = b.createdAt := by omega
    rcases lt_trichotomy a.id b.id with below | level | above
    · simp [equal, below, below.not_ge]
    · simp [equal, level]
    · simp [equal, above, above.not_gt, above.le]
  · have differ : -a.createdAt ≠ -b.createdAt := fun equal => same (by omega)
    simp only [ne_eq, same, not_false_iff, if_true, differ, false_and, or_false]
    omega

theorem rank_le {current incoming : PageSummary} : current.rank ≤ incoming.rank ↔
    ¬(current.headRevisionNo > incoming.headRevisionNo ∨
      (current.headRevisionNo = incoming.headRevisionNo ∧ current.freshness = .stale ∧
        incoming.freshness = .current)) := by
  unfold PageSummary.rank
  rw [Prod.Lex.toLex_le_toLex, not_or, not_lt]
  rcases lt_trichotomy current.headRevisionNo incoming.headRevisionNo with below | level | above
  · simp [below, below.le, below.ne]
  · cases current.freshness <;> cases incoming.freshness <;> simp [level]
  · simp [above.not_gt, above.ne', above.not_ge]

theorem newerPage_eq (current incoming : PageSummary) :
    newerPage (some current) incoming = if current.rank ≤ incoming.rank then incoming else current := by
  by_cases newer : current.rank ≤ incoming.rank
  · rw [if_pos newer]
    exact if_neg (rank_le.mp newer)
  · rw [if_neg newer]
    exact if_pos (not_not.mp ((not_congr rank_le).mp newer))

theorem recordPage_takes : Takes PageSummary.id PageSummary.rank recordPage := by
  intro rows page keyed
  unfold recordPage
  cases found : Insertion.get page.id rows with
  | none => exact .inl ⟨rfl, fun current other => (nomatch other)⟩
  | some current =>
    have own : current.id = page.id := keyed.own _ ((Insertion.mem_iff_get keyed.distinct).mpr found)
    rw [newerPage_eq]
    split
    · rename_i newer
      refine .inl ⟨rfl, fun other same => ?_⟩
      rw [← Option.some.inj same]
      exact newer
    · rename_i older
      refine .inr ⟨own ▸ keyed.put current, fun name => ?_, current, rfl, (not_le.mp older).le⟩
      rw [Insertion.get_put]
      split
      · rename_i same
        rw [same, found]
      · rfl

theorem mergedPages_newest (batches : List (List PageSummary)) :
    Newest PageSummary.id PageSummary.rank batches.flatten (mergedPages batches) :=
  recordPage_takes.batches (fun _ _ => sorted_perm _ _) batches

theorem mergedPages_strict (batches : List (List PageSummary)) :
    Insertion.Strict PageSummary.order (mergedPages batches) := by
  have distinct := (mergedPages_newest batches).distinct
  refine merged_strict comparePages_le (fun current incoming => ⟨_, rfl⟩) ?_
  refine List.Nodup.of_map (fun order : Int ×ₗ Textᵒᵈ => OrderDual.ofDual (ofLex order).2) ?_
  rwa [map_map]

/-- A stale head whose source was replaced again is the same head with another time of update. -/
theorem studio_pages_order_matters : ¬∀ (history : List PageSummary) (batches others : List (List PageSummary)),
    Regular history → (∀ page, page ∈ batches.flatten ↔ page ∈ history) →
      (∀ page, page ∈ others.flatten ↔ page ∈ history) →
      ∀ page, page ∈ mergedPages batches ↔ page ∈ mergedPages others := by
  intro claimed
  let once : PageSummary := ⟨[49], [], .wiki, some [50], .stale, 1, 100, 200⟩
  let again : PageSummary := { once with updatedAt := 300 }
  have regular : Regular [once, again] := by
    refine pairwise_pair.mpr fun _ => ⟨rfl, le_of_eq rfl⟩
  have same := claimed [once, again] [[once], [again]] [[again], [once]] regular (by simp)
    (by simp [or_comm]) again
  have first : again ∈ mergedPages [[once], [again]] := by decide
  have second : again ∉ mergedPages [[again], [once]] := by decide
  exact second (same.mp first)

/-- A studio lists the newest head of each page and, of that head,
    the stale state once it came in; what the page, its
    head and its freshness determine is listed alike however and however often the responses came in. -/
theorem studio_pages_never_regress (batches : List (List PageSummary)) :
    ((mergedPages batches).map PageSummary.id).Nodup ∧
      (∀ page ∈ mergedPages batches, page ∈ batches.flatten ∧
        ∀ other ∈ batches.flatten, other.id = page.id → other.headRevisionNo ≤ page.headRevisionNo ∧
          (other.headRevisionNo = page.headRevisionNo → other.freshness = .stale → page.freshness = .stale)) ∧
      (∀ page ∈ batches.flatten, ∃ entry ∈ mergedPages batches, entry.id = page.id) ∧
      ((mergedPages batches).Pairwise fun a b =>
        b.createdAt < a.createdAt ∨ a.createdAt = b.createdAt ∧ b.id < a.id) ∧
      ∀ (others : List (List PageSummary)), (∀ page, page ∈ batches.flatten ↔ page ∈ others.flatten) →
        ∀ {Shown : Type} (shown : PageSummary → Shown),
          (∀ first ∈ batches.flatten, ∀ second ∈ batches.flatten, first.id = second.id →
            first.headRevisionNo = second.headRevisionNo → first.freshness = second.freshness →
            shown first = shown second) →
          ∀ value, value ∈ (mergedPages batches).map shown ↔ value ∈ (mergedPages others).map shown := by
  have newest := mergedPages_newest batches
  refine ⟨newest.distinct, fun page chosen => ⟨newest.listed page chosen, fun other there own => ?_⟩,
    fun page there => ?_, ?_, ?_⟩
  · have above := newest.highest chosen there own
    rw [rank_le, not_or, gt_iff_lt, not_lt] at above
    refine ⟨above.1, fun level stale => ?_⟩
    cases fresh : page.freshness with
    | stale => rfl
    | current => exact absurd ⟨level, stale, fresh⟩ above.2
  · obtain ⟨entry, chosen, own, -⟩ := newest.covers page there
    exact ⟨entry, chosen, own⟩
  · refine (mergedPages_strict batches).imp fun {a b} below => ?_
    rcases Prod.Lex.toLex_lt_toLex.mp below with earlier | ⟨level, before⟩
    · exact .inl (by omega)
    · exact .inr ⟨by omega, OrderDual.toDual_lt_toDual.mp before⟩
  · intro others same Shown shown determined value
    have another := mergedPages_newest others
    have ranked : ∀ first ∈ batches.flatten, ∀ second ∈ batches.flatten, first.id = second.id →
        first.rank = second.rank → shown first = shown second := by
      intro first one second two own level
      obtain ⟨head, fresh⟩ := Prod.mk.inj (toLex.injective level)
      refine determined first one second two own head ?_
      cases left : first.freshness <;> cases right : second.freshness <;> simp [left, right] at fresh ⊢
    constructor
    · exact newest.agree another same ranked value
    · refine another.agree newest (fun page => (same page).symm) (fun first one second two => ?_) value
      exact ranked first ((same first).mpr one) second ((same second).mpr two)

/-- The responses of three states of a page, the latest first and the oldest once more. -/
theorem studio_pages_never_regress_late :
    let first : PageSummary := ⟨[49], [], .wiki, some [50], .current, 1, 100, 200⟩
    let stale : PageSummary := { first with freshness := .stale, updatedAt := 300 }
    let newer : PageSummary := { first with headRevisionId := some [51], headRevisionNo := 2, updatedAt := 400 }
    ∀ value, value ∈ (mergedPages [[newer, stale], [first], [stale]]).map PageSummary.rank ↔
      value ∈ (mergedPages [[first], [stale], [newer]]).map PageSummary.rank := by
  intro first stale newer
  refine (studio_pages_never_regress [[newer, stale], [first], [stale]]).2.2.2.2
    [[first], [stale], [newer]] ?_ PageSummary.rank ?_
  · intro page
    simp only [flatten_cons, flatten_nil, mem_append, mem_cons, not_mem_nil]
    tauto
  · intro one _ two _ _ head fresh
    unfold PageSummary.rank
    rw [head, fresh]

end Web
