import Eliot.Context.History
import Eliot.Relational.Table
import Eliot.Text.Scalars
import Mathlib.Data.List.MinMax
import Mathlib.Data.Prod.Lex
import Mathlib.Data.List.Lex
import Mathlib.Data.Char

namespace Context
open Text Citations Relational List

def queryBytes : Nat := 1024

def historyUnavailable : Failure :=
  .library ⟨.unavailable, "Conversation history changed while preparing this answer. Try again.", 503⟩

def allowanceSpent : Failure := .library ⟨.invalid, narrowScope, 400⟩

structure TurnColumns (Payload : Type) where
  octets : Payload → Nat
  state : Payload → Text
  question : Payload → Text
  answer : Payload → Text
  revisionIds : Payload → List Text
  citations : Payload → List Citation
  questionBytes : Payload → Nat
  answerBytes : Payload → Nat
  revisionsBytes : Payload → Nat
  citationsBytes : Payload → Nat

/-- A row of the table `turns`. -/
structure StoredRow (Payload : Type) where
  id : List Char
  payload : Payload
  createdAt : Int
  version : Nat

abbrev RowKey := Lex (Int × List Char)

instance RowKey.order : LinearOrder RowKey := @Prod.Lex.instLinearOrder Int (List Char) Int.instLinearOrder _

instance : Preorder RowKey := RowKey.order.toPreorder

def StoredRow.key {Payload : Type} (row : StoredRow Payload) : RowKey := toLex (row.createdAt, row.id)

def columnText (column : List Char) : Text := column.flatMap units

/-- `octet_length(id)<=512 AND length(id)<=128`; the length ends at the first character of code 0. -/
def boundedId (id : List Char) : Bool :=
  (Utf8.encode id).length ≤ 512 && (id.takeWhile (·.toNat ≠ 0)).length ≤ 128

structure PlannedExchange (Payload : Type) where
  row : StoredRow Payload
  tokens : Nat
  isPartial : Bool
  bytes : Nat
  cached : Option HistoryExchange

/-- The stored turns and the variables of a reader. `visited` and `scanned` record the keys it took
    up, the latest first, and the payloads its queries read. -/
structure Conversation (Payload : Type) where
  turns : Table (StoredRow Payload) (List Char) (·.id)
  before : Option RowKey
  scannedBytes : Nat
  done : Bool
  frozenJson : Bool
  candidates : List (PlannedExchange Payload)
  visited : List RowKey
  scanned : List Payload

/-- What a call of `next` gives; a candidate is named by its place. -/
inductive Reading where
  | finish
  | ignored
  | omitted
  | limited
  | candidate (index : Nat)

section
variable {Payload : Type}

abbrev HistoryState (Payload : Type) := Assembly (Conversation Payload)

def HistoryState.spend (state : HistoryState Payload) (bytes : Nat) : HistoryState Payload :=
  { state with used := state.used + bytes }

def newestRow (conversation : Conversation Payload) : Option (StoredRow Payload) :=
  (conversation.turns.rows.filter fun row => conversation.before.all fun before => row.key < before).argmax (·.key)

/-- `WHERE id=? AND created_at=? AND history_version=?` -/
def pinnedRow (turns : Table (StoredRow Payload) (List Char) (·.id)) (row : StoredRow Payload) :
    Option (StoredRow Payload) :=
  (turns.find row.id).filter fun found => found.createdAt = row.createdAt ∧ found.version = row.version

def limited (state : HistoryState Payload) : HistoryState Payload × Except Failure Reading :=
  ({ state with world := { state.world with done := true } }, .ok .limited)

variable (columns : TurnColumns Payload)

def eligible (payload : Payload) : Bool :=
  columns.state payload = prose "completed" rfl ||
    (columns.state payload = prose "partial" rfl && decide (0 < (columns.citations payload).length))

def inScope (frozen : List Text) (payload : Payload) : Bool :=
  (columns.citations payload).all fun citation => citation.revisionId ∈ frozen

def exchangeOf (id : List Char) (payload : Payload) (isPartial : Bool) : HistoryExchange where
  user :=
    { role := .user, content := columns.question payload, turnId := none
      revisionIds := some (columns.revisionIds payload), citations := none, isPartial := false }
  assistant := some
    { role := .assistant, content := columns.answer payload, turnId := some (columnText id)
      revisionIds := some ((columns.citations payload).map (·.revisionId))
      citations := some (columns.citations payload), isPartial := isPartial }

def partialState (payload : Payload) : Bool := columns.state payload = prose "partial" rfl

def planned (row : StoredRow Payload) (payload : Payload) : PlannedExchange Payload where
  row := row
  tokens := (27 + columns.questionBytes payload + 2) / 3 + 32 + ((32 + columns.answerBytes payload + 2) / 3 + 32)
  isPartial := partialState columns payload
  bytes := queryBytes + 4 * (columns.questionBytes payload + columns.answerBytes payload +
    columns.revisionsBytes payload + columns.citationsBytes payload) +
    64 * (columns.revisionIds payload).length + 512 * (columns.citations payload).length
  cached := none

def judgeRow (frozen : List Text) (row : StoredRow Payload) (payload : Payload) (state : HistoryState Payload) :
    HistoryState Payload × Except Failure Reading :=
  if eligible columns payload = false then (state, .ok .ignored)
  else if inScope columns frozen payload = false then (state, .ok .omitted)
  -- The second read of the row is reserved before the candidate is given out.
  else if materializationBytes < state.world.scannedBytes + columns.octets row.payload then limited state
  else
    ({ state with world :=
        { state.world with
          scannedBytes := state.world.scannedBytes + columns.octets row.payload
          candidates := state.world.candidates ++ [planned columns row payload] } },
      .ok (.candidate state.world.candidates.length))

def readMetadata (frozen : List Text) (row : StoredRow Payload) (state : HistoryState Payload) :
    HistoryState Payload × Except Failure Reading :=
  let state := state.spend queryBytes
  let scannedBytes := state.world.scannedBytes + columns.octets row.payload
  match pinnedRow state.world.turns row with
  | none => ({ state with world := { state.world with scannedBytes := scannedBytes } }, .error historyUnavailable)
  | some found =>
    judgeRow columns frozen row found.payload
      { state with world :=
        { state.world with scannedBytes := scannedBytes, scanned := found.payload :: state.world.scanned } }

def frozenBytes (frozen : List Text) : Nat := 128 + (frozen.map fun id => 32 + 12 * id.length).sum

def visitRow (frozen : List Text) (row : StoredRow Payload) (state : HistoryState Payload) :
    HistoryState Payload × Except Failure Reading :=
  let state := { state with world := { state.world with visited := row.key :: state.world.visited } }
  if materializationBytes < state.world.scannedBytes + columns.octets row.payload then limited state
  else if state.world.frozenJson = false ∧ fits state (frozenBytes frozen) = false then limited state
  else
    let state := if state.world.frozenJson then state else
      { state.spend (frozenBytes frozen) with world := { state.world with frozenJson := true } }
    if fits state queryBytes = false then limited state
    else readMetadata columns frozen row state

def next (currentTurnId : Text) (frozen : List Text) (state : HistoryState Payload) :
    HistoryState Payload × Except Failure Reading :=
  if state.world.done then (state, .ok .finish)
  else if fits state queryBytes = false then limited state
  else
    let state := state.spend queryBytes
    match newestRow state.world with
    | none => ({ state with world := { state.world with done := true } }, .ok .finish)
    | some row =>
      if boundedId row.id = false then limited state
      else
        let state := { state with world := { state.world with before := some row.key } }
        if columnText row.id = currentTurnId then (state, .ok .ignored)
        else visitRow columns frozen row state

/-- `load` of the candidate at a place -/
def load (index : Nat) (candidate : PlannedExchange Payload) (state : HistoryState Payload) :
    HistoryState Payload × Except Failure HistoryExchange :=
  match candidate.cached with
  | some exchange => (state, .ok exchange)
  | none =>
    if fits state candidate.bytes = false then (state, .error allowanceSpent)
    else
      let state := state.spend candidate.bytes
      match pinnedRow state.world.turns candidate.row with
      | none => (state, .error historyUnavailable)
      | some found =>
        let exchange := exchangeOf columns candidate.row.id found.payload candidate.isPartial
        ({ state with world :=
            { state.world with
              scanned := found.payload :: state.world.scanned
              candidates := state.world.candidates.set index { candidate with cached := some exchange } } },
          .ok exchange)

def PlannedExchange.cost (candidate : PlannedExchange Payload) : Nat :=
  if candidate.cached.isSome then 0 else candidate.bytes

def PlannedExchange.admitted (candidate : PlannedExchange Payload) : HistoryExchange :=
  exchangeOf columns candidate.row.id candidate.row.payload (partialState columns candidate.row.payload)

end

section
variable {Payload : Type}

/-- What happens to a conversation while its history is read: a turn is written, bytes are reserved
    elsewhere, the reader is asked for the next row, or a candidate is loaded. -/
inductive HistoryEvent (Payload : Type) where
  | write (id : List Char) (payload : Payload) (now : Int)
  | spend (bytes : Nat)
  | next
  | load (index : Nat)

/-- The statement of `writeTurn` -/
def writeStored (turns : Table (StoredRow Payload) (List Char) (·.id)) (id : List Char) (payload : Payload) (now : Int) :
    Table (StoredRow Payload) (List Char) (·.id) :=
  turns.upsert ⟨id, payload, now, 1⟩ fun old => { old with payload := payload, version := old.version + 1 }

variable (columns : TurnColumns Payload) (currentTurnId : Text) (frozen : List Text)

def react (state : HistoryState Payload) : HistoryEvent Payload → HistoryState Payload
  | .write id payload now =>
    { state with world := { state.world with turns := writeStored state.world.turns id payload now } }
  | .spend bytes => state.spend bytes
  | .next => (next columns currentTurnId frozen state).1
  | .load index =>
    match state.world.candidates[index]? with
    | none => state
    | some candidate => (load columns index candidate state).1

def HistoryState.run (state : HistoryState Payload) (events : List (HistoryEvent Payload)) : HistoryState Payload :=
  events.foldl (react columns currentTurnId frozen) state

def freshReader (turns : Table (StoredRow Payload) (List Char) (·.id)) (used : Nat) : HistoryState Payload :=
  ⟨used, ⟨turns, none, 0, false, false, [], [], []⟩⟩

end

section
variable {Payload : Type} {turns other last : Table (StoredRow Payload) (List Char) (·.id)}

def Kept (turns : Table (StoredRow Payload) (List Char) (·.id)) (row : StoredRow Payload) : Prop :=
  ∃ found, turns.find row.id = some found ∧ found.createdAt = row.createdAt ∧
    (found = row ∨ row.version < found.version)

theorem kept_stored {row : StoredRow Payload} (stored : row ∈ turns) : Kept turns row :=
  ⟨row, Table.find_some.mpr ⟨stored, rfl⟩, rfl, .inl rfl⟩

theorem kept_write {row : StoredRow Payload} (kept : Kept turns row) (id : List Char) (payload : Payload) (now : Int) :
    Kept (writeStored turns id payload now) row := by
  obtain ⟨found, present, time, version⟩ := kept
  by_cases same : id = row.id
  · refine ⟨{ found with payload := payload, version := found.version + 1 }, ?_, time, .inr ?_⟩
    · rw [writeStored, Table.find_upsert, if_pos same, present]
    · show row.version < found.version + 1
      rcases version with rfl | newer
      · exact Nat.lt_succ_self _
      · omega
  · refine ⟨found, ?_, time, version⟩
    rw [writeStored, Table.find_upsert, if_neg same, present]

theorem pinnedRow_kept {row found : StoredRow Payload} (kept : Kept turns row)
    (pinned : pinnedRow turns row = some found) : found = row := by
  obtain ⟨stored, present, time, version⟩ := kept
  rw [pinnedRow, present] at pinned
  obtain ⟨same, at_version⟩ := Option.filter_eq_some_iff.mp pinned
  obtain rfl := Option.some.inj same
  rcases version with same | newer
  · exact same
  · have equal := (of_decide_eq_true at_version).2
    omega

theorem pinnedRow_stored {row : StoredRow Payload} (stored : row ∈ turns) : pinnedRow turns row = some row := by
  rw [pinnedRow, Table.find_some.mpr ⟨stored, rfl⟩]
  simp

end

section
variable {Payload : Type} {columns : TurnColumns Payload} {currentTurnId : Text} {frozen : List Text}
  {start : Table (StoredRow Payload) (List Char) (·.id)} {conversation : Conversation Payload}

def PlannedExchange.pending (columns : TurnColumns Payload) (candidate : PlannedExchange Payload) : Nat :=
  if candidate.cached.isSome then 0 else columns.octets candidate.row.payload

structure PlannedExchange.Pinned (columns : TurnColumns Payload) (conversation : Conversation Payload)
    (candidate : PlannedExchange Payload) : Prop where
  kept : Kept conversation.turns candidate.row
  cached : ∀ exchange, candidate.cached = some exchange → exchange = candidate.admitted columns
  isPartial : candidate.isPartial = partialState columns candidate.row.payload
  visited : candidate.row.key ∈ conversation.visited

/-- Where a reader stands in a conversation that began with the rows `start`. -/
structure Exact (columns : TurnColumns Payload) (currentTurnId : Text)
    (start : Table (StoredRow Payload) (List Char) (·.id)) (conversation : Conversation Payload) : Prop where
  kept : ∀ row ∈ start, Kept conversation.turns row
  descending : conversation.visited.Pairwise (· < ·)
  cursor : ∀ key ∈ conversation.visited, ∃ before, conversation.before = some before ∧ before ≤ key
  others : ∀ key ∈ conversation.visited, columnText (ofLex key).2 ≠ currentTurnId
  stored : ∀ key ∈ conversation.visited, ∃ row ∈ conversation.turns, row.key = key
  passed : ∀ row ∈ start, columnText row.id ≠ currentTurnId →
    (∃ before, conversation.before = some before ∧ before ≤ row.key) → row.key ∈ conversation.visited
  pinned : ∀ candidate ∈ conversation.candidates, candidate.Pinned columns conversation
  accounted : (conversation.scanned.map columns.octets).sum +
    (conversation.candidates.map (·.pending columns)).sum ≤ conversation.scannedBytes
  bounded : conversation.scannedBytes ≤ materializationBytes

theorem exact_fresh (used : Nat) : Exact columns currentTurnId start (freshReader start used).world where
  kept := fun _ stored => kept_stored stored
  descending := .nil
  cursor := by simp [freshReader]
  others := by simp [freshReader]
  stored := by simp [freshReader]
  passed := by simp [freshReader]
  pinned := by simp [freshReader]
  accounted := Nat.le_refl _
  bounded := Nat.zero_le _

theorem Exact.done (exact : Exact columns currentTurnId start conversation) :
    Exact columns currentTurnId start { conversation with done := true } :=
  { exact with pinned := fun candidate listed => { exact.pinned candidate listed with } }

theorem Exact.frozenJson (exact : Exact columns currentTurnId start conversation) :
    Exact columns currentTurnId start { conversation with frozenJson := true } :=
  { exact with pinned := fun candidate listed => { exact.pinned candidate listed with } }

theorem Kept.key {turns : Table (StoredRow Payload) (List Char) (·.id)} {row : StoredRow Payload}
    (kept : Kept turns row) : ∃ found ∈ turns, found.key = row.key := by
  obtain ⟨found, present, time, -⟩ := kept
  have stored := Table.find_some.mp present
  refine ⟨found, stored.1, ?_⟩
  rw [StoredRow.key, StoredRow.key, time, stored.2]

theorem Exact.write (exact : Exact columns currentTurnId start conversation) (id : List Char) (payload : Payload)
    (now : Int) : Exact columns currentTurnId start
      { conversation with turns := writeStored conversation.turns id payload now } :=
  { exact with
    kept := fun row stored => kept_write (exact.kept row stored) id payload now
    stored := by
      intro key visited
      obtain ⟨row, stored, same⟩ := exact.stored key visited
      obtain ⟨found, present, equal⟩ := (kept_write (kept_stored stored) id payload now).key
      exact ⟨found, present, equal.trans same⟩
    pinned := fun candidate listed =>
      { exact.pinned candidate listed with kept := kept_write (exact.pinned candidate listed).kept id payload now } }

theorem newestRow_some {row : StoredRow Payload} (found : newestRow conversation = some row) :
    row ∈ conversation.turns ∧ (∀ before, conversation.before = some before → row.key < before) ∧
      ∀ other ∈ conversation.turns, (∀ before, conversation.before = some before → other.key < before) →
        other.key ≤ row.key := by
  have listed := mem_filter.mp (argmax_mem found)
  refine ⟨listed.1, ?_, ?_⟩
  · intro before same
    simpa [same] using listed.2
  · intro other stored below
    refine le_of_mem_argmax (mem_filter.mpr ⟨stored, ?_⟩) found
    cases same : conversation.before with
    | none => rfl
    | some before => simpa [same] using below before same

theorem Exact.reached (exact : Exact columns currentTurnId start conversation) {row other : StoredRow Payload}
    (found : newestRow conversation = some row) (early : other ∈ start) (behind : row.key ≤ other.key) :
    other.key = row.key ∨ ∃ before, conversation.before = some before ∧ before ≤ other.key := by
  obtain ⟨-, -, newest⟩ := newestRow_some found
  by_cases below : ∀ before, conversation.before = some before → other.key < before
  · left
    obtain ⟨stored, present, same⟩ := (exact.kept other early).key
    have le := newest stored present (by rwa [same])
    rw [same] at le
    exact le_antisymm le behind
  · right
    obtain ⟨before, missed⟩ := not_forall.mp below
    obtain ⟨same, behind⟩ := Classical.not_imp.mp missed
    exact ⟨before, same, not_lt.mp behind⟩

theorem Exact.skip (exact : Exact columns currentTurnId start conversation) {row : StoredRow Payload}
    (found : newestRow conversation = some row) (current : columnText row.id = currentTurnId) :
    Exact columns currentTurnId start { conversation with before := some row.key } := by
  obtain ⟨-, below, -⟩ := newestRow_some found
  exact { exact with
    cursor := by
      intro key visited
      obtain ⟨before, same, le⟩ := exact.cursor key visited
      exact ⟨row.key, rfl, le_trans (le_of_lt (below before same)) le⟩
    passed := by
      intro other early different behind
      obtain ⟨before, same, le⟩ := behind
      obtain rfl := Option.some.inj same
      rcases exact.reached found early le with same | passed
      · have id : other.id = row.id := congrArg (fun key : RowKey => (ofLex key).2) same
        rw [id] at different
        exact absurd current different
      · exact exact.passed other early different passed
    pinned := fun candidate listed => { exact.pinned candidate listed with } }

theorem Exact.visit (exact : Exact columns currentTurnId start conversation) {row : StoredRow Payload}
    (found : newestRow conversation = some row) (other : columnText row.id ≠ currentTurnId) :
    Exact columns currentTurnId start
      { conversation with before := some row.key, visited := row.key :: conversation.visited } := by
  obtain ⟨stored, below, -⟩ := newestRow_some found
  have lower : ∀ key ∈ conversation.visited, row.key < key := by
    intro key visited
    obtain ⟨before, same, le⟩ := exact.cursor key visited
    exact lt_of_lt_of_le (below before same) le
  exact { exact with
    descending := pairwise_cons.mpr ⟨lower, exact.descending⟩
    cursor := by
      intro key visited
      rcases mem_cons.mp visited with rfl | visited
      · exact ⟨row.key, rfl, le_refl _⟩
      · exact ⟨row.key, rfl, le_of_lt (lower key visited)⟩
    others := by
      intro key visited
      rcases mem_cons.mp visited with rfl | visited
      · exact other
      · exact exact.others key visited
    stored := by
      intro key visited
      rcases mem_cons.mp visited with rfl | visited
      · exact ⟨row, stored, rfl⟩
      · exact exact.stored key visited
    passed := by
      intro early listed different behind
      obtain ⟨before, same, le⟩ := behind
      obtain rfl := Option.some.inj same
      rcases exact.reached found listed le with same | passed
      · rw [same]
        exact mem_cons_self
      · exact mem_cons_of_mem _ (exact.passed early listed different passed)
    pinned := fun candidate listed =>
      { exact.pinned candidate listed with
        visited := mem_cons_of_mem _ (exact.pinned candidate listed).visited } }

theorem Exact.judge {state : HistoryState Payload} (exact : Exact columns currentTurnId start state.world)
    {row : StoredRow Payload} (stored : row ∈ state.world.turns) (visited : row.key ∈ state.world.visited) :
    Exact columns currentTurnId start (judgeRow columns frozen row row.payload state).1.world ∧
      ∃ reading, (judgeRow columns frozen row row.payload state).2 = .ok reading := by
  unfold judgeRow
  by_cases accepted : eligible columns row.payload = false
  · rw [if_pos accepted]
    exact ⟨exact, _, rfl⟩
  · rw [if_neg accepted]
    by_cases within : inScope columns frozen row.payload = false
    · rw [if_pos within]
      exact ⟨exact, _, rfl⟩
    · rw [if_neg within]
      by_cases reserved : materializationBytes < state.world.scannedBytes + columns.octets row.payload
      · rw [if_pos reserved]
        exact ⟨exact.done, _, rfl⟩
      · rw [if_neg reserved]
        refine ⟨?_, _, rfl⟩
        have accounted := exact.accounted
        have candidate : (planned columns row row.payload).Pinned columns state.world := {
          kept := kept_stored stored
          cached := by
            intro exchange none
            cases none
          isPartial := rfl
          visited := visited }
        exact { exact with
          pinned := by
            intro other listed
            rcases mem_append.mp listed with listed | listed
            · exact { exact.pinned other listed with }
            · rw [mem_singleton.mp listed]
              exact { candidate with }
          accounted := by
            have pending : (planned columns row row.payload).pending columns = columns.octets row.payload := rfl
            simp only [map_append, map_cons, map_nil, sum_append, sum_cons, sum_nil,
              pending]
            omega
          bounded := Nat.not_lt.mp reserved }

theorem Exact.metadata {state : HistoryState Payload} (exact : Exact columns currentTurnId start state.world)
    {row : StoredRow Payload} (stored : row ∈ state.world.turns) (visited : row.key ∈ state.world.visited)
    (admitted : state.world.scannedBytes + columns.octets row.payload ≤ materializationBytes) :
    Exact columns currentTurnId start (readMetadata columns frozen row state).1.world ∧
      ∃ reading, (readMetadata columns frozen row state).2 = .ok reading := by
  have accounted := exact.accounted
  have scanned : Exact columns currentTurnId start
      { state.world with
        scannedBytes := state.world.scannedBytes + columns.octets row.payload
        scanned := row.payload :: state.world.scanned } :=
    { exact with
      pinned := fun candidate listed => { exact.pinned candidate listed with }
      accounted := by
        show ((row.payload :: state.world.scanned).map columns.octets).sum + _ ≤
          state.world.scannedBytes + columns.octets row.payload
        rw [map_cons, sum_cons]
        dsimp only
        omega
      bounded := admitted }
  have pinned : pinnedRow (state.spend queryBytes).world.turns row = some row := pinnedRow_stored stored
  simp only [readMetadata, pinned]
  exact Exact.judge scanned stored visited

theorem Exact.visitRow {state : HistoryState Payload} (exact : Exact columns currentTurnId start state.world)
    {row : StoredRow Payload} (found : newestRow state.world = some row) (other : columnText row.id ≠ currentTurnId) :
    let here := { state with world := { state.world with before := some row.key } }
    Exact columns currentTurnId start (visitRow columns frozen row here).1.world ∧
      ∃ reading, (Context.visitRow columns frozen row here).2 = .ok reading := by
  obtain ⟨stored, -, -⟩ := newestRow_some found
  have visited := exact.visit found other
  unfold Context.visitRow
  dsimp only
  by_cases large : materializationBytes < state.world.scannedBytes + columns.octets row.payload
  · rw [if_pos large]
    exact ⟨visited.done, _, rfl⟩
  · rw [if_neg large]
    have admitted := Nat.not_lt.mp large
    split
    · exact ⟨visited.done, _, rfl⟩
    · split
      · split
        · exact ⟨visited.done, _, rfl⟩
        · exact Exact.metadata visited stored mem_cons_self admitted
      · split
        · exact ⟨visited.frozenJson.done, _, rfl⟩
        · exact Exact.metadata visited.frozenJson stored mem_cons_self admitted

theorem Exact.next {state : HistoryState Payload} (exact : Exact columns currentTurnId start state.world) :
    Exact columns currentTurnId start (next columns currentTurnId frozen state).1.world ∧
      ∃ reading, (Context.next columns currentTurnId frozen state).2 = .ok reading := by
  unfold Context.next
  split
  · exact ⟨exact, _, rfl⟩
  · split
    · exact ⟨exact.done, _, rfl⟩
    · dsimp only
      split
      · exact ⟨exact.done, _, rfl⟩
      · rename_i row found
        split
        · exact ⟨exact.done, _, rfl⟩
        · split
          · rename_i current
            exact ⟨exact.skip found current, _, rfl⟩
          · rename_i other
            exact @Exact.visitRow _ _ _ _ _ (state.spend queryBytes) exact row found other

theorem sum_set (size : PlannedExchange Payload → Nat) {candidates : List (PlannedExchange Payload)} {index : Nat}
    {old : PlannedExchange Payload} (found : candidates[index]? = some old) (new : PlannedExchange Payload) :
    ((candidates.set index new).map size).sum + size old = (candidates.map size).sum + size new := by
  induction candidates generalizing index with
  | nil => simp at found
  | cons first candidates ih =>
    cases index with
    | zero =>
      rw [getElem?_cons_zero] at found
      obtain rfl := Option.some.inj found
      simp only [set_cons_zero, map_cons, sum_cons]
      omega
    | succ index =>
      have later := ih (by simpa using found)
      simp only [set_cons_succ, map_cons, sum_cons]
      omega

theorem Exact.load {state : HistoryState Payload} (exact : Exact columns currentTurnId start state.world) {index : Nat}
    {candidate : PlannedExchange Payload} (listed : state.world.candidates[index]? = some candidate) :
    Exact columns currentTurnId start (load columns index candidate state).1.world ∧
      ((Context.load columns index candidate state).2 = .ok (candidate.admitted columns) ∨
        (Context.load columns index candidate state).2 = .error historyUnavailable ∨
        fits state candidate.cost = false ∧ Context.load columns index candidate state = (state, .error allowanceSpent)) := by
  have pinned := exact.pinned candidate (mem_of_getElem? listed)
  unfold Context.load
  split
  · rename_i exchange cached
    exact ⟨exact, .inl (congrArg Except.ok (pinned.cached exchange cached))⟩
  · rename_i fresh
    split
    · rename_i spent
      exact ⟨exact, .inr (.inr ⟨by simpa [PlannedExchange.cost, fresh] using spent, rfl⟩)⟩
    · dsimp only
      split
      · exact ⟨exact, .inr (.inl rfl)⟩
      · rename_i found same
        obtain rfl := pinnedRow_kept pinned.kept same
        have exchange : exchangeOf columns candidate.row.id candidate.row.payload candidate.isPartial =
            candidate.admitted columns := by
          rw [PlannedExchange.admitted, pinned.isPartial]
        refine ⟨?_, .inl (congrArg Except.ok exchange)⟩
        have accounted := exact.accounted
        let loaded : PlannedExchange Payload :=
          { candidate with cached := some (exchangeOf columns candidate.row.id candidate.row.payload candidate.isPartial) }
        have total := sum_set (·.pending columns) listed loaded
        have before : candidate.pending columns = columns.octets candidate.row.payload := by
          simp [PlannedExchange.pending, fresh]
        have after : loaded.pending columns = 0 := rfl
        exact { exact with
          pinned := by
            intro other member
            rcases mem_or_eq_of_mem_set member with member | rfl
            · exact { exact.pinned other member with }
            · exact { pinned with
                cached := by
                  intro other equal
                  rw [← Option.some.inj equal, exchange]
                  rfl }
          accounted := by
            rw [before, after] at total
            show ((candidate.row.payload :: state.world.scanned).map columns.octets).sum +
              ((state.world.candidates.set index loaded).map (·.pending columns)).sum ≤ state.world.scannedBytes
            rw [map_cons, sum_cons]
            omega }

theorem Exact.react {state : HistoryState Payload} (exact : Exact columns currentTurnId start state.world)
    (event : HistoryEvent Payload) :
    Exact columns currentTurnId start (react columns currentTurnId frozen state event).world := by
  cases event with
  | write id payload now => exact exact.write id payload now
  | spend bytes => exact exact
  | next => exact exact.next.1
  | load index =>
    unfold Context.react
    dsimp only
    split
    · exact exact
    · rename_i candidate listed
      exact (exact.load listed).1

theorem exact_run (turns : Table (StoredRow Payload) (List Char) (·.id)) (used : Nat)
    (events : List (HistoryEvent Payload)) : Exact columns currentTurnId turns
      ((freshReader turns used).run columns currentTurnId frozen events).world := by
  have run (state : HistoryState Payload) (exact : Exact columns currentTurnId turns state.world) :
      Exact columns currentTurnId turns (state.run columns currentTurnId frozen events).world := by
    induction events generalizing state with
    | nil => exact exact
    | cons event events ih => exact ih _ (exact.react event)
  exact run _ (exact_fresh used)

theorem Exact.ids (exact : Exact columns currentTurnId start conversation) :
    (conversation.visited.map fun key => (ofLex key).2).Nodup := by
  have apart : conversation.visited.Pairwise fun first second => (ofLex first).2 ≠ (ofLex second).2 := by
    refine exact.descending.imp_of_mem ?_
    intro first second left right lower same
    obtain ⟨row, stored, rfl⟩ := exact.stored first left
    obtain ⟨other, listed, rfl⟩ := exact.stored second right
    have equal : row = other := Table.eq_of_key stored listed same
    rw [equal] at lower
    exact lt_irrefl _ lower
  exact pairwise_map.mpr apart

end

section
variable {Payload : Type} {columns : TurnColumns Payload} {currentTurnId : Text} {frozen : List Text}

theorem judgeRow_used (row : StoredRow Payload) (payload : Payload) (state : HistoryState Payload) :
    (judgeRow columns frozen row payload state).1.used = state.used := by
  unfold judgeRow
  split_ifs <;> rfl

theorem readMetadata_used {bytes : Nat} (row : StoredRow Payload) {state : HistoryState Payload}
    (charged : bytes ≤ state.used) : bytes ≤ (readMetadata columns frozen row state).1.used := by
  have more : bytes ≤ state.used + queryBytes := charged.trans (Nat.le_add_right _ _)
  unfold readMetadata
  dsimp only
  split
  · exact more
  · rw [judgeRow_used]
    exact more

theorem visitRow_used {bytes : Nat} (row : StoredRow Payload) {state : HistoryState Payload}
    (charged : bytes ≤ state.used) : bytes ≤ (visitRow columns frozen row state).1.used := by
  have more : bytes ≤ state.used + frozenBytes frozen := charged.trans (Nat.le_add_right _ _)
  unfold visitRow
  dsimp only
  split
  · exact charged
  · split
    · exact charged
    · split
      · split
        · exact charged
        · refine readMetadata_used row ?_
          exact charged
      · split
        · exact more
        · refine readMetadata_used row ?_
          exact more

theorem next_charges (state : HistoryState Payload) :
    (next columns currentTurnId frozen state).1.world.done = true ∨
      state.used + queryBytes ≤ materializationBytes ∧
        state.used + queryBytes ≤ (next columns currentTurnId frozen state).1.used := by
  unfold next
  split
  · rename_i done
    exact .inl done
  · split
    · exact .inl rfl
    · rename_i room
      have room : state.used + queryBytes ≤ materializationBytes := by
        rw [Bool.not_eq_false] at room
        exact of_decide_eq_true room
      dsimp only
      split
      · exact .inl rfl
      · split
        · exact .inl rfl
        · split
          · exact .inr ⟨room, Nat.le_refl _⟩
          · refine .inr ⟨room, visitRow_used _ ?_⟩
            exact Nat.le_refl _

theorem next_done {state : HistoryState Payload} (done : state.world.done = true) :
    next columns currentTurnId frozen state = (state, .ok .finish) := if_pos done

theorem load_frame (index : Nat) (candidate : PlannedExchange Payload) (state : HistoryState Payload) :
    state.used ≤ (load columns index candidate state).1.used ∧
      (load columns index candidate state).1.world.done = state.world.done := by
  have more : state.used ≤ state.used + candidate.bytes := Nat.le_add_right _ _
  unfold load
  split
  · exact ⟨Nat.le_refl _, rfl⟩
  · split
    · exact ⟨Nat.le_refl _, rfl⟩
    · dsimp only
      split
      · exact ⟨more, rfl⟩
      · exact ⟨more, rfl⟩

/-- The calls of `next` among events. -/
def asked (events : List (HistoryEvent Payload)) : Nat :=
  events.countP fun event => match event with
    | .next => true
    | _ => false

theorem run_charges (state : HistoryState Payload) (events : List (HistoryEvent Payload)) :
    (state.run columns currentTurnId frozen events).world.done = true ∨
      asked events * queryBytes ≤ materializationBytes ∧
        asked events * queryBytes ≤ (state.run columns currentTurnId frozen events).used := by
  induction events using List.reverseRecOn with
  | nil =>
    have none : asked ([] : List (HistoryEvent Payload)) = 0 := rfl
    rw [none, Nat.zero_mul]
    exact .inr ⟨Nat.zero_le _, Nat.zero_le _⟩
  | append_singleton events event ih =>
    have shape : state.run columns currentTurnId frozen (events ++ [event]) =
        react columns currentTurnId frozen (state.run columns currentTurnId frozen events) event := by
      rw [HistoryState.run, HistoryState.run, foldl_append]
      rfl
    rw [shape]
    generalize state.run columns currentTurnId frozen events = reached at ih
    cases event with
    | write id payload now =>
      have same : asked (events ++ [HistoryEvent.write id payload now]) = asked events := by simp [asked]
      rw [same]
      exact ih
    | spend bytes =>
      have same : asked (events ++ [(.spend bytes : HistoryEvent Payload)]) = asked events := by simp [asked]
      rw [same]
      exact ih.imp id fun paid => ⟨paid.1, paid.2.trans (Nat.le_add_right _ _)⟩
    | next =>
      have more : asked (events ++ [(.next : HistoryEvent Payload)]) = asked events + 1 := by simp [asked]
      rw [more]
      rcases ih with done | ⟨-, paid⟩
      · left
        show (next columns currentTurnId frozen reached).1.world.done = true
        rw [next_done done]
        exact done
      · rcases next_charges reached with done | ⟨room, charged⟩
        · exact .inl done
        · right
          show _ ∧ (asked events + 1) * queryBytes ≤ (next columns currentTurnId frozen reached).1.used
          rw [Nat.add_mul]
          omega
    | load index =>
      have same : asked (events ++ [(.load index : HistoryEvent Payload)]) = asked events := by simp [asked]
      rw [same]
      unfold react
      dsimp only
      split
      · exact ih
      · rename_i candidate listed
        obtain ⟨used, done⟩ : reached.used ≤ (load columns index candidate reached).1.used ∧ _ :=
          load_frame index candidate reached
        rw [done]
        exact ih.imp id fun paid => ⟨paid.1, paid.2.trans used⟩

theorem visitRow_unfinished (row : StoredRow Payload) (state : HistoryState Payload) :
    (visitRow columns frozen row state).2 ≠ .ok .finish := by
  have judged (payload : Payload) (state : HistoryState Payload) :
      (judgeRow columns frozen row payload state).2 ≠ .ok .finish := by
    unfold judgeRow limited
    split_ifs <;> simp
  have metadata (state : HistoryState Payload) : (readMetadata columns frozen row state).2 ≠ .ok .finish := by
    unfold readMetadata
    dsimp only
    split
    · simp
    · exact judged _ _
  unfold visitRow limited
  dsimp only
  split
  · simp
  · split
    · simp
    · split
      · split
        · simp
        · exact metadata _
      · split
        · simp
        · exact metadata _

theorem next_finish {state : HistoryState Payload} (reading : state.world.done = false)
    (finish : (next columns currentTurnId frozen state).2 = .ok .finish) : newestRow state.world = none := by
  have going : ¬ state.world.done = true := by simp [reading]
  unfold next limited at finish
  rw [if_neg going] at finish
  split at finish
  · simp at finish
  · dsimp only at finish
    split at finish
    · assumption
    · split at finish
      · simp at finish
      · split at finish
        · simp at finish
        · exact absurd finish (visitRow_unfinished _ _)

theorem Exact.finished {start : Table (StoredRow Payload) (List Char) (·.id)} {state : HistoryState Payload}
    (exact : Exact columns currentTurnId start state.world) (reading : state.world.done = false)
    (finish : (Context.next columns currentTurnId frozen state).2 = .ok .finish) :
    ∀ row ∈ start, columnText row.id ≠ currentTurnId → row.key ∈ state.world.visited := by
  have none := next_finish reading finish
  rw [newestRow, argmax_eq_none, filter_eq_nil_iff] at none
  intro row early other
  obtain ⟨found, stored, same⟩ := (exact.kept row early).key
  have above := none found stored
  refine exact.passed row early other ?_
  cases cursor : state.world.before with
  | none => simp [cursor] at above
  | some before =>
    have le : before ≤ found.key := by simpa [cursor] using above
    exact ⟨before, rfl, same ▸ le⟩

end

/-- A reader over turns that are written while it reads: it goes strictly down, meets no turn twice
    and never the current one, skips none that was there, reads no more than its allowance, loads what
    it sized or fails, and comes to an end. -/
theorem history_reader_exact {Payload : Type} (columns : TurnColumns Payload) (currentTurnId : Text)
    (frozen : List Text) (turns : Table (StoredRow Payload) (List Char) (·.id)) (used : Nat)
    (events : List (HistoryEvent Payload)) :
    let state := (freshReader turns used).run columns currentTurnId frozen events
    state.world.visited.Pairwise (· < ·) ∧
    (state.world.visited.map fun key => (ofLex key).2).Nodup ∧
    (∀ key ∈ state.world.visited, columnText (ofLex key).2 ≠ currentTurnId) ∧
    (state.world.scanned.map columns.octets).sum ≤ materializationBytes ∧
    (∀ index candidate, state.world.candidates[index]? = some candidate →
      candidate.row.key ∈ state.world.visited ∧
      (∀ exchange, (load columns index candidate state).2 = .ok exchange → exchange = candidate.admitted columns) ∧
      (fits state candidate.cost = true →
        (load columns index candidate state).2 = .ok (candidate.admitted columns) ∨
        (load columns index candidate state).2 = .error historyUnavailable)) ∧
    (∃ reading, (next columns currentTurnId frozen state).2 = .ok reading) ∧
    (state.world.done = false → (next columns currentTurnId frozen state).2 = .ok .finish →
      ∀ row ∈ turns, columnText row.id ≠ currentTurnId → row.key ∈ state.world.visited) ∧
    (materializationBytes < asked events * queryBytes → state.world.done = true ∧
      next columns currentTurnId frozen state = (state, .ok .finish)) := by
  intro state
  have exact : Exact columns currentTurnId turns state.world := exact_run turns used events
  refine ⟨exact.descending, exact.ids, exact.others, ?_, ?_, exact.next.2, ?_, ?_⟩
  · have accounted := exact.accounted
    have bounded := exact.bounded
    omega
  · intro index candidate listed
    obtain ⟨-, outcome⟩ := exact.load listed
    refine ⟨(exact.pinned candidate (mem_of_getElem? listed)).visited, ?_, ?_⟩
    · intro exchange loaded
      rcases outcome with admitted | gone | ⟨-, refused⟩
      · exact Except.ok.inj (loaded.symm.trans admitted)
      · rw [gone] at loaded
        cases loaded
      · rw [refused] at loaded
        cases loaded
    · intro room
      rcases outcome with admitted | gone | ⟨short, -⟩
      · exact .inl admitted
      · exact .inr gone
      · rw [room] at short
        cases short
  · intro reading finish
    exact exact.finished reading finish
  · intro many
    rcases run_charges (freshReader turns used) events with done | ⟨paid, -⟩
    · exact ⟨done, next_done done⟩
    · exact absurd paid (Nat.not_le.mpr many)

end Context
