import Eliot.Retrieval.Coverage
import Eliot.Retrieval.Jobs
import Eliot.Text.Json

namespace Retrieval
open Async List Pact Fallible Does
open Relational (Table)

theorem denominatorJson_injective : Function.Injective denominatorJson := by
  intro first second same
  exact (Text.jsonArray_unique (congrArg (· ++ []) same)).1

section
variable (tools : JobTools) (key : Text)

def outcomeOf (shards : Table ExhaustiveShardRow Text ExhaustiveShardRow.shardId) (id : Text) :
    Option ExhaustiveShardOutcome :=
  (shards.find id).bind fun row => tools.parseOutcome row.outcomeJson

def ExhaustiveJobRow.identity (row : ExhaustiveJobRow) : ExhaustiveJobRow := { row with state := .pending }

structure Earned (shards : Table ExhaustiveShardRow Text ExhaustiveShardRow.shardId) (ids : List Text)
    (result : JobResult) : Prop where
  journaled : ∀ id ∈ ids, ∃ outcome, outcomeOf tools shards id = some outcome ∧ outcome.isSettled = true
  count : result.settledShards = ids.length
  scanned : result.totalScannedSections =
    ((ids.filterMap (outcomeOf tools shards)).map (·.scannedSections)).sum
  found : result.totalMatches = ((ids.filterMap (outcomeOf tools shards)).map (·.matchCount)).sum

def Receipted (journal : Journal) (receipt : ExhaustiveJobReceipt) : Prop :=
  ∃ row result, journal.job = some row ∧ journal.completed = some result ∧
    receipt = row.receipt key result

structure Orderly (journal : Journal) : Prop where
  written : ∀ row ∈ journal.shards, ∃ outcome, tools.parseOutcome row.outcomeJson = some outcome ∧
    outcome.shardId = row.shardId ∧ outcome.isSettled = true
  planned : ∀ row, journal.job = some row → row.idempotencyKey = key ∧ ∃ ids : List Text, ids.Nodup ∧
    row.denominatorShardIdsJson = denominatorJson ids ∧ row.denominatorShards = ids.length
  settled : ∀ result, journal.completed = some result →
    ∃ row, journal.job = some row ∧ row.state ≠ .pending
  complete : ∀ row result, journal.job = some row → row.state = .complete result →
    journal.completed = some result
  earned : ∀ row result ids, journal.job = some row → journal.completed = some result →
    row.denominatorShardIdsJson = denominatorJson ids → Earned tools journal.shards ids result
  dead : journal.invalidated = true → ∃ row, journal.job = some row ∧ row.state = .invalidated

structure Coherent (journal : Journal) : Prop where
  orderly : Orderly tools key journal
  reads : ∀ number, (number, true) ∈ journal.reads → journal.invalidated = true
  returned : ∀ number receipt, (number, receipt) ∈ journal.receipts →
    Receipted key journal receipt ∧ (number, true) ∉ journal.reads

structure Onward (before after : Journal) : Prop where
  shards : ∀ row ∈ before.shards, row ∈ after.shards
  job : ∀ row, before.job = some row → ∃ later, after.job = some later ∧ later.identity = row.identity
  completed : ∀ result, before.completed = some result → after.completed = some result

def Untouched (number : Nat) (before after : Journal) : Prop :=
  (∀ late, (number, late) ∈ after.reads → (number, late) ∈ before.reads) ∧
    ∀ receipt, (number, receipt) ∈ after.receipts → (number, receipt) ∈ before.receipts

def jobPact : Pact Journal where
  inv := Coherent tools key
  evolve := Onward
  rely := Untouched
  fresh number journal :=
    (∀ late, (number, late) ∉ journal.reads) ∧ ∀ receipt, (number, receipt) ∉ journal.receipts

theorem Onward.refl (journal : Journal) : Onward journal journal :=
  ⟨fun _ there => there, fun row there => ⟨row, there, rfl⟩, fun _ done => done⟩

theorem Onward.trans {first second third : Journal} (one : Onward first second) (two : Onward second third) :
    Onward first third := by
  refine ⟨fun row there => two.shards row (one.shards row there), fun row there => ?_,
    fun result done => two.completed result (one.completed result done)⟩
  obtain ⟨middle, found, same⟩ := one.job row there
  obtain ⟨later, final, equal⟩ := two.job middle found
  exact ⟨later, final, equal.trans same⟩

theorem jobPact_lawful : (jobPact tools key).Lawful where
  evolve_refl := Onward.refl
  evolve_trans := Onward.trans
  rely_refl _ _ := ⟨fun _ there => there, fun _ there => there⟩
  rely_trans one two :=
    ⟨fun late there => one.1 late (two.1 late there), fun receipt there => one.2 receipt (two.2 receipt there)⟩
  fresh_stable _ _ rely fresh :=
    ⟨fun late there => fresh.1 late (rely.1 late there),
      fun receipt there => fresh.2 receipt (rely.2 receipt there)⟩
  stays _ := trivial

theorem Coherent.empty : Coherent tools key .empty := by
  refine ⟨⟨?_, ?_, ?_, ?_, ?_, ?_⟩, ?_, ?_⟩
  · intro row there
    cases there
  all_goals intros; simp_all [Journal.empty]

end

variable {receipt : ExhaustiveJobReceipt}

section
variable {tools : JobTools} {key : Text} {before after now later : Journal} {number : Nat}

theorem Coherent.outcome_some (coherent : Coherent tools key now) {id : Text}
    {outcome : ExhaustiveShardOutcome} (found : outcomeOf tools now.shards id = some outcome) :
    outcome.shardId = id ∧ outcome.isSettled = true := by
  obtain ⟨row, there, parsed⟩ := Option.bind_eq_some_iff.mp found
  obtain ⟨member, same⟩ := Table.find_some.mp there
  obtain ⟨other, also, own, settled⟩ := coherent.orderly.written row member
  cases parsed.symm.trans also
  exact ⟨own.trans same, settled⟩

theorem Onward.outcome (onward : Onward before after) {id : Text} {outcome : ExhaustiveShardOutcome}
    (found : outcomeOf tools before.shards id = some outcome) : outcomeOf tools after.shards id = some outcome := by
  obtain ⟨row, there, parsed⟩ := Option.bind_eq_some_iff.mp found
  obtain ⟨member, same⟩ := Table.find_some.mp there
  rw [outcomeOf, Table.find_some.mpr ⟨onward.shards row member, same⟩]
  exact parsed

variable {result : JobResult}

theorem Earned.onward {ids : List Text} (earned : Earned tools before.shards ids result)
    (onward : Onward before after) : Earned tools after.shards ids result := by
  have same : ids.filterMap (outcomeOf tools after.shards) = ids.filterMap (outcomeOf tools before.shards) := by
    refine filterMap_congr fun id listed => ?_
    obtain ⟨outcome, found, -⟩ := earned.journaled id listed
    rw [found, onward.outcome found]
  refine ⟨fun id listed => ?_, earned.count, ?_, ?_⟩
  · obtain ⟨outcome, found, settled⟩ := earned.journaled id listed
    exact ⟨outcome, onward.outcome found, settled⟩
  · rw [same]
    exact earned.scanned
  · rw [same]
    exact earned.found

theorem ExhaustiveJobRow.identity_receipt {row other : ExhaustiveJobRow}
    (same : other.identity = row.identity) : other.receipt key result = row.receipt key result := by
  have copy (row : ExhaustiveJobRow) : row.receipt key result = row.identity.receipt key result := rfl
  rw [copy other, same, ← copy row]

theorem Receipted.onward (receipted : Receipted key before receipt)
    (onward : Onward before after) : Receipted key after receipt := by
  obtain ⟨row, result, there, done, rfl⟩ := receipted
  obtain ⟨later, found, same⟩ := onward.job row there
  exact ⟨later, result, found, onward.completed result done, (ExhaustiveJobRow.identity_receipt same).symm⟩

theorem fair_stay (coherent : Coherent tools key now) : (jobPact tools key).Fair number now now :=
  ⟨coherent, .refl now, fun _ _ => ⟨fun _ there => there, fun _ there => there⟩, trivial⟩

def Unanswered (number : Nat) (journal : Journal) : Prop :=
  ∀ receipt, (number, receipt) ∉ journal.receipts

theorem fair_read (coherent : Coherent tools key now) (unanswered : Unanswered number now) :
    (jobPact tools key).Fair number now { now with reads := now.reads ++ [(number, now.invalidated)] } := by
  have same : Onward now { now with reads := now.reads ++ [(number, now.invalidated)] } :=
    ⟨fun _ there => there, fun row there => ⟨row, there, rfl⟩, fun _ done => done⟩
  have rows := coherent.orderly
  refine ⟨⟨⟨rows.written, rows.planned, rows.settled, rows.complete, rows.earned, rows.dead⟩, ?_, ?_⟩,
    same, ?_, trivial⟩
  · intro other late
    rcases mem_append.mp late with late | late
    · exact coherent.reads other late
    · exact (congrArg Prod.snd (mem_singleton.mp late)).symm
  · intro other receipt there
    obtain ⟨receipted, clean⟩ := coherent.returned other receipt there
    refine ⟨receipted, fun late => ?_⟩
    rcases mem_append.mp late with late | late
    · exact clean late
    · obtain rfl : other = number := congrArg Prod.fst (mem_singleton.mp late)
      exact unanswered receipt there
  · intro other apart
    refine ⟨fun late there => ?_, fun _ there => there⟩
    rcases mem_append.mp there with there | there
    · exact there
    · exact absurd (congrArg Prod.fst (mem_singleton.mp there)) apart

theorem fair_rows (coherent : Coherent tools key now) (onward : Onward now after)
    (orderly : Orderly tools key after) (dead : now.invalidated = true → after.invalidated = true)
    (reads : after.reads = now.reads) (receipts : after.receipts = now.receipts) :
    (jobPact tools key).Fair number now after := by
  refine ⟨⟨orderly, fun other late => dead (coherent.reads other (reads ▸ late)),
    fun other receipt there => ?_⟩, onward,
    fun _ _ => ⟨fun _ there => reads ▸ there, fun _ there => receipts ▸ there⟩, trivial⟩
  obtain ⟨receipted, clean⟩ := coherent.returned other receipt (receipts ▸ there)
  exact ⟨receipted.onward onward, reads ▸ clean⟩

theorem fair_insertJob {live : Bool} {row : ExhaustiveJobRow} (coherent : Coherent tools key now)
    (keyed : row.idempotencyKey = key) (fresh : row.state = .pending)
    (planned : ∃ ids : List Text, ids.Nodup ∧ row.denominatorShardIdsJson = denominatorJson ids ∧
      row.denominatorShards = ids.length)
    (stored : now.insertJob live row = .ok after) : (jobPact tools key).Fair number now after := by
  unfold Journal.insertJob at stored
  split at stored
  · cases stored
  split at stored
  · cases stored
  cases stored
  have rows := coherent.orderly
  cases there : now.job with
  | some old =>
    simp only [Option.some_or]
    rw [← there]
    exact fair_stay coherent
  | none =>
    have undone : now.completed = none := by
      by_contra done
      obtain ⟨result, done⟩ := Option.ne_none_iff_exists'.mp done
      obtain ⟨old, present, -⟩ := rows.settled result done
      cases there.symm.trans present
    refine fair_rows coherent ⟨fun _ there => there, ?_, fun _ done => done⟩ ?_ (fun dead => dead) rfl rfl
    · intro old present
      cases there.symm.trans present
    · refine ⟨rows.written, ?_, ?_, ?_, ?_, ?_⟩
      · intro other same
        cases same
        exact ⟨keyed, planned⟩
      · intro result done
        cases undone.symm.trans done
      · intro other result same done
        cases same
        cases fresh.symm.trans done
      · intro other result ids _ done
        cases undone.symm.trans done
      · intro dead
        obtain ⟨old, present, -⟩ := rows.dead dead
        cases there.symm.trans present

theorem fair_insertShard {row : ExhaustiveShardRow} (coherent : Coherent tools key now)
    (stored : now.insertShard tools row = .ok after) : (jobPact tools key).Fair number now after := by
  unfold Journal.insertShard at stored
  split at stored
  · cases stored
  rename_i checked
  cases grown : now.shards.insert row with
  | none =>
    rw [grown] at stored
    cases stored
    exact fair_stay coherent
  | some shards =>
    simp only [grown] at stored
    split at stored
    · cases stored
    cases stored
    have rows := coherent.orderly
    have onward : Onward now { now with shards } :=
      ⟨fun old there => (Table.mem_insert grown).mpr (.inl there), fun old there => ⟨old, there, rfl⟩,
        fun _ done => done⟩
    refine fair_rows coherent onward ?_ (fun dead => dead) rfl rfl
    refine ⟨fun old there => ?_, rows.planned, rows.settled, rows.complete, ?_, rows.dead⟩
    · rcases (Table.mem_insert grown).mp there with there | rfl
      · exact rows.written old there
      · simp only [ExhaustiveShardRow.checked, Bool.not_eq_false, Bool.and_eq_true] at checked
        cases parsed : tools.parseOutcome old.outcomeJson with
        | none => simp [parsed] at checked
        | some outcome =>
          simp only [parsed, Bool.and_eq_true, decide_eq_true_eq] at checked
          exact ⟨outcome, rfl, checked.2.1, checked.2.2⟩
    · exact fun old result ids there done named => (rows.earned old result ids there done named).onward onward

theorem fair_complete (coherent : Coherent tools key now)
    (earned : ∀ row ids, now.job = some row → row.denominatorShardIdsJson = denominatorJson ids →
      Earned tools now.shards ids result)
    (stored : now.complete result = .ok after) : (jobPact tools key).Fair number now after := by
  unfold Journal.complete at stored
  cases there : now.job with
  | none =>
    rw [there] at stored
    cases stored
    exact fair_stay coherent
  | some row =>
    simp only [there] at stored
    split at stored
    · cases stored
      exact fair_stay coherent
    rename_i pending
    split at stored
    · cases stored
    cases stored
    have rows := coherent.orderly
    have pending := not_not.mp pending
    have undone : now.completed = none := by
      by_contra done
      obtain ⟨result, done⟩ := Option.ne_none_iff_exists'.mp done
      obtain ⟨old, present, settled⟩ := rows.settled result done
      cases there.symm.trans present
      exact settled pending
    refine fair_rows coherent ⟨fun _ there => there, ?_, ?_⟩ ?_ (fun dead => dead) rfl rfl
    · intro old present
      cases there.symm.trans present
      exact ⟨_, rfl, rfl⟩
    · intro result done
      cases undone.symm.trans done
    · refine ⟨rows.written, ?_, ?_, ?_, ?_, ?_⟩
      · intro other same
        cases same
        exact rows.planned row there
      · intro _ _
        exact ⟨_, rfl, by simp⟩
      · intro other result same done
        cases same
        cases done
        rfl
      · intro other result ids same done named
        cases same
        cases done
        exact earned row ids there named
      · intro dead
        obtain ⟨old, present, gone⟩ := rows.dead dead
        cases there.symm.trans present
        cases pending.symm.trans gone

theorem fair_invalidate (coherent : Coherent tools key now) :
    (jobPact tools key).Fair number now now.invalidate := by
  unfold Journal.invalidate
  cases there : now.job with
  | none => exact fair_stay coherent
  | some row =>
    have rows := coherent.orderly
    refine fair_rows coherent ⟨fun _ there => there, ?_, fun _ done => done⟩ ?_ (fun _ => rfl) rfl rfl
    · intro old present
      cases there.symm.trans present
      exact ⟨_, rfl, rfl⟩
    · refine ⟨rows.written, ?_, ?_, ?_, ?_, ?_⟩
      · intro other same
        cases same
        exact rows.planned row there
      · intro _ _
        exact ⟨_, rfl, by simp⟩
      · intro other result same done
        cases same
        cases done
      · intro other result ids same done named
        cases same
        exact rows.earned row result ids there done named
      · intro _
        exact ⟨_, rfl, rfl⟩

theorem insertShard_receipts {row : ExhaustiveShardRow} (stored : now.insertShard tools row = .ok after) :
    after.receipts = now.receipts := by
  unfold Journal.insertShard at stored
  grind

theorem insertJob_receipts {live : Bool} {row : ExhaustiveJobRow}
    (stored : now.insertJob live row = .ok after) : after.receipts = now.receipts := by
  unfold Journal.insertJob at stored
  grind

theorem complete_receipts (stored : now.complete result = .ok after) :
    after.receipts = now.receipts := by
  unfold Journal.complete at stored
  grind

theorem fair_return (coherent : Coherent tools key now)
    (receipted : Receipted key now receipt) (clean : (number, true) ∉ now.reads) :
    (jobPact tools key).Fair number now
      { now with receipts := now.receipts ++ [(number, receipt)] } := by
  have rows := coherent.orderly
  refine ⟨⟨⟨rows.written, rows.planned, rows.settled, rows.complete, rows.earned, rows.dead⟩,
    coherent.reads, ?_⟩, ⟨fun _ there => there, fun row there => ⟨row, there, rfl⟩, fun _ done => done⟩,
    ?_, trivial⟩
  · intro other stored there
    rcases mem_append.mp there with there | there
    · exact coherent.returned other stored there
    · cases mem_singleton.mp there
      exact ⟨receipted, clean⟩
  · intro other apart
    refine ⟨fun _ there => there, fun stored there => ?_⟩
    rcases mem_append.mp there with there | there
    · exact there
    · exact absurd (congrArg Prod.fst (mem_singleton.mp there)) apart

end

section
variable {tools : JobTools} {key : Text} {number : Nat} {pre : Journal → Prop} {α : Type}

def Lasting (number : Nat) (known : Journal → Prop) : Prop :=
  ∀ before after, Onward before after →
    (∀ receipt, (number, receipt) ∈ after.receipts → (number, receipt) ∈ before.receipts) →
      known before → known after

structure Frame (number : Nat) (known : Journal → Prop) : Prop where
  lasting : Lasting number known
  unanswered : ∀ journal, known journal → Unanswered number journal

theorem unanswered_frame : Frame number (Unanswered number) :=
  ⟨fun _ _ _ receipts known receipt there => known receipt (receipts receipt there), fun _ known => known⟩

theorem Frame.and {known also : Journal → Prop} (frame : Frame number known) (lasting : Lasting number also) :
    Frame number fun journal => known journal ∧ also journal :=
  ⟨fun before after onward receipts both =>
      ⟨frame.lasting before after onward receipts both.1, lasting before after onward receipts both.2⟩,
    fun journal both => frame.unanswered journal both.1⟩

theorem Frame.stable {known : Journal → Prop} (frame : Frame number known) :
    (jobPact tools key).Stable number known :=
  fun _ _ sees held => frame.lasting _ _ sees.1 sees.2.2 held

def Journaled (tools : JobTools) (outcomes : List ExhaustiveShardOutcome) (journal : Journal) : Prop :=
  ∀ outcome ∈ outcomes, outcomeOf tools journal.shards outcome.shardId = some outcome

variable {outcomes : List ExhaustiveShardOutcome}

theorem journaled_lasting :
    Lasting number (Journaled tools outcomes) :=
  fun _ _ onward _ known outcome listed => onward.outcome (known outcome listed)

def Answers (key : Text) (number : Nat) (receipt : ExhaustiveJobReceipt) (journal : Journal) : Prop :=
  Unanswered number journal ∧ Receipted key journal receipt ∧ (number, true) ∉ journal.reads

theorem answers_stable :
    (jobPact tools key).Stable number (Answers key number receipt) :=
  fun _ _ sees known => ⟨fun other there => known.1 other (sees.2.2 other there),
    known.2.1.onward sees.1, fun late => known.2.2 (sees.2.1 true late)⟩

theorem execute_does {fails : Text → RetrievalQueryError}
    {statement : JobChoice → Journal → Except Text (α × Journal)} {known : α → Journal → Prop}
    (frame : Frame number pre)
    (sound : ∀ now choice value after, Coherent tools key now → pre now →
      statement choice now = .ok (value, after) →
        (jobPact tools key).Fair number now after ∧ known value after) :
    (jobPact tools key).Does number pre (execute fails statement) (Given known) := by
  refine request frame.stable fun now coherent held choice => ?_
  cases choice.fault with
  | refused message => exact ⟨fair_stay coherent, trivial⟩
  | none =>
    cases told : statement choice now with
    | error message => exact ⟨fair_stay coherent, trivial⟩
    | ok reply => exact sound now choice reply.1 reply.2 coherent held told
  | lost message =>
    cases told : statement choice now with
    | error message => exact ⟨fair_stay coherent, trivial⟩
    | ok reply => exact ⟨(sound now choice reply.1 reply.2 coherent held told).1, trivial⟩

theorem write_does {statement : JobChoice → Journal → Except Text Journal} (frame : Frame number pre)
    (sound : ∀ now choice after, Coherent tools key now → pre now → statement choice now = .ok after →
      (jobPact tools key).Fair number now after ∧ after.receipts = now.receipts) :
    (jobPact tools key).Does number pre (write statement) (Given fun _ => pre) := by
  refine execute_does frame fun now choice value after coherent held told => ?_
  cases stored : statement choice now with
  | error message =>
    rw [stored] at told
    cases told
  | ok later =>
    rw [stored] at told
    cases told
    obtain ⟨fair, receipts⟩ := sound now choice after coherent held stored
    exact ⟨fair, frame.lasting now after fair.evolve (fun receipt there => receipts ▸ there) held⟩

def Read (key : Text) (number : Nat) (row : ExhaustiveJobRow) (journal : Journal) : Prop :=
  journal.job = some row ∧ ∀ result, row.state = .complete result →
    Answers key number (row.receipt row.idempotencyKey result) journal

theorem requireJobRow_does (frame : Frame number pre) : (jobPact tools key).Does number pre
    (requireJobRow number) (Given fun row now => pre now ∧ Read key number row now) := by
  refine Does.then (fun found now => pre now ∧ ∀ row, found = some row → Read key number row now)
    ?_ fun found => ?_
  · refine execute_does frame fun now choice value after coherent held told => ?_
    cases told
    have fair := fair_read coherent (frame.unanswered now held)
    refine ⟨fair, frame.lasting now _ fair.evolve (fun _ there => there) held, fun row there => ⟨there, ?_⟩⟩
    intro result done
    refine ⟨frame.unanswered now held, ?_, fun late => ?_⟩
    · obtain ⟨own, -⟩ := coherent.orderly.planned row there
      exact ⟨row, result, there, coherent.orderly.complete row result there done, by rw [own]⟩
    · obtain ⟨other, present, gone⟩ := fair.inv.orderly.dead (fair.inv.reads number late)
      cases there.symm.trans present
      cases done.symm.trans gone
  · cases found with
    | none => exact throws
    | some row => exact returns fun now _ held => ⟨held.1, held.2 row rfl⟩

theorem readShards_does {query : Journal → α} (frame : Frame number pre) : (jobPact tools key).Does number
    pre (readShards query) (Given fun value now => pre now ∧ value = query now) := by
  refine execute_does frame fun now choice value after coherent held told => ?_
  cases told
  exact ⟨fair_stay coherent, held, rfl⟩

theorem decodeJobReceipt_does {row : ExhaustiveJobRow} : (jobPact tools key).Does number
    (Read key number row) (decodeJobReceipt row row.idempotencyKey)
    (Given (Answers key number)) := by
  unfold decodeJobReceipt
  cases state : row.state with
  | pending => exact throws
  | invalidated => exact throws
  | complete result =>
    dsimp only
    split
    · exact throws
    · exact returns fun now _ read => read.2 result state

theorem readOutcome_ok {row : ExhaustiveShardRow} {entry : Text × ExhaustiveShardOutcome}
    (read : readOutcome tools row = .ok entry) :
    entry.1 = row.shardId ∧ tools.parseOutcome row.outcomeJson = some entry.2 := by
  unfold readOutcome at read
  cases parsed : tools.parseOutcome row.outcomeJson with
  | none =>
    rw [parsed] at read
    cases read
  | some outcome =>
    rw [parsed] at read
    obtain ⟨json, -, read⟩ := bind_ok read
    split at read
    · cases read
    split at read
    · cases read
    cases read
    exact ⟨rfl, rfl⟩

theorem inOrder_journaled {now : Journal} {ids : List Text} {byShard : List (Text × ExhaustiveShardOutcome)}
    (coherent : Coherent tools key now)
    (read : now.shards.rows.mapM (readOutcome tools) = .ok byShard) :
    Journaled tools (inOrder ids byShard) now := by
  have each := mapM_ok.mp read
  intro outcome listed
  obtain ⟨id, -, found⟩ := mem_filterMap.mp listed
  obtain ⟨entry, there, rfl⟩ := Option.map_eq_some_iff.mp found
  have member := mem_of_find?_eq_some there
  obtain ⟨index, bound, at'⟩ := getElem_of_mem member
  have long : index < now.shards.rows.length := by
    rw [each.length_eq]
    exact bound
  have told := each.get long bound
  rw [get_eq_getElem, get_eq_getElem, at'] at told
  obtain ⟨own, parsed⟩ := readOutcome_ok told
  have row : now.shards.find entry.1 = some now.shards.rows[index] :=
    Table.find_some.mpr ⟨getElem_mem long, own.symm⟩
  have journaled : outcomeOf tools now.shards entry.1 = some entry.2 := by
    rw [outcomeOf, row]
    exact parsed
  rw [(coherent.outcome_some journaled).1]
  exact journaled

theorem settledOutcomes_does (frame : Frame number pre) : (jobPact tools key).Does number pre
    (settledOutcomes tools number)
    (Given fun outcomes now => pre now ∧ Journaled tools outcomes now) := by
  refine (requireJobRow_does frame).then _ fun row => ?_
  split
  · exact throws
  cases tools.parseIds row.denominatorShardIdsJson with
  | none => exact throws
  | some ids =>
    refine weaken ?_ fun now _ known => known.1
    refine (readShards_does frame).then _ fun rows => ?_
    cases read : rows.mapM (readOutcome tools) with
    | error error => exact throws
    | ok byShard =>
      refine returns fun now coherent known => ⟨known.1, ?_⟩
      exact inOrder_journaled coherent (known.2 ▸ read)

theorem recordSettledOutcome_does {outcome : ExhaustiveShardOutcome} (frame : Frame number pre) :
    (jobPact tools key).Does number pre (recordSettledOutcome tools number outcome)
      (Given fun _ => pre) := by
  have ends {stored : Option ExhaustiveShardRow} {json digest : Text} : (jobPact tools key).Does number
      (fun now => pre now ∧ stored = now.shards.find outcome.shardId)
      (if journaledAs json digest stored then .done (.ok ()) else failJob conflictError)
      (Given fun _ => pre) := by
    split
    · exact returns fun now _ known => known.1
    · exact throws
  unfold recordSettledOutcome
  split
  · exact throws
  refine (requireJobRow_does frame).then _ fun row => ?_
  refine weaken ?_ fun now _ known => known.1
  dsimp only
  split
  · exact throws
  cases tools.parseIds row.denominatorShardIdsJson with
  | none => exact throws
  | some ids =>
    dsimp only
    split
    · exact throws
    cases canonicalRetrievalJson outcome.json with
    | error error => exact throws
    | ok json =>
      dsimp only
      split
      · exact throws
      split
      · exact (readShards_does frame).then _ fun stored => ends
      refine (write_does frame fun now choice after coherent _ stored => ?_).then _ fun _ => ?_
      · refine ⟨fair_insertShard coherent stored, ?_⟩
        exact insertShard_receipts stored
      · exact (readShards_does frame).then _ fun stored => ends

theorem port_does {answer : JobChoice → Except ReconcileError α} (frame : Frame number pre) :
    (jobPact tools key).Does number pre (.request fun choice journal => (answer choice, journal))
      (Given fun _ => pre) := by
  refine request frame.stable fun now coherent held choice => ⟨fair_stay coherent, ?_⟩
  cases answer choice with
  | error error => exact trivial
  | ok value => exact held

theorem requireCurrentScope_does (frame : Frame number pre) : (jobPact tools key).Does number pre
    requireCurrentScope (Given fun _ => pre) := by
  refine request frame.stable fun now coherent held choice => ?_
  cases choice.port with
  | some message => exact ⟨fair_stay coherent, trivial⟩
  | none => exact ⟨fair_stay coherent, held⟩

theorem checkBudget_does (frame : Frame number pre) : (jobPact tools key).Does number pre
    checkBudget (Given fun _ => pre) := by
  refine act frame.stable fun now coherent held choice => ?_
  cases choice.port with
  | some message => exact ⟨fair_stay coherent, trivial⟩
  | none => exact ⟨fair_stay coherent, held⟩

variable {plan : ExactScanPlan} {access : RetrievalQueryAccess}

theorem settleShards_does {journaled : List Text}
    {shards : List ExactScanShard} (frame : Frame number pre) : (jobPact tools key).Does number pre
      (settleShards tools access key number plan journaled shards)
      (Given fun found now => pre now ∧ ∀ receipt, found ≠ some (.complete receipt)) := by
  induction shards with
  | nil => exact returns fun now _ held => ⟨held, fun _ none => nomatch none⟩
  | cons shard shards ih =>
    unfold settleShards
    split
    · exact ih
    refine (checkBudget_does frame).then _ fun _ => ?_
    refine (requireCurrentScope_does frame).then _ fun _ => ?_
    refine (port_does frame).then _ fun outcome => ?_
    split
    · refine (settledOutcomes_does frame).then _ fun outcomes => ?_
      exact returns fun now _ held => ⟨held.1, fun _ other => nomatch other⟩
    · exact (recordSettledOutcome_does frame).then _ fun _ => ih

theorem requireDenominatorForScope_ok {scope : ScopeSnapshot}
    {known : List Text → Journal → Prop}
    (passed : (plan.shards.map (·.shardId)).Nodup → ∀ now, pre now → known (plan.shards.map (·.shardId)) now) :
    (jobPact tools key).Does number pre (requireDenominatorForScope scope plan) (Given known) := by
  unfold requireDenominatorForScope
  split
  · exact throws
  · rename_i fits
    refine returns fun now _ held => passed ?_ now held
    simp only [denominatorFits, Bool.not_eq_false, Bool.and_eq_true, decide_eq_true_eq] at fits
    exact fits.2

theorem start_does {input : ExhaustiveJobInput}
    (frame : Frame number pre) : (jobPact tools key).Does number pre
      (start tools access key number input)
      (Given fun found now => pre now ∧ ∀ receipt, found = some receipt →
        Answers key number receipt now) := by
  have checked {condition : Prop} [Decidable condition] {error : RetrievalQueryError} :
      (jobPact tools key).Does number pre (if condition then failJob error else .done (.ok ()))
        (Given fun _ => pre) := by
    split
    · exact throws
    · exact returns fun now _ held => held
  refine Does.then (fun _ => pre) checked fun _ => ?_
  refine Does.then (fun _ => pre) checked fun _ => ?_
  refine Does.then (fun ids now => (ids = input.plan.shards.map (·.shardId) ∧ ids.Nodup) ∧ pre now)
    (requireDenominatorForScope_ok fun distinct now held => ⟨⟨rfl, distinct⟩, held⟩) fun ids => ?_
  refine fact fun listed => ?_
  have distinct := listed.2
  split
  · exact throws
  refine (write_does frame fun now choice after coherent _ stored => ?_).then _ fun _ => ?_
  · exact ⟨fair_insertJob coherent rfl rfl ⟨ids, distinct, rfl, rfl⟩ stored, insertJob_receipts stored⟩
  refine (requireJobRow_does frame).then _ fun row => ?_
  split
  · exact throws
  cases state : row.state with
  | pending => exact returns fun now _ held => ⟨held.1, fun _ none => by cases none⟩
  | invalidated => exact throws
  | complete result =>
    dsimp only
    refine Does.then (fun receipt now => pre now ∧ Answers key number receipt now) ?_ fun receipt => ?_
    · unfold decodeJobReceipt
      rw [state]
      dsimp only
      split
      · exact throws
      · refine returns fun now coherent held => ⟨held.1, ?_⟩
        have answers := held.2.2 result state
        rw [(coherent.orderly.planned row held.2.1).1] at answers
        exact answers
    · refine returns fun now _ held => ⟨held.1, fun other same => ?_⟩
      cases same
      exact held.2

theorem merge_settled
    {merged : ExhaustiveMergeResult} (ran : mergeExhaustiveShards plan outcomes = .ok merged)
    (complete : merged.coverageClaim = .complete) : merged.settledShards = plan.shards.length := by
  unfold mergeExhaustiveShards at ran
  obtain ⟨-, ran⟩ := guard_ok ran
  obtain ⟨-, ran⟩ := guard_ok ran
  obtain ⟨filed, -, ran⟩ := bind_ok ran
  cases ran
  dsimp only at complete ⊢
  split at complete
  · rename_i all
    rw [all, length_map]
  · split at complete <;> cases complete

theorem merge_earned {now : Journal}
    {merged : ExhaustiveMergeResult} (journaled : Journaled tools outcomes now)
    (ran : mergeExhaustiveShards plan outcomes = .ok merged)
    (complete : merged.coverageClaim = .complete) :
    Earned tools now.shards (plan.shards.map (·.shardId)) merged.columns := by
  obtain ⟨-, apart, -, scanned, found, whole⟩ := mergeExhaustiveShards_ok ran
  have each := filterMap_length_eq_length.mp (whole complete)
  have journal : ∀ id ∈ plan.shards.map (·.shardId), ∃ outcome, settledOf outcomes id = some outcome ∧
      outcomeOf tools now.shards id = some outcome ∧ outcome.isSettled = true := by
    intro id listed
    obtain ⟨outcome, there⟩ := Option.isSome_iff_exists.mp (each id listed)
    obtain ⟨member, rfl, settled⟩ := (settledOf_some apart).mp there
    exact ⟨outcome, there, journaled outcome member, settled⟩
  have same : (plan.shards.map (·.shardId)).filterMap (outcomeOf tools now.shards) =
      (plan.shards.map (·.shardId)).filterMap (settledOf outcomes) := by
    refine filterMap_congr fun id listed => ?_
    obtain ⟨outcome, one, other, -⟩ := journal id listed
    rw [one, other]
  refine ⟨fun id listed => ?_, ?_, ?_, ?_⟩
  · obtain ⟨outcome, -, there, settled⟩ := journal id listed
    exact ⟨outcome, there, settled⟩
  · rw [length_map]
    exact merge_settled ran complete
  · rw [same]
    exact scanned
  · rw [same]
    exact found

theorem finalize_does :
    (jobPact tools key).Does number
      (fun now => Unanswered number now ∧ Journaled tools outcomes now)
      (finalize number plan outcomes) (Given (Answers key number)) := by
  have frame : Frame number fun now => Unanswered number now ∧ Journaled tools outcomes now :=
    unanswered_frame.and journaled_lasting
  refine (requireJobRow_does frame).then _ fun row => ?_
  cases state : row.state with
  | complete result => exact decodeJobReceipt_does.weaken fun now _ held => held.2
  | invalidated => exact throws
  | pending =>
    dsimp only
    refine Does.then (fun ids now => ids = plan.shards.map (·.shardId) ∧
      (Unanswered number now ∧ Journaled tools outcomes now) ∧ now.job = some row)
      (requireDenominatorForScope_ok fun _ now held => ⟨rfl, held.1, held.2.1⟩) fun ids => ?_
    refine fact fun named => ?_
    subst named
    split
    · exact throws
    rename_i plans
    simp only [ExhaustiveJobRow.plans, Bool.not_eq_false, Bool.and_eq_true, decide_eq_true_eq] at plans
    have named := plans.1.1.1.2
    cases ran : mergeExhaustiveShards plan outcomes with
    | error error => exact throws
    | ok merged =>
      dsimp only
      split
      · exact throws
      rename_i claim
      split
      · exact throws
      have bound : Frame number fun now => (Unanswered number now ∧ Journaled tools outcomes now) ∧
          ∃ later, now.job = some later ∧ later.identity = row.identity :=
        frame.and fun before after onward _ held => by
          obtain ⟨later, there, same⟩ := held
          obtain ⟨further, found, equal⟩ := onward.job later there
          exact ⟨further, found, equal.trans same⟩
      refine weaken
        ((write_does bound fun now choice after coherent held stored => ?_).then _ fun _ => ?_)
        fun now _ held => ⟨held.1, row, held.2, rfl⟩
      · refine ⟨fair_complete coherent (fun other ids there json => ?_) stored, complete_receipts stored⟩
        obtain ⟨later, found, same⟩ := held.2
        cases found.symm.trans there
        have stored := congrArg ExhaustiveJobRow.denominatorShardIdsJson same
        simp only [ExhaustiveJobRow.identity] at stored
        rw [stored, named] at json
        rw [← denominatorJson_injective json]
        exact merge_earned held.1.2 ran (not_not.mp claim)
      · refine (requireJobRow_does bound).then _ fun settled => ?_
        split
        · exact throws
        · exact decodeJobReceipt_does.weaken fun now _ held => held.2

theorem reconcileExhaustiveJob_does {input : ExhaustiveJobInput} :
    (jobPact tools key).Does number (Unanswered number)
      (reconcileExhaustiveJob tools access key number input)
      (Given fun status now => ∀ receipt, status = .complete receipt →
        Answers key number receipt now) := by
  have unfinished {plan : ExactScanPlan} {outcomes : List ExhaustiveShardOutcome} {known : Journal → Prop} :
      (jobPact tools key).Does number known
        (.done (.ok (unfinished tools access key plan outcomes)) : Reconciling ExhaustiveReconcileStatus)
        (Given fun status now => ∀ receipt, status = .complete receipt →
          Answers key number receipt now) :=
    returns fun _ _ _ _ other => nomatch other
  refine (start_does unanswered_frame).then _ fun found => ?_
  cases found with
  | some receipt =>
    refine returns fun now _ held other same => ?_
    cases same
    exact held.2 receipt rfl
  | none =>
    refine weaken ?_ fun now _ held => held.1
    refine (requireCurrentScope_does unanswered_frame).then _ fun _ => ?_
    refine (checkBudget_does unanswered_frame).then _ fun _ => ?_
    refine (settledOutcomes_does unanswered_frame).then _ fun journaled => ?_
    refine weaken ?_ fun now _ held => held.1
    refine (settleShards_does unanswered_frame).then _ fun found => ?_
    cases found with
    | some status =>
      refine returns fun now _ held receipt same => ?_
      exact absurd (congrArg some same) (held.2 receipt)
    | none =>
      refine weaken ?_ fun now _ held => held.1
      refine (settledOutcomes_does unanswered_frame).then _ fun outcomes => ?_
      cases mergeExhaustiveShards input.plan outcomes with
      | error error => exact throws
      | ok merged =>
        dsimp only
        split
        · exact unfinished
        · refine finalize_does.then _ fun receipt => ?_
          refine returns fun now _ held other same => ?_
          cases same
          exact held

end

section
variable {tools : JobTools} {access : RetrievalQueryAccess} {key : Text}

def granted (_ : Nat) (_ : JobRequest) (_ _ : Journal) : Prop := True

theorem serve_fit {number : Nat} {request : JobRequest} {journal : Journal}
    (coherent : Coherent tools key journal) (unanswered : Unanswered number journal) :
    ((jobPact tools key).granting (granted number request)).wp number
      ((jobService tools access key).serve number request) (fun _ _ => True) journal := by
  have ends : (jobPact tools key).Does number (Unanswered number)
      ((jobService tools access key).serve number request) (Given fun _ _ => True) := by
    cases request with
    | invalidate =>
      exact act unanswered_frame.stable fun now coherent _ _ =>
        ⟨fair_invalidate coherent, trivial⟩
    | reconcile input =>
      refine reconcileExhaustiveJob_does.then _ fun status => ?_
      cases status with
      | unfinished => exact returns fun _ _ _ => trivial
      | complete receipt =>
        refine weaken ?_ fun now _ held => held receipt rfl
        exact act answers_stable fun now coherent held _ =>
          ⟨fair_return coherent held.2.1 held.2.2, trivial⟩
  exact Pact.wp_mono coherent (ends journal coherent unanswered) fun _ _ _ _ => trivial

theorem run_coherent {labels : List (Service.Label JobChoice JobRequest)}
    {before after : Service.Config Journal JobChoice ReconcileError} {requests : List JobRequest}
    (sound : (jobPact tools key).Sound granted requests before)
    (ran : (jobService tools access key).run before labels = some after) :
    (jobPact tools key).Sound granted (requests ++ labels.flatMap Pact.accepted) after ∧
      Onward before.state after.state :=
  Pact.run_sound granted (jobPact_lawful tools key)
    (fun _ _ _ coherent fresh _ => serve_fit coherent fresh.2) ran sound

/-- The runs of an exhaustive job agree. -/
theorem jobs_agree {labels : List (Service.Label JobChoice JobRequest)}
    {after : Service.Config Journal JobChoice ReconcileError}
    (ran : (jobService tools access key).run (Service.boot .empty) labels = some after) :
    (∀ earlier later middle, labels = earlier ++ later →
      (jobService tools access key).run (Service.boot .empty) earlier = some middle →
        ∀ row ∈ middle.state.shards, row ∈ after.state.shards) ∧
    (∀ first ∈ after.state.receipts, ∀ second ∈ after.state.receipts, first.2 = second.2) ∧
    ∀ number receipt, (number, receipt) ∈ after.state.receipts →
      (∃ row ids, after.state.job = some row ∧ row.denominatorShardIdsJson = denominatorJson ids ∧
        ids.Nodup ∧ (∀ id ∈ ids, ∃ outcome, outcomeOf tools after.state.shards id = some outcome ∧
          outcome.shardId = id ∧ outcome.isSettled = true) ∧
        receipt.denominatorShards = ids.length ∧ receipt.settledShards = ids.length ∧
        receipt.totalScannedSections =
          ((ids.filterMap (outcomeOf tools after.state.shards)).map (·.scannedSections)).sum ∧
        receipt.totalMatches =
          ((ids.filterMap (outcomeOf tools after.state.shards)).map (·.matchCount)).sum) ∧
      (number, true) ∉ after.state.reads := by
  have fresh : ∀ number, (jobPact tools key).fresh number .empty := by
    intro number
    constructor <;> intro _ there <;> cases there
  have booted : (jobPact tools key).Sound granted []
      (Service.boot .empty : Service.Config Journal JobChoice ReconcileError) :=
    Pact.boot_sound (Coherent.empty tools key) fresh
  obtain ⟨sound, -⟩ := run_coherent booted ran
  have coherent : Coherent tools key after.state := sound.inv
  refine ⟨fun earlier later middle whole part row there => ?_, fun first one second two => ?_,
    fun number receipt there => ?_⟩
  · subst whole
    obtain ⟨other, also, rest⟩ := (Service.run_append _).mp ran
    cases part.symm.trans also
    obtain ⟨fit, -⟩ := run_coherent booted part
    exact (run_coherent fit rest).2.shards row there
  · obtain ⟨⟨row, result, there, done, same⟩, -⟩ := coherent.returned first.1 first.2 one
    obtain ⟨⟨other, also, stored, finished, equal⟩, -⟩ := coherent.returned second.1 second.2 two
    cases there.symm.trans stored
    cases done.symm.trans finished
    rw [same, equal]
  · obtain ⟨⟨row, result, stored, done, same⟩, clean⟩ := coherent.returned number receipt there
    obtain ⟨-, ids, distinct, named, count⟩ := coherent.orderly.planned row stored
    have earned := coherent.orderly.earned row result ids stored done named
    subst same
    refine ⟨⟨row, ids, stored, named, distinct, fun id listed => ?_, count, earned.count, earned.scanned,
      earned.found⟩, clean⟩
    obtain ⟨outcome, found, settled⟩ := earned.journaled id listed
    exact ⟨outcome, found, (coherent.outcome_some found).1, settled⟩

def jobScope : ScopeSnapshot := ⟨text "scope", 1, List.replicate 64 98, [text "revision"]⟩

def jobInput : ExhaustiveJobInput where
  requestDigest := List.replicate 64 99
  scope := jobScope
  plan := { samplePlan with scopeSnapshot := jobScope }

def otherOutcome : ExhaustiveShardOutcome :=
  { sampleOutcome with matchCount := 3, sectionOutcomes := [⟨text "s", .matched, 3, none⟩] }

def jobTools : JobTools where
  sha256Hex _ := List.replicate 64 97
  parseIds json := if json = denominatorJson [sampleShard.shardId] then some [sampleShard.shardId] else none
  parseOutcome json := [sampleOutcome, otherOutcome].find? fun outcome =>
    Json.canonicalJson outcome.json = json

def coming (outcome : ExhaustiveShardOutcome) : JobChoice := ⟨.none, true, none, .ok outcome⟩

def acts (number count : Nat) (choice : JobChoice) : List (Service.Label JobChoice JobRequest) :=
  List.replicate count (.act number choice)

def jobLabels : List (Service.Label JobChoice JobRequest) :=
  [.accept (.reconcile jobInput), .accept (.reconcile jobInput)] ++ acts 0 9 (coming sampleOutcome) ++
    acts 1 9 (coming otherOutcome) ++ acts 0 3 (coming sampleOutcome) ++ acts 1 3 (coming otherOutcome) ++
    acts 0 6 (coming sampleOutcome) ++ [.accept (.reconcile jobInput)] ++
    acts 2 3 (coming sampleOutcome) ++ [.accept .invalidate, .accept (.reconcile jobInput)] ++
    acts 3 1 (coming sampleOutcome) ++ acts 4 2 (coming sampleOutcome)

def jobAccess : RetrievalQueryAccess := ⟨text "owner", text "owner_pwa", text "g1"⟩

theorem sample_agree : ∃ after,
    (jobService jobTools jobAccess (text "key")).run (Service.boot .empty) jobLabels = some after ∧
      after.state.receipts.map (·.1) = [0, 2] ∧ (4, true) ∈ after.state.reads ∧
      (∀ first ∈ after.state.receipts, ∀ second ∈ after.state.receipts, first.2 = second.2) ∧
      ∀ number receipt, (number, receipt) ∈ after.state.receipts → (number, true) ∉ after.state.reads := by
  have played : ((jobService jobTools jobAccess (text "key")).run (Service.boot .empty) jobLabels).map
      (fun config => (config.state.receipts.map (·.1), config.state.reads)) =
      some ([0, 2], [(0, false), (0, false), (1, false), (1, false), (0, false), (1, false), (0, false),
        (0, false), (0, false), (2, false), (4, true)]) := by decide +kernel
  obtain ⟨after, ran, told⟩ := Option.map_eq_some_iff.mp played
  obtain ⟨numbers, reads⟩ := Prod.mk.inj told
  obtain ⟨-, same, returned⟩ := jobs_agree ran
  refine ⟨after, ran, numbers, ?_, same, fun number receipt there => (returned number receipt there).2⟩
  rw [reads]
  decide

end

end Retrieval
