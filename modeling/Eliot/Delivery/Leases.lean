import Eliot.Collections.Fallible
import Eliot.Delivery.Store

namespace Delivery
open Async List Pact Fallible Does
open Relational (Table)

section
variable {tools : Tools}

def TaskState.revision (state : TaskState) : Nat := (state.lease.map (·.revision)).getD 0

structure LeaseStep (old new : TaskRow) (clock : Nat) : Prop where
  kept : new.state.lease.map (·.id) = old.state.lease.map (·.id) →
    new.state.revision = old.state.revision
  moved : new.state.lease.map (·.id) ≠ old.state.lease.map (·.id) →
    old.state.claimable new.updatedAt = true ∧ new.updatedAt ≤ clock ∧
      new.state.revision = old.state.revision + 1
  recorded : ∀ lease result, new.state = .recorded lease result → new = old ∨
    ∃ held, old.state = .leased held ∧ held.id = lease.id ∧ new.updatedAt < held.expiresAt ∧
      new.updatedAt ≤ clock

def HeldAt (world : World tools) (row : ProgressRow) : Prop :=
  ∃ task lease, world.tasks.find row.taskId = some task ∧ task.state = .leased lease ∧
    lease.id = row.leaseId ∧ lease.credentialGeneration = row.credentialGeneration ∧
    row.createdAt < lease.expiresAt

structure Exclusive (before after : World tools) : Prop where
  leases : ∀ old ∈ before.tasks, ∀ new ∈ after.tasks, new.taskId = old.taskId →
    LeaseStep old new after.clock
  progress : ∀ row ∈ after.progress, row ∈ before.progress ∨ HeldAt before row

structure Later (before after : World tools) : Prop where
  clock : before.clock ≤ after.clock
  tasks : ∀ old ∈ before.tasks, ∃ new ∈ after.tasks, new.toTaskIdentity = old.toTaskIdentity
  recorded : ∀ row ∈ before.tasks, (∃ lease result, row.state = .recorded lease result) →
    row ∈ after.tasks
  progress : ∀ row ∈ before.progress, row ∈ after.progress

structure RowValid (tools : Tools) (row : TaskRow) : Prop where
  identity : ∀ binding, identityValid ⟨row, binding⟩ = true
  lease : ∀ lease, row.state = .leased lease → leaseValid lease = true
  order : row.createdAt ≤ row.updatedAt

def World.cursors (world : World tools) (id : Text) : List Nat :=
  (world.progress.rows.filter fun row => row.taskId = id).map (·.cursor)

def Told (world : World tools) (entry : Returned) : Prop :=
  ∃ row lease result envelope, row ∈ world.tasks ∧ row.taskId = entry.sentTask ∧
    entry.taskId = row.taskId ∧ row.state = .recorded lease result ∧ tools.parseResult result.json = some envelope ∧
    envelope.encoded tools = result.json ∧ envelope.semantic.encoded = entry.sent.encoded ∧
    result.idempotencyKey = entry.sentKey ∧ entry.idempotencyKey = result.idempotencyKey ∧
    entry.disposition = envelope.semantic.disposition ∧ entry.leaseId = lease.id ∧
    entry.workerSlot = lease.slot ∧ entry.resultSha256 = result.sha256 ∧
    entry.submittedAt = envelope.submittedAt

structure Orderly (world : World tools) : Prop where
  apart : ∀ first ∈ world.tasks, ∀ second ∈ world.tasks, first.taskId ≠ second.taskId →
    leasesApart first second = true
  stamped : ∀ row ∈ world.tasks, row.updatedAt ≤ world.clock
  valid : ∀ row ∈ world.tasks, RowValid tools row
  cursors : ∀ id, world.cursors id = List.range' 1 (world.cursors id).length
  told : ∀ entry ∈ world.returned, Told world entry

def deliveryPact (tools : Tools) : Pact (World tools) where
  inv := Orderly
  evolve := Later
  rely _ _ _ := True
  fresh _ _ := True
  guarantee := Exclusive

theorem LeaseStep.refl {row : TaskRow} {clock : Nat} : LeaseStep row row clock :=
  ⟨fun _ => rfl, fun moved => absurd rfl moved, fun _ _ _ => .inl rfl⟩

theorem Later.refl (world : World tools) : Later world world :=
  ⟨Nat.le_refl _, fun old there => ⟨old, there, rfl⟩, fun _ there _ => there, fun _ there => there⟩

theorem Later.trans {first second third : World tools} (one : Later first second)
    (two : Later second third) : Later first third := by
  refine ⟨one.clock.trans two.clock, fun old there => ?_, fun row there done => ?_, fun row there => ?_⟩
  · obtain ⟨middle, found, same⟩ := one.tasks old there
    obtain ⟨new, last, equal⟩ := two.tasks middle found
    exact ⟨new, last, equal.trans same⟩
  · exact two.recorded row (one.recorded row there done) done
  · exact two.progress row (one.progress row there)

theorem deliveryPact_lawful : (deliveryPact tools).Lawful where
  evolve_refl := Later.refl
  evolve_trans := Later.trans
  rely_refl _ _ := trivial
  rely_trans _ _ := trivial
  fresh_stable _ _ _ _ := trivial
  stays world := by
    refine ⟨fun old there new also same => ?_, fun row there => .inl there⟩
    cases Table.eq_of_key also there same
    exact .refl

theorem Told.later {before after : World tools} {entry : Returned} (told : Told before entry)
    (later : Later before after) : Told after entry := by
  obtain ⟨row, lease, result, envelope, there, named, own, state, rest⟩ := told
  exact ⟨row, lease, result, envelope, later.recorded row there ⟨lease, result, state⟩, named, own, state,
    rest⟩

end

variable {now : Nat} {result : TaskResult}

section
variable {tools : Tools} {world after : World tools} {number : Nat}

theorem fair_stay (orderly : Orderly world) (clock : world.clock ≤ after.clock)
    (tasks : after.tasks = world.tasks) (progress : after.progress = world.progress)
    (told : ∀ entry ∈ after.returned, Told world entry) :
    (deliveryPact tools).Fair number world after := by
  have later : Later world after :=
    ⟨clock, fun old there => ⟨old, tasks ▸ there, rfl⟩, fun row there _ => tasks ▸ there,
      fun row there => progress ▸ there⟩
  refine ⟨⟨?_, ?_, ?_, ?_, ?_⟩, later, fun _ _ => trivial, ?_⟩
  · rw [tasks]
    exact orderly.apart
  · rw [tasks]
    exact fun row there => (orderly.stamped row there).trans clock
  · rw [tasks]
    exact orderly.valid
  · intro id
    unfold World.cursors
    rw [progress]
    exact orderly.cursors id
  · exact fun entry there => (told entry there).later later
  · refine ⟨fun old there new also same => ?_, fun row there => .inl (progress ▸ there)⟩
    rw [tasks] at also
    cases Table.eq_of_key also there same
    exact .refl

theorem fair_advance (orderly : Orderly world) (choice : Choice) :
    (deliveryPact tools).Fair number world (world.advance choice) :=
  fair_stay orderly (Nat.le_add_right _ _) rfl rfl orderly.told

variable {state : TaskState}

theorem updateTask_ok {old : TaskRow}
    (updated : world.updateTask old state now = .ok after) :
    after = { world with tasks := world.tasks.write { old with state, updatedAt := now } } ∧
      transitionAllowed old { old with state, updatedAt := now } = true ∧
      currentAllowed world old { old with state, updatedAt := now } = true ∧ state.checked = true ∧
      old.createdAt ≤ now ∧ ∀ other ∈ world.tasks, other.taskId ≠ old.taskId →
        leasesApart { old with state, updatedAt := now } other = true := by
  unfold World.updateTask at updated
  dsimp only at updated
  split at updated
  · cases updated
  rename_i allowed
  split at updated
  · cases updated
  rename_i current
  split at updated
  · cases updated
  split at updated
  · cases updated
  rename_i checked
  split at updated
  · cases updated
  rename_i apart
  cases updated
  simp only [Bool.not_eq_false, Bool.and_eq_true, decide_eq_true_eq] at allowed current checked
  refine ⟨rfl, allowed, current, checked.1, checked.2, fun other there different => ?_⟩
  by_contra clash
  apply apart
  rw [any_eq_true]
  exact ⟨other, there, by simp [different, clash]⟩

theorem leasesApart_comm {first second : TaskRow} :
    leasesApart first second = leasesApart second first := by
  unfold leasesApart
  cases first.state <;> cases second.state <;>
    simp [TaskState.lease, eq_comm, Bool.and_comm, Bool.and_left_comm]

theorem leaseStep_update {old : TaskRow} {now clock : Nat} (timely : now ≤ clock)
    (allowed : transitionAllowed old { old with state, updatedAt := now } = true)
    (current : currentAllowed world old { old with state, updatedAt := now } = true) :
    LeaseStep old { old with state, updatedAt := now } clock := by
  unfold transitionAllowed at allowed
  unfold currentAllowed at current
  obtain ⟨binding, -, current⟩ := (Option.any_eq_true _ _).mp current
  cases before : old.state with
  | available =>
    cases state with
    | leased after =>
      simp only [before, Bool.and_eq_true, decide_eq_true_eq] at allowed
      constructor <;> simp [before, TaskState.lease, TaskState.claimable, TaskState.revision, allowed.2, timely]
    | available => simp [before] at allowed
    | recorded => simp [before] at allowed
  | leased held =>
    cases state with
    | available => simp [before] at allowed
    | leased after =>
      simp only [before, Bool.and_eq_true, decide_eq_true_eq] at allowed
      simp only [before, TaskState.lease, Option.any_some, Bool.and_eq_true] at current
      by_cases same : after.id = held.id
      · simp only [if_pos same, Bool.and_eq_true, decide_eq_true_eq] at allowed
        constructor <;> simp [before, TaskState.lease, TaskState.revision, same, allowed.2.1.1.1]
      · simp only [if_neg same, decide_eq_true_eq] at allowed current
        constructor <;> simp [before, TaskState.lease, TaskState.claimable, TaskState.revision, same,
          allowed.2, current.2, timely]
    | recorded after result =>
      simp only [before, Bool.and_eq_true, decide_eq_true_eq] at allowed
      simp only [before, TaskState.lease, Option.any_some, Bool.and_eq_true] at current
      have same := allowed.2.1.1.1
      simp only [if_pos same, decide_eq_true_eq] at current
      constructor <;> simp [before, TaskState.lease, TaskState.revision, same, allowed.2.1.1.2, current.2,
        timely]
  | recorded held result => simp [before] at allowed

theorem not_recorded {old : TaskRow} {lease : Lease}
    (allowed : transitionAllowed old { old with state, updatedAt := now } = true) :
    old.state ≠ .recorded lease result := by
  intro done
  simp [transitionAllowed, done] at allowed

theorem fair_update {old : TaskRow} (orderly : Orderly world)
    (there : old ∈ world.tasks) (timely : now ≤ world.clock)
    (valid : ∀ lease, state = .leased lease → leaseValid lease = true)
    (updated : world.updateTask old state now = .ok after) :
    (deliveryPact tools).Fair number world after := by
  obtain ⟨rfl, allowed, current, -, order, apart⟩ := updateTask_ok updated
  have step := leaseStep_update timely allowed current
  have later : Later world { world with
      tasks := world.tasks.write { old with state, updatedAt := now } } := by
    refine ⟨Nat.le_refl _, fun row listed => ?_, fun row listed done => ?_, fun _ listed => listed⟩
    · by_cases own : row.taskId = old.taskId
      · cases Table.eq_of_key listed there own
        exact ⟨_, Table.mem_write.mpr (.inl rfl), rfl⟩
      · exact ⟨row, Table.mem_write.mpr (.inr ⟨listed, own⟩), rfl⟩
    · obtain ⟨lease, result, state⟩ := done
      refine Table.mem_write.mpr (.inr ⟨listed, fun own => ?_⟩)
      cases Table.eq_of_key listed there own
      exact not_recorded allowed state
  refine ⟨⟨?_, ?_, ?_, orderly.cursors, fun entry told => (orderly.told entry told).later later⟩, later,
    fun _ _ => trivial, ?_, fun _ listed => .inl listed⟩
  · intro first one second two different
    rcases Table.mem_write.mp one with rfl | ⟨one, left⟩ <;>
      rcases Table.mem_write.mp two with rfl | ⟨two, right⟩
    · exact absurd rfl different
    · exact apart second two right
    · rw [leasesApart_comm]
      exact apart first one left
    · exact orderly.apart first one second two different
  · intro row listed
    rcases Table.mem_write.mp listed with rfl | ⟨listed, -⟩
    · exact timely
    · exact orderly.stamped row listed
  · intro row listed
    rcases Table.mem_write.mp listed with rfl | ⟨listed, -⟩
    · exact ⟨(orderly.valid old there).identity, valid, order⟩
    · exact orderly.valid row listed
  · intro row one new two same
    rcases Table.mem_write.mp two with rfl | ⟨two, -⟩
    · cases Table.eq_of_key one there same.symm
      exact step
    · cases Table.eq_of_key two one same
      exact .refl

theorem fair_insertTask {identity : TaskIdentity} (orderly : Orderly world)
    (timely : identity.createdAt ≤ world.clock)
    (valid : ∀ binding, identityValid ⟨identity.published, binding⟩ = true)
    (inserted : world.insertTask identity = .ok after) :
    (deliveryPact tools).Fair number world after := by
  unfold World.insertTask at inserted
  dsimp only at inserted
  split at inserted
  · cases inserted
  cases grown : world.tasks.insert identity.published with
  | none =>
    rw [grown] at inserted
    cases inserted
    exact fair_stay orderly (Nat.le_refl _) rfl rfl orderly.told
  | some tasks =>
    simp only [grown] at inserted
    split at inserted
    · cases inserted
    split at inserted
    · cases inserted
    cases inserted
    have later : Later world { world with tasks } :=
      ⟨Nat.le_refl _, fun old there => ⟨old, (Table.mem_insert grown).mpr (.inl there), rfl⟩,
        fun row there _ => (Table.mem_insert grown).mpr (.inl there), fun _ there => there⟩
    have fresh := Table.find_none.mp (Table.insert_some grown).1
    refine ⟨⟨?_, ?_, ?_, orderly.cursors, fun entry told => (orderly.told entry told).later later⟩, later,
      fun _ _ => trivial, ?_, fun _ there => .inl there⟩
    · intro first one second two different
      rcases (Table.mem_insert grown).mp one with one | rfl <;>
        rcases (Table.mem_insert grown).mp two with two | rfl
      · exact orderly.apart first one second two different
      · cases first.state <;> simp [leasesApart, TaskIdentity.published, TaskState.lease]
      · simp [leasesApart, TaskIdentity.published, TaskState.lease]
      · exact absurd rfl different
    · intro row there
      rcases (Table.mem_insert grown).mp there with there | rfl
      · exact orderly.stamped row there
      · exact timely
    · intro row there
      rcases (Table.mem_insert grown).mp there with there | rfl
      · exact orderly.valid row there
      · exact ⟨valid, fun _ none => (nomatch none), Nat.le_refl _⟩
    · intro old there new also same
      rcases (Table.mem_insert grown).mp also with also | rfl
      · cases Table.eq_of_key also there same
        exact .refl
      · exact absurd same.symm (fresh old there)

theorem foldl_max_range (count : Nat) : (List.range' 1 count).foldl max 0 = count := by
  induction count with
  | zero => rfl
  | succ count ih =>
    rw [range'_1_concat, foldl_append, ih, foldl_cons, foldl_nil]
    omega

theorem latestCursor_eq (orderly : Orderly world) (id : Text) :
    world.latestCursor id = (world.cursors id).length := by
  have whole : world.latestCursor id = (world.cursors id).foldl max 0 := rfl
  rw [whole, orderly.cursors id, foldl_max_range, length_range']

theorem insertProgress_ok {row : ProgressRow} (inserted : world.insertProgress row = .ok after) :
    HeldAt world row ∧ row.cursor = world.latestCursor row.taskId + 1 ∧
      ∃ progress, world.progress.insert row = some progress ∧ after = { world with progress } := by
  unfold World.insertProgress at inserted
  split at inserted
  · cases inserted
  rename_i allowed
  split at inserted
  · cases inserted
  cases grown : world.progress.insert row with
  | none =>
    rw [grown] at inserted
    cases inserted
  | some progress =>
    rw [grown] at inserted
    cases inserted
    simp only [progressAllowed, Bool.not_eq_false] at allowed
    obtain ⟨task, found, allowed⟩ := (Option.any_eq_true _ _).mp allowed
    cases state : task.state with
    | available => simp [state] at allowed
    | recorded => simp [state] at allowed
    | leased lease =>
      simp only [state, Bool.and_eq_true, decide_eq_true_eq] at allowed
      obtain ⟨-, ⟨⟨⟨held, credential⟩, order⟩, next⟩, -⟩ := allowed
      exact ⟨⟨task, lease, found, state, held, credential, order⟩, next, progress, rfl, rfl⟩

theorem fair_insertProgress {row : ProgressRow} (orderly : Orderly world)
    (inserted : world.insertProgress row = .ok after) : (deliveryPact tools).Fair number world after := by
  obtain ⟨held, next, progress, grown, rfl⟩ := insertProgress_ok inserted
  have later : Later world { world with progress } :=
    ⟨Nat.le_refl _, fun old there => ⟨old, there, rfl⟩, fun _ there _ => there,
      fun row there => (Table.mem_insert grown).mpr (.inl there)⟩
  refine ⟨⟨orderly.apart, orderly.stamped, orderly.valid, fun id => ?_,
    fun entry told => (orderly.told entry told).later later⟩, later, fun _ _ => trivial, ?_, ?_⟩
  · have rows : progress.rows = world.progress.rows ++ [row] := (Table.insert_some grown).2
    have cursors : World.cursors { world with progress } id =
        world.cursors id ++ if row.taskId = id then [row.cursor] else [] := by
      simp only [World.cursors, rows, filter_append, map_append, filter_singleton]
      split <;> simp_all
    rw [cursors]
    split
    · rename_i own
      subst own
      rw [length_append, length_singleton, range'_1_concat, ← orderly.cursors, next,
        latestCursor_eq orderly, Nat.add_comm]
    · rw [append_nil]
      exact orderly.cursors id
  · intro old there new also same
    cases Table.eq_of_key also there same
    exact .refl
  · intro other there
    rcases (Table.mem_insert grown).mp there with there | rfl
    · exact .inl there
    · exact .inr held

theorem fair_renew {row : ProgressRow} {expires : Nat} (orderly : Orderly world)
    (timely : row.createdAt ≤ world.clock) (renewed : world.renew row expires = .ok after) :
    (deliveryPact tools).Fair number world after := by
  unfold World.renew at renewed
  cases found : world.tasks.find row.taskId with
  | none =>
    rw [found] at renewed
    exact fair_insertProgress orderly renewed
  | some task =>
    simp only [found] at renewed
    cases state : task.state with
    | available =>
      rw [state] at renewed
      exact fair_insertProgress orderly renewed
    | recorded lease result =>
      rw [state] at renewed
      exact fair_insertProgress orderly renewed
    | leased lease =>
      simp only [state] at renewed
      split at renewed
      · rename_i held
        obtain ⟨there, named⟩ := Table.find_some.mp found
        obtain ⟨middle, updated, inserted⟩ := bind_ok renewed
        have first : (deliveryPact tools).Fair number world middle := by
          refine fair_update orderly there timely ?_ updated
          intro other same
          cases same
          exact (orderly.valid task there).lease lease state
        have second : (deliveryPact tools).Fair number middle after := fair_insertProgress first.inv inserted
        refine ⟨second.inv, Later.trans first.evolve second.evolve, fun _ _ => trivial, ?_, ?_⟩
        · obtain ⟨-, -, progress, -, rfl⟩ := insertProgress_ok inserted
          exact first.granted.leases
        · obtain ⟨rest, -, progress, grown, rfl⟩ := insertProgress_ok inserted
          obtain ⟨rfl, -⟩ := updateTask_ok updated
          intro other listed
          rcases (Table.mem_insert grown).mp listed with old | rfl
          · exact .inl old
          · obtain ⟨renewed, its, also, leased, -, credential, -⟩ := rest
            rw [Table.find_write, if_pos named.symm] at also
            cases also
            cases leased
            exact .inr ⟨task, lease, found, state, held.1, credential, held.2⟩
      · exact fair_insertProgress orderly renewed

end

section
variable {tools : Tools} {number : Nat} {pre : World tools → Prop} {α : Type}

def Lasting (known : World tools → Prop) : Prop := ∀ before after, Later before after → known before → known after

theorem Lasting.stable (lasting : Lasting pre) : (deliveryPact tools).Stable number pre :=
  fun _ _ sees held => lasting _ _ sees.1 held

def Timed (now : Nat) (world : World tools) : Prop := now ≤ world.clock

theorem Lasting.timed (lasting : Lasting pre) (now : Nat) : Lasting fun world => pre world ∧ Timed now world :=
  fun before after later held => ⟨lasting before after later held.1, Nat.le_trans held.2 later.clock⟩

theorem fair_after {world after : World tools} {choice : Choice} (orderly : Orderly world)
    (fair : (deliveryPact tools).Fair number (world.advance choice) after) :
    (deliveryPact tools).Fair number world after := by
  have first : (deliveryPact tools).Fair number world (world.advance choice) := fair_advance orderly choice
  exact ⟨fair.inv, Later.trans first.evolve fair.evolve, fun _ _ => trivial, fair.granted.leases,
    fair.granted.progress⟩

variable {error : ExternalAgentTaskError} {read : World tools → α}

theorem query_does (lasting : Lasting pre) :
    (deliveryPact tools).Does number pre (query error read)
      (Given fun value world => pre world ∧ value = read world) := by
  refine request lasting.stable fun world orderly held choice => ?_
  have fair : (deliveryPact tools).Fair number world (world.advance choice) := fair_advance orderly choice
  cases choice.fault with
  | none => exact ⟨fair, lasting _ _ fair.evolve held, rfl⟩
  | refused message => exact ⟨fair, trivial⟩
  | lost message => exact ⟨fair, trivial⟩

theorem query_keeps (lasting : Lasting pre) :
    (deliveryPact tools).Does number pre (query error read) (Given fun _ => pre) :=
  (query_does lasting).loosen fun _ _ told => told.1

theorem execute_does {statement : Choice → World tools → Except Text (α × World tools)}
    (lasting : Lasting pre)
    (sound : ∀ world choice value after, Orderly world → pre world →
      statement choice world = .ok (value, after) → (deliveryPact tools).Fair number world after) :
    (deliveryPact tools).Does number pre (execute statement) (Given fun _ => pre) := by
  refine request lasting.stable fun world orderly held choice => ?_
  have fair : (deliveryPact tools).Fair number world (world.advance choice) := fair_advance orderly choice
  have still := lasting _ _ fair.evolve held
  have told {value : α} {after : World tools}
      (done : statement choice (world.advance choice) = .ok (value, after)) :
      (deliveryPact tools).Fair number world after ∧ pre after := by
    have rest := fair_after orderly (sound _ choice value after fair.inv still done)
    exact ⟨rest, lasting _ _ rest.evolve held⟩
  cases choice.fault with
  | refused message => exact ⟨fair, still⟩
  | none =>
    dsimp only
    cases done : statement choice (world.advance choice) with
    | error message => exact ⟨fair, still⟩
    | ok reply => exact told done
  | lost message =>
    dsimp only
    cases done : statement choice (world.advance choice) with
    | error message => exact ⟨fair, still⟩
    | ok reply => exact told done

theorem currentTime_does (lasting : Lasting pre) : (deliveryPact tools).Does number pre currentTime
    (Given fun now world => pre world ∧ Timed now world) := by
  refine act lasting.stable fun world orderly held choice => ?_
  have fair : (deliveryPact tools).Fair number world (world.advance choice) := fair_advance orderly choice
  exact ⟨fair, lasting _ _ fair.evolve held, Nat.le_refl _⟩

theorem randomUuid_does (lasting : Lasting pre) : (deliveryPact tools).Does number pre randomUuid
    (Given fun _ => pre) := by
  refine act lasting.stable fun world orderly held choice => ?_
  have fair : (deliveryPact tools).Fair number world (world.advance choice) := fair_advance orderly choice
  exact ⟨fair, lasting _ _ fair.evolve held⟩

theorem schema_does (lasting : Lasting pre) : (deliveryPact tools).Does number pre schema
    (Given fun _ => pre) := by
  refine request lasting.stable fun world orderly held choice => ?_
  have fair : (deliveryPact tools).Fair number world (world.advance choice) := fair_advance orderly choice
  dsimp only
  split
  · exact ⟨fair, lasting _ _ fair.evolve held⟩
  · exact ⟨fair, trivial⟩

variable {message : Text}

theorem input_does {condition : Bool} : (deliveryPact tools).Does number pre
    (input condition message) (Given fun _ world => condition = true ∧ pre world) := by
  cases condition with
  | false => exact throws
  | true => exact returns fun _ _ held => ⟨rfl, held⟩

theorem deny_does {condition : Bool} : (deliveryPact tools).Does number pre
    (deny condition message) (Given fun _ world => condition = true ∧ pre world) := by
  cases condition with
  | false => exact throws
  | true => exact returns fun _ _ held => ⟨rfl, held⟩

theorem inputAll_does {checks : Checks} : (deliveryPact tools).Does number pre (inputAll checks)
    (Given fun _ => pre) := by
  induction checks with
  | nil => exact returns fun _ _ held => held
  | cons check checks ih =>
    refine Does.then _ input_does fun _ => ?_
    exact weaken ih fun _ _ held => held.2

structure Granted (actor : ExternalAgentTaskActor) : Prop where
  credential : isString 256 actor.credentialGeneration = true
  positive : 1 ≤ actor.grant.revision
  bounded : actor.grant.revision ≤ Text.maxSafeInteger

variable {actor : ExternalAgentTaskActor}

theorem requireGrant_does :
    (deliveryPact tools).Does number pre (requireGrant actor now)
      (Given fun grant world => (grant = actor.grant ∧ Granted actor) ∧ pre world) := by
  refine Does.then _ deny_does fun _ => fact fun _ => ?_
  refine Does.then _ deny_does fun _ => fact fun _ => ?_
  refine Does.then _ deny_does fun _ => fact fun _ => ?_
  refine Does.then _ deny_does fun _ => fact fun valid => ?_
  refine Does.then _ deny_does fun _ => fact fun credential => ?_
  simp only [Bool.and_eq_true, decide_eq_true_eq] at valid
  exact returns fun _ _ held => ⟨⟨rfl, credential, valid.1.2, valid.1.1⟩, held⟩

theorem iso_does {milliseconds : Nat} : (deliveryPact tools).Does number pre (iso milliseconds)
    (Given fun time world => time = milliseconds ∧ pre world) := by
  refine Does.then _ input_does fun _ => ?_
  exact returns fun _ _ held => ⟨rfl, held.2⟩

theorem boundedText_does {encoded : Text} {most : Nat} :
    (deliveryPact tools).Does number pre (boundedText encoded most message)
      (Given fun written world => written = encoded ∧ pre world) := by
  refine Does.then _ input_does fun _ => ?_
  exact returns fun _ _ held => ⟨rfl, held.2⟩

theorem boundedText_keeps {encoded : Text} {most : Nat} :
    (deliveryPact tools).Does number pre (boundedText encoded most message) (Given fun _ => pre) :=
  boundedText_does.loosen fun _ _ told => told.2

variable {row : BoundRow}

theorem validateRow_does : (deliveryPact tools).Does number pre (validateRow row)
    (Given fun _ => pre) := by
  unfold validateRow
  split
  · exact throws
  cases tools.parseRequest row.binding.requestJson with
  | none => exact throws
  | some request =>
    dsimp only
    split
    · exact throws
    split
    · exact throws
    · exact returns fun _ _ held => held

theorem readTask_does {id : Text} (lasting : Lasting pre) : (deliveryPact tools).Does number pre
    (readTask id) (Given fun _ => pre) := by
  unfold readTask
  refine Does.then _ (query_keeps lasting) fun row => ?_
  cases row with
  | none => exact returns fun _ _ held => held
  | some row => exact validateRow_does.then _ fun _ => returns fun _ _ held => held

def Listed (row : TaskRow) (world : World tools) : Prop := row ∈ world.tasks

variable {grant : ProjectClientGrant}

theorem readBound_does {id : Text} (lasting : Lasting pre) :
    (deliveryPact tools).Does number pre (readBound id grant)
      (Given fun row world => pre world ∧ Listed row.toTaskRow world ∧ row.taskId = id) := by
  unfold readBound
  refine Does.then _ (query_does lasting) fun row => ?_
  cases row with
  | none => exact throws
  | some row =>
    refine validateRow_does.then _ fun _ => returns fun world _ held => ⟨held.1, ?_⟩
    obtain ⟨stored, found, joined⟩ := Option.bind_eq_some_iff.mp held.2.symm
    obtain ⟨binding, -, rfl⟩ := Option.map_eq_some_iff.mp joined
    exact Table.find_some.mp (Option.filter_eq_some_iff.mp found).1

theorem readBound_keeps {id : Text} (lasting : Lasting pre) :
    (deliveryPact tools).Does number pre (readBound id grant) (Given fun _ => pre) :=
  (readBound_does lasting).loosen fun _ _ told => told.1

theorem readLatestCursor_does {id : Text} (lasting : Lasting pre) : (deliveryPact tools).Does number pre
    (readLatestCursor id) (Given fun _ => pre) := by
  refine Does.then (fun _ => pre) (execute_does lasting fun world _ _ _ orderly _ done => ?_)
    fun reply => ?_
  · cases done
    exact fair_stay orderly (Nat.le_refl _) rfl rfl orderly.told
  · cases reply with
    | error message => exact throws
    | ok cursor =>
      dsimp only
      split
      · exact throws
      · exact returns fun _ _ held => held

theorem isTaskId_taskId {digest : Text} (valid : Text.isSha256 digest = true) :
    isTaskId (taskId digest) = true := by
  have start : (text "external-task:").length = 14 := by decide
  unfold isTaskId taskId
  rw [← start, take_left, drop_left, valid]
  simp

theorem stages_nodup : researchWorkflowStages.Nodup := by decide +kernel

theorem identityValid_published {publication : ExternalAgentTaskPublication} {binding : Binding}
    (operation : isString 128 publication.operationId = true)
    (index : publication.stageIndex < researchWorkflowStages.length)
    (attempt : isString 128 publication.attemptRef = true)
    (digest : Text.isSha256 publication.requestSha256 = true)
    (positive : 1 ≤ publication.grant.revision)
    (bounded : publication.grant.revision ≤ Text.maxSafeInteger) :
    identityValid ⟨(publication.identity now).published, binding⟩ = true := by
  have stage := stages_nodup.idxOf_getElem publication.stageIndex index
  simp only [isString, Bool.and_eq_true, decide_eq_true_eq] at operation attempt
  simp [identityValid, TaskIdentity.published, ExternalAgentTaskPublication.identity, stage, index,
    isTaskId_taskId digest, digest, operation.1.1, operation.1.2, attempt.1.1, attempt.1.2, positive, bounded]

theorem publish_does {publication : ExternalAgentTaskPublication} (lasting : Lasting pre) :
    (deliveryPact tools).Does number pre (publish publication) (Given fun _ => pre) := by
  refine Does.then _ (schema_does lasting) fun _ => ?_
  refine Does.then _ (currentTime_does lasting) fun now => ?_
  have timed := lasting.timed now
  refine Does.then _ input_does fun _ => fact fun operation => ?_
  refine Does.then _ input_does fun _ => fact fun index => ?_
  refine Does.then _ input_does fun _ => fact fun attempt => ?_
  refine Does.then _ input_does fun _ => fact fun digest => ?_
  refine Does.then _ requireGrant_does fun grant => fact fun granted => ?_
  refine Does.then _ iso_does fun created => fact fun same => ?_
  subst same
  refine Does.then _ (execute_does timed fun world choice value after orderly held done => ?_)
    fun inserted => ?_
  · obtain ⟨next, grown, told⟩ := map_ok done
    cases told
    have timely : (publication.identity created).createdAt ≤ world.clock := held.2
    exact fair_insertTask orderly timely (fun binding => identityValid_published operation
      (of_decide_eq_true index) attempt digest granted.2.positive granted.2.bounded) grown
  refine Does.then _ (readTask_does timed) fun found => ?_
  cases found with
  | none => cases inserted <;> exact throws
  | some row =>
    dsimp only
    split
    · exact throws
    · exact returns fun _ _ held => held.1

theorem fair_claim {world after : World tools} {candidate : BoundRow} {lease : Lease}
    (orderly : Orderly world) (timely : now ≤ world.clock)
    (valid : ∀ revision, 1 ≤ revision → leaseValid { lease with revision } = true)
    (claimed : world.claim candidate lease now = .ok after) :
    (deliveryPact tools).Fair number world after := by
  have still : (deliveryPact tools).Fair number world world :=
    fair_stay orderly (Nat.le_refl _) rfl rfl orderly.told
  unfold World.claim at claimed
  cases found : world.tasks.find candidate.taskId with
  | none =>
    rw [found] at claimed
    cases claimed
    exact still
  | some row =>
    obtain ⟨there, -⟩ := Table.find_some.mp found
    simp only [found] at claimed
    split at claimed
    · refine fair_update orderly there timely (fun other same => ?_) claimed
      cases same
      exact valid 1 (Nat.le_refl _)
    · split at claimed
      · refine fair_update orderly there timely (fun other same => ?_) claimed
        cases same
        exact valid _ (Nat.le_add_left _ _)
      · cases claimed
        exact still
    · cases claimed
      exact still

theorem leaseExpiry_does :
    (deliveryPact tools).Does number pre (leaseExpiry row grant now) (Given fun _ => pre) := by
  unfold leaseExpiry
  dsimp only
  split
  · exact throws
  · exact input_does.then _ fun _ => returns fun _ _ held => held.2

theorem deliver_does {polledAt : Nat}
    (lasting : Lasting pre) : (deliveryPact tools).Does number pre (deliver row actor message polledAt)
      (Given fun _ => pre) := by
  unfold deliver
  split
  · refine Does.then _ validateRow_does fun request => ?_
    split
    · exact throws
    split
    · exact (readLatestCursor_does lasting).then _ fun _ => returns fun _ _ held => held
    · exact throws
  · exact throws

theorem pullPass_does {slot : Text} {last : Bool}
    (lasting : Lasting pre) (granted : Granted actor) (valid : isWorkerSlot slot = true) :
    (deliveryPact tools).Does number (fun world => pre world ∧ Timed now world)
      (pullPass actor slot now now last) (Given fun _ world => pre world ∧ Timed now world) := by
  have timed := lasting.timed now
  refine Does.then _ (query_keeps timed) fun found => ?_
  cases found with
  | none => exact returns fun _ _ held => held
  | some candidate =>
    refine Does.then _ validateRow_does fun _ => ?_
    refine Does.then _ (randomUuid_does timed) fun uuid => ?_
    refine Does.then _ input_does fun _ => fact fun named => ?_
    refine Does.then _ leaseExpiry_does fun expires => ?_
    refine Does.then _ (execute_does timed fun world choice value after orderly held done => ?_)
      fun mutation => ?_
    · obtain ⟨next, claimed, told⟩ := map_ok done
      cases told
      refine fair_claim orderly held.2 (fun revision positive => ?_) claimed
      have credential := granted.credential
      simp only [isString, Bool.and_eq_true, decide_eq_true_eq] at credential
      simp [leaseValid, named, valid, credential.1.1, credential.1.2, positive]
    refine Does.then _ (query_keeps timed) fun claimed => ?_
    cases claimed with
    | some row => exact (deliver_does timed).then _ fun _ => returns fun _ _ held => held
    | none =>
      refine Does.then _ (query_keeps timed) fun active => ?_
      cases active with
      | some row => exact (deliver_does timed).then _ fun _ => returns fun _ _ held => held
      | none =>
        dsimp only
        split
        · exact throws
        · exact returns fun _ _ held => held

theorem pull_does {slot : Text} (lasting : Lasting pre) :
    (deliveryPact tools).Does number pre (pull actor slot) (Given fun _ => pre) := by
  refine Does.then _ (schema_does lasting) fun _ => ?_
  refine Does.then _ (currentTime_does lasting) fun now => ?_
  have timed := lasting.timed now
  refine Does.then _ requireGrant_does fun grant => fact fun granted => ?_
  refine Does.then _ input_does fun _ => fact fun valid => ?_
  refine Does.then _ iso_does fun polledAt => fact fun same => ?_
  subst same
  refine Does.then _ (query_keeps timed) fun active => ?_
  have passes : ∀ last, (deliveryPact tools).Does number (fun world => pre world ∧ Timed polledAt world)
      (pullPass actor slot polledAt polledAt last)
      (Given fun _ world => pre world ∧ Timed polledAt world) :=
    fun last => pullPass_does lasting granted.2 valid
  cases active with
  | some row => exact (deliver_does timed).loosen fun _ _ told => told.1
  | none =>
    refine Does.then _ (passes false) fun first => ?_
    cases first with
    | some pulled => exact returns fun _ _ held => held.1
    | none =>
      refine Does.then _ (passes true) fun second => ?_
      cases second with
      | some pulled => exact returns fun _ _ held => held.1
      | none => exact throws

theorem decodeProgress_does {row : ProgressRow} {task : BoundRow} : (deliveryPact tools).Does number pre
    (decodeProgress row task) (Given fun _ => pre) := by
  unfold decodeProgress
  cases tools.parseProgress row.progressJson with
  | none => exact throws
  | some progress =>
    dsimp only
    split
    · exact returns fun _ _ held => held
    · exact throws

theorem reconcileProgress_does {row : ProgressRow} {task : BoundRow} {leaseId semanticText : Text}
    {leaseExpiresAt : Option Nat} (lasting : Lasting pre) : (deliveryPact tools).Does number pre
      (reconcileProgress row task leaseId semanticText leaseExpiresAt) (Given fun _ => pre) := by
  unfold reconcileProgress
  split
  · exact throws
  refine Does.then _ (query_keeps lasting) fun current => ?_
  split
  · exact throws
  split
  · refine Does.then _ (currentTime_does lasting) fun now => ?_
    split
    · exact throws
    split
    · exact throws
    refine Does.then _ decodeProgress_does fun progress => ?_
    refine Does.then _ boundedText_does fun recorded => fact fun _ => ?_
    split
    · exact throws
    · exact returns fun _ _ held => held.1
  · exact throws

theorem recordProgress_does {value : ExternalAgentProgressInput}
    (lasting : Lasting pre) : (deliveryPact tools).Does number pre (recordProgress actor value)
      (Given fun _ => pre) := by
  refine Does.then _ (schema_does lasting) fun _ => ?_
  refine Does.then _ (currentTime_does lasting) fun now => ?_
  have timed := lasting.timed now
  refine Does.then _ requireGrant_does fun grant => fact fun granted => ?_
  refine Does.then _ input_does fun _ => fact fun _ => ?_
  refine Does.then _ input_does fun _ => fact fun _ => ?_
  refine Does.then _ inputAll_does fun _ => ?_
  refine Does.then _ boundedText_does fun semanticText => fact fun _ => ?_
  refine Does.then _ (readBound_keeps timed) fun row => ?_
  split
  · exact throws
  refine Does.then _ (query_keeps timed) fun current => ?_
  split
  · split
    · exact throws
    refine Does.then _ (query_keeps timed) fun existing => ?_
    have settle : ∀ (saved : ProgressRow) (task : BoundRow) (expires : Option Nat),
        (deliveryPact tools).Does number (fun world => pre world ∧ Timed now world)
          (reconcileProgress saved task value.leaseId semanticText expires) (Given fun _ => pre) :=
      fun _ _ _ => (reconcileProgress_does timed).loosen fun _ _ told => told.1
    cases existing with
    | some saved => exact settle _ _ _
    | none =>
      refine Does.then _ (readLatestCursor_does timed) fun latest => ?_
      dsimp only
      split
      · exact throws
      refine Does.then _ iso_does fun recordedAt => fact fun same => ?_
      subst same
      refine Does.then _ boundedText_does fun json => fact fun _ => ?_
      refine Does.then _ leaseExpiry_does fun expires => ?_
      refine Does.then _ (execute_does timed fun world choice value after orderly held done => ?_)
        fun mutation => ?_
      · obtain ⟨next, renewed, told⟩ := map_ok done
        cases told
        refine fair_renew orderly ?_ renewed
        exact held.2
      refine Does.then _ (query_keeps timed) fun saved => ?_
      cases saved with
      | none => cases mutation <;> exact throws
      | some saved =>
        refine Does.then _ (readBound_keeps timed) fun refreshed => ?_
        exact settle _ _ _
  · exact throws

def Ticks (before after : World tools) : Prop := ∃ choice, after = before.advance choice

theorem ticking {program : Calls tools α} (steps : program.Steps Ticks) (lasting : Lasting pre) :
    (deliveryPact tools).Does number pre program fun _ => pre := by
  refine keeps steps lasting.stable fun before after orderly held moved => ?_
  obtain ⟨choice, rfl⟩ := moved
  have fair : (deliveryPact tools).Fair number before (before.advance choice) := fair_advance orderly choice
  exact ⟨fair, lasting _ _ fair.evolve held⟩

theorem query_ticks :
    (query error read).Steps Ticks := by
  refine Program.steps_request.mpr fun choice now => ?_
  cases choice.fault <;> exact ⟨choice, rfl⟩

theorem validateRow_ticks : (validateRow row : Calls tools StageRequest).Steps Ticks := by
  unfold validateRow
  split
  · exact trivial
  split
  · exact trivial
  split
  · exact trivial
  split <;> exact trivial

theorem readBound_ticks {id : Text} :
    (readBound id grant : Calls tools BoundRow).Steps Ticks := by
  unfold readBound
  refine Program.Steps.bind query_ticks fun row => ?_
  cases row with
  | none => exact trivial
  | some row => exact Program.Steps.bind validateRow_ticks fun _ => trivial

theorem prepareOutbox_ticks : (prepareOutbox row : Calls tools Bool).Steps Ticks := by
  unfold prepareOutbox
  split
  · exact trivial
  split
  · exact trivial
  split
  · exact trivial
  · refine Program.steps_request.mpr fun choice now => ?_
    cases choice.outboxError <;> exact ⟨choice, rfl⟩

theorem record_fair {world after : World tools} {id leaseId : Text} {now changes : Nat}
    (orderly : Orderly world) (timely : now ≤ world.clock)
    (recorded : world.record id leaseId result now = .ok (changes, after)) :
    (deliveryPact tools).Fair number world after := by
  have still : (deliveryPact tools).Fair number world world :=
    fair_stay orderly (Nat.le_refl _) rfl rfl orderly.told
  unfold World.record at recorded
  cases found : world.tasks.find id with
  | none =>
    rw [found] at recorded
    cases recorded
    exact still
  | some row =>
    obtain ⟨there, -⟩ := Table.find_some.mp found
    simp only [found] at recorded
    split at recorded
    · split at recorded
      · obtain ⟨next, updated, told⟩ := map_ok recorded
        cases told
        exact fair_update orderly there timely (fun other same => by cases same) updated
      · cases recorded
        exact still
    · cases recorded
      exact still

theorem commitResult_does {leaseId : Text}
    (lasting : Lasting pre) : (deliveryPact tools).Does number (fun world => pre world ∧ Timed now world)
      (commitResult row leaseId result now) (Given fun _ => pre) := by
  have timed := lasting.timed now
  refine Does.then (fun _ world => pre world ∧ Timed now world)
    (attempt (ticking prepareOutbox_ticks timed)) fun prepared => ?_
  cases prepared with
  | error failure => exact returns fun _ _ held => held.1
  | ok announced =>
    refine Does.then _ (execute_does timed fun world choice value after orderly held done => ?_)
      fun outcome => ?_
    · split at done
      · cases done
      · exact record_fair orderly held.2 done
    cases outcome with
    | error message => exact returns fun _ _ held => held.1
    | ok changes =>
      dsimp only
      split <;> exact returns fun _ _ held => held.1

theorem workflowSettlement_does (lasting : Lasting pre) :
    (deliveryPact tools).Does number pre (workflowSettlement row) (Given fun _ => pre) := by
  refine Does.then _ (query_keeps lasting) fun status => ?_
  cases status with
  | none => exact throws
  | some status =>
    dsimp only
    split
    · exact throws
    · exact returns fun _ _ held => held

theorem decodeResult_does {leaseId : Text} :
    (deliveryPact tools).Does number pre (decodeResult row leaseId result)
      (Given fun envelope world => (tools.parseResult result.json = some envelope ∧
        envelope.encoded tools = result.json ∧ envelope.idempotencyKey = result.idempotencyKey) ∧
          pre world) := by
  unfold decodeResult
  cases parsed : tools.parseResult result.json with
  | none => exact throws
  | some envelope =>
    dsimp only
    split
    · rename_i valid
      simp only [Bool.and_eq_true, decide_eq_true_eq] at valid
      exact returns fun _ _ held => ⟨⟨rfl, valid.2, valid.1.1.2⟩, held⟩
    · exact throws

variable {value : ExternalAgentResultInput}

theorem reconcileResult_does :
    (deliveryPact tools).Does number (fun world => Listed row.toTaskRow world ∧ row.taskId = value.taskId)
      (reconcileResult row value.idempotencyKey value.semantic.encoded)
      (Given fun receipt world => Told world (Returned.of value receipt)) := by
  unfold reconcileResult
  split
  · rename_i lease result state
    have lasting : Lasting fun world : World tools => Listed row.toTaskRow world ∧ row.taskId = value.taskId :=
      fun before after later held => ⟨later.recorded _ held.1 ⟨lease, result, state⟩, held.2⟩
    split
    · exact throws
    rename_i checked
    simp only [ne_eq, Bool.or_eq_true, decide_eq_true_eq, not_or, not_not] at checked
    refine Does.then _ decodeResult_does fun envelope => ?_
    generalize content : envelope.semantic.encoded = encoded
    refine fact fun decoded => ?_
    refine Does.then _ boundedText_does fun existing => fact fun written => ?_
    split
    · exact throws
    rename_i same
    have prepared : (deliveryPact tools).Does number
        (fun world => Listed row.toTaskRow world ∧ row.taskId = value.taskId) (prepareOutbox row)
        (Given fun _ world => Listed row.toTaskRow world ∧ row.taskId = value.taskId) := by
      refine (ticking prepareOutbox_ticks lasting).consequence (fun _ _ held => held) fun result _ _ told => ?_
      cases result with
      | ok announced => exact told
      | error error => exact trivial
    refine Does.then _ prepared fun _ => ?_
    refine Does.then _ (workflowSettlement_does lasting) fun settlement => ?_
    refine returns fun world _ held => ?_
    exact ⟨row.toTaskRow, lease, result, envelope, held.1, held.2, rfl, state, decoded.1, decoded.2.1,
      content.trans (written.symm.trans (not_not.mp same)), checked.1, rfl, rfl, rfl, rfl, rfl, rfl⟩
  · exact throws

theorem rethrow_does {failure : Failure} {known : α → World tools → Prop} :
    (deliveryPact tools).Does number pre (rethrow failure) (Given known) := by
  cases failure <;> exact throws

theorem settle_does (lasting : Lasting pre) :
    (deliveryPact tools).Does number pre
      ((readBound value.taskId grant).bind fun row =>
        reconcileResult row value.idempotencyKey value.semantic.encoded)
      (Given fun receipt world => Told world (Returned.of value receipt)) := by
  refine Does.then _ (readBound_does lasting) fun row => ?_
  exact weaken reconcileResult_does fun _ _ held => held.2

theorem recordResult_does
    (lasting : Lasting pre) : (deliveryPact tools).Does number pre (recordResult actor value)
      (Given fun receipt world => Told world (Returned.of value receipt)) := by
  have settled : ∀ grant, (deliveryPact tools).Does number pre
      ((readBound value.taskId grant).bind fun row =>
        reconcileResult row value.idempotencyKey value.semantic.encoded)
      (Given fun receipt world => Told world (Returned.of value receipt)) :=
    fun _ => settle_does lasting
  have reconciled : ∀ row, (deliveryPact tools).Does number
      (fun world => Listed row.toTaskRow world ∧ row.taskId = value.taskId)
      (reconcileResult row value.idempotencyKey value.semantic.encoded)
      (Given fun receipt world => Told world (Returned.of value receipt)) :=
    fun _ => reconcileResult_does
  unfold recordResult
  generalize value.semantic.encoded = content at *
  refine Does.then _ (schema_does lasting) fun _ => ?_
  refine Does.then _ (currentTime_does lasting) fun now => ?_
  have timed := lasting.timed now
  refine Does.then _ requireGrant_does fun grant => fact fun granted => ?_
  refine Does.then _ input_does fun _ => fact fun _ => ?_
  refine Does.then _ input_does fun _ => fact fun _ => ?_
  refine Does.then _ inputAll_does fun _ => ?_
  refine Does.then _ boundedText_does fun semanticText => fact fun same => ?_
  subst same
  refine Does.then (fun row world => row.taskId = value.taskId ∧ Listed row.toTaskRow world ∧
      pre world ∧ Timed now world)
    ((readBound_does timed).loosen fun _ _ told => ⟨told.2.2, told.2.1, told.1⟩)
    fun row => fact fun named => ?_
  split
  · exact weaken (reconciled row) fun _ _ held => ⟨held.1, named⟩
  · split <;> exact throws
  split
  · exact throws
  split
  · exact throws
  refine Does.then _ (weaken (query_keeps timed) fun _ _ held => held.2) fun current => ?_
  rw [named]
  cases current with
  | none => exact throws
  | some current =>
    refine Does.then (fun submitted world => pre world ∧ Timed submitted world)
      (iso_does.loosen fun _ _ told => told.1 ▸ told.2) fun submitted => ?_
    dsimp only
    generalize ExternalAgentRecordedResult.encoded tools _ = encoded
    refine Does.then _ boundedText_keeps fun json => ?_
    refine Does.then _ (commitResult_does lasting) fun committed => ?_
    cases committed with
    | ok _ => exact settled grant
    | error failure =>
      refine Does.then (fun _ => pre) (attempt (ticking readBound_ticks lasting)) fun found => ?_
      cases found with
      | error error => exact rethrow_does
      | ok found =>
        dsimp only
        split
        · exact settled grant
        · exact rethrow_does

end

section
variable {tools : Tools}

def World.start (env : Env tools) (clock : Nat) : World tools := ⟨clock, env, Table.empty, Table.empty, []⟩

theorem orderly_start {env : Env tools} {clock : Nat} : Orderly (World.start env clock) :=
  ⟨fun _ none => (nomatch none), fun _ none => (nomatch none), fun _ none => (nomatch none), fun _ => rfl,
    fun _ none => (nomatch none)⟩

def granted (_ : Nat) (_ : Request tools) : World tools → World tools → Prop := Exclusive

theorem answering_does {α : Type} {number : Nat} {call : Calls tools α}
    (holds : (deliveryPact tools).Does number (fun _ => True) call (Given fun _ _ => True)) :
    (deliveryPact tools).Does number (fun _ => True) (answering tools call)
      (Given fun _ _ => True) :=
  holds.then _ fun _ => returns fun _ _ _ => trivial

theorem serve_does {number : Nat} (request : Request tools) :
    (deliveryPact tools).Does number (fun _ => True) ((service tools).serve number request)
      (Given fun _ _ => True) := by
  have free : Lasting fun _ : World tools => True := fun _ _ _ _ => trivial
  cases request with
  | publish publication => exact answering_does (publish_does free)
  | pull actor slot => exact answering_does (pull_does free)
  | progress actor value => exact answering_does (recordProgress_does free)
  | result actor value =>
    refine Does.then _ (recordResult_does free) fun receipt => ?_
    have told : (deliveryPact tools).Stable number fun world => Told world (Returned.of value receipt) :=
      fun _ _ sees held => held.later sees.1
    refine act told fun world orderly held _ => ⟨?_, trivial⟩
    refine fair_stay orderly (Nat.le_refl _) rfl rfl fun entry there => ?_
    rcases mem_append.mp there with there | there
    · exact orderly.told entry there
    · rw [mem_singleton.mp there]
      exact held
  | change env =>
    refine act (fun _ _ _ held => held) fun world orderly _ _ => ⟨?_, trivial⟩
    exact fair_stay orderly (Nat.le_refl _) rfl rfl orderly.told

theorem serve_fit {number : Nat} {request : Request tools} {world : World tools} (orderly : Orderly world) :
    ((deliveryPact tools).granting (granted number request)).wp number
      ((service tools).serve number request) (fun _ _ => True) world :=
  Pact.wp_mono orderly (serve_does request world orderly trivial) fun _ _ _ _ => trivial

theorem run_orderly {labels : List (Service.Label Choice (Request tools))}
    {before after : Service.Config (World tools) Choice Failure} {requests : List (Request tools)}
    (sound : (deliveryPact tools).Sound granted requests before)
    (ran : (service tools).run before labels = some after) :
    (deliveryPact tools).Sound granted (requests ++ labels.flatMap Pact.accepted) after ∧
      Later before.state after.state :=
  Pact.run_sound granted deliveryPact_lawful (fun _ _ _ orderly _ _ => serve_fit orderly) ran sound

theorem step_exclusive {label : Service.Label Choice (Request tools)}
    {before after : Service.Config (World tools) Choice Failure} {requests : List (Request tools)}
    (sound : (deliveryPact tools).Sound granted requests before)
    (taken : (service tools).step before label = some after) : Exclusive before.state after.state := by
  cases label with
  | accept request =>
    simp only [Service.step, Option.ite_none_right_eq_some, Option.some.injEq] at taken
    obtain ⟨-, rfl⟩ := taken
    exact deliveryPact_lawful.stays before.state
  | act number choice =>
    obtain ⟨-, request, -, fair⟩ := Pact.act_sound deliveryPact_lawful taken sound
    exact fair.granted

theorem Orderly.slot {world : World tools} (orderly : Orderly world) {first second : TaskRow}
    {one two : Lease} (left : first ∈ world.tasks) (right : second ∈ world.tasks)
    (held : first.state = .leased one) (also : second.state = .leased two)
    (grant : first.clientGrantId = second.clientGrantId)
    (revision : first.clientGrantRevision = second.clientGrantRevision) (slot : one.slot = two.slot) :
    first = second := by
  by_contra different
  have apart := orderly.apart first left second right fun same =>
    different (Table.eq_of_key left right same)
  simp [leasesApart, held, also, grant, revision, slot] at apart

/-- The delivery of tasks to workers, at each step of a run and over the rest of it. -/
theorem delivery_exclusive {env : Env tools} {clock : Nat}
    {earlier later : List (Service.Label Choice (Request tools))}
    {label : Service.Label Choice (Request tools)}
    {before after last : Service.Config (World tools) Choice Failure}
    (ran : (service tools).run (Service.boot (World.start env clock)) earlier = some before)
    (taken : (service tools).step before label = some after)
    (rest : (service tools).run after later = some last) :
    (∀ old ∈ before.state.tasks, ∀ new ∈ after.state.tasks, new.taskId = old.taskId →
      LeaseStep old new after.state.clock) ∧
    (∀ first ∈ after.state.tasks, ∀ second ∈ after.state.tasks, ∀ one two,
      first.state = .leased one → second.state = .leased two →
        first.clientGrantId = second.clientGrantId →
        first.clientGrantRevision = second.clientGrantRevision → one.slot = two.slot → first = second) ∧
    (∀ id, after.state.cursors id = List.range' 1 (after.state.cursors id).length) ∧
    (∀ row ∈ after.state.progress, row ∈ last.state.progress ∧
      (row ∈ before.state.progress ∨ HeldAt before.state row)) ∧
    (∀ row ∈ after.state.tasks, (∃ new ∈ last.state.tasks, new.toTaskIdentity = row.toTaskIdentity) ∧
      ∀ lease result, row.state = .recorded lease result → row ∈ last.state.tasks) ∧
    ∀ entry ∈ after.state.returned, Told after.state entry := by
  have start : (deliveryPact tools).Sound granted []
      (Service.boot (World.start env clock) : Service.Config (World tools) Choice Failure) :=
    Pact.boot_sound orderly_start fun _ => trivial
  obtain ⟨sound, -⟩ := run_orderly start ran
  have exclusive := step_exclusive sound taken
  have one : (service tools).run before [label] = some after := by
    rw [Service.run, taken]
    rfl
  obtain ⟨sound, -⟩ := run_orderly sound one
  obtain ⟨-, onward⟩ := run_orderly sound rest
  have orderly : Orderly after.state := sound.inv
  refine ⟨exclusive.leases, fun first left second right one two held also grant revision slot => ?_,
    orderly.cursors, fun row there => ⟨onward.progress row there, exclusive.progress row there⟩,
    fun row there => ⟨onward.tasks row there, fun lease result state => ?_⟩, orderly.told⟩
  · exact orderly.slot left right held also grant revision slot
  · exact onward.recorded row there ⟨lease, result, state⟩

end

def sampleDigest : Text := List.replicate 64 97

def sampleRequest : StageRequest :=
  ⟨text "op", text "FREEZE_PROTOCOL_AND_SCOPE", text "handlers", text "request"⟩

def sampleLease : Text :=
  text "external-lease:" ++ List.replicate 8 97 ++ [45] ++ List.replicate 4 97 ++ [45, 52] ++
    List.replicate 3 97 ++ [45] ++ List.replicate 4 97 ++ [45] ++ List.replicate 12 97

def samplePublication : ExternalAgentTaskPublication where
  operationId := text "op"
  stageIndex := 0
  attemptRef := text "attempt"
  requestSha256 := sampleDigest
  grant := ⟨text "eliotr.project-client-grant.v1", text "grant", 1, text "project", text "ACTIVE",
    text "issuer", text "worker", text "service_token", [text "run"], 1000000⟩

def sampleActor : ExternalAgentTaskActor := ⟨samplePublication.grant, text "worker", text "generation"⟩

def sampleResult : ExternalAgentResultInput where
  taskId := taskId sampleDigest
  leaseId := sampleLease
  idempotencyKey := text "key"
  semantic := ⟨.failed, none, [], [text "d"], ⟨.unknown, none, none, none⟩⟩

def sampleTools : Tools where
  parseRequest json := if json = text "request" then some sampleRequest else none
  textDigest _ := sampleDigest
  isoString _ := text "t"
  refSchema _ := true
  parseProgress _ := none
  parseResult _ := some ⟨(samplePublication.identity 0).toExternalAgentProgressIdentity, sampleLease,
    text "key", sampleResult.semantic, 14⟩

def sampleBinding : Binding := ⟨text "request", true, 1000000, .active, 0, 1000000, true, true, true⟩

def sampleEnv : Env sampleTools where
  join identity := if identity.operationId = text "op" ∧ identity.stage = sampleRequest.stage ∧
    identity.requestSha256 = sampleDigest then some sampleBinding else none
  fits identity binding joined := by
    obtain ⟨⟨operation, stage, digest⟩, same⟩ := Option.ite_none_right_eq_some.mp joined
    cases Option.some.inj same
    simp [requestFits, sampleTools, sampleBinding, sampleRequest, operation, stage, digest]

def sampleChoice : Choice := ⟨1, .none, true, sampleLease.drop 15, true, none⟩

def acts (number count : Nat) : List (Service.Label Choice (Request sampleTools)) :=
  List.replicate count (.act number sampleChoice)

def sampleStart : Service.Config (World sampleTools) Choice Failure :=
  Service.boot (World.start sampleEnv 0)
def sampleEarlier : List (Service.Label Choice (Request sampleTools)) :=
  [.accept (.publish samplePublication)] ++ acts 0 4 ++ [.accept (.pull sampleActor (text "s"))] ++
    acts 1 8 ++ [.accept (.result sampleActor sampleResult)] ++ acts 2 4

theorem sample_delivery : ∃ before after last,
    (service sampleTools).run sampleStart sampleEarlier = some before ∧
      (service sampleTools).step before (.act 2 sampleChoice) = some after ∧
      (service sampleTools).run after (acts 2 3) = some last ∧
      (∀ row ∈ before.state.tasks.rows, ∃ lease, row.state = .leased lease) ∧
      last.state.returned.length = 1 ∧
      (∀ row ∈ after.state.tasks, ∀ lease result, row.state = .recorded lease result →
        row ∈ last.state.tasks) ∧
      ∀ old ∈ before.state.tasks, ∀ new ∈ after.state.tasks, new.taskId = old.taskId →
        LeaseStep old new after.state.clock := by
  have played : (((service sampleTools).run sampleStart sampleEarlier).bind fun before =>
      ((service sampleTools).step before (.act 2 sampleChoice)).bind fun after =>
        ((service sampleTools).run after (acts 2 3)).map fun last =>
          (before.state.tasks.rows.all fun row => row.state.leasedBy.isSome, last.state.returned.length)) =
      some (true, 1) := by decide +kernel
  obtain ⟨before, ran, played⟩ := Option.bind_eq_some_iff.mp played
  obtain ⟨after, taken, played⟩ := Option.bind_eq_some_iff.mp played
  obtain ⟨last, rest, told⟩ := Option.map_eq_some_iff.mp played
  obtain ⟨leased, returned⟩ := Prod.mk.inj told
  obtain ⟨leases, -, -, -, kept, -⟩ := delivery_exclusive ran taken rest
  refine ⟨before, after, last, ran, taken, rest, fun row there => ?_, returned,
    fun row there => (kept row there).2, leases⟩
  have held := all_eq_true.mp leased row there
  cases state : row.state <;> simp_all [TaskState.leasedBy]

end Delivery
