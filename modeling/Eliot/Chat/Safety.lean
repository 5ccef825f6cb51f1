import Eliot.Chat.Running

namespace Chat
open Relational Async List

variable {name : Text}

theorem admitted_runs {me : Nat} {job : Job} {world : World} (durable : Durable world)
    (admitted : admits world job = true) :
    Crew me job [] world ∧ (discipline name).Runs me job (body name job) [] world world := by
  have alone : job.isRun = false → Crew me job [] world := fun call =>
    ⟨fun run => (Bool.eq_false_iff.mp call run).elim, (fun _ member => by cases member), Nat.zero_le 1⟩
  cases job with
  | onStart =>
    have booting : world.started = false := by simpa [admits] using admitted
    exact ⟨alone rfl, onStart_runs durable (durable.booting booting) booting⟩
  | submitTurn input wait =>
    exact ⟨alone rfl, submitTurn_runs ⟨durable, fun _ _ => .refl _ _, admitted, trivial⟩⟩
  | stopTurn projectId turnId =>
    exact ⟨alone rfl, Quiet.runs (Quiet.stopTurn projectId turnId) durable ⟨admitted, trivial⟩⟩
  | getTurnPage projectId =>
    exact ⟨alone rfl, Quiet.runs (Quiet.getTurnPage projectId) durable ⟨admitted, trivial⟩⟩
  | getStoredTurn projectId turnId =>
    have quiet : Quiet name (body name (.getStoredTurn projectId turnId)) :=
      Quiet.bind (Quiet.getStoredTurn projectId turnId) fun _ => Quiet.done _
    exact ⟨alone rfl, Quiet.runs quiet durable ⟨admitted, trivial⟩⟩
  | runTurn input | advanceQueue t => cases admitted

theorem discipline_lawful (name : Text) : (discipline name).Lawful where
  evolve_refl := .refl
  evolve_trans := .trans
  rely_refl := .refl
  rely_trans := .trans
  inv_durable := id
  compatible apart _ owed := owed _ apart.symm
  ready_holds := ready_holds
  ready_stable _ sees ready := ready_stable sees.2 ready
  holds_stable _ sees holds := holds_stable sees.1 sees.2 holds
  crew_alone := by
    intro me job world holds
    refine ⟨fun run => ?_, (fun _ member => by cases member), Nat.zero_le 1⟩
    cases job <;> first | exact holds.2.1 | cases run
  correct := by
    intro me job world durable ready
    cases job <;> first | exact ready.2.elim | skip
    exact runTurn_runs ⟨durable, fun _ _ => .refl _ _, ready_holds ready⟩ ready
  entry durable admitted _ := admitted_runs durable admitted
  restart := by
    rintro keep ⟨⟩ world durable
    exact ⟨restart_evolves world, restart_durable durable⟩

abbrev Reached (name : Text) (allowed : World → World → Prop)
    (config : Config World Choice Job Failure) : Prop :=
  (object name).Reachable allowed (fun world => world = World.new) config

theorem new_durable : Durable World.new where
  keyed found := by cases found
  slot active := by cases active
  vacant _ := rfl
  busy busy := by cases busy
  booting _ := rfl
  waiting busy := by cases busy
  asked waits := by cases waits
  handoff waits := by cases waits
  zombie found := by cases found
  receipt found := by cases found
  once := nodup_nil
  dispatched member := by cases member
  settled member := by cases member
  accepted member := by cases member

variable {config : Config World Choice Job Failure}

theorem reached_sound {allowed : World → World → Prop}
    (reached : Reached name allowed config) : (discipline name).Sound config := by
  refine (discipline_lawful name).reachable_sound ?_ reached
  rintro _ rfl
  exact new_durable

theorem alone_of_same {tasks : List (Nat × Job)} (distinct : (tasks.map Prod.fst).Nodup)
    (same : ∀ first ∈ tasks, ∀ second ∈ tasks, first.1 = second.1) : tasks.length ≤ 1 := by
  cases tasks with
  | nil => exact Nat.zero_le 1
  | cons first rest =>
    cases rest with
    | nil => exact Nat.le_refl 1
    | cons second rest =>
      have equal := same first (by simp) second (by simp)
      simp [equal] at distinct

section
variable {config : Config World Choice Job Failure}

theorem parked_run {world : World} {task : Task World Choice Job Failure}
    (parked : (discipline name).Parked task world) (run : task.job.isRun = true) :
    world.current = some task.id := by
  have holds : Holds task.id task.job world := parked.1
  cases job : task.job with
  | runTurn input =>
    rw [job] at holds
    exact holds.2.1
  | _ => simp [job, Job.isRun] at run

theorem at_most_one_run (sound : (discipline name).Sound config) :
    (config.live.filter (·.2.isRun)).length ≤ 1 := by
  have distinct : ((config.live.filter (·.2.isRun)).map Prod.fst).Nodup :=
    sound.orderly.1.sublist (filter_sublist.map _)
  have parts := sound.segment
  cases running : config.running with
  | none =>
    simp only [running] at parts
    apply alone_of_same distinct
    have current : ∀ task ∈ config.live.filter (·.2.isRun),
        config.state.current = some task.1 := by
      intro task member
      obtain ⟨member, run⟩ := mem_filter.mp member
      simp only [Config.live, running, append_nil, mem_map] at member
      obtain ⟨waiting, here, rfl⟩ := member
      exact parked_run (parts.2 waiting here) run
    intro first member second member'
    exact Option.some.inj ((current first member).symm.trans (current second member'))
  | some segment =>
    simp only [running] at parts
    obtain ⟨start, _, _, crew, parked, _⟩ := parts
    by_cases starts : ∃ task ∈ segment.spawned, task.2.isRun = true
    · -- The segment starts a run, so neither it nor a parked task is one.
      obtain ⟨task, member, run⟩ := starts
      obtain ⟨call, only⟩ := crew.alone task member run
      have unparked : ∀ waiting ∈ config.tasks, waiting.job.isRun = false := by
        intro waiting present
        rw [Bool.eq_false_iff]
        intro runs
        have mine := only _ (parked_run (parked waiting present) runs)
        have apart := sound.orderly.1
        simp only [Config.ids_eq, running] at apart
        exact (nodup_append.mp apart).2.2 _ (mem_map_of_mem present) _
          mem_cons_self mine
      have none : (config.tasks.map fun task => (task.id, task.job)).filter (·.2.isRun) = [] := by
        rw [filter_eq_nil_iff]
        intro task present
        obtain ⟨waiting, here, rfl⟩ := mem_map.mp present
        simp [unparked waiting here]
      simp only [Config.live, running, filter_append, none, nil_append, filter_cons,
        call, Bool.false_eq_true, if_false]
      exact crew.single
    · apply alone_of_same distinct
      have current : ∀ task ∈ config.live.filter (·.2.isRun), start.current = some task.1 := by
        intro task member
        obtain ⟨member, run⟩ := mem_filter.mp member
        simp only [Config.live, running, mem_append, mem_map, mem_cons] at member
        rcases member with ⟨waiting, here, rfl⟩ | rfl | member
        · exact parked_run (parked waiting here) run
        · exact crew.own run
        · exact absurd ⟨task, member, run⟩ starts
      intro first member second member'
      exact Option.some.inj ((current first member).symm.trans (current second member'))

end

def asked (turnId question : String) : RunTurnInput where
  projectId := text "p"
  chatId := text "c"
  turnId := text turnId
  question := text question
  scopeMode := .empty
  sourceIds := none
  model := none

def answering : Choice :=
  { chatProject := some (text "p"), settings := some (text "m"),
    model := .ok ⟨text "r", .ok (some 10)⟩ }

def refusing : Choice := { answering with reply := .refused }

def called (job : Job) : List (Move Choice Job) := [⟨.call job, answering⟩]

def answered (task : Nat) (reply segment : Choice) : List (Move Choice Job) :=
  [⟨.deliver task reply, segment⟩, ⟨.resume task, segment⟩]

def answeredTimes (task : Nat) : Nat → List (Move Choice Job)
  | 0 => []
  | count + 1 => answered task answering answering ++ answeredTimes task count

def accepting (input : RunTurnInput) : List (Move Choice Job) :=
  called .onStart ++ called (.submitTurn input false) ++ answeredTimes 1 2 ++
    ⟨.resume 2, answering⟩ :: answeredTimes 2 1

def dispatching : Choice :=
  { answering with
    context := .ok ⟨[], .none, []⟩
    stream := ⟨[.chunk (text "So.") true 5], .ok ⟨some 3, some 0, some 1⟩, .ok (text "So."), [],
      .ok .stop⟩ }

def runs (meets : World → World → Bool) (moves : List (Move Choice Job))
    (good : Config World Choice Job Failure → Bool) : Bool :=
  ((object (text "c")).play meets 300 moves (System.boot World.new)).any good

theorem runs_shows {meets : World → World → Bool} {allowed : World → World → Prop}
    (sound : ∀ {before after}, meets before after = true → allowed before after)
    {moves : List (Move Choice Job)} {good : Config World Choice Job Failure → Bool}
    (shown : runs meets moves good = true) :
    ∃ config, Reached (text "c") allowed config ∧ good config = true := by
  apply System.play_shows sound _ shown
  rfl

/-- The answer "b" is left unsettled. While two readers settle it again, "a" starts and a third
    reader waits; "q" is queued behind "a", whose end fails to be saved. -/
def releasing : List (Move Choice Job) :=
  accepting (asked "b" "How?") ++ answeredTimes 2 8 ++ answered 2 refusing answering ++
    answeredTimes 2 4 ++ called (.getTurnPage (text "p")) ++ called (.getTurnPage (text "p")) ++
    answeredTimes 3 1 ++ answeredTimes 4 1 ++ [⟨.deliver 4 answering, answering⟩] ++
    answeredTimes 3 4 ++ called (.submitTurn (asked "a" "Why?") false) ++ answeredTimes 5 2 ++
    [⟨.resume 6, answering⟩] ++ answeredTimes 6 1 ++ [⟨.resume 4, answering⟩] ++
    called (.getTurnPage (text "p")) ++ answeredTimes 7 1 ++
    called (.submitTurn (asked "q" "When?") false) ++ answeredTimes 8 4 ++
    answered 6 refusing answering ++ answeredTimes 6 2 ++
    answered 6 answering { answering with fails := true } ++ answeredTimes 7 2

/-- Runs of the object, played out: each of them goes as its last part says. -/
theorem sample_runs :
    runs (fun _ _ => true) (accepting (asked "a" "Why?") ++
      (List.replicate 9 (answered 2 dispatching dispatching)).flatten)
      (fun config => config.state.history.dispatched == [text "a"]) = true ∧
    runs (fun before after => after.history.lost == before.history.lost)
      (accepting (asked "a" "Why?") ++ answered 2 refusing answering ++ answeredTimes 2 3)
      (fun config => config.state.agent.active.isNone &&
        (config.state.turn (text "a")).isSome) = true ∧
    runs (fun _ _ => true)
      (accepting (asked "a" "Why?") ++ answered 2 refusing { answering with fails := true } ++
        answeredTimes 2 1)
      (fun config => config.live == [] && config.state.agent.active == none &&
        (config.state.turn (text "a")).any fun turn =>
          turn.state == .started && turn.settlementPending == false) = true ∧
    runs (fun before after => after.history.released == before.history.released &&
        after.history.mismatched == before.history.mismatched)
      (accepting (asked "a" "Why?") ++ called (.submitTurn (asked "b" "How?") false) ++
        answeredTimes 3 2)
      (fun config => config.state.history.accepted.contains (asked "b" "How?")) = true ∧
    runs (fun _ _ => true) releasing (fun config =>
      config.state.history.accepted.contains (asked "q" "When?") &&
        (config.state.turn (text "q")).isNone && config.state.agent.queued.isNone &&
        config.state.history.removed.isEmpty) = true ∧
    runs (fun _ _ => true) (accepting (asked "b" "How?") ++ answeredTimes 2 9)
      (fun config => config.state.history.settled.isEmpty && ((object (text "c")).run config
        [.deliver 2 answering, .resume 2, .act answering]).any
          fun later => !later.state.history.settled.isEmpty) = true := by
  decide +kernel

/-- The model is asked at most once for every turn, at most one run is live at any moment, and
    a stored turn that no run works on, as every one after a restart, is never sent again. -/
theorem model_dispatched_at_most_once {config : Config World Choice Job Failure}
    (reached : Reached name (fun _ _ => True) config) :
    config.state.history.dispatched.Nodup ∧
      (config.live.filter (·.2.isRun)).length ≤ 1 ∧
      ∀ t, (config.state.turn t).isSome → ∀ labels later,
        (config.state.agent.active ≠ some t ∨ config.state.current = none) ∧
            (object name).run config labels = some later ∨
          (object name).run config (.crash :: labels) = some later →
        later.state.history.dispatched.count t = config.state.history.dispatched.count t := by
  have sound := reached_sound reached
  refine ⟨sound.durable.once, at_most_one_run sound, ?_⟩
  intro t stored labels later ran
  rcases ran with ⟨apart, ran⟩ | ran
  · have idle : config.state.Idle t := by
      refine ⟨stored, fun ⟨active, busy⟩ => ?_⟩
      rcases apart with other | free
      · exact other active
      · rw [free] at busy
        cases busy
    obtain ⟨_, evolves⟩ := (discipline_lawful name).run_sound sound ran
    exact (Evolves.idle evolves idle).2
  · -- A restart forgets the run, whatever it had stored.
    obtain ⟨restarted, taken, rest⟩ := Option.bind_eq_some_iff.mp ran
    cases taken
    have idle : config.state.restarted.Idle t := ⟨stored, fun busy => by cases busy.2⟩
    have resumed := (discipline_lawful name).step_sound (.crash : Label Choice Job) rfl sound
    obtain ⟨_, evolves⟩ := (discipline_lawful name).run_sound resumed.1 rest
    exact (Evolves.idle evolves idle).2

theorem model_dispatched_at_most_once_asked : ∃ config,
    Reached (text "c") (fun _ _ => True) config ∧
      config.state.history.dispatched = [text "a"] ∧ config.state.history.dispatched.Nodup := by
  obtain ⟨shown, -⟩ := sample_runs
  obtain ⟨config, reached, sent⟩ := runs_shows (fun _ => trivial) shown
  exact ⟨config, reached, beq_iff_eq.mp sent, (model_dispatched_at_most_once reached).1⟩

def ResultKept (before after : World) : Prop := after.history.lost = before.history.lost

theorem nothing_lost
    (reached : Reached name ResultKept config) : config.state.history.lost = [] := by
  induction reached with
  | boot new => rw [new]; rfl
  | step label reached taken kept ih => exact kept.trans ih

/-- While no result is lost, a stored turn that has left the active slot is terminal or still
    pending. -/
theorem no_zombie_turn {config : Config World Choice Job Failure}
    (reached : Reached name ResultKept config) {t : Text} {turn : TurnView}
    (left : config.state.agent.active ≠ some t) (found : config.state.turn t = some turn) :
    ¬(turn.state = .started ∧ turn.settlementPending = false) := by
  intro zombie
  rcases (reached_sound reached).durable.zombie found zombie with active | lost
  · exact left active
  · rw [nothing_lost reached] at lost
    cases lost

theorem no_zombie_turn_failed : ∃ config turn, Reached (text "c") ResultKept config ∧
    config.state.turn (text "a") = some turn ∧
      ¬(turn.state = .started ∧ turn.settlementPending = false) := by
  obtain ⟨-, shown, -⟩ := sample_runs
  obtain ⟨config, reached, good⟩ := runs_shows (fun {before after} (kept : (after.history.lost == before.history.lost) = true) =>
    (beq_iff_eq.mp kept : ResultKept before after)) shown
  rw [Bool.and_eq_true, Option.isNone_iff_eq_none] at good
  obtain ⟨turn, found⟩ := Option.isSome_iff_exists.mp good.2
  have left : config.state.agent.active ≠ some (text "a") := by
    rw [good.1]
    simp
  exact ⟨config, turn, reached, found, no_zombie_turn reached left found⟩

/-- The settings cannot be read and then the result cannot be written: the turn has left the
    slot for good and is neither terminal nor pending. -/
theorem zombie_turn : ∃ config turn, Reached (text "c") (fun _ _ => True) config ∧
    config.live = [] ∧ config.state.agent.active = none ∧
      config.state.turn (text "a") = some turn ∧
      turn.state = .started ∧ turn.settlementPending = false := by
  obtain ⟨-, -, shown, -⟩ := sample_runs
  obtain ⟨config, reached, good⟩ := runs_shows (fun _ => trivial) shown
  simp only [Bool.and_eq_true, beq_iff_eq, Option.any_eq_true] at good
  obtain ⟨⟨idle, left⟩, turn, found, started, settled⟩ := good
  exact ⟨config, turn, reached, idle, left, found, started, settled⟩

/-- No slot is emptied over a waiting question that is not stored, and no repeat of the active
    turn that asks something else is accepted for it. -/
def QuestionsKept (before after : World) : Prop :=
  after.history.released = before.history.released ∧
    after.history.mismatched = before.history.mismatched

theorem questions_checked {before after : World}
    (kept : (after.history.released == before.history.released &&
      after.history.mismatched == before.history.mismatched) = true) :
    QuestionsKept before after := by
  simpa [QuestionsKept] using kept

theorem nothing_dropped
    (reached : Reached name QuestionsKept config) :
    config.state.history.released = [] ∧ config.state.history.mismatched = [] := by
  induction reached with
  | boot new => rw [new]; exact ⟨rfl, rfl⟩
  | step label reached taken kept ih => exact ⟨kept.1.trans ih.1, kept.2.trans ih.2⟩

/-- An accepted question stays on record as accepted, and while questions are kept it is stored
    under its turn or queued, unless its owner removed it. -/
theorem accepted_question_kept {config : Config World Choice Job Failure}
    (reached : Reached name QuestionsKept config) {input : RunTurnInput}
    (accepted : input ∈ config.state.history.accepted) :
    (∀ labels later, (object name).run config labels = some later →
        input ∈ later.state.history.accepted) ∧
      (config.state.Kept input ∨ input.turnId ∈ config.state.history.removed) := by
  have sound := reached_sound reached
  constructor
  · intro labels later ran
    obtain ⟨_, evolves⟩ := (discipline_lawful name).run_sound sound ran
    exact Evolves.accepted evolves accepted
  · obtain ⟨released, mismatched⟩ := nothing_dropped reached
    rcases sound.durable.accepted accepted with kept | removed | other | ⟨question, gone, _⟩
    · exact .inl kept
    · exact .inr removed
    · rw [mismatched] at other
      cases other
    · rw [released] at gone
      cases gone

theorem accepted_question_kept_queued : ∃ config, Reached (text "c") QuestionsKept config ∧
    (config.state.Kept (asked "b" "How?") ∨
      (asked "b" "How?").turnId ∈ config.state.history.removed) := by
  obtain ⟨-, -, -, shown, -⟩ := sample_runs
  obtain ⟨config, reached, accepted⟩ := runs_shows questions_checked shown
  rw [contains_iff_mem] at accepted
  exact ⟨config, reached, (accepted_question_kept reached accepted).2⟩

/-- A reader that began under another active turn empties the slot over the accepted question. -/
theorem accepted_question_lost : ∃ config input, Reached (text "c") (fun _ _ => True) config ∧
    input ∈ config.state.history.accepted ∧ config.state.turn input.turnId = none ∧
      config.state.agent.queued = none ∧ config.state.history.removed = [] := by
  obtain ⟨-, -, -, -, shown, -⟩ := sample_runs
  obtain ⟨config, reached, good⟩ := runs_shows (fun _ => trivial) shown
  simp only [Bool.and_eq_true, contains_iff_mem, Option.isNone_iff_eq_none,
    List.isEmpty_iff] at good
  obtain ⟨⟨⟨accepted, absent⟩, unqueued⟩, kept⟩ := good
  exact ⟨config, asked "q" "When?", reached, accepted, absent, unqueued, kept⟩

/-- Over any run a pending turn is cleared only together with a settlement that the last read
    row confirms, and the row still is what was read; a terminal row never changes; and no known
    usage of a row or of a stored turn becomes unknown. -/
theorem settlement_agrees {config later : Config World Choice Job Failure}
    {labels : List (Label Choice Job)} (reached : Reached name (fun _ _ => True) config)
    (ran : (object name).run config labels = some later) :
    (∃ new, later.state.history.settled = new ++ config.state.history.settled ∧
      (∀ t turn last, config.state.turn t = some turn → turn.settlementPending = true →
        later.state.turn t = some last → last.settlementPending = false →
        ∃ settlement ∈ new, settlement.turn.turnId = t) ∧
      ∀ settlement ∈ new, confirmed settlement.turn settlement.row = true ∧
        later.state.row settlement.turn.turnId = settlement.row) ∧
    (∀ t row, config.state.row t = some row → ∃ last, later.state.row t = some last ∧
      (row.receipt.state.terminal = true → last = row) ∧
      row.receipt.usage.Keeps last.receipt.usage) ∧
    ∀ t turn, config.state.turn t = some turn → ∃ last, later.state.turn t = some last ∧
      turn.usage.Keeps last.usage := by
  obtain ⟨sound, evolves⟩ := (discipline_lawful name).run_sound (reached_sound reached) ran
  refine ⟨?_, fun t row found => Evolves.rows evolves found, ?_⟩
  · obtain ⟨new, grown, clears⟩ := Evolves.settled evolves
    refine ⟨new, grown, fun t turn last => clears, fun settlement member => ?_⟩
    obtain ⟨matched, _, row, _⟩ :=
      sound.durable.settled (grown ▸ mem_append_left _ member)
    exact ⟨matched, row⟩
  · intro t turn found
    obtain ⟨last, stored, _, keeps⟩ := Evolves.turns evolves found
    exact ⟨last, stored, keeps⟩

theorem settlement_agrees_settled : ∃ config later : Config World Choice Job Failure,
    Reached (text "c") (fun _ _ => True) config ∧ config.state.history.settled = [] ∧
      later.state.history.settled ≠ [] ∧
      ∀ settlement ∈ later.state.history.settled,
        confirmed settlement.turn settlement.row = true ∧
          later.state.row settlement.turn.turnId = settlement.row := by
  obtain ⟨-, -, -, -, -, shown⟩ := sample_runs
  obtain ⟨config, reached, good⟩ := runs_shows (fun _ => trivial) shown
  simp only [Bool.and_eq_true, List.isEmpty_iff, Option.any_eq_true, Bool.not_eq_true',
    isEmpty_eq_false_iff] at good
  obtain ⟨none, later, ran, settled⟩ := good
  obtain ⟨new, grown, _, confirmed⟩ := (settlement_agrees reached ran).1
  rw [none, append_nil] at grown
  exact ⟨config, later, reached, none, settled, grown ▸ confirmed⟩

end Chat
