import Eliot.Async.RelyGuarantee
import Mathlib.Data.List.Nodup
import Mathlib.Data.List.Perm.Basic

namespace Async

open List Config

variable {State Choice Job Error : Type}

/-- Task identities that are all different and were all given out before `next`. -/
def Orderly (ids : List Nat) (next : Nat) : Prop := ids.Nodup ∧ ∀ id ∈ ids, id < next

namespace Orderly

variable {ids : List Nat} {next : Nat}

theorem push (orderly : Orderly ids next) : Orderly (ids ++ [next]) (next + 1) := by
  refine ⟨?_, ?_⟩
  · rw [nodup_append]
    refine ⟨orderly.1, nodup_singleton _, ?_⟩
    intro id member other same
    have below := orderly.2 id member
    rw [mem_singleton] at same
    omega
  · intro id member
    rcases mem_append.mp member with member | member
    · exact Nat.lt_succ_of_lt (orderly.2 id member)
    · rw [mem_singleton.mp member]
      exact Nat.lt_succ_self _

theorem sublist {fewer : List Nat} (orderly : Orderly ids next) (sub : fewer.Sublist ids) :
    Orderly fewer next :=
  ⟨orderly.1.sublist sub, fun id member => orderly.2 id (sub.subset member)⟩

theorem perm {same : List Nat} (orderly : Orderly ids next) (perm : same.Perm ids) :
    Orderly same next :=
  ⟨perm.nodup_iff.mpr orderly.1, fun id member => orderly.2 id (perm.subset member)⟩

theorem front {id : Nat} (orderly : Orderly ids next) (member : id ∈ ids) :
    Orderly (id :: ids.filter (· != id)) next := by
  refine ⟨nodup_cons.mpr ⟨by simp, orderly.1.filter _⟩, ?_⟩
  intro other present
  rcases mem_cons.mp present with rfl | present
  · exact orderly.2 _ member
  · exact orderly.2 _ (mem_of_mem_filter present)

end Orderly

variable {config : Config State Choice Job Error}

namespace Config

theorem task_some {id : Nat}
    {task : Task State Choice Job Error} (h : config.task id = some task) :
    task ∈ config.tasks ∧ task.id = id :=
  ⟨mem_of_find?_eq_some h, by simpa using find?_some h⟩

theorem mem_others {id : Nat}
    {task : Task State Choice Job Error} :
    task ∈ config.others id ↔ task ∈ config.tasks ∧ task.id ≠ id := by
  simp [others]

theorem others_ids (config : Config State Choice Job Error) (id : Nat) :
    (config.others id).map Task.id = (config.tasks.map Task.id).filter (· != id) := by
  simp [others, filter_map, Function.comp_def]

@[simp] theorem fresh_id (system : System State Choice Job Error) :
    Task.id ∘ system.fresh = Prod.fst := rfl

def ids (config : Config State Choice Job Error) : List Nat := config.live.map Prod.fst

theorem ids_eq (config : Config State Choice Job Error) :
    config.ids = config.tasks.map Task.id ++
      match config.running with
      | none => []
      | some segment => segment.id :: segment.spawned.map Prod.fst := by
  unfold ids live
  cases config.running <;> simp [Function.comp_def]

end Config

variable {before after : Config State Choice Job Error}

namespace System

variable (system : System State Choice Job Error)

theorem boot_orderly (state : State) :
    Orderly (boot state : Config State Choice Job Error).ids 0 := by
  simp [boot, ids_eq, Orderly]

theorem advance_orderly (choice : Choice)
    {segment : Segment State Choice Job Error} (running : config.running = some segment)
    (orderly : Orderly config.ids config.next) :
    Orderly (system.advance choice config segment).ids
      (system.advance choice config segment).next := by
  simp only [ids_eq, running] at orderly
  obtain ⟨id, job, program, spawned⟩ := segment
  rw [ids_eq]
  cases program with
  | done result =>
    refine orderly.sublist ?_
    simp only [advance, map_append, map_map, fresh_id, append_nil]
    exact (sublist_cons_self _ _).append_left _
  | sync action next => exact orderly
  | await request next => simpa [advance] using orderly
  | spawn task next => simpa [advance] using orderly.push
  | become task next => exact orderly

theorem step_orderly (label : Label Choice Job)
    (taken : system.step before label = some after) (orderly : Orderly before.ids before.next) :
    Orderly after.ids after.next := by
  cases running : before.running with
  | some segment =>
    cases label with
    | act choice =>
      simp only [step, running, Option.some.injEq] at taken
      subst taken
      exact system.advance_orderly choice running orderly
    | crash =>
      cases kept : system.restart <;> simp only [step, kept, reduceCtorEq, Option.some.injEq] at taken
      subst taken
      simp [ids_eq, Orderly]
    | call job | deliver id choice | resume id => simp [step, running] at taken
  | none =>
    have waiting : Orderly (before.tasks.map Task.id) before.next := by
      simpa [ids_eq, running] using orderly
    cases label with
    | call job =>
      simp only [step, running] at taken
      split at taken
      · cases taken
        simpa [ids_eq] using waiting.push
      · cases taken
    | deliver id choice =>
      cases found : before.task id with
      | none => simp [step, running, found] at taken
      | some task =>
        obtain ⟨member, rfl⟩ := task_some found
        simp only [step, running, found, answer] at taken
        split at taken
        · cases taken
          simpa [ids_eq, running, others_ids] using
            waiting.front (mem_map_of_mem member)
        · cases taken
    | resume id =>
      cases found : before.task id with
      | none => simp [step, running, found] at taken
      | some task =>
        obtain ⟨member, rfl⟩ := task_some found
        simp only [step, running, found] at taken
        split at taken
        · cases taken
          have front := waiting.front (mem_map_of_mem (f := Task.id) member)
          simpa [ids_eq, others_ids] using front.perm (perm_append_singleton _ _)
        · cases taken
    | act choice => simp [step, running] at taken
    | crash =>
      cases kept : system.restart <;> simp only [step, kept, reduceCtorEq, Option.some.injEq] at taken
      subst taken
      simp [ids_eq, Orderly]

end System

namespace Discipline

variable {system : System State Choice Job Error} (d : Discipline system)

/-- Where a schedule can be: every suspended task is fit to go on and the task that holds
    the loop runs correctly from where its segment started. -/
structure Sound (config : Config State Choice Job Error) : Prop where
  durable : d.durable config.state
  orderly : Orderly config.ids config.next
  segment : match config.running with
    | none => d.inv config.state ∧ ∀ task ∈ config.tasks, d.Parked task config.state
    | some segment => ∃ start, d.inv start ∧ d.evolve start config.state ∧
        d.crew segment.id segment.job segment.spawned start ∧
        (∀ task ∈ config.tasks, d.Parked task start) ∧
        d.Runs segment.id segment.job segment.program segment.spawned start config.state

namespace Lawful

variable {d} (lawful : d.Lawful)
include lawful

theorem boot_sound {state : State} (inv : d.inv state) : d.Sound (System.boot state) :=
  ⟨lawful.inv_durable inv, System.boot_orderly state, inv, by simp [System.boot]⟩

theorem ended_parked {me : Nat} {spawned : List (Nat × Job)} {start now : State}
    {tasks : List (Task State Choice Job Error)} (evolves : d.evolve start now)
    (ends : d.Ends me spawned start now) (distinct : ∀ task ∈ tasks, task.id ≠ me)
    (parked : ∀ task ∈ tasks, d.Parked task start) :
    ∀ task ∈ tasks ++ spawned.map system.fresh, d.Parked task now := by
  obtain ⟨inv, owed, ready⟩ := ends
  intro task member
  rcases mem_append.mp member with member | member
  · have other := (distinct task member).symm
    exact lawful.parked_stable inv ⟨evolves, lawful.compatible other evolves owed⟩
      (parked task member)
  · obtain ⟨started, present, rfl⟩ := mem_map.mp member
    exact lawful.parked_fresh (ready started present)

theorem advance_sound (choice : Choice)
    {segment : Segment State Choice Job Error} (running : config.running = some segment)
    (sound : d.Sound config) : d.Sound (system.advance choice config segment) ∧
      d.evolve config.state (system.advance choice config segment).state := by
  have orderly := system.advance_orderly choice running sound.orderly
  have distinct : ∀ task ∈ config.tasks, task.id ≠ segment.id := by
    intro task member same
    have unique := sound.orderly.1
    simp only [ids_eq, running] at unique
    exact (nodup_append.mp unique).2.2 _ (mem_map_of_mem member) _
      mem_cons_self same
  have current := sound.segment
  simp only [running] at current
  obtain ⟨start, inv, evolves, crew, parked, runs⟩ := current
  obtain ⟨id, job, program, spawned⟩ := segment
  cases program with
  | done result =>
    have ends : d.Ends id spawned start config.state := runs
    exact ⟨⟨lawful.inv_durable ends.1, orderly, ends.1,
      lawful.ended_parked evolves ends distinct parked⟩, lawful.evolve_refl _⟩
  | sync action next =>
    obtain ⟨durable, moved, rest⟩ := runs choice
    exact ⟨⟨durable, orderly, start, inv, lawful.evolve_trans evolves moved, crew, parked, rest⟩,
      moved⟩
  | await request next =>
    obtain ⟨ends, holds, rest⟩ := runs
    refine ⟨⟨lawful.inv_durable ends.1, orderly, ends.1, ?_⟩, lawful.evolve_refl _⟩
    have others := lawful.ended_parked evolves ends distinct parked
    simp only [System.advance, mem_append, mem_cons] at others ⊢
    rintro task (member | rfl | member)
    · exact others task (.inl member)
    · exact ⟨holds, rest⟩
    · exact others task (.inr member)
  | spawn task next =>
    obtain ⟨grown, rest⟩ := runs config.next
    exact ⟨⟨sound.durable, orderly, start, inv, evolves, grown, parked, rest⟩,
      lawful.evolve_refl _⟩
  | become task next =>
    exact ⟨⟨sound.durable, orderly, start, inv, evolves, runs.1, parked, runs.2⟩,
      lawful.evolve_refl _⟩

theorem step_sound (label : Label Choice Job)
    (taken : system.step before label = some after)
    (sound : d.Sound before) : d.Sound after ∧ d.evolve before.state after.state := by
  have orderly := system.step_orderly label taken sound.orderly
  cases label with
  | act choice =>
    cases running : before.running with
    | none => simp [System.step, running] at taken
    | some segment =>
      simp only [System.step, running, Option.some.injEq] at taken
      subst taken
      exact lawful.advance_sound choice running sound
  | crash =>
    cases kept : system.restart with
    | none => simp [System.step, kept] at taken
    | some keep =>
      simp only [System.step, kept, Option.some.injEq] at taken
      subst taken
      obtain ⟨evolves, inv⟩ := lawful.restart kept sound.durable
      exact ⟨⟨lawful.inv_durable inv, orderly, inv, by simp⟩, evolves⟩
  | call job =>
    cases running : before.running with
    | some _ => simp [System.step, running] at taken
    | none =>
      obtain ⟨inv, parked⟩ : d.inv before.state ∧ ∀ task ∈ before.tasks, d.Parked task before.state := by
        simpa [running] using sound.segment
      simp only [System.step, running] at taken
      split at taken
      · rename_i admitted
        cases taken
        obtain ⟨crew, runs⟩ := lawful.entry inv admitted before.next
        exact ⟨⟨sound.durable, orderly, before.state, inv, lawful.evolve_refl _, crew, parked,
          runs⟩, lawful.evolve_refl _⟩
      · cases taken
  | deliver id choice =>
    cases running : before.running with
    | some _ => simp [System.step, running] at taken
    | none =>
      obtain ⟨inv, parked⟩ : d.inv before.state ∧ ∀ task ∈ before.tasks, d.Parked task before.state := by
        simpa [running] using sound.segment
      cases found : before.task id with
      | none => simp [System.step, running, found] at taken
      | some task =>
        obtain ⟨member, rfl⟩ := task_some found
        simp only [System.step, running, found, System.answer] at taken
        split at taken
        · rename_i waiting asked
          cases taken
          have own := parked task member
          simp only [Discipline.Parked, waiting, asked] at own
          obtain ⟨evolves, kept, owed, holds, rest⟩ :=
            own.2 before.state inv (lawful.sees_refl _ _) choice
          refine ⟨⟨lawful.inv_durable kept, orderly, ?_⟩, evolves⟩
          refine ⟨kept, fun other present => ?_⟩
          rcases mem_cons.mp present with rfl | present
          · exact ⟨holds, rest⟩
          · obtain ⟨present, distinct⟩ := mem_others.mp present
            exact lawful.parked_stable kept
              ⟨evolves, lawful.compatible distinct.symm evolves owed⟩ (parked other present)
        · cases taken
  | resume id =>
    cases running : before.running with
    | some _ => simp [System.step, running] at taken
    | none =>
      obtain ⟨inv, parked⟩ : d.inv before.state ∧ ∀ task ∈ before.tasks, d.Parked task before.state := by
        simpa [running] using sound.segment
      cases found : before.task id with
      | none => simp [System.step, running, found] at taken
      | some task =>
        obtain ⟨member, rfl⟩ := task_some found
        simp only [System.step, running, found] at taken
        split at taken
        · rename_i answered
          cases taken
          have own := parked task member
          simp only [Discipline.Parked, answered] at own
          refine ⟨⟨sound.durable, orderly, before.state, inv, lawful.evolve_refl _,
            lawful.crew_alone own.1, ?_, own.2 _ inv (lawful.sees_refl _ _)⟩, lawful.evolve_refl _⟩
          exact fun other present => parked other (mem_others.mp present).1
        · cases taken

theorem reachable_sound {allowed : State → State → Prop} {initial : State → Prop}
    (start : ∀ state, initial state → d.inv state)
    (reached : system.Reachable allowed initial config) : d.Sound config := by
  induction reached with
  | boot initial => exact lawful.boot_sound (start _ initial)
  | step label reached taken meets sound => exact (lawful.step_sound label taken sound).1

theorem run_sound {labels : List (Label Choice Job)}
    (sound : d.Sound before) (ran : system.run before labels = some after) :
    d.Sound after ∧ d.evolve before.state after.state := by
  induction labels generalizing before with
  | nil =>
    cases ran
    exact ⟨sound, lawful.evolve_refl _⟩
  | cons label labels ih =>
    obtain ⟨middle, taken, rest⟩ := Option.bind_eq_some_iff.mp ran
    obtain ⟨sound, first⟩ := lawful.step_sound label taken sound
    obtain ⟨sound, second⟩ := ih sound rest
    exact ⟨sound, lawful.evolve_trans first second⟩

end Lawful

end Discipline

end Async
