import Eliot.Library.Writes

namespace Library
open Relational Async Pact

variable {α β : Type} {pact : Pact World} {number : Nat} {pre : World → Prop}

theorem fair_refl (lawful : pact.Lawful) {world : World} (inv : pact.inv world) :
    pact.Fair number world world :=
  ⟨inv, lawful.evolve_refl world, fun other _ => lawful.rely_refl other world, lawful.stays world⟩

theorem stable_true : pact.Stable number fun _ => True := fun _ _ _ _ => trivial

theorem stable_and {first second : World → Prop} (left : pact.Stable number first)
    (right : pact.Stable number second) :
    pact.Stable number fun world => first world ∧ second world :=
  fun before after sees known => ⟨left before after sees known.1, right before after sees known.2⟩

theorem does_reply (lawful : pact.Lawful) {effect : Choice → World → Option (α × World)}
    {post : Except Failure α → World → Prop} (stable : pact.Stable number pre)
    (refused : ∀ world, pact.inv world → pre world → post (.error .other) world)
    (each : ∀ world, pact.inv world → pre world → ∀ choice value after,
      effect choice world = some (value, after) →
      pact.Fair number world after ∧ post (.ok value) after ∧ post (.error .other) after) :
    pact.Does number pre (call effect) post := by
  apply Does.request stable
  intro world inv holds choice
  cases reply : choice.reply <;> cases done : effect choice world with
  | none => exact ⟨fair_refl lawful inv, refused world inv holds⟩
  | some result =>
    obtain ⟨fair, answered, lost⟩ := each world inv holds choice _ _ done
    first
    | exact ⟨fair, answered⟩
    | exact ⟨fair, lost⟩
    | exact ⟨fair_refl lawful inv, refused world inv holds⟩

variable {known : α → World → Prop}

theorem does_call (lawful : pact.Lawful) {effect : Choice → World → Option (α × World)}
    (stable : pact.Stable number pre)
    (each : ∀ world, pact.inv world → pre world → ∀ choice value after,
      effect choice world = some (value, after) → pact.Fair number world after ∧ known value after) :
    pact.Does number pre (call effect) (Given known) := by
  apply does_reply lawful stable
  · exact fun _ _ _ => trivial
  · intro world inv holds choice value after done
    obtain ⟨fair, learnt⟩ := each world inv holds choice value after done
    exact ⟨fair, learnt, trivial⟩

theorem does_query (lawful : pact.Lawful) {read : Db → α}
    (stable : pact.Stable number pre)
    (learn : ∀ world, pact.inv world → pre world → known (read world.db) world) :
    pact.Does number pre (query read) (Given known) := by
  apply does_call lawful stable
  intro world inv holds choice value after done
  cases done
  exact ⟨fair_refl lawful inv, learn world inv holds⟩

theorem does_get (lawful : pact.Lawful) {key : Key} {known : Option Object → World → Prop}
    (stable : pact.Stable number pre)
    (learn : ∀ world, pact.inv world → pre world → known (world.bucket.find key) world) :
    pact.Does number pre (get key) (Given known) := by
  apply does_call lawful stable
  intro world inv holds choice value after done
  cases done
  exact ⟨fair_refl lawful inv, learn world inv holds⟩

theorem does_d1 (lawful : pact.Lawful) {statement : Statement α}
    (stable : pact.Stable number pre)
    (each : ∀ world, pact.inv world → pre world → ∀ value db, statement world.db = some (value, db) →
      pact.Fair number world { world with db } ∧ known value { world with db }) :
    pact.Does number pre (d1 statement) (Given known) := by
  apply does_call lawful stable
  intro world inv holds choice value after done
  obtain ⟨⟨_, db⟩, ran, same⟩ := Option.map_eq_some_iff.mp done
  cases same
  exact each world inv holds value db ran

theorem does_execute (lawful : pact.Lawful) {statement : Db → α × Db}
    (stable : pact.Stable number pre)
    (each : ∀ world, pact.inv world → pre world →
      pact.Fair number world { world with db := (statement world.db).2 } ∧
        known (statement world.db).1 { world with db := (statement world.db).2 }) :
    pact.Does number pre (execute statement) (Given known) := by
  apply does_d1 lawful stable
  intro world inv holds value db ran
  obtain ⟨rfl, rfl⟩ := Prod.mk.injEq _ _ _ _ ▸ Option.some.inj ran
  exact each world inv holds

theorem does_ask (lawful : pact.Lawful) {answer : Choice → Except Failure α}
    (stable : pact.Stable number pre) : pact.Does number pre (ask answer) (Given fun _ => pre) := by
  apply Does.request stable
  intro world inv holds choice
  refine ⟨fair_refl lawful inv, ?_⟩
  cases answer choice with
  | ok value => exact holds
  | error failure => exact trivial

theorem does_now (lawful : pact.Lawful) (stable : pact.Stable number pre) :
    pact.Does number pre now (Given fun _ => pre) :=
  Does.act stable fun _ inv holds _ => ⟨fair_refl lawful inv, holds⟩

theorem does_note {change : History → History} (stable : pact.Stable number pre)
    (each : ∀ world, pact.inv world → pre world →
      pact.Fair number world { world with history := change world.history }) :
    pact.Does number pre (note change) fun _ _ => True :=
  Does.act stable fun world inv holds _ => ⟨each world inv holds, trivial⟩

theorem does_fail {message : String} :
    pact.Does number pre (fail message) (Given known) := Does.throws

theorem does_ofExcept {result : Except Failure α} {rest : α → Task β} {later : β → World → Prop}
    (holds : ∀ value, result = .ok value → pact.Does number pre (rest value) (Given later)) :
    pact.Does number pre ((ofExcept result).bind rest) (Given later) := by
  cases result with
  | ok value => exact holds value rfl
  | error failure => exact Does.throws

end Library
