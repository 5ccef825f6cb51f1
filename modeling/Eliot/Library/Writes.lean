import Eliot.Library.OcrWorkflow
import Eliot.Library.Capture

namespace Library
open Relational Async Program.Steps

inductive Request where
  | addSource (projectId : Uuid) (input : NewSource)
  | attachSource (projectId sourceId : Uuid)
  | claimConversion (revisionId : Uuid)
  | storeReadable (revisionId : Uuid) (content : Text)
  | commitRevision (loaded : LoadedRevision) (stored : Stored)
  | recordStorageFailure (revisionId : Uuid) (stored : Option Stored)
  | recoverIngest (revisionId : Uuid)
  | createOcrJob (actor : Actor) (input : NewOcrJob)
  | uploadOcrPage (actor : Actor) (scope : OcrScope) (ordinal : Nat) (body : Option (List Nat))
  | startOcrJob (actor : Actor) (scope : OcrScope)
  | cancelOcrJob (actor : Actor) (scope : OcrScope)
  | applyOcrJob (actor : Actor) (scope : OcrScope) (reviewedText : Option Text)
  | ocrStep (jobId : Uuid) (step : OcrStep)

def discard {α : Type} (task : Task α) : Task Unit := task.bind fun _ => .done (.ok ())

def serve (tools : Tools) (number : Nat) : Request → Task Unit
  | .addSource projectId input => do
    let began ← .look fun world => world.db
    let result ← (addSource tools number projectId input).attempt
    note fun history => { history with
      captured := history.captured ++ [⟨projectId, input, began, result⟩] }
  | .attachSource projectId sourceId => attachSource projectId sourceId
  | .claimConversion revisionId => discard (execute fun db => db.claimConversion revisionId)
  | .storeReadable revisionId content => storeReadable tools revisionId content
  | .commitRevision loaded stored => discard (commitRevision loaded stored)
  | .recordStorageFailure revisionId stored => recordStorageFailure revisionId stored
  | .recoverIngest revisionId => discard (recoverIngest revisionId)
  | .createOcrJob actor input => discard (createOcrJob tools actor input)
  | .uploadOcrPage actor scope ordinal body => discard (uploadOcrPage tools actor scope ordinal body)
  | .startOcrJob actor scope => discard (startOcrJob tools actor scope)
  | .cancelOcrJob actor scope => discard (cancelOcrJob actor scope)
  | .applyOcrJob actor scope reviewedText => do
    let revisionId ← applyOcrJob tools number actor scope reviewedText
    note fun history => { history with applied := (scope.jobId, revisionId) :: history.applied }
  | .ocrStep jobId step => runStep tools number jobId step

def admits (world : World) : Request → Bool
  | .addSource _ input => input.revisionId.all fun id =>
    match id with
    | .given _ => true
    | .drawn _ _ => (world.db.revisions.find id).isSome
  | .commitRevision loaded _ => world.db.loadRevision loaded.revisionId = some loaded
  | _ => true

def library (tools : Tools) : Service World Choice Request Failure := ⟨serve tools, admits⟩

def empty (projects : List Uuid) : World where
  db := ⟨projects, .empty, .empty, .empty, .empty, .empty, .empty⟩
  bucket := .empty
  history := ⟨[], [], [], [], [], []⟩

inductive JobWrite (db : Db) : Db → Prop where
  | enter (id : Uuid) (before pages : List (Nat × OcrPage)) : JobWrite db (db.enterPage id before pages).2
  | sweep (now : Nat) : JobWrite db (db.sweepDeadlines now).2
  | reserve (job : OcrRow) {model : ModelSpec} {each : Nat} (now : Nat)
      (reserved : modelTokenReservation model = .ok each) :
      JobWrite db (db.admitOcr job model (job.pageCount * each) now).2
  | failStart (id : Uuid) (now : Nat) : JobWrite db (db.failStart id now).2
  | cancel (id : Uuid) (now : Nat) : JobWrite db (db.cancelOcr id now).2
  | retain (id : Uuid) (reason : Text) : JobWrite db (db.retainReason id reason).2
  | begin (id : Uuid) (now : Nat) : JobWrite db (db.beginOcr id now).2
  | giveUp (id : Uuid) (now : Nat) : JobWrite db (db.giveUp id now).2

inductive OcrWrite (world : World) : World → Prop where
  | stay : OcrWrite world world
  | job {db : Db} (write : JobWrite world.db db) : OcrWrite world { world with db }
  | close (id : Uuid) (report : Report) : OcrWrite world { world with
      db := (world.db.closeJob id report).2
      history :=
        if world.db.revives id report then
          { world.history with revived := id :: world.history.revived }
        else world.history }
  | artifact {object : Object} {bucket : Bucket} (stored : world.bucket.insert object = some bucket)
      (plain : object.metadata = none) : OcrWrite world { world with bucket }

inductive PageWrite (tools : Tools) (world : World) : World → Prop where
  | checkpoint (id : Uuid) (ordinal : Nat) (metadata : PageMetadata) :
      PageWrite tools world { world with db := (world.db.checkpointPageUsage id ordinal metadata).2 }
  | settle (id : Uuid) (ordinal : Nat) (complete : Bool) (error : Option Text) (totals : Usage) :
      PageWrite tools world { world with db := (world.db.settlePage id ordinal complete error totals).2 }
  | dispatch (job : OcrRow) (ordinal tokenBound now : Nat) {changes : Nat} {db : Db} (history : History)
      (dispatched : world.db.dispatchPage job ordinal tokenBound now = some (changes, db))
      (same : history.revived = world.history.revived ∧ history.applied = world.history.applied ∧
        history.captured = world.history.captured) : PageWrite tools world { world with db, history }
  | send (dispatch : Dispatch) (usage : Option Usage) :
      PageWrite tools world { world with history := world.history.send dispatch usage }
  | keep {object : Object} {bucket : Bucket} (stored : world.bucket.insert object = some bucket) :
      PageWrite tools world { world with bucket }

inductive ResultWrite (db : Db) : Db → Prop where
  | claim (id : Uuid) : ResultWrite db (db.claimConversion id).2
  | record (id : Uuid) (stored : Option Stored) : ResultWrite db (db.recordStorageFailure id stored).2
  | clear (id : Uuid) : ResultWrite db (db.clearNotice id).2
  | unavailable (id : Uuid) : ResultWrite db (db.noteUnavailable id).2

inductive SourceStep (world : World) : World → Prop where
  | stay : SourceStep world world
  | result {db : Db} (write : ResultWrite world.db db) : SourceStep world { world with db }
  | commit (loaded : LoadedRevision) (stored : Stored) (before : RevisionResult) {changes : Nat}
      {db : Db} (committed : commitBatch loaded stored before world.db = some (changes, db)) :
      SourceStep world { world with db }
  | attach (projectId sourceId : Uuid) : SourceStep world { world with
      db := (world.db.insertMembership projectId sourceId).getD world.db }
  | store {object : Object} {bucket : Bucket} (stored : world.bucket.insert object = some bucket)
      (plain : object.metadata = none) : SourceStep world { world with bucket }

inductive CaptureStep (world : World) : World → Prop where
  | source {after : World} (step : SourceStep world after) : CaptureStep world after
  | capture (projectId : Uuid) (capture : Captured) (revisionNo : Nat) (newSource : Bool)
      {changes : Nat} {db : Db}
      (captured : captureBatch projectId capture revisionNo newSource world.db = some (changes, db)) :
      CaptureStep world { world with db }
  | overwrite (object : Object) (revisionId : Uuid) (key : object.key = .original revisionId none)
      (plain : object.metadata = none) :
      CaptureStep world { world with bucket := world.bucket.write object }
  | discard (revisionId : Uuid) (copy : Option Uuid) : CaptureStep world { world with
      bucket := world.bucket.without (.original revisionId copy) }

inductive Noted (world : World) : World → Prop where
  | captured (captured : List Capture) :
      Noted world { world with history := { world.history with captured } }
  | applied (applied : List (Uuid × Uuid)) :
      Noted world { world with history := { world.history with applied } }

inductive PlainStep (tools : Tools) (world : World) : World → Prop where
  | ocr {after : World} (write : OcrWrite world after) : PlainStep tools world after
  | insert (input : NewOcrJob) (base : Base) {model : ModelSpec} {each : Nat}
      (reserved : modelTokenReservation model = .ok each) : PlainStep tools world { world with
        db := (world.db.insertJob (input.row base model (input.pageCount * each))).2 }
  | apply (id : Uuid) (content : Text) (job : OcrRow) {changes : Nat} {db : Db}
      (applied : applyBatch tools id content job world.db = some (changes, db)) :
      PlainStep tools world { world with db }
  | capture {after : World} (step : CaptureStep world after) : PlainStep tools world after
  | noted {after : World} (step : Noted world after) : PlainStep tools world after

inductive QuietStep (world : World) : World → Prop where
  | ocr {after : World} (write : OcrWrite world after) : QuietStep world after
  | source {after : World} (step : SourceStep world after) : QuietStep world after

inductive PageStep (tools : Tools) (world : World) : World → Prop where
  | ocr {after : World} (write : OcrWrite world after) : PageStep tools world after
  | page {after : World} (write : PageWrite tools world after) : PageStep tools world after

inductive LibraryStep (tools : Tools) (world : World) : World → Prop where
  | plain {after : World} (step : PlainStep tools world after) : LibraryStep tools world after
  | page {after : World} (write : PageWrite tools world after) : LibraryStep tools world after

theorem SourceStep.stays (world : World) : SourceStep world world := .stay

theorem PlainStep.stays {tools : Tools} (world : World) : PlainStep tools world world := .ocr .stay

theorem PageStep.stays {tools : Tools} (world : World) : PageStep tools world world := .ocr .stay

theorem CaptureStep.stays (world : World) : CaptureStep world world := .source .stay

theorem OcrWrite.stays (world : World) : OcrWrite world world := .stay

section
variable {α : Type} {moves : World → World → Prop}

theorem steps_call {effect : Choice → World → Option (α × World)} (stays : ∀ world, moves world world)
    (each : ∀ choice world value after, effect choice world = some (value, after) → moves world after) :
    (call effect).Steps moves := by
  rw [call, Program.steps_request]
  intro choice world
  cases reply : choice.reply <;> cases done : effect choice world <;>
    first
    | exact stays world
    | exact each choice world _ _ done

theorem steps_query {read : Db → α} (stays : ∀ world, moves world world) : (query read).Steps moves :=
  steps_call stays fun _ world _ _ same => by
    cases same
    exact stays world

theorem steps_get {key : Key} (stays : ∀ world, moves world world) : (get key).Steps moves :=
  steps_call stays fun _ world _ _ same => by
    cases same
    exact stays world

theorem steps_d1 {statement : Statement α} (stays : ∀ world, moves world world)
    (each : ∀ world value db, statement world.db = some (value, db) → moves world { world with db }) :
    (d1 statement).Steps moves := by
  apply steps_call stays
  intro _ world value after done
  obtain ⟨⟨_, db⟩, ran, same⟩ := Option.map_eq_some_iff.mp done
  cases same
  exact each world value db ran

theorem steps_execute {statement : Db → α × Db} (stays : ∀ world, moves world world)
    (each : ∀ world, moves world { world with db := (statement world.db).2 }) :
    (execute statement).Steps moves := by
  apply steps_d1 stays
  intro world value db ran
  obtain rfl : (statement world.db).2 = db := congrArg Prod.snd (Option.some.inj ran)
  exact each world

theorem steps_ask {answer : Choice → Except Failure α} (stays : ∀ world, moves world world) :
    (ask answer).Steps moves :=
  Program.steps_request.mpr fun _ world => stays world

theorem steps_now (stays : ∀ world, moves world world) : now.Steps moves :=
  Program.steps_act.mpr fun _ world => stays world

theorem steps_fail (message : String) : (fail message : Task α).Steps moves := trivial

theorem steps_ofExcept (result : Except Failure α) : (ofExcept result).Steps moves := trivial

theorem steps_ofExcept_bind {β : Type} {result : Except Failure α} {rest : α → Task β}
    (steps : ∀ value, result = .ok value → (rest value).Steps moves) :
    ((ofExcept result).bind rest).Steps moves := by
  cases result with
  | ok value => exact steps value rfl
  | error failure => exact trivial

theorem steps_putNew {object : Text → Object} (stays : ∀ world, moves world world)
    (each : ∀ world etag bucket, world.bucket.insert (object etag) = some bucket →
      moves world { world with bucket }) : (putNew object).Steps moves := by
  apply steps_call stays
  intro choice world value after done
  cases stored : world.bucket.insert (object choice.etag) with
  | none =>
    simp only [stored, Option.some.injEq, Prod.mk.injEq] at done
    rw [← done.2]
    exact stays world
  | some bucket =>
    simp only [stored, Option.some.injEq, Prod.mk.injEq] at done
    rw [← done.2]
    exact each world _ bucket stored

theorem steps_putOcrArtifact {tools : Tools} {key : Key} {body : Body} {metadata : Option PageMetadata}
    (stays : ∀ world, moves world world)
    (each : ∀ world etag bucket, world.bucket.insert
      ⟨key, body, tools.size body, some (tools.sha256 body), metadata, etag⟩ = some bucket →
      moves world { world with bucket }) :
    (putOcrArtifact tools key body metadata).Steps moves := by
  apply (steps_putNew stays each).bind
  rintro (_ | _)
  · apply (steps_get stays).bind
    rintro (_ | existing)
    · exact steps_fail _
    · dsimp only
      split <;> exact trivial
  · exact trivial

end

theorem steps_job {α : Type} {statement : Db → α × Db} (each : ∀ db, JobWrite db (statement db).2) :
    (execute statement).Steps OcrWrite :=
  steps_execute OcrWrite.stays fun world => .job (each world.db)

theorem steps_plain {tools : Tools} {key : Key} {body : Body} :
    (putOcrArtifact tools key body none).Steps OcrWrite :=
  steps_putOcrArtifact OcrWrite.stays fun _ _ _ stored => .artifact stored rfl

variable {moves : World → World → Prop} {number : Nat}

section
variable {tools : Tools} {actor : Actor} {scope : OcrScope}

theorem sourceBase_steps (stays : ∀ world, moves world world)
    {projectId sourceId : Uuid} : (sourceBase actor projectId sourceId).Steps moves := by
  unfold sourceBase
  split
  · exact trivial
  · apply (steps_query stays).bind
    rintro (_ | _) <;> exact trivial

variable {id : Uuid}

theorem loadOcrRow_steps (stays : ∀ world, moves world world)
    : (loadOcrRow id).Steps moves := by
  unfold loadOcrRow
  apply (steps_query stays).bind
  rintro (_ | _) <;> exact trivial

theorem scopedJob_steps (stays : ∀ world, moves world world) :
    (scopedJob actor scope).Steps moves := by
  apply (sourceBase_steps stays).bind
  intro _
  apply (loadOcrRow_steps stays).bind
  intro job
  split <;> exact trivial

theorem imageModel_steps {model : ModelSpec} :
    (imageModel model).Steps moves := by
  unfold imageModel
  split
  · exact trivial
  · split
    · exact trivial
    · split <;> exact trivial

theorem createOcrJobOn_steps {input : NewOcrJob} {base : Base}
    (stays : ∀ world, moves world world)
    (insert : ∀ world {model each}, modelTokenReservation model = .ok each → moves world { world with
      db := (world.db.insertJob (input.row base model (input.pageCount * each))).2 }) :
    (createOcrJobOn tools actor input base).Steps moves := by
  unfold createOcrJobOn
  dsimp only
  split
  · exact trivial
  apply (steps_query stays).bind
  rintro (_ | ⟨prior, sha⟩)
  · dsimp only
    split
    · exact trivial
    split
    · exact trivial
    split
    · exact trivial
    apply (steps_get stays).bind
    rintro (_ | object)
    · exact trivial
    dsimp only
    split
    · exact trivial
    split
    · exact trivial
    apply (steps_ask stays).bind
    intro model
    apply imageModel_steps.bind
    intro model
    apply steps_ofExcept_bind
    intro each reserved
    split
    · exact trivial
    apply (steps_execute stays fun world => insert world reserved).bind
    intro _
    apply (scopedJob_steps stays).bind
    intro job
    split <;> exact trivial
  · dsimp only
    split <;> exact trivial

theorem createOcrJob_steps {input : NewOcrJob} :
    (createOcrJob tools actor input).Steps (PlainStep tools) :=
  (sourceBase_steps PlainStep.stays).bind fun base =>
    createOcrJobOn_steps PlainStep.stays fun _ _ _ reserved => .insert input base reserved

variable {ordinal : Nat}

theorem enterOcrPage_steps {page : OcrPage} (attempts : Nat) :
    (enterOcrPage actor scope ordinal page attempts).Steps OcrWrite := by
  induction attempts with
  | zero => exact trivial
  | succ attempts ih =>
    unfold enterOcrPage
    apply (scopedJob_steps OcrWrite.stays).bind
    intro current
    split
    · split <;> exact trivial
    split
    · exact trivial
    apply (steps_job fun db => .enter scope.jobId _ _).bind
    intro saved
    split
    · exact loadOcrRow_steps OcrWrite.stays
    · exact ih

theorem uploadOcrPage_steps {body : Option (List Nat)} :
    (uploadOcrPage tools actor scope ordinal body).Steps OcrWrite := by
  apply (scopedJob_steps OcrWrite.stays).bind
  intro job
  split
  · exact trivial
  split
  · exact trivial
  split
  · exact trivial
  dsimp only
  split
  · exact trivial
  split
  · exact trivial
  split
  · exact trivial
  apply steps_plain.bind
  intro _
  exact enterOcrPage_steps 8

theorem startOcrJob_steps : (startOcrJob tools actor scope).Steps OcrWrite := by
  apply (scopedJob_steps OcrWrite.stays).bind
  intro job
  split
  · exact trivial
  split
  · exact trivial
  apply (sourceBase_steps OcrWrite.stays).bind
  intro base
  split
  · exact trivial
  apply (steps_ask OcrWrite.stays).bind
  intro model
  apply imageModel_steps.bind
  intro model
  split
  · exact trivial
  apply (steps_now OcrWrite.stays).bind
  intro time
  apply steps_ofExcept_bind
  intro each reserved
  apply (steps_job fun db => .sweep time).bind
  intro _
  apply (steps_job fun db => .reserve job time reserved).bind
  intro admitted
  split
  · apply (loadOcrRow_steps OcrWrite.stays).bind
    intro current
    split <;> exact trivial
  · apply (steps_ask OcrWrite.stays).bind
    intro confirmed
    split
    · apply (steps_now OcrWrite.stays).bind
      intro finished
      apply (steps_job fun db => .failStart job.id finished).bind
      exact fun _ => loadOcrRow_steps OcrWrite.stays
    · exact loadOcrRow_steps OcrWrite.stays

theorem cancelOcrJob_steps : (cancelOcrJob actor scope).Steps OcrWrite := by
  apply (scopedJob_steps OcrWrite.stays).bind
  intro job
  apply (steps_now OcrWrite.stays).bind
  intro time
  apply (steps_job fun db => .cancel job.id time).bind
  exact fun _ => loadOcrRow_steps OcrWrite.stays

theorem readOcrPreview_steps (stays : ∀ world, moves world world) :
    (readOcrPreview tools actor scope).Steps moves := by
  apply (scopedJob_steps stays).bind
  intro job
  split
  · exact trivial
  apply (steps_get stays).bind
  rintro (_ | object)
  · exact trivial
  dsimp only
  split
  · exact trivial
  split <;> exact trivial

theorem reviewedContent_steps (stays : ∀ world, moves world world)
    {reviewedText : Option Text} : (reviewedContent tools actor scope reviewedText).Steps moves := by
  cases reviewedText with
  | some content => exact trivial
  | none => exact readOcrPreview_steps stays

theorem applyOcrJob_steps {reviewedText : Option Text} :
    (applyOcrJob tools number actor scope reviewedText).Steps (PlainStep tools) := by
  apply (scopedJob_steps PlainStep.stays).bind
  intro job
  split
  · exact trivial
  · apply (reviewedContent_steps PlainStep.stays).bind
    intro content
    split
    · exact trivial
    apply (steps_plain.mono fun _ _ => .ocr).bind
    intro _
    apply (steps_plain.mono fun _ _ => .ocr).bind
    intro _
    apply (steps_d1 PlainStep.stays fun world _ _ => .apply _ content job).bind
    intro inserted
    split
    · exact trivial
    apply (loadOcrRow_steps PlainStep.stays).bind
    intro current
    split <;> exact trivial
  · exact trivial

theorem retainStepFailure_steps {α : Type}
    {operation : Task α} (widens : ∀ before after, OcrWrite before after → moves before after)
    (steps : operation.Steps moves) : (retainStepFailure id operation).Steps moves := by
  unfold retainStepFailure
  apply steps.attempt.bind
  rintro (failure | value)
  · apply ((steps_job fun db => .retain id _).mono widens).attempt.bind
    exact fun _ => trivial
  · exact trivial

variable {job : OcrRow}

theorem settlePage_steps {object : Object} :
    (settlePage tools job ordinal object).Steps (PageStep tools) := by
  unfold settlePage
  split
  · exact trivial
  split
  · exact trivial
  apply (steps_execute PageStep.stays fun world => .page (.settle job.id ordinal _ _ _)).bind
  intro _
  split <;> exact trivial

theorem checkpointPageUsage_steps {metadata : PageMetadata} :
    (checkpointPageUsage id ordinal metadata).Steps (PageStep tools) := by
  unfold checkpointPageUsage
  apply (steps_execute PageStep.stays fun world => .page (.checkpoint id ordinal metadata)).bind
  exact fun _ => trivial

theorem keepPage_steps {ordinal tokenBound started : Nat}
    {generated : Generated} :
    (keepPage tools id job ordinal tokenBound started generated).Steps (PageStep tools) := by
  apply (steps_now PageStep.stays).bind
  intro finished
  apply (steps_putOcrArtifact PageStep.stays fun world _ bucket stored => .page (.keep stored)).attempt.bind
  rintro (failure | _)
  · apply checkpointPageUsage_steps.bind
    intro _
    split <;> exact trivial
  · apply checkpointPageUsage_steps.bind
    intro _
    apply (steps_get PageStep.stays).bind
    rintro (_ | object)
    · exact trivial
    · exact settlePage_steps.bind fun _ => trivial

theorem dispatchPage_steps {ordinal tokenBound now : Nat} :
    (dispatchPage number job ordinal tokenBound now).Steps (PageStep tools) := by
  apply steps_call PageStep.stays
  intro _ world value after done
  obtain ⟨⟨changes, db⟩, dispatched, same⟩ := Option.map_eq_some_iff.mp done
  cases same
  refine .page (.dispatch job ordinal tokenBound now _ dispatched ?_)
  split <;> exact ⟨rfl, rfl, rfl⟩

theorem generateText_steps {dispatch : Dispatch} : (generateText dispatch).Steps (PageStep tools) := by
  apply Program.steps_request.mpr
  intro choice world
  dsimp only
  split
  · exact .page (.send dispatch _)
  · exact .page (.send dispatch none)

theorem runPage_steps :
    (runPage tools number id ordinal).Steps (PageStep tools) := by
  apply (loadOcrRow_steps PageStep.stays).bind
  intro job
  split
  · exact trivial
  apply (steps_get PageStep.stays).bind
  rintro (_ | saved)
  · dsimp only
    split
    · exact trivial
    apply (steps_now PageStep.stays).bind
    intro time
    split
    · exact trivial
    apply (steps_get PageStep.stays).bind
    intro image
    split
    · split
      · exact trivial
      split
      · exact trivial
      apply (steps_ofExcept _).bind
      intro model
      apply (steps_ofExcept _).bind
      intro tokenBound
      apply (steps_ask PageStep.stays).bind
      intro _
      apply (steps_now PageStep.stays).bind
      intro started
      split
      · exact trivial
      apply dispatchPage_steps.bind
      intro dispatched
      split
      · exact trivial
      apply (steps_now PageStep.stays).bind
      intro time
      split
      · exact trivial
      apply generateText_steps.bind
      exact fun generated => keepPage_steps
    · exact trivial
  · dsimp only
    split
    · exact trivial
    · exact settlePage_steps.bind fun _ => trivial

theorem assemblePages_steps {size : Nat} {preview : Text} (ordinals : List Nat) :
    (assemblePages tools job size preview ordinals).Steps OcrWrite := by
  induction ordinals generalizing size preview with
  | nil => exact trivial
  | cons ordinal ordinals ih =>
    unfold assemblePages
    apply (steps_now OcrWrite.stays).bind
    intro time
    split
    · exact trivial
    apply (steps_get OcrWrite.stays).bind
    rintro (_ | object)
    · exact trivial
    dsimp only
    split
    · exact trivial
    split
    · exact trivial
    split
    · exact trivial
    split
    · exact trivial
    split
    · exact trivial
    · exact ih

theorem makeReport_steps {failure : Option Failure} :
    (makeReport tools job failure).Steps OcrWrite := by
  have previewed : (makePreview tools job failure).Steps OcrWrite := by
    unfold makePreview
    split
    · apply (assemblePages_steps _).bind
      intro content
      exact steps_plain.bind fun _ => trivial
    · exact trivial
  apply previewed.bind
  intro preview
  apply (steps_now OcrWrite.stays).bind
  intro finishedAt
  exact steps_plain.bind fun _ => trivial

theorem jobReport_steps (job : OcrRow) {failure : Option Failure} :
    (jobReport tools job failure).Steps OcrWrite := by
  apply (steps_get OcrWrite.stays).bind
  rintro (_ | saved)
  · exact makeReport_steps
  · dsimp only
    split <;> exact trivial

theorem finishJob_steps {failure : Option Failure} :
    (finishJob tools id failure).Steps OcrWrite := by
  apply (loadOcrRow_steps OcrWrite.stays).bind
  intro job
  split
  · exact trivial
  apply (jobReport_steps job).bind
  intro report
  apply Program.Steps.bind
  · apply steps_call OcrWrite.stays
    intro _ world value after done
    cases done
    exact .close id report
  · exact fun _ => trivial

theorem runStep_steps {step : OcrStep}
    (other : ∀ ordinal, step ≠ .page ordinal) : (runStep tools number id step).Steps OcrWrite := by
  cases step with
  | begin =>
    apply retainStepFailure_steps fun _ _ write => write
    apply (loadOcrRow_steps OcrWrite.stays).bind
    intro job
    apply (steps_ofExcept _).bind
    intro _
    apply (steps_now OcrWrite.stays).bind
    intro time
    apply (steps_job fun db => .begin id time).bind
    intro begun
    split <;> exact trivial
  | page ordinal => exact absurd rfl (other ordinal)
  | assemble => exact retainStepFailure_steps (fun _ _ write => write) finishJob_steps
  | recordFailure failure => exact finishJob_steps
  | giveUp =>
    apply (steps_now OcrWrite.stays).bind
    intro time
    apply (steps_job fun db => .giveUp id time).bind
    exact fun _ => trivial

end

section
variable {tools : Tools}

theorem steps_result {α : Type} {statement : Db → α × Db}
    (each : ∀ db, ResultWrite db (statement db).2) : (execute statement).Steps SourceStep :=
  steps_execute SourceStep.stays fun world => .result (each world.db)

variable {projectId : Uuid}

theorem getProject_steps (stays : ∀ world, moves world world)
    : (getProject projectId).Steps moves := by
  unfold getProject
  apply (steps_query stays).bind
  intro known
  split <;> exact trivial

theorem attachSource_steps {projectId sourceId : Uuid} :
    (attachSource projectId sourceId).Steps SourceStep := by
  apply (getProject_steps SourceStep.stays).bind
  intro _
  apply (steps_query SourceStep.stays).bind
  intro active
  split
  · exact trivial
  · exact steps_execute SourceStep.stays fun world => .attach projectId sourceId

theorem nextRevisionNo_steps (stays : ∀ world, moves world world)
    {sourceId : Option Uuid} : (nextRevisionNo projectId sourceId).Steps moves := by
  cases sourceId with
  | none => exact trivial
  | some sourceId =>
    unfold nextRevisionNo
    apply (steps_query stays).bind
    rintro (_ | last) <;> exact trivial

variable {capture : Captured}

theorem priorCapture_steps {revisionId : Option Uuid} :
    (priorCapture capture revisionId).Steps CaptureStep := by
  cases revisionId with
  | none => exact trivial
  | some revisionId =>
    unfold priorCapture
    apply (steps_query CaptureStep.stays).bind
    rintro (_ | ⟨row, source⟩)
    · exact trivial
    · dsimp only
      split <;> exact trivial

variable {revisionId : Uuid}

theorem putOriginal_steps {copy : Option Uuid}
    {bytes : List Nat} {chosen : Bool} (key : capture.original.key = .original revisionId copy)
    (drawn : chosen = false → copy = none) :
    (putOriginal capture bytes chosen).Steps CaptureStep := by
  unfold putOriginal
  split
  · apply Program.Steps.bind
    · exact steps_putNew CaptureStep.stays fun world _ bucket stored => .source (.store stored rfl)
    · exact fun _ => trivial
  · rename_i unchosen
    apply Program.Steps.bind
    · apply steps_call CaptureStep.stays
      intro choice world value after done
      cases done
      exact .overwrite _ revisionId (by rw [key, drawn (by simpa using unchosen)]) rfl
    · exact fun _ => trivial

theorem settleCapture_steps {copy : Option Uuid}
    {input : NewSource} {failure : Failure} (key : capture.original.key = .original revisionId copy) :
    (settleCapture capture input failure).Steps CaptureStep := by
  have discards : (discardOriginal capture).Steps CaptureStep := by
    apply Program.Steps.bind
    · apply attempt
      apply steps_call CaptureStep.stays
      intro choice world value after done
      cases done
      rw [key]
      exact .discard revisionId copy
    · exact fun _ => trivial
  unfold settleCapture
  apply (steps_query CaptureStep.stays).bind
  rintro (_ | ⟨row, source⟩)
  · apply discards.bind
    intro _
    apply (steps_query CaptureStep.stays).bind
    intro raced
    split
    · exact trivial
    · split <;> exact trivial
  · dsimp only
    split
    · exact trivial
    · split
      · apply discards.bind
        intro _
        split <;> exact trivial
      · split <;> exact trivial

theorem commitCapture_steps {copy : Option Uuid}
    {input : NewSource} {revisionNo : Nat}
    (key : capture.original.key = .original revisionId copy) :
    (commitCapture projectId capture input revisionNo).Steps CaptureStep := by
  unfold commitCapture
  apply Program.Steps.bind
  · apply attempt
    exact steps_d1 CaptureStep.stays fun world _ _ => .capture projectId capture revisionNo _
  · rintro (failure | inserted)
    · exact settleCapture_steps key
    · dsimp only
      split
      · exact trivial
      · exact settleCapture_steps key

theorem startIngest_steps : (startIngest revisionId).Steps SourceStep := by
  apply (steps_ask SourceStep.stays).bind
  intro confirmed
  split
  · exact trivial
  · exact (steps_result fun db => .unavailable revisionId).bind fun _ => trivial

theorem addSource_steps {input : NewSource} :
    (addSource tools number projectId input).Steps CaptureStep := by
  have key : (input.capture tools number).original.key = .original
    (input.revisionId.getD (.drawn number 1)) (input.revisionId.map fun _ => .drawn number 2) := rfl
  apply (getProject_steps CaptureStep.stays).bind
  intro _
  split
  · exact trivial
  split
  · exact trivial
  apply (nextRevisionNo_steps CaptureStep.stays).bind
  intro revisionNo
  apply priorCapture_steps.bind
  intro prior
  split
  · exact trivial
  apply (steps_query CaptureStep.stays).bind
  intro duplicate
  split
  · exact trivial
  apply Program.Steps.bind
  · apply putOriginal_steps key
    intro unchosen
    simpa using unchosen
  intro stored
  split
  · exact trivial
  apply (commitCapture_steps key).bind
  intro committed
  split
  · exact (startIngest_steps.mono fun _ _ => .source).bind fun _ => trivial
  · exact trivial

theorem checkArtifacts_steps {loaded : LoadedRevision} {stored : Stored} :
    (checkArtifacts loaded stored).Steps SourceStep := by
  unfold checkArtifacts
  split
  · apply (steps_get SourceStep.stays).bind
    intro content
    apply (steps_get SourceStep.stays).bind
    intro blocks
    split <;> exact trivial
  · exact trivial

theorem confirmHead_steps {loaded : LoadedRevision} {stored : Stored} :
    (confirmHead loaded stored).Steps SourceStep := by
  unfold confirmHead
  split
  · apply (steps_query SourceStep.stays).bind
    intro confirmed
    split <;> exact trivial
  · exact trivial

theorem commitRevision_steps {loaded : LoadedRevision} {stored : Stored} :
    (commitRevision loaded stored).Steps SourceStep := by
  unfold commitRevision readResult
  apply (steps_query SourceStep.stays).bind
  rintro (_ | before)
  · exact trivial
  dsimp only
  split
  · exact trivial
  apply checkArtifacts_steps.bind
  intro _
  apply Program.Steps.bind
  · apply attempt
    exact steps_d1 SourceStep.stays fun world _ _ => .commit loaded stored before
  intro advanced
  apply (steps_query SourceStep.stays).bind
  rintro (_ | after)
  · exact trivial
  dsimp only
  split
  · exact trivial
  · exact confirmHead_steps.bind fun _ => trivial

theorem recordStorageFailure_steps {stored : Option Stored} :
    (recordStorageFailure revisionId stored).Steps SourceStep :=
  (steps_result fun _ => .record revisionId stored).bind fun _ => trivial

theorem takeOver_steps {stored : Option Stored} :
    (takeOver revisionId stored).Steps SourceStep := by
  cases stored with
  | none => exact recordStorageFailure_steps.bind fun _ => trivial
  | some stored =>
    unfold takeOver
    apply (steps_query SourceStep.stays).bind
    rintro (_ | loaded)
    · exact trivial
    · exact commitRevision_steps.bind fun _ => trivial

theorem recoverIngest_steps : (recoverIngest revisionId).Steps SourceStep := by
  apply (steps_ask SourceStep.stays).bind
  intro status
  split
  · exact trivial
  · exact trivial
  · apply (steps_result fun _ => .clear revisionId).attempt.bind
    rintro (_ | _) <;> exact trivial
  · apply takeOver_steps.attempt.bind
    rintro (_ | _) <;> exact trivial
  · apply takeOver_steps.attempt.bind
    rintro (_ | _) <;> exact trivial

theorem storeReadable_steps {content : Text} :
    (storeReadable tools revisionId content).Steps SourceStep := by
  have puts (key : Key) (body : Body) : (putNew fun etag =>
      ⟨key, body, tools.size body, none, none, etag⟩).Steps SourceStep :=
    steps_putNew SourceStep.stays fun world _ bucket stored => .store stored rfl
  apply Program.Steps.bind
  · apply (puts _ _).bind
    intro stored
    split <;> exact trivial
  · intro _
    apply (puts _ _).bind
    intro stored
    split <;> exact trivial

end

def Request.runsPage : Request → Bool
  | .ocrStep _ (.page _) => true
  | _ => false

def Request.inserts : Request → Bool
  | .addSource _ _ | .createOcrJob _ _ | .applyOcrJob _ _ _ => true
  | _ => false

theorem serve_quiet (tools : Tools) (number : Nat) {request : Request}
    (unpaged : request.runsPage = false) (other : request.inserts = false) :
    (serve tools number request).Steps QuietStep := by
  have ocr : ∀ before after, OcrWrite before after → QuietStep before after := fun _ _ => .ocr
  have source : ∀ before after, SourceStep before after → QuietStep before after := fun _ _ => .source
  cases request with
  | addSource _ _ | createOcrJob _ _ | applyOcrJob _ _ _ => cases other
  | attachSource projectId sourceId => exact attachSource_steps.mono source
  | claimConversion revisionId =>
    exact ((steps_result fun _ => .claim revisionId).mono source).bind fun _ => trivial
  | storeReadable revisionId content => exact storeReadable_steps.mono source
  | commitRevision loaded stored => exact (commitRevision_steps.mono source).bind fun _ => trivial
  | recordStorageFailure revisionId stored => exact recordStorageFailure_steps.mono source
  | recoverIngest revisionId => exact (recoverIngest_steps.mono source).bind fun _ => trivial
  | uploadOcrPage actor scope ordinal body =>
    exact (uploadOcrPage_steps.mono ocr).bind fun _ => trivial
  | startOcrJob actor scope => exact (startOcrJob_steps.mono ocr).bind fun _ => trivial
  | cancelOcrJob actor scope => exact (cancelOcrJob_steps.mono ocr).bind fun _ => trivial
  | ocrStep jobId step =>
    refine (runStep_steps fun ordinal same => ?_).mono ocr
    subst same
    cases unpaged

theorem serve_page (tools : Tools) (number : Nat) {request : Request}
    (paged : request.runsPage = true) : (serve tools number request).Steps (PageStep tools) := by
  unfold Request.runsPage at paged
  split at paged
  · apply retainStepFailure_steps fun _ _ => .ocr
    exact runPage_steps.bind fun _ => trivial
  · cases paged

theorem serve_plain (tools : Tools) (number : Nat) {request : Request}
    (unpaged : request.runsPage = false) : (serve tools number request).Steps (PlainStep tools) := by
  cases inserts : request.inserts with
  | false =>
    refine (serve_quiet tools number unpaged inserts).mono fun before after step => ?_
    cases step with
    | ocr write => exact .ocr write
    | source step => exact .capture (.source step)
  | true =>
    cases request with
    | addSource projectId input =>
      apply Program.Steps.bind
      · exact Program.steps_act.mpr fun _ world => .stays world
      intro began
      apply (addSource_steps.mono fun _ _ => .capture).attempt.bind
      intro result
      exact Program.steps_act.mpr fun _ world => .noted (.captured _)
    | createOcrJob actor input => exact createOcrJob_steps.bind fun _ => trivial
    | applyOcrJob actor scope reviewedText =>
      apply applyOcrJob_steps.bind
      intro revisionId
      exact Program.steps_act.mpr fun _ world => .noted (.applied _)
    | _ => cases inserts

theorem serve_steps (tools : Tools) (number : Nat) (request : Request) :
    (serve tools number request).Steps (LibraryStep tools) := by
  cases paged : request.runsPage with
  | false => exact (serve_plain tools number paged).mono fun _ _ => .plain
  | true =>
    refine (serve_page tools number paged).mono fun before after step => ?_
    cases step with
    | ocr write => exact .plain (.ocr write)
    | page write => exact .page write

end Library
