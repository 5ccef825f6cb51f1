import Eliot.Library.World

namespace Library
open Relational Async

structure OcrScope where
  projectId : Uuid
  sourceId : Uuid
  jobId : Uuid

structure Base where
  revision : Revision
  currentRevisionId : Option Uuid

namespace OcrLimits

def maxPages : Nat := 1000
def pageBytes : Nat := 1024 * 1024
def pagePixels : Nat := 4000000
def pageTimeoutMs : Nat := 90000
def previewBytes : Nat := 25 * 1024 * 1024

end OcrLimits

def isSafe (value : Nat) : Bool := value ≤ Text.maxSafeInteger

def ocrOutputLimit (model : ModelSpec) : Option Nat := do
  let output ← model.outputReserveTokens.or model.maxOutputTokens
  if !isSafe output || output = 0 then none
  match model.maxOutputTokens with
  | none => some output
  | some capacity =>
    if !isSafe capacity || capacity = 0 then none
    else some (min (max output 16384) capacity)

def modelOutputReserve (model : ModelSpec) : Nat :=
  let bound := (model.outputReserveTokens.or model.maxOutputTokens).getD 0
  min bound (model.maxOutputTokens.getD bound)

def modelTokenReservation (model : ModelSpec) : Except Failure Nat :=
  let output := modelOutputReserve model
  let total := model.contextTokens + output
  if !isSafe model.contextTokens || model.contextTokens = 0 || !isSafe output || output = 0 ||
      !isSafe total then
    .error (.library (text "The model has no usable input/output limits."))
  else .ok total

def requireAvailableModel (route : Text) : Task ModelSpec :=
  ask fun choice => choice.model.map fun model => { model with route }

def imageModel (model : ModelSpec) : Task ModelSpec := do
  if model.supportsImages = some false then fail "This model does not support image input."
  else
    match ocrOutputLimit model with
    | none => fail "The model has no usable OCR output limit."
    | some outputReserveTokens =>
      if !isSafe outputReserveTokens || outputReserveTokens = 0 then
        fail "The model has no usable OCR output limit."
      else return { model with outputReserveTokens := some outputReserveTokens }

def ofExcept {α : Type} : Except Failure α → Task α := .done

def putOcrArtifact (tools : Tools) (key : Key) (body : Body) (metadata : Option PageMetadata) :
    Task Unit := do
  let sha256 := tools.sha256 body
  match (← putNew fun etag => ⟨key, body, tools.size body, some sha256, metadata, etag⟩) with
  | some _ => return ()
  | none =>
    match (← get key) with
    | none => fail "A different immutable OCR artifact already exists."
    | some existing =>
      if tools.sha256 existing.body ≠ sha256 || existing.sha256 ≠ some sha256 ||
          !metadata.all (existing.metadata = some ·) then
        fail "A different immutable OCR artifact already exists."
      else return ()

def Db.base (db : Db) (projectId sourceId : Uuid) : Option Base :=
  if !db.projects.contains projectId || !db.attached projectId sourceId then none
  else do
    let source ← db.sources.find sourceId
    if source.state = .deleted then none
    let revision ← db.latestRevision sourceId
    some ⟨revision, source.currentRevisionId⟩

def sourceBase (actor : Actor) (projectId sourceId : Uuid) : Task Base := do
  if actor ≠ .owner then .throw (.auth (text "Only the owner may use PDF OCR."))
  else
    match (← query (·.base projectId sourceId)) with
    | none => fail "This source is not available in this project."
    | some base => return base

def loadOcrRow (id : Uuid) : Task OcrRow := do
  match (← query (·.jobs.find id)) with
  | none => fail "OCR job not found."
  | some row => return row

def scopedJob (actor : Actor) (scope : OcrScope) : Task OcrRow := do
  let _ ← sourceBase actor scope.projectId scope.sourceId
  let job ← loadOcrRow scope.jobId
  if job.projectId ≠ scope.projectId || job.sourceId ≠ scope.sourceId then
    fail "OCR job not found in this project source."
  else return job

structure NewOcrJob where
  scope : OcrScope
  baseRevisionId : Uuid
  model : Text
  pageCount : Nat
  originalSha256 : Text

def isSha256 (digest : Text) : Bool := digest.length = 64 && digest.all Text.isHexDigit

def toLowerCase (digest : Text) : Text :=
  digest.map fun unit => if 65 ≤ unit && unit ≤ 90 then unit + 32 else unit

def isPdf : Body → Bool
  | .bytes bytes => bytes.take 5 = text "%PDF-"
  | _ => false

/-- The job as `INSERT` and the defaults of the table make it. -/
def NewOcrJob.row (input : NewOcrJob) (base : Base) (model : ModelSpec) (bound : Nat) : OcrRow where
  id := input.scope.jobId
  projectId := input.scope.projectId
  sourceId := input.scope.sourceId
  baseRevisionId := base.revision.id
  baseCurrentRevisionId := base.currentRevisionId
  modelRoute := model.route
  modelSnapshot := model
  pageCount := input.pageCount
  pages := []
  state := .preparing
  calls := 0
  completedPages := 0
  tokenLimit := bound
  inputTokens := some 0
  cachedTokens := some 0
  outputTokens := some 0
  deadlineAt := none
  previewSha256 := none
  previewSize := none
  error := none
  appliedRevisionId := none
  startedAt := none
  finishedAt := none

/-- `INSERT … ON CONFLICT(id) DO NOTHING` -/
def Db.insertJob (db : Db) (row : OcrRow) : Unit × Db :=
  match db.jobs.insert row with
  | some jobs => ((), { db with jobs })
  | none => ((), db)

/-- `createOcrJob`, once the latest revision of the source is known. -/
def createOcrJobOn (tools : Tools) (actor : Actor) (input : NewOcrJob) (base : Base) : Task OcrRow := do
  if input.pageCount < 1 || OcrLimits.maxPages < input.pageCount || !isSha256 input.originalSha256 then
    fail "Use a job UUID, original SHA-256 and the full PDF page count."
  else
    let originalSha256 := toLowerCase input.originalSha256
    let prior ← query fun db => do
      let job ← db.jobs.find input.scope.jobId
      let revision ← db.revisions.find job.baseRevisionId
      some (job, revision.original.sha256)
    match prior with
    | some (prior, originalSha) =>
      if prior.projectId ≠ input.scope.projectId || prior.sourceId ≠ input.scope.sourceId ||
          prior.baseRevisionId ≠ input.baseRevisionId || prior.modelRoute ≠ input.model ||
          prior.pageCount ≠ input.pageCount || originalSha ≠ originalSha256 then
        fail "This job UUID already identifies a different OCR request."
      else return prior
    | none =>
      let original := base.revision.original
      if base.revision.id ≠ input.baseRevisionId then
        fail "The latest source revision changed. Reload before preparing OCR."
      else if base.revision.result.readableState = .pending then
        fail "Wait for the original PDF conversion to finish before preparing OCR."
      else if original.mime ≠ text "application/pdf" || original.sha256 ≠ originalSha256 then
        fail "OCR requires the unchanged original PDF and its exact SHA-256."
      else
        match (← get original.key) with
        | none => fail "The stored original PDF is missing or changed."
        | some object =>
          if object.size ≠ original.size then fail "The stored original PDF is missing or changed."
          else if !isPdf object.body || tools.sha256 object.body ≠ original.sha256 then
            fail "The stored original PDF checksum does not match."
          else
            let model ← imageModel (← requireAvailableModel input.model)
            let bound := input.pageCount * (← ofExcept (modelTokenReservation model))
            if !isSafe bound then fail "OCR token bound is too large."
            else
              execute fun db => db.insertJob (input.row base model bound)
              let job ← scopedJob actor input.scope
              if job.baseRevisionId ≠ base.revision.id || job.modelRoute ≠ input.model ||
                  job.pageCount ≠ input.pageCount then
                fail "This job UUID was concurrently used for another request."
              else return job

def createOcrJob (tools : Tools) (actor : Actor) (input : NewOcrJob) : Task OcrRow := do
  createOcrJobOn tools actor input (← sourceBase actor input.scope.projectId input.scope.sourceId)

def getUint32 (bytes : List Nat) (offset : Nat) : Nat :=
  ((bytes.drop offset).take 4).foldl (fun value byte => value * 256 + byte) 0

def setPage (ordinal : Nat) (page : OcrPage) : List (Nat × OcrPage) → List (Nat × OcrPage)
  | [] => [(ordinal, page)]
  | (other, stored) :: pages =>
    if ordinal < other then (ordinal, page) :: (other, stored) :: pages
    else if ordinal = other then (ordinal, page) :: pages
    else (other, stored) :: setPage ordinal page pages

def OcrRow.page (job : OcrRow) (ordinal : Nat) : Option OcrPage :=
  (job.pages.find? fun entry => entry.1 = ordinal).map (·.2)

def Db.enterPage (db : Db) (id : Uuid) (before pages : List (Nat × OcrPage)) : Nat × Db :=
  db.updateJob id (fun row => row.state = .preparing && row.pages = before)
    fun row => { row with pages }

def enterOcrPage (actor : Actor) (scope : OcrScope) (ordinal : Nat) (page : OcrPage) :
    Nat → Task OcrRow
  | 0 => fail "Page uploads changed concurrently. Upload this same page again."
  | attempts + 1 => do
    let current ← scopedJob actor scope
    match current.page ordinal with
    | some old =>
      if old.sha256 ≠ page.sha256 then fail "A different PNG is already stored for this page."
      else return current
    | none =>
      if current.state ≠ .preparing then fail "OCR inputs have already been frozen."
      else
        let saved ← execute fun db =>
          db.enterPage scope.jobId current.pages (setPage ordinal page current.pages)
        if saved ≠ 0 then loadOcrRow scope.jobId
        else enterOcrPage actor scope ordinal page attempts

def uploadOcrPage (tools : Tools) (actor : Actor) (scope : OcrScope) (ordinal : Nat)
    (body : Option (List Nat)) : Task OcrRow := do
  let job ← scopedJob actor scope
  if job.state ≠ .preparing then fail "OCR page inputs are immutable after Start."
  else if ordinal < 1 || job.pageCount < ordinal then fail "Page is outside this PDF."
  else
    match body with
    | none => fail "A PNG page is required."
    | some bytes =>
      let width := getUint32 bytes 16
      let height := getUint32 bytes 20
      if OcrLimits.pageBytes < bytes.length then fail "A rendered PNG page must fit within 1 MiB."
      else if bytes.length < 33 || bytes.take 8 ≠ [137, 80, 78, 71, 13, 10, 26, 10] ||
          getUint32 bytes 8 ≠ 13 || getUint32 bytes 12 ≠ 0x49484452 then
        fail "A PNG page with an IHDR header is required."
      else if width = 0 || height = 0 || OcrLimits.pagePixels < width * height then
        fail "A rendered page must fit within 4 million pixels."
      else
        let page : OcrPage := ⟨tools.sha256 (.bytes bytes), bytes.length, width, height⟩
        putOcrArtifact tools (.ocrImage job.baseRevisionId job.id ordinal) (.bytes bytes) none
        enterOcrPage actor scope ordinal page 8

def Db.sweepDeadlines (db : Db) (now : Nat) : Nat × Db :=
  db.updateJobs
    (fun row => (row.state = .queued || row.state = .running) && row.deadlineAt.any (· ≤ now))
    fun row => { row with
      state := .failed
      error := some (text "OCR deadline elapsed; no continuation was started.")
      finishedAt := some now }

def Db.admitOcr (db : Db) (job : OcrRow) (model : ModelSpec) (bound now : Nat) : Nat × Db :=
  let active := db.jobs.count fun row => row.state = .queued || row.state = .running
  db.updateJob job.id (fun row => row.state = .preparing && row.pages = job.pages && active < 2 &&
      (db.sources.find row.sourceId).any (fun source =>
        source.state ≠ .deleted && source.currentRevisionId = row.baseCurrentRevisionId &&
        db.attached row.projectId source.id &&
        (db.latestRevision source.id).any (·.id = row.baseRevisionId)))
    fun row => { row with
      state := .queued
      modelSnapshot := model
      tokenLimit := bound
      deadlineAt := some (now + job.pageCount * OcrLimits.pageTimeoutMs + 60000)
      startedAt := some now }

def Db.failStart (db : Db) (jobId : Uuid) (now : Nat) : Nat × Db :=
  db.updateJob jobId (fun row => row.state = .queued && row.calls = 0)
    fun row => { row with
      state := .failed
      error := some (text "Workflow start could not be confirmed. This job will not be dispatched again.")
      finishedAt := some now }

def startOcrJob (tools : Tools) (actor : Actor) (scope : OcrScope) : Task OcrRow := do
  let job ← scopedJob actor scope
  if job.state ≠ .preparing then return job
  else if job.pages.length ≠ job.pageCount ||
      !(List.range job.pageCount).all fun earlier => (job.page (earlier + 1)).isSome then
    fail "Upload every PDF page before Start."
  else
    let base ← sourceBase actor scope.projectId scope.sourceId
    if base.revision.id ≠ job.baseRevisionId || base.currentRevisionId ≠ job.baseCurrentRevisionId ||
        base.revision.result.readableState = .pending then
      fail "The latest source revision or readable head changed before OCR Start."
    else
      let model ← imageModel (← requireAvailableModel job.modelRoute)
      if !tools.ocrConfigured then fail "PDF OCR workflow is not configured."
      else
        let time ← now
        let bound := job.pageCount * (← ofExcept (modelTokenReservation model))
        let _ ← execute fun db => db.sweepDeadlines time
        let admitted ← execute fun db => db.admitOcr job model bound time
        if admitted = 0 then
          let current ← loadOcrRow job.id
          if current.state ≠ .preparing then return current
          else fail "Two OCR jobs are already active, or page uploads changed. Start explicitly after they finish."
        else
          if !(← ask fun choice => .ok choice.confirms) then
            let finished ← now
            let _ ← execute fun db => db.failStart job.id finished
          loadOcrRow job.id

def Body.text? : Body → Option Text
  | .text content => some content
  | _ => none

def readOcrPreview (tools : Tools) (actor : Actor) (scope : OcrScope) : Task Text := do
  let job ← scopedJob actor scope
  if (job.state ≠ .ready && job.state ≠ .applied) || job.previewSha256.isNone then
    fail "A complete OCR preview is not available."
  else
    match (← get (.ocrPreview job.baseRevisionId job.id)) with
    | none => fail "OCR preview is missing from storage."
    | some object =>
      if some object.size ≠ job.previewSize || some (tools.sha256 object.body) ≠ job.previewSha256 then
        fail "OCR preview integrity check failed."
      else
        match object.body.text? with
        | none => .throw .other
        | some content => return content

def Db.cancelOcr (db : Db) (jobId : Uuid) (now : Nat) : Nat × Db :=
  db.updateJob jobId
    (fun row => row.state = .preparing || row.state = .queued || row.state = .running || row.state = .ready)
    fun row => { row with
      state := .cancelled
      error := some (text "Stopped by owner. An in-flight page may still finish and record usage.")
      finishedAt := some now }

def cancelOcrJob (actor : Actor) (scope : OcrScope) : Task OcrRow := do
  let job ← scopedJob actor scope
  let time ← now
  let _ ← execute fun db => db.cancelOcr job.id time
  loadOcrRow job.id

def reviewed (tools : Tools) (id sourceId : Uuid) (content : Text) (job : OcrRow) (base : Revision)
    (revisionNo : Nat) : Revision :=
  let warning := tools.readableTextWarning content
  { id
    sourceId
    revisionNo
    original := base.original
    result :=
      { readableState := if warning.isSome then .readableWithWarnings else .readable
        converter := some (text "reviewed_ocr")
        readableSize := some (tools.size (.text content))
        blockCount := some (tools.blockCount content)
        warningSummary := warning
        error := none
        conversionTokens := do
          let input ← job.inputTokens
          let output ← job.outputTokens
          some (input + output)
        conversionCalls := job.calls
        conversionMs := do
          let finished ← job.finishedAt
          let started ← job.startedAt
          some ((finished : Int) - started) }
    deletedAt := none }

def Db.applicable (db : Db) (jobId : Uuid) : Option (OcrRow × Revision) := do
  let row ← db.jobs.find jobId
  let source ← db.sources.find row.sourceId
  let base ← db.revisions.find row.baseRevisionId
  if row.state = .ready && source.currentRevisionId = row.baseCurrentRevisionId &&
      source.state ≠ .deleted && base.deletedAt.isNone &&
      (db.live source.id).all (·.revisionNo ≤ base.revisionNo) &&
      db.attached row.projectId source.id then
    some (row, base)
  else none

/-- `INSERT INTO source_revision … SELECT … FROM source_ocr_job j … WHERE j.id=? AND` the job is
    applicable. -/
def Db.insertReviewed (db : Db) (tools : Tools) (id : Uuid) (content : Text) (job : OcrRow) :
    Option (Nat × Db) :=
  match db.applicable job.id with
  | none => some (0, db)
  | some (row, base) => do
    let last ← db.lastRevisionNo row.sourceId
    let db ← db.insertRevision (reviewed tools id row.sourceId content job base (last + 1))
    some (1, db)

def Db.moveReviewedHead (db : Db) (id : Uuid) (job : OcrRow) : Option (Nat × Db) :=
  db.moveHead job.sourceId id fun source =>
    source.currentRevisionId = job.baseCurrentRevisionId && (db.revisions.find id).isSome

def Db.markApplied (db : Db) (id : Uuid) (job : OcrRow) : Nat × Db :=
  let headed := (db.sources.find job.sourceId).any (·.currentRevisionId = some id)
  db.updateJob job.id (fun row => row.state = .ready && headed)
    fun row => { row with state := .applied, appliedRevisionId := some id }

def Db.staleAfter (db : Db) (id : Uuid) (job : OcrRow) : Db :=
  let applied := (db.jobs.find job.id).any (·.appliedRevisionId = some id)
  db.markStale fun page =>
    db.builtOn (job.baseCurrentRevisionId.getD job.baseRevisionId) page && applied

/-- The batch of `applyOcrJob`, with the change count of its first statement. -/
def applyBatch (tools : Tools) (id : Uuid) (content : Text) (job : OcrRow) (db : Db) :
    Option (Nat × Db) := do
  let (inserted, db) ← db.insertReviewed tools id content job
  let (_, db) ← db.moveReviewedHead id job
  some (inserted, (db.markApplied id job).2.staleAfter id job)

/-- `input.text ?? await readOcrPreview(…)` -/
def reviewedContent (tools : Tools) (actor : Actor) (scope : OcrScope) : Option Text → Task Text
  | some content => return content
  | none => readOcrPreview tools actor scope

def applyOcrJob (tools : Tools) (number : Nat) (actor : Actor) (scope : OcrScope)
    (reviewedText : Option Text) : Task Uuid := do
  let job ← scopedJob actor scope
  match job.state, job.appliedRevisionId with
  | .applied, some revisionId => return revisionId
  | .ready, _ =>
    let content ← reviewedContent tools actor scope reviewedText
    if (Text.trim content).isEmpty || OcrLimits.previewBytes < tools.size (.text content) then
      fail "Reviewed OCR text must be non-empty and at most 25 MiB."
    else
      let id := Uuid.drawn number 0
      putOcrArtifact tools (.text id) (.text content) none
      putOcrArtifact tools (.blocks id) (.blocks content) none
      let inserted ← d1 (applyBatch tools id content job)
      if inserted ≠ 0 then return id
      else
        let current ← loadOcrRow job.id
        match current.state, current.appliedRevisionId with
        | .applied, some revisionId => return revisionId
        | _, _ =>
          fail "The source changed after this OCR preview was prepared. No current revision was replaced."
  | _, _ => fail "Only a complete reviewed OCR preview can be applied."

end Library
