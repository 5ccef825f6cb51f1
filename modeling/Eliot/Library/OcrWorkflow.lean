import Eliot.Library.Ocr

namespace Library
open Relational Async

def count (value : Option Nat) : Option Nat := value.filter (· ≤ Text.maxSafeInteger)

def total (first second : Option Nat) : Option Nat := do
  let first ← first
  let second ← second
  some (first + second)

def storedCount (total : Option Nat) : Option Nat := count total

def safeFailure : Failure → Text
  | .library message => message
  | _ => text "OCR could not finish. Saved output is retained; no paid call is retried."

def Db.checkpointPageUsage (db : Db) (id : Uuid) (ordinal : Nat) (metadata : PageMetadata) : Nat × Db :=
  db.updateJob id (fun row => row.calls = ordinal && row.completedPages + 1 = ordinal)
    fun row => { row with
      inputTokens := storedCount metadata.inputTotal
      cachedTokens := storedCount metadata.cachedTotal
      outputTokens := storedCount metadata.outputTotal }

def checkpointPageUsage (id : Uuid) (ordinal : Nat) (metadata : PageMetadata) : Task Unit := do
  let _ ← execute fun db => db.checkpointPageUsage id ordinal metadata

def Db.retainReason (db : Db) (id : Uuid) (reason : Text) : Nat × Db :=
  db.updateJob id (fun row => row.state = .queued || row.state = .running || row.state = .failed)
    fun row => { row with error := row.error.or (some reason) }

def retainStepFailure {α : Type} (id : Uuid) (operation : Task α) : Task α := do
  match (← operation.attempt) with
  | .ok value => return value
  | .error failure =>
    let reason := safeFailure failure
    let _ ← Program.attempt <| execute fun db => db.retainReason id reason
    .throw (.library reason)

def frozenModel (job : OcrRow) : Except Failure ModelSpec := do
  let changed : Except Failure ModelSpec :=
    .error (.library (text "The admitted OCR model or token bound changed. No call was started."))
  if job.modelSnapshot.route ≠ job.modelRoute then changed
  else if job.tokenLimit ≠ job.pageCount * (← modelTokenReservation job.modelSnapshot) then changed
  else return job.modelSnapshot

def Db.settlePage (db : Db) (id : Uuid) (ordinal : Nat) (complete : Bool) (error : Option Text)
    (totals : Usage) : Nat × Db :=
  db.updateJob id (fun row => row.calls = ordinal && row.completedPages + 1 = ordinal &&
      (row.state = .running || row.state = .cancelled || row.state = .failed))
    fun row => { row with
      completedPages := row.completedPages + if complete then 1 else 0
      inputTokens := totals.input
      cachedTokens := totals.cached
      outputTokens := totals.output
      state := if !complete && row.state = .running then .failed else row.state
      error := if !complete && row.state = .running then error else row.error }

def settlePage (tools : Tools) (job : OcrRow) (ordinal : Nat) (object : Object) : Task Unit := do
  if some (tools.sha256 object.body) ≠ object.sha256 then fail "Stored OCR page integrity check failed."
  else
    match object.body.text? with
    | none => .throw .other
    | some content =>
      let complete := !(Text.trim content).isEmpty && object.metadata.any fun metadata =>
        metadata.finish = text "stop" && metadata.failure.isEmpty
      let incomplete := text "OCR returned an incomplete page. No continuation was started."
      let failure := (object.metadata.map (·.failure)).getD []
      let error := if complete then none else some (if failure.isEmpty then incomplete else failure)
      let total (read : PageMetadata → Option Nat) : Option Nat :=
        object.metadata.bind fun metadata => storedCount (read metadata)
      let _ ← execute fun db => db.settlePage job.id ordinal complete error
        ⟨total (·.inputTotal), total (·.cachedTotal), total (·.outputTotal)⟩
      if !complete then .throw (.library (error.getD (text "OCR page is incomplete.")))

def mayDispatch (db : Db) (job : OcrRow) (ordinal tokenBound now : Nat) (row : OcrRow) : Bool :=
  row.id = job.id && row.state = .running && row.calls + 1 = ordinal &&
    row.completedPages + 1 = ordinal && row.deadlineAt.any (now < ·) &&
    (row.calls + 1) * tokenBound ≤ row.tokenLimit && row.modelSnapshot = job.modelSnapshot &&
    db.attached row.projectId row.sourceId &&
    (db.sources.find row.sourceId).any (·.state ≠ .deleted) &&
    (db.revisions.find row.baseRevisionId).any (·.deletedAt.isNone)

/-- The claim of a page, which `CHECK(calls<=page_count)` may abort. -/
def Db.dispatchPage (db : Db) (job : OcrRow) (ordinal tokenBound now : Nat) : Option (Nat × Db) :=
  let test := mayDispatch db job ordinal tokenBound now
  if db.jobs.rows.any fun row => test row && row.pageCount ≤ row.calls then none
  else some (db.updateJobs test fun row => { row with
    calls := row.calls + 1, inputTokens := none, cachedTokens := none, outputTokens := none })

def dispatchPage (number : Nat) (job : OcrRow) (ordinal tokenBound now : Nat) : Task Nat :=
  call fun _ world => (world.db.dispatchPage job ordinal tokenBound now).map fun (changes, db) =>
    (changes, { world with
      db
      history :=
        if changes = 0 then world.history
        else { world.history with
          dispatched := (⟨job.id, ordinal⟩, number) :: world.history.dispatched } })

def History.send (history : History) (dispatch : Dispatch) (usage : Option Usage) : History :=
  { history with
    sent := dispatch :: history.sent
    reported := (usage.map fun usage => (dispatch, usage)).toList ++ history.reported }

def generateText (dispatch : Dispatch) : Task Generated :=
  .request fun choice world =>
    match choice.generated with
    | .ok generated =>
      let usage : Usage :=
        ⟨count generated.usage.input, count generated.usage.cached, count generated.usage.output⟩
      (.ok { generated with usage },
        { world with history := world.history.send dispatch (some usage) })
    | .error report =>
      (.error (.library report), { world with history := world.history.send dispatch none })

def pageFailure (generated : Generated) (tokenBound : Nat) : Text :=
  let overBound := (total generated.usage.input generated.usage.output).any (tokenBound < ·)
  if overBound then text "Reported OCR usage exceeded the admitted page token bound."
  else if generated.finishReason ≠ text "stop" || (Text.trim generated.text).isEmpty then
    text "OCR returned an incomplete page (" ++ generated.finishReason ++
      text "). No continuation was started."
  else []

def keepPage (tools : Tools) (id : Uuid) (job : OcrRow) (ordinal tokenBound started : Nat)
    (generated : Generated) : Task Nat := do
  let finished ← now
  let usage := generated.usage
  let metadata : PageMetadata :=
    { finish := generated.finishReason
      failure := pageFailure generated tokenBound
      inputTotal := total job.inputTokens usage.input
      cachedTotal := total job.cachedTokens usage.cached
      outputTotal := total job.outputTokens usage.output
      input := usage.input
      cached := usage.cached
      output := usage.output
      ms := (finished : Int) - started }
  let outputKey := Key.ocrPage job.baseRevisionId job.id ordinal
  match (← (putOcrArtifact tools outputKey (.text generated.text) (some metadata)).attempt) with
  | .error failure =>
    checkpointPageUsage id ordinal metadata
    match failure with
    | .library message => .throw (.library message)
    | _ => fail "OCR page output could not be stored. No paid call will be repeated."
  | .ok () =>
    checkpointPageUsage id ordinal metadata
    match (← get outputKey) with
    | none => fail "OCR page output was not retained."
    | some object =>
      settlePage tools job ordinal object
      return ordinal

def runPage (tools : Tools) (number : Nat) (id : Uuid) (ordinal : Nat) : Task Nat := do
  let job ← loadOcrRow id
  if ordinal ≤ job.completedPages then return ordinal
  else
    match (← get (.ocrPage job.baseRevisionId job.id ordinal)) with
    | some saved =>
      if job.calls ≠ ordinal then fail "Saved OCR page does not match its dispatch ordinal."
      else
        settlePage tools job ordinal saved
        return ordinal
    | none =>
      if job.state ≠ .running || job.calls + 1 ≠ ordinal || job.completedPages + 1 ≠ ordinal then
        fail "OCR was stopped or this page was already dispatched. No paid step is repeated."
      else
        let time ← now
        if job.deadlineAt.all fun deadline => deadline = 0 || deadline ≤ time then
          fail "OCR reached its admitted deadline."
        else
          match job.page ordinal, (← get (.ocrImage job.baseRevisionId job.id ordinal)) with
          | some page, some image =>
            if image.size ≠ page.bytes then fail "A frozen OCR page is missing."
            else if tools.sha256 image.body ≠ page.sha256 then
              fail "A frozen OCR page checksum changed."
            else
              let model ← ofExcept (frozenModel job)
              let tokenBound ← ofExcept (modelTokenReservation model)
              ask fun choice => choice.transport
              let started ← now
              if job.deadlineAt.any (· ≤ started) then fail "OCR reached its admitted deadline."
              else
                let dispatched ← dispatchPage number job ordinal tokenBound started
                if dispatched = 0 then
                  fail "OCR dispatch was stopped or already consumed. No call is repeated."
                else
                  let time ← now
                  if job.deadlineAt.any (· ≤ time) then
                    fail "OCR reached its admitted deadline before the model call."
                  else
                    let generated ← generateText ⟨id, ordinal⟩
                    keepPage tools id job ordinal tokenBound started generated
          | _, _ => fail "A frozen OCR page is missing."

def OcrOutcome.state : OcrOutcome → OcrState
  | .ready => .ready
  | .failed => .failed
  | .cancelled => .cancelled

def closable (row : OcrRow) : Bool :=
  row.state = .queued || row.state = .running || row.state = .failed || row.state = .cancelled

def Db.closeJob (db : Db) (id : Uuid) (report : Report) : Nat × Db :=
  db.updateJob id closable fun row => { row with
    state := if row.state = .cancelled then row.state else report.state.state
    error := if row.state = .cancelled then row.error else row.error.or report.error
    previewSha256 := report.previewSha256
    previewSize := report.previewSize
    finishedAt := some report.finishedAt }

def Db.revives (db : Db) (id : Uuid) (report : Report) : Bool :=
  report.state ≠ .failed && (db.jobs.find id).any (·.state = .failed)

def closeJob (id : Uuid) (report : Report) : Task Nat :=
  call fun _ world =>
    let (changes, db) := world.db.closeJob id report
    let history := world.history
    some (changes, { world with
      db
      history :=
        if world.db.revives id report then { history with revived := id :: history.revived }
        else history })

def assemblePages (tools : Tools) (job : OcrRow) (size : Nat) (preview : Text) : List Nat → Task Text
  | [] => return preview
  | ordinal :: ordinals => do
    let time ← now
    if job.deadlineAt.all fun deadline => deadline = 0 || deadline < time then
      fail "OCR preview reached its job deadline."
    else
      match (← get (.ocrPage job.baseRevisionId job.id ordinal)) with
      | none => fail "A complete OCR page is unavailable."
      | some object =>
        if !object.metadata.any (·.finish = text "stop") then fail "A complete OCR page is unavailable."
        else if some (tools.sha256 object.body) ≠ object.sha256 then
          fail "Stored OCR page integrity check failed."
        else
          match object.body.text? with
          | none => .throw .other
          | some content =>
            if (Text.trim content).isEmpty then fail "OCR preview contains an empty page."
            else
              let page := text "# Page " ++ Text.decimal ordinal ++ text "\n\n" ++ content ++ text "\n\n"
              let size := size + tools.size (.text page)
              if OcrLimits.previewBytes < size then
                fail "OCR preview exceeds the 25 MiB application bound."
              else assemblePages tools job size (preview ++ page) ordinals

def makePreview (tools : Tools) (job : OcrRow) (failure : Option Failure) : Task (Option Text) := do
  if failure.isNone && job.state = .running && job.calls = job.pageCount &&
      job.completedPages = job.pageCount then
    let content ← assemblePages tools job 0 [] ((List.range job.pageCount).map (· + 1))
    putOcrArtifact tools (.ocrPreview job.baseRevisionId job.id) (.text content) none
    return some content
  else return none

def makeReport (tools : Tools) (job : OcrRow) (failure : Option Failure) : Task Report := do
  let preview ← makePreview tools job failure
  let finishedAt ← now
  let report : Report :=
    { state := if job.state = .cancelled then .cancelled else if preview.isSome then .ready else .failed
      error := job.error.or (failure.map safeFailure)
      finishedAt
      previewSha256 := preview.map fun content => tools.sha256 (.text content)
      previewSize := preview.map fun content => tools.size (.text content) }
  putOcrArtifact tools (.ocrReport job.baseRevisionId job.id) (.report report) none
  return report

def jobReport (tools : Tools) (job : OcrRow) (failure : Option Failure) : Task Report := do
  match (← get (.ocrReport job.baseRevisionId job.id)) with
  | none => makeReport tools job failure
  | some saved =>
    match saved.body with
    | .report report => return report
    | _ => .throw .other

def finishJob (tools : Tools) (id : Uuid) (failure : Option Failure) : Task Unit := do
  let job ← loadOcrRow id
  if job.state = .applied || job.state = .ready then return ()
  else
    let report ← jobReport tools job failure
    let _ ← closeJob id report

inductive OcrStep where
  | begin
  | page (ordinal : Nat)
  | assemble
  | recordFailure (failure : Failure)
  | giveUp

def Db.beginOcr (db : Db) (id : Uuid) (now : Nat) : Nat × Db :=
  db.updateJob id (fun row => row.state = .queued && row.deadlineAt.any (now < ·))
    fun row => { row with state := .running }

def beginOcr (id : Uuid) : Task Unit := do
  let job ← loadOcrRow id
  let _ ← ofExcept (frozenModel job)
  let time ← now
  let begun ← execute fun db => db.beginOcr id time
  if begun = 0 then fail "OCR is not queued or its deadline elapsed."

def Db.giveUp (db : Db) (id : Uuid) (now : Nat) : Nat × Db :=
  db.updateJob id closable fun row => { row with
    state := if row.state = .cancelled then row.state else .failed
    error := row.error.or (some (text "OCR storage could not be completed. No paid call will be retried."))
    finishedAt := some now }

def giveUp (id : Uuid) : Task Unit := do
  let time ← now
  let _ ← execute fun db => db.giveUp id time

def runStep (tools : Tools) (number : Nat) (id : Uuid) : OcrStep → Task Unit
  | .begin => retainStepFailure id (beginOcr id)
  | .page ordinal => retainStepFailure id do
    let _ ← runPage tools number id ordinal
    return ()
  | .assemble => retainStepFailure id (finishJob tools id none)
  | .recordFailure failure => finishJob tools id (some failure)
  | .giveUp => giveUp id

end Library
