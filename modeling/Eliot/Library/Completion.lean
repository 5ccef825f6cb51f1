import Eliot.Library.World

namespace Library
open Relational Async

def storageFailure : Text :=
  text "The original is saved, but conversion completion could not be confirmed. Reopen this source to retry saving the existing result; conversion will not run again."

def statusUnavailable : Text :=
  text "The original is saved, but conversion status could not be checked. The existing conversion may still be running. Reopen this source to check again."

def conflictNotice : Text :=
  text "A newer revision is current; this text stays available for existing citations."

structure LoadedRevision where
  revisionId : Uuid
  sourceId : Uuid
  revisionNo : Nat
  originalKey : Key
deriving DecidableEq

def LoadedRevision.identifies (loaded : LoadedRevision) (row : Revision) : Bool :=
  row.id = loaded.revisionId && row.sourceId = loaded.sourceId && row.revisionNo = loaded.revisionNo &&
    row.original.key = loaded.originalKey && row.deletedAt.isNone

def Db.loadRevision (db : Db) (revisionId : Uuid) : Option LoadedRevision := do
  let row ← db.revisions.find revisionId
  if row.deletedAt.isSome then none
  some ⟨row.id, row.sourceId, row.revisionNo, row.original.key⟩

def told (message : Option Text) : Option Text := message.filter (!·.isEmpty)

structure Expected where
  state : ReadableState
  error : Option Text
  warning : Option Text

def expected (stored : Stored) : Expected :=
  match stored.outcome with
  | .failed error => ⟨.failed, some error, none⟩
  | .needsConversion warning => ⟨.needsConversion, none, some warning⟩
  | .readable _ _ _ warning _ _ =>
    ⟨if (told warning).isSome then .readableWithWarnings else .readable, none, warning⟩

/-- `[p.warning, CONFLICT].filter(Boolean).join(" ")` -/
def conflictWarning (stored : Stored) : Text :=
  match told (expected stored).warning with
  | none => conflictNotice
  | some warning => warning ++ 32 :: conflictNotice

def resultMatches (row : RevisionResult) (stored : Stored) : Bool :=
  let normal := row.readableState = (expected stored).state && row.warningSummary = (expected stored).warning
  let (conflict, body) :=
    match stored.outcome with
    | .readable converter readableSize blockCount _ _ _ =>
      (row.readableState = .readableWithWarnings && row.warningSummary = some (conflictWarning stored),
        row.converter = some converter && row.readableSize = some readableSize &&
          row.blockCount = some blockCount)
    | _ => (false, true)
  (normal || conflict) && row.error = (expected stored).error && stored.calls ≤ row.conversionCalls &&
    (stored.tokens.isNone || row.conversionTokens = stored.tokens) &&
    row.conversionMs = some (stored.ms : Int) && body

/-- `readable_state='pending' OR (readable_state='failed' AND error=?)` -/
def writable (result : RevisionResult) : Bool :=
  result.readableState = .pending ||
    result.readableState = .failed && result.error = some storageFailure

def Stored.result (stored : Stored) (old : RevisionResult) : RevisionResult :=
  let written : RevisionResult :=
    { old with
      readableState := (expected stored).state
      error := (expected stored).error
      warningSummary := (expected stored).warning
      conversionTokens := old.conversionTokens.or stored.tokens
      conversionCalls := max old.conversionCalls stored.calls
      conversionMs := some stored.ms }
  match stored.outcome with
  | .readable converter readableSize blockCount _ _ _ =>
    { written with
      converter := some converter, readableSize := some readableSize, blockCount := some blockCount }
  | _ => written

def terminalGuard (stored : Stored) (before : RevisionResult) (row : RevisionResult) : Bool :=
  match stored.outcome with
  | .readable converter readableSize blockCount _ _ _ =>
    row.converter = some converter && row.readableSize = some readableSize &&
      row.blockCount = some blockCount && row.conversionMs = some (stored.ms : Int) &&
      row.error.isNone && row.conversionTokens = before.conversionTokens.or stored.tokens &&
      row.conversionCalls = max before.conversionCalls stored.calls &&
      (row.readableState = (expected stored).state && row.warningSummary = (expected stored).warning ||
        row.readableState = .readableWithWarnings && row.warningSummary = some (conflictWarning stored))
  | _ => false

namespace Db

variable (db : Db)

def updateRevisions (test : Revision → Bool) (change : RevisionResult → RevisionResult) : Nat × Db :=
  (db.revisions.count test, { db with
    revisions := db.revisions.update test fun row => { row with result := change row.result } })

def writeResult (loaded : LoadedRevision) (stored : Stored) : Nat × Db :=
  db.updateRevisions (fun row => loaded.identifies row && writable row.result) stored.result

def newerReadable (sourceId : Uuid) (revisionNo : Nat) : Bool :=
  (db.live sourceId).any fun row => revisionNo < row.revisionNo && row.result.readableState.isReadable

def headGuard (loaded : LoadedRevision) (stored : Stored) (before : RevisionResult) (source : Source) :
    Bool :=
  source.id = loaded.sourceId && source.state ≠ .deleted &&
    source.currentRevisionId.all (fun current => db.revisions.rows.any fun row =>
      row.id = current && row.sourceId = loaded.sourceId && row.revisionNo < loaded.revisionNo) &&
    !db.newerReadable loaded.sourceId loaded.revisionNo &&
    db.revisions.rows.any fun row => row.id = loaded.revisionId && row.sourceId = loaded.sourceId &&
      row.deletedAt.isNone && terminalGuard stored before row.result

def staleOld (loaded : LoadedRevision) (stored : Stored) (before : RevisionResult) : Db :=
  let current := (db.sources.find loaded.sourceId).bind (·.currentRevisionId)
  let moves := db.sources.rows.any (db.headGuard loaded stored before)
  db.markStale fun page => current.any (db.builtOn · page) && moves

def publish (loaded : LoadedRevision) (stored : Stored) (before : RevisionResult) : Option (Nat × Db) :=
  db.moveHead loaded.sourceId loaded.revisionId (db.headGuard loaded stored before)

def noteConflict (loaded : LoadedRevision) (stored : Stored) (before : RevisionResult) : Nat × Db :=
  let newer := db.newerReadable loaded.sourceId loaded.revisionNo
  db.updateRevisions (fun row => row.id = loaded.revisionId && row.sourceId = loaded.sourceId &&
      row.deletedAt.isNone && terminalGuard stored before row.result && newer)
    fun result => { result with
      readableState := .readableWithWarnings
      warningSummary := some (conflictWarning stored) }

end Db

/-- The batch of `commitRevision`, with the change count of the head. -/
def commitBatch (loaded : LoadedRevision) (stored : Stored) (before : RevisionResult) (db : Db) :
    Option (Nat × Db) :=
  let db := (db.writeResult loaded stored).2
  match stored.outcome with
  | .readable .. => do
    let (advanced, db) ← (db.staleOld loaded stored before).publish loaded stored before
    some (advanced, (db.noteConflict loaded stored before).2)
  | _ => some (0, db)

def readResult (loaded : LoadedRevision) : Task (Option RevisionResult) :=
  query fun db => ((db.revisions.find loaded.revisionId).filter loaded.identifies).map (·.result)

def checkArtifacts (loaded : LoadedRevision) (stored : Stored) : Task Unit := do
  match stored.outcome with
  | .readable _ readableSize _ _ textEtag blocksEtag =>
    let content ← get (.text loaded.revisionId)
    let blocks ← get (.blocks loaded.revisionId)
    if content.any (fun object => object.etag = textEtag && object.size = readableSize) &&
        blocks.any (·.etag = blocksEtag) then
      return ()
    else .throw .other
  | _ => return ()

def confirmHead (loaded : LoadedRevision) (stored : Stored) : Task Unit := do
  match stored.outcome with
  | .readable .. =>
    let confirmed ← query fun db => (db.sources.find loaded.sourceId).any fun source =>
      source.state ≠ .deleted && (source.currentRevisionId = some loaded.revisionId ||
        db.newerReadable loaded.sourceId loaded.revisionNo)
    if confirmed then return () else .throw .other
  | _ => return ()

structure CommitOutcome where
  /-- The state of the row, or nothing for `"unavailable-revision"`. -/
  outcome : Option ReadableState
  advanced : Bool

def commitRevision (loaded : LoadedRevision) (stored : Stored) : Task CommitOutcome := do
  match (← readResult loaded) with
  | none => return ⟨none, false⟩
  | some before =>
    if !writable before && !resultMatches before stored then .throw .other
    else
      checkArtifacts loaded stored
      let advanced ← (d1 (commitBatch loaded stored before)).attempt
      match (← readResult loaded) with
      | none => .throw .other
      | some after =>
        if !resultMatches after stored then .throw .other
        else
          confirmHead loaded stored
          return ⟨some after.readableState, match advanced with
            | .ok changes => 0 < changes
            | .error _ => false⟩

def Db.recordStorageFailure (db : Db) (revisionId : Uuid) (stored : Option Stored) : Nat × Db :=
  db.updateRevisions
    (fun row => row.id = revisionId && row.result.readableState = .pending && row.deletedAt.isNone)
    fun result => { result with
      readableState := .failed
      error := some storageFailure
      conversionTokens := result.conversionTokens.or (stored.bind (·.tokens))
      conversionCalls := max result.conversionCalls ((stored.map (·.calls)).getD 0)
      conversionMs := result.conversionMs.or (stored.map fun stored => (stored.ms : Int)) }

def recordStorageFailure (revisionId : Uuid) (stored : Option Stored) : Task Unit := do
  let _ ← execute fun db => db.recordStorageFailure revisionId stored

def Db.clearNotice (db : Db) (revisionId : Uuid) : Nat × Db :=
  db.updateRevisions (fun row => row.id = revisionId && row.result.readableState = .pending &&
      (row.result.error = some statusUnavailable || row.result.error = some storageFailure))
    fun result => { result with error := none }

def takeOver (revisionId : Uuid) : Option Stored → Task (Option Text)
  | some stored => do
    match (← query (·.loadRevision revisionId)) with
    | none => return none
    | some loaded =>
      let _ ← commitRevision loaded stored
      return none
  | none => do
    recordStorageFailure revisionId none
    return some storageFailure

def recoverIngest (revisionId : Uuid) : Task (Option Text) := do
  match (← ask fun choice => .ok choice.status) with
  | .unreachable | .unknown => return some statusUnavailable
  | .active =>
    match (← (execute fun db => db.clearNotice revisionId).attempt) with
    | .ok _ => return none
    | .error _ => return some statusUnavailable
  | .complete stored =>
    match (← (takeOver revisionId stored).attempt) with
    | .ok notice => return notice
    | .error _ => return some storageFailure
  | .stopped =>
    match (← (takeOver revisionId none).attempt) with
    | .ok notice => return notice
    | .error _ => return some storageFailure

/-- What `convertAndStore` writes: the claim of the one paid conversion. -/
def Db.claimConversion (db : Db) (revisionId : Uuid) : Nat × Db :=
  db.updateRevisions (fun row => row.id = revisionId && row.result.conversionCalls = 0 &&
      row.result.readableState = .pending && row.deletedAt.isNone)
    fun result => { result with conversionCalls := 1, converter := some (text "workers_ai_markdown") }

/-- What `convertAndStore` writes: the text and its blocks. -/
def storeReadable (tools : Tools) (revisionId : Uuid) (content : Text) : Task Unit := do
  let put (key : Key) (body : Body) : Task Unit := do
    if (← putNew fun etag => ⟨key, body, tools.size body, none, none, etag⟩).isNone then .throw .other
  put (.text revisionId) (.text content)
  put (.blocks revisionId) (.blocks content)

end Library
