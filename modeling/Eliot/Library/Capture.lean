import Eliot.Library.Completion

namespace Library
open Relational Async

def maxSourceBytes : Nat := 25 * 1024 * 1024

def getProject (projectId : Uuid) : Task Unit := do
  if (← query (·.projects.contains projectId)) then return () else fail "Project not found."

namespace Db

variable (db : Db)

/-- `SELECT MAX(r.revision_no) FROM project_source ps JOIN source_revision r …` -/
def attachedRevisionNo (projectId sourceId : Uuid) : Option Nat :=
  if db.attached projectId sourceId then db.lastRevisionNo sourceId else none

def captured (revisionId : Uuid) : Option (Revision × Source) := do
  let row ← db.revisions.find revisionId
  let source ← db.sources.find row.sourceId
  some (row, source)

def duplicate (hash : Text) (other : Uuid → Bool) : Bool :=
  db.revisions.rows.any fun row => row.original.sha256 = hash && row.deletedAt.isNone &&
    (db.sources.find row.sourceId).any fun source => source.state ≠ .deleted && other source.id

/-- `INSERT INTO source … SELECT … WHERE NOT EXISTS(…)` -/
def insertSource (sourceId : Uuid) (hash : Text) : Option Db :=
  if db.duplicate hash fun _ => true then some db
  else (db.sources.insert ⟨sourceId, none, .active⟩).map fun sources => { db with sources }

/-- `INSERT INTO source_revision … SELECT … WHERE NOT EXISTS(…)`, with the number of rows. -/
def insertCaptured (row : Revision) : Option (Nat × Db) :=
  if db.duplicate row.original.sha256 (· ≠ row.sourceId) then some (0, db)
  else (db.insertRevision row).map (1, ·)

def insertMembership (projectId sourceId : Uuid) : Option Db :=
  if (db.sources.find sourceId).isNone then none
  else (db.projectSources.insert ⟨projectId, sourceId⟩).map fun projectSources =>
    { db with projectSources }

end Db

structure Captured where
  sourceId : Uuid
  revisionId : Uuid
  original : Original

/-- The row as `INSERT` and the defaults of the table make it. -/
def Captured.row (capture : Captured) (revisionNo : Nat) : Revision where
  id := capture.revisionId
  sourceId := capture.sourceId
  revisionNo
  original := capture.original
  result :=
    { readableState := .pending
      converter := none
      readableSize := none
      blockCount := none
      warningSummary := none
      error := none
      conversionTokens := none
      conversionCalls := 0
      conversionMs := none }
  deletedAt := none

/-- `row.original_key` is one of the keys that requests for this revision draw. -/
def hasCopyKey (revisionId : Uuid) : Key → Bool
  | .original id (some _) => id = revisionId
  | _ => false

def Captured.matches (capture : Captured) (row : Revision) (source : Source) : Bool :=
  row.sourceId = capture.sourceId && row.original.sha256 = capture.original.sha256 &&
    row.original.size = capture.original.size && row.original.filename = capture.original.filename &&
    row.original.mime = capture.original.mime && row.deletedAt.isNone && source.state ≠ .deleted &&
    hasCopyKey capture.revisionId row.original.key

/-- The batch of `addSource`, with the change count of the revision. -/
def captureBatch (projectId : Uuid) (capture : Captured) (revisionNo : Nat) (newSource : Bool)
    (db : Db) : Option (Nat × Db) := do
  if newSource then
    let db ← db.insertSource capture.sourceId capture.original.sha256
    let (inserted, db) ← db.insertCaptured (capture.row revisionNo)
    let db ← db.insertMembership projectId capture.sourceId
    some (inserted, db)
  else db.insertCaptured (capture.row revisionNo)

def collision {α : Type} : Task α :=
  fail "This revision ID already identifies a different file replacement."

def putOriginal (capture : Captured) (bytes : List Nat) (chosen : Bool) : Task Bool := do
  let object (etag : Text) : Object :=
    ⟨capture.original.key, .bytes bytes, bytes.length, none, none, etag⟩
  if chosen then return (← putNew object).isSome
  else
    let _ ← put object
    return true

/-- `await env.BUCKET.delete(originalKey).catch(() => undefined)` -/
def discardOriginal (capture : Captured) : Task Unit := do
  let _ ← (delete capture.original.key).attempt

def settleCapture (capture : Captured) (input : NewSource) (failure : Failure) : Task Bool := do
  match (← query (·.captured capture.revisionId)) with
  | some (row, source) =>
    if input.revisionId.isNone then return true
    else
      if row.original.key ≠ capture.original.key then discardOriginal capture
      if !capture.matches row source then collision
      else return row.original.key = capture.original.key
  | none =>
    discardOriginal capture
    let raced ← query (·.duplicate capture.original.sha256 (· ≠ capture.sourceId))
    if raced then fail "This exact source was just added to the Library. Attach it."
    else if input.sourceId.isSome then
      fail "The source changed while replacing it. Reload and try again."
    else .throw failure

/-- `try { const saved = await env.DB.batch(statements); … } catch …` -/
def commitCapture (projectId : Uuid) (capture : Captured) (input : NewSource) (revisionNo : Nat) :
    Task Bool := do
  match (← (d1 (captureBatch projectId capture revisionNo input.sourceId.isNone)).attempt) with
  | .ok inserted =>
    if inserted ≠ 0 then return true else settleCapture capture input .other
  | .error failure => settleCapture capture input failure

def Db.noteUnavailable (db : Db) (revisionId : Uuid) : Nat × Db :=
  db.updateRevisions (fun row => row.id = revisionId && row.result.readableState = .pending)
    fun result => { result with error := some statusUnavailable }

def startIngest (revisionId : Uuid) : Task Unit := do
  if (← ask fun choice => .ok (choice.confirms || choice.present)) then return ()
  else
    let _ ← execute fun db => db.noteUnavailable revisionId

def nextRevisionNo (projectId : Uuid) : Option Uuid → Task Nat
  | none => return 1
  | some sourceId => do
    match (← query (·.attachedRevisionNo projectId sourceId)) with
    | none => fail "Attach this source before replacing it."
    | some last => return last + 1

def priorCapture (capture : Captured) : Option Uuid → Task Bool
  | none => return false
  | some _ => do
    match (← query (·.captured capture.revisionId)) with
    | none => return false
    | some (row, source) => if capture.matches row source then return true else collision

def NewSource.capture (input : NewSource) (tools : Tools) (number : Nat) : Captured :=
  let revisionId := input.revisionId.getD (.drawn number 1)
  { sourceId := input.sourceId.getD (.drawn number 0)
    revisionId
    original :=
      { key := .original revisionId (input.revisionId.map fun _ => .drawn number 2)
        sha256 := tools.sha256 (.bytes input.bytes)
        size := input.bytes.length
        filename := input.filename
        mime := input.mimeType } }

def addSource (tools : Tools) (number : Nat) (projectId : Uuid) (input : NewSource) : Task Receipt := do
  getProject projectId
  if input.revisionId.isSome && (input.sourceId.isNone || input.kind ≠ .file) then
    fail "A replacement revision UUID requires one file and an attached source."
  else if input.bytes.isEmpty || maxSourceBytes < input.bytes.length then
    fail "Choose a non-empty source of at most 25 MiB."
  else
    let capture := input.capture tools number
    let receipt : Receipt := ⟨capture.sourceId, capture.revisionId⟩
    let revisionNo ← nextRevisionNo projectId input.sourceId
    if (← priorCapture capture input.revisionId) then return receipt
    else if (← query (·.duplicate capture.original.sha256 (· ≠ capture.sourceId))) then
      fail "This exact source is already in the Library. Attach it to this project."
    else if !(← putOriginal capture input.bytes input.revisionId.isSome) then
      fail "The original could not be saved without replacing an existing file. Select the file again."
    else if (← commitCapture projectId capture input revisionNo) then
      startIngest capture.revisionId
      return receipt
    else return receipt

/-- `INSERT INTO project_source … ON CONFLICT DO NOTHING` of an active source. -/
def attachSource (projectId sourceId : Uuid) : Task Unit := do
  getProject projectId
  let active ← query fun db => (db.sources.find sourceId).any (·.state = .active)
  if !active then fail "Archived sources cannot be attached to a project."
  else execute fun db => ((), (db.insertMembership projectId sourceId).getD db)

end Library
