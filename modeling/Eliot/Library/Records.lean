import Eliot.Relational.Table
import Eliot.Store.Identity

namespace Library
open Relational

inductive SourceState where
  | active
  | archived
  | deleted
deriving DecidableEq

inductive Key where
  | original (revisionId : Uuid) (copy : Option Uuid)
  | text (revisionId : Uuid)
  | blocks (revisionId : Uuid)
  | ocrImage (baseRevisionId jobId : Uuid) (ordinal : Nat)
  | ocrPage (baseRevisionId jobId : Uuid) (ordinal : Nat)
  | ocrPreview (baseRevisionId jobId : Uuid)
  | ocrReport (baseRevisionId jobId : Uuid)
deriving DecidableEq

def Key.drawnBy (number : Nat) : Key → Bool
  | .original revisionId none => revisionId.drawnBy number
  | .original _ (some copy) => copy.drawnBy number
  | _ => false

structure Source where
  id : Uuid
  currentRevisionId : Option Uuid
  state : SourceState

/-- What was captured: the `original_*` columns, which every insert fills. -/
structure Original where
  key : Key
  sha256 : Text
  size : Nat
  filename : Text
  mime : Text

structure RevisionResult where
  readableState : ReadableState
  converter : Option Text
  readableSize : Option Nat
  blockCount : Option Nat
  warningSummary : Option Text
  error : Option Text
  conversionTokens : Option Nat
  conversionCalls : Nat
  conversionMs : Option Int

/-- A `source_revision` row as the Library sees it. -/
structure Revision where
  id : Uuid
  sourceId : Uuid
  revisionNo : Nat
  original : Original
  result : RevisionResult
  deletedAt : Option Nat

structure ProjectSource where
  projectId : Uuid
  sourceId : Uuid
deriving DecidableEq

structure ModelSpec where
  route : Text
  contextTokens : Nat
  maxOutputTokens : Option Nat
  outputReserveTokens : Option Nat
  supportsImages : Option Bool
deriving DecidableEq

inductive OcrState where
  | preparing
  | queued
  | running
  | ready
  | failed
  | cancelled
  | applied
deriving DecidableEq

structure OcrPage where
  sha256 : Text
  bytes : Nat
  width : Nat
  height : Nat
deriving DecidableEq

/-- A `source_ocr_job` row. -/
structure OcrRow where
  id : Uuid
  projectId : Uuid
  sourceId : Uuid
  baseRevisionId : Uuid
  baseCurrentRevisionId : Option Uuid
  modelRoute : Text
  modelSnapshot : ModelSpec
  pageCount : Nat
  /-- `pages_json`, in ascending order of the page numbers. -/
  pages : List (Nat × OcrPage)
  state : OcrState
  calls : Nat
  completedPages : Nat
  tokenLimit : Nat
  inputTokens : Option Nat
  cachedTokens : Option Nat
  outputTokens : Option Nat
  deadlineAt : Option Nat
  previewSha256 : Option Text
  previewSize : Option Nat
  error : Option Text
  appliedRevisionId : Option Uuid
  startedAt : Option Nat
  finishedAt : Option Nat

inductive Freshness where
  | current
  | stale

structure Page where
  id : Uuid
  projectId : Uuid
  kind : Text
  title : Text
  headRevisionId : Option Uuid
  freshness : Freshness

inductive PageRevisionStatus where
  | proposed
  | accepted
  | rejected
deriving DecidableEq

/-- A `page_revision` row; `inputs` is its `inputs_json`, always an array of identities. -/
structure PageRevision where
  id : Uuid
  pageId : Uuid
  revisionNo : Nat
  status : PageRevisionStatus
  inputs : List Uuid
  mutationId : Text
  baseRevisionId : Option Uuid

structure Db where
  projects : List Uuid
  sources : Table Source Uuid (·.id)
  revisions : Table Revision Uuid (·.id)
  projectSources : Table ProjectSource ProjectSource id
  jobs : Table OcrRow Uuid (·.id)
  pages : Table Page Uuid (·.id)
  pageRevisions : Table PageRevision Uuid (·.id)

abbrev Statement (α : Type) := Db → Option (α × Db)

namespace Db

variable (db : Db)

/-- `UPDATE source_ocr_job SET … WHERE …`, with the number of changed rows. -/
def updateJobs (test : OcrRow → Bool) (change : OcrRow → OcrRow)
    (keeps : ∀ row, (change row).id = row.id := by intro; rfl) : Nat × Db :=
  (db.jobs.count test, { db with jobs := db.jobs.update test change keeps })

def updateJob (id : Uuid) (test : OcrRow → Bool) (change : OcrRow → OcrRow)
    (keeps : ∀ row, (change row).id = row.id := by intro; rfl) : Nat × Db :=
  db.updateJobs (fun row => row.id = id && test row) change keeps

def live (sourceId : Uuid) : List Revision :=
  db.revisions.rows.filter fun row => row.sourceId = sourceId && row.deletedAt.isNone

/-- `SELECT MAX(revision_no) FROM source_revision WHERE source_id=?` -/
def lastRevisionNo (sourceId : Uuid) : Option Nat :=
  ((db.revisions.rows.filter (·.sourceId = sourceId)).map (·.revisionNo)).max?

/-- `… WHERE source_id=? AND deleted_at IS NULL ORDER BY revision_no DESC LIMIT 1` -/
def latestRevision (sourceId : Uuid) : Option Revision :=
  (db.live sourceId).find? fun row => (db.live sourceId).all (·.revisionNo ≤ row.revisionNo)

def attached (projectId sourceId : Uuid) : Bool :=
  (db.projectSources.find ⟨projectId, sourceId⟩).isSome

/-- `INSERT INTO source_revision`, with `UNIQUE(source_id,revision_no)` and the reference to its
    source. -/
def insertRevision (row : Revision) : Option Db :=
  if (db.sources.find row.sourceId).isNone then none
  else if db.revisions.rows.any fun other =>
      other.sourceId = row.sourceId && other.revisionNo = row.revisionNo then none
  else (db.revisions.insert row).map fun revisions => { db with revisions }

/-- What `source_current_revision_guard` demands of a new head. -/
def mayHead (sourceId revisionId : Uuid) : Bool :=
  (db.revisions.find revisionId).any fun row =>
    row.sourceId = sourceId && row.result.readableState.isReadable && row.deletedAt.isNone

/-- `UPDATE source SET current_revision_id=? WHERE id=? AND …` -/
def moveHead (sourceId revisionId : Uuid) (test : Source → Bool) : Option (Nat × Db) :=
  let changed (row : Source) : Bool := row.id = sourceId && test row
  if db.sources.rows.any changed && !db.mayHead sourceId revisionId then none
  else some (db.sources.count changed, { db with
    sources := db.sources.update changed fun row => { row with currentRevisionId := some revisionId } })

/-- `head_revision_id IN (SELECT pr.id FROM page_revision pr JOIN json_each(pr.inputs_json) i
    WHERE pr.status='accepted' AND i.value=?)` -/
def builtOn (revisionId : Uuid) (page : Page) : Bool :=
  page.headRevisionId.any fun head => (db.pageRevisions.find head).any fun row =>
    row.status = .accepted && row.inputs.contains revisionId

/-- `UPDATE page SET freshness='stale' WHERE …` -/
def markStale (test : Page → Bool) : Db :=
  { db with pages := db.pages.update test fun page => { page with freshness := .stale } }

end Db

end Library
