import Eliot.Blocks.Citable
import Eliot.Tools.Budget
import Mathlib.Data.List.Lex
import Mathlib.Data.List.Sort

namespace Tools
open Text Context

structure Project where
  id : Text
  title : Text
  description : Text

structure ProjectPage where
  projects : List Project
  nextCursor : Option Text

structure ListedSource where
  id : Text
  title : Text
  kind : Text
  readableState : Text
  enabled : Bool
  currentRevisionId : Option Text
  revisionId : Text
  createdAt : Nat

structure SourcePage where
  sources : List ListedSource
  nextCursor : Option Text

structure ScopedRevision where
  sourceId : Text
  title : Text
  revisionId : Text
  readableState : Text
  readableSize : Option Nat
  blockCount : Option Nat
  distillState : Option Text

structure Attached extends ScopedRevision where
  projectId : Text
  enabled : Bool
  createdAt : Nat
  active : Bool
  currentRevisionId : Option Text
  deleted : Bool

structure ClaimHit where
  id : Text
  revisionId : Text
  sourceTitle : Text
  kind : Text
  statement : Text
  quote : Text
  block : Nat
  start : Nat
  stop : Nat

structure ClaimRow extends ClaimHit where
  current : Bool
  active : Bool
  deleted : Bool
  readable : Bool
  ambiguous : Bool
  ordinal : Nat
  claimCount : Nat

inductive PageKind where
  | overview | note | answer | report | wiki | map

def PageKind.name : PageKind → Text
  | .overview => prose "overview" rfl
  | .note => prose "note" rfl
  | .answer => prose "answer" rfl
  | .report => prose "report" rfl
  | .wiki => prose "wiki" rfl
  | .map => prose "map" rfl

structure SavedPage where
  id : Text
  title : Text
  kind : PageKind
  stale : Bool
  headRevisionId : Text
  characters : List Char
  citations : List Citations.Citation

def SavedPage.body (page : SavedPage) : Text := page.characters.flatMap units

structure Storage where
  getProject : Text → Except LibraryError Unit
  listProjects : Option Text → Except LibraryError ProjectPage
  listSources : Text → Option Text → Except LibraryError SourcePage
  getSource : Text → Except LibraryError ListedSource
  /-- The sources of a project. -/
  projectSources : Text → List Text
  /-- Those of them that are active, and if they are enabled. -/
  members : Text → List (Text × Bool)
  attached : List Attached
  outline : Text → Except LibraryError (List Blocks.Block)
  readable : Text → Except LibraryError Bytes
  guide : ScopedRevision → Except LibraryError (Option Text)
  claims : List ClaimRow
  /-- `claim_fts MATCH` -/
  found : Text → ClaimRow → Bool
  /-- The content of a claim `LIKE` a pattern. -/
  like : Text → ClaimRow → Bool
  page : Text → Text → Except LibraryError SavedPage
  /-- `[\p{L}\p{N}_]`, of a code point -/
  wordPoint : Text → Bool
  toLowerCase : Text → Text
  toUpperCase : Text → Text
  /-- The ids of claims are a primary key. -/
  claimIds : (claims.map (·.id)).Nodup
  /-- A revision belongs to one source, which is in a project once. -/
  attachedIds : ∀ project, ((attached.filter (·.projectId = project)).map (·.revisionId)).Nodup

variable (storage : Storage)

def Attached.isReadable (row : Attached) : Bool :=
  row.active && !row.deleted &&
    (row.readableState == prose "readable" rfl || row.readableState == prose "readable_with_warnings" rfl)

/-- `ORDER BY s.created_at ASC,s.id ASC` -/
def Attached.before (row other : Attached) : Prop :=
  row.createdAt < other.createdAt ∨ row.createdAt = other.createdAt ∧ row.sourceId ≤ other.sourceId

instance (row other : Attached) : Decidable (row.before other) := by
  unfold Attached.before
  infer_instance

def currentReadableScope (projectId : Text) (requested : Option (List Text)) :
    Except LibraryError (List ScopedRevision) := do
  storage.getProject projectId
  if requested.any fun ids => maxToolSourceScope < ids.length then
    invalid "Select at most 50 sources for this tool call."
  let ids := requested.map List.eraseDups
  if ids = some [] then return []
  if ids.any fun ids => !ids.all fun id => (storage.projectSources projectId).contains id then
    invalid "A selected source is outside this project."
  let rows := storage.attached.filter fun row => row.projectId = projectId && row.enabled && row.isReadable &&
    row.currentRevisionId = some row.revisionId && ids.all (·.contains row.sourceId)
  let result := ((rows.insertionSort Attached.before).take (maxToolSourceScope + 1)).map (·.toScopedRevision)
  if maxToolSourceScope < result.length then
    invalid ("This project has more than 50 enabled readable sources. Pass sourceIds from list_sources to narrow " ++
      "the scope.")
  if ids.any fun ids => result.length ≠ ids.length then
    invalid "Choose readable sources attached to this project."
  return result

def attachedReadableRevision (projectId : Text) (revisionId sourceId : Option Text) :
    Except LibraryError ScopedRevision := do
  storage.getProject projectId
  let row := storage.attached.find? fun row => row.projectId = projectId && row.enabled && row.isReadable &&
    (revisionId.or row.currentRevisionId) = some row.revisionId && sourceId.all (· == row.sourceId)
  match row with
  | some row => return row.toScopedRevision
  | none => .error ⟨.notFound, "A readable revision attached to this project was not found.", 404⟩

def readText (revision : ScopedRevision) (range : Option (Nat × Nat)) : Except LibraryError Bytes := do
  if range.any fun range => range.2 ≤ range.1 || revision.readableSize.getD 0 < range.2 then
    invalid "The passage range is outside this revision."
  let bytes ← storage.readable revision.revisionId
  match range with
  | none => return bytes
  | some (start, stop) =>
    let part := slice bytes start stop
    if part.length ≠ stop - start then .error ⟨.unavailable, "The stored passage was incomplete.", 503⟩
    if Blocks.decoded part = none then invalid "The passage must start and end on UTF-8 boundaries."
    return part

def emptyStorage : Storage where
  getProject _ := .ok ()
  listProjects _ := .ok ⟨[], none⟩
  listSources _ _ := .ok ⟨[], none⟩
  getSource _ := .error ⟨.notFound, "Source not found.", 404⟩
  projectSources _ := []
  members _ := []
  attached := []
  outline _ := .error ⟨.notFound, "Outline is missing from storage.", 404⟩
  readable _ := .error ⟨.notFound, "Readable text is missing from storage.", 404⟩
  guide _ := .ok none
  claims := []
  found _ _ := false
  like _ _ := false
  page _ _ := .error ⟨.notFound, "Page not found.", 404⟩
  wordPoint point := point.any fun unit => Numbers.isAlphanumeric unit || unit == 95
  toLowerCase := List.map fun unit => if 65 ≤ unit && unit ≤ 90 then unit + 32 else unit
  toUpperCase := List.map fun unit => if 97 ≤ unit && unit ≤ 122 then unit - 32 else unit
  claimIds := List.nodup_nil
  attachedIds _ := List.nodup_nil

def oneSource (source : Text) : Storage :=
  let row : Attached := ⟨⟨text "s", text "Title", text "r", text "readable", some (encode source).length, none, none⟩,
    text "p", true, 0, true, some (text "r"), false⟩
  { emptyStorage with
    projectSources := fun _ => [text "s"]
    members := fun _ => [(text "s", true)]
    attached := [row]
    outline := fun _ => .ok (Blocks.scanBlocks source)
    readable := fun _ => .ok (encode source)
    attachedIds := fun project => by
      refine List.Nodup.sublist (List.filter_sublist.map _) ?_
      exact List.nodup_singleton _ }

end Tools
