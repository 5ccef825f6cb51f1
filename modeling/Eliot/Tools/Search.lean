import Eliot.Tools.Lists

namespace Tools
open Text Context

section

inductive HitKind where
  | guide | claim

def HitKind.name : HitKind → Text
  | .guide => prose "guide" rfl
  | .claim => prose "claim" rfl

structure SearchHit where
  kind : HitKind
  id : Text
  markdown : Text

def formatSearchCursor (hit : SearchHit) : Text := hit.kind.name ++ [58] ++ hit.id

/-- `/^[0-9a-f]{8}-[0-9a-f]{4}-[1-8][0-9a-f]{3}-[89ab][0-9a-f]{3}-[0-9a-f]{12}$/iu` -/
def isUuid (id : Text) : Bool :=
  id.length == 36 && id.zipIdx.all fun (unit, place) =>
    if place = 8 ∨ place = 13 ∨ place = 18 ∨ place = 23 then unit == 45
    else if place = 14 then 49 ≤ unit && unit ≤ 56
    else if place = 19 then unit == 56 || unit == 57 || unit == 97 || unit == 98 || unit == 65 || unit == 66
    else isHexDigit unit

def readSearchCursor (cursor : Text) : Option (HitKind × Text) :=
  let read (kind : HitKind) : Option (HitKind × Text) :=
    let id := cursor.drop (kind.name.length + 1)
    if (kind.name ++ [58]).isPrefixOf cursor && isUuid id then some (kind, id) else none
  (read .guide).or (read .claim)

def parseSearchCursor (cursor : Text) : Except LibraryError (HitKind × Text) :=
  match readSearchCursor cursor with
  | some found => .ok found
  | none => invalid "Search cursor must be guide:<UUID> or claim:<UUID>."

def indexOf (text wanted : Text) : Option Nat :=
  (List.range (text.length + 1)).find? fun place => wanted.isPrefixOf (text.drop place)

def guideSnippet (guide : Text) (place : Nat) : Text :=
  let start := place - 180
  let start := if 0 < start ∧ start < guide.length ∧ guide[start]?.any isLow then start - 1 else start
  let stop := min guide.length (start + 700)
  let stop := if 0 < stop ∧ stop < guide.length ∧ guide[stop - 1]?.any isHigh then stop - 1 else stop
  (if 0 < start then [46, 46, 46] else []) ++ slice guide start stop ++
    if stop < guide.length then [46, 46, 46] else []

variable (storage : Storage)

def guideHit (spec : StatementQuery) (selected : ScopedRevision) (guide : Text) : Option SearchHit :=
  let folded := storage.toLowerCase guide
  let positions := spec.terms.filterMap fun term => indexOf folded (storage.toLowerCase term)
  if positions.length ≠ spec.terms.length then none
  else
    let snippet := guideSnippet guide (positions.min?.getD 0)
    some ⟨.guide, selected.revisionId, prose "- Guide for " rfl ++ singleLine selected.title ++ prose " [R" rfl ++
      selected.revisionId ++ prose "] (derived orientation, not primary evidence): " rfl ++ jsonString snippet⟩

def guideHits (spec : StatementQuery) : List ScopedRevision → Except LibraryError (List SearchHit × Nat)
  | [] => .ok ([], 0)
  | selected :: scope =>
    if selected.distillState = some (prose "done" rfl) ∨ selected.distillState = some (prose "partial" rfl) then
      match storage.guide selected with
      | .ok guide => do
        let (hits, unavailable) ← guideHits spec scope
        let found := (guide.filter (· ≠ [])).bind (guideHit storage spec selected)
        return (found.toList ++ hits, unavailable)
      | .error error =>
        if error.code = .unavailable then do
          let (hits, unavailable) ← guideHits spec scope
          return (hits, unavailable + 1)
        else .error error
    else guideHits spec scope

def hitBefore (hit other : SearchHit) : Prop := hit.id ≤ other.id

instance (hit other : SearchHit) : Decidable (hitBefore hit other) := inferInstanceAs (Decidable (hit.id ≤ other.id))

def claimHit (hit : ClaimHit) : SearchHit := ⟨.claim, hit.id, claimMarkdown hit⟩

inductive Searched where
  | nothing
  | hits (hits : List SearchHit) (unavailableGuides : Nat)

def search (input : SearchInput) : Except LibraryError Searched := do
  let cursor ← input.cursor.mapM parseSearchCursor
  let scope ← currentReadableScope storage input.projectId input.sourceIds
  let spec ← statementQuery storage input.query
  if scope = [] ∨ spec.terms = [] then
    if cursor ≠ none then invalid "Search cursor is outside this query or selected project scope."
    return .nothing
  let (found, unavailable) ← guideHits storage spec scope
  let guides := found.insertionSort hitBefore
  let known := match cursor with
    | none => true
    | some (.guide, id) => guides.any (·.id == id)
    | some (.claim, id) => claimHits storage scope spec (some id) true ≠ []
  if !known then invalid "Search cursor is outside this query or selected project scope."
  let (pageGuides, claimCursor) := match cursor with
    | none => (guides, none)
    | some (.guide, id) => (guides.filter fun hit => id < hit.id, none)
    | some (.claim, id) => ([], some id)
  let claims := claimHits storage scope spec claimCursor false
  return .hits (pageGuides ++ claims.map claimHit) unavailable

def searchNote (unavailableGuides : Nat) : Text :=
  prose "Literal storage search across current readable selected revisions; no model, web, or AI Search work. " rfl ++
    prose "Guide matches and claim statements are derived; only the exact stored claim quote and byte range are " rfl ++
    prose "source evidence." rfl ++
    if 0 < unavailableGuides then
      prose " Stored guides were unavailable for " rfl ++ decimal unavailableGuides ++
        prose " selected revision(s); claim search still ran." rfl
    else []

def searchReply (hits : List SearchHit) (unavailableGuides tokens : Nat) : Reply :=
  listing (prose "## Search results\n\n" rfl ++ searchNote unavailableGuides ++ [10, 10])
    (prose "No guide or verified claim matched every literal keyword." rfl)
    ((hits.take maxRows).map (·.markdown)) (fun count => cursorLine (cursorBelow formatSearchCursor hits count))
    (cursorLine (firstCursor formatSearchCursor hits)) tokens

def nothingToSearch : Text :=
  prose "## Search\n\nNo readable selected revisions or searchable keywords were available." rfl

def searchTool (input : SearchInput) : Except LibraryError Reply := do
  let limit ← outputBudget input.maxTokens
  match ← search storage input with
  | .nothing => return withinBudget nothingToSearch limit
  | .hits hits unavailable => return searchReply hits unavailable limit

end

section

structure ListProjectsInput where
  cursor : Option Text
  maxTokens : Option Int

structure ListSourcesInput where
  projectId : Text
  sourceIds : Option (List Text)
  cursor : Option Text
  maxTokens : Option Int

def projectRow (project : Project) : Text :=
  prose "- " rfl ++ singleLine project.title ++ prose " [" rfl ++ project.id ++ [93] ++
    if project.description = [] then [] else prose " — " rfl ++ singleLine project.description

def pageCursor {Row : Type} (name : Row → Text) (rows : List Row) (nextCursor : Option Text) (count : Nat) :
    Option Text :=
  if count = (rows.take maxRows).length then nextCursor
  else if 0 < count then rows[count - 1]?.map name else none

def firstPageCursor {Row : Type} (name : Row → Text) (rows : List Row) (nextCursor : Option Text) : Option Text :=
  if 1 < (rows.take maxRows).length then rows.head?.map name else nextCursor

theorem firstPageCursor_eq {Row : Type} (name : Row → Text) (rows : List Row) (nextCursor : Option Text) :
    firstPageCursor name rows nextCursor = pageCursor name rows nextCursor (min 1 (rows.take maxRows).length) := by
  unfold firstPageCursor pageCursor
  cases rows with
  | nil => rfl
  | cons row rest =>
    have one : min 1 ((row :: rest).take maxRows).length = 1 := by simp [maxRows]
    rw [one]
    by_cases more : 1 < ((row :: rest).take maxRows).length
    · rw [if_pos more, if_neg (Nat.ne_of_lt more), if_pos Nat.one_pos]
      rfl
    · have filled : 0 < ((row :: rest).take maxRows).length := by simp [maxRows]
      rw [if_neg more, if_pos (by omega)]

variable (storage : Storage)

def projectsReply (page : ProjectPage) (tokens : Nat) : Reply :=
  listing (prose "## Projects\n\n" rfl) (prose "No active projects." rfl) ((page.projects.take maxRows).map projectRow)
    (fun count => cursorLine (pageCursor (·.id) page.projects page.nextCursor count))
    (cursorLine (firstPageCursor (·.id) page.projects page.nextCursor)) tokens

def listProjectsTool (input : ListProjectsInput) : Except LibraryError Reply := do
  let limit ← outputBudget input.maxTokens
  let page ← storage.listProjects input.cursor
  return projectsReply page limit

def sourceRow (source : ListedSource) : Text :=
  prose "- " rfl ++ singleLine source.title ++ prose " [" rfl ++ source.id ++ prose "] (" rfl ++ source.kind ++
    prose ", " rfl ++ source.readableState ++ prose ", " rfl ++
    (if source.enabled then prose "enabled" rfl else prose "disabled" rfl) ++ prose ")\n  Current revision: " rfl ++
    source.currentRevisionId.getD (prose "none" rfl) ++ prose "; latest revision: " rfl ++ source.revisionId

def newerSource (source other : ListedSource) : Prop :=
  other.createdAt < source.createdAt ∨ source.createdAt = other.createdAt ∧ other.id ≤ source.id

instance (source other : ListedSource) : Decidable (newerSource source other) := by
  unfold newerSource
  infer_instance

def selectedSources (input : ListSourcesInput) (selected : List Text) :
    Except LibraryError (Option (List ListedSource)) := do
  storage.getProject input.projectId
  if maxToolSourceScope < selected.length then invalid "Select at most 50 sources for this tool call."
  let ids := selected.eraseDups
  if ids = [] then return none
  let membership := (storage.members input.projectId).filter fun member => ids.contains member.1
  if (membership.map (·.1)).eraseDups.length ≠ ids.length then
    invalid "A selected source is outside this project or is not active."
  if input.cursor.any fun cursor => !ids.contains cursor then
    invalid "For an explicit source selection, cursor must be a source ID from that selection."
  let loaded ← ids.mapM fun id => do
    let source ← storage.getSource id
    return { source with enabled := membership.any fun member => member.1 == id && member.2 }
  let sorted := loaded.insertionSort newerSource
  match input.cursor with
  | none => return some sorted
  | some cursor =>
    if sorted.all (·.id != cursor) then invalid "The source cursor is not in this selection."
    return some ((sorted.dropWhile (·.id != cursor)).drop 1)

def sourcesHeading (projectId : Text) : Text := prose "## Sources in project " rfl ++ projectId ++ [10, 10]

def nothingSelected (projectId : Text) : Text :=
  sourcesHeading projectId ++ prose "No sources explicitly selected." rfl

def sourcesReply (projectId : Text) (page : SourcePage) (tokens : Nat) : Reply :=
  listing (sourcesHeading projectId) (prose "No attached sources." rfl) ((page.sources.take maxRows).map sourceRow)
    (fun count => cursorLine (pageCursor (·.id) page.sources page.nextCursor count))
    (cursorLine (firstPageCursor (·.id) page.sources page.nextCursor)) tokens

def listSourcesTool (input : ListSourcesInput) : Except LibraryError Reply := do
  let limit ← outputBudget input.maxTokens
  match input.sourceIds with
  | none =>
    let page ← storage.listSources input.projectId input.cursor
    return sourcesReply input.projectId page limit
  | some selected =>
    match ← selectedSources storage input selected with
    | none => return withinBudget (nothingSelected input.projectId) limit
    | some sources => return sourcesReply input.projectId ⟨sources, none⟩ limit

end

end Tools
