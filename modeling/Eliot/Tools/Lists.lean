import Eliot.Tools.Storage

namespace Tools
open Text Context

section

structure StatementQuery where
  terms : List Text
  matched : Text
  short : List Text

def wordRuns (wordPoint : Text → Bool) : List Text → Text → List Text
  | [], current => if current = [] then [] else [current]
  | point :: points, current =>
    if wordPoint point then wordRuns wordPoint points (current ++ point)
    else (if current = [] then [] else [current]) ++ wordRuns wordPoint points []

variable (storage : Storage)

def queryTerms (query : Text) : Except LibraryError (List Text) :=
  if trim query = [] ∨ 500 < query.length then invalid "Search query must contain 1 to 500 characters."
  else .ok (wordRuns storage.wordPoint (codePoints query) []).eraseDups

/-- `replace(/[\\%_]/gu, "\\$&")` -/
def escapeLike (value : Text) : Text :=
  value.flatMap fun unit => if unit = 92 ∨ unit = 37 ∨ unit = 95 then [92, unit] else [unit]

def likeVariants (term : Text) : List Text :=
  [term, storage.toLowerCase term, storage.toUpperCase term].eraseDups

/-- `'"' + term.replace(/"/gu, '""') + '"'` -/
def quotedTerm (term : Text) : Text := 34 :: term.flatMap (fun unit => if unit = 34 then [34, 34] else [unit]) ++ [34]

def statementQuery (query : Text) : Except LibraryError StatementQuery := do
  let terms ← queryTerms storage query
  let long := terms.filter fun term => 3 ≤ (codePoints term).length
  return ⟨terms, (prose " AND " rfl).intercalate (long.map quotedTerm),
    terms.filter fun term => (codePoints term).length < 3⟩

def isHit (scope : List ScopedRevision) (spec : StatementQuery) (row : ClaimRow) : Bool :=
  scope.any (·.revisionId == row.revisionId) && row.current && row.active && !row.deleted && row.readable &&
    !row.ambiguous && row.ordinal < row.claimCount && (spec.matched == [] || storage.found spec.matched row) &&
    spec.short.all fun term => (likeVariants storage term).any fun variant =>
      storage.like ([37] ++ escapeLike variant ++ [37]) row

/-- `ORDER BY c.id` -/
def byId (row other : ClaimRow) : Prop := row.id ≤ other.id

instance (row other : ClaimRow) : Decidable (byId row other) := inferInstanceAs (Decidable (row.id ≤ other.id))

def claimHits (scope : List ScopedRevision) (spec : StatementQuery) (cursor : Option Text) (exactId : Bool) :
    List ClaimHit :=
  if scope = [] ∨ spec.matched = [] ∧ spec.short = [] then []
  else
    let rows := storage.claims.filter fun row => isHit storage scope spec row &&
      cursor.all fun cursor => if exactId then row.id == cursor else cursor < row.id
    ((rows.insertionSort byId).take (if exactId then 1 else 51)).map (·.toClaimHit)

def claimMarkdown (hit : ClaimHit) : Text :=
  prose "- " rfl ++ singleLine hit.sourceTitle ++ prose " (" rfl ++ hit.kind ++ prose ") " rfl ++
    blockLabel hit.revisionId hit.block ++ [32] ++ byteRange hit.start hit.stop ++
    prose "\n  Derived claim statement (not primary evidence): " rfl ++ jsonString hit.statement ++
    prose "\n  Exact stored source quote: " rfl ++ jsonString hit.quote

end

def cursorBelow {Hit : Type} (name : Hit → Text) (hits : List Hit) (count : Nat) : Option Text :=
  if 0 < count ∧ count < hits.length then hits[count - 1]?.map name else none

def firstCursor {Hit : Type} (name : Hit → Text) (hits : List Hit) : Option Text :=
  if 1 < hits.length then hits.head?.map name else none

theorem firstCursor_eq {Hit : Type} (name : Hit → Text) (hits : List Hit) :
    firstCursor name hits = cursorBelow name hits (min 1 (hits.take maxRows).length) := by
  cases hits with
  | nil => rfl
  | cons hit rest =>
    have one : min 1 ((hit :: rest).take maxRows).length = 1 := by simp [maxRows]
    rw [one, firstCursor, cursorBelow]
    by_cases more : 1 < (hit :: rest).length
    · rw [if_pos more, if_pos ⟨Nat.one_pos, more⟩]
      rfl
    · rw [if_neg more, if_neg fun both => more both.2]

section

structure SearchInput where
  projectId : Text
  sourceIds : Option (List Text)
  query : Text
  cursor : Option Text
  maxTokens : Option Int

def claimsNote : Text :=
  prose "Only current readable revisions were searched. Claim statements are derived; their stored " rfl ++
    prose "quotes and byte ranges identify source evidence." rfl

def claimsReply (spec : StatementQuery) (hits : List ClaimHit) (tokens : Nat) : Reply :=
  listing (prose "## Verified claim matches\n\n" rfl ++ claimsNote ++ [10, 10])
    (if spec.terms = [] then prose "No searchable keywords were found." rfl
      else prose "No verified claims matched." rfl)
    ((hits.take maxRows).map claimMarkdown) (fun count => cursorLine (cursorBelow (·.id) hits count))
    (cursorLine (firstCursor (·.id) hits)) tokens

variable (storage : Storage)

def findClaims (input : SearchInput) : Except LibraryError (StatementQuery × List ClaimHit) := do
  let scope ← currentReadableScope storage input.projectId input.sourceIds
  let spec ← statementQuery storage input.query
  if input.cursor.any fun cursor => claimHits storage scope spec (some cursor) true = [] then
    invalid "The claim cursor is outside this query or selected project scope."
  return (spec, claimHits storage scope spec input.cursor false)

def findClaimsTool (input : SearchInput) : Except LibraryError Reply := do
  let limit ← outputBudget input.maxTokens
  let (spec, hits) ← findClaims storage input
  return claimsReply spec hits limit

end

section

structure OutlineInput where
  projectId : Text
  sourceId : Text
  revisionId : Option Text
  cursor : Option Int
  maxTokens : Option Int

def outlineOrdinal (cursor : Option Int) : Except LibraryError Nat :=
  match cursor with
  | none => .ok 1
  | some cursor =>
    if cursor = 0 then .ok 1
    else if cursor < 1 ∨ maxSafeInteger < cursor then
      invalid "Outline cursor must be a non-negative block ordinal."
    else .ok cursor.toNat

def blockTypeName : Blocks.BlockType → Text
  | .heading => prose "heading" rfl
  | .paragraph => prose "paragraph" rfl
  | .list => prose "list" rfl
  | .table => prose "table" rfl
  | .code => prose "code" rfl
  | .quote => prose "quote" rfl

def outlineRow (revisionId : Text) (citable : List Nat) (block : Blocks.Block) : Text :=
  prose "- " rfl ++ (if citable.contains block.id then blockLabel revisionId block.id ++ [32] else []) ++
    byteRange block.start block.stop ++ prose " — " rfl ++ blockTypeName block.type ++
    match block.heading with
    | none | some [] => []
    | some heading => prose ": " rfl ++ singleLine heading

def outlineFooter (next : Option Blocks.Block) : Text :=
  match next with
  | none => []
  | some next => prose "\n\nContinue at block " rfl ++ decimal next.id ++ prose " with integer cursor " rfl ++
      decimal next.id ++ [46]

def outlineReply (selected : ScopedRevision) (citable : List Nat) (blocks : List Blocks.Block) (tokens : Nat) :
    Reply :=
  listing (prose "## Outline for " rfl ++ singleLine selected.title ++ prose " [" rfl ++ selected.revisionId ++
      prose "]\n\n" rfl) (prose "No further blocks." rfl)
    ((blocks.take maxRows).map (outlineRow selected.revisionId citable)) (fun count => outlineFooter blocks[count]?)
    (outlineFooter blocks[1]?) tokens

variable (storage : Storage)

def outlineBlocks (input : OutlineInput) : Except LibraryError (ScopedRevision × List Blocks.Block) := do
  let selected ← attachedReadableRevision storage input.projectId input.revisionId (some input.sourceId)
  let startOrdinal ← outlineOrdinal input.cursor
  let blocks ← storage.outline selected.revisionId
  return (selected, blocks.filter (startOrdinal ≤ ·.id))

def outlineTool (input : OutlineInput) : Except LibraryError Reply := do
  let limit ← outputBudget input.maxTokens
  let (selected, blocks) ← outlineBlocks storage input
  let bytes ← readText storage selected none
  return outlineReply selected (Blocks.citableIdsFromBytes blocks bytes) blocks limit

end

end Tools
