import Eliot.Tools.Storage

namespace Tools
open Text Context
open Utf8 (continuation)
open Regex (Found)

structure LabelRange where
  label : Text
  start : Nat
  stop : Nat

def hexDigits (count : Nat) : Regex Nat := (Regex.one isHexDigit).times count

/-- `/\[R[0-9a-fA-F]{8}-[0-9a-fA-F]{4}-[0-9a-fA-F]{4}-[0-9a-fA-F]{4}-[0-9a-fA-F]{12}:\d+\]/gu` -/
def persistentLabel : Regex Nat :=
  .all [Blocks.unit 91, Blocks.unit 82, hexDigits 8, Blocks.unit 45, hexDigits 4, Blocks.unit 45, hexDigits 4,
    Blocks.unit 45, hexDigits 4, Blocks.unit 45, hexDigits 12, Blocks.unit 58, Blocks.digits, Blocks.unit 93]

def labelRanges (body : Text) (charOffset byteOffset : Nat) : List (Found Nat) → List LabelRange
  | [] => []
  | found :: rest =>
    let start := byteOffset + (encode (slice body charOffset found.start)).length
    let stop := start + (encode found.token).length
    ⟨found.token, start, stop⟩ :: labelRanges body found.stop stop rest

def persistentLabels (body : Text) : List LabelRange := labelRanges body 0 0 (persistentLabel.matchAll body)

/-- `while (end > start && end < bytes.length && continuation(bytes[end])) end--` -/
def backTo (bytes : Bytes) (start : Nat) : Nat → Nat
  | 0 => 0
  | stop + 1 =>
    if start < stop + 1 ∧ stop + 1 < bytes.length ∧ continuation bytes[stop + 1]? = true then backTo bytes start stop
    else stop + 1

def safePageChunkEnd (bytes : Bytes) (start proposed : Nat) (labels : List LabelRange) : Nat :=
  let stop := backTo bytes start (min bytes.length proposed)
  match labels.find? fun range => range.start < stop && stop < range.stop with
  | some range => range.start
  | none => stop

/-- `while (end < bytes.length && continuation(bytes[end])) end++` -/
def forward (bytes : Bytes) (place : Nat) : Nat :=
  place + ((bytes.drop place).takeWhile fun byte => continuation (some byte)).length

def firstPageUnitEnd (bytes : Bytes) (start : Nat) (labels : List LabelRange) : Nat :=
  match labels.find? (·.start == start) with
  | some label => label.stop
  | none => if bytes.length ≤ start then start else forward bytes (start + 1)

structure PageInput where
  projectId : Text
  pageId : Text
  cursor : Option Int
  headRevisionId : Option Text
  maxTokens : Option Int

inductive PageReply where
  | chunk (stop : Nat) (body : Text)
  | done (body : Text)
  | minimum (body : Text) (purpose : Text)

def PageReply.toReply : PageReply → Reply
  | chunk _ body => .page 1 body
  | done body => .page 0 body
  | minimum body purpose => .minimum body purpose

section

variable (page : SavedPage) (bytes : Bytes) (labels : List LabelRange)

def pageHeader : Text :=
  prose "## " rfl ++ singleLine page.title ++ prose " (" rfl ++ page.kind.name ++ prose ", " rfl ++
    (if page.stale then prose "stale" rfl else prose "current" rfl) ++ prose ")\nPage " rfl ++ page.id ++
    prose "; immutable head revision " rfl ++ page.headRevisionId ++ [46]

def noNextCursor : Text := prose "\n\nNo next cursor." rfl

def nextLine (stop : Nat) : Text :=
  if stop < bytes.length then
    prose "\n\nNext cursor: " rfl ++ decimal stop ++ prose "; continue with headRevisionId " rfl ++
      page.headRevisionId ++ [46]
  else noNextCursor

def pageText (start stop : Nat) (chunk next : Text) : Text :=
  pageHeader page ++ prose "\n\nBody UTF-8 bytes [" rfl ++ decimal start ++ [44] ++ decimal stop ++
    prose ") of " rfl ++ decimal bytes.length ++ prose " (consumed through byte " rfl ++ decimal stop ++
    prose ").\n\n" rfl ++ chunk ++ next

def citationLine (citation : Citations.Citation) : Text :=
  prose "- " rfl ++ singleLine citation.sourceTitle ++ [32] ++ blockLabel citation.revisionId citation.block ++
    [32] ++ byteRange citation.start citation.stop ++ if citation.deleted then prose " (source deleted)" rfl else []

def chunkCitations (start stop : Nat) : List Text :=
  let inside := (labels.filter fun label => start ≤ label.start && label.stop ≤ stop).map (·.label)
  (page.citations.filter fun citation => inside.contains (blockLabel citation.revisionId citation.block)).map
    citationLine

def citationSections (citations : List Text) (visible : Nat) : List Text :=
  (if 0 < visible then [prose "### Stored source citations\n" rfl ++ joinLines (citations.take visible)] else []) ++
    if visible < citations.length then
      [decimal (citations.length - visible) ++ prose " stored source citations hidden because maxTokens was " rfl ++
        prose "reached; increase maxTokens to include them." rfl]
    else []

def withSections (result : Text) (sections : List Text) : Text :=
  if sections = [] then result else result ++ [10, 10] ++ [10, 10].intercalate sections

def fittingCitations (result : Text) (citations : List Text) (tokens : Nat) : Nat → Option Text
  | 0 =>
    let candidate := withSections result (citationSections citations 0)
    if fits candidate tokens then some candidate else none
  | visible + 1 =>
    let candidate := withSections result (citationSections citations (visible + 1))
    if fits candidate tokens then some candidate else fittingCitations result citations tokens visible

def nextChunk : Text := prose "the next complete page chunk" rfl

def firstUnit (start : Nat) : PageReply :=
  let stop := firstPageUnitEnd bytes start labels
  .minimum (pageText page bytes start stop ((Blocks.decoded (slice bytes start stop)).getD [])
    (nextLine page bytes stop)) nextChunk

/-- The longest chunk from `start` to `stop` or before it whose answer fits. -/
def pageChunk (start tokens stop : Nat) : Except LibraryError PageReply :=
  if stop = start then .ok (firstUnit page bytes labels start)
  else
    match Blocks.decoded (slice bytes start stop) with
    | none => invalid "The page cursor must land on a UTF-8 boundary."
    | some chunk =>
      let citations := chunkCitations page labels start stop
      let result := pageText page bytes start stop chunk (nextLine page bytes stop)
      match fittingCitations result citations tokens citations.length with
      | some candidate => .ok (.chunk stop candidate)
      | none =>
        let smaller := safePageChunkEnd bytes start (stop - 1) labels
        if _small : stop ≤ smaller ∨ smaller = start then .ok (firstUnit page bytes labels start)
        else pageChunk start tokens smaller
termination_by stop
decreasing_by omega

end

def pageFrom (page : SavedPage) (start tokens : Nat) : Except LibraryError PageReply :=
  let bytes := encode page.body
  let labels := persistentLabels page.body
  if bytes.length < start ∨ start < bytes.length ∧ continuation bytes[start]? = true then
    invalid "The page cursor must be a UTF-8 byte boundary in this page."
  else if labels.any fun range => range.start < start && start < range.stop then
    invalid "The page cursor must not split a persistent citation label."
  else if start = bytes.length then
    let result := pageText page bytes start start [] noNextCursor
    .ok (if fits result tokens then .done result else .minimum result Reply.thisResponse)
  else pageChunk page bytes labels start tokens (safePageChunkEnd bytes start (start + tokens * 3) labels)

def getPageTool (storage : Storage) (input : PageInput) : Except LibraryError PageReply := do
  let limit ← outputBudget input.maxTokens
  let page ← storage.page input.projectId input.pageId
  if input.cursor.isSome ∧ input.headRevisionId = none then
    invalid "Pass the page head revision with a continuation cursor."
  if input.headRevisionId.any (· != page.headRevisionId) then
    .error ⟨.conflict, "The page head changed. Restart reading from byte 0 with the current head revision.", 409⟩
  let start := input.cursor.getD 0
  if start < 0 then invalid "The page cursor must be a UTF-8 byte boundary in this page."
  pageFrom page start.toNat limit

end Tools
