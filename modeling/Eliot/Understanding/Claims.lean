import Eliot.Relational.Table
import Eliot.Store.Identity

namespace Understanding
open Relational

inductive DistillState where
  | none
  | queued
  | running
  | paused
  | done
  | partially
  | failed
deriving DecidableEq

/-- `understandingKey` of a report: the original one of an attempt, or the checked one. -/
structure ReportKey where
  revisionId : Uuid
  checked : Bool
  attemptId : Option Uuid
deriving DecidableEq

structure RetryRequest where
  sourceId : Uuid
  revisionId : Uuid
  previousAttemptId : Uuid
  model : Option Text

inductive TokenLimitKind where
  | published
  | unknown
  | legacy

/-- A `source_revision` row as understanding sees it. -/
structure Revision where
  id : Uuid
  sourceId : Uuid
  readableState : ReadableState
  deletedAt : Option Nat
  distillState : DistillState
  distillModel : Option Text
  distillError : Option Text
  distillStartedAt : Option Nat
  distillCalls : Nat
  distillTokenLimit : Option Nat
  distillTokenLimitKind : Option TokenLimitKind
  distillReportKey : Option ReportKey
  guideSummary : Option Text
  claimCount : Nat
  distillAttemptId : Option Uuid
  distillRequest : Option RetryRequest

/-- A `claim` row with the columns that are searched. -/
structure Claim where
  id : Uuid
  sourceRevisionId : Uuid
  ordinal : Nat
  statement : Text
  quote : Text
  task : Option Text
  metric : Option Text
  dataset : Option Text

structure ClaimFts where
  claimId : Uuid
  body : Text

structure ClaimStore where
  revisions : Table Revision Uuid (·.id)
  claims : Table Claim Uuid (·.id)
  claimFts : List ClaimFts

/-- `statement || ' ' || quote || ' ' || coalesce(task,'') || …` -/
def Claim.body (claim : Claim) : Text :=
  claim.statement ++ 32 :: claim.quote ++ 32 :: claim.task.getD [] ++ 32 :: claim.metric.getD [] ++
    32 :: claim.dataset.getD []

def Claim.indexed (claim : Claim) : ClaimFts := ⟨claim.id, claim.body⟩

namespace ClaimStore

variable (store : ClaimStore)

/-- `ordinal < (SELECT claim_count FROM source_revision WHERE id = source_revision_id)` -/
def visible (claim : Claim) : Bool :=
  (store.revisions.find claim.sourceRevisionId).any (claim.ordinal < ·.claimCount)

def entry (claim : Claim) : Option ClaimFts :=
  if store.visible claim then some claim.indexed else none

/-- `claim_fts_insert` -/
def claimFtsInsert (new : Claim) : ClaimStore :=
  { store with claimFts := store.claimFts ++ (store.entry new).toList }

/-- `claim_fts_update` -/
def claimFtsUpdate (old new : Claim) : ClaimStore :=
  { store with
    claimFts := store.claimFts.filter (·.claimId ≠ old.id) ++ (store.entry new).toList }

/-- `claim_fts_head` -/
def claimFtsHead (new : Revision) : ClaimStore :=
  let own := store.claims.rows.filter (·.sourceRevisionId = new.id)
  { store with
    claimFts := store.claimFts.filter (fun row => !(own.map (·.id)).contains row.claimId) ++
      (own.filter (·.ordinal < new.claimCount)).map (·.indexed) }

/-- `INSERT INTO claim … SELECT … WHERE EXISTS(SELECT 1 FROM source_revision WHERE id=? AND …)
    ON CONFLICT(source_revision_id,ordinal) DO UPDATE SET …`, which keeps the old identity. -/
def upsertClaim (allowed : Revision → Bool) (claim : Claim) : Option ClaimStore :=
  if !(store.revisions.find claim.sourceRevisionId).any allowed then some store
  else
    match store.claims.rows.find? fun old =>
      old.sourceRevisionId = claim.sourceRevisionId && old.ordinal = claim.ordinal with
    | some old =>
      let new := { claim with id := old.id }
      some ({ store with
        claims := store.claims.update (·.id = old.id) fun row => { new with id := row.id }
      }.claimFtsUpdate old new)
    | none =>
      (store.claims.insert claim).map fun claims => { store with claims }.claimFtsInsert claim

/-- `UPDATE source_revision SET …,claim_count=? WHERE id=? AND …` -/
def updateHead (id : Uuid) (test : Revision → Bool) (change : Revision → Revision)
    (keeps : ∀ row, (change row).id = row.id := by intro; rfl) : ClaimStore :=
  match store.revisions.find id with
  | none => store
  | some old =>
    if test old then
      { store with revisions := store.revisions.update (·.id = id) change keeps }.claimFtsHead
        (change old)
    else store

/-- `UPDATE source_revision SET … WHERE …` of any other columns. -/
def updateRevisions (test : Revision → Bool) (change : Revision → Revision)
    (keeps : ∀ row, (change row).id = row.id := by intro; rfl) : ClaimStore :=
  { store with revisions := store.revisions.update test change keeps }

def migrated (revisions : Table Revision Uuid (·.id)) (claims : Table Claim Uuid (·.id)) : ClaimStore :=
  let store : ClaimStore := ⟨revisions, claims, []⟩
  { store with claimFts := (claims.rows.filter store.visible).map (·.indexed) }

end ClaimStore

inductive Statement where
  | upsert (allowed : Revision → Bool) (claim : Claim)
  | head (id : Uuid) (test : Revision → Bool) (change : Revision → Revision)
      (keeps : ∀ row, (change row).id = row.id)
  | revisions (test : Revision → Bool) (change : Revision → Revision)
      (keeps : ∀ row, (change row).id = row.id ∧ (change row).claimCount = row.claimCount)

def Statement.run (store : ClaimStore) : Statement → Option ClaimStore
  | .upsert allowed claim => store.upsertClaim allowed claim
  | .head id test change keeps => some (store.updateHead id test change keeps)
  | .revisions test change keeps => some (store.updateRevisions test change fun row => (keeps row).1)

def ClaimStore.batch (store : ClaimStore) (statements : List Statement) : ClaimStore :=
  (statements.foldlM Statement.run store).getD store

def running (attemptId : Option Uuid) (row : Revision) : Bool :=
  row.distillState = .running && row.distillAttemptId = attemptId

def claimWrites (attemptId : Option Uuid) (reportKey : Option ReportKey) (claims : List Claim) :
    List Statement :=
  claims.map fun claim => .upsert (fun row =>
    match reportKey with
    | none => running attemptId row
    | some key => row.distillAttemptId = attemptId && row.distillReportKey = some key) claim

/-- The batch of `commitSynthesis`. -/
def commitSynthesis (revisionId : Uuid) (attemptId : Option Uuid) (summary : Text)
    (claims : List Claim) : List Statement :=
  claimWrites attemptId none claims ++ [.head revisionId (running attemptId)
    (fun row => { row with guideSummary := some summary, claimCount := claims.length })
    fun _ => rfl]

def saveAvailable (selected : Revision) (state : DistillState) (summary : Text)
    (claims : List Claim) : List Statement :=
  let key : ReportKey := ⟨selected.id, true, selected.distillAttemptId⟩
  .head selected.id
    (fun row => row.distillState = selected.distillState &&
      row.distillReportKey = selected.distillReportKey &&
      row.distillAttemptId = selected.distillAttemptId)
    (fun row => { row with
      distillState := state, distillError := none, distillReportKey := some key
      guideSummary := some summary, claimCount := claims.length })
    (fun _ => rfl) :: claimWrites selected.distillAttemptId (some key) claims

def Revision.restarted (row : Revision) (attemptId : Uuid) (request : RetryRequest) (model : Text) :
    Revision :=
  { row with
    distillAttemptId := some attemptId, distillRequest := some request, distillState := .queued
    distillModel := some model, distillCalls := 0, distillStartedAt := none, distillError := none
    distillTokenLimit := none, distillTokenLimitKind := none, distillReportKey := none
    guideSummary := none, claimCount := 0 }

def restart (selected : Revision) (attemptId : Uuid) (request : RetryRequest) (model : Text)
    (archived : Bool) : Statement :=
  .head selected.id
    (fun row => archived && row.distillAttemptId = selected.distillAttemptId &&
      row.distillState = selected.distillState && row.distillReportKey = selected.distillReportKey)
    (·.restarted attemptId request model) fun _ => rfl

end Understanding
