import Eliot.Async.Service
import Eliot.Library.Records

namespace Library
open Relational Async

inductive OcrOutcome where
  | ready
  | failed
  | cancelled
deriving DecidableEq

/-- `report.json` of a job, in the fields that are read back. -/
structure Report where
  state : OcrOutcome
  error : Option Text
  finishedAt : Nat
  previewSha256 : Option Text
  previewSize : Option Nat

inductive Body where
  | bytes (bytes : List Nat)
  | text (text : Text)
  | blocks (text : Text)
  | report (report : Report)

/-- The metadata of a transcribed page. A total is `none` where its text is "unknown". -/
structure PageMetadata where
  finish : Text
  failure : Text
  inputTotal : Option Nat
  cachedTotal : Option Nat
  outputTotal : Option Nat
  input : Option Nat
  cached : Option Nat
  output : Option Nat
  ms : Int
deriving DecidableEq

structure Object where
  key : Key
  body : Body
  size : Nat
  sha256 : Option Text
  metadata : Option PageMetadata
  etag : Text

abbrev Bucket := Table Object Key (·.key)

structure Usage where
  input : Option Nat
  cached : Option Nat
  output : Option Nat

structure Generated where
  text : Text
  finishReason : Text
  usage : Usage

structure Dispatch where
  jobId : Uuid
  ordinal : Nat
deriving DecidableEq

inductive SourceKind where
  | file
  | url
  | text
deriving DecidableEq

structure NewSource where
  kind : SourceKind
  bytes : List Nat
  filename : Text
  mimeType : Text
  sourceId : Option Uuid
  revisionId : Option Uuid

structure Receipt where
  sourceId : Uuid
  revisionId : Uuid

/-- A `LibraryError` or an `AuthError` with its message, or any other error. -/
inductive Failure where
  | library (message : Text)
  | auth (message : Text)
  | other

structure Capture where
  projectId : Uuid
  input : NewSource
  began : Db
  result : Except Failure Receipt

structure History where
  /-- Which request paid for a page. -/
  dispatched : List (Dispatch × Nat)
  /-- The pages sent to the model. -/
  sent : List Dispatch
  /-- What the model reported for a page. -/
  reported : List (Dispatch × Usage)
  /-- Jobs that a report took out of their failed state. -/
  revived : List Uuid
  /-- What the requests to apply a job were told. -/
  applied : List (Uuid × Uuid)
  /-- The finished requests to add a source, in the order in which they finished. -/
  captured : List Capture

structure World where
  db : Db
  bucket : Bucket
  history : History

inductive Reply where
  | delivered
  | refused
  | lost

inductive Conversion where
  | failed (error : Text)
  | needsConversion (warning : Text)
  | readable (converter : Text) (readableSize blockCount : Nat) (warning : Option Text)
      (textEtag blocksEtag : Text)

structure Stored where
  outcome : Conversion
  tokens : Option Nat
  calls : Nat
  ms : Nat

inductive InstanceStatus where
  | unreachable
  | unknown
  | active
  | complete (stored : Option Stored)
  | stopped

structure Choice where
  reply : Reply := .delivered
  now : Nat := 0
  etag : Text := []
  /-- A workflow engine confirms that it created an instance. -/
  confirms : Bool := true
  /-- The instance is there although its creation was not confirmed. -/
  present : Bool := false
  status : InstanceStatus := .unreachable
  model : Except Failure ModelSpec := .error .other
  transport : Except Failure Unit := .ok ()
  /-- The answer of a model, or the report that `modelFailure` makes of an error. -/
  generated : Except Text Generated := .error []

structure Tools where
  ocrConfigured : Bool
  sha256 : Body → Text
  size : Body → Nat
  blockCount : Text → Nat
  readableTextWarning : Text → Option Text

inductive Actor where
  | owner
  | agent
deriving DecidableEq

abbrev Task := Program World Choice Empty Failure

def fail {α : Type} (message : String) : Task α := .throw (.library (text message))

section
variable {α : Type}

/-- A request to a store: it may be refused, or executed without its answer coming back, and
    one that cannot be executed changes nothing. -/
def call (effect : Choice → World → Option (α × World)) : Task α :=
  .request fun choice world =>
    match choice.reply, effect choice world with
    | .delivered, some (value, after) => (.ok value, after)
    | .lost, some (_, after) => (.error .other, after)
    | _, _ => (.error .other, world)

def query (read : Db → α) : Task α := call fun _ world => some (read world.db, world)

def d1 (statement : Statement α) : Task α :=
  call fun _ world => (statement world.db).map fun (value, db) => (value, { world with db })

/-- A single `UPDATE` or `INSERT` that cannot abort. -/
def execute (statement : Db → α × Db) : Task α := d1 fun db => some (statement db)

def ask (answer : Choice → Except Failure α) : Task α :=
  .request fun choice world => (answer choice, world)

/-- `Date.now()` -/
def now : Task Nat := .act fun choice world => (.ok choice.now, world)

def note (change : History → History) : Task Unit :=
  .assign fun world => { world with history := change world.history }

end

def get (key : Key) : Task (Option Object) := call fun _ world => some (world.bucket.find key, world)

/-- `put` with `onlyIf: { etagDoesNotMatch: "*" }`. -/
def putNew (object : Text → Object) : Task (Option Object) :=
  call fun choice world =>
    let object := object choice.etag
    match world.bucket.insert object with
    | some bucket => some (some object, { world with bucket })
    | none => some (none, world)

/-- `put` without a condition. -/
def put (object : Text → Object) : Task Object :=
  call fun choice world =>
    let object := object choice.etag
    some (object, { world with bucket := world.bucket.write object })

def delete (key : Key) : Task Unit :=
  call fun _ world => some ((), { world with bucket := world.bucket.without key })

end Library
