import Eliot.Text.Encoding

namespace Context
open Text List

inductive Role where
  | system
  | user
  | assistant
deriving DecidableEq

def Role.name : Role → Text
  | .system => text "system"
  | .user => text "user"
  | .assistant => text "assistant"

structure RequestMessage where
  role : Role
  content : Text

/-- A request to a model; `schema` is the text of its JSON value. -/
structure ModelRequest where
  instructions : Text
  messages : List RequestMessage
  schema : Option Text

def chatStep (result : List RequestMessage) (message : RequestMessage) : List RequestMessage :=
  if message.role ≠ .user ∧ message.role ≠ .assistant then result
  else
    match result.getLast? with
    | some previous =>
      if message.role = .user ∧ previous.role = .user then
        result.dropLast ++ [{ previous with content := previous.content ++ [10, 10] ++ message.content }]
      else result ++ [message]
    | none => result ++ [message]

def chatModelMessages (messages : List RequestMessage) (question : Text) : List RequestMessage :=
  (messages ++ [RequestMessage.mk .user question]).foldl chatStep []

def stringPointBytes : Text → Nat
  | [code] =>
    if code = 34 ∨ code = 92 then 2
    else if code < 32 then if [8, 9, 10, 12, 13].contains code then 2 else 6
    else if code < 128 then 1
    else if code < 2048 then 2
    else if isSurrogate code then 6
    else 3
  | _ => 4

def stringBytes (text : Text) : Nat := 2 + ((codePoints text).map stringPointBytes).sum

def RequestMessage.json (message : RequestMessage) : Text :=
  text "\x7b\"role\":" ++ jsonString message.role.name ++ text ",\"content\":" ++
    jsonString message.content ++ text "\x7d"

def ModelRequest.json (request : ModelRequest) : Text :=
  text "\x7b\"instructions\":" ++ jsonString request.instructions ++ text ",\"messages\":" ++
    jsonArray (request.messages.map RequestMessage.json) ++
    (request.schema.elim [] fun schema => text ",\"schema\":" ++ schema) ++ text "\x7d"

structure Measured where
  messages : List RequestMessage
  contentBytes : Nat

/-- Without joining, or after another role, a message gets an entry of its own; joined to the
    previous one it adds two escaped newlines. -/
def Measured.step (joinUserMessages : Bool) (measured : Measured) (message : RequestMessage) :
    Measured :=
  if joinUserMessages = true ∧ message.role = .user ∧
      measured.messages.getLast?.any (·.role = .user) then
    { measured with
      contentBytes := measured.contentBytes + 4 + (stringBytes message.content - 2) }
  else
    { messages := measured.messages ++ [⟨message.role, []⟩]
      contentBytes := measured.contentBytes + (stringBytes message.content - 2) }

def estimateModelInput (request : ModelRequest) (joinUserMessages : Bool) : Nat :=
  let measured := request.messages.foldl (Measured.step joinUserMessages) ⟨[], 0⟩
  let skeleton := { request with instructions := [], messages := measured.messages }
  let bytes := utf8Bytes skeleton.json + (stringBytes request.instructions - 2) +
    measured.contentBytes
  (bytes + 2) / 3 + measured.messages.length * 32 + 1024

def estimateHistoryMessage (message : RequestMessage) : Nat :=
  (21 + stringBytes message.role.name + stringBytes message.content + 2) / 3 + 32

theorem stringBytes_join (first second : Text) :
    stringBytes (first ++ [10, 10] ++ second) - 2 =
      (stringBytes first - 2) + 4 + (stringBytes second - 2) := by
  have newlines : codePoints ([10, 10] ++ second) = [10] :: [10] :: codePoints second := by
    cases second <;> rfl
  have parts : codePoints (first ++ [10, 10] ++ second) =
      codePoints first ++ [10] :: [10] :: codePoints second := by
    rw [append_assoc, codePoints_append first, newlines]
    rintro ⟨_, next⟩
    simp [isLow] at next
  have newline : stringPointBytes [10] = 2 := by decide
  simp only [stringBytes, parts, map_append, map_cons, sum_append, sum_cons,
    newline]
  omega

section

structure Measured.Of (measured : Measured) (messages : List RequestMessage) : Prop where
  skeleton : measured.messages = messages.map fun message => ⟨message.role, []⟩
  contentBytes : measured.contentBytes = (messages.map fun message => stringBytes message.content - 2).sum

variable {measured : Measured} {messages : List RequestMessage}

theorem Measured.Of.append (seen : measured.Of messages) (message : RequestMessage) :
    Measured.Of ⟨measured.messages ++ [⟨message.role, []⟩],
      measured.contentBytes + (stringBytes message.content - 2)⟩ (messages ++ [message]) where
  skeleton := by simp [seen.skeleton]
  contentBytes := by simp [seen.contentBytes]

theorem Measured.Of.step (seen : measured.Of messages) (message : RequestMessage) (spoken : message.role ≠ .system) :
    (measured.step true message).Of (chatStep messages message) := by
  have kept : ¬(message.role ≠ .user ∧ message.role ≠ .assistant) := by
    cases role : message.role <;> simp_all
  unfold Measured.step chatStep
  rw [if_neg kept]
  induction messages using List.reverseRecOn with
  | nil =>
    simp only [seen.skeleton, map_nil, getLast?_nil, Option.any_none, Bool.false_eq_true,
      and_false, if_false]
    simpa [seen.skeleton] using seen.append message
  | append_singleton messages previous _ =>
    have last : measured.messages.getLast?.any (·.role = .user) = decide (previous.role = .user) := by
      simp [seen.skeleton]
    simp only [last, decide_eq_true_eq, true_and, getLast?_append, getLast?_singleton,
      Option.some_or, dropLast_concat]
    split
    · refine ⟨by simp [seen.skeleton], ?_⟩
      have sum := seen.contentBytes
      simp only [map_append, map_cons, map_nil, sum_append, sum_cons,
        sum_nil] at sum ⊢
      rw [stringBytes_join]
      omega
    · exact seen.append message

theorem measured_joined (spoken : ∀ message ∈ messages, message.role ≠ .system) :
    (messages.foldl (Measured.step true) ⟨[], 0⟩).Of (messages.foldl chatStep []) := by
  induction messages using List.reverseRecOn with
  | nil => exact ⟨rfl, rfl⟩
  | append_singleton messages message ih =>
    rw [foldl_append, foldl_append]
    exact (ih fun earlier member => spoken earlier (by simp [member])).step message
      (spoken message (by simp))

theorem measured_apart : (messages.foldl (Measured.step false) ⟨[], 0⟩).Of messages := by
  induction messages using List.reverseRecOn with
  | nil => exact ⟨rfl, rfl⟩
  | append_singleton messages message ih =>
    rw [foldl_append]
    exact ih.append message

theorem estimate_joined (instructions : Text) (schema : Option Text)
    (spoken : ∀ message ∈ messages, message.role ≠ .system) :
    estimateModelInput ⟨instructions, messages.foldl chatStep [], schema⟩ false =
      estimateModelInput ⟨instructions, messages, schema⟩ true := by
  have joined := measured_joined spoken
  have apart := @measured_apart (messages.foldl chatStep [])
  unfold estimateModelInput
  simp only [apart.skeleton, apart.contentBytes, joined.skeleton, joined.contentBytes]

theorem chatModelMessages_eq (messages : List RequestMessage) (question : Text) :
    chatModelMessages messages question =
      (messages.filter (·.role ≠ .system) ++ [RequestMessage.mk .user question]).foldl chatStep [] := by
  unfold chatModelMessages
  have whole : messages.filter (·.role ≠ .system) ++ [RequestMessage.mk .user question] =
      (messages ++ [RequestMessage.mk .user question]).filter (·.role ≠ .system) := by
    simp
  rw [whole, foldl_filter]
  congr 1
  funext result message
  cases role : message.role <;> simp [chatStep, role]

end
end Context
