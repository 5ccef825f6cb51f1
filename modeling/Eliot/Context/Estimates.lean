import Eliot.Context.ModelInput
import Eliot.Context.SourceJson

namespace Context
open Text List

theorem isPair {text : Text} {high low : Nat} (listed : [high, low] ∈ codePoints text) :
    isHigh high = true ∧ isLow low = true := by
  refine ⟨?_, Json.isLow_of_pair text high low listed⟩
  rcases codePoints_points text _ listed with ⟨unit, same⟩ | ⟨first, second, same, surrogate⟩
  · simp at same
  · obtain ⟨rfl, -⟩ := List.cons.inj same
    exact surrogate

theorem encodeChar_length {code : Nat} (valid : code.isValidChar) : (Utf8.encodeChar (Char.ofNat code)).length =
    if code < 0x80 then 1 else if code < 0x800 then 2 else if code < 0x10000 then 3 else 4 := by
  unfold Utf8.encodeChar
  rw [Utf8.toNat_ofNat valid]
  dsimp only
  split_ifs <;> rfl

theorem utf8PointBytes_encode {text point : Text} (listed : point ∈ codePoints text) :
    utf8PointBytes point = (Utf8.encodeChar (scalar point)).length := by
  rcases codePoints_points text point listed with ⟨unit, rfl⟩ | ⟨high, low, rfl, surrogate⟩
  · unfold utf8PointBytes scalar
    dsimp only
    by_cases alone : unit < 0xd800 ∨ (0xdfff < unit ∧ unit < 0x10000)
    · rw [if_pos alone, encodeChar_length (by unfold Nat.isValidChar; omega)]
      split_ifs <;> first | rfl | omega
    · rw [if_neg alone, if_neg (by omega), if_neg (by omega), encodeChar_length (.inr (by decide))]
      rfl
  · obtain ⟨first, second⟩ := isPair listed
    simp only [isHigh, isLow, Bool.and_eq_true, decide_eq_true_eq] at first second
    unfold utf8PointBytes scalar
    dsimp only
    rw [encodeChar_length (by unfold Nat.isValidChar; omega), if_neg (by omega), if_neg (by omega), if_neg (by omega)]

theorem utf8Bytes_encode (text : Text) : utf8Bytes text = (encode text).length := by
  unfold utf8Bytes encode scalars Utf8.encode
  rw [length_flatMap, map_map]
  exact congrArg List.sum (map_congr_left fun point listed => utf8PointBytes_encode listed)

theorem utf8Bytes_append {first second : Text} (whole : Whole first second) :
    utf8Bytes (first ++ second) = utf8Bytes first + utf8Bytes second := by
  rw [utf8Bytes, codePoints_append first second whole, map_append, sum_append]
  rfl

theorem utf8Bytes_point {text point : Text} (listed : point ∈ codePoints text) :
    utf8Bytes (jsonPoint point) = stringPointBytes point := by
  rcases codePoints_points text point listed with ⟨unit, rfl⟩ | ⟨high, low, rfl, surrogate⟩
  · have digits (value : Nat) : hexDigit (value % 16) < 128 := by
      have range := hexDigit_range value
      omega
    have escape (code : Nat) : utf8Bytes (unicodeEscape code) = 6 := by
      refine utf8Bytes_ascii fun other member => ?_
      unfold unicodeEscape at member
      simp only [mem_cons, not_mem_nil, or_false] at member
      rcases member with rfl | rfl | rfl | rfl | rfl | rfl
      · decide
      · decide
      · exact digits _
      · exact digits _
      · exact digits _
      · exact digits _
    unfold jsonPoint stringPointBytes
    dsimp only
    by_cases special : unit = 34 ∨ unit = 92
    · rw [if_pos special, if_pos special]
      rcases special with rfl | rfl <;> decide
    rw [if_neg special, if_neg special]
    by_cases control : unit < 32
    · rw [if_pos control, if_pos control]
      interval_cases unit <;> decide
    rw [if_neg control, if_neg control]
    by_cases alone : isSurrogate unit = true
    · have range : 0xd800 ≤ unit := by
        simp only [isSurrogate, Bool.and_eq_true, decide_eq_true_eq] at alone
        exact alone.1
      rw [if_pos alone, if_neg (by omega), if_neg (by omega), if_pos alone, escape]
    · rw [if_neg alone, if_neg alone]
      show utf8PointBytes [unit] + 0 = _
      unfold utf8PointBytes
      dsimp only
      split_ifs <;> rfl
  · obtain ⟨first, second⟩ := isPair listed
    simp only [isHigh, isLow, Bool.and_eq_true, decide_eq_true_eq] at first second
    have point : codePoints [high, low] = [[high, low]] := by
      rw [codePoints, if_pos (by simp; omega)]
      rfl
    show ((codePoints [high, low]).map utf8PointBytes).sum = 4
    rw [point]
    rfl

theorem head_point (points : List Text) (each : ∀ point ∈ points, Json.Spelling point (jsonPoint point)) (rest : Text)
    (ahead : ¬rest.head?.any isLow) : ¬(points.flatMap jsonPoint ++ rest).head?.any isLow := by
  cases points with
  | nil => exact ahead
  | cons point points =>
    have spelled := each point mem_cons_self
    rw [flatMap_cons]
    generalize jsonPoint point = written at spelled ⊢
    cases spelled with
    | @plain unit quote control backslash alone =>
      simp only [isSurrogate, Bool.and_eq_false_iff, decide_eq_false_iff_not] at alone
      simp only [cons_append, nil_append, head?_cons, Option.any_some, isLow, Bool.and_eq_true,
        decide_eq_true_eq]
      omega
    | letter known other => simp [isLow]
    | code small => simp [unicodeEscape, isLow]
    | pair first second =>
      simp only [isHigh, Bool.and_eq_true, decide_eq_true_eq] at first
      simp only [cons_append, nil_append, head?_cons, Option.any_some, isLow, Bool.and_eq_true,
        decide_eq_true_eq]
      omega

theorem utf8Bytes_points {text : Text} (points : List Text) (listed : ∀ point ∈ points, point ∈ codePoints text) :
    utf8Bytes (points.flatMap jsonPoint ++ [34]) = (points.map stringPointBytes).sum + 1 := by
  induction points with
  | nil => rfl
  | cons point points ih =>
    have rest : ∀ other ∈ points, other ∈ codePoints text := fun other member => listed other (mem_cons_of_mem _ member)
    have behind := head_point points (fun other member => Json.spelling_jsonPoint (rest other member)) [34] (by decide)
    rw [flatMap_cons, append_assoc, utf8Bytes_append fun both => behind both.2, ih rest,
      utf8Bytes_point (listed point mem_cons_self), map_cons, sum_cons, Nat.add_assoc]

theorem stringBytes_jsonString (content : Text) : stringBytes content = utf8Bytes (jsonString content) := by
  have body := utf8Bytes_points (codePoints content) fun point listed => listed
  have quoted : jsonString content = [34] ++ ((codePoints content).flatMap jsonPoint ++ [34]) := rfl
  have quote : utf8Bytes [34] = 1 := by decide
  rw [quoted, utf8Bytes_append (by simp [Whole, isHigh]), body, quote, stringBytes]
  omega

structure InputMessage where
  role : Text
  content : Text

/-- A request as it is measured; `schema` is the text of its JSON value. -/
structure InputRequest where
  instructions : Text
  messages : List InputMessage
  schema : Option Text

def InputMessage.json (message : InputMessage) : Text :=
  text "\x7b\"role\":" ++ (jsonString message.role ++ (text ",\"content\":" ++
    (jsonString message.content ++ text "\x7d")))

def InputRequest.json (request : InputRequest) : Text :=
  text "\x7b\"instructions\":" ++ (jsonString request.instructions ++ (text ",\"messages\":" ++
    (jsonArray (request.messages.map InputMessage.json) ++
      ((request.schema.elim [] fun schema => text ",\"schema\":" ++ schema) ++ text "\x7d"))))

def user : Text := text "user"

structure Counted where
  messages : List InputMessage
  contentBytes : Nat

def Counted.step (joinUserMessages : Bool) (counted : Counted) (message : InputMessage) : Counted :=
  if joinUserMessages = true ∧ message.role = user ∧ counted.messages.getLast?.any (·.role = user) then
    { counted with contentBytes := counted.contentBytes + 4 + (stringBytes message.content - 2) }
  else
    { messages := counted.messages ++ [⟨message.role, []⟩]
      contentBytes := counted.contentBytes + (stringBytes message.content - 2) }

/-- `estimateModelInput` -/
def estimateInput (request : InputRequest) (joinUserMessages : Bool) : Nat :=
  let counted := request.messages.foldl (Counted.step joinUserMessages) ⟨[], 0⟩
  let skeleton := { request with instructions := [], messages := counted.messages }
  let bytes := utf8Bytes skeleton.json + (stringBytes request.instructions - 2) + counted.contentBytes
  (bytes + 2) / 3 + counted.messages.length * 32 + 1024

def RequestMessage.input (message : RequestMessage) : InputMessage := ⟨message.role.name, message.content⟩

def ModelRequest.input (request : ModelRequest) : InputRequest :=
  ⟨request.instructions, request.messages.map RequestMessage.input, request.schema⟩

def Measured.counted (measured : Measured) : Counted :=
  ⟨measured.messages.map RequestMessage.input, measured.contentBytes⟩

theorem name_user (role : Role) : role.name = user ↔ role = .user := by
  cases role <;> decide

theorem Measured.counted_step (measured : Measured) (join : Bool) (message : RequestMessage) :
    (measured.step join message).counted = measured.counted.step join message.input := by
  have asks : (measured.messages.map RequestMessage.input).getLast?.any (·.role = user) =
      measured.messages.getLast?.any (·.role = .user) := by
    rw [getLast?_map]
    cases measured.messages.getLast? with
    | none => rfl
    | some last => simp [RequestMessage.input, name_user]
  unfold Measured.step Counted.step Measured.counted
  dsimp only
  rw [asks]
  by_cases joins : join = true ∧ message.role = .user ∧ measured.messages.getLast?.any (·.role = .user) = true
  · rw [if_pos joins, if_pos ⟨joins.1, (name_user _).mpr joins.2.1, joins.2.2⟩]
    rfl
  · rw [if_neg joins, if_neg fun all => joins ⟨all.1, (name_user _).mp all.2.1, all.2.2⟩, map_append]
    rfl

theorem estimateModelInput_input (request : ModelRequest) (join : Bool) :
    estimateModelInput request join = estimateInput request.input join := by
  have fold (messages : List RequestMessage) (measured : Measured) :
      (messages.foldl (Measured.step join) measured).counted =
        (messages.map RequestMessage.input).foldl (Counted.step join) measured.counted := by
    induction messages generalizing measured with
    | nil => rfl
    | cons message messages ih => rw [foldl_cons, ih, Measured.counted_step, map_cons, foldl_cons]
  have whole := fold request.messages ⟨[], 0⟩
  have start : Measured.counted ⟨[], 0⟩ = ⟨[], 0⟩ := rfl
  rw [start] at whole
  unfold estimateInput ModelRequest.input
  dsimp only
  rw [← whole]
  have written (messages : List RequestMessage) :
      (messages.map RequestMessage.input).map InputMessage.json = messages.map RequestMessage.json := by
    rw [map_map]
    refine map_congr_left fun message _ => ?_
    simp only [Function.comp_apply, RequestMessage.input, InputMessage.json, RequestMessage.json, append_assoc]
  unfold estimateModelInput Measured.counted InputRequest.json ModelRequest.json
  simp only [written, append_assoc, length_map]

section

def InputRequest.rest (request : InputRequest) : Nat :=
  33 + (request.schema.elim 0 fun schema => 10 + utf8Bytes schema) + (stringBytes request.instructions - 2)

def Counted.load (counted : Counted) : Nat :=
  (counted.messages.map fun message => 23 + stringBytes message.role).sum + counted.contentBytes

structure Counted.Fair (counted : Counted) : Prop where
  empty : ∀ message ∈ counted.messages, message.content = []
  alone : counted.messages = [] → counted.contentBytes = 0

theorem utf8Bytes_left {first : Text} (closed : ¬first.getLast?.any isHigh) (rest : Text) :
    utf8Bytes (first ++ rest) = utf8Bytes first + utf8Bytes rest :=
  utf8Bytes_append fun both => closed both.1

theorem jsonString_closed (content : Text) : ¬(jsonString content).getLast?.any isHigh := by
  rw [jsonString, getLast?_concat]
  decide

theorem InputMessage.json_empty {message : InputMessage} (empty : message.content = []) :
    utf8Bytes message.json = 22 + stringBytes message.role := by
  have front : utf8Bytes (text "\x7b\"role\":") = 8 := by decide
  have back : utf8Bytes (text ",\"content\":" ++ (jsonString [] ++ text "\x7d")) = 14 := by decide
  rw [InputMessage.json, empty, utf8Bytes_left (by decide), utf8Bytes_left (jsonString_closed _), front, back,
    ← stringBytes_jsonString]
  omega

theorem InputMessage.json_closed (message : InputMessage) : ¬message.json.getLast?.any isHigh := by
  have last : message.json.getLast? = some 125 := by
    unfold InputMessage.json
    rw [← append_assoc, ← append_assoc, ← append_assoc]
    exact getLast?_concat
  rw [last]
  decide

theorem utf8Bytes_commas {items : List Text} (closed : ∀ item ∈ items, ¬item.getLast?.any isHigh) (rest : Text) :
    utf8Bytes ((items.intersperse [44]).flatten ++ rest) = (items.map fun item => utf8Bytes item + 1).sum - 1 +
      utf8Bytes rest := by
  induction items with
  | nil => simp
  | cons item items ih =>
    have later := ih fun other member => closed other (mem_cons_of_mem _ member)
    have first := closed item mem_cons_self
    have comma : utf8Bytes [44] = 1 := by decide
    cases items with
    | nil =>
      rw [intersperse_singleton, flatten_singleton, utf8Bytes_left first]
      simp
    | cons next others =>
      have some' : 0 < ((next :: others).map fun item => utf8Bytes item + 1).sum := by
        rw [map_cons, sum_cons]
        omega
      have whole : ((item :: next :: others).map fun item => utf8Bytes item + 1).sum =
          utf8Bytes item + 1 + ((next :: others).map fun item => utf8Bytes item + 1).sum := by
        rw [map_cons, sum_cons]
      rw [intersperse_cons_cons, flatten_cons, flatten_cons, append_assoc, append_assoc,
        utf8Bytes_left first, utf8Bytes_left (by decide), later, comma, whole]
      omega

theorem InputRequest.json_bytes (schema : Option Text) {messages : List InputMessage}
    (empty : ∀ message ∈ messages, message.content = []) :
    utf8Bytes (InputRequest.json ⟨[], messages, schema⟩) = 33 + (schema.elim 0 fun schema => 10 + utf8Bytes schema) +
      ((messages.map fun message => 23 + stringBytes message.role).sum - 1) := by
  have opening : utf8Bytes (text "\x7b\"instructions\":") = 16 := by decide
  have none : utf8Bytes (jsonString []) = 2 := by decide
  have middle : utf8Bytes (text ",\"messages\":") = 12 := by decide
  have bracket : utf8Bytes [91] = 1 := by decide
  have closing : utf8Bytes (text "\x7d") = 1 := by decide
  have tail : utf8Bytes ((schema.elim [] fun schema => text ",\"schema\":" ++ schema) ++ text "\x7d") =
      1 + schema.elim 0 fun schema => 10 + utf8Bytes schema := by
    cases schema with
    | none => exact closing
    | some schema =>
      have name : utf8Bytes (text ",\"schema\":") = 10 := by decide
      rw [Option.elim_some, Option.elim_some, utf8Bytes_append fun both => absurd both.2 (by decide),
        utf8Bytes_left (by decide), name, closing]
      omega
  have items : ∀ item ∈ messages.map InputMessage.json, ¬item.getLast?.any isHigh := by
    intro item listed
    obtain ⟨message, -, rfl⟩ := mem_map.mp listed
    exact message.json_closed
  have sizes : (messages.map InputMessage.json).map (fun item => utf8Bytes item + 1) =
      messages.map fun message => 23 + stringBytes message.role := by
    rw [map_map]
    refine map_congr_left fun message listed => ?_
    have size := InputMessage.json_empty (empty message listed)
    show utf8Bytes message.json + 1 = _
    omega
  have array (rest : Text) : jsonArray (messages.map InputMessage.json) ++ rest =
      [91] ++ (((messages.map InputMessage.json).intersperse [44]).flatten ++ ([93] ++ rest)) := by
    unfold jsonArray
    simp only [cons_append, append_assoc, nil_append]
  have stop : utf8Bytes [93] = 1 := by decide
  unfold InputRequest.json
  dsimp only
  rw [utf8Bytes_left (by decide), utf8Bytes_left (jsonString_closed _), utf8Bytes_left (by decide), array,
    utf8Bytes_left (by decide), utf8Bytes_commas items, utf8Bytes_left (by decide), sizes, opening, none, middle,
    bracket, stop, tail]
  omega

variable {join : Bool}

def Counted.asks (join : Bool) (counted : Counted) : Bool :=
  join && counted.messages.getLast?.any (·.role = user)

theorem Counted.step_adds (counted : Counted) (message : InputMessage) :
    (message.role = user ∧ counted.asks join = true ∧
      (counted.step join message).load = counted.load + 4 + (stringBytes message.content - 2) ∧
      (counted.step join message).messages = counted.messages) ∨
    (¬(message.role = user ∧ counted.asks join = true) ∧
      (counted.step join message).load =
        counted.load + (23 + stringBytes message.role) + (stringBytes message.content - 2) ∧
      (counted.step join message).messages = counted.messages ++ [⟨message.role, []⟩]) := by
  unfold Counted.step Counted.asks
  by_cases joins : join = true ∧ message.role = user ∧ counted.messages.getLast?.any (·.role = user) = true
  · rw [if_pos joins]
    refine .inl ⟨joins.2.1, by rw [joins.1, joins.2.2]; rfl, ?_, rfl⟩
    unfold Counted.load
    dsimp only
    omega
  · rw [if_neg joins]
    refine .inr ⟨fun both => joins ?_, ?_, rfl⟩
    · rw [Bool.and_eq_true] at both
      exact ⟨both.2.1, both.1, both.2.2⟩
    · unfold Counted.load
      simp only [map_append, map_cons, map_nil, sum_append, sum_cons, sum_nil]
      omega

theorem Counted.step_asks (counted : Counted) (message : InputMessage) :
    (counted.step join message).asks join = (join && message.role = user) := by
  rcases @step_adds join counted message with ⟨role, asks, -, same⟩ | ⟨-, -, same⟩
  · unfold Counted.asks at asks ⊢
    rw [same, asks, role]
    cases join with
    | false => cases asks
    | true => decide
  · unfold Counted.asks
    rw [same, getLast?_concat, Option.any_some]

theorem Counted.Fair.step {counted : Counted} (fair : counted.Fair) (message : InputMessage) :
    (counted.step join message).Fair := by
  unfold Counted.step
  split
  · rename_i joins
    refine ⟨fair.empty, fun none => ?_⟩
    have last := joins.2.2
    have empty : counted.messages = [] := none
    rw [empty] at last
    cases last
  · refine ⟨fun other listed => ?_, fun none => absurd none (by simp)⟩
    rcases mem_append.mp listed with listed | listed
    · exact fair.empty other listed
    · rw [mem_singleton.mp listed]

theorem Counted.Fair.fold {counted : Counted} (fair : counted.Fair) (messages : List InputMessage) :
    (messages.foldl (Counted.step join) counted).Fair := by
  induction messages generalizing counted with
  | nil => exact fair
  | cons message messages ih => exact ih (fair.step message)

theorem estimateInput_load (request : InputRequest) (join : Bool) :
    estimateInput request join = (request.rest +
      ((request.messages.foldl (Counted.step join) ⟨[], 0⟩).load - 1) + 2) / 3 +
      (request.messages.foldl (Counted.step join) ⟨[], 0⟩).messages.length * 32 + 1024 := by
  have start : Counted.Fair ⟨[], 0⟩ := ⟨by simp, fun _ => rfl⟩
  have fair := @Counted.Fair.fold join _ start request.messages
  unfold estimateInput
  generalize request.messages.foldl (Counted.step join) ⟨[], 0⟩ = counted at fair ⊢
  have skeleton := InputRequest.json_bytes request.schema fair.empty
  dsimp only at skeleton ⊢
  rw [skeleton]
  unfold InputRequest.rest Counted.load
  have alone : (counted.messages.map fun message => 23 + stringBytes message.role).sum = 0 → counted.contentBytes = 0 := by
    intro zero
    refine fair.alone ?_
    cases shape : counted.messages with
    | nil => rfl
    | cons message messages =>
      rw [shape, map_cons, sum_cons] at zero
      omega
  have total (schema instructions sum contents : Nat) (fine : sum = 0 → contents = 0) :
      33 + schema + (sum - 1) + instructions + contents = 33 + schema + instructions + (sum + contents - 1) := by
    by_cases zero : sum = 0
    · rw [zero, fine zero]
      omega
    · omega
  rw [total _ _ _ _ alone]

structure Counted.Below (join : Bool) (less more : Counted) : Prop where
  load : less.load ≤ more.load
  count : less.messages.length ≤ more.messages.length
  lead : less.asks join = false → more.asks join = true →
    less.load + 25 ≤ more.load ∧ less.messages.length + 1 ≤ more.messages.length

variable {less more : Counted}

theorem Counted.Below.step (below : less.Below join more) {role : Text} {short long : Text}
    (content : stringBytes short ≤ stringBytes long) :
    (less.step join ⟨role, short⟩).Below join (more.step join ⟨role, long⟩) := by
  have load := below.load
  have count := below.count
  have name : role = user → stringBytes role = 6 := by
    rintro rfl
    decide
  have asks (counted : Counted) (content : Text) :
      (counted.step join ⟨role, content⟩).asks join = (join && role = user) := counted.step_asks _
  rcases @step_adds join less ⟨role, short⟩ with ⟨one, joins, first, same⟩ | ⟨one, first, same⟩
  · rcases @step_adds join more ⟨role, long⟩ with ⟨two, others, second, equal⟩ | ⟨two, second, equal⟩
    · dsimp only at first second
      refine ⟨by omega, by rw [same, equal]; exact count, fun none some' => ?_⟩
      rw [asks] at none some'
      rw [none] at some'
      cases some'
    · dsimp only at first second one
      have small := name one
      refine ⟨by omega, by rw [same, equal, length_append]; omega, fun none some' => ?_⟩
      rw [asks] at none some'
      rw [none] at some'
      cases some'
  · rcases @step_adds join more ⟨role, long⟩ with ⟨two, others, second, equal⟩ | ⟨two, second, equal⟩
    · dsimp only at first second two
      have small := name two
      have apart : less.asks join = false := by
        cases found : less.asks join with
        | false => rfl
        | true => exact absurd ⟨two, found⟩ one
      have lead := below.lead apart others
      refine ⟨by omega, by rw [same, equal, length_append, length_singleton]; omega, fun none some' => ?_⟩
      rw [asks] at none some'
      rw [none] at some'
      cases some'
    · dsimp only at first second
      refine ⟨by omega, ?_, fun none some' => ?_⟩
      · simp only [same, equal, length_append, length_singleton]
        omega
      rw [asks] at none some'
      rw [none] at some'
      cases some'

theorem Counted.below_refl (counted : Counted) : counted.Below join counted :=
  ⟨Nat.le_refl _, Nat.le_refl _, fun none some' => by rw [none] at some'; cases some'⟩

theorem Counted.below_step (counted : Counted) (message : InputMessage) :
    counted.Below join (counted.step join message) := by
  have asks := @Counted.step_asks join counted message
  rcases @step_adds join counted message with ⟨role, joins, load, same⟩ | ⟨apart, load, same⟩
  · exact ⟨by omega, by rw [same], fun none _ => by rw [joins] at none; cases none⟩
  · refine ⟨by omega, by rw [same, length_append]; omega, fun none some' => ?_⟩
    rw [asks, Bool.and_eq_true, decide_eq_true_eq] at some'
    have name : stringBytes message.role = 6 := by
      rw [some'.2]
      decide
    rw [same, length_append, length_singleton]
    omega

theorem Counted.Below.fold (below : less.Below join more) (messages : List InputMessage) :
    (messages.foldl (Counted.step join) less).Below join (messages.foldl (Counted.step join) more) := by
  induction messages generalizing less more with
  | nil => exact below
  | cons message messages ih => exact ih (below.step (Nat.le_refl _))

theorem estimateInput_le {first second : InputRequest} (rest : first.rest ≤ second.rest)
    (below : (first.messages.foldl (Counted.step join) ⟨[], 0⟩).Below join
      (second.messages.foldl (Counted.step join) ⟨[], 0⟩)) :
    estimateInput first join ≤ estimateInput second join := by
  have load := below.load
  have count := below.count
  rw [estimateInput_load, estimateInput_load]
  have bytes : (first.rest + ((first.messages.foldl (Counted.step join) ⟨[], 0⟩).load - 1) + 2) / 3 ≤
      (second.rest + ((second.messages.foldl (Counted.step join) ⟨[], 0⟩).load - 1) + 2) / 3 :=
    Nat.div_le_div_right (by omega)
  omega

theorem points_split (front back : Text) : ((codePoints (front ++ back)).map stringPointBytes).sum ≤
    ((codePoints front).map stringPointBytes).sum + ((codePoints back).map stringPointBytes).sum := by
  by_cases whole : Whole front back
  · rw [codePoints_append front back whole, map_append, sum_append]
  · obtain ⟨last, head⟩ := not_not.mp whole
    cases front using List.reverseRecOn with
    | nil => cases last
    | append_singleton front high =>
      cases back with
      | nil => cases head
      | cons low back =>
        simp only [getLast?_concat, head?_cons, Option.any_some, isHigh, isLow, Bool.and_eq_true,
          decide_eq_true_eq] at last head
        have before : ¬(front.getLast?.any isHigh ∧ ([high] : Text).head?.any isLow) := by
          rintro ⟨-, low⟩
          simp only [head?_cons, Option.any_some, isLow, Bool.and_eq_true, decide_eq_true_eq] at low
          omega
        have between : ¬(front.getLast?.any isHigh ∧ (high :: low :: back).head?.any isLow) := before
        have joined : codePoints (high :: low :: back) = [high, low] :: codePoints back := by
          rw [codePoints, if_pos]
          simp only [Bool.and_eq_true, decide_eq_true_eq]
          exact ⟨last, head⟩
        have alone : codePoints (low :: back) = [low] :: codePoints back := by
          refine codePoints_cons ?_ back
          simp only [isHigh, Bool.and_eq_false_iff, decide_eq_false_iff_not]
          omega
        have single : codePoints [high] = [[high]] := rfl
        have six : stringPointBytes [high] = 6 := by
          have surrogate : isSurrogate high = true := by
            simp only [isSurrogate, Bool.and_eq_true, decide_eq_true_eq]
            omega
          unfold stringPointBytes
          dsimp only
          rw [if_neg (by omega), if_neg (by omega), if_neg (by omega), if_neg (by omega), if_pos surrogate]
        have pair : stringPointBytes [high, low] = 4 := rfl
        rw [append_assoc, singleton_append, codePoints_append _ _ between, joined,
          codePoints_append _ _ before, alone, single]
        simp only [map_append, map_cons, map_nil, sum_append, sum_cons, sum_nil, six, pair]
        omega

theorem stringBytes_insert {front added back : Text} (before : Whole front (added ++ back)) (behind : Whole added back) :
    stringBytes (front ++ back) ≤ stringBytes (front ++ (added ++ back)) := by
  have split := points_split front back
  unfold stringBytes
  rw [codePoints_append _ _ before, codePoints_append _ _ behind]
  simp only [map_append, sum_append]
  omega

end

/-- The estimate counts exact bytes, and shrinks neither when a message is added anywhere nor when characters are
    added anywhere in a content or in the instructions, unless a surrogate among them joins one that stood alone. -/
theorem estimateInput_mono :
    (∀ content : Text, stringBytes content = (encode (jsonString content)).length) ∧
    (∀ (join : Bool) (instructions : Text) (schema : Option Text) (before after : List InputMessage)
      (message : InputMessage), estimateInput ⟨instructions, before ++ after, schema⟩ join ≤
        estimateInput ⟨instructions, before ++ message :: after, schema⟩ join) ∧
    (∀ (join : Bool) (instructions : Text) (schema : Option Text) (before after : List InputMessage)
      (role front added back : Text), Whole front (added ++ back) → Whole added back →
        estimateInput ⟨instructions, before ++ ⟨role, front ++ back⟩ :: after, schema⟩ join ≤
          estimateInput ⟨instructions, before ++ ⟨role, front ++ (added ++ back)⟩ :: after, schema⟩ join) ∧
    ∀ (join : Bool) (messages : List InputMessage) (schema : Option Text) (front added back : Text),
      Whole front (added ++ back) → Whole added back →
        estimateInput ⟨front ++ back, messages, schema⟩ join ≤
          estimateInput ⟨front ++ (added ++ back), messages, schema⟩ join := by
  refine ⟨fun content => ?_, ?_, ?_, ?_⟩
  · rw [stringBytes_jsonString, utf8Bytes_encode]
  · intro join instructions schema before after message
    refine estimateInput_le (Nat.le_refl _) ?_
    rw [foldl_append, foldl_append, foldl_cons]
    exact (Counted.below_step _ message).fold after
  · intro join instructions schema before after role front added back ahead behind
    refine estimateInput_le (Nat.le_refl _) ?_
    rw [foldl_append, foldl_append, foldl_cons, foldl_cons]
    exact ((Counted.below_refl _).step (stringBytes_insert ahead behind)).fold after
  · intro join messages schema front added back ahead behind
    refine estimateInput_le ?_ (Counted.below_refl _)
    have grows := stringBytes_insert ahead behind
    unfold InputRequest.rest
    dsimp only
    omega

/-- A letter behind a question. -/
theorem estimateInput_mono_letter :
    estimateInput ⟨[], [⟨user, [97]⟩], none⟩ true ≤ estimateInput ⟨[], [⟨user, [97, 98]⟩], none⟩ true :=
  estimateInput_mono.2.2.1 true [] none [] [] user [97] [98] [] (by unfold Whole; decide) (by unfold Whole; decide)

/-- The second half of a pair makes its first half shorter. -/
theorem estimateInput_shrinks :
    ¬∀ (role front added : Text), added.length = 1 →
      estimateInput ⟨[], [⟨role, front⟩], none⟩ true ≤ estimateInput ⟨[], [⟨role, front ++ added⟩], none⟩ true := by
  intro claim
  have grows := claim user [0xd83d] [0xde00] rfl
  have less : estimateInput ⟨[], [⟨user, [0xd83d, 0xde00]⟩], none⟩ true = 1078 := by decide +kernel
  have more : estimateInput ⟨[], [⟨user, [0xd83d]⟩], none⟩ true = 1079 := by decide +kernel
  rw [more] at grows
  have shorter : estimateInput ⟨[], [⟨user, [0xd83d, 0xde00]⟩], none⟩ true < 1079 := by omega
  exact absurd grows (not_le.mpr shorter)

end Context
