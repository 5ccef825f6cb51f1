import Eliot.Context.History
import Eliot.Text.Scalars

namespace Context
open Text Citations List Measured

theorem RequestMessage.json_empty {message : RequestMessage} (empty : message.content = []) :
    Ascii message.json ∧ message.json.length = 22 + stringBytes message.role.name := by
  obtain ⟨role, content⟩ := message
  obtain rfl : content = [] := empty
  cases role
  · exact ⟨by unfold Ascii; decide, by decide⟩
  · exact ⟨by unfold Ascii; decide, by decide⟩
  · exact ⟨by unfold Ascii; decide, by decide⟩

theorem commas_length {items : List Text} (filled : items ≠ []) :
    ((items.intersperse [44]).flatten).length + 1 = (items.map (·.length + 1)).sum := by
  induction items with
  | nil => exact absurd rfl filled
  | cons item items ih =>
    cases items with
    | nil => simp
    | cons next others =>
      have rest := ih (cons_ne_nil _ _)
      rw [intersperse_cons_cons, flatten_cons, flatten_cons, length_append, length_append,
        map_cons, sum_cons, ← rest, length_singleton]
      omega

theorem ascii_commas {items : List Text} (each : ∀ item ∈ items, Ascii item) :
    Ascii (items.intersperse [44]).flatten := by
  induction items with
  | nil =>
    intro unit member
    cases member
  | cons item items ih =>
    have rest := ih fun other member => each other (mem_cons_of_mem _ member)
    have first := each item mem_cons_self
    cases items with
    | nil =>
      rw [intersperse_singleton, flatten_singleton]
      exact first
    | cons next others =>
      have comma : Ascii [44] := by
        unfold Ascii
        decide
      rw [intersperse_cons_cons, flatten_cons, flatten_cons]
      exact first.append (comma.append rest)

theorem skeleton_bytes {messages : List RequestMessage} (empty : ∀ message ∈ messages, message.content = [])
    (filled : messages ≠ []) :
    utf8Bytes (ModelRequest.json ⟨[], messages, none⟩) + 1 =
      33 + (messages.map fun message => 23 + stringBytes message.role.name).sum := by
  have items : ∀ item ∈ messages.map RequestMessage.json, Ascii item := by
    intro item member
    obtain ⟨message, listed, rfl⟩ := mem_map.mp member
    exact (RequestMessage.json_empty (empty message listed)).1
  have opening : Ascii (text "\x7b\"instructions\":" ++ jsonString [] ++ text ",\"messages\":" ++ [91]) := by
    unfold Ascii
    decide
  have closing : Ascii ([93] ++ ([] ++ text "\x7d")) := by
    unfold Ascii
    decide
  have parts : ModelRequest.json ⟨[], messages, none⟩ =
      (text "\x7b\"instructions\":" ++ jsonString [] ++ text ",\"messages\":" ++ [91]) ++
        ((messages.map RequestMessage.json).intersperse [44]).flatten ++ ([93] ++ ([] ++ text "\x7d")) := by
    unfold ModelRequest.json jsonArray
    simp only [append_assoc, cons_append, nil_append, Option.elim_none]
  have lengths : (messages.map RequestMessage.json).map (·.length + 1) =
      messages.map fun message => 23 + stringBytes message.role.name := by
    rw [map_map]
    refine map_congr_left ?_
    intro message member
    have size := (RequestMessage.json_empty (empty message member)).2
    show message.json.length + 1 = _
    omega
  have some' : messages.map RequestMessage.json ≠ [] := by simpa using filled
  have between := commas_length some'
  have front : (text "\x7b\"instructions\":" ++ jsonString [] ++ text ",\"messages\":" ++ [91]).length = 31 := by decide
  have back : ([93] ++ ([] ++ text "\x7d")).length = 2 := by decide
  rw [utf8Bytes_ascii (by rw [parts]; exact (opening.append (ascii_commas items)).append closing), parts,
    length_append, length_append, front, back, ← lengths]
  omega

def RequestMessage.weight (message : RequestMessage) : Nat :=
  23 + stringBytes message.role.name + (stringBytes message.content - 2)

def Measured.weight (measured : Measured) : Nat :=
  (measured.messages.map fun message => 23 + stringBytes message.role.name).sum + measured.contentBytes

theorem estimateHistoryMessage_eq (message : RequestMessage) :
    estimateHistoryMessage message = (message.weight + 2) / 3 + 32 := by
  have quotes : 2 ≤ stringBytes message.content := Nat.le_add_right _ _
  unfold estimateHistoryMessage RequestMessage.weight
  congr 3
  omega

theorem Measured.step_weight (measured : Measured) (message : RequestMessage) :
    (message.role = .user ∧ (measured.messages.getLast?.any (·.role = .user)) = true ∧
      (measured.step true message).weight = measured.weight + 4 + (stringBytes message.content - 2) ∧
      (measured.step true message).messages = measured.messages) ∨
    (¬(message.role = .user ∧ (measured.messages.getLast?.any (·.role = .user)) = true) ∧
      (measured.step true message).weight = measured.weight + message.weight ∧
      (measured.step true message).messages = measured.messages ++ [⟨message.role, []⟩]) := by
  unfold Measured.step
  by_cases joins : message.role = .user ∧ (measured.messages.getLast?.any (·.role = .user)) = true
  · rw [if_pos ⟨rfl, joins.1, joins.2⟩]
    refine .inl ⟨joins.1, joins.2, ?_, rfl⟩
    unfold Measured.weight
    dsimp only
    omega
  · rw [if_neg fun all => joins ⟨all.2.1, all.2.2⟩]
    refine .inr ⟨joins, ?_, rfl⟩
    unfold Measured.weight RequestMessage.weight
    simp only [map_append, map_cons, map_nil, sum_append, sum_cons, sum_nil]
    omega

def Measured.asks (measured : Measured) : Bool := measured.messages.getLast?.any (·.role = .user)

theorem Measured.step_user (measured : Measured) {message : RequestMessage} (user : message.role = .user) :
    (measured.step true message).weight =
        measured.weight + (if measured.asks then 4 else 29) + (stringBytes message.content - 2) ∧
      (measured.step true message).messages.length = measured.messages.length + (if measured.asks then 0 else 1) ∧
      (measured.step true message).asks = true := by
  have name : stringBytes Role.user.name = 6 := by decide
  rcases measured.step_weight message with ⟨-, asks, weight, same⟩ | ⟨apart, weight, same⟩
  · have asks : measured.asks = true := asks
    rw [weight, same, asks]
    refine ⟨rfl, rfl, ?_⟩
    rw [Measured.asks, same]
    exact asks
  · have silent : measured.asks = false := by
      by_contra asks
      exact apart ⟨user, by simpa [Measured.asks] using asks⟩
    rw [weight, same, silent, RequestMessage.weight, user, name]
    refine ⟨by simp; omega, by simp, ?_⟩
    rw [Measured.asks, same]
    simp [user]

theorem Measured.step_assistant (measured : Measured) {message : RequestMessage} (assistant : message.role = .assistant) :
    (measured.step true message).weight = measured.weight + 34 + (stringBytes message.content - 2) ∧
      (measured.step true message).messages.length = measured.messages.length + 1 ∧
      (measured.step true message).asks = false := by
  have name : stringBytes Role.assistant.name = 11 := by decide
  rcases measured.step_weight message with ⟨user, -⟩ | ⟨-, weight, same⟩
  · rw [assistant] at user
    cases user
  · rw [weight, same, RequestMessage.weight, assistant, name]
    refine ⟨by omega, by simp, ?_⟩
    rw [Measured.asks, same]
    simp [assistant]

theorem measured_empty (messages : List RequestMessage) :
    ∀ message ∈ (messages.foldl (Measured.step true) ⟨[], 0⟩).messages, message.content = [] := by
  induction messages using List.reverseRecOn with
  | nil =>
    intro message member
    cases member
  | append_singleton messages next ih =>
    rw [foldl_append]
    rcases step_weight (messages.foldl (Measured.step true) ⟨[], 0⟩) next with ⟨-, -, -, same⟩ | ⟨-, -, same⟩
    · intro message member
      exact ih message (same ▸ member)
    · intro message member
      have listed : message ∈ (messages.foldl (Measured.step true) ⟨[], 0⟩).messages ++ [⟨next.role, []⟩] :=
        same ▸ member
      rcases mem_append.mp listed with earlier | last
      · exact ih message earlier
      · rw [mem_singleton.mp last]

theorem Measured.step_filled (measured : Measured) (message : RequestMessage) :
    (measured.step true message).messages ≠ [] := by
  rcases measured.step_weight message with ⟨-, asks, -, same⟩ | ⟨-, -, same⟩
  · rw [same]
    intro none
    rw [none] at asks
    cases asks
  · rw [same]
    simp

theorem estimateModelInput_eq (instructions : Text) (messages : List RequestMessage) (question : RequestMessage) :
    let measured := (messages.foldl (Measured.step true) ⟨[], 0⟩).step true question
    estimateModelInput ⟨instructions, messages ++ [question], none⟩ true =
      (32 + measured.weight + (stringBytes instructions - 2) + 2) / 3 + measured.messages.length * 32 + 1024 := by
  have empty := measured_empty (messages ++ [question])
  have filled := (messages.foldl (Measured.step true) ⟨[], 0⟩).step_filled question
  have seen : (messages ++ [question]).foldl (Measured.step true) ⟨[], 0⟩ =
      (messages.foldl (Measured.step true) ⟨[], 0⟩).step true question := by
    rw [foldl_append]
    rfl
  rw [seen] at empty
  dsimp only
  generalize (messages.foldl (Measured.step true) ⟨[], 0⟩).step true question = measured at *
  have skeleton := skeleton_bytes empty filled
  have bytes : utf8Bytes (ModelRequest.json ⟨[], measured.messages, none⟩) + (stringBytes instructions - 2) +
      measured.contentBytes = 32 + measured.weight + (stringBytes instructions - 2) := by
    unfold Measured.weight
    omega
  unfold estimateModelInput
  dsimp only
  rw [seen, bytes]

section

inductive Exchange : List ContextMessage → Prop where
  | asked {user : ContextMessage} (question : user.role = .user) : Exchange [user]
  | answered {user assistant : ContextMessage} (question : user.role = .user) (answer : assistant.role = .assistant) :
      Exchange [user, assistant]

variable {exchange : List ContextMessage} {exchanges : List (List ContextMessage)}

theorem Exchange.spoken (whole : Exchange exchange) : ∀ message ∈ exchange, message.role ≠ .system := by
  cases whole with
  | asked question => simp [question]
  | answered question answer => simp [question, answer]

def weights (messages : List ContextMessage) : List Nat := messages.map (·.toRequestMessage.weight)

theorem Exchange.adds (whole : Exchange exchange) (measured : Measured) {question : RequestMessage}
    (user : question.role = .user) :
    let after := (exchange.map (·.toRequestMessage)).foldl (Measured.step true) measured
    (after.step true question).weight ≤ (measured.step true question).weight + (weights exchange).sum ∧
      (after.step true question).messages.length ≤ (measured.step true question).messages.length + exchange.length := by
  have names : stringBytes Role.user.name = 6 ∧ stringBytes Role.assistant.name = 11 := by decide
  obtain ⟨weight, length, -⟩ := step_user measured user
  cases whole with
  | @asked asker asks =>
    obtain ⟨weight', length', asks'⟩ := step_user measured asks
    obtain ⟨last, size, -⟩ := step_user (measured.step true asker.toRequestMessage) user
    rw [asks'] at last size
    simp only [map_cons, map_nil, foldl_cons, foldl_nil, weights, sum_cons, sum_nil,
      RequestMessage.weight, asks, names, length_cons, length_nil, if_true] at last size ⊢
    cases silent : measured.asks with
    | false =>
      simp only [silent, Bool.false_eq_true, if_false] at weight weight' length length'
      omega
    | true =>
      simp only [silent, if_true] at weight weight' length length'
      omega
  | @answered asker assistant asks answers =>
    obtain ⟨weight', length', -⟩ := step_user measured asks
    obtain ⟨weight'', length'', silent⟩ :=
      step_assistant (measured.step true asker.toRequestMessage) answers
    obtain ⟨last, size, -⟩ := step_user
      ((measured.step true asker.toRequestMessage).step true assistant.toRequestMessage) user
    rw [silent] at last size
    simp only [map_cons, map_nil, foldl_cons, foldl_nil, weights, sum_cons, sum_nil,
      RequestMessage.weight, asks, answers, names, length_cons, length_nil, Bool.false_eq_true,
      if_false] at last size ⊢
    cases silent' : measured.asks with
    | false =>
      simp only [silent', Bool.false_eq_true, if_false] at weight weight' length length'
      omega
    | true =>
      simp only [silent', if_true] at weight weight' length length'
      omega

theorem exchanges_add (whole : ∀ exchange ∈ exchanges, Exchange exchange) (measured : Measured)
    {question : RequestMessage} (user : question.role = .user) :
    let after := (exchanges.flatten.map (·.toRequestMessage)).foldl (Measured.step true) measured
    (after.step true question).weight ≤ (measured.step true question).weight + (weights exchanges.flatten).sum ∧
      (after.step true question).messages.length ≤
        (measured.step true question).messages.length + exchanges.flatten.length := by
  induction exchanges generalizing measured with
  | nil => simp [weights]
  | cons exchange exchanges ih =>
    have first := (whole exchange mem_cons_self).adds measured user
    have rest := ih (fun other member => whole other (mem_cons_of_mem _ member))
      ((exchange.map (·.toRequestMessage)).foldl (Measured.step true) measured)
    dsimp only at first rest ⊢
    rw [flatten_cons, map_append, foldl_append]
    simp only [weights, map_append, sum_append, length_append] at first rest ⊢
    omega

theorem ceil_sum (base : Nat) (parts : List Nat) :
    (base + parts.sum + 2) / 3 ≤ (base + 2) / 3 + (parts.map fun part => (part + 2) / 3).sum := by
  induction parts with
  | nil => simp
  | cons part parts ih =>
    rw [sum_cons, map_cons, sum_cons]
    omega

def historyCost (messages : List ContextMessage) : Nat :=
  (messages.map fun message => estimateHistoryMessage message.toRequestMessage).sum

theorem historyCost_eq (messages : List ContextMessage) :
    historyCost messages = ((weights messages).map fun weight => (weight + 2) / 3).sum + messages.length * 32 := by
  induction messages with
  | nil => rfl
  | cons message messages ih =>
    have here := estimateHistoryMessage_eq message.toRequestMessage
    simp only [historyCost, weights, map_cons, sum_cons, length_cons] at ih ⊢
    omega

theorem flatten_spoken (whole : ∀ exchange ∈ exchanges, Exchange exchange) :
    ∀ message ∈ exchanges.flatten, message.role ≠ .system := by
  intro message member
  obtain ⟨exchange, listed, inside⟩ := mem_flatten.mp member
  exact (whole exchange listed).spoken message inside

theorem requestTokens_adds (whole : ∀ exchange ∈ exchanges, Exchange exchange) (evidence : List ContextMessage)
    (caller : Caller) :
    requestTokens (evidence ++ exchanges.flatten) caller ≤
      requestTokens evidence caller + historyCost exchanges.flatten := by
  have spoken := flatten_spoken whole
  have silent : exchanges.flatten.filter (·.role = .system) = [] := by
    rw [filter_eq_nil_iff]
    intro message member
    simpa using spoken message member
  have all : exchanges.flatten.filter (·.role ≠ .system) = exchanges.flatten := by
    rw [filter_eq_self]
    intro message member
    simpa using spoken message member
  unfold requestTokens
  dsimp only
  rw [filter_append, filter_append, silent, all, append_nil, map_append]
  generalize (evidence.filter (·.role ≠ .system)).map (·.toRequestMessage) = front
  generalize joinInstructions ((evidence.filter (·.role = .system)).map (·.content) ++
    [caller.instructions.getD []]) = instructions
  have added := exchanges_add whole (front.foldl (Measured.step true) ⟨[], 0⟩)
    (rfl : (RequestMessage.mk .user (caller.question.getD [])).role = .user)
  have before := estimateModelInput_eq instructions front ⟨.user, caller.question.getD []⟩
  have after := estimateModelInput_eq instructions (front ++ exchanges.flatten.map (·.toRequestMessage))
    ⟨.user, caller.question.getD []⟩
  have cost := historyCost_eq exchanges.flatten
  dsimp only at added before after
  rw [foldl_append] at after
  rw [before, after, cost]
  have rounded := ceil_sum (32 + ((front.foldl (Measured.step true) ⟨[], 0⟩).step true
    ⟨.user, caller.question.getD []⟩).weight + (stringBytes instructions - 2)) (weights exchanges.flatten)
  omega

end

section
variable {exchanges : List (List ContextMessage)} {exchange : List ContextMessage} {place : Nat}

theorem Exchange.filled (whole : Exchange exchange) : 0 < exchange.length := by
  cases whole
  · exact Nat.one_pos
  · exact Nat.two_pos

def startOf (exchanges : List (List ContextMessage)) (place : Nat) : Nat := (exchanges.take place).flatten.length

theorem drop_startOf (exchanges : List (List ContextMessage)) (place : Nat) :
    exchanges.flatten.drop (startOf exchanges place) = (exchanges.drop place).flatten := by
  have split : exchanges.flatten = (exchanges.take place).flatten ++ (exchanges.drop place).flatten := by
    rw [← flatten_append, take_append_drop]
  rw [split, startOf, drop_left]

theorem startOf_succ (found : exchanges[place]? = some exchange) :
    startOf exchanges (place + 1) = startOf exchanges place + exchange.length := by
  obtain ⟨inside, rfl⟩ := List.getElem?_eq_some_iff.mp found
  rw [startOf, startOf, take_succ_eq_append_getElem inside, flatten_append, length_append,
    flatten_singleton]

theorem startOf_lt (whole : ∀ exchange ∈ exchanges, Exchange exchange) {later : Nat} (order : place < later)
    (within : later ≤ exchanges.length) : startOf exchanges place < startOf exchanges later := by
  induction later with
  | zero => omega
  | succ later ih =>
    have inside : later < exchanges.length := within
    have found : exchanges[later]? = some exchanges[later] := getElem?_eq_getElem inside
    have filled := (whole _ (getElem_mem inside)).filled
    rw [startOf_succ found]
    by_cases same : place = later
    · rw [same]
      omega
    · have before := ih (by omega) (by omega)
      omega

theorem latest_start (whole : ∀ exchange ∈ exchanges, Exchange exchange) :
    latestExchangeStart exchanges.flatten = startOf exchanges (exchanges.length - 1) := by
  cases exchanges using List.reverseRecOn with
  | nil => rfl
  | append_singleton earlier newest =>
    have last := whole newest (by simp)
    have front : startOf (earlier ++ [newest]) ((earlier ++ [newest]).length - 1) = earlier.flatten.length := by
      rw [startOf, length_append, length_singleton, Nat.add_sub_cancel, take_left]
    rw [front, latestExchangeStart, flatten_append, flatten_singleton, length_append]
    cases last with
    | asked question => simp [question]
    | answered question answer => simp [answer]

theorem oldest_exchange (whole : ∀ exchange ∈ exchanges, Exchange exchange) (found : exchanges[place]? = some exchange) :
    let oldest := if exchanges.flatten[startOf exchanges place + 1]?.any (·.role = .assistant) then 2 else 1
    (exchanges.flatten.drop (startOf exchanges place)).take oldest = exchange := by
  have inside := (List.getElem?_eq_some_iff.mp found).1
  have split : exchanges.drop place = exchange :: exchanges.drop (place + 1) := by
    rw [drop_eq_getElem_cons inside, (List.getElem?_eq_some_iff.mp found).2]
  have next : exchanges.flatten[startOf exchanges place + 1]? =
      (exchange ++ (exchanges.drop (place + 1)).flatten)[1]? := by
    rw [← getElem?_drop, drop_startOf, split, flatten_cons]
  dsimp only
  rw [next, drop_startOf, split, flatten_cons]
  cases whole exchange (mem_of_getElem? found) with
  | answered question answer => simp [answer]
  | asked question =>
    cases rest : (exchanges.drop (place + 1)).flatten with
    | nil => simp
    | cons message others =>
      have user : message.role = .user := by
        cases later : exchanges.drop (place + 1) with
        | nil =>
          rw [later] at rest
          cases rest
        | cons follower followers =>
          have member : follower ∈ exchanges := mem_of_mem_drop (by rw [later]; exact mem_cons_self)
          rw [later, flatten_cons] at rest
          cases whole follower member with
          | asked asks =>
            obtain ⟨rfl, -⟩ := List.cons.inj rest
            exact asks
          | answered asks _ =>
            obtain ⟨rfl, -⟩ := List.cons.inj rest
            exact asks
      simp [user]

def unfinished (messages : List ContextMessage) : Bool := messages.any (·.isPartial)

structure Remainder.At (exchanges : List (List ContextMessage)) (place : Nat) (remainder : Remainder) : Prop where
  start : remainder.start = startOf exchanges place
  cost : remainder.cost = historyCost (exchanges.drop place).flatten
  partials : remainder.partials = ((exchanges.drop place).flatten.filter (·.isPartial)).length

theorem Remainder.At.unfinished {remainder : Remainder} (left : remainder.At exchanges place) :
    decide (0 < remainder.partials) = Context.unfinished (exchanges.drop place).flatten := by
  rw [left.partials, Context.unfinished, Bool.eq_iff_iff, decide_eq_true_eq, any_eq_true]
  rw [Int.natCast_pos, length_pos_iff_exists_mem]
  simp only [mem_filter]

theorem Remainder.At.drop {remainder : Remainder} (left : remainder.At exchanges place)
    (found : exchanges[place]? = some exchange) : (exchange.foldl Remainder.drop remainder).At exchanges (place + 1) := by
  have inside := (List.getElem?_eq_some_iff.mp found).1
  have split : exchanges.drop place = exchange :: exchanges.drop (place + 1) := by
    rw [drop_eq_getElem_cons inside, (List.getElem?_eq_some_iff.mp found).2]
  have each : ∀ (messages : List ContextMessage) (remainder : Remainder),
      (messages.foldl Remainder.drop remainder).start = remainder.start + messages.length ∧
        (messages.foldl Remainder.drop remainder).cost = remainder.cost - historyCost messages ∧
        (messages.foldl Remainder.drop remainder).partials =
          remainder.partials - (messages.filter (·.isPartial)).length := by
    intro messages
    induction messages with
    | nil => simp [historyCost]
    | cons message messages ih =>
      intro remainder
      obtain ⟨start, cost, partials⟩ := ih (remainder.drop message)
      rw [foldl_cons, start, cost, partials]
      refine ⟨?_, ?_, ?_⟩
      · simp only [Remainder.drop, length_cons]
        omega
      · simp only [Remainder.drop, historyCost, map_cons, sum_cons, Nat.cast_add]
        omega
      · cases half : message.isPartial with
        | false => simp [Remainder.drop, half]
        | true =>
          simp [Remainder.drop, half]
          omega
  obtain ⟨start, cost, partials⟩ := each exchange remainder
  refine ⟨?_, ?_, ?_⟩
  · rw [start, left.start, startOf_succ found]
  · rw [cost, left.cost, split, flatten_cons]
    simp only [historyCost, map_append, sum_append, Nat.cast_add]
    omega
  · rw [partials, left.partials, split, flatten_cons, filter_append, length_append]
    simp

theorem dropExchanges_at (whole : ∀ exchange ∈ exchanges, Exchange exchange) (budget : Bool → ℚ) {rounds : Nat}
    {remainder : Remainder} (left : remainder.At exchanges place) (order : place ≤ exchanges.length - 1)
    (enough : exchanges.length ≤ place + rounds) :
    ∃ kept, place ≤ kept ∧ kept ≤ exchanges.length - 1 ∧
      (dropExchanges (latestExchangeStart exchanges.flatten) budget exchanges.flatten rounds remainder).At exchanges kept ∧
      (∀ earlier, place ≤ earlier → earlier < kept →
        budget (Context.unfinished (exchanges.drop earlier).flatten) < historyCost (exchanges.drop earlier).flatten) ∧
      (kept = exchanges.length - 1 ∨
        (historyCost (exchanges.drop kept).flatten : ℚ) ≤ budget (Context.unfinished (exchanges.drop kept).flatten)) := by
  induction rounds generalizing place remainder with
  | zero =>
    have last : place = exchanges.length - 1 := by omega
    exact ⟨place, Nat.le_refl _, order, left, fun earlier low high => absurd high (by omega), .inl last⟩
  | succ rounds ih =>
    rw [dropExchanges, left.unfinished, left.start, left.cost]
    by_cases newest : place = exchanges.length - 1
    · have stays : ¬ startOf exchanges place < latestExchangeStart exchanges.flatten := by
        rw [latest_start whole, newest]
        exact Nat.lt_irrefl _
      rw [if_neg fun both => stays both.1]
      exact ⟨place, Nat.le_refl _, order, left, fun earlier low high => absurd high (by omega), .inl newest⟩
    · have goes : startOf exchanges place < latestExchangeStart exchanges.flatten := by
        rw [latest_start whole]
        exact startOf_lt whole (by omega) (by omega)
      by_cases exceeds : budget (Context.unfinished (exchanges.drop place).flatten) <
          ((historyCost (exchanges.drop place).flatten : Int) : ℚ)
      · have inside : place < exchanges.length := by omega
        have found : exchanges[place]? = some exchanges[place] := getElem?_eq_getElem inside
        have oldest := oldest_exchange whole found
        dsimp only at oldest
        rw [if_pos ⟨goes, exceeds⟩]
        dsimp only
        rw [oldest]
        obtain ⟨kept, low, high, after, passed, ended⟩ := ih (left.drop found) (by omega) (by omega)
        refine ⟨kept, by omega, high, after, ?_, ended⟩
        intro earlier first before
        by_cases same : earlier = place
        · subst same
          simpa using exceeds
        · exact passed earlier (by omega) before
      · rw [if_neg fun both => exceeds both.2]
        refine ⟨place, Nat.le_refl _, order, left, fun earlier low high => absurd high (by omega), .inr ?_⟩
        simpa using not_lt.mp exceeds

end

section
variable {evidence rest : List ContextMessage} {caller : Caller}

theorem joinInstructions_bytes (parts : List Text) :
    stringBytes (joinInstructions parts) - 2 =
      ((parts.filter (· ≠ [])).map fun part => (stringBytes part - 2) + 4).sum - 4 := by
  unfold joinInstructions
  induction parts.filter (· ≠ []) with
  | nil => rfl
  | cons part others ih =>
    cases others with
    | nil => simp
    | cons next others =>
      have joined := stringBytes_join part ((next :: others).intersperse [10, 10]).flatten
      rw [intersperse_cons_cons, flatten_cons, flatten_cons, ← append_assoc, joined, ih]
      simp only [map_cons, sum_cons]
      omega

theorem joinInstructions_more (front back : List Text) (part : Text) :
    stringBytes (joinInstructions (front ++ back)) - 2 ≤ stringBytes (joinInstructions (front ++ part :: back)) - 2 := by
  rw [joinInstructions_bytes, joinInstructions_bytes, filter_append, filter_append, map_append,
    map_append, sum_append, sum_append]
  by_cases empty : part = []
  · rw [filter_cons_of_neg (by simpa using empty)]
  · rw [filter_cons_of_pos (by simpa using empty), map_cons, sum_cons]
    omega

theorem notices_system (omitted unfinished : Bool) : ∀ message ∈ notices omitted unfinished, message.role = .system := by
  cases omitted <;> cases unfinished <;> simp [notices, ContextMessage.plain]

theorem requestTokens_notice (evidence rest : List ContextMessage) (caller : Caller) (unfinished : Bool) :
    requestTokens (evidence ++ (notices false unfinished ++ rest)) caller ≤
      requestTokens (evidence ++ (notices true unfinished ++ rest)) caller := by
  have listed : ∀ omitted, (notices omitted unfinished).filter (·.role = .system) = notices omitted unfinished := by
    intro omitted
    rw [filter_eq_self]
    intro message member
    exact decide_eq_true (notices_system omitted unfinished message member)
  have silent : ∀ omitted, (notices omitted unfinished).filter (·.role ≠ .system) = [] := by
    intro omitted
    rw [filter_eq_nil_iff]
    intro message member
    simp [notices_system omitted unfinished message member]
  have more : notices true unfinished = .plain .system historyNotice :: notices false unfinished := by
    simp [notices]
  unfold requestTokens
  dsimp only
  simp only [filter_append, listed, silent, nil_append, map_append]
  rw [more, map_cons, cons_append]
  generalize (evidence.filter (·.role ≠ .system)).map (·.toRequestMessage) ++
    (rest.filter (·.role ≠ .system)).map (·.toRequestMessage) = spoken
  generalize (evidence.filter (·.role = .system)).map (·.content) = front
  generalize (rest.filter (·.role = .system)).map (·.content) = back
  have question := estimateModelInput_eq
  rw [question, question]
  have bytes := joinInstructions_more front ((notices false unfinished).map (·.content) ++ back ++
    [caller.instructions.getD []]) (ContextMessage.plain .system historyNotice).content
  simp only [append_assoc, cons_append] at bytes ⊢
  omega

end

section
variable {history : Selection} {exchanges : List (List ContextMessage)} {evidence : List ContextMessage}
  {caller : Caller} {cap : ℚ}

def keptFrom (exchanges : List (List ContextMessage)) (omitted : Bool) (place : Nat) : List ContextMessage :=
  notices omitted (unfinished (exchanges.drop place).flatten) ++ (exchanges.drop place).flatten

def allowance (exchanges : List (List ContextMessage)) (evidence : List ContextMessage) (caller : Caller) (place : Nat) :
    Nat :=
  requestTokens (evidence ++ notices true (unfinished (exchanges.drop place).flatten)) caller +
    historyCost (exchanges.drop place).flatten

/-- A history as it is kept: its notices and its exchanges from one on, the newest among them, within the cap. With an
    exchange more its estimates would be above the cap. -/
def Packed (history : Selection) (exchanges : List (List ContextMessage)) (evidence : List ContextMessage)
    (caller : Caller) (cap : ℚ) (fitted : FittedHistory) : Prop :=
  ∃ dropped ≤ exchanges.length - 1, fitted.messages = keptFrom exchanges (history.omitted || 0 < dropped) dropped ∧
    requestTokens (evidence ++ fitted.messages) caller ≤ cap ∧
    ∀ earlier < dropped, cap < allowance exchanges evidence caller earlier

def GivenUp (history : Selection) (exchanges : List (List ContextMessage)) (evidence : List ContextMessage)
    (caller : Caller) (cap : ℚ) : Prop :=
  history.latestUnfit = true ∨
    cap < requestTokens (evidence ++ keptFrom exchanges (history.omitted || 1 < exchanges.length)
      (exchanges.length - 1)) caller

theorem length_le_flatten (whole : ∀ exchange ∈ exchanges, Exchange exchange) :
    exchanges.length ≤ exchanges.flatten.length := by
  induction exchanges with
  | nil => exact Nat.le_refl _
  | cons exchange exchanges ih =>
    have filled := (whole exchange mem_cons_self).filled
    have rest := ih fun other member => whole other (mem_cons_of_mem _ member)
    rw [length_cons, flatten_cons, length_append]
    omega

theorem fitHistory_tries (whole : ∀ exchange ∈ exchanges, Exchange exchange)
    (same : history.messages = exchanges.flatten) (had : history.latestUnfit = false)
    (evidence : List ContextMessage) (caller : Caller) (cap : ℚ) :
    ∃ all some' : FittedHistory, ∃ kept ≤ exchanges.length - 1,
      fitHistory history evidence caller cap =
        (if requestTokens (evidence ++ all.messages) caller ≤ cap then some all
        else if requestTokens (evidence ++ some'.messages) caller ≤ cap then some some' else none) ∧
      all.messages = keptFrom exchanges history.omitted 0 ∧ some'.messages = keptFrom exchanges true kept ∧
      (∀ earlier < kept, cap < allowance exchanges evidence caller earlier) ∧
      (kept = exchanges.length - 1 ∨ (allowance exchanges evidence caller kept : ℚ) ≤ cap) := by
  have first : Remainder.At exchanges 0
      { start := 0
        cost := (exchanges.flatten.map fun message => estimateHistoryMessage message.toRequestMessage).sum
        tokens := history.tokens
        partials := (exchanges.flatten.filter (·.isPartial)).length } := ⟨rfl, rfl, rfl⟩
  have enough : exchanges.length ≤ 0 + exchanges.flatten.length := by
    rw [Nat.zero_add]
    exact length_le_flatten whole
  obtain ⟨kept, -, order, left, passed, ended⟩ := dropExchanges_at whole
    (fun unfinished => cap - requestTokens (evidence ++ notices true unfinished) caller) first (Nat.zero_le _) enough
  have flag := first.unfinished
  have flag' := left.unfinished
  have rest := drop_startOf exchanges kept
  rw [← left.start] at rest
  unfold fitHistory
  rw [had, same]
  refine ⟨_, _, kept, order, rfl, ?_, ?_, ?_, ?_⟩
  · exact congrArg (fun unfinished => notices history.omitted unfinished ++ exchanges.flatten) flag
  · unfold keptFrom
    rw [← flag', ← rest]
  · intro earlier before
    have above := passed earlier (Nat.zero_le _) before
    unfold allowance
    push_cast
    linarith
  · rcases ended with newest | within
    · exact .inl newest
    · right
      unfold allowance
      push_cast
      linarith

theorem fitHistory_packs (whole : ∀ exchange ∈ exchanges, Exchange exchange)
    (same : history.messages = exchanges.flatten) (evidence : List ContextMessage) (caller : Caller) (cap : ℚ) :
    (fitHistory history evidence caller cap).elim (GivenUp history exchanges evidence caller cap)
      (Packed history exchanges evidence caller cap) := by
  cases had : history.latestUnfit with
  | true =>
    have nothing : fitHistory history evidence caller cap = none := by rw [fitHistory, if_pos had]
    rw [nothing]
    exact .inl had
  | false =>
    obtain ⟨all, some', kept, order, packed, messages, messages', passed, ended⟩ :=
      fitHistory_tries whole same had evidence caller cap
    rw [packed, messages, messages']
    by_cases fits : (requestTokens (evidence ++ keptFrom exchanges history.omitted 0) caller : ℚ) ≤ cap
    · rw [if_pos fits]
      refine ⟨0, Nat.zero_le _, ?_, ?_, fun earlier before => absurd before (Nat.not_lt_zero _)⟩
      · rw [messages]
        simp
      · rw [messages]
        exact fits
    rw [if_neg fits]
    -- Without exchanges to drop, one notice more would only have cost more.
    have cheaper := requestTokens_notice evidence (exchanges.drop 0).flatten caller
      (unfinished (exchanges.drop 0).flatten)
    by_cases fits' : (requestTokens (evidence ++ keptFrom exchanges true kept) caller : ℚ) ≤ cap
    · rw [if_pos fits']
      refine ⟨kept, order, ?_, by rw [messages']; exact fits', passed⟩
      have omitted : (history.omitted || decide (0 < kept)) = true := by
        by_contra neither
        simp only [Bool.or_eq_true, decide_eq_true_eq, not_or, Bool.not_eq_true] at neither
        obtain ⟨none', place⟩ := neither
        obtain rfl : kept = 0 := by omega
        rw [none'] at fits
        have bound : (requestTokens (evidence ++ keptFrom exchanges false 0) caller : ℚ) ≤
            requestTokens (evidence ++ keptFrom exchanges true 0) caller := Nat.cast_le.mpr cheaper
        exact fits (le_trans bound fits')
      rw [messages', omitted]
    · rw [if_neg fits']
      right
      have last : kept = exchanges.length - 1 := by
        rcases ended with newest | within
        · exact newest
        · have left : ∀ exchange ∈ exchanges.drop kept, Exchange exchange :=
            fun exchange member => whole exchange (mem_of_mem_drop member)
          have adds := requestTokens_adds left (evidence ++ notices true (unfinished (exchanges.drop kept).flatten))
            caller
          rw [append_assoc] at adds
          have bound : (requestTokens (evidence ++ keptFrom exchanges true kept) caller : ℚ) ≤
              allowance exchanges evidence caller kept := Nat.cast_le.mpr adds
          exact absurd (le_trans bound within) fits'
      subst last
      cases omitted : (history.omitted || decide (1 < exchanges.length)) with
      | true => exact not_le.mp fits'
      | false =>
        simp only [Bool.or_eq_false_iff, decide_eq_false_iff_not] at omitted
        have place : exchanges.length - 1 = 0 := by omega
        rw [omitted.1] at fits
        rw [place]
        exact not_le.mp fits

/-- The estimates of messages are enough for them behind any evidence, so packing keeps the newest whole exchanges
    within the cap, or gives up. -/
theorem history_packs (whole : ∀ exchange ∈ exchanges, Exchange exchange) (evidence : List ContextMessage)
    (caller : Caller) :
    requestTokens (evidence ++ exchanges.flatten) caller ≤
        requestTokens evidence caller + historyCost exchanges.flatten ∧
      ∀ (history : Selection) (cap : ℚ), history.messages = exchanges.flatten →
        (∀ fitted, fitHistory history evidence caller cap = some fitted →
          Packed history exchanges evidence caller cap fitted) ∧
        (fitHistory history evidence caller cap = none → GivenUp history exchanges evidence caller cap) := by
  refine ⟨requestTokens_adds whole evidence caller, ?_⟩
  intro history cap same
  have packs := fitHistory_packs whole same evidence caller cap
  constructor
  · intro fitted found
    rw [found] at packs
    exact packs
  · intro found
    rw [found] at packs
    exact packs

def greetings : List (List ContextMessage) :=
  [[.plain .user (List.replicate 300 72)], [.plain .user (text "Who?"), .plain .assistant (text "World")]]

theorem history_packs_greetings :
    ∃ fitted, fitHistory ⟨greetings.flatten, 0, 0, false, false⟩ [] ⟨none, none⟩ 1200 = some fitted ∧
      fitted.historyNotice = some historyNotice ∧ Packed ⟨greetings.flatten, 0, 0, false, false⟩ greetings [] ⟨none, none⟩ 1200 fitted := by
  have whole : ∀ exchange ∈ greetings, Exchange exchange := by
    intro exchange member
    rcases mem_cons.mp member with same | member
    · rw [same]
      exact .asked rfl
    · rw [mem_singleton.mp member]
      exact .answered rfl rfl
  obtain ⟨packs, -⟩ := (history_packs whole [] ⟨none, none⟩).2 ⟨greetings.flatten, 0, 0, false, false⟩ 1200 rfl
  have size : (fitHistory ⟨greetings.flatten, 0, 0, false, false⟩ [] ⟨none, none⟩ 1200).map (·.historyNotice) =
    some (some historyNotice) := by decide +kernel
  cases found : fitHistory ⟨greetings.flatten, 0, 0, false, false⟩ [] ⟨none, none⟩ 1200 with
  | none =>
    rw [found] at size
    cases size
  | some fitted =>
    rw [found] at size
    exact ⟨fitted, rfl, Option.some.inj size, packs fitted found⟩

end

section
variable {World : Type}

end

end Context
