import Eliot.Blocks.Places
import Eliot.Blocks.Scan
import Eliot.Text.Ranges

namespace Blocks
open Text List
open Ranges (Laid)

def opens (body : Text) : Option Fence :=
  ((opening.exec body).bind (·.captures[0]?)).map fun opened => ⟨opened.headD 96, opened.length⟩

namespace ScanState

inductive Moved (state : ScanState) (line : Line) (next : Option Line) : ScanState → Bool → Prop where
  | inside (fence : Fence) (fenced : state.fence = some fence) (more : fence.closes line.body = false) :
      Moved state line next
        { state with pending := state.pending.map fun pending => { pending with last := line } } false
  | closed (fence : Fence) (fenced : state.fence = some fence) (closes : fence.closes line.body = true) :
      Moved state line next
        { ScanState.flush { state with pending := state.pending.map fun pending => { pending with last := line } }
          with fence := none } false
  | opened (fence : Fence) (free : state.fence = none) (opened : opens line.body = some fence) :
      Moved state line next { state.flush with fence := some fence, pending := some ⟨.code, line, line⟩ } false
  | blank (free : state.fence = none) (plain : opens line.body = none) (blank : trim line.body = []) :
      Moved state line next state.flush false
  | headed (heading : Text) (free : state.fence = none) (plain : opens line.body = none) :
      Moved state line next (ScanState.emit { state.flush with heading := some heading } .heading line line) false
  | underlined (heading : Text) (under : Line) (free : state.fence = none) (plain : opens line.body = none)
      (follows : next = some under) (marked : setext.test under.body = true) :
      Moved state line next (ScanState.emit { state.flush with heading := some heading } .heading line under) true
  | extended (pending : Pending) (free : state.fence = none) (plain : opens line.body = none)
      (held : state.pending = some pending) :
      Moved state line next { state with pending := some { pending with last := line } } false
  | started (type : BlockType) (free : state.fence = none) (plain : opens line.body = none)
      (prose : type ≠ .code) : Moved state line next { state.flush with pending := some ⟨type, line, line⟩ } false

theorem classify_prose (state : ScanState) (line : Line) (next : Option Line) :
    state.classify line next ≠ .code := by
  unfold classify
  dsimp only
  split_ifs <;> simp

theorem step_moved (state : ScanState) (line : Line) (next : Option Line) :
    Moved state line next (state.step line next).1 (state.step line next).2 := by
  obtain ⟨heading, pending, fence, emissions⟩ := state
  cases fence with
  | some fence =>
    unfold step
    dsimp only
    split
    · rename_i closes
      exact .closed fence rfl closes
    · rename_i more
      exact .inside fence rfl (by simpa using more)
  | none =>
    unfold step
    dsimp only
    cases found : (opening.exec line.body).bind (·.captures[0]?) with
    | some opened => exact .opened _ rfl (by rw [opens, found]; rfl)
    | none =>
      have plain : opens line.body = none := by rw [opens, found]; rfl
      dsimp only
      split_ifs with blank heads
      · exact .blank rfl plain blank
      · split
        · rename_i under atx chosen
          obtain ⟨follows, marked⟩ := Option.filter_eq_some_iff.mp chosen
          exact .underlined _ under rfl plain follows marked
        · exact .headed _ rfl plain
      · cases pending with
        | none => exact .started _ rfl plain (classify_prose _ _ _)
        | some pending =>
          dsimp only
          split_ifs with same
          · exact .extended pending rfl plain rfl
          · exact .started _ rfl plain (classify_prose _ _ _)

def Held (state : ScanState) (run : List Line) : Prop :=
  match state.pending with
  | none => run = []
  | some pending => run.head? = some pending.first ∧ run.getLast? = some pending.last

def Sound (state : ScanState) : Prop := state.fence.isSome → state.pending.isSome

theorem flush_sound (state : ScanState) : state.flush.pending = none ∧ state.flush.fence = state.fence := by
  unfold flush
  cases held : state.pending with
  | none => exact ⟨held, rfl⟩
  | some pending => exact ⟨rfl, rfl⟩

theorem Moved.sound {state after : ScanState} {line : Line} {next : Option Line} {consumed : Bool}
    (moved : Moved state line next after consumed) (sound : state.Sound) : after.Sound := by
  obtain ⟨flushed, fenced⟩ := state.flush_sound
  cases moved with
  | inside fence held more => exact fun _ => by simpa using sound (by rw [held]; rfl)
  | closed fence held closes => exact fun impossible => absurd impossible (by simp)
  | opened fence free opened => exact fun _ => rfl
  | blank free plain blank => exact fun some => absurd some (by rw [fenced, free]; simp)
  | headed heading free plain => exact fun some => absurd some (by simp [emit, fenced, free])
  | underlined heading under free plain follows marked =>
    exact fun some => absurd some (by simp [emit, fenced, free])
  | extended pending free plain held => exact fun _ => rfl
  | started type free plain prose => exact fun _ => rfl

end ScanState

inductive Tiling : List Line → List Emission → Prop where
  | nil : Tiling [] []
  | blank {line : Line} {rest : List Line} {emissions : List Emission} (blank : trim line.body = [])
      (tiling : Tiling rest emissions) : Tiling (line :: rest) emissions
  | run {run rest : List Line} {emission : Emission} {emissions : List Emission}
      (first : run.head? = some emission.first) (last : run.getLast? = some emission.last)
      (tiling : Tiling rest emissions) : Tiling (run ++ rest) (emission :: emissions)

namespace ScanState

variable {state after : ScanState} {run : List Line}

theorem Held.flush (held : state.Held run) :
    ∃ flushed, state.flush.emissions = state.emissions ++ flushed ∧
      ∀ rest emissions, Tiling rest emissions → Tiling (run ++ rest) (flushed ++ emissions) := by
  unfold Held at held
  unfold ScanState.flush
  cases pending : state.pending with
  | none =>
    rw [pending] at held
    subst held
    exact ⟨[], (append_nil _).symm, fun rest emissions tiling => tiling⟩
  | some pending' =>
    rw [pending] at held
    exact ⟨[_], rfl, fun rest emissions tiling => .run held.1 held.2 tiling⟩

theorem Moved.tiling {line : Line} {next : Option Line} {consumed : Bool}
    (moved : Moved state line next after consumed) (sound : state.Sound) (held : state.Held run) :
    ∃ more emitted, after.Held more ∧ after.emissions = state.emissions ++ emitted ∧
      ∀ rest emissions, (consumed = true → next = rest.head?) →
        Tiling (more ++ if consumed then rest.tail else rest) emissions →
        Tiling (run ++ line :: rest) (emitted ++ emissions) := by
  obtain ⟨flushed, emitted, tiles⟩ := held.flush
  obtain ⟨gone, fenced⟩ := state.flush_sound
  have extend (rest : List Line) : run ++ line :: rest = (run ++ [line]) ++ rest := by simp
  cases moved with
  | inside fence open' more =>
    obtain ⟨pending, present⟩ := Option.isSome_iff_exists.mp (sound (by rw [open']; rfl))
    rw [Held, present] at held
    refine ⟨run ++ [line], [], ?_, (append_nil _).symm, fun rest emissions _ tiling => extend rest ▸ tiling⟩
    rw [Held, present]
    exact ⟨by simp [held.1], by simp⟩
  | closed fence open' closes =>
    obtain ⟨pending, present⟩ := Option.isSome_iff_exists.mp (sound (by rw [open']; rfl))
    rw [Held, present] at held
    refine ⟨[], [⟨pending.type, pending.first, line, state.heading⟩], ?_, ?_, fun rest emissions _ tiling => ?_⟩
    · simp [Held, present, ScanState.flush]
    · simp [present, ScanState.flush, emit]
    · rw [extend]
      exact .run (by simp [held.1]) (by simp) tiling
  | opened fence free opened =>
    exact ⟨[line], flushed, ⟨rfl, rfl⟩, emitted, fun rest emissions _ tiling => tiles _ _ tiling⟩
  | blank free plain blank =>
    exact ⟨[], flushed, by rw [Held, gone], emitted, fun rest emissions _ tiling => tiles _ _ (.blank blank tiling)⟩
  | headed heading free plain =>
    refine ⟨[], flushed ++ [⟨.heading, line, line, some heading⟩], ?_, ?_, fun rest emissions _ tiling => ?_⟩
    · simp [Held, emit, gone]
    · simp [emit, emitted]
    · rw [append_assoc]
      have single : Tiling ([line] ++ rest) (⟨.heading, line, line, some heading⟩ :: emissions) :=
        .run rfl rfl tiling
      exact tiles _ _ single
  | underlined heading under free plain follows marked =>
    refine ⟨[], flushed ++ [⟨.heading, line, under, some heading⟩], ?_, ?_, fun rest emissions chosen tiling => ?_⟩
    · simp [Held, emit, gone]
    · simp [emit, emitted]
    · rw [append_assoc]
      have head := (chosen rfl).symm.trans follows
      cases rest with
      | nil => cases head
      | cons second rest =>
        cases head
        have both : Tiling ([line, under] ++ rest) (⟨.heading, line, under, some heading⟩ :: emissions) :=
          .run rfl rfl tiling
        exact tiles _ _ both
  | extended pending free plain present =>
    rw [Held, present] at held
    exact ⟨run ++ [line], [], ⟨by simp [held.1], by simp⟩, (append_nil _).symm,
      fun rest emissions _ tiling => extend rest ▸ tiling⟩
  | started type free plain prose =>
    exact ⟨[line], flushed, ⟨rfl, rfl⟩, emitted, fun rest emissions _ tiling => tiles _ _ tiling⟩

theorem scan_tiling (lines : List Line) (sound : state.Sound) (held : state.Held run) :
    ∃ emitted, (state.scan lines).emissions = state.emissions ++ emitted ∧ Tiling (run ++ lines) emitted := by
  fun_induction scan state lines generalizing run with
  | case1 state =>
    obtain ⟨flushed, emitted, tiles⟩ := held.flush
    exact ⟨flushed, emitted, by simpa using tiles [] [] .nil⟩
  | case2 state line rest after consumed stepped ih =>
    have moved := state.step_moved line rest.head?
    rw [stepped] at moved
    simp only [dite_eq_ite] at ih
    obtain ⟨more, emitted, kept, shown, tiles⟩ := moved.tiling sound held
    obtain ⟨others, scanned, tiling⟩ := ih (moved.sound sound) kept
    exact ⟨emitted ++ others, by rw [scanned, shown, append_assoc], tiles rest others (fun _ => rfl) tiling⟩

end ScanState

theorem emissions_tiling (text : Text) : Tiling (lines text) (emissions text) := by
  have start : ScanState.Sound ⟨none, none, none, []⟩ := fun some => absurd some (by simp)
  obtain ⟨emitted, scanned, tiling⟩ := ScanState.scan_tiling (lines text) start (show ScanState.Held _ [] from rfl)
  rw [emissions, scanned]
  exact tiling

section

structure Emission.Lies (text : Text) (emission : Emission) : Prop where
  starts : Place text emission.first.charStart emission.first.start
  stops : Place text emission.last.charStop emission.last.stop
  filled : emission.first.start < emission.last.stop
  order : emission.first.charStart < emission.last.charStop

def Blank (lines : List Line) (byte : Nat) : Prop :=
  ∃ line ∈ lines, line.start ≤ byte ∧ byte < line.stop ∧ trim line.body = []

variable {text : Text} {char byte : Nat}

theorem Chained.run {run rest : List Line} {first last : Line} (chained : Chained text char byte (run ++ rest))
    (heads : run.head? = some first) (ends : run.getLast? = some last) :
    first.charStart = char ∧ first.start = byte ∧ first.Lies text ∧ last.Lies text ∧ first.start < last.stop ∧
      first.charStart < last.charStop ∧ Chained text last.charStop last.stop rest := by
  induction run generalizing char byte first with
  | nil => cases heads
  | cons line run ih =>
    obtain ⟨starts, bytes, lies, chained⟩ := chained
    cases heads
    cases run with
    | nil =>
      cases ends
      exact ⟨starts, bytes, lies, lies, lies.filled, lies.order, chained⟩
    | cons second run =>
      obtain ⟨nextChar, next, -, stops, filled, order, behind⟩ := ih chained rfl ends
      have early := lies.filled
      have earlyChar := lies.order
      exact ⟨starts, bytes, lies, stops, by omega, by omega, behind⟩

theorem Tiling.laid {lines all : List Line} {emissions : List Emission} (tiling : Tiling lines emissions)
    (chained : Chained text char byte lines) (among : ∀ line ∈ lines, line ∈ all) :
    Laid (Blank all) (encode text).length byte (emissions.map fun emission =>
      (emission.first.start, emission.last.stop)) ∧ ∀ emission ∈ emissions, emission.Lies text := by
  induction tiling generalizing char byte with
  | nil =>
    obtain ⟨-, rfl⟩ := chained
    refine ⟨⟨Nat.le_refl _, ?_⟩, by simp⟩
    intro place after before
    omega
  | @blank line rest emissions blank tiling ih =>
    obtain ⟨rfl, rfl, lies, chained⟩ := chained
    obtain ⟨laid, lie⟩ := ih chained fun line member => among line (mem_cons_of_mem _ member)
    refine ⟨laid.after ?_ (Nat.le_of_lt lies.filled), lie⟩
    intro place after before
    exact ⟨line, among line mem_cons_self, after, before, blank⟩
  | @run run rest emission emissions first last tiling ih =>
    obtain ⟨rfl, rfl, starts, stops, filled, order, chained⟩ := chained.run first last
    obtain ⟨laid, lie⟩ := ih chained fun line member => among line (mem_append_right _ member)
    refine ⟨⟨Nat.le_refl _, filled, ?_, laid⟩, ?_⟩
    · intro place after before
      omega
    · intro other member
      rcases mem_cons.mp member with rfl | member
      · exact ⟨starts.starts, stops.stops, filled, order⟩
      · exact lie other member

theorem emissions_laid (text : Text) :
    Laid (Blank (lines text)) (encode text).length 0 ((emissions text).map fun emission =>
      (emission.first.start, emission.last.stop)) ∧ ∀ emission ∈ emissions text, emission.Lies text :=
  (emissions_tiling text).laid (lines_chained text) fun _ member => member

end

end Blocks
