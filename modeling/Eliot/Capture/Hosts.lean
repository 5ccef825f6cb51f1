import Eliot.Text.Basic
import Mathlib.Data.List.DropRight

namespace Hosts
open Text List

def dot : Nat := 46

def parts : Text → List Text
  | [] => [[]]
  | unit :: rest =>
    if unit = dot then [] :: parts rest
    else
      match parts rest with
      | [] => [[unit]]
      | first :: others => (unit :: first) :: others

def digitOf (radix unit : Nat) : Option Nat :=
  let value :=
    if 48 ≤ unit ∧ unit ≤ 57 then some (unit - 48)
    else if 97 ≤ unit ∧ unit ≤ 102 then some (unit - 87)
    else if 65 ≤ unit ∧ unit ≤ 70 then some (unit - 55)
    else none
  value.filter (· < radix)

def radixOf : Text → Text × Nat
  | 48 :: 120 :: digits => (digits, 16)
  | 48 :: 88 :: digits => (digits, 16)
  | 48 :: digit :: digits => (digit :: digits, 8)
  | digits => (digits, 10)

/-- A number in an address: decimal, octal behind `0` or hexadecimal behind `0x`. -/
def readPart (part : Text) : Option Nat :=
  if part = [] then none
  else
    ((radixOf part).1.mapM (digitOf (radixOf part).2)).map fun digits =>
      Nat.ofDigits (radixOf part).2 digits.reverse

def addressParts (host : Text) : List Text :=
  if (parts host).getLast? = some [] ∧ 1 < (parts host).length then (parts host).dropLast else parts host

def readIpv4 (host : Text) : Option Nat :=
  if 4 < (addressParts host).length then none
  else
    match (addressParts host).mapM readPart with
    | none => none
    | some numbers =>
      if numbers.dropLast.any (255 < ·) ∨ 256 ^ (5 - numbers.length) ≤ numbers.getLastD 0 then none
      else some (numbers.getLastD 0 + Nat.ofDigits 256 (numbers.dropLast.reverse) * 256 ^ (5 - numbers.length))

def endsInNumber (host : Text) : Bool :=
  (addressParts host).getLast?.any fun part =>
    (part ≠ [] && part.all isDigit) || (readPart part).isSome

def dotted (first second third fourth : Nat) : Text :=
  decimal first ++ dot :: (decimal second ++ dot :: (decimal third ++ dot :: decimal fourth))

inductive HostForm : Text → Prop where
  | ipv4 (first second third fourth : Nat) : HostForm (dotted first second third fourth)
  | ipv6 {inner : Text} (colon : 58 ∈ inner) : HostForm (91 :: (inner ++ [93]))
  | domain {host : Text} (plain : 58 ∉ host) (named : endsInNumber host = false) : HostForm host

theorem parts_ne_nil (host : Text) : parts host ≠ [] := by
  cases host with
  | nil => simp [parts]
  | cons unit rest =>
    rw [parts]
    split
    · simp
    · split <;> simp

theorem parts_dot (host : Text) : parts (host ++ [dot]) = parts host ++ [[]] := by
  induction host with
  | nil => rfl
  | cons unit rest ih =>
    rw [cons_append, parts, parts, ih]
    by_cases same : unit = dot
    · rw [if_pos same, if_pos same, cons_append]
    · rw [if_neg same, if_neg same]
      cases split : parts rest with
      | nil => exact absurd split (parts_ne_nil rest)
      | cons first others => rfl

theorem parts_last {host : Text} (filled : host ≠ []) (ended : host.getLast? ≠ some dot) :
    (parts host).getLast? ≠ some [] := by
  induction host with
  | nil => exact absurd rfl filled
  | cons unit rest ih =>
    rw [parts]
    by_cases last : rest = []
    · subst last
      have other : unit ≠ dot := by simpa using ended
      rw [if_neg other]
      simp [parts]
    · have ended : rest.getLast? ≠ some dot := by
        rwa [getLast?_cons_of_ne_nil last] at ended
      have later := ih last ended
      split
      · rwa [getLast?_cons_of_ne_nil (parts_ne_nil rest)]
      · cases split : parts rest with
        | nil => exact absurd split (parts_ne_nil rest)
        | cons first others =>
          rw [split] at later
          cases others with
          | nil => simp
          | cons second others =>
            rw [getLast?_cons_cons] at later ⊢
            exact later

theorem endsInNumber_dot {host : Text} (filled : host ≠ []) (ended : host.getLast? ≠ some dot) :
    endsInNumber (host ++ [dot]) = endsInNumber host := by
  have last := parts_last filled ended
  have positive := length_pos_of_ne_nil (parts_ne_nil host)
  have same : addressParts (host ++ [dot]) = addressParts host := by
    rw [addressParts, addressParts, parts_dot, if_pos, if_neg]
    · simp
    · exact fun both => last both.1
    · refine ⟨getLast?_concat, ?_⟩
      rw [length_append, length_singleton]
      omega
  rw [endsInNumber, same, endsInNumber]

theorem read_each {items : List Text} {numbers : List Nat} (read : items.mapM readPart = some numbers) :
    ∀ part ∈ items, (readPart part).isSome = true := by
  induction items generalizing numbers with
  | nil => simp
  | cons item items ih =>
    rw [mapM_cons] at read
    obtain ⟨number, first, read⟩ := Option.bind_eq_some_iff.mp read
    obtain ⟨others, later, -⟩ := Option.bind_eq_some_iff.mp read
    intro part listed
    rcases mem_cons.mp listed with rfl | listed
    · rw [first]
      rfl
    · exact ih later part listed

theorem readIpv4_none {host : Text} (named : endsInNumber host = false) : readIpv4 host = none := by
  rw [readIpv4]
  split
  · rfl
  · split
    · rfl
    · rename_i numbers read
      have filled : addressParts host ≠ [] := by
        unfold addressParts
        split
        · rename_i both
          intro nothing
          have short := congrArg List.length nothing
          rw [length_dropLast, length_nil] at short
          omega
        · exact parts_ne_nil host
      obtain ⟨part, last⟩ : ∃ part, (addressParts host).getLast? = some part :=
        ⟨_, getLast?_eq_some_getLast filled⟩
      have listed := mem_of_getLast? last
      have number := read_each read part listed
      rw [endsInNumber, last] at named
      simp [number] at named

theorem parts_two (host : Text) : 2 ≤ (parts host).length ↔ dot ∈ host := by
  induction host with
  | nil => simp [parts]
  | cons unit rest ih =>
    have positive := length_pos_of_ne_nil (parts_ne_nil rest)
    rw [parts]
    by_cases same : unit = dot
    · rw [if_pos same, same, length_cons]
      simp only [mem_cons_self, iff_true]
      omega
    · rw [if_neg same, mem_cons, ← ih]
      have other : ¬ dot = unit := fun equal => same equal.symm
      cases split : parts rest with
      | nil => exact absurd split (parts_ne_nil rest)
      | cons first others => simp [other]

def withoutDots (host : Text) : Text := host.rdropWhile (· = dot)

theorem withoutDots_ended (host : Text) : (withoutDots host).getLast? ≠ some dot := by
  intro ended
  have filled : withoutDots host ≠ [] := by
    intro nothing
    rw [nothing] at ended
    cases ended
  have stopped := rdropWhile_last_not (fun unit => decide (unit = dot)) host filled
  rw [getLast?_eq_some_getLast filled] at ended
  exact stopped (decide_eq_true (Option.some.inj ended))

theorem withoutDots_dot (host : Text) : withoutDots (host ++ [dot]) = withoutDots host := by
  rw [withoutDots, rdropWhile_concat_pos _ _ _ (by simp)]
  rfl

theorem withoutDots_named {host : Text} (ended : host.getLast? ≠ some dot) : withoutDots host = host := by
  cases host using List.reverseRecOn with
  | nil => rfl
  | append_singleton host unit =>
    rw [getLast?_concat] at ended
    rw [withoutDots, rdropWhile_concat_neg]
    simpa using ended

end Hosts
