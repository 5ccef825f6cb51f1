import Eliot.Collections.Fallible
import Eliot.Collections.Sorting
import Eliot.Text.Json
import Mathlib.Data.List.Lex
import Mathlib.Order.CompletePartialOrder

namespace ProjectMembership
open Text Sorting List Fallible

section

inductive InvalidReason where
  | schemaInvalid
  | startInstantInvalid
  | endInstantInvalid
  | endNotAfterStart
  | identityConflict
  | intervalOverlap
  | observedAtInvalid
deriving DecidableEq

/-- A domain error of the code `INVALID_MEMBERSHIP_INTERVAL`. -/
structure InvalidMembership where
  reason : InvalidReason
  message : Text
deriving DecidableEq

def invalidMembership {Value : Type} (reason : InvalidReason) (message : String) : Except InvalidMembership Value :=
  .error ⟨reason, text message⟩

structure VersionedRef where
  id : Text
  revision : ℚ
deriving DecidableEq

structure ProjectSourceMembership where
  membershipRef : VersionedRef
  projectId : Text
  sourceId : Text
  role : Text
  validFrom : Text
  validTo : Option Text
  membershipGeneration : Text
  admittedByReceiptRef : Text
deriving DecidableEq

/-- What texts are instants: those the schema takes, and the finite results of `Date.parse`. -/
structure Clock where
  datetime : Text → Bool
  parse : Text → Option Int

/-- `z.string().min(1).max(256)` -/
def identifier (value : Text) : Bool := 1 ≤ value.length && value.length ≤ 256

/-- `z.number().int().positive()` -/
def positiveInteger (value : ℚ) : Bool := value.den = 1 && isSafeInteger value.num && 0 < value

variable (clock : Clock)

def safeParse (input : ProjectSourceMembership) : Bool :=
  identifier input.membershipRef.id && positiveInteger input.membershipRef.revision && identifier input.projectId &&
    identifier input.sourceId && identifier input.role && clock.datetime input.validFrom &&
    input.validTo.all clock.datetime && identifier input.membershipGeneration && identifier input.admittedByReceiptRef

structure ParsedMembership where
  membership : ProjectSourceMembership
  startMs : Int
  endMs : Option Int
  after : ∀ stop ∈ endMs, startMs < stop

theorem unended (start : Int) : ∀ stop ∈ (none : Option Int), start < stop := by simp

theorem ended {start stop : Int} (after : start < stop) : ∀ other ∈ some stop, start < other := by simpa using after

def parseMembership (input : ProjectSourceMembership) : Except InvalidMembership ParsedMembership :=
  if !safeParse clock input then
    invalidMembership .schemaInvalid "project membership failed strict validation"
  else match clock.parse input.validFrom with
    | none => invalidMembership .startInstantInvalid "membership start instant is invalid"
    | some start =>
      match input.validTo with
      | none => .ok ⟨input, start, none, unended start⟩
      | some validTo =>
        match clock.parse validTo with
        | none => invalidMembership .endInstantInvalid "membership end instant is invalid"
        | some stop =>
          if after : start < stop then .ok ⟨input, start, some stop, ended after⟩
          else invalidMembership .endNotAfterStart "membership interval is empty or reversed"

def isMembershipActiveAt (membership : ProjectSourceMembership) (instant : Text) : Bool :=
  match parseMembership clock membership, clock.parse instant with
  | .ok parsed, some observed => parsed.startMs ≤ observed && parsed.endMs.all (observed < ·)
  | _, _ => false

/-- The key `(project_id, source_id, valid_from)` as text. -/
def membershipIdentity (membership : ProjectSourceMembership) : Text :=
  jsonArray ([membership.projectId, membership.sourceId, membership.validFrom].map jsonString)

def membershipPairIdentity (membership : ProjectSourceMembership) : Text :=
  jsonArray ([membership.projectId, membership.sourceId].map jsonString)

def compareText (left right : Text) : ℚ := if left < right then -1 else if right < left then 1 else 0

def compareParsedMembership (left right : ParsedMembership) : ℚ :=
  either (compareText left.membership.projectId right.membership.projectId)
    (either (compareText left.membership.sourceId right.membership.sourceId)
      (either (left.startMs - right.startMs)
        (either (compareText left.membership.validFrom right.membership.validFrom)
          (either (compareText left.membership.membershipRef.id right.membership.membershipRef.id)
            (left.membership.membershipRef.revision - right.membership.membershipRef.revision)))))

def checkTimeline (identities : List Text) (priorByPair : List (Text × ParsedMembership)) :
    List ParsedMembership → Except InvalidMembership Unit
  | [] => .ok ()
  | current :: rest =>
    let identity := membershipIdentity current.membership
    if identities.contains identity then
      invalidMembership .identityConflict "project membership tuple identity appears more than once"
    else
      let pair := membershipPairIdentity current.membership
      if (priorByPair.lookup pair).any fun prior => prior.endMs.all (current.startMs < ·) then
        invalidMembership .intervalOverlap "project membership intervals overlap"
      else checkTimeline (identity :: identities) ((pair, current) :: priorByPair) rest

def validateProjectMembershipTimeline (memberships : List ProjectSourceMembership) :
    Except InvalidMembership (List ProjectSourceMembership) := do
  let parsed ← memberships.mapM (parseMembership clock)
  let parsed := parsed.insertionSort fun left right => compareParsedMembership left right ≤ 0
  checkTimeline [] [] parsed
  return parsed.map (·.membership)

def activeProjectMembershipsAt (memberships : List ProjectSourceMembership) (instant : Text) :
    Except InvalidMembership (List ProjectSourceMembership) :=
  match clock.parse instant with
  | none => invalidMembership .observedAtInvalid "membership observation instant is invalid"
  | some observed => do
    let validated ← validateProjectMembershipTimeline clock memberships
    return validated.filter fun membership =>
      (clock.parse membership.validFrom).any (· ≤ observed) &&
        membership.validTo.all fun validTo => (clock.parse validTo).any (observed < ·)

end

section

variable {clock : Clock} {membership : ProjectSourceMembership} {parsed : ParsedMembership}

structure Valid (clock : Clock) (membership : ProjectSourceMembership) : Prop where
  schema : safeParse clock membership = true
  instants : ∃ start, clock.parse membership.validFrom = some start ∧
    ∀ validTo ∈ membership.validTo, ∃ stop, clock.parse validTo = some stop ∧ start < stop

def interval (clock : Clock) (membership : ProjectSourceMembership) : Set Int :=
  {instant | (∃ start, clock.parse membership.validFrom = some start ∧ start ≤ instant) ∧
    ∀ validTo ∈ membership.validTo, ∃ stop, clock.parse validTo = some stop ∧ instant < stop}

def ParsedMembership.Has (parsed : ParsedMembership) (instant : Int) : Prop :=
  parsed.startMs ≤ instant ∧ ∀ stop ∈ parsed.endMs, instant < stop

structure Reads (clock : Clock) (membership : ProjectSourceMembership) (parsed : ParsedMembership) : Prop where
  same : parsed.membership = membership
  schema : safeParse clock membership = true
  start : clock.parse membership.validFrom = some parsed.startMs
  stop : membership.validTo.map clock.parse = parsed.endMs.map some

theorem parseMembership_ok : parseMembership clock membership = .ok parsed ↔ Reads clock membership parsed := by
  constructor
  · intro read
    unfold parseMembership at read
    by_cases schema : safeParse clock membership = true
    · rw [schema] at read
      cases start : clock.parse membership.validFrom with
      | none => simp [start, invalidMembership] at read
      | some startMs =>
        cases last : membership.validTo with
        | none =>
          simp only [start, last, Bool.not_true, Bool.false_eq_true, if_false, Except.ok.injEq] at read
          subst read
          exact ⟨rfl, schema, start, by rw [last]; rfl⟩
        | some validTo =>
          cases stop : clock.parse validTo with
          | none => simp [start, last, stop, invalidMembership] at read
          | some stopMs =>
            simp only [start, last, stop, Bool.not_true, Bool.false_eq_true, if_false] at read
            by_cases after : startMs < stopMs
            · rw [dif_pos after, Except.ok.injEq] at read
              subst read
              exact ⟨rfl, schema, start, by rw [last, Option.map_some, stop]; rfl⟩
            · rw [dif_neg after] at read
              cases read
    · simp [schema, invalidMembership] at read
  · intro reads
    obtain ⟨same, schema, start, stop⟩ := reads
    obtain ⟨entry, startMs, endMs, after⟩ := parsed
    subst same
    unfold parseMembership
    rw [schema, start]
    cases last : entry.validTo with
    | none =>
      rw [last] at stop
      cases endMs with
      | none => rfl
      | some endMs => cases stop
    | some validTo =>
      rw [last] at stop
      cases endMs with
      | none => cases stop
      | some endMs =>
        have found : clock.parse validTo = some endMs := by simpa using stop
        simp only [found, Bool.not_true, Bool.false_eq_true, if_false]
        exact dif_pos (after endMs rfl)

theorem valid_iff : Valid clock membership ↔ ∃ parsed, parseMembership clock membership = .ok parsed := by
  constructor
  · intro valid
    obtain ⟨schema, start, first, rest⟩ := valid
    cases last : membership.validTo with
    | none => exact ⟨⟨membership, start, none, unended start⟩, parseMembership_ok.mpr ⟨rfl, schema, first, by rw [last]; rfl⟩⟩
    | some validTo =>
      obtain ⟨stop, found, after⟩ := rest validTo last
      refine ⟨⟨membership, start, some stop, ended after⟩, parseMembership_ok.mpr ⟨rfl, schema, first, ?_⟩⟩
      rw [last, Option.map_some, found]
      rfl
  · intro read
    obtain ⟨parsed, read⟩ := read
    obtain ⟨same, schema, start, stop⟩ := parseMembership_ok.mp read
    refine ⟨schema, parsed.startMs, start, ?_⟩
    intro validTo last
    rw [last, Option.map_some] at stop
    cases ends : parsed.endMs with
    | none =>
      rw [ends] at stop
      cases stop
    | some endMs =>
      rw [ends] at stop
      exact ⟨endMs, Option.some.inj stop, parsed.after endMs ends⟩

theorem Reads.has (reads : Reads clock membership parsed) (instant : Int) :
    instant ∈ interval clock membership ↔ parsed.Has instant := by
  have first : (∃ start, clock.parse membership.validFrom = some start ∧ start ≤ instant) ↔ parsed.startMs ≤ instant := by
    simp [reads.start]
  have last : (∀ validTo ∈ membership.validTo, ∃ stop, clock.parse validTo = some stop ∧ instant < stop) ↔
      ∀ stop ∈ parsed.endMs, instant < stop := by
    have stop := reads.stop
    cases given : membership.validTo <;> cases ends : parsed.endMs <;> rw [given, ends] at stop
    · simp
    · cases stop
    · cases stop
    · simp [Option.some.inj stop]
  exact and_congr first last

theorem isMembershipActiveAt_iff (reads : Reads clock membership parsed) {instant : Text} {observed : Int}
    (known : clock.parse instant = some observed) :
    isMembershipActiveAt clock membership instant = true ↔ parsed.Has observed := by
  have runs : parsed.endMs.all (observed < ·) = true ↔ ∀ stop ∈ parsed.endMs, observed < stop := by
    cases parsed.endMs with
    | none => simp
    | some stop => simp
  rw [isMembershipActiveAt, parseMembership_ok.mpr reads, known]
  dsimp only
  rw [Bool.and_eq_true, decide_eq_true_eq, runs, ParsedMembership.Has]

end

section

variable {first second : ProjectSourceMembership} {earlier later current : ParsedMembership}

def identity (membership : ProjectSourceMembership) : Text × Text × Text :=
  (membership.projectId, membership.sourceId, membership.validFrom)

def SamePair (first second : ProjectSourceMembership) : Prop :=
  first.projectId = second.projectId ∧ first.sourceId = second.sourceId

theorem membershipIdentity_eq : membershipIdentity first = membershipIdentity second ↔ identity first = identity second := by
  constructor
  · intro same
    have texts := (jsonArray_unique (congrArg (· ++ []) same)).1
    simpa [identity] using texts
  · intro same
    simp only [identity, Prod.mk.injEq] at same
    simp [membershipIdentity, same]

theorem membershipPairIdentity_eq :
    membershipPairIdentity first = membershipPairIdentity second ↔ SamePair first second := by
  constructor
  · intro same
    have texts := (jsonArray_unique (congrArg (· ++ []) same)).1
    simpa [SamePair] using texts
  · intro same
    simp [membershipPairIdentity, same.1, same.2]

theorem compareText_compares (left right : Text) : Compares (compareText left right) left right := by
  unfold Compares compareText
  rcases lt_trichotomy left right with before | rfl | behind
  · simp [before, before.ne]
  · simp
  · simp [behind, behind.ne', not_lt_of_gt behind]

def order (parsed : ParsedMembership) : Text ×ₗ Text ×ₗ ℤ ×ₗ Text ×ₗ Text ×ₗ ℚ :=
  toLex (parsed.membership.projectId, toLex (parsed.membership.sourceId, toLex (parsed.startMs,
    toLex (parsed.membership.validFrom, toLex (parsed.membership.membershipRef.id,
      parsed.membership.membershipRef.revision)))))

theorem compareParsedMembership_compares (left right : ParsedMembership) :
    Compares (compareParsedMembership left right) (order left) (order right) := by
  have starts : Compares ((left.startMs : ℚ) - right.startMs) left.startMs right.startMs :=
    ⟨sub_neg.trans Int.cast_lt, sub_eq_zero.trans Int.cast_inj⟩
  exact (compareText_compares _ _).either ((compareText_compares _ _).either (starts.either
    ((compareText_compares _ _).either ((compareText_compares _ _).either (compares_sub _ _)))))

theorem start_le (sorted : order earlier ≤ order later) (same : SamePair earlier.membership later.membership) :
    earlier.startMs ≤ later.startMs := by
  simp only [order, Prod.Lex.toLex_le_toLex, same.1, same.2, lt_self_iff_false, true_and, false_or] at sorted
  rcases sorted with before | level
  · exact before.le
  · exact level.1.le

def Follows (earlier later : ParsedMembership) : Prop := ∃ stop ∈ earlier.endMs, stop ≤ later.startMs

def Chained (earlier later : ParsedMembership) : Prop :=
  SamePair earlier.membership later.membership → Follows earlier later

theorem Follows.trans (first : Follows earlier later) (second : Follows later current) : Follows earlier current := by
  obtain ⟨stop, ends, before⟩ := first
  obtain ⟨last, lastEnds, behind⟩ := second
  have order := later.after last lastEnds
  exact ⟨stop, ends, by omega⟩

theorem follows_iff (sorted : earlier.startMs ≤ later.startMs) :
    Follows earlier later ↔ ∀ instant, ¬ (earlier.Has instant ∧ later.Has instant) := by
  constructor
  · rintro ⟨stop, ends, before⟩ instant ⟨first, second⟩
    have under := first.2 stop ends
    have above := second.1
    omega
  · intro apart
    have start := apart later.startMs
    have itself : later.Has later.startMs := ⟨le_refl _, later.after⟩
    have ended : ¬ ∀ stop ∈ earlier.endMs, later.startMs < stop := fun runs => start ⟨⟨sorted, runs⟩, itself⟩
    simpa [Follows] using ended

theorem lookup_newest (seen : List ParsedMembership) (pair : Text) :
    (seen.map fun entry => (membershipPairIdentity entry.membership, entry)).lookup pair =
      seen.find? fun entry => membershipPairIdentity entry.membership == pair := by
  induction seen with
  | nil => rfl
  | cons entry seen ih =>
    rw [map_cons, lookup_cons, find?_cons, ih, BEq.comm]

theorem overlap_iff {seen : List ParsedMembership} (chained : seen.Pairwise fun later earlier => Chained earlier later) :
    (((seen.map fun entry => (membershipPairIdentity entry.membership, entry)).lookup
        (membershipPairIdentity current.membership)).any
      fun prior => prior.endMs.all (current.startMs < ·)) = false ↔ ∀ earlier ∈ seen, Chained earlier current := by
  have follows (prior : ParsedMembership) :
      prior.endMs.all (current.startMs < ·) = false ↔ Follows prior current := by
    unfold Follows
    cases prior.endMs with
    | none => simp
    | some stop => simp
  rw [lookup_newest]
  cases newest : seen.find? fun entry => membershipPairIdentity entry.membership == membershipPairIdentity current.membership with
  | none =>
    refine iff_of_true rfl ?_
    intro earlier member same
    have other := find?_eq_none.mp newest earlier member
    simp [membershipPairIdentity_eq.mpr same] at other
  | some prior =>
    obtain ⟨pair, front, back, rfl, others⟩ := find?_eq_some_iff_append.mp newest
    have same : SamePair prior.membership current.membership := membershipPairIdentity_eq.mp (by simpa using pair)
    rw [Option.any_some, follows]
    constructor
    · intro behind earlier member with_
      rcases mem_append.mp member with early | rest
      · have other := others earlier early
        simp [membershipPairIdentity_eq.mpr with_] at other
      · rcases mem_cons.mp rest with rfl | rest
        · exact behind
        · have older := (pairwise_cons.mp (pairwise_append.mp chained).2.1).1 earlier rest
          exact (older ⟨with_.1.trans same.1.symm, with_.2.trans same.2.symm⟩).trans behind
    · intro all
      exact all prior (by simp) same

theorem checkTimeline_ok {seen rest : List ParsedMembership}
    (chained : seen.Pairwise fun later earlier => Chained earlier later) :
    checkTimeline (seen.map fun entry => membershipIdentity entry.membership)
        (seen.map fun entry => (membershipPairIdentity entry.membership, entry)) rest = .ok () ↔
      ((rest.map fun entry => identity entry.membership).Nodup ∧
        ∀ later ∈ rest, ∀ earlier ∈ seen, identity earlier.membership ≠ identity later.membership) ∧
      rest.Pairwise Chained ∧ ∀ later ∈ rest, ∀ earlier ∈ seen, Chained earlier later := by
  induction rest generalizing seen with
  | nil => simp [checkTimeline]
  | cons current rest ih =>
    have known : (seen.map fun entry => membershipIdentity entry.membership).contains
        (membershipIdentity current.membership) = true ↔
          ∃ earlier ∈ seen, identity earlier.membership = identity current.membership := by
      simp only [contains_iff_mem, mem_map, membershipIdentity_eq]
    rw [checkTimeline]
    by_cases repeated : ∃ earlier ∈ seen, identity earlier.membership = identity current.membership
    · rw [if_pos (known.mpr repeated)]
      refine iff_of_false (by simp [invalidMembership]) ?_
      rintro ⟨⟨-, fresh⟩, -⟩
      obtain ⟨earlier, member, same⟩ := repeated
      exact fresh current mem_cons_self earlier member same
    · rw [if_neg (fun found => repeated (known.mp found))]
      have fresh : ∀ earlier ∈ seen, identity earlier.membership ≠ identity current.membership :=
        fun earlier member same => repeated ⟨earlier, member, same⟩
      have checked := @overlap_iff current seen chained
      dsimp only
      by_cases behind : ∀ earlier ∈ seen, Chained earlier current
      · rw [if_neg (by rw [checked.mpr behind]; simp)]
        have next := @ih (current :: seen) (pairwise_cons.mpr ⟨behind, chained⟩)
        rw [map_cons, map_cons] at next
        rw [next]
        simp only [map_cons, nodup_cons, pairwise_cons, forall_mem_cons, mem_map,
          not_exists, not_and]
        constructor
        · rintro ⟨⟨distinct, apart⟩, chain, later⟩
          exact ⟨⟨⟨fun entry member same => (apart entry member).1 same.symm, distinct⟩, fresh,
            fun entry member => (apart entry member).2⟩, ⟨fun entry member => (later entry member).1, chain⟩, behind,
            fun entry member => (later entry member).2⟩
        · rintro ⟨⟨⟨own, distinct⟩, -, apart⟩, ⟨first, chain⟩, -, later⟩
          exact ⟨⟨distinct, fun entry member => ⟨fun same => own entry member same.symm, apart entry member⟩⟩, chain,
            fun entry member => ⟨first entry member, later entry member⟩⟩
      · rw [if_pos (by simpa using (not_congr checked).mpr behind)]
        refine iff_of_false (by simp [invalidMembership]) ?_
        rintro ⟨-, -, all⟩
        exact behind (all current mem_cons_self)

end

section

variable (clock : Clock) {memberships : List ProjectSourceMembership}

def Apart (first second : ProjectSourceMembership) : Prop :=
  SamePair first second → Disjoint (interval clock first) (interval clock second)

structure Timeline (memberships : List ProjectSourceMembership) : Prop where
  valid : ∀ membership ∈ memberships, Valid clock membership
  distinct : (memberships.map identity).Nodup
  disjoint : memberships.Pairwise (Apart clock)

variable {clock}

theorem Apart.symm {first second : ProjectSourceMembership} (apart : Apart clock first second) :
    Apart clock second first :=
  fun same => (apart ⟨same.1.symm, same.2.symm⟩).symm

theorem Timeline.perm {others : List ProjectSourceMembership} (timeline : Timeline clock memberships)
    (perm : memberships.Perm others) : Timeline clock others := by
  refine ⟨?_, (perm.map identity).nodup_iff.mp timeline.distinct, ?_⟩
  · intro membership member
    exact timeline.valid membership (perm.mem_iff.mpr member)
  · exact perm.pairwise timeline.disjoint Apart.symm

theorem parsed_iff {parsed : List ParsedMembership} : memberships.mapM (parseMembership clock) = .ok parsed ↔
    parsed.map (·.membership) = memberships ∧ ∀ entry ∈ parsed, Reads clock entry.membership entry := by
  rw [mapM_ok]
  constructor
  · intro read
    induction read with
    | nil => simp
    | cons first rest ih =>
      have reads := parseMembership_ok.mp first
      have same := reads.same
      subst same
      refine ⟨by rw [map_cons, ih.1], forall_mem_cons.mpr ⟨reads, ih.2⟩⟩
  · rintro ⟨rfl, reads⟩
    rw [forall₂_map_left_iff, forall₂_same]
    intro entry member
    exact parseMembership_ok.mpr (reads entry member)

theorem exists_parsed (valid : ∀ membership ∈ memberships, Valid clock membership) :
    ∃ parsed, memberships.mapM (parseMembership clock) = .ok parsed := by
  induction memberships with
  | nil => exact ⟨[], rfl⟩
  | cons membership memberships ih =>
    obtain ⟨first, read⟩ := valid_iff.mp (valid membership mem_cons_self)
    obtain ⟨rest, others⟩ := ih fun other member => valid other (mem_cons_of_mem _ member)
    exact ⟨first :: rest, mapM_ok.mpr (.cons read (mapM_ok.mp others))⟩

def sorted (parsed : List ParsedMembership) : List ParsedMembership :=
  parsed.insertionSort fun left right => compareParsedMembership left right ≤ 0

theorem sorted_perm (parsed : List ParsedMembership) : (sorted parsed).Perm parsed := perm_insertionSort _ _

theorem chained_iff {first second : ParsedMembership} (before : order first ≤ order second)
    (one : Reads clock first.membership first) (two : Reads clock second.membership second) :
    Chained first second ↔ Apart clock first.membership second.membership := by
  refine forall_congr' fun same => ?_
  rw [follows_iff (start_le before same), Set.disjoint_left]
  simp only [one.has, two.has, not_and]

theorem sorted_chained {parsed : List ParsedMembership} (reads : ∀ entry ∈ parsed, Reads clock entry.membership entry) :
    (sorted parsed).Pairwise Chained ↔ (parsed.map (·.membership)).Pairwise (Apart clock) := by
  have ordered := sort_ordered (fun left right => (compareParsedMembership_compares left right).le) parsed
  have listed : ∀ {entry}, entry ∈ sorted parsed → Reads clock entry.membership entry :=
    fun member => reads _ ((sorted_perm parsed).mem_iff.mp member)
  rw [← ((sorted_perm parsed).map _).pairwise_iff Apart.symm, pairwise_map]
  constructor
  · intro chained
    refine (ordered.and chained).imp_of_mem ?_
    intro first second one two both
    exact (chained_iff both.1 (listed one) (listed two)).mp both.2
  · intro apart
    refine (ordered.and apart).imp_of_mem ?_
    intro first second one two both
    exact (chained_iff both.1 (listed one) (listed two)).mpr both.2

theorem validate_ok {out : List ProjectSourceMembership} :
    validateProjectMembershipTimeline clock memberships = .ok out ↔
      ∃ parsed, memberships.mapM (parseMembership clock) = .ok parsed ∧ checkTimeline [] [] (sorted parsed) = .ok () ∧
        out = (sorted parsed).map (·.membership) := by
  constructor
  · intro accepted
    obtain ⟨parsed, read, rest⟩ := bind_ok accepted
    obtain ⟨seen, checked, last⟩ := bind_ok rest
    exact ⟨parsed, read, checked, (Except.ok.inj last).symm⟩
  · rintro ⟨parsed, read, checked, rfl⟩
    rw [validateProjectMembershipTimeline, read]
    change (checkTimeline [] [] (sorted parsed) >>= fun _ => _) = _
    rw [checked]
    rfl

theorem checked_iff {parsed : List ParsedMembership} (reads : ∀ entry ∈ parsed, Reads clock entry.membership entry) :
    checkTimeline [] [] (sorted parsed) = .ok () ↔ Timeline clock (parsed.map (·.membership)) := by
  have run := @checkTimeline_ok [] (sorted parsed) List.Pairwise.nil
  have distinct : ((sorted parsed).map fun entry => identity entry.membership).Nodup ↔
      ((parsed.map (·.membership)).map identity).Nodup := by
    rw [map_map]
    exact ((sorted_perm parsed).map _).nodup_iff
  rw [map_nil, map_nil, sorted_chained reads, distinct] at run
  rw [run]
  constructor
  · rintro ⟨⟨own, -⟩, apart, -⟩
    refine ⟨?_, own, apart⟩
    intro membership member
    obtain ⟨entry, listed, rfl⟩ := mem_map.mp member
    exact valid_iff.mpr ⟨entry, parseMembership_ok.mpr (reads entry listed)⟩
  · intro timeline
    exact ⟨⟨timeline.distinct, by simp⟩, timeline.disjoint, by simp⟩

theorem accepted_iff : (∃ out, validateProjectMembershipTimeline clock memberships = .ok out) ↔
    Timeline clock memberships := by
  constructor
  · rintro ⟨out, accepted⟩
    obtain ⟨parsed, read, checked, -⟩ := validate_ok.mp accepted
    obtain ⟨rfl, reads⟩ := parsed_iff.mp read
    exact (checked_iff reads).mp checked
  · intro timeline
    obtain ⟨parsed, read⟩ := exists_parsed timeline.valid
    obtain ⟨rfl, reads⟩ := parsed_iff.mp read
    exact ⟨_, validate_ok.mpr ⟨parsed, read, (checked_iff reads).mpr timeline, rfl⟩⟩

theorem accepted_perm {out : List ProjectSourceMembership}
    (accepted : validateProjectMembershipTimeline clock memberships = .ok out) : out.Perm memberships := by
  obtain ⟨parsed, read, -, rfl⟩ := validate_ok.mp accepted
  obtain ⟨rfl, -⟩ := parsed_iff.mp read
  exact (sorted_perm parsed).map _

theorem active_iff {membership : ProjectSourceMembership} (valid : Valid clock membership) {instant : Text}
    {observed : Int} (known : clock.parse instant = some observed) :
    ((clock.parse membership.validFrom).any (· ≤ observed) &&
        membership.validTo.all fun validTo => (clock.parse validTo).any (observed < ·)) =
      isMembershipActiveAt clock membership instant := by
  obtain ⟨parsed, read⟩ := valid_iff.mp valid
  have reads := parseMembership_ok.mp read
  rw [Bool.eq_iff_iff, isMembershipActiveAt_iff reads known, ← reads.has]
  simp [interval, Option.any_eq_true, Option.all_eq_true]

theorem active_within {membership : ProjectSourceMembership} (valid : Valid clock membership) {instant : Text}
    {observed : Int} (known : clock.parse instant = some observed)
    (active : isMembershipActiveAt clock membership instant = true) : observed ∈ interval clock membership := by
  obtain ⟨parsed, read⟩ := valid_iff.mp valid
  have reads := parseMembership_ok.mp read
  exact (reads.has observed).mpr ((isMembershipActiveAt_iff reads known).mp active)

/-- A timeline is accepted exactly when it is one, in any order of its entries. At an instant it has at most one
    active membership of a pair. -/
theorem validateProjectMembershipTimeline_exact (clock : Clock) (memberships : List ProjectSourceMembership) :
    ((∃ out, validateProjectMembershipTimeline clock memberships = .ok out) ↔ Timeline clock memberships) ∧
    (∀ others, memberships.Perm others →
      ((∃ out, validateProjectMembershipTimeline clock memberships = .ok out) ↔
        ∃ out, validateProjectMembershipTimeline clock others = .ok out)) ∧
    ∀ out instant observed, validateProjectMembershipTimeline clock memberships = .ok out →
      clock.parse instant = some observed →
      ∃ active, activeProjectMembershipsAt clock memberships instant = .ok active ∧
        active.Pairwise (fun first second => ¬ SamePair first second) ∧
        active.Perm (memberships.filter (isMembershipActiveAt clock · instant)) := by
  refine ⟨accepted_iff, ?_, ?_⟩
  · intro others perm
    rw [accepted_iff, accepted_iff]
    exact ⟨fun timeline => timeline.perm perm, fun timeline => timeline.perm perm.symm⟩
  · intro out instant observed accepted known
    have timeline := accepted_iff.mp ⟨out, accepted⟩
    have perm := accepted_perm accepted
    have valid : ∀ membership ∈ out, Valid clock membership :=
      fun membership member => timeline.valid membership (perm.mem_iff.mp member)
    have filtered : activeProjectMembershipsAt clock memberships instant =
        .ok (out.filter (isMembershipActiveAt clock · instant)) := by
      rw [activeProjectMembershipsAt, known, accepted]
      change Except.ok (out.filter _) = _
      rw [filter_congr fun membership member => active_iff (valid membership member) known]
    refine ⟨_, filtered, ?_, perm.filter _⟩
    have apart := (timeline.perm perm.symm).disjoint.filter (isMembershipActiveAt clock · instant)
    refine apart.imp_of_mem ?_
    intro first second one two disjoint same
    obtain ⟨listed, firstActive⟩ := mem_filter.mp one
    obtain ⟨there, secondActive⟩ := mem_filter.mp two
    exact Set.disjoint_left.mp (disjoint same) (active_within (valid first listed) known firstActive)
      (active_within (valid second there) known secondActive)

end

def years : List (Text × Int) :=
  [(text "2026-01-01T00:00Z", 1767225600000), (text "2027-01-01T00:00Z", 1798761600000)]

def yearClock : Clock := ⟨fun value => (years.lookup value).isSome, fun value => years.lookup value⟩

def sampleMembership (id validFrom : String) (validTo : Option String) : ProjectSourceMembership :=
  ⟨⟨text id, 1⟩, text "p", text "s", text "r", text validFrom, validTo.map text, text "g", text "a"⟩

def adjacent : List ProjectSourceMembership :=
  [sampleMembership "b" "2027-01-01T00:00Z" none, sampleMembership "a" "2026-01-01T00:00Z" (some "2027-01-01T00:00Z")]

theorem adjacent_exact : ∃ active,
    activeProjectMembershipsAt yearClock adjacent (text "2027-01-01T00:00Z") = .ok active ∧
      active.Pairwise (fun first second => ¬ SamePair first second) ∧
      active.Perm (adjacent.filter (isMembershipActiveAt yearClock · (text "2027-01-01T00:00Z"))) :=
  (validateProjectMembershipTimeline_exact yearClock adjacent).2.2 adjacent.reverse _ 1798761600000
    (by decide +kernel) (by decide +kernel)

end ProjectMembership
