import Eliot.Text.Encoding

namespace Domain

inductive DomainErrorCode where
  | invalidTransition
  | ownerGenerationMismatch
  | cutoverReceiptInvalid
  | scopeReferenceUnknown

structure DomainError where
  code : DomainErrorCode
  message : Text

open List

inductive SourceOwnerStatus where
  | active
  | cutoverPrepared
  | fenced
  | retired
deriving DecidableEq

def SourceOwnerStatus.name : SourceOwnerStatus → Text
  | .active => text "ACTIVE"
  | .cutoverPrepared => text "CUTOVER_PREPARED"
  | .fenced => text "FENCED"
  | .retired => text "RETIRED"

structure SourceNamespaceOwnership where
  sourceNamespaceId : Text
  ownerSystemId : Text
  ownerIncarnationRef : Text
  ownershipRecordRevision : Nat
  sourceOwnerGeneration : Text
  sourceAdmissionPolicyRevision : Nat
  status : SourceOwnerStatus
  cutoverReceiptRef : Option Text

def allowedTransitions : SourceOwnerStatus → List SourceOwnerStatus
  | .active => [.cutoverPrepared, .fenced, .retired]
  | .cutoverPrepared => [.active, .fenced, .retired]
  | .fenced => [.retired]
  | .retired => []

structure OwnershipTransitionInput where
  current : SourceNamespaceOwnership
  next : SourceNamespaceOwnership
  cutoverReceiptPresent : Bool

def validateOwnershipTransition (input : OwnershipTransitionInput) :
    Except DomainError SourceNamespaceOwnership :=
  let current := input.current
  let next := input.next
  if current.sourceNamespaceId ≠ next.sourceNamespaceId then
    throw ⟨.invalidTransition, text "source namespace cannot change during an ownership transition"⟩
  else if next.ownershipRecordRevision ≠ current.ownershipRecordRevision + 1 then
    throw ⟨.invalidTransition, text "ownership record revision must increment by exactly one"⟩
  else if next.status ∉ allowedTransitions current.status then
    throw ⟨.invalidTransition,
      current.status.name ++ text " cannot transition to " ++ next.status.name⟩
  else if current.sourceOwnerGeneration = next.sourceOwnerGeneration then
    throw ⟨.ownerGenerationMismatch,
      text "owner generation must change on every ownership lifecycle transition"⟩
  else if (next.status = .active ∨ next.status = .retired) ∧
      next.ownerSystemId ≠ current.ownerSystemId ∧ input.cutoverReceiptPresent = false then
    throw ⟨.cutoverReceiptInvalid, text "owner change requires a bilateral cutover receipt"⟩
  else return next

section

structure Transition where
  next : SourceNamespaceOwnership
  cutoverReceiptPresent : Bool

def reached (start : SourceNamespaceOwnership) (steps : List Transition) :
    SourceNamespaceOwnership :=
  steps.foldl (fun _ step => step.next) start

def Accepted : SourceNamespaceOwnership → List Transition → Prop
  | _, [] => True
  | current, step :: steps =>
    validateOwnershipTransition ⟨current, step.next, step.cutoverReceiptPresent⟩ = .ok step.next ∧
      Accepted step.next steps

def Covered (current : SourceNamespaceOwnership) (step : Transition) : Prop :=
  step.next.ownerSystemId ≠ current.ownerSystemId → step.cutoverReceiptPresent = true

def Receipted (start : SourceNamespaceOwnership) (steps : List Transition) : Prop :=
  (reached start steps).ownerSystemId ≠ start.ownerSystemId →
    ∃ step ∈ steps, step.cutoverReceiptPresent = true

variable {start current : SourceNamespaceOwnership} {steps before after : List Transition}

theorem reached_append :
    reached start (before ++ after) = reached (reached start before) after :=
  foldl_append

theorem accepted_append :
    Accepted start (before ++ after) ↔ Accepted start before ∧ Accepted (reached start before) after := by
  induction before generalizing start with
  | nil => simp [Accepted, reached]
  | cons step before ih =>
    simp only [cons_append, Accepted, ih, and_assoc]
    rfl

theorem validate_receipt {step : Transition}
    (valid : validateOwnershipTransition ⟨current, step.next, step.cutoverReceiptPresent⟩ =
      .ok step.next)
    (checked : step.next.status = .active ∨ step.next.status = .retired) : Covered current step := by
  intro changed
  by_contra absent
  unfold validateOwnershipTransition at valid
  simp only at valid
  split_ifs at valid with namespaces revision allowed generation receipt
  exact receipt ⟨checked, changed, by simpa using absent⟩

theorem receipted_of_steps
    (each : ∀ before step after, steps = before ++ step :: after →
      Covered (reached start before) step) : Receipted start steps := by
  induction steps generalizing start with
  | nil =>
    intro changed
    exact absurd rfl changed
  | cons step steps ih =>
    intro changed
    by_cases present : step.cutoverReceiptPresent = true
    · exact ⟨step, mem_cons_self .., present⟩
    · have same : step.next.ownerSystemId = start.ownerSystemId := by
        by_contra other
        exact present (each [] step steps rfl other)
      have rest : Receipted step.next steps := ih fun before other after shape =>
        each (step :: before) other after (by rw [shape]; rfl)
      obtain ⟨other, listed, receipt⟩ := rest (by rw [same]; exact changed)
      exact ⟨other, mem_cons_of_mem _ listed, receipt⟩

/-- An accepted sequence passes from owner to owner with receipts, in each of its parts, exactly
    when no record that is prepared or fenced has another owner than the one before it without
    one. -/
theorem owner_changes_with_receipt (start : SourceNamespaceOwnership) (steps : List Transition)
    (accepted : Accepted start steps) :
    (∀ before part after, steps = before ++ part ++ after →
      Receipted (reached start before) part) ↔
    ∀ before step after, steps = before ++ step :: after →
      step.next.status = .cutoverPrepared ∨ step.next.status = .fenced →
      step.next.ownerSystemId ≠ (reached start before).ownerSystemId →
      step.cutoverReceiptPresent = true := by
  constructor
  · intro receipted before step after shape _ changed
    obtain ⟨found, listed, receipt⟩ := receipted before [step] after (by simpa using shape) changed
    rw [mem_singleton.mp listed] at receipt
    exact receipt
  · intro prepared before part after shape
    refine receipted_of_steps fun first step last within => ?_
    have place : steps = (before ++ first) ++ step :: (last ++ after) := by
      rw [shape, within]
      simp
    have valid : validateOwnershipTransition
        ⟨reached start (before ++ first), step.next, step.cutoverReceiptPresent⟩ =
          .ok step.next := by
      rw [place, accepted_append] at accepted
      exact accepted.2.1
    rw [← reached_append]
    intro changed
    cases status : step.next.status with
    | active => exact validate_receipt valid (.inl status) changed
    | retired => exact validate_receipt valid (.inr status) changed
    | cutoverPrepared => exact prepared _ step _ place (.inl status) changed
    | fenced => exact prepared _ step _ place (.inr status) changed

end

def record (owner : Text) (revision : Nat) (status : SourceOwnerStatus) :
    SourceNamespaceOwnership where
  sourceNamespaceId := text "notes"
  ownerSystemId := owner
  ownerIncarnationRef := text "first"
  ownershipRecordRevision := revision
  sourceOwnerGeneration := Text.decimal revision
  sourceAdmissionPolicyRevision := 1
  status := status
  cutoverReceiptRef := none

def renewal : List Transition :=
  [⟨record (text "a") 2 .cutoverPrepared, false⟩, ⟨record (text "a") 3 .active, false⟩]

theorem owner_changes_with_receipt_renewed :
    Accepted (record (text "a") 1 .active) renewal ∧ ∀ before part after, renewal = before ++ part ++ after →
      Receipted (reached (record (text "a") 1 .active) before) part := by
  have accepted : Accepted (record (text "a") 1 .active) renewal := ⟨rfl, rfl, trivial⟩
  refine ⟨accepted, (owner_changes_with_receipt (record (text "a") 1 .active) renewal accepted).mpr ?_⟩
  intro before step after shape _ changed
  have owner : ∀ listed ∈ before ++ step :: after, listed.next.ownerSystemId = text "a" := by
    rw [← shape]
    simp [renewal, record]
  have current : (reached (record (text "a") 1 .active) before).ownerSystemId = text "a" := by
    rcases eq_nil_or_concat before with rfl | ⟨front, last, rfl⟩
    · rfl
    · rw [concat_eq_append, reached_append]
      exact owner last (by simp)
  exact absurd ((owner step (by simp)).trans current.symm) changed

/-- A namespace changes hands without any receipt: it is prepared for the new owner, which then
    only has to stay. -/
theorem owner_changes_unreceipted :
    ¬∀ start steps, Accepted start steps → Receipted start steps := by
  intro always
  have steps := always (record (text "a") 1 .active)
    [⟨record (text "b") 2 .cutoverPrepared, false⟩, ⟨record (text "b") 3 .active, false⟩]
    ⟨rfl, rfl, trivial⟩ (by decide)
  simp at steps

end Domain
