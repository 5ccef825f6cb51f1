import Eliot.Json.Schema

namespace Workflow
open Json List
open Text (prose)

/-- `WORKFLOW_FAILURE_CODES` -/
inductive WorkflowFailureCode where
  | workflowInputInvalid | workflowConflict | workflowAuthorityStale | workflowStageOutOfOrder
  | workflowCancelled | workflowBudgetStop | workflowEffectUncertain | workflowOutputUnavailable
  | workflowOutputCorrupt | workflowConfigurationMissing | workflowConfigurationInvalid
  | workflowCredentialsMissing | workflowCredentialsInvalid | workflowStorageUnavailable
  | workflowQualificationStale | workflowPreparationFailed | researchQualificationRenewalReadTokenRequired
  | researchQualificationRenewalAuthorityStale | researchQualificationRenewalUnavailable
  | researchQualificationRenewalRouteUnavailable | modelAttemptInputInvalid | modelAttemptAuthorityStale
  | modelAttemptIdentityConflict | modelAttemptBudgetExpired | modelAttemptConflict
  | modelAttemptSettlementUncertain | modelAttemptReadbackCorrupt | modelGatewayDeploymentMissing
  | modelGatewayPromptCompileFailed | modelGatewayRequestInvalid | modelGatewayCredentialInvalid
  | modelGatewayTransportFailed | modelGatewayAuthRejected | modelGatewayLimitRejected
  | modelGatewayPolicyRejected | modelGatewayUpstreamRejected | modelGatewayResponseInvalid
  | modelGatewayOutputTruncated | modelGatewayOutputPersistFailed | modelGatewayFingerprintPersistFailed
  | modelGatewayPricingFailed | modelProfileBindingInputInvalid | modelProfileBindingConfigMissing
  | modelProfileBindingConfigInvalid | modelProfileBindingAuthorityStale | modelProfileBindingDeploymentMissing
  | modelProfileBindingDeploymentMismatch | modelProfileBindingExpired | referenceManifestInputInvalid
  | referenceManifestScopeStale | referenceManifestEvidenceInvalid | referenceManifestPolicyInvalid
  | referenceManifestPersistenceUncertain | evidenceInputInvalid | evidenceScopeNotFound
  | evidenceScopeInvalidated | evidenceScopeExpired | evidenceAuthorizationDenied | evidenceSourceNotFound
  | evidenceSourceNotLive | evidenceOwnerGenerationMismatch | evidenceScopeMismatch
  | evidenceLocatorNotResolvable | evidencePrecisionUnsupported | evidenceObjectNotFound
  | evidenceObjectIntegrity | evidenceRangeInvalid | evidenceHandleNotFound | evidenceHandleNotLive
  | evidenceIdentityConflict | evidenceSettlementUncertain | citationSetInvalid | evidenceFreezeInputInvalid
  | evidenceFreezeScopeStale | evidenceFreezeEvidenceInvalid | evidenceFreezeAuthorityInvalid
  | evidenceFreezeSettlementUncertain
deriving DecidableEq

def WorkflowFailureCode.spelled : WorkflowFailureCode → Text
  | .workflowInputInvalid => prose "WORKFLOW_INPUT_INVALID" rfl
  | .workflowConflict => prose "WORKFLOW_CONFLICT" rfl
  | .workflowAuthorityStale => prose "WORKFLOW_AUTHORITY_STALE" rfl
  | .workflowStageOutOfOrder => prose "WORKFLOW_STAGE_OUT_OF_ORDER" rfl
  | .workflowCancelled => prose "WORKFLOW_CANCELLED" rfl
  | .workflowBudgetStop => prose "WORKFLOW_BUDGET_STOP" rfl
  | .workflowEffectUncertain => prose "WORKFLOW_EFFECT_UNCERTAIN" rfl
  | .workflowOutputUnavailable => prose "WORKFLOW_OUTPUT_UNAVAILABLE" rfl
  | .workflowOutputCorrupt => prose "WORKFLOW_OUTPUT_CORRUPT" rfl
  | .workflowConfigurationMissing => prose "WORKFLOW_CONFIGURATION_MISSING" rfl
  | .workflowConfigurationInvalid => prose "WORKFLOW_CONFIGURATION_INVALID" rfl
  | .workflowCredentialsMissing => prose "WORKFLOW_CREDENTIALS_MISSING" rfl
  | .workflowCredentialsInvalid => prose "WORKFLOW_CREDENTIALS_INVALID" rfl
  | .workflowStorageUnavailable => prose "WORKFLOW_STORAGE_UNAVAILABLE" rfl
  | .workflowQualificationStale => prose "WORKFLOW_QUALIFICATION_STALE" rfl
  | .workflowPreparationFailed => prose "WORKFLOW_PREPARATION_FAILED" rfl
  | .researchQualificationRenewalReadTokenRequired => prose "RESEARCH_QUALIFICATION_RENEWAL_READ_TOKEN_REQUIRED" rfl
  | .researchQualificationRenewalAuthorityStale => prose "RESEARCH_QUALIFICATION_RENEWAL_AUTHORITY_STALE" rfl
  | .researchQualificationRenewalUnavailable => prose "RESEARCH_QUALIFICATION_RENEWAL_UNAVAILABLE" rfl
  | .researchQualificationRenewalRouteUnavailable => prose "RESEARCH_QUALIFICATION_RENEWAL_ROUTE_UNAVAILABLE" rfl
  | .modelAttemptInputInvalid => prose "MODEL_ATTEMPT_INPUT_INVALID" rfl
  | .modelAttemptAuthorityStale => prose "MODEL_ATTEMPT_AUTHORITY_STALE" rfl
  | .modelAttemptIdentityConflict => prose "MODEL_ATTEMPT_IDENTITY_CONFLICT" rfl
  | .modelAttemptBudgetExpired => prose "MODEL_ATTEMPT_BUDGET_EXPIRED" rfl
  | .modelAttemptConflict => prose "MODEL_ATTEMPT_CONFLICT" rfl
  | .modelAttemptSettlementUncertain => prose "MODEL_ATTEMPT_SETTLEMENT_UNCERTAIN" rfl
  | .modelAttemptReadbackCorrupt => prose "MODEL_ATTEMPT_READBACK_CORRUPT" rfl
  | .modelGatewayDeploymentMissing => prose "MODEL_GATEWAY_DEPLOYMENT_MISSING" rfl
  | .modelGatewayPromptCompileFailed => prose "MODEL_GATEWAY_PROMPT_COMPILE_FAILED" rfl
  | .modelGatewayRequestInvalid => prose "MODEL_GATEWAY_REQUEST_INVALID" rfl
  | .modelGatewayCredentialInvalid => prose "MODEL_GATEWAY_CREDENTIAL_INVALID" rfl
  | .modelGatewayTransportFailed => prose "MODEL_GATEWAY_TRANSPORT_FAILED" rfl
  | .modelGatewayAuthRejected => prose "MODEL_GATEWAY_AUTH_REJECTED" rfl
  | .modelGatewayLimitRejected => prose "MODEL_GATEWAY_LIMIT_REJECTED" rfl
  | .modelGatewayPolicyRejected => prose "MODEL_GATEWAY_POLICY_REJECTED" rfl
  | .modelGatewayUpstreamRejected => prose "MODEL_GATEWAY_UPSTREAM_REJECTED" rfl
  | .modelGatewayResponseInvalid => prose "MODEL_GATEWAY_RESPONSE_INVALID" rfl
  | .modelGatewayOutputTruncated => prose "MODEL_GATEWAY_OUTPUT_TRUNCATED" rfl
  | .modelGatewayOutputPersistFailed => prose "MODEL_GATEWAY_OUTPUT_PERSIST_FAILED" rfl
  | .modelGatewayFingerprintPersistFailed => prose "MODEL_GATEWAY_FINGERPRINT_PERSIST_FAILED" rfl
  | .modelGatewayPricingFailed => prose "MODEL_GATEWAY_PRICING_FAILED" rfl
  | .modelProfileBindingInputInvalid => prose "MODEL_PROFILE_BINDING_INPUT_INVALID" rfl
  | .modelProfileBindingConfigMissing => prose "MODEL_PROFILE_BINDING_CONFIG_MISSING" rfl
  | .modelProfileBindingConfigInvalid => prose "MODEL_PROFILE_BINDING_CONFIG_INVALID" rfl
  | .modelProfileBindingAuthorityStale => prose "MODEL_PROFILE_BINDING_AUTHORITY_STALE" rfl
  | .modelProfileBindingDeploymentMissing => prose "MODEL_PROFILE_BINDING_DEPLOYMENT_MISSING" rfl
  | .modelProfileBindingDeploymentMismatch => prose "MODEL_PROFILE_BINDING_DEPLOYMENT_MISMATCH" rfl
  | .modelProfileBindingExpired => prose "MODEL_PROFILE_BINDING_EXPIRED" rfl
  | .referenceManifestInputInvalid => prose "REFERENCE_MANIFEST_INPUT_INVALID" rfl
  | .referenceManifestScopeStale => prose "REFERENCE_MANIFEST_SCOPE_STALE" rfl
  | .referenceManifestEvidenceInvalid => prose "REFERENCE_MANIFEST_EVIDENCE_INVALID" rfl
  | .referenceManifestPolicyInvalid => prose "REFERENCE_MANIFEST_POLICY_INVALID" rfl
  | .referenceManifestPersistenceUncertain => prose "REFERENCE_MANIFEST_PERSISTENCE_UNCERTAIN" rfl
  | .evidenceInputInvalid => prose "EVIDENCE_INPUT_INVALID" rfl
  | .evidenceScopeNotFound => prose "EVIDENCE_SCOPE_NOT_FOUND" rfl
  | .evidenceScopeInvalidated => prose "EVIDENCE_SCOPE_INVALIDATED" rfl
  | .evidenceScopeExpired => prose "EVIDENCE_SCOPE_EXPIRED" rfl
  | .evidenceAuthorizationDenied => prose "EVIDENCE_AUTHORIZATION_DENIED" rfl
  | .evidenceSourceNotFound => prose "EVIDENCE_SOURCE_NOT_FOUND" rfl
  | .evidenceSourceNotLive => prose "EVIDENCE_SOURCE_NOT_LIVE" rfl
  | .evidenceOwnerGenerationMismatch => prose "EVIDENCE_OWNER_GENERATION_MISMATCH" rfl
  | .evidenceScopeMismatch => prose "EVIDENCE_SCOPE_MISMATCH" rfl
  | .evidenceLocatorNotResolvable => prose "EVIDENCE_LOCATOR_NOT_RESOLVABLE" rfl
  | .evidencePrecisionUnsupported => prose "EVIDENCE_PRECISION_UNSUPPORTED" rfl
  | .evidenceObjectNotFound => prose "EVIDENCE_OBJECT_NOT_FOUND" rfl
  | .evidenceObjectIntegrity => prose "EVIDENCE_OBJECT_INTEGRITY" rfl
  | .evidenceRangeInvalid => prose "EVIDENCE_RANGE_INVALID" rfl
  | .evidenceHandleNotFound => prose "EVIDENCE_HANDLE_NOT_FOUND" rfl
  | .evidenceHandleNotLive => prose "EVIDENCE_HANDLE_NOT_LIVE" rfl
  | .evidenceIdentityConflict => prose "EVIDENCE_IDENTITY_CONFLICT" rfl
  | .evidenceSettlementUncertain => prose "EVIDENCE_SETTLEMENT_UNCERTAIN" rfl
  | .citationSetInvalid => prose "CITATION_SET_INVALID" rfl
  | .evidenceFreezeInputInvalid => prose "EVIDENCE_FREEZE_INPUT_INVALID" rfl
  | .evidenceFreezeScopeStale => prose "EVIDENCE_FREEZE_SCOPE_STALE" rfl
  | .evidenceFreezeEvidenceInvalid => prose "EVIDENCE_FREEZE_EVIDENCE_INVALID" rfl
  | .evidenceFreezeAuthorityInvalid => prose "EVIDENCE_FREEZE_AUTHORITY_INVALID" rfl
  | .evidenceFreezeSettlementUncertain => prose "EVIDENCE_FREEZE_SETTLEMENT_UNCERTAIN" rfl

def workflowFailureCodes : Vocabulary WorkflowFailureCode where
  members := [
    .workflowInputInvalid, .workflowConflict, .workflowAuthorityStale, .workflowStageOutOfOrder,
    .workflowCancelled, .workflowBudgetStop, .workflowEffectUncertain, .workflowOutputUnavailable,
    .workflowOutputCorrupt, .workflowConfigurationMissing, .workflowConfigurationInvalid,
    .workflowCredentialsMissing, .workflowCredentialsInvalid, .workflowStorageUnavailable,
    .workflowQualificationStale, .workflowPreparationFailed, .researchQualificationRenewalReadTokenRequired,
    .researchQualificationRenewalAuthorityStale, .researchQualificationRenewalUnavailable,
    .researchQualificationRenewalRouteUnavailable, .modelAttemptInputInvalid, .modelAttemptAuthorityStale,
    .modelAttemptIdentityConflict, .modelAttemptBudgetExpired, .modelAttemptConflict,
    .modelAttemptSettlementUncertain, .modelAttemptReadbackCorrupt, .modelGatewayDeploymentMissing,
    .modelGatewayPromptCompileFailed, .modelGatewayRequestInvalid, .modelGatewayCredentialInvalid,
    .modelGatewayTransportFailed, .modelGatewayAuthRejected, .modelGatewayLimitRejected,
    .modelGatewayPolicyRejected, .modelGatewayUpstreamRejected, .modelGatewayResponseInvalid,
    .modelGatewayOutputTruncated, .modelGatewayOutputPersistFailed, .modelGatewayFingerprintPersistFailed,
    .modelGatewayPricingFailed, .modelProfileBindingInputInvalid, .modelProfileBindingConfigMissing,
    .modelProfileBindingConfigInvalid, .modelProfileBindingAuthorityStale,
    .modelProfileBindingDeploymentMissing, .modelProfileBindingDeploymentMismatch, .modelProfileBindingExpired,
    .referenceManifestInputInvalid, .referenceManifestScopeStale, .referenceManifestEvidenceInvalid,
    .referenceManifestPolicyInvalid, .referenceManifestPersistenceUncertain, .evidenceInputInvalid,
    .evidenceScopeNotFound, .evidenceScopeInvalidated, .evidenceScopeExpired, .evidenceAuthorizationDenied,
    .evidenceSourceNotFound, .evidenceSourceNotLive, .evidenceOwnerGenerationMismatch, .evidenceScopeMismatch,
    .evidenceLocatorNotResolvable, .evidencePrecisionUnsupported, .evidenceObjectNotFound,
    .evidenceObjectIntegrity, .evidenceRangeInvalid, .evidenceHandleNotFound, .evidenceHandleNotLive,
    .evidenceIdentityConflict, .evidenceSettlementUncertain, .citationSetInvalid, .evidenceFreezeInputInvalid,
    .evidenceFreezeScopeStale, .evidenceFreezeEvidenceInvalid, .evidenceFreezeAuthorityInvalid,
    .evidenceFreezeSettlementUncertain]
  spelled := WorkflowFailureCode.spelled
  complete := by rintro ⟨⟩ <;> decide
  distinct := by decide +kernel

inductive WorkflowFailurePhase where
  | preparation | stage | recovery
deriving DecidableEq

def WorkflowFailurePhase.spelled : WorkflowFailurePhase → Text
  | .preparation => prose "PREPARATION" rfl
  | .stage => prose "STAGE" rfl
  | .recovery => prose "RECOVERY" rfl

def workflowFailurePhases : Vocabulary WorkflowFailurePhase where
  members := [
    .preparation, .stage, .recovery]
  spelled := WorkflowFailurePhase.spelled
  complete := by rintro ⟨⟩ <;> decide
  distinct := by decide +kernel

inductive ResearchWorkflowStage where
  | freezeProtocolAndScope | orient | interpret | compileObligations | plan | retrieveBranches
  | acquireAndCapture | readAndExtract | analyzeBranches | counterSearch | reconcile | freezeEvidence
  | synthesize | verify | auditClaims | resolveCitations | calculateCoverage | materialize
deriving DecidableEq

def ResearchWorkflowStage.spelled : ResearchWorkflowStage → Text
  | .freezeProtocolAndScope => prose "FREEZE_PROTOCOL_AND_SCOPE" rfl
  | .orient => prose "ORIENT" rfl
  | .interpret => prose "INTERPRET" rfl
  | .compileObligations => prose "COMPILE_OBLIGATIONS" rfl
  | .plan => prose "PLAN" rfl
  | .retrieveBranches => prose "RETRIEVE_BRANCHES" rfl
  | .acquireAndCapture => prose "ACQUIRE_AND_CAPTURE" rfl
  | .readAndExtract => prose "READ_AND_EXTRACT" rfl
  | .analyzeBranches => prose "ANALYZE_BRANCHES" rfl
  | .counterSearch => prose "COUNTER_SEARCH" rfl
  | .reconcile => prose "RECONCILE" rfl
  | .freezeEvidence => prose "FREEZE_EVIDENCE" rfl
  | .synthesize => prose "SYNTHESIZE" rfl
  | .verify => prose "VERIFY" rfl
  | .auditClaims => prose "AUDIT_CLAIMS" rfl
  | .resolveCitations => prose "RESOLVE_CITATIONS" rfl
  | .calculateCoverage => prose "CALCULATE_COVERAGE" rfl
  | .materialize => prose "MATERIALIZE" rfl

def researchWorkflowStages : Vocabulary ResearchWorkflowStage where
  members := [
    .freezeProtocolAndScope, .orient, .interpret, .compileObligations, .plan, .retrieveBranches,
    .acquireAndCapture, .readAndExtract, .analyzeBranches, .counterSearch, .reconcile, .freezeEvidence,
    .synthesize, .verify, .auditClaims, .resolveCitations, .calculateCoverage, .materialize]
  spelled := ResearchWorkflowStage.spelled
  complete := by rintro ⟨⟩ <;> decide
  distinct := by decide +kernel

inductive WorkflowFailureDispatchState where
  | notStarted | outcomeUnknown | responseReceived
deriving DecidableEq

def WorkflowFailureDispatchState.spelled : WorkflowFailureDispatchState → Text
  | .notStarted => prose "NOT_STARTED" rfl
  | .outcomeUnknown => prose "OUTCOME_UNKNOWN" rfl
  | .responseReceived => prose "RESPONSE_RECEIVED" rfl

def workflowFailureDispatchStates : Vocabulary WorkflowFailureDispatchState where
  members := [
    .notStarted, .outcomeUnknown, .responseReceived]
  spelled := WorkflowFailureDispatchState.spelled
  complete := by rintro ⟨⟩ <;> decide
  distinct := by decide +kernel

inductive WorkflowFailureReferencesIntact where
  | intact | unknown
deriving DecidableEq

def WorkflowFailureReferencesIntact.spelled : WorkflowFailureReferencesIntact → Text
  | .intact => prose "INTACT" rfl
  | .unknown => prose "UNKNOWN" rfl

def workflowFailureReferences : Vocabulary WorkflowFailureReferencesIntact where
  members := [
    .intact, .unknown]
  spelled := WorkflowFailureReferencesIntact.spelled
  complete := by rintro ⟨⟩ <;> decide
  distinct := by decide +kernel

inductive WorkflowFailureRecoveryAction where
  | none | readback | reconcile
deriving DecidableEq

def WorkflowFailureRecoveryAction.spelled : WorkflowFailureRecoveryAction → Text
  | .none => prose "NONE" rfl
  | .readback => prose "READBACK" rfl
  | .reconcile => prose "RECONCILE" rfl

def workflowFailureRecoveryActions : Vocabulary WorkflowFailureRecoveryAction where
  members := [
    .none, .readback, .reconcile]
  spelled := WorkflowFailureRecoveryAction.spelled
  complete := by rintro ⟨⟩ <;> decide
  distinct := by decide +kernel

section
variable {Number : Type}

structure WorkflowFailureFields where
  code : WorkflowFailureCode
  phase : WorkflowFailurePhase
  stage : Option ResearchWorkflowStage
  retryable : Bool
  staged : phase = .preparation ↔ stage = none
deriving DecidableEq

structure WorkflowFailure extends WorkflowFailureFields where
  safe : retryable = true → phase = .preparation ∧ code = .workflowStorageUnavailable

structure WorkflowFailureOutcome extends WorkflowFailureFields where
  dispatchState : WorkflowFailureDispatchState
  referencesIntact : WorkflowFailureReferencesIntact
  recoveryAction : WorkflowFailureRecoveryAction
  certain : dispatchState = .outcomeUnknown → referencesIntact = .unknown ∧ recoveryAction ≠ .none
deriving DecidableEq

inductive WorkflowFailureCompatible where
  | failure (failure : WorkflowFailure)
  | outcome (outcome : WorkflowFailureOutcome)

structure WorkflowFailureHistory where
  firstCause : Option WorkflowFailureOutcome
  consequences : List WorkflowFailureOutcome
  bounded : consequences.length ≤ 16
  rooted : firstCause = none → consequences = []

def outcomeProtocol : Text := prose "eliotr.workflow-failure-outcome.v1" rfl
def historyProtocol : Text := prose "eliotr.workflow-failure-history.v1" rfl

def readFields (members : List (Text × Data Number)) : Option WorkflowFailureFields := do
  let code ← (members.lookup (prose "code" rfl)).bind workflowFailureCodes.read
  let phase ← (members.lookup (prose "phase" rfl)).bind workflowFailurePhases.read
  let stage ← maybe researchWorkflowStages.read (members.lookup (prose "stage" rfl))
  let retryable ← (members.lookup (prose "retryable" rfl)).bind readBoolean
  if staged : phase = .preparation ↔ stage = none then some ⟨code, phase, stage, retryable, staged⟩ else none

def workflowFailureSchema (data : Data Number) : Option WorkflowFailure := do
  let members ← strict [prose "code" rfl, prose "phase" rfl, prose "stage" rfl, prose "retryable" rfl] data
  let fields ← readFields members
  if safe : fields.retryable = true → fields.phase = .preparation ∧ fields.code = .workflowStorageUnavailable then
    some ⟨fields, safe⟩
  else none

def outcomeNames : List Text :=
  [prose "protocol" rfl, prose "code" rfl, prose "phase" rfl, prose "stage" rfl, prose "retryable" rfl,
    prose "dispatch_state" rfl, prose "references_intact" rfl, prose "recovery_action" rfl]

def workflowFailureOutcomeSchema (data : Data Number) : Option WorkflowFailureOutcome := do
  let members ← strict outcomeNames data
  let () ← (members.lookup (prose "protocol" rfl)).bind (literal outcomeProtocol)
  let fields ← readFields members
  let dispatchState ← (members.lookup (prose "dispatch_state" rfl)).bind workflowFailureDispatchStates.read
  let referencesIntact ← (members.lookup (prose "references_intact" rfl)).bind workflowFailureReferences.read
  let recoveryAction ← (members.lookup (prose "recovery_action" rfl)).bind workflowFailureRecoveryActions.read
  if certain : dispatchState = .outcomeUnknown → referencesIntact = .unknown ∧ recoveryAction ≠ .none then
    some ⟨fields, dispatchState, referencesIntact, recoveryAction, certain⟩
  else none

def workflowFailureCompatibleSchema (data : Data Number) : Option WorkflowFailureCompatible :=
  match workflowFailureSchema data with
  | some failure => some (.failure failure)
  | none => (workflowFailureOutcomeSchema data).map .outcome

def workflowFailureHistorySchema (data : Data Number) : Option WorkflowFailureHistory := do
  let members ← strict [prose "protocol" rfl, prose "first_cause" rfl, prose "consequences" rfl] data
  let () ← (members.lookup (prose "protocol" rfl)).bind (literal historyProtocol)
  let firstCause ← (members.lookup (prose "first_cause" rfl)).bind (nullable workflowFailureOutcomeSchema)
  let consequences ← (members.lookup (prose "consequences" rfl)).bind (atMost 16 workflowFailureOutcomeSchema)
  if valid : consequences.length ≤ 16 ∧ (firstCause = none → consequences = []) then
    some ⟨firstCause, consequences, valid.1, valid.2⟩
  else none

def WorkflowFailureFields.members (fields : WorkflowFailureFields) : List (Text × Data Number) :=
  [(prose "code" rfl, .text fields.code.spelled), (prose "phase" rfl, .text fields.phase.spelled)] ++
    fields.stage.toList.map (fun stage => (prose "stage" rfl, .text stage.spelled)) ++
      [(prose "retryable" rfl, .boolean fields.retryable)]

def WorkflowFailure.data (failure : WorkflowFailure) : Data Number := .object failure.members

def WorkflowFailureOutcome.data (outcome : WorkflowFailureOutcome) : Data Number :=
  .object ((prose "protocol" rfl, .text outcomeProtocol) :: outcome.members ++
    [(prose "dispatch_state" rfl, .text outcome.dispatchState.spelled),
     (prose "references_intact" rfl, .text outcome.referencesIntact.spelled),
     (prose "recovery_action" rfl, .text outcome.recoveryAction.spelled)])

def WorkflowFailureCompatible.data : WorkflowFailureCompatible → Data Number
  | .failure value => value.data
  | .outcome value => value.data

def WorkflowFailureHistory.members (history : WorkflowFailureHistory) : List (Text × Data Number) :=
  [(prose "protocol" rfl, .text historyProtocol),
   (prose "first_cause" rfl, (history.firstCause.map WorkflowFailureOutcome.data).getD .null),
   (prose "consequences" rfl, .array (history.consequences.map WorkflowFailureOutcome.data))]

def WorkflowFailureHistory.data (history : WorkflowFailureHistory) : Data Number := .object history.members

theorem readFields_of {members : List (Text × Data Number)} {fields : WorkflowFailureFields}
    (code : members.lookup (prose "code" rfl) = some (.text fields.code.spelled))
    (phase : members.lookup (prose "phase" rfl) = some (.text fields.phase.spelled))
    (stage : members.lookup (prose "stage" rfl) = fields.stage.map fun stage => .text stage.spelled)
    (retryable : members.lookup (prose "retryable" rfl) = some (.boolean fields.retryable)) :
    readFields members = some fields := by
  have codes : workflowFailureCodes.read (.text fields.code.spelled : Data Number) = some fields.code :=
    workflowFailureCodes.read_spelled _
  have phases : workflowFailurePhases.read (.text fields.phase.spelled : Data Number) = some fields.phase :=
    workflowFailurePhases.read_spelled _
  have stages : maybe researchWorkflowStages.read
      (fields.stage.map fun stage => (.text stage.spelled : Data Number)) = some fields.stage := by
    cases fields.stage with
    | none => rfl
    | some stage => exact congrArg (Option.map some) (researchWorkflowStages.read_spelled stage)
  simp only [readFields, code, phase, stage, retryable, Option.bind_some, bind, stages, codes, phases]
  exact dif_pos fields.staged

theorem workflowFailureSchema_data (failure : WorkflowFailure) :
    workflowFailureSchema (failure.data : Data Number) = some failure := by
  obtain ⟨fields, safe⟩ := failure
  obtain ⟨code, phase, stage, retryable, staged⟩ := fields
  have known : strict [prose "code" rfl, prose "phase" rfl, prose "stage" rfl, prose "retryable" rfl]
      (WorkflowFailure.data ⟨⟨code, phase, stage, retryable, staged⟩, safe⟩ : Data Number) =
      some (WorkflowFailureFields.members ⟨code, phase, stage, retryable, staged⟩) := by
    cases stage <;> exact strict_object rfl
  have fields : readFields (WorkflowFailureFields.members ⟨code, phase, stage, retryable, staged⟩ :
      List (Text × Data Number)) = some ⟨code, phase, stage, retryable, staged⟩ := by
    cases stage <;> exact readFields_of rfl rfl rfl rfl
  rw [workflowFailureSchema, known]
  simp only [bind, Option.bind_some, fields]
  exact dif_pos safe

theorem workflowFailureOutcomeSchema_of {members : List (Text × Data Number)} {outcome : WorkflowFailureOutcome}
    (known : members.all (fun member => outcomeNames.contains member.1) = true)
    (protocol : members.lookup (prose "protocol" rfl) = some (.text outcomeProtocol))
    (fields : readFields members = some outcome.toWorkflowFailureFields)
    (dispatchState : members.lookup (prose "dispatch_state" rfl) = some (.text outcome.dispatchState.spelled))
    (references : members.lookup (prose "references_intact" rfl) = some (.text outcome.referencesIntact.spelled))
    (recovery : members.lookup (prose "recovery_action" rfl) = some (.text outcome.recoveryAction.spelled)) :
    workflowFailureOutcomeSchema (.object members) = some outcome := by
  have dispatched : workflowFailureDispatchStates.read (.text outcome.dispatchState.spelled : Data Number) =
      some outcome.dispatchState := workflowFailureDispatchStates.read_spelled _
  have intact : workflowFailureReferences.read (.text outcome.referencesIntact.spelled : Data Number) =
      some outcome.referencesIntact := workflowFailureReferences.read_spelled _
  have action : workflowFailureRecoveryActions.read (.text outcome.recoveryAction.spelled : Data Number) =
      some outcome.recoveryAction := workflowFailureRecoveryActions.read_spelled _
  simp only [workflowFailureOutcomeSchema, strict_object known, bind, Option.bind_some, protocol, literal_text, fields,
    dispatchState, dispatched, references, intact, recovery, action]
  exact dif_pos outcome.certain

theorem workflowFailureOutcomeSchema_data (outcome : WorkflowFailureOutcome) :
    workflowFailureOutcomeSchema (outcome.data : Data Number) = some outcome := by
  obtain ⟨⟨code, phase, stage, retryable, staged⟩, dispatchState, referencesIntact, recoveryAction, certain⟩ := outcome
  cases stage <;> exact workflowFailureOutcomeSchema_of rfl rfl (readFields_of rfl rfl rfl rfl) rfl rfl rfl

theorem workflowFailureSchema_outcome (outcome : WorkflowFailureOutcome) :
    workflowFailureSchema (outcome.data : Data Number) = none := rfl

theorem workflowFailureCompatibleSchema_data (compatible : WorkflowFailureCompatible) :
    workflowFailureCompatibleSchema (compatible.data : Data Number) = some compatible := by
  cases compatible with
  | failure failure =>
    simp only [workflowFailureCompatibleSchema, WorkflowFailureCompatible.data, workflowFailureSchema_data]
  | outcome outcome =>
    simp only [workflowFailureCompatibleSchema, WorkflowFailureCompatible.data, workflowFailureSchema_outcome,
      workflowFailureOutcomeSchema_data, Option.map_some]

theorem workflowFailureHistorySchema_data (history : WorkflowFailureHistory) :
    workflowFailureHistorySchema (history.data : Data Number) = some history := by
  obtain ⟨firstCause, consequences, bounded, rooted⟩ := history
  have first : nullable workflowFailureOutcomeSchema
      ((firstCause.map WorkflowFailureOutcome.data).getD .null : Data Number) = some firstCause := by
    cases firstCause with
    | none => rfl
    | some outcome => exact congrArg (Option.map some) (workflowFailureOutcomeSchema_data outcome)
  have rest : atMost 16 workflowFailureOutcomeSchema
      (.array (consequences.map WorkflowFailureOutcome.data) : Data Number) = some consequences :=
    atMost_array workflowFailureOutcomeSchema_data bounded
  have protocol : (List.lookup (prose "protocol" rfl) (WorkflowFailureHistory.members
      ⟨firstCause, consequences, bounded, rooted⟩ : List (Text × Data Number))) = some (.text historyProtocol) := rfl
  have causes : (List.lookup (prose "first_cause" rfl) (WorkflowFailureHistory.members
      ⟨firstCause, consequences, bounded, rooted⟩ : List (Text × Data Number))) =
      some ((firstCause.map WorkflowFailureOutcome.data).getD .null) := rfl
  have others : (List.lookup (prose "consequences" rfl) (WorkflowFailureHistory.members
      ⟨firstCause, consequences, bounded, rooted⟩ : List (Text × Data Number))) =
      some (.array (consequences.map WorkflowFailureOutcome.data)) := rfl
  rw [workflowFailureHistorySchema, WorkflowFailureHistory.data, strict_object rfl]
  simp only [bind, Option.bind_some, protocol, literal_text, causes, first, others, rest]
  exact dif_pos ⟨bounded, rooted⟩

end

section
variable {Number : Type}

theorem WorkflowFailureFields.regular (fields : WorkflowFailureFields) :
    ∀ member ∈ (fields.members : List (Text × Data Number)), member.2.Regular := by
  intro member listed
  rcases mem_append.mp listed with listed | listed
  · rcases mem_append.mp listed with listed | listed
    · rcases mem_pair.mp listed with rfl | rfl
      · exact .text _
      · exact .text _
    · obtain ⟨stage, -, rfl⟩ := mem_map.mp listed
      exact .text _
  · rw [mem_singleton.mp listed]
    exact .boolean _

theorem WorkflowFailure.regular (failure : WorkflowFailure) : (failure.data : Data Number).Regular := by
  obtain ⟨⟨code, phase, stage, retryable, staged⟩, safe⟩ := failure
  refine .object ?_ (WorkflowFailureFields.regular _)
  cases stage <;> exact listed_words rfl rfl

theorem WorkflowFailureOutcome.regular (outcome : WorkflowFailureOutcome) : (outcome.data : Data Number).Regular := by
  refine .object ?_ fun member listed => ?_
  · obtain ⟨⟨code, phase, stage, retryable, staged⟩, dispatchState, referencesIntact, recoveryAction, certain⟩ := outcome
    cases stage <;> exact listed_words rfl rfl
  · rcases mem_append.mp listed with listed | listed
    · rcases mem_cons.mp listed with rfl | listed
      · exact .text _
      · exact WorkflowFailureFields.regular _ member listed
    · simp only [mem_cons, not_mem_nil, or_false] at listed
      rcases listed with rfl | rfl | rfl <;> exact .text _

theorem WorkflowFailureHistory.regular (history : WorkflowFailureHistory) : (history.data : Data Number).Regular := by
  refine .object (listed_words rfl rfl) fun member listed => ?_
  simp only [WorkflowFailureHistory.members, mem_cons, not_mem_nil, or_false] at listed
  rcases listed with rfl | rfl | rfl
  · exact .text _
  · cases history.firstCause with
    | none => exact .null
    | some outcome => exact outcome.regular
  · refine .array fun item listed => ?_
    obtain ⟨outcome, -, rfl⟩ := mem_map.mp listed
    exact outcome.regular

variable (numbers : Numbers)

/-- `JSON.stringify` of the values of this protocol. -/
def WorkflowFailure.json (failure : WorkflowFailure) : Text := stringify numbers failure.data
def WorkflowFailureOutcome.json (outcome : WorkflowFailureOutcome) : Text := stringify numbers outcome.data
def WorkflowFailureHistory.json (history : WorkflowFailureHistory) : Text := stringify numbers history.data

variable {numbers}

theorem WorkflowFailureOutcome.json_injective {first second : WorkflowFailureOutcome}
    (same : first.json numbers = second.json numbers) : first = second := by
  have data := stringify_injective first.regular second.regular same
  have read := @workflowFailureOutcomeSchema_data numbers.Number first
  rw [data, workflowFailureOutcomeSchema_data] at read
  exact (Option.some.inj read).symm

theorem spelled_length {Member : Type} {vocabulary : Vocabulary Member} (name : Text) (member : Member) {bound : Nat}
    (all : vocabulary.members.all (fun member =>
      (Text.jsonString name).length + (Text.jsonString (vocabulary.spelled member)).length < bound) = true) :
    (Text.jsonString name ++ 58 :: write numbers Text.jsonString (.text (vocabulary.spelled member))).length ≤ bound := by
  have short := of_decide_eq_true (all_eq_true.mp all member (vocabulary.complete member))
  rw [write, length_append, length_cons]
  omega

def room (members : List (Text × Data numbers.Number)) : Nat :=
  (members.map fun member => (Text.jsonString member.1 ++ 58 :: write numbers Text.jsonString member.2).length + 1).sum

theorem length_object (members : List (Text × Data numbers.Number)) :
    (stringify numbers (.object members)).length ≤ 2 + room members := by
  have bound := length_enclosed 123 125
    (members.map fun member => Text.jsonString member.1 ++ 58 :: write numbers Text.jsonString member.2)
  rw [stringify, write_object]
  rwa [map_map] at bound

@[simp] theorem room_nil : room ([] : List (Text × Data numbers.Number)) = 0 := rfl

@[simp] theorem room_cons (name : Text) (value : Data numbers.Number) (members : List (Text × Data numbers.Number)) :
    room ((name, value) :: members) =
      (Text.jsonString name ++ 58 :: write numbers Text.jsonString value).length + 1 + room members := rfl

@[simp] theorem room_append (first second : List (Text × Data numbers.Number)) :
    room (first ++ second) = room first + room second := by
  rw [room, map_append, sum_append]
  rfl

theorem WorkflowFailureFields.room_le (fields : WorkflowFailureFields) :
    room (fields.members : List (Text × Data numbers.Number)) ≤ 136 := by
  obtain ⟨code, phase, stage, retryable, staged⟩ := fields
  have codes := @spelled_length numbers _ workflowFailureCodes (prose "code" rfl) code 59 (by decide +kernel)
  have phases := @spelled_length numbers _ workflowFailurePhases (prose "phase" rfl) phase 21 (by decide +kernel)
  have flags : (Text.jsonString (prose "retryable" rfl) ++
      58 :: write numbers Text.jsonString (.boolean retryable)).length ≤ 17 := by
    cases retryable <;> exact Nat.le_of_ble_eq_true rfl
  cases stage with
  | none =>
    have shape : (members ⟨code, phase, none, retryable, staged⟩ : List (Text × Data numbers.Number)) =
        [(prose "code" rfl, .text (workflowFailureCodes.spelled code)),
         (prose "phase" rfl, .text (workflowFailurePhases.spelled phase)),
         (prose "retryable" rfl, .boolean retryable)] := rfl
    rw [shape, room_cons, room_cons, room_cons, room_nil]
    omega
  | some stage =>
    have stages := @spelled_length numbers _ researchWorkflowStages (prose "stage" rfl) stage 35 (by decide +kernel)
    have shape : (members ⟨code, phase, some stage, retryable, staged⟩ : List (Text × Data numbers.Number)) =
        [(prose "code" rfl, .text (workflowFailureCodes.spelled code)),
         (prose "phase" rfl, .text (workflowFailurePhases.spelled phase)),
         (prose "stage" rfl, .text (researchWorkflowStages.spelled stage)),
         (prose "retryable" rfl, .boolean retryable)] := rfl
    rw [shape, room_cons, room_cons, room_cons, room_cons, room_nil]
    omega

theorem WorkflowFailure.length_le (failure : WorkflowFailure) : (failure.json numbers).length ≤ 138 := by
  have bound := @length_object numbers failure.members
  have fields := @WorkflowFailureFields.room_le numbers failure.toWorkflowFailureFields
  unfold WorkflowFailure.json WorkflowFailure.data
  omega

theorem WorkflowFailureOutcome.length_le (outcome : WorkflowFailureOutcome) : (outcome.json numbers).length ≤ 283 := by
  have protocol : (Text.jsonString (prose "protocol" rfl) ++
      58 :: write numbers Text.jsonString (.text outcomeProtocol)).length = 47 := rfl
  have fields := @WorkflowFailureFields.room_le numbers outcome.toWorkflowFailureFields
  have dispatch := @spelled_length numbers _ workflowFailureDispatchStates (prose "dispatch_state" rfl)
    outcome.dispatchState 36 (by decide +kernel)
  have references := @spelled_length numbers _ workflowFailureReferences (prose "references_intact" rfl)
    outcome.referencesIntact 29 (by decide +kernel)
  have recovery := @spelled_length numbers _ workflowFailureRecoveryActions (prose "recovery_action" rfl)
    outcome.recoveryAction 29 (by decide +kernel)
  have shape : (outcome.data : Data numbers.Number) = .object ((prose "protocol" rfl, .text outcomeProtocol) ::
      (outcome.members ++
        [(prose "dispatch_state" rfl, .text (workflowFailureDispatchStates.spelled outcome.dispatchState)),
         (prose "references_intact" rfl, .text (workflowFailureReferences.spelled outcome.referencesIntact)),
         (prose "recovery_action" rfl, .text (workflowFailureRecoveryActions.spelled outcome.recoveryAction))])) := rfl
  rw [json, shape]
  refine Nat.le_trans (length_object _) ?_
  rw [room_cons, room_append, room_cons, room_cons, room_cons, room_nil]
  omega

theorem WorkflowFailureHistory.length_le (history : WorkflowFailureHistory) : (history.json numbers).length ≤ 4910 := by
  have protocol : (Text.jsonString (prose "protocol" rfl) ++
      58 :: write numbers Text.jsonString (.text historyProtocol)).length = 47 := rfl
  have first : (Text.jsonString (prose "first_cause" rfl) ++ 58 :: write numbers Text.jsonString
      ((history.firstCause.map WorkflowFailureOutcome.data).getD .null)).length ≤ 297 := by
    have name : (Text.jsonString (prose "first_cause" rfl)).length = 13 := rfl
    have value : (write numbers Text.jsonString
        ((history.firstCause.map WorkflowFailureOutcome.data).getD .null)).length ≤ 283 := by
      cases history.firstCause with
      | none => exact Nat.le_of_ble_eq_true rfl
      | some outcome => exact outcome.length_le
    rw [length_append, length_cons]
    omega
  have others : (Text.jsonString (prose "consequences" rfl) ++ 58 :: write numbers Text.jsonString
      (.array (history.consequences.map WorkflowFailureOutcome.data))).length ≤ 4561 := by
    have name : (Text.jsonString (prose "consequences" rfl)).length = 14 := rfl
    have short : ∀ part ∈ history.consequences.map fun outcome => outcome.json numbers, part.length ≤ 283 := by
      intro part listed
      obtain ⟨outcome, -, rfl⟩ := mem_map.mp listed
      exact outcome.length_le
    have bound := length_enclosed_le 91 93 short
    rw [length_map] at bound
    have bounded := history.bounded
    rw [length_append, length_cons, write_array, map_map]
    show 14 + ((enclosed 91 93 (history.consequences.map fun outcome => outcome.json numbers)).length + 1) ≤ 4561
    omega
  refine Nat.le_trans (length_object _) ?_
  rw [members, room_cons, room_cons, room_cons, room_nil]
  omega

end

end Workflow
