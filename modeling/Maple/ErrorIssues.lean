import Maple.ReadCommittedRules

/-! Error issues: the workflow they move through, and the statements of every call that moves,
claims, renews or releases one. -/

namespace Maple.Errors
open ReadCommitted

abbrev OrgId := String
abbrev ActorId := String
abbrev ErrorIssueId := String

def DEFAULT_LEASE_DURATION_MS : ℤ := 30 * 60000

inductive WorkflowState
  | triage
  | regressed
  | todo
  | in_progress
  | in_review
  | verifying
  | done
  | cancelled
  | wontfix
deriving DecidableEq, Repr

open WorkflowState

def WORKFLOW_TRANSITIONS : WorkflowState → List WorkflowState
  | triage => [todo, in_progress, done, cancelled, wontfix]
  | regressed => [triage, todo, in_progress, done, cancelled, wontfix]
  | todo => [triage, in_progress, done, cancelled, wontfix]
  | in_progress => [triage, todo, in_review, verifying, done, cancelled, wontfix]
  | in_review => [triage, in_progress, verifying, done, cancelled, wontfix]
  | verifying => [triage, todo, in_progress, in_review, done, cancelled, wontfix]
  | done => [triage, regressed, in_progress, verifying, cancelled, wontfix]
  | cancelled => []
  | wontfix => [triage, cancelled]

def MACHINE_OWNED_WORKFLOW_STATES : List WorkflowState := [regressed, verifying]

def CLOSED_WORKFLOW_STATES : List WorkflowState := [done, cancelled]

/-- The states to walk through to `in_review`; empty when it cannot be reached. -/
def fixProposalRoute (fromState : WorkflowState) : List WorkflowState :=
  if fromState = in_review then []
  else if in_review ∈ WORKFLOW_TRANSITIONS fromState then [in_review]
  else if in_progress ∈ WORKFLOW_TRANSITIONS fromState then [in_progress, in_review]
  else []

def canReachInReview (fromState : WorkflowState) : Bool :=
  fromState = in_review ∨ fixProposalRoute fromState ≠ []

def WorkflowState.text : WorkflowState → String
  | triage => "triage"
  | regressed => "regressed"
  | todo => "todo"
  | in_progress => "in_progress"
  | in_review => "in_review"
  | verifying => "verifying"
  | done => "done"
  | cancelled => "cancelled"
  | wontfix => "wontfix"

/-! ### Tables -/

inductive IssueSeverity
  | critical
  | high
  | medium
  | low
deriving DecidableEq, Repr

inductive IssueSeveritySource
  | detector
  | ai
  | manual
deriving DecidableEq, Repr

def IssueSeverity.text : IssueSeverity → String
  | critical => "critical"
  | high => "high"
  | medium => "medium"
  | low => "low"

def IssueSeveritySource.text : IssueSeveritySource → String
  | detector => "detector"
  | ai => "ai"
  | manual => "manual"

structure ErrorIssueRow where
  orgId : OrgId
  id : ErrorIssueId
  workflowState : WorkflowState
  severity : Option IssueSeverity := none
  severitySource : Option IssueSeveritySource := none
  leaseHolderActorId : Option ActorId := none
  leaseExpiresAt : Option ℤ := none
  claimedAt : Option ℤ := none
  resolvedAt : Option ℤ := none
  resolvedByActorId : Option ActorId := none
  lastResolvedAt : Option ℤ := none
  seenVersionsJson : List String := []
  resolvedVersionsJson : List String := []
  snoozeUntil : Option ℤ := none
  updatedAt : ℤ
deriving DecidableEq, Repr

inductive ErrorIncidentStatus
  | open
  | resolved
deriving DecidableEq, Repr

structure ErrorIncidentRow where
  orgId : OrgId
  id : String
  issueId : ErrorIssueId
  status : ErrorIncidentStatus
  resolvedAt : Option ℤ := none
  updatedAt : ℤ
deriving DecidableEq, Repr

structure ErrorIssueStateRow where
  orgId : OrgId
  issueId : ErrorIssueId
  openIncidentId : Option String := none
  updatedAt : ℤ
deriving DecidableEq, Repr

inductive ErrorIssueEventType
  | state_change
  | claim
  | release
  | lease_expired
  | comment
  | agent_note
  | fix_proposed
  | severity_change
deriving DecidableEq, Repr

abbrev StoredJsonRecord := List (String × String)

structure ErrorIssueEventRow where
  id : ℕ
  orgId : OrgId
  issueId : ErrorIssueId
  actorId : Option ActorId
  type : ErrorIssueEventType
  fromState : Option WorkflowState
  toState : Option WorkflowState
  payloadJson : StoredJsonRecord
  createdAt : ℤ
deriving DecidableEq, Repr

/-- A row of one of the four tables. -/
inductive Row
  | issue (r : ErrorIssueRow)
  | incident (r : ErrorIncidentRow)
  | issueState (r : ErrorIssueStateRow)
  | event (r : ErrorIssueEventRow)
deriving DecidableEq, Repr

/-- What an update does to a lease: for whom, or for the sweep. -/
inductive LeaseWrite
  | acquire (actorId : ActorId)
  | renew (actorId : ActorId)
  | release (actorId : ActorId)
  | expire
deriving DecidableEq, Repr

inductive ErrorsError
  | issueNotFound (message : String)
  | transition (message : String) (fromState toState : WorkflowState)
  | leaseConflict (message : String) (currentHolderActorId : Option ActorId)
      (leaseExpiresAt : Option ℤ)
  | validation (message : String) (details : List String)
  | pullRequestInvalid (message rawUrl : String)
deriving DecidableEq, Repr

abbrev Statements (A : Type) := Program Row Empty LeaseWrite A
abbrev Effect (A : Type) := ExceptT ErrorsError (Program Row Empty LeaseWrite) A
/-! ### Statements -/

def selectIssues (p : ErrorIssueRow → Bool) : Statements (List ErrorIssueRow) :=
  .select (fun | .issue r => p r | _ => false) fun rows =>
    .done (rows.filterMap fun | .issue r => some r | _ => none)

/-- The write of an update, from the rows it matches to what it sets. -/
def setIssue (f : ErrorIssueRow → Option ErrorIssueRow) : Row → Option (Option Row)
  | .issue r => (f r).map fun r' => some (.issue r')
  | _ => none

def setIncident (f : ErrorIncidentRow → Option ErrorIncidentRow) : Row → Option (Option Row)
  | .incident r => (f r).map fun r' => some (.incident r')
  | _ => none

def setIssueState (f : ErrorIssueStateRow → Option ErrorIssueStateRow) :
    Row → Option (Option Row)
  | .issueState r => (f r).map fun r' => some (.issueState r')
  | _ => none

def updateRows (write : Row → Option (Option Row)) (lease : Option LeaseWrite := none) :
    Statements (List Row) := .update lease write .done

/-- The transaction's statements follow. -/
def beginTransaction : Statements Unit := .begin (.done ())

def commitTransaction : Statements Unit := .commit [] (.done ())

/-- An update outside a transaction. -/
def executeUpdate (write : Row → Option (Option Row)) (lease : Option LeaseWrite := none) :
    Statements (List Row) := do
  let rows ← updateRows write lease
  commitTransaction
  pure rows

def currentTimeMillis : Statements ℤ := .clock .done

def insertEvent (row : ErrorIssueEventRow) : Statements Unit := .insert (.event row) (.done ())

def newEventId : Statements ℕ := .draw .done

def issueRows (rows : List Row) : List ErrorIssueRow :=
  rows.filterMap fun | .issue r => some r | _ => none

def requireIssue (orgId : OrgId) (issueId : ErrorIssueId) : Effect ErrorIssueRow := do
  let rows ← selectIssues fun r => r.orgId = orgId ∧ r.id = issueId
  match rows.head? with
  | none => throw (.issueNotFound "Error issue not found")
  | some row => pure row

structure EventOptions where
  fromState : Option WorkflowState := none
  toState : Option WorkflowState := none
  payload : StoredJsonRecord := []

def buildEventInsert (id : ℕ) (orgId : OrgId) (issueId : ErrorIssueId) (actorId : Option ActorId)
    (type : ErrorIssueEventType) (timestamp : ℤ) (opts : EventOptions) : ErrorIssueEventRow where
  id := id
  orgId := orgId
  issueId := issueId
  actorId := actorId
  type := type
  fromState := opts.fromState
  toState := opts.toState
  payloadJson := opts.payload
  createdAt := timestamp

def recordEvent (orgId : OrgId) (issueId : ErrorIssueId) (actorId : Option ActorId)
    (type : ErrorIssueEventType) (timestamp : ℤ) (opts : EventOptions := {}) : Effect Unit := do
  let id ← newEventId
  insertEvent (buildEventInsert id orgId issueId actorId type timestamp opts)
  commitTransaction

/-! ### Transitions -/

def validateTransition (fromState toState : WorkflowState) : Except ErrorsError Unit :=
  if toState ∉ WORKFLOW_TRANSITIONS fromState then
    let offered := (WORKFLOW_TRANSITIONS fromState).filter fun target =>
      target ∉ MACHINE_OWNED_WORKFLOW_STATES
    let message :=
      if offered = [] then "Cannot move an issue out of '" ++ fromState.text ++ "'."
      else
        "Cannot move an issue from '" ++ fromState.text ++ "' to '" ++ toState.text ++ "'. From '" ++
          fromState.text ++ "' it can go to: " ++ ", ".intercalate (offered.map (·.text)) ++ "."
    .error (.transition message fromState toState)
  else .ok ()

structure TransitionOptions where
  note : Option String := none
  snoozeUntilMs : Option (Option ℤ) := none
  payload : StoredJsonRecord := []

/-- Whether a transition of `row` renews the lease: its holder has just proved to be at work. -/
def refreshesLease (actorId : Option ActorId) (row : ErrorIssueRow) : Prop :=
  actorId ≠ none ∧ row.leaseHolderActorId = actorId

instance (actorId : Option ActorId) (row : ErrorIssueRow) :
    Decidable (refreshesLease actorId row) := inferInstanceAs (Decidable (_ ∧ _))

/-- The length of the lease the holder asked for, from `timestamp` on. -/
def renewedExpiry (row : ErrorIssueRow) (timestamp : ℤ) : ℤ :=
  let previous := row.leaseExpiresAt.getD timestamp
  timestamp + max DEFAULT_LEASE_DURATION_MS (previous - row.claimedAt.getD previous)

/-- The update of `applyTransition`, decided from `row` and applied to `current`. -/
def transitioned (actorId : Option ActorId) (row : ErrorIssueRow) (toState : WorkflowState)
    (snoozeUntilMs : Option (Option ℤ)) (timestamp : ℤ) (current : ErrorIssueRow) :
    ErrorIssueRow :=
  let current := { current with workflowState := toState, updatedAt := timestamp }
  let current :=
    if toState = done then
      { current with
        resolvedAt := some timestamp
        resolvedByActorId := actorId
        lastResolvedAt := some timestamp
        resolvedVersionsJson := row.seenVersionsJson }
    else if row.workflowState = done then
      { current with resolvedAt := none, resolvedByActorId := none }
    else current
  let current :=
    if toState = wontfix then
      match snoozeUntilMs with
      | some snoozeUntil => { current with snoozeUntil }
      | none => current
    else if row.workflowState = wontfix then { current with snoozeUntil := none }
    else current
  if toState ∈ CLOSED_WORKFLOW_STATES then
    { current with leaseHolderActorId := none, leaseExpiresAt := none, claimedAt := none }
  else if refreshesLease actorId row then
    { current with leaseExpiresAt := some (renewedExpiry row timestamp) }
  else current

/-- The lease a transition of `row` renews. -/
def transitionLease (actorId : Option ActorId) (row : ErrorIssueRow) (toState : WorkflowState) :
    Option LeaseWrite :=
  if toState ∉ CLOSED_WORKFLOW_STATES ∧ refreshesLease actorId row then
    actorId.map LeaseWrite.renew
  else none

/-- Resolve what is open of an issue that is done. -/
def resolveIncidents (orgId : OrgId) (issueId : ErrorIssueId) (timestamp : ℤ) :
    Statements Unit := do
  let _ ← updateRows (setIncident fun r =>
    if r.orgId = orgId ∧ r.issueId = issueId ∧ r.status = .open then
      some { r with status := .resolved, resolvedAt := some timestamp, updatedAt := timestamp }
    else none)
  let _ ← updateRows (setIssueState fun r =>
    if r.orgId = orgId ∧ r.issueId = issueId then
      some { r with openIncidentId := none, updatedAt := timestamp }
    else none)
  pure ()

def applyTransition (orgId : OrgId) (actorId : Option ActorId) (row : ErrorIssueRow)
    (toState : WorkflowState) (timestamp : ℤ) (opts : TransitionOptions := {}) :
    Effect ErrorIssueRow := do
  let fromState := row.workflowState
  if fromState = toState then
    return row
  (validateTransition fromState toState : Except ErrorsError Unit)
  let payload := opts.payload ++ (opts.note.map fun note => ("note", note)).toList
  let id ← newEventId
  let event := buildEventInsert id orgId row.id actorId .state_change timestamp
    { fromState := some fromState, toState := some toState, payload }
  beginTransaction
  let _ ← updateRows (setIssue fun r =>
    if r.orgId = orgId ∧ r.id = row.id then
      some (transitioned actorId row toState opts.snoozeUntilMs timestamp r)
    else none) (transitionLease actorId row toState)
  if toState = done then
    resolveIncidents orgId row.id timestamp
  insertEvent event
  commitTransaction
  requireIssue orgId row.id

/-! ### Leases -/

def leaseConflict (row : Option ErrorIssueRow) : ErrorsError :=
  .leaseConflict "Issue is held by another actor" (row.bind (·.leaseHolderActorId))
    (row.bind (·.leaseExpiresAt))

/-- Take or renew the lease on an issue; the source's one update for it. -/
def acquireLease (orgId : OrgId) (actorId : ActorId) (issueId : ErrorIssueId)
    (leaseMs timestamp : ℤ) : Effect (ErrorIssueRow × ℤ) := do
  let leaseExpiresAt := timestamp + leaseMs
  let claimed ← executeUpdate (setIssue fun r =>
    if r.orgId = orgId ∧ r.id = issueId ∧ (r.leaseHolderActorId = none ∨
        r.leaseHolderActorId = some actorId ∨ ∃ e ∈ r.leaseExpiresAt, e < timestamp) then
      some { r with
        leaseHolderActorId := some actorId
        leaseExpiresAt := some leaseExpiresAt
        claimedAt := some timestamp
        updatedAt := timestamp }
    else none) (some (.acquire actorId))
  match (issueRows claimed).head? with
  | none =>
    let latestRows ← selectIssues fun r => r.orgId = orgId ∧ r.id = issueId
    throw (leaseConflict latestRows.head?)
  | some row => pure (row, leaseExpiresAt)

def claimIssue (orgId : OrgId) (actorId : ActorId) (issueId : ErrorIssueId)
    (leaseDurationMs : Option ℤ) : Effect ErrorIssueRow := do
  let timestamp ← currentTimeMillis
  let leaseMs := leaseDurationMs.getD DEFAULT_LEASE_DURATION_MS
  let current ← requireIssue orgId issueId
  if current.workflowState ∈ CLOSED_WORKFLOW_STATES then
    throw (.transition ("Cannot claim an issue in state '" ++ current.workflowState.text ++ "'")
      current.workflowState in_progress)
  let (row, leaseExpiresAt) ← acquireLease orgId actorId issueId leaseMs timestamp
  if row.workflowState = triage ∨ row.workflowState = regressed ∨ row.workflowState = todo then
    applyTransition orgId (some actorId) row in_progress timestamp
      { payload := [("viaClaim", "true")] }
  else
    let renewed : Bool := current.leaseHolderActorId = some actorId
    recordEvent orgId issueId (some actorId) .claim timestamp
      { payload := [("leaseExpiresAt", toString leaseExpiresAt),
          ("leaseDurationMs", toString leaseMs), ("renewed", toString renewed)] }
    pure row

structure FixRequest where
  patchSummary : String
  prUrl : Option String := none
  artifacts : Option (List String) := none

/-- Walk the route of a fix proposal. -/
def walkRoute (orgId : OrgId) (actorId : ActorId) (timestamp : ℤ) :
    ErrorIssueRow → List WorkflowState → Effect ErrorIssueRow
  | row, [] => pure row
  | row, hop :: route => do
    let next ← applyTransition orgId (some actorId) row hop timestamp
      { payload := [("viaProposeFix", "true")] }
    walkRoute orgId actorId timestamp next route

/-- What `proposeFix` refuses before it writes; `isPullRequestUrl` is `parsePullRequestUrl` not
returning null. -/
def refuseFix (isPullRequestUrl : String → Bool) (current : ErrorIssueRow) (request : FixRequest) :
    Except ErrorsError Unit :=
  if current.workflowState ∈ CLOSED_WORKFLOW_STATES then
    .error (.transition ("Issue is '" ++ current.workflowState.text ++
      "' and takes no more fixes. Reopen it first with transition_error_issue if this fix is " ++
      "still needed.") current.workflowState in_review)
  else if !canReachInReview current.workflowState then
    .error (.transition ("An issue in '" ++ current.workflowState.text ++
      "' cannot go under review. Move it to 'triage' first with transition_error_issue.")
      current.workflowState in_review)
  else
    match request.prUrl with
    | none => .ok ()
    | some prUrl =>
      if isPullRequestUrl prUrl then .ok ()
      else
        .error (.pullRequestInvalid ("Not a recognizable GitHub pull request URL. Omit pr_url " ++
          "to record the fix without one.") prUrl)

def proposeFix (isPullRequestUrl : String → Bool) (orgId : OrgId) (actorId : ActorId)
    (issueId : ErrorIssueId) (request : FixRequest) : Effect ErrorIssueRow := do
  let timestamp ← currentTimeMillis
  let current ← requireIssue orgId issueId
  refuseFix isPullRequestUrl current request
  let (row, leaseExpiresAt) ←
    acquireLease orgId actorId issueId DEFAULT_LEASE_DURATION_MS timestamp
  if row.leaseHolderActorId ≠ current.leaseHolderActorId then
    recordEvent orgId issueId (some actorId) .claim timestamp
      { payload := [("leaseExpiresAt", toString leaseExpiresAt),
          ("leaseDurationMs", toString DEFAULT_LEASE_DURATION_MS), ("viaProposeFix", "true")] }
  recordEvent orgId issueId (some actorId) .fix_proposed timestamp
    { payload := [("patchSummary", request.patchSummary)] ++
        (request.prUrl.map fun prUrl => ("prUrl", prUrl)).toList ++
        (request.artifacts.map fun artifacts => ("artifacts", toString artifacts)).toList }
  walkRoute orgId actorId timestamp row (fixProposalRoute row.workflowState)

/-- A requested `snoozeUntil`: none, cleared, or a text with what it parses to. -/
inductive Snooze
  | absent
  | cleared
  | text (value : String) (parsed : Option ℤ)

def Snooze.parse : Snooze → Except ErrorsError (Option (Option ℤ))
  | .absent => .ok none
  | .cleared => .ok (some none)
  | .text _ (some parsed) => .ok (some (some parsed))
  | .text value none => .error (.validation "Invalid snoozeUntil timestamp" [value])

/-- Moving an issue to `in_progress` claims it, unless somebody else holds it. -/
def claimOnTransition (orgId : OrgId) (actorId : ActorId) (current : ErrorIssueRow)
    (timestamp : ℤ) : Effect Unit :=
  tryCatch
    (do
      let (_, leaseExpiresAt) ←
        acquireLease orgId actorId current.id DEFAULT_LEASE_DURATION_MS timestamp
      if current.leaseHolderActorId ≠ some actorId then
        recordEvent orgId current.id (some actorId) .claim timestamp
          { payload := [("leaseExpiresAt", toString leaseExpiresAt),
              ("leaseDurationMs", toString DEFAULT_LEASE_DURATION_MS),
              ("viaTransition", "true")] })
    fun
      | .leaseConflict _ _ _ => pure ()
      | error => throw error

def transitionIssue (orgId : OrgId) (actorId : ActorId) (issueId : ErrorIssueId)
    (toState : WorkflowState) (note : Option String) (snoozeUntil : Snooze) :
    Effect ErrorIssueRow := do
  let timestamp ← currentTimeMillis
  let current ← requireIssue orgId issueId
  let snoozeUntilMs ← snoozeUntil.parse
  if toState = in_progress then
    claimOnTransition orgId actorId current timestamp
  applyTransition orgId (some actorId) current toState timestamp { note, snoozeUntilMs }

def heartbeatIssue (orgId : OrgId) (actorId : ActorId) (issueId : ErrorIssueId) :
    Effect ErrorIssueRow := do
  let timestamp ← currentTimeMillis
  let current ← requireIssue orgId issueId
  if current.leaseHolderActorId ≠ some actorId then
    throw (leaseConflict (some current))
  let leaseExpiresAt := renewedExpiry current timestamp
  let _ ← executeUpdate (setIssue fun r =>
    if r.orgId = orgId ∧ r.id = issueId ∧ r.leaseHolderActorId = some actorId then
      some { r with leaseExpiresAt := some leaseExpiresAt, updatedAt := timestamp }
    else none) (some (.renew actorId))
  requireIssue orgId issueId

def refreshLeaseIfHolder (orgId : OrgId) (actorId : ActorId) (issueId : ErrorIssueId)
    (current : ErrorIssueRow) (timestamp : ℤ) : Effect Unit := do
  if current.leaseHolderActorId ≠ some actorId then
    return ()
  let _ ← executeUpdate (setIssue fun r =>
    if r.orgId = orgId ∧ r.id = issueId ∧ r.leaseHolderActorId = some actorId then
      some { r with leaseExpiresAt := some (renewedExpiry current timestamp) }
    else none) (some (.renew actorId))

def releaseTarget (transitionTo : Option WorkflowState) (current : ErrorIssueRow) : WorkflowState :=
  transitionTo.getD (if current.workflowState = in_progress then todo else current.workflowState)

def releaseIssue (orgId : OrgId) (actorId : ActorId) (issueId : ErrorIssueId)
    (transitionTo : Option WorkflowState) (note : Option String) : Effect ErrorIssueRow := do
  let timestamp ← currentTimeMillis
  let current ← requireIssue orgId issueId
  if current.leaseHolderActorId ≠ none ∧ current.leaseHolderActorId ≠ some actorId then
    throw (leaseConflict (some current))
  let _ ← executeUpdate (setIssue fun r =>
    if r.orgId = orgId ∧ r.id = issueId then
      some { r with
        leaseHolderActorId := none
        leaseExpiresAt := none
        claimedAt := none
        updatedAt := timestamp }
    else none) (some (.release actorId))
  recordEvent orgId issueId (some actorId) .release timestamp
    { payload := (note.map fun note => ("note", note)).toList }
  let target := releaseTarget transitionTo current
  let next ← requireIssue orgId issueId
  if target ≠ next.workflowState then
    applyTransition orgId (some actorId) next target timestamp
      { payload := [("viaRelease", "true")] }
  else
    pure next

def setSeverity (orgId : OrgId) (actorId : ActorId) (issueId : ErrorIssueId)
    (severity : Option IssueSeverity) (source : IssueSeveritySource) (note : Option String) :
    Effect ErrorIssueRow := do
  let timestamp ← currentTimeMillis
  let current ← requireIssue orgId issueId
  if source = .ai ∧ current.severitySource = some .manual then
    return current
  refreshLeaseIfHolder orgId actorId issueId current timestamp
  let nextSource := severity.map fun _ => source
  if current.severity = severity ∧ current.severitySource = nextSource then
    return current
  let id ← newEventId
  beginTransaction
  let _ ← updateRows (setIssue fun r =>
    if r.orgId = orgId ∧ r.id = issueId then
      some { r with severity, severitySource := nextSource, updatedAt := timestamp }
    else none)
  if current.severity ≠ severity then
    let text (severity : Option IssueSeverity) := (severity.map (·.text)).getD "null"
    insertEvent (buildEventInsert id orgId issueId (some actorId) .severity_change timestamp
      { payload := [("from", text current.severity), ("to", text severity),
          ("source", source.text)] ++ (note.map fun note => ("note", note)).toList })
  commitTransaction
  requireIssue orgId issueId

inductive CommentKind
  | comment
  | agent_note
deriving DecidableEq

def commentOnIssue (orgId : OrgId) (actorId : ActorId) (issueId : ErrorIssueId) (body : String)
    (kind : CommentKind) (visibility : Option String) : Effect ErrorIssueEventRow := do
  let timestamp ← currentTimeMillis
  let current ← requireIssue orgId issueId
  refreshLeaseIfHolder orgId actorId issueId current timestamp
  let type : ErrorIssueEventType := if kind = .agent_note then .agent_note else .comment
  let id ← newEventId
  let row := buildEventInsert id orgId issueId (some actorId) type timestamp
    { payload := [("body", body), ("visibility", visibility.getD "internal")] }
  insertEvent row
  commitTransaction
  pure row

/-! ### The tick's lease expiry -/

/-- One expired lease of the tick's preamble; the update names the issue only. -/
def expireLease (orgId : OrgId) (nowMs : ℤ) (systemActorId : ActorId) (row : ErrorIssueRow) :
    Effect Unit := do
  let _ ← executeUpdate (setIssue fun r =>
    if r.id = row.id then
      some { r with
        leaseHolderActorId := none
        leaseExpiresAt := none
        claimedAt := none
        updatedAt := nowMs }
    else none) (some .expire)
  recordEvent orgId row.id (some systemActorId) .lease_expired nowMs
    { payload := [("previousHolderActorId", row.leaseHolderActorId.getD "null")] }
  if row.workflowState = in_progress then
    let refreshed ← requireIssue orgId row.id
    let _ ← applyTransition orgId (some systemActorId) refreshed todo nowMs
      { payload := [("viaLeaseExpiry", "true")] }

def expireEach (orgId : OrgId) (nowMs : ℤ) (systemActorId : ActorId) :
    List ErrorIssueRow → Effect Unit
  | [] => pure ()
  | row :: expired => do
    expireLease orgId nowMs systemActorId row
    expireEach orgId nowMs systemActorId expired

/-- The tick's read of expired leases, and their expiry. -/
def expireLeasesForOrg (orgId : OrgId) (systemActorId : ActorId) : Effect Unit := do
  let nowMs ← currentTimeMillis
  let expired ← selectIssues fun r => r.orgId = orgId ∧ ∃ e ∈ r.leaseExpiresAt, e < nowMs
  expireEach orgId nowMs systemActorId expired

/-! ### Calls -/

inductive Call
  | transitionIssue (orgId : OrgId) (actorId : ActorId) (issueId : ErrorIssueId)
      (toState : WorkflowState) (note : Option String) (snoozeUntil : Snooze)
  | claimIssue (orgId : OrgId) (actorId : ActorId) (issueId : ErrorIssueId)
      (leaseDurationMs : Option ℤ)
  | proposeFix (orgId : OrgId) (actorId : ActorId) (issueId : ErrorIssueId) (request : FixRequest)
  | heartbeatIssue (orgId : OrgId) (actorId : ActorId) (issueId : ErrorIssueId)
  | releaseIssue (orgId : OrgId) (actorId : ActorId) (issueId : ErrorIssueId)
      (transitionTo : Option WorkflowState) (note : Option String)
  | setSeverity (orgId : OrgId) (actorId : ActorId) (issueId : ErrorIssueId)
      (severity : Option IssueSeverity) (source : IssueSeveritySource) (note : Option String)
  | commentOnIssue (orgId : OrgId) (actorId : ActorId) (issueId : ErrorIssueId) (body : String)
      (kind : CommentKind) (visibility : Option String)
  | expireLeases (orgId : OrgId) (systemActorId : ActorId)

def serve (isPullRequestUrl : String → Bool) : Call → Effect Unit
  | .transitionIssue orgId actorId issueId toState note snoozeUntil =>
      discard (transitionIssue orgId actorId issueId toState note snoozeUntil)
  | .claimIssue orgId actorId issueId leaseDurationMs =>
      discard (claimIssue orgId actorId issueId leaseDurationMs)
  | .proposeFix orgId actorId issueId request =>
      discard (proposeFix isPullRequestUrl orgId actorId issueId request)
  | .heartbeatIssue orgId actorId issueId => discard (heartbeatIssue orgId actorId issueId)
  | .releaseIssue orgId actorId issueId transitionTo note =>
      discard (releaseIssue orgId actorId issueId transitionTo note)
  | .setSeverity orgId actorId issueId severity source note =>
      discard (setSeverity orgId actorId issueId severity source note)
  | .commentOnIssue orgId actorId issueId body kind visibility =>
      discard (commentOnIssue orgId actorId issueId body kind visibility)
  | .expireLeases orgId systemActorId => expireLeasesForOrg orgId systemActorId

end Maple.Errors
