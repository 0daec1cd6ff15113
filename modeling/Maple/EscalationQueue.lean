import Maple.TransitionRun

/-! The escalation outbox and the ticks that drain it: every database statement and every dispatch
is a step of its own, taken by any tick at any time. -/

namespace Maple.Escalation

def ESCALATIONS_PER_TICK : ℕ := 50
def MAX_ATTEMPTS : ℕ := 3

inductive IssueSeverity
  | critical | high | medium | low
  deriving DecidableEq

inductive EscalationConfidence
  | low | medium | high
  deriving DecidableEq

def EscalationConfidence.rank : EscalationConfidence → ℕ
  | .low => 1
  | .medium => 2
  | .high => 3

inductive EscalationSource
  | ai | manual
  deriving DecidableEq

inductive EscalationStatus
  | queued | sent | skipped | failed
  deriving DecidableEq

inductive AlertSeverity
  | critical | warning
  deriving DecidableEq

def chatSeverityFor : IssueSeverity → AlertSeverity
  | .critical | .high => .critical
  | .medium | .low => .warning

inductive DeliveryStatus
  | delivered | failed | missing | disabled
  deriving DecidableEq

structure NotificationDestinationResult where
  destinationId : ℕ
  status : DeliveryStatus
  error : Option String

structure DispatchResult where
  delivered : ℕ
  failed : ℕ
  destinations : List NotificationDestinationResult

/-- A row of `issue_escalations`; `confidence` is the payload's. -/
structure EscalationRow where
  id : ℕ
  orgId : ℕ
  issueId : ℕ
  severity : IssueSeverity
  source : EscalationSource
  confidence : Option EscalationConfidence
  dedupeKey : String
  status : EscalationStatus
  attempts : ℕ
  error : Option String
  deliveryResults : List NotificationDestinationResult
  createdAt : ℕ
  processedAt : Option ℕ

structure IssueEscalationPolicyRule where
  severity : IssueSeverity
  destinationIds : List ℕ
  minConfidence : Option EscalationConfidence

structure IssueEscalationPolicy where
  enabled : Bool
  rules : List IssueEscalationPolicyRule

structure Issue where
  id : ℕ
  exceptionType : String
  serviceName : String

structure NotificationRequest where
  deliveryKey : ℕ
  ruleName : String
  severity : AlertSeverity
  dedupeKey : String
  issueId : ℕ
  issueSeverity : IssueSeverity
  source : EscalationSource

inductive EscalationPolicyDecision
  | route (destinationIds : List ℕ)
  | skip (skipReason : String)

def belowMinConfidence (source : EscalationSource) (confidence : Option EscalationConfidence)
    (rule : IssueEscalationPolicyRule) : Bool :=
  match source, rule.minConfidence, confidence with
  | .ai, some _, none => true
  | .ai, some least, some confidence => confidence.rank < least.rank
  | _, _, _ => false

def evaluateEscalationPolicy (enabled : Bool) (rules : List IssueEscalationPolicyRule)
    (row : EscalationRow) (enabledDestinationIds : List ℕ) : EscalationPolicyDecision :=
  if !enabled then .skip "policy_disabled"
  else
    match rules.find? (·.severity = row.severity) with
    | none => .skip "no_destinations_for_severity"
    | some rule =>
      if rule.destinationIds = [] then .skip "no_destinations_for_severity"
      else if belowMinConfidence row.source row.confidence rule then .skip "below_min_confidence"
      else if rule.destinationIds.filter (· ∈ enabledDestinationIds) = [] then
        .skip "no_enabled_destinations"
      else .route (rule.destinationIds.filter (· ∈ enabledDestinationIds))

/-- One destination of a dispatch: how its row was found, and whether its delivery succeeded. -/
def dispatchTo (enabled : ℕ → Option Bool) (succeeds : ℕ → Bool) (id : ℕ) :
    NotificationDestinationResult :=
  match enabled id with
  | none => ⟨id, .missing, some "destination_missing"⟩
  | some false => ⟨id, .disabled, some "destination_disabled"⟩
  | some true =>
    if succeeds id then ⟨id, .delivered, none⟩ else ⟨id, .failed, some "delivery_failed"⟩

/-- `lookup` is `none` when the destinations could not be read. -/
def dispatch (lookup : Option (ℕ → Option Bool)) (succeeds : ℕ → Bool) (destinationIds : List ℕ) :
    DispatchResult :=
  if destinationIds = [] then ⟨0, 0, []⟩
  else
    match lookup with
    | none =>
      ⟨0, destinationIds.length,
        destinationIds.map fun id => ⟨id, .failed, some "destination_lookup_failed"⟩⟩
    | some enabled =>
      let results := destinationIds.map (dispatchTo enabled succeeds)
      ⟨(results.filter (·.status = .delivered)).length,
        (results.filter (·.status = .failed)).length, results⟩

/-- How a statement ends: done, done although it reports a failure, or without effect. -/
inductive Statement
  | done | unacknowledged | failed

def Statement.applied : Statement → Bool
  | .failed => false
  | _ => true

def Statement.acknowledged : Statement → Bool
  | .done => true
  | _ => false

def updateWhere (p : EscalationRow → Bool) (f : EscalationRow → EscalationRow)
    (rows : List EscalationRow) : List EscalationRow :=
  rows.map fun row => if p row then f row else row

/-- The `where` of the claim: nobody has raised `attempts` since the row was read. -/
def claimable (row : EscalationRow) (current : EscalationRow) : Bool :=
  current.id = row.id && current.status = .queued && current.attempts = row.attempts

def claimUpdate (row : EscalationRow) (rows : List EscalationRow) : List EscalationRow :=
  updateWhere (claimable row) (fun current => { current with attempts := row.attempts + 1 }) rows

def finalize (row : EscalationRow) (status : EscalationStatus) (timestamp : ℕ)
    (error : Option String) (deliveryResults : Option (List NotificationDestinationResult))
    (rows : List EscalationRow) : List EscalationRow :=
  updateWhere (·.id = row.id)
    (fun current =>
      { current with
        status
        error
        deliveryResults := deliveryResults.getD current.deliveryResults
        processedAt := if status = .queued then current.processedAt else some timestamp })
    rows

/-- Where `processOne` stands after the claim. -/
inductive Stage
  | policy
  | destinations (policy : Option IssueEscalationPolicy)
  | issue (destinationIds : List ℕ)
  | skip (reason : String)
  | flip (destinationIds : List ℕ) (request : NotificationRequest)
  | dispatch (destinationIds : List ℕ) (request : NotificationRequest)
  | dispatching (index : ℕ) (destinationIds : List ℕ)
  | record (result : DispatchResult)
  | settle (result : DispatchResult)

/-- The row is claimed and still queued. -/
def Stage.beforeFlip : Stage → Bool
  | .policy | .destinations _ | .issue _ | .skip _ | .flip _ _ => true
  | _ => false

inductive Outcome
  | contended | skipped | sent | failed | retried

structure Claim where
  row : EscalationRow
  timestamp : ℕ
  stage : Stage

structure Tick where
  pending : List EscalationRow
  current : Option Claim
  policyCache : List (ℕ × Option IssueEscalationPolicy)
  outcomes : List Outcome

namespace Tick

def finish (tick : Tick) (outcome : Outcome) : Tick :=
  { tick with current := none, outcomes := tick.outcomes ++ [outcome] }

def advance (tick : Tick) (claim : Claim) (stage : Stage) : Tick :=
  { tick with current := some { claim with stage } }

/-- A failed statement ends `processOne`, not the tick. -/
def after (tick : Tick) (statement : Statement) (next : Tick) : Tick :=
  if statement.acknowledged then next else tick.finish .failed

def cached (tick : Tick) (orgId : ℕ) : Option (Option IssueEscalationPolicy) :=
  (tick.policyCache.find? (·.1 = orgId)).map Prod.snd

end Tick

def policyRules (policy : Option IssueEscalationPolicy) : List IssueEscalationPolicyRule :=
  (policy.map IssueEscalationPolicy.rules).getD []

/-- After the last read the decision needs. -/
def decided (row : EscalationRow) (policy : Option IssueEscalationPolicy)
    (enabledDestinationIds : List ℕ) : Stage :=
  match evaluateEscalationPolicy ((policy.map IssueEscalationPolicy.enabled).getD false)
      (policyRules policy) row enabledDestinationIds with
  | .skip reason => .skip reason
  | .route ids => .issue ids

/-- With no configured destination there is none to read. -/
def withPolicy (row : EscalationRow) (policy : Option IssueEscalationPolicy) : Stage :=
  if (policyRules policy).flatMap IssueEscalationPolicyRule.destinationIds = [] then
    decided row policy []
  else .destinations policy

def afterClaim (tick : Tick) (row : EscalationRow) : Stage :=
  match tick.cached row.orgId with
  | some policy => withPolicy row policy
  | none => .policy

def notificationRequest (row : EscalationRow) (issue : Issue) : NotificationRequest where
  deliveryKey := row.id
  ruleName := if issue.exceptionType = "" then "Issue escalation" else issue.exceptionType
  severity := chatSeverityFor row.severity
  dedupeKey := row.dedupeKey
  issueId := issue.id
  issueSeverity := row.severity
  source := row.source

/-- What was dispatched; `result` is `none` until the dispatch reports back, if it ever does. -/
structure Dispatch where
  destinationIds : List ℕ
  request : NotificationRequest
  result : Option DispatchResult

/-- The table, the ticks, and each row's dispatches in the order in which they began. -/
structure World where
  escalations : List EscalationRow
  ticks : List Tick
  dispatches : ℕ → List Dispatch

namespace World

def setTick (w : World) (t : ℕ) (tick : Tick) : World := { w with ticks := w.ticks.set t tick }

def execute (w : World) (statement : Statement)
    (f : List EscalationRow → List EscalationRow) : World :=
  if statement.applied then { w with escalations := f w.escalations } else w

def queue (w : World) : List EscalationRow :=
  ((w.escalations.filter (·.status = .queued)).insertionSort
    (fun a b => a.createdAt ≤ b.createdAt)).take ESCALATIONS_PER_TICK

end World

/-- A step of tick `t`, with what its statement or its dispatch came to. -/
inductive Label
  | begin
  | claim (t : ℕ) (now : ℕ) (statement : Statement)
  | readPolicy (t : ℕ) (policy : Option IssueEscalationPolicy) (statement : Statement)
  | readDestinations (t : ℕ) (enabledIds : List ℕ) (statement : Statement)
  | readIssue (t : ℕ) (issue : Option Issue) (statement : Statement)
  | skip (t : ℕ) (statement : Statement)
  | flip (t : ℕ) (statement : Statement)
  | dispatch (t : ℕ)
  | report (t : ℕ) (lookup : Option (ℕ → Option Bool)) (succeeds : ℕ → Bool)
  | defect (t : ℕ)
  | record (t : ℕ) (statement : Statement)
  | settle (t : ℕ) (statement : Statement)
  | die (t : ℕ)

def World.claim (w : World) (t now : ℕ) (statement : Statement) (tick : Tick) : Option World :=
  match tick.current, tick.pending with
  | none, row :: pending =>
    let claimed : Tick :=
      if w.escalations.any (claimable row) then
        { tick with pending, current := some ⟨row, now, afterClaim tick row⟩ }
      else { tick with pending }.finish .contended
    some ((w.execute statement (claimUpdate row)).setTick t
      (Tick.after { tick with pending } statement claimed))
  | _, _ => none

/-- The last update of `processOne`, chosen by what the dispatch reported. -/
def World.settle (w : World) (t : ℕ) (statement : Statement) (tick : Tick) (claim : Claim)
    (result : DispatchResult) : World :=
  if 0 < result.delivered then w.setTick t (tick.finish .sent)
  else if result.failed = 0 then
    (w.execute statement
      (finalize claim.row .skipped claim.timestamp (some "no_enabled_destinations") none)).setTick t
        (tick.after statement (tick.finish .skipped))
  else if MAX_ATTEMPTS ≤ claim.row.attempts + 1 then
    (w.execute statement
      (finalize claim.row .failed claim.timestamp (some "delivery_failed") none)).setTick t
        (tick.after statement (tick.finish .failed))
  else
    (w.execute statement
      (finalize claim.row .queued claim.timestamp (some "delivery_failed_will_retry") none)).setTick
        t (tick.after statement (tick.finish .retried))

/-- A step of a tick that is in the middle of `processOne`. -/
def World.process (w : World) (t : ℕ) (tick : Tick) (claim : Claim) : Label → Option World
  | .readPolicy _ policy statement =>
    match claim.stage with
    | .policy =>
      let loaded := { tick with policyCache := (claim.row.orgId, policy) :: tick.policyCache }
      some (w.setTick t (tick.after statement
        (loaded.advance claim (withPolicy claim.row policy))))
    | _ => none
  | .readDestinations _ enabledIds statement =>
    match claim.stage with
    | .destinations policy =>
      some (w.setTick t (tick.after statement
        (tick.advance claim (decided claim.row policy enabledIds))))
    | _ => none
  | .readIssue _ issue statement =>
    match claim.stage with
    | .issue ids =>
      let next := match issue with
        | none => Stage.skip "issue_missing"
        | some issue => .flip ids (notificationRequest claim.row issue)
      some (w.setTick t (tick.after statement (tick.advance claim next)))
    | _ => none
  | .skip _ statement =>
    match claim.stage with
    | .skip reason =>
      some ((w.execute statement
        (finalize claim.row .skipped claim.timestamp (some reason) none)).setTick t
          (tick.after statement (tick.finish .skipped)))
    | _ => none
  | .flip _ statement =>
    match claim.stage with
    | .flip ids request =>
      some ((w.execute statement
        (finalize claim.row .sent claim.timestamp none none)).setTick t
          (tick.after statement (tick.advance claim (.dispatch ids request))))
    | _ => none
  | .dispatch _ =>
    match claim.stage with
    | .dispatch ids request =>
      let begun := w.dispatches claim.row.id
      some ({ w with
        dispatches := Function.update w.dispatches claim.row.id
          (begun ++ [(⟨ids, request, none⟩ : Dispatch)]) }.setTick t
            (tick.advance claim (.dispatching begun.length ids)))
    | _ => none
  | .report _ lookup succeeds =>
    match claim.stage with
    | .dispatching index ids =>
      let result := Escalation.dispatch lookup succeeds ids
      some ({ w with
        dispatches := Function.update w.dispatches claim.row.id
          ((w.dispatches claim.row.id).modify index fun d => { d with result := some result })
        }.setTick t (tick.advance claim (.record result)))
    | _ => none
  | .defect _ =>
    match claim.stage with
    | .dispatching _ _ => some (w.setTick t (tick.finish .failed))
    | _ => none
  | .record _ statement =>
    match claim.stage with
    | .record result =>
      some ((w.execute statement
        (finalize claim.row .sent claim.timestamp none (some result.destinations))).setTick t
          (tick.after statement (tick.advance claim (.settle result))))
    | _ => none
  | .settle _ statement =>
    match claim.stage with
    | .settle result => some (w.settle t statement tick claim result)
    | _ => none
  | _ => none

def Label.tick : Label → Option ℕ
  | .begin => none
  | .claim t _ _ | .readPolicy t _ _ | .readDestinations t _ _ | .readIssue t _ _ | .skip t _
  | .flip t _ | .dispatch t | .report t _ _ | .defect t | .record t _ | .settle t _ | .die t =>
    some t

/-- `runEscalationTick` begins by reading the queue; a failed read is no tick. -/
def World.begin (w : World) : World :=
  let tick : Tick := ⟨w.queue, none, [], []⟩
  { w with ticks := w.ticks ++ [tick] }

def World.step (w : World) (l : Label) : Option World :=
  match l.tick with
  | none => some w.begin
  | some t =>
    match w.ticks[t]? with
    | none => none
    | some tick =>
      match l, tick.current with
      | .die _, _ => some (w.setTick t { tick with pending := [], current := none })
      | .claim _ now statement, _ => w.claim t now statement tick
      | l, some claim => w.process t tick claim l
      | _, none => none

/-- Some rows with distinct ids, no tick and no dispatch yet. -/
structure World.Initial (w : World) : Prop where
  distinct : (w.escalations.map EscalationRow.id).Nodup
  noTicks : w.ticks = []
  noDispatches : ∀ id, w.dispatches id = []

end Maple.Escalation
