import Maple.IngestRedactor
import Maple.RetainMut
import Mathlib.Logic.Function.Basic

/-! The gateway's pass over an export request: which records the rules drop, what they redact and
which containers are left. -/

namespace Maple.IngestGateway
open RetainMut

/-! ### One record -/

/-- The parts of a surviving record redact rules may change. -/
structure RecordTargets where
  attributes : List KeyValue
  events : List Event
  exemplars : List Exemplar
  body : Option AnyValue
  statusMessage : Option String

/-- One call's scratch space. -/
structure Pass where
  /-- Rules the current record matched, as received. -/
  matched : ℕ → Bool
  /-- Resource-scoped redact rules a surviving record of the current resource matched. -/
  resourceHits : ℕ → Bool
  /-- The state of the thread's generator. -/
  sampleState : UInt64

def Pass.new (sampleState : UInt64) : Pass := ⟨fun _ => false, fun _ => false, sampleState⟩

/-- The state of the loop that evaluates a record. -/
structure Evaluation where
  matched : ℕ → Bool
  anyRedact : Bool
  droppedBy : Option ℕ
  bucket : Option ℕ
  sampleState : UInt64

section Rules
variable (lib : Libraries) (compiled : CompiledRules)

/-- The record's bucket, drawn once and kept for the rules that follow. -/
def Evaluation.sampled (view : RecordView) (e : Evaluation) : ℕ × Evaluation :=
  match e.bucket with
  | some bucket => (bucket, e)
  | none =>
    let (bucket, sampleState) := sampleBucket lib view.traceId e.sampleState
    (bucket, { e with bucket := some bucket, sampleState })

/-- A matching drop rule; one that keeps nothing or everything draws no bucket. -/
def Evaluation.drop (signal : BitVec 8) (view : RecordView) (index : ℕ) (keepPercent : UInt8)
    (e : Evaluation) : Evaluation :=
  if e.droppedBy.isSome then e
  else
    let keepPercent := if signal = SIGNAL_METRICS then 0 else keepPercent
    if 100 ≤ keepPercent then e
    else if keepPercent = 0 then { e with droppedBy := some index }
    else
      let (bucket, e) := e.sampled lib view
      if bucket < keepPercent.toNat then e else { e with droppedBy := some index }

/-- One rule of the loop that evaluates a record. -/
def Evaluation.next (signal : BitVec 8) (view : RecordView) (index : ℕ) (rule : CompiledRule)
    (e : Evaluation) : Evaluation :=
  let hit := rule.matches lib signal view
  let e := { e with matched := Function.update e.matched index hit }
  if !hit then e
  else
    match rule.action with
    | .redact _ => { e with anyRedact := true }
    | .drop keepPercent => e.drop lib signal view index keepPercent

def evaluateFrom (signal : BitVec 8) (view : RecordView) : ℕ → List CompiledRule → Evaluation →
    Evaluation
  | _, [], e => e
  | index, rule :: rules, e =>
    evaluateFrom signal view (index + 1) rules (e.next lib signal view index rule)

/-- Records which rules match and decides the drop; returns (keep, any redact rule matched). -/
def Pass.evaluate (signal : BitVec 8) (view : RecordView) (pass : Pass) : (Bool × Bool) × Pass :=
  let e := evaluateFrom lib signal view 0 compiled.rules
    ⟨pass.matched, false, none, none, pass.sampleState⟩
  let pass := { pass with matched := e.matched, sampleState := e.sampleState }
  if e.droppedBy.isSome then ((false, false), pass) else ((true, e.anyRedact), pass)

/-- What one redact rule does to a record. -/
def redactTargets (redaction : Redaction) (targets : RecordTargets) : RecordTargets :=
  let redact := redactAttributes lib compiled.hashSalt redaction
  let targets :=
    if redaction.scopes &&& SCOPE_ATTRIBUTES ≠ 0 then
      { targets with
        attributes := redact targets.attributes
        exemplars := targets.exemplars.map fun exemplar =>
          { exemplar with filteredAttributes := redact exemplar.filteredAttributes }
        statusMessage := targets.statusMessage.map (scanString lib compiled.hashSalt redaction) }
    else targets
  let targets :=
    if redaction.scopes &&& SCOPE_EVENTS ≠ 0 then
      { targets with
        events := targets.events.map fun event =>
          { event with attributes := redact event.attributes } }
    else targets
  if redaction.scopes &&& SCOPE_BODY ≠ 0 then
    { targets with body := targets.body.map (redactValue lib compiled.hashSalt redaction) }
  else targets

def redactFrom (matched : ℕ → Bool) : ℕ → List CompiledRule → RecordTargets × (ℕ → Bool) →
    RecordTargets × (ℕ → Bool)
  | _, [], state => state
  | index, rule :: rules, (targets, hits) =>
    redactFrom matched (index + 1) rules <|
      match rule.action with
      | .drop _ => (targets, hits)
      | .redact redaction =>
        if !matched index then (targets, hits)
        else
          (redactTargets lib compiled redaction targets,
            if redaction.scopes &&& SCOPE_RESOURCE ≠ 0 then Function.update hits index true
            else hits)

/-- Applies the matched redact rules in order to a surviving record. -/
def Pass.redactRecord (targets : RecordTargets) (pass : Pass) : RecordTargets × Pass :=
  let (targets, hits) :=
    redactFrom lib compiled pass.matched 0 compiled.rules (targets, pass.resourceHits)
  (targets, { pass with resourceHits := hits })

def finishFrom : ℕ → List CompiledRule → Option (List KeyValue) × (ℕ → Bool) →
    Option (List KeyValue) × (ℕ → Bool)
  | _, [], state => state
  | index, rule :: rules, (resource, hits) =>
    finishFrom (index + 1) rules <|
      if !hits index then (resource, hits)
      else
        let hits := Function.update hits index false
        match rule.action, resource with
        | .redact redaction, some attributes =>
          (some (redactAttributes lib compiled.hashSalt redaction attributes), hits)
        | _, _ => (resource, hits)

/-- Redacts the resource once all its records were evaluated. -/
def Pass.finishResource (resource : Option (List KeyValue)) (pass : Pass) :
    Option (List KeyValue) × Pass :=
  let (resource, hits) := finishFrom lib compiled 0 compiled.rules (resource, pass.resourceHits)
  (resource, { pass with resourceHits := hits })

end Rules

/-! ### The kinds of record -/

/-- What a kind of record shows a condition and what of it redact rules may change. -/
structure RecordKind (ρ : Type) where
  signal : BitVec 8
  traceId : ρ → List UInt8
  view : List KeyValue → ρ → RecordView
  view_traceId : ∀ resource record, (view resource record).traceId = traceId record
  targets : ρ → RecordTargets
  /-- The record with its targets changed. -/
  withTargets : ρ → RecordTargets → ρ

def spanKind : RecordKind Span where
  signal := SIGNAL_TRACES
  traceId := Span.traceId
  view resource span := {
    resource
    attributes := span.attributes
    name := some span.name
    body := none
    severity := none
    spanKind := spanKindName span.kind
    spanStatus := spanStatusName span
    traceId := span.traceId }
  view_traceId _ _ := rfl
  targets span := ⟨span.attributes, span.events, [], none, span.status.map Status.message⟩
  withTargets span targets := { span with
    attributes := targets.attributes
    events := targets.events
    status := span.status.map fun status =>
      { status with message := targets.statusMessage.getD status.message } }

def logKind : RecordKind LogRecord where
  signal := SIGNAL_LOGS
  traceId := LogRecord.traceId
  view resource record := {
    resource
    attributes := record.attributes
    name := none
    body := record.body
    severity := logSeverity record
    spanKind := none
    spanStatus := none
    traceId := record.traceId }
  view_traceId _ _ := rfl
  targets record := ⟨record.attributes, [], [], record.body, none⟩
  withTargets record targets := { record with
    attributes := targets.attributes
    body := targets.body }

/-- A data point: number, histogram and exponential histogram points have exemplars. -/
structure DataPoint where
  attributes : List KeyValue
  exemplars : List Exemplar
  rest : List UInt8

structure SummaryDataPoint where
  attributes : List KeyValue
  rest : List UInt8

def pointView (name : String) (resource attributes : List KeyValue) : RecordView where
  resource := resource
  attributes := attributes
  name := some name
  body := none
  severity := none
  spanKind := none
  spanStatus := none
  traceId := []

def pointKind (name : String) : RecordKind DataPoint where
  signal := SIGNAL_METRICS
  traceId _ := []
  view resource point := pointView name resource point.attributes
  view_traceId _ _ := rfl
  targets point := ⟨point.attributes, [], point.exemplars, none, none⟩
  withTargets point targets := { point with
    attributes := targets.attributes
    exemplars := targets.exemplars }

def summaryPointKind (name : String) : RecordKind SummaryDataPoint where
  signal := SIGNAL_METRICS
  traceId _ := []
  view resource point := pointView name resource point.attributes
  view_traceId _ _ := rfl
  targets point := ⟨point.attributes, [], [], none, none⟩
  withTargets point targets := { point with attributes := targets.attributes }

/-! ### Containers -/

structure Resource where
  attributes : List KeyValue
  rest : List UInt8

/-- The records of one scope. -/
structure ScopeRecords (ρ : Type) where
  records : List ρ
  rest : List UInt8

/-- The scopes of one resource. -/
structure ResourceRecords (ρ : Type) where
  resource : Option Resource
  scopes : List (ScopeRecords ρ)
  rest : List UInt8

abbrev ExportTraceServiceRequest := List (ResourceRecords Span)

abbrev ExportLogsServiceRequest := List (ResourceRecords LogRecord)

/-- The points of a metric, with what else its kind says encoded. -/
inductive MetricData where
  | gauge (points : List DataPoint) (rest : List UInt8)
  | sum (points : List DataPoint) (rest : List UInt8)
  | histogram (points : List DataPoint) (rest : List UInt8)
  | exponentialHistogram (points : List DataPoint) (rest : List UInt8)
  | summary (points : List SummaryDataPoint) (rest : List UInt8)

structure Metric where
  name : String
  data : Option MetricData
  rest : List UInt8

abbrev ExportMetricsServiceRequest := List (ResourceRecords Metric)

def resourceAttributes (resource : Option Resource) : List KeyValue :=
  resource.elim [] Resource.attributes

/-- Keeps a container unless this pass emptied it. -/
def stillPopulated (before after : ℕ) : Bool := before = 0 || 0 < after

section Apply
variable (lib : Libraries) (compiled : CompiledRules)

/-- Whether a record is kept, and the record as redacted. -/
def Pass.record {ρ : Type} (kind : RecordKind ρ) (resource : List KeyValue) (record : ρ)
    (pass : Pass) : (Bool × ρ) × Pass :=
  let ((keep, redact), pass) := pass.evaluate lib compiled kind.signal (kind.view resource record)
  if redact then
    let (targets, pass) := pass.redactRecord lib compiled (kind.targets record)
    ((keep, kind.withTargets record targets), pass)
  else ((keep, record), pass)

def Pass.span := Pass.record lib compiled spanKind

def Pass.log := Pass.record lib compiled logKind

/-- Filters one metric's data points; false when a non-empty metric was emptied. -/
def Pass.points {ρ : Type} (kind : RecordKind ρ) (resource : List KeyValue) (points : List ρ)
    (pass : Pass) : (Bool × List ρ) × Pass :=
  let before := points.length
  let (points, pass) := retainMut (Pass.record lib compiled kind resource) points pass
  ((before = 0 || !points.isEmpty, points), pass)

def Pass.metric (resource : List KeyValue) (metric : Metric) (pass : Pass) :
    (Bool × Metric) × Pass :=
  match metric.data with
  | none => ((true, metric), pass)
  | some (.gauge points rest) =>
    let ((keep, points), pass) := pass.points lib compiled (pointKind metric.name) resource points
    ((keep, { metric with data := some (.gauge points rest) }), pass)
  | some (.sum points rest) =>
    let ((keep, points), pass) := pass.points lib compiled (pointKind metric.name) resource points
    ((keep, { metric with data := some (.sum points rest) }), pass)
  | some (.histogram points rest) =>
    let ((keep, points), pass) := pass.points lib compiled (pointKind metric.name) resource points
    ((keep, { metric with data := some (.histogram points rest) }), pass)
  | some (.exponentialHistogram points rest) =>
    let ((keep, points), pass) := pass.points lib compiled (pointKind metric.name) resource points
    ((keep, { metric with data := some (.exponentialHistogram points rest) }), pass)
  | some (.summary points rest) =>
    let ((keep, points), pass) :=
      pass.points lib compiled (summaryPointKind metric.name) resource points
    ((keep, { metric with data := some (.summary points rest) }), pass)

def visitScope {ρ : Type} (visit : ρ → Pass → (Bool × ρ) × Pass) (scope : ScopeRecords ρ)
    (pass : Pass) : (Bool × ScopeRecords ρ) × Pass :=
  let before := scope.records.length
  let (records, pass) := retainMut visit scope.records pass
  ((stillPopulated before records.length, { scope with records }), pass)

def visitResource {ρ : Type} (visit : List KeyValue → ρ → Pass → (Bool × ρ) × Pass)
    (group : ResourceRecords ρ) (pass : Pass) : (Bool × ResourceRecords ρ) × Pass :=
  let resource := resourceAttributes group.resource
  let scopesBefore := group.scopes.length
  let (scopes, pass) := retainMut (visitScope (visit resource)) group.scopes pass
  let (attributes, pass) := pass.finishResource lib compiled (group.resource.map Resource.attributes)
  let resource := group.resource.map fun resource =>
    { resource with attributes := attributes.getD resource.attributes }
  ((stillPopulated scopesBefore scopes.length, { group with resource, scopes }), pass)

/-- The request after the rules, and the state of the thread's generator. -/
def applyRequest {ρ : Type} (signal : BitVec 8)
    (visit : List KeyValue → ρ → Pass → (Bool × ρ) × Pass) (request : List (ResourceRecords ρ))
    (sampleState : UInt64) : List (ResourceRecords ρ) × UInt64 :=
  if !compiled.reads signal then (request, sampleState)
  else
    let (request, pass) := retainMut (visitResource lib compiled visit) request (.new sampleState)
    (request, pass.sampleState)

/-- Drops and redacts spans, then removes emptied scopes and resources. -/
def applyTraces : ExportTraceServiceRequest → UInt64 → ExportTraceServiceRequest × UInt64 :=
  applyRequest lib compiled SIGNAL_TRACES (Pass.span lib compiled)

/-- Drops and redacts log records, then removes emptied scopes and resources. -/
def applyLogs : ExportLogsServiceRequest → UInt64 → ExportLogsServiceRequest × UInt64 :=
  applyRequest lib compiled SIGNAL_LOGS (Pass.log lib compiled)

/-- Drops and redacts data points, then removes emptied metrics, scopes and resources. -/
def applyMetrics : ExportMetricsServiceRequest → UInt64 → ExportMetricsServiceRequest × UInt64 :=
  applyRequest lib compiled SIGNAL_METRICS (Pass.metric lib compiled)

end Apply

end Maple.IngestGateway
