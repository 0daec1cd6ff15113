import Maple.IngestBatch

/-! What a pass leaves of an export request, record by record and container by container. -/

namespace Maple.IngestGateway
open RetainMut

/-! ### What is meant to be left -/

/-- The share of records a drop rule keeps; metrics are not sampled. -/
def keepPercentOn (signal : BitVec 8) (keepPercent : UInt8) : ℕ :=
  if signal = SIGNAL_METRICS then 0 else keepPercent.toNat

/-- The rule does not drop a record of the bucket. -/
def CompiledRule.keeps (rule : CompiledRule) (signal : BitVec 8) (bucket : ℕ) : Bool :=
  match rule.action with
  | .redact _ => true
  | .drop keepPercent => bucket < keepPercentOn signal keepPercent

def CompiledRule.redacts (rule : CompiledRule) : Bool :=
  match rule.action with
  | .redact _ => true
  | .drop _ => false

def CompiledRule.redactsResource (rule : CompiledRule) : Bool :=
  match rule.action with
  | .redact redaction => redaction.scopes &&& SCOPE_RESOURCE != 0
  | .drop _ => false

section Meant
variable (lib : Libraries) (compiled : CompiledRules)

/-- No matching drop rule drops a record of the bucket. -/
def survives (signal : BitVec 8) (view : RecordView) (bucket : ℕ) : Bool :=
  compiled.rules.all fun rule => !rule.matches lib signal view || rule.keeps signal bucket

def redactTargetsBy (targets : RecordTargets) (rule : CompiledRule) : RecordTargets :=
  match rule.action with
  | .redact redaction => redactTargets lib compiled redaction targets
  | .drop _ => targets

def redactAttributesBy (attributes : List KeyValue) (rule : CompiledRule) : List KeyValue :=
  match rule.action with
  | .redact redaction => redactAttributes lib compiled.hashSalt redaction attributes
  | .drop _ => attributes

/-- The record redacted by exactly the redact rules it matches as received, in rule order. -/
def redactedRecord {ρ : Type} (kind : RecordKind ρ) (resource : List KeyValue) (record : ρ) : ρ :=
  let matching := compiled.rules.filter fun rule =>
    rule.matches lib kind.signal (kind.view resource record)
  if matching.any CompiledRule.redacts then
    kind.withTargets record (matching.foldl (redactTargetsBy lib compiled) (kind.targets record))
  else record

/-- What is left of a record, given with its bucket. -/
def recordOutcome {ρ : Type} (kind : RecordKind ρ) (resource : List KeyValue) (record : ρ × ℕ) :
    Option ρ :=
  if survives lib compiled kind.signal (kind.view resource record.1) record.2 then
    some (redactedRecord lib compiled kind resource record.1)
  else none

/-- The record survives, and the rule redacts resources and matches it. -/
def recordHits {ρ : Type} (kind : RecordKind ρ) (resource : List KeyValue) (record : ρ × ℕ)
    (rule : CompiledRule) : Bool :=
  survives lib compiled kind.signal (kind.view resource record.1) record.2 &&
    (rule.matches lib kind.signal (kind.view resource record.1) && rule.redactsResource)

/-- A bucket is below 100, and the trace's own where there is a trace. -/
def ValidBucket (traceId : List UInt8) (bucket : ℕ) : Prop :=
  bucket < 100 ∧ (traceId ≠ [] → bucket = traceBucket lib traceId)

end Meant

/-- A container is left out exactly when it held something and nothing of it is left. -/
def populated {δ ρ γ : Type} (before : List δ) (after : List ρ) (container : γ) : Option γ :=
  if before ≠ [] ∧ after = [] then none else some container

def ScopeRecords.map {δ ρ : Type} (f : δ → ρ) (scope : ScopeRecords δ) : ScopeRecords ρ :=
  ⟨scope.records.map f, scope.rest⟩

def ResourceRecords.map {δ ρ : Type} (f : δ → ρ) (group : ResourceRecords δ) : ResourceRecords ρ :=
  ⟨group.resource, group.scopes.map (ScopeRecords.map f), group.rest⟩

def scopeOutcome {δ ρ : Type} (outcome : δ → Option ρ) (scope : ScopeRecords δ) :
    Option (ScopeRecords ρ) :=
  let records := scope.records.filterMap outcome
  populated scope.records records ⟨records, scope.rest⟩

/-- The resource redacted, once each and in rule order, by the rules some record under it hits. -/
def redactedResource (lib : Libraries) (compiled : CompiledRules) (hit : CompiledRule → Bool)
    (resource : Resource) : Resource :=
  { resource with
    attributes := (compiled.rules.filter hit).foldl (redactAttributesBy lib compiled)
      resource.attributes }

def resourceOutcome {δ ρ : Type} (lib : Libraries) (compiled : CompiledRules)
    (outcome : List KeyValue → δ → Option ρ) (hits : List KeyValue → δ → CompiledRule → Bool)
    (group : ResourceRecords δ) : Option (ResourceRecords ρ) :=
  let resource := resourceAttributes group.resource
  let scopes := group.scopes.filterMap (scopeOutcome (outcome resource))
  let hit (rule : CompiledRule) :=
    group.scopes.any fun scope => scope.records.any (hits resource · rule)
  populated group.scopes scopes
    ⟨group.resource.map (redactedResource lib compiled hit), scopes, group.rest⟩

section Metrics
variable (lib : Libraries) (compiled : CompiledRules)

/-- What is left of the points of a metric; a data point has no bucket. -/
def pointsOutcome {ρ : Type} (kind : RecordKind ρ) (resource : List KeyValue) (points : List ρ) :
    Option (List ρ) :=
  let left := points.filterMap fun point => recordOutcome lib compiled kind resource (point, 0)
  populated points left left

def pointsHit {ρ : Type} (kind : RecordKind ρ) (resource : List KeyValue) (points : List ρ)
    (rule : CompiledRule) : Bool :=
  points.any fun point => recordHits lib compiled kind resource (point, 0) rule

/-- What is left of a metric; one without data is kept. -/
def metricOutcome (resource : List KeyValue) (metric : Metric) : Option Metric :=
  match metric.data with
  | none => some metric
  | some (.gauge points rest) =>
    (pointsOutcome lib compiled (pointKind metric.name) resource points).map fun points =>
      { metric with data := some (.gauge points rest) }
  | some (.sum points rest) =>
    (pointsOutcome lib compiled (pointKind metric.name) resource points).map fun points =>
      { metric with data := some (.sum points rest) }
  | some (.histogram points rest) =>
    (pointsOutcome lib compiled (pointKind metric.name) resource points).map fun points =>
      { metric with data := some (.histogram points rest) }
  | some (.exponentialHistogram points rest) =>
    (pointsOutcome lib compiled (pointKind metric.name) resource points).map fun points =>
      { metric with data := some (.exponentialHistogram points rest) }
  | some (.summary points rest) =>
    (pointsOutcome lib compiled (summaryPointKind metric.name) resource points).map fun points =>
      { metric with data := some (.summary points rest) }

def metricHits (resource : List KeyValue) (metric : Metric) (rule : CompiledRule) : Bool :=
  match metric.data with
  | none => false
  | some (.gauge points _) | some (.sum points _) | some (.histogram points _)
  | some (.exponentialHistogram points _) =>
    pointsHit lib compiled (pointKind metric.name) resource points rule
  | some (.summary points _) =>
    pointsHit lib compiled (summaryPointKind metric.name) resource points rule

end Metrics

/-! ### Evaluating a record -/

section Evaluate
variable (lib : Libraries) (signal : BitVec 8) (view : RecordView)

/-- A drawn bucket is the given one. -/
def Agrees (bucket : ℕ) (drawn : Option ℕ) : Prop := ∀ value, drawn = some value → value = bucket

lemma sampled_spec (e : Evaluation) {bucket : ℕ}
    (hagrees : Agrees bucket (e.sampled lib view).2.bucket) :
    Agrees bucket e.bucket ∧ (e.sampled lib view).1 = bucket ∧
      (e.sampled lib view).2.matched = e.matched ∧
      (e.sampled lib view).2.anyRedact = e.anyRedact ∧
      (e.sampled lib view).2.droppedBy = e.droppedBy := by
  unfold Evaluation.sampled at hagrees ⊢
  cases hdrawn : e.bucket with
  | some value => exact ⟨by simpa [hdrawn] using hagrees, by simpa [hdrawn, Agrees] using hagrees,
      rfl, rfl, rfl⟩
  | none => exact ⟨by simp [Agrees], by simpa [hdrawn, Agrees] using hagrees, rfl, rfl, rfl⟩

/-- A matching drop rule drops the record unless its bucket is one of those the rule keeps. -/
lemma drop_spec (index : ℕ) (keepPercent : UInt8) (e : Evaluation) {bucket : ℕ}
    (hbucket : bucket < 100)
    (hagrees : Agrees bucket (e.drop lib signal view index keepPercent).bucket) :
    Agrees bucket e.bucket ∧
      (e.drop lib signal view index keepPercent).matched = e.matched ∧
      (e.drop lib signal view index keepPercent).anyRedact = e.anyRedact ∧
      (e.drop lib signal view index keepPercent).droppedBy.isSome =
        (e.droppedBy.isSome || !decide (bucket < keepPercentOn signal keepPercent)) := by
  have hpercent : keepPercentOn signal keepPercent =
      (if signal = SIGNAL_METRICS then 0 else keepPercent).toNat := by
    unfold keepPercentOn
    split_ifs <;> rfl
  rw [hpercent]
  unfold Evaluation.drop at hagrees ⊢
  by_cases hdropped : e.droppedBy.isSome = true
  · simp only [hdropped, if_true] at hagrees ⊢
    exact ⟨hagrees, trivial, trivial, by simp⟩
  simp only [hdropped, Bool.false_eq_true, if_false] at hagrees ⊢
  generalize (if signal = SIGNAL_METRICS then 0 else keepPercent) = percent at hagrees ⊢
  by_cases hall : 100 ≤ percent
  · have hle : 100 ≤ percent.toNat := hall
    simp only [hall, if_true] at hagrees ⊢
    exact ⟨hagrees, trivial, trivial, by simp [hdropped]; omega⟩
  simp only [hall, if_false] at hagrees ⊢
  by_cases hnone : percent = 0
  · simp only [hnone, if_true] at hagrees ⊢
    exact ⟨hagrees, trivial, trivial, by simp⟩
  simp only [hnone, if_false] at hagrees ⊢
  by_cases hkeeps : (e.sampled lib view).1 < percent.toNat
  · simp only [hkeeps, if_true] at hagrees ⊢
    obtain ⟨hbefore, hvalue, hmatched, hredact, hdrop⟩ := sampled_spec lib view e hagrees
    rw [hvalue] at hkeeps
    exact ⟨hbefore, hmatched, hredact, by simp [hdrop, hkeeps, hdropped]⟩
  · simp only [hkeeps, if_false] at hagrees ⊢
    obtain ⟨hbefore, hvalue, hmatched, hredact, _⟩ := sampled_spec lib view e hagrees
    rw [hvalue] at hkeeps
    exact ⟨hbefore, hmatched, hredact, by simp [hkeeps]⟩

/-- What one rule adds to an evaluation whose drawn bucket is the given one. -/
lemma next_spec (index : ℕ) (rule : CompiledRule) (e : Evaluation) {bucket : ℕ}
    (hbucket : bucket < 100)
    (hagrees : Agrees bucket (e.next lib signal view index rule).bucket) :
    Agrees bucket e.bucket ∧
      (e.next lib signal view index rule).matched =
        Function.update e.matched index (rule.matches lib signal view) ∧
      (e.next lib signal view index rule).anyRedact =
        (e.anyRedact || (rule.matches lib signal view && rule.redacts)) ∧
      (e.next lib signal view index rule).droppedBy.isSome =
        (e.droppedBy.isSome || (rule.matches lib signal view && !rule.keeps signal bucket)) := by
  unfold Evaluation.next at hagrees ⊢
  cases hhit : rule.matches lib signal view with
  | false => simpa [hhit] using hagrees
  | true =>
    simp only [hhit, Bool.not_true, Bool.false_eq_true, if_false] at hagrees ⊢
    cases haction : rule.action with
    | redact redaction =>
      simp only [haction] at hagrees ⊢
      exact ⟨hagrees, trivial, by simp [CompiledRule.redacts, haction],
        by simp [CompiledRule.keeps, haction]⟩
    | drop keepPercent =>
      simp only [haction] at hagrees ⊢
      obtain ⟨hbefore, hmatched, hredact, hdrop⟩ :=
        drop_spec lib signal view index keepPercent _ hbucket hagrees
      exact ⟨hbefore, hmatched, by simp [hredact, CompiledRule.redacts, haction],
        by simp [hdrop, CompiledRule.keeps, haction]⟩

/-- What the loop over the rules from `index` on adds. -/
lemma evaluateFrom_spec (index : ℕ) (rules : List CompiledRule) (e : Evaluation) {bucket : ℕ}
    (hbucket : bucket < 100)
    (hagrees : Agrees bucket (evaluateFrom lib signal view index rules e).bucket) :
    Agrees bucket e.bucket ∧
      (∀ i < index, (evaluateFrom lib signal view index rules e).matched i = e.matched i) ∧
      (∀ i rule, rules[i]? = some rule →
        (evaluateFrom lib signal view index rules e).matched (index + i) =
          rule.matches lib signal view) ∧
      (evaluateFrom lib signal view index rules e).anyRedact =
        (e.anyRedact || rules.any fun rule => rule.matches lib signal view && rule.redacts) ∧
      (evaluateFrom lib signal view index rules e).droppedBy.isSome =
        (e.droppedBy.isSome ||
          rules.any fun rule => rule.matches lib signal view && !rule.keeps signal bucket) := by
  induction rules generalizing index e with
  | nil => exact ⟨hagrees, fun _ _ => rfl, by simp, by simp [evaluateFrom], by simp [evaluateFrom]⟩
  | cons rule rules ih =>
    obtain ⟨hnext, hbelow, habove, hredact, hdrop⟩ := ih (index + 1) _ hagrees
    obtain ⟨hbefore, hmatched, hredact', hdrop'⟩ := next_spec lib signal view index rule e hbucket hnext
    refine ⟨hbefore, fun i hi => ?_, fun i other hother => ?_, ?_, ?_⟩
    · rw [evaluateFrom, hbelow i (by omega), hmatched, Function.update_of_ne (by omega)]
    · cases i with
      | zero =>
        obtain rfl : rule = other := by simpa using hother
        have := hbelow index (by omega)
        rw [hmatched, Function.update_self] at this
        simpa [evaluateFrom] using this
      | succ i =>
        have := habove i other (by simpa using hother)
        rwa [evaluateFrom, show index + (i + 1) = index + 1 + i by omega]
    · rw [evaluateFrom, hredact, hredact', List.any_cons, Bool.or_assoc]
    · rw [evaluateFrom, hdrop, hdrop', List.any_cons, Bool.or_assoc]

/-! ### The bucket of a record -/

lemma valid_sampleBucket (traceId : List UInt8) (state : UInt64) :
    ValidBucket lib traceId (sampleBucket lib traceId state).1 := by
  unfold sampleBucket
  split_ifs with hempty
  · refine ⟨Nat.mod_lt _ (by decide), fun hne => absurd (List.isEmpty_iff.mp hempty) hne⟩
  · exact ⟨Nat.mod_lt _ (by decide), fun _ => rfl⟩

/-- A drawn bucket is one the record may have. -/
def DrawnValid (e : Evaluation) : Prop :=
  ∀ bucket, e.bucket = some bucket → ValidBucket lib view.traceId bucket

lemma drop_drawnValid (index : ℕ) (keepPercent : UInt8) (e : Evaluation)
    (hdrawn : DrawnValid lib view e) :
    DrawnValid lib view (e.drop lib signal view index keepPercent) := by
  have hsampled : DrawnValid lib view (e.sampled lib view).2 := by
    unfold Evaluation.sampled
    cases hbucket : e.bucket with
    | some bucket => exact hdrawn
    | none =>
      intro bucket heq
      obtain rfl := Option.some.inj heq
      exact valid_sampleBucket lib view.traceId e.sampleState
  unfold Evaluation.drop
  generalize (if signal = SIGNAL_METRICS then 0 else keepPercent) = percent
  simp only
  split_ifs
  · exact hdrawn
  · exact hdrawn
  · exact hdrawn
  · exact hsampled
  · exact hsampled

lemma evaluateFrom_drawnValid (index : ℕ) (rules : List CompiledRule) (e : Evaluation)
    (hdrawn : DrawnValid lib view e) :
    DrawnValid lib view (evaluateFrom lib signal view index rules e) := by
  induction rules generalizing index e with
  | nil => exact hdrawn
  | cons rule rules ih =>
    refine ih (index + 1) _ ?_
    unfold Evaluation.next
    cases rule.matches lib signal view with
    | false => exact hdrawn
    | true =>
      cases rule.action with
      | redact redaction => exact hdrawn
      | drop keepPercent => exact drop_drawnValid lib signal view index keepPercent _ hdrawn

/-- An evaluated record has one bucket that decides, for all the rules, whether it is kept. -/
lemma evaluate_spec (compiled : CompiledRules) (pass : Pass) :
    ∃ bucket, ValidBucket lib view.traceId bucket ∧
      (pass.evaluate lib compiled signal view).1 =
        (survives lib compiled signal view bucket,
          survives lib compiled signal view bucket &&
            compiled.rules.any fun rule => rule.matches lib signal view && rule.redacts) ∧
      (∀ i rule, compiled.rules[i]? = some rule →
        (pass.evaluate lib compiled signal view).2.matched i = rule.matches lib signal view) ∧
      (pass.evaluate lib compiled signal view).2.resourceHits = pass.resourceHits := by
  let start : Evaluation := ⟨pass.matched, false, none, none, pass.sampleState⟩
  let e := evaluateFrom lib signal view 0 compiled.rules start
  have hdrawn : DrawnValid lib view e :=
    evaluateFrom_drawnValid lib signal view 0 compiled.rules start (by simp [DrawnValid, start])
  have hbucket : ∃ bucket, ValidBucket lib view.traceId bucket ∧ Agrees bucket e.bucket := by
    cases hvalue : e.bucket with
    | some bucket => exact ⟨bucket, hdrawn bucket hvalue, by simp [Agrees]⟩
    | none => exact ⟨_, valid_sampleBucket lib view.traceId 0, by simp [Agrees]⟩
  obtain ⟨bucket, hvalid, hagrees⟩ := hbucket
  obtain ⟨_, _, hmatched, hredact, hdrop⟩ :=
    evaluateFrom_spec lib signal view 0 compiled.rules start hvalid.1 hagrees
  have hkeep : e.droppedBy.isSome = !survives lib compiled signal view bucket := by
    rw [show e.droppedBy.isSome = _ from hdrop]
    simp [survives, start, List.not_all_eq_any_not]
  refine ⟨bucket, hvalid, ?_, ?_, ?_⟩
  · simp only [Pass.evaluate]
    rw [show (evaluateFrom lib signal view 0 compiled.rules _).droppedBy.isSome = _ from hkeep]
    cases hsurvives : survives lib compiled signal view bucket with
    | false => simp
    | true => simpa [start] using hredact
  · intro i rule hrule
    have := hmatched i rule hrule
    simp only [Pass.evaluate]
    split_ifs
    all_goals simpa [start] using this
  · simp only [Pass.evaluate]
    split_ifs <;> rfl

end Evaluate

/-! ### Redacting a record and a resource -/

section Redact
variable (lib : Libraries) (compiled : CompiledRules)

/-- The redact loop applies the rules that match, and marks those that redact the resource. -/
lemma redactFrom_spec (matched : ℕ → Bool) (applies : CompiledRule → Bool) (index : ℕ)
    (rules : List CompiledRule) (targets : RecordTargets) (hits : ℕ → Bool)
    (hmatched : ∀ i rule, rules[i]? = some rule → matched (index + i) = applies rule) :
    (redactFrom lib compiled matched index rules (targets, hits)).1 =
        (rules.filter applies).foldl (redactTargetsBy lib compiled) targets ∧
      (∀ i < index, (redactFrom lib compiled matched index rules (targets, hits)).2 i = hits i) ∧
      ∀ i, (redactFrom lib compiled matched index rules (targets, hits)).2 (index + i) =
        (hits (index + i) || rules[i]?.any fun rule => applies rule && rule.redactsResource) := by
  induction rules generalizing index targets hits with
  | nil => simp [redactFrom]
  | cons rule rules ih =>
    have hhere : matched index = applies rule := hmatched 0 rule rfl
    have hrest : ∀ i other, rules[i]? = some other → matched (index + 1 + i) = applies other := by
      intro i other hother
      have := hmatched (i + 1) other (by simpa using hother)
      rwa [show index + 1 + i = index + (i + 1) by omega]
    -- what the loop does with the first rule
    have hstep : redactFrom lib compiled matched index (rule :: rules) (targets, hits) =
        redactFrom lib compiled matched (index + 1) rules
          (if applies rule then redactTargetsBy lib compiled targets rule else targets,
            if applies rule && rule.redactsResource then Function.update hits index true
            else hits) := by
      rw [redactFrom]
      cases haction : rule.action with
      | drop keepPercent => simp [redactTargetsBy, CompiledRule.redactsResource, haction]
      | redact redaction =>
        cases happlies : applies rule with
        | false => simp [hhere, happlies]
        | true =>
          simp [hhere, happlies, redactTargetsBy, CompiledRule.redactsResource, haction]
    obtain ⟨htargets, hbelow, habove⟩ := ih (index + 1)
      (if applies rule then redactTargetsBy lib compiled targets rule else targets)
      (if applies rule && rule.redactsResource then Function.update hits index true else hits) hrest
    refine ⟨?_, fun i hi => ?_, fun i => ?_⟩
    · rw [hstep, htargets, List.filter_cons]
      split_ifs <;> rfl
    · rw [hstep, hbelow i (by omega)]
      split_ifs
      · rw [Function.update_of_ne (by omega)]
      · rfl
    · cases i with
      | zero =>
        have := hbelow index (by omega)
        simp only [hstep, Nat.add_zero, this]
        cases hmark : applies rule && rule.redactsResource <;> simp [hmark]
      | succ i =>
        have := habove i
        rw [hstep, show index + (i + 1) = index + 1 + i by omega, this]
        split_ifs
        · rw [Function.update_of_ne (by omega)]
          simp
        · simp

/-- The finishing loop applies the rules that are marked, and takes the marks away. -/
lemma finishFrom_spec (hit : CompiledRule → Bool) (index : ℕ) (rules : List CompiledRule)
    (resource : Option (List KeyValue)) (hits : ℕ → Bool)
    (hhits : ∀ i rule, rules[i]? = some rule → hits (index + i) = hit rule) :
    (finishFrom lib compiled index rules (resource, hits)).1 =
        resource.map (fun attributes =>
          (rules.filter hit).foldl (redactAttributesBy lib compiled) attributes) ∧
      (∀ i < index, (finishFrom lib compiled index rules (resource, hits)).2 i = hits i) ∧
      ∀ i, (finishFrom lib compiled index rules (resource, hits)).2 (index + i) =
        (hits (index + i) && decide (rules.length ≤ i)) := by
  induction rules generalizing index resource hits with
  | nil => simp [finishFrom]
  | cons rule rules ih =>
    have hhere : hits index = hit rule := hhits 0 rule rfl
    have hstep : finishFrom lib compiled index (rule :: rules) (resource, hits) =
        finishFrom lib compiled (index + 1) rules
          (if hit rule then resource.map (redactAttributesBy lib compiled · rule) else resource,
            Function.update hits index false) := by
      rw [finishFrom]
      cases hmark : hit rule with
      | false =>
        have hsame : Function.update hits index false = hits := by
          rw [← hmark, ← hhere, Function.update_eq_self]
        simp [hhere, hmark, hsame]
      | true =>
        cases haction : rule.action with
        | drop keepPercent =>
          cases resource <;> simp [hhere, hmark, redactAttributesBy, haction]
        | redact redaction =>
          cases resource <;> simp [hhere, hmark, redactAttributesBy, haction]
    have hrest : ∀ i other, rules[i]? = some other →
        Function.update hits index false (index + 1 + i) = hit other := by
      intro i other hother
      have := hhits (i + 1) other (by simpa using hother)
      rwa [Function.update_of_ne (by omega), show index + 1 + i = index + (i + 1) by omega]
    obtain ⟨hresource, hbelow, habove⟩ := ih (index + 1)
      (if hit rule then resource.map (redactAttributesBy lib compiled · rule) else resource)
      (Function.update hits index false) hrest
    refine ⟨?_, fun i hi => ?_, fun i => ?_⟩
    · rw [hstep, hresource, List.filter_cons]
      cases resource <;> split_ifs <;> rfl
    · rw [hstep, hbelow i (by omega), Function.update_of_ne (by omega)]
    · cases i with
      | zero =>
        have := hbelow index (by omega)
        simp only [hstep, Nat.add_zero, this]
        simp
      | succ i =>
        have := habove i
        rw [hstep, show index + (i + 1) = index + 1 + i by omega, this,
          Function.update_of_ne (by omega)]
        simp

end Redact

/-! ### Descriptions of the visits -/

section Described
variable (lib : Libraries) (compiled : CompiledRules)

/-- The rules marked once a described element has been visited. -/
def addHits {δ : Type} (hitBy : δ → CompiledRule → Bool) (hits : ℕ → Bool) (d : δ) : ℕ → Bool :=
  fun i => hits i || compiled.rules[i]?.any (hitBy d)

lemma foldl_addHits {δ : Type} (hitBy : δ → CompiledRule → Bool) (hits : ℕ → Bool) (ds : List δ) :
    ds.foldl (addHits compiled hitBy) hits =
      addHits compiled (fun ds rule => ds.any (hitBy · rule)) hits ds := by
  induction ds generalizing hits with
  | nil =>
    funext i
    cases h : compiled.rules[i]? <;> simp [addHits, h]
  | cons d ds ih =>
    rw [List.foldl_cons, ih]
    funext i
    cases h : compiled.rules[i]? <;> simp [addHits, h, Bool.or_assoc]

/-- A visit that leaves of each element what its description says. -/
abbrev Visits {δ ρ : Type} (visit : ρ → Pass → (Bool × ρ) × Pass) (erase : δ → ρ)
    (valid : δ → Prop) (outcome : δ → Option ρ) (hitBy : δ → CompiledRule → Bool) : Prop :=
  Described visit (fun _ => True) erase valid outcome Pass.resourceHits (addHits compiled hitBy)

lemma redacts_of_redactsResource {rule : CompiledRule} (hresource : rule.redactsResource = true) :
    rule.redacts = true := by
  unfold CompiledRule.redactsResource at hresource
  unfold CompiledRule.redacts
  cases haction : rule.action with
  | redact redaction => rfl
  | drop keepPercent => simp [haction] at hresource

/-- No mark is added where no matching rule redacts. -/
lemma addHits_none {δ : Type} (hitBy : δ → CompiledRule → Bool) (d : δ)
    (hnone : ∀ rule ∈ compiled.rules, hitBy d rule = false) (hits : ℕ → Bool) :
    addHits compiled hitBy hits d = hits := by
  funext i
  cases hrule : compiled.rules[i]? with
  | none => simp [addHits, hrule]
  | some rule => simp [addHits, hrule, hnone rule (List.mem_of_getElem? hrule)]

lemma redactRecord_spec {ρ : Type} (kind : RecordKind ρ) (resource : List KeyValue) (record : ρ)
    (pass : Pass) (hmatched : ∀ i rule, compiled.rules[i]? = some rule →
      pass.matched i = rule.matches lib kind.signal (kind.view resource record)) :
    (pass.redactRecord lib compiled (kind.targets record)).1 =
        (compiled.rules.filter fun rule =>
          rule.matches lib kind.signal (kind.view resource record)).foldl
            (redactTargetsBy lib compiled) (kind.targets record) ∧
      (pass.redactRecord lib compiled (kind.targets record)).2.resourceHits = fun i =>
        pass.resourceHits i || compiled.rules[i]?.any fun rule =>
          rule.matches lib kind.signal (kind.view resource record) && rule.redactsResource := by
  obtain ⟨htargets, _, hhits⟩ := redactFrom_spec lib compiled pass.matched
    (fun rule => rule.matches lib kind.signal (kind.view resource record)) 0 compiled.rules
    (kind.targets record) pass.resourceHits (by simpa using hmatched)
  refine ⟨htargets, funext fun i => ?_⟩
  simpa [Pass.redactRecord] using hhits i

lemma record_visits {ρ : Type} (kind : RecordKind ρ) (resource : List KeyValue) :
    Visits compiled (Pass.record lib compiled kind resource) Prod.fst
      (fun record => ValidBucket lib (kind.traceId record.1) record.2)
      (recordOutcome lib compiled kind resource) (recordHits lib compiled kind resource) where
  step := by
    intro record pass _
    obtain ⟨bucket, hvalid, hresult, hmatched, hhits⟩ :=
      evaluate_spec lib kind.signal (kind.view resource record) compiled pass
    refine ⟨(record, bucket), rfl, by rwa [kind.view_traceId] at hvalid, ?_⟩
    unfold Pass.record
    generalize pass.evaluate lib compiled kind.signal (kind.view resource record) = evaluated at *
    obtain ⟨⟨keep, redact⟩, after⟩ := evaluated
    simp only [Prod.mk.injEq] at hresult hmatched hhits
    obtain ⟨rfl, rfl⟩ := hresult
    cases hsurvives : survives lib compiled kind.signal (kind.view resource record) bucket with
    | false =>
      have hnone := addHits_none compiled (recordHits lib compiled kind resource) (record, bucket)
        (fun rule _ => by simp [recordHits, hsurvives]) pass.resourceHits
      simp [kept, recordOutcome, hsurvives, hhits, hnone]
    | true =>
      cases hredact : compiled.rules.any fun rule =>
          rule.matches lib kind.signal (kind.view resource record) && rule.redacts with
      | false =>
        have hno : ∀ rule ∈ compiled.rules,
            rule.matches lib kind.signal (kind.view resource record) = true →
              rule.redacts = false := by
          simpa using hredact
        have hnone := addHits_none compiled (recordHits lib compiled kind resource)
          (record, bucket) (fun rule hrule => by
            cases hmatch : rule.matches lib kind.signal (kind.view resource record) with
            | false => simp [recordHits, hmatch]
            | true =>
              cases hresource : rule.redactsResource with
              | false => simp [recordHits, hresource]
              | true =>
                have hyes := redacts_of_redactsResource hresource
                rw [hno rule hrule hmatch] at hyes
                contradiction)
          pass.resourceHits
        simp [kept, recordOutcome, hsurvives, hhits, hnone, redactedRecord, List.any_filter,
          hredact]
      | true =>
        obtain ⟨htargets, hmarks⟩ :=
          redactRecord_spec lib compiled kind resource record after hmatched
        simp [kept, recordOutcome, hsurvives, redactedRecord, List.any_filter, hredact, htargets,
          hmarks, hhits]
        funext i
        cases hrule : compiled.rules[i]? <;> simp [addHits, recordHits, hsurvives, hrule]

section Containers
variable {δ ρ : Type} {visit : ρ → Pass → (Bool × ρ) × Pass} {erase : δ → ρ} {valid : δ → Prop}
  {outcome : δ → Option ρ} {hitBy : δ → CompiledRule → Bool}

variable {compiled} in
/-- A run over records leaves what their descriptions say and marks the rules they hit. -/
lemma Visits.run (hvisit : Visits compiled visit erase valid outcome hitBy) (records : List ρ)
    (pass : Pass) :
    ∃ ds : List δ, ds.map erase = records ∧ (∀ d ∈ ds, valid d) ∧
      (retainMut visit records pass).1 = ds.filterMap outcome ∧
      (retainMut visit records pass).2.resourceHits =
        addHits compiled (fun ds rule => ds.any (hitBy · rule)) pass.resourceHits ds := by
  obtain ⟨ds, herase, hvalid, hlist, hhits, _⟩ := Described.run hvisit records pass trivial
  exact ⟨ds, herase, hvalid, hlist, by rw [hhits, foldl_addHits]⟩

/-- A container is kept unless the pass emptied it. -/
lemma kept_populated {γ : Type} (before : List δ) (after : List ρ) (container : γ) :
    kept (stillPopulated before.length after.length, container) =
      populated before after container := by
  cases before <;> cases after <;> simp [kept, stillPopulated, populated]

lemma scope_visits (hvisit : Visits compiled visit erase valid outcome hitBy) :
    Visits compiled (visitScope visit) (ScopeRecords.map erase)
      (fun scope => ∀ d ∈ scope.records, valid d) (scopeOutcome outcome)
      (fun scope rule => scope.records.any (hitBy · rule)) where
  step := by
    intro scope pass _
    obtain ⟨ds, herase, hvalid, hlist, hhits⟩ := Visits.run hvisit scope.records pass
    refine ⟨⟨ds, scope.rest⟩, by simp [ScopeRecords.map, herase], hvalid, ?_, ?_, trivial⟩
    · simp only [visitScope, scopeOutcome, ← hlist]
      rw [← kept_populated, ← herase, List.length_map]
    · exact hhits

end Containers

/-- A resource is visited with no marks, and leaves none. -/
lemma resource_visits {δ ρ : Type} {visit : List KeyValue → ρ → Pass → (Bool × ρ) × Pass}
    {erase : δ → ρ} {valid : δ → Prop} {outcome : List KeyValue → δ → Option ρ}
    {hitBy : List KeyValue → δ → CompiledRule → Bool}
    (hvisit : ∀ resource,
      Visits compiled (visit resource) erase valid (outcome resource) (hitBy resource)) :
    Described (visitResource lib compiled visit) (fun pass => pass.resourceHits = fun _ => false)
      (ResourceRecords.map erase) (fun group => ∀ scope ∈ group.scopes, ∀ d ∈ scope.records, valid d)
      (resourceOutcome lib compiled outcome hitBy) (fun _ => ()) (fun _ _ => ()) where
  step := by
    intro group pass hempty
    obtain ⟨ds, herase, hvalid, hlist, hhits⟩ := Visits.run
      (scope_visits compiled (hvisit (resourceAttributes group.resource))) group.scopes pass
    let hit (rule : CompiledRule) := ds.any fun scope =>
      scope.records.any (hitBy (resourceAttributes group.resource) · rule)
    have hmarks : (retainMut (visitScope (visit (resourceAttributes group.resource))) group.scopes
        pass).2.resourceHits = fun i => compiled.rules[i]?.any hit := by
      rw [hhits, hempty]
      funext i
      simp [addHits, hit]
    obtain ⟨hresource, _, hclear⟩ := finishFrom_spec lib compiled hit 0 compiled.rules
      (group.resource.map Resource.attributes) (fun i => compiled.rules[i]?.any hit)
      (fun i rule hrule => by simp [hrule])
    refine ⟨⟨group.resource, ds, group.rest⟩, by simp [ResourceRecords.map, herase], hvalid, ?_,
      rfl, ?_⟩
    · have hmap : (group.resource.map fun resource => { resource with
          attributes := ((group.resource.map Resource.attributes).map fun attributes =>
            (compiled.rules.filter hit).foldl (redactAttributesBy lib compiled) attributes).getD
              resource.attributes }) = group.resource.map (redactedResource lib compiled hit) := by
        generalize hit = hit
        cases group.resource <;> rfl
      simp only [visitResource, resourceOutcome, Pass.finishResource, hmarks, hresource, hmap,
        ← hlist]
      rw [← kept_populated, ← herase, List.length_map]
    · funext i
      simp only [visitResource, Pass.finishResource, hmarks]
      have := hclear i
      rw [Nat.zero_add] at this
      rw [this]
      by_cases hin : i < compiled.rules.length
      · simp [Nat.not_le.mpr hin]
      · simp [List.getElem?_eq_none (Nat.not_lt.mp hin)]

/-! ### Metrics -/

section Points
variable {ρ : Type} (kind : RecordKind ρ) (hsignal : kind.signal = SIGNAL_METRICS)
  (resource : List KeyValue)
include hsignal

/-- No bucket decides over a data point. -/
lemma survives_point (view : RecordView) (bucket : ℕ) :
    survives lib compiled kind.signal view bucket = survives lib compiled kind.signal view 0 := by
  have hkeeps : ∀ rule : CompiledRule, rule.keeps kind.signal bucket = rule.keeps kind.signal 0 := by
    intro rule
    cases haction : rule.action <;> simp [CompiledRule.keeps, haction, keepPercentOn, hsignal]
  simp [survives, hkeeps]

/-- A metric's points are filtered to those that survive, and the metric is kept unless emptied. -/
lemma points_spec (points : List ρ) (pass : Pass) :
    kept (pass.points lib compiled kind resource points).1 =
        pointsOutcome lib compiled kind resource points ∧
      (pass.points lib compiled kind resource points).2.resourceHits =
        addHits compiled (pointsHit lib compiled kind resource) pass.resourceHits points := by
  obtain ⟨ds, herase, _, hlist, hhits⟩ :=
    Visits.run (record_visits lib compiled kind resource) points pass
  have hleft : ds.filterMap (recordOutcome lib compiled kind resource) =
      points.filterMap fun point => recordOutcome lib compiled kind resource (point, 0) := by
    rw [← herase, List.filterMap_map]
    congr 1
    funext d
    simp [recordOutcome, survives_point lib compiled kind hsignal _ d.2]
  have hhit : ∀ rule, ds.any (recordHits lib compiled kind resource · rule) =
      pointsHit lib compiled kind resource points rule := by
    intro rule
    rw [pointsHit, ← herase, List.any_map]
    congr 1
    funext d
    simp [recordHits, survives_point lib compiled kind hsignal _ d.2]
  constructor
  · simp only [Pass.points, pointsOutcome, ← hleft, hlist]
    rw [← herase]
    cases ds <;> cases List.filterMap (recordOutcome lib compiled kind resource) _ <;>
      simp [kept, populated]
  · simp only [Pass.points, hhits]
    funext i
    simp [addHits, hhit]

end Points

lemma kept_map {α β : Type} {result : Bool × α} {outcome : Option α} (f : α → β)
    (hkept : kept result = outcome) : kept (result.1, f result.2) = outcome.map f := by
  rw [← hkept]
  unfold kept
  split_ifs <;> rfl

lemma metric_visits (resource : List KeyValue) :
    Visits compiled (Pass.metric lib compiled resource) id (fun _ => True)
      (metricOutcome lib compiled resource) (metricHits lib compiled resource) where
  step := by
    intro metric pass _
    refine ⟨metric, rfl, trivial, ?_⟩
    obtain ⟨name, data, other⟩ := metric
    have hpoints (points : List DataPoint) :=
      points_spec lib compiled (pointKind name) rfl resource points pass
    cases data with
    | none => exact ⟨rfl, (addHits_none compiled _ _ (fun _ _ => rfl) _).symm, trivial⟩
    | some data =>
      cases data with
      | gauge points rest =>
        obtain ⟨hkept, hhits⟩ := hpoints points
        exact ⟨kept_map (fun points => Metric.mk name (some (.gauge points rest)) other) hkept,
          hhits, trivial⟩
      | sum points rest =>
        obtain ⟨hkept, hhits⟩ := hpoints points
        exact ⟨kept_map (fun points => Metric.mk name (some (.sum points rest)) other) hkept,
          hhits, trivial⟩
      | histogram points rest =>
        obtain ⟨hkept, hhits⟩ := hpoints points
        exact ⟨kept_map (fun points => Metric.mk name (some (.histogram points rest)) other) hkept,
          hhits, trivial⟩
      | exponentialHistogram points rest =>
        obtain ⟨hkept, hhits⟩ := hpoints points
        exact ⟨kept_map (fun points => Metric.mk name (some (.exponentialHistogram points rest)) other) hkept,
          hhits, trivial⟩
      | summary points rest =>
        obtain ⟨hkept, hhits⟩ :=
          points_spec lib compiled (summaryPointKind name) rfl resource points pass
        exact ⟨kept_map (fun points => Metric.mk name (some (.summary points rest)) other) hkept,
          hhits, trivial⟩

/-! ### A signal no rule reads -/

section Unread
variable {compiled} {δ ρ : Type}

/-- What no rule touches is left as it is. -/
lemma filterMap_some {outcome : δ → Option ρ} {erase : δ → ρ} {ds : List δ}
    (hsome : ∀ d ∈ ds, outcome d = some (erase d)) : ds.filterMap outcome = ds.map erase := by
  rw [← List.filterMap_eq_map]
  exact List.filterMap_congr hsome

lemma populated_map {γ : Type} (before : List δ) (erase : δ → ρ) (container : γ) :
    populated before (before.map erase) container = some container := by
  cases before <;> simp [populated]

lemma resourceOutcome_unread {outcome : List KeyValue → δ → Option ρ}
    {hits : List KeyValue → δ → CompiledRule → Bool} {erase : δ → ρ}
    (hsome : ∀ resource d, outcome resource d = some (erase d))
    (hnone : ∀ resource d, ∀ rule ∈ compiled.rules, hits resource d rule = false)
    (group : ResourceRecords δ) :
    resourceOutcome lib compiled outcome hits group = some (group.map erase) := by
  have hscopes : group.scopes.filterMap (scopeOutcome (outcome (resourceAttributes group.resource))) =
      group.scopes.map (ScopeRecords.map erase) := by
    refine filterMap_some fun scope _ => ?_
    have hrecords := filterMap_some fun d (_ : d ∈ scope.records) =>
      hsome (resourceAttributes group.resource) d
    simp only [scopeOutcome, hrecords, populated_map]
    rfl
  have hfilter : compiled.rules.filter (fun rule => group.scopes.any fun scope =>
      scope.records.any (hits (resourceAttributes group.resource) · rule)) = [] := by
    rw [List.filter_eq_nil_iff]
    intro rule hrule
    simp [hnone _ _ rule hrule]
  have hsame : (redactedResource lib compiled fun rule => group.scopes.any fun scope =>
      scope.records.any (hits (resourceAttributes group.resource) · rule)) = id := by
    funext resource
    simp [redactedResource, hfilter]
  simp only [resourceOutcome, hscopes, hsame, Option.map_id, id, populated_map]
  rfl

end Unread

/-- A request after the rules is what its descriptions say of it. -/
lemma applyRequest_spec {δ ρ : Type} {signal : BitVec 8}
    {visit : List KeyValue → ρ → Pass → (Bool × ρ) × Pass}
    {erase : δ → ρ} {valid : δ → Prop} {outcome : List KeyValue → δ → Option ρ}
    {hitBy : List KeyValue → δ → CompiledRule → Bool}
    (hvisit : ∀ resource,
      Visits compiled (visit resource) erase valid (outcome resource) (hitBy resource))
    (hsome : compiled.reads signal = false → ∀ resource d, outcome resource d = some (erase d))
    (hnone : compiled.reads signal = false → ∀ resource d, ∀ rule ∈ compiled.rules,
      hitBy resource d rule = false)
    (request : List (ResourceRecords ρ)) (sampleState : UInt64) :
    ∃ described : List (ResourceRecords δ), described.map (ResourceRecords.map erase) = request ∧
      (∀ group ∈ described, ∀ scope ∈ group.scopes, ∀ d ∈ scope.records, valid d) ∧
      (applyRequest lib compiled signal visit request sampleState).1 =
        described.filterMap (resourceOutcome lib compiled outcome hitBy) := by
  obtain ⟨described, herase, hvalid, hlist, _⟩ :=
    (resource_visits lib compiled hvisit).run request (.new sampleState) rfl
  refine ⟨described, herase, hvalid, ?_⟩
  cases hreads : compiled.reads signal with
  | true => simp [applyRequest, hreads, hlist]
  | false =>
    have hsame := filterMap_some fun group (_ : group ∈ described) =>
      resourceOutcome_unread lib (hsome hreads) (hnone hreads) group
    simp [applyRequest, hreads, hsame, herase]

/-- A record of a signal no rule reads is kept as it is. -/
lemma recordOutcome_unread {ρ : Type} (kind : RecordKind ρ) (hreads : compiled.reads kind.signal = false)
    (resource : List KeyValue) (record : ρ × ℕ) :
    recordOutcome lib compiled kind resource record = some record.1 := by
  have hmatches : ∀ rule ∈ compiled.rules,
      rule.matches lib kind.signal (kind.view resource record.1) = false := fun rule hrule =>
    matches_of_not_reads hreads hrule _
  have hsurvives : survives lib compiled kind.signal (kind.view resource record.1) record.2 = true := by
    simp only [survives, List.all_eq_true]
    intro rule hrule
    simp [hmatches rule hrule]
  have hfilter : compiled.rules.filter (fun rule =>
      rule.matches lib kind.signal (kind.view resource record.1)) = [] := by
    simpa [List.filter_eq_nil_iff] using hmatches
  simp [recordOutcome, hsurvives, redactedRecord, hfilter]

lemma recordHits_unread {ρ : Type} (kind : RecordKind ρ) (hreads : compiled.reads kind.signal = false)
    (resource : List KeyValue) (record : ρ × ℕ) (rule : CompiledRule) (hrule : rule ∈ compiled.rules) :
    recordHits lib compiled kind resource record rule = false := by
  simp [recordHits, matches_of_not_reads hreads hrule]

lemma pointsOutcome_unread {ρ : Type} (kind : RecordKind ρ)
    (hreads : compiled.reads kind.signal = false) (resource : List KeyValue) (points : List ρ) :
    pointsOutcome lib compiled kind resource points = some points := by
  have hleft : (points.filterMap fun point => recordOutcome lib compiled kind resource (point, 0)) =
      points.map id :=
    filterMap_some fun point _ => recordOutcome_unread lib compiled kind hreads resource (point, 0)
  simpa [pointsOutcome, hleft] using populated_map points id points

lemma metricOutcome_unread (hreads : compiled.reads SIGNAL_METRICS = false)
    (resource : List KeyValue) (metric : Metric) :
    metricOutcome lib compiled resource metric = some metric := by
  obtain ⟨name, data, other⟩ := metric
  have hpoints := pointsOutcome_unread lib compiled (pointKind name) hreads resource
  have hsummary := pointsOutcome_unread lib compiled (summaryPointKind name) hreads resource
  cases data with
  | none => rfl
  | some data => cases data <;> simp [metricOutcome, hpoints, hsummary]

lemma pointsHit_unread {ρ : Type} (kind : RecordKind ρ) (hreads : compiled.reads kind.signal = false)
    (resource : List KeyValue) (points : List ρ) (rule : CompiledRule)
    (hrule : rule ∈ compiled.rules) : pointsHit lib compiled kind resource points rule = false := by
  simp [pointsHit, recordHits_unread lib compiled kind hreads resource _ rule hrule]

lemma metricHits_unread (hreads : compiled.reads SIGNAL_METRICS = false)
    (resource : List KeyValue) (metric : Metric) (rule : CompiledRule)
    (hrule : rule ∈ compiled.rules) : metricHits lib compiled resource metric rule = false := by
  obtain ⟨name, data, other⟩ := metric
  have hpoints (points) :=
    pointsHit_unread lib compiled (pointKind name) hreads resource points rule hrule
  have hsummary (points) :=
    pointsHit_unread lib compiled (summaryPointKind name) hreads resource points rule hrule
  cases data with
  | none => rfl
  | some data => cases data <;> simp [metricHits, hpoints, hsummary]

lemma map_id_resourceRecords {ρ : Type} (groups : List (ResourceRecords ρ)) :
    groups.map (ResourceRecords.map id) = groups := by
  have hscope : (ScopeRecords.map id : ScopeRecords ρ → ScopeRecords ρ) = id := by
    funext scope
    simp [ScopeRecords.map]
  have hgroup : (ResourceRecords.map id : ResourceRecords ρ → ResourceRecords ρ) = id := by
    funext group
    simp [ResourceRecords.map, hscope]
  rw [hgroup, List.map_id]

/-- A span or log request after the rules. -/
lemma applyRecords_spec {ρ : Type} (kind : RecordKind ρ) (request : List (ResourceRecords ρ))
    (sampleState : UInt64) :
    ∃ bucketed : List (ResourceRecords (ρ × ℕ)),
      bucketed.map (ResourceRecords.map Prod.fst) = request ∧
      (∀ group ∈ bucketed, ∀ scope ∈ group.scopes, ∀ record ∈ scope.records,
        ValidBucket lib (kind.traceId record.1) record.2) ∧
      (applyRequest lib compiled kind.signal (Pass.record lib compiled kind) request sampleState).1 =
        bucketed.filterMap (resourceOutcome lib compiled (recordOutcome lib compiled kind)
          (recordHits lib compiled kind)) :=
  applyRequest_spec lib compiled (record_visits lib compiled kind)
    (recordOutcome_unread lib compiled kind) (recordHits_unread lib compiled kind) request sampleState

end Described

/-- The rules are applied record by record and keep the structure of the batch: a record with its
bucket survives as `recordOutcome` says, a scope as `scopeOutcome` and a resource, redacted by the
rules its surviving records hit, as `resourceOutcome`; data points need no bucket. -/
theorem batch_rules_per_record (lib : Libraries) (compiled : CompiledRules) (sampleState : UInt64) :
    (∀ request : ExportTraceServiceRequest, ∃ bucketed : List (ResourceRecords (Span × ℕ)),
      bucketed.map (ResourceRecords.map Prod.fst) = request ∧
      (∀ group ∈ bucketed, ∀ scope ∈ group.scopes, ∀ span ∈ scope.records,
        ValidBucket lib span.1.traceId span.2) ∧
      (applyTraces lib compiled request sampleState).1 =
        bucketed.filterMap (resourceOutcome lib compiled (recordOutcome lib compiled spanKind)
          (recordHits lib compiled spanKind))) ∧
    (∀ request : ExportLogsServiceRequest, ∃ bucketed : List (ResourceRecords (LogRecord × ℕ)),
      bucketed.map (ResourceRecords.map Prod.fst) = request ∧
      (∀ group ∈ bucketed, ∀ scope ∈ group.scopes, ∀ record ∈ scope.records,
        ValidBucket lib record.1.traceId record.2) ∧
      (applyLogs lib compiled request sampleState).1 =
        bucketed.filterMap (resourceOutcome lib compiled (recordOutcome lib compiled logKind)
          (recordHits lib compiled logKind))) ∧
    ∀ request : ExportMetricsServiceRequest,
      (applyMetrics lib compiled request sampleState).1 =
        request.filterMap (resourceOutcome lib compiled (metricOutcome lib compiled)
          (metricHits lib compiled)) := by
  refine ⟨fun request => applyRecords_spec lib compiled spanKind request sampleState,
    fun request => applyRecords_spec lib compiled logKind request sampleState, fun request => ?_⟩
  obtain ⟨described, herase, _, hlist⟩ :=
    applyRequest_spec lib compiled (metric_visits lib compiled) (metricOutcome_unread lib compiled)
      (metricHits_unread lib compiled) request sampleState
  rw [map_id_resourceRecords] at herase
  obtain rfl := herase
  exact hlist

end Maple.IngestGateway
