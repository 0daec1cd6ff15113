import Maple.KeyGlob
import Mathlib.Data.BitVec

/-! The gateway's ingest rules: what a record carries, what a condition reads of it, and how rules
are compiled. -/

namespace Maple.IngestGateway
open IngestRules (KeyGlob)

/-! ### Values -/

mutual

/-- A value; none when nothing is set. -/
inductive AnyValue where
  | mk (value : Option Value)

inductive Value where
  | stringValue (text : String)
  | boolValue (flag : Bool)
  | intValue (int : ℤ)
  /-- A double by its bits. -/
  | doubleValue (bits : UInt64)
  | arrayValue (values : List AnyValue)
  | kvlistValue (values : List KeyValue)
  | bytesValue (bytes : List UInt8)

inductive KeyValue where
  | mk (key : String) (value : Option AnyValue)

end

def AnyValue.value : AnyValue → Option Value
  | .mk value => value

def KeyValue.key : KeyValue → String
  | .mk key _ => key

def KeyValue.value : KeyValue → Option AnyValue
  | .mk _ value => value

/-! ### The regex crate and the other libraries -/

/-- A compiled expression: the leftmost match from a position on. Positions count characters. -/
structure Regex where
  findAt : List Char → ℕ → Option (ℕ × ℕ)
  within : ∀ text position start stop, findAt text position = some (start, stop) →
    position ≤ start ∧ start ≤ stop ∧ stop ≤ text.length

def Regex.isMatch (regex : Regex) (text : List Char) : Bool := (regex.findAt text 0).isSome

inductive Detector where
  | email | creditCard | jwt | apiToken | ipv4 | ipv6 | phone | iban
  deriving DecidableEq, Repr

/-- What the rules call outside their module. -/
structure Libraries where
  buildRegex : String → Except String Regex
  /-- The expressions of the detectors. -/
  detectorRegex : Detector → Regex
  formatDouble : UInt64 → String
  toLowercase : String → String
  sha256 : List UInt8 → List UInt8
  hmacSha256 : (salt text : List UInt8) → List UInt8

/-! ### Records -/

structure Event where
  attributes : List KeyValue
  /-- The remaining fields, encoded. -/
  rest : List UInt8

structure Exemplar where
  filteredAttributes : List KeyValue
  rest : List UInt8

structure Status where
  message : String
  code : ℤ

/-- A span, with its remaining fields encoded. -/
structure Span where
  traceId : List UInt8
  name : String
  kind : ℤ
  attributes : List KeyValue
  events : List Event
  status : Option Status
  rest : List UInt8

structure LogRecord where
  severityNumber : ℤ
  severityText : String
  body : Option AnyValue
  attributes : List KeyValue
  traceId : List UInt8
  rest : List UInt8

/-- What a condition reads from one record, as received. -/
structure RecordView where
  resource : List KeyValue
  attributes : List KeyValue
  name : Option String
  body : Option AnyValue
  severity : Option ℤ
  spanKind : Option String
  spanStatus : Option String
  traceId : List UInt8

def severityFromText (text : String) : Option ℤ :=
  let lower := text.toList.map Char.toLower
  ([("trace", 1), ("debug", 5), ("info", 9), ("warn", 13), ("err", 17), ("fatal", 21),
      ("crit", 21), ("emerg", 21)].find? fun (entry : String × ℤ) =>
    entry.1.toList.isPrefixOf lower).map (·.2)

def logSeverity (record : LogRecord) : Option ℤ :=
  if 0 < record.severityNumber then some record.severityNumber
  else severityFromText record.severityText

def spanKindName (kind : ℤ) : Option String :=
  if kind = 0 then some "unspecified"
  else if kind = 1 then some "internal"
  else if kind = 2 then some "server"
  else if kind = 3 then some "client"
  else if kind = 4 then some "producer"
  else if kind = 5 then some "consumer"
  else none

def spanStatusName (span : Span) : Option String :=
  let code := span.status.elim 0 Status.code
  if code = 0 then some "unset"
  else if code = 1 then some "ok"
  else if code = 2 then some "error"
  else none

/-! ### Rule specs and compiled rules -/

inductive IngestSignal where
  | traces | logs | metrics
  deriving DecidableEq, Repr

inductive ConditionField where
  | serviceName | name | attribute | resourceAttribute | body | severity | spanKind | spanStatus
  deriving DecidableEq, Repr

inductive ConditionOp where
  | eq | neq | inList | notIn | startsWith | contains | regex | exists' | notExists | lt | gte
  deriving DecidableEq, Repr

structure ConditionSpec where
  field : ConditionField
  key : Option String
  op : ConditionOp
  value : Option String
  values : Option (List String)

inductive RedactScope where
  | attributes | resource | events | body
  deriving DecidableEq, Repr

inductive RedactMethod where
  | mask | hash | remove
  deriving DecidableEq, Repr

inductive ActionSpec where
  | drop (keepPercent : UInt8)
  | redact (keys : List String) (detectors : List Detector) (patterns : List String)
      (scopes : List RedactScope) (method : RedactMethod)

structure IngestRuleSpec where
  signals : List IngestSignal
  conditions : List ConditionSpec
  action : ActionSpec

def SIGNAL_TRACES : BitVec 8 := 1

def SIGNAL_LOGS : BitVec 8 := 2

def SIGNAL_METRICS : BitVec 8 := 4

def SCOPE_ATTRIBUTES : BitVec 8 := 1

def SCOPE_RESOURCE : BitVec 8 := 2

def SCOPE_EVENTS : BitVec 8 := 4

def SCOPE_BODY : BitVec 8 := 8

def signalBit : IngestSignal → BitVec 8
  | .traces => SIGNAL_TRACES
  | .logs => SIGNAL_LOGS
  | .metrics => SIGNAL_METRICS

def scopeBit : RedactScope → BitVec 8
  | .attributes => SCOPE_ATTRIBUTES
  | .resource => SCOPE_RESOURCE
  | .events => SCOPE_EVENTS
  | .body => SCOPE_BODY

inductive Operand where
  | none
  | text (value : String)
  | list (values : List String)
  | pattern (regex : Regex)
  | severity (level : ℤ)

structure CompiledCondition where
  field : ConditionField
  key : String
  op : ConditionOp
  operand : Operand

structure Redaction where
  keys : List KeyGlob
  detectors : List Detector
  patterns : List Regex
  scopes : BitVec 8
  method : RedactMethod

inductive CompiledAction where
  | drop (keepPercent : UInt8)
  | redact (redaction : Redaction)

structure CompiledRule where
  signals : BitVec 8
  conditions : List CompiledCondition
  action : CompiledAction

def severityLevel (name : String) : Option ℤ :=
  if name = "trace" then some 1
  else if name = "debug" then some 5
  else if name = "info" then some 9
  else if name = "warn" then some 13
  else if name = "error" then some 17
  else if name = "fatal" then some 21
  else none

/-- The name of an operation as an error prints it. -/
def ConditionOp.debugName : ConditionOp → String
  | .eq => "Eq"
  | .neq => "Neq"
  | .inList => "In"
  | .notIn => "NotIn"
  | .startsWith => "Prefix"
  | .contains => "Contains"
  | .regex => "Regex"
  | .exists' => "Exists"
  | .notExists => "NotExists"
  | .lt => "Lt"
  | .gte => "Gte"

def orError {α : Type} (value : Option α) (reason : String) : Except String α :=
  value.elim (.error reason) .ok

def compileOperand (lib : Libraries) (spec : ConditionSpec) : Except String Operand :=
  match spec.op with
  | .exists' | .notExists => .ok .none
  | .inList | .notIn => do
    return .list (← orError spec.values (spec.op.debugName ++ " needs values"))
  | .lt | .gte => do
    let name ← orError spec.value "severity needs a value"
    return .severity (← orError (severityLevel name) ("unknown severity " ++ name.quote))
  | .regex => do
    let pattern ← orError spec.value "regex needs a value"
    return .pattern (← lib.buildRegex pattern)
  | .eq | .neq | .startsWith | .contains => do
    return .text (← orError spec.value (spec.op.debugName ++ " needs a value"))

def compileCondition (lib : Libraries) (spec : ConditionSpec) : Except String CompiledCondition := do
  return ⟨spec.field, spec.key.getD "", spec.op, ← compileOperand lib spec⟩

def compileAction (lib : Libraries) : ActionSpec → Except String CompiledAction
  | .drop keepPercent => .ok (.drop (min keepPercent 100))
  | .redact keys detectors patterns scopes method => do
    let patterns ← patterns.mapM lib.buildRegex
    return .redact {
      keys := keys.map (KeyGlob.new lib.toLowercase)
      detectors
      patterns
      scopes := scopes.foldl (fun bits scope => bits ||| scopeBit scope) 0
      method }

def compileRule (lib : Libraries) (spec : IngestRuleSpec) : Except String CompiledRule := do
  let conditions ← spec.conditions.mapM (compileCondition lib)
  let action ← compileAction lib spec.action
  return ⟨spec.signals.foldl (fun bits signal => bits ||| signalBit signal) 0, conditions, action⟩

/-- One organisation's rules. -/
structure CompiledRules where
  ids : List String
  rules : List CompiledRule
  signals : BitVec 8
  hashSalt : List UInt8
  /-- A signal a rule reads is among the rules' signals. -/
  covered : ∀ rule ∈ rules, rule.signals &&& signals = rule.signals

/-- A rule that could not be compiled; it is skipped. -/
structure InvalidRule where
  id : String
  reason : String

def CompiledRules.push (compiled : CompiledRules) (id : String) (rule : CompiledRule) :
    CompiledRules where
  ids := compiled.ids ++ [id]
  rules := compiled.rules ++ [rule]
  signals := compiled.signals ||| rule.signals
  hashSalt := compiled.hashSalt
  covered := by
    intro earlier hearlier
    rcases List.mem_append.mp hearlier with hearlier | hearlier
    · have hcovered := compiled.covered earlier hearlier
      rw [← hcovered]
      ext i
      simp
      tauto
    · rw [List.mem_singleton.mp hearlier]
      ext i
      simp
      tauto

/-- Compiles the rules in order; one that fails to compile is reported and skipped. -/
def CompiledRules.compile (lib : Libraries) (rules : List (String × IngestRuleSpec))
    (hashSalt : String) : CompiledRules × List InvalidRule :=
  rules.foldl
    (fun (compiled, invalid) (id, spec) =>
      match compileRule lib spec with
      | .ok rule => (compiled.push id rule, invalid)
      | .error reason => (compiled, invalid ++ [⟨id, reason⟩]))
    (⟨[], [], 0, hashSalt.toUTF8.toList, by simp⟩, [])

def CompiledRules.reads (compiled : CompiledRules) (signal : BitVec 8) : Bool :=
  compiled.signals &&& signal != 0

/-! ### Conditions -/

/-- A value as a condition sees it. -/
inductive Probe where
  | missing
  /-- Present, but bytes, an array or a list of entries: only `exists` matches it. -/
  | notText
  | text (text : String)

def probeValue (lib : Libraries) (value : Option AnyValue) : Probe :=
  match value.bind AnyValue.value with
  | some (.stringValue text) => .text text
  | some (.intValue int) => .text (toString int)
  | some (.boolValue flag) => .text (if flag then "true" else "false")
  | some (.doubleValue bits) => .text (lib.formatDouble bits)
  | _ => .notText

def findAttribute (lib : Libraries) (attributes : List KeyValue) (key : String) : Probe :=
  match attributes.find? fun kv => kv.key = key with
  | some kv => probeValue lib kv.value
  | none => .missing

def borrowed (text : Option String) : Probe := text.elim .missing .text

/-- Detectors and patterns read at most this many bytes of one string value. -/
def SCAN_BYTES : ℕ := 16 * 1024

/-- How many characters of the text end within `max` bytes. -/
def floorCharBoundary : List Char → ℕ → ℕ
  | [], _ => 0
  | c :: text, max => if c.utf8Size ≤ max then 1 + floorCharBoundary text (max - c.utf8Size) else 0

def CompiledCondition.matchesSeverity (condition : CompiledCondition) (severity : Option ℤ) : Bool :=
  match severity, condition.operand with
  | some severity, .severity level =>
    match condition.op with
    | .lt => severity < level
    | .gte => level ≤ severity
    | _ => false
  | _, _ => false

def CompiledCondition.matchesProbe (condition : CompiledCondition) : Probe → Bool
  | .missing =>
    match condition.op with
    | .neq | .notIn | .notExists => true
    | _ => false
  | .notText => condition.op = .exists'
  | .text text =>
    match condition.operand, condition.op with
    | _, .exists' => true
    | .text value, .eq => text = value
    | .text value, .neq => text ≠ value
    | .text value, .startsWith => value.toList.isPrefixOf text.toList
    | .text value, .contains => decide (value.toList <:+: text.toList)
    | .list values, .inList => values.contains text
    | .list values, .notIn => !values.contains text
    | .pattern pattern, .regex =>
      pattern.isMatch (text.toList.take (floorCharBoundary text.toList SCAN_BYTES))
    | _, _ => false

def CompiledCondition.matches (lib : Libraries) (condition : CompiledCondition)
    (record : RecordView) : Bool :=
  match condition.field with
  | .serviceName =>
    condition.matchesProbe <|
      match findAttribute lib record.resource "service.name" with
      | .missing => .text ""
      | found => found
  | .name => condition.matchesProbe (borrowed record.name)
  | .attribute => condition.matchesProbe (findAttribute lib record.attributes condition.key)
  | .resourceAttribute => condition.matchesProbe (findAttribute lib record.resource condition.key)
  | .body =>
    condition.matchesProbe <|
      if (record.body.bind AnyValue.value).isSome then probeValue lib record.body else .missing
  | .severity => condition.matchesSeverity record.severity
  | .spanKind => condition.matchesProbe (borrowed record.spanKind)
  | .spanStatus => condition.matchesProbe (borrowed record.spanStatus)

def CompiledRule.matches (lib : Libraries) (rule : CompiledRule) (signal : BitVec 8)
    (record : RecordView) : Bool :=
  rule.signals &&& signal != 0 && rule.conditions.all (·.matches lib record)

/-- Rules none of which reads the signal match no record of it. -/
lemma matches_of_not_reads {lib : Libraries} {compiled : CompiledRules} {signal : BitVec 8}
    (hreads : compiled.reads signal = false) {rule : CompiledRule} (hmem : rule ∈ compiled.rules)
    (record : RecordView) : rule.matches lib signal record = false := by
  have hnone : compiled.signals &&& signal = 0 := by simpa [CompiledRules.reads] using hreads
  have hrule : rule.signals &&& signal = 0 := by
    rw [← compiled.covered rule hmem, BitVec.and_assoc, hnone]
    simp
  simp [CompiledRule.matches, hrule]

/-! ### Sampling -/

def pushHex (bytes : List UInt8) : List UInt8 :=
  let digit (n : UInt8) : UInt8 := if n < 10 then n + 48 else n + 87
  bytes.flatMap fun (byte : UInt8) => [digit (byte >>> 4), digit (byte &&& 0x0f)]

/-- The next draw of the thread's generator, and its state after it. -/
def randomU64 (state : UInt64) : UInt64 × UInt64 :=
  let next := state + 0x9e3779b97f4a7c15
  let z := (next ^^^ (next >>> 30)) * 0xbf58476d1ce4e5b9
  let z := (z ^^^ (z >>> 27)) * 0x94d049bb133111eb
  (z ^^^ (z >>> 31), next)

/-- The bucket of a trace, in 0..100. -/
def traceBucket (lib : Libraries) (traceId : List UInt8) : ℕ :=
  ((lib.sha256 (pushHex traceId)).take 8).foldl (fun n byte => 256 * n + byte.toNat) 0 % 100

/-- A record's sampling bucket: stable per trace id, random without one. -/
def sampleBucket (lib : Libraries) (traceId : List UInt8) (state : UInt64) : ℕ × UInt64 :=
  if traceId.isEmpty then
    let (draw, state) := randomU64 state
    (draw.toNat % 100, state)
  else (traceBucket lib traceId, state)

end Maple.IngestGateway
