import Mathlib
import Maple.KeyedList

/-! A CloudWatch metric stream as the metrics that are stored: every summary point expands into
gauges and delta sums. A text is the list of its characters. The arithmetic of doubles and the
encoder of a resource are parameters. -/

namespace Maple.MetricStream

abbrev Text := List Char

/-! ### Deliveries -/

inductive DimensionValue
  | string (value : Text)
  /-- Anything else, as its bytes. -/
  | other (bytes : List UInt8)
deriving DecidableEq, Repr

inductive AnyValue
  | string (value : Text)
  | kvlist (values : List (Text × DimensionValue))
  | other (bytes : List UInt8)
deriving DecidableEq, Repr

structure KeyValue where
  key : Text
  value : Option AnyValue
deriving DecidableEq, Repr

/-- What is used of a double. -/
structure Doubles (F : Type) where
  zero : F
  one : F
  epsilon : F
  sub : F → F → F
  abs : F → F
  lt : F → F → Bool
  div : F → F → F
  ofCount : ℕ → F

structure SummaryDataPoint (F : Type) where
  attributes : List KeyValue
  startTimeUnixNano : ℕ
  timeUnixNano : ℕ
  count : ℕ
  sum : F
  /-- The quantiles, each with its value. -/
  quantileValues : List (F × F)
  flags : ℕ

structure Metric (F : Type) where
  name : Text
  unit : Text
  /-- The points of a summary; other types are not part of the format. -/
  summary : Option (List (SummaryDataPoint F))

/-- The metrics of each scope. -/
structure ResourceMetrics (F : Type) where
  resource : Option (List KeyValue)
  scopeMetrics : List (List (Metric F))

abbrev ExportMetricsServiceRequest (F : Type) := List (ResourceMetrics F)

structure Connection where
  id : Text
  orgId : Text
  sourceId : Option Text

/-! ### Names -/

/-- Whether an upper-case letter starts a word. -/
def startsWord (previous : Option Char) (current : Char) (next : Option Char) : Bool :=
  current.isUpper &&
    previous.any fun before => before.isLower || (before.isUpper && next.any Char.isLower)

def spaced : Option Char → Text → Text
  | _, [] => []
  | previous, current :: rest =>
    if startsWord previous current rest.head? then
      '_' :: current.toLower :: spaced (some current) rest
    else current.toLower :: spaced (some current) rest

def pushSnake (snake : Text) (current : Char) : Text :=
  let current := if current.isLower || current.isDigit then current else '_'
  if current = '_' ∧ (snake = [] ∨ snake.getLast? = some '_') then snake
  else snake ++ [current]

def snakeCase (name : Text) : Text :=
  (((spaced none name).foldl pushSnake []).reverse.dropWhile (· = '_')).reverse

def stripPrefix (start text : Text) : Option Text :=
  if start.isPrefixOf text then some (text.drop start.length) else none

def normalizeNamespace (space : Text) : Text :=
  let space := (stripPrefix "AWS/".toList space).getD space
  ['.'].intercalate (((space.splitOn '/').map snakeCase).filter fun part => !part.isEmpty)

def metricBaseName (space metricName : Text) : Text :=
  "aws.".toList ++ normalizeNamespace space ++ ['.'] ++ snakeCase metricName

/-! ### The metric of a point -/

def SERVICE_DIMENSIONS : List String :=
  ["ServiceName", "FunctionName", "DBInstanceIdentifier", "DBClusterIdentifier", "LoadBalancer",
    "QueueName", "InstanceId"]

structure CloudWatchMetric where
  space : Text
  metricName : Text
  dimensions : List (Text × Text)
deriving DecidableEq, Repr

/-- The text before the last slash and the text after it. -/
def rsplitSlash (text : Text) : Option (Text × Text) :=
  if '/' ∈ text then
    some ((text.reverse.dropWhile (· ≠ '/')).tail.reverse,
      (text.reverse.takeWhile (· ≠ '/')).reverse)
  else none

structure Found where
  space : Option Text := none
  metricName : Option Text := none
  dimensions : List (Text × Text) := []

def dimensionText : Text × DimensionValue → Option (Text × Text)
  | (key, .string value) => some (key, value)
  | (_, .other _) => none

/-- What one attribute of a point says; a later one wins. -/
def Found.read (found : Found) (entry : KeyValue) : Found :=
  match String.ofList entry.key, entry.value with
  | "Namespace", some (.string value) => { found with space := some value }
  | "MetricName", some (.string value) => { found with metricName := some value }
  | "Dimensions", some (.kvlist values) =>
    { found with dimensions := found.dimensions ++ values.filterMap dimensionText }
  | _, _ => found

variable {F : Type}

def CloudWatchMetric.of (metric : Metric F) (point : SummaryDataPoint F) :
    Option CloudWatchMetric := do
  let found := point.attributes.foldl Found.read {}
  let fromName := (stripPrefix "amazonaws.com/".toList metric.name).bind rsplitSlash
  let space ← found.space <|> fromName.map Prod.fst
  let metricName ← found.metricName <|> fromName.map Prod.snd
  if space.isEmpty || metricName.isEmpty then none
  else some { space, metricName, dimensions := found.dimensions }

namespace CloudWatchMetric

def dimension (metric : CloudWatchMetric) (name : String) : Option Text :=
  (metric.dimensions.find? fun (key, value) => key = name.toList && !value.isEmpty).map Prod.snd

def serviceName (metric : CloudWatchMetric) : Text :=
  (SERVICE_DIMENSIONS.findSome? metric.dimension).getD
    ("aws/".toList ++ normalizeNamespace metric.space)

def cloudPlatform (metric : CloudWatchMetric) : Option String :=
  match String.ofList metric.space with
  | "AWS/ECS" => some "aws_ecs"
  | "ECS/ContainerInsights" => some "aws_ecs"
  | "AWS/Lambda" => some "aws_lambda"
  | "AWS/EC2" => some "aws_ec2"
  | _ => none

end CloudWatchMetric

def attributeOf (key value : Text) : KeyValue := ⟨key, some (.string value)⟩

def CloudWatchMetric.pointAttributes (metric : CloudWatchMetric) : List KeyValue :=
  (metric.dimensions.map fun (name, value) =>
    attributeOf ("aws.dimension.".toList ++ snakeCase name) value) ++
  [attributeOf "aws.namespace".toList metric.space,
    attributeOf "aws.metric_name".toList metric.metricName]

def INGEST_SOURCE : String := "aws-metric-stream"

/-- An incoming attribute that none of the stamped ones replaces. -/
def keptIncoming (entry : KeyValue) : Bool :=
  !"maple_".toList.isPrefixOf entry.key &&
    !(["org_id", "service.name", "cloud.platform"].contains (String.ofList entry.key))

/-- Sorted by key; characters in order are their bytes in order. -/
def CloudWatchMetric.resourceAttributes (metric : CloudWatchMetric) (incoming : List KeyValue)
    (connection : Connection) : List KeyValue :=
  let attributes :=
    incoming.filter keptIncoming ++ [attributeOf "service.name".toList metric.serviceName] ++
    (metric.cloudPlatform.toList.map fun platform =>
      attributeOf "cloud.platform".toList platform.toList) ++
    [attributeOf "maple_org_id".toList connection.orgId,
      attributeOf "maple_ingest_source".toList INGEST_SOURCE.toList,
      attributeOf "maple_ingest_key_type".toList "connector".toList,
      attributeOf "maple_aws_connection_id".toList connection.id] ++
    (connection.sourceId.toList.map fun source => attributeOf "maple_source_id".toList source)
  attributes.insertionSort fun a b => a.key ≤ b.key

/-! ### The stored metrics -/

inductive Kind
  | gauge
  | deltaSum (monotonic : Bool)
deriving DecidableEq, Repr

inductive NumberValue (F : Type)
  | asDouble (value : F)
  | asInt (value : ℕ)
deriving DecidableEq, Repr

structure NumberDataPoint (F : Type) where
  attributes : List KeyValue
  startTimeUnixNano : ℕ
  timeUnixNano : ℕ
  value : NumberValue F
  flags : ℕ

structure StoredMetric (F : Type) where
  name : Text
  unit : Text
  kind : Kind
  points : List (NumberDataPoint F)

/-- The metrics of one resource, by name. -/
structure ResourceGroup (F : Type) where
  attributes : List KeyValue
  metrics : KeyedList Text (StoredMetric F)

def ResourceGroup.push (group : ResourceGroup F) (name unit : Text) (kind : Kind)
    (point : NumberDataPoint F) : ResourceGroup F :=
  { group with
    metrics := group.metrics.upsert name { name, unit, kind, points := [point] } fun metric =>
      { metric with points := metric.points ++ [point] } }

section Doubles
variable (doubles : Doubles F)

def quantile (point : SummaryDataPoint F) (at_ : F) : Option F :=
  (point.quantileValues.find? fun (quantile, _) =>
    doubles.lt (doubles.abs (doubles.sub quantile at_)) doubles.epsilon).map Prod.snd

def I64_MAX : ℕ := 2 ^ 63 - 1

/-- What a point pushes to the group of its resource. -/
def pushPoint (group : ResourceGroup F) (cloudwatch : CloudWatchMetric) (metric : Metric F)
    (point : SummaryDataPoint F) : ResourceGroup F :=
  let base := metricBaseName cloudwatch.space cloudwatch.metricName
  let number (value : NumberValue F) : NumberDataPoint F :=
    { attributes := cloudwatch.pointAttributes
      startTimeUnixNano := point.startTimeUnixNano
      timeUnixNano := point.timeUnixNano
      value
      flags := point.flags }
  let double (value : F) := number (.asDouble value)
  let group :=
    if 0 < point.count then
      group.push base metric.unit .gauge
        (double (doubles.div point.sum (doubles.ofCount point.count)))
    else group
  let group :=
    match quantile doubles point doubles.zero with
    | some min => group.push (base ++ ".min".toList) metric.unit .gauge (double min)
    | none => group
  let group :=
    match quantile doubles point doubles.one with
    | some max => group.push (base ++ ".max".toList) metric.unit .gauge (double max)
    | none => group
  let group :=
    group.push (base ++ ".sum".toList) metric.unit (.deltaSum false) (double point.sum)
  group.push (base ++ ".count".toList) ['1'] (.deltaSum true)
    (number (.asInt (min point.count I64_MAX)))

variable {Bytes : Type} [DecidableEq Bytes] (encode : List KeyValue → Bytes)

/-- The groups by the encoding of their resource. -/
abbrev RequestBuilder (F Bytes : Type) := KeyedList Bytes (ResourceGroup F)

def addPoint (connection : Connection) (builder : RequestBuilder F Bytes)
    (incoming : List KeyValue) (metric : Metric F) (point : SummaryDataPoint F) :
    RequestBuilder F Bytes :=
  match CloudWatchMetric.of metric point with
  | none => builder
  | some cloudwatch =>
    let attributes := cloudwatch.resourceAttributes incoming connection
    let pushed (group : ResourceGroup F) := pushPoint doubles group cloudwatch metric point
    builder.upsert (encode attributes) (pushed { attributes, metrics := .empty }) pushed

/-- Every summary point of a delivery, with its metric and the attributes of its resource. -/
def summaryPoints (requests : List (ExportMetricsServiceRequest F)) :
    List (List KeyValue × Metric F × SummaryDataPoint F) :=
  requests.flatten.flatMap fun resourceMetrics =>
    let incoming := resourceMetrics.resource.getD []
    resourceMetrics.scopeMetrics.flatten.flatMap fun metric =>
      (metric.summary.getD []).map fun point => (incoming, metric, point)

def buildMetricsRequest (connection : Connection)
    (requests : List (ExportMetricsServiceRequest F)) : List (ResourceGroup F) :=
  ((summaryPoints requests).foldl
    (fun builder (incoming, metric, point) =>
      addPoint doubles encode connection builder incoming metric point)
    KeyedList.empty).items

end Doubles

end Maple.MetricStream
