import Maple.InsertMap
import Maple.JsNumber
import Maple.Json
import Maple.KeyGlob

/-! Parsed Prometheus families as an OTLP export request. A record of strings lists its own keys in
the order they were first set; `none` where the source throws. -/

namespace Maple.Prometheus

abbrev Labels := InsertMap String String

inductive PromMetricType
  | counter
  | gauge
  | histogram
  | summary
  | untyped
deriving DecidableEq, Repr

structure PromSample where
  name : String
  labels : Labels
  value : Number
  timestampMs : Option Number

structure PromMetricFamily where
  name : String
  type : PromMetricType
  help : Option String
  unit : Option String
  samples : List PromSample

structure ScrapeOtlpContext where
  resource : Labels
  scopeName : String
  job : String
  instance_ : String
  targetLabels : Labels
  scrapeTimeMs : Number

structure OtlpKeyValue where
  key : String
  stringValue : String
deriving DecidableEq, Repr

structure OtlpNumberDataPoint where
  attributes : List OtlpKeyValue
  startTimeUnixNano : String
  timeUnixNano : String
  asDouble : Number
deriving DecidableEq, Repr

structure OtlpHistogramDataPoint where
  attributes : List OtlpKeyValue
  startTimeUnixNano : String
  timeUnixNano : String
  count : Number
  sum : Option Number
  bucketCounts : List Number
  explicitBounds : List Number
deriving DecidableEq, Repr

structure OtlpGauge where
  dataPoints : List OtlpNumberDataPoint
deriving DecidableEq, Repr

structure OtlpSum where
  dataPoints : List OtlpNumberDataPoint
  aggregationTemporality : Number
  isMonotonic : Bool
deriving DecidableEq, Repr

structure OtlpHistogram where
  dataPoints : List OtlpHistogramDataPoint
  aggregationTemporality : Number
deriving DecidableEq, Repr

structure OtlpMetric where
  name : String
  description : String
  unit : String
  gauge : Option OtlpGauge := none
  sum : Option OtlpSum := none
  histogram : Option OtlpHistogram := none
deriving DecidableEq, Repr

structure ScopeMetrics where
  scopeName : String
  metrics : List OtlpMetric
deriving DecidableEq, Repr

structure ResourceMetrics where
  attributes : List OtlpKeyValue
  scopeMetrics : List ScopeMetrics
deriving DecidableEq, Repr

structure OtlpExportRequest where
  resourceMetrics : List ResourceMetrics
deriving DecidableEq, Repr

structure DataPointCounts where
  sum : ℕ := 0
  gauge : ℕ := 0
  histogram : ℕ := 0
deriving DecidableEq, Repr

structure ConvertedOtlp where
  request : Option OtlpExportRequest
  dataPointCounts : DataPointCounts
  droppedSeriesCount : ℕ

def CUMULATIVE : Number := .finite 2

def EPOCH_NANO : String := "0"

/-- `BigInt` throws for what is not an integer. -/
def bigInt : Number → Option ℤ
  | .finite value => if value.den = 1 then some value.num else none
  | _ => none

def toUnixNano (epochMs : Number) : Option String :=
  (bigInt epochMs.round).map fun ms => toString (ms * 1000000)

/-- The scraped labels over the target's, and both under the two of the system. -/
def mergeAttributes (ctx : ScrapeOtlpContext) (sampleLabels : Labels) : List OtlpKeyValue :=
  let merged := sampleLabels.entries.foldl (fun merged entry => merged.set entry.1 entry.2)
    ctx.targetLabels
  ((merged.set "job" ctx.job).set "instance" ctx.instance_).entries.map fun entry =>
    { key := entry.1, stringValue := entry.2 }

def numberDataPoint (ctx : ScrapeOtlpContext) (labels : Labels) (value : Number)
    (timestampMs : Option Number) : Option OtlpNumberDataPoint :=
  (toUnixNano (timestampMs.getD ctx.scrapeTimeMs)).map fun timeUnixNano =>
    { attributes := mergeAttributes ctx labels
      startTimeUnixNano := EPOCH_NANO
      timeUnixNano
      asDouble := value }

/-- Strings in the order `sort()` puts them in. -/
def unitsLe (a b : String) : Bool := IngestRules.codeUnits a ≤ IngestRules.codeUnits b

def seriesKey (labels : Labels) (exclude : String) : List Char :=
  let keys := (labels.entries.map Prod.fst).filter fun key => key ≠ exclude
  Json.stringify (.array ((keys.insertionSort fun a b => unitsLe a b).map fun key =>
    .array [.string key, .string ((labels.get key).getD "")]))

def withoutLabel (labels : Labels) (name : String) : Labels := labels.erase name

structure Bucket where
  le : Number
  cumulative : Number
deriving DecidableEq, Repr

structure HistogramSeries where
  labels : Labels
  buckets : List Bucket
  sum : Option Number
  count : Option Number
  timestampMs : Option Number

structure ConversionState where
  metrics : List OtlpMetric := []
  counts : DataPointCounts := {}
  dropped : ℕ := 0

def groupByName (samples : List PromSample) : InsertMap String (List PromSample) :=
  InsertMap.groupAll (fun sample => sample.name) samples

inductive NumberKind
  | counter
  | gauge
deriving DecidableEq, Repr

/-- The points of the finite samples, and how many others there are. -/
def numberPoints (ctx : ScrapeOtlpContext) :
    List PromSample → Option (List OtlpNumberDataPoint × ℕ)
  | [] => some ([], 0)
  | sample :: samples =>
    if !sample.value.isFinite then do
      let (points, dropped) ← numberPoints ctx samples
      some (points, dropped + 1)
    else do
      let point ← numberDataPoint ctx sample.labels sample.value sample.timestampMs
      let (points, dropped) ← numberPoints ctx samples
      some (point :: points, dropped)

def convertNumberGroup (family : PromMetricFamily) (ctx : ScrapeOtlpContext) (kind : NumberKind)
    (state : ConversionState) (group : String × List PromSample) : Option ConversionState := do
  let (dataPoints, dropped) ← numberPoints ctx group.2
  let state := { state with dropped := state.dropped + dropped }
  if dataPoints.isEmpty then some state
  else
    let metric : OtlpMetric :=
      { name := group.1, description := family.help.getD "", unit := family.unit.getD "" }
    let counts := state.counts
    match kind with
    | .counter =>
      let sum := { dataPoints, aggregationTemporality := CUMULATIVE, isMonotonic := true }
      some { state with
        metrics := state.metrics ++ [{ metric with sum := some sum }]
        counts := { counts with sum := counts.sum + dataPoints.length } }
    | .gauge =>
      some { state with
        metrics := state.metrics ++ [{ metric with gauge := some { dataPoints } }]
        counts := { counts with gauge := counts.gauge + dataPoints.length } }

def convertNumberFamily (family : PromMetricFamily) (ctx : ScrapeOtlpContext)
    (state : ConversionState) (kind : NumberKind) : Option ConversionState :=
  (groupByName family.samples).entries.foldlM (convertNumberGroup family ctx kind) state

/-! ### Histograms -/

section Histogram
variable (number : String → Number)

/-- The bucket of a sample, unless a part of it is missing or not a number. -/
def bucketOf (sample : PromSample) : Option Bucket :=
  match sample.labels.get "le" with
  | none => none
  | some text =>
    let le := if text = "+Inf" then .infinity false else number text
    if le.isNaN || !sample.value.isFinite then none
    else some { le, cumulative := sample.value }

abbrev SeriesMap := InsertMap (List Char) HistogramSeries

def seriesFor (series : SeriesMap) (sample : PromSample) : HistogramSeries :=
  match series.get (seriesKey sample.labels "le") with
  | some entry => entry
  | none =>
    { labels := withoutLabel sample.labels "le"
      buckets := []
      sum := none
      count := none
      timestampMs := sample.timestampMs }

/-- A sample under the bare family name is ignored. -/
def addSample (family : PromMetricFamily) (acc : SeriesMap × ℕ) (sample : PromSample) :
    SeriesMap × ℕ :=
  let (series, dropped) := acc
  let key := seriesKey sample.labels "le"
  let entry := seriesFor series sample
  if sample.name = family.name ++ "_bucket" then
    match bucketOf number sample with
    | none => (series, dropped + 1)
    | some bucket => (series.set key { entry with buckets := entry.buckets ++ [bucket] }, dropped)
  else if sample.name = family.name ++ "_sum" then
    (series.set key { entry with sum := some sample.value }, dropped)
  else if sample.name = family.name ++ "_count" then
    (series.set key { entry with count := some sample.value }, dropped)
  else acc

def sortBuckets (buckets : List Bucket) : List Bucket :=
  buckets.insertionSort fun a b => Number.le a.le b.le

def totalCount (entry : HistogramSeries) : Option Number :=
  let infBucket := (sortBuckets entry.buckets).find? fun bucket => bucket.le = .infinity false
  entry.count <|> infBucket.map fun bucket => bucket.cumulative

def finiteBuckets (entry : HistogramSeries) : List Bucket :=
  (sortBuckets entry.buckets).filter fun bucket => bucket.le.isFinite

/-- The differences of cumulative counts, up to the total. -/
def bucketCountsFrom (previous total : Number) : List Bucket → List Number
  | [] => [Number.max0 (total.sub previous)]
  | bucket :: buckets =>
    Number.max0 (bucket.cumulative.sub previous) ::
      bucketCountsFrom bucket.cumulative total buckets

/-- The point of a series, unless there is no total. -/
def histogramPoint (ctx : ScrapeOtlpContext) (entry : HistogramSeries) :
    Option (Option OtlpHistogramDataPoint) :=
  match totalCount entry with
  | none => some none
  | some total =>
    if !total.isFinite then some none
    else
      (toUnixNano (entry.timestampMs.getD ctx.scrapeTimeMs)).map fun timeUnixNano =>
        some
          { attributes := mergeAttributes ctx entry.labels
            startTimeUnixNano := EPOCH_NANO
            timeUnixNano
            count := total
            sum := entry.sum.filter fun sum => sum.isFinite
            bucketCounts := bucketCountsFrom (.finite 0) total (finiteBuckets entry)
            explicitBounds := (finiteBuckets entry).map fun bucket => bucket.le }

/-- The points of the series that have a total, and how many others there are. -/
def histogramPoints (ctx : ScrapeOtlpContext) :
    List HistogramSeries → Option (List OtlpHistogramDataPoint × ℕ)
  | [] => some ([], 0)
  | entry :: series => do
    match ← histogramPoint ctx entry with
    | none =>
      let (points, dropped) ← histogramPoints ctx series
      some (points, dropped + 1)
    | some point =>
      let (points, dropped) ← histogramPoints ctx series
      some (point :: points, dropped)

def histogramSeries (family : PromMetricFamily) : SeriesMap × ℕ :=
  family.samples.foldl (addSample number family) (InsertMap.empty, 0)

def convertHistogramFamily (family : PromMetricFamily) (ctx : ScrapeOtlpContext)
    (state : ConversionState) : Option ConversionState := do
  let (series, malformed) := histogramSeries number family
  let (dataPoints, dropped) ← histogramPoints ctx series.values
  let state := { state with dropped := state.dropped + malformed + dropped }
  if dataPoints.isEmpty then some state
  else
    let histogram := { dataPoints, aggregationTemporality := CUMULATIVE }
    let counts := state.counts
    some { state with
      metrics := state.metrics ++ [
        { name := family.name
          description := family.help.getD ""
          unit := family.unit.getD ""
          histogram := some histogram }]
      counts := { counts with histogram := counts.histogram + dataPoints.length } }

end Histogram

/-! ### Summaries -/

structure SummaryPoints where
  sum : List OtlpNumberDataPoint := []
  count : List OtlpNumberDataPoint := []
  quantile : List OtlpNumberDataPoint := []
  dropped : ℕ := 0

def addSummarySample (family : PromMetricFamily) (ctx : ScrapeOtlpContext) (points : SummaryPoints)
    (sample : PromSample) : Option SummaryPoints :=
  if !sample.value.isFinite then some { points with dropped := points.dropped + 1 }
  else do
    let point ← numberDataPoint ctx sample.labels sample.value sample.timestampMs
    if sample.name = family.name ++ "_sum" then
      some { points with sum := points.sum ++ [point] }
    else if sample.name = family.name ++ "_count" then
      some { points with count := points.count ++ [point] }
    else some { points with quantile := points.quantile ++ [point] }

/-- The metrics of a summary: its sums may go down, with negative observations. -/
def summaryMetrics (family : PromMetricFamily) (points : SummaryPoints) : List OtlpMetric :=
  let metric : OtlpMetric :=
    { name := family.name, description := family.help.getD "", unit := family.unit.getD "" }
  let sumOf (dataPoints : List OtlpNumberDataPoint) (isMonotonic : Bool) : OtlpSum :=
    { dataPoints, aggregationTemporality := CUMULATIVE, isMonotonic }
  (if points.sum.isEmpty then []
    else [{ metric with
      name := family.name ++ "_sum"
      sum := some (sumOf points.sum false) }]) ++
  (if points.count.isEmpty then []
    else [{ metric with
      name := family.name ++ "_count"
      sum := some (sumOf points.count true) }]) ++
  (if points.quantile.isEmpty then []
    else [{ metric with gauge := some { dataPoints := points.quantile } }])

def convertSummaryFamily (family : PromMetricFamily) (ctx : ScrapeOtlpContext)
    (state : ConversionState) : Option ConversionState := do
  let points ← family.samples.foldlM (addSummarySample family ctx) {}
  let counts := state.counts
  some
    { metrics := state.metrics ++ summaryMetrics family points
      counts := { counts with
        sum := counts.sum + points.sum.length + points.count.length
        gauge := counts.gauge + points.quantile.length }
      dropped := state.dropped + points.dropped }

/-! ### Families -/

def convertFamily (number : String → Number) (ctx : ScrapeOtlpContext) (state : ConversionState)
    (family : PromMetricFamily) : Option ConversionState :=
  match family.type with
  | .counter => convertNumberFamily family ctx state .counter
  | .gauge => convertNumberFamily family ctx state .gauge
  | .untyped => convertNumberFamily family ctx state .gauge
  | .histogram => convertHistogramFamily number family ctx state
  | .summary => convertSummaryFamily family ctx state

def resourceAttributes (ctx : ScrapeOtlpContext) : List OtlpKeyValue :=
  ctx.resource.entries.map fun entry => { key := entry.1, stringValue := entry.2 }

def convertFamiliesToOtlp (number : String → Number) (families : List PromMetricFamily)
    (ctx : ScrapeOtlpContext) : Option ConvertedOtlp := do
  let state ← families.foldlM (convertFamily number ctx) {}
  let request := { resourceMetrics := [
    { attributes := resourceAttributes ctx
      scopeMetrics := [{ scopeName := ctx.scopeName, metrics := state.metrics }] }] }
  some
    { request := if state.metrics.isEmpty then none else some request
      dataPointCounts := state.counts
      droppedSeriesCount := state.dropped }

end Maple.Prometheus
