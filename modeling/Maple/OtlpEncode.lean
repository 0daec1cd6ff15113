import Maple.JsonText
import Maple.OtlpSplit

/-! The bodies of an export request: its JSON text in UTF-8, split until each fits. -/

namespace Maple.Prometheus

section Render
variable (render : ℚ → String)

/-- JSON has no other numbers than finite ones. -/
def numberJson : Number → Json
  | .finite value => .number (render value)
  | _ => .null

def keyValueJson (pair : OtlpKeyValue) : Json :=
  .object [("key", .string pair.key),
    ("value", .object [("stringValue", .string pair.stringValue)])]

def attributesJson (attributes : List OtlpKeyValue) : Json := .array (attributes.map keyValueJson)

def numberPointJson (point : OtlpNumberDataPoint) : Json :=
  .object [("attributes", attributesJson point.attributes),
    ("startTimeUnixNano", .string point.startTimeUnixNano),
    ("timeUnixNano", .string point.timeUnixNano),
    ("asDouble", numberJson render point.asDouble)]

def histogramPointJson (point : OtlpHistogramDataPoint) : Json :=
  .object (Json.record [("attributes", some (attributesJson point.attributes)),
    ("startTimeUnixNano", some (.string point.startTimeUnixNano)),
    ("timeUnixNano", some (.string point.timeUnixNano)),
    ("count", some (numberJson render point.count)),
    ("sum", point.sum.map (numberJson render)),
    ("bucketCounts", some (.array (point.bucketCounts.map (numberJson render)))),
    ("explicitBounds", some (.array (point.explicitBounds.map (numberJson render))))])

def gaugeJson (gauge : OtlpGauge) : Json :=
  .object [("dataPoints", .array (gauge.dataPoints.map (numberPointJson render)))]

def sumJson (sum : OtlpSum) : Json :=
  .object [("dataPoints", .array (sum.dataPoints.map (numberPointJson render))),
    ("aggregationTemporality", numberJson render sum.aggregationTemporality),
    ("isMonotonic", .bool sum.isMonotonic)]

def histogramJson (histogram : OtlpHistogram) : Json :=
  .object [("dataPoints", .array (histogram.dataPoints.map (histogramPointJson render))),
    ("aggregationTemporality", numberJson render histogram.aggregationTemporality)]

def metricJson (metric : OtlpMetric) : Json :=
  .object (Json.record [("name", some (.string metric.name)),
    ("description", some (.string metric.description)),
    ("unit", some (.string metric.unit)),
    ("gauge", metric.gauge.map (gaugeJson render)),
    ("sum", metric.sum.map (sumJson render)),
    ("histogram", metric.histogram.map (histogramJson render))])

def scopeMetricsJson (scopeMetrics : ScopeMetrics) : Json :=
  .object [("scope", .object [("name", .string scopeMetrics.scopeName)]),
    ("metrics", .array (scopeMetrics.metrics.map (metricJson render)))]

def resourceMetricsJson (resourceMetrics : ResourceMetrics) : Json :=
  .object [("resource", .object [("attributes", attributesJson resourceMetrics.attributes)]),
    ("scopeMetrics", .array (resourceMetrics.scopeMetrics.map (scopeMetricsJson render)))]

def requestJson (request : OtlpExportRequest) : Json :=
  .object [("resourceMetrics", .array (request.resourceMetrics.map (resourceMetricsJson render)))]

/-- The text of a request in UTF-8. The order of an object's keys does not change its length. -/
def encodeBody (request : OtlpExportRequest) : List UInt8 :=
  (Json.stringify (requestJson render request)).flatMap String.utf8EncodeChar

end Render

/-! ### What a body says -/

def OtlpHistogramDataPoint.Finite (point : OtlpHistogramDataPoint) : Prop :=
  point.count.isFinite ∧ (∀ sum ∈ point.sum, sum.isFinite) ∧
    (∀ count ∈ point.bucketCounts, count.isFinite) ∧
    ∀ bound ∈ point.explicitBounds, bound.isFinite

/-- All numbers of a metric are finite. -/
structure OtlpMetric.Finite (metric : OtlpMetric) : Prop where
  gauge : ∀ gauge ∈ metric.gauge, ∀ point ∈ gauge.dataPoints, point.asDouble.isFinite
  sum : ∀ sum ∈ metric.sum, sum.aggregationTemporality.isFinite ∧
    ∀ point ∈ sum.dataPoints, point.asDouble.isFinite
  histogram : ∀ histogram ∈ metric.histogram, histogram.aggregationTemporality.isFinite ∧
    ∀ point ∈ histogram.dataPoints, point.Finite

section Injective
variable {render : ℚ → String}

end Injective

/-! ### Splitting by bytes -/

section Encode
variable (render : ℚ → String) (maxBytes : ℚ)

/-- With one aggregation at most, and only numbers JSON can carry. -/
def Sendable (metric : OtlpMetric) : Prop := metric.Single ∧ metric.Finite

/-- Bodies of requests with the given points, each within both limits as far as it can be. -/
def Carried (maxDataPoints : ℕ) (points : List PlacedPoint) (bodies : List (List UInt8)) : Prop :=
  ∃ requests : List OtlpExportRequest, bodies = requests.map (encodeBody render) ∧
    requests.flatMap OtlpExportRequest.placed = points ∧
    ∀ request ∈ requests, request.All Sendable ∧ countDataPoints request ≤ maxDataPoints ∧
      ((encodeBody render request).length ≤ maxBytes ∨ countDataPoints request ≤ 1)

variable {render maxBytes}

lemma Carried.mono {maxDataPoints limit : ℕ} {points : List PlacedPoint}
    {bodies : List (List UInt8)} (h : Carried render maxBytes maxDataPoints points bodies)
    (hlimit : maxDataPoints ≤ limit) : Carried render maxBytes limit points bodies := by
  obtain ⟨requests, hbodies, hpoints, hall⟩ := h
  refine ⟨requests, hbodies, hpoints, fun request hrequest => ?_⟩
  obtain ⟨hsendable, hcount, hfits⟩ := hall request hrequest
  exact ⟨hsendable, hcount.trans hlimit, hfits⟩

/-- Bodies of parts, one after the other. -/
lemma Carried.flatMap {α : Type} {maxDataPoints : ℕ} {parts : List α}
    {points : α → List PlacedPoint} {bodies : α → List (List UInt8)}
    (h : ∀ part ∈ parts, Carried render maxBytes maxDataPoints (points part) (bodies part)) :
    Carried render maxBytes maxDataPoints (parts.flatMap points) (parts.flatMap bodies) := by
  induction parts with
  | nil => exact ⟨[], rfl, rfl, by simp⟩
  | cons part parts ih =>
    obtain ⟨requests, hbodies, hpoints, hall⟩ := h part List.mem_cons_self
    obtain ⟨requests', hbodies', hpoints', hall'⟩ :=
      ih fun other hother => h other (List.mem_cons_of_mem _ hother)
    refine ⟨requests ++ requests', ?_, ?_, ?_⟩
    · rw [List.flatMap_cons, hbodies, hbodies', List.map_append]
    · rw [List.flatMap_append, hpoints, hpoints', List.flatMap_cons]
    · intro request hrequest
      rcases List.mem_append.mp hrequest with hrequest | hrequest
      · exact hall request hrequest
      · exact hall' request hrequest

end Encode

/-- The denominator of a fraction, after a point. -/
def fractionText (value : ℚ) : List Char :=
  if value.den = 1 then [] else '.' :: Nat.toDigits 10 value.den

lemma isDigit_of_mem {n : ℕ} {c : Char} (h : c ∈ Nat.toDigits 10 n) : c.isDigit :=
  Nat.isDigit_of_mem_toDigits (by decide) (by decide) h

lemma takeWhile_digits (n : ℕ) (value : ℚ) :
    (Nat.toDigits 10 n ++ fractionText value).takeWhile Char.isDigit = Nat.toDigits 10 n := by
  rw [List.takeWhile_append_of_pos fun c hc => isDigit_of_mem hc]
  unfold fractionText
  split_ifs
  · simp
  · simp

end Maple.Prometheus
