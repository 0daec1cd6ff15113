import Maple.PromOtlp

/-! Splitting an export request into requests of bounded size. -/

namespace Maple.Prometheus

def metricDataPointCount (metric : OtlpMetric) : ℕ :=
  (metric.gauge.map fun gauge => gauge.dataPoints.length).getD 0 +
    (metric.sum.map fun sum => sum.dataPoints.length).getD 0 +
    (metric.histogram.map fun histogram => histogram.dataPoints.length).getD 0

def countDataPoints (request : OtlpExportRequest) : ℕ :=
  (request.resourceMetrics.map fun resourceMetrics =>
    (resourceMetrics.scopeMetrics.map fun scopeMetrics =>
      (scopeMetrics.metrics.map metricDataPointCount).sum).sum).sum

structure MetricSlicer where
  count : ℕ
  slice : ℕ → ℕ → OtlpMetric

def slice {α : Type} (items : List α) (start stop : ℕ) : List α :=
  (items.take stop).drop start

/-- A metric's head: a slice of it has one aggregation only. -/
def headOf (metric : OtlpMetric) : OtlpMetric :=
  { name := metric.name, description := metric.description, unit := metric.unit }

def slicerFor (metric : OtlpMetric) : MetricSlicer :=
  match metric.gauge, metric.sum, metric.histogram with
  | some gauge, _, _ =>
    { count := gauge.dataPoints.length
      slice := fun start stop => { headOf metric with
        gauge := some { dataPoints := slice gauge.dataPoints start stop } } }
  | none, some sum, _ =>
    { count := sum.dataPoints.length
      slice := fun start stop => { headOf metric with
        sum := some { sum with dataPoints := slice sum.dataPoints start stop } } }
  | none, none, some histogram =>
    { count := histogram.dataPoints.length
      slice := fun start stop => { headOf metric with
        histogram := some { histogram with
          dataPoints := slice histogram.dataPoints start stop } } }
  | none, none, none => { count := 0, slice := fun _ _ => metric }

/-- The loops' variables. The open chunk always has room for a point. -/
structure SplitState (maxDataPoints : ℕ) where
  chunks : List OtlpExportRequest
  chunk : List ResourceMetrics
  metrics : List OtlpMetric
  batched : ℕ
  room : batched < maxDataPoints

namespace SplitState
variable {maxDataPoints : ℕ}

def flush (state : SplitState maxDataPoints) : SplitState maxDataPoints where
  chunks := if state.chunk.isEmpty then state.chunks
    else state.chunks ++ [{ resourceMetrics := state.chunk }]
  chunk := []
  metrics := state.metrics
  batched := 0
  room := Nat.zero_lt_of_lt state.room

def close (resource : List OtlpKeyValue) (scope : String) (state : SplitState maxDataPoints) :
    SplitState maxDataPoints :=
  if state.metrics.isEmpty then state
  else { state with
    chunk := state.chunk ++ [
      { attributes := resource
        scopeMetrics := [{ scopeName := scope, metrics := state.metrics }] }]
    metrics := [] }

/-- Add a slice of some points, and begin a new chunk when the open one is full. -/
def push (resource : List OtlpKeyValue) (scope : String) (state : SplitState maxDataPoints)
    (metric : OtlpMetric) (take : ℕ) : SplitState maxDataPoints :=
  let metrics := state.metrics ++ [metric]
  if hfull : maxDataPoints ≤ state.batched + take then
    (close resource scope { state with metrics }).flush
  else { state with
    metrics
    batched := state.batched + take
    room := not_le.mp hfull }

def pushMetric (resource : List OtlpKeyValue) (scope : String) (slicer : MetricSlicer)
    (state : SplitState maxDataPoints) (offset : ℕ) : SplitState maxDataPoints :=
  if offset < slicer.count then
    let take := min (maxDataPoints - state.batched) (slicer.count - offset)
    pushMetric resource scope slicer
      (state.push resource scope (slicer.slice offset (offset + take)) take) (offset + take)
  else state
termination_by slicer.count - offset
decreasing_by
  have hroom := state.room
  omega

end SplitState

inductive PointValue
  | gauge (point : OtlpNumberDataPoint)
  | sum (aggregationTemporality : Number) (isMonotonic : Bool) (point : OtlpNumberDataPoint)
  | histogram (aggregationTemporality : Number) (point : OtlpHistogramDataPoint)
deriving DecidableEq, Repr

/-- A data point with all it is found under. -/
structure PlacedPoint where
  resource : List OtlpKeyValue
  scope : String
  name : String
  description : String
  unit : String
  value : PointValue
deriving DecidableEq, Repr

def OtlpMetric.values (metric : OtlpMetric) : List PointValue :=
  metric.gauge.toList.flatMap (fun gauge => gauge.dataPoints.map .gauge) ++
    metric.sum.toList.flatMap (fun sum =>
      sum.dataPoints.map (.sum sum.aggregationTemporality sum.isMonotonic)) ++
    metric.histogram.toList.flatMap (fun histogram =>
      histogram.dataPoints.map (.histogram histogram.aggregationTemporality))

def OtlpMetric.placed (resource : List OtlpKeyValue) (scope : String) (metric : OtlpMetric) :
    List PlacedPoint :=
  metric.values.map fun value =>
    { resource, scope, value
      name := metric.name
      description := metric.description
      unit := metric.unit }

def ResourceMetrics.placed (resourceMetrics : ResourceMetrics) : List PlacedPoint :=
  resourceMetrics.scopeMetrics.flatMap fun scopeMetrics =>
    scopeMetrics.metrics.flatMap
      (OtlpMetric.placed resourceMetrics.attributes scopeMetrics.scopeName)

/-- The data points of a request, read in order. -/
def OtlpExportRequest.placed (request : OtlpExportRequest) : List PlacedPoint :=
  request.resourceMetrics.flatMap ResourceMetrics.placed

/-- Of its three aggregations a metric has one at most. -/
def OtlpMetric.Single (metric : OtlpMetric) : Prop :=
  (metric.gauge = none ∨ metric.sum = none) ∧ (metric.gauge = none ∨ metric.histogram = none) ∧
    (metric.sum = none ∨ metric.histogram = none)

def OtlpExportRequest.All (P : OtlpMetric → Prop) (request : OtlpExportRequest) : Prop :=
  ∀ resourceMetrics ∈ request.resourceMetrics, ∀ scopeMetrics ∈ resourceMetrics.scopeMetrics,
    ∀ metric ∈ scopeMetrics.metrics, P metric

lemma length_values (metric : OtlpMetric) : metric.values.length = metricDataPointCount metric := by
  obtain ⟨name, description, unit, gauge, sum, histogram⟩ := metric
  cases gauge <;> cases sum <;> cases histogram <;>
    simp [OtlpMetric.values, metricDataPointCount, Nat.add_assoc]

lemma length_placed (request : OtlpExportRequest) :
    request.placed.length = countDataPoints request := by
  simp [OtlpExportRequest.placed, ResourceMetrics.placed, OtlpMetric.placed, countDataPoints,
    List.length_flatMap, length_values]

/-! ### Slices -/

/-- The points a slicer slices: those of the first aggregation there is. -/
def OtlpMetric.sliced (metric : OtlpMetric) : List PointValue :=
  ((slicerFor metric).slice 0 (slicerFor metric).count).values

lemma values_slice (metric : OtlpMetric) (start stop : ℕ) :
    ((slicerFor metric).slice start stop).values = slice metric.sliced start stop := by
  obtain ⟨name, description, unit, gauge, sum, histogram⟩ := metric
  cases gauge with
  | some gauge =>
    simp [OtlpMetric.sliced, slicerFor, OtlpMetric.values, slice, headOf, List.map_take,
      List.map_drop]
  | none =>
    cases sum with
    | some sum =>
      simp [OtlpMetric.sliced, slicerFor, OtlpMetric.values, slice, headOf, List.map_take,
        List.map_drop]
    | none =>
      cases histogram with
      | some histogram =>
        simp [OtlpMetric.sliced, slicerFor, OtlpMetric.values, slice, headOf, List.map_take,
          List.map_drop]
      | none => simp [OtlpMetric.sliced, slicerFor, OtlpMetric.values, slice]

lemma length_sliced (metric : OtlpMetric) : metric.sliced.length = (slicerFor metric).count := by
  obtain ⟨name, description, unit, gauge, sum, histogram⟩ := metric
  cases gauge <;> cases sum <;> cases histogram <;>
    simp [OtlpMetric.sliced, slicerFor, OtlpMetric.values, slice, headOf]

lemma head_slice (metric : OtlpMetric) (start stop : ℕ) :
    ((slicerFor metric).slice start stop).name = metric.name ∧
      ((slicerFor metric).slice start stop).description = metric.description ∧
      ((slicerFor metric).slice start stop).unit = metric.unit := by
  obtain ⟨name, description, unit, gauge, sum, histogram⟩ := metric
  cases gauge <;> cases sum <;> cases histogram <;> exact ⟨rfl, rfl, rfl⟩

/-- The points a metric's slices carry, in place. -/
def OtlpMetric.slicedPlaced (resource : List OtlpKeyValue) (scope : String) (metric : OtlpMetric) :
    List PlacedPoint :=
  metric.sliced.map fun value =>
    { resource, scope, value
      name := metric.name
      description := metric.description
      unit := metric.unit }

lemma placed_slice (resource : List OtlpKeyValue) (scope : String) (metric : OtlpMetric)
    (start stop : ℕ) :
    ((slicerFor metric).slice start stop).placed resource scope =
      slice (metric.slicedPlaced resource scope) start stop := by
  obtain ⟨hname, hdescription, hunit⟩ := head_slice metric start stop
  rw [OtlpMetric.placed, values_slice, hname, hdescription, hunit, OtlpMetric.slicedPlaced, slice,
    slice, List.map_drop, List.map_take]

def OtlpExportRequest.slicedPlaced (request : OtlpExportRequest) : List PlacedPoint :=
  request.resourceMetrics.flatMap fun resourceMetrics =>
    resourceMetrics.scopeMetrics.flatMap fun scopeMetrics =>
      scopeMetrics.metrics.flatMap
        (OtlpMetric.slicedPlaced resourceMetrics.attributes scopeMetrics.scopeName)

/-- What a state has taken in: all closed chunks are full, the open one has what is batched. -/
structure Fills {maxDataPoints : ℕ} (P : OtlpMetric → Prop) (resource : List OtlpKeyValue)
    (scope : String) (state : SplitState maxDataPoints) (done : List PlacedPoint) : Prop where
  points : state.chunks.flatMap OtlpExportRequest.placed ++
    (state.chunk.flatMap ResourceMetrics.placed ++
      state.metrics.flatMap (OtlpMetric.placed resource scope)) = done
  full : ∀ chunk ∈ state.chunks, countDataPoints chunk = maxDataPoints
  batched : (state.chunk.flatMap ResourceMetrics.placed ++
    state.metrics.flatMap (OtlpMetric.placed resource scope)).length = state.batched
  closed : ∀ chunk ∈ state.chunks, chunk.All P
  chunk : OtlpExportRequest.All P { resourceMetrics := state.chunk }
  metrics : ∀ metric ∈ state.metrics, P metric

section Loops
variable {maxDataPoints : ℕ} {P : OtlpMetric → Prop} {resource : List OtlpKeyValue}
  {scope : String} {state : SplitState maxDataPoints} {done : List PlacedPoint}

lemma close_metrics : (state.close resource scope).metrics = [] := by
  unfold SplitState.close
  split_ifs with hempty
  · exact List.isEmpty_iff.mp hempty
  · rfl

lemma close_chunks : (state.close resource scope).chunks = state.chunks ∧
    (state.close resource scope).batched = state.batched := by
  unfold SplitState.close
  split_ifs
  · exact ⟨rfl, rfl⟩
  · exact ⟨rfl, rfl⟩

lemma close_chunk : (state.close resource scope).chunk.flatMap ResourceMetrics.placed =
    state.chunk.flatMap ResourceMetrics.placed ++
      state.metrics.flatMap (OtlpMetric.placed resource scope) := by
  unfold SplitState.close
  split_ifs with hempty
  · rw [List.isEmpty_iff.mp hempty, List.flatMap_nil, List.append_nil]
  · simp [ResourceMetrics.placed]

lemma close_all (hchunk : OtlpExportRequest.All P { resourceMetrics := state.chunk })
    (hmetrics : ∀ metric ∈ state.metrics, P metric) :
    OtlpExportRequest.All P { resourceMetrics := (state.close resource scope).chunk } := by
  unfold SplitState.close
  split_ifs
  · exact hchunk
  · intro resourceMetrics hresource
    rcases List.mem_append.mp hresource with hresource | hresource
    · exact hchunk resourceMetrics hresource
    · rw [List.mem_singleton] at hresource
      intro scopeMetrics hscope
      rw [hresource] at hscope
      rw [List.mem_singleton.mp hscope]
      exact hmetrics

lemma flush_points : state.flush.chunks.flatMap OtlpExportRequest.placed =
    state.chunks.flatMap OtlpExportRequest.placed ++
      state.chunk.flatMap ResourceMetrics.placed := by
  unfold SplitState.flush
  cases hempty : state.chunk.isEmpty with
  | true => simp [List.isEmpty_iff.mp hempty]
  | false => simp [OtlpExportRequest.placed]

lemma mem_flush {chunk : OtlpExportRequest} (h : chunk ∈ state.flush.chunks) :
    chunk ∈ state.chunks ∨ chunk = { resourceMetrics := state.chunk } := by
  unfold SplitState.flush at h
  cases hempty : state.chunk.isEmpty with
  | true => exact Or.inl (by simpa [hempty] using h)
  | false => simpa [hempty] using h

/-- Closing a scope puts its points in the open chunk. -/
lemma Fills.close (h : Fills P resource scope state done) (resource' : List OtlpKeyValue)
    (scope' : String) : Fills P resource' scope' (state.close resource scope) done := by
  have hpoints : (state.close resource scope).chunk.flatMap ResourceMetrics.placed ++
      (state.close resource scope).metrics.flatMap (OtlpMetric.placed resource' scope') =
        state.chunk.flatMap ResourceMetrics.placed ++
          state.metrics.flatMap (OtlpMetric.placed resource scope) := by
    rw [close_metrics, List.flatMap_nil, List.append_nil, close_chunk]
  refine ⟨?_, ?_, ?_, ?_, close_all h.chunk h.metrics, ?_⟩
  · rw [hpoints, close_chunks.1]
    exact h.points
  · rw [close_chunks.1]
    exact h.full
  · rw [hpoints, close_chunks.2]
    exact h.batched
  · rw [close_chunks.1]
    exact h.closed
  · rw [close_metrics]
    simp

/-- Between scopes nothing is open. -/
lemma Fills.reopen (h : Fills P resource scope state done) (hmetrics : state.metrics = [])
    (resource' : List OtlpKeyValue) (scope' : String) : Fills P resource' scope' state done := by
  have hpoints := h.points
  have hbatched := h.batched
  rw [hmetrics, List.flatMap_nil, List.append_nil] at hpoints hbatched
  refine ⟨?_, h.full, ?_, h.closed, h.chunk, h.metrics⟩
  · rw [hmetrics, List.flatMap_nil, List.append_nil]
    exact hpoints
  · rw [hmetrics, List.flatMap_nil, List.append_nil]
    exact hbatched

/-- A slice that fits is added, and a chunk that is full is put away. -/
lemma Fills.push (h : Fills P resource scope state done) {metric : OtlpMetric} (hP : P metric)
    {take : ℕ} (htake : (metric.placed resource scope).length = take)
    (hfits : state.batched + take ≤ maxDataPoints) :
    Fills P resource scope (state.push resource scope metric take)
      (done ++ metric.placed resource scope) := by
  have hmetrics : ∀ other ∈ state.metrics ++ [metric], P other := by
    intro other hother
    rcases List.mem_append.mp hother with hother | hother
    · exact h.metrics other hother
    · rw [List.mem_singleton.mp hother]
      exact hP
  have hopen : state.chunk.flatMap ResourceMetrics.placed ++
      (state.metrics ++ [metric]).flatMap (OtlpMetric.placed resource scope) =
        state.chunk.flatMap ResourceMetrics.placed ++
          state.metrics.flatMap (OtlpMetric.placed resource scope) ++
          metric.placed resource scope := by
    simp
  have hlength : (state.chunk.flatMap ResourceMetrics.placed ++
      (state.metrics ++ [metric]).flatMap (OtlpMetric.placed resource scope)).length =
        state.batched + take := by
    rw [hopen, List.length_append, h.batched, htake]
  have hdone : state.chunks.flatMap OtlpExportRequest.placed ++
      (state.chunk.flatMap ResourceMetrics.placed ++
        (state.metrics ++ [metric]).flatMap (OtlpMetric.placed resource scope)) =
          done ++ metric.placed resource scope := by
    rw [hopen, ← h.points]
    simp
  unfold SplitState.push
  split_ifs with hfull
  · set filled : SplitState maxDataPoints := { state with metrics := state.metrics ++ [metric] }
    have hchunk : (filled.close resource scope).chunk.flatMap ResourceMetrics.placed =
        state.chunk.flatMap ResourceMetrics.placed ++
          (state.metrics ++ [metric]).flatMap (OtlpMetric.placed resource scope) := close_chunk
    have hnone : (filled.close resource scope).flush.metrics = [] := close_metrics
    refine ⟨?_, ?_, ?_, ?_, by simp [OtlpExportRequest.All, SplitState.flush], ?_⟩
    · rw [flush_points, hnone, hchunk, close_chunks.1]
      simpa [SplitState.flush] using hdone
    · intro chunk hmem
      rcases mem_flush hmem with hmem | rfl
      · rw [close_chunks.1] at hmem
        exact h.full chunk hmem
      · rw [← length_placed, OtlpExportRequest.placed, hchunk, hlength]
        omega
    · rw [hnone]
      simp [SplitState.flush]
    · intro chunk hmem
      rcases mem_flush hmem with hmem | rfl
      · rw [close_chunks.1] at hmem
        exact h.closed chunk hmem
      · exact close_all h.chunk hmetrics
    · rw [hnone]
      simp
  · exact ⟨hdone, h.full, hlength, h.closed, h.chunk, hmetrics⟩

lemma slice_split {α : Type} (items : List α) {start middle stop : ℕ} (hstart : start ≤ middle)
    (hmiddle : middle ≤ stop) :
    slice items start middle ++ slice items middle stop = slice items start stop := by
  have htake : items.take middle = (items.take stop).take middle := by
    rw [List.take_take, min_eq_left hmiddle]
  have hdrop : (items.take stop).drop middle =
      ((items.take stop).drop start).drop (middle - start) := by
    rw [List.drop_drop]
    congr 1
    omega
  rw [slice, slice, slice, htake, List.drop_take, hdrop, List.take_append_drop]

lemma length_slicedPlaced (metric : OtlpMetric) :
    (metric.slicedPlaced resource scope).length = (slicerFor metric).count := by
  rw [OtlpMetric.slicedPlaced, List.length_map, length_sliced]

/-- All of a metric's points from an offset on are taken in, slice after slice. -/
lemma Fills.pushMetric (metric : OtlpMetric)
    (hP : ∀ start stop, P ((slicerFor metric).slice start stop)) (state : SplitState maxDataPoints)
    (offset : ℕ) (done : List PlacedPoint) (h : Fills P resource scope state done) :
    Fills P resource scope (state.pushMetric resource scope (slicerFor metric) offset)
      (done ++ slice (metric.slicedPlaced resource scope) offset (slicerFor metric).count) := by
  induction state, offset using SplitState.pushMetric.induct resource scope (slicerFor metric)
    generalizing done with
  | case1 state offset hlt take ih =>
    have hroom := state.room
    have htake : take = min (maxDataPoints - state.batched) ((slicerFor metric).count - offset) :=
      rfl
    rw [SplitState.pushMetric, if_pos hlt]
    have hslice : ((slicerFor metric).slice offset (offset + take)).placed resource scope =
        slice (metric.slicedPlaced resource scope) offset (offset + take) :=
      placed_slice resource scope metric offset (offset + take)
    have hlength : (((slicerFor metric).slice offset (offset + take)).placed resource
        scope).length = take := by
      rw [hslice, slice, List.length_drop, List.length_take, length_slicedPlaced]
      omega
    have hnext := ih _ (h.push (hP offset (offset + take)) hlength (by omega))
    rw [hslice, List.append_assoc, slice_split _ (by omega) (by omega)] at hnext
    exact hnext
  | case2 state offset hge =>
    rw [SplitState.pushMetric, if_neg hge]
    have hnone : slice (metric.slicedPlaced resource scope) offset (slicerFor metric).count = [] := by
      rw [slice, List.drop_eq_nil_iff, List.length_take]
      omega
    rw [hnone, List.append_nil]
    exact h

/-- Between scopes nothing is open: the points are all in chunks. -/
structure Packed (P : OtlpMetric → Prop) (state : SplitState maxDataPoints)
    (done : List PlacedPoint) : Prop where
  fills : Fills P [] "" state done
  none_open : state.metrics = []

end Loops

end Maple.Prometheus
