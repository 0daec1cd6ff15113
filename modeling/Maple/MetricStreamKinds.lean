import Maple.MetricStream
import Mathlib.Tactic

/-! Which points of a delivery end up in a metric of their own unit and kind. -/

namespace Maple.MetricStream
open List (Perm)

variable {F : Type}

/-- A point with the resource and the metric it is in. -/
structure Placed (F : Type) where
  resource : List KeyValue
  name : Text
  unit : Text
  kind : Kind
  point : NumberDataPoint F

def ResourceGroup.placed (group : ResourceGroup F) : List (Placed F) :=
  group.metrics.items.flatMap fun metric =>
    metric.points.map fun point =>
      ⟨group.attributes, metric.name, metric.unit, metric.kind, point⟩

def placed (groups : List (ResourceGroup F)) : List (Placed F) :=
  groups.flatMap ResourceGroup.placed

/-- Points of one metric have one unit and one kind. -/
def Agree (points : List (Placed F)) : Prop :=
  ∀ a ∈ points, ∀ b ∈ points, a.resource = b.resource → a.name = b.name →
    a.unit = b.unit ∧ a.kind = b.kind

lemma Agree.subset {points more : List (Placed F)} (h : Agree more) (hsub : points ⊆ more) :
    Agree points :=
  fun a ha b hb => h a (hsub ha) b (hsub hb)

lemma Agree.perm {points others : List (Placed F)} (h : Agree points)
    (hperm : Perm points others) : Agree others :=
  h.subset fun _ hmem => hperm.symm.subset hmem

/-! ### The points of a group -/

structure GroupOk (group : ResourceGroup F) : Prop where
  named : KeyedList.Indexed StoredMetric.name group.metrics
  filled : ∀ metric ∈ group.metrics.items, metric.points ≠ []

lemma groupOk_fresh (attributes : List KeyValue) :
    GroupOk (⟨attributes, .empty⟩ : ResourceGroup F) where
  named := KeyedList.indexed_empty _
  filled := by
    intro metric hmetric
    cases hmetric

/-- Push a point under the metric it is meant for. -/
def ResourceGroup.pushPlaced (group : ResourceGroup F) (point : Placed F) : ResourceGroup F :=
  group.push point.name point.unit point.kind point.point

lemma GroupOk.pushPlaced {group : ResourceGroup F} (h : GroupOk group) (point : Placed F) :
    GroupOk (group.pushPlaced point) where
  named := h.named.upsert rfl fun _ => rfl
  filled := by
    intro metric hmetric
    rcases h.named.upsert_cases with ⟨before, old, after, hitems, -, hnew⟩ | ⟨-, hnew⟩
    · have hmem := hnew ▸ hmetric
      rcases List.mem_append.mp hmem with hmem | hmem
      · exact h.filled metric (by simp [hitems, hmem])
      · rcases List.mem_cons.mp hmem with rfl | hmem
        · simp
        · exact h.filled metric (by simp [hitems, hmem])
    · have hmem := hnew ▸ hmetric
      rcases List.mem_append.mp hmem with hmem | hmem
      · exact h.filled metric hmem
      · rw [List.mem_singleton.mp hmem]
        simp

/-- A point that agrees with those of its resource goes where it is meant for. -/
lemma placed_pushPlaced {group : ResourceGroup F} (h : GroupOk group) {point : Placed F}
    (hresource : point.resource = group.attributes) (hagree : Agree (group.placed ++ [point])) :
    Perm (group.pushPlaced point).placed (group.placed ++ [point]) := by
  rcases h.named.upsert_cases with ⟨before, old, after, hitems, hname, hnew⟩ | ⟨-, hnew⟩
  · -- the metric that is there has a point, which agrees with the new one
    obtain ⟨first, hfirst⟩ := List.exists_mem_of_ne_nil _ (h.filled old (by simp [hitems]))
    have hmem : ⟨group.attributes, old.name, old.unit, old.kind, first⟩ ∈ group.placed := by
      rw [ResourceGroup.placed, List.mem_flatMap]
      exact ⟨old, by simp [hitems], List.mem_map_of_mem hfirst⟩
    obtain ⟨hunit, hkind⟩ := hagree _ (List.mem_append_left _ hmem) point
      (List.mem_append_right _ (List.mem_singleton_self _)) hresource.symm hname
    have hpoint : (⟨group.attributes, old.name, old.unit, old.kind, point.point⟩ : Placed F) =
        point := by
      obtain ⟨resource, name, unit, kind, value⟩ := point
      simp only [Placed.mk.injEq]
      exact ⟨hresource.symm, hname, hunit, hkind, trivial⟩
    have hold : group.placed = before.flatMap (fun metric => metric.points.map fun point =>
          ⟨group.attributes, metric.name, metric.unit, metric.kind, point⟩) ++
        ((old.points.map fun point =>
          ⟨group.attributes, old.name, old.unit, old.kind, point⟩) ++
        after.flatMap fun metric => metric.points.map fun point =>
          ⟨group.attributes, metric.name, metric.unit, metric.kind, point⟩) := by
      rw [ResourceGroup.placed, hitems, List.flatMap_append, List.flatMap_cons]
    have hadded : (group.pushPlaced point).placed =
        before.flatMap (fun metric => metric.points.map fun point =>
          ⟨group.attributes, metric.name, metric.unit, metric.kind, point⟩) ++
        ((old.points.map fun point =>
          ⟨group.attributes, old.name, old.unit, old.kind, point⟩) ++ [point] ++
        after.flatMap fun metric => metric.points.map fun point =>
          ⟨group.attributes, metric.name, metric.unit, metric.kind, point⟩) := by
      rw [ResourceGroup.placed, ResourceGroup.pushPlaced, ResourceGroup.push]
      dsimp only
      rw [hnew, List.flatMap_append, List.flatMap_cons, List.map_append, List.map_singleton,
        hpoint]
    rw [hold, hadded]
    simp only [List.append_assoc]
    exact (List.perm_append_comm.append_left _).append_left _
  · have hadded : (group.pushPlaced point).placed = group.placed ++ [point] := by
      obtain ⟨resource, name, unit, kind, value⟩ := point
      rw [ResourceGroup.placed, ResourceGroup.pushPlaced, ResourceGroup.push]
      dsimp only at hnew hresource ⊢
      rw [hnew, List.flatMap_append, ResourceGroup.placed, hresource]
      rfl
    rw [hadded]

/-- Points pushed one after another. -/
lemma placed_pushAll {group : ResourceGroup F} (h : GroupOk group) {points : List (Placed F)}
    (hresource : ∀ point ∈ points, point.resource = group.attributes)
    (hagree : Agree (group.placed ++ points)) :
    Perm (points.foldl ResourceGroup.pushPlaced group).placed (group.placed ++ points) := by
  induction points generalizing group with
  | nil => simp
  | cons point points ih =>
    have hone := placed_pushPlaced h (hresource point List.mem_cons_self)
      (hagree.subset (by simp))
    have hassoc : group.placed ++ point :: points = group.placed ++ [point] ++ points := by simp
    rw [hassoc] at hagree ⊢
    have hrest := ih (h.pushPlaced point)
      (fun other hother => hresource other (List.mem_cons_of_mem _ hother))
      (hagree.perm (hone.symm.append_right _))
    exact hrest.trans (hone.append_right _)

lemma GroupOk.pushAll {group : ResourceGroup F} (h : GroupOk group) (points : List (Placed F)) :
    GroupOk (points.foldl ResourceGroup.pushPlaced group) := by
  induction points generalizing group with
  | nil => exact h
  | cons point points ih => exact ih (h.pushPlaced point)

lemma attributes_pushAll (group : ResourceGroup F) (points : List (Placed F)) :
    (points.foldl ResourceGroup.pushPlaced group).attributes = group.attributes := by
  induction points generalizing group with
  | nil => rfl
  | cons point points ih => exact ih _

/-! ### What a delivery expands to -/

section Doubles
variable (doubles : Doubles F)

/-- The points of one summary point, each with the metric it is meant for. -/
def expansion (attributes : List KeyValue) (cloudwatch : CloudWatchMetric) (metric : Metric F)
    (point : SummaryDataPoint F) : List (Placed F) :=
  let base := metricBaseName cloudwatch.space cloudwatch.metricName
  let number (value : NumberValue F) : NumberDataPoint F :=
    { attributes := cloudwatch.pointAttributes
      startTimeUnixNano := point.startTimeUnixNano
      timeUnixNano := point.timeUnixNano
      value
      flags := point.flags }
  let average : List (Placed F) :=
    if 0 < point.count then
      [⟨attributes, base, metric.unit, .gauge,
        number (.asDouble (doubles.div point.sum (doubles.ofCount point.count)))⟩]
    else []
  let minimum : List (Placed F) := (quantile doubles point doubles.zero).toList.map fun min =>
    ⟨attributes, base ++ ".min".toList, metric.unit, .gauge, number (.asDouble min)⟩
  let maximum : List (Placed F) := (quantile doubles point doubles.one).toList.map fun max =>
    ⟨attributes, base ++ ".max".toList, metric.unit, .gauge, number (.asDouble max)⟩
  average ++ minimum ++ maximum ++
    [⟨attributes, base ++ ".sum".toList, metric.unit, .deltaSum false,
        number (.asDouble point.sum)⟩,
      ⟨attributes, base ++ ".count".toList, ['1'], .deltaSum true,
        number (.asInt (min point.count I64_MAX))⟩]

lemma expansion_resource {attributes : List KeyValue} {cloudwatch : CloudWatchMetric}
    {metric : Metric F} {point : SummaryDataPoint F} :
    ∀ e ∈ expansion doubles attributes cloudwatch metric point, e.resource = attributes := by
  intro e he
  simp only [expansion, List.mem_append, List.mem_cons, List.not_mem_nil, or_false,
    List.mem_map] at he
  rcases he with ((he | ⟨_, -, rfl⟩) | ⟨_, -, rfl⟩) | rfl | rfl
  · split_ifs at he
    · rw [List.mem_singleton.mp he]
    · cases he
  all_goals rfl

lemma pushPoint_eq (group : ResourceGroup F) (attributes : List KeyValue)
    (cloudwatch : CloudWatchMetric) (metric : Metric F) (point : SummaryDataPoint F) :
    pushPoint doubles group cloudwatch metric point =
      (expansion doubles attributes cloudwatch metric point).foldl
        ResourceGroup.pushPlaced group := by
  simp only [pushPoint, expansion, List.foldl_append]
  by_cases hcount : 0 < point.count
  · cases quantile doubles point doubles.zero with
    | none => cases quantile doubles point doubles.one <;> simp [hcount, ResourceGroup.pushPlaced]
    | some low =>
      cases quantile doubles point doubles.one <;> simp [hcount, ResourceGroup.pushPlaced]
  · cases quantile doubles point doubles.zero with
    | none => cases quantile doubles point doubles.one <;> simp [hcount, ResourceGroup.pushPlaced]
    | some low =>
      cases quantile doubles point doubles.one <;> simp [hcount, ResourceGroup.pushPlaced]

variable (connection : Connection)

def expandedPoint : List KeyValue × Metric F × SummaryDataPoint F → List (Placed F)
  | (incoming, metric, point) =>
    match CloudWatchMetric.of metric point with
    | none => []
    | some cloudwatch =>
      expansion doubles (cloudwatch.resourceAttributes incoming connection) cloudwatch metric
        point

/-- The points of a delivery, each with the metric it is meant for. -/
def expanded (requests : List (ExportMetricsServiceRequest F)) : List (Placed F) :=
  (summaryPoints requests).flatMap (expandedPoint doubles connection)

/-! ### The groups of a delivery -/

variable {Bytes : Type} [DecidableEq Bytes] {encode : List KeyValue → Bytes}

structure BuilderOk (encode : List KeyValue → Bytes) (builder : RequestBuilder F Bytes) :
    Prop where
  keyed : KeyedList.Indexed (fun group => encode group.attributes) builder
  groups : ∀ group ∈ builder.items, GroupOk group

omit [DecidableEq Bytes] in
lemma builderOk_empty : BuilderOk encode (.empty : RequestBuilder F Bytes) where
  keyed := KeyedList.indexed_empty _
  groups := by
    intro group hgroup
    cases hgroup

omit [DecidableEq Bytes] in
/-- A resource has one group, and the group one metric of a name. -/
lemma BuilderOk.agree {builder : RequestBuilder F Bytes} (h : BuilderOk encode builder) :
    Agree (placed builder.items) := by
  intro a ha b hb hresource hname
  simp only [placed, ResourceGroup.placed, List.mem_flatMap, List.mem_map] at ha hb
  obtain ⟨group, hgroup, metric, hmetric, point, -, rfl⟩ := ha
  obtain ⟨group', hgroup', metric', hmetric', point', -, rfl⟩ := hb
  have hsame : group = group' :=
    h.keyed.unique hgroup hgroup' (congrArg encode hresource)
  subst hsame
  have hmetrics : metric = metric' :=
    (h.groups group hgroup).named.unique hmetric hmetric' hname
  rw [hmetrics]
  exact ⟨rfl, rfl⟩

lemma BuilderOk.addPoint {builder : RequestBuilder F Bytes} (h : BuilderOk encode builder)
    (incoming : List KeyValue) (metric : Metric F) (point : SummaryDataPoint F) :
    BuilderOk encode (addPoint doubles encode connection builder incoming metric point) := by
  unfold MetricStream.addPoint
  split
  · exact h
  · rename_i cloudwatch _
    dsimp only
    simp only [pushPoint_eq doubles _ (cloudwatch.resourceAttributes incoming connection)]
    refine ⟨h.keyed.upsert ?_ ?_, ?_⟩
    · rw [attributes_pushAll]
    · intro group
      rw [attributes_pushAll]
    · intro group hgroup
      rcases h.keyed.upsert_cases with ⟨before, old, after, hitems, -, hnew⟩ | ⟨-, hnew⟩
      · rw [hnew] at hgroup
        rcases List.mem_append.mp hgroup with hmem | hmem
        · exact h.groups group (by simp [hitems, hmem])
        · rcases List.mem_cons.mp hmem with rfl | hmem
          · exact (h.groups old (by simp [hitems])).pushAll _
          · exact h.groups group (by simp [hitems, hmem])
      · rw [hnew] at hgroup
        rcases List.mem_append.mp hgroup with hmem | hmem
        · exact h.groups group hmem
        · rw [List.mem_singleton.mp hmem]
          exact (groupOk_fresh _).pushAll _

lemma placed_addPoint (hencode : Function.Injective encode)
    {builder : RequestBuilder F Bytes} (h : BuilderOk encode builder) {incoming : List KeyValue}
    {metric : Metric F} {point : SummaryDataPoint F}
    (hagree : Agree (placed builder.items ++
      expandedPoint doubles connection (incoming, metric, point))) :
    Perm (placed (addPoint doubles encode connection builder incoming metric point).items)
      (placed builder.items ++ expandedPoint doubles connection (incoming, metric, point)) := by
  unfold MetricStream.addPoint
  unfold expandedPoint at hagree ⊢
  dsimp only at hagree ⊢
  cases hof : CloudWatchMetric.of metric point with
  | none => simp
  | some cloudwatch =>
    rw [hof] at hagree
    dsimp only at hagree ⊢
    simp only [pushPoint_eq doubles _ (cloudwatch.resourceAttributes incoming connection)]
    generalize hpoints : expansion doubles (cloudwatch.resourceAttributes incoming connection)
      cloudwatch metric point = points at hagree ⊢
    have hresource : ∀ e ∈ points, e.resource =
        cloudwatch.resourceAttributes incoming connection := by
      rw [← hpoints]
      exact expansion_resource doubles
    rcases h.keyed.upsert_cases (k := encode (cloudwatch.resourceAttributes incoming connection))
      with ⟨before, old, after, hitems, hkey, hnew⟩ | ⟨-, hnew⟩
    · have hattributes : old.attributes = cloudwatch.resourceAttributes incoming connection :=
        hencode hkey
      have hsub : old.placed ++ points ⊆ placed builder.items ++ points := by
        intro e he
        rcases List.mem_append.mp he with he | he
        · refine List.mem_append_left _ (List.mem_flatMap.mpr ⟨old, ?_, he⟩)
          simp [hitems]
        · exact List.mem_append_right _ he
      have hold := placed_pushAll (h.groups old (by simp [hitems]))
        (fun e he => (hresource e he).trans hattributes.symm) (hagree.subset hsub)
      rw [hnew, hitems]
      simp only [placed, List.flatMap_append, List.flatMap_cons]
      refine (List.Perm.append_left _ (hold.append_right _)).trans ?_
      simp only [List.append_assoc]
      exact (List.perm_append_comm.append_left _).append_left _
    · have hfresh := placed_pushAll
        (groupOk_fresh (cloudwatch.resourceAttributes incoming connection)) hresource
        (hagree.subset (by simp [ResourceGroup.placed, KeyedList.empty]))
      rw [hnew]
      simp only [placed, List.flatMap_append, List.flatMap_singleton]
      exact hfresh.append_left _

/-- A delivery whose points agree is kept whole. -/
lemma placed_foldl (hencode : Function.Injective encode)
    (points : List (List KeyValue × Metric F × SummaryDataPoint F))
    {builder : RequestBuilder F Bytes} (h : BuilderOk encode builder)
    (hagree : Agree (placed builder.items ++
      points.flatMap (expandedPoint doubles connection))) :
    Perm (placed (points.foldl (fun builder (incoming, metric, point) =>
        addPoint doubles encode connection builder incoming metric point) builder).items)
      (placed builder.items ++ points.flatMap (expandedPoint doubles connection)) := by
  induction points generalizing builder with
  | nil => simp
  | cons head points ih =>
    obtain ⟨incoming, metric, point⟩ := head
    rw [List.flatMap_cons, ← List.append_assoc] at hagree
    have hone := placed_addPoint doubles connection hencode h
      (hagree.subset (List.subset_append_left _ _))
    have hrest := ih (h.addPoint doubles connection incoming metric point)
      (hagree.perm (hone.symm.append_right _))
    rw [List.foldl_cons, List.flatMap_cons, ← List.append_assoc]
    exact hrest.trans (hone.append_right _)

lemma builderOk_foldl (points : List (List KeyValue × Metric F × SummaryDataPoint F))
    {builder : RequestBuilder F Bytes} (h : BuilderOk encode builder) :
    BuilderOk encode (points.foldl (fun builder (incoming, metric, point) =>
      addPoint doubles encode connection builder incoming metric point) builder) := by
  induction points generalizing builder with
  | nil => exact h
  | cons head points ih =>
    obtain ⟨incoming, metric, point⟩ := head
    exact ih (h.addPoint doubles connection incoming metric point)

lemma agree_of_kept {requests : List (ExportMetricsServiceRequest F)}
    (h : Perm (placed (buildMetricsRequest doubles encode connection requests))
      (expanded doubles connection requests)) : Agree (expanded doubles connection requests) :=
  (builderOk_foldl doubles connection (summaryPoints requests) builderOk_empty).agree.perm h

/-- The metrics of a delivery hold the points it expands to, each under its own resource, name,
unit and kind, exactly when no two of them share a metric but not its unit and kind. -/
theorem buildMetricsRequest_kept_iff (hencode : Function.Injective encode)
    (requests : List (ExportMetricsServiceRequest F)) :
    Perm (placed (buildMetricsRequest doubles encode connection requests))
        (expanded doubles connection requests) ↔
      Agree (expanded doubles connection requests) := by
  refine ⟨agree_of_kept doubles connection, fun hagree => ?_⟩
  exact placed_foldl doubles connection hencode (summaryPoints requests) builderOk_empty hagree

end Doubles

/-! ### A delivery -/

def integers : Doubles ℤ where
  zero := 0
  one := 1
  epsilon := 1
  sub a b := a - b
  abs a := |a|
  lt a b := a < b
  div a b := a / b
  ofCount n := n

def namedPoint (space metricName : String) : SummaryDataPoint ℤ where
  attributes := [⟨"Namespace".toList, some (.string space.toList)⟩,
    ⟨"MetricName".toList, some (.string metricName.toList)⟩,
    ⟨"Dimensions".toList, some (.kvlist [("QueueName".toList, .string ['q'])])⟩]
  startTimeUnixNano := 0
  timeUnixNano := 60
  count := 2
  sum := 6
  quantileValues := [(0, 1), (1, 5)]
  flags := 0

def namedMetric (space metricName : String) : Metric ℤ where
  name := []
  unit := "Count".toList
  summary := some [namedPoint space metricName]

def sampleConnection : Connection := ⟨['c'], ['o'], none⟩

theorem buildMetricsRequest_kept_sample :
    Perm (placed (buildMetricsRequest integers id sampleConnection
        [[⟨none, [[namedMetric "AWS/A" "Hits", namedMetric "AWS/B" "Hits"]]⟩]]))
      (expanded integers sampleConnection
        [[⟨none, [[namedMetric "AWS/A" "Hits", namedMetric "AWS/B" "Hits"]]⟩]]) :=
  (buildMetricsRequest_kept_iff integers sampleConnection Function.injective_id _).mpr
    (by unfold Agree; decide +kernel)

/-- The average of `Sum` in `AWS/A/B` lands in the sum of `B` in `AWS/A`. -/
theorem average_among_sums :
    ¬ ∀ requests : List (ExportMetricsServiceRequest ℤ),
      Perm (placed (buildMetricsRequest integers id sampleConnection requests))
        (expanded integers sampleConnection requests) := by
  intro h
  have hagree := agree_of_kept integers sampleConnection
    (h [[⟨none, [[namedMetric "AWS/A" "B", namedMetric "AWS/A/B" "Sum"]]⟩]])
  revert hagree
  unfold Agree
  with_unfolding_all decide

end Maple.MetricStream
