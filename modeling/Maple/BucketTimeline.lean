import Maple.BucketRanges

/-! Time series over a range of events, one point for each bucket of the range's timeline. -/

namespace Maple.BucketCache

variable {α ω : Type}

instance (r : TimeRange) (t : ℤ) : Decidable (Holds r t) :=
  inferInstanceAs (Decidable (_ ∧ _))

def floorTo (step x : ℤ) : ℤ := x / step * step

/-- `first`, `first + step` and so on, as far as `last`. -/
def stepsTo (step first last : ℤ) : List ℤ :=
  (List.range ((last - first) / step + 1).toNat).map fun i : ℕ => first + i * step

structure BucketFillOptions where
  startMs : ℤ
  endMs : ℤ
  bucketSeconds : ℤ

def buildBucketTimeline (fill : BucketFillOptions) : List ℤ :=
  let bucketMs := fill.bucketSeconds * 1000
  stepsTo bucketMs (floorTo bucketMs fill.startMs) (floorTo bucketMs fill.endMs)

structure TimeseriesRow (ω : Type) where
  bucket : ℤ
  groupName : String
  value : ω

def noSeries : Series ω := fun _ => none

def addRow (bucketMap : InsertMap ℤ (Series ω)) (row : TimeseriesRow ω) :
    InsertMap ℤ (Series ω) :=
  bucketMap.set row.bucket
    (Function.update ((bucketMap.get row.bucket).getD noSeries) row.groupName (some row.value))

def fillBucket (bucketMap : InsertMap ℤ (Series ω)) (bucket : ℤ) : InsertMap ℤ (Series ω) :=
  match bucketMap.get bucket with
  | some _ => bucketMap
  | none => bucketMap.set bucket noSeries

def groupTimeSeriesRows (rows : List (TimeseriesRow ω)) (fillOptions : Option BucketFillOptions) :
    List (TimeseriesPoint ω) :=
  let bucketMap := rows.foldl addRow InsertMap.empty
  let (bucketOrder, bucketMap) :=
    match fillOptions with
    | some fill =>
      let timeline := buildBucketTimeline fill
      (timeline, timeline.foldl fillBucket bucketMap)
    | none => (bucketMap.entries.map Prod.fst, bucketMap)
  bucketOrder.map fun bucket => ⟨bucket, (bucketMap.get bucket).getD noSeries⟩

structure WarehouseEvent (α : Type) where
  ms : ℤ
  groupName : String
  value : α

/-- How the warehouse aggregates the events of one group in one bucket. -/
abbrev Aggregate (α ω : Type) := List α → ω

/-- The warehouse's rows: one for each bucket and group that has events. -/
def aggregateRows (aggregate : Aggregate α ω) (bucketMs : ℤ) (events : List (WarehouseEvent α)) :
    List (TimeseriesRow ω) :=
  (events.map fun e => (floorTo bucketMs e.ms, e.groupName)).dedup.map fun key =>
    let group := events.filter fun e => floorTo bucketMs e.ms = key.1 ∧ e.groupName = key.2
    ⟨key.1, key.2, aggregate (group.map (·.value))⟩

/-- `executeImpl` for a range: the events in it, aggregated and filled. -/
def computeRange (aggregate : Aggregate α ω) (events : List (WarehouseEvent α))
    (bucketSeconds : ℤ) (range : TimeRange) : List (TimeseriesPoint ω) :=
  groupTimeSeriesRows
    (aggregateRows aggregate (bucketSeconds * 1000) (events.filter fun e => Holds range e.ms))
    (some ⟨range.startMs, range.endMs, bucketSeconds⟩)

/-- The series of one bucket over the events in a range. -/
def seriesIn (aggregate : Aggregate α ω) (events : List (WarehouseEvent α)) (bucketMs : ℤ)
    (range : TimeRange) (bucket : ℤ) : Series ω := fun groupName =>
  match events.filter fun e =>
      Holds range e.ms ∧ floorTo bucketMs e.ms = bucket ∧ e.groupName = groupName with
  | [] => none
  | group => some (aggregate (group.map (·.value)))

lemma mem_stepsTo {step first last x : ℤ} (hstep : 0 < step) :
    x ∈ stepsTo step first last ↔ first ≤ x ∧ x ≤ last ∧ step ∣ x - first := by
  simp only [stepsTo, List.mem_map, List.mem_range]
  constructor
  · rintro ⟨i, hi, rfl⟩
    have hdiv : (i : ℤ) ≤ (last - first) / step := by omega
    have hmul : (i : ℤ) * step ≤ last - first := (Int.le_ediv_iff_mul_le hstep).mp hdiv
    have hpos : 0 ≤ (i : ℤ) * step := by positivity
    exact ⟨by omega, by omega, ⟨i, by ring⟩⟩
  · rintro ⟨hfirst, hlast, k, hk⟩
    have hk0 : 0 ≤ k := by
      by_contra hneg
      have hlt : step * k < 0 := mul_neg_of_pos_of_neg hstep (not_le.mp hneg)
      omega
    refine ⟨k.toNat, ?_, ?_⟩
    · have hdiv : k ≤ (last - first) / step := by
        rw [Int.le_ediv_iff_mul_le hstep, mul_comm]
        omega
      omega
    · rw [Int.toNat_of_nonneg hk0, mul_comm]
      omega

lemma stepsTo_pairwise {step : ℤ} (hstep : 0 < step) (first last : ℤ) :
    (stepsTo step first last).Pairwise (· < ·) := by
  refine List.Pairwise.map _ ?_ List.pairwise_lt_range
  intro i j hij
  have hmul : (i : ℤ) * step < (j : ℤ) * step := by
    refine mul_lt_mul_of_pos_right ?_ hstep
    exact_mod_cast hij
  omega

lemma dvd_floorTo (step x : ℤ) : step ∣ floorTo step x := Dvd.intro_left _ rfl

lemma floorTo_le {step : ℤ} (hstep : 0 < step) (x : ℤ) : floorTo step x ≤ x :=
  Int.ediv_mul_le x hstep.ne'

lemma lt_floorTo_add {step : ℤ} (hstep : 0 < step) (x : ℤ) : x < floorTo step x + step := by
  have h := Int.lt_ediv_add_one_mul_self x hstep
  rw [add_mul, one_mul] at h
  exact h

/-- Two multiples of `step` that are less than a step apart are equal. -/
lemma eq_of_dvd_close {step a b : ℤ} (ha : step ∣ a) (hb : step ∣ b) (hab : a < b + step)
    (hba : b < a + step) : a = b := by
  obtain ⟨i, rfl⟩ := ha
  obtain ⟨j, rfl⟩ := hb
  have hstep : 0 < step := by omega
  have hij : i < j + 1 := by
    refine lt_of_mul_lt_mul_left ?_ hstep.le
    linarith
  have hji : j < i + 1 := by
    refine lt_of_mul_lt_mul_left ?_ hstep.le
    linarith
  rw [show i = j by omega]

lemma floorTo_eq_iff {step bucket : ℤ} (hstep : 0 < step) (hbucket : step ∣ bucket) {x : ℤ} :
    floorTo step x = bucket ↔ bucket ≤ x ∧ x < bucket + step := by
  have hle := floorTo_le hstep x
  have hlt := lt_floorTo_add hstep x
  constructor
  · rintro rfl
    exact ⟨hle, hlt⟩
  · rintro ⟨hfrom, hto⟩
    exact eq_of_dvd_close (dvd_floorTo step x) hbucket (by omega) (by omega)

/-- A bucket of the timeline of a range touches the range or begins where it ends. -/
lemma mem_buildBucketTimeline {fill : BucketFillOptions} (hpos : 0 < fill.bucketSeconds)
    {bucket : ℤ} : bucket ∈ buildBucketTimeline fill ↔
      fill.bucketSeconds * 1000 ∣ bucket ∧ fill.startMs < bucket + fill.bucketSeconds * 1000 ∧
      bucket ≤ fill.endMs := by
  have hstep : 0 < fill.bucketSeconds * 1000 := by omega
  have hstart := dvd_floorTo (fill.bucketSeconds * 1000) fill.startMs
  have hend := dvd_floorTo (fill.bucketSeconds * 1000) fill.endMs
  have hle := floorTo_le hstep fill.startMs
  have hlt := lt_floorTo_add hstep fill.startMs
  have hle' := floorTo_le hstep fill.endMs
  have hlt' := lt_floorTo_add hstep fill.endMs
  rw [buildBucketTimeline, mem_stepsTo hstep]
  generalize fill.bucketSeconds * 1000 = step at *
  constructor
  · rintro ⟨hfirst, hlast, hdvd⟩
    have hbucket : step ∣ bucket := (dvd_sub_left hstart).mp hdvd
    exact ⟨hbucket, by omega, by omega⟩
  · rintro ⟨hbucket, hfirst, hlast⟩
    refine ⟨?_, ?_, dvd_sub hbucket hstart⟩
    · by_contra hbelow
      have heq := eq_of_dvd_close hstart hbucket
      by_cases hclose : floorTo step fill.startMs < bucket + step
      · have := heq hclose (by omega)
        omega
      · omega
    · by_contra habove
      by_cases hclose : bucket < floorTo step fill.endMs + step
      · have := eq_of_dvd_close hend hbucket (by omega) hclose
        omega
      · omega

/-- A row's value replaces an earlier one of the same bucket and group. -/
lemma series_foldl_addRow (rows : List (TimeseriesRow ω)) (bucket : ℤ) (groupName : String) :
    (((rows.foldl addRow InsertMap.empty).get bucket).getD noSeries) groupName =
      (rows.reverse.find? fun r => r.bucket = bucket ∧ r.groupName = groupName).map (·.value) := by
  induction rows using List.reverseRecOn with
  | nil => rfl
  | append_singleton rows row ih =>
    rw [List.foldl_append, List.foldl_cons, List.foldl_nil, addRow, InsertMap.get_set,
      List.reverse_append, List.reverse_singleton, List.singleton_append, List.find?_cons]
    by_cases hbucket : bucket = row.bucket
    · subst hbucket
      by_cases hgroup : groupName = row.groupName
      · simp [hgroup]
      · simp [hgroup, Ne.symm hgroup, ih]
    · simp [hbucket, Ne.symm hbucket, ih]

lemma getD_fillBucket (bucketMap : InsertMap ℤ (Series ω)) (filled bucket : ℤ) :
    ((fillBucket bucketMap filled).get bucket).getD noSeries =
      (bucketMap.get bucket).getD noSeries := by
  unfold fillBucket
  cases hget : bucketMap.get filled with
  | some _ => rfl
  | none =>
    by_cases hbucket : bucket = filled
    · simp [hbucket, hget]
    · simp [hbucket]

/-- Filling in empty buckets changes no series. -/
lemma getD_foldl_fillBucket (timeline : List ℤ) (bucketMap : InsertMap ℤ (Series ω))
    (bucket : ℤ) : ((timeline.foldl fillBucket bucketMap).get bucket).getD noSeries =
      (bucketMap.get bucket).getD noSeries := by
  induction timeline generalizing bucketMap with
  | nil => rfl
  | cons filled timeline ih => rw [List.foldl_cons, ih, getD_fillBucket]

/-- The row of a bucket and a group aggregates their events. -/
lemma find?_aggregateRows (aggregate : Aggregate α ω) (bucketMs : ℤ)
    (events : List (WarehouseEvent α)) (bucket : ℤ) (groupName : String) :
    ((aggregateRows aggregate bucketMs events).reverse.find? fun r =>
        r.bucket = bucket ∧ r.groupName = groupName).map (·.value) =
      match events.filter fun e => floorTo bucketMs e.ms = bucket ∧ e.groupName = groupName with
      | [] => none
      | group => some (aggregate (group.map (·.value))) := by
  cases hfind : (aggregateRows aggregate bucketMs events).reverse.find? fun r =>
      r.bucket = bucket ∧ r.groupName = groupName with
  | none =>
    have hnone : events.filter (fun e =>
        floorTo bucketMs e.ms = bucket ∧ e.groupName = groupName) = [] := by
      rw [List.filter_eq_nil_iff]
      intro e he hkey
      rw [decide_eq_true_eq] at hkey
      obtain ⟨rfl, rfl⟩ := hkey
      rw [List.find?_eq_none] at hfind
      have hrow : ∃ r ∈ aggregateRows aggregate bucketMs events,
          r.bucket = floorTo bucketMs e.ms ∧ r.groupName = e.groupName := by
        simp only [aggregateRows, List.mem_map]
        exact ⟨_, ⟨(floorTo bucketMs e.ms, e.groupName),
          List.mem_dedup.mpr (List.mem_map_of_mem he), rfl⟩, rfl, rfl⟩
      obtain ⟨r, hr, hsame⟩ := hrow
      exact hfind r (List.mem_reverse.mpr hr) (decide_eq_true hsame)
    rw [hnone]
    rfl
  | some row =>
    have hrow := List.mem_of_find?_eq_some hfind
    have hkey := List.find?_some hfind
    rw [decide_eq_true_eq] at hkey
    rw [List.mem_reverse, aggregateRows, List.mem_map] at hrow
    obtain ⟨key, hmem, rfl⟩ := hrow
    obtain ⟨rfl, rfl⟩ := hkey
    obtain ⟨e, he, rfl⟩ := List.mem_map.mp (List.mem_dedup.mp hmem)
    dsimp only
    split
    · rename_i hnil
      rw [List.filter_eq_nil_iff] at hnil
      exact absurd (by simp) (hnil e he)
    · rfl

/-- A range's points: for each bucket of its timeline, the series of the events in the range. -/
theorem computeRange_eq (aggregate : Aggregate α ω) (events : List (WarehouseEvent α))
    (bucketSeconds : ℤ) (range : TimeRange) :
    computeRange aggregate events bucketSeconds range =
      (buildBucketTimeline ⟨range.startMs, range.endMs, bucketSeconds⟩).map fun bucket =>
        ⟨bucket, seriesIn aggregate events (bucketSeconds * 1000) range bucket⟩ := by
  unfold computeRange groupTimeSeriesRows
  refine List.map_congr_left fun bucket _ => ?_
  congr 1
  funext groupName
  rw [getD_foldl_fillBucket, series_foldl_addRow, find?_aggregateRows, List.filter_filter]
  unfold seriesIn
  congr 2
  funext e
  simp only [← Bool.decide_and, and_comm]

end Maple.BucketCache
