import Maple.BucketServed

/-! Whatever calls leave in the cache is right: a cached bucket has the series of all its events. -/

namespace Maple.BucketCache

variable {α ω : Type} {aggregate : Aggregate α ω} {events : List (WarehouseEvent α)}

/-- Ranges that hold the same times of a bucket give it the same series. -/
lemma seriesIn_congr {step bucket : ℤ} (hstep : 0 < step) (hdvd : step ∣ bucket)
    {r r' : TimeRange} (h : AgreeOn step bucket r r') :
    seriesIn aggregate events step r bucket = seriesIn aggregate events step r' bucket := by
  funext groupName
  unfold seriesIn
  congr 1
  refine List.filter_congr fun e _ => ?_
  refine decide_eq_decide.mpr ?_
  rw [floorTo_eq_iff hstep hdvd]
  constructor
  · rintro ⟨hr, hfloor, hgroup⟩
    exact ⟨(h _ hfloor.1 hfloor.2).mp hr, hfloor, hgroup⟩
  · rintro ⟨hr, hfloor, hgroup⟩
    exact ⟨(h _ hfloor.1 hfloor.2).mpr hr, hfloor, hgroup⟩

/-- A bucket's series is empty iff the range has no event of it. -/
lemma seriesIn_eq_noSeries {step bucket : ℤ} (hstep : 0 < step) (hdvd : step ∣ bucket)
    {r : TimeRange} : seriesIn aggregate events step r bucket = noSeries ↔
      ∀ e ∈ events, ¬ (Holds r e.ms ∧ bucket ≤ e.ms ∧ e.ms < bucket + step) := by
  constructor
  · rintro h e he ⟨hr, hin⟩
    have hnone := congrFun h e.groupName
    unfold seriesIn at hnone
    split at hnone
    · rename_i hnil
      refine List.filter_eq_nil_iff.mp hnil e he ?_
      simpa using ⟨hr, (floorTo_eq_iff hstep hdvd).mpr hin⟩
    · cases hnone
  · intro h
    funext groupName
    unfold seriesIn
    rw [List.filter_eq_nil_iff.mpr]
    · rfl
    · intro e he hkey
      rw [decide_eq_true_eq, floorTo_eq_iff hstep hdvd] at hkey
      exact h e he ⟨hkey.1, hkey.2.1⟩

lemma BucketQuery.bucketMs_pos (query : BucketQuery) : 0 < query.bucketMs := by
  have hpos := query.positive
  unfold BucketQuery.bucketMs
  omega

lemma computeRange_query (query : BucketQuery) (r : TimeRange) :
    computeRange aggregate events query.bucketSeconds r =
      (buildBucketTimeline ⟨r.startMs, r.endMs, query.bucketSeconds⟩).map fun bucket =>
        ⟨bucket, seriesIn aggregate events query.bucketMs r bucket⟩ :=
  computeRange_eq aggregate events query.bucketSeconds r

lemma mem_computeRange {query : BucketQuery} {r : TimeRange} {p : TimeseriesPoint ω} :
    p ∈ computeRange aggregate events query.bucketSeconds r ↔
      (query.bucketMs ∣ p.bucket ∧ Reaches query.bucketMs p.bucket r) ∧
      p = ⟨p.bucket, seriesIn aggregate events query.bucketMs r p.bucket⟩ := by
  have hpos := query.positive
  rw [computeRange_query, List.mem_map]
  constructor
  · rintro ⟨bucket, hmem, rfl⟩
    obtain ⟨hdvd, hstart, hend⟩ := (mem_buildBucketTimeline hpos).mp hmem
    exact ⟨⟨hdvd, hstart, hend⟩, rfl⟩
  · rintro ⟨⟨hdvd, hstart, hend⟩, hp⟩
    exact ⟨p.bucket, (mem_buildBucketTimeline hpos).mpr ⟨hdvd, hstart, hend⟩, hp.symm⟩

/-- The one point of a bucket that is wholly cached. -/
def windowPoint (aggregate : Aggregate α ω) (events : List (WarehouseEvent α)) (step bucket : ℤ) :
    TimeseriesPoint ω :=
  ⟨bucket, seriesIn aggregate events step ⟨bucket, bucket + step⟩ bucket⟩

/-- A cached bucket is a window of the grid with the series of its events. -/
structure SoundBucket (aggregate : Aggregate α ω) (events : List (WarehouseEvent α)) (step : ℤ)
    (b : CachedBucket ω) : Prop where
  aligned : step ∣ b.startMs
  width : b.endMs = b.startMs + step
  points : b.points = [windowPoint aggregate events step b.startMs]

lemma dvd_ceilTo (step x : ℤ) : step ∣ ceilTo step x := (dvd_floorTo step (-x)).neg_right

lemma le_ceilTo {step : ℤ} (hstep : 0 < step) (x : ℤ) : x ≤ ceilTo step x := by
  have := floorTo_le hstep (-x)
  unfold ceilTo
  omega

/-- The points of a timeline that fall into one of its windows. -/
lemma filter_computeRange {query : BucketQuery} {r : TimeRange} {bucket : ℤ}
    (hdvd : query.bucketMs ∣ bucket) (hreach : Reaches query.bucketMs bucket r) :
    (computeRange aggregate events query.bucketSeconds r).filter
      (fun p => floorTo query.bucketMs p.bucket = bucket) =
        [⟨bucket, seriesIn aggregate events query.bucketMs r bucket⟩] := by
  have hpos := query.positive
  have hstep := query.bucketMs_pos
  have hmem : bucket ∈ buildBucketTimeline ⟨r.startMs, r.endMs, query.bucketSeconds⟩ :=
    (mem_buildBucketTimeline hpos).mpr ⟨hdvd, hreach.1, hreach.2⟩
  have hnodup : (buildBucketTimeline ⟨r.startMs, r.endMs, query.bucketSeconds⟩).Nodup :=
    (stepsTo_pairwise hstep _ _).imp ne_of_lt
  have hsame : (buildBucketTimeline ⟨r.startMs, r.endMs, query.bucketSeconds⟩).filter
      (fun b => floorTo query.bucketMs b = bucket) = [bucket] := by
    have hone : List.replicate (List.count bucket (buildBucketTimeline
        ⟨r.startMs, r.endMs, query.bucketSeconds⟩)) bucket = [bucket] := by
      rw [List.count_eq_one_of_mem hnodup hmem]
      rfl
    rw [← hone, ← List.filter_eq]
    refine List.filter_congr fun b hb => ?_
    have hb := ((mem_buildBucketTimeline hpos).mp hb).1
    rw [(floorTo_eq_iff hstep hb).mpr ⟨le_rfl, by omega⟩]
  rw [computeRange_query, List.filter_map]
  simp only [Function.comp_def, hsame, List.map_cons, List.map_nil]

/-- Only whole windows are cached, with the series of all their events. -/
lemma sound_pointsToCoveredBuckets {query : BucketQuery} {range : TimeRange}
    {fluxBoundaryMs : ℤ} {b : CachedBucket ω}
    (h : b ∈ pointsToCoveredBuckets (computeRange aggregate events query.bucketSeconds range) range
      query.bucketMs fluxBoundaryMs) : SoundBucket aggregate events query.bucketMs b := by
  have hstep := query.bucketMs_pos
  simp only [pointsToCoveredBuckets, List.mem_map] at h
  obtain ⟨startMs, hmem, rfl⟩ := h
  have hceil := dvd_ceilTo query.bucketMs range.startMs
  have hle := le_ceilTo hstep range.startMs
  obtain ⟨hfirst, hlast, hgrid⟩ := (mem_stepsTo hstep).mp (List.takeWhile_subset _ hmem)
  have hdvd : query.bucketMs ∣ startMs := (dvd_sub_left hceil).mp hgrid
  refine ⟨hdvd, rfl, ?_⟩
  have hreach : Reaches query.bucketMs startMs range := ⟨by omega, by omega⟩
  have hagree : AgreeOn query.bucketMs startMs range ⟨startMs, startMs + query.bucketMs⟩ := by
    intro t hfrom hto
    simp only [Holds]
    omega
  dsimp only
  rw [InsertMap.get_groupAll, filter_computeRange hdvd hreach, windowPoint,
    seriesIn_congr hstep hdvd hagree]

lemma mem_mergeAndDeduplicateBuckets {existing fresh : List (CachedBucket ω)} {b : CachedBucket ω}
    (h : b ∈ mergeAndDeduplicateBuckets existing fresh) : b ∈ existing ∨ b ∈ fresh := by
  obtain ⟨k, hget⟩ := InsertMap.mem_values.mp (mem_sortByStart.mp h)
  rcases InsertMap.mem_of_get_setAll hget with hfresh | hget
  · exact Or.inr hfresh
  · rcases InsertMap.mem_of_get_setAll hget with hexisting | hnone
    · exact Or.inl hexisting
    · cases hnone

lemma mem_segmentPayload {query : BucketQuery} {segmentMs segment : ℤ}
    {reads : List (SegmentRead ω)} {fresh : List (CachedBucket ω)} {b : CachedBucket ω}
    (h : b ∈ (segmentPayload query segmentMs
      (InsertMap.setAll SegmentRead.segmentStartMs InsertMap.empty reads) segment fresh).buckets) :
    (∃ r ∈ reads, b ∈ r.buckets) ∨ b ∈ fresh := by
  have hmerge : b ∈ mergeAndDeduplicateBuckets
      (((InsertMap.setAll SegmentRead.segmentStartMs InsertMap.empty reads).get segment).getD
        ⟨segment, .miss, []⟩).buckets fresh → (∃ r ∈ reads, b ∈ r.buckets) ∨ b ∈ fresh := by
    intro hb
    rcases mem_mergeAndDeduplicateBuckets hb with hold | hfresh
    · cases hget : (InsertMap.setAll SegmentRead.segmentStartMs InsertMap.empty reads).get segment with
      | none =>
        rw [hget] at hold
        cases hold
      | some r =>
        rw [hget] at hold
        rcases InsertMap.mem_of_get_setAll hget with hr | hnone
        · exact Or.inl ⟨r, hr, hold⟩
        · cases hnone
    · exact Or.inr hfresh
  simp only [segmentPayload] at h
  split at h
  · exact Or.inr (mem_sortByStart.mp h)
  · exact Or.inr (mem_sortByStart.mp h)
  · exact Or.inr (mem_sortByStart.mp h)
  · exact hmerge h
  · exact hmerge h

/-- The buckets a request reads come from segments that were hit. -/
lemma mem_segmentReads {config : BucketCacheConfig} {request : BucketCacheRequest}
    {read : ℤ → CacheRead ω} {r : SegmentRead ω} {b : CachedBucket ω}
    (hr : r ∈ segmentReads config request read) (hb : b ∈ r.buckets) :
    ∃ segment data, read segment = .hit (some data) ∧ b ∈ data.buckets := by
  simp only [segmentReads, List.mem_map] at hr
  obtain ⟨segment, -, rfl⟩ := hr
  unfold readSegment at hb
  split at hb
  · rename_i data hread
    split_ifs at hb
    · exact ⟨segment, data, hread, hb⟩
    · cases hb
  · cases hb

/-- What a call writes: buckets it has read, and whole windows it has fetched. -/
lemma mem_writes {config : BucketCacheConfig} {nowMs : ℤ} {request : BucketCacheRequest}
    {read : ℤ → CacheRead ω} {compute : TimeRange → List (TimeseriesPoint ω)} {segment : ℤ}
    {data : BucketCacheSegmentData ω} {b : CachedBucket ω}
    (h : (segment, data) ∈ (getOrComputeBuckets config nowMs request read compute).2)
    (hb : b ∈ data.buckets) :
    (∃ r ∈ segmentReads config request read, b ∈ r.buckets) ∨
    ∃ range flux, b ∈ pointsToCoveredBuckets (compute range) range request.query.bucketMs flux := by
  simp only [getOrComputeBuckets, List.mem_map] at h
  obtain ⟨⟨key, fresh⟩, hentry, hpayload⟩ := h
  obtain ⟨rfl, rfl⟩ := Prod.mk.inj hpayload
  rcases mem_segmentPayload hb with hread | hfresh
  · exact Or.inl hread
  · right
    have hb := InsertMap.mem_of_mem_groupAll hentry hfresh
    obtain ⟨⟨item, points⟩, hitem, hb⟩ := List.mem_flatMap.mp hb
    obtain ⟨item, -, hpair⟩ := List.mem_map.mp hitem
    obtain ⟨rfl, rfl⟩ := Prod.mk.inj hpair
    dsimp only at hb
    split_ifs at hb
    · exact ⟨_, _, hb⟩
    · cases hb

/-- Whatever calls over the same events have left in the cache is right. -/
theorem Written.sound {query : BucketQuery} {segment : ℤ} {data : BucketCacheSegmentData ω}
    (h : Written aggregate events query segment data) :
    ∀ b ∈ data.buckets, SoundBucket aggregate events query.bucketMs b := by
  induction h with
  | write config nowMs startMs endMs read _ segment data hwrite ih =>
    intro b hb
    rcases mem_writes hwrite hb with ⟨r, hr, hread⟩ | ⟨range, flux, hfresh⟩
    · obtain ⟨other, stored, hhit, hstored⟩ := mem_segmentReads hr hread
      exact ih other stored hhit b hstored
    · exact sound_pointsToCoveredBuckets hfresh

end Maple.BucketCache
