import Maple.BucketCacheSound

/-! When an answer put together from the cache and from fetched ranges is the direct answer. -/

namespace Maple.BucketCache

variable {α ω : Type} {aggregate : Aggregate α ω} {events : List (WarehouseEvent α)}

/-- The last point of a bucket in a list, which is the one that stays. -/
def lastPoint (points : List (TimeseriesPoint ω)) (bucket : ℤ) : Option (TimeseriesPoint ω) :=
  points.reverse.find? fun p => p.bucket = bucket

lemma lastPoint_append (xs ys : List (TimeseriesPoint ω)) (bucket : ℤ) :
    lastPoint (xs ++ ys) bucket = (lastPoint ys bucket).or (lastPoint xs bucket) := by
  rw [lastPoint, List.reverse_append, List.find?_append, lastPoint, lastPoint]

lemma lastPoint_mem {points : List (TimeseriesPoint ω)} {bucket : ℤ} {p : TimeseriesPoint ω}
    (h : lastPoint points bucket = some p) : p ∈ points ∧ p.bucket = bucket :=
  ⟨List.mem_reverse.mp (List.mem_of_find?_eq_some h), by simpa using List.find?_some h⟩

lemma lastPoint_eq_some {points : List (TimeseriesPoint ω)} {p : TimeseriesPoint ω}
    (hmem : p ∈ points) (honly : ∀ q ∈ points, q.bucket = p.bucket → q = p) :
    lastPoint points p.bucket = some p := by
  cases hfind : lastPoint points p.bucket with
  | none =>
    have := List.find?_eq_none.mp hfind p (List.mem_reverse.mpr hmem)
    simp at this
  | some q =>
    obtain ⟨hq, hbucket⟩ := lastPoint_mem hfind
    rw [honly q hq hbucket]

lemma lastPoint_eq_none {points : List (TimeseriesPoint ω)} {bucket : ℤ}
    (h : ∀ q ∈ points, q.bucket ≠ bucket) : lastPoint points bucket = none := by
  refine List.find?_eq_none.mpr fun q hq => ?_
  simpa using h q (List.mem_reverse.mp hq)

/-- A fetched range has one point for each bucket its timeline reaches. -/
lemma lastPoint_computeRange {query : BucketQuery} {r : TimeRange} {bucket : ℤ}
    (hdvd : query.bucketMs ∣ bucket) :
    lastPoint (computeRange aggregate events query.bucketSeconds r) bucket =
      if Reaches query.bucketMs bucket r then
        some ⟨bucket, seriesIn aggregate events query.bucketMs r bucket⟩ else none := by
  split_ifs with hreach
  · have hmem : (⟨bucket, seriesIn aggregate events query.bucketMs r bucket⟩ : TimeseriesPoint ω) ∈
        computeRange aggregate events query.bucketSeconds r :=
      mem_computeRange.mpr ⟨⟨hdvd, hreach⟩, rfl⟩
    refine lastPoint_eq_some hmem ?_
    rintro ⟨other, series⟩ hq rfl
    exact (mem_computeRange.mp hq).2
  · refine lastPoint_eq_none ?_
    rintro q hq rfl
    exact hreach (mem_computeRange.mp hq).1.2

lemma mem_slicePointsFromBuckets {buckets : List (CachedBucket ω)} {step startMs endMs : ℤ}
    (hstep : 0 < step) (hsound : ∀ b ∈ buckets, SoundBucket aggregate events step b)
    (hsorted : buckets.Pairwise fun a b => a.startMs ≤ b.startMs) {p : TimeseriesPoint ω} :
    p ∈ slicePointsFromBuckets startMs endMs buckets ↔
      (startMs ≤ p.bucket ∧ p.bucket < endMs) ∧
      (∃ b ∈ buckets, b.startMs = p.bucket) ∧ p = windowPoint aggregate events step p.bucket := by
  induction buckets with
  | nil => simp [slicePointsFromBuckets]
  | cons bucket rest ih =>
    have hbucket := hsound bucket (List.mem_cons_self ..)
    obtain ⟨hlater, htail⟩ := List.pairwise_cons.mp hsorted
    have hrest := ih (fun b hb => hsound b (List.mem_cons_of_mem _ hb)) htail
    have hwidth := hbucket.width
    unfold slicePointsFromBuckets
    split_ifs with hskip hstop
    · rw [hrest]
      constructor
      · rintro ⟨hin, ⟨b, hb, hstart⟩, hp⟩
        exact ⟨hin, ⟨b, List.mem_cons_of_mem _ hb, hstart⟩, hp⟩
      · rintro ⟨hin, ⟨b, hb, hstart⟩, hp⟩
        rcases List.mem_cons.mp hb with rfl | hb
        · omega
        · exact ⟨hin, ⟨b, hb, hstart⟩, hp⟩
    · constructor
      · intro h
        cases h
      · rintro ⟨hin, ⟨b, hb, hstart⟩, -⟩
        rcases List.mem_cons.mp hb with rfl | hb
        · omega
        · have := hlater b hb
          omega
    · rw [List.mem_append, hrest, hbucket.points, List.mem_filter, List.mem_singleton,
        decide_eq_true_eq]
      constructor
      · rintro (⟨hp, hin⟩ | ⟨hin, ⟨b, hb, hstart⟩, hp⟩)
        · subst hp
          exact ⟨hin, ⟨bucket, List.mem_cons_self .., rfl⟩, rfl⟩
        · exact ⟨hin, ⟨b, List.mem_cons_of_mem _ hb, hstart⟩, hp⟩
      · rintro ⟨hin, ⟨b, hb, hstart⟩, hp⟩
        rcases List.mem_cons.mp hb with rfl | hb
        · exact Or.inl ⟨hstart ▸ hp, hin⟩
        · exact Or.inr ⟨hin, ⟨b, hb, hstart⟩, hp⟩

/-- The points of an answer are sorted, and each is the last one of its bucket. -/
lemma mem_mergedPoints {startMs endMs : ℤ} {existing : List (CachedBucket ω)}
    {fresh : List (TimeseriesPoint ω)} {p : TimeseriesPoint ω} :
    p ∈ mergedPoints startMs endMs existing fresh ↔
      lastPoint (slicePointsFromBuckets startMs endMs existing ++
        fresh.filter fun p => startMs ≤ p.bucket ∧ p.bucket < endMs) p.bucket = some p := by
  rw [mergedPoints, (List.perm_insertionSort _ _).mem_iff, InsertMap.mem_values,
    InsertMap.setAll_setAll]
  constructor
  · rintro ⟨k, hget⟩
    rw [InsertMap.get_setAll, InsertMap.get_empty, Option.or_none] at hget
    obtain rfl : p.bucket = k := by simpa using List.find?_some hget
    exact hget
  · intro h
    refine ⟨p.bucket, ?_⟩
    rw [InsertMap.get_setAll, InsertMap.get_empty, Option.or_none]
    exact h

lemma mergedPoints_pairwise (startMs endMs : ℤ) (existing : List (CachedBucket ω))
    (fresh : List (TimeseriesPoint ω)) :
    (mergedPoints startMs endMs existing fresh).Pairwise fun a b => a.bucket < b.bucket := by
  have htotal : Std.Total fun a b : TimeseriesPoint ω => a.bucket ≤ b.bucket :=
    ⟨fun a b => le_total a.bucket b.bucket⟩
  have htrans : IsTrans (TimeseriesPoint ω) fun a b => a.bucket ≤ b.bucket :=
    ⟨fun a b c hab hbc => le_trans hab hbc⟩
  unfold mergedPoints
  dsimp only
  rw [InsertMap.setAll_setAll]
  generalize hpoints : slicePointsFromBuckets startMs endMs existing ++
    fresh.filter (fun p => startMs ≤ p.bucket ∧ p.bucket < endMs) = points
  have hsorted := List.pairwise_insertionSort (fun a b : TimeseriesPoint ω => a.bucket ≤ b.bucket)
    (InsertMap.setAll TimeseriesPoint.bucket InsertMap.empty points).values
  have hperm := List.perm_insertionSort (fun a b : TimeseriesPoint ω => a.bucket ≤ b.bucket)
    (InsertMap.setAll TimeseriesPoint.bucket InsertMap.empty points).values
  have hnodup := (hperm.map TimeseriesPoint.bucket).nodup_iff.mpr
    (InsertMap.setAll_pairwise TimeseriesPoint.bucket points)
  have hne := List.pairwise_map.mp hnodup
  exact (hsorted.and hne).imp fun h => lt_of_le_of_ne h.1 h.2

lemma lastPoint_filter {points : List (TimeseriesPoint ω)} {startMs endMs bucket : ℤ}
    (hin : startMs ≤ bucket ∧ bucket < endMs) :
    lastPoint (points.filter fun p => startMs ≤ p.bucket ∧ p.bucket < endMs) bucket =
      lastPoint points bucket := by
  unfold lastPoint
  rw [← List.filter_reverse, List.find?_filter]
  congr 1
  funext p
  by_cases hp : p.bucket = bucket
  · simp [hp, hin]
  · simp [hp]

/-- The points fetched for the ranges to fill, the settled ones first. -/
lemma fetched_eq (missing : List MissingRange) (compute : TimeRange → List (TimeseriesPoint ω)) :
    ((coalesceMissingRanges missing).map fun item => (item, compute item.range)).flatMap (·.2) =
      ((missingSpans missing).get true).elim [] compute ++
        ((missingSpans missing).get false).elim [] compute := by
  unfold coalesceMissingRanges
  cases hsettled : (missingSpans missing).get true with
  | none =>
    cases hlive : (missingSpans missing).get false with
    | none => simp [hsettled, hlive]
    | some l => simp [hsettled, hlive]
  | some r =>
    cases hlive : (missingSpans missing).get false with
    | none => simp [hsettled, hlive]
    | some l => simp [hsettled, hlive]

lemma lastPoint_elim {query : BucketQuery} (span : Option TimeRange) {bucket : ℤ}
    (hdvd : query.bucketMs ∣ bucket) :
    lastPoint (span.elim [] (computeRange aggregate events query.bucketSeconds)) bucket =
      (span.filter fun r => Reaches query.bucketMs bucket r).map fun r =>
        ⟨bucket, seriesIn aggregate events query.bucketMs r bucket⟩ := by
  cases span with
  | none => rfl
  | some r =>
    rw [Option.elim_some, lastPoint_computeRange hdvd]
    by_cases hreach : Reaches query.bucketMs bucket r
    · simp [hreach, Option.filter]
    · simp [hreach, Option.filter]

/-- The condition under which each requested bucket is served with all its requested events. -/
structure ServesExactly (aggregate : Aggregate α ω) (events : List (WarehouseEvent α))
    (step fluxBoundaryMs startMs endMs : ℤ) (uncached : ℤ → Prop) : Prop where
  /-- An uncached bucket cut by the flux boundary: its events before the boundary do not matter. -/
  fluxCut : ∀ bucket, step ∣ bucket → uncached bucket → bucket < fluxBoundaryMs →
    fluxBoundaryMs < min (bucket + step) endMs →
    seriesIn aggregate events step ⟨fluxBoundaryMs, endMs⟩ bucket =
      seriesIn aggregate events step ⟨startMs, endMs⟩ bucket
  /-- A cached bucket at which a fetched range ends: it has no requested events. -/
  fillEnd : ∀ bucket, step ∣ bucket → startMs ≤ bucket → bucket < endMs → ¬ uncached bucket →
    FillEndsAt uncached fluxBoundaryMs bucket →
    ∀ e ∈ events, ¬ (bucket ≤ e.ms ∧ e.ms < min (bucket + step) endMs)
  /-- A cached bucket cut by the end of the request: its events after the end do not matter. -/
  requestEnd : ∀ bucket, step ∣ bucket → startMs ≤ bucket → bucket < endMs → ¬ uncached bucket →
    ¬ FillEndsAt uncached fluxBoundaryMs bucket → endMs < bucket + step →
    seriesIn aggregate events step ⟨bucket, bucket + step⟩ bucket =
      seriesIn aggregate events step ⟨startMs, endMs⟩ bucket

/-- The condition says for each bucket that the range it is served from gives the direct series. -/
lemma servesExactly_iff {step fluxBoundaryMs startMs endMs : ℤ} {uncached : ℤ → Prop}
    {settled live : Option TimeRange} (hstep : 0 < step)
    (hwin : Windowed uncached step startMs endMs)
    (hsettled : FillsClass uncached fluxBoundaryMs true settled)
    (hlive : FillsClass uncached fluxBoundaryMs false live) :
    ServesExactly aggregate events step fluxBoundaryMs startMs endMs uncached ↔
      ∀ bucket, step ∣ bucket → startMs ≤ bucket → bucket < endMs →
        seriesIn aggregate events step (servedRange step settled live bucket) bucket =
          seriesIn aggregate events step ⟨startMs, endMs⟩ bucket := by
  have hempty : ∀ bucket, step ∣ bucket → startMs ≤ bucket →
      (∀ t, bucket ≤ t → ¬ Holds (servedRange step settled live bucket) t) →
      (seriesIn aggregate events step (servedRange step settled live bucket) bucket =
          seriesIn aggregate events step ⟨startMs, endMs⟩ bucket ↔
        ∀ e ∈ events, ¬ (bucket ≤ e.ms ∧ e.ms < min (bucket + step) endMs)) := by
    intro bucket hdvd hin hnone
    have hserved : seriesIn aggregate events step (servedRange step settled live bucket) bucket =
        noSeries := by
      refine (seriesIn_eq_noSeries hstep hdvd).mpr ?_
      rintro e - ⟨hhold, hfrom, -⟩
      exact hnone _ hfrom hhold
    rw [hserved, eq_comm, seriesIn_eq_noSeries hstep hdvd]
    refine forall₂_congr fun e _ => ?_
    simp only [Holds]
    omega
  constructor
  · intro h bucket hdvd hin hend
    by_cases hun : uncached bucket
    · have hagree := served_uncached hstep hwin hsettled hlive hdvd hun
      rw [seriesIn_congr hstep hdvd hagree]
      split_ifs with hcut
      · exact h.fluxCut bucket hdvd hun hcut.1 hcut.2
      · rfl
    · rcases served_cached hstep hwin hsettled hlive hdvd hin hun with ⟨hends, hnone⟩ | ⟨hends, hagree⟩
      · exact (hempty bucket hdvd hin hnone).mpr (h.fillEnd bucket hdvd hin hend hun hends)
      · rw [seriesIn_congr hstep hdvd hagree]
        by_cases hcut : endMs < bucket + step
        · exact h.requestEnd bucket hdvd hin hend hun hends hcut
        · refine seriesIn_congr hstep hdvd fun t hfrom hto => ?_
          simp only [Holds]
          omega
  · intro h
    refine ⟨?_, ?_, ?_⟩
    · intro bucket hdvd hun hbefore hafter
      have hreq := hwin.requested _ hun
      have hagree := served_uncached hstep hwin hsettled hlive hdvd hun
      rw [if_pos ⟨hbefore, hafter⟩] at hagree
      rw [← seriesIn_congr hstep hdvd hagree]
      exact h bucket hdvd hreq.1 hreq.2
    · intro bucket hdvd hin hend hun hends
      rcases served_cached hstep hwin hsettled hlive hdvd hin hun with ⟨-, hnone⟩ | ⟨hnot, -⟩
      · exact (hempty bucket hdvd hin hnone).mp (h bucket hdvd hin hend)
      · exact absurd hends hnot
    · intro bucket hdvd hin hend hun hnot hcut
      rcases served_cached hstep hwin hsettled hlive hdvd hin hun with ⟨hends, -⟩ | ⟨-, hagree⟩
      · exact absurd hends hnot
      · rw [← seriesIn_congr hstep hdvd hagree]
        exact h bucket hdvd hin hend

/-- What the reads of a request give it. -/
def cachedBuckets (config : BucketCacheConfig) (request : BucketCacheRequest)
    (read : ℤ → CacheRead ω) : List (CachedBucket ω) :=
  existingBuckets (segmentReads config request read)

lemma sound_cachedBuckets (config : BucketCacheConfig) {request : BucketCacheRequest}
    (read : ℤ → CacheRead ω)
    (hread : ∀ segment data, read segment = .hit (some data) →
      Written aggregate events request.query segment data) :
    ∀ b ∈ cachedBuckets config request read,
      SoundBucket aggregate events request.query.bucketMs b := by
  intro b hb
  obtain ⟨r, hr, hb⟩ := List.mem_flatMap.mp (mem_sortByStart.mp hb)
  obtain ⟨segment, data, hhit, hb⟩ := mem_segmentReads hr hb
  exact (hread segment data hhit).sound b hb

lemma exists_cached {buckets : List (CachedBucket ω)} {step startMs endMs bucket : ℤ}
    (hsound : ∀ b ∈ buckets, SoundBucket aggregate events step b) (hdvd : step ∣ bucket)
    (hin : startMs ≤ bucket) (hend : bucket < endMs)
    (hcached : ¬ Uncached startMs endMs step buckets bucket) :
    ∃ b ∈ buckets, b.startMs = bucket := by
  have hnot : ¬ Outside buckets bucket := fun hout => hcached ⟨hin, hend, Or.inr hout⟩
  simp only [Outside, not_forall, not_not, exists_prop] at hnot
  obtain ⟨b, hb, hfrom, hto⟩ := hnot
  have hwindow := hsound b hb
  refine ⟨b, hb, eq_of_dvd_close hwindow.aligned hdvd ?_ ?_⟩
  · have := hwindow.width
    omega
  · have := hwindow.width
    omega

section

variable {query : BucketQuery} {startMs endMs fluxBoundaryMs bucket : ℤ}
  {buckets : List (CachedBucket ω)} {settled live : Option TimeRange}

/-- A requested bucket's last point is made from the events of the range it is served from. -/
lemma lastPoint_served (hsound : ∀ b ∈ buckets, SoundBucket aggregate events query.bucketMs b)
    (hsorted : buckets.Pairwise fun a b => a.startMs ≤ b.startMs)
    (hsettled : FillsClass (Uncached startMs endMs query.bucketMs buckets) fluxBoundaryMs true settled)
    (hlive : FillsClass (Uncached startMs endMs query.bucketMs buckets) fluxBoundaryMs false live)
    (hdvd : query.bucketMs ∣ bucket) (hin : startMs ≤ bucket ∧ bucket < endMs) :
    lastPoint (slicePointsFromBuckets startMs endMs buckets ++
      (settled.elim [] (computeRange aggregate events query.bucketSeconds) ++
        live.elim [] (computeRange aggregate events query.bucketSeconds)).filter
          fun p => startMs ≤ p.bucket ∧ p.bucket < endMs) bucket =
      some ⟨bucket, seriesIn aggregate events query.bucketMs
        (servedRange query.bucketMs settled live bucket) bucket⟩ := by
  have hstep := query.bucketMs_pos
  rw [lastPoint_append, lastPoint_filter hin, lastPoint_append, lastPoint_elim _ hdvd,
    lastPoint_elim _ hdvd, servedRange]
  cases hl : live.filter fun r => Reaches query.bucketMs bucket r with
  | some l => simp
  | none =>
    cases hs : settled.filter fun r => Reaches query.bucketMs bucket r with
    | some r => simp
    | none =>
      have hcached : ¬ Uncached startMs endMs query.bucketMs buckets bucket := by
        intro hun
        obtain ⟨r, hspan | hspan, hreach⟩ := exists_reaches hstep hsettled hlive hun
        · simp [hspan, Option.filter, hreach] at hs
        · simp [hspan, Option.filter, hreach] at hl
      obtain ⟨b, hb, hstart⟩ := exists_cached hsound hdvd hin.1 hin.2 hcached
      have hmem : windowPoint aggregate events query.bucketMs bucket ∈
          slicePointsFromBuckets startMs endMs buckets :=
        (mem_slicePointsFromBuckets hstep hsound hsorted).mpr ⟨hin, ⟨b, hb, hstart⟩, rfl⟩
      have hlast : lastPoint (slicePointsFromBuckets startMs endMs buckets) bucket =
          some (windowPoint aggregate events query.bucketMs bucket) := by
        refine lastPoint_eq_some hmem ?_
        rintro q hq hbucket
        rw [((mem_slicePointsFromBuckets hstep hsound hsorted).mp hq).2.2, hbucket]
        rfl
      simp [hlast, windowPoint]

/-- Every point that goes into an answer is of a requested bucket. -/
lemma requested_of_mem (hsound : ∀ b ∈ buckets, SoundBucket aggregate events query.bucketMs b)
    (hsorted : buckets.Pairwise fun a b => a.startMs ≤ b.startMs) {p : TimeseriesPoint ω}
    (h : p ∈ slicePointsFromBuckets startMs endMs buckets ++
      (settled.elim [] (computeRange aggregate events query.bucketSeconds) ++
        live.elim [] (computeRange aggregate events query.bucketSeconds)).filter
          fun p => startMs ≤ p.bucket ∧ p.bucket < endMs) :
    query.bucketMs ∣ p.bucket ∧ startMs ≤ p.bucket ∧ p.bucket < endMs := by
  have hfetched : ∀ span : Option TimeRange,
      p ∈ span.elim [] (computeRange aggregate events query.bucketSeconds) →
      query.bucketMs ∣ p.bucket := by
    intro span hp
    cases span with
    | none => cases hp
    | some r => exact (mem_computeRange.mp hp).1.1
  rcases List.mem_append.mp h with hslice | hfresh
  · obtain ⟨hin, ⟨b, hb, hstart⟩, -⟩ :=
      (mem_slicePointsFromBuckets query.bucketMs_pos hsound hsorted).mp hslice
    exact ⟨hstart ▸ (hsound b hb).aligned, hin⟩
  · obtain ⟨hp, hin⟩ := List.mem_filter.mp hfresh
    rw [decide_eq_true_eq] at hin
    rcases List.mem_append.mp hp with hp | hp
    · exact ⟨hfetched _ hp, hin⟩
    · exact ⟨hfetched _ hp, hin⟩

/-- The points of an answer: one for each requested bucket, made from the events of the range the
bucket is served from. -/
lemma mem_mergedPoints_served
    (hsound : ∀ b ∈ buckets, SoundBucket aggregate events query.bucketMs b)
    (hsorted : buckets.Pairwise fun a b => a.startMs ≤ b.startMs)
    (hsettled : FillsClass (Uncached startMs endMs query.bucketMs buckets) fluxBoundaryMs true settled)
    (hlive : FillsClass (Uncached startMs endMs query.bucketMs buckets) fluxBoundaryMs false live)
    {p : TimeseriesPoint ω} :
    p ∈ mergedPoints startMs endMs buckets
        (settled.elim [] (computeRange aggregate events query.bucketSeconds) ++
          live.elim [] (computeRange aggregate events query.bucketSeconds)) ↔
      (query.bucketMs ∣ p.bucket ∧ startMs ≤ p.bucket ∧ p.bucket < endMs) ∧
      p = ⟨p.bucket, seriesIn aggregate events query.bucketMs
        (servedRange query.bucketMs settled live p.bucket) p.bucket⟩ := by
  rw [mem_mergedPoints]
  constructor
  · intro hlast
    have hreq := requested_of_mem hsound hsorted (lastPoint_mem hlast).1
    rw [lastPoint_served hsound hsorted hsettled hlive hreq.1 hreq.2] at hlast
    exact ⟨hreq, (Option.some.inj hlast).symm⟩
  · rintro ⟨⟨hdvd, hin⟩, hp⟩
    rw [lastPoint_served hsound hsorted hsettled hlive hdvd hin]
    exact congrArg some hp.symm

lemma served_mem_mergedPoints
    (hsound : ∀ b ∈ buckets, SoundBucket aggregate events query.bucketMs b)
    (hsorted : buckets.Pairwise fun a b => a.startMs ≤ b.startMs)
    (hsettled : FillsClass (Uncached startMs endMs query.bucketMs buckets) fluxBoundaryMs true settled)
    (hlive : FillsClass (Uncached startMs endMs query.bucketMs buckets) fluxBoundaryMs false live)
    (hdvd : query.bucketMs ∣ bucket) (hin : startMs ≤ bucket ∧ bucket < endMs) :
    (⟨bucket, seriesIn aggregate events query.bucketMs
        (servedRange query.bucketMs settled live bucket) bucket⟩ : TimeseriesPoint ω) ∈
      mergedPoints startMs endMs buckets
        (settled.elim [] (computeRange aggregate events query.bucketSeconds) ++
          live.elim [] (computeRange aggregate events query.bucketSeconds)) :=
  (mem_mergedPoints_served hsound hsorted hsettled hlive).mpr ⟨⟨hdvd, hin⟩, rfl⟩

end

lemma mem_direct {query : BucketQuery} {startMs endMs : ℤ} {p : TimeseriesPoint ω} :
    p ∈ (computeRange aggregate events query.bucketSeconds ⟨startMs, endMs⟩).filter
        (fun p => startMs ≤ p.bucket ∧ p.bucket < endMs) ↔
      (query.bucketMs ∣ p.bucket ∧ startMs ≤ p.bucket ∧ p.bucket < endMs) ∧
      p = ⟨p.bucket, seriesIn aggregate events query.bucketMs ⟨startMs, endMs⟩ p.bucket⟩ := by
  have hstep := query.bucketMs_pos
  rw [List.mem_filter, mem_computeRange, decide_eq_true_eq]
  constructor
  · rintro ⟨⟨⟨hdvd, -⟩, hp⟩, hin⟩
    exact ⟨⟨hdvd, hin⟩, hp⟩
  · rintro ⟨⟨hdvd, hin⟩, hp⟩
    refine ⟨⟨⟨hdvd, ?_⟩, hp⟩, hin⟩
    simp only [Reaches]
    omega

lemma direct_pairwise (query : BucketQuery) (startMs endMs : ℤ) :
    ((computeRange aggregate events query.bucketSeconds ⟨startMs, endMs⟩).filter
      fun p => startMs ≤ p.bucket ∧ p.bucket < endMs).Pairwise fun a b => a.bucket < b.bucket := by
  refine List.Pairwise.filter _ ?_
  rw [computeRange_query]
  exact (stepsTo_pairwise query.bucketMs_pos _ _).map _ fun _ _ h => h

/-- Lists of points with ascending buckets are equal if they have the same points. -/
lemma points_ext {xs ys : List (TimeseriesPoint ω)}
    (hx : xs.Pairwise fun a b => a.bucket < b.bucket)
    (hy : ys.Pairwise fun a b => a.bucket < b.bucket) (h : ∀ p, p ∈ xs ↔ p ∈ ys) : xs = ys := by
  have hnodup : ∀ zs : List (TimeseriesPoint ω),
      zs.Pairwise (fun a b => a.bucket < b.bucket) → zs.Nodup := by
    intro zs hz
    refine hz.imp ?_
    rintro a b hab rfl
    exact lt_irrefl _ hab
  have hperm := (List.perm_ext_iff_of_nodup (hnodup xs hx) (hnodup ys hy)).mpr h
  refine hperm.eq_of_pairwise ?_ hx hy
  intro a b _ _ hab hba
  exact absurd hab (lt_asymm hba)

lemma points_getOrComputeBuckets (config : BucketCacheConfig) (nowMs : ℤ)
    (request : BucketCacheRequest) (read : ℤ → CacheRead ω)
    (compute : TimeRange → List (TimeseriesPoint ω)) :
    let spans := missingSpans (findMissingRanges (cachedBuckets config request read)
      request.startMs request.endMs request.query.bucketMs (config.fluxBoundaryMs nowMs))
    (getOrComputeBuckets config nowMs request read compute).1.points =
      mergedPoints request.startMs request.endMs (cachedBuckets config request read)
        ((spans.get true).elim [] compute ++ (spans.get false).elim [] compute) := by
  simp only [getOrComputeBuckets, fetched_eq, cachedBuckets]

/-- An answer's points are the direct ones iff every requested bucket is served exactly. -/
theorem points_eq_direct_iff (aggregate : Aggregate α ω) (events : List (WarehouseEvent α))
    (config : BucketCacheConfig) (nowMs : ℤ) (request : BucketCacheRequest)
    (read : ℤ → CacheRead ω)
    (hread : ∀ segment data, read segment = .hit (some data) →
      Written aggregate events request.query segment data) :
    (getOrComputeBuckets config nowMs request read
        (computeRange aggregate events request.query.bucketSeconds)).1.points =
      (computeRange aggregate events request.query.bucketSeconds
        ⟨request.startMs, request.endMs⟩).filter
          (fun p => request.startMs ≤ p.bucket ∧ p.bucket < request.endMs) ↔
    ServesExactly aggregate events request.query.bucketMs (config.fluxBoundaryMs nowMs)
      request.startMs request.endMs (Uncached request.startMs request.endMs
        request.query.bucketMs (cachedBuckets config request read)) := by
  have hstep := request.query.bucketMs_pos
  have hsound := sound_cachedBuckets config read hread
  have halign : Aligned request.query.bucketMs (cachedBuckets config request read) :=
    fun b hb => ⟨(hsound b hb).aligned, (hsound b hb).width⟩
  have hsorted := sortByStart_pairwise ((segmentReads config request read).flatMap (·.buckets))
  have hwin := windowed_uncached hstep halign request.startMs request.endMs
  have hfill := fillSpan_missing hstep halign request.startMs request.endMs
    (config.fluxBoundaryMs nowMs)
  rw [points_getOrComputeBuckets, servesExactly_iff hstep hwin (hfill true) (hfill false)]
  constructor
  · intro heq bucket hdvd hin hend
    have hmem := served_mem_mergedPoints hsound hsorted (hfill true) (hfill false) hdvd ⟨hin, hend⟩
    rw [heq, mem_direct] at hmem
    exact congrArg TimeseriesPoint.series hmem.2
  · intro hseries
    refine points_ext (mergedPoints_pairwise _ _ _ _) (direct_pairwise _ _ _) fun p => ?_
    rw [mem_mergedPoints_served hsound hsorted (hfill true) (hfill false), mem_direct]
    refine and_congr_right fun hreq => ?_
    rw [hseries p.bucket hreq.1 hreq.2.1 hreq.2.2]

def errorCounts : BucketQuery := ⟨"errors", 1, by decide⟩

def defaultConfig : BucketCacheConfig := ⟨60, 120⟩

def oneEvent : List (WarehouseEvent Unit) := [⟨100, "all", ()⟩]

def countEvents : Aggregate Unit ℕ := List.length

/-- The points of the group `all`. -/
def allCounts (points : List (TimeseriesPoint ℕ)) : List (ℤ × Option ℕ) :=
  points.map fun p => (p.bucket, p.series "all")

def coldRead : ℤ → CacheRead ℕ := fun _ => .miss

def warmRead (data : BucketCacheSegmentData ℕ) : ℤ → CacheRead ℕ :=
  fun segment => if segment = 0 then .hit (some data) else .miss

/-- Nothing is uncached once the only requested window is read. -/
lemma servesExactly_warm {data : BucketCacheSegmentData ℕ}
    (hdata : (readSegment errorCounts 120000 (warmRead data) 0).buckets.map
      (fun b => (b.startMs, b.endMs)) = [(0, 1000)]) :
    ServesExactly countEvents oneEvent 1000 40000 0 1000
      (Uncached 0 1000 1000 (cachedBuckets defaultConfig ⟨errorCounts, 0, 1000⟩ (warmRead data))) := by
  obtain ⟨b, hb, hwindow⟩ := List.mem_map.mp (hdata ▸ List.mem_singleton_self (0, 1000))
  obtain ⟨hstart, hend⟩ := Prod.mk.inj hwindow
  have hcached : b ∈ cachedBuckets defaultConfig ⟨errorCounts, 0, 1000⟩ (warmRead data) := by
    have hsegments : segmentStartsForRange 0 1000 120000 = [0] := by decide
    refine mem_sortByStart.mpr (List.mem_flatMap.mpr ⟨_, ?_, hb⟩)
    exact List.mem_map_of_mem (hsegments ▸ List.mem_singleton_self 0)
  have hnone : ∀ t, ¬ Uncached 0 1000 1000
      (cachedBuckets defaultConfig ⟨errorCounts, 0, 1000⟩ (warmRead data)) t := by
    rintro t ⟨hfrom, hto, hhead | hout⟩
    · have hzero : alignUp 1000 0 = 0 := by decide
      omega
    · have := hout b hcached
      omega
  refine ⟨fun bucket _ hun => absurd hun (hnone bucket), ?_, ?_⟩
  · intro bucket _ _ _ _ hends
    exact absurd hends.1 (hnone _)
  · intro bucket hdvd hin hbefore _ _ hcut
    omega

/-- A second request for a bucket that a first one has cached, the boundary being past it. -/
theorem points_eq_direct_iff_cached : ∃ data,
    Written countEvents oneEvent errorCounts 0 data ∧
    allCounts (getOrComputeBuckets defaultConfig 100000 ⟨errorCounts, 0, 1000⟩ (warmRead data)
      (computeRange countEvents oneEvent 1)).1.points = [(0, some 1)] := by
  have hfirst : (getOrComputeBuckets defaultConfig 100000 ⟨errorCounts, 0, 1000⟩ coldRead
      (computeRange countEvents oneEvent 1)).2.map (fun w => (w.1,
        (readSegment errorCounts 120000 (warmRead w.2) 0).buckets.map
          fun b => (b.startMs, b.endMs))) = [(0, [(0, 1000)])] := by
    decide
  have hdirect : allCounts ((computeRange countEvents oneEvent 1 ⟨0, 1000⟩).filter
      fun p => 0 ≤ p.bucket ∧ p.bucket < 1000) = [(0, some 1)] := by
    decide
  obtain ⟨⟨segment, data⟩, hmem, hdata⟩ :=
    List.mem_map.mp (hfirst ▸ List.mem_singleton_self (0, [(0, 1000)]))
  obtain ⟨rfl, hbuckets⟩ := Prod.mk.inj hdata
  have hwritten : Written countEvents oneEvent errorCounts 0 data :=
    .write defaultConfig 100000 0 1000 coldRead (fun _ _ h => nomatch h) 0 data hmem
  have hread : ∀ segment stored, warmRead data segment = .hit (some stored) →
      Written countEvents oneEvent errorCounts segment stored := by
    intro segment stored hhit
    unfold warmRead at hhit
    split_ifs at hhit with hzero
    obtain rfl := Option.some.inj (CacheRead.hit.inj hhit)
    exact hzero ▸ hwritten
  refine ⟨data, hwritten, ?_⟩
  have heq := (points_eq_direct_iff countEvents oneEvent defaultConfig 100000
    ⟨errorCounts, 0, 1000⟩ (warmRead data) hread).mpr (servesExactly_warm hbuckets)
  exact (congrArg allCounts heq).trans hdirect

/-- The boundary lies inside the only requested bucket, after its only event: the live range's
point replaces the settled one. -/
theorem points_ne_direct_flux_in_bucket :
    ¬ ∀ (events : List (WarehouseEvent Unit)) (config : BucketCacheConfig) (nowMs : ℤ)
      (request : BucketCacheRequest) (read : ℤ → CacheRead ℕ),
      (∀ segment data, read segment = .hit (some data) →
        Written countEvents events request.query segment data) →
      (getOrComputeBuckets config nowMs request read
          (computeRange countEvents events request.query.bucketSeconds)).1.points =
        (computeRange countEvents events request.query.bucketSeconds
          ⟨request.startMs, request.endMs⟩).filter
            fun p => request.startMs ≤ p.bucket ∧ p.bucket < request.endMs := by
  intro hclaim
  have heq := congrArg allCounts (hclaim oneEvent defaultConfig 60500 ⟨errorCounts, 0, 1000⟩
    coldRead (fun _ _ h => nomatch h))
  revert heq
  decide

end Maple.BucketCache
