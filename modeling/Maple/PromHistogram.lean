import Maple.PromSeries

/-! A histogram family as data points: one a series, with the distribution its buckets describe. -/

namespace Maple.Prometheus

/-! ### Sorted buckets -/

lemma find?_orderedInsert {α : Type} {r : α → α → Prop} [DecidableRel r] {p : α → Bool}
    (hp : ∀ a b, p a → p b → r a b) (a : α) (items : List α) :
    (items.orderedInsert r a).find? p = (a :: items).find? p := by
  induction items with
  | nil => rfl
  | cons b items ih =>
    rw [List.orderedInsert_cons]
    by_cases hab : r a b
    · rw [if_pos hab]
    · rw [if_neg hab, List.find?_cons, ih]
      cases ha : p a with
      | true =>
        have hb : p b = false := by
          rw [← Bool.not_eq_true]
          exact fun hb => hab (hp a b ha hb)
        simp [ha, hb]
      | false => simp [List.find?_cons, ha]

/-- Sorting leaves alone which of the items that sort alike comes first. -/
lemma find?_insertionSort {α : Type} {r : α → α → Prop} [DecidableRel r] {p : α → Bool}
    (hp : ∀ a b, p a → p b → r a b) (items : List α) :
    (items.insertionSort r).find? p = items.find? p := by
  induction items with
  | nil => rfl
  | cons a items ih =>
    rw [List.insertionSort_cons, find?_orderedInsert hp, List.find?_cons, List.find?_cons, ih]

lemma sortBuckets_perm (buckets : List Bucket) : (sortBuckets buckets).Perm buckets :=
  List.perm_insertionSort _ _

lemma orderedInsert_pairwise {bucket : Bucket} {buckets : List Bucket}
    (hbucket : bucket.le.isNaN = false) (hbuckets : ∀ other ∈ buckets, other.le.isNaN = false)
    (hsorted : buckets.Pairwise fun a b => Number.le a.le b.le) :
    (buckets.orderedInsert (fun a b => Number.le a.le b.le) bucket).Pairwise
      fun a b => Number.le a.le b.le := by
  induction buckets with
  | nil => simp
  | cons other rest ih =>
    obtain ⟨hother, hrest⟩ := List.pairwise_cons.mp hsorted
    rw [List.orderedInsert_cons]
    by_cases hle : Number.le bucket.le other.le
    · rw [if_pos hle, List.pairwise_cons]
      refine ⟨?_, hsorted⟩
      intro later hlater
      rcases List.mem_cons.mp hlater with rfl | hlater
      · exact hle
      · exact Number.le_trans hle (hother later hlater)
    · rw [if_neg hle, List.pairwise_cons]
      refine ⟨?_, ih (fun later hlater => hbuckets later (List.mem_cons_of_mem _ hlater)) hrest⟩
      intro later hlater
      rcases (List.mem_orderedInsert _).mp hlater with rfl | hlater
      · exact (Number.le_total hbucket (hbuckets other List.mem_cons_self)).resolve_left hle
      · exact hother later hlater

lemma sortBuckets_pairwise {buckets : List Bucket}
    (h : ∀ bucket ∈ buckets, bucket.le.isNaN = false) :
    (sortBuckets buckets).Pairwise fun a b => Number.le a.le b.le := by
  induction buckets with
  | nil => exact List.Pairwise.nil
  | cons bucket buckets ih =>
    have hbuckets : ∀ other ∈ buckets, other.le.isNaN = false := fun other hother =>
      h other (List.mem_cons_of_mem _ hother)
    have hsort : ∀ other ∈ sortBuckets buckets, other.le.isNaN = false := fun other hother =>
      hbuckets other ((sortBuckets_perm buckets).mem_iff.mp hother)
    exact orderedInsert_pairwise (h bucket List.mem_cons_self) hsort (ih hbuckets)

lemma bucketOf_spec {number : String → Number} {sample : PromSample} {bucket : Bucket}
    (h : bucketOf number sample = some bucket) :
    bucket.le.isNaN = false ∧ bucket.cumulative.isFinite := by
  unfold bucketOf at h
  cases hle : sample.labels.get "le" with
  | none => simp [hle] at h
  | some text =>
    simp only [hle, Option.ite_none_left_eq_some, Bool.or_eq_true, Bool.not_eq_true', not_or,
      Bool.not_eq_true, Bool.not_eq_false, Option.some.injEq] at h
    obtain ⟨⟨hnan, hfinite⟩, hbucket⟩ := h
    rw [← hbucket]
    exact ⟨hnan, hfinite⟩

lemma seriesBuckets_spec {number : String → Number} {family : PromMetricFamily} {labels : Labels}
    {bucket : Bucket} (h : bucket ∈ seriesBuckets number family labels) :
    bucket.le.isNaN = false ∧ bucket.cumulative.isFinite := by
  obtain ⟨sample, -, hsample⟩ := List.mem_filterMap.mp h
  unfold bucketPart at hsample
  split_ifs at hsample
  exact bucketOf_spec hsample

/-! ### Counts of the buckets -/

def ofInt (z : ℤ) : Number := .finite z

/-- What each count adds to the one before it, up to the total. -/
def deltas (previous total : ℤ) : List ℤ → List ℤ
  | [] => [total - previous]
  | count :: counts => (count - previous) :: deltas count total counts

lemma sum_deltas (previous total : ℤ) (counts : List ℤ) :
    (deltas previous total counts).sum = total - previous := by
  induction counts generalizing previous with
  | nil => simp [deltas]
  | cons count counts ih =>
    rw [deltas, List.sum_cons, ih]
    omega

lemma sum_take_deltas (previous total : ℤ) (counts : List ℤ) (n : ℕ) (hn : n < counts.length) :
    ((deltas previous total counts).take (n + 1)).sum = counts[n] - previous := by
  induction counts generalizing previous n with
  | nil => simp at hn
  | cons count counts ih =>
    rw [deltas, List.take_succ_cons, List.sum_cons]
    cases n with
    | zero => simp
    | succ n =>
      rw [ih count n (by simpa using hn), List.getElem_cons_succ]
      omega

lemma length_bucketCountsFrom (previous total : Number) (buckets : List Bucket) :
    (bucketCountsFrom previous total buckets).length = buckets.length + 1 := by
  induction buckets generalizing previous with
  | nil => rfl
  | cons bucket buckets ih => simp [bucketCountsFrom, ih]

lemma max0_sub_nonneg {a b : Number} (ha : a.isFinite) (hb : b.isFinite) :
    Number.le (.finite 0) (Number.max0 (a.sub b)) := by
  cases a with
  | nan => simp [Number.isFinite] at ha
  | infinity negative => simp [Number.isFinite] at ha
  | finite x =>
    cases b with
    | nan => simp [Number.isFinite] at hb
    | infinity negative => simp [Number.isFinite] at hb
    | finite y =>
      rcases Number.max0_nearest (x - y) with h | ⟨value, h, hvalue⟩
      · simp [Number.sub, h, Number.le]
      · simp [Number.sub, h, Number.le, hvalue]

lemma bucketCountsFrom_nonneg {previous total : Number} {buckets : List Bucket}
    (hprevious : previous.isFinite) (htotal : total.isFinite)
    (hbuckets : ∀ bucket ∈ buckets, bucket.cumulative.isFinite) :
    ∀ count ∈ bucketCountsFrom previous total buckets, Number.le (.finite 0) count := by
  induction buckets generalizing previous with
  | nil =>
    intro count hcount
    rw [List.mem_singleton.mp hcount]
    exact max0_sub_nonneg htotal hprevious
  | cons bucket buckets ih =>
    have hbucket := hbuckets bucket List.mem_cons_self
    intro count hcount
    rcases List.mem_cons.mp hcount with rfl | hcount
    · exact max0_sub_nonneg hbucket hprevious
    · exact ih hbucket (fun other hother => hbuckets other (List.mem_cons_of_mem _ hother)) count
        hcount

lemma max0_sub_int {a b : ℤ} (ha : a < 2 ^ 53) (hb : 0 ≤ b) (hab : b ≤ a) :
    Number.max0 ((ofInt a).sub (ofInt b)) = ofInt (a - b) := by
  have hbound : |a - b| < 2 ^ 53 := by
    rw [abs_of_nonneg (by omega)]
    omega
  have hsub : (ofInt a).sub (ofInt b) = ofInt (a - b) := by
    have hnearest := Number.nearest_int hbound
    push_cast at hnearest
    simp [ofInt, Number.sub, hnearest]
  have hnonneg : (0 : ℚ) ≤ ((a - b : ℤ) : ℚ) := by exact_mod_cast (by omega : 0 ≤ a - b)
  rw [hsub, ofInt, Number.max0, max_eq_right hnonneg]

/-- Rising counts below 2^53 are differenced exactly. -/
lemma bucketCountsFrom_int {previous total : ℤ} {counts : List ℤ} {buckets : List Bucket}
    (hbuckets : buckets.map (fun bucket => bucket.cumulative) = counts.map ofInt)
    (hprevious : 0 ≤ previous) (htotal : total < 2 ^ 53)
    (hrising : (previous :: counts ++ [total]).Pairwise (· ≤ ·)) :
    bucketCountsFrom (ofInt previous) (ofInt total) buckets =
      (deltas previous total counts).map ofInt := by
  induction counts generalizing previous buckets with
  | nil =>
    rw [List.map_nil, List.map_eq_nil_iff] at hbuckets
    subst hbuckets
    have hle : previous ≤ total := by simpa using hrising
    rw [bucketCountsFrom, deltas, List.map_singleton, max0_sub_int htotal hprevious hle]
  | cons count counts ih =>
    cases buckets with
    | nil => simp at hbuckets
    | cons bucket buckets =>
      simp only [List.map_cons, List.cons.injEq] at hbuckets
      obtain ⟨hbucket, hbuckets⟩ := hbuckets
      obtain ⟨hleast, hrest⟩ := List.pairwise_cons.mp hrising
      have hle : previous ≤ count := hleast count (by simp)
      have hbound : count ≤ total := (List.pairwise_cons.mp hrest).1 total (by simp)
      rw [bucketCountsFrom, deltas, List.map_cons, hbucket,
        max0_sub_int (by omega) hprevious hle, ih hbuckets (by omega) hrest]

/-! ### The points -/

@[simp] lemma bigInt_round_finite (value : ℚ) :
    bigInt (Number.finite value).round = some ⌊value + 1 / 2⌋ := by
  simp [Number.round, bigInt]

lemma isSome_toUnixNano (epochMs : Number) : (toUnixNano epochMs).isSome = epochMs.isFinite := by
  cases epochMs with
  | nan => rfl
  | infinity negative => rfl
  | finite value => simp [toUnixNano, Number.isFinite]

/-- With a total to report. -/
def hasTotal (entry : HistogramSeries) : Bool := (totalCount entry).any Number.isFinite

lemma histogramPoint_eq_some {ctx : ScrapeOtlpContext} {entry : HistogramSeries}
    {point : OtlpHistogramDataPoint} (h : histogramPoint ctx entry = some (some point)) :
    point.attributes = mergeAttributes ctx entry.labels ∧ totalCount entry = some point.count ∧
      point.count.isFinite ∧
      point.bucketCounts = bucketCountsFrom (.finite 0) point.count (finiteBuckets entry) ∧
      point.explicitBounds = ((finiteBuckets entry).map fun bucket => bucket.le) ∧
      toUnixNano (entry.timestampMs.getD ctx.scrapeTimeMs) = some point.timeUnixNano ∧
      point.sum = entry.sum.filter fun sum => sum.isFinite := by
  unfold histogramPoint at h
  cases htotal : totalCount entry with
  | none => simp [htotal] at h
  | some total =>
    cases hfinite : total.isFinite with
    | false => simp [htotal, hfinite] at h
    | true =>
      simp only [htotal, hfinite, Bool.not_true, Bool.false_eq_true, if_false, Option.map_eq_some_iff,
        Option.some.injEq] at h
      obtain ⟨timeUnixNano, hnano, hpoint⟩ := h
      rw [← hpoint]
      exact ⟨rfl, rfl, hfinite, rfl, rfl, hnano, rfl⟩

lemma histogramPoint_cases (ctx : ScrapeOtlpContext) (entry : HistogramSeries) :
    (hasTotal entry = false ∧ histogramPoint ctx entry = some none) ∨
      hasTotal entry ∧
        ((entry.timestampMs.getD ctx.scrapeTimeMs).isFinite = false ∧
            histogramPoint ctx entry = none ∨
          (entry.timestampMs.getD ctx.scrapeTimeMs).isFinite ∧
            ∃ point, histogramPoint ctx entry = some (some point)) := by
  unfold histogramPoint hasTotal
  cases htotal : totalCount entry with
  | none => exact Or.inl ⟨rfl, rfl⟩
  | some total =>
    cases hfinite : total.isFinite with
    | false => simp [hfinite]
    | true =>
      have htime := isSome_toUnixNano (entry.timestampMs.getD ctx.scrapeTimeMs)
      cases hnano : toUnixNano (entry.timestampMs.getD ctx.scrapeTimeMs) with
      | none =>
        rw [hnano, Option.isSome_none] at htime
        simp [hfinite, ← htime]
      | some timeUnixNano =>
        rw [hnano, Option.isSome_some] at htime
        simp [hfinite, ← htime]

/-- Each series with a total has its point, the others are counted, and none is lost unless a
time is not a number. -/
lemma histogramPoints_spec (ctx : ScrapeOtlpContext) (series : List HistogramSeries) :
    match histogramPoints ctx series with
    | none => ∃ entry ∈ series, hasTotal entry ∧
        (entry.timestampMs.getD ctx.scrapeTimeMs).isFinite = false
    | some (points, dropped) =>
      List.Forall₂ (fun entry point => histogramPoint ctx entry = some (some point))
        (series.filter hasTotal) points ∧
      dropped = (series.filter fun entry => !hasTotal entry).length ∧
      ∀ entry ∈ series, hasTotal entry → (entry.timestampMs.getD ctx.scrapeTimeMs).isFinite := by
  induction series with
  | nil => simp [histogramPoints]
  | cons entry series ih =>
    rcases histogramPoint_cases ctx entry with
      ⟨hnone, hpoint⟩ | ⟨htotal, ⟨htime, hpoint⟩ | ⟨htime, point, hpoint⟩⟩
    · cases hrest : histogramPoints ctx series with
      | none =>
        rw [hrest] at ih
        simpa [histogramPoints, hpoint, hrest, hnone] using ih
      | some rest =>
        rw [hrest] at ih
        simpa [histogramPoints, hpoint, hrest, hnone] using ih
    · simp [histogramPoints, hpoint, htotal, htime]
    · cases hrest : histogramPoints ctx series with
      | none =>
        rw [hrest] at ih
        obtain ⟨late, hlate, hbad⟩ := ih
        simp only [histogramPoints, hpoint, hrest]
        exact ⟨late, List.mem_cons_of_mem _ hlate, hbad⟩
      | some rest =>
        rw [hrest] at ih
        simpa [histogramPoints, hpoint, hrest, htotal, htime] using ih

/-! ### The distribution -/

/-- The cumulative counts of buckets with distinct bounds, rising up to the total. -/
structure Cumulative (buckets : List Bucket) (total : Number) : Prop where
  distinct : (buckets.map fun bucket => bucket.le).Nodup
  rising : ∀ a ∈ buckets, ∀ b ∈ buckets, Number.le a.le b.le →
    Number.le a.cumulative b.cumulative
  upTo : ∃ n : ℤ, total = ofInt n ∧ 0 ≤ n ∧ n < 2 ^ 53 ∧
    ∀ bucket ∈ buckets, ∃ z : ℤ, bucket.cumulative = ofInt z ∧ 0 ≤ z ∧ z ≤ n

section Distribution
variable (number : String → Number) (family : PromMetricFamily)

/-- The buckets of a series below a bound. -/
def boundedBuckets (labels : Labels) : List Bucket :=
  (seriesBuckets number family labels).filter fun bucket => bucket.le.isFinite

/-- A point with the distribution of the series with the labels. -/
structure Describes (ctx : ScrapeOtlpContext) (labels : Labels) (point : OtlpHistogramDataPoint) :
    Prop where
  attributes : point.attributes = mergeAttributes ctx labels
  count : seriesTotal number family labels = some point.count
  bounds : point.explicitBounds.Perm
    ((boundedBuckets number family labels).map fun bucket => bucket.le)
  sorted : point.explicitBounds.Pairwise fun a b => Number.le a b
  length : point.bucketCounts.length = point.explicitBounds.length + 1
  nonneg : ∀ count ∈ point.bucketCounts, Number.le (.finite 0) count
  preserved : Cumulative (boundedBuckets number family labels) point.count →
    (point.explicitBounds.Pairwise fun a b => Number.le a b ∧ a ≠ b) ∧
    ∃ counts : List ℤ, point.bucketCounts = counts.map ofInt ∧ point.count = ofInt counts.sum ∧
      ∀ (i : ℕ) (bound : Number), point.explicitBounds[i]? = some bound →
        ∃ bucket ∈ boundedBuckets number family labels,
          bucket.le = bound ∧ bucket.cumulative = ofInt (counts.take (i + 1)).sum

end Distribution

section Points
variable {number : String → Number} {family : PromMetricFamily}

/-- What the series of the labels has in the map. -/
structure Stored (number : String → Number) (family : PromMetricFamily)
    (entry : HistogramSeries) : Prop where
  buckets : entry.buckets = seriesBuckets number family entry.labels
  total : totalCount entry = seriesTotal number family entry.labels
  first : ∃ sample, (seriesSamples number family entry.labels).head? = some sample ∧
    entry.timestampMs = sample.timestampMs

lemma stored_entry {key : List Char} {entry : HistogramSeries}
    (h : (key, entry) ∈ (histogramSeries number family).1.entries) :
    Stored number family entry := by
  obtain ⟨-, hentry⟩ := entry_spec number family h
  rw [seriesEntry, Option.map_eq_some_iff] at hentry
  obtain ⟨first, hhead, hentry⟩ := hentry
  have hbuckets : entry.buckets = seriesBuckets number family entry.labels :=
    congrArg HistogramSeries.buckets hentry.symm
  have hcount : entry.count =
      ((seriesSamples number family entry.labels).filterMap (countPart family)).getLast? :=
    congrArg HistogramSeries.count hentry.symm
  refine ⟨hbuckets, ?_, ?_⟩
  · have hfind : (sortBuckets entry.buckets).find? (fun bucket => bucket.le = .infinity false) =
        entry.buckets.find? fun bucket => bucket.le = .infinity false := by
      apply find?_insertionSort
      intro a b ha hb
      simp only [decide_eq_true_eq] at ha hb
      rw [ha, hb]
      rfl
    rw [totalCount, seriesTotal, hfind, hcount, hbuckets]
    cases ((seriesSamples number family entry.labels).filterMap (countPart family)).getLast? with
    | none => rfl
    | some count => rfl
  · exact ⟨first, hhead, congrArg HistogramSeries.timestampMs hentry.symm⟩

lemma finiteBuckets_perm {entry : HistogramSeries} (h : Stored number family entry) :
    (finiteBuckets entry).Perm (boundedBuckets number family entry.labels) := by
  rw [boundedBuckets, ← h.buckets]
  exact (sortBuckets_perm entry.buckets).filter _

lemma finiteBuckets_sorted {entry : HistogramSeries} (h : Stored number family entry) :
    (finiteBuckets entry).Pairwise fun a b => Number.le a.le b.le := by
  refine (sortBuckets_pairwise ?_).filter _
  intro bucket hbucket
  rw [h.buckets] at hbucket
  exact (seriesBuckets_spec hbucket).1

/-- The integer of a number that is one. -/
def intOf : Number → ℤ
  | .finite value => value.num
  | _ => 0

@[simp] lemma intOf_ofInt (z : ℤ) : intOf (ofInt z) = z := rfl

lemma le_ofInt {a b : ℤ} : Number.le (ofInt a) (ofInt b) ↔ a ≤ b := by
  simp [Number.le, ofInt]

/-- The counts of the sorted buckets rise up to the total. -/
lemma Cumulative.counts {buckets : List Bucket} {n : ℤ} (h : Cumulative buckets (ofInt n))
    (hsorted : buckets.Pairwise fun a b => Number.le a.le b.le) :
    ∃ counts : List ℤ, buckets.map (fun bucket => bucket.cumulative) = counts.map ofInt ∧
      (0 :: counts ++ [n]).Pairwise (· ≤ ·) ∧ n < 2 ^ 53 := by
  obtain ⟨n', hn', hnonneg, hsmall, hcounts⟩ := h.upTo
  have hn : n = n' := by
    have heq := congrArg intOf hn'
    simpa using heq
  subst hn
  have hint : ∀ bucket ∈ buckets, bucket.cumulative = ofInt (intOf bucket.cumulative) ∧
      0 ≤ intOf bucket.cumulative ∧ intOf bucket.cumulative ≤ n := by
    intro bucket hbucket
    obtain ⟨z, hz, hlow, hhigh⟩ := hcounts bucket hbucket
    rw [hz, intOf_ofInt]
    exact ⟨rfl, hlow, hhigh⟩
  refine ⟨buckets.map fun bucket => intOf bucket.cumulative, ?_, ?_, hsmall⟩
  · rw [List.map_map]
    exact List.map_congr_left fun bucket hbucket => (hint bucket hbucket).1
  · have hpairs : (buckets.map fun bucket => intOf bucket.cumulative).Pairwise (· ≤ ·) := by
      rw [List.pairwise_map]
      refine hsorted.imp_of_mem fun {a b} ha hb hle => ?_
      have hcumulative := h.rising a ha b hb hle
      rwa [(hint a ha).1, (hint b hb).1, le_ofInt] at hcumulative
    rw [List.cons_append, List.pairwise_cons, List.pairwise_append]
    refine ⟨?_, hpairs, by simp, ?_⟩
    · intro count hcount
      rcases List.mem_append.mp hcount with hcount | hcount
      · obtain ⟨bucket, hbucket, rfl⟩ := List.mem_map.mp hcount
        exact (hint bucket hbucket).2.1
      · rw [List.mem_singleton.mp hcount]
        exact hnonneg
    · intro count hcount total htotal
      obtain ⟨bucket, hbucket, rfl⟩ := List.mem_map.mp hcount
      rw [List.mem_singleton.mp htotal]
      exact (hint bucket hbucket).2.2

lemma Cumulative.perm {buckets others : List Bucket} {total : Number} (h : Cumulative buckets total)
    (hperm : others.Perm buckets) : Cumulative others total := by
  obtain ⟨n, hn, hnonneg, hsmall, hcounts⟩ := h.upTo
  exact
    { distinct := (hperm.map _).nodup_iff.mpr h.distinct
      rising := fun a ha b hb => h.rising a (hperm.mem_iff.mp ha) b (hperm.mem_iff.mp hb)
      upTo := ⟨n, hn, hnonneg, hsmall, fun b hb => hcounts b (hperm.mem_iff.mp hb)⟩ }

lemma describes_point {ctx : ScrapeOtlpContext} {entry : HistogramSeries}
    {point : OtlpHistogramDataPoint} (h : Stored number family entry)
    (hpoint : histogramPoint ctx entry = some (some point)) :
    Describes number family ctx entry.labels point := by
  obtain ⟨hattributes, htotal, hfinite, hcounts, hbounds, -⟩ := histogramPoint_eq_some hpoint
  have hperm := finiteBuckets_perm h
  have hsorted := finiteBuckets_sorted h
  have hcumulative : ∀ bucket ∈ finiteBuckets entry, bucket.cumulative.isFinite := by
    intro bucket hbucket
    have hmem := (List.mem_filter.mp (hperm.mem_iff.mp hbucket)).1
    exact (seriesBuckets_spec hmem).2
  refine ⟨hattributes, h.total ▸ htotal, ?_, ?_, ?_, ?_, ?_⟩
  · rw [hbounds]
    exact hperm.map _
  · rw [hbounds, List.pairwise_map]
    exact hsorted
  · rw [hcounts, hbounds, length_bucketCountsFrom, List.length_map]
  · rw [hcounts]
    exact bucketCountsFrom_nonneg rfl hfinite hcumulative
  · intro hseries
    have hown := hseries.perm hperm
    obtain ⟨n, hn, -⟩ := hown.upTo
    rw [hn] at hown
    obtain ⟨counts, hmap, hrising, hsmall⟩ := hown.counts hsorted
    have hdeltas := bucketCountsFrom_int hmap le_rfl hsmall hrising
    constructor
    · rw [hbounds, List.pairwise_map]
      have hne := List.pairwise_map.mp hown.distinct
      exact hsorted.and hne
    · refine ⟨deltas 0 n counts, ?_, ?_, ?_⟩
      · rw [hcounts, hn, ← hdeltas]
        rfl
      · rw [sum_deltas, hn, sub_zero]
      · intro i bound hbound
        rw [hbounds, List.getElem?_map, Option.map_eq_some_iff] at hbound
        obtain ⟨bucket, hbucket, hle⟩ := hbound
        have hi : i < counts.length := by
          have hlength := congrArg List.length hmap
          rw [List.length_map, List.length_map] at hlength
          rw [← hlength]
          exact (List.getElem?_eq_some_iff.mp hbucket).1
        refine ⟨bucket, hperm.mem_iff.mp (List.mem_of_getElem? hbucket), hle, ?_⟩
        have hcount := congrArg (·[i]?) hmap
        simp only [List.getElem?_map, hbucket, List.getElem?_eq_getElem hi, Option.map_some,
          Option.some.injEq] at hcount
        rw [sum_take_deltas 0 n counts i hi, sub_zero, hcount]

end Points

section Conversion
variable (number : String → Number) (family : PromMetricFamily) (ctx : ScrapeOtlpContext)

/-- The labels of the series with a total, in the order the series began. -/
def totalLabels : List Labels :=
  ((histogramSeries number family).1.values.filter hasTotal).map fun entry => entry.labels

lemma stored_value {entry : HistogramSeries}
    (h : entry ∈ (histogramSeries number family).1.values) :
    ∃ key, (key, entry) ∈ (histogramSeries number family).1.entries := by
  obtain ⟨key, hget⟩ := InsertMap.mem_values.mp h
  exact ⟨key, InsertMap.mem_entries.mpr hget⟩

lemma totalLabels_pairwise :
    (totalLabels number family).Pairwise fun a b => ¬sameLabels a b := by
  have hkeys : (histogramSeries number family).1.values.map
      (fun entry => seriesKey entry.labels "le") =
        (histogramSeries number family).1.entries.map Prod.fst := by
    rw [InsertMap.values, List.map_map]
    exact List.map_congr_left fun entry hentry => (entry_spec number family hentry).1
  have hnodup := (histogramSeries number family).1.nodup
  rw [← hkeys] at hnodup
  have hpairs := (List.pairwise_map.mp hnodup).filter hasTotal
  rw [totalLabels, List.pairwise_map]
  refine hpairs.imp fun {a b} hne hsame => ?_
  exact hne (seriesKey_eq_iff.mpr hsame)

/-- The metric of a family, unless it has no points. -/
def histogramMetrics (points : List OtlpHistogramDataPoint) : List OtlpMetric :=
  if points.isEmpty then [] else [
    { name := family.name
      description := family.help.getD ""
      unit := family.unit.getD ""
      histogram := some { dataPoints := points, aggregationTemporality := CUMULATIVE } }]

lemma convertHistogramFamily_eq (state : ConversionState) :
    convertHistogramFamily number family ctx state =
      (histogramPoints ctx (histogramSeries number family).1.values).map fun result =>
        { metrics := state.metrics ++ histogramMetrics family result.1
          counts := { state.counts with histogram := state.counts.histogram + result.1.length }
          dropped := state.dropped + (histogramSeries number family).2 + result.2 } := by
  unfold convertHistogramFamily
  cases hpoints : histogramPoints ctx (histogramSeries number family).1.values with
  | none => simp [hpoints]
  | some result =>
    obtain ⟨points, dropped⟩ := result
    cases points with
    | nil => simp [hpoints, histogramMetrics]
    | cons point points => simp [hpoints, histogramMetrics]

/-- Every accepted sample is in a series that is stored. -/
lemma exists_entry {sample : PromSample} (hsample : sample ∈ family.samples)
    (haccepted : accepted number family sample) :
    ∃ entry ∈ (histogramSeries number family).1.values, Stored number family entry ∧
      sameLabels entry.labels sample.labels := by
  have hget := get_histogramSeries number family sample.labels
  have hmem : sample ∈ seriesSamples number family sample.labels := by
    rw [mem_seriesSamples]
    exact ⟨hsample, haccepted, sameLabels_iff.mpr fun _ _ => rfl⟩
  obtain ⟨entry, hentry⟩ : ∃ entry,
      seriesEntry number family (seriesSamples number family sample.labels) = some entry := by
    unfold seriesEntry
    cases hsamples : seriesSamples number family sample.labels with
    | nil => simp [hsamples] at hmem
    | cons first samples => exact ⟨_, rfl⟩
  rw [hentry] at hget
  have hstored := InsertMap.mem_entries.mpr hget
  exact ⟨entry, InsertMap.mem_values.mpr ⟨_, hget⟩, stored_entry hstored,
    seriesKey_eq_iff.mp (entry_spec number family hstored).1⟩

/-- A series with a finite total is among those with a point. -/
lemma exists_totalLabels {sample : PromSample} (hsample : sample ∈ family.samples)
    (haccepted : accepted number family sample)
    (htotal : (seriesTotal number family sample.labels).any Number.isFinite) :
    ∃ labels ∈ totalLabels number family, sameLabels labels sample.labels := by
  obtain ⟨entry, hentry, hstored, hsame⟩ := exists_entry number family hsample haccepted
  refine ⟨entry.labels, List.mem_map_of_mem (List.mem_filter.mpr ⟨hentry, ?_⟩), hsame⟩
  rwa [hasTotal, hstored.total, seriesTotal_congr hsame]

/-- A histogram family becomes one point for each series with a finite total, and each point has
the distribution of its series. Only a time that is not finite stops the conversion. -/
theorem distribution_preserved (state : ConversionState) :
    (convertHistogramFamily number family ctx state = none →
      ∃ sample ∈ family.samples, accepted number family sample ∧
        (sample.timestampMs.getD ctx.scrapeTimeMs).isFinite = false) ∧
    ∀ after, convertHistogramFamily number family ctx state = some after →
      ∃ (labels : List Labels) (points : List OtlpHistogramDataPoint),
        after.metrics = state.metrics ++ histogramMetrics family points ∧
        labels.Pairwise (fun a b => ¬sameLabels a b) ∧
        List.Forall₂ (Describes number family ctx) labels points ∧
        ∀ sample ∈ family.samples, accepted number family sample →
          (seriesTotal number family sample.labels).any Number.isFinite →
          ∃ own ∈ labels, sameLabels own sample.labels := by
  have hpoints := histogramPoints_spec ctx (histogramSeries number family).1.values
  have hconvert := convertHistogramFamily_eq number family ctx state
  constructor
  · intro h
    rw [hconvert, Option.map_eq_none_iff] at h
    rw [h] at hpoints
    obtain ⟨entry, hentry, -, htime⟩ := hpoints
    obtain ⟨key, hkey⟩ := stored_value number family hentry
    obtain ⟨sample, hhead, hown⟩ := (stored_entry hkey).first
    obtain ⟨hsample, haccepted, -⟩ := mem_seriesSamples.mp (List.mem_of_mem_head? hhead)
    exact ⟨sample, hsample, haccepted, hown ▸ htime⟩
  · intro after h
    rw [hconvert, Option.map_eq_some_iff] at h
    obtain ⟨⟨points, dropped⟩, hresult, hafter⟩ := h
    rw [hresult] at hpoints
    have hmetrics := congrArg ConversionState.metrics hafter
    refine ⟨totalLabels number family, points, hmetrics.symm, totalLabels_pairwise number family,
      ?_, fun sample => exists_totalLabels number family⟩
    have hstored : ∀ entry ∈ (histogramSeries number family).1.values.filter hasTotal,
        Stored number family entry := by
      intro entry hentry
      obtain ⟨key, hkey⟩ := stored_value number family (List.mem_of_mem_filter hentry)
      exact stored_entry hkey
    rw [totalLabels, List.forall₂_map_left_iff]
    have hboth := (List.forall₂_and_left _ _).mpr ⟨hstored, hpoints.1⟩
    exact hboth.imp fun entry point hentry => describes_point hentry.1 hentry.2

end Conversion

end Maple.Prometheus
