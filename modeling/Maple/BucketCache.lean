import Maple.BucketTimeline

/-! The bucket cache of time series: settled buckets are kept in segments, and an answer is put
together from them and from what is fetched for the rest. -/

namespace Maple.BucketCache

variable {α ω : Type}

def cacheVersion : ℕ := 2

structure BucketCacheSegmentData (ω : Type) where
  version : ℕ
  fingerprint : String
  bucketSeconds : ℤ
  segmentStartMs : ℤ
  segmentEndMs : ℤ
  buckets : List (CachedBucket ω)

/-- What the edge cache answers to a read. -/
inductive CacheRead (ω : Type)
  | hit (value : Option (BucketCacheSegmentData ω))
  | miss
  | timeout
  | skipped
  | error

inductive ReadStatus
  | hit
  | miss
  | timeout
  | skipped
  | error
  deriving DecidableEq, Repr

def CacheRead.status : CacheRead ω → ReadStatus
  | hit _ => .hit
  | miss => .miss
  | timeout => .timeout
  | skipped => .skipped
  | error => .error

structure SegmentRead (ω : Type) where
  segmentStartMs : ℤ
  status : ReadStatus
  buckets : List (CachedBucket ω)

/-- An organisation's query at a step; `fingerprint` identifies all three. -/
structure BucketQuery where
  fingerprint : String
  bucketSeconds : ℤ
  positive : 0 < bucketSeconds

def BucketQuery.bucketMs (query : BucketQuery) : ℤ := query.bucketSeconds * 1000

structure BucketCacheRequest where
  query : BucketQuery
  startMs : ℤ
  endMs : ℤ

structure BucketCacheConfig where
  fluxSeconds : ℤ
  segmentBuckets : ℤ

def BucketCacheConfig.segmentBucketCount (config : BucketCacheConfig) : ℤ :=
  max 1 config.segmentBuckets

def BucketCacheConfig.segmentMs (config : BucketCacheConfig) (query : BucketQuery) : ℤ :=
  query.bucketMs * config.segmentBucketCount

def BucketCacheConfig.fluxBoundaryMs (config : BucketCacheConfig) (nowMs : ℤ) : ℤ :=
  nowMs - config.fluxSeconds * 1000

structure BucketCacheOutcome (ω : Type) where
  points : List (TimeseriesPoint ω)
  requestedBuckets : ℕ
  bucketsHit : ℕ
  bucketsMissed : ℕ
  missingRangeCount : ℕ
  warehouseQueryCount : ℕ
  segmentsHit : ℕ
  segmentsMissed : ℕ
  segmentsTimedOut : ℕ
  segmentsSkipped : ℕ
  segmentsErrored : ℕ

/-- The windows of a grid that a range touches. -/
def gridStarts (startMs endMs step : ℤ) : List ℤ :=
  if endMs ≤ startMs then []
  else stepsTo step (floorTo step startMs) (floorTo step (endMs - 1))

def requestedBucketStarts (startMs endMs bucketMs : ℤ) : List ℤ := gridStarts startMs endMs bucketMs

def segmentStartsForRange (startMs endMs segmentMs : ℤ) : List ℤ :=
  gridStarts startMs endMs segmentMs

def isCachedBucket (bucketMs segmentStartMs segmentEndMs : ℤ) (b : CachedBucket ω) : Bool :=
  segmentStartMs ≤ b.startMs ∧ b.endMs ≤ segmentEndMs ∧ b.endMs - b.startMs = bucketMs ∧
    b.startMs.tmod bucketMs = 0

def isBucketCacheSegmentData (query : BucketQuery) (segmentStartMs segmentEndMs : ℤ)
    (data : BucketCacheSegmentData ω) : Bool :=
  data.version = cacheVersion ∧ data.fingerprint = query.fingerprint ∧
  data.bucketSeconds = query.bucketSeconds ∧ data.segmentStartMs = segmentStartMs ∧
  data.segmentEndMs = segmentEndMs ∧
  data.buckets.all (isCachedBucket query.bucketMs segmentStartMs segmentEndMs)

def readSegment (query : BucketQuery) (segmentMs : ℤ) (read : ℤ → CacheRead ω)
    (segmentStartMs : ℤ) : SegmentRead ω :=
  match read segmentStartMs with
  | .hit (some data) =>
    if isBucketCacheSegmentData query segmentStartMs (segmentStartMs + segmentMs) data then
      ⟨segmentStartMs, .hit, data.buckets⟩
    else ⟨segmentStartMs, .miss, []⟩
  | answer => ⟨segmentStartMs, answer.status, []⟩

/-- Later buckets win over earlier ones of the same start. -/
def mergeAndDeduplicateBuckets (existing fresh : List (CachedBucket ω)) : List (CachedBucket ω) :=
  let byStart := InsertMap.setAll CachedBucket.startMs
    (InsertMap.setAll CachedBucket.startMs InsertMap.empty existing) fresh
  sortByStart byStart.values

/-- The points of the buckets that lie in the range; the buckets are sorted. -/
def slicePointsFromBuckets (startMs endMs : ℤ) : List (CachedBucket ω) → List (TimeseriesPoint ω)
  | [] => []
  | bucket :: rest =>
    if bucket.endMs ≤ startMs then slicePointsFromBuckets startMs endMs rest
    else if endMs ≤ bucket.startMs then []
    else bucket.points.filter (fun p => startMs ≤ p.bucket ∧ p.bucket < endMs) ++
      slicePointsFromBuckets startMs endMs rest

def ceilTo (step x : ℤ) : ℤ := -floorTo step (-x)

/-- A bucket for each whole window of the range, up to the flux boundary. -/
def pointsToCoveredBuckets (points : List (TimeseriesPoint ω)) (range : TimeRange)
    (bucketMs fluxBoundaryMs : ℤ) : List (CachedBucket ω) :=
  let pointsByStart := InsertMap.groupAll (fun p => floorTo bucketMs p.bucket) points
  let firstFullBucket := ceilTo bucketMs range.startMs
  let starts := stepsTo bucketMs firstFullBucket (range.endMs - bucketMs)
  (starts.takeWhile fun startMs => startMs + bucketMs ≤ fluxBoundaryMs).map fun startMs =>
    ⟨startMs, startMs + bucketMs, (pointsByStart.get startMs).getD []⟩

/-- The payload written for a segment: what was read of it, if it was read, and what is fresh. -/
def segmentPayload (query : BucketQuery) (segmentMs : ℤ)
    (reads : InsertMap ℤ (SegmentRead ω)) (segmentStartMs : ℤ)
    (freshBuckets : List (CachedBucket ω)) : BucketCacheSegmentData ω :=
  let read := (reads.get segmentStartMs).getD ⟨segmentStartMs, .miss, []⟩
  let merged :=
    match read.status with
    | .timeout | .skipped | .error => sortByStart freshBuckets
    | .hit | .miss => mergeAndDeduplicateBuckets read.buckets freshBuckets
  ⟨cacheVersion, query.fingerprint, query.bucketSeconds, segmentStartMs,
    segmentStartMs + segmentMs, merged⟩

/-- The points of an answer: fresh points win over cached ones, later ranges over earlier ones. -/
def mergedPoints (startMs endMs : ℤ) (existingBuckets : List (CachedBucket ω))
    (fresh : List (TimeseriesPoint ω)) : List (TimeseriesPoint ω) :=
  let pointsByBucket := InsertMap.setAll TimeseriesPoint.bucket
    (InsertMap.setAll TimeseriesPoint.bucket InsertMap.empty
      (slicePointsFromBuckets startMs endMs existingBuckets))
    (fresh.filter fun p => startMs ≤ p.bucket ∧ p.bucket < endMs)
  pointsByBucket.values.insertionSort fun a b => a.bucket ≤ b.bucket

/-- The segments a request reads. -/
def segmentReads (config : BucketCacheConfig) (request : BucketCacheRequest)
    (read : ℤ → CacheRead ω) : List (SegmentRead ω) :=
  let segmentMs := config.segmentMs request.query
  (segmentStartsForRange request.startMs request.endMs segmentMs).map
    (readSegment request.query segmentMs read)

def existingBuckets (reads : List (SegmentRead ω)) : List (CachedBucket ω) :=
  sortByStart (reads.flatMap (·.buckets))

/-- The answer to a request, and the segments it writes. `read` is what the edge cache answers for
a segment, `compute` what the warehouse answers for a range. -/
def getOrComputeBuckets (config : BucketCacheConfig) (nowMs : ℤ) (request : BucketCacheRequest)
    (read : ℤ → CacheRead ω) (compute : TimeRange → List (TimeseriesPoint ω)) :
    BucketCacheOutcome ω × List (ℤ × BucketCacheSegmentData ω) :=
  let bucketMs := request.query.bucketMs
  let segmentMs := config.segmentMs request.query
  let fluxBoundaryMs := config.fluxBoundaryMs nowMs
  let requestedStarts := requestedBucketStarts request.startMs request.endMs bucketMs
  let reads := segmentReads config request read
  let existing := existingBuckets reads
  let cachedRequestedStarts :=
    ((existing.map (·.startMs)).filter fun startMs => startMs ∈ requestedStarts).dedup
  let bucketsHit := cachedRequestedStarts.length
  let missing := findMissingRanges existing request.startMs request.endMs bucketMs fluxBoundaryMs
  let fillRanges := coalesceMissingRanges missing
  let rangeResults := fillRanges.map fun item => (item, compute item.range)
  let freshCachableBuckets := rangeResults.flatMap fun (item, points) =>
    if item.cachable then pointsToCoveredBuckets points item.range bucketMs fluxBoundaryMs else []
  let freshBySegment :=
    InsertMap.groupAll (fun b => floorTo segmentMs b.startMs) freshCachableBuckets
  let readsBySegment := InsertMap.setAll SegmentRead.segmentStartMs InsertMap.empty reads
  let writes := freshBySegment.entries.map fun (segmentStartMs, freshBuckets) =>
    (segmentStartMs, segmentPayload request.query segmentMs readsBySegment segmentStartMs freshBuckets)
  let countStatus := fun status => reads.countP fun r => r.status = status
  let outcome := {
    points := mergedPoints request.startMs request.endMs existing (rangeResults.flatMap (·.2))
    requestedBuckets := requestedStarts.length
    bucketsHit := bucketsHit
    bucketsMissed := requestedStarts.length - bucketsHit
    missingRangeCount := missing.length
    warehouseQueryCount := fillRanges.length
    segmentsHit := countStatus .hit
    segmentsMissed := countStatus .miss
    segmentsTimedOut := countStatus .timeout
    segmentsSkipped := countStatus .skipped
    segmentsErrored := countStatus .error }
  (outcome, writes)

/-- The segments that calls over these events can have left in the cache, under the key they were
written to: each call with its own range, clock and configuration, reading what calls have left,
or nothing. -/
inductive Written (aggregate : Aggregate α ω) (events : List (WarehouseEvent α))
    (query : BucketQuery) : ℤ → BucketCacheSegmentData ω → Prop
  | write (config : BucketCacheConfig) (nowMs startMs endMs : ℤ) (read : ℤ → CacheRead ω)
      (hread : ∀ segment data, read segment = .hit (some data) →
        Written aggregate events query segment data)
      (segment : ℤ) (data : BucketCacheSegmentData ω)
      (hwrite : (segment, data) ∈ (getOrComputeBuckets config nowMs ⟨query, startMs, endMs⟩ read
        (computeRange aggregate events query.bucketSeconds)).2) :
      Written aggregate events query segment data

end Maple.BucketCache
