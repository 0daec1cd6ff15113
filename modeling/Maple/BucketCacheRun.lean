import Maple.BucketCacheExact
import Maple.TransitionRun

/-! Calls of the bucket cache at once: each reads segments, fetches ranges and writes whole segments
with nothing between them, so a write may undo another. -/

namespace Maple.BucketCache
open TransitionRun

variable {ω : Type}

/-- A call in progress: what its reads were answered and what it has fetched. -/
structure Call (ω : Type) where
  config : BucketCacheConfig
  nowMs : ℤ
  startMs : ℤ
  endMs : ℤ
  answers : List (ℤ × CacheRead ω) := []
  fetched : List (TimeRange × List (TimeseriesPoint ω)) := []

namespace Call

def fluxBoundaryMs (c : Call ω) : ℤ := c.config.fluxBoundaryMs c.nowMs

def request (query : BucketQuery) (c : Call ω) : BucketCacheRequest := ⟨query, c.startMs, c.endMs⟩

def read (c : Call ω) (segment : ℤ) : CacheRead ω :=
  ((c.answers.find? fun answer => answer.1 = segment).map Prod.snd).getD .miss

def compute (c : Call ω) (range : TimeRange) : List (TimeseriesPoint ω) :=
  ((c.fetched.find? fun item => item.1 = range).map Prod.snd).getD []

def segments (query : BucketQuery) (c : Call ω) : List ℤ :=
  segmentStartsForRange c.startMs c.endMs (c.config.segmentMs query)

def answered (query : BucketQuery) (c : Call ω) : Bool :=
  (c.segments query).all fun segment => c.answers.any fun answer => answer.1 = segment

def fillRanges (query : BucketQuery) (c : Call ω) : List MissingRange :=
  coalesceMissingRanges (findMissingRanges
    (existingBuckets (segmentReads c.config (c.request query) c.read))
    c.startMs c.endMs query.bucketMs c.fluxBoundaryMs)

def filled (query : BucketQuery) (c : Call ω) : Bool :=
  (c.fillRanges query).all fun missing => c.fetched.any fun item => item.1 = missing.range

def writes (query : BucketQuery) (c : Call ω) : List (ℤ × BucketCacheSegmentData ω) :=
  (getOrComputeBuckets c.config c.nowMs (c.request query) c.read c.compute).2

end Call

/-- The segments stored for one query, and the calls that have begun. -/
structure CacheWorld (ω : Type) where
  stored : ℤ → Option (BucketCacheSegmentData ω) := fun _ => none
  calls : List (Call ω) := []

/-- A call begins; a read is answered, a range fetched or a segment written for call `i`; a segment
expires. -/
inductive CacheLabel (ω : Type)
  | begin (config : BucketCacheConfig) (nowMs startMs endMs : ℤ)
  | read (i : ℕ) (segment : ℤ) (status : ReadStatus)
  | fetch (i : ℕ) (range : TimeRange) (points : List (TimeseriesPoint ω))
  | write (i : ℕ) (segment : ℤ)
  | expire (segment : ℤ)

/-- What a read with the status answers when `value` is stored. -/
def ReadStatus.answer (value : Option (BucketCacheSegmentData ω)) : ReadStatus → CacheRead ω
  | .hit => .hit value
  | .miss => .miss
  | .timeout => .timeout
  | .skipped => .skipped
  | .error => .error

namespace CacheWorld

def setCall (w : CacheWorld ω) (i : ℕ) (c : Call ω) : CacheWorld ω :=
  { w with calls := w.calls.set i c }

def put (w : CacheWorld ω) (segment : ℤ) (value : Option (BucketCacheSegmentData ω)) :
    CacheWorld ω :=
  { w with stored := fun other => if other = segment then value else w.stored other }

/-- Ranges are fetched once every segment has been read, segments written once every range has been
fetched. -/
def step (query : BucketQuery) (w : CacheWorld ω) : CacheLabel ω → Option (CacheWorld ω)
  | .begin config nowMs startMs endMs =>
      some { w with calls := w.calls ++ [{ config, nowMs, startMs, endMs }] }
  | .read i segment status => do
      let c ← w.calls[i]?
      if segment ∈ c.segments query ∧ ∀ answer ∈ c.answers, answer.1 ≠ segment then
        some (w.setCall i
          { c with answers := c.answers ++ [(segment, status.answer (w.stored segment))] })
      else none
  | .fetch i range points => do
      let c ← w.calls[i]?
      if c.answered query ∧ range ∈ (c.fillRanges query).map MissingRange.range ∧
          ∀ item ∈ c.fetched, item.1 ≠ range then
        some (w.setCall i { c with fetched := c.fetched ++ [(range, points)] })
      else none
  | .write i segment => do
      let c ← w.calls[i]?
      if c.answered query ∧ c.filled query then
        let entry ← (c.writes query).find? fun entry => entry.1 = segment
        some (w.put segment (some entry.2))
      else none
  | .expire segment => some (w.put segment none)

end CacheWorld

/-! ### What a segment holds -/

variable {query : BucketQuery} {complete : ℤ → List (TimeseriesPoint ω)}

/-- The points fetched for a range hold exactly the complete points of each bucket inside it. -/
def ExactOn (query : BucketQuery) (complete : ℤ → List (TimeseriesPoint ω)) (range : TimeRange)
    (points : List (TimeseriesPoint ω)) : Prop :=
  ∀ bucket, query.bucketMs ∣ bucket → range.startMs ≤ bucket →
    bucket + query.bucketMs ≤ range.endMs →
    points.filter (fun p => floorTo query.bucketMs p.bucket = bucket) = complete bucket

/-- `computeRange` is exact whenever it answers. -/
def Exact (query : BucketQuery) (complete : ℤ → List (TimeseriesPoint ω)) (_ : CacheWorld ω) :
    CacheLabel ω → Prop
  | .fetch _ range points => ExactOn query complete range points
  | _ => True

/-- The call fetched a range around the whole bucket, which had ended by its flux boundary. -/
def Call.Fetched (c : Call ω) (b : CachedBucket ω) : Prop :=
  b.endMs ≤ c.fluxBoundaryMs ∧
    ∃ item ∈ c.fetched, item.1.startMs ≤ b.startMs ∧ b.endMs ≤ item.1.endMs

/-- A whole bucket of the segment, with exactly its complete points. -/
structure CompleteBucket (query : BucketQuery) (complete : ℤ → List (TimeseriesPoint ω))
    (calls : List (Call ω)) (data : BucketCacheSegmentData ω) (b : CachedBucket ω) : Prop where
  aligned : query.bucketMs ∣ b.startMs
  width : b.endMs = b.startMs + query.bucketMs
  inside : data.segmentStartMs ≤ b.startMs ∧ b.endMs ≤ data.segmentEndMs
  points : b.points = complete b.startMs
  settled : ∃ c ∈ calls, c.Fetched b

structure CompleteSegment (query : BucketQuery) (complete : ℤ → List (TimeseriesPoint ω))
    (calls : List (Call ω)) (segment : ℤ) (data : BucketCacheSegmentData ω) : Prop where
  start : data.segmentStartMs = segment
  sorted : data.buckets.Pairwise fun a b => a.startMs < b.startMs
  buckets : ∀ b ∈ data.buckets, CompleteBucket query complete calls data b

/-- What a call knows is what was stored when it read, and exact. -/
structure CompleteCall (query : BucketQuery) (complete : ℤ → List (TimeseriesPoint ω))
    (calls : List (Call ω)) (c : Call ω) : Prop where
  answers : ∀ segment data, (segment, .hit (some data)) ∈ c.answers →
    CompleteSegment query complete calls segment data
  fetched : ∀ item ∈ c.fetched, ExactOn query complete item.1 item.2

structure CacheWorld.Inv (query : BucketQuery) (complete : ℤ → List (TimeseriesPoint ω))
    (w : CacheWorld ω) : Prop where
  stored : ∀ segment data, w.stored segment = some data →
    CompleteSegment query complete w.calls segment data
  calls : ∀ c ∈ w.calls, CompleteCall query complete w.calls c

/-! ### Calls only learn more -/

/-- Every bucket fetched by a call is fetched by one of the later calls. -/
def Learns (calls calls' : List (Call ω)) : Prop :=
  ∀ b : CachedBucket ω, (∃ c ∈ calls, c.Fetched b) → ∃ c ∈ calls', c.Fetched b

variable {calls calls' : List (Call ω)}

lemma CompleteSegment.learns {segment : ℤ} {data : BucketCacheSegmentData ω}
    (h : CompleteSegment query complete calls segment data) (hlearns : Learns calls calls') :
    CompleteSegment query complete calls' segment data where
  start := h.start
  sorted := h.sorted
  buckets b hb :=
    have hb := h.buckets b hb
    ⟨hb.aligned, hb.width, hb.inside, hb.points, hlearns b hb.settled⟩

lemma CompleteCall.learns {c : Call ω} (h : CompleteCall query complete calls c)
    (hlearns : Learns calls calls') : CompleteCall query complete calls' c where
  answers segment data hmem := (h.answers segment data hmem).learns hlearns
  fetched := h.fetched

lemma learns_append (c : Call ω) : Learns calls (calls ++ [c]) := by
  intro b ⟨d, hd, hfetched⟩
  exact ⟨d, List.mem_append_left _ hd, hfetched⟩

/-- A call that has fetched at least as much may take the place of another. -/
lemma learns_set {i : ℕ} {c c' : Call ω} (hc : calls[i]? = some c)
    (hflux : c'.fluxBoundaryMs = c.fluxBoundaryMs) (hfetched : c.fetched ⊆ c'.fetched) :
    Learns calls (calls.set i c') := by
  intro b ⟨d, hd, hsettled, item, hitem, hinside⟩
  have hlt := (List.getElem?_eq_some_iff.mp hc).1
  obtain ⟨j, hj⟩ := List.mem_iff_getElem?.mp hd
  by_cases hij : i = j
  · subst hij
    obtain rfl : c = d := Option.some.inj (hc.symm.trans hj)
    refine ⟨c', List.mem_set hlt c', ?_, item, hfetched hitem, hinside⟩
    rw [hflux]
    exact hsettled
  · refine ⟨d, List.mem_iff_getElem?.mpr ⟨j, ?_⟩, hsettled, item, hitem, hinside⟩
    rw [List.getElem?_set_ne hij]
    exact hj

/-! ### What a call writes -/

/-- The buckets a range covers are whole, settled and in order. -/
lemma complete_pointsToCoveredBuckets {range : TimeRange} {points : List (TimeseriesPoint ω)}
    {fluxBoundaryMs : ℤ} {b : CachedBucket ω} (hexact : ExactOn query complete range points)
    (hb : b ∈ pointsToCoveredBuckets points range query.bucketMs fluxBoundaryMs) :
    query.bucketMs ∣ b.startMs ∧ b.endMs = b.startMs + query.bucketMs ∧
      b.points = complete b.startMs ∧ b.endMs ≤ fluxBoundaryMs ∧ range.startMs ≤ b.startMs ∧
      b.endMs ≤ range.endMs := by
  have hstep := query.bucketMs_pos
  simp only [pointsToCoveredBuckets, List.mem_map] at hb
  obtain ⟨startMs, hmem, rfl⟩ := hb
  have hsettled : startMs + query.bucketMs ≤ fluxBoundaryMs := by
    simpa using List.mem_takeWhile_imp hmem
  have hceil := dvd_ceilTo query.bucketMs range.startMs
  have hle := le_ceilTo hstep range.startMs
  obtain ⟨hfirst, hlast, hgrid⟩ := (mem_stepsTo hstep).mp (List.takeWhile_subset _ hmem)
  have hdvd : query.bucketMs ∣ startMs := (dvd_sub_left hceil).mp hgrid
  refine ⟨hdvd, rfl, ?_, hsettled, by dsimp only; omega, by dsimp only; omega⟩
  dsimp only
  rw [InsertMap.get_groupAll]
  exact hexact startMs hdvd (by omega) (by omega)

lemma sorted_pointsToCoveredBuckets (points : List (TimeseriesPoint ω)) (range : TimeRange)
    (fluxBoundaryMs : ℤ) :
    (pointsToCoveredBuckets points range query.bucketMs fluxBoundaryMs).Pairwise
      fun a b => a.startMs < b.startMs := by
  unfold pointsToCoveredBuckets
  refine List.pairwise_map.mpr ?_
  exact (stepsTo_pairwise query.bucketMs_pos _ _).sublist (List.takeWhile_sublist _)

/-- Sorting buckets of different starts leaves no two of one start. -/
lemma sortByStart_strict {buckets : List (CachedBucket ω)}
    (h : (buckets.map CachedBucket.startMs).Nodup) :
    (sortByStart buckets).Pairwise fun a b => a.startMs < b.startMs := by
  have hperm := (List.perm_insertionSort (fun a b : CachedBucket ω => a.startMs ≤ b.startMs) buckets)
  have hnodup := (hperm.map CachedBucket.startMs).nodup_iff.mpr h
  exact ((sortByStart_pairwise buckets).and (List.pairwise_map.mp hnodup)).imp
    fun h => lt_of_le_of_ne h.1 h.2

lemma mergeAndDeduplicateBuckets_strict (existing fresh : List (CachedBucket ω)) :
    (mergeAndDeduplicateBuckets existing fresh).Pairwise fun a b => a.startMs < b.startMs := by
  unfold mergeAndDeduplicateBuckets
  dsimp only
  rw [InsertMap.setAll_setAll]
  exact sortByStart_strict (InsertMap.setAll_pairwise CachedBucket.startMs _)

/-- What is fresh of a segment: the settled range's buckets that fall into it. -/
lemma mem_writes_fresh {config : BucketCacheConfig} {nowMs : ℤ} {request : BucketCacheRequest}
    {read : ℤ → CacheRead ω} {compute : TimeRange → List (TimeseriesPoint ω)} {segment : ℤ}
    {data : BucketCacheSegmentData ω}
    (h : (segment, data) ∈ (getOrComputeBuckets config nowMs request read compute).2) :
    ∃ span, (⟨span, true⟩ : MissingRange) ∈ coalesceMissingRanges (findMissingRanges
        (existingBuckets (segmentReads config request read)) request.startMs request.endMs
        request.query.bucketMs (config.fluxBoundaryMs nowMs)) ∧
      data = segmentPayload request.query (config.segmentMs request.query)
        (InsertMap.setAll SegmentRead.segmentStartMs InsertMap.empty
          (segmentReads config request read)) segment
        ((pointsToCoveredBuckets (compute span) span request.query.bucketMs
          (config.fluxBoundaryMs nowMs)).filter
            fun b => floorTo (config.segmentMs request.query) b.startMs = segment) := by
  simp only [getOrComputeBuckets, List.mem_map] at h
  obtain ⟨⟨key, fresh⟩, hentry, hpayload⟩ := h
  obtain ⟨rfl, rfl⟩ := Prod.mk.inj hpayload
  have hgroup := InsertMap.group_of_mem_groupAll hentry
  generalize hmissing : findMissingRanges (existingBuckets (segmentReads config request read))
    request.startMs request.endMs request.query.bucketMs (config.fluxBoundaryMs nowMs) = missing
    at hgroup hentry ⊢
  cases hspan : (missingSpans missing).get true with
  | none =>
    cases hlive : (missingSpans missing).get false with
    | none =>
      simp [coalesceMissingRanges, hspan, hlive, InsertMap.groupAll, InsertMap.empty] at hentry
    | some live =>
      simp [coalesceMissingRanges, hspan, hlive, InsertMap.groupAll, InsertMap.empty] at hentry
  | some span =>
    refine ⟨span, by simp [coalesceMissingRanges, hspan], ?_⟩
    cases hlive : (missingSpans missing).get false with
    | none => simp [hgroup, coalesceMissingRanges, hspan, hlive]
    | some live => simp [hgroup, coalesceMissingRanges, hspan, hlive]

/-- A bucket that starts in a segment ends in it. -/
lemma bucket_inside {config : BucketCacheConfig} {segment : ℤ} {b : CachedBucket ω}
    (hdvd : query.bucketMs ∣ b.startMs) (hwidth : b.endMs = b.startMs + query.bucketMs)
    (h : floorTo (config.segmentMs query) b.startMs = segment) :
    segment ≤ b.startMs ∧ b.endMs ≤ segment + config.segmentMs query := by
  have hstep := query.bucketMs_pos
  have hsegment : 0 < config.segmentMs query :=
    Int.mul_pos hstep (by simp [BucketCacheConfig.segmentBucketCount])
  have hle := floorTo_le hsegment b.startMs
  have hlt := lt_floorTo_add hsegment b.startMs
  have hgrid : query.bucketMs ∣ config.segmentMs query := Dvd.intro _ rfl
  rw [h] at hle hlt
  have hend : query.bucketMs ∣ segment + config.segmentMs query - b.startMs := by
    refine Int.dvd_sub (Int.dvd_add ?_ hgrid) hdvd
    exact h ▸ hgrid.trans (dvd_floorTo _ _)
  have hroom := Int.le_of_dvd (by omega) hend
  omega

lemma readSegment_start (segmentMs : ℤ) (read : ℤ → CacheRead ω) (start : ℤ) :
    (readSegment query segmentMs read start).segmentStartMs = start := by
  unfold readSegment
  split
  · split_ifs <;> rfl
  · rfl

/-- The value a read was answered, when it holds any bucket. -/
lemma hit_of_mem {config : BucketCacheConfig} {request : BucketCacheRequest}
    {read : ℤ → CacheRead ω} {segment : ℤ} {r : SegmentRead ω} {b : CachedBucket ω}
    (hget : (InsertMap.setAll SegmentRead.segmentStartMs InsertMap.empty
      (segmentReads config request read)).get segment = some r) (hb : b ∈ r.buckets) :
    ∃ data, read segment = .hit (some data) ∧ r.buckets = data.buckets ∧
      data.segmentEndMs = segment + config.segmentMs request.query := by
  have hkey : r.segmentStartMs = segment := by
    rw [InsertMap.get_setAll, InsertMap.get_empty, Option.or_none] at hget
    simpa using List.find?_some hget
  rcases InsertMap.mem_of_get_setAll hget with hr | hnone
  · simp only [segmentReads, List.mem_map] at hr
    obtain ⟨start, -, rfl⟩ := hr
    obtain rfl : start = segment := (readSegment_start _ _ _).symm.trans hkey
    cases hread : read start with
    | hit value =>
      cases value with
      | none => simp [readSegment, hread] at hb
      | some data =>
        by_cases hvalid : isBucketCacheSegmentData request.query start
            (start + config.segmentMs request.query) data
        · refine ⟨data, rfl, by simp [readSegment, hread, hvalid], ?_⟩
          simp only [isBucketCacheSegmentData, Bool.decide_and, Bool.and_eq_true,
            decide_eq_true_eq] at hvalid
          exact hvalid.2.2.2.2.1
        · simp [readSegment, hread, hvalid] at hb
    | _ => simp [readSegment, hread] at hb
  · cases hnone

/-- A segment that holds fresh buckets, and what was read of it unless the read failed. -/
lemma complete_segmentPayload {segmentMs segment : ℤ} {reads : InsertMap ℤ (SegmentRead ω)}
    {fresh : List (CachedBucket ω)}
    (hsorted : fresh.Pairwise fun a b => a.startMs < b.startMs)
    (hfresh : ∀ b ∈ fresh, ∀ data : BucketCacheSegmentData ω, data.segmentStartMs = segment →
      data.segmentEndMs = segment + segmentMs → CompleteBucket query complete calls data b)
    (hread : ∀ r, reads.get segment = some r → ∀ b ∈ r.buckets,
      ∀ data : BucketCacheSegmentData ω, data.segmentStartMs = segment →
        data.segmentEndMs = segment + segmentMs → CompleteBucket query complete calls data b) :
    CompleteSegment query complete calls segment
      (segmentPayload query segmentMs reads segment fresh) where
  start := rfl
  sorted := by
    have hnodup : (fresh.map CachedBucket.startMs).Nodup :=
      List.pairwise_map.mpr (hsorted.imp ne_of_lt)
    unfold segmentPayload
    dsimp only
    cases ((reads.get segment).getD ⟨segment, .miss, []⟩).status with
    | hit => exact mergeAndDeduplicateBuckets_strict _ _
    | miss => exact mergeAndDeduplicateBuckets_strict _ _
    | _ => exact sortByStart_strict hnodup
  buckets b hb := by
    have hmem : b ∈ fresh ∨ ∃ r, reads.get segment = some r ∧ b ∈ r.buckets := by
      have hmerged : b ∈ mergeAndDeduplicateBuckets
          ((reads.get segment).getD ⟨segment, .miss, []⟩).buckets fresh →
            b ∈ fresh ∨ ∃ r, reads.get segment = some r ∧ b ∈ r.buckets := by
        intro hb
        rcases mem_mergeAndDeduplicateBuckets hb with hold | hnew
        · cases hget : reads.get segment with
          | none => simp [hget] at hold
          | some r => exact .inr ⟨r, rfl, by simpa [hget] using hold⟩
        · exact .inl hnew
      unfold segmentPayload at hb
      dsimp only at hb
      cases hstatus : ((reads.get segment).getD ⟨segment, .miss, []⟩).status with
      | hit =>
        rw [hstatus] at hb
        exact hmerged hb
      | miss =>
        rw [hstatus] at hb
        exact hmerged hb
      | _ =>
        rw [hstatus] at hb
        exact .inl (mem_sortByStart.mp hb)
    rcases hmem with hnew | ⟨r, hr, hold⟩
    · exact hfresh b hnew _ rfl rfl
    · exact hread r hr b hold _ rfl rfl

lemma Call.read_mem {c : Call ω} {segment : ℤ} {data : BucketCacheSegmentData ω}
    (h : c.read segment = .hit (some data)) : (segment, .hit (some data)) ∈ c.answers := by
  unfold Call.read at h
  cases hfind : c.answers.find? fun answer => answer.1 = segment with
  | none => simp [hfind] at h
  | some answer =>
    have hkey : answer.1 = segment := by simpa using List.find?_some hfind
    have hvalue : answer.2 = .hit (some data) := by simpa [hfind] using h
    rw [← hkey, ← hvalue]
    exact List.mem_of_find?_eq_some hfind

lemma Call.compute_mem {c : Call ω} {range : TimeRange} (h : ∃ item ∈ c.fetched, item.1 = range) :
    (range, c.compute range) ∈ c.fetched := by
  obtain ⟨item, hitem, hrange⟩ := h
  unfold Call.compute
  cases hfind : c.fetched.find? fun item => item.1 = range with
  | none => simpa [hrange] using List.find?_eq_none.mp hfind item hitem
  | some found =>
    have hkey : found.1 = range := by simpa using List.find?_some hfind
    rw [Option.map_some, Option.getD_some, ← hkey]
    exact List.mem_of_find?_eq_some hfind

/-- What a call writes once all its ranges are fetched is complete. -/
lemma complete_writes {c : Call ω} {segment : ℤ} {data : BucketCacheSegmentData ω}
    (hcall : CompleteCall query complete calls c) (hc : c ∈ calls)
    (hfilled : c.filled query = true) (h : (segment, data) ∈ c.writes query) :
    CompleteSegment query complete calls segment data := by
  obtain ⟨span, hspan, rfl⟩ := mem_writes_fresh h
  have hfetched : (span, c.compute span) ∈ c.fetched := by
    have hrange := List.all_eq_true.mp hfilled _ hspan
    exact Call.compute_mem (by simpa using hrange)
  have hexact := hcall.fetched _ hfetched
  refine complete_segmentPayload ((sorted_pointsToCoveredBuckets _ _ _).filter _) ?_ ?_
  · intro b hb data hstart hend
    obtain ⟨hcovered, hsegment⟩ := List.mem_filter.mp hb
    obtain ⟨hdvd, hwidth, hpoints, hsettled, hfirst, hlast⟩ :=
      complete_pointsToCoveredBuckets hexact hcovered
    have hinside := bucket_inside hdvd hwidth (of_decide_eq_true hsegment)
    refine ⟨hdvd, hwidth, ?_, hpoints, c, hc, hsettled, _, hfetched, hfirst, hlast⟩
    rw [hstart, hend]
    exact hinside
  · intro r hr b hb data hstart hend
    obtain ⟨stored, hread, hbuckets, hstoredEnd⟩ := hit_of_mem hr hb
    have hstored := hcall.answers segment stored (Call.read_mem hread)
    have hcomplete := hstored.buckets b (hbuckets ▸ hb)
    refine ⟨hcomplete.aligned, hcomplete.width, ?_, hcomplete.points, hcomplete.settled⟩
    rw [hstart, hend, ← hstored.start, hstored.start, ← hstoredEnd]
    exact hstored.start ▸ hcomplete.inside

/-! ### Every run -/

variable {w w' : CacheWorld ω}

/-- A call learns something while the stored segments stay. -/
lemma CacheWorld.Inv.setCall (h : w.Inv query complete) {i : ℕ} {c c' : Call ω}
    (hc : w.calls[i]? = some c) (hflux : c'.fluxBoundaryMs = c.fluxBoundaryMs)
    (hfetched : c.fetched ⊆ c'.fetched) (hcall : CompleteCall query complete w.calls c') :
    (w.setCall i c').Inv query complete where
  stored segment data hdata := (h.stored segment data hdata).learns (learns_set hc hflux hfetched)
  calls d hd := by
    refine CompleteCall.learns ?_ (learns_set hc hflux hfetched)
    rcases List.mem_or_eq_of_mem_set hd with hold | rfl
    · exact h.calls d hold
    · exact hcall

lemma CacheWorld.Inv.put (h : w.Inv query complete) {segment : ℤ}
    {value : Option (BucketCacheSegmentData ω)}
    (hvalue : ∀ data, value = some data → CompleteSegment query complete w.calls segment data) :
    (w.put segment value).Inv query complete where
  stored other data hdata := by
    by_cases hother : other = segment
    · subst hother
      exact hvalue data (by simpa [CacheWorld.put] using hdata)
    · exact h.stored other data (by simpa [CacheWorld.put, hother] using hdata)
  calls := h.calls

lemma CacheWorld.Inv.step (h : w.Inv query complete) {label : CacheLabel ω}
    (hexact : Exact query complete w label) (hstep : w.step query label = some w') :
    w'.Inv query complete := by
  cases label with
  | begin config nowMs startMs endMs =>
    obtain rfl := Option.some.inj hstep
    refine ⟨fun segment data hdata => (h.stored segment data hdata).learns (learns_append _),
      fun c hc => ?_⟩
    refine CompleteCall.learns ?_ (learns_append _)
    rcases List.mem_append.mp hc with hold | hnew
    · exact h.calls c hold
    · obtain rfl := List.mem_singleton.mp hnew
      exact ⟨by simp, by simp⟩
  | read i segment status =>
    obtain ⟨c, hc, hrest⟩ := Option.bind_eq_some_iff.mp hstep
    split_ifs at hrest with hunread
    obtain rfl := Option.some.inj hrest
    have hcall := h.calls c (List.mem_of_getElem? hc)
    refine h.setCall hc rfl (List.Subset.refl _) ⟨fun other data hmem => ?_, hcall.fetched⟩
    rcases List.mem_append.mp hmem with hold | hnew
    · exact hcall.answers other data hold
    · obtain ⟨rfl, hanswer⟩ : other = segment ∧ .hit (some data) =
          status.answer (w.stored segment) := by simpa using hnew
      cases status with
      | hit => exact h.stored _ data (by simpa [ReadStatus.answer] using hanswer.symm)
      | _ => simp [ReadStatus.answer] at hanswer
  | fetch i range points =>
    obtain ⟨c, hc, hrest⟩ := Option.bind_eq_some_iff.mp hstep
    split_ifs at hrest with hunfetched
    obtain rfl := Option.some.inj hrest
    have hcall := h.calls c (List.mem_of_getElem? hc)
    refine h.setCall hc rfl (List.subset_append_left _ _) ⟨hcall.answers, fun item hitem => ?_⟩
    rcases List.mem_append.mp hitem with hold | hnew
    · exact hcall.fetched item hold
    · obtain rfl := List.mem_singleton.mp hnew
      exact hexact
  | write i segment =>
    obtain ⟨c, hc, hrest⟩ := Option.bind_eq_some_iff.mp hstep
    split_ifs at hrest with hready
    obtain ⟨entry, hentry, hput⟩ := Option.bind_eq_some_iff.mp hrest
    obtain rfl := Option.some.inj hput
    have hmem := List.mem_of_getElem? hc
    have hkey : entry.1 = segment := by simpa using List.find?_some hentry
    refine h.put fun data hdata => ?_
    obtain rfl := Option.some.inj hdata
    refine complete_writes (h.calls c hmem) hmem hready.2 ?_
    rw [← hkey]
    exact List.mem_of_find?_eq_some hentry
  | expire segment =>
    obtain rfl := Option.some.inj hstep
    exact h.put fun data hdata => by cases hdata

/-- No segment is stored and no call has begun. -/
def Cold (w : CacheWorld ω) : Prop := (∀ segment, w.stored segment = none) ∧ w.calls = []

/-- Whatever calls at once leave in the cache holds whole buckets of its segment, sorted and each
once, with exactly their complete points; each had ended by the flux boundary of the call that
fetched it. -/
theorem stored_segment_complete (query : BucketQuery)
    (complete : ℤ → List (TimeseriesPoint ω)) (w : CacheWorld ω)
    (h : ReachWhen (CacheWorld.step query) (Exact query complete) Cold w) :
    ∀ segment data, w.stored segment = some data →
      CompleteSegment query complete w.calls segment data := by
  have hinv : w.Inv query complete := by
    refine h.invariant (fun w hw => ?_) fun w label w' hw hok hstep => hw.step hok hstep
    refine ⟨fun segment data hdata => ?_, fun c hc => ?_⟩
    · rw [hw.1 segment] at hdata
      cases hdata
    · rw [hw.2] at hc
      cases hc
  exact hinv.stored

/-! ### A call whose clock is behind -/

/-- One event in every bucket. -/
def everyBucket (bucket : ℤ) : List (TimeseriesPoint ℕ) := [⟨bucket, fun _ => some 1⟩]

def sampleConfig : BucketCacheConfig := ⟨0, 120⟩

/-- The first call has read its clock and then reads the segment that a later one has written. -/
def sampleLabels : List (CacheLabel ℕ) :=
  [.begin sampleConfig 1000 0 1000, .begin sampleConfig 2000 1000 2000, .read 1 0 .hit,
    .fetch 1 ⟨1000, 2000⟩ (everyBucket 1000), .write 1 0, .read 0 0 .hit,
    .fetch 0 ⟨0, 1000⟩ (everyBucket 0)]

lemma sampleLabels_exact : ∀ label ∈ sampleLabels ++ [.write 0 0], ∀ w : CacheWorld ℕ,
    Exact errorCounts everyBucket w label := by
  intro label hlabel w
  simp only [sampleLabels, List.cons_append, List.nil_append, List.mem_cons, List.not_mem_nil,
    or_false] at hlabel
  have hexact : ∀ start, (1000 : ℤ) ∣ start →
      ExactOn errorCounts everyBucket ⟨start, start + 1000⟩ (everyBucket start) := by
    intro start hstart bucket hdvd hfirst hlast
    obtain rfl : bucket = start := by
      change bucket + 1 * 1000 ≤ start + 1000 at hlast
      change start ≤ bucket at hfirst
      omega
    have hfloor : floorTo 1000 bucket = bucket := by
      unfold floorTo
      omega
    simp [everyBucket, errorCounts, BucketQuery.bucketMs, hfloor]
  rcases hlabel with rfl | rfl | rfl | rfl | rfl | rfl | rfl | rfl
  · trivial
  · trivial
  · trivial
  · exact hexact 1000 (by decide)
  · trivial
  · trivial
  · exact hexact 0 (by decide)
  · trivial

/-- A segment can hold a bucket that ends after the flux boundary of the call that wrote it. -/
theorem stored_after_writers_boundary :
    ¬ ∀ (query : BucketQuery) (complete : ℤ → List (TimeseriesPoint ℕ)) (w w' : CacheWorld ℕ)
      (i : ℕ) (c : Call ℕ) (segment : ℤ) (data : BucketCacheSegmentData ℕ),
      ReachWhen (CacheWorld.step query) (Exact query complete) Cold w →
      w.step query (.write i segment) = some w' → w.calls[i]? = some c →
      w'.stored segment = some data → ∀ b ∈ data.buckets, b.endMs ≤ c.fluxBoundaryMs := by
  intro hclaim
  have hview : ((runSteps (CacheWorld.step errorCounts) {} sampleLabels).bind fun w =>
      (w.step errorCounts (.write 0 0)).bind fun w' => (w.calls[0]?).bind fun c =>
        (w'.stored 0).map fun data => (c.fluxBoundaryMs, data.buckets.map CachedBucket.endMs)) =
          some (1000, [1000, 2000]) := by
    decide
  obtain ⟨w, hrun, hview⟩ := Option.bind_eq_some_iff.mp hview
  obtain ⟨w', hstep, hview⟩ := Option.bind_eq_some_iff.mp hview
  obtain ⟨c, hc, hview⟩ := Option.bind_eq_some_iff.mp hview
  obtain ⟨data, hdata, hends⟩ := Option.map_eq_some_iff.mp hview
  obtain ⟨hflux, hbuckets⟩ := Prod.mk.inj hends
  have hreach : ReachWhen (CacheWorld.step errorCounts) (Exact errorCounts everyBucket) Cold w :=
    reachWhen_runSteps (.start ⟨fun _ => rfl, rfl⟩)
      (fun label hl => sampleLabels_exact label (by simp [hl])) hrun
  have hmem : (2000 : ℤ) ∈ data.buckets.map CachedBucket.endMs := by
    simp [hbuckets]
  obtain ⟨b, hb, hend⟩ := List.mem_map.mp hmem
  have hle := hclaim errorCounts everyBucket w w' 0 c 0 data hreach hstep hc hdata b hb
  omega

theorem stored_segment_complete_sample :
    ∃ w data, runSteps (CacheWorld.step errorCounts) {} (sampleLabels ++ [.write 0 0]) = some w ∧
      w.stored 0 = some data ∧ data.buckets.map CachedBucket.startMs = [0, 1000] ∧
      CompleteSegment errorCounts everyBucket w.calls 0 data := by
  have hview : ((runSteps (CacheWorld.step errorCounts) {} (sampleLabels ++ [.write 0 0])).bind
      fun w => (w.stored 0).map fun data => data.buckets.map CachedBucket.startMs) =
        some [0, 1000] := by
    decide
  obtain ⟨w, hrun, hview⟩ := Option.bind_eq_some_iff.mp hview
  obtain ⟨data, hdata, hstarts⟩ := Option.map_eq_some_iff.mp hview
  exact ⟨w, data, hrun, hdata, hstarts, stored_segment_complete errorCounts everyBucket w
    (reachWhen_runSteps (.start ⟨fun _ => rfl, rfl⟩) sampleLabels_exact hrun) 0 data hdata⟩

end Maple.BucketCache
