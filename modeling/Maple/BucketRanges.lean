import Maple.InsertMap

/-! Which parts of a requested range the cached buckets leave to be fetched. Times are epoch
milliseconds. -/

namespace Maple.BucketCache

variable {ω : Type}

/-- The series of a point: a value for each group that has one. -/
abbrev Series (ω : Type) := String → Option ω

structure TimeseriesPoint (ω : Type) where
  bucket : ℤ
  series : Series ω

/-- Inclusive start, exclusive end. -/
structure TimeRange where
  startMs : ℤ
  endMs : ℤ
  deriving DecidableEq, Repr

structure CachedBucket (ω : Type) where
  startMs : ℤ
  endMs : ℤ
  points : List (TimeseriesPoint ω)

structure MissingRange where
  range : TimeRange
  cachable : Bool
  deriving DecidableEq, Repr

def sortByStart (buckets : List (CachedBucket ω)) : List (CachedBucket ω) :=
  buckets.insertionSort fun a b => a.startMs ≤ b.startMs

/-- A gap, split where it crosses the flux boundary. -/
def emitGap (fluxBoundaryMs lo hi : ℤ) : List MissingRange :=
  if hi ≤ lo then []
  else if hi ≤ fluxBoundaryMs then [⟨⟨lo, hi⟩, true⟩]
  else if fluxBoundaryMs ≤ lo then [⟨⟨lo, hi⟩, false⟩]
  else [⟨⟨lo, fluxBoundaryMs⟩, true⟩, ⟨⟨fluxBoundaryMs, hi⟩, false⟩]

/-- `x` if it is a multiple of `step`, else one step above `x` rounded towards zero. -/
def alignUp (step x : ℤ) : ℤ := if x.tmod step = 0 then x else x - x.tmod step + step

/-- The loop over the sorted buckets: where the cursor ends up, and the gaps on the way. -/
def scanBuckets (endMs bucketMs fluxBoundaryMs : ℤ) :
    ℤ → List (CachedBucket ω) → ℤ × List MissingRange
  | cursor, [] => (cursor, [])
  | cursor, bucket :: rest =>
    if bucket.endMs ≤ cursor then scanBuckets endMs bucketMs fluxBoundaryMs cursor rest
    else if endMs ≤ bucket.startMs then (cursor, [])
    else
      let alignedStart := alignUp bucketMs bucket.startMs
      let gap :=
        if cursor < alignedStart ∧ cursor < endMs then
          emitGap fluxBoundaryMs cursor (min alignedStart endMs)
        else []
      let bucketEnd := min bucket.endMs endMs
      let bucketEnd :=
        if bucketEnd.tmod bucketMs ≠ 0 ∧ bucketEnd < endMs then
          bucketEnd - bucketEnd.tmod bucketMs
        else bucketEnd
      let (last, gaps) := scanBuckets endMs bucketMs fluxBoundaryMs (max cursor bucketEnd) rest
      (last, gap ++ gaps)

def findMissingRanges (buckets : List (CachedBucket ω)) (startMs endMs bucketMs fluxBoundaryMs : ℤ) :
    List MissingRange :=
  if endMs ≤ startMs then []
  else
    let nextAligned := alignUp bucketMs startMs
    let head :=
      if startMs.tmod bucketMs ≠ 0 then emitGap fluxBoundaryMs startMs (min nextAligned endMs)
      else []
    let (cursor, gaps) :=
      scanBuckets endMs bucketMs fluxBoundaryMs nextAligned (sortByStart buckets)
    let tail := if cursor < endMs then emitGap fluxBoundaryMs cursor endMs else []
    head ++ gaps ++ tail

/-- Widen the span of a range's class so that it contains the range. -/
def addToSpan (spans : InsertMap Bool TimeRange) (missing : MissingRange) :
    InsertMap Bool TimeRange :=
  match spans.get missing.cachable with
  | some span =>
    spans.set missing.cachable
      ⟨min span.startMs missing.range.startMs, max span.endMs missing.range.endMs⟩
  | none => spans.set missing.cachable missing.range

def missingSpans (missing : List MissingRange) : InsertMap Bool TimeRange :=
  missing.foldl addToSpan InsertMap.empty

/-- At most one range per class, the settled one first. -/
def coalesceMissingRanges (missing : List MissingRange) : List MissingRange :=
  [true, false].flatMap fun cachable =>
    match (missingSpans missing).get cachable with
    | some span => [⟨span, cachable⟩]
    | none => []

/-- The buckets are windows of the grid: what the cache reads let through. -/
def Aligned (bucketMs : ℤ) (buckets : List (CachedBucket ω)) : Prop :=
  ∀ b ∈ buckets, bucketMs ∣ b.startMs ∧ b.endMs = b.startMs + bucketMs

def Holds (r : TimeRange) (t : ℤ) : Prop := r.startMs ≤ t ∧ t < r.endMs

/-- Some range of the class holds the time. -/
def Covers (missing : List MissingRange) (cachable : Bool) (t : ℤ) : Prop :=
  ∃ m ∈ missing, m.cachable = cachable ∧ Holds m.range t

/-- On the side of the flux boundary that the class is for. -/
def OnSide (fluxBoundaryMs : ℤ) (cachable : Bool) (t : ℤ) : Prop :=
  if cachable then t < fluxBoundaryMs else fluxBoundaryMs ≤ t

lemma covers_append {xs ys : List MissingRange} {cachable : Bool} {t : ℤ} :
    Covers (xs ++ ys) cachable t ↔ Covers xs cachable t ∨ Covers ys cachable t := by
  simp only [Covers, List.mem_append, or_and_right, exists_or]

@[simp] lemma not_covers_nil {cachable : Bool} {t : ℤ} : ¬ Covers [] cachable t := by
  simp [Covers]

/-- A gap's ranges hold the gap, each class its side. -/
lemma covers_emitGap {fluxBoundaryMs lo hi : ℤ} {cachable : Bool} {t : ℤ} :
    Covers (emitGap fluxBoundaryMs lo hi) cachable t ↔
      lo ≤ t ∧ t < hi ∧ OnSide fluxBoundaryMs cachable t := by
  unfold emitGap
  split_ifs with hempty hsettled hlive
  · simp only [not_covers_nil, false_iff]
    omega
  all_goals
    cases cachable
    all_goals
      simp [Covers, OnSide, Holds]
      try omega

def Proper (missing : List MissingRange) : Prop :=
  ∀ m ∈ missing, m.range.startMs < m.range.endMs

lemma proper_emitGap (fluxBoundaryMs lo hi : ℤ) : Proper (emitGap fluxBoundaryMs lo hi) := by
  unfold emitGap Proper
  split_ifs
  all_goals simp only [List.mem_cons, List.not_mem_nil, or_false, forall_eq, forall_eq_or_imp,
    false_imp_iff, implies_true]
  all_goals omega

lemma Proper.append {xs ys : List MissingRange} (hx : Proper xs) (hy : Proper ys) :
    Proper (xs ++ ys) := by
  intro m hm
  rcases List.mem_append.mp hm with hm | hm
  · exact hx m hm
  · exact hy m hm

/-- Not in any of the buckets. -/
def Outside (buckets : List (CachedBucket ω)) (t : ℤ) : Prop :=
  ∀ b ∈ buckets, ¬ (b.startMs ≤ t ∧ t < b.endMs)

lemma alignUp_of_dvd {step x : ℤ} (h : step ∣ x) : alignUp step x = x := by
  rw [alignUp, if_pos (Int.tmod_eq_zero_of_dvd h)]

lemma dvd_alignUp (step x : ℤ) : step ∣ alignUp step x := by
  have hparts := Int.mul_tdiv_add_tmod x step
  unfold alignUp
  split_ifs with hmod
  · exact Int.dvd_of_tmod_eq_zero hmod
  · exact ⟨x.tdiv step + 1, by linarith⟩

lemma lt_alignUp {step x : ℤ} (hstep : 0 < step) (h : x.tmod step ≠ 0) : x < alignUp step x := by
  have hlt := Int.tmod_lt_of_pos x hstep
  rw [alignUp, if_neg h]
  omega

lemma le_alignUp {step : ℤ} (hstep : 0 < step) (x : ℤ) : x ≤ alignUp step x := by
  by_cases h : x.tmod step = 0
  · rw [alignUp, if_pos h]
  · exact (lt_alignUp hstep h).le

/-- One bucket of the scan: the gap before it, and the cursor moved past it. -/
lemma scanBuckets_cons {endMs bucketMs fluxBoundaryMs cursor : ℤ} {bucket : CachedBucket ω}
    {rest : List (CachedBucket ω)} (hstart : bucketMs ∣ bucket.startMs)
    (hend : bucket.endMs = bucket.startMs + bucketMs) (hafter : cursor < bucket.endMs)
    (hbefore : bucket.startMs < endMs) :
    scanBuckets endMs bucketMs fluxBoundaryMs cursor (bucket :: rest) =
      let next := scanBuckets endMs bucketMs fluxBoundaryMs (max cursor (min bucket.endMs endMs)) rest
      (next.1, emitGap fluxBoundaryMs cursor bucket.startMs ++ next.2) := by
  have hcursor : (if (min bucket.endMs endMs).tmod bucketMs ≠ 0 ∧ min bucket.endMs endMs < endMs then
      min bucket.endMs endMs - (min bucket.endMs endMs).tmod bucketMs else min bucket.endMs endMs) =
        min bucket.endMs endMs := by
    refine if_neg ?_
    rintro ⟨hmod, hlt⟩
    have hmin : min bucket.endMs endMs = bucket.endMs := by omega
    rw [hmin, hend] at hmod
    exact hmod (Int.tmod_eq_zero_of_dvd (hstart.add dvd_rfl))
  have hgap : (if cursor < bucket.startMs ∧ cursor < endMs then
      emitGap fluxBoundaryMs cursor (min bucket.startMs endMs) else []) =
        emitGap fluxBoundaryMs cursor bucket.startMs := by
    rw [min_eq_left hbefore.le]
    by_cases hlt : cursor < bucket.startMs
    · rw [if_pos ⟨hlt, by omega⟩]
    · rw [if_neg (by omega), emitGap, if_pos (by omega)]
  rw [scanBuckets, if_neg (by omega), if_neg (by omega)]
  simp only [alignUp_of_dvd hstart, hcursor, hgap]

/-- What the scan leaves out from its cursor on, up to the end of the request. -/
def scanGaps (endMs bucketMs fluxBoundaryMs cursor : ℤ) (buckets : List (CachedBucket ω)) :
    List MissingRange :=
  let (last, gaps) := scanBuckets endMs bucketMs fluxBoundaryMs cursor buckets
  gaps ++ if last < endMs then emitGap fluxBoundaryMs last endMs else []

lemma scanGaps_nil (endMs bucketMs fluxBoundaryMs cursor : ℤ) :
    scanGaps endMs bucketMs fluxBoundaryMs cursor ([] : List (CachedBucket ω)) =
      emitGap fluxBoundaryMs cursor endMs := by
  by_cases hlt : cursor < endMs
  · simp [scanGaps, scanBuckets, hlt]
  · simp [scanGaps, scanBuckets, hlt, emitGap, not_lt.mp hlt]

lemma scanGaps_skip {endMs bucketMs fluxBoundaryMs cursor : ℤ} {bucket : CachedBucket ω}
    {rest : List (CachedBucket ω)} (h : bucket.endMs ≤ cursor) :
    scanGaps endMs bucketMs fluxBoundaryMs cursor (bucket :: rest) =
      scanGaps endMs bucketMs fluxBoundaryMs cursor rest := by
  rw [scanGaps, scanBuckets, if_pos h, scanGaps]

lemma scanGaps_stop {endMs bucketMs fluxBoundaryMs cursor : ℤ} {bucket : CachedBucket ω}
    {rest : List (CachedBucket ω)} (hafter : cursor < bucket.endMs)
    (h : endMs ≤ bucket.startMs) :
    scanGaps endMs bucketMs fluxBoundaryMs cursor (bucket :: rest) =
      emitGap fluxBoundaryMs cursor endMs := by
  have hscan : scanBuckets endMs bucketMs fluxBoundaryMs cursor (bucket :: rest) = (cursor, []) := by
    rw [scanBuckets, if_neg (by omega), if_pos h]
  rw [scanGaps, hscan]
  by_cases hlt : cursor < endMs
  · simp [hlt]
  · simp [hlt, emitGap, not_lt.mp hlt]

lemma scanGaps_cons {endMs bucketMs fluxBoundaryMs cursor : ℤ} {bucket : CachedBucket ω}
    {rest : List (CachedBucket ω)} (hstart : bucketMs ∣ bucket.startMs)
    (hend : bucket.endMs = bucket.startMs + bucketMs) (hafter : cursor < bucket.endMs)
    (hbefore : bucket.startMs < endMs) :
    scanGaps endMs bucketMs fluxBoundaryMs cursor (bucket :: rest) =
      emitGap fluxBoundaryMs cursor bucket.startMs ++
        scanGaps endMs bucketMs fluxBoundaryMs (max cursor (min bucket.endMs endMs)) rest := by
  rw [scanGaps, scanBuckets_cons hstart hend hafter hbefore, scanGaps]
  simp only [List.append_assoc]

/-- The scan leaves out what is after its cursor and in no bucket. -/
lemma covers_scanGaps {endMs bucketMs fluxBoundaryMs : ℤ} {cachable : Bool} {t : ℤ}
    (buckets : List (CachedBucket ω)) (cursor : ℤ) (halign : Aligned bucketMs buckets)
    (hsorted : buckets.Pairwise fun a b => a.startMs ≤ b.startMs) :
    Covers (scanGaps endMs bucketMs fluxBoundaryMs cursor buckets) cachable t ↔
      (cursor ≤ t ∧ t < endMs ∧ Outside buckets t) ∧ OnSide fluxBoundaryMs cachable t := by
  induction buckets generalizing cursor with
  | nil =>
    rw [scanGaps_nil, covers_emitGap]
    simp [Outside, and_assoc]
  | cons bucket rest ih =>
    obtain ⟨hstart, hend⟩ := halign bucket (List.mem_cons_self ..)
    have hrest : Aligned bucketMs rest := fun b hb => halign b (List.mem_cons_of_mem _ hb)
    obtain ⟨hlater, htail⟩ := List.pairwise_cons.mp hsorted
    have hout : Outside (bucket :: rest) t ↔
        ¬ (bucket.startMs ≤ t ∧ t < bucket.endMs) ∧ Outside rest t := by
      simp [Outside]
    have hearly : t < bucket.startMs → Outside rest t := by
      intro ht b hb hin
      have := hlater b hb
      omega
    rw [hout]
    by_cases hskip : bucket.endMs ≤ cursor
    · rw [scanGaps_skip hskip, ih cursor hrest htail]
      constructor
      · rintro ⟨⟨hfrom, hto, hrestOut⟩, hside⟩
        exact ⟨⟨hfrom, hto, by omega, hrestOut⟩, hside⟩
      · rintro ⟨⟨hfrom, hto, -, hrestOut⟩, hside⟩
        exact ⟨⟨hfrom, hto, hrestOut⟩, hside⟩
    · by_cases hstop : endMs ≤ bucket.startMs
      · rw [scanGaps_stop (by omega) hstop, covers_emitGap]
        constructor
        · rintro ⟨hfrom, hto, hside⟩
          exact ⟨⟨hfrom, hto, by omega, hearly (by omega)⟩, hside⟩
        · rintro ⟨⟨hfrom, hto, -⟩, hside⟩
          exact ⟨hfrom, hto, hside⟩
      · rw [scanGaps_cons hstart hend (by omega) (by omega), covers_append, covers_emitGap,
          ih _ hrest htail]
        constructor
        · rintro (⟨hfrom, hto, hside⟩ | ⟨⟨hfrom, hto, hrestOut⟩, hside⟩)
          · exact ⟨⟨hfrom, by omega, by omega, hearly hto⟩, hside⟩
          · exact ⟨⟨by omega, hto, by omega, hrestOut⟩, hside⟩
        · rintro ⟨⟨hfrom, hto, hnot, hrestOut⟩, hside⟩
          by_cases hgap : t < bucket.startMs
          · exact Or.inl ⟨hfrom, hgap, hside⟩
          · exact Or.inr ⟨⟨by omega, hto, hrestOut⟩, hside⟩

lemma proper_scanGaps {endMs bucketMs fluxBoundaryMs : ℤ} (buckets : List (CachedBucket ω))
    (cursor : ℤ) (halign : Aligned bucketMs buckets) :
    Proper (scanGaps endMs bucketMs fluxBoundaryMs cursor buckets) := by
  induction buckets generalizing cursor with
  | nil =>
    rw [scanGaps_nil]
    exact proper_emitGap _ _ _
  | cons bucket rest ih =>
    obtain ⟨hstart, hend⟩ := halign bucket (List.mem_cons_self ..)
    have hrest : Aligned bucketMs rest := fun b hb => halign b (List.mem_cons_of_mem _ hb)
    by_cases hskip : bucket.endMs ≤ cursor
    · rw [scanGaps_skip hskip]
      exact ih cursor hrest
    · by_cases hstop : endMs ≤ bucket.startMs
      · rw [scanGaps_stop (by omega) hstop]
        exact proper_emitGap _ _ _
      · rw [scanGaps_cons hstart hend (by omega) (by omega)]
        exact (proper_emitGap _ _ _).append (ih _ hrest)

/-- A requested time that the cached buckets do not serve: it is in none of them, or in the
window the request starts inside. -/
def Uncached (startMs endMs bucketMs : ℤ) (buckets : List (CachedBucket ω)) (t : ℤ) : Prop :=
  startMs ≤ t ∧ t < endMs ∧ (t < alignUp bucketMs startMs ∨ Outside buckets t)

lemma sortByStart_pairwise (buckets : List (CachedBucket ω)) :
    (sortByStart buckets).Pairwise fun a b => a.startMs ≤ b.startMs := by
  have htotal : Std.Total fun a b : CachedBucket ω => a.startMs ≤ b.startMs :=
    ⟨fun a b => le_total a.startMs b.startMs⟩
  have htrans : IsTrans (CachedBucket ω) fun a b => a.startMs ≤ b.startMs :=
    ⟨fun a b c hab hbc => le_trans hab hbc⟩
  exact List.pairwise_insertionSort _ buckets

lemma mem_sortByStart {buckets : List (CachedBucket ω)} {b : CachedBucket ω} :
    b ∈ sortByStart buckets ↔ b ∈ buckets :=
  (List.perm_insertionSort _ buckets).mem_iff

lemma aligned_sortByStart {bucketMs : ℤ} {buckets : List (CachedBucket ω)}
    (h : Aligned bucketMs buckets) : Aligned bucketMs (sortByStart buckets) :=
  fun b hb => h b (mem_sortByStart.mp hb)

lemma outside_sortByStart {buckets : List (CachedBucket ω)} {t : ℤ} :
    Outside (sortByStart buckets) t ↔ Outside buckets t := by
  simp only [Outside, mem_sortByStart]

lemma findMissingRanges_eq {buckets : List (CachedBucket ω)}
    {startMs endMs bucketMs fluxBoundaryMs : ℤ} (h : startMs < endMs) :
    findMissingRanges buckets startMs endMs bucketMs fluxBoundaryMs =
      emitGap fluxBoundaryMs startMs (min (alignUp bucketMs startMs) endMs) ++
        scanGaps endMs bucketMs fluxBoundaryMs (alignUp bucketMs startMs) (sortByStart buckets) := by
  rw [findMissingRanges, if_neg (by omega), scanGaps]
  simp only [List.append_assoc]
  congr 1
  by_cases hmod : startMs.tmod bucketMs = 0
  · rw [if_neg (by simpa using hmod), alignUp, if_pos hmod, emitGap, if_pos (by omega)]
  · rw [if_pos hmod]

/-- The missing ranges hold exactly the uncached times, each class its side of the boundary. -/
theorem covers_findMissingRanges {buckets : List (CachedBucket ω)}
    {startMs endMs bucketMs fluxBoundaryMs : ℤ} {cachable : Bool} {t : ℤ}
    (hstep : 0 < bucketMs) (halign : Aligned bucketMs buckets) :
    Covers (findMissingRanges buckets startMs endMs bucketMs fluxBoundaryMs) cachable t ↔
      Uncached startMs endMs bucketMs buckets t ∧ OnSide fluxBoundaryMs cachable t := by
  have hle := le_alignUp hstep startMs
  by_cases hempty : endMs ≤ startMs
  · rw [findMissingRanges, if_pos hempty]
    simp only [not_covers_nil, Uncached, false_iff]
    omega
  · rw [findMissingRanges_eq (by omega), covers_append, covers_emitGap,
      covers_scanGaps _ _ (aligned_sortByStart halign) (sortByStart_pairwise _),
      outside_sortByStart, Uncached]
    constructor
    · rintro (⟨hfrom, hto, hside⟩ | ⟨⟨hfrom, hto, hout⟩, hside⟩)
      · exact ⟨⟨hfrom, by omega, Or.inl (by omega)⟩, hside⟩
      · exact ⟨⟨by omega, hto, Or.inr hout⟩, hside⟩
    · rintro ⟨⟨hfrom, hto, hmissing⟩, hside⟩
      by_cases hhead : t < alignUp bucketMs startMs
      · exact Or.inl ⟨hfrom, by omega, hside⟩
      · exact Or.inr ⟨⟨by omega, hto, hmissing.resolve_left hhead⟩, hside⟩

lemma proper_findMissingRanges {buckets : List (CachedBucket ω)}
    {startMs endMs bucketMs fluxBoundaryMs : ℤ} (halign : Aligned bucketMs buckets) :
    Proper (findMissingRanges buckets startMs endMs bucketMs fluxBoundaryMs) := by
  by_cases hempty : endMs ≤ startMs
  · rw [findMissingRanges, if_pos hempty]
    intro m hm
    cases hm
  · rw [findMissingRanges_eq (by omega)]
    exact (proper_emitGap _ _ _).append (proper_scanGaps _ _ (aligned_sortByStart halign))

/-- The span of a class: it begins and ends with a time of the class, and holds them all. -/
structure IsSpan (missing : List MissingRange) (cachable : Bool) (span : TimeRange) : Prop where
  first : Covers missing cachable span.startMs
  last : Covers missing cachable (span.endMs - 1)
  holds : ∀ t, Covers missing cachable t → Holds span t

lemma covers_singleton {m : MissingRange} {cachable : Bool} {t : ℤ} :
    Covers [m] cachable t ↔ m.cachable = cachable ∧ Holds m.range t := by
  simp [Covers]

/-- Widening a span by a range of its class. -/
lemma IsSpan.widen {missing : List MissingRange} {m : MissingRange} {span : TimeRange}
    (h : IsSpan missing m.cachable span) (hproper : m.range.startMs < m.range.endMs) :
    IsSpan (missing ++ [m]) m.cachable
      ⟨min span.startMs m.range.startMs, max span.endMs m.range.endMs⟩ := by
  refine ⟨?_, ?_, ?_⟩
  · rw [covers_append, covers_singleton]
    rcases min_choice span.startMs m.range.startMs with hmin | hmin
    · rw [hmin]
      exact Or.inl h.first
    · rw [hmin]
      exact Or.inr ⟨rfl, le_rfl, hproper⟩
  · rw [covers_append, covers_singleton]
    rcases max_choice span.endMs m.range.endMs with hmax | hmax
    · rw [hmax]
      exact Or.inl h.last
    · have hle := le_max_right span.endMs m.range.endMs
      refine Or.inr ⟨rfl, ?_, ?_⟩
      · dsimp only
        omega
      · dsimp only
        omega
  · intro t ht
    rcases covers_append.mp ht with ht | ht
    · have hin := h.holds t ht
      simp only [Holds] at hin ⊢
      omega
    · have hin := (covers_singleton.mp ht).2
      simp only [Holds] at hin ⊢
      omega

lemma covers_append_other {missing : List MissingRange} {m : MissingRange} {cachable : Bool}
    {t : ℤ} (h : cachable ≠ m.cachable) :
    Covers (missing ++ [m]) cachable t ↔ Covers missing cachable t := by
  rw [covers_append, covers_singleton]
  simp [Ne.symm h]

lemma missingSpans_spec (missing : List MissingRange) (hproper : Proper missing) (cachable : Bool) :
    (∀ span, (missingSpans missing).get cachable = some span → IsSpan missing cachable span) ∧
    ((missingSpans missing).get cachable = none → ∀ t, ¬ Covers missing cachable t) := by
  induction missing using List.reverseRecOn with
  | nil => simp [missingSpans]
  | append_singleton missing m ih =>
    have hm : m.range.startMs < m.range.endMs := hproper m (by simp)
    obtain ⟨hsome, hnone⟩ := ih fun r hr => hproper r (List.mem_append_left _ hr)
    have hstep : missingSpans (missing ++ [m]) = addToSpan (missingSpans missing) m := by
      simp [missingSpans]
    rw [hstep]
    by_cases hclass : cachable = m.cachable
    · subst hclass
      cases hget : (missingSpans missing).get m.cachable with
      | some span =>
        simp only [addToSpan, hget, InsertMap.get_set, if_true, Option.some.injEq, reduceCtorEq,
          false_imp_iff, and_true]
        rintro span' rfl
        exact (hsome span hget).widen hm
      | none =>
        simp only [addToSpan, hget, InsertMap.get_set, if_true, Option.some.injEq, reduceCtorEq,
          false_imp_iff, and_true]
        rintro span' rfl
        have hold := hnone hget
        refine ⟨?_, ?_, ?_⟩
        · exact covers_append.mpr (Or.inr (covers_singleton.mpr ⟨rfl, le_rfl, hm⟩))
        · refine covers_append.mpr (Or.inr (covers_singleton.mpr ⟨rfl, ?_, ?_⟩)) <;> omega
        · intro t ht
          rcases covers_append.mp ht with ht | ht
          · exact absurd ht (hold t)
          · exact (covers_singleton.mp ht).2
    · have hget : (addToSpan (missingSpans missing) m).get cachable =
          (missingSpans missing).get cachable := by
        unfold addToSpan
        split
        · simp [hclass]
        · simp [hclass]
      rw [hget]
      constructor
      · intro span hspan
        have hold := hsome span hspan
        exact ⟨(covers_append_other hclass).mpr hold.first,
          (covers_append_other hclass).mpr hold.last,
          fun t ht => hold.holds t ((covers_append_other hclass).mp ht)⟩
      · intro hget t ht
        exact hnone hget t ((covers_append_other hclass).mp ht)

/-- The range fetched for a class: from its first uncached time to its last. -/
structure FillSpan (uncached : ℤ → Prop) (fluxBoundaryMs : ℤ) (cachable : Bool) (span : TimeRange) :
    Prop where
  first : uncached span.startMs ∧ OnSide fluxBoundaryMs cachable span.startMs
  last : uncached (span.endMs - 1) ∧ OnSide fluxBoundaryMs cachable (span.endMs - 1)
  holds : ∀ t, uncached t → OnSide fluxBoundaryMs cachable t → Holds span t

theorem fillSpan_missing {buckets : List (CachedBucket ω)} {bucketMs : ℤ} (hstep : 0 < bucketMs)
    (halign : Aligned bucketMs buckets) (startMs endMs fluxBoundaryMs : ℤ) (cachable : Bool) :
    let spans := missingSpans (findMissingRanges buckets startMs endMs bucketMs fluxBoundaryMs)
    let uncached := Uncached startMs endMs bucketMs buckets
    (∀ span, spans.get cachable = some span → FillSpan uncached fluxBoundaryMs cachable span) ∧
    (spans.get cachable = none → ∀ t, uncached t → ¬ OnSide fluxBoundaryMs cachable t) := by
  intro spans uncached
  have hcovers : ∀ t, Covers (findMissingRanges buckets startMs endMs bucketMs fluxBoundaryMs)
      cachable t ↔ uncached t ∧ OnSide fluxBoundaryMs cachable t :=
    fun t => covers_findMissingRanges hstep halign
  obtain ⟨hsome, hnone⟩ :=
    missingSpans_spec _ (proper_findMissingRanges halign) cachable
  constructor
  · intro span hspan
    have h := hsome span hspan
    exact ⟨(hcovers _).mp h.first, (hcovers _).mp h.last,
      fun t ht hside => h.holds t ((hcovers t).mpr ⟨ht, hside⟩)⟩
  · intro hget t ht hside
    exact hnone hget t ((hcovers t).mpr ⟨ht, hside⟩)

end Maple.BucketCache
