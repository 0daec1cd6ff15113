import Maple.BucketRanges

/-! The missing ranges as an ordered list: one after another inside the request, on their own
side of the flux boundary, and what is left of that when they are coalesced. -/

namespace Maple.BucketCache

variable {ω : Type}

/-- Inside the window, not empty, and on one side of the boundary, the class saying which. -/
structure MissingRange.Within (fluxBoundaryMs lo hi : ℤ) (m : MissingRange) : Prop where
  start : lo ≤ m.range.startMs
  nonempty : m.range.startMs < m.range.endMs
  stop : m.range.endMs ≤ hi
  settled : m.cachable = true ↔ m.range.endMs ≤ fluxBoundaryMs
  sided : m.range.endMs ≤ fluxBoundaryMs ∨ fluxBoundaryMs ≤ m.range.startMs

lemma MissingRange.Within.widen {fluxBoundaryMs lo hi lo' hi' : ℤ} {m : MissingRange}
    (h : m.Within fluxBoundaryMs lo hi) (hlo : lo' ≤ lo) (hhi : hi ≤ hi') :
    m.Within fluxBoundaryMs lo' hi' :=
  ⟨hlo.trans h.start, h.nonempty, h.stop.trans hhi, h.settled, h.sided⟩

/-- Ranges of one window, each ending before the next begins. -/
structure Ascending (fluxBoundaryMs lo hi : ℤ) (missing : List MissingRange) : Prop where
  within : ∀ m ∈ missing, m.Within fluxBoundaryMs lo hi
  apart : missing.Pairwise fun a b => a.range.endMs ≤ b.range.startMs

lemma Ascending.widen {fluxBoundaryMs lo hi lo' hi' : ℤ} {missing : List MissingRange}
    (h : Ascending fluxBoundaryMs lo hi missing) (hlo : lo' ≤ lo) (hhi : hi ≤ hi') :
    Ascending fluxBoundaryMs lo' hi' missing :=
  ⟨fun m hm => (h.within m hm).widen hlo hhi, h.apart⟩

/-- Two ascending lists whose windows follow one another. -/
lemma Ascending.append {fluxBoundaryMs lo mid mid' hi : ℤ} {xs ys : List MissingRange}
    (hx : Ascending fluxBoundaryMs lo mid xs) (hy : Ascending fluxBoundaryMs mid' hi ys)
    (hmid : mid ≤ mid') (hlo : lo ≤ mid') (hhi : mid ≤ hi) :
    Ascending fluxBoundaryMs lo hi (xs ++ ys) := by
  constructor
  · intro m hm
    rcases List.mem_append.mp hm with hm | hm
    · exact (hx.within m hm).widen le_rfl hhi
    · exact (hy.within m hm).widen hlo le_rfl
  · rw [List.pairwise_append]
    have hcross : ∀ a ∈ xs, ∀ b ∈ ys, a.range.endMs ≤ b.range.startMs := by
      intro a ha b hb
      have hstop := (hx.within a ha).stop
      have hstart := (hy.within b hb).start
      omega
    exact ⟨hx.apart, hy.apart, hcross⟩

lemma ascending_nil (fluxBoundaryMs lo hi : ℤ) : Ascending fluxBoundaryMs lo hi [] := by
  constructor
  · simp
  · simp

lemma ascending_emitGap (fluxBoundaryMs lo hi : ℤ) :
    Ascending fluxBoundaryMs lo hi (emitGap fluxBoundaryMs lo hi) := by
  unfold emitGap
  split_ifs with hempty hsettled hlive
  · exact ascending_nil _ _ _
  · constructor
    · intro m hm
      obtain rfl := List.mem_singleton.mp hm
      constructor
      all_goals simp; try omega
    · simp
  · constructor
    · intro m hm
      obtain rfl := List.mem_singleton.mp hm
      constructor
      all_goals simp; try omega
    · simp
  · constructor
    · intro m hm
      rcases List.mem_cons.mp hm with rfl | hm
      · constructor
        all_goals simp; try omega
      · obtain rfl := List.mem_singleton.mp hm
        constructor
        all_goals simp; try omega
    · simp

/-- The scan's gaps follow its cursor in order. -/
lemma ascending_scanGaps {endMs bucketMs fluxBoundaryMs : ℤ} (hstep : 0 < bucketMs)
    (buckets : List (CachedBucket ω)) (cursor : ℤ) (halign : Aligned bucketMs buckets) :
    Ascending fluxBoundaryMs cursor endMs
      (scanGaps endMs bucketMs fluxBoundaryMs cursor buckets) := by
  induction buckets generalizing cursor with
  | nil =>
    rw [scanGaps_nil]
    exact ascending_emitGap _ _ _
  | cons bucket rest ih =>
    obtain ⟨hstart, hend⟩ := halign bucket (List.mem_cons_self ..)
    have hrest : Aligned bucketMs rest := fun b hb => halign b (List.mem_cons_of_mem _ hb)
    by_cases hskip : bucket.endMs ≤ cursor
    · rw [scanGaps_skip hskip]
      exact ih cursor hrest
    · by_cases hstop : endMs ≤ bucket.startMs
      · rw [scanGaps_stop (by omega) hstop]
        exact ascending_emitGap _ _ _
      · rw [scanGaps_cons hstart hend (by omega) (by omega)]
        have hnext := ih (max cursor (min bucket.endMs endMs)) hrest
        by_cases hgap : cursor < bucket.startMs
        · have hmid : bucket.startMs ≤ max cursor (min bucket.endMs endMs) := by omega
          exact (ascending_emitGap _ _ _).append hnext hmid (by omega) (by omega)
        · rw [emitGap, if_pos (by omega), List.nil_append]
          exact hnext.widen (by omega) le_rfl

lemma ascending_findMissingRanges {buckets : List (CachedBucket ω)}
    {startMs endMs bucketMs fluxBoundaryMs : ℤ} (hstep : 0 < bucketMs)
    (halign : Aligned bucketMs buckets) :
    Ascending fluxBoundaryMs startMs endMs
      (findMissingRanges buckets startMs endMs bucketMs fluxBoundaryMs) := by
  by_cases hempty : endMs ≤ startMs
  · rw [findMissingRanges, if_pos hempty]
    exact ascending_nil _ _ _
  · rw [findMissingRanges_eq (by omega)]
    have hle := le_alignUp hstep startMs
    have hscan : Ascending fluxBoundaryMs (alignUp bucketMs startMs) endMs (scanGaps endMs bucketMs
        fluxBoundaryMs (alignUp bucketMs startMs) (sortByStart buckets)) :=
      ascending_scanGaps hstep _ _ (aligned_sortByStart halign)
    exact (ascending_emitGap _ _ _).append hscan (by omega) hle (by omega)

/-- In a bucket that the request reaches from its start. -/
def Served (startMs : ℤ) (buckets : List (CachedBucket ω)) (t : ℤ) : Prop :=
  ∃ b ∈ buckets, startMs ≤ b.startMs ∧ b.startMs ≤ t ∧ t < b.endMs

/-- A bucket that begins inside the first partial window ends with it. -/
lemma alignUp_le_of_dvd {step x y : ℤ} (hstep : 0 < step) (hx : 0 ≤ x) (hdvd : step ∣ y)
    (h : x ≤ y) : alignUp step x ≤ y := by
  obtain ⟨k, rfl⟩ := hdvd
  have hparts := Int.mul_tdiv_add_tmod x step
  have hmod := Int.tmod_nonneg step hx
  unfold alignUp
  split_ifs with hzero
  · exact h
  · have hlt : step * x.tdiv step < step * k := by omega
    have hquot : x.tdiv step + 1 ≤ k := lt_of_mul_lt_mul_left hlt hstep.le
    have hmul : step * (x.tdiv step + 1) ≤ step * k := mul_le_mul_of_nonneg_left hquot hstep.le
    linarith

/-- A bucket that begins before the request ends with its first partial window. -/
lemma end_le_alignUp {step x y : ℤ} (hstep : 0 < step) (hdvd : step ∣ y) (h : y < x) :
    y + step ≤ alignUp step x := by
  obtain ⟨k, rfl⟩ := hdvd
  obtain ⟨l, hl⟩ := dvd_alignUp step x
  have hle := le_alignUp hstep x
  rw [hl] at hle ⊢
  have hlt : k < l := lt_of_mul_lt_mul_left (h.trans_le hle) hstep.le
  have hmul : step * (k + 1) ≤ step * l := mul_le_mul_of_nonneg_left hlt hstep.le
  linarith

/-- What is uncached is what no bucket from the start of the request on serves. -/
lemma uncached_iff_not_served {buckets : List (CachedBucket ω)} {startMs endMs bucketMs t : ℤ}
    (hstep : 0 < bucketMs) (halign : Aligned bucketMs buckets) (hstart : 0 ≤ startMs) :
    Uncached startMs endMs bucketMs buckets t ↔
      startMs ≤ t ∧ t < endMs ∧ ¬ Served startMs buckets t := by
  have hmissing : (t < alignUp bucketMs startMs ∨ Outside buckets t) ↔
      ¬ Served startMs buckets t := by
    constructor
    · intro h hserved
      obtain ⟨b, hb, hfrom, hle, hlt⟩ := hserved
      have hbucket := alignUp_le_of_dvd hstep hstart (halign b hb).1 hfrom
      rcases h with hhead | hout
      · omega
      · exact hout b hb ⟨hle, hlt⟩
    · intro h
      by_cases hhead : t < alignUp bucketMs startMs
      · exact Or.inl hhead
      · refine Or.inr ?_
        intro b hb hin
        obtain ⟨hdvd, hend⟩ := halign b hb
        by_cases hfrom : startMs ≤ b.startMs
        · exact h ⟨b, hb, hfrom, hin⟩
        · have hbucket := end_le_alignUp hstep hdvd (not_le.mp hfrom)
          omega
  rw [Uncached, hmissing]

/-- A class is present at most once after coalescing, and the settled one comes first. -/
lemma coalesceMissingRanges_eq (missing : List MissingRange) :
    coalesceMissingRanges missing =
      (((missingSpans missing).get true).map (MissingRange.mk · true)).toList ++
        (((missingSpans missing).get false).map (MissingRange.mk · false)).toList := by
  cases htrue : (missingSpans missing).get true
  all_goals
    cases hfalse : (missingSpans missing).get false
    all_goals simp [coalesceMissingRanges, htrue, hfalse]

lemma mem_coalesceMissingRanges {missing : List MissingRange} {m : MissingRange} :
    m ∈ coalesceMissingRanges missing ↔
      (missingSpans missing).get m.cachable = some m.range := by
  obtain ⟨range, cachable⟩ := m
  rw [coalesceMissingRanges_eq]
  cases cachable
  all_goals simp [Option.mem_toList]

/-- The span of a class of ascending ranges is inside their window and on the class's side. -/
lemma IsSpan.within {fluxBoundaryMs lo hi : ℤ} {missing : List MissingRange} {m : MissingRange}
    (h : IsSpan missing m.cachable m.range) (hasc : Ascending fluxBoundaryMs lo hi missing) :
    m.Within fluxBoundaryMs lo hi := by
  obtain ⟨first, hfirst, hclass, hfrom, hto⟩ := h.first
  obtain ⟨last, hlast, hclass', hfrom', hto'⟩ := h.last
  have hf := hasc.within first hfirst
  have hl := hasc.within last hlast
  have hheld := (h.holds _ h.first).2
  have hfside := hf.settled
  have hlside := hl.settled
  rw [hclass] at hfside
  rw [hclass'] at hlside
  have hfne := hf.nonempty
  have hlne := hl.nonempty
  have hfsided := hf.sided
  have hlo := hf.start
  have hhi := hl.stop
  cases hcachable : m.cachable
  all_goals
    simp only [hcachable, Bool.false_eq_true, false_iff, true_iff] at hfside hlside
    refine ⟨by omega, by omega, by omega, ?_, by omega⟩
    simp only [hcachable, Bool.false_eq_true, false_iff, true_iff]
    omega

/-- The request of the gap search, split exactly: the ranges are ordered and apart, on one side of
the boundary each, and hold what is not served; the coalesced ones, at most one a class, hold
them all without leaving the request or their side. -/
theorem gaps_exact_coalescing_safe {buckets : List (CachedBucket ω)}
    {startMs endMs bucketMs fluxBoundaryMs : ℤ} (hstep : 0 < bucketMs)
    (halign : Aligned bucketMs buckets) (hstart : 0 ≤ startMs) :
    let missing := findMissingRanges buckets startMs endMs bucketMs fluxBoundaryMs
    let coalesced := coalesceMissingRanges missing
    (∀ m ∈ missing, m.Within fluxBoundaryMs startMs endMs) ∧
    missing.Pairwise (fun a b => a.range.endMs ≤ b.range.startMs) ∧
    (∀ t, (∃ m ∈ missing, Holds m.range t) ↔
      startMs ≤ t ∧ t < endMs ∧ ¬ Served startMs buckets t) ∧
    (∃ settled live : Option TimeRange, coalesced =
      (settled.map (MissingRange.mk · true)).toList ++
        (live.map (MissingRange.mk · false)).toList) ∧
    (∀ m ∈ coalesced, m.Within fluxBoundaryMs startMs endMs) ∧
    (∀ m ∈ missing, ∃ c ∈ coalesced, c.cachable = m.cachable ∧
      c.range.startMs ≤ m.range.startMs ∧ m.range.endMs ≤ c.range.endMs) := by
  intro missing coalesced
  have hasc : Ascending fluxBoundaryMs startMs endMs missing :=
    ascending_findMissingRanges hstep halign
  have hproper : Proper missing := proper_findMissingRanges halign
  refine ⟨hasc.within, hasc.apart, ?_, ⟨_, _, coalesceMissingRanges_eq missing⟩, ?_, ?_⟩
  · intro t
    rw [← uncached_iff_not_served hstep halign hstart]
    constructor
    · intro ⟨m, hm, hin⟩
      have hcover : Covers missing m.cachable t := ⟨m, hm, rfl, hin⟩
      exact ((covers_findMissingRanges hstep halign).mp hcover).1
    · intro ht
      have hside : OnSide fluxBoundaryMs (decide (t < fluxBoundaryMs)) t := by
        by_cases hlt : t < fluxBoundaryMs
        · simp [OnSide, hlt]
        · simp [OnSide, hlt, not_lt.mp hlt]
      obtain ⟨m, hm, -, hin⟩ := (covers_findMissingRanges hstep halign).mpr ⟨ht, hside⟩
      exact ⟨m, hm, hin⟩
  · intro m hm
    have hget := mem_coalesceMissingRanges.mp hm
    exact ((missingSpans_spec missing hproper m.cachable).1 _ hget).within hasc
  · intro m hm
    obtain ⟨hsome, hnone⟩ := missingSpans_spec missing hproper m.cachable
    have hne := hproper m hm
    have hfirst : Covers missing m.cachable m.range.startMs := ⟨m, hm, rfl, le_rfl, hne⟩
    have hlast : Covers missing m.cachable (m.range.endMs - 1) :=
      ⟨m, hm, rfl, by omega, by omega⟩
    cases hget : (missingSpans missing).get m.cachable with
    | none => exact absurd hfirst (hnone hget _)
    | some span =>
      have hspan := hsome span hget
      have hfrom := hspan.holds _ hfirst
      have hto := hspan.holds _ hlast
      refine ⟨⟨span, m.cachable⟩, mem_coalesceMissingRanges.mpr hget, rfl, hfrom.1, ?_⟩
      have hlt := hto.2
      dsimp only
      omega

/-- An unaligned request over one cached bucket, with the boundary inside the tail. -/
theorem gaps_exact_coalescing_safe_one :
    (findMissingRanges [(⟨20, 30, []⟩ : CachedBucket ℕ)] 15 45 10 35).Pairwise
      (fun a b => a.range.endMs ≤ b.range.startMs) := by
  have halign : Aligned 10 [(⟨20, 30, []⟩ : CachedBucket ℕ)] := by
    intro b hb
    obtain rfl := List.mem_singleton.mp hb
    exact ⟨⟨2, rfl⟩, rfl⟩
  exact (gaps_exact_coalescing_safe (by decide) halign (by decide)).2.1

end Maple.BucketCache
