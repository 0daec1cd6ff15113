import Maple.BucketCache

/-! Which part of a bucket's events an answer is made from: the fetched ranges are described by
their first and last uncached times, so this is a matter of where those lie. -/

namespace Maple.BucketCache

variable {ω : Type}

/-- The windows are uncached as a whole, as far as they are requested. -/
structure Windowed (uncached : ℤ → Prop) (step startMs endMs : ℤ) : Prop where
  requested : ∀ t, uncached t → startMs ≤ t ∧ t < endMs
  whole : ∀ bucket t, step ∣ bucket → startMs ≤ bucket → bucket ≤ t → t < bucket + step →
    t < endMs → (uncached t ↔ uncached bucket)

lemma windowed_uncached {buckets : List (CachedBucket ω)} {step : ℤ} (hstep : 0 < step)
    (halign : Aligned step buckets) (startMs endMs : ℤ) :
    Windowed (Uncached startMs endMs step buckets) step startMs endMs := by
  refine ⟨fun t h => ⟨h.1, h.2.1⟩, ?_⟩
  intro bucket t hbucket hstart hfrom hto hend
  have hfloor : ∀ c, step ∣ c → (c ≤ t ↔ c ≤ bucket) := by
    intro c hc
    constructor
    · intro hct
      by_contra hlt
      have := eq_of_dvd_close hc hbucket (by omega) (by omega)
      omega
    · omega
  have hhead : t < alignUp step startMs ↔ bucket < alignUp step startMs := by
    have := hfloor _ (dvd_alignUp step startMs)
    omega
  have hout : Outside buckets t ↔ Outside buckets bucket := by
    refine forall₂_congr fun b hb => ?_
    obtain ⟨hb, hend⟩ := halign b hb
    have hleft := hfloor _ hb
    have hright := hfloor (b.startMs + step) (hb.add dvd_rfl)
    rw [hend]
    omega
  simp only [Uncached, hhead, hout]
  constructor
  · rintro ⟨-, -, hmissing⟩
    exact ⟨hstart, by omega, hmissing⟩
  · rintro ⟨-, -, hmissing⟩
    exact ⟨by omega, hend, hmissing⟩

/-- The last range fetched on a side of the boundary ends where the bucket begins. -/
def FillEndsAt (uncached : ℤ → Prop) (fluxBoundaryMs bucket : ℤ) : Prop :=
  uncached (bucket - 1) ∧
  ((bucket ≤ fluxBoundaryMs ∧ ∀ t, uncached t → bucket ≤ t → fluxBoundaryMs ≤ t) ∨
    (fluxBoundaryMs < bucket ∧ ∀ t, uncached t → t < bucket))

/-- A range whose timeline has the bucket. -/
def Reaches (step bucket : ℤ) (r : TimeRange) : Prop :=
  r.startMs < bucket + step ∧ bucket ≤ r.endMs

instance (step bucket : ℤ) (r : TimeRange) : Decidable (Reaches step bucket r) :=
  inferInstanceAs (Decidable (_ ∧ _))

/-- The range a bucket's point comes from: the live one before the settled one, and the bucket's
own window if neither has it. -/
def servedRange (step : ℤ) (settled live : Option TimeRange) (bucket : ℤ) : TimeRange :=
  ((live.filter fun r => Reaches step bucket r).or
    (settled.filter fun r => Reaches step bucket r)).getD ⟨bucket, bucket + step⟩

/-- Two ranges hold the same times of a bucket. -/
def AgreeOn (step bucket : ℤ) (r r' : TimeRange) : Prop :=
  ∀ t, bucket ≤ t → t < bucket + step → (Holds r t ↔ Holds r' t)

def FillsClass (uncached : ℤ → Prop) (fluxBoundaryMs : ℤ) (cachable : Bool)
    (span : Option TimeRange) : Prop :=
  (∀ r, span = some r → FillSpan uncached fluxBoundaryMs cachable r) ∧
  (span = none → ∀ t, uncached t → ¬ OnSide fluxBoundaryMs cachable t)

section

variable {uncached : ℤ → Prop} {step startMs endMs fluxBoundaryMs bucket : ℤ}
  {settled live : Option TimeRange}

/-- A range that is fetched for an uncached bucket has the part of it on the range's side. -/
lemma fillSpan_uncached (hwin : Windowed uncached step startMs endMs) {cachable : Bool}
    {r : TimeRange} (h : FillSpan uncached fluxBoundaryMs cachable r) (hdvd : step ∣ bucket)
    (hin : startMs ≤ bucket) (hun : uncached bucket) {t : ℤ} (hfrom : bucket ≤ t)
    (hto : t < bucket + step) : (Holds r t ↔ t < endMs ∧ OnSide fluxBoundaryMs cachable t) := by
  constructor
  · intro ht
    have hlast := (hwin.requested _ h.last.1).2
    have hend : t < endMs := by
      simp only [Holds] at ht
      omega
    refine ⟨hend, ?_⟩
    have hfirst := h.first.2
    have hlastSide := h.last.2
    cases cachable
    · simp only [OnSide, Bool.false_eq_true, if_false, Holds] at *
      omega
    · simp only [OnSide, if_true, Holds] at *
      omega
  · rintro ⟨hend, hside⟩
    exact h.holds t ((hwin.whole bucket t hdvd hin hfrom hto hend).mpr hun) hside

/-- A fetched range that has a cached bucket ends where the bucket begins, or holds it whole. -/
lemma fillSpan_cached (hwin : Windowed uncached step startMs endMs) {cachable : Bool}
    {r : TimeRange} (h : FillSpan uncached fluxBoundaryMs cachable r) (hdvd : step ∣ bucket)
    (hin : startMs ≤ bucket) (hcached : ¬ uncached bucket)
    (hreach : Reaches step bucket r) :
    r.startMs < bucket ∧ (r.endMs = bucket ∨ bucket + step < r.endMs) := by
  obtain ⟨hleft, hright⟩ := hreach
  have hnot : ∀ t, bucket ≤ t → t < bucket + step → ¬ uncached t := by
    intro t hfrom hto hun
    have hend := (hwin.requested t hun).2
    exact hcached ((hwin.whole bucket t hdvd hin hfrom hto hend).mp hun)
  have hfirst : ¬ (bucket ≤ r.startMs ∧ r.startMs < bucket + step) := by
    rintro ⟨hfrom, hto⟩
    exact hnot _ hfrom hto h.first.1
  have hlast : ¬ (bucket ≤ r.endMs - 1 ∧ r.endMs - 1 < bucket + step) := by
    rintro ⟨hfrom, hto⟩
    exact hnot _ hfrom hto h.last.1
  omega

lemma servedRange_live {r : TimeRange} (h : Reaches step bucket r) :
    servedRange step settled (some r) bucket = r := by
  simp [servedRange, Option.filter, h]

lemma servedRange_settled {r : TimeRange} (hlive : ∀ l, live = some l → ¬ Reaches step bucket l)
    (h : Reaches step bucket r) : servedRange step (some r) live bucket = r := by
  cases live with
  | none => simp [servedRange, Option.filter, h]
  | some l => simp [servedRange, Option.filter, h, hlive l rfl]

lemma servedRange_window (hlive : ∀ l, live = some l → ¬ Reaches step bucket l)
    (hsettled : ∀ r, settled = some r → ¬ Reaches step bucket r) :
    servedRange step settled live bucket = ⟨bucket, bucket + step⟩ := by
  have hnone : live.filter (fun r => Reaches step bucket r) = none := by
    cases live with
    | none => rfl
    | some l => simp [Option.filter, hlive l rfl]
  have hnone' : settled.filter (fun r => Reaches step bucket r) = none := by
    cases settled with
    | none => rfl
    | some r => simp [Option.filter, hsettled r rfl]
  simp [servedRange, hnone, hnone']

/-- The timeline of some fetched range has an uncached bucket. -/
lemma exists_reaches (hstep : 0 < step) (hsettled : FillsClass uncached fluxBoundaryMs true settled)
    (hlive : FillsClass uncached fluxBoundaryMs false live) (hun : uncached bucket) :
    ∃ r, (settled = some r ∨ live = some r) ∧ Reaches step bucket r := by
  by_cases hside : bucket < fluxBoundaryMs
  · cases hget : settled with
    | none => exact absurd (by simpa only [OnSide, if_true]) (hsettled.2 hget _ hun)
    | some r =>
      have hhold := (hsettled.1 r hget).holds _ hun (by simpa only [OnSide, if_true])
      refine ⟨r, Or.inl rfl, ?_⟩
      simp only [Reaches, Holds] at hhold ⊢
      omega
  · have hafter : OnSide fluxBoundaryMs false bucket := by
      simpa only [OnSide, Bool.false_eq_true, if_false] using not_lt.mp hside
    cases hget : live with
    | none => exact absurd hafter (hlive.2 hget _ hun)
    | some l =>
      have hhold := (hlive.1 l hget).holds _ hun hafter
      refine ⟨l, Or.inr rfl, ?_⟩
      simp only [Reaches, Holds] at hhold ⊢
      omega

/-- An uncached bucket is served from the range of its last requested part, which has the part of
the bucket on the range's side of the boundary. -/
lemma served_uncached (hstep : 0 < step) (hwin : Windowed uncached step startMs endMs)
    (hsettled : FillsClass uncached fluxBoundaryMs true settled)
    (hlive : FillsClass uncached fluxBoundaryMs false live) (hdvd : step ∣ bucket)
    (hun : uncached bucket) :
    AgreeOn step bucket (servedRange step settled live bucket)
      (if bucket < fluxBoundaryMs ∧ fluxBoundaryMs < min (bucket + step) endMs then
        ⟨fluxBoundaryMs, endMs⟩ else ⟨startMs, endMs⟩) := by
  obtain ⟨hin, hend⟩ := hwin.requested _ hun
  have hpart := hwin.whole bucket (min (bucket + step) endMs - 1) hdvd hin (by omega) (by omega)
    (by omega)
  have hlastUn := hpart.mpr hun
  by_cases hside : fluxBoundaryMs < min (bucket + step) endMs
  · -- The live range has the end of the bucket.
    cases hget : live with
    | none =>
      refine absurd ?_ (hlive.2 hget _ hlastUn)
      simp only [OnSide, Bool.false_eq_true, if_false]
      omega
    | some r =>
      have hspan := hlive.1 r hget
      have hhold := hspan.holds _ hlastUn (by
        simp only [OnSide, Bool.false_eq_true, if_false]
        omega)
      have hreach : Reaches step bucket r := by
        simp only [Reaches, Holds] at hhold ⊢
        omega
      rw [servedRange_live hreach]
      intro t hfrom hto
      rw [fillSpan_uncached hwin hspan hdvd hin hun hfrom hto]
      split_ifs with hcut
      · simp only [OnSide, Bool.false_eq_true, if_false, Holds]
        omega
      · simp only [OnSide, Bool.false_eq_true, if_false, Holds]
        omega
  · -- The bucket lies below the boundary, as far as it is requested.
    rw [if_neg (by omega)]
    have hbelow : ∀ l, live = some l → ¬ Reaches step bucket l := by
      rintro l hl ⟨hleft, -⟩
      have hfirst := (hlive.1 l hl).first
      have hafter := (hwin.requested _ hfirst.1).2
      simp only [OnSide, Bool.false_eq_true, if_false] at hfirst
      omega
    cases hget : settled with
    | none =>
      refine absurd ?_ (hsettled.2 hget _ hun)
      simp only [OnSide, if_true]
      omega
    | some r =>
      have hspan := hsettled.1 r hget
      have hhold := hspan.holds _ hun (by
        simp only [OnSide, if_true]
        omega)
      have hreach : Reaches step bucket r := by
        simp only [Reaches, Holds] at hhold ⊢
        omega
      rw [servedRange_settled hbelow hreach]
      intro t hfrom hto
      rw [fillSpan_uncached hwin hspan hdvd hin hun hfrom hto]
      simp only [OnSide, if_true, Holds]
      omega

/-- A cached bucket is served empty if a fetched range ends where it begins, and whole if not. -/
lemma served_cached (hstep : 0 < step) (hwin : Windowed uncached step startMs endMs)
    (hsettled : FillsClass uncached fluxBoundaryMs true settled)
    (hlive : FillsClass uncached fluxBoundaryMs false live) (hdvd : step ∣ bucket)
    (hin : startMs ≤ bucket) (hcached : ¬ uncached bucket) :
    (FillEndsAt uncached fluxBoundaryMs bucket ∧
      ∀ t, bucket ≤ t → ¬ Holds (servedRange step settled live bucket) t) ∨
    (¬ FillEndsAt uncached fluxBoundaryMs bucket ∧
      AgreeOn step bucket (servedRange step settled live bucket) ⟨bucket, bucket + step⟩) := by
  by_cases hreachLive : ∃ l, live = some l ∧ Reaches step bucket l
  · obtain ⟨l, rfl, hreach⟩ := hreachLive
    have hspan := hlive.1 l rfl
    obtain ⟨hbefore, hends⟩ := fillSpan_cached hwin hspan hdvd hin hcached hreach
    have hfirst := hspan.first.2
    have hlast := hspan.last
    simp only [OnSide, Bool.false_eq_true, if_false] at hfirst hlast
    rw [servedRange_live hreach]
    rcases hends with hend | hwhole
    · left
      refine ⟨⟨hend ▸ hlast.1, Or.inr ⟨by omega, ?_⟩⟩, ?_⟩
      · intro t ht
        by_cases hside : fluxBoundaryMs ≤ t
        · have hhold := hspan.holds t ht (by simpa only [OnSide, Bool.false_eq_true, if_false])
          exact hend ▸ hhold.2
        · omega
      · rintro t ht ⟨-, hto⟩
        omega
    · right
      constructor
      · rintro ⟨-, ⟨hflux, -⟩ | ⟨-, hnone⟩⟩
        · omega
        · have := hnone _ hlast.1
          omega
      · intro t hfrom hto
        simp only [Holds]
        omega
  · have hnotLive : ∀ l, live = some l → ¬ Reaches step bucket l :=
      fun l hl hreach => hreachLive ⟨l, hl, hreach⟩
    by_cases hreachSettled : ∃ r, settled = some r ∧ Reaches step bucket r
    · obtain ⟨r, rfl, hreach⟩ := hreachSettled
      have hspan := hsettled.1 r rfl
      obtain ⟨hbefore, hends⟩ := fillSpan_cached hwin hspan hdvd hin hcached hreach
      have hlast := hspan.last
      simp only [OnSide, if_true] at hlast
      rw [servedRange_settled hnotLive hreach]
      rcases hends with hend | hwhole
      · left
        refine ⟨⟨hend ▸ hlast.1, Or.inl ⟨by omega, ?_⟩⟩, ?_⟩
        · intro t ht hfrom
          by_contra hside
          have hhold := hspan.holds t ht (by simpa only [OnSide, if_true] using not_le.mp hside)
          simp only [Holds] at hhold
          omega
        · rintro t ht ⟨-, hto⟩
          omega
      · right
        constructor
        · rintro ⟨-, ⟨-, hnone⟩ | ⟨-, hnone⟩⟩
          · have := hnone _ hlast.1 (by omega)
            omega
          · have := hnone _ hlast.1
            omega
        · intro t hfrom hto
          simp only [Holds]
          omega
    · have hnotSettled : ∀ r, settled = some r → ¬ Reaches step bucket r :=
        fun r hr hreach => hreachSettled ⟨r, hr, hreach⟩
      right
      refine ⟨?_, ?_⟩
      · rintro ⟨hun, hside⟩
        have hbefore := hwin.requested _ hun
        by_cases hflux : bucket ≤ fluxBoundaryMs
        · cases hget : settled with
          | none =>
            refine hsettled.2 hget _ hun ?_
            simp only [OnSide, if_true]
            omega
          | some r =>
            have hspan := hsettled.1 r hget
            have hhold := hspan.holds _ hun (by
              simp only [OnSide, if_true]
              omega)
            refine hnotSettled r hget ?_
            simp only [Reaches, Holds] at hhold ⊢
            omega
        · cases hget : live with
          | none =>
            refine hlive.2 hget _ hun ?_
            simp only [OnSide, Bool.false_eq_true, if_false]
            omega
          | some l =>
            have hspan := hlive.1 l hget
            have hhold := hspan.holds _ hun (by
              simp only [OnSide, Bool.false_eq_true, if_false]
              omega)
            refine hnotLive l hget ?_
            simp only [Reaches, Holds] at hhold ⊢
            omega
      · rw [servedRange_window hnotLive hnotSettled]
        intro t _ _
        rfl

end

end Maple.BucketCache
