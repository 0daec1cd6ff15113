import Maple.PromHistogram
import Maple.PromParser

/-! From the text of a scrape to an export request: when the conversion comes to an end, and what
becomes of each sample. -/

namespace Maple.Prometheus

/-- Written as a decimal integer. -/
def Decimal (text : String) : Prop := ∃ z : ℤ, text = toString z

def OtlpMetric.numberPoints (metric : OtlpMetric) : List OtlpNumberDataPoint :=
  (metric.gauge.map fun gauge => gauge.dataPoints).getD [] ++
    (metric.sum.map fun sum => sum.dataPoints).getD []

def OtlpMetric.histogramPoints (metric : OtlpMetric) : List OtlpHistogramDataPoint :=
  (metric.histogram.map fun histogram => histogram.dataPoints).getD []

/-- A point whose numbers and time an export can carry. -/
def Exportable (point : OtlpHistogramDataPoint) : Prop :=
  Decimal point.timeUnixNano ∧ point.count.isFinite ∧ ∀ sum ∈ point.sum, sum.isFinite

/-- No sample with a value has a time that is not finite. -/
def TimesFinite (samples : List PromSample) : Prop :=
  ∀ sample ∈ samples, sample.value.isFinite → ∀ time ∈ sample.timestampMs, time.isFinite

def pointOf (ctx : ScrapeOtlpContext) (sample : PromSample) : Option OtlpNumberDataPoint :=
  numberDataPoint ctx sample.labels sample.value sample.timestampMs

def valued (samples : List PromSample) : List PromSample :=
  samples.filter fun sample => sample.value.isFinite

/-- The points of the samples with a value, and the number of the others and of what else was
lost. -/
structure Carries (ctx : ScrapeOtlpContext) (samples : List PromSample) (lost : ℕ)
    (metrics : List OtlpMetric) (dropped : ℕ) : Prop where
  points : ((metrics.flatMap OtlpMetric.numberPoints).map some).Perm
    ((valued samples).map (pointOf ctx))
  histogram : ∀ point ∈ metrics.flatMap OtlpMetric.histogramPoints, Exportable point
  dropped : dropped = (samples.countP fun sample => !sample.value.isFinite) + lost

section Conversion
variable {ctx : ScrapeOtlpContext}

lemma Carries.nil : Carries ctx [] 0 [] 0 := ⟨List.Perm.refl _, by simp, rfl⟩

lemma Carries.append {samples others : List PromSample} {lost lost' dropped dropped' : ℕ}
    {metrics metrics' : List OtlpMetric} (h : Carries ctx samples lost metrics dropped)
    (h' : Carries ctx others lost' metrics' dropped') :
    Carries ctx (samples ++ others) (lost + lost') (metrics ++ metrics') (dropped + dropped') := by
  refine ⟨?_, ?_, ?_⟩
  · rw [List.flatMap_append, List.map_append, valued, List.filter_append, List.map_append]
    exact h.points.append h'.points
  · intro point hpoint
    rw [List.flatMap_append, List.mem_append] at hpoint
    rcases hpoint with hpoint | hpoint
    · exact h.histogram point hpoint
    · exact h'.histogram point hpoint
  · rw [List.countP_append, h.dropped, h'.dropped]
    omega

lemma Carries.perm {samples others : List PromSample} {lost dropped : ℕ}
    {metrics : List OtlpMetric} (h : Carries ctx samples lost metrics dropped)
    (hperm : samples.Perm others) : Carries ctx others lost metrics dropped := by
  refine ⟨h.points.trans ((hperm.filter _).map _), h.histogram, ?_⟩
  rw [h.dropped, hperm.countP_eq]

/-- One part of a conversion: it comes to an end when it should, and adds what its samples
come to. -/
def Extends (ctx : ScrapeOtlpContext) (state : ConversionState) (finite : Prop)
    (samples : List PromSample) (lost : ℕ) : Option ConversionState → Prop
  | none => ¬finite
  | some after => finite ∧ ∃ metrics dropped, after.metrics = state.metrics ++ metrics ∧
      after.dropped = state.dropped + dropped ∧ Carries ctx samples lost metrics dropped

/-- Parts one after the other. -/
lemma foldlM_extends {α : Type} {convert : ConversionState → α → Option ConversionState}
    {finite : α → Prop} {samples : α → List PromSample} {lost : α → ℕ}
    (hconvert : ∀ state item,
      Extends ctx state (finite item) (samples item) (lost item) (convert state item))
    (items : List α) (state : ConversionState) :
    Extends ctx state (∀ item ∈ items, finite item) (items.flatMap samples)
      (items.map lost).sum (items.foldlM convert state) := by
  induction items generalizing state with
  | nil =>
    refine ⟨by simp, [], 0, ?_, rfl, Carries.nil⟩
    rw [List.append_nil]
  | cons item items ih =>
    have hitem := hconvert state item
    rw [List.foldlM_cons]
    cases hnext : convert state item with
    | none =>
      rw [hnext] at hitem
      intro hall
      exact hitem (hall item List.mem_cons_self)
    | some next =>
      rw [hnext] at hitem
      obtain ⟨hfinite, metrics, dropped, hmetrics, hdropped, hcarries⟩ := hitem
      have hrest := ih next
      rw [Option.bind_eq_bind, Option.bind_some]
      cases hlast : items.foldlM convert next with
      | none =>
        rw [hlast] at hrest
        intro hall
        exact hrest fun other hother => hall other (List.mem_cons_of_mem _ hother)
      | some last =>
        rw [hlast] at hrest
        obtain ⟨hfinites, metrics', dropped', hmetrics', hdropped', hcarries'⟩ := hrest
        refine ⟨?_, metrics ++ metrics', dropped + dropped', ?_, ?_, ?_⟩
        · intro other hother
          rcases List.mem_cons.mp hother with rfl | hother
          · exact hfinite
          · exact hfinites other hother
        · rw [hmetrics', hmetrics, List.append_assoc]
        · rw [hdropped', hdropped]
          omega
        · rw [List.flatMap_cons, List.map_cons, List.sum_cons]
          exact hcarries.append hcarries'

/-! ### Counters, gauges and untyped families -/

lemma isFinite_time (hscrape : ctx.scrapeTimeMs.isFinite) (timestampMs : Option Number) :
    (timestampMs.getD ctx.scrapeTimeMs).isFinite ↔ ∀ time ∈ timestampMs, time.isFinite := by
  cases timestampMs with
  | none => simp [hscrape]
  | some time => simp

/-- A sample with a value has a point unless its time is not finite. -/
lemma pointOf_cases (hscrape : ctx.scrapeTimeMs.isFinite) (sample : PromSample) :
    ((¬∀ time ∈ sample.timestampMs, time.isFinite) ∧ pointOf ctx sample = none) ∨
      (∀ time ∈ sample.timestampMs, time.isFinite) ∧
        ∃ point, pointOf ctx sample = some point := by
  have htime := isSome_toUnixNano (sample.timestampMs.getD ctx.scrapeTimeMs)
  rw [← isFinite_time hscrape]
  unfold pointOf numberDataPoint
  cases hnano : toUnixNano (sample.timestampMs.getD ctx.scrapeTimeMs) with
  | none =>
    rw [hnano, Option.isSome_none] at htime
    simp [← htime]
  | some nano =>
    rw [hnano, Option.isSome_some] at htime
    simp [← htime]

lemma timesFinite_cons {sample : PromSample} {samples : List PromSample} :
    TimesFinite (sample :: samples) ↔
      (sample.value.isFinite → ∀ time ∈ sample.timestampMs, time.isFinite) ∧
        TimesFinite samples := by
  simp [TimesFinite]

lemma numberPoints_spec (hscrape : ctx.scrapeTimeMs.isFinite) (samples : List PromSample) :
    match numberPoints ctx samples with
    | none => ¬TimesFinite samples
    | some (points, dropped) => TimesFinite samples ∧
        points.map some = (valued samples).map (pointOf ctx) ∧
        dropped = samples.countP fun sample => !sample.value.isFinite := by
  induction samples with
  | nil => simp [numberPoints, TimesFinite, valued]
  | cons sample samples ih =>
    rw [numberPoints]
    cases hvalue : sample.value.isFinite with
    | false =>
      cases hrest : numberPoints ctx samples with
      | none =>
        rw [hrest] at ih
        simpa [timesFinite_cons, hvalue] using ih
      | some rest =>
        rw [hrest] at ih
        simpa [timesFinite_cons, hvalue, valued] using ih
    | true =>
      rcases pointOf_cases hscrape sample with ⟨htime, hpoint⟩ | ⟨htime, point, hpoint⟩
      · have hnone := hpoint
        unfold pointOf at hnone
        simp only [hnone, timesFinite_cons, hvalue]
        intro h
        exact htime (h.1 trivial)
      · have hsome := hpoint
        unfold pointOf at hsome
        cases hrest : numberPoints ctx samples with
        | none =>
          rw [hrest] at ih
          simp only [hsome, timesFinite_cons, hvalue]
          intro h
          exact ih h.2
        | some rest =>
          rw [hrest] at ih
          obtain ⟨hfinite, hpoints, hdropped⟩ := ih
          simp only [valued] at hpoints
          simp [hsome, timesFinite_cons, hvalue, valued, hpoint, hfinite, hpoints, hdropped]
          exact fun time htime' => htime time htime'

lemma convertNumberGroup_extends (hscrape : ctx.scrapeTimeMs.isFinite) (family : PromMetricFamily)
    (kind : NumberKind) (state : ConversionState) (group : String × List PromSample) :
    Extends ctx state (TimesFinite group.2) group.2 0
      (convertNumberGroup family ctx kind state group) := by
  have hspec := numberPoints_spec hscrape group.2
  cases hpoints : numberPoints ctx group.2 with
  | none =>
    rw [hpoints] at hspec
    simp only [convertNumberGroup, hpoints, Option.bind_eq_bind, Option.bind_none]
    exact hspec
  | some result =>
    obtain ⟨points, dropped⟩ := result
    rw [hpoints] at hspec
    obtain ⟨hfinite, hmap, hdropped⟩ := hspec
    cases points with
    | nil =>
      have hmetrics : state.metrics = state.metrics ++ [] := (List.append_nil _).symm
      simp only [convertNumberGroup, hpoints, Option.bind_eq_bind, Option.bind_some,
        List.isEmpty_nil, if_true]
      refine ⟨hfinite, [], dropped, hmetrics, rfl, ?_, by simp, hdropped⟩
      rw [← hmap]
      exact List.Perm.refl _
    | cons point points =>
      cases kind with
      | counter =>
        simp only [convertNumberGroup, hpoints, Option.bind_eq_bind, Option.bind_some,
          List.isEmpty_cons, Bool.false_eq_true, if_false]
        refine ⟨hfinite, [_], dropped, rfl, rfl, ?_, by simp [OtlpMetric.histogramPoints], hdropped⟩
        rw [← hmap]
        simp [OtlpMetric.numberPoints]
      | gauge =>
        simp only [convertNumberGroup, hpoints, Option.bind_eq_bind, Option.bind_some,
          List.isEmpty_cons, Bool.false_eq_true, if_false]
        refine ⟨hfinite, [_], dropped, rfl, rfl, ?_, by simp [OtlpMetric.histogramPoints], hdropped⟩
        rw [← hmap]
        simp [OtlpMetric.numberPoints]

/-- The samples of the groups are those of the family. -/
lemma groupByName_perm (samples : List PromSample) :
    ((groupByName samples).entries.flatMap fun group => group.2).Perm samples := by
  have hflatten := InsertMap.groupAll_flatten (fun sample : PromSample => sample.name) samples
  rwa [InsertMap.values, ← List.flatMap_def] at hflatten

lemma Extends.of_perm {state : ConversionState} {finite finite' : Prop}
    {samples others : List PromSample} {lost : ℕ} {result : Option ConversionState}
    (h : Extends ctx state finite samples lost result) (hfinite : finite ↔ finite')
    (hperm : samples.Perm others) : Extends ctx state finite' others lost result := by
  cases result with
  | none =>
    intro hfinite'
    exact h (hfinite.mpr hfinite')
  | some after =>
    obtain ⟨hholds, metrics, dropped, hmetrics, hdropped, hcarries⟩ := h
    exact ⟨hfinite.mp hholds, metrics, dropped, hmetrics, hdropped, hcarries.perm hperm⟩

lemma convertNumberFamily_extends (hscrape : ctx.scrapeTimeMs.isFinite) (family : PromMetricFamily)
    (kind : NumberKind) (state : ConversionState) :
    Extends ctx state (TimesFinite family.samples) family.samples 0
      (convertNumberFamily family ctx state kind) := by
  have hgroups := foldlM_extends (convertNumberGroup_extends hscrape family kind)
    (groupByName family.samples).entries state
  have hperm := groupByName_perm family.samples
  have hnone : ((groupByName family.samples).entries.map
      fun _ : String × List PromSample => 0).sum = 0 := by simp
  rw [hnone] at hgroups
  refine hgroups.of_perm ?_ hperm
  constructor
  · intro h sample hsample
    obtain ⟨group, hgroup, hmem⟩ := List.mem_flatMap.mp (hperm.mem_iff.mpr hsample)
    exact h group hgroup sample hmem
  · intro h group hgroup sample hmem
    exact h sample (hperm.mem_iff.mp (List.mem_flatMap.mpr ⟨group, hgroup, hmem⟩))

/-! ### Summaries -/

/-- All points of a summary. -/
def SummaryPoints.all (points : SummaryPoints) : List OtlpNumberDataPoint :=
  points.sum ++ points.count ++ points.quantile

lemma addSummarySample_cases (ctx : ScrapeOtlpContext) (family : PromMetricFamily)
    (points : SummaryPoints) (sample : PromSample) :
    match addSummarySample family ctx points sample with
    | none => sample.value.isFinite ∧ pointOf ctx sample = none
    | some after =>
      (sample.value.isFinite = false ∧ after.all = points.all ∧
        after.dropped = points.dropped + 1) ∨
      sample.value.isFinite ∧ ∃ point, pointOf ctx sample = some point ∧
        after.all.Perm (points.all ++ [point]) ∧ after.dropped = points.dropped := by
  unfold addSummarySample pointOf
  cases hvalue : sample.value.isFinite with
  | false => simp [SummaryPoints.all]
  | true =>
    cases hpoint : numberDataPoint ctx sample.labels sample.value sample.timestampMs with
    | none => simp
    | some point =>
      have hmiddle : ∀ a b c : List OtlpNumberDataPoint,
          (a ++ [point] ++ b ++ c).Perm (a ++ b ++ c ++ [point]) := by
        intro a b c
        rw [List.append_assoc, List.append_assoc, List.append_assoc, List.append_assoc]
        refine List.Perm.append_left a ?_
        rw [← List.append_assoc b]
        exact List.perm_append_comm
      by_cases hsum : sample.name = family.name ++ "_sum"
      · simpa [hsum, SummaryPoints.all] using hmiddle points.sum points.count points.quantile
      · by_cases hcount : sample.name = family.name ++ "_count"
        · have hperm := (hmiddle points.count points.quantile []).append_left points.sum
          simpa [hsum, hcount, SummaryPoints.all] using hperm
        · simp [hsum, hcount, SummaryPoints.all]

lemma addSummarySamples_spec (hscrape : ctx.scrapeTimeMs.isFinite) (family : PromMetricFamily)
    (samples : List PromSample) (points : SummaryPoints) :
    match samples.foldlM (addSummarySample family ctx) points with
    | none => ¬TimesFinite samples
    | some after => TimesFinite samples ∧
        (after.all.map some).Perm (points.all.map some ++ (valued samples).map (pointOf ctx)) ∧
        after.dropped =
          points.dropped + samples.countP fun sample => !sample.value.isFinite := by
  induction samples generalizing points with
  | nil => simp [TimesFinite, valued]
  | cons sample samples ih =>
    have hcases := addSummarySample_cases ctx family points sample
    rw [List.foldlM_cons]
    cases hnext : addSummarySample family ctx points sample with
    | none =>
      rw [hnext] at hcases
      obtain ⟨hvalue, hpoint⟩ := hcases
      intro h
      rcases pointOf_cases hscrape sample with ⟨htime, -⟩ | ⟨-, point, hsome⟩
      · exact htime ((timesFinite_cons.mp h).1 hvalue)
      · rw [hpoint] at hsome
        simp at hsome
    | some next =>
      rw [hnext] at hcases
      have hrest := ih next
      rw [Option.bind_eq_bind, Option.bind_some]
      cases hlast : samples.foldlM (addSummarySample family ctx) next with
      | none =>
        rw [hlast] at hrest
        intro h
        exact hrest (timesFinite_cons.mp h).2
      | some last =>
        rw [hlast] at hrest
        obtain ⟨hfinite, hperm, hdropped⟩ := hrest
        rcases hcases with ⟨hvalue, hall, hlost⟩ | ⟨hvalue, point, hpoint, hall, hlost⟩
        · refine ⟨timesFinite_cons.mpr ⟨by simp [hvalue], hfinite⟩, ?_, ?_⟩
          · simpa [valued, hvalue, hall] using hperm
          · rw [hdropped, hlost, List.countP_cons, hvalue]
            simp
            omega
        · have htime : ∀ time ∈ sample.timestampMs, time.isFinite := by
            rcases pointOf_cases hscrape sample with ⟨-, hnone⟩ | ⟨htime, -⟩
            · rw [hnone] at hpoint
              simp at hpoint
            · exact htime
          refine ⟨timesFinite_cons.mpr ⟨fun _ => htime, hfinite⟩, ?_, ?_⟩
          · refine hperm.trans ?_
            have hstep := (hall.map some).append_right ((valued samples).map (pointOf ctx))
            simpa [valued, hvalue, hpoint] using hstep
          · rw [hdropped, hlost, List.countP_cons, hvalue]
            simp

lemma summaryMetrics_points (family : PromMetricFamily) (points : SummaryPoints) :
    (summaryMetrics family points).flatMap OtlpMetric.numberPoints = points.all ∧
      (summaryMetrics family points).flatMap OtlpMetric.histogramPoints = [] := by
  obtain ⟨sum, count, quantile, dropped⟩ := points
  cases sum with
  | nil =>
    cases count with
    | nil => cases quantile <;>
        simp [summaryMetrics, SummaryPoints.all, OtlpMetric.numberPoints, OtlpMetric.histogramPoints]
    | cons c count => cases quantile <;>
        simp [summaryMetrics, SummaryPoints.all, OtlpMetric.numberPoints, OtlpMetric.histogramPoints]
  | cons s sum =>
    cases count with
    | nil => cases quantile <;>
        simp [summaryMetrics, SummaryPoints.all, OtlpMetric.numberPoints, OtlpMetric.histogramPoints]
    | cons c count => cases quantile <;>
        simp [summaryMetrics, SummaryPoints.all, OtlpMetric.numberPoints, OtlpMetric.histogramPoints]

lemma convertSummaryFamily_extends (hscrape : ctx.scrapeTimeMs.isFinite)
    (family : PromMetricFamily) (state : ConversionState) :
    Extends ctx state (TimesFinite family.samples) family.samples 0
      (convertSummaryFamily family ctx state) := by
  have hspec := addSummarySamples_spec hscrape family family.samples {}
  unfold convertSummaryFamily
  cases hpoints : family.samples.foldlM (addSummarySample family ctx) {} with
  | none =>
    rw [hpoints] at hspec
    exact hspec
  | some points =>
    rw [hpoints] at hspec
    obtain ⟨hfinite, hperm, hdropped⟩ := hspec
    obtain ⟨hnumber, hhistogram⟩ := summaryMetrics_points family points
    refine ⟨hfinite, summaryMetrics family points, points.dropped, rfl, rfl, ?_, ?_, ?_⟩
    · rw [hnumber]
      exact hperm
    · rw [hhistogram]
      simp
    · rw [hdropped, zero_add, add_zero]

/-! ### Histograms -/

/-- The first sample of each series with a total has no time that is not finite. -/
def SeriesTimesFinite (number : String → Number) (family : PromMetricFamily) : Prop :=
  ∀ sample ∈ family.samples, accepted number family sample →
    (seriesTotal number family sample.labels).any Number.isFinite →
    ∀ first ∈ (seriesSamples number family sample.labels).head?,
      ∀ time ∈ first.timestampMs, time.isFinite

/-- The malformed buckets, and the series without a total. -/
def lostInHistogram (number : String → Number) (family : PromMetricFamily) : ℕ :=
  (histogramSeries number family).2 +
    ((histogramSeries number family).1.values.filter fun entry => !hasTotal entry).length

lemma entriesFinite_iff (hscrape : ctx.scrapeTimeMs.isFinite) (number : String → Number)
    (family : PromMetricFamily) :
    (∀ entry ∈ (histogramSeries number family).1.values, hasTotal entry →
      (entry.timestampMs.getD ctx.scrapeTimeMs).isFinite) ↔ SeriesTimesFinite number family := by
  constructor
  · intro h sample hsample haccepted htotal first hfirst
    obtain ⟨entry, hentry, hstored, hsame⟩ := exists_entry number family hsample haccepted
    obtain ⟨own, hown, htime⟩ := hstored.first
    rw [seriesSamples_congr hsame] at hown
    have hfinite := h entry hentry (by rwa [hasTotal, hstored.total, seriesTotal_congr hsame])
    rw [Option.mem_def, hown, Option.some.injEq] at hfirst
    rwa [isFinite_time hscrape, htime, hfirst] at hfinite
  · intro h entry hentry htotal
    obtain ⟨key, hkey⟩ := stored_value number family hentry
    have hstored := stored_entry hkey
    obtain ⟨own, hown, htime⟩ := hstored.first
    obtain ⟨hsample, haccepted, hsame⟩ := mem_seriesSamples.mp (List.mem_of_mem_head? hown)
    rw [isFinite_time hscrape, htime]
    refine h own hsample haccepted ?_ own ?_
    · rwa [seriesTotal_congr hsame, ← hstored.total]
    · rw [seriesSamples_congr hsame]
      exact hown

lemma decimal_toUnixNano {epochMs : Number} {nano : String} (h : toUnixNano epochMs = some nano) :
    Decimal nano := by
  obtain ⟨ms, -, hms⟩ := Option.map_eq_some_iff.mp h
  exact ⟨ms * 1000000, hms.symm⟩

lemma exportable_point {entry : HistogramSeries} {point : OtlpHistogramDataPoint}
    (h : histogramPoint ctx entry = some (some point)) : Exportable point := by
  obtain ⟨-, -, hcount, -, -, hnano, hsum⟩ := histogramPoint_eq_some h
  refine ⟨decimal_toUnixNano hnano, hcount, ?_⟩
  intro sum hmem
  rw [hsum] at hmem
  exact (Option.filter_eq_some_iff.mp hmem).2

lemma convertHistogramFamily_extends (hscrape : ctx.scrapeTimeMs.isFinite)
    (number : String → Number) (family : PromMetricFamily) (state : ConversionState) :
    Extends ctx state (SeriesTimesFinite number family) [] (lostInHistogram number family)
      (convertHistogramFamily number family ctx state) := by
  have hspec := histogramPoints_spec ctx (histogramSeries number family).1.values
  rw [convertHistogramFamily_eq]
  cases hpoints : histogramPoints ctx (histogramSeries number family).1.values with
  | none =>
    rw [hpoints] at hspec
    obtain ⟨entry, hentry, htotal, htime⟩ := hspec
    intro hfinite
    have hentries := (entriesFinite_iff hscrape number family).mpr hfinite entry hentry htotal
    rw [htime] at hentries
    simp at hentries
  | some result =>
    obtain ⟨points, dropped⟩ := result
    rw [hpoints] at hspec
    obtain ⟨hall, hdropped, hfinite⟩ := hspec
    refine ⟨(entriesFinite_iff hscrape number family).mp hfinite, histogramMetrics family points,
      lostInHistogram number family, rfl, ?_, ?_, ?_, ?_⟩
    · rw [lostInHistogram, hdropped]
      exact Nat.add_assoc _ _ _
    · cases points with
      | nil => simp [histogramMetrics, valued]
      | cons point points => simp [histogramMetrics, valued, OtlpMetric.numberPoints]
    · have hmem : ∀ point ∈ (histogramMetrics family points).flatMap OtlpMetric.histogramPoints,
          point ∈ points := by
        cases points with
        | nil => simp [histogramMetrics]
        | cons point points => simp [histogramMetrics, OtlpMetric.histogramPoints]
      intro point hpoint
      obtain ⟨i, hi, rfl⟩ := List.getElem_of_mem (hmem point hpoint)
      have hentry := (List.forall₂_iff_get.mp hall).2 i (by rw [hall.length_eq]; exact hi) hi
      exact exportable_point hentry
    · simp

/-! ### All families -/

/-- The families whose samples become points one by one. -/
def numberSamples (family : PromMetricFamily) : List PromSample :=
  if family.type = .histogram then [] else family.samples

def lostIn (number : String → Number) (family : PromMetricFamily) : ℕ :=
  if family.type = .histogram then lostInHistogram number family else 0

/-- Nothing that becomes a point has a time that is not finite. -/
def FamilyTimesFinite (number : String → Number) (family : PromMetricFamily) : Prop :=
  if family.type = .histogram then SeriesTimesFinite number family
  else TimesFinite family.samples

lemma convertFamily_extends (hscrape : ctx.scrapeTimeMs.isFinite) (number : String → Number)
    (state : ConversionState) (family : PromMetricFamily) :
    Extends ctx state (FamilyTimesFinite number family) (numberSamples family)
      (lostIn number family) (convertFamily number ctx state family) := by
  unfold FamilyTimesFinite numberSamples lostIn convertFamily
  cases htype : family.type with
  | counter => exact convertNumberFamily_extends hscrape family .counter state
  | gauge => exact convertNumberFamily_extends hscrape family .gauge state
  | untyped => exact convertNumberFamily_extends hscrape family .gauge state
  | histogram => exact convertHistogramFamily_extends hscrape number family state
  | summary => exact convertSummaryFamily_extends hscrape family state

def ConvertedOtlp.metrics (converted : ConvertedOtlp) : List OtlpMetric :=
  converted.request.toList.flatMap fun request =>
    request.resourceMetrics.flatMap fun resource =>
      resource.scopeMetrics.flatMap fun scope => scope.metrics

/-- Every sample of a number or summary family is a point with its labels, value and time or is
counted as dropped, and whatever is exported has finite numbers and decimal times. -/
structure Accounts (number : String → Number) (ctx : ScrapeOtlpContext)
    (families : List PromMetricFamily) (converted : ConvertedOtlp) : Prop where
  points : ((converted.metrics.flatMap OtlpMetric.numberPoints).map some).Perm
    ((valued (families.flatMap numberSamples)).map (pointOf ctx))
  dropped : converted.droppedSeriesCount =
    ((families.flatMap numberSamples).countP fun sample => !sample.value.isFinite) +
      (families.map (lostIn number)).sum
  numbers : ∀ point ∈ converted.metrics.flatMap OtlpMetric.numberPoints,
    Decimal point.timeUnixNano ∧ point.asDouble.isFinite
  histogram : ∀ point ∈ converted.metrics.flatMap OtlpMetric.histogramPoints, Exportable point

lemma decimal_point {sample : PromSample} {point : OtlpNumberDataPoint}
    (h : pointOf ctx sample = some point) :
    Decimal point.timeUnixNano ∧ point.asDouble = sample.value := by
  obtain ⟨nano, hnano, hpoint⟩ := Option.map_eq_some_iff.mp h
  rw [← hpoint]
  exact ⟨decimal_toUnixNano hnano, rfl⟩

lemma Carries.numbers {samples : List PromSample} {lost dropped : ℕ} {metrics : List OtlpMetric}
    (h : Carries ctx samples lost metrics dropped) :
    ∀ point ∈ metrics.flatMap OtlpMetric.numberPoints,
      Decimal point.timeUnixNano ∧ point.asDouble.isFinite := by
  intro point hpoint
  have hmem := h.points.mem_iff.mp (List.mem_map_of_mem hpoint)
  obtain ⟨sample, hsample, heq⟩ := List.mem_map.mp hmem
  obtain ⟨hdecimal, hvalue⟩ := decimal_point heq
  rw [hvalue]
  exact ⟨hdecimal, (List.mem_filter.mp hsample).2⟩

/-- A scrape is converted, with all its samples accounted for, exactly when no sample that becomes
a point has an infinite timestamp. -/
theorem scrape_total_iff (number : String → Number) (ctx : ScrapeOtlpContext) (body : String)
    (hscrape : ctx.scrapeTimeMs.isFinite) :
    (∃ converted,
      convertFamiliesToOtlp number (parsePrometheusText number body).families ctx =
        some converted ∧
      Accounts number ctx (parsePrometheusText number body).families converted) ↔
    ∀ family ∈ (parsePrometheusText number body).families, FamilyTimesFinite number family := by
  have hall := foldlM_extends (convertFamily_extends hscrape number)
    (parsePrometheusText number body).families {}
  unfold convertFamiliesToOtlp
  cases hstate : (parsePrometheusText number body).families.foldlM (convertFamily number ctx) {} with
  | none =>
    rw [hstate] at hall
    constructor
    · rintro ⟨converted, hconverted, -⟩
      simp at hconverted
    · intro h
      exact absurd h hall
  | some state =>
    rw [hstate] at hall
    obtain ⟨hfinite, metrics, dropped, hmetrics, hdropped, hcarries⟩ := hall
    constructor
    · intro _
      exact hfinite
    · intro _
      refine ⟨_, rfl, ?_⟩
      have hown : state.metrics = metrics := by rw [hmetrics, List.nil_append]
      have hlost : state.dropped = dropped := by rw [hdropped, Nat.zero_add]
      have hrequest : (ConvertedOtlp.metrics
          { request := if state.metrics.isEmpty then none else some
              { resourceMetrics := [
                { attributes := resourceAttributes ctx
                  scopeMetrics := [{ scopeName := ctx.scopeName, metrics := state.metrics }] }] }
            dataPointCounts := state.counts
            droppedSeriesCount := state.dropped }) = metrics := by
        rw [← hown]
        cases hempty : state.metrics.isEmpty with
        | true => simp [ConvertedOtlp.metrics, List.isEmpty_iff.mp hempty]
        | false => simp [ConvertedOtlp.metrics]
      refine ⟨?_, hlost.trans hcarries.dropped, ?_, ?_⟩
      · rw [hrequest]
        exact hcarries.points
      · rw [hrequest]
        exact hcarries.numbers
      · rw [hrequest]
        exact hcarries.histogram

end Conversion

/-! ### Two scrapes -/

/-- `Number` of the tokens below. -/
def sampleNumber (text : String) : Number :=
  if text = "1" then .finite 1
  else if text = "Infinity" then .infinity false
  else .nan

def sampleContext : ScrapeOtlpContext :=
  { resource := InsertMap.empty
    scopeName := "scraper"
    job := "job"
    instance_ := "instance"
    targetLabels := InsertMap.empty
    scrapeTimeMs := .finite 0 }

lemma sample_families : ((parsePrometheusText sampleNumber "foo 1 1").families.all fun family =>
    family.type ≠ .histogram && family.samples.all fun sample =>
      sample.timestampMs.all Number.isFinite) = true := by
  decide +kernel

theorem scrape_total_iff_one_sample : sampleContext.scrapeTimeMs.isFinite ∧
    ∃ converted,
      convertFamiliesToOtlp sampleNumber (parsePrometheusText sampleNumber "foo 1 1").families
        sampleContext = some converted ∧
      Accounts sampleNumber sampleContext (parsePrometheusText sampleNumber "foo 1 1").families
        converted := by
  refine ⟨rfl, (scrape_total_iff sampleNumber sampleContext "foo 1 1" rfl).mpr ?_⟩
  intro family hfamily
  have hown := List.all_eq_true.mp sample_families family hfamily
  simp only [Bool.and_eq_true, decide_eq_true_eq, List.all_eq_true] at hown
  rw [FamilyTimesFinite, if_neg hown.1]
  intro sample hsample _ time htime
  have hall := hown.2 sample hsample
  rw [Option.mem_def.mp htime] at hall
  exact hall

/-- One line with an infinite timestamp stops the whole scrape. -/
theorem scrape_throws_on_infinite_timestamp : ¬∀ (ctx : ScrapeOtlpContext) (body : String),
    ctx.scrapeTimeMs.isFinite →
    ∃ converted,
      convertFamiliesToOtlp sampleNumber (parsePrometheusText sampleNumber body).families ctx =
        some converted ∧
      Accounts sampleNumber ctx (parsePrometheusText sampleNumber body).families converted := by
  intro h
  have hnone : (convertFamiliesToOtlp sampleNumber
      (parsePrometheusText sampleNumber "foo 1 Infinity").families sampleContext).isNone := by
    decide
  obtain ⟨converted, hconverted, -⟩ := h sampleContext "foo 1 Infinity" rfl
  rw [hconverted] at hnone
  simp at hnone

end Maple.Prometheus
