import Maple.JsonText
import Maple.PromOtlp

/-! The series of a histogram family: what the samples with one set of labels make of it. -/

namespace Maple.Prometheus

/-! ### The key of a series -/

lemma unitsLe_total (a b : String) : unitsLe a b ∨ unitsLe b a := by
  simp only [unitsLe, decide_eq_true_eq]
  exact le_total _ _

lemma unitsLe_trans {a b c : String} (hab : unitsLe a b) (hbc : unitsLe b c) : unitsLe a c := by
  simp only [unitsLe, decide_eq_true_eq] at *
  exact hab.trans hbc

lemma unitsLe_antisymm {a b : String} (hab : unitsLe a b) (hba : unitsLe b a) : a = b := by
  simp only [unitsLe, decide_eq_true_eq] at *
  have hunits : IngestRules.codeUnits a = IngestRules.codeUnits b := le_antisymm hab hba
  exact String.ext (IngestRules.selfSync_utf16.injective hunits)

instance : Std.Total fun a b : String => unitsLe a b := ⟨unitsLe_total⟩

instance : IsTrans String fun a b => unitsLe a b := ⟨fun _ _ _ => unitsLe_trans⟩

instance : Std.Antisymm fun a b : String => unitsLe a b := ⟨fun _ _ => unitsLe_antisymm⟩

/-- The same labels, `le` apart. -/
def sameLabels (a b : Labels) : Bool :=
  ((a.entries ++ b.entries).map Prod.fst).all fun name =>
    name = "le" || a.get name = b.get name

lemma sameLabels_iff {a b : Labels} :
    sameLabels a b ↔ ∀ name, name ≠ "le" → a.get name = b.get name := by
  simp only [sameLabels, List.all_eq_true, Bool.or_eq_true, decide_eq_true_eq, List.map_append,
    List.mem_append]
  constructor
  · intro h name hname
    by_cases hmem : name ∈ a.entries.map Prod.fst ∨ name ∈ b.entries.map Prod.fst
    · exact (h name hmem).resolve_left hname
    · push Not at hmem
      rw [InsertMap.not_mem_keys.mp hmem.1, InsertMap.not_mem_keys.mp hmem.2]
  · intro h name _
    by_cases hname : name = "le"
    · exact Or.inl hname
    · exact Or.inr (h name hname)

/-- The names that make a series' key. -/
def keyNames (labels : Labels) (exclude : String) : List String :=
  ((labels.entries.map Prod.fst).filter fun key => key ≠ exclude).insertionSort
    fun a b => unitsLe a b

lemma mem_keyNames {labels : Labels} {exclude name : String} :
    name ∈ keyNames labels exclude ↔ name ≠ exclude ∧ ∃ value, labels.get name = some value := by
  rw [keyNames, (List.perm_insertionSort _ _).mem_iff, List.mem_filter, InsertMap.mem_keys,
    decide_eq_true_eq, and_comm]

lemma nodup_keyNames (labels : Labels) (exclude : String) : (keyNames labels exclude).Nodup :=
  (List.perm_insertionSort _ _).nodup_iff.mpr (labels.nodup.filter _)

lemma keyNames_congr {a b : Labels} (h : ∀ name, name ≠ "le" → a.get name = b.get name) :
    keyNames a "le" = keyNames b "le" := by
  have hmem : ∀ name, name ∈ keyNames a "le" ↔ name ∈ keyNames b "le" := by
    intro name
    rw [mem_keyNames, mem_keyNames]
    constructor
    · rintro ⟨hname, hvalue⟩
      exact ⟨hname, h name hname ▸ hvalue⟩
    · rintro ⟨hname, hvalue⟩
      exact ⟨hname, (h name hname).symm ▸ hvalue⟩
  have hperm : (keyNames a "le").Perm (keyNames b "le") :=
    (List.perm_ext_iff_of_nodup (nodup_keyNames a "le") (nodup_keyNames b "le")).mpr hmem
  exact hperm.eq_of_pairwise' (r := fun a b => unitsLe a b) (List.pairwise_insertionSort _ _)
    (List.pairwise_insertionSort _ _)

def keyPair (labels : Labels) (key : String) : Json :=
  .array [.string key, .string ((labels.get key).getD "")]

/-- The name a pair is about. -/
def pairName : Json → String
  | .array (.string key :: _) => key
  | _ => ""

lemma map_pairName (labels : Labels) (names : List String) :
    (names.map (keyPair labels)).map pairName = names := by
  induction names with
  | nil => rfl
  | cons name names ih =>
    rw [List.map_cons, List.map_cons, ih]
    rfl

lemma seriesKey_eq_names (labels : Labels) (exclude : String) :
    seriesKey labels exclude =
      Json.stringify (.array ((keyNames labels exclude).map (keyPair labels))) := rfl

lemma numeric_keyPairs (labels : Labels) (names : List String) :
    Json.Numeric (.array (names.map (keyPair labels))) := by
  simp only [Json.Numeric, Json.numericItems_iff, List.mem_map]
  rintro item ⟨name, -, rfl⟩
  simp [keyPair, Json.Numeric, Json.NumericItems]

/-- Series have one key exactly when they have the same labels. -/
lemma seriesKey_eq_iff {a b : Labels} : seriesKey a "le" = seriesKey b "le" ↔ sameLabels a b := by
  rw [sameLabels_iff, seriesKey_eq_names, seriesKey_eq_names,
    Json.stringify_inj (numeric_keyPairs _ _) (numeric_keyPairs _ _), Json.array.injEq]
  constructor
  · intro h name hname
    have hnames : keyNames a "le" = keyNames b "le" := by
      have hfirst := congrArg (List.map pairName) h
      rwa [map_pairName, map_pairName] at hfirst
    rw [← hnames] at h
    by_cases hmem : name ∈ keyNames a "le"
    · have hpair := List.map_inj_left.mp h name hmem
      obtain ⟨-, value, hvalue⟩ := mem_keyNames.mp hmem
      obtain ⟨-, value', hvalue'⟩ := mem_keyNames.mp (hnames ▸ hmem)
      simp only [keyPair, hvalue, hvalue', Option.getD_some, Json.array.injEq, List.cons.injEq,
        Json.string.injEq, true_and, and_true] at hpair
      rw [hvalue, hvalue', hpair]
    · have hmem' : name ∉ keyNames b "le" := hnames ▸ hmem
      simp only [mem_keyNames, not_and, not_exists] at hmem hmem'
      rw [Option.eq_none_iff_forall_ne_some.mpr (hmem hname),
        Option.eq_none_iff_forall_ne_some.mpr (hmem' hname)]
  · intro h
    rw [keyNames_congr h]
    refine List.map_congr_left fun name hname => ?_
    rw [keyPair, keyPair, h name (mem_keyNames.mp hname).1]

lemma sameLabels_withoutLabel (labels : Labels) : sameLabels (withoutLabel labels "le") labels := by
  rw [sameLabels_iff]
  intro name hname
  simp [withoutLabel, hname]

/-! ### The series -/

section Series
variable (number : String → Number) (family : PromMetricFamily)

/-- The bucket a sample brings to its series. -/
def bucketPart (sample : PromSample) : Option Bucket :=
  if sample.name = family.name ++ "_bucket" then bucketOf number sample else none

def sumPart (sample : PromSample) : Option Number :=
  if sample.name = family.name ++ "_sum" then some sample.value else none

def countPart (sample : PromSample) : Option Number :=
  if sample.name = family.name ++ "_count" then some sample.value else none

/-- The samples that make or join a series. -/
def accepted (sample : PromSample) : Bool :=
  (bucketPart number family sample).isSome || (sumPart family sample).isSome ||
    (countPart family sample).isSome

def joined (entry : Option HistogramSeries) (sample : PromSample) : HistogramSeries :=
  let entry := entry.getD
    { labels := withoutLabel sample.labels "le"
      buckets := []
      sum := none
      count := none
      timestampMs := sample.timestampMs }
  { entry with
    buckets := entry.buckets ++ (bucketPart number family sample).toList
    sum := (sumPart family sample).or entry.sum
    count := (countPart family sample).or entry.count }

lemma addSample_series (acc : SeriesMap × ℕ) (sample : PromSample) :
    (addSample number family acc sample).1 =
      if accepted number family sample then
        acc.1.set (seriesKey sample.labels "le")
          (joined number family (acc.1.get (seriesKey sample.labels "le")) sample)
      else acc.1 := by
  obtain ⟨series, dropped⟩ := acc
  have hfor : seriesFor series sample = (series.get (seriesKey sample.labels "le")).getD
      { labels := withoutLabel sample.labels "le"
        buckets := []
        sum := none
        count := none
        timestampMs := sample.timestampMs } := by
    unfold seriesFor
    cases series.get (seriesKey sample.labels "le") with
    | none => rfl
    | some entry => rfl
  simp only [addSample, accepted, joined, hfor]
  by_cases hbucket : sample.name = family.name ++ "_bucket"
  · cases hof : bucketOf number sample with
    | none => simp [bucketPart, sumPart, countPart, hbucket, hof]
    | some bucket => simp [bucketPart, sumPart, countPart, hbucket, hof]
  · by_cases hsum : sample.name = family.name ++ "_sum"
    · simp [bucketPart, sumPart, countPart, hsum]
    · by_cases hcount : sample.name = family.name ++ "_count"
      · simp [bucketPart, sumPart, countPart, hcount]
      · simp [bucketPart, sumPart, countPart, hbucket, hsum, hcount]

/-- The series of all accepted samples, by their keys. -/
lemma histogramSeries_eq : (histogramSeries number family).1 =
    InsertMap.upsertAll (fun sample => seriesKey sample.labels "le") (joined number family)
      (family.samples.filter (accepted number family)) := by
  unfold histogramSeries
  induction family.samples using List.reverseRecOn with
  | nil => rfl
  | append_singleton samples sample ih =>
    rw [List.foldl_append, List.foldl_cons, List.foldl_nil, addSample_series, ih,
      List.filter_append]
    by_cases haccepted : accepted number family sample
    · simp [haccepted, InsertMap.upsertAll]
    · simp [haccepted]

/-- What samples of one series make of it. -/
def seriesEntry (samples : List PromSample) : Option HistogramSeries :=
  samples.head?.map fun first =>
    { labels := withoutLabel first.labels "le"
      buckets := samples.filterMap (bucketPart number family)
      sum := (samples.filterMap (sumPart family)).getLast?
      count := (samples.filterMap (countPart family)).getLast?
      timestampMs := first.timestampMs }

lemma filterMap_concat {α β : Type} (f : α → Option β) (items : List α) (item : α) :
    (items ++ [item]).filterMap f = items.filterMap f ++ (f item).toList := by
  rw [List.filterMap_append]
  cases hf : f item with
  | none => simp [hf]
  | some value => simp [hf]

lemma getLast?_append_toList {α : Type} (items : List α) (item : Option α) :
    (items ++ item.toList).getLast? = item.or items.getLast? := by
  cases item with
  | none => simp
  | some value => simp

lemma foldl_joined (samples : List PromSample) :
    samples.foldl (fun stored sample => some (joined number family stored sample)) none =
      seriesEntry number family samples := by
  induction samples using List.reverseRecOn with
  | nil => rfl
  | append_singleton samples sample ih =>
    rw [List.foldl_append, ih, List.foldl_cons, List.foldl_nil]
    cases samples with
    | nil =>
      simp only [seriesEntry, filterMap_concat, getLast?_append_toList]
      rfl
    | cons first samples =>
      simp only [seriesEntry, filterMap_concat, getLast?_append_toList]
      rfl

/-- The samples of the series with the labels. -/
def seriesSamples (labels : Labels) : List PromSample :=
  family.samples.filter fun sample =>
    accepted number family sample && sameLabels sample.labels labels

lemma get_histogramSeries (labels : Labels) :
    (histogramSeries number family).1.get (seriesKey labels "le") =
      seriesEntry number family (seriesSamples number family labels) := by
  rw [histogramSeries_eq, InsertMap.get_upsertAll, foldl_joined, List.filter_filter, seriesSamples]
  congr 2
  funext sample
  rw [Bool.and_comm]
  congr 1
  rw [Bool.eq_iff_iff, decide_eq_true_eq]
  exact seriesKey_eq_iff

/-- A series is stored under the key of its labels. -/
lemma entry_spec {key : List Char} {entry : HistogramSeries}
    (h : (key, entry) ∈ (histogramSeries number family).1.entries) :
    seriesKey entry.labels "le" = key ∧
      seriesEntry number family (seriesSamples number family entry.labels) = some entry := by
  have hget := InsertMap.mem_entries.mp h
  have hfirst := hget
  rw [histogramSeries_eq, InsertMap.get_upsertAll, foldl_joined, seriesEntry,
    Option.map_eq_some_iff] at hfirst
  obtain ⟨first, hhead, hentry⟩ := hfirst
  have hkey : seriesKey first.labels "le" = key := by
    have hmem := List.mem_of_mem_head? hhead
    simpa using (List.mem_filter.mp hmem).2
  have hlabels : seriesKey entry.labels "le" = key := by
    rw [← hkey, seriesKey_eq_iff, ← hentry]
    exact sameLabels_withoutLabel first.labels
  rw [← get_histogramSeries, hlabels]
  exact ⟨rfl, hget⟩

/-- The buckets the samples of a series bring, in their order. -/
def seriesBuckets (labels : Labels) : List Bucket :=
  (seriesSamples number family labels).filterMap (bucketPart number family)

/-- The last count of a series, else the count of its first unbounded bucket. -/
def seriesTotal (labels : Labels) : Option Number :=
  ((seriesSamples number family labels).filterMap (countPart family)).getLast?.or
    (((seriesBuckets number family labels).find? fun bucket => bucket.le = .infinity false).map
      fun bucket => bucket.cumulative)

variable {number family}

lemma mem_seriesSamples {labels : Labels} {sample : PromSample} :
    sample ∈ seriesSamples number family labels ↔
      sample ∈ family.samples ∧ accepted number family sample ∧
        sameLabels sample.labels labels := by
  rw [seriesSamples, List.mem_filter, Bool.and_eq_true]

lemma seriesSamples_congr {a b : Labels} (h : sameLabels a b) :
    seriesSamples number family a = seriesSamples number family b := by
  unfold seriesSamples
  congr 1
  funext sample
  congr 1
  rw [sameLabels_iff] at h
  rw [Bool.eq_iff_iff, sameLabels_iff, sameLabels_iff]
  constructor
  · intro hsample name hname
    rw [hsample name hname, h name hname]
  · intro hsample name hname
    rw [hsample name hname, h name hname]

lemma seriesTotal_congr {a b : Labels} (h : sameLabels a b) :
    seriesTotal number family a = seriesTotal number family b := by
  rw [seriesTotal, seriesTotal, seriesBuckets, seriesBuckets, seriesSamples_congr h]

end Series

end Maple.Prometheus
