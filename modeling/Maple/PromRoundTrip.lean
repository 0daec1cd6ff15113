import Maple.PromExposition

/-! Parsing undoes exposition. -/

namespace Maple.Prometheus
open SafeFetch (isTrimmed isVisible isTrimmed_of_visible)

section Lines
variable {number : String → Number} {decimal : Number → String}

/-! ### One line -/

lemma readLine_eq (line : List Char) (hhead : ∀ c ∈ line.head?, isTrimmed c = false)
    (hlast : ∀ c ∈ line.getLast?, isTrimmed c = false) :
    trim (if line.getLast? = some '\r' then line.dropLast else line) = line := by
  have hreturn : line.getLast? ≠ some '\r' := by
    intro h
    have htrim := hlast '\r' h
    revert htrim
    decide
  rw [if_neg hreturn, trim_eq hhead hlast]

lemma readLine_sampleLine {sample : PromSample} (state : ParserState)
    (hname : ValidName isMetricStart sample.name.toList) (h : Exposable number decimal sample) :
    readLine number state (sampleLine decimal sample) = readSample state sample := by
  have hparse := parseSampleLine_sampleLine hname h
  obtain ⟨c, rest, hline, hc⟩ : ∃ c rest, sampleLine decimal sample = c :: rest ∧
      goesOn isMetricStart c ∧ c ≠ '#' := by
    have hchars := hname.chars
    unfold sampleLine
    generalize sample.name.toList = name at hname hchars
    cases name with
    | nil => cases hname
    | cons c name =>
      refine ⟨c, _, rfl, hchars c List.mem_cons_self, ?_⟩
      rintro rfl
      have hstart := hname.1
      revert hstart
      decide
  have hlast : ∀ c ∈ (sampleLine decimal sample).getLast?, isTrimmed c = false := by
    intro d hd
    have hsplit : sampleLine decimal sample = (sample.name.toList ++
        (labelBlock sample.labels.entries ++ [' '])) ++ numbersText decimal sample := by
      simp [sampleLine, numbersText]
    have hnumbers : numbersText decimal sample ≠ [] := by
      simp [numbersText, h.value.text.1]
    rw [hsplit, List.getLast?_append_of_ne_nil _ hnumbers] at hd
    exact numbersText_last h d hd
  have hhead : ∀ d ∈ (sampleLine decimal sample).head?, isTrimmed d = false := by
    intro d hd
    rw [hline, List.head?_cons, Option.mem_some_iff] at hd
    subst hd
    exact isTrimmed_of_visible (visible_of_name hc.1)
  have htrim := readLine_eq _ hhead hlast
  unfold readLine
  rw [htrim]
  rw [hline] at hparse ⊢
  dsimp only
  split
  · rename_i hnil
    cases hnil
  · rename_i hcomment
    exact absurd (List.cons.inj hcomment).1 hc.2
  · rw [hparse]

lemma text_chars (type : PromMetricType) :
    type.text.toList ≠ [] ∧ ∀ c ∈ type.text.toList, isVisible c := by
  cases type <;> simp [PromMetricType.text, isVisible]

lemma parseType_text (type : PromMetricType) : parseType type.text.toList = type := by
  have hlower : String.ofList (type.text.toList.map Char.toLower) = type.text := by
    cases type <;> decide
  unfold parseType
  rw [hlower]
  cases type with
  | counter => rfl
  | gauge => rfl
  | histogram => rfl
  | summary => rfl
  | untyped => rfl

/-- A name and what follows it after a space. -/
lemma spaced_ends {name text : List Char} (hname : ValidName isMetricStart name)
    (htext : text ≠ [] ∧ ∀ c ∈ text, isVisible c) :
    (∀ c ∈ (name ++ ' ' :: text).head?, isTrimmed c = false) ∧
      ∀ c ∈ (name ++ ' ' :: text).getLast?, isTrimmed c = false := by
  constructor
  · intro c hc
    cases name with
    | nil => cases hname
    | cons d name =>
      rw [List.cons_append, List.head?_cons, Option.mem_some_iff] at hc
      subst hc
      exact isTrimmed_of_visible (visible_of_name (hname.chars _ List.mem_cons_self))
  · intro c hc
    rw [List.append_cons, List.getLast?_append_of_ne_nil _ htext.1] at hc
    exact isTrimmed_of_visible (htext.2 c (List.mem_of_mem_getLast? hc))

lemma readLine_typeLine {family : PromMetricFamily} (state : ParserState)
    (hname : ValidName isMetricStart family.name.toList) :
    readLine number state (typeLine family) =
      state.setFamily { ensureFamily state.families family.name with type := family.type } := by
  obtain ⟨body, hbody⟩ : ∃ body, body = family.name.toList ++ ' ' :: family.type.text.toList :=
    ⟨_, rfl⟩
  have hends := spaced_ends hname (text_chars family.type)
  rw [← hbody] at hends
  have hnil : body ≠ [] := by
    rw [hbody]
    simp
  have hline : typeLine family = '#' :: ' ' :: 'T' :: 'Y' :: 'P' :: 'E' :: ' ' :: body := by
    rw [hbody]
    rfl
  have hlastOf : ∀ start : List Char, ∀ c ∈ (start ++ body).getLast?, isTrimmed c = false := by
    intro start c hc
    rw [List.getLast?_append_of_ne_nil _ hnil] at hc
    exact hends.2 c hc
  have hcomment : trim (' ' :: 'T' :: 'Y' :: 'P' :: 'E' :: ' ' :: body) =
      'T' :: 'Y' :: 'P' :: 'E' :: ' ' :: body := by
    rw [trim_space]
    exact trim_eq (by simp [isTrimmed]) (hlastOf ['T', 'Y', 'P', 'E', ' '])
  have hmatch : nameMatch isMetricStart (trim body) =
      some (family.name.toList, ' ' :: family.type.text.toList) := by
    rw [trim_eq hends.1 hends.2, hbody]
    exact nameMatch_append hname (by simp [goesOn, isMetricStart, isLetter])
  have htype : trim (' ' :: family.type.text.toList) = family.type.text.toList := by
    have htext := text_chars family.type
    rw [trim_space]
    exact trim_eq
      (fun c hc => isTrimmed_of_visible (htext.2 c (List.mem_of_mem_head? hc)))
      (fun c hc => isTrimmed_of_visible (htext.2 c (List.mem_of_mem_getLast? hc)))
  have hwhole := readLine_eq (typeLine family)
    (by rw [hline]; simp [isTrimmed])
    (by rw [hline]; exact hlastOf ['#', ' ', 'T', 'Y', 'P', 'E', ' '])
  unfold readLine
  rw [hwhole, hline]
  change readComment state (trim (' ' :: 'T' :: 'Y' :: 'P' :: 'E' :: ' ' :: body)) = _
  rw [hcomment]
  unfold readComment
  have hstart : startsWith ('T' :: 'Y' :: 'P' :: 'E' :: ' ' :: body) "TYPE " = true := rfl
  have hdrop : ('T' :: 'Y' :: 'P' :: 'E' :: ' ' :: body).drop 5 = body := rfl
  rw [if_pos hstart, hdrop, hmatch]
  simp only [htype, parseType_text, String.ofList_toList]

end Lines

/-! ### Families -/

/-- The families listed, each under its name, and no line skipped. -/
structure Holds (state : ParserState) (families : List PromMetricFamily) : Prop where
  entries : state.families.entries = families.map fun family => (family.name, family)
  skipped : state.skippedLineCount = 0

lemma Holds.get {state : ParserState} {families : List PromMetricFamily} (h : Holds state families)
    (name : String) : state.families.get name = families.find? fun family => family.name = name := by
  unfold InsertMap.get
  rw [h.entries, List.find?_map, Option.map_map]
  exact Option.map_id'

lemma Holds.setNew {state : ParserState} {families : List PromMetricFamily}
    (h : Holds state families) {family : PromMetricFamily}
    (hnew : family.name ∉ families.map (·.name)) :
    Holds (state.setFamily family) (families ++ [family]) := by
  have hkey : family.name ∉ state.families.entries.map Prod.fst := by
    rw [h.entries, List.map_map]
    exact hnew
  refine ⟨?_, h.skipped⟩
  have hset := setEntry_new hkey family []
  rw [List.append_nil] at hset
  calc (state.setFamily family).families.entries = state.families.entries ++ [_] := hset
    _ = (families ++ [family]).map fun family => (family.name, family) := by
      rw [h.entries, List.map_append]
      rfl

lemma Holds.setLast {state : ParserState} {families : List PromMetricFamily}
    {old family : PromMetricFamily} (h : Holds state (families ++ [old]))
    (hname : family.name = old.name) (hnew : old.name ∉ families.map (·.name)) :
    Holds (state.setFamily family) (families ++ [family]) := by
  have hkey : family.name ∉ (families.map fun family => (family.name, family)).map Prod.fst := by
    rw [hname, List.map_map]
    exact hnew
  refine ⟨?_, h.skipped⟩
  calc (state.setFamily family).families.entries =
      setEntry family.name family state.families.entries := rfl
    _ = (families.map fun family => (family.name, family)) ++ [(family.name, family)] := by
      rw [h.entries, List.map_append, setEntry_new hkey]
      simp [setEntry, hname]
    _ = (families ++ [family]).map fun family => (family.name, family) := by
      rw [List.map_append]
      rfl

/-- A sample is named as its family is, or after it. -/
def SampleName (family sample : String) : Prop :=
  sample = family ∨ ∃ suffix ∈ COMPONENT_SUFFIXES, sample = family ++ suffix

structure ExposableFamilies (number : String → Number) (decimal : Number → String)
    (families : List PromMetricFamily) : Prop where
  names : (families.map (·.name)).Nodup
  valid : ∀ family ∈ families, ValidName isMetricStart family.name.toList
  nonempty : ∀ family ∈ families, family.samples ≠ []
  named : ∀ family ∈ families, ∀ sample ∈ family.samples, SampleName family.name sample.name
  apart : ∀ family ∈ families, ∀ sample ∈ family.samples, ∀ other ∈ families,
    sample.name = other.name → other.name = family.name
  created : ∀ family ∈ families, ∀ sample ∈ family.samples,
    ¬ "_created".toList <:+ sample.name.toList
  samples : ∀ family ∈ families, ∀ sample ∈ family.samples, Exposable number decimal sample

lemma withoutSuffix_append (name suffix : String) :
    withoutSuffix (name ++ suffix) suffix = some name := by
  have hsuffix : suffix.toList.isSuffixOf (name ++ suffix).toList := by
    rw [List.isSuffixOf_iff_suffix, String.toList_append]
    exact List.suffix_append _ _
  have hlength : (name ++ suffix).length - suffix.length = name.toList.length := by
    rw [String.length_append, String.length_toList]
    omega
  rw [withoutSuffix, if_pos hsuffix, hlength, String.toList_append, List.take_left',
    String.ofList_toList]
  rfl

lemma withoutSuffix_of_not {name suffix : String} (h : ¬ suffix.toList <:+ name.toList) :
    withoutSuffix name suffix = none := by
  rw [withoutSuffix, if_neg (by rwa [List.isSuffixOf_iff_suffix])]

/-- No component suffix ends another. -/
lemma componentSuffixes_apart : ∀ suffix ∈ COMPONENT_SUFFIXES, ∀ other ∈ COMPONENT_SUFFIXES,
    other.toList <:+ suffix.toList → other = suffix := by
  decide

lemma findSome?_unique {α β : Type} {f : α → Option β} {items : List α} {found : β}
    (hall : ∀ item ∈ items, f item = none ∨ f item = some found)
    (hsome : ∃ item ∈ items, f item = some found) : items.findSome? f = some found := by
  cases h : items.findSome? f with
  | none =>
    obtain ⟨item, hitem, hfound⟩ := hsome
    rw [List.findSome?_eq_none_iff.mp h item hitem] at hfound
    cases hfound
  | some other =>
    obtain ⟨item, hitem, hother⟩ := List.exists_of_findSome?_eq_some h
    rcases hall item hitem with hnone | hfound
    · rw [hnone] at hother
      cases hother
    · exact hother.symm.trans hfound

/-- Of the suffixes, a name made with one has only this one. -/
lemma findSome?_suffix {families : FamilyMap} {name suffix : String}
    (hsuffix : suffix ∈ COMPONENT_SUFFIXES) {family : PromMetricFamily}
    (hget : families.get name = some family) :
    (COMPONENT_SUFFIXES.findSome? fun other =>
      (withoutSuffix (name ++ suffix) other).bind families.get) = some family := by
  have hself : (withoutSuffix (name ++ suffix) suffix).bind families.get = some family := by
    rw [withoutSuffix_append]
    exact hget
  apply findSome?_unique
  · intro other hmem
    by_cases hends : other.toList <:+ (name ++ suffix).toList
    · rw [String.toList_append] at hends
      have hsame : other = suffix := by
        rcases List.suffix_or_suffix_of_suffix hends (List.suffix_append _ _) with h | h
        · exact componentSuffixes_apart suffix hsuffix other hmem h
        · exact (componentSuffixes_apart other hmem suffix hsuffix h).symm
      rw [hsame]
      exact Or.inr hself
    · rw [withoutSuffix_of_not hends]
      exact Or.inl rfl
  · exact ⟨suffix, hsuffix, hself⟩

section Families
variable {number : String → Number} {decimal : Number → String} {families : List PromMetricFamily}

/-- The family as far as its samples have been read, without help or unit. -/
def PromMetricFamily.bare (family : PromMetricFamily) (samples : List PromSample) :
    PromMetricFamily :=
  { name := family.name, type := family.type, help := none, unit := none, samples }

lemma sampleName_valid {family sample : String} (hfamily : ValidName isMetricStart family.toList)
    (h : SampleName family sample) : ValidName isMetricStart sample.toList := by
  rcases h with rfl | ⟨suffix, hsuffix, rfl⟩
  · exact hfamily
  · have hchars : ∀ suffix ∈ COMPONENT_SUFFIXES, ∀ c ∈ suffix.toList, goesOn isMetricStart c := by
      simp [COMPONENT_SUFFIXES, goesOn, isMetricStart, isLetter]
    rw [String.toList_append]
    generalize family.toList = name at hfamily
    cases name with
    | nil => cases hfamily
    | cons c name =>
      refine ⟨hfamily.1, fun d hd => ?_⟩
      rcases List.mem_append.mp hd with hd | hd
      · exact hfamily.2 d hd
      · exact hchars suffix hsuffix d hd

/-- A sample joins the family it is exposed with. -/
lemma readSample_step (h : ExposableFamilies number decimal families)
    {done : List PromMetricFamily} (hdone : ∀ other ∈ done, ∃ family ∈ families,
      family.name = other.name)
    {family : PromMetricFamily} (hfamily : family ∈ families)
    (hnew : family.name ∉ done.map (·.name)) {taken : List PromSample} {state : ParserState}
    (hstate : Holds state (done ++ [family.bare taken])) {sample : PromSample}
    (hsample : sample ∈ family.samples) :
    Holds (readSample state sample) (done ++ [family.bare (taken ++ [sample])]) := by
  have hself : state.families.get family.name = some (family.bare taken) := by
    rw [hstate.get, List.find?_append, List.find?_eq_none.mpr]
    · simp [PromMetricFamily.bare]
    · intro other hother hsame
      exact hnew (List.mem_map.mpr ⟨other, hother, by simpa using hsame⟩)
  have hfound : familyForSample state.families sample.name = some (family.bare taken) := by
    unfold familyForSample
    rcases h.named family hfamily sample hsample with hname | ⟨suffix, hsuffix, hname⟩
    · rw [hname, hself]
      rfl
    · rw [hname, findSome?_suffix hsuffix hself]
      cases hexact : state.families.get (family.name ++ suffix) with
      | none => rfl
      | some other =>
        rw [hstate.get] at hexact
        have hmem := List.mem_of_find?_eq_some hexact
        have hother : other.name = family.name ++ suffix := by
          simpa using List.find?_some hexact
        rcases List.mem_append.mp hmem with hmem | hmem
        · obtain ⟨original, horiginal, hsame⟩ := hdone other hmem
          have hapart := h.apart family hfamily sample hsample original horiginal
            (by rw [hname, hsame, hother])
          exact absurd (List.mem_map.mpr ⟨other, hmem, hsame.symm.trans hapart⟩) hnew
        · rw [List.mem_singleton.mp hmem]
          rfl
  have hcreated : withoutSuffix sample.name "_created" = none :=
    withoutSuffix_of_not (h.created family hfamily sample hsample)
  unfold readSample
  rw [hcreated, hfound]
  exact hstate.setLast rfl hnew

lemma readSamples_run (h : ExposableFamilies number decimal families)
    {done : List PromMetricFamily} (hdone : ∀ other ∈ done, ∃ family ∈ families,
      family.name = other.name)
    {family : PromMetricFamily} (hfamily : family ∈ families)
    (hnew : family.name ∉ done.map (·.name)) {samples taken : List PromSample}
    {state : ParserState} (hstate : Holds state (done ++ [family.bare taken]))
    (hsamples : ∀ sample ∈ samples, sample ∈ family.samples) :
    Holds ((samples.map (sampleLine decimal)).foldl (readLine number) state)
      (done ++ [family.bare (taken ++ samples)]) := by
  induction samples generalizing taken state with
  | nil => simpa using hstate
  | cons sample samples ih =>
    have hsample := hsamples sample List.mem_cons_self
    have hvalid : ValidName isMetricStart sample.name.toList :=
      sampleName_valid (h.valid family hfamily) (h.named family hfamily sample hsample)
    have hstep := readSample_step h hdone hfamily hnew hstate hsample
    have hrest := ih hstep fun other hother => hsamples other (List.mem_cons_of_mem _ hother)
    rw [List.map_cons, List.foldl_cons,
      readLine_sampleLine state hvalid (h.samples family hfamily sample hsample)]
    rwa [List.append_assoc] at hrest

/-- The lines of a family add it, after the families read before. -/
lemma readFamily_step (h : ExposableFamilies number decimal families)
    {done : List PromMetricFamily} (hdone : ∀ other ∈ done, ∃ family ∈ families,
      family.name = other.name)
    {family : PromMetricFamily} (hfamily : family ∈ families)
    (hnew : family.name ∉ done.map (·.name)) {state : ParserState} (hstate : Holds state done) :
    Holds ((familyLines decimal family).foldl (readLine number) state)
      (done ++ [family.bare family.samples]) := by
  have hget : state.families.get family.name = none := by
    rw [hstate.get, List.find?_eq_none]
    intro other hother hsame
    exact hnew (List.mem_map.mpr ⟨other, hother, by simpa using hsame⟩)
  have htype : Holds (readLine number state (typeLine family)) (done ++ [family.bare []]) := by
    rw [readLine_typeLine state (h.valid family hfamily), ensureFamily, hget]
    exact hstate.setNew hnew
  exact readSamples_run h hdone hfamily hnew htype fun sample hsample => hsample

lemma readFamilies_run (h : ExposableFamilies number decimal families)
    {before after : List PromMetricFamily} (hsplit : families = before ++ after)
    {state : ParserState}
    (hstate : Holds state (before.map fun family => family.bare family.samples)) :
    Holds ((after.flatMap (familyLines decimal)).foldl (readLine number) state)
      (families.map fun family => family.bare family.samples) := by
  induction after generalizing before state with
  | nil =>
    rw [hsplit, List.append_nil]
    exact hstate
  | cons family after ih =>
    have hnames : ((before.map fun family => family.bare family.samples).map (·.name)) =
        before.map (·.name) := by
      rw [List.map_map]
      rfl
    have hnew : family.name ∉ (before.map fun family => family.bare family.samples).map (·.name) := by
      have hnodup := h.names
      rw [hsplit, List.map_append, List.map_cons] at hnodup
      rw [hnames]
      exact fun hmem => (List.nodup_append.mp hnodup).2.2 _ hmem _ List.mem_cons_self rfl
    have hdone : ∀ other ∈ before.map fun family => family.bare family.samples,
        ∃ family ∈ families, family.name = other.name := by
      intro other hother
      obtain ⟨original, horiginal, rfl⟩ := List.mem_map.mp hother
      exact ⟨original, hsplit ▸ List.mem_append_left _ horiginal, rfl⟩
    have hfamily : family ∈ families := hsplit ▸ List.mem_append_right _ List.mem_cons_self
    have hstep := readFamily_step h hdone hfamily hnew hstate
    rw [List.flatMap_cons, List.foldl_append]
    have hmoved : families = (before ++ [family]) ++ after := by
      rw [hsplit, List.append_assoc]
      rfl
    exact ih hmoved (by rwa [List.map_append])

/-! ### Lines -/

lemma name_line {starts : Char → Bool} (hstarts : starts '\n' = false) {name : List Char}
    (h : ValidName starts name) : '\n' ∉ name := by
  intro hmem
  have hchar := h.chars _ hmem
  rw [goesOn, hstarts] at hchar
  cases hchar

lemma labelText_line {label : String × String} (h : ValidName isLabelStart label.1.toList) :
    '\n' ∉ labelText label := by
  simp [labelText, name_line (by decide) h, escapeValue_line]

lemma sampleLine_line {sample : PromSample} (hname : ValidName isMetricStart sample.name.toList)
    (h : Exposable number decimal sample) : '\n' ∉ sampleLine decimal sample := by
  have hblock : '\n' ∉ labelBlock sample.labels.entries := by
    have hlabels := h.labels
    cases hentries : sample.labels.entries with
    | nil => simp [labelBlock]
    | cons label more =>
      rw [hentries] at hlabels
      have hmore : '\n' ∉ moreLabels more := by
        simp only [moreLabels, List.mem_flatMap, not_exists, not_and]
        intro other hother
        have hother' := (hlabels other (List.mem_cons_of_mem _ hother)).1
        simp [labelText_line hother']
      simp [labelBlock, hmore, labelText_line (hlabels label List.mem_cons_self).1]
  have hnumbers : '\n' ∉ numbersText decimal sample := by
    intro hmem
    have hchar := numbersText_chars h _ hmem
    revert hchar
    decide
  have hline : sampleLine decimal sample = sample.name.toList ++
      (labelBlock sample.labels.entries ++ ' ' :: numbersText decimal sample) := rfl
  simp [hline, name_line (by decide) hname, hblock, hnumbers]

lemma typeLine_line {family : PromMetricFamily}
    (hname : ValidName isMetricStart family.name.toList) : '\n' ∉ typeLine family := by
  have htype : '\n' ∉ family.type.text.toList := by
    intro hmem
    have hchar := (text_chars family.type).2 _ hmem
    revert hchar
    decide
  have hstart : '\n' ∉ "# TYPE ".toList := by decide
  have hfamily := name_line (by decide) hname
  intro hmem
  rcases List.mem_append.mp hmem with hmem | hmem
  · exact hstart hmem
  · rcases List.mem_append.mp hmem with hmem | hmem
    · exact hfamily hmem
    · rcases List.mem_cons.mp hmem with hspace | hmem
      · exact absurd hspace (by decide)
      · exact htype hmem

/-- Reading a text is reading its lines, the empty one after the last line feed too. -/
lemma foldl_lines (number : String → Number) {lines : List (List Char)} (h : ∀ line ∈ lines, '\n' ∉ line)
    (state : ParserState) :
    ((lines.flatMap fun line => line ++ ['\n']).splitOn '\n').foldl (readLine number) state =
      lines.foldl (readLine number) state := by
  induction lines generalizing state with
  | nil => rfl
  | cons line lines ih =>
    have hline := h line List.mem_cons_self
    rw [List.flatMap_cons, List.append_assoc, List.singleton_append,
      List.splitOn_append_cons_self, List.splitOn_eq_singleton hline, List.foldl_append,
      ih fun other hother => h other (List.mem_cons_of_mem _ hother)]
    rfl

theorem parsePrometheusText_exposition (h : ExposableFamilies number decimal families) :
    parsePrometheusText number (exposition decimal families) =
      { families := families.map fun family => family.bare family.samples
        skippedLineCount := 0 } := by
  have hlines : ∀ line ∈ families.flatMap (familyLines decimal), '\n' ∉ line := by
    intro line hline
    obtain ⟨family, hfamily, hline⟩ := List.mem_flatMap.mp hline
    rcases List.mem_cons.mp hline with rfl | hline
    · exact typeLine_line (h.valid family hfamily)
    · obtain ⟨sample, hsample, rfl⟩ := List.mem_map.mp hline
      exact sampleLine_line
        (sampleName_valid (h.valid family hfamily) (h.named family hfamily sample hsample))
        (h.samples family hfamily sample hsample)
  have hrun : Holds ((families.flatMap (familyLines decimal)).foldl (readLine number) {})
      (families.map fun family => family.bare family.samples) :=
    readFamilies_run h (List.nil_append families).symm ⟨rfl, rfl⟩
  have hfold := foldl_lines number hlines {}
  have hvalues :
      ((families.flatMap (familyLines decimal)).foldl (readLine number) {}).families.values =
        families.map fun family => family.bare family.samples := by
    rw [InsertMap.values, hrun.entries, List.map_map]
    exact List.map_id' _
  have hkeep : (families.map fun family => family.bare family.samples).filter
      (fun family => !family.samples.isEmpty) =
      families.map fun family => family.bare family.samples := by
    apply List.filter_eq_self.mpr
    intro family hfamily
    obtain ⟨original, horiginal, rfl⟩ := List.mem_map.mp hfamily
    have hnonempty := h.nonempty original horiginal
    rw [Bool.not_eq_true', Bool.eq_false_iff, ne_eq, List.isEmpty_iff]
    exact hnonempty
  unfold parsePrometheusText exposition
  rw [String.toList_ofList, hfold]
  dsimp only
  rw [hvalues, hkeep, hrun.skipped]

end Families

/-! ### A family with a label of every escape -/

def readSampleText (text : String) : Number :=
  if text = "1.5" then .finite (3 / 2)
  else if text = "1700000000000" then .finite (1700000000000 : ℤ)
  else .nan

def writeSample (value : Number) : String :=
  if value = .finite (3 / 2) then "1.5" else "1700000000000"

def requestTotal : PromSample where
  name := "http_requests_total"
  labels := InsertMap.empty.set "path" "a\\b\"c\nd, \x7b#\x7d\\"
  value := .finite (3 / 2)
  timestampMs := some (.finite (1700000000000 : ℤ))

def requestFamily : PromMetricFamily where
  name := "http_requests"
  type := .counter
  help := none
  unit := none
  samples := [requestTotal]

lemma written_value : Written readSampleText writeSample (.finite (3 / 2)) := by
  have htext : writeSample (.finite (3 / 2)) = "1.5" := if_pos rfl
  refine ⟨?_, ?_, rfl⟩
  · rw [htext]
    exact ⟨by simp, by simp [Json.numberChar]⟩
  · rw [htext]
    exact if_pos rfl

lemma written_timestamp :
    Written readSampleText writeSample (.finite (1700000000000 : ℤ)) := by
  have htext : writeSample (.finite (1700000000000 : ℤ)) = "1700000000000" := by
    apply if_neg
    rw [Number.finite.injEq]
    norm_num
  refine ⟨?_, ?_, rfl⟩
  · rw [htext]
    exact ⟨by simp, by simp [Json.numberChar]⟩
  · rw [htext]
    simp [readSampleText]

lemma exposable_sample : ExposableFamilies readSampleText writeSample [requestFamily] := by
  have hlabels : requestTotal.labels.entries =
      [("path", "a\\b\"c\nd, \x7b#\x7d\\")] := rfl
  have hsample : Exposable readSampleText writeSample requestTotal := by
    refine ⟨?_, written_value, ?_⟩
    · rw [hlabels]
      simp [ValidName, isLabelStart, isLetter, goesOn]
    · intro timestamp htimestamp
      cases htimestamp
      exact ⟨written_timestamp, 1700000000000, by norm_num, rfl⟩
  refine ⟨by simp, ?_, ?_, ?_, ?_, ?_, ?_⟩
  · simp [requestFamily, ValidName, isMetricStart, isLetter, goesOn]
  · simp [requestFamily]
  · simp [requestFamily, requestTotal, SampleName, COMPONENT_SUFFIXES]
  · simp [requestFamily]
  · simp only [List.mem_singleton, requestFamily, forall_eq, requestTotal]
    decide
  · simpa [requestFamily] using hsample

theorem parsePrometheusText_sample :
    ExposableFamilies readSampleText writeSample [requestFamily] ∧
      parsePrometheusText readSampleText (exposition writeSample [requestFamily]) =
        { families := [requestFamily], skippedLineCount := 0 } :=
  ⟨exposable_sample, parsePrometheusText_exposition exposable_sample⟩

end Maple.Prometheus
