import Maple.JsonText
import Maple.PromParser

/-! The text exposition of metric families, and what the parser's scanners make of it. How a number
is written is a parameter. -/

namespace Maple.Prometheus
open SafeFetch (isTrimmed isVisible isTrimmed_of_visible)
open Json (numberChar NumberText)

/-! ### Exposition -/

def escapeChar : Char → List Char
  | '\\' => ['\\', '\\']
  | '\n' => ['\\', 'n']
  | '"' => ['\\', '"']
  | c => [c]

def escapeValue (value : List Char) : List Char := value.flatMap escapeChar

def labelText (label : String × String) : List Char :=
  label.1.toList ++ ('=' :: '"' :: (escapeValue label.2.toList ++ ['"']))

/-- The labels after the first, each after its comma. -/
def moreLabels (labels : List (String × String)) : List Char :=
  labels.flatMap fun label => ',' :: labelText label

def labelBlock : List (String × String) → List Char
  | [] => []
  | label :: labels => '\x7b' :: (labelText label ++ (moreLabels labels ++ ['\x7d']))

def PromMetricType.text : PromMetricType → String
  | .counter => "counter"
  | .gauge => "gauge"
  | .histogram => "histogram"
  | .summary => "summary"
  | .untyped => "untyped"

section Printer
variable (decimal : Number → String)

def timestampText : Option Number → List Char
  | none => []
  | some timestamp => ' ' :: (decimal timestamp).toList

def sampleLine (sample : PromSample) : List Char :=
  sample.name.toList ++ (labelBlock sample.labels.entries ++
    (' ' :: ((decimal sample.value).toList ++ timestampText decimal sample.timestampMs)))

def typeLine (family : PromMetricFamily) : List Char :=
  "# TYPE ".toList ++ (family.name.toList ++ (' ' :: family.type.text.toList))

def familyLines (family : PromMetricFamily) : List (List Char) :=
  typeLine family :: family.samples.map (sampleLine decimal)

/-- Every line ends in a line feed. -/
def exposition (families : List PromMetricFamily) : String :=
  String.ofList ((families.flatMap (familyLines decimal)).flatMap fun line => line ++ ['\n'])

end Printer

/-! ### Names -/

def goesOn (starts : Char → Bool) (c : Char) : Bool := starts c || c.isDigit

def ValidName (starts : Char → Bool) : List Char → Prop
  | [] => False
  | c :: rest => starts c ∧ ∀ d ∈ rest, goesOn starts d

lemma ValidName.chars {starts : Char → Bool} {name : List Char} (h : ValidName starts name) :
    ∀ c ∈ name, goesOn starts c := by
  cases name with
  | nil => cases h
  | cons c rest =>
    intro d hd
    rcases List.mem_cons.mp hd with rfl | hd
    · simp [goesOn, h.1]
    · exact h.2 d hd

/-- A name ends where a character no name has follows. -/
lemma nameMatch_append {starts : Char → Bool} {name rest : List Char} (h : ValidName starts name)
    (hrest : ∀ c ∈ rest.head?, goesOn starts c = false) :
    nameMatch starts (name ++ rest) = some (name, rest) := by
  cases name with
  | nil => cases h
  | cons c tail =>
    have htake : rest.takeWhile (goesOn starts) = [] := by
      cases rest with
      | nil => rfl
      | cons d rest => simp [hrest d rfl]
    have hdrop : rest.dropWhile (goesOn starts) = rest := by
      cases rest with
      | nil => rfl
      | cons d rest => simp [hrest d rfl]
    have hmatch : nameMatch starts (c :: (tail ++ rest)) =
        some (c :: (tail ++ rest).takeWhile (goesOn starts),
          (tail ++ rest).dropWhile (goesOn starts)) := by
      simp only [nameMatch, h.1]
      rfl
    rw [List.cons_append, hmatch, List.takeWhile_append_of_pos h.2,
      List.dropWhile_append_of_pos h.2, htake, hdrop, List.append_nil]

/-! ### Characters -/

lemma visible_of_name {c : Char} (h : goesOn isMetricStart c) : isVisible c := by
  simp only [goesOn, isMetricStart, isLetter, Char.isDigit, Bool.or_eq_true, Bool.and_eq_true,
    decide_eq_true_eq, isVisible] at h ⊢
  rcases h with (((h | h) | h) | h) | h
  · exact ⟨le_trans (by decide) h.1, h.2.trans (by decide)⟩
  · exact ⟨le_trans (by decide) h.1, h.2.trans (by decide)⟩
  · subst h
    decide
  · subst h
    decide
  · exact ⟨le_trans (b := '0') (by decide) h.1, le_trans (b := '9') h.2 (by decide)⟩

lemma visible_of_number {c : Char} (h : numberChar c) : isVisible c := by
  simp only [numberChar, Char.isDigit, Bool.or_eq_true, Bool.and_eq_true, decide_eq_true_eq,
    isVisible] at h ⊢
  rcases h with (((h | h) | h) | h) | h
  · exact ⟨le_trans (b := '0') (by decide) h.1, le_trans (b := '9') h.2 (by decide)⟩
  all_goals
    subst h
    decide

lemma isBlank_of_visible {c : Char} (h : isVisible c) : isBlank c = false := by
  rw [Bool.eq_false_iff]
  intro hblank
  simp only [isBlank, Bool.or_eq_true, decide_eq_true_eq] at hblank
  rcases hblank with rfl | rfl
  all_goals revert h; decide

lemma trim_eq {text : List Char} (hhead : ∀ c ∈ text.head?, isTrimmed c = false)
    (hlast : ∀ c ∈ text.getLast?, isTrimmed c = false) : trim text = text := by
  have hdrop : ∀ {other : List Char}, (∀ c ∈ other.head?, isTrimmed c = false) →
      other.dropWhile isTrimmed = other := by
    intro other hother
    cases other with
    | nil => rfl
    | cons c other => simp [hother c rfl]
  rw [trim, trimStart, hdrop hhead, hdrop (by rwa [List.head?_reverse]), List.reverse_reverse]

lemma trim_space (text : List Char) : trim (' ' :: text) = trim text := rfl

/-! ### Label values -/

lemma quotedValue_escapeChar (c : Char) (rest : List Char) :
    quotedValue (escapeChar c ++ rest) =
      (quotedValue rest).map fun (raw, after) => (escapeChar c ++ raw, after) := by
  unfold escapeChar
  split
  · rfl
  · rfl
  · rfl
  · rename_i hslash _ hquote
    rw [List.singleton_append, quotedValue]
    · rfl
    · exact fun h _ => hslash h
    · exact fun _ _ h _ => hslash h
    · exact hquote

lemma quotedValue_escapeValue (value rest : List Char) :
    quotedValue (escapeValue value ++ '"' :: rest) = some (escapeValue value, rest) := by
  induction value with
  | nil => rfl
  | cons c value ih =>
    have hcons : escapeValue (c :: value) = escapeChar c ++ escapeValue value := rfl
    rw [hcons, List.append_assoc, quotedValue_escapeChar, ih]
    rfl

lemma unescapeValue_escapeChar (c : Char) (rest : List Char) :
    unescapeValue (escapeChar c ++ rest) = c :: unescapeValue rest := by
  unfold escapeChar
  split
  · rfl
  · rfl
  · rfl
  · rename_i hslash _ _
    rw [List.singleton_append, unescapeValue]
    · exact fun _ h _ => hslash h
    · exact fun _ h _ => hslash h
    · exact fun _ h _ => hslash h

lemma unescapeValue_escapeValue (value : List Char) :
    unescapeValue (escapeValue value) = value := by
  induction value with
  | nil => rfl
  | cons c value ih =>
    have hcons : escapeValue (c :: value) = escapeChar c ++ escapeValue value := rfl
    rw [hcons, unescapeValue_escapeChar, ih]

lemma escapeValue_line (value : List Char) : '\n' ∉ escapeValue value := by
  induction value with
  | nil => simp [escapeValue]
  | cons c value ih =>
    have hcons : escapeValue (c :: value) = escapeChar c ++ escapeValue value := rfl
    rw [hcons, List.mem_append, not_or]
    refine ⟨?_, ih⟩
    unfold escapeChar
    split
    · decide
    · decide
    · decide
    · rename_i hline _
      simpa using Ne.symm hline

/-! ### Label blocks -/

lemma parseLabel_labelText {label : String × String} (h : ValidName isLabelStart label.1.toList)
    (rest : List Char) :
    parseLabel (labelText label ++ rest) = some (label.1, label.2, rest) := by
  obtain ⟨name, value⟩ := label
  have hname : nameMatch isLabelStart
      (name.toList ++ '=' :: '"' :: (escapeValue value.toList ++ '"' :: rest)) =
        some (name.toList, '=' :: '"' :: (escapeValue value.toList ++ '"' :: rest)) :=
    nameMatch_append h (by simp [goesOn, isLabelStart, isLetter])
  have htext : labelText (name, value) ++ rest =
      name.toList ++ '=' :: '"' :: (escapeValue value.toList ++ '"' :: rest) := by
    simp [labelText]
  have hequals : ('=' :: '"' :: (escapeValue value.toList ++ '"' :: rest)).dropWhile isBlank =
      '=' :: '"' :: (escapeValue value.toList ++ '"' :: rest) := rfl
  have hquote : ('"' :: (escapeValue value.toList ++ '"' :: rest)).dropWhile isBlank =
      '"' :: (escapeValue value.toList ++ '"' :: rest) := rfl
  rw [htext, parseLabel, hname]
  simp only [Option.bind_eq_bind, Option.bind_some, hequals, hquote, quotedValue_escapeValue,
    unescapeValue_escapeValue, String.ofList_toList]

/-- Between labels, blanks and commas are skipped. -/
lemma parseLabels_eq (labels : Labels) (text : List Char) {c : Char} {rest : List Char}
    (htext : (text.dropWhile fun c => isBlank c || c = ',') = c :: rest) :
    parseLabels labels text =
      if c = '\x7d' then some (labels, rest)
      else (parseLabel (c :: rest)).bind fun (name, value, after) =>
        parseLabels (setLabel labels name value) after := by
  rw [parseLabels]
  split
  · rename_i h
    rw [htext] at h
    cases h
  · rename_i h
    rw [htext] at h
    cases h
    rw [if_pos rfl]
  · rename_i hclose h
    rw [htext] at h
    cases h
    rw [if_neg hclose]
    split
    · rename_i hlabel
      rw [hlabel]
      rfl
    · rename_i hlabel
      rw [hlabel]
      rfl

lemma parseLabels_close (labels : Labels) (rest : List Char) :
    parseLabels labels ('\x7d' :: rest) = some (labels, rest) := by
  rw [parseLabels_eq labels ('\x7d' :: rest) rfl, if_pos rfl]

lemma parseLabels_label {label : String × String} (h : ValidName isLabelStart label.1.toList)
    (labels : Labels) (skipped : List Char)
    (hskipped : ∀ c ∈ skipped, (isBlank c || c = ',') = true) (rest : List Char) :
    parseLabels labels (skipped ++ (labelText label ++ rest)) =
      parseLabels (setLabel labels label.1 label.2) rest := by
  obtain ⟨c, tail, htext, hc⟩ : ∃ c tail, labelText label ++ rest = c :: tail ∧ isLabelStart c := by
    unfold labelText
    generalize label.1.toList = name at h
    cases name with
    | nil => cases h
    | cons c tail => exact ⟨c, _, rfl, h.1⟩
  have hvisible := visible_of_name (c := c) (by
    simp only [isLabelStart, Bool.or_eq_true] at hc
    rcases hc with hc | hc
    · simp [goesOn, isMetricStart, hc]
    · simp [goesOn, isMetricStart, hc])
  have hnames : c ≠ ',' ∧ c ≠ '\x7d' := by
    constructor
    all_goals
      rintro rfl
      revert hc
      decide
  have hdrop : (skipped ++ (c :: tail)).dropWhile (fun c => isBlank c || c = ',') = c :: tail := by
    rw [List.dropWhile_append_of_pos hskipped, List.dropWhile_cons_of_neg]
    simp [isBlank_of_visible hvisible, hnames.1]
  rw [htext, parseLabels_eq labels _ hdrop, if_neg hnames.2, ← htext, parseLabel_labelText h]
  rfl

lemma parseLabels_more {more : List (String × String)}
    (h : ∀ label ∈ more, ValidName isLabelStart label.1.toList) (labels : Labels)
    (rest : List Char) :
    parseLabels labels (moreLabels more ++ '\x7d' :: rest) =
      some (more.foldl (fun labels label => setLabel labels label.1 label.2) labels, rest) := by
  induction more generalizing labels with
  | nil => exact parseLabels_close labels rest
  | cons label more ih =>
    have htext : moreLabels (label :: more) ++ '\x7d' :: rest =
        [','] ++ (labelText label ++ (moreLabels more ++ '\x7d' :: rest)) := by
      simp [moreLabels]
    rw [htext, parseLabels_label (h label List.mem_cons_self) labels _ (by simp),
      ih (fun other hother => h other (List.mem_cons_of_mem _ hother)), List.foldl_cons]

/-- Setting none at `__proto__`, the labels of a block are set in turn. -/
lemma foldl_setLabel {labels : Labels} (h : ∀ label ∈ labels.entries, label.1 ≠ "__proto__") :
    labels.entries.foldl (fun labels label => setLabel labels label.1 label.2) InsertMap.empty =
      labels := by
  have hset : labels.entries.foldl (fun labels label => setLabel labels label.1 label.2)
      (InsertMap.empty : Labels) =
      labels.entries.foldl (fun labels label => labels.set label.1 label.2) InsertMap.empty :=
    List.foldl_ext _ _ _ fun labels label hlabel => if_neg (h label hlabel)
  rw [hset]
  exact InsertMap.ext_entries (InsertMap.foldl_set labels.nodup)

/-! ### Sample lines -/

/-- The number is written in number characters, and `Number` reads the text as it. -/
structure Written (number : String → Number) (decimal : Number → String) (value : Number) :
    Prop where
  text : NumberText (decimal value)
  read : number (decimal value) = value
  finite : value.isFinite

/-- A sample as it is exposed, its name apart. -/
structure Exposable (number : String → Number) (decimal : Number → String) (sample : PromSample) :
    Prop where
  labels : ∀ label ∈ sample.labels.entries,
    ValidName isLabelStart label.1.toList ∧ label.1 ≠ "__proto__"
  value : Written number decimal sample.value
  timestamp : ∀ timestamp ∈ sample.timestampMs, Written number decimal timestamp ∧
    ∃ ms : ℤ, 10 ^ 11 ≤ ms ∧ timestamp = .finite ms

lemma splitBlanks_token {token : List Char} (h : ∀ c ∈ token, isBlank c = false) :
    splitBlanks token = [token] := by
  induction token with
  | nil => rfl
  | cons c token ih =>
    have hc := h c List.mem_cons_self
    rw [splitBlanks, hc, ih fun d hd => h d (List.mem_cons_of_mem c hd)]
    rfl

lemma splitBlanks_pair {token other : List Char} (h : ∀ c ∈ token, isBlank c = false)
    (hother : ∀ c ∈ other, isBlank c = false) :
    splitBlanks (token ++ ' ' :: other) = [token, other] := by
  induction token with
  | nil =>
    have hhead : other.head?.any isBlank = false := by
      cases other with
      | nil => rfl
      | cons c other => exact hother c List.mem_cons_self
    rw [List.nil_append, splitBlanks, hhead, splitBlanks_token hother]
    rfl
  | cons c token ih =>
    have hc := h c List.mem_cons_self
    rw [List.cons_append, splitBlanks, hc, ih fun d hd => h d (List.mem_cons_of_mem c hd)]
    rfl

section Sample
variable {number : String → Number} {decimal : Number → String}

lemma Written.visible {value : Number} (h : Written number decimal value) :
    ∀ c ∈ (decimal value).toList, isVisible c :=
  fun c hc => visible_of_number (h.text.2 c hc)

lemma Written.notNaN {value : Number} (h : Written number decimal value) :
    value.isNaN = false := by
  have hfinite := h.finite
  cases value with
  | nan => cases hfinite
  | infinity negative => cases hfinite
  | finite value => rfl

/-- The texts of what is not finite have letters no number text has. -/
lemma Written.parseSampleValue {value : Number} (h : Written number decimal value) :
    parseSampleValue number (decimal value) = some value := by
  have hletters : 'f' ∉ (decimal value).toList ∧ 'a' ∉ (decimal value).toList := by
    constructor
    all_goals
      intro hmem
      have hchar := h.text.2 _ hmem
      revert hchar
      decide
  have hne : ∀ text : String, 'f' ∈ text.toList ∨ 'a' ∈ text.toList → decimal value ≠ text := by
    rintro text hmem rfl
    rcases hmem with hmem | hmem
    · exact hletters.1 hmem
    · exact hletters.2 hmem
  have hempty : decimal value ≠ "" := by
    intro hempty
    exact h.text.1 (by rw [hempty]; rfl)
  simp [Prometheus.parseSampleValue, hne "+Inf" (by decide), hne "Inf" (by decide),
    hne "-Inf" (by decide), hne "NaN" (by decide), hne "Nan" (by decide), hne "nan" (by decide),
    hempty, h.notNaN, h.read]

lemma Written.parseTimestamp {ms : ℤ} (hms : 10 ^ 11 ≤ ms)
    (h : Written number decimal (.finite ms)) :
    parseTimestamp number (some (decimal (.finite ms)).toList) = some (some (.finite ms)) := by
  have hlarge : ¬ |(ms : ℚ)| < 10 ^ 11 := by
    have hcast : (10 ^ 11 : ℚ) ≤ ms := by exact_mod_cast hms
    rw [not_lt]
    exact hcast.trans (le_abs_self _)
  have hround : ⌊(ms : ℚ) + 1 / 2⌋ = ms := by
    rw [Int.floor_intCast_add]
    norm_num
  simp only [Prometheus.parseTimestamp, String.ofList_toList, h.read, Number.isNaN,
    Bool.false_eq_true, if_false, normalizeTimestamp, if_neg hlarge, Number.round, hround]

/-- The value and the timestamp of a sample, as they are written. -/
def numbersText (decimal : Number → String) (sample : PromSample) : List Char :=
  (decimal sample.value).toList ++ timestampText decimal sample.timestampMs

lemma numbersText_chars {sample : PromSample} (h : Exposable number decimal sample) :
    ∀ c ∈ numbersText decimal sample, numberChar c ∨ c = ' ' := by
  intro c hc
  rcases List.mem_append.mp hc with hc | hc
  · exact Or.inl (h.value.text.2 c hc)
  · cases htimestamp : sample.timestampMs with
    | none =>
      rw [htimestamp] at hc
      cases hc
    | some timestamp =>
      rw [htimestamp, timestampText] at hc
      rcases List.mem_cons.mp hc with rfl | hc
      · exact Or.inr rfl
      · exact Or.inl ((h.timestamp timestamp htimestamp).1.text.2 c hc)

lemma numbersText_last {sample : PromSample} (h : Exposable number decimal sample) :
    ∀ c ∈ (numbersText decimal sample).getLast?, isTrimmed c = false := by
  intro c hc
  cases htimestamp : sample.timestampMs with
  | none =>
    rw [numbersText, htimestamp, timestampText, List.append_nil] at hc
    exact isTrimmed_of_visible (h.value.visible c (List.mem_of_mem_getLast? hc))
  | some timestamp =>
    have hwritten := (h.timestamp timestamp htimestamp).1
    have htext : numbersText decimal sample =
        ((decimal sample.value).toList ++ [' ']) ++ (decimal timestamp).toList := by
      simp [numbersText, htimestamp, timestampText]
    rw [htext, List.getLast?_append_of_ne_nil _ hwritten.text.1] at hc
    exact isTrimmed_of_visible (hwritten.visible c (List.mem_of_mem_getLast? hc))

lemma trim_numbersText {sample : PromSample} (h : Exposable number decimal sample) :
    trim (' ' :: numbersText decimal sample) = numbersText decimal sample := by
  rw [trim_space]
  apply trim_eq
  · intro c hc
    rw [numbersText, List.head?_append_of_ne_nil _ h.value.text.1] at hc
    exact isTrimmed_of_visible (h.value.visible c (List.mem_of_mem_head? hc))
  · exact numbersText_last h

lemma splitBlanks_numbersText {sample : PromSample} (h : Exposable number decimal sample) :
    splitBlanks (numbersText decimal sample) = (decimal sample.value).toList ::
      (sample.timestampMs.map fun timestamp => (decimal timestamp).toList).toList := by
  have hvalue := fun c hc => isBlank_of_visible (h.value.visible c hc)
  cases htimestamp : sample.timestampMs with
  | none =>
    rw [numbersText, htimestamp, timestampText, List.append_nil, splitBlanks_token hvalue]
    rfl
  | some timestamp =>
    have hwritten := (h.timestamp timestamp htimestamp).1
    rw [numbersText, htimestamp, timestampText, splitBlanks_pair hvalue
      fun c hc => isBlank_of_visible (hwritten.visible c hc)]
    rfl

/-- What follows the name of a sample: its labels, if there are any, and its numbers. -/
lemma labelBlock_cases {sample : PromSample} (h : Exposable number decimal sample)
    (rest : List Char) :
    (labelBlock sample.labels.entries = [] ∧ sample.labels = InsertMap.empty) ∨
      ∃ block, labelBlock sample.labels.entries = '\x7b' :: block ∧
        parseLabels InsertMap.empty (block ++ rest) = some (sample.labels, rest) := by
  have hset := foldl_setLabel fun label hlabel => (h.labels label hlabel).2
  cases hentries : sample.labels.entries with
  | nil => exact Or.inl ⟨rfl, InsertMap.ext_entries hentries⟩
  | cons label more =>
    rw [hentries] at hset
    have hname : ∀ other ∈ label :: more, ValidName isLabelStart other.1.toList := by
      intro other hother
      exact (h.labels other (hentries ▸ hother)).1
    refine Or.inr ⟨_, rfl, ?_⟩
    have hlabel := parseLabels_label (hname label List.mem_cons_self) InsertMap.empty []
      (by simp) (moreLabels more ++ '\x7d' :: rest)
    rw [List.nil_append, parseLabels_more (fun other hother =>
      hname other (List.mem_cons_of_mem _ hother))] at hlabel
    rw [List.append_assoc, List.append_assoc]
    exact hlabel.trans (congrArg (fun labels => some (labels, rest)) hset)

theorem parseSampleLine_sampleLine {sample : PromSample}
    (hname : ValidName isMetricStart sample.name.toList) (h : Exposable number decimal sample) :
    parseSampleLine number (sampleLine decimal sample) = some sample := by
  obtain ⟨rest, hrest⟩ : ∃ rest, rest = ' ' :: numbersText decimal sample := ⟨_, rfl⟩
  have hline : sampleLine decimal sample =
      sample.name.toList ++ (labelBlock sample.labels.entries ++ rest) := by
    rw [hrest]
    rfl
  have hmatch : nameMatch isMetricStart (sampleLine decimal sample) =
      some (sample.name.toList, labelBlock sample.labels.entries ++ rest) := by
    rw [hline]
    apply nameMatch_append hname
    rcases labelBlock_cases h rest with ⟨hblock, -⟩ | ⟨block, hblock, -⟩
    · rw [hblock, hrest]
      simp [goesOn, isMetricStart, isLetter]
    · rw [hblock]
      simp [goesOn, isMetricStart, isLetter]
  have hnumbers : numbersText decimal sample ≠ [] := by
    simp [numbersText, h.value.text.1]
  have hexemplar : (numbersText decimal sample).contains '#' = false := by
    rw [Bool.eq_false_iff, ne_eq, List.contains_iff_mem]
    intro hmem
    have hchar := numbersText_chars h _ hmem
    revert hchar
    decide
  have htimestamp : parseTimestamp number
      (sample.timestampMs.map fun timestamp => (decimal timestamp).toList) =
      some sample.timestampMs := by
    cases hms : sample.timestampMs with
    | none => rfl
    | some timestamp =>
      obtain ⟨hwritten, ms, hlarge, rfl⟩ := h.timestamp timestamp hms
      exact hwritten.parseTimestamp hlarge
  have hempty : (numbersText decimal sample).isEmpty = false := by
    rw [Bool.eq_false_iff, ne_eq, List.isEmpty_iff]
    exact hnumbers
  have htokens : ¬ 2 < (splitBlanks (numbersText decimal sample)).length := by
    rw [splitBlanks_numbersText h]
    cases sample.timestampMs <;> simp
  have hsecond : (splitBlanks (numbersText decimal sample))[1]? =
      sample.timestampMs.map fun timestamp => (decimal timestamp).toList := by
    rw [splitBlanks_numbersText h]
    cases sample.timestampMs <;> rfl
  have hfirst : (splitBlanks (numbersText decimal sample)).head? =
      some (decimal sample.value).toList := by
    rw [splitBlanks_numbersText h]
    rfl
  unfold parseSampleLine
  rw [hmatch]
  simp only [Option.bind_eq_bind, Option.bind_some]
  rcases labelBlock_cases h rest with ⟨hblock, hlabels⟩ | ⟨block, hblock, hlabels⟩
  · rw [hblock, List.nil_append]
    split
    · exact absurd (List.cons.inj hrest).1 (by decide)
    · simp only [hrest, Option.bind_some, trim_numbersText h, hempty, Bool.false_eq_true, if_false,
        hexemplar, hfirst, htokens, String.ofList_toList, h.value.parseSampleValue, hsecond,
        htimestamp, ← hlabels]
  · simp only [hblock, List.cons_append, hlabels]
    simp only [hrest, Option.bind_some, trim_numbersText h, hempty, Bool.false_eq_true, if_false,
      hexemplar, hfirst, htokens, String.ofList_toList, h.value.parseSampleValue, hsecond,
      htimestamp]

end Sample

end Maple.Prometheus
