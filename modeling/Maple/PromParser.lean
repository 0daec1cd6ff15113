import Maple.PromOtlp
import Maple.SafeFetch

/-! The parser of the Prometheus text format. A text is the list of its characters; the built-in
`Number` of a text is a parameter. -/

namespace Maple.Prometheus
open SafeFetch (isTrimmed)

structure PromParseResult where
  families : List PromMetricFamily
  skippedLineCount : ℕ

def trimStart (text : List Char) : List Char := text.dropWhile isTrimmed

def trim (text : List Char) : List Char := ((trimStart text).reverse.dropWhile isTrimmed).reverse

def isLetter (c : Char) : Bool := ('a' ≤ c && c ≤ 'z') || ('A' ≤ c && c ≤ 'Z')

def isMetricStart (c : Char) : Bool := isLetter c || c = '_' || c = ':'

def isLabelStart (c : Char) : Bool := isLetter c || c = '_'

/-- The longest name at the front of a text, and what follows it. -/
def nameMatch (starts : Char → Bool) : List Char → Option (List Char × List Char)
  | [] => none
  | c :: rest =>
    if !starts c then none
    else
      let goesOn (d : Char) : Bool := starts d || d.isDigit
      some (c :: rest.takeWhile goesOn, rest.dropWhile goesOn)

/-- A backslash before another character stays. -/
def unescapeValue : List Char → List Char
  | [] => []
  | '\\' :: '\\' :: rest => '\\' :: unescapeValue rest
  | '\\' :: 'n' :: rest => '\n' :: unescapeValue rest
  | '\\' :: '"' :: rest => '"' :: unescapeValue rest
  | c :: rest => c :: unescapeValue rest

section Parser
variable (number : String → Number)

def parseSampleValue (token : String) : Option Number :=
  if ["+Inf", "Inf"].contains token then some (.infinity false)
  else if token = "-Inf" then some (.infinity true)
  else if ["NaN", "Nan", "nan"].contains token then some .nan
  else if token = "" then none
  else
    let value := number token
    if value.isNaN then none else some value

/-- Below 1e11 a timestamp counts seconds. -/
def normalizeTimestamp (raw : Number) : Number :=
  match raw with
  | .finite value => if |value| < 10 ^ 11 then (Number.nearest (value * 1000)).round else raw.round
  | _ => raw.round

def isBlank (c : Char) : Bool := c = ' ' || c = '\t'

/-- The text up to the closing quote, escapes as they stand, and what follows. -/
def quotedValue : List Char → Option (List Char × List Char)
  | [] => none
  | '\\' :: [] => none
  | '\\' :: c :: rest => (quotedValue rest).map fun (raw, after) => ('\\' :: c :: raw, after)
  | '"' :: rest => some ([], rest)
  | c :: rest => (quotedValue rest).map fun (raw, after) => (c :: raw, after)

/-- One label: its name, its value, and what follows them. -/
def parseLabel (text : List Char) : Option (String × String × List Char) := do
  let (name, rest) ← nameMatch isLabelStart text
  let '=' :: rest := rest.dropWhile isBlank | none
  let '"' :: rest := rest.dropWhile isBlank | none
  let (raw, rest) ← quotedValue rest
  some (String.ofList name, String.ofList (unescapeValue raw), rest)

lemma length_dropWhile_le (p : Char → Bool) (text : List Char) :
    (text.dropWhile p).length ≤ text.length :=
  (List.dropWhile_sublist p).length_le

lemma length_nameMatch {starts : Char → Bool} {text name rest : List Char}
    (h : nameMatch starts text = some (name, rest)) : rest.length < text.length := by
  cases text with
  | nil => simp [nameMatch] at h
  | cons c text =>
    simp only [nameMatch, Option.ite_none_left_eq_some, Option.some.injEq, Prod.mk.injEq] at h
    rw [← h.2.2, List.length_cons]
    exact Nat.lt_succ_of_le (length_dropWhile_le _ text)

lemma length_quotedValue {text raw rest : List Char} (h : quotedValue text = some (raw, rest)) :
    rest.length < text.length := by
  fun_induction quotedValue text generalizing raw rest with
  | case1 => simp at h
  | case2 => simp at h
  | case3 c text ih =>
    obtain ⟨⟨raw', rest'⟩, hrest, heq⟩ := Option.map_eq_some_iff.mp h
    have hlt := ih hrest
    simp only [Prod.mk.injEq] at heq
    rw [← heq.2, List.length_cons, List.length_cons]
    omega
  | case4 text =>
    simp only [Option.some.injEq, Prod.mk.injEq] at h
    rw [← h.2, List.length_cons]
    omega
  | case5 c text _ _ _ ih =>
    obtain ⟨⟨raw', rest'⟩, hrest, heq⟩ := Option.map_eq_some_iff.mp h
    have hlt := ih hrest
    simp only [Prod.mk.injEq] at heq
    rw [← heq.2, List.length_cons]
    omega

lemma length_parseLabel {text rest : List Char} {name value : String}
    (h : parseLabel text = some (name, value, rest)) : rest.length < text.length := by
  unfold parseLabel at h
  simp only [Option.bind_eq_bind, Option.bind_eq_some_iff] at h
  obtain ⟨⟨label, afterName⟩, hname, h⟩ := h
  have hlabel := length_nameMatch hname
  have hblank := length_dropWhile_le isBlank afterName
  split at h
  · rename_i afterEquals hequals
    have hblank' := length_dropWhile_le isBlank afterEquals
    rw [hequals, List.length_cons] at hblank
    split at h
    · rename_i afterQuote hquote
      rw [hquote, List.length_cons] at hblank'
      obtain ⟨⟨raw, afterValue⟩, hraw, h⟩ := Option.bind_eq_some_iff.mp h
      have hvalue := length_quotedValue hraw
      simp only [Option.some.injEq, Prod.mk.injEq] at h
      rw [← h.2.2]
      omega
    · simp at h
  · simp at h

/-- Assigning to `__proto__` sets no key of its own. -/
def setLabel (labels : Labels) (name value : String) : Labels :=
  if name = "__proto__" then labels else labels.set name value

/-- The labels up to the closing brace, and what follows it. -/
def parseLabels (labels : Labels) (text : List Char) : Option (Labels × List Char) :=
  match htext : text.dropWhile fun c => isBlank c || c = ',' with
  | [] => none
  | '\x7d' :: rest => some (labels, rest)
  | c :: rest =>
    match hlabel : parseLabel (c :: rest) with
    | none => none
    | some (name, value, after) => parseLabels (setLabel labels name value) after
termination_by text.length
decreasing_by
  have hlt := length_parseLabel hlabel
  have hle := length_dropWhile_le (fun c => isBlank c || c = ',') text
  rw [htext] at hle
  omega

/-- The parts of a text between runs of blanks. -/
def splitBlanks : List Char → List (List Char)
  | [] => [[]]
  | c :: rest =>
    if !isBlank c then
      match splitBlanks rest with
      | [] => [[c]]
      | token :: tokens => (c :: token) :: tokens
    else if rest.head?.any isBlank then splitBlanks rest
    else [] :: splitBlanks rest

/-- The timestamp of a sample line, which may have none. -/
def parseTimestamp : Option (List Char) → Option (Option Number)
  | none => some none
  | some token =>
    let raw := number (String.ofList token)
    if raw.isNaN then none else some (some (normalizeTimestamp raw))

def parseSampleLine (line : List Char) : Option PromSample := do
  let (name, rest) ← nameMatch isMetricStart line
  let (labels, rest) ← match rest with
    | '\x7b' :: block => parseLabels InsertMap.empty block
    | _ => some (InsertMap.empty, rest)
  let rest := trim rest
  if rest.isEmpty then none
  else
    -- an exemplar follows a `#`, which is in no value or timestamp
    let rest := if rest.contains '#' then trim (rest.takeWhile (· ≠ '#')) else rest
    let tokens := splitBlanks rest
    let valueToken ← tokens.head?
    if 2 < tokens.length then none
    else
      let value ← parseSampleValue number (String.ofList valueToken)
      let timestampMs ← parseTimestamp number tokens[1]?
      some { name := String.ofList name, labels, value, timestampMs }

/-! ### Families -/

abbrev FamilyMap := InsertMap String PromMetricFamily

def COMPONENT_SUFFIXES : List String := ["_bucket", "_count", "_sum", "_total"]

/-- The name without a suffix it ends with. -/
def withoutSuffix (name suffix : String) : Option String :=
  if suffix.toList.isSuffixOf name.toList then
    some (String.ofList (name.toList.take (name.length - suffix.length)))
  else none

def familyForSample (families : FamilyMap) (sampleName : String) : Option PromMetricFamily :=
  (families.get sampleName).or <| COMPONENT_SUFFIXES.findSome? fun suffix =>
    (withoutSuffix sampleName suffix).bind families.get

/-- Unknown types are untyped. No other character is the upper case of one of these letters. -/
def parseType (raw : List Char) : PromMetricType :=
  match String.ofList (raw.map Char.toLower) with
  | "counter" => .counter
  | "gauge" => .gauge
  | "histogram" => .histogram
  | "summary" => .summary
  | _ => .untyped

structure ParserState where
  families : FamilyMap := InsertMap.empty
  skippedLineCount : ℕ := 0

def ensureFamily (families : FamilyMap) (name : String) : PromMetricFamily :=
  (families.get name).getD
    { name, type := .untyped, help := none, unit := none, samples := [] }

def ParserState.setFamily (state : ParserState) (family : PromMetricFamily) : ParserState :=
  { state with families := state.families.set family.name family }

def ParserState.skip (state : ParserState) : ParserState :=
  { state with skippedLineCount := state.skippedLineCount + 1 }

def startsWith (text : List Char) (start : String) : Bool := start.toList.isPrefixOf text

/-- Other comments are ignored. -/
def readComment (state : ParserState) (comment : List Char) : ParserState :=
  let rest := comment.drop 5
  if startsWith comment "TYPE " then
    match nameMatch isMetricStart (trim rest) with
    | none => state.skip
    | some (name, after) =>
      let family := ensureFamily state.families (String.ofList name)
      state.setFamily { family with type := parseType (trim after) }
  else if startsWith comment "HELP " then
    match nameMatch isMetricStart (trimStart rest) with
    | none => state.skip
    | some (name, after) =>
      let family := ensureFamily state.families (String.ofList name)
      let help := String.ofList (unescapeValue (trimStart after))
      state.setFamily { family with help := some help }
  else if startsWith comment "UNIT " then
    match nameMatch isMetricStart (trim rest) with
    | none => state
    | some (name, after) =>
      let family := ensureFamily state.families (String.ofList name)
      let unit := trim after
      state.setFamily
        { family with unit := if unit.isEmpty then none else some (String.ofList unit) }
  else state

def readSample (state : ParserState) (sample : PromSample) : ParserState :=
  let created := (withoutSuffix sample.name "_created").bind (familyForSample state.families)
  if created.isSome then state
  else
    let family := (familyForSample state.families sample.name).getD
      (ensureFamily state.families sample.name)
    state.setFamily { family with samples := family.samples ++ [sample] }

def readLine (state : ParserState) (rawLine : List Char) : ParserState :=
  let line := trim (if rawLine.getLast? = some '\r' then rawLine.dropLast else rawLine)
  match line with
  | [] => state
  | '#' :: comment => readComment state (trim comment)
  | _ =>
    match parseSampleLine number line with
    | none => state.skip
    | some sample => readSample state sample

def parsePrometheusText (body : String) : PromParseResult :=
  let state := (body.toList.splitOn '\n').foldl (readLine number) {}
  { families := state.families.values.filter fun family => !family.samples.isEmpty
    skippedLineCount := state.skippedLineCount }

end Parser

end Maple.Prometheus
