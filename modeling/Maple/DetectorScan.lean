import Maple.IngestRegex

/-! The scan a redact rule makes of a text with one regular expression. -/

namespace Maple.IngestRules

/-! ### Searches -/

lemma insidePair_succ (text : List ℕ) (index : ℕ) :
    insidePair text (index + 1) = pairAt text index := by
  simp [insidePair]

lemma low_of_insidePair {text : List ℕ} {index : ℕ} (hinside : insidePair text index = true) :
    0 < index ∧ pairAt text (index - 1) = true := by
  simpa [insidePair] using hinside

/-- Pairs do not overlap. -/
lemma not_inside_of_pairAt {text : List ℕ} {index : ℕ} (hpair : pairAt text index = true) :
    insidePair text index = false ∧ index + 1 < text.length := by
  simp only [pairAt, Bool.and_eq_true, Option.any_eq_true] at hpair
  obtain ⟨⟨first, hfirst, hhigh⟩, second, hsecond, _⟩ := hpair
  constructor
  · cases hinside : insidePair text index with
    | false => rfl
    | true =>
      obtain ⟨hpos, hbefore⟩ := low_of_insidePair hinside
      simp only [pairAt, Bool.and_eq_true, Option.any_eq_true] at hbefore
      obtain ⟨_, second', hsecond', hlow⟩ := hbefore
      rw [Nat.sub_add_cancel hpos, hfirst] at hsecond'
      simp only [high, low, Bool.and_eq_true, decide_eq_true_eq, Option.some.injEq] at *
      omega
  · exact (List.getElem?_eq_some_iff.mp hsecond).1

/-- Where the character after the one at `index` starts. -/
def nextChar (text : List ℕ) (index : ℕ) : ℕ := if pairAt text index then index + 2 else index + 1

section Search
variable (regex : RegExp) (text : List ℕ)

lemma exec_of_length_lt {lastIndex : ℕ} (hpast : text.length < lastIndex) :
    regex.exec text lastIndex = none := by
  simp [RegExp.exec, hpast]

/-- From a character with a match the search finds that match. -/
lemma exec_of_matchAt {index stop : ℕ} (hle : index ≤ text.length)
    (hboundary : insidePair text index = false) (hmatch : regex.matchAt text index = some stop) :
    regex.exec text index = some ⟨index, stop⟩ := by
  have hcount : text.length + 1 - index = text.length - index + 1 := by omega
  simp [RegExp.exec, Nat.not_lt.mpr hle, searchStart, hboundary, hcount, List.range'_succ,
    RegExp.here, hmatch]

/-- From inside a pair the search steps back to the start of the pair. -/
lemma exec_insidePair {index : ℕ} (hpair : pairAt text index = true) :
    regex.exec text (index + 1) = regex.exec text index := by
  obtain ⟨hboundary, hlength⟩ := not_inside_of_pairAt hpair
  have hinside : insidePair text (index + 1) = true := by rw [insidePair_succ, hpair]
  simp [RegExp.exec, Nat.not_lt.mpr (Nat.le_of_lt hlength),
    Nat.not_lt.mpr (show index ≤ text.length by omega), searchStart, hboundary, hinside]

lemma insidePair_nextChar {index : ℕ} (hpair : pairAt text index = true) :
    insidePair text (index + 2) = false := by
  cases hinside : insidePair text (index + 2) with
  | false => rfl
  | true =>
    have hnext : pairAt text (index + 1) = true := by
      rwa [show index + 2 = index + 1 + 1 from rfl, insidePair_succ] at hinside
    have := (not_inside_of_pairAt hnext).1
    rw [insidePair_succ, hpair] at this
    exact absurd this (by decide)

lemma boundary_nextChar {index : ℕ} : insidePair text (nextChar text index) = false := by
  unfold nextChar
  split_ifs with hpair
  · exact insidePair_nextChar text hpair
  · rw [insidePair_succ]
    simpa using hpair

lemma nextChar_le {index : ℕ} (hlt : index < text.length) : nextChar text index ≤ text.length := by
  unfold nextChar
  split_ifs with hpair
  · have := (not_inside_of_pairAt hpair).2
    omega
  · omega

lemma lt_nextChar (index : ℕ) : index < nextChar text index := by
  unfold nextChar
  split_ifs <;> omega

/-- From a character without a match the search goes on at the next one. -/
lemma exec_of_matchAt_none {index : ℕ} (hlt : index < text.length)
    (hboundary : insidePair text index = false) (hmatch : regex.matchAt text index = none) :
    regex.exec text index = regex.exec text (nextChar text index) := by
  have hle := nextChar_le text hlt
  have hcount : text.length + 1 - index = text.length - index + 1 := by omega
  have hhere : regex.here text index = none := by simp [RegExp.here, hmatch]
  have hstart : searchStart text (nextChar text index) = nextChar text index := by
    simp [searchStart, boundary_nextChar]
  have hfirst : searchStart text index = index := by simp [searchStart, hboundary]
  simp only [RegExp.exec, Nat.not_lt.mpr hle, Nat.not_lt.mpr hlt.le, if_false, hstart, hfirst]
  rw [hcount, List.range'_succ, List.findSome?_cons, hhere]
  unfold nextChar at hle ⊢
  split_ifs at hle ⊢ with hpair
  · have hinside : regex.here text (index + 1) = none := by
      simp [RegExp.here, insidePair_succ, hpair]
    have hcount' : text.length - index = text.length + 1 - (index + 2) + 1 := by omega
    rw [hcount', List.range'_succ, List.findSome?_cons, hinside]
  · have hcount' : text.length - index = text.length + 1 - (index + 1) := by omega
    rw [hcount']

lemma exec_at_end {index : ℕ} (heq : index = text.length)
    (hboundary : insidePair text index = false) (hmatch : regex.matchAt text index = none) :
    regex.exec text index = none := by
  simp [RegExp.exec, searchStart, heq, heq ▸ hboundary, RegExp.here, heq ▸ hmatch]

end Search

/-! ### The scan -/

section Scan
variable (regex : RegExp) (text : List ℕ) (accept : List ℕ → ℕ → ℕ → Bool)

/-- The rest of the scan from `lastIndex` with at most `calls` calls of `exec`; none when these do
not end it. -/
def findAllFrom : (calls lastIndex : ℕ) → Option (List Span)
  | 0, _ => none
  | calls + 1, lastIndex =>
    match regex.exec text lastIndex with
    | none => some []
    | some found =>
      if found.stop = found.start then findAllFrom calls (found.start + 1)
      else if accept text found.start found.stop then
        (findAllFrom calls found.stop).map (found :: ·)
      else findAllFrom calls (found.start + 1)

/-- Accepted, non-overlapping matches. -/
def findAll (calls : ℕ) : Option (List Span) := findAllFrom regex text accept calls 0

/-- The match at an index is kept. -/
def Kept (index stop : ℕ) : Prop :=
  regex.matchAt text index = some stop ∧ index < stop ∧ accept text index stop = true

/-- A match at an index is empty or rejected: the scan resumes past it. -/
def Passed (index : ℕ) : Prop :=
  ∃ stop, regex.matchAt text index = some stop ∧ ¬(index < stop ∧ accept text index stop = true)

/-- The characters a reading comes to that goes one character on, or past a match it keeps. -/
inductive Reads : ℕ → Prop
  | start : Reads 0
  | character {index : ℕ} (before : Reads index) (hlt : index < text.length)
      (hkept : ∀ stop, ¬Kept regex text accept index stop) : Reads (nextChar text index)
  | kept {index stop : ℕ} (before : Reads index) (hkept : Kept regex text accept index stop) :
      Reads stop

/-- The spans of a scan: non-empty and accepted matches, disjoint and in ascending order. -/
structure WellFormed (spans : List Span) : Prop where
  nonEmpty : ∀ span ∈ spans, span.start < span.stop ∧ span.stop ≤ text.length
  accepted : ∀ span ∈ spans, accept text span.start span.stop = true
  ascending : spans.Pairwise fun earlier later => earlier.stop ≤ later.start

/-- The scan ends, with well-formed spans. -/
def Scans : Prop :=
  ∃ calls spans, findAll regex text accept calls = some spans ∧ WellFormed text accept spans

variable {regex text accept}

lemma boundary_of_reads {index : ℕ} (hreads : Reads regex text accept index) :
    index ≤ text.length ∧ insidePair text index = false := by
  induction hreads with
  | start => simp [insidePair]
  | character before hlt hkept ih => exact ⟨nextChar_le text hlt, boundary_nextChar text⟩
  | kept before hkept ih =>
    have := regex.whole _ _ _ hkept.1 ih.2
    exact ⟨this.2.1, this.2.2⟩

/-- One call from a kept match. -/
lemma findAllFrom_kept {index stop : ℕ} (hle : index ≤ text.length)
    (hboundary : insidePair text index = false) (hkept : Kept regex text accept index stop)
    (calls : ℕ) :
    findAllFrom regex text accept (calls + 1) index =
      (findAllFrom regex text accept calls stop).map (⟨index, stop⟩ :: ·) := by
  obtain ⟨hmatch, hlt, haccept⟩ := hkept
  rw [findAllFrom, exec_of_matchAt regex text hle hboundary hmatch]
  simp [Nat.ne_of_gt hlt, haccept]

/-- One call from a match that is empty or rejected. -/
lemma findAllFrom_passed {index : ℕ} (hle : index ≤ text.length)
    (hboundary : insidePair text index = false) (hpassed : Passed regex text accept index)
    (calls : ℕ) :
    findAllFrom regex text accept (calls + 1) index =
      findAllFrom regex text accept calls (index + 1) := by
  obtain ⟨stop, hmatch, hnot⟩ := hpassed
  have hwhole := (regex.whole _ _ _ hmatch hboundary).1
  rw [findAllFrom, exec_of_matchAt regex text hle hboundary hmatch]
  by_cases heq : stop = index
  · simp [heq]
  · have hreject : accept text index stop = false := by
      simpa using fun haccept => hnot ⟨by omega, haccept⟩
    simp [heq, hreject]

/-- A search from a character without a match is the search from the next one. -/
lemma findAllFrom_none {index : ℕ} (hlt : index < text.length)
    (hboundary : insidePair text index = false) (hmatch : regex.matchAt text index = none)
    (calls : ℕ) :
    findAllFrom regex text accept calls index =
      findAllFrom regex text accept calls (nextChar text index) := by
  cases calls with
  | zero => rfl
  | succ calls => rw [findAllFrom, findAllFrom,
    exec_of_matchAt_none regex text hlt hboundary hmatch]

lemma kept_or_passed (regex : RegExp) (text : List ℕ) (accept : List ℕ → ℕ → ℕ → Bool)
    (index : ℕ) : regex.matchAt text index = none ∨ (∃ stop, Kept regex text accept index stop) ∨
      Passed regex text accept index := by
  cases hmatch : regex.matchAt text index with
  | none => exact Or.inl rfl
  | some stop =>
    right
    by_cases hkept : index < stop ∧ accept text index stop = true
    · exact Or.inl ⟨stop, hmatch, hkept⟩
    · exact Or.inr ⟨stop, hmatch, hkept⟩

lemma Passed.not_kept {index : ℕ} (hpassed : Passed regex text accept index) (stop : ℕ) :
    ¬Kept regex text accept index stop := by
  obtain ⟨stop', hmatch, hnot⟩ := hpassed
  intro hkept
  have : stop' = stop := by simpa [hkept.1, eq_comm] using hmatch
  exact hnot (this ▸ hkept.2)

/-! ### Where the scan never ends -/

/-- At a pair with a match it passes the scan comes back to the same pair for ever. -/
lemma findAllFrom_pair {index : ℕ} (hpair : pairAt text index = true)
    (hpassed : Passed regex text accept index) (calls : ℕ) :
    findAllFrom regex text accept calls index = none ∧
      findAllFrom regex text accept calls (index + 1) = none := by
  obtain ⟨hboundary, hlength⟩ := not_inside_of_pairAt hpair
  induction calls with
  | zero => exact ⟨rfl, rfl⟩
  | succ calls ih =>
    have hsame : findAllFrom regex text accept (calls + 1) (index + 1) =
        findAllFrom regex text accept (calls + 1) index := by
      rw [findAllFrom, findAllFrom, exec_insidePair regex text hpair]
    rw [hsame, findAllFrom_passed (by omega) hboundary hpassed calls]
    exact ⟨ih.2, ih.2⟩

/-- A scan that ends from the start of a text ends from every character its reading comes to. -/
lemma ends_of_reads {index : ℕ} (hreads : Reads regex text accept index)
    (hends : ∃ calls, (findAllFrom regex text accept calls 0).isSome) :
    ∃ calls, (findAllFrom regex text accept calls index).isSome := by
  induction hreads with
  | start => exact hends
  | @character index before hlt hkept ih =>
    obtain ⟨calls, hcalls⟩ := ih
    have hboundary := (boundary_of_reads before).2
    rcases kept_or_passed regex text accept index with hnone | ⟨stop, hstop⟩ | hpassed
    · exact ⟨calls, by rwa [findAllFrom_none hlt hboundary hnone] at hcalls⟩
    · exact absurd hstop (hkept stop)
    · cases calls with
      | zero => simp [findAllFrom] at hcalls
      | succ calls =>
        rw [findAllFrom_passed hlt.le hboundary hpassed] at hcalls
        by_cases hpair : pairAt text index = true
        · simp [(findAllFrom_pair hpair hpassed calls).2] at hcalls
        · exact ⟨calls, by simpa [nextChar, hpair] using hcalls⟩
  | @kept index stop before hkept ih =>
    obtain ⟨calls, hcalls⟩ := ih
    obtain ⟨hle, hboundary⟩ := boundary_of_reads before
    cases calls with
    | zero => simp [findAllFrom] at hcalls
    | succ calls =>
      rw [findAllFrom_kept hle hboundary hkept] at hcalls
      exact ⟨calls, by simpa using hcalls⟩

/-! ### Where it ends -/

/-- Prepending a kept match to spans that all start behind it. -/
lemma WellFormed.cons {index stop : ℕ} {spans : List Span} (hkept : Kept regex text accept index stop)
    (hle : stop ≤ text.length) (hspans : WellFormed text accept spans)
    (hbehind : ∀ span ∈ spans, stop ≤ span.start) :
    WellFormed text accept (⟨index, stop⟩ :: spans) where
  nonEmpty := by
    intro span hspan
    rcases List.mem_cons.mp hspan with rfl | hspan
    · exact ⟨hkept.2.1, hle⟩
    · exact hspans.nonEmpty span hspan
  accepted := by
    intro span hspan
    rcases List.mem_cons.mp hspan with rfl | hspan
    · exact hkept.2.2
    · exact hspans.accepted span hspan
  ascending := List.pairwise_cons.mpr ⟨hbehind, hspans.ascending⟩

lemma WellFormed.nil : WellFormed text accept [] := ⟨by simp, by simp, List.Pairwise.nil⟩

lemma ends_from {index : ℕ} (hreads : Reads regex text accept index)
    (hpairs : ∀ index, Reads regex text accept index → pairAt text index = true →
      ¬Passed regex text accept index) :
    ∃ calls spans, findAllFrom regex text accept calls index = some spans ∧
      WellFormed text accept spans ∧ ∀ span ∈ spans, index ≤ span.start := by
  obtain ⟨hle, hboundary⟩ := boundary_of_reads hreads
  induction hleft : text.length - index using Nat.strong_induction_on generalizing index with
  | _ left ih =>
    rcases kept_or_passed regex text accept index with hnone | ⟨stop, hkept⟩ | hpassed
    · rcases Nat.eq_or_lt_of_le hle with heq | hlt
      · refine ⟨1, [], ?_, WellFormed.nil, by simp⟩
        rw [findAllFrom, exec_at_end regex text heq hboundary hnone]
      · have hnext := lt_nextChar text index
        have hreads' : Reads regex text accept (nextChar text index) :=
          Reads.character hreads hlt fun stop hkept => by simp [hkept.1] at hnone
        obtain ⟨calls, spans, hscan, hspans, hbehind⟩ := ih _ (by omega) hreads'
          (nextChar_le text hlt) (boundary_nextChar text) rfl
        refine ⟨calls, spans, ?_, hspans, fun span hspan => ?_⟩
        · rwa [findAllFrom_none hlt hboundary hnone]
        · have := hbehind span hspan
          omega
    · have hwhole := regex.whole _ _ _ hkept.1 hboundary
      have hlt := hkept.2.1
      obtain ⟨calls, spans, hscan, hspans, hbehind⟩ := ih _ (by omega) (Reads.kept hreads hkept)
        hwhole.2.1 hwhole.2.2 rfl
      refine ⟨calls + 1, ⟨index, stop⟩ :: spans, ?_, hspans.cons hkept hwhole.2.1 hbehind, ?_⟩
      · simp [findAllFrom_kept hle hboundary hkept, hscan]
      · intro span hspan
        rcases List.mem_cons.mp hspan with rfl | hspan
        · exact le_rfl
        · have := hbehind span hspan
          omega
    · have hpair : pairAt text index = false := by
        simpa using fun hpair => hpairs index hreads hpair hpassed
      rcases Nat.eq_or_lt_of_le hle with heq | hlt
      · refine ⟨2, [], ?_, WellFormed.nil, by simp⟩
        rw [findAllFrom_passed hle hboundary hpassed, findAllFrom,
          exec_of_length_lt regex text (by omega)]
      · have hnext : nextChar text index = index + 1 := by simp [nextChar, hpair]
        have hreads' : Reads regex text accept (index + 1) :=
          hnext ▸ Reads.character hreads hlt hpassed.not_kept
        obtain ⟨calls, spans, hscan, hspans, hbehind⟩ := ih _ (by omega) hreads' (by omega)
          (by rw [insidePair_succ, hpair]) rfl
        refine ⟨calls + 1, spans, ?_, hspans, fun span hspan => ?_⟩
        · rwa [findAllFrom_passed hle hboundary hpassed]
        · have := hbehind span hspan
          omega

end Scan

/-- The scan ends, with well-formed spans, exactly where its reading comes to no surrogate pair at
which the expression has a match that is empty or rejected. -/
theorem scan_ends_without_passed_pair (regex : RegExp) (text : List ℕ)
    (accept : List ℕ → ℕ → ℕ → Bool) :
    Scans regex text accept ↔
      ∀ index, Reads regex text accept index → pairAt text index = true →
        ¬Passed regex text accept index := by
  constructor
  · intro ⟨calls, spans, hscan, _⟩ index hreads hpair hpassed
    have hends : ∃ calls, (findAllFrom regex text accept calls 0).isSome :=
      ⟨calls, by simp [findAll] at hscan; simp [hscan]⟩
    obtain ⟨calls, hcalls⟩ := ends_of_reads hreads hends
    simp [(findAllFrom_pair hpair hpassed calls).1] at hcalls
  · intro hpairs
    obtain ⟨calls, spans, hscan, hspans, _⟩ := ends_from Reads.start hpairs
    exact ⟨calls, spans, hscan, hspans⟩

/-! ### A bare word boundary -/

/-- The word characters of the text below, where the boundary of a word is. -/
def wordAt (text : List ℕ) (index : ℕ) : Bool :=
  text[index]?.any fun unit =>
    isDigit unit || (65 ≤ unit && unit ≤ 90) || (97 ≤ unit && unit ≤ 122) || unit == '_'.toNat

/-- What the portable source of `\b` matches: empty text between a word character and another. -/
def wordBoundary : RegExp where
  matchAt text index :=
    if index ≤ text.length ∧ (decide (0 < index) && wordAt text (index - 1)) ≠ wordAt text index
    then some index else none
  whole := by
    intro text start stop hmatch hboundary
    split_ifs at hmatch with hhere
    obtain rfl := Option.some.inj hmatch
    exact ⟨le_rfl, hhere.1, hboundary⟩

/-- An engine as far as it compiles that source. -/
def boundaryEngine : Engine := fun source _ =>
  if source = codeUnits BOUNDARY then some wordBoundary else none

/-- The code units of the pattern `\b` and of the text "a😀". -/
def boundaryPattern : List ℕ := codeUnits "\\b"

def wordBeforePair : List ℕ := [0x61, 0xD83D, 0xDE00]

lemma boundaryPattern_assertion : hasRepeatedAssertion boundaryPattern = false := by
  rw [hasRepeatedAssertion, repeatedAssertionFrom, repeatedAssertionFrom]
  decide

lemma boundaryPattern_group : hasRepeatedVariableGroup boundaryPattern = false := by
  have hafter : afterAtom boundaryPattern (plainAtomEnd boundaryPattern 0) [false] false =
      some (2, [false]) := by decide
  rw [hasRepeatedVariableGroup, repeatedVariableFrom, dif_pos (by decide),
    if_neg (by decide), if_neg (by decide), if_neg (by decide)]
  split
  · simp_all
  · rename_i next stack hnext
    obtain ⟨rfl, rfl⟩ : next = 2 ∧ stack = [false] := by simpa [hafter, eq_comm] using hnext
    rw [repeatedVariableFrom, dif_neg (by decide)]

lemma boundaryPattern_source : portableRegexSource boundaryPattern = some (codeUnits BOUNDARY) := by
  have hlookup : lookupUnit SHORTHANDS boundaryPattern 1 = some BOUNDARY := by rfl
  have hend : portableFrom boundaryPattern 2 false = some [] := by
    rw [portableFrom, dif_neg (by decide)]
  rw [portableRegexSource, portableFrom, dif_pos (by decide), if_pos (by decide),
    if_neg (by decide)]
  simp [hlookup, hend]

lemma boundaryPattern_branches : topLevelBranches boundaryPattern = [boundaryPattern] := by
  rw [topLevelBranches, branchesFrom, branchesFrom]
  decide

lemma boundaryPattern_repetitions : repetitions boundaryPattern 0 = [] := by
  rw [repetitions, dif_pos (by decide), if_neg (by decide),
    if_pos (by decide), repetitions, dif_neg (by decide)]

lemma boundaryPattern_weight : compiledRegexWeight boundaryPattern = 0 := by
  have hbranch : branchWeight boundaryPattern 0 0 = 0 := by
    have hstop : atomEnd boundaryPattern 0 = 2 := by decide
    have hnone : quantifierAt boundaryPattern 2 = none := by decide
    have hatom : atomWeight (slice boundaryPattern 0 2) = 0 := by decide
    rw [branchWeight, dif_pos (by decide), if_neg (by decide)]
    simp only [hstop, hnone, hatom]
    rw [branchWeight, dif_neg (by decide)]
    with_unfolding_all decide
  rw [compiledRegexWeight_eq, boundaryPattern_branches]
  simp [hbranch, double]

lemma boundaryPattern_compiles (globalMatch : Bool) :
    compileIngestRegex boundaryEngine boundaryPattern globalMatch = some wordBoundary := by
  have hsplit : splitRegexFlags boundaryPattern = ⟨boundaryPattern, false⟩ := by decide
  have hsource : (splitRegexFlags boundaryPattern).source = boundaryPattern := by rw [hsplit]
  rw [compileIngestRegex, hsource, boundaryPattern_source, Option.bind_some]
  exact if_pos rfl

/-- The pattern passes every check. -/
theorem boundaryPattern_passes : regexProblem boundaryEngine boundaryPattern = none := by
  have hsplit : splitRegexFlags boundaryPattern = ⟨boundaryPattern, false⟩ := by decide
  have hambiguous : hasAmbiguousRepetition boundaryEngine boundaryPattern = false := by
    simp [hasAmbiguousRepetition, hsplit, boundaryPattern_branches, boundaryPattern_repetitions,
      ambiguousFrom]
  have hunportable : unportable boundaryPattern = none := by decide
  have hlength : boundaryPattern.length = 2 := by decide
  have hbound : ¬double (85 / 100) < 0 := by with_unfolding_all decide
  have hempty : wordBoundary.test [] = false := by decide
  simp [regexProblem, hlength, patternLength, hunportable, boundaryPattern_assertion, hsplit,
    boundaryPattern_source, boundaryPattern_group, boundaryPattern_compiles,
    boundaryPattern_weight, hbound, hambiguous, hempty]

/-- The boundary behind a word that a surrogate pair follows holds the scan for ever. -/
theorem word_boundary_scan_never_ends :
    ¬∀ (compileRegex : Engine) (pattern : List ℕ) (regex : RegExp),
      regexProblem compileRegex pattern = none →
      compileIngestRegex compileRegex pattern true = some regex →
      ∀ (text : List ℕ) (accept : List ℕ → ℕ → ℕ → Bool), Scans regex text accept := by
  intro hall
  obtain ⟨calls, spans, hscan, _⟩ := hall boundaryEngine boundaryPattern wordBoundary
    boundaryPattern_passes (boundaryPattern_compiles true) wordBeforePair fun _ _ _ => true
  have hreads : Reads wordBoundary wordBeforePair (fun _ _ _ => true) 1 :=
    Reads.character Reads.start (by decide) fun stop ⟨hmatch, hlt, _⟩ => by
      have : wordBoundary.matchAt wordBeforePair 0 = some 0 := by decide
      rw [this, Option.some.injEq] at hmatch
      omega
  obtain ⟨calls, hcalls⟩ := ends_of_reads hreads ⟨calls, by rw [findAll] at hscan; simp [hscan]⟩
  have hpassed : Passed wordBoundary wordBeforePair (fun _ _ _ => true) 1 :=
    ⟨1, by decide, by simp⟩
  simp [(findAllFrom_pair (by decide) hpassed calls).1] at hcalls

end Maple.IngestRules
