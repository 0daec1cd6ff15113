import Maple.JsNumber
import Maple.KeyGlob

/-! The checks on a customer's regular expression: what both regex engines accept and what the
preview's engine can match in time. A string is the list of its UTF-16 code units. -/

namespace Maple.IngestRules

/-! ### The engine's regular expressions -/

def high (unit : ℕ) : Bool := 0xD800 ≤ unit && unit < 0xDC00

def low (unit : ℕ) : Bool := 0xDC00 ≤ unit && unit < 0xE000

/-- A surrogate pair starts at the index. -/
def pairAt (text : List ℕ) (index : ℕ) : Bool :=
  text[index]?.any high && text[index + 1]?.any low

/-- The index falls between the two halves of a surrogate pair. -/
def insidePair (text : List ℕ) (index : ℕ) : Bool :=
  decide (0 < index) && pairAt text (index - 1)

structure Span where
  start : ℕ
  stop : ℕ
  deriving DecidableEq, Repr

/-- A compiled expression in unicode mode: where the match that starts at an index ends. -/
structure RegExp where
  matchAt : List ℕ → ℕ → Option ℕ
  whole : ∀ text start stop, matchAt text start = some stop → insidePair text start = false →
    start ≤ stop ∧ stop ≤ text.length ∧ insidePair text stop = false

/-- The character a search from `lastIndex` starts with. -/
def searchStart (text : List ℕ) (lastIndex : ℕ) : ℕ :=
  if insidePair text lastIndex then lastIndex - 1 else lastIndex

/-- The match the expression has from the character at an index. -/
def RegExp.here (regex : RegExp) (text : List ℕ) (index : ℕ) : Option Span :=
  if insidePair text index then none else (regex.matchAt text index).map (⟨index, ·⟩)

/-- The leftmost match from `lastIndex` on. -/
def RegExp.exec (regex : RegExp) (text : List ℕ) (lastIndex : ℕ) : Option Span :=
  if text.length < lastIndex then none
  else
    let first := searchStart text lastIndex
    (List.range' first (text.length + 1 - first)).findSome? (regex.here text)

def RegExp.test (regex : RegExp) (text : List ℕ) : Bool := (regex.exec text 0).isSome

/-- The flags besides `u`. -/
structure RegexFlags where
  globalMatch : Bool
  ignoreCase : Bool
  deriving DecidableEq, Repr

/-- The engine: what it compiles a source to, none where the constructor throws. -/
abbrev Engine := List ℕ → RegexFlags → Option RegExp

/-! ### Atoms and quantifiers -/

/-- `pattern[index] === char` -/
def unitIs (pattern : List ℕ) (index : ℕ) (char : Char) : Bool :=
  pattern[index]? == some char.toNat

/-- `chars.includes(pattern[index])` for an index inside the pattern. -/
def unitIn (pattern : List ℕ) (index : ℕ) (chars : String) : Bool :=
  pattern[index]?.any fun unit => (codeUnits chars).contains unit

def slice (text : List ℕ) (start stop : ℕ) : List ℕ := (text.drop start).take (stop - start)

lemma length_slice (text : List ℕ) (start stop : ℕ) :
    (slice text start stop).length ≤ text.length := by
  simp only [slice, List.length_take, List.length_drop]
  omega

/-- `text.indexOf(char, at)` -/
def indexOf (text : List ℕ) (char : Char) (index : ℕ) : Option ℕ :=
  ((text.drop index).findIdx? (· == char.toNat)).map (index + ·)

def isDigit (unit : ℕ) : Bool := 48 ≤ unit && unit ≤ 57

def number (digits : List ℕ) : ℕ := digits.foldl (fun n digit => 10 * n + (digit - 48)) 0

/-- No `max` is no bound. -/
structure Quantifier where
  min : ℕ
  max : Option ℕ
  length : ℕ
  deriving DecidableEq, Repr

/-- What a counted repetition at the start of the text says, its length included. -/
def counted (text : List ℕ) : Option Quantifier :=
  let least := (text.drop 1).takeWhile isDigit
  let afterLeast := 1 + least.length
  let most := (text.drop (afterLeast + 1)).takeWhile isDigit
  let afterMost := afterLeast + 1 + most.length
  if !unitIs text 0 '\x7b' || least.isEmpty then none
  else if unitIs text afterLeast '\x7d' then
    some ⟨number least, some (number least), afterLeast + 1⟩
  else if unitIs text afterLeast ',' && unitIs text afterMost '\x7d' then
    some ⟨number least, if most.isEmpty then none else some (number most), afterMost + 1⟩
  else none

def quantifierAt (pattern : List ℕ) (index : ℕ) : Option Quantifier :=
  let lazy (length : ℕ) := if unitIs pattern (index + length) '?' then length + 1 else length
  if unitIs pattern index '*' then some ⟨0, none, lazy 1⟩
  else if unitIs pattern index '+' then some ⟨1, none, lazy 1⟩
  else if unitIs pattern index '?' then some ⟨0, some 1, lazy 1⟩
  else
    (counted (pattern.drop index)).map fun quantifier =>
      { quantifier with length := lazy quantifier.length }

/-- The end of the class whose members are read from `index` on: the closing bracket. -/
def classClose (source : List ℕ) (index : ℕ) : ℕ :=
  if h : index < source.length then
    if unitIs source index ']' then index
    else if unitIs source index '\\' then classClose source (index + 2)
    else classClose source (index + 1)
  else index
termination_by source.length - index

lemma le_classClose (source : List ℕ) (index : ℕ) : index ≤ classClose source index := by
  fun_induction classClose source index with
  | case1 => exact le_rfl
  | case2 index _ _ _ ih => omega
  | case3 index _ _ _ ih => omega
  | case4 => exact le_rfl

/-- Past the closing brace; an unclosed one runs to the end. -/
def braceEnd (source : List ℕ) (index : ℕ) : ℕ :=
  match indexOf source '\x7d' index with
  | none => source.length
  | some close => close + 1

/-- The escape at `index` has its argument in braces. -/
def bracedEscape (source : List ℕ) (index : ℕ) : Bool :=
  unitIn source (index + 1) "pPux" && unitIs source (index + 2) '\x7b'

def escapeEnd (source : List ℕ) (index : ℕ) : ℕ :=
  if bracedEscape source index then braceEnd source index
  else if unitIs source (index + 1) 'x' then index + 4
  else if unitIs source (index + 1) 'u' then index + 6
  else index + 2

def classEnd (source : List ℕ) (index : ℕ) : ℕ :=
  classClose source (if unitIs source (index + 1) '^' then index + 2 else index + 1) + 1

lemma lt_classEnd (source : List ℕ) (index : ℕ) : index < classEnd source index := by
  unfold classEnd
  split_ifs
  · have := le_classClose source (index + 2)
    omega
  · have := le_classClose source (index + 1)
    omega

/-- The end of the group read from `index` on, inside `depth` open parentheses. -/
def groupClose (source : List ℕ) (depth index : ℕ) : ℕ :=
  if h : index < source.length then
    if unitIs source index '\\' then groupClose source depth (index + 2)
    else if unitIs source index '[' then groupClose source depth (classEnd source index)
    else if unitIs source index '(' then groupClose source (depth + 1) (index + 1)
    else if unitIs source index ')' then
      if depth - 1 = 0 then index + 1 else groupClose source (depth - 1) (index + 1)
    else groupClose source depth (index + 1)
  else source.length
termination_by source.length - index
decreasing_by
  all_goals
    have := lt_classEnd source index
    omega

/-- The end of the atom at `index`: an escape, a class, a group or one character. -/
def atomEnd (source : List ℕ) (index : ℕ) : ℕ :=
  if unitIs source index '\\' then escapeEnd source index
  else if unitIs source index '[' then classEnd source index
  else if unitIs source index '(' then groupClose source 0 index
  else index + 1

lemma lt_braceEnd (source : List ℕ) (index : ℕ) (hin : index < source.length) :
    index < braceEnd source index := by
  unfold braceEnd
  cases hclose : indexOf source '\x7d' index with
  | none => simpa using hin
  | some close =>
    simp only [indexOf, Option.map_eq_some_iff] at hclose
    obtain ⟨offset, _, hclose⟩ := hclose
    simp only
    omega

lemma lt_escapeEnd (source : List ℕ) (index : ℕ) (hin : index < source.length) :
    index < escapeEnd source index := by
  unfold escapeEnd
  split_ifs
  · exact lt_braceEnd source index hin
  all_goals omega

lemma le_groupClose (source : List ℕ) (depth index : ℕ) :
    min index source.length ≤ groupClose source depth index := by
  fun_induction groupClose source depth index with
  | case2 depth index _ _ _ ih =>
    have := lt_classEnd source index
    omega
  | case1 | case3 | case4 | case5 | case6 | case7 => omega

lemma lt_atomEnd (source : List ℕ) (index : ℕ) (hin : index < source.length) :
    index < atomEnd source index := by
  unfold atomEnd
  split_ifs with hescape hclass hgroup
  · exact lt_escapeEnd source index hin
  · exact lt_classEnd source index
  · rw [groupClose]
    simp only [hin, hescape, hclass, hgroup, dif_pos, if_true, if_false, Bool.false_eq_true]
    have := le_groupClose source (0 + 1) (index + 1)
    omega
  · omega

/-! ### Repeated groups of variable width -/

/-- The index of the next `char`, or the pattern's length. -/
def skipTo (pattern : List ℕ) (char : Char) (index : ℕ) : ℕ :=
  (indexOf pattern char index).getD pattern.length

/-- Whether the groups open around the current atom are variable, the innermost first. -/
def markTop : List Bool → List Bool
  | [] => []
  | _ :: outer => true :: outer

/-- Past the quantifier after an atom; none when a variable group repeats. -/
def afterAtom (pattern : List ℕ) (index : ℕ) (stack : List Bool) (atomVariable : Bool) :
    Option (ℕ × List Bool) :=
  match quantifierAt pattern index with
  | none => some (index, if atomVariable then markTop stack else stack)
  | some quantifier =>
    if atomVariable && quantifier.max.all (1 < ·) then none
    else
      let variableWidth := atomVariable || decide (some quantifier.min ≠ quantifier.max)
      some (index + quantifier.length, if variableWidth then markTop stack else stack)

/-- Past the opening of a group, its name and its flags included. -/
def groupOpen (pattern : List ℕ) (index : ℕ) : ℕ :=
  if unitIs pattern (index + 1) '?' then
    if unitIs pattern (index + 2) '<' && !unitIn pattern (index + 3) "=!" then
      skipTo pattern '>' (index + 2) + 1
    else index + 3
  else index + 1

lemma le_of_afterAtom {pattern : List ℕ} {index next : ℕ} {stack stack' : List Bool}
    {atomVariable : Bool} (hafter : afterAtom pattern index stack atomVariable = some (next, stack')) :
    index ≤ next := by
  unfold afterAtom at hafter
  split at hafter
  · simp only [Option.some.injEq, Prod.mk.injEq] at hafter
    omega
  · split_ifs at hafter
    simp only [Option.some.injEq, Prod.mk.injEq] at hafter
    omega

lemma le_skipTo (pattern : List ℕ) (char : Char) (index : ℕ) :
    min index pattern.length ≤ skipTo pattern char index := by
  unfold skipTo indexOf
  cases (pattern.drop index).findIdx? (· == char.toNat) with
  | none => simp
  | some offset => simp

lemma lt_groupOpen (pattern : List ℕ) (index : ℕ) (hin : index < pattern.length) :
    index < groupOpen pattern index := by
  unfold groupOpen
  split_ifs
  · have := le_skipTo pattern '>' (index + 2)
    omega
  · omega
  · omega

/-- The end of the atom at `index` as the scan for repeated groups reads it, where a class may
start with its own closing bracket. -/
def plainAtomEnd (pattern : List ℕ) (index : ℕ) : ℕ :=
  if unitIs pattern index '\\' then atomEnd pattern index
  else if unitIs pattern index '[' then
    classClose pattern (if unitIs pattern (index + 1) ']' then index + 2 else index + 1) + 1
  else index + 1

lemma lt_plainAtomEnd (pattern : List ℕ) (index : ℕ) (hin : index < pattern.length) :
    index < plainAtomEnd pattern index := by
  unfold plainAtomEnd
  split_ifs
  · exact lt_atomEnd pattern index hin
  · have := le_classClose pattern (index + 2)
    omega
  · have := le_classClose pattern (index + 1)
    omega
  · omega

def repeatedVariableFrom (pattern : List ℕ) (index : ℕ) (stack : List Bool) : Bool :=
  if hin : index < pattern.length then
    if unitIs pattern index '(' then
      have := lt_groupOpen pattern index hin
      repeatedVariableFrom pattern (groupOpen pattern index) (false :: stack)
    else if unitIs pattern index ')' then
      -- a parenthesis that closes nothing leaves the outermost level open
      let closed := if 1 < stack.length then (stack.headD false, stack.tail) else (false, stack)
      match hafter : afterAtom pattern (index + 1) closed.2 closed.1 with
      | none => true
      | some (next, stack) =>
        have := le_of_afterAtom hafter
        repeatedVariableFrom pattern next stack
    else if unitIs pattern index '|' then
      repeatedVariableFrom pattern (index + 1) (markTop stack)
    else
      match hafter : afterAtom pattern (plainAtomEnd pattern index) stack false with
      | none => true
      | some (next, stack) =>
        have := le_of_afterAtom hafter
        have := lt_plainAtomEnd pattern index hin
        repeatedVariableFrom pattern next stack
  else false
termination_by pattern.length - index

/-- A group that repeats contains a repetition of variable width or an alternation, at any
depth. -/
def hasRepeatedVariableGroup (pattern : List ℕ) : Bool := repeatedVariableFrom pattern 0 [false]

/-! ### The source the preview's engine compiles -/

structure SplitFlags where
  source : List ℕ
  ignoreCase : Bool
  deriving DecidableEq, Repr

def splitRegexFlags (pattern : List ℕ) : SplitFlags :=
  if (codeUnits "(?i)").isPrefixOf pattern then ⟨pattern.drop 4, true⟩ else ⟨pattern, false⟩

def WORD : String :=
  "\\p\x7bAlphabetic\x7d\\p\x7bM\x7d\\p\x7bNd\x7d\\p\x7bPc\x7d\\p\x7bJoin_Control\x7d"

def BOUNDARY : String :=
  "(?:(?<=[" ++ WORD ++ "])(?![" ++ WORD ++ "])|(?<![" ++ WORD ++ "])(?=[" ++ WORD ++ "]))"

def NOT_BOUNDARY : String :=
  "(?:(?<=[" ++ WORD ++ "])(?=[" ++ WORD ++ "])|(?<![" ++ WORD ++ "])(?![" ++ WORD ++ "]))"

def SHORTHANDS : List (Char × String) :=
  [('d', "\\p\x7bNd\x7d"), ('D', "\\P\x7bNd\x7d"), ('w', "[" ++ WORD ++ "]"),
    ('W', "[^" ++ WORD ++ "]"), ('s', "\\p\x7bWhite_Space\x7d"), ('S', "\\P\x7bWhite_Space\x7d"),
    ('b', BOUNDARY), ('B', NOT_BOUNDARY)]

def CLASS_SHORTHANDS : List (Char × String) :=
  [('d', "\\p\x7bNd\x7d"), ('w', WORD), ('s', "\\p\x7bWhite_Space\x7d")]

/-- `table.get(text[index] ?? "")` -/
def lookupUnit {α : Type} (table : List (Char × α)) (text : List ℕ) (index : ℕ) : Option α :=
  (table.find? fun entry => unitIs text index entry.1).map (·.2)

def portableFrom (source : List ℕ) (index : ℕ) (inClass : Bool) : Option (List ℕ) :=
  if hin : index < source.length then
    if unitIs source index '\\' then
      if bracedEscape source index then
        have := lt_braceEnd source index hin
        (portableFrom source (braceEnd source index) inClass).map
          (slice source index (braceEnd source index) ++ ·)
      else
        match lookupUnit (if inClass then CLASS_SHORTHANDS else SHORTHANDS) source (index + 1) with
        | some replacement =>
          (portableFrom source (index + 2) inClass).map (codeUnits replacement ++ ·)
        | none =>
          if inClass && unitIn source (index + 1) "DWSbB" then none
          else
            (portableFrom source (index + 2) inClass).map (slice source index (index + 2) ++ ·)
    else if inClass && unitIs source index '[' then none
    else
      let inClass := unitIs source index '[' || inClass && !unitIs source index ']'
      let out := if !inClass && unitIs source index '.' then codeUnits "[^\\n]"
        else slice source index (index + 1)
      (portableFrom source (index + 1) inClass).map (out ++ ·)
  else some []
termination_by source.length - index

/-- The source that matches for the preview what the gateway's engine matches; none for what the
preview's engine cannot express inside a class. -/
def portableRegexSource (source : List ℕ) : Option (List ℕ) := portableFrom source 0 false

/-- The compiled form of a pattern that passed `regexProblem`. -/
def compileIngestRegex (compileRegex : Engine) (pattern : List ℕ) (globalMatch : Bool) :
    Option RegExp :=
  let split := splitRegexFlags pattern
  (portableRegexSource split.source).bind (compileRegex · ⟨globalMatch, split.ignoreCase⟩)

/-! ### The weight of a compiled pattern -/

/-- The source split on `|` outside classes and groups; `start` is where the branch starts. -/
def branchesFrom (source : List ℕ) (index : ℕ) (depth : ℤ) (inClass : Bool) (start : ℕ) :
    List (List ℕ) :=
  if index < source.length then
    if unitIs source index '\\' then branchesFrom source (index + 2) depth inClass start
    else if inClass then branchesFrom source (index + 1) depth (!unitIs source index ']') start
    else if unitIs source index '[' then branchesFrom source (index + 1) depth true start
    else if unitIs source index '(' then branchesFrom source (index + 1) (depth + 1) false start
    else if unitIs source index ')' then branchesFrom source (index + 1) (depth - 1) false start
    else if unitIs source index '|' && decide (depth = 0) then
      slice source start index :: branchesFrom source (index + 1) depth false (index + 1)
    else branchesFrom source (index + 1) depth false start
  else [source.drop start]
termination_by source.length - index

def topLevelBranches (source : List ℕ) : List (List ℕ) := branchesFrom source 0 0 false 0

lemma length_of_mem_branchesFrom {source branch : List ℕ} {index start : ℕ} {depth : ℤ}
    {inClass : Bool} (hmem : branch ∈ branchesFrom source index depth inClass start) :
    branch.length ≤ source.length := by
  fun_induction branchesFrom source index depth inClass start with
  | case6 index depth inClass start _ _ _ _ _ _ _ ih =>
    rcases List.mem_cons.mp hmem with rfl | hmem
    · exact length_slice source start index
    · exact ih hmem
  | case8 index depth inClass start =>
    rw [List.mem_singleton.mp hmem, List.length_drop]
    omega
  | case1 | case2 | case3 | case4 | case5 | case7 =>
    rename_i ih
    exact ih hmem

lemma length_of_mem_topLevelBranches {source branch : List ℕ}
    (hmem : branch ∈ topLevelBranches source) : branch.length ≤ source.length :=
  length_of_mem_branchesFrom hmem

/-- The inside of a group atom. -/
def groupBody (atom : List ℕ) : List ℕ :=
  let start :=
    if (codeUnits "(?").isPrefixOf atom then
      max 2 ((indexOf atom (if unitIs atom 2 '<' then '>' else ':') 0).elim 0 (· + 1))
    else 1
  slice atom start (atom.length - 1)

lemma length_groupBody {branch : List ℕ} {index : ℕ} (hin : index < branch.length) (stop : ℕ) :
    (groupBody (slice branch index stop)).length < branch.length := by
  have := length_slice branch index stop
  simp only [groupBody, slice, List.length_take, List.length_drop] at this ⊢
  omega

/-- Share of the gateway's limit on a compiled expression one copy of an escape takes. -/
def ESCAPE_WEIGHTS : List (Char × ℚ) :=
  [('p', double (1 / 20)), ('P', double (1 / 20)), ('w', double (1 / 20)), ('W', double (1 / 20)),
    ('D', double (1 / 82)), ('d', double (1 / 204)), ('S', double (1 / 544)),
    ('s', double (1 / 1541)), ('b', 0), ('B', 0)]

def LITERAL_WEIGHT : ℚ := double (1 / 10000)

def ANY_WEIGHT : ℚ := double (1 / 1048)

/-- What follows each backslash that escapes a character. -/
def escaped : List ℕ → List (List ℕ)
  | [] => []
  | [_] => []
  | unit :: next :: rest =>
    if unit = '\\'.toNat && !([0x0A, 0x0D, 0x2028, 0x2029].contains next) then
      [next] :: escaped rest
    else escaped (next :: rest)

def atomWeight (atom : List ℕ) : ℚ :=
  if unitIs atom 0 '\\' then (lookupUnit ESCAPE_WEIGHTS atom 1).getD LITERAL_WEIGHT
  else if atom = codeUnits "." then ANY_WEIGHT
  else if !unitIs atom 0 '[' then LITERAL_WEIGHT
  else
    let members := (escaped atom).map fun escape => (lookupUnit ESCAPE_WEIGHTS escape 0).getD 0
    members.foldl max (if unitIs atom 1 '^' then ANY_WEIGHT else double (1 / 3000))

def copies : Option Quantifier → ℕ
  | none => 1
  | some quantifier => quantifier.max.getD (quantifier.min + 1)

mutual

/-- Estimated share of the gateway's limit; copies add up, counted repeats multiply. -/
def compiledRegexWeight (source : List ℕ) : ℚ :=
  (topLevelBranches source).attach.foldl (fun total branch =>
    have := length_of_mem_topLevelBranches branch.2
    double (total + branchWeight branch.1 0 0)) 0
termination_by (source.length, 1, 0)
decreasing_by
  rcases Nat.lt_or_eq_of_le this with hless | heq
  · exact Prod.Lex.left _ _ hless
  · rw [heq]
    exact Prod.Lex.right _ (Prod.Lex.left _ _ Nat.zero_lt_one)

def branchWeight (branch : List ℕ) (index : ℕ) (weight : ℚ) : ℚ :=
  if hin : index < branch.length then
    if unitIs branch index '^' || unitIs branch index '$' then branchWeight branch (index + 1) weight
    else
      let stop := atomEnd branch index
      let atom := slice branch index stop
      let quantifier := quantifierAt branch stop
      have := lt_atomEnd branch index hin
      have := length_groupBody hin stop
      let copy := if unitIs branch index '(' then compiledRegexWeight (groupBody atom)
        else atomWeight atom
      branchWeight branch (stop + (quantifier.map Quantifier.length).getD 0)
        (double (weight + double (copies quantifier * copy)))
  else weight
termination_by (branch.length, 0, branch.length - index)

end

lemma compiledRegexWeight_eq (source : List ℕ) :
    compiledRegexWeight source = (topLevelBranches source).foldl
      (fun total branch => double (total + branchWeight branch 0 0)) 0 := by
  rw [compiledRegexWeight]
  exact List.foldl_attach (f := fun total branch => double (total + branchWeight branch 0 0))

/-! ### Repetitions that can match the same text -/

structure Repetition where
  atom : List ℕ
  min : ℕ
  max : Option ℕ
  /-- A quantified group or an alternation: never counts as a separator. -/
  opaqueGroup : Bool
  deriving DecidableEq, Repr

/-- The text has an unescaped `*` or `+`, or a counted repetition without a bound. -/
def hasUnbounded (body : List ℕ) : Bool :=
  (List.range body.length).any fun index =>
    unitIn body index "*+" && !(decide (0 < index) && unitIs body (index - 1) '\\') ||
      (counted (body.drop index)).any (·.max.isNone)

/-- The atoms of one branch with their repetition; unquantified plain groups are flattened. -/
def repetitions (branch : List ℕ) (index : ℕ) : List Repetition :=
  if hin : index < branch.length then
    if unitIs branch index '^' || unitIs branch index '$' then repetitions branch (index + 1)
    else if unitIs branch index '\\' && unitIn branch (index + 1) "bBAz" then
      repetitions branch (index + 2)
    else
      let stop := atomEnd branch index
      let atom := slice branch index stop
      let quantifier := quantifierAt branch stop
      have := lt_atomEnd branch index hin
      have := length_groupBody hin stop
      let rest := repetitions branch (stop + (quantifier.map Quantifier.length).getD 0)
      if unitIs branch index '(' then
        if quantifier = none ∧ (topLevelBranches (groupBody atom)).length = 1 then
          repetitions (groupBody atom) 0 ++ rest
        else
          let unbounded := hasUnbounded (groupBody atom) || quantifier.any (·.max.isNone)
          ⟨atom, 0, if unbounded then none else some 1, true⟩ :: rest
      else
        ⟨atom, (quantifier.map Quantifier.min).getD 1, quantifier.elim (some 1) Quantifier.max,
          false⟩ :: rest
  else []
termination_by (branch.length, branch.length - index)

/-- Characters tried against two atoms to decide whether both can match the same text. -/
def PROBES : List (List ℕ) :=
  (List.range 95).map (fun index => [32 + index]) ++
    [9, 10, 13, 0xA0, 0x2028, 0x85, 0xE9, 0xDF, 0x436, 0x3A3, 0x17F, 0x212A, 0x130, 0x65E5, 0x663,
      0xB2, 0x1F600, 0x301, 0x200D].map fun code => utf16 (Char.ofNat code)

/-- A character against an atom; an atom that does not compile matches everything. -/
def matcher (compileRegex : Engine) (ignoreCase : Bool) (atom char : List ℕ) : Bool :=
  let source := codeUnits "^(?:" ++ (portableRegexSource atom).getD atom ++ codeUnits ")"
  match compileRegex source ⟨false, ignoreCase⟩ with
  | some regex => regex.test char
  | none => true

def overlap (compileRegex : Engine) (ignoreCase : Bool) (left right : Repetition) : Bool :=
  PROBES.any fun char =>
    matcher compileRegex ignoreCase left.atom char && matcher compileRegex ignoreCase right.atom char

def Repetition.wide (item : Repetition) : Bool :=
  item.max.all fun most => decide (32 < most - item.min)

/-- Two wide repetitions among the items match the same text; `open` are the earlier wide ones no
separator has closed. -/
def ambiguousFrom (overlap : Repetition → Repetition → Bool) :
    List Repetition → List Repetition → Bool
  | _, [] => false
  | openItems, item :: items =>
    if item.wide && openItems.any (overlap · item) then true
    else
      let kept :=
        if 1 ≤ item.min && !item.opaqueGroup then openItems.filter (overlap · item) else openItems
      ambiguousFrom overlap (if item.wide then kept ++ [item] else kept) items

def hasAmbiguousRepetition (compileRegex : Engine) (pattern : List ℕ) : Bool :=
  let split := splitRegexFlags pattern
  (topLevelBranches split.source).any fun branch =>
    ambiguousFrom (overlap compileRegex split.ignoreCase) [] (repetitions branch 0)

/-! ### The checks in order -/

/-- `\b`, `\B`, `^` or `$` carries a quantifier outside a class. -/
def repeatedAssertionFrom (pattern : List ℕ) (index : ℕ) (inClass : Bool) : Bool :=
  let quantified (offset : ℕ) := unitIn pattern (index + offset) "*+?\x7b"
  if index < pattern.length then
    if unitIs pattern index '\\' then
      if !inClass && unitIn pattern (index + 1) "bB" && quantified 2 then true
      else repeatedAssertionFrom pattern (index + 2) inClass
    else if inClass then repeatedAssertionFrom pattern (index + 1) (!unitIs pattern index ']')
    else if unitIs pattern index '[' then
      let negated := if unitIs pattern (index + 1) '^' then index + 1 else index
      let members := if unitIs pattern (negated + 1) ']' then negated + 1 else negated
      repeatedAssertionFrom pattern (members + 1) true
    else if (unitIs pattern index '^' || unitIs pattern index '$') && quantified 1 then true
    else repeatedAssertionFrom pattern (index + 1) false
  else false
termination_by pattern.length - index
decreasing_by all_goals (try split_ifs) <;> omega

def hasRepeatedAssertion (pattern : List ℕ) : Bool := repeatedAssertionFrom pattern 0 false

def isSpace (unit : ℕ) : Bool :=
  [0x9, 0xA, 0xB, 0xC, 0xD, 0x20, 0xA0, 0x1680, 0x2028, 0x2029, 0x202F, 0x205F, 0x3000,
    0xFEFF].contains unit || (0x2000 ≤ unit && unit ≤ 0x200A)

def isFlag (unit : ℕ) : Bool :=
  (65 ≤ unit && unit ≤ 90) || (97 ≤ unit && unit ≤ 122) || unit == '-'.toNat

def lookaround (pattern : List ℕ) (index : ℕ) : Bool :=
  unitIs pattern index '(' && unitIs pattern (index + 1) '?' &&
    (unitIn pattern (index + 2) "=!" ||
      unitIs pattern (index + 2) '<' && unitIn pattern (index + 3) "=!")

def atomicGroup (pattern : List ℕ) (index : ℕ) : Bool :=
  unitIs pattern index '(' && unitIs pattern (index + 1) '?' && unitIs pattern (index + 2) '>'

def backreference (pattern : List ℕ) (index : ℕ) : Bool :=
  unitIs pattern index '\\' &&
    (unitIn pattern (index + 1) "123456789" ||
      unitIs pattern (index + 1) 'k' && unitIs pattern (index + 2) '<')

def possessiveQuantifier (pattern : List ℕ) (index : ℕ) : Bool :=
  !(decide (0 < index) && unitIs pattern (index - 1) '\\') &&
    unitIn pattern index "*+?\x7d" && unitIs pattern (index + 1) '+'

def classSetOperation (pattern : List ℕ) (index : ℕ) : Bool :=
  let inside := (pattern.drop (index + 1)).takeWhile (· != ']'.toNat)
  unitIs pattern index '[' &&
    (List.range inside.length).any fun at' =>
      ['&', '~', '-'].any fun char => unitIs inside at' char && unitIs inside (at' + 1) char

def implicitClass (pattern : List ℕ) (index : ℕ) : Bool :=
  unitIs pattern index '[' && unitIs pattern (index + 1) '^' && unitIs pattern (index + 2) ']' ||
    unitIs pattern index '\\' && unitIn pattern (index + 1) "c0"

def longCount (pattern : List ℕ) (index : ℕ) : Bool :=
  let count := (pattern.drop (index + 1)).dropWhile isSpace
  let least := count.takeWhile isDigit
  let afterLeast := (count.drop least.length).dropWhile isSpace
  let most := ((afterLeast.drop 1).dropWhile isSpace).takeWhile isDigit
  unitIs pattern index '\x7b' &&
    (4 ≤ least.length || !least.isEmpty && unitIs afterLeast 0 ',' && decide (4 ≤ most.length))

def pythonGroup (pattern : List ℕ) (index : ℕ) : Bool :=
  unitIs pattern index '(' && unitIs pattern (index + 1) '?' && unitIs pattern (index + 2) 'P'

/-- Flags in a group, followed by one of `closers`. -/
def flagGroup (pattern : List ℕ) (index : ℕ) (closers : String) : Bool :=
  let flags := (pattern.drop (index + 2)).takeWhile isFlag
  unitIs pattern index '(' && unitIs pattern (index + 1) '?' && !flags.isEmpty &&
    unitIn pattern (index + 2 + flags.length) closers

def laterFlags (pattern : List ℕ) (index : ℕ) : Bool :=
  decide (0 < index) && flagGroup pattern index "):"

def leadingFlags (pattern : List ℕ) (index : ℕ) : Bool :=
  decide (index = 0) && flagGroup pattern index ")" &&
    !(unitIs pattern 2 'i' && unitIs pattern 3 ')')

/-- Constructs one engine supports and the other does not, or that defeat linear-time matching. -/
def UNPORTABLE_REGEX : List ((List ℕ → ℕ → Bool) × String) :=
  [(lookaround, "lookaround is not supported"),
    (atomicGroup, "atomic groups are not supported"),
    (backreference, "backreferences are not supported"),
    (possessiveQuantifier, "possessive quantifiers are not supported"),
    (classSetOperation, "character class set operations are not supported"),
    (implicitClass, "use an explicit class or escape instead"),
    (longCount, "counted repetitions are limited to 999"),
    (pythonGroup, "use (?<name>...) for named groups"),
    (laterFlags, "inline flags are only supported as a leading (?i)"),
    (leadingFlags, "only the (?i) inline flag is supported")]

def unportable (pattern : List ℕ) : Option String :=
  (UNPORTABLE_REGEX.find? fun entry => (List.range pattern.length).any (entry.1 pattern)).map (·.2)

def patternLength : ℕ := 512

/-- None when the pattern is in the subset both engines accept. -/
def regexProblem (compileRegex : Engine) (pattern : List ℕ) : Option String :=
  if pattern.length = 0 then some "pattern is empty"
  else if patternLength < pattern.length then some "pattern is longer than 512 characters"
  else match unportable pattern with
  | some message => some message
  | none =>
    if hasRepeatedAssertion pattern then some "\\b, \\B, ^ and $ cannot be repeated"
    else if portableRegexSource (splitRegexFlags pattern).source = none then
      some ("inside [...], use explicit characters instead of \\D, \\W, \\S, \\b, \\B or a " ++
        "nested [")
    else if hasRepeatedVariableGroup pattern then
      some "a repeated group may not contain a repetition or alternation"
    else match compileIngestRegex compileRegex pattern false with
    | none => some "pattern is not a valid regular expression"
    | some compiled =>
      if double (85 / 100) < compiledRegexWeight (splitRegexFlags pattern).source then
        some ("pattern is too large for the gateway to compile; repeat \\w, \\d or " ++
          "\\p\x7b...\x7d less, or use an ASCII class like [A-Za-z0-9_]")
      else if hasAmbiguousRepetition compileRegex pattern then
        some ("two repetitions that can match the same text need a character neither matches " ++
          "between them (a*a*b is too slow to match)")
      else if compiled.test [] then some "pattern matches empty text"
      else none

end Maple.IngestRules
