import Maple.SafeFetch
import Mathlib.Tactic

/-! The where-clause grammar. A text is the list of its characters. -/

namespace Maple.WhereClause
open SafeFetch (isTrimmed)

abbrev Text := List Char

inductive Operator
  | eq
  | ne
  | gt
  | lt
  | ge
  | le
  | contains
  | notContains
  | «exists»
  | notExists
deriving DecidableEq, Repr

def Operator.text : Operator → String
  | .eq => "="
  | .ne => "!="
  | .gt => ">"
  | .lt => "<"
  | .ge => ">="
  | .le => "<="
  | .contains => "contains"
  | .notContains => "!contains"
  | .exists => "exists"
  | .notExists => "!exists"

structure ParsedClause where
  key : Text
  /-- The key as typed. -/
  rawKey : Text
  operator : Operator
  value : Text
deriving DecidableEq, Repr

structure WhereClauseParseWarning where
  message : String
  clause : Text
deriving DecidableEq, Repr

def trim (text : Text) : Text :=
  ((text.dropWhile isTrimmed).reverse.dropWhile isTrimmed).reverse

def toLowerCase (text : Text) : Text := text.map Char.toLower

/-! ### Splitting -/

def isQuote (c : Char) : Bool := c = '"' || c = '\''

/-- The word at the front of a text, whatever its case, and what follows it. -/
def afterWord (word : String) (text : Text) : Option Text :=
  if toLowerCase (text.take word.length) = word.toList then some (text.drop word.length) else none

/-- What follows some white space, of which there must be some. -/
def afterSpace (text : Text) : Option Text :=
  if text.head?.any isTrimmed then some (text.dropWhile isTrimmed) else none

/-- What follows the keyword between white space. -/
def afterSeparator (keyword : String) (text : Text) : Option Text :=
  ((afterSpace text).bind (afterWord keyword)).bind afterSpace

structure SplitState where
  depth : ℕ := 0
  quote : Option Char := none
  /-- The text from `start` on. -/
  part : Text := []

def splitsAt (c : Char) : Bool := c = ' ' || c = '\t' || c = '\n' || c = '\r'

/-- What a character that splits nothing does. -/
def SplitState.read (state : SplitState) (c : Char) : SplitState :=
  let part := state.part ++ [c]
  match state.quote with
  | some quote => { state with quote := if c = quote then none else some quote, part }
  | none =>
    if isQuote c then { state with quote := some c, part }
    else if c = '(' then { state with depth := state.depth + 1, part }
    else if c = ')' then { state with depth := state.depth - 1, part }
    else { state with part }

/-- The separator at the front of a text, where one splits. -/
def SplitState.separator (keyword : String) (state : SplitState) : Text → Option Text
  | [] => none
  | c :: rest =>
    if state.quote = none ∧ state.depth = 0 ∧ splitsAt c then afterSeparator keyword (c :: rest)
    else none

/-- The parts of a text; the first `skip` characters belong to a separator. -/
def splitLoop (keyword : String) : ℕ → SplitState → Text → List Text
  | _, state, [] => [state.part]
  | skip + 1, state, _ :: rest => splitLoop keyword skip state rest
  | 0, state, c :: rest =>
    match state.separator keyword (c :: rest) with
    | none => splitLoop keyword 0 (state.read c) rest
    | some after => state.part :: splitLoop keyword (rest.length - after.length) {} rest

def splitOnKeyword (expression : Text) (keyword : String) : List Text :=
  ((splitLoop keyword 0 {} expression).map trim).filter fun part => !part.isEmpty

def quoteWhereValue (value : Text) : Text :=
  if !value.contains '"' then '"' :: (value ++ ['"'])
  else if !value.contains '\'' then '\'' :: (value ++ ['\''])
  else '"' :: (value ++ ['"'])

/-! ### One clause -/

def unsupported (part : Text) : WhereClauseParseWarning where
  message := "Unsupported clause syntax ignored: " ++ String.ofList part
  clause := part

def isKeyChar (c : Char) : Bool :=
  ('a' ≤ c && c ≤ 'z') || ('A' ≤ c && c ≤ 'Z') || c.isDigit || c = '_' || c = '.' || c = '-'

/-- The key at the front of a clause, and what follows it. -/
def keyMatch (part : Text) : Option (Text × Text) :=
  let key := part.takeWhile isKeyChar
  if key.isEmpty then none else some (key, part.dropWhile isKeyChar)

/-- The text between two quotes, where the second ends the clause. -/
def quotedMatch (quote : Char) (text : Text) : Option Text :=
  match text with
  | [] => none
  | c :: body =>
    if c = quote ∧ body.getLast? = some quote ∧ quote ∉ body.dropLast then some body.dropLast
    else none

def unquotedMatch (text : Text) : Option Text :=
  if text.isEmpty || text.any isTrimmed then none else some text

/-- A value that ends the clause: the text of it, and whether it stands unquoted. -/
def valueMatch (text : Text) : Option (Text × Bool) :=
  match quotedMatch '"' text with
  | some value => some (value, false)
  | none =>
    match quotedMatch '\'' text with
    | some value => some (value, false)
    | none => (unquotedMatch text).map fun value => (value, true)

def afterBang : Text → Option Text
  | '!' :: rest => some (rest.dropWhile isTrimmed)
  | _ => none

/-- What follows the word, when it stands after white space. -/
def wordMatch (word : String) (negated : Bool) (rest : Text) : Option Text :=
  (afterSpace rest).bind fun text =>
    (if negated then afterBang text else some text).bind (afterWord word)

def existsMatch (negated : Bool) (rest : Text) : Bool := wordMatch "exists" negated rest = some []

def containsMatch (negated : Bool) (rest : Text) : Option (Text × Bool) :=
  ((wordMatch "contains" negated rest).bind afterSpace).bind valueMatch

/-- A comparison at the front of a text; two characters before one. -/
def comparison : Text → Option (Operator × Text)
  | '!' :: '=' :: rest => some (.ne, rest)
  | '<' :: '=' :: rest => some (.le, rest)
  | '>' :: '=' :: rest => some (.ge, rest)
  | '<' :: rest => some (.lt, rest)
  | '>' :: rest => some (.gt, rest)
  | '=' :: rest => some (.eq, rest)
  | _ => none

def compMatch (rest : Text) : Option (Operator × Text × Bool) := do
  let (operator, after) ← comparison (rest.dropWhile isTrimmed)
  let (value, unquoted) ← valueMatch (after.dropWhile isTrimmed)
  some (operator, value, unquoted)

def clauseOf (key : Text) (operator : Operator) (value : Text) : ParsedClause where
  key := toLowerCase key
  rawKey := key
  operator
  value := trim value

def unclosed (part : Text) : WhereClauseParseWarning where
  message := "Unclosed quote in clause: " ++ String.ofList part
  clause := part

/-- The clause with this key, from what follows the key. -/
def parseAfterKey (part key rest : Text) : Except WhereClauseParseWarning ParsedClause :=
  if existsMatch true rest then .ok (clauseOf key .notExists [])
  else if existsMatch false rest then .ok (clauseOf key .exists [])
  else
    match containsMatch true rest with
    | some (value, _) => .ok (clauseOf key .notContains value)
    | none =>
      match containsMatch false rest with
      | some (value, _) => .ok (clauseOf key .contains value)
      | none =>
        match compMatch rest with
        | some (operator, value, unquoted) =>
          if unquoted && value.head?.any isQuote then .error (unclosed part)
          else .ok (clauseOf key operator value)
        | none => .error (unsupported part)

def parseSimpleClause (part : Text) : Except WhereClauseParseWarning ParsedClause :=
  match keyMatch part with
  | none => .error (unsupported part)
  | some (key, rest) => parseAfterKey part key rest

/-! ### A whole clause text -/

/-- The depth at the end, unless it is back at zero before. -/
def unwrapLoop : ℤ → Option Char → Text → Option ℤ
  | depth, _, [] => some depth
  | depth, some quote, c :: rest => unwrapLoop depth (if c = quote then none else some quote) rest
  | depth, none, c :: rest =>
    if isQuote c then unwrapLoop depth (some c) rest
    else if c = '(' then unwrapLoop (depth + 1) none rest
    else if c = ')' then
      if depth - 1 = 0 ∧ rest ≠ [] then none else unwrapLoop (depth - 1) none rest
    else unwrapLoop depth none rest

def unwrapParentheses (part : Text) : Option Text :=
  if part.head? = some '(' ∧ part.getLast? = some ')' then
    match unwrapLoop 0 none part with
    | some 0 => some (trim part.tail.dropLast)
    | _ => none
  else none

structure ParseWhereClauseResult where
  clauses : List ParsedClause := []
  groups : List (List ParsedClause) := []
  warnings : List WhereClauseParseWarning := []
deriving DecidableEq

def ParseWhereClauseResult.warn (result : ParseWhereClauseResult)
    (warning : WhereClauseParseWarning) : ParseWhereClauseResult :=
  { result with warnings := result.warnings ++ [warning] }

def ParseWhereClauseResult.clause (result : ParseWhereClauseResult) (clause : ParsedClause) :
    ParseWhereClauseResult :=
  { result with clauses := result.clauses ++ [clause] }

def groupIgnored (part : Text) : WhereClauseParseWarning where
  message := "OR group ignored: every member must be a single clause, " ++
    "without AND or nested parentheses: " ++ String.ofList part
  clause := part

/-- One level of `(a OR b OR ...)`. -/
def parseGroup (orGroups : Bool) (result : ParseWhereClauseResult) (part inner : Text) :
    ParseWhereClauseResult :=
  let members := splitOnKeyword inner "or"
  if members.length = 1 then
    match parseSimpleClause inner with
    | .error _ => result.warn (unsupported part)
    | .ok clause => result.clause clause
  else if !orGroups then result.warn (unsupported part)
  else
    match members.mapM parseSimpleClause with
    | .error _ => result.warn (groupIgnored part)
    | .ok valid => { result with groups := result.groups ++ [valid] }

def parsePart (orGroups : Bool) (result : ParseWhereClauseResult) (part : Text) :
    ParseWhereClauseResult :=
  match unwrapParentheses part with
  | none =>
    match parseSimpleClause part with
    | .error warning => result.warn warning
    | .ok clause => result.clause clause
  | some inner => parseGroup orGroups result part inner

end Maple.WhereClause
