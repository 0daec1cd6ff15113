import Maple.TimestampInstant
import Maple.JsNumber
import Maple.KeyGlob
import Maple.SafeFetch

/-! Signals, the predicates over their fields, and what a specification must pass before its
predicate is compiled. -/

namespace Maple.Eventing
open IngestRules (codeUnits)

def MAX_PREDICATE_DEPTH : ℕ := 8
def MAX_PREDICATE_NODES : ℕ := 64
def MAX_IN_VALUES : ℕ := 100
def MAX_DECIMAL_INT64_LENGTH : ℕ := 20
def MAX_STRING_LITERAL_CHARACTERS : ℕ := 1024

/-! ### Signals -/

inductive SignalScalarType
  | string
  | boolean
  | int64
  | float64
  | timestamp
  | duration
deriving DecidableEq, Repr

def SignalScalarType.name : SignalScalarType → String
  | .string => "string"
  | .boolean => "boolean"
  | .int64 => "int64"
  | .float64 => "float64"
  | .timestamp => "timestamp"
  | .duration => "duration"

inductive SignalScalar
  | string (value : String)
  | boolean (value : Bool)
  | int64 (value : String)
  | float64 (value : Number)
  | timestamp (value : String)
  | duration (value : String)
deriving DecidableEq

def SignalScalar.type : SignalScalar → SignalScalarType
  | .string _ => .string
  | .boolean _ => .boolean
  | .int64 _ => .int64
  | .float64 _ => .float64
  | .timestamp _ => .timestamp
  | .duration _ => .duration

inductive FieldNamespace
  | signal
  | resource
  | scope
  | attribute
  | body
deriving DecidableEq, Repr

def FieldNamespace.name : FieldNamespace → String
  | .signal => "signal"
  | .resource => "resource"
  | .scope => "scope"
  | .attribute => "attribute"
  | .body => "body"

structure FieldRef where
  space : FieldNamespace
  key : String
  type : SignalScalarType
deriving DecidableEq, Repr

def fieldKey (space : FieldNamespace) (key : String) : String := space.name ++ ":" ++ key

inductive IdentityQuality
  | source
  | derived
  | none
deriving DecidableEq, Repr

/-- `fields` is the lookup of its map. -/
structure NormalizedSignal (Data : Type) where
  sourceKind : String
  source : String
  tenantId : String
  occurrenceId : Option String
  identityQuality : IdentityQuality
  occurredAt : String
  observedAt : String
  subject : Option String
  fields : String → Option SignalScalar
  data : Data

/-! ### Predicates -/

inductive ComparisonOp
  | eq
  | neq
  | gt
  | gte
  | lt
  | lte
  | contains
deriving DecidableEq, Repr

def ComparisonOp.name : ComparisonOp → String
  | .eq => "eq"
  | .neq => "neq"
  | .gt => "gt"
  | .gte => "gte"
  | .lt => "lt"
  | .lte => "lte"
  | .contains => "contains"

inductive SignalPredicate
  | all (clauses : List SignalPredicate)
  | any (clauses : List SignalPredicate)
  | not (clause : SignalPredicate)
  | exists (field : FieldRef)
  | comparison (op : ComparisonOp) (field : FieldRef) (value : SignalScalar)
  | in (field : FieldRef) (values : List SignalScalar)

structure ValidationIssue where
  path : String
  message : String
deriving DecidableEq, Repr

/-! ### The input budget -/

def literalIssue : SignalScalar → Option String
  | .string value =>
    if MAX_STRING_LITERAL_CHARACTERS < value.length then
      some "selector string exceeds 1024 Unicode code points"
    else none
  | .int64 value =>
    if MAX_DECIMAL_INT64_LENGTH < (codeUnits value).length then
      some "int64 literal exceeds 20 characters"
    else none
  | .duration value =>
    if MAX_DECIMAL_INT64_LENGTH < (codeUnits value).length then
      some "duration literal exceeds 20 characters"
    else none
  | _ => none

/-- The stack of nodes still to visit, the top first; each turn counts a node. -/
def inputBudgetLoop : ℕ → List (SignalPredicate × ℕ) → Option String
  | _, [] => none
  | 0, (_, depth) :: _ =>
    if MAX_PREDICATE_DEPTH < depth then some "predicate depth exceeds 8"
    else some "predicate exceeds 64 nodes"
  | left + 1, (node, depth) :: stack =>
    if MAX_PREDICATE_DEPTH < depth then some "predicate depth exceeds 8" else
    match node with
    | .all clauses =>
      if MAX_PREDICATE_NODES < clauses.length then some "predicate clause list exceeds 64 entries"
      else inputBudgetLoop left ((clauses.map (·, depth + 1)).reverse ++ stack)
    | .any clauses =>
      if MAX_PREDICATE_NODES < clauses.length then some "predicate clause list exceeds 64 entries"
      else inputBudgetLoop left ((clauses.map (·, depth + 1)).reverse ++ stack)
    | .not clause => inputBudgetLoop left ((clause, depth + 1) :: stack)
    | .exists _ => inputBudgetLoop left stack
    | .comparison _ _ value =>
      match literalIssue value with
      | some issue => some issue
      | none => inputBudgetLoop left stack
    | .in _ values =>
      if MAX_IN_VALUES < values.length then some "in exceeds 100 values"
      else
        match values.findSome? literalIssue with
        | some issue => some issue
        | none => inputBudgetLoop left stack

def predicateInputBudgetIssue (candidate : SignalPredicate) : Option String :=
  inputBudgetLoop MAX_PREDICATE_NODES [(candidate, 1)]

/-! ### The schema -/

instance (s : List Char) : Decidable (RFC3339_TIMESTAMP_PATTERN.Matches s) :=
  decidable_of_iff ((timestampToEpochNanos s).isSome = true) <| by
    rw [rfc3339_iff, Option.isSome_iff_exists]
    constructor
    · rintro ⟨nanos, h⟩
      obtain ⟨stamp, hvalid, hs, -⟩ := timestampToEpochNanos_eq.mp h
      exact ⟨stamp, hvalid, hs⟩
    · rintro ⟨stamp, hvalid, rfl⟩
      exact ⟨_, timestampToEpochNanos_eq.mpr ⟨stamp, hvalid, rfl, rfl⟩⟩

/-- The integer a decimal text writes, its sign read off. -/
def signedValue : List Char → ℤ
  | '-' :: digits => -value digits
  | digits => value digits

lemma signedValue_decimal (z : ℤ) : signedValue (decimal z) = z := by
  unfold decimal
  split_ifs with h
  · simp only [signedValue, value_toDigits]
    omega
  · have hhead : ∀ digits, Nat.toDigits 10 z.natAbs ≠ '-' :: digits := by
      intro digits heq
      have hdigit := toDigits_digits z.natAbs '-' (by simp [heq])
      revert hdigit
      decide
    rw [signedValue]
    · rw [value_toDigits]
      omega
    · exact hhead

instance (s : List Char) : Decidable (DECIMAL_INT64_PATTERN.Matches s) :=
  decidable_of_iff ((INT64_MIN ≤ signedValue s ∧ signedValue s ≤ INT64_MAX ∧
      s = decimal (signedValue s)) ∨ s = ['-', '0']) <| by
    rw [decimalInt64_iff]
    refine or_congr_left ⟨fun h => ⟨_, h⟩, ?_⟩
    rintro ⟨z, hlow, hhigh, rfl⟩
    rw [signedValue_decimal]
    exact ⟨hlow, hhigh, rfl⟩

/-- From so many to so many code units. -/
def lengthBetween (low high : ℕ) (text : String) : Bool :=
  decide (low ≤ (codeUnits text).length) && decide ((codeUnits text).length ≤ high)

def nonEmptyIdentifier (text : String) : Bool :=
  lengthBetween 1 256 text && SafeFetch.trim text == text

def decimalInt64 (text : String) : Bool :=
  decide ((codeUnits text).length ≤ MAX_DECIMAL_INT64_LENGTH) &&
    decide (DECIMAL_INT64_PATTERN.Matches text.toList)

def rfc3339Timestamp (text : String) : Bool :=
  decide (RFC3339_TIMESTAMP_PATTERN.Matches text.toList)

/-- `SignalLiteralSchema`. -/
def literalSchema : SignalScalar → Bool
  | .string value => decide (value.length ≤ MAX_STRING_LITERAL_CHARACTERS)
  | .boolean _ => true
  | .int64 value => decimalInt64 value
  | .float64 value => value.isFinite
  | .timestamp value => rfc3339Timestamp value
  | .duration value => decimalInt64 value

def fieldRefSchema (field : FieldRef) : Bool := lengthBetween 1 512 field.key

def clauseCount (count : ℕ) : Bool := 1 ≤ count && count ≤ MAX_PREDICATE_NODES

mutual

/-- `RecursiveSignalPredicateSchema`. -/
def recursiveSchema : SignalPredicate → Bool
  | .all clauses => clauseCount clauses.length && eachClause clauses
  | .any clauses => clauseCount clauses.length && eachClause clauses
  | .not clause => recursiveSchema clause
  | .exists field => fieldRefSchema field
  | .comparison _ field value => fieldRefSchema field && literalSchema value
  | .in field values =>
    fieldRefSchema field && decide (1 ≤ values.length) &&
      decide (values.length ≤ MAX_IN_VALUES) && values.all literalSchema

def eachClause : List SignalPredicate → Bool
  | [] => true
  | clause :: clauses => recursiveSchema clause && eachClause clauses

end

/-- `SignalPredicateSchema`: the budget before the recursive decoder. -/
def predicateSchema (predicate : SignalPredicate) : Bool :=
  (predicateInputBudgetIssue predicate).isNone && recursiveSchema predicate

/-! ### Validation -/

section validate

-- Effect's decoder of decimal integers, which reads what `BigInt` reads of these.
variable (bigIntFromString : String → Option ℤ)

def parseInt64 (text : String) : Option ℤ :=
  (bigIntFromString text).filter fun z => INT64_MIN ≤ z && z ≤ INT64_MAX

def validateSignalScalar (scalar : SignalScalar) (path : String) : List ValidationIssue :=
  match scalar with
  | .string _ => []
  | .boolean _ => []
  | .int64 value =>
    if (parseInt64 bigIntFromString value).isNone then
      [⟨path, "int64 must be a signed 64-bit decimal integer"⟩]
    else []
  | .duration value =>
    if (parseInt64 bigIntFromString value).isNone then
      [⟨path, "duration must be a signed 64-bit decimal integer"⟩]
    else []
  | .float64 value => if value.isFinite then [] else [⟨path, "float64 must be finite"⟩]
  | .timestamp value =>
    if (timestampToEpochNanos value.toList).isNone then
      [⟨path, "timestamp must be a valid RFC 3339 instant with an explicit offset"⟩]
    else []

def validateSignalLiteral (literal : SignalScalar) (path : String) : List ValidationIssue :=
  validateSignalScalar bigIntFromString literal path ++
    match literal with
    | .string value =>
      if MAX_STRING_LITERAL_CHARACTERS < value.length then
        [⟨path, "string exceeds 1024 Unicode code points"⟩]
      else []
    | _ => []

def orderedType (type : SignalScalarType) : Bool :=
  [.int64, .float64, .timestamp, .duration].contains type

def typesMustMatch (path : String) : ValidationIssue := ⟨path, "field and literal types must match"⟩

def comparisonIssues (path : String) (op : ComparisonOp) (field : FieldRef)
    (value : SignalScalar) : List ValidationIssue :=
  (match op with
    | .contains =>
      if field.type ≠ .string ∨ value.type ≠ .string then
        [⟨path, "contains requires a string field and string literal"⟩]
      else []
    | .eq => if field.type ≠ value.type then [typesMustMatch path] else []
    | .neq => if field.type ≠ value.type then [typesMustMatch path] else []
    | ordered =>
      (if orderedType field.type then []
        else [⟨path, ordered.name ++ " is not supported for " ++ field.type.name⟩]) ++
      (if field.type ≠ value.type then [typesMustMatch path] else [])) ++
    validateSignalLiteral bigIntFromString value (path ++ ".value")

def valueIssues (path : String) (field : FieldRef) (values : List SignalScalar) :
    List ValidationIssue :=
  values.zipIdx.flatMap fun (value, i) =>
    let at_ := path ++ ".values[" ++ toString i ++ "]"
    (if value.type ≠ field.type then [typesMustMatch at_] else []) ++
      validateSignalLiteral bigIntFromString value at_

def inIssues (path : String) (field : FieldRef) (values : List SignalScalar) :
    List ValidationIssue :=
  (if values = [] then [⟨path ++ ".values", "in requires at least one value"⟩] else []) ++
    (if MAX_IN_VALUES < values.length then [⟨path ++ ".values", "in exceeds 100 values"⟩] else []) ++
    valueIssues bigIntFromString path field values

/-- A visit counts its node before anything else. -/
abbrev Visit := ℕ × List ValidationIssue

def Visit.push (visit : Visit) (issues : List ValidationIssue) : Visit :=
  (visit.1, visit.2 ++ issues)

def emptyClauses (path name : String) (clauses : List SignalPredicate) : List ValidationIssue :=
  match clauses with
  | [] => [⟨path ++ ".clauses", name ++ " requires at least one clause"⟩]
  | _ :: _ => []

mutual

def visitPredicate : SignalPredicate → String → ℕ → Visit → Visit
  | node, path, depth, (count, issues) =>
    let visit : Visit := (count + 1, issues)
    if MAX_PREDICATE_NODES < count + 1 then visit
    else if MAX_PREDICATE_DEPTH < depth then
      visit.push [⟨path, "predicate depth exceeds 8"⟩]
    else
      match node with
      | .all clauses =>
        visitClauses clauses path 0 (depth + 1) (visit.push (emptyClauses path "all" clauses))
      | .any clauses =>
        visitClauses clauses path 0 (depth + 1) (visit.push (emptyClauses path "any" clauses))
      | .not clause => visitPredicate clause (path ++ ".clause") (depth + 1) visit
      | .exists _ => visit
      | .comparison op field value =>
        visit.push (comparisonIssues bigIntFromString path op field value)
      | .in field values => visit.push (inIssues bigIntFromString path field values)

def visitClauses : List SignalPredicate → String → ℕ → ℕ → Visit → Visit
  | [], _, _, _, visit => visit
  | clause :: clauses, path, i, depth, visit =>
    visitClauses clauses path (i + 1) depth
      (visitPredicate clause (path ++ ".clauses[" ++ toString i ++ "]") depth visit)

end

def validateSignalPredicate (predicate : SignalPredicate) : List ValidationIssue :=
  let visit := visitPredicate bigIntFromString predicate "selector" 1 (0, [])
  if MAX_PREDICATE_NODES < visit.1 then
    visit.2 ++ [⟨"selector", "predicate exceeds 64 nodes"⟩]
  else visit.2

/-! ### Evaluation -/

structure PredicateEvaluation where
  matched : Bool
  typeMismatches : List FieldRef

def scalarEquals : SignalScalar → SignalScalar → Bool
  | .string left, .string right => left == right
  | .boolean left, .boolean right => left == right
  | .float64 (.finite left), .float64 (.finite right) => left == right
  | .float64 (.infinity left), .float64 (.infinity right) => left == right
  | .int64 left, .int64 right => bigIntFromString left == bigIntFromString right
  | .duration left, .duration right => bigIntFromString left == bigIntFromString right
  | .timestamp left, .timestamp right =>
    timestampToEpochNanos left.toList == timestampToEpochNanos right.toList
  | _, _ => false

/-- The sign of the comparison; `none` where there is no order. -/
def scalarOrder : SignalScalar → SignalScalar → Option Ordering
  | .int64 left, .int64 right => integers left right
  | .duration left, .duration right => integers left right
  | .float64 left, .float64 right =>
    some (if left.le right && !right.le left then .lt
      else if right.le left && !left.le right then .gt else .eq)
  | .timestamp left, .timestamp right =>
    match timestampToEpochNanos left.toList, timestampToEpochNanos right.toList with
    | some a, some b => some (compare a b)
    | _, _ => none
  | _, _ => none
where
  integers (left right : String) : Option Ordering :=
    match bigIntFromString left, bigIntFromString right with
    | some a, some b => some (compare a b)
    | _, _ => none

variable {Data : Type} (signal : NormalizedSignal Data)

/-- The value of a field, with the field itself when its value is not of its type. -/
def readField (field : FieldRef) : Option SignalScalar × List FieldRef :=
  match signal.fields (fieldKey field.space field.key) with
  | none => (none, [])
  | some value =>
    if value.type ≠ field.type ∨ validateSignalScalar bigIntFromString value "value" ≠ [] then
      (none, [field])
    else (some value, [])

def compares (op : ComparisonOp) (value literal : SignalScalar) : Bool :=
  match op with
  | .eq => scalarEquals bigIntFromString value literal
  | .neq => !scalarEquals bigIntFromString value literal
  | .contains =>
    match value, literal with
    | .string text, .string part => decide (part.toList <:+: text.toList)
    | _, _ => false
  | .gt => scalarOrder bigIntFromString value literal == some .gt
  | .gte => (scalarOrder bigIntFromString value literal).any (· != .lt)
  | .lt => scalarOrder bigIntFromString value literal == some .lt
  | .lte => (scalarOrder bigIntFromString value literal).any (· != .gt)

mutual

/-- `every` and `some` stop at the first clause that decides. -/
def evaluatePredicate : SignalPredicate → Bool × List FieldRef
  | .all clauses => every clauses
  | .any clauses => some_ clauses
  | .not clause =>
    let result := evaluatePredicate clause
    (!result.1, result.2)
  | .exists field =>
    let read := readField bigIntFromString signal field
    (read.1.isSome, read.2)
  | .comparison op field literal =>
    let read := readField bigIntFromString signal field
    (read.1.any fun value => compares bigIntFromString op value literal, read.2)
  | .in field values =>
    let read := readField bigIntFromString signal field
    (read.1.any fun value => values.any (scalarEquals bigIntFromString value), read.2)

def every : List SignalPredicate → Bool × List FieldRef
  | [] => (true, [])
  | clause :: clauses =>
    let first := evaluatePredicate clause
    if first.1 then
      let rest := every clauses
      (rest.1, first.2 ++ rest.2)
    else (false, first.2)

def some_ : List SignalPredicate → Bool × List FieldRef
  | [] => (false, [])
  | clause :: clauses =>
    let first := evaluatePredicate clause
    if first.1 then (true, first.2)
    else
      let rest := some_ clauses
      (rest.1, first.2 ++ rest.2)

end

/-- The issues for which a predicate is not compiled. -/
def compileIssues (predicate : SignalPredicate) : List ValidationIssue :=
  match predicateInputBudgetIssue predicate with
  | some issue => [⟨"selector", issue⟩]
  | none => validateSignalPredicate bigIntFromString predicate

/-- What a compiled predicate answers. -/
def compiledPredicate (predicate : SignalPredicate) : PredicateEvaluation :=
  let result := evaluatePredicate bigIntFromString signal predicate
  ⟨result.1, result.2⟩

end validate

end Maple.Eventing
