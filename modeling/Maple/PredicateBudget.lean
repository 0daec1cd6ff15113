import Maple.SignalPredicate

/-! The budget of a selector that is not decoded yet, over any graph of objects, and the
validation of a decoded one, both for any values of the limits. -/

namespace Maple.Eventing.Budget
open IngestRules (codeUnits)

structure Limits where
  depth : ℕ
  nodes : ℕ
  inValues : ℕ
  decimalLength : ℕ
  stringCharacters : ℕ

def codeLimits : Limits where
  depth := MAX_PREDICATE_DEPTH
  nodes := MAX_PREDICATE_NODES
  inValues := MAX_IN_VALUES
  decimalLength := MAX_DECIMAL_INT64_LENGTH
  stringCharacters := MAX_STRING_LITERAL_CHARACTERS

/-! ### Graphs of objects -/

/-- A value, an object or an array by its reference. -/
inductive Raw (R : Type)
  | undefined
  | null
  | boolean (value : Bool)
  | number (value : Number)
  | text (value : String)
  | ref (place : R)

/-- What a reference refers to; a property that an object lacks is undefined. -/
inductive Cell (R : Type)
  | array (items : List (Raw R))
  | object (get : String → Raw R)

abbrev Heap (R : Type) := R → Cell R

section Guard
variable {R : Type} (limits : Limits) (heap : Heap R)

def record : Raw R → Option (String → Raw R)
  | .ref place =>
    match heap place with
    | .object get => some get
    | .array _ => none
  | _ => none

def array : Raw R → Option (List (Raw R))
  | .ref place =>
    match heap place with
    | .array items => some items
    | .object _ => none
  | _ => none

/-! ### The guard -/

def textIssue (type : Raw R) (value : String) : Option String :=
  match type with
  | .text "string" =>
    if limits.stringCharacters < value.length then
      some ("selector string exceeds " ++ toString limits.stringCharacters ++
        " Unicode code points")
    else none
  | .text "int64" =>
    if limits.decimalLength < (codeUnits value).length then
      some ("int64 literal exceeds " ++ toString limits.decimalLength ++ " characters")
    else none
  | .text "duration" =>
    if limits.decimalLength < (codeUnits value).length then
      some ("duration literal exceeds " ++ toString limits.decimalLength ++ " characters")
    else none
  | _ => none

def literalIssue (value : Raw R) : Option String :=
  match record heap value with
  | none => none
  | some get =>
    match get "value" with
    | .text text => textIssue limits (get "type") text
    | _ => none

/-- What a node does to the stack. -/
inductive Visited (R : Type)
  | issue (message : String)
  | push (children : List (Raw R))

def visitClauseList (clauses : Raw R) : Visited R :=
  match array heap clauses with
  | none => .push []
  | some clauses =>
    if limits.nodes < clauses.length then
      .issue ("predicate clause list exceeds " ++ toString limits.nodes ++ " entries")
    else .push clauses

def visitValues (values : Raw R) : Visited R :=
  match array heap values with
  | none => .push []
  | some values =>
    if limits.inValues < values.length then
      .issue ("in exceeds " ++ toString limits.inValues ++ " values")
    else
      match values.findSome? (literalIssue limits heap) with
      | some issue => .issue issue
      | none => .push []

def visitValue (value : Raw R) : Visited R :=
  match literalIssue limits heap value with
  | some issue => .issue issue
  | none => .push []

def visitNode (value : Raw R) : Visited R :=
  match record heap value with
  | none => .push []
  | some get =>
    match get "op" with
    | .text "all" => visitClauseList limits heap (get "clauses")
    | .text "any" => visitClauseList limits heap (get "clauses")
    | .text "not" => .push [get "clause"]
    | .text "in" => visitValues limits heap (get "values")
    | _ => visitValue limits heap (get "value")

/-- So many turns of the loop; the top of the stack is first. `none` while it still runs. -/
def budgetLoop : ℕ → ℕ → List (Raw R × ℕ) → Option (Option String)
  | 0, _, _ => none
  | _ + 1, _, [] => some none
  | turns + 1, nodes, (value, depth) :: stack =>
    if limits.depth < depth then
      some (some ("predicate depth exceeds " ++ toString limits.depth))
    else if limits.nodes < nodes + 1 then
      some (some ("predicate exceeds " ++ toString limits.nodes ++ " nodes"))
    else
      match visitNode limits heap value with
      | .issue message => some (some message)
      | .push children =>
        budgetLoop turns (nodes + 1) ((children.map (·, depth + 1)).reverse ++ stack)

/-- The guard returns this after at most so many turns. -/
def predicateInputBudgetIssue (turns : ℕ) (candidate : Raw R) : Option (Option String) :=
  budgetLoop limits heap turns 0 [(candidate, 1)]

end Guard

/-! ### Validation -/

section Validate
variable (bigIntFromString : String → Option ℤ) (limits : Limits)

def validateSignalLiteral (literal : SignalScalar) (path : String) : List ValidationIssue :=
  validateSignalScalar bigIntFromString literal path ++
    match literal with
    | .string value =>
      if limits.stringCharacters < value.length then
        [⟨path, "string exceeds " ++ toString limits.stringCharacters ++ " Unicode code points"⟩]
      else []
    | _ => []

/-- The types of a comparison that do not fit its operator. -/
def typeIssues (path : String) (op : ComparisonOp) (field : FieldRef) (value : SignalScalar) :
    List ValidationIssue :=
  match op with
  | .contains =>
    if field.type ≠ .string ∨ value.type ≠ .string then
      [⟨path, "contains requires a string field and string literal"⟩]
    else []
  | .eq => if field.type ≠ value.type then [typesMustMatch path] else []
  | .neq => if field.type ≠ value.type then [typesMustMatch path] else []
  | ordered =>
    (if orderedType field.type then []
      else [⟨path, ordered.name ++ " is not supported for " ++ field.type.name⟩]) ++
    (if field.type ≠ value.type then [typesMustMatch path] else [])

def comparisonIssues (path : String) (op : ComparisonOp) (field : FieldRef)
    (value : SignalScalar) : List ValidationIssue :=
  typeIssues path op field value ++
    validateSignalLiteral bigIntFromString limits value (path ++ ".value")

def valueIssues (path : String) (field : FieldRef) (values : List SignalScalar) :
    List ValidationIssue :=
  values.zipIdx.flatMap fun (value, i) =>
    let at_ := path ++ ".values[" ++ toString i ++ "]"
    (if value.type ≠ field.type then [typesMustMatch at_] else []) ++
      validateSignalLiteral bigIntFromString limits value at_

def inIssues (path : String) (field : FieldRef) (values : List SignalScalar) :
    List ValidationIssue :=
  (if values = [] then [⟨path ++ ".values", "in requires at least one value"⟩] else []) ++
    (if limits.inValues < values.length then
      [⟨path ++ ".values", "in exceeds " ++ toString limits.inValues ++ " values"⟩] else []) ++
    valueIssues bigIntFromString limits path field values

mutual

def visitPredicate : SignalPredicate → String → ℕ → Visit → Visit
  | node, path, depth, (count, issues) =>
    let visit : Visit := (count + 1, issues)
    if limits.nodes < count + 1 then visit
    else if limits.depth < depth then
      visit.push [⟨path, "predicate depth exceeds " ++ toString limits.depth⟩]
    else
      match node with
      | .all clauses =>
        visitEach clauses path 0 (depth + 1) (visit.push (emptyClauses path "all" clauses))
      | .any clauses =>
        visitEach clauses path 0 (depth + 1) (visit.push (emptyClauses path "any" clauses))
      | .not clause => visitPredicate clause (path ++ ".clause") (depth + 1) visit
      | .exists _ => visit
      | .comparison op field value =>
        visit.push (comparisonIssues bigIntFromString limits path op field value)
      | .in field values => visit.push (inIssues bigIntFromString limits path field values)

def visitEach : List SignalPredicate → String → ℕ → ℕ → Visit → Visit
  | [], _, _, _, visit => visit
  | clause :: clauses, path, i, depth, visit =>
    visitEach clauses path (i + 1) depth
      (visitPredicate clause (path ++ ".clauses[" ++ toString i ++ "]") depth visit)

end

def validateSignalPredicate (predicate : SignalPredicate) : List ValidationIssue :=
  let visit := visitPredicate bigIntFromString limits predicate "selector" 1 (0, [])
  if limits.nodes < visit.1 then
    visit.2 ++ [⟨"selector", "predicate exceeds " ++ toString limits.nodes ++ " nodes"⟩]
  else visit.2

end Validate

/-! ### The limits of the code -/

section CodeLimits
variable (bigIntFromString : String → Option ℤ)

lemma validateSignalLiteral_code :
    validateSignalLiteral bigIntFromString codeLimits =
      Eventing.validateSignalLiteral bigIntFromString := rfl

mutual

lemma visitPredicate_code (predicate : SignalPredicate) (path : String) (depth : ℕ)
    (visit : Visit) :
    visitPredicate bigIntFromString codeLimits predicate path depth visit =
      Eventing.visitPredicate bigIntFromString predicate path depth visit := by
  obtain ⟨count, issues⟩ := visit
  cases predicate with
  | all clauses =>
    rw [visitPredicate, Eventing.visitPredicate]
    simp only [visitEach_code clauses]
    rfl
  | any clauses =>
    rw [visitPredicate, Eventing.visitPredicate]
    simp only [visitEach_code clauses]
    rfl
  | not clause =>
    rw [visitPredicate, Eventing.visitPredicate]
    simp only [visitPredicate_code clause]
    rfl
  | «exists» field => rfl
  | comparison op field value => rfl
  | «in» field values => rfl

lemma visitEach_code (clauses : List SignalPredicate) (path : String) (i depth : ℕ)
    (visit : Visit) :
    visitEach bigIntFromString codeLimits clauses path i depth visit =
      Eventing.visitClauses bigIntFromString clauses path i depth visit := by
  cases clauses with
  | nil => rw [visitEach, Eventing.visitClauses]
  | cons clause clauses =>
    rw [visitEach, Eventing.visitClauses, visitPredicate_code clause, visitEach_code clauses]

end

theorem validateSignalPredicate_code (predicate : SignalPredicate) :
    validateSignalPredicate bigIntFromString codeLimits predicate =
      Eventing.validateSignalPredicate bigIntFromString predicate := by
  rw [validateSignalPredicate, Eventing.validateSignalPredicate, visitPredicate_code]
  rfl

end CodeLimits

end Maple.Eventing.Budget
