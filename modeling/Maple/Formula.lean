import Mathlib

/-! Chart formulas: from the tokens of an expression to postfix with an operator stack, and the
evaluation of the postfix over the values of the queries. -/

namespace Maple.Formula

inductive FormulaOperator
  | add
  | sub
  | mul
  | div
  deriving DecidableEq

inductive FormulaToken
  | number (value : ℚ)
  | identifier (value : String)
  | operator (value : FormulaOperator)
  | leftParen
  | rightParen
  deriving DecidableEq

/-- What the operator stack and the output hold: a token, or a prefix minus. -/
inductive RpnToken
  | token (token : FormulaToken)
  | unary
  deriving DecidableEq

def precedence : FormulaOperator → ℕ
  | .add => 1
  | .sub => 1
  | .mul => 2
  | .div => 2

structure Compiling where
  output : List RpnToken
  operatorStack : List RpnToken
  previousToken : Option FormulaToken
  identifiers : List String
  deriving DecidableEq

def Compiling.start : Compiling := ⟨[], [], none, []⟩

/-- Pop to the last left parenthesis; `none` if there is none. -/
def popParen : List RpnToken → List RpnToken → Option (List RpnToken × List RpnToken)
  | _, [] => none
  | output, .token .leftParen :: rest => some (output, rest)
  | output, top :: rest => popParen (output ++ [top]) rest

def popUnary : List RpnToken → List RpnToken → List RpnToken × List RpnToken
  | output, .unary :: rest => popUnary (output ++ [.unary]) rest
  | output, stack => (output, stack)

/-- Pop what binds at least as tightly as an operator of this precedence. -/
def popOperators (limit : ℕ) : List RpnToken → List RpnToken → List RpnToken × List RpnToken
  | output, .unary :: rest => popOperators limit (output ++ [.unary]) rest
  | output, .token (.operator top) :: rest =>
    if precedence top < limit then (output, .token (.operator top) :: rest)
    else popOperators limit (output ++ [.token (.operator top)]) rest
  | output, stack => (output, stack)

/-- Whether a minus after this token is a prefix minus. -/
def unaryContext : Option FormulaToken → Bool
  | none => true
  | some (.operator _) => true
  | some .leftParen => true
  | some _ => false

def addIdentifier (identifiers : List String) (value : String) : List String :=
  if value ∈ identifiers then identifiers else identifiers ++ [value]

def Compiling.step (c : Compiling) (token : FormulaToken) : Except String Compiling :=
  match token with
  | .number _ =>
    .ok { c with output := c.output ++ [.token token], previousToken := some token }
  | .identifier value =>
    .ok { c with
      output := c.output ++ [.token token]
      previousToken := some token
      identifiers := addIdentifier c.identifiers value }
  | .leftParen =>
    .ok { c with operatorStack := .token token :: c.operatorStack, previousToken := some token }
  | .rightParen =>
    match popParen c.output c.operatorStack with
    | none => .error "Mismatched parentheses in formula"
    | some (output, stack) =>
      let popped := popUnary output stack
      .ok { c with
        output := popped.1, operatorStack := popped.2, previousToken := some token }
  | .operator value =>
    if value = .sub && unaryContext c.previousToken then
      .ok { c with operatorStack := .unary :: c.operatorStack, previousToken := some token }
    else
      let popped := popOperators (precedence value) c.output c.operatorStack
      .ok { c with
        output := popped.1, operatorStack := .token token :: popped.2, previousToken := some token }

/-- What is left on the stack goes out; a parenthesis there was never closed. -/
def popRest : List RpnToken → List RpnToken → Except String (List RpnToken)
  | output, [] => .ok output
  | output, top :: rest =>
    if top = .token .leftParen ∨ top = .token .rightParen then
      .error "Mismatched parentheses in formula"
    else popRest (output ++ [top]) rest

structure CompiledFormula where
  rpn : List RpnToken
  identifiers : List String
  deriving DecidableEq

/-- Compile the tokens of a formula. -/
def compileFormula (tokens : List FormulaToken) : Except String CompiledFormula := do
  let c ← tokens.foldlM Compiling.step .start
  let rpn ← popRest c.output c.operatorStack
  return ⟨rpn, c.identifiers⟩

inductive FormulaError
  | divisionByZero
  | other (message : String)
  deriving DecidableEq

def applyOperator (operator : FormulaOperator) (left right : ℚ) : Except FormulaError ℚ :=
  match operator with
  | .add => .ok (left + right)
  | .sub => .ok (left - right)
  | .mul => .ok (left * right)
  | .div => if right = 0 then .error .divisionByZero else .ok (left / right)

/-- One token of the postfix, on the stack of values. -/
def evaluateToken (variableValues : String → Option ℚ) (stack : List ℚ) :
    RpnToken → Except FormulaError (List ℚ)
  | .token (.number value) => .ok (value :: stack)
  | .token (.identifier value) =>
    match variableValues value with
    | none => .error (.other ("Unknown reference: " ++ value))
    | some found => .ok (found :: stack)
  | .unary =>
    match stack with
    | [] => .error (.other "Invalid formula expression")
    | operand :: rest => .ok (-operand :: rest)
  | .token (.operator operator) =>
    match stack with
    | right :: left :: rest => do
      let value ← applyOperator operator left right
      return value :: rest
    | _ => .error (.other "Invalid formula expression")
  | .token _ => .error (.other "Invalid formula token")

def evaluateCompiledFormula (rpn : List RpnToken) (variableValues : String → Option ℚ) :
    Except FormulaError ℚ := do
  match ← rpn.foldlM (evaluateToken variableValues) [] with
  | [value] => return value
  | _ => throw (.other "Invalid formula expression")

/-- The value of a formula's tokens, or what is reported instead. -/
def runFormula (tokens : List FormulaToken) (variableValues : String → Option ℚ) :
    Except FormulaError ℚ :=
  match compileFormula tokens with
  | .error message => .error (.other message)
  | .ok compiled => evaluateCompiledFormula compiled.rpn variableValues

end Maple.Formula
