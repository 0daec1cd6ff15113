import Maple.Formula

/-! The infix grammar of chart formulas and the values it gives, and the wider grammar that the
operator stack reads. -/

namespace Maple.Formula

/-- A formula as written: numbers, query names, prefix minus and the four operators. -/
inductive Infix
  | number (value : ℚ)
  | identifier (value : String)
  | neg (operand : Infix)
  | binary (operator : FormulaOperator) (left right : Infix)

/-- The value, unless a name has none or a division is by zero. -/
def Infix.value (variableValues : String → Option ℚ) : Infix → Option ℚ
  | .number value => some value
  | .identifier name => variableValues name
  | .neg operand => (operand.value variableValues).map (- ·)
  | .binary operator left right =>
    match left.value variableValues, right.value variableValues with
    | some a, some b =>
      match operator with
      | .add => some (a + b)
      | .sub => some (a - b)
      | .mul => some (a * b)
      | .div => if b = 0 then none else some (a / b)
    | _, _ => none

inductive Level
  | atom
  | factor
  | term
  | sum

/-- The usual grammar: `*` and `/` bind tighter than `+` and `-`, operators of one precedence group
to the left, and a prefix minus binds tightest. -/
inductive Derives : Level → List FormulaToken → Infix → Prop
  | number (value : ℚ) : Derives .atom [.number value] (.number value)
  | identifier (value : String) : Derives .atom [.identifier value] (.identifier value)
  | paren {tokens : List FormulaToken} {e : Infix} (h : Derives .sum tokens e) :
      Derives .atom (.leftParen :: (tokens ++ [.rightParen])) e
  | atom {tokens : List FormulaToken} {e : Infix} (h : Derives .atom tokens e) :
      Derives .factor tokens e
  | neg {tokens : List FormulaToken} {e : Infix} (h : Derives .factor tokens e) :
      Derives .factor (.operator .sub :: tokens) (.neg e)
  | factor {tokens : List FormulaToken} {e : Infix} (h : Derives .factor tokens e) :
      Derives .term tokens e
  | mul {left right : List FormulaToken} {a b : Infix} {op : FormulaOperator}
      (hop : precedence op = 2) (hleft : Derives .term left a) (hright : Derives .factor right b) :
      Derives .term (left ++ .operator op :: right) (.binary op a b)
  | term {tokens : List FormulaToken} {e : Infix} (h : Derives .term tokens e) :
      Derives .sum tokens e
  | add {left right : List FormulaToken} {a b : Infix} {op : FormulaOperator}
      (hop : precedence op = 1) (hleft : Derives .sum left a) (hright : Derives .term right b) :
      Derives .sum (left ++ .operator op :: right) (.binary op a b)

/-- The formula in postfix. -/
def Infix.postfixed : Infix → List RpnToken
  | .number value => [.token (.number value)]
  | .identifier name => [.token (.identifier name)]
  | .neg operand => operand.postfixed ++ [.unary]
  | .binary operator left right => left.postfixed ++ right.postfixed ++ [.token (.operator operator)]

inductive LooseLevel
  | operands (minuses : ℕ)
  | factor
  | term
  | sum

/-- The same grammar, but where an operand belongs there may be any number of them side by side,
also none. The prefix minuses before them apply at the first closing parenthesis, or after the last
operand. -/
inductive Loose : LooseLevel → List FormulaToken → List RpnToken → Prop
  | done (k : ℕ) : Loose (.operands k) [] (List.replicate k .unary)
  | number (value : ℚ) {k : ℕ} {tokens : List FormulaToken} {out : List RpnToken}
      (h : Loose (.operands k) tokens out) :
      Loose (.operands k) (.number value :: tokens) (.token (.number value) :: out)
  | identifier (value : String) {k : ℕ} {tokens : List FormulaToken} {out : List RpnToken}
      (h : Loose (.operands k) tokens out) :
      Loose (.operands k) (.identifier value :: tokens) (.token (.identifier value) :: out)
  | paren {k : ℕ} {inner tokens : List FormulaToken} {out out' : List RpnToken}
      (hinner : Loose .sum inner out) (h : Loose (.operands 0) tokens out') :
      Loose (.operands k) (.leftParen :: (inner ++ .rightParen :: tokens))
        (out ++ (List.replicate k .unary ++ out'))
  | factor {k : ℕ} {tokens : List FormulaToken} {out : List RpnToken}
      (h : Loose (.operands k) tokens out) :
      Loose .factor (List.replicate k (.operator .sub) ++ tokens) out
  | term {tokens : List FormulaToken} {out : List RpnToken} (h : Loose .factor tokens out) :
      Loose .term tokens out
  | mul {left right : List FormulaToken} {out out' : List RpnToken} {op : FormulaOperator}
      (hop : precedence op = 2) (hleft : Loose .term left out) (hright : Loose .factor right out') :
      Loose .term (left ++ .operator op :: right) (out ++ (out' ++ [.token (.operator op)]))
  | sum {tokens : List FormulaToken} {out : List RpnToken} (h : Loose .term tokens out) :
      Loose .sum tokens out
  | add {left right : List FormulaToken} {out out' : List RpnToken} {op : FormulaOperator}
      (hop : precedence op = 1) (hminus : op = .sub → unaryContext left.getLast? = false)
      (hleft : Loose .sum left out) (hright : Loose .term right out') :
      Loose .sum (left ++ .operator op :: right) (out ++ (out' ++ [.token (.operator op)]))

/-! ### The grammar within the wider one -/

lemma Derives.operandLast {level : Level} {tokens : List FormulaToken} {e : Infix}
    (h : Derives level tokens e) : unaryContext tokens.getLast? = false := by
  induction h with
  | number value => rfl
  | identifier value => rfl
  | paren h ih => simp [List.getLast?_cons, unaryContext]
  | atom h ih => exact ih
  | neg h ih =>
    rename_i tokens e
    cases tokens with
    | nil => cases ih
    | cons token tokens => simpa [List.getLast?_cons] using ih
  | factor h ih => exact ih
  | mul hop hleft hright ihleft ihright =>
    rename_i left right a b op
    cases right with
    | nil => cases ihright
    | cons token right => simpa [List.getLast?_append, List.getLast?_cons] using ihright
  | term h ih => exact ih
  | add hop hleft hright ihleft ihright =>
    rename_i left right a b op
    cases right with
    | nil => cases ihright
    | cons token right => simpa [List.getLast?_append, List.getLast?_cons] using ihright

/-- What a derivation of the grammar says in the wider one. -/
def Level.AsLoose : Level → List FormulaToken → List RpnToken → Prop
  | .atom, tokens, out => ∀ k, Loose (.operands k) tokens (out ++ List.replicate k .unary)
  | .factor, tokens, out => ∃ k rest operand,
      tokens = List.replicate k (.operator .sub) ++ rest ∧
      out = operand ++ List.replicate k .unary ∧
      ∀ j, Loose (.operands j) rest (operand ++ List.replicate j .unary)
  | .term, tokens, out => Loose .term tokens out
  | .sum, tokens, out => Loose .sum tokens out

lemma Level.AsLoose.factor {tokens : List FormulaToken} {out : List RpnToken}
    (h : Level.factor.AsLoose tokens out) : Loose .factor tokens out := by
  obtain ⟨k, rest, operand, rfl, rfl, hrest⟩ := h
  exact .factor (hrest k)

lemma Derives.asLoose {level : Level} {tokens : List FormulaToken} {e : Infix}
    (h : Derives level tokens e) : level.AsLoose tokens e.postfixed := by
  induction h with
  | number value => exact fun k => .number value (.done k)
  | identifier value => exact fun k => .identifier value (.done k)
  | paren h ih =>
    intro k
    have hparen := Loose.paren (k := k) ih (.done 0)
    simpa using hparen
  | atom h ih => exact ⟨0, _, _, rfl, (List.append_nil _).symm, ih⟩
  | neg h ih =>
    obtain ⟨k, rest, operand, rfl, hout, hrest⟩ := ih
    refine ⟨k + 1, rest, operand, rfl, ?_, hrest⟩
    rw [Infix.postfixed, hout, List.append_assoc, ← List.replicate_succ']
  | factor h ih => exact .term ih.factor
  | mul hop hleft hright ihleft ihright =>
    rw [Infix.postfixed, List.append_assoc]
    exact .mul hop ihleft ihright.factor
  | term h ih => exact .sum ih
  | add hop hleft hright ihleft ihright =>
    rw [Infix.postfixed, List.append_assoc]
    exact .add hop (fun _ => hleft.operandLast) ihleft ihright

end Maple.Formula
