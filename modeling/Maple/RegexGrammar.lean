import Maple.IngestRegex

/-! The grammar of the portable regular expressions, and what its trees say of repeated groups. -/

namespace Maple.IngestRules

/-! ### Trees -/

/-- The digits of a count that a number holds exactly. -/
structure Count where
  digits : List ℕ
  ne : digits ≠ []
  decimal : ∀ digit ∈ digits, isDigit digit = true
  exact : number digits ≤ 2 ^ 53

inductive Bounds
  | star
  | plus
  | optional
  | exactly (count : Count)
  | atLeast (least : Count)
  | between (least most : Count)

structure Repeat where
  bounds : Bounds
  lazy : Bool

def isHex (unit : ℕ) : Bool :=
  isDigit unit || 65 ≤ unit && unit ≤ 70 || 97 ≤ unit && unit ≤ 102

inductive Escape
  | plain (unit : ℕ) (other : (codeUnits "pPux").contains unit = false)
  | braced (kind : ℕ) (takes : (codeUnits "pPux").contains kind = true) (name : List ℕ)
    (closed : '\x7d'.toNat ∉ name)
  | hex (first second : ℕ) (digits : ∀ unit ∈ [first, second], isHex unit = true)
  | unicode (first second third fourth : ℕ)
    (digits : ∀ unit ∈ [first, second, third, fourth], isHex unit = true)

inductive Member
  | plain (unit : ℕ) (other : unit ≠ ']'.toNat ∧ unit ≠ '\\'.toNat)
  | escaped (unit : ℕ)

structure CharClass where
  negated : Bool
  members : List Member
  ne : members ≠ []

structure GroupName where
  units : List ℕ
  ne : units ≠ []
  valid : ∀ unit ∈ units, (codeUnits ">=!").contains unit = false

inductive Opening
  | capturing
  | nonCapturing
  | named (name : GroupName)

/-- The characters that are no atom by themselves; an atom `.`, `^` or `$` is one character too. -/
def SPECIAL : List Char := ['\\', '[', '(', ')', '|', '*', '+', '?', '\x7b']

mutual

inductive Disjunction
  | one (alternative : Alternative)
  | either (alternative : Alternative) (others : Disjunction)

inductive Alternative
  | empty
  | term (atom : Atom) (repeated : Option Repeat) (rest : Alternative)

inductive Atom
  | literal (char : Char) (plain : char ∉ SPECIAL)
  | escape (escape : Escape)
  | charClass (charClass : CharClass)
  | group (opening : Opening) (body : Disjunction)

end

/-! ### Text -/

def Bounds.text : Bounds → List ℕ
  | .star => ['*'.toNat]
  | .plus => ['+'.toNat]
  | .optional => ['?'.toNat]
  | .exactly count => '\x7b'.toNat :: (count.digits ++ ['\x7d'.toNat])
  | .atLeast least => '\x7b'.toNat :: (least.digits ++ [','.toNat, '\x7d'.toNat])
  | .between least most =>
    '\x7b'.toNat :: (least.digits ++ ','.toNat :: (most.digits ++ ['\x7d'.toNat]))

def Repeat.text (repeated : Repeat) : List ℕ :=
  repeated.bounds.text ++ if repeated.lazy then ['?'.toNat] else []

def Escape.text : Escape → List ℕ
  | .plain unit _ => ['\\'.toNat, unit]
  | .braced kind _ name _ => '\\'.toNat :: kind :: '\x7b'.toNat :: (name ++ ['\x7d'.toNat])
  | .hex first second _ => ['\\'.toNat, 'x'.toNat, first, second]
  | .unicode first second third fourth _ =>
    ['\\'.toNat, 'u'.toNat, first, second, third, fourth]

def Member.text : Member → List ℕ
  | .plain unit _ => [unit]
  | .escaped unit => ['\\'.toNat, unit]

/-- What is between the brackets. -/
def CharClass.inside (charClass : CharClass) : List ℕ :=
  (if charClass.negated then ['^'.toNat] else []) ++ charClass.members.flatMap Member.text

def CharClass.text (charClass : CharClass) : List ℕ :=
  '['.toNat :: (charClass.inside ++ [']'.toNat])

def Opening.text : Opening → List ℕ
  | .capturing => ['('.toNat]
  | .nonCapturing => ['('.toNat, '?'.toNat, ':'.toNat]
  | .named name => '('.toNat :: '?'.toNat :: '<'.toNat :: (name.units ++ ['>'.toNat])

mutual

def Disjunction.text : Disjunction → List ℕ
  | .one alternative => alternative.text
  | .either alternative others => alternative.text ++ '|'.toNat :: others.text

def Alternative.text : Alternative → List ℕ
  | .empty => []
  | .term atom repeated rest => atom.text ++ (repeated.elim [] Repeat.text ++ rest.text)

def Atom.text : Atom → List ℕ
  | .literal char _ => utf16 char
  | .escape escape => escape.text
  | .charClass charClass => charClass.text
  | .group opening body => opening.text ++ (body.text ++ [')'.toNat])

end

/-! ### Repetition -/

def Bounds.min : Bounds → ℕ
  | .star | .optional => 0
  | .plus => 1
  | .exactly count => number count.digits
  | .atLeast least | .between least _ => number least.digits

/-- No `max` is no bound. -/
def Bounds.max : Bounds → Option ℕ
  | .star | .plus | .atLeast _ => none
  | .optional => some 1
  | .exactly count => some (number count.digits)
  | .between _ most => some (number most.digits)

def Repeat.varies (repeated : Repeat) : Bool :=
  decide (some repeated.bounds.min ≠ repeated.bounds.max)

def Repeat.repeats (repeated : Repeat) : Bool := repeated.bounds.max.all (1 < ·)

mutual

/-- Contains, at any depth, an alternation or a quantifier with different bounds. -/
def Disjunction.varies : Disjunction → Bool
  | .one alternative => alternative.varies
  | .either _ _ => true

def Alternative.varies : Alternative → Bool
  | .empty => false
  | .term atom repeated rest => atom.varies || repeated.any Repeat.varies || rest.varies

def Atom.varies : Atom → Bool
  | .group _ body => body.varies
  | _ => false

end

mutual

/-- Contains a group under a quantifier with a maximum above 1 whose body varies. -/
def Disjunction.repeatsVarying : Disjunction → Bool
  | .one alternative => alternative.repeatsVarying
  | .either alternative others => alternative.repeatsVarying || others.repeatsVarying

def Alternative.repeatsVarying : Alternative → Bool
  | .empty => false
  | .term atom repeated rest =>
    atom.varies && repeated.any Repeat.repeats || atom.repeatsVarying || rest.repeatsVarying

def Atom.repeatsVarying : Atom → Bool
  | .group _ body => body.repeatsVarying
  | _ => false

end

end Maple.IngestRules
