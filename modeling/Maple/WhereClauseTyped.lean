import Mathlib
import Maple.WhereClauseScan

/-! How a clause may be typed: a key, an operator with white space around it, and a value. -/

namespace Maple.WhereClause
open SafeFetch (isTrimmed isVisible isTrimmed_of_visible)

def Operator.takesValue : Operator → Bool
  | .exists => false
  | .notExists => false
  | _ => true

def Operator.compares : Operator → Bool
  | .contains => false
  | .notContains => false
  | .exists => false
  | .notExists => false
  | _ => true

def Spaces (text : Text) : Prop := ∀ c ∈ text, isTrimmed c = true

/-- White space does not come first. -/
def Headed (text : Text) : Prop := ∀ c ∈ text.head?, isTrimmed c = false

lemma Headed.cons {c : Char} (h : isTrimmed c = false) (rest : Text) : Headed (c :: rest) := by
  intro d hd
  rw [List.head?_cons, Option.mem_some_iff] at hd
  rw [← hd, h]

lemma dropWhile_spaces {spaces text : Text} (hspaces : Spaces spaces) (htext : Headed text) :
    (spaces ++ text).dropWhile isTrimmed = text := by
  rw [List.dropWhile_append_of_pos hspaces]
  cases text with
  | nil => rfl
  | cons c text => simp [htext c rfl]

lemma afterSpace_spaces {spaces text : Text} (hspaces : Spaces spaces) (hne : spaces ≠ [])
    (htext : Headed text) : afterSpace (spaces ++ text) = some text := by
  have hhead : (spaces ++ text).head?.any isTrimmed = true := by
    cases spaces with
    | nil => exact absurd rfl hne
    | cons c spaces => simpa using hspaces c List.mem_cons_self
  rw [afterSpace, if_pos hhead, dropWhile_spaces hspaces htext]

lemma afterWord_typed {word : String} {typed : Text} (h : toLowerCase typed = word.toList)
    (rest : Text) : afterWord word (typed ++ rest) = some rest := by
  have hlength : word.length = typed.length := by
    rw [← String.length_toList, ← h, toLowerCase, List.length_map]
  rw [afterWord, hlength, List.take_left, List.drop_left, if_pos h]

section Word
variable {word : String} {w : Char} {letters : Text} (hword : word.toList = w :: letters)
include hword

end Word

/-! ### Operators -/

/-- Characters of no meaning to the splitter. -/
def isPlain (c : Char) : Bool := !isTrimmed c && !isQuote c && c ≠ '(' && c ≠ ')'

lemma isPlain_of_key {c : Char} (h : isKeyChar c) : isPlain c := by
  have hvisible : isVisible c := by
    simp only [isKeyChar, Char.isDigit, Bool.or_eq_true, Bool.and_eq_true, decide_eq_true_eq,
      isVisible] at h ⊢
    rcases h with ((((h | h) | h) | h) | h) | h
    · exact ⟨le_trans (by decide) h.1, h.2.trans (by decide)⟩
    · exact ⟨le_trans (by decide) h.1, h.2.trans (by decide)⟩
    · exact ⟨le_trans (b := '0') (by decide) h.1, le_trans (b := '9') h.2 (by decide)⟩
    all_goals
      subst h
      decide
  have hmarks : c ≠ '"' ∧ c ≠ '\'' ∧ c ≠ '(' ∧ c ≠ ')' := by
    refine ⟨?_, ?_, ?_, ?_⟩
    all_goals
      rintro rfl
      revert h
      decide
  have hspace := isTrimmed_of_visible hvisible
  simp [isPlain, hspace, isQuote, hmarks]


/-- The operator with the white space around it. -/
inductive Typed : Operator → Text → Prop
  | comparison {operator : Operator} {before after : Text} : operator.compares = true →
      Spaces before → Spaces after → Typed operator (before ++ (operator.text.toList ++ after))
  | contains {before typed after : Text} : Spaces before → before ≠ [] →
      toLowerCase typed = "contains".toList → Spaces after → after ≠ [] →
      Typed .contains (before ++ (typed ++ after))
  | notContains {before inner typed after : Text} : Spaces before → before ≠ [] → Spaces inner →
      toLowerCase typed = "contains".toList → Spaces after → after ≠ [] →
      Typed .notContains (before ++ '!' :: (inner ++ (typed ++ after)))
  | «exists» {before typed : Text} : Spaces before → before ≠ [] →
      toLowerCase typed = "exists".toList → Typed .exists (before ++ typed)
  | notExists {before inner typed : Text} : Spaces before → before ≠ [] → Spaces inner →
      toLowerCase typed = "exists".toList → Typed .notExists (before ++ '!' :: (inner ++ typed))

/-- The text of a value after an operator: none where there is no value, and no `=` that would
join a comparison. -/
structure Follows (operator : Operator) (literal : Text) : Prop where
  headed : Headed literal
  bare : operator.takesValue = false → literal = []
  equals : operator = .lt ∨ operator = .gt → literal.head? ≠ some '='

/-- What the value match makes of a clause. -/
def outcomeOf (part key : Text) (operator : Operator) (found : Option (Text × Bool)) :
    Except WhereClauseParseWarning ParsedClause :=
  if operator.takesValue then
    match found with
    | none => .error (unsupported part)
    | some (value, unquoted) =>
      if operator.compares && unquoted && value.head?.any isQuote then .error (unclosed part)
      else .ok (clauseOf key operator value)
  else .ok (clauseOf key operator [])

/-! ### Reading a typed clause -/

lemma isKeyChar_spaces {spaces : Text} (h : Spaces spaces) :
    ∀ c ∈ spaces.head?, isKeyChar c = false := by
  intro c hc
  have hspace := h c (List.mem_of_mem_head? hc)
  rw [Bool.eq_false_iff]
  intro hkey
  have hplain := isPlain_of_key hkey
  simp [isPlain, hspace] at hplain

/-- No operator begins in a character of a key. -/
lemma Typed.head {operator : Operator} {typed : Text} (h : Typed operator typed) :
    typed ≠ [] ∧ ∀ c ∈ typed.head?, isKeyChar c = false := by
  have hspaced : ∀ {before rest : Text}, Spaces before → before ≠ [] →
      before ++ rest ≠ [] ∧ ∀ c ∈ (before ++ rest).head?, isKeyChar c = false := by
    intro before rest hbefore hne
    refine ⟨by simp [hne], ?_⟩
    rw [List.head?_append_of_ne_nil _ hne]
    exact isKeyChar_spaces hbefore
  have hmark : ∀ {c : Char} {rest : Text}, isKeyChar c = false →
      c :: rest ≠ [] ∧ ∀ d ∈ (c :: rest).head?, isKeyChar d = false := by
    intro c rest hc
    refine ⟨List.cons_ne_nil c rest, fun d hd => ?_⟩
    rw [List.head?_cons, Option.mem_some_iff] at hd
    rw [← hd, hc]
  cases h with
  | comparison hcompares hbefore hafter =>
    rename_i before after
    by_cases hne : before = []
    · subst hne
      cases operator with
      | eq => exact hmark (c := '=') (by decide)
      | ne => exact hmark (c := '!') (by decide)
      | gt => exact hmark (c := '>') (by decide)
      | lt => exact hmark (c := '<') (by decide)
      | ge => exact hmark (c := '>') (by decide)
      | le => exact hmark (c := '<') (by decide)
      | contains => cases hcompares
      | notContains => cases hcompares
      | «exists» => cases hcompares
      | notExists => cases hcompares
    · exact hspaced hbefore hne
  | contains hbefore hne => exact hspaced hbefore hne
  | notContains hbefore hne => exact hspaced hbefore hne
  | «exists» hbefore hne => exact hspaced hbefore hne
  | notExists hbefore hne => exact hspaced hbefore hne

end Maple.WhereClause
