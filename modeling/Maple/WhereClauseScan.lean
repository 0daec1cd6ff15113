import Maple.WhereClause

/-! Texts the splitter and the unwrapping of parentheses read past: their quotes pair up, and
outside quotes they have no parenthesis and no separator. -/

namespace Maple.WhereClause
open SafeFetch (isTrimmed)

/-! ### White space and words -/

/-- In no separator. -/
def stops (c : Char) : Bool := !isTrimmed c && !(['a', 'n', 'd', 'o', 'r'].contains c.toLower)

lemma isTrimmed_of_stops {c : Char} (h : stops c) : isTrimmed c = false := by
  simp only [stops, Bool.and_eq_true, Bool.not_eq_true'] at h
  exact h.1

def IsKeyword (keyword : String) : Prop := keyword = "and" ∨ keyword = "or"

lemma IsKeyword.not_stops {keyword : String} (h : IsKeyword keyword) {c : Char} (hc : stops c) :
    c.toLower ∉ keyword.toList := by
  simp only [stops, Bool.and_eq_true, Bool.not_eq_true', List.contains_eq_mem,
    decide_eq_false_iff_not] at hc
  intro hmem
  rcases h with rfl | rfl
  · exact hc.2 (by revert hmem; simp; tauto)
  · exact hc.2 (by revert hmem; simp; tauto)

lemma afterSeparator_cons {c : Char} (hc : isTrimmed c = false) (keyword : String) (rest : Text) :
    afterSeparator keyword (c :: rest) = none := by
  simp [afterSeparator, afterSpace, hc]

lemma afterWord_cons {keyword : String} (hkeyword : IsKeyword keyword) {c : Char} (hc : stops c)
    (rest : Text) : afterWord keyword (c :: rest) = none := by
  refine if_neg fun heq => hkeyword.not_stops hc ?_
  rw [← heq]
  rcases hkeyword with rfl | rfl
  · exact List.mem_map_of_mem List.mem_cons_self
  · exact List.mem_map_of_mem List.mem_cons_self

lemma afterSeparator_space {keyword : String} (hkeyword : IsKeyword keyword) {c : Char}
    (hc : stops c) (rest : Text) : afterSeparator keyword (' ' :: c :: rest) = none := by
  have hspace : afterSpace (' ' :: c :: rest) = some (c :: rest) := by
    have hdrop : (' ' :: c :: rest).dropWhile isTrimmed = c :: rest := by
      rw [List.dropWhile_cons_of_pos (by decide),
        List.dropWhile_cons_of_neg (by simp [isTrimmed_of_stops hc])]
    unfold afterSpace
    rw [hdrop]
    rfl
  rw [afterSeparator, hspace, Option.bind_some, afterWord_cons hkeyword hc]
  rfl

/-! ### Texts read past -/

/-- Starting in this quote, the text ends outside quotes, and outside quotes nothing in it splits
or nests. -/
def quietFrom : Option Char → Text → Bool
  | none, [] => true
  | some _, [] => false
  | some quote, c :: rest => quietFrom (if c = quote then none else some quote) rest
  | none, c :: rest =>
    if isQuote c then quietFrom (some c) rest
    else c ≠ '(' && c ≠ ')' && (afterSeparator "and" (c :: rest)).isNone &&
      (afterSeparator "or" (c :: rest)).isNone && quietFrom none rest

/-- Read up to the end of the text. -/
def SplitState.past (state : SplitState) (text : Text) : SplitState :=
  { state with quote := none, part := state.part ++ text }

end Maple.WhereClause
