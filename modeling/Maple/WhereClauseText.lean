import Maple.WhereClauseSplit

/-! Clauses as they are written, and what the clause parser makes of them. -/

namespace Maple.WhereClause
open SafeFetch (isTrimmed)

structure WrittenClause where
  key : Text
  operator : Operator
  value : Text
  key_ne : key ≠ []
  key_chars : ∀ c ∈ key, isKeyChar c
  value_trimmed : trim value = value
  value_bare : operator.takesValue = false → value = []

namespace WrittenClause

def parsed (clause : WrittenClause) : ParsedClause where
  key := toLowerCase clause.key
  rawKey := clause.key
  operator := clause.operator
  value := clause.value

/-- What follows the operator. -/
def valueText (clause : WrittenClause) : Text :=
  if clause.operator.takesValue then ' ' :: quoteWhereValue clause.value else []

def tail (clause : WrittenClause) : Text :=
  ' ' :: (clause.operator.text.toList ++ clause.valueText)

def text (clause : WrittenClause) : Text := clause.key ++ clause.tail

/-- The value cannot be spelled: it contains both kinds of quote. -/
def unspellable (clause : WrittenClause) : Bool :=
  clause.value.contains '"' && clause.value.contains '\''

/-- Written as it is, the value is read past by the splitter, and it is no unquoted word of
`contains`. -/
def refusable (clause : WrittenClause) : Bool :=
  quietFrom none (quoteWhereValue clause.value) &&
    (clause.operator.compares || clause.value.any isTrimmed)

end WrittenClause

/-! ### Quoted values -/

lemma quietFrom_body {quote : Char} {body : Text} (h : quote ∉ body) :
    quietFrom (some quote) (body ++ [quote]) = true := by
  induction body with
  | nil => simp [quietFrom]
  | cons c body ih =>
    rw [List.mem_cons, not_or] at h
    simp [quietFrom, Ne.symm h.1, ih h.2]

/-- A value is written between two quotes of one kind; it has none of them when it can be
spelled. -/
lemma quoteWhereValue_eq (value : Text) : ∃ quote, (quote = '"' ∨ quote = '\'') ∧
    quoteWhereValue value = quote :: (value ++ [quote]) ∧
    ((value.contains '"' && value.contains '\'') = false → quote ∉ value) ∧
    ((value.contains '"' && value.contains '\'') = true → quote = '"') := by
  unfold quoteWhereValue
  cases hdouble : value.contains '"' with
  | false =>
    exact ⟨'"', .inl rfl, rfl, fun _ => by simpa using hdouble, fun _ => rfl⟩
  | true =>
    cases hsingle : value.contains '\'' with
    | false =>
      exact ⟨'\'', .inr rfl, rfl, fun _ => by simpa using hsingle, fun h => by cases h⟩
    | true => exact ⟨'"', .inl rfl, rfl, fun h => absurd h (by decide), fun _ => rfl⟩

lemma isQuote_of_kind {quote : Char} (h : quote = '"' ∨ quote = '\'') : isQuote quote = true := by
  rcases h with rfl | rfl
  · rfl
  · rfl

lemma quietFrom_quoteWhereValue {value : Text}
    (h : (value.contains '"' && value.contains '\'') = false) :
    quietFrom none (quoteWhereValue value) = true := by
  obtain ⟨quote, hkind, htext, hfree, -⟩ := quoteWhereValue_eq value
  rw [htext, quietFrom, if_pos (isQuote_of_kind hkind)]
  exact quietFrom_body (hfree h)

/-! ### Clause texts -/

lemma quietFrom_plain_append {front : Text} (h : ∀ c ∈ front, isPlain c) (rest : Text) :
    quietFrom none (front ++ rest) = quietFrom none rest := by
  induction front with
  | nil => rfl
  | cons c front ih =>
    have hc := h c List.mem_cons_self
    simp only [isPlain, Bool.and_eq_true, Bool.not_eq_true', decide_eq_true_eq] at hc
    obtain ⟨⟨⟨hspace, hquote⟩, hopen⟩, hclose⟩ := hc
    rw [List.cons_append, quietFrom, ih fun d hd => h d (List.mem_cons_of_mem c hd)]
    simp [hquote, hopen, hclose, afterSeparator_cons hspace]

lemma quietFrom_space {c : Char} (hc : stops c) (rest : Text) :
    quietFrom none (' ' :: c :: rest) = quietFrom none (c :: rest) := by
  rw [quietFrom, afterSeparator_space (.inl rfl) hc, afterSeparator_space (.inr rfl) hc]
  simp [isQuote]

lemma Operator.text_chars (operator : Operator) : ∃ c rest, operator.text.toList = c :: rest ∧
    stops c ∧ (∀ d ∈ c :: rest, isPlain d) ∧ (operator.takesValue = false →
      ∀ d ∈ (c :: rest).getLast?, stops d) := by
  cases operator with
  | eq => exact ⟨'=', [], rfl, by decide, List.all_eq_true.mp (by decide), by decide⟩
  | ne => exact ⟨'!', ['='], rfl, by decide, List.all_eq_true.mp (by decide), by decide⟩
  | gt => exact ⟨'>', [], rfl, by decide, List.all_eq_true.mp (by decide), by decide⟩
  | lt => exact ⟨'<', [], rfl, by decide, List.all_eq_true.mp (by decide), by decide⟩
  | ge => exact ⟨'>', ['='], rfl, by decide, List.all_eq_true.mp (by decide), by decide⟩
  | le => exact ⟨'<', ['='], rfl, by decide, List.all_eq_true.mp (by decide), by decide⟩
  | contains =>
    exact ⟨'c', ['o', 'n', 't', 'a', 'i', 'n', 's'], rfl, by decide, List.all_eq_true.mp (by decide),
      by decide⟩
  | notContains =>
    exact ⟨'!', ['c', 'o', 'n', 't', 'a', 'i', 'n', 's'], rfl, by decide,
      List.all_eq_true.mp (by decide), by decide⟩
  | «exists» =>
    refine ⟨'e', ['x', 'i', 's', 't', 's'], rfl, by decide, List.all_eq_true.mp (by decide), ?_⟩
    rintro - d ⟨⟩
    decide
  | notExists =>
    refine ⟨'!', ['e', 'x', 'i', 's', 't', 's'], rfl, by decide, List.all_eq_true.mp (by decide), ?_⟩
    rintro - d ⟨⟩
    decide

lemma stops_quote {quote : Char} (h : quote = '"' ∨ quote = '\'') : stops quote := by
  rcases h with rfl | rfl
  · decide
  · decide

namespace WrittenClause

/-- A clause is read past when its value, as it is written, is. -/
lemma quiet (clause : WrittenClause) (h : quietFrom none (quoteWhereValue clause.value) = true) :
    quietFrom none clause.text = true := by
  obtain ⟨c, rest, htext, hstops, hplain, -⟩ := clause.operator.text_chars
  have hvalue : quietFrom none clause.valueText = true := by
    obtain ⟨quote, hkind, hquoted, -⟩ := quoteWhereValue_eq clause.value
    unfold valueText
    split_ifs
    · rw [hquoted] at h ⊢
      rwa [quietFrom_space (stops_quote hkind)]
    · rfl
  rw [text, quietFrom_plain_append fun d hd => isPlain_of_key (clause.key_chars d hd), tail, htext,
    List.cons_append, quietFrom_space hstops, ← List.cons_append, quietFrom_plain_append hplain]
  exact hvalue

end WrittenClause

/-! ### Parsing one clause -/

end Maple.WhereClause
