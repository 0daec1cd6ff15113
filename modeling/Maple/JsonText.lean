import Mathlib.Tactic
import Maple.Json

/-! The text of a JSON value determines it. -/

namespace Maple.Json

/-! ### Strings -/

def isControl (c : Char) : Bool := c.toNat < 32 || c = '"' || c = '\\'

/-- The characters that are escaped. -/
def controls : List Char := '"' :: '\\' :: (List.range 32).map Char.ofNat

lemma mem_controls {c : Char} (h : isControl c) : c ∈ controls := by
  simp only [isControl, Bool.or_eq_true, decide_eq_true_eq] at h
  rcases h with (h | h) | h
  · have hback : Char.ofNat c.toNat = c := Char.ofNat_toNat c
    rw [← hback]
    simp only [controls, List.mem_cons, List.mem_map, List.mem_range]
    exact Or.inr (Or.inr ⟨c.toNat, h, rfl⟩)
  · simp [controls, h]
  · simp [controls, h]

lemma escape_plain {c : Char} (h : ¬isControl c) : escape c = [c] := by
  simp only [isControl, Bool.or_eq_true, decide_eq_true_eq, not_or, not_lt] at h
  obtain ⟨⟨hcode, hquote⟩, hslash⟩ := h
  have hnewline : c ≠ '\n' := by rintro rfl; simp at hcode
  have hreturn : c ≠ '\r' := by rintro rfl; simp at hcode
  have htab : c ≠ '\t' := by rintro rfl; simp at hcode
  unfold escape
  rw [if_neg hquote, if_neg hslash, if_neg hnewline, if_neg hreturn, if_neg htab,
    if_neg (by omega), if_neg (by omega), if_neg (by omega)]

lemma escape_controls : ∀ c ∈ controls, ∀ d ∈ controls, escape c <+: escape d → c = d := by
  have hall : (controls.all fun c => controls.all fun d =>
      decide (escape c <+: escape d → c = d)) = true := by decide
  simpa only [List.all_eq_true, decide_eq_true_eq] using hall

lemma head_escape_controls : ∀ c ∈ controls, (escape c).head? = some '\\' := by
  have hall : (controls.all fun c => (escape c).head? == some '\\') = true := by decide
  simpa only [List.all_eq_true, beq_iff_eq] using hall

/-- No escape is the beginning of another one. -/
lemma escape_append_inj {c d : Char} {rest others : List Char}
    (h : escape c ++ rest = escape d ++ others) : c = d ∧ rest = others := by
  have hsame : c = d → c = d ∧ rest = others := by
    intro heq
    subst heq
    exact ⟨rfl, List.append_cancel_left h⟩
  by_cases hc : isControl c
  · have hcin := mem_controls hc
    by_cases hd : isControl d
    · have hdin := mem_controls hd
      rcases List.prefix_or_prefix_of_prefix (List.prefix_append (escape c) rest)
        (h ▸ List.prefix_append (escape d) others) with hprefix | hprefix
      · exact hsame (escape_controls c hcin d hdin hprefix)
      · exact hsame (escape_controls d hdin c hcin hprefix).symm
    · exfalso
      have hhead := congrArg List.head? h
      rw [escape_plain hd, List.head?_append, head_escape_controls c hcin] at hhead
      simp at hhead
      simp [isControl, ← hhead] at hd
  · by_cases hd : isControl d
    · exfalso
      have hhead := congrArg List.head? h
      rw [escape_plain hc, List.head?_append, List.head?_append,
        head_escape_controls d (mem_controls hd)] at hhead
      simp at hhead
      simp [isControl, hhead] at hc
    · rw [escape_plain hc, escape_plain hd] at h
      exact hsame (List.cons.inj h).1

/-- An escape never begins with the closing quote. -/
lemma escape_append_ne_quote (c : Char) (rest others : List Char) :
    escape c ++ rest ≠ '"' :: others := by
  intro h
  have hhead := congrArg List.head? h
  by_cases hc : isControl c
  · rw [List.head?_append, head_escape_controls c (mem_controls hc)] at hhead
    simp at hhead
  · rw [escape_plain hc] at hhead
    simp at hhead
    simp [isControl, hhead] at hc

lemma escaped_append_inj (text other : List Char) {rest others : List Char}
    (h : text.flatMap escape ++ '"' :: rest = other.flatMap escape ++ '"' :: others) :
    text = other ∧ rest = others := by
  induction text generalizing other with
  | nil =>
    cases other with
    | nil => exact ⟨rfl, (List.cons.inj h).2⟩
    | cons d other =>
      rw [List.flatMap_cons, List.append_assoc] at h
      exact absurd h.symm (escape_append_ne_quote d _ _)
  | cons c text ih =>
    cases other with
    | nil =>
      rw [List.flatMap_cons, List.append_assoc] at h
      exact absurd h (escape_append_ne_quote c _ _)
    | cons d other =>
      rw [List.flatMap_cons, List.flatMap_cons, List.append_assoc, List.append_assoc] at h
      obtain ⟨hc, hrest⟩ := escape_append_inj h
      obtain ⟨htext, hafter⟩ := ih other hrest
      exact ⟨by rw [hc, htext], hafter⟩

lemma quote_append_inj {text other : String} {rest others : List Char}
    (h : quote text ++ rest = quote other ++ others) : text = other ∧ rest = others := by
  simp only [quote, List.cons_append, List.append_assoc] at h
  obtain ⟨htext, hrest⟩ := escaped_append_inj _ _ (List.cons.inj h).2
  exact ⟨String.ext htext, hrest⟩

/-! ### Numbers -/

def numberChar (c : Char) : Bool := c.isDigit || c = '-' || c = '+' || c = '.' || c = 'e'

/-- Written as a number is: in number characters, of which there are some. -/
def NumberText (text : String) : Prop := text.toList ≠ [] ∧ ∀ c ∈ text.toList, numberChar c

/-- What follows a value does not begin in a character of a number. -/
def Delimited (rest : List Char) : Prop := ∀ c ∈ rest.head?, numberChar c = false

lemma takeWhile_number {text : String} (h : NumberText text) {rest : List Char}
    (hrest : Delimited rest) : (text.toList ++ rest).takeWhile numberChar = text.toList := by
  rw [List.takeWhile_append_of_pos h.2]
  cases rest with
  | nil => simp
  | cons c rest =>
    have hc := hrest c (by simp)
    simp [hc]

lemma number_append_inj {text other : String} (htext : NumberText text) (hother : NumberText other)
    {rest others : List Char} (hrest : Delimited rest) (hothers : Delimited others)
    (h : text.toList ++ rest = other.toList ++ others) : text = other ∧ rest = others := by
  have hsame := congrArg (List.takeWhile numberChar) h
  rw [takeWhile_number htext hrest, takeWhile_number hother hothers] at hsame
  rw [hsame] at h
  exact ⟨String.ext hsame, List.append_cancel_left h⟩

mutual

/-- Every number is written in number characters. -/
def Numeric : Json → Prop
  | .number text => NumberText text
  | .array items => NumericItems items
  | .object fields => NumericFields fields
  | _ => True

def NumericItems : List Json → Prop
  | [] => True
  | item :: items => Numeric item ∧ NumericItems items

def NumericFields : List (String × Json) → Prop
  | [] => True
  | (_, value) :: fields => Numeric value ∧ NumericFields fields

end

@[simp] lemma numeric_null : Numeric .null := trivial

@[simp] lemma numeric_bool (value : Bool) : Numeric (.bool value) := trivial

@[simp] lemma numericItems_cons {item : Json} {items : List Json} :
    NumericItems (item :: items) ↔ Numeric item ∧ NumericItems items := Iff.rfl

@[simp] lemma numericFields_nil : NumericFields [] := trivial

@[simp] lemma numericFields_cons {key : String} {value : Json} {fields : List (String × Json)} :
    NumericFields ((key, value) :: fields) ↔ Numeric value ∧ NumericFields fields := Iff.rfl

lemma numericItems_iff {items : List Json} : NumericItems items ↔ ∀ item ∈ items, Numeric item := by
  induction items with
  | nil => simp [NumericItems]
  | cons item items ih => simp [NumericItems, ih]

lemma numericFields_iff {fields : List (String × Json)} :
    NumericFields fields ↔ ∀ field ∈ fields, Numeric field.2 := by
  induction fields with
  | nil => simp [NumericFields]
  | cons field fields ih =>
    obtain ⟨key, value⟩ := field
    simp [NumericFields, ih]

/-! ### Values -/

/-- What a value's text begins with. -/
def Leads : Json → Char → Prop
  | .null, c => c = 'n'
  | .bool value, c => c = if value then 't' else 'f'
  | .number _, c => numberChar c
  | .string _, c => c = '"'
  | .array _, c => c = '['
  | .object _, c => c = '\x7b'

lemma exists_leads {a : Json} (ha : Numeric a) :
    ∃ c text, stringify a = c :: text ∧ Leads a c := by
  cases a with
  | null => exact ⟨'n', _, by rw [stringify]; rfl, rfl⟩
  | bool value =>
    cases value with
    | false => exact ⟨'f', _, by rw [stringify]; rfl, rfl⟩
    | true => exact ⟨'t', _, by rw [stringify]; rfl, rfl⟩
  | number text =>
    obtain ⟨hne, hchars⟩ : NumberText text := ha
    obtain ⟨c, rest, hrest⟩ := List.exists_cons_of_ne_nil hne
    exact ⟨c, rest, by rw [stringify, hrest], hchars c (by simp [hrest])⟩
  | string value => exact ⟨'"', _, by rw [stringify]; rfl, rfl⟩
  | array items => exact ⟨'[', _, by rw [stringify]; rfl, rfl⟩
  | object fields => exact ⟨'\x7b', _, by rw [stringify]; rfl, rfl⟩

/-- The kind of a value. -/
def kind : Json → ℕ
  | .null => 0
  | .bool _ => 1
  | .number _ => 2
  | .string _ => 3
  | .array _ => 4
  | .object _ => 5

/-- The kind of the values that begin with a character. -/
def leadKind (c : Char) : ℕ :=
  if c = 'n' then 0
  else if c = 't' ∨ c = 'f' then 1
  else if c = '"' then 3
  else if c = '[' then 4
  else if c = '\x7b' then 5
  else 2

lemma leadKind_number {c : Char} (h : numberChar c) : leadKind c = 2 := by
  have hne : ∀ d, numberChar d = false → c ≠ d := by
    intro d hd heq
    rw [heq, hd] at h
    simp at h
  unfold leadKind
  rw [if_neg (hne 'n' (by decide)), if_neg, if_neg (hne '"' (by decide)),
    if_neg (hne '[' (by decide)), if_neg (hne '\x7b' (by decide))]
  intro hc
  rcases hc with hc | hc
  · exact hne 't' (by decide) hc
  · exact hne 'f' (by decide) hc

lemma leadKind_eq {a : Json} {c : Char} (h : Leads a c) : leadKind c = kind a := by
  cases a with
  | null =>
    rw [show c = 'n' from h]
    rfl
  | bool value =>
    rw [show c = if value then 't' else 'f' from h]
    cases value with
    | false => rfl
    | true => rfl
  | number text => exact leadKind_number h
  | string value =>
    rw [show c = '"' from h]
    rfl
  | array items =>
    rw [show c = '[' from h]
    rfl
  | object fields =>
    rw [show c = '\x7b' from h]
    rfl

/-- Texts of values of different kinds begin differently. -/
lemma kind_eq {a b : Json} (ha : Numeric a) (hb : Numeric b) {rest others : List Char}
    (h : stringify a ++ rest = stringify b ++ others) : kind a = kind b := by
  obtain ⟨c, text, hc, hac⟩ := exists_leads ha
  obtain ⟨d, other, hd, hbd⟩ := exists_leads hb
  rw [hc, hd] at h
  have hsame : c = d := (List.cons.inj h).1
  rw [← leadKind_eq hac, ← leadKind_eq hbd, hsame]

lemma intercalate_cons (first : List Char) (texts : List (List Char)) :
    [','].intercalate (first :: texts) = first ++ texts.flatMap (',' :: ·) := by
  induction texts generalizing first with
  | nil => simp [List.intercalate]
  | cons second texts ih =>
    have hsplit : [','].intercalate (first :: second :: texts) =
        first ++ ',' :: [','].intercalate (second :: texts) := by
      simp [List.intercalate]
    rw [hsplit, ih, List.flatMap_cons, List.cons_append]

/-- The rest of a list's text, each value after a comma, up to the closing bracket. -/
def listText (texts : List (List Char)) (close : Char) (rest : List Char) : List Char :=
  texts.flatMap (',' :: ·) ++ close :: rest

lemma listText_cons (text : List Char) (texts : List (List Char)) (close : Char)
    (rest : List Char) :
    listText (text :: texts) close rest = ',' :: (text ++ listText texts close rest) := by
  simp [listText]

lemma delimited_listText (texts : List (List Char)) {close : Char}
    (hclose : numberChar close = false) (rest : List Char) :
    Delimited (listText texts close rest) := by
  intro c hc
  cases texts with
  | nil =>
    simp only [listText, List.flatMap_nil, List.nil_append, List.head?_cons,
      Option.mem_some_iff] at hc
    rw [← hc]
    exact hclose
  | cons text texts =>
    rw [listText_cons, List.head?_cons, Option.mem_some_iff] at hc
    rw [← hc]
    decide

lemma not_leads_bracket {a : Json} : ¬Leads a ']' := by
  intro h
  cases a with
  | bool value =>
    cases value with
    | false => exact absurd h (by simp [Leads])
    | true => exact absurd h (by simp [Leads])
  | number text => exact absurd h (by simp [Leads]; decide)
  | _ => exact absurd h (by simp [Leads])

lemma bracket_ne_stringify {a : Json} (ha : Numeric a) (rest others : List Char) :
    ']' :: rest ≠ stringify a ++ others := by
  intro h
  obtain ⟨c, text, hc, hleads⟩ := exists_leads ha
  rw [hc] at h
  have hsame : ']' = c := (List.cons.inj h).1
  exact not_leads_bracket (hsame ▸ hleads)

lemma bracketed_nil (first close : Char) (rest : List Char) :
    (first :: [','].intercalate ([] : List (List Char)) ++ [close]) ++ rest =
      first :: close :: rest := by
  simp [List.intercalate]

lemma bracketed_cons (first close : Char) (text : List Char) (texts : List (List Char))
    (rest : List Char) :
    (first :: [','].intercalate (text :: texts) ++ [close]) ++ rest =
      first :: (text ++ listText texts close rest) := by
  rw [intercalate_cons]
  simp [listText]

mutual

/-- The text of a value, and what follows it, determine both. -/
theorem stringify_append_inj (a b : Json) (ha : Numeric a) (hb : Numeric b)
    {rest others : List Char} (hrest : Delimited rest) (hothers : Delimited others)
    (h : stringify a ++ rest = stringify b ++ others) : a = b ∧ rest = others := by
  have hkind := kind_eq ha hb h
  cases a with
  | null =>
    cases b with
    | null => exact ⟨rfl, List.append_cancel_left h⟩
    | _ => simp [kind] at hkind
  | bool value =>
    cases b with
    | bool other =>
      cases value with
      | false =>
        cases other with
        | false => exact ⟨rfl, List.append_cancel_left h⟩
        | true => simp [stringify] at h
      | true =>
        cases other with
        | false => simp [stringify] at h
        | true => exact ⟨rfl, List.append_cancel_left h⟩
    | _ => simp [kind] at hkind
  | number text =>
    cases b with
    | number other =>
      rw [stringify, stringify] at h
      obtain ⟨htext, hafter⟩ := number_append_inj ha hb hrest hothers h
      exact ⟨by rw [htext], hafter⟩
    | _ => simp [kind] at hkind
  | string value =>
    cases b with
    | string other =>
      rw [stringify, stringify] at h
      obtain ⟨htext, hafter⟩ := quote_append_inj h
      exact ⟨by rw [htext], hafter⟩
    | _ => simp [kind] at hkind
  | array items =>
    cases b with
    | array others' =>
      rw [stringify, stringify] at h
      cases items with
      | nil =>
        cases others' with
        | nil => exact ⟨rfl, List.append_cancel_left h⟩
        | cons other others' =>
          rw [stringifyItems, stringifyItems, bracketed_nil, bracketed_cons] at h
          exact absurd (List.cons.inj h).2 (bracket_ne_stringify hb.1 _ _)
      | cons item items =>
        cases others' with
        | nil =>
          rw [stringifyItems, stringifyItems, bracketed_nil, bracketed_cons] at h
          exact absurd (List.cons.inj h).2.symm (bracket_ne_stringify ha.1 _ _)
        | cons other others' =>
          rw [stringifyItems, stringifyItems, bracketed_cons, bracketed_cons] at h
          obtain ⟨hitem, htail⟩ := stringify_append_inj item other ha.1 hb.1
            (delimited_listText _ (by decide) _) (delimited_listText _ (by decide) _)
            (List.cons.inj h).2
          obtain ⟨hitems, hafter⟩ := items_append_inj items others' ha.2 hb.2 htail
          exact ⟨by rw [hitem, hitems], hafter⟩
    | _ => simp [kind] at hkind
  | object fields =>
    cases b with
    | object others' =>
      rw [stringify, stringify] at h
      cases fields with
      | nil =>
        cases others' with
        | nil => exact ⟨rfl, List.append_cancel_left h⟩
        | cons other others' =>
          rw [stringifyFields, stringifyFields, bracketed_nil, bracketed_cons] at h
          simp [quote] at h
      | cons field fields =>
        cases others' with
        | nil =>
          rw [stringifyFields, stringifyFields, bracketed_nil, bracketed_cons] at h
          simp [quote] at h
        | cons other others' =>
          obtain ⟨key, value⟩ := field
          obtain ⟨key', value'⟩ := other
          rw [stringifyFields, stringifyFields, bracketed_cons, bracketed_cons, List.append_assoc,
            List.append_assoc] at h
          obtain ⟨hkey, hvalue⟩ := quote_append_inj (List.cons.inj h).2
          obtain ⟨hsame, htail⟩ := stringify_append_inj value value' ha.1 hb.1
            (delimited_listText _ (by decide) _) (delimited_listText _ (by decide) _)
            (List.cons.inj hvalue).2
          obtain ⟨hfields, hafter⟩ := fields_append_inj fields others' ha.2 hb.2 htail
          exact ⟨by rw [hkey, hsame, hfields], hafter⟩
    | _ => simp [kind] at hkind

theorem items_append_inj (items others : List Json) (hitems : NumericItems items)
    (hothers : NumericItems others) {rest after : List Char}
    (h : listText (stringifyItems items) ']' rest = listText (stringifyItems others) ']' after) :
    items = others ∧ rest = after := by
  cases items with
  | nil =>
    cases others with
    | nil => exact ⟨rfl, (List.cons.inj h).2⟩
    | cons other others => simp [stringifyItems, listText] at h
  | cons item items =>
    cases others with
    | nil => simp [stringifyItems, listText] at h
    | cons other others =>
      simp only [stringifyItems, listText_cons] at h
      obtain ⟨hitem, htail⟩ := stringify_append_inj item other hitems.1 hothers.1
        (delimited_listText _ (by decide) _) (delimited_listText _ (by decide) _)
        (List.cons.inj h).2
      obtain ⟨hrest, hafter⟩ := items_append_inj items others hitems.2 hothers.2 htail
      exact ⟨by rw [hitem, hrest], hafter⟩

theorem fields_append_inj (fields others : List (String × Json)) (hfields : NumericFields fields)
    (hothers : NumericFields others) {rest after : List Char}
    (h : listText (stringifyFields fields) '\x7d' rest =
      listText (stringifyFields others) '\x7d' after) : fields = others ∧ rest = after := by
  cases fields with
  | nil =>
    cases others with
    | nil => exact ⟨rfl, (List.cons.inj h).2⟩
    | cons other others => simp [stringifyFields, listText] at h
  | cons field fields =>
    cases others with
    | nil => simp [stringifyFields, listText] at h
    | cons other others =>
      obtain ⟨key, value⟩ := field
      obtain ⟨key', value'⟩ := other
      rw [stringifyFields, stringifyFields, listText_cons, listText_cons, List.append_assoc,
        List.append_assoc] at h
      obtain ⟨hkey, hvalue⟩ := quote_append_inj (List.cons.inj h).2
      obtain ⟨hsame, htail⟩ := stringify_append_inj value value' hfields.1 hothers.1
        (delimited_listText _ (by decide) _) (delimited_listText _ (by decide) _)
        (List.cons.inj hvalue).2
      obtain ⟨hrest, hafter⟩ := fields_append_inj fields others hfields.2 hothers.2 htail
      exact ⟨by rw [hkey, hsame, hrest], hafter⟩

end

/-- Two values have one text only where they are the same. -/
theorem stringify_inj {a b : Json} (ha : Numeric a) (hb : Numeric b) :
    stringify a = stringify b ↔ a = b := by
  refine ⟨fun h => ?_, fun h => h ▸ rfl⟩
  have hnil : Delimited [] := by simp [Delimited]
  exact (stringify_append_inj a b ha hb hnil hnil (by rw [h])).1

end Maple.Json
