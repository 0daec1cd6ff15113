import Maple.SafeFetchHost
import Mathlib.Data.List.SplitOn
import Mathlib.Data.List.Forall2
import Mathlib.Tactic.IntervalCases

/-! The textual forms of an IPv6 address, and that the hand-written reader accepts exactly these. -/

namespace Maple.SafeFetch

/-! ## Textual forms -/

/-- One to four hexadecimal digits of either case. -/
def IsGroup (text : List Char) (group : ℕ) : Prop :=
  1 ≤ text.length ∧ text.length ≤ 4 ∧ (∀ c ∈ text, isHexDigit c = true) ∧ parseHex text = group

/-- A decimal octet without leading zeros. -/
def Octet (text : List Char) (n : ℕ) : Prop := n < 256 ∧ text = Nat.toDigits 10 n

/-- A decimal octet of up to three digits. -/
def PaddedOctet (text : List Char) (n : ℕ) : Prop :=
  n < 256 ∧ 1 ≤ text.length ∧ text.length ≤ 3 ∧ (∀ c ∈ text, c.isDigit = true) ∧
    parseDecimal text = n

/-- Four octets joined by dots. -/
def Quad (octet : List Char → ℕ → Prop) (text : List Char) (values : List ℕ) : Prop :=
  ∃ parts, text = ['.'].intercalate parts ∧ List.Forall₂ octet parts values ∧ values.length = 4

/-- The pieces between single colons and the groups they write: the last one may be a dotted quad,
which writes two. -/
inductive Pieces (octet : List Char → ℕ → Prop) : List (List Char) → List ℕ → Prop
  | nil : Pieces octet [] []
  | quad {text : List Char} {w x y z : ℕ} (hquad : Quad octet text [w, x, y, z]) :
      Pieces octet [text] [256 * w + x, 256 * y + z]
  | group {text : List Char} {texts : List (List Char)} {g : ℕ} {groups : List ℕ}
      (htext : IsGroup text g) (htexts : Pieces octet texts groups) :
      Pieces octet (text :: texts) (g :: groups)

def noOctet : List Char → ℕ → Prop := fun _ _ => False

/-- `text` writes the eight groups in full, or with one `::` for a run of zeros. -/
inductive Form (octet : List Char → ℕ → Prop) : List Char → List ℕ → Prop
  | full {texts : List (List Char)} {groups : List ℕ} (hpieces : Pieces octet texts groups)
      (hlength : groups.length = 8) : Form octet ([':'].intercalate texts) groups
  | compressed {left right : List (List Char)} {before after : List ℕ}
      (hleft : Pieces noOctet left before) (hright : Pieces octet right after)
      (hlength : before.length + after.length ≤ 7) :
      Form octet ([':'].intercalate left ++ ':' :: ':' :: [':'].intercalate right)
        (before ++ List.replicate (8 - (before.length + after.length)) 0 ++ after)

variable {octet octet' : List Char → ℕ → Prop}

lemma Quad.mono (h : ∀ text n, octet text n → octet' text n) {text : List Char}
    {values : List ℕ} (hquad : Quad octet text values) : Quad octet' text values := by
  obtain ⟨parts, htext, hparts, hlength⟩ := hquad
  exact ⟨parts, htext, hparts.imp h, hlength⟩

lemma Pieces.mono (h : ∀ text n, octet text n → octet' text n) {texts : List (List Char)}
    {groups : List ℕ} (hpieces : Pieces octet texts groups) : Pieces octet' texts groups := by
  induction hpieces with
  | nil => exact .nil
  | quad hquad => exact .quad (hquad.mono h)
  | group htext _ ih => exact .group htext ih

lemma Form.mono (h : ∀ text n, octet text n → octet' text n) {text : List Char} {groups : List ℕ}
    (hform : Form octet text groups) : Form octet' text groups := by
  cases hform with
  | full hpieces hlength => exact .full (hpieces.mono h) hlength
  | compressed hleft hright hlength => exact .compressed hleft (hright.mono h) hlength

lemma Form.length {text : List Char} {groups : List ℕ} (hform : Form octet text groups) :
    groups.length = 8 := by
  cases hform with
  | full _ hlength => exact hlength
  | compressed _ _ hlength =>
    simp only [List.length_append, List.length_replicate]
    omega

/-- Without quads every piece is a group. -/
lemma pieces_noOctet {texts : List (List Char)} {groups : List ℕ} :
    Pieces noOctet texts groups ↔ List.Forall₂ IsGroup texts groups := by
  constructor
  · intro h
    induction h with
    | nil => exact .nil
    | @quad text w x y z hquad =>
      obtain ⟨parts, -, hparts, -⟩ := hquad
      cases hparts with
      | cons hoctet _ => exact hoctet.elim
    | group htext _ ih => exact .cons htext ih
  · intro h
    induction h with
    | nil => exact .nil
    | cons htext _ ih => exact .group htext ih

lemma Pieces.append_group {init texts : List (List Char)} {before groups : List ℕ}
    (hinit : List.Forall₂ IsGroup init before) (h : Pieces octet texts groups) :
    Pieces octet (init ++ texts) (before ++ groups) := by
  induction hinit with
  | nil => exact h
  | cons htext _ ih => exact .group htext ih

/-! ## The hexadecimal reader -/

lemma IsGroup.ne_nil {text : List Char} {g : ℕ} (h : IsGroup text g) : text ≠ [] := by
  rintro rfl
  exact absurd h.1 (by simp)

lemma IsGroup.colon {text : List Char} {g : ℕ} (h : IsGroup text g) : ':' ∉ text := fun hmem =>
  absurd (h.2.2.1 _ hmem) (by decide)

lemma isGroup_parseHex {text : List Char} (h : text.all isHexDigit = true ∧ 1 ≤ text.length ∧
    text.length ≤ 4) : IsGroup text (parseHex text) :=
  ⟨h.2.1, h.2.2, by simpa using h.1, rfl⟩

/-- The pieces, each with a colon after it. -/
def colons (texts : List (List Char)) : List Char := texts.flatMap (· ++ [':'])

lemma intercalate_append_singleton (texts : List (List Char)) (last : List Char) :
    [':'].intercalate (texts ++ [last]) = colons texts ++ last := by
  induction texts with
  | nil => simp [colons]
  | cons text texts ih =>
    cases texts with
    | nil => simp [colons]
    | cons next texts =>
      simp only [List.cons_append, List.intercalate_cons_cons, colons, List.flatMap_cons] at ih ⊢
      simp [ih]

lemma intercalate_splitDoubleColon (text : List Char) :
    [':', ':'].intercalate (splitDoubleColon text) = text := by
  fun_induction splitDoubleColon text with
  | case1 rest ih =>
    obtain ⟨part, parts, hparts⟩ : ∃ part parts, splitDoubleColon rest = part :: parts := by
      cases hsplit : splitDoubleColon rest with
      | nil => simp [hsplit] at ih; subst ih; simp [splitDoubleColon] at hsplit
      | cons part parts => exact ⟨part, parts, rfl⟩
    rw [hparts] at ih ⊢
    simp [List.intercalate_cons_cons, ih]
  | case2 c rest hc hsplit ih => simp [hsplit] at ih; simp [← ih]
  | case3 c rest hc part parts hsplit ih =>
    rw [hsplit] at ih
    cases parts with
    | nil => simpa using ih
    | cons next parts => simpa [List.intercalate_cons_cons] using ih
  | case4 => rfl

lemma splitDoubleColon_ne_nil (text : List Char) : splitDoubleColon text ≠ [] := by
  fun_cases splitDoubleColon text <;> simp [*]

lemma splitDoubleColon_cons {c : Char} (rest : List Char)
    (h : ¬ (c = ':' ∧ rest.head? = some ':')) :
    splitDoubleColon (c :: rest) = (splitDoubleColon rest).modifyHead (c :: ·) := by
  have hne := splitDoubleColon_ne_nil rest
  rw [splitDoubleColon]
  · cases hsplit : splitDoubleColon rest with
    | nil => exact absurd hsplit hne
    | cons part parts => rfl
  · intro tail hc hrest
    exact h ⟨hc, by simp [hrest]⟩

lemma splitDoubleColon_append {text : List Char} (hcolon : ':' ∉ text) (rest : List Char) :
    splitDoubleColon (text ++ rest) = (splitDoubleColon rest).modifyHead (text ++ ·) := by
  obtain ⟨part, parts, hparts⟩ := List.exists_cons_of_ne_nil (splitDoubleColon_ne_nil rest)
  induction text with
  | nil => simp [hparts]
  | cons c text ih =>
    obtain ⟨hc, htext⟩ : ':' ≠ c ∧ ':' ∉ text := by simpa using hcolon
    rw [List.cons_append, splitDoubleColon_cons _ fun h => hc h.1.symm, ih htext, hparts]
    rfl

/-- Pieces between single colons hold no `::`, nor do they start one. -/
lemma splitDoubleColon_intercalate {texts : List (List Char)}
    (htexts : ∀ text ∈ texts, text ≠ [] ∧ ':' ∉ text) (rest : List Char) :
    splitDoubleColon ([':'].intercalate texts ++ rest) =
      (splitDoubleColon rest).modifyHead ([':'].intercalate texts ++ ·) := by
  obtain ⟨part, parts, hparts⟩ := List.exists_cons_of_ne_nil (splitDoubleColon_ne_nil rest)
  induction texts with
  | nil => simp [hparts]
  | cons text texts ih =>
    obtain ⟨-, hcolon⟩ := htexts text (by simp)
    cases texts with
    | nil => simpa using splitDoubleColon_append hcolon rest
    | cons next texts =>
      have hrest := ih fun t ht => htexts t (by simp [ht])
      obtain ⟨c, tail, hnext, hc⟩ : ∃ c tail, next = c :: tail ∧ c ≠ ':' := by
        obtain ⟨hne, hcolon⟩ := htexts next (by simp)
        obtain ⟨c, tail, rfl⟩ := List.exists_cons_of_ne_nil hne
        exact ⟨c, tail, rfl, by rintro rfl; exact hcolon (by simp)⟩
      have hhead : ([':'].intercalate (next :: texts) ++ rest).head? = some c := by
        cases texts <;> simp [hnext, List.intercalate_cons_cons]
      rw [List.intercalate_cons_cons, List.append_assoc, List.append_assoc,
        splitDoubleColon_append hcolon, List.singleton_append,
        splitDoubleColon_cons _ fun h => hc (by simpa [hhead] using h.2), hrest, hparts]
      simp

lemma parsePart_intercalate {texts : List (List Char)}
    (htexts : ∀ text ∈ texts, text ≠ [] ∧ ':' ∉ text) :
    parsePart ([':'].intercalate texts) = texts := by
  cases texts with
  | nil => rfl
  | cons text texts =>
    have hne : [':'].intercalate (text :: texts) ≠ [] := by
      obtain ⟨c, tail, rfl⟩ := List.exists_cons_of_ne_nil (htexts text (by simp)).1
      cases texts <;> simp [List.intercalate_cons_cons]
    rw [parsePart, if_neg hne,
      List.splitOn_intercalate ':' (fun t ht => (htexts t ht).2) (by simp)]

lemma intercalate_parsePart (part : List Char) : [':'].intercalate (parsePart part) = part := by
  unfold parsePart
  split_ifs with h
  · simp [h]
  · exact List.intercalate_splitOn ':'

lemma groups_texts {texts : List (List Char)} {groups : List ℕ}
    (h : List.Forall₂ IsGroup texts groups) : ∀ text ∈ texts, text ≠ [] ∧ ':' ∉ text := by
  induction h with
  | nil => simp
  | cons htext _ ih =>
    intro t ht
    rcases List.mem_cons.mp ht with rfl | ht
    · exact ⟨htext.ne_nil, htext.colon⟩
    · exact ih t ht

/-- The check `hexGroups` makes on each group text. -/
def groupText (text : List Char) : Bool :=
  text.all isHexDigit && decide (1 ≤ text.length) && decide (text.length ≤ 4)

lemma forall₂_isGroup {texts : List (List Char)} {groups : List ℕ} :
    List.Forall₂ IsGroup texts groups ↔
      texts.all groupText = true ∧ groups = texts.map parseHex := by
  constructor
  · intro h
    induction h with
    | nil => simp
    | @cons text g texts groups htext _ ih =>
      obtain ⟨hlow, hhigh, hhex, hvalue⟩ := htext
      refine ⟨?_, by rw [List.map_cons, hvalue, ih.2]⟩
      simpa [groupText, hlow, hhigh, ih.1] using hhex
  · rintro ⟨hall, rfl⟩
    induction texts with
    | nil => exact .nil
    | cons text texts ih =>
      simp only [List.all_cons, Bool.and_eq_true] at hall
      refine .cons (isGroup_parseHex ?_) (ih hall.2)
      simpa [groupText, and_assoc] using hall.1

lemma hexGroups_one {text part : List Char} (h : splitDoubleColon text = [part]) :
    hexGroups text = if (parsePart part).length = 8 ∧ (parsePart part).all groupText then
      some ((parsePart part).map parseHex) else none := by
  simp only [hexGroups, h]
  by_cases hlength : (parsePart part).length = 8 <;> simp [hlength, groupText]

lemma hexGroups_two {text left right : List Char} (h : splitDoubleColon text = [left, right]) :
    hexGroups text =
      if (parsePart left).length + (parsePart right).length ≤ 7 ∧
          (parsePart left).all groupText ∧ (parsePart right).all groupText then
        some ((parsePart left).map parseHex ++
          List.replicate (8 - ((parsePart left).length + (parsePart right).length)) 0 ++
            (parsePart right).map parseHex)
      else none := by
  have hzero : isHexDigit '0' = true := by decide
  have hparse : parseHex ['0'] = 0 := by decide
  simp only [hexGroups, h]
  by_cases hlength : (parsePart left).length + (parsePart right).length ≤ 7
  · have hnot : ¬ 8 ≤ (parsePart left).length + (parsePart right).length := by omega
    simp [hlength, hnot, groupText, hzero, hparse]
  · have hover : 8 ≤ (parsePart left).length + (parsePart right).length := by omega
    simp [hlength, hover]

/-- `hexGroups` reads the forms without a quad. -/
lemma hexGroups_iff {text : List Char} {groups : List ℕ} :
    hexGroups text = some groups ↔ Form noOctet text groups := by
  constructor
  · intro h
    have hjoin := intercalate_splitDoubleColon text
    rcases hhalves : splitDoubleColon text with _ | ⟨first, _ | ⟨second, _ | ⟨third, more⟩⟩⟩
    · exact absurd hhalves (splitDoubleColon_ne_nil text)
    · obtain rfl : first = text := by simpa [hhalves] using hjoin
      rw [hexGroups_one hhalves] at h
      split_ifs at h with hpart
      obtain rfl := Option.some.inj h
      have hform := Form.full (pieces_noOctet.mpr (forall₂_isGroup.mpr ⟨hpart.2, rfl⟩))
        (by simpa using hpart.1)
      rwa [intercalate_parsePart] at hform
    · rw [hexGroups_two hhalves] at h
      split_ifs at h with hparts
      obtain rfl := Option.some.inj h
      have hform := Form.compressed (pieces_noOctet.mpr (forall₂_isGroup.mpr ⟨hparts.2.1, rfl⟩))
        (pieces_noOctet.mpr (forall₂_isGroup.mpr ⟨hparts.2.2, rfl⟩)) (by simpa using hparts.1)
      rw [intercalate_parsePart, intercalate_parsePart] at hform
      have htext : first ++ ':' :: ':' :: second = text := by
        simpa [hhalves, List.intercalate_cons_cons] using hjoin
      rw [htext] at hform
      simpa using hform
    · simp [hexGroups, hhalves] at h
  · intro hform
    cases hform with
    | @full texts groups hpieces hlength =>
      rw [pieces_noOctet] at hpieces
      have htexts := groups_texts hpieces
      have hsplit := splitDoubleColon_intercalate htexts []
      have hone : splitDoubleColon ([':'].intercalate texts) = [[':'].intercalate texts] := by
        simpa [splitDoubleColon] using hsplit
      rw [hexGroups_one hone, parsePart_intercalate htexts]
      obtain ⟨hall, rfl⟩ := forall₂_isGroup.mp hpieces
      rw [if_pos ⟨by simpa using hlength, hall⟩]
    | @compressed left right before after hleft hright hlength =>
      rw [pieces_noOctet] at hleft hright
      have hlefts := groups_texts hleft
      have hrights := groups_texts hright
      have hsplit := splitDoubleColon_intercalate hlefts (':' :: ':' :: [':'].intercalate right)
      have hsecond : splitDoubleColon ([':'].intercalate right) = [[':'].intercalate right] := by
        simpa [splitDoubleColon] using splitDoubleColon_intercalate hrights []
      have htwo : splitDoubleColon
          ([':'].intercalate left ++ ':' :: ':' :: [':'].intercalate right) =
            [[':'].intercalate left, [':'].intercalate right] := by
        simpa [splitDoubleColon, hsecond] using hsplit
      rw [hexGroups_two htwo, parsePart_intercalate hlefts, parsePart_intercalate hrights]
      obtain ⟨hall, rfl⟩ := forall₂_isGroup.mp hleft
      obtain ⟨hall', rfl⟩ := forall₂_isGroup.mp hright
      simp only [List.length_map] at hlength ⊢
      rw [if_pos ⟨hlength, hall, hall'⟩]

/-! ## A trailing dotted quad -/

lemma ipv4Octets_iff {text : List Char} {parts : List (List Char)} :
    ipv4Octets text = some parts ↔ text = ['.'].intercalate parts ∧ parts.length = 4 ∧
      ∀ part ∈ parts, (∀ c ∈ part, c.isDigit = true) ∧ 1 ≤ part.length ∧ part.length ≤ 3 := by
  simp only [ipv4Octets, Option.ite_none_right_eq_some, Option.some.injEq, List.all_eq_true,
    Bool.and_eq_true, decide_eq_true_eq, and_assoc]
  constructor
  · rintro ⟨hlength, hall, rfl⟩
    exact ⟨(List.intercalate_splitOn '.').symm, hlength, hall⟩
  · rintro ⟨rfl, hlength, hall⟩
    have hdot : ∀ part ∈ parts, '.' ∉ part := fun part hpart hmem =>
      absurd ((hall part hpart).1 _ hmem) (by decide)
    rw [List.splitOn_intercalate '.' hdot (by rintro rfl; simp at hlength)]
    exact ⟨hlength, hall, rfl⟩

/-- A literal quad holds four dots and digits only. -/
lemma ipv4Octets_chars {text : List Char} {parts : List (List Char)}
    (h : ipv4Octets text = some parts) :
    '.' ∈ text ∧ ∀ c ∈ text, c = '.' ∨ c.isDigit = true := by
  obtain ⟨rfl, hlength, hall⟩ := ipv4Octets_iff.mp h
  match parts, hlength with
  | [a, b, c, d], _ =>
    simp only [List.forall_mem_cons] at hall
    obtain ⟨ha, hb, hc, hd, -⟩ := hall
    simp only [List.intercalate_cons_cons, List.intercalate_singleton]
    refine ⟨by simp, fun x hx => ?_⟩
    simp only [List.mem_append, List.mem_singleton] at hx
    rcases hx with (hx | hx) | (hx | hx) | (hx | hx) | hx
    all_goals first | exact .inl hx | skip
    · exact .inr (ha.1 x hx)
    · exact .inr (hb.1 x hx)
    · exact .inr (hc.1 x hx)
    · exact .inr (hd.1 x hx)

lemma ipv4Octets_colon {text : List Char} {parts : List (List Char)}
    (h : ipv4Octets text = some parts) : ':' ∉ text := by
  intro hmem
  rcases (ipv4Octets_chars h).2 _ hmem with hc | hc <;> exact absurd hc (by decide)

lemma forall₂_paddedOctet {parts : List (List Char)} {values : List ℕ} :
    List.Forall₂ PaddedOctet parts values ↔
      (∀ part ∈ parts, (∀ c ∈ part, c.isDigit = true) ∧ 1 ≤ part.length ∧ part.length ≤ 3) ∧
        values = parts.map parseDecimal ∧ ∀ n ∈ values, n < 256 := by
  constructor
  · intro h
    induction h with
    | nil => simp
    | @cons part n parts values hpart _ ih =>
      obtain ⟨hn, hlow, hhigh, hdigits, hvalue⟩ := hpart
      refine ⟨List.forall_mem_cons.mpr ⟨⟨hdigits, hlow, hhigh⟩, ih.1⟩, ?_,
        List.forall_mem_cons.mpr ⟨hn, ih.2.2⟩⟩
      rw [List.map_cons, hvalue, ← ih.2.1]
  · rintro ⟨hparts, rfl, hvalues⟩
    induction parts with
    | nil => exact .nil
    | cons part parts ih =>
      rw [List.forall_mem_cons] at hparts
      rw [List.map_cons, List.forall_mem_cons] at hvalues
      exact .cons ⟨hvalues.1, hparts.1.2.1, hparts.1.2.2, hparts.1.1, rfl⟩ (ih hparts.2 hvalues.2)

lemma quad_padded {text : List Char} {values : List ℕ} :
    Quad PaddedOctet text values ↔ ∃ parts, ipv4Octets text = some parts ∧
      values = parts.map parseDecimal ∧ ∀ n ∈ values, n < 256 := by
  constructor
  · rintro ⟨parts, htext, hparts, hlength⟩
    obtain ⟨hall, hvalues, hn⟩ := forall₂_paddedOctet.mp hparts
    exact ⟨parts, ipv4Octets_iff.mpr ⟨htext, by simpa [hvalues] using hlength, hall⟩, hvalues, hn⟩
  · rintro ⟨parts, hparts, hvalues, hn⟩
    obtain ⟨htext, hlength, hall⟩ := ipv4Octets_iff.mp hparts
    exact ⟨parts, htext, forall₂_paddedOctet.mpr ⟨hall, hvalues, hn⟩, by simp [hvalues, hlength]⟩

/-- The text up to the last colon, and the rest. -/
lemma dottedTail_append (front : List Char) {tail : List Char} (htail : ':' ∉ tail) :
    dottedTail (front ++ ':' :: tail) =
      (ipv4Octets tail).map fun octets => (front ++ [':'], octets.map parseDecimal) := by
  have htake : ((front ++ ':' :: tail).reverse.takeWhile (· ≠ ':')).reverse = tail := by
    have hall : ∀ c ∈ tail.reverse, decide (c ≠ ':') = true := by
      intro c hc
      simpa using fun h : c = ':' => htail (by simpa [h] using hc)
    rw [List.reverse_append, List.reverse_cons, List.append_assoc,
      List.takeWhile_append_of_pos hall]
    simp
  have hhead : (front ++ ':' :: tail).take ((front ++ ':' :: tail).length - tail.length) =
      front ++ [':'] := by
    have hsplit : front ++ ':' :: tail = (front ++ [':']) ++ tail := by simp
    rw [hsplit, List.length_append, Nat.add_sub_cancel, List.take_left]
  simp only [dottedTail, htake, hhead]
  simp

lemma dottedTail_none {text : List Char} (htext : ':' ∉ text) : dottedTail text = none := by
  have hall : ∀ c ∈ text.reverse, decide (c ≠ ':') = true := by
    intro c hc
    simpa using fun h : c = ':' => htext (by simpa [h] using hc)
  have htake : text.reverse.takeWhile (· ≠ ':') = text.reverse := by
    have hfront : (text.reverse ++ []).takeWhile (· ≠ ':') =
        text.reverse ++ [].takeWhile (· ≠ ':') := List.takeWhile_append_of_pos hall
    simpa using hfront
  simp only [dottedTail, htake]
  simp

/-- Every text is cut at its last colon, if it has one. -/
lemma exists_last_colon {text : List Char} (h : ':' ∈ text) :
    ∃ front tail, text = front ++ ':' :: tail ∧ ':' ∉ tail := by
  induction text with
  | nil => simp at h
  | cons c text ih =>
    by_cases htext : ':' ∈ text
    · obtain ⟨front, tail, rfl, htail⟩ := ih htext
      exact ⟨c :: front, tail, rfl, htail⟩
    · obtain rfl : ':' = c := by simpa [htext] using h
      exact ⟨[], text, rfl, htext⟩

lemma digitChar_hex {d : ℕ} (hd : d < 16) :
    isHexDigit d.digitChar = true ∧ hexValue d.digitChar = d := by
  interval_cases d <;> decide

lemma toDigits_hex (n : ℕ) :
    (∀ c ∈ Nat.toDigits 16 n, isHexDigit c = true) ∧ parseHex (Nat.toDigits 16 n) = n := by
  induction n using Nat.strongRecOn with
  | _ n ih =>
    rw [Nat.toDigits_eq_if (by omega)]
    split_ifs with hn
    · obtain ⟨hhex, hvalue⟩ := digitChar_hex hn
      simp [hhex, parseHex, hvalue]
    · obtain ⟨hhex, hvalue⟩ := digitChar_hex (Nat.mod_lt n (by omega : 0 < 16))
      obtain ⟨hrest, hnext⟩ := ih (n / 16) (by omega)
      refine ⟨fun c hc => ?_, ?_⟩
      · rcases List.mem_append.mp hc with hc | hc
        · exact hrest c hc
        · rwa [List.mem_singleton.mp hc]
      · rw [parseHex, List.foldl_append, ← parseHex, hnext]
        simp only [List.foldl_cons, List.foldl_nil, hvalue]
        omega

/-- The two groups of a quad are read back as they are written. -/
lemma isGroup_toDigits {n : ℕ} (hn : n < 65536) : IsGroup (Nat.toDigits 16 n) n :=
  ⟨Nat.length_toDigits_pos, (Nat.length_toDigits_le_iff (by omega) (by omega)).mpr hn,
    (toDigits_hex n).1, (toDigits_hex n).2⟩

/-- The groups a quad of up to three digits an octet writes. -/
lemma hexTail_pieces (values : List ℕ) (hlength : values.length = 4)
    (hvalues : ∀ n ∈ values, n < 256) :
    ∃ w x y z high low, values = [w, x, y, z] ∧ hexTail values = high ++ ':' :: low ∧
      IsGroup high (256 * w + x) ∧ IsGroup low (256 * y + z) := by
  match values, hlength with
  | [w, x, y, z], _ =>
    simp only [List.forall_mem_cons] at hvalues
    obtain ⟨hw, hx, hy, hz, -⟩ := hvalues
    refine ⟨w, x, y, z, _, _, rfl, rfl, ?_, ?_⟩
    · simp only [List.getD_cons_zero, List.getD_cons_succ]
      rw [Nat.mul_comm]
      exact isGroup_toDigits (by omega)
    · simp only [List.getD_cons_zero, List.getD_cons_succ]
      rw [Nat.mul_comm]
      exact isGroup_toDigits (by omega)

/-- A list of pieces ends in a quad or has none. -/
lemma Pieces.cases_quad {texts : List (List Char)} {groups : List ℕ}
    (h : Pieces octet texts groups) :
    Pieces noOctet texts groups ∨ ∃ init before text w x y z, texts = init ++ [text] ∧
      groups = before ++ [256 * w + x, 256 * y + z] ∧ List.Forall₂ IsGroup init before ∧
        Quad octet text [w, x, y, z] := by
  induction h with
  | nil => exact .inl .nil
  | @quad text w x y z hquad => exact .inr ⟨[], [], text, w, x, y, z, rfl, rfl, .nil, hquad⟩
  | @group text texts g groups htext _ ih =>
    rcases ih with hnone | ⟨init, before, last, w, x, y, z, rfl, rfl, hinit, hquad⟩
    · exact .inl (.group htext hnone)
    · exact .inr ⟨text :: init, g :: before, last, w, x, y, z, rfl, rfl, .cons htext hinit, hquad⟩

lemma Octet.padded {text : List Char} {n : ℕ} (h : Octet text n) : PaddedOctet text n := by
  obtain ⟨hn, rfl⟩ := h
  refine ⟨hn, Nat.length_toDigits_pos,
    (Nat.length_toDigits_le_iff (by omega) (by omega)).mpr (by omega),
    fun c hc => Nat.isDigit_of_mem_toDigits (by omega) (by omega) hc, ?_⟩
  have hvalue := @Nat.ofDigitChars_ten_toDigits n
  rwa [Nat.ofDigitChars_eq_foldl] at hvalue

lemma Form.padded {text : List Char} {groups : List ℕ} (h : Form Octet text groups) :
    Form PaddedOctet text groups := h.mono fun _ _ => Octet.padded

/-- What comes before a piece ends in a colon, unless nothing does. -/
lemma colons_end (texts : List (List Char)) :
    texts = [] ∨ ∃ front, colons texts = front ++ [':'] := by
  rcases List.eq_nil_or_concat texts with rfl | ⟨init, last, rfl⟩
  · exact .inl rfl
  · exact .inr ⟨colons init ++ last, by simp [colons]⟩

/-- A form has no quad, or writes its last two groups as one. -/
lemma Form.cases_quad {text : List Char} {groups : List ℕ} (h : Form octet text groups) :
    Form noOctet text groups ∨ ∃ front tail w x y z, text = front ++ ':' :: tail ∧
      Quad octet tail [w, x, y, z] ∧
      ∀ high low, IsGroup high (256 * w + x) → IsGroup low (256 * y + z) →
        Form noOctet (front ++ ':' :: high ++ ':' :: low) groups := by
  cases h with
  | @full texts groups hpieces hlength =>
    rcases hpieces.cases_quad with
      hnone | ⟨init, before, tail, w, x, y, z, rfl, rfl, hinit, hquad⟩
    · exact .inl (.full hnone hlength)
    · refine .inr ?_
      obtain rfl | ⟨front, hfront⟩ := colons_end init
      · simp [List.forall₂_nil_left_iff.mp hinit] at hlength
      · refine ⟨front, tail, w, x, y, z, ?_, hquad, fun high low hhigh hlow => ?_⟩
        · simp [intercalate_append_singleton, hfront]
        · have hpieces' : Pieces noOctet (init ++ [high, low])
              (before ++ [256 * w + x, 256 * y + z]) :=
            .append_group hinit (.group hhigh (.group hlow .nil))
          have htext : [':'].intercalate (init ++ [high, low]) =
              front ++ ':' :: high ++ ':' :: low := by
            have hsplit : init ++ [high, low] = (init ++ [high]) ++ [low] := by simp
            rw [hsplit, intercalate_append_singleton]
            simp only [colons] at hfront ⊢
            simp [hfront]
          rw [← htext]
          exact .full hpieces' (by simpa using hlength)
  | @compressed left right before after hleft hright hlength =>
    rcases hright.cases_quad with
      hnone | ⟨init, middle, tail, w, x, y, z, rfl, rfl, hinit, hquad⟩
    · exact .inl (.compressed hleft hnone hlength)
    · refine .inr ?_
      obtain ⟨front, hfront⟩ :
          ∃ front, [':'].intercalate left ++ ':' :: ':' :: colons init = front ++ [':'] := by
        obtain rfl | ⟨front, hfront⟩ := colons_end init
        · exact ⟨[':'].intercalate left ++ [':'], by simp [colons]⟩
        · exact ⟨[':'].intercalate left ++ ':' :: ':' :: front, by simp [hfront]⟩
      refine ⟨front, tail, w, x, y, z, ?_, hquad, fun high low hhigh hlow => ?_⟩
      · rw [intercalate_append_singleton]
        simpa using congrArg (· ++ tail) hfront
      · have hpieces' : Pieces noOctet (init ++ [high, low])
            (middle ++ [256 * w + x, 256 * y + z]) :=
          .append_group hinit (.group hhigh (.group hlow .nil))
        have htext : [':'].intercalate left ++ ':' :: ':' :: [':'].intercalate
            (init ++ [high, low]) = front ++ ':' :: high ++ ':' :: low := by
          have hsplit : init ++ [high, low] = (init ++ [high]) ++ [low] := by simp
          have hcolons : colons (init ++ [high]) = colons init ++ high ++ [':'] := by
            simp [colons]
          rw [hsplit, intercalate_append_singleton, hcolons]
          simpa using congrArg (· ++ (high ++ ':' :: low)) hfront
        rw [← htext]
        exact .compressed hleft hpieces' (by simpa using hlength)

lemma append_cons_inj {front front' rest rest' : List Char} {c : Char} (hfront : c ∉ front)
    (hfront' : c ∉ front') (h : front ++ c :: rest = front' ++ c :: rest') :
    front = front' ∧ rest = rest' := by
  induction front generalizing front' with
  | nil =>
    cases front' with
    | nil => exact ⟨rfl, (List.cons.inj h).2⟩
    | cons first' front' => exact absurd (List.cons.inj h).1 fun heq => hfront' (by simp [heq])
  | cons first front ih =>
    cases front' with
    | nil => exact absurd (List.cons.inj h).1 fun heq => hfront (by simp [heq])
    | cons first' front' =>
      obtain ⟨rfl, hrest⟩ := List.cons.inj h
      obtain ⟨rfl, hafter⟩ := ih (fun hc => hfront (by simp [hc])) (fun hc => hfront' (by simp [hc]))
        hrest
      exact ⟨rfl, hafter⟩

lemma last_colon_inj {front front' tail tail' : List Char} (htail : ':' ∉ tail)
    (htail' : ':' ∉ tail') (h : front ++ ':' :: tail = front' ++ ':' :: tail') :
    front = front' ∧ tail = tail' := by
  have hreverse : tail.reverse ++ ':' :: front.reverse = tail'.reverse ++ ':' :: front'.reverse := by
    simpa using congrArg List.reverse h
  obtain ⟨hrest, hfirst⟩ := append_cons_inj (by simpa) (by simpa) hreverse
  exact ⟨by simpa using hfirst, by simpa using hrest⟩

/-- The last piece is what follows the last colon. -/
lemma last_piece {before tail front tail' : List Char}
    (hbefore : before = [] ∨ ∃ init, before = init ++ [':']) (htail : ':' ∉ tail)
    (htail' : ':' ∉ tail') (h : before ++ tail = front ++ ':' :: tail') :
    tail = tail' ∧ before = front ++ [':'] := by
  rcases hbefore with rfl | ⟨init, rfl⟩
  · exact absurd (by rw [show tail = front ++ ':' :: tail' from h]; simp) htail
  · obtain ⟨rfl, rfl⟩ := last_colon_inj htail htail' (by simpa using h)
    exact ⟨rfl, rfl⟩

lemma append_colons_end {before : List Char} (hbefore : before = [] ∨ ∃ init, before = init ++ [':'])
    (texts : List (List Char)) :
    before ++ colons texts = [] ∨ ∃ init, before ++ colons texts = init ++ [':'] := by
  obtain rfl | ⟨init, hinit⟩ := colons_end texts
  · simpa [colons] using hbefore
  · exact .inr ⟨before ++ init, by simp [hinit]⟩

/-- Two last pieces of a text are the last two of its list of pieces. -/
lemma last_two_pieces (before : List Char) {front high low : List Char}
    {texts : List (List Char)} {g g' : ℕ}
    (hbefore : before = [] ∨ ∃ init, before = init ++ [':', ':'])
    (htexts : ∀ text ∈ texts, text ≠ [] ∧ ':' ∉ text) (hhigh : IsGroup high g)
    (hlow : IsGroup low g')
    (h : before ++ [':'].intercalate texts = front ++ ':' :: high ++ ':' :: low) :
    ∃ init, texts = init ++ [high, low] ∧ before ++ colons init = front ++ [':'] := by
  have hend : before = [] ∨ ∃ init, before = init ++ [':'] := by
    rcases hbefore with rfl | ⟨init, rfl⟩
    · exact .inl rfl
    · exact .inr ⟨init ++ [':'], by simp⟩
  rcases List.eq_nil_or_concat texts with rfl | ⟨texts, last, rfl⟩
  · obtain ⟨rfl, -⟩ := last_piece hend List.not_mem_nil hlow.colon h
    exact absurd rfl hlow.ne_nil
  · rw [List.concat_eq_append] at htexts h ⊢
    rw [intercalate_append_singleton, ← List.append_assoc] at h
    obtain ⟨rfl, hfirst⟩ := last_piece (append_colons_end hend texts)
      (htexts last (by simp)).2 hlow.colon h
    rcases List.eq_nil_or_concat texts with rfl | ⟨init, next, rfl⟩
    · rcases hbefore with rfl | ⟨init, rfl⟩
      · simp [colons] at hfirst
      · have hcut : (init ++ [':']) ++ [] = front ++ ':' :: high := by
          have hcolon : (init ++ [':']) ++ [':'] = (front ++ ':' :: high) ++ [':'] := by
            simpa [colons] using hfirst
          simpa using List.append_cancel_right hcolon
        obtain ⟨rfl, -⟩ := last_piece (.inr ⟨init, rfl⟩) (by simp) hhigh.colon hcut
        exact absurd rfl hhigh.ne_nil
    · rw [List.concat_eq_append] at htexts hfirst ⊢
      have hcut : (before ++ colons init) ++ next = front ++ ':' :: high := by
        have hcolon : ((before ++ colons init) ++ next) ++ [':'] =
            (front ++ ':' :: high) ++ [':'] := by
          simpa [colons] using hfirst
        exact List.append_cancel_right hcolon
      obtain ⟨rfl, hrest⟩ := last_piece (append_colons_end hend init)
        (htexts next (by simp)).2 hhigh.colon hcut
      exact ⟨init, by simp, hrest⟩

lemma forall₂_last_two {init : List (List Char)} {high low : List Char} {groups : List ℕ}
    {g g' : ℕ} (h : List.Forall₂ IsGroup (init ++ [high, low]) groups) (hhigh : IsGroup high g)
    (hlow : IsGroup low g') :
    ∃ before, groups = before ++ [g, g'] ∧ List.Forall₂ IsGroup init before := by
  obtain ⟨hall, rfl⟩ := forall₂_isGroup.mp h
  rw [List.all_append, Bool.and_eq_true] at hall
  refine ⟨init.map parseHex, ?_, forall₂_isGroup.mpr ⟨hall.1, rfl⟩⟩
  simp [hhigh.2.2.2, hlow.2.2.2]

/-- The last two groups of a form may be written as a quad. -/
lemma Form.quad {front high low tail : List Char} {groups : List ℕ} {w x y z : ℕ}
    (h : Form noOctet (front ++ ':' :: high ++ ':' :: low) groups)
    (hhigh : IsGroup high (256 * w + x)) (hlow : IsGroup low (256 * y + z))
    (hquad : Quad octet tail [w, x, y, z]) : Form octet (front ++ ':' :: tail) groups := by
  generalize htext : front ++ ':' :: high ++ ':' :: low = text at h
  cases h with
  | @full texts groups hpieces hlength =>
    rw [pieces_noOctet] at hpieces
    obtain ⟨init, rfl, hinit⟩ := last_two_pieces [] (.inl rfl)
      (groups_texts hpieces) hhigh hlow (by simpa using htext.symm)
    obtain ⟨before, rfl, hbefore⟩ := forall₂_last_two hpieces hhigh hlow
    have hform := Form.full (Pieces.append_group hbefore (.quad hquad)) hlength
    rw [intercalate_append_singleton] at hform
    rw [List.nil_append] at hinit
    rw [hinit] at hform
    simpa using hform
  | @compressed left right before after hleft hright hlength =>
    rw [pieces_noOctet] at hright
    obtain ⟨init, rfl, hinit⟩ := last_two_pieces ([':'].intercalate left ++ [':', ':'])
      (.inr ⟨_, rfl⟩)
      (groups_texts hright) hhigh hlow (by simpa using htext.symm)
    obtain ⟨middle, rfl, hmiddle⟩ := forall₂_last_two hright hhigh hlow
    have hform := Form.compressed hleft (Pieces.append_group hmiddle (.quad hquad)) hlength
    rw [intercalate_append_singleton] at hform
    have htail : [':'].intercalate left ++ ':' :: ':' :: (colons init ++ tail) =
        front ++ ':' :: tail := by
      simpa using congrArg (· ++ tail) hinit
    rwa [htail] at hform

lemma noOctet_chars {text : List Char} {groups : List ℕ} (h : Form noOctet text groups) :
    ∀ c ∈ text, isHexDigit c = true ∨ c = ':' := by
  have hjoined : ∀ texts groups, List.Forall₂ IsGroup texts groups →
      ∀ c ∈ [':'].intercalate texts, isHexDigit c = true ∨ c = ':' := by
    intro texts groups htexts
    induction htexts with
    | nil => simp
    | @cons text g texts groups htext hrest ih =>
      cases hrest with
      | nil => simpa using fun c hc => .inl (htext.2.2.1 c hc)
      | cons _ _ =>
        rw [List.intercalate_cons_cons]
        intro c hc
        simp only [List.mem_append, List.mem_singleton, or_assoc] at hc
        rcases hc with hc | hc | hc
        · exact .inl (htext.2.2.1 c hc)
        · exact .inr hc
        · exact ih c hc
  cases h with
  | full hpieces _ => exact hjoined _ _ (pieces_noOctet.mp hpieces)
  | compressed hleft hright _ =>
    intro c hc
    simp only [List.mem_append, List.mem_cons] at hc
    rcases hc with hc | hc | hc | hc
    · exact hjoined _ _ (pieces_noOctet.mp hleft) c hc
    · exact .inr hc
    · exact .inr hc
    · exact hjoined _ _ (pieces_noOctet.mp hright) c hc

lemma dottedTail_noOctet {text : List Char} {groups : List ℕ} (h : Form noOctet text groups) :
    dottedTail text = none := by
  by_cases hcolon : ':' ∈ text
  · obtain ⟨front, tail, rfl, htail⟩ := exists_last_colon hcolon
    rw [dottedTail_append front htail, Option.map_eq_none_iff]
    by_contra hsome
    obtain ⟨parts, hparts⟩ := Option.ne_none_iff_exists'.mp hsome
    have hdot := noOctet_chars h '.' (by simp [(ipv4Octets_chars hparts).1])
    revert hdot
    decide
  · exact dottedTail_none hcolon

/-- The reader accepts the textual forms, octets of a quad written with up to three digits. -/
theorem ipv6Groups_iff {text : List Char} {groups : List ℕ} :
    ipv6Groups text = some groups ↔ Form PaddedOctet text groups := by
  constructor
  · intro h
    by_cases hcolon : ':' ∈ text
    · obtain ⟨front, tail, rfl, htail⟩ := exists_last_colon hcolon
      rw [ipv6Groups, dottedTail_append front htail] at h
      cases hparts : ipv4Octets tail with
      | none =>
        rw [hparts] at h
        exact (hexGroups_iff.mp h).mono fun _ _ => False.elim
      | some parts =>
        rw [hparts] at h
        simp only [Option.map_some] at h
        split_ifs at h with hover
        have hvalues : ∀ n ∈ parts.map parseDecimal, n < 256 := by
          intro n hn
          by_contra hlarge
          exact hover (List.any_eq_true.mpr ⟨n, hn, by simp; omega⟩)
        have hquad := quad_padded.mpr ⟨parts, hparts, rfl, hvalues⟩
        obtain ⟨w, x, y, z, high, low, hfour, htext, hhigh, hlow⟩ :=
          hexTail_pieces _ (by simp [(ipv4Octets_iff.mp hparts).2.1]) hvalues
        rw [htext] at h
        rw [hfour] at hquad
        exact Form.quad (by simpa using hexGroups_iff.mp h) hhigh hlow hquad
    · rw [ipv6Groups, dottedTail_none hcolon] at h
      exact (hexGroups_iff.mp h).mono fun _ _ => False.elim
  · intro hform
    rcases hform.cases_quad with hnone | ⟨front, tail, w, x, y, z, rfl, hquad, hgroups⟩
    · rw [ipv6Groups, dottedTail_noOctet hnone]
      exact hexGroups_iff.mpr hnone
    · obtain ⟨parts, hparts, hvalues, hn⟩ := quad_padded.mp hquad
      obtain ⟨w', x', y', z', high, low, hfour, htext, hhigh, hlow⟩ :=
        hexTail_pieces [w, x, y, z] rfl hn
      obtain ⟨rfl, rfl, rfl, rfl⟩ : w = w' ∧ x = x' ∧ y = y' ∧ z = z' := by simpa using hfour
      have hsmall : ¬ [w, x, y, z].any (255 < ·) = true := by
        simp only [List.any_eq_true, decide_eq_true_eq]
        rintro ⟨n, hmem, hlarge⟩
        have := hn n hmem
        omega
      rw [ipv6Groups, dottedTail_append front (ipv4Octets_colon hparts), hparts]
      simp only [Option.map_some, ← hvalues, if_neg hsmall, htext]
      exact hexGroups_iff.mpr (by simpa using hgroups high low hhigh hlow)

end Maple.SafeFetch
