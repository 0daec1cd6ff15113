import Mathlib
import Maple.SafeFetchRange

/-! The verdict on a host or an address, against the ranges its address lies in. -/

namespace Maple.SafeFetch

/-! ## Literals -/

/-- An IPv6 address in one of its textual forms, with or without brackets. -/
inductive Ipv6Literal (octet : List Char → ℕ → Prop) : List Char → ℕ → Prop
  | bare {text : List Char} {groups : List ℕ} (hform : Form octet text groups) :
      Ipv6Literal octet text (v6 groups)
  | bracketed {text : List Char} {groups : List ℕ} (hform : Form octet text groups) :
      Ipv6Literal octet ('[' :: text ++ [']']) (v6 groups)

/-- What a host or an address text denotes. -/
inductive Denotes : List Char → IpAddress → Prop
  | ipv4 {text : List Char} {a b c d : ℕ} (hquad : Quad Octet text [a, b, c, d]) :
      Denotes text (.ipv4 (v4 a b c d))
  | ipv6 {text : List Char} {n : ℕ} (hliteral : Ipv6Literal Octet text n) :
      Denotes text (.ipv6 n)

/-- The verdict on `host` depends only on the address it denotes; a bracketed host or one with a
colon that denotes none is refused. -/
structure JudgedByAddress (host : String) : Prop where
  address {a : IpAddress} : Denotes host.toList a →
    (isPrivateAddress host = true ↔ a.Refused) ∧ (isPrivateHost host = true ↔ a.Refused)
  malformed : host.toList.head? = some '[' ∨ ':' ∈ host.toList →
    (¬ ∃ a, Denotes host.toList a) → isPrivateAddress host = true ∧ isPrivateHost host = true

/-! ## Characters -/

variable {octet : List Char → ℕ → Prop}

def literalChar (c : Char) : Bool := isHexDigit c || c == ':' || c == '.'

lemma isHexDigit_of_isDigit {c : Char} (h : c.isDigit = true) : isHexDigit c = true := by
  simp [isHexDigit, h]

lemma Form.chars {text : List Char} {groups : List ℕ} (h : Form PaddedOctet text groups) :
    ∀ c ∈ text, literalChar c = true := by
  have hforms : ∀ text groups, Form noOctet text groups → ∀ c ∈ text, literalChar c = true := by
    intro text groups hform c hc
    rcases noOctet_chars hform c hc with hhex | rfl
    · simp [literalChar, hhex]
    · decide
  rcases h.cases_quad with hnone | ⟨front, tail, w, x, y, z, rfl, hquad, hgroups⟩
  · exact hforms text groups hnone
  · obtain ⟨parts, hparts, -, hn⟩ := quad_padded.mp hquad
    obtain ⟨w', x', y', z', high, low, hfour, -, hhigh, hlow⟩ :=
      hexTail_pieces [w, x, y, z] rfl hn
    obtain ⟨rfl, rfl, rfl, rfl⟩ : w = w' ∧ x = x' ∧ y = y' ∧ z = z' := by simpa using hfour
    have hfront := hforms _ _ (hgroups high low hhigh hlow)
    intro c hc
    rcases List.mem_append.mp hc with hc | hc
    · exact hfront c (by simp [hc])
    rcases List.mem_cons.mp hc with rfl | hc
    · decide
    rcases (ipv4Octets_chars hparts).2 c hc with rfl | hdigit
    · decide
    · simp [literalChar, isHexDigit_of_isDigit hdigit]

lemma Form.colon {text : List Char} {groups : List ℕ} (h : Form octet text groups) :
    ':' ∈ text := by
  rcases h.cases_quad with hnone | ⟨front, tail, w, x, y, z, rfl, -, -⟩
  · cases hnone with
    | @full texts groups hpieces hlength =>
      rw [pieces_noOctet] at hpieces
      match texts, groups, hpieces with
      | [], _, .nil => simp at hlength
      | [_], [_], _ => simp at hlength
      | first :: second :: rest, _, _ => simp [List.intercalate_cons_cons]
    | compressed _ _ _ => simp
  · simp

lemma hexValue_lt {c : Char} (h : isHexDigit c = true) : hexValue c < 16 := by
  simp only [isHexDigit, Char.isDigit, Bool.or_eq_true, Bool.and_eq_true, decide_eq_true_eq,
    ge_iff_le, Char.le_def, UInt32.le_iff_toNat_le] at h
  have hdigit : c.isDigit = true ↔ 48 ≤ c.val.toNat ∧ c.val.toNat ≤ 57 := by
    simp [Char.isDigit, UInt32.le_iff_toNat_le]
  have hnat : c.toNat = c.val.toNat := rfl
  simp only [hexValue, hdigit, Char.le_def, UInt32.le_iff_toNat_le, hnat]
  simp at h ⊢
  split_ifs <;> omega

lemma parseHex_lt {text : List Char} (h : ∀ c ∈ text, isHexDigit c = true) :
    parseHex text < 16 ^ text.length := by
  induction text using List.reverseRecOn with
  | nil => decide
  | append_singleton text c ih =>
    have hrest := ih fun c hc => h c (by simp [hc])
    have hlast := hexValue_lt (h c (by simp))
    rw [parseHex, List.foldl_append, ← parseHex, List.length_append, List.length_singleton,
      pow_succ]
    simp only [List.foldl_cons, List.foldl_nil]
    omega

lemma IsGroup.lt {text : List Char} {g : ℕ} (h : IsGroup text g) : g < 65536 := by
  obtain ⟨-, hlength, hhex, rfl⟩ := h
  calc parseHex text < 16 ^ text.length := parseHex_lt hhex
    _ ≤ 16 ^ 4 := Nat.pow_le_pow_right (by omega) hlength
    _ = 65536 := by norm_num

lemma Pieces.lt {texts : List (List Char)} {groups : List ℕ}
    (h : Pieces PaddedOctet texts groups) : ∀ g ∈ groups, g < 65536 := by
  induction h with
  | nil => simp
  | quad hquad =>
    obtain ⟨-, -, -, hn⟩ := quad_padded.mp hquad
    simp only [List.forall_mem_cons] at hn ⊢
    refine ⟨by omega, by omega, by simp⟩
  | group htext _ ih => exact List.forall_mem_cons.mpr ⟨htext.lt, ih⟩

lemma Form.lt {text : List Char} {groups : List ℕ} (h : Form PaddedOctet text groups) :
    ∀ g ∈ groups, g < 65536 := by
  cases h with
  | full hpieces _ => exact hpieces.lt
  | compressed hleft hright _ =>
    have hleft' : Pieces PaddedOctet _ _ := hleft.mono fun _ _ => False.elim
    have hbefore := hleft'.lt
    intro g hg
    simp only [List.mem_append, List.mem_replicate] at hg
    rcases hg with (hg | hg) | hg
    · exact hbefore g hg
    · omega
    · exact hright.lt g hg

/-! ## The verdict on an IPv6 literal -/

lemma verdict_groups {text : List Char} {groups : List ℕ} (h : Form PaddedOctet text groups) :
    isPrivateIPv6Groups groups = true ↔ (IpAddress.ipv6 (v6 groups)).Refused := by
  have hlt := h.lt
  match groups, h.length with
  | [g₀, g₁, g₂, g₃, g₄, g₅, g₆, g₇], _ =>
    simp only [List.forall_mem_cons] at hlt
    obtain ⟨h₀, h₁, h₂, h₃, h₄, h₅, h₆, h₇, -⟩ := hlt
    exact isPrivateIPv6Groups_iff h₀ h₁ h₂ h₃ h₄ h₅ h₆ h₇

lemma unbracket_bracketed (text : List Char) : unbracket ('[' :: text ++ [']']) = text := by
  have hlast : ('[' :: text ++ [']']).getLast? = some ']' := by
    rw [List.getLast?_append]
    rfl
  rw [unbracket, if_pos ⟨rfl, hlast⟩]
  simp

lemma unbracket_bare {text : List Char} (h : text.head? ≠ some '[') : unbracket text = text :=
  if_neg fun hboth => h hboth.1

lemma Form.head {text : List Char} {groups : List ℕ} (h : Form PaddedOctet text groups) :
    text.head? ≠ some '[' := by
  intro hhead
  exact absurd (h.chars _ (List.mem_of_mem_head? hhead)) (by decide)

/-- Every text is bare or in brackets around what is read. -/
lemma unbracket_cases (text : List Char) :
    unbracket text = text ∨ text = '[' :: unbracket text ++ [']'] := by
  by_cases h : text.head? = some '[' ∧ text.getLast? = some ']'
  · refine .inr ?_
    rw [unbracket, if_pos h]
    obtain ⟨hhead, hlast⟩ := h
    cases text with
    | nil => simp at hhead
    | cons c text =>
      obtain rfl : c = '[' := by simpa using hhead
      rcases List.eq_nil_or_concat text with rfl | ⟨inner, last, rfl⟩
      · simp at hlast
      · rw [List.concat_eq_append, ← List.cons_append, List.getLast?_append] at hlast
        obtain rfl : last = ']' := by simpa using hlast
        simp
  · exact .inl (if_neg h)

lemma ipv6Literal_iff {text : List Char} {n : ℕ} : Ipv6Literal PaddedOctet text n ↔
    ∃ groups, ipv6Groups (unbracket text) = some groups ∧ n = v6 groups := by
  constructor
  · rintro (⟨hform⟩ | ⟨hform⟩)
    · exact ⟨_, by rw [unbracket_bare hform.head]; exact ipv6Groups_iff.mpr hform, rfl⟩
    · exact ⟨_, by rw [unbracket_bracketed]; exact ipv6Groups_iff.mpr hform, rfl⟩
  · rintro ⟨groups, hgroups, rfl⟩
    have hform := ipv6Groups_iff.mp hgroups
    rcases unbracket_cases text with hbare | hbracketed
    · rw [hbare] at hform
      exact .bare hform
    · rw [hbracketed]
      exact .bracketed hform

lemma Ipv6Literal.colon {text : List Char} {n : ℕ} (h : Ipv6Literal octet text n) :
    ':' ∈ text := by
  cases h with
  | bare hform => exact hform.colon
  | bracketed hform => simp [hform.colon]

lemma isPrivateIPv6_literal {text : List Char} {n : ℕ} (h : Ipv6Literal PaddedOctet text n) :
    isPrivateIPv6 text = true ↔ (IpAddress.ipv6 n).Refused := by
  obtain ⟨groups, hgroups, rfl⟩ := ipv6Literal_iff.mp h
  simp only [isPrivateIPv6, hgroups]
  exact verdict_groups (ipv6Groups_iff.mp hgroups)

/-- What is let through is a literal of a public address. -/
lemma isPrivateIPv6_accepted {text : List Char} (htext : text.head? = some '[' ∨ ':' ∈ text)
    (h : isPrivateIPv6 text = false) :
    ∃ n, Ipv6Literal PaddedOctet text n ∧ ¬ (IpAddress.ipv6 n).Refused := by
  cases hgroups : ipv6Groups (unbracket text) with
  | none =>
    simp only [isPrivateIPv6, hgroups, Bool.or_eq_false_iff, beq_eq_false_iff_ne] at h
    obtain ⟨hhead, hcolon⟩ := h
    rw [unbracket_bare hhead] at hcolon
    rcases htext with h | h
    · exact absurd h hhead
    · simp [h] at hcolon
  | some groups =>
    have hliteral := ipv6Literal_iff.mpr ⟨groups, hgroups, rfl⟩
    refine ⟨_, hliteral, ?_⟩
    rw [← isPrivateIPv6_literal hliteral, h]
    simp

/-! ## Lower case and the trailing dot -/

lemma toLower_eq_self {c : Char} (h : ¬ (65 ≤ c.toNat ∧ c.toNat ≤ 90)) : c.toLower = c := by
  rw [Char.toLower, dif_neg]
  simpa [UInt32.le_iff_toNat_le] using h

/-- What the lower case of a letter keeps. -/
lemma toLower_keeps (c : Char) :
    (∀ sep ∈ [':', '.', '[', ']'], c.toLower = sep ↔ c = sep) ∧
      c.toLower.isDigit = c.isDigit ∧ isHexDigit c.toLower = isHexDigit c ∧
      (isHexDigit c = true → hexValue c.toLower = hexValue c) := by
  by_cases h : 65 ≤ c.toNat ∧ c.toNat ≤ 90
  · rw [← Char.ofNat_toNat c]
    generalize c.toNat = n at h ⊢
    obtain ⟨hlow, hhigh⟩ := h
    simp only [List.forall_mem_cons, List.not_mem_nil, IsEmpty.forall_iff, implies_true]
    interval_cases n <;> decide
  · rw [toLower_eq_self h]
    simp

lemma toLower_of_isDigit {c : Char} (h : c.isDigit = true) : c.toLower = c := by
  refine toLower_eq_self fun hupper => ?_
  simp only [Char.isDigit, Bool.and_eq_true, decide_eq_true_eq, UInt32.le_iff_toNat_le] at h
  have hnat : c.toNat = c.val.toNat := rfl
  simp at h
  omega

/-- The host as it is compared: every character in lower case. -/
def lower (text : List Char) : List Char := text.map Char.toLower

lemma ipv4Octets_lower (text : List Char) : ipv4Octets (lower text) = ipv4Octets text := by
  have hfix : ∀ parts, ipv4Octets text = some parts ∨ ipv4Octets (lower text) = some parts →
      lower text = text := by
    intro parts hparts
    refine List.map_congr_left (g := id) (fun c hc => ?_) |>.trans (List.map_id text)
    rcases hparts with hparts | hparts
    · rcases (ipv4Octets_chars hparts).2 c hc with rfl | hdigit
      · decide
      · exact toLower_of_isDigit hdigit
    · rcases (ipv4Octets_chars hparts).2 c.toLower (List.mem_map_of_mem hc) with hdot | hdigit
      · rw [((toLower_keeps c).1 '.' (by simp)).mp hdot]
        decide
      · rw [(toLower_keeps c).2.1] at hdigit
        exact toLower_of_isDigit hdigit
  cases htext : ipv4Octets text with
  | some parts => rw [hfix parts (.inl htext), htext]
  | none =>
    cases hlower : ipv4Octets (lower text) with
    | none => rfl
    | some parts => rw [hfix parts (.inr hlower), htext] at hlower; simp at hlower

lemma splitOn_lower (text : List Char) :
    (lower text).splitOn ':' = (text.splitOn ':').map lower := by
  induction text with
  | nil => rfl
  | cons c text ih =>
    have hc := (toLower_keeps c).1 ':' (by simp)
    simp only [lower, List.map_cons, List.splitOn_cons_eq_if_modifyHead, beq_iff_eq, hc] at ih ⊢
    obtain ⟨part, parts, hparts⟩ := List.exists_cons_of_ne_nil (List.splitOn_ne_nil ':' text)
    split_ifs <;> simp [ih, hparts, lower]

lemma parsePart_lower (part : List Char) : parsePart (lower part) = (parsePart part).map lower := by
  unfold parsePart
  by_cases h : part = []
  · simp [h, lower]
  · rw [if_neg h, if_neg (by simpa [lower] using h), splitOn_lower]

lemma splitDoubleColon_lower (text : List Char) :
    splitDoubleColon (lower text) = (splitDoubleColon text).map lower := by
  fun_induction splitDoubleColon text with
  | case1 rest ih =>
    have hcolon : Char.toLower ':' = ':' := by decide
    rw [List.map_cons, ← ih]
    simp only [lower, List.map_cons, List.map_nil, hcolon]
    rw [splitDoubleColon]
  | case2 c rest hc hsplit ih => exact absurd hsplit (splitDoubleColon_ne_nil rest)
  | case3 c rest hc part parts hsplit ih =>
    have hnext : ¬ (c.toLower = ':' ∧ (lower rest).head? = some ':') := by
      rintro ⟨hfirst, hsecond⟩
      obtain ⟨d, hd, hcolon⟩ : ∃ d, rest.head? = some d ∧ d.toLower = ':' := by
        simpa [lower] using hsecond
      obtain rfl := ((toLower_keeps d).1 ':' (by simp)).mp hcolon
      obtain ⟨tail, rfl⟩ := List.head?_eq_some_iff.mp hd
      exact hc tail (((toLower_keeps c).1 ':' (by simp)).mp hfirst) rfl
    have hcons : lower (c :: rest) = c.toLower :: lower rest := rfl
    rw [hcons, splitDoubleColon_cons _ hnext, ih, hsplit]
    simp [lower]
  | case4 => rfl

lemma all_groupText_lower (texts : List (List Char)) :
    (texts.map lower).all groupText = texts.all groupText := by
  have hgroup : ∀ text, groupText (lower text) = groupText text := by
    intro text
    have hhex : (lower text).all isHexDigit = text.all isHexDigit := by
      rw [lower, List.all_map]
      exact List.all_congr rfl fun c => (toLower_keeps c).2.2.1
    simp only [groupText, hhex]
    simp [lower]
  rw [List.all_map]
  exact List.all_congr rfl hgroup

lemma map_parseHex_lower {texts : List (List Char)} (h : texts.all groupText = true) :
    (texts.map lower).map parseHex = texts.map parseHex := by
  rw [List.map_map]
  refine List.map_congr_left fun text htext => ?_
  have hhex : ∀ c ∈ text, isHexDigit c = true := by
    have := List.all_eq_true.mp h text htext
    simp only [groupText, Bool.and_eq_true, List.all_eq_true] at this
    exact this.1.1
  rw [Function.comp, parseHex, parseHex, lower, List.foldl_map]
  exact List.foldl_ext _ _ _ fun n c hc => by rw [(toLower_keeps c).2.2.2 (hhex c hc)]

lemma hexGroups_lower (text : List Char) : hexGroups (lower text) = hexGroups text := by
  have hsplit := splitDoubleColon_lower text
  rcases hhalves : splitDoubleColon text with _ | ⟨first, _ | ⟨second, _ | ⟨third, more⟩⟩⟩
  · exact absurd hhalves (splitDoubleColon_ne_nil text)
  · have hone : splitDoubleColon (lower text) = [lower first] := by simpa [hhalves] using hsplit
    rw [hexGroups_one hhalves, hexGroups_one hone, parsePart_lower, all_groupText_lower, List.length_map]
    split_ifs with h
    · rw [map_parseHex_lower h.2]
    · rfl
  · have htwo : splitDoubleColon (lower text) = [lower first, lower second] := by
      simpa [hhalves] using hsplit
    rw [hexGroups_two hhalves, hexGroups_two htwo, parsePart_lower, parsePart_lower, all_groupText_lower,
      all_groupText_lower, List.length_map, List.length_map]
    split_ifs with h
    · rw [map_parseHex_lower h.2.1, map_parseHex_lower h.2.2]
    · rfl
  · rw [hhalves] at hsplit
    simp [hexGroups, hsplit, hhalves]

lemma lower_toDigits (n : ℕ) : lower (Nat.toDigits 16 n) = Nat.toDigits 16 n := by
  have hdigit : ∀ d < 16, d.digitChar.toLower = d.digitChar := by
    intro d hd
    interval_cases d <;> decide
  induction n using Nat.strongRecOn with
  | _ n ih =>
    rw [Nat.toDigits_eq_if (by omega)]
    split_ifs with hn
    · simp [lower, hdigit n hn]
    · have hrest := ih (n / 16) (by omega)
      rw [lower] at hrest ⊢
      simp [hrest, hdigit (n % 16) (Nat.mod_lt n (by omega))]

lemma ipv6Groups_lower (text : List Char) : ipv6Groups (lower text) = ipv6Groups text := by
  have hcolon : Char.toLower ':' = ':' := by decide
  have hmem : ∀ part, ':' ∈ lower part ↔ ':' ∈ part := by
    intro part
    constructor
    · intro h
      obtain ⟨c, hc, hlower⟩ := List.mem_map.mp h
      rwa [((toLower_keeps c).1 ':' (by simp)).mp hlower] at hc
    · exact fun h => List.mem_map.mpr ⟨':', h, hcolon⟩
  by_cases h : ':' ∈ text
  · obtain ⟨front, tail, rfl, htail⟩ := exists_last_colon h
    have htext : lower (front ++ ':' :: tail) = lower front ++ ':' :: lower tail := by
      simp [lower, hcolon]
    rw [ipv6Groups, ipv6Groups, htext, dottedTail_append _ (mt (hmem tail).mp htail),
      dottedTail_append front htail, ipv4Octets_lower, ← htext]
    cases ipv4Octets tail with
    | none => exact hexGroups_lower _
    | some octets =>
      have hhead : lower (front ++ [':'] ++ hexTail (octets.map parseDecimal)) =
          lower front ++ [':'] ++ hexTail (octets.map parseDecimal) := by
        have hdigits := lower_toDigits
        simp only [lower, hexTail, List.map_append, List.map_cons, List.map_nil, hcolon] at hdigits ⊢
        simp [hdigits]
      simp only [Option.map_some]
      rw [← hhead, hexGroups_lower]
  · rw [ipv6Groups, ipv6Groups, dottedTail_none h, dottedTail_none (mt (hmem text).mp h)]
    exact hexGroups_lower text

lemma unbracket_lower (text : List Char) : unbracket (lower text) = lower (unbracket text) := by
  have hhead : (lower text).head? = some '[' ↔ text.head? = some '[' := by
    cases text with
    | nil => simp [lower]
    | cons c text => simpa [lower] using (toLower_keeps c).1 '[' (by simp)
  have hlast : (lower text).getLast? = some ']' ↔ text.getLast? = some ']' := by
    rcases List.eq_nil_or_concat text with rfl | ⟨init, last, rfl⟩
    · simp [lower]
    · simpa [lower] using (toLower_keeps last).1 ']' (by simp)
  simp only [unbracket, hhead, hlast]
  split_ifs
  · simp [lower, List.map_dropLast]
  · rfl

lemma ipv6Literal_lower {text : List Char} {n : ℕ} :
    Ipv6Literal PaddedOctet (lower text) n ↔ Ipv6Literal PaddedOctet text n := by
  rw [ipv6Literal_iff, ipv6Literal_iff, unbracket_lower, ipv6Groups_lower]

lemma canonical_cases (host : String) :
    (host.toList.getLast? ≠ some '.' ∧ (canonicalHostname host).toList = lower host.toList) ∨
      ∃ text, host.toList = text ++ ['.'] ∧ (canonicalHostname host).toList = lower text := by
  have hlower : host.toLower.toList = lower host.toList := String.toList_map
  rcases List.eq_nil_or_concat host.toList with hnil | ⟨init, last, hlast⟩
  · refine .inl ⟨by simp [hnil], ?_⟩
    simp only [canonicalHostname, hlower, hnil]
    simpa [lower, hnil] using hlower
  · rw [List.concat_eq_append] at hlast
    have hend : (lower host.toList).getLast? = some '.' ↔ last = '.' := by
      simpa [lower, hlast] using (toLower_keeps last).1 '.' (by simp)
    by_cases hdot : last = '.'
    · refine .inr ⟨init, by rw [hlast, hdot], ?_⟩
      simp only [canonicalHostname, hlower, if_pos (hend.mpr hdot)]
      simp [hlast, lower]
    · refine .inl ⟨by simpa [hlast] using hdot, ?_⟩
      simp only [canonicalHostname, hlower, if_neg (mt hend.mp hdot)]

/-! ## The verdict on a host -/

def hostChar (c : Char) : Bool := literalChar c || c == '[' || c == ']'

/-- Every blocked name has a letter no literal has. -/
lemma not_blocked (name : String) (h : ∀ c ∈ name.toList, hostChar c = true) :
    blockedHostnames.contains name = false ∧ hasBlockedSuffix name = false := by
  have hnames : (blockedHostnames.all fun blocked =>
      blocked.toList.any fun c => !hostChar c) = true := by decide
  have hsuffixes : (blockedHostnameSuffixes.all fun suffix =>
      suffix.toList.any fun c => !hostChar c) = true := by decide
  constructor
  · refine Bool.eq_false_iff.mpr fun hcontains => ?_
    have hmem := List.contains_iff_mem.mp hcontains
    obtain ⟨c, hc, hbad⟩ := List.any_eq_true.mp (List.all_eq_true.mp hnames name hmem)
    simp [h c hc] at hbad
  · refine List.any_eq_false.mpr fun suffix hsuffix => ?_
    obtain ⟨c, hc, hbad⟩ := List.any_eq_true.mp (List.all_eq_true.mp hsuffixes suffix hsuffix)
    simp only [Bool.or_eq_true, beq_iff_eq, List.isSuffixOf_iff_suffix, not_or]
    constructor
    · rintro rfl
      simp [h c hc] at hbad
    · intro hends
      have hmem : c ∈ name.toList := hends.subset (by simp [String.toList_append, hc])
      simp [h c hmem] at hbad

lemma Ipv6Literal.chars {text : List Char} {n : ℕ} (h : Ipv6Literal PaddedOctet text n) :
    ∀ c ∈ text, hostChar c = true := by
  cases h with
  | bare hform => exact fun c hc => by simp [hostChar, hform.chars c hc]
  | bracketed hform =>
    intro c hc
    simp only [List.mem_append, List.mem_cons, List.not_mem_nil, or_false] at hc
    rcases hc with (rfl | hc) | rfl
    · decide
    · simp [hostChar, hform.chars c hc]
    · decide

lemma ipv4Octets_literal {text : List Char} {n : ℕ} (h : Ipv6Literal octet text n) :
    ipv4Octets text = none := by
  by_contra hsome
  obtain ⟨parts, hparts⟩ := Option.ne_none_iff_exists'.mp hsome
  exact ipv4Octets_colon hparts h.colon

lemma isPrivateHost_literal {host : String} {n : ℕ}
    (h : Ipv6Literal PaddedOctet (canonicalHostname host).toList n) :
    isPrivateHost host = true ↔ (IpAddress.ipv6 n).Refused := by
  obtain ⟨hname, hsuffix⟩ := not_blocked _ h.chars
  have hfour : isPrivateIPv4 (canonicalHostname host).toList = false := by
    rw [isPrivateIPv4, ipv4Octets_literal h]
  simp only [isPrivateHost, hname, hsuffix, hfour, Bool.false_or]
  exact isPrivateIPv6_literal h

lemma isPrivateAddress_literal {address : String} {n : ℕ}
    (h : Ipv6Literal PaddedOctet address.toList n) :
    isPrivateAddress address = true ↔ (IpAddress.ipv6 n).Refused := by
  simp only [isPrivateAddress]
  rw [if_pos (by simpa using h.colon)]
  exact isPrivateIPv6_literal h

lemma ipv4Octets_last {text : List Char} {parts : List (List Char)}
    (h : ipv4Octets text = some parts) : text.getLast? ≠ some '.' := by
  intro hlast
  obtain ⟨init, rfl⟩ := List.getLast?_eq_some_iff.mp hlast
  obtain ⟨htext, hlength, hall⟩ := ipv4Octets_iff.mp h
  have hdot : ∀ part ∈ parts, '.' ∉ part := fun part hpart hmem =>
    absurd ((hall part hpart).1 _ hmem) (by decide)
  have hsplit := List.splitOn_intercalate '.' hdot (by rintro rfl; simp at hlength)
  rw [← htext, List.splitOn_append_cons_self init [], List.splitOn_nil] at hsplit
  have hempty := (hall [] (by rw [← hsplit]; simp)).2.1
  simp at hempty

/-- A literal never ends in a dot. -/
lemma Ipv6Literal.last {text : List Char} {n : ℕ} (h : Ipv6Literal PaddedOctet text n) :
    text.getLast? ≠ some '.' := by
  cases h with
  | @bare text groups hform =>
    rcases hform.cases_quad with hnone | ⟨front, tail, w, x, y, z, rfl, hquad, -⟩
    · intro hlast
      rcases noOctet_chars hnone '.' (List.mem_of_mem_getLast? hlast) with hdot | hdot <;>
        exact absurd hdot (by decide)
    · obtain ⟨parts, hparts, -, -⟩ := quad_padded.mp hquad
      have htail := ipv4Octets_last hparts
      rw [List.getLast?_append, List.getLast?_cons]
      cases hlast : tail.getLast? with
      | none => simp
      | some c => simpa [hlast] using htail
  | @bracketed text groups hform =>
    have hlast : ('[' :: text ++ [']']).getLast? = some ']' := by
      rw [List.getLast?_append]
      rfl
    rw [hlast]
    decide

lemma Quad.last {text : List Char} {values : List ℕ} (h : Quad Octet text values) :
    text.getLast? ≠ some '.' := ipv4Octets_last (quad_octets h).1

lemma Ipv6Literal.padded {text : List Char} {n : ℕ} (h : Ipv6Literal Octet text n) :
    Ipv6Literal PaddedOctet text n := by
  cases h with
  | bare hform => exact .bare hform.padded
  | bracketed hform => exact .bracketed hform.padded

lemma canonical_of_last {host : String} (h : host.toList.getLast? ≠ some '.') :
    (canonicalHostname host).toList = lower host.toList := by
  rcases canonical_cases host with ⟨-, hcanonical⟩ | ⟨text, htext, -⟩
  · exact hcanonical
  · simp [htext] at h

/-- A dotted quad is judged by the IPv4 blocks alone. -/
lemma verdict_quad {host : String} {a b c d : ℕ} (h : Quad Octet host.toList [a, b, c, d]) :
    (isPrivateAddress host = true ↔ PrivateIPv4 (v4 a b c d)) ∧
      (isPrivateHost host = true ↔ PrivateIPv4 (v4 a b c d)) := by
  have hparts := (quad_octets h).1
  have hcolon := ipv4Octets_colon hparts
  have hfour := isPrivateIPv4_iff h
  constructor
  · have hliteral : isIPv4Literal host.toList = true := by simp [isIPv4Literal, hparts]
    simp only [isPrivateAddress]
    rw [if_neg (by simpa using hcolon), hliteral, Bool.not_true, Bool.false_or, hfour]
  · have hcanonical := canonical_of_last h.last
    have hlower : ipv4Octets (canonicalHostname host).toList = _ :=
      (hcanonical ▸ ipv4Octets_lower host.toList).trans hparts
    have hchars := (ipv4Octets_chars hlower).2
    obtain ⟨hname, hsuffix⟩ := not_blocked (canonicalHostname host) fun c hc => by
      rcases hchars c hc with rfl | hdigit
      · decide
      · simp [hostChar, literalChar, isHexDigit_of_isDigit hdigit]
    have hsame : isPrivateIPv4 (canonicalHostname host).toList = isPrivateIPv4 host.toList := by
      simp only [isPrivateIPv4, hlower, hparts]
    have hhead : (canonicalHostname host).toList.head? ≠ some '[' := by
      intro hhead
      rcases hchars '[' (List.mem_of_mem_head? hhead) with hc | hc <;> exact absurd hc (by decide)
    have hsix : isPrivateIPv6 (canonicalHostname host).toList = false := by
      have hnot := ipv4Octets_colon hlower
      cases hgroups : ipv6Groups (canonicalHostname host).toList with
      | none => simpa [isPrivateIPv6, unbracket_bare hhead, hgroups, hnot] using hhead
      | some groups => exact absurd (ipv6Groups_iff.mp hgroups).colon hnot
    simp only [isPrivateHost, hname, hsuffix, hsix, hsame, Bool.false_or, Bool.or_false]
    exact hfour

lemma verdict_denoted {host : String} {a : IpAddress} (h : Denotes host.toList a) :
    (isPrivateAddress host = true ↔ a.Refused) ∧ (isPrivateHost host = true ↔ a.Refused) := by
  generalize htext : host.toList = text at h
  cases h with
  | ipv4 hquad => exact verdict_quad (htext ▸ hquad)
  | ipv6 hliteral =>
    subst htext
    refine ⟨isPrivateAddress_literal hliteral.padded, isPrivateHost_literal ?_⟩
    rw [canonical_of_last hliteral.padded.last, ipv6Literal_lower]
    exact hliteral.padded

/-- The address check lets only literals of public addresses through. -/
lemma isPrivateAddress_accepted {address : String}
    (htext : address.toList.head? = some '[' ∨ ':' ∈ address.toList)
    (h : isPrivateAddress address = false) :
    ∃ n, Ipv6Literal PaddedOctet address.toList n ∧ ¬ (IpAddress.ipv6 n).Refused := by
  by_cases hcolon : ':' ∈ address.toList
  · simp only [isPrivateAddress] at h
    rw [if_pos (by simpa using hcolon)] at h
    exact isPrivateIPv6_accepted (.inr hcolon) h
  · have hhead := htext.resolve_right hcolon
    have hliteral : isIPv4Literal address.toList = false := by
      cases hparts : ipv4Octets address.toList with
      | none => simp [isIPv4Literal, hparts]
      | some parts =>
        rcases (ipv4Octets_chars hparts).2 '[' (List.mem_of_mem_head? hhead) with hc | hc <;>
          exact absurd hc (by decide)
    simp only [isPrivateAddress] at h
    rw [if_neg (by simpa using hcolon), hliteral] at h
    simp at h

lemma isPrivateHost_accepted {host : String}
    (htext : host.toList.head? = some '[' ∨ ':' ∈ host.toList) (h : isPrivateHost host = false) :
    ∃ text n, Ipv6Literal PaddedOctet text n ∧ ¬ (IpAddress.ipv6 n).Refused ∧
      (host.toList = text ∨ host.toList = text ++ ['.']) := by
  have hsix : isPrivateIPv6 (canonicalHostname host).toList = false := by
    simp only [isPrivateHost, Bool.or_eq_false_iff] at h
    exact h.2
  obtain ⟨text, hhost, hcanonical⟩ : ∃ text, (host.toList = text ∨ host.toList = text ++ ['.']) ∧
      (canonicalHostname host).toList = lower text := by
    rcases canonical_cases host with ⟨-, hcanonical⟩ | ⟨text, htext, hcanonical⟩
    · exact ⟨_, .inl rfl, hcanonical⟩
    · exact ⟨text, .inr htext, hcanonical⟩
  have hmarked : (lower text).head? = some '[' ∨ ':' ∈ lower text := by
    have hopen : Char.toLower '[' = '[' := by decide
    have hcolon : Char.toLower ':' = ':' := by decide
    rcases htext with hhead | hmem
    · refine .inl ?_
      cases text with
      | nil => rcases hhost with hhost | hhost <;> simp [hhost] at hhead
      | cons c text =>
        have hc : c = '[' := by rcases hhost with hhost | hhost <;> simpa [hhost] using hhead
        simp [lower, hc, hopen]
    · refine .inr (List.mem_map.mpr ⟨':', ?_, hcolon⟩)
      rcases hhost with hhost | hhost <;> simpa [hhost] using hmem
  rw [hcanonical] at hsix
  obtain ⟨n, hliteral, hpublic⟩ := isPrivateIPv6_accepted hmarked hsix
  exact ⟨text, n, ipv6Literal_lower.mp hliteral, hpublic, hhost⟩

/-- The verdict is that of the address except on two kinds of text that write a public address but
are none of its forms: a trailing quad with leading zeros, which is read in decimal, and a form
followed by a dot, which the host check drops. -/
theorem judgedByAddress_iff (host : String) : JudgedByAddress host ↔
    ¬ ∃ text n, Ipv6Literal PaddedOctet text n ∧ ¬ (IpAddress.ipv6 n).Refused ∧
      ((host.toList = text ∧ ¬ ∃ a, Denotes text a) ∨ host.toList = text ++ ['.']) := by
  constructor
  · rintro hjudged ⟨text, n, hliteral, hpublic, ⟨rfl, hnone⟩ | hdot⟩
    · have hrefused := (hjudged.malformed (.inr hliteral.colon) hnone).1
      exact hpublic ((isPrivateAddress_literal hliteral).mp hrefused)
    · have hcolon : ':' ∈ host.toList := by simp [hdot, hliteral.colon]
      have hlast : host.toList.getLast? = some '.' := by simp [hdot]
      have hnone : ¬ ∃ a, Denotes host.toList a := by
        rintro ⟨a, ⟨hquad⟩ | ⟨hform⟩⟩
        · exact hquad.last hlast
        · exact hform.padded.last hlast
      have hrefused := (hjudged.malformed (.inr hcolon) hnone).2
      have hcanonical : (canonicalHostname host).toList = lower text := by
        rcases canonical_cases host with ⟨hnot, -⟩ | ⟨text', htext', hcanonical⟩
        · exact absurd hlast hnot
        · rw [hcanonical, List.append_cancel_right (htext'.symm.trans hdot)]
      refine hpublic ((isPrivateHost_literal ?_).mp hrefused)
      rw [hcanonical, ipv6Literal_lower]
      exact hliteral
  · intro hexact
    refine ⟨verdict_denoted, fun htext hnone => ⟨?_, ?_⟩⟩
    · by_contra haccepted
      obtain ⟨n, hliteral, hpublic⟩ :=
        isPrivateAddress_accepted htext (Bool.eq_false_iff.mpr haccepted)
      exact hexact ⟨_, n, hliteral, hpublic, .inl ⟨rfl, hnone⟩⟩
    · by_contra haccepted
      obtain ⟨text, n, hliteral, hpublic, rfl | hdot⟩ :=
        isPrivateHost_accepted htext (Bool.eq_false_iff.mpr haccepted)
      · exact hexact ⟨_, n, hliteral, hpublic, .inl ⟨rfl, hnone⟩⟩
      · exact hexact ⟨text, n, hliteral, hpublic, .inr hdot⟩

/-- The octets of a quad in a textual form have no leading zeros. -/
lemma Form.octets {front tail : List Char} {parts : List (List Char)} {groups : List ℕ}
    (h : Form Octet (front ++ ':' :: tail) groups) (hparts : ipv4Octets tail = some parts) :
    ∃ values : List ℕ, parts = values.map (Nat.toDigits 10) ∧ ∀ n ∈ values, n < 256 := by
  rcases h.cases_quad with hnone | ⟨front', tail', w, x, y, z, htext, hquad, -⟩
  · rcases noOctet_chars hnone '.' (by simp [(ipv4Octets_chars hparts).1]) with hdot | hdot <;>
      exact absurd hdot (by decide)
  · obtain ⟨hoctets, hvalues⟩ := quad_octets hquad
    obtain ⟨-, rfl⟩ :=
      last_colon_inj (ipv4Octets_colon hparts) (ipv4Octets_colon hoctets) htext
    exact ⟨_, Option.some.inj (hparts.symm.trans hoctets), hvalues⟩

/-- `::ffff:012.0.0.1` is no textual form, and yet it is read as `::ffff:12.0.0.1`. -/
theorem padded_quad_accepted : ¬ JudgedByAddress "::ffff:012.0.0.1" := by
  intro hjudged
  have hnone : ¬ ∃ a, Denotes "::ffff:012.0.0.1".toList a := by
    rintro ⟨a, hdenotes⟩
    generalize htext : "::ffff:012.0.0.1".toList = text at hdenotes
    have hsplit : text = "::ffff".toList ++ ':' :: "012.0.0.1".toList := by
      rw [← htext]
      decide
    cases hdenotes with
    | ipv4 hquad =>
      exact ipv4Octets_colon (quad_octets hquad).1 (by simp [hsplit])
    | ipv6 hliteral =>
      cases hliteral with
      | bare hform =>
        rw [hsplit] at hform
        have hparts : ipv4Octets "012.0.0.1".toList =
            some [['0', '1', '2'], ['0'], ['0'], ['1']] := by with_unfolding_all decide
        obtain ⟨values, hvalues, hn⟩ := hform.octets hparts
        obtain ⟨n, hmem, hdigits⟩ := List.mem_map.mp (hvalues ▸ List.mem_cons_self)
        have hpadded : ∀ n < 256, Nat.toDigits 10 n ≠ ['0', '1', '2'] := by decide +kernel
        exact hpadded n (hn n hmem) hdigits
      | bracketed _ => exact absurd htext (by simp)
  have hrefused := (hjudged.malformed (.inr (by with_unfolding_all decide)) hnone).1
  have haccepted : isPrivateAddress "::ffff:012.0.0.1" = false := by decide
  simp [haccepted] at hrefused

end Maple.SafeFetch
