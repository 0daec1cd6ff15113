import Mathlib

/-! Regular expressions of literals, character classes, counted repetition, concatenation and
alternation: their text, and the strings they match from end to end. -/

namespace Maple.RegexPattern

inductive Pattern
  | literal (text : List Char)
  | escaped (c : Char)
  | oneOf (ranges : List (Char × Char))
  | exactly (p : Pattern) (count : ℕ)
  | repeated (p : Pattern) (low high : ℕ)
  | optional (p : Pattern)
  | seq (p q : Pattern)
  | alt (p q : Pattern)
  | group (p : Pattern)

namespace Pattern

def rangeText (range : Char × Char) : List Char :=
  if range.1 = range.2 then [range.1] else [range.1, '-', range.2]

def numberText (n : ℕ) : List Char := Nat.toDigits 10 n

/-- The text of the expression. -/
def source : Pattern → List Char
  | .literal text => text
  | .escaped c => ['\\', c]
  | .oneOf ranges => ['['] ++ ranges.flatMap rangeText ++ [']']
  | .exactly p count => p.source ++ ['\x7b'] ++ numberText count ++ ['\x7d']
  | .repeated p low high =>
    p.source ++ ['\x7b'] ++ numberText low ++ [','] ++ numberText high ++ ['\x7d']
  | .optional p => p.source ++ ['?']
  | .seq p q => p.source ++ q.source
  | .alt p q => p.source ++ ['|'] ++ q.source
  | .group p => ['(', '?', ':'] ++ p.source ++ [')']

def inRanges (ranges : List (Char × Char)) (c : Char) : Prop :=
  ∃ range ∈ ranges, range.1.toNat ≤ c.toNat ∧ c.toNat ≤ range.2.toNat

/-- The strings the expression matches from end to end. -/
def language : Pattern → Language Char
  | .literal text => {text}
  | .escaped c => {[c]}
  | .oneOf ranges => {s | ∃ c, inRanges ranges c ∧ s = [c]}
  | .exactly p count => p.language ^ count
  | .repeated p low high => {s | ∃ n, low ≤ n ∧ n ≤ high ∧ s ∈ p.language ^ n}
  | .optional p => 1 + p.language
  | .seq p q => p.language * q.language
  | .alt p q => p.language + q.language
  | .group p => p.language

/-- The expression anchored at both ends matches the string. -/
def Matches (p : Pattern) (s : List Char) : Prop := s ∈ p.language

/-- Alternatives, at least one. -/
def any (first : Pattern) : List Pattern → Pattern
  | [] => first
  | next :: rest => .alt first (any next rest)

variable {p q : Pattern} {s : List Char} {ranges : List (Char × Char)} {low high : ℕ}

@[simp] lemma matches_literal {text : List Char} : (literal text).Matches s ↔ s = text := Iff.rfl

@[simp] lemma matches_escaped {c : Char} : (escaped c).Matches s ↔ s = [c] := Iff.rfl

lemma matches_oneOf : (oneOf ranges).Matches s ↔ ∃ c, inRanges ranges c ∧ s = [c] := Iff.rfl

lemma matches_seq : (seq p q).Matches s ↔ ∃ a b, p.Matches a ∧ q.Matches b ∧ s = a ++ b := by
  constructor
  · rintro ⟨a, ha, b, hb, rfl⟩
    exact ⟨a, b, ha, hb, rfl⟩
  · rintro ⟨a, b, ha, hb, rfl⟩
    exact Language.append_mem_mul ha hb

@[simp] lemma matches_alt : (alt p q).Matches s ↔ p.Matches s ∨ q.Matches s := Iff.rfl

@[simp] lemma matches_group : (group p).Matches s ↔ p.Matches s := Iff.rfl

lemma matches_any {first : Pattern} {rest : List Pattern} :
    (any first rest).Matches s ↔ ∃ p ∈ first :: rest, p.Matches s := by
  induction rest generalizing first with
  | nil => simp [any]
  | cons next rest ih => simp [any, ih]

lemma mem_pow_oneOf {n : ℕ} :
    s ∈ (oneOf ranges).language ^ n ↔ s.length = n ∧ ∀ c ∈ s, inRanges ranges c := by
  induction n generalizing s with
  | zero =>
    rw [pow_zero, Language.mem_one, List.length_eq_zero_iff]
    constructor
    · rintro rfl
      simp
    · exact fun h => h.1
  | succ n ih =>
    rw [pow_succ', Language.mem_mul]
    constructor
    · rintro ⟨a, ⟨c, hc, rfl⟩, b, hb, rfl⟩
      obtain ⟨hlength, hall⟩ := ih.mp hb
      refine ⟨by simp [hlength], ?_⟩
      intro d hd
      rcases List.mem_cons.mp hd with rfl | hd
      · exact hc
      · exact hall d hd
    · rintro ⟨hlength, hall⟩
      cases s with
      | nil => cases hlength
      | cons c s =>
        refine ⟨[c], ⟨c, hall c List.mem_cons_self, rfl⟩, s, ih.mpr ⟨?_, ?_⟩, rfl⟩
        · simpa using hlength
        · exact fun d hd => hall d (List.mem_cons_of_mem _ hd)

lemma matches_repeated_oneOf : (repeated (oneOf ranges) low high).Matches s ↔
    low ≤ s.length ∧ s.length ≤ high ∧ ∀ c ∈ s, inRanges ranges c := by
  constructor
  · rintro ⟨n, hlow, hhigh, hs⟩
    obtain ⟨rfl, hall⟩ := mem_pow_oneOf.mp hs
    exact ⟨hlow, hhigh, hall⟩
  · rintro ⟨hlow, hhigh, hall⟩
    exact ⟨s.length, hlow, hhigh, mem_pow_oneOf.mpr ⟨rfl, hall⟩⟩

lemma matches_exactly_oneOf {count : ℕ} : (exactly (oneOf ranges) count).Matches s ↔
    s.length = count ∧ ∀ c ∈ s, inRanges ranges c := mem_pow_oneOf

@[simp] lemma matches_optional : (optional p).Matches s ↔ s = [] ∨ p.Matches s := Iff.rfl

end Pattern

end Maple.RegexPattern
