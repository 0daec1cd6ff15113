import Maple.SafeFetchLiteral
import Mathlib.Tactic.NormNum

/-! The ranges a guarded request may not reach, as blocks of addresses, and that the verdict on a
textual form is the one on the address it writes. -/

namespace Maple.SafeFetch

/-! ## Addresses and blocks -/

/-- `base/length` in CIDR notation. -/
structure Block where
  base : ℕ
  length : ℕ
deriving Repr, DecidableEq

/-- The first `length` bits of the address, out of `width`, are those of the block. -/
def Block.Contains (width : ℕ) (block : Block) (address : ℕ) : Prop :=
  address / 2 ^ (width - block.length) = block.base / 2 ^ (width - block.length)

instance (width : ℕ) (block : Block) (address : ℕ) : Decidable (block.Contains width address) :=
  inferInstanceAs (Decidable (_ = _))

/-- Digits of the base, the most significant first. -/
def number (base : ℕ) (digits : List ℕ) : ℕ := digits.foldl (fun n digit => base * n + digit) 0

def v4 (a b c d : ℕ) : ℕ := number 256 [a, b, c, d]

def v6 (groups : List ℕ) : ℕ := number 65536 groups

inductive IpAddress
  | ipv4 (n : ℕ)
  | ipv6 (n : ℕ)
deriving Repr, DecidableEq

def privateIPv4Blocks : List Block :=
  [⟨v4 0 0 0 0, 8⟩, ⟨v4 10 0 0 0, 8⟩, ⟨v4 127 0 0 0, 8⟩, ⟨v4 169 254 0 0, 16⟩, ⟨v4 172 16 0 0, 12⟩,
    ⟨v4 192 168 0 0, 16⟩, ⟨v4 100 64 0 0, 10⟩, ⟨v4 198 18 0 0, 15⟩, ⟨v4 255 255 255 255, 32⟩,
    ⟨v4 192 0 0 0, 24⟩, ⟨v4 192 0 2 0, 24⟩, ⟨v4 198 51 100 0, 24⟩, ⟨v4 203 0 113 0, 24⟩,
    ⟨v4 224 0 0 0, 4⟩, ⟨v4 240 0 0 0, 4⟩]

def PrivateIPv4 (n : ℕ) : Prop := ∃ block ∈ privateIPv4Blocks, block.Contains 32 n

/-- Unspecified, loopback and IPv4-compatible; ULA; multicast; link-local; site-local; SIIT; NAT64
local-use; Teredo. -/
def privateIPv6Blocks : List Block :=
  [⟨0, 96⟩, ⟨v6 [0xfc00, 0, 0, 0, 0, 0, 0, 0], 7⟩, ⟨v6 [0xff00, 0, 0, 0, 0, 0, 0, 0], 8⟩,
    ⟨v6 [0xfe80, 0, 0, 0, 0, 0, 0, 0], 10⟩, ⟨v6 [0xfec0, 0, 0, 0, 0, 0, 0, 0], 10⟩,
    ⟨v6 [0, 0, 0, 0, 0xffff, 0, 0, 0], 96⟩, ⟨v6 [0x64, 0xff9b, 1, 0, 0, 0, 0, 0], 48⟩,
    ⟨v6 [0x2001, 0, 0, 0, 0, 0, 0, 0], 32⟩]

def mapped : Block := ⟨v6 [0, 0, 0, 0, 0, 0xffff, 0, 0], 96⟩

def nat64 : Block := ⟨v6 [0x64, 0xff9b, 0, 0, 0, 0, 0, 0], 96⟩

def sixToFour : Block := ⟨v6 [0x2002, 0, 0, 0, 0, 0, 0, 0], 16⟩

/-- The IPv4 address a mapped, NAT64 or 6to4 address carries. -/
def embeddedIPv4 (n : ℕ) : Option ℕ :=
  if mapped.Contains 128 n ∨ nat64.Contains 128 n then some (n % 2 ^ 32)
  else if sixToFour.Contains 128 n then some (n / 2 ^ 80 % 2 ^ 32)
  else none

def IpAddress.Refused : IpAddress → Prop
  | .ipv4 n => PrivateIPv4 n
  | .ipv6 n =>
    match embeddedIPv4 n with
    | some m => PrivateIPv4 m
    | none => ∃ block ∈ privateIPv6Blocks, block.Contains 128 n

/-- A mapped, NAT64 or 6to4 address is refused exactly when its embedded address is. -/
lemma refused_embedded {n m : ℕ} (h : embeddedIPv4 n = some m) :
    (IpAddress.ipv6 n).Refused ↔ (IpAddress.ipv4 m).Refused := by
  simp only [IpAddress.Refused, h]

lemma refused_ipv6 {n : ℕ} (h : embeddedIPv4 n = none) :
    (IpAddress.ipv6 n).Refused ↔ ∃ block ∈ privateIPv6Blocks, block.Contains 128 n := by
  simp only [IpAddress.Refused, h]

/-! ## IPv4 -/

lemma v4_eq (a b c d : ℕ) : v4 a b c d = ((a * 256 + b) * 256 + c) * 256 + d := by
  simp only [v4, number, List.foldl_cons, List.foldl_nil]
  omega

/-- The ranges of leading octets are the blocks, in the order of the patterns. -/
lemma inRange_block {a b c d : ℕ} (ha : a < 256) (hb : b < 256) (hc : c < 256) (hd : d < 256) :
    List.Forall₂ (fun range block =>
        InRange range [a, b, c, d] ↔ block.Contains 32 (((a * 256 + b) * 256 + c) * 256 + d))
      privateIPv4Ranges privateIPv4Blocks := by
  unfold privateIPv4Ranges privateIPv4Blocks
  simp only [List.forall₂_cons, List.forall₂_nil_left_iff, InRange, Block.Contains, v4_eq,
    List.zip_cons_cons, List.zip_nil_left, List.forall_mem_cons, List.mem_singleton,
    List.mem_cons, List.mem_range'_1, List.not_mem_nil, or_false]
  norm_num
  refine ⟨?_, ?_, ?_, ?_, ?_, ?_, ?_, ?_, ?_, ?_, ?_, ?_, ?_, ?_, ?_⟩ <;> omega

lemma exists_iff_of_forall₂ {α β : Type*} {p : α → Prop} {q : β → Prop} {xs : List α}
    {ys : List β} (h : List.Forall₂ (fun x y => p x ↔ q y) xs ys) :
    (∃ x ∈ xs, p x) ↔ ∃ y ∈ ys, q y := by
  induction h with
  | nil => simp
  | cons hhead _ ih => simp [hhead, ih]

lemma forall₂_octet {parts : List (List Char)} {values : List ℕ} :
    List.Forall₂ Octet parts values ↔
      parts = values.map (Nat.toDigits 10) ∧ ∀ n ∈ values, n < 256 := by
  constructor
  · intro h
    induction h with
    | nil => simp
    | @cons part n parts values hpart _ ih =>
      exact ⟨by rw [List.map_cons, hpart.2, ih.1], List.forall_mem_cons.mpr ⟨hpart.1, ih.2⟩⟩
  · rintro ⟨rfl, hvalues⟩
    induction values with
    | nil => exact .nil
    | cons n values ih =>
      rw [List.forall_mem_cons] at hvalues
      exact .cons ⟨hvalues.1, rfl⟩ (ih hvalues.2)

lemma quad_octets {text : List Char} {values : List ℕ} (h : Quad Octet text values) :
    ipv4Octets text = some (values.map (Nat.toDigits 10)) ∧ ∀ n ∈ values, n < 256 := by
  obtain ⟨parts, htext, hparts, hlength⟩ := h
  obtain ⟨rfl, hvalues⟩ := forall₂_octet.mp hparts
  refine ⟨ipv4Octets_iff.mpr ⟨htext, by simpa using hlength, fun part hpart => ?_⟩, hvalues⟩
  obtain ⟨n, hn, rfl⟩ := List.mem_map.mp hpart
  obtain ⟨-, hlow, hhigh, hdigits, -⟩ := Octet.padded ⟨hvalues n hn, rfl⟩
  exact ⟨hdigits, hlow, hhigh⟩

/-- On a dotted quad the patterns decide membership in the blocks. -/
lemma isPrivateIPv4_iff {text : List Char} {a b c d : ℕ} (h : Quad Octet text [a, b, c, d]) :
    isPrivateIPv4 text = true ↔ PrivateIPv4 (v4 a b c d) := by
  obtain ⟨htext, hvalues⟩ := quad_octets h
  rw [isPrivateIPv4_octets htext hvalues]
  simp only [List.forall_mem_cons] at hvalues
  obtain ⟨ha, hb, hc, hd, -⟩ := hvalues
  rw [v4_eq]
  exact exists_iff_of_forall₂ (inRange_block ha hb hc hd)

/-! ## IPv6 -/

lemma and_ff {n : ℕ} : n &&& 0xff = n % 256 := Nat.and_two_pow_sub_one_eq_mod n 8

lemma quad_dottedFrom {hi lo : ℕ} (hhi : hi < 65536) (hlo : lo < 65536) :
    Quad Octet (dottedFrom hi lo) [hi / 256, hi % 256, lo / 256, lo % 256] := by
  refine ⟨[Nat.toDigits 10 (hi / 256), Nat.toDigits 10 (hi % 256), Nat.toDigits 10 (lo / 256),
    Nat.toDigits 10 (lo % 256)], ?_, ?_, rfl⟩
  · have hhigh : hi / 256 % 256 = hi / 256 := Nat.mod_eq_of_lt (by omega)
    have hlow : lo / 256 % 256 = lo / 256 := Nat.mod_eq_of_lt (by omega)
    simp only [dottedFrom, and_ff, Nat.shiftRight_eq_div_pow, List.intercalate_cons_cons,
      List.intercalate_singleton]
    simp [hhigh, hlow]
  · refine forall₂_octet.mpr ⟨rfl, ?_⟩
    simp only [List.forall_mem_cons, List.not_mem_nil, false_implies, implies_true, and_true]
    omega

lemma isPrivateIPv4_dottedFrom {hi lo : ℕ} (hhi : hi < 65536) (hlo : lo < 65536) :
    isPrivateIPv4 (dottedFrom hi lo) = true ↔ PrivateIPv4 (hi * 65536 + lo) := by
  rw [isPrivateIPv4_iff (quad_dottedFrom hhi hlo), v4_eq]
  have hvalue : ((hi / 256 * 256 + hi % 256) * 256 + lo / 256) * 256 + lo % 256 =
      hi * 65536 + lo := by omega
  rw [hvalue]

/-- A mask of leading bits keeps the leading bits. -/
lemma and_leading {g k : ℕ} (hg : g < 2 ^ 16) (hk : k ≤ 16) :
    g &&& (2 ^ (16 - k) - 1) <<< k = g >>> k <<< k := by
  refine Nat.eq_of_testBit_eq fun i => ?_
  rw [Nat.testBit_and, Nat.testBit_shiftLeft, Nat.testBit_shiftLeft, Nat.testBit_two_pow_sub_one,
    Nat.testBit_shiftRight]
  by_cases hi : k ≤ i
  · by_cases hbit : i < 16
    · have hlt : i - k < 16 - k := by omega
      simp [hi, hlt, Nat.add_sub_cancel' hi]
    · have hzero : g.testBit i = false :=
        Nat.testBit_lt_two_pow (lt_of_lt_of_le hg (Nat.pow_le_pow_right (by omega) (by omega)))
      simp [hi, hzero, Nat.add_sub_cancel' hi]
  · simp [hi]

/-- The masks of the group rules as divisions. -/
lemma group_masks {g : ℕ} (hg : g < 65536) :
    (g &&& 0xfe00 = 0xfc00 ↔ g / 512 = 126) ∧ (g &&& 0xff00 = 0xff00 ↔ g / 256 = 255) ∧
      (g &&& 0xffc0 = 0xfe80 ↔ g / 64 = 1018) ∧ (g &&& 0xffc0 = 0xfec0 ↔ g / 64 = 1019) := by
  have h9 := and_leading (k := 9) hg (by omega)
  have h8 := and_leading (k := 8) hg (by omega)
  have h6 := and_leading (k := 6) hg (by omega)
  simp only [Nat.shiftRight_eq_div_pow, Nat.shiftLeft_eq] at h9 h8 h6
  norm_num at h9 h8 h6
  rw [h9, h8, h6]
  omega

section groups
variable {g₀ g₁ g₂ g₃ g₄ g₅ g₆ g₇ : ℕ}

lemma v6_eq : v6 [g₀, g₁, g₂, g₃, g₄, g₅, g₆, g₇] =
    ((((((g₀ * 65536 + g₁) * 65536 + g₂) * 65536 + g₃) * 65536 + g₄) * 65536 + g₅) * 65536 + g₆) *
      65536 + g₇ := by
  simp only [v6, number, List.foldl_cons, List.foldl_nil]
  omega

variable (h₀ : g₀ < 65536) (h₁ : g₁ < 65536) (h₂ : g₂ < 65536) (h₃ : g₃ < 65536)
  (h₄ : g₄ < 65536) (h₅ : g₅ < 65536) (h₆ : g₆ < 65536) (h₇ : g₇ < 65536)
include h₀ h₁ h₂ h₃ h₄ h₅ h₆ h₇

/-- The blocks as conditions on the groups. -/
lemma privateIPv6Blocks_iff :
    (∃ block ∈ privateIPv6Blocks, block.Contains 128 (v6 [g₀, g₁, g₂, g₃, g₄, g₅, g₆, g₇])) ↔
      (g₀ = 0 ∧ g₁ = 0 ∧ g₂ = 0 ∧ g₃ = 0 ∧ g₄ = 0 ∧ g₅ = 0) ∨ g₀ / 512 = 126 ∨ g₀ / 256 = 255 ∨
        g₀ / 64 = 1018 ∨ g₀ / 64 = 1019 ∨
        (g₀ = 0 ∧ g₁ = 0 ∧ g₂ = 0 ∧ g₃ = 0 ∧ g₄ = 0xffff ∧ g₅ = 0) ∨
        (g₀ = 0x64 ∧ g₁ = 0xff9b ∧ g₂ = 1) ∨ (g₀ = 0x2001 ∧ g₁ = 0) := by
  simp only [privateIPv6Blocks, List.exists_mem_cons_iff, Block.Contains, v6_eq, List.not_mem_nil,
    false_and, exists_false, or_false]
  norm_num
  refine or_congr ?_ (or_congr ?_ (or_congr ?_ (or_congr ?_ (or_congr ?_ (or_congr ?_
    (or_congr ?_ ?_)))))) <;> omega

lemma mapped_iff : mapped.Contains 128 (v6 [g₀, g₁, g₂, g₃, g₄, g₅, g₆, g₇]) ↔
    g₀ = 0 ∧ g₁ = 0 ∧ g₂ = 0 ∧ g₃ = 0 ∧ g₄ = 0 ∧ g₅ = 0xffff := by
  simp only [mapped, Block.Contains, v6_eq]
  norm_num
  omega

lemma nat64_iff : nat64.Contains 128 (v6 [g₀, g₁, g₂, g₃, g₄, g₅, g₆, g₇]) ↔
    g₀ = 0x64 ∧ g₁ = 0xff9b ∧ g₂ = 0 ∧ g₃ = 0 ∧ g₄ = 0 ∧ g₅ = 0 := by
  simp only [nat64, Block.Contains, v6_eq]
  norm_num
  omega

lemma sixToFour_iff : sixToFour.Contains 128 (v6 [g₀, g₁, g₂, g₃, g₄, g₅, g₆, g₇]) ↔
    g₀ = 0x2002 := by
  simp only [sixToFour, Block.Contains, v6_eq]
  norm_num
  omega

lemma v6_low : v6 [g₀, g₁, g₂, g₃, g₄, g₅, g₆, g₇] % 2 ^ 32 = g₆ * 65536 + g₇ := by
  rw [v6_eq]
  norm_num
  omega

lemma v6_middle : v6 [g₀, g₁, g₂, g₃, g₄, g₅, g₆, g₇] / 2 ^ 80 % 2 ^ 32 = g₁ * 65536 + g₂ := by
  rw [v6_eq]
  norm_num
  omega

/-- The group rules refuse exactly the private ranges. -/
lemma isPrivateIPv6Groups_iff : isPrivateIPv6Groups [g₀, g₁, g₂, g₃, g₄, g₅, g₆, g₇] = true ↔
    (IpAddress.ipv6 (v6 [g₀, g₁, g₂, g₃, g₄, g₅, g₆, g₇])).Refused := by
  have hmapped := mapped_iff h₀ h₁ h₂ h₃ h₄ h₅ h₆ h₇
  have hnat64 := nat64_iff h₀ h₁ h₂ h₃ h₄ h₅ h₆ h₇
  have hsix := sixToFour_iff h₀ h₁ h₂ h₃ h₄ h₅ h₆ h₇
  obtain ⟨hula, hmulticast, hlink, hsite⟩ := group_masks h₀
  by_cases hm : mapped.Contains 128 (v6 [g₀, g₁, g₂, g₃, g₄, g₅, g₆, g₇])
  · have hembedded : embeddedIPv4 _ = some _ := if_pos (Or.inl hm)
    rw [refused_embedded hembedded, v6_low h₀ h₁ h₂ h₃ h₄ h₅ h₆ h₇, IpAddress.Refused,
      ← isPrivateIPv4_dottedFrom h₆ h₇]
    obtain ⟨rfl, rfl, rfl, rfl, rfl, rfl⟩ := hmapped.mp hm
    simp [isPrivateIPv6Groups, zeroed]
  by_cases hn : nat64.Contains 128 (v6 [g₀, g₁, g₂, g₃, g₄, g₅, g₆, g₇])
  · have hembedded : embeddedIPv4 _ = some _ := if_pos (Or.inr hn)
    rw [refused_embedded hembedded, v6_low h₀ h₁ h₂ h₃ h₄ h₅ h₆ h₇, IpAddress.Refused,
      ← isPrivateIPv4_dottedFrom h₆ h₇]
    obtain ⟨rfl, rfl, rfl, rfl, rfl, rfl⟩ := hnat64.mp hn
    simp [isPrivateIPv6Groups, zeroed]
  have hneither : ¬ (mapped.Contains 128 (v6 [g₀, g₁, g₂, g₃, g₄, g₅, g₆, g₇]) ∨
      nat64.Contains 128 (v6 [g₀, g₁, g₂, g₃, g₄, g₅, g₆, g₇])) := not_or.mpr ⟨hm, hn⟩
  by_cases hs : sixToFour.Contains 128 (v6 [g₀, g₁, g₂, g₃, g₄, g₅, g₆, g₇])
  · have hembedded : embeddedIPv4 _ = some _ := (if_neg hneither).trans (if_pos hs)
    rw [refused_embedded hembedded, v6_middle h₀ h₁ h₂ h₃ h₄ h₅ h₆ h₇, IpAddress.Refused,
      ← isPrivateIPv4_dottedFrom h₁ h₂]
    obtain rfl := hsix.mp hs
    simp [isPrivateIPv6Groups, zeroed]
  · have hembedded : embeddedIPv4 _ = none := (if_neg hneither).trans (if_neg hs)
    rw [refused_ipv6 hembedded, privateIPv6Blocks_iff h₀ h₁ h₂ h₃ h₄ h₅ h₆ h₇]
    rw [hmapped] at hm
    rw [hnat64] at hn
    rw [hsix] at hs
    simp only [isPrivateIPv6Groups, zeroed, List.take_succ_cons, List.take_zero, List.drop_zero,
      List.drop_succ_cons, List.all_cons, List.all_nil, List.getD_cons_zero, List.getD_cons_succ,
      Bool.and_true, Bool.and_eq_true, beq_iff_eq, hula, hmulticast, hlink, hsite]
    -- The embedded forms are out; what is left refuses outright or accepts.
    simp only [and_assoc, hm, hn, hs, if_false, Bool.if_true_left, Bool.or_eq_true,
      decide_eq_true_eq, or_assoc, Bool.or_false]

end groups

end Maple.SafeFetch
