import Mathlib.Data.BitVec
import Mathlib.Data.List.Basic

/-! CRC-32, bit by bit and from a table of bytes. -/

namespace Maple.Crc32

def polynomial : BitVec 32 := 0xedb88320#32

/-- Shift one bit out. -/
def bitStep (c : BitVec 32) : BitVec 32 :=
  if c.getLsbD 0 then polynomial ^^^ (c >>> 1) else c >>> 1

def bitSteps : ℕ → BitVec 32 → BitVec 32
  | 0, c => c
  | n + 1, c => bitSteps n (bitStep c)

/-- A byte taken in, eight bits one after another. -/
def byteStep (crc : BitVec 32) (byte : UInt8) : BitVec 32 :=
  bitSteps 8 (crc ^^^ byte.toBitVec.setWidth 32)

def bitwise (bytes : List UInt8) : BitVec 32 :=
  bytes.foldl byteStep 0xffffffff#32 ^^^ 0xffffffff#32

lemma bitStep_xor (x y : BitVec 32) : bitStep (x ^^^ y) = bitStep x ^^^ bitStep y := by
  simp only [bitStep, BitVec.getLsbD_xor, BitVec.ushiftRight_xor_distrib]
  cases x.getLsbD 0 with
  | false =>
    cases y.getLsbD 0 with
    | false => simp
    | true =>
      simp only [Bool.false_xor, if_true, Bool.false_eq_true, if_false]
      rw [← BitVec.xor_assoc, ← BitVec.xor_assoc, BitVec.xor_comm polynomial]
  | true =>
    cases y.getLsbD 0 with
    | false =>
      simp only [Bool.true_xor, Bool.not_false, if_true, Bool.false_eq_true, if_false]
      rw [BitVec.xor_assoc]
    | true =>
      simp only [Bool.true_xor, Bool.not_true, if_true, Bool.false_eq_true, if_false]
      calc x >>> 1 ^^^ y >>> 1
        _ = x >>> 1 ^^^ (polynomial ^^^ polynomial) ^^^ y >>> 1 := by simp
        _ = polynomial ^^^ x >>> 1 ^^^ (polynomial ^^^ y >>> 1) := by
          rw [BitVec.xor_comm polynomial (x >>> 1)]
          simp only [BitVec.xor_assoc]

lemma bitSteps_xor (n : ℕ) (x y : BitVec 32) :
    bitSteps n (x ^^^ y) = bitSteps n x ^^^ bitSteps n y := by
  induction n generalizing x y with
  | zero => rfl
  | succ n ih =>
    simp only [bitSteps, bitStep_xor]
    exact ih _ _

/-- Zero bits leave without a trace. -/
lemma bitSteps_shift (n : ℕ) (x : BitVec 32) (h : ∀ i < n, x.getLsbD i = false) :
    bitSteps n x = x >>> n := by
  induction n generalizing x with
  | zero => simp [bitSteps]
  | succ n ih =>
    have hstep : bitStep x = x >>> 1 := by
      rw [bitStep, h 0 (by omega)]
      rfl
    have hrest : ∀ i < n, (x >>> 1).getLsbD i = false := by
      intro i hi
      rw [BitVec.getLsbD_ushiftRight]
      exact h (1 + i) (by omega)
    rw [bitSteps, hstep, ih _ hrest, ← BitVec.shiftRight_add, Nat.add_comm]

/-! ### The table -/

/-- The eight steps of each byte. -/
def table : List (BitVec 32) := (List.range 256).map fun n => bitSteps 8 (BitVec.ofNat 32 n)

def tableStep (crc : BitVec 32) (byte : UInt8) : BitVec 32 :=
  (table[((crc ^^^ byte.toBitVec.setWidth 32) &&& 0xff#32).toNat]?).getD 0#32 ^^^ (crc >>> 8)

lemma low_lt (x : BitVec 32) : (x &&& 0xff#32).toNat < 256 := by
  rw [BitVec.toNat_and]
  exact Nat.and_lt_two_pow _ (by decide : (0xff#32).toNat < 2 ^ 8)

lemma table_get (x : BitVec 32) :
    (table[(x &&& 0xff#32).toNat]?).getD 0#32 = bitSteps 8 (x &&& 0xff#32) := by
  rw [table, List.getElem?_map, List.getElem?_range (low_lt x), Option.map_some, Option.getD_some,
    BitVec.ofNat_toNat, BitVec.setWidth_eq]

lemma getLsbD_high : ∀ i < 8, (~~~0xff#32).getLsbD i = false := by decide

/-- The low byte and the others. -/
lemma split_low (x : BitVec 32) : x = (x &&& ~~~0xff#32) ^^^ (x &&& 0xff#32) := by
  ext i hi
  simp only [BitVec.getElem_xor, BitVec.getElem_and, BitVec.getElem_not]
  cases x[i] <;> cases (0xff#32)[i] <;> rfl

lemma high_shift (x : BitVec 32) : (x &&& ~~~0xff#32) >>> 8 = x >>> 8 := by
  have hlow : (x &&& 0xff#32) >>> 8 = 0#32 := by
    apply BitVec.eq_of_toNat_eq
    rw [BitVec.toNat_ushiftRight, Nat.shiftRight_eq_div_pow]
    exact Nat.div_eq_of_lt (low_lt x)
  conv_rhs => rw [split_low x, BitVec.ushiftRight_xor_distrib, hlow, BitVec.xor_zero]

lemma byte_shift (byte : UInt8) : (byte.toBitVec.setWidth 32) >>> 8 = 0#32 := by
  apply BitVec.eq_of_toNat_eq
  rw [BitVec.toNat_ushiftRight, Nat.shiftRight_eq_div_pow, BitVec.toNat_setWidth,
    Nat.mod_eq_of_lt (lt_of_lt_of_le byte.toBitVec.isLt (by decide))]
  exact Nat.div_eq_of_lt byte.toBitVec.isLt

/-- One look-up is eight bit steps. -/
lemma tableStep_eq (crc : BitVec 32) (byte : UInt8) : tableStep crc byte = byteStep crc byte := by
  set x := crc ^^^ byte.toBitVec.setWidth 32 with hx
  have hhigh : bitSteps 8 (x &&& ~~~0xff#32) = x >>> 8 := by
    rw [bitSteps_shift 8 _ ?_, high_shift]
    intro i hi
    rw [BitVec.getLsbD_and, getLsbD_high i hi, Bool.and_false]
  have hshift : x >>> 8 = crc >>> 8 := by
    rw [hx, BitVec.ushiftRight_xor_distrib, byte_shift, BitVec.xor_zero]
  calc tableStep crc byte
    _ = bitSteps 8 (x &&& 0xff#32) ^^^ crc >>> 8 := by rw [tableStep, ← hx, table_get]
    _ = bitSteps 8 (x &&& ~~~0xff#32) ^^^ bitSteps 8 (x &&& 0xff#32) := by
      rw [hhigh, hshift, BitVec.xor_comm]
    _ = byteStep crc byte := by rw [← bitSteps_xor, ← split_low, byteStep, hx]

theorem foldl_tableStep (bytes : List UInt8) (crc : BitVec 32) :
    bytes.foldl tableStep crc = bytes.foldl byteStep crc := by
  induction bytes generalizing crc with
  | nil => rfl
  | cons byte bytes ih => rw [List.foldl_cons, List.foldl_cons, tableStep_eq, ih]

end Maple.Crc32
