import Mathlib.Data.Int.Log
import Mathlib.Data.Rat.Floor
import Mathlib.Tactic

/-! Numbers as JavaScript has them: doubles, with both zeros as 0. -/

namespace Maple

/-- The nearest double, the even one of two: arithmetic rounds to 53 significant bits. -/
def double (x : ℚ) : ℚ :=
  if x = 0 then 0
  else
    let place := (2 : ℚ) ^ (Int.log 2 |x| - 52)
    let below := ⌊x / place⌋
    let excess := x / place - below
    (if excess < 1 / 2 ∨ (excess = 1 / 2 ∧ below % 2 = 0) then below else below + 1) * place

/-- An integer of at most 53 bits is a double. -/
lemma double_int {z : ℤ} (hz : |z| < 2 ^ 53) : double z = z := by
  unfold double
  split_ifs with hzero
  · rw [hzero]
  · have hpos : (0 : ℚ) < |(z : ℚ)| := abs_pos.mpr hzero
    have hlt : |(z : ℚ)| < ((2 : ℕ) : ℚ) ^ (53 : ℤ) := by exact_mod_cast hz
    have hlog : Int.log 2 |(z : ℚ)| < 53 := (Int.lt_zpow_iff_log_lt (by norm_num) hpos).mp hlt
    obtain ⟨n, hn⟩ : ∃ n : ℕ, Int.log 2 |(z : ℚ)| - 52 = -(n : ℤ) :=
      ⟨(52 - Int.log 2 |(z : ℚ)|).toNat, by omega⟩
    have hplace : (2 : ℚ) ^ (Int.log 2 |(z : ℚ)| - 52) = ((2 : ℚ) ^ n)⁻¹ := by
      rw [hn, zpow_neg, zpow_natCast]
    have hquot : (z : ℚ) / ((2 : ℚ) ^ n)⁻¹ = ((z * 2 ^ n : ℤ) : ℚ) := by
      push_cast
      rw [div_inv_eq_mul]
    simp only [hplace, hquot, Int.floor_intCast, sub_self]
    rw [if_pos (Or.inl (by norm_num))]
    push_cast
    rw [mul_assoc, mul_inv_cancel₀ (by positivity), mul_one]

def maxFinite : ℚ := (2 ^ 53 - 1) * 2 ^ 971

inductive Number
  | nan
  | infinity (negative : Bool)
  | finite (value : ℚ)
deriving DecidableEq, Repr

namespace Number

def isFinite : Number → Bool
  | .finite _ => true
  | _ => false

def isNaN : Number → Bool
  | .nan => true
  | _ => false

/-- The result of an operation whose exact result is `x`. -/
def nearest (x : ℚ) : Number :=
  if maxFinite < |double x| then .infinity (x < 0) else .finite (double x)

def sub : Number → Number → Number
  | .finite a, .finite b => nearest (a - b)
  | .nan, _ => .nan
  | _, .nan => .nan
  | .infinity a, .infinity b => if a = b then .nan else .infinity a
  | .infinity a, .finite _ => .infinity a
  | .finite _, .infinity b => .infinity !b

/-- `Math.max` of 0 and a number. -/
def max0 : Number → Number
  | .nan => .nan
  | .infinity negative => if negative then .finite 0 else .infinity false
  | .finite value => .finite (max 0 value)

/-- `Math.round`, halves up. -/
def round : Number → Number
  | .finite value => .finite ⌊value + 1 / 2⌋
  | other => other

/-- In the order of the sign of `a - b`; there is none with `nan`. -/
def le : Number → Number → Bool
  | .finite a, .finite b => a ≤ b
  | .infinity true, .infinity _ => true
  | .infinity true, .finite _ => true
  | .infinity false, .infinity false => true
  | .finite _, .infinity false => true
  | _, _ => false

lemma le_trans {a b c : Number} (hab : le a b) (hbc : le b c) : le a c := by
  cases a with
  | nan => simp [le] at hab
  | infinity negative =>
    cases b with
    | nan => simp [le] at hbc
    | infinity negative' =>
      cases negative with
      | true => cases c <;> simp_all [le]
      | false =>
        cases negative' with
        | true => simp [le] at hab
        | false => exact hbc
    | finite y =>
      cases negative with
      | true => cases c <;> simp_all [le]
      | false => simp [le] at hab
  | finite x =>
    cases b with
    | nan => simp [le] at hbc
    | infinity negative =>
      cases negative with
      | true => simp [le] at hab
      | false =>
        cases c with
        | nan => simp [le] at hbc
        | infinity negative' => cases negative' <;> simp_all [le]
        | finite z => simp [le] at hbc
    | finite y =>
      cases c with
      | nan => simp [le] at hbc
      | infinity negative => cases negative <;> simp_all [le]
      | finite z =>
        simp only [le, decide_eq_true_eq] at *
        exact hab.trans hbc

lemma le_total {a b : Number} (ha : a.isNaN = false) (hb : b.isNaN = false) : le a b ∨ le b a := by
  cases a with
  | nan => simp [isNaN] at ha
  | infinity negative =>
    cases b with
    | nan => simp [isNaN] at hb
    | infinity negative' => cases negative <;> cases negative' <;> simp [le]
    | finite y => cases negative <;> simp [le]
  | finite x =>
    cases b with
    | nan => simp [isNaN] at hb
    | infinity negative => cases negative <;> simp [le]
    | finite y =>
      simp only [le, decide_eq_true_eq]
      exact Rat.le_total

lemma pow_le_maxFinite {n : ℕ} (hn : n ≤ 971) : (2 : ℚ) ^ n ≤ maxFinite := by
  have hpow : (2 : ℚ) ^ n ≤ 2 ^ 971 := pow_le_pow_right₀ (by norm_num) hn
  have hpos : (0 : ℚ) ≤ 2 ^ 971 := by positivity
  have hone : (1 : ℚ) ≤ 2 ^ 53 - 1 := by norm_num
  exact hpow.trans (le_mul_of_one_le_left hpos hone)

lemma nearest_int {z : ℤ} (hz : |z| < 2 ^ 53) : nearest z = .finite z := by
  have hcast : |(z : ℚ)| < 2 ^ 53 := by exact_mod_cast hz
  unfold nearest
  rw [double_int hz, if_neg (not_lt.mpr (hcast.le.trans (pow_le_maxFinite (by norm_num))))]

lemma max0_nearest (x : ℚ) : max0 (nearest x) = .infinity false ∨
    ∃ value, max0 (nearest x) = .finite value ∧ 0 ≤ value := by
  unfold nearest
  split_ifs
  · cases hneg : decide (x < 0) with
    | false => exact Or.inl (by simp [max0])
    | true => exact Or.inr ⟨0, by simp [max0], le_rfl⟩
  · exact Or.inr ⟨max 0 (double x), rfl, le_max_left _ _⟩

end Number

end Maple
