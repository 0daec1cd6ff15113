import Mathlib

/-! Little-endian fields and readers that consume a byte string from the front. -/

namespace Maple.ByteReader

/-- The `k` low bytes of `n`, least significant first. -/
def leBytes : ℕ → ℕ → List UInt8
  | 0, _ => []
  | k + 1, n => UInt8.ofNat (n % 256) :: leBytes k (n / 256)

/-- The number whose little-endian bytes are given. -/
def ofLeBytes : List UInt8 → ℕ
  | [] => 0
  | b :: bs => b.toNat + 256 * ofLeBytes bs

@[simp] lemma leBytes_length (k n : ℕ) : (leBytes k n).length = k := by
  induction k generalizing n with
  | zero => rfl
  | succ k ih => simp [leBytes, ih]

lemma ofLeBytes_leBytes {k n : ℕ} (h : n < 256 ^ k) : ofLeBytes (leBytes k n) = n := by
  induction k generalizing n with
  | zero =>
    have hn : n = 0 := by simpa using h
    simp [leBytes, ofLeBytes, hn]
  | succ k ih =>
    have hq : n / 256 < 256 ^ k := by
      apply Nat.div_lt_of_lt_mul
      rw [pow_succ] at h
      omega
    have hb : (UInt8.ofNat (n % 256)).toNat = n % 256 := by
      simp [UInt8.toNat_ofNat']
    simp only [leBytes, ofLeBytes, ih hq, hb]
    omega

/-- The little-endian number in the `len` bytes at `off`. -/
def leField (bs : List UInt8) (off len : ℕ) : ℕ := ofLeBytes ((bs.drop off).take len)

/-- A field is read back from between the bytes laid out before and after it. -/
lemma leField_append {before field after : List UInt8} {off len : ℕ}
    (hoff : before.length = off) (hlen : field.length = len) :
    leField (before ++ (field ++ after)) off len = ofLeBytes field := by
  subst hoff hlen
  simp [leField]

/-- A reader takes bytes from the front of its input, or fails with a message. -/
abbrev Reader := StateT (List UInt8) (Except String)

/-- Take exactly `n` bytes, failing with `err` when fewer are left. -/
def readExact (n : ℕ) (err : String) : Reader (List UInt8) := fun bs =>
  if n ≤ bs.length then .ok (bs.take n, bs.drop n) else .error err

lemma readExact_append {n : ℕ} {err : String} {xs rest : List UInt8} (h : xs.length = n) :
    readExact n err (xs ++ rest) = .ok (xs, rest) := by
  subst h
  simp [readExact]

/-- A stable reader looks at nothing beyond the bytes it consumes. -/
def Stable {α : Type} (r : Reader α) : Prop :=
  ∀ bs a rest, r bs = .ok (a, rest) →
    ∃ used, bs = used ++ rest ∧ ∀ rest', r (used ++ rest') = .ok (a, rest')

lemma stable_pure {α : Type} (a : α) : Stable (pure a : Reader α) := by
  intro bs b rest h
  obtain ⟨rfl, rfl⟩ : a = b ∧ bs = rest := by
    simpa [pure, StateT.pure, Except.pure] using h
  exact ⟨[], rfl, fun _ => rfl⟩

lemma stable_throw {α : Type} (err : String) : Stable (throw err : Reader α) := by
  intro bs b rest h
  cases h

lemma stable_readExact (n : ℕ) (err : String) : Stable (readExact n err) := by
  intro bs xs rest h
  unfold readExact at h
  split_ifs at h with hn
  obtain ⟨rfl, rfl⟩ : bs.take n = xs ∧ bs.drop n = rest := by simpa using h
  refine ⟨bs.take n, (List.take_append_drop n bs).symm, fun rest' => ?_⟩
  exact readExact_append (by simp [hn])

lemma bind_ok {α β : Type} {r : Reader α} {f : α → Reader β} {bs rest : List UInt8} {b : β} :
    (r >>= f) bs = .ok (b, rest) ↔
      ∃ a mid, r bs = .ok (a, mid) ∧ f a mid = .ok (b, rest) := by
  constructor
  · intro h
    cases hr : r bs with
    | error e => simp [bind, StateT.bind, Except.bind, hr] at h
    | ok p => exact ⟨p.1, p.2, rfl, by simpa [bind, StateT.bind, Except.bind, hr] using h⟩
  · rintro ⟨a, mid, hr, hf⟩
    simpa [bind, StateT.bind, Except.bind, hr] using hf

lemma stable_bind {α β : Type} {r : Reader α} {f : α → Reader β} (hr : Stable r)
    (hf : ∀ a, Stable (f a)) : Stable (r >>= f) := by
  intro bs b rest h
  obtain ⟨a, mid, ha, hb⟩ := bind_ok.mp h
  obtain ⟨used, rfl, hused⟩ := hr _ _ _ ha
  obtain ⟨used', rfl, hused'⟩ := hf a _ _ _ hb
  refine ⟨used ++ used', by simp, fun rest' => bind_ok.mpr ⟨a, used' ++ rest', ?_, hused' rest'⟩⟩
  simpa using hused (used' ++ rest')

lemma stable_ite {α : Type} {c : Prop} [Decidable c] {r s : Reader α} (hr : Stable r)
    (hs : Stable s) : Stable (if c then r else s) := by
  split_ifs
  · exact hr
  · exact hs

end Maple.ByteReader
