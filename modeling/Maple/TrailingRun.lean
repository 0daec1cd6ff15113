import Mathlib

/-! The last entries of a list, and how many at its end pass a test without a break. -/

namespace Maple.TrailingRun

variable {α : Type}

/-- The last `n` entries, or all of them when there are no more. -/
def lastN (n : ℕ) (xs : List α) : List α := xs.drop (xs.length - n)

def trailingRun (p : α → Bool) (xs : List α) : ℕ := (xs.reverse.takeWhile p).length

variable {p : α → Bool} {xs : List α} {n : ℕ}

lemma length_lastN : (lastN n xs).length = min n xs.length := by
  simp only [lastN, List.length_drop]
  omega

lemma mem_of_mem_lastN {x : α} (h : x ∈ lastN n xs) : x ∈ xs := List.mem_of_mem_drop h

lemma lastN_append_singleton (hn : 0 < n) (xs : List α) (x : α) :
    ∃ ys, lastN n (xs ++ [x]) = ys ++ [x] := by
  refine ⟨xs.drop ((xs ++ [x]).length - n), ?_⟩
  have hle : (xs ++ [x]).length - n ≤ xs.length := by
    rw [List.length_append, List.length_singleton]
    omega
  rw [lastN, List.drop_append_of_le_length hle]

lemma reverse_lastN : (lastN n xs).reverse = xs.reverse.take n := by
  rw [lastN, List.reverse_drop]
  by_cases h : n ≤ xs.length
  · rw [show xs.length - (xs.length - n) = n by omega]
  · rw [List.take_of_length_le (by simp; omega), List.take_of_length_le (by simp; omega)]

@[simp] lemma trailingRun_nil : trailingRun p [] = 0 := rfl

lemma trailingRun_append (xs : List α) (x : α) :
    trailingRun p (xs ++ [x]) = if p x then trailingRun p xs + 1 else 0 := by
  cases hx : p x with
  | true => simp [trailingRun, hx]
  | false => simp [trailingRun, hx]

lemma trailingRun_replicate (xs : List α) (x : α) (k : ℕ) :
    trailingRun p (xs ++ List.replicate k x) = if p x then trailingRun p xs + k else
      if k = 0 then trailingRun p xs else 0 := by
  induction k with
  | zero => simp
  | succ k ih =>
    rw [List.replicate_succ', ← List.append_assoc, trailingRun_append, ih]
    cases hx : p x with
    | true => simp [Nat.add_assoc]
    | false => simp

lemma trailingRun_congr {q : α → Bool} (h : ∀ x ∈ xs, p x = q x) :
    trailingRun p xs = trailingRun q xs := by
  induction xs using List.reverseRecOn with
  | nil => rfl
  | append_singleton xs x ih =>
    have hx : p x = q x := h x (by simp)
    have hxs := ih fun y hy => h y (by simp [hy])
    rw [trailingRun_append, trailingRun_append, hx, hxs]

lemma takeWhile_take (xs : List α) (n : ℕ) :
    ((xs.take n).takeWhile p).length = min n (xs.takeWhile p).length := by
  induction xs generalizing n with
  | nil => simp
  | cons x xs ih =>
    cases n with
    | zero => simp
    | succ n =>
      cases hx : p x with
      | true => simp [hx, ih]
      | false => simp [hx]

/-- Forgetting all but the last `n` entries caps a run at `n`. -/
lemma trailingRun_lastN : trailingRun p (lastN n xs) = min n (trailingRun p xs) := by
  rw [trailingRun, reverse_lastN, takeWhile_take, trailingRun]

/-- A run cannot be told from a longer one below the cap. -/
lemma min_trailingRun_lastN {m : ℕ} (h : m ≤ n) :
    min (trailingRun p (lastN n xs)) m = min (trailingRun p xs) m := by
  rw [trailingRun_lastN]
  omega

lemma countP_eq_length_iff_run (xs : List α) :
    xs.length ≤ xs.countP p ↔ xs.length ≤ (xs.takeWhile p).length := by
  induction xs with
  | nil => simp
  | cons x xs ih =>
    cases hx : p x with
    | true => simpa [List.takeWhile_cons, hx] using ih
    | false =>
      have hle := List.countP_le_length (p := p) (l := xs)
      simp [hx]
      omega

/-- All of the last `n` entries pass the test exactly when the run is at least `n` long. -/
lemma le_countP_lastN_iff : n ≤ (lastN n xs).countP p ↔ n ≤ trailingRun p xs := by
  have hcount : (lastN n xs).countP p = ((xs.reverse.take n).countP p) := by
    rw [← reverse_lastN, List.countP_reverse]
  have hrun : trailingRun p xs = (xs.reverse.takeWhile p).length := rfl
  have hlength : (xs.reverse.take n).length = min n xs.length := by simp
  have hcountle := List.countP_le_length (p := p) (l := xs.reverse.take n)
  have htake := takeWhile_take (p := p) xs.reverse n
  have hiff := countP_eq_length_iff_run (p := p) (xs.reverse.take n)
  have hrunle : (xs.reverse.takeWhile p).length ≤ xs.length := by
    simpa using (List.takeWhile_prefix p (l := xs.reverse)).length_le
  rw [hcount, hrun]
  constructor
  · intro hle
    have hall := hiff.mp (by omega)
    omega
  · intro hle
    have hall := hiff.mpr (by omega)
    omega

/-- All of the last `n` entries pass, and there are so many. -/
lemma le_trailingRun_iff : n ≤ trailingRun p xs ↔ n ≤ xs.length ∧ ∀ x ∈ lastN n xs, p x := by
  rw [← le_countP_lastN_iff]
  have hlength : (lastN n xs).length = min n xs.length := length_lastN
  have hcount := List.countP_le_length (p := p) (l := lastN n xs)
  constructor
  · intro hle
    refine ⟨by omega, ?_⟩
    exact List.countP_eq_length.mp (by omega)
  · intro ⟨hlong, hall⟩
    have heq := List.countP_eq_length.mpr hall
    omega

lemma lastN_lastN {m : ℕ} (h : m ≤ n) : lastN m (lastN n xs) = lastN m xs := by
  rw [lastN, length_lastN, lastN, List.drop_drop, lastN]
  congr 1
  omega

/-- The last entries can be kept up as the list grows. -/
lemma lastN_append_lastN (xs ys : List α) : lastN n (lastN n xs ++ ys) = lastN n (xs ++ ys) := by
  have hkept : lastN n xs ++ ys = (xs ++ ys).drop (xs.length - n) := by
    rw [lastN, List.drop_append_of_le_length (Nat.sub_le _ _)]
  rw [hkept, lastN, List.drop_drop, List.length_drop, List.length_append, lastN,
    List.length_append]
  congr 1
  omega

lemma lastN_map {β : Type} (f : α → β) (xs : List α) : lastN n (xs.map f) = (lastN n xs).map f := by
  simp [lastN, List.map_drop]

lemma trailingRun_map {β : Type} (f : α → β) (q : β → Bool) (xs : List α) :
    trailingRun q (xs.map f) = trailingRun (fun x => q (f x)) xs := by
  induction xs using List.reverseRecOn with
  | nil => rfl
  | append_singleton xs x ih =>
    rw [List.map_append, List.map_singleton, trailingRun_append, trailingRun_append, ih]

lemma getLast?_lastN (hn : 0 < n) : (lastN n xs).getLast? = xs.getLast? := by
  induction xs using List.reverseRecOn with
  | nil => simp [lastN]
  | append_singleton xs x ih =>
    obtain ⟨ys, hys⟩ := lastN_append_singleton hn xs x
    rw [hys]
    simp

/-! ### After the last entry of a kind -/

/-- What follows the last entry that passes the test. -/
def sinceLast (p : α → Bool) (xs : List α) : List α := (xs.reverse.takeWhile fun x => !p x).reverse

lemma sinceLast_append (xs : List α) (x : α) :
    sinceLast p (xs ++ [x]) = if p x then [] else sinceLast p xs ++ [x] := by
  cases hx : p x with
  | true => simp [sinceLast, hx]
  | false => simp [sinceLast, hx]

/-- A run ends at the latest at an entry that breaks it, so nothing before counts. -/
lemma trailingRun_sinceLast {keep q : α → Bool} (hbreak : ∀ x ∈ xs, p x → keep x ∧ q x = false) :
    trailingRun q ((sinceLast p xs).filter keep) = trailingRun q (xs.filter keep) := by
  induction xs using List.reverseRecOn with
  | nil => rfl
  | append_singleton xs x ih =>
    have hprev := ih fun y hy => hbreak y (List.mem_append_left _ hy)
    have hlast := hbreak x (by simp)
    rw [sinceLast_append]
    cases hp : p x with
    | true =>
      obtain ⟨hkeep, hq⟩ := hlast hp
      simp [List.filter_append, hkeep, trailingRun_append, hq]
    | false =>
      cases hkeep : keep x with
      | true => simp [List.filter_append, hkeep, trailingRun_append, hprev]
      | false => simp [List.filter_append, hkeep, hprev]

end Maple.TrailingRun
