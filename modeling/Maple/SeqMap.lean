import Mathlib

/-! Finite maps keyed by sequence numbers, listed in ascending order. -/

namespace Maple

/-- A partial map on the natural numbers with no entry at or above `bound`. -/
structure SeqMap (β : Type) where
  get : ℕ → Option β
  bound : ℕ
  get_bound : ∀ k, bound ≤ k → get k = none

namespace SeqMap

variable {β : Type}

def empty : SeqMap β where
  get _ := none
  bound := 0
  get_bound _ _ := rfl

def set (m : SeqMap β) (k : ℕ) (v : β) : SeqMap β where
  get j := if j = k then some v else m.get j
  bound := max m.bound (k + 1)
  get_bound j hj := by
    have hne : j ≠ k := by omega
    simpa [hne] using m.get_bound j (by omega)

def erase (m : SeqMap β) (k : ℕ) : SeqMap β where
  get j := if j = k then none else m.get j
  bound := m.bound
  get_bound j hj := by
    split_ifs
    · rfl
    · exact m.get_bound j hj

/-- Keep the entries whose key and value satisfy `p`. -/
def filter (m : SeqMap β) (p : ℕ → β → Bool) : SeqMap β where
  get j := (m.get j).filter (p j)
  bound := m.bound
  get_bound j hj := by simp [m.get_bound j hj]

def keys (m : SeqMap β) : List ℕ := (List.range m.bound).filter fun k => (m.get k).isSome

@[simp] lemma get_empty (k : ℕ) : (empty : SeqMap β).get k = none := rfl

@[simp] lemma get_set (m : SeqMap β) (k j : ℕ) (v : β) :
    (m.set k v).get j = if j = k then some v else m.get j := rfl

@[simp] lemma get_erase (m : SeqMap β) (k j : ℕ) :
    (m.erase k).get j = if j = k then none else m.get j := rfl

@[simp] lemma get_filter (m : SeqMap β) (p : ℕ → β → Bool) (j : ℕ) :
    (m.filter p).get j = (m.get j).filter (p j) := rfl

lemma ext {m m' : SeqMap β} (hget : ∀ k, m.get k = m'.get k) (hbound : m.bound = m'.bound) :
    m = m' := by
  cases m
  cases m'
  simp only [mk.injEq]
  exact ⟨funext hget, hbound⟩

lemma lt_bound {m : SeqMap β} {k : ℕ} (h : (m.get k).isSome) : k < m.bound := by
  by_contra hk
  rw [m.get_bound k (by omega)] at h
  cases h

/-- Writing back what is there changes nothing. -/
lemma set_get {m : SeqMap β} {k : ℕ} {v : β} (h : m.get k = some v) : m.set k v = m := by
  have hk : k < m.bound := lt_bound (by simp [h])
  refine ext (fun j => ?_) ?_
  · by_cases hj : j = k
    · simp [hj, h]
    · simp [hj]
  · simp only [set]
    omega

@[simp] lemma mem_keys {m : SeqMap β} {k : ℕ} : k ∈ m.keys ↔ (m.get k).isSome := by
  simp only [keys, List.mem_filter, List.mem_range, and_iff_right_iff_imp]
  exact lt_bound

lemma keys_sorted (m : SeqMap β) : m.keys.Pairwise (· < ·) :=
  List.pairwise_lt_range.filter _

/-- The first key is the least one. -/
lemma head_keys_le {m : SeqMap β} {k first : ℕ} (hfirst : m.keys.head? = some first)
    (hk : (m.get k).isSome) : first ≤ k := by
  have hmem : k ∈ m.keys := mem_keys.mpr hk
  have hsorted := m.keys_sorted
  cases hkeys : m.keys with
  | nil => simp [hkeys] at hfirst
  | cons x xs =>
    rw [hkeys] at hfirst hmem hsorted
    obtain rfl : x = first := by simpa using hfirst
    rcases List.mem_cons.mp hmem with rfl | hmem
    · exact le_rfl
    · exact (List.rel_of_pairwise_cons hsorted hmem).le

/-- The last key is the greatest one. -/
lemma le_getLast_keys {m : SeqMap β} {k last : ℕ} (hlast : m.keys.getLast? = some last)
    (hk : (m.get k).isSome) : k ≤ last := by
  obtain ⟨xs, hxs⟩ := List.getLast?_eq_some_iff.mp hlast
  have hmem : k ∈ m.keys := mem_keys.mpr hk
  have hsorted := m.keys_sorted
  rw [hxs] at hmem hsorted
  rcases List.mem_append.mp hmem with hmem | hmem
  · exact ((List.pairwise_append.mp hsorted).2.2 k hmem last (by simp)).le
  · exact (List.mem_singleton.mp hmem).le

/-- The weights of all entries, added up. -/
def weight (w : β → ℕ) (m : SeqMap β) : ℕ :=
  (m.keys.map fun k => (m.get k).elim 0 w).sum

lemma weight_eq_sum (w : β → ℕ) {m : SeqMap β} {n : ℕ} (hn : m.bound ≤ n) :
    m.weight w = ∑ k ∈ Finset.range n, (m.get k).elim 0 w := by
  have hkeys : m.weight w =
      ((List.range m.bound).map fun k => (m.get k).elim 0 w).sum := by
    unfold weight keys
    generalize List.range m.bound = ks
    induction ks with
    | nil => rfl
    | cons k ks ih =>
      cases hk : m.get k with
      | none => simp [hk, ih]
      | some v => simp [hk, ih]
  have hsub : Finset.range m.bound ⊆ Finset.range n := Finset.range_subset_range.mpr hn
  rw [hkeys, ← List.sum_toFinset _ List.nodup_range, List.toFinset_range]
  refine Finset.sum_subset hsub fun k _ hk => ?_
  rw [m.get_bound k (by simpa using hk)]
  rfl

/-- Writing one entry changes the weight by that entry alone. -/
lemma weight_set (w : β → ℕ) (m : SeqMap β) (k : ℕ) (v : β) :
    (m.set k v).weight w + (m.get k).elim 0 w = m.weight w + w v := by
  have hk : k ∈ Finset.range (max m.bound (k + 1)) := by
    rw [Finset.mem_range]
    omega
  have hbound : (m.set k v).bound ≤ max m.bound (k + 1) := le_rfl
  rw [weight_eq_sum w hbound, weight_eq_sum w (le_max_left m.bound (k + 1)),
    ← Finset.add_sum_erase _ _ hk, ← Finset.add_sum_erase _ _ hk]
  have hrest : ∀ j ∈ (Finset.range (max m.bound (k + 1))).erase k,
      ((m.set k v).get j).elim 0 w = (m.get j).elim 0 w := by
    intro j hj
    simp [(Finset.mem_erase.mp hj).1]
  rw [Finset.sum_congr rfl hrest]
  simp only [get_set, if_true, Option.elim_some]
  omega

lemma weight_erase (w : β → ℕ) (m : SeqMap β) (k : ℕ) :
    (m.erase k).weight w + (m.get k).elim 0 w = m.weight w := by
  have hk : k ∈ Finset.range (max m.bound (k + 1)) := by
    rw [Finset.mem_range]
    omega
  rw [weight_eq_sum w (m := m.erase k) (le_max_left m.bound (k + 1)),
    weight_eq_sum w (le_max_left m.bound (k + 1)),
    ← Finset.add_sum_erase _ _ hk, ← Finset.add_sum_erase _ _ hk]
  have hrest : ∀ j ∈ (Finset.range (max m.bound (k + 1))).erase k,
      ((m.erase k).get j).elim 0 w = (m.get j).elim 0 w := by
    intro j hj
    simp [(Finset.mem_erase.mp hj).1]
  rw [Finset.sum_congr rfl hrest]
  simp only [get_erase, if_true, Option.elim_none]
  omega

lemma weight_set_new (w : β → ℕ) {m : SeqMap β} {k : ℕ} {v : β} (hk : m.get k = none) :
    (m.set k v).weight w = m.weight w + w v := by
  have h := weight_set w m k v
  rw [hk, Option.elim_none] at h
  omega

lemma weight_set_old (w : β → ℕ) {m : SeqMap β} {k : ℕ} {old v : β} (hk : m.get k = some old) :
    (m.set k v).weight w + w old = m.weight w + w v := by
  have h := weight_set w m k v
  rwa [hk, Option.elim_some] at h

lemma weight_erase_old (w : β → ℕ) {m : SeqMap β} {k : ℕ} {old : β} (hk : m.get k = some old) :
    (m.erase k).weight w + w old = m.weight w := by
  have h := weight_erase w m k
  rwa [hk, Option.elim_some] at h

lemma weight_eq_zero {w : β → ℕ} {m : SeqMap β} (h : ∀ k v, m.get k = some v → w v = 0) :
    m.weight w = 0 := by
  rw [weight_eq_sum w le_rfl]
  refine Finset.sum_eq_zero fun k _ => ?_
  cases hk : m.get k with
  | none => rfl
  | some v => exact h k v hk

end SeqMap

end Maple
