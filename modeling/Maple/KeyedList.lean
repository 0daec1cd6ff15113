import Mathlib.Data.List.Nodup
import Mathlib.Logic.Function.Basic

/-! A list of items with an index of where the item of each key is. -/

namespace Maple

structure KeyedList (κ α : Type) where
  items : List α
  index : κ → Option ℕ

namespace KeyedList
variable {κ α : Type}

def empty : KeyedList κ α := ⟨[], fun _ => none⟩

/-- Change the item of a key, or add one. -/
def upsert [DecidableEq κ] (list : KeyedList κ α) (k : κ) (new : α) (change : α → α) :
    KeyedList κ α :=
  match list.index k with
  | some i => { list with items := list.items.modify i change }
  | none =>
    { items := list.items ++ [new]
      index := Function.update list.index k (some list.items.length) }

/-- The index is of these keys. -/
def Indexed (key : α → κ) (list : KeyedList κ α) : Prop :=
  ∀ k i, list.index k = some i ↔ (list.items[i]?).map key = some k

lemma indexed_empty (key : α → κ) : Indexed key empty := by
  intro k i
  simp [empty]

variable {key : α → κ} {list : KeyedList κ α}

/-- No two items have one key. -/
lemma Indexed.nodup (h : Indexed key list) : (list.items.map key).Nodup := by
  rw [List.nodup_iff_getElem?_ne_getElem?]
  intro i j hij hj heq
  rw [List.getElem?_map, List.getElem?_map] at heq
  obtain ⟨item, hitem⟩ : ∃ item, list.items[j]? = some item := by
    rw [List.length_map] at hj
    exact ⟨_, List.getElem?_eq_getElem hj⟩
  have hlast := (h (key item) j).mpr (by rw [hitem, Option.map_some])
  have hfirst := (h (key item) i).mpr (by rw [heq, hitem, Option.map_some])
  rw [hlast, Option.some.injEq] at hfirst
  omega

lemma Indexed.unique (h : Indexed key list) {item other : α} (hitem : item ∈ list.items)
    (hother : other ∈ list.items) (hkey : key item = key other) : item = other :=
  List.inj_on_of_nodup_map h.nodup hitem hother hkey

variable [DecidableEq κ] {k : κ} {new : α} {change : α → α}

/-- The item of a key is changed in its place; an item of a new key comes last. -/
theorem Indexed.upsert_cases (h : Indexed key list) :
    (∃ before item after, list.items = before ++ item :: after ∧ key item = k ∧
      (list.upsert k new change).items = before ++ change item :: after) ∨
    ((∀ item ∈ list.items, key item ≠ k) ∧
      (list.upsert k new change).items = list.items ++ [new]) := by
  cases hindex : list.index k with
  | some i =>
    obtain ⟨item, hitem, hkey⟩ := Option.map_eq_some_iff.mp ((h k i).mp hindex)
    obtain ⟨hi, rfl⟩ := List.getElem?_eq_some_iff.mp hitem
    refine Or.inl ⟨list.items.take i, _, list.items.drop (i + 1), ?_, hkey, ?_⟩
    · rw [List.getElem_cons_drop, List.take_append_drop]
    · simp only [upsert, hindex]
      rw [List.modify_eq_take_cons_drop hi]
  | none =>
    refine Or.inr ⟨?_, by simp only [upsert, hindex]⟩
    intro item hitem hkey
    obtain ⟨i, hi, rfl⟩ := List.getElem_of_mem hitem
    have hsome := (h k i).mpr (by rw [List.getElem?_eq_getElem hi, Option.map_some, hkey])
    rw [hindex] at hsome
    cases hsome

theorem Indexed.upsert (h : Indexed key list) (hnew : key new = k)
    (hchange : ∀ item, key (change item) = key item) :
    Indexed key (list.upsert k new change) := by
  intro j i
  cases hindex : list.index k with
  | some at_ =>
    have hmap : ((list.items.modify at_ change)[i]?).map key = (list.items[i]?).map key := by
      rw [List.getElem?_modify]
      split_ifs with hi
      · cases list.items[i]? with
        | none => rfl
        | some item => simp [hchange]
      · rw [id_map']
    simp only [KeyedList.upsert, hindex]
    rw [hmap]
    exact h j i
  | none =>
    have hfresh : ∀ i : ℕ, (list.items[i]?).map key ≠ some k := by
      intro i hi
      have hsome := (h k i).mpr hi
      rw [hindex] at hsome
      cases hsome
    simp only [KeyedList.upsert, hindex]
    by_cases hj : j = k
    · subst hj
      rw [Function.update_self, Option.some.injEq, List.getElem?_append]
      split_ifs with hi
      · constructor
        · rintro rfl
          omega
        · intro hkey
          exact absurd hkey (hfresh i)
      · constructor
        · rintro rfl
          simp [hnew]
        · intro hkey
          by_contra hne
          have hpos : i - list.items.length ≠ 0 := by omega
          obtain ⟨n, hn⟩ := Nat.exists_eq_succ_of_ne_zero hpos
          simp [hn] at hkey
    · rw [Function.update_of_ne hj, h j i, List.getElem?_append]
      split_ifs with hi
      · rfl
      · rw [List.getElem?_eq_none (by omega)]
        constructor
        · intro hnone
          cases hnone
        · intro hkey
          cases hzero : i - list.items.length with
          | zero =>
            rw [hzero] at hkey
            simp [hnew] at hkey
            exact absurd hkey.symm hj
          | succ n => simp [hzero] at hkey

end KeyedList
end Maple
