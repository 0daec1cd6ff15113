import Mathlib

/-! Finite maps that list their entries in the order their keys were first set. -/

namespace Maple

variable {κ β : Type} [DecidableEq κ]

def setEntry (k : κ) (v : β) : List (κ × β) → List (κ × β)
  | [] => [(k, v)]
  | (j, w) :: rest => if j = k then (k, v) :: rest else (j, w) :: setEntry k v rest

lemma keys_setEntry (k : κ) (v : β) (entries : List (κ × β)) :
    (setEntry k v entries).map Prod.fst =
      if k ∈ entries.map Prod.fst then entries.map Prod.fst else entries.map Prod.fst ++ [k] := by
  induction entries with
  | nil => simp [setEntry]
  | cons entry rest ih =>
    obtain ⟨j, w⟩ := entry
    by_cases hj : j = k
    · simp [setEntry, hj]
    · by_cases hmem : k ∈ rest.map Prod.fst
      · simp [setEntry, hj, ih, hmem]
      · simp [setEntry, hj, ih, hmem, Ne.symm hj]

lemma setEntry_new {k : κ} {entries : List (κ × β)} (hk : k ∉ entries.map Prod.fst) (v : β)
    (more : List (κ × β)) : setEntry k v (entries ++ more) = entries ++ setEntry k v more := by
  induction entries with
  | nil => rfl
  | cons entry rest ih =>
    obtain ⟨j, w⟩ := entry
    rw [List.map_cons, List.mem_cons, not_or] at hk
    simp [setEntry, Ne.symm hk.1, ih hk.2]

structure InsertMap (κ β : Type) where
  entries : List (κ × β)
  nodup : (entries.map Prod.fst).Nodup

namespace InsertMap

def empty : InsertMap κ β := ⟨[], List.nodup_nil⟩

omit [DecidableEq κ] in
lemma ext_entries {m m' : InsertMap κ β} (h : m.entries = m'.entries) : m = m' := by
  cases m
  cases m'
  subst h
  rfl

def set (m : InsertMap κ β) (k : κ) (v : β) : InsertMap κ β where
  entries := setEntry k v m.entries
  nodup := by
    rw [keys_setEntry]
    split_ifs with hmem
    · exact m.nodup
    · refine List.nodup_append.mpr ⟨m.nodup, by simp, ?_⟩
      intro j hj i hi hji
      rw [List.mem_singleton.mp hi] at hji
      exact hmem (hji ▸ hj)

def erase (m : InsertMap κ β) (k : κ) : InsertMap κ β where
  entries := m.entries.filter fun entry => entry.1 ≠ k
  nodup := m.nodup.sublist (List.filter_sublist.map Prod.fst)

def get (m : InsertMap κ β) (k : κ) : Option β :=
  (m.entries.find? fun entry => entry.1 = k).map Prod.snd

/-- Replace every value, whatever its key. -/
def mapValues (m : InsertMap κ β) (f : β → β) : InsertMap κ β where
  entries := m.entries.map fun entry => (entry.1, f entry.2)
  nodup := by
    rw [List.map_map]
    exact m.nodup

def values (m : InsertMap κ β) : List β := m.entries.map Prod.snd

@[simp] lemma get_empty (k : κ) : (empty : InsertMap κ β).get k = none := rfl

@[simp] lemma get_set (m : InsertMap κ β) (k j : κ) (v : β) :
    (m.set k v).get j = if j = k then some v else m.get j := by
  obtain ⟨entries, hnodup⟩ := m
  dsimp only [get, set]
  clear hnodup
  induction entries with
  | nil =>
    by_cases hj : j = k
    · simp [setEntry, hj]
    · simp [setEntry, hj, Ne.symm hj]
  | cons entry rest ih =>
    obtain ⟨i, w⟩ := entry
    by_cases hi : i = k
    · by_cases hj : j = k
      · simp [setEntry, hi, hj]
      · simp [setEntry, hi, hj, Ne.symm hj]
    · by_cases hij : i = j
      · have hj : j ≠ k := fun h => hi (hij.trans h)
        simp [setEntry, hij, hj]
      · simpa [setEntry, hi, hij] using ih

/-- Setting the entries of a map in turn makes the map. -/
lemma foldl_set {m : InsertMap κ β} {entries : List (κ × β)}
    (h : ((m.entries ++ entries).map Prod.fst).Nodup) :
    (entries.foldl (fun m entry => m.set entry.1 entry.2) m).entries = m.entries ++ entries := by
  induction entries generalizing m with
  | nil => simp
  | cons entry entries ih =>
    have hk : entry.1 ∉ m.entries.map Prod.fst := by
      intro hmem
      rw [List.map_append, List.map_cons] at h
      exact (List.nodup_append.mp h).2.2 _ hmem _ List.mem_cons_self rfl
    have hset : (m.set entry.1 entry.2).entries = m.entries ++ [entry] := by
      have hnew := setEntry_new hk entry.2 []
      rwa [List.append_nil] at hnew
    rw [List.foldl_cons, ih (by rwa [hset, List.append_assoc]), hset, List.append_assoc]
    rfl

@[simp] lemma get_erase (m : InsertMap κ β) (k j : κ) :
    (m.erase k).get j = if j = k then none else m.get j := by
  unfold get erase
  rw [List.find?_filter]
  by_cases hj : j = k
  · subst hj
    rw [if_pos rfl, Option.map_eq_none_iff, List.find?_eq_none]
    simp
  · rw [if_neg hj]
    congr 2
    funext entry
    by_cases hentry : entry.1 = j
    · simp [hentry, hj]
    · simp [hentry]

@[simp] lemma get_mapValues (m : InsertMap κ β) (f : β → β) (k : κ) :
    (m.mapValues f).get k = (m.get k).map f := by
  unfold get mapValues
  rw [List.find?_map, Option.map_map, Option.map_map]
  rfl

lemma mem_entries {m : InsertMap κ β} {k : κ} {v : β} : (k, v) ∈ m.entries ↔ m.get k = some v := by
  obtain ⟨entries, hnodup⟩ := m
  unfold get
  induction entries with
  | nil => simp
  | cons entry rest ih =>
    obtain ⟨j, w⟩ := entry
    simp only [List.map_cons, List.nodup_cons] at hnodup
    by_cases hj : j = k
    · have hfresh : (k, v) ∉ rest := fun h => hnodup.1 (hj ▸ List.mem_map_of_mem h)
      simp [hj, hfresh, eq_comm]
    · simpa [hj, Ne.symm hj] using ih hnodup.2

lemma mem_values {m : InsertMap κ β} {v : β} : v ∈ m.values ↔ ∃ k, m.get k = some v := by
  simp only [values, List.mem_map, Prod.exists, exists_eq_right, mem_entries]

lemma values_set_new {m : InsertMap κ β} {k : κ} (h : m.get k = none) (v : β) :
    (m.set k v).values = m.values ++ [v] := by
  obtain ⟨entries, hnodup⟩ := m
  dsimp only [get, set, values] at *
  clear hnodup
  induction entries with
  | nil => rfl
  | cons entry rest ih =>
    obtain ⟨j, w⟩ := entry
    by_cases hj : j = k
    · simp [hj] at h
    · simp only [List.find?_cons, hj, decide_false] at h
      simp [setEntry, hj, ih h]

/-- Replacing a value by one that measures the same leaves the measures as they are. -/
lemma map_values_set {γ : Type} {m : InsertMap κ β} {k : κ} {v w : β} (f : β → γ)
    (h : m.get k = some w) (hf : f v = f w) : (m.set k v).values.map f = m.values.map f := by
  obtain ⟨entries, hnodup⟩ := m
  dsimp only [get, set, values] at *
  clear hnodup
  induction entries with
  | nil => cases h
  | cons entry rest ih =>
    obtain ⟨j, u⟩ := entry
    by_cases hj : j = k
    · obtain rfl : u = w := by simpa [hj] using h
      simp [setEntry, hj, hf]
    · simp only [List.find?_cons, hj, decide_false] at h
      simp only [setEntry, hj, if_false, List.map_cons, ih h]

lemma values_erase_perm {m : InsertMap κ β} {k : κ} {v : β} (h : m.get k = some v) :
    m.values.Perm (v :: (m.erase k).values) := by
  obtain ⟨entries, hnodup⟩ := m
  dsimp only [get, erase, values] at *
  induction entries with
  | nil => cases h
  | cons entry rest ih =>
    obtain ⟨j, u⟩ := entry
    rw [List.map_cons, List.nodup_cons] at hnodup
    by_cases hj : j = k
    · obtain rfl : u = v := by simpa [hj] using h
      have hrest : rest.filter (fun entry => entry.1 ≠ k) = rest := by
        apply List.filter_eq_self.mpr
        intro entry hentry
        rw [decide_eq_true_eq]
        intro hk
        apply hnodup.1
        rw [hj, ← hk]
        exact List.mem_map.mpr ⟨entry, hentry, rfl⟩
      rw [List.filter_cons_of_neg (by simp [hj]), hrest]
      rfl
    · simp only [List.find?_cons, hj, decide_false] at h
      rw [List.filter_cons_of_pos (by simp [hj]), List.map_cons, List.map_cons]
      exact ((ih hnodup.2 h).cons u).trans (List.Perm.swap v u _)

lemma values_erase_none {m : InsertMap κ β} {k : κ} (h : m.get k = none) :
    (m.erase k).values = m.values := by
  obtain ⟨entries, hnodup⟩ := m
  dsimp only [get, erase, values] at *
  rw [Option.map_eq_none_iff, List.find?_eq_none] at h
  congr 1
  apply List.filter_eq_self.mpr
  intro entry hentry
  simpa using h entry hentry

lemma values_erase_set (m : InsertMap κ β) (k : κ) (v : β) :
    ((m.set k v).erase k).values = (m.erase k).values := by
  obtain ⟨entries, hnodup⟩ := m
  dsimp only [set, erase, values]
  clear hnodup
  congr 1
  induction entries with
  | nil => simp [setEntry]
  | cons entry rest ih =>
    obtain ⟨j, u⟩ := entry
    by_cases hj : j = k
    · simp [setEntry, hj]
    · simp only [ne_eq, decide_not] at ih
      simp [setEntry, hj, ih]

/-- Set each value at its own key, in turn. -/
def setAll (key : β → κ) (m : InsertMap κ β) (vs : List β) : InsertMap κ β :=
  vs.foldl (fun m v => m.set (key v) v) m

/-- The last value set at a key is the one that stays. -/
lemma get_setAll (key : β → κ) (m : InsertMap κ β) (vs : List β) (k : κ) :
    (setAll key m vs).get k = (vs.reverse.find? fun v => key v = k).or (m.get k) := by
  induction vs using List.reverseRecOn with
  | nil => rfl
  | append_singleton vs v ih =>
    have hstep : setAll key m (vs ++ [v]) = (setAll key m vs).set (key v) v := by
      simp [setAll]
    rw [hstep, get_set, List.reverse_append, List.reverse_singleton, List.singleton_append,
      List.find?_cons]
    by_cases hk : k = key v
    · simp [hk]
    · simp [hk, Ne.symm hk, ih]

lemma setAll_setAll (key : β → κ) (m : InsertMap κ β) (vs ws : List β) :
    setAll key (setAll key m vs) ws = setAll key m (vs ++ ws) := by
  rw [setAll, setAll, setAll, List.foldl_append]

lemma mem_of_get_setAll {key : β → κ} {m : InsertMap κ β} {vs : List β} {k : κ} {v : β}
    (h : (setAll key m vs).get k = some v) : v ∈ vs ∨ m.get k = some v := by
  rw [get_setAll] at h
  rcases Option.or_eq_some_iff.mp h with hfind | ⟨-, hget⟩
  · exact Or.inl (List.mem_reverse.mp (List.mem_of_find?_eq_some hfind))
  · exact Or.inr hget

/-- Values that are stored under their own keys have pairwise different keys. -/
lemma setAll_pairwise (key : β → κ) (vs : List β) :
    ((setAll key empty vs).values.map key).Nodup := by
  have hkeys : (setAll key empty vs).values.map key = (setAll key empty vs).entries.map Prod.fst := by
    unfold values
    rw [List.map_map]
    refine List.map_congr_left fun entry hentry => ?_
    obtain ⟨k, v⟩ := entry
    have hget := mem_entries.mp hentry
    rw [get_setAll, get_empty, Option.or_none] at hget
    simpa using List.find?_some hget
  rw [hkeys]
  exact (setAll key empty vs).nodup

/-- Collect the values of each key, in order. -/
def groupAll (key : β → κ) (vs : List β) : InsertMap κ (List β) :=
  vs.foldl (fun m v => m.set (key v) ((m.get (key v)).getD [] ++ [v])) empty

lemma get_groupAll (key : β → κ) (vs : List β) (k : κ) :
    ((groupAll key vs).get k).getD [] = vs.filter fun v => key v = k := by
  induction vs using List.reverseRecOn with
  | nil => rfl
  | append_singleton vs v ih =>
    have hstep : groupAll key (vs ++ [v]) =
        (groupAll key vs).set (key v) (((groupAll key vs).get (key v)).getD [] ++ [v]) := by
      simp [groupAll]
    rw [hstep, get_set, List.filter_append]
    by_cases hk : k = key v
    · rw [if_pos hk, Option.getD_some, ← hk, ih]
      simp [hk]
    · rw [if_neg hk, ih]
      simp [Ne.symm hk]

/-- A group holds exactly the values of its key. -/
lemma group_of_mem_groupAll {key : β → κ} {vs : List β} {k : κ} {group : List β}
    (h : (k, group) ∈ (groupAll key vs).entries) : group = vs.filter fun v => key v = k := by
  have hgroup := get_groupAll key vs k
  rwa [mem_entries.mp h, Option.getD_some] at hgroup

/-- The groups hold every value once. -/
lemma groupAll_flatten (key : β → κ) (vs : List β) : (groupAll key vs).values.flatten.Perm vs := by
  induction vs using List.reverseRecOn with
  | nil => exact List.Perm.refl _
  | append_singleton vs v ih =>
    set m := groupAll key vs with hm
    have hstep : groupAll key (vs ++ [v]) = m.set (key v) ((m.get (key v)).getD [] ++ [v]) := by
      rw [hm]
      simp [groupAll]
    have hset := values_erase_perm (k := key v)
      (show (m.set (key v) ((m.get (key v)).getD [] ++ [v])).get (key v) = _ by
        rw [get_set, if_pos rfl])
    rw [values_erase_set] at hset
    have hold : m.values.flatten.Perm
        ((m.get (key v)).getD [] ++ (m.erase (key v)).values.flatten) := by
      cases hget : m.get (key v) with
      | none => simp [values_erase_none hget]
      | some group => simpa using (values_erase_perm hget).flatten
    rw [hstep]
    calc (m.set (key v) ((m.get (key v)).getD [] ++ [v])).values.flatten
        |>.Perm (((m.get (key v)).getD [] ++ [v]) ++ (m.erase (key v)).values.flatten) := hset.flatten
      _ |>.Perm ((m.get (key v)).getD [] ++ (m.erase (key v)).values.flatten ++ [v]) := by
          rw [List.append_assoc, List.append_assoc]
          exact List.perm_append_comm.append_left _
      _ |>.Perm (vs ++ [v]) := (hold.symm.trans ih).append_right _

lemma mem_of_mem_groupAll {key : β → κ} {vs : List β} {k : κ} {group : List β} {v : β}
    (h : (k, group) ∈ (groupAll key vs).entries) (hv : v ∈ group) : v ∈ vs := by
  rw [group_of_mem_groupAll h] at hv
  exact List.mem_of_mem_filter hv

lemma mem_keys {m : InsertMap κ β} {k : κ} : k ∈ m.entries.map Prod.fst ↔ ∃ v, m.get k = some v := by
  simp only [List.mem_map, Prod.exists, exists_and_right, exists_eq_right, mem_entries]

lemma not_mem_keys {m : InsertMap κ β} {k : κ} :
    k ∉ m.entries.map Prod.fst ↔ m.get k = none := by
  rw [mem_keys, ← Option.isSome_iff_exists, Bool.not_eq_true, Option.isSome_eq_false_iff,
    Option.isNone_iff_eq_none]

/-- Join each value to what is stored at its key, in turn. -/
def upsertAll {γ : Type} (key : β → κ) (join : Option γ → β → γ) (vs : List β) : InsertMap κ γ :=
  vs.foldl (fun m v => m.set (key v) (join (m.get (key v)) v)) empty

/-- Only the values of a key count for what is stored there. -/
lemma get_upsertAll {γ : Type} (key : β → κ) (join : Option γ → β → γ) (vs : List β) (k : κ) :
    (upsertAll key join vs).get k =
      (vs.filter fun v => key v = k).foldl (fun stored v => some (join stored v)) none := by
  induction vs using List.reverseRecOn with
  | nil => rfl
  | append_singleton vs v ih =>
    have hstep : upsertAll key join (vs ++ [v]) = (upsertAll key join vs).set (key v)
        (join ((upsertAll key join vs).get (key v)) v) := by
      simp [upsertAll]
    rw [hstep, get_set, List.filter_append, List.foldl_append]
    by_cases hk : k = key v
    · subst hk
      simp [ih]
    · simp [hk, Ne.symm hk, ih]

end InsertMap

end Maple
