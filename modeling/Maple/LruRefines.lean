import Maple.LruRecency

/-! Whole runs of the LRU cache against whole runs of the recency list. -/

namespace Maple.Drain

inductive Operation (K V : Type) where
  | put (key : K) (value : V)
  | get (key : K)
  | peek (key : K)
  | remove (key : K)

inductive Answer (K V : Type) where
  | value (value : Option V)
  | evicted (pair : Option (K × V))

namespace LruCache

variable {K V : Type} [DecidableEq K]

def step (c : LruCache K V) : Operation K V → Except LruSlotError (Answer K V × LruCache K V)
  | .put key value => do
    let (evicted, c) ← c.put key value
    return (.evicted evicted, c)
  | .get key => do
    let (value, c) ← c.get key
    return (.value value, c)
  | .peek key => return (.value (c.peek key), c)
  | .remove key => do
    let (value, c) ← c.remove key
    return (.value value, c)

/-- The answers of the operations in turn, and the cache after them. -/
def run (c : LruCache K V) :
    List (Operation K V) → Except LruSlotError (List (Answer K V) × LruCache K V)
  | [] => return ([], c)
  | operation :: rest => do
    let (answer, c) ← c.step operation
    let (answers, c) ← c.run rest
    return (answer :: answers, c)

/-- The keys met from a slot on, following one of the two links. -/
inductive Follows (c : LruCache K V) (link : LruEntry K V → Option ℕ) : Option ℕ → List K → Prop
  | done : Follows c link none []
  | step {slot : ℕ} {entry : LruEntry K V} {keys : List K} (hentry : c.entry slot = some entry)
      (hrest : Follows c link (link entry) keys) : Follows c link (some slot) (entry.key :: keys)

end LruCache

namespace Recency

variable {K V : Type} [DecidableEq K]

def step (capacity : ℕ) (pairs : Recency K V) : Operation K V → Answer K V × Recency K V
  | .put key value => ((pairs.put capacity key value).1 |> .evicted, (pairs.put capacity key value).2)
  | .get key => (.value (pairs.get key).1, (pairs.get key).2)
  | .peek key => (.value (pairs.find key), pairs)
  | .remove key => (.value (pairs.remove key).1, (pairs.remove key).2)

def run (capacity : ℕ) (pairs : Recency K V) :
    List (Operation K V) → List (Answer K V) × Recency K V
  | [] => ([], pairs)
  | operation :: rest =>
    let (answer, pairs) := pairs.step capacity operation
    let (answers, pairs) := run capacity pairs rest
    (answer :: answers, pairs)

end Recency

namespace LruCache

variable {K V : Type} [DecidableEq K] {c c' : LruCache K V} {s : ℕ} {key : K} {value : V}
  {cells front back : List (ℕ × K × V)}

/-! ### What the cache holds -/

/-- The cells in recency order, each a slot with its key and value. -/
structure Holds (c : LruCache K V) (cells : List (ℕ × K × V)) : Prop where
  chained : Chained c (cells.map Prod.fst)
  held : ∀ x ∈ cells, c.cell x.1 = some x.2
  live : ∀ s, (c.cell s).isSome → s ∈ cells.map Prod.fst
  keys : (cells.map fun x => x.2.1).Nodup
  map : ∀ k s, c.map.get k = some s ↔ ∃ v, (s, k, v) ∈ cells
  free : ∀ s ∈ c.freeSlots, s < c.entries.length ∧ s ∉ cells.map Prod.fst
  freeNodup : c.freeSlots.Nodup

lemma holds_new (capacity : ℕ) : Holds (new capacity : LruCache K V) [] where
  chained := ⟨rfl, rfl, trivial, List.nodup_nil⟩
  held := by simp
  live s h := by simp [cell, entry, new] at h
  keys := List.nodup_nil
  map := by simp [new]
  free := by simp [new]
  freeNodup := List.nodup_nil

lemma Holds.keys_pairs (h : Holds c cells) : ((cells.map Prod.snd).map Prod.fst).Nodup := by
  rw [List.map_map]
  exact h.keys

lemma Holds.find_none (h : Holds c cells) (hnone : c.map.get key = none) :
    key ∉ (cells.map Prod.snd).map Prod.fst := by
  intro hmem
  obtain ⟨pair, hpair, rfl⟩ := List.mem_map.mp hmem
  obtain ⟨⟨s, pair⟩, hcell, rfl⟩ := List.mem_map.mp hpair
  have hsome := (h.map pair.1 s).mpr ⟨pair.2, hcell⟩
  rw [hnone] at hsome
  cases hsome

lemma Holds.find_some (h : Holds c cells) (hsome : c.map.get key = some s) :
    ∃ front value back, cells = front ++ (s, key, value) :: back := by
  obtain ⟨value, hmem⟩ := (h.map key s).mp hsome
  obtain ⟨front, back, hcells⟩ := List.append_of_mem hmem
  exact ⟨front, value, back, hcells⟩

lemma Holds.size (h : Holds c cells) : c.size = cells.length := by
  have hperm : (c.map.entries.map Prod.fst).Perm (cells.map fun x => x.2.1) := by
    refine (List.perm_ext_iff_of_nodup c.map.nodup h.keys).mpr fun k => ?_
    constructor
    · intro hk
      obtain ⟨⟨k, s⟩, hentry, rfl⟩ := List.mem_map.mp hk
      obtain ⟨v, hmem⟩ := (h.map k s).mp (InsertMap.mem_entries.mp hentry)
      exact List.mem_map.mpr ⟨(s, k, v), hmem, rfl⟩
    · intro hk
      obtain ⟨⟨s, k, v⟩, hmem, rfl⟩ := List.mem_map.mp hk
      have hget := (h.map k s).mpr ⟨v, hmem⟩
      exact List.mem_map.mpr ⟨(k, s), InsertMap.mem_entries.mpr hget, rfl⟩
  have hlength := hperm.length_eq
  rwa [List.length_map, List.length_map] at hlength

/-- A cell in another place of the list. -/
lemma Holds.rewire {x : ℕ × K × V} (h : Holds c (front ++ x :: back)) (hrewired : Rewired c c')
    (hchained : Chained c' (x.1 :: (front.map Prod.fst ++ back.map Prod.fst))) :
    Holds c' (x :: (front ++ back)) := by
  have hperm : (x :: (front ++ back)).Perm (front ++ x :: back) := List.perm_middle.symm
  refine ⟨?_, ?_, ?_, ?_, ?_, ?_, ?_⟩
  · rw [List.map_cons, List.map_append]
    exact hchained
  · intro y hy
    rw [hrewired.cell]
    exact h.held y (hperm.mem_iff.mp hy)
  · intro s hs
    rw [hrewired.cell] at hs
    exact (hperm.map Prod.fst).mem_iff.mpr (h.live s hs)
  · exact (hperm.map _).nodup_iff.mpr h.keys
  · intro k s
    rw [hrewired.map, h.map]
    simp only [hperm.mem_iff]
  · intro s hs
    rw [hrewired.free] at hs
    rw [hrewired.length, (hperm.map Prod.fst).mem_iff]
    exact h.free s hs
  · rw [hrewired.free]
    exact h.freeNodup

lemma Holds.moveToHead {x : ℕ × K × V} (h : Holds c (front ++ x :: back)) :
    ∃ c', c.moveToHead x.1 = .ok c' ∧ Holds c' (x :: (front ++ back)) ∧ Rewired c c' := by
  have hchained := h.chained
  rw [List.map_append, List.map_cons] at hchained
  obtain ⟨c', hstep, hchained', hrewired⟩ := hchained.moveToHead
  exact ⟨c', hstep, h.rewire hrewired hchained', hrewired⟩

lemma Holds.exists_entry {x : ℕ × K × V} (h : Holds c cells) (hx : x ∈ cells) :
    ∃ e, c.entry x.1 = some e ∧ e.key = x.2.1 ∧ e.value = x.2.2 := by
  have hcell := h.held x hx
  obtain ⟨e, he, heq⟩ := Option.map_eq_some_iff.mp hcell
  exact ⟨e, he, congrArg Prod.fst heq, congrArg Prod.snd heq⟩

/-- Another value in a cell. -/
lemma Holds.setValue {e : LruEntry K V} (h : Holds c (front ++ (s, key, value) :: back))
    (he : c.entry s = some e) (hkey : e.key = key) (value' : V) :
    Holds (c.setEntry s (some { e with value := value' })) (front ++ (s, key, value') :: back) := by
  have hlt := lt_of_entry he
  have hslots : (front ++ (s, key, value') :: back).map Prod.fst =
      (front ++ (s, key, value) :: back).map Prod.fst := by simp
  have hkeys : (front ++ (s, key, value') :: back).map (fun x => x.2.1) =
      (front ++ (s, key, value) :: back).map fun x => x.2.1 := by simp
  have hnodup := h.chained.nodup
  rw [List.map_append, List.map_cons] at hnodup
  have hs := (List.nodup_middle.mp hnodup).notMem
  have hcell : ∀ t, (c.setEntry s (some { e with value := value' })).cell t =
      if t = s then some (key, value') else c.cell t := by
    intro t
    rw [cell, cell, entry_setEntry hlt]
    by_cases ht : t = s
    · simp [ht, hkey]
    · simp [ht]
  refine ⟨⟨?_, ?_, ?_, ?_⟩, ?_, ?_, ?_, ?_, ?_, h.freeNodup⟩
  · rw [hslots]
    exact h.chained.head
  · rw [hslots]
    exact h.chained.tail
  · rw [hslots]
    refine h.chained.linked.congr fun t ht => ?_
    rw [links, links, entry_setEntry hlt]
    by_cases hts : t = s
    · rw [if_pos hts, hts, he]
      rfl
    · rw [if_neg hts]
  · rw [hslots]
    exact h.chained.nodup
  · intro x hx
    rw [hcell]
    by_cases hxs : x.1 = s
    · rw [if_pos hxs]
      rcases List.mem_append.mp hx with hx | hx
      · exact absurd (List.mem_append_left _ (List.mem_map.mpr ⟨x, hx, hxs⟩)) hs
      · rcases List.mem_cons.mp hx with rfl | hx
        · rfl
        · exact absurd (List.mem_append_right _ (List.mem_map.mpr ⟨x, hx, hxs⟩)) hs
    · rw [if_neg hxs]
      refine h.held x ?_
      simp only [List.mem_append, List.mem_cons] at hx ⊢
      rcases hx with hx | rfl | hx
      · exact .inl hx
      · exact absurd rfl hxs
      · exact .inr (.inr hx)
  · intro t ht
    rw [hslots]
    rw [hcell] at ht
    by_cases hts : t = s
    · simp [hts]
    · rw [if_neg hts] at ht
      exact h.live t ht
  · rw [hkeys]
    exact h.keys
  · intro k t
    refine (h.map k t).trans ⟨?_, ?_⟩
    · rintro ⟨v, hv⟩
      simp only [List.mem_append, List.mem_cons, Prod.mk.injEq] at hv ⊢
      rcases hv with hv | ⟨rfl, rfl, -⟩ | hv
      · exact ⟨v, .inl hv⟩
      · exact ⟨value', .inr (.inl ⟨rfl, rfl, rfl⟩)⟩
      · exact ⟨v, .inr (.inr hv)⟩
    · rintro ⟨v, hv⟩
      simp only [List.mem_append, List.mem_cons, Prod.mk.injEq] at hv ⊢
      rcases hv with hv | ⟨rfl, rfl, -⟩ | hv
      · exact ⟨v, .inl hv⟩
      · exact ⟨value, .inr (.inl ⟨rfl, rfl, rfl⟩)⟩
      · exact ⟨v, .inr (.inr hv)⟩
  · intro t ht
    rw [hslots]
    obtain ⟨hlength, hnotin⟩ := h.free t ht
    exact ⟨by simpa [LruCache.setEntry] using hlength, hnotin⟩

/-! ### Slots taken and freed -/

/-- A cell leaves the list, and its slot is free. -/
lemma Holds.drop {x : ℕ × K × V} (h : Holds c (front ++ x :: back)) :
    ∃ c', ({ c with map := c.map.erase x.2.1 } : LruCache K V).unlink x.1 = .ok c' ∧
      c'.cell x.1 = some x.2 ∧ c'.capacity = c.capacity ∧
      Holds (c'.freeSlot x.1) (front ++ back) := by
  have hchained := h.chained
  rw [List.map_append, List.map_cons] at hchained
  have hnotin := (List.nodup_middle.mp hchained.nodup).notMem
  have hkeys := h.keys
  rw [List.map_append, List.map_cons] at hkeys
  have hkey := (List.nodup_middle.mp hkeys).notMem
  have hmem : x ∈ front ++ x :: back := by simp
  have hother : ∀ y, y ∈ front ++ x :: back ↔ y = x ∨ y ∈ front ++ back := by
    intro y
    simp only [List.mem_append, List.mem_cons]
    tauto
  have hchained₀ : Chained ({ c with map := c.map.erase x.2.1 } : LruCache K V)
      (front.map Prod.fst ++ x.1 :: back.map Prod.fst) :=
    ⟨hchained.head, hchained.tail, hchained.linked, hchained.nodup⟩
  obtain ⟨c', hstep, hchained', hrewired⟩ := hchained₀.unlink
  have hcellOf : c'.cell = c.cell := hrewired.cell
  have hfreeOf : c'.freeSlots = c.freeSlots := hrewired.free
  have hlengthOf : c'.entries.length = c.entries.length := hrewired.length
  have hmapOf : c'.map = c.map.erase x.2.1 := hrewired.map
  obtain ⟨e, he, -, -⟩ := h.exists_entry hmem
  have hlt : x.1 < c'.entries.length := by
    rw [hlengthOf]
    exact lt_of_entry he
  have hcell : ∀ t, (c'.freeSlot x.1).cell t = if t = x.1 then none else c.cell t := by
    intro t
    rw [← hcellOf]
    show ((c'.setEntry x.1 none).entry t).map _ = _
    rw [entry_setEntry hlt]
    by_cases ht : t = x.1
    · simp [ht]
    · simp [ht, cell]
  have hslots : (front ++ back).map Prod.fst = front.map Prod.fst ++ back.map Prod.fst :=
    List.map_append
  have hset := hchained'.setEntry hnotin hlt none
  refine ⟨c', hstep, ?_, hrewired.capacity, ⟨?_, ?_, ?_, ?_, ?_, ?_, ?_⟩⟩
  · rw [hcellOf]
    exact h.held x hmem
  · rw [hslots]
    exact ⟨hset.head, hset.tail, hset.linked, hset.nodup⟩
  · intro y hy
    have hne : y.1 ≠ x.1 := fun heq => hnotin (heq ▸ hslots ▸ List.mem_map_of_mem hy)
    rw [hcell, if_neg hne]
    exact h.held y ((hother y).mpr (.inr hy))
  · intro t ht
    rw [hcell] at ht
    by_cases hts : t = x.1
    · simp [hts] at ht
    · rw [if_neg hts] at ht
      obtain ⟨y, hy, rfl⟩ := List.mem_map.mp (h.live t ht)
      rcases (hother y).mp hy with rfl | hy
      · exact absurd rfl hts
      · exact List.mem_map_of_mem hy
  · rw [List.map_append]
    exact (List.nodup_cons.mp (List.nodup_middle.mp hkeys)).2
  · intro k t
    show c'.map.get k = some t ↔ _
    rw [hmapOf, InsertMap.get_erase]
    by_cases hk : k = x.2.1
    · rw [if_pos hk]
      refine iff_of_false (by simp) ?_
      rintro ⟨v, hv⟩
      refine hkey ?_
      rw [← List.map_append]
      exact List.mem_map.mpr ⟨(t, k, v), hv, hk⟩
    · rw [if_neg hk, h.map]
      constructor
      · rintro ⟨v, hv⟩
        rcases (hother _).mp hv with heq | hv
        · exact absurd (congrArg (fun y => y.2.1) heq) hk
        · exact ⟨v, hv⟩
      · rintro ⟨v, hv⟩
        exact ⟨v, (hother _).mpr (.inr hv)⟩
  · intro t ht
    have hlength : (c'.freeSlot x.1).entries.length = c.entries.length := by
      simp [freeSlot, LruCache.setEntry, hlengthOf]
    rw [hlength, hslots]
    rcases List.mem_cons.mp ht with rfl | ht
    · exact ⟨lt_of_entry he, hnotin⟩
    · rw [hfreeOf] at ht
      obtain ⟨hbound, hfresh⟩ := h.free t ht
      refine ⟨hbound, fun hin => hfresh ?_⟩
      rw [List.map_append, List.map_cons]
      simp only [List.mem_append, List.mem_cons] at hin ⊢
      tauto
  · refine List.nodup_cons.mpr ⟨fun hin => ?_, ?_⟩
    · rw [hfreeOf] at hin
      exact (h.free _ hin).2 (List.mem_map_of_mem hmem)
    · rw [hfreeOf]
      exact h.freeNodup

/-- A slot no cell uses gets an entry, and nothing else changes. -/
structure Allocated (c c' : LruCache K V) (slot : ℕ) (e : LruEntry K V) : Prop where
  entry : ∀ t, c'.entry t = if t = slot then some e else c.entry t
  head : c'.head = c.head
  tail : c'.tail = c.tail
  map : c'.map = c.map
  capacity : c'.capacity = c.capacity
  free : ∀ t ∈ c'.freeSlots, t ∈ c.freeSlots ∧ t ≠ slot
  freeNodup : c'.freeSlots.Nodup
  length : c.entries.length ≤ c'.entries.length

lemma Holds.allocSlot (h : Holds c cells) (e : LruEntry K V) :
    ∃ slot c', c.allocSlot e = (slot, c') ∧ Allocated c c' slot e ∧
      slot ∉ cells.map Prod.fst := by
  cases hfree : c.freeSlots with
  | nil =>
    refine ⟨c.entries.length, { c with entries := c.entries ++ [some e] }, ?_,
      ⟨fun t => ?_, rfl, rfl, rfl, rfl, by simp [hfree], by simp [hfree], by simp⟩, ?_⟩
    · unfold LruCache.allocSlot
      rw [hfree]
    · unfold entry
      rcases lt_trichotomy t c.entries.length with hlt | rfl | hgt
      · rw [if_neg hlt.ne, List.getElem?_append_left hlt]
      · simp
      · rw [if_neg hgt.ne', List.getElem?_eq_none, List.getElem?_eq_none hgt.le]
        rw [List.length_append, List.length_singleton]
        omega
    · intro hmem
      obtain ⟨x, hx, hslot⟩ := List.mem_map.mp hmem
      obtain ⟨e', he', -, -⟩ := h.exists_entry hx
      have hlt := lt_of_entry he'
      omega
  | cons slot rest =>
    have hmem : slot ∈ c.freeSlots := by simp [hfree]
    have hnodup := h.freeNodup
    rw [hfree] at hnodup
    obtain ⟨hnotin, hrest⟩ := List.nodup_cons.mp hnodup
    refine ⟨slot, { c.setEntry slot (some e) with freeSlots := rest },
      by rw [LruCache.allocSlot, hfree], ⟨fun t => entry_setEntry (h.free slot hmem).1 _ t, rfl, rfl, rfl, rfl, ?_, hrest,
        by simp [setEntry]⟩, (h.free slot hmem).2⟩
    intro t ht
    have hin : t ∈ rest := ht
    refine ⟨by simp [hfree, hin], ?_⟩
    rintro rfl
    exact hnotin hin

lemma Holds.insert (h : Holds c cells) (hnone : c.map.get key = none) (value : V) :
    ∃ c' slot, c.insert key value = .ok c' ∧ Holds c' ((slot, key, value) :: cells) ∧
      c'.capacity = c.capacity := by
  obtain ⟨slot, c₁, heq, halloc, hfresh⟩ :=
    h.allocSlot { key, value, prev := none, next := c.head }
  have hcell : ∀ t, c₁.cell t = if t = slot then some (key, value) else c.cell t := by
    intro t
    rw [cell, cell, halloc.entry]
    by_cases ht : t = slot
    · simp [ht]
    · simp [ht]
  have hchained : Chained c₁ (cells.map Prod.fst) := by
    refine ⟨halloc.head.trans h.chained.head, halloc.tail.trans h.chained.tail,
      h.chained.linked.congr fun t ht => ?_, h.chained.nodup⟩
    have hne : t ≠ slot := fun hts => hfresh (hts ▸ ht)
    rw [links, links, halloc.entry, if_neg hne]
  obtain ⟨c₂, hstep, hchained', hrewired⟩ := hchained.linkHead hfresh (by
    rw [links, halloc.entry, if_pos rfl, halloc.head]
    rfl)
  have hkeys := h.find_none hnone
  rw [List.map_map] at hkeys
  refine ⟨{ c₂ with map := c₂.map.set key slot }, slot, ?_, ⟨?_, ?_, ?_, ?_, ?_, ?_, ?_⟩,
    hrewired.capacity.trans halloc.capacity⟩
  · rw [LruCache.insert, heq]
    simp only [hstep]
    rfl
  · exact ⟨hchained'.head, hchained'.tail, hchained'.linked, hchained'.nodup⟩
  · intro x hx
    show c₂.cell x.1 = _
    rw [hrewired.cell, hcell]
    rcases List.mem_cons.mp hx with rfl | hx
    · exact if_pos rfl
    · have hne : x.1 ≠ slot := fun hxs => hfresh (hxs ▸ List.mem_map_of_mem hx)
      rw [if_neg hne]
      exact h.held x hx
  · intro t ht
    change (c₂.cell t).isSome at ht
    rw [hrewired.cell, hcell] at ht
    rw [List.map_cons]
    by_cases hts : t = slot
    · simp [hts]
    · rw [if_neg hts] at ht
      exact List.mem_cons_of_mem _ (h.live t ht)
  · exact List.nodup_cons.mpr ⟨hkeys, h.keys⟩
  · intro k t
    show (c₂.map.set key slot).get k = some t ↔ _
    rw [hrewired.map, halloc.map, InsertMap.get_set]
    by_cases hk : k = key
    · subst hk
      rw [if_pos rfl, Option.some.injEq]
      constructor
      · rintro rfl
        exact ⟨value, List.mem_cons_self⟩
      · rintro ⟨v, hv⟩
        rcases List.mem_cons.mp hv with hv | hv
        · exact (congrArg Prod.fst hv).symm
        · exact absurd (List.mem_map.mpr ⟨_, hv, rfl⟩) hkeys
    · rw [if_neg hk, h.map]
      simp only [List.mem_cons, Prod.mk.injEq, hk, false_and, and_false, false_or]
  · intro t ht
    change t ∈ c₂.freeSlots at ht
    rw [hrewired.free] at ht
    obtain ⟨hfree, hne⟩ := halloc.free t ht
    obtain ⟨hlt, hnotin⟩ := h.free t hfree
    refine ⟨?_, ?_⟩
    · show t < c₂.entries.length
      rw [hrewired.length]
      exact hlt.trans_le halloc.length
    · rw [List.map_cons, List.mem_cons, not_or]
      exact ⟨hne, hnotin⟩
  · show c₂.freeSlots.Nodup
    rw [hrewired.free]
    exact halloc.freeNodup

lemma Holds.evictTail {x : ℕ × K × V} (h : Holds c (front ++ [x])) :
    ∃ c', c.evictTail = .ok (some x.2, c') ∧ Holds c' front ∧ c'.capacity = c.capacity := by
  obtain ⟨e, he, hkey, hvalue⟩ := h.exists_entry (x := x) (by simp)
  obtain ⟨c', hstep, -, hcapacity, hholds⟩ := h.drop
  have htail : c.tail = some x.1 := by
    rw [h.chained.tail, List.map_append, List.map_singleton, List.getLast?_concat]
  rw [List.append_nil] at hholds
  refine ⟨c'.freeSlot x.1, ?_, hholds, hcapacity⟩
  unfold LruCache.evictTail
  split
  · rename_i hnone
    rw [htail] at hnone
    cases hnone
  · rename_i slot hslot
    obtain rfl : x.1 = slot := Option.some.inj (htail.symm.trans hslot)
    rw [entryAt_of_entry he]
    show (do
      let c ← ({ c with map := c.map.erase e.key } : LruCache K V).unlink x.1
      return (some (e.key, e.value), c.freeSlot x.1)) = _
    rw [hkey, hvalue, hstep]
    rfl

/-! ### Operations -/

/-- The cache holds these pairs, in recency order. -/
def Shows (c : LruCache K V) (pairs : Recency K V) : Prop :=
  ∃ cells, Holds c cells ∧ cells.map Prod.snd = pairs

lemma Holds.split_pairs (h : Holds c (front ++ (s, key, value) :: back)) :
    ((front.map Prod.snd ++ (key, value) :: back.map Prod.snd).map Prod.fst).Nodup := by
  have hkeys := h.keys_pairs
  rwa [List.map_append, List.map_cons] at hkeys

lemma Shows.peek {pairs : Recency K V} (h : Shows c pairs) (key : K) :
    c.peek key = pairs.find key := by
  obtain ⟨cells, hholds, rfl⟩ := h
  cases hget : c.map.get key with
  | none => rw [LruCache.peek, hget, Recency.find_eq_none (hholds.find_none hget), Option.bind_none]
  | some s =>
    obtain ⟨front, value, back, rfl⟩ := hholds.find_some hget
    obtain ⟨e, he, -, hvalue⟩ := hholds.exists_entry (x := (s, key, value)) (by simp)
    rw [LruCache.peek, hget, Option.bind_some, he, List.map_append, List.map_cons,
      Recency.find_split hholds.split_pairs, Option.map_some, hvalue]

lemma Shows.get {pairs : Recency K V} (h : Shows c pairs) (key : K) :
    ∃ c', c.get key = .ok ((pairs.get key).1, c') ∧ Shows c' (pairs.get key).2 ∧
      c'.capacity = c.capacity := by
  obtain ⟨cells, hholds, rfl⟩ := h
  cases hget : c.map.get key with
  | none =>
    rw [Recency.get, Recency.find_eq_none (hholds.find_none hget)]
    exact ⟨c, by rw [LruCache.get, hget], ⟨cells, hholds, rfl⟩, rfl⟩
  | some s =>
    obtain ⟨front, value, back, rfl⟩ := hholds.find_some hget
    obtain ⟨c', hstep, hholds', hrewired⟩ := hholds.moveToHead
    obtain ⟨e, he, -, hvalue⟩ := hholds'.exists_entry (x := (s, key, value)) (by simp)
    rw [List.map_append, List.map_cons, Recency.get, Recency.find_split hholds.split_pairs]
    refine ⟨c', ?_, ⟨_, hholds', ?_⟩, hrewired.capacity⟩
    · rw [LruCache.get, hget]
      simp only [hstep]
      show Except.ok ((c'.entry s).map LruEntry.value, c') = _
      rw [he, Option.map_some, hvalue]
    · rw [Recency.without_split hholds.split_pairs]
      simp

lemma Shows.remove {pairs : Recency K V} (h : Shows c pairs) (key : K) :
    ∃ c', c.remove key = .ok ((pairs.remove key).1, c') ∧ Shows c' (pairs.remove key).2 ∧
      c'.capacity = c.capacity := by
  obtain ⟨cells, hholds, rfl⟩ := h
  cases hget : c.map.get key with
  | none =>
    have hkey := hholds.find_none hget
    rw [Recency.remove, Recency.find_eq_none hkey, Recency.without_eq_self hkey]
    exact ⟨c, by rw [LruCache.remove, hget], ⟨cells, hholds, rfl⟩, rfl⟩
  | some s =>
    obtain ⟨front, value, back, rfl⟩ := hholds.find_some hget
    obtain ⟨c', hstep, hcell, hcapacity, hholds'⟩ := hholds.drop
    obtain ⟨e, he, heq⟩ := Option.map_eq_some_iff.mp hcell
    rw [List.map_append, List.map_cons, Recency.remove, Recency.find_split hholds.split_pairs,
      Recency.without_split hholds.split_pairs]
    refine ⟨c'.freeSlot s, ?_, ⟨_, hholds', by simp⟩, hcapacity⟩
    rw [LruCache.remove, hget]
    simp only [hstep]
    show (do
      let entry ← c'.entryAt s
      return (some entry.value, c'.freeSlot s)) = _
    rw [entryAt_of_entry he]
    have hvalue : e.value = value := congrArg Prod.snd heq
    rw [← hvalue]
    rfl

lemma Shows.put {pairs : Recency K V} (h : Shows c pairs) (hcapacity : 1 ≤ c.capacity) (key : K)
    (value : V) :
    ∃ c', c.put key value = .ok ((pairs.put c.capacity key value).1, c') ∧
      Shows c' (pairs.put c.capacity key value).2 ∧ c'.capacity = c.capacity := by
  obtain ⟨cells, hholds, rfl⟩ := h
  unfold Recency.put
  cases hget : c.map.get key with
  | some s =>
    obtain ⟨front, old, back, rfl⟩ := hholds.find_some hget
    obtain ⟨e, he, hkey, -⟩ := hholds.exists_entry (x := (s, key, old)) (by simp)
    obtain ⟨c', hstep, hholds', hrewired⟩ := (hholds.setValue he hkey value).moveToHead
    rw [if_pos (by simp)]
    refine ⟨c', ?_, ⟨_, hholds', ?_⟩, hrewired.capacity⟩
    · rw [LruCache.put, hget]
      simp only [entryAt_of_entry he]
      show (do
        let c ← (c.setEntry s (some { e with value })).moveToHead s
        return (none, c)) = _
      rw [hstep]
      rfl
    · simp only [List.map_append, List.map_cons]
      rw [Recency.without_split hholds.split_pairs]
  | none =>
    rw [if_neg (hholds.find_none hget), List.length_map]
    by_cases hfull : c.capacity ≤ cells.length
    · rw [if_pos hfull]
      rcases cells.eq_nil_or_concat with rfl | ⟨front, x, rfl⟩
      · rw [List.length_nil] at hfull
        omega
      · rw [List.concat_eq_append] at *
        obtain ⟨c₁, hevict, hholds', hcapacity'⟩ := hholds.evictTail
        have hget' : c₁.map.get key = none := by
          rw [Option.eq_none_iff_forall_ne_some]
          intro s hs
          obtain ⟨v, hv⟩ := (hholds'.map key s).mp hs
          have hsome := (hholds.map key s).mpr ⟨v, by simp [hv]⟩
          rw [hget] at hsome
          cases hsome
        obtain ⟨c₂, slot, hinsert, hholds'', hcapacity''⟩ := hholds'.insert hget' value
        refine ⟨c₂, ?_, ⟨_, hholds'', by simp⟩, hcapacity''.trans hcapacity'⟩
        rw [LruCache.put, hget, hholds.size]
        simp only [if_pos hfull, hevict]
        show (do
          let c ← c₁.insert key value
          return (some x.2, c)) = _
        rw [hinsert]
        simp only [List.map_append, List.map_singleton, List.getLast?_concat]
        rfl
    · rw [if_neg hfull]
      obtain ⟨c', slot, hinsert, hholds', hcapacity'⟩ := hholds.insert hget value
      refine ⟨c', ?_, ⟨_, hholds', by simp⟩, hcapacity'⟩
      rw [LruCache.put, hget, hholds.size]
      simp only [if_neg hfull]
      show (do
        let c ← c.insert key value
        return (none, c)) = _
      rw [hinsert]
      rfl

lemma Shows.step {pairs : Recency K V} (h : Shows c pairs) (hcapacity : 1 ≤ c.capacity)
    (operation : Operation K V) :
    ∃ c', c.step operation = .ok ((pairs.step c.capacity operation).1, c') ∧
      Shows c' (pairs.step c.capacity operation).2 ∧ c'.capacity = c.capacity := by
  cases operation with
  | put key value =>
    obtain ⟨c', hstep, hshows, hsame⟩ := h.put hcapacity key value
    exact ⟨c', by rw [LruCache.step, hstep]; rfl, hshows, hsame⟩
  | get key =>
    obtain ⟨c', hstep, hshows, hsame⟩ := h.get key
    exact ⟨c', by rw [LruCache.step, hstep]; rfl, hshows, hsame⟩
  | peek key => exact ⟨c, by rw [LruCache.step, h.peek]; rfl, h, rfl⟩
  | remove key =>
    obtain ⟨c', hstep, hshows, hsame⟩ := h.remove key
    exact ⟨c', by rw [LruCache.step, hstep]; rfl, hshows, hsame⟩

lemma Shows.run {pairs : Recency K V} (h : Shows c pairs) (hcapacity : 1 ≤ c.capacity)
    (operations : List (Operation K V)) :
    ∃ c', c.run operations = .ok ((pairs.run c.capacity operations).1, c') ∧
      Shows c' (pairs.run c.capacity operations).2 := by
  induction operations generalizing c pairs with
  | nil => exact ⟨c, rfl, h⟩
  | cons operation rest ih =>
    obtain ⟨c₁, hstep, hshows, hsame⟩ := h.step hcapacity operation
    obtain ⟨c₂, hrun, hshows'⟩ := ih hshows (hsame.symm ▸ hcapacity)
    rw [hsame] at hrun hshows'
    refine ⟨c₂, ?_, hshows'⟩
    simp only [LruCache.run, hstep, bind, Except.bind, hrun, pure, Except.pure, Recency.run]

/-! ### What the links and the array show -/

omit [DecidableEq K] in
lemma follows_next {prev : Option ℕ} (hlinked : c.links.Segment prev (cells.map Prod.fst) none)
    (hentry : ∀ x ∈ cells, ∃ e, c.entry x.1 = some e ∧ e.key = x.2.1) :
    Follows c LruEntry.next (cells.map Prod.fst).head? (cells.map fun x => x.2.1) := by
  induction cells generalizing prev with
  | nil => exact .done
  | cons x cells ih =>
    obtain ⟨e, he, hkey⟩ := hentry x (by simp)
    obtain ⟨hlink, hrest⟩ := hlinked
    have hnext : e.next = (cells.map Prod.fst).head? := by
      rw [links, he, Option.map_some, Option.or_none] at hlink
      exact congrArg Prod.snd (Option.some.inj hlink)
    have hfollows := ih hrest fun y hy => hentry y (by simp [hy])
    rw [← hnext] at hfollows
    have hstep := Follows.step he hfollows
    rw [hkey] at hstep
    exact hstep

omit [DecidableEq K] in
lemma follows_prev {next : Option ℕ} (hlinked : c.links.Segment none (cells.map Prod.fst) next)
    (hentry : ∀ x ∈ cells, ∃ e, c.entry x.1 = some e ∧ e.key = x.2.1) :
    Follows c LruEntry.prev (cells.map Prod.fst).getLast? (cells.map fun x => x.2.1).reverse := by
  induction cells using List.reverseRecOn generalizing next with
  | nil => exact .done
  | append_singleton cells x ih =>
    obtain ⟨e, he, hkey⟩ := hentry x (by simp)
    rw [List.map_append, List.map_singleton] at hlinked
    obtain ⟨hfront, hlink, -⟩ := SlotLinks.segment_append.mp hlinked
    have hprev : e.prev = (cells.map Prod.fst).getLast? := by
      rw [links, he, Option.map_some, Option.or_none] at hlink
      exact congrArg Prod.fst (Option.some.inj hlink)
    have hfollows := ih hfront fun y hy => hentry y (by simp [hy])
    rw [← hprev] at hfollows
    have hstep := Follows.step he hfollows
    rw [hkey] at hstep
    rw [List.map_append, List.map_append, List.map_singleton, List.map_singleton,
      List.getLast?_concat, List.reverse_concat]
    exact hstep

lemma Holds.values_perm (h : Holds c cells) :
    c.values.Perm (cells.map fun x => x.2.2) := by
  have hentries : c.entries = (List.range c.entries.length).map c.entry := by
    refine List.ext_getElem (by simp) fun i hi hi' => ?_
    simp [entry, hi]
  have hvalues : c.values = (List.range c.entries.length).filterMap fun s =>
      (c.cell s).map Prod.snd := by
    rw [values, hentries, List.filterMap_map, List.length_map, List.length_range]
    refine List.filterMap_congr fun s _ => ?_
    simp [cell, Function.comp_def]
  have hslots : ((List.range c.entries.length).filter fun s => (c.cell s).isSome).Perm
      (cells.map Prod.fst) := by
    refine (List.perm_ext_iff_of_nodup (List.nodup_range.filter _) h.chained.nodup).mpr fun s => ?_
    rw [List.mem_filter, List.mem_range]
    constructor
    · exact fun hs => h.live s hs.2
    · intro hs
      obtain ⟨x, hx, rfl⟩ := List.mem_map.mp hs
      obtain ⟨e, he, -, -⟩ := h.exists_entry hx
      exact ⟨lt_of_entry he, by rw [h.held x hx]; rfl⟩
  have hfilter : ((List.range c.entries.length).filter fun s => (c.cell s).isSome).filterMap
      (fun s => (c.cell s).map Prod.snd) = c.values := by
    rw [hvalues, List.filterMap_filter]
    refine List.filterMap_congr fun s _ => ?_
    cases c.cell s <;> rfl
  have hcells : (cells.map Prod.fst).filterMap (fun s => (c.cell s).map Prod.snd) =
      cells.map fun x => x.2.2 := by
    rw [List.filterMap_map, ← List.filterMap_eq_map]
    refine List.filterMap_congr fun x hx => ?_
    show (c.cell x.1).map Prod.snd = _
    rw [h.held x hx]
    rfl
  rw [← hfilter, ← hcells]
  exact hslots.filterMap _

/-- Every run answers as the recency list does and meets no empty slot; the links list the keys in
recency order from the head and in reverse from the tail. -/
theorem run_refines_recency (capacity : ℕ) (hcapacity : 1 ≤ capacity)
    (operations : List (Operation K V)) :
    ∃ c, (new capacity : LruCache K V).run operations =
        .ok ((Recency.run capacity [] operations).1, c) ∧
      c.size = (Recency.run capacity [] operations).2.length ∧
      c.values.Perm ((Recency.run capacity [] operations).2.map Prod.snd) ∧
      Follows c LruEntry.next c.head ((Recency.run capacity [] operations).2.map Prod.fst) ∧
      Follows c LruEntry.prev c.tail
        ((Recency.run capacity [] operations).2.map Prod.fst).reverse := by
  have hnew : Shows (new capacity : LruCache K V) [] := ⟨[], holds_new capacity, rfl⟩
  obtain ⟨c, hrun, cells, hholds, hpairs⟩ := hnew.run hcapacity operations
  have hentry : ∀ x ∈ cells, ∃ e, c.entry x.1 = some e ∧ e.key = x.2.1 := by
    intro x hx
    obtain ⟨e, he, hkey, -⟩ := hholds.exists_entry hx
    exact ⟨e, he, hkey⟩
  refine ⟨c, hrun, ?_, ?_, ?_, ?_⟩
  all_goals
    rw [show (Recency.run capacity [] operations).2 = cells.map Prod.snd from hpairs.symm]
  · rw [hholds.size, List.length_map]
  · rw [List.map_map]
    exact hholds.values_perm
  · rw [List.map_map, hholds.chained.head]
    exact follows_next hholds.chained.linked hentry
  · rw [List.map_map, hholds.chained.tail]
    exact follows_prev hholds.chained.linked hentry

/-- A full cache of two: the key used last stays, and the other one goes. -/
theorem run_refines_recency_sample : 1 ≤ 2 ∧
    ∃ c, (new 2 : LruCache ℕ ℕ).run [.put 1 10, .put 2 20, .get 1, .put 3 30] =
        .ok ((Recency.run 2 [] [.put 1 10, .put 2 20, .get 1, .put 3 30]).1, c) ∧
      c.size = 2 := by
  have h := run_refines_recency 2 (by decide)
    ([.put 1 10, .put 2 20, .get 1, .put 3 30] : List (Operation ℕ ℕ))
  obtain ⟨c, hrun, hsize, -⟩ := h
  exact ⟨by decide, c, hrun, hsize⟩

end LruCache

end Maple.Drain
