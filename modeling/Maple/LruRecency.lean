import Maple.LruCache
import Mathlib.Data.List.Nodup
import Mathlib.Data.List.Perm.Basic

/-! The LRU cache answers as a plain recency list does. -/

namespace Maple.Drain

/-! ### Recency lists -/

/-- Keys with their values, the one used last in front. -/
abbrev Recency (K V : Type) := List (K × V)

namespace Recency

variable {K V : Type} [DecidableEq K]

def find (pairs : Recency K V) (key : K) : Option V :=
  (pairs.find? fun pair => pair.1 = key).map Prod.snd

def without (pairs : Recency K V) (key : K) : Recency K V := pairs.filter fun pair => pair.1 ≠ key

def get (pairs : Recency K V) (key : K) : Option V × Recency K V :=
  match pairs.find key with
  | some value => (some value, (key, value) :: pairs.without key)
  | none => (none, pairs)

def put (capacity : ℕ) (pairs : Recency K V) (key : K) (value : V) :
    Option (K × V) × Recency K V :=
  if key ∈ pairs.map Prod.fst then (none, (key, value) :: pairs.without key)
  else if capacity ≤ pairs.length then (pairs.getLast?, (key, value) :: pairs.dropLast)
  else (none, (key, value) :: pairs)

def remove (pairs : Recency K V) (key : K) : Option V × Recency K V :=
  (pairs.find key, pairs.without key)

variable {pairs front back : Recency K V} {key : K} {value : V}

lemma find_eq_none (h : key ∉ pairs.map Prod.fst) : pairs.find key = none := by
  rw [find, Option.map_eq_none_iff, List.find?_eq_none]
  intro pair hpair heq
  exact h (List.mem_map.mpr ⟨pair, hpair, by simpa using heq⟩)

lemma without_eq_self (h : key ∉ pairs.map Prod.fst) : pairs.without key = pairs := by
  refine List.filter_eq_self.mpr fun pair hpair => ?_
  simp only [ne_eq, decide_not, Bool.not_eq_true', decide_eq_false_iff_not]
  rintro rfl
  exact h (List.mem_map_of_mem hpair)

omit [DecidableEq K] in
lemma split_keys (h : ((front ++ (key, value) :: back).map Prod.fst).Nodup) :
    key ∉ front.map Prod.fst ∧ key ∉ back.map Prod.fst := by
  rw [List.map_append, List.map_cons] at h
  have hnotin := (List.nodup_middle.mp h).notMem
  simpa [not_or] using hnotin

lemma find_split (h : ((front ++ (key, value) :: back).map Prod.fst).Nodup) :
    find (front ++ (key, value) :: back) key = some value := by
  have hfront := find_eq_none (split_keys h).1
  rw [find, Option.map_eq_none_iff] at hfront
  rw [find, List.find?_append, hfront]
  simp

lemma without_split (h : ((front ++ (key, value) :: back).map Prod.fst).Nodup) :
    without (front ++ (key, value) :: back) key = front ++ back := by
  obtain ⟨hfront, hback⟩ := split_keys h
  have hleft := without_eq_self hfront
  have hright := without_eq_self hback
  unfold without at hleft hright ⊢
  rw [List.filter_append, List.filter_cons_of_neg (by simp), hleft, hright]

end Recency

namespace LruCache

variable {K V : Type} [DecidableEq K] {c c' : LruCache K V} {s t : ℕ} {l front back : List ℕ}

/-! ### Entries -/

/-- The key and value a slot holds. -/
def cell (c : LruCache K V) (s : ℕ) : Option (K × V) := (c.entry s).map fun e => (e.key, e.value)

def links (c : LruCache K V) : SlotLinks := fun s => (c.entry s).map fun e => (e.prev, e.next)

omit [DecidableEq K] in
lemma lt_of_entry {e : LruEntry K V} (h : c.entry s = some e) : s < c.entries.length := by
  by_contra hge
  rw [entry, List.getElem?_eq_none (not_lt.mp hge)] at h
  cases h

omit [DecidableEq K] in
lemma entryAt_of_entry {e : LruEntry K V} (h : c.entry s = some e) : c.entryAt s = .ok e := by
  rw [entryAt, h]

omit [DecidableEq K] in
lemma entry_setEntry (h : s < c.entries.length) (x : Option (LruEntry K V)) (t : ℕ) :
    (c.setEntry s x).entry t = if t = s then x else c.entry t := by
  unfold entry setEntry
  by_cases ht : t = s
  · simp [ht, h]
  · simp [ht, Ne.symm ht]

omit [DecidableEq K] in
lemma exists_entry_of_links (h : (c.links s).isSome) : ∃ e, c.entry s = some e := by
  rw [links, Option.isSome_map] at h
  exact Option.isSome_iff_exists.mp h

/-- Only the links differ. -/
structure Rewired (c c' : LruCache K V) : Prop where
  capacity : c'.capacity = c.capacity
  map : c'.map = c.map
  free : c'.freeSlots = c.freeSlots
  length : c'.entries.length = c.entries.length
  cell : c'.cell = c.cell

omit [DecidableEq K] in
lemma Rewired.refl (c : LruCache K V) : Rewired c c := ⟨rfl, rfl, rfl, rfl, rfl⟩

omit [DecidableEq K] in
lemma Rewired.trans {c'' : LruCache K V} (h : Rewired c c') (h' : Rewired c' c'') :
    Rewired c c'' :=
  ⟨h'.capacity.trans h.capacity, h'.map.trans h.map, h'.free.trans h.free,
    h'.length.trans h.length, h'.cell.trans h.cell⟩

omit [DecidableEq K] in
lemma Rewired.setEntry {e e' : LruEntry K V} (h : c.entry s = some e) (hkey : e'.key = e.key)
    (hvalue : e'.value = e.value) : Rewired c (c.setEntry s (some e')) := by
  refine ⟨rfl, rfl, rfl, by simp [LruCache.setEntry], ?_⟩
  funext t
  rw [LruCache.cell, LruCache.cell, entry_setEntry (lt_of_entry h)]
  by_cases ht : t = s
  · rw [if_pos ht, ht, h]
    simp [hkey, hvalue]
  · rw [if_neg ht]

/-! ### The linked list -/

/-- The list linked from the head to the tail has these slots. -/
structure Chained (c : LruCache K V) (l : List ℕ) : Prop where
  head : c.head = l.head?
  tail : c.tail = l.getLast?
  linked : c.links.Segment none l none
  nodup : l.Nodup

omit [DecidableEq K] in
lemma pointNext_spec {next n : Option ℕ} (hhead : c.head = l.head?.or next)
    (hlinked : c.links.Segment none l next) (hnodup : l.Nodup) :
    ∃ c', c.pointNext l.getLast? n = .ok c' ∧ Rewired c c' ∧ c'.tail = c.tail ∧
      c'.head = l.head?.or n ∧ c'.links.Segment none l n ∧
      ∀ t ∉ l, c'.links t = c.links t := by
  rcases l.eq_nil_or_concat with rfl | ⟨init, b, rfl⟩
  · exact ⟨{ c with head := n }, rfl, ⟨rfl, rfl, rfl, rfl, rfl⟩, rfl, by simp, trivial,
      fun t _ => rfl⟩
  · rw [List.concat_eq_append] at *
    obtain ⟨e, he⟩ := exists_entry_of_links (hlinked.mem (s := b) (by simp))
    have hb : b ∉ init := by
      intro hmem
      exact (List.nodup_append.mp hnodup).2.2 b hmem b (by simp) rfl
    have hlinks : ∀ t, (c.setEntry b (some { e with next := n })).links t =
        if t = b then some (e.prev, n) else c.links t := by
      intro t
      rw [links, links, entry_setEntry (lt_of_entry he)]
      by_cases ht : t = b
      · simp [ht]
      · simp [ht]
    have hsame : ∀ t, t ≠ b → (c.setEntry b (some { e with next := n })).links t =
        c.links t := fun t ht => by rw [hlinks, if_neg ht]
    refine ⟨c.setEntry b (some { e with next := n }), ?_, Rewired.setEntry he rfl rfl, rfl, ?_,
      ?_, ?_⟩
    · rw [List.getLast?_concat, pointNext, entryAt_of_entry he]
      rfl
    · obtain ⟨a, ha⟩ : ∃ a, (init ++ [b]).head? = some a := by
        cases init with
        | nil => exact ⟨b, rfl⟩
        | cons a init => exact ⟨a, rfl⟩
      rw [ha] at hhead ⊢
      exact hhead
    · refine hlinked.relinkLast ?_ fun t ht => hsame t fun htb => hb (htb ▸ ht)
      rw [hlinks, if_pos rfl, links, he]
      rfl
    · intro t ht
      exact hsame t fun htb => ht (by simp [htb])

omit [DecidableEq K] in
lemma pointPrev_spec {prev p : Option ℕ} (htail : c.tail = l.getLast?.or prev)
    (hlinked : c.links.Segment prev l none) (hnodup : l.Nodup) :
    ∃ c', c.pointPrev l.head? p = .ok c' ∧ Rewired c c' ∧ c'.head = c.head ∧
      c'.tail = l.getLast?.or p ∧ c'.links.Segment p l none ∧
      ∀ t ∉ l, c'.links t = c.links t := by
  cases l with
  | nil =>
    exact ⟨{ c with tail := p }, rfl, ⟨rfl, rfl, rfl, rfl, rfl⟩, rfl, by simp, trivial,
      fun t _ => rfl⟩
  | cons b rest =>
    obtain ⟨e, he⟩ := exists_entry_of_links (hlinked.mem (s := b) (by simp))
    have hb : b ∉ rest := (List.nodup_cons.mp hnodup).1
    have hlinks : ∀ t, (c.setEntry b (some { e with prev := p })).links t =
        if t = b then some (p, e.next) else c.links t := by
      intro t
      rw [links, links, entry_setEntry (lt_of_entry he)]
      by_cases ht : t = b
      · simp [ht]
      · simp [ht]
    have hsame : ∀ t, t ≠ b → (c.setEntry b (some { e with prev := p })).links t =
        c.links t := fun t ht => by rw [hlinks, if_neg ht]
    refine ⟨c.setEntry b (some { e with prev := p }), ?_, Rewired.setEntry he rfl rfl, rfl, ?_,
      ?_, ?_⟩
    · rw [List.head?_cons, pointPrev, entryAt_of_entry he]
      rfl
    · rw [List.getLast?_cons] at htail ⊢
      exact htail
    · refine hlinked.relinkFirst ?_ fun t ht => hsame t fun htb => hb (htb ▸ ht)
      rw [hlinks, if_pos rfl, links, he]
      rfl
    · intro t ht
      exact hsame t fun htb => ht (by simp [htb])

omit [DecidableEq K] in
/-- The slots around one of the list are its neighbours. -/
lemma Chained.neighbours (h : Chained c (front ++ s :: back)) :
    ∃ e, c.entry s = some e ∧ e.prev = front.getLast? ∧ e.next = back.head? := by
  have hlinks := (SlotLinks.segment_append.mp h.linked).2.1
  obtain ⟨e, he⟩ : ∃ e, c.entry s = some e := exists_entry_of_links (by rw [hlinks]; rfl)
  rw [links, he] at hlinks
  simp only [Option.map_some, Option.or_none, Option.some.injEq, Prod.mk.injEq] at hlinks
  exact ⟨e, he, hlinks.1, hlinks.2⟩

omit [DecidableEq K] in
lemma Chained.unlink (h : Chained c (front ++ s :: back)) :
    ∃ c', c.unlink s = .ok c' ∧ Chained c' (front ++ back) ∧ Rewired c c' := by
  obtain ⟨e, he, hprev, hnext⟩ := h.neighbours
  obtain ⟨hfront, -, hback⟩ := SlotLinks.segment_append.mp h.linked
  have hnodup := (List.nodup_middle.mp h.nodup).tail
  rw [List.tail_cons] at hnodup
  obtain ⟨hnodupFront, hnodupBack, hdisjoint⟩ := List.nodup_append.mp hnodup
  obtain ⟨c₁, hstep, hrewired, htail, hhead, hlinked, hsame⟩ :=
    pointNext_spec (n := back.head?) (by rw [h.head, List.head?_append]; rfl) hfront hnodupFront
  have htail' : c₁.tail = back.getLast?.or (some s) := by
    rw [htail, h.tail, List.getLast?_append, List.getLast?_cons]
    cases back.getLast? <;> rfl
  have hback' : c₁.links.Segment (some s) back none :=
    hback.congr fun t ht => hsame t fun hmem => hdisjoint t hmem t ht rfl
  obtain ⟨c₂, hstep', hrewired', hhead', htail'', hlinked', hsame'⟩ :=
    pointPrev_spec (p := front.getLast?) htail' hback' hnodupBack
  refine ⟨c₂, ?_, ⟨?_, ?_, SlotLinks.segment_append.mpr ⟨?_, ?_⟩, hnodup⟩, hrewired.trans hrewired'⟩
  · rw [LruCache.unlink, entryAt_of_entry he]
    show (do
      let c ← c.pointNext e.prev e.next
      c.pointPrev e.next e.prev) = _
    rw [hprev, hnext, hstep]
    exact hstep'
  · rw [hhead', hhead, List.head?_append]
  · rw [htail'', List.getLast?_append]
  · rw [Option.or_none]
    exact hlinked.congr fun t ht => hsame' t fun hmem => hdisjoint t ht t hmem rfl
  · rw [Option.or_none]
    exact hlinked'

omit [DecidableEq K] in
lemma Chained.linkHead (h : Chained c l) (hs : s ∉ l) (hlink : c.links s = some (none, c.head)) :
    ∃ c', c.linkHead s = .ok c' ∧ Chained c' (s :: l) ∧ Rewired c c' := by
  have hnodup := List.nodup_cons.mpr ⟨hs, h.nodup⟩
  cases l with
  | nil =>
    have hhead : c.head = none := h.head
    have htail : c.tail = none := h.tail
    refine ⟨{ c with head := some s, tail := some s }, ?_, ⟨rfl, rfl, ⟨?_, trivial⟩, hnodup⟩,
      ⟨rfl, rfl, rfl, rfl, rfl⟩⟩
    · rw [LruCache.linkHead, hhead]
      show Except.ok { c with head := some s, tail := c.tail.or (some s) } = _
      rw [htail]
      rfl
    · rw [hhead] at hlink
      exact hlink
  | cons t l =>
    have hhead : c.head = some t := h.head
    obtain ⟨c₁, hstep, hrewired, -, htail, hlinked, hsame⟩ := pointPrev_spec (p := some s)
      (by rw [h.tail, Option.or_none]) h.linked h.nodup
    have hlast : c₁.tail.or (some s) = (s :: t :: l).getLast? := by
      simp [htail, List.getLast?_cons]
    refine ⟨{ c₁ with head := some s, tail := c₁.tail.or (some s) }, ?_,
      ⟨rfl, hlast, ⟨?_, hlinked⟩, hnodup⟩, ⟨hrewired.capacity, hrewired.map, hrewired.free,
        hrewired.length, hrewired.cell⟩⟩
    · rw [LruCache.linkHead, hhead]
      rw [List.head?_cons] at hstep
      simp only [hstep]
      rfl
    · exact (hsame s hs).trans (by rw [hlink, hhead]; rfl)

omit [DecidableEq K] in
lemma Chained.setEntry (h : Chained c l) (hs : s ∉ l) (hlt : s < c.entries.length)
    (x : Option (LruEntry K V)) : Chained (c.setEntry s x) l := by
  refine ⟨h.head, h.tail, h.linked.congr fun t ht => ?_, h.nodup⟩
  have hne : t ≠ s := fun hts => hs (hts ▸ ht)
  rw [links, links, entry_setEntry hlt, if_neg hne]

omit [DecidableEq K] in
lemma Chained.moveToHead (h : Chained c (front ++ s :: back)) :
    ∃ c', c.moveToHead s = .ok c' ∧ Chained c' (s :: (front ++ back)) ∧ Rewired c c' := by
  have hnotin := (List.nodup_middle.mp h.nodup).notMem
  by_cases hhead : c.head = some s
  · have hfront : front = [] := by
      cases front with
      | nil => rfl
      | cons a front =>
        have ha : a = s := Option.some.inj (h.head.symm.trans hhead)
        exact absurd (by simp [ha]) hnotin
    subst hfront
    exact ⟨c, by rw [LruCache.moveToHead, if_pos hhead], h, Rewired.refl c⟩
  · obtain ⟨c₁, hunlink, hchained, hrewired⟩ := h.unlink
    obtain ⟨e, he, -, -⟩ := h.neighbours
    obtain ⟨e₁, he₁⟩ : ∃ e₁, c₁.entry s = some e₁ := by
      have hcell := congrFun hrewired.cell s
      rw [cell, cell, he] at hcell
      obtain ⟨e₁, he₁, -⟩ := Option.map_eq_some_iff.mp hcell
      exact ⟨e₁, he₁⟩
    have hlt := lt_of_entry he₁
    have hlink : (c₁.setEntry s (some { e₁ with prev := none, next := c₁.head })).links s =
        some (none, c₁.head) := by
      rw [links, entry_setEntry hlt, if_pos rfl]
      rfl
    obtain ⟨c₂, hstep, hchained', hrewired'⟩ := (hchained.setEntry hnotin hlt
      (some { e₁ with prev := none, next := c₁.head })).linkHead hnotin hlink
    have hset : Rewired c₁ (c₁.setEntry s (some { e₁ with prev := none, next := c₁.head })) :=
      Rewired.setEntry he₁ rfl rfl
    refine ⟨c₂, ?_, hchained', (hrewired.trans hset).trans hrewired'⟩
    rw [LruCache.moveToHead, if_neg hhead, hunlink]
    show (do
      let entry ← c₁.entryAt s
      (c₁.setEntry s (some { entry with prev := none, next := c₁.head })).linkHead s) = _
    rw [entryAt_of_entry he₁]
    exact hstep

end LruCache

end Maple.Drain
