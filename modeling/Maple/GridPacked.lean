import Maple.GridLayout

/-! Boards stay drawable: apart, inside the grid and packed, whatever was stored and however it is
edited. -/

namespace Maple.Grid

def sameColumns (a b : GridItem) : Prop := b.x < a.x + a.w ∧ a.x < b.x + b.w

/-- `item` rests on the bottom edge of an item of `layout`. -/
def RestsOn (layout : Layout) (item : GridItem) : Prop :=
  ∃ other ∈ layout, other.i ≠ item.i ∧ sameColumns other item ∧ other.y + other.h = item.y

structure Packed (layout : Layout) : Prop where
  apart : layout.Pairwise fun a b => collides a b = false
  rests : ∀ item ∈ layout, item.y = 0 ∨ RestsOn layout item

structure Drawable (cols : ℤ) (layout : Layout) : Prop extends Packed layout where
  inside : ∀ item ∈ layout, 0 ≤ item.x ∧ item.x + item.w ≤ cols

/-- Two items in the same cells under the same id. -/
structure SameSpot (a b : GridItem) : Prop where
  i : a.i = b.i
  x : a.x = b.x
  y : a.y = b.y
  w : a.w = b.w
  h : a.h = b.h

lemma collides_comm (a b : GridItem) : collides a b = collides b a := by
  simp only [collides, Bool.decide_and, ne_comm]
  grind

lemma SameSpot.collides {a a' b b' : GridItem} (ha : SameSpot a a') (hb : SameSpot b b') :
    collides a b = collides a' b' := by
  simp [Grid.collides, ha.i, ha.x, ha.y, ha.w, ha.h, hb.i, hb.x, hb.y, hb.w, hb.h]

lemma RestsOn.mono {layout layout' : Layout} {item : GridItem} (hsub : layout ⊆ layout')
    (h : RestsOn layout item) : RestsOn layout' item := by
  obtain ⟨other, hmem, hother⟩ := h
  exact ⟨other, hsub hmem, hother⟩

lemma Packed.nil : Packed [] := ⟨List.Pairwise.nil, by simp⟩

lemma Packed.append {layout : Layout} {item : GridItem} (h : Packed layout)
    (hfree : ∀ other ∈ layout, collides other item = false)
    (hrests : item.y = 0 ∨ RestsOn layout item) : Packed (layout ++ [item]) where
  apart := by
    rw [List.pairwise_append]
    exact ⟨h.apart, List.pairwise_singleton _ _, by simpa using hfree⟩
  rests := by
    intro other hother
    have hsub : layout ⊆ layout ++ [item] := List.subset_append_left _ _
    rcases List.mem_append.mp hother with hother | hother
    · exact (h.rests other hother).imp id (RestsOn.mono hsub)
    · rw [List.mem_singleton.mp hother]
      exact hrests.imp id (RestsOn.mono hsub)

lemma Packed.perm {layout layout' : Layout} (hperm : layout.Perm layout') (h : Packed layout) :
    Packed layout' where
  apart := h.apart.perm hperm fun {a b} hab => by rw [collides_comm, hab]
  rests := by
    intro item hitem
    exact (h.rests item (hperm.mem_iff.mpr hitem)).imp id (RestsOn.mono hperm.subset)

lemma Packed.sameSpots {α : Type} {items : List α} {f g : α → GridItem} (h : Packed (items.map f))
    (hsame : ∀ a ∈ items, SameSpot (f a) (g a)) : Packed (items.map g) where
  apart := by
    have hapart := List.pairwise_map.mp h.apart
    rw [List.pairwise_map]
    refine hapart.imp_of_mem ?_
    intro a b ha hb hab
    rw [← (hsame a ha).collides (hsame b hb), hab]
  rests := by
    intro item hitem
    obtain ⟨a, ha, rfl⟩ := List.mem_map.mp hitem
    have hspot := hsame a ha
    rcases h.rests (f a) (List.mem_map_of_mem ha) with hzero | ⟨other, hmem, hid, hcolumns, hedge⟩
    · exact Or.inl (hspot.y ▸ hzero)
    · obtain ⟨b, hb, rfl⟩ := List.mem_map.mp hmem
      have hother := hsame b hb
      right
      refine ⟨g b, List.mem_map_of_mem hb, ?_, ?_, ?_⟩
      · rwa [← hother.i, ← hspot.i]
      · simpa [sameColumns, ← hother.x, ← hother.w, ← hspot.x, ← hspot.w] using hcolumns
      · rw [← hother.y, ← hother.h, ← hspot.y, hedge]

/-! ### Compaction -/

lemma firstCollision_eq_none {placed : List WorkItem} {item : GridItem}
    (h : firstCollision placed item = none) :
    ∀ other ∈ placed.map WorkItem.toGridItem, collides other item = false := by
  simpa [firstCollision] using h

lemma restsOn_of_firstCollision {placed : List WorkItem} {item : GridItem} {collision : WorkItem}
    (h : firstCollision placed item = some collision) :
    RestsOn (placed.map WorkItem.toGridItem) { item with y := collision.y + collision.h } := by
  have hcollides := List.find?_some h
  have hmem := List.mem_of_find?_eq_some h
  simp only [collides, decide_eq_true_eq] at hcollides
  exact ⟨collision.toGridItem, List.mem_map_of_mem hmem, hcollides.1,
    ⟨hcollides.2.1, hcollides.2.2.1⟩, rfl⟩

lemma floatUp_fixed (placed : List WorkItem) (item : WorkItem) :
    fixed (floatUp placed item) = fixed item := by
  fun_induction floatUp placed item with
  | case1 item h ih => exact ih
  | case2 item h => rfl

lemma floatUp_stops (placed : List WorkItem) (item : WorkItem) (hy : 0 ≤ item.y) :
    (floatUp placed item).y = 0 ∨
      firstCollision placed (floatUp placed item).toGridItem ≠ none := by
  fun_induction floatUp placed item with
  | case1 item h ih =>
    have hy' : 0 ≤ item.y - 1 := by omega
    exact ih hy'
  | case2 item h =>
    by_cases hzero : item.y = 0
    · exact Or.inl hzero
    · right
      intro hnone
      apply h
      simp [hnone]
      omega

lemma floatUp_nonneg (placed : List WorkItem) (item : WorkItem) (hy : 0 ≤ item.y) :
    0 ≤ (floatUp placed item).y := by
  fun_induction floatUp placed item with
  | case1 item h ih =>
    have hy' : 0 ≤ item.y - 1 := by omega
    exact ih hy'
  | case2 item h => exact hy

lemma settle_none {placed : List WorkItem} {item : WorkItem} (below : List (WorkItem × ℕ))
    (h : firstCollision placed item.toGridItem = none) :
    (settle placed item below).1 = item := by
  rw [settle]
  split
  · rfl
  · simp_all

lemma settle_some {placed : List WorkItem} {item collision : WorkItem}
    (below : List (WorkItem × ℕ)) (h : firstCollision placed item.toGridItem = some collision) :
    ∃ pushed, (settle placed item below).1 =
      (settle placed { item with y := collision.y + collision.h } pushed).1 := by
  rw [settle]
  split
  · simp_all
  · have heq : collision = _ := Option.some.inj (h.symm.trans ‹_›)
    subst heq
    exact ⟨_, rfl⟩

/-- Where an item settles: free of what is placed, no higher, and on the edge of something placed
unless it was free already. -/
structure Settled (placed : List WorkItem) (item out : WorkItem) : Prop where
  fixed : fixed out = fixed item
  free : firstCollision placed out.toGridItem = none
  below : item.y ≤ out.y
  rests : out = item ∨ RestsOn (placed.map WorkItem.toGridItem) out.toGridItem

lemma settle_settled (placed : List WorkItem) (item : WorkItem) (below : List (WorkItem × ℕ)) :
    Settled placed item (settle placed item below).1 := by
  induction hcount : placed.countP (fun other => item.y < other.y + other.h)
    using Nat.strong_induction_on generalizing item below with
  | _ count ih =>
    cases hfirst : firstCollision placed item.toGridItem with
    | none =>
      rw [settle_none below hfirst]
      exact ⟨rfl, hfirst, le_rfl, Or.inl rfl⟩
    | some collision =>
      obtain ⟨pushed, hpushed⟩ := settle_some below hfirst
      have hlt := countP_below_lt hfirst
      rw [hcount] at hlt
      have hnext := ih _ hlt { item with y := collision.y + collision.h } pushed rfl
      have hcollides := List.find?_some hfirst
      have hlow : item.y < collision.y + collision.h := by
        simp [collides] at hcollides
        omega
      rw [hpushed]
      refine ⟨hnext.fixed, hnext.free, hlow.le.trans hnext.below, Or.inr ?_⟩
      rcases hnext.rests with hsame | hrests
      · rw [hsame]
        exact restsOn_of_firstCollision hfirst
      · exact hrests

/-- The item of `original` that `placeAll` floats up. -/
def start (maxY : ℤ) (original : WorkItem) : WorkItem :=
  { original with x := max original.x 0, y := min maxY (max original.y 0) }

/-- The copy of a settled item that `placeAll` places. -/
def ground (item : WorkItem) : WorkItem := { item with y := max item.y 0, moved := false }

def leftBound (item : WorkItem) : WorkItem := { item with x := max item.x 0 }

lemma placeAll_cons (placed : List WorkItem) (maxY : ℤ) (original : WorkItem) (k : ℕ)
    (below : List (WorkItem × ℕ)) (hmax : 0 ≤ maxY) :
    ∃ item below' maxY', placeAll placed maxY ((original, k) :: below) =
        (item, k) :: placeAll (placed ++ [item]) maxY' below' ∧
      Pushed below' below ∧ 0 ≤ maxY' ∧ fixed item = fixed (leftBound original) ∧
      firstCollision placed item.toGridItem = none ∧
      (item.y = 0 ∨ RestsOn (placed.map WorkItem.toGridItem) item.toGridItem) := by
  have hstart : 0 ≤ (start maxY original).y := by
    simp [start]
    omega
  have hfloat := floatUp_nonneg placed _ hstart
  have hsettled := settle_settled placed (floatUp placed (start maxY original)) below
  have hy := hfloat.trans hsettled.below
  generalize hout : settle placed (floatUp placed (start maxY original)) below = out at hsettled hy
  refine ⟨ground out.1, out.2.val, max maxY ((ground out.1).y + (ground out.1).h), ?_,
    out.2.property, ?_, ?_, ?_, ?_⟩
  · rw [placeAll, ← hout]
    rfl
  · omega
  · exact hsettled.fixed.trans (floatUp_fixed placed _)
  · simpa [ground, max_eq_left hy] using hsettled.free
  · simp only [ground, max_eq_left hy]
    rcases hsettled.rests with hsame | hrests
    · rcases floatUp_stops placed _ hstart with hzero | hcollides
      · exact Or.inl (by rw [hsame, hzero])
      · exact absurd (hsame ▸ hsettled.free) hcollides
    · exact Or.inr hrests

lemma placeAll_packed (placed : List WorkItem) (maxY : ℤ) (below : List (WorkItem × ℕ))
    (hmax : 0 ≤ maxY) (hpacked : Packed (placed.map WorkItem.toGridItem)) :
    Packed ((placed ++ (placeAll placed maxY below).map Prod.fst).map WorkItem.toGridItem) := by
  induction hlength : below.length generalizing placed maxY below with
  | zero =>
    rw [List.length_eq_zero_iff.mp hlength, placeAll]
    simpa using hpacked
  | succ n ih =>
    obtain ⟨⟨original, k⟩, below, rfl⟩ := List.exists_cons_of_length_eq_add_one hlength
    obtain ⟨item, below', maxY', hplace, hpushed, hmax', -, hfree, hrests⟩ :=
      placeAll_cons placed maxY original k below hmax
    have hpacked' : Packed ((placed ++ [item]).map WorkItem.toGridItem) := by
      rw [List.map_append]
      exact hpacked.append (firstCollision_eq_none hfree) hrests
    have hlength' : below'.length = n := by
      rw [hpushed.length]
      simpa using hlength
    rw [hplace]
    simpa using ih (placed ++ [item]) maxY' below' hmax' hpacked' hlength'

lemma Pushed.leftBound {out layout : List (WorkItem × ℕ)} (h : Pushed out layout) :
    out.map (Prod.map (fixed ∘ leftBound) id) = layout.map (Prod.map (fixed ∘ leftBound) id) := by
  have hcomp : (Prod.map (fixed ∘ Grid.leftBound) id : WorkItem × ℕ → WorkItem × ℕ) =
      Prod.map Grid.leftBound id ∘ Prod.map fixed id := rfl
  rw [hcomp, ← List.map_map, ← List.map_map, h]

lemma placeAll_fixed (placed : List WorkItem) (maxY : ℤ) (below : List (WorkItem × ℕ))
    (hmax : 0 ≤ maxY) : (placeAll placed maxY below).map (Prod.map fixed id) =
      below.map (Prod.map (fixed ∘ leftBound) id) := by
  induction hlength : below.length generalizing placed maxY below with
  | zero =>
    rw [List.length_eq_zero_iff.mp hlength, placeAll]
    rfl
  | succ n ih =>
    obtain ⟨⟨original, k⟩, below, rfl⟩ := List.exists_cons_of_length_eq_add_one hlength
    obtain ⟨item, below', maxY', hplace, hpushed, hmax', hfixed, -⟩ :=
      placeAll_cons placed maxY original k below hmax
    have hlength' : below'.length = n := by
      rw [hpushed.length]
      simpa using hlength
    rw [hplace, List.map_cons, ih (placed ++ [item]) maxY' below' hmax' hlength',
      hpushed.leftBound]
    simp [Prod.map, hfixed]

theorem compactVerticalWork_packed (layout : List WorkItem) :
    Packed ((compactVerticalWork layout).map WorkItem.toGridItem) := by
  have hpacked := placeAll_packed [] 0 (sortByRowCol layout.zipIdx) le_rfl Packed.nil
  rw [List.nil_append] at hpacked
  refine hpacked.perm ?_
  exact ((List.mergeSort_perm _ _).symm.map Prod.fst).map WorkItem.toGridItem

lemma eq_of_perm_of_keys {α : Type} {out layout : List (α × ℕ)}
    (hout : out.Pairwise fun a b => a.2 ≤ b.2) (hlayout : layout.Pairwise fun a b => a.2 < b.2)
    (hperm : out.Perm layout) : out = layout := by
  refine List.Perm.eq_of_pairwise ?_ hout (hlayout.imp le_of_lt) hperm
  intro a b ha hb hab hba
  obtain ⟨i, hi, rfl⟩ := List.getElem_of_mem (hperm.mem_iff.mp ha)
  obtain ⟨j, hj, rfl⟩ := List.getElem_of_mem hb
  have hkeys := List.pairwise_iff_getElem.mp hlayout
  rcases lt_trichotomy i j with hlt | heq | hlt
  · have hij := hkeys i j hi hj hlt
    omega
  · simp [heq]
  · have hji := hkeys j i hj hi hlt
    omega

lemma zipIdx_map_keys {α β : Type} (f : α → β) (layout : List α) :
    (layout.zipIdx.map (Prod.map f id)).Pairwise fun a b => a.2 < b.2 := by
  have hkeys : (layout.zipIdx.map Prod.snd).Pairwise (· < ·) := by
    rw [List.zipIdx_map_snd]
    exact List.pairwise_lt_range'
  rw [List.pairwise_map] at hkeys ⊢
  exact hkeys

/-- Compaction changes rows only, and columns left of the grid. -/
theorem compactVerticalWork_fixed (layout : List WorkItem) :
    (compactVerticalWork layout).map fixed = layout.map (fixed ∘ leftBound) := by
  have hfixed := placeAll_fixed [] 0 (sortByRowCol layout.zipIdx) le_rfl
  have hsorted : (sortByRowCol layout.zipIdx).Perm layout.zipIdx := List.mergeSort_perm _ _
  unfold compactVerticalWork
  generalize placeAll [] 0 (sortByRowCol layout.zipIdx) = out at hfixed
  have hperm : ((out.mergeSort fun a b => a.2 ≤ b.2).map (Prod.map fixed id)).Perm
      (layout.zipIdx.map (Prod.map (fixed ∘ leftBound) id)) := by
    have hout := (List.mergeSort_perm out fun a b => a.2 ≤ b.2).map (Prod.map fixed id)
    rw [hfixed] at hout
    exact hout.trans (hsorted.map _)
  have hkeys : ((out.mergeSort fun a b => a.2 ≤ b.2).map (Prod.map fixed id)).Pairwise
      fun a b => a.2 ≤ b.2 := by
    have hmerge : (out.mergeSort fun a b => a.2 ≤ b.2).Pairwise
        fun a b => decide (a.2 ≤ b.2) = true := by
      apply List.pairwise_mergeSort
      · intro a b c hab hbc
        simp at hab hbc ⊢
        omega
      · intro a b
        simp
        omega
    rw [List.pairwise_map]
    exact hmerge.imp of_decide_eq_true
  have heq := congrArg (List.map Prod.fst) (eq_of_perm_of_keys hkeys (zipIdx_map_keys _ _) hperm)
  have hindex := congrArg (List.map (fixed ∘ leftBound)) (List.zipIdx_map_fst 0 layout)
  rw [List.map_map] at hindex
  rw [← hindex, List.map_map]
  simpa [Prod.map_fst'] using heq

/-! ### The layout handed back -/

lemma fromWork_sameSpot (item : WorkItem) (input : Layout) :
    SameSpot item.toGridItem
      (fromWork item (input.reverse.find? fun other => other.i = item.i)) := by
  cases hfind : input.reverse.find? fun other => other.i = item.i with
  | none => exact ⟨rfl, rfl, rfl, rfl, rfl⟩
  | some original =>
    have hid := List.find?_some hfind
    simp only [decide_eq_true_eq] at hid
    by_cases hbox : sameBox original item.toGridItem
    · simp only [fromWork, hbox, if_true]
      simp only [sameBox, decide_eq_true_eq] at hbox
      obtain ⟨hx, hy, hw, hh⟩ := hbox
      exact ⟨hid.symm, hx.symm, hy.symm, hw.symm, hh.symm⟩
    · simp only [fromWork, hbox]
      exact ⟨rfl, rfl, rfl, rfl, rfl⟩

lemma finish_eq (work : List WorkItem) (input : Layout) : finish work input =
    work.map fun item => fromWork item (input.reverse.find? fun other => other.i = item.i) := by
  unfold finish
  dsimp only
  split
  · exact Eq.symm ‹_›
  · rfl

/-- The columns an edit must leave inside the grid. -/
structure Fits (cols : ℤ) (item : GridItem) : Prop where
  left : 0 ≤ item.x
  right : item.x + item.w ≤ cols
  wide : 1 ≤ item.w

lemma Fits.of_fixed {cols : ℤ} {a b : WorkItem} (hfixed : fixed a = fixed b)
    (h : Fits cols b.toGridItem) : Fits cols a.toGridItem := by
  have hx : a.x = b.x := congrArg (fun item => item.x) hfixed
  have hw : a.w = b.w := congrArg (fun item => item.w) hfixed
  exact ⟨hx ▸ h.left, hx ▸ hw ▸ h.right, hw ▸ h.wide⟩

lemma fixed_ids {work work' : List WorkItem} (h : work.map fixed = work'.map fixed) :
    work.map (·.i) = work'.map (·.i) := by
  have hids := congrArg (List.map fun item : WorkItem => item.i) h
  simpa [Function.comp_def, fixed] using hids

lemma exists_fixed {work work' : List WorkItem} (h : work.map fixed = work'.map fixed)
    {item : WorkItem} (hitem : item ∈ work) : ∃ item' ∈ work', fixed item = fixed item' := by
  have hmem : fixed item ∈ work'.map fixed := h ▸ List.mem_map_of_mem hitem
  obtain ⟨item', hitem', heq⟩ := List.mem_map.mp hmem
  exact ⟨item', hitem', heq.symm⟩

/-- A drawable board with these ids, whose items have a width. -/
structure Board (cols : ℤ) (ids : List String) (layout : Layout) : Prop
    extends Drawable cols layout where
  ids : layout.map (·.i) = ids
  wide : ∀ item ∈ layout, 1 ≤ item.w

lemma Board.fits {cols : ℤ} {ids : List String} {layout : Layout} (h : Board cols ids layout)
    {item : GridItem} (hitem : item ∈ layout) : Fits cols item :=
  ⟨(h.inside item hitem).1, (h.inside item hitem).2, h.wide item hitem⟩

def NoMinW (layout : Layout) : Prop := ∀ item ∈ layout, item.minW = none

section Compact

variable {cols : ℤ} {work : List WorkItem} (input : Layout)

lemma exists_fixed_compact (hfits : ∀ item ∈ work, Fits cols item.toGridItem) {item : WorkItem}
    (hitem : item ∈ compactVerticalWork work) : ∃ a ∈ work, fixed item = fixed a := by
  have hfixed := compactVerticalWork_fixed work
  rw [← List.map_map] at hfixed
  obtain ⟨item', hitem', heq⟩ := exists_fixed hfixed hitem
  obtain ⟨original, horiginal, rfl⟩ := List.mem_map.mp hitem'
  have hleft : leftBound original = original := by
    simp [leftBound, max_eq_left (hfits original horiginal).left]
  exact ⟨original, horiginal, hleft ▸ heq⟩

lemma ids_compactVerticalWork : (compactVerticalWork work).map (·.i) = work.map (·.i) := by
  have hfixed := compactVerticalWork_fixed work
  rw [← List.map_map] at hfixed
  rw [fixed_ids hfixed, List.map_map]
  rfl

lemma exists_of_mem_compact (hfits : ∀ item ∈ work, Fits cols item.toGridItem) {item : GridItem}
    (hitem : item ∈ finish (compactVerticalWork work) input) :
    ∃ a ∈ work, item.i = a.i ∧ item.x = a.x ∧ item.w = a.w := by
  rw [finish_eq] at hitem
  obtain ⟨out, hout, rfl⟩ := List.mem_map.mp hitem
  obtain ⟨a, ha, heq⟩ := exists_fixed_compact hfits hout
  have hspot := fromWork_sameSpot out input
  refine ⟨a, ha, ?_, ?_, ?_⟩
  · rw [← hspot.i]
    exact congrArg (fun item => item.i) heq
  · rw [← hspot.x]
    exact congrArg (fun item => item.x) heq
  · rw [← hspot.w]
    exact congrArg (fun item => item.w) heq

/-- Whatever rows its items are in, a layout inside the grid is a board once compacted. -/
theorem board_compact (hfits : ∀ item ∈ work, Fits cols item.toGridItem) :
    Board cols (work.map (·.i)) (finish (compactVerticalWork work) input) := by
  have hfits' : ∀ item ∈ finish (compactVerticalWork work) input, Fits cols item := by
    intro item hitem
    obtain ⟨a, ha, -, hx, hw⟩ := exists_of_mem_compact input hfits hitem
    have hfit := hfits a ha
    exact ⟨hx ▸ hfit.left, hx ▸ hw ▸ hfit.right, hw ▸ hfit.wide⟩
  refine ⟨⟨?_, fun item hitem => ⟨(hfits' item hitem).left, (hfits' item hitem).right⟩⟩, ?_,
    fun item hitem => (hfits' item hitem).wide⟩
  · rw [finish_eq]
    exact (compactVerticalWork_packed work).sameSpots fun item _ => fromWork_sameSpot item input
  · rw [finish_eq, ← ids_compactVerticalWork, List.map_map]
    apply List.map_congr_left
    intro a _
    exact (fromWork_sameSpot a input).i.symm

lemma noMinW_compact (hwork : ∀ item ∈ work, item.minW = none) (hinput : NoMinW input) :
    NoMinW (finish (compactVerticalWork work) input) := by
  intro item hitem
  rw [finish_eq] at hitem
  obtain ⟨a, ha, rfl⟩ := List.mem_map.mp hitem
  have hfixed := compactVerticalWork_fixed work
  rw [← List.map_map] at hfixed
  obtain ⟨item', hitem', heq⟩ := exists_fixed hfixed ha
  obtain ⟨original, horiginal, rfl⟩ := List.mem_map.mp hitem'
  have ha' : a.minW = none := by
    have hmin : a.minW = original.minW := congrArg (fun item => item.minW) heq
    rw [hmin, hwork original horiginal]
  unfold fromWork
  split
  · rename_i original' hfind
    have hmem : original' ∈ input := by
      simpa using List.mem_of_find?_eq_some hfind
    split
    · exact hinput original' hmem
    · exact ha'
  · exact ha'

end Compact

@[simp] lemma correctBounds_i (cols : ℤ) (item : WorkItem) :
    (correctBounds cols item).i = item.i := by
  unfold correctBounds
  dsimp only
  split <;> split <;> rfl

@[simp] lemma correctBounds_minW (cols : ℤ) (item : WorkItem) :
    (correctBounds cols item).minW = item.minW := by
  unfold correctBounds
  dsimp only
  split <;> split <;> rfl

lemma correctBounds_fits {cols : ℤ} (hcols : 1 ≤ cols) {item : WorkItem} (hw : 1 ≤ item.w) :
    Fits cols (correctBounds cols item).toGridItem := by
  unfold correctBounds
  constructor <;> dsimp only <;> split <;> split <;> dsimp only <;> omega

theorem normalizeLayout_board {cols : ℤ} (hcols : 1 ≤ cols) {layout : Layout}
    (hw : ∀ item ∈ layout, 1 ≤ item.w) :
    Board cols (layout.map (·.i)) (normalizeLayout layout cols Compaction.vertical) := by
  have hids : ((layout.map toWork).map (correctBounds cols)).map (·.i) = layout.map (·.i) := by
    rw [List.map_map, List.map_map]
    apply List.map_congr_left
    intro item _
    simp [toWork]
  have hfits : ∀ item ∈ (layout.map toWork).map (correctBounds cols),
      Fits cols item.toGridItem := by
    intro item hitem
    obtain ⟨work, hwork, rfl⟩ := List.mem_map.mp hitem
    obtain ⟨original, horiginal, rfl⟩ := List.mem_map.mp hwork
    exact correctBounds_fits hcols (hw original horiginal)
  have hboard := board_compact layout hfits
  rwa [hids] at hboard

lemma normalizeLayout_noMinW (cols : ℤ) {layout : Layout} (h : NoMinW layout) :
    NoMinW (normalizeLayout layout cols Compaction.vertical) := by
  apply noMinW_compact layout _ h
  intro item hitem
  obtain ⟨work, hwork, rfl⟩ := List.mem_map.mp hitem
  obtain ⟨original, horiginal, rfl⟩ := List.mem_map.mp hwork
  simpa [toWork] using h original horiginal

/-! ### Editing -/

lemma moveElement_fixed (work : List WorkItem) (k : ℕ) (item : WorkItem) (x y : ℤ)
    (hitem : work[k]? = some item) :
    (moveElement work k item x y).map fixed = (work.set k { item with x }).map fixed := by
  unfold moveElement
  by_cases hsame : item.y = y ∧ item.x = x
  · have hx : { item with x } = item := by rw [← hsame.2]
    rw [if_pos hsame, hx, fixed_set hitem rfl]
  · rw [if_neg hsame, (moveAwayFromCollisions _ _ _ _).property.fixed, List.map_set, List.map_set]
    rfl

lemma clampPosition_fits {cols : ℤ} {item : GridItem} (h : Fits cols item) (x y : ℤ) :
    Fits cols { item with x := (clampPosition item x y cols).1 } := by
  have hleft := h.left
  have hright := h.right
  constructor
  · simp [clampPosition, clamp]
  · simp only [clampPosition, clamp]
    omega
  · exact h.wide

lemma clampSize_fits {cols : ℤ} {item : GridItem} (h : Fits cols item) (hmin : item.minW = none)
    (w w' h' : ℤ) : Fits cols { item with w := (clampSize item w h' cols).1, h := w' } := by
  have hleft := h.left
  have hright := h.right
  have hwide := h.wide
  constructor
  · exact h.left
  · cases hmax : item.maxW with
    | none =>
      simp only [clampSize, clamp, hmin, hmax, Option.getD]
      omega
    | some maxW =>
      simp only [clampSize, clamp, hmin, hmax, Option.getD]
      omega
  · simp [clampSize, clamp, hmin]

lemma exists_target {layout : Layout} {id : String} {item : WorkItem}
    (h : (layout.map toWork)[(layout.map toWork).findIdx fun candidate => candidate.i = id]? =
      some item) : ∃ original ∈ layout, item = toWork original ∧ original.i = id := by
  have hid := List.findIdx_of_getElem?_eq_some h
  obtain ⟨original, horiginal, rfl⟩ := List.mem_map.mp (List.mem_of_getElem? h)
  exact ⟨original, horiginal, rfl, of_decide_eq_true hid⟩

/-- The items a request for `id` may change by `f` stay inside the grid. -/
def Room (cols : ℤ) (id : String) (f : GridItem → GridItem) (layout : Layout) : Prop :=
  ∀ item ∈ layout, item.i = id → Fits cols (f item)

section Target

variable {layout : Layout} {moved : List WorkItem} {k : ℕ} {changed : WorkItem}

lemma exists_of_mem_set (hmoved : moved.map fixed = ((layout.map toWork).set k changed).map fixed)
    {item : WorkItem} (hitem : item ∈ moved) :
    (∃ a ∈ layout, fixed item = fixed (toWork a)) ∨ fixed item = fixed changed := by
  obtain ⟨a, ha, heq⟩ := exists_fixed hmoved hitem
  rcases List.mem_or_eq_of_mem_set ha with ha | rfl
  · obtain ⟨original, horiginal, rfl⟩ := List.mem_map.mp ha
    exact Or.inl ⟨original, horiginal, heq⟩
  · exact Or.inr heq

lemma set_fits {cols : ℤ} {ids : List String} (h : Board cols ids layout)
    (hmoved : moved.map fixed = ((layout.map toWork).set k changed).map fixed)
    (hchanged : Fits cols changed.toGridItem) :
    ∀ item ∈ moved, Fits cols item.toGridItem := by
  intro item hitem
  rcases exists_of_mem_set hmoved hitem with ⟨a, ha, heq⟩ | heq
  · have ha' : Fits cols (toWork a).toGridItem := h.fits ha
    exact ha'.of_fixed heq
  · exact hchanged.of_fixed heq

lemma set_board {cols : ℤ} {ids : List String} (h : Board cols ids layout) {original : GridItem}
    (hk : (layout.map toWork)[k]? = some (toWork original)) (hid : changed.i = original.i)
    (hmoved : moved.map fixed = ((layout.map toWork).set k changed).map fixed)
    (hchanged : Fits cols changed.toGridItem) :
    Board cols ids (finish (compactVerticalWork moved) layout) := by
  have hboard := board_compact layout (set_fits h hmoved hchanged)
  have hset : ((layout.map toWork).map (·.i)).set k changed.i = (layout.map toWork).map (·.i) := by
    apply List.ext_getElem? fun j => ?_
    rw [List.getElem?_set]
    split
    · rename_i hj
      subst hj
      split
      · have hk' := congrArg (Option.map fun item => item.i) hk
        rw [← List.getElem?_map] at hk'
        rw [hk', hid]
        rfl
      · simp_all
    · rfl
  have hids : moved.map (·.i) = ids := by
    rw [fixed_ids hmoved, List.map_set, hset, List.map_map, ← h.ids]
    rfl
  rwa [hids] at hboard

lemma noMinW_set (h : NoMinW layout) {original : GridItem} (horiginal : original ∈ layout)
    (hmin : changed.minW = original.minW)
    (hmoved : moved.map fixed = ((layout.map toWork).set k changed).map fixed) :
    NoMinW (finish (compactVerticalWork moved) layout) := by
  apply noMinW_compact layout _ h
  intro item hitem
  rcases exists_of_mem_set hmoved hitem with ⟨a, ha, heq⟩ | heq
  · have hitem : item.minW = a.minW := congrArg (fun item => item.minW) heq
    rw [hitem, h a ha]
  · have hitem : item.minW = changed.minW := congrArg (fun item => item.minW) heq
    rw [hitem, hmin, h original horiginal]

end Target

lemma moveStep_board {cols : ℤ} {ids : List String} {layout : Layout}
    (h : Board cols ids layout) (id : String) (x y : ℤ)
    (hroom : Room cols id (fun item => { item with x }) layout) :
    Board cols ids (moveStep layout id x y) ∧
      Room cols id (fun item => { item with x }) (moveStep layout id x y) := by
  unfold moveStep
  dsimp only
  split
  · exact ⟨h, hroom⟩
  · rename_i item hitem
    obtain ⟨original, horiginal, rfl, hid⟩ := exists_target hitem
    have hfixed := moveElement_fixed _ _ _ x y hitem
    have hfit := hroom original horiginal hid
    have hchanged : Fits cols { toWork original with x }.toGridItem := hfit
    refine ⟨set_board h hitem rfl hfixed hchanged, ?_⟩
    intro item hmem hitemId
    obtain ⟨a, ha, hi, -, hw⟩ := exists_of_mem_compact layout (set_fits h hfixed hchanged) hmem
    rcases exists_of_mem_set hfixed ha with ⟨b, hb, heq⟩ | heq
    · have hbi : a.i = b.i := congrArg (fun item => item.i) heq
      have hbw : a.w = b.w := congrArg (fun item => item.w) heq
      have hb' := hroom b hb (by rw [← hbi, ← hi, hitemId])
      exact ⟨hb'.left, by simpa [hw, hbw] using hb'.right, by simpa [hw, hbw] using hb'.wide⟩
    · have hbw : a.w = original.w := congrArg (fun item => item.w) heq
      exact ⟨hfit.left, by simpa [hw, hbw] using hfit.right, by simpa [hw, hbw] using hfit.wide⟩

lemma moveSteps_board {cols : ℤ} {ids : List String} (id : String) (x y : ℤ) (steps : ℕ)
    {layout : Layout} (h : Board cols ids layout)
    (hroom : Room cols id (fun item => { item with x }) layout) :
    Board cols ids (moveSteps id x y layout steps) := by
  induction steps generalizing layout with
  | zero => exact h
  | succ steps ih =>
    obtain ⟨hnext, hroom'⟩ := moveStep_board h id x y hroom
    simp only [moveSteps]
    split
    · exact h
    · exact ih hnext hroom'

lemma moveStep_noMinW {layout : Layout} (h : NoMinW layout) (id : String) (x y : ℤ) :
    NoMinW (moveStep layout id x y) := by
  unfold moveStep
  dsimp only
  split
  · exact h
  · rename_i item hitem
    obtain ⟨original, horiginal, rfl, -⟩ := exists_target hitem
    exact noMinW_set h horiginal rfl (moveElement_fixed _ _ _ x y hitem)

lemma moveSteps_noMinW (id : String) (x y : ℤ) (steps : ℕ) {layout : Layout}
    (h : NoMinW layout) : NoMinW (moveSteps id x y layout steps) := by
  induction steps generalizing layout with
  | zero => exact h
  | succ steps ih =>
    simp only [moveSteps]
    split
    · exact h
    · exact ih (moveStep_noMinW h id x y)

lemma resizeItem_board {cols : ℤ} {ids : List String} {layout : Layout} (h : Board cols ids layout)
    (id : String) (w h' : ℤ)
    (hroom : Room cols id (fun item => { item with w, h := h' }) layout) :
    Board cols ids (resizeItem layout id w h') := by
  unfold resizeItem
  dsimp only
  split
  · exact h
  · rename_i item hitem
    obtain ⟨original, horiginal, rfl, hid⟩ := exists_target hitem
    have hchanged : Fits cols { toWork original with w, h := h' }.toGridItem :=
      hroom original horiginal hid
    exact set_board h hitem rfl rfl hchanged

lemma resizeItem_noMinW {layout : Layout} (h : NoMinW layout) (id : String) (w h' : ℤ) :
    NoMinW (resizeItem layout id w h') := by
  unfold resizeItem
  dsimp only
  split
  · exact h
  · rename_i item hitem
    obtain ⟨original, horiginal, rfl, -⟩ := exists_target hitem
    exact noMinW_set h horiginal rfl rfl

/-! ### Edit sequences -/

inductive Edit
  | move (id : String) (x y : ℤ)
  | resize (id : String) (w h : ℤ)
deriving DecidableEq, Repr

/-- One edit of the board as the canvas requests it, with the target clamped to the item. -/
def edit (cols : ℤ) (layout : Layout) : Edit → Layout
  | .move id x y =>
    match layout.find? fun item => item.i = id with
    | none => layout
    | some item =>
      let (x, y) := clampPosition item x y cols
      moveItem layout id x y
  | .resize id w h =>
    match layout.find? fun item => item.i = id with
    | none => layout
    | some item =>
      let (w, h) := clampSize item w h cols
      resizeItem layout id w h

/-- Ids are distinct, so what is found under one is the only item with it. -/
lemma room_of_find? {cols : ℤ} {layout : Layout} {id : String} {item : GridItem}
    {f : GridItem → GridItem} (hids : (layout.map (·.i)).Nodup)
    (hfind : layout.find? (fun item => item.i = id) = some item) (h : Fits cols (f item)) :
    Room cols id f layout := by
  intro other hother hid
  have hitem := List.find?_some hfind
  have heq : other = item := by
    apply List.inj_on_of_nodup_map hids hother (List.mem_of_find?_eq_some hfind)
    rw [hid, of_decide_eq_true hitem]
  rw [heq]
  exact h

theorem edit_board {cols : ℤ} {ids : List String} {layout : Layout} (hids : ids.Nodup)
    (h : Board cols ids layout) (e : Edit)
    (hmin : ∀ id w h, e = Edit.resize id w h → NoMinW layout) :
    Board cols ids (edit cols layout e) := by
  rw [← h.ids] at hids
  cases e with
  | move id x y =>
    simp only [edit]
    split
    · exact h
    · rename_i item hfind
      have hfit := h.fits (List.mem_of_find?_eq_some hfind)
      have hroom := room_of_find? hids hfind
        (f := fun item' => { item' with x := (clampPosition item x y cols).1 })
        (clampPosition_fits hfit x y)
      exact moveSteps_board id _ _ _ h hroom
  | resize id w h' =>
    simp only [edit]
    split
    · exact h
    · rename_i item hfind
      have hmem := List.mem_of_find?_eq_some hfind
      have hfit := h.fits hmem
      have hroom := room_of_find? (f := fun item' => { item' with
          w := (clampSize item w h' cols).1, h := (clampSize item w h' cols).2 })
        hids hfind (clampSize_fits hfit (hmin id w h' rfl item hmem) w _ h')
      exact resizeItem_board h id _ _ hroom

theorem edit_noMinW (cols : ℤ) {layout : Layout} (h : NoMinW layout) (e : Edit) :
    NoMinW (edit cols layout e) := by
  cases e with
  | move id x y =>
    simp only [edit]
    split
    · exact h
    · exact moveSteps_noMinW id _ _ _ h
  | resize id w h' =>
    simp only [edit]
    split
    · exact h
    · exact resizeItem_noMinW h id _ _

lemma edits_board {cols : ℤ} {ids : List String} (hids : ids.Nodup) (edits : List Edit)
    {layout : Layout} (h : Board cols ids layout)
    (hmin : ∀ id w h, Edit.resize id w h ∈ edits → NoMinW layout) :
    Board cols ids (edits.foldl (edit cols) layout) := by
  induction edits generalizing layout with
  | nil => exact h
  | cons e edits ih =>
    have hedit := edit_board hids h e fun id w h he => hmin id w h (by simp [he])
    apply ih hedit
    intro id w h' hmem
    exact edit_noMinW cols (hmin id w h' (by simp [hmem])) e

/-- A normalised board is drawable and holds what was stored, and stays so through any edits. -/
theorem edited_board_drawable {cols : ℤ} (hcols : 1 ≤ cols) (layout : Layout)
    (hids : (layout.map (·.i)).Nodup) (hw : ∀ item ∈ layout, 1 ≤ item.w) (edits : List Edit)
    (hmin : ∀ id w h, Edit.resize id w h ∈ edits → NoMinW layout) :
    let board := normalizeLayout layout cols Compaction.vertical
    let edited := edits.foldl (edit cols) board
    (board.map (·.i) = layout.map (·.i) ∧ Drawable cols board) ∧
      edited.map (·.i) = layout.map (·.i) ∧ Drawable cols edited := by
  have hboard := normalizeLayout_board hcols hw
  have hedited := edits_board hids edits hboard fun id w h hmem =>
    normalizeLayout_noMinW cols (hmin id w h hmem)
  exact ⟨⟨hboard.ids, hboard.toDrawable⟩, hedited.ids, hedited.toDrawable⟩

/-- Two tiles stored over each other and past the right edge, dragged and resized. -/
theorem edited_board_drawable_overlapping :
    let layout : Layout := [
      { i := "a", x := 3, y := 0, w := 4, h := 2 }, { i := "b", x := -1, y := 1, w := 2, h := 3 }]
    let edits := [Edit.move "a" 9 4, Edit.resize "b" 9 1]
    let board := normalizeLayout layout 4 Compaction.vertical
    let edited := edits.foldl (edit 4) board
    (board.map (·.i) = ["a", "b"] ∧ Drawable 4 board) ∧
      edited.map (·.i) = ["a", "b"] ∧ Drawable 4 edited :=
  edited_board_drawable (by decide) _ (by decide) (by decide) _
    fun _ _ _ _ => by simp [NoMinW]

end Maple.Grid
