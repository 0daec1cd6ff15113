import Maple.GridPacked

/-! What compaction does to items that are clear of each other: it only lifts them, and leaves
alone those that rest. -/

namespace Maple.Grid

/-- Where the two share a column, `a` ends above `b`. -/
def Above (a b : GridItem) : Prop := sameColumns a b → a.y + a.h ≤ b.y

lemma above_of_apart {a b : GridItem} (hid : a.i ≠ b.i) (hapart : collides a b = false)
    (hb : 1 ≤ b.h) (hle : a.y ≤ b.y) : Above a b := by
  intro hcolumns
  simp only [collides, decide_eq_false_iff_not, not_and, not_lt] at hapart
  have hrows := hapart hid hcolumns.1 hcolumns.2
  omega

lemma sameColumns_comm {a b : GridItem} : sameColumns a b ↔ sameColumns b a := And.comm

/-- Any row at or below the end of `a` is free of it. -/
lemma Above.free {a b : GridItem} (h : Above a b) {row : ℤ} (hrow : b.y ≤ row) :
    collides a { b with y := row } = false := by
  simp only [collides, decide_eq_false_iff_not]
  intro hcollides
  have hend := h ⟨hcollides.2.1, hcollides.2.2.1⟩
  omega

/-- Lifted to any row, `a` is still free of what it was above. -/
lemma Above.lift {a b : GridItem} (h : Above a b) {row : ℤ} (hrow : row ≤ a.y) :
    Above { a with y := row } b := by
  intro hcolumns
  have hend := h hcolumns
  dsimp only
  omega

lemma Above.not_collides {a b : GridItem} (h : Above a b) : collides a b = false := by
  have hfree := h.free le_rfl
  simpa using hfree

/-! ### One item -/

lemma resolveCompactionCollision_clear {item : WorkItem} (moveTo : ℤ)
    {below : List (WorkItem × ℕ)}
    (h : ∀ other ∈ below, collides item.toGridItem other.1.toGridItem = false) :
    (resolveCompactionCollision item moveTo below).val = below := by
  induction below with
  | nil => rw [resolveCompactionCollision]
  | cons other rest ih =>
    have hother := h other (List.mem_cons_self ..)
    have hrest := ih fun o ho => h o (List.mem_cons_of_mem _ ho)
    rw [resolveCompactionCollision]
    split_ifs
    · rfl
    · simp_all
    · simp [hrest]

lemma settle_clear {placed : List WorkItem} {item : WorkItem} (below : List (WorkItem × ℕ))
    (h : firstCollision placed item.toGridItem = none) :
    (settle placed item below).1 = item ∧ (settle placed item below).2.val = below := by
  rw [settle]
  split
  · exact ⟨rfl, rfl⟩
  · simp_all

lemma settle_collision {placed : List WorkItem} {item collision : WorkItem}
    (below : List (WorkItem × ℕ))
    (h : firstCollision placed item.toGridItem = some collision) :
    let moveTo := collision.y + collision.h
    let pushed := (resolveCompactionCollision { item with y := item.y + 1 } moveTo below).val
    (settle placed item below).1 = (settle placed { item with y := moveTo } pushed).1 ∧
      (settle placed item below).2.val = (settle placed { item with y := moveTo } pushed).2.val := by
  intro moveTo pushed
  rw [settle]
  split
  · simp_all
  · have heq : collision = _ := Option.some.inj (h.symm.trans ‹_›)
    subst heq
    exact ⟨rfl, rfl⟩

/-- A collision that ends one row down ends where the item comes from. -/
lemma collision_end {placed : List WorkItem} {item collision : WorkItem}
    (hfree : firstCollision placed item.toGridItem = none)
    (hcollision : firstCollision placed { item with y := item.y - 1 }.toGridItem = some collision) :
    collision.y + collision.h = item.y := by
  have hmem := List.mem_of_find?_eq_some hcollision
  have hcollides := List.find?_some hcollision
  have hapart := firstCollision_eq_none hfree collision.toGridItem (List.mem_map_of_mem hmem)
  simp only [collides, decide_eq_true_eq] at hcollides
  simp only [collides, decide_eq_false_iff_not, not_and, not_lt] at hapart
  have hrows := hapart hcollides.1 hcollides.2.1 hcollides.2.2.1
  omega

/-- The rows from `lo` down to `hi` are free of what is placed. -/
def FreeRows (placed : List WorkItem) (item : WorkItem) (lo hi : ℤ) : Prop :=
  ∀ row, lo ≤ row → row ≤ hi → firstCollision placed { item with y := row }.toGridItem = none

/-- A free item floats up as far as its way is free, and pushes nothing. -/
lemma settle_floatUp {placed : List WorkItem} {item : WorkItem} {below : List (WorkItem × ℕ)}
    (hy : 0 ≤ item.y) (hfree : firstCollision placed item.toGridItem = none)
    (hbelow : ∀ other ∈ below, ∀ row ≤ item.y,
      collides { item with y := row }.toGridItem other.1.toGridItem = false) :
    ∃ y, 0 ≤ y ∧ y ≤ item.y ∧ FreeRows placed item y item.y ∧
      (settle placed (floatUp placed item) below).1 = { item with y := y } ∧
      (settle placed (floatUp placed item) below).2.val = below := by
  fun_induction floatUp placed item with
  | case2 item h =>
    have hzero : item.y = 0 := by
      simp only [hfree, Option.isNone_none, and_true] at h
      omega
    obtain ⟨hitem, hsame⟩ := settle_clear below hfree
    refine ⟨item.y, hy, le_rfl, ?_, hitem, hsame⟩
    intro row hlo hhi
    have hrow : row = item.y := by omega
    rw [hrow]
    exact hfree
  | case1 item h ih =>
    have hpos := h.1
    have hextend : ∀ y, FreeRows placed item y (item.y - 1) → FreeRows placed item y item.y := by
      intro y hrows row hlo hhi
      by_cases hrow : row = item.y
      · rw [hrow]
        exact hfree
      · exact hrows row hlo (by omega)
    cases hup : firstCollision placed { item with y := item.y - 1 }.toGridItem with
    | none =>
      have hy' : 0 ≤ item.y - 1 := by omega
      obtain ⟨y, hnonneg, hle, hrows, hitem, hsame⟩ := ih hy' hup
        fun other hother row hrow => hbelow other hother row (by
          dsimp only at hrow
          omega)
      dsimp only at hle
      exact ⟨y, hnonneg, by omega, hextend y hrows, hitem, hsame⟩
    | some collision =>
      have hstays : floatUp placed { item with y := item.y - 1 } =
          { item with y := item.y - 1 } := by
        rw [floatUp, if_neg]
        simp [hup]
      have hend := collision_end hfree hup
      have hback : ({ item with y := item.y - 1 + 1 } : WorkItem) = item := by simp
      rw [hstays]
      obtain ⟨hitem, hsame⟩ := settle_collision below hup
      dsimp only at hitem hsame
      rw [hend, hback, resolveCompactionCollision_clear _ fun other hother =>
        hbelow other hother item.y le_rfl] at hitem hsame
      obtain ⟨hitem', hsame'⟩ := settle_clear below hfree
      refine ⟨item.y, hy, le_rfl, ?_, hitem.trans hitem', hsame.trans hsame'⟩
      intro row hlo hhi
      have hrow : row = item.y := by omega
      rw [hrow]
      exact hfree

/-! ### All items -/

lemma placeAll_eq (placed : List WorkItem) (maxY : ℤ) (original : WorkItem) (k : ℕ)
    (below : List (WorkItem × ℕ)) :
    placeAll placed maxY ((original, k) :: below) =
      let out := settle placed (floatUp placed (start maxY original)) below
      (ground out.1, k) :: placeAll (placed ++ [ground out.1])
        (max maxY ((ground out.1).y + (ground out.1).h)) out.2.val := by
  rw [placeAll]
  rfl

/-- `out` is `original` lifted, or where it was. -/
structure Lifted (out original : WorkItem) : Prop where
  same : out = { original with y := out.y, moved := false }
  nonneg : 0 ≤ out.y
  lifted : out.y ≤ original.y

/-- What has been placed ends at `maxY`, above the rest, which is below row and column 0. -/
structure Clear (placed : List WorkItem) (maxY : ℤ) (below : List (WorkItem × ℕ)) : Prop where
  floor : 0 ≤ maxY
  ends : ∀ other ∈ placed, other.y + other.h ≤ maxY
  above : ∀ other ∈ placed, ∀ item ∈ below, Above other.toGridItem item.1.toGridItem
  ordered : below.Pairwise fun a b => Above a.1.toGridItem b.1.toGridItem
  corner : ∀ item ∈ below, 0 ≤ item.1.x ∧ 0 ≤ item.1.y

lemma Clear.free {placed : List WorkItem} {maxY : ℤ} {original : WorkItem} {k : ℕ}
    {below : List (WorkItem × ℕ)} (h : Clear placed maxY ((original, k) :: below)) :
    firstCollision placed { original with y := min maxY original.y }.toGridItem = none := by
  simp only [firstCollision, List.find?_eq_none, Bool.not_eq_true]
  intro other hother
  have hend := h.ends other hother
  have habove := h.above other hother (original, k) (List.mem_cons_self ..)
  simp only [collides, decide_eq_false_iff_not]
  intro hcollides
  have hrow := habove ⟨hcollides.2.1, hcollides.2.2.1⟩
  dsimp only at hrow hcollides
  omega

/-- The next of the items is lifted as far as its way is free, and pushes nothing. -/
lemma Clear.place {placed : List WorkItem} {maxY : ℤ} {original : WorkItem} {k : ℕ}
    {below : List (WorkItem × ℕ)} (h : Clear placed maxY ((original, k) :: below)) :
    ∃ item, Lifted item original ∧
      FreeRows placed original item.y (min maxY original.y) ∧
      placeAll placed maxY ((original, k) :: below) =
        (item, k) :: placeAll (placed ++ [item]) (max maxY (item.y + item.h)) below ∧
      Clear (placed ++ [item]) (max maxY (item.y + item.h)) below := by
  have hcorner := h.corner (original, k) (List.mem_cons_self ..)
  dsimp only at hcorner
  have hfloor := h.floor
  have hstart : start maxY original = { original with y := min maxY original.y } := by
    simp [start, max_eq_left hcorner.1, max_eq_left hcorner.2]
  have hbelow : ∀ other ∈ below, Above original.toGridItem other.1.toGridItem := by
    intro other hother
    exact (List.pairwise_cons.mp h.ordered).1 other hother
  have hy : 0 ≤ min maxY original.y := le_min hfloor hcorner.2
  obtain ⟨y, hnonneg, hle, hrows, hitem, hsame⟩ := settle_floatUp
    hy h.free (by
      intro other hother row hrow
      dsimp only at hrow ⊢
      exact ((hbelow other hother).lift (by omega)).not_collides)
  dsimp only at hle hrows
  rw [← hstart] at hitem hsame
  have hground : ground (settle placed (floatUp placed (start maxY original)) below).1 =
      { original with y, moved := false } := by
    rw [hitem, ground]
    simp [hstart, max_eq_left hnonneg]
  refine ⟨{ original with y, moved := false }, ⟨rfl, hnonneg, ?_⟩, hrows, ?_, ?_⟩
  · dsimp only
    omega
  · rw [placeAll_eq]
    dsimp only
    rw [hground, hsame]
  · constructor
    · exact hfloor.trans (le_max_left _ _)
    · intro other hother
      rcases List.mem_append.mp hother with hother | hother
      · have hend := h.ends other hother
        omega
      · rw [List.mem_singleton.mp hother]
        exact le_max_right _ _
    · intro other hother item hitem'
      rcases List.mem_append.mp hother with hother | hother
      · exact h.above other hother item (List.mem_cons_of_mem _ hitem')
      · rw [List.mem_singleton.mp hother]
        exact (hbelow item hitem').lift (by omega)
    · exact (List.pairwise_cons.mp h.ordered).2
    · exact fun item hitem' => h.corner item (List.mem_cons_of_mem _ hitem')

lemma placeAll_lifted {placed : List WorkItem} {maxY : ℤ} {below : List (WorkItem × ℕ)}
    (h : Clear placed maxY below) :
    List.Forall₂ (fun out original => Lifted out.1 original.1 ∧ out.2 = original.2)
      (placeAll placed maxY below) below := by
  induction below generalizing placed maxY with
  | nil =>
    rw [placeAll]
    exact List.Forall₂.nil
  | cons original below ih =>
    obtain ⟨item, hlifted, -, hplace, hnext⟩ := h.place
    rw [hplace]
    exact List.Forall₂.cons ⟨hlifted, rfl⟩ (ih hnext)

/-- An item that rests on something placed is not lifted. -/
lemma not_lifted_of_rests {placed : List WorkItem} {maxY y : ℤ} {original : WorkItem}
    (hends : ∀ other ∈ placed, other.y + other.h ≤ maxY)
    (hheight : ∀ other ∈ placed, 1 ≤ other.h) (htall : 1 ≤ original.h)
    (hrests : RestsOn (placed.map WorkItem.toGridItem) original.toGridItem)
    (hrows : FreeRows placed original y (min maxY original.y)) : original.y ≤ y := by
  by_contra hlt
  obtain ⟨support, hsupport, hid, hcolumns, hedge⟩ := hrests
  obtain ⟨other, hother, rfl⟩ := List.mem_map.mp hsupport
  have hend := hends other hother
  have hthick := hheight other hother
  have hfree := firstCollision_eq_none (hrows (original.y - 1) (by omega) (by omega))
    other.toGridItem hsupport
  simp only [collides, decide_eq_false_iff_not] at hfree
  exact hfree ⟨hid, hcolumns.1, hcolumns.2, by omega, by omega⟩

/-- Items that rest on each other or on the first row are all left alone. -/
lemma placeAll_resting {placed : List WorkItem} {maxY : ℤ} {below : List (WorkItem × ℕ)}
    (h : Clear placed maxY below) (hheight : ∀ other ∈ placed, 1 ≤ other.h)
    (hrests : ∀ item ∈ below, 1 ≤ item.1.h ∧ item.1.moved = false ∧ (item.1.y = 0 ∨
      RestsOn ((placed ++ below.map Prod.fst).map WorkItem.toGridItem) item.1.toGridItem)) :
    placeAll placed maxY below = below := by
  induction below generalizing placed maxY with
  | nil => rw [placeAll]
  | cons original below ih =>
    obtain ⟨item, hlifted, hrows, hplace, hnext⟩ := h.place
    obtain ⟨htall, hmoved, hsupport⟩ := hrests original (List.mem_cons_self ..)
    have hstays : original.1.y ≤ item.y := by
      rcases hsupport with hzero | ⟨support, hsupport, hid, hcolumns, hedge⟩
      · rw [hzero]
        exact hlifted.nonneg
      · obtain ⟨other, hother, rfl⟩ := List.mem_map.mp hsupport
        rcases List.mem_append.mp hother with hother | hother
        · exact not_lifted_of_rests h.ends hheight htall
            ⟨other.toGridItem, List.mem_map_of_mem hother, hid, hcolumns, hedge⟩ hrows
        · exfalso
          rcases List.mem_cons.mp hother with rfl | hother
          · exact hid rfl
          · obtain ⟨later, hlater, rfl⟩ := List.mem_map.mp hother
            have habove := (List.pairwise_cons.mp h.ordered).1 later hlater
              ⟨hcolumns.2, hcolumns.1⟩
            have hthick := (hrests later (List.mem_cons_of_mem _ hlater)).1
            omega
    have hsame : item = original.1 := by
      have hle := hlifted.lifted
      have hy : item.y = original.1.y := by omega
      rw [hlifted.same, hy, ← hmoved]
    have hrest := ih hnext (by
      intro other hother
      rcases List.mem_append.mp hother with hother | hother
      · exact hheight other hother
      · rw [List.mem_singleton.mp hother, hsame]
        exact htall) (by
      intro other hother
      have hother' := hrests other (List.mem_cons_of_mem _ hother)
      rw [hsame, List.append_assoc]
      exact hother')
    rw [hplace, hrest, hsame]

/-- A lifted item stays below what was above it. -/
lemma above_of_freeRows {placed : List WorkItem} {maxY : ℤ} {other original item : WorkItem}
    (hlifted : Lifted item original) (hother : other ∈ placed) (hid : other.i ≠ original.i)
    (htall : 1 ≤ other.h) (htall' : 1 ≤ original.h) (hend : other.y + other.h ≤ maxY)
    (habove : Above other.toGridItem original.toGridItem)
    (hrows : FreeRows placed original item.y (min maxY original.y)) :
    Above other.toGridItem item.toGridItem := by
  intro hcolumns
  rw [hlifted.same] at hcolumns
  have hrow := habove hcolumns
  by_contra hlt
  have hfree := firstCollision_eq_none (hrows (other.y + other.h - 1) (by omega) (by omega))
    other.toGridItem (List.mem_map_of_mem hother)
  simp only [collides, decide_eq_false_iff_not] at hfree
  exact hfree ⟨hid, hcolumns.1, hcolumns.2, by omega, by omega⟩

/-- What is placed first is above what is placed after it, before and after compaction. -/
lemma placeAll_above {placed : List WorkItem} {maxY : ℤ} {below : List (WorkItem × ℕ)}
    (h : Clear placed maxY below) (hheight : ∀ other ∈ placed, 1 ≤ other.h)
    (htall : ∀ item ∈ below, 1 ≤ item.1.h)
    (hne : ∀ other ∈ placed, ∀ item ∈ below, other.i ≠ item.1.i)
    (hids : below.Pairwise fun a b => a.1.i ≠ b.1.i) :
    (∀ other ∈ placed, ∀ out ∈ placeAll placed maxY below,
        Above other.toGridItem out.1.toGridItem) ∧
      ((placeAll placed maxY below).zip below).Pairwise fun a b =>
        Above a.1.1.toGridItem b.1.1.toGridItem ∧ Above a.2.1.toGridItem b.2.1.toGridItem := by
  induction below generalizing placed maxY with
  | nil =>
    rw [placeAll]
    simp
  | cons original below ih =>
    obtain ⟨item, hlifted, hrows, hplace, hnext⟩ := h.place
    have htall' := htall original (List.mem_cons_self ..)
    have hsame := hlifted.same
    have hheight' : ∀ other ∈ placed ++ [item], 1 ≤ other.h := by
      intro other hother
      rcases List.mem_append.mp hother with hother | hother
      · exact hheight other hother
      · rw [List.mem_singleton.mp hother, hsame]
        exact htall'
    have hne' : ∀ other ∈ placed ++ [item], ∀ later ∈ below, other.i ≠ later.1.i := by
      intro other hother later hlater
      rcases List.mem_append.mp hother with hother | hother
      · exact hne other hother later (List.mem_cons_of_mem _ hlater)
      · rw [List.mem_singleton.mp hother, hsame]
        exact (List.pairwise_cons.mp hids).1 later hlater
    obtain ⟨hplaced, hpairs⟩ := ih hnext hheight'
      (fun later hlater => htall later (List.mem_cons_of_mem _ hlater)) hne'
      (List.pairwise_cons.mp hids).2
    rw [hplace]
    constructor
    · intro other hother out hout
      rcases List.mem_cons.mp hout with rfl | hout
      · exact above_of_freeRows hlifted hother (hne other hother original (List.mem_cons_self ..))
          (hheight other hother) htall' (h.ends other hother)
          (h.above other hother original (List.mem_cons_self ..)) hrows
      · exact hplaced other (List.mem_append_left _ hother) out hout
    · rw [List.zip_cons_cons, List.pairwise_cons]
      refine ⟨?_, hpairs⟩
      intro pair hpair
      obtain ⟨hout, hlater⟩ := List.of_mem_zip (a := pair.1) (b := pair.2) hpair
      exact ⟨hplaced item (List.mem_append_right _ (List.mem_singleton_self _)) pair.1 hout,
        (List.pairwise_cons.mp h.ordered).1 pair.2 hlater⟩

/-! ### The layout in order -/

lemma sortByRowCol_ordered (layout : List (WorkItem × ℕ)) :
    (sortByRowCol layout).Pairwise fun a b =>
      a.1.y < b.1.y ∨ a.1.y = b.1.y ∧ a.1.x ≤ b.1.x := by
  have hsorted : (sortByRowCol layout).Pairwise fun a b =>
      (a.1.y < b.1.y || (a.1.y = b.1.y && a.1.x ≤ b.1.x)) = true := by
    refine List.pairwise_mergeSort ?_ ?_ layout
    · intro a b c hab hbc
      simp only [Bool.or_eq_true, Bool.and_eq_true, decide_eq_true_eq] at hab hbc ⊢
      omega
    · intro a b
      simp only [Bool.or_eq_true, Bool.and_eq_true, decide_eq_true_eq]
      omega
  refine hsorted.imp ?_
  intro a b hab
  simpa only [Bool.or_eq_true, Bool.and_eq_true, decide_eq_true_eq] using hab

lemma sortByRowCol_rows (layout : List (WorkItem × ℕ)) :
    (sortByRowCol layout).Pairwise fun a b => a.1.y ≤ b.1.y := by
  refine (sortByRowCol_ordered layout).imp ?_
  intro a b hab
  omega

/-- A layout with distinct ids, no overlaps and no empty rows, from column and row 0 on. -/
structure CleanWork (layout : List WorkItem) : Prop where
  ids : (layout.map (·.i)).Nodup
  apart : layout.Pairwise fun a b => collides a.toGridItem b.toGridItem = false
  corner : ∀ item ∈ layout, 0 ≤ item.x ∧ 0 ≤ item.y
  tall : ∀ item ∈ layout, 1 ≤ item.h

lemma mem_sortByRowCol {layout : List WorkItem} {item : WorkItem × ℕ}
    (h : item ∈ sortByRowCol layout.zipIdx) : item.1 ∈ layout := by
  have hmem : item ∈ layout.zipIdx := (List.mergeSort_perm _ _).mem_iff.mp h
  exact List.fst_mem_of_mem_zipIdx hmem

lemma sortByRowCol_perm (layout : List WorkItem) :
    ((sortByRowCol layout.zipIdx).map Prod.fst).Perm layout := by
  have hsorted := (List.mergeSort_perm layout.zipIdx fun a b =>
    a.1.y < b.1.y || (a.1.y = b.1.y && a.1.x ≤ b.1.x)).map Prod.fst
  rwa [List.zipIdx_map_fst] at hsorted

lemma sortByRowCol_ids {layout : List WorkItem} (hids : (layout.map (·.i)).Nodup) :
    (sortByRowCol layout.zipIdx).Pairwise fun a b => a.1.i ≠ b.1.i := by
  have hnodup := ((sortByRowCol_perm layout).map (·.i)).nodup_iff.mpr hids
  have hpairs : ((sortByRowCol layout.zipIdx).map Prod.fst).Pairwise fun a b => a.i ≠ b.i :=
    List.pairwise_map.mp hnodup
  rwa [List.pairwise_map] at hpairs

lemma CleanWork.clear {layout : List WorkItem} (h : CleanWork layout) :
    Clear [] 0 (sortByRowCol layout.zipIdx) := by
  constructor
  · exact le_rfl
  · simp
  · simp
  · have hapart : ((sortByRowCol layout.zipIdx).map Prod.fst).Pairwise fun a b =>
        collides a.toGridItem b.toGridItem = false :=
      h.apart.perm (sortByRowCol_perm layout).symm fun {a b} hab => by rw [collides_comm, hab]
    rw [List.pairwise_map] at hapart
    have hall := ((sortByRowCol_ids h.ids).and hapart).and (sortByRowCol_rows layout.zipIdx)
    refine hall.imp_of_mem ?_
    intro a b ha hb hab
    exact above_of_apart hab.1.1 hab.1.2 (h.tall b.1 (mem_sortByRowCol hb)) hab.2
  · intro item hitem
    exact h.corner item.1 (mem_sortByRowCol hitem)

lemma keys_mergeSort {α : Type} (out : List (α × ℕ)) :
    (out.mergeSort fun a b => a.2 ≤ b.2).Pairwise fun a b => a.2 ≤ b.2 := by
  have hmerge : (out.mergeSort fun a b => a.2 ≤ b.2).Pairwise
      fun a b => decide (a.2 ≤ b.2) = true := by
    apply List.pairwise_mergeSort
    · intro a b c hab hbc
      simp at hab hbc ⊢
      omega
    · intro a b
      simp
      omega
  exact hmerge.imp of_decide_eq_true

lemma zipIdx_keys {α : Type} (layout : List α) :
    layout.zipIdx.Pairwise fun a b => a.2 < b.2 := by
  have hkeys := zipIdx_map_keys id layout
  simpa using hkeys

/-- Compaction leaves a clean layout that rests. -/
lemma CleanWork.compact_resting {layout : List WorkItem} (h : CleanWork layout)
    (hmoved : ∀ item ∈ layout, item.moved = false)
    (hrests : ∀ item ∈ layout, item.y = 0 ∨
      RestsOn (layout.map WorkItem.toGridItem) item.toGridItem) :
    compactVerticalWork layout = layout := by
  have hperm : (sortByRowCol layout.zipIdx).Perm layout.zipIdx := List.mergeSort_perm _ _
  have hsub : layout ⊆ (sortByRowCol layout.zipIdx).map Prod.fst := by
    have hmap := hperm.map Prod.fst
    rw [List.zipIdx_map_fst] at hmap
    exact hmap.symm.subset
  have hplace : placeAll [] 0 (sortByRowCol layout.zipIdx) = sortByRowCol layout.zipIdx := by
    refine placeAll_resting h.clear (by simp) ?_
    intro item hitem
    have hmem := mem_sortByRowCol hitem
    refine ⟨h.tall _ hmem, hmoved _ hmem, (hrests _ hmem).imp id ?_⟩
    exact RestsOn.mono (List.map_subset _ hsub)
  have heq := eq_of_perm_of_keys (keys_mergeSort (sortByRowCol layout.zipIdx)) (zipIdx_keys layout)
    ((List.mergeSort_perm _ _).trans hperm)
  rw [compactVerticalWork, hplace, heq, List.zipIdx_map_fst]

/-- Compaction lifts the items of a clean layout, each at its place in the list. -/
lemma CleanWork.compact_lifted {layout : List WorkItem} (h : CleanWork layout) :
    List.Forall₂ Lifted (compactVerticalWork layout) layout := by
  have hlifted := placeAll_lifted h.clear
  have hperm : (sortByRowCol layout.zipIdx).Perm layout.zipIdx := List.mergeSort_perm _ _
  unfold compactVerticalWork
  generalize placeAll [] 0 (sortByRowCol layout.zipIdx) = out at hlifted
  obtain ⟨originals, hrel, horiginals⟩ := List.perm_comp_forall₂
    (List.mergeSort_perm out fun a b => a.2 ≤ b.2) hlifted
  have hsnd : (out.mergeSort fun a b => a.2 ≤ b.2).map Prod.snd = originals.map Prod.snd := by
    rw [← List.forall₂_eq_eq_eq, List.forall₂_map_left_iff, List.forall₂_map_right_iff]
    exact hrel.imp fun _ _ h => h.2
  have hkeys : originals.Pairwise fun a b => a.2 ≤ b.2 := by
    have hout := List.pairwise_map.mpr (keys_mergeSort out)
    rw [hsnd] at hout
    exact List.pairwise_map.mp hout
  have heq := eq_of_perm_of_keys hkeys (zipIdx_keys layout) (horiginals.trans hperm)
  have hfst : List.Forall₂ Lifted ((out.mergeSort fun a b => a.2 ≤ b.2).map Prod.fst)
      (originals.map Prod.fst) := by
    rw [List.forall₂_map_left_iff, List.forall₂_map_right_iff]
    exact hrel.imp fun _ _ h => h.1
  rwa [heq, List.zipIdx_map_fst] at hfst

lemma mem_compactVerticalWork {layout : List WorkItem} {item : WorkItem} :
    item ∈ compactVerticalWork layout ↔
      ∃ k, (item, k) ∈ placeAll [] 0 (sortByRowCol layout.zipIdx) := by
  unfold compactVerticalWork
  simp [(List.mergeSort_perm _ _).mem_iff]

/-- What is placed of an item, beside the item. -/
lemma CleanWork.placed_pair {layout : List WorkItem} (h : CleanWork layout) {a a' : WorkItem}
    (ha : a ∈ layout) (ha' : a' ∈ compactVerticalWork layout) (hid : a'.i = a.i) :
    ∃ pair ∈ (placeAll [] 0 (sortByRowCol layout.zipIdx)).zip (sortByRowCol layout.zipIdx),
      pair.1.1 = a' ∧ pair.2.1 = a ∧ Lifted a' a := by
  obtain ⟨hlength, hlifted⟩ := List.forall₂_iff_zip.mp (placeAll_lifted h.clear)
  obtain ⟨k, hk⟩ := mem_compactVerticalWork.mp ha'
  rw [← List.map_fst_zip hlength.le] at hk
  obtain ⟨⟨out, original⟩, hpair, hout⟩ := List.mem_map.mp hk
  dsimp only at hout
  subst hout
  have hlift := (hlifted hpair).1
  have hmem := mem_sortByRowCol (List.of_mem_zip hpair).2
  have hoid : a'.i = original.1.i := congrArg (fun item => item.i) hlift.same
  have hsame := List.inj_on_of_nodup_map h.ids hmem ha (hoid.symm.trans hid)
  exact ⟨_, hpair, rfl, hsame, hsame ▸ hlift⟩

/-- Compaction keeps what is above an item above it. -/
lemma CleanWork.compact_above {layout : List WorkItem} (h : CleanWork layout)
    {a b a' b' : WorkItem} (ha : a ∈ layout) (hb : b ∈ layout)
    (ha' : a' ∈ compactVerticalWork layout) (hb' : b' ∈ compactVerticalWork layout)
    (haid : a'.i = a.i) (hbid : b'.i = b.i) (hcolumns : sameColumns a.toGridItem b.toGridItem)
    (habove : a.y + a.h ≤ b.y) : a'.y + a'.h ≤ b'.y := by
  have hheight := h.tall a ha
  have hheight' := h.tall b hb
  obtain ⟨pa, hpa, hpaout, hpaitem, halift⟩ := h.placed_pair ha ha' haid
  obtain ⟨pb, hpb, hpbout, hpbitem, hblift⟩ := h.placed_pair hb hb' hbid
  obtain ⟨-, hpairs⟩ := placeAll_above h.clear (by simp)
    (fun item hitem => h.tall item.1 (mem_sortByRowCol hitem)) (by simp)
    (sortByRowCol_ids h.ids)
  rw [List.pairwise_iff_getElem] at hpairs
  obtain ⟨i, hi, rfl⟩ := List.getElem_of_mem hpa
  obtain ⟨j, hj, rfl⟩ := List.getElem_of_mem hpb
  rcases lt_trichotomy i j with hlt | heq | hlt
  · have hcolumns' : sameColumns a'.toGridItem b'.toGridItem := by
      rw [halift.same, hblift.same]
      exact hcolumns
    have hab := (hpairs i j hi hj hlt).1
    rw [hpaout, hpbout] at hab
    exact hab hcolumns'
  · subst heq
    rw [← hpaitem, hpbitem] at habove
    omega
  · have hba := (hpairs j i hj hi hlt).2
    rw [hpaitem, hpbitem] at hba
    have hrow := hba (sameColumns_comm.mp hcolumns)
    omega

/-! ### Boards -/

lemma placeAll_nonneg {placed : List WorkItem} {maxY : ℤ} {below : List (WorkItem × ℕ)} :
    ∀ out ∈ placeAll placed maxY below, 0 ≤ out.1.y := by
  induction hlength : below.length generalizing placed maxY below with
  | zero =>
    rw [List.length_eq_zero_iff.mp hlength, placeAll]
    simp
  | succ n ih =>
    obtain ⟨⟨original, k⟩, below, rfl⟩ := List.exists_cons_of_length_eq_add_one hlength
    intro out hout
    rw [placeAll_eq] at hout
    dsimp only at hout
    rcases List.mem_cons.mp hout with rfl | hout
    · simp [ground]
    · refine ih ?_ out hout
      have hpushed := (settle placed (floatUp placed (start maxY original)) below).2.property.length
      rw [hpushed]
      simpa using hlength

lemma nonneg_compactVerticalWork {layout : List WorkItem} :
    ∀ item ∈ compactVerticalWork layout, 0 ≤ item.y := by
  intro item hitem
  unfold compactVerticalWork at hitem
  obtain ⟨out, hout, rfl⟩ := List.mem_map.mp hitem
  exact placeAll_nonneg out ((List.mergeSort_perm _ _).mem_iff.mp hout)

/-- Within the columns of the grid. -/
def InColumns (cols : ℤ) (item : GridItem) : Prop := 0 ≤ item.x ∧ item.x + item.w ≤ cols

lemma correctBounds_inColumns (cols : ℤ) (item : WorkItem) :
    InColumns cols (correctBounds cols item).toGridItem := by
  unfold correctBounds InColumns
  dsimp only
  split_ifs
  all_goals
    dsimp only
    omega

lemma correctBounds_same {cols : ℤ} {item : WorkItem} (h : InColumns cols item.toGridItem) :
    correctBounds cols item = item := by
  obtain ⟨hleft, hright⟩ := h
  have hx : (if cols < item.x + item.w then cols - item.w else item.x) = item.x :=
    if_neg (by omega)
  unfold correctBounds
  rw [hx]
  simp [hleft]

@[simp] lemma correctBounds_h (cols : ℤ) (item : WorkItem) :
    (correctBounds cols item).h = item.h := by
  unfold correctBounds
  dsimp only
  split <;> split <;> rfl

/-- A board as it is stored: ids of its own, no overlaps, inside the grid, no empty rows. -/
structure CleanBoard (cols : ℤ) (layout : Layout) : Prop where
  ids : (layout.map (·.i)).Nodup
  apart : layout.Pairwise fun a b => collides a b = false
  columns : ∀ item ∈ layout, InColumns cols item
  rows : ∀ item ∈ layout, 0 ≤ item.y
  tall : ∀ item ∈ layout, 1 ≤ item.h

section board
variable {cols : ℤ} {layout : Layout}

lemma CleanBoard.work (h : CleanBoard cols layout) : CleanWork (layout.map toWork) where
  ids := by
    rw [List.map_map]
    exact h.ids
  apart := by
    rw [List.pairwise_map]
    exact h.apart
  corner := by
    intro item hitem
    obtain ⟨original, horiginal, rfl⟩ := List.mem_map.mp hitem
    exact ⟨(h.columns original horiginal).1, h.rows original horiginal⟩
  tall := by
    intro item hitem
    obtain ⟨original, horiginal, rfl⟩ := List.mem_map.mp hitem
    exact h.tall original horiginal

lemma CleanBoard.correctBounds (h : CleanBoard cols layout) :
    (layout.map toWork).map (correctBounds cols) = layout.map toWork := by
  rw [List.map_map]
  refine List.map_congr_left fun item hitem => ?_
  exact correctBounds_same (h.columns item hitem)

/-- A layout that its working copy has not changed is handed back. -/
lemma finish_same (hids : (layout.map (·.i)).Nodup) : finish (layout.map toWork) layout = layout := by
  rw [finish_eq, List.map_map]
  refine (List.map_congr_left fun item hitem => ?_).trans (List.map_id layout)
  cases hfind : layout.reverse.find? fun other => other.i = item.i with
  | none =>
    have hnone := List.find?_eq_none.mp hfind item (List.mem_reverse.mpr hitem)
    simp at hnone
  | some original =>
    have hid := List.find?_some hfind
    have hmem := List.mem_reverse.mp (List.mem_of_find?_eq_some hfind)
    have hsame : original = item :=
      List.inj_on_of_nodup_map hids hmem hitem (of_decide_eq_true hid)
    subst hsame
    change fromWork (toWork original) (layout.reverse.find? fun other => other.i = original.i) = _
    rw [hfind, fromWork]
    split_ifs
    · rfl
    · rfl

/-- What packing makes of any layout with ids of its own and no empty rows. -/
lemma normalizeLayout_clean (cols : ℤ) (hids : (layout.map (·.i)).Nodup)
    (htall : ∀ item ∈ layout, 1 ≤ item.h) :
    let board := normalizeLayout layout cols .vertical
    CleanBoard cols board ∧ Packed board := by
  intro board
  let work := (layout.map toWork).map (Grid.correctBounds cols)
  have hboard : board = finish (compactVerticalWork work) layout := rfl
  have hpacked : Packed board := by
    rw [hboard, finish_eq]
    exact (compactVerticalWork_packed work).sameSpots fun item _ => fromWork_sameSpot item layout
  have hitems : ∀ item ∈ board, InColumns cols item ∧ 0 ≤ item.y ∧ 1 ≤ item.h := by
    intro item hitem
    rw [hboard, finish_eq] at hitem
    obtain ⟨out, hout, rfl⟩ := List.mem_map.mp hitem
    have hspot := fromWork_sameSpot out layout
    have hfixed := compactVerticalWork_fixed work
    rw [← List.map_map] at hfixed
    obtain ⟨left, hleft, heq⟩ := exists_fixed hfixed hout
    obtain ⟨bounded, hbounded, rfl⟩ := List.mem_map.mp hleft
    obtain ⟨working, hworking, rfl⟩ := List.mem_map.mp hbounded
    obtain ⟨original, horiginal, rfl⟩ := List.mem_map.mp hworking
    have hcolumns := correctBounds_inColumns cols (toWork original)
    have hx : out.x = max (Grid.correctBounds cols (toWork original)).x 0 :=
      congrArg (fun item => item.x) heq
    have hw : out.w = (Grid.correctBounds cols (toWork original)).w :=
      congrArg (fun item => item.w) heq
    have hh : out.h = (Grid.correctBounds cols (toWork original)).h :=
      congrArg (fun item => item.h) heq
    have hheight : (Grid.correctBounds cols (toWork original)).h = original.h := by
      simp [toWork]
    have hrow := nonneg_compactVerticalWork out hout
    have hthick := htall original horiginal
    rw [max_eq_left hcolumns.1] at hx
    refine ⟨⟨?_, ?_⟩, ?_, ?_⟩
    · rw [← hspot.x, hx]
      exact hcolumns.1
    · rw [← hspot.x, ← hspot.w, hx, hw]
      exact hcolumns.2
    · rw [← hspot.y]
      exact hrow
    · rw [← hspot.h, hh, hheight]
      exact hthick
  have hsame : board.map (·.i) = layout.map (·.i) := by
    have hwork : work.map (·.i) = layout.map (·.i) := by
      simp only [work, List.map_map]
      refine List.map_congr_left fun item _ => ?_
      simp [toWork]
    rw [hboard, finish_eq, ← hwork, ← ids_compactVerticalWork, List.map_map]
    refine List.map_congr_left fun item _ => ?_
    exact (fromWork_sameSpot item layout).i.symm
  exact ⟨⟨hsame ▸ hids, hpacked.apart, fun item hitem => (hitems item hitem).1,
    fun item hitem => (hitems item hitem).2.1, fun item hitem => (hitems item hitem).2.2⟩, hpacked⟩

lemma CleanBoard.compact_same (h : CleanBoard cols layout) (hpacked : Packed layout) :
    compactVerticalWork (layout.map toWork) = layout.map toWork := by
  have hback : (layout.map toWork).map WorkItem.toGridItem = layout := by
    rw [List.map_map]
    exact List.map_id layout
  refine h.work.compact_resting ?_ ?_
  · intro item hitem
    obtain ⟨original, -, rfl⟩ := List.mem_map.mp hitem
    rfl
  · intro item hitem
    obtain ⟨original, horiginal, rfl⟩ := List.mem_map.mp hitem
    rw [hback]
    exact hpacked.rests original horiginal

end board

/-- Packing a packed board changes nothing, and packing a clean one lifts its tiles without moving
them sideways or resizing them. -/
theorem packing_idempotent_only_lifts (cols : ℤ) (layout : Layout)
    (hids : (layout.map (·.i)).Nodup) (htall : ∀ item ∈ layout, 1 ≤ item.h) :
    let board := normalizeLayout layout cols .vertical
    compact board .vertical = board ∧ normalizeLayout board cols .vertical = board ∧
    (layout.Pairwise (fun a b => collides a b = false) →
      (∀ item ∈ layout, InColumns cols item ∧ 0 ≤ item.y) →
      List.Forall₂ (fun out item => out.i = item.i ∧ out.x = item.x ∧ out.w = item.w ∧
        out.h = item.h ∧ out.y ≤ item.y) board layout) := by
  intro board
  obtain ⟨hclean, hpacked⟩ := normalizeLayout_clean cols hids htall
  have hsame := hclean.compact_same hpacked
  refine ⟨?_, ?_, ?_⟩
  · unfold compact compactWork
    dsimp only
    rw [hsame, finish_same hclean.ids]
  · change finish (compactVerticalWork ((board.map toWork).map (correctBounds cols))) board = board
    rw [hclean.correctBounds, hsame, finish_same hclean.ids]
  · intro hapart hinside
    have hlayout : CleanBoard cols layout := ⟨hids, hapart, fun item hitem =>
      (hinside item hitem).1, fun item hitem => (hinside item hitem).2, htall⟩
    have hlifted := hlayout.work.compact_lifted
    change List.Forall₂ _
      (finish (compactVerticalWork ((layout.map toWork).map (correctBounds cols))) layout) layout
    rw [hlayout.correctBounds, finish_eq, List.forall₂_map_left_iff]
    rw [List.forall₂_map_right_iff] at hlifted
    refine hlifted.imp fun out item h => ?_
    have hspot := fromWork_sameSpot out layout
    have hsame := h.same
    refine ⟨?_, ?_, ?_, ?_, ?_⟩
    · rw [← hspot.i]
      exact congrArg (fun item => item.i) hsame
    · rw [← hspot.x]
      exact congrArg (fun item => item.x) hsame
    · rw [← hspot.w]
      exact congrArg (fun item => item.w) hsame
    · rw [← hspot.h]
      exact congrArg (fun item => item.h) hsame
    · rw [← hspot.y]
      exact h.lifted

/-- A clean board with a hole above its second tile. -/
theorem packing_idempotent_only_lifts_hole :
    let layout : Layout := [
      { i := "a", x := 0, y := 0, w := 2, h := 1 }, { i := "b", x := 1, y := 4, w := 2, h := 3 }]
    let board := normalizeLayout layout 4 .vertical
    compact board .vertical = board ∧ List.Forall₂ (fun out item => out.i = item.i ∧
      out.x = item.x ∧ out.w = item.w ∧ out.h = item.h ∧ out.y ≤ item.y) board layout := by
  intro layout board
  have hpacking := packing_idempotent_only_lifts 4 layout (by decide) (by decide)
  have hinside : ∀ item ∈ layout, InColumns 4 item ∧ 0 ≤ item.y := by
    simp [layout, InColumns]
  exact ⟨hpacking.1, hpacking.2.2 (by decide) hinside⟩

end Maple.Grid
