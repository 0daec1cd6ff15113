import Maple.GridFloor

/-! Keyboard moves: a nudge reaches further until the packed board differs, which it does unless
the item is at the edge it is nudged to. -/

namespace Maple.Grid

/-- The lowest occupied row. -/
def bottom (layout : Layout) : ℤ :=
  layout.foldl (fun max item => Max.max max (item.y + item.h)) 0

/-- The nudges of `step` cells and more, up to `limit`. -/
def nudgeFrom (layout : Layout) (item : GridItem) (dx dy cols limit step : ℤ) : Layout :=
  if step ≤ limit then
    let target := clampPosition item (item.x + dx * step) (item.y + dy * step) cols
    if target.1 = item.x ∧ target.2 = item.y then layout
    else
      let next := moveItem layout item.i target.1 target.2
      if !sameLayout next layout then next
      else nudgeFrom layout item dx dy cols limit (step + 1)
  else layout
termination_by (limit + 1 - step).toNat
decreasing_by
  omega

def nudgeItem (layout : Layout) (id : String) (dx dy cols : ℤ) : Layout :=
  match layout.find? fun candidate => candidate.i = id with
  | none => layout
  | some item =>
    let limit := if dy = 0 then cols else bottom layout + 1
    nudgeFrom layout item dx dy cols limit 1

inductive Direction
  | left
  | right
  | up
  | down
deriving DecidableEq, Repr

def Direction.dx : Direction → ℤ
  | .left => -1
  | .right => 1
  | .up => 0
  | .down => 0

def Direction.dy : Direction → ℤ
  | .left => 0
  | .right => 0
  | .up => -1
  | .down => 1

/-- The item is at the edge it is nudged to; downwards, no other item of its columns is below. -/
def AtEdge (cols : ℤ) (layout : Layout) (item : GridItem) : Direction → Prop
  | .left => item.x = 0
  | .right => item.x + item.w = cols
  | .up => item.y = 0
  | .down => ∀ other ∈ layout, other.i ≠ item.i → sameColumns item other →
      other.y < item.y + item.h

/-- What packing makes of a stored layout: clean, inside the grid, and resting. -/
structure Normalized (cols : ℤ) (layout : Layout) : Prop
    extends CleanBoard cols layout, Packed layout where
  wide : ∀ item ∈ layout, 1 ≤ item.w

/-! ### Layouts that differ -/

lemma find_id_iff {layout : Layout} (hids : (layout.map (·.i)).Nodup) (id : String)
    (item : GridItem) :
    layout.find? (fun candidate => candidate.i = id) = some item ↔
      item ∈ layout ∧ item.i = id := by
  constructor
  · intro hfind
    have hid := List.find?_some hfind
    exact ⟨List.mem_of_find?_eq_some hfind, of_decide_eq_true hid⟩
  · intro ⟨hitem, hid⟩
    cases hfind : layout.find? fun candidate => candidate.i = id with
    | none =>
      have hnone := List.find?_eq_none.mp hfind item hitem
      exact absurd (decide_eq_true hid) hnone
    | some found =>
      have hfid := List.find?_some hfind
      have hmem := List.mem_of_find?_eq_some hfind
      have hsame := List.inj_on_of_nodup_map hids hmem hitem
        ((of_decide_eq_true hfid).trans hid.symm)
      rw [hsame]

lemma nodup_reverse {layout : Layout} (hids : (layout.map (·.i)).Nodup) :
    (layout.reverse.map (·.i)).Nodup := by
  rw [List.map_reverse, List.nodup_reverse]
  exact hids

/-- Some item of `layout` is in another box in `next`. -/
def Differs (next layout : Layout) : Prop :=
  ∃ item ∈ layout, ∃ other ∈ next, other.i = item.i ∧ sameBox item other = false

lemma sameLayout_of_differs {next layout : Layout} (hids : (layout.map (·.i)).Nodup)
    (h : Differs next layout) : sameLayout next layout = false := by
  obtain ⟨item, hitem, other, hother, hid, hbox⟩ := h
  have hfind : layout.reverse.find? (fun o => o.i = other.i) = some item :=
    (find_id_iff (nodup_reverse hids) other.i item).mpr ⟨List.mem_reverse.mpr hitem, hid.symm⟩
  simp only [sameLayout, decide_eq_false_iff_not, not_or, not_and, List.all_eq_true]
  constructor
  · intro heq
    rw [heq] at hother
    have hsame := List.inj_on_of_nodup_map hids hother hitem hid
    rw [hsame] at hbox
    simp [sameBox] at hbox
  · intro hlength hall
    have hother' := hall other hother
    rw [hfind] at hother'
    simp [hbox] at hother'

lemma differs_of_sameLayout {next layout : Layout} (hids : (layout.map (·.i)).Nodup)
    (hsame : next.map (·.i) = layout.map (·.i)) (h : sameLayout next layout = false) :
    Differs next layout := by
  by_contra hdiffers
  simp only [sameLayout, decide_eq_false_iff_not, not_or, not_and, List.all_eq_true] at h
  refine h.2 (by simpa using congrArg List.length hsame) ?_
  intro other hother
  have hid : other.i ∈ layout.map (·.i) := hsame ▸ List.mem_map_of_mem hother
  obtain ⟨item, hitem, hid⟩ := List.mem_map.mp hid
  rw [(find_id_iff (nodup_reverse hids) other.i item).mpr ⟨List.mem_reverse.mpr hitem, hid⟩]
  by_contra hbox
  exact hdiffers ⟨item, hitem, other, hother, hid.symm, by simpa using hbox⟩

/-! ### The search for a step that changes the board -/

section nudge
variable {layout : Layout} {item : GridItem} {dx dy cols : ℤ}

/-- The cell a nudge of `step` cells asks for. -/
def target (item : GridItem) (dx dy cols step : ℤ) : ℤ × ℤ :=
  clampPosition item (item.x + dx * step) (item.y + dy * step) cols

/-- A step that changes the board ends the search, unless one before it has. -/
lemma nudgeFrom_changes {limit step : ℤ} (reach : ℤ) (hstep : step ≤ reach)
    (hreach : reach ≤ limit)
    (hleaves : ∀ s, step ≤ s → s ≤ reach → target item dx dy cols s ≠ (item.x, item.y))
    (hchanges : sameLayout (moveItem layout item.i (target item dx dy cols reach).1
      (target item dx dy cols reach).2) layout = false) :
    ∃ s, nudgeFrom layout item dx dy cols limit step = moveItem layout item.i
        (target item dx dy cols s).1 (target item dx dy cols s).2 ∧
      sameLayout (nudgeFrom layout item dx dy cols limit step) layout = false := by
  fun_induction nudgeFrom layout item dx dy cols limit step with
  | case1 step hle target' hown =>
    exact absurd (Prod.ext hown.1 hown.2) (hleaves step le_rfl hstep)
  | case2 step hle target' hown next hnext =>
    exact ⟨step, rfl, by simpa using hnext⟩
  | case3 step hle target' hown next hnext ih =>
    have hne : step ≠ reach := by
      intro heq
      subst heq
      apply hnext
      have hchanges' : sameLayout next layout = false := hchanges
      simp [hchanges']
    apply ih
    · omega
    · intro s hs
      exact hleaves s (by omega)
  | case4 step hle => omega

lemma nudgeItem_changes (hids : (layout.map (·.i)).Nodup) (hitem : item ∈ layout) (reach : ℤ)
    (hstep : 1 ≤ reach) (hreach : reach ≤ if dy = 0 then cols else bottom layout + 1)
    (hleaves : ∀ s, 1 ≤ s → s ≤ reach → target item dx dy cols s ≠ (item.x, item.y))
    (hchanges : sameLayout (moveItem layout item.i (target item dx dy cols reach).1
      (target item dx dy cols reach).2) layout = false) :
    ∃ s, nudgeItem layout item.i dx dy cols = moveItem layout item.i
        (target item dx dy cols s).1 (target item dx dy cols s).2 ∧
      sameLayout (nudgeItem layout item.i dx dy cols) layout = false := by
  unfold nudgeItem
  rw [(find_id_iff hids item.i item).mpr ⟨hitem, rfl⟩]
  exact nudgeFrom_changes reach hstep hreach hleaves hchanges

end nudge

lemma le_foldl_bottom (layout : Layout) (start : ℤ) :
    let low := layout.foldl (fun max item => Max.max max (item.y + item.h)) start
    start ≤ low ∧ ∀ item ∈ layout, item.y + item.h ≤ low := by
  induction layout generalizing start with
  | nil => simp
  | cons first layout ih =>
    obtain ⟨hstart, hrest⟩ := ih (max start (first.y + first.h))
    rw [List.foldl_cons]
    refine ⟨(le_max_left _ _).trans hstart, ?_⟩
    intro item hitem
    rcases List.mem_cons.mp hitem with rfl | hitem
    · exact (le_max_right _ _).trans hstart
    · exact hrest item hitem

lemma bottom_nonneg (layout : Layout) : 0 ≤ bottom layout := (le_foldl_bottom layout 0).1

lemma le_bottom {layout : Layout} {item : GridItem} (hitem : item ∈ layout) :
    item.y + item.h ≤ bottom layout := (le_foldl_bottom layout 0).2 item hitem

/-! ### One step of a drag -/

/-- What a drag leaves alone of an item, but for the dragged one's column. -/
structure Shape where
  i : String
  x : ℤ
  w : ℤ
  h : ℤ

def shape (item : GridItem) : Shape := ⟨item.i, item.x, item.w, item.h⟩

def Shape.column (id : String) (x : ℤ) (s : Shape) : Shape :=
  if s.i = id then { s with x } else s

@[simp] lemma shape_h (item : GridItem) : (shape item).h = item.h := rfl

@[simp] lemma Shape.column_h (id : String) (x : ℤ) (s : Shape) : (Shape.column id x s).h = s.h := by
  unfold Shape.column
  split_ifs <;> rfl

lemma Shape.column_column (id : String) (x : ℤ) (s : Shape) :
    Shape.column id x (Shape.column id x s) = Shape.column id x s := by
  unfold Shape.column
  split_ifs with hid
  · rfl
  · rfl

lemma SameSpot.shape {a b : GridItem} (h : SameSpot a b) : Grid.shape a = Grid.shape b := by
  unfold Grid.shape
  rw [h.i, h.x, h.w, h.h]

lemma shapes_of_fixed {work work' : List WorkItem} (h : work.map fixed = work'.map fixed) :
    work.map (fun item => shape item.toGridItem) =
      work'.map fun item => shape item.toGridItem := by
  have hmap := congrArg (List.map fun item : WorkItem => shape item.toGridItem) h
  rw [List.map_map, List.map_map] at hmap
  exact hmap

lemma shapes_compact {work : List WorkItem} (hx : ∀ item ∈ work, 0 ≤ item.x) (input : Layout) :
    (finish (compactVerticalWork work) input).map shape =
      work.map fun item => shape item.toGridItem := by
  have hleft : work.map leftBound = work := by
    rw [List.map_congr_left (g := id) fun item hitem => by
      simp [leftBound, max_eq_left (hx item hitem)], List.map_id]
  have hfixed := compactVerticalWork_fixed work
  rw [← List.map_map, hleft] at hfixed
  rw [← shapes_of_fixed hfixed, finish_eq, List.map_map]
  exact List.map_congr_left fun item _ => (fromWork_sameSpot item input).shape.symm

section step
variable {cols x y : ℤ} {layout : Layout} {item : GridItem}

/-- The step on an item of the layout, which is found under its id. -/
lemma moveStep_eq (hids : (layout.map (·.i)).Nodup) (hitem : item ∈ layout) (x y : ℤ) :
    ∃ k, layout[k]? = some item ∧ moveStep layout item.i x y =
      finish (compactVerticalWork (moveElement (layout.map toWork) k (toWork item) x y))
        layout := by
  let k := (layout.map toWork).findIdx fun candidate => candidate.i = item.i
  have hlt : k < (layout.map toWork).length :=
    List.findIdx_lt_length_of_exists ⟨toWork item, List.mem_map_of_mem hitem, by simp [toWork]⟩
  have hk : (layout.map toWork)[k]? = some (layout.map toWork)[k] := List.getElem?_eq_getElem hlt
  obtain ⟨original, horiginal, hwork, hid⟩ := exists_target hk
  have hsame := List.inj_on_of_nodup_map hids horiginal hitem hid
  rw [hsame] at hwork
  rw [hwork] at hk
  refine ⟨k, ?_, ?_⟩
  · rw [List.getElem?_map] at hk
    obtain ⟨found, hfound, heq⟩ := Option.map_eq_some_iff.mp hk
    have hback := congrArg WorkItem.toGridItem heq
    rw [hfound]
    exact congrArg some hback
  · unfold moveStep
    simp only [k] at hk
    simp only [hk]
    rfl

lemma shapes_set {k : ℕ} (hids : (layout.map (·.i)).Nodup) (hk : layout[k]? = some item)
    (x : ℤ) :
    ((layout.map toWork).set k { toWork item with x }).map (fun item => shape item.toGridItem) =
      (layout.map shape).map (Shape.column item.i x) := by
  have hlt := (List.getElem?_eq_some_iff.mp hk).1
  apply List.ext_getElem?
  intro j
  by_cases hj : k = j
  · subst hj
    rw [List.getElem?_map, List.getElem?_set_self (by simpa using hlt), List.getElem?_map,
      List.getElem?_map, hk]
    simp [Shape.column, shape, toWork]
  · rw [List.getElem?_map, List.getElem?_set_ne hj]
    cases hother : layout[j]? with
    | none => simp [hother]
    | some other =>
      have hne : other.i ≠ item.i := by
        intro hid
        have hsame := List.inj_on_of_nodup_map hids (List.mem_of_getElem? hother)
          (List.mem_of_getElem? hk) hid
        rw [hsame, ← hk] at hother
        exact hj ((List.getElem?_inj hlt (List.Nodup.of_map _ hids)).mp hother.symm)
      simp [hother, Shape.column, shape, toWork, hne]

lemma moveStep_shapes (h : Normalized cols layout) (hitem : item ∈ layout) (hx : 0 ≤ x) (y : ℤ) :
    (moveStep layout item.i x y).map shape = (layout.map shape).map (Shape.column item.i x) := by
  obtain ⟨k, hk, hstep⟩ := moveStep_eq h.ids hitem x y
  have hk' : (layout.map toWork)[k]? = some (toWork item) := by simp [hk]
  have hfixed := moveElement_fixed _ k (toWork item) x y hk'
  have hcolumns : ∀ other ∈ moveElement (layout.map toWork) k (toWork item) x y,
      0 ≤ other.x := by
    intro other hother
    rcases exists_of_mem_set hfixed hother with ⟨a, ha, heq⟩ | heq
    · have hax : other.x = a.x := congrArg (fun item => item.x) heq
      rw [hax]
      exact (h.columns a ha).1
    · have hax : other.x = x := congrArg (fun item => item.x) heq
      rwa [hax]
  rw [hstep, shapes_compact hcolumns, shapes_of_fixed hfixed, shapes_set h.ids hk]

lemma moveStep_normalized (h : Normalized cols layout) (hitem : item ∈ layout)
    (hx : InColumns cols { item with x }) (y : ℤ) :
    Normalized cols (moveStep layout item.i x y) := by
  have hroom : Room cols item.i (fun item => { item with x }) layout := by
    intro other hother hid
    have hsame := List.inj_on_of_nodup_map h.ids hother hitem hid
    rw [hsame]
    exact ⟨hx.1, hx.2, h.wide item hitem⟩
  have hdrawable : Drawable cols layout := ⟨h.toPacked, h.columns⟩
  have hboard : Board cols (layout.map (·.i)) layout := ⟨hdrawable, rfl, h.wide⟩
  obtain ⟨hnext, -⟩ := moveStep_board hboard item.i x y hroom
  refine ⟨⟨?_, hnext.apart, hnext.inside, ?_, ?_⟩, hnext.rests, hnext.wide⟩
  · rw [hnext.ids]
    exact h.ids
  · intro out hout
    obtain ⟨k, -, hstep⟩ := moveStep_eq h.ids hitem x y
    rw [hstep, finish_eq] at hout
    obtain ⟨work, hwork, rfl⟩ := List.mem_map.mp hout
    rw [← (fromWork_sameSpot work layout).y]
    exact nonneg_compactVerticalWork work hwork
  · intro out hout
    have hshape : shape out ∈ (layout.map shape).map (Shape.column item.i x) := by
      rw [← moveStep_shapes h hitem hx.1 y]
      exact List.mem_map_of_mem hout
    rw [List.map_map] at hshape
    obtain ⟨other, hother, heq⟩ := List.mem_map.mp hshape
    have hh : out.h = other.h := by
      rw [← shape_h out, ← heq]
      simp
    rw [hh]
    exact h.tall other hother

/-- An item that is in the cell asked for stays there, and so does the rest. -/
lemma moveStep_same (h : Normalized cols layout) (hitem : item ∈ layout) :
    moveStep layout item.i item.x item.y = layout := by
  obtain ⟨k, -, hstep⟩ := moveStep_eq h.ids hitem item.x item.y
  have hmove : moveElement (layout.map toWork) k (toWork item) item.x item.y =
      layout.map toWork := by
    unfold moveElement
    exact if_pos ⟨rfl, rfl⟩
  rw [hstep, hmove, h.toCleanBoard.compact_same h.toPacked, finish_same h.ids]

end step

/-! ### The layouts of a drag -/

lemma moveSteps_of {P : Layout → Prop} {id : String} {x y : ℤ}
    (hstep : ∀ current, P current → P (moveStep current id x y)) (steps : ℕ) {current : Layout}
    (h : P current) : P (moveSteps id x y current steps) := by
  induction steps generalizing current with
  | zero => exact h
  | succ steps ih =>
    simp only [moveSteps]
    split
    · exact h
    · exact ih (hstep current h)

/-- What holds after the first step of a drag and is kept by the next ones, holds at its end. -/
lemma moveItem_of {P : Layout → Prop} {layout : Layout} {id : String} {x y : ℤ}
    (hchanges : sameLayout (moveStep layout id x y) layout = false)
    (hfirst : P (moveStep layout id x y))
    (hstep : ∀ current, P current → P (moveStep current id x y)) :
    P (moveItem layout id x y) := by
  unfold moveItem
  rw [moveSteps]
  simp only [hchanges]
  exact moveSteps_of hstep _ hfirst

/-- A normalized layout with the items of `layout`, the dragged one moved to a column. -/
structure Dragged (cols : ℤ) (layout : Layout) (id : String) (x : ℤ) (current : Layout) : Prop
    extends Normalized cols current where
  shapes : current.map shape = (layout.map shape).map (Shape.column id x)

section drag
variable {cols x y : ℤ} {layout current : Layout} {item : GridItem}

lemma Dragged.ids_eq (h : Dragged cols layout item.i x current) :
    current.map (·.i) = layout.map (·.i) := by
  have hids := congrArg (List.map fun s : Shape => s.i) h.shapes
  rw [List.map_map, List.map_map, List.map_map] at hids
  refine hids.trans (List.map_congr_left fun other _ => ?_)
  simp only [Function.comp_apply, Shape.column]
  split_ifs <;> rfl

/-- The dragged item is still there. -/
lemma Dragged.found (h : Dragged cols layout item.i x current) (hitem : item ∈ layout) :
    ∃ out ∈ current, out.i = item.i ∧ out.x = x ∧ out.w = item.w ∧ out.h = item.h := by
  have hmem : Shape.column item.i x (shape item) ∈ current.map shape := by
    rw [h.shapes]
    exact List.mem_map_of_mem (List.mem_map_of_mem hitem)
  obtain ⟨out, hout, heq⟩ := List.mem_map.mp hmem
  simp only [shape, Shape.column, if_true, Shape.mk.injEq] at heq
  exact ⟨out, hout, heq⟩

lemma Dragged.first (h : Normalized cols layout) (hitem : item ∈ layout)
    (hx : InColumns cols { item with x }) (y : ℤ) :
    Dragged cols layout item.i x (moveStep layout item.i x y) :=
  ⟨moveStep_normalized h hitem hx y, moveStep_shapes h hitem hx.1 y⟩

lemma Dragged.step (h : Dragged cols layout item.i x current) (hitem : item ∈ layout)
    (hx : InColumns cols { item with x }) (y : ℤ) :
    Dragged cols layout item.i x (moveStep current item.i x y) := by
  obtain ⟨out, hout, hid, -, hw, -⟩ := h.found hitem
  have hx' : InColumns cols { out with x } := by
    unfold InColumns at hx ⊢
    rwa [hw]
  rw [← hid]
  refine ⟨moveStep_normalized h.toNormalized hout hx' y, ?_⟩
  rw [moveStep_shapes h.toNormalized hout hx'.1, h.shapes, hid, List.map_map, List.map_map,
    List.map_map]
  exact List.map_congr_left fun other _ => Shape.column_column _ _ _

/-- So are the others. -/
lemma Dragged.found_other (h : Dragged cols layout item.i x current) {other : GridItem}
    (hother : other ∈ layout) (hid : other.i ≠ item.i) :
    ∃ out ∈ current, shape out = shape other := by
  have hmem : Shape.column item.i x (shape other) ∈ current.map shape := by
    rw [h.shapes]
    exact List.mem_map_of_mem (List.mem_map_of_mem hother)
  obtain ⟨out, hout, heq⟩ := List.mem_map.mp hmem
  refine ⟨out, hout, heq.trans ?_⟩
  unfold Shape.column
  exact if_neg hid

lemma Dragged.source (h : Dragged cols layout item.i x current) {out : GridItem}
    (hout : out ∈ current) (hid : out.i ≠ item.i) : ∃ other ∈ layout, shape out = shape other := by
  have hmem : shape out ∈ (layout.map shape).map (Shape.column item.i x) := by
    rw [← h.shapes]
    exact List.mem_map_of_mem hout
  rw [List.map_map] at hmem
  obtain ⟨other, hother, heq⟩ := List.mem_map.mp hmem
  refine ⟨other, hother, ?_⟩
  simp only [Function.comp_apply, Shape.column] at heq
  split_ifs at heq with hoid
  · have hsame : (shape out).i = item.i := by
      rw [← heq]
      exact hoid
    exact absurd hsame hid
  · exact heq.symm

/-- An item is dragged from its own column at first. -/
lemma Dragged.start (h : Normalized cols layout) (hitem : item ∈ layout) :
    Dragged cols layout item.i item.x layout := by
  refine ⟨h, ?_⟩
  rw [List.map_map]
  refine List.map_congr_left fun other hother => ?_
  simp only [Function.comp_apply, Shape.column]
  split_ifs with hid
  · rw [List.inj_on_of_nodup_map h.ids hother hitem hid]
    rfl
  · rfl

/-- Sideways, the first step takes the item to its new column. -/
lemma moveItem_sideways (h : Normalized cols layout) (hitem : item ∈ layout)
    (hx : InColumns cols { item with x }) (hne : x ≠ item.x) (y : ℤ) :
    Dragged cols layout item.i x (moveItem layout item.i x y) ∧
      Differs (moveItem layout item.i x y) layout := by
  have hdiffers : ∀ current, Dragged cols layout item.i x current → Differs current layout := by
    intro current hcurrent
    obtain ⟨out, hout, hid, hcolumn, -⟩ := hcurrent.found hitem
    refine ⟨item, hitem, out, hout, hid, ?_⟩
    simp [sameBox, hcolumn, hne.symm]
  have hfirst := Dragged.first h hitem hx y
  have hdragged := moveItem_of (sameLayout_of_differs h.ids (hdiffers _ hfirst)) hfirst
    fun current hcurrent => hcurrent.step hitem hx y
  exact ⟨hdragged, hdiffers _ hdragged⟩

/-! ### Downwards -/

lemma not_collides_of_mem (h : layout.Pairwise fun a b => collides a b = false) {a b : GridItem}
    (ha : a ∈ layout) (hb : b ∈ layout) : collides a b = false := by
  rw [List.pairwise_iff_getElem] at h
  obtain ⟨i, hi, rfl⟩ := List.getElem_of_mem ha
  obtain ⟨j, hj, rfl⟩ := List.getElem_of_mem hb
  rcases lt_trichotomy i j with hlt | heq | hlt
  · exact h i j hi hj hlt
  · subst heq
    simp [collides]
  · rw [collides_comm]
    exact h j i hj hi hlt

/-- An item moved below all others meets none of them. -/
lemma moveElement_below {k : ℕ} (h : Normalized cols current) (hk : current[k]? = some item)
    (hlow : ∀ other ∈ current, other.i ≠ item.i → other.y + other.h ≤ y) :
    ∃ moved, moveElement (current.map toWork) k (toWork item) item.x y =
      (current.map toWork).set k { toWork item with y, moved } := by
  have hk' : (current.map toWork)[k]? = some (toWork item) := by simp [hk]
  unfold moveElement
  by_cases hsame : (toWork item).y = y ∧ (toWork item).x = item.x
  · refine ⟨false, ?_⟩
    have hback : ({ toWork item with y, moved := false } : WorkItem) = toWork item := by
      rw [← hsame.1]
      rfl
    have hget := (List.getElem?_eq_some_iff.mp hk').2
    rw [if_pos hsame, hback, ← hget, List.set_getElem_self]
  · refine ⟨true, ?_⟩
    rw [if_neg hsame]
    have hfree : ∀ reversed, collisions ((current.map toWork).set k
        { toWork item with y, moved := true }) { toWork item with y, moved := true } reversed =
          [] := by
      intro reversed
      rw [List.eq_nil_iff_forall_not_mem]
      intro j hj
      obtain ⟨other, hother, hcollides⟩ := mem_collisions.mp hj
      simp only [collides, decide_eq_true_eq] at hcollides
      have hmem := (mem_set_iff h.work.ids hk' _ other).mp (List.mem_of_getElem? hother)
      rcases hmem with rfl | ⟨hmem, hid⟩
      · exact hcollides.1 rfl
      · obtain ⟨original, horiginal, rfl⟩ := List.mem_map.mp hmem
        have hend : original.y + original.h ≤ y := hlow original horiginal hid
        have hrow : y < original.y + original.h := hcollides.2.2.2.1
        omega
    exact (congrArg (fun targets => (moveAwayFromCollisions _ true _ targets).val)
      (hfree _)).trans (by rw [moveAwayFromCollisions]; rfl)

/-- The working layout once the item is below all others. -/
lemma cleanWork_below {k : ℕ} (work : WorkItem) (h : Normalized cols current)
    (hk : current[k]? = some item) (hwork : fixed work = fixed (toWork item))
    (hrow : 0 ≤ work.y)
    (hlow : ∀ other ∈ current, other.i ≠ item.i → other.y + other.h ≤ work.y) :
    CleanWork ((current.map toWork).set k work) := by
  have hk' : (current.map toWork)[k]? = some (toWork item) := by simp [hk]
  have hitem := List.mem_of_getElem? hk
  have hmem := mem_set_iff h.work.ids hk' work
  have hx : work.x = item.x := congrArg (fun item => item.x) hwork
  have hh : work.h = item.h := congrArg (fun item => item.h) hwork
  have hfree : ∀ other ∈ current.map toWork, other.i ≠ item.i →
      collides other.toGridItem work.toGridItem = false := by
    intro other hother hid
    obtain ⟨original, horiginal, rfl⟩ := List.mem_map.mp hother
    have hend : (toWork original).y + (toWork original).h ≤ work.y := hlow original horiginal hid
    simp only [collides, decide_eq_false_iff_not]
    intro hcollides
    omega
  have hids : (((current.map toWork).set k work).map (·.i)).Nodup := by
    rw [fixed_ids (fixed_set hk' hwork)]
    exact h.work.ids
  constructor
  · exact hids
  · refine (List.pairwise_map.mp hids).imp_of_mem ?_
    intro a b ha hb hne
    rcases (hmem a).mp ha with hawork | ⟨hain, haid⟩
    · rcases (hmem b).mp hb with hbwork | ⟨hbin, hbid⟩
      · exact absurd (by rw [hawork, hbwork]) hne
      · rw [hawork, collides_comm]
        exact hfree b hbin hbid
    · rcases (hmem b).mp hb with hbwork | ⟨hbin, -⟩
      · rw [hbwork]
        exact hfree a hain haid
      · obtain ⟨a', ha', rfl⟩ := List.mem_map.mp hain
        obtain ⟨b', hb', rfl⟩ := List.mem_map.mp hbin
        exact not_collides_of_mem h.apart ha' hb'
  · intro a ha
    rcases (hmem a).mp ha with rfl | ⟨ha, -⟩
    · exact ⟨hx ▸ (h.columns item hitem).1, hrow⟩
    · exact h.work.corner a ha
  · intro a ha
    rcases (hmem a).mp ha with rfl | ⟨ha, -⟩
    · exact hh ▸ h.tall item hitem
    · exact h.work.tall a ha

lemma exists_lifted {work : List WorkItem} (h : CleanWork work) (input : Layout) {out : GridItem}
    (hout : out ∈ finish (compactVerticalWork work) input) :
    ∃ placed ∈ compactVerticalWork work, ∃ original ∈ work,
      SameSpot placed.toGridItem out ∧ Lifted placed original := by
  rw [finish_eq] at hout
  obtain ⟨placed, hplaced, rfl⟩ := List.mem_map.mp hout
  obtain ⟨hlength, hlifted⟩ := List.forall₂_iff_zip.mp h.compact_lifted
  have hmem := hplaced
  rw [← List.map_fst_zip hlength.le] at hmem
  obtain ⟨⟨first, original⟩, hpair, rfl⟩ := List.mem_map.mp hmem
  exact ⟨first, hplaced, original, (List.of_mem_zip hpair).2, fromWork_sameSpot first input,
    hlifted hpair⟩

lemma SameSpot.sameColumns {a a' b b' : GridItem} (ha : SameSpot a a') (hb : SameSpot b b') :
    Grid.sameColumns a b ↔ Grid.sameColumns a' b' := by
  simp [Grid.sameColumns, ha.x, ha.w, hb.x, hb.w]

lemma Lifted.sameColumns {a a' b b' : WorkItem} (ha : Lifted a' a) (hb : Lifted b' b) :
    Grid.sameColumns a'.toGridItem b'.toGridItem ↔ Grid.sameColumns a.toGridItem b.toGridItem := by
  rw [ha.same, hb.same]
  rfl

lemma Lifted.i {out original : WorkItem} (h : Lifted out original) : out.i = original.i :=
  congrArg (fun item => item.i) h.same

lemma Lifted.height {out original : WorkItem} (h : Lifted out original) : out.h = original.h :=
  congrArg (fun item => item.h) h.same

/-- An item moved below all others falls back under those of its columns, and lifts none down. -/
lemma moveStep_below (h : Normalized cols current) (hitem : item ∈ current) (hrow : 0 ≤ y)
    (hlow : ∀ other ∈ current, other.i ≠ item.i → other.y + other.h ≤ y) :
    ∀ other ∈ moveStep current item.i item.x y, other.i ≠ item.i →
      (∃ original ∈ current, original.i = other.i ∧
        other.y + other.h ≤ original.y + original.h) ∧
      ∀ out ∈ moveStep current item.i item.x y, out.i = item.i → sameColumns other out →
        other.y + other.h ≤ out.y := by
  obtain ⟨k, hk, hstep⟩ := moveStep_eq h.ids hitem item.x y
  obtain ⟨moved, hmove⟩ := moveElement_below h hk hlow
  have hclean := cleanWork_below { toWork item with y, moved } h hk rfl hrow hlow
  have hk' : (current.map toWork)[k]? = some (toWork item) := by simp [hk]
  have hmem := mem_set_iff h.work.ids hk' { toWork item with y, moved }
  rw [hstep, hmove]
  intro other hother hid
  obtain ⟨placed, hplaced, original, horiginal, hspot, hlift⟩ :=
    exists_lifted hclean current hother
  have hid' : original.i = other.i := hlift.i.symm.trans hspot.i
  have hsource : ∃ source ∈ current, original = toWork source := by
    rcases (hmem original).mp horiginal with heq | ⟨hin, -⟩
    · rw [heq] at hid'
      exact absurd hid'.symm hid
    · obtain ⟨source, hsource, heq⟩ := List.mem_map.mp hin
      exact ⟨source, hsource, heq.symm⟩
  obtain ⟨source, hsource, hwork⟩ := hsource
  have hy := hspot.y
  have hh := hspot.h
  constructor
  · have hle := hlift.lifted
    have hheight := hlift.height
    rw [hwork] at hid' hle hheight
    refine ⟨source, hsource, hid', ?_⟩
    change placed.y ≤ source.y at hle
    change placed.h = source.h at hheight
    omega
  · intro out hout houtid hcolumns
    obtain ⟨bottom, hbottom, dragged, hdragged, hspot', hlift'⟩ :=
      exists_lifted hclean current hout
    have hdid : dragged.i = item.i := hlift'.i.symm.trans (hspot'.i.trans houtid)
    have hdragged' : dragged = { toWork item with y, moved } := by
      rcases (hmem dragged).mp hdragged with heq | ⟨-, hne⟩
      · exact heq
      · exact absurd hdid hne
    have hcolumns' : sameColumns original.toGridItem dragged.toGridItem :=
      (hlift.sameColumns hlift').mp ((hspot.sameColumns hspot').mpr hcolumns)
    have hend : original.y + original.h ≤ dragged.y := by
      rw [hdragged', hwork]
      apply hlow source hsource
      intro hsid
      rw [hwork] at hid'
      exact hid (hid'.symm.trans hsid)
    have habove := hclean.compact_above horiginal hdragged hplaced hbottom hlift.i hlift'.i
      hcolumns' hend
    have hy' := hspot'.y
    omega

/-- Downwards, far enough below the board, an item ends under all those of its columns. -/
lemma moveItem_down (h : Normalized cols layout) (hitem : item ∈ layout)
    (hy : bottom layout ≤ y) {other : GridItem} (hother : other ∈ layout)
    (hid : other.i ≠ item.i) (hcolumns : sameColumns item other)
    (hbelow : item.y + item.h ≤ other.y) :
    Dragged cols layout item.i item.x (moveItem layout item.i item.x y) ∧
      Differs (moveItem layout item.i item.x y) layout := by
  let Low (current : Layout) : Prop := ∀ o ∈ current, o.i ≠ item.i → o.y + o.h ≤ bottom layout
  let Under (current : Layout) : Prop := ∀ o ∈ current, o.i ≠ item.i →
    ∀ out ∈ current, out.i = item.i → sameColumns o out → o.y + o.h ≤ out.y
  have hinside := h.columns item hitem
  have hstep : ∀ current, Dragged cols layout item.i item.x current ∧ Low current →
      (Dragged cols layout item.i item.x (moveStep current item.i item.x y) ∧
        Low (moveStep current item.i item.x y)) ∧ Under (moveStep current item.i item.x y) := by
    intro current ⟨hdragged, hlow⟩
    obtain ⟨out, hout, hoid, hcolumn, -⟩ := hdragged.found hitem
    have hbelow := moveStep_below hdragged.toNormalized hout
      ((bottom_nonneg layout).trans hy) fun o ho hne => by
        have hend := hlow o ho (hoid ▸ hne)
        omega
    rw [hoid, hcolumn] at hbelow
    refine ⟨⟨hdragged.step hitem hinside y, ?_⟩, fun o ho hne => (hbelow o ho hne).2⟩
    intro o ho hne
    obtain ⟨original, horiginal, hsame, hend⟩ := (hbelow o ho hne).1
    have hend' := hlow original horiginal (hsame ▸ hne)
    omega
  have hdiffers : ∀ current, Dragged cols layout item.i item.x current → Under current →
      Differs current layout := by
    intro current hdragged hunder
    obtain ⟨out, hout, hoid, hcolumn, hw, -⟩ := hdragged.found hitem
    obtain ⟨other', hother', hshape⟩ := hdragged.found_other hother hid
    simp only [shape, Shape.mk.injEq] at hshape
    obtain ⟨hsame, hox, how, hoh⟩ := hshape
    have hcolumns' : sameColumns other' out := by
      unfold sameColumns at hcolumns ⊢
      omega
    have hend := hunder other' hother' (hsame ▸ hid) out hout hoid hcolumns'
    have htall := h.tall item hitem
    have htall' := h.tall other hother
    by_cases hrow : other'.y = other.y
    · refine ⟨item, hitem, out, hout, hoid, ?_⟩
      have hne : item.y ≠ out.y := by omega
      simp [sameBox, hne]
    · refine ⟨other, hother, other', hother', hsame, ?_⟩
      have hne : other.y ≠ other'.y := fun heq => hrow heq.symm
      simp [sameBox, hne]
  obtain ⟨⟨hdragged, hlow⟩, hunder⟩ := hstep layout
    ⟨Dragged.start h hitem, fun o ho _ => le_bottom ho⟩
  have hlast := moveItem_of (P := fun current =>
      (Dragged cols layout item.i item.x current ∧ Low current) ∧ Under current)
    (sameLayout_of_differs h.ids (hdiffers _ hdragged hunder)) ⟨⟨hdragged, hlow⟩, hunder⟩
    fun current hcurrent => hstep current hcurrent.1
  exact ⟨hlast.1.1, hdiffers _ hlast.1.1 hlast.2⟩

/-! ### Upwards -/

/-- The layout with an item put in the first row, before anything is pushed out of its way. -/
lemma raised_start {k : ℕ} (h : Normalized cols current) (hk : current[k]? = some item) :
    Raised { toWork item with y := 0, moved := true }
      ((current.map toWork).set k { toWork item with y := 0, moved := true }) := by
  have hk' : (current.map toWork)[k]? = some (toWork item) := by simp [hk]
  have hlt := (List.getElem?_eq_some_iff.mp hk').1
  have hitem := List.mem_of_getElem? hk
  have hmem := mem_set_iff h.work.ids hk' { toWork item with y := 0, moved := true }
  have hwork : ∀ a ∈ (current.map toWork).set k { toWork item with y := 0, moved := true },
      a.i ≠ item.i → ∃ source ∈ current, a = toWork source := by
    intro a ha hid
    rcases (hmem a).mp ha with rfl | ⟨hin, -⟩
    · exact absurd rfl hid
    · obtain ⟨source, hsource, heq⟩ := List.mem_map.mp hin
      exact ⟨source, hsource, heq.symm⟩
  have hfixed : ((current.map toWork).set k { toWork item with y := 0, moved := true }).map fixed =
      (current.map toWork).map fixed := fixed_set hk' rfl
  refine ⟨⟨?_, ?_, ?_, ?_⟩, List.mem_set hlt _, rfl, rfl, ?_⟩
  · rw [fixed_ids hfixed]
    exact h.work.ids
  · intro a ha
    rcases (hmem a).mp ha with rfl | ⟨hin, -⟩
    · exact le_rfl
    · exact (h.work.corner a hin).2
  · intro a ha
    rcases (hmem a).mp ha with rfl | ⟨hin, -⟩
    · exact h.tall item hitem
    · exact h.work.tall a hin
  · intro a ha b hb haid hbid hne hzero hcolumns
    obtain ⟨a', ha', rfl⟩ := hwork a ha haid
    obtain ⟨b', hb', rfl⟩ := hwork b hb hbid
    have hapart := not_collides_of_mem h.apart ha' hb'
    have hrow := h.rows b' hb'
    have htall := h.tall b' hb'
    have hzero' : a'.y = 0 := hzero
    have hne' : a'.i ≠ b'.i := hne
    have hcolumns' : sameColumns a' b' := hcolumns
    simp only [collides, decide_eq_false_iff_not, not_and, not_lt] at hapart
    have hend := hapart hne' hcolumns'.1 hcolumns'.2
    change a'.h ≤ b'.y
    omega
  · intro q hq hmoved
    rcases (hmem q).mp hq with rfl | ⟨-, hid⟩
    · simp at hmoved
    · exact hid

/-- An item of the layout is in its first row. -/
def Top (id : String) (layout : Layout) : Prop := ∃ item ∈ layout, item.i = id ∧ item.y = 0

/-- Another item is in the first row over a column. -/
def Taken (id : String) (x : ℤ) (layout : Layout) : Prop :=
  ∃ item ∈ layout, item.i ≠ id ∧ item.y = 0 ∧ Covers item x

lemma mem_finish {work : List WorkItem} (input : Layout) {placed : WorkItem}
    (hplaced : placed ∈ work) :
    ∃ out ∈ finish work input, SameSpot placed.toGridItem out := by
  refine ⟨_, ?_, fromWork_sameSpot placed input⟩
  rw [finish_eq]
  exact List.mem_map_of_mem hplaced

/-- Moved up to the first row an item stays there, unless another one takes the row over its left
column; and where one has taken it already, the item stays there. -/
lemma moveStep_up (h : Normalized cols current) (hitem : item ∈ current) (hy : item.y ≠ 0) :
    (Top item.i (moveStep current item.i item.x 0) ∨
      Taken item.i item.x (moveStep current item.i item.x 0)) ∧
    (Taken item.i item.x current → Top item.i (moveStep current item.i item.x 0)) := by
  obtain ⟨k, hk, hstep⟩ := moveStep_eq h.ids hitem item.x 0
  have hk' : (current.map toWork)[k]? = some (toWork item) := by simp [hk]
  let dragged : WorkItem := { toWork item with y := 0, moved := true }
  let start := (current.map toWork).set k dragged
  let targets := collisions start dragged true
  let out := (moveAwayFromCollisions dragged true start targets).val
  have hrow := h.rows item hitem
  have hmove : moveElement (current.map toWork) k (toWork item) item.x 0 = out := by
    have hup : decide (0 ≤ (toWork item).y) = true := decide_eq_true hrow
    have hne : ¬((toWork item).y = 0 ∧ (toWork item).x = item.x) := fun hsame => hy hsame.1
    unfold moveElement
    rw [if_neg hne]
    simp only [hup]
    rfl
  have hraised : Raised dragged start := raised_start h hk
  have hway : InTheWay dragged start targets := by
    intro j hj q hq hmoved
    obtain ⟨q', hq', hcollides⟩ := mem_collisions.mp hj
    rwa [Option.some.inj (hq.symm.trans hq')]
  have hrun := hraised.run targets hway
  have hx : ∀ a ∈ out, 0 ≤ a.x := by
    intro a ha
    obtain ⟨b, hb, heq⟩ := exists_fixed
      ((moveAwayFromCollisions dragged true start targets).property.fixed.trans
        (fixed_set hk' rfl)) ha
    have hab : a.x = b.x := congrArg (fun item => item.x) heq
    rw [hab]
    exact (h.work.corner b hb).1
  rw [hstep, hmove]
  have htop : unmark dragged ∈ compactVerticalWork out →
      Top item.i (finish (compactVerticalWork out) current) := by
    intro hplaced
    obtain ⟨tile, htile, hspot⟩ := mem_finish current hplaced
    exact ⟨tile, htile, hspot.i.symm, hspot.y.symm⟩
  constructor
  · rcases hrun.compact hx with hplaced | ⟨other, -, hid, hzero, hcovers, hplaced⟩
    · exact Or.inl (htop hplaced)
    · right
      obtain ⟨tile, htile, hspot⟩ := mem_finish current hplaced
      refine ⟨tile, htile, hspot.i ▸ hid, hspot.y.symm.trans hzero, ?_⟩
      unfold Covers
      rw [← hspot.x, ← hspot.w]
      exact hcovers
  · intro ⟨taken, htaken, htid, htzero, htcovers⟩
    rcases hrun.compact hx with hplaced | ⟨other, hother, hid, hzero, hcovers, -⟩
    · exact htop hplaced
    · exfalso
      have hmem := mem_set_iff h.work.ids hk' dragged
      have huncovered : Uncovered dragged start := by
        intro a ha haid _ _
        rcases (hmem a).mp ha with rfl | ⟨hin, -⟩
        · exact absurd rfl haid
        · obtain ⟨source, -, rfl⟩ := List.mem_map.mp hin
          rfl
      have hcovered : Covered dragged start :=
        ⟨toWork taken, (hmem _).mpr (Or.inr ⟨List.mem_map_of_mem htaken, htid⟩), htid, htzero,
          htcovers, rfl⟩
      have hunmoved := hraised.run_uncovered targets hway (collisions_lowestFirst start dragged)
        (Or.inl hcovered) huncovered other hother hid hzero hcovers
      -- what has not been pushed is in the way of the dragged item, so it has been
      obtain ⟨j, hj⟩ := List.mem_iff_getElem?.mp hother
      have hj' := (moveAway_marks dragged true start targets).unmoved j other hj hunmoved
      have htall := hraised.floor.tall other (List.mem_of_getElem? hj')
      have htall' := hraised.floor.tall dragged hraised.mem
      have hwide : 1 ≤ dragged.w := h.wide item hitem
      have hcollides : collides other.toGridItem dragged.toGridItem = true := by
        have hdzero : dragged.y = 0 := rfl
        have hdx : dragged.x = item.x := rfl
        unfold Covers at hcovers
        simp only [collides, decide_eq_true_eq]
        exact ⟨hid, by omega, by omega, by omega, by omega⟩
      have htarget : j ∈ targets := mem_collisions.mpr ⟨other, hj', hcollides⟩
      have hmoved := moveAway_targets dragged true start targets j htarget other hj
      rw [hunmoved] at hmoved
      simp at hmoved

lemma Dragged.step_up (h : Dragged cols layout item.i item.x current) (hitem : item ∈ layout) :
    Dragged cols layout item.i item.x (moveStep current item.i item.x 0) ∧
      (Top item.i current → Top item.i (moveStep current item.i item.x 0)) ∧
      (Top item.i (moveStep current item.i item.x 0) ∨
        Taken item.i item.x (moveStep current item.i item.x 0)) ∧
      (Taken item.i item.x current → Top item.i (moveStep current item.i item.x 0)) := by
  have hinside : InColumns cols { item with x := item.x } := by
    obtain ⟨out, hout, -, hx, hw, -⟩ := h.found hitem
    have hcolumns := h.columns out hout
    unfold InColumns at hcolumns ⊢
    rwa [hx, hw] at hcolumns
  refine ⟨h.step hitem hinside 0, ?_⟩
  obtain ⟨out, hout, hid, hx, -⟩ := h.found hitem
  by_cases hzero : out.y = 0
  · have hsame := moveStep_same h.toNormalized hout
    have htop : Top item.i current := ⟨out, hout, hid, hzero⟩
    rw [hid, hx, hzero] at hsame
    rw [hsame]
    exact ⟨id, Or.inl htop, fun _ => htop⟩
  · have hup := moveStep_up h.toNormalized hout hzero
    rw [hid, hx] at hup
    refine ⟨?_, hup⟩
    intro ⟨tile, htile, htid, htzero⟩
    rw [List.inj_on_of_nodup_map h.ids htile hout (htid.trans hid.symm)] at htzero
    exact absurd htzero hzero

/-- Upwards as far as the first row, an item ends there, or another one over its left column. -/
lemma moveItem_up (h : Normalized cols layout) (hitem : item ∈ layout) (hy : item.y ≠ 0) :
    Dragged cols layout item.i item.x (moveItem layout item.i item.x 0) ∧
      Differs (moveItem layout item.i item.x 0) layout := by
  have hdiffers_top : ∀ current, Top item.i current → Differs current layout := by
    rintro current ⟨tile, htile, hid, hzero⟩
    refine ⟨item, hitem, tile, htile, hid, ?_⟩
    simp [sameBox, hzero, hy]
  obtain ⟨hfirst, -, heither, htop⟩ := (Dragged.start h hitem).step_up hitem
  by_cases htaken : Taken item.i item.x layout
  · have hlast := moveItem_of (P := fun current =>
        Dragged cols layout item.i item.x current ∧ Top item.i current)
      (sameLayout_of_differs h.ids (hdiffers_top _ (htop htaken))) ⟨hfirst, htop htaken⟩
      fun current h =>
        ⟨(h.1.step_up hitem).1, (h.1.step_up hitem).2.1 h.2⟩
    exact ⟨hlast.1, hdiffers_top _ hlast.2⟩
  · have hdiffers : ∀ current, Dragged cols layout item.i item.x current →
        Top item.i current ∨ Taken item.i item.x current → Differs current layout := by
      intro current hdragged hcurrent
      rcases hcurrent with hcurrent | ⟨tile, htile, hid, hzero, hcovers⟩
      · exact hdiffers_top current hcurrent
      · obtain ⟨other, hother, hshape⟩ := hdragged.source htile hid
        simp only [shape, Shape.mk.injEq] at hshape
        obtain ⟨hsame, hx, hw, -⟩ := hshape
        refine ⟨other, hother, tile, htile, hsame, ?_⟩
        have hne : other.y ≠ tile.y := by
          intro hrow
          apply htaken
          refine ⟨other, hother, hsame ▸ hid, hrow.trans hzero, ?_⟩
          unfold Covers at hcovers ⊢
          rwa [hx, hw] at hcovers
        simp [sameBox, hne]
    have hlast := moveItem_of (P := fun current =>
        Dragged cols layout item.i item.x current ∧
          (Top item.i current ∨ Taken item.i item.x current))
      (sameLayout_of_differs h.ids (hdiffers _ hfirst heither)) ⟨hfirst, heither⟩
      fun current h => ⟨(h.1.step_up hitem).1, (h.1.step_up hitem).2.2.1⟩
    exact ⟨hlast.1, hdiffers _ hlast.1 hlast.2⟩

end drag

/-! ### A nudge -/

section nudge
variable {cols : ℤ} {layout : Layout} {item : GridItem}

lemma target_inside (h : Normalized cols layout) (hitem : item ∈ layout) (dx dy step : ℤ) :
    InColumns cols { item with x := (target item dx dy cols step).1 } := by
  have hinside := h.columns item hitem
  have hfits := clampPosition_fits ⟨hinside.1, hinside.2, h.wide item hitem⟩
    (item.x + dx * step) (item.y + dy * step)
  exact ⟨hfits.left, hfits.right⟩

lemma target_sideways (h : Normalized cols layout) (hitem : item ∈ layout) (dx : ℤ)
    (hleft : 0 ≤ item.x + dx) (hright : item.x + dx + item.w ≤ cols) :
    target item dx 0 cols 1 = (item.x + dx, item.y) := by
  have hrow := h.rows item hitem
  simp only [target, clampPosition, clamp]
  ext
  · dsimp only
    omega
  · dsimp only
    omega

lemma target_vertical (h : Normalized cols layout) (hitem : item ∈ layout) (dy step : ℤ) :
    target item 0 dy cols step = (item.x, max 0 (item.y + dy * step)) := by
  have hinside := h.columns item hitem
  unfold InColumns at hinside
  simp only [target, clampPosition, clamp]
  ext
  · dsimp only
    omega
  · rfl

/-- A drag that changes the board leaves one that is packed, with the same items. -/
lemma moveItem_dragged (h : Normalized cols layout) (hitem : item ∈ layout) {x y : ℤ}
    (hx : InColumns cols { item with x })
    (hchanges : sameLayout (moveItem layout item.i x y) layout = false) :
    Dragged cols layout item.i x (moveItem layout item.i x y) := by
  cases hsame : sameLayout (moveStep layout item.i x y) layout with
  | true =>
    have hback : moveItem layout item.i x y = layout := by
      unfold moveItem
      rw [moveSteps]
      simp only [hsame, if_true]
    rw [hback] at hchanges
    simp [sameLayout] at hchanges
  | false =>
    exact moveItem_of hsame (Dragged.first h hitem hx y)
      fun current hcurrent => hcurrent.step hitem hx y

/-- How far a nudge reaches at most, and what it finds there. -/
lemma exists_reach (h : Normalized cols layout) (hitem : item ∈ layout) (direction : Direction)
    (hedge : ¬AtEdge cols layout item direction) :
    ∃ reach, 1 ≤ reach ∧ (reach ≤ if direction.dy = 0 then cols else bottom layout + 1) ∧
      (∀ s, 1 ≤ s → s ≤ reach →
        target item direction.dx direction.dy cols s ≠ (item.x, item.y)) ∧
      Differs (moveItem layout item.i (target item direction.dx direction.dy cols reach).1
        (target item direction.dx direction.dy cols reach).2) layout := by
  have hinside := h.columns item hitem
  have hwide := h.wide item hitem
  have hrow := h.rows item hitem
  have htall := h.tall item hitem
  have hbottom := le_bottom hitem
  unfold InColumns at hinside
  cases direction with
  | left =>
    have hx : item.x ≠ 0 := hedge
    have htarget := target_sideways h hitem (-1) (by omega) (by omega)
    have hcols : (1 : ℤ) ≤ cols := by omega
    refine ⟨1, le_rfl, hcols, ?_, ?_⟩
    · intro s hs hs'
      have hone : s = 1 := by omega
      rw [hone]
      simp only [Direction.dx, Direction.dy, htarget, ne_eq, Prod.mk.injEq, not_and]
      omega
    · simp only [Direction.dx, Direction.dy, htarget]
      exact (moveItem_sideways h hitem ⟨by dsimp only; omega, by dsimp only; omega⟩
        (by omega) item.y).2
  | right =>
    have hx : item.x + item.w ≠ cols := hedge
    have htarget := target_sideways h hitem 1 (by omega) (by omega)
    have hcols : (1 : ℤ) ≤ cols := by omega
    refine ⟨1, le_rfl, hcols, ?_, ?_⟩
    · intro s hs hs'
      have hone : s = 1 := by omega
      rw [hone]
      simp only [Direction.dx, Direction.dy, htarget, ne_eq, Prod.mk.injEq, not_and]
      omega
    · simp only [Direction.dx, Direction.dy, htarget]
      exact (moveItem_sideways h hitem ⟨by dsimp only; omega, by dsimp only; omega⟩
        (by omega) item.y).2
  | up =>
    have hy : item.y ≠ 0 := hedge
    have hlimit : item.y ≤ bottom layout + 1 := by omega
    refine ⟨item.y, by omega, hlimit, ?_, ?_⟩
    · intro s hs hs'
      simp only [Direction.dx, Direction.dy, target_vertical h hitem, ne_eq, Prod.mk.injEq,
        not_and]
      omega
    · have hzero : max 0 (item.y + -1 * item.y) = 0 := by omega
      simp only [Direction.dx, Direction.dy, target_vertical h hitem, hzero]
      exact (moveItem_up h hitem hy).2
  | down =>
    simp only [AtEdge] at hedge
    push Not at hedge
    obtain ⟨other, hother, hid, hcolumns, hbelow⟩ := hedge
    refine ⟨bottom layout + 1, by omega, le_rfl, ?_, ?_⟩
    · intro s hs hs'
      simp only [Direction.dx, Direction.dy, target_vertical h hitem, ne_eq, Prod.mk.injEq,
        not_and]
      omega
    · simp only [Direction.dx, Direction.dy, target_vertical h hitem]
      exact (moveItem_down h hitem (by omega) hother hid hcolumns hbelow).2

end nudge

/-- A nudge changes the board unless the item is at the edge it is nudged to, and leaves a board
that is packed, inside the grid and without overlaps. -/
theorem nudge_changes_unless_at_edge {cols : ℤ} {layout : Layout} (h : Normalized cols layout)
    {item : GridItem} (hitem : item ∈ layout) (direction : Direction)
    (hedge : ¬AtEdge cols layout item direction) :
    let next := nudgeItem layout item.i direction.dx direction.dy cols
    Differs next layout ∧ Drawable cols next ∧ next.map (·.i) = layout.map (·.i) := by
  intro next
  obtain ⟨reach, hone, hlimit, hleaves, hdiffers⟩ := exists_reach h hitem direction hedge
  obtain ⟨s, hnext, hchanges⟩ := nudgeItem_changes h.ids hitem reach hone hlimit hleaves
    (sameLayout_of_differs h.ids hdiffers)
  rw [hnext] at hchanges
  have hdragged := moveItem_dragged h hitem (target_inside h hitem _ _ s) hchanges
  have hids := hdragged.ids_eq
  have hnext' : next = _ := hnext
  rw [hnext']
  exact ⟨differs_of_sameLayout h.ids hids hchanges, ⟨hdragged.toPacked, hdragged.columns⟩, hids⟩

/-- The upper of two tiles nudged down, past the lower one. -/
theorem nudge_changes_unless_at_edge_down :
    let layout : Layout := [
      { i := "a", x := 0, y := 0, w := 6, h := 2 }, { i := "b", x := 0, y := 2, w := 6, h := 4 }]
    let next := nudgeItem layout "a" 0 1 12
    Differs next layout ∧ Drawable 12 next ∧ next.map (·.i) = layout.map (·.i) := by
  intro layout
  have hnormalized : Normalized 12 layout := by
    refine ⟨⟨by decide, by decide, ?_, by decide, by decide⟩, ?_, by decide⟩
    · simp [layout, InColumns]
    · simp [layout, RestsOn, sameColumns]
  have hedge : ¬AtEdge 12 layout { i := "a", x := 0, y := 0, w := 6, h := 2 } .down := by
    simp [layout, AtEdge, sameColumns]
  exact nudge_changes_unless_at_edge hnormalized (List.mem_cons_self ..) .down hedge

end Maple.Grid
