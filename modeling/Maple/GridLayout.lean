import Mathlib

/-! The layout engine of dashboard boards: vertical compaction, and the moves and resizes that push
neighbours out of the way before it. -/

namespace Maple.Grid

structure GridItem where
  i : String
  x : ℤ
  y : ℤ
  w : ℤ
  h : ℤ
  minW : Option ℤ := none
  maxW : Option ℤ := none
  minH : Option ℤ := none
  maxH : Option ℤ := none
deriving DecidableEq, Repr

abbrev Layout := List GridItem

structure WorkItem extends GridItem where
  moved : Bool
deriving DecidableEq, Repr

inductive Compaction
  | vertical
  | none
deriving DecidableEq, Repr

def toWork (item : GridItem) : WorkItem := { toGridItem := item, moved := false }

def sameBox (a b : GridItem) : Bool := a.x = b.x ∧ a.y = b.y ∧ a.w = b.w ∧ a.h = b.h

/-- The working item back as a `GridItem`, the original when its box is unchanged. -/
def fromWork (work : WorkItem) (original : Option GridItem) : GridItem :=
  match original with
  | some original => if sameBox original work.toGridItem then original else work.toGridItem
  | none => work.toGridItem

/-- `byId` keeps the last item of an id; the input is returned when nothing has changed. -/
def finish (work : List WorkItem) (input : Layout) : Layout :=
  let output := work.map fun item =>
    fromWork item (input.reverse.find? fun other => other.i = item.i)
  if output = input then input else output

def collides (a b : GridItem) : Bool :=
  a.i ≠ b.i ∧ b.x < a.x + a.w ∧ a.x < b.x + b.w ∧ b.y < a.y + a.h ∧ a.y < b.y + b.h

def firstCollision (layout : List WorkItem) (item : GridItem) : Option WorkItem :=
  layout.find? fun other => collides other.toGridItem item

def sortByRowCol (layout : List (WorkItem × ℕ)) : List (WorkItem × ℕ) :=
  layout.mergeSort fun a b => a.1.y < b.1.y || (a.1.y = b.1.y && a.1.x ≤ b.1.x)

/-- Pull items wider or further right than the grid back inside it. -/
def correctBounds (cols : ℤ) (item : WorkItem) : WorkItem :=
  let x := if cols < item.x + item.w then cols - item.w else item.x
  if x < 0 then { item with x := 0, w := cols } else { item with x }

/-! ### Compaction -/

/-- An item but for its row and its mark: what pushing it about leaves alone. -/
def fixed (item : WorkItem) : WorkItem := { item with y := 0, moved := false }

/-- The same items in the same order, pushed about. -/
def Pushed (out layout : List (WorkItem × ℕ)) : Prop :=
  out.map (Prod.map fixed id) = layout.map (Prod.map fixed id)

lemma Pushed.length {out layout : List (WorkItem × ℕ)} (h : Pushed out layout) :
    out.length = layout.length := by
  simpa using congrArg List.length h

lemma Pushed.cons {out layout : List (WorkItem × ℕ)} {a b : WorkItem} (k : ℕ)
    (hab : fixed a = fixed b) (h : Pushed out layout) :
    Pushed ((a, k) :: out) ((b, k) :: layout) := by
  unfold Pushed at h ⊢
  rw [List.map_cons, List.map_cons, h]
  simp [Prod.map, hab]

lemma Pushed.trans {a b c : List (WorkItem × ℕ)} (hab : Pushed a b) (hbc : Pushed b c) :
    Pushed a c := Eq.trans hab hbc

/-- Push what `item` meets further down the sorted list below `moveTo`, and what that meets. -/
def resolveCompactionCollision (item : WorkItem) (moveTo : ℤ) :
    (below : List (WorkItem × ℕ)) → { out : List (WorkItem × ℕ) // Pushed out below }
  | [] => ⟨[], rfl⟩
  | (other, k) :: rest =>
    if item.y + item.h < other.y then ⟨(other, k) :: rest, rfl⟩
    else if collides item.toGridItem other.toGridItem then
      let next := moveTo + item.h
      match resolveCompactionCollision { other with y := other.y + 1 } next rest with
      | ⟨pushed, hpushed⟩ =>
        let out := resolveCompactionCollision item moveTo pushed
        ⟨({ other with y := next }, k) :: out.val, Pushed.cons k rfl (out.property.trans hpushed)⟩
    else
      let out := resolveCompactionCollision item moveTo rest
      ⟨(other, k) :: out.val, Pushed.cons k rfl out.property⟩
termination_by below => below.length
decreasing_by
  · simp
  · have hlength := hpushed.length
    simp [hlength]
  · simp

/-- Float the item up to the first row or to the first collision. -/
def floatUp (placed : List WorkItem) (item : WorkItem) : WorkItem :=
  if 0 < item.y ∧ (firstCollision placed item.toGridItem).isNone then
    floatUp placed { item with y := item.y - 1 }
  else item
termination_by item.y.toNat
decreasing_by
  omega

lemma countP_below_lt {placed : List WorkItem} {item : GridItem} {collision : WorkItem}
    (h : firstCollision placed item = some collision) :
    placed.countP (fun other => collision.y + collision.h < other.y + other.h) <
      placed.countP (fun other => item.y < other.y + other.h) := by
  have hcollides := List.find?_some h
  have hmem := List.mem_of_find?_eq_some h
  have hlow : item.y < collision.y + collision.h := by
    simp [collides] at hcollides
    omega
  obtain ⟨before, after, rfl⟩ := List.append_of_mem hmem
  have hmono : ∀ others : List WorkItem,
      others.countP (fun other => collision.y + collision.h < other.y + other.h) ≤
        others.countP (fun other => item.y < other.y + other.h) := by
    intro others
    apply List.countP_mono_left
    intro other _ hother
    simp at hother ⊢
    omega
  have hbefore := hmono before
  have hafter := hmono after
  simp [List.countP_append, hlow]
  omega

/-- Push the item below what it collides with until it collides with nothing. -/
def settle (placed : List WorkItem) (item : WorkItem) (below : List (WorkItem × ℕ)) :
    WorkItem × { out : List (WorkItem × ℕ) // Pushed out below } :=
  match h : firstCollision placed item.toGridItem with
  | none => (item, ⟨below, rfl⟩)
  | some collision =>
    let moveTo := collision.y + collision.h
    match resolveCompactionCollision { item with y := item.y + 1 } moveTo below with
    | ⟨pushed, hpushed⟩ =>
      let (item', out) := settle placed { item with y := moveTo } pushed
      (item', ⟨out.val, out.property.trans hpushed⟩)
termination_by placed.countP fun other => item.y < other.y + other.h
decreasing_by
  exact countP_below_lt h

/-- Place the items of the sorted list one after the other. -/
def placeAll (placed : List WorkItem) (maxY : ℤ) : List (WorkItem × ℕ) → List (WorkItem × ℕ)
  | [] => []
  | (original, k) :: below =>
    let item := { original with x := max original.x 0, y := min maxY (max original.y 0) }
    match settle placed (floatUp placed item) below with
    | (item, ⟨below', hbelow⟩) =>
      let item := { item with y := max item.y 0, moved := false }
      (item, k) :: placeAll (placed ++ [item]) (max maxY (item.y + item.h)) below'
termination_by below => below.length
decreasing_by
  have hlength := hbelow.length
  simp [hlength]

/-- Each placed copy at the index of its original. -/
def compactVerticalWork (layout : List WorkItem) : List WorkItem :=
  let out := placeAll [] 0 (sortByRowCol layout.zipIdx)
  (out.mergeSort fun a b => a.2 ≤ b.2).map Prod.fst

def compactWork (layout : List WorkItem) : Compaction → List WorkItem
  | .vertical => compactVerticalWork layout
  | .none => layout

def compact (layout : Layout) (compaction : Compaction) : Layout :=
  finish (compactWork (layout.map toWork) compaction) layout

/-- What the grid draws, whatever was stored. -/
def normalizeLayout (layout : Layout) (cols : ℤ) (compaction : Compaction) : Layout :=
  finish (compactWork ((layout.map toWork).map (correctBounds cols)) compaction) layout

/-! ### Editing -/

/-- The indices of what collides with item `k`, in the order it is visited: nearest first when the
item has moved up. -/
def collisions (layout : List WorkItem) (item : WorkItem) (reversed : Bool) : List ℕ :=
  let sorted := sortByRowCol layout.zipIdx
  let sorted := if reversed then sorted.reverse else sorted
  (sorted.filter fun other => collides other.1.toGridItem item.toGridItem).map Prod.snd

/-- The row an item is moved to by another one: above it when nothing is in the way there and a
user has moved the other, else one row down. -/
def awayY (layout : List WorkItem) (collidesWith itemToMove : WorkItem) (isUserAction : Bool) : ℤ :=
  if isUserAction then
    let fake : GridItem :=
      { i := "-1"
        x := itemToMove.x
        y := max (collidesWith.y - itemToMove.h) 0
        w := itemToMove.w
        h := itemToMove.h }
    match firstCollision layout fake with
    | none => fake.y
    | some first =>
      if collidesWith.y < first.y + first.h then itemToMove.y + 1 else itemToMove.y + 1
  else itemToMove.y + 1

def unmoved (layout : List WorkItem) : ℕ := layout.countP fun item => !item.moved

/-- The same items in the same order, pushed about; none is unmarked. -/
structure Displaced (out layout : List WorkItem) : Prop where
  fixed : out.map fixed = layout.map fixed
  unmoved : unmoved out ≤ unmoved layout

lemma unmoved_set {layout : List WorkItem} {j : ℕ} {item other : WorkItem}
    (h : layout[j]? = some other) (hother : other.moved = false) (hitem : item.moved = true) :
    unmoved (layout.set j item) < unmoved layout := by
  induction layout generalizing j with
  | nil => simp at h
  | cons first layout ih =>
    cases j with
    | zero =>
      simp at h
      simp [unmoved, h, hother, hitem]
    | succ j =>
      have hrest := ih (j := j) (by simpa using h)
      simp only [unmoved, List.set_cons_succ, List.countP_cons] at hrest ⊢
      omega

lemma fixed_set {layout : List WorkItem} {j : ℕ} {item other : WorkItem}
    (h : layout[j]? = some other) (hfixed : fixed item = fixed other) :
    (layout.set j item).map fixed = layout.map fixed := by
  induction layout generalizing j with
  | nil => simp at h
  | cons first layout ih =>
    cases j with
    | zero =>
      simp at h
      simp [h, hfixed]
    | succ j => simpa using ih (j := j) (by simpa using h)

lemma Displaced.trans {a b c : List WorkItem} (hab : Displaced a b) (hbc : Displaced b c) :
    Displaced a c where
  fixed := hab.fixed.trans hbc.fixed
  unmoved := hab.unmoved.trans hbc.unmoved

lemma Displaced.set {layout : List WorkItem} {j : ℕ} {item other : WorkItem}
    (h : layout[j]? = some other) (hother : other.moved = false) (hitem : item.moved = true)
    (hfixed : Grid.fixed item = Grid.fixed other) : Displaced (layout.set j item) layout where
  fixed := fixed_set h hfixed
  unmoved := (unmoved_set h hother hitem).le

/-- Move the items of `targets` away from `item`, and what they meet away from them. -/
def moveAwayFromCollisions (item : WorkItem) (isUserAction : Bool) (layout : List WorkItem) :
    List ℕ → { out : List WorkItem // Displaced out layout }
  | [] => ⟨layout, rfl, le_rfl⟩
  | j :: targets =>
    match h : layout[j]? with
    | none => moveAwayFromCollisions item isUserAction layout targets
    | some other =>
      if hmoved : other.moved = true then
        moveAwayFromCollisions item isUserAction layout targets
      else
        let y := awayY layout item other isUserAction
        let away := { other with y, moved := true }
        let marked := layout.set j away
        have hmarked : Displaced marked layout := Displaced.set h (by simpa using hmoved) rfl rfl
        match moveAwayFromCollisions away false marked (collisions marked away (y ≤ other.y)) with
        | ⟨pushed, hpushed⟩ =>
          let out := moveAwayFromCollisions item isUserAction pushed targets
          ⟨out.val, out.property.trans (hpushed.trans hmarked)⟩
termination_by targets => (unmoved layout, targets.length)
decreasing_by
  · exact Prod.Lex.right _ (by simp)
  · exact Prod.Lex.right _ (by simp)
  · exact Prod.Lex.left _ _ (unmoved_set h (by simpa using hmoved) rfl)
  · have hlt : unmoved marked < unmoved layout := unmoved_set h (by simpa using hmoved) rfl
    exact Prod.Lex.left _ _ (hpushed.unmoved.trans_lt hlt)

/-- Put item `k` at (`x`, `y`) and push what it lands on out of the way. -/
def moveElement (layout : List WorkItem) (k : ℕ) (item : WorkItem) (x y : ℤ) : List WorkItem :=
  if item.y = y ∧ item.x = x then layout
  else
    let dragged := { item with x, y, moved := true }
    let layout := layout.set k dragged
    moveAwayFromCollisions dragged true layout (collisions layout dragged (y ≤ item.y))

def clamp (value min max : ℤ) : ℤ := Max.max min (Min.min max value)

def clampPosition (item : GridItem) (x y cols : ℤ) : ℤ × ℤ :=
  (clamp x 0 (max 0 (cols - item.w)), max 0 y)

/-- An absent upper bound is `Infinity`. -/
def clampSize (item : GridItem) (w h cols : ℤ) : ℤ × ℤ :=
  let inGridW := clamp w 1 (max 1 (cols - item.x))
  let inGridH := max 1 h
  (clamp inGridW (item.minW.getD 1) (item.maxW.getD inGridW),
    clamp inGridH (item.minH.getD 1) (item.maxH.getD inGridH))

def moveStep (layout : Layout) (id : String) (x y : ℤ) : Layout :=
  let work := layout.map toWork
  let k := work.findIdx fun candidate => candidate.i = id
  match work[k]? with
  | none => layout
  | some item => finish (compactVerticalWork (moveElement work k item x y)) layout

/-- Same items in the same boxes, ignoring order. -/
def sameLayout (a b : Layout) : Bool :=
  a = b ∨ a.length = b.length ∧ a.all fun item =>
    match b.reverse.find? fun other => other.i = item.i with
    | none => false
    | some other => sameBox other item

/-- At most `steps` drag steps, up to the one that changes nothing. -/
def moveSteps (id : String) (x y : ℤ) (current : Layout) : ℕ → Layout
  | 0 => current
  | steps + 1 =>
    let next := moveStep current id x y
    if sameLayout next current then current else moveSteps id x y next steps

def moveItem (layout : Layout) (id : String) (x y : ℤ) : Layout :=
  moveSteps id x y layout (layout.length + 1)

def resizeItem (layout : Layout) (id : String) (w h : ℤ) : Layout :=
  let work := layout.map toWork
  let k := work.findIdx fun candidate => candidate.i = id
  match work[k]? with
  | none => layout
  | some item => finish (compactVerticalWork (work.set k { item with w, h })) layout

end Maple.Grid
