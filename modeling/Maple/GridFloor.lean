import Maple.GridSettled

/-! An item moved up to the first row: what it pushes, and where compaction leaves it. -/

namespace Maple.Grid

/-! ### What a move marks -/

/-- Only unmarked items are changed, and those are then marked. -/
structure Marks (out layout : List WorkItem) : Prop where
  unmoved : ∀ (j : ℕ) q, out[j]? = some q → q.moved = false → layout[j]? = some q
  moved : ∀ (j : ℕ) q, layout[j]? = some q → q.moved = true → out[j]? = some q

lemma Marks.refl (layout : List WorkItem) : Marks layout layout :=
  ⟨fun _ _ hq _ => hq, fun _ _ hq _ => hq⟩

lemma Marks.trans {a b c : List WorkItem} (hab : Marks a b) (hbc : Marks b c) : Marks a c where
  unmoved := fun j q hq hmoved => hbc.unmoved j q (hab.unmoved j q hq hmoved) hmoved
  moved := fun j q hq hmoved => hab.moved j q (hbc.moved j q hq hmoved) hmoved

lemma Marks.set {layout : List WorkItem} {j : ℕ} {other away : WorkItem}
    (hother : layout[j]? = some other) (hunmoved : other.moved = false)
    (haway : away.moved = true) : Marks (layout.set j away) layout := by
  constructor
  · intro i q hq hmoved
    by_cases hij : j = i
    · subst hij
      have hlt := (List.getElem?_eq_some_iff.mp hother).1
      rw [List.getElem?_set_self hlt] at hq
      have heq := Option.some.inj hq
      rw [← heq, haway] at hmoved
      simp at hmoved
    · rwa [List.getElem?_set_ne hij] at hq
  · intro i q hq hmoved
    have hij : j ≠ i := by
      intro hij
      subst hij
      have heq := Option.some.inj (hother.symm.trans hq)
      rw [← heq, hunmoved] at hmoved
      simp at hmoved
    rwa [List.getElem?_set_ne hij]

/-- What is pushed out of the way of `item`, and where. -/
def pushed (item : WorkItem) (isUserAction : Bool) (layout : List WorkItem) (other : WorkItem) :
    WorkItem :=
  { other with y := awayY layout item other isUserAction, moved := true }

lemma pushed_moved (item : WorkItem) (isUserAction : Bool) (layout : List WorkItem)
    (other : WorkItem) : (pushed item isUserAction layout other).moved = true := rfl

/-- The layout once the item at `j` has been pushed to `away`, and what it met with it. -/
def shoved (layout : List WorkItem) (j : ℕ) (other away : WorkItem) : List WorkItem :=
  (moveAwayFromCollisions away false (layout.set j away)
    (collisions (layout.set j away) away (away.y ≤ other.y))).val

section moveAway
variable {item : WorkItem} {isUserAction : Bool} {layout : List WorkItem} {j : ℕ}
  {targets : List ℕ}

lemma moveAway_skip (h : ∀ other, layout[j]? = some other → other.moved = true) :
    (moveAwayFromCollisions item isUserAction layout (j :: targets)).val =
      (moveAwayFromCollisions item isUserAction layout targets).val := by
  rw [moveAwayFromCollisions]
  split
  · rfl
  · rename_i other hother
    rw [dif_pos (h other hother)]

lemma moveAway_push {other : WorkItem} (hother : layout[j]? = some other)
    (hunmoved : other.moved = false) :
    (moveAwayFromCollisions item isUserAction layout (j :: targets)).val =
      (moveAwayFromCollisions item isUserAction
        (shoved layout j other (pushed item isUserAction layout other)) targets).val := by
  rw [moveAwayFromCollisions]
  split
  · simp_all
  · rename_i other' hother'
    have heq : other = other' := Option.some.inj (hother.symm.trans hother')
    subst heq
    rw [dif_neg (by simp [hunmoved])]
    rfl

end moveAway

/-- One push at a time: the pushed item's own way first, then the rest of the targets. -/
theorem moveAway_induction
    {motive : WorkItem → Bool → List WorkItem → List ℕ → List WorkItem → Prop}
    (nil : ∀ item isUserAction layout, motive item isUserAction layout [] layout)
    (skip : ∀ item isUserAction layout j targets out,
      (∀ other, layout[j]? = some other → other.moved = true) →
      motive item isUserAction layout targets out →
      motive item isUserAction layout (j :: targets) out)
    (push : ∀ item isUserAction layout j targets other out,
      layout[j]? = some other → other.moved = false →
      let away := pushed item isUserAction layout other
      let marked := layout.set j away
      motive away false marked (collisions marked away (away.y ≤ other.y))
        (shoved layout j other away) →
      motive item isUserAction (shoved layout j other away) targets out →
      motive item isUserAction layout (j :: targets) out)
    (item : WorkItem) (isUserAction : Bool) (layout : List WorkItem) (targets : List ℕ) :
    motive item isUserAction layout targets
      (moveAwayFromCollisions item isUserAction layout targets).val := by
  induction hcount : unmoved layout using Nat.strong_induction_on
    generalizing item isUserAction layout targets with
  | _ count ih =>
    induction targets with
    | nil =>
      rw [moveAwayFromCollisions]
      exact nil item isUserAction layout
    | cons j targets ihtargets =>
      by_cases hskip : ∀ other, layout[j]? = some other → other.moved = true
      · rw [moveAway_skip hskip]
        exact skip _ _ _ _ _ _ hskip ihtargets
      · push Not at hskip
        obtain ⟨other, hother, hmoved⟩ := hskip
        have hunmoved : other.moved = false := by simpa using hmoved
        have hlt : unmoved (layout.set j (pushed item isUserAction layout other)) <
            unmoved layout := unmoved_set hother hunmoved rfl
        rw [hcount] at hlt
        rw [moveAway_push hother hunmoved]
        refine push _ _ _ _ _ _ _ hother hunmoved (ih _ hlt _ _ _ _ rfl) ?_
        have hle : unmoved (shoved layout j other (pushed item isUserAction layout other)) ≤ _ :=
          (moveAwayFromCollisions _ _ _ _).property.unmoved
        exact ih _ (hle.trans_lt hlt) _ _ _ _ rfl

lemma moveAway_marks (item : WorkItem) (isUserAction : Bool) (layout : List WorkItem)
    (targets : List ℕ) :
    Marks (moveAwayFromCollisions item isUserAction layout targets).val layout := by
  apply moveAway_induction (motive := fun _ _ layout _ out => Marks out layout)
  case nil =>
    intro item isUserAction layout
    exact Marks.refl layout
  case skip =>
    intro item isUserAction layout j targets out hskip ih
    exact ih
  case push =>
    intro item isUserAction layout j targets other out hother hunmoved away marked ihaway ih
    exact ih.trans (ihaway.trans (Marks.set hother hunmoved rfl))

lemma shoved_marks {layout : List WorkItem} {j : ℕ} {other away : WorkItem}
    (hother : layout[j]? = some other) (hunmoved : other.moved = false)
    (haway : away.moved = true) : Marks (shoved layout j other away) layout :=
  (moveAway_marks _ _ _ _).trans (Marks.set hother hunmoved haway)

lemma shoved_self {layout : List WorkItem} {j : ℕ} {other away : WorkItem}
    (hother : layout[j]? = some other) (haway : away.moved = true) :
    (shoved layout j other away)[j]? = some away := by
  have hlt := (List.getElem?_eq_some_iff.mp hother).1
  exact (moveAway_marks _ _ _ _).moved j away (List.getElem?_set_self hlt) haway

/-- No target is left unmarked. -/
lemma moveAway_targets (item : WorkItem) (isUserAction : Bool) (layout : List WorkItem)
    (targets : List ℕ) : ∀ j ∈ targets, ∀ q,
      (moveAwayFromCollisions item isUserAction layout targets).val[j]? = some q →
        q.moved = true := by
  induction targets generalizing layout with
  | nil => simp
  | cons first targets ih =>
    intro j hj q hq
    by_cases hskip : ∀ other, layout[first]? = some other → other.moved = true
    · rcases List.mem_cons.mp hj with rfl | hj
      · by_contra hmoved
        have hsame := (moveAway_marks _ _ _ _).unmoved j q hq (by simpa using hmoved)
        exact hmoved (hskip q hsame)
      · rw [moveAway_skip hskip] at hq
        exact ih layout j hj q hq
    · push Not at hskip
      obtain ⟨other, hother, hmoved⟩ := hskip
      have hunmoved : other.moved = false := by simpa using hmoved
      rw [moveAway_push hother hunmoved] at hq
      rcases List.mem_cons.mp hj with rfl | hj
      · have hshoved := shoved_self hother (pushed_moved item isUserAction layout other)
        have hout := (moveAway_marks item isUserAction _ targets).moved j _ hshoved rfl
        have heq := Option.some.inj (hout.symm.trans hq)
        rw [← heq]
        rfl
      · exact ih _ j hj q hq

/-! ### The first row -/

/-- But for the item `id`, nothing is in the rows of what starts in the first row. -/
structure Floor (id : String) (layout : List WorkItem) : Prop where
  ids : (layout.map (·.i)).Nodup
  rows : ∀ item ∈ layout, 0 ≤ item.y
  tall : ∀ item ∈ layout, 1 ≤ item.h
  free : ∀ a ∈ layout, ∀ b ∈ layout, a.i ≠ id → b.i ≠ id → a.i ≠ b.i → a.y = 0 →
    sameColumns a.toGridItem b.toGridItem → a.h ≤ b.y

/-- The same items start in the first row. -/
def SameFloor (out layout : List WorkItem) : Prop :=
  ∀ item : WorkItem, item.y = 0 → (item ∈ out ↔ item ∈ layout)

lemma SameFloor.trans {a b c : List WorkItem} (hab : SameFloor a b) (hbc : SameFloor b c) :
    SameFloor a c := fun item hy => (hab item hy).trans (hbc item hy)

lemma mem_set_iff {layout : List WorkItem} {j : ℕ} {old : WorkItem}
    (hids : (layout.map (·.i)).Nodup) (hold : layout[j]? = some old) (new item : WorkItem) :
    item ∈ layout.set j new ↔ item = new ∨ item ∈ layout ∧ item.i ≠ old.i := by
  have hlt := (List.getElem?_eq_some_iff.mp hold).1
  have hget := (List.getElem?_eq_some_iff.mp hold).2
  constructor
  · intro hitem
    obtain ⟨i, hi, rfl⟩ := List.getElem_of_mem hitem
    have hi' : i < layout.length := by simpa using hi
    rw [List.getElem_set]
    split_ifs with hij
    · exact Or.inl rfl
    · refine Or.inr ⟨List.getElem_mem hi', ?_⟩
      intro hid
      rw [← hget] at hid
      have hsame := List.inj_on_of_nodup_map hids (List.getElem_mem hi') (List.getElem_mem hlt) hid
      have hnodup := List.Nodup.of_map _ hids
      exact hij ((List.Nodup.getElem_inj_iff hnodup).mp hsame).symm
  · intro hitem
    rcases hitem with rfl | ⟨hmem, hid⟩
    · exact List.mem_set hlt item
    · obtain ⟨i, hi, rfl⟩ := List.getElem_of_mem hmem
      have hij : j ≠ i := by
        intro hij
        subst hij
        exact hid (by rw [hget])
      rw [← List.getElem_set_ne hij (by simpa using hi)]
      exact List.getElem_mem _

section Floor
variable {id : String} {layout : List WorkItem} {j : ℕ} {other : WorkItem}

/-- An item is moved to a row where it is free of the first row, or frees it. -/
lemma Floor.set (h : Floor id layout) (hother : layout[j]? = some other) {row : ℤ}
    (hrow : 0 ≤ row)
    (hbelow : ∀ a ∈ layout, a.i ≠ id → a.i ≠ other.i → a.y = 0 →
      sameColumns a.toGridItem other.toGridItem → a.h ≤ row)
    (habove : row = 0 → ∀ b ∈ layout, b.i ≠ id → b.i ≠ other.i →
      sameColumns other.toGridItem b.toGridItem → other.h ≤ b.y) :
    Floor id (layout.set j { other with y := row, moved := true }) := by
  have hmem := mem_set_iff h.ids hother { other with y := row, moved := true }
  have hfixed : (layout.set j { other with y := row, moved := true }).map fixed =
      layout.map fixed := fixed_set hother rfl
  constructor
  · rw [fixed_ids hfixed]
    exact h.ids
  · intro item hitem
    rcases (hmem item).mp hitem with rfl | ⟨hitem, -⟩
    · exact hrow
    · exact h.rows item hitem
  · intro item hitem
    rcases (hmem item).mp hitem with rfl | ⟨hitem, -⟩
    · exact h.tall other (List.mem_of_getElem? hother)
    · exact h.tall item hitem
  · intro a ha b hb haid hbid hne hzero hcolumns
    rcases (hmem a).mp ha with rfl | ⟨ha, ha'⟩
    · rcases (hmem b).mp hb with rfl | ⟨hb, hb'⟩
      · exact absurd rfl hne
      · exact habove hzero b hb hbid hb' hcolumns
    · rcases (hmem b).mp hb with rfl | ⟨hb, -⟩
      · exact hbelow a ha haid ha' hzero hcolumns
      · exact h.free a ha b hb haid hbid hne hzero hcolumns

/-- An item pushed below the first row leaves the rest of it free. -/
lemma Floor.sink (h : Floor id layout) (hother : layout[j]? = some other) (hid : other.i ≠ id)
    {row : ℤ} (hrow : other.y < row) :
    Floor id (layout.set j { other with y := row, moved := true }) := by
  have hin := List.mem_of_getElem? hother
  have hnonneg := h.rows other hin
  apply h.set hother
  · omega
  · intro a ha haid hne hzero hcolumns
    have hfree := h.free a ha other hin haid hid hne hzero hcolumns
    omega
  · omega

lemma sameFloor_sink (h : Floor id layout) (hother : layout[j]? = some other) (hy : 0 < other.y)
    {row : ℤ} (hrow : other.y < row) :
    SameFloor (layout.set j { other with y := row, moved := true }) layout := by
  intro item hzero
  rw [mem_set_iff h.ids hother]
  constructor
  · intro hitem
    rcases hitem with rfl | ⟨hitem, -⟩
    · dsimp only at hzero
      omega
    · exact hitem
  · intro hitem
    refine Or.inr ⟨hitem, ?_⟩
    intro hid
    have hsame := List.inj_on_of_nodup_map h.ids hitem (List.mem_of_getElem? hother) hid
    rw [hsame] at hzero
    omega

end Floor

lemma mem_collisions {layout : List WorkItem} {item : WorkItem} {reversed : Bool} {j : ℕ} :
    j ∈ collisions layout item reversed ↔
      ∃ other, layout[j]? = some other ∧ collides other.toGridItem item.toGridItem = true := by
  have hsorted : ∀ entry, entry ∈ sortByRowCol layout.zipIdx ↔ entry ∈ layout.zipIdx :=
    fun entry => (List.mergeSort_perm _ _).mem_iff
  unfold collisions
  cases reversed with
  | false => simp [hsorted, List.mem_zipIdx_iff_getElem?]
  | true => simp [hsorted, List.mem_zipIdx_iff_getElem?]

lemma Marks.pinned {out layout : List WorkItem} {id : String} (h : Marks out layout)
    (hid : ∀ q ∈ layout, q.moved = false → q.i ≠ id) :
    ∀ q ∈ out, q.moved = false → q.i ≠ id := by
  intro q hq hmoved
  obtain ⟨j, hj⟩ := List.mem_iff_getElem?.mp hq
  exact hid q (List.mem_of_getElem? (h.unmoved j q hj hmoved)) hmoved

/-- What meets an item below the first row, itself is below the first row. -/
lemma Floor.pos_of_collides {id : String} {layout : List WorkItem} {a b : WorkItem}
    (h : Floor id layout) (ha : a ∈ layout) (hb : b ∈ layout) (haid : a.i ≠ id) (hbid : b.i ≠ id)
    (hcollides : collides a.toGridItem b.toGridItem = true) : 0 < a.y := by
  have hrow := h.rows a ha
  simp only [collides, decide_eq_true_eq] at hcollides
  by_contra hzero
  have hfree := h.free a ha b hb haid hbid hcollides.1 (by omega)
    ⟨hcollides.2.1, hcollides.2.2.1⟩
  omega

lemma Floor.collisions_pos {id : String} {layout : List WorkItem} {away : WorkItem}
    (h : Floor id layout) (haway : away ∈ layout) (hawayid : away.i ≠ id)
    (hid : ∀ q ∈ layout, q.moved = false → q.i ≠ id) (reversed : Bool) :
    ∀ j ∈ collisions layout away reversed, ∀ q, layout[j]? = some q → q.moved = false →
      0 < q.y := by
  intro j hj q hq hmoved
  obtain ⟨q', hq', hcollides⟩ := mem_collisions.mp hj
  have heq := Option.some.inj (hq.symm.trans hq')
  subst heq
  have hmem := List.mem_of_getElem? hq
  exact h.pos_of_collides hmem haway (hid q hmem hmoved) hawayid hcollides

/-- What is pushed on by something pushed is below the first row, and stays below it. -/
lemma moveAway_floor {id : String} (item : WorkItem) (layout : List WorkItem) (targets : List ℕ)
    (h : Floor id layout) (hid : ∀ q ∈ layout, q.moved = false → q.i ≠ id)
    (htargets : ∀ j ∈ targets, ∀ q, layout[j]? = some q → q.moved = false → 0 < q.y) :
    Floor id (moveAwayFromCollisions item false layout targets).val ∧
      SameFloor (moveAwayFromCollisions item false layout targets).val layout := by
  generalize huser : false = isUserAction
  revert huser h hid htargets
  apply moveAway_induction (motive := fun _ isUserAction layout targets out =>
    Floor id layout → (∀ q ∈ layout, q.moved = false → q.i ≠ id) →
      (∀ j ∈ targets, ∀ q, layout[j]? = some q → q.moved = false → 0 < q.y) →
      false = isUserAction → Floor id out ∧ SameFloor out layout)
  case nil =>
    intro item isUserAction layout h hid htargets huser
    exact ⟨h, fun item _ => Iff.rfl⟩
  case skip =>
    intro item isUserAction layout j targets out hskip ih h hid htargets huser
    exact ih h hid (fun j hj => htargets j (List.mem_cons_of_mem _ hj)) huser
  case push =>
    intro item isUserAction layout j targets other out hother hunmoved away marked ihaway ih
      h hid htargets huser
    subst huser
    have hin := List.mem_of_getElem? hother
    have hotherid := hid other hin hunmoved
    have hpos := htargets j (List.mem_cons_self ..) other hother hunmoved
    have hmarks : Marks marked layout := Marks.set hother hunmoved rfl
    have hmarked : Floor id marked := h.sink hother hotherid (lt_add_one other.y)
    have hsame : SameFloor marked layout := sameFloor_sink h hother hpos (lt_add_one other.y)
    have hpinned := hmarks.pinned hid
    have haway : away ∈ marked :=
      List.mem_set (List.getElem?_eq_some_iff.mp hother).1 away
    obtain ⟨hshoved, hsame'⟩ := ihaway hmarked hpinned
      (hmarked.collisions_pos haway hotherid hpinned _) rfl
    have hmarks' : Marks (shoved layout j other away) layout := shoved_marks hother hunmoved rfl
    obtain ⟨hout, hsame''⟩ := ih hshoved (hmarks'.pinned hid) (by
      intro i hi q hq hmoved
      exact htargets i (List.mem_cons_of_mem _ hi) q (hmarks'.unmoved i q hq hmoved) hmoved) rfl
    exact ⟨hout, hsame''.trans (hsame'.trans hsame)⟩

section Up
variable {dragged : WorkItem} {layout : List WorkItem} {j : ℕ} {other : WorkItem}

/-- An item in the way of one in the first row goes down a row, or to the first row itself where
nothing else is in its way. -/
lemma awayY_up (h : Floor dragged.i layout) (hdragged : dragged ∈ layout) (hzero : dragged.y = 0)
    (hother : other ∈ layout)
    (hcollides : collides other.toGridItem dragged.toGridItem = true) :
    awayY layout dragged other true = other.y + 1 ∨
      awayY layout dragged other true = 0 ∧ ∀ q ∈ layout, q.i ≠ dragged.i →
        sameColumns q.toGridItem other.toGridItem → other.h ≤ q.y := by
  have htall := h.tall other hother
  have htall' := h.tall dragged hdragged
  simp only [collides, decide_eq_true_eq] at hcollides
  have hrow : max (dragged.y - other.h) 0 = 0 := by omega
  unfold awayY
  simp only [if_true, hrow]
  split
  · rename_i hfirst
    right
    refine ⟨rfl, ?_⟩
    have hfree := firstCollision_eq_none hfirst
    have hid : dragged.i = "-1" := by
      by_contra hid
      have hdragged' := hfree dragged.toGridItem (List.mem_map_of_mem hdragged)
      simp only [collides, decide_eq_false_iff_not] at hdragged'
      apply hdragged'
      refine ⟨hid, hcollides.2.2.1, hcollides.2.1, ?_, ?_⟩
      · omega
      · omega
    intro q hq hqid hcolumns
    have hqfree := hfree q.toGridItem (List.mem_map_of_mem hq)
    have hqrow := h.rows q hq
    have hqtall := h.tall q hq
    simp only [collides, decide_eq_false_iff_not] at hqfree
    by_contra hlt
    apply hqfree
    refine ⟨hid ▸ hqid, hcolumns.1, hcolumns.2, ?_, ?_⟩
    · omega
    · omega
  · simp

/-- The layout while what is in the way of an item in the first row is pushed out of it. -/
structure Raised (dragged : WorkItem) (layout : List WorkItem) : Prop where
  floor : Floor dragged.i layout
  mem : dragged ∈ layout
  zero : dragged.y = 0
  moved : dragged.moved = true
  pinned : ∀ q ∈ layout, q.moved = false → q.i ≠ dragged.i

lemma Raised.marks {out : List WorkItem} (h : Raised dragged layout)
    (hfloor : Floor dragged.i out) (hmarks : Marks out layout) : Raised dragged out where
  floor := hfloor
  mem := by
    obtain ⟨j, hj⟩ := List.mem_iff_getElem?.mp h.mem
    exact List.mem_of_getElem? (hmarks.moved j dragged hj h.moved)
  zero := h.zero
  moved := h.moved
  pinned := hmarks.pinned h.pinned

/-- The item in the way, and in the first row the pushed copy in its place. -/
lemma Raised.push (h : Raised dragged layout) (hother : layout[j]? = some other)
    (hunmoved : other.moved = false)
    (hcollides : collides other.toGridItem dragged.toGridItem = true) :
    let away := pushed dragged true layout other
    Raised dragged (shoved layout j other away) ∧
      (∀ item : WorkItem, item.y = 0 → (item ∈ shoved layout j other away ↔
        item = away ∨ item ∈ layout ∧ item.i ≠ other.i)) ∧
      (away.y = other.y + 1 ∨ away.y = 0 ∧ ∀ q ∈ layout, q.i ≠ dragged.i →
        sameColumns q.toGridItem other.toGridItem → other.h ≤ q.y) := by
  intro away
  have hin := List.mem_of_getElem? hother
  have hid := h.pinned other hin hunmoved
  have hrow : away.y = other.y + 1 ∨ away.y = 0 ∧ ∀ q ∈ layout, q.i ≠ dragged.i →
      sameColumns q.toGridItem other.toGridItem → other.h ≤ q.y :=
    awayY_up h.floor h.mem h.zero hin hcollides
  have hmarked : Floor dragged.i (layout.set j away) := by
    have hnonneg := h.floor.rows other hin
    have htall := h.floor.tall other hin
    rcases hrow with hrow | ⟨hrow, hfree⟩
    · exact h.floor.sink hother hid (show other.y < away.y by omega)
    · refine h.floor.set hother (show 0 ≤ away.y by omega) ?_ ?_
      · intro a ha haid hne hzero hcolumns
        have hend := hfree a ha haid hcolumns
        omega
      · intro hzero b hb hbid hne hcolumns
        exact hfree b hb hbid (sameColumns_comm.mp hcolumns)
  have hmarks : Marks (layout.set j away) layout := Marks.set hother hunmoved rfl
  have haway : away ∈ layout.set j away :=
    List.mem_set (List.getElem?_eq_some_iff.mp hother).1 away
  have hpinned := hmarks.pinned h.pinned
  obtain ⟨hfloor, hsame⟩ := moveAway_floor away (layout.set j away) _ hmarked hpinned
    (hmarked.collisions_pos haway hid hpinned (away.y ≤ other.y))
  refine ⟨h.marks hfloor (shoved_marks hother hunmoved rfl), ?_, hrow⟩
  intro item hzero
  exact (hsame item hzero).trans (mem_set_iff h.floor.ids hother away item)

/-- Every target that is still unmarked is in the way. -/
def InTheWay (dragged : WorkItem) (layout : List WorkItem) (targets : List ℕ) : Prop :=
  ∀ j ∈ targets, ∀ q, layout[j]? = some q → q.moved = false →
    collides q.toGridItem dragged.toGridItem = true

lemma InTheWay.tail {out : List WorkItem} {targets : List ℕ}
    (h : InTheWay dragged layout (j :: targets)) (hmarks : Marks out layout) :
    InTheWay dragged out targets := by
  intro i hi q hq hmoved
  exact h i (List.mem_cons_of_mem _ hi) q (hmarks.unmoved i q hq hmoved) hmoved

lemma Raised.run (targets : List ℕ) (h : Raised dragged layout)
    (hway : InTheWay dragged layout targets) :
    Raised dragged (moveAwayFromCollisions dragged true layout targets).val := by
  induction targets generalizing layout with
  | nil =>
    rw [moveAwayFromCollisions]
    exact h
  | cons j targets ih =>
    by_cases hskip : ∀ other, layout[j]? = some other → other.moved = true
    · rw [moveAway_skip hskip]
      exact ih h (hway.tail (Marks.refl layout))
    · push Not at hskip
      obtain ⟨other, hother, hmoved⟩ := hskip
      have hunmoved : other.moved = false := by simpa using hmoved
      have hcollides := hway j (List.mem_cons_self ..) other hother hunmoved
      rw [moveAway_push hother hunmoved]
      exact ih (h.push hother hunmoved hcollides).1
        (hway.tail (shoved_marks hother hunmoved rfl))

def Covers (item : GridItem) (x : ℤ) : Prop := item.x ≤ x ∧ x < item.x + item.w

/-- Nothing has moved into the first row over the left column of the dragged item. -/
def Uncovered (dragged : WorkItem) (layout : List WorkItem) : Prop :=
  ∀ item ∈ layout, item.i ≠ dragged.i → item.y = 0 → Covers item.toGridItem dragged.x →
    item.moved = false

/-- An item that has not moved is in the first row over that column. -/
def Covered (dragged : WorkItem) (layout : List WorkItem) : Prop :=
  ∃ item ∈ layout, item.i ≠ dragged.i ∧ item.y = 0 ∧ Covers item.toGridItem dragged.x ∧
    item.moved = false

def LowestFirst (layout : List WorkItem) (targets : List ℕ) : Prop :=
  targets.Pairwise fun i j => ∀ p q, layout[i]? = some p → layout[j]? = some q →
    p.moved = false → q.moved = false → q.y ≤ p.y

lemma LowestFirst.tail {out : List WorkItem} {targets : List ℕ}
    (h : LowestFirst layout (j :: targets)) (hmarks : Marks out layout) :
    LowestFirst out targets := by
  refine (List.pairwise_cons.mp h).2.imp ?_
  intro a b hab p q hp hq hpmoved hqmoved
  exact hab p q (hmarks.unmoved a p hp hpmoved) (hmarks.unmoved b q hq hqmoved) hpmoved hqmoved

lemma collisions_lowestFirst (layout : List WorkItem) (item : WorkItem) :
    LowestFirst layout (collisions layout item true) := by
  have hget : ∀ entry ∈ sortByRowCol layout.zipIdx, layout[entry.2]? = some entry.1 := by
    intro entry hentry
    exact List.mem_zipIdx_iff_getElem?.mp ((List.mergeSort_perm _ _).mem_iff.mp hentry)
  have hrows := (sortByRowCol_rows layout.zipIdx).imp_of_mem fun {a b} ha hb hab =>
    show ∀ p q, layout[b.2]? = some p → layout[a.2]? = some q → p.moved = false →
      q.moved = false → q.y ≤ p.y by
      intro p q hp hq _ _
      rw [hget b hb] at hp
      rw [hget a ha] at hq
      rwa [← Option.some.inj hp, ← Option.some.inj hq]
  unfold collisions LowestFirst
  dsimp only
  rw [if_pos rfl, List.pairwise_map]
  exact (List.pairwise_reverse.mpr hrows).filter _

/-- While the first row is taken over a column, nothing hops into it there; and once that item is
pushed, all that is left is in the first row as well. -/
lemma Raised.run_uncovered (targets : List ℕ) (h : Raised dragged layout)
    (hway : InTheWay dragged layout targets) (hlowest : LowestFirst layout targets)
    (htaken : Covered dragged layout ∨
      ∀ j ∈ targets, ∀ q, layout[j]? = some q → q.moved = false → q.y = 0)
    (huncovered : Uncovered dragged layout) :
    Uncovered dragged (moveAwayFromCollisions dragged true layout targets).val := by
  induction targets generalizing layout with
  | nil =>
    rw [moveAwayFromCollisions]
    exact huncovered
  | cons j targets ih =>
    by_cases hskip : ∀ other, layout[j]? = some other → other.moved = true
    · rw [moveAway_skip hskip]
      exact ih h (hway.tail (Marks.refl layout)) (hlowest.tail (Marks.refl layout))
        (htaken.imp id fun hrest i hi => hrest i (List.mem_cons_of_mem _ hi)) huncovered
    · push Not at hskip
      obtain ⟨other, hother, hmoved⟩ := hskip
      have hunmoved : other.moved = false := by simpa using hmoved
      have hcollides := hway j (List.mem_cons_self ..) other hother hunmoved
      have hin := List.mem_of_getElem? hother
      have hmarks := shoved_marks hother hunmoved (pushed_moved dragged true layout other)
      obtain ⟨hraised, hfirst, hrow⟩ := h.push hother hunmoved hcollides
      rw [moveAway_push hother hunmoved]
      apply ih hraised (hway.tail hmarks) (hlowest.tail hmarks)
      · by_cases hzero : other.y = 0
        · right
          intro i hi q hq hqmoved
          have hq' := hmarks.unmoved i q hq hqmoved
          have hle := (List.pairwise_cons.mp hlowest).1 i hi other q hother hq' hunmoved hqmoved
          have hnonneg := h.floor.rows q (List.mem_of_getElem? hq')
          omega
        · rcases htaken with ⟨taken, htaken, hid, hy, hcovers, htmoved⟩ | hrest
          · left
            refine ⟨taken, (hfirst taken hy).mpr (Or.inr ⟨htaken, ?_⟩), hid, hy, hcovers, htmoved⟩
            intro hsame
            rw [List.inj_on_of_nodup_map h.floor.ids htaken hin hsame] at hy
            exact hzero hy
          · exact absurd (hrest j (List.mem_cons_self ..) other hother hunmoved) hzero
      · intro item hitem hid hy hcovers
        rcases (hfirst item hy).mp hitem with rfl | ⟨hitem, -⟩
        · exfalso
          have hcovers' : Covers other.toGridItem dragged.x := hcovers
          have hnonneg := h.floor.rows other hin
          have htall := h.floor.tall other hin
          rcases hrow with hrow | ⟨-, hfree⟩
          · omega
          · rcases htaken with ⟨taken, htaken, hid', hy', hcovers'', -⟩ | hrest
            · have hend := hfree taken htaken hid'
                ⟨by unfold Covers at *; omega, by unfold Covers at *; omega⟩
              omega
            · have hzero := hrest j (List.mem_cons_self ..) other hother hunmoved
              have hend := hfree other hin hid
                ⟨by unfold Covers at *; omega, by unfold Covers at *; omega⟩
              omega
        · exact huncovered item hitem hid hy hcovers

end Up

/-! ### Compaction of the first row -/

def unmark (item : WorkItem) : WorkItem := { item with moved := false }

lemma ground_eq {item : WorkItem} (hy : 0 ≤ item.y) : ground item = unmark item := by
  simp [ground, unmark, max_eq_left hy]

/-- An item in the first row that is free of what is placed stays there and pushes nothing. -/
lemma placeAll_first {placed : List WorkItem} {maxY : ℤ} {original : WorkItem} (k : ℕ)
    (below : List (WorkItem × ℕ)) (hmax : 0 ≤ maxY) (hx : 0 ≤ original.x) (hy : original.y = 0)
    (hfree : firstCollision placed original.toGridItem = none) :
    placeAll placed maxY ((original, k) :: below) =
      (unmark original, k) ::
        placeAll (placed ++ [unmark original]) (max maxY (original.y + original.h)) below := by
  have hrow : min maxY (max original.y 0) = original.y := by omega
  have hstart : start maxY original = original := by
    simp only [start, max_eq_left hx, hrow]
  have hfloat : floatUp placed original = original := by
    rw [floatUp, if_neg]
    simp [hy]
  obtain ⟨hitem, hbelow⟩ := settle_clear below hfree
  rw [placeAll_eq, hstart, hfloat]
  dsimp only
  rw [hitem, hbelow, ground_eq hy.ge]
  rfl

lemma placeAll_prefix (placed : List WorkItem) (maxY : ℤ) (first below : List (WorkItem × ℕ))
    (hmax : 0 ≤ maxY) (hcorner : ∀ a ∈ first, 0 ≤ a.1.x ∧ a.1.y = 0)
    (hfree : ∀ other ∈ placed, ∀ a ∈ first,
      collides other.toGridItem a.1.toGridItem = false)
    (hapart : first.Pairwise fun a b => collides a.1.toGridItem b.1.toGridItem = false) :
    ∃ maxY', 0 ≤ maxY' ∧ placeAll placed maxY (first ++ below) =
      first.map (Prod.map unmark id) ++
        placeAll (placed ++ first.map (unmark ∘ Prod.fst)) maxY' below := by
  induction first generalizing placed maxY with
  | nil => exact ⟨maxY, hmax, by simp⟩
  | cons a first ih =>
    obtain ⟨hx, hy⟩ := hcorner a (List.mem_cons_self ..)
    have hnone : firstCollision placed a.1.toGridItem = none := by
      simp only [firstCollision, List.find?_eq_none, Bool.not_eq_true]
      exact fun other hother => hfree other hother a (List.mem_cons_self ..)
    have hmax' : 0 ≤ max maxY (a.1.y + a.1.h) := hmax.trans (le_max_left _ _)
    have hcorner' : ∀ b ∈ first, 0 ≤ b.1.x ∧ b.1.y = 0 :=
      fun b hb => hcorner b (List.mem_cons_of_mem _ hb)
    have hfree' : ∀ other ∈ placed ++ [unmark a.1], ∀ b ∈ first,
        collides other.toGridItem b.1.toGridItem = false := by
      intro other hother b hb
      rcases List.mem_append.mp hother with hother | hother
      · exact hfree other hother b (List.mem_cons_of_mem _ hb)
      · rw [List.mem_singleton.mp hother]
        exact (List.pairwise_cons.mp hapart).1 b hb
    obtain ⟨maxY', hmax'', hplace⟩ :=
      ih _ _ hmax' hcorner' hfree' (List.pairwise_cons.mp hapart).2
    refine ⟨maxY', hmax'', ?_⟩
    rw [List.cons_append, placeAll_first _ _ hmax hx hy hnone, hplace]
    simp [Prod.map]

/-- An item moved up to the first row is left there, unless another one there is over its left
column. -/
lemma Raised.compact {dragged : WorkItem} {layout : List WorkItem} (h : Raised dragged layout)
    (hx : ∀ item ∈ layout, 0 ≤ item.x) :
    unmark dragged ∈ compactVerticalWork layout ∨
      ∃ item ∈ layout, item.i ≠ dragged.i ∧ item.y = 0 ∧ Covers item.toGridItem dragged.x ∧
        unmark item ∈ compactVerticalWork layout := by
  have hmem : dragged ∈ (sortByRowCol layout.zipIdx).map Prod.fst :=
    (sortByRowCol_perm layout).mem_iff.mpr h.mem
  obtain ⟨⟨item, k⟩, hentry, hitem⟩ := List.mem_map.mp hmem
  have hitem' : item = dragged := hitem
  rw [hitem'] at hentry
  obtain ⟨first, rest, hsplit⟩ := List.append_of_mem hentry
  have hordered := sortByRowCol_ordered layout.zipIdx
  have hids := sortByRowCol_ids h.floor.ids
  have hlayout : ∀ a ∈ first, a.1 ∈ layout := by
    intro a ha
    apply mem_sortByRowCol
    rw [hsplit]
    exact List.mem_append_left _ ha
  rw [hsplit] at hordered hids
  have hfirst : ∀ a ∈ first, a.1.y = 0 ∧ a.1.x ≤ dragged.x ∧ a.1.i ≠ dragged.i := by
    intro a ha
    have hrow := h.floor.rows a.1 (hlayout a ha)
    have hzero := h.zero
    have hle := (List.pairwise_append.mp hordered).2.2 a ha _ (List.mem_cons_self ..)
    have hne := (List.pairwise_append.mp hids).2.2 a ha _ (List.mem_cons_self ..)
    dsimp only at hle hne
    exact ⟨by omega, by omega, hne⟩
  have hapart : first.Pairwise fun a b => collides a.1.toGridItem b.1.toGridItem = false := by
    refine (List.pairwise_append.mp hids).1.imp_of_mem ?_
    intro a b ha hb hne
    rw [← Bool.not_eq_true]
    intro hcollides
    have hpos := h.floor.pos_of_collides (hlayout a ha) (hlayout b hb) (hfirst a ha).2.2
      (hfirst b hb).2.2 hcollides
    rw [(hfirst a ha).1] at hpos
    simp at hpos
  obtain ⟨maxY, hmax, hplace⟩ := placeAll_prefix [] 0 first ((dragged, k) :: rest) le_rfl
    (fun a ha => ⟨hx a.1 (hlayout a ha), (hfirst a ha).1⟩) (by simp) hapart
  rw [List.nil_append, ← hsplit] at hplace
  cases hnone : firstCollision (first.map (unmark ∘ Prod.fst)) dragged.toGridItem with
  | none =>
    left
    rw [placeAll_first _ _ hmax (hx dragged h.mem) h.zero hnone] at hplace
    refine mem_compactVerticalWork.mpr ⟨k, ?_⟩
    rw [hplace]
    simp
  | some collision =>
    right
    obtain ⟨a, ha, rfl⟩ := List.mem_map.mp (List.mem_of_find?_eq_some hnone)
    have hfound := List.find?_some hnone
    have hcollides : collides a.1.toGridItem dragged.toGridItem = true := hfound
    simp only [collides, decide_eq_true_eq] at hcollides
    obtain ⟨hy, hle, hne⟩ := hfirst a ha
    refine ⟨a.1, hlayout a ha, hne, hy, ⟨hle, hcollides.2.1⟩, ?_⟩
    refine mem_compactVerticalWork.mpr ⟨a.2, ?_⟩
    rw [hplace]
    exact List.mem_append_left _ (List.mem_map_of_mem ha)

end Maple.Grid
