import Maple.ClockSkew

/-! What the skew correction does to a forest, read off the raw times, and what its summary says
of it. -/

namespace Maple.SpanTree

open RoseTree

variable (epochOf : String → ℚ)

def NodeInfo.withSkew (info : NodeInfo) (skew : Option ℚ) : NodeInfo :=
  { info with clockSkewMs := skew }

/-- A span with the offset it is moved by against its parent and its offset in all. -/
structure Placement where
  info : NodeInfo
  moved : Option ℚ
  skew : Option ℚ

def Placement.placed (x : Placement) : NodeInfo := x.info.withSkew x.skew

/-- The offsets of a child, from those of its parent and the raw times of the two. -/
def childOffsets (offsets : Option ℚ × Option ℚ) (parent child : NodeInfo) :
    Option ℚ × Option ℚ :=
  let moved := correction epochOf (parent.withSkew none) (child.withSkew none)
  (moved, moved.elim offsets.2 fun skewMs => some (offsets.2.getD 0 + skewMs))

def plan (offsets : Option ℚ × Option ℚ) (node : SpanNode) : RoseTree Placement :=
  node.inherit (childOffsets epochOf) (fun offsets info => ⟨info, offsets.1, offsets.2⟩) offsets

/-- The offsets spans are moved by against their parents, a span before those below it. -/
def ownOffsets (node : RoseTree Placement) : List ℚ :=
  node.labels.filterMap Placement.moved

/-- For the same spans, the sums of the offsets on the path from the root. -/
def sumOffsets (node : RoseTree Placement) : List ℚ :=
  node.labels.filterMap fun x => x.moved.map fun _ => x.skew.getD 0

def centreOffsets (forest : List SpanNode) : List ℚ :=
  forest.flatMap fun node => ownOffsets (plan epochOf (none, none) node)

def pathOffsets (forest : List SpanNode) : List ℚ :=
  forest.flatMap fun node => sumOffsets (plan epochOf (none, none) node)

/-- The first of the offsets that is largest in size. -/
def leadingOffset (offsets : List ℚ) : ℚ :=
  offsets.foldl (fun largest skewMs => if |largest| < |skewMs| then skewMs else largest) 0

section Correction

variable {epochOf} {parent child : NodeInfo} {skew : Option ℚ} {skewMs : ℚ}

@[simp] lemma withSkew_withSkew (info : NodeInfo) (skew skew' : Option ℚ) :
    (info.withSkew skew).withSkew skew' = info.withSkew skew' := rfl

@[simp] lemma withSkew_serviceName (info : NodeInfo) :
    (info.withSkew skew).serviceName = info.serviceName := rfl

@[simp] lemma withSkew_durationMs (info : NodeInfo) :
    (info.withSkew skew).durationMs = info.durationMs := rfl

@[simp] lemma spanStartMs_withSkew (info : NodeInfo) :
    spanStartMs epochOf (info.withSkew skew) = epochOf info.startTime + skew.getD 0 := rfl

lemma correction_eq_some : correction epochOf parent child = some skewMs ↔
    child.serviceName ≠ parent.serviceName ∧ child.durationMs ≤ parent.durationMs ∧
      ¬(spanStartMs epochOf parent ≤ spanStartMs epochOf child ∧
        spanStartMs epochOf child + child.durationMs ≤
          spanStartMs epochOf parent + parent.durationMs) ∧
      skewMs = spanStartMs epochOf parent + (parent.durationMs - child.durationMs) / 2 -
        spanStartMs epochOf child := by
  unfold correction
  by_cases hservice : child.serviceName = parent.serviceName
  · simp [hservice]
  · by_cases hfits : ¬(spanStartMs epochOf child ≥ spanStartMs epochOf parent ∧
        spanStartMs epochOf child + child.durationMs ≤
          spanStartMs epochOf parent + parent.durationMs) ∧
        parent.durationMs - child.durationMs ≥ 0
    · rw [if_neg hservice, if_pos hfits, Option.some.injEq]
      exact ⟨fun h => ⟨hservice, sub_nonneg.mp hfits.2, hfits.1, h.symm⟩, fun h => h.2.2.2.symm⟩
    · rw [if_neg hservice, if_neg hfits]
      exact ⟨fun h => (Option.some_ne_none _ h.symm).elim,
        fun h => (hfits ⟨h.2.2.1, sub_nonneg.mpr h.2.1⟩).elim⟩

lemma correction_eq_none : correction epochOf parent child = none ↔
    (child.serviceName ≠ parent.serviceName → child.durationMs ≤ parent.durationMs →
      spanStartMs epochOf parent ≤ spanStartMs epochOf child ∧
        spanStartMs epochOf child + child.durationMs ≤
          spanStartMs epochOf parent + parent.durationMs) := by
  rw [Option.eq_none_iff_forall_ne_some]
  constructor
  · intro h hservice hslack
    by_contra hfits
    exact h _ (correction_eq_some.mpr ⟨hservice, hslack, hfits, rfl⟩)
  · intro h skewMs hsome
    obtain ⟨hservice, hslack, hfits, -⟩ := correction_eq_some.mp hsome
    exact hfits (h hservice hslack)

/-- Two spans on one clock are measured as they were reported. -/
lemma correction_withSkew :
    correction epochOf (parent.withSkew skew) (child.withSkew skew) =
      correction epochOf (parent.withSkew none) (child.withSkew none) := by
  refine Option.ext fun skewMs => ?_
  simp only [correction_eq_some, spanStartMs_withSkew, withSkew_serviceName, withSkew_durationMs,
    Option.getD_none, add_zero]
  have hstart : epochOf parent.startTime + skew.getD 0 ≤ epochOf child.startTime + skew.getD 0 ↔
      epochOf parent.startTime ≤ epochOf child.startTime := by
    constructor <;> intro h <;> linarith
  have hend : epochOf child.startTime + skew.getD 0 + child.durationMs ≤
        epochOf parent.startTime + skew.getD 0 + parent.durationMs ↔
      epochOf child.startTime + child.durationMs ≤
        epochOf parent.startTime + parent.durationMs := by
    constructor <;> intro h <;> linarith
  have hskew : epochOf parent.startTime + skew.getD 0 +
        (parent.durationMs - child.durationMs) / 2 - (epochOf child.startTime + skew.getD 0) =
      epochOf parent.startTime + (parent.durationMs - child.durationMs) / 2 -
        epochOf child.startTime := by
    ring
  rw [hstart, hend, hskew]

lemma correction_ne_zero (h : correction epochOf parent child = some skewMs) : skewMs ≠ 0 := by
  obtain ⟨-, hslack, hfits, hskew⟩ := correction_eq_some.mp h
  intro hzero
  refine hfits ⟨?_, ?_⟩ <;> linarith

/-- A moved child sits centred in its parent's window. -/
lemma correction_centred
    (h : correction epochOf (parent.withSkew none) (child.withSkew none) = some skewMs) :
    correction epochOf (parent.withSkew skew)
      (child.withSkew (some (skew.getD 0 + skewMs))) = none := by
  obtain ⟨-, hslack, -, hskew⟩ := correction_eq_some.mp h
  rw [correction_eq_none]
  intro _ _
  simp only [spanStartMs_withSkew, withSkew_durationMs, Option.getD_some, Option.getD_none,
    add_zero] at hskew hslack ⊢
  constructor <;> linarith

end Correction

section Plan

variable (skew : Option ℚ)

lemma plan_node (offsets : Option ℚ × Option ℚ) (info : NodeInfo) (cs : List SpanNode) :
    plan epochOf offsets (.node info cs) = .node ⟨info, offsets.1, offsets.2⟩
      (cs.map fun c => plan epochOf (childOffsets epochOf offsets info c.label) c) :=
  inherit_node offsets info cs

lemma childOffsets_snd (moved : Option ℚ) (parent child : NodeInfo) :
    childOffsets epochOf (moved, skew) parent child =
      childOffsets epochOf (none, skew) parent child := rfl

lemma placed_plan (moved : Option ℚ) (node : SpanNode) :
    (plan epochOf (moved, skew) node).map Placement.placed =
      (plan epochOf (none, skew) node).map Placement.placed := by
  cases node
  rw [plan_node, plan_node, map_node, map_node]
  rfl

lemma ownOffsets_moved (skewMs : ℚ) (node : SpanNode) :
    ownOffsets (plan epochOf (some skewMs, skew) node) =
      skewMs :: ownOffsets (plan epochOf (none, skew) node) := by
  cases node
  rw [plan_node, plan_node, ownOffsets, ownOffsets, labels_node, labels_node]
  rfl

lemma ownOffsets_node (info : NodeInfo) (cs : List SpanNode) :
    ownOffsets (plan epochOf (none, skew) (.node info cs)) =
      cs.flatMap fun c =>
        ownOffsets (plan epochOf (childOffsets epochOf (none, skew) info c.label) c) := by
  rw [plan_node, ownOffsets, labels_node, List.filterMap_cons_none rfl, List.flatMap_map,
    List.filterMap_flatMap]
  rfl

lemma sumOffsets_node (moved : Option ℚ) (info : NodeInfo) (cs : List SpanNode) :
    sumOffsets (plan epochOf (moved, skew) (.node info cs)) =
      (moved.map fun _ => skew.getD 0).toList ++ cs.flatMap fun c =>
        sumOffsets (plan epochOf (childOffsets epochOf (moved, skew) info c.label) c) := by
  rw [plan_node, sumOffsets, labels_node, List.filterMap_cons, List.flatMap_map,
    List.filterMap_flatMap]
  cases moved <;> rfl

/-- A child not moved keeps its parent's offset; a moved one has its own on top of it. -/
lemma childOffsets_cases (parent child : NodeInfo) :
    (correction epochOf (parent.withSkew none) (child.withSkew none) = none ∧
        childOffsets epochOf (none, skew) parent child = (none, skew)) ∨
      ∃ skewMs, correction epochOf (parent.withSkew none) (child.withSkew none) = some skewMs ∧
        childOffsets epochOf (none, skew) parent child =
          (some skewMs, some (skew.getD 0 + skewMs)) := by
  unfold childOffsets
  cases hmoved : correction epochOf (parent.withSkew none) (child.withSkew none) with
  | none => exact .inl ⟨rfl, rfl⟩
  | some skewMs => exact .inr ⟨skewMs, rfl, rfl⟩

/-- Every edge of a corrected tree is one that is not corrected again. -/
lemma along_placed {R : NodeInfo → NodeInfo → Prop}
    (h : ∀ (skew : Option ℚ) (parent child : NodeInfo), R (parent.withSkew skew)
      (child.withSkew (childOffsets epochOf (none, skew) parent child).2))
    (offsets : Option ℚ × Option ℚ) (node : SpanNode) :
    Along R ((plan epochOf offsets node).map Placement.placed) :=
  along_map.mpr (along_inherit (fun offsets parent child => h offsets.2 parent child) offsets node)

end Plan

section Visit

def setSkew (skew : Option ℚ) (node : SpanNode) : SpanNode :=
  node.map fun info => info.withSkew skew

lemma setSkew_node (skew : Option ℚ) (info : NodeInfo) (cs : List SpanNode) :
    setSkew skew (.node info cs) = .node (info.withSkew skew) (cs.map (setSkew skew)) :=
  map_node _ info cs

lemma shiftSubtree_setSkew (skew : Option ℚ) (skewMs : ℚ) (node : SpanNode) :
    shiftSubtree (setSkew skew node) skewMs = setSkew (some (skew.getD 0 + skewMs)) node := by
  rw [shiftSubtree, setSkew, map_map]
  rfl

def Skews.noteAll (skews : Skews) (offsets : List ℚ) : Skews := offsets.foldl note skews

lemma visitChildren_setSkew (skew : Option ℚ) (parent : NodeInfo) (cs : List SpanNode)
    (ih : ∀ c ∈ cs, ∀ skews skew, visit epochOf skews (setSkew skew c) =
      ((plan epochOf (none, skew) c).map Placement.placed,
        skews.noteAll (ownOffsets (plan epochOf (none, skew) c)))) (skews : Skews) :
    visitChildren epochOf skews (parent.withSkew skew) (cs.map (setSkew skew)) =
      (cs.map fun c => (plan epochOf (childOffsets epochOf (none, skew) parent c.label) c).map
          Placement.placed,
        skews.noteAll (cs.flatMap fun c =>
          ownOffsets (plan epochOf (childOffsets epochOf (none, skew) parent c.label) c))) := by
  induction cs generalizing skews with
  | nil => rw [List.map_nil, visitChildren]; rfl
  | cons c cs hrest =>
    have hc := ih c List.mem_cons_self
    have hlabel : (setSkew skew c).label = c.label.withSkew skew := label_map _ c
    rw [List.map_cons, visitChildren, hlabel, correction_withSkew, List.flatMap_cons,
      List.map_cons]
    rcases childOffsets_cases epochOf skew parent c.label with ⟨hnone, hoffsets⟩ |
      ⟨skewMs, hsome, hoffsets⟩
    · simp only [hnone, hoffsets, hc, hrest fun d hd => ih d (List.mem_cons_of_mem c hd)]
      rw [Skews.noteAll, Skews.noteAll, Skews.noteAll, List.foldl_append]
    · simp only [hsome, hoffsets, shiftSubtree_setSkew, hc,
        hrest fun d hd => ih d (List.mem_cons_of_mem c hd)]
      rw [ownOffsets_moved, placed_plan epochOf _ (some skewMs), Skews.noteAll, Skews.noteAll,
        Skews.noteAll, List.foldl_append, List.foldl_cons]

/-- Below a node whose subtree is on one clock, the visit moves what the plan moves. -/
lemma visit_setSkew (node : SpanNode) (skews : Skews) (skew : Option ℚ) :
    visit epochOf skews (setSkew skew node) =
      ((plan epochOf (none, skew) node).map Placement.placed,
        skews.noteAll (ownOffsets (plan epochOf (none, skew) node))) := by
  induction node using RoseTree.induction generalizing skews skew with
  | node info cs ih =>
    rw [setSkew_node, visit, visitChildren_setSkew epochOf skew info cs ih, ownOffsets_node,
      plan_node, map_node, List.map_map]
    rfl

def Uncorrected (forest : List SpanNode) : Prop :=
  ∀ info ∈ forest.flatMap labels, info.clockSkewMs = none

lemma setSkew_uncorrected (node : SpanNode) (h : ∀ info ∈ node.labels, info.clockSkewMs = none) :
    setSkew none node = node := by
  induction node using RoseTree.induction with
  | node info cs ih =>
    rw [labels_node] at h
    have hinfo : info.withSkew none = info := by
      rw [NodeInfo.withSkew, ← h info List.mem_cons_self]
    rw [setSkew_node, hinfo]
    congr 1
    refine (List.map_congr_left fun c hc => ih c hc fun d hd => ?_).trans (List.map_id cs)
    exact h d (List.mem_cons_of_mem info (List.mem_flatMap.mpr ⟨c, hc, hd⟩))

lemma visitRoots_uncorrected (forest : List SpanNode) (h : Uncorrected forest) (skews : Skews) :
    visitRoots epochOf skews forest =
      (forest.map fun node => (plan epochOf (none, none) node).map Placement.placed,
        skews.noteAll (centreOffsets epochOf forest)) := by
  induction forest generalizing skews with
  | nil => rfl
  | cons node forest ih =>
    have hnode : setSkew none node = node :=
      setSkew_uncorrected node fun info hinfo => h info (by simp [hinfo])
    have hvisit := visit_setSkew epochOf node skews none
    rw [hnode] at hvisit
    have hforest := ih fun info hinfo => h info (by
      rw [List.flatMap_cons]
      exact List.mem_append_right _ hinfo)
    simp only [visitRoots, hvisit, hforest]
    simp only [centreOffsets, List.flatMap_cons, List.map_cons, Skews.noteAll, List.foldl_append]

lemma visitChildren_settled (skews : Skews) (parent : NodeInfo) (cs : List SpanNode)
    (hedge : ∀ c ∈ cs, correction epochOf parent c.label = none)
    (hbelow : ∀ c ∈ cs, ∀ skews, visit epochOf skews c = (c, skews)) :
    visitChildren epochOf skews parent cs = (cs, skews) := by
  induction cs with
  | nil => rw [visitChildren]
  | cons c cs ih =>
    rw [visitChildren, hedge c List.mem_cons_self]
    simp only [hbelow c List.mem_cons_self, ih (fun d hd => hedge d (List.mem_cons_of_mem c hd))
      fun d hd => hbelow d (List.mem_cons_of_mem c hd)]

lemma visit_settled {node : SpanNode}
    (h : Along (fun parent child => correction epochOf parent child = none) node)
    (skews : Skews) : visit epochOf skews node = (node, skews) := by
  induction h generalizing skews with
  | node hedge _ ih => rw [visit, visitChildren_settled epochOf skews _ _ hedge ih]

lemma visitRoots_settled (forest : List SpanNode)
    (h : ∀ node ∈ forest, Along (fun parent child => correction epochOf parent child = none) node)
    (skews : Skews) : visitRoots epochOf skews forest = (forest, skews) := by
  induction forest with
  | nil => rfl
  | cons node forest ih =>
    rw [visitRoots, visit_settled epochOf (h node List.mem_cons_self)]
    simp only [ih fun d hd => h d (List.mem_cons_of_mem node hd)]

end Visit

section Summary

lemma summaryVisit_plan (node : SpanNode) (skews : Skews) (parentSkewMs : ℚ)
    (moved skew : Option ℚ) (hskew : skew.getD 0 = parentSkewMs + moved.getD 0)
    (hmoved : moved ≠ some 0) :
    summaryVisit skews parentSkewMs ((plan epochOf (moved, skew) node).map Placement.placed) =
      skews.noteAll (sumOffsets (plan epochOf (moved, skew) node)) := by
  induction node using RoseTree.induction generalizing skews parentSkewMs moved skew with
  | node info cs ih =>
    have hall : ∀ skews, summaryVisitAll skews (skew.getD 0)
        (cs.map fun c => (plan epochOf (childOffsets epochOf (moved, skew) info c.label) c).map
          Placement.placed) = skews.noteAll (cs.flatMap fun c =>
            sumOffsets (plan epochOf (childOffsets epochOf (moved, skew) info c.label) c)) := by
      clear hskew hmoved
      induction cs with
      | nil => exact fun _ => rfl
      | cons c cs hrest =>
        intro skews
        rw [List.map_cons, summaryVisitAll, List.flatMap_cons, childOffsets_snd]
        rcases childOffsets_cases epochOf skew info c.label with ⟨-, hoffsets⟩ |
          ⟨skewMs, hsome, hoffsets⟩
        · rw [hoffsets, ih c List.mem_cons_self skews _ none skew (add_zero _).symm nofun,
            hrest fun d hd => ih d (List.mem_cons_of_mem c hd), Skews.noteAll, Skews.noteAll,
            Skews.noteAll, List.foldl_append]
        · rw [hoffsets, ih c List.mem_cons_self skews _ (some skewMs) _ rfl
              fun h => correction_ne_zero hsome (Option.some.inj h),
            hrest fun d hd => ih d (List.mem_cons_of_mem c hd), Skews.noteAll, Skews.noteAll,
            Skews.noteAll, List.foldl_append]
    rw [sumOffsets_node, plan_node, map_node, List.map_map, summaryVisit, Skews.noteAll,
      List.foldl_append]
    refine (hall _).trans ?_
    cases moved with
    | none =>
      have heq : skew.getD 0 = parentSkewMs := hskew.trans (add_zero _)
      have hsame : (Placement.placed ⟨info, none, skew⟩).clockSkewMs.getD 0 = parentSkewMs := heq
      simp only [hsame, ne_eq, not_true_eq_false, if_false]
      rfl
    | some skewMs =>
      have hne : (Placement.placed ⟨info, some skewMs, skew⟩).clockSkewMs.getD 0 ≠
          parentSkewMs := by
        intro heq
        have hsum : parentSkewMs = parentSkewMs + skewMs := heq.symm.trans hskew
        exact hmoved (congrArg some (by linarith))
      simp only [hne, ne_eq, not_false_eq_true, if_true]
      rfl

lemma summaryVisitAll_plan (forest : List SpanNode) (skews : Skews) :
    summaryVisitAll skews 0
        (forest.map fun node => (plan epochOf (none, none) node).map Placement.placed) =
      skews.noteAll (pathOffsets epochOf forest) := by
  induction forest generalizing skews with
  | nil => rfl
  | cons node forest ih =>
    rw [List.map_cons, summaryVisitAll,
      summaryVisit_plan epochOf node skews 0 none none (zero_add _).symm nofun, ih]
    simp only [pathOffsets, List.flatMap_cons, Skews.noteAll, List.foldl_append]

lemma noteAll_eq (offsets : List ℚ) (skews : Skews) :
    skews.noteAll offsets = ⟨skews.adjustedCount + offsets.length, offsets.foldl
      (fun largest skewMs => if |largest| < |skewMs| then skewMs else largest)
      skews.maxSkewMs⟩ := by
  induction offsets generalizing skews with
  | nil => rfl
  | cons skewMs offsets ih =>
    refine (ih (skews.note skewMs)).trans ?_
    have hcount : skews.adjustedCount + 1 + offsets.length =
        skews.adjustedCount + (offsets.length + 1) := by omega
    rw [List.length_cons, List.foldl_cons, ← hcount]
    rfl

lemma none_noteAll (offsets : List ℚ) :
    Skews.none.noteAll offsets = ⟨offsets.length, leadingOffset offsets⟩ := by
  rw [noteAll_eq]
  congr 1
  exact Nat.zero_add _

lemma length_sumOffsets (node : RoseTree Placement) :
    (sumOffsets node).length = (ownOffsets node).length := by
  rw [sumOffsets, ownOffsets]
  induction node.labels with
  | nil => rfl
  | cons x xs ih => cases hx : x.moved <;> simp [hx, ih]

lemma length_pathOffsets (forest : List SpanNode) :
    (pathOffsets epochOf forest).length = (centreOffsets epochOf forest).length := by
  simp only [pathOffsets, centreOffsets, List.length_flatMap, length_sumOffsets]

end Summary

/-- What the correction of a forest and its summary promise. -/
structure SkewSound (forest : List SpanNode) : Prop where
  window : ∀ node ∈ (adjustClockSkew epochOf forest).1, Along (fun parent child =>
    child.serviceName ≠ parent.serviceName → child.durationMs ≤ parent.durationMs →
      spanStartMs epochOf parent ≤ spanStartMs epochOf child ∧
        spanStartMs epochOf child + child.durationMs ≤
          spanStartMs epochOf parent + parent.durationMs) node
  offset : ∀ node ∈ (adjustClockSkew epochOf forest).1, Along (fun parent child =>
    (child.serviceName = parent.serviceName ∨ parent.durationMs < child.durationMs) →
      spanStartMs epochOf child - spanStartMs epochOf parent =
        epochOf child.startTime - epochOf parent.startTime) node
  roots : ∀ node ∈ (adjustClockSkew epochOf forest).1,
    spanStartMs epochOf node.label = epochOf node.label.startTime
  reported : (adjustClockSkew epochOf forest).1.map (setSkew none) = forest
  again : (adjustClockSkew epochOf (adjustClockSkew epochOf forest).1).1 =
    (adjustClockSkew epochOf forest).1
  summary : summarizeClockSkew (adjustClockSkew epochOf forest).1 =
    if (adjustClockSkew epochOf forest).2.adjustedCount = 0 then none
    else some (adjustClockSkew epochOf forest).2

section Sound

variable {forest : List SpanNode}

lemma adjustClockSkew_eq (h : Uncorrected forest) : adjustClockSkew epochOf forest =
    (forest.map fun node => (plan epochOf (none, none) node).map Placement.placed,
      ⟨(centreOffsets epochOf forest).length, leadingOffset (centreOffsets epochOf forest)⟩) := by
  rw [adjustClockSkew, visitRoots_uncorrected epochOf forest h, none_noteAll]

lemma correction_placed (skew : Option ℚ) (parent child : NodeInfo) :
    correction epochOf (parent.withSkew skew)
      (child.withSkew (childOffsets epochOf (none, skew) parent child).2) = none := by
  rcases childOffsets_cases epochOf skew parent child with ⟨hnone, hoffsets⟩ |
    ⟨skewMs, hsome, hoffsets⟩
  · rw [hoffsets, correction_withSkew, hnone]
  · rw [hoffsets]
    exact correction_centred hsome

lemma offset_placed (skew : Option ℚ) (parent child : NodeInfo)
    (h : child.serviceName = parent.serviceName ∨ parent.durationMs < child.durationMs) :
    spanStartMs epochOf (child.withSkew (childOffsets epochOf (none, skew) parent child).2) -
        spanStartMs epochOf (parent.withSkew skew) =
      epochOf child.startTime - epochOf parent.startTime := by
  rcases childOffsets_cases epochOf skew parent child with ⟨-, hoffsets⟩ |
    ⟨skewMs, hsome, -⟩
  · rw [hoffsets, spanStartMs_withSkew, spanStartMs_withSkew]
    ring
  · obtain ⟨hservice, hslack, -⟩ := correction_eq_some.mp hsome
    rcases h with h | h
    · exact absurd h hservice
    · exact absurd h (not_lt.mpr hslack)

lemma setSkew_plan (node : SpanNode) (h : ∀ info ∈ node.labels, info.clockSkewMs = none)
    (offsets : Option ℚ × Option ℚ) :
    setSkew none ((plan epochOf offsets node).map Placement.placed) = node := by
  conv_rhs => rw [← setSkew_uncorrected node h]
  clear h
  induction node using RoseTree.induction generalizing offsets with
  | node info cs ih =>
    rw [plan_node, map_node, setSkew_node, setSkew_node, List.map_map, List.map_map]
    congr 1
    exact List.map_congr_left fun c hc => ih c hc _

/-- Only the offsets of the spans change. -/
lemma setSkew_adjusted (h : Uncorrected forest) :
    (adjustClockSkew epochOf forest).1.map (setSkew none) = forest := by
  rw [adjustClockSkew_eq epochOf h, List.map_map]
  refine (List.map_congr_left fun node hnode => ?_).trans (List.map_id forest)
  exact setSkew_plan epochOf node
    (fun info hinfo => h info (List.mem_flatMap.mpr ⟨node, hnode, hinfo⟩)) _

lemma summarizeClockSkew_eq (h : Uncorrected forest) :
    summarizeClockSkew (adjustClockSkew epochOf forest).1 =
      if (centreOffsets epochOf forest).length = 0 then none
      else some ⟨(centreOffsets epochOf forest).length,
        leadingOffset (pathOffsets epochOf forest)⟩ := by
  rw [adjustClockSkew_eq epochOf h, summarizeClockSkew, summaryVisitAll_plan, none_noteAll,
    length_pathOffsets]

lemma summary_iff (h : Uncorrected forest) :
    (summarizeClockSkew (adjustClockSkew epochOf forest).1 =
      if (adjustClockSkew epochOf forest).2.adjustedCount = 0 then none
      else some (adjustClockSkew epochOf forest).2) ↔
    leadingOffset (pathOffsets epochOf forest) = leadingOffset (centreOffsets epochOf forest) := by
  rw [summarizeClockSkew_eq epochOf h, adjustClockSkew_eq epochOf h]
  by_cases hcount : (centreOffsets epochOf forest).length = 0
  · have hpath := length_pathOffsets epochOf forest
    rw [List.eq_nil_of_length_eq_zero hcount, List.eq_nil_of_length_eq_zero (hpath.trans hcount)]
    simp
  · simp only [hcount, if_false, Option.some.injEq, Skews.mk.injEq, true_and]

lemma settled_adjusted (h : Uncorrected forest) :
    ∀ node ∈ (adjustClockSkew epochOf forest).1,
      Along (fun parent child => correction epochOf parent child = none) node := by
  rw [adjustClockSkew_eq epochOf h]
  intro node hnode
  obtain ⟨raw, -, rfl⟩ := List.mem_map.mp hnode
  exact along_placed epochOf (correction_placed epochOf) _ raw

/-- The correction keeps its promises exactly when the first largest offset of a span against its
parent is also the first largest sum of offsets on the way down from a root. -/
theorem skewSound_iff (h : Uncorrected forest) : SkewSound epochOf forest ↔
    leadingOffset (pathOffsets epochOf forest) = leadingOffset (centreOffsets epochOf forest) := by
  have hadjust := adjustClockSkew_eq epochOf h
  have hsettled := settled_adjusted epochOf h
  constructor
  · exact fun hsound => (summary_iff epochOf h).mp hsound.summary
  · intro hlead
    refine ⟨fun node hnode => (hsettled node hnode).imp fun _ _ => correction_eq_none.mp,
      ?_, ?_, setSkew_adjusted epochOf h, ?_, (summary_iff epochOf h).mpr hlead⟩
    · rw [hadjust]
      intro node hnode
      obtain ⟨raw, -, rfl⟩ := List.mem_map.mp hnode
      exact along_placed epochOf (offset_placed epochOf) _ raw
    · rw [hadjust]
      intro node hnode
      obtain ⟨raw, -, rfl⟩ := List.mem_map.mp hnode
      cases raw
      rw [plan_node, map_node, label_node]
      exact add_zero _
    · conv_lhs => rw [adjustClockSkew, visitRoots_settled epochOf _ hsettled]

end Sound

section Sample

def sampleEpoch (startTime : String) : ℚ :=
  if startTime = "2026-08-12T13:20:12.020Z" then 1786540812020
  else if startTime = "2026-08-12T13:20:12.010Z" then 1786540812010
  else 1786540812000

def sampleInfo (spanId : SpanId) (serviceName : String) (durationMs : ℚ) (startTime : String) :
    NodeInfo :=
  ⟨⟨⟨"t", by decide⟩, spanId, "", spanId, serviceName, "SPAN_KIND_SERVER", durationMs, startTime,
    "Ok", "", [], []⟩, 0, false, none⟩

/-- A browser span above a server span above a database span, each on a clock of its own. -/
def sampleChain : List SpanNode :=
  [.node (sampleInfo ⟨"client", by decide⟩ "web" 300 "2026-08-12T13:20:12.020Z")
    [.node (sampleInfo ⟨"server", by decide⟩ "api" 100 "2026-08-12T13:20:12.010Z")
      [.node (sampleInfo ⟨"database", by decide⟩ "db" 80 "2026-08-12T13:20:12.000Z") []]]]

lemma sampleChain_uncorrected : Uncorrected sampleChain := by
  simp [Uncorrected, sampleChain, sampleInfo]

lemma sampleChain_offsets :
    pathOffsets sampleEpoch sampleChain = [110, 130] ∧
      centreOffsets sampleEpoch sampleChain = [110, 20] := by
  have hserver : correction sampleEpoch
      (sampleInfo ⟨"client", by decide⟩ "web" 300 "2026-08-12T13:20:12.020Z")
      (sampleInfo ⟨"server", by decide⟩ "api" 100 "2026-08-12T13:20:12.010Z") = some 110 := by
    simp [correction_eq_some, spanStartMs, sampleInfo, sampleEpoch]
    norm_num
  have hdatabase : correction sampleEpoch
      (sampleInfo ⟨"server", by decide⟩ "api" 100 "2026-08-12T13:20:12.010Z")
      (sampleInfo ⟨"database", by decide⟩ "db" 80 "2026-08-12T13:20:12.000Z") = some 20 := by
    simp [correction_eq_some, spanStartMs, sampleInfo, sampleEpoch]
    norm_num
  have hraw : ∀ spanId serviceName durationMs startTime,
      (sampleInfo spanId serviceName durationMs startTime).withSkew none =
        sampleInfo spanId serviceName durationMs startTime := fun _ _ _ _ => rfl
  constructor
  · simp [pathOffsets, sumOffsets, sampleChain, plan_node, childOffsets, hraw, hserver, hdatabase]
    norm_num
  · simp [centreOffsets, ownOffsets, sampleChain, plan_node, childOffsets, hraw, hserver,
      hdatabase]

theorem skewSound_iff_chain : SkewSound sampleEpoch sampleChain ↔
    leadingOffset (pathOffsets sampleEpoch sampleChain) =
      leadingOffset (centreOffsets sampleEpoch sampleChain) :=
  skewSound_iff sampleEpoch sampleChain_uncorrected

/-- The server span is moved by 110 ms, the database span by another 20: reported is 110, the
summary says 130. -/
theorem sampleChain_unsound : Uncorrected sampleChain ∧
    (∀ info ∈ sampleChain.flatMap labels, 0 ≤ info.durationMs) ∧
    ¬ SkewSound sampleEpoch sampleChain := by
  refine ⟨sampleChain_uncorrected, by simp [sampleChain, sampleInfo], fun hsound => ?_⟩
  have hlead := (summary_iff sampleEpoch sampleChain_uncorrected).mp hsound.summary
  rw [sampleChain_offsets.1, sampleChain_offsets.2] at hlead
  norm_num [leadingOffset] at hlead

end Sample

end Maple.SpanTree
