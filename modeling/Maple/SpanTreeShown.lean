import Maple.SpanTreeOnce

/-! What the built forest shows: which spans and links, at which depths and in which order. -/

namespace Maple.SpanTree

open RoseTree
open scoped List

variable {epochOf : String → ℚ}

section Arrange

def arrange (epochOf : String → ℚ) (node : SpanNode) (depth : ℕ) : SpanNode :=
  sortChildren epochOf (setDepth node depth)

lemma arrange_node (info : NodeInfo) (cs : List SpanNode) (depth : ℕ) :
    arrange epochOf (.node info cs) depth = .node { info with depth := depth }
      ((cs.map fun c => arrange epochOf c (depth + 1)).insertionSort (startsBefore epochOf)) := by
  rw [arrange, setDepth, inherit_node, sortChildren, fold_node, List.map_map]
  rfl

lemma label_arrange (node : SpanNode) (depth : ℕ) :
    (arrange epochOf node depth).label = { node.label with depth := depth } := by
  cases node
  rw [arrange_node, label_node, label_node]

variable {β : Type} {f : NodeInfo → β}

lemma labels_arrange (hf : ∀ (info : NodeInfo) (depth : ℕ), f { info with depth := depth } = f info)
    (node : SpanNode) (depth : ℕ) :
    (arrange epochOf node depth).labels.map f ~ node.labels.map f := by
  induction node using RoseTree.induction generalizing depth with
  | node info cs ih =>
    rw [arrange_node, labels_node, labels_node, List.map_cons, List.map_cons, hf,
      List.map_flatMap, List.map_flatMap]
    refine .cons _ (((List.perm_insertionSort _ _).flatMap_right _).trans ?_)
    rw [List.flatMap_map]
    exact List.Perm.flatMap_left _ fun c hc => ih c hc (depth + 1)

lemma edges_arrange (hf : ∀ (info : NodeInfo) (depth : ℕ), f { info with depth := depth } = f info)
    (node : SpanNode) (depth : ℕ) :
    (arrange epochOf node depth).edges.map (Prod.map f f) ~ node.edges.map (Prod.map f f) := by
  induction node using RoseTree.induction generalizing depth with
  | node info cs ih =>
    rw [arrange_node, edges_node, edges_node, List.map_flatMap, List.map_flatMap]
    refine ((List.perm_insertionSort _ _).flatMap_right _).trans ?_
    rw [List.flatMap_map]
    refine List.Perm.flatMap_left _ fun c hc => ?_
    rw [List.map_cons, List.map_cons, label_arrange, Prod.map_apply, Prod.map_apply, hf info,
      hf c.label]
    exact .cons _ (ih c hc (depth + 1))

lemma depths_arrange (node : SpanNode) (depth : ℕ) :
    Along (fun parent child => child.depth = parent.depth + 1) (arrange epochOf node depth) := by
  induction node using RoseTree.induction generalizing depth with
  | node info cs ih =>
    rw [arrange_node, along_node]
    intro c hc
    obtain ⟨bare, hbare, rfl⟩ := List.mem_map.mp ((List.mem_insertionSort _).mp hc)
    exact ⟨by rw [label_arrange], ih bare hbare (depth + 1)⟩

lemma pairwise_sorted (forest : List SpanNode) :
    ((forest.insertionSort (startsBefore epochOf)).map label).Pairwise fun a b =>
      epochOf a.startTime ≤ epochOf b.startTime := by
  have htotal : Std.Total (startsBefore epochOf) := ⟨fun _ _ => le_total _ _⟩
  have htrans : IsTrans SpanNode (startsBefore epochOf) := ⟨fun _ _ _ => le_trans⟩
  exact List.pairwise_map.mpr (List.pairwise_insertionSort _ forest)

lemma siblings_arrange (node : SpanNode) (depth : ℕ) :
    Siblings (fun a b => epochOf a.startTime ≤ epochOf b.startTime)
      (arrange epochOf node depth) := by
  induction node using RoseTree.induction generalizing depth with
  | node info cs ih =>
    rw [arrange_node, siblings_node]
    refine ⟨pairwise_sorted _, fun c hc => ?_⟩
    obtain ⟨bare, hbare, rfl⟩ := List.mem_map.mp ((List.mem_insertionSort _).mp hc)
    exact ih bare hbare (depth + 1)

end Arrange

section Shown

def NodeInfo.key (info : NodeInfo) : Span × Bool := (info.toSpan, info.isMissing)

/-- What a list of nodes and a list of links show of the input: each node is a span with whether
it is a placeholder. -/
structure Shown (spans : List Span) (nodes : List (Span × Bool))
    (links : List ((Span × Bool) × (Span × Bool))) : Prop where
  once : ((nodes.filter fun node => !node.2).map fun node => node.1.spanId).Nodup
  first : ∀ span, (span, false) ∈ nodes ↔ First spans span
  linked : ∀ child parent, ParentOf spans child parent →
    ¬ Relation.TransGen (ParentOf spans) child child → ((parent, false), (child, false)) ∈ links
  grouped : ∀ span, Orphan spans span →
    ∃ holder, holder.spanId.val = span.parentSpanId ∧ ((holder, true), (span, false)) ∈ links
  holders : ((nodes.filter fun node => node.2).map fun node => node.1.spanId).Nodup

/-- The forest shows every span once, below its parent or a placeholder, with its depth and in
start-time order. -/
structure TraceTree (epochOf : String → ℚ) (spans : List Span) (forest : List SpanNode) :
    Prop where
  shown : Shown spans ((forest.flatMap labels).map NodeInfo.key)
    ((forest.flatMap edges).map (Prod.map NodeInfo.key NodeInfo.key))
  depths : ∀ root ∈ forest, root.label.depth = 0 ∧
    Along (fun parent child => child.depth = parent.depth + 1) root
  ordered : (forest.map label).Pairwise fun a b => epochOf a.startTime ≤ epochOf b.startTime
  siblings : ∀ root ∈ forest,
    Siblings (fun a b => epochOf a.startTime ≤ epochOf b.startTime) root

variable {spans : List Span} {forest : List SpanNode}

lemma Shown.perm {nodes nodes' : List (Span × Bool)}
    {links links' : List ((Span × Bool) × (Span × Bool))} (h : Shown spans nodes links)
    (hnodes : nodes' ~ nodes) (hlinks : links' ~ links) : Shown spans nodes' links' where
  once := (((hnodes.filter _).map _).nodup_iff).mpr h.once
  first span := hnodes.mem_iff.trans (h.first span)
  linked child parent hparent hacyclic := hlinks.mem_iff.mpr (h.linked child parent hparent hacyclic)
  grouped span hspan := by
    obtain ⟨holder, hid, hlink⟩ := h.grouped span hspan
    exact ⟨holder, hid, hlinks.mem_iff.mpr hlink⟩
  holders := (((hnodes.filter _).map _).nodup_iff).mpr h.holders

def ordered (epochOf : String → ℚ) (forest : List SpanNode) : List SpanNode :=
  (forest.map fun root => arrange epochOf root 0).insertionSort (startsBefore epochOf)

lemma labels_ordered {β : Type} (epochOf : String → ℚ) (forest : List SpanNode) {f : NodeInfo → β}
    (hf : ∀ (info : NodeInfo) (depth : ℕ), f { info with depth := depth } = f info) :
    ((ordered epochOf forest).flatMap labels).map f ~ (forest.flatMap labels).map f := by
  refine (((List.perm_insertionSort _ _).flatMap_right _).map _).trans ?_
  rw [List.flatMap_map, List.map_flatMap, List.map_flatMap]
  exact List.Perm.flatMap_left _ fun root _ => labels_arrange hf root 0

lemma mem_ordered {root : SpanNode} (h : root ∈ ordered epochOf forest) :
    ∃ bare, root = arrange epochOf bare 0 := by
  obtain ⟨bare, -, rfl⟩ := List.mem_map.mp ((List.mem_insertionSort _).mp h)
  exact ⟨bare, rfl⟩

lemma traceTree_ordered
    (h : Shown spans ((forest.flatMap labels).map NodeInfo.key)
      ((forest.flatMap edges).map (Prod.map NodeInfo.key NodeInfo.key))) :
    TraceTree epochOf spans (ordered epochOf forest) := by
  refine ⟨h.perm (labels_ordered _ _ fun _ _ => rfl) ?_, fun root hmem => ?_, pairwise_sorted _,
    fun root hmem => ?_⟩
  · refine (((List.perm_insertionSort _ _).flatMap_right _).map _).trans ?_
    rw [List.flatMap_map, List.map_flatMap, List.map_flatMap]
    exact List.Perm.flatMap_left _ fun root _ => edges_arrange (fun _ _ => rfl) root 0
  · obtain ⟨bare, rfl⟩ := mem_ordered hmem
    exact ⟨by rw [label_arrange], depths_arrange bare 0⟩
  · obtain ⟨bare, rfl⟩ := mem_ordered hmem
    exact siblings_arrange bare 0

lemma labels_setSkew : ((forest.map (setSkew none)).flatMap labels).map NodeInfo.key =
    (forest.flatMap labels).map NodeInfo.key := by
  rw [List.flatMap_map, List.map_flatMap, List.map_flatMap]
  refine List.flatMap_congr fun root _ => ?_
  rw [setSkew, labels_map, List.map_map]
  rfl

/-- A correction of the clocks changes nothing of what the tree shows. -/
lemma TraceTree.of_setSkew (h : TraceTree epochOf spans (forest.map (setSkew none))) :
    TraceTree epochOf spans forest := by
  have hedges : ((forest.map (setSkew none)).flatMap edges).map
      (Prod.map NodeInfo.key NodeInfo.key) =
        (forest.flatMap edges).map (Prod.map NodeInfo.key NodeInfo.key) := by
    rw [List.flatMap_map, List.map_flatMap, List.map_flatMap]
    refine List.flatMap_congr fun root _ => ?_
    rw [setSkew, edges_map, List.map_map]
    rfl
  have hshown := h.shown
  rw [labels_setSkew, hedges] at hshown
  refine ⟨hshown, fun root hroot => ?_, ?_, fun root hroot => ?_⟩
  · obtain ⟨hdepth, halong⟩ := h.depths _ (List.mem_map_of_mem hroot)
    rw [setSkew, label_map] at hdepth
    exact ⟨hdepth, along_map.mp halong⟩
  · have hordered := h.ordered
    rw [List.map_map, List.pairwise_map] at hordered
    refine List.pairwise_map.mpr (hordered.imp fun {a b} hab => ?_)
    rw [Function.comp_apply, Function.comp_apply, setSkew, setSkew, label_map, label_map] at hab
    exact hab
  · exact (siblings_map (f := fun info : NodeInfo => info.withSkew none)
      (Q := fun a b : NodeInfo => epochOf a.startTime ≤ epochOf b.startTime)).mp
      (h.siblings _ (List.mem_map_of_mem hroot))

end Shown

section Base

variable {spans : List Span} {span : Span} {roots missing : List SpanNode}

lemma linkAll_ok (spans : List Span) (l : List Span) (hl : ∀ s ∈ l, First spans s ∧ ∀ p, ¬ ParentOf spans s p) :
    ∃ ts, linkAll (dedupeBySpanId spans) l = .ok ts ∧ ts.map (fun t => t.label.toSpan) = l ∧
      ∀ t ∈ ts, Grown spans [t.label.toSpan] t := by
  obtain ⟨ts, hts, hlabels, hgrown⟩ := mapM_of_forall
    (link (dedupeBySpanId spans) (dedupeBySpanId spans).length) (fun s t => Grown spans [s] t) l fun s hs =>
      link_grown _ s [] (hl s hs).1 (.root (hl s hs).2)
        (by rw [List.length_singleton]; omega)
  exact ⟨ts, by rw [linkAll, hts], hlabels, hgrown⟩

/-- The placeholder of a group, above the trees of its spans. -/
def Held (spans : List Span) (group : MissingParentGroup) (node : SpanNode) : Prop :=
  ∃ (spanId : SpanId) (cs : List SpanNode), spanId.val = group.missingParentId ∧
    node = .node (placeholder spanId group.first) cs ∧
    cs.map (fun c => c.label.toSpan) = group.children ∧
    ∀ c ∈ cs, Grown spans [c.label.toSpan] c

lemma placeholders_ok (groups : List MissingParentGroup)
    (h : ∀ group ∈ groups, ∀ s ∈ group.children, First spans s ∧ ∀ p, ¬ ParentOf spans s p)
    (hvalid : ∀ group ∈ groups, isMapleId group.missingParentId = true) :
    ∃ ts, placeholders (dedupeBySpanId spans) groups = .ok ts ∧
      List.Forall₂ (Held spans) groups ts := by
  induction groups with
  | nil => exact ⟨[], rfl, .nil⟩
  | cons group groups ih =>
    obtain ⟨hgroup, hgroups⟩ := List.forall_mem_cons.mp h
    obtain ⟨hid, hids⟩ := List.forall_mem_cons.mp hvalid
    obtain ⟨cs, hcs, hlabels, hgrown⟩ := linkAll_ok spans group.children hgroup
    obtain ⟨ts, hts, hheld⟩ := ih hgroups hids
    refine ⟨.node (placeholder ⟨_, hid⟩ group.first) cs :: ts, ?_,
      .cons ⟨⟨_, hid⟩, cs, rfl, rfl, hlabels, hgrown⟩ hheld⟩
    rw [placeholders, toSpanId, dif_pos hid, hcs, hts]
    rfl

lemma placeholders_invalid (groups : List MissingParentGroup)
    (h : ∀ group ∈ groups, ∀ s ∈ group.children, First spans s ∧ ∀ p, ¬ ParentOf spans s p)
    (hinvalid : ¬ ∀ group ∈ groups, isMapleId group.missingParentId = true) :
    ∃ value, placeholders (dedupeBySpanId spans) groups = .error (.invalidSpanId value) := by
  induction groups with
  | nil => exact absurd (fun _ h => absurd h List.not_mem_nil) hinvalid
  | cons group groups ih =>
    obtain ⟨hgroup, hgroups⟩ := List.forall_mem_cons.mp h
    rw [placeholders, toSpanId]
    by_cases hid : isMapleId group.missingParentId = true
    · obtain ⟨cs, hcs, -⟩ := linkAll_ok spans group.children hgroup
      obtain ⟨value, hvalue⟩ := ih hgroups fun hids =>
        hinvalid (List.forall_mem_cons.mpr ⟨hid, hids⟩)
      rw [dif_pos hid, hcs, hvalue]
      exact ⟨value, rfl⟩
    · rw [dif_neg hid]
      exact ⟨group.missingParentId, rfl⟩

/-- The forest as it is linked, before depths, order and clocks. -/
structure Base (spans : List Span) (roots missing : List SpanNode) : Prop where
  heads : roots.map (fun t => t.label.toSpan) = (dedupeBySpanId spans).filter fun node =>
    !isChild (dedupeBySpanId spans) node && !isOrphan (dedupeBySpanId spans) node
  grown : ∀ t ∈ roots, Grown spans [t.label.toSpan] t
  held : List.Forall₂ (Held spans) (missingParentGroups (dedupeBySpanId spans)) missing

def tops (roots missing : List SpanNode) : List SpanNode :=
  roots ++ missing.flatMap children

lemma not_parentOf (hspan : span ∈ dedupeBySpanId spans)
    (h : isChild (dedupeBySpanId spans) span = false) :
    First spans span ∧ ∀ p, ¬ ParentOf spans span p := by
  have hfirst := mem_dedupeBySpanId.mp hspan
  refine ⟨hfirst, fun p hp => ?_⟩
  rw [(isChild_iff hfirst).mpr ⟨p, hp⟩] at h
  exact Bool.noConfusion h

lemma mem_groups (hspan : span ∈ (missingParentGroups (dedupeBySpanId spans)).flatMap
    MissingParentGroup.children) : First spans span ∧ ∀ p, ¬ ParentOf spans span p := by
  obtain ⟨hmem, horphan⟩ := List.mem_filter.mp ((children_missing _).mem_iff.mp hspan)
  refine not_parentOf hmem ?_
  simp only [isOrphan, Bool.and_eq_true, Bool.not_eq_true'] at horphan
  simp only [isChild, horphan.2, Bool.and_false]

variable (epochOf)

/-- Either the ids of the placeholders are valid and the tree is built, or one is refused. -/
lemma buildSpanTree_cases (spans : List Span) :
    ((∀ group ∈ missingParentGroups (dedupeBySpanId spans),
        isMapleId group.missingParentId = true) ∧
      ∃ roots missing, Base spans roots missing ∧ buildSpanTree epochOf spans =
        .ok (adjustClockSkew epochOf (ordered epochOf (roots ++ missing))).1) ∨
    (¬ ∀ group ∈ missingParentGroups (dedupeBySpanId spans),
        isMapleId group.missingParentId = true) ∧
      ∃ value, buildSpanTree epochOf spans = .error (.invalidSpanId value) := by
  obtain ⟨roots, hroots, hheads, hgrown⟩ := linkAll_ok spans
    ((dedupeBySpanId spans).filter fun node =>
      !isChild (dedupeBySpanId spans) node && !isOrphan (dedupeBySpanId spans) node)
    fun s hs => by
      obtain ⟨hmem, hroot⟩ := List.mem_filter.mp hs
      rw [Bool.and_eq_true, Bool.not_eq_true'] at hroot
      exact not_parentOf hmem hroot.1
  have hgroups : ∀ group ∈ missingParentGroups (dedupeBySpanId spans), ∀ s ∈ group.children,
      First spans s ∧ ∀ p, ¬ ParentOf spans s p :=
    fun group hgroup s hs => mem_groups (List.mem_flatMap.mpr ⟨group, hgroup, hs⟩)
  by_cases hvalid : ∀ group ∈ missingParentGroups (dedupeBySpanId spans),
      isMapleId group.missingParentId = true
  · obtain ⟨missing, hmissing, hheld⟩ := placeholders_ok _ hgroups hvalid
    refine .inl ⟨hvalid, roots, missing, ⟨hheads, hgrown, hheld⟩, ?_⟩
    rw [buildSpanTree, hroots, hmissing]
    rfl
  · obtain ⟨value, hvalue⟩ := placeholders_invalid _ hgroups hvalid
    refine .inr ⟨hvalid, value, ?_⟩
    rw [buildSpanTree, hroots, hvalue]
    rfl

end Base

end Maple.SpanTree
