import Maple.SpanTree

/-! The span tree shows every span once, exactly when no parent links form a cycle and every
absent parent id can name a placeholder. -/

namespace Maple.SpanTree

open RoseTree
open scoped List

/-- The first span of the input with its id. -/
def First (spans : List Span) (span : Span) : Prop :=
  spans.find? (fun other => other.spanId = span.spanId) = some span

def ParentOf (spans : List Span) (child parent : Span) : Prop :=
  First spans child ∧ First spans parent ∧ child.parentSpanId = parent.spanId.val ∧
    child.spanId ≠ parent.spanId

/-- A span whose parent is no span of the input. -/
def Orphan (spans : List Span) (span : Span) : Prop :=
  First spans span ∧ span.parentSpanId ≠ "" ∧ ∀ other ∈ spans, other.spanId.val ≠ span.parentSpanId

variable {spans : List Span} {span child parent : Span}

section Dedupe

lemma First.unique {other : Span} (h : First spans span) (h' : First spans other)
    (hid : span.spanId = other.spanId) : span = other := by
  rw [First, hid, h'] at h
  exact (Option.some.inj h).symm

lemma First.mem (h : First spans span) : span ∈ spans := List.mem_of_find?_eq_some h

lemma exists_first (h : span ∈ spans) : ∃ first, First spans first ∧ first.spanId = span.spanId := by
  obtain ⟨first, hfirst⟩ := Option.isSome_iff_exists.mp
    (List.find?_isSome (p := fun other => other.spanId = span.spanId).mpr ⟨span, h, by simp⟩)
  have hid : first.spanId = span.spanId := by simpa using List.find?_some hfirst
  exact ⟨first, by rwa [First, hid], hid⟩

lemma mem_dedupe (seen : List SpanId) :
    span ∈ dedupe seen spans ↔ span.spanId ∉ seen ∧ First spans span := by
  induction spans generalizing seen with
  | nil => simp [dedupe, First]
  | cons other spans ih =>
    rw [dedupe, First, List.find?_cons]
    by_cases hseen : other.spanId ∈ seen
    · rw [if_pos hseen, ih]
      by_cases hid : other.spanId = span.spanId
      · rw [hid] at hseen
        exact ⟨fun h => absurd hseen h.1, fun h => absurd hseen h.1⟩
      · simp only [hid, decide_false]
        rfl
    · rw [if_neg hseen, List.mem_cons, ih, List.mem_cons, not_or]
      by_cases hid : other.spanId = span.spanId
      · simp only [hid, decide_true, not_true_eq_false, false_and, or_false, Option.some.injEq]
        rw [hid] at hseen
        exact ⟨fun h => ⟨hseen, h.symm⟩, fun h => h.2.symm⟩
      · simp only [hid, decide_false]
        have hne : span ≠ other := fun h => hid (congrArg Span.spanId h.symm)
        exact ⟨fun h => h.elim (fun h => absurd h hne) fun h => ⟨h.1.2, h.2⟩,
          fun h => .inr ⟨⟨fun h' => hid h'.symm, h.1⟩, h.2⟩⟩

lemma mem_dedupeBySpanId : span ∈ dedupeBySpanId spans ↔ First spans span :=
  (mem_dedupe []).trans (and_iff_right List.not_mem_nil)

lemma nodup_dedupe (seen : List SpanId) : (dedupe seen spans).Nodup := by
  induction spans generalizing seen with
  | nil => exact List.nodup_nil
  | cons other spans ih =>
    rw [dedupe]
    by_cases hseen : other.spanId ∈ seen
    · rw [if_pos hseen]
      exact ih seen
    · rw [if_neg hseen, List.nodup_cons]
      exact ⟨fun hmem => ((mem_dedupe _).mp hmem).1 List.mem_cons_self, ih _⟩

end Dedupe

section Links

lemma ParentOf.unique (c p q : Span) (hp : ParentOf spans c p) (hq : ParentOf spans c q) : p = q :=
  hp.2.1.unique hq.2.1 (Subtype.ext (hp.2.2.1.symm.trans hq.2.2.1))

lemma ParentOf.mem (c p : Span) (h : ParentOf spans c p) : p ∈ dedupeBySpanId spans :=
  mem_dedupeBySpanId.mpr h.2.1

lemma hasSpan_iff {value : String} :
    hasSpan (dedupeBySpanId spans) value = true ↔ ∃ other ∈ spans, other.spanId.val = value := by
  simp only [hasSpan, List.any_eq_true, decide_eq_true_eq, mem_dedupeBySpanId]
  constructor
  · exact fun ⟨other, hother, hvalue⟩ => ⟨other, hother.mem, hvalue⟩
  · intro ⟨other, hother, hvalue⟩
    obtain ⟨first, hfirst, hid⟩ := exists_first hother
    exact ⟨first, hfirst, hid ▸ hvalue⟩

lemma spanId_ne_empty (id : SpanId) : id.val ≠ "" := by
  have h := id.2
  simp only [isMapleId, Bool.and_eq_true, decide_eq_true_eq] at h
  exact h.1

lemma isChild_iff (hspan : First spans span) :
    isChild (dedupeBySpanId spans) span = true ↔ ∃ parent, ParentOf spans span parent := by
  rw [isChild, Bool.and_eq_true, hasSpan_iff]
  simp only [namesParent, ne_eq, Bool.and_eq_true, decide_eq_true_eq]
  constructor
  · intro ⟨⟨_, hown⟩, other, hother, hvalue⟩
    obtain ⟨first, hfirst, hid⟩ := exists_first hother
    have hparent : span.parentSpanId = first.spanId.val := by rw [hid, hvalue]
    exact ⟨first, hspan, hfirst, hparent, fun h => hown (hparent.trans (congrArg _ h.symm))⟩
  · intro ⟨parent, _, hfirst, hparent, hne⟩
    refine ⟨⟨hparent ▸ spanId_ne_empty _, fun h => hne (Subtype.ext ?_)⟩, parent, hfirst.mem,
      hparent.symm⟩
    exact h.symm.trans hparent

lemma isOrphan_iff (hspan : First spans span) :
    isOrphan (dedupeBySpanId spans) span = true ↔ Orphan spans span := by
  rw [isOrphan, Bool.and_eq_true, Bool.not_eq_true', ← Bool.not_eq_true, hasSpan_iff]
  simp only [namesParent, ne_eq, Bool.and_eq_true, decide_eq_true_eq, not_exists, not_and]
  exact ⟨fun h => ⟨hspan, h.1.1, h.2⟩,
    fun h => ⟨⟨h.2.1, fun hown => h.2.2 span hspan.mem hown.symm⟩, h.2.2⟩⟩

lemma mem_childrenOf (hparent : First spans parent) :
    child ∈ childrenOf (dedupeBySpanId spans) parent ↔ ParentOf spans child parent := by
  rw [childrenOf, List.mem_filter, mem_dedupeBySpanId, Bool.and_eq_true, decide_eq_true_eq]
  constructor
  · intro ⟨hchild, hlinked, hid⟩
    obtain ⟨other, hother⟩ := (isChild_iff hchild).mp hlinked
    have hsame := hother.2.1.unique hparent (Subtype.ext (hother.2.2.1.symm.trans hid))
    exact hsame ▸ hother
  · exact fun h => ⟨h.1, (isChild_iff h.1).mpr ⟨parent, h⟩, h.2.2.1⟩

lemma nodup_childrenOf : (childrenOf (dedupeBySpanId spans) parent).Nodup :=
  (nodup_dedupe []).filter _

end Links

section Grown

/-- What stands below a node: the spans linked to it, each with what stands below that one. The
list holds the node's span and those above it. -/
inductive Grown (spans : List Span) : List Span → SpanNode → Prop
  | node {span : Span} {above : List Span} {cs : List SpanNode}
      (hline : Lineage (ParentOf spans) (span :: above)) (hspan : First spans span)
      (hcs : cs.map (fun c => c.label.toSpan) = childrenOf (dedupeBySpanId spans) span)
      (hbelow : ∀ c ∈ cs, Grown spans (c.label.toSpan :: span :: above) c) :
      Grown spans (span :: above) (.node (freshInfo span) cs)

lemma mapM_of_forall (trees : Span → Option SpanNode) (P : Span → SpanNode → Prop)
    (l : List Span) (h : ∀ s ∈ l, ∃ t, trees s = some t ∧ t.label.toSpan = s ∧ P s t) :
    ∃ ts, l.mapM trees = some ts ∧ ts.map (fun t => t.label.toSpan) = l ∧
      ∀ t ∈ ts, P t.label.toSpan t := by
  induction l with
  | nil => exact ⟨[], rfl, rfl, nofun⟩
  | cons s l ih =>
    obtain ⟨t, ht, hlabel, hP⟩ := h s List.mem_cons_self
    obtain ⟨ts, hts, hlabels, hall⟩ := ih fun d hd => h d (List.mem_cons_of_mem s hd)
    refine ⟨t :: ts, by rw [List.mapM_cons, ht, hts]; rfl, by rw [List.map_cons, hlabel, hlabels],
      List.forall_mem_cons.mpr ⟨by rwa [hlabel], hall⟩⟩

/-- Unfolding the links below a span with a lineage ends: no lineage is longer than the input. -/
lemma link_grown (fuel : ℕ) (span : Span) (above : List Span) (hspan : First spans span)
    (hline : Lineage (ParentOf spans) (span :: above))
    (hfuel : (dedupeBySpanId spans).length < (span :: above).length + fuel) :
    ∃ t, link (dedupeBySpanId spans) fuel span = some t ∧ t.label.toSpan = span ∧
      Grown spans (span :: above) t := by
  induction fuel generalizing span above with
  | zero =>
    have hlength := hline.length_le ParentOf.unique ParentOf.mem (mem_dedupeBySpanId.mpr hspan)
    omega
  | succ fuel ih =>
    obtain ⟨cs, hcs, hlabels, hbelow⟩ := mapM_of_forall (link (dedupeBySpanId spans) fuel)
      (fun child t => Grown spans (child :: span :: above) t)
      (childrenOf (dedupeBySpanId spans) span) fun child hchild => by
        have hparent := (mem_childrenOf hspan).mp hchild
        refine ih child (span :: above) hparent.1 (.child hparent hline) ?_
        simp only [List.length_cons] at hfuel ⊢
        omega
    exact ⟨.node (freshInfo span) cs, by rw [link, hcs]; rfl, rfl, .node hline hspan hlabels hbelow⟩

variable {path above : List Span} {t : SpanNode}

lemma Grown.label_eq (h : Grown spans path t) : t.label = freshInfo t.label.toSpan := by
  cases h
  rfl

lemma Grown.mem_labels (h : Grown spans path t) : ∀ info ∈ t.labels,
    info = freshInfo info.toSpan ∧ First spans info.toSpan ∧
      ∃ up, Lineage (ParentOf spans) (info.toSpan :: up) ∧ path <:+ info.toSpan :: up := by
  induction h with
  | @node span above cs hline hspan _ _ ih =>
    rw [labels_node, List.forall_mem_cons]
    refine ⟨⟨rfl, hspan, above, hline, List.suffix_rfl⟩, fun info hinfo => ?_⟩
    obtain ⟨c, hc, hinfo⟩ := List.mem_flatMap.mp hinfo
    obtain ⟨hfresh, hfirst, up, hup, hsuffix⟩ := ih c hc info hinfo
    exact ⟨hfresh, hfirst, up, hup, (List.suffix_cons _ _).trans hsuffix⟩

/-- A span below two nodes that hang from one place is below one node. -/
lemma nodup_below (cs : List SpanNode)
    (hgrown : ∀ c ∈ cs, Grown spans (c.label.toSpan :: above) c)
    (hheads : (cs.map fun c => c.label.toSpan).Nodup)
    (heach : ∀ c ∈ cs, (c.labels.map NodeInfo.toSpan).Nodup) :
    ((cs.flatMap labels).map NodeInfo.toSpan).Nodup := by
  rw [List.map_flatMap, List.nodup_flatMap]
  refine ⟨heach, ((List.pairwise_map.mp hheads).imp_of_mem ?_)⟩
  intro c d hc hd hne span hspanc hspand
  obtain ⟨info, hinfo, rfl⟩ := List.mem_map.mp hspanc
  obtain ⟨other, hother, hsame⟩ := List.mem_map.mp hspand
  obtain ⟨-, -, up, hup, hsuffix⟩ := (hgrown c hc).mem_labels info hinfo
  obtain ⟨-, -, up', hup', hsuffix'⟩ := (hgrown d hd).mem_labels other hother
  rw [hup'.unique ParentOf.unique hup (congrArg some hsame)] at hsuffix'
  have hle := List.suffix_of_suffix_length_le hsuffix hsuffix' (by simp)
  exact hne (List.cons.inj (hle.eq_of_length (by simp))).1

lemma Grown.nodup (h : Grown spans path t) : (t.labels.map NodeInfo.toSpan).Nodup := by
  induction h with
  | @node span above cs hline _ hcs hbelow ih =>
    rw [labels_node, List.map_cons, List.nodup_cons]
    refine ⟨fun hmem => ?_, nodup_below cs hbelow (hcs ▸ nodup_childrenOf) ih⟩
    obtain ⟨info, hinfo, hspan⟩ := List.mem_map.mp hmem
    obtain ⟨c, hc, hinfo⟩ := List.mem_flatMap.mp hinfo
    obtain ⟨-, -, up, hup, hsuffix⟩ := (hbelow c hc).mem_labels info hinfo
    rw [hup.unique ParentOf.unique hline (congrArg some hspan)] at hsuffix
    have hlength := hsuffix.length_le
    rw [List.length_cons] at hlength
    exact absurd hlength (by omega)

lemma longer_suffix {span s : Span} {up : List Span} (h : span :: above <:+ s :: up)
    (hne : span :: above ≠ s :: up) : ∃ c, c :: span :: above <:+ s :: up := by
  obtain ⟨before, hbefore⟩ := h
  rcases List.eq_nil_or_concat before with rfl | ⟨init, c, rfl⟩
  · exact absurd hbefore hne
  · exact ⟨c, init, by rw [← hbefore, List.concat_eq_append, List.append_assoc]; rfl⟩

lemma child_tree {cs : List SpanNode} (hspan : First spans span)
    (hcs : cs.map (fun c => c.label.toSpan) = childrenOf (dedupeBySpanId spans) span)
    (hchild : ParentOf spans child span) : ∃ c ∈ cs, c.label.toSpan = child :=
  List.mem_map.mp (hcs ▸ (mem_childrenOf hspan).mpr hchild)

lemma Grown.mem_of_lineage (h : Grown spans path t) {s : Span} {up : List Span}
    (hline : Lineage (ParentOf spans) (s :: up)) (hsuffix : path <:+ s :: up) :
    freshInfo s ∈ t.labels := by
  induction h with
  | @node span above cs _ hspan hcs _ ih =>
    rw [labels_node, List.mem_cons]
    by_cases heq : span :: above = s :: up
    · exact .inl (congrArg freshInfo (List.cons.inj heq).1.symm)
    · obtain ⟨c, hlonger⟩ := longer_suffix hsuffix heq
      have hedge := Lineage.child_iff.mp (hline.of_suffix hlonger (List.cons_ne_nil _ _))
      obtain ⟨d, hd, rfl⟩ := child_tree hspan hcs hedge.1
      exact .inr (List.mem_flatMap.mpr ⟨d, hd, ih d hd hlonger⟩)

lemma Grown.edge_of_lineage (h : Grown spans path t) {up : List Span}
    (hchild : ParentOf spans child parent) (hline : Lineage (ParentOf spans) (parent :: up))
    (hsuffix : path <:+ parent :: up) : (freshInfo parent, freshInfo child) ∈ t.edges := by
  induction h with
  | @node span above cs _ hspan hcs hbelow ih =>
    rw [edges_node, List.mem_flatMap]
    by_cases heq : span :: above = parent :: up
    · obtain ⟨rfl, -⟩ := List.cons.inj heq
      obtain ⟨d, hd, rfl⟩ := child_tree hspan hcs hchild
      exact ⟨d, hd, by rw [← (hbelow d hd).label_eq]; exact List.mem_cons_self⟩
    · obtain ⟨c, hlonger⟩ := longer_suffix hsuffix heq
      have hedge := Lineage.child_iff.mp (hline.of_suffix hlonger (List.cons_ne_nil _ _))
      obtain ⟨d, hd, rfl⟩ := child_tree hspan hcs hedge.1
      exact ⟨d, hd, List.mem_cons_of_mem _ (ih d hd hlonger)⟩

end Grown

section Groups

variable (nodes : List Span) (groups : List MissingParentGroup)

lemma children_pushed (group : MissingParentGroup) :
    ({ group with others := group.others ++ [span] } : MissingParentGroup).children =
      group.children ++ [span] := rfl

lemma pushGroup_children (span : Span) : (pushGroup span groups).flatMap MissingParentGroup.children ~
    groups.flatMap MissingParentGroup.children ++ [span] := by
  induction groups with
  | nil => exact .refl _
  | cons group groups ih =>
    rw [pushGroup]
    split
    · rw [List.flatMap_cons, List.flatMap_cons, children_pushed, List.append_assoc,
        List.append_assoc]
      exact List.perm_append_comm.append_left _
    · rw [List.flatMap_cons, List.flatMap_cons, List.append_assoc]
      exact ih.append_left _

lemma mem_pushGroup_ids (id : String) :
    id ∈ (pushGroup span groups).map MissingParentGroup.missingParentId ↔
      id = span.parentSpanId ∨ id ∈ groups.map MissingParentGroup.missingParentId := by
  induction groups with
  | nil => simp [pushGroup]
  | cons group groups ih =>
    rw [pushGroup]
    split
    next heq => simp [heq]
    next => rw [List.map_cons, List.mem_cons, ih, List.map_cons, List.mem_cons, or_left_comm]

/-- One group for each absent parent, holding the spans that name it. -/
structure Grouped : Prop where
  ids : (groups.map MissingParentGroup.missingParentId).Nodup
  named : ∀ group ∈ groups, ∀ span ∈ group.children, span.parentSpanId = group.missingParentId

variable {groups}

lemma Grouped.push (h : Grouped groups) (span : Span) : Grouped (pushGroup span groups) := by
  induction groups with
  | nil => exact ⟨List.nodup_singleton _, by simp [pushGroup, MissingParentGroup.children]⟩
  | cons group groups ih =>
    obtain ⟨hfresh, hids⟩ := List.nodup_cons.mp h.ids
    obtain ⟨hgroup, hnamed⟩ := List.forall_mem_cons.mp h.named
    have hpushed := ih ⟨hids, hnamed⟩
    rw [pushGroup]
    split
    next heq =>
      refine ⟨h.ids, List.forall_mem_cons.mpr ⟨fun other hother => ?_, hnamed⟩⟩
      rw [children_pushed, List.mem_append] at hother
      rcases hother with hother | hother
      · exact hgroup other hother
      · rw [List.mem_singleton.mp hother]
        exact heq.symm
    next hne =>
      refine ⟨List.nodup_cons.mpr ⟨fun hmem => ?_, hpushed.ids⟩,
        List.forall_mem_cons.mpr ⟨hgroup, hpushed.named⟩⟩
      rcases (mem_pushGroup_ids groups _).mp hmem with heq | hmem
      · exact hne heq
      · exact hfresh hmem

lemma pushGroups (spans : List Span) (h : Grouped groups) :
    Grouped (spans.foldl (fun groups node => pushGroup node groups) groups) ∧
      (spans.foldl (fun groups node => pushGroup node groups) groups).flatMap
        MissingParentGroup.children ~ groups.flatMap MissingParentGroup.children ++ spans := by
  induction spans generalizing groups with
  | nil => exact ⟨h, by rw [List.append_nil]; exact .refl _⟩
  | cons span spans ih =>
    obtain ⟨hgrouped, hchildren⟩ := ih (h.push span)
    refine ⟨hgrouped, hchildren.trans ?_⟩
    have hpush := (pushGroup_children groups span).append_right spans
    rwa [List.append_assoc] at hpush

lemma grouped_nil : Grouped [] := ⟨List.nodup_nil, fun _ h => absurd h List.not_mem_nil⟩

lemma grouped_missing : Grouped (missingParentGroups nodes) := (pushGroups _ grouped_nil).1

lemma children_missing : (missingParentGroups nodes).flatMap MissingParentGroup.children ~
    nodes.filter (isOrphan nodes) :=
  (pushGroups _ grouped_nil).2

end Groups

end Maple.SpanTree
