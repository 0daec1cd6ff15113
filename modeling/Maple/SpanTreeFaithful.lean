import Maple.SpanTreeShown

/-! The built tree shows every span once exactly when no parent links form a cycle and every
absent parent id is a valid span id. -/

namespace Maple.SpanTree

open RoseTree
open scoped List

variable {spans : List Span} {span : Span} {roots missing : List SpanNode}

section Tops

variable {groups : List MissingParentGroup}

lemma spans_held (h : List.Forall₂ (Held spans) groups missing) :
    (missing.flatMap children).map (fun t => t.label.toSpan) =
      groups.flatMap MissingParentGroup.children := by
  induction h with
  | nil => rfl
  | cons hheld _ ih =>
    obtain ⟨spanId, cs, -, rfl, hcs, -⟩ := hheld
    rw [List.flatMap_cons, List.map_append, ih, children_node, hcs, List.flatMap_cons]

lemma grown_held (h : List.Forall₂ (Held spans) groups missing) :
    ∀ t ∈ missing.flatMap children, Grown spans [t.label.toSpan] t := by
  induction h with
  | nil => exact fun _ h => absurd h List.not_mem_nil
  | cons hheld _ ih =>
    obtain ⟨spanId, cs, -, rfl, -, hgrown⟩ := hheld
    rw [List.flatMap_cons, children_node, List.forall_mem_append]
    exact ⟨hgrown, ih⟩

lemma keys_grown (l : List SpanNode) (h : ∀ t ∈ l, Grown spans [t.label.toSpan] t) :
    ((l.flatMap labels).map NodeInfo.key).filter (fun node => !node.2) =
      (l.flatMap labels).map NodeInfo.key ∧
    ((l.flatMap labels).map NodeInfo.key).filter (fun node => node.2) = [] := by
  have hfresh : ∀ node ∈ (l.flatMap labels).map NodeInfo.key, node.2 = false := by
    intro node hnode
    obtain ⟨info, hinfo, rfl⟩ := List.mem_map.mp hnode
    obtain ⟨t, ht, hinfo⟩ := List.mem_flatMap.mp hinfo
    rw [((h t ht).mem_labels info hinfo).1]
    rfl
  exact ⟨List.filter_eq_self.mpr fun node hnode => by rw [hfresh node hnode]; rfl,
    List.filter_eq_nil_iff.mpr fun node hnode => by rw [hfresh node hnode]; exact nofun⟩

lemma keys_held (h : List.Forall₂ (Held spans) groups missing) :
    ((missing.flatMap labels).map NodeInfo.key).filter (fun node => !node.2) =
      ((missing.flatMap children).flatMap labels).map NodeInfo.key ∧
    (((missing.flatMap labels).map NodeInfo.key).filter (fun node => node.2)).map
      (fun node => node.1.spanId.val) = groups.map MissingParentGroup.missingParentId := by
  induction h with
  | nil => exact ⟨rfl, rfl⟩
  | cons hheld _ ih =>
    obtain ⟨spanId, cs, hid, rfl, -, hgrown⟩ := hheld
    obtain ⟨hshown, hnone⟩ := keys_grown cs hgrown
    simp only [List.flatMap_cons, labels_node, children_node, List.cons_append, List.map_cons,
      List.map_append, List.flatMap_append]
    constructor
    · rw [List.filter_cons_of_neg (by exact nofun), List.filter_append, hshown, ih.1]
    · rw [List.filter_cons_of_pos (by rfl), List.filter_append, hnone, List.nil_append,
        List.map_cons, ih.2, ← hid]
      rfl

lemma edges_tops {t : SpanNode} {e : NodeInfo × NodeInfo} (ht : t ∈ tops roots missing)
    (he : e ∈ t.edges) : e ∈ (roots ++ missing).flatMap edges := by
  rw [List.flatMap_append, List.mem_append]
  rcases List.mem_append.mp ht with ht | ht
  · exact .inl (List.mem_flatMap.mpr ⟨t, ht, he⟩)
  · obtain ⟨⟨info, cs⟩, hm, ht⟩ := List.mem_flatMap.mp ht
    refine .inr (List.mem_flatMap.mpr ⟨_, hm, ?_⟩)
    rw [edges_node, List.mem_flatMap]
    exact ⟨t, ht, List.mem_cons_of_mem _ he⟩

lemma held_of_mem (h : List.Forall₂ (Held spans) groups missing) :
    ∀ t ∈ missing, ∃ group, Held spans group t := by
  induction h with
  | nil => exact fun _ h => absurd h List.not_mem_nil
  | cons hheld _ ih => exact List.forall_mem_cons.mpr ⟨⟨_, hheld⟩, ih⟩

lemma exists_held {group : MissingParentGroup} (h : List.Forall₂ (Held spans) groups missing)
    (hgroup : group ∈ groups) : ∃ t ∈ missing, Held spans group t := by
  induction h with
  | nil => exact absurd hgroup List.not_mem_nil
  | @cons other t _ _ hother _ ih =>
    rcases List.mem_cons.mp hgroup with rfl | hgroup
    · exact ⟨t, List.mem_cons_self, hother⟩
    · obtain ⟨t', ht', hheld⟩ := ih hgroup
      exact ⟨t', List.mem_cons_of_mem t ht', hheld⟩

variable (hbase : Base spans roots missing)

include hbase

lemma Base.grown_tops : ∀ t ∈ tops roots missing, Grown spans [t.label.toSpan] t :=
  List.forall_mem_append.mpr ⟨hbase.grown, grown_held hbase.held⟩

lemma Base.heads_tops : (tops roots missing).map (fun t => t.label.toSpan) ~
    (dedupeBySpanId spans).filter fun node => !isChild (dedupeBySpanId spans) node := by
  rw [tops, List.map_append, hbase.heads, spans_held hbase.held]
  refine ((children_missing _).append_left _).trans ?_
  have hsplit := List.filter_append_perm (isOrphan (dedupeBySpanId spans))
    ((dedupeBySpanId spans).filter fun node => !isChild (dedupeBySpanId spans) node)
  rw [List.filter_filter, List.filter_filter] at hsplit
  refine List.perm_append_comm.trans (List.Perm.trans (.of_eq ?_) hsplit)
  congr 1
  · refine List.filter_congr fun node _ => ?_
    simp only [isOrphan, isChild]
    cases hasSpan (dedupeBySpanId spans) node.parentSpanId <;> simp
  · exact List.filter_congr fun node _ => Bool.and_comm _ _

lemma Base.exists_top {up : List Span} (hspan : First spans span)
    (hline : Lineage (ParentOf spans) (span :: up)) :
    ∃ t ∈ tops roots missing, [t.label.toSpan] <:+ span :: up := by
  obtain ⟨r, hsuffix, hroot⟩ := hline.exists_root
  have hmem := hline.subset ParentOf.mem (mem_dedupeBySpanId.mpr hspan)
    (hsuffix.subset List.mem_cons_self)
  have hnot : isChild (dedupeBySpanId spans) r = false := by
    rw [← Bool.not_eq_true, isChild_iff (mem_dedupeBySpanId.mp hmem)]
    exact fun ⟨p, hp⟩ => hroot p hp
  obtain ⟨t, ht, rfl⟩ := List.mem_map.mp (hbase.heads_tops.mem_iff.mpr
    (List.mem_filter.mpr ⟨hmem, by rw [hnot]; rfl⟩))
  exact ⟨t, ht, hsuffix⟩

lemma Base.nodup_tops : (((tops roots missing).flatMap labels).map NodeInfo.toSpan).Nodup :=
  nodup_below _ hbase.grown_tops
    (hbase.heads_tops.nodup_iff.mpr ((nodup_dedupe []).filter _))
    fun t ht => (hbase.grown_tops t ht).nodup

lemma Base.keys_tops : (((roots ++ missing).flatMap labels).map NodeInfo.key).filter
    (fun node => !node.2) = ((tops roots missing).flatMap labels).map NodeInfo.key := by
  rw [List.flatMap_append, List.map_append, List.filter_append, (keys_grown roots hbase.grown).1,
    (keys_held hbase.held).1, tops, List.flatMap_append, List.map_append]

lemma Base.mem_keys {span : Span} :
    (span, false) ∈ ((roots ++ missing).flatMap labels).map NodeInfo.key ↔
      freshInfo span ∈ (tops roots missing).flatMap labels := by
  have hfilter : (span, false) ∈ ((roots ++ missing).flatMap labels).map NodeInfo.key ↔
      (span, false) ∈ (((roots ++ missing).flatMap labels).map NodeInfo.key).filter
        fun node => !node.2 := by
    rw [List.mem_filter]
    exact (and_iff_left rfl).symm
  rw [hfilter, hbase.keys_tops, List.mem_map]
  constructor
  · intro ⟨info, hinfo, hkey⟩
    obtain ⟨t, ht, hlabel⟩ := List.mem_flatMap.mp hinfo
    have hfresh := ((hbase.grown_tops t ht).mem_labels info hlabel).1
    rwa [hfresh, (Prod.mk.inj hkey).1] at hinfo
  · exact fun h => ⟨freshInfo span, h, rfl⟩

/-- Every span of the tree leads up to a span without a parent among the spans. -/
lemma Base.lineage (h : (span, false) ∈ ((roots ++ missing).flatMap labels).map NodeInfo.key) :
    First spans span ∧ ∃ up, Lineage (ParentOf spans) (span :: up) := by
  obtain ⟨t, ht, hlabel⟩ := List.mem_flatMap.mp (hbase.mem_keys.mp h)
  obtain ⟨-, hfirst, up, hup, -⟩ := (hbase.grown_tops t ht).mem_labels _ hlabel
  exact ⟨hfirst, up, hup⟩

lemma Base.grouped (hspan : Orphan spans span) : ∃ holder : Span,
    holder.spanId.val = span.parentSpanId ∧ ((holder, true), (span, false)) ∈
      ((roots ++ missing).flatMap edges).map (Prod.map NodeInfo.key NodeInfo.key) := by
  have hmem := (children_missing (dedupeBySpanId spans)).mem_iff.mpr (List.mem_filter.mpr
    ⟨mem_dedupeBySpanId.mpr hspan.1, (isOrphan_iff hspan.1).mpr hspan⟩)
  obtain ⟨group, hgroup, hchild⟩ := List.mem_flatMap.mp hmem
  have hnamed := (grouped_missing (dedupeBySpanId spans)).named group hgroup span hchild
  obtain ⟨t, ht, spanId, cs, hid, rfl, hcs, hgrown⟩ := exists_held hbase.held hgroup
  obtain ⟨c, hc, rfl⟩ := List.mem_map.mp (hcs ▸ hchild)
  refine ⟨(placeholder spanId group.first).toSpan, hid.trans hnamed.symm, ?_⟩
  refine List.mem_map.mpr ⟨(placeholder spanId group.first, c.label), ?_, ?_⟩
  · refine List.mem_flatMap.mpr ⟨_, List.mem_append_right _ ht, ?_⟩
    rw [edges_node, List.mem_flatMap]
    exact ⟨c, hc, List.mem_cons_self⟩
  · rw [(hgrown c hc).label_eq]
    rfl

lemma Base.shown (hacyclic : ∀ span, ¬ Relation.TransGen (ParentOf spans) span span) :
    Shown spans (((roots ++ missing).flatMap labels).map NodeInfo.key)
      (((roots ++ missing).flatMap edges).map (Prod.map NodeInfo.key NodeInfo.key)) where
  once := by
    rw [hbase.keys_tops, List.map_map]
    have hids : ((fun node => node.1.spanId) ∘ NodeInfo.key) =
        Span.spanId ∘ NodeInfo.toSpan := rfl
    rw [hids, ← List.map_map]
    refine hbase.nodup_tops.map_on fun a ha b hb hid => ?_
    obtain ⟨info, hinfo, rfl⟩ := List.mem_map.mp ha
    obtain ⟨other, hother, rfl⟩ := List.mem_map.mp hb
    obtain ⟨t, ht, hlabel⟩ := List.mem_flatMap.mp hinfo
    obtain ⟨t', ht', hlabel'⟩ := List.mem_flatMap.mp hother
    exact ((hbase.grown_tops t ht).mem_labels info hlabel).2.1.unique
      ((hbase.grown_tops t' ht').mem_labels other hlabel').2.1 hid
  first span := by
    refine ⟨fun h => (hbase.lineage h).1, fun hspan => hbase.mem_keys.mpr ?_⟩
    obtain ⟨up, hup⟩ := Lineage.exists_of_acyclic ParentOf.mem hacyclic
      (mem_dedupeBySpanId.mpr hspan)
    obtain ⟨t, ht, hsuffix⟩ := hbase.exists_top hspan hup
    exact List.mem_flatMap.mpr ⟨t, ht, (hbase.grown_tops t ht).mem_of_lineage hup hsuffix⟩
  linked child parent hparent _ := by
    obtain ⟨up, hup⟩ := Lineage.exists_of_acyclic ParentOf.mem hacyclic (hparent.mem)
    obtain ⟨t, ht, hsuffix⟩ := hbase.exists_top hparent.2.1 hup
    exact List.mem_map.mpr ⟨_, edges_tops ht
      ((hbase.grown_tops t ht).edge_of_lineage hparent hup hsuffix), rfl⟩
  grouped span hspan := hbase.grouped hspan
  holders := by
    have hids := (grouped_missing (dedupeBySpanId spans)).ids
    rw [← (keys_held hbase.held).2] at hids
    rw [List.flatMap_append, List.map_append, List.filter_append,
      (keys_grown roots hbase.grown).2, List.nil_append]
    refine List.Nodup.of_map Subtype.val ?_
    rwa [List.map_map]

lemma Base.uncorrected (epochOf : String → ℚ) :
    Uncorrected (ordered epochOf (roots ++ missing)) := by
  have hskews := labels_ordered epochOf (roots ++ missing)
    (f := NodeInfo.clockSkewMs) fun _ _ => rfl
  intro info hinfo
  obtain ⟨bare, hbare, hskew⟩ := List.mem_map.mp
    (hskews.mem_iff.mp (List.mem_map_of_mem hinfo))
  rw [← hskew]
  obtain ⟨t, ht, hlabel⟩ := List.mem_flatMap.mp hbare
  rcases List.mem_append.mp ht with ht | ht
  · rw [((hbase.grown t ht).mem_labels bare hlabel).1]
    rfl
  · obtain ⟨group, spanId, cs, -, rfl, -, hgrown⟩ := held_of_mem hbase.held t ht
    rw [labels_node, List.mem_cons] at hlabel
    rcases hlabel with rfl | hlabel
    · rfl
    · obtain ⟨c, hc, hlabel⟩ := List.mem_flatMap.mp hlabel
      rw [((hgrown c hc).mem_labels bare hlabel).1]
      rfl

end Tops

/-- A span whose parent is no span of the input names that parent with a valid span id. -/
def NamesPlaceholder (spans : List Span) : Prop :=
  ∀ span, Orphan spans span → isMapleId span.parentSpanId = true

lemma groups_valid : (∀ group ∈ missingParentGroups (dedupeBySpanId spans),
    isMapleId group.missingParentId = true) ↔ NamesPlaceholder spans := by
  have hnamed := (grouped_missing (dedupeBySpanId spans)).named
  have hmem : ∀ span, span ∈ (missingParentGroups (dedupeBySpanId spans)).flatMap
      MissingParentGroup.children ↔ Orphan spans span := by
    intro span
    rw [(children_missing _).mem_iff, List.mem_filter, mem_dedupeBySpanId]
    exact ⟨fun h => (isOrphan_iff h.1).mp h.2, fun h => ⟨h.1, (isOrphan_iff h.1).mpr h⟩⟩
  constructor
  · intro hvalid span hspan
    obtain ⟨group, hgroup, hchild⟩ := List.mem_flatMap.mp ((hmem span).mpr hspan)
    rw [hnamed group hgroup span hchild]
    exact hvalid group hgroup
  · intro hvalid group hgroup
    have hfirst : group.first ∈ group.children := List.mem_cons_self
    rw [← hnamed group hgroup group.first hfirst]
    exact hvalid _ ((hmem _).mp (List.mem_flatMap.mpr ⟨group, hgroup, hfirst⟩))

/-- The tree is built and shows the input as it should exactly when following parents never comes
back to where it started and every absent parent can be given a placeholder. -/
theorem buildSpanTree_iff (epochOf : String → ℚ) (spans : List Span) :
    (∃ forest, buildSpanTree epochOf spans = .ok forest ∧ TraceTree epochOf spans forest) ↔
      (∀ span, ¬ Relation.TransGen (ParentOf spans) span span) ∧ NamesPlaceholder spans := by
  rcases buildSpanTree_cases epochOf spans with
    ⟨hvalid, roots, missing, hbase, hbuilt⟩ | ⟨hinvalid, value, hrefused⟩
  · have hreported := setSkew_adjusted epochOf (hbase.uncorrected epochOf)
    constructor
    · intro ⟨forest, hforest, htree⟩
      refine ⟨fun span hcycle => ?_, groups_valid.mp hvalid⟩
      obtain rfl := Except.ok.inj (hbuilt.symm.trans hforest)
      have hspan : First spans span := by
        obtain ⟨p, hp, -⟩ := Relation.TransGen.head'_iff.mp hcycle
        exact hp.1
      have hmem := (htree.shown.first span).mpr hspan
      rw [← labels_setSkew, hreported, (labels_ordered _ _ fun _ _ => rfl).mem_iff] at hmem
      obtain ⟨-, up, hup⟩ := hbase.lineage hmem
      exact hup.not_transGen_self ParentOf.unique hcycle
    · intro ⟨hacyclic, _⟩
      refine ⟨_, hbuilt, TraceTree.of_setSkew ?_⟩
      rw [hreported]
      exact traceTree_ordered (hbase.shown hacyclic)
  · constructor
    · intro ⟨forest, hforest, _⟩
      exact nomatch hrefused.symm.trans hforest
    · exact fun h => absurd (groups_valid.mpr h.2) hinvalid

end Maple.SpanTree
