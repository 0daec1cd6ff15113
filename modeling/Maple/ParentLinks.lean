import Mathlib.Data.List.Nodup
import Mathlib.Order.WellFoundedSet
import Mathlib.Data.Set.Finite.List

/-! Nodes that name their parents: the lineages of nodes, and the cycles that leave a node without
one. -/

namespace Maple

variable {α : Type} {up : α → α → Prop}

/-- A node, its parent, and so on up to a node without a parent. -/
inductive Lineage (up : α → α → Prop) : List α → Prop
  | root {r : α} (hr : ∀ p, ¬ up r p) : Lineage up [r]
  | child {c p : α} {rest : List α} (hc : up c p) (hp : Lineage up (p :: rest)) :
      Lineage up (c :: p :: rest)

namespace Lineage

variable {s c p : α} {l l' rest : List α}

lemma child_iff : Lineage up (c :: p :: rest) ↔ up c p ∧ Lineage up (p :: rest) := by
  constructor
  · intro h
    cases h with
    | child hc hp => exact ⟨hc, hp⟩
  · exact fun h => .child h.1 h.2

lemma of_suffix (h : Lineage up l) (hl : l' <:+ l) (hne : l' ≠ []) : Lineage up l' := by
  induction h with
  | root hr =>
    rcases List.suffix_cons_iff.mp hl with rfl | hl
    · exact .root hr
    · exact absurd (List.suffix_nil.mp hl) hne
  | child hc hp ih =>
    rcases List.suffix_cons_iff.mp hl with rfl | hl
    · exact .child hc hp
    · exact ih hl

lemma exists_root (h : Lineage up l) : ∃ r, [r] <:+ l ∧ ∀ p, ¬ up r p := by
  induction h with
  | @root r hr => exact ⟨r, List.suffix_rfl, hr⟩
  | child _ _ ih =>
    obtain ⟨r, hsuffix, hr⟩ := ih
    exact ⟨r, hsuffix.trans (List.suffix_cons _ _), hr⟩

lemma unique (hup : ∀ c p q, up c p → up c q → p = q) (h : Lineage up l) (h' : Lineage up l')
    (hhead : l.head? = l'.head?) : l = l' := by
  induction h generalizing l' with
  | root hr =>
    cases h' with
    | root => exact congrArg (fun s => s.toList) hhead
    | child hc => exact absurd (Option.some.inj hhead ▸ hc) (hr _)
  | child hc hp ih =>
    cases h' with
    | root hr => exact absurd (Option.some.inj hhead ▸ hc) (hr _)
    | child hc' hp' =>
      have hsame := Option.some.inj hhead
      have hparent := hup _ _ _ hc (hsame ▸ hc')
      rw [hsame, ih hp' (congrArg some hparent)]

/-- A node is not above itself in its lineage. -/
lemma nodup (hup : ∀ c p q, up c p → up c q → p = q) (h : Lineage up l) : l.Nodup := by
  induction h with
  | root => exact List.nodup_singleton _
  | child hc hp ih =>
    refine List.nodup_cons.mpr ⟨fun hmem => ?_, ih⟩
    obtain ⟨above, rest', hsplit⟩ := List.append_of_mem hmem
    have hshort := hp.of_suffix ⟨above, hsplit.symm⟩ (List.cons_ne_nil _ _)
    have hlength := congrArg List.length (hshort.unique hup (.child hc hp) rfl)
    have hwhole := congrArg List.length hsplit
    simp only [List.length_append, List.length_cons] at hlength hwhole
    omega

lemma subset {nodes : List α} (hnodes : ∀ c p, up c p → p ∈ nodes) (h : Lineage up (s :: l))
    (hs : s ∈ nodes) : s :: l ⊆ nodes := by
  induction l generalizing s with
  | nil => exact List.cons_subset.mpr ⟨hs, List.nil_subset nodes⟩
  | cons p rest ih =>
    obtain ⟨hc, hp⟩ := child_iff.mp h
    exact List.cons_subset.mpr ⟨hs, ih hp (hnodes s p hc)⟩

lemma length_le {nodes : List α} (hup : ∀ c p q, up c p → up c q → p = q)
    (hnodes : ∀ c p, up c p → p ∈ nodes) (h : Lineage up (s :: l)) (hs : s ∈ nodes) :
    (s :: l).length ≤ nodes.length :=
  ((h.nodup hup).subperm (h.subset hnodes hs)).length_le

/-- Following parents from a node moves up its lineage. -/
lemma of_transGen (hup : ∀ c p q, up c p → up c q → p = q) (hchain : Relation.TransGen up s p)
    (h : Lineage up (s :: l)) : ∃ rest, Lineage up (p :: rest) ∧ rest.length < l.length := by
  have hstep : ∀ {c p l}, up c p → Lineage up (c :: l) → ∃ rest, l = p :: rest ∧
      Lineage up (p :: rest) := by
    intro c p l hc h
    cases h with
    | root hr => exact absurd hc (hr p)
    | child hc' hp =>
      obtain rfl := hup _ _ _ hc hc'
      exact ⟨_, rfl, hp⟩
  induction hchain with
  | single hc =>
    obtain ⟨rest, rfl, hp⟩ := hstep hc h
    exact ⟨rest, hp, by simp⟩
  | tail _ hc ih =>
    obtain ⟨rest, hp, hlength⟩ := ih
    obtain ⟨rest', rfl, hp'⟩ := hstep hc hp
    exact ⟨rest', hp', by rw [List.length_cons] at hlength; omega⟩

lemma not_transGen_self (hup : ∀ c p q, up c p → up c q → p = q) (h : Lineage up (s :: l)) :
    ¬ Relation.TransGen up s s := by
  intro hcycle
  obtain ⟨rest, hrest, hlength⟩ := of_transGen hup hcycle h
  have hsame := hrest.unique hup h rfl
  rw [(List.cons.inj hsame).2] at hlength
  exact lt_irrefl _ hlength

/-- Among finitely many nodes without a cycle of parents, each one has a lineage. -/
lemma exists_of_acyclic {nodes : List α} (hnodes : ∀ c p, up c p → p ∈ nodes)
    (hacyclic : ∀ s, ¬ Relation.TransGen up s s) (hs : s ∈ nodes) : ∃ l, Lineage up (s :: l) := by
  have horder : IsStrictOrder α (fun p c => Relation.TransGen up c p) :=
    { irrefl := hacyclic
      trans := fun _ _ _ hab hbc => hbc.trans hab }
  have hwf := (nodes.finite_toSet).wellFoundedOn (r := fun p c => Relation.TransGen up c p)
  refine hwf.induction (P := fun s => ∃ l, Lineage up (s :: l)) hs fun s hs ih => ?_
  by_cases hparent : ∃ p, up s p
  · obtain ⟨p, hp⟩ := hparent
    obtain ⟨l, hl⟩ := ih p (hnodes s p hp) (.single hp)
    exact ⟨p :: l, .child hp hl⟩
  · exact ⟨[], .root fun p hp => hparent ⟨p, hp⟩⟩

end Lineage

end Maple
