import Maple.CanonicalJsonSame

/-! Values without cycles are written out, and two texts are the same only if what the walks return
is. -/

namespace Maple.CanonicalJson

open Relation

/-! ### Values without cycles -/

section Exists
variable {compare : LocaleCompare} {heap heap' : Heap}

lemma tree_succ {fuel : ℕ} {value : Value} {j : Json} (h : tree compare heap fuel value = some j) :
    tree compare heap (fuel + 1) value = some j := by
  induction fuel generalizing value j with
  | zero => simp [tree] at h
  | succ fuel ih =>
    cases value with
    | atom atom => exact h
    | ref r =>
      cases hnode : heap r with
      | array items =>
        obtain ⟨written, rfl, hitems⟩ := (tree_array hnode).mp h
        exact (tree_array hnode).mpr ⟨written, rfl, hitems.imp fun _ _ => ih⟩
      | object record =>
        obtain ⟨entries, rfl, hentries⟩ := (tree_object hnode).mp h
        exact (tree_object hnode).mpr ⟨entries, rfl,
          List.Forall₂.imp (fun _ _ hfield => ⟨hfield.1, ih hfield.2⟩) hentries⟩

lemma tree_le {fuel fuel' : ℕ} (hle : fuel ≤ fuel') {value : Value} {j : Json}
    (h : tree compare heap fuel value = some j) : tree compare heap fuel' value = some j := by
  induction hle with
  | refl => exact h
  | step _ ih => exact tree_succ ih

/-- A value without cycles can be written out. -/
lemma tree_exists (compare : LocaleCompare) {a : InMemory} (h : a.Acyclic) :
    ∃ fuel j, tree compare a.heap fuel a.value = some j := by
  cases hvalue : a.value with
  | atom atom => exact ⟨1, atom.json, rfl⟩
  | ref s =>
    have hclosed : ∀ r ∈ {r | Reaches a.heap a.value r}, ∀ t, Child a.heap r t →
        t ∈ {r | Reaches a.heap a.value r} := by
      rintro r ⟨s, hs, hreach⟩ t hstep
      exact ⟨s, hs, hreach.tail hstep⟩
    refine finite_induction a.finite hclosed h (P := fun r =>
      ∃ fuel j, tree compare a.heap fuel (.ref r) = some j) ?_ s ⟨s, hvalue, ReflTransGen.refl⟩
    intro r _ ih
    have hvalues : ∀ value, (∀ t, value = .ref t → Child a.heap r t) →
        ∃ fuel j, tree compare a.heap fuel value = some j := by
      intro value hchild
      cases value with
      | atom atom => exact ⟨1, atom.json, rfl⟩
      | ref t => exact ih t (hchild t rfl)
    cases hnode : a.heap r with
    | array items =>
      obtain ⟨fuel, written, hwritten⟩ := mapM_exists (f := tree compare a.heap)
        (fun _ _ hle _ _ hitem => tree_le hle hitem) fun item hitem =>
          hvalues item fun t ht => Or.inl ⟨items, hnode, ht ▸ hitem⟩
      exact ⟨fuel + 1, _, (tree_array hnode).mpr ⟨written, rfl, mapM_iff_forall₂.mp hwritten⟩⟩
    | object record =>
      have hfields : ∀ entry ∈ record.defined, ∃ fuel field,
          (tree compare a.heap fuel entry.2).map (fun value => (entry.1, value)) = some field := by
        intro entry hentry
        obtain ⟨fuel, j, hj⟩ := hvalues entry.2 fun t ht =>
          Or.inr ⟨record, entry.1, hnode, ht ▸ hentry⟩
        exact ⟨fuel, (entry.1, j), Option.map_eq_some_iff.mpr ⟨j, hj, rfl⟩⟩
      obtain ⟨fuel, entries, hentries⟩ := mapM_exists (f := fun fuel (entry : String × Value) =>
        (tree compare a.heap fuel entry.2).map fun value => (entry.1, value))
        (fun _ _ hle entry field hfield => by
          obtain ⟨j, hj, rfl⟩ := Option.map_eq_some_iff.mp hfield
          exact Option.map_eq_some_iff.mpr ⟨j, tree_le hle hj, rfl⟩) hfields
      refine ⟨fuel + 1, .object (sortedFields compare entries), ?_⟩
      rw [tree, hnode]
      exact Option.map_eq_some_iff.mpr ⟨entries, hentries, rfl⟩

lemma flatMap_sublist {α : Type} {f g : α → List ℕ} (h : ∀ a, (f a).Sublist (g a)) (as : List α) :
    (as.flatMap f).Sublist (as.flatMap g) := by
  induction as with
  | nil => exact List.Sublist.slnil
  | cons a as ih =>
    rw [List.flatMap_cons, List.flatMap_cons]
    exact (h a).append ih

lemma occurrences_sublist (depth : ℕ) (value : Value) :
    (occurrences heap depth value).Sublist (occurrences heap (depth + 1) value) := by
  induction depth generalizing value with
  | zero => exact List.nil_sublist _
  | succ depth ih =>
    cases value with
    | atom atom => exact List.Sublist.refl _
    | ref r =>
      rw [occurrences, occurrences]
      cases heap r with
      | array items => exact flatMap_sublist ih items
      | object record =>
        exact (flatMap_sublist (fun entry : String × Value => ih entry.2) record.defined).cons_cons r

lemma occurrences_le {depth depth' : ℕ} (hle : depth ≤ depth') (value : Value) :
    (occurrences heap depth value).Sublist (occurrences heap depth' value) := by
  induction hle with
  | refl => exact List.Sublist.refl _
  | step _ ih => exact ih.trans (occurrences_sublist _ value)

/-- Nothing occurs deeper than a value is. -/
lemma unshared_iff {a : InMemory} {fuel : ℕ} {j : Json}
    (h : tree compare a.heap fuel a.value = some j) :
    a.Unshared ↔ (occurrences a.heap fuel a.value).Nodup := by
  refine ⟨fun hunshared => hunshared fuel, fun hnodup depth => ?_⟩
  set most := max fuel depth with hmost
  have hsame : occurrences a.heap fuel a.value = occurrences a.heap most a.value := by
    refine (occurrences_le (le_max_left fuel depth) a.value).eq_of_length ?_
    rw [← objects_tree h, ← objects_tree (tree_le (le_max_left fuel depth) h)]
  exact (hsame ▸ hnodup).sublist (occurrences_le (le_max_right fuel depth) a.value)

/-! ### What is returned -/

lemma numeric_atom (atom : Atom) : atom.json.Numeric := by
  cases atom with
  | number text => exact text.2
  | _ => trivial

lemma mapSeen_forall {α β σ : Type} {f : α → σ → Option (β × σ)} {P : β → Prop}
    (h : ∀ a s r, f a s = some r → P r.1) {as : List α} {s : σ} {r : List β × σ}
    (hr : mapSeen f as s = some r) : ∀ b ∈ r.1, P b := by
  induction as generalizing s r with
  | nil =>
    obtain rfl := Option.some.inj hr
    simp
  | cons a as ih =>
    rw [mapSeen] at hr
    cases hfirst : f a s with
    | none =>
      rw [hfirst] at hr
      simp at hr
    | some first =>
      rw [hfirst] at hr
      obtain ⟨rest, hrest, rfl⟩ := Option.map_eq_some_iff.mp hr
      intro b hb
      rcases List.mem_cons.mp hb with rfl | hb
      · exact h a s first hfirst
      · exact ih hrest b hb

lemma numeric_walk {fuel : ℕ} {value : Value} {seen : List ℕ} {result : Json × List ℕ}
    (h : walk compare heap fuel value seen = some result) : result.1.Numeric := by
  induction fuel generalizing value seen result with
  | zero => simp [walk] at h
  | succ fuel ih =>
    cases value with
    | atom atom =>
      obtain rfl := Option.some.inj h
      exact numeric_atom atom
    | ref r =>
      rw [walk] at h
      cases hnode : heap r with
      | array items =>
        rw [hnode] at h
        obtain ⟨rest, hrest, rfl⟩ := Option.map_eq_some_iff.mp h
        exact Json.numericItems_iff.mpr (mapSeen_forall (fun _ _ _ hitem => ih hitem) hrest)
      | object record =>
        rw [hnode] at h
        dsimp only at h
        by_cases hmem : r ∈ seen
        · rw [if_pos hmem] at h
          obtain rfl := Option.some.inj h
          trivial
        · rw [if_neg hmem] at h
          obtain ⟨rest, hrest, rfl⟩ := Option.map_eq_some_iff.mp h
          have hfields : ∀ field ∈ rest.1, Json.Numeric field.2 := by
            refine mapSeen_forall (fun entry s field hfield => ?_) hrest
            obtain ⟨value, hvalue, rfl⟩ := Option.map_eq_some_iff.mp hfield
            exact ih hvalue
          refine Json.numericFields_iff.mpr fun field hfield => hfields field ?_
          exact (sortedFields_perm compare rest.1).mem_iff.mp hfield

/-- Two calls return one text exactly if the walks return one value. -/
lemma returns_both_iff {a b : InMemory} {fuel fuel' : ℕ} {r r' : Json × List ℕ}
    (ha : walk compare a.heap fuel a.value [] = some r)
    (hb : walk compare b.heap fuel' b.value [] = some r') :
    (∃ text, a.Returns compare text ∧ b.Returns compare text) ↔ r.1 = r'.1 := by
  have hreturns : ∀ {c : InMemory} {fuel : ℕ} {r : Json × List ℕ},
      walk compare c.heap fuel c.value [] = some r →
        ∀ text, c.Returns compare text ↔ text = r.1.stringify := by
    intro c fuel r hc text
    constructor
    · rintro ⟨fuel', hfuel'⟩
      obtain ⟨r', hr', rfl⟩ := Option.map_eq_some_iff.mp hfuel'
      have h := walk_le (le_max_left fuel fuel') hc
      rw [walk_le (le_max_right fuel fuel') hr'] at h
      rw [Option.some.inj h]
    · rintro rfl
      exact ⟨fuel, Option.map_eq_some_iff.mpr ⟨r, hc, rfl⟩⟩
  rw [← Json.stringify_inj (numeric_walk ha) (numeric_walk hb)]
  constructor
  · rintro ⟨text, htext, htext'⟩
    rw [← (hreturns ha text).mp htext, ← (hreturns hb text).mp htext']
  · intro h
    exact ⟨_, (hreturns ha _).mpr rfl, (hreturns hb _).mpr h⟩

end Exists

end Maple.CanonicalJson
