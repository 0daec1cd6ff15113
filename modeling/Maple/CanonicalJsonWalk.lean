import Mathlib.Tactic
import Maple.CanonicalJson

/-! The walk ends unless an array is, through arrays alone, inside itself. -/

namespace Maple.CanonicalJson

open Relation

/-! ### Lists -/

section MapSeen
variable {α β σ : Type}

lemma mapSeen_mono {f g : α → σ → Option (β × σ)} {as : List α}
    (h : ∀ a ∈ as, ∀ seen r, f a seen = some r → g a seen = some r) {seen : σ} {r : List β × σ}
    (hf : mapSeen f as seen = some r) : mapSeen g as seen = some r := by
  induction as generalizing seen r with
  | nil => exact hf
  | cons a as ih =>
    rw [mapSeen] at hf ⊢
    cases hfirst : f a seen with
    | none =>
      rw [hfirst] at hf
      simp at hf
    | some first =>
      rw [hfirst] at hf
      rw [h a List.mem_cons_self seen first hfirst]
      obtain ⟨rest, hrest, hr⟩ := Option.map_eq_some_iff.mp hf
      have hrest' := ih (fun other hother => h other (List.mem_cons_of_mem _ hother)) hrest
      exact Option.map_eq_some_iff.mpr ⟨rest, hrest', hr⟩

lemma mapSeen_none {f : α → σ → Option (β × σ)} {as : List α} {a : α} (ha : a ∈ as)
    (h : ∀ seen, f a seen = none) (seen : σ) : mapSeen f as seen = none := by
  induction as generalizing seen with
  | nil => simp at ha
  | cons first as ih =>
    rw [mapSeen]
    rcases List.mem_cons.mp ha with rfl | ha
    · rw [h]
    · cases hfirst : f first seen with
      | none => rfl
      | some r =>
        dsimp only
        rw [ih ha, Option.map_none]

/-- Enough fuel for every item is enough for the list. -/
lemma mapSeen_exists {f : ℕ → α → σ → Option (β × σ)}
    (hmono : ∀ fuel fuel', fuel ≤ fuel' → ∀ a seen r, f fuel a seen = some r →
      f fuel' a seen = some r) (P : σ → Prop) {as : List α}
    (h : ∀ a ∈ as, ∀ seen, P seen → ∃ fuel r, f fuel a seen = some r ∧ P r.2) {seen : σ}
    (hseen : P seen) : ∃ fuel r, mapSeen (f fuel) as seen = some r ∧ P r.2 := by
  induction as generalizing seen with
  | nil => exact ⟨0, ([], seen), rfl, hseen⟩
  | cons a as ih =>
    obtain ⟨fuel, first, hfirst, hP⟩ := h a List.mem_cons_self seen hseen
    obtain ⟨fuel', rest, hrest, hP'⟩ :=
      ih (fun other hother => h other (List.mem_cons_of_mem _ hother)) hP
    refine ⟨max fuel fuel', (first.1 :: rest.1, rest.2), ?_, hP'⟩
    have hrest' : mapSeen (f (max fuel fuel')) as first.2 = some rest :=
      mapSeen_mono (fun other _ => hmono fuel' _ (le_max_right fuel fuel') other) hrest
    rw [mapSeen, hmono fuel _ (le_max_left fuel fuel') a seen first hfirst]
    dsimp only
    rw [hrest', Option.map_some]

/-- A relation that every item keeps, and that composes. -/
lemma mapSeen_inv {f : α → σ → Option (β × σ)} {R : σ → σ → Prop} {Q : σ → α → Prop}
    (hrefl : ∀ s, R s s) (htrans : ∀ s t u, R s t → R t u → R s u)
    (hkeep : ∀ s t a, R s t → Q s a → Q t a) {as : List α}
    (h : ∀ a ∈ as, ∀ s r, f a s = some r → R s r.2 ∧ Q r.2 a) {s : σ} {r : List β × σ}
    (hr : mapSeen f as s = some r) : R s r.2 ∧ ∀ a ∈ as, Q r.2 a := by
  induction as generalizing s r with
  | nil =>
    obtain rfl := Option.some.inj hr
    exact ⟨hrefl s, by simp⟩
  | cons a as ih =>
    rw [mapSeen] at hr
    cases hfirst : f a s with
    | none =>
      rw [hfirst] at hr
      simp at hr
    | some first =>
      rw [hfirst] at hr
      obtain ⟨rest, hrest, rfl⟩ := Option.map_eq_some_iff.mp hr
      obtain ⟨hR, hQ⟩ := h a List.mem_cons_self s first hfirst
      obtain ⟨hR', hQ'⟩ := ih (fun other hother => h other (List.mem_cons_of_mem _ hother)) hrest
      refine ⟨htrans _ _ _ hR hR', ?_⟩
      intro other hother
      rcases List.mem_cons.mp hother with rfl | hother
      · exact hkeep _ _ _ hR' hQ
      · exact hQ' other hother

end MapSeen

/-! ### Fuel -/

section Walk
variable {compare : LocaleCompare} {heap : Heap}

lemma walk_succ {fuel : ℕ} {value : Value} {seen : List ℕ} {r : Json × List ℕ}
    (h : walk compare heap fuel value seen = some r) :
    walk compare heap (fuel + 1) value seen = some r := by
  induction fuel generalizing value seen r with
  | zero => simp [walk] at h
  | succ fuel ih =>
    cases value with
    | atom atom => exact h
    | ref address =>
      rw [walk] at h ⊢
      cases hnode : heap address with
      | array items =>
        rw [hnode] at h
        obtain ⟨rest, hrest, hr⟩ := Option.map_eq_some_iff.mp h
        exact Option.map_eq_some_iff.mpr
          ⟨rest, mapSeen_mono (fun item _ seen r hitem => ih hitem) hrest, hr⟩
      | object record =>
        rw [hnode] at h
        dsimp only at h ⊢
        by_cases hmem : address ∈ seen
        · rw [if_pos hmem] at h ⊢
          exact h
        · rw [if_neg hmem] at h ⊢
          obtain ⟨rest, hrest, hr⟩ := Option.map_eq_some_iff.mp h
          refine Option.map_eq_some_iff.mpr ⟨rest, mapSeen_mono ?_ hrest, hr⟩
          intro entry _ seen r hentry
          obtain ⟨value, hvalue, hr⟩ := Option.map_eq_some_iff.mp hentry
          exact Option.map_eq_some_iff.mpr ⟨value, ih hvalue, hr⟩

lemma walk_le {fuel fuel' : ℕ} (hle : fuel ≤ fuel') {value : Value} {seen : List ℕ}
    {r : Json × List ℕ} (h : walk compare heap fuel value seen = some r) :
    walk compare heap fuel' value seen = some r := by
  induction hle with
  | refl => exact h
  | step _ ih => exact walk_succ ih

/-! ### Ends -/

/-- Induction along a relation without cycles on a finite set. -/
lemma finite_induction {S : Set ℕ} (hS : S.Finite) {R : ℕ → ℕ → Prop}
    (hclosed : ∀ r ∈ S, ∀ s, R r s → s ∈ S) (hcycle : ∀ r ∈ S, ¬TransGen R r r) {P : ℕ → Prop}
    (h : ∀ r ∈ S, (∀ s, R r s → P s) → P r) : ∀ r ∈ S, P r := by
  let below : ℕ → ℕ → Prop := fun s r => r ∈ S ∧ TransGen R r s
  have hirrefl : Std.Irrefl below := ⟨fun r hr => hcycle r hr.1 hr.2⟩
  have htrans : IsTrans ℕ below := ⟨fun _ _ _ hst htu => ⟨htu.1, htu.2.trans hst.2⟩⟩
  have horder : IsStrictOrder ℕ below := { }
  have hwf : S.WellFoundedOn below := hS.wellFoundedOn
  intro r hr
  refine hwf.induction hr fun s hs ih => h s hs fun t ht => ?_
  exact ih t (hclosed s hs t ht) ⟨hs, TransGen.single ht⟩

/-- What is left to visit. -/
def unseen (S : Finset ℕ) (seen : List ℕ) : ℕ := (S.filter fun r => r ∉ seen).card

lemma unseen_mono {S : Finset ℕ} {seen seen' : List ℕ} (h : seen ⊆ seen') :
    unseen S seen' ≤ unseen S seen := by
  apply Finset.card_le_card
  intro r hr
  rw [Finset.mem_filter] at hr ⊢
  exact ⟨hr.1, fun hmem => hr.2 (h hmem)⟩

lemma unseen_cons {S : Finset ℕ} {seen : List ℕ} {r : ℕ} (hr : r ∈ S) (hseen : r ∉ seen) :
    unseen S (r :: seen) < unseen S seen := by
  apply Finset.card_lt_card
  rw [Finset.ssubset_iff_of_subset]
  · exact ⟨r, by simp [hr, hseen], by simp⟩
  · intro s hs
    simp only [Finset.mem_filter, List.mem_cons, not_or] at hs ⊢
    exact ⟨hs.1, hs.2.2⟩

lemma walk_exists (compare : LocaleCompare) {S : Finset ℕ}
    (hclosed : ∀ r ∈ S, ∀ s, Child heap r s → s ∈ S)
    (hcycle : ∀ r ∈ S, ¬TransGen (ArrayItem heap) r r) (k : ℕ) :
    ∀ r ∈ S, ∀ seen, unseen S seen ≤ k →
      ∃ fuel result, walk compare heap fuel (.ref r) seen = some result ∧ seen ⊆ result.2 := by
  induction k using Nat.strong_induction_on with
  | _ k ih =>
    refine finite_induction (S := (S : Set ℕ)) S.finite_toSet
      (fun r hr s hs => hclosed r hr s (Or.inl hs)) hcycle fun r hr inner seen hseen => ?_
    cases hnode : heap r with
    | array items =>
      have hitems : ∀ item ∈ items, ∀ seen', seen ⊆ seen' → ∃ fuel result,
          walk compare heap fuel item seen' = some result ∧ seen ⊆ result.2 := by
        intro item hitem seen' hgrown
        cases item with
        | atom atom => exact ⟨1, (atom.json, seen'), rfl, hgrown⟩
        | ref s =>
          obtain ⟨fuel, result, hwalk, hsub⟩ := inner s ⟨items, hnode, hitem⟩ seen'
            ((unseen_mono hgrown).trans hseen)
          exact ⟨fuel, result, hwalk, List.Subset.trans hgrown hsub⟩
      have hmono : ∀ fuel fuel', fuel ≤ fuel' → ∀ item seen result,
          walk compare heap fuel item seen = some result →
            walk compare heap fuel' item seen = some result :=
        fun _ _ hle _ _ _ hwalk => walk_le hle hwalk
      obtain ⟨fuel, result, hmap, hsub⟩ := mapSeen_exists hmono (fun seen' => seen ⊆ seen') hitems
        (List.Subset.refl seen)
      refine ⟨fuel + 1, (.array result.1, result.2), ?_, hsub⟩
      rw [walk, hnode]
      dsimp only
      rw [hmap, Option.map_some]
    | object record =>
      by_cases hmem : r ∈ seen
      · refine ⟨1, (.null, seen), ?_, List.Subset.refl seen⟩
        rw [walk, hnode]
        dsimp only
        rw [if_pos hmem]
      · have hless : unseen S (r :: seen) < k := lt_of_lt_of_le (unseen_cons hr hmem) hseen
        let f := fun (fuel : ℕ) (entry : String × Value) (seen : List ℕ) =>
          (walk compare heap fuel entry.2 seen).map fun r => ((entry.1, r.1), r.2)
        have hmono : ∀ fuel fuel', fuel ≤ fuel' → ∀ entry seen result,
            f fuel entry seen = some result → f fuel' entry seen = some result := by
          intro fuel fuel' hle entry seen result hresult
          obtain ⟨value, hvalue, hr⟩ := Option.map_eq_some_iff.mp hresult
          exact Option.map_eq_some_iff.mpr ⟨value, walk_le hle hvalue, hr⟩
        have hfields : ∀ entry ∈ record.defined, ∀ seen', r :: seen ⊆ seen' → ∃ fuel result,
            f fuel entry seen' = some result ∧ r :: seen ⊆ result.2 := by
          intro entry hentry seen' hgrown
          obtain ⟨key, value⟩ := entry
          cases value with
          | atom atom => exact ⟨1, ((key, atom.json), seen'), rfl, hgrown⟩
          | ref s =>
            have hs : s ∈ S := hclosed r hr s (Or.inr ⟨record, key, hnode, hentry⟩)
            obtain ⟨fuel, result, hwalk, hsub⟩ := ih _ (lt_of_le_of_lt (unseen_mono hgrown) hless)
              s hs seen' le_rfl
            refine ⟨fuel, ((key, result.1), result.2), ?_, List.Subset.trans hgrown hsub⟩
            exact Option.map_eq_some_iff.mpr ⟨result, hwalk, rfl⟩
        obtain ⟨fuel, result, hmap, hsub⟩ := mapSeen_exists hmono
          (fun seen' => r :: seen ⊆ seen') hfields (List.Subset.refl _)
        refine ⟨fuel + 1, (.object (sortedFields compare result.1), result.2), ?_,
          List.Subset.trans (List.subset_cons_self r seen) hsub⟩
        rw [walk, hnode]
        dsimp only
        rw [if_neg hmem]
        exact Option.map_eq_some_iff.mpr ⟨result, hmap, rfl⟩

/-! ### Does not end -/

lemma next_on_cycle {R : ℕ → ℕ → Prop} {r : ℕ} (h : TransGen R r r) :
    ∃ s, R r s ∧ TransGen R s s := by
  obtain ⟨s, hrs, hsr⟩ := TransGen.head'_iff.mp h
  exact ⟨s, hrs, TransGen.tail' hsr hrs⟩

lemma walk_cycle {r : ℕ} (h : TransGen (ArrayItem heap) r r) (fuel : ℕ) (seen : List ℕ) :
    walk compare heap fuel (.ref r) seen = none := by
  induction fuel generalizing r seen with
  | zero => rfl
  | succ fuel ih =>
    obtain ⟨s, ⟨items, hnode, hitem⟩, hs⟩ := next_on_cycle h
    rw [walk, hnode]
    dsimp only
    rw [mapSeen_none hitem (ih hs), Option.map_none]

/-- The walk has been through a value: it meets no cycle of arrays, and objects that were visited
only. -/
def Met (heap : Heap) (seen : List ℕ) (value : Value) : Prop :=
  ∀ s r, value = .ref s → ReflTransGen (ArrayItem heap) s r →
    ¬TransGen (ArrayItem heap) r r ∧ ∀ record, heap r = .object record → r ∈ seen

def FieldsMet (heap : Heap) (seen : List ℕ) (r : ℕ) : Prop :=
  ∀ record, heap r = .object record → ∀ entry ∈ record.defined, Met heap seen entry.2

/-- Objects were visited, with their fields. -/
def Grown (heap : Heap) (seen seen' : List ℕ) : Prop :=
  seen ⊆ seen' ∧ ∀ r ∈ seen', r ∈ seen ∨ FieldsMet heap seen' r

lemma Met.mono {seen seen' : List ℕ} {value : Value} (hsub : seen ⊆ seen')
    (h : Met heap seen value) : Met heap seen' value := by
  intro s r hvalue hreach
  obtain ⟨hcycle, hobject⟩ := h s r hvalue hreach
  exact ⟨hcycle, fun record hrecord => hsub (hobject record hrecord)⟩

lemma Grown.refl (seen : List ℕ) : Grown heap seen seen :=
  ⟨List.Subset.refl seen, fun _ hr => Or.inl hr⟩

lemma Grown.trans {seen seen' seen'' : List ℕ} (h : Grown heap seen seen')
    (h' : Grown heap seen' seen'') : Grown heap seen seen'' := by
  refine ⟨List.Subset.trans h.1 h'.1, fun r hr => ?_⟩
  rcases h'.2 r hr with hr | hr
  · rcases h.2 r hr with hr | hr
    · exact Or.inl hr
    · exact Or.inr fun record hrecord entry hentry => (hr record hrecord entry hentry).mono h'.1
  · exact Or.inr hr

lemma not_arrayItem_of_object {r s : ℕ} {record : Record} (hnode : heap r = .object record) :
    ¬ArrayItem heap r s := by
  rintro ⟨items, hitems, -⟩
  rw [hnode] at hitems
  exact Node.noConfusion hitems

/-- An object that was visited. -/
lemma met_object {r : ℕ} {record : Record} (hnode : heap r = .object record) {seen : List ℕ}
    (hr : r ∈ seen) : Met heap seen (.ref r) := by
  rintro s t hs hreach
  obtain rfl := Value.ref.inj hs
  rcases hreach.cases_head with rfl | ⟨next, hnext, -⟩
  · refine ⟨fun hcycle => ?_, fun _ _ => hr⟩
    obtain ⟨next, hnext, -⟩ := next_on_cycle hcycle
    exact not_arrayItem_of_object hnode hnext
  · exact absurd hnext (not_arrayItem_of_object hnode)

lemma walk_met {fuel : ℕ} {value : Value} {seen : List ℕ} {result : Json × List ℕ}
    (h : walk compare heap fuel value seen = some result) :
    Grown heap seen result.2 ∧ Met heap result.2 value := by
  induction fuel generalizing value seen result with
  | zero => simp [walk] at h
  | succ fuel ih =>
    cases value with
    | atom atom =>
      obtain rfl := Option.some.inj h
      exact ⟨Grown.refl seen, fun s r hs => Value.noConfusion hs⟩
    | ref address =>
      have hcycle : ¬TransGen (ArrayItem heap) address address := fun hcycle => by
        rw [walk_cycle hcycle] at h
        simp at h
      rw [walk] at h
      cases hnode : heap address with
      | array items =>
        rw [hnode] at h
        obtain ⟨rest, hrest, rfl⟩ := Option.map_eq_some_iff.mp h
        obtain ⟨hgrown, hmet⟩ := mapSeen_inv (R := Grown heap) (Q := Met heap) Grown.refl
          (fun _ _ _ h h' => h.trans h') (fun _ _ _ hR hQ => hQ.mono hR.1)
          (fun item _ seen result hitem => ih hitem) hrest
        refine ⟨hgrown, ?_⟩
        intro s r hs hreach
        obtain rfl := Value.ref.inj hs
        rcases hreach.cases_head with rfl | ⟨next, ⟨items', hitems', hnext⟩, hreach⟩
        · refine ⟨hcycle, fun record hrecord => ?_⟩
          rw [hnode] at hrecord
          exact Node.noConfusion hrecord
        · rw [hnode] at hitems'
          obtain rfl := Node.array.inj hitems'
          exact hmet _ hnext next r rfl hreach
      | object record =>
        rw [hnode] at h
        dsimp only at h
        by_cases hmem : address ∈ seen
        · rw [if_pos hmem] at h
          obtain rfl := Option.some.inj h
          exact ⟨Grown.refl seen, met_object hnode hmem⟩
        · rw [if_neg hmem] at h
          obtain ⟨rest, hrest, rfl⟩ := Option.map_eq_some_iff.mp h
          obtain ⟨hgrown, hmet⟩ := mapSeen_inv (R := Grown heap)
            (Q := fun seen (entry : String × Value) => Met heap seen entry.2) Grown.refl
            (fun _ _ _ h h' => h.trans h') (fun _ _ _ hR hQ => hQ.mono hR.1)
            (fun entry _ seen result hentry => by
              obtain ⟨value, hvalue, rfl⟩ := Option.map_eq_some_iff.mp hentry
              exact ih hvalue) hrest
          refine ⟨⟨List.Subset.trans (List.subset_cons_self address seen) hgrown.1, ?_⟩,
            met_object hnode (hgrown.1 List.mem_cons_self)⟩
          intro r hr
          rcases hgrown.2 r hr with hr | hr
          · rcases List.mem_cons.mp hr with rfl | hr
            · refine Or.inr fun record' hrecord' entry hentry => ?_
              rw [hnode] at hrecord'
              obtain rfl := Node.object.inj hrecord'
              exact hmet entry hentry
            · exact Or.inl hr
          · exact Or.inr hr

/-- All that the value reaches is met by a walk from nothing seen. -/
lemma met_of_reaches {fuel : ℕ} {value : Value} {result : Json × List ℕ}
    (h : walk compare heap fuel value [] = some result) {r : ℕ} (hr : Reaches heap value r) :
    Met heap result.2 (.ref r) := by
  obtain ⟨hgrown, hmet⟩ := walk_met h
  obtain ⟨s, rfl, hreach⟩ := hr
  induction hreach with
  | refl => exact hmet
  | tail _ hstep ih =>
    rename_i r t _
    rcases hstep with hitem | ⟨record, key, hnode, hfield⟩
    · intro s' u hs hreach
      obtain rfl := Value.ref.inj hs
      exact ih r u rfl (ReflTransGen.head hitem hreach)
    · have hseen := (ih r r rfl ReflTransGen.refl).2 record hnode
      rcases hgrown.2 r hseen with hnone | hfields
      · simp at hnone
      · exact hfields record hnode _ hfield

/-- The walk ends exactly if no array that it reaches is inside itself through arrays alone. -/
lemma walk_ends_iff (a : InMemory) :
    (∃ fuel result, walk compare a.heap fuel a.value [] = some result) ↔
      ∀ r, Reaches a.heap a.value r → ¬TransGen (ArrayItem a.heap) r r := by
  constructor
  · rintro ⟨fuel, result, hwalk⟩ r hr
    exact (met_of_reaches hwalk hr r r rfl ReflTransGen.refl).1
  · intro h
    cases hvalue : a.value with
    | atom atom => exact ⟨1, (atom.json, []), rfl⟩
    | ref s =>
      have hmem : ∀ r, r ∈ a.finite.toFinset ↔ Reaches a.heap a.value r := by simp
      have hclosed : ∀ r ∈ a.finite.toFinset, ∀ t, Child a.heap r t → t ∈ a.finite.toFinset := by
        intro r hr t hstep
        rw [hmem] at hr ⊢
        obtain ⟨s, hs, hreach⟩ := hr
        exact ⟨s, hs, hreach.tail hstep⟩
      obtain ⟨fuel, result, hwalk, -⟩ := walk_exists compare hclosed
        (fun r hr => h r ((hmem r).mp hr)) _ s ((hmem s).mpr ⟨s, hvalue, ReflTransGen.refl⟩) []
        le_rfl
      exact ⟨fuel, result, hwalk⟩

end Walk

end Maple.CanonicalJson
