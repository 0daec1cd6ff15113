import Maple.CanonicalJsonWalk

/-! What a value without cycles is when it is written out, and when the walk writes it out. -/

namespace Maple.CanonicalJson

open Relation

/-- The walk without a visited set. -/
def tree (compare : LocaleCompare) (heap : Heap) : ℕ → Value → Option Json
  | 0, _ => none
  | _ + 1, .atom atom => some atom.json
  | fuel + 1, .ref address =>
    match heap address with
    | .array items => (items.mapM (tree compare heap fuel)).map .array
    | .object record =>
      (record.defined.mapM fun entry =>
        (tree compare heap fuel entry.2).map fun value => (entry.1, value)).map
        fun entries => .object (sortedFields compare entries)

/-! ### Lists -/

section MapM
variable {α β : Type}

lemma mapM_iff_forall₂ {f : α → Option β} {as : List α} {bs : List β} :
    as.mapM f = some bs ↔ List.Forall₂ (fun a b => f a = some b) as bs := by
  induction as generalizing bs with
  | nil => simp [eq_comm]
  | cons a as ih =>
    rw [List.mapM_cons, List.forall₂_cons_left_iff]
    constructor
    · intro h
      obtain ⟨b, hb, h⟩ := Option.bind_eq_some_iff.mp h
      obtain ⟨rest, hrest, h⟩ := Option.bind_eq_some_iff.mp h
      obtain rfl := Option.some.inj h
      exact ⟨b, rest, hb, ih.mp hrest, rfl⟩
    · rintro ⟨b, rest, hb, hrest, rfl⟩
      rw [hb, ih.mpr hrest]
      rfl

lemma mapM_exists {f : ℕ → α → Option β}
    (hmono : ∀ fuel fuel', fuel ≤ fuel' → ∀ a b, f fuel a = some b → f fuel' a = some b)
    {as : List α} (h : ∀ a ∈ as, ∃ fuel b, f fuel a = some b) :
    ∃ fuel bs, as.mapM (f fuel) = some bs := by
  induction as with
  | nil => exact ⟨0, [], rfl⟩
  | cons a as ih =>
    obtain ⟨fuel, b, hb⟩ := h a List.mem_cons_self
    obtain ⟨fuel', bs, hbs⟩ := ih fun other hother => h other (List.mem_cons_of_mem _ hother)
    refine ⟨max fuel fuel', b :: bs, mapM_iff_forall₂.mpr (List.Forall₂.cons ?_ ?_)⟩
    · exact hmono fuel _ (le_max_left fuel fuel') a b hb
    · exact (mapM_iff_forall₂.mp hbs).imp fun a b => hmono fuel' _ (le_max_right fuel fuel') a b

/-- A stateful map whose items occur once does what the plain map does. -/
lemma mapSeen_plain {f : α → List ℕ → Option (β × List ℕ)} {g : α → Option β} {occ : α → List ℕ}
    (h : ∀ a b, g a = some b → ∀ seen, (occ a).Nodup → (occ a).Disjoint seen →
      f a seen = some (b, (occ a).reverse ++ seen)) {as : List α} {bs : List β}
    (hg : as.mapM g = some bs) {seen : List ℕ} (hnodup : (as.flatMap occ).Nodup)
    (hdisjoint : (as.flatMap occ).Disjoint seen) :
    mapSeen f as seen = some (bs, (as.flatMap occ).reverse ++ seen) := by
  rw [mapM_iff_forall₂] at hg
  induction hg generalizing seen with
  | nil => rfl
  | @cons a b as bs hb hbs ih =>
    rw [List.flatMap_cons] at hnodup hdisjoint ⊢
    obtain ⟨hfirst, hrest, hapart⟩ := List.nodup_append'.mp hnodup
    rw [List.disjoint_append_left] at hdisjoint
    rw [mapSeen, h a b hb seen hfirst hdisjoint.1]
    dsimp only
    have hnext : (as.flatMap occ).Disjoint ((occ a).reverse ++ seen) := by
      rw [List.disjoint_append_right]
      refine ⟨?_, hdisjoint.2⟩
      intro r hr hmem
      exact hapart (List.mem_reverse.mp hmem) hr
    rw [ih hrest hnext, Option.map_some]
    simp

/-- Items that count what they add to the visited. -/
lemma mapSeen_count {f : α → List ℕ → Option (β × List ℕ)} (size : β → ℕ) (occ : α → List ℕ)
    (h : ∀ a seen r, f a seen = some r → seen.Nodup → ∃ new, r.2 = new ++ seen ∧ r.2.Nodup ∧
      new.length = size r.1 ∧ new ⊆ occ a) {as : List α} {seen : List ℕ} {r : List β × List ℕ}
    (hr : mapSeen f as seen = some r) (hnodup : seen.Nodup) :
    ∃ new, r.2 = new ++ seen ∧ r.2.Nodup ∧ new.length = (r.1.map size).sum ∧
      new ⊆ as.flatMap occ := by
  induction as generalizing seen r with
  | nil =>
    obtain rfl := Option.some.inj hr
    exact ⟨[], rfl, hnodup, rfl, by simp⟩
  | cons a as ih =>
    rw [mapSeen] at hr
    cases hfirst : f a seen with
    | none =>
      rw [hfirst] at hr
      simp at hr
    | some first =>
      rw [hfirst] at hr
      obtain ⟨rest, hrest, rfl⟩ := Option.map_eq_some_iff.mp hr
      obtain ⟨new, hnew, hnodup', hlength, hsub⟩ := h a seen first hfirst hnodup
      obtain ⟨new', hnew', hnodup'', hlength', hsub'⟩ := ih hrest hnodup'
      refine ⟨new' ++ new, ?_, hnodup'', ?_, ?_⟩
      · dsimp only
        rw [hnew', hnew, List.append_assoc]
      · simp only [List.length_append, List.map_cons, List.sum_cons]
        omega
      · intro r hmem
        rw [List.flatMap_cons]
        rcases List.mem_append.mp hmem with hmem | hmem
        · exact List.mem_append_right _ (hsub' hmem)
        · exact List.mem_append_left _ (hsub hmem)

end MapM

/-! ### Counting objects -/

mutual

/-- The objects in a written value. -/
def objects : Json → ℕ
  | .array items => objectsIn items
  | .object fields => objectsAt fields + 1
  | _ => 0

def objectsIn : List Json → ℕ
  | [] => 0
  | item :: items => objects item + objectsIn items

def objectsAt : List (String × Json) → ℕ
  | [] => 0
  | (_, value) :: fields => objects value + objectsAt fields

end

lemma objectsIn_eq (items : List Json) : objectsIn items = (items.map objects).sum := by
  induction items with
  | nil => rfl
  | cons item items ih => simp [objectsIn, ih]

lemma objectsAt_eq (fields : List (String × Json)) :
    objectsAt fields = (fields.map fun field => objects field.2).sum := by
  induction fields with
  | nil => rfl
  | cons field fields ih =>
    obtain ⟨key, value⟩ := field
    simp [objectsAt, ih]

lemma sortedFields_perm (compare : LocaleCompare) (entries : List (String × Json)) :
    (sortedFields compare entries).Perm entries := by
  rw [sortedFields, fromEntries]
  refine ((List.perm_insertionSort _ _).append_right _).trans ?_
  exact (List.filter_append_perm _ _).trans (List.perm_insertionSort _ _)

lemma objects_atom (atom : Atom) : objects atom.json = 0 := by
  cases atom <;> rfl

lemma objects_sorted (compare : LocaleCompare) (entries : List (String × Json)) :
    objects (.object (sortedFields compare entries)) =
      (entries.map fun entry => objects entry.2).sum + 1 := by
  rw [objects, objectsAt_eq, ((sortedFields_perm compare entries).map _).sum_eq]

section Tree
variable {compare : LocaleCompare} {heap : Heap}

lemma forall₂_sum {α β : Type} {as : List α} {bs : List β} {R : α → β → Prop} {size : β → ℕ}
    {n : α → ℕ} (h : List.Forall₂ R as bs) (hcount : ∀ a b, R a b → size b = n a) :
    (bs.map size).sum = (as.map n).sum := by
  induction h with
  | nil => rfl
  | cons hab _ ih => simp [hcount _ _ hab, ih]

/-- A value that is written out has its objects as often as they occur. -/
lemma objects_tree {fuel : ℕ} {value : Value} {j : Json}
    (h : tree compare heap fuel value = some j) :
    objects j = (occurrences heap fuel value).length := by
  induction fuel generalizing value j with
  | zero => simp [tree] at h
  | succ fuel ih =>
    cases value with
    | atom atom =>
      obtain rfl := Option.some.inj h
      exact objects_atom atom
    | ref address =>
      rw [tree] at h
      rw [occurrences]
      cases hnode : heap address with
      | array items =>
        rw [hnode] at h
        obtain ⟨written, hwritten, rfl⟩ := Option.map_eq_some_iff.mp h
        rw [objects, objectsIn_eq, List.length_flatMap]
        exact forall₂_sum (mapM_iff_forall₂.mp hwritten) fun item j hitem => ih hitem
      | object record =>
        rw [hnode] at h
        obtain ⟨entries, hentries, rfl⟩ := Option.map_eq_some_iff.mp h
        rw [objects_sorted, List.length_cons, List.length_flatMap]
        congr 1
        refine forall₂_sum (mapM_iff_forall₂.mp hentries) fun entry field hentry => ?_
        obtain ⟨value, hvalue, rfl⟩ := Option.map_eq_some_iff.mp hentry
        exact ih hvalue

/-- The walk counts each object that it visits once. -/
lemma objects_walk {fuel : ℕ} {value : Value} {seen : List ℕ} {result : Json × List ℕ}
    (h : walk compare heap fuel value seen = some result) (hnodup : seen.Nodup) :
    ∃ new, result.2 = new ++ seen ∧ result.2.Nodup ∧ new.length = objects result.1 ∧
      new ⊆ occurrences heap fuel value := by
  induction fuel generalizing value seen result with
  | zero => simp [walk] at h
  | succ fuel ih =>
    cases value with
    | atom atom =>
      obtain rfl := Option.some.inj h
      exact ⟨[], rfl, hnodup, (objects_atom atom).symm, by simp⟩
    | ref address =>
      rw [walk] at h
      rw [occurrences]
      cases hnode : heap address with
      | array items =>
        rw [hnode] at h
        obtain ⟨rest, hrest, rfl⟩ := Option.map_eq_some_iff.mp h
        obtain ⟨new, hnew, hnodup', hlength, hsub⟩ :=
          mapSeen_count objects (occurrences heap fuel)
            (fun item seen r hitem hseen => ih hitem hseen) hrest hnodup
        refine ⟨new, hnew, hnodup', ?_, hsub⟩
        rw [objects, objectsIn_eq, hlength]
      | object record =>
        rw [hnode] at h
        dsimp only at h
        by_cases hmem : address ∈ seen
        · rw [if_pos hmem] at h
          obtain rfl := Option.some.inj h
          exact ⟨[], rfl, hnodup, rfl, by simp⟩
        · rw [if_neg hmem] at h
          obtain ⟨rest, hrest, rfl⟩ := Option.map_eq_some_iff.mp h
          obtain ⟨new, hnew, hnodup', hlength, hsub⟩ :=
            mapSeen_count (fun entry : String × Json => objects entry.2)
              (fun entry : String × Value => occurrences heap fuel entry.2)
              (fun entry seen r hentry hseen => by
                obtain ⟨value, hvalue, rfl⟩ := Option.map_eq_some_iff.mp hentry
                exact ih hvalue hseen) hrest (List.nodup_cons.mpr ⟨hmem, hnodup⟩)
          refine ⟨new ++ [address], ?_, hnodup', ?_, ?_⟩
          · dsimp only
            rw [hnew, List.append_assoc, List.singleton_append]
          · rw [objects_sorted, List.length_append, hlength, List.length_singleton]
          · intro r hr
            rcases List.mem_append.mp hr with hr | hr
            · exact List.mem_cons_of_mem _ (hsub hr)
            · rw [List.mem_singleton.mp hr]
              exact List.mem_cons_self

/-- A value whose objects occur once is written out by the walk. -/
lemma walk_tree {fuel : ℕ} {value : Value} {j : Json}
    (h : tree compare heap fuel value = some j) (seen : List ℕ)
    (hnodup : (occurrences heap fuel value).Nodup)
    (hdisjoint : (occurrences heap fuel value).Disjoint seen) :
    walk compare heap fuel value seen =
      some (j, (occurrences heap fuel value).reverse ++ seen) := by
  induction fuel generalizing value j seen with
  | zero => simp [tree] at h
  | succ fuel ih =>
    cases value with
    | atom atom =>
      obtain rfl := Option.some.inj h
      rfl
    | ref address =>
      rw [tree] at h
      rw [occurrences] at hnodup hdisjoint ⊢
      rw [walk]
      cases hnode : heap address with
      | array items =>
        rw [hnode] at h hnodup hdisjoint
        obtain ⟨written, hwritten, rfl⟩ := Option.map_eq_some_iff.mp h
        dsimp only at hnodup hdisjoint ⊢
        rw [mapSeen_plain (fun item j hitem seen => ih hitem seen) hwritten hnodup hdisjoint,
          Option.map_some]
      | object record =>
        rw [hnode] at h hnodup hdisjoint
        obtain ⟨entries, hentries, rfl⟩ := Option.map_eq_some_iff.mp h
        dsimp only at hnodup hdisjoint ⊢
        rw [List.nodup_cons] at hnodup
        rw [List.disjoint_cons_left] at hdisjoint
        have hrest : (record.defined.flatMap fun entry =>
            occurrences heap fuel entry.2).Disjoint (address :: seen) := by
          rw [List.disjoint_cons_right]
          exact ⟨hnodup.1, hdisjoint.2⟩
        have hmap := mapSeen_plain (f := fun entry seen =>
            (walk compare heap fuel entry.2 seen).map fun r => ((entry.1, r.1), r.2))
          (fun entry field hentry seen hn hd => by
            obtain ⟨value, hvalue, rfl⟩ := Option.map_eq_some_iff.mp hentry
            exact Option.map_eq_some_iff.mpr ⟨_, ih hvalue seen hn hd, rfl⟩) hentries hnodup.2 hrest
        rw [if_neg hdisjoint.1, hmap, Option.map_some]
        simp

end Tree

end Maple.CanonicalJson
