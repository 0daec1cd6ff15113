import Maple.CanonicalJsonTree

/-! Values written out are equal exactly if the values are structurally equal. -/

namespace Maple.CanonicalJson

open Relation

section Lists
variable {α β : Type} {R : α → β → Prop} {as : List α} {bs : List β}

lemma exists_of_mem_left (h : List.Forall₂ R as bs) {a : α} (ha : a ∈ as) :
    ∃ b ∈ bs, R a b := by
  induction h with
  | nil => simp at ha
  | @cons first b as bs hab _ ih =>
    rcases List.mem_cons.mp ha with rfl | ha
    · exact ⟨b, List.mem_cons_self, hab⟩
    · obtain ⟨b', hb', hr⟩ := ih ha
      exact ⟨b', List.mem_cons_of_mem _ hb', hr⟩

lemma exists_of_mem_right (h : List.Forall₂ R as bs) {b : β} (hb : b ∈ bs) :
    ∃ a ∈ as, R a b := by
  obtain ⟨a, ha, hr⟩ := exists_of_mem_left h.flip hb
  exact ⟨a, ha, hr⟩

lemma forall₂_getElem? (h : List.Forall₂ R as bs) {i : ℕ} {a : α} (ha : as[i]? = some a) :
    ∃ b, bs[i]? = some b ∧ R a b := by
  induction h generalizing i with
  | nil => simp at ha
  | @cons first b as bs hab _ ih =>
    cases i with
    | zero =>
      obtain rfl := Option.some.inj ha
      exact ⟨b, rfl, hab⟩
    | succ i => exact ih ha

lemma forall₂_of_getElem? (hlength : as.length = bs.length)
    (h : ∀ (i : ℕ) a b, as[i]? = some a → bs[i]? = some b → R a b) : List.Forall₂ R as bs := by
  induction as generalizing bs with
  | nil =>
    rw [List.eq_nil_of_length_eq_zero hlength.symm]
    exact List.Forall₂.nil
  | cons a as ih =>
    cases bs with
    | nil => simp at hlength
    | cons b bs =>
      refine List.Forall₂.cons (h 0 a b rfl rfl) (ih ?_ fun i => h (i + 1))
      simpa using hlength

/-- A key has one value. -/
lemma value_unique {γ : Type} {entries : List (String × γ)} (h : (entries.map Prod.fst).Nodup)
    {key : String} {x y : γ} (hx : (key, x) ∈ entries) (hy : (key, y) ∈ entries) : x = y := by
  have heq := List.inj_on_of_nodup_map h hx hy rfl
  exact (Prod.mk.inj heq).2

end Lists

lemma Record.defined_distinct (record : Record) : (record.defined.map Prod.fst).Nodup := by
  have hsublist : (record.defined.map Prod.fst).Sublist (record.entries.map Prod.fst) := by
    rw [Record.defined]
    induction record.entries with
    | nil => exact List.Sublist.slnil
    | cons entry entries ih =>
      obtain ⟨key, value⟩ := entry
      cases value with
      | none => exact ih.cons key
      | some value => exact ih.cons_cons key
  exact record.distinct.sublist hsublist

lemma Record.mem_defined {record : Record} {key : String} {value : Value} :
    (key, value) ∈ record.defined ↔ (key, some value) ∈ record.entries := by
  rw [Record.defined, List.mem_filterMap]
  constructor
  · rintro ⟨⟨key', value'⟩, hmem, heq⟩
    obtain ⟨value'', hvalue, heq⟩ := Option.map_eq_some_iff.mp heq
    obtain ⟨rfl, rfl⟩ := Prod.mk.inj heq
    dsimp only at hvalue
    rw [hvalue] at hmem
    exact hmem
  · intro hmem
    exact ⟨_, hmem, rfl⟩

section Sorted
variable (compare : LocaleCompare)

lemma insertionSort_eq {entries entries' : List (String × Json)} (hperm : entries.Perm entries')
    (hdistinct : (entries.map Prod.fst).Nodup) :
    (entries.insertionSort fun a b => compare.le a.1 b.1) =
      entries'.insertionSort fun a b => compare.le a.1 b.1 := by
  have htotal : Std.Total fun a b : String × Json => compare.le a.1 b.1 :=
    ⟨fun a b => compare.total a.1 b.1⟩
  have htrans : IsTrans (String × Json) fun a b => compare.le a.1 b.1 :=
    ⟨fun a b c => compare.trans a.1 b.1 c.1⟩
  have hboth := (List.perm_insertionSort (fun a b => compare.le a.1 b.1) entries).trans
    (hperm.trans (List.perm_insertionSort (fun a b => compare.le a.1 b.1) entries').symm)
  refine hboth.eq_of_pairwise ?_ (List.pairwise_insertionSort _ _)
    (List.pairwise_insertionSort _ _)
  intro a b ha hb hab hba
  rw [List.mem_insertionSort] at ha hb
  have hkey := compare.antisymm _ _ hab hba
  exact List.inj_on_of_nodup_map hdistinct ha (hperm.mem_iff.mpr hb) hkey

lemma sortedFields_eq {entries entries' : List (String × Json)} (hperm : entries.Perm entries')
    (hdistinct : (entries.map Prod.fst).Nodup) :
    sortedFields compare entries = sortedFields compare entries' := by
  rw [sortedFields, sortedFields, insertionSort_eq compare hperm hdistinct]

lemma perm_of_sortedFields {entries entries' : List (String × Json)}
    (h : sortedFields compare entries = sortedFields compare entries') :
    entries.Perm entries' :=
  (sortedFields_perm compare entries).symm.trans (h ▸ sortedFields_perm compare entries')

end Sorted

lemma Atom.json_inj {atom other : Atom} (h : atom.json = other.json) : atom = other := by
  cases atom with
  | null => cases other with
    | null => rfl
    | _ => simp [Atom.json] at h
  | bool value => cases other with
    | bool other => rw [Json.bool.inj h]
    | _ => simp [Atom.json] at h
  | number text => cases other with
    | number other => rw [Subtype.ext (Json.number.inj h)]
    | _ => simp [Atom.json] at h
  | string value => cases other with
    | string other => rw [Json.string.inj h]
    | _ => simp [Atom.json] at h

section Same
variable {compare : LocaleCompare} {heap heap' : Heap}

/-- What a record is written out as. -/
def WrittenRecord (compare : LocaleCompare) (heap : Heap) (fuel : ℕ) (record : Record)
    (entries : List (String × Json)) : Prop :=
  List.Forall₂ (fun entry field => entry.1 = field.1 ∧
    tree compare heap fuel entry.2 = some field.2) record.defined entries

lemma tree_array {fuel r : ℕ} {items : List Value} (hnode : heap r = .array items) {j : Json} :
    tree compare heap (fuel + 1) (.ref r) = some j ↔ ∃ written, j = .array written ∧
      List.Forall₂ (fun item j => tree compare heap fuel item = some j) items written := by
  rw [tree, hnode]
  constructor
  · intro h
    obtain ⟨written, hwritten, rfl⟩ := Option.map_eq_some_iff.mp h
    exact ⟨written, rfl, mapM_iff_forall₂.mp hwritten⟩
  · rintro ⟨written, rfl, hwritten⟩
    exact Option.map_eq_some_iff.mpr ⟨written, mapM_iff_forall₂.mpr hwritten, rfl⟩

lemma tree_object {fuel r : ℕ} {record : Record} (hnode : heap r = .object record) {j : Json} :
    tree compare heap (fuel + 1) (.ref r) = some j ↔ ∃ entries,
      j = .object (sortedFields compare entries) ∧
        WrittenRecord compare heap fuel record entries := by
  have hfield : ∀ (entry : String × Value) (field : String × Json),
      ((tree compare heap fuel entry.2).map fun value => (entry.1, value)) = some field ↔
        entry.1 = field.1 ∧ tree compare heap fuel entry.2 = some field.2 := by
    intro entry field
    obtain ⟨key, value⟩ := field
    simp [Option.map_eq_some_iff, and_comm]
  rw [tree, hnode]
  constructor
  · intro h
    obtain ⟨entries, hentries, rfl⟩ := Option.map_eq_some_iff.mp h
    exact ⟨entries, rfl,
      (mapM_iff_forall₂.mp hentries).imp fun entry field => (hfield entry field).mp⟩
  · rintro ⟨entries, rfl, hentries⟩
    exact Option.map_eq_some_iff.mpr ⟨entries, mapM_iff_forall₂.mpr
      (hentries.imp fun entry field => (hfield entry field).mpr), rfl⟩

lemma WrittenRecord.keys {fuel : ℕ} {record : Record} {entries : List (String × Json)}
    (h : WrittenRecord compare heap fuel record entries) :
    entries.map Prod.fst = record.defined.map Prod.fst := by
  unfold WrittenRecord at h
  generalize record.defined = defined at h ⊢
  induction h with
  | nil => rfl
  | cons hfield _ ih => rw [List.map_cons, List.map_cons, ih, hfield.1]

lemma WrittenRecord.distinct {fuel : ℕ} {record : Record} {entries : List (String × Json)}
    (h : WrittenRecord compare heap fuel record entries) : (entries.map Prod.fst).Nodup := by
  rw [h.keys]
  exact record.defined_distinct

lemma WrittenRecord.mem {fuel : ℕ} {record : Record} {entries : List (String × Json)}
    (h : WrittenRecord compare heap fuel record entries) {key : String} {value : Value}
    (hvalue : (key, value) ∈ record.defined) :
    ∃ j, (key, j) ∈ entries ∧ tree compare heap fuel value = some j := by
  obtain ⟨⟨key', j⟩, hmem, hkey, hj⟩ := exists_of_mem_left h hvalue
  obtain rfl : key = key' := hkey
  exact ⟨j, hmem, hj⟩

lemma same_of_tree {fuel fuel' : ℕ} {v w : Value} {j : Json}
    (hv : tree compare heap fuel v = some j) (hw : tree compare heap' fuel' w = some j) :
    Same heap heap' v w := by
  induction fuel generalizing fuel' v w j with
  | zero => simp [tree] at hv
  | succ fuel ih =>
    cases fuel' with
    | zero => simp [tree] at hw
    | succ fuel' =>
      have hatom : ∀ (atom : Atom) (heap : Heap) (fuel r : ℕ),
          tree compare heap (fuel + 1) (.ref r) ≠ some atom.json := by
        intro atom heap fuel r h
        cases hnode : heap r with
        | array items =>
          obtain ⟨written, heq, -⟩ := (tree_array hnode).mp h
          cases atom <;> simp [Atom.json] at heq
        | object record =>
          obtain ⟨entries, heq, -⟩ := (tree_object hnode).mp h
          cases atom <;> simp [Atom.json] at heq
      cases v with
      | atom atom =>
        obtain rfl := Option.some.inj hv
        cases w with
        | atom other =>
          rw [Atom.json_inj (Option.some.inj hw)]
          exact Same.atom atom
        | ref s => exact absurd hw (hatom atom heap' fuel' s)
      | ref r =>
        cases w with
        | atom other =>
          obtain rfl := Option.some.inj hw
          exact absurd hv (hatom other heap fuel r)
        | ref s =>
          cases hr : heap r with
          | array items =>
            obtain ⟨written, rfl, hitems⟩ := (tree_array hr).mp hv
            cases hs : heap' s with
            | array items' =>
              obtain ⟨written', heq, hitems'⟩ := (tree_array hs).mp hw
              obtain rfl := Json.array.inj heq
              refine Same.array hr hs (hitems.length_eq.trans hitems'.length_eq.symm) ?_
              intro i x y hx hy
              obtain ⟨jx, hjx, htx⟩ := forall₂_getElem? hitems hx
              obtain ⟨jy, hjy, hty⟩ := forall₂_getElem? hitems' hy
              rw [hjx] at hjy
              obtain rfl := Option.some.inj hjy
              exact ih htx hty
            | object record' =>
              obtain ⟨entries, heq, -⟩ := (tree_object hs).mp hw
              simp at heq
          | object record =>
            obtain ⟨entries, rfl, hentries⟩ := (tree_object hr).mp hv
            cases hs : heap' s with
            | array items' =>
              obtain ⟨written, heq, -⟩ := (tree_array hs).mp hw
              simp at heq
            | object record' =>
              obtain ⟨entries', heq, hentries'⟩ := (tree_object hs).mp hw
              have hperm := perm_of_sortedFields compare (Json.object.inj heq)
              refine Same.object hr hs ?_ ?_
              · intro key
                rw [← hentries.keys, ← hentries'.keys]
                exact (hperm.map Prod.fst).mem_iff
              · intro key x y hx hy
                obtain ⟨jx, hjx, htx⟩ := hentries.mem hx
                obtain ⟨jy, hjy, hty⟩ := hentries'.mem hy
                obtain rfl := value_unique hentries'.distinct (hperm.mem_iff.mp hjx) hjy
                exact ih htx hty

/-- Structurally equal values are written out alike. -/
lemma tree_of_same {v w : Value} (h : Same heap heap' v w) {fuel : ℕ} {j : Json}
    (hv : tree compare heap fuel v = some j) : tree compare heap' fuel w = some j := by
  induction h generalizing fuel j with
  | atom atom =>
    cases fuel with
    | zero => simp [tree] at hv
    | succ fuel => exact hv
  | @array r s items items' hr hs hlength _ ih =>
    cases fuel with
    | zero => simp [tree] at hv
    | succ fuel =>
      obtain ⟨written, rfl, hitems⟩ := (tree_array hr).mp hv
      refine (tree_array hs).mpr ⟨written, rfl, ?_⟩
      refine forall₂_of_getElem? (hlength.symm.trans hitems.length_eq) fun i y jy hy hjy => ?_
      obtain ⟨hi, -⟩ := List.getElem?_eq_some_iff.mp hy
      have hx : items[i]? = some items[i] := List.getElem?_eq_getElem (hlength ▸ hi)
      obtain ⟨jx, hjx, htx⟩ := forall₂_getElem? hitems hx
      rw [hjy] at hjx
      obtain rfl := Option.some.inj hjx
      exact ih i _ y hx hy htx
  | @object r s record record' hr hs hkeys _ ih =>
    cases fuel with
    | zero => simp [tree] at hv
    | succ fuel =>
      obtain ⟨entries, rfl, hentries⟩ := (tree_object hr).mp hv
      -- each field of the one is a field of the other, and is written out alike
      have hback : ∀ key y, (key, y) ∈ record'.defined →
          ∃ j, (key, j) ∈ entries ∧ tree compare heap' fuel y = some j := by
        intro key y hy
        have hkey := (hkeys key).mpr (List.mem_map_of_mem hy)
        obtain ⟨⟨key', x⟩, hx, rfl⟩ := List.mem_map.mp hkey
        obtain ⟨j, hj, htree⟩ := hentries.mem hx
        exact ⟨j, hj, ih _ x y hx hy htree⟩
      have hall : ∀ entry ∈ record'.defined, ∃ (_ : ℕ) (field : String × Json),
          (tree compare heap' fuel entry.2).map (fun value => (entry.1, value)) = some field := by
        intro entry hentry
        obtain ⟨j, -, hj⟩ := hback entry.1 entry.2 hentry
        exact ⟨0, (entry.1, j), by rw [hj]; rfl⟩
      obtain ⟨-, entries', hentries'⟩ := mapM_exists (f := fun _ (entry : String × Value) =>
        (tree compare heap' fuel entry.2).map fun value => (entry.1, value))
        (fun _ _ _ _ _ h => h) hall
      have hwritten : tree compare heap' (fuel + 1) (.ref s) =
          some (.object (sortedFields compare entries')) := by
        rw [tree, hs]
        exact Option.map_eq_some_iff.mpr ⟨entries', hentries', rfl⟩
      obtain ⟨entries'', heq, hrecord'⟩ := (tree_object hs).mp hwritten
      rw [hwritten, heq]
      congr 2
      refine (sortedFields_eq compare ?_ hentries.distinct).symm
      rw [List.perm_ext_iff_of_nodup (List.Nodup.of_map _ hentries.distinct)
        (List.Nodup.of_map _ hrecord'.distinct)]
      rintro ⟨key, j⟩
      constructor
      · intro hmem
        obtain ⟨⟨key', x⟩, hx, hkey, htx⟩ := exists_of_mem_right hentries hmem
        obtain rfl : key' = key := hkey
        obtain ⟨⟨key'', y⟩, hy, rfl⟩ :=
          List.mem_map.mp ((hkeys key').mp (List.mem_map_of_mem hx))
        obtain ⟨jy, hjy, hty⟩ := hrecord'.mem hy
        have hsame := ih _ x y hx hy htx
        rw [hsame] at hty
        obtain rfl := Option.some.inj hty
        exact hjy
      · intro hmem
        obtain ⟨⟨key', y⟩, hy, hkey, hty⟩ := exists_of_mem_right hrecord' hmem
        obtain rfl : key' = key := hkey
        obtain ⟨jx, hjx, htx⟩ := hback key' y hy
        dsimp only at hty
        rw [htx] at hty
        obtain rfl := Option.some.inj hty
        exact hjx

end Same

end Maple.CanonicalJson
