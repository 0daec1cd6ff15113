import Mathlib.Data.String.Basic
import Mathlib.Logic.Equiv.List
import Maple.CanonicalJsonShared

/-! Cache keys identify the values in which no object occurs twice, and no others. -/

namespace Maple.CanonicalJson

open Relation

/-! ### A copy that shares nothing -/

section Copy
variable (heap : Heap) (root : Value)

def childAt (value : Value) (i : ℕ) : Option Value :=
  match value with
  | .atom _ => none
  | .ref r =>
    match heap r with
    | .array items => items[i]?
    | .object record => record.entries[i]?.bind fun entry => entry.2

def follow : Value → List ℕ → Option Value
  | value, [] => some value
  | value, i :: path => (childAt heap value i).bind fun child => follow child path

lemma follow_append (value : Value) (path more : List ℕ) :
    follow heap value (path ++ more) =
      (follow heap value path).bind fun child => follow heap child more := by
  induction path generalizing value with
  | nil => rfl
  | cons i path ih =>
    rw [List.cons_append, follow, follow]
    cases childAt heap value i with
    | none => rfl
    | some child => exact ih child

lemma follow_child {path : List ℕ} {value child : Value} (hvalue : follow heap root path = some value)
    {i : ℕ} (hchild : childAt heap value i = some child) :
    follow heap root (path ++ [i]) = some child := by
  rw [follow_append, hvalue, Option.bind_some, follow, hchild]
  rfl

/-- A reference in the copy is the path to it. -/
def place (path : List ℕ) : Value → Value
  | .atom atom => .atom atom
  | .ref _ => .ref (Encodable.encode path)

def copyEntry (path : List ℕ) (i : ℕ) (entry : String × Option Value) : String × Option Value :=
  (entry.1, entry.2.map (place (path ++ [i])))

lemma copyEntry_keys (path : List ℕ) (entries : List (String × Option Value)) :
    (entries.mapIdx (copyEntry path)).map Prod.fst = entries.map Prod.fst := by
  apply List.ext_getElem?
  intro i
  simp [copyEntry, Function.comp_def]

def copyRecord (path : List ℕ) (record : Record) : Record where
  entries := record.entries.mapIdx (copyEntry path)
  distinct := by
    rw [copyEntry_keys]
    exact record.distinct

def copyNode (path : List ℕ) : Node → Node
  | .array items => .array (items.mapIdx fun i => place (path ++ [i]))
  | .object record => .object (copyRecord path record)

def copyHeap : Heap := fun k =>
  let path := Denumerable.ofNat (List ℕ) k
  match follow heap root path with
  | some (.ref r) => copyNode path (heap r)
  | _ => .array []

lemma copyHeap_encode {path : List ℕ} {r : ℕ} (h : follow heap root path = some (.ref r)) :
    copyHeap heap root (Encodable.encode path) = copyNode path (heap r) := by
  rw [copyHeap, Denumerable.ofNat_encode, h]

lemma mem_copy_defined {path : List ℕ} {record : Record} {key : String} {value : Value} :
    (key, value) ∈ (copyRecord path record).defined ↔
      ∃ i x, record.entries[i]? = some (key, some x) ∧ value = place (path ++ [i]) x := by
  rw [Record.mem_defined, copyRecord, List.mem_mapIdx]
  constructor
  · rintro ⟨i, hi, heq⟩
    obtain ⟨hkey, hvalue⟩ := Prod.mk.inj heq
    obtain ⟨x, hx, hplace⟩ := Option.map_eq_some_iff.mp hvalue
    refine ⟨i, x, ?_, hplace.symm⟩
    rw [List.getElem?_eq_getElem hi, ← hkey, ← hx]
  · rintro ⟨i, x, hi, rfl⟩
    obtain ⟨hlt, heq⟩ := List.getElem?_eq_some_iff.mp hi
    refine ⟨i, hlt, ?_⟩
    rw [heq]
    rfl

/-- The copy is equal to the original. -/
lemma copy_same {compare : LocaleCompare} {fuel : ℕ} {value : Value} {path : List ℕ} {j : Json}
    (hvalue : follow heap root path = some value) (htree : tree compare heap fuel value = some j) :
    Same heap (copyHeap heap root) value (place path value) := by
  induction fuel generalizing value path j with
  | zero => simp [tree] at htree
  | succ fuel ih =>
    cases value with
    | atom atom => exact Same.atom atom
    | ref r =>
      have hcopy := copyHeap_encode heap root hvalue
      cases hnode : heap r with
      | array items =>
        obtain ⟨written, -, hitems⟩ := (tree_array hnode).mp htree
        rw [hnode] at hcopy
        refine Same.array hnode hcopy (by simp) ?_
        intro i x y hx hy
        rw [List.getElem?_mapIdx, hx] at hy
        obtain rfl := Option.some.inj hy
        obtain ⟨jx, -, hjx⟩ := forall₂_getElem? hitems hx
        have hchild : childAt heap (.ref r) i = some x := by
          rw [childAt, hnode]
          exact hx
        exact ih (follow_child heap root hvalue hchild) hjx
      | object record =>
        obtain ⟨entries, -, hentries⟩ := (tree_object hnode).mp htree
        rw [hnode] at hcopy
        refine Same.object hnode hcopy ?_ ?_
        · intro key
          simp only [List.mem_map, Prod.exists, exists_and_right, exists_eq_right]
          constructor
          · rintro ⟨x, hx⟩
            obtain ⟨i, hi⟩ := List.mem_iff_getElem?.mp (Record.mem_defined.mp hx)
            exact ⟨_, mem_copy_defined.mpr ⟨i, x, hi, rfl⟩⟩
          · rintro ⟨y, hy⟩
            obtain ⟨i, x, hi, -⟩ := mem_copy_defined.mp hy
            exact ⟨x, Record.mem_defined.mpr (List.mem_iff_getElem?.mpr ⟨i, hi⟩)⟩
        · intro key x y hx hy
          obtain ⟨i, x', hi, rfl⟩ := mem_copy_defined.mp hy
          have hx' := Record.mem_defined.mpr (List.mem_iff_getElem?.mpr ⟨i, hi⟩)
          obtain rfl := value_unique record.defined_distinct hx hx'
          obtain ⟨jx, -, hjx⟩ := hentries.mem hx
          have hchild : childAt heap (.ref r) i = some x := by
            rw [childAt, hnode]
            dsimp only
            rw [hi]
            rfl
          exact ih (follow_child heap root hvalue hchild) hjx

/-! ### The copy shares nothing -/

lemma pairwise_mapIdx {α β : Type} {f : ℕ → α → β} {R : β → β → Prop} {l : List α}
    (h : ∀ i j x y, i < j → l[i]? = some x → l[j]? = some y → R (f i x) (f j y)) :
    (l.mapIdx f).Pairwise R := by
  rw [List.pairwise_iff_getElem]
  intro i j hi hj hlt
  rw [List.length_mapIdx] at hi hj
  rw [List.getElem_mapIdx, List.getElem_mapIdx]
  exact h i j _ _ hlt (List.getElem?_eq_getElem hi) (List.getElem?_eq_getElem hj)

/-- The references below a path. -/
def Below (path : List ℕ) (k : ℕ) : Prop := ∃ more, k = Encodable.encode (path ++ more)

lemma Below.child {path : List ℕ} {i k : ℕ} (h : Below (path ++ [i]) k) : Below path k := by
  obtain ⟨more, rfl⟩ := h
  exact ⟨i :: more, by simp⟩

lemma below_disjoint {path : List ℕ} {i j : ℕ} (hne : i ≠ j) {ks ks' : List ℕ}
    (h : ∀ k ∈ ks, Below (path ++ [i]) k) (h' : ∀ k ∈ ks', Below (path ++ [j]) k) :
    ks.Disjoint ks' := by
  intro k hk hk'
  obtain ⟨more, heq⟩ := h k hk
  obtain ⟨more', heq'⟩ := h' k hk'
  have hpath := Encodable.encode_injective (heq.symm.trans heq')
  rw [List.append_assoc, List.append_assoc] at hpath
  have htail := List.append_cancel_left hpath
  exact hne (List.cons.inj htail).1

lemma copy_occurrences {depth : ℕ} {value : Value} {path : List ℕ}
    (hvalue : follow heap root path = some value) :
    (occurrences (copyHeap heap root) depth (place path value)).Nodup ∧
      ∀ k ∈ occurrences (copyHeap heap root) depth (place path value), Below path k := by
  induction depth generalizing value path with
  | zero => exact ⟨List.nodup_nil, by simp [occurrences]⟩
  | succ depth ih =>
    cases value with
    | atom atom => exact ⟨List.nodup_nil, by simp [occurrences, place]⟩
    | ref r =>
      rw [place, occurrences, copyHeap_encode heap root hvalue]
      cases hnode : heap r with
      | array items =>
        have hchild : ∀ (i : ℕ) x, items[i]? = some x →
            follow heap root (path ++ [i]) = some x := by
          intro i x hx
          refine follow_child heap root hvalue ?_
          rw [childAt, hnode]
          exact hx
        rw [copyNode]
        dsimp only
        constructor
        · rw [List.nodup_flatMap]
          constructor
          · intro y hy
            obtain ⟨i, hi, rfl⟩ := List.mem_mapIdx.mp hy
            exact (ih (hchild i _ (List.getElem?_eq_getElem hi))).1
          · refine pairwise_mapIdx fun i j x y hlt hx hy => ?_
            exact below_disjoint hlt.ne (ih (hchild i x hx)).2 (ih (hchild j y hy)).2
        · intro k hk
          obtain ⟨y, hy, hk⟩ := List.mem_flatMap.mp hk
          obtain ⟨i, hi, rfl⟩ := List.mem_mapIdx.mp hy
          exact ((ih (hchild i _ (List.getElem?_eq_getElem hi))).2 k hk).child
      | object record =>
        have hchild : ∀ (i : ℕ) key x, record.entries[i]? = some (key, some x) →
            follow heap root (path ++ [i]) = some x := by
          intro i key x hx
          refine follow_child heap root hvalue ?_
          rw [childAt, hnode]
          dsimp only
          rw [hx]
          rfl
        rw [copyNode]
        dsimp only
        have hbelow : ∀ key y, (key, y) ∈ (copyRecord path record).defined →
            ∃ i, (occurrences (copyHeap heap root) depth y).Nodup ∧
              ∀ k ∈ occurrences (copyHeap heap root) depth y, Below (path ++ [i]) k := by
          intro key y hy
          obtain ⟨i, x, hi, rfl⟩ := mem_copy_defined.mp hy
          exact ⟨i, ih (hchild i key x hi)⟩
        constructor
        · rw [List.nodup_cons, List.nodup_flatMap]
          refine ⟨?_, ?_, ?_⟩
          · intro hmem
            obtain ⟨⟨key, y⟩, hy, hk⟩ := List.mem_flatMap.mp hmem
            obtain ⟨i, -, hall⟩ := hbelow key y hy
            obtain ⟨more, heq⟩ := hall _ hk
            have hpath := congrArg List.length (Encodable.encode_injective heq)
            simp at hpath
          · rintro ⟨key, y⟩ hy
            obtain ⟨i, hnodup, -⟩ := hbelow key y hy
            exact hnodup
          · rw [Record.defined, List.pairwise_filterMap, copyRecord]
            refine pairwise_mapIdx fun i j x y hlt hx hy => ?_
            intro b hb b' hb'
            obtain ⟨v, hv, rfl⟩ := Option.map_eq_some_iff.mp hb
            obtain ⟨v', hv', rfl⟩ := Option.map_eq_some_iff.mp hb'
            obtain ⟨u, hu, rfl⟩ := Option.map_eq_some_iff.mp hv
            obtain ⟨u', hu', rfl⟩ := Option.map_eq_some_iff.mp hv'
            have hi : record.entries[i]? = some (x.1, some u) := by rw [hx, ← hu]
            have hj : record.entries[j]? = some (y.1, some u') := by rw [hy, ← hu']
            exact below_disjoint hlt.ne (ih (hchild i _ u hi)).2 (ih (hchild j _ u' hj)).2
        · intro k hk
          rcases List.mem_cons.mp hk with rfl | hk
          · exact ⟨[], by simp⟩
          · obtain ⟨⟨key, y⟩, hy, hk⟩ := List.mem_flatMap.mp hk
            obtain ⟨i, -, hall⟩ := hbelow key y hy
            exact (hall k hk).child

lemma place_ref {path : List ℕ} {value : Value} {s : ℕ} (h : place path value = .ref s) :
    s = Encodable.encode path := by
  cases value with
  | atom atom => exact Value.noConfusion h
  | ref t => exact (Value.ref.inj h).symm

/-- A step in the copy leads one further along the path. -/
lemma copy_child {path : List ℕ} {s : ℕ}
    (h : Child (copyHeap heap root) (Encodable.encode path) s) :
    ∃ i, s = Encodable.encode (path ++ [i]) := by
  have hnone : copyHeap heap root (Encodable.encode path) = .array [] →
      ∃ i, s = Encodable.encode (path ++ [i]) := by
    intro hnode
    rcases h with ⟨items, hitems, hmem⟩ | ⟨record, key, hrecord, -⟩
    · rw [hnode] at hitems
      obtain rfl := Node.array.inj hitems
      simp at hmem
    · rw [hnode] at hrecord
      exact Node.noConfusion hrecord
  cases hvalue : follow heap root path with
  | none => exact hnone (by rw [copyHeap, Denumerable.ofNat_encode, hvalue])
  | some value =>
    cases value with
    | atom atom => exact hnone (by rw [copyHeap, Denumerable.ofNat_encode, hvalue])
    | ref r =>
      have hcopy := copyHeap_encode heap root hvalue
      cases hnode : heap r with
      | array items =>
        rw [hnode] at hcopy
        rcases h with ⟨items', hitems', hmem⟩ | ⟨record, key, hrecord, -⟩
        · rw [hcopy] at hitems'
          obtain rfl := Node.array.inj hitems'
          obtain ⟨i, hi, heq⟩ := List.mem_mapIdx.mp hmem
          exact ⟨i, place_ref heq⟩
        · rw [hcopy] at hrecord
          exact Node.noConfusion hrecord
      | object record =>
        rw [hnode] at hcopy
        rcases h with ⟨items', hitems', -⟩ | ⟨record', key, hrecord, hmem⟩
        · rw [hcopy] at hitems'
          exact Node.noConfusion hitems'
        · rw [hcopy] at hrecord
          obtain rfl := Node.object.inj hrecord
          obtain ⟨i, x, -, heq⟩ := mem_copy_defined.mp hmem
          exact ⟨i, place_ref heq.symm⟩

lemma copy_acyclic (k : ℕ) : ¬TransGen (Child (copyHeap heap root)) k k := by
  have hlonger : ∀ (path : List ℕ) s, TransGen (Child (copyHeap heap root)) (Encodable.encode path) s →
      ∃ i more, s = Encodable.encode (path ++ i :: more) := by
    intro path s h
    induction h with
    | single hstep =>
      obtain ⟨i, rfl⟩ := copy_child heap root hstep
      exact ⟨i, [], rfl⟩
    | tail _ hstep ih =>
      obtain ⟨i, more, rfl⟩ := ih
      obtain ⟨j, rfl⟩ := copy_child heap root hstep
      exact ⟨i, more ++ [j], by simp⟩
  intro h
  obtain ⟨path, rfl⟩ : ∃ path : List ℕ, k = Encodable.encode path :=
    ⟨Denumerable.ofNat (List ℕ) k, (Denumerable.encode_ofNat k).symm⟩
  obtain ⟨i, more, heq⟩ := hlonger path _ h
  have hlength := congrArg List.length (Encodable.encode_injective heq)
  simp at hlength

end Copy

/-- What is equal to a value reaches finitely much. -/
lemma finite_of_same {heap heap' : Heap} {v w : Value} (h : Same heap heap' v w) :
    {r | Reaches heap' w r}.Finite := by
  have hnode : ∀ (s : ℕ) (values : Set Value), values.Finite →
      (∀ y ∈ values, {r | Reaches heap' y r}.Finite) →
      (∀ t, Child heap' s t → .ref t ∈ values) → {r | Reaches heap' (.ref s) r}.Finite := by
    intro s values hvalues hfinite hchild
    refine ((hvalues.biUnion hfinite).insert s).subset ?_
    rintro r ⟨s', hs, hreach⟩
    obtain rfl := Value.ref.inj hs
    rcases hreach.cases_head with rfl | ⟨t, hstep, hreach⟩
    · exact Set.mem_insert s _
    · refine Set.mem_insert_of_mem s (Set.mem_biUnion (hchild t hstep) ?_)
      exact ⟨t, rfl, hreach⟩
  induction h with
  | atom atom =>
    refine Set.Finite.subset Set.finite_empty ?_
    rintro r ⟨s, hs, -⟩
    exact Value.noConfusion hs
  | @array r s items items' hr hs hlength _ ih =>
    refine hnode s {y | y ∈ items'} (List.finite_toSet items') ?_ ?_
    · intro y hy
      obtain ⟨i, hi⟩ := List.mem_iff_getElem?.mp hy
      obtain ⟨hlt, -⟩ := List.getElem?_eq_some_iff.mp hi
      exact ih i _ y (List.getElem?_eq_getElem (hlength ▸ hlt)) hi
    · rintro t (⟨items, hitems, hmem⟩ | ⟨record, key, hrecord, -⟩)
      · rw [hs] at hitems
        obtain rfl := Node.array.inj hitems
        exact hmem
      · rw [hs] at hrecord
        exact Node.noConfusion hrecord
  | @object r s record record' hr hs hkeys _ ih =>
    refine hnode s {y | y ∈ record'.defined.map Prod.snd} (List.finite_toSet _) ?_ ?_
    · intro y hy
      obtain ⟨⟨key, y'⟩, hmem, rfl⟩ := List.mem_map.mp hy
      obtain ⟨⟨key', x⟩, hx, rfl⟩ := List.mem_map.mp ((hkeys key).mpr (List.mem_map_of_mem hmem))
      exact ih key' x y' hx hmem
    · rintro t (⟨items, hitems, -⟩ | ⟨record, key, hrecord, hmem⟩)
      · rw [hs] at hitems
        exact Node.noConfusion hitems
      · rw [hs] at hrecord
        obtain rfl := Node.object.inj hrecord
        exact List.mem_map.mpr ⟨_, hmem, rfl⟩

/-- Every value without cycles has an equal in which no object occurs twice. -/
lemma exists_copy {a : InMemory} (h : a.Acyclic) (compare : LocaleCompare) :
    ∃ b : InMemory, b.Acyclic ∧ b.Unshared ∧ a.Same b := by
  obtain ⟨fuel, j, hj⟩ := tree_exists compare h
  have hroot : follow a.heap a.value [] = some a.value := rfl
  have hsame := copy_same a.heap a.value hroot hj
  refine ⟨⟨copyHeap a.heap a.value, place [] a.value, finite_of_same hsame⟩, ?_, ?_, hsame⟩
  · exact fun r _ => copy_acyclic a.heap a.value r
  · exact fun depth => (copy_occurrences a.heap a.value hroot).1

/-! ### Cache keys -/

lemma returns_iff_ends {compare : LocaleCompare} {a : InMemory} :
    (∃ text, a.Returns compare text) ↔
      ∃ fuel result, walk compare a.heap fuel a.value [] = some result := by
  constructor
  · rintro ⟨text, fuel, htext⟩
    obtain ⟨result, hresult, -⟩ := Option.map_eq_some_iff.mp htext
    exact ⟨fuel, result, hresult⟩
  · rintro ⟨fuel, result, hresult⟩
    exact ⟨_, fuel, Option.map_eq_some_iff.mpr ⟨result, hresult, rfl⟩⟩

/-- The key is there unless the value reaches an array that is inside itself through arrays alone.
Among the values without cycles in which no object occurs twice, a value without cycles shares its
key with its equals only, and with all of them, exactly if no object occurs twice in it. -/
theorem identifies_iff_unshared (compare : LocaleCompare) (a : InMemory) :
    ((∃ text, a.Returns compare text) ↔
        ∀ r, Reaches a.heap a.value r → ¬TransGen (ArrayItem a.heap) r r) ∧
      (a.Acyclic →
        ((∀ b : InMemory, b.Acyclic → b.Unshared →
          ((∃ text, a.Returns compare text ∧ b.Returns compare text) ↔ a.Same b)) ↔
          a.Unshared)) := by
  refine ⟨returns_iff_ends.trans (walk_ends_iff a), fun hacyclic => ?_⟩
  obtain ⟨fuel, j, hj⟩ := tree_exists compare hacyclic
  have hplain : ∀ {b : InMemory} {fuel : ℕ} {j : Json}, b.Unshared →
      tree compare b.heap fuel b.value = some j → ∃ seen,
        walk compare b.heap fuel b.value [] = some (j, seen) := by
    intro b fuel j hunshared htree
    exact ⟨_, walk_tree htree [] (hunshared fuel) (List.disjoint_nil_right _)⟩
  constructor
  · intro hidentifies
    obtain ⟨b, hb, hunshared, hsame⟩ := exists_copy hacyclic compare
    obtain ⟨text, ⟨fuel', hfuel'⟩, hbtext⟩ := (hidentifies b hb hunshared).mpr hsame
    obtain ⟨result, hwalk, -⟩ := Option.map_eq_some_iff.mp hfuel'
    have hwalk' := walk_le (le_max_left fuel' fuel) hwalk
    obtain ⟨seen, hcopy⟩ := hplain hunshared (tree_of_same hsame hj)
    have hequal := (returns_both_iff hwalk hcopy).mp ⟨text, ⟨fuel', hfuel'⟩, hbtext⟩
    -- the walk counts the objects once, and in all they are as many as occur
    obtain ⟨new, hnew, hnodup, hlength, hsub⟩ := objects_walk hwalk' List.nodup_nil
    have hj' := tree_le (le_max_right fuel' fuel) hj
    rw [List.append_nil] at hnew
    rw [hnew] at hnodup
    rw [unshared_iff hj']
    have hcount : (occurrences a.heap (max fuel' fuel) a.value).length ≤ new.length := by
      rw [hlength, hequal, objects_tree hj']
    have hperm := (hnodup.subperm hsub).perm_of_length_le hcount
    exact hperm.nodup_iff.mp hnodup
  · intro hunshared b hb hunshared'
    obtain ⟨fuel', j', hj'⟩ := tree_exists compare hb
    obtain ⟨seen, hwalk⟩ := hplain hunshared hj
    obtain ⟨seen', hwalk'⟩ := hplain hunshared' hj'
    rw [returns_both_iff hwalk hwalk']
    constructor
    · rintro rfl
      exact same_of_tree hj hj'
    · intro hsame
      have hagain := tree_le (le_max_left fuel fuel') (tree_of_same hsame hj)
      rw [tree_le (le_max_right fuel fuel') hj'] at hagain
      exact (Option.some.inj hagain).symm

/-! ### An object in two fields -/

def codePoints : LocaleCompare where
  le a b := a.toList ≤ b.toList
  decidable := fun a b => inferInstanceAs (Decidable (a.toList ≤ b.toList))
  total a b := le_total a.toList b.toList
  trans _ _ _ := le_trans
  antisymm _ _ hab hba := String.ext (le_antisymm hab hba)

/-- At 0 the object at 1 is in two fields, at 2 it is in one beside `null`; the array at 3 is an
item of itself. -/
def memory : Heap
  | 0 => .object ⟨[("a", some (.ref 1)), ("b", some (.ref 1))], by decide⟩
  | 1 => .object ⟨[], by decide⟩
  | 2 => .object ⟨[("a", some (.ref 1)), ("b", some (.atom .null))], by decide⟩
  | 3 => .array [.ref 3]
  | _ => .array []

lemma memory_child {r s : ℕ} (h : Child memory r s) : (r = 0 ∨ r = 2) ∧ s = 1 ∨ r = 3 ∧ s = 3 := by
  rcases h with ⟨items, hitems, hmem⟩ | ⟨record, key, hrecord, hmem⟩
  · match r with
    | 3 =>
      obtain rfl := Node.array.inj hitems
      simp at hmem
      omega
    | 0 | 1 | 2 => exact Node.noConfusion hitems
    | r + 4 =>
      obtain rfl := Node.array.inj hitems
      simp at hmem
  · match r with
    | 0 =>
      obtain rfl := Node.object.inj hrecord
      simp [Record.defined] at hmem
      omega
    | 1 =>
      obtain rfl := Node.object.inj hrecord
      simp [Record.defined] at hmem
    | 2 =>
      obtain rfl := Node.object.inj hrecord
      simp [Record.defined] at hmem
      omega
    | 3 => exact Node.noConfusion hrecord
    | r + 4 => exact Node.noConfusion hrecord

def inMemory (r : ℕ) : InMemory where
  heap := memory
  value := .ref r
  finite := by
    refine (Set.finite_le_nat (max r 3)).subset ?_
    rintro s ⟨r', hr, hreach⟩
    obtain rfl := Value.ref.inj hr
    rcases hreach.cases_tail with heq | ⟨t, -, hstep⟩
    · exact heq ▸ le_max_left r 3
    · have hs := memory_child hstep
      have hle : s ≤ 3 := by omega
      exact hle.trans (le_max_right r 3)

lemma memory_acyclic {r : ℕ} (hr : r < 3) : (inMemory r).Acyclic := by
  rintro s ⟨r', hr', hreach⟩ hcycle
  obtain rfl := Value.ref.inj hr'
  have hsmall : s < 3 := by
    clear hcycle
    induction hreach with
    | refl => exact hr
    | tail _ hstep ih =>
      have hs := memory_child hstep
      omega
  obtain ⟨t, hst, ht⟩ := next_on_cycle hcycle
  obtain ⟨u, htu, -⟩ := next_on_cycle ht
  have hs := memory_child hst
  have ht := memory_child htu
  omega

/-- An object in two fields has the key of the value with `null` in its second place, and an array
that is an item of itself has no key. -/
theorem shared_object_collides :
    (inMemory 0).Acyclic ∧ (inMemory 2).Acyclic ∧
      (∃ text, (inMemory 0).Returns codePoints text ∧ (inMemory 2).Returns codePoints text) ∧
      ¬(inMemory 0).Same (inMemory 2) ∧ ¬∃ text, (inMemory 3).Returns codePoints text := by
  refine ⟨memory_acyclic (by omega), memory_acyclic (by omega), ?_, ?_, ?_⟩
  · exact ⟨_, ⟨3, rfl⟩, 3, rfl⟩
  · intro h
    cases h with
    | array hr _ _ _ => exact Node.noConfusion hr
    | object hr hs _ hfields =>
      obtain rfl := Node.object.inj hr
      obtain rfl := Node.object.inj hs
      have hnull := hfields "b" (.ref 1) (.atom .null) (by simp [Record.defined])
        (by simp [Record.defined])
      cases hnull
  · rintro ⟨text, fuel, htext⟩
    have hcycle : TransGen (ArrayItem memory) 3 3 := TransGen.single ⟨[.ref 3], rfl, by simp⟩
    obtain ⟨result, hresult, -⟩ := Option.map_eq_some_iff.mp htext
    have hnone : walk codePoints (inMemory 3).heap fuel (inMemory 3).value [] = none :=
      walk_cycle hcycle fuel []
    rw [hnone] at hresult
    simp at hresult

end Maple.CanonicalJson
