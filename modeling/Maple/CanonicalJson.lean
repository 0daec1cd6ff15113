import Mathlib
import Maple.JsonText

/-! The text of cache keys: a walk over values in memory, whose objects it visits once. -/

namespace Maple.CanonicalJson

/-- A number is kept by its text, which determines it. -/
inductive Atom
  | null
  | bool (value : Bool)
  | number (text : {text : String // Json.NumberText text})
  | string (value : String)

inductive Value
  | atom (atom : Atom)
  | ref (address : ℕ)

/-- A plain object. An entry without a value is `undefined`. -/
structure Record where
  entries : List (String × Option Value)
  distinct : (entries.map Prod.fst).Nodup

inductive Node
  | array (items : List Value)
  | object (record : Record)

abbrev Heap := ℕ → Node

def Atom.json : Atom → Json
  | .null => .null
  | .bool value => .bool value
  | .number text => .number text.1
  | .string value => .string value

def Record.defined (record : Record) : List (String × Value) :=
  record.entries.filterMap fun entry => entry.2.map fun value => (entry.1, value)

/-- The order of the keys is total. -/
structure LocaleCompare where
  le : String → String → Prop
  decidable : DecidableRel le
  total : ∀ a b, le a b ∨ le b a
  trans : ∀ a b c, le a b → le b c → le a c
  antisymm : ∀ a b, le a b → le b a → a = b

instance (compare : LocaleCompare) : DecidableRel compare.le := compare.decidable

/-- Keys that are array indices come first, in numeric order. -/
def arrayIndex (key : String) : Option ℕ :=
  let digits := key.toList
  let index := digits.foldl (fun n c => 10 * n + (c.toNat - 48)) 0
  if digits ≠ [] ∧ (∀ c ∈ digits, c.isDigit) ∧ (digits.head? = some '0' → digits = ['0']) ∧
      index < 2 ^ 32 - 1 then some index
  else none

/-- The properties of an object made from entries, in their order. -/
def fromEntries (entries : List (String × Json)) : List (String × Json) :=
  (entries.filter fun entry => (arrayIndex entry.1).isSome).insertionSort
      (fun a b => (arrayIndex a.1).getD 0 ≤ (arrayIndex b.1).getD 0) ++
    entries.filter fun entry => !(arrayIndex entry.1).isSome

def sortedFields (compare : LocaleCompare) (entries : List (String × Json)) :
    List (String × Json) :=
  fromEntries (entries.insertionSort fun a b => compare.le a.1 b.1)

/-- `map` with a state that is carried from item to item. -/
def mapSeen {α β σ : Type} (f : α → σ → Option (β × σ)) : List α → σ → Option (List β × σ)
  | [], seen => some ([], seen)
  | a :: as, seen =>
    match f a seen with
    | none => none
    | some (b, seen) => (mapSeen f as seen).map fun rest => (b :: rest.1, rest.2)

/-- A walk that needs more calls than the fuel has no result. -/
def walk (compare : LocaleCompare) (heap : Heap) :
    ℕ → Value → List ℕ → Option (Json × List ℕ)
  | 0, _, _ => none
  | _ + 1, .atom atom, seen => some (atom.json, seen)
  | fuel + 1, .ref address, seen =>
    match heap address with
    | .array items =>
      (mapSeen (walk compare heap fuel) items seen).map fun r => (.array r.1, r.2)
    | .object record =>
      if address ∈ seen then some (.null, seen)
      else
        (mapSeen (fun entry seen =>
          (walk compare heap fuel entry.2 seen).map fun r => ((entry.1, r.1), r.2))
          record.defined (address :: seen)).map fun r => (.object (sortedFields compare r.1), r.2)

def canonicalJSON (compare : LocaleCompare) (heap : Heap) (fuel : ℕ) (value : Value) :
    Option (List Char) :=
  (walk compare heap fuel value []).map fun r => r.1.stringify

/-! ### Values in memory -/

/-- An array has the other array or object as an item. -/
def ArrayItem (heap : Heap) (r s : ℕ) : Prop := ∃ items, heap r = .array items ∧ .ref s ∈ items

def ObjectField (heap : Heap) (r s : ℕ) : Prop :=
  ∃ record key, heap r = .object record ∧ (key, .ref s) ∈ record.defined

def Child (heap : Heap) (r s : ℕ) : Prop := ArrayItem heap r s ∨ ObjectField heap r s

def Reaches (heap : Heap) (value : Value) (r : ℕ) : Prop :=
  ∃ s, value = .ref s ∧ Relation.ReflTransGen (Child heap) s r

/-- The objects in a value down to some depth, each as often as it occurs. -/
def occurrences (heap : Heap) : ℕ → Value → List ℕ
  | 0, _ => []
  | _ + 1, .atom _ => []
  | depth + 1, .ref address =>
    match heap address with
    | .array items => items.flatMap (occurrences heap depth)
    | .object record =>
      address :: record.defined.flatMap fun entry => occurrences heap depth entry.2

/-- Structural equality up to the order of keys. -/
inductive Same (heap heap' : Heap) : Value → Value → Prop
  | atom (atom : Atom) : Same heap heap' (.atom atom) (.atom atom)
  | array {r s : ℕ} {items items' : List Value} (hr : heap r = .array items)
    (hs : heap' s = .array items') (hlength : items.length = items'.length)
    (hitems : ∀ (i : ℕ) (x y : Value), items[i]? = some x → items'[i]? = some y →
      Same heap heap' x y) :
    Same heap heap' (.ref r) (.ref s)
  | object {r s : ℕ} {record record' : Record} (hr : heap r = .object record)
    (hs : heap' s = .object record')
    (hkeys : ∀ key, key ∈ record.defined.map Prod.fst ↔ key ∈ record'.defined.map Prod.fst)
    (hfields : ∀ key x y, (key, x) ∈ record.defined → (key, y) ∈ record'.defined →
      Same heap heap' x y) :
    Same heap heap' (.ref r) (.ref s)

/-- A value, with the finite part of memory it is in. -/
structure InMemory where
  heap : Heap
  value : Value
  finite : {r | Reaches heap value r}.Finite

namespace InMemory

def Acyclic (a : InMemory) : Prop :=
  ∀ r, Reaches a.heap a.value r → ¬Relation.TransGen (Child a.heap) r r

/-- No object occurs twice. -/
def Unshared (a : InMemory) : Prop := ∀ depth, (occurrences a.heap depth a.value).Nodup

def Same (a b : InMemory) : Prop := CanonicalJson.Same a.heap b.heap a.value b.value

def Returns (compare : LocaleCompare) (a : InMemory) (text : List Char) : Prop :=
  ∃ fuel, canonicalJSON compare a.heap fuel a.value = some text

end InMemory

end Maple.CanonicalJson
