import Maple.InsertMap
import Maple.LinkedSlots

/-! The LRU cache of the log clusters: entries in an array of slots, linked through the indices of
their neighbours. -/

namespace Maple.Drain

/-- A slot index that no longer holds an entry. -/
structure LruSlotError where
  slot : ℕ
  deriving DecidableEq, Repr

structure LruEntry (K V : Type) where
  key : K
  value : V
  prev : Option ℕ
  next : Option ℕ

/-- `freeSlots` has the slot freed last in front. -/
structure LruCache (K V : Type) where
  capacity : ℕ
  map : InsertMap K ℕ
  entries : List (Option (LruEntry K V))
  freeSlots : List ℕ
  head : Option ℕ
  tail : Option ℕ

namespace LruCache

variable {K V : Type} [DecidableEq K]

def new (capacity : ℕ) : LruCache K V := ⟨capacity, .empty, [], [], none, none⟩

def size (c : LruCache K V) : ℕ := c.map.entries.length

/-- The entry a slot holds, if any. -/
def entry (c : LruCache K V) (slot : ℕ) : Option (LruEntry K V) := c.entries[slot]?.join

def entryAt (c : LruCache K V) (slot : ℕ) : Except LruSlotError (LruEntry K V) :=
  match c.entry slot with
  | some entry => .ok entry
  | none => .error ⟨slot⟩

def setEntry (c : LruCache K V) (slot : ℕ) (entry : Option (LruEntry K V)) : LruCache K V :=
  { c with entries := c.entries.set slot entry }

def peek (c : LruCache K V) (key : K) : Option V :=
  (c.map.get key).bind fun slot => (c.entry slot).map LruEntry.value

def values (c : LruCache K V) : List V := c.entries.filterMap fun entry => entry.map LruEntry.value

/-- What follows `prev` is `next`; with nothing before it, `next` is the head. -/
def pointNext (c : LruCache K V) (prev next : Option ℕ) : Except LruSlotError (LruCache K V) :=
  match prev with
  | some slot => do
    let before ← c.entryAt slot
    return c.setEntry slot (some { before with next })
  | none => return { c with head := next }

/-- What precedes `next` is `prev`; with nothing after it, `prev` is the tail. -/
def pointPrev (c : LruCache K V) (next prev : Option ℕ) : Except LruSlotError (LruCache K V) :=
  match next with
  | some slot => do
    let after ← c.entryAt slot
    return c.setEntry slot (some { after with prev })
  | none => return { c with tail := prev }

def unlink (c : LruCache K V) (slot : ℕ) : Except LruSlotError (LruCache K V) := do
  let entry ← c.entryAt slot
  let c ← c.pointNext entry.prev entry.next
  c.pointPrev entry.next entry.prev

/-- A slot whose entry comes before the head becomes the head. -/
def linkHead (c : LruCache K V) (slot : ℕ) : Except LruSlotError (LruCache K V) := do
  let c ← match c.head with
    | some head => c.pointPrev (some head) (some slot)
    | none => pure c
  return { c with head := some slot, tail := c.tail.or (some slot) }

def moveToHead (c : LruCache K V) (slot : ℕ) : Except LruSlotError (LruCache K V) :=
  if c.head = some slot then .ok c
  else do
    let c ← c.unlink slot
    let entry ← c.entryAt slot
    (c.setEntry slot (some { entry with prev := none, next := c.head })).linkHead slot

def get (c : LruCache K V) (key : K) : Except LruSlotError (Option V × LruCache K V) :=
  match c.map.get key with
  | none => .ok (none, c)
  | some slot => do
    let c ← c.moveToHead slot
    return ((c.entry slot).map LruEntry.value, c)

def allocSlot (c : LruCache K V) (entry : LruEntry K V) : ℕ × LruCache K V :=
  match c.freeSlots with
  | slot :: rest => (slot, { c.setEntry slot (some entry) with freeSlots := rest })
  | [] => (c.entries.length, { c with entries := c.entries ++ [some entry] })

def freeSlot (c : LruCache K V) (slot : ℕ) : LruCache K V :=
  { c.setEntry slot none with freeSlots := slot :: c.freeSlots }

def evictTail (c : LruCache K V) : Except LruSlotError (Option (K × V) × LruCache K V) :=
  match c.tail with
  | none => .ok (none, c)
  | some slot => do
    let entry ← c.entryAt slot
    let c ← { c with map := c.map.erase entry.key }.unlink slot
    return (some (entry.key, entry.value), c.freeSlot slot)

/-- A key the cache does not have, put in front. -/
def insert (c : LruCache K V) (key : K) (value : V) : Except LruSlotError (LruCache K V) := do
  let (slot, c) := c.allocSlot { key, value, prev := none, next := c.head }
  let c ← c.linkHead slot
  return { c with map := c.map.set key slot }

def put (c : LruCache K V) (key : K) (value : V) :
    Except LruSlotError (Option (K × V) × LruCache K V) :=
  match c.map.get key with
  | some slot => do
    let entry ← c.entryAt slot
    let c ← (c.setEntry slot (some { entry with value })).moveToHead slot
    return (none, c)
  | none => do
    let (evicted, c) ← if c.capacity ≤ c.size then c.evictTail else pure (none, c)
    return (evicted, ← c.insert key value)

def remove (c : LruCache K V) (key : K) : Except LruSlotError (Option V × LruCache K V) :=
  match c.map.get key with
  | none => .ok (none, c)
  | some slot => do
    let c ← { c with map := c.map.erase key }.unlink slot
    let entry ← c.entryAt slot
    return (some entry.value, c.freeSlot slot)

end LruCache

end Maple.Drain
