import Maple.TransitionRun

/-! Transactions under read committed: every statement sees what was committed before it began and
its own transaction's writes, a write locks its row until the transaction ends, and an update that
meets a locked row waits and then judges the row as it is. -/

namespace Maple.ReadCommitted

variable {R E W O A B : Type}

/-- A row: what is committed of it, and what the transaction that holds its lock has written
(`none` for a deletion). A row that is not there has neither. -/
structure Slot (R : Type) where
  committed : Option R := none
  pending : Option (ℕ × Option R) := none
deriving DecidableEq

namespace Slot

/-- The row as transaction `t` sees it. -/
def seen (t : ℕ) (slot : Slot R) : Option R :=
  match slot.pending with
  | some (u, row) => if u = t then row else slot.committed
  | none => slot.committed

def lockedBy (u : ℕ) (slot : Slot R) : Prop := slot.pending.map Prod.fst = some u

/-- No other transaction holds the row's lock. -/
def Free (t : ℕ) (slot : Slot R) : Prop := ∀ u, slot.lockedBy u → u = t

instance (t : ℕ) (slot : Slot R) : Decidable (slot.Free t) :=
  match h : slot.pending with
  | none => .isTrue fun u hu => by simp [lockedBy, h] at hu
  | some (u, _) => decidable_of_iff (u = t) (by simp [Free, lockedBy, h])

def write (t : ℕ) (row : Option R) (slot : Slot R) : Slot R := { slot with pending := some (t, row) }

def commit (t : ℕ) (slot : Slot R) : Slot R :=
  match slot.pending with
  | some (u, row) => if u = t then { committed := row } else slot
  | none => slot

def rollback (t : ℕ) (slot : Slot R) : Slot R :=
  match slot.pending with
  | some (u, _) => if u = t then { committed := slot.committed } else slot
  | none => slot

variable {t u : ℕ} {slot : Slot R} {row : Option R}

lemma seen_locked (h : slot.pending = some (t, row)) : slot.seen t = row := by
  simp [seen, h]

lemma seen_free (h : ¬ slot.lockedBy t) : slot.seen t = slot.committed := by
  unfold seen
  cases hp : slot.pending with
  | none => rfl
  | some p => simp [show p.1 ≠ t from fun heq => h (by simp [lockedBy, hp, heq])]

lemma lockedBy_iff : slot.lockedBy t ↔ ∃ row, slot.pending = some (t, row) := by
  simp [lockedBy]

lemma commit_locked (h : slot.pending = some (t, row)) :
    slot.commit t = { committed := row } := by
  simp [commit, h]

lemma commit_free (h : ¬ slot.lockedBy t) : slot.commit t = slot := by
  unfold commit
  cases hp : slot.pending with
  | none => rfl
  | some p => simp [show p.1 ≠ t from fun heq => h (by simp [lockedBy, hp, heq])]

lemma rollback_locked (h : slot.lockedBy t) :
    slot.rollback t = { committed := slot.committed } := by
  obtain ⟨row, hp⟩ := lockedBy_iff.mp h
  simp [rollback, hp]

lemma rollback_free (h : ¬ slot.lockedBy t) : slot.rollback t = slot := by
  unfold rollback
  cases hp : slot.pending with
  | none => rfl
  | some p => simp [show p.1 ≠ t from fun heq => h (by simp [lockedBy, hp, heq])]

end Slot

/-- The tables, who made each random draw, and the history of what transactions report when they
commit. -/
structure Store (R E : Type) where
  slots : List (Slot R) := []
  draws : List ℕ := []
  log : List E := []

namespace Store

def slot (s : Store R E) (i : ℕ) : Slot R := s.slots.getD i {}

def visible (s : Store R E) (t : ℕ) : List R := s.slots.filterMap (Slot.seen t)

/-- The rows a statement of `t` that begins now will visit. -/
def matching (s : Store R E) (t : ℕ) (write : R → Option (Option R)) : List ℕ :=
  (List.range s.slots.length).filter fun i => (((s.slot i).seen t).bind write).isSome

def write (s : Store R E) (t i : ℕ) (row : Option R) : Store R E :=
  { s with slots := s.slots.modify i (Slot.write t row) }

def insert (s : Store R E) (t : ℕ) (row : R) : Store R E :=
  { s with slots := s.slots ++ [{ pending := some (t, some row) }] }

def draw (s : Store R E) (t : ℕ) : Store R E := { s with draws := s.draws ++ [t] }

def commit (s : Store R E) (t : ℕ) (entries : List E) : Store R E :=
  { s with
    slots := s.slots.map (Slot.commit t)
    log := s.log ++ entries }

def rollback (s : Store R E) (t : ℕ) : Store R E := { s with slots := s.slots.map (Slot.rollback t) }

variable {s s' : Store R E} {t u i j : ℕ} {row : R}

lemma slot_of_length_le (h : s.slots.length ≤ i) : s.slot i = {} := by
  simp [slot, List.getElem?_eq_none h]

lemma lt_length_of_seen (h : (s.slot i).seen t = some row) : i < s.slots.length := by
  by_contra hlt
  rw [slot_of_length_le (by omega)] at h
  simp [Slot.seen] at h

lemma slot_write_self {new : Option R} (hi : i < s.slots.length) :
    (s.write t i new).slot i = (s.slot i).write t new := by
  simp [slot, write, hi]

lemma slot_write_of_ne {new : Option R} (h : j ≠ i) : (s.write t i new).slot j = s.slot j := by
  simp [slot, write, Ne.symm h]

lemma slot_insert_self : (s.insert t row).slot s.slots.length = { pending := some (t, some row) } := by
  simp [slot, insert]

lemma slot_insert_of_ne (h : i ≠ s.slots.length) : (s.insert t row).slot i = s.slot i := by
  by_cases hi : i < s.slots.length
  · simp [slot, insert, List.getElem?_append_left hi]
  · rw [slot_of_length_le (s := s) (by omega), slot_of_length_le]
    simp [insert]
    omega

@[simp] lemma slot_draw : (s.draw t).slot i = s.slot i := rfl

@[simp] lemma slot_commit {entries : List E} : (s.commit t entries).slot i = (s.slot i).commit t := by
  simp only [slot, commit, List.getD_eq_getElem?_getD, List.getElem?_map]
  cases s.slots[i]? with
  | none => rfl
  | some _ => rfl

@[simp] lemma slot_rollback : (s.rollback t).slot i = (s.slot i).rollback t := by
  simp only [slot, rollback, List.getD_eq_getElem?_getD, List.getElem?_map]
  cases s.slots[i]? with
  | none => rfl
  | some _ => rfl

end Store

end Maple.ReadCommitted
