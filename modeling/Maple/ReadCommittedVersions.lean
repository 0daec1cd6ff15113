import Maple.ReadCommittedRules

/-! What holds of every version of every row, committed or not, when each update alone respects a
rule on the row it finds and the row it leaves. -/

namespace Maple.ReadCommitted
open TransitionRun

variable {R E W O A B : Type}

/-- Any row but a deleted one that some transaction may see. -/
def Slot.Version (slot : Slot R) (row : R) : Prop :=
  slot.committed = some row ∨ ∃ t, slot.pending = some (t, some row)

/-- What updates may do to a row at a time, and which rows may be inserted. -/
structure RowRule (R W : Type) where
  update : ℤ → Option W → R → Option R → Prop
  insert : R → Prop

namespace Program

variable (rule : RowRule R W)

/-- From time `now` on every update the program makes respects the rule, and it ends in `Q`. -/
def Writes : Program R E W A → (A → ℤ → Prop) → ℤ → Prop
  | .done a, Q, now => ∀ n, now ≤ n → Q a n
  | .clock next, Q, now => ∀ n, now ≤ n → (next n).Writes Q n
  | .draw next, Q, now => ∀ k, (next k).Writes Q now
  | .select _ next, Q, now => ∀ rows, (next rows).Writes Q now
  | .update window write next, Q, now =>
      (∀ n row new, now ≤ n → write row = some new → rule.update n window row new) ∧
        ∀ rows, (next rows).Writes Q now
  | .visit window write _ _ next, Q, now =>
      (∀ n row new, now ≤ n → write row = some new → rule.update n window row new) ∧
        ∀ rows, (next rows).Writes Q now
  | .insert row next, Q, now => rule.insert row ∧ next.Writes Q now
  | .begin next, Q, now => next.Writes Q now
  | .commit _ next, Q, now => next.Writes Q now

variable {rule} {p : Program R E W A} {now after : ℤ}

lemma Writes.weaken {Q : A → ℤ → Prop} (h : p.Writes rule Q now) (hafter : now ≤ after) :
    p.Writes rule Q after := by
  induction p generalizing now with
  | done a => exact fun n hn => h n (hafter.trans hn)
  | clock next ih => exact fun n hn => h n (hafter.trans hn)
  | draw next ih => exact fun k => ih k (h k) hafter
  | select query next ih => exact fun rows => ih rows (h rows) hafter
  | update window write next ih =>
    exact ⟨fun n row new hn => h.1 n row new (hafter.trans hn),
      fun rows => ih rows (h.2 rows) hafter⟩
  | visit window write targets returned next ih =>
    exact ⟨fun n row new hn => h.1 n row new (hafter.trans hn),
      fun rows => ih rows (h.2 rows) hafter⟩
  | insert row next ih => exact ⟨h.1, ih h.2 hafter⟩
  | begin next ih => exact ih h hafter
  | commit entries next ih => exact ih h hafter

lemma Writes.bind {k : A → Program R E W B} {Q : B → ℤ → Prop}
    (h : p.Writes rule (fun a n => (k a).Writes rule Q n) now) :
    (p >>= k).Writes rule Q now := by
  change (p.bind k).Writes rule Q now
  induction p generalizing now with
  | done a => exact h now le_rfl
  | clock next ih => exact fun n hn => ih n (h n hn)
  | draw next ih => exact fun i => ih i (h i)
  | select query next ih => exact fun rows => ih rows (h rows)
  | update window write next ih => exact ⟨h.1, fun rows => ih rows (h.2 rows)⟩
  | visit window write targets returned next ih => exact ⟨h.1, fun rows => ih rows (h.2 rows)⟩
  | insert row next ih => exact ⟨h.1, ih h.2⟩
  | begin next ih => exact ih h
  | commit entries next ih => exact ih h

lemma Writes.mono {Q Q' : A → ℤ → Prop} (h : p.Writes rule Q now)
    (hQ : ∀ a n, now ≤ n → Q a n → Q' a n) : p.Writes rule Q' now := by
  induction p generalizing now with
  | done a => exact fun n hn => hQ a n hn (h n hn)
  | clock next ih => exact fun n hn => ih n (h n hn) fun a m hm => hQ a m (hn.trans hm)
  | draw next ih => exact fun i => ih i (h i) hQ
  | select query next ih => exact fun rows => ih rows (h rows) hQ
  | update window write next ih => exact ⟨h.1, fun rows => ih rows (h.2 rows) hQ⟩
  | visit window write targets returned next ih => exact ⟨h.1, fun rows => ih rows (h.2 rows) hQ⟩
  | insert row next ih => exact ⟨h.1, ih h.2 hQ⟩
  | begin next ih => exact ih h hQ
  | commit entries next ih => exact ih h hQ

lemma Writes.visiting {window : Option W} {write : R → Option (Option R)} {targets : List ℕ}
    {returned : List R} {next : List R → Program R E W A} {Q : A → ℤ → Prop}
    (h : (visit window write targets returned next).Writes rule Q now) :
    (visiting window write targets returned next).Writes rule Q now := by
  unfold Program.visiting
  split
  · exact h.2 returned
  · exact h

end Program

/-- A process whose program, and the transaction it may try again, respect the rule. -/
structure Process.Writes (rule : RowRule R W) (p : Process R E W A) (now : ℤ) : Prop where
  current : p.current.Writes rule (fun _ _ => True) now
  restart : ∀ first, p.restart = some first → first.Writes rule (fun _ _ => True) now

def World.Writes (rule : RowRule R W) (w : World R E W A) : Prop :=
  ∀ t p, w.process? t = some p → p.Writes rule w.now

variable {rule : RowRule R W} {w w' : World R E W A} {t i : ℕ} {p p' : Process R E W A}

lemma World.Writes.goOn (h : w.Writes rule) {store : Store R E} (hp : w.process? t = some p)
    (hp' : p'.Writes rule w.now) : (w.goOn t store p').Writes rule := by
  intro u q hq
  have hlt : t < ({ w with store } : World R E W A).processes.length :=
    World.lt_length_of_process? hp
  by_cases hne : u = t
  · subst hne
    rw [World.goOn, World.process?_setProcess_self hlt] at hq
    exact Option.some.inj hq ▸ hp'
  · rw [World.goOn, World.process?_setProcess_of_ne hne] at hq
    exact h u q hq

lemma World.Writes.run (h : w.Writes rule) (hp : w.process? t = some p)
    (hrun : w.run t p = some w') : w'.Writes rule := by
  have hwrites := h t p hp
  have hcurrent := hwrites.current
  unfold World.run at hrun
  cases hc : p.current with
  | done a => simp [hc] at hrun
  | clock next =>
    rw [hc] at hrun hcurrent
    obtain rfl := Option.some.inj hrun
    exact h.goOn hp ⟨hcurrent w.now le_rfl, hwrites.restart⟩
  | draw next =>
    rw [hc] at hrun hcurrent
    obtain rfl := Option.some.inj hrun
    exact h.goOn hp ⟨hcurrent _, hwrites.restart⟩
  | select query next =>
    rw [hc] at hrun hcurrent
    obtain rfl := Option.some.inj hrun
    exact h.goOn hp ⟨hcurrent _, hwrites.restart⟩
  | update window write next =>
    rw [hc] at hrun hcurrent
    obtain rfl := Option.some.inj hrun
    exact h.goOn hp ⟨Program.Writes.visiting hcurrent, hwrites.restart⟩
  | visit window write targets returned next => simp [hc] at hrun
  | insert row next =>
    rw [hc] at hrun hcurrent
    obtain rfl := Option.some.inj hrun
    exact h.goOn hp ⟨hcurrent.2, hwrites.restart⟩
  | begin next =>
    rw [hc] at hrun hcurrent
    obtain rfl := Option.some.inj hrun
    refine h.goOn hp ⟨hcurrent, fun first hfirst => ?_⟩
    obtain rfl := Option.some.inj hfirst
    exact hcurrent
  | commit entries next =>
    rw [hc] at hrun hcurrent
    obtain rfl := Option.some.inj hrun
    exact h.goOn hp ⟨hcurrent, fun first hfirst => by simp at hfirst⟩

/-- What a visit does: it writes the row it finds under the row's lock, or leaves the store. -/
inductive World.Visited (w : World R E W A) (t i : ℕ) (p : Process R E W A)
    (w' : World R E W A) : Prop
  | skipped (hstore : w'.store = w.store)
  | wrote (window : Option W) (write : R → Option (Option R)) (targets : List ℕ)
      (returned : List R) (next : List R → Program R E W A) (row : R) (new : Option R)
      (hcurrent : p.current = .visit window write targets returned next)
      (hfree : (w.store.slot i).Free t) (hseen : (w.store.slot i).seen t = some row)
      (hwrite : write row = some new) (hstore : w'.store = w.store.write t i new)

lemma World.visit_cases (h : w.visit t i p = some w') : w.Visited t i p w' ∧
    ∃ window write targets returned next targets' returned',
      p.current = .visit window write targets returned next ∧
      w' = w.goOn t w'.store
        { p with current := .visiting window write targets' returned' next } := by
  unfold World.visit at h
  cases hc : p.current with
  | visit window write targets returned next =>
    simp only [hc] at h
    split_ifs at h with hcan
    cases hseen : (w.store.slot i).seen t with
    | none =>
      simp only [hseen, Option.some.injEq] at h
      subst h
      exact ⟨.skipped rfl, _, _, _, _, _, _, _, rfl, rfl⟩
    | some row =>
      cases hnew : write row with
      | none =>
        simp only [hseen, hnew, Option.some.injEq] at h
        subst h
        exact ⟨.skipped rfl, _, _, _, _, _, _, _, rfl, rfl⟩
      | some new =>
        simp only [hseen, hnew, Option.some.injEq] at h
        subst h
        exact ⟨.wrote window write targets returned next row new hc hcan.2 hseen hnew rfl,
          _, _, _, _, _, _, _, rfl, rfl⟩
  | _ => simp [hc] at h

lemma World.Writes.visit (h : w.Writes rule) (hp : w.process? t = some p)
    (hvisit : w.visit t i p = some w') : w'.Writes rule := by
  have hwrites := h t p hp
  have hcurrent := hwrites.current
  obtain ⟨-, window, write, targets, returned, next, targets', returned', hc, hw'⟩ :=
    World.visit_cases hvisit
  rw [hc] at hcurrent
  rw [hw']
  exact h.goOn hp ⟨Program.Writes.visiting hcurrent, hwrites.restart⟩

lemma World.Writes.step {start : O → Program R E W A} (h : w.Writes rule)
    (hstart : ∀ op now, (start op).Writes rule (fun _ _ => True) now) {a : Action O}
    (hstep : w.step start a = some w') : w'.Writes rule := by
  cases a with
  | spawn op =>
    obtain rfl := Option.some.inj hstep
    intro u q hq
    by_cases hlt : u < w.processes.length
    · rw [World.process?, List.getD_eq_getElem?_getD, List.getElem?_append_left hlt,
        ← List.getD_eq_getElem?_getD] at hq
      exact h u q hq
    · rw [World.process?, List.getD_eq_getElem?_getD,
        List.getElem?_append_right (not_lt.mp hlt)] at hq
      cases hindex : u - w.processes.length with
      | zero =>
        rw [hindex] at hq
        obtain rfl : { current := start op } = q := by simpa using hq
        exact ⟨hstart op _, fun first hfirst => by simp at hfirst⟩
      | succ k =>
        rw [hindex] at hq
        simp at hq
  | tick now =>
    simp only [World.step] at hstep
    split_ifs at hstep with hle
    obtain rfl := Option.some.inj hstep
    intro u q hq
    have hwrites := h u q hq
    exact ⟨hwrites.current.weaken hle, fun first hfirst => (hwrites.restart first hfirst).weaken hle⟩
  | run t =>
    obtain ⟨p, hp, hrun⟩ := Option.bind_eq_some_iff.mp hstep
    exact h.run hp hrun
  | visit t i =>
    obtain ⟨p, hp, hvisit⟩ := Option.bind_eq_some_iff.mp hstep
    exact h.visit hp hvisit
  | retry t =>
    obtain ⟨p, hp, hretry⟩ := Option.bind_eq_some_iff.mp hstep
    obtain ⟨first, hfirst, rfl⟩ := Option.map_eq_some_iff.mp hretry
    have hfirst' := (h t p hp).restart first hfirst
    refine h.goOn hp ⟨hfirst', fun again hagain => ?_⟩
    obtain rfl := Option.some.inj hagain
    exact hfirst'
  | fail t =>
    simp only [World.step] at hstep
    split_ifs at hstep with hsome
    obtain rfl := Option.some.inj hstep
    obtain ⟨p, hp⟩ := Option.isSome_iff_exists.mp hsome
    have hlt := World.lt_length_of_process? hp
    intro u q hq
    by_cases hne : u = t
    · subst hne
      rw [World.process?_setProcess_self (by exact hlt)] at hq
      cases hq
    · rw [World.process?_setProcess_of_ne hne] at hq
      exact h u q hq

/-! ### One row along a run -/

/-- Transaction `t` is about to turn `row`, which it finds in slot `i`, into `new`. -/
def World.Updates (w : World R E W A) (t i : ℕ) (window : Option W) (row : R)
    (new : Option R) : Prop :=
  ∃ p write targets returned next, w.process? t = some p ∧
    p.current = .visit window write targets returned next ∧
    (w.store.slot i).Free t ∧ (w.store.slot i).seen t = some row ∧ write row = some new

lemma World.Writes.updates (h : w.Writes rule) {window : Option W} {row : R} {new : Option R}
    (hupdates : w.Updates t i window row new) : rule.update w.now window row new := by
  obtain ⟨p, write, targets, returned, next, hp, hc, -, -, hwrite⟩ := hupdates
  have hcurrent := (h t p hp).current
  rw [hc] at hcurrent
  exact hcurrent.1 _ _ _ le_rfl hwrite

/-- What a step does to a slot. -/
inductive World.SlotStep (rule : RowRule R W) (w : World R E W A) (a : Action O) (i : ℕ) :
    Slot R → Prop
  | same : SlotStep rule w a i (w.store.slot i)
  | update (t : ℕ) (window : Option W) (row : R) (new : Option R) (ha : a = .visit t i)
      (hupdates : w.Updates t i window row new) :
      SlotStep rule w a i ((w.store.slot i).write t new)
  | insert (t : ℕ) (row : R) (ha : a = .run t) (hslot : w.store.slot i = {})
      (hrow : rule.insert row) : SlotStep rule w a i { pending := some (t, some row) }
  | commit (t : ℕ) (ha : a = .run t) : SlotStep rule w a i ((w.store.slot i).commit t)
  | rollback (t : ℕ) (ha : a = .retry t ∨ a = .fail t) :
      SlotStep rule w a i ((w.store.slot i).rollback t)

lemma World.slotStep {start : O → Program R E W A} (h : w.Writes rule) {a : Action O}
    (hstep : w.step start a = some w') (i : ℕ) :
    w.SlotStep rule a i (w'.store.slot i) := by
  cases a with
  | spawn op =>
    obtain rfl := Option.some.inj hstep
    exact .same
  | tick now =>
    simp only [World.step] at hstep
    split_ifs at hstep with hle
    obtain rfl := Option.some.inj hstep
    exact .same
  | run t =>
    obtain ⟨p, hp, hrun⟩ := Option.bind_eq_some_iff.mp hstep
    have hcurrent := (h t p hp).current
    unfold World.run at hrun
    cases hc : p.current with
    | insert row next =>
      rw [hc] at hrun hcurrent
      obtain rfl := Option.some.inj hrun
      change w.SlotStep rule _ i ((w.store.insert t row).slot i)
      by_cases hi : i = w.store.slots.length
      · subst hi
        rw [Store.slot_insert_self]
        exact .insert t row rfl (Store.slot_of_length_le le_rfl) hcurrent.1
      · rw [Store.slot_insert_of_ne hi]
        exact .same
    | commit entries next =>
      rw [hc] at hrun
      obtain rfl := Option.some.inj hrun
      change w.SlotStep rule _ i ((w.store.commit t entries).slot i)
      rw [Store.slot_commit]
      exact .commit t rfl
    | _ =>
      rw [hc] at hrun
      simp only [Option.some.injEq, reduceCtorEq] at hrun
      try
        subst hrun
        exact .same
  | visit t j =>
    obtain ⟨p, hp, hvisit⟩ := Option.bind_eq_some_iff.mp hstep
    rcases (World.visit_cases hvisit).1 with
      hstore | ⟨window, write, targets, returned, next, row, new, hc, hfree, hseen, hwrite, hstore⟩
    · rw [hstore]
      exact .same
    · rw [hstore]
      have hlt := Store.lt_length_of_seen hseen
      by_cases hij : i = j
      · subst hij
        rw [Store.slot_write_self hlt]
        exact .update t window row new rfl
          ⟨p, write, targets, returned, next, hp, hc, hfree, hseen, hwrite⟩
      · rw [Store.slot_write_of_ne hij]
        exact .same
  | retry t =>
    obtain ⟨p, hp, hretry⟩ := Option.bind_eq_some_iff.mp hstep
    obtain ⟨first, hfirst, rfl⟩ := Option.map_eq_some_iff.mp hretry
    change w.SlotStep rule _ i ((w.store.rollback t).slot i)
    rw [Store.slot_rollback]
    exact .rollback t (Or.inl rfl)
  | fail t =>
    simp only [World.step] at hstep
    split_ifs at hstep with hsome
    obtain rfl := Option.some.inj hstep
    change w.SlotStep rule _ i ((w.store.rollback t).slot i)
    rw [Store.slot_rollback]
    exact .rollback t (Or.inr rfl)

lemma Slot.version_commit {slot : Slot R} {row : R} (h : (slot.commit t).Version row) :
    slot.Version row := by
  by_cases hlocked : slot.lockedBy t
  · obtain ⟨new, hpending⟩ := Slot.lockedBy_iff.mp hlocked
    rw [Slot.commit_locked hpending] at h
    rcases h with h | ⟨u, h⟩
    · exact Or.inr ⟨t, by rw [hpending, ← h]⟩
    · simp at h
  · rwa [Slot.commit_free hlocked] at h

lemma Slot.version_rollback {slot : Slot R} {row : R} (h : (slot.rollback t).Version row) :
    slot.Version row := by
  by_cases hlocked : slot.lockedBy t
  · rw [Slot.rollback_locked hlocked] at h
    rcases h with h | ⟨u, h⟩
    · exact Or.inl h
    · simp at h
  · rwa [Slot.rollback_free hlocked] at h

lemma Slot.version_seen {slot : Slot R} {row : R} (h : slot.seen t = some row) :
    slot.Version row := by
  by_cases hlocked : slot.lockedBy t
  · obtain ⟨new, hpending⟩ := Slot.lockedBy_iff.mp hlocked
    rw [Slot.seen_locked hpending] at h
    exact Or.inr ⟨t, by rw [hpending, h]⟩
  · rw [Slot.seen_free hlocked] at h
    exact Or.inl h

/-- What holds of every version before a step, of every row that is inserted and of every row an
update leaves, holds of every version after it. -/
lemma World.SlotStep.version {P : R → Prop} {a : Action O} {slot : Slot R}
    (h : w.SlotStep rule a i slot) (hbefore : ∀ row, (w.store.slot i).Version row → P row)
    (hinsert : ∀ row, rule.insert row → P row)
    (hupdate : ∀ t window row new, a = .visit t i → w.Updates t i window row (some new) →
      P row → P new) : ∀ row, slot.Version row → P row := by
  intro row hrow
  cases h with
  | same => exact hbefore row hrow
  | update t window found new ha hupdates =>
    rcases hrow with hrow | ⟨u, hrow⟩
    · exact hbefore row (Or.inl hrow)
    · have hnew : new = some row := by
        simp only [Slot.write, Option.some.injEq, Prod.mk.injEq] at hrow
        exact hrow.2
      subst hnew
      obtain ⟨p, write, targets, returned, next, hp, hc, hfree, hseen, hwrite⟩ := hupdates
      exact hupdate t window found row ha
        ⟨p, write, targets, returned, next, hp, hc, hfree, hseen, hwrite⟩
        (hbefore found (Slot.version_seen hseen))
  | insert t inserted ha hslot hinserted =>
    rcases hrow with hrow | ⟨u, hrow⟩
    · simp at hrow
    · simp only [Option.some.injEq, Prod.mk.injEq] at hrow
      exact hrow.2 ▸ hinsert inserted hinserted
  | commit t ha => exact hbefore row (Slot.version_commit hrow)
  | rollback t ha => exact hbefore row (Slot.version_rollback hrow)

end Maple.ReadCommitted
