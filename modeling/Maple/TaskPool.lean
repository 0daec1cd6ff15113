import Mathlib

/-! Concurrent tasks over one shared state: each task moves atomically, in any interleaving, and
has a bounded number of moves. -/

namespace Maple.TaskPool

variable {τ σ : Type} (step : τ → σ → τ × σ)

/-- Let the task at place `i` move. -/
def stepAt (pool : List τ × σ) (i : ℕ) : List τ × σ :=
  match pool.1[i]? with
  | none => pool
  | some task =>
    let next := step task pool.2
    (pool.1.set i next.1, next.2)

def runMoves (moves : List ℕ) (tasks : List τ) (s : σ) : List τ × σ :=
  moves.foldl (stepAt step) (tasks, s)

/-- The tasks move in the order of `schedule`, then each gets the moves it may still need. -/
def runPool (bound : ℕ) (schedule : List ℕ) (tasks : List τ) (s : σ) : σ :=
  (runMoves step (schedule ++ (List.range tasks.length).flatMap (List.replicate bound))
    tasks s).2

variable {step} {Inv : List τ → σ → Prop} {rank : τ → ℕ}

/-- What each move of one task keeps, whichever the others are, is kept by the pool. -/
lemma stepAt_inv (hperm : ∀ tasks tasks' s, tasks.Perm tasks' → Inv tasks s → Inv tasks' s)
    (hstep : ∀ task rest s, Inv (task :: rest) s → Inv ((step task s).1 :: rest) (step task s).2)
    {pool : List τ × σ} (i : ℕ) (h : Inv pool.1 pool.2) :
    Inv (stepAt step pool i).1 (stepAt step pool i).2 := by
  unfold stepAt
  cases hget : pool.1[i]? with
  | none => exact h
  | some task =>
    obtain ⟨hlt, hi⟩ := List.getElem?_eq_some_iff.mp hget
    have hsplit := (List.getElem_cons_eraseIdx_perm hlt).symm
    rw [hi] at hsplit
    exact hperm _ _ _ (List.set_perm_cons_eraseIdx hlt _).symm
      (hstep _ _ _ (hperm _ _ _ hsplit h))

lemma stepAt_rank (hrank : ∀ task s, rank (step task s).1 ≤ rank task - 1)
    {pool : List τ × σ} {i j : ℕ} {task : τ} (h : (stepAt step pool i).1[j]? = some task) :
    ∃ before, pool.1[j]? = some before ∧
      rank task ≤ rank before - if i = j then 1 else 0 := by
  unfold stepAt at h
  cases hget : pool.1[i]? with
  | none =>
    rw [hget] at h
    refine ⟨task, h, ?_⟩
    have hne : i ≠ j := by
      rintro rfl
      rw [hget] at h
      cases h
    simp [hne]
  | some before =>
    rw [hget] at h
    dsimp only at h
    obtain ⟨hlt, -⟩ := List.getElem?_eq_some_iff.mp hget
    by_cases hij : i = j
    · subst hij
      rw [List.getElem?_set_self hlt] at h
      obtain rfl := Option.some.inj h
      rw [if_pos rfl]
      exact ⟨before, hget, hrank before pool.2⟩
    · rw [List.getElem?_set_ne hij] at h
      exact ⟨task, h, by simp [hij]⟩

lemma runMoves_inv (hperm : ∀ tasks tasks' s, tasks.Perm tasks' → Inv tasks s → Inv tasks' s)
    (hstep : ∀ task rest s, Inv (task :: rest) s → Inv ((step task s).1 :: rest) (step task s).2)
    {tasks : List τ} {s : σ} (moves : List ℕ) (h : Inv tasks s) :
    Inv (runMoves step moves tasks s).1 (runMoves step moves tasks s).2 := by
  unfold runMoves
  induction moves using List.reverseRecOn with
  | nil => exact h
  | append_singleton moves i ih =>
    rw [List.foldl_append, List.foldl_cons, List.foldl_nil]
    exact stepAt_inv hperm hstep i ih

/-- Each move of a task brings it nearer to its end. -/
lemma runMoves_rank (hrank : ∀ task s, rank (step task s).1 ≤ rank task - 1)
    {tasks : List τ} {s : σ} (moves : List ℕ) {j : ℕ} {task : τ}
    (h : (runMoves step moves tasks s).1[j]? = some task) :
    ∃ before, tasks[j]? = some before ∧ rank task ≤ rank before - moves.count j := by
  unfold runMoves at h
  induction moves using List.reverseRecOn generalizing task with
  | nil => exact ⟨task, h, by simp⟩
  | append_singleton moves i ih =>
    rw [List.foldl_append, List.foldl_cons, List.foldl_nil] at h
    obtain ⟨mid, hmid, hle⟩ := stepAt_rank hrank h
    obtain ⟨before, hbefore, hle'⟩ := ih hmid
    refine ⟨before, hbefore, ?_⟩
    have hcount : (moves ++ [i]).count j = moves.count j + if i = j then 1 else 0 := by
      simp [List.count_append, List.count_singleton, beq_iff_eq]
    rw [hcount]
    omega

variable (step Inv rank) in
/-- However the moves interleave, the invariant stays and at the end no task has a move left. -/
theorem runPool_inv
    (hperm : ∀ tasks tasks' s, tasks.Perm tasks' → Inv tasks s → Inv tasks' s)
    (hstep : ∀ task rest s, Inv (task :: rest) s → Inv ((step task s).1 :: rest) (step task s).2)
    (hrank : ∀ task s, rank (step task s).1 ≤ rank task - 1)
    (bound : ℕ) (schedule : List ℕ) {tasks : List τ} {s : σ}
    (hbound : ∀ task ∈ tasks, rank task ≤ bound) (h : Inv tasks s) :
    ∃ tasks', Inv tasks' (runPool step bound schedule tasks s) ∧
      ∀ task ∈ tasks', rank task = 0 := by
  set moves := schedule ++ (List.range tasks.length).flatMap (List.replicate bound) with hmoves
  refine ⟨(runMoves step moves tasks s).1, runMoves_inv hperm hstep moves h, ?_⟩
  intro task hmem
  obtain ⟨j, hj, hget⟩ := List.mem_iff_getElem.mp hmem
  obtain ⟨before, hbefore, hle⟩ :=
    runMoves_rank hrank moves (by rw [List.getElem?_eq_getElem hj, hget])
  obtain ⟨hlt, hbeforeEq⟩ := List.getElem?_eq_some_iff.mp hbefore
  have hmax : rank before ≤ bound := hbound before (hbeforeEq ▸ List.getElem_mem hlt)
  have hsub : (List.replicate bound j).Sublist
      ((List.range tasks.length).flatMap (List.replicate bound)) :=
    List.sublist_flatten_of_mem (List.mem_map_of_mem (List.mem_range.mpr hlt))
  have hcount := hsub.count_le j
  rw [List.count_replicate_self] at hcount
  rw [hmoves, List.count_append] at hle
  omega

end Maple.TaskPool
