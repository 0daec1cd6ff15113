import Maple.InsertBatcher

/-! What a flush of the insert batcher leaves behind: for each export the rows it committed, and why
it stopped where it did. -/

namespace Maple.Inserts

section Spec
variable {δ ε : Type}

def Store.rows (store : Store δ ε) (id : ℕ) : List (Row δ) :=
  store.table.filter fun row => row.owner = id

/-- Two retries in a row failed, in the retry of a shared statement with the export in it. -/
def Overrun (history : List (Attempt δ ε)) (id : ℕ) (datasource : δ) : Prop :=
  ∃ before shared retries a b after, history = before ++ shared :: (retries ++ a :: b :: after) ∧
    id ∈ shared.owners ∧ shared.thrown.isSome ∧ shared.datasource = datasource ∧
    (∀ retry ∈ retries ++ [a, b], retry.retry ∧ retry.datasource = datasource) ∧
    a.thrown.isSome ∧ b.thrown.isSome

/-- A statement with nothing but rows of the export failed. -/
def FailedAlone (history : List (Attempt δ ε)) (id : ℕ) (datasource : δ) : Prop :=
  ∃ attempt ∈ history, attempt.owners = [id] ∧ attempt.datasource = datasource ∧
    attempt.thrown.isSome

/-- Why an export may fail at a datasource. -/
def Stopped (history : List (Attempt δ ε)) (id : ℕ) (datasource : δ) : Prop :=
  FailedAlone history id datasource ∨ Overrun history id datasource

lemma Stopped.mono {history history' : List (Attempt δ ε)} {id : ℕ} {datasource : δ}
    (h : Stopped history id datasource) (hinit : history <+: history') :
    Stopped history' id datasource := by
  obtain ⟨more, rfl⟩ := hinit
  rcases h with ⟨attempt, hmem, hattempt⟩ | ⟨before, shared, retries, a, b, after, rfl, hshared⟩
  · exact Or.inl ⟨attempt, List.mem_append_left _ hmem, hattempt⟩
  · refine Or.inr ⟨before, shared, retries, a, b, after ++ more, ?_, hshared⟩
    simp

/-- What happens to one export at one datasource: the first of its lines are committed, and all of
them unless it fails there. -/
def PartSettled (datasource : δ) (id : ℕ) (lines : List String) (store store' : Store δ ε) :
    Prop :=
  ∃ committed, committed <+: lines ∧
    store'.rows id = store.rows id ++ committed.map (Row.mk id datasource) ∧
    (store'.progress id).accepted = (store.progress id).accepted + committed.length ∧
    ((store'.progress id).failure = none ∧ committed = lines ∨
      (∃ cause, (store'.progress id).failure = some ⟨datasource, cause⟩) ∧
        committed.length < lines.length ∧ Stopped store'.history id datasource)

def Untouched (id : ℕ) (store store' : Store δ ε) : Prop :=
  store'.progress id = store.progress id ∧ store'.rows id = store.rows id

/-- Part of the work at a datasource: it settles the given exports and touches no other. -/
structure Step (datasource : δ) (parts : List (ℕ × List String)) (store store' : Store δ ε) :
    Prop where
  grows : store.history <+: store'.history
  bounded : (∀ attempt ∈ store.history, Bounded attempt.data) →
    ∀ attempt ∈ store'.history, Bounded attempt.data
  settled : ∀ part ∈ parts, PartSettled datasource part.1 part.2 store store'
  others : ∀ id, id ∉ parts.map Prod.fst → Untouched id store store'

def Unfailed (store : Store δ ε) (id : ℕ) : Prop := (store.progress id).failure = none

section Steps
variable {datasource : δ} {store store' store'' : Store δ ε}

lemma PartSettled.before {id : ℕ} {lines : List String} (huntouched : Untouched id store store')
    (h : PartSettled datasource id lines store' store'') :
    PartSettled datasource id lines store store'' := by
  obtain ⟨committed, hinit, hrows, haccepted, hend⟩ := h
  rw [huntouched.2] at hrows
  rw [huntouched.1] at haccepted
  exact ⟨committed, hinit, hrows, haccepted, hend⟩

lemma PartSettled.after {id : ℕ} {lines : List String}
    (h : PartSettled datasource id lines store store') (huntouched : Untouched id store' store'')
    (hgrows : store'.history <+: store''.history) :
    PartSettled datasource id lines store store'' := by
  obtain ⟨committed, hinit, hrows, haccepted, hend⟩ := h
  rw [← huntouched.2] at hrows
  rw [← huntouched.1] at haccepted hend
  refine ⟨committed, hinit, hrows, haccepted, ?_⟩
  rcases hend with hend | ⟨hcause, hlength, hstopped⟩
  · exact Or.inl hend
  · exact Or.inr ⟨hcause, hlength, hstopped.mono hgrows⟩

lemma PartSettled.none {id : ℕ} (huntouched : Untouched id store store')
    (h : Unfailed store id) : PartSettled datasource id [] store store' := by
  refine ⟨[], List.nil_prefix, ?_, ?_, Or.inl ⟨?_, rfl⟩⟩
  · simpa using huntouched.2
  · simp [huntouched.1]
  · rw [huntouched.1]
    exact h

lemma Step.refl : Step datasource [] store store :=
  ⟨List.prefix_refl _, fun h => h, by simp, fun _ _ => ⟨rfl, rfl⟩⟩

/-- Steps on different exports, one after the other. -/
lemma Step.trans {parts others : List (ℕ × List String)} (h : Step datasource parts store store')
    (h' : Step datasource others store' store'')
    (hnodup : ((parts ++ others).map Prod.fst).Nodup) :
    Step datasource (parts ++ others) store store'' := by
  rw [List.map_append, List.nodup_append] at hnodup
  obtain ⟨-, -, hdisjoint⟩ := hnodup
  refine ⟨h.grows.trans h'.grows, fun hbounded => h'.bounded (h.bounded hbounded), ?_, ?_⟩
  · intro part hpart
    rcases List.mem_append.mp hpart with hpart | hpart
    · have hother : part.1 ∉ others.map Prod.fst := fun hmem =>
        hdisjoint part.1 (List.mem_map_of_mem hpart) part.1 hmem rfl
      exact (h.settled part hpart).after (h'.others part.1 hother) h'.grows
    · have hother : part.1 ∉ parts.map Prod.fst := fun hmem =>
        hdisjoint part.1 hmem part.1 (List.mem_map_of_mem hpart) rfl
      exact (h'.settled part hpart).before (h.others part.1 hother)
  · intro id hid
    rw [List.map_append, List.mem_append, not_or] at hid
    have hfirst := h.others id hid.1
    have hsecond := h'.others id hid.2
    exact ⟨hsecond.1.trans hfirst.1, hsecond.2.trans hfirst.2⟩

lemma Step.unfailed {parts : List (ℕ × List String)} (h : Step datasource parts store store')
    {id : ℕ} (hid : id ∉ parts.map Prod.fst) (hunfailed : Unfailed store id) :
    Unfailed store' id := by
  unfold Unfailed
  rw [(h.others id hid).1]
  exact hunfailed

end Steps

/-! ### Statements -/

section Statements
variable {throws : ℕ → Option ε} {datasource : δ}

@[simp] lemma setProgress_table (store : Store δ ε) (id : ℕ) (progress : Progress δ ε) :
    (store.setProgress id progress).table = store.table := rfl

@[simp] lemma setProgress_history (store : Store δ ε) (id : ℕ) (progress : Progress δ ε) :
    (store.setProgress id progress).history = store.history := rfl

@[simp] lemma setProgress_rows (store : Store δ ε) (id other : ℕ) (progress : Progress δ ε) :
    (store.setProgress id progress).rows other = store.rows other := rfl

@[simp] lemma setProgress_self (store : Store δ ε) (id : ℕ) (progress : Progress δ ε) :
    (store.setProgress id progress).progress id = progress := by
  simp [Store.setProgress]

lemma setProgress_of_ne (store : Store δ ε) {id other : ℕ} (progress : Progress δ ε)
    (h : other ≠ id) : (store.setProgress id progress).progress other = store.progress other := by
  simp [Store.setProgress, h]

/-- The attempt a statement makes. -/
def attemptOf (throws : ℕ → Option ε) (datasource : δ) (retry : Bool)
    (statement : BatchedInsertStatement QueuedPart) (store : Store δ ε) : Attempt δ ε :=
  { datasource, owners := ownersOf statement, data := statement.data, retry
    thrown := throws store.history.length }

lemma exec_history (retry : Bool) (statement : BatchedInsertStatement QueuedPart)
    (store : Store δ ε) : (exec throws datasource retry statement store).1.history =
      store.history ++ [attemptOf throws datasource retry statement store] := rfl

lemma exec_progress (retry : Bool) (statement : BatchedInsertStatement QueuedPart)
    (store : Store δ ε) :
    (exec throws datasource retry statement store).1.progress = store.progress := rfl

lemma zip_replicate {α : Type} (owner : ℕ) (texts : List α) :
    (List.replicate texts.length owner).zip texts = texts.map fun text => (owner, text) := by
  induction texts with
  | nil => rfl
  | cons text texts ih => simp [List.replicate_succ, ih]

lemma rowsOf_alone (part : QueuedPart) {statement : InsertStatement}
    (h : statement.rowCount = statement.data.length) :
    rowsOf datasource (alone part statement) =
      statement.data.map (Row.mk part.queued datasource) := by
  simp [rowsOf, alone, h, zip_replicate]

lemma rowsOf_shared (batches : List (QueuedPart × List EscapedLine)) :
    rowsOf datasource (sharedStatement batches) = batches.flatMap fun batch =>
      (texts batch.2).map (Row.mk batch.1.queued datasource) := by
  induction batches with
  | nil => rfl
  | cons batch batches ih =>
    have hlength : batch.2.length = (texts batch.2).length := by simp [texts]
    simp only [rowsOf, sharedStatement, List.map_cons, List.flatMap_cons] at *
    rw [List.zip_append (by simp [hlength]), List.map_append, ih, hlength, zip_replicate]
    simp

/-- The rows of an export before and after a statement. -/
lemma exec_rows (throws : ℕ → Option ε) (datasource : δ) (retry : Bool)
    (statement : BatchedInsertStatement QueuedPart) (store : Store δ ε) (id : ℕ) : (exec throws datasource retry statement store).1.rows id =
      if (throws store.history.length).isSome then store.rows id
      else store.rows id ++ (rowsOf datasource statement).filter fun row => row.owner = id := by
  unfold Store.rows exec
  split_ifs with hthrown
  · simp [hthrown]
  · simp [hthrown]

lemma rows_alone (part : QueuedPart) {statement : InsertStatement}
    (h : statement.rowCount = statement.data.length) (id : ℕ) :
    ((rowsOf datasource (alone part statement)).filter fun row => row.owner = id) =
      if part.queued = id then statement.data.map (Row.mk id datasource) else [] := by
  rw [rowsOf_alone part h, List.filter_map]
  by_cases hid : part.queued = id
  · simp [hid, Function.comp_def]
  · simp [hid, Function.comp_def]

lemma bounded_exec {retry : Bool} {statement : BatchedInsertStatement QueuedPart}
    {store : Store δ ε} (hstatement : Bounded statement.data)
    (h : ∀ attempt ∈ store.history, Bounded attempt.data) :
    ∀ attempt ∈ (exec throws datasource retry statement store).1.history,
      Bounded attempt.data := by
  intro attempt hattempt
  rw [exec_history] at hattempt
  rcases List.mem_append.mp hattempt with hattempt | hattempt
  · exact h attempt hattempt
  · rw [List.mem_singleton.mp hattempt]
    exact hstatement

/-- A statement with rows of one export only, that commits. -/
lemma step_alone_commits (datasource : δ) (retry : Bool) {part : QueuedPart} {statement : InsertStatement}
    {store : Store δ ε} (hpiece : Piece statement) (hunfailed : Unfailed store part.queued)
    (hthrown : throws store.history.length = none) :
    Step datasource [(part.queued, statement.data)] store
      ((exec throws datasource retry (alone part statement) store).1.accept part.queued
        statement.rowCount) := by
  have hrows := fun id => exec_rows throws datasource retry (alone part statement) store id
  simp only [hthrown, Option.isSome_none, Bool.false_eq_true, if_false,
    rows_alone part hpiece.rowCount] at hrows
  refine ⟨?_, fun h => bounded_exec hpiece.bounded h, ?_, ?_⟩
  · exact ⟨_, (exec_history retry (alone part statement) store).symm⟩
  · intro own hown
    rw [List.mem_singleton.mp hown]
    refine ⟨statement.data, List.prefix_refl _, ?_, ?_, Or.inl ⟨?_, rfl⟩⟩
    · rw [Store.accept, setProgress_rows, hrows, if_pos rfl]
    · simp [Store.accept, exec_progress, hpiece.rowCount]
    · simp only [Store.accept, setProgress_self, exec_progress]
      exact hunfailed
  · intro id hid
    have hne : id ≠ part.queued := by simpa using hid
    constructor
    · rw [Store.accept, setProgress_of_ne _ _ hne, exec_progress]
    · rw [Store.accept, setProgress_rows, hrows, if_neg (Ne.symm hne), List.append_nil]

/-- A statement with rows of one export only, that throws. -/
lemma step_alone_throws (datasource : δ) (retry : Bool) {part : QueuedPart}
    {statement : InsertStatement} {store : Store δ ε} {lines : List String} (hlines : lines ≠ [])
    (hbounded : Bounded statement.data) {error : ε}
    (hthrown : throws store.history.length = some error) (cause : Cause ε) :
    Step datasource [(part.queued, lines)] store
      ((exec throws datasource retry (alone part statement) store).1.fail part.queued
        { datasource, cause }) := by
  have hrows := fun id => exec_rows throws datasource retry (alone part statement) store id
  simp only [hthrown, Option.isSome_some, if_true] at hrows
  refine ⟨?_, fun h => bounded_exec hbounded h, ?_, ?_⟩
  · exact ⟨_, (exec_history retry (alone part statement) store).symm⟩
  · intro own hown
    rw [List.mem_singleton.mp hown]
    refine ⟨[], List.nil_prefix, ?_, ?_, Or.inr ⟨⟨cause, ?_⟩, ?_, Or.inl ?_⟩⟩
    · rw [Store.fail, setProgress_rows, hrows]
      simp
    · simp [Store.fail, exec_progress]
    · simp [Store.fail]
    · exact List.length_pos_of_ne_nil hlines
    · refine ⟨attemptOf throws datasource retry (alone part statement) store, ?_, rfl, rfl, ?_⟩
      · rw [Store.fail, setProgress_history, exec_history]
        simp
      · simp [attemptOf, hthrown]
  · intro id hid
    have hne : id ≠ part.queued := by simpa using hid
    constructor
    · rw [Store.fail, setProgress_of_ne _ _ hne, exec_progress]
    · rw [Store.fail, setProgress_rows, hrows]

lemma unfailed_iff {store : Store δ ε} {id : ℕ} : Unfailed store id ↔ store.failed id = false := by
  simp [Unfailed, Store.failed]

lemma PartSettled.committed {id : ℕ} {lines : List String} {store store' : Store δ ε}
    (h : PartSettled datasource id lines store store') (hunfailed : Unfailed store' id) :
    store'.rows id = store.rows id ++ lines.map (Row.mk id datasource) ∧
      (store'.progress id).accepted = (store.progress id).accepted + lines.length := by
  obtain ⟨committed, -, hrows, haccepted, ⟨-, rfl⟩ | ⟨⟨cause, hfailed⟩, -⟩⟩ := h
  · exact ⟨hrows, haccepted⟩
  · rw [Unfailed, hfailed] at hunfailed
    simp at hunfailed

/-- More lines of an export that has committed all its lines so far. -/
lemma Step.append {id : ℕ} {lines more : List String} {store store' store'' : Store δ ε}
    (h : Step datasource [(id, lines)] store store') (hunfailed : Unfailed store' id)
    (h' : Step datasource [(id, more)] store' store'') :
    Step datasource [(id, lines ++ more)] store store'' := by
  refine ⟨h.grows.trans h'.grows, fun hbounded => h'.bounded (h.bounded hbounded), ?_, ?_⟩
  · intro own hown
    rw [List.mem_singleton.mp hown]
    obtain ⟨hrows, haccepted⟩ := (h.settled _ List.mem_cons_self).committed hunfailed
    obtain ⟨committed, hinit, hrows', haccepted', hend⟩ := h'.settled _ List.mem_cons_self
    refine ⟨lines ++ committed, (List.prefix_append_right_inj lines).mpr hinit, ?_, ?_, ?_⟩
    · rw [hrows', hrows, List.map_append, List.append_assoc]
    · dsimp only at *
      rw [haccepted', haccepted, List.length_append]
      omega
    · rcases hend with ⟨hnone, rfl⟩ | ⟨hcause, hlength, hstopped⟩
      · exact Or.inl ⟨hnone, rfl⟩
      · refine Or.inr ⟨hcause, ?_, hstopped⟩
        rw [List.length_append, List.length_append]
        exact Nat.add_lt_add_left hlength _
  · intro id' hid
    have hfirst := h.others id' (by simpa using hid)
    have hsecond := h'.others id' (by simpa using hid)
    exact ⟨hsecond.1.trans hfirst.1, hsecond.2.trans hfirst.2⟩

lemma unfailed_accept {store : Store δ ε} {id rowCount : ℕ} (h : Unfailed store id) :
    Unfailed (store.accept id rowCount) id := by
  unfold Unfailed Store.accept
  rw [setProgress_self]
  exact h

lemma failed_fail (store : Store δ ε) (id : ℕ) (failure : Failure δ ε) :
    (store.fail id failure).failed id = true := by
  simp [Store.failed, Store.fail]

lemma runStatement_skips {store : Store δ ε} {part : QueuedPart} (h : store.failed part.queued)
    (pieces : List InsertStatement) :
    (pieces.map (alone part)).foldl (runStatement throws datasource) store = store := by
  induction pieces with
  | nil => rfl
  | cons piece pieces ih =>
    have hskip : runStatement throws datasource store (alone part piece) = store := by
      simp [runStatement, ownersOf, alone, h]
    rw [List.map_cons, List.foldl_cons, hskip, ih]

lemma runStatement_alone {store : Store δ ε} {part : QueuedPart} (h : Unfailed store part.queued)
    (piece : InsertStatement) :
    runStatement throws datasource store (alone part piece) =
      match throws store.history.length with
      | none => (exec throws datasource false (alone part piece) store).1.accept part.queued
          piece.rowCount
      | some error => (exec throws datasource false (alone part piece) store).1.fail part.queued
          { datasource, cause := .thrown error } := by
  have hown : (ownersOf (alone part piece)).any store.failed = false := by
    simpa [ownersOf, alone] using unfailed_iff.mp h
  rw [runStatement, hown]
  cases hthrown : throws store.history.length with
  | none => simp [exec, hthrown, alone]
  | some error => simp [exec, hthrown, alone]

/-- A batch with statements of its own stops at the first that fails. -/
lemma step_split (throws : ℕ → Option ε) (datasource : δ) {part : QueuedPart}
    {pieces : List InsertStatement} {store : Store δ ε} (hpieces : ∀ piece ∈ pieces, Piece piece) (h : Unfailed store part.queued)
    (hne : pieces ≠ []) :
    Step datasource [(part.queued, pieces.flatMap fun piece => piece.data)] store
      ((pieces.map (alone part)).foldl (runStatement throws datasource) store) := by
  induction pieces generalizing store with
  | nil => exact absurd rfl hne
  | cons piece pieces ih =>
    have hpiece := hpieces piece List.mem_cons_self
    rw [List.map_cons, List.foldl_cons, runStatement_alone h, List.flatMap_cons]
    cases hthrown : throws store.history.length with
    | some error =>
      have hfailed := failed_fail (exec throws datasource false (alone part piece) store).1
        part.queued { datasource, cause := .thrown error }
      rw [runStatement_skips hfailed]
      exact step_alone_throws datasource false (by simp [hpiece.ne]) hpiece.bounded hthrown _
    | none =>
      have hstep := step_alone_commits datasource false hpiece h hthrown
      have hunfailed : Unfailed ((exec throws datasource false (alone part piece) store).1.accept
          part.queued piece.rowCount) part.queued := unfailed_accept h
      cases pieces with
      | nil =>
        rw [List.flatMap_nil, List.append_nil]
        exact hstep
      | cons next pieces =>
        have hrest := ih (fun other hother => hpieces other (List.mem_cons_of_mem _ hother))
          hunfailed (by simp)
        exact hstep.append hunfailed hrest

/-! ### Retries -/

/-- A shared statement has failed, and since then exports in it have been retried. -/
structure Retrying (datasource : δ) (ids : List ℕ) (failedInARow : ℕ)
    (history before : List (Attempt δ ε)) (shared : Attempt δ ε) (retries : List (Attempt δ ε)) :
    Prop where
  split : history = before ++ shared :: retries
  owners : ∀ id ∈ ids, id ∈ shared.owners
  thrown : shared.thrown.isSome
  here : shared.datasource = datasource
  retried : ∀ retry ∈ retries, retry.retry ∧ retry.datasource = datasource
  one : failedInARow = 1 → ∃ earlier a, retries = earlier ++ [a] ∧ Option.isSome a.thrown
  two : 2 ≤ failedInARow → ∃ earlier a b after, retries = earlier ++ a :: b :: after ∧
    Option.isSome a.thrown ∧ Option.isSome b.thrown

lemma Retrying.overrun {ids : List ℕ} {failedInARow : ℕ}
    {history before retries : List (Attempt δ ε)} {shared : Attempt δ ε}
    (h : Retrying datasource ids failedInARow history before shared retries)
    (hfailed : 2 ≤ failedInARow) {id : ℕ} (hid : id ∈ ids) : Overrun history id datasource := by
  obtain ⟨earlier, a, b, after, hretries, ha, hb⟩ := h.two hfailed
  refine ⟨before, shared, earlier, a, b, after, ?_, h.owners id hid, h.thrown, h.here, ?_,
    ha, hb⟩
  · rw [h.split, hretries]
  · intro retry hretry
    apply h.retried retry
    rw [hretries]
    rcases List.mem_append.mp hretry with hretry | hretry
    · exact List.mem_append_left _ hretry
    · apply List.mem_append_right
      simp only [List.mem_cons, List.not_mem_nil, or_false] at hretry ⊢
      rcases hretry with rfl | rfl
      · exact Or.inl rfl
      · exact Or.inr (Or.inl rfl)

/-- One more retry. -/
lemma Retrying.next {ids : List ℕ} {failedInARow : ℕ}
    {history before retries : List (Attempt δ ε)} {shared : Attempt δ ε} {id : ℕ}
    (failedInARow' : ℕ) (attempt : Attempt δ ε)
    (h : Retrying datasource (id :: ids) failedInARow history before shared retries)
    (hretry : attempt.retry) (hdatasource : attempt.datasource = datasource)
    (hlast : failedInARow' = 1 → attempt.thrown.isSome)
    (htwo : 2 ≤ failedInARow' → failedInARow = 1 ∧ attempt.thrown.isSome) :
    Retrying datasource ids failedInARow' (history ++ [attempt]) before shared
      (retries ++ [attempt]) where
  split := by rw [h.split]; simp
  owners other hother := h.owners other (List.mem_cons_of_mem _ hother)
  thrown := h.thrown
  here := h.here
  retried := by
    intro retry hmem
    rcases List.mem_append.mp hmem with hmem | hmem
    · exact h.retried retry hmem
    · rw [List.mem_singleton.mp hmem]
      exact ⟨hretry, hdatasource⟩
  one hone := ⟨retries, attempt, rfl, hlast hone⟩
  two hfailed := by
    obtain ⟨hone, hthrown⟩ := htwo hfailed
    obtain ⟨earlier, a, hretries, ha⟩ := h.one hone
    exact ⟨earlier, a, attempt, [], by rw [hretries]; simp, ha, hthrown⟩

/-- A batch that can share a statement. -/
structure Small (part : QueuedPart) : Prop where
  ne : escapeLines part.ndjson ≠ []
  fits : totalBytes (escapeLines part.ndjson) ≤ MAX_ESCAPED_PAYLOAD_BYTES

def partLines (part : QueuedPart) : ℕ × List String :=
  (part.queued, texts (escapeLines part.ndjson))

def wholeStatement (part : QueuedPart) : InsertStatement :=
  { data := texts (escapeLines part.ndjson), rowCount := (escapeLines part.ndjson).length }

lemma Small.piece {part : QueuedPart} (h : Small part) : Piece (wholeStatement part) where
  ne := by simpa [wholeStatement, texts] using h.ne
  rowCount := by simp [wholeStatement, texts]
  bounded := bounded_of_total h.fits

lemma insertAlone_small {part : QueuedPart} (h : Small part) (store : Store δ ε) :
    insertAlone throws datasource part store =
      match throws store.history.length with
      | none => ((exec throws datasource true (alone part (wholeStatement part)) store).1.accept
          part.queued (wholeStatement part).rowCount, true)
      | some error => ((exec throws datasource true (alone part (wholeStatement part)) store).1.fail
          part.queued { datasource, cause := .thrown error }, false) := by
  rw [insertAlone, buildInsertStatements_small h.ne h.fits]
  cases hthrown : throws store.history.length with
  | none => simp [insertAloneFrom, exec, hthrown, wholeStatement]
  | some error => simp [insertAloneFrom, exec, hthrown, wholeStatement]

/-- An export that is failed untried. -/
lemma step_untried {part : QueuedPart} (h : Small part) {store : Store δ ε} (cause : Cause ε)
    (hoverrun : Overrun store.history part.queued datasource) :
    Step datasource [partLines part] store (store.fail part.queued { datasource, cause }) := by
  refine ⟨List.prefix_refl _, fun hbounded => hbounded, ?_, ?_⟩
  · intro own hown
    rw [List.mem_singleton.mp hown]
    refine ⟨[], List.nil_prefix, ?_, ?_, Or.inr ⟨⟨cause, ?_⟩, ?_, Or.inr hoverrun⟩⟩
    · simp [Store.fail, partLines]
    · simp [Store.fail, partLines]
    · simp [Store.fail, partLines]
    · exact List.length_pos_of_ne_nil (by simpa [partLines, texts] using h.ne)
  · intro id hid
    have hne : id ≠ part.queued := by simpa [partLines] using hid
    exact ⟨setProgress_of_ne _ _ hne, rfl⟩

lemma step_retryAlone (throws : ℕ → Option ε) (cause : Cause ε) {parts : List QueuedPart}
    (hsmall : ∀ part ∈ parts, Small part) (hnodup : (parts.map fun part => part.queued).Nodup)
    {failedInARow : ℕ} {store : Store δ ε} {before retries : List (Attempt δ ε)}
    {shared : Attempt δ ε} (hunfailed : ∀ part ∈ parts, Unfailed store part.queued)
    (h : Retrying datasource (parts.map fun part => part.queued) failedInARow store.history before
      shared retries) :
    Step datasource (parts.map partLines) store
      (retryAlone throws datasource cause parts failedInARow store) := by
  induction parts generalizing failedInARow store retries with
  | nil => exact Step.refl
  | cons part parts ih =>
    have hpart := hsmall part List.mem_cons_self
    have hrest := fun other hother => hsmall other (List.mem_cons_of_mem _ hother)
    have hids : ((([partLines part] ++ parts.map partLines)).map Prod.fst).Nodup := by
      simpa [partLines, Function.comp_def] using hnodup
    have hfresh : ∀ other ∈ parts, other.queued ∉ [partLines part].map Prod.fst := by
      intro other hother hmem
      rw [List.map_cons, List.nodup_cons] at hnodup
      have hsame : other.queued = part.queued := by simpa [partLines] using hmem
      exact hnodup.1 (hsame ▸ List.mem_map_of_mem hother)
    rw [List.map_cons, List.nodup_cons] at hnodup
    rw [List.map_cons] at h
    rw [retryAlone, List.map_cons, ← List.singleton_append]
    by_cases hfailed : 2 ≤ failedInARow
    · rw [if_pos hfailed]
      have hstep := step_untried hpart cause (h.overrun hfailed List.mem_cons_self)
      have hnext : Retrying datasource (parts.map fun part => part.queued) failedInARow
          (store.fail part.queued { datasource, cause }).history before shared retries :=
        { h with owners := fun other hother => h.owners other (List.mem_cons_of_mem _ hother) }
      refine hstep.trans (ih hrest hnodup.2 ?_ hnext) hids
      intro other hother
      exact hstep.unfailed (hfresh other hother)
        (hunfailed other (List.mem_cons_of_mem _ hother))
    · rw [if_neg hfailed, insertAlone_small hpart]
      cases hthrown : throws store.history.length with
      | none =>
        have hstep := step_alone_commits datasource true hpart.piece
          (hunfailed part List.mem_cons_self) hthrown
        have hnext := h.next 0
          (attemptOf throws datasource true (alone part (wholeStatement part)) store) rfl rfl
          (by simp) (by simp)
        refine hstep.trans (ih hrest hnodup.2 ?_ hnext) hids
        intro other hother
        exact hstep.unfailed (hfresh other hother)
          (hunfailed other (List.mem_cons_of_mem _ hother))
      | some error =>
        have hstep : Step datasource [partLines part] store _ :=
          step_alone_throws datasource true hpart.piece.ne hpart.piece.bounded hthrown
            (.thrown error)
        have hsome : (attemptOf throws datasource true (alone part (wholeStatement part))
            store).thrown.isSome := by simp [attemptOf, hthrown]
        have hnext := h.next (failedInARow + 1)
          (attemptOf throws datasource true (alone part (wholeStatement part)) store) rfl rfl
          (fun _ => hsome) (fun htwo => ⟨by omega, hsome⟩)
        refine hstep.trans (ih hrest hnodup.2 ?_ hnext) hids
        intro other hother
        exact hstep.unfailed (hfresh other hother)
          (hunfailed other (List.mem_cons_of_mem _ hother))

end Statements

end Spec

end Maple.Inserts
