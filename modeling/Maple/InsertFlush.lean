import Maple.InsertSettled

/-! The statements of one datasource settle each export with a part in them. -/

namespace Maple.Inserts

section Datasource
variable {δ ε : Type} {throws : ℕ → Option ε} {datasource : δ}

/-! ### Shared statements -/

lemma accepts_store (parts : List (InsertStatementPart QueuedPart)) (store : Store δ ε) :
    (parts.foldl (fun store part => store.accept part.owner.queued part.rowCount) store).table =
        store.table ∧
      (parts.foldl (fun store part => store.accept part.owner.queued part.rowCount)
        store).history = store.history := by
  induction parts generalizing store with
  | nil => exact ⟨rfl, rfl⟩
  | cons part parts ih => exact ih (store.accept part.owner.queued part.rowCount)

/-- An export accepts the rows of the parts that are its own. -/
lemma accepts_progress (parts : List (InsertStatementPart QueuedPart)) (store : Store δ ε)
    (id : ℕ) :
    (parts.foldl (fun store part => store.accept part.owner.queued part.rowCount)
        store).progress id =
      { store.progress id with
        accepted := (store.progress id).accepted +
          ((parts.filter fun part => part.owner.queued = id).map fun part => part.rowCount).sum } := by
  induction parts generalizing store with
  | nil => simp
  | cons part parts ih =>
    rw [List.foldl_cons, ih]
    by_cases hid : part.owner.queued = id
    · subst hid
      simp [Store.accept, Nat.add_assoc]
    · simp [hid, Store.accept, setProgress_of_ne _ _ (Ne.symm hid)]

def wholeBatch (part : QueuedPart) : QueuedPart × List EscapedLine :=
  (part, escapeLines part.ndjson)

lemma filter_queued {α : Type} {items : List α} {key : α → ℕ} (hnodup : (items.map key).Nodup)
    {item : α} (h : item ∈ items) : (items.filter fun other => key other = key item) = [item] := by
  induction items with
  | nil => simp at h
  | cons first items ih =>
    rw [List.map_cons, List.nodup_cons] at hnodup
    rcases List.mem_cons.mp h with rfl | h
    · have hnone : (items.filter fun other => key other = key item) = [] := by
        rw [List.filter_eq_nil_iff]
        intro other hother hsame
        exact hnodup.1 (of_decide_eq_true hsame ▸ List.mem_map_of_mem hother)
      simp [hnone]
    · have hne : key first ≠ key item := fun hsame =>
        hnodup.1 (hsame ▸ List.mem_map_of_mem h)
      simp [hne, ih hnodup.2 h]

lemma sharedStatement_one (part : QueuedPart) :
    sharedStatement ([part].map wholeBatch) = alone part (wholeStatement part) := by
  simp [sharedStatement, wholeBatch, alone, wholeStatement]

lemma step_exec_throws {retry : Bool} {statement : BatchedInsertStatement QueuedPart}
    {store : Store δ ε} (hbounded : Bounded statement.data)
    (hthrown : (throws store.history.length).isSome) :
    Step datasource [] store (exec throws datasource retry statement store).1 := by
  refine ⟨⟨_, (exec_history retry statement store).symm⟩, fun h => bounded_exec hbounded h,
    by simp, ?_⟩
  intro id _
  refine ⟨by rw [exec_progress], ?_⟩
  rw [exec_rows, if_pos hthrown]

lemma rows_shared (parts : List QueuedPart) (id : ℕ) :
    ((rowsOf datasource (sharedStatement (parts.map wholeBatch))).filter fun row =>
        row.owner = id) =
      (parts.filter fun part => part.queued = id).flatMap fun part =>
        (texts (escapeLines part.ndjson)).map (Row.mk part.queued datasource) := by
  rw [rowsOf_shared, List.flatMap_map]
  induction parts with
  | nil => rfl
  | cons part parts ih =>
    rw [List.flatMap_cons, List.filter_append, ih]
    by_cases hid : part.queued = id
    · simp [wholeBatch, hid, List.filter_map, Function.comp_def]
    · simp [wholeBatch, hid, List.filter_map, Function.comp_def]

lemma parts_shared (parts : List QueuedPart) (id : ℕ) :
    ((sharedStatement (parts.map wholeBatch)).parts.filter fun part => part.owner.queued = id) =
      (parts.filter fun part => part.queued = id).map fun part =>
        { owner := part, rowCount := (escapeLines part.ndjson).length } := by
  induction parts with
  | nil => rfl
  | cons part parts ih =>
    simp only [sharedStatement, wholeBatch, List.map_cons, List.map_map] at *
    by_cases hid : part.queued = id
    · simp [hid, ih]
    · simp [hid, ih]

/-- A shared statement that commits. -/
lemma step_shared_commits {parts : List QueuedPart}
    (hnodup : (parts.map fun part => part.queued).Nodup) {store : Store δ ε}
    (hunfailed : ∀ part ∈ parts, Unfailed store part.queued)
    (hbounded : Bounded (sharedStatement (parts.map wholeBatch)).data)
    (hthrown : throws store.history.length = none) :
    Step datasource (parts.map partLines) store
      ((sharedStatement (parts.map wholeBatch)).parts.foldl
        (fun store part => store.accept part.owner.queued part.rowCount)
        (exec throws datasource false (sharedStatement (parts.map wholeBatch)) store).1) := by
  set statement := sharedStatement (parts.map wholeBatch) with hstatement
  set committed := (exec throws datasource false statement store).1 with hcommitted
  obtain ⟨htable, hhistory⟩ := accepts_store statement.parts committed
  have hrows : ∀ id, (statement.parts.foldl
      (fun store part => store.accept part.owner.queued part.rowCount) committed).rows id =
        store.rows id ++ (parts.filter fun part => part.queued = id).flatMap fun part =>
          (texts (escapeLines part.ndjson)).map (Row.mk part.queued datasource) := by
    intro id
    have hexec := exec_rows throws datasource false statement store id
    rw [hthrown, Option.isSome_none, if_neg (by simp), hstatement, rows_shared] at hexec
    rw [← hexec, Store.rows, Store.rows, htable]
  refine ⟨?_, ?_, ?_, ?_⟩
  · rw [hhistory]
    exact ⟨_, (exec_history false statement store).symm⟩
  · intro h
    rw [hhistory]
    exact bounded_exec hbounded h
  · intro own hmem
    obtain ⟨part, hpart, rfl⟩ := List.mem_map.mp hmem
    have hfilter : (parts.filter fun other => other.queued = part.queued) = [part] :=
      filter_queued hnodup hpart
    refine ⟨texts (escapeLines part.ndjson), List.prefix_refl _, ?_, ?_, Or.inl ⟨?_, rfl⟩⟩
    · have hown := hrows part.queued
      rw [hfilter, List.flatMap_singleton] at hown
      exact hown
    · have hown := accepts_progress statement.parts committed part.queued
      have hparts := parts_shared parts part.queued
      rw [hfilter] at hparts
      rw [hstatement, hparts] at hown
      have haccepted := congrArg Progress.accepted hown
      simpa [texts, hcommitted, exec_progress, partLines] using haccepted
    · rw [accepts_progress]
      exact hunfailed part hpart
  · intro id hid
    have hfilter : (parts.filter fun part => part.queued = id) = [] := by
      rw [List.filter_eq_nil_iff]
      intro part hpart hsame
      apply hid
      rw [List.map_map]
      exact List.mem_map.mpr ⟨part, hpart, of_decide_eq_true hsame⟩
    constructor
    · rw [accepts_progress, hstatement, parts_shared, hfilter]
      rfl
    · rw [hrows, hfilter, List.flatMap_nil, List.append_nil]

/-- A shared statement settles the exports in it, at once or one by one. -/
lemma step_shared {parts : List QueuedPart} (hsmall : ∀ part ∈ parts, Small part)
    (hnodup : (parts.map fun part => part.queued).Nodup) {store : Store δ ε}
    (hunfailed : ∀ part ∈ parts, Unfailed store part.queued)
    (hbounded : Bounded (sharedStatement (parts.map wholeBatch)).data) :
    Step datasource (parts.map partLines) store
      (runStatement throws datasource store (sharedStatement (parts.map wholeBatch))) := by
  have hany : (ownersOf (sharedStatement (parts.map wholeBatch))).any store.failed = false := by
    rw [List.any_eq_false]
    intro id hid
    simp only [ownersOf, sharedStatement, List.map_map, List.mem_map] at hid
    obtain ⟨part, hpart, rfl⟩ := hid
    rw [Bool.not_eq_true]
    exact unfailed_iff.mp (hunfailed part hpart)
  cases hthrown : throws store.history.length with
  | none =>
    have hrun : runStatement throws datasource store (sharedStatement (parts.map wholeBatch)) =
        (sharedStatement (parts.map wholeBatch)).parts.foldl
          (fun store part => store.accept part.owner.queued part.rowCount)
          (exec throws datasource false (sharedStatement (parts.map wholeBatch)) store).1 := by
      rw [runStatement, hany]
      simp [exec, hthrown]
    rw [hrun]
    exact step_shared_commits hnodup hunfailed hbounded hthrown
  | some error =>
    cases parts with
    | nil =>
      have hrun : runStatement throws datasource store (sharedStatement ([].map wholeBatch)) =
          (exec throws datasource false (sharedStatement ([].map wholeBatch)) store).1 := by
        rw [runStatement, hany]
        simp [exec, hthrown, sharedStatement, retryAlone]
      rw [hrun]
      exact step_exec_throws hbounded (by simp [hthrown])
    | cons part others =>
      cases others with
      | nil =>
        have hpart := hsmall part List.mem_cons_self
        rw [sharedStatement_one, runStatement_alone (hunfailed part List.mem_cons_self),
          hthrown]
        exact step_alone_throws datasource false hpart.piece.ne hpart.piece.bounded hthrown _
      | cons second others =>
        set parts := part :: second :: others with hparts
        set statement := sharedStatement (parts.map wholeBatch) with hstatement
        have hrun : runStatement throws datasource store statement =
            retryAlone throws datasource (.thrown error) parts 0
              (exec throws datasource false statement store).1 := by
          have howners : statement.parts.map (fun part => part.owner) = parts := by
            simp [hstatement, sharedStatement, wholeBatch, Function.comp_def]
          rw [runStatement, hany]
          simp only [Bool.false_eq_true, if_false, exec, hthrown]
          rw [← howners]
          rfl
        have hexec : Step datasource [] store (exec throws datasource false statement store).1 :=
          step_exec_throws hbounded (by simp [hthrown])
        have hretrying : Retrying datasource (parts.map fun part => part.queued) 0
            (exec throws datasource false statement store).1.history store.history
            (attemptOf throws datasource false statement store) [] :=
          { split := exec_history false statement store
            owners := by
              intro id hid
              simpa [attemptOf, ownersOf, hstatement, sharedStatement, wholeBatch,
                Function.comp_def] using hid
            thrown := by simp [attemptOf, hthrown]
            here := rfl
            retried := by simp
            one := by simp
            two := by simp }
        have hretry := step_retryAlone throws (.thrown error) hsmall hnodup
          (fun part hpart => hexec.unfailed (by simp) (hunfailed part hpart)) hretrying
        rw [hrun]
        refine hexec.trans hretry ?_
        change ((parts.map partLines).map Prod.fst).Nodup
        rw [List.map_map]
        exact hnodup

/-! ### One datasource -/

/-- The batches of a group, as parts. -/
lemma step_group (throws : ℕ → Option ε) (datasource : δ) {group : Group QueuedPart}
    (hfits : group.Fits) {parts : List QueuedPart} (hparts : group.batches = parts.map wholeBatch)
    (hnodup : (parts.map fun part => part.queued).Nodup) {store : Store δ ε}
    (hunfailed : ∀ part ∈ parts, Unfailed store part.queued) :
    Step datasource (parts.map partLines) store
      (group.statements.foldl (runStatement throws datasource) store) := by
  cases group with
  | shared batches =>
    obtain rfl : batches = parts.map wholeBatch := hparts
    obtain ⟨-, hlined, htotal⟩ := hfits
    have hsmall : ∀ part ∈ parts, Small part := by
      intro part hpart
      refine ⟨hlined _ (List.mem_map_of_mem hpart), ?_⟩
      refine le_trans ?_ htotal
      exact List.single_le_sum (by simp) _
        (List.mem_map.mpr ⟨wholeBatch part, List.mem_map_of_mem hpart, rfl⟩)
    have hbounded : Bounded (sharedStatement (parts.map wholeBatch)).data := by
      rw [sharedStatement_data]
      exact bounded_of_total (sharedBytes_eq (parts.map wholeBatch) ▸ htotal)
    exact step_shared hsmall hnodup hunfailed hbounded
  | split owner lines =>
    obtain ⟨part, rfl, hpart⟩ : ∃ part, parts = [part] ∧ wholeBatch part = (owner, lines) := by
      cases parts with
      | nil => simp [Group.batches] at hparts
      | cons part others =>
        simp only [Group.batches, List.map_cons, List.cons.injEq] at hparts
        obtain ⟨hpart, hothers⟩ := hparts
        exact ⟨part, by rw [List.map_eq_nil_iff.mp hothers.symm], hpart.symm⟩
    obtain ⟨rfl, rfl⟩ := Prod.mk.inj hpart
    obtain ⟨hdata, hpieces⟩ := splitLines_spec (escapeLines part.ndjson)
    have hne : splitLines (escapeLines part.ndjson) ≠ [] := by
      intro hnil
      rw [hnil, List.flatMap_nil] at hdata
      exact hfits (by simpa [texts] using hdata.symm)
    have hsplit := step_split throws datasource hpieces
      (hunfailed part List.mem_cons_self) hne
    rw [hdata] at hsplit
    exact hsplit

lemma step_groups (throws : ℕ → Option ε) (datasource : δ) {groups : List (Group QueuedPart)}
    (hfits : ∀ group ∈ groups, group.Fits) {parts : List QueuedPart}
    (hparts : groups.flatMap Group.batches = parts.map wholeBatch)
    (hnodup : (parts.map fun part => part.queued).Nodup) {store : Store δ ε}
    (hunfailed : ∀ part ∈ parts, Unfailed store part.queued) :
    Step datasource (parts.map partLines) store
      ((groups.flatMap Group.statements).foldl (runStatement throws datasource) store) := by
  induction groups generalizing parts store with
  | nil =>
    have hnil : parts = [] := by simpa using hparts.symm
    rw [hnil]
    exact Step.refl
  | cons group groups ih =>
    rw [List.flatMap_cons] at hparts
    obtain ⟨own, others, rfl, hown, hothers⟩ := List.map_eq_append_iff.mp hparts.symm
    rw [List.map_append] at hnodup
    have hstep := step_group throws datasource
      (hfits group List.mem_cons_self) hown.symm (List.nodup_append.mp hnodup).1
      fun part hpart => hunfailed part (List.mem_append_left _ hpart)
    have hdisjoint : ∀ part ∈ others, part.queued ∉ (own.map partLines).map Prod.fst := by
      intro part hpart hmem
      rw [List.map_map] at hmem
      exact (List.nodup_append.mp hnodup).2.2 _ hmem _ (List.mem_map_of_mem hpart) rfl
    have hrest := ih (fun other hother => hfits other (List.mem_cons_of_mem _ hother))
      hothers.symm (List.nodup_append.mp hnodup).2.1 fun part hpart =>
        hstep.unfailed (hdisjoint part hpart) (hunfailed part (List.mem_append_right _ hpart))
    rw [List.flatMap_cons, List.foldl_append, List.map_append]
    refine hstep.trans hrest ?_
    rw [List.map_append, List.map_map, List.map_map]
    exact hnodup

/-- All parts are settled at their datasource, those without lines as they are. -/
lemma step_insertDatasource {parts : List QueuedPart}
    (hnodup : (parts.map fun part => part.queued).Nodup) {store : Store δ ε}
    (hunfailed : ∀ part ∈ parts, Unfailed store part.queued) :
    Step datasource (parts.map partLines) store
      (insertDatasource throws datasource parts store) := by
  obtain ⟨groups, hbuild, hbatches, hfits⟩ :=
    build_groups (parts.map fun part => (part, part.ndjson))
  set lined := parts.filter fun part => !(escapeLines part.ndjson).isEmpty with hlined
  have hparts : groups.flatMap Group.batches = lined.map wholeBatch := by
    rw [hbatches, linedBatches, List.map_map, List.filter_map]
    rfl
  have hsublist : lined.Sublist parts := List.filter_sublist
  have hstep := step_groups throws datasource hfits hparts
    (hnodup.sublist (hsublist.map _)) fun part hpart => hunfailed part (hsublist.subset hpart)
  rw [insertDatasource, hbuild]
  refine ⟨hstep.grows, hstep.bounded, ?_, ?_⟩
  · intro own hown
    obtain ⟨part, hpart, rfl⟩ := List.mem_map.mp hown
    by_cases hempty : (escapeLines part.ndjson).isEmpty
    · have hother : part.queued ∉ (lined.map partLines).map Prod.fst := by
        rw [List.map_map]
        intro hmem
        obtain ⟨other, hother, hsame⟩ := List.mem_map.mp hmem
        have heq : other = part :=
          List.inj_on_of_nodup_map hnodup (hsublist.subset hother) hpart hsame
        rw [heq] at hother
        have hline := (List.mem_filter.mp hother).2
        rw [hempty] at hline
        simp at hline
      have hnone : (partLines part).2 = [] := by
        simp [partLines, texts, List.isEmpty_iff.mp hempty]
      rw [hnone]
      exact PartSettled.none (hstep.others part.queued hother) (hunfailed part hpart)
    · have hmem : part ∈ lined := List.mem_filter.mpr ⟨hpart, by simpa using hempty⟩
      exact hstep.settled _ (List.mem_map_of_mem hmem)
  · intro id hid
    apply hstep.others
    intro hmem
    exact hid ((hsublist.map partLines).map Prod.fst |>.subset hmem)

end Datasource

end Maple.Inserts
