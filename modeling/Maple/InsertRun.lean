import Maple.InsertFlush

/-! Every export settles once, with the rows it has in the tables. -/

namespace Maple.Inserts

section Exports
variable {δ ε : Type} [LinearOrder δ]

/-- The lines of an export's batches of one datasource. -/
def linesOf (batches : List (InsertBatch δ)) (datasource : δ) : List String :=
  (ownBatches batches datasource).flatMap fun batch => texts (escapeLines batch.ndjson)

/-- The rows an export has committed at a datasource. -/
def Store.textsAt (store : Store δ ε) (id : ℕ) (datasource : δ) : List String :=
  ((store.rows id).filter fun row => row.datasource = datasource).map fun row => row.text

/-- An export has failed at a datasource: its rows are cut there. -/
structure Cut (store : Store δ ε) (id : ℕ) (batches : List (InsertBatch δ)) (datasource : δ) :
    Prop where
  before : ∀ d < datasource, store.textsAt id d = linesOf batches d
  after : ∀ d, datasource < d → store.textsAt id d = []
  here : store.textsAt id datasource <+: linesOf batches datasource
  short : (store.textsAt id datasource).length < (linesOf batches datasource).length
  stopped : Stopped store.history id datasource

/-- What an outcome says about the rows of its export. -/
def Truthful (store : Store δ ε) (id : ℕ) (batches : List (InsertBatch δ)) : Outcome δ ε → Prop
  | .ok accepted =>
    (∀ d, store.textsAt id d = linesOf batches d) ∧ accepted = (store.rows id).length
  | .error error =>
    Cut store id batches error.datasource ∧ error.accepted = (store.rows id).length

/-! ### Joined batches -/

lemma escapeLines_join (first second : String) :
    escapeLines (first ++ "\n" ++ second) = escapeLines first ++ escapeLines second := by
  have hbreak : ("\n" : String).toList = ['\n'] := rfl
  rw [escapeLines, String.toList_append, String.toList_append, hbreak, List.append_assoc,
    List.singleton_append, List.splitOn_append_cons_self, List.filter_append, List.map_append]
  rfl

lemma escapeLines_empty : escapeLines "" = [] := by decide

omit [LinearOrder δ] in
lemma lines_joined (batches : List (InsertBatch δ)) :
    texts (escapeLines (joined batches)) =
      batches.flatMap fun batch => texts (escapeLines batch.ndjson) := by
  induction batches with
  | nil => simp [joined, joinLines, escapeLines_empty, texts]
  | cons batch batches ih =>
    cases batches with
    | nil => simp [joined, joinLines]
    | cons next batches =>
      rw [List.flatMap_cons, ← ih]
      simp only [joined, List.map_cons, joinLines]
      rw [escapeLines_join, texts, List.map_append]
      rfl

/-- The sort keeps the batches of one datasource in order. -/
lemma ownBatches_sorted (batches : List (InsertBatch δ)) (datasource : δ) :
    ownBatches (batches.insertionSort fun a b => a.datasource ≤ b.datasource) datasource =
      ownBatches batches datasource := by
  have hpairwise : (ownBatches batches datasource).Pairwise
      fun a b => a.datasource ≤ b.datasource := by
    rw [List.pairwise_iff_forall_sublist]
    intro a b hsublist
    have ha := List.mem_filter.mp (hsublist.subset (List.mem_cons_self))
    have hb := List.mem_filter.mp (hsublist.subset (List.mem_cons_of_mem _ List.mem_cons_self))
    rw [of_decide_eq_true ha.2, of_decide_eq_true hb.2]
  have hsublist := List.sublist_insertionSort hpairwise List.filter_sublist
  have hfilter := hsublist.filter fun batch => decide (batch.datasource = datasource)
  simp only [ownBatches, List.filter_filter, Bool.and_self] at hfilter
  have hperm := (List.perm_insertionSort (fun a b : InsertBatch δ => a.datasource ≤ b.datasource)
    batches).filter fun batch => decide (batch.datasource = datasource)
  exact (hfilter.eq_of_length hperm.symm.length_eq).symm

lemma linesOf_sorted (batches : List (InsertBatch δ)) (datasource : δ) :
    linesOf (batches.insertionSort fun a b => a.datasource ≤ b.datasource) datasource =
      linesOf batches datasource := by
  rw [linesOf, linesOf, ownBatches_sorted]

/-! ### One datasource of a flush -/

variable {throws : ℕ → Option ε} {template : δ → Option InsertTemplate}

def part (owner : QueuedExport δ) (datasource : δ) : QueuedPart where
  queued := owner.id
  ndjson := joined (ownBatches owner.batches datasource)

lemma partsOf_eq (queue : List (QueuedExport δ)) (datasource : δ) (store : Store δ ε) :
    partsOf queue datasource store =
      (queue.filter fun owner => !store.failed owner.id &&
        !(ownBatches owner.batches datasource).isEmpty).map fun owner => part owner datasource := by
  induction queue with
  | nil => rfl
  | cons owner queue ih =>
    rw [partsOf, List.flatMap_cons, ← partsOf, ih]
    by_cases hfailed : store.failed owner.id
    · simp [hfailed]
    · by_cases hempty : (ownBatches owner.batches datasource).isEmpty
      · simp [hempty]
      · simp [hfailed, hempty, part]

/-- What a flush does at one datasource. -/
structure FlushedAt (queue : List (QueuedExport δ)) (datasource : δ) (store store' : Store δ ε) :
    Prop where
  grows : store.history <+: store'.history
  bounded : (∀ attempt ∈ store.history, Bounded attempt.data) →
    ∀ attempt ∈ store'.history, Bounded attempt.data
  settled : ∀ owner ∈ queue, Unfailed store owner.id →
    PartSettled datasource owner.id (linesOf owner.batches datasource) store store'
  failed : ∀ owner ∈ queue, ¬ Unfailed store owner.id → Untouched owner.id store store'
  others : ∀ id, id ∉ queue.map (fun owner => owner.id) → Untouched id store store'

lemma flushedAt {queue : List (QueuedExport δ)} (datasource : δ)
    (hnodup : (queue.map fun owner => owner.id).Nodup) (hmapped : (template datasource).isSome)
    (store : Store δ ε) :
    FlushedAt queue datasource store
      (flushDatasource throws template queue store datasource) := by
  obtain ⟨known, hknown⟩ := Option.isSome_iff_exists.mp hmapped
  have hflush : flushDatasource throws template queue store datasource =
      insertDatasource throws datasource (partsOf queue datasource store) store := by
    rw [flushDatasource, hknown]
  rw [hflush, partsOf_eq]
  set chosen := queue.filter fun owner => !store.failed owner.id &&
    !(ownBatches owner.batches datasource).isEmpty with hchosen
  have hsublist : chosen.Sublist queue := List.filter_sublist
  have hids : ((chosen.map fun owner => part owner datasource).map fun part => part.queued) =
      chosen.map fun owner => owner.id := by
    rw [List.map_map]
    rfl
  have hkeys : ((chosen.map fun owner => part owner datasource).map partLines).map Prod.fst =
      chosen.map fun owner => owner.id := by
    rw [List.map_map, List.map_map]
    rfl
  have hstep : Step datasource ((chosen.map fun owner => part owner datasource).map partLines)
      store (insertDatasource throws datasource
        (chosen.map fun owner => part owner datasource) store) := by
    apply step_insertDatasource
    · rw [hids]
      exact hnodup.sublist (hsublist.map _)
    · intro own hown
      obtain ⟨owner, howner, rfl⟩ := List.mem_map.mp hown
      have hfailed := (List.mem_filter.mp howner).2
      simp only [Bool.and_eq_true, Bool.not_eq_true'] at hfailed
      exact unfailed_iff.mpr hfailed.1
  -- an export that is not chosen has no part
  have hother : ∀ owner ∈ queue, owner ∉ chosen → owner.id ∉
      ((chosen.map fun owner => part owner datasource).map partLines).map Prod.fst := by
    intro owner howner hnot hmem
    rw [hkeys] at hmem
    obtain ⟨other, hmem, hsame⟩ := List.mem_map.mp hmem
    have heq : other = owner :=
      List.inj_on_of_nodup_map hnodup (hsublist.subset hmem) howner hsame
    exact hnot (heq ▸ hmem)
  refine ⟨hstep.grows, hstep.bounded, ?_, ?_, ?_⟩
  · intro owner howner hunfailed
    by_cases hempty : (ownBatches owner.batches datasource).isEmpty
    · have hlines : linesOf owner.batches datasource = [] := by
        rw [linesOf, List.isEmpty_iff.mp hempty, List.flatMap_nil]
      have hnot : owner ∉ chosen := by simp [hchosen, hempty]
      rw [hlines]
      exact PartSettled.none (hstep.others owner.id (hother owner howner hnot)) hunfailed
    · have hmem : owner ∈ chosen := by
        simp [hchosen, howner, hempty, unfailed_iff.mp hunfailed]
      have hsettled := hstep.settled _
        (List.mem_map_of_mem (List.mem_map_of_mem (f := fun owner => part owner datasource) hmem))
      rw [linesOf, ← lines_joined]
      exact hsettled
  · intro owner howner hfailed
    have hnot : owner ∉ chosen := by
      rw [unfailed_iff, Bool.not_eq_false] at hfailed
      simp [hchosen, hfailed]
    exact hstep.others owner.id (hother owner howner hnot)
  · intro id hid
    apply hstep.others
    rw [hkeys]
    intro hmem
    exact hid ((hsublist.map _).subset hmem)

/-! ### One export in a flush -/

/-- What a flush has made of an export after some datasources. -/
structure Worked (owner : QueuedExport δ) (done : List δ) (store : Store δ ε) : Prop where
  accepted : (store.progress owner.id).accepted = (store.rows owner.id).length
  untried : ∀ d, d ∉ done → store.textsAt owner.id d = []
  complete : Unfailed store owner.id →
    ∀ d ∈ done, store.textsAt owner.id d = linesOf owner.batches d
  cut : ∀ failure, (store.progress owner.id).failure = some failure →
    Cut store owner.id owner.batches failure.datasource

lemma textsAt_append {store store' : Store δ ε} {id : ℕ} {datasource : δ}
    {committed : List String}
    (h : store'.rows id = store.rows id ++ committed.map (Row.mk id datasource)) (d : δ) :
    store'.textsAt id d = store.textsAt id d ++ if d = datasource then committed else [] := by
  rw [Store.textsAt, h, List.filter_append, List.map_append, ← Store.textsAt]
  by_cases hd : d = datasource
  · subst hd
    simp [List.filter_map, Function.comp_def]
  · simp [hd, List.filter_map, Function.comp_def, Ne.symm hd]

lemma Untouched.textsAt {store store' : Store δ ε} {id : ℕ} (h : Untouched id store store')
    (d : δ) : store'.textsAt id d = store.textsAt id d := by
  rw [Store.textsAt, h.2, ← Store.textsAt]

lemma Cut.later {store store' : Store δ ε} {id : ℕ} {batches : List (InsertBatch δ)}
    {datasource : δ} (h : Cut store id batches datasource) (huntouched : Untouched id store store')
    (hgrows : store.history <+: store'.history) : Cut store' id batches datasource where
  before d hd := by rw [huntouched.textsAt, h.before d hd]
  after d hd := by rw [huntouched.textsAt, h.after d hd]
  here := by rw [huntouched.textsAt]; exact h.here
  short := by rw [huntouched.textsAt]; exact h.short
  stopped := h.stopped.mono hgrows

lemma Truthful.later {store store' : Store δ ε} {id : ℕ} {batches : List (InsertBatch δ)}
    {outcome : Outcome δ ε} (h : Truthful store id batches outcome)
    (huntouched : Untouched id store store') (hgrows : store.history <+: store'.history) :
    Truthful store' id batches outcome := by
  cases outcome with
  | ok accepted =>
    obtain ⟨hcomplete, haccepted⟩ := h
    refine ⟨fun d => ?_, ?_⟩
    · rw [huntouched.textsAt, hcomplete]
    · rw [huntouched.2, haccepted]
  | error error =>
    obtain ⟨hcut, haccepted⟩ := h
    refine ⟨hcut.later huntouched hgrows, ?_⟩
    rw [huntouched.2, haccepted]

/-- The next datasource, in name order. -/
lemma Worked.next {queue : List (QueuedExport δ)} {owner : QueuedExport δ}
    (howner : owner ∈ queue) {done rest : List δ} {datasource : δ} {store store' : Store δ ε}
    (h : Worked owner done store) (hflushed : FlushedAt queue datasource store store')
    (hsorted : (done ++ datasource :: rest).Pairwise (· < ·))
    (hall : ∀ d, d ∉ done ++ datasource :: rest → linesOf owner.batches d = []) :
    Worked owner (done ++ [datasource]) store' := by
  rw [List.pairwise_append, List.pairwise_cons] at hsorted
  obtain ⟨-, ⟨hrest, -⟩, hdone⟩ := hsorted
  have hearlier : ∀ d ∈ done, d < datasource := fun d hd => hdone d hd _ List.mem_cons_self
  have hnew : datasource ∉ done := fun hmem => lt_irrefl _ (hearlier _ hmem)
  by_cases hunfailed : Unfailed store owner.id
  · obtain ⟨committed, hinit, hrows, haccepted, hend⟩ := hflushed.settled owner howner hunfailed
    have htexts := textsAt_append hrows
    have hhere : store'.textsAt owner.id datasource = committed := by
      rw [htexts, h.untried _ hnew, if_pos rfl, List.nil_append]
    have helse : ∀ d, d ≠ datasource → store'.textsAt owner.id d = store.textsAt owner.id d := by
      intro d hd
      rw [htexts, if_neg hd, List.append_nil]
    refine ⟨?_, ?_, ?_, ?_⟩
    · rw [haccepted, h.accepted, hrows, List.length_append, List.length_map]
    · intro d hd
      rw [List.mem_append, List.mem_singleton, not_or] at hd
      rw [helse d hd.2, h.untried d hd.1]
    · intro hstill d hd
      rcases hend with ⟨-, hall⟩ | ⟨⟨cause, hfailure⟩, -⟩
      · rcases List.mem_append.mp hd with hd | hd
        · rw [helse d (hearlier d hd).ne, h.complete hunfailed d hd]
        · rw [List.mem_singleton.mp hd, hhere, hall]
      · rw [Unfailed, hfailure] at hstill
        simp at hstill
    · intro failure hfailure
      rcases hend with ⟨hnone, -⟩ | ⟨⟨cause, hcause⟩, hshort, hstopped⟩
      · rw [hnone] at hfailure
        simp at hfailure
      · rw [hcause] at hfailure
        obtain rfl := Option.some.inj hfailure
        refine ⟨?_, ?_, ?_, ?_, hstopped⟩
        · intro d hd
          rw [helse d hd.ne]
          by_cases hmem : d ∈ done
          · exact h.complete hunfailed d hmem
          · have hnot : d ∉ done ++ datasource :: rest := by
              rw [List.mem_append, List.mem_cons]
              rintro (hd' | rfl | hd')
              · exact hmem hd'
              · exact lt_irrefl _ hd
              · exact lt_asymm hd (hrest d hd')
            rw [h.untried d hmem, hall d hnot]
        · intro d hd
          rw [helse d hd.ne', h.untried d fun hmem => lt_asymm hd (hearlier d hmem)]
        · rw [hhere]
          exact hinit
        · rw [hhere]
          exact hshort
  · have huntouched := hflushed.failed owner howner hunfailed
    refine ⟨?_, ?_, ?_, ?_⟩
    · rw [huntouched.1, huntouched.2, h.accepted]
    · intro d hd
      rw [huntouched.textsAt, h.untried d fun hmem => hd (List.mem_append_left _ hmem)]
    · intro hstill
      rw [Unfailed, huntouched.1] at hstill
      exact absurd hstill hunfailed
    · intro failure hfailure
      rw [huntouched.1] at hfailure
      exact (h.cut failure hfailure).later huntouched hflushed.grows

lemma Worked.truthful {owner : QueuedExport δ} {done : List δ} {store : Store δ ε}
    (h : Worked owner done store) (hall : ∀ d, d ∉ done → linesOf owner.batches d = []) :
    Truthful store owner.id owner.batches (store.progress owner.id).outcome := by
  cases hfailure : (store.progress owner.id).failure with
  | none =>
    rw [Progress.outcome, hfailure]
    refine ⟨fun d => ?_, h.accepted⟩
    by_cases hd : d ∈ done
    · exact h.complete hfailure d hd
    · rw [h.untried d hd, hall d hd]
  | some failure =>
    rw [Progress.outcome, hfailure]
    exact ⟨h.cut failure hfailure, h.accepted⟩

/-- The whole flush. -/
lemma flush_works (throws : ℕ → Option ε) {queue : List (QueuedExport δ)}
    (hnodup : (queue.map fun owner => owner.id).Nodup) {rest done : List δ} {store : Store δ ε}
    (hsorted : (done ++ rest).Pairwise (· < ·)) (hmapped : ∀ d ∈ rest, (template d).isSome)
    (hall : ∀ owner ∈ queue, ∀ d, d ∉ done ++ rest → linesOf owner.batches d = [])
    (h : ∀ owner ∈ queue, Worked owner done store) :
    let store' := rest.foldl (flushDatasource throws template queue) store
    (∀ owner ∈ queue, Worked owner (done ++ rest) store') ∧
      store.history <+: store'.history ∧
      ((∀ attempt ∈ store.history, Bounded attempt.data) →
        ∀ attempt ∈ store'.history, Bounded attempt.data) ∧
      ∀ id, id ∉ queue.map (fun owner => owner.id) → Untouched id store store' := by
  induction rest generalizing done store with
  | nil =>
    rw [List.append_nil]
    exact ⟨h, List.prefix_refl _, fun hbounded => hbounded, fun _ _ => ⟨rfl, rfl⟩⟩
  | cons datasource rest ih =>
    have hflushed : FlushedAt queue datasource store
        (flushDatasource throws template queue store datasource) :=
      flushedAt datasource hnodup (hmapped datasource List.mem_cons_self) store
    have hnext := fun owner howner => (h owner howner).next howner hflushed hsorted
      (hall owner howner)
    have happend : done ++ datasource :: rest = (done ++ [datasource]) ++ rest := by simp
    rw [happend] at hsorted hall ⊢
    obtain ⟨hworked, hgrows, hbounded, hothers⟩ :=
      ih hsorted (fun d hd => hmapped d (List.mem_cons_of_mem _ hd)) hall hnext
    refine ⟨hworked, hflushed.grows.trans hgrows, fun hb => hbounded (hflushed.bounded hb), ?_⟩
    intro id hid
    have hfirst := hflushed.others id hid
    have hlater := hothers id hid
    exact ⟨hlater.1.trans hfirst.1, hlater.2.trans hfirst.2⟩

/-! ### The run -/

/-- The exports of a run, in the order they came. -/
def inserted (actions : List (Action δ)) : List (List (InsertBatch δ)) :=
  actions.filterMap fun
    | .insert batches => some batches
    | .flush => none

/-- Every datasource of the export has an insert mapping. -/
def Mapped (template : δ → Option InsertTemplate) (batches : List (InsertBatch δ)) : Prop :=
  ∀ batch ∈ batches, (template batch.datasource).isSome

/-- The batcher after some calls: each export waits untried or has settled with the truth. -/
structure Running (template : δ → Option InsertTemplate) (calls : List (List (InsertBatch δ)))
    (world : World δ ε) : Prop where
  next : world.next = calls.length
  ids : (world.outcomes.map Prod.fst ++ world.queue.map fun owner => owner.id).Perm
    (List.range calls.length)
  queued : ∀ owner ∈ world.queue, ∃ batches, calls[owner.id]? = some batches ∧
    Mapped template batches ∧
    owner.batches = batches.insertionSort fun a b => a.datasource ≤ b.datasource
  untried : ∀ id, id ∉ world.outcomes.map Prod.fst →
    world.store.progress id = {} ∧ world.store.rows id = []
  settled : ∀ id outcome batches, (id, outcome) ∈ world.outcomes → calls[id]? = some batches →
    Mapped template batches → Truthful world.store id batches outcome
  bounded : ∀ attempt ∈ world.store.history, Bounded attempt.data

lemma linesOf_eq_nil {batches : List (InsertBatch δ)} {datasource : δ}
    (h : ∀ batch ∈ batches, batch.datasource ≠ datasource) : linesOf batches datasource = [] := by
  have hnone : ownBatches batches datasource = [] := by
    rw [ownBatches, List.filter_eq_nil_iff]
    intro batch hbatch hsame
    exact h batch hbatch (of_decide_eq_true hsame)
  rw [linesOf, hnone, List.flatMap_nil]

lemma Truthful.congr {store : Store δ ε} {id : ℕ} {batches batches' : List (InsertBatch δ)}
    {outcome : Outcome δ ε} (hlines : ∀ d, linesOf batches d = linesOf batches' d)
    (h : Truthful store id batches outcome) : Truthful store id batches' outcome := by
  cases outcome with
  | ok accepted => exact ⟨fun d => (h.1 d).trans (hlines d), h.2⟩
  | error error =>
    obtain ⟨⟨hbefore, hafter, hhere, hshort, hstopped⟩, haccepted⟩ := h
    rw [hlines] at hhere hshort
    exact ⟨⟨fun d hd => (hbefore d hd).trans (hlines d), hafter, hhere, hshort, hstopped⟩,
      haccepted⟩

lemma datasourcesOf_sorted (queue : List (QueuedExport δ)) :
    (datasourcesOf queue).Pairwise (· < ·) := by
  rw [datasourcesOf]
  set names := (queue.flatMap fun owner => owner.batches.map fun batch => batch.datasource).dedup
    with hnames
  have hle := List.pairwise_insertionSort (· ≤ · : δ → δ → Prop) names
  have hne : (names.insertionSort (· ≤ ·)).Nodup :=
    (List.perm_insertionSort _ names).nodup_iff.mpr (List.nodup_dedup _)
  exact hle.imp₂ (fun _ _ h hne => lt_of_le_of_ne h hne) hne

lemma mem_datasourcesOf {queue : List (QueuedExport δ)} {datasource : δ} :
    datasource ∈ datasourcesOf queue ↔
      ∃ owner ∈ queue, ∃ batch ∈ owner.batches, batch.datasource = datasource := by
  simp [datasourcesOf, List.mem_insertionSort]

lemma Running.nodup {calls : List (List (InsertBatch δ))} {world : World δ ε}
    (h : Running template calls world) :
    (world.outcomes.map Prod.fst ++ world.queue.map fun owner => owner.id).Nodup :=
  h.ids.nodup_iff.mpr List.nodup_range

lemma Running.flush (throws : ℕ → Option ε) {calls : List (List (InsertBatch δ))}
    {world : World δ ε} (h : Running template calls world) :
    Running template calls (world.flush throws template) := by
  by_cases hempty : world.queue.isEmpty
  · rw [World.flush, if_pos hempty]
    exact ⟨h.next, h.ids, h.queued, h.untried, h.settled, h.bounded⟩
  rw [World.flush, if_neg hempty]
  have hids := List.nodup_append.mp h.nodup
  have hwaits : ∀ owner ∈ world.queue, owner.id ∉ world.outcomes.map Prod.fst := by
    intro owner howner hmem
    exact hids.2.2 _ hmem _ (List.mem_map_of_mem howner) rfl
  have hmapped : ∀ d ∈ datasourcesOf world.queue, (template d).isSome := by
    intro d hd
    obtain ⟨owner, howner, batch, hbatch, rfl⟩ := mem_datasourcesOf.mp hd
    obtain ⟨batches, -, hmapped, hsorted⟩ := h.queued owner howner
    rw [hsorted, List.mem_insertionSort] at hbatch
    exact hmapped batch hbatch
  have hall : ∀ owner ∈ world.queue, ∀ d, d ∉ datasourcesOf world.queue →
      linesOf owner.batches d = [] := by
    intro owner howner d hd
    apply linesOf_eq_nil
    intro batch hbatch hsame
    exact hd (mem_datasourcesOf.mpr ⟨owner, howner, batch, hbatch, hsame⟩)
  have hstart : ∀ owner ∈ world.queue, Worked owner [] world.store := by
    intro owner howner
    obtain ⟨hprogress, hrows⟩ := h.untried owner.id (hwaits owner howner)
    refine ⟨?_, ?_, ?_, ?_⟩
    · rw [hprogress, hrows]
      rfl
    · intro d _
      rw [Store.textsAt, hrows]
      rfl
    · simp
    · intro failure hfailure
      rw [hprogress] at hfailure
      simp at hfailure
  have hsorted : ([] ++ datasourcesOf world.queue).Pairwise (· < ·) :=
    datasourcesOf_sorted world.queue
  obtain ⟨hworked, hgrows, hbounded, hothers⟩ :=
    flush_works throws hids.2.1 hsorted hmapped hall hstart
  rw [List.nil_append] at hworked
  set store' := (datasourcesOf world.queue).foldl (flushDatasource throws template world.queue)
    world.store with hstore
  have houtcomes : (world.queue.map (settle store')).map Prod.fst =
      world.queue.map fun owner => owner.id := by
    rw [List.map_map]
    rfl
  refine ⟨h.next, ?_, by simp, ?_, ?_, hbounded h.bounded⟩
  · simpa [houtcomes] using h.ids
  · intro id hid
    rw [List.map_append, houtcomes, List.mem_append, not_or] at hid
    obtain ⟨hprogress, hrows⟩ := h.untried id hid.1
    have huntouched := hothers id hid.2
    exact ⟨huntouched.1.trans hprogress, huntouched.2.trans hrows⟩
  · intro id outcome batches hmem hcall hbatches
    rcases List.mem_append.mp hmem with hmem | hmem
    · have hother : id ∉ world.queue.map fun owner => owner.id := fun hqueued =>
        hids.2.2 id (List.mem_map.mpr ⟨_, hmem, rfl⟩) id hqueued rfl
      exact (h.settled id outcome batches hmem hcall hbatches).later (hothers id hother) hgrows
    · obtain ⟨owner, howner, heq⟩ := List.mem_map.mp hmem
      obtain ⟨rfl, rfl⟩ := Prod.mk.inj heq
      obtain ⟨batches', hcall', -, hsort⟩ := h.queued owner howner
      rw [hcall] at hcall'
      obtain rfl := Option.some.inj hcall'
      refine ((hworked owner howner).truthful (hall owner howner)).congr fun d => ?_
      rw [hsort, linesOf_sorted]

lemma Running.lt {calls : List (List (InsertBatch δ))} {world : World δ ε}
    (h : Running template calls world) {id : ℕ}
    (hid : id ∈ world.outcomes.map Prod.fst ++ world.queue.map fun owner => owner.id) :
    id < calls.length :=
  List.mem_range.mp (h.ids.mem_iff.mp hid)

lemma getElem?_append_of_lt {α : Type} {items : List α} {item : α} {i : ℕ}
    (h : i < items.length) : (items ++ [item])[i]? = items[i]? :=
  List.getElem?_append_left h

/-- An export that settles at once has no rows. -/
lemma Running.settleNow {calls : List (List (InsertBatch δ))} {world : World δ ε}
    (h : Running template calls world) {batches : List (InsertBatch δ)} {outcome : Outcome δ ε}
    (houtcome : Mapped template batches → outcome = .ok 0 ∧ batches = []) :
    Running template (calls ++ [batches])
      { world with
        next := world.next + 1
        outcomes := world.outcomes ++ [(world.next, outcome)] } := by
  have hnew : world.next ∉ world.outcomes.map Prod.fst := fun hmem => by
    have hlt := h.lt (List.mem_append_left _ hmem)
    have hnext := h.next
    omega
  refine ⟨by simp [h.next], ?_, ?_, ?_, ?_, h.bounded⟩
  · rw [List.length_append, List.length_singleton, List.range_succ, ← h.next, List.map_append,
      List.append_assoc]
    refine (List.perm_append_comm.append_left _).trans ?_
    rw [← List.append_assoc, h.next]
    exact h.ids.append_right _
  · intro owner howner
    obtain ⟨batches', hcall, hrest⟩ := h.queued owner howner
    have hlt := h.lt (List.mem_append_right _ (List.mem_map_of_mem howner))
    exact ⟨batches', (getElem?_append_of_lt hlt).trans hcall, hrest⟩
  · intro id hid
    rw [List.map_append, List.mem_append, not_or] at hid
    exact h.untried id hid.1
  · intro id outcome' batches' hmem hcall hmapped
    rcases List.mem_append.mp hmem with hmem | hmem
    · have hlt := h.lt (List.mem_append_left _ (List.mem_map.mpr ⟨_, hmem, rfl⟩))
      rw [getElem?_append_of_lt hlt] at hcall
      exact h.settled id outcome' batches' hmem hcall hmapped
    · obtain ⟨rfl, rfl⟩ := Prod.mk.inj (List.mem_singleton.mp hmem)
      rw [h.next, List.getElem?_concat_length] at hcall
      obtain rfl := Option.some.inj hcall
      obtain ⟨rfl, rfl⟩ := houtcome hmapped
      obtain ⟨-, hrows⟩ := h.untried world.next hnew
      refine ⟨fun d => ?_, by rw [hrows]; rfl⟩
      rw [Store.textsAt, hrows]
      rfl

/-- An export that waits. -/
lemma Running.wait {calls : List (List (InsertBatch δ))} {world : World δ ε}
    (h : Running template calls world) {batches : List (InsertBatch δ)}
    (hmapped : Mapped template batches) (queuedBytes : ℕ) (timer : Bool) :
    Running template (calls ++ [batches])
      { world with
        next := world.next + 1
        queue := world.queue ++
          [⟨world.next, batches.insertionSort fun a b => a.datasource ≤ b.datasource⟩]
        queuedBytes
        timer } := by
  refine ⟨by simp [h.next], ?_, ?_, h.untried, ?_, h.bounded⟩
  · rw [List.length_append, List.length_singleton, List.range_succ, ← h.next, List.map_append,
      ← List.append_assoc]
    rw [h.next]
    exact h.ids.append_right _
  · intro owner howner
    rcases List.mem_append.mp howner with howner | howner
    · obtain ⟨batches', hcall, hrest⟩ := h.queued owner howner
      have hlt := h.lt (List.mem_append_right _ (List.mem_map_of_mem howner))
      exact ⟨batches', (getElem?_append_of_lt hlt).trans hcall, hrest⟩
    · rw [List.mem_singleton.mp howner]
      refine ⟨batches, ?_, hmapped, rfl⟩
      dsimp only
      rw [h.next, List.getElem?_concat_length]
  · intro id outcome batches' hmem hcall hbatches
    have hlt := h.lt (List.mem_append_left _ (List.mem_map.mpr ⟨_, hmem, rfl⟩))
    rw [getElem?_append_of_lt hlt] at hcall
    exact h.settled id outcome batches' hmem hcall hbatches

lemma Running.enqueue (throws : ℕ → Option ε) {calls : List (List (InsertBatch δ))}
    {world : World δ ε} (h : Running template calls world) (batches : List (InsertBatch δ)) :
    Running template (calls ++ [batches]) (world.enqueue throws template batches) := by
  rw [World.enqueue]
  cases hfind : batches.find? fun batch => (template batch.datasource).isNone with
  | some unknown =>
    refine h.settleNow fun hmapped => ?_
    have hsome := hmapped unknown (List.mem_of_find?_eq_some hfind)
    have hnone := List.find?_some hfind
    simp only [Option.isNone_iff_eq_none] at hnone
    rw [hnone] at hsome
    simp at hsome
  | none =>
    have hmapped : Mapped template batches := by
      intro batch hbatch
      have hnot := List.find?_eq_none.mp hfind batch hbatch
      simpa [Option.isSome_iff_ne_none] using hnot
    by_cases hempty : batches.isEmpty
    · rw [if_pos hempty]
      exact h.settleNow fun _ => ⟨rfl, List.isEmpty_iff.mp hempty⟩
    · rw [if_neg hempty]
      have hwait := h.wait hmapped (world.queuedBytes + byteLength batches)
      dsimp only
      split_ifs
      · exact (hwait world.timer).flush throws
      · exact hwait true

/-- The timer is set while an export waits. -/
def Awaited (world : World δ ε) : Prop := world.queue ≠ [] → world.timer = true

lemma flush_queue (world : World δ ε) : (world.flush throws template).queue = [] := by
  by_cases hempty : world.queue.isEmpty
  · rw [World.flush, if_pos hempty]
    exact List.isEmpty_iff.mp hempty
  · rw [World.flush, if_neg hempty]

lemma Awaited.act {world : World δ ε} (h : Awaited world) (action : Action δ) :
    Awaited (world.act throws template action) := by
  cases action with
  | flush => exact fun hqueue => absurd (flush_queue world) hqueue
  | insert batches =>
    rw [World.act, World.enqueue]
    cases batches.find? fun batch => (template batch.datasource).isNone with
    | some unknown => exact h
    | none =>
      dsimp only
      split_ifs
      · exact h
      · exact fun hqueue => absurd (flush_queue _) hqueue
      · exact fun _ => rfl

lemma running_run (template : δ → Option InsertTemplate) (throws : ℕ → Option ε)
    (actions : List (Action δ)) :
    Running template (inserted actions) (World.run throws template World.start actions) ∧
      Awaited (World.run throws template World.start actions) := by
  induction actions using List.reverseRecOn with
  | nil =>
    refine ⟨⟨rfl, List.Perm.refl _, by simp [World.run, World.start], ?_, ?_, ?_⟩, ?_⟩
    · exact fun _ _ => ⟨rfl, rfl⟩
    · simp [World.run, World.start]
    · simp [World.run, World.start]
    · simp [Awaited, World.run, World.start]
  | append_singleton actions action ih =>
    obtain ⟨hrunning, hawaited⟩ := ih
    rw [World.run, List.foldl_append, List.foldl_cons, List.foldl_nil, ← World.run]
    refine ⟨?_, hawaited.act action⟩
    rw [inserted, List.filterMap_append, ← inserted]
    cases action with
    | flush =>
      have hsame := hrunning.flush throws
      simpa [World.act] using hsame
    | insert batches => exact hrunning.enqueue throws batches

/-- In every run, an export waits with the timer set, or it has settled once: success means that
its rows are committed, failure that they are cut at the datasource named. -/
theorem exports_settle_once_truthfully (template : δ → Option InsertTemplate)
    (throws : ℕ → Option ε) (actions : List (Action δ)) :
    let world := World.run throws template World.start actions
    (∀ id batches, (inserted actions)[id]? = some batches → Mapped template batches →
      (id ∈ world.queue.map (fun owner => owner.id) ∧ world.timer = true ∧
          id ∉ world.outcomes.map Prod.fst ∧ world.store.rows id = []) ∨
        ∃ outcome, (world.outcomes.filter fun settled => settled.1 = id) = [(id, outcome)] ∧
          Truthful world.store id batches outcome) ∧
      (world.flush throws template).queue = [] ∧
      ∀ attempt ∈ world.store.history, Bounded attempt.data := by
  obtain ⟨hrunning, hawaited⟩ := running_run template throws actions
  refine ⟨?_, flush_queue _, hrunning.bounded⟩
  intro id batches hcall hmapped
  set world := World.run throws template World.start actions with hworld
  have hlt : id < (inserted actions).length := (List.getElem?_eq_some_iff.mp hcall).1
  have hids := List.nodup_append.mp hrunning.nodup
  rcases List.mem_append.mp (hrunning.ids.mem_iff.mpr (List.mem_range.mpr hlt)) with hid | hid
  · obtain ⟨⟨id', outcome⟩, hmem, rfl⟩ := List.mem_map.mp hid
    exact Or.inr ⟨outcome, filter_queued hids.1 hmem,
      hrunning.settled id' outcome batches hmem hcall hmapped⟩
  · have hnot : id ∉ world.outcomes.map Prod.fst := fun hmem => hids.2.2 id hmem id hid rfl
    refine Or.inl ⟨hid, hawaited ?_, hnot, (hrunning.untried id hnot).2⟩
    intro hnil
    rw [hnil] at hid
    simp at hid

end Exports

end Maple.Inserts
