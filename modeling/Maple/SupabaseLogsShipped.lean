import Maple.SupabaseLogs
import Mathlib.Data.List.Induction

/-! Polled logs are shipped once: the stored watermark and its ids stand for exactly what ingest
accepted. -/

namespace Maple.SupabaseLogs

open PageCursor

/-! ## Chunks -/

lemma chunksOf_go_spec {α : Type} {size : Nat} (hsize : 0 < size) (fuel : Nat) (items : List α)
    (hfuel : items.length ≤ fuel) :
    (chunksOf.go size fuel items).flatten = items ∧
      ∀ chunk ∈ chunksOf.go size fuel items, chunk ≠ [] := by
  induction fuel generalizing items with
  | zero =>
    have : items = [] := List.length_eq_zero_iff.mp (by omega)
    simp [this, chunksOf.go]
  | succ fuel ih =>
    cases items with
    | nil => simp [chunksOf.go]
    | cons item items =>
      have hlength : ((item :: items).drop size).length ≤ fuel := by
        rw [List.length_drop, List.length_cons] at *
        omega
      obtain ⟨hflat, hne⟩ := ih _ hlength
      have hstep : chunksOf.go size (fuel + 1) (item :: items) =
          (item :: items).take size :: chunksOf.go size fuel ((item :: items).drop size) := rfl
      rw [hstep, List.flatten_cons, hflat, List.take_append_drop]
      refine ⟨rfl, List.forall_mem_cons.mpr ⟨?_, hne⟩⟩
      simp only [ne_eq, List.take_eq_nil_iff, reduceCtorEq, or_false]
      omega

lemma chunksOf_flatten {α : Type} (items : List α) : (chunksOf ingestChunk items).flatten = items :=
  (chunksOf_go_spec (by decide) _ items le_rfl).1

lemma ne_nil_of_mem_chunksOf {α : Type} {items chunk : List α}
    (h : chunk ∈ chunksOf ingestChunk items) : chunk ≠ [] :=
  (chunksOf_go_spec (by decide) _ items le_rfl).2 chunk h

section Store

variable {timestampMs : String → Option Int} (store : LogStore timestampMs)

/-- The rows that decode, in the order the endpoint serves them. -/
def LogStore.decodedRows : List LogRow :=
  store.rows.filterMap fun row => decodeLogRow timestampMs row.raw

variable {store}

lemma LogStore.sorted_ms : store.rows.Pairwise fun a b => a.ms ≤ b.ms := by
  refine store.sorted.imp fun {a b} h => Int.ediv_le_ediv (by decide) ?_
  rcases h with h | ⟨h, -⟩ <;> omega

lemma LogStore.decoded_ms (row : RawRow) (hrow : row ∈ store.rows) (d : LogRow)
    (hd : decodeLogRow timestampMs row.raw = some d) : d.ms = row.ms :=
  (store.decoded row hrow d hd).2

lemma LogStore.decodedRows_sorted : store.decodedRows.Pairwise fun a b => a.ms ≤ b.ms := by
  rw [LogStore.decodedRows, List.pairwise_filterMap]
  refine store.sorted_ms.imp_of_mem fun {a b} ha hb hab d hd e he => ?_
  rw [store.decoded_ms a ha d hd, store.decoded_ms b hb e he]
  exact hab

lemma LogStore.decodedRows_distinct : (store.decodedRows.map LogRow.id).Nodup := by
  have hids : ∀ rows : List RawRow, (∀ row ∈ rows, row ∈ store.rows) →
      ((rows.filterMap fun row => decodeLogRow timestampMs row.raw).map LogRow.id).Sublist
        (rows.map RawRow.id) := by
    intro rows hrows
    induction rows with
    | nil => simp
    | cons row rows ih =>
      have hrest := ih fun r hr => hrows r (List.mem_cons_of_mem _ hr)
      cases hd : decodeLogRow timestampMs row.raw with
      | none => simpa [hd] using hrest.cons row.id
      | some d =>
        have hid := (store.decoded row (hrows row (by simp)) d hd).1
        simpa [hd, hid] using hrest.cons_cons row.id
  exact (hids store.rows fun _ h => h).nodup store.distinct

variable (store) in
/-- A page of the endpoint is the first rows of its window. -/
lemma decodeLogRows_queryLogs (window : LogsWindow) :
    decodeLogRows timestampMs (queryLogs store.rows window) =
        (rawPage RawRow.ms store.rows window.startMs window.endMs logsPageSize).filterMap
          (fun row => decodeLogRow timestampMs row.raw) ∧
      (queryLogs store.rows window).length =
        (rawPage RawRow.ms store.rows window.startMs window.endMs logsPageSize).length := by
  have hwindow : (store.rows.filter fun row => decide (window.startMs * 1000000 ≤ row.time) &&
      decide (row.time < window.endMs * 1000000)) =
      PageCursor.window RawRow.ms store.rows window.startMs window.endMs := by
    refine List.filter_congr fun row _ => ?_
    have hstart : window.startMs * 1000000 ≤ row.time ↔ window.startMs ≤ row.ms := by
      rw [RawRow.ms]; omega
    have hend : row.time < window.endMs * 1000000 ↔ row.ms < window.endMs := by
      rw [RawRow.ms]; omega
    rw [decide_eq_decide.mpr hstart, decide_eq_decide.mpr hend]
  constructor
  · rw [queryLogs, hwindow, decodeLogRows, List.filterMap_map]
    rfl
  · rw [queryLogs, hwindow, List.length_map, rawPage]

/-! ## The cursor of the project row -/

/-- Which rows a watermark with its ids stands for. -/
abbrev TakenRows (store : LogStore timestampMs) := Taken LogRow.ms LogRow.id store.decodedRows

/-- What the stored watermark says ingest accepted from `first` on. -/
structure Shipped (store : LogStore timestampMs) (first : Int) (world : World) : Prop where
  taken : ∀ mark, world.project.logsWatermarkAt = some mark →
    TakenRows store first mark world.project.logsBoundaryIds world.accepted
  fresh : world.project.logsWatermarkAt = none →
    world.project.logsBoundaryIds = [] ∧ world.accepted = []

/-- The watermarks stored since `initial` only grew, up to the one stored now. -/
structure Marks (initial : List Int) (world : World) : Prop where
  sorted : world.watermarks.Pairwise (· ≤ ·)
  current : world.watermarks.getLast? = world.project.logsWatermarkAt
  grew : initial <+: world.watermarks

lemma Marks.le_stored {initial : List Int} {world : World} (h : Marks initial world) {m : Int}
    (hm : m ∈ world.watermarks) : ∃ mark, world.project.logsWatermarkAt = some mark ∧ m ≤ mark := by
  obtain ⟨init, mark, hmarks⟩ : ∃ init mark, world.watermarks = init ++ [mark] :=
    ⟨_, _, (List.dropLast_append_getLast (List.ne_nil_of_mem hm)).symm⟩
  have hsorted := h.sorted
  rw [hmarks] at hm hsorted
  refine ⟨mark, by rw [← h.current, hmarks]; simp, ?_⟩
  rcases List.mem_append.mp hm with hin | hend
  · exact (List.pairwise_append.mp hsorted).2.2 m hin mark (by simp)
  · exact (List.mem_singleton.mp hend).le

/-- The tick that took the lease still holds it. -/
def Held (claimed : Project) (world : World) : Prop :=
  world.project.logsEnabled = true ∧ world.project.logsLeaseUntil = claimed.logsLeaseUntil

/-- A write that leaves the lease, the watermark and its ids alone. -/
structure Keeps (set : Project → Project) : Prop where
  enabled : ∀ p, (set p).logsEnabled = p.logsEnabled
  lease : ∀ p, (set p).logsLeaseUntil = p.logsLeaseUntil
  watermark : ∀ p, (set p).logsWatermarkAt = p.logsWatermarkAt
  boundary : ∀ p, (set p).logsBoundaryIds = p.logsBoundaryIds

lemma polled_keeps (now : Int) :
    Keeps fun project => { project with logsLastPolledAt := some now } where
  enabled _ := rfl
  lease _ := rfl
  watermark _ := rfl
  boundary _ := rfl

lemma finished_keeps (now : Int) :
    Keeps fun project => { project with logsLastPolledAt := some now, logsError := none } where
  enabled _ := rfl
  lease _ := rfl
  watermark _ := rfl
  boundary _ := rfl

variable {claimed : Project} {first : Int} {world : World} {initial : List Int}

variable (store first) in
lemma recordError_keeps (hheld : Held claimed world) (message : String) :
    Held claimed (recordError claimed message world) ∧
      (Marks initial world → Marks initial (recordError claimed message world)) ∧
      (Shipped store first world → Shipped store first (recordError claimed message world)) := by
  rw [recordError, updateClaimed, if_pos ⟨hheld.1, hheld.2⟩]
  exact ⟨hheld, fun h => ⟨h.sorted, h.current, h.grew⟩, fun h => ⟨h.taken, h.fresh⟩⟩

/-- A stored mark at or past the one before it keeps the order, and stands for what it takes. -/
lemma storeMark_spec (hheld : Held claimed world) (hmarks : Marks initial world) {mark : Mark}
    {set : Project → Project} (hset : Keeps set)
    (hpast : ∀ m, world.project.logsWatermarkAt = some m → m ≤ mark.watermarkAt)
    (htaken : TakenRows store first mark.watermarkAt mark.boundaryIds world.accepted) :
    Held claimed (storeMark claimed mark set world) ∧
      Marks initial (storeMark claimed mark set world) ∧
      Shipped store first (storeMark claimed mark set world) ∧
      (storeMark claimed mark set world).accepted = world.accepted ∧
      (storeMark claimed mark set world).project.logsWatermarkAt = some mark.watermarkAt ∧
      (storeMark claimed mark set world).project.logsBoundaryIds = mark.boundaryIds := by
  rw [storeMark, if_pos ⟨hheld.1, hheld.2⟩]
  have hbelow : ∀ m ∈ world.watermarks, m ≤ mark.watermarkAt := by
    intro m hm
    obtain ⟨stored, hstored, hle⟩ := hmarks.le_stored hm
    exact hle.trans (hpast stored hstored)
  refine ⟨⟨(hset.enabled _).trans hheld.1, (hset.lease _).trans hheld.2⟩,
    ⟨?_, ?_, hmarks.grew.trans (List.prefix_append _ _)⟩, ⟨?_, ?_⟩, rfl,
    hset.watermark _, hset.boundary _⟩
  · refine List.pairwise_append.mpr ⟨hmarks.sorted, List.pairwise_singleton _ _, ?_⟩
    simpa using hbelow
  · rw [hset.watermark]
    simp
  · intro m hm
    rw [hset.watermark] at hm
    obtain rfl : mark.watermarkAt = m := Option.some_inj.mp hm
    rw [hset.boundary]
    exact htaken
  · intro hnone
    rw [hset.watermark] at hnone
    cases hnone

/-! ## Sending a page -/

lemma throughSent_eq {upto behind : List LogRow} {last : LogRow}
    (hids : ((upto ++ last :: behind).map LogRow.id).Nodup) :
    throughSent (upto ++ last :: behind) last = upto ++ [last] := by
  have hfind : (upto ++ last :: behind).findIdx (fun row => row.id == last.id) =
      upto.length := by
    rw [List.map_append, List.map_cons] at hids
    have hne : ∀ row ∈ upto, (row.id == last.id) = false := by
      intro row hrow
      simp only [beq_eq_false_iff_ne, ne_eq]
      intro heq
      exact List.disjoint_of_nodup_append hids (List.mem_map_of_mem hrow) (by simp [heq])
    rw [List.findIdx_append, List.findIdx_eq_length_of_false hne]
    simp [List.findIdx_cons]
  rw [throughSent, hfind]
  rw [List.take_append, List.take_of_length_le (Nat.le_succ _)]
  simp

/-- A page of a tick: the window's first rows, read by a cursor that has not moved since. -/
structure Reading (store : LogStore timestampMs) (first start stop : Int) (boundaryIds : List String)
    (accepted rows rest : List LogRow) : Prop where
  taken : TakenRows store first start boundaryIds accepted
  page : Page LogRow.ms store.decodedRows start stop rows rest

/-- The rows of a page that are not sent yet. -/
abbrev freshRows (boundaryIds : List String) (rows : List LogRow) : List LogRow :=
  rows.filter fun row => decide (row.id ∉ boundaryIds)

variable {start stop : Int} {boundaryIds : List String} {accepted rows rest : List LogRow}

lemma Reading.page_ids (h : Reading store first start stop boundaryIds accepted rows rest) :
    (rows.map LogRow.id).Nodup ∧ rows.Pairwise fun a b => a.ms ≤ b.ms := by
  obtain ⟨before, hrows, -⟩ := h.page.split
  have hsub : rows.Sublist store.decodedRows := by
    rw [hrows]
    exact (List.sublist_append_left _ _).trans (List.sublist_append_right _ _)
  exact ⟨(hsub.map _).nodup store.decodedRows_distinct, store.decodedRows_sorted.sublist hsub⟩

/-- Where a partly delivered page leaves the cursor. -/
lemma Reading.partly (h : Reading store first start stop boundaryIds accepted rows rest)
    {done behind : List LogRow} {lastSent : LogRow}
    (hfresh : freshRows boundaryIds rows = done ++ lastSent :: behind) :
    TakenRows store first (acceptedWatermark rows lastSent).watermarkAt
        (acceptedWatermark rows lastSent).boundaryIds (accepted ++ (done ++ [lastSent])) ∧
      ∀ row ∈ behind, lastSent.ms ≤ row.ms := by
  obtain ⟨front, back, hrows, hfront, hback⟩ := List.filter_eq_append_iff.mp hfresh
  obtain ⟨gap, tail, rfl, hgap, hlast, htail⟩ := List.filter_eq_cons_iff.mp hback
  have hrows' : rows = (front ++ gap) ++ lastSent :: tail := by rw [hrows, List.append_assoc]
  obtain ⟨hids, hsorted⟩ := h.page_ids
  rw [hrows'] at hids hsorted
  have hpage := h.page
  rw [hrows'] at hpage
  have hnew : lastSent.id ∉ boundaryIds := by simpa using hlast
  have hlate := h.taken.behind_fresh store.decodedRows_distinct hpage hnew
  have hreach := h.taken.reach store.decodedRows_distinct store.decodedRows_sorted hpage hlate
  have hgap' : gap.filter (fun row => decide (row.id ∉ boundaryIds)) = [] :=
    List.filter_eq_nil_iff.mpr hgap
  have hsent : ((front ++ gap) ++ [lastSent]).filter (fun row => decide (row.id ∉ boundaryIds)) =
      done ++ [lastSent] := by
    simp only [List.filter_append, hfront, hgap', List.append_nil, List.filter_cons, hlast,
      if_true, List.filter_nil]
  rw [hsent] at hreach
  have hmark : acceptedWatermark rows lastSent = ⟨lastSent.ms,
      (((front ++ gap) ++ [lastSent]).filter fun row => decide (row.ms = lastSent.ms)).map
        LogRow.id⟩ := by
    rw [acceptedWatermark, hrows', throughSent_eq hids]
  rw [hmark]
  refine ⟨hreach, fun row hrow => ?_⟩
  rw [← htail] at hrow
  exact (List.pairwise_cons.mp (List.pairwise_append.mp hsorted).2.1).1 row
    (List.mem_of_mem_filter hrow)

/-- The stored watermark, while a page is being delivered: where the page starts, or at one of its
rows, and never past a row still to be sent. -/
def Within (start : Int) (rows unsent : List LogRow) (world : World) : Prop :=
  ∀ m, world.project.logsWatermarkAt = some m →
    (m = start ∨ ∃ row ∈ rows, m = row.ms) ∧ ∀ row ∈ unsent, m ≤ row.ms

variable (claimed) in
/-- Delivering a page: what a failure leaves is kept by the stored watermark, and success has
delivered everything fresh. -/
lemma sendFrom_spec (h : Reading store first start stop boundaryIds accepted rows rest) (now : Int)
    (query : Query) (chunks : List (List LogRow)) (hne : ∀ chunk ∈ chunks, chunk ≠ [])
    (index delivered : Nat) (done : List LogRow) (world : World)
    (hdone : done ++ chunks.flatten = freshRows boundaryIds rows)
    (haccepted : world.accepted = accepted ++ done) (hheld : Held claimed world)
    (hmarks : Marks initial world) (hshipped : chunks ≠ [] → Shipped store first world)
    (hwithin : Within start rows chunks.flatten world) :
    let out := sendFrom claimed now query rows chunks index delivered world
    Held claimed out.1 ∧ Marks initial out.1 ∧ Within start rows [] out.1 ∧
      (out.2.2 ≠ none → Shipped store first out.1) ∧
      (out.2.2 = none → out.1.accepted = accepted ++ freshRows boundaryIds rows) := by
  induction chunks generalizing index delivered done world with
  | nil =>
    simp only [List.flatten_nil, List.append_nil] at hdone
    rw [hdone] at haccepted
    exact ⟨hheld, hmarks, hwithin, by simp [sendFrom], fun _ => haccepted⟩
  | cons chunk chunks ih =>
    intro out
    cases hanswer : query.ingest index with
    | error failure =>
      have hout : out = (world, delivered, some failure) := by simp [out, sendFrom, hanswer]
      rw [hout]
      exact ⟨hheld, hmarks, fun m hm => ⟨(hwithin m hm).1, by simp⟩,
        fun _ => hshipped (by simp), by simp⟩
    | ok _ =>
      have hnext : ∀ c ∈ chunks, c ≠ [] := fun c hc => hne c (List.mem_cons_of_mem _ hc)
      have hdone' : (done ++ chunk) ++ chunks.flatten = freshRows boundaryIds rows := by
        rw [← hdone, List.flatten_cons, List.append_assoc]
      have haccepted' : world.accepted ++ chunk = accepted ++ (done ++ chunk) := by
        rw [haccepted, List.append_assoc]
      set sent : World := { world with accepted := world.accepted ++ chunk } with hsent
      cases chunks with
      | nil =>
        have hout : out = sendFrom claimed now query rows [] (index + 1)
            (delivered + chunk.length) sent := by
          simp [out, sendFrom, hanswer, hsent]
        rw [hout]
        exact ih hnext (index + 1) (delivered + chunk.length) (done ++ chunk) sent hdone' haccepted'
          hheld ⟨hmarks.sorted, hmarks.current, hmarks.grew⟩ (by simp)
          fun m hm => ⟨(hwithin m hm).1, by simp⟩
      | cons next more =>
        obtain ⟨init, lastSent, rfl⟩ : ∃ init lastSent, chunk = init ++ [lastSent] :=
          ⟨_, _, (List.dropLast_append_getLast (hne chunk (by simp))).symm⟩
        set marked := storeMark claimed (acceptedWatermark rows lastSent)
          (fun project => { project with logsLastPolledAt := some now }) sent with hmarked
        have hout : out = sendFrom claimed now query rows (next :: more) (index + 1)
            (delivered + (init ++ [lastSent]).length) marked := by
          simp [out, sendFrom, hanswer, hsent, hmarked]
        have hfresh : freshRows boundaryIds rows =
            (done ++ init) ++ lastSent :: (next :: more).flatten := by
          rw [← hdone']
          simp
        obtain ⟨htaken, hbehind⟩ := h.partly hfresh
        have hlast : lastSent ∈ rows :=
          List.mem_of_mem_filter (hfresh ▸ List.mem_append_right _ List.mem_cons_self)
        have htaken' : TakenRows store first (acceptedWatermark rows lastSent).watermarkAt
            (acceptedWatermark rows lastSent).boundaryIds sent.accepted := by
          rw [hsent, haccepted', ← List.append_assoc done]
          exact htaken
        have hsame : Held claimed sent ∧ Marks initial sent := ⟨hheld, ⟨hmarks.sorted, hmarks.current, hmarks.grew⟩⟩
        obtain ⟨hheld', hmarks', hshipped', hacc, hmark, -⟩ := storeMark_spec hsame.1 hsame.2
          (polled_keeps now) (fun m hm => (hwithin m hm).2 lastSent (by simp)) htaken'
        rw [hout]
        refine ih hnext (index + 1) _ (done ++ (init ++ [lastSent])) marked hdone'
          (hacc.trans haccepted') hheld' hmarks' (fun _ => hshipped') ?_
        intro m hm
        rw [hmark] at hm
        obtain rfl : lastSent.ms = m := Option.some_inj.mp hm
        exact ⟨.inr ⟨lastSent, hlast, rfl⟩, hbehind⟩

/-- Where a delivered page leaves the cursor. -/
lemma Reading.delivered (window : LogsWindow) (hwindow : window.startMs < window.endMs)
    {rawCount : Nat}
    (h : Reading store first window.startMs window.endMs boundaryIds accepted rows rest)
    (hshort : rawCount < logsPageSize → ∀ row ∈ rest, window.endMs ≤ row.ms)
    (hfull : logsPageSize ≤ rawCount → ∀ row ∈ rest, window.startMs < row.ms) :
    let next := advanceWatermark window rawCount rows (freshRows boundaryIds rows).length
    TakenRows store first next.watermarkAt next.boundaryIds
        (accepted ++ freshRows boundaryIds rows) ∧
      window.startMs ≤ next.watermarkAt ∧ ∀ row ∈ rows, row.ms ≤ next.watermarkAt := by
  intro next
  by_cases hcount : rawCount < logsPageSize
  · have hnext : next = ⟨window.endMs, []⟩ := by simp [next, advanceWatermark, hcount]
    rw [hnext]
    exact ⟨h.taken.finish store.decodedRows_distinct h.page (hshort hcount) hwindow, hwindow.le,
      fun row hrow => (h.page.inside row hrow).2.le⟩
  have hrest := hfull (not_lt.mp hcount)
  -- a page that brings nothing new ends the millisecond it starts at
  have hskip (hnone : freshRows boundaryIds rows = []) :
      TakenRows store first (window.startMs + 1) [] (accepted ++ freshRows boundaryIds rows) := by
    rw [hnone, List.append_nil]
    exact h.taken.skip store.decodedRows_distinct h.page (by omega)
      (fun row hrow => by have := hrest row hrow; omega) hnone
  obtain rfl | ⟨init, last, rfl⟩ : rows = [] ∨ ∃ init last, rows = init ++ [last] := by
    rcases List.eq_nil_or_concat rows with hnil | ⟨init, last, hrows⟩
    · exact .inl hnil
    · exact .inr ⟨init, last, by simpa using hrows⟩
  · have hnext : next = ⟨window.startMs + 1, []⟩ := by
      simp [next, advanceWatermark, hcount]
    rw [hnext]
    exact ⟨hskip rfl, by dsimp only; omega, by simp⟩
  obtain ⟨-, hsorted⟩ := h.page_ids
  have hlast : ∀ row ∈ init ++ [last], row.ms ≤ last.ms := by
    intro row hrow
    rcases List.mem_append.mp hrow with hin | hend
    · exact (List.pairwise_append.mp hsorted).2.2 row hin last (by simp)
    · rw [List.mem_singleton.mp hend]
  have hget : (init ++ [last]).getLast? = some last := by simp
  by_cases hstuck : last.ms ≤ window.startMs ∧ (freshRows boundaryIds (init ++ [last])).length = 0
  · have hnext : next = ⟨window.startMs + 1, []⟩ := by
      simp only [next, advanceWatermark, if_neg hcount, hget, if_pos hstuck]
    rw [hnext]
    exact ⟨hskip (List.length_eq_zero_iff.mp hstuck.2), by dsimp only; omega,
      fun row hrow => by have := hlast row hrow; dsimp only; omega⟩
  · have hnext : next = ⟨last.ms,
        ((init ++ [last]).filter fun row => decide (row.ms = last.ms)).map LogRow.id⟩ := by
      simp only [next, advanceWatermark, if_neg hcount, hget, if_neg hstuck]
    rw [hnext]
    refine ⟨?_, (h.page.inside last (by simp)).1, hlast⟩
    refine h.taken.reach store.decodedRows_distinct store.decodedRows_sorted h.page ?_
    intro row hrow hseen
    rw [List.nil_append] at hrow
    have hmem : row ∈ store.decodedRows := by
      obtain ⟨before, hrows, -⟩ := h.page.split
      rw [hrows]
      exact List.mem_append_right _ (List.mem_append_right _ hrow)
    have := (h.taken.of_seen store.decodedRows_distinct hmem hseen).2
    exact absurd (hrest row hrow) (by omega)

/-! ## Ticks -/

/-- A project that never had a watermark starts reading here. -/
def lookbackStart (now : Int) : Int :=
  (now - logsLagMs) / 1000 * 1000 - logsInitialLookbackMs

lemma nextLogsWindow_eq_some {watermarkAt : Option Int} {now : Int} {window : LogsWindow}
    (h : nextLogsWindow watermarkAt now = some window) :
    window.startMs = watermarkAt.getD (lookbackStart now) ∧ window.startMs < window.endMs := by
  unfold nextLogsWindow at h
  dsimp only at h
  split_ifs at h with hlt
  obtain rfl := Option.some_inj.mp h
  exact ⟨rfl, hlt⟩

/-- The page the endpoint serves for a window, read by the cursor of the project row. -/
lemma reading_of_window {window : LogsWindow} (hwindow : window.startMs < window.endMs)
    (htaken : TakenRows store first window.startMs boundaryIds accepted) :
    ∃ rest, Reading store first window.startMs window.endMs boundaryIds accepted
        (decodeLogRows timestampMs (queryLogs store.rows window)) rest ∧
      ((queryLogs store.rows window).length < logsPageSize →
        ∀ row ∈ rest, window.endMs ≤ row.ms) ∧
      (logsPageSize ≤ (queryLogs store.rows window).length →
        ∀ row ∈ rest, window.startMs < row.ms) := by
  obtain ⟨hrows, hlength⟩ := decodeLogRows_queryLogs store window
  rw [hrows, hlength]
  exact ⟨_, ⟨htaken, page_of_raw store.sorted_ms store.decoded_ms hwindow.le⟩,
    beyondPage_of_short store.decoded_ms,
    fun hfull => beyondPage_of_full store.sorted_ms store.decoded_ms hfull store.perMs hwindow⟩

variable (store claimed) in
/-- A query changes nothing, records an error, or delivers its page: in part, or whole and then goes
on from where that leaves the cursor. -/
lemma step_cases (tick : Tick) (left : Nat) (watermarkAt : Option Int) (boundaryIds : List String)
    (tally : ProjectPollResult) (world : World) :
    let out := step timestampMs store claimed tick left watermarkAt boundaryIds tally world
    out.1 = world ∨ (∃ message, out.1 = recordError claimed message world) ∨
    ∃ less window query, left = less + 1 ∧ nextLogsWindow watermarkAt tick.now = some window ∧
      let page := queryLogs store.rows window
      let rows := decodeLogRows timestampMs page
      let fresh := freshRows boundaryIds rows
      let sent := sendFrom claimed tick.now query rows (chunksOf ingestChunk fresh) 0 0 world
      (∃ failure, sent.2.2 = some failure ∧ out.1 = recordError claimed failure.message sent.1) ∨
      sent.2.2 = none ∧ ∃ tally',
        let next := advanceWatermark window page.length rows fresh.length
        out = step timestampMs store claimed tick less (some next.watermarkAt) next.boundaryIds tally'
          (storeMark claimed next (fun project =>
            { project with logsLastPolledAt := some tick.now, logsError := none }) sent.1) := by
  intro out
  generalize hout : out = result
  simp only [out] at hout
  unfold step at hout
  split at hout
  · exact .inl (by rw [← hout])
  rename_i window hwindow
  dsimp only at hout
  split_ifs at hout with hbudget
  · exact .inl (by rw [← hout])
  cases left with
  | zero => exact .inl (by rw [← hout])
  | succ less =>
    dsimp only at hout
    split at hout
    · exact .inl (by rw [← hout])
    · exact .inl (by rw [← hout])
    · exact .inr (.inl ⟨_, by rw [← hout]⟩)
    · refine .inr (.inr ⟨less, window, tick.query tally.calls, rfl, hwindow, ?_⟩)
      dsimp only
      split at hout
      · rename_i failure hfailure
        exact .inl ⟨failure, hfailure, by rw [← hout]⟩
      · rename_i hnone
        exact .inr ⟨hnone, _, hout.symm⟩

variable (claimed) in
/-- What a tick's queries leave is what the stored watermark stands for. -/
lemma step_spec (tick : Tick) (left : Nat) (watermarkAt : Option Int) (boundaryIds : List String)
    (tally : ProjectPollResult) (world : World)
    (hwatermark : world.project.logsWatermarkAt = watermarkAt)
    (hboundary : world.project.logsBoundaryIds = boundaryIds)
    (hfirst : watermarkAt = none → first = lookbackStart tick.now)
    (hheld : Held claimed world) (hmarks : Marks initial world) (hshipped : Shipped store first world) :
    let out := step timestampMs store claimed tick left watermarkAt boundaryIds tally world
    Held claimed out.1 ∧ Marks initial out.1 ∧ Shipped store first out.1 := by
  induction left using Nat.strongRecOn generalizing watermarkAt boundaryIds tally world with
  | ind left ih =>
    rcases step_cases store claimed tick left watermarkAt boundaryIds tally world with
      hout | ⟨message, hout⟩ | ⟨less, window, query, hleft, hwindow, hdelivery⟩
    · dsimp only
      rw [hout]
      exact ⟨hheld, hmarks, hshipped⟩
    · obtain ⟨hheld', hmarks', hshipped'⟩ := recordError_keeps store first hheld message
      dsimp only
      rw [hout]
      exact ⟨hheld', hmarks' hmarks, hshipped' hshipped⟩
    obtain ⟨hstart, hlt⟩ := nextLogsWindow_eq_some hwindow
    have htaken : TakenRows store first window.startMs boundaryIds world.accepted := by
      cases watermarkAt with
      | some mark =>
        obtain rfl : window.startMs = mark := hstart
        rw [← hboundary]
        exact hshipped.taken _ hwatermark
      | none =>
        obtain ⟨hnoids, hnothing⟩ := hshipped.fresh hwatermark
        have hsame : window.startMs = first := hstart.trans (hfirst rfl).symm
        rw [← hboundary, hnoids, hnothing, hsame]
        exact Taken.start _ _
    obtain ⟨rest, hreading, hshort, hfull⟩ := reading_of_window hlt htaken
    have hwithin : Within window.startMs (decodeLogRows timestampMs (queryLogs store.rows window))
        (chunksOf ingestChunk (freshRows boundaryIds
          (decodeLogRows timestampMs (queryLogs store.rows window)))).flatten world := by
      intro m hm
      have hm' : m = window.startMs := by
        rw [hstart, ← hwatermark, hm]
        rfl
      refine ⟨.inl hm', fun row hrow => ?_⟩
      rw [chunksOf_flatten] at hrow
      rw [hm']
      exact (hreading.page.inside row (List.mem_of_mem_filter hrow)).1
    obtain ⟨hheld', hmarks', hwithin', hfailed, hdelivered⟩ := sendFrom_spec claimed
      hreading tick.now query _ (fun _ => ne_nil_of_mem_chunksOf) 0 0 [] world
      (by rw [chunksOf_flatten, List.nil_append]) (by simp) hheld hmarks (fun _ => hshipped) hwithin
    rcases hdelivery with ⟨failure, hfailure, hout⟩ | ⟨hnone, tally', hout⟩
    · obtain ⟨hheld'', hmarks'', hshipped''⟩ := recordError_keeps store first hheld'
        failure.message
      dsimp only
      rw [hout]
      exact ⟨hheld'', hmarks'' hmarks', hshipped'' (hfailed (by rw [hfailure]; simp))⟩
    · obtain ⟨hnext, hge, hpast⟩ := hreading.delivered window hlt hshort hfull
      have hall := hdelivered hnone
      rw [← hall] at hnext
      obtain ⟨hheld'', hmarks'', hshipped'', -, hmark, hids⟩ :=
        storeMark_spec hheld' hmarks' (finished_keeps tick.now) (by
          intro m hm
          rcases (hwithin' m hm).1 with rfl | ⟨row, hrow, rfl⟩
          · exact hge
          · exact hpast row hrow) hnext
      dsimp only
      rw [hout]
      exact ih less (by omega) _ _ tally' _ hmark hids (by simp) hheld'' hmarks'' hshipped''

lemma releaseLease_keeps (claimed : Project) (holdUntil : Option Int) (hmarks : Marks initial world)
    (hshipped : Shipped store first world) :
    Marks initial (releaseLease claimed holdUntil world) ∧
      Shipped store first (releaseLease claimed holdUntil world) := by
  unfold releaseLease
  split_ifs
  · exact ⟨⟨hmarks.sorted, hmarks.current, hmarks.grew⟩, ⟨hshipped.taken, hshipped.fresh⟩⟩
  · exact ⟨hmarks, hshipped⟩

/-- A tick moves the stored watermark with what it ships. -/
lemma pollProject_spec (tick : Tick)
    (hfirst : world.project.logsWatermarkAt = none → first = lookbackStart tick.now)
    (hmarks : Marks initial world) (hshipped : Shipped store first world) :
    Marks initial (pollProject timestampMs store world tick) ∧
      Shipped store first (pollProject timestampMs store world tick) := by
  unfold pollProject
  by_cases hclaim : claimable world.project tick.now = true
  swap
  · rw [if_neg hclaim]
    exact ⟨hmarks, hshipped⟩
  rw [if_pos hclaim]
  have henabled : world.project.logsEnabled = true := by
    simp only [claimable, Bool.and_eq_true] at hclaim
    exact hclaim.1
  set claimed : Project := { world.project with logsLeaseUntil := some (tick.now + leaseMs) }
  have hsame : Held claimed { world with project := claimed } := ⟨henabled, rfl⟩
  obtain ⟨-, hmarks', hshipped'⟩ := step_spec claimed tick maxQueriesPerProject
    world.project.logsWatermarkAt world.project.logsBoundaryIds emptyResult
    { world with project := claimed } rfl rfl hfirst hsame ⟨hmarks.sorted, hmarks.current, hmarks.grew⟩
    ⟨hshipped.taken, hshipped.fresh⟩
  exact releaseLease_keeps claimed _ hmarks' hshipped'

/-- Where a run first read: at the watermark it found, or a lookback before one of its ticks. -/
def Starts (watermarkAt : Option Int) (ticks : List Tick) (first : Int) : Prop :=
  watermarkAt = some first ∨
    watermarkAt = none ∧ ∃ tick ∈ ticks, first = lookbackStart tick.now

/-- Successive ticks on a project. A first watermark has no ids yet: turning logs on, and the source's
pause, store it so. -/
def run (store : LogStore timestampMs) (project : Project) (ticks : List Tick) : World :=
  ticks.foldl (pollProject timestampMs store) ⟨project, [], project.logsWatermarkAt.toList⟩

variable (store) in
lemma run_spec (project : Project) (hboundary : project.logsBoundaryIds = []) (ticks : List Tick) :
    let world := run store project ticks
    Marks project.logsWatermarkAt.toList world ∧
      (world.project.logsWatermarkAt = none ∧ world.project.logsBoundaryIds = [] ∧
          world.accepted = [] ∨
        world.project.logsWatermarkAt ≠ none ∧
          ∃ first, Starts project.logsWatermarkAt ticks first ∧ Shipped store first world) := by
  induction ticks using List.reverseRecOn with
  | nil =>
    intro world
    have hworld : world = ⟨project, [], project.logsWatermarkAt.toList⟩ := rfl
    rw [hworld]
    cases hmark : project.logsWatermarkAt with
    | none => exact ⟨⟨.nil, hmark.symm, List.prefix_rfl⟩, .inl ⟨rfl, hboundary, rfl⟩⟩
    | some mark =>
      refine ⟨⟨List.pairwise_singleton _ _, hmark.symm, List.prefix_rfl⟩,
        .inr ⟨by simp, mark, .inl rfl, ?_, by simp [hmark]⟩⟩
      intro m hm
      obtain rfl : mark = m := Option.some_inj.mp (hmark.symm.trans hm)
      rw [hboundary]
      exact Taken.start _ _
  | append_singleton ticks tick ih =>
    intro world
    obtain ⟨hmarks, hstate⟩ := ih
    have hworld : world = pollProject timestampMs store (run store project ticks) tick := by
      simp [world, run]
    rw [hworld]
    rcases hstate with ⟨hnone, hnoids, hnothing⟩ | ⟨hsome, first, hstarts, hshipped⟩
    · have hfresh : Shipped store (lookbackStart tick.now) (run store project ticks) :=
        ⟨by simp [hnone], fun _ => ⟨hnoids, hnothing⟩⟩
      obtain ⟨hmarks', hshipped'⟩ := pollProject_spec tick (fun _ => rfl) hmarks hfresh
      refine ⟨hmarks', ?_⟩
      by_cases hstill : (pollProject timestampMs store (run store project ticks)
          tick).project.logsWatermarkAt = none
      · exact .inl ⟨hstill, (hshipped'.fresh hstill).1, (hshipped'.fresh hstill).2⟩
      · have hempty : project.logsWatermarkAt = none := by
          have hgrew := hmarks.grew
          rw [List.getLast?_eq_none_iff.mp (hmarks.current.trans hnone)] at hgrew
          simpa using hgrew
        exact .inr ⟨hstill, _, .inr ⟨hempty, tick, by simp, rfl⟩, hshipped'⟩
    · have hsame : Marks (run store project ticks).watermarks (run store project ticks) :=
        ⟨hmarks.sorted, hmarks.current, List.prefix_rfl⟩
      obtain ⟨hkept, hshipped'⟩ := pollProject_spec tick (fun h => absurd h hsome) hsame hshipped
      have hstill : (pollProject timestampMs store (run store project ticks)
          tick).project.logsWatermarkAt ≠ none := by
        intro hnone
        have hgrew := hkept.grew
        rw [List.getLast?_eq_none_iff.mp (hkept.current.trans hnone), List.prefix_nil] at hgrew
        exact hsome (by rw [← hmarks.current, hgrew]; rfl)
      refine ⟨⟨hkept.sorted, hkept.current, hmarks.grew.trans hkept.grew⟩,
        .inr ⟨hstill, first, ?_, hshipped'⟩⟩
      rcases hstarts with hat | ⟨hempty, t, ht, hfirst⟩
      · exact .inl hat
      · exact .inr ⟨hempty, t, List.mem_append_left _ ht, hfirst⟩

variable (store) in
/-- After any ticks, whatever queries and chunks failed: each decodable row from the first watermark
up to the stored one, and each row the stored ids name, was accepted by ingest once; nothing beyond
them was; and the stored watermarks only grew. -/
theorem polled_logs_shipped_once (project : Project) (hboundary : project.logsBoundaryIds = [])
    (ticks : List Tick) :
    let world := run store project ticks
    let accepted := world.accepted.map LogRow.id
    world.watermarks.Pairwise (· ≤ ·) ∧
    (world.project.logsWatermarkAt = none → accepted = [] ∧ world.project.logsBoundaryIds = []) ∧
    ∀ mark, world.project.logsWatermarkAt = some mark →
      world.watermarks.getLast? = some mark ∧
      project.logsWatermarkAt.toList <+: world.watermarks ∧
      ∃ first, Starts project.logsWatermarkAt ticks first ∧ first ≤ mark ∧
        (∀ row ∈ store.rows,
          (first ≤ row.ms ∧ row.ms < mark ∧ (decodeLogRow timestampMs row.raw).isSome ∨
              row.id ∈ world.project.logsBoundaryIds) →
            accepted.count row.id = 1) ∧
        ∀ row ∈ store.rows, mark ≤ row.ms → row.id ∉ world.project.logsBoundaryIds →
          row.id ∉ accepted := by
  intro world accepted
  obtain ⟨hmarks, hstate⟩ := run_spec store project hboundary ticks
  refine ⟨hmarks.sorted, fun hnone => ?_, fun mark hmark => ?_⟩
  · rcases hstate with ⟨-, hnoids, hnothing⟩ | ⟨hsome, -⟩
    · exact ⟨by simp [accepted, world, hnothing], hnoids⟩
    · exact absurd hnone hsome
  refine ⟨hmarks.current.trans hmark, hmarks.grew, ?_⟩
  rcases hstate with ⟨hnone, -⟩ | ⟨-, first, hstarts, hshipped⟩
  · exact absurd (hnone.symm.trans hmark) (by simp)
  have htaken := hshipped.taken mark hmark
  refine ⟨first, hstarts, htaken.first_le, ?_, ?_⟩
  · rintro row hrow (⟨hfirst, hlt, hdecodes⟩ | hseen)
    · obtain ⟨d, hd⟩ := Option.isSome_iff_exists.mp hdecodes
      obtain ⟨hid, hms⟩ := store.decoded row hrow d hd
      have hmem : d ∈ store.decodedRows := List.mem_filterMap.mpr ⟨row, hrow, hd⟩
      rw [← hid]
      exact htaken.once store.decodedRows_distinct hmem (by omega) (.inl (by omega))
    · obtain ⟨d, hd, hid, -⟩ := htaken.named _ hseen
      rw [← hid] at hseen ⊢
      exact htaken.named_once store.decodedRows_distinct (htaken.mem_rows hd).1 hseen
  · intro row hrow hbeyond hunseen hin
    obtain ⟨d, hd, hid⟩ := List.mem_map.mp hin
    have hmem := (htaken.mem_rows hd).1
    obtain ⟨row', hrow', hd'⟩ := List.mem_filterMap.mp hmem
    obtain ⟨hid', hms⟩ := store.decoded row' hrow' d hd'
    obtain rfl := List.inj_on_of_nodup_map store.distinct hrow' hrow (hid'.symm.trans hid)
    refine htaken.not_beyond store.decodedRows_distinct hmem (by omega) ?_ ?_
    · rw [hid]
      exact hunseen
    · rw [hid]
      exact hin

end Store

/-! ## A sample run -/

def sampleTimestampMs (text : String) : Option Int :=
  if text = "2026-10-21T17:48:12Z" then some 1792604892000 else none

def sampleRaw (id timestamp : String) : Json :=
  .object [("id", .string id), ("timestamp", .string timestamp), ("source", .string "auth_logs"),
    ("event_message", .null)]

/-- Two rows in one millisecond, and one without a source. -/
def sampleRows : List RawRow :=
  [⟨"a", 1792604892059679000, sampleRaw "a" "2026-10-21T17:48:12.059679"⟩,
    ⟨"b", 1792604892059900000, sampleRaw "b" "2026-10-21 17:48:12.0599Z"⟩,
    ⟨"c", 1792604892100000000, .object [("id", .string "c")]⟩]

lemma sampleRows_decoded : ∀ row ∈ sampleRows,
    (decodeLogRow sampleTimestampMs row.raw).all fun d => d.id == row.id && d.ms == row.ms := by
  decide

def sampleStore : LogStore sampleTimestampMs where
  rows := sampleRows
  sorted := by decide
  distinct := by decide
  perMs _ := (List.length_filter_le _ _).trans (by decide)
  decoded row hrow d hd := by
    simpa [hd] using sampleRows_decoded row hrow

/-- The first tick's chunk is refused, the second tick reads the window again. -/
def sampleTicks : List Tick :=
  [⟨1792604990000, 1792604990001,
      fun _ => ⟨1792604990002, .ok (), fun _ => .error ⟨"busy", some 503⟩⟩⟩,
    ⟨1792605050000, 1792605050001, fun _ => ⟨1792605050002, .ok (), fun _ => .ok ()⟩⟩]

def sampleProject : Project :=
  enableLogs ⟨false, none, ["stale"], some 5, none, none⟩ 1792604900000

theorem polled_logs_shipped_once_sample :
    (run sampleStore sampleProject sampleTicks).accepted.map LogRow.id = ["a", "b"] ∧
      (run sampleStore sampleProject sampleTicks).watermarks = [1792604600000, 1792604990000] ∧
      (run sampleStore sampleProject sampleTicks).watermarks.Pairwise (· ≤ ·) :=
  ⟨by decide, by decide,
    (polled_logs_shipped_once sampleStore sampleProject rfl sampleTicks).1⟩

end Maple.SupabaseLogs
