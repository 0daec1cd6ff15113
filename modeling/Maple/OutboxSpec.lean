import Maple.OutboxConsumers

/-! What each transaction of the outbox does to the ready events. -/

namespace Maple.Outbox

/-- The tables agree with each other. -/
structure Consistent (store : OutboxStore) : Prop where
  keyed : ∀ id e, store.events.get id = some e → e.eventId = id
  sorted : store.ready.Pairwise fun a b => a.sequence < b.sequence
  given : ∀ r ∈ store.ready, r.sequence < store.nextSequence
  started : 0 < store.nextSequence
  ids : (store.ready.map (·.eventId)).Nodup
  stored : ∀ r ∈ store.ready, ∃ e, store.events.get r.eventId = some e ∧ e.state = .ready
  consumerKeyed : ∀ id c, store.consumers.get id = some c → c.consumerId = id

namespace OutboxStore

lemma mem_readyOf {store : OutboxStore} {tenantId : String} {r : ReadyEvent} :
    r ∈ store.readyOf tenantId ↔
      r ∈ store.ready ∧ ∃ e, store.events.get r.eventId = some e ∧ e.tenantId = tenantId := by
  unfold readyOf
  rw [List.mem_filter]
  cases hget : store.events.get r.eventId with
  | none => simp
  | some e => simp

lemma consumerRow_some {store : OutboxStore} {tenantId consumerId : String} {c : ConsumerRow}
    (h : store.consumerRow tenantId consumerId = some c) :
    store.consumers.get consumerId = some c ∧ c.tenantId = tenantId := by
  unfold consumerRow at h
  rw [Option.filter_eq_some_iff, decide_eq_true_eq] at h
  exact h

/-- A sequence of the tenant that is still in the outbox. -/
def Present (store : OutboxStore) (tenantId : String) (q : ℕ) : Prop :=
  ∃ r ∈ store.readyOf tenantId, r.sequence = q

end OutboxStore

open OutboxStore

/-- Remove an event from both tables. -/
def removeEvent (store : OutboxStore) (eventId : String) : OutboxStore :=
  (store.deleteReady eventId).deleteEventWhere eventId fun _ => true

def removeEvents (store : OutboxStore) (eventIds : List String) : OutboxStore :=
  eventIds.foldl removeEvent store

section

variable {store : OutboxStore} {eventId : String}

lemma ready_removeEvent :
    (removeEvent store eventId).ready = store.ready.filter fun r => r.eventId ≠ eventId := by
  unfold removeEvent deleteEventWhere
  split
  · rfl
  · rfl

lemma events_removeEvent (id : String) : (removeEvent store eventId).events.get id =
    if id = eventId then none else store.events.get id := by
  unfold removeEvent deleteEventWhere
  cases hget : store.events.get eventId with
  | none =>
    simp only [deleteReady, hget]
    split_ifs with hid
    · rw [hid, hget]
    · rfl
  | some e => simp only [deleteReady, hget, if_true, InsertMap.get_erase]

/-- Removing an event leaves everything else alone. -/
lemma frame_removeEvent : (removeEvent store eventId).consumers = store.consumers ∧
    (removeEvent store eventId).gaps = store.gaps ∧
    (removeEvent store eventId).limits = store.limits ∧
    (removeEvent store eventId).nextSequence = store.nextSequence := by
  unfold removeEvent deleteEventWhere
  split
  · exact ⟨rfl, rfl, rfl, rfl⟩
  · exact ⟨rfl, rfl, rfl, rfl⟩

end

section

variable (store : OutboxStore) (eventIds : List String)

lemma ready_removeEvents : (removeEvents store eventIds).ready =
    store.ready.filter fun r => r.eventId ∉ eventIds := by
  unfold removeEvents
  induction eventIds generalizing store with
  | nil => simp
  | cons id rest ih =>
    rw [List.foldl_cons, ih, ready_removeEvent, List.filter_filter]
    apply List.filter_congr
    intro r _
    by_cases hid : r.eventId = id
    · simp [hid]
    · simp [hid]

lemma events_removeEvents (id : String) : (removeEvents store eventIds).events.get id =
    if id ∈ eventIds then none else store.events.get id := by
  unfold removeEvents
  induction eventIds generalizing store with
  | nil => simp
  | cons first rest ih =>
    rw [List.foldl_cons, ih, events_removeEvent]
    by_cases hid : id = first
    · simp [hid]
    · simp [hid]

lemma frame_removeEvents : (removeEvents store eventIds).consumers = store.consumers ∧
    (removeEvents store eventIds).gaps = store.gaps ∧
    (removeEvents store eventIds).limits = store.limits ∧
    (removeEvents store eventIds).nextSequence = store.nextSequence := by
  unfold removeEvents
  induction eventIds generalizing store with
  | nil => exact ⟨rfl, rfl, rfl, rfl⟩
  | cons id rest ih =>
    rw [List.foldl_cons]
    obtain ⟨hconsumers, hgaps, hlimits, hnext⟩ := ih (removeEvent store id)
    obtain ⟨hconsumers', hgaps', hlimits', hnext'⟩ := @frame_removeEvent store id
    exact ⟨hconsumers.trans hconsumers', hgaps.trans hgaps', hlimits.trans hlimits',
      hnext.trans hnext'⟩

end

lemma readyOf_removeEvents (store : OutboxStore) (eventIds : List String) (tenantId : String) :
    (removeEvents store eventIds).readyOf tenantId =
      (store.readyOf tenantId).filter fun r => r.eventId ∉ eventIds := by
  unfold readyOf
  rw [ready_removeEvents, List.filter_filter, List.filter_filter]
  apply List.filter_congr
  intro r _
  rw [events_removeEvents]
  by_cases hid : r.eventId ∈ eventIds
  · simp [hid]
  · simp [hid]

lemma mem_readyOf_removeEvents {store : OutboxStore} {eventIds : List String} {tenantId : String}
    {r : ReadyEvent} : r ∈ (removeEvents store eventIds).readyOf tenantId ↔
      r ∈ store.readyOf tenantId ∧ r.eventId ∉ eventIds := by
  rw [readyOf_removeEvents, List.mem_filter, decide_eq_true_eq]

lemma Consistent.removeEvents {store : OutboxStore} (h : Consistent store)
    (eventIds : List String) : Consistent (removeEvents store eventIds) := by
  obtain ⟨hconsumers, -, -, hnext⟩ := frame_removeEvents store eventIds
  have hsub : (Outbox.removeEvents store eventIds).ready.Sublist store.ready := by
    rw [ready_removeEvents]
    exact List.filter_sublist
  refine ⟨?_, h.sorted.sublist hsub, ?_, ?_, h.ids.sublist (hsub.map _), ?_, ?_⟩
  · intro id e he
    rw [events_removeEvents] at he
    split_ifs at he
    exact h.keyed id e he
  · intro r hr
    rw [hnext]
    exact h.given r (hsub.subset hr)
  · rw [hnext]
    exact h.started
  · intro r hr
    rw [ready_removeEvents, List.mem_filter, decide_eq_true_eq] at hr
    rw [events_removeEvents, if_neg hr.2]
    exact h.stored r hr.1
  · rw [hconsumers]
    exact h.consumerKeyed

/-- Two rows of the same event are one. -/
lemma Consistent.eq_of_eventId {store : OutboxStore} (h : Consistent store) {a b : ReadyEvent}
    (ha : a ∈ store.ready) (hb : b ∈ store.ready) (hid : a.eventId = b.eventId) : a = b :=
  List.inj_on_of_nodup_map h.ids ha hb hid

/-- The rows a prune deletes. -/
def prunedRows (store : OutboxStore) (tenantId : String) : List ReadyEvent :=
  match store.acknowledgedByAll tenantId with
  | none => []
  | some boundary =>
    let rows := (store.readyOf tenantId).filter fun r => r.sequence ≤ boundary
    rows.take (rows.length - store.limits.retainAcknowledgedReadyEvents)

lemma prunedRows_sublist (store : OutboxStore) (tenantId : String) :
    (prunedRows store tenantId).Sublist (store.readyOf tenantId) := by
  unfold prunedRows
  split
  · exact List.nil_sublist _
  · exact (List.take_sublist _ _).trans List.filter_sublist

/-- Deleting a row's event is removing it, as the event of a row is ready. -/
lemma deleteReady_eq {store : OutboxStore} (h : Consistent store) {r : ReadyEvent}
    (hr : r ∈ store.ready) :
    (store.deleteReady r.eventId).deleteReadyEvent r.eventId = removeEvent store r.eventId := by
  obtain ⟨e, he, hstate⟩ := h.stored r hr
  simp only [deleteReady, deleteReadyEvent, deleteEventWhere, he, hstate, decide_true, if_true,
    removeEvent]

lemma pruneAcknowledgedReady_eq {store : OutboxStore} (h : Consistent store) (tenantId : String) :
    (store.pruneAcknowledgedReady tenantId).1 =
      removeEvents store ((prunedRows store tenantId).map (·.eventId)) := by
  have hfold : ∀ (rows : List ReadyEvent) (s : OutboxStore), Consistent s →
      (rows.map (·.eventId)).Nodup → (∀ r ∈ rows, r ∈ s.ready) →
      rows.foldl (fun s row => (s.deleteReady row.eventId).deleteReadyEvent row.eventId) s =
        removeEvents s (rows.map (·.eventId)) := by
    intro rows
    induction rows with
    | nil =>
      intro s _ _ _
      rfl
    | cons row rest ih =>
      intro s hs hnodup hmem
      rw [List.map_cons, List.nodup_cons] at hnodup
      have hone : removeEvent s row.eventId = removeEvents s [row.eventId] := rfl
      rw [List.foldl_cons, deleteReady_eq hs (hmem row (List.mem_cons_self ..)), hone]
      rw [ih _ (hs.removeEvents _) hnodup.2]
      · rfl
      · intro r hr
        rw [ready_removeEvents, List.mem_filter, decide_eq_true_eq, List.mem_singleton]
        constructor
        · exact hmem r (List.mem_cons_of_mem _ hr)
        · intro hid
          apply hnodup.1
          rw [← hid]
          exact List.mem_map_of_mem hr
  have hsub := prunedRows_sublist store tenantId
  have hready : (store.readyOf tenantId).Sublist store.ready := List.filter_sublist
  have hpruned := hfold (prunedRows store tenantId) store h
    (h.ids.sublist ((hsub.trans hready).map _)) fun r hr => (hsub.trans hready).subset hr
  rw [← hpruned]
  unfold pruneAcknowledgedReady prunedRows
  cases store.acknowledgedByAll tenantId with
  | none => rfl
  | some boundary => rfl

/-- Every active consumer of the tenant has acknowledged the boundary of a prune. -/
lemma acknowledgedByAll_le {store : OutboxStore} {tenantId : String} {boundary : ℕ}
    (hboundary : store.acknowledgedByAll tenantId = some boundary) {id : String} {c : ConsumerRow}
    (hc : store.consumers.get id = some c) (htenant : c.tenantId = tenantId)
    (hactive : c.active = true) : boundary ≤ c.lastAckedSequence := by
  unfold acknowledgedByAll at hboundary
  have hmin := List.min?_eq_some_iff.mp hboundary
  apply hmin.2
  apply List.mem_map_of_mem
  rw [List.mem_filter, decide_eq_true_eq]
  exact ⟨InsertMap.mem_values.mpr ⟨id, hc⟩, htenant, hactive⟩

/-- Taking rows from the front keeps the rest, which is newer. -/
lemma take_keeps_newest {rows all : List ReadyEvent} {count boundary : ℕ} {r : ReadyEvent}
    (hsorted : rows.Pairwise fun a b => a.sequence < b.sequence) (hsub : rows.Sublist all)
    (hbound : ∀ x ∈ rows, x.sequence ≤ boundary) (hr : r ∈ rows.take count) :
    rows.length - count ≤ (all.filter fun x =>
      x ∉ rows.take count ∧ r.sequence < x.sequence ∧ x.sequence ≤ boundary).length := by
  rw [← List.take_append_drop count rows, List.pairwise_append] at hsorted
  have hkept : ∀ x ∈ rows.drop count, x ∉ rows.take count ∧ r.sequence < x.sequence ∧
      x.sequence ≤ boundary := by
    intro x hx
    refine ⟨?_, hsorted.2.2 r hr x hx, hbound x (List.drop_subset _ _ hx)⟩
    intro htake
    exact lt_irrefl _ (hsorted.2.2 x htake x hx)
  have hself : (rows.drop count).filter (fun x => x ∉ rows.take count ∧
      r.sequence < x.sequence ∧ x.sequence ≤ boundary) = rows.drop count := by
    apply List.filter_eq_self.mpr
    intro x hx
    simpa using hkept x hx
  rw [← List.length_drop, ← hself]
  exact (((List.drop_sublist _ _).trans hsub).filter _).length_le

/-- A prune deletes rows that every active consumer has acknowledged, and keeps the newest of
those: at least as many as are to be retained are newer than a deleted one. -/
lemma prunedRows_acknowledged {store : OutboxStore} (h : Consistent store) {tenantId : String}
    {r : ReadyEvent} (hr : r ∈ prunedRows store tenantId) :
    ∃ boundary, store.acknowledgedByAll tenantId = some boundary ∧ r.sequence ≤ boundary ∧
      store.limits.retainAcknowledgedReadyEvents ≤
        ((store.readyOf tenantId).filter fun x =>
          x ∉ prunedRows store tenantId ∧ r.sequence < x.sequence ∧ x.sequence ≤ boundary).length := by
  cases hboundary : store.acknowledgedByAll tenantId with
  | none =>
    rw [prunedRows, hboundary] at hr
    cases hr
  | some boundary =>
    have hdef : prunedRows store tenantId =
        let rows := (store.readyOf tenantId).filter fun x => x.sequence ≤ boundary
        rows.take (rows.length - store.limits.retainAcknowledgedReadyEvents) := by
      rw [prunedRows, hboundary]
    rw [hdef] at hr ⊢
    dsimp only at hr ⊢
    generalize hrows : (store.readyOf tenantId).filter (fun x => x.sequence ≤ boundary) = rows
      at hr ⊢
    have hbound : ∀ x ∈ rows, x.sequence ≤ boundary := by
      intro x hx
      rw [← hrows, List.mem_filter, decide_eq_true_eq] at hx
      exact hx.2
    have hsub : rows.Sublist (store.readyOf tenantId) := hrows ▸ List.filter_sublist
    have hsorted : rows.Pairwise fun a b => a.sequence < b.sequence :=
      (h.sorted.sublist List.filter_sublist).sublist hsub
    have hmany : store.limits.retainAcknowledgedReadyEvents < rows.length := by
      by_contra hfew
      rw [Nat.sub_eq_zero_of_le (not_lt.mp hfew)] at hr
      cases hr
    have hnewest := take_keeps_newest hsorted hsub hbound hr
    refine ⟨boundary, rfl, hbound r (List.take_subset _ _ hr), le_trans ?_ hnewest⟩
    omega

/-- What marking events ready adds: rows with new sequences, and nothing else of interest. -/
structure Marked (store store' : OutboxStore) : Prop where
  ready : ∃ new, store'.ready = store.ready ++ new ∧ ∀ r ∈ new, store.nextSequence ≤ r.sequence
  tenant : ∀ id, (store'.events.get id).map (·.tenantId) = (store.events.get id).map (·.tenantId)
  next : store.nextSequence ≤ store'.nextSequence
  consumers : store'.consumers = store.consumers
  gaps : store'.gaps = store.gaps
  limits : store'.limits = store.limits

lemma Marked.refl (store : OutboxStore) : Marked store store :=
  ⟨⟨[], by simp⟩, fun _ => rfl, le_rfl, rfl, rfl, rfl⟩

lemma Marked.trans {a b c : OutboxStore} (h : Marked a b) (h' : Marked b c) : Marked a c := by
  obtain ⟨new, hready, hnew⟩ := h.ready
  obtain ⟨new', hready', hnew'⟩ := h'.ready
  refine ⟨⟨new ++ new', ?_, ?_⟩, fun id => (h'.tenant id).trans (h.tenant id),
    h.next.trans h'.next, h'.consumers.trans h.consumers, h'.gaps.trans h.gaps,
    h'.limits.trans h.limits⟩
  · rw [hready', hready, List.append_assoc]
  · intro r hr
    rcases List.mem_append.mp hr with hr | hr
    · exact hnew r hr
    · exact h.next.trans (hnew' r hr)

lemma marked_row {store : OutboxStore} {event : OutboxEvent}
    (hevent : store.events.get event.eventId = some event) (readyAt : InstantText) :
    Marked store (markReadyRow store event readyAt) := by
  refine ⟨⟨[⟨store.nextSequence, event.eventId, readyAt⟩], rfl, ?_⟩, ?_, ?_, rfl, rfl, rfl⟩
  · intro r hr
    rw [List.mem_singleton.mp hr]
  · intro id
    simp only [markReadyRow, InsertMap.get_set]
    split_ifs with hid
    · rw [hid, hevent]
      rfl
    · rfl
  · exact Nat.le_succ _

lemma consistent_markReadyRow {store : OutboxStore} (h : Consistent store) {event : OutboxEvent}
    (hevent : store.events.get event.eventId = some event) (hstaged : event.state ≠ .ready)
    (readyAt : InstantText) : Consistent (markReadyRow store event readyAt) := by
  have hfresh : ∀ r ∈ store.ready, r.eventId ≠ event.eventId := by
    intro r hr hid
    obtain ⟨e, he, hstate⟩ := h.stored r hr
    rw [hid, hevent] at he
    exact hstaged (Option.some.inj he ▸ hstate)
  refine ⟨?_, ?_, ?_, Nat.succ_pos _, ?_, ?_, h.consumerKeyed⟩
  · intro id e he
    simp only [markReadyRow, InsertMap.get_set] at he
    split_ifs at he with hid
    · rw [← Option.some.inj he, hid]
    · exact h.keyed id e he
  · apply List.pairwise_append.mpr
    refine ⟨h.sorted, List.pairwise_singleton _ _, ?_⟩
    intro a ha b hb
    rw [List.mem_singleton.mp hb]
    exact h.given a ha
  · intro r hr
    rcases List.mem_append.mp hr with hr | hr
    · exact Nat.lt_succ_of_lt (h.given r hr)
    · rw [List.mem_singleton.mp hr]
      exact Nat.lt_succ_self _
  · simp only [markReadyRow, List.map_append, List.map_cons, List.map_nil]
    apply List.nodup_append.mpr
    refine ⟨h.ids, by simp, ?_⟩
    intro id hid id' hid' heq
    obtain ⟨r, hr, rfl⟩ := List.mem_map.mp hid
    exact hfresh r hr (heq.trans (List.mem_singleton.mp hid'))
  · intro r hr
    simp only [markReadyRow, InsertMap.get_set]
    rcases List.mem_append.mp hr with hr | hr
    · rw [if_neg (hfresh r hr)]
      exact h.stored r hr
    · rw [List.mem_singleton.mp hr, if_pos rfl]
      exact ⟨_, rfl, rfl⟩

lemma markReadyLoop_spec {store store' : OutboxStore} {eventIds : List String} {readyAt : InstantText}
    {marked marked' : ℕ} (h : Consistent store)
    (hloop : markReadyLoop readyAt store marked eventIds = .ok (store', marked')) :
    Consistent store' ∧ Marked store store' := by
  induction eventIds generalizing store marked with
  | nil =>
    obtain ⟨rfl, -⟩ := Prod.mk.inj (Except.ok.inj hloop)
    exact ⟨h, Marked.refl _⟩
  | cons id rest ih =>
    rw [markReadyLoop] at hloop
    split at hloop
    · cases hloop
    · rename_i event hevent
      split_ifs at hloop with hstate
      · exact ih h hloop
      · have hkey := h.keyed id event hevent
        rw [← hkey] at hevent
        obtain ⟨hcons, hmarked⟩ := ih (consistent_markReadyRow h hevent hstate readyAt) hloop
        exact ⟨hcons, (marked_row hevent readyAt).trans hmarked⟩

/-- What staging leaves alone. -/
structure Staged (store store' : OutboxStore) : Prop where
  ready : store'.ready = store.ready
  next : store'.nextSequence = store.nextSequence
  consumers : store'.consumers = store.consumers
  limits : store'.limits = store.limits
  events : ∀ id e, store.events.get id = some e → store'.events.get id = some e

lemma Staged.refl (store : OutboxStore) : Staged store store :=
  ⟨rfl, rfl, rfl, rfl, fun _ _ h => h⟩

lemma Staged.trans {a b c : OutboxStore} (h : Staged a b) (h' : Staged b c) : Staged a c :=
  ⟨h'.ready.trans h.ready, h'.next.trans h.next, h'.consumers.trans h.consumers,
    h'.limits.trans h.limits, fun id e he => h'.events id e (h.events id e he)⟩

lemma staged_recordDeliveryGap (store : OutboxStore) (tenantId : String) (count : ℕ) (now : InstantText) :
    Staged store (store.recordDeliveryGap tenantId count now) := by
  unfold recordDeliveryGap
  split_ifs
  · exact Staged.refl store
  · exact ⟨rfl, rfl, rfl, rfl, fun _ _ h => h⟩

lemma Consistent.recordDeliveryGap {store : OutboxStore} (h : Consistent store) (tenantId : String)
    (count : ℕ) (now : InstantText) : Consistent (store.recordDeliveryGap tenantId count now) := by
  unfold OutboxStore.recordDeliveryGap
  split_ifs
  · exact h
  · exact ⟨h.keyed, h.sorted, h.given, h.started, h.ids, h.stored, h.consumerKeyed⟩

lemma stageEvent_spec {request : StageRequest} {progress progress' : StageProgress}
    {candidate : Except String ValidEvent} (h : Consistent progress.store)
    (hturn : stageEvent request progress candidate = .ok progress') :
    Consistent progress'.store ∧ Staged progress.store progress'.store := by
  unfold stageEvent at hturn
  split at hturn
  · cases hturn
  · rename_i event
    split at hturn
    · cases hturn
    · rename_i sourceKind _
      dsimp only at hturn
      split at hturn
      · split at hturn
        · cases hturn
        · obtain rfl := Except.ok.inj hturn
          exact ⟨h, Staged.refl _⟩
      · rename_i hnew
        split_ifs at hturn
        · obtain rfl := Except.ok.inj hturn
          exact ⟨h, Staged.refl _⟩
        · obtain rfl := Except.ok.inj hturn
          have hevents : ∀ id e, progress.store.events.get id = some e →
              (progress.store.insertEvent (stagedRow request event sourceKind)).events.get id =
                some e := by
            intro id e he
            simp only [insertEvent, InsertMap.get_set]
            rw [if_neg]
            · exact he
            · intro hid
              rw [hid, stagedRow, hnew] at he
              cases he
          refine ⟨⟨?_, h.sorted, h.given, h.started, h.ids, ?_, h.consumerKeyed⟩,
            rfl, rfl, rfl, rfl, hevents⟩
          · intro id e he
            simp only [insertEvent, InsertMap.get_set] at he
            split_ifs at he with hid
            · rw [← Option.some.inj he, hid]
            · exact h.keyed id e he
          · intro r hr
            obtain ⟨e, he, hstate⟩ := h.stored r hr
            exact ⟨e, hevents _ _ he, hstate⟩

lemma stageLoop_spec {request : StageRequest} {candidates : List (Except String ValidEvent)}
    {progress progress' : StageProgress} (h : Consistent progress.store)
    (hloop : stageLoop request progress candidates = .ok progress') :
    Consistent progress'.store ∧ Staged progress.store progress'.store := by
  induction candidates generalizing progress with
  | nil =>
    obtain rfl := Except.ok.inj hloop
    exact ⟨h, Staged.refl _⟩
  | cons candidate rest ih =>
    rw [stageLoop] at hloop
    split at hloop
    · cases hloop
    · rename_i mid hturn
      obtain ⟨hmid, hstaged⟩ := stageEvent_spec h hturn
      obtain ⟨hlast, hrest⟩ := ih hmid hloop
      exact ⟨hlast, hstaged.trans hrest⟩

theorem stageEvents_spec {request : StageRequest} {store store' : OutboxStore}
    {result : StageResult} (h : Consistent store)
    (hstage : stageEvents request store = .ok (store', result)) :
    Consistent store' ∧ Staged store store' := by
  have hgaps : ∀ (dropped : List (String × ℕ)) (s : OutboxStore), Consistent s →
      Consistent (dropped.foldl
        (fun s entry => s.recordDeliveryGap entry.1 entry.2 request.stagedAt) s) ∧
      Staged s (dropped.foldl
        (fun s entry => s.recordDeliveryGap entry.1 entry.2 request.stagedAt) s) := by
    intro dropped
    induction dropped with
    | nil =>
      intro s hs
      exact ⟨hs, Staged.refl s⟩
    | cons entry rest ih =>
      intro s hs
      obtain ⟨hcons, hstaged⟩ := ih _ (hs.recordDeliveryGap entry.1 entry.2 request.stagedAt)
      exact ⟨hcons, (staged_recordDeliveryGap s _ _ _).trans hstaged⟩
  unfold stageEvents at hstage
  dsimp only at hstage
  split at hstage
  · cases hstage
  · rename_i progress hloop
    obtain ⟨rfl, -⟩ := Prod.mk.inj (Except.ok.inj hstage)
    obtain ⟨hmid, hstaged⟩ := stageLoop_spec h hloop
    obtain ⟨hcons, hgap⟩ := hgaps progress.droppedByTenant.entries _ hmid
    exact ⟨hcons, hstaged.trans hgap⟩

lemma deleteTenantEvent_eq {store : OutboxStore} {tenantId eventId : String} {e : OutboxEvent}
    (he : store.events.get eventId = some e) (htenant : e.tenantId = tenantId) :
    (store.deleteReady eventId).deleteTenantEvent tenantId eventId = removeEvent store eventId := by
  simp only [deleteReady, deleteTenantEvent, deleteEventWhere, he, htenant, decide_true, if_true,
    removeEvent]

/-- Abandoning removes the events, records a gap and clears the leases. -/
theorem abandonEvents_ok {tenantId : String} {eventIds : List String} {now : InstantText}
    {store store' : OutboxStore} {result : ℕ × DeliveryGap}
    (h : abandonEvents tenantId eventIds now store = .ok (store', result)) :
    (∀ id ∈ eventIds, ∃ e, store.events.get id = some e ∧ e.tenantId = tenantId) ∧
    store' = clearLeases ((removeEvents store eventIds).recordDeliveryGap tenantId
      eventIds.length now) tenantId := by
  unfold abandonEvents at h
  split_ifs at h with hinvalid
  have hnodup : eventIds.Nodup := by
    by_contra hdup
    exact hinvalid (Or.inr (Or.inr hdup))
  split at h
  · cases h
  · rename_i hfind
    obtain ⟨rfl, -⟩ := Prod.mk.inj (Except.ok.inj h)
    have hknown : ∀ id ∈ eventIds, ∃ e, store.events.get id = some e ∧ e.tenantId = tenantId := by
      intro id hid
      have hany := List.find?_eq_none.mp hfind id hid
      cases hget : store.events.get id with
      | none => simp [hget] at hany
      | some e => exact ⟨e, rfl, by simpa [hget] using hany⟩
    refine ⟨hknown, ?_⟩
    have hfold : ∀ (ids : List String) (s : OutboxStore), ids.Nodup →
        (∀ id ∈ ids, ∃ e, s.events.get id = some e ∧ e.tenantId = tenantId) →
        ids.foldl (fun s id => (s.deleteReady id).deleteTenantEvent tenantId id) s =
          removeEvents s ids := by
      intro ids
      induction ids with
      | nil =>
        intro s _ _
        rfl
      | cons id rest ih =>
        intro s hids hall
        obtain ⟨hid, hrest⟩ := List.nodup_cons.mp hids
        obtain ⟨e, he, htenant⟩ := hall id (List.mem_cons_self ..)
        have hone : removeEvent s id = removeEvents s [id] := rfl
        rw [List.foldl_cons, deleteTenantEvent_eq he htenant, hone, ih _ hrest]
        · rfl
        · intro other hother
          rw [events_removeEvents, if_neg]
          · exact hall other (List.mem_cons_of_mem _ hother)
          · intro hmem
            exact hid (List.mem_singleton.mp hmem ▸ hother)
    rw [hfold eventIds store hnodup hknown]

theorem registerConsumer_ok {tenantId consumerId : String} {startAt : EventConsumerStart}
    {registeredAt : InstantText} {store store' : OutboxStore} {row : ConsumerRow}
    (h : registerConsumer tenantId consumerId startAt registeredAt store = .ok (store', row)) :
    store.consumers.get consumerId = none ∧ store' = setConsumer store row ∧
    row.consumerId = consumerId ∧ row.tenantId = tenantId ∧ row.active = true ∧
    row.lastAckedSequence = startingPoint store tenantId startAt ∧ row.lease = none ∧
    row.disabledAt = none ∧ row.registeredAt = registeredAt ∧
    canonicalInstant registeredAt ≠ none := by
  unfold registerConsumer at h
  split_ifs at h with _ hinstant
  split at h
  · cases h
  · split at h
    · cases h
    · rename_i hnone
      obtain ⟨rfl, rfl⟩ := Prod.mk.inj (Except.ok.inj h)
      exact ⟨hnone, rfl, rfl, rfl, rfl, rfl, rfl, rfl, rfl, hinstant⟩

theorem acceptDeliveryGap_ok {tenantId consumerId : String} {generation : ℕ}
    {store store' : OutboxStore} {gap : DeliveryGap}
    (h : acceptDeliveryGap tenantId consumerId generation store = .ok (store', gap)) :
    ∃ c, store.consumerRow tenantId consumerId = some c ∧
      store' = setConsumer store { c with acceptedGapGeneration := generation } := by
  unfold acceptDeliveryGap at h
  split_ifs at h
  split at h
  · cases h
  · rename_i c hc
    dsimp only at h
    split_ifs at h
    obtain ⟨rfl, -⟩ := Prod.mk.inj (Except.ok.inj h)
    exact ⟨c, hc, rfl⟩

theorem disableConsumer_ok {tenantId consumerId : String} {disabledAt : InstantText}
    {store store' : OutboxStore} {row : ConsumerRow}
    (h : disableConsumer tenantId consumerId disabledAt store = .ok (store', row)) :
    store' = store ∨ ∃ c, store.consumerRow tenantId consumerId = some c ∧
      canonicalInstant disabledAt ≠ none ∧ store' = ((setConsumer store { c with
        active := false
        lease := none
        disabledAt := some disabledAt }).pruneAcknowledgedReady tenantId).1 := by
  unfold disableConsumer at h
  split_ifs at h with _ hinstant
  split at h
  · cases h
  · rename_i c hc
    split_ifs at h
    · exact Or.inr ⟨c, hc, hinstant, (Prod.mk.inj (Except.ok.inj h)).1.symm⟩
    · exact Or.inl (Prod.mk.inj (Except.ok.inj h)).1.symm

lemma canonicalInstant_toISOString {milliseconds : ℤ} {text : InstantText}
    (h : toISOString milliseconds = some text) : canonicalInstant text = some milliseconds := by
  unfold toISOString at h
  split_ifs at h with hdate
  obtain rfl := Option.some.inj h
  rw [canonicalInstant, if_pos hdate]

/-- A consumer's lease, if it has one, has expired. -/
def LeaseExpired (c : ConsumerRow) (now : ℤ) : Prop :=
  ∀ l, c.lease = some l → ∃ expiresAt, canonicalInstant l.expiresAt = some expiresAt ∧
    expiresAt ≤ now

lemma heldLease_none {c : ConsumerRow} {now : ℤ} (h : heldLease c now = none) :
    LeaseExpired c now := by
  intro l hl
  unfold heldLease at h
  rw [hl] at h
  dsimp only at h
  split at h
  · cases h
  · rename_i expiresAt hexpires
    split_ifs at h with hlt
    exact ⟨expiresAt, hexpires, not_lt.mp hlt⟩

/-- A claim that is not refused finds no unaccepted gap and no unexpired lease, and hands out rows
under a new lease or clears the old one. -/
theorem claimReady_ok {tokenHash : String → String} {tenantId consumerId leaseToken : String}
    {limit leaseSeconds : ℕ} {claimedAt : InstantText} {store store' : OutboxStore}
    {claim : EventConsumerClaim}
    (h : claimReady tokenHash tenantId consumerId limit leaseSeconds leaseToken claimedAt store =
      .ok (store', claim)) :
    ∃ c now, store.consumerRow tenantId consumerId = some c ∧ c.active = true ∧
      (store.readDeliveryGap tenantId).generation ≤ c.acceptedGapGeneration ∧
      canonicalInstant claimedAt = some now ∧ LeaseExpired c now ∧
      ((claim.events = [] ∧ store' = setConsumer store { c with lease := none }) ∨
      ∃ last expiresAt, claim.events = (claimable store tenantId c.lastAckedSequence).take limit ∧
        claim.events.getLast? = some last ∧
        canonicalInstant expiresAt = some (now + leaseSeconds * 1000) ∧
        store' = setConsumer store { c with
          lease := some ⟨tokenHash leaseToken, expiresAt, last.sequence⟩ }) := by
  unfold claimReady at h
  split_ifs at h
  split at h
  · cases h
  · rename_i now hnow
    split at h
    · cases h
    · rename_i c hc
      dsimp only at h
      split_ifs at h with hgap hactive
      split at h
      · cases h
      · rename_i hheld
        refine ⟨c, now, hc, by simpa using hactive, not_lt.mp hgap, hnow, heldLease_none hheld, ?_⟩
        unfold grantClaim at h
        dsimp only at h
        split at h
        · obtain ⟨rfl, rfl⟩ := Prod.mk.inj (Except.ok.inj h)
          exact Or.inl ⟨rfl, rfl⟩
        · rename_i last hlast
          split at h
          · cases h
          · rename_i expiresAt hexpires
            obtain ⟨rfl, rfl⟩ := Prod.mk.inj (Except.ok.inj h)
            exact Or.inr ⟨last, expiresAt, rfl, hlast, canonicalInstant_toISOString hexpires, rfl⟩

/-- An acknowledgement is accepted for an active consumer's unexpired lease, with the lease's token
and for all it has claimed. -/
theorem acknowledgeClaim_ok {tokenHash : String → String} {tenantId consumerId leaseToken : String}
    {throughSequence : ℕ} {acknowledgedAt : InstantText} {store store' : OutboxStore}
    {result : EventConsumerAcknowledgement}
    (h : acknowledgeClaim tokenHash tenantId consumerId leaseToken throughSequence acknowledgedAt
      store = .ok (store', result)) :
    ∃ c lease now expiresAt, store.consumerRow tenantId consumerId = some c ∧ c.active = true ∧
      c.lease = some lease ∧ canonicalInstant acknowledgedAt = some now ∧
      canonicalInstant lease.expiresAt = some expiresAt ∧ now < expiresAt ∧
      tokenHashMatches tokenHash lease.tokenHash leaseToken = true ∧
      throughSequence = lease.claimedThrough ∧ result.acknowledgedThrough = throughSequence ∧
      store' = ((setConsumer store { c with
        lastAckedSequence := throughSequence
        lease := none }).pruneAcknowledgedReady tenantId).1 := by
  unfold acknowledgeClaim at h
  split_ifs at h
  split at h
  · cases h
  · rename_i now hnow
    split at h
    · cases h
    · rename_i c hc
      split_ifs at h with hactive
      split at h
      · cases h
      · rename_i lease hlease
        split at h
        · cases h
        · rename_i hcheck
          obtain ⟨rfl, rfl⟩ := Prod.mk.inj (Except.ok.inj h)
          unfold checkLease at hcheck
          split at hcheck
          · cases hcheck
          · rename_i expiresAt hexpires
            split_ifs at hcheck with hexpired htoken hthrough
            exact ⟨c, lease, now, expiresAt, hc, by simpa using hactive, hlease, hnow, hexpires,
              not_le.mp hexpired, by simpa using htoken, not_not.mp hthrough, rfl, rfl⟩

end Maple.Outbox
