import Maple.ControlDatabase

/-! What the outbox tables keep through every transaction on them. -/

namespace Maple.Control

open Outbox Outbox.OutboxStore

structure EventSound (store : OutboxStore) (e : OutboxEvent) : Prop where
  revision : 0 < e.projectionRevision
  staged : e.state = .staged → e.readyAt = none ∧
    (e.sourceOccurrenceId.isSome → badFingerprint e.sourceFingerprint = false)
  ready : e.state = .ready → ∃ r ∈ store.ready, r.eventId = e.eventId ∧ e.readyAt = some r.readyAt

structure ConsumerSound (c : ConsumerRow) : Prop where
  registered : canonicalInstant c.registeredAt ≠ none
  lease : ∀ l, c.lease = some l → canonicalInstant l.expiresAt ≠ none ∧
    c.lastAckedSequence < l.claimedThrough
  active : c.active = true ↔ c.disabledAt = none
  disabled : ∀ t, c.disabledAt = some t → canonicalInstant t ≠ none

structure GapSound (g : DeliveryGap) : Prop where
  generation : 0 < g.generation
  dropped : 0 < g.droppedEvents
  lastDropped : g.lastDroppedAt.isSome

def WithinLimits (limits : OutboxLimits) (usage : OutboxUsage) : Prop :=
  usage.count ≤ limits.maxOutboxEvents ∧ usage.bytes ≤ limits.maxOutboxBytes

structure OutboxSound (store : OutboxStore) : Prop where
  consistent : Consistent store
  accounted : store.usage = countedUsage store
  bounded : WithinLimits store.limits store.usage
  events : ∀ id e, store.events.get id = some e → EventSound store e
  consumers : ∀ id c, store.consumers.get id = some c → ConsumerSound c
  gaps : ∀ tenantId g, store.gaps.get tenantId = some g → GapSound g

lemma outboxSound_empty (limits : OutboxLimits) : OutboxSound (OutboxStore.empty limits) := by
  refine ⟨OutboxRun.consistent_empty limits, rfl, ⟨?_, ?_⟩, ?_, ?_, ?_⟩
  · exact Int.natCast_nonneg _
  · exact Int.natCast_nonneg _
  · intro id e he
    cases he
  · intro id c hc
    cases hc
  · intro tenantId g hg
    cases hg

section usage

variable {store : OutboxStore}

lemma countedUsage_insert {e : OutboxEvent} (h : store.usage = countedUsage store)
    (hnew : store.events.get e.eventId = none) :
    (store.insertEvent e).usage = countedUsage (store.insertEvent e) := by
  unfold insertEvent countedUsage
  dsimp only
  rw [h, InsertMap.values_set_new hnew]
  simp [countedUsage]

lemma countedUsage_removeEvent {id : String} (h : store.usage = countedUsage store) :
    (removeEvent store id).usage = countedUsage (removeEvent store id) := by
  unfold removeEvent deleteEventWhere
  cases hget : store.events.get id with
  | none =>
    simp only [deleteReady, hget]
    exact h
  | some e =>
    have hperm := InsertMap.values_erase_perm hget
    have hlength := hperm.length_eq
    have hbytes := (hperm.map fun e => (e.eventJson.utf8ByteSize : ℤ)).sum_eq
    rw [List.length_cons] at hlength
    rw [List.map_cons, List.sum_cons] at hbytes
    simp only [deleteReady, hget, if_true, h, countedUsage, hlength, hbytes]
    congr 1
    · push_cast
      ring
    · ring

lemma usage_removeEvent_le {id : String} : (removeEvent store id).usage.count ≤ store.usage.count ∧
    (removeEvent store id).usage.bytes ≤ store.usage.bytes := by
  unfold removeEvent deleteEventWhere
  cases hget : store.events.get id with
  | none =>
    simp only [deleteReady, hget]
    exact ⟨le_rfl, le_rfl⟩
  | some e =>
    simp only [deleteReady, hget, if_true]
    constructor
    · omega
    · omega

end usage

lemma OutboxSound.removeEvent {store : OutboxStore} (h : OutboxSound store) (id : String) :
    OutboxSound (removeEvent store id) := by
  obtain ⟨hconsumers, hgaps, hlimits, -⟩ := @frame_removeEvent store id
  obtain ⟨hcount, hbytes⟩ := @usage_removeEvent_le store id
  refine ⟨h.consistent.removeEvents [id], countedUsage_removeEvent h.accounted, ?_, ?_, ?_, ?_⟩
  · rw [hlimits]
    exact ⟨hcount.trans h.bounded.1, hbytes.trans h.bounded.2⟩
  · intro other e he
    rw [events_removeEvent] at he
    split_ifs at he with hid
    have hsound := h.events other e he
    refine ⟨hsound.revision, hsound.staged, ?_⟩
    intro hready
    obtain ⟨r, hr, hrid, hat⟩ := hsound.ready hready
    refine ⟨r, ?_, hrid, hat⟩
    rw [ready_removeEvent, List.mem_filter, decide_eq_true_eq]
    refine ⟨hr, ?_⟩
    rw [hrid, h.consistent.keyed other e he]
    exact hid
  · rw [hconsumers]
    exact h.consumers
  · rw [hgaps]
    exact h.gaps

lemma OutboxSound.removeEvents {store : OutboxStore} (h : OutboxSound store)
    (eventIds : List String) : OutboxSound (removeEvents store eventIds) := by
  unfold Outbox.removeEvents
  induction eventIds generalizing store with
  | nil => exact h
  | cons id rest ih => exact ih (h.removeEvent id)

lemma OutboxSound.prune {store : OutboxStore} (h : OutboxSound store) (tenantId : String) :
    OutboxSound (store.pruneAcknowledgedReady tenantId).1 := by
  rw [pruneAcknowledgedReady_eq h.consistent]
  exact h.removeEvents _

lemma OutboxSound.setConsumer {store : OutboxStore} (h : OutboxSound store) {c : ConsumerRow}
    (hc : ConsumerSound c) : OutboxSound (setConsumer store c) := by
  refine ⟨OutboxRun.consistent_setConsumer h.consistent c, h.accounted, h.bounded, ?_, ?_, h.gaps⟩
  · intro id e he
    obtain ⟨hrevision, hstaged, hready⟩ := h.events id e he
    exact ⟨hrevision, hstaged, hready⟩
  · intro id d hd
    simp only [Outbox.setConsumer, InsertMap.get_set] at hd
    split_ifs at hd
    · exact Option.some.inj hd ▸ hc
    · exact h.consumers id d hd

lemma OutboxSound.recordDeliveryGap {store : OutboxStore} (h : OutboxSound store)
    (tenantId : String) (count : ℕ) (now : InstantText) :
    OutboxSound (store.recordDeliveryGap tenantId count now) := by
  have hcons := h.consistent.recordDeliveryGap tenantId count now
  unfold OutboxStore.recordDeliveryGap at *
  split_ifs at * with hcount
  · exact h
  · refine ⟨hcons, h.accounted, h.bounded, ?_, h.consumers, ?_⟩
    · intro id e he
      obtain ⟨hrevision, hstaged, hready⟩ := h.events id e he
      exact ⟨hrevision, hstaged, hready⟩
    · intro other g hg
      dsimp only at hg
      rw [InsertMap.get_set] at hg
      split_ifs at hg
      · obtain rfl := Option.some.inj hg
        exact ⟨Nat.succ_pos _, by dsimp only; omega, rfl⟩
      · exact h.gaps other g hg

lemma ConsumerSound.clear {c : ConsumerRow} (h : ConsumerSound c) :
    ConsumerSound { c with lease := none } := by
  refine ⟨h.registered, ?_, h.active, h.disabled⟩
  intro l hl
  cases hl

lemma OutboxSound.clearLeases {store : OutboxStore} (h : OutboxSound store) (tenantId : String) :
    OutboxSound (clearLeases store tenantId) := by
  refine ⟨OutboxRun.consistent_clearLeases h.consistent tenantId, h.accounted, h.bounded, ?_, ?_,
    h.gaps⟩
  · intro id e he
    obtain ⟨hrevision, hstaged, hready⟩ := h.events id e he
    exact ⟨hrevision, hstaged, hready⟩
  · intro id c hc
    simp only [Outbox.clearLeases, InsertMap.get_mapValues] at hc
    obtain ⟨d, hd, rfl⟩ := Option.map_eq_some_iff.mp hc
    split_ifs
    · exact (h.consumers id d hd).clear
    · exact h.consumers id d hd

lemma OutboxSound.markReadyRow {store : OutboxStore} (h : OutboxSound store) {e : OutboxEvent}
    (he : store.events.get e.eventId = some e) (hstaged : e.state ≠ .ready)
    (readyAt : InstantText) : OutboxSound (markReadyRow store e readyAt) := by
  have hsound := h.events _ _ he
  refine ⟨consistent_markReadyRow h.consistent he hstaged readyAt, ?_, h.bounded, ?_,
    h.consumers, h.gaps⟩
  · have hbytes := InsertMap.map_values_set (fun e => (e.eventJson.utf8ByteSize : ℤ)) he
      (show _ = _ from rfl : ({ e with state := .ready, readyAt := some readyAt } :
        OutboxEvent).eventJson.utf8ByteSize = (e.eventJson.utf8ByteSize : ℤ))
    have hcount := congrArg List.length hbytes
    rw [List.length_map, List.length_map] at hcount
    simp only [Outbox.markReadyRow, countedUsage, hbytes, hcount]
    exact h.accounted
  · intro id d hd
    simp only [Outbox.markReadyRow, InsertMap.get_set] at hd
    split_ifs at hd with hid
    · obtain rfl := Option.some.inj hd
      refine ⟨hsound.revision, ?_, ?_⟩
      · intro hst
        cases hst
      · intro _
        exact ⟨⟨store.nextSequence, e.eventId, readyAt⟩,
          List.mem_append_right _ (List.mem_singleton_self _), rfl, rfl⟩
    · obtain ⟨hrevision, hst, hready⟩ := h.events id d hd
      refine ⟨hrevision, hst, ?_⟩
      intro hstate
      obtain ⟨r, hr, hrest⟩ := hready hstate
      exact ⟨r, List.mem_append_left _ hr, hrest⟩

lemma OutboxSound.markReadyLoop {store store' : OutboxStore} {eventIds : List String}
    {readyAt : InstantText} {marked marked' : ℕ} (h : OutboxSound store)
    (hloop : markReadyLoop readyAt store marked eventIds = .ok (store', marked')) :
    OutboxSound store' := by
  induction eventIds generalizing store marked with
  | nil =>
    obtain ⟨rfl, -⟩ := Prod.mk.inj (Except.ok.inj hloop)
    exact h
  | cons id rest ih =>
    rw [Outbox.markReadyLoop] at hloop
    split at hloop
    · cases hloop
    · rename_i event hevent
      split_ifs at hloop with hstate
      · exact ih h hloop
      · rw [← h.consistent.keyed id event hevent] at hevent
        exact ih (h.markReadyRow hevent hstate readyAt) hloop

lemma badFingerprint_of_source {f : String} (h : isSourceFingerprint f = true) :
    badFingerprint (some f) = false := by
  unfold isSourceFingerprint at h
  rw [decide_eq_true_eq] at h
  obtain ⟨hstart, hlength, hhex⟩ := h
  have hseven : (f.toList.take 7).length = 7 := by
    rw [hstart]
    decide
  unfold badFingerprint
  rw [decide_eq_false_iff_not]
  rintro (hlen | hpre | hany)
  · rw [List.length_take] at hseven
    rw [List.length_drop] at hlength
    omega
  · exact hpre hstart
  · obtain ⟨c, hc, hbad⟩ := List.any_eq_true.mp hany
    have hgood := List.all_eq_true.mp hhex c hc
    simp [hgood] at hbad

lemma source_of_badFingerprint {fingerprint : Option String}
    (h : badFingerprint fingerprint = false) :
    ∃ f, fingerprint = some f ∧ isSourceFingerprint f = true := by
  cases fingerprint with
  | none => cases h
  | some f =>
    refine ⟨f, rfl, ?_⟩
    unfold badFingerprint at h
    rw [decide_eq_false_iff_not] at h
    push Not at h
    obtain ⟨hlength, hstart, hhex⟩ := h
    unfold isSourceFingerprint
    rw [decide_eq_true_eq]
    refine ⟨hstart, ?_, ?_⟩
    · rw [List.length_drop, hlength]
    · apply List.all_eq_true.mpr
      intro c hc
      by_contra hbad
      apply hhex
      apply List.any_eq_true.mpr
      exact ⟨c, hc, by simpa using hbad⟩

lemma checkCandidate_ok {request : StageRequest} {event : ValidEvent} {kind : Option String}
    (h : checkCandidate request event = .ok kind) (hoccurrence : event.sourceOccurrenceId.isSome) :
    badFingerprint (request.sourceFingerprint event.id) = false := by
  unfold checkCandidate at h
  dsimp only at h
  split_ifs at h with hinvalid hmissing
  · cases hf : request.sourceFingerprint event.id with
    | none => exact absurd ⟨hoccurrence, hf⟩ hmissing
    | some f =>
      apply badFingerprint_of_source
      simpa [hf] using hinvalid

/-- What the loop of `stageEvents` keeps: its own counts are those of the usage row. -/
structure ProgressSound (progress : StageProgress) : Prop where
  store : OutboxSound progress.store
  outboxEvents : progress.outboxEvents = progress.store.usage.count
  outboxBytes : progress.outboxBytes = progress.store.usage.bytes

lemma ProgressSound.turn {request : StageRequest} {progress progress' : StageProgress}
    {candidate : Except String ValidEvent} (h : ProgressSound progress)
    (hturn : stageEvent request progress candidate = .ok progress') : ProgressSound progress' := by
  have hcons := (stageEvent_spec h.store.consistent hturn).1
  unfold stageEvent at hturn
  split at hturn
  · cases hturn
  · rename_i event
    split at hturn
    · cases hturn
    · rename_i sourceKind hcheck
      dsimp only at hturn
      split at hturn
      · split at hturn
        · cases hturn
        · obtain rfl := Except.ok.inj hturn
          exact ⟨h.store, h.outboxEvents, h.outboxBytes⟩
      · rename_i hnew
        split_ifs at hturn with hfull
        · obtain rfl := Except.ok.inj hturn
          exact ⟨h.store, h.outboxEvents, h.outboxBytes⟩
        · obtain rfl := Except.ok.inj hturn
          obtain ⟨hsound, hcount, hbytes⟩ := h
          rw [hcount, hbytes] at hfull
          push Not at hfull
          have hcounted := countedUsage_insert (e := stagedRow request event sourceKind)
            hsound.accounted hnew
          refine ⟨⟨hcons, hcounted, hfull, ?_, hsound.consumers, hsound.gaps⟩, ?_, ?_⟩
          · intro id e he
            simp only [insertEvent, InsertMap.get_set] at he
            split_ifs at he
            · obtain rfl := Option.some.inj he
              refine ⟨event.revision_pos, ?_, ?_⟩
              · intro _
                exact ⟨rfl, fun hoccurrence => checkCandidate_ok hcheck hoccurrence⟩
              · intro hready
                cases hready
            · obtain ⟨hrevision, hstaged, hready⟩ := hsound.events id e he
              exact ⟨hrevision, hstaged, hready⟩
          · simp only [insertEvent, hcount]
          · simp only [insertEvent, hbytes, stagedRow]

lemma ProgressSound.loop {request : StageRequest} {candidates : List (Except String ValidEvent)}
    {progress progress' : StageProgress} (h : ProgressSound progress)
    (hloop : stageLoop request progress candidates = .ok progress') : ProgressSound progress' := by
  induction candidates generalizing progress with
  | nil =>
    obtain rfl := Except.ok.inj hloop
    exact h
  | cons candidate rest ih =>
    rw [stageLoop] at hloop
    split at hloop
    · cases hloop
    · rename_i mid hturn
      exact ih (h.turn hturn) hloop

lemma OutboxSound.stageEvents {request : StageRequest} {store store' : OutboxStore}
    {result : StageResult} (h : OutboxSound store)
    (hstage : stageEvents request store = .ok (store', result)) : OutboxSound store' := by
  have hgaps : ∀ (dropped : List (String × ℕ)) (s : OutboxStore), OutboxSound s →
      OutboxSound (dropped.foldl
        (fun s entry => s.recordDeliveryGap entry.1 entry.2 request.stagedAt) s) := by
    intro dropped
    induction dropped with
    | nil =>
      intro s hs
      exact hs
    | cons entry rest ih =>
      intro s hs
      exact ih _ (hs.recordDeliveryGap entry.1 entry.2 request.stagedAt)
  unfold Outbox.stageEvents at hstage
  dsimp only at hstage
  split at hstage
  · cases hstage
  · rename_i progress hloop
    obtain ⟨rfl, -⟩ := Prod.mk.inj (Except.ok.inj hstage)
    have hprogress := ProgressSound.loop ⟨h, rfl, rfl⟩ hloop
    exact hgaps progress.droppedByTenant.entries _ hprogress.store

lemma OutboxSound.abandonEvents {tenantId : String} {eventIds : List String} {now : InstantText}
    {store store' : OutboxStore} {result : ℕ × DeliveryGap} (h : OutboxSound store)
    (habandon : abandonEvents tenantId eventIds now store = .ok (store', result)) :
    OutboxSound store' := by
  obtain ⟨-, rfl⟩ := abandonEvents_ok habandon
  exact ((h.removeEvents eventIds).recordDeliveryGap _ _ _).clearLeases _

lemma OutboxSound.registerConsumer {tenantId consumerId : String} {startAt : EventConsumerStart}
    {registeredAt : InstantText} {store store' : OutboxStore} {row : ConsumerRow}
    (h : OutboxSound store)
    (hregister : registerConsumer tenantId consumerId startAt registeredAt store =
      .ok (store', row)) : OutboxSound store' := by
  obtain ⟨-, rfl, -, -, hactive, -, hlease, hdisabled, rfl, hinstant⟩ :=
    registerConsumer_ok hregister
  apply h.setConsumer
  refine ⟨hinstant, ?_, ?_, ?_⟩
  · intro l hl
    rw [hlease] at hl
    cases hl
  · rw [hactive, hdisabled]
    exact ⟨fun _ => rfl, fun _ => rfl⟩
  · intro t ht
    rw [hdisabled] at ht
    cases ht

lemma OutboxSound.claimReady {tokenHash : String → String}
    {tenantId consumerId leaseToken : String} {limit leaseSeconds : ℕ} {claimedAt : InstantText}
    {store store' : OutboxStore} {claim : EventConsumerClaim} (h : OutboxSound store)
    (hclaim : claimReady tokenHash tenantId consumerId limit leaseSeconds leaseToken claimedAt
      store = .ok (store', claim)) : OutboxSound store' := by
  obtain ⟨c, now, hrow, -, -, -, -, hcase⟩ := claimReady_ok hclaim
  obtain ⟨hc, -⟩ := consumerRow_some hrow
  have hsound := h.consumers _ _ hc
  rcases hcase with ⟨-, rfl⟩ | ⟨last, expiresAt, hevents, hlast, hexpires, rfl⟩
  · exact h.setConsumer hsound.clear
  · rw [hevents] at hlast
    obtain ⟨-, hwithin⟩ := OutboxRun.claimable_take h.consistent hlast
    have hafter := (hwithin last (List.mem_of_getLast? hlast)).1
    apply h.setConsumer
    refine ⟨hsound.registered, ?_, hsound.active, hsound.disabled⟩
    intro l hl
    obtain rfl := Option.some.inj hl
    refine ⟨?_, hafter⟩
    dsimp only
    rw [hexpires]
    exact Option.some_ne_none _

lemma OutboxSound.acknowledgeClaim {tokenHash : String → String}
    {tenantId consumerId leaseToken : String} {throughSequence : ℕ} {acknowledgedAt : InstantText}
    {store store' : OutboxStore} {result : EventConsumerAcknowledgement} (h : OutboxSound store)
    (hack : acknowledgeClaim tokenHash tenantId consumerId leaseToken throughSequence
      acknowledgedAt store = .ok (store', result)) : OutboxSound store' := by
  obtain ⟨c, lease, now, expiresAt, hrow, -, -, -, -, -, -, -, -, rfl⟩ := acknowledgeClaim_ok hack
  obtain ⟨hc, -⟩ := consumerRow_some hrow
  have hsound := h.consumers _ _ hc
  apply OutboxSound.prune
  apply h.setConsumer
  refine ⟨hsound.registered, ?_, hsound.active, hsound.disabled⟩
  intro l hl
  cases hl

lemma OutboxSound.disableConsumer {tenantId consumerId : String} {disabledAt : InstantText}
    {store store' : OutboxStore} {row : ConsumerRow} (h : OutboxSound store)
    (hdisable : disableConsumer tenantId consumerId disabledAt store = .ok (store', row)) :
    OutboxSound store' := by
  rcases disableConsumer_ok hdisable with rfl | ⟨c, hrow, hinstant, rfl⟩
  · exact h
  · obtain ⟨hc, -⟩ := consumerRow_some hrow
    have hsound := h.consumers _ _ hc
    apply OutboxSound.prune
    apply h.setConsumer
    refine ⟨hsound.registered, ?_, ?_, ?_⟩
    · intro l hl
      cases hl
    · simp
    · intro t ht
      obtain rfl := Option.some.inj ht
      exact hinstant

lemma OutboxSound.acceptDeliveryGap {tenantId consumerId : String} {generation : ℕ}
    {store store' : OutboxStore} {gap : DeliveryGap} (h : OutboxSound store)
    (haccept : acceptDeliveryGap tenantId consumerId generation store = .ok (store', gap)) :
    OutboxSound store' := by
  obtain ⟨c, hrow, rfl⟩ := acceptDeliveryGap_ok haccept
  obtain ⟨hc, -⟩ := consumerRow_some hrow
  have hsound := h.consumers _ _ hc
  apply h.setConsumer
  exact ⟨hsound.registered, hsound.lease, hsound.active, hsound.disabled⟩

end Maple.Control
