import Maple.OutboxSpec
import Maple.TransitionRun

/-! Runs of outbox transactions, with what has become ready, was abandoned and was delivered. -/

namespace Maple.Outbox

open OutboxStore TransitionRun

/-- What has happened to a consumer: where it started, which sequences had left the outbox by then,
what its lease has claimed, and what it has acknowledged. -/
structure ConsumerHistory where
  start : ℕ
  gone : List ℕ
  batch : List ℕ
  delivered : List ℕ
  deriving DecidableEq, Repr

structure OutboxRun where
  store : OutboxStore
  everReady : List (ℕ × String)
  abandoned : List ℕ
  history : String → ConsumerHistory

inductive OutboxLabel
  | stageEvents (request : StageRequest)
  | markReady (eventIds : List String) (readyAt : InstantText)
  | registerConsumer (tenantId consumerId : String) (startAt : EventConsumerStart)
      (registeredAt : InstantText)
  | claimReady (tenantId consumerId : String) (limit leaseSeconds : ℕ) (leaseToken : String)
      (claimedAt : InstantText)
  | acknowledgeClaim (tenantId consumerId leaseToken : String) (throughSequence : ℕ)
      (acknowledgedAt : InstantText)
  | disableConsumer (tenantId consumerId : String) (disabledAt : InstantText)
  | abandonEvents (tenantId : String) (eventIds : List String) (now : InstantText)
  | acceptDeliveryGap (tenantId consumerId : String) (generation : ℕ)

/-- The sequences given out between two states, with their tenants. -/
def newlyReady (store store' : OutboxStore) : List (ℕ × String) :=
  (store'.ready.filter fun r => store.nextSequence ≤ r.sequence).filterMap fun r =>
    (store'.events.get r.eventId).map fun e => (r.sequence, e.tenantId)

/-- The sequences of a tenant that are no longer in the outbox. -/
def goneSequences (s : OutboxRun) (tenantId : String) : List ℕ :=
  ((s.everReady.filter fun entry => entry.2 = tenantId).map Prod.fst).filter fun q =>
    q ∉ (s.store.readyOf tenantId).map (·.sequence)

namespace OutboxRun

def setHistory (s : OutboxRun) (consumerId : String) (history : ConsumerHistory) : OutboxRun :=
  { s with history := Function.update s.history consumerId history }

def claimed (history : ConsumerHistory) (claim : EventConsumerClaim) : ConsumerHistory :=
  { history with batch := claim.events.map (·.sequence) }

def acknowledge (history : ConsumerHistory) : ConsumerHistory :=
  { history with delivered := history.delivered ++ history.batch, batch := [] }

/-- One transaction; a refused one changes nothing. -/
def step (tokenHash : String → String) (s : OutboxRun) : OutboxLabel → Option OutboxRun
  | .stageEvents request =>
    match Outbox.stageEvents request s.store with
    | .error _ => some s
    | .ok (store, _) => some { s with store := store }
  | .markReady eventIds readyAt =>
    match Outbox.markReady eventIds readyAt s.store with
    | .error _ => some s
    | .ok (store, _) =>
      some { s with store := store, everReady := s.everReady ++ newlyReady s.store store }
  | .registerConsumer tenantId consumerId startAt registeredAt =>
    match Outbox.registerConsumer tenantId consumerId startAt registeredAt s.store with
    | .error _ => some s
    | .ok (store, row) =>
      some ({ s with store := store }.setHistory consumerId
        ⟨row.lastAckedSequence, goneSequences s tenantId, [], []⟩)
  | .claimReady tenantId consumerId limit leaseSeconds leaseToken claimedAt =>
    match Outbox.claimReady tokenHash tenantId consumerId limit leaseSeconds leaseToken claimedAt
      s.store with
    | .error _ => some s
    | .ok (store, claim) =>
      some ({ s with store := store }.setHistory consumerId (claimed (s.history consumerId) claim))
  | .acknowledgeClaim tenantId consumerId leaseToken throughSequence acknowledgedAt =>
    match Outbox.acknowledgeClaim tokenHash tenantId consumerId leaseToken throughSequence
      acknowledgedAt s.store with
    | .error _ => some s
    | .ok (store, _) =>
      some ({ s with store := store }.setHistory consumerId (acknowledge (s.history consumerId)))
  | .disableConsumer tenantId consumerId disabledAt =>
    match Outbox.disableConsumer tenantId consumerId disabledAt s.store with
    | .error _ => some s
    | .ok (store, _) => some { s with store := store }
  | .abandonEvents tenantId eventIds now =>
    match Outbox.abandonEvents tenantId eventIds now s.store with
    | .error _ => some s
    | .ok (store, _) =>
      some { s with
        store := store
        abandoned := s.abandoned ++
          (s.store.ready.filter fun r => r.eventId ∈ eventIds).map (·.sequence) }
  | .acceptDeliveryGap tenantId consumerId generation =>
    match Outbox.acceptDeliveryGap tenantId consumerId generation s.store with
    | .error _ => some s
    | .ok (store, _) => some { s with store := store }

def Started (s : OutboxRun) : Prop :=
  (∃ limits, s.store = OutboxStore.empty limits) ∧ s.everReady = [] ∧ s.abandoned = []

/-- What is known of a consumer: behind its position everything is delivered or abandoned, ahead
of it everything is in the outbox or abandoned, and its lease covers all up to where it claims. -/
structure ConsumerInv (s : OutboxRun) (c : ConsumerRow) (history : ConsumerHistory) : Prop where
  bounded : c.lastAckedSequence < s.store.nextSequence
  behind : ∀ q, (q, c.tenantId) ∈ s.everReady → history.start < q → q ∉ history.gone →
    q ≤ c.lastAckedSequence → q ∈ history.delivered ∨ q ∈ s.abandoned
  ahead : c.active = true → ∀ q, (q, c.tenantId) ∈ s.everReady → history.start < q →
    q ∉ history.gone → c.lastAckedSequence < q →
    s.store.Present c.tenantId q ∨ q ∈ s.abandoned
  lease : ∀ l, c.lease = some l → c.lastAckedSequence < l.claimedThrough ∧
    l.claimedThrough < s.store.nextSequence
  whole : ∀ l, c.lease = some l → ∀ q, s.store.Present c.tenantId q → c.lastAckedSequence < q →
    q ≤ l.claimedThrough → q ∈ history.batch
  within : ∀ l, c.lease = some l → ∀ q ∈ history.batch,
    c.lastAckedSequence < q ∧ q ≤ l.claimedThrough
  last : ∀ l, c.lease = some l → l.claimedThrough ∈ history.batch

structure RunInv (s : OutboxRun) : Prop where
  consistent : Consistent s.store
  past : ∀ entry ∈ s.everReady, entry.1 < s.store.nextSequence
  consumers : ∀ id c, s.store.consumers.get id = some c → s.ConsumerInv c (s.history id)

/-- A consumer that a step does not touch keeps its invariant if the step adds only new sequences,
and removes none ahead of the consumer that it does not abandon. -/
lemma ConsumerInv.transfer {s s' : OutboxRun} {c : ConsumerRow} {history : ConsumerHistory}
    (h : s.ConsumerInv c history) (hnext : s.store.nextSequence ≤ s'.store.nextSequence)
    (hever : ∀ q, (q, c.tenantId) ∈ s'.everReady → (q, c.tenantId) ∈ s.everReady ∨
      s.store.nextSequence ≤ q ∧ s'.store.Present c.tenantId q)
    (habandoned : ∀ q ∈ s.abandoned, q ∈ s'.abandoned)
    (hkeep : c.active = true → ∀ q, c.lastAckedSequence < q → s.store.Present c.tenantId q →
      s'.store.Present c.tenantId q ∨ q ∈ s'.abandoned)
    (hold : ∀ q, q < s.store.nextSequence → s'.store.Present c.tenantId q →
      s.store.Present c.tenantId q) : s'.ConsumerInv c history := by
  have hbounded := h.bounded
  refine ⟨hbounded.trans_le hnext, ?_, ?_, ?_, ?_, h.within, h.last⟩
  · intro q hq hstart hgone hle
    rcases hever q hq with hq | ⟨hnew, -⟩
    · rcases h.behind q hq hstart hgone hle with hdelivered | hab
      · exact Or.inl hdelivered
      · exact Or.inr (habandoned q hab)
    · omega
  · intro hactive q hq hstart hgone hlt
    rcases hever q hq with hq | ⟨-, hpresent⟩
    · rcases h.ahead hactive q hq hstart hgone hlt with hpresent | hab
      · exact hkeep hactive q hlt hpresent
      · exact Or.inr (habandoned q hab)
    · exact Or.inl hpresent
  · intro l hl
    obtain ⟨hfrom, hto⟩ := h.lease l hl
    exact ⟨hfrom, hto.trans_le hnext⟩
  · intro l hl q hpresent hlt hle
    have hto := (h.lease l hl).2
    exact h.whole l hl q (hold q (by omega) hpresent) hlt hle

/-- Without its lease a consumer keeps the rest of its invariant. -/
lemma ConsumerInv.clear {s : OutboxRun} {c : ConsumerRow} {history : ConsumerHistory}
    (h : s.ConsumerInv c history) : s.ConsumerInv { c with lease := none } history := by
  refine ⟨h.bounded, h.behind, h.ahead, ?_, ?_, ?_, ?_⟩
  · intro l hl
    cases hl
  · intro l hl
    cases hl
  · intro l hl
    cases hl
  · intro l hl
    cases hl

lemma consistent_setConsumer {store : OutboxStore} (h : Consistent store) (c : ConsumerRow) :
    Consistent (Outbox.setConsumer store c) := by
  refine ⟨h.keyed, h.sorted, h.given, h.started, h.ids, h.stored, ?_⟩
  intro id d hd
  simp only [Outbox.setConsumer, InsertMap.get_set] at hd
  split_ifs at hd with hid
  · rw [← Option.some.inj hd, hid]
  · exact h.consumerKeyed id d hd

/-- Storing a consumer keeps the invariant if the consumer has it. -/
lemma RunInv.setConsumer {s : OutboxRun} (h : RunInv s) (c : ConsumerRow)
    (history : ConsumerHistory) (hc : s.ConsumerInv c history) :
    RunInv ({ s with store := Outbox.setConsumer s.store c }.setHistory c.consumerId history) := by
  obtain ⟨hcons, hpast, hconsumers⟩ := h
  refine ⟨consistent_setConsumer hcons c, hpast, ?_⟩
  intro id d hd
  simp only [setHistory, Outbox.setConsumer, InsertMap.get_set] at hd
  split_ifs at hd with hid
  · obtain rfl := Option.some.inj hd
    rw [hid]
    simp only [setHistory, Function.update_self]
    exact ⟨hc.bounded, hc.behind, hc.ahead, hc.lease, hc.whole, hc.within, hc.last⟩
  · have hother := hconsumers id d hd
    simp only [setHistory, Function.update_of_ne hid]
    exact ⟨hother.bounded, hother.behind, hother.ahead, hother.lease, hother.whole,
      hother.within, hother.last⟩

/-- A pruned row is not ahead of an active consumer of its tenant. -/
lemma not_pruned {store : OutboxStore} (h : Consistent store) {tenantId id : String}
    {c : ConsumerRow} (hc : store.consumers.get id = some c) (hactive : c.active = true)
    {r : ReadyEvent} (hr : r ∈ store.readyOf c.tenantId) (hahead : c.lastAckedSequence < r.sequence) :
    r.eventId ∉ (prunedRows store tenantId).map (·.eventId) := by
  intro hmem
  obtain ⟨p, hp, hid⟩ := List.mem_map.mp hmem
  have hpof := (prunedRows_sublist store tenantId).subset hp
  obtain ⟨hready, e, he, htenant⟩ := mem_readyOf.mp hr
  obtain ⟨hpready, e', he', htenant'⟩ := mem_readyOf.mp hpof
  obtain rfl := h.eq_of_eventId hpready hready hid
  rw [he] at he'
  obtain rfl := Option.some.inj he'
  obtain ⟨boundary, hboundary, hle, -⟩ := prunedRows_acknowledged h hp
  have hacked := acknowledgedByAll_le hboundary hc (htenant.symm.trans htenant') hactive
  omega

lemma RunInv.prune {s : OutboxRun} (h : RunInv s) (tenantId : String) :
    RunInv { s with store := (s.store.pruneAcknowledgedReady tenantId).1 } := by
  rw [pruneAcknowledgedReady_eq h.consistent]
  obtain ⟨hconsumers, -, -, hnext⟩ :=
    frame_removeEvents s.store ((prunedRows s.store tenantId).map (·.eventId))
  refine ⟨h.consistent.removeEvents _, ?_, ?_⟩
  · intro entry hentry
    rw [hnext]
    exact h.past entry hentry
  · intro id c hc
    rw [hconsumers] at hc
    apply (h.consumers id c hc).transfer hnext.ge
    · intro q hq
      exact Or.inl hq
    · intro q hq
      exact hq
    · intro hactive q hahead hpresent
      obtain ⟨r, hr, rfl⟩ := hpresent
      left
      exact ⟨r, mem_readyOf_removeEvents.mpr
        ⟨hr, not_pruned h.consistent hc hactive hr hahead⟩, rfl⟩
    · intro q _ hpresent
      obtain ⟨r, hr, rfl⟩ := hpresent
      exact ⟨r, (mem_readyOf_removeEvents.mp hr).1, rfl⟩

lemma RunInv.stage {s : OutboxRun} (h : RunInv s) {request : StageRequest} {store : OutboxStore}
    {result : StageResult} (hstage : Outbox.stageEvents request s.store = .ok (store, result)) :
    RunInv { s with store := store } := by
  obtain ⟨hcons, hstaged⟩ := stageEvents_spec h.consistent hstage
  have hpresent : ∀ tenantId q, store.Present tenantId q ↔ s.store.Present tenantId q := by
    intro tenantId q
    constructor
    · rintro ⟨r, hr, rfl⟩
      obtain ⟨hready, e, he, htenant⟩ := mem_readyOf.mp hr
      rw [hstaged.ready] at hready
      obtain ⟨e', he', -⟩ := h.consistent.stored r hready
      rw [hstaged.events _ _ he'] at he
      obtain rfl := Option.some.inj he
      exact ⟨r, mem_readyOf.mpr ⟨hready, e', he', htenant⟩, rfl⟩
    · rintro ⟨r, hr, rfl⟩
      obtain ⟨hready, e, he, htenant⟩ := mem_readyOf.mp hr
      rw [← hstaged.ready] at hready
      exact ⟨r, mem_readyOf.mpr ⟨hready, e, hstaged.events _ _ he, htenant⟩, rfl⟩
  refine ⟨hcons, ?_, ?_⟩
  · intro entry hentry
    rw [hstaged.next]
    exact h.past entry hentry
  · intro id c hc
    rw [hstaged.consumers] at hc
    apply (h.consumers id c hc).transfer hstaged.next.ge
    · intro q hq
      exact Or.inl hq
    · intro q hq
      exact hq
    · intro _ q _ hq
      exact Or.inl ((hpresent _ q).mpr hq)
    · intro q _ hq
      exact (hpresent _ q).mp hq

lemma mem_newlyReady {store store' : OutboxStore} {q : ℕ} {tenantId : String} :
    (q, tenantId) ∈ newlyReady store store' ↔
      store.nextSequence ≤ q ∧ store'.Present tenantId q := by
  unfold newlyReady
  rw [List.mem_filterMap]
  constructor
  · rintro ⟨r, hr, hrow⟩
    rw [List.mem_filter, decide_eq_true_eq] at hr
    obtain ⟨e, he, heq⟩ := Option.map_eq_some_iff.mp hrow
    obtain ⟨rfl, rfl⟩ := Prod.mk.inj heq
    exact ⟨hr.2, r, mem_readyOf.mpr ⟨hr.1, e, he, rfl⟩, rfl⟩
  · rintro ⟨hnext, r, hr, rfl⟩
    obtain ⟨hready, e, he, rfl⟩ := mem_readyOf.mp hr
    refine ⟨r, ?_, by rw [he]; rfl⟩
    rw [List.mem_filter, decide_eq_true_eq]
    exact ⟨hready, hnext⟩

/-- Marking events ready changes nothing about the sequences given out before. -/
lemma present_marked {store store' : OutboxStore} (h : Marked store store') {tenantId : String}
    {q : ℕ} (hq : q < store.nextSequence) :
    store'.Present tenantId q ↔ store.Present tenantId q := by
  obtain ⟨new, hready, hnew⟩ := h.ready
  constructor
  · rintro ⟨r, hr, rfl⟩
    obtain ⟨hrow, e, he, htenant⟩ := mem_readyOf.mp hr
    rw [hready] at hrow
    rcases List.mem_append.mp hrow with hrow | hrow
    · have hmap := h.tenant r.eventId
      rw [he] at hmap
      obtain ⟨e', he', htenant'⟩ := Option.map_eq_some_iff.mp hmap.symm
      exact ⟨r, mem_readyOf.mpr ⟨hrow, e', he', htenant'.trans htenant⟩, rfl⟩
    · have hge := hnew r hrow
      omega
  · rintro ⟨r, hr, rfl⟩
    obtain ⟨hrow, e, he, htenant⟩ := mem_readyOf.mp hr
    have hmap := h.tenant r.eventId
    rw [he] at hmap
    obtain ⟨e', he', htenant'⟩ := Option.map_eq_some_iff.mp hmap
    refine ⟨r, mem_readyOf.mpr ⟨?_, e', he', htenant'.trans htenant⟩, rfl⟩
    rw [hready]
    exact List.mem_append_left _ hrow

lemma present_lt {store : OutboxStore} (h : Consistent store) {tenantId : String} {q : ℕ}
    (hq : store.Present tenantId q) : q < store.nextSequence := by
  obtain ⟨r, hr, rfl⟩ := hq
  exact h.given r (mem_readyOf.mp hr).1

lemma RunInv.mark {s : OutboxRun} (h : RunInv s) {eventIds : List String} {readyAt : InstantText}
    {store : OutboxStore} {marked : ℕ}
    (hmark : Outbox.markReady eventIds readyAt s.store = .ok (store, marked)) :
    RunInv { s with store := store, everReady := s.everReady ++ newlyReady s.store store } := by
  obtain ⟨hcons, hmarked⟩ := markReadyLoop_spec h.consistent hmark
  refine ⟨hcons, ?_, ?_⟩
  · intro entry hentry
    rcases List.mem_append.mp hentry with hold | hnew
    · exact (h.past entry hold).trans_le hmarked.next
    · exact present_lt hcons (mem_newlyReady.mp hnew).2
  · intro id c hc
    rw [hmarked.consumers] at hc
    apply (h.consumers id c hc).transfer hmarked.next
    · intro q hq
      rcases List.mem_append.mp hq with hold | hnew
      · exact Or.inl hold
      · exact Or.inr (mem_newlyReady.mp hnew)
    · intro q hq
      exact hq
    · intro _ q _ hq
      exact Or.inl ((present_marked hmarked (present_lt h.consistent hq)).mpr hq)
    · intro q hlt hq
      exact (present_marked hmarked hlt).mp hq

lemma consistent_clearLeases {store : OutboxStore} (h : Consistent store) (tenantId : String) :
    Consistent (clearLeases store tenantId) := by
  refine ⟨h.keyed, h.sorted, h.given, h.started, h.ids, h.stored, ?_⟩
  intro id c hc
  simp only [Outbox.clearLeases, InsertMap.get_mapValues] at hc
  obtain ⟨d, hd, rfl⟩ := Option.map_eq_some_iff.mp hc
  split_ifs
  · exact h.consumerKeyed id d hd
  · exact h.consumerKeyed id d hd

/-- Abandoning takes events out of the outbox and the leases away, and nothing else. -/
lemma RunInv.abandon {s : OutboxRun} (h : RunInv s) {tenantId : String} {eventIds : List String}
    {now : InstantText} {store : OutboxStore} {result : ℕ × DeliveryGap}
    (habandon : Outbox.abandonEvents tenantId eventIds now s.store = .ok (store, result)) :
    RunInv { s with
      store := store
      abandoned := s.abandoned ++
        (s.store.ready.filter fun r => r.eventId ∈ eventIds).map (·.sequence) } := by
  obtain ⟨-, rfl⟩ := abandonEvents_ok habandon
  generalize hremoved : removeEvents s.store eventIds = removed
  have hcons : Consistent (removed.recordDeliveryGap tenantId eventIds.length now) := by
    rw [← hremoved]
    exact (h.consistent.removeEvents eventIds).recordDeliveryGap _ _ _
  have hgap := staged_recordDeliveryGap removed tenantId eventIds.length now
  have hevents : (removed.recordDeliveryGap tenantId eventIds.length now).events =
      removed.events := by
    unfold recordDeliveryGap
    split_ifs
    · rfl
    · rfl
  generalize removed.recordDeliveryGap tenantId eventIds.length now = recorded
    at hcons hgap hevents ⊢
  obtain ⟨hconsumers, -, -, hnext⟩ := frame_removeEvents s.store eventIds
  rw [hremoved, ← hgap.next] at hnext
  rw [hremoved, ← hgap.consumers] at hconsumers
  have hnext' : (clearLeases recorded tenantId).nextSequence = s.store.nextSequence := hnext
  have hpresent : ∀ t q, (clearLeases recorded tenantId).Present t q ↔
      ∃ r ∈ s.store.readyOf t, r.eventId ∉ eventIds ∧ r.sequence = q := by
    intro t q
    have hready : (clearLeases recorded tenantId).readyOf t = removed.readyOf t := by
      unfold readyOf
      simp only [clearLeases, hgap.ready, hevents]
    unfold OutboxStore.Present
    rw [hready, ← hremoved]
    constructor
    · rintro ⟨r, hr, hq⟩
      obtain ⟨hof, hid⟩ := mem_readyOf_removeEvents.mp hr
      exact ⟨r, hof, hid, hq⟩
    · rintro ⟨r, hof, hid, hq⟩
      exact ⟨r, mem_readyOf_removeEvents.mpr ⟨hof, hid⟩, hq⟩
  refine ⟨consistent_clearLeases hcons tenantId, ?_, ?_⟩
  · intro entry hentry
    rw [hnext']
    exact h.past entry hentry
  · intro id c hc
    simp only [clearLeases, InsertMap.get_mapValues, hconsumers] at hc
    obtain ⟨d, hd, rfl⟩ := Option.map_eq_some_iff.mp hc
    have hkept : ConsumerInv { s with
        store := clearLeases recorded tenantId
        abandoned := s.abandoned ++
          (s.store.ready.filter fun r => r.eventId ∈ eventIds).map (·.sequence) } d
        (s.history id) := by
      apply (h.consumers id d hd).transfer hnext'.ge
      · intro q hq
        exact Or.inl hq
      · intro q hq
        exact List.mem_append_left _ hq
      · rintro _ q _ ⟨r, hr, rfl⟩
        by_cases hid : r.eventId ∈ eventIds
        · right
          apply List.mem_append_right
          apply List.mem_map_of_mem
          rw [List.mem_filter, decide_eq_true_eq]
          exact ⟨(mem_readyOf.mp hr).1, hid⟩
        · exact Or.inl ((hpresent _ _).mpr ⟨r, hr, hid, rfl⟩)
      · intro q _ hq
        obtain ⟨r, hr, -, hq⟩ := (hpresent _ _).mp hq
        exact ⟨r, hr, hq⟩
    split_ifs
    · exact hkept.clear
    · exact hkept

lemma startingPoint_lt {store : OutboxStore} (h : Consistent store) (tenantId : String)
    (startAt : EventConsumerStart) : startingPoint store tenantId startAt < store.nextSequence := by
  have hstarted := h.started
  have hgiven : ∀ q ∈ (store.readyOf tenantId).map (·.sequence), q < store.nextSequence := by
    intro q hq
    obtain ⟨r, hr, rfl⟩ := List.mem_map.mp hq
    exact h.given r (mem_readyOf.mp hr).1
  cases startAt with
  | beginning =>
    unfold startingPoint
    cases hmin : ((store.readyOf tenantId).map (·.sequence)).min? with
    | none => simpa using hstarted
    | some q =>
      have hlt := hgiven q (List.min?_eq_some_iff.mp hmin).1
      dsimp only [Option.getD_some]
      omega
  | latest =>
    unfold startingPoint
    cases hmax : ((store.readyOf tenantId).map (·.sequence)).max? with
    | none => simpa using hstarted
    | some q => exact hgiven q (List.max?_eq_some_iff.mp hmax).1

/-- A new consumer counts what has left the outbox as gone, so all else is ahead of it. -/
lemma RunInv.register {s : OutboxRun} (h : RunInv s) {tenantId consumerId : String}
    {startAt : EventConsumerStart} {registeredAt : InstantText} {store : OutboxStore} {row : ConsumerRow}
    (hregister : Outbox.registerConsumer tenantId consumerId startAt registeredAt s.store =
      .ok (store, row)) :
    RunInv ({ s with store := store }.setHistory consumerId
      ⟨row.lastAckedSequence, goneSequences s tenantId, [], []⟩) := by
  obtain ⟨-, rfl, rfl, rfl, -, hstart, hlease, -⟩ := registerConsumer_ok hregister
  apply h.setConsumer
  have hnone : ∀ l, row.lease = some l → False := by
    intro l hl
    rw [hlease] at hl
    cases hl
  refine ⟨?_, ?_, ?_, fun l hl => (hnone l hl).elim, fun l hl => (hnone l hl).elim,
    fun l hl => (hnone l hl).elim, fun l hl => (hnone l hl).elim⟩
  · rw [hstart]
    exact startingPoint_lt h.consistent _ _
  · intro q _ hlt _ hle
    dsimp only at hlt
    omega
  · intro _ q hq _ hgone _
    left
    by_contra habsent
    apply hgone
    dsimp only
    unfold goneSequences
    rw [List.mem_filter, decide_eq_true_eq, List.mem_map]
    constructor
    · refine ⟨(q, row.tenantId), ?_, rfl⟩
      rw [List.mem_filter, decide_eq_true_eq]
      exact ⟨hq, rfl⟩
    · intro hmem
      obtain ⟨r, hr, hrq⟩ := List.mem_map.mp hmem
      exact habsent ⟨r, hr, hrq⟩

/-- What a claim hands out is all that is ahead, up to the last event of the claim. -/
lemma claimable_take {store : OutboxStore} (h : Consistent store) {tenantId : String}
    {after limit : ℕ} {last : ReadyEvent}
    (hlast : ((claimable store tenantId after).take limit).getLast? = some last) :
    (∀ q, store.Present tenantId q → after < q → q ≤ last.sequence →
      q ∈ ((claimable store tenantId after).take limit).map (·.sequence)) ∧
    (∀ r ∈ (claimable store tenantId after).take limit,
      after < r.sequence ∧ r.sequence ≤ last.sequence ∧ r ∈ store.readyOf tenantId) := by
  have hsub : (claimable store tenantId after).Sublist (store.readyOf tenantId) :=
    List.filter_sublist
  have hsorted : (claimable store tenantId after).Pairwise fun a b => a.sequence < b.sequence :=
    (h.sorted.sublist List.filter_sublist).sublist hsub
  have hlater : ∀ r ∈ claimable store tenantId after, after < r.sequence := by
    intro r hr
    have hkept := (List.mem_filter.mp hr).2
    rw [decide_eq_true_eq] at hkept
    exact hkept.2
  have hsplit := hsorted
  rw [← List.take_append_drop limit (claimable store tenantId after),
    List.pairwise_append] at hsplit
  obtain ⟨htake, -, hcross⟩ := hsplit
  obtain ⟨front, hfront⟩ := List.getLast?_eq_some_iff.mp hlast
  constructor
  · rintro q ⟨r, hr, rfl⟩ hafter hle
    have hclaim : r ∈ claimable store tenantId after := by
      obtain ⟨e, he, hstate⟩ := h.stored r (mem_readyOf.mp hr).1
      unfold claimable
      rw [List.mem_filter, decide_eq_true_eq, he]
      exact ⟨hr, by simp [hstate], hafter⟩
    rw [← List.take_append_drop limit (claimable store tenantId after)] at hclaim
    rcases List.mem_append.mp hclaim with hmem | hmem
    · exact List.mem_map_of_mem hmem
    · have hmemLast : last ∈ (claimable store tenantId after).take limit := by
        rw [hfront]
        exact List.mem_append_right _ (List.mem_singleton_self _)
      have hlt := hcross last hmemLast r hmem
      omega
  · intro r hr
    refine ⟨hlater r (List.take_subset _ _ hr), ?_, hsub.subset (List.take_subset _ _ hr)⟩
    rw [hfront] at hr htake
    rcases List.mem_append.mp hr with hr | hr
    · have hlt := (List.pairwise_append.mp htake).2.2 r hr last (List.mem_singleton_self _)
      exact hlt.le
    · rw [List.mem_singleton.mp hr]

lemma RunInv.claim {tokenHash : String → String} {s : OutboxRun} (h : RunInv s)
    {tenantId consumerId leaseToken : String} {limit leaseSeconds : ℕ} {claimedAt : InstantText}
    {store : OutboxStore} {claim : EventConsumerClaim}
    (hclaim : Outbox.claimReady tokenHash tenantId consumerId limit leaseSeconds leaseToken
      claimedAt s.store = .ok (store, claim)) :
    RunInv ({ s with store := store }.setHistory consumerId
      (claimed (s.history consumerId) claim)) := by
  obtain ⟨c, now, hrow, -, -, -, -, hcase⟩ := claimReady_ok hclaim
  obtain ⟨hc, htenant⟩ := consumerRow_some hrow
  obtain rfl := h.consistent.consumerKeyed _ _ hc
  have hinv := h.consumers _ _ hc
  rcases hcase with ⟨-, rfl⟩ | ⟨last, expiresAt, hevents, hlast, -, rfl⟩
  · have hset := h.setConsumer { c with lease := none }
      (claimed (s.history c.consumerId) claim) ?_
    · exact hset
    · obtain ⟨hbounded, hbehind, hahead, -, -, -, -⟩ := hinv.clear
      refine ⟨hbounded, hbehind, hahead, ?_, ?_, ?_, ?_⟩ <;>
      · intro l hl
        cases hl
  · rw [hevents] at hlast
    obtain ⟨hwhole, hwithin⟩ := claimable_take h.consistent hlast
    have hlastMem : last ∈ (claimable s.store tenantId c.lastAckedSequence).take limit :=
      List.mem_of_getLast? hlast
    have hset := h.setConsumer
      { c with lease := some ⟨tokenHash leaseToken, expiresAt, last.sequence⟩ }
      (claimed (s.history c.consumerId) claim) ?_
    · exact hset
    · refine ⟨hinv.bounded, hinv.behind, hinv.ahead, ?_, ?_, ?_, ?_⟩
      · intro l hl
        obtain rfl := Option.some.inj hl
        obtain ⟨hafter, -, hof⟩ := hwithin last hlastMem
        exact ⟨hafter, h.consistent.given last (mem_readyOf.mp hof).1⟩
      · intro l hl q hq hafter hle
        obtain rfl := Option.some.inj hl
        simp only [claimed, hevents]
        exact hwhole q (htenant ▸ hq) hafter hle
      · intro l hl q hq
        obtain rfl := Option.some.inj hl
        simp only [claimed, hevents] at hq
        obtain ⟨r, hr, rfl⟩ := List.mem_map.mp hq
        obtain ⟨hafter, hle, -⟩ := hwithin r hr
        exact ⟨hafter, hle⟩
      · intro l hl
        obtain rfl := Option.some.inj hl
        simp only [claimed, hevents]
        exact List.mem_map_of_mem hlastMem

/-- Acknowledging moves a consumer past its batch, which then is delivered. -/
lemma RunInv.acknowledge {tokenHash : String → String} {s : OutboxRun} (h : RunInv s)
    {tenantId consumerId leaseToken : String} {throughSequence : ℕ} {acknowledgedAt : InstantText}
    {store : OutboxStore} {result : EventConsumerAcknowledgement}
    (hack : Outbox.acknowledgeClaim tokenHash tenantId consumerId leaseToken throughSequence
      acknowledgedAt s.store = .ok (store, result)) :
    RunInv ({ s with store := store }.setHistory consumerId
      (OutboxRun.acknowledge (s.history consumerId))) := by
  obtain ⟨c, lease, now, expiresAt, hrow, hactive, hlease, -, -, -, -, rfl, -, rfl⟩ :=
    acknowledgeClaim_ok hack
  obtain ⟨hc, htenant⟩ := consumerRow_some hrow
  obtain rfl := h.consistent.consumerKeyed _ _ hc
  have hinv := h.consumers _ _ hc
  obtain ⟨hfrom, hto⟩ := hinv.lease lease hlease
  have hset := h.setConsumer
    { c with lastAckedSequence := lease.claimedThrough, lease := none }
    (OutboxRun.acknowledge (s.history c.consumerId)) ?_
  · exact hset.prune tenantId
  · refine ⟨hto, ?_, ?_, ?_, ?_, ?_, ?_⟩
    · intro q hq hstart hgone hle
      by_cases hbehind : q ≤ c.lastAckedSequence
      · rcases hinv.behind q hq hstart hgone hbehind with hdelivered | hab
        · exact Or.inl (List.mem_append_left _ hdelivered)
        · exact Or.inr hab
      · rcases hinv.ahead hactive q hq hstart hgone (not_le.mp hbehind) with hpresent | hab
        · left
          apply List.mem_append_right
          exact hinv.whole lease hlease q hpresent (not_le.mp hbehind) hle
        · exact Or.inr hab
    · intro _ q hq hstart hgone hlt
      exact hinv.ahead hactive q hq hstart hgone (hfrom.trans hlt)
    all_goals
      intro l hl
      cases hl

lemma RunInv.disable {s : OutboxRun} (h : RunInv s) {tenantId consumerId : String} {disabledAt : InstantText}
    {store : OutboxStore} {row : ConsumerRow}
    (hdisable : Outbox.disableConsumer tenantId consumerId disabledAt s.store = .ok (store, row)) :
    RunInv { s with store := store } := by
  rcases disableConsumer_ok hdisable with rfl | ⟨c, hrow, -, rfl⟩
  · exact h
  · obtain ⟨hc, -⟩ := consumerRow_some hrow
    obtain rfl := h.consistent.consumerKeyed _ _ hc
    have hinv := h.consumers _ _ hc
    have hset := h.setConsumer
      { c with active := false, lease := none, disabledAt := some disabledAt }
      (s.history c.consumerId) ?_
    · have hsame : Function.update s.history c.consumerId (s.history c.consumerId) = s.history :=
        Function.update_eq_self c.consumerId s.history
      rw [setHistory] at hset
      dsimp only at hset
      rw [hsame] at hset
      exact hset.prune tenantId
    · refine ⟨hinv.bounded, hinv.behind, ?_, ?_, ?_, ?_, ?_⟩
      · intro hactive
        cases hactive
      all_goals
        intro l hl
        cases hl

lemma RunInv.accept {s : OutboxRun} (h : RunInv s) {tenantId consumerId : String}
    {generation : ℕ} {store : OutboxStore} {gap : DeliveryGap}
    (haccept : Outbox.acceptDeliveryGap tenantId consumerId generation s.store =
      .ok (store, gap)) : RunInv { s with store := store } := by
  obtain ⟨c, hrow, rfl⟩ := acceptDeliveryGap_ok haccept
  obtain ⟨hc, -⟩ := consumerRow_some hrow
  obtain rfl := h.consistent.consumerKeyed _ _ hc
  have hinv := h.consumers _ _ hc
  have hset := h.setConsumer { c with acceptedGapGeneration := generation }
    (s.history c.consumerId) ?_
  · have hsame : Function.update s.history c.consumerId (s.history c.consumerId) = s.history :=
      Function.update_eq_self c.consumerId s.history
    rw [setHistory] at hset
    dsimp only at hset
    rw [hsame] at hset
    exact hset
  · exact ⟨hinv.bounded, hinv.behind, hinv.ahead, hinv.lease, hinv.whole, hinv.within, hinv.last⟩

lemma consistent_empty (limits : OutboxLimits) : Consistent (OutboxStore.empty limits) := by
  refine ⟨?_, List.Pairwise.nil, ?_, Nat.one_pos, List.nodup_nil, ?_, ?_⟩
  · intro id e he
    cases he
  · intro r hr
    cases hr
  · intro r hr
    cases hr
  · intro id c hc
    cases hc

lemma RunInv.start {s : OutboxRun} (h : Started s) : RunInv s := by
  obtain ⟨⟨limits, hstore⟩, hever, -⟩ := h
  have hget : ∀ id, s.store.consumers.get id = none := by
    intro id
    rw [hstore]
    rfl
  refine ⟨?_, ?_, ?_⟩
  · rw [hstore]
    exact consistent_empty limits
  · intro entry hentry
    rw [hever] at hentry
    cases hentry
  · intro id c hc
    rw [hget] at hc
    cases hc

/-- Every transaction keeps the invariant. -/
lemma RunInv.step {tokenHash : String → String} {s s' : OutboxRun} (h : RunInv s)
    {l : OutboxLabel} (hstep : s.step tokenHash l = some s') : RunInv s' := by
  cases l with
  | stageEvents request =>
    simp only [OutboxRun.step] at hstep
    split at hstep <;> obtain rfl := Option.some.inj hstep
    · exact h
    · exact h.stage ‹_›
  | markReady eventIds readyAt =>
    simp only [OutboxRun.step] at hstep
    split at hstep <;> obtain rfl := Option.some.inj hstep
    · exact h
    · exact h.mark ‹_›
  | registerConsumer tenantId consumerId startAt registeredAt =>
    simp only [OutboxRun.step] at hstep
    split at hstep <;> obtain rfl := Option.some.inj hstep
    · exact h
    · exact h.register ‹_›
  | claimReady tenantId consumerId limit leaseSeconds leaseToken claimedAt =>
    simp only [OutboxRun.step] at hstep
    split at hstep <;> obtain rfl := Option.some.inj hstep
    · exact h
    · exact h.claim ‹_›
  | acknowledgeClaim tenantId consumerId leaseToken throughSequence acknowledgedAt =>
    simp only [OutboxRun.step] at hstep
    split at hstep <;> obtain rfl := Option.some.inj hstep
    · exact h
    · exact h.acknowledge ‹_›
  | disableConsumer tenantId consumerId disabledAt =>
    simp only [OutboxRun.step] at hstep
    split at hstep <;> obtain rfl := Option.some.inj hstep
    · exact h
    · exact h.disable ‹_›
  | abandonEvents tenantId eventIds now =>
    simp only [OutboxRun.step] at hstep
    split at hstep <;> obtain rfl := Option.some.inj hstep
    · exact h
    · exact h.abandon ‹_›
  | acceptDeliveryGap tenantId consumerId generation =>
    simp only [OutboxRun.step] at hstep
    split at hstep <;> obtain rfl := Option.some.inj hstep
    · exact h
    · exact h.accept ‹_›

theorem runInv_of_reach {tokenHash : String → String} {s : OutboxRun}
    (h : Reach (OutboxRun.step tokenHash) Started s) : RunInv s :=
  h.invariant (fun _ hs => RunInv.start hs) fun _ _ _ hinv _ hstep => hinv.step hstep

end OutboxRun

end Maple.Outbox
