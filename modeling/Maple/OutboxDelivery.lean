import Maple.OutboxRun

/-! The outbox delivers without skipping: what holds of every consumer in every state of every run
of outbox transactions, and what each transaction may do to positions and rows. -/

namespace Maple.Outbox

open OutboxStore TransitionRun

namespace OutboxRun

/-- Everything that was in the outbox when the consumer registered, or became ready later, is
delivered or abandoned once the consumer's position is past it. -/
def NoSkip (s : OutboxRun) (c : ConsumerRow) (history : ConsumerHistory) : Prop :=
  ∀ q, (q, c.tenantId) ∈ s.everReady → history.start < q → q ≤ c.lastAckedSequence →
    q ∉ history.gone → q ∈ history.delivered ∨ q ∈ s.abandoned

/-- Nothing is excepted for having left the outbox before the consumer registered. -/
def NoSkipAtAll (s : OutboxRun) (c : ConsumerRow) (history : ConsumerHistory) : Prop :=
  ∀ q, (q, c.tenantId) ∈ s.everReady → history.start < q → q ≤ c.lastAckedSequence →
    q ∈ history.delivered ∨ q ∈ s.abandoned

instance (s : OutboxRun) (c : ConsumerRow) (history : ConsumerHistory) :
    Decidable (s.NoSkipAtAll c history) :=
  decidable_of_iff (∀ entry ∈ s.everReady, entry.2 = c.tenantId → history.start < entry.1 →
    entry.1 ≤ c.lastAckedSequence → entry.1 ∈ history.delivered ∨ entry.1 ∈ s.abandoned)
    ⟨fun h q hq => h (q, c.tenantId) hq rfl, fun h entry hentry htenant =>
      h entry.1 (htenant ▸ hentry)⟩

/-- No consumer disappears or moves back. -/
def Forward (store store' : OutboxStore) : Prop :=
  ∀ id c, store.consumers.get id = some c → ∃ c', store'.consumers.get id = some c' ∧
    c'.tenantId = c.tenantId ∧ c.lastAckedSequence ≤ c'.lastAckedSequence

/-- A row may be pruned: every active consumer of its tenant has acknowledged it, and as many newer
acknowledged rows as are to be retained are kept. -/
def Prunable (store store' : OutboxStore) (r : ReadyEvent) : Prop :=
  ∃ tenantId boundary, r ∈ store.readyOf tenantId ∧
    (∀ id c, store'.consumers.get id = some c → c.tenantId = tenantId → c.active = true →
      boundary ≤ c.lastAckedSequence) ∧
    r.sequence ≤ boundary ∧
    store.limits.retainAcknowledgedReadyEvents ≤ ((store'.readyOf tenantId).filter fun x =>
      r.sequence < x.sequence ∧ x.sequence ≤ boundary).length

/-- A row leaves the outbox by being abandoned or pruned. -/
def LeavesProperly (store store' : OutboxStore) (l : OutboxLabel) : Prop :=
  ∀ r ∈ store.ready, r ∉ store'.ready →
    (∃ tenantId eventIds now, l = .abandonEvents tenantId eventIds now ∧ r.eventId ∈ eventIds) ∨
      Prunable store store' r

lemma leaves_of_kept {store store' : OutboxStore} {l : OutboxLabel}
    (h : ∀ r ∈ store.ready, r ∈ store'.ready) : LeavesProperly store store' l :=
  fun r hr hgone => absurd (h r hr) hgone

lemma Forward.refl (store : OutboxStore) : Forward store store :=
  fun _ c hc => ⟨c, hc, rfl, le_rfl⟩

lemma forward_of_consumers {store store' : OutboxStore}
    (h : store'.consumers = store.consumers) : Forward store store' := by
  intro id c hc
  rw [← h] at hc
  exact ⟨c, hc, rfl, le_rfl⟩

lemma forward_setConsumer {store : OutboxStore} {c : ConsumerRow} (c' : ConsumerRow)
    (hc : store.consumers.get c'.consumerId = some c) (htenant : c'.tenantId = c.tenantId)
    (hacked : c.lastAckedSequence ≤ c'.lastAckedSequence) :
    Forward store (setConsumer store c') := by
  intro id d hd
  simp only [setConsumer, InsertMap.get_set]
  by_cases hid : id = c'.consumerId
  · rw [hid, hc] at hd
    obtain rfl := Option.some.inj hd
    exact ⟨c', if_pos hid, htenant, hacked⟩
  · exact ⟨d, by rw [if_neg hid, hd], rfl, le_rfl⟩

lemma Forward.prune {store mid : OutboxStore} (h : Forward store mid) (hcons : Consistent mid)
    (tenantId : String) : Forward store (mid.pruneAcknowledgedReady tenantId).1 := by
  rw [pruneAcknowledgedReady_eq hcons]
  obtain ⟨hconsumers, -, -, -⟩ :=
    frame_removeEvents mid ((prunedRows mid tenantId).map (·.eventId))
  intro id c hc
  rw [hconsumers]
  exact h id c hc

/-- What a prune after storing a consumer takes out of the outbox may be pruned. -/
lemma leaves_prune {store : OutboxStore} {c : ConsumerRow} {l : OutboxLabel}
    (hcons : Consistent (setConsumer store c)) (tenantId : String) :
    LeavesProperly store ((setConsumer store c).pruneAcknowledgedReady tenantId).1 l := by
  intro r hr hgone
  right
  generalize hmid : setConsumer store c = mid at *
  have hready : mid.ready = store.ready := by
    rw [← hmid]
    rfl
  have hlimits : mid.limits = store.limits := by
    rw [← hmid]
    rfl
  have hreadyOf : mid.readyOf tenantId = store.readyOf tenantId := by
    rw [← hmid]
    rfl
  rw [pruneAcknowledgedReady_eq hcons] at hgone ⊢
  rw [ready_removeEvents, List.mem_filter, decide_eq_true_eq, hready] at hgone
  have hid : r.eventId ∈ (prunedRows mid tenantId).map (·.eventId) := by
    by_contra hkept
    exact hgone ⟨hr, hkept⟩
  obtain ⟨p, hp, hpid⟩ := List.mem_map.mp hid
  have hpof := (prunedRows_sublist mid tenantId).subset hp
  rw [← hready] at hr
  obtain rfl := hcons.eq_of_eventId (mem_readyOf.mp hpof).1 hr hpid
  obtain ⟨boundary, hboundary, hle, hmany⟩ := prunedRows_acknowledged hcons hp
  obtain ⟨hconsumers, -, -, -⟩ :=
    frame_removeEvents mid ((prunedRows mid tenantId).map (·.eventId))
  refine ⟨tenantId, boundary, hreadyOf ▸ hpof, ?_, hle, ?_⟩
  · intro id d hd htenant hactive
    rw [hconsumers] at hd
    exact acknowledgedByAll_le hboundary hd htenant hactive
  · rw [← hlimits]
    apply hmany.trans
    rw [readyOf_removeEvents, List.filter_filter]
    rw [← List.countP_eq_length_filter, ← List.countP_eq_length_filter]
    apply List.countP_mono_left
    intro x hx hkeep
    rw [decide_eq_true_eq] at hkeep
    obtain ⟨hkept, hnewer, hbound⟩ := hkeep
    have hother : x.eventId ∉ (prunedRows mid tenantId).map (·.eventId) := by
      intro hmem
      obtain ⟨p', hp', hpid'⟩ := List.mem_map.mp hmem
      have hp'of := (prunedRows_sublist mid tenantId).subset hp'
      obtain rfl := hcons.eq_of_eventId (mem_readyOf.mp hp'of).1 (mem_readyOf.mp hx).1 hpid'
      exact hkept hp'
    rw [Bool.and_eq_true, decide_eq_true_eq, decide_eq_true_eq]
    exact ⟨⟨hnewer, hbound⟩, hother⟩

/-- What one transaction may do to positions and rows. -/
lemma step_forward {tokenHash : String → String} {s s' : OutboxRun} (h : RunInv s)
    {l : OutboxLabel} (hstep : s.step tokenHash l = some s') :
    Forward s.store s'.store ∧ LeavesProperly s.store s'.store l := by
  have hsame : Forward s.store s.store ∧ LeavesProperly s.store s.store l :=
    ⟨Forward.refl _, leaves_of_kept fun _ hr => hr⟩
  cases l with
  | stageEvents request =>
    simp only [OutboxRun.step] at hstep
    split at hstep <;> obtain rfl := Option.some.inj hstep
    · exact hsame
    · rename_i hstage
      obtain ⟨-, hstaged⟩ := stageEvents_spec h.consistent hstage
      refine ⟨forward_of_consumers hstaged.consumers, leaves_of_kept ?_⟩
      intro r hr
      exact hstaged.ready ▸ hr
  | markReady eventIds readyAt =>
    simp only [OutboxRun.step] at hstep
    split at hstep <;> obtain rfl := Option.some.inj hstep
    · exact hsame
    · rename_i hmark
      obtain ⟨-, hmarked⟩ := markReadyLoop_spec h.consistent hmark
      obtain ⟨new, hready, -⟩ := hmarked.ready
      refine ⟨forward_of_consumers hmarked.consumers, leaves_of_kept ?_⟩
      intro r hr
      dsimp only
      rw [hready]
      exact List.mem_append_left _ hr
  | registerConsumer tenantId consumerId startAt registeredAt =>
    simp only [OutboxRun.step] at hstep
    split at hstep <;> obtain rfl := Option.some.inj hstep
    · exact hsame
    · rename_i hregister
      obtain ⟨hnew, hstore, rfl, -⟩ := registerConsumer_ok hregister
      subst hstore
      refine ⟨?_, leaves_of_kept fun _ hr => hr⟩
      intro id c hc
      refine ⟨c, ?_, rfl, le_rfl⟩
      simp only [setHistory, setConsumer, InsertMap.get_set]
      rw [if_neg, hc]
      intro hid
      rw [hid, hnew] at hc
      cases hc
  | claimReady tenantId consumerId limit leaseSeconds leaseToken claimedAt =>
    simp only [OutboxRun.step] at hstep
    split at hstep <;> obtain rfl := Option.some.inj hstep
    · exact hsame
    · rename_i hclaim
      obtain ⟨c, now, hrow, -, -, -, -, hcase⟩ := claimReady_ok hclaim
      obtain ⟨hc, -⟩ := consumerRow_some hrow
      obtain rfl := h.consistent.consumerKeyed _ _ hc
      rcases hcase with ⟨-, rfl⟩ | ⟨last, expiresAt, -, -, -, rfl⟩
      · exact ⟨forward_setConsumer _ hc rfl le_rfl, leaves_of_kept fun _ hr => hr⟩
      · exact ⟨forward_setConsumer _ hc rfl le_rfl, leaves_of_kept fun _ hr => hr⟩
  | acknowledgeClaim tenantId consumerId leaseToken throughSequence acknowledgedAt =>
    simp only [OutboxRun.step] at hstep
    split at hstep <;> obtain rfl := Option.some.inj hstep
    · exact hsame
    · rename_i hack
      obtain ⟨c, lease, now, expiresAt, hrow, -, hlease, -, -, -, -, rfl, -, rfl⟩ :=
        acknowledgeClaim_ok hack
      obtain ⟨hc, -⟩ := consumerRow_some hrow
      obtain rfl := h.consistent.consumerKeyed _ _ hc
      have hcons := consistent_setConsumer h.consistent
        { c with lastAckedSequence := lease.claimedThrough, lease := none }
      have hforward := ((h.consumers _ _ hc).lease lease hlease).1
      have hset := forward_setConsumer
        { c with lastAckedSequence := lease.claimedThrough, lease := none } hc rfl hforward.le
      exact ⟨hset.prune hcons tenantId, leaves_prune hcons tenantId⟩
  | disableConsumer tenantId consumerId disabledAt =>
    simp only [OutboxRun.step] at hstep
    split at hstep <;> obtain rfl := Option.some.inj hstep
    · exact hsame
    · rename_i hdisable
      rcases disableConsumer_ok hdisable with rfl | ⟨c, hrow, -, rfl⟩
      · exact hsame
      · obtain ⟨hc, -⟩ := consumerRow_some hrow
        obtain rfl := h.consistent.consumerKeyed _ _ hc
        have hcons := consistent_setConsumer h.consistent
          { c with active := false, lease := none, disabledAt := some disabledAt }
        have hset := forward_setConsumer
          { c with active := false, lease := none, disabledAt := some disabledAt } hc rfl le_rfl
        exact ⟨hset.prune hcons tenantId, leaves_prune hcons tenantId⟩
  | abandonEvents tenantId eventIds now =>
    simp only [OutboxRun.step] at hstep
    split at hstep <;> obtain rfl := Option.some.inj hstep
    · exact hsame
    · rename_i habandon
      obtain ⟨-, rfl⟩ := abandonEvents_ok habandon
      have hgap := staged_recordDeliveryGap (removeEvents s.store eventIds) tenantId
        eventIds.length now
      obtain ⟨hconsumers, -, -, -⟩ := frame_removeEvents s.store eventIds
      constructor
      · intro id c hc
        simp only [clearLeases, InsertMap.get_mapValues, hgap.consumers, hconsumers, hc,
          Option.map_some]
        refine ⟨_, rfl, ?_⟩
        split_ifs
        · exact ⟨rfl, le_rfl⟩
        · exact ⟨rfl, le_rfl⟩
      · intro r hr hgone
        left
        refine ⟨tenantId, eventIds, now, rfl, ?_⟩
        by_contra hid
        apply hgone
        simp only [clearLeases, hgap.ready]
        rw [ready_removeEvents, List.mem_filter, decide_eq_true_eq]
        exact ⟨hr, hid⟩
  | acceptDeliveryGap tenantId consumerId generation =>
    simp only [OutboxRun.step] at hstep
    split at hstep <;> obtain rfl := Option.some.inj hstep
    · exact hsame
    · rename_i haccept
      obtain ⟨c, hrow, rfl⟩ := acceptDeliveryGap_ok haccept
      obtain ⟨hc, -⟩ := consumerRow_some hrow
      obtain rfl := h.consistent.consumerKeyed _ _ hc
      exact ⟨forward_setConsumer _ hc rfl le_rfl, leaves_of_kept fun _ hr => hr⟩

/-- What an accepted acknowledgement covers: the one lease of an active consumer, which has not
expired and whose token it has, and with it all the consumer has been handed. -/
def AcknowledgesWhole (tokenHash : String → String) (s : OutboxRun)
    (tenantId consumerId leaseToken : String) (throughSequence : ℕ)
    (acknowledgedAt : InstantText) : Prop :=
  ∃ c lease now expiresAt, s.store.consumerRow tenantId consumerId = some c ∧ c.active = true ∧
    c.lease = some lease ∧ canonicalInstant acknowledgedAt = some now ∧
    canonicalInstant lease.expiresAt = some expiresAt ∧ now < expiresAt ∧
    tokenHashMatches tokenHash lease.tokenHash leaseToken = true ∧
    throughSequence = lease.claimedThrough ∧
    throughSequence ∈ (s.history consumerId).batch ∧
    (∀ q ∈ (s.history consumerId).batch, c.lastAckedSequence < q ∧ q ≤ throughSequence) ∧
    (∀ q, s.store.Present tenantId q → c.lastAckedSequence < q → q ≤ throughSequence →
      q ∈ (s.history consumerId).batch)

/-- When events are claimed: by an active consumer that has no unexpired lease, and has accepted
the tenant's last gap. -/
def ClaimsInTurn (store : OutboxStore) (tenantId consumerId : String)
    (claimedAt : InstantText) : Prop :=
  ∃ c now, store.consumerRow tenantId consumerId = some c ∧ c.active = true ∧
    (store.readDeliveryGap tenantId).generation ≤ c.acceptedGapGeneration ∧
    canonicalInstant claimedAt = some now ∧ LeaseExpired c now

/-- What holds in a state of the outbox, and of the transactions that are made in it. -/
structure Delivers (tokenHash : String → String) (s : OutboxRun) : Prop where
  noSkip : ∀ id c, s.store.consumers.get id = some c → s.NoSkip c (s.history id)
  forward : ∀ l s', s.step tokenHash l = some s' → Forward s.store s'.store
  leaves : ∀ l s', s.step tokenHash l = some s' → LeavesProperly s.store s'.store l
  whole : ∀ tenantId consumerId leaseToken throughSequence acknowledgedAt store result,
    acknowledgeClaim tokenHash tenantId consumerId leaseToken throughSequence acknowledgedAt
      s.store = .ok (store, result) →
    s.AcknowledgesWhole tokenHash tenantId consumerId leaseToken throughSequence acknowledgedAt
  inTurn : ∀ tenantId consumerId limit leaseSeconds leaseToken claimedAt store claim,
    claimReady tokenHash tenantId consumerId limit leaseSeconds leaseToken claimedAt s.store =
      .ok (store, claim) →
    ClaimsInTurn s.store tenantId consumerId claimedAt

/-- In every state of every run of transactions the outbox delivers without skipping. -/
theorem delivers_of_reach {tokenHash : String → String} {s : OutboxRun}
    (hs : Reach (OutboxRun.step tokenHash) Started s) : Delivers tokenHash s := by
  have h := runInv_of_reach hs
  refine ⟨?_, ?_, ?_, ?_, ?_⟩
  · intro id c hc q hq hstart hle hgone
    exact (h.consumers id c hc).behind q hq hstart hgone hle
  · intro l s' hstep
    exact (step_forward h hstep).1
  · intro l s' hstep
    exact (step_forward h hstep).2
  · intro tenantId consumerId leaseToken throughSequence acknowledgedAt store result hack
    obtain ⟨c, lease, now, expiresAt, hrow, hactive, hlease, hnow, hexpires, hlt, htoken, rfl, -, -⟩ :=
      acknowledgeClaim_ok hack
    obtain ⟨hc, rfl⟩ := consumerRow_some hrow
    have hinv := h.consumers _ _ hc
    exact ⟨c, lease, now, expiresAt, hrow, hactive, hlease, hnow, hexpires, hlt, htoken, rfl,
      hinv.last lease hlease, hinv.within lease hlease, hinv.whole lease hlease⟩
  · intro tenantId consumerId limit leaseSeconds leaseToken claimedAt store claim hclaim
    obtain ⟨c, now, hrow, hactive, hgap, hnow, hexpired, -⟩ := claimReady_ok hclaim
    exact ⟨c, now, hrow, hactive, hgap, hnow, hexpired⟩

/-- The identity as the hash of a lease token. -/
def plainHash (token : String) : String := token

def demoToken : String := String.ofList (List.replicate 64 'a')

def demoEvent (id : String) : Except String ValidEvent :=
  .ok ⟨id, "t", "p", 1, Nat.one_pos, "src", none, "\x7b\x7d"⟩

def demoStage (ids : List String) : OutboxLabel :=
  .stageEvents ⟨ids.map demoEvent, fun _ => none, fun _ _ _ => none, .iso 0⟩

def demoStart (retain : ℕ) : OutboxRun :=
  ⟨OutboxStore.empty ⟨10, 1000, retain⟩, [], [], fun _ => ⟨0, [], [], []⟩⟩

/-- One consumer claims and acknowledges an event, which is pruned; another, registered at the
beginning of what is left, claims and acknowledges the next. -/
def prunedBeforeRegistration : List OutboxLabel :=
  [demoStage ["e1"], .markReady ["e1"] (.iso 1),
    .registerConsumer "t" "a" .beginning (.iso 2), .claimReady "t" "a" 10 5 demoToken (.iso 3),
    .acknowledgeClaim "t" "a" demoToken 1 (.iso 4),
    .registerConsumer "t" "b" .beginning (.iso 5),
    demoStage ["e2"], .markReady ["e2"] (.iso 6),
    .claimReady "t" "b" 10 5 demoToken (.iso 7), .acknowledgeClaim "t" "b" demoToken 2 (.iso 8)]

theorem skipped_pruned_before_registration :
    ¬ ∀ (tokenHash : String → String) (s : OutboxRun),
      Reach (OutboxRun.step tokenHash) Started s →
      ∀ id c, s.store.consumers.get id = some c → s.NoSkipAtAll c (s.history id) := by
  intro h
  have hview : (runSteps (OutboxRun.step plainHash) (demoStart 0) prunedBeforeRegistration).map
      (fun s => (s.store.consumers.get "b").map fun c =>
        decide (s.NoSkipAtAll c (s.history "b"))) = some (some false) := by
    decide
  obtain ⟨s, hrun, hskip⟩ := Option.map_eq_some_iff.mp hview
  obtain ⟨c, hc, hfalse⟩ := Option.map_eq_some_iff.mp hskip
  have hstart : Started (demoStart 0) := ⟨⟨_, rfl⟩, rfl, rfl⟩
  have hreach := reachWhen_runWhen (.start hstart) hrun
  exact (decide_eq_false_iff_not.mp hfalse) (h plainHash s hreach "b" c hc)

theorem delivers_after_acknowledgement :
    ∃ s, runSteps (OutboxRun.step plainHash) (demoStart 0) prunedBeforeRegistration = some s ∧
      (s.history "b").delivered = [2] ∧ Delivers plainHash s := by
  have hview : (runSteps (OutboxRun.step plainHash) (demoStart 0) prunedBeforeRegistration).map
      (fun s => (s.history "b").delivered) = some [2] := by
    decide
  obtain ⟨s, hrun, hdelivered⟩ := Option.map_eq_some_iff.mp hview
  have hstart : Started (demoStart 0) := ⟨⟨_, rfl⟩, rfl, rfl⟩
  exact ⟨s, hrun, hdelivered, delivers_of_reach (reachWhen_runWhen (.start hstart) hrun)⟩

end OutboxRun

end Maple.Outbox
