import Maple.ControlOutbox
import Maple.OutboxDelivery

/-! The control store can always be reopened: every run of operations leaves a database that passes
its own validation. -/

namespace Maple.Control

open Outbox Outbox.OutboxStore Projection TransitionRun

variable {β : Type}

/-- The revisions of a projection, in the order they were saved. -/
def revisionsOf (store : ControlStore β) (tenantId id : String) : List (SignalProjectionSpec β) :=
  store.revisions.filter fun r => r.tenantId = tenantId ∧ r.id = id

/-- The revisions of each projection are numbered from 1 on, and the last of them is active if and
only if it is enabled. -/
structure ProjectionsSound (store : ControlStore β) : Prop where
  contiguous : ∀ tenantId id, ∃ n,
    (revisionsOf store tenantId id).map (·.revision) = List.range' 1 n
  active : ∀ tenantId id, store.activeRevision tenantId id =
    (revisionsOf store tenantId id).getLast?.bind ControlStore.expectedActiveRevision

lemma max?_range' (n : ℕ) : (List.range' 1 n).max? = if n = 0 then none else some n := by
  cases n with
  | zero => rfl
  | succ n =>
    rw [if_neg (Nat.succ_ne_zero n), List.max?_eq_some_iff]
    constructor
    · rw [List.mem_range'_1]
      omega
    · intro q hq
      rw [List.mem_range'_1] at hq
      omega

lemma revisionsOf_insert (store : ControlStore β) (spec : SignalProjectionSpec β)
    (tenantId id : String) : revisionsOf (store.insertRevision spec) tenantId id =
      if spec.tenantId = tenantId ∧ spec.id = id then revisionsOf store tenantId id ++ [spec]
      else revisionsOf store tenantId id := by
  unfold revisionsOf ControlStore.insertRevision
  dsimp only
  rw [List.filter_append]
  by_cases hkey : spec.tenantId = tenantId ∧ spec.id = id
  · simp [hkey]
  · simp [hkey]

lemma activeRevision_insert (store : ControlStore β) (spec : SignalProjectionSpec β)
    (tenantId id : String) : (store.insertRevision spec).activeRevision tenantId id =
      if spec.tenantId = tenantId ∧ spec.id = id then ControlStore.expectedActiveRevision spec
      else store.activeRevision tenantId id := by
  have hother : (store.otherActive spec).find? (fun a => a.tenantId = tenantId ∧
      a.projectionId = id) = if spec.tenantId = tenantId ∧ spec.id = id then none
        else store.active.find? fun a => a.tenantId = tenantId ∧ a.projectionId = id := by
    unfold ControlStore.otherActive
    rw [List.find?_filter]
    split_ifs with hkey
    · apply List.find?_eq_none.mpr
      rintro a _ ha
      simp only [decide_eq_true_eq] at ha
      exact ha.1 ⟨ha.2.1.trans hkey.1.symm, ha.2.2.trans hkey.2.symm⟩
    · apply List.find?_congr
      intro a _
      rw [decide_eq_decide, decide_eq_true_eq, decide_eq_true_eq, and_iff_right_iff_imp]
      rintro ⟨rfl, rfl⟩ ⟨htenant, hid⟩
      exact hkey ⟨htenant.symm, hid.symm⟩
  unfold ControlStore.activeRevision ControlStore.insertRevision ControlStore.expectedActiveRevision
  dsimp only
  by_cases henabled : spec.enabled
  · rw [if_pos henabled, if_pos henabled, List.find?_append, hother]
    by_cases hkey : spec.tenantId = tenantId ∧ spec.id = id
    · rw [if_pos hkey, if_pos hkey, List.find?_cons_of_pos (by simpa using hkey)]
      rfl
    · rw [if_neg hkey, if_neg hkey, List.find?_cons_of_neg (by simpa using hkey),
        List.find?_nil, Option.or_none]
  · rw [if_neg henabled, if_neg henabled, hother]
    split_ifs
    · rfl
    · rfl

lemma ProjectionsSound.save [DecidableEq β] {store store' : ControlStore β}
    (h : ProjectionsSound store) {spec : SignalProjectionSpec β}
    (hsave : store.saveProjection spec = .ok store') : ProjectionsSound store' := by
  unfold ControlStore.saveProjection at hsave
  dsimp only at hsave
  split at hsave
  · split_ifs at hsave
    exact Except.ok.inj hsave ▸ h
  · split_ifs at hsave with hexpected
    obtain rfl := Except.ok.inj hsave
    simp only [ne_eq, not_not] at hexpected
    constructor
    · intro tenantId id
      obtain ⟨n, hn⟩ := h.contiguous tenantId id
      rw [revisionsOf_insert]
      split_ifs with hkey
      · obtain ⟨rfl, rfl⟩ := hkey
        refine ⟨n + 1, ?_⟩
        have hlatest : store.latestRevision spec.tenantId spec.id =
            if n = 0 then none else some n := by
          rw [← max?_range', ← hn]
          rfl
        have hnext : spec.revision = 1 + n := by
          rw [hexpected, hlatest]
          split_ifs with hzero
          · rw [hzero]
            rfl
          · exact Nat.add_comm n 1
        rw [List.map_append, hn, List.map_singleton, hnext, List.range'_1_concat]
      · exact ⟨n, hn⟩
    · intro tenantId id
      rw [activeRevision_insert, revisionsOf_insert]
      split_ifs
      · rw [List.getLast?_append, List.getLast?_singleton]
        rfl
      · exact h.active tenantId id

structure DatabaseSound (limits : OutboxLimits) (db : ControlDatabase β) : Prop where
  version : db.userVersion = controlSchemaVersion
  limits : db.outbox.limits = limits
  outbox : OutboxSound db.outbox
  projections : ProjectionsSound db.projections
  failures : ∀ r ∈ db.failures, 0 < r.projectionRevision

lemma databaseSound_fresh (limits : OutboxLimits) :
    DatabaseSound limits (fresh limits : ControlDatabase β) := by
  refine ⟨rfl, rfl, outboxSound_empty limits, ⟨?_, ?_⟩, ?_⟩
  · intro tenantId id
    exact ⟨0, rfl⟩
  · intro tenantId id
    rfl
  · intro r hr
    cases hr

/-- A transaction on the outbox keeps all if it keeps the outbox and its limits. -/
lemma DatabaseSound.onOutbox {α : Type} {limits : OutboxLimits} {db db' : ControlDatabase β}
    (h : DatabaseSound limits db) {transaction : Transaction α}
    (hkeeps : ∀ store' result, transaction db.outbox = .ok (store', result) →
      OutboxSound store' ∧ store'.limits = db.outbox.limits)
    (hok : onOutbox db transaction = .ok db') : DatabaseSound limits db' := by
  unfold Control.onOutbox at hok
  split at hok
  · cases hok
  · rename_i store' result htransaction
    obtain rfl := Except.ok.inj hok
    obtain ⟨hsound, hlimits⟩ := hkeeps store' result htransaction
    exact ⟨h.version, hlimits.trans h.limits, hsound, h.projections, h.failures⟩

lemma limits_prune {store : OutboxStore} (h : Consistent store) (tenantId : String) :
    (store.pruneAcknowledgedReady tenantId).1.limits = store.limits := by
  rw [pruneAcknowledgedReady_eq h]
  exact (frame_removeEvents store _).2.2.1

lemma failures_insert (tenantId : String) (failure : ProjectionFailure) {db : ControlDatabase β}
    (h : ∀ r ∈ db.failures, 0 < r.projectionRevision) :
    ∀ r ∈ (insertFailure tenantId db failure).failures, 0 < r.projectionRevision := by
  intro r hr
  unfold insertFailure at hr
  dsimp only at hr
  split_ifs at hr with hskip
  · exact h r hr
  · rcases List.mem_append.mp hr with hr | hr
    · exact h r hr
    · rw [List.mem_singleton.mp hr]
      push Not at hskip
      exact Nat.pos_of_ne_zero hskip.1

lemma DatabaseSound.insertFailures {limits : OutboxLimits} {db : ControlDatabase β}
    (h : DatabaseSound limits db) (tenantId : String) (failures : List ProjectionFailure) :
    DatabaseSound limits (failures.foldl (insertFailure tenantId) db) := by
  induction failures generalizing db with
  | nil => exact h
  | cons failure rest ih =>
    apply ih
    have hfailures := failures_insert tenantId failure h.failures
    unfold insertFailure at *
    dsimp only at *
    split_ifs at *
    · exact h
    · exact ⟨h.version, h.limits, h.outbox, h.projections, hfailures⟩

/-- Every operation whose transaction commits keeps the database sound. -/
lemma DatabaseSound.transact [DecidableEq β] {limits : OutboxLimits} {tokenHash : String → String}
    {db db' : ControlDatabase β} (h : DatabaseSound limits db) {operation : ControlOperation β}
    (hok : transact tokenHash db operation = .ok db') : DatabaseSound limits db' := by
  have hcons := h.outbox.consistent
  cases operation with
  | saveProjection spec =>
    cases spec with
    | error message => cases hok
    | ok spec =>
      rw [Control.transact] at hok
      split at hok
      · cases hok
      · rename_i projections hsave
        obtain rfl := Except.ok.inj hok
        exact ⟨h.version, h.limits, h.outbox, h.projections.save hsave, h.failures⟩
  | stageEvents candidates sourceFingerprints stagedAt =>
    apply h.onOutbox _ hok
    intro store' result hstage
    exact ⟨h.outbox.stageEvents hstage, (stageEvents_spec hcons hstage).2.limits⟩
  | markReady eventIds readyAt =>
    apply h.onOutbox _ hok
    intro store' result hmark
    exact ⟨h.outbox.markReadyLoop hmark, (markReadyLoop_spec hcons hmark).2.limits⟩
  | registerConsumer tenantId consumerId startAt registeredAt =>
    apply h.onOutbox _ hok
    intro store' row hregister
    refine ⟨h.outbox.registerConsumer hregister, ?_⟩
    obtain ⟨-, rfl, -⟩ := registerConsumer_ok hregister
    rfl
  | claimReady tenantId consumerId limit leaseSeconds leaseToken claimedAt =>
    apply h.onOutbox _ hok
    intro store' claim hclaim
    refine ⟨h.outbox.claimReady hclaim, ?_⟩
    obtain ⟨c, now, -, -, -, -, -, hcase⟩ := claimReady_ok hclaim
    rcases hcase with ⟨-, rfl⟩ | ⟨last, expiresAt, -, -, -, rfl⟩
    · rfl
    · rfl
  | acknowledgeClaim tenantId consumerId leaseToken throughSequence acknowledgedAt =>
    apply h.onOutbox _ hok
    intro store' result hack
    refine ⟨h.outbox.acknowledgeClaim hack, ?_⟩
    obtain ⟨c, lease, now, expiresAt, -, -, -, -, -, -, -, -, -, rfl⟩ := acknowledgeClaim_ok hack
    exact limits_prune (OutboxRun.consistent_setConsumer hcons _) tenantId
  | disableConsumer tenantId consumerId disabledAt =>
    apply h.onOutbox _ hok
    intro store' row hdisable
    refine ⟨h.outbox.disableConsumer hdisable, ?_⟩
    rcases disableConsumer_ok hdisable with rfl | ⟨c, -, -, rfl⟩
    · rfl
    · exact limits_prune (OutboxRun.consistent_setConsumer hcons _) tenantId
  | abandonEvents tenantId eventIds now =>
    apply h.onOutbox _ hok
    intro store' result habandon
    refine ⟨h.outbox.abandonEvents habandon, ?_⟩
    obtain ⟨-, rfl⟩ := abandonEvents_ok habandon
    have hgap := staged_recordDeliveryGap (removeEvents db.outbox eventIds) tenantId
      eventIds.length now
    exact hgap.limits.trans (frame_removeEvents db.outbox eventIds).2.2.1
  | acceptDeliveryGap tenantId consumerId generation =>
    apply h.onOutbox _ hok
    intro store' gap haccept
    refine ⟨h.outbox.acceptDeliveryGap haccept, ?_⟩
    obtain ⟨c, -, rfl⟩ := acceptDeliveryGap_ok haccept
    rfl
  | recordProjectionFailures tenantId failures =>
    obtain rfl := Except.ok.inj hok
    have hinserted := h.insertFailures tenantId failures
    refine ⟨hinserted.version, hinserted.limits, hinserted.outbox, hinserted.projections, ?_⟩
    intro r hr
    exact hinserted.failures r (List.mem_of_mem_filter hr)

theorem databaseSound_of_reach [DecidableEq β] {limits : OutboxLimits}
    {tokenHash : String → String} {db : ControlDatabase β}
    (h : Reach (step tokenHash) (fun db => db = fresh limits) db) : DatabaseSound limits db := by
  apply h.invariant
  · rintro db rfl
    exact databaseSound_fresh limits
  · intro db l db' hinv _ hstep
    obtain rfl := Option.some.inj hstep
    unfold execute
    split
    · exact hinv
    · exact hinv.transact ‹_›

lemma findRevision_mem {store : ControlStore β} {r : SignalProjectionSpec β}
    (h : ProjectionsSound store) (hr : r ∈ store.revisions) : 0 < r.revision := by
  obtain ⟨n, hn⟩ := h.contiguous r.tenantId r.id
  have hmem : r ∈ revisionsOf store r.tenantId r.id := by
    unfold revisionsOf
    rw [List.mem_filter, decide_eq_true_eq]
    exact ⟨hr, rfl, rfl⟩
  have hrange : r.revision ∈ List.range' 1 n := by
    rw [← hn]
    exact List.mem_map_of_mem hmem
  rw [List.mem_range'_1] at hrange
  omega

/-- The one ready row of a ready event, and no row of a staged one. -/
lemma readinessOf_eq {store : OutboxStore} (h : OutboxSound store) {id : String} {e : OutboxEvent}
    (he : store.events.get id = some e) :
    (e.state = .ready → ∃ r, readinessOf store e.eventId = some r ∧ r ∈ store.ready ∧
      r.eventId = e.eventId ∧ e.readyAt = some r.readyAt) ∧
    (e.state = .staged → readinessOf store e.eventId = none) := by
  constructor
  · intro hready
    obtain ⟨r, hr, hid, hat⟩ := (h.events id e he).ready hready
    cases hfind : readinessOf store e.eventId with
    | none =>
      have hnone := List.find?_eq_none.mp hfind r hr
      simp [hid] at hnone
    | some r' =>
      have hr' : r' ∈ store.ready := List.mem_of_find?_eq_some hfind
      have hid' : r'.eventId = e.eventId := by simpa using List.find?_some hfind
      obtain rfl := h.consistent.eq_of_eventId hr hr' (hid.trans hid'.symm)
      exact ⟨r, rfl, hr, hid, hat⟩
  · intro hstaged
    apply List.find?_eq_none.mpr
    intro r hr hid
    rw [decide_eq_true_eq] at hid
    obtain ⟨e', he', hstate⟩ := h.consistent.stored r hr
    rw [hid, h.consistent.keyed id e he, he] at he'
    obtain rfl := Option.some.inj he'
    rw [hstaged] at hstate
    cases hstate

lemma quickCheck_of_sound {limits : OutboxLimits} {db : ControlDatabase β}
    (h : DatabaseSound limits db) : quickCheck db = true := by
  obtain ⟨-, -, hsound, hprojections, hfailures⟩ := h
  unfold quickCheck
  rw [decide_eq_true_eq]
  refine ⟨?_, ?_, ?_, ?_, ?_, ?_, ?_⟩
  · apply List.all_eq_true.mpr
    intro r hr
    simpa using findRevision_mem hprojections hr
  · apply List.all_eq_true.mpr
    intro e he
    obtain ⟨id, hid⟩ := InsertMap.mem_values.mp he
    simpa using (hsound.events id e hid).revision
  · apply List.all_eq_true.mpr
    intro r hr
    simpa using hfailures r hr
  · apply List.all_eq_true.mpr
    intro c hc
    obtain ⟨id, hid⟩ := InsertMap.mem_values.mp hc
    obtain ⟨-, hlease, hactive, -⟩ := hsound.consumers id c hid
    unfold consumerConstraints
    rw [decide_eq_true_eq, Option.all_eq_true]
    refine ⟨hactive, ?_⟩
    intro l hl
    have hafter := (hlease l hl).2
    simp only [decide_eq_true_eq]
    omega
  · rw [hsound.accounted]
    exact Int.natCast_nonneg _
  · rw [hsound.accounted]
    apply List.sum_nonneg
    intro n hn
    obtain ⟨e, -, rfl⟩ := List.mem_map.mp hn
    exact Int.natCast_nonneg _
  · apply List.all_eq_true.mpr
    intro g hg
    obtain ⟨tenantId, hget⟩ := InsertMap.mem_values.mp hg
    obtain ⟨hgeneration, hdropped, hlast⟩ := hsound.gaps tenantId g hget
    rw [decide_eq_true_eq]
    exact ⟨hgeneration, hdropped, hlast⟩

lemma validateOpenDatabase_of_sound {limits : OutboxLimits} {db : ControlDatabase β}
    (h : DatabaseSound limits db) : ∃ v, validateOpenDatabase db = .ok v := by
  have hsound := h.outbox
  have hreadiness : db.outbox.events.values.any (invalidReadiness db.outbox) = false := by
    apply List.any_eq_false.mpr
    intro e he
    obtain ⟨id, hid⟩ := InsertMap.mem_values.mp he
    obtain ⟨hready, hstaged⟩ := readinessOf_eq hsound hid
    unfold invalidReadiness
    cases hstate : e.state with
    | ready =>
      obtain ⟨r, hr, -, -, hat⟩ := hready hstate
      simp [hr, hat]
    | staged =>
      have hat := ((hsound.events id e hid).staged hstate).1
      simp [hstaged hstate, hat]
  have hconsumers : db.outbox.consumers.values.findSome? invalidConsumer = none := by
    apply List.findSome?_eq_none_iff.mpr
    intro c hc
    obtain ⟨id, hid⟩ := InsertMap.mem_values.mp hc
    obtain ⟨hregistered, hlease, -, hdisabled⟩ := hsound.consumers id c hid
    unfold invalidConsumer
    rw [if_neg hregistered, if_neg, if_neg]
    · cases hat : c.disabledAt with
      | none => simp
      | some t => simpa using hdisabled t hat
    · cases hl : c.lease with
      | none => simp
      | some l => simpa using (hlease l hl).1
  have hfingerprints : db.outbox.events.values.any invalidFingerprint = false := by
    apply List.any_eq_false.mpr
    intro e he
    obtain ⟨id, hid⟩ := InsertMap.mem_values.mp he
    unfold invalidFingerprint
    rw [decide_eq_true_eq]
    rintro ⟨hstaged, hoccurrence, hbad⟩
    rw [((hsound.events id e hid).staged hstaged).2 hoccurrence] at hbad
    cases hbad
  unfold validateOpenDatabase
  rw [if_neg (not_not.mpr (quickCheck_of_sound h)), if_neg (not_not.mpr h.version),
    if_neg (not_not.mpr hsound.accounted), hreadiness, hconsumers, hfingerprints]
  exact ⟨_, rfl⟩

/-- What holds of the database of a store with these limits, whatever operations it has run. -/
structure Reopens [DecidableEq β] (limits : OutboxLimits) (tokenHash : String → String)
    (db : ControlDatabase β) : Prop where
  accepted : ∃ v, validateOpenDatabase db = .ok v
  accounted : db.outbox.usage = countedUsage db.outbox
  bounded : WithinLimits limits db.outbox.usage
  ready : ∀ id e, db.outbox.events.get id = some e → (e.state = .ready ↔
    ∃ r, (db.outbox.ready.filter fun r => r.eventId = id) = [r] ∧ e.readyAt = some r.readyAt)
  fingerprints : ∀ id e, db.outbox.events.get id = some e → e.state = .staged →
    e.sourceOccurrenceId.isSome → ∃ f, e.sourceFingerprint = some f ∧ isSourceFingerprint f
  projections : ProjectionsSound db.projections
  consumers : ∀ id c, db.outbox.consumers.get id = some c → ConsumerSound c
  gaps : ∀ tenantId g, db.outbox.gaps.get tenantId = some g → GapSound g
  -- What fails in its transaction changes nothing; what fails after it has committed.
  failed : ∀ operation readFails, (execute tokenHash db operation readFails).2 = false →
    (execute tokenHash db operation readFails).1 = db ∨
      readsAfterCommit operation ∧ readFails ∧ ∃ db', transact tokenHash db operation = .ok db' ∧
        (execute tokenHash db operation readFails).1 = db'

lemma filter_eventId {store : OutboxStore} (h : Consistent store) {r : ReadyEvent}
    (hr : r ∈ store.ready) : (store.ready.filter fun x => x.eventId = r.eventId) = [r] := by
  have hnodup : (store.ready.filter fun x => x.eventId = r.eventId).Nodup :=
    (List.Nodup.of_map _ h.ids).filter _
  have hmem : ∀ x, x ∈ store.ready.filter (fun x => x.eventId = r.eventId) ↔ x ∈ [r] := by
    intro x
    rw [List.mem_filter, decide_eq_true_eq, List.mem_singleton]
    constructor
    · rintro ⟨hx, hid⟩
      exact h.eq_of_eventId hx hr hid
    · rintro rfl
      exact ⟨hr, rfl⟩
  have hperm := (List.perm_ext_iff_of_nodup hnodup (List.nodup_singleton r)).mpr hmem
  exact List.perm_singleton.mp hperm

theorem reopens_of_reach [DecidableEq β] {limits : OutboxLimits} {tokenHash : String → String}
    {db : ControlDatabase β} (h : Reach (step tokenHash) (fun db => db = fresh limits) db) :
    Reopens limits tokenHash db := by
  have hdb := databaseSound_of_reach h
  have hsound := hdb.outbox
  refine ⟨validateOpenDatabase_of_sound hdb, hsound.accounted, hdb.limits ▸ hsound.bounded, ?_, ?_,
    hdb.projections, hsound.consumers, hsound.gaps, ?_⟩
  · intro id e he
    have hkey := hsound.consistent.keyed id e he
    constructor
    · intro hready
      obtain ⟨r, -, hr, hid, hat⟩ := (readinessOf_eq hsound he).1 hready
      rw [← hkey, ← hid]
      exact ⟨r, filter_eventId hsound.consistent hr, hat⟩
    · rintro ⟨r, hrow, hat⟩
      have hr : r ∈ db.outbox.ready.filter (fun r => r.eventId = id) := by
        rw [hrow]
        exact List.mem_singleton_self r
      rw [List.mem_filter, decide_eq_true_eq] at hr
      obtain ⟨e', he', hstate⟩ := hsound.consistent.stored r hr.1
      rw [hr.2, he] at he'
      exact Option.some.inj he' ▸ hstate
  · intro id e he hstaged hoccurrence
    exact source_of_badFingerprint (((hsound.events id e he).staged hstaged).2 hoccurrence)
  · intro operation readFails hfailed
    unfold execute at *
    split at hfailed
    · exact Or.inl rfl
    · rename_i db' htransact
      obtain ⟨hreads, hfails⟩ : readsAfterCommit operation = true ∧ readFails = true := by
        simpa using hfailed
      exact Or.inr ⟨hreads, hfails, db', htransact, rfl⟩

def demoLimits : OutboxLimits := ⟨10, 1000, 1⟩

def demoControl : List (ControlOperation Unit × Bool) :=
  [(.saveProjection (.ok ⟨"p", 1, true, "t", "log", ()⟩), false),
    (.stageEvents [OutboxRun.demoEvent "e1"] (fun _ => none) (.iso 0), false),
    (.markReady ["e1"] (.iso 1), false)]

theorem reopens_after_marking : ∃ db, runSteps (step OutboxRun.plainHash) (fresh demoLimits)
    demoControl = some db ∧ db.outbox.ready.length = 1 ∧
      Reopens demoLimits OutboxRun.plainHash db := by
  have hview : (runSteps (step OutboxRun.plainHash) (fresh demoLimits) demoControl).map
      (fun db => db.outbox.ready.length) = some 1 := by
    decide
  obtain ⟨db, hrun, hready⟩ := Option.map_eq_some_iff.mp hview
  exact ⟨db, hrun, hready, reopens_of_reach (reachWhen_runWhen (.start rfl) hrun)⟩

/-- Staging commits, and then cannot read the staged source kinds. -/
theorem failed_after_commit : ¬ ∀ (limits : OutboxLimits) (tokenHash : String → String)
    (db : ControlDatabase Unit), Reach (step tokenHash) (fun db => db = fresh limits) db →
    ∀ operation readFails, (execute tokenHash db operation readFails).2 = false →
      (execute tokenHash db operation readFails).1 = db := by
  intro h
  have hsame := h demoLimits OutboxRun.plainHash (fresh demoLimits) (.start rfl)
    (.stageEvents [OutboxRun.demoEvent "e1"] (fun _ => none) (.iso 0)) true (by decide)
  have hcount := congrArg (fun db => db.outbox.usage.count) hsame
  revert hcount
  decide

end Maple.Control
