import Maple.OrgQueueBytes

/-! The counters equal what is held, in every run that loses no counted bytes. -/

namespace Maple.OrgQueue

open Wal TransitionRun

variable {orgId : String} {s s' : QueueSystem}

@[simp] lemma bytesOf_nil : bytesOf orgId [] = 0 := rfl

@[simp] lemma bytesOf_cons (frame : QueuedFrame) (frames : List QueuedFrame) :
    bytesOf orgId (frame :: frames) = frameBytesOf orgId frame + bytesOf orgId frames := rfl

@[simp] lemma bytesOf_append (xs ys : List QueuedFrame) :
    bytesOf orgId (xs ++ ys) = bytesOf orgId xs + bytesOf orgId ys := by
  simp [bytesOf]

/-- What adding bytes for one organisation does to the count of another. -/
lemma addOrgQueueBytes_apply (h : orgId ≠ "") (counters : Counters) (frame : QueuedFrame) :
    addOrgQueueBytes counters frame.orgId frame.queuedBytes orgId =
      counters orgId + frameBytesOf orgId frame := by
  unfold addOrgQueueBytes frameBytesOf
  by_cases hsame : frame.orgId = orgId
  · subst hsame
    by_cases hzero : frame.queuedBytes = 0
    · simp [Uncounted, hzero]
    · simp [Uncounted, h, hzero]
  · split_ifs
    · rfl
    · rw [Function.update_of_ne (Ne.symm hsame)]
      rfl

lemma releaseOrgQueueBytes_apply (h : orgId ≠ "") (counters : Counters) (from_ : String)
    (bytes : ℕ) :
    releaseOrgQueueBytes counters from_ bytes orgId =
      counters orgId - if from_ = orgId then bytes else 0 := by
  unfold releaseOrgQueueBytes
  by_cases hsame : from_ = orgId
  · subst hsame
    by_cases hzero : bytes = 0
    · simp [Uncounted, hzero]
    · simp [Uncounted, h, hzero]
  · split_ifs
    · rfl
    · rw [Function.update_of_ne (Ne.symm hsame)]
      rfl

lemma releaseOrgQueueBytes_le (counters : Counters) (from_ : String) (bytes : ℕ) :
    releaseOrgQueueBytes counters from_ bytes orgId ≤ counters orgId := by
  unfold releaseOrgQueueBytes
  split_ifs
  · exact le_rfl
  · by_cases hsame : orgId = from_
    · subst hsame
      simp
    · rw [Function.update_of_ne hsame]

/-- A reservation that succeeds counts its bytes, and stays within the limit. -/
lemma reserveOrgBytesIn_ok (orgId : String) {limit bytes : ℕ} {counters counters' : Counters} {to_ : String}
    (h : reserveOrgBytesIn limit counters to_ bytes = .ok counters') :
    (orgId ≠ "" → counters' orgId = counters orgId + if to_ = orgId then bytes else 0) ∧
      (counters' orgId ≤ limit ∨ counters' orgId = counters orgId) := by
  unfold reserveOrgBytesIn at h
  split_ifs at h with hskip hfull
  · obtain rfl := Except.ok.inj h
    refine ⟨fun horg => ?_, Or.inr rfl⟩
    rcases hskip with hempty | hzero
    · rw [if_neg (by rw [hempty]; exact Ne.symm horg)]
      rfl
    · rw [hzero, ite_self]
      rfl
  · obtain rfl := Except.ok.inj h
    by_cases hsame : orgId = to_
    · subst hsame
      simp only [Function.update_self, if_true]
      refine ⟨fun _ => trivial, Or.inl ?_⟩
      omega
    · rw [Function.update_of_ne hsame, if_neg (Ne.symm hsame)]
      exact ⟨fun _ => rfl, Or.inr rfl⟩

/-- What every run that loses no counted bytes keeps. -/
structure QueueInv (s : QueueSystem) : Prop where
  exact : ∀ orgId, orgId ≠ "" → s.counters orgId = heldBytes orgId s
  bounded : ∀ orgId, s.counters orgId ≤ s.limit + bytesOf orgId s.replayed

lemma heldBytes_idle (h : Idle s) : heldBytes orgId s = 0 := by
  obtain ⟨htasks, hlanes, hsending⟩ := h
  have htask : s.tasks.weight (AcceptTask.reservedBytes orgId) = 0 := by
    refine SeqMap.weight_eq_zero fun id task htask => ?_
    obtain ⟨rest, rfl⟩ := htasks id task htask
    rfl
  have hlane : s.lanes.weight (LaneQueue.bytes orgId) = 0 := by
    refine SeqMap.weight_eq_zero fun lane queue hqueue => ?_
    obtain ⟨hchannel, hheld⟩ := hlanes lane queue hqueue
    simp [LaneQueue.bytes, hchannel, hheld]
  rw [heldBytes, htask, hlane, hsending]
  rfl

lemma QueueInv.countersExact (h : QueueInv s) : CountersExact s where
  exact := h.exact
  idle := fun hidle orgId horg => (h.exact orgId horg).trans (heldBytes_idle hidle)
  bounded := h.bounded
  accept_bounded := by
    intro id s' hstep orgId
    simp only [queueStep, QueueSystem.reserve] at hstep
    split at hstep
    swap
    · cases hstep
    split at hstep
    · cases hstep
    split_ifs at hstep
    · split at hstep
      · obtain rfl := Option.some.inj hstep
        exact le_max_right _ _
      · rename_i counters hreserve
        obtain rfl := Option.some.inj hstep
        rcases (reserveOrgBytesIn_ok orgId hreserve).2 with hle | heq
        · exact hle.trans (le_max_left _ _)
        · exact heq.le.trans (le_max_right _ _)
    · obtain rfl := Option.some.inj hstep
      exact le_max_right _ _

lemma queueInv_boot (limit capacity n : ℕ) (replaying : List (ℕ × QueuedFrame)) :
    QueueInv (bootQueue limit capacity n replaying) where
  exact := by
    intro orgId _
    have hidle : Idle (bootQueue limit capacity n replaying) := by
      refine ⟨fun id task htask => ?_, fun lane queue hqueue => ?_, rfl⟩
      · cases htask
      · simp only [bootQueue, idleLanes] at hqueue
        split_ifs at hqueue
        obtain rfl := Option.some.inj hqueue
        exact ⟨rfl, rfl⟩
    exact (heldBytes_idle hidle).symm
  bounded := fun orgId => Nat.zero_le _

/-- Dropping the guard of a call takes back exactly what it had reserved. -/
lemma QueueInv.endTask (h : QueueInv s) {id : ℕ} {task : AcceptTask}
    (htask : s.tasks.get id = some task) : QueueInv (s.endTask id task) := by
  cases task with
  | idle rest =>
    refine ⟨fun orgId horg => ?_, h.bounded⟩
    have hexact := h.exact orgId horg
    have hweight := SeqMap.weight_erase_old (AcceptTask.reservedBytes orgId) htask
    have hzero : (AcceptTask.idle rest).reservedBytes orgId = 0 := rfl
    simp only [QueueSystem.endTask, heldBytes] at hexact ⊢
    omega
  | reserved lane frame rest =>
    refine ⟨fun orgId horg => ?_, fun orgId => ?_⟩
    · have hexact := h.exact orgId horg
      have hweight := SeqMap.weight_erase_old (AcceptTask.reservedBytes orgId) htask
      have hbytes : (AcceptTask.reserved lane frame rest).reservedBytes orgId =
          if frame.orgId = orgId then frame.payload.length else 0 := rfl
      have hrelease := releaseOrgQueueBytes_apply horg s.counters frame.orgId frame.payload.length
      simp only [QueueSystem.endTask, heldBytes] at hexact ⊢
      omega
    · exact (releaseOrgQueueBytes_le _ _ _).trans (h.bounded orgId)

lemma QueueInv.reserve (h : QueueInv s) {id : ℕ} (hstep : s.reserve id = some s') :
    QueueInv s' := by
  unfold QueueSystem.reserve at hstep
  split at hstep
  swap
  · cases hstep
  rename_i lane frame rest htask
  split at hstep
  · cases hstep
  split_ifs at hstep
  · split at hstep
    · obtain rfl := Option.some.inj hstep
      exact h.endTask htask
    · rename_i counters hreserve
      obtain rfl := Option.some.inj hstep
      refine ⟨fun orgId horg => ?_, fun orgId => ?_⟩
      · have hexact := h.exact orgId horg
        have hcounter := (reserveOrgBytesIn_ok orgId hreserve).1 horg
        have hweight := SeqMap.weight_set_old (v := .reserved lane frame rest)
          (AcceptTask.reservedBytes orgId) htask
        have hzero : (AcceptTask.idle ((lane, frame) :: rest)).reservedBytes orgId = 0 := rfl
        have hbytes : (AcceptTask.reserved lane frame rest).reservedBytes orgId =
            if frame.orgId = orgId then frame.payload.length else 0 := rfl
        simp only [heldBytes] at hexact ⊢
        omega
      · have hbounded := h.bounded orgId
        rcases (reserveOrgBytesIn_ok orgId hreserve).2 with hle | heq
        · exact hle.trans (Nat.le_add_right _ _)
        · exact heq.le.trans hbounded
  · obtain rfl := Option.some.inj hstep
    exact h.endTask htask

/-- A lane that hands a frame on, or takes one in, holds the same bytes plus that frame's. -/
lemma weight_lanes_set {lane : ℕ} {queue queue' : LaneQueue} {extra : ℕ}
    (hlane : s.lanes.get lane = some queue)
    (hbytes : queue'.bytes orgId = queue.bytes orgId + extra) :
    (s.lanes.set lane queue').weight (LaneQueue.bytes orgId) =
      s.lanes.weight (LaneQueue.bytes orgId) + extra := by
  have hweight := SeqMap.weight_set_old (v := queue') (LaneQueue.bytes orgId) hlane
  omega

lemma LaneQueue.bytes_push (orgId : String) (queue : LaneQueue) (frame : QueuedFrame) :
    LaneQueue.bytes orgId { queue with channel := queue.channel ++ [frame] } =
      queue.bytes orgId + frameBytesOf orgId frame := by
  simp only [LaneQueue.bytes, bytesOf_append, bytesOf_cons, bytesOf_nil]
  omega

lemma QueueInv.appendOk (h : QueueInv s) {id : ℕ} {place : Placement}
    (hstep : s.appendOk id place = some s') : QueueInv s' := by
  unfold QueueSystem.appendOk at hstep
  split at hstep
  swap
  · cases hstep
  rename_i lane frame rest htask
  split at hstep
  · cases hstep
  rename_i queue hlane
  obtain rfl := Option.some.inj hstep
  refine ⟨fun orgId horg => ?_, h.bounded⟩
  have hexact := h.exact orgId horg
  have hlanes := weight_lanes_set hlane
    (queue.bytes_push orgId (sentFrame ⟨frame, place⟩))
  have htasks := SeqMap.weight_set_old (v := .idle rest) (AcceptTask.reservedBytes orgId) htask
  have hzero : (AcceptTask.idle rest).reservedBytes orgId = 0 := rfl
  have hbytes : (AcceptTask.reserved lane frame rest).reservedBytes orgId =
      frameBytesOf orgId (sentFrame ⟨frame, place⟩) := rfl
  simp only [heldBytes] at hexact ⊢
  omega

lemma QueueInv.replayAdd (h : QueueInv s) (hstep : s.replayAdd = some s') : QueueInv s' := by
  unfold QueueSystem.replayAdd at hstep
  split at hstep
  swap
  · cases hstep
  rename_i lane frame replaying hsending hreplaying
  obtain rfl := Option.some.inj hstep
  refine ⟨fun orgId horg => ?_, fun orgId => ?_⟩
  · have hexact := h.exact orgId horg
    have hadd := addOrgQueueBytes_apply horg s.counters frame
    simp only [heldBytes, hsending, Option.toList_none, Option.toList_some, List.map_nil,
      List.map_cons, bytesOf_nil, bytesOf_cons] at hexact ⊢
    omega
  · have hbounded := h.bounded orgId
    by_cases horg : orgId = ""
    · have hsame : addOrgQueueBytes s.counters frame.orgId frame.queuedBytes orgId =
          s.counters orgId := by
        unfold addOrgQueueBytes
        split_ifs with hskip
        · rfl
        · rw [Function.update_of_ne]
          rintro rfl
          exact hskip (Or.inl horg)
      simp only [hsame, bytesOf_append]
      omega
    · have hadd := addOrgQueueBytes_apply horg s.counters frame
      simp only [hadd, bytesOf_append, bytesOf_cons, bytesOf_nil]
      omega

lemma QueueInv.replaySend (h : QueueInv s) (hstep : s.replaySend = some s') : QueueInv s' := by
  unfold QueueSystem.replaySend at hstep
  split at hstep
  swap
  · cases hstep
  rename_i lane frame hsending
  split at hstep
  · cases hstep
  rename_i queue hlane
  split_ifs at hstep
  obtain rfl := Option.some.inj hstep
  refine ⟨fun orgId horg => ?_, h.bounded⟩
  have hexact := h.exact orgId horg
  have hlanes := weight_lanes_set hlane (queue.bytes_push orgId frame)
  simp only [heldBytes, hsending, Option.toList_none, Option.toList_some, List.map_nil,
    List.map_cons, bytesOf_nil, bytesOf_cons] at hexact ⊢
  omega

/-- A step of one lane that keeps the bytes it holds. -/
lemma QueueInv.withLane (h : QueueInv s) {lane : ℕ} {f : LaneQueue → Option LaneQueue}
    (hkeep : ∀ queue queue', s.lanes.get lane = some queue → f queue = some queue' →
      ∀ orgId, orgId ≠ "" → queue'.bytes orgId = queue.bytes orgId)
    (hstep : s.withLane lane f = some s') : QueueInv s' := by
  unfold QueueSystem.withLane at hstep
  split at hstep
  · cases hstep
  rename_i queue hlane
  obtain ⟨queue', hf, rfl⟩ := Option.map_eq_some_iff.mp hstep
  refine ⟨fun orgId horg => ?_, h.bounded⟩
  have hexact := h.exact orgId horg
  have hsame : queue'.bytes orgId = queue.bytes orgId + 0 := hkeep queue queue' hlane hf orgId horg
  have hlanes := weight_lanes_set hlane hsame
  simp only [heldBytes] at hexact ⊢
  omega

lemma receive_bytes {queue queue' : LaneQueue} (h : QueueSystem.receive queue = some queue') :
    queue'.bytes orgId = queue.bytes orgId := by
  unfold QueueSystem.receive at h
  split at h
  · obtain rfl := Option.some.inj h
    simp only [LaneQueue.bytes, QueueWorker.held, bytesOf_append, bytesOf_cons, bytesOf_nil]
    omega
  · cases h

lemma exportOk_bytes {queue queue' : LaneQueue} (h : QueueSystem.exportOk queue = some queue') :
    queue'.bytes orgId = queue.bytes orgId := by
  unfold QueueSystem.exportOk at h
  split at h
  · obtain rfl := Option.some.inj h
    rfl
  · cases h

lemma resume_bytes {queue queue' : LaneQueue} (h : QueueSystem.resume queue = some queue') :
    queue'.bytes orgId = queue.bytes orgId := by
  unfold QueueSystem.resume at h
  split at h
  · obtain rfl := Option.some.inj h
    rfl
  · cases h

/-- A failed batch takes the bytes of its frames out of the lane. -/
lemma exportErr_bytes (orgId : String) {queue queue' : LaneQueue} (h : QueueSystem.exportErr queue = some queue') :
    queue.bytes orgId = queue'.bytes orgId + bytesOf orgId queue.worker.held := by
  unfold QueueSystem.exportErr at h
  split at h
  · obtain rfl := Option.some.inj h
    rfl
  · cases h

lemma bytesOf_uncounted (horg : orgId ≠ "") {frames : List QueuedFrame}
    (h : ∀ frame ∈ frames, Uncounted frame.orgId frame.queuedBytes) : bytesOf orgId frames = 0 := by
  induction frames with
  | nil => rfl
  | cons frame frames ih =>
    have hframe : frameBytesOf orgId frame = 0 := by
      unfold frameBytesOf
      rcases h frame (by simp) with hempty | hzero
      · rw [if_neg (by rw [hempty]; exact Ne.symm horg)]
      · rw [hzero, ite_self]
    rw [bytesOf_cons, hframe, ih fun f hf => h f (by simp [hf])]

lemma QueueInv.release (h : QueueInv s) {lane : ℕ} (hstep : s.release lane = some s') :
    QueueInv s' := by
  unfold QueueSystem.release at hstep
  split at hstep
  swap
  · cases hstep
  rename_i channel frame batch hlane
  obtain rfl := Option.some.inj hstep
  refine ⟨fun orgId horg => ?_, fun orgId => ?_⟩
  · have hexact := h.exact orgId horg
    have hweight := SeqMap.weight_set_old (v := ⟨channel, .releasing batch⟩)
      (LaneQueue.bytes orgId) hlane
    have hrelease := releaseOrgQueueBytes_apply horg s.counters frame.orgId frame.queuedBytes
    simp only [heldBytes] at hexact ⊢
    simp only [LaneQueue.bytes, QueueWorker.held, bytesOf_cons, frameBytesOf] at hweight hexact ⊢
    omega
  · exact (releaseOrgQueueBytes_le _ _ _).trans (h.bounded orgId)

theorem QueueInv.step (h : QueueInv s) {l : QueueLabel} (hok : NothingLost s l)
    (hstep : queueStep s l = some s') : QueueInv s' := by
  cases l with
  | accept id frames =>
    simp only [queueStep] at hstep
    split at hstep
    · rename_i hfree
      obtain rfl := Option.some.inj hstep
      refine ⟨fun orgId horg => ?_, h.bounded⟩
      have hexact := h.exact orgId horg
      have hweight := SeqMap.weight_set_new (v := .idle frames) (AcceptTask.reservedBytes orgId)
        hfree
      have hzero : (AcceptTask.idle frames).reservedBytes orgId = 0 := rfl
      simp only [heldBytes] at hexact ⊢
      omega
    · cases hstep
  | reserve id => exact h.reserve hstep
  | appendOk id place => exact h.appendOk hstep
  | appendErr id =>
    simp only [queueStep, QueueSystem.appendErr] at hstep
    split at hstep
    · rename_i lane frame rest htask
      obtain rfl := Option.some.inj hstep
      exact h.endTask htask
    · cases hstep
  | cancel id =>
    obtain ⟨task, htask, rfl⟩ := Option.map_eq_some_iff.mp hstep
    exact h.endTask htask
  | finish id =>
    simp only [queueStep, QueueSystem.finish] at hstep
    split at hstep
    · rename_i htask
      obtain rfl := Option.some.inj hstep
      exact h.endTask htask
    · cases hstep
  | replayAdd => exact h.replayAdd hstep
  | replaySend => exact h.replaySend hstep
  | receive lane => exact h.withLane (fun _ _ _ hf _ _ => receive_bytes hf) hstep
  | exportOk lane => exact h.withLane (fun _ _ _ hf _ _ => exportOk_bytes hf) hstep
  | exportErr lane =>
    refine h.withLane (fun queue queue' hlane hf orgId horg => ?_) hstep
    have hbytes := exportErr_bytes orgId hf
    simp only [NothingLost, hlane, Option.elim_some] at hok
    have hzero := bytesOf_uncounted horg hok
    omega
  | release lane => exact h.release hstep
  | resume lane => exact h.withLane (fun _ _ _ hf _ _ => resume_bytes hf) hstep

/-- A failed batch with a counted frame leaves that frame's bytes counted for ever. -/
lemma QueueInv.not_countersExact (h : QueueInv s) {lane : ℕ}
    (hlost : ¬ NothingLost s (.exportErr lane))
    (hstep : queueStep s (.exportErr lane) = some s') : ¬ CountersExact s' := by
  cases hlane : s.lanes.get lane with
  | none => simp [queueStep, QueueSystem.withLane, hlane] at hstep
  | some queue =>
  simp only [NothingLost, hlane, Option.elim_some, not_forall] at hlost
  obtain ⟨frame, hframe, hcounted⟩ := hlost
  obtain ⟨horg, hbytes⟩ : frame.orgId ≠ "" ∧ frame.queuedBytes ≠ 0 := not_or.mp hcounted
  simp only [queueStep, QueueSystem.withLane, hlane] at hstep
  obtain ⟨queue', hf, rfl⟩ := Option.map_eq_some_iff.mp hstep
  have hgone := exportErr_bytes frame.orgId hf
  have hweight := SeqMap.weight_set_old (v := queue') (LaneQueue.bytes frame.orgId) hlane
  have hsome : frameBytesOf frame.orgId frame ≤ bytesOf frame.orgId queue.worker.held :=
    List.single_le_sum (by simp) _ (List.mem_map_of_mem hframe)
  have hself : frameBytesOf frame.orgId frame = frame.queuedBytes := if_pos rfl
  have hbefore := h.exact frame.orgId horg
  intro hexact
  have hafter := hexact.exact frame.orgId horg
  simp only [heldBytes] at hbefore hafter
  omega

/-- In a run whose failed batches hold nothing that is counted, the counters are exact in every
state; the first failed batch that holds a counted frame makes them drift. -/
theorem countersExact_iff_nothingLost (limit capacity n : ℕ)
    (replaying : List (ℕ × QueuedFrame)) {s : QueueSystem}
    (hrun : ReachWhen queueStep NothingLost
      (fun t => t = bootQueue limit capacity n replaying) s) :
    CountersExact s ∧
      ∀ l s', queueStep s l = some s' → (CountersExact s' ↔ NothingLost s l) := by
  have hinv : QueueInv s := by
    refine hrun.invariant ?_ fun _ _ _ h hok hstep => h.step hok hstep
    rintro _ rfl
    exact queueInv_boot limit capacity n replaying
  refine ⟨hinv.countersExact, fun l s' hstep => ⟨fun hexact => ?_, fun hok => ?_⟩⟩
  · by_contra hlost
    cases l with
    | exportErr lane => exact hinv.not_countersExact hlost hstep hexact
    | _ => exact hlost trivial
  · exact (hinv.step hok hstep).countersExact

theorem countersExact_iff_nothingLost_delivered :
    ∃ s, runWhen queueStep NothingLost (bootQueue 100 4 1 [])
        [.accept 0 [(0, ⟨"org", .traces, .tinybird, "", 1, [7, 8]⟩)], .reserve 0,
          .appendOk 0 ⟨0, 0, 30⟩, .finish 0, .receive 0, .exportOk 0, .release 0] = some s ∧
      CountersExact s := by
  have hview : (runWhen queueStep NothingLost (bootQueue 100 4 1 [])
      [.accept 0 [(0, ⟨"org", .traces, .tinybird, "", 1, [7, 8]⟩)], .reserve 0,
        .appendOk 0 ⟨0, 0, 30⟩, .finish 0, .receive 0, .exportOk 0, .release 0]).isSome := by
    decide
  obtain ⟨s, hrun⟩ := Option.isSome_iff_exists.mp hview
  exact ⟨s, hrun, (countersExact_iff_nothingLost 100 4 1 []
    (reachWhen_runWhen (.start rfl) hrun)).1⟩

/-- One accepted frame whose export fails: nothing is held any more, yet its bytes stay counted. -/
theorem not_countersExact_failed_export :
    ¬ ∀ s, Reach queueStep (fun t => t = bootQueue 100 4 1 []) s → CountersExact s := by
  intro hall
  have hview : (runSteps queueStep (bootQueue 100 4 1 [])
      [.accept 0 [(0, ⟨"org", .traces, .tinybird, "", 1, [7, 8]⟩)], .reserve 0,
        .appendOk 0 ⟨0, 0, 30⟩, .finish 0, .receive 0, .exportErr 0]).map
      (fun s => (s.counters "org", heldBytes "org" s)) = some (2, 0) := by decide
  obtain ⟨s, hrun, hs⟩ := Option.map_eq_some_iff.mp hview
  obtain ⟨hcounter, hheld⟩ := Prod.mk.inj hs
  have hexact := (hall s (reachWhen_runWhen (.start rfl) hrun)).exact "org" (by decide)
  omega

end Maple.OrgQueue
