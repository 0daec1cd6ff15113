import Maple.UsageKeep

/-! Usage is billed exactly once: flushes, the requests they send, and whole runs. -/

namespace Maple.Usage

open TransitionRun

variable {O F C : Type} [DecidableEq O] [DecidableEq F]

/-- What usage billed exactly once means in one state. -/
structure BilledOnce (w : World O F C) : Prop where
  accounted : ∀ key, w.accepted key = w.completed key + w.pendingTotal key
  same : ∀ s ∈ w.requests, ∀ s' ∈ w.requests,
    s.request.idempotencyKey = s'.request.idempotencyKey → s.request = s'.request
  once : w.requests.Pairwise fun earlier later => earlier.outcome = .succeeded →
    later.request.idempotencyKey ≠ earlier.request.idempotencyKey
  billed : ∀ key, w.billed key = w.accepted key - w.pendingTotal key + w.unanswered key
  answered : ∀ key pending, w.accumulator.lookup key = some pending →
    w.HasApplied pending.idempotencyKey →
    ∃ s ∈ w.requests, s.outcome = .unanswered ∧ Sends key pending s.request
  logged : ∀ log, w.phase = .ended log → (log.map Dropped.key).Nodup ∧
    ∀ line, line ∈ log ↔ ∃ pending, w.accumulator.lookup line.key = some pending ∧
      line = ⟨line.key, pending.total, pending.customerId, pending.idempotencyKey⟩

/-- The entries a flush has still to send are sealed batches of different keys. -/
structure Queued (w : World O F C) (entries : List (TrackRequest O F C)) : Prop where
  nodup : (entries.map TrackRequest.key).Nodup
  sends : ∀ request ∈ entries, ∃ pending,
    w.accumulator.lookup request.key = some pending ∧ Sends request.key pending request

def PhaseInv (w : World O F C) : Prop :=
  match w.phase with
  | .flushing entries | .finalFlush _ _ entries => Queued w entries
  | .ended log => (log.map Dropped.key).Nodup ∧
      ∀ line, line ∈ log ↔ ∃ pending, w.accumulator.lookup line.key = some pending ∧
        line = ⟨line.key, pending.total, pending.customerId, pending.idempotencyKey⟩
  | _ => True

/-! ### A flush -/

lemma Good.withPhase {w : World O F C} (h : Good w) (phase : Phase O F C) :
    Good { w with phase } :=
  ⟨h.accounted, h.billed, h.fresh, h.distinct, h.queued, h.minted, h.batch, h.unsealed, h.same,
    h.once, h.applied⟩

/-- An entry that is not sealed yet has never been sent. -/
lemma Good.replaces_seal {w : World O F C} (h : Good w) (resolved : O → Option C)
    {key : AccumulatorKey O F} {pending : PendingUsage C}
    (hp : w.accumulator.lookup key = some pending) :
    Replaces w key pending (sealEntry resolved key pending) 0 := by
  have hqueued := h.queued key pending hp
  cases hc : pending.customerId with
  | none =>
    have hnone := h.unsealed key pending hp hc
    simp only [sealEntry, hc]
    refine ⟨rfl, by simp [PendingUsage.total], hqueued, fun _ => hnone, ?_, fun _ => rfl⟩
    intro s hs hid hsends
    exact absurd (hc.symm.trans hsends.customer) (by simp)
  | some customer =>
    simp only [sealEntry, hc]
    refine ⟨rfl, by simp, hqueued, ?_, fun s hs hid hsends => hsends, fun _ => rfl⟩
    intro hnone
    cases hc.symm.trans hnone

lemma Good.sealAll {w : World O F C} (h : Good w) (resolved : O → Option C)
    (order : List (AccumulatorKey O F)) :
    Good { w with accumulator := Usage.sealAll resolved order w.accumulator } := by
  induction order generalizing w with
  | nil => exact h
  | cons key order ih =>
    cases hp : w.accumulator.lookup key with
    | none =>
      simp only [Usage.sealAll, hp]
      exact ih h
    | some pending =>
      simp only [Usage.sealAll, hp]
      have hsealed : Good { w with
          accumulator := w.accumulator.insert key (sealEntry resolved key pending) } := by
        have hk : Keeps w { w with
            accumulator := w.accumulator.insert key (sealEntry resolved key pending) } key [] := by
          refine ⟨?_, rfl, rfl, by simp, by simp⟩
          intro other hother
          exact Finmap.lookup_insert_of_ne _ hother
        apply h.replace hk rfl hp (Finmap.lookup_insert _)
        simpa using h.replaces_seal resolved hp
      exact ih hsealed

lemma entry_sends {accumulator : Accumulator O F C} {key : AccumulatorKey O F}
    {request : TrackRequest O F C} (h : entry accumulator key = some request) :
    request.key = key ∧ ∃ pending, accumulator.lookup key = some pending ∧
      Sends key pending request := by
  unfold entry at h
  split at h
  case h_2 => cases h
  case h_1 pending hp =>
    obtain ⟨customer, hcustomer, rfl⟩ := Option.map_eq_some_iff.mp h
    exact ⟨rfl, pending, hp, rfl, hcustomer, rfl, rfl⟩

lemma entries_keys (accumulator : Accumulator O F C) (order : List (AccumulatorKey O F)) :
    (entries accumulator order).map TrackRequest.key =
      order.filter fun key => (entry accumulator key).isSome := by
  induction order with
  | nil => rfl
  | cons key order ih =>
    unfold entries at ih ⊢
    cases he : entry accumulator key with
    | none => simp [he, ih]
    | some request => simp [he, ih, (entry_sends he).1]

lemma queued_entries {w : World O F C} {order : List (AccumulatorKey O F)} (hnodup : order.Nodup) :
    Queued w (entries w.accumulator order) := by
  refine ⟨?_, ?_⟩
  · rw [entries_keys]
    exact hnodup.filter _
  · intro request hrequest
    obtain ⟨key, -, he⟩ := List.mem_filterMap.mp hrequest
    obtain ⟨rfl, hsends⟩ := entry_sends he
    exact hsends

/-! ### A request -/

omit [DecidableEq O] [DecidableEq F] in
lemma hasApplied_apply (applied : List (TrackRequest O F C)) (r : TrackRequest O F C) (id : ℕ) :
    (∃ request ∈ apply applied r, request.idempotencyKey = id) ↔
      (∃ request ∈ applied, request.idempotencyKey = id) ∨ r.idempotencyKey = id := by
  unfold apply
  split_ifs with hany
  · rw [List.any_eq_true] at hany
    obtain ⟨request, hrequest, hid⟩ := hany
    constructor
    · exact Or.inl
    · rintro (hin | rfl)
      · exact hin
      · exact ⟨request, hrequest, of_decide_eq_true hid⟩
  · simp [or_and_right, exists_or]

/-- What the service bills for a key once the request has been applied. -/
lemma billed_apply (w : World O F C) (r : TrackRequest O F C) (key : AccumulatorKey O F) :
    (((apply w.applied r).filter fun request => request.key = key).map TrackRequest.value).sum =
      w.billed key +
        if w.HasApplied r.idempotencyKey then 0 else if r.key = key then r.value else 0 := by
  have hiff : w.applied.any (·.idempotencyKey = r.idempotencyKey) = true ↔
      w.HasApplied r.idempotencyKey := by simp [World.HasApplied]
  unfold apply
  by_cases hin : w.HasApplied r.idempotencyKey
  · rw [if_pos (hiff.mpr hin), if_pos hin, add_zero]
    rfl
  · rw [if_neg (fun hany => hin (hiff.mp hany)), if_neg hin, sum_filter_append]
    simp [World.billed]

/-- A request for the batch of a key, and its outcome. -/
structure Posts (w : World O F C) (pending : PendingUsage C) (r : TrackRequest O F C) : Prop where
  lookup : w.accumulator.lookup r.key = some pending
  sends : Sends r.key pending r

lemma Good.completed_append (w w' : World O F C) (sent : Sent O F C)
    (h : w'.requests = w.requests ++ [sent]) (key : AccumulatorKey O F) :
    w'.completed key = w.completed key +
      if sent.request.key = key ∧ sent.outcome = .succeeded then sent.request.value else 0 := by
  simp only [World.completed, h, sum_filter_append, decide_eq_true_eq]

lemma Posts.not_mem_others {w : World O F C} {pending : PendingUsage C} {r : TrackRequest O F C}
    (hr : Posts w pending r) (h : Good w) {key : AccumulatorKey O F} {q : PendingUsage C}
    (hq : w.accumulator.lookup key = some q) (hne : key ≠ r.key) :
    r.idempotencyKey ≠ q.idempotencyKey := by
  intro hid
  apply hne
  apply h.distinct key r.key q pending hq hr.lookup
  rw [← hid, hr.sends.idempotencyKey]

lemma Posts.same_append {w : World O F C} {pending : PendingUsage C} {r : TrackRequest O F C}
    (hr : Posts w pending r) (h : Good w) (outcome : Outcome) :
    ∀ s ∈ w.requests ++ [Sent.mk r outcome], ∀ s' ∈ w.requests ++ [Sent.mk r outcome],
      s.request.idempotencyKey = s'.request.idempotencyKey → s.request = s'.request := by
  have hold : ∀ s ∈ w.requests, s.request.idempotencyKey = r.idempotencyKey → s.request = r := by
    intro s hs hid
    rw [hr.sends.idempotencyKey] at hid
    exact (h.batch r.key pending hr.lookup s hs hid).1.eq hr.sends
  intro s hs s' hs' hid
  rcases List.mem_append.mp hs with hs | hs <;> rcases List.mem_append.mp hs' with hs' | hs'
  · exact h.same s hs s' hs' hid
  · obtain rfl := List.mem_singleton.mp hs'
    exact hold s hs hid
  · obtain rfl := List.mem_singleton.mp hs
    exact (hold s' hs' hid.symm).symm
  · rw [List.mem_singleton.mp hs, List.mem_singleton.mp hs']

lemma Posts.once_append {w : World O F C} {pending : PendingUsage C} {r : TrackRequest O F C}
    (hr : Posts w pending r) (h : Good w) (outcome : Outcome) :
    (w.requests ++ [Sent.mk r outcome]).Pairwise fun earlier later => earlier.outcome = .succeeded →
      later.request.idempotencyKey ≠ earlier.request.idempotencyKey := by
  rw [List.pairwise_append]
  refine ⟨h.once, List.pairwise_singleton _ _, ?_⟩
  intro s hs later hlater hsucceeded hid
  obtain rfl := List.mem_singleton.mp hlater
  rw [hr.sends.idempotencyKey] at hid
  exact (h.batch r.key pending hr.lookup s hs hid.symm).2 hsucceeded

/-- The requests and the applied ones after a request that may have been applied. -/
structure Sending (w w' : World O F C) (r : TrackRequest O F C) (outcome : Outcome) : Prop where
  events : w'.events = w.events
  requests : w'.requests = w.requests ++ [⟨r, outcome⟩]
  applied : w'.applied = if outcome = .unsent then w.applied else apply w.applied r
  others : ∀ key, key ≠ r.key → w'.accumulator.lookup key = w.accumulator.lookup key

lemma Sending.accepted {w w' : World O F C} {r : TrackRequest O F C} {outcome : Outcome}
    (hs : Sending w w' r outcome) (key : AccumulatorKey O F) :
    w'.accepted key = w.accepted key := by
  simp only [World.accepted, hs.events]

lemma Sending.hasApplied {w w' : World O F C} {r : TrackRequest O F C} {outcome : Outcome}
    (hs : Sending w w' r outcome) (id : ℕ) :
    w'.HasApplied id ↔
      w.HasApplied id ∨ (outcome ≠ .unsent ∧ r.idempotencyKey = id) := by
  unfold World.HasApplied
  rw [hs.applied]
  split_ifs with hunsent
  · simp [hunsent]
  · rw [hasApplied_apply]
    simp [hunsent]

lemma Sending.billed {w w' : World O F C} {r : TrackRequest O F C} {outcome : Outcome}
    (hs : Sending w w' r outcome) (key : AccumulatorKey O F) :
    w'.billed key = w.billed key +
      if outcome = .unsent ∨ w.HasApplied r.idempotencyKey then 0
      else if r.key = key then r.value else 0 := by
  have hbilled : w'.billed key =
      ((w'.applied.filter fun request => request.key = key).map TrackRequest.value).sum := rfl
  rw [hbilled, hs.applied]
  by_cases hunsent : outcome = .unsent
  · rw [if_pos hunsent, if_pos (Or.inl hunsent), add_zero]
    rfl
  · rw [if_neg hunsent, billed_apply]
    simp [hunsent]

lemma Sending.mem_applied {w w' : World O F C} {r : TrackRequest O F C} {outcome : Outcome}
    (hs : Sending w w' r outcome) (h : Good w) :
    ∀ request ∈ w'.applied, ∃ s ∈ w'.requests, s.request = request ∧ s.outcome ≠ .unsent := by
  intro request hrequest
  rw [hs.applied] at hrequest
  rw [hs.requests]
  have hold : request ∈ w.applied →
      ∃ s ∈ w.requests ++ [Sent.mk r outcome], s.request = request ∧ s.outcome ≠ .unsent := by
    intro hin
    obtain ⟨s, hmem, hs⟩ := h.applied request hin
    exact ⟨s, List.mem_append_left _ hmem, hs⟩
  split_ifs at hrequest with hunsent
  · exact hold hrequest
  · unfold apply at hrequest
    split_ifs at hrequest
    · exact hold hrequest
    · rcases List.mem_append.mp hrequest with hin | hnew
      · exact hold hin
      · obtain rfl := List.mem_singleton.mp hnew
        exact ⟨⟨request, outcome⟩, by simp, rfl, hunsent⟩

/-- Nothing the service does for one batch shows in another entry. -/
lemma Sending.unanswered_ne {w w' : World O F C} {pending : PendingUsage C}
    {r : TrackRequest O F C} {outcome : Outcome} (hs : Sending w w' r outcome) (h : Good w)
    (hr : Posts w pending r) {key : AccumulatorKey O F} (hne : key ≠ r.key) :
    w'.unanswered key = w.unanswered key := by
  cases hq : w.accumulator.lookup key with
  | none => rw [World.unanswered_none hq, World.unanswered_none ((hs.others key hne).trans hq)]
  | some q =>
    have hid := hr.not_mem_others h hq hne
    have hiff : w'.HasApplied q.idempotencyKey ↔ w.HasApplied q.idempotencyKey := by
      rw [hs.hasApplied]
      simp [hid]
    rw [World.unanswered_some hq, World.unanswered_some ((hs.others key hne).trans hq)]
    simp only [hiff]

/-- A request without a success leaves the batch where it is. -/
lemma Good.sendOpen {w w' : World O F C} (h : Good w) {pending : PendingUsage C}
    {r : TrackRequest O F C} {outcome : Outcome} (hr : Posts w pending r)
    (hs : Sending w w' r outcome) (hopen : outcome ≠ .succeeded)
    (hacc : w'.accumulator = w.accumulator) (hminted : w'.minted = w.minted) : Good w' := by
  have hcompleted : ∀ key, w'.completed key = w.completed key := by
    intro key
    rw [Good.completed_append w w' _ hs.requests]
    simp [hopen]
  constructor
  case accounted =>
    intro key
    rw [hs.accepted, hcompleted, World.pendingTotal, hacc]
    exact h.accounted key
  case billed =>
    intro key
    rw [hs.billed, hcompleted, h.billed]
    by_cases hne : key = r.key
    · subst hne
      have hp' : w'.accumulator.lookup r.key = some pending := by rw [hacc, hr.lookup]
      have hid := hr.sends.idempotencyKey
      have hvalue := hr.sends.value
      have hiff := hs.hasApplied pending.idempotencyKey
      rw [World.unanswered_some hr.lookup, World.unanswered_some hp', hid]
      by_cases happlied : w.HasApplied pending.idempotencyKey
      · simp [happlied, hiff.mpr (Or.inl happlied)]
      · by_cases hunsent : outcome = .unsent
        · have hno : ¬ w'.HasApplied pending.idempotencyKey := by
            rw [hiff]
            simp [happlied, hunsent]
          simp [happlied, hunsent, hno]
        · simp [happlied, hunsent, hiff.mpr (Or.inr ⟨hunsent, hid⟩), hvalue]
    · rw [hs.unanswered_ne h hr hne, if_neg (Ne.symm hne)]
      simp
  case fresh =>
    rw [hacc, hminted]
    exact h.fresh
  case distinct =>
    rw [hacc]
    exact h.distinct
  case queued =>
    rw [hacc]
    exact h.queued
  case minted =>
    intro s hmem
    rw [hs.requests] at hmem
    rw [hminted]
    rcases List.mem_append.mp hmem with hmem | hmem
    · exact h.minted s hmem
    · obtain rfl := List.mem_singleton.mp hmem
      rw [hr.sends.idempotencyKey]
      exact h.fresh _ _ hr.lookup
  case batch =>
    intro key q hq s hmem hid
    rw [hacc] at hq
    rw [hs.requests] at hmem
    rcases List.mem_append.mp hmem with hmem | hmem
    · exact h.batch key q hq s hmem hid
    · obtain rfl := List.mem_singleton.mp hmem
      by_cases hne : key = r.key
      · subst hne
        rw [hr.lookup] at hq
        obtain rfl := Option.some.inj hq
        exact ⟨hr.sends, hopen⟩
      · exact absurd hid (hr.not_mem_others h hq hne)
  case unsealed =>
    rw [hacc]
    exact h.unsealed
  case same =>
    rw [hs.requests]
    exact hr.same_append h outcome
  case once =>
    rw [hs.requests]
    exact hr.once_append h outcome
  case applied => exact hs.mem_applied h

/-- What a success leaves of the entry: nothing, or what was queued under a new key. -/
structure Requeues (w w' : World O F C) (key : AccumulatorKey O F) (pending : PendingUsage C) :
    Prop where
  total : w'.pendingTotal key = pending.queuedValue
  minted : w.minted ≤ w'.minted
  entry : ∀ q, w'.accumulator.lookup key = some q →
    q = .new pending.queuedValue w.minted ∧ w.minted < w'.minted

/-- A success completes the batch. -/
lemma Good.sendDone {w w' : World O F C} (h : Good w) {pending : PendingUsage C}
    {r : TrackRequest O F C} (hr : Posts w pending r) (hs : Sending w w' r .succeeded)
    (hq : Requeues w w' r.key pending) : Good w' := by
  have hid := hr.sends.idempotencyKey
  have hnew : ∀ q, w'.accumulator.lookup r.key = some q → ¬ w'.HasApplied q.idempotencyKey := by
    intro q hlookup happlied
    rw [(hq.entry q hlookup).1, hs.hasApplied] at happlied
    rcases happlied with hold | ⟨-, hmint⟩
    · exact h.unminted hold
    · have hlt := h.fresh _ _ hr.lookup
      simp only [PendingUsage.new] at hmint
      omega
  have hzero : w'.unanswered r.key = 0 := by
    cases hlookup : w'.accumulator.lookup r.key with
    | none => exact World.unanswered_none hlookup
    | some q => rw [World.unanswered_some hlookup, if_neg (hnew q hlookup)]
  constructor
  case accounted =>
    intro key
    rw [hs.accepted, Good.completed_append w w' _ hs.requests, h.accounted]
    by_cases hne : key = r.key
    · subst hne
      rw [World.pendingTotal_some hr.lookup, hq.total]
      simp only [PendingUsage.total, hr.sends.value, and_self, if_true]
      ring
    · simp [World.pendingTotal, hs.others key hne, Ne.symm hne]
  case billed =>
    intro key
    rw [hs.billed, Good.completed_append w w' _ hs.requests, h.billed]
    by_cases hne : key = r.key
    · subst hne
      rw [World.unanswered_some hr.lookup, hzero, hid]
      by_cases happlied : w.HasApplied pending.idempotencyKey
      · simp [happlied, hr.sends.value]
      · simp [happlied]
    · simp [hs.unanswered_ne h hr hne, Ne.symm hne]
  case fresh =>
    intro key q hlookup
    by_cases hne : key = r.key
    · subst hne
      obtain ⟨rfl, hlt⟩ := hq.entry q hlookup
      exact hlt
    · rw [hs.others key hne] at hlookup
      exact (h.fresh key q hlookup).trans_le hq.minted
  case distinct =>
    intro k k' q q' hlookup hlookup' heq
    by_cases hk : k = r.key
    · by_cases hk' : k' = r.key
      · rw [hk, hk']
      · subst hk
        rw [hs.others k' hk'] at hlookup'
        rw [(hq.entry q hlookup).1] at heq
        exact absurd (h.fresh k' q' hlookup') (by rw [← heq]; simp [PendingUsage.new])
    · rw [hs.others k hk] at hlookup
      by_cases hk' : k' = r.key
      · subst hk'
        rw [(hq.entry q' hlookup').1] at heq
        exact absurd (h.fresh k q hlookup) (by rw [heq]; simp [PendingUsage.new])
      · rw [hs.others k' hk'] at hlookup'
        exact h.distinct k k' q q' hlookup hlookup' heq
  case queued =>
    intro key q hlookup
    by_cases hne : key = r.key
    · subst hne
      rw [(hq.entry q hlookup).1]
      exact le_refl _
    · rw [hs.others key hne] at hlookup
      exact h.queued key q hlookup
  case minted =>
    intro s hmem
    rw [hs.requests] at hmem
    rcases List.mem_append.mp hmem with hmem | hmem
    · exact (h.minted s hmem).trans_le hq.minted
    · obtain rfl := List.mem_singleton.mp hmem
      rw [hid]
      exact (h.fresh _ _ hr.lookup).trans_le hq.minted
  case batch =>
    intro key q hlookup s hmem heq
    rw [hs.requests] at hmem
    have hold : ∀ s ∈ w.requests ++ [Sent.mk r .succeeded], s.request.idempotencyKey < w.minted := by
      intro s hmem
      rcases List.mem_append.mp hmem with hmem | hmem
      · exact h.minted s hmem
      · obtain rfl := List.mem_singleton.mp hmem
        rw [hid]
        exact h.fresh _ _ hr.lookup
    by_cases hne : key = r.key
    · subst hne
      rw [(hq.entry q hlookup).1] at heq
      exact absurd (hold s hmem) (by rw [heq]; simp [PendingUsage.new])
    · rw [hs.others key hne] at hlookup
      rcases List.mem_append.mp hmem with hmem | hmem
      · exact h.batch key q hlookup s hmem heq
      · obtain rfl := List.mem_singleton.mp hmem
        exact absurd heq (hr.not_mem_others h hlookup hne)
  case unsealed =>
    intro key q hlookup
    by_cases hne : key = r.key
    · subst hne
      rw [(hq.entry q hlookup).1]
      exact fun _ => rfl
    · rw [hs.others key hne] at hlookup
      exact h.unsealed key q hlookup
  case same =>
    rw [hs.requests]
    exact hr.same_append h .succeeded
  case once =>
    rw [hs.requests]
    exact hr.once_append h .succeeded
  case applied => exact hs.mem_applied h

/-! ### Whole runs -/

lemma Requeues.complete {w : World O F C} {key : AccumulatorKey O F} {pending : PendingUsage C}
    (hp : w.accumulator.lookup key = some pending) (hqueued : 0 ≤ pending.queuedValue) :
    Requeues w (complete w key) key pending := by
  by_cases hpos : 0 < pending.queuedValue
  · have hlookup : (Usage.complete w key).accumulator.lookup key =
        some (.new pending.queuedValue w.minted) := by simp [Usage.complete, hp, hpos]
    have hminted : (Usage.complete w key).minted = w.minted + 1 := by
      simp [Usage.complete, hp, hpos]
    refine ⟨?_, by omega, ?_⟩
    · rw [World.pendingTotal_some hlookup]
      simp [PendingUsage.new, PendingUsage.total]
    · intro q hq
      rw [hlookup] at hq
      exact ⟨(Option.some.inj hq).symm, by omega⟩
  · have hlookup : (Usage.complete w key).accumulator.lookup key = none := by
      simp [Usage.complete, hp, hpos]
    have hminted : (Usage.complete w key).minted = w.minted := by simp [Usage.complete, hp, hpos]
    refine ⟨?_, by omega, ?_⟩
    · rw [World.pendingTotal_none hlookup]
      linarith
    · intro q hq
      rw [hlookup] at hq
      cases hq

lemma complete_lookup_ne (w : World O F C) {key other : AccumulatorKey O F} (h : other ≠ key) :
    (complete w key).accumulator.lookup other = w.accumulator.lookup other := by
  cases hp : w.accumulator.lookup key with
  | none => simp [complete, hp]
  | some pending =>
    by_cases hpos : 0 < pending.queuedValue
    · simp [complete, hp, hpos, Finmap.lookup_insert_of_ne _ h, Finmap.lookup_erase_ne h]
    · simp [complete, hp, hpos, Finmap.lookup_erase_ne h]

lemma complete_history (w : World O F C) (key : AccumulatorKey O F) :
    (complete w key).events = w.events ∧ (complete w key).requests = w.requests ∧
      (complete w key).applied = w.applied := by
  cases hp : w.accumulator.lookup key with
  | none => simp [complete, hp]
  | some pending => by_cases hpos : 0 < pending.queuedValue <;> simp [complete, hp, hpos]

lemma sending_send (w : World O F C) (r : TrackRequest O F C) (outcome : Outcome) :
    Sending w (send w r outcome) r outcome := by
  cases outcome with
  | unsent => exact ⟨rfl, rfl, rfl, fun _ _ => rfl⟩
  | unanswered => exact ⟨rfl, rfl, rfl, fun _ _ => rfl⟩
  | succeeded =>
    obtain ⟨hevents, hrequests, happlied⟩ := complete_history
      { w with
        requests := w.requests ++ [⟨r, .succeeded⟩]
        applied := apply w.applied r } r.key
    refine ⟨hevents, hrequests, happlied, ?_⟩
    intro key hne
    exact complete_lookup_ne _ hne

lemma Good.send {w : World O F C} (h : Good w) {pending : PendingUsage C}
    {r : TrackRequest O F C} (hr : Posts w pending r) (outcome : Outcome) :
    Good (send w r outcome) := by
  have hs := sending_send w r outcome
  cases outcome with
  | unsent => exact h.sendOpen hr hs (by decide) rfl rfl
  | unanswered => exact h.sendOpen hr hs (by decide) rfl rfl
  | succeeded =>
    let sent : World O F C := { w with
      requests := w.requests ++ [Sent.mk r .succeeded]
      applied := apply w.applied r }
    have hq := Requeues.complete (w := sent) hr.lookup (h.queued _ _ hr.lookup)
    exact h.sendDone hr hs ⟨hq.total, hq.minted, hq.entry⟩

lemma Queued.posts {w : World O F C} {r : TrackRequest O F C} {rest : List (TrackRequest O F C)}
    (h : Queued w (r :: rest)) : ∃ pending, Posts w pending r := by
  obtain ⟨pending, hp, hsends⟩ := h.sends r (by simp)
  exact ⟨pending, hp, hsends⟩

/-- The other entries of a flush are not touched by a request. -/
lemma Queued.send {w : World O F C} {r : TrackRequest O F C} {rest : List (TrackRequest O F C)}
    (h : Queued w (r :: rest)) (outcome : Outcome) : Queued (send w r outcome) rest := by
  have hnodup := List.nodup_cons.mp h.nodup
  refine ⟨hnodup.2, ?_⟩
  intro request hrequest
  have hne : request.key ≠ r.key := by
    intro heq
    exact hnodup.1 (heq ▸ List.mem_map_of_mem hrequest)
  rw [(sending_send w r outcome).others _ hne]
  exact h.sends request (List.mem_cons_of_mem _ hrequest)

lemma Good.foldl_accumulate {w : World O F C} (h : Good w) (es : List (UsageEvent O F))
    (hes : ∀ e ∈ es, 0 ≤ e.value) : Good (es.foldl Usage.accumulate w) := by
  induction es generalizing w with
  | nil => exact h
  | cons e es ih =>
    apply ih (h.accumulate (hes e (by simp)))
    intro e' he'
    exact hes e' (by simp [he'])

lemma mem_droppedLine {w : World O F C} {order : List (AccumulatorKey O F)}
    (hvisits : Visits order w.accumulator) (line : Dropped O F C) :
    line ∈ order.filterMap (droppedLine w.accumulator) ↔
      ∃ pending, w.accumulator.lookup line.key = some pending ∧
        line = ⟨line.key, pending.total, pending.customerId, pending.idempotencyKey⟩ := by
  rw [List.mem_filterMap]
  constructor
  · rintro ⟨key, -, hline⟩
    obtain ⟨pending, hp, rfl⟩ := Option.map_eq_some_iff.mp hline
    exact ⟨pending, hp, rfl⟩
  · rintro ⟨pending, hp, hline⟩
    refine ⟨line.key, ?_, ?_⟩
    · rw [← List.mem_toFinset, hvisits.2, Finmap.mem_keys]
      exact Finmap.mem_of_lookup_eq_some hp
    · rw [droppedLine, hp, hline]
      rfl

lemma droppedLine_keys (accumulator : Accumulator O F C) (order : List (AccumulatorKey O F)) :
    (order.filterMap (droppedLine accumulator)).map Dropped.key =
      order.filter fun key => (accumulator.lookup key).isSome := by
  induction order with
  | nil => rfl
  | cons key order ih => cases hp : accumulator.lookup key <;> simp [droppedLine, hp, ih]

/-- No event takes usage back. -/
def NonNegative (_ : World O F C) : Label O F C → Prop
  | .event event => 0 ≤ event.value
  | .stop drained => ∀ event ∈ drained, 0 ≤ event.value
  | _ => True

instance (w : World O F C) : (l : Label O F C) → Decidable (NonNegative w l)
  | .event event => inferInstanceAs (Decidable (0 ≤ event.value))
  | .stop drained => inferInstanceAs (Decidable (∀ event ∈ drained, 0 ≤ event.value))
  | .tick _ _ | .send _ | .flushed | .pass _ _ => isTrue trivial

lemma Good.step {w w' : World O F C} {l : Label O F C} (h : Good w) (hphase : PhaseInv w)
    (hok : NonNegative w l) (hstep : step w l = some w') : Good w' ∧ PhaseInv w' := by
  unfold Usage.step at hstep
  split at hstep
  case h_1 event hlooping =>
    obtain rfl := Option.some.inj hstep
    refine ⟨h.accumulate hok, ?_⟩
    have hsame : (Usage.accumulate w event).phase = w.phase := by
      cases hp : w.accumulator.lookup (event.orgId, event.featureId) <;> simp [Usage.accumulate, hp]
    rw [PhaseInv, hsame, hlooping]
    trivial
  case h_2 order resolved hlooping =>
    split_ifs at hstep with hempty hvisits
    · obtain rfl := Option.some.inj hstep
      exact ⟨h, hphase⟩
    · obtain rfl := Option.some.inj hstep
      exact ⟨(h.sealAll resolved order).withPhase _, queued_entries hvisits.1⟩
  case h_3 drained hlooping =>
    obtain rfl := Option.some.inj hstep
    exact ⟨(h.foldl_accumulate drained hok).withPhase _, trivial⟩
  case h_4 request rest outcome hflushing =>
    obtain rfl := Option.some.inj hstep
    rw [PhaseInv, hflushing] at hphase
    obtain ⟨pending, hposts⟩ := hphase.posts
    have hrest := hphase.send outcome
    exact ⟨(h.send hposts outcome).withPhase _, hrest.nodup, hrest.sends⟩
  case h_5 =>
    obtain rfl := Option.some.inj hstep
    exact ⟨h.withPhase _, trivial⟩
  case h_6 passes order resolved hfinal =>
    split_ifs at hstep with hvisits hdone
    · obtain rfl := Option.some.inj hstep
      refine ⟨h.withPhase _, ?_, mem_droppedLine hvisits⟩
      rw [droppedLine_keys]
      exact hvisits.1.filter _
    · obtain rfl := Option.some.inj hstep
      exact ⟨(h.sealAll resolved order).withPhase _, queued_entries hvisits.1⟩
  case h_7 passes before request rest outcome hflushing =>
    obtain rfl := Option.some.inj hstep
    rw [PhaseInv, hflushing] at hphase
    obtain ⟨pending, hposts⟩ := hphase.posts
    have hrest := hphase.send outcome
    exact ⟨(h.send hposts outcome).withPhase _, hrest.nodup, hrest.sends⟩
  case h_8 =>
    obtain rfl := Option.some.inj hstep
    exact ⟨h.withPhase _, trivial⟩
  case h_9 => cases hstep

lemma good_init : Good (World.init : World O F C) := by
  constructor <;> simp [World.init, World.accepted, World.completed, World.pendingTotal,
    World.billed, World.unanswered]

/-- A batch that has been applied and not completed is one whose response was lost. -/
lemma Good.answered {w : World O F C} (h : Good w) {key : AccumulatorKey O F}
    {pending : PendingUsage C} (hp : w.accumulator.lookup key = some pending)
    (happlied : w.HasApplied pending.idempotencyKey) :
    ∃ s ∈ w.requests, s.outcome = .unanswered ∧ Sends key pending s.request := by
  obtain ⟨request, hrequest, hid⟩ := happlied
  obtain ⟨s, hs, rfl, hsent⟩ := h.applied request hrequest
  obtain ⟨hsends, hopen⟩ := h.batch key pending hp s hs hid
  refine ⟨s, hs, ?_, hsends⟩
  cases houtcome : s.outcome with
  | unsent => exact absurd houtcome hsent
  | unanswered => rfl
  | succeeded => exact absurd houtcome hopen

lemma Good.billedOnce {w : World O F C} (h : Good w) (hphase : PhaseInv w) : BilledOnce w := by
  refine ⟨h.accounted, h.same, h.once, ?_, fun _ _ => h.answered, ?_⟩
  · intro key
    rw [h.billed, h.accounted]
    ring
  · intro log hlog
    rw [PhaseInv, hlog] at hphase
    exact hphase

/-- Every event is billed exactly once, whatever the lookups and the requests come to. -/
theorem usage_billed_exactly_once {w : World O F C}
    (h : ReachWhen step NonNegative (· = World.init) w) : BilledOnce w := by
  have hgood : Good w ∧ PhaseInv w := by
    apply h.invariant
    · rintro _ rfl
      exact ⟨good_init, trivial⟩
    · intro s l s' hs hok hstep
      exact hs.1.step hs.2 hok hstep
  exact hgood.1.billedOnce hgood.2

/-- The response to the first request is lost, more usage comes in, and the second request
succeeds. -/
def sampleRun : List (Label ℕ ℕ ℕ) :=
  [.event ⟨1, 2, 3⟩, .tick [(1, 2)] (fun _ => some 9), .send .unanswered, .flushed,
    .event ⟨1, 2, 5⟩, .tick [(1, 2)] (fun _ => none), .send .succeeded, .flushed]

theorem usage_billed_exactly_once_sample :
    ∃ w : World ℕ ℕ ℕ, w.requests.length = 2 ∧ w.billed (1, 2) = 3 ∧ w.pendingTotal (1, 2) = 5 ∧
      BilledOnce w := by
  have hrun : (runWhen step NonNegative World.init sampleRun).map (fun w =>
      (w.requests.length, w.billed (1, 2), w.pendingTotal (1, 2))) = some (2, 3, 5) := by
    with_unfolding_all decide
  obtain ⟨w, hw, hvalues⟩ := Option.map_eq_some_iff.mp hrun
  simp only [Prod.mk.injEq] at hvalues
  exact ⟨w, hvalues.1, hvalues.2.1, hvalues.2.2,
    usage_billed_exactly_once (reachWhen_runWhen (.start rfl) hw)⟩

end Maple.Usage
