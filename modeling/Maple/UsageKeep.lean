import Maple.UsageFlush

/-! What the tracker keeps while events come in: the accepted usage is the completed batches and
what is pending, and a sealed batch is what its requests say. -/

namespace Maple.Usage

variable {O F C : Type} [DecidableEq O] [DecidableEq F]

/-- The request sends exactly the sealed batch of the key. -/
structure Sends (key : AccumulatorKey O F) (pending : PendingUsage C)
    (request : TrackRequest O F C) : Prop where
  key : request.key = key
  customer : pending.customerId = some request.customerId
  value : request.value = pending.value
  idempotencyKey : request.idempotencyKey = pending.idempotencyKey

structure Good (w : World O F C) : Prop where
  accounted : ∀ key, w.accepted key = w.completed key + w.pendingTotal key
  billed : ∀ key, w.billed key = w.completed key + w.unanswered key
  fresh : ∀ key pending, w.accumulator.lookup key = some pending →
    pending.idempotencyKey < w.minted
  distinct : ∀ key key' pending pending', w.accumulator.lookup key = some pending →
    w.accumulator.lookup key' = some pending' →
    pending.idempotencyKey = pending'.idempotencyKey → key = key'
  queued : ∀ key pending, w.accumulator.lookup key = some pending → 0 ≤ pending.queuedValue
  minted : ∀ s ∈ w.requests, s.request.idempotencyKey < w.minted
  batch : ∀ key pending, w.accumulator.lookup key = some pending → ∀ s ∈ w.requests,
    s.request.idempotencyKey = pending.idempotencyKey →
    Sends key pending s.request ∧ s.outcome ≠ .succeeded
  unsealed : ∀ key pending, w.accumulator.lookup key = some pending →
    pending.customerId = none → pending.queuedValue = 0
  same : ∀ s ∈ w.requests, ∀ s' ∈ w.requests,
    s.request.idempotencyKey = s'.request.idempotencyKey → s.request = s'.request
  once : w.requests.Pairwise fun earlier later => earlier.outcome = .succeeded →
    later.request.idempotencyKey ≠ earlier.request.idempotencyKey
  applied : ∀ request ∈ w.applied, ∃ s ∈ w.requests, s.request = request ∧ s.outcome ≠ .unsent

/-! ### Sums over a history -/

lemma sum_filter_append {α : Type} (xs : List α) (x : α) (p : α → Bool) (f : α → ℚ) :
    (((xs ++ [x]).filter p).map f).sum = ((xs.filter p).map f).sum + if p x then f x else 0 := by
  by_cases h : p x = true
  · simp [List.filter_append, h]
  · simp [List.filter_append, h]

omit [DecidableEq O] [DecidableEq F] in
lemma Sends.eq {key : AccumulatorKey O F} {pending : PendingUsage C}
    {r r' : TrackRequest O F C} (h : Sends key pending r) (h' : Sends key pending r') : r = r' := by
  obtain ⟨org, customer, feature, value, idempotencyKey⟩ := r
  obtain ⟨org', customer', feature', value', idempotencyKey'⟩ := r'
  have hkey := h.key.trans h'.key.symm
  have hcustomer := h.customer.symm.trans h'.customer
  have hvalue := h.value.trans h'.value.symm
  have hid := h.idempotencyKey.trans h'.idempotencyKey.symm
  simp only [TrackRequest.key, Prod.mk.injEq, Option.some.injEq] at hkey hcustomer hvalue hid
  simp [hkey, hcustomer, hvalue, hid]

/-! ### An event -/

lemma Good.unapplied {w : World O F C} (h : Good w) {key : AccumulatorKey O F}
    {pending : PendingUsage C} (hp : w.accumulator.lookup key = some pending)
    (hunsealed : pending.customerId = none) : ¬ w.HasApplied pending.idempotencyKey := by
  rintro ⟨request, hrequest, hid⟩
  obtain ⟨s, hs, rfl, -⟩ := h.applied request hrequest
  have hsends := (h.batch key pending hp s hs hid).1
  exact absurd (hunsealed.symm.trans hsends.customer) (by simp)

/-- Nothing has been applied under a key that is yet to be minted. -/
lemma Good.unminted {w : World O F C} (h : Good w) : ¬ w.HasApplied w.minted := by
  rintro ⟨request, hrequest, hid⟩
  obtain ⟨s, hs, rfl, -⟩ := h.applied request hrequest
  exact absurd (h.minted s hs) (by omega)

@[simp] lemma accumulate_requests (w : World O F C) (e : UsageEvent O F) :
    (accumulate w e).requests = w.requests := by
  cases hp : w.accumulator.lookup (e.orgId, e.featureId) <;> simp [accumulate, hp]

@[simp] lemma accumulate_applied (w : World O F C) (e : UsageEvent O F) :
    (accumulate w e).applied = w.applied := by
  cases hp : w.accumulator.lookup (e.orgId, e.featureId) <;> simp [accumulate, hp]

@[simp] lemma accumulate_events (w : World O F C) (e : UsageEvent O F) :
    (accumulate w e).events = w.events ++ [e] := by
  cases hp : w.accumulator.lookup (e.orgId, e.featureId) <;> simp [accumulate, hp]

lemma accumulate_lookup_ne (w : World O F C) (e : UsageEvent O F) {key : AccumulatorKey O F}
    (h : key ≠ (e.orgId, e.featureId)) :
    (accumulate w e).accumulator.lookup key = w.accumulator.lookup key := by
  cases hp : w.accumulator.lookup (e.orgId, e.featureId) <;>
    simp [accumulate, hp, Finmap.lookup_insert_of_ne _ h]

/-- Another entry for the same batch: sealed, or with more usage. -/
structure Replaces (w : World O F C) (key : AccumulatorKey O F) (pending pending' : PendingUsage C)
    (value : ℚ) : Prop where
  idempotencyKey : pending'.idempotencyKey = pending.idempotencyKey
  total : pending'.total = pending.total + value
  queued : 0 ≤ pending'.queuedValue
  unsealed : pending'.customerId = none → pending'.queuedValue = 0
  batch : ∀ s ∈ w.requests, s.request.idempotencyKey = pending.idempotencyKey →
    Sends key pending s.request → Sends key pending' s.request
  value : w.HasApplied pending.idempotencyKey → pending'.value = pending.value

lemma World.accepted_append (w w' : World O F C) (es : List (UsageEvent O F))
    (h : w'.events = w.events ++ es) (key : AccumulatorKey O F) :
    w'.accepted key = w.accepted key +
      ((es.filter fun event => (event.orgId, event.featureId) = key).map UsageEvent.value).sum := by
  simp [World.accepted, h]

/-- Nothing but one entry and the events has changed. -/
structure Keeps (w w' : World O F C) (key : AccumulatorKey O F) (es : List (UsageEvent O F)) :
    Prop where
  others : ∀ other, other ≠ key → w'.accumulator.lookup other = w.accumulator.lookup other
  requests : w'.requests = w.requests
  applied : w'.applied = w.applied
  events : w'.events = w.events ++ es
  only : ∀ event ∈ es, (event.orgId, event.featureId) = key

lemma Keeps.accepted_ne {w w' : World O F C} {key : AccumulatorKey O F}
    {es : List (UsageEvent O F)} (h : Keeps w w' key es) {other : AccumulatorKey O F}
    (hne : other ≠ key) : w'.accepted other = w.accepted other := by
  have hnone : (es.filter fun event => (event.orgId, event.featureId) = other) = [] := by
    rw [List.filter_eq_nil_iff]
    intro event hevent
    rw [h.only event hevent]
    simpa using hne.symm
  rw [World.accepted_append w w' es h.events, hnone]
  simp

lemma Keeps.accepted_self {w w' : World O F C} {key : AccumulatorKey O F}
    {es : List (UsageEvent O F)} (h : Keeps w w' key es) :
    w'.accepted key = w.accepted key + (es.map UsageEvent.value).sum := by
  have hall : (es.filter fun event => (event.orgId, event.featureId) = key) = es := by
    rw [List.filter_eq_self]
    intro event hevent
    simpa using h.only event hevent
  rw [World.accepted_append w w' es h.events, hall]

lemma Keeps.completed {w w' : World O F C} {key : AccumulatorKey O F}
    {es : List (UsageEvent O F)} (h : Keeps w w' key es) (other : AccumulatorKey O F) :
    w'.completed other = w.completed other := by
  simp only [World.completed, h.requests]

lemma Keeps.billed {w w' : World O F C} {key : AccumulatorKey O F}
    {es : List (UsageEvent O F)} (h : Keeps w w' key es) (other : AccumulatorKey O F) :
    w'.billed other = w.billed other := by
  simp only [World.billed, h.applied]

lemma Keeps.hasApplied {w w' : World O F C} {key : AccumulatorKey O F}
    {es : List (UsageEvent O F)} (h : Keeps w w' key es) (id : ℕ) :
    w'.HasApplied id ↔ w.HasApplied id := by
  simp only [World.HasApplied, h.applied]

lemma Keeps.pendingTotal_ne {w w' : World O F C} {key : AccumulatorKey O F}
    {es : List (UsageEvent O F)} (h : Keeps w w' key es) {other : AccumulatorKey O F}
    (hne : other ≠ key) : w'.pendingTotal other = w.pendingTotal other := by
  simp only [World.pendingTotal, h.others other hne]

lemma Keeps.unanswered_ne {w w' : World O F C} {key : AccumulatorKey O F}
    {es : List (UsageEvent O F)} (h : Keeps w w' key es) {other : AccumulatorKey O F}
    (hne : other ≠ key) : w'.unanswered other = w.unanswered other := by
  simp only [World.unanswered, h.others other hne, h.hasApplied]

lemma World.pendingTotal_some {w : World O F C} {key : AccumulatorKey O F}
    {pending : PendingUsage C} (h : w.accumulator.lookup key = some pending) :
    w.pendingTotal key = pending.total := by
  simp [World.pendingTotal, h]

lemma World.pendingTotal_none {w : World O F C} {key : AccumulatorKey O F}
    (h : w.accumulator.lookup key = none) : w.pendingTotal key = 0 := by
  simp [World.pendingTotal, h]

lemma World.unanswered_some {w : World O F C} {key : AccumulatorKey O F}
    {pending : PendingUsage C} (h : w.accumulator.lookup key = some pending) :
    w.unanswered key = if w.HasApplied pending.idempotencyKey then pending.value else 0 := by
  simp [World.unanswered, h]

lemma World.unanswered_none {w : World O F C} {key : AccumulatorKey O F}
    (h : w.accumulator.lookup key = none) : w.unanswered key = 0 := by
  simp [World.unanswered, h]

lemma Good.replace {w w' : World O F C} (h : Good w) {key : AccumulatorKey O F}
    {es : List (UsageEvent O F)} (hk : Keeps w w' key es) {pending pending' : PendingUsage C}
    (hminted : w'.minted = w.minted) (hp : w.accumulator.lookup key = some pending)
    (hp' : w'.accumulator.lookup key = some pending')
    (hr : Replaces w key pending pending' (es.map UsageEvent.value).sum) : Good w' := by
  have hlookup : ∀ other q, w'.accumulator.lookup other = some q →
      ∃ q', w.accumulator.lookup other = some q' ∧ q'.idempotencyKey = q.idempotencyKey := by
    intro other q hq
    by_cases hne : other = key
    · subst hne
      rw [hp'] at hq
      obtain rfl := Option.some.inj hq
      exact ⟨pending, hp, hr.idempotencyKey.symm⟩
    · rw [hk.others other hne] at hq
      exact ⟨q, hq, rfl⟩
  constructor
  case accounted =>
    intro other
    rw [hk.completed]
    by_cases hne : other = key
    · subst hne
      rw [hk.accepted_self, World.pendingTotal_some hp', hr.total, h.accounted,
        World.pendingTotal_some hp]
      ring
    · rw [hk.accepted_ne hne, hk.pendingTotal_ne hne]
      exact h.accounted other
  case billed =>
    intro other
    rw [hk.billed, hk.completed, h.billed]
    by_cases hne : other = key
    · subst hne
      rw [World.unanswered_some hp, World.unanswered_some hp', hr.idempotencyKey]
      by_cases happlied : w.HasApplied pending.idempotencyKey
      · rw [if_pos happlied, if_pos ((hk.hasApplied _).mpr happlied), hr.value happlied]
      · rw [if_neg happlied, if_neg (fun hno => happlied ((hk.hasApplied _).mp hno))]
    · rw [hk.unanswered_ne hne]
  case fresh =>
    intro other q hq
    obtain ⟨q', hq', hid⟩ := hlookup other q hq
    rw [hminted, ← hid]
    exact h.fresh other q' hq'
  case distinct =>
    intro k k' q q' hq hq' hid
    obtain ⟨p₁, hp₁, hid₁⟩ := hlookup k q hq
    obtain ⟨p₂, hp₂, hid₂⟩ := hlookup k' q' hq'
    exact h.distinct k k' p₁ p₂ hp₁ hp₂ (hid₁.trans (hid.trans hid₂.symm))
  case queued =>
    intro other q hq
    by_cases hne : other = key
    · subst hne
      rw [hp'] at hq
      obtain rfl := Option.some.inj hq
      exact hr.queued
    · rw [hk.others other hne] at hq
      exact h.queued other q hq
  case minted =>
    rw [hk.requests, hminted]
    exact h.minted
  case batch =>
    intro other q hq s hs hid
    rw [hk.requests] at hs
    by_cases hne : other = key
    · subst hne
      rw [hp'] at hq
      obtain rfl := Option.some.inj hq
      rw [hr.idempotencyKey] at hid
      obtain ⟨hsends, hopen⟩ := h.batch other pending hp s hs hid
      exact ⟨hr.batch s hs hid hsends, hopen⟩
    · rw [hk.others other hne] at hq
      exact h.batch other q hq s hs hid
  case unsealed =>
    intro other q hq
    by_cases hne : other = key
    · subst hne
      rw [hp'] at hq
      obtain rfl := Option.some.inj hq
      exact hr.unsealed
    · rw [hk.others other hne] at hq
      exact h.unsealed other q hq
  case same =>
    rw [hk.requests]
    exact h.same
  case once =>
    rw [hk.requests]
    exact h.once
  case applied =>
    rw [hk.requests, hk.applied]
    exact h.applied

/-- A new entry, under a key that has just been minted. -/
lemma Good.start {w w' : World O F C} (h : Good w) {key : AccumulatorKey O F}
    {es : List (UsageEvent O F)} (hk : Keeps w w' key es) (hminted : w'.minted = w.minted + 1)
    (hp : w.accumulator.lookup key = none)
    (hp' : w'.accumulator.lookup key = some (.new (es.map UsageEvent.value).sum w.minted)) :
    Good w' := by
  constructor
  case accounted =>
    intro other
    rw [hk.completed]
    by_cases hne : other = key
    · subst hne
      rw [hk.accepted_self, World.pendingTotal_some hp', h.accounted, World.pendingTotal_none hp]
      simp [PendingUsage.new, PendingUsage.total]
    · rw [hk.accepted_ne hne, hk.pendingTotal_ne hne]
      exact h.accounted other
  case billed =>
    intro other
    rw [hk.billed, hk.completed, h.billed]
    by_cases hne : other = key
    · subst hne
      have hno : ¬ w'.HasApplied w.minted := fun hno => h.unminted ((hk.hasApplied _).mp hno)
      rw [World.unanswered_none hp, World.unanswered_some hp', PendingUsage.new, if_neg hno]
    · rw [hk.unanswered_ne hne]
  case fresh =>
    intro other q hq
    rw [hminted]
    by_cases hne : other = key
    · subst hne
      rw [hp'] at hq
      obtain rfl := Option.some.inj hq
      simp [PendingUsage.new]
    · rw [hk.others other hne] at hq
      have hlt := h.fresh other q hq
      omega
  case distinct =>
    intro k k' q q' hq hq' hid
    by_cases hk₁ : k = key
    · by_cases hk₂ : k' = key
      · rw [hk₁, hk₂]
      · rw [hk.others k' hk₂] at hq'
        rw [hk₁, hp'] at hq
        obtain rfl := Option.some.inj hq
        exact absurd (h.fresh k' q' hq') (by rw [← hid]; simp [PendingUsage.new])
    · rw [hk.others k hk₁] at hq
      by_cases hk₂ : k' = key
      · rw [hk₂, hp'] at hq'
        obtain rfl := Option.some.inj hq'
        exact absurd (h.fresh k q hq) (by rw [hid]; simp [PendingUsage.new])
      · rw [hk.others k' hk₂] at hq'
        exact h.distinct k k' q q' hq hq' hid
  case queued =>
    intro other q hq
    by_cases hne : other = key
    · subst hne
      rw [hp'] at hq
      obtain rfl := Option.some.inj hq
      exact le_refl _
    · rw [hk.others other hne] at hq
      exact h.queued other q hq
  case minted =>
    intro s hs
    rw [hk.requests] at hs
    have hlt := h.minted s hs
    omega
  case batch =>
    intro other q hq s hs hid
    rw [hk.requests] at hs
    by_cases hne : other = key
    · subst hne
      rw [hp'] at hq
      obtain rfl := Option.some.inj hq
      exact absurd (h.minted s hs) (by rw [hid]; simp [PendingUsage.new])
    · rw [hk.others other hne] at hq
      exact h.batch other q hq s hs hid
  case unsealed =>
    intro other q hq
    by_cases hne : other = key
    · subst hne
      rw [hp'] at hq
      obtain rfl := Option.some.inj hq
      exact fun _ => rfl
    · rw [hk.others other hne] at hq
      exact h.unsealed other q hq
  case same =>
    rw [hk.requests]
    exact h.same
  case once =>
    rw [hk.requests]
    exact h.once
  case applied =>
    rw [hk.requests, hk.applied]
    exact h.applied

lemma keeps_accumulate (w : World O F C) (e : UsageEvent O F) :
    Keeps w (accumulate w e) (e.orgId, e.featureId) [e] := by
  refine ⟨?_, accumulate_requests w e, accumulate_applied w e, accumulate_events w e, ?_⟩
  · intro other hother
    exact accumulate_lookup_ne w e hother
  · intro event hevent
    obtain rfl := List.mem_singleton.mp hevent
    rfl

lemma Good.accumulate {w : World O F C} (h : Good w) {e : UsageEvent O F} (he : 0 ≤ e.value) :
    Good (accumulate w e) := by
  have hk := keeps_accumulate w e
  cases hp : w.accumulator.lookup (e.orgId, e.featureId) with
  | none =>
    apply h.start hk _ hp
    · simp [Usage.accumulate, hp]
    · simp [Usage.accumulate, hp]
  | some pending =>
    have hminted : (Usage.accumulate w e).minted = w.minted := by simp [Usage.accumulate, hp]
    cases hc : pending.customerId with
    | none =>
      have hp' : (Usage.accumulate w e).accumulator.lookup (e.orgId, e.featureId) =
          some { pending with value := pending.value + e.value } := by
        simp [Usage.accumulate, hp, hc]
      apply h.replace hk hminted hp hp'
      have hqueued : 0 ≤ pending.queuedValue := h.queued _ _ hp
      refine ⟨rfl, ?_, hqueued, ?_, ?_, ?_⟩
      · simp only [PendingUsage.total, List.map_cons, List.map_nil, List.sum_cons, List.sum_nil]
        ring
      · intro _
        have hnone : pending.queuedValue = 0 := h.unsealed _ _ hp hc
        exact hnone
      · intro s hs hid hsends
        exact absurd (hc.symm.trans hsends.customer) (by simp)
      · intro happlied
        exact absurd happlied (h.unapplied hp hc)
    | some customer =>
      have hp' : (Usage.accumulate w e).accumulator.lookup (e.orgId, e.featureId) =
          some { pending with queuedValue := pending.queuedValue + e.value } := by
        simp [Usage.accumulate, hp, hc]
      apply h.replace hk hminted hp hp'
      refine ⟨rfl, ?_, ?_, ?_, ?_, fun _ => rfl⟩
      · simp only [PendingUsage.total, List.map_cons, List.map_nil, List.sum_cons, List.sum_nil]
        ring
      · exact add_nonneg (h.queued _ _ hp) he
      · intro hnone
        cases hc.symm.trans hnone
      · intro s hs hid hsends
        exact ⟨hsends.key, hsends.customer, hsends.value, hsends.idempotencyKey⟩

end Maple.Usage
