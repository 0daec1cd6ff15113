import Mathlib

/-! The projection tables of the control store: revisions, and which of them is active. -/

namespace Maple.Projection

variable {β : Type}

/-- A decoded projection; `detail` is its selector, its projector and `activeFrom`. -/
structure SignalProjectionSpec (β : Type) where
  id : String
  revision : ℕ
  enabled : Bool
  tenantId : String
  sourceKind : String
  detail : β
  deriving DecidableEq, Repr

def SignalProjectionSpec.revisionKey (spec : SignalProjectionSpec β) : String :=
  s!"{spec.tenantId}:{spec.id}@{spec.revision}"

/-- A row of `active_projections`. -/
structure ActiveProjection where
  tenantId : String
  projectionId : String
  revision : ℕ
  deriving DecidableEq, Repr

/-- The tables `projection_revisions` and `active_projections`. -/
structure ControlStore (β : Type) where
  revisions : List (SignalProjectionSpec β)
  active : List ActiveProjection
  deriving DecidableEq, Repr

namespace ControlStore

def empty : ControlStore β := ⟨[], []⟩

def latestRevision (store : ControlStore β) (tenantId id : String) : Option ℕ :=
  ((store.revisions.filter fun r => r.tenantId = tenantId ∧ r.id = id).map (·.revision)).max?

def findRevision (store : ControlStore β) (tenantId id : String) (revision : ℕ) :
    Option (SignalProjectionSpec β) :=
  store.revisions.find? fun r => r.tenantId = tenantId ∧ r.id = id ∧ r.revision = revision

def activeRevision (store : ControlStore β) (tenantId id : String) : Option ℕ :=
  (store.active.find? fun a => a.tenantId = tenantId ∧ a.projectionId = id).map (·.revision)

/-- The rows that are not of `spec`'s projection. -/
def otherActive (store : ControlStore β) (spec : SignalProjectionSpec β) : List ActiveProjection :=
  store.active.filter fun a => ¬ (a.tenantId = spec.tenantId ∧ a.projectionId = spec.id)

/-- Insert a new revision and make it, or no revision, the active one. Loads sort the active rows,
so it does not matter where the upsert leaves its row. -/
def insertRevision (store : ControlStore β) (spec : SignalProjectionSpec β) : ControlStore β where
  revisions := store.revisions ++ [spec]
  active :=
    if spec.enabled then store.otherActive spec ++ [⟨spec.tenantId, spec.id, spec.revision⟩]
    else store.otherActive spec

def expectedActiveRevision (spec : SignalProjectionSpec β) : Option ℕ :=
  if spec.enabled then some spec.revision else none

/-- One transaction: an error leaves the store as it was. -/
def saveProjection [DecidableEq β] (store : ControlStore β) (spec : SignalProjectionSpec β) :
    Except String (ControlStore β) :=
  let latest := store.latestRevision spec.tenantId spec.id
  match store.findRevision spec.tenantId spec.id spec.revision with
  | some existing =>
    if existing ≠ spec then .error s!"projection revision is immutable: {spec.revisionKey}"
    else if latest ≠ some spec.revision then
      .error s!"stale projection revision: {spec.revisionKey}; latest is {latest.getD 0}"
    else if store.activeRevision spec.tenantId spec.id ≠ expectedActiveRevision spec then
      .error s!"projection active state conflicts with exact revision replay: {spec.revisionKey}"
    else .ok store
  | none =>
    let expected := latest.elim 1 (· + 1)
    if spec.revision ≠ expected then
      .error s!"projection revision must be {expected}: {spec.revisionKey}"
    else .ok (store.insertRevision spec)

/-- The active rows of a tenant joined with their revisions, ordered by projection id. -/
def loadEnabledProjections (store : ControlStore β) (tenantId : String) :
    List (SignalProjectionSpec β) :=
  let rows := store.active.filter fun a => a.tenantId = tenantId
  (rows.insertionSort fun a b => a.projectionId ≤ b.projectionId).filterMap fun a =>
    store.findRevision a.tenantId a.projectionId a.revision

/-- The stores that transactions of `saveProjection` have written. -/
inductive Written [DecidableEq β] : ControlStore β → Prop
  | empty : Written empty
  | save {store store' : ControlStore β} {spec : SignalProjectionSpec β} (h : Written store)
      (hsave : store.saveProjection spec = .ok store') : Written store'

/-- The primary key of the active rows, and the foreign key into the revisions. -/
structure Sound (store : ControlStore β) : Prop where
  unique : ∀ a ∈ store.active, ∀ b ∈ store.active,
    a.tenantId = b.tenantId → a.projectionId = b.projectionId → a = b
  nodup : store.active.Nodup
  stored : ∀ a ∈ store.active,
    (store.findRevision a.tenantId a.projectionId a.revision).isSome

lemma findRevision_key {store : ControlStore β} {tenantId id : String} {revision : ℕ}
    {spec : SignalProjectionSpec β} (h : store.findRevision tenantId id revision = some spec) :
    spec.tenantId = tenantId ∧ spec.id = id ∧ spec.revision = revision := by
  have hkey := List.find?_some h
  simpa using hkey

lemma mem_otherActive {store : ControlStore β} {spec : SignalProjectionSpec β}
    {a : ActiveProjection} : a ∈ store.otherActive spec ↔
      a ∈ store.active ∧ ¬ (a.tenantId = spec.tenantId ∧ a.projectionId = spec.id) := by
  rw [otherActive, List.mem_filter, decide_eq_true_eq]

/-- An insertion keeps every revision that was there. -/
lemma findRevision_insert {store : ControlStore β} {spec r : SignalProjectionSpec β}
    {tenantId id : String} {revision : ℕ} (h : store.findRevision tenantId id revision = some r) :
    (store.insertRevision spec).findRevision tenantId id revision = some r := by
  unfold findRevision insertRevision at *
  rw [List.find?_append, h]
  rfl

lemma findRevision_insert_self {store : ControlStore β} {spec : SignalProjectionSpec β}
    (h : store.findRevision spec.tenantId spec.id spec.revision = none) :
    (store.insertRevision spec).findRevision spec.tenantId spec.id spec.revision = some spec := by
  unfold findRevision insertRevision at *
  rw [List.find?_append, h]
  simp

/-- A save either replays the revision that is active already, or inserts a new one. -/
lemma saveProjection_ok [DecidableEq β] {store store' : ControlStore β} {spec : SignalProjectionSpec β}
    (h : store.saveProjection spec = .ok store') :
    (store' = store ∧ store.findRevision spec.tenantId spec.id spec.revision = some spec ∧
      store.activeRevision spec.tenantId spec.id = expectedActiveRevision spec) ∨
    (store' = store.insertRevision spec ∧
      store.findRevision spec.tenantId spec.id spec.revision = none) := by
  unfold saveProjection at h
  dsimp only at h
  split at h
  · rename_i existing hexisting
    split_ifs at h with hsame hlatest hactive
    left
    obtain rfl := Except.ok.inj h
    simp only [ne_eq, not_not] at hsame hactive
    rw [hsame] at hexisting
    exact ⟨rfl, hexisting, hactive⟩
  · rename_i hnone
    split_ifs at h
    exact Or.inr ⟨(Except.ok.inj h).symm, hnone⟩

lemma Sound.insert {store : ControlStore β} (h : Sound store) {spec : SignalProjectionSpec β}
    (hnew : store.findRevision spec.tenantId spec.id spec.revision = none) :
    Sound (store.insertRevision spec) := by
  have hother : ∀ a ∈ store.otherActive spec, ((store.insertRevision spec).findRevision
      a.tenantId a.projectionId a.revision).isSome := by
    intro a ha
    obtain ⟨r, hr⟩ := Option.isSome_iff_exists.mp (h.stored a (mem_otherActive.mp ha).1)
    rw [findRevision_insert hr]
    rfl
  have hself := findRevision_insert_self hnew
  by_cases henabled : spec.enabled
  · have hactive : (store.insertRevision spec).active =
        store.otherActive spec ++ [⟨spec.tenantId, spec.id, spec.revision⟩] := by
      simp [insertRevision, henabled]
    refine ⟨?_, ?_, ?_⟩
    · intro a ha b hb htenant hid
      rw [hactive] at ha hb
      rcases List.mem_append.mp ha with ha | ha <;> rcases List.mem_append.mp hb with hb | hb
      · exact h.unique a (mem_otherActive.mp ha).1 b (mem_otherActive.mp hb).1 htenant hid
      · obtain rfl := List.mem_singleton.mp hb
        exact absurd ⟨htenant, hid⟩ (mem_otherActive.mp ha).2
      · obtain rfl := List.mem_singleton.mp ha
        exact absurd ⟨htenant.symm, hid.symm⟩ (mem_otherActive.mp hb).2
      · rw [List.mem_singleton.mp ha, List.mem_singleton.mp hb]
    · rw [hactive]
      refine List.nodup_append.mpr ⟨h.nodup.filter _, by simp, ?_⟩
      intro a ha b hb hab
      obtain rfl := List.mem_singleton.mp hb
      exact (mem_otherActive.mp ha).2 (by simp [hab])
    · intro a ha
      rw [hactive] at ha
      rcases List.mem_append.mp ha with ha | ha
      · exact hother a ha
      · obtain rfl := List.mem_singleton.mp ha
        rw [hself]
        rfl
  · have hactive : (store.insertRevision spec).active = store.otherActive spec := by
      simp [insertRevision, henabled]
    refine ⟨?_, ?_, ?_⟩
    · intro a ha b hb
      rw [hactive] at ha hb
      exact h.unique a (mem_otherActive.mp ha).1 b (mem_otherActive.mp hb).1
    · rw [hactive]
      exact h.nodup.filter _
    · intro a ha
      exact hother a (hactive ▸ ha)

lemma Sound.save [DecidableEq β] {store store' : ControlStore β} (h : Sound store)
    {spec : SignalProjectionSpec β} (hsave : store.saveProjection spec = .ok store') :
    Sound store' := by
  rcases saveProjection_ok hsave with ⟨rfl, -⟩ | ⟨rfl, hnew⟩
  · exact h
  · exact h.insert hnew

theorem Written.sound [DecidableEq β] {store : ControlStore β} (h : Written store) : Sound store := by
  induction h with
  | empty => exact ⟨by simp [ControlStore.empty], by simp [ControlStore.empty], by simp [ControlStore.empty]⟩
  | save _ hsave ih => exact ih.save hsave

/-- The projections of a tenant, in the order of their rows. -/
def joined (store : ControlStore β) (rows : List ActiveProjection) :
    List (SignalProjectionSpec β) :=
  rows.filterMap fun a => store.findRevision a.tenantId a.projectionId a.revision

lemma loadEnabledProjections_perm (store : ControlStore β) (tenantId : String) :
    (store.loadEnabledProjections tenantId).Perm
      (store.joined (store.active.filter fun a => a.tenantId = tenantId)) :=
  (List.perm_insertionSort _ _).filterMap _

lemma joined_filter_id {store : ControlStore β} (rows : List ActiveProjection) (id : String) :
    (store.joined rows).filter (fun r => r.id ≠ id) =
      store.joined (rows.filter fun a => a.projectionId ≠ id) := by
  induction rows with
  | nil => rfl
  | cons a rows ih =>
    cases hfind : store.findRevision a.tenantId a.projectionId a.revision with
    | none =>
      by_cases ha : a.projectionId = id
      · subst ha
        simpa [joined, List.filterMap_cons, hfind] using ih
      · simpa [joined, List.filterMap_cons, hfind, ha] using ih
    | some r =>
      have hid := (findRevision_key hfind).2.1
      by_cases ha : a.projectionId = id
      · subst ha
        simpa [joined, List.filterMap_cons, hfind, hid] using ih
      · simpa [joined, List.filterMap_cons, hfind, ha, hid] using ih

lemma joined_insert {store : ControlStore β} {spec : SignalProjectionSpec β}
    {rows : List ActiveProjection}
    (h : ∀ a ∈ rows, (store.findRevision a.tenantId a.projectionId a.revision).isSome) :
    (store.insertRevision spec).joined rows = store.joined rows := by
  refine List.filterMap_congr fun a ha => ?_
  obtain ⟨r, hr⟩ := Option.isSome_iff_exists.mp (h a ha)
  rw [hr, findRevision_insert hr]

/-- What a projection adds to the ones a tenant has active. -/
def enabledOnly (spec : SignalProjectionSpec β) : List (SignalProjectionSpec β) :=
  if spec.enabled then [spec] else []

lemma rows_insert (store : ControlStore β) (spec : SignalProjectionSpec β) :
    (store.insertRevision spec).active.filter (fun a => a.tenantId = spec.tenantId) =
      (store.active.filter fun a => a.tenantId = spec.tenantId).filter
        (fun a => a.projectionId ≠ spec.id) ++
      if spec.enabled then [⟨spec.tenantId, spec.id, spec.revision⟩] else [] := by
  have hother : (store.otherActive spec).filter (fun a => a.tenantId = spec.tenantId) =
      (store.active.filter fun a => a.tenantId = spec.tenantId).filter
        (fun a => a.projectionId ≠ spec.id) := by
    rw [otherActive, List.filter_filter, List.filter_filter]
    refine List.filter_congr fun a _ => ?_
    by_cases htenant : a.tenantId = spec.tenantId
    · simp [htenant]
    · simp [htenant]
  by_cases henabled : spec.enabled
  · simp [insertRevision, henabled, hother]
  · simp [insertRevision, henabled, hother]

/-- Inserting a revision replaces the projection's active one by the new one, if enabled. -/
lemma loadEnabledProjections_insert {store : ControlStore β} (h : Sound store)
    {spec : SignalProjectionSpec β}
    (hnew : store.findRevision spec.tenantId spec.id spec.revision = none) :
    ((store.insertRevision spec).loadEnabledProjections spec.tenantId).Perm
      ((store.loadEnabledProjections spec.tenantId).filter (fun r => r.id ≠ spec.id) ++
        enabledOnly spec) := by
  have hbefore := (loadEnabledProjections_perm store spec.tenantId).filter fun r => r.id ≠ spec.id
  have hafter := loadEnabledProjections_perm (store.insertRevision spec) spec.tenantId
  have hsplit : ∀ xs ys, (store.insertRevision spec).joined (xs ++ ys) =
      (store.insertRevision spec).joined xs ++ (store.insertRevision spec).joined ys := by
    intro xs ys
    simp [joined]
  have hself : (store.insertRevision spec).joined
      (if spec.enabled then [⟨spec.tenantId, spec.id, spec.revision⟩] else []) =
        enabledOnly spec := by
    unfold enabledOnly
    split_ifs
    · simp [joined, findRevision_insert_self hnew]
    · rfl
  rw [rows_insert, hsplit, hself, joined_insert] at hafter
  · refine hafter.trans (List.Perm.append_right _ ?_)
    rw [← joined_filter_id]
    exact hbefore.symm
  · intro a ha
    exact h.stored a (List.mem_filter.mp (List.mem_filter.mp ha).1).1

/-- Replaying the active revision of a projection, or a disabled one, changes nothing. -/
lemma loadEnabledProjections_replay {store : ControlStore β} (h : Sound store)
    {spec : SignalProjectionSpec β}
    (hstored : store.findRevision spec.tenantId spec.id spec.revision = some spec)
    (hactive : store.activeRevision spec.tenantId spec.id = expectedActiveRevision spec) :
    (store.loadEnabledProjections spec.tenantId).Perm
      ((store.loadEnabledProjections spec.tenantId).filter (fun r => r.id ≠ spec.id) ++
        enabledOnly spec) := by
  have hload := loadEnabledProjections_perm store spec.tenantId
  have hothers := hload.filter fun r => r.id ≠ spec.id
  refine hload.trans (List.Perm.trans ?_ (List.Perm.append_right _ hothers.symm))
  rw [joined_filter_id]
  generalize hrows : store.active.filter (fun a => a.tenantId = spec.tenantId) = rows
  have hmem : ∀ a, a ∈ rows ↔ a ∈ store.active ∧ a.tenantId = spec.tenantId := by
    intro a
    rw [← hrows]
    simp
  unfold activeRevision expectedActiveRevision at hactive
  by_cases henabled : spec.enabled
  · rw [if_pos henabled] at hactive
    obtain ⟨a, hfind, hrevision⟩ := Option.map_eq_some_iff.mp hactive
    have hrow : a ∈ store.active := List.mem_of_find?_eq_some hfind
    obtain ⟨htenant, hid⟩ : a.tenantId = spec.tenantId ∧ a.projectionId = spec.id := by
      simpa using List.find?_some hfind
    have ha : a ∈ rows := (hmem a).mpr ⟨hrow, htenant⟩
    have hnodup : rows.Nodup := hrows ▸ h.nodup.filter _
    have hfilter : rows.filter (fun b => b.projectionId ≠ spec.id) = rows.erase a := by
      rw [hnodup.erase_eq_filter]
      refine List.filter_congr fun b hb => ?_
      obtain ⟨hb, hbtenant⟩ := (hmem b).mp hb
      by_cases hab : b = a
      · simp [hab, hid]
      · have hne : b.projectionId ≠ spec.id := by
          intro hbid
          exact hab (h.unique b hb a hrow (hbtenant.trans htenant.symm) (hbid.trans hid.symm))
        simp [hab, hne]
    have hperm : (store.joined rows).Perm (store.joined (a :: rows.erase a)) :=
      (List.perm_cons_erase ha).filterMap _
    have hjoin : store.joined (a :: rows.erase a) = spec :: store.joined (rows.erase a) := by
      simp [joined, htenant, hid, hrevision, hstored]
    rw [hfilter, enabledOnly, if_pos henabled]
    rw [hjoin] at hperm
    exact hperm.trans (List.perm_append_singleton _ _).symm
  · rw [if_neg henabled, Option.map_eq_none_iff, List.find?_eq_none] at hactive
    have hfilter : rows.filter (fun b => b.projectionId ≠ spec.id) = rows := by
      refine List.filter_eq_self.mpr fun b hb => ?_
      obtain ⟨hb, hbtenant⟩ := (hmem b).mp hb
      have hnot := hactive b hb
      simpa [hbtenant] using hnot
    rw [hfilter, enabledOnly, if_neg henabled, List.append_nil]

/-- After a save, the tenant's other projections are as before, and the saved one is in iff it is
enabled. -/
theorem loadEnabledProjections_save [DecidableEq β] {store store' : ControlStore β}
    (h : Sound store) {spec : SignalProjectionSpec β}
    (hsave : store.saveProjection spec = .ok store') :
    (store'.loadEnabledProjections spec.tenantId).Perm
      ((store.loadEnabledProjections spec.tenantId).filter (fun r => r.id ≠ spec.id) ++
        enabledOnly spec) := by
  rcases saveProjection_ok hsave with ⟨rfl, hstored, hactive⟩ | ⟨rfl, hnew⟩
  · exact loadEnabledProjections_replay h hstored hactive
  · exact loadEnabledProjections_insert h hnew

end ControlStore

end Maple.Projection
