import Maple.CheckpointRestore
import Maple.MigrationRecovery

/-! Every disk that an interrupted restore leaves, and what the next reconciliation makes of it. -/

namespace Maple.Checkpoint
open CrashRecovery Migration

variable {D R : Type}

/-- One restore: its ids, the store it replaces and the content it restores. -/
structure RestoreRun (D R : Type) where
  operationId : String
  checkpointId : String
  quarantineId : String
  old : StoreDir D R
  restored : Option D

def RestoreInput.toRun (input : RestoreInput D R) (old : StoreDir D R) : RestoreRun D R :=
  ⟨input.operationId, input.checkpoint.toOption.getD "", input.quarantineId, old,
    input.restored.data.map (·.data)⟩

namespace RestoreRun

def intent (p : RestoreRun D R) : RestoreTransaction :=
  ⟨p.operationId, p.checkpointId, p.quarantineId, .intent, false⟩

def transaction (p : RestoreRun D R) (phase : RestoreTransactionPhase) : RestoreTransaction :=
  ⟨p.operationId, p.checkpointId, p.quarantineId, phase, true⟩

def ready (p : RestoreRun D R) : ReadyFile := .json ⟨p.operationId, p.checkpointId⟩

/-- The root with the restored store in it. -/
def readyRoots (p : RestoreRun D R) (data : D) (files : List String) :
    List (String × RestoreRoot D R) :=
  [(p.operationId, ⟨some ⟨data, some p.ready, none⟩, files⟩)]

/-- The root once the restored store has left it, or no root. -/
def EmptyRoots (p : RestoreRun D R) (roots : List (String × RestoreRoot D R)) : Prop :=
  roots = [] ∨ ∃ files, roots = [(p.operationId, ⟨none, files⟩)]

end RestoreRun

/-- What lies where. -/
structure Lies (p : RestoreRun D R) (s : RestoreDisk D R) (live : Option (StoreDir D R))
    (roots : List (String × RestoreRoot D R)) (quarantine : Option (StoreDir D R))
    (transaction : Option TransactionFile) : Prop where
  live : s.live = live
  roots : s.roots = roots
  quarantine : s.quarantines (p.operationId, p.quarantineId) = quarantine
  transaction : s.transaction = transaction

/-- A marker of this build's schema. -/
def CurrentMarker (host : Host D) (file : Option MarkerFile) : Prop :=
  ∃ marker, host.markerIn file = some (.v2 marker) ∧
    marker.schemaVersion = host.currentSchema.version ∧
    marker.schemaDigest = host.currentSchema.digest ∧ marker.schema = host.currentSchema.fingerprint

/-- The restored store is live and closed, under a marker of this build. -/
structure Marked (host : Host D) (s : RestoreDisk D R) : Prop where
  marker : CurrentMarker host s.sidecars.marker
  closed : s.sidecars.openMarker = false

/-- The restored store is in place with the registry, the old store is kept without it, and nothing
else of the restore is left. -/
structure Restored (host : Host D) (p : RestoreRun D R) (s : RestoreDisk D R) : Prop where
  live : ∃ data, p.restored = some data ∧ s.live = some ⟨data, none, p.old.registry⟩
  quarantine : s.quarantines (p.operationId, p.quarantineId) = some { p.old with registry := none }
  roots : s.roots = []
  transaction : s.transaction = none
  marked : Marked host s

/-- The old store is in place with its registry. -/
structure OldInPlace (p : RestoreRun D R) (before : Option (StoreDir D R)) (s : RestoreDisk D R) :
    Prop where
  live : s.live = some p.old
  quarantine : s.quarantines (p.operationId, p.quarantineId) = before
  roots : s.roots = []
  transaction : s.transaction = none

/-- Every disk between the start of a restore and the end of its reconciliation. -/
inductive Recoverable (host : Host D) (p : RestoreRun D R) (before : Option (StoreDir D R))
    (s : RestoreDisk D R) : Prop
  | untouched (h : OldInPlace p before s)
  | intent {roots : List (String × RestoreRoot D R)}
      (hroots : roots = [] ∨ ∃ root, roots = [(p.operationId, root)])
      (h : Lies p s (some p.old) roots none (some (.json p.intent))) (hbefore : before = none)
  | ready {data : D} {files : List String} (hdata : p.restored = some data)
      (h : Lies p s (some p.old) (p.readyRoots data files) none
        (some (.json (p.transaction .restoreReady)))) (hbefore : before = none)
  | quarantined {data : D} {files : List String} {phase : RestoreTransactionPhase}
      (hdata : p.restored = some data) (hphase : phase = .restoreReady ∨ phase = .oldQuarantined)
      (h : Lies p s none (p.readyRoots data files) (some p.old)
        (some (.json (p.transaction phase))))
  | published {data : D} {roots : List (String × RestoreRoot D R)} {phase : RestoreTransactionPhase}
      (hdata : p.restored = some data) (hroots : p.EmptyRoots roots)
      (hphase : phase = .restoreReady ∨ phase = .oldQuarantined ∨ phase = .newLive)
      (h : Lies p s (some ⟨data, some p.ready, none⟩) roots (some p.old)
        (some (.json (p.transaction phase))))
  | moved {data : D} {roots : List (String × RestoreRoot D R)} {phase : RestoreTransactionPhase}
      (hdata : p.restored = some data) (hroots : p.EmptyRoots roots)
      (hphase : phase = .oldQuarantined ∨ phase = .newLive)
      (h : Lies p s (some ⟨data, some p.ready, p.old.registry⟩) roots
        (some { p.old with registry := none }) (some (.json (p.transaction phase))))
  | committed {data : D} {roots : List (String × RestoreRoot D R)} {ready : Option ReadyFile}
      (hdata : p.restored = some data) (hroots : p.EmptyRoots roots)
      (h : Lies p s (some ⟨data, ready, p.old.registry⟩) roots
        (some { p.old with registry := none }) (some (.json (p.transaction .markersCommitted))))
      (hmarked : Marked host s)
  | done (h : Restored host p s)

/-- This build's constants and what a process draws make a marker that can be read back. -/
structure MarkerValid (host : Host D) (input : MarkerInput) : Prop where
  chdb : host.chdbVersion ≠ ""
  version : 0 ≤ host.currentSchema.version
  digest : digest64 host.currentSchema.digest = true
  fingerprint : fingerprint16 host.currentSchema.fingerprint = true
  now : host.dateParses input.now = true
  storeUuid : input.storeUuid ≠ ""

section Recovery
variable {host : Host D} {p : RestoreRun D R} {before : Option (StoreDir D R)} {s : RestoreDisk D R}
  {input : MarkerInput} {data : D} {roots : List (String × RestoreRoot D R)}

lemma RestoreRun.EmptyRoots.restoreData (hroots : p.EmptyRoots roots) (hs : s.roots = roots) :
    s.restoreData p.operationId = none := by
  rcases hroots with rfl | ⟨files, rfl⟩
  · simp [RestoreDisk.restoreData, RestoreDisk.root, hs]
  · simp [RestoreDisk.restoreData, RestoreDisk.root, hs]

lemma restoreData_ready {files : List String} (hs : s.roots = p.readyRoots data files) :
    s.restoreData p.operationId = some ⟨data, some p.ready, none⟩ := by
  simp [RestoreDisk.restoreData, RestoreDisk.root, hs, RestoreRun.readyRoots]

/-! ### Markers -/

lemma currentMarker {marker : StoreMarkerV2}
    (hfields : ∀ field ∈ host.markerFields (.v2 marker), field.2 = true)
    (hversion : marker.schemaVersion = host.currentSchema.version)
    (hdigest : marker.schemaDigest = host.currentSchema.digest)
    (hschema : marker.schema = host.currentSchema.fingerprint) :
    CurrentMarker host (some (.json (.v2 marker))) := by
  obtain ⟨creator, hname⟩ := nameCreator_v2 marker
  refine ⟨{ marker with createdByMaple := creator }, ?_, hversion, hdigest, hschema⟩
  rw [Host.markerIn_json hfields, hname]

lemma makeStoreMarker_ok {marker : StoreMarkerV2}
    (hfields : ∀ field ∈ host.markerFields (.v2 marker), field.2 = true) :
    host.makeStoreMarker marker = .ok marker := by
  simp [Host.makeStoreMarker, checkFields_iff.mpr hfields, bind, Except.bind, pure, Except.pure]

/-- A marker that can be read can be brought to this build's schema. -/
lemma restoredMarker_ok (hvalid : MarkerValid host input) {existing : Option StoreMarker}
    (hexisting : ∀ marker, existing = some marker →
      ∀ field ∈ host.markerFields marker, field.2 = true) :
    (∃ marker, restoredMarker host input existing = .ok (some marker) ∧
      CurrentMarker host (some (.json (.v2 marker)))) ∨
    (restoredMarker host input existing = .ok none ∧ ∃ marker, existing = some (.v2 marker) ∧
      marker.schemaVersion = host.currentSchema.version ∧
      marker.schemaDigest = host.currentSchema.digest ∧
      marker.schema = host.currentSchema.fingerprint) := by
  have hversion := decide_eq_true hvalid.version
  have hnow : host.isoOrUnknown input.now = true := by simp [Host.isoOrUnknown, hvalid.now]
  rcases existing with _ | ⟨marker⟩ | ⟨marker⟩
  · left
    have hfields : ∀ field ∈ host.markerFields (.v2 ⟨input.storeUuid, host.chdbVersion,
        host.mapleVersion, input.now, host.mapleVersion, host.currentSchema.version,
        host.currentSchema.digest, host.currentSchema.fingerprint, .active, none⟩),
        field.2 = true := by
      simp [Host.markerFields, hvalid.storeUuid, hvalid.chdb, hnow, hvalid.version, hvalid.digest,
        hvalid.fingerprint]
    exact ⟨_, by rw [restoredMarker, makeStoreMarker_ok hfields]; rfl,
      currentMarker hfields rfl rfl rfl⟩
  · have hfields := hexisting (.v2 marker) rfl
    by_cases hstaged : marker.activation = .staging ∧
        marker.schemaVersion = host.currentSchema.version ∧
        marker.schemaDigest = host.currentSchema.digest ∧
        marker.schema = host.currentSchema.fingerprint
    · right
      exact ⟨by rw [restoredMarker, if_pos hstaged], marker, rfl, hstaged.2⟩
    · left
      refine ⟨_, by rw [restoredMarker, if_neg hstaged], currentMarker ?_ rfl rfl rfl⟩
      simp only [Host.markerFields, List.mem_cons, List.not_mem_nil, or_false, forall_eq_or_imp,
        forall_eq] at hfields ⊢
      exact ⟨hfields.1, hfields.2.1, hfields.2.2.1, hversion, hvalid.digest, hvalid.fingerprint,
        hfields.2.2.2.2.2.2⟩
  · left
    have hlegacy := hexisting (.legacy marker) rfl
    simp only [Host.markerFields, List.mem_cons, List.not_mem_nil, or_false, forall_eq_or_imp,
      forall_eq] at hlegacy
    have hfields : ∀ field ∈ host.markerFields (.v2 ⟨input.storeUuid, host.chdbVersion,
        host.mapleVersion, marker.createdAt, marker.maple, host.currentSchema.version,
        host.currentSchema.digest, host.currentSchema.fingerprint, .active, none⟩),
        field.2 = true := by
      simp [Host.markerFields, hvalid.storeUuid, hvalid.chdb, hlegacy.2, hvalid.version,
        hvalid.digest, hvalid.fingerprint]
    exact ⟨_, by rw [restoredMarker, makeStoreMarker_ok hfields]; rfl,
      currentMarker hfields rfl rfl rfl⟩

/-- The invariant does not depend on the sidecars. -/
def Beside (inv : RestoreDisk D R → Prop) : Prop :=
  ∀ s sidecars legacy, inv s → inv { s with sidecars := sidecars, legacy := legacy }

lemma wp_whenever_atomic {inv : RestoreDisk D R → Prop} {b : Bool}
    {f : RestoreDisk D R → RestoreDisk D R} (hs : inv s) (hf : inv (f s)) :
    (Program.whenever b (Program.atomic f) : Restorer D R Unit).wp inv (fun s' _ => inv s')
      (fun _ _ => False) s := by
  rw [Program.wp_whenever]
  split_ifs
  · exact Program.wp_atomic.mpr ⟨hs, hf⟩
  · exact hs

lemma adoptLegacySidecars_wp {inv : RestoreDisk D R → Prop} (hinv : Beside inv) (hs : inv s) :
    (adoptLegacySidecars host).wp inv (fun s' _ => inv s') (fun _ _ => False) s := by
  rw [adoptLegacySidecars, Program.wp_bind, Program.wp_get, Program.wp_whenever]
  split_ifs
  swap
  · exact hs
  rw [Program.wp_bind]
  apply Program.wp_conseq (wp_whenever_atomic hs (hinv s _ _ hs))
  intro s₁ _ hs₁
  rw [Program.wp_bind]
  apply Program.wp_conseq (wp_whenever_atomic hs₁ (hinv s₁ _ _ hs₁))
  intro s₂ _ hs₂
  exact wp_whenever_atomic hs₂ (hinv s₂ _ _ hs₂)

lemma beside_lies {live quarantine : Option (StoreDir D R)} {file : Option TransactionFile} :
    Beside fun s => Lies p s live roots quarantine file :=
  fun _ _ _ h => ⟨h.live, h.roots, h.quarantine, h.transaction⟩

lemma writeStoreMarkerDurable_wp {inv : RestoreDisk D R → Prop} (hinv : Beside inv)
    (hvalid : MarkerValid host input) (hs : inv s) :
    (writeStoreMarkerDurable host input).wp inv
      (fun s' _ => inv s' ∧ CurrentMarker host s'.sidecars.marker) (fun _ _ => False) s := by
  rw [writeStoreMarkerDurable, Program.wp_bind, readMarker, Program.wp_bind]
  apply Program.wp_conseq (adoptLegacySidecars_wp hinv hs)
  intro s' _ hs'
  rw [Program.wp_bind, Program.wp_get, Program.wp_pure]
  have hread := restoredMarker_ok hvalid
    fun marker (hmarker : host.markerIn s'.sidecars.marker = some marker) =>
      Host.markerIn_eq_some hmarker
  rcases hread with ⟨marker, hwritten, hcurrent⟩ | ⟨hkept, marker, hmarker, hcurrent⟩
  · simp only [hwritten, writeMarker, Program.wp_atomic]
    exact ⟨hs', hinv s' _ s'.legacy hs', hcurrent⟩
  · simp only [hkept, Program.wp_pure]
    exact ⟨hs', marker, hmarker, hcurrent⟩

lemma markStoreClosedDurable_wp {inv : RestoreDisk D R → Prop} (hinv : Beside inv) (hs : inv s)
    (hmarker : CurrentMarker host s.sidecars.marker) :
    (markStoreClosedDurable).wp inv (fun s' _ => inv s' ∧ Marked host s') (fun _ _ => False) s := by
  rw [markStoreClosedDurable, Program.wp_bind, Program.wp_get, Program.wp_whenever]
  split_ifs with hopen
  · rw [Program.wp_atomic]
    exact ⟨hs, hinv s _ s.legacy hs, hmarker, rfl⟩
  · exact ⟨hs, hmarker, by simpa using hopen⟩

/-! ### The end of a restore -/

lemma RestoreRun.EmptyRoots.removed (hroots : p.EmptyRoots roots) (hs : s.roots = roots) :
    (s.removeRoot p.operationId).roots = [] := by
  rcases hroots with rfl | ⟨files, rfl⟩
  · simp [RestoreDisk.removeRoot, hs]
  · simp [RestoreDisk.removeRoot, hs]

/-- What a cut in the middle of the root's removal leaves. -/
lemma RestoreRun.EmptyRoots.torn (hroots : p.EmptyRoots roots) {s' : RestoreDisk D R}
    (hs : s.roots = roots)
    (htorn : ∃ root left, s.root p.operationId = some root ∧ Partial root left ∧
      s' = s.setRoot p.operationId left) :
    p.EmptyRoots s'.roots ∧ s' = { s with roots := s'.roots } := by
  obtain ⟨root, left, hroot, hpartial, rfl⟩ := htorn
  rcases hroots with rfl | ⟨files, rfl⟩
  · simp [RestoreDisk.root, hs] at hroot
  · have hleft : left.data = none := by
      apply hpartial.data
      simp only [RestoreDisk.root, hs, List.lookup_cons_self, Option.some.injEq] at hroot
      rw [← hroot]
    have hremoved : (s.removeRoot p.operationId).roots = [] := by
      simp [RestoreDisk.removeRoot, hs]
    refine ⟨Or.inr ⟨left.files, ?_⟩, rfl⟩
    simp only [RestoreDisk.setRoot, hremoved, ← hleft]

lemma completeRestoreTransaction_wp {ready : Option ReadyFile}
    (h : Lies p s (some ⟨data, ready, p.old.registry⟩) roots
      (some { p.old with registry := none }) (some (.json (p.transaction .markersCommitted))))
    (hdata : p.restored = some data) (hroots : p.EmptyRoots roots) (hmarked : Marked host s) :
    (completeRestoreTransaction (p.transaction .markersCommitted)).wp (Recoverable host p before)
      (fun s' _ => Restored host p s') (fun _ _ => False) s := by
  have hnoReady : (Program.whenever (s.live.bind (·.ready)).isSome <|
      Program.atomic fun disk : RestoreDisk D R =>
        { disk with live := disk.live.map fun store => { store with ready := none } } :
        Restorer D R Unit).wp (Recoverable host p before)
      (fun s' _ => Lies p s' (some ⟨data, none, p.old.registry⟩) roots
        (some { p.old with registry := none }) (some (.json (p.transaction .markersCommitted))) ∧
        Marked host s') (fun _ _ => False) s := by
    rw [Program.wp_whenever]
    split_ifs with hready
    · rw [Program.wp_atomic]
      exact ⟨.committed hdata hroots h hmarked,
        ⟨by simp [h.live], h.roots, h.quarantine, h.transaction⟩, hmarked.marker, hmarked.closed⟩
    · simp only [h.live, Option.bind_some, Option.not_isSome_iff_eq_none] at hready
      subst hready
      exact ⟨h, hmarked⟩
  rw [completeRestoreTransaction, Program.wp_bind, Program.wp_get, Program.wp_bind]
  apply Program.wp_conseq hnoReady
  rintro s₁ _ ⟨h₁, hmarked₁⟩
  have hend : ∀ s₂ : RestoreDisk D R, Lies p s₂ (some ⟨data, none, p.old.registry⟩) []
      (some { p.old with registry := none }) (some (.json (p.transaction .markersCommitted))) →
      Marked host s₂ →
      (Program.atomic fun disk : RestoreDisk D R => { disk with transaction := none } :
        Restorer D R Unit).wp (Recoverable host p before)
        (fun s' _ => Restored host p s') (fun _ _ => False) s₂ := by
    intro s₂ h₂ hmarked₂
    rw [Program.wp_atomic]
    refine ⟨.committed hdata (Or.inl rfl) h₂ hmarked₂, ?_⟩
    exact ⟨⟨data, hdata, h₂.live⟩, h₂.quarantine, h₂.roots, rfl, hmarked₂.marker, hmarked₂.closed⟩
  rw [Program.wp_bind, Program.wp_whenever]
  split_ifs with hroot
  · refine ⟨.committed hdata hroots h₁ hmarked₁, ?_, ?_⟩
    · intro s' htorn
      obtain ⟨hempty, hs'⟩ := hroots.torn h₁.roots htorn
      rw [hs'] at hempty ⊢
      exact .committed hdata hempty ⟨h₁.live, rfl, h₁.quarantine, h₁.transaction⟩
        ⟨hmarked₁.marker, hmarked₁.closed⟩
    · exact hend (s₁.removeRoot p.operationId)
        ⟨h₁.live, hroots.removed h₁.roots, h₁.quarantine, h₁.transaction⟩
        ⟨hmarked₁.marker, hmarked₁.closed⟩
  · have hnone : roots = [] := by
      rcases hroots with hnil | ⟨files, hfiles⟩
      · exact hnil
      · have hsome : (s.root p.operationId).isSome := by
          simp [RestoreDisk.root, h.roots, hfiles]
        exact absurd hsome hroot
    exact hend s₁ (hnone ▸ h₁) hmarked₁

/-! ### The swap -/

lemma finishRestored_wp {ready : Option ReadyFile}
    (h : Lies p s (some ⟨data, ready, p.old.registry⟩) roots
      (some { p.old with registry := none }) (some (.json (p.transaction .markersCommitted))))
    (hdata : p.restored = some data) (hroots : p.EmptyRoots roots) (hmarked : Marked host s) :
    (finishRestored (p.transaction .markersCommitted)).wp (Recoverable host p before)
      (fun s' _ => Restored host p s') (fun _ _ => False) s := by
  have hquarantine : s.quarantine (p.transaction .markersCommitted) =
      some { p.old with registry := none } := h.quarantine
  rw [finishRestored, Program.wp_bind, Program.wp_get,
    if_pos ⟨rfl, by simp [h.live], by simp [hquarantine]⟩]
  exact completeRestoreTransaction_wp h hdata hroots hmarked

/-- What is left of a restore once its markers are committed. -/
def Committed (host : Host D) (p : RestoreRun D R) (s : RestoreDisk D R)
    (transaction : RestoreTransaction) : Prop :=
  transaction = p.transaction .markersCommitted ∧
    ∃ data roots ready, p.restored = some data ∧ p.EmptyRoots roots ∧
      Lies p s (some ⟨data, ready, p.old.registry⟩) roots (some { p.old with registry := none })
        (some (.json (p.transaction .markersCommitted))) ∧ Marked host s

lemma finalizeRestoreMarkers_wp {phase : RestoreTransactionPhase}
    (hphase : phase = .oldQuarantined ∨ phase = .newLive)
    (h : Lies p s (some ⟨data, some p.ready, p.old.registry⟩) roots
      (some { p.old with registry := none }) (some (.json (p.transaction phase))))
    (hdata : p.restored = some data) (hroots : p.EmptyRoots roots)
    (hvalid : MarkerValid host input) :
    (finalizeRestoreMarkers host input (p.transaction .newLive)).wp (Recoverable host p before)
      (fun s' transaction => Committed host p s' transaction) (fun _ _ => False) s := by
  have hready : s.readyIdentityMatches (p.transaction .newLive) = true := by
    have hrestore := hroots.restoreData h.roots
    simp [RestoreDisk.readyIdentityMatches, hrestore, h.live, readyMatches, RestoreRun.ready,
      RestoreRun.transaction]
  rw [finalizeRestoreMarkers, Program.wp_bind, Program.wp_get, Program.wp_bind, Program.wp_require,
    if_pos hready, Program.wp_bind]
  have hcrash : ∀ s' : RestoreDisk D R, Lies p s' (some ⟨data, some p.ready, p.old.registry⟩) roots
      (some { p.old with registry := none }) (some (.json (p.transaction phase))) →
      Recoverable host p before s' := fun _ h' => .moved hdata hroots hphase h'
  apply Program.wp_mono (writeStoreMarkerDurable_wp beside_lies hvalid h) hcrash
  swap
  · exact fun _ _ hfalse => hfalse
  rintro s₁ _ ⟨h₁, hcurrent⟩
  rw [Program.wp_bind]
  apply Program.wp_mono (markStoreClosedDurable_wp beside_lies h₁ hcurrent) hcrash
  swap
  · exact fun _ _ hfalse => hfalse
  rintro s₂ _ ⟨h₂, hmarked⟩
  rw [wp_writeRestoreTransaction]
  refine ⟨hcrash s₂ h₂, rfl, data, roots, some p.ready, hdata, hroots, ?_, hmarked.marker, hmarked.closed⟩
  exact ⟨h₂.live, h₂.roots, h₂.quarantine, rfl⟩

/-- The restored store is in place, with the registry still to be moved or moved already. -/
def Published (p : RestoreRun D R) (s : RestoreDisk D R) (phase : RestoreTransactionPhase) : Prop :=
  ∃ data roots, p.restored = some data ∧ p.EmptyRoots roots ∧
    (Lies p s (some ⟨data, some p.ready, none⟩) roots (some p.old)
        (some (.json (p.transaction phase))) ∨
      Lies p s (some ⟨data, some p.ready, p.old.registry⟩) roots
        (some { p.old with registry := none }) (some (.json (p.transaction phase))))

lemma finalizeRestored_wp (hregistry : p.old.registry.isSome) {phase : RestoreTransactionPhase}
    (hphase : phase = .oldQuarantined ∨ phase = .newLive) (h : Published p s phase)
    (hvalid : MarkerValid host input) :
    (finalizeRestored host input (p.transaction phase)).wp (Recoverable host p before)
      (fun s' transaction => Committed host p s' transaction) (fun _ _ => False) s := by
  obtain ⟨data, roots, hdata, hroots, hlies⟩ := h
  obtain ⟨registry, hsome⟩ := Option.isSome_iff_exists.mp hregistry
  have hmoved : (p.transaction phase).registryMoved = true := rfl
  rw [finalizeRestored, Program.wp_bind, Program.wp_get]
  rcases hlies with h | h
  · have hquarantine : s.quarantine (p.transaction phase) = some p.old := h.quarantine
    have hrestore : s.restoreData (p.transaction phase).operationId = none :=
      hroots.restoreData h.roots
    rw [if_pos ⟨hphase, by simp [h.live], by simp [hrestore], by simp [hquarantine]⟩,
      Program.wp_bind, Program.wp_whenever, if_pos hmoved, moveRegistryIntoRestoredLive,
      Program.wp_bind, Program.wp_get]
    simp only [hquarantine, h.live, hsome, Option.bind_some, Option.isSome_none, Option.isNone_some,
      Option.isSome_some, Bool.and_false, Bool.false_eq_true, if_false,
      Program.wp_bind, Program.wp_require, Bool.not_false, if_true, Program.wp_atomic]
    have hphase' : phase = .restoreReady ∨ phase = .oldQuarantined ∨ phase = .newLive :=
      Or.inr hphase
    refine ⟨.published hdata hroots hphase' h, ?_⟩
    apply finalizeRestoreMarkers_wp hphase _ hdata hroots hvalid
    refine ⟨by simp [hsome], h.roots, ?_, h.transaction⟩
    simp [RestoreRun.transaction]
  · have hquarantine : s.quarantine (p.transaction phase) =
        some { p.old with registry := none } := h.quarantine
    have hrestore : s.restoreData (p.transaction phase).operationId = none :=
      hroots.restoreData h.roots
    rw [if_pos ⟨hphase, by simp [h.live], by simp [hrestore], by simp [hquarantine]⟩,
      Program.wp_bind, Program.wp_whenever, if_pos hmoved, moveRegistryIntoRestoredLive,
      Program.wp_bind, Program.wp_get]
    simp only [hquarantine, h.live, hsome, Option.bind_some, Option.isSome_some, Option.isNone_none,
      Bool.and_true, if_true, Program.wp_pure]
    exact finalizeRestoreMarkers_wp hphase h hdata hroots hvalid

/-- Once the restored store is in place, the rest of the reconciliation goes through. -/
lemma publishedEnd_wp (hregistry : p.old.registry.isSome) {phase : RestoreTransactionPhase}
    (hphase : phase = .oldQuarantined ∨ phase = .newLive) (h : Published p s phase)
    (hvalid : MarkerValid host input) :
    (do
      let transaction ← finalizeRestored host input (p.transaction phase)
      finishRestored transaction).wp (Recoverable host p before)
      (fun s' _ => Restored host p s') (fun _ _ => False) s := by
  rw [Program.wp_bind]
  apply Program.wp_conseq (finalizeRestored_wp hregistry hphase h hvalid)
  rintro s' transaction ⟨rfl, data, roots, ready, hdata, hroots, hlies, hmarked⟩
  exact finishRestored_wp hlies hdata hroots hmarked

lemma publishRestored_wp {files : List String} {phase : RestoreTransactionPhase}
    (hdata : p.restored = some data) (hphase : phase = .restoreReady ∨ phase = .oldQuarantined)
    (h : Lies p s none (p.readyRoots data files) (some p.old) (some (.json (p.transaction phase)))) :
    (publishRestored (p.transaction phase)).wp (Recoverable host p before)
      (fun s' transaction => transaction = p.transaction .newLive ∧ Published p s' .newLive)
      (fun _ _ => False) s := by
  have hrestore : s.restoreData (p.transaction phase).operationId =
      some ⟨data, some p.ready, none⟩ := restoreData_ready h.roots
  have hquarantine : s.quarantine (p.transaction phase) = some p.old := h.quarantine
  rw [publishRestored, Program.wp_bind, Program.wp_get,
    if_pos ⟨hphase, by simp [h.live], by simp [hrestore], by simp [hquarantine]⟩, Program.wp_bind,
    Program.wp_atomic]
  refine ⟨.quarantined hdata hphase h, ?_⟩
  rw [wp_writeRestoreTransaction]
  have hroots : p.EmptyRoots [(p.operationId, ⟨none, files⟩)] := Or.inr ⟨files, rfl⟩
  have hmapped : (s.roots.map fun entry =>
      if entry.1 = (p.transaction phase).operationId then (entry.1, { entry.2 with data := none })
      else entry) = [(p.operationId, ⟨none, files⟩)] := by
    simp [h.roots, RestoreRun.readyRoots, RestoreRun.transaction]
  constructor
  · have hphase' : phase = .restoreReady ∨ phase = .oldQuarantined ∨ phase = .newLive :=
      hphase.imp_right Or.inl
    exact .published hdata hroots hphase' ⟨hrestore, hmapped, h.quarantine, h.transaction⟩
  · exact ⟨rfl, data, _, hdata, hroots, Or.inl ⟨hrestore, hmapped, h.quarantine, rfl⟩⟩

lemma quarantineLive_wp {files : List String} (hdata : p.restored = some data)
    (h : Lies p s (some p.old) (p.readyRoots data files) none
      (some (.json (p.transaction .restoreReady)))) (hbefore : before = none) :
    (quarantineLive (p.transaction .restoreReady)).wp (Recoverable host p before)
      (fun s' transaction => transaction = p.transaction .oldQuarantined ∧
        Lies p s' none (p.readyRoots data files) (some p.old)
          (some (.json (p.transaction .oldQuarantined))))
      (fun _ _ => False) s := by
  have hrestore : s.restoreData p.operationId = some ⟨data, some p.ready, none⟩ :=
    restoreData_ready h.roots
  have hquarantine : s.quarantine (p.transaction .restoreReady) = none := h.quarantine
  have hready : s.readyIdentityMatches (p.transaction .restoreReady) = true := by
    simp [RestoreDisk.readyIdentityMatches, hrestore, readyMatches, RestoreRun.ready,
      RestoreRun.transaction]
  have hmoved : Function.update s.quarantines (p.operationId, p.quarantineId) s.live
      (p.operationId, p.quarantineId) = some p.old := by
    simp [h.live]
  rw [quarantineLive, Program.wp_bind, Program.wp_get,
    if_pos ⟨rfl, by simp [h.live], by simp [RestoreRun.transaction, hrestore], by simp [hquarantine]⟩,
    Program.wp_bind, Program.wp_require, if_pos hready, Program.wp_bind, Program.wp_atomic]
  refine ⟨.ready hdata h hbefore, ?_⟩
  rw [wp_writeRestoreTransaction]
  constructor
  · exact .quarantined hdata (Or.inl rfl) ⟨rfl, h.roots, hmoved, h.transaction⟩
  · exact ⟨rfl, rfl, h.roots, hmoved, rfl⟩

lemma reconcileIntent_wp (hroots : roots = [] ∨ ∃ root, roots = [(p.operationId, root)])
    (h : Lies p s (some p.old) roots none (some (.json p.intent))) (hbefore : before = none) :
    (reconcileIntent p.intent).wp (Recoverable host p before)
      (fun s' _ => OldInPlace p before s') (fun _ _ => False) s := by
  have hquarantine : s.quarantine p.intent = none := h.quarantine
  have hend : ∀ s' : RestoreDisk D R, Lies p s' (some p.old) [] none (some (.json p.intent)) →
      (Program.atomic fun disk : RestoreDisk D R =>
        { disk with
          transaction := none
          retiredTransactions := disk.retiredTransactions ++ disk.transaction.toList } :
        Restorer D R Unit).wp (Recoverable host p before) (fun s' _ => OldInPlace p before s')
        (fun _ _ => False) s' := by
    intro s' h'
    rw [Program.wp_atomic]
    exact ⟨.intent (Or.inl rfl) h' hbefore, h'.live, h'.quarantine.trans hbefore.symm, h'.roots, rfl⟩
  rw [reconcileIntent, Program.wp_bind, Program.wp_get, Program.wp_bind, Program.wp_require,
    if_pos (by simp [h.live, hquarantine]), Program.wp_bind, Program.wp_whenever]
  split_ifs with hroot
  · rw [Program.wp_atomic]
    refine ⟨.intent hroots h hbefore, hend _ ⟨h.live, ?_, h.quarantine, h.transaction⟩⟩
    rcases hroots with rfl | ⟨root, rfl⟩
    · simp [RestoreDisk.removeRoot, h.roots]
    · simp [RestoreDisk.removeRoot, h.roots, RestoreRun.intent]
  · have hnone : roots = [] := by
      rcases hroots with hnil | ⟨root, hroot'⟩
      · exact hnil
      · have hsome : (s.root p.intent.operationId).isSome := by
          simp [RestoreDisk.root, h.roots, hroot', RestoreRun.intent]
        exact absurd hsome hroot
    exact hend s (hnone ▸ h)

/-! ### Reconciliation -/

/-- The record says that the old store is still to be moved, and the restored one is in its place:
the swap was cut twice, each time between a rename and its record. -/
def Wedged (s : RestoreDisk D R) : Prop :=
  ∃ transaction, s.transaction = some (.json transaction) ∧ transaction.phase = .restoreReady ∧
    s.live.isSome ∧ (s.restoreData transaction.operationId).isNone ∧ (s.quarantine transaction).isSome

/-- How a reconciliation ends: a restore that was not ready leaves the old store in place, and one
that was is finished. -/
structure Reconciled (host : Host D) (p : RestoreRun D R) (before : Option (StoreDir D R))
    (s s' : RestoreDisk D R) : Prop where
  ended : s.transaction = none → s' = s
  abandoned : ∀ transaction, s.transaction = some (.json transaction) →
    transaction.phase = .intent → OldInPlace p before s'
  finished : ∀ transaction, s.transaction = some (.json transaction) →
    transaction.phase ≠ .intent → Restored host p s'
  outcome : OldInPlace p before s' ∨ Restored host p s'

lemma reconciled_restored {phase : RestoreTransactionPhase} {s' : RestoreDisk D R}
    (hs : s.transaction = some (.json (p.transaction phase))) (hphase : phase ≠ .intent)
    (h : Restored host p s') : Reconciled host p before s s' where
  ended hnone := by simp [hs] at hnone
  abandoned transaction hfound hintent := by
    cases hs.symm.trans hfound
    exact (hphase hintent).elim
  finished _ _ _ := h
  outcome := Or.inr h

lemma wp_reconcile_of_none {crash : RestoreDisk D R → Prop} {Q : RestoreDisk D R → Unit → Prop}
    {E : RestoreDisk D R → CheckpointError → Prop} (hroots : s.roots = [])
    (htransaction : s.transaction = none) (hQ : Q s ()) :
    (reconcileRestoreTransaction host input).wp crash Q E s := by
  rw [reconcileRestoreTransaction, Program.wp_bind, readRestoreTransaction, Program.wp_bind,
    Program.wp_get]
  simp only [htransaction, Program.wp_pure, Program.wp_bind, Program.wp_get, Program.wp_require,
    hroots, List.isEmpty_nil, if_true]
  exact hQ

lemma wp_reconcile_of_phase {crash : RestoreDisk D R → Prop} {Q : RestoreDisk D R → Unit → Prop}
    {E : RestoreDisk D R → CheckpointError → Prop} {phase : RestoreTransactionPhase}
    (hs : s.transaction = some (.json (p.transaction phase))) (hphase : phase ≠ .intent)
    (h : (do
      let transaction ← quarantineLive (p.transaction phase)
      let transaction ← publishRestored transaction
      let transaction ← finalizeRestored host input transaction
      finishRestored transaction).wp crash Q E s) :
    (reconcileRestoreTransaction host input).wp crash Q E s := by
  have hphase' : (p.transaction phase).phase ≠ .intent := hphase
  rw [reconcileRestoreTransaction, Program.wp_bind, readRestoreTransaction, Program.wp_bind,
    Program.wp_get]
  simp only [hs, Program.wp_pure, hphase', if_false]
  exact h

/-- The two swaps do nothing once the restored store has left its root. -/
lemma wp_swaps_of_live {crash : RestoreDisk D R → Prop} {Q : RestoreDisk D R → Unit → Prop}
    {E : RestoreDisk D R → CheckpointError → Prop} {transaction : RestoreTransaction}
    {next : RestoreTransaction → Restorer D R Unit} (hrestore : s.restoreData transaction.operationId = none)
    (h : (next transaction).wp crash Q E s) :
    (do
      let transaction ← quarantineLive transaction
      let transaction ← publishRestored transaction
      next transaction).wp crash Q E s := by
  have hquarantine : ¬ (transaction.phase = .restoreReady ∧ s.live.isSome ∧
      (s.restoreData transaction.operationId).isSome ∧ (s.quarantine transaction).isNone) := by
    simp [hrestore]
  have hpublish : ¬ ((transaction.phase = .restoreReady ∨ transaction.phase = .oldQuarantined) ∧
      s.live.isNone ∧ (s.restoreData transaction.operationId).isSome ∧
      (s.quarantine transaction).isSome) := by
    simp [hrestore]
  rw [Program.wp_bind, quarantineLive, Program.wp_bind, Program.wp_get, if_neg hquarantine,
    Program.wp_pure, Program.wp_bind, publishRestored, Program.wp_bind, Program.wp_get,
    if_neg hpublish, Program.wp_pure]
  exact h

/-- A restored store in place under an old record is refused, and nothing is changed. -/
lemma wedged_wp (hs : Wedged s) :
    (reconcileRestoreTransaction host input).wp (fun s' => s' = s) (fun _ _ => False)
      (fun s' _ => s' = s) s := by
  obtain ⟨transaction, hs, hphase, hlive, hrestore, hquarantine⟩ := hs
  have hnone : s.restoreData transaction.operationId = none := by simpa using hrestore
  rw [reconcileRestoreTransaction, Program.wp_bind, readRestoreTransaction, Program.wp_bind,
    Program.wp_get]
  simp only [hs, Program.wp_pure, hphase, reduceCtorEq, if_false]
  apply wp_swaps_of_live hnone
  rw [Program.wp_bind, finalizeRestored, Program.wp_bind, Program.wp_get,
    if_neg (by simp [hphase]), Program.wp_pure, finishRestored, Program.wp_bind, Program.wp_get,
    if_neg (by simp [hphase])]
  exact rfl

lemma reconcile_wp (hregistry : p.old.registry.isSome) (hs : Recoverable host p before s)
    (hwedged : ¬ Wedged s) (hvalid : MarkerValid host input) :
    (reconcileRestoreTransaction host input).wp (Recoverable host p before)
      (fun s' _ => Reconciled host p before s s') (fun _ _ => False) s := by
  cases hs with
  | untouched h =>
    apply wp_reconcile_of_none h.roots h.transaction
    exact ⟨fun _ => rfl, by simp [h.transaction], by simp [h.transaction], Or.inl h⟩
  | done h =>
    apply wp_reconcile_of_none h.roots h.transaction
    exact ⟨fun _ => rfl, by simp [h.transaction], by simp [h.transaction], Or.inr h⟩
  | intent hroots h hbefore =>
    rw [reconcileRestoreTransaction, Program.wp_bind, readRestoreTransaction, Program.wp_bind,
      Program.wp_get]
    have hphase : p.intent.phase = .intent := rfl
    simp only [h.transaction, Program.wp_pure, hphase, if_true]
    apply Program.wp_conseq (reconcileIntent_wp hroots h hbefore)
    intro s' _ h'
    refine ⟨by simp [h.transaction], fun _ _ _ => h', ?_, Or.inl h'⟩
    intro transaction hfound hphase
    cases h.transaction.symm.trans hfound
    exact (hphase rfl).elim
  | ready hdata h hbefore =>
    apply wp_reconcile_of_phase h.transaction (by decide)
    rw [Program.wp_bind]
    apply Program.wp_conseq (quarantineLive_wp hdata h hbefore)
    rintro s₁ _ ⟨rfl, h₁⟩
    rw [Program.wp_bind]
    apply Program.wp_conseq (publishRestored_wp hdata (Or.inr rfl) h₁)
    rintro s₂ _ ⟨rfl, h₂⟩
    apply Program.wp_conseq (publishedEnd_wp hregistry (Or.inr rfl) h₂ hvalid)
    exact fun s' _ h' => reconciled_restored h.transaction (by decide) h'
  | @quarantined _ _ phase hdata hphase h =>
    have hskip : ¬ ((p.transaction phase).phase = .restoreReady ∧ s.live.isSome ∧
        (s.restoreData (p.transaction phase).operationId).isSome ∧
        (s.quarantine (p.transaction phase)).isNone) := by
      simp [h.live]
    have hintent : phase ≠ .intent := by
      rcases hphase with rfl | rfl
      · decide
      · decide
    apply wp_reconcile_of_phase h.transaction hintent
    rw [Program.wp_bind, quarantineLive, Program.wp_bind, Program.wp_get, if_neg hskip,
      Program.wp_pure, Program.wp_bind]
    apply Program.wp_conseq (publishRestored_wp hdata hphase h)
    rintro s₁ _ ⟨rfl, h₁⟩
    apply Program.wp_conseq (publishedEnd_wp hregistry (Or.inr rfl) h₁ hvalid)
    exact fun s' _ h' => reconciled_restored h.transaction hintent h'
  | @published _ roots phase hdata hroots hphase h =>
    rcases hphase with rfl | hphase
    · have hrestore := hroots.restoreData h.roots
      have hquarantine : s.quarantine (p.transaction .restoreReady) = some p.old := h.quarantine
      exact (hwedged ⟨_, h.transaction, rfl, by simp [h.live],
        by simp [RestoreRun.transaction, hrestore], by simp [hquarantine]⟩).elim
    · have hintent : phase ≠ .intent := by
        rcases hphase with rfl | rfl
        · decide
        · decide
      apply wp_reconcile_of_phase h.transaction hintent
      apply wp_swaps_of_live (hroots.restoreData h.roots)
      apply Program.wp_conseq
        (publishedEnd_wp hregistry hphase ⟨_, roots, hdata, hroots, Or.inl h⟩ hvalid)
      exact fun s' _ h' => reconciled_restored h.transaction hintent h'
  | @moved _ roots phase hdata hroots hphase h =>
    have hintent : phase ≠ .intent := by
      rcases hphase with rfl | rfl
      · decide
      · decide
    apply wp_reconcile_of_phase h.transaction hintent
    apply wp_swaps_of_live (hroots.restoreData h.roots)
    apply Program.wp_conseq
      (publishedEnd_wp hregistry hphase ⟨_, roots, hdata, hroots, Or.inr h⟩ hvalid)
    exact fun s' _ h' => reconciled_restored h.transaction hintent h'
  | committed hdata hroots h hmarked =>
    apply wp_reconcile_of_phase h.transaction (by decide)
    apply wp_swaps_of_live (hroots.restoreData h.roots)
    rw [Program.wp_bind, finalizeRestored, Program.wp_bind, Program.wp_get,
      if_neg (by simp [RestoreRun.transaction]), Program.wp_pure]
    apply Program.wp_conseq (finishRestored_wp h hdata hroots hmarked)
    exact fun s' _ h' => reconciled_restored h.transaction (by decide) h'

/-- Wherever a reconciliation is cut, the next one can go on. -/
lemma Recoverable.reconcile (hregistry : p.old.registry.isSome) (hs : Recoverable host p before s)
    (hvalid : MarkerValid host input) :
    (reconcileRestoreTransaction host input).wp (Recoverable host p before)
      (fun s' _ => Recoverable host p before s') (fun s' _ => Recoverable host p before s') s := by
  by_cases hwedged : Wedged s
  · apply Program.wp_mono (wedged_wp hwedged)
    · rintro s' rfl
      exact hs
    · exact fun _ _ hfalse => hfalse.elim
    · rintro s' _ rfl
      exact hs
  · apply Program.wp_mono (reconcile_wp hregistry hs hwedged hvalid)
    · exact fun _ h => h
    · intro s' _ h
      rcases h.outcome with hold | hnew
      · exact .untouched hold
      · exact .done hnew
    · exact fun _ _ hfalse => hfalse.elim

end Recovery

/-! ### A restore from its start -/

section Restore
variable {host : Host D} {input : RestoreInput D R} {old : StoreDir D R} {s : RestoreDisk D R}
  {before : Option (StoreDir D R)}

lemma throwFailure_wp {crash : RestoreDisk D R → Prop} {Q : RestoreDisk D R → Unit → Prop}
    {E : RestoreDisk D R → CheckpointError → Prop} {failure : Option CheckpointError}
    (hQ : Q s ()) (hE : ∀ e, E s e) : (throwFailure failure).wp crash Q E s := by
  cases failure with
  | none => exact hQ
  | some e => exact hE e

lemma writeRestoreReady_wp {p : RestoreRun D R} {root : RestoreRoot D R} {store : StoreDir D R}
    {crash : RestoreDisk D R → Prop} {E : RestoreDisk D R → CheckpointError → Prop}
    {file : Option TransactionFile}
    (h : Lies p s (some p.old) [(p.operationId, root)] none file) (hstore : root.data = some store)
    (hregistry : store.registry = none) (hcrash : crash s) :
    (writeRestoreReady p.operationId ⟨p.operationId, p.checkpointId⟩).wp crash
      (fun s' _ => Lies p s' (some p.old) (p.readyRoots store.data root.files) none file) E s := by
  have hdata : s.restoreData p.operationId = some store := by
    simp [RestoreDisk.restoreData, RestoreDisk.root, h.roots, hstore]
  rw [writeRestoreReady, Program.wp_bind, Program.wp_get, Program.wp_bind, Program.wp_require,
    if_pos (by simp [hdata]), Program.wp_atomic]
  refine ⟨hcrash, h.live, ?_, h.quarantine, h.transaction⟩
  simp [h.roots, hstore, hregistry, RestoreRun.readyRoots, RestoreRun.ready]

/-- A restore from its intent on. -/
lemma restoreFromIntent_wp {p : RestoreRun D R} (hregistry : p.old.registry.isSome)
    (hs : OldInPlace p before s) (hbefore : before = none)
    (hrestored : p.restored = input.restored.data.map (·.data))
    (hvalid : MarkerValid host input.after) :
    (do
      discard (writeRestoreTransaction p.intent)
      Program.atomic fun disk => disk.setRoot p.operationId ⟨none, []⟩
      restoreResolvedInto p.operationId input.restored
      throwFailure input.failure
      Program.require input.countsMatch
        (.error "restored checkpoint counts do not match its signed manifest")
      let disk ← Program.get
      Program.require ((disk.restoreData p.operationId).bind (·.registry)).isNone
        (.state "restored store unexpectedly contains a checkpoint registry")
      writeRestoreReady p.operationId ⟨p.operationId, p.checkpointId⟩
      throwFailure input.syncFailure
      discard (writeRestoreTransaction (p.transaction .restoreReady))
      reconcileRestoreTransaction host input.after).wp (Recoverable host p before)
      (fun s' _ => Recoverable host p before s') (fun s' _ => Recoverable host p before s') s := by
  have hintent : ∀ (s' : RestoreDisk D R) (root : RestoreRoot D R),
      Lies p s' (some p.old) [(p.operationId, root)] none (some (.json p.intent)) →
      Recoverable host p before s' := fun s' root h => .intent (Or.inr ⟨root, rfl⟩) h hbefore
  have hset : ∀ (s' : RestoreDisk D R) (roots : List (String × RestoreRoot D R))
      (root : RestoreRoot D R),
      Lies p s' (some p.old) roots none (some (.json p.intent)) →
      (roots = [] ∨ ∃ old, roots = [(p.operationId, old)]) →
      Lies p (s'.setRoot p.operationId root) (some p.old) [(p.operationId, root)] none
        (some (.json p.intent)) := by
    intro s' roots root h hroots
    have hremoved : (s'.removeRoot p.operationId).roots = [] := by
      rcases hroots with rfl | ⟨old, rfl⟩
      · simp [RestoreDisk.removeRoot, h.roots]
      · simp [RestoreDisk.removeRoot, h.roots]
    exact ⟨h.live, by simp [RestoreDisk.setRoot, hremoved], h.quarantine, h.transaction⟩
  have hquarantine := hs.quarantine.trans hbefore
  rw [Program.wp_bind, Program.wp_discard, wp_writeRestoreTransaction]
  refine ⟨.untouched hs, ?_⟩
  have hrecorded : Lies p { s with transaction := some (.json p.intent) } (some p.old) [] none
      (some (.json p.intent)) := ⟨hs.live, hs.roots, hquarantine, rfl⟩
  rw [Program.wp_bind, Program.wp_atomic]
  refine ⟨.intent (Or.inl rfl) hrecorded hbefore, ?_⟩
  have hmade := hset _ [] ⟨none, []⟩ hrecorded (Or.inl rfl)
  rw [Program.wp_bind, restoreResolvedInto]
  refine ⟨hintent _ _ hmade, ?_, ?_⟩
  · rintro s' ⟨root, rfl⟩
    exact hintent _ root (hset _ _ root hmade (Or.inr ⟨_, rfl⟩))
  have hfilled := hset _ _ input.restored hmade (Or.inr ⟨_, rfl⟩)
  rw [Program.wp_done, Program.wp_bind]
  apply throwFailure_wp
  swap
  · exact fun _ => hintent _ _ hfilled
  rw [Program.wp_bind]
  refine Program.wp_require_of (fun _ => ?_) (hintent _ _ hfilled)
  rw [Program.wp_bind, Program.wp_get, Program.wp_bind]
  refine Program.wp_require_of (fun hnoRegistry => ?_) (hintent _ _ hfilled)
  rw [Program.wp_bind]
  cases hdata : input.restored.data with
  | none =>
    rw [writeRestoreReady, Program.wp_bind, Program.wp_get, Program.wp_bind]
    refine Program.wp_require_of (fun hsome => ?_) (hintent _ _ hfilled)
    exact absurd hsome (by
      simp [RestoreDisk.restoreData, RestoreDisk.root, RestoreDisk.setRoot, hdata])
  | some store =>
    have hstoreRegistry : store.registry = none := by
      simpa [RestoreDisk.restoreData, RestoreDisk.root, RestoreDisk.setRoot, hdata] using hnoRegistry
    apply Program.wp_conseq
      (writeRestoreReady_wp hfilled hdata hstoreRegistry (hintent _ _ hfilled))
    intro s₁ _ h₁
    have hready : ∀ s' : RestoreDisk D R, Lies p s' (some p.old)
        (p.readyRoots store.data input.restored.files) none (some (.json p.intent)) →
        Recoverable host p before s' := fun s' h => hintent s' _ h
    rw [Program.wp_bind]
    apply throwFailure_wp
    swap
    · exact fun _ => hready s₁ h₁
    rw [Program.wp_bind, Program.wp_discard, wp_writeRestoreTransaction]
    refine ⟨hready s₁ h₁, ?_⟩
    apply Recoverable.reconcile hregistry _ hvalid
    have hdata' : p.restored = some store.data := by simp [hrestored, hdata]
    exact .ready hdata' ⟨h₁.live, h₁.roots, h₁.quarantine, rfl⟩ hbefore

lemma restoreCheckpoint_safe (hregistry : old.registry.isSome)
    (hs : OldInPlace (input.toRun old) before s) (hvalid : MarkerValid host input.after) :
    (restoreCheckpoint host input).wp (Recoverable host (input.toRun old) before)
      (fun s' _ => Recoverable host (input.toRun old) before s')
      (fun s' _ => Recoverable host (input.toRun old) before s') s := by
  rw [restoreCheckpoint, Program.wp_bind]
  apply wp_reconcile_of_none hs.roots hs.transaction
  rw [Program.wp_bind]
  cases hcheckpoint : input.checkpoint with
  | error e => exact .untouched hs
  | ok checkpointId =>
    have hid : checkpointId = (input.toRun old).checkpointId := by
      simp [RestoreInput.toRun, hcheckpoint, Except.toOption]
    subst hid
    rw [Program.wp_ofExcept_ok]
    dsimp only
    rw [Program.wp_bind, Program.wp_get, Program.wp_bind]
    refine Program.wp_require_of (fun hfree => ?_) (.untouched hs)
    simp only [Bool.and_eq_true, Option.isNone_iff_eq_none] at hfree
    have hbefore : before = none := hs.quarantine.symm.trans hfree.2
    exact restoreFromIntent_wp hregistry hs hbefore rfl hvalid

end Restore

/-- A reconciliation by the same build. -/
structure Reconciliation (host : Host D) where
  input : MarkerInput
  valid : MarkerValid host input

/-- The old store and the registry are each in one place: the live one, or the quarantine. -/
inductive OneCopy (p : RestoreRun D R) (before : Option (StoreDir D R)) (s : RestoreDisk D R) : Prop
  | live (hlive : s.live = some p.old)
      (hquarantine : s.quarantines (p.operationId, p.quarantineId) = before)
  | quarantined
      (hlive : s.live = none ∨ ∃ data, p.restored = some data ∧ s.live = some ⟨data, some p.ready, none⟩)
      (hquarantine : s.quarantines (p.operationId, p.quarantineId) = some p.old)
  | moved (hlive : ∃ data ready, p.restored = some data ∧ s.live = some ⟨data, ready, p.old.registry⟩)
      (hquarantine : s.quarantines (p.operationId, p.quarantineId) =
        some { p.old with registry := none })

lemma Recoverable.oneCopy {host : Host D} {p : RestoreRun D R} {before : Option (StoreDir D R)}
    {s : RestoreDisk D R} (hs : Recoverable host p before s) : OneCopy p before s := by
  cases hs with
  | untouched h => exact .live h.live h.quarantine
  | intent hroots h hbefore => exact .live h.live (h.quarantine.trans hbefore.symm)
  | ready hdata h hbefore => exact .live h.live (h.quarantine.trans hbefore.symm)
  | quarantined hdata hphase h => exact .quarantined (Or.inl h.live) h.quarantine
  | published hdata hroots hphase h =>
    exact .quarantined (Or.inr ⟨_, hdata, h.live⟩) h.quarantine
  | moved hdata hroots hphase h => exact .moved ⟨_, _, hdata, h.live⟩ h.quarantine
  | committed hdata hroots h hmarked => exact .moved ⟨_, _, hdata, h.live⟩ h.quarantine
  | done h =>
    obtain ⟨data, hdata, hlive⟩ := h.live
    exact .moved ⟨data, none, hdata, hlive⟩ h.quarantine

/-- A restore cut anywhere, and any number of cut reconciliations after it, leave one copy of the old
store and of the registry; and the next reconciliation brings the restore to its end exactly when the
restored store is not in place under a record that it is still to be swapped. -/
theorem restore_recovers_iff {host : Host D} {input : RestoreInput D R} {old : StoreDir D R}
    {s₀ s : RestoreDisk D R} (hregistry : old.registry.isSome) (hlive : s₀.live = some old)
    (hroots : s₀.roots = []) (htransaction : s₀.transaction = none)
    (hvalid : MarkerValid host input.after)
    (h : Program.Interrupted (restoreCheckpoint host input)
      (fun i : Reconciliation host => reconcileRestoreTransaction host i.input) s₀ s) :
    let p := input.toRun old
    let before := s₀.quarantines (input.operationId, input.quarantineId)
    OneCopy p before s ∧ ∀ i : Reconciliation host,
      ((∃ s', (reconcileRestoreTransaction host i.input).run s = (s', .ok ()) ∧
        Reconciled host p before s s') ↔ ¬ Wedged s) := by
  have hs : Recoverable host (input.toRun old)
      (s₀.quarantines (input.operationId, input.quarantineId)) s := by
    apply h.invariant
    · intro s' hcut
      have hstart : OldInPlace (input.toRun old)
          (s₀.quarantines (input.operationId, input.quarantineId)) s₀ :=
        ⟨hlive, rfl, hroots, htransaction⟩
      exact Program.crash_of_wp (restoreCheckpoint_safe hregistry hstart hvalid)
        (fun _ _ h => h) (fun _ _ h => h) hcut
    · intro i s' s'' hs' hcut
      exact Program.crash_of_wp (hs'.reconcile hregistry i.valid) (fun _ _ h => h)
        (fun _ _ h => h) hcut
  refine ⟨hs.oneCopy, ?_⟩
  intro i
  constructor
  · rintro ⟨s', hrun, -⟩ hwedged
    rcases Program.run_of_wp (wedged_wp hwedged : (reconcileRestoreTransaction host i.input).wp
      _ _ _ s) with ⟨_, _, _, hfalse⟩ | ⟨_, _, herror, _⟩
    · exact hfalse
    · simp [hrun] at herror
  · intro hwedged
    obtain ⟨s', u, hrun, hreconciled⟩ :=
      Program.returns_of_wp (reconcile_wp hregistry hs hwedged i.valid)
    exact ⟨s', hrun, hreconciled⟩

/-! ### A restore of one store, by hand -/

/-- A live store with a registry. -/
def sampleDisk : RestoreDisk Bool Unit where
  live := some ⟨false, none, some ()⟩
  roots := []
  quarantines := fun _ => none
  transaction := none
  retiredRoots := []
  retiredTransactions := []
  sidecars := ⟨some (.json (.v2 (sampleMarker "old" 2 .active))), true, false⟩
  legacy := ⟨none, false, false⟩

def sampleMarkerInput : MarkerInput := ⟨sampleNow, "store"⟩

def sampleRestore : RestoreInput Bool Unit where
  operationId := "o"
  quarantineId := "q"
  checkpoint := .ok "c"
  restored := ⟨some ⟨true, none, none⟩, []⟩
  failure := none
  countsMatch := true
  syncFailure := none
  before := sampleMarkerInput
  after := sampleMarkerInput

lemma sampleMarker_valid : MarkerValid (sampleHost 2) sampleMarkerInput :=
  ⟨by decide, by decide, by decide, by decide, by decide, by decide⟩

/-- The restore is cut between the old store's rename and its record. -/
def sampleCut : RestoreDisk Bool Unit :=
  (restoreCheckpoint (sampleHost 2) sampleRestore).runWrites 6 sampleDisk

theorem restore_recovers_after_rename :
    ∃ s', (reconcileRestoreTransaction (sampleHost 2) sampleMarkerInput).run sampleCut = (s', .ok ()) ∧
      Reconciled (sampleHost 2) (sampleRestore.toRun ⟨false, none, some ()⟩) none sampleCut s' := by
  have h := restore_recovers_iff rfl rfl rfl rfl sampleMarker_valid
    (.first (Program.crashesTo_runWrites (restoreCheckpoint (sampleHost 2) sampleRestore) 6 sampleDisk))
  apply (h.2 ⟨sampleMarkerInput, sampleMarker_valid⟩).mpr
  rintro ⟨transaction, -, -, hlive, -⟩
  exact absurd hlive (by decide)

/-- The next reconciliation is cut between the restored store's rename and its record: every one
after it refuses the disk. -/
theorem restore_wedged :
    ∃ s, Program.Interrupted (restoreCheckpoint (sampleHost 2) sampleRestore)
        (fun i : Reconciliation (sampleHost 2) => reconcileRestoreTransaction (sampleHost 2) i.input)
        sampleDisk s ∧
      ∀ input, ((reconcileRestoreTransaction (sampleHost 2) input).run s).2 =
        .error (.error ("restore transaction could not be reconciled safely; phase=restore-ready " ++
          "live=true restore=false quarantine=true")) := by
  refine ⟨_, .again ⟨sampleMarkerInput, sampleMarker_valid⟩
    (.first (Program.crashesTo_runWrites _ 6 sampleDisk)) (Program.crashesTo_runWrites _ 1 _), ?_⟩
  intro input
  rfl

end Maple.Checkpoint
