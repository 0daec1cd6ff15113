import Maple.MigrationPromotion

/-! Every crash point of a promotion is recovered by the next run, and by the public seam while the
journal says that the promotion has started. -/

namespace Maple.Migration
open CrashRecovery

variable {J D : Type}

section Recovery
variable {host : Host D} {registry : List (LocalStoreMigration J D)} {p : Promotion J D}
  {s : Disk J D} {point : Point} {now : String} {E : Disk J D → MigrationError → Prop}

/-- A journal that parses and binds is read as it was written. -/
lemma wp_readMigrationJournal {crash : Disk J D → Prop}
    {Q : Disk J D → Option (MigrationJournal J) → Prop} {journal : MigrationJournal J}
    (hsidecars : host.ownsLegacySidecars = true →
      s.legacy.marker = none ∧ s.legacy.openMarker = false)
    (hjournal : s.journal = some (.json journal)) (hparsed : Parsed journal)
    (hbound : validateJournalModuleState journal registry = .ok ()) :
    (readMigrationJournal host registry).wp crash Q E s ↔ Q s (some journal) := by
  have hpresent : s.stores.activeMarker.isSome ∨ s.journal.isSome := Or.inr (by simp [hjournal])
  have hparse : parseJournal journal = .ok journal := parseJournal_iff.mpr ⟨rfl, hparsed⟩
  rw [readMigrationJournal, readMigrationJournalStructure, Program.wp_bind, Program.wp_bind,
    wp_adoptLegacySidecars hsidecars hpresent, Program.wp_bind, Program.wp_get]
  simp only [hjournal, hparse, Program.wp_pure, hbound]

lemma Promotable.parsed_phase (hready : Promotable host registry p) {phase : MigrationPhase}
    (hphase : phase = .promotionStarted ∨ phase = .promoted) :
    Parsed { p.journal with phase := phase } := by
  have hinvariants := hready.parsed.invariants
  refine ⟨hready.parsed.fields, ?_, hready.parsed.persisted⟩
  refine ⟨hinvariants.current_le, hinvariants.source, hinvariants.target, hinvariants.continues,
    hinvariants.completed, hinvariants.pending, ?_, fun _ => hready.completed, ?_, ?_⟩
  · intro step hstep
    have hend : p.journal.chain[p.journal.currentStepIndex]? = none := by
      rw [hready.completed]
      simp
    exact absurd (hend.symm.trans hstep) (by simp)
  · rcases hphase with rfl | rfl
    · simp
    · simp
  · rcases hphase with rfl | rfl
    · simp
    · simp

lemma Started.wp_readMigrationJournal (hready : Promotable host registry p)
    (h : Started host p point s) {crash : Disk J D → Prop}
    {Q : Disk J D → Option (MigrationJournal J) → Prop} :
    (readMigrationJournal host registry).wp crash Q E s ↔
      Q s (some { p.journal with phase := .promotionStarted }) :=
  Migration.wp_readMigrationJournal h.lies.sidecars h.journal.journal
    (hready.parsed_phase (Or.inl rfl)) hready.bound

/-- A promotion that has started is finished by the public seam. -/
lemma Started.resume (hready : Promotable host registry p) (h : Started host p point s)
    (hdate : host.dateParses now = true) :
    (resumeLocalStoreMigrationPromotion host registry now).wp (Recoverable host p)
      (fun s _ => ∃ now, Promoted host p s now) E s := by
  rw [resumeLocalStoreMigrationPromotion, Program.wp_bind, assertNoLiveServer, hready.offline]
  simp only [Program.wp_done]
  rw [withMigrationMaintenanceLock, Program.wp_bind, Program.wp_require, hready.reconciled,
    Bool.not_false, if_pos rfl, Program.wp_bind, h.wp_readMigrationJournal hready]
  simp only [if_true]
  exact reconcile_wp hready h hdate

lemma completedChain_wp (hready : Promotable host registry p) {crash : Disk J D → Prop}
    (hcrash : crash s)
    {Q : Disk J D → MigrationJournal J → Prop} 
    (hQ : Q (updateStores (fun stores => { stores with session := none }) s) p.journal) :
    (completeChain host registry p.journal).wp crash Q E s := by
  obtain ⟨modules, hmodules⟩ := journalModules_of_valid hready.bound
  rw [completeChain, Program.wp_bind, hmodules, Program.wp_ofExcept_ok, Program.wp_bind,
    executeMigrationChain, Program.wp_bind, Program.wp_atomic]
  refine ⟨hcrash, ?_⟩
  rw [hready.completed, Nat.sub_self, executeSteps, Program.wp_bind]
  simp only [Program.orElse, Program.wp_done]
  rw [Program.wp_bind, closeSession, Program.wp_bind, Program.wp_get]
  simp only [updateStores, Program.wp_done, Program.wp_pure, Program.wp_bind, Program.wp_require,
    hready.completed, hready.oneFilesystem, beq_self_eq_true, if_true]
  exact hQ

lemma AtPoint.compatible (hready : Promotable host registry p) (h : AtPoint host p s .untouched) :
    host.checkStoreCompatible s.stores = .compatible := by
  obtain ⟨marker, hmarker, hsource⟩ := hready.source
  have hstate : host.markerState (some p.oldMarker) = .valid marker := by
    unfold Host.markerIn at hmarker
    split at hmarker
    next found hfound =>
      cases hmarker
      exact hfound
    next => cases hmarker
  simp only [Host.checkStoreCompatible, h.activeData, h.activeMarker, Promotion.layout,
    Host.storeHasData, Option.any_some, hready.populated, Bool.not_true, Bool.false_eq_true,
    if_false, hstate, hsource.chdb, ne_eq, not_true_eq_false]
  cases marker with
  | v2 marker => simp [(hsource.store marker rfl).2]
  | legacy marker => rfl

lemma AtPoint.wp_isStoreDirty {crash : Disk J D → Prop} {Q : Disk J D → Bool → Prop} 
    (h : AtPoint host p s point) (hpresent : s.stores.activeMarker.isSome ∨ s.journal.isSome) :
    (isStoreDirty host).wp crash Q E s ↔ Q s false := by
  rw [isStoreDirty, Program.wp_bind, wp_adoptLegacySidecars h.sidecars hpresent, Program.wp_bind,
    Program.wp_get, Program.wp_pure, h.activeClosed, Bool.and_false]

lemma resumeMigration_wp (hready : Promotable host registry p) {marker : StoreMarker}
    (hsource : SourceMarker host p.journal marker) {crash : Disk J D → Prop}
    {Q : Disk J D → MigrationJournal J → Prop} :
    (resumeMigration host registry (some marker) p.journal).wp crash Q E s ↔ Q s p.journal := by
  obtain ⟨modules, hmodules⟩ := journalModules_of_valid hready.bound
  rw [resumeMigration, Program.wp_bind, hready.paths, Program.wp_ofExcept_ok, Program.wp_bind,
    Program.wp_discard, hmodules, Program.wp_ofExcept_ok, Program.wp_bind]
  cases marker with
  | v2 marker => simp [assertSourceStore, (hsource.store marker rfl).1]
  | legacy marker => rfl

/-- A completed migration that was not promoted yet goes through its chain, which has no step left,
to its promotion. -/
lemma migrate_wp (hready : Promotable host registry p) (hpoint : AtPoint host p s .untouched)
    (hjournal : Canonical p s p.journal.phase) {input : RunInput}
    (hdate : host.dateParses input.now = true) :
    (migrate host registry input (some p.journal) (host.markerIn (some p.oldMarker))).wp
      (Recoverable host p) (fun s _ => ∃ now, Promoted host p s now) E s := by
  obtain ⟨marker, hmarker, hsource⟩ := hready.source
  have hpresent : s.stores.activeMarker.isSome ∨ s.journal.isSome :=
    Or.inr (by simp [hjournal.journal])
  simp only [migrate, hmarker, Option.isNone_some, Option.isSome_some, Bool.false_and,
    Bool.and_false, Bool.not_false, Program.wp_bind, Program.wp_require, if_true, sourceIdentity,
    hsource.identity, persisted, Program.wp_done, Program.wp_get, hpoint.compatible hready,
    Bool.false_eq_true, if_false, Program.wp_ofExcept_ok, assertNoLiveServer, hready.offline,
    hpoint.activeData, hpoint.activeMarker, Promotion.layout, Host.storeHasData, Option.any_some,
    hready.populated, assertRealFile]
  rw [hpoint.wp_isStoreDirty hpresent]
  simp only [Bool.not_false, if_true, withMigrationMaintenanceLock, hready.reconciled,
    Program.wp_bind, Program.wp_require, migrateLocked, assertNoLiveServer, hready.offline,
    Program.wp_done]
  rw [hpoint.wp_isStoreDirty hpresent]
  simp only [Bool.not_false, if_true]
  have hfound : s.journal = some (.json p.journal) := hjournal.journal
  rw [wp_readMigrationJournal hpoint.sidecars hfound hready.parsed hready.bound]
  simp only [Program.wp_bind]
  rw [resumeMigration_wp hready hsource, Program.wp_orElse]
  apply completedChain_wp hready (.untouched hpoint hjournal)
  have hlies : AtPoint host p (updateStores (fun stores => { stores with session := none }) s)
      .untouched :=
    ⟨hpoint.layout, hpoint.activeClosed, hpoint.targetClosed, hpoint.sourceClosed, hpoint.sidecars⟩
  exact promote_wp hready (.untouched hlies ⟨hjournal.journal, hjournal.archive⟩) hlies (by simp)
    hjournal.archive hdate

/-- Whatever a crash left, a run brings the promotion to its end. -/
lemma Recoverable.run (hready : Promotable host registry p) (h : Recoverable host p s)
    (hjournal : s.journal.isSome) {input : RunInput} (hdate : host.dateParses input.now = true) :
    (runLocalStoreMigration host registry input).wp (Recoverable host p)
      (fun s _ => ∃ now, Promoted host p s now) E s := by
  rw [runLocalStoreMigration, Program.wp_bind]
  cases h with
  | untouched hpoint hcanonical =>
    have hfound : s.journal = some (.json p.journal) := hcanonical.journal
    rw [wp_readMigrationJournal hpoint.sidecars hfound hready.parsed hready.bound,
      Program.wp_bind, hpoint.wp_readMarker (Or.inr hjournal)]
    by_cases hstarted : p.journal.phase = .promotionStarted
    · have h : Started host p .untouched s := ⟨hpoint, by simp, by rwa [hstarted] at hcanonical⟩
      simp only [hstarted, if_true, hready.paths, Program.wp_bind, Program.wp_ofExcept_ok]
      exact h.resume hready hdate
    · simp only [hstarted, hready.unpromoted, if_false]
      exact migrate_wp hready hpoint hcanonical hdate
  | started h => 
    rw [h.wp_readMigrationJournal hready, Program.wp_bind, h.lies.wp_readMarker (Or.inr hjournal)]
    have hpaths : assertJournalPaths host.dataDir
        { p.journal with phase := .promotionStarted } = .ok () := hready.paths
    simp only [if_true, hpaths, Program.wp_bind, Program.wp_ofExcept_ok]
    exact h.resume hready hdate
  | promoted hpoint hdate' hcanonical => 
    obtain ⟨marker, hmarker, hmatches⟩ := hready.activeMarker hdate'
    have hfinal : { p.journal with phase := MigrationPhase.promoted }.finalSchema =
        p.journal.target := hready.finalSchema
    rw [
      wp_readMigrationJournal hpoint.sidecars hcanonical.journal
        (hready.parsed_phase (Or.inr rfl)) hready.bound,
      Program.wp_bind, hpoint.wp_readMarker (Or.inr hjournal)]
    simp only [Promotion.layout, hmarker, hfinal, hmatches, Program.wp_bind, Program.wp_require,
      if_true, reduceCtorEq, if_false, sameJournalIdentity_iff.mpr hready.current]
    exact Program.wp_conseq (archiveCompletedMigration_wp hpoint hdate' hcanonical) fun _ _ h => h
  | archived h => simp [h.journal] at hjournal

end Recovery

/-- How an interrupted promotion is taken up again. -/
inductive Recovery (host : Host D)
  | run (input : RunInput) (hdate : host.dateParses input.now = true)
  | resume (now : String) (hdate : host.dateParses now = true)

/-- A run takes the promotion up as long as its journal is there. -/
def Recovery.program {host : Host D} (registry : List (LocalStoreMigration J D)) :
    Recovery host → Coordinator J D Unit
  | .run input _ => do
    let disk ← Program.get
    Program.whenever disk.journal.isSome (discard (runLocalStoreMigration host registry input))
  | .resume now _ => discard (resumeLocalStoreMigrationPromotion host registry now)

/-- Both stores and the source's marker exist, each in one place. -/
structure StoresWhole (p : Promotion J D) (s : Disk J D) : Prop where
  stores : let root := s.stores.roots p.journal.migrationId
    (s.stores.activeData = some p.oldStore ∧ root.targetData = some p.newStore ∧
      root.sourceData = none) ∨
    (s.stores.activeData = none ∧ root.targetData = some p.newStore ∧
      root.sourceData = some p.oldStore) ∨
    (s.stores.activeData = some p.newStore ∧ root.targetData = none ∧
      root.sourceData = some p.oldStore)
  marker : s.stores.activeMarker = some p.oldMarker ∨
    (s.stores.roots p.journal.migrationId).sourceMarker = some p.oldMarker

/-- The staged store is active under a marker of the final identity, the source is retained and the
journal is archived. -/
structure PromotionDone (host : Host D) (p : Promotion J D) (s : Disk J D) : Prop where
  active : s.stores.activeData = some p.newStore
  marker : markerMatches (host.markerIn s.stores.activeMarker) p.journal.finalSchema
    p.journal.targetStoreId .active = true
  source : (s.stores.roots p.journal.migrationId).sourceData = some p.oldStore
  sourceMarker : (s.stores.roots p.journal.migrationId).sourceMarker = some p.oldMarker
  journal : s.journal = none
  archive : s.archives p.journal.migrationId = some (.json { p.journal with phase := .promoted })

section Claim
variable {host : Host D} {registry : List (LocalStoreMigration J D)} {p : Promotion J D}
  {s : Disk J D} {point : Point} {now : String}

lemma AtPoint.whole (h : AtPoint host p s point) : StoresWhole p s := by
  have hactive := h.activeData
  have htarget := h.targetData
  have hsource := h.sourceData
  have hmarker := h.activeMarker
  have hsourceMarker := h.sourceMarker
  cases point with
  | untouched => exact ⟨Or.inl ⟨hactive, htarget, hsource⟩, Or.inl hmarker⟩
  | sourceMoved => exact ⟨Or.inr (Or.inl ⟨hactive, htarget, hsource⟩), Or.inl hmarker⟩
  | sourceMarkerMoved => exact ⟨Or.inr (Or.inl ⟨hactive, htarget, hsource⟩), Or.inr hsourceMarker⟩
  | targetMoved => exact ⟨Or.inr (Or.inr ⟨hactive, htarget, hsource⟩), Or.inr hsourceMarker⟩
  | stagedMarkerMoved => exact ⟨Or.inr (Or.inr ⟨hactive, htarget, hsource⟩), Or.inr hsourceMarker⟩
  | activated now => exact ⟨Or.inr (Or.inr ⟨hactive, htarget, hsource⟩), Or.inr hsourceMarker⟩

lemma Recoverable.whole (h : Recoverable host p s) : StoresWhole p s := by
  cases h with
  | untouched hpoint hjournal => exact hpoint.whole
  | started h => exact h.lies.whole
  | promoted hpoint hdate hjournal => exact hpoint.whole
  | archived h => exact h.point.whole

lemma Promoted.done (hready : Promotable host registry p) (h : Promoted host p s now) :
    PromotionDone host p s := by
  obtain ⟨marker, hmarker, hmatches⟩ := hready.activeMarker h.date
  refine ⟨h.point.activeData, ?_, h.point.sourceData, h.point.sourceMarker, h.journal, h.archive⟩
  rw [h.point.activeMarker, hready.finalSchema]
  exact (congrArg (markerMatches · _ _ _) hmarker).trans hmatches

/-- The seam refuses a promotion that has not started, or that is through. -/
lemma Recoverable.resume (hready : Promotable host registry p) (h : Recoverable host p s)
    (hdate : host.dateParses now = true) :
    (resumeLocalStoreMigrationPromotion host registry now).wp (Recoverable host p)
      (fun s _ => Recoverable host p s) (fun s _ => Recoverable host p s) s := by
  have hread {journal : MigrationJournal J} {point : Point} (hpoint : AtPoint host p s point)
      (hfound : s.journal = some (.json journal)) (hparsed : Parsed journal)
      (hbound : validateJournalModuleState journal registry = .ok ())
      (hphase : journal.phase ≠ .promotionStarted) :
      (resumeLocalStoreMigrationPromotion host registry now).wp (Recoverable host p)
        (fun s _ => Recoverable host p s) (fun s _ => Recoverable host p s) s := by
    rw [resumeLocalStoreMigrationPromotion, Program.wp_bind, assertNoLiveServer, hready.offline]
    simp only [Program.wp_done]
    rw [withMigrationMaintenanceLock, Program.wp_bind, Program.wp_require, hready.reconciled,
      Bool.not_false, if_pos rfl, Program.wp_bind,
      wp_readMigrationJournal hpoint.sidecars hfound hparsed hbound]
    simp only [hphase, if_false, Program.wp_throw]
    exact h
  have hstarted {point : Point} (h : Started host p point s) :
      (resumeLocalStoreMigrationPromotion host registry now).wp (Recoverable host p)
        (fun s _ => Recoverable host p s) (fun s _ => Recoverable host p s) s :=
    Program.wp_conseq (h.resume hready hdate) fun _ _ hdone => .archived hdone.choose_spec
  cases h with
  | untouched hpoint hcanonical =>
    by_cases hphase : p.journal.phase = .promotionStarted
    · rw [hphase] at hcanonical
      exact hstarted ⟨hpoint, by simp, hcanonical⟩
    · have hfound : s.journal = some (.json p.journal) := hcanonical.journal
      exact hread hpoint hfound hready.parsed hready.bound hphase
  | started h => exact hstarted h
  | promoted hpoint hdate' hcanonical =>
    exact hread hpoint hcanonical.journal (hready.parsed_phase (Or.inr rfl)) hready.bound (by simp)
  | archived hdone =>
    rw [resumeLocalStoreMigrationPromotion, Program.wp_bind, assertNoLiveServer, hready.offline]
    simp only [Program.wp_done]
    rw [withMigrationMaintenanceLock, Program.wp_bind, Program.wp_require, hready.reconciled,
      Bool.not_false, if_pos rfl, Program.wp_bind, readMigrationJournal, Program.wp_bind,
      readMigrationJournalStructure, Program.wp_bind,
      wp_adoptLegacySidecars hdone.point.sidecars
        (Or.inl (by simp [hdone.point.activeMarker, Promotion.layout])),
      Program.wp_bind, Program.wp_get]
    simp only [hdone.journal, Program.wp_pure, Program.wp_throw]
    exact .archived hdone

end Claim

def sampleSchema (version : ℤ) : LocalSchemaIdentity :=
  ⟨version, "0123456789abcdef",
    "0123456789abcdef0123456789abcdef0123456789abcdef0123456789abcdef", "26.1"⟩

/-- A build whose current schema has the version; its stores lie in `/home/store`. -/
def sampleHost (version : ℤ) : Host Bool where
  chdbVersion := "26.1"
  mapleVersion := "dev"
  currentSchema := sampleSchema version
  legacySchema := ⟨0, "428701854f9fd30e", "", "26.1"⟩
  schemaV1 := sampleSchema 1
  dataDir := ["home", "store"]
  ownsLegacySidecars := true
  legacyServerLive := false
  livePid := none
  checkpointRecoveryPending := false
  sameFilesystem := true
  hasData _ := true
  dateParses text := text == "2026-10-01T00:00:00.000Z"

def sampleMarker (storeId : String) (version : ℤ) (activation : StoreActivation) : StoreMarkerV2 :=
  ⟨storeId, "26.1", "dev", "unknown", "dev", version, (sampleSchema version).digest,
    (sampleSchema version).fingerprint, activation, none⟩

def sampleJournal : MigrationJournal Unit where
  migrationId := "m"
  phase := .copyVerified
  chain := [⟨"local-0001-to-0002", 1, sampleSchema 1, sampleSchema 2, .completed, some (), some ()⟩]
  currentStepIndex := 1
  sourceDataDir := ["home", "store"]
  sourceStoreId := "old"
  sourceChdb := "26.1"
  sourceFingerprint := (sampleSchema 1).fingerprint
  sourceDigest := (sampleSchema 1).digest
  sourceVersion := 1
  targetDataDir := ["home", ".maple-migrations", "m", "target", "data"]
  targetStoreId := "new"
  targetChdb := "26.1"
  targetFingerprint := (sampleSchema 2).fingerprint
  targetDigest := (sampleSchema 2).digest
  targetVersion := 2
  cutoffAt := "2026-10-01T00:00:00.000Z"
  createdAt := "2026-10-01T00:00:00.000Z"
  failure := none

def samplePromotion : Promotion Unit Bool where
  journal := sampleJournal
  oldStore := false
  newStore := true
  oldMarker := .json (.v2 (sampleMarker "old" 1 .active))
  stagedMarker := .json (.v2 (sampleMarker "new" 2 .staging))
  staged := sampleMarker "new" 2 .staging

/-- The disk before the promotion, with a marker an older build may have left beside it. -/
def sampleDisk (legacy : Option MarkerFile) : Disk Unit Bool where
  stores := {
    activeData := some false
    activeMarker := some samplePromotion.oldMarker
    activeOpen := false
    roots := fun _ => ⟨some true, some samplePromotion.stagedMarker, false, none, none, false⟩
    session := none
    sessionCloses := true }
  legacy := ⟨legacy, false, none⟩
  journal := some (.json sampleJournal)
  archives := fun _ => none
  history := []

def sampleNow : String := "2026-10-01T00:00:00.000Z"

end Maple.Migration
