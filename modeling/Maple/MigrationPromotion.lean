import Maple.MigrationChain

/-! Promotion of a staged store across crashes: the points its renames pass through, and the recovery
that finishes it from any of them. -/

namespace Maple.Migration
open CrashRecovery

variable {J D : Type}

/-- What lies where while a migration is promoted. -/
structure Layout (D : Type) where
  activeData : Option D
  activeMarker : Option MarkerFile
  targetData : Option D
  stagedMarker : Option MarkerFile
  sourceData : Option D
  sourceMarker : Option MarkerFile

def Disk.layout (disk : Disk J D) (id : String) : Layout D where
  activeData := disk.stores.activeData
  activeMarker := disk.stores.activeMarker
  targetData := (disk.stores.roots id).targetData
  stagedMarker := (disk.stores.roots id).stagedMarker
  sourceData := (disk.stores.roots id).sourceData
  sourceMarker := (disk.stores.roots id).sourceMarker

/-- The promotion of one completed migration. -/
structure Promotion (J D : Type) where
  journal : MigrationJournal J
  oldStore : D
  newStore : D
  oldMarker : MarkerFile
  stagedMarker : MarkerFile
  staged : StoreMarkerV2

/-- How far the renames of a promotion have come. -/
inductive Point
  | untouched
  | sourceMoved
  | sourceMarkerMoved
  | targetMoved
  | stagedMarkerMoved
  | activated (now : String)

def Promotion.activeMarker (p : Promotion J D) (now : String) : StoreMarkerV2 :=
  activated p.journal now p.staged

def Promotion.layout (p : Promotion J D) : Point → Layout D
  | .untouched =>
    ⟨some p.oldStore, some p.oldMarker, some p.newStore, some p.stagedMarker, none, none⟩
  | .sourceMoved =>
    ⟨none, some p.oldMarker, some p.newStore, some p.stagedMarker, some p.oldStore, none⟩
  | .sourceMarkerMoved =>
    ⟨none, none, some p.newStore, some p.stagedMarker, some p.oldStore, some p.oldMarker⟩
  | .targetMoved =>
    ⟨some p.newStore, none, none, some p.stagedMarker, some p.oldStore, some p.oldMarker⟩
  | .stagedMarkerMoved =>
    ⟨some p.newStore, some p.stagedMarker, none, none, some p.oldStore, some p.oldMarker⟩
  | .activated now =>
    ⟨some p.newStore, some (.json (.v2 (p.activeMarker now))), none, none, some p.oldStore,
      some p.oldMarker⟩

/-- The marker of the store a migration started from. -/
structure SourceMarker (host : Host D) (journal : MigrationJournal J) (marker : StoreMarker) :
    Prop where
  identity : identityFromMarker host marker = some journal.source
  chdb : marker.chdb = host.chdbVersion
  store : ∀ found, marker = .v2 found →
    found.storeId = journal.sourceStoreId ∧ found.activation = .active

/-- A migration whose chain is completed, ready to be promoted by the build that finds it. -/
structure Promotable (host : Host D) (registry : List (LocalStoreMigration J D))
    (p : Promotion J D) : Prop where
  parsed : Parsed p.journal
  bound : validateJournalModuleState p.journal registry = .ok ()
  registered : validateMigrationRegistry registry = .ok ()
  paths : assertJournalPaths host.dataDir p.journal = .ok ()
  completed : p.journal.currentStepIndex = p.journal.chain.length
  unpromoted : p.journal.phase ≠ .promoted
  current : p.journal.target = host.currentSchema
  source : ∃ marker, host.markerIn (some p.oldMarker) = some marker ∧
    SourceMarker host p.journal marker
  staged : host.markerIn (some p.stagedMarker) = some (.v2 p.staged)
  stagedFinal : markerMatches (some (.v2 p.staged)) p.journal.target p.journal.targetStoreId .staging
  offline : host.livePid = none
  reconciled : host.checkpointRecoveryPending = false
  oneFilesystem : host.sameFilesystem = true
  populated : host.hasData p.oldStore = true

/-- Both stores are closed, and they and their markers lie as at `point`. -/
structure AtPoint (host : Host D) (p : Promotion J D) (s : Disk J D) (point : Point) : Prop where
  layout : s.layout p.journal.migrationId = p.layout point
  activeClosed : s.stores.activeOpen = false
  targetClosed : (s.stores.roots p.journal.migrationId).targetOpen = false
  sourceClosed : (s.stores.roots p.journal.migrationId).sourceOpen = false
  sidecars : host.ownsLegacySidecars = true → s.legacy.marker = none ∧ s.legacy.openMarker = false

/-- The journal is in its place, and its migration has no history yet. -/
structure Canonical (p : Promotion J D) (s : Disk J D) (phase : MigrationPhase) : Prop where
  journal : s.journal = some (.json { p.journal with phase := phase })
  archive : s.archives p.journal.migrationId = none

/-- The staged store is active under its final marker, the source is retained and the journal is
archived. -/
structure Promoted (host : Host D) (p : Promotion J D) (s : Disk J D) (now : String) : Prop where
  point : AtPoint host p s (.activated now)
  date : host.dateParses now = true
  journal : s.journal = none
  archive : s.archives p.journal.migrationId = some (.json { p.journal with phase := .promoted })

/-- The promotion has started and its renames have come to `point`. -/
structure Started (host : Host D) (p : Promotion J D) (point : Point) (s : Disk J D) : Prop where
  lies : AtPoint host p s point
  date : ∀ now, point = .activated now → host.dateParses now = true
  journal : Canonical p s .promotionStarted

/-- What a crash may leave of a promotion. -/
inductive Recoverable (host : Host D) (p : Promotion J D) (s : Disk J D) : Prop
  | untouched (hpoint : AtPoint host p s .untouched) (hjournal : Canonical p s p.journal.phase)
  | started {point : Point} (h : Started host p point s)
  | promoted {now : String} (hpoint : AtPoint host p s (.activated now))
      (hdate : host.dateParses now = true) (hjournal : Canonical p s .promoted)
  | archived {now : String} (h : Promoted host p s now)

section Steps
variable {host : Host D} {registry : List (LocalStoreMigration J D)} {p : Promotion J D}
  {s : Disk J D} {point : Point} {now : String} {E : Disk J D → MigrationError → Prop}

lemma AtPoint.of_eq {s' : Disk J D} (h : AtPoint host p s point) (hstores : s'.stores = s.stores)
    (hlegacy : s'.legacy = s.legacy) : AtPoint host p s' point := by
  constructor
  · have hlayout : s'.layout p.journal.migrationId = s.layout p.journal.migrationId := by
      simp [Disk.layout, hstores]
    rw [hlayout, h.layout]
  · rw [hstores, h.activeClosed]
  · rw [hstores, h.targetClosed]
  · rw [hstores, h.sourceClosed]
  · rw [hlegacy]
    exact h.sidecars

lemma AtPoint.activeData (h : AtPoint host p s point) :
    s.stores.activeData = (p.layout point).activeData := congrArg Layout.activeData h.layout

lemma AtPoint.activeMarker (h : AtPoint host p s point) :
    s.stores.activeMarker = (p.layout point).activeMarker := congrArg Layout.activeMarker h.layout

lemma AtPoint.targetData (h : AtPoint host p s point) :
    (s.root p.journal.migrationId).targetData = (p.layout point).targetData :=
  congrArg Layout.targetData h.layout

lemma AtPoint.stagedMarker (h : AtPoint host p s point) :
    (s.root p.journal.migrationId).stagedMarker = (p.layout point).stagedMarker :=
  congrArg Layout.stagedMarker h.layout

lemma AtPoint.sourceData (h : AtPoint host p s point) :
    (s.root p.journal.migrationId).sourceData = (p.layout point).sourceData :=
  congrArg Layout.sourceData h.layout

lemma AtPoint.sourceMarker (h : AtPoint host p s point) :
    (s.root p.journal.migrationId).sourceMarker = (p.layout point).sourceMarker :=
  congrArg Layout.sourceMarker h.layout

lemma wp_adoptLegacySidecars {crash : Disk J D → Prop} {Q : Disk J D → Unit → Prop}
    {E : Disk J D → MigrationError → Prop}
    (hsidecars : host.ownsLegacySidecars = true →
      s.legacy.marker = none ∧ s.legacy.openMarker = false)
    (hpresent : s.stores.activeMarker.isSome ∨ s.journal.isSome) :
    (adoptLegacySidecars host).wp crash Q E s ↔ Q s () := by
  rw [adoptLegacySidecars, Program.wp_bind, Program.wp_get, Program.wp_whenever]
  split
  next hadopts =>
    simp only [Bool.and_eq_true] at hadopts
    obtain ⟨hmarker, hopen⟩ := hsidecars hadopts.1.1.1
    have hjournal : s.journal.isNone = false := by
      rcases hpresent with hsome | hsome
      · have hnone := hadopts.1.2
        cases hactive : s.stores.activeMarker
        · simp [hactive] at hsome
        · simp [hactive] at hnone
      · simpa using hsome
    simp [Program.wp_bind, Program.wp_whenever, hmarker, hopen, hjournal]
  next => rfl

lemma AtPoint.wp_readMarker {crash : Disk J D → Prop} {Q : Disk J D → Option StoreMarker → Prop}
    {E : Disk J D → MigrationError → Prop} (h : AtPoint host p s point)
    (hpresent : s.stores.activeMarker.isSome ∨ s.journal.isSome) :
    (readMarker host).wp crash Q E s ↔ Q s (host.markerIn (p.layout point).activeMarker) := by
  rw [readMarker, Program.wp_bind, wp_adoptLegacySidecars h.sidecars hpresent, Program.wp_bind,
    Program.wp_get, Program.wp_pure, h.activeMarker]

/-- The journal that says so is archived last. -/
lemma archiveCompletedMigration_wp (hpoint : AtPoint host p s (.activated now))
    (hdate : host.dateParses now = true) (hcanonical : Canonical p s .promoted) :
    (archiveCompletedMigration { p.journal with phase := .promoted }).wp (Recoverable host p)
      (fun s _ => ∃ now, Promoted host p s now) E s := by
  rw [archiveCompletedMigration, Program.wp_bind, Program.wp_get, Program.wp_whenever]
  simp only [hcanonical.journal, Option.isSome_some, Bool.and_true, beq_self_eq_true, if_true,
    Program.wp_bind, Program.wp_require, hcanonical.archive, Option.isNone_none, Program.wp_atomic]
  refine ⟨.promoted hpoint hdate hcanonical, now, hpoint.of_eq rfl rfl, hdate, rfl, ?_⟩
  simp

lemma archiveAndReturn_wp (hpoint : AtPoint host p s (.activated now))
    (hdate : host.dateParses now = true) (hcanonical : Canonical p s .promoted) :
    (archiveAndReturn host { p.journal with phase := .promoted }).wp (Recoverable host p)
      (fun s _ => ∃ now, Promoted host p s now) E s := by
  rw [archiveAndReturn, Program.wp_bind]
  exact Program.wp_conseq (archiveCompletedMigration_wp hpoint hdate hcanonical) fun _ _ h => h

lemma Started.recoverable (h : Started host p point s) : Recoverable host p s :=
  .started h

/-- A rename changes neither the sentinels nor the journal. -/
lemma Started.moved {point' : Point} {f : Stores D → Stores D} (h : Started host p point s)
    (hlayout : (updateStores f s).layout p.journal.migrationId = p.layout point')
    (hactive : (f s.stores).activeOpen = s.stores.activeOpen)
    (htarget : ((f s.stores).roots p.journal.migrationId).targetOpen =
      (s.stores.roots p.journal.migrationId).targetOpen)
    (hsource : ((f s.stores).roots p.journal.migrationId).sourceOpen =
      (s.stores.roots p.journal.migrationId).sourceOpen)
    (hdate : ∀ now, point' = .activated now → host.dateParses now = true) :
    Started host p point' (updateStores f s) := by
  have hlies : AtPoint host p (updateStores f s) point' :=
    ⟨hlayout, hactive.trans h.lies.activeClosed, htarget.trans h.lies.targetClosed,
      hsource.trans h.lies.sourceClosed, h.lies.sidecars⟩
  exact ⟨hlies, hdate, h.journal.journal, h.journal.archive⟩

lemma Started.renameActiveToSource (h : Started host p .untouched s) :
    (renameActiveToSource p.journal.migrationId).wp (Recoverable host p)
      (fun s _ => Started host p .sourceMoved s) E s := by
  simp only [Migration.renameActiveToSource, Program.wp_bind, Program.wp_get, Program.wp_require,
    h.lies.activeData, h.lies.sourceData, Promotion.layout, Option.isSome_some,
    Option.isNone_none, if_true, Program.wp_atomic]
  have hlayout := h.lies.layout
  simp only [Disk.layout, Promotion.layout, Layout.mk.injEq] at hlayout
  refine ⟨h.recoverable, h.moved ?_ rfl (by simp) (by simp) (by simp)⟩
  simp [Disk.layout, updateStores, Promotion.layout, hlayout]

lemma Started.renameActiveMarkerToSource (h : Started host p .sourceMoved s) :
    (renameActiveMarkerToSource p.journal.migrationId).wp (Recoverable host p)
      (fun s _ => Started host p .sourceMarkerMoved s) E s := by
  simp only [Migration.renameActiveMarkerToSource, Program.wp_bind, Program.wp_get,
    Program.wp_require, h.lies.activeMarker, Promotion.layout, Option.isSome_some, if_true,
    Program.wp_atomic]
  have hlayout := h.lies.layout
  simp only [Disk.layout, Promotion.layout, Layout.mk.injEq] at hlayout
  refine ⟨h.recoverable, h.moved ?_ rfl (by simp) (by simp) (by simp)⟩
  simp [Disk.layout, updateStores, Promotion.layout, hlayout]

lemma Started.renameTargetToActive (h : Started host p .sourceMarkerMoved s) :
    (renameTargetToActive p.journal.migrationId).wp (Recoverable host p)
      (fun s _ => Started host p .targetMoved s) E s := by
  simp only [Migration.renameTargetToActive, Program.wp_bind, Program.wp_get, Program.wp_require,
    h.lies.activeData, h.lies.targetData, Promotion.layout, Option.isSome_some,
    Option.isNone_none, if_true, Program.wp_atomic]
  have hlayout := h.lies.layout
  simp only [Disk.layout, Promotion.layout, Layout.mk.injEq] at hlayout
  refine ⟨h.recoverable, h.moved ?_ rfl (by simp) (by simp) (by simp)⟩
  simp [Disk.layout, updateStores, Promotion.layout, hlayout]

lemma Started.renameStagedMarkerToActive (h : Started host p .targetMoved s) :
    (renameStagedMarkerToActive p.journal.migrationId).wp (Recoverable host p)
      (fun s _ => Started host p .stagedMarkerMoved s) E s := by
  simp only [Migration.renameStagedMarkerToActive, Program.wp_bind, Program.wp_get,
    Program.wp_require, h.lies.stagedMarker, Promotion.layout, Option.isSome_some, if_true,
    Program.wp_atomic]
  have hlayout := h.lies.layout
  simp only [Disk.layout, Promotion.layout, Layout.mk.injEq] at hlayout
  refine ⟨h.recoverable, h.moved ?_ rfl (by simp) (by simp) (by simp)⟩
  simp [Disk.layout, updateStores, Promotion.layout, hlayout]

/-- The marker is activated once the staged one is in its place. -/
lemma Started.finish (h : Started host p .stagedMarkerMoved s) (hdate : host.dateParses now = true) :
    (finish host { p.journal with phase := .promotionStarted } now p.staged).wp (Recoverable host p)
      (fun s _ => ∃ now, Promoted host p s now) E s := by
  rw [Migration.finish, Program.wp_bind, Program.wp_atomic, Program.wp_bind, wp_saveJournal]
  have hlayout := h.lies.layout
  simp only [Disk.layout, Promotion.layout, Layout.mk.injEq] at hlayout
  have hactivated : Started host p (.activated now) (updateStores (fun stores => { stores with
      activeMarker := some (.json (.v2 (activated p.journal now p.staged))) }) s) := by
    apply h.moved
    · simp [Disk.layout, updateStores, Promotion.layout, Promotion.activeMarker, hlayout]
    · rfl
    · rfl
    · rfl
    · intro now' hnow
      cases hnow
      exact hdate
  refine ⟨h.recoverable, hactivated.recoverable, ?_⟩
  apply archiveAndReturn_wp
  · exact hactivated.lies.of_eq rfl rfl
  · exact hdate
  · exact ⟨rfl, hactivated.journal.archive⟩

lemma Started.cutOver (h : Started host p .sourceMarkerMoved s)
    (hdate : host.dateParses now = true) :
    (cutOver host { p.journal with phase := .promotionStarted } now p.staged).wp (Recoverable host p)
      (fun s _ => ∃ now, Promoted host p s now) E s := by
  simp only [Migration.cutOver, Program.wp_bind, Program.wp_get, Program.wp_require,
    h.lies.activeData, Promotion.layout, Option.isNone_none, if_true]
  apply Program.wp_conseq h.renameTargetToActive
  intro s _ h
  simp only [h.lies.activeMarker, h.lies.stagedMarker, Promotion.layout, Option.isNone_none,
    Option.isSome_some, if_true]
  apply Program.wp_conseq h.renameStagedMarkerToActive
  intro s _ h
  exact h.finish hdate

end Steps

section Recovery
variable {host : Host D} {registry : List (LocalStoreMigration J D)} {p : Promotion J D}
  {s : Disk J D} {point : Point} {now : String} {E : Disk J D → MigrationError → Prop}

lemma Recoverable.of_eq {s' : Disk J D} (h : Recoverable host p s) (hstores : s'.stores = s.stores)
    (hlegacy : s'.legacy = s.legacy) (hjournal : s'.journal = s.journal)
    (harchives : s'.archives = s.archives) : Recoverable host p s' := by
  cases h with
  | untouched hpoint hcanonical =>
    exact .untouched (hpoint.of_eq hstores hlegacy)
      ⟨hjournal.trans hcanonical.journal, by rw [harchives, hcanonical.archive]⟩
  | started h =>
    exact .started ⟨h.lies.of_eq hstores hlegacy, h.date, hjournal.trans h.journal.journal,
      by rw [harchives, h.journal.archive]⟩
  | promoted hpoint hdate hcanonical =>
    exact .promoted (hpoint.of_eq hstores hlegacy) hdate
      ⟨hjournal.trans hcanonical.journal, by rw [harchives, hcanonical.archive]⟩
  | archived h =>
    exact .archived ⟨h.point.of_eq hstores hlegacy, h.date, hjournal.trans h.journal,
      by rw [harchives, h.archive]⟩

lemma Promotable.finalSchema (h : Promotable host registry p) :
    p.journal.finalSchema = p.journal.target := by
  rw [MigrationJournal.finalSchema, h.parsed.invariants.target, Option.getD_some]

lemma Promotable.validate (h : Promotable host registry p) {phase : MigrationPhase} :
    validateTargetMarker { p.journal with phase := phase } (some (.v2 p.staged)) .staging =
      .ok p.staged := by
  have hfinal : { p.journal with phase := phase }.finalSchema = p.journal.target := h.finalSchema
  rw [validateTargetMarker, hfinal, if_pos h.stagedFinal]

lemma Promotable.staging (h : Promotable host registry p) : p.staged.activation = .staging := by
  obtain ⟨found, hfound, -, -, -, -, -, hactivation⟩ := markerMatches_iff.mp h.stagedFinal
  cases hfound
  exact hactivation

lemma Started.promoteFromTargetMoved (hready : Promotable host registry p)
    (h : Started host p .targetMoved s) (hdate : host.dateParses now = true) :
    (promoteFromCutover host { p.journal with phase := .promotionStarted } now).wp
      (Recoverable host p) (fun s _ => ∃ now, Promoted host p s now) E s := by
  simp only [promoteFromCutover, assertRealDirectory, assertRealFile, Program.wp_bind,
    Program.wp_get, Program.wp_require, h.lies.activeData, h.lies.sourceData, h.lies.sourceMarker,
    Promotion.layout, Option.isSome_some, if_true]
  have hpresent : s.stores.activeMarker.isSome ∨ s.journal.isSome := Or.inr (by simp [
    h.journal.journal])
  rw [h.lies.wp_readMarker hpresent]
  simp only [Promotion.layout, Host.markerIn, Host.markerState, Program.wp_bind, Program.wp_get,
    Program.wp_require, h.lies.stagedMarker, Option.isSome_some, if_true]
  apply Program.wp_conseq h.renameStagedMarkerToActive
  intro s _ h
  have hpresent : s.stores.activeMarker.isSome ∨ s.journal.isSome := Or.inr (by simp [
    h.journal.journal])
  rw [h.lies.wp_readMarker hpresent]
  simp only [Promotion.layout]
  rw [hready.staged, hready.validate, Program.wp_ofExcept_ok]
  exact h.finish hdate

lemma Started.promoteFromStagedMarkerMoved (hready : Promotable host registry p)
    (h : Started host p .stagedMarkerMoved s) (hdate : host.dateParses now = true) :
    (promoteFromCutover host { p.journal with phase := .promotionStarted } now).wp
      (Recoverable host p) (fun s _ => ∃ now, Promoted host p s now) E s := by
  simp only [promoteFromCutover, assertRealDirectory, assertRealFile, Program.wp_bind,
    Program.wp_get, Program.wp_require, h.lies.activeData, h.lies.sourceData, h.lies.sourceMarker,
    Promotion.layout, Option.isSome_some, if_true]
  have hpresent : s.stores.activeMarker.isSome ∨ s.journal.isSome := Or.inr (by simp [
    h.journal.journal])
  rw [h.lies.wp_readMarker hpresent]
  simp only [Promotion.layout]
  rw [hready.staged]
  simp only [Program.wp_bind]
  rw [hready.staging, hready.validate, Program.wp_ofExcept_ok]
  exact h.finish hdate

lemma Started.retainSourceMarker (h : Started host p .sourceMoved s) :
    (retainSourceMarker p.journal.migrationId).wp (Recoverable host p)
      (fun s _ => Started host p .sourceMarkerMoved s) E s := by
  simp only [Migration.retainSourceMarker, Program.wp_bind, Program.wp_get, Program.wp_require,
    h.lies.activeMarker, h.lies.sourceMarker, Promotion.layout, Option.isSome_some,
    Option.isNone_none, if_true]
  exact h.renameActiveMarkerToSource

lemma Started.sourceMarkerRetained (h : Started host p .sourceMarkerMoved s) :
    (Migration.retainSourceMarker p.journal.migrationId).wp (Recoverable host p)
      (fun s _ => Started host p .sourceMarkerMoved s) E s := by
  simp only [Migration.retainSourceMarker, Program.wp_bind, Program.wp_get, Program.wp_require,
    h.lies.activeMarker, h.lies.sourceMarker, Promotion.layout, Option.isSome_some,
    Option.isSome_none, Bool.false_eq_true, if_false, if_true]
  exact h

/-- The staged branch of a promotion, from any point before the cutover. -/
lemma Started.promoteStaged (hready : Promotable host registry p) (h : Started host p point s)
    (hpoint : point = .untouched ∨ point = .sourceMoved ∨ point = .sourceMarkerMoved)
    (hdate : host.dateParses now = true) :
    (promoteStaged host { p.journal with phase := .promotionStarted } now).wp
      (Recoverable host p) (fun s _ => ∃ now, Promoted host p s now) E s := by
  rcases hpoint with rfl | rfl | rfl
  · simp only [Migration.promoteStaged, readStagedMarker, assertRealDirectory, assertRealFile,
      Program.wp_bind, Program.wp_get, Program.wp_require, Program.wp_pure, Program.wp_whenever,
      h.lies.activeData, h.lies.activeMarker, h.lies.sourceData, h.lies.targetData,
      h.lies.stagedMarker, Promotion.layout, Option.isSome_some, Option.isSome_none,
      Option.isNone_none, Bool.and_false, Bool.not_false, Bool.or_false, if_true]
    rw [hready.staged, hready.validate, Program.wp_ofExcept_ok]
    apply Program.wp_conseq h.renameActiveToSource
    intro s _ h
    apply Program.wp_conseq h.retainSourceMarker
    intro s _ h
    exact h.cutOver hdate
  · simp only [Migration.promoteStaged, readStagedMarker, assertRealDirectory, assertRealFile,
      Program.wp_bind, Program.wp_get, Program.wp_require, Program.wp_pure, Program.wp_whenever,
      h.lies.activeData, h.lies.sourceData, h.lies.targetData, h.lies.stagedMarker,
      Promotion.layout, Option.isSome_some, Option.isSome_none, Option.isNone_some,
      Bool.false_and, Bool.not_false, Bool.false_or, Bool.false_eq_true, if_true, if_false]
    rw [hready.staged, hready.validate, Program.wp_ofExcept_ok]
    apply Program.wp_conseq h.retainSourceMarker
    intro s _ h
    exact h.cutOver hdate
  · simp only [Migration.promoteStaged, readStagedMarker, assertRealDirectory, assertRealFile,
      Program.wp_bind, Program.wp_get, Program.wp_require, Program.wp_pure, Program.wp_whenever,
      h.lies.activeData, h.lies.sourceData, h.lies.targetData, h.lies.stagedMarker,
      Promotion.layout, Option.isSome_some, Option.isSome_none, Option.isNone_some,
      Bool.false_and, Bool.not_false, Bool.false_or, Bool.false_eq_true, if_true, if_false]
    rw [hready.staged, hready.validate, Program.wp_ofExcept_ok]
    apply Program.wp_conseq h.sourceMarkerRetained
    intro s _ h
    exact h.cutOver hdate

lemma Promotable.safe (h : Promotable host registry p) :
    ∃ path, safeMigrationPath p.journal.targetDataDir
      (migrationRootPath host.dataDir p.journal.migrationId) "target data" = .ok path := by
  have hpaths := h.paths
  simp only [assertJournalPaths, bind_unit_eq_ok, ensure_eq_ok, discard_eq_ok] at hpaths
  obtain ⟨-, ⟨path, hsafe⟩, -⟩ := hpaths
  rw [safeMigrationPath] at hsafe
  split at hsafe
  next hbelow => exact ⟨_, if_pos hbelow⟩
  next => cases hsafe

lemma Recoverable.record (h : Recoverable host p s) {event : MigrationEvent J} :
    Recoverable host p { s with history := s.history ++ [event] } := h.of_eq rfl rfl rfl rfl

lemma AtPoint.wp_assertClosed {crash : Disk J D → Prop} {Q : Disk J D → Unit → Prop}
    (h : AtPoint host p s point) :
    (assertPromotionStoresClosed p.journal.migrationId).wp crash Q E s ↔ Q s () := by
  simp [assertPromotionStoresClosed, Program.wp_bind, h.activeClosed, Disk.root, h.targetClosed,
    h.sourceClosed]

lemma Started.promoteByTopology (hready : Promotable host registry p) (h : Started host p point s)
    (hbefore : ∀ now, point ≠ .activated now) (hdate : host.dateParses now = true) :
    (promoteByTopology host { p.journal with phase := .promotionStarted } now).wp
      (Recoverable host p) (fun s _ => ∃ now, Promoted host p s now) E s := by
  rw [Migration.promoteByTopology, Program.wp_bind, Program.wp_get]
  cases point with
  | untouched =>
    simp only [h.lies.sourceData, Promotion.layout, Option.isSome_none, Bool.and_false,
      Bool.false_and, Bool.false_eq_true, if_false]
    exact h.promoteStaged hready (Or.inl rfl) hdate
  | sourceMoved =>
    simp only [h.lies.activeData, Promotion.layout, Option.isSome_none, Bool.false_and,
      Bool.false_eq_true, if_false]
    exact h.promoteStaged hready (Or.inr (Or.inl rfl)) hdate
  | sourceMarkerMoved =>
    simp only [h.lies.activeData, Promotion.layout, Option.isSome_none, Bool.false_and,
      Bool.false_eq_true, if_false]
    exact h.promoteStaged hready (Or.inr (Or.inr rfl)) hdate
  | targetMoved =>
    simp only [h.lies.activeData, h.lies.sourceData, h.lies.targetData, Promotion.layout,
      Option.isSome_some, Option.isNone_none, Bool.and_self, if_true]
    exact h.promoteFromTargetMoved hready hdate
  | stagedMarkerMoved =>
    simp only [h.lies.activeData, h.lies.sourceData, h.lies.targetData, Promotion.layout,
      Option.isSome_some, Option.isNone_none, Bool.and_self, if_true]
    exact h.promoteFromStagedMarkerMoved hready hdate
  | activated now' => exact (hbefore now' rfl).elim

/-- A promotion that has not activated its marker is brought to its end. -/
lemma promote_wp (hready : Promotable host registry p) {phase : MigrationPhase}
    (hs : Recoverable host p s) (hpoint : AtPoint host p s point)
    (hbefore : ∀ now, point ≠ .activated now) (harchive : s.archives p.journal.migrationId = none)
    (hdate : host.dateParses now = true) :
    (promoteLocalStoreMigration host { p.journal with phase := phase } now).wp (Recoverable host p)
      (fun s _ => ∃ now, Promoted host p s now) E s := by
  obtain ⟨path, hsafe⟩ := hready.safe
  rw [promoteLocalStoreMigration, Program.wp_bind, Migration.record, Program.wp_atomic]
  refine ⟨hs, ?_⟩
  have hlies : AtPoint host p { s with history := s.history ++ [.promoting] } point :=
    hpoint.of_eq rfl rfl
  rw [Program.wp_bind, Program.wp_discard, hsafe, Program.wp_ofExcept_ok, Program.wp_bind,
    hlies.wp_assertClosed, Program.wp_bind, wp_saveJournal]
  refine ⟨hs.record, ?_⟩
  have hstarted : Started host p point { s with
      journal := some (.json { p.journal with phase := .promotionStarted })
      history := s.history ++ [.promoting] ++ [.wrote { p.journal with phase := .promotionStarted }] } :=
    ⟨hpoint.of_eq rfl rfl, fun now hnow => (hbefore now hnow).elim, rfl, harchive⟩
  exact hstarted.promoteByTopology hready hbefore hdate

/-- The final marker is read back as one of the final identity. -/
lemma Promotable.activeMarker (hready : Promotable host registry p)
    (hdate : host.dateParses now = true) :
    ∃ marker, host.markerIn (some (.json (.v2 (p.activeMarker now)))) = some (.v2 marker) ∧
      markerMatches (some (.v2 marker)) p.journal.target p.journal.targetStoreId .active := by
  obtain ⟨found, hfound, hstore, hchdb, hversion, hschema, hdigest, -⟩ :=
    markerMatches_iff.mp hready.stagedFinal
  cases hfound
  have hstaged := Host.markerIn_eq_some hready.staged
  have hfields : ∀ field ∈ host.markerFields (.v2 (p.activeMarker now)), field.2 = true := by
    simp only [Host.markerFields, Promotion.activeMarker, activated, List.forall_mem_cons] at hstaged ⊢
    obtain ⟨hid, hchdb, hcreated, hnat, hdigest, hschema, -, hend⟩ := hstaged
    exact ⟨hid, hchdb, hcreated, hnat, hdigest, hschema, by simp [Host.isoOrUnknown, hdate], hend⟩
  obtain ⟨creator, hcreator⟩ := nameCreator_v2 (p.activeMarker now)
  rw [Host.markerIn_json hfields, hcreator]
  refine ⟨_, rfl, markerMatches_iff.mpr ⟨_, rfl, ?_⟩⟩
  exact ⟨hstore, hchdb, hversion, hschema, hdigest, rfl⟩

lemma Promotable.sourceVersion_lt (hready : Promotable host registry p) :
    p.journal.sourceVersion < p.journal.targetVersion := by
  have hinvariants := hready.parsed.invariants
  apply chain_forward hinvariants.continues _ hinvariants.source hinvariants.target
  intro step hstep
  obtain ⟨migration, _, hmodule, -⟩ := validateSteps_mem hready.bound hstep
  obtain ⟨hmem, hsource, htarget⟩ := moduleForStep_mem hmodule
  rw [← hsource, ← htarget]
  exact (checkRegistry_forward hready.registered hmem).2

lemma Promotable.staged_differs (hready : Promotable host registry p) :
    markerMatches (some (.v2 p.staged)) p.journal.target p.journal.targetStoreId .active = false := by
  simp [markerMatches, hready.staging]

/-- The source's marker is not taken for the promoted one. -/
lemma Promotable.source_differs (hready : Promotable host registry p) :
    markerMatches (host.markerIn (some p.oldMarker)) p.journal.target p.journal.targetStoreId
      .active = false := by
  obtain ⟨marker, hmarker, hsource⟩ := hready.source
  rw [hmarker]
  cases hmatches : markerMatches (some marker) p.journal.target p.journal.targetStoreId .active with
  | false => rfl
  | true =>
    obtain ⟨found, hfound, -, -, hversion, -⟩ := markerMatches_iff.mp hmatches
    cases hfound
    have hidentity := hsource.identity
    simp only [identityFromMarker, Option.some.injEq] at hidentity
    have hsame : found.schemaVersion = p.journal.sourceVersion :=
      congrArg LocalSchemaIdentity.version hidentity
    have hlt := hready.sourceVersion_lt
    have hversion' : found.schemaVersion = p.journal.targetVersion := hversion
    omega

lemma reconcile_wp (hready : Promotable host registry p) (h : Started host p point s)
    (hdate : host.dateParses now = true) :
    (reconcilePromotion host { p.journal with phase := .promotionStarted } now).wp (Recoverable host p)
      (fun s _ => ∃ now, Promoted host p s now) E s := by
  have hpaths : assertJournalPaths host.dataDir
      { p.journal with phase := .promotionStarted } = .ok () := hready.paths
  rw [reconcilePromotion, Program.wp_bind, hpaths, Program.wp_ofExcept_ok, Program.wp_bind,
    h.lies.wp_assertClosed, Program.wp_bind,
    h.lies.wp_readMarker (Or.inr (by simp [h.journal.journal])), Program.wp_bind, Program.wp_get]
  have hfinal : { p.journal with phase := MigrationPhase.promotionStarted }.finalSchema =
      p.journal.target := hready.finalSchema
  have hpromote (hbefore : ∀ now, point ≠ .activated now) :
      (promoteLocalStoreMigration host { p.journal with phase := .promotionStarted } now).wp
        (Recoverable host p) (fun s _ => ∃ now, Promoted host p s now) E s :=
    promote_wp hready h.recoverable h.lies hbefore h.journal.archive hdate
  rw [hfinal]
  cases point with
  | untouched =>
    simp only [h.lies.activeData, Promotion.layout, Option.isSome_some, hready.source_differs,
      Bool.and_false, Bool.false_eq_true, if_false, Bool.true_or, Program.wp_bind,
      Program.wp_require, if_true]
    exact hpromote (by simp)
  | sourceMoved =>
    simp only [h.lies.activeData, h.lies.targetData, Promotion.layout, Option.isSome_some,
      Option.isSome_none, Bool.false_and, Bool.false_eq_true, if_false, Bool.true_or, Bool.false_or,
      Program.wp_bind, Program.wp_require, if_true]
    exact hpromote (by simp)
  | sourceMarkerMoved =>
    simp only [h.lies.activeData, h.lies.targetData, Promotion.layout, Option.isSome_some,
      Option.isSome_none, Bool.false_and, Bool.false_eq_true, if_false, Bool.true_or, Bool.false_or,
      Program.wp_bind, Program.wp_require, if_true]
    exact hpromote (by simp)
  | targetMoved =>
    simp only [h.lies.activeData, Promotion.layout, Option.isSome_some, markerMatches,
      Host.markerIn, Host.markerState, Bool.and_false, Bool.false_eq_true, if_false, Bool.true_or,
      Program.wp_bind, Program.wp_require, if_true]
    exact hpromote (by simp)
  | stagedMarkerMoved =>
    simp only [h.lies.activeData, Promotion.layout, Option.isSome_some, hready.staged,
      hready.staged_differs, Bool.and_false, Bool.false_eq_true, if_false, Bool.true_or,
      Program.wp_bind, Program.wp_require, if_true]
    exact hpromote (by simp)
  | activated now' =>
    obtain ⟨marker, hmarker, hmatches⟩ := hready.activeMarker (h.date now' rfl)
    simp only [h.lies.activeData, h.lies.targetData, h.lies.sourceData, h.lies.sourceMarker,
      Promotion.layout, Option.isSome_some, hmarker, hmatches, Bool.and_self, assertRealDirectory,
      assertRealFile, Option.isNone_none, Program.wp_bind, Program.wp_require, if_true]
    rw [wp_saveJournal]
    refine ⟨h.recoverable, ?_⟩
    apply archiveAndReturn_wp
    · exact h.lies.of_eq rfl rfl
    · exact h.date now' rfl
    · exact ⟨rfl, h.journal.archive⟩

end Recovery

end Maple.Migration
