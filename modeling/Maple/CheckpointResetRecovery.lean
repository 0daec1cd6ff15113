import Maple.CheckpointReset

/-! Every disk that an interrupted reset leaves, and what running it again makes of it. -/

namespace Maple.Checkpoint
open CrashRecovery FileTree IngestRules

variable {paths : PathApi} {dataDir : String} {disk s : ResetDisk} {targets : List ResetTarget}
  {transaction : ResetTransaction}

/-! ### Targets and their order -/

lemma ResetTarget.decode_name (target : ResetTarget) :
    ResetTarget.decode target.name = some target := by
  cases target <;> rfl

lemma ResetTarget.name_of_decode {name : String} {target : ResetTarget}
    (h : ResetTarget.decode name = some target) : target.name = name := by
  simpa using List.find?_some h

lemma ResetTarget.name_injective : Function.Injective ResetTarget.name := by
  intro a b h
  have hdecoded := congrArg ResetTarget.decode h
  rw [decode_name, decode_name] at hdecoded
  exact Option.some.inj hdecoded

lemma ResetTarget.name_ne_backups (target : ResetTarget) : target.name ≠ "backups" := by
  cases target <;> decide

/-- The names are listed in their order. -/
def ResetTarget.rank (target : ResetTarget) : ℕ := RESETTABLE_LIVE_ENTRIES.idxOf target

lemma ResetTarget.le_iff_rank (a b : ResetTarget) : a.Le b ↔ a.rank ≤ b.rank := by
  cases a <;> cases b <;> decide

instance : Std.Total ResetTarget.Le where
  total a b := by
    rw [ResetTarget.le_iff_rank, ResetTarget.le_iff_rank]
    omega

instance : IsTrans ResetTarget ResetTarget.Le where
  trans a b c hab hbc := by
    rw [ResetTarget.le_iff_rank] at *
    omega

lemma sortTargets_sortTargets (targets : List ResetTarget) :
    sortTargets (sortTargets targets) = sortTargets targets :=
  List.Pairwise.insertionSort_eq (List.pairwise_insertionSort _ targets)

lemma mem_sortTargets {target : ResetTarget} : target ∈ sortTargets targets ↔ target ∈ targets :=
  List.mem_insertionSort _

lemma validType_remains {target : ResetTarget} {node left : Node} (h : node.Remains left)
    (hvalid : target.validType node = true) : target.validType left = true := by
  unfold ResetTarget.validType at *
  split_ifs at * with hstatus
  · exact h.isFile hvalid
  · exact h.isDirectory hvalid

lemma found_of_validType {target : ResetTarget} {node : Node}
    (hvalid : target.validType node = true) : node.found = true := by
  unfold ResetTarget.validType at hvalid
  split_ifs at hvalid
  · exact Node.found_of_isFile hvalid
  · exact Node.found_of_isDirectory hvalid

lemma assertResetTarget_ok {target : ResetTarget} {node : Node} (path : String)
    (hvalid : target.validType node = true) : assertResetTarget path node target = .ok () := by
  unfold ResetTarget.validType at hvalid
  unfold assertResetTarget
  split_ifs at * with hstatus
  · simp [assertRealFile, assertKind, hvalid]
  · simp [assertRealDirectory, assertKind, hvalid]

/-! ### Entries of the data directory -/

namespace Live

lemma entry_removeEntry (live : Live) (name other : String) :
    (live.removeEntry name).entry other = if other = name then none else live.entry other := by
  cases live with
  | directory entries =>
    simp only [removeEntry, entry]
    split_ifs with hname
    · rw [hname, AList.lookup_erase]
    · rw [AList.lookup_erase_ne hname]
  | missing => simp [removeEntry, entry]
  | symlink dangling => simp [removeEntry, entry]
  | file => simp [removeEntry, entry]

lemma entry_setEntry {live : Live} {name : String} {node : Node} (h : live.entry name = some node)
    (left : Node) (other : String) :
    (live.setEntry name left).entry other = if other = name then some left else live.entry other := by
  cases live with
  | directory entries =>
    simp only [setEntry, entry]
    split_ifs with hname
    · rw [hname, AList.lookup_insert]
    · rw [AList.lookup_insert_ne hname]
  | missing => cases h
  | symlink dangling => cases h
  | file => cases h

lemma mem_readdir {live : Live} {name : String} {node : Node} :
    ⟨name, node⟩ ∈ live.readdir ↔ live.entry name = some node := by
  cases live with
  | directory entries =>
    exact (@AList.mem_lookup_iff String (fun _ => Node) _ name node entries).symm
  | missing => simp [readdir, entry]
  | symlink dangling => simp [readdir, entry]
  | file => simp [readdir, entry]

lemma readdir_nodup (live : Live) : (live.readdir.map Sigma.fst).Nodup := by
  cases live with
  | directory entries => exact entries.keys_nodup
  | missing => simp [readdir]
  | symlink dangling => simp [readdir]
  | file => simp [readdir]

/-- No target is left. -/
def Cleared (live : Live) (targets : List ResetTarget) : Prop :=
  ∀ target ∈ targets, live.entry target.name = none

/-- The directory itself and its backups are as before, and of its other entries no more than what
removing them leaves. -/
structure Pared (before after : Live) : Prop where
  isDirectory : after.isDirectory = before.isDirectory
  other : before.isDirectory = false → after = before
  backups : after.entry "backups" = before.entry "backups"
  entry : ∀ name, after.entry name = none ∨ ∃ node left, before.entry name = some node ∧
    after.entry name = some left ∧ node.Remains left

lemma Pared.refl (live : Live) : Pared live live where
  isDirectory := rfl
  other _ := rfl
  backups := rfl
  entry name := by
    cases hentry : live.entry name with
    | none => exact Or.inl rfl
    | some node => exact Or.inr ⟨node, node, rfl, rfl, .refl node⟩

lemma Pared.removeEntry {before after : Live} (h : Pared before after) {name : String}
    (hname : name ≠ "backups") : Pared before (after.removeEntry name) where
  isDirectory := by
    rw [← h.isDirectory]
    cases after <;> rfl
  other hbefore := by
    obtain rfl := h.other hbefore
    cases after with
    | directory entries => cases hbefore
    | missing => rfl
    | symlink dangling => rfl
    | file => rfl
  backups := by rw [entry_removeEntry, if_neg hname.symm, h.backups]
  entry other := by
    rw [entry_removeEntry]
    split_ifs with hother
    · exact Or.inl rfl
    · exact h.entry other

lemma Pared.setEntry {before after : Live} (h : Pared before after) {name : String}
    (hname : name ≠ "backups") {node left : Node} (hnode : after.entry name = some node)
    (hleft : node.Remains left) : Pared before (after.setEntry name left) where
  isDirectory := by
    rw [← h.isDirectory]
    cases after <;> rfl
  other hbefore := by
    obtain rfl := h.other hbefore
    cases after with
    | directory entries => cases hbefore
    | missing => rfl
    | symlink dangling => rfl
    | file => rfl
  backups := by rw [entry_setEntry hnode, if_neg hname.symm, h.backups]
  entry other := by
    rw [entry_setEntry hnode]
    split_ifs with hother
    · right
      rcases h.entry name with hgone | ⟨first, second, hfirst, hsecond, hremains⟩
      · rw [hgone] at hnode
        cases hnode
      · rw [hsecond] at hnode
        cases hnode
        exact ⟨first, left, hother ▸ hfirst, rfl, hremains.trans hleft⟩
    · exact h.entry other

lemma found_of_isDirectory {live : Live} (h : live.isDirectory = true) : live.found = true := by
  cases live with
  | directory entries => rfl
  | missing => cases h
  | symlink dangling => cases h
  | file => cases h

lemma Pared.found {before after : Live} (h : Pared before after) : after.found = before.found := by
  cases hkind : before.isDirectory with
  | true =>
    rw [found_of_isDirectory hkind, found_of_isDirectory (h.isDirectory.trans hkind)]
  | false => rw [h.other hkind]

end Live

/-! ### What a reset accepts -/

/-- What is known of a data directory whose reset was accepted. -/
structure Accepted (paths : PathApi) (dataDir : String) (disk : ResetDisk)
    (targets : List ResetTarget) : Prop where
  safe : assertCheckpointInfrastructureSafe paths dataDir disk.live = .ok ()
  live : assertRealLive paths dataDir disk.live = .ok ()
  entry : ∀ name node, disk.live.entry name = some node →
    name = "backups" ∨ ∃ target ∈ targets, target.name = name ∧ target.validType node = true
  nodup : targets.Nodup
  sorted : sortTargets targets = targets

lemma collectTargets_ok {live : String} {entries : List (Σ _ : String, Node)}
    (h : collectTargets paths live entries = .ok (targets, [])) :
    (∀ entry ∈ entries, entry.1 = "backups" ∨
      ∃ target ∈ targets, target.name = entry.1 ∧ target.validType entry.2 = true) ∧
    (targets.map ResetTarget.name).Sublist (entries.map Sigma.fst) := by
  induction entries generalizing targets with
  | nil =>
    simp only [collectTargets, Except.ok.injEq, Prod.mk.injEq] at h
    simp [← h.1]
  | cons entry rest ih =>
    obtain ⟨name, node⟩ := entry
    rw [collectTargets] at h
    by_cases hbackups : name = "backups"
    · rw [if_pos hbackups] at h
      obtain ⟨hentries, hsublist⟩ := ih h
      refine ⟨?_, hsublist.cons _⟩
      intro entry hentry
      rcases List.mem_cons.mp hentry with rfl | hentry
      · exact Or.inl hbackups
      · exact hentries entry hentry
    rw [if_neg hbackups] at h
    cases hdecode : ResetTarget.decode name with
    | none =>
      simp only [hdecode] at h
      cases hrest : collectTargets paths live rest with
      | error e => simp [hrest, bind, Except.bind] at h
      | ok result => simp [hrest, bind, Except.bind, pure, Except.pure] at h
    | some target =>
      simp only [hdecode] at h
      split_ifs at h with hvalid
      cases hrest : collectTargets paths live rest with
      | error e => simp [hrest, bind, Except.bind] at h
      | ok result =>
        obtain ⟨found, unknown⟩ := result
        simp only [hrest, bind, Except.bind, pure, Except.pure, Except.ok.injEq,
          Prod.mk.injEq] at h
        obtain ⟨rfl, rfl⟩ := h
        obtain ⟨hentries, hsublist⟩ := ih hrest
        have hname := ResetTarget.name_of_decode hdecode
        have htype : target.validType node = true := by
          simp only [Bool.or_eq_true, Bool.not_eq_eq_eq_not, Bool.not_true, not_or,
            Bool.not_eq_false] at hvalid
          exact hvalid.1
        constructor
        · intro entry hentry
          rcases List.mem_cons.mp hentry with rfl | hentry
          · exact Or.inr ⟨target, List.mem_cons_self, hname, htype⟩
          · rcases hentries entry hentry with hentry | ⟨other, hother, hentry⟩
            · exact Or.inl hentry
            · exact Or.inr ⟨other, List.mem_cons_of_mem _ hother, hentry⟩
        · rw [List.map_cons, List.map_cons, hname]
          exact hsublist.cons_cons name

lemma accepted_of_ok (h : acceptedTargets paths dataDir disk = .ok targets) :
    Accepted paths dataDir disk targets := by
  unfold acceptedTargets at h
  cases hsafe : assertCheckpointInfrastructureSafe paths dataDir disk.live with
  | error e => simp [hsafe, bind, Except.bind] at h
  | ok safe =>
    cases hlive : assertRealLive paths dataDir disk.live with
    | error e => simp [hsafe, hlive, bind, Except.bind] at h
    | ok live =>
      cases hcollect : collectTargets paths (paths.resolve dataDir) disk.live.readdir with
      | error e => simp [hsafe, hlive, hcollect, bind, Except.bind] at h
      | ok result =>
        obtain ⟨found, unknown⟩ := result
        cases unknown with
        | cons name rest =>
          simp [hsafe, hlive, hcollect, bind, Except.bind, throw, throwThe,
            MonadExceptOf.throw] at h
        | nil =>
          simp only [hsafe, hlive, hcollect, bind, Except.bind, List.isEmpty_nil, Bool.not_true,
            Bool.false_eq_true, if_false, pure, Except.pure, Except.ok.injEq] at h
          subst h
          obtain ⟨hentries, hsublist⟩ := collectTargets_ok hcollect
          have hnodup : (found.map ResetTarget.name).Nodup :=
            hsublist.nodup disk.live.readdir_nodup
          refine ⟨hsafe, hlive, ?_, ?_, sortTargets_sortTargets found⟩
          · intro name node hentry
            rcases hentries ⟨name, node⟩ (Live.mem_readdir.mpr hentry) with hname | hname
            · exact Or.inl hname
            · obtain ⟨target, htarget, hname⟩ := hname
              exact Or.inr ⟨target, mem_sortTargets.mpr htarget, hname⟩
          · exact (List.perm_insertionSort _ found).nodup_iff.mpr hnodup.of_map

/-- An entry that is not recognised, or has another type than it must have. A link that leads
nowhere is no checkpoint root. -/
def UnsafeEntry (name : String) (node : Node) : Prop :=
  if name = "backups" then node.found = true ∧ node.isDirectory = false
  else ∀ target, ResetTarget.decode name = some target → target.validType node = false

lemma backups_isDirectory {node : Node}
    (hsafe : assertCheckpointInfrastructureSafe paths dataDir disk.live = .ok ())
    (hentry : disk.live.entry "backups" = some node) (hfound : node.found = true) :
    node.isDirectory = true := by
  unfold assertCheckpointInfrastructureSafe at hsafe
  cases hlive : assertRealLive paths dataDir disk.live with
  | error e => simp [hlive, bind, Except.bind] at hsafe
  | ok live =>
    by_contra hother
    simp [hlive, hentry, hfound, bind, Except.bind, assertRealDirectory, assertKind, hother] at hsafe

lemma acceptedTargets_error {name : String} {node : Node} (hentry : disk.live.entry name = some node)
    (hwrong : UnsafeEntry name node) : ∃ e, acceptedTargets paths dataDir disk = .error e := by
  cases haccepted : acceptedTargets paths dataDir disk with
  | error e => exact ⟨e, rfl⟩
  | ok targets =>
    have h := accepted_of_ok haccepted
    unfold UnsafeEntry at hwrong
    split_ifs at hwrong with hname
    · subst hname
      rw [backups_isDirectory h.safe hentry hwrong.1] at hwrong
      cases hwrong.2
    · rcases h.entry name node hentry with hbackups | ⟨target, _, rfl, hvalid⟩
      · exact absurd hbackups hname
      · rw [hwrong target target.decode_name] at hvalid
        cases hvalid

lemma collectTargets_backups {live : String} {entries : List (Σ _ : String, Node)}
    (h : ∀ entry ∈ entries, entry.1 = "backups") :
    collectTargets paths live entries = .ok ([], []) := by
  induction entries with
  | nil => rfl
  | cons entry rest ih =>
    rw [collectTargets, if_pos (h entry List.mem_cons_self)]
    exact ih fun entry hentry => h entry (List.mem_cons_of_mem _ hentry)

lemma Live.Pared.assertRealLive {before after : Live} (h : Pared before after) :
    assertRealLive paths dataDir after = Checkpoint.assertRealLive paths dataDir before := by
  unfold Checkpoint.assertRealLive
  rw [h.found, h.isDirectory]

lemma Live.Pared.assertSafe {before after : Live} (h : Pared before after) :
    assertCheckpointInfrastructureSafe paths dataDir after =
      assertCheckpointInfrastructureSafe paths dataDir before := by
  unfold assertCheckpointInfrastructureSafe
  rw [h.assertRealLive, h.backups]

/-! ### The stages of a reset -/

/-- A recorded reset: what its transaction says and what may be gone so far. -/
structure Underway (paths : PathApi) (dataDir : String) (disk : ResetDisk)
    (targets : List ResetTarget) (transaction : ResetTransaction) (s : ResetDisk) : Prop where
  file : s.transaction = some (.json transaction)
  dataDir : transaction.dataDir = paths.resolve dataDir
  nodup : transaction.targets.Nodup
  sorted : sortTargets transaction.targets = transaction.targets
  recorded : transaction.targets = targets ∨
    transaction.targets = [] ∧ s.live.Cleared targets
  restore : s.restoreTransaction = disk.restoreTransaction
  pared : disk.live.Pared s.live
  marker : s.marker = disk.marker ∨ s.marker = none ∧ s.live.Cleared targets
  openMarker : s.openMarker = disk.openMarker ∨
    s.openMarker = none ∧ s.marker = none ∧ s.live.Cleared targets
  cleared : transaction.phase ≠ .intent → s.live.Cleared targets
  unmarked : transaction.phase = .markersCleared → s.marker = none ∧ s.openMarker = none

/-- The targets, the markers and the transaction are gone. -/
structure ResetDone (disk : ResetDisk) (targets : List ResetTarget) (s : ResetDisk) : Prop where
  transaction : s.transaction = none
  restore : s.restoreTransaction = disk.restoreTransaction
  pared : disk.live.Pared s.live
  cleared : s.live.Cleared targets
  marker : s.marker = none
  openMarker : s.openMarker = none

/-- Every disk between the start of a reset and the end of its last run. -/
inductive ResetStage (paths : PathApi) (dataDir : String) (disk : ResetDisk)
    (targets : List ResetTarget) (s : ResetDisk) : Prop
  | untouched (h : s = disk)
  | underway (transaction : ResetTransaction) (h : Underway paths dataDir disk targets transaction s)
  | done (h : ResetDone disk targets s)

/-- The disk of an accepted reset that its caller found without a transaction. -/
structure Ready (paths : PathApi) (dataDir : String) (disk : ResetDisk)
    (targets : List ResetTarget) : Prop extends Accepted paths dataDir disk targets where
  transaction : disk.transaction = none
  restore : disk.restoreTransaction = false

lemma parseResetTransaction_ok (h : Underway paths dataDir disk targets transaction s) :
    parseResetTransaction paths transaction dataDir = .ok transaction := by
  have habsolute : paths.isAbsolute transaction.dataDir = true := by
    rw [h.dataDir, paths.isAbsolute_resolve]
  have hsame : paths.resolve transaction.dataDir = paths.resolve dataDir := by
    rw [h.dataDir, paths.resolve_resolve]
  simp [parseResetTransaction, habsolute, hsame, h.nodup, h.sorted]

/-- Removing more of the targets leaves the reset underway. -/
lemma Underway.setLive (h : Underway paths dataDir disk targets transaction s) {live : Live}
    (hpared : disk.live.Pared live)
    (hgone : ∀ name, s.live.entry name = none → live.entry name = none) :
    Underway paths dataDir disk targets transaction { s with live := live } := by
  have hcleared : s.live.Cleared targets → live.Cleared targets := fun hcleared target htarget =>
    hgone _ (hcleared target htarget)
  refine ⟨h.file, h.dataDir, h.nodup, h.sorted, ?_, h.restore, hpared, ?_, ?_, ?_, h.unmarked⟩
  · exact h.recorded.imp_right fun hrecorded => ⟨hrecorded.1, hcleared hrecorded.2⟩
  · exact h.marker.imp_right fun hmarker => ⟨hmarker.1, hcleared hmarker.2⟩
  · exact h.openMarker.imp_right fun hmarker => ⟨hmarker.1, hmarker.2.1, hcleared hmarker.2.2⟩
  · exact fun hphase => hcleared (h.cleared hphase)

/-- What is left of a target still has the type that was accepted. -/
lemma Underway.validType (h : Underway paths dataDir disk targets transaction s)
    (haccepted : Accepted paths dataDir disk targets) {target : ResetTarget} {node : Node}
    (hnode : s.live.entry target.name = some node) : target.validType node = true := by
  rcases h.pared.entry target.name with hgone | ⟨first, left, hfirst, hleft, hremains⟩
  · rw [hgone] at hnode
    cases hnode
  rw [hleft] at hnode
  cases hnode
  rcases haccepted.entry _ _ hfirst with hbackups | ⟨other, _, hname, hvalid⟩
  · exact absurd hbackups target.name_ne_backups
  · obtain rfl := ResetTarget.name_injective hname
    exact validType_remains hremains hvalid

lemma removeTargets_wp (haccepted : Accepted paths dataDir disk targets) (live : String)
    (rest : List ResetTarget) (h : Underway paths dataDir disk targets transaction s) :
    (removeTargets paths live rest).wp (ResetStage paths dataDir disk targets)
      (fun s' _ => Underway paths dataDir disk targets transaction s' ∧
        s'.live.Cleared rest ∧ s'.marker = s.marker ∧ s'.openMarker = s.openMarker ∧
        ∀ name, s.live.entry name = none → s'.live.entry name = none)
      (fun _ _ => False) s := by
  induction rest generalizing s with
  | nil =>
    refine ⟨h, ?_, rfl, rfl, fun name hname => hname⟩
    intro target htarget
    cases htarget
  | cons target rest ih =>
    rw [removeTargets, Program.wp_bind, Program.wp_get]
    cases hnode : s.live.entry target.name with
    | none =>
      apply Program.wp_conseq (ih h)
      rintro s' _ ⟨hs', hcleared, hmarkers⟩
      refine ⟨hs', ?_, hmarkers⟩
      intro other hother
      rcases List.mem_cons.mp hother with rfl | hother
      · exact hmarkers.2.2 _ hnode
      · exact hcleared other hother
    | some node =>
      have hvalid := h.validType haccepted hnode
      have hname := target.name_ne_backups
      have hremoved : Underway paths dataDir disk targets transaction
          { s with live := s.live.removeEntry target.name } := by
        apply h.setLive (h.pared.removeEntry hname)
        intro name hgone
        rw [Live.entry_removeEntry]
        split_ifs
        · rfl
        · exact hgone
      simp only [found_of_validType hvalid, Bool.not_true, Bool.false_eq_true, if_false,
        assertResetTarget_ok _ hvalid, Program.wp_bind, Program.wp_ofExcept_ok]
      refine ⟨.underway _ h, ?_, ?_⟩
      · rintro s' ⟨_, found, left, hfound, hleft, rfl⟩
        refine .underway _ (h.setLive (h.pared.setEntry hname hfound hleft) ?_)
        intro name hgone
        rw [Live.entry_setEntry hfound, if_neg, hgone]
        rintro rfl
        rw [hnode] at hgone
        cases hgone
      · apply Program.wp_conseq (ih hremoved)
        rintro s' _ ⟨hs', hcleared, hmarker, hopen, hgone⟩
        have hstill : ∀ name, s.live.entry name = none → s'.live.entry name = none := by
          intro name hname
          apply hgone
          rw [Live.entry_removeEntry]
          split_ifs
          · rfl
          · exact hname
        refine ⟨hs', ?_, hmarker, hopen, hstill⟩
        intro other hother
        rcases List.mem_cons.mp hother with rfl | hother
        · exact hgone _ (by rw [Live.entry_removeEntry, if_pos rfl])
        · exact hcleared other hother

/-- Recorded targets that are gone are all targets. -/
lemma Underway.clearedAll (h : Underway paths dataDir disk targets transaction s)
    (hcleared : s.live.Cleared transaction.targets) : s.live.Cleared targets := by
  rcases h.recorded with hrecorded | ⟨_, hall⟩
  · rwa [hrecorded] at hcleared
  · exact hall

lemma Underway.clearedRecorded (h : Underway paths dataDir disk targets transaction s)
    (hcleared : s.live.Cleared targets) : s.live.Cleared transaction.targets := by
  rcases h.recorded with hrecorded | ⟨hnone, _⟩
  · rwa [hrecorded]
  · rw [hnone]
    intro target htarget
    cases htarget

lemma assertGone_ok (moment : String) {recorded : List ResetTarget}
    (hcleared : s.live.Cleared recorded) : assertGone moment recorded s = .ok () := by
  have hfind : (recorded.find? fun target => (s.live.entry target.name).any (·.found)) = none := by
    rw [List.find?_eq_none]
    intro target htarget
    simp [hcleared target htarget]
  simp [assertGone, hfind]

lemma clearLive_wp (haccepted : Accepted paths dataDir disk targets) (live : String)
    (h : Underway paths dataDir disk targets transaction s) (hphase : transaction.phase = .intent) :
    (clearLive paths live transaction).wp (ResetStage paths dataDir disk targets)
      (fun s' next => Underway paths dataDir disk targets next s' ∧ next.phase = .liveCleared)
      (fun _ _ => False) s := by
  rw [clearLive, Program.wp_bind]
  apply Program.wp_conseq (removeTargets_wp haccepted live transaction.targets h)
  rintro s' _ ⟨hs', hcleared, hmarker, hopen, hgone⟩
  have hall := hs'.clearedAll hcleared
  simp only [writeResetTransaction, Program.wp_bind, Program.wp_atomic, Program.wp_pure]
  refine ⟨.underway _ hs', ⟨rfl, hs'.dataDir, hs'.nodup, hs'.sorted, hs'.recorded, hs'.restore,
    hs'.pared, hs'.marker, hs'.openMarker, fun _ => hall, ?_⟩, trivial⟩
  intro hcontra
  cases hcontra

lemma clearMarkers_wp (h : Underway paths dataDir disk targets transaction s)
    (hphase : transaction.phase = .liveCleared) :
    (clearMarkers transaction).wp (ResetStage paths dataDir disk targets)
      (fun s' next => Underway paths dataDir disk targets next s' ∧ next.phase = .markersCleared)
      (fun _ _ => False) s := by
  have hall : s.live.Cleared targets := h.cleared (by simp [hphase])
  have hunmarked : Underway paths dataDir disk targets transaction { s with marker := none } :=
    ⟨h.file, h.dataDir, h.nodup, h.sorted, h.recorded, h.restore, h.pared, Or.inr ⟨rfl, hall⟩,
      h.openMarker.imp_right fun hopen => ⟨hopen.1, rfl, hall⟩, h.cleared, by simp [hphase]⟩
  rw [clearMarkers, Program.wp_bind, Program.wp_get, Program.wp_bind,
    assertGone_ok _ (h.clearedRecorded hall), Program.wp_ofExcept_ok, Program.wp_bind]
  have hfirst : (Program.whenever s.marker.isSome
      (Program.atomic fun disk => { disk with marker := none }) : Resetter Unit).wp
      (ResetStage paths dataDir disk targets)
      (fun s' _ => Underway paths dataDir disk targets transaction s' ∧ s'.marker = none)
      (fun _ _ => False) s := by
    rw [Program.wp_whenever]
    split_ifs with hmarker
    · exact Program.wp_atomic.mpr ⟨.underway _ h, hunmarked, rfl⟩
    · exact ⟨h, by simpa using hmarker⟩
  apply Program.wp_conseq hfirst
  rintro s₁ _ ⟨h₁, hmarker₁⟩
  have hall₁ : s₁.live.Cleared targets := h₁.cleared (by simp [hphase])
  rw [Program.wp_bind, Program.wp_get, Program.wp_bind]
  have hsecond : (Program.whenever s₁.openMarker.isSome
      (Program.atomic fun disk => { disk with openMarker := none }) : Resetter Unit).wp
      (ResetStage paths dataDir disk targets)
      (fun s' _ => Underway paths dataDir disk targets transaction s' ∧ s'.marker = none ∧
        s'.openMarker = none)
      (fun _ _ => False) s₁ := by
    rw [Program.wp_whenever]
    split_ifs with hopen
    · refine Program.wp_atomic.mpr ⟨.underway _ h₁, ⟨h₁.file, h₁.dataDir, h₁.nodup, h₁.sorted,
        h₁.recorded, h₁.restore, h₁.pared, h₁.marker, Or.inr ⟨rfl, hmarker₁, hall₁⟩, h₁.cleared, ?_⟩,
        hmarker₁, rfl⟩
      simp [hphase]
    · exact ⟨h₁, hmarker₁, by simpa using hopen⟩
  apply Program.wp_conseq hsecond
  rintro s₂ _ ⟨h₂, hmarker₂, hopen₂⟩
  simp only [writeResetTransaction, Program.wp_bind, Program.wp_atomic, Program.wp_pure]
  exact ⟨.underway _ h₂, ⟨rfl, h₂.dataDir, h₂.nodup, h₂.sorted, h₂.recorded, h₂.restore, h₂.pared,
    h₂.marker, h₂.openMarker, fun _ => h₂.cleared (by simp [hphase]),
    fun _ => ⟨hmarker₂, hopen₂⟩⟩, trivial⟩

/-! ### Runs -/

lemma reconcileReset_none (h : s.transaction = none) {crash : ResetDisk → Prop}
    {Q : ResetDisk → Bool → Prop} {E : ResetDisk → CheckpointError → Prop} (hQ : Q s false) :
    (reconcileResetTransactionUnlocked paths dataDir).wp crash Q E s := by
  rw [reconcileResetTransactionUnlocked, Program.wp_bind, readResetTransaction, Program.wp_bind,
    Program.wp_get]
  simpa only [h, Program.wp_pure] using hQ

/-- A recorded reset is finished from wherever it stands. -/
lemma reconcileReset_wp (hready : Ready paths dataDir disk targets)
    (h : Underway paths dataDir disk targets transaction s) :
    (reconcileResetTransactionUnlocked paths dataDir).wp (ResetStage paths dataDir disk targets)
      (fun s' reconciled => reconciled = true ∧ ResetDone disk targets s') (fun _ _ => False) s := by
  have haccepted := hready.toAccepted
  have hlive : assertRealLive paths dataDir s.live = .ok () := by
    rw [h.pared.assertRealLive, haccepted.live]
  rw [reconcileResetTransactionUnlocked, Program.wp_bind, readResetTransaction, Program.wp_bind,
    Program.wp_get]
  simp only [h.file, parseResetTransaction_ok h, Program.wp_bind, Program.wp_ofExcept_ok,
    Program.wp_pure, Program.wp_get, Program.wp_require, h.restore, hready.restore, Bool.not_false,
    if_true, hlive]
  have hfirst : (intentPhase paths (paths.resolve dataDir) transaction).wp
      (ResetStage paths dataDir disk targets)
      (fun s' next => Underway paths dataDir disk targets next s' ∧ next.phase ≠ .intent)
      (fun _ _ => False) s := by
    unfold intentPhase
    split_ifs with hphase
    · apply Program.wp_conseq (clearLive_wp haccepted _ h hphase)
      rintro s' next ⟨hs', hnext⟩
      exact ⟨hs', by simp [hnext]⟩
    · exact ⟨h, hphase⟩
  apply Program.wp_conseq hfirst
  rintro s₁ first ⟨h₁, hphase₁⟩
  have hsecond : (liveClearedPhase first).wp (ResetStage paths dataDir disk targets)
      (fun s' next => Underway paths dataDir disk targets next s' ∧ next.phase = .markersCleared)
      (fun _ _ => False) s₁ := by
    unfold liveClearedPhase
    split_ifs with hphase
    · exact clearMarkers_wp h₁ hphase
    · refine ⟨h₁, ?_⟩
      cases hkind : first.phase with
      | intent => exact absurd hkind hphase₁
      | liveCleared => exact absurd hkind hphase
      | markersCleared => rfl
  apply Program.wp_conseq hsecond
  rintro s₂ second ⟨h₂, hphase₂⟩
  have hall := h₂.cleared (by simp [hphase₂])
  obtain ⟨hmarker, hopen⟩ := h₂.unmarked hphase₂
  simp only [assertGone_ok _ (h₂.clearedRecorded hall), Program.wp_ofExcept_ok, Program.wp_atomic]
  exact ⟨.underway _ h₂, trivial, rfl, h₂.restore, h₂.pared, hall, hmarker, hopen⟩

lemma beginReset_wp (hready : Ready paths dataDir disk targets) (operationId : String)
    {recorded : List ResetTarget} (haccepted : acceptedTargets paths dataDir s = .ok recorded)
    (hstage : ResetStage paths dataDir disk targets s)
    (h : Underway paths dataDir disk targets ⟨operationId, paths.resolve dataDir, recorded, .intent⟩
      { s with transaction := some (.json ⟨operationId, paths.resolve dataDir, recorded, .intent⟩) }) :
    (beginResetTransactionUnlocked paths dataDir operationId).wp
      (ResetStage paths dataDir disk targets) (fun s' _ => ResetDone disk targets s')
      (fun _ _ => False) s := by
  rw [beginResetTransactionUnlocked, Program.wp_bind, Program.wp_get, Program.wp_bind, haccepted,
    Program.wp_ofExcept_ok]
  simp only [writeResetTransaction, Program.wp_bind, Program.wp_atomic, Program.wp_pure]
  refine ⟨hstage, ?_⟩
  apply Program.wp_conseq (reconcileReset_wp hready h)
  rintro s' reconciled ⟨_, hdone⟩
  exact hdone

lemma begin_untouched (hready : Ready paths dataDir disk targets)
    (haccepted : acceptedTargets paths dataDir disk = .ok targets) (operationId : String) :
    (beginResetTransactionUnlocked paths dataDir operationId).wp
      (ResetStage paths dataDir disk targets) (fun s' _ => ResetDone disk targets s')
      (fun _ _ => False) disk := by
  apply beginReset_wp hready operationId haccepted (.untouched rfl)
  refine ⟨rfl, rfl, hready.nodup, hready.sorted, Or.inl rfl, rfl, .refl _, Or.inl rfl, Or.inl rfl,
    ?_, ?_⟩
  · exact fun hcontra => absurd rfl hcontra
  · intro hcontra
    cases hcontra

/-- After a finished reset another one finds nothing but the backups. -/
lemma acceptedTargets_done (hready : Ready paths dataDir disk targets)
    (h : ResetDone disk targets s) : acceptedTargets paths dataDir s = .ok [] := by
  have hsafe : assertCheckpointInfrastructureSafe paths dataDir s.live = .ok () := by
    rw [h.pared.assertSafe, hready.safe]
  have hlive : assertRealLive paths dataDir s.live = .ok () := by
    rw [h.pared.assertRealLive, hready.live]
  have hentries : ∀ entry ∈ s.live.readdir, entry.1 = "backups" := by
    rintro ⟨name, node⟩ hentry
    rw [Live.mem_readdir] at hentry
    rcases h.pared.entry name with hgone | ⟨first, left, hfirst, _⟩
    · rw [hgone] at hentry
      cases hentry
    · rcases hready.entry name first hfirst with hbackups | ⟨target, htarget, rfl, _⟩
      · exact hbackups
      · rw [h.cleared target htarget] at hentry
        cases hentry
  simp [acceptedTargets, hsafe, hlive, collectTargets_backups hentries, bind, Except.bind, pure,
    Except.pure, sortTargets]

lemma begin_done (hready : Ready paths dataDir disk targets) (h : ResetDone disk targets s)
    (operationId : String) :
    (beginResetTransactionUnlocked paths dataDir operationId).wp
      (ResetStage paths dataDir disk targets) (fun s' _ => ResetDone disk targets s')
      (fun _ _ => False) s := by
  apply beginReset_wp hready operationId (acceptedTargets_done hready h) (.done h)
  refine ⟨rfl, rfl, List.nodup_nil, rfl, Or.inr ⟨rfl, h.cleared⟩, h.restore, h.pared,
    Or.inr ⟨h.marker, h.cleared⟩, Or.inr ⟨h.openMarker, h.marker, h.cleared⟩,
    fun _ => h.cleared, ?_⟩
  intro hcontra
  cases hcontra

/-- What one more run ends with: the reset is finished, unless it had not been recorded and only the
reconciliation ran. -/
def RerunEnds (disk : ResetDisk) (targets : List ResetTarget) (rerun : ResetRerun)
    (s s' : ResetDisk) : Prop :=
  ResetDone disk targets s' ∨ rerun = .reconcile ∧ s = disk ∧ s' = disk

lemma rerun_wp (hready : Ready paths dataDir disk targets)
    (haccepted : acceptedTargets paths dataDir disk = .ok targets) (rerun : ResetRerun)
    (hs : ResetStage paths dataDir disk targets s) :
    (rerun.program paths dataDir).wp (ResetStage paths dataDir disk targets)
      (fun s' _ => RerunEnds disk targets rerun s s') (fun _ _ => False) s := by
  cases rerun with
  | reconcile =>
    cases hs with
    | untouched h =>
      subst h
      exact reconcileReset_none hready.transaction (Or.inr ⟨rfl, rfl, rfl⟩)
    | underway transaction h =>
      exact Program.wp_conseq (reconcileReset_wp hready h) fun s' _ hdone => Or.inl hdone.2
    | done h => exact reconcileReset_none h.transaction (Or.inl h)
  | reset operationId =>
    rw [ResetRerun.program, Program.wp_bind]
    cases hs with
    | untouched h =>
      subst h
      apply reconcileReset_none hready.transaction
      rw [Program.wp_bind, Bool.not_false, Program.wp_whenever, if_pos rfl]
      exact Program.wp_conseq (begin_untouched hready haccepted operationId)
        fun s' _ hdone => Or.inl hdone
    | underway transaction h =>
      apply Program.wp_conseq (reconcileReset_wp hready h)
      rintro s' reconciled ⟨rfl, hdone⟩
      rw [Program.wp_bind, Bool.not_true, Program.wp_whenever, if_neg Bool.false_ne_true]
      exact Or.inl hdone
    | done h =>
      apply reconcileReset_none h.transaction
      rw [Program.wp_bind, Bool.not_false, Program.wp_whenever, if_pos rfl]
      exact Program.wp_conseq (begin_done hready h operationId) fun s' _ hdone => Or.inl hdone

/-- Wherever a reset and its later runs are cut, the disk is at one of the stages. -/
theorem resetStage_of_interrupted (hready : Ready paths dataDir disk targets)
    (haccepted : acceptedTargets paths dataDir disk = .ok targets) {operationId : String}
    (h : Program.Interrupted (beginResetTransactionUnlocked paths dataDir operationId)
      (ResetRerun.program paths dataDir) disk s) : ResetStage paths dataDir disk targets s := by
  apply Program.Interrupted.invariant _ _ h
  · intro s' hcut
    exact Program.crash_of_wp (begin_untouched hready haccepted operationId)
      (fun _ _ hdone => .done hdone) (fun _ _ hfalse => hfalse.elim) hcut
  · intro rerun s' s'' hs' hcut
    refine Program.crash_of_wp (rerun_wp hready haccepted rerun hs') ?_
      (fun _ _ hfalse => hfalse.elim) hcut
    rintro last _ (hdone | ⟨_, _, rfl⟩)
    · exact .done hdone
    · exact .untouched rfl

/-- The live store, the markers and the transaction are gone: of the directory, exactly the recorded
targets. -/
structure Reset (disk : ResetDisk) (targets : List ResetTarget) (s : ResetDisk) : Prop where
  entry : ∀ name, s.live.entry name =
    if name ∈ targets.map (·.name) then none else disk.live.entry name
  found : s.live.found = disk.live.found
  marker : s.marker = none
  openMarker : s.openMarker = none
  transaction : s.transaction = none
  restore : s.restoreTransaction = disk.restoreTransaction

lemma ResetDone.toReset (haccepted : Accepted paths dataDir disk targets)
    (h : ResetDone disk targets s) : Reset disk targets s where
  entry name := by
    split_ifs with hname
    · obtain ⟨target, htarget, rfl⟩ := List.mem_map.mp hname
      exact h.cleared target htarget
    · by_cases hbackups : name = "backups"
      · rw [hbackups, h.pared.backups]
      · cases hentry : disk.live.entry name with
        | none =>
          rcases h.pared.entry name with hgone | ⟨first, left, hfirst, _⟩
          · exact hgone
          · rw [hentry] at hfirst
            cases hfirst
        | some node =>
          rcases haccepted.entry name node hentry with hcontra | ⟨target, htarget, rfl, _⟩
          · exact absurd hcontra hbackups
          · exact absurd (List.mem_map_of_mem htarget) hname
  found := h.pared.found
  marker := h.marker
  openMarker := h.openMarker
  transaction := h.transaction
  restore := h.restore

lemma ResetStage.backups (h : ResetStage paths dataDir disk targets s) :
    s.live.entry "backups" = disk.live.entry "backups" := by
  cases h with
  | untouched h => rw [h]
  | underway transaction h => exact h.pared.backups
  | done h => exact h.pared.backups

/-- What holds of every disk that a reset and its later runs may leave. -/
structure Resumable (paths : PathApi) (dataDir : String) (disk : ResetDisk)
    (targets : List ResetTarget) (s : ResetDisk) : Prop where
  backups : s.live.entry "backups" = disk.live.entry "backups"
  recorded : ∀ transaction, s.transaction = some (.json transaction) →
    transaction.targets = targets ∨ transaction.targets = [] ∧ s.live.Cleared targets
  marker : s.transaction.isSome → disk.marker.isSome → s.marker = none →
    s.live.Cleared targets
  rerun : ∀ rerun : ResetRerun, ∃ s' reconciled,
    (rerun.program paths dataDir).run s = (s', .ok reconciled) ∧
      (Reset disk targets s' ∨ rerun = .reconcile ∧ s = disk ∧ s' = disk)

/-- The reset is refused, and nothing is written or removed. -/
def Refused (paths : PathApi) (dataDir operationId : String) (disk : ResetDisk) : Prop :=
  (∃ e, (beginResetTransactionUnlocked paths dataDir operationId).run disk = (disk, .error e)) ∧
    ∀ s, Program.CrashesTo (beginResetTransactionUnlocked paths dataDir operationId) disk s →
      s = disk

lemma refused_of_error {e : CheckpointError} {operationId : String}
    (h : acceptedTargets paths dataDir disk = .error e) :
    Refused paths dataDir operationId disk := by
  have hprogram : (beginResetTransactionUnlocked paths dataDir operationId).wp
      (fun s' => s' = disk) (fun _ _ => False) (fun s' _ => s' = disk) disk := by
    rw [beginResetTransactionUnlocked, Program.wp_bind, Program.wp_get, Program.wp_bind, h]
    rfl
  constructor
  · rcases Program.run_of_wp hprogram with ⟨_, _, _, hfalse⟩ | ⟨s', e', hrun, rfl⟩
    · exact hfalse.elim
    · exact ⟨e', hrun⟩
  · intro s hcut
    have hsame := Program.crash_of_wp hprogram (fun _ _ hfalse => hfalse.elim) (fun _ _ h => h) hcut
    exact hsame

lemma resumable_of_stage (hready : Ready paths dataDir disk targets)
    (haccepted : acceptedTargets paths dataDir disk = .ok targets)
    (hs : ResetStage paths dataDir disk targets s) : Resumable paths dataDir disk targets s where
  backups := hs.backups
  recorded := by
    intro transaction hfile
    cases hs with
    | untouched h =>
      rw [h, hready.transaction] at hfile
      cases hfile
    | underway other h =>
      rw [h.file] at hfile
      cases hfile
      exact h.recorded
    | done h =>
      rw [h.transaction] at hfile
      cases hfile
  marker := by
    intro hfile hbefore hmarker
    cases hs with
    | untouched h =>
      rw [h, hready.transaction] at hfile
      cases hfile
    | underway other h =>
      rcases h.marker with hsame | ⟨_, hcleared⟩
      · rw [← hsame, hmarker] at hbefore
        cases hbefore
      · exact hcleared
    | done h => exact h.cleared
  rerun := by
    intro rerun
    obtain ⟨s', reconciled, hrun, hends⟩ :=
      Program.returns_of_wp (rerun_wp hready haccepted rerun hs)
    exact ⟨s', reconciled, hrun, hends.imp_left fun hdone => hdone.toReset hready.toAccepted⟩

/-- A reset clears the live store and nothing else, wherever it and its later runs are cut, and a
directory that holds anything it does not know, or a target of another type, is refused untouched. -/
theorem reset_clears_live_only (paths : PathApi) (dataDir operationId : String) (disk : ResetDisk) :
    (∀ name node, disk.live.entry name = some node → UnsafeEntry name node →
      Refused paths dataDir operationId disk) ∧
    ∀ targets, acceptedTargets paths dataDir disk = .ok targets → disk.transaction = none →
      disk.restoreTransaction = false →
      (∃ s, (beginResetTransactionUnlocked paths dataDir operationId).run disk = (s, .ok ()) ∧
        Reset disk targets s) ∧
      ∀ s, Program.Interrupted (beginResetTransactionUnlocked paths dataDir operationId)
        (ResetRerun.program paths dataDir) disk s → Resumable paths dataDir disk targets s := by
  constructor
  · intro name node hentry hwrong
    obtain ⟨e, herror⟩ := acceptedTargets_error hentry hwrong
    exact refused_of_error herror
  · intro targets haccepted htransaction hrestore
    have hready : Ready paths dataDir disk targets :=
      ⟨accepted_of_ok haccepted, htransaction, hrestore⟩
    constructor
    · obtain ⟨s, _, hrun, hdone⟩ :=
        Program.returns_of_wp (begin_untouched hready haccepted operationId)
      exact ⟨s, hrun, hdone.toReset hready.toAccepted⟩
    · intro s hs
      exact resumable_of_stage hready haccepted (resetStage_of_interrupted hready haccepted hs)

/-- A store with its checkpoints, and with a file that is none of the engine's. -/
def storeEntries (name : String) (node : Node) (h : name ∉ ["backups", "data"]) :
    AList fun _ : String => Node where
  entries := [⟨"backups", .directory []⟩, ⟨name, node⟩, ⟨"data", .directory [("part", .file "")]⟩]
  nodupKeys := by
    simp only [List.mem_cons, List.not_mem_nil, or_false, not_or] at h
    simp [List.NodupKeys, List.keys, h.1, h.2, eq_comm]

def plainPaths : PathApi where
  resolve path := path
  isAbsolute _ := true
  join parent name := parent ++ "/" ++ name
  resolve_resolve _ := rfl
  isAbsolute_resolve _ := rfl

theorem reset_clears_live_only_store :
    Refused plainPaths "/maple/data" "reset"
      ⟨.directory (storeEntries "notes" (.file "") (by decide)), none, false, some "2", some "7"⟩ ∧
    ∀ s, Program.Interrupted (beginResetTransactionUnlocked plainPaths "/maple/data" "reset")
      (ResetRerun.program plainPaths "/maple/data")
      ⟨.directory (storeEntries "status" (.file "") (by decide)), none, false, some "2", some "7"⟩ s →
      Resumable plainPaths "/maple/data"
        ⟨.directory (storeEntries "status" (.file "") (by decide)), none, false, some "2", some "7"⟩
        [.data, .status] s := by
  constructor
  · apply (reset_clears_live_only plainPaths "/maple/data" "reset" _).1 "notes" (.file "") rfl
    intro target htarget
    cases htarget
  · exact ((reset_clears_live_only plainPaths "/maple/data" "reset" _).2 [.data, .status] rfl rfl
      rfl).2

end Maple.Checkpoint
