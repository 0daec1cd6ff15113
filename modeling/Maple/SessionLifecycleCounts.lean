import Maple.SessionLifecycleProtocol
import Maple.TransitionRun

/-! Whether the rows of a page report every click and error: they do while each run that starts finds
its own sink, or none, or one that has counted nothing. -/

namespace Maple.SessionLifecycle
open SessionStore TransitionRun

/-! ### What rows report -/

/-- A later row of a session reports no less. -/
def NoLess (before after : Shown) : Prop :=
  ∀ row row' clicks errors clicks' errors', before = .row row clicks errors →
    after = .row row' clicks' errors' → row.sessionId = row'.sessionId →
    row.counts.clickCount ≤ row'.counts.clickCount ∧ row.counts.errorCount ≤ row'.counts.errorCount

structure Reported (shown : List Shown) : Prop where
  /-- A row reports the clicks and errors it should. -/
  counts : ∀ row clicks errors, Shown.row row clicks errors ∈ shown →
    row.counts.clickCount = clicks ∧ row.counts.errorCount = errors
  grows : shown.Pairwise NoLess

/-- No row was posted that is beyond what its session is due now. -/
structure Rows (shown : List Shown) (due : ℕ → ℤ × ℤ) : Prop extends Reported shown where
  below : ∀ row clicks errors, Shown.row row clicks errors ∈ shown → (clicks, errors) ≤ due row.sessionId

variable {shown : List Shown} {owed owed' : ℕ → ℤ × ℤ}

lemma Rows.mono (h : Rows shown owed)
    (hle : ∀ row clicks errors, Shown.row row clicks errors ∈ shown →
      owed row.sessionId ≤ owed' row.sessionId) : Rows shown owed' where
  toReported := h.toReported
  below := by
    intro row clicks errors hmem
    exact (h.below row clicks errors hmem).trans (hle row clicks errors hmem)

lemma Rows.other (h : Rows shown owed) {entry : Shown}
    (hother : ∀ row clicks errors, entry ≠ .row row clicks errors) :
    Rows (shown ++ [entry]) owed where
  counts := by
    intro row clicks errors hmem
    rcases List.mem_append.mp hmem with hmem | hmem
    · exact h.counts row clicks errors hmem
    · exact absurd (List.mem_singleton.mp hmem).symm (hother row clicks errors)
  grows := by
    rw [List.pairwise_append]
    refine ⟨h.grows, List.pairwise_singleton _ _, ?_⟩
    intro before _ after hafter row row' clicks errors clicks' errors' _ heq
    rw [List.mem_singleton.mp hafter] at heq
    exact absurd heq (hother row' clicks' errors')
  below := by
    intro row clicks errors hmem
    rcases List.mem_append.mp hmem with hmem | hmem
    · exact h.below row clicks errors hmem
    · exact absurd (List.mem_singleton.mp hmem).symm (hother row clicks errors)

/-- A row that reports what is due. -/
lemma Rows.row (h : Rows shown owed) {row : SessionMetaRow} {sessionId : ℕ}
    (hid : row.sessionId = sessionId)
    (hcounts : (row.counts.clickCount, row.counts.errorCount) = owed sessionId) :
    Rows (shown ++ [.row row (owed sessionId).1 (owed sessionId).2]) owed where
  counts := by
    intro found clicks errors hmem
    rcases List.mem_append.mp hmem with hmem | hmem
    · exact h.counts found clicks errors hmem
    · obtain ⟨rfl, rfl, rfl⟩ := Shown.row.inj (List.mem_singleton.mp hmem)
      rw [← hcounts]
      exact ⟨rfl, rfl⟩
  grows := by
    rw [List.pairwise_append]
    refine ⟨h.grows, List.pairwise_singleton _ _, ?_⟩
    intro before hbefore after hafter found row' clicks errors clicks' errors' hfound heq hsame
    rw [List.mem_singleton.mp hafter] at heq
    obtain ⟨rfl, rfl, rfl⟩ := Shown.row.inj heq
    rw [hfound] at hbefore
    obtain ⟨rfl, rfl⟩ := h.counts found clicks errors hbefore
    have hbelow := h.below found _ _ hbefore
    rw [hsame, hid, ← hcounts] at hbelow
    exact ⟨hbelow.1, hbelow.2⟩
  below := by
    intro found clicks errors hmem
    rcases List.mem_append.mp hmem with hmem | hmem
    · exact h.below found clicks errors hmem
    · obtain ⟨rfl, rfl, rfl⟩ := Shown.row.inj (List.mem_singleton.mp hmem)
      rw [hid]

/-! ### The invariant -/

/-- A sink that can be the baseline of a run: its own one, or one that has counted nothing. -/
def Sink.fits (sink : Sink) (sessionId : ℕ) : Prop :=
  sink.sessionId = sessionId ∨ (sink.clickCount = 0 ∧ sink.errorCount = 0)

/-- The baseline of the run that is live: with what its sink has counted since, it is what is due. -/
structure Baseline (p : Page) : Prop where
  ofSink : ∀ sink ∈ p.sink, sink.sessionId = p.current.id →
    p.sinkClickCountAtStart ≤ sink.clickCount ∧ p.sinkErrorCountAtStart ≤ sink.errorCount ∧
      (p.clickCountBase + (sink.clickCount - p.sinkClickCountAtStart),
        p.errorCountBase + (sink.errorCount - p.sinkErrorCountAtStart)) = due p p.current.id
  ofNone : (∀ sink ∈ p.sink, sink.sessionId ≠ p.current.id) →
    p.sinkClickCountAtStart = 0 ∧ p.sinkErrorCountAtStart = 0 ∧
      (p.clickCountBase, p.errorCountBase) = due p p.current.id

variable {p : Page} {m : Moment}

lemma Baseline.counts (h : Baseline p) (hown : p.hooks.clicksSinceStart = false)
    {record : SessionRecord} (hid : record.id = p.current.id) :
    ((countsOf p record m).clickCount, (countsOf p record m).errorCount) = due p p.current.id := by
  unfold countsOf
  dsimp only
  rw [hown]
  by_cases hsink : ∀ sink ∈ p.sink, sink.sessionId ≠ p.current.id
  · have hnone : p.sink.filter (fun sink => sink.sessionId = record.id) = none := by
      rw [Option.filter_eq_none_iff]
      intro sink hmem
      simpa [hid] using hsink sink hmem
    rw [hnone]
    simpa using (h.ofNone hsink).2.2
  · push Not at hsink
    obtain ⟨sink, hmem, hsinkId⟩ := hsink
    have hsome : p.sink.filter (fun sink => sink.sessionId = record.id) = some sink := by
      rw [show p.sink = some sink from hmem]
      simp [hid, hsinkId]
    obtain ⟨hclicks, herrors, hdue⟩ := h.ofSink sink hmem hsinkId
    rw [hsome, ← hdue]
    simp only [Option.map_some, Option.getD_some, Bool.false_eq_true, if_false, Prod.mk.injEq]
    omega

structure Counted (p : Page) : Prop where
  own : p.hooks.clicksSinceStart = false
  plain : p.hooks.onPause = false
  unpaused : p.paused = false
  known : ∀ record, Holds p.session record → record.id < p.session.minted
  unused : ∀ sessionId, p.session.minted ≤ sessionId → p.firstRun sessionId = none
  unstarted : p.started = false → ∀ sessionId, p.firstRun sessionId = none
  untallied : ∀ sessionId, p.firstRun sessionId = none → p.tally sessionId = (0, 0)
  posted : ∀ row clicks errors, Shown.row row clicks errors ∈ p.shown →
    (p.firstRun row.sessionId).isSome = true
  rows : Rows p.shown (due p)
  live : p.running = true → (p.firstRun p.current.id).isSome = true ∧ Baseline p
  idle : p.running = false → p.stopped = false → ∀ record, Holds p.session record →
    (p.firstRun record.id).isSome = true →
    (record.clickCount.getD 0, record.errorCount.getD 0) = due p record.id

lemma Posted.due {status : Status} {w' : World} {row : SessionMetaRow}
    (h : Posted p status m w' row) (hbase : Baseline p)
    (hown : p.hooks.clicksSinceStart = false) :
    (row.counts.clickCount, row.counts.errorCount) = due p p.current.id := by
  obtain ⟨record, hid, hcounts⟩ := h.counts
  rw [hcounts]
  exact hbase.counts hown hid

/-! ### Runs -/

lemma Counted.current_lt (h : Counted p) (hcore : Core p)
    (hknown : p.running = true ∨ p.listens = true) : p.current.id < p.session.minted := by
  obtain ⟨record, hholds, hid⟩ := hcore.ready hknown
  rw [← hid]
  exact h.known record hholds

lemma Counted.post (h : Counted p) (hcore : Core p) (hrunning : p.running = true)
    (status : Status) (keepalive : Bool) (m : Moment) : Counted (post p status keepalive m) := by
  obtain ⟨record, hholds, hid⟩ := hcore.ready (.inl hrunning)
  obtain ⟨w', row, hposted, hpost⟩ := post_spec hholds hid status keepalive m
  obtain ⟨after, hafter, hafterId, -⟩ := hposted.holds
  obtain ⟨hfirst, hbase⟩ := h.live hrunning
  rw [hpost]
  refine
    { h with
      known := ?known, unused := ?unused, posted := ?posted
      rows := h.rows.row hposted.sessionId (hposted.due hbase h.own)
      live := fun _ => ⟨hfirst, hbase.ofSink, hbase.ofNone⟩
      idle := ?idle }
  case known =>
    intro found hfound
    rw [hafter.unique hfound, hafterId, hposted.minted]
    exact h.current_lt hcore (.inl hrunning)
  case unused =>
    intro sessionId hle
    rw [hposted.minted] at hle
    exact h.unused sessionId hle
  case posted =>
    intro found clicks errors hmem
    rcases List.mem_append.mp hmem with hmem | hmem
    · exact h.posted found clicks errors hmem
    · obtain ⟨rfl, -, -⟩ := Shown.row.inj (List.mem_singleton.mp hmem)
      rw [hposted.sessionId]
      exact hfirst
  case idle =>
    intro hout
    exact absurd (hrunning.symm.trans hout) (by simp)

/-- A run that is counted to its end leaves what is due on the record. -/
lemma Counted.endRun (h : Counted p) (hcore : Core p) (hrunning : p.running = true)
    {flush : Bool} (hflush : flush = true ∨ p.stopped = true) (keepalive : Bool) (m : Moment) :
    Counted (endRun p flush keepalive m) := by
  obtain ⟨hfirst, hbase⟩ := h.live hrunning
  have hsuspend (row : SessionMetaRow) (clicks errors : ℤ) :
      Shown.onSuspend flush keepalive ≠ .row row clicks errors := by simp
  rcases endRun_spec hcore hrunning flush keepalive m with
    ⟨w', row, timeouts, -, -, hposted, heq⟩ | ⟨timeouts, hquiet, heq⟩
  · obtain ⟨after, hafter, hafterId, hclicks, herrors⟩ := hposted.holds
    have hdue := hposted.due hbase h.own
    rw [heq]
    refine
      { h with
        unpaused := rfl, known := ?known, unused := ?unused, posted := ?posted
        rows := (h.rows.row hposted.sessionId hdue).other hsuspend
        live := by simp [suspended], idle := ?idle }
    case known =>
      intro found hfound
      rw [hafter.unique hfound, hafterId]
      simp only [suspended]
      rw [hposted.minted]
      exact h.current_lt hcore (.inl hrunning)
    case unused =>
      intro sessionId hle
      simp only [suspended] at hle ⊢
      rw [hposted.minted] at hle
      exact h.unused sessionId hle
    case posted =>
      intro found clicks errors hmem
      rcases List.mem_append.mp hmem with hmem | hmem
      · rcases List.mem_append.mp hmem with hmem | hmem
        · exact h.posted found clicks errors hmem
        · obtain ⟨rfl, -, -⟩ := Shown.row.inj (List.mem_singleton.mp hmem)
          simp only [suspended]
          rw [hposted.sessionId]
          exact hfirst
      · exact absurd (List.mem_singleton.mp hmem).symm (hsuspend found clicks errors)
    case idle =>
      intro _ _ found hfound _
      rw [hafter.unique hfound, hafterId, hclicks, herrors]
      exact hdue
  · have hstopped : p.stopped = true := by
      rcases hquiet with rfl | hpaused
      · simpa using hflush
      · exact absurd (hpaused.symm.trans h.unpaused) (by simp)
    rw [heq]
    refine
      { h with
        unpaused := rfl, posted := ?posted
        rows := ?rows
        live := by simp [suspended], idle := ?idle }
    case posted =>
      intro found clicks errors hmem
      simp only [suspended, List.append_nil] at hmem
      rcases List.mem_append.mp hmem with hmem | hmem
      · exact h.posted found clicks errors hmem
      · exact absurd (List.mem_singleton.mp hmem).symm (hsuspend found clicks errors)
    case rows =>
      simp only [suspended, List.append_nil]
      exact h.rows.other hsuspend
    case idle =>
      intro _ hnot
      exact absurd (hstopped.symm.trans hnot) (by simp)

lemma Counted.ended (h : Counted p) (hcore : Core p) {flush : Bool}
    (hflush : flush = true ∨ p.stopped = true) (keepalive : Bool) (m : Moment) :
    Counted (SessionLifecycle.endRun p flush keepalive m) := by
  cases hrunning : p.running with
  | true => exact h.endRun hcore hrunning hflush keepalive m
  | false =>
    rw [endRun_idle hrunning]
    exact h

/-- The session of a run that starts has the counts of its record: it is what is due. -/
lemma due_startRun (h : Counted p) (hrunning : p.running = false) (hstopped : p.stopped = false)
    {record : SessionRecord} (hholds : Holds p.session record) :
    (p.firstRun record.id).getD (record.clickCount.getD 0, record.errorCount.getD 0) +
      p.tally record.id = (record.clickCount.getD 0, record.errorCount.getD 0) := by
  cases hfirst : p.firstRun record.id with
  | none =>
    rw [h.untallied _ hfirst]
    simp
  | some first =>
    have hidle := h.idle hrunning hstopped record hholds (by simp [hfirst])
    rw [hidle, due, hfirst]
    rfl

lemma Counted.startHeartbeat (h : Counted p) (hcore : Core p) : Counted (startHeartbeat p) := by
  rw [startHeartbeat_eq hcore.intervals]
  exact { h with live := fun hrunning => ⟨(h.live hrunning).1, (h.live hrunning).2.ofSink,
    (h.live hrunning).2.ofNone⟩ }

lemma Counted.begun (h : Counted p) (hrunning : p.running = false) (hstopped : p.stopped = false)
    (hstarted : p.started = true) {record : SessionRecord} (hholds : Holds p.session record)
    (hid : record.id = p.current.id) (hfits : ∀ sink ∈ p.sink, sink.fits p.current.id) :
    Counted (begun p record) := by
  have hdue := due_startRun h hrunning hstopped hholds
  have hcurrent : due (SessionLifecycle.begun p record) p.current.id =
      (record.clickCount.getD 0, record.errorCount.getD 0) := by
    rw [← hdue, ← hid]
    simp [due, SessionLifecycle.begun, rebaseCounts]
  have hother (sessionId : ℕ) (hne : sessionId ≠ record.id) :
      (SessionLifecycle.begun p record).firstRun sessionId = p.firstRun sessionId :=
    Function.update_of_ne hne _ _
  have hstart (row : SessionMetaRow) (clicks errors : ℤ) :
      Shown.onStart record.id ≠ .row row clicks errors := by simp
  refine
    { h with
      unused := ?unused, unstarted := ?unstarted, untallied := ?untallied, posted := ?posted
      rows := ?rows, live := ?live, idle := by simp [SessionLifecycle.begun, rebaseCounts] }
  case unused =>
    intro sessionId hle
    have hlt := h.known record hholds
    rw [hother sessionId (by
      rintro rfl
      exact absurd hle (by simpa [SessionLifecycle.begun, rebaseCounts] using hlt))]
    exact h.unused sessionId hle
  case unstarted =>
    intro hnot
    exact absurd (hstarted.symm.trans hnot) (by simp)
  case untallied =>
    intro sessionId hnone
    by_cases hsession : sessionId = record.id
    · rw [hsession] at hnone
      simp [SessionLifecycle.begun] at hnone
    · rw [hother sessionId hsession] at hnone
      exact h.untallied sessionId hnone
  case posted =>
    intro row clicks errors hmem
    by_cases hsession : row.sessionId = record.id
    · simp [SessionLifecycle.begun, hsession]
    · rw [hother _ hsession]
      rcases List.mem_append.mp hmem with hmem | hmem
      · exact h.posted row clicks errors hmem
      · exact absurd (List.mem_singleton.mp hmem).symm (hstart row clicks errors)
  case rows =>
    refine Rows.other (h.rows.mono ?_) hstart
    intro row clicks errors hmem
    by_cases hsession : row.sessionId = record.id
    · obtain ⟨first, hfirst⟩ := Option.isSome_iff_exists.mp (h.posted row clicks errors hmem)
      rw [hsession] at hfirst ⊢
      simp [due, SessionLifecycle.begun, hfirst, rebaseCounts]
    · rw [due, due, hother _ hsession]
      exact le_refl _
  case live =>
    intro _
    refine ⟨?_, ?ofSink, ?ofNone⟩
    · simp [SessionLifecycle.begun, rebaseCounts, ← hid]
    case ofSink =>
      intro sink hsink hmatch
      have hsome : p.sink = some sink := hsink
      rw [show (SessionLifecycle.begun p record).current = p.current from rfl, hcurrent]
      simp [SessionLifecycle.begun, rebaseCounts, hsome]
    case ofNone =>
      intro hnone
      rw [show (SessionLifecycle.begun p record).current = p.current from rfl, hcurrent]
      cases hsink : p.sink with
      | none => simp [SessionLifecycle.begun, rebaseCounts, hsink]
      | some sink =>
        have hne : sink.sessionId ≠ p.current.id := hnone sink hsink
        obtain ⟨hclicks, herrors⟩ := (hfits sink hsink).resolve_left hne
        simp [SessionLifecycle.begun, rebaseCounts, hsink, hclicks, herrors]

lemma Counted.startRun (h : Counted p) (hinv : Inv p) (hstarted : p.started = true)
    (hfits : p.running = false → p.stopped = false → ∀ sink ∈ p.sink, sink.fits p.current.id)
    (m : Moment) : Counted (startRun p m) := by
  rcases startRun_cases hinv hstarted m with heq | ⟨hstopped, hrunning, record, hholds, hid, heq⟩
  · rw [heq]
    exact h
  · have hlistens := (listens_iff p).mpr ⟨hstarted, hstopped⟩
    have hbegun := hinv.begun hlistens hrunning hholds hid
    have hcounted := h.begun hrunning hstopped hstarted hholds hid (hfits hrunning hstopped)
    have hactive : (SessionLifecycle.begun p record).paused = true → Status.active = .ended := by
      intro hpaused
      exact absurd (hpaused.symm.trans hcounted.unpaused) (by simp)
    rw [heq]
    exact (hcounted.post hbegun.toCore rfl .active false m).startHeartbeat
      (hbegun.post rfl .active hactive false m).toCore

/-! ### Rotations -/

/-- A session module that holds the same session with the same counts. -/
lemma Counted.session (h : Counted p) {w : World} {record after : SessionRecord}
    (hholds : Holds p.session record) (hafter : Holds w after) (hsame : SameCounts record after)
    (hminted : p.session.minted ≤ w.minted) : Counted { p with session := w } :=
  { h with
    known := by
      intro found hfound
      rw [hafter.unique hfound, hsame.id]
      exact (h.known record hholds).trans_le hminted
    unused := fun sessionId hle => h.unused sessionId (hminted.trans hle)
    live := fun hrunning => ⟨(h.live hrunning).1, (h.live hrunning).2.ofSink,
      (h.live hrunning).2.ofNone⟩
    idle := by
      intro hrunning hstopped found hfound hfirst
      rw [hafter.unique hfound, hsame.id] at hfirst ⊢
      rw [hsame.clickCount, hsame.errorCount]
      exact h.idle hrunning hstopped record hholds hfirst }

/-- Where no run is live the session module may go on to a session that has not been run. -/
lemma Counted.unrun (h : Counted p) (hrunning : p.running = false) {w : World}
    {last : SessionRecord} (hlast : Holds w last) (hlt : last.id < w.minted)
    (hunused : ∀ sessionId, w.minted ≤ sessionId ∨ sessionId = last.id →
      p.firstRun sessionId = none) : Counted { p with session := w } :=
  { h with
    known := by
      intro found hfound
      rw [hlast.unique hfound]
      exact hlt
    unused := fun sessionId hle => hunused sessionId (.inl hle)
    live := fun hrunning' => absurd (hrunning'.symm.trans hrunning) (by simp)
    idle := by
      intro _ _ found hfound hfirst
      rw [hlast.unique hfound, hunused last.id (.inr rfl)] at hfirst
      cases hfirst }

lemma Counted.rotated (h : Counted p) (hinv : Inv p) {w : World} {record next : SessionRecord}
    {rest : List SessionRecord} (hholds : Holds p.session record) (hsame : Holds w record)
    (hrotations : w.rotations = [⟨0, p.session.minted, next :: rest⟩])
    (hminted : w.minted = p.session.minted + 1)
    (hfresh : ∀ written ∈ next :: rest, Minted p.session written) (m : Moment) :
    Counted (rotated { p with session := w } record next m) := by
  have hcounted : Counted { p with session := w } :=
    h.session hholds hsame ⟨rfl, rfl, rfl⟩ (by omega)
  cases hlistens : p.listens with
  | true =>
    have hid := hinv.ready_of_holds hholds (.inr hlistens)
    have hcore : Core { p with session := w } :=
      { hinv.toCore with ready := fun _ => ⟨record, hsame, hid⟩ }
    have hended := hcounted.ended hcore (.inl rfl) false m
    obtain ⟨-, hran, hout⟩ := hcore.ended ⟨record, hsame, hid⟩ true false m
    obtain ⟨last, hlast, hlastHeld, -, hdone⟩ :=
      finishRotation_holds (hran.rotations.trans hrotations) [m.env.write, m.env.writeAgain]
    have hlastId := (hfresh last hlast).id
    have hminted' := hdone.trans (hran.minted.trans hminted)
    have hunrun := hended.unrun hout hlastHeld (by omega) (by
      intro sessionId hunused
      rw [hran.firstRun]
      rcases hunused with hle | rfl
      · exact h.unused sessionId (by omega)
      · exact h.unused _ hlastId.ge)
    unfold SessionLifecycle.rotated
    rw [@onSessionRotate_heard { p with session := w } hlistens _ hid]
    exact { hunrun with live := by simp [hout] }
  | false =>
    have hrunning : p.running = false := by
      by_contra hrunning
      rw [Bool.not_eq_false] at hrunning
      exact absurd ((hinv.live hrunning).symm.trans hlistens) (by simp)
    obtain ⟨last, hlast, hlastHeld, -, hdone⟩ :=
      finishRotation_holds hrotations [m.env.write, m.env.writeAgain]
    have hlastId := (hfresh last hlast).id
    unfold SessionLifecycle.rotated
    rw [@onSessionRotate_deaf { p with session := w } hlistens]
    apply h.unrun hrunning hlastHeld (by omega)
    intro sessionId hunused
    rcases hunused with hle | rfl
    · exact h.unused sessionId (by omega)
    · exact h.unused _ hlastId.ge

lemma Counted.withSession (h : Counted p) (hinv : Inv p) {call : World → World}
    (hcall : SessionCall m.env call) : Counted (withSession p call m) := by
  rcases hinv.ground with ⟨record, hholds⟩ | ⟨hstarted, hopening⟩
  · rcases withSession_held hcall hholds hinv.rotations with
      ⟨w', after, heq, hafter, hsame, -, hminted⟩ |
      ⟨w', next, rest, heq, hstill, hrotations, hminted, hfresh⟩
    · rw [heq]
      exact h.session hholds hafter hsame hminted.ge
    · rw [heq]
      exact h.rotated hinv hholds hstill hrotations hminted hfresh m
  · obtain ⟨w', after, heq, hafter, hlt, -⟩ :=
      withSession_opening hcall hstarted hopening hinv.rotations
    have hrunning : p.running = false := by
      by_contra hrunning
      rw [Bool.not_eq_false] at hrunning
      have hlistens := (listens_iff p).mp (hinv.live hrunning)
      exact absurd (hlistens.1.symm.trans hstarted) (by simp)
    rw [heq]
    exact h.unrun hrunning hafter hlt fun sessionId _ => h.unstarted hstarted sessionId

/-! ### The event sink -/

/-- Something else about the sink than its counts and its session has changed. -/
lemma Counted.resink (h : Counted p) {sink : Sink} (hsink : p.sink = some sink)
    (sink' : Sink) (hid : sink'.sessionId = sink.sessionId)
    (hclicks : sink'.clickCount = sink.clickCount) (herrors : sink'.errorCount = sink.errorCount) :
    Counted { p with sink := some sink' } := by
  refine { h with live := fun hrunning => ⟨(h.live hrunning).1, ?ofSink, ?ofNone⟩ }
  case ofSink =>
    intro found hfound hmatch
    obtain rfl := Option.some.inj hfound
    rw [hclicks, herrors]
    exact (h.live hrunning).2.ofSink sink hsink (hid.symm.trans hmatch)
  case ofNone =>
    intro hnone
    apply (h.live hrunning).2.ofNone
    intro found hfound
    obtain rfl := Option.some.inj (hsink.symm.trans hfound)
    rw [← hid]
    exact hnone sink' rfl

/-- A sink that is not of the live run counts something, which is nobody's due. -/
lemma Counted.countOther (h : Counted p) {sink : Sink} (hsink : p.sink = some sink)
    (hother : p.running = true → p.current.id ≠ sink.sessionId) (sink' : Sink)
    (hid : sink'.sessionId = sink.sessionId) : Counted { p with sink := some sink' } := by
  refine { h with live := fun hrunning => ⟨(h.live hrunning).1, ?ofSink, ?ofNone⟩ }
  case ofSink =>
    intro found hfound hmatch
    obtain rfl := Option.some.inj hfound
    exact absurd (hid.symm.trans hmatch).symm (hother hrunning)
  case ofNone =>
    intro _
    apply (h.live hrunning).2.ofNone
    intro found hfound
    obtain rfl := Option.some.inj (hsink.symm.trans hfound)
    exact (hother hrunning).symm

/-- The sink of the live run counts clicks or errors, and they are due. -/
lemma Counted.countOwn (h : Counted p) {sink : Sink} (hsink : p.sink = some sink)
    (hrunning : p.running = true) (hown : p.current.id = sink.sessionId) (clicks errors : ℕ) :
    Counted { p with
      sink := some { sink with
        clickCount := sink.clickCount + clicks, errorCount := sink.errorCount + errors }
      tally := Function.update p.tally sink.sessionId
        ((p.tally sink.sessionId).1 + clicks, (p.tally sink.sessionId).2 + errors) } := by
  obtain ⟨hfirst, hbase⟩ := h.live hrunning
  obtain ⟨hclicks, herrors, hdue⟩ := hbase.ofSink sink hsink hown.symm
  set tally := Function.update p.tally sink.sessionId
    ((p.tally sink.sessionId).1 + (clicks : ℤ), (p.tally sink.sessionId).2 + (errors : ℤ))
  have hself : tally p.current.id =
      ((p.tally p.current.id).1 + clicks, (p.tally p.current.id).2 + errors) := by
    rw [hown]
    exact Function.update_self ..
  have hother (sessionId : ℕ) (hne : sessionId ≠ p.current.id) :
      tally sessionId = p.tally sessionId := by
    rw [hown] at hne
    exact Function.update_of_ne hne _ _
  refine
    { h with
      untallied := ?untallied, rows := ?rows, live := fun _ => ⟨hfirst, ?ofSink, ?ofNone⟩
      idle := fun hout => absurd (hrunning.symm.trans hout) (by simp) }
  case untallied =>
    intro sessionId hnone
    have hne : sessionId ≠ p.current.id := by
      rintro rfl
      rw [show p.firstRun _ = none from hnone] at hfirst
      cases hfirst
    exact (hother sessionId hne).trans (h.untallied sessionId hnone)
  case rows =>
    apply h.rows.mono
    intro row shownClicks shownErrors _
    show (p.firstRun row.sessionId).getD (0, 0) + p.tally row.sessionId ≤
      (p.firstRun row.sessionId).getD (0, 0) + tally row.sessionId
    by_cases hsession : row.sessionId = p.current.id
    · rw [hsession, hself]
      refine ⟨?_, ?_⟩ <;> simp
    · rw [hother _ hsession]
  case ofSink =>
    intro found hfound _
    obtain rfl := Option.some.inj hfound
    refine ⟨by dsimp only; omega, by dsimp only; omega, ?_⟩
    show _ = (p.firstRun p.current.id).getD (0, 0) + tally p.current.id
    rw [due] at hdue
    rw [hself]
    simp only [Prod.ext_iff, Prod.fst_add, Prod.snd_add] at hdue ⊢
    omega
  case ofNone =>
    intro hnone
    exact absurd hown.symm (hnone { sink with
      clickCount := sink.clickCount + clicks, errorCount := sink.errorCount + errors } rfl)

lemma Counted.capture (h : Counted p) (hinv : Inv p) (ev : EventType) :
    Counted (capture p ev m) := by
  unfold SessionLifecycle.capture
  split
  · exact h
  · rename_i sink hsink
    dsimp only
    cases ev with
    | navigation url =>
      have hviewed := h.resink hsink { sink with pageViews := sink.pageViews + 1 } rfl rfl rfl
      exact hviewed.withSession { hinv with } (noteNavigation_call url m.env)
    | click =>
      dsimp only
      split_ifs with hlive
      · simp only [Bool.and_eq_true, decide_eq_true_eq] at hlive
        simpa using h.countOwn hsink hlive.1 hlive.2 1 0
      · refine h.countOther hsink ?_ { sink with clickCount := sink.clickCount + 1 } rfl
        simpa using hlive
    | error =>
      dsimp only
      split_ifs with hlive
      · simp only [Bool.and_eq_true, decide_eq_true_eq] at hlive
        simpa using h.countOwn hsink hlive.1 hlive.2 0 1
      · refine h.countOther hsink ?_ { sink with errorCount := sink.errorCount + 1 } rfl
        simpa using hlive
    | input | custom | other => exact h

lemma Counted.markActivity (h : Counted p) (hinv : Inv p) (ev : EventType) :
    Counted (markActivity p ev m).1 := by
  unfold SessionLifecycle.markActivity
  split_ifs
  · exact h.withSession hinv (touchSession_call m.env)
  · exact h

/-- The session an event belongs to is that of the run that is live. -/
lemma markActivity_current (hinv : Inv p) {ev : EventType} {sessionId : ℕ}
    (hmarked : (markActivity p ev m).2 = some sessionId)
    (hrunning : (markActivity p ev m).1.running = true) :
    sessionId = (markActivity p ev m).1.current.id := by
  have hinv' := (inv_closed m).markActivity hinv ev
  obtain ⟨record, hholds, hid⟩ := hinv'.ready (.inl hrunning)
  have hpeek : peekSession (SessionLifecycle.markActivity p ev m).1 m = some record :=
    hholds.read _
  rw [← hid]
  unfold SessionLifecycle.markActivity at hmarked hpeek
  split_ifs at hmarked hpeek
  · dsimp only at hmarked hpeek
    rw [hpeek] at hmarked
    exact (Option.some.inj hmarked).symm
  · dsimp only at hmarked hpeek
    rw [hpeek] at hmarked
    obtain ⟨found, hfound, rfl⟩ := Option.map_eq_some_iff.mp hmarked
    rw [Option.some.inj (Option.eq_some_of_filter_eq_some hfound)]

lemma Counted.emitNew (h : Counted p) (hinv : Inv p) (ev : EventType) :
    Counted (emitNew p ev m) := by
  have hmarked := h.markActivity hinv (m := m) ev
  unfold SessionLifecycle.emitNew
  dsimp only
  split_ifs
  · exact hmarked.capture ((inv_closed m).markActivity hinv ev) ev
  · exact hmarked

/-- A sink is only replaced by one of the session that is run, and then it begins from nothing. -/
lemma Counted.startEventSink (h : Counted p) (hinv : Inv p) {sessionId : ℕ}
    (hcurrent : p.running = true → sessionId = p.current.id) (href : String) :
    Counted (startEventSink p sessionId href m) := by
  unfold SessionLifecycle.startEventSink
  split_ifs with hsame
  · exact h
  · have hnone : ∀ sink ∈ p.sink, sink.sessionId ≠ sessionId := by
      intro sink hmem
      rw [show p.sink = some sink from hmem] at hsame
      simpa using hsame
    have hnew : Counted { p with sink := some { sessionId } } := by
      refine { h with live := fun hrunning => ⟨(h.live hrunning).1, ?ofSink, ?ofNone⟩ }
      case ofSink =>
        intro sink hsink _
        obtain rfl := Option.some.inj hsink
        obtain ⟨hclicks, herrors, hdue⟩ := (h.live hrunning).2.ofNone (by
          rw [← hcurrent hrunning]
          exact hnone)
        refine ⟨hclicks.le, herrors.le, ?_⟩
        dsimp only
        rw [hclicks, herrors]
        simpa [due] using hdue
      case ofNone =>
        intro hnot
        exact absurd (hcurrent hrunning) (hnot _ rfl)
    exact hnew.emitNew { hinv with } (.navigation href)

lemma Counted.emit (h : Counted p) (hinv : Inv p) (ev : EventType) (href : String) :
    Counted (emit p ev href m) := by
  unfold SessionLifecycle.emit
  split
  · exact h
  · dsimp only
    have hmarked := h.markActivity hinv (m := m) ev
    have hinvMarked := (inv_closed m).markActivity hinv ev
    split
    · exact hmarked
    · rename_i sessionId hsession
      split_ifs
      · exact hmarked.capture hinvMarked ev
      · have hnew := hmarked.startEventSink (m := m) hinvMarked
          (markActivity_current hinv hsession) href
        have hinvNew := (inv_closed m).startEventSink hinvMarked sessionId href
        cases ev with
        | navigation url => exact hnew
        | click => exact hnew.emitNew hinvNew .click
        | input => exact hnew.emitNew hinvNew .input
        | custom => exact hnew.emitNew hinvNew .custom
        | error => exact hnew.emitNew hinvNew .error
        | other => exact hnew.emitNew hinvNew .other

/-! ### Steps -/

/-- The session a step starts a run of, if it starts one. -/
def startsRun (p : Page) (l : Step) (m : Moment) : Option ℕ :=
  match l with
  | .start =>
    if p.started then none
    else (peekSession (withSession p (fun w => getSession w 0 m.env) m) m).map SessionRecord.id
  | .visible =>
    if p.listens && !isSessionExpired (liveRecord p m) m.env.now && !p.running then
      some p.current.id
    else none
  | .microtask =>
    if p.microtasks = 0 || p.stopped || p.running then none else some p.current.id
  | _ => none

/-- A run starts where the published sink, if there is one, is its own or has counted nothing. -/
def Sound (p : Page) (entry : Step × Moment) : Prop :=
  ∀ sessionId ∈ startsRun p entry.1 entry.2, ∀ sink ∈ p.sink, sink.fits sessionId

instance (sink : Sink) (sessionId : ℕ) : Decidable (sink.fits sessionId) :=
  inferInstanceAs (Decidable (_ ∨ _))

instance (p : Page) (entry : Step × Moment) : Decidable (Sound p entry) :=
  inferInstanceAs (Decidable (∀ sessionId ∈ startsRun p entry.1 entry.2, ∀ sink ∈ p.sink,
    sink.fits sessionId))

lemma Counted.lose (h : Counted p) (hinv : Inv p) {l : SessionStore.Step}
    (hkept : ∀ record, Holds p.session record → Holds (SessionStore.step p.session l) record)
    (hcopies : (SessionStore.step p.session l).copies = p.session.copies)
    (hminted : (SessionStore.step p.session l).minted = p.session.minted) :
    Counted { p with session := SessionStore.step p.session l } := by
  rcases hinv.ground with ⟨record, hholds⟩ | ⟨hstarted, hopening⟩
  · exact h.session hholds (hkept record hholds) ⟨rfl, rfl, rfl⟩ hminted.ge
  · have hnone (found : SessionRecord) (hfound : Holds (SessionStore.step p.session l) found) :
        False := by
      have hephemeral := hfound.ephemeral
      rw [hcopies, hopening.copy] at hephemeral
      cases hephemeral
    exact
      { h with
        known := fun found hfound => (hnone found hfound).elim
        unused := fun sessionId _ => h.unstarted hstarted sessionId
        live := fun hrunning => absurd (hrunning.symm.trans (hinv.out_of_unstarted hstarted))
          (by simp)
        idle := fun _ _ found hfound => (hnone found hfound).elim }

lemma Counted.start (h : Counted p) (hinv : Inv p) (hsound : Sound p (.start, m)) :
    Counted (startSessionLifecycle p m) := by
  unfold startSessionLifecycle
  split_ifs with hstarted
  · exact h
  · rw [Bool.not_eq_true] at hstarted
    have hcall := getSession_call m.env
    obtain ⟨w', after, heq, hafter, hrotations⟩ := hinv.withSession_unstarted hstarted hcall
    have hcounted := h.withSession hinv hcall
    have hfits : ∀ sink ∈ p.sink, sink.fits after.id := by
      apply hsound
      unfold startsRun
      dsimp only
      rw [hstarted, heq]
      exact Option.map_eq_some_iff.mpr ⟨after, hafter.read _, rfl⟩
    have hpeek : peekSession { p with session := w' } m = some after := hafter.read _
    have hrunning := hinv.out_of_unstarted hstarted
    rw [heq] at hcounted
    dsimp only
    rw [heq, hpeek]
    apply Counted.startRun
    case hinv => exact hinv.startedOn hstarted hafter hrotations
    case hstarted => rfl
    case hfits => exact fun _ _ => hfits
    case h =>
      exact
        { hcounted with
          unstarted := by simp
          live := by simp [hrunning] }

lemma Counted.step (h : Counted p) (hinv : Inv p) (l : Step) (m : Moment)
    (hsound : Sound p (l, m)) : Counted (step p l m) := by
  cases l with
  | start => exact h.start hinv hsound
  | hidden =>
    have hhidden : Counted { p with visible := false } :=
      { h with live := fun hrunning => ⟨(h.live hrunning).1, (h.live hrunning).2.ofSink,
          (h.live hrunning).2.ofNone⟩ }
    have hcore : Core { p with visible := false } := { hinv.toCore with }
    simp only [SessionLifecycle.step, onHidden]
    split_ifs with _ hplain
    · exact absurd (hplain.symm.trans h.plain) (by simp)
    · exact hhidden.ended hcore (.inl rfl) true m
    · exact hhidden
  | visible =>
    have hvisible : Counted { p with visible := true } :=
      { h with live := fun hrunning => ⟨(h.live hrunning).1, (h.live hrunning).2.ofSink,
          (h.live hrunning).2.ofNone⟩ }
    have hinvVisible : Inv { p with visible := true } := { hinv with }
    simp only [SessionLifecycle.step, onVisible]
    split_ifs with hlistens hexpired hpaused
    · exact hvisible.withSession hinvVisible (getSession_call m.env)
    · exact absurd (hpaused.symm.trans h.unpaused) (by simp)
    · refine hvisible.startRun hinvVisible ((listens_iff p).mp hlistens).1 ?_ m
      intro hrunning _
      apply hsound
      have hlistens' : p.listens = true := hlistens
      have hfresh : ¬ isSessionExpired (SessionLifecycle.liveRecord p m) m.env.now = true :=
        hexpired
      unfold startsRun
      simp [hlistens', hfresh, show p.running = false from hrunning]
    · exact hvisible
  | pagehide =>
    simp only [SessionLifecycle.step]
    split_ifs
    · exact h.ended hinv.toCore (.inl rfl) true m
    · exact h
  | heartbeat handle =>
    simp only [SessionLifecycle.step, heartbeatTick]
    split_ifs with hmem
    · exact h
    · exact h.ended hinv.toCore (.inl rfl) false m
    · exact h.post hinv.toCore (hinv.beating (List.ne_nil_of_mem hmem)).1 .active false m
    · exact h
  | pauseTimeout handle =>
    have hfired : Counted { p with timeouts := p.timeouts.erase handle, pauseTimer := none } :=
      { h with live := fun hrunning => ⟨(h.live hrunning).1, (h.live hrunning).2.ofSink,
          (h.live hrunning).2.ofNone⟩ }
    have hcore : Core { p with timeouts := p.timeouts.erase handle, pauseTimer := none } :=
      { hinv.toCore with }
    simp only [SessionLifecycle.step]
    split_ifs
    · exact hfired.ended hcore (.inl rfl) false m
    · exact h
  | touch => exact h.withSession hinv (touchSession_call m.env)
  | microtask =>
    simp only [SessionLifecycle.step]
    split_ifs with hnone
    · exact h
    · have htaken : Counted { p with microtasks := p.microtasks - 1 } :=
        { h with live := fun hrunning => ⟨(h.live hrunning).1, (h.live hrunning).2.ofSink,
            (h.live hrunning).2.ofNone⟩ }
      have hinvTaken : Inv { p with microtasks := p.microtasks - 1 } :=
        { hinv with queued := fun _ => hinv.queued hnone }
      refine htaken.startRun hinvTaken (hinv.queued hnone) ?_ m
      intro hrunning hstopped
      apply hsound
      unfold startsRun
      simp [hnone, show p.running = false from hrunning, show p.stopped = false from hstopped]
  | announce =>
    simp only [SessionLifecycle.step, announce]
    split_ifs with _ hrunning
    · exact h.post hinv.toCore hrunning .ended false m
    · exact h.post hinv.toCore hrunning .active false m
    · exact h
    · exact h
  | shutdown flush =>
    simp only [SessionLifecycle.step, shutdown]
    split_ifs
    · exact h
    · have hstopping : Counted { p with stopped := true } :=
        { h with
          live := fun hrunning => ⟨(h.live hrunning).1, (h.live hrunning).2.ofSink,
            (h.live hrunning).2.ofNone⟩
          idle := by simp }
      exact hstopping.ended hinv.stopping (.inr rfl) flush m
    · exact h
  | startSink href =>
    simp only [SessionLifecycle.step]
    have hcall := getSession_call m.env
    have hresolved := h.withSession hinv hcall
    have hinvResolved := hinv.withSession hcall
    split
    · exact hresolved
    · rename_i record hpeek
      refine hresolved.startEventSink hinvResolved ?_ href
      intro hrunning
      obtain ⟨held, hheld, hid⟩ := hinvResolved.ready (.inl hrunning)
      rw [← hid, Option.some.inj (hpeek.symm.trans (hheld.read _))]
  | emit ev href => exact h.emit hinv ev href
  | removeKey => exact h.lose hinv (fun _ hholds => hholds.removeKey) rfl rfl
  | corruptKey => exact h.lose hinv (fun _ hholds => hholds.corruptKey) rfl rfl
  | memoryOnly => exact h.lose hinv (fun _ hholds => ⟨hholds.ephemeral, .inl rfl⟩) rfl rfl

/-! ### Sound runs -/

def metadataOnly : Hooks := { onPause := false, clicksSinceStart := false }

/-- The pages of sound runs of a lifecycle without its own click source. -/
abbrev SoundRun (stored : Option Stored) (memoryOnly : Bool) (current : SessionRecord) :
    Page → Prop :=
  ReachWhen (fun p entry => some (step p entry.1 entry.2)) Sound
    (fun p => p = opened metadataOnly stored memoryOnly current)

/-- Every step meets the condition where it is taken. -/
def SoundSteps : Page → List (Step × Moment) → Prop
  | _, [] => True
  | p, entry :: rest => Sound p entry ∧ SoundSteps (step p entry.1 entry.2) rest

instance SoundSteps.decidable (p : Page) : (steps : List (Step × Moment)) →
    Decidable (SoundSteps p steps)
  | [] => .isTrue trivial
  | entry :: rest =>
    have := SoundSteps.decidable (step p entry.1 entry.2) rest
    inferInstanceAs (Decidable (_ ∧ _))

lemma SoundSteps.reaches {stored : Option Stored} {memoryOnly : Bool} {current : SessionRecord}
    {p : Page} (h : SoundRun stored memoryOnly current p) {steps : List (Step × Moment)}
    (hsteps : SoundSteps p steps) : SoundRun stored memoryOnly current (run p steps) := by
  induction steps generalizing p with
  | nil => exact h
  | cons entry rest ih => exact ih (h.next hsteps.1 rfl) hsteps.2

lemma opened_counted (stored : Option Stored) (memoryOnly : Bool) (current : SessionRecord) :
    Counted (opened metadataOnly stored memoryOnly current) where
  own := rfl
  plain := rfl
  unpaused := rfl
  known := by
    intro record hholds
    cases hholds.ephemeral
  unused := fun _ _ => rfl
  unstarted := fun _ _ => rfl
  untallied := fun _ _ => rfl
  posted := by simp [opened]
  rows := ⟨⟨by simp [opened], List.Pairwise.nil⟩, by simp [opened]⟩
  live := by simp [opened]
  idle := by
    intro _ _ record hholds
    cases hholds.ephemeral

theorem reported_of_sound_run {stored : Option Stored} {memoryOnly : Bool}
    {current : SessionRecord} {p : Page} (h : SoundRun stored memoryOnly current p) :
    Reported p.shown := by
  have hboth : Inv p ∧ Counted p := by
    refine @ReachWhen.invariant _ _ _ _ _ (fun p => Inv p ∧ Counted p) ?_ ?_ _ h
    · rintro p rfl
      exact ⟨opened_inv metadataOnly stored memoryOnly current,
        opened_counted stored memoryOnly current⟩
    · intro p entry p' ⟨hinv, hcounted⟩ hsound hstep
      obtain rfl := Option.some.inj hstep
      exact ⟨hinv.step entry.1 entry.2, hcounted.step hinv entry.1 entry.2 hsound⟩
  exact hboth.2.rows.toReported

def unset : SessionRecord := { id := 0, startedAt := 0, lastActivityAt := 0, chunkSeq := 0 }

def atMs (now : ℤ) : Moment := { env := { now } }

/-- A click before the first row that follows. -/
theorem reported_click : Reported (run (opened metadataOnly none false unset)
    [(.start, atMs 0), (.startSink "/", atMs 0), (.emit .click "/", atMs 1000),
      (.announce, atMs 2000)]).shown := by
  apply @reported_of_sound_run none false unset
  exact SoundSteps.reaches (.start rfl) (by decide)

/-- A span finds the session idle, with the sink of that session and its click still published. The
click that follows in the new session is not reported. -/
theorem not_reported : ¬ Reported (run (opened metadataOnly none false unset)
    [(.start, atMs 0), (.startSink "/", atMs 0), (.emit .click "/", atMs 1000),
      (.touch, atMs 2400000), (.microtask, atMs 2400000), (.emit .click "/", atMs 2401000),
      (.announce, atMs 2402000)]).shown := by
  intro h
  have hrow := h.counts
    { sessionId := 2
      startedAt := 2400000
      version := 2
      status := .active
      counts := { clickCount := 0, pageViews := 1, errorCount := 0 }
      lastUrl := some "/"
      keepalive := false } 1 0 (by decide +kernel)
  exact absurd hrow.1 (by decide)

end Maple.SessionLifecycle
