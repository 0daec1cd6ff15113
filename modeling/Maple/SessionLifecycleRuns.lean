import Maple.SessionLifecycleCalls

/-! The lifecycle keeps to its protocol: runs start and end in turn, and the rows of a run say how
it stands. -/

namespace Maple.SessionLifecycle
open SessionStore

/-! ### The protocol -/

/-- Outside a run, or in the run of a session, with what the last row of the run says. -/
inductive Phase
  | out
  | inRun (sessionId : ℕ) (last : Option Status)
deriving DecidableEq

/-- What may follow. A run that is ended with a flush has said so. -/
def Phase.next : Phase → Shown → Option Phase
  | .out, .onStart sessionId => some (.inRun sessionId none)
  | .inRun sessionId _, .row row _ _ =>
    if row.sessionId = sessionId then some (.inRun sessionId (some row.status)) else none
  | .inRun sessionId last, .onPause => some (.inRun sessionId last)
  | .inRun _ last, .onSuspend flush _ =>
    if flush = true → last = some .ended then some .out else none
  | _, _ => none

/-- Where the protocol stands, unless it was broken. -/
def phaseOf (shown : List Shown) : Option Phase := shown.foldlM Phase.next .out

lemma phaseOf_append {shown : List Shown} {phase : Phase} (h : phaseOf shown = some phase)
    (entry : Shown) : phaseOf (shown ++ [entry]) = phase.next entry := by
  unfold phaseOf at h ⊢
  rw [List.foldlM_append, h]
  simp

/-- A row of the run's own session. -/
lemma phaseOf_row {shown : List Shown} {sessionId : ℕ} {last : Option Status}
    (h : phaseOf shown = some (.inRun sessionId last)) {row : SessionMetaRow}
    (hrow : row.sessionId = sessionId) (clicks errors : ℤ) :
    phaseOf (shown ++ [.row row clicks errors]) = some (.inRun sessionId (some row.status)) := by
  rw [phaseOf_append h]
  exact if_pos hrow

/-! ### The invariant -/

variable {p : Page}

structure Core (p : Page) : Prop where
  ready : p.running = true ∨ p.listens = true →
    ∃ record, Holds p.session record ∧ record.id = p.current.id
  out : p.running = false → phaseOf p.shown = some .out
  inRun : p.running = true → ∃ last, phaseOf p.shown = some (.inRun p.current.id last)
  paused : p.paused = true →
    p.running = true ∧ phaseOf p.shown = some (.inRun p.current.id (some .ended))
  intervals : p.intervals = p.heartbeat.toList
  beats : p.heartbeat.isSome = true → p.running = true ∧ p.paused = false

structure Inv (p : Page) : Prop extends Core p where
  rotations : p.session.rotations = []
  live : p.running = true → p.listens = true
  queued : p.microtasks ≠ 0 → p.started = true
  ground : (∃ record, Holds p.session record) ∨ (p.started = false ∧ Opening p.session)

lemma listens_iff (p : Page) : p.listens = true ↔ p.started = true ∧ p.stopped = false := by
  unfold Page.listens
  simp

/-- Where nothing runs nothing is paused and nothing beats. -/
lemma Core.quiet (h : Core p) (hrunning : p.running = false) :
    p.paused = false ∧ p.heartbeat = none := by
  constructor
  · cases hpaused : p.paused with
    | false => rfl
    | true => exact absurd ((h.paused hpaused).1.symm.trans hrunning) (by simp)
  · cases hbeat : p.heartbeat with
    | none => rfl
    | some handle => exact absurd ((h.beats (by simp [hbeat])).1.symm.trans hrunning) (by simp)

/-! ### Timers -/

lemma stopHeartbeat_eq (h : p.intervals = p.heartbeat.toList) :
    stopHeartbeat p = { p with intervals := [], heartbeat := none } := by
  unfold stopHeartbeat
  cases hbeat : p.heartbeat with
  | none =>
    rw [hbeat] at h
    cases p
    subst hbeat h
    rfl
  | some handle => simp [h, hbeat]

lemma startHeartbeat_eq (h : p.intervals = p.heartbeat.toList) :
    startHeartbeat p =
      { p with intervals := [p.timers], heartbeat := some p.timers, timers := p.timers + 1 } := by
  unfold startHeartbeat
  rw [stopHeartbeat_eq h]

lemma clearPauseTimer_eq (p : Page) :
    clearPauseTimer p = { p with timeouts := (clearPauseTimer p).timeouts, pauseTimer := none } := by
  unfold clearPauseTimer
  cases htimer : p.pauseTimer with
  | none => simp [← htimer]
  | some handle => rfl

/-! ### Runs -/

/-- What no run changes, and the record it leaves. -/
structure Ran (p p' : Page) : Prop where
  started : p'.started = p.started
  stopped : p'.stopped = p.stopped
  current : p'.current = p.current
  microtasks : p'.microtasks = p.microtasks
  rotations : p'.session.rotations = p.session.rotations
  minted : p'.session.minted = p.session.minted
  firstRun : p'.firstRun = p.firstRun
  holds : ∃ record, Holds p'.session record ∧ record.id = p.current.id

lemma Ran.listens {p' : Page} (h : Ran p p') : p'.listens = p.listens := by
  unfold Page.listens
  rw [h.started, h.stopped]

lemma Inv.ran {p' : Page} (h : Inv p) (hran : Ran p p') (hcore : Core p')
    (hlive : p'.running = true → p.listens = true) : Inv p' where
  toCore := hcore
  rotations := hran.rotations.trans h.rotations
  live := by
    rw [hran.listens]
    exact hlive
  queued := by
    rw [hran.microtasks, hran.started]
    exact h.queued
  ground := by
    obtain ⟨record, hholds, -⟩ := hran.holds
    exact .inl ⟨record, hholds⟩

/-- A row that says how the run stands. -/
lemma Core.post (h : Core p) (hrunning : p.running = true) (status : Status)
    (hstatus : p.paused = true → status = .ended) (keepalive : Bool) (m : Moment) :
    Core (post p status keepalive m) ∧ Ran p (post p status keepalive m) ∧
      (SessionLifecycle.post p status keepalive m).running = true ∧
      (SessionLifecycle.post p status keepalive m).paused = p.paused := by
  obtain ⟨record, hholds, hid⟩ := h.ready (.inl hrunning)
  obtain ⟨last, hlast⟩ := h.inRun hrunning
  obtain ⟨w', row, hposted, hpost⟩ := post_spec hholds hid status keepalive m
  obtain ⟨after, hafter, hafterId, -⟩ := hposted.holds
  have hphase := phaseOf_row hlast hposted.sessionId (due p p.current.id).1 (due p p.current.id).2
  rw [hposted.status] at hphase
  rw [hpost]
  refine ⟨⟨?ready, ?out, ?inRun, ?paused, h.intervals, h.beats⟩,
    ⟨rfl, rfl, rfl, rfl, hposted.rotations, hposted.minted, rfl, ⟨after, hafter, hafterId⟩⟩,
    hrunning, rfl⟩
  case ready => exact fun _ => ⟨after, hafter, hafterId⟩
  case out =>
    intro hout
    exact absurd (hrunning.symm.trans hout) (by simp)
  case inRun => exact fun _ => ⟨some status, hphase⟩
  case paused =>
    intro hpaused
    rw [hstatus hpaused] at hphase
    exact ⟨hrunning, hphase⟩

/-- The page a run leaves when it ends. -/
def suspended (p : Page) (w' : World) (rows : List Shown) (timeouts : List ℕ)
    (flush keepalive : Bool) : Page :=
  { p with
    session := w'
    running := false
    paused := false
    intervals := []
    heartbeat := none
    timeouts
    pauseTimer := none
    shown := p.shown ++ rows ++ [.onSuspend flush keepalive] }

/-- The end of a run that is not paused is posted with a flush, and not without. -/
lemma endRun_spec (h : Core p) (hrunning : p.running = true) (flush keepalive : Bool)
    (m : Moment) :
    (∃ w' row timeouts, flush = true ∧ p.paused = false ∧ Posted p .ended m w' row ∧
      endRun p flush keepalive m = suspended p w'
        [.row row (due p p.current.id).1 (due p p.current.id).2] timeouts flush keepalive) ∨
    (∃ timeouts, (flush = false ∨ p.paused = true) ∧
      endRun p flush keepalive m = suspended p p.session [] timeouts flush keepalive) := by
  obtain ⟨record, hholds, hid⟩ := h.ready (.inl hrunning)
  unfold SessionLifecycle.endRun
  rw [if_neg (by simp [hrunning])]
  dsimp only
  rw [@stopHeartbeat_eq { p with running := false } h.intervals, clearPauseTimer_eq]
  generalize (clearPauseTimer _).timeouts = timeouts
  by_cases hflush : (flush && !p.paused) = true
  · obtain ⟨rfl, hpaused⟩ : flush = true ∧ p.paused = false := by simpa using hflush
    obtain ⟨w', row, hposted, hpost⟩ :=
      @post_spec
        { p with
          running := false, intervals := [], heartbeat := none, timeouts, pauseTimer := none }
        record hholds hid .ended keepalive m
    have hended : Posted p .ended m w' row :=
      ⟨hposted.sessionId, hposted.status, hposted.counts, hposted.holds, hposted.rotations,
        hposted.minted⟩
    refine .inl ⟨w', row, timeouts, rfl, hpaused, hended, ?_⟩
    rw [if_pos hflush, hpost]
    rfl
  · refine .inr ⟨timeouts, ?_, ?_⟩
    · cases flush with
      | false => exact .inl rfl
      | true => exact .inr (by simpa using hflush)
    · rw [if_neg hflush]
      simp [suspended]

/-- A run that ends with a flush has said so, and one that ends without says nothing. -/
lemma Core.endRun (h : Core p) (hrunning : p.running = true) (flush keepalive : Bool)
    (m : Moment) :
    Core (endRun p flush keepalive m) ∧ Ran p (endRun p flush keepalive m) ∧
      (SessionLifecycle.endRun p flush keepalive m).running = false := by
  obtain ⟨record, hholds, hid⟩ := h.ready (.inl hrunning)
  obtain ⟨last, hlast⟩ := h.inRun hrunning
  rcases endRun_spec h hrunning flush keepalive m with
    ⟨w', row, timeouts, -, -, hposted, heq⟩ | ⟨timeouts, hquiet, heq⟩
  · obtain ⟨after, hafter, hafterId, -⟩ := hposted.holds
    have hphase :=
      phaseOf_row hlast hposted.sessionId (due p p.current.id).1 (due p p.current.id).2
    rw [hposted.status] at hphase
    rw [heq]
    refine ⟨⟨?ready, ?out, by simp [suspended], by simp [suspended], rfl, by simp [suspended]⟩,
      ⟨rfl, rfl, rfl, rfl, hposted.rotations, hposted.minted, rfl, ⟨after, hafter, hafterId⟩⟩,
      rfl⟩
    case ready => exact fun _ => ⟨after, hafter, hafterId⟩
    case out =>
      intro _
      refine (phaseOf_append hphase _).trans ?_
      simp [Phase.next]
  · rw [heq]
    refine ⟨⟨?ready, ?out, by simp [suspended], by simp [suspended], rfl, by simp [suspended]⟩,
      ⟨rfl, rfl, rfl, rfl, rfl, rfl, rfl, ⟨record, hholds, hid⟩⟩, rfl⟩
    case ready => exact fun _ => ⟨record, hholds, hid⟩
    case out =>
      intro _
      unfold suspended
      rw [List.append_nil]
      refine (phaseOf_append hlast _).trans ?_
      rcases hquiet with rfl | hpaused
      · simp [Phase.next]
      · have hended := (h.paused hpaused).2.symm.trans hlast
        obtain ⟨-, rfl⟩ := Phase.inRun.inj (Option.some.inj hended)
        simp [Phase.next]

lemma endRun_idle (hrunning : p.running = false) (flush keepalive : Bool) (m : Moment) :
    endRun p flush keepalive m = p := by
  unfold SessionLifecycle.endRun
  rw [if_pos (by simp [hrunning])]

/-- Where a record of the session is held, the run is over either way. -/
lemma Core.ended (h : Core p)
    (hholds : ∃ record, Holds p.session record ∧ record.id = p.current.id)
    (flush keepalive : Bool) (m : Moment) :
    Core (SessionLifecycle.endRun p flush keepalive m) ∧
      Ran p (SessionLifecycle.endRun p flush keepalive m) ∧
      (SessionLifecycle.endRun p flush keepalive m).running = false := by
  cases hrunning : p.running with
  | true => exact h.endRun hrunning flush keepalive m
  | false =>
    rw [endRun_idle hrunning]
    exact ⟨h, ⟨rfl, rfl, rfl, rfl, rfl, rfl, rfl, hholds⟩, hrunning⟩

lemma Inv.endRun (h : Inv p) (flush keepalive : Bool) (m : Moment) :
    Inv (endRun p flush keepalive m) := by
  by_cases hrunning : p.running = true
  · obtain ⟨hcore, hran, hended⟩ := h.toCore.endRun hrunning flush keepalive m
    apply h.ran hran hcore
    rw [hended]
    simp
  · rw [endRun_idle (by simpa using hrunning)]
    exact h

lemma Inv.post (h : Inv p) (hrunning : p.running = true) (status : Status)
    (hstatus : p.paused = true → status = .ended) (keepalive : Bool) (m : Moment) :
    Inv (post p status keepalive m) := by
  obtain ⟨hcore, hran, -⟩ := h.toCore.post hrunning status hstatus keepalive m
  exact h.ran hran hcore fun _ => h.live hrunning

lemma Inv.pauseRun (h : Inv p) (m : Moment) : Inv (pauseRun p m) := by
  unfold SessionLifecycle.pauseRun
  split_ifs with hskip
  · exact h
  · simp only [Bool.or_eq_true, Bool.not_eq_true', not_or, Bool.not_eq_false] at hskip
    obtain ⟨hrunning, -⟩ := hskip
    obtain ⟨record, hholds, hid⟩ := h.ready (.inl hrunning)
    obtain ⟨last, hlast⟩ := h.inRun hrunning
    dsimp only
    rw [@stopHeartbeat_eq { p with paused := true } h.intervals]
    obtain ⟨w', row, hposted, hpost⟩ :=
      @post_spec { p with paused := true, intervals := [], heartbeat := none } record hholds hid
        .ended true m
    obtain ⟨after, hafter, hafterId, -⟩ := hposted.holds
    rw [hpost]
    have hphase :=
      phaseOf_row hlast hposted.sessionId (due p p.current.id).1 (due p p.current.id).2
    rw [hposted.status] at hphase
    have hpaused := (phaseOf_append hphase .onPause).trans (by rfl)
    have hran : Ran p { p with
        paused := true
        intervals := []
        heartbeat := none
        session := w'
        shown := p.shown ++ [.row row (due p p.current.id).1 (due p p.current.id).2] ++ [.onPause]
        timeouts := p.timers :: p.timeouts
        pauseTimer := some p.timers
        timers := p.timers + 1 } :=
      ⟨rfl, rfl, rfl, rfl, hposted.rotations, hposted.minted, rfl, ⟨after, hafter, hafterId⟩⟩
    refine h.ran hran ⟨?ready, ?out, ?inRun, ?paused, rfl, by simp⟩ fun _ => h.live hrunning
    case ready => exact fun _ => ⟨after, hafter, hafterId⟩
    case out =>
      intro hout
      exact absurd (hrunning.symm.trans hout) (by simp)
    case inRun => exact fun _ => ⟨some .ended, hpaused⟩
    case paused => exact fun _ => ⟨hrunning, hpaused⟩

/-- The heartbeat of a run that is live and not paused. -/
lemma Inv.startHeartbeat (h : Inv p) (hrunning : p.running = true) (hpaused : p.paused = false) :
    Inv (startHeartbeat p) := by
  rw [startHeartbeat_eq h.intervals]
  have hcore : Core { p with
      intervals := [p.timers], heartbeat := some p.timers, timers := p.timers + 1 } :=
    { h.toCore with
      intervals := rfl
      beats := fun _ => ⟨hrunning, hpaused⟩ }
  exact { h with toCore := hcore }

/-- The row that opens a run, or takes it up again, and then the heartbeat. -/
lemma Inv.postActive (h : Inv p) (hrunning : p.running = true) (hpaused : p.paused = false)
    (m : Moment) : Inv (SessionLifecycle.startHeartbeat (SessionLifecycle.post p .active false m)) := by
  have hstatus : p.paused = true → Status.active = .ended := by simp [hpaused]
  obtain ⟨-, -, hstill, hkept⟩ := h.toCore.post hrunning .active hstatus false m
  exact (h.post hrunning .active hstatus false m).startHeartbeat hstill (hkept.trans hpaused)

lemma Inv.resumeRun (h : Inv p) (hpaused : p.paused = true) (m : Moment) :
    Inv (resumeRun p m) := by
  obtain ⟨hrunning, hended⟩ := h.paused hpaused
  unfold SessionLifecycle.resumeRun
  dsimp only
  rw [clearPauseTimer_eq]
  generalize (clearPauseTimer p).timeouts = timeouts
  have hresumed : Inv { p with timeouts, pauseTimer := none, paused := false } :=
    { h with
      paused := by simp
      beats := fun hbeat => ⟨hrunning, rfl⟩ }
  exact hresumed.postActive hrunning rfl m

/-- The page of a run that has started and has posted nothing yet. -/
def begun (p : Page) (record : SessionRecord) : Page :=
  { rebaseCounts { p with running := true } record with
    shown := p.shown ++ [.onStart record.id]
    firstRun := Function.update p.firstRun record.id
      (some ((p.firstRun record.id).getD
        (record.clickCount.getD 0, record.errorCount.getD 0))) }

lemma startRun_cases (h : Inv p) (hstarted : p.started = true) (m : Moment) :
    startRun p m = p ∨
      p.stopped = false ∧ p.running = false ∧ ∃ record, Holds p.session record ∧
        record.id = p.current.id ∧ startRun p m =
          SessionLifecycle.startHeartbeat (SessionLifecycle.post (begun p record) .active false m) := by
  unfold SessionLifecycle.startRun
  split_ifs with hskip
  · exact .inl rfl
  · simp only [Bool.or_eq_true, not_or, Bool.not_eq_true] at hskip
    obtain ⟨hstopped, hrunning⟩ := hskip
    obtain ⟨record, hholds, hid⟩ := h.ready (.inr ((listens_iff p).mpr ⟨hstarted, hstopped⟩))
    have hlive : liveRecord p m = record := by
      unfold liveRecord peekSession
      rw [hholds.read]
      simp [hid]
    refine .inr ⟨hstopped, hrunning, record, hholds, hid, ?_⟩
    rw [hlive]
    rfl

lemma Inv.begun (h : Inv p) (hlistens : p.listens = true) (hrunning : p.running = false)
    {record : SessionRecord} (hholds : Holds p.session record)
    (hid : record.id = p.current.id) : Inv (begun p record) := by
  obtain ⟨hpaused, hbeat⟩ := h.quiet hrunning
  have hphase : phaseOf (p.shown ++ [.onStart record.id]) = some (.inRun p.current.id none) := by
    rw [phaseOf_append (h.out hrunning), hid]
    rfl
  exact
    { h with
      ready := fun _ => ⟨record, hholds, hid⟩
      out := by simp [SessionLifecycle.begun, rebaseCounts]
      inRun := fun _ => ⟨none, hphase⟩
      paused := by simp [SessionLifecycle.begun, rebaseCounts, hpaused]
      beats := by simp [SessionLifecycle.begun, rebaseCounts, hbeat]
      live := fun _ => hlistens }

lemma Inv.startRun (h : Inv p) (hstarted : p.started = true) (m : Moment) :
    Inv (startRun p m) := by
  rcases startRun_cases h hstarted m with heq | ⟨hstopped, hrunning, record, hholds, hid, heq⟩
  · rw [heq]
    exact h
  · have hbegun :=
      h.begun ((listens_iff p).mpr ⟨hstarted, hstopped⟩) hrunning hholds hid
    rw [heq]
    exact hbegun.postActive rfl (h.quiet hrunning).1 m

/-! ### Rotations -/

/-- A listener that does not listen leaves the page alone. -/
lemma onSessionRotate_deaf (hdeaf : p.listens = false) (previous next : SessionRecord)
    (m : Moment) : onSessionRotate p previous next m = p := by
  unfold onSessionRotate
  apply if_pos
  unfold Page.listens at hdeaf
  cases hstarted : p.started with
  | false => simp
  | true => simp_all

lemma onSessionRotate_heard (hlistens : p.listens = true) {previous : SessionRecord}
    (hid : previous.id = p.current.id) (next : SessionRecord) (m : Moment) :
    onSessionRotate p previous next m =
      { endRun p true false m with
        current := next
        microtasks := (endRun p true false m).microtasks + 1 } := by
  obtain ⟨hstarted, hstopped⟩ := (listens_iff p).mp hlistens
  unfold onSessionRotate
  rw [if_neg (by simp [hstarted, hstopped, hid])]

/-- The listener ends the run of the session it knows, and stands on the next one. -/
lemma rotated_inv (h : Inv p) {w : World} {record next : SessionRecord}
    {rest : List SessionRecord} (hholds : Holds p.session record) (hsame : Holds w record)
    (hrotations : w.rotations = [⟨0, p.session.minted, next :: rest⟩])
    (hfresh : ∀ written ∈ next :: rest, Minted p.session written) (m : Moment) :
    Inv (rotated { p with session := w } record next m) := by
  by_cases hlistens : p.listens = true
  · obtain ⟨held, hheld, hid⟩ := h.ready (.inr hlistens)
    obtain rfl := hholds.unique hheld
    have hcore : Core { p with session := w } :=
      { h.toCore with ready := fun _ => ⟨held, hsame, hid⟩ }
    obtain ⟨hcore', hran, hout⟩ := hcore.ended ⟨held, hsame, hid⟩ true false m
    unfold rotated
    rw [@onSessionRotate_heard { p with session := w } hlistens _ hid]
    have hrotations' := hran.rotations.trans hrotations
    obtain ⟨last, hlast, hlastHeld, hdone, -⟩ :=
      finishRotation_holds hrotations' [m.env.write, m.env.writeAgain]
    have hlastId : last.id = next.id :=
      (hfresh last hlast).id.trans (hfresh next List.mem_cons_self).id.symm
    have hpaused := (hcore'.quiet hout).1
    exact
      { hcore' with
        ready := fun _ => ⟨last, hlastHeld, hlastId⟩
        inRun := by simp [hout]
        paused := by simp [hpaused]
        rotations := hdone
        live := by simp [hout]
        queued := fun _ => hran.started.trans ((listens_iff p).mp hlistens).1
        ground := .inl ⟨last, hlastHeld⟩ }
  · -- Nobody hears of it.
    rw [Bool.not_eq_true] at hlistens
    have hout : p.running = false := by
      by_contra hrunning
      rw [Bool.not_eq_false] at hrunning
      exact absurd ((h.live hrunning).symm.trans hlistens) (by simp)
    unfold rotated
    rw [@onSessionRotate_deaf { p with session := w } hlistens]
    obtain ⟨last, hlast, hlastHeld, hdone, -⟩ :=
      finishRotation_holds hrotations [m.env.write, m.env.writeAgain]
    exact
      { h with
        ready := by
          rintro (hrunning | hlistening)
          · exact absurd (hrunning.symm.trans hout) (by simp)
          · exact absurd (hlistening.symm.trans hlistens) (by simp)
        rotations := hdone
        ground := .inl ⟨last, hlastHeld⟩ }

variable {m : Moment} {call : World → World}

lemma Inv.ready_of_holds (h : Inv p) {record : SessionRecord} (hholds : Holds p.session record)
    (hknown : p.running = true ∨ p.listens = true) : record.id = p.current.id := by
  obtain ⟨held, hheld, hid⟩ := h.ready hknown
  obtain rfl := hholds.unique hheld
  exact hid

lemma withSession_deaf (hdeaf : p.listens = false) (call : World → World) (m : Moment) :
    ∃ w', withSession p call m = { p with session := w' } := by
  unfold withSession
  dsimp only
  split
  · exact ⟨_, rfl⟩
  · split
    · rw [@onSessionRotate_deaf { p with session := call p.session } hdeaf]
      exact ⟨_, rfl⟩
    · exact ⟨_, rfl⟩

lemma Inv.withSession (h : Inv p) (hcall : SessionCall m.env call) :
    Inv (withSession p call m) := by
  rcases h.ground with ⟨record, hholds⟩ | ⟨hstarted, hopening⟩
  · rcases withSession_held hcall hholds h.rotations with
      ⟨w', after, heq, hafter, hsame, hrotations, -⟩ |
      ⟨w', next, rest, heq, hstill, hrotations, -, hfresh⟩
    · rw [heq]
      exact
        { h with
          ready := fun hknown =>
            ⟨after, hafter, hsame.id.trans (h.ready_of_holds hholds hknown)⟩
          rotations := hrotations
          ground := .inl ⟨after, hafter⟩ }
    · rw [heq]
      exact rotated_inv h hholds hstill hrotations hfresh m
  · obtain ⟨w', after, heq, hafter, -, hrotations⟩ :=
      withSession_opening hcall hstarted hopening h.rotations
    have hdeaf : p.listens = false := by
      unfold Page.listens
      rw [hstarted]
      rfl
    rw [heq]
    exact
      { h with
        ready := by
          rintro (hrunning | hlistens)
          · exact absurd ((h.live hrunning).symm.trans hdeaf) (by simp)
          · exact absurd (hlistens.symm.trans hdeaf) (by simp)
        rotations := hrotations
        ground := .inl ⟨after, hafter⟩ }

/-- Before it is started a call of the session module leaves a record and nothing else. -/
lemma Inv.withSession_unstarted (h : Inv p) (hstarted : p.started = false)
    (hcall : SessionCall m.env call) :
    ∃ w' after, SessionLifecycle.withSession p call m = { p with session := w' } ∧
      Holds w' after ∧ w'.rotations = [] := by
  have hdeaf : p.listens = false := by
    unfold Page.listens
    rw [hstarted]
    rfl
  rcases h.ground with ⟨record, hholds⟩ | ⟨-, hopening⟩
  · rcases withSession_held hcall hholds h.rotations with
      ⟨w', after, heq, hafter, -, hrotations, -⟩ |
      ⟨w', next, rest, heq, -, hrotations, -, -⟩
    · exact ⟨w', after, heq, hafter, hrotations⟩
    · obtain ⟨last, -, hlastHeld, hdone, -⟩ :=
        finishRotation_holds hrotations [m.env.write, m.env.writeAgain]
      refine ⟨_, last, ?_, hlastHeld, hdone⟩
      rw [heq]
      simp [rotated, onSessionRotate, hstarted]
  · obtain ⟨w', after, heq, hafter, -, hrotations⟩ :=
      withSession_opening hcall hstarted hopening h.rotations
    exact ⟨w', after, heq, hafter, hrotations⟩

/-! ### The event sink -/

/-- What calls of the session module keep, and what does not depend on the sink, every event
keeps. -/
structure Closed (m : Moment) (P : Page → Prop) : Prop where
  calls : ∀ p call, SessionCall m.env call → P p → P (withSession p call m)
  sinks : ∀ p sink tally, P p → P { p with sink, tally }

variable {P : Page → Prop}

lemma Closed.markActivity (hP : Closed m P) (h : P p) (ev : EventType) :
    P (markActivity p ev m).1 := by
  unfold SessionLifecycle.markActivity
  split_ifs
  · exact hP.calls p _ (touchSession_call m.env) h
  · exact h

lemma Closed.capture (hP : Closed m P) (h : P p) (ev : EventType) : P (capture p ev m) := by
  unfold SessionLifecycle.capture
  split
  · exact h
  · rename_i sink hsink
    dsimp only
    cases ev with
    | navigation url => exact hP.calls _ _ (noteNavigation_call url m.env) (hP.sinks p _ p.tally h)
    | click | error => exact hP.sinks p _ _ h
    | input | custom | other => exact h

lemma Closed.emitNew (hP : Closed m P) (h : P p) (ev : EventType) : P (emitNew p ev m) := by
  unfold SessionLifecycle.emitNew
  dsimp only
  split_ifs
  · exact hP.capture (hP.markActivity h ev) ev
  · exact hP.markActivity h ev

lemma Closed.startEventSink (hP : Closed m P) (h : P p) (sessionId : ℕ) (href : String) :
    P (startEventSink p sessionId href m) := by
  unfold SessionLifecycle.startEventSink
  split_ifs
  · exact h
  · exact hP.emitNew (hP.sinks p _ p.tally h) (.navigation href)

lemma Closed.emit (hP : Closed m P) (h : P p) (ev : EventType) (href : String) :
    P (emit p ev href m) := by
  unfold SessionLifecycle.emit
  split
  · exact h
  · dsimp only
    have hmarked := hP.markActivity h ev
    split
    · exact hmarked
    · rename_i sessionId hsession
      split_ifs
      · exact hP.capture hmarked ev
      · have hnew := hP.startEventSink hmarked sessionId href
        cases ev with
        | navigation url => exact hnew
        | click => exact hP.emitNew hnew .click
        | input => exact hP.emitNew hnew .input
        | custom => exact hP.emitNew hnew .custom
        | error => exact hP.emitNew hnew .error
        | other => exact hP.emitNew hnew .other

lemma inv_closed (m : Moment) : Closed m Inv where
  calls := fun _ _ hcall h => h.withSession hcall
  sinks := fun _ _ _ h => { h with }

end Maple.SessionLifecycle
