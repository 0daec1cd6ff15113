import Maple.SessionLifecycleRuns

/-! Every run of a page is well formed: the invariant holds step by step, and nothing is shown after
a shutdown. -/

namespace Maple.SessionLifecycle
open SessionStore

variable {p : Page}

/-! ### Steps -/

lemma Inv.out_of_unstarted (h : Inv p) (hstarted : p.started = false) : p.running = false := by
  cases hrunning : p.running with
  | false => rfl
  | true =>
    have hlistens := (listens_iff p).mp (h.live hrunning)
    exact absurd (hlistens.1.symm.trans hstarted) (by simp)

/-- The page is started on a session that is held, before its first run. -/
lemma Inv.startedOn (h : Inv p) (hstarted : p.started = false) {w : World}
    {current : SessionRecord} (hholds : Holds w current) (hrotations : w.rotations = []) :
    Inv { p with session := w, started := true, current } := by
  have hrunning := h.out_of_unstarted hstarted
  obtain ⟨hpaused, -⟩ := h.quiet hrunning
  exact
    { h with
      ready := fun _ => ⟨current, hholds, rfl⟩
      inRun := by simp [hrunning]
      paused := by simp [hpaused]
      rotations := hrotations
      live := by simp [hrunning]
      queued := fun _ => rfl
      ground := .inl ⟨current, hholds⟩ }

lemma Inv.start (h : Inv p) (m : Moment) : Inv (startSessionLifecycle p m) := by
  unfold startSessionLifecycle
  split_ifs with hstarted
  · exact h
  · rw [Bool.not_eq_true] at hstarted
    obtain ⟨w', after, heq, hafter, hrotations⟩ :=
      h.withSession_unstarted hstarted (getSession_call m.env)
    have hpeek : peekSession { p with session := w' } m = some after := hafter.read _
    dsimp only
    rw [heq, hpeek]
    exact (h.startedOn hstarted hafter hrotations).startRun rfl m

lemma Inv.beating (h : Inv p) (hbeat : p.intervals ≠ []) :
    p.running = true ∧ p.paused = false := by
  apply h.beats
  cases hnone : p.heartbeat with
  | none => exact absurd (h.intervals.trans (by rw [hnone]; rfl)) hbeat
  | some handle => rfl

lemma Inv.heartbeatTick (h : Inv p) (hbeat : p.intervals ≠ []) (m : Moment) :
    Inv (heartbeatTick p m) := by
  obtain ⟨hrunning, hpaused⟩ := h.beating hbeat
  unfold SessionLifecycle.heartbeatTick
  split_ifs
  · exact h
  · exact h.endRun true false m
  · exact h.post hrunning .active (by simp [hpaused]) false m

lemma Inv.onHidden (h : Inv p) (m : Moment) : Inv (onHidden p m) := by
  unfold SessionLifecycle.onHidden
  split_ifs
  · exact h.pauseRun m
  · exact h.endRun true true m

lemma Inv.onVisible (h : Inv p) (hlistens : p.listens = true) (m : Moment) :
    Inv (onVisible p m) := by
  unfold SessionLifecycle.onVisible
  split_ifs with _ hpaused
  · exact h.withSession (getSession_call m.env)
  · exact h.resumeRun hpaused m
  · exact h.startRun ((listens_iff p).mp hlistens).1 m

lemma Inv.announce (h : Inv p) (m : Moment) : Inv (announce p m) := by
  unfold SessionLifecycle.announce
  split_ifs with hrunning hpaused
  · exact h.post hrunning .ended (fun _ => rfl) false m
  · exact h.post hrunning .active (fun hpaused' => absurd hpaused' hpaused) false m
  · exact h

lemma Inv.stopping (h : Inv p) : Core { p with stopped := true } :=
  { h.toCore with
    ready := by
      rintro (hrunning | hlistens)
      · exact h.ready (.inl hrunning)
      · simp [Page.listens] at hlistens }

lemma Inv.shutdown (h : Inv p) (flush : Bool) (m : Moment) : Inv (shutdown p flush m) := by
  unfold SessionLifecycle.shutdown
  split_ifs
  · exact h
  · have hcore := h.stopping
    by_cases hrunning : p.running = true
    · obtain ⟨hcore', hran, hout⟩ := hcore.endRun hrunning flush flush m
      obtain ⟨record, hholds, -⟩ := hran.holds
      exact
        { hcore' with
          rotations := hran.rotations.trans h.rotations
          live := by simp [hout]
          queued := by
            rw [hran.microtasks, hran.started]
            exact h.queued
          ground := .inl ⟨record, hholds⟩ }
    · rw [Bool.not_eq_true] at hrunning
      rw [@endRun_idle { p with stopped := true } hrunning]
      exact
        { h with
          ready := hcore.ready
          live := by simp [hrunning] }

lemma Inv.lose (h : Inv p) {l : SessionStore.Step}
    (hkept : ∀ record, Holds p.session record → Holds (SessionStore.step p.session l) record)
    (hopening : Opening p.session → Opening (SessionStore.step p.session l))
    (hrotations : (SessionStore.step p.session l).rotations = p.session.rotations) :
    Inv { p with session := SessionStore.step p.session l } :=
  { h with
    ready := by
      intro hknown
      obtain ⟨record, hholds, hid⟩ := h.ready hknown
      exact ⟨record, hkept record hholds, hid⟩
    rotations := hrotations.trans h.rotations
    ground := by
      rcases h.ground with ⟨record, hholds⟩ | ⟨hstarted, hopen⟩
      · exact .inl ⟨record, hkept record hholds⟩
      · exact .inr ⟨hstarted, hopening hopen⟩ }

/-- One step of the page. -/
lemma Inv.step (h : Inv p) (l : Step) (m : Moment) : Inv (step p l m) := by
  cases l with
  | start => exact h.start m
  | hidden =>
    have hhidden : Inv { p with visible := false } := { h with }
    simp only [SessionLifecycle.step]
    split_ifs
    · exact hhidden.onHidden m
    · exact hhidden
  | visible =>
    have hvisible : Inv { p with visible := true } := { h with }
    simp only [SessionLifecycle.step]
    split_ifs with hlistens
    · exact hvisible.onVisible hlistens m
    · exact hvisible
  | pagehide =>
    simp only [SessionLifecycle.step]
    split_ifs
    · exact h.endRun true true m
    · exact h
  | heartbeat handle =>
    simp only [SessionLifecycle.step]
    split_ifs with hmem
    · exact h.heartbeatTick (List.ne_nil_of_mem hmem) m
    · exact h
  | pauseTimeout handle =>
    have hfired : Inv { p with timeouts := p.timeouts.erase handle, pauseTimer := none } :=
      { h with }
    simp only [SessionLifecycle.step]
    split_ifs
    · exact hfired.endRun true false m
    · exact h
  | touch => exact h.withSession (touchSession_call m.env)
  | microtask =>
    simp only [SessionLifecycle.step]
    split_ifs with hnone
    · exact h
    · have htaken : Inv { p with microtasks := p.microtasks - 1 } :=
        { h with queued := fun _ => h.queued hnone }
      exact htaken.startRun (h.queued hnone) m
  | announce =>
    simp only [SessionLifecycle.step]
    split_ifs
    · exact h.announce m
    · exact h
  | shutdown flush =>
    simp only [SessionLifecycle.step]
    split_ifs
    · exact h.shutdown flush m
    · exact h
  | startSink href =>
    simp only [SessionLifecycle.step]
    have hresolved := h.withSession (getSession_call m.env)
    split
    · exact hresolved
    · exact (inv_closed m).startEventSink hresolved _ href
  | emit ev href => exact (inv_closed m).emit h ev href
  | removeKey =>
    exact h.lose (fun _ hholds => hholds.removeKey)
      (fun hopen => ⟨hopen.copy, by simp [SessionStore.step]⟩) rfl
  | corruptKey =>
    exact h.lose (fun _ hholds => hholds.corruptKey)
      (fun hopen => ⟨hopen.copy, by simp [SessionStore.step, parseSessionRecord]⟩) rfl
  | memoryOnly =>
    exact h.lose (fun _ hholds => ⟨hholds.ephemeral, .inl rfl⟩)
      (fun hopen => ⟨hopen.copy, hopen.stored⟩) rfl

lemma opened_inv (hooks : Hooks) (stored : Option Stored) (memoryOnly : Bool)
    (current : SessionRecord) : Inv (opened hooks stored memoryOnly current) where
  ready := by simp [opened, Page.listens]
  out := fun _ => rfl
  inRun := by simp [opened]
  paused := by simp [opened]
  intervals := rfl
  beats := by simp [opened]
  rotations := rfl
  live := by simp [opened]
  queued := by simp [opened]
  ground := by
    refine .inr ⟨rfl, rfl, ?_⟩
    intro found hfound
    have hread : stored.bind parseSessionRecord = some found := hfound
    simp [opened, SessionStore.opened, hread]

lemma Inv.run (h : Inv p) (steps : List (Step × Moment)) : Inv (run p steps) := by
  induction steps generalizing p with
  | nil => exact h
  | cons entry steps ih => exact ih (h.step entry.1 entry.2)

/-! ### After a shutdown -/

lemma startRun_stopped (hstopped : p.stopped = true) (m : Moment) : startRun p m = p := by
  unfold startRun
  rw [if_pos (by simp [hstopped])]

/-- The page has been shut down, having shown this much. -/
def Silent (shown : List Shown) (p : Page) : Prop := p.stopped = true ∧ p.shown = shown

lemma silent_closed (shown : List Shown) (m : Moment) : Closed m (Silent shown) where
  calls := by
    intro p call _ h
    have hdeaf : p.listens = false := by
      unfold Page.listens
      rw [h.1]
      simp
    obtain ⟨w', heq⟩ := withSession_deaf hdeaf call m
    rw [heq]
    exact h
  sinks := fun _ _ _ h => h

lemma Silent.step {shown : List Shown} (h : Inv p) (hsilent : Silent shown p) (l : Step)
    (m : Moment) : Silent shown (step p l m) := by
  have hdeaf : p.listens = false := by
    unfold Page.listens
    rw [hsilent.1]
    simp
  have hrunning : p.running = false := by
    cases hrunning : p.running with
    | false => rfl
    | true => exact absurd ((h.live hrunning).symm.trans hdeaf) (by simp)
  have hclosed := silent_closed shown m
  cases l with
  | start =>
    simp only [SessionLifecycle.step, startSessionLifecycle]
    split_ifs
    · exact hsilent
    · have hcalled := hclosed.calls p _ (getSession_call m.env) hsilent
      rw [startRun_stopped (by exact hcalled.1)]
      exact hcalled
  | hidden | visible =>
    simp only [SessionLifecycle.step]
    rw [if_neg (by simpa [Page.listens] using hdeaf)]
    exact hsilent
  | pagehide =>
    simp only [SessionLifecycle.step]
    rw [if_neg (by simp [hdeaf])]
    exact hsilent
  | heartbeat handle =>
    have hnone := (h.quiet hrunning).2
    simp only [SessionLifecycle.step]
    rw [if_neg (by simp [h.intervals, hnone])]
    exact hsilent
  | pauseTimeout handle =>
    simp only [SessionLifecycle.step]
    split_ifs
    · rw [endRun_idle (by exact hrunning)]
      exact hsilent
    · exact hsilent
  | touch => exact hclosed.calls p _ (touchSession_call m.env) hsilent
  | microtask =>
    simp only [SessionLifecycle.step]
    split_ifs
    · exact hsilent
    · rw [startRun_stopped (by exact hsilent.1)]
      exact hsilent
  | announce =>
    simp only [SessionLifecycle.step, announce]
    rw [@if_neg (p.running = true) _ (by simp [hrunning])]
    split_ifs <;> exact hsilent
  | shutdown flush =>
    simp only [SessionLifecycle.step, shutdown, if_pos hsilent.1]
    split_ifs <;> exact hsilent
  | startSink href =>
    simp only [SessionLifecycle.step]
    have hresolved := hclosed.calls p _ (getSession_call m.env) hsilent
    split
    · exact hresolved
    · exact hclosed.startEventSink hresolved _ href
  | emit ev href => exact hclosed.emit hsilent ev href
  | removeKey | corruptKey | memoryOnly => exact hsilent

lemma Silent.run {shown : List Shown} (h : Inv p) (hsilent : Silent shown p)
    (steps : List (Step × Moment)) : Silent shown (run p steps) := by
  induction steps generalizing p with
  | nil => exact hsilent
  | cons entry steps ih => exact ih (h.step entry.1 entry.2) (hsilent.step h entry.1 entry.2)

/-- A shutdown without a flush says at most that the run is suspended. -/
lemma shutdown_unflushed (h : Inv p) (m : Moment) :
    (step p (.shutdown false) m).shown =
      p.shown ++ if p.running then [.onSuspend false false] else [] := by
  cases hrunning : p.running with
  | false =>
    simp only [step, shutdown]
    rw [@endRun_idle { p with stopped := true } hrunning]
    simp only [Bool.false_eq_true, if_false, List.append_nil]
    split_ifs <;> rfl
  | true =>
    obtain ⟨hstarted, hstopped⟩ := (listens_iff p).mp (h.live hrunning)
    simp only [step, shutdown, hstarted, hstopped, endRun, hrunning]
    simp only [if_true, Bool.false_eq_true, if_false, Bool.not_true, Bool.false_and]
    rw [stopHeartbeat_eq (by exact h.intervals), clearPauseTimer_eq]

/-! ### Well-formed pages -/

/-- What the owner and the network may have seen of a page, and how it stands. -/
structure WellFormed (p : Page) : Prop where
  /-- Runs start and end in turn, each with rows of its own session only. -/
  phase : ∃ last, phaseOf p.shown =
    some (if p.running then .inRun p.current.id last else .out)
  /-- The last row of a paused run reads ended. -/
  paused : p.paused = true →
    ∃ sessionId, phaseOf p.shown = some (.inRun sessionId (some .ended))
  heartbeat : p.intervals.length ≤ 1 ∧
    (p.intervals ≠ [] → p.running = true ∧ p.paused = false)
  /-- A run that ends without a flush posts nothing. -/
  unflushed : ∀ m, (step p (.shutdown false) m).shown =
    p.shown ++ if p.running then [.onSuspend false false] else []
  stopped : p.stopped = true → ∀ rest, (run p rest).shown = p.shown

theorem run_wellFormed (hooks : Hooks) (stored : Option Stored) (memoryOnly : Bool)
    (current : SessionRecord) (steps : List (Step × Moment)) :
    WellFormed (run (opened hooks stored memoryOnly current) steps) := by
  have h := (opened_inv hooks stored memoryOnly current).run steps
  generalize run (opened hooks stored memoryOnly current) steps = p at h
  refine ⟨?phase, ?paused, ⟨?one, ?live⟩, shutdown_unflushed h, ?stopped⟩
  case phase =>
    cases hrunning : p.running with
    | false => exact ⟨none, h.out hrunning⟩
    | true => exact h.inRun hrunning
  case paused =>
    intro hpaused
    exact ⟨p.current.id, (h.paused hpaused).2⟩
  case one =>
    rw [h.intervals]
    cases p.heartbeat <;> simp
  case live => exact h.beating
  case stopped =>
    intro hstopped rest
    exact (Silent.run h ⟨hstopped, rfl⟩ rest).2

end Maple.SessionLifecycle
