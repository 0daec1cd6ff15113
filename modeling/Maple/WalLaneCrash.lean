import Maple.WalLaneInv

/-! Crashing a lane at any point and opening it again. -/

namespace Maple.Wal

open TransitionRun FrameStream

variable {host : WalHost} {base : ℕ} {s : LaneSystem} {log : List Placed}

/-- A directory with no segment left to replay holds no offset into the segment opened next. -/
def CursorFresh (dir : LaneDir) : Prop :=
  (liveSegments dir.segments (readCursor dir.cursorFile)).keys = [] →
    (readCursor dir.cursorFile).offset = 0

/-- What the crash leaves of the cursor file reads back at the end of a frame, at the beginning of
a segment, or in a segment older than the lane. -/
def CursorAtFrame (base : ℕ) (s : LaneSystem) (crashed : LaneDir) : Prop :=
  base ≤ (readCursor crashed.cursorFile).seq →
    (readCursor crashed.cursorFile).offset = 0 ∨
      ∃ p ∈ s.log, p.position = readCursor crashed.cursorFile

lemma replayFrom_segment_lt {segments : SeqMap (List UInt8)} {cursor : SegmentCursor}
    {active : ℕ} {q : QueuedFrame} (h : q ∈ replayFrom host segments cursor active) :
    q.segment < active := by
  obtain ⟨seq, hseq, hq⟩ := List.mem_flatMap.mp h
  have hlt : seq < active := by
    have hrange := (List.mem_filter.mp hseq).2
    simp only [decide_eq_true_eq] at hrange
    exact hrange.2
  have hsame : ∀ fuel offset bytes, q ∈ decodeStream (readQueuedFrame host seq) (·.stop) fuel
      offset bytes → q.segment = seq := by
    intro fuel
    induction fuel with
    | zero =>
      intro offset bytes hmem
      cases hmem
    | succ fuel ih =>
      intro offset bytes hmem
      unfold decodeStream at hmem
      split at hmem
      · rename_i f rest hread
        rcases List.mem_cons.mp hmem with rfl | hmem
        · unfold readQueuedFrame at hread
          cases hframe : readWalFrame host offset bytes with
          | error e =>
            rw [hframe] at hread
            cases hread
          | ok found =>
            rw [hframe] at hread
            cases found with
            | none => cases hread
            | some p =>
              cases hread
              rfl
        · exact ih _ _ hmem
      · cases hmem
      · cases hmem
  exact (hsame _ _ _ hq).symm ▸ hlt

lemma systemInv_open (host : WalHost) (config : LaneConfig) (capacity : ℕ) {dir : LaneDir}
    (hdir : CursorFresh dir) :
    SystemInv host (openLane config dir).2.activeSeq (openSystem host config capacity dir) where
  lane := laneInv_openLane host config dir _
  queued := by
    intro q hq
    rcases hq with hq | hq | hq
    · exact Or.inl (replayFrom_segment_lt hq)
    · cases hq
    · cases hq
  counts := fun _ => le_rfl
  nodup := List.nodup_nil
  file_le := by
    show readCursor dir.cursorFile ≤ ⟨nextSegment _ _, 0⟩
    unfold CursorFresh at hdir
    generalize readCursor dir.cursorFile = stored at *
    have hlive : ∀ seq, ((liveSegments dir.segments stored).get seq).isSome → stored.seq ≤ seq := by
      intro seq hseq
      obtain ⟨bytes, hbytes⟩ := Option.isSome_iff_exists.mp hseq
      have hkept := (Option.filter_eq_some_iff.mp hbytes).2
      simp only [Bool.and_eq_true, decide_eq_true_eq] at hkept
      exact hkept.1
    cases hlast : (liveSegments dir.segments stored).keys.getLast? with
    | none =>
      have hnil := List.getLast?_eq_none_iff.mp hlast
      have hnext : nextSegment (liveSegments dir.segments stored)
          (resumeCursor (liveSegments dir.segments stored) stored) = stored.seq := by
        simp [nextSegment, resumeCursor, hnil]
      rw [hnext]
      exact SegmentCursor.le_iff.mpr (Or.inr ⟨rfl, (hdir hnil).le⟩)
    | some last =>
      have hmem := List.mem_of_getLast? hlast
      have hle := hlive last (SeqMap.mem_keys.mp hmem)
      refine SegmentCursor.le_iff.mpr (Or.inl ?_)
      simp only [nextSegment, hlast]
      omega
  file_passed := by simp [openSystem]
  delivered := by
    intro b hb
    cases hb
  marking := by
    intro b c hb
    cases hb

/-- Reopening a directory replays every logged frame after the cursor its file reads back as. -/
lemma mem_replayLane_open {crashed : LaneDir} {p : Placed} {frames : List EncodedFrame}
    {tail : List UInt8} (config : LaneConfig) (hp : p ∈ log) (hfit : ∀ f ∈ frames, f.Fits)
    (hstop : 0 < p.place.stop)
    (hlogged : inSegment log p.place.seq =
      framesAt (frameBytes host) (placedAt host p.place.seq) 0 frames)
    (hbytes : crashed.segments.get p.place.seq =
      some (frames.flatMap (frameBytes host) ++ tail))
    (hboundary : p.place.seq = (readCursor crashed.cursorFile).seq →
      (readCursor crashed.cursorFile).offset = 0 ∨
        ∃ q ∈ log, q.position = readCursor crashed.cursorFile)
    (hafter : ¬ p.position ≤ readCursor crashed.cursorFile) :
    queuedOf host p ∈ replayLane host (openLane config crashed).1 (openLane config crashed).2 := by
  generalize hstored : readCursor crashed.cursorFile = stored at *
  have hseq : stored.seq ≤ p.place.seq := SegmentCursor.seq_le_of_le (lt_of_not_ge hafter).le
  have hmem : p ∈ framesAt (frameBytes host) (placedAt host p.place.seq) 0 frames := by
    rw [← hlogged]
    exact mem_inSegment.mpr ⟨hp, rfl⟩
  have hnonempty : frames.flatMap (frameBytes host) ++ tail ≠ [] := by
    obtain ⟨before, x, after, rfl, -⟩ := mem_framesAt.mp hmem
    have hx := frameBytes_ne_nil host x
    simp [hx]
  have hlive : (liveSegments crashed.segments stored).get p.place.seq =
      some (frames.flatMap (frameBytes host) ++ tail) := by
    rw [liveSegments, SeqMap.get_filter, hbytes]
    refine Option.filter_eq_some_iff.mpr ⟨rfl, ?_⟩
    simpa [hseq] using hnonempty
  obtain ⟨-, -, hkeys, -⟩ := nextSegment_spec (liveSegments crashed.segments stored) stored
  obtain ⟨hfrom, hnext⟩ := hkeys p.place.seq (by simp [hlive])
  simp only [replayLane, openLane, hstored]
  generalize liveSegments crashed.segments stored = live at *
  have hopen : (openSegment live (nextSegment live (resumeCursor live stored))).get p.place.seq =
      some (frames.flatMap (frameBytes host) ++ tail) := by
    unfold openSegment
    split
    · exact hlive
    · rw [SeqMap.get_set, if_neg hnext.ne, hlive]
  have hresume : resumeCursor live stored = stored ∨ (resumeCursor live stored).offset = 0 := by
    unfold resumeCursor
    split_ifs
    · exact Or.inl rfl
    · exact Or.inr rfl
  generalize nextSegment live (resumeCursor live stored) = next at *
  rcases hresume with hsame | hzero
  · rw [hsame]
    exact mem_replayFrom hp hfit hlogged hopen hnext hboundary hafter
  · refine mem_replayFrom hp hfit hlogged hopen hnext (fun _ => Or.inl hzero) ?_
    intro hle
    rcases SegmentCursor.le_iff.mp hle with hlt | ⟨-, hoff⟩
    · exact absurd hfrom (Nat.not_le_of_gt hlt)
    · rw [hzero] at hoff
      exact absurd hoff (Nat.not_le_of_gt hstop)

/-- A mark cut short keeps the segments of frames still owed, and its cursor passes none of them. -/
lemma SystemInv.markImage (h : SystemInv host base s) {dir : LaneDir} (himage : MarkImage s dir)
    {p : Placed} (hp : p ∈ s.log) (hnot : ¬ Done s p) :
    dir.segments.get p.place.seq = s.dir.segments.get p.place.seq ∧
      ¬ p.position ≤ readCursor dir.cursorFile := by
  cases himage with
  | outside => exact ⟨rfl, fun hle => hnot (h.file_passed p hp hle)⟩
  | writing hworker k =>
    have hadv := h.marking _ _ hworker
    refine ⟨rfl, fun hle => hnot (hadv.passed p hp (hle.trans ?_))⟩
    exact readCursor_cut_le _ k
  | @deleting batch cursor hworker j hj =>
    have hadv := h.marking _ _ hworker
    have hafter : ¬ p.position ≤ cursor := fun hle => hnot (hadv.passed p hp hle)
    have hseq : cursor.seq ≤ p.place.seq :=
      SegmentCursor.seq_le_of_le (lt_of_not_ge hafter).le
    refine ⟨?_, fun hle => hafter (hle.trans (readCursor_whole_le cursor))⟩
    show (reclaim s.dir.segments s.lane.exportState.nextDelete j).1.get p.place.seq = _
    rw [reclaim_get, if_neg]
    rintro ⟨hfrom, hto⟩
    have hnext := h.lane.next_delete
    have hle := hadv.from_le
    omega

/-- An append or a seal cut short adds bytes at the end of a segment, and changes nothing else. -/
lemma appendImage_get {dir crashed : LaneDir} (himage : AppendImage host s dir crashed) {seq : ℕ}
    {bytes : List UInt8} (hbytes : dir.segments.get seq = some bytes) :
    crashed.cursorFile = dir.cursorFile ∧
      ∃ tail, crashed.segments.get seq = some (bytes ++ tail) := by
  have hwrite : ∀ k torn, ∃ tail,
      (writeSegment dir.segments k torn).get seq = some (bytes ++ tail) := by
    intro k torn
    by_cases hk : seq = k
    · subst hk
      exact ⟨torn, by simp [writeSegment, hbytes]⟩
    · exact ⟨[], by simp [writeSegment, hk, hbytes]⟩
  have hopen : ∀ (segments : SeqMap (List UInt8)) k tail,
      segments.get seq = some (bytes ++ tail) →
        (openSegment segments k).get seq = some (bytes ++ tail) := by
    intro segments k tail hget
    unfold openSegment
    split
    · exact hget
    · rename_i hnone
      by_cases hk : seq = k
      · subst hk
        rw [hnone] at hget
        cases hget
      · rw [SeqMap.get_set, if_neg hk, hget]
  cases himage with
  | outside => exact ⟨rfl, [], by simpa using hbytes⟩
  | writing htask hencoded k => exact ⟨rfl, hwrite _ _⟩
  | opening htask hencoded =>
    obtain ⟨tail, htail⟩ := hwrite s.lane.appendState.seq _
    exact ⟨rfl, tail, hopen _ _ _ htail⟩
  | sealing => exact ⟨rfl, [], hopen _ _ _ (by simpa using hbytes)⟩

/-- Whatever point a crash comes at, reopening replays every logged frame the lane still owes. -/
theorem SystemInv.crash (h : SystemInv host base s) (config : LaneConfig) {crashed : LaneDir}
    (hcrash : CrashImage host s crashed) (hcursor : CursorAtFrame base s crashed) {p : Placed}
    (hp : p ∈ s.log) (hnot : ¬ Done s p) :
    queuedOf host p ∈ replayLane host (openLane config crashed).1 (openLane config crashed).2 := by
  obtain ⟨dir, hmark, happend⟩ := hcrash
  obtain ⟨hkept, hafter⟩ := h.markImage hmark hp hnot
  obtain ⟨hbase, hactive, hstop⟩ := h.lane.placed p hp
  have hfrom : s.lane.exportState.cursor.seq ≤ p.place.seq := by
    have hpast : ¬ p.position ≤ s.lane.exportState.cursor := fun hle =>
      hnot (h.lane.passed p hp hle)
    exact SegmentCursor.seq_le_of_le (lt_of_not_ge hpast).le
  obtain ⟨frames, hframes⟩ := h.lane.holds _ hbase hactive hfrom
  obtain ⟨hfile, tail, htail⟩ := appendImage_get happend (hkept.trans hframes.bytes)
  rw [← hfile] at hafter
  exact mem_replayLane_open config hp hframes.fits hstop hframes.logged htail
    (fun hsame => hcursor (hsame ▸ hbase)) hafter

/-- A lane opened on a directory with a fresh cursor loses no accepted frame, when every mark
passes only frames that are settled, and the crash leaves a cursor file that reads back at a
frame. -/
theorem noFrameLost_of_marksInOrder (host : WalHost) (config : LaneConfig) (capacity : ℕ)
    {dir : LaneDir} (hdir : CursorFresh dir) {s : LaneSystem}
    (hrun : ReachWhen (systemStep host) MarkInOrder
      (fun t => t = openSystem host config capacity dir) s)
    {crashed : LaneDir} (hcrash : CrashImage host s crashed)
    (hcursor : CursorAtFrame (openLane config dir).2.activeSeq s crashed)
    (reopened : LaneConfig) : NoFrameLost host reopened s crashed := by
  have hinv : SystemInv host (openLane config dir).2.activeSeq s := by
    refine hrun.invariant ?_ fun _ _ _ h hok hstep => h.step hok hstep
    rintro _ rfl
    exact systemInv_open host config capacity hdir
  intro p hp hunsettled
  obtain ⟨hlog, hfailed⟩ := hinv.not_failed hp
  exact hinv.crash reopened hcrash hcursor hlog (not_or.mpr ⟨hunsettled, hfailed⟩)

instance (s : LaneSystem) (p : Placed) : Decidable (Done s p) :=
  inferInstanceAs (Decidable (_ ∨ _))

instance (s : LaneSystem) : (l : LaneLabel) → Decidable (MarkInOrder s l)
  | .beginMark => inferInstanceAs (Decidable (∀ p ∈ s.log, _ → _))
  | .accept _ _ => .isTrue trivial
  | .reserve _ => .isTrue trivial
  | .append _ => .isTrue trivial
  | .send _ => .isTrue trivial
  | .finish _ => .isTrue trivial
  | .abort _ => .isTrue trivial
  | .sealIfDirty => .isTrue trivial
  | .replaySend => .isTrue trivial
  | .receive => .isTrue trivial
  | .deliver => .isTrue trivial
  | .failBatch => .isTrue trivial
  | .mark _ => .isTrue trivial

theorem noFrameLost_of_marksInOrder_pair :
    let config : LaneConfig := ⟨"lane", 1000, 100⟩
    let first : EncodedFrame := ⟨"", .traces, .tinybird, "", 1, [0]⟩
    let second : EncodedFrame := ⟨"", .traces, .tinybird, "", 2, [1]⟩
    ∃ s, runWhen (systemStep ieeeHost) MarkInOrder
        (openSystem ieeeHost config 4 ⟨SeqMap.empty, none⟩)
        [.accept 0 [first, second], .reserve 0, .append 0, .send 0, .reserve 0, .append 0, .send 0,
          .finish 0, .receive, .deliver, .beginMark, .mark none] = some s ∧
      (s.accepted.length, s.settled.length) = (2, 1) ∧ NoFrameLost ieeeHost config s s.dir := by
  intro config first second
  have hview : (runWhen (systemStep ieeeHost) MarkInOrder
      (openSystem ieeeHost config 4 ⟨SeqMap.empty, none⟩)
      [.accept 0 [first, second], .reserve 0, .append 0, .send 0, .reserve 0, .append 0, .send 0,
        .finish 0, .receive, .deliver, .beginMark, .mark none]).map
      (fun s => ((s.accepted.length, s.settled.length), decide (∃ p ∈ s.log,
        p.position = readCursor s.dir.cursorFile))) = some ((2, 1), true) := by decide
  obtain ⟨s, hrun, hs⟩ := Option.map_eq_some_iff.mp hview
  simp only [Prod.mk.injEq, decide_eq_true_eq] at hs
  have hfresh : CursorFresh ⟨SeqMap.empty, none⟩ := fun _ => rfl
  have hlost := noFrameLost_of_marksInOrder ieeeHost config 4 hfresh (reachWhen_runWhen (.start rfl) hrun) ⟨_, .outside, .outside⟩
    (fun _ => Or.inr hs.2) config
  exact ⟨s, hrun, Prod.ext hs.1.1 hs.1.2, hlost⟩

/-- Two calls append in one order and send in the other: the batch of the second marks past the
frame of the first, which a crash then loses although its call has returned `Ok`. -/
theorem not_noFrameLost_sent_out_of_order :
    ¬ ∀ s crashed, Reach (systemStep ieeeHost)
        (fun t => t = openSystem ieeeHost ⟨"lane", 1000, 100⟩ 4 ⟨SeqMap.empty, none⟩) s →
      CrashImage ieeeHost s crashed → NoFrameLost ieeeHost ⟨"lane", 1000, 100⟩ s crashed := by
  intro hall
  have hview : (runSteps (systemStep ieeeHost)
      (openSystem ieeeHost ⟨"lane", 1000, 100⟩ 4 ⟨SeqMap.empty, none⟩)
      [.accept 0 [⟨"", .traces, .tinybird, "", 1, [0]⟩],
        .accept 1 [⟨"", .traces, .tinybird, "", 2, [1]⟩], .reserve 0, .reserve 1, .append 0,
        .append 1, .send 1, .finish 1, .receive, .deliver, .beginMark, .mark none, .send 0,
        .finish 0]).map
      (fun s => (decide (∃ p ∈ s.accepted, sentFrame p ∉ s.settled), replayLane ieeeHost
        (openLane ⟨"lane", 1000, 100⟩ s.dir).1 (openLane ⟨"lane", 1000, 100⟩ s.dir).2)) =
      some (true, []) := by decide
  obtain ⟨s, hrun, hs⟩ := Option.map_eq_some_iff.mp hview
  simp only [Prod.mk.injEq, decide_eq_true_eq] at hs
  obtain ⟨⟨p, hp, hunsettled⟩, hreplay⟩ := hs
  have hkept := hall s s.dir (reachWhen_runWhen (.start rfl) hrun) ⟨_, .outside, .outside⟩ p hp
    hunsettled
  rw [hreplay] at hkept
  cases hkept

end Maple.Wal
