import Maple.TransitionRun
import Maple.WalLaneLog

/-! Sequences of appends and marks on one lane, with appends failing at any step. -/

namespace Maple.Wal

open TransitionRun

/-- A lane, the frames its appends returned `Ok` for, and the cursors marked on it. -/
structure LaneRun where
  dir : LaneDir
  lane : WalLane
  returned : List Placed
  marked : List SegmentCursor

inductive LaneCall
  | append (frame : EncodedFrame) (enforceCap : Bool) (fault : Option AppendFault)
  | mark (frame : Placed) (bytes : ℕ)
  deriving DecidableEq

def laneStep (host : WalHost) (s : LaneRun) : LaneCall → Option LaneRun
  | .append frame enforceCap fault =>
    match encodeWalFrame host frame with
    | .error _ => none
    | .ok encoded =>
      match appendBlocking s.dir s.lane encoded enforceCap fault with
      | (dir, lane, .ok place) => some ⟨dir, lane, s.returned ++ [⟨frame, place⟩], s.marked⟩
      | (dir, lane, .error _) => some ⟨dir, lane, s.returned, s.marked⟩
  | .mark frame bytes =>
    if frame ∈ s.returned then
      let (dir, lane, _) := markExportedBlocking s.dir s.lane frame.position bytes none
      some ⟨dir, lane, s.returned, s.marked ++ [frame.position]⟩
    else none

def startRun (config : LaneConfig) (dir : LaneDir) : LaneRun :=
  ⟨(openLane config dir).1, (openLane config dir).2, [], []⟩

/-- Exported frames are those at or below a cursor that was marked. -/
def Exported (s : LaneRun) (p : Placed) : Prop := ∃ c ∈ s.marked, p.position ≤ c

/-- The lane is as if its failed appends had never been attempted; `opened` is what it owed when
it was opened. -/
structure LaneFaithful (host : WalHost) (opened : ℕ) (s : LaneRun) : Prop where
  delimits : ∀ p ∈ s.returned, ∃ encoded, encodeWalFrame host p.frame = .ok encoded ∧
    p.place.stop = p.place.start + encoded.length ∧
    ∀ bytes, s.dir.segments.get p.place.seq = some bytes →
      (bytes.drop p.place.start).take encoded.length = encoded
  replays : ∀ p ∈ s.returned, ¬ Exported s p → queuedOf host p ∈
    replayFrom host s.dir.segments s.lane.exportState.cursor (s.lane.activeSeq + 1)
  live : s.lane.liveBytes = s.dir.segments.weight List.length
  no_wrap : ∀ count, (reclaim s.dir.segments s.lane.exportState.nextDelete count).2 ≤
    s.lane.liveBytes
  committed : s.lane.committedBytes =
    opened + (s.returned.map fun p => p.place.stop - p.place.start).sum

/-- A call that is refused by the cap, or whose file operations fail before a byte is written. -/
def CleanCall (host : WalHost) (s : LaneRun) : LaneCall → Prop
  | .mark _ _ => True
  | .append frame enforceCap fault =>
    let added := (frameBytes host frame).length
    laneFull s.lane added enforceCap ∨
      match fault with
      | none => True
      | some (.writeAll written _) => written = 0
      | some (.syncData _) => False
      | some (.openNext _) => s.lane.appendState.len + added < s.lane.config.segmentMaxBytes

/-- What every run of clean calls keeps. -/
structure RunInv (host : WalHost) (base opened : ℕ) (s : LaneRun) : Prop where
  lane : LaneInv host base s.returned (Exported s) s.dir s.lane
  place : ∀ p ∈ s.returned, p.frame.Fits ∧
    p.place.stop = p.place.start + (frameBytes host p.frame).length
  committed : s.lane.committedBytes =
    opened + (s.returned.map fun p => p.place.stop - p.place.start).sum

variable {host : WalHost} {base opened : ℕ} {s : LaneRun}

/-- A logged frame lies between its offsets in the file of its segment. -/
lemma RunInv.delimits (h : RunInv host base opened s) {p : Placed} (hp : p ∈ s.returned)
    {bytes : List UInt8} (hbytes : s.dir.segments.get p.place.seq = some bytes) :
    (bytes.drop p.place.start).take (frameBytes host p.frame).length =
      frameBytes host p.frame := by
  obtain ⟨hfrom, hactive⟩ := h.lane.within p.place.seq (by simp [hbytes])
  obtain ⟨frames, hframes⟩ := h.lane.holds _ (h.lane.placed p hp).1 hactive hfrom
  obtain ⟨before, after, hsplit, hplace⟩ := hframes.split hp rfl
  have hstart : p.place.start = (before.flatMap (frameBytes host)).length := by
    rw [hplace]
    rfl
  obtain rfl : frames.flatMap (frameBytes host) = bytes :=
    Option.some.inj (hframes.bytes.symm.trans hbytes)
  rw [hsplit, hstart, List.flatMap_append, List.drop_left' rfl, List.flatMap_cons,
    List.take_left' rfl]

theorem RunInv.faithful (h : RunInv host base opened s) : LaneFaithful host opened s where
  delimits := by
    intro p hp
    obtain ⟨hfit, hstop⟩ := h.place p hp
    exact ⟨_, encodeWalFrame_ok.mpr ⟨hfit, rfl⟩, hstop, fun bytes hbytes => h.delimits hp hbytes⟩
  replays := fun p hp hnot => h.lane.mem_replay hp hnot
  live := h.lane.live
  no_wrap := by
    intro count
    have hweight := reclaim_weight s.dir.segments s.lane.exportState.nextDelete count
    rw [h.lane.live]
    omega
  committed := h.committed

lemma runInv_start (host : WalHost) (config : LaneConfig) (dir : LaneDir) :
    RunInv host (openLane config dir).2.activeSeq (openLane config dir).2.committedBytes
      (startRun config dir) where
  lane := laneInv_openLane host config dir _
  place := by simp [startRun]
  committed := by simp [startRun]

/-- A clean append is refused and changes nothing, fails before writing, or places its frame. -/
lemma appendBlocking_clean {frame : EncodedFrame} {cap : Bool} {fault : Option AppendFault}
    (hclean : CleanCall host s (.append frame cap fault)) :
    (∃ e, appendBlocking s.dir s.lane (frameBytes host frame) cap fault = (s.dir, s.lane, .error e)) ∨
    (∃ e, appendBlocking s.dir s.lane (frameBytes host frame) cap fault =
      ({ s.dir with segments := writeSegment s.dir.segments s.lane.appendState.seq [] }, s.lane,
        .error e)) ∨
    appendBlocking s.dir s.lane (frameBytes host frame) cap fault =
      ((appended host s.dir s.lane frame).1, (appended host s.dir s.lane frame).2,
        .ok (placedAt host s.lane.appendState.seq s.lane.appendState.len frame).place) := by
  unfold appendBlocking
  by_cases hfull : laneFull s.lane (frameBytes host frame).length cap
  · exact Or.inl ⟨_, if_pos hfull⟩
  have hfault := hclean.resolve_left hfull
  by_cases hseal : s.lane.config.segmentMaxBytes ≤
      s.lane.appendState.len + (frameBytes host frame).length
  · cases fault with
    | none =>
      right; right
      simp [hfull, appended, hseal, placedAt]
    | some fault =>
      cases fault with
      | writeAll written error =>
        obtain rfl : written = 0 := hfault
        exact Or.inr (Or.inl ⟨s!"write WAL: {error}", by simp [hfull]⟩)
      | syncData error => exact hfault.elim
      | openNext error => exact absurd hseal (Nat.not_le.mpr hfault)
  · cases fault with
    | none =>
      right; right
      simp [hfull, appended, hseal, placedAt]
    | some fault =>
      cases fault with
      | writeAll written error =>
        obtain rfl : written = 0 := hfault
        exact Or.inr (Or.inl ⟨s!"write WAL: {error}", by simp [hfull]⟩)
      | syncData error => exact hfault.elim
      | openNext error =>
        right; right
        simp [hfull, appended, hseal, placedAt]

lemma LaneInv.writeNothing {log : List Placed} {done : Placed → Prop} {dir : LaneDir}
    {lane : WalLane} (h : LaneInv host base log done dir lane) :
    writeSegment dir.segments lane.appendState.seq [] = dir.segments := by
  obtain ⟨frames, hframes⟩ := h.active
  rw [h.append_seq, writeSegment, hframes.bytes, Option.getD_some, List.append_nil,
    SeqMap.set_get hframes.bytes]

/-- A clean append keeps the invariant. -/
lemma RunInv.append (h : RunInv host base opened s) {frame : EncodedFrame} {cap : Bool}
    {fault : Option AppendFault} (hclean : CleanCall host s (.append frame cap fault))
    {s' : LaneRun} (hstep : laneStep host s (.append frame cap fault) = some s') :
    RunInv host base opened s' := by
  cases hencode : encodeWalFrame host frame with
  | error e => simp [laneStep, hencode] at hstep
  | ok encoded =>
    obtain ⟨hfit, rfl⟩ := encodeWalFrame_ok.mp hencode
    simp only [laneStep, hencode] at hstep
    rcases appendBlocking_clean hclean with ⟨e, hcall⟩ | ⟨e, hcall⟩ | hcall
    · rw [hcall] at hstep
      obtain rfl : s = s' := by simpa using hstep
      exact h
    · rw [hcall, h.lane.writeNothing] at hstep
      obtain rfl : s = s' := by simpa using hstep
      exact h
    · rw [hcall] at hstep
      obtain rfl := Option.some.inj hstep
      refine ⟨?_, ?_, ?_⟩
      · exact h.lane.appended hfit
      · intro p hp
        rcases List.mem_append.mp hp with hp | hp
        · exact h.place p hp
        · rw [List.mem_singleton.mp hp]
          exact ⟨hfit, rfl⟩
      · show (appended host s.dir s.lane frame).2.committedBytes = _
        rw [appended_committedBytes, h.committed]
        simp [placedAt, Nat.add_assoc]

/-- Marking a returned frame keeps the invariant. -/
lemma RunInv.mark (h : RunInv host base opened s) {p : Placed} {bytes : ℕ} {s' : LaneRun}
    (hstep : laneStep host s (.mark p bytes) = some s') : RunInv host base opened s' := by
  simp only [laneStep] at hstep
  split_ifs at hstep with hp
  obtain rfl := Option.some.inj hstep
  have hmark : MarkCursor base s.returned s.lane p.position :=
    ⟨(h.lane.placed p hp).2.1, fun _ => ⟨p, hp, rfl⟩⟩
  refine ⟨?_, h.place, h.committed⟩
  have hmono : LaneInv host base s.returned
      (Exported ⟨s.dir, s.lane, s.returned, s.marked ++ [p.position]⟩) s.dir s.lane := by
    refine h.lane.mono ?_
    rintro q - ⟨c, hc, hle⟩
    exact ⟨c, List.mem_append_left _ hc, hle⟩
  refine hmono.writeMark (hmono.advanceCursor hmark ?_)
  intro q _ hle
  exact ⟨p.position, List.mem_append_right _ (List.mem_singleton.mpr rfl), hle⟩

theorem RunInv.step (h : RunInv host base opened s) {call : LaneCall}
    (hclean : CleanCall host s call) {s' : LaneRun} (hstep : laneStep host s call = some s') :
    RunInv host base opened s' := by
  cases call with
  | append frame cap fault => exact h.append hclean hstep
  | mark p bytes => exact h.mark hstep

/-- An append that is not clean breaks the lane at once. -/
lemma RunInv.not_faithful (h : RunInv host base opened s) {frame : EncodedFrame} {cap : Bool}
    {fault : Option AppendFault} (hunclean : ¬ CleanCall host s (.append frame cap fault))
    {s' : LaneRun} (hstep : laneStep host s (.append frame cap fault) = some s') :
    ¬ LaneFaithful host opened s' := by
  cases hencode : encodeWalFrame host frame with
  | error e => simp [laneStep, hencode] at hstep
  | ok encoded =>
    obtain ⟨-, rfl⟩ := encodeWalFrame_ok.mp hencode
    have hpos := frameBytes_pos host frame
    have hlive := h.lane.live
    simp only [CleanCall, not_or, Bool.not_eq_true] at hunclean
    obtain ⟨hfull, hfault⟩ := hunclean
    simp only [laneStep, hencode, appendBlocking, hfull] at hstep
    intro hfaithful
    cases fault with
    | none => exact hfault trivial
    | some fault =>
      cases fault with
      | writeAll written error =>
        -- The bytes that reached the file are not counted.
        obtain rfl := Option.some.inj hstep
        have hweight : s.lane.liveBytes = (writeSegment s.dir.segments s.lane.appendState.seq
          ((frameBytes host frame).take written)).weight List.length := hfaithful.live
        rw [writeSegment_weight, List.length_take] at hweight
        have hwritten : written ≠ 0 := hfault
        omega
      | syncData error =>
        obtain rfl := Option.some.inj hstep
        have hweight : s.lane.liveBytes = (writeSegment s.dir.segments s.lane.appendState.seq
          (frameBytes host frame)).weight List.length := hfaithful.live
        rw [writeSegment_weight] at hweight
        omega
      | openNext error =>
        -- The frame is counted although the call fails.
        have hseal : s.lane.config.segmentMaxBytes ≤
            s.lane.appendState.len + (frameBytes host frame).length := Nat.not_lt.mp hfault
        simp only [hseal, if_true] at hstep
        obtain rfl := Option.some.inj hstep
        have hcommitted := hfaithful.committed
        simp only [countAppend] at hcommitted
        rw [h.committed] at hcommitted
        omega

/-- In a run of clean calls a lane is, after every call, as if its failed appends had never been
attempted; the first append that is not clean breaks this. -/
theorem laneFaithful_iff_clean (host : WalHost) (config : LaneConfig) (dir : LaneDir)
    {s : LaneRun}
    (hrun : ReachWhen (laneStep host) (CleanCall host) (fun t => t = startRun config dir) s) :
    LaneFaithful host (openLane config dir).2.committedBytes s ∧
      ∀ call s', laneStep host s call = some s' →
        (LaneFaithful host (openLane config dir).2.committedBytes s' ↔ CleanCall host s call) := by
  have hinv : RunInv host (openLane config dir).2.activeSeq
      (openLane config dir).2.committedBytes s := by
    refine hrun.invariant ?_ fun _ _ _ h hclean hstep => h.step hclean hstep
    rintro _ rfl
    exact runInv_start host config dir
  refine ⟨hinv.faithful, fun call s' hstep => ⟨fun hfaithful => ?_, fun hclean => ?_⟩⟩
  · by_contra hunclean
    cases call with
    | append frame cap fault => exact hinv.not_faithful hunclean hstep hfaithful
    | mark p bytes => exact hunclean trivial
  · exact (hinv.step hclean hstep).faithful

theorem laneFaithful_iff_clean_single :
    let config : LaneConfig := ⟨"lane", 1000, 100⟩
    let start := startRun config ⟨SeqMap.empty, none⟩
    ∃ s, laneStep ieeeHost start (.append ⟨"", .traces, .tinybird, "", 1, [0]⟩ true none) = some s ∧
      LaneFaithful ieeeHost (openLane config ⟨SeqMap.empty, none⟩).2.committedBytes s := by
  intro config start
  have hsome : (laneStep ieeeHost start
      (.append ⟨"", .traces, .tinybird, "", 1, [0]⟩ true none)).isSome := by decide
  obtain ⟨s, hs⟩ := Option.isSome_iff_exists.mp hsome
  have hclean : CleanCall ieeeHost start (.append ⟨"", .traces, .tinybird, "", 1, [0]⟩ true none) :=
    Or.inr trivial
  have hfaithful := laneFaithful_iff_clean ieeeHost config ⟨SeqMap.empty, none⟩
    (.next (.start rfl) hclean hs)
  exact ⟨s, hs, hfaithful.1⟩

/-- A write that fails after five bytes, then an append that returns `Ok`: the frame of the second
is lost to replay. -/
theorem not_laneFaithful_torn_write :
    ¬ ∀ s, Reach (laneStep ieeeHost)
        (fun t => t = startRun ⟨"lane", 1000, 100⟩ ⟨SeqMap.empty, none⟩) s →
      LaneFaithful ieeeHost 0 s := by
  intro hall
  have hview : (runSteps (laneStep ieeeHost) (startRun ⟨"lane", 1000, 100⟩ ⟨SeqMap.empty, none⟩)
      [.append ⟨"", .traces, .tinybird, "", 1, [0]⟩ true (some (.writeAll 5 "disk full")),
        .append ⟨"", .traces, .tinybird, "", 1, [0]⟩ true none]).map
      (fun s => (s.returned.length, s.marked, replayFrom ieeeHost s.dir.segments
        s.lane.exportState.cursor (s.lane.activeSeq + 1))) = some (1, [], []) := by decide
  obtain ⟨s, hrun, hs⟩ := Option.map_eq_some_iff.mp hview
  simp only [Prod.mk.injEq] at hs
  obtain ⟨hlen, hmarked, hreplay⟩ := hs
  obtain ⟨p, hp⟩ := List.length_eq_one_iff.mp hlen
  have hfaithful := hall s (reachWhen_runWhen (.start rfl) hrun)
  have hlost := hfaithful.replays p (by simp [hp]) (by simp [Exported, hmarked])
  rw [hreplay] at hlost
  cases hlost

end Maple.Wal
