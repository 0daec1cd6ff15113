import Maple.WalCursorFile
import Maple.WalLaneSystem

/-! What every run of a lane keeps when no mark passes an unsettled frame. -/

namespace Maple.Wal

open TransitionRun

/-- A frame the lane no longer owes: in a settled batch, or of a call that ended without `Ok`. -/
def Done (s : LaneSystem) (p : Placed) : Prop := sentFrame p ∈ s.settled ∨ p ∈ s.failed

/-- A mark is in order when every frame its cursor passes is one the lane no longer owes. -/
def MarkInOrder (s : LaneSystem) : LaneLabel → Prop
  | .beginMark => ∀ p ∈ s.log, p.position ≤ batchCursor s.worker.batch → Done s p
  | _ => True

structure SystemInv (host : WalHost) (base : ℕ) (s : LaneSystem) : Prop where
  lane : LaneInv host base s.log (Done s) s.dir s.lane
  queued : ∀ q, q ∈ s.replaying ∨ q ∈ s.channel ∨ q ∈ s.worker.batch →
    q.segment < base ∨ ∃ p ∈ s.log, q = sentFrame p
  counts : ∀ p, s.accepted.count p + s.failed.count p +
    s.tasks.weight (CommitTask.copies p) ≤ s.log.count p
  nodup : s.log.Nodup
  file_le : readCursor s.dir.cursorFile ≤ endCursor s.lane
  file_passed : ∀ p ∈ s.log, p.position ≤ readCursor s.dir.cursorFile → Done s p
  delivered : ∀ batch, s.worker = .delivered batch → batch ≠ []
  marking : ∀ batch cursor, s.worker = .marking batch cursor →
    Advanced base s.log (Done s) s.lane cursor

variable {host : WalHost} {base : ℕ} {s s' : LaneSystem}

lemma SystemInv.mem_log (h : SystemInv host base s) {id : ℕ} {task : CommitTask} {p : Placed}
    (htask : s.tasks.get id = some task) (hp : p ∈ task.placed) : p ∈ s.log := by
  have hcount := h.counts p
  have hweight := SeqMap.weight_erase_old (CommitTask.copies p) htask
  have hpos : 0 < task.copies p := List.count_pos_iff.mpr hp
  exact List.count_pos_iff.mp (by omega)

/-- An accepted frame is not one of a failed call. -/
lemma SystemInv.not_failed (h : SystemInv host base s) {p : Placed} (hp : p ∈ s.accepted) :
    p ∈ s.log ∧ p ∉ s.failed := by
  have hcount := h.counts p
  have hpos : 0 < s.accepted.count p := List.count_pos_iff.mpr hp
  have hone : s.log.count p ≤ 1 := List.nodup_iff_count_le_one.mp h.nodup p
  refine ⟨List.count_pos_iff.mp (by omega), fun hfailed => ?_⟩
  have : 0 < s.failed.count p := List.count_pos_iff.mpr hfailed
  omega

/-- Ending a call without `Ok` only makes more frames done. -/
lemma SystemInv.failTask (h : SystemInv host base s) {id : ℕ} {task : CommitTask}
    (htask : s.tasks.get id = some task) : SystemInv host base (s.failTask id task) where
  lane := h.lane.mono fun p _ hdone => hdone.imp_right (List.mem_append_left _)
  queued := h.queued
  counts := by
    intro p
    have hcount := h.counts p
    have hweight := SeqMap.weight_erase_old (CommitTask.copies p) htask
    have hcopies : task.copies p = task.placed.count p := rfl
    simp only [LaneSystem.failTask, List.count_append]
    omega
  nodup := h.nodup
  file_le := h.file_le
  file_passed := fun p hp hle => (h.file_passed p hp hle).imp_right (List.mem_append_left _)
  delivered := h.delivered
  marking := fun batch cursor hworker =>
    { h.marking batch cursor hworker with
      passed := fun p hp hle => ((h.marking batch cursor hworker).passed p hp hle).imp_right
        (List.mem_append_left _) }

/-- A step that moves a call along without touching the disk, the log or the worker. -/
lemma SystemInv.moveTask (h : SystemInv host base s) {id : ℕ} {task task' : CommitTask}
    (htask : s.tasks.get id = some task) (hplaced : task'.placed = task.placed) :
    SystemInv host base { s with tasks := s.tasks.set id task' } :=
  { h with
    counts := by
      intro p
      have hcount := h.counts p
      have hweight := SeqMap.weight_set_old (v := task') (CommitTask.copies p) htask
      have hcopies : task'.copies p = task.copies p := by
        rw [CommitTask.copies, hplaced]
        rfl
      dsimp only
      omega }

lemma SystemInv.accept (h : SystemInv host base s) {id : ℕ} {frames : List EncodedFrame}
    (hfree : s.tasks.get id = none) :
    SystemInv host base { s with tasks := s.tasks.set id (.ready [] frames) } :=
  { h with
    counts := by
      intro p
      have hcount := h.counts p
      have hweight := SeqMap.weight_set_new (v := .ready [] frames) (CommitTask.copies p) hfree
      have hcopies : (CommitTask.ready [] frames).copies p = 0 := rfl
      dsimp only
      omega }

lemma SystemInv.finish (h : SystemInv host base s) {id : ℕ} {sent : List Placed}
    (htask : s.tasks.get id = some (.ready sent [])) :
    SystemInv host base { s with tasks := s.tasks.erase id, accepted := s.accepted ++ sent } :=
  { h with
    counts := by
      intro p
      have hcount := h.counts p
      have hweight := SeqMap.weight_erase_old (CommitTask.copies p) htask
      have hcopies : (CommitTask.ready sent []).copies p = sent.count p := rfl
      dsimp only
      rw [List.count_append]
      omega }

lemma SystemInv.send (h : SystemInv host base s) {id : ℕ} {sent : List Placed} {frame : Placed}
    {rest : List EncodedFrame} (htask : s.tasks.get id = some (.appended sent frame rest)) :
    SystemInv host base
      { s with
        tasks := s.tasks.set id (.ready (sent ++ [frame]) rest)
        channel := s.channel ++ [sentFrame frame] } := by
  have hlog : frame ∈ s.log := h.mem_log htask (by simp [CommitTask.placed])
  have hmoved : SystemInv host base
      { s with tasks := s.tasks.set id (.ready (sent ++ [frame]) rest) } := h.moveTask htask rfl
  exact
    { hmoved with
      queued := by
        intro q hq
        rcases hq with hq | hq | hq
        · exact h.queued q (Or.inl hq)
        · rcases List.mem_append.mp hq with hq | hq
          · exact h.queued q (Or.inr (Or.inl hq))
          · exact Or.inr ⟨frame, hlog, List.mem_singleton.mp hq⟩
        · exact h.queued q (Or.inr (Or.inr hq)) }

/-- Growing the log past the end of the active segment keeps what marks and the cursor file rely
on. -/
lemma Advanced.grow {log : List Placed} {done : Placed → Prop} {dir : LaneDir}
    {lane lane' : WalLane} {cursor : SegmentCursor} (hadv : Advanced base log done lane cursor)
    (hlane : LaneInv host base log done dir lane) {p : Placed}
    (hp : endCursor lane < p.position) (hactive : lane.activeSeq ≤ lane'.activeSeq)
    (hexport : lane'.exportState = lane.exportState) :
    Advanced base (log ++ [p]) done lane' cursor where
  from_le := by
    rw [hexport]
    exact hadv.from_le
  le_active := hadv.le_active.trans hactive
  boundary := by
    intro hbase
    rcases hadv.boundary hbase with hzero | ⟨q, hq, hpos⟩
    · exact Or.inl hzero
    · exact Or.inr ⟨q, List.mem_append_left _ hq, hpos⟩
  passed := by
    intro q hq hle
    rcases List.mem_append.mp hq with hq | hq
    · exact hadv.passed q hq hle
    · rw [List.mem_singleton.mp hq] at hle
      exact absurd (hle.trans (hadv.le_end hlane)) (not_le_of_gt hp)

lemma SystemInv.append (h : SystemInv host base s) {id : ℕ} (hstep : s.append host id = some s') :
    SystemInv host base s' := by
  unfold LaneSystem.append at hstep
  split at hstep
  swap
  · cases hstep
  rename_i sent frame rest htask
  cases hencode : encodeWalFrame host frame with
  | error e =>
    rw [hencode] at hstep
    obtain rfl := Option.some.inj hstep
    exact h.failTask htask
  | ok encoded =>
    obtain ⟨hfit, rfl⟩ := encodeWalFrame_ok.mp hencode
    rw [hencode] at hstep
    rcases appendBlocking_cases host s.dir s.lane frame true with ⟨e, hcall⟩ | hcall
    · simp only [hcall] at hstep
      obtain rfl := Option.some.inj hstep
      exact h.failTask htask
    · simp only [hcall] at hstep
      obtain rfl := Option.some.inj hstep
      have hlane := h.lane.appended hfit
      have hend := endCursor_lt_placedAt h.lane frame
      have hle := endCursor_le_appended h.lane frame
      generalize hp : placedAt host s.lane.appendState.seq s.lane.appendState.len frame = p at *
      have hframe : (⟨frame, p.place⟩ : Placed) = p := by
        rw [← hp]
        rfl
      have hnew : p ∉ s.log := fun hmem =>
        absurd (h.lane.position_le_end hmem) (not_le_of_gt hend)
      rw [hframe]
      exact
        { lane := hlane
          queued := by
            intro q hq
            rcases h.queued q hq with hold | ⟨r, hr, hqr⟩
            · exact Or.inl hold
            · exact Or.inr ⟨r, List.mem_append_left _ hr, hqr⟩
          counts := by
            intro q
            have hcount := h.counts q
            have hweight := SeqMap.weight_set_old (v := .appended sent p rest)
              (CommitTask.copies q) htask
            have hold : (CommitTask.reserved sent frame rest).copies q = sent.count q := rfl
            have hcopies : (CommitTask.appended sent p rest).copies q =
                sent.count q + [p].count q := List.count_append
            dsimp only
            rw [List.count_append]
            omega
          nodup := List.nodup_append.mpr ⟨h.nodup, by simp, by
            intro q hq r hr hqr
            rw [List.mem_singleton.mp hr] at hqr
            exact hnew (hqr ▸ hq)⟩
          file_le := by
            show readCursor (appended host s.dir s.lane frame).1.cursorFile ≤ _
            rw [appended_cursorFile]
            exact h.file_le.trans hle
          file_passed := by
            intro q hq hpos
            simp only [appended_cursorFile] at hpos
            rcases List.mem_append.mp hq with hq | hq
            · exact h.file_passed q hq hpos
            · rw [List.mem_singleton.mp hq] at hpos
              exact absurd (hpos.trans h.file_le) (not_le_of_gt hend)
          delivered := h.delivered
          marking := fun batch cursor hworker =>
            (h.marking batch cursor hworker).grow h.lane hend (SegmentCursor.seq_le_of_le hle)
              (appended_exportState _ _ _) }

lemma SystemInv.sealIfDirty (h : SystemInv host base s) : SystemInv host base s.sealIfDirty := by
  unfold LaneSystem.sealIfDirty
  split_ifs with hlen
  · exact h
  · have hle := endCursor_le_sealed h.lane
    exact
      { lane := h.lane.sealed
        queued := h.queued
        counts := h.counts
        nodup := h.nodup
        file_le := h.file_le.trans hle
        file_passed := h.file_passed
        delivered := h.delivered
        marking := fun batch cursor hworker =>
          { h.marking batch cursor hworker with
            le_active := (h.marking batch cursor hworker).le_active.trans
              (SegmentCursor.seq_le_of_le hle) } }

lemma SystemInv.replaySend (h : SystemInv host base s) {frame : QueuedFrame}
    {replaying : List QueuedFrame} (hreplaying : s.replaying = frame :: replaying) :
    SystemInv host base { s with replaying := replaying, channel := s.channel ++ [frame] } :=
  { h with
    queued := by
      intro q hq
      rcases hq with hq | hq | hq
      · exact h.queued q (Or.inl (hreplaying ▸ List.mem_cons_of_mem _ hq))
      · rcases List.mem_append.mp hq with hq | hq
        · exact h.queued q (Or.inr (Or.inl hq))
        · rw [List.mem_singleton.mp hq]
          exact h.queued frame (Or.inl (hreplaying ▸ List.mem_cons_self))
      · exact h.queued q (Or.inr (Or.inr hq)) }

lemma SystemInv.receive (h : SystemInv host base s) (hstep : s.receive = some s') :
    SystemInv host base s' := by
  unfold LaneSystem.receive at hstep
  split at hstep
  swap
  · cases hstep
  rename_i batch frame channel hworker hchannel
  obtain rfl := Option.some.inj hstep
  exact
    { h with
      queued := by
        intro q hq
        have hbatch : s.worker.batch = batch := by rw [hworker]; rfl
        rcases hq with hq | hq | hq
        · exact h.queued q (Or.inl hq)
        · exact h.queued q (Or.inr (Or.inl (hchannel ▸ List.mem_cons_of_mem _ hq)))
        · rcases List.mem_append.mp hq with hq | hq
          · exact h.queued q (Or.inr (Or.inr (hbatch ▸ hq)))
          · rw [List.mem_singleton.mp hq]
            exact h.queued frame (Or.inr (Or.inl (hchannel ▸ List.mem_cons_self)))
      delivered := by
        intro b hb
        cases hb
      marking := by
        intro b c hb
        cases hb }

lemma SystemInv.deliver (h : SystemInv host base s) (hstep : s.deliver = some s') :
    SystemInv host base s' := by
  unfold LaneSystem.deliver at hstep
  split at hstep
  swap
  · cases hstep
  rename_i frame batch hworker
  obtain rfl := Option.some.inj hstep
  have hbatch : s.worker.batch = frame :: batch := by rw [hworker]; rfl
  exact
    { h with
      lane := h.lane.mono fun p _ hdone => hdone.imp_left (List.mem_append_left _)
      queued := by
        intro q hq
        rcases hq with hq | hq | hq
        · exact h.queued q (Or.inl hq)
        · exact h.queued q (Or.inr (Or.inl hq))
        · exact h.queued q (Or.inr (Or.inr (hbatch ▸ hq)))
      file_passed := fun p hp hle => (h.file_passed p hp hle).imp_left (List.mem_append_left _)
      delivered := by
        intro b hb
        cases hb
        simp
      marking := by
        intro b c hb
        cases hb }

lemma batchCursor_mem {batch : List QueuedFrame} (hne : batch ≠ []) :
    ∃ q ∈ batch, q.position = batchCursor batch := by
  induction batch with
  | nil => exact absurd rfl hne
  | cons q batch ih =>
    have hcons : batchCursor (q :: batch) = max q.position (batchCursor batch) := rfl
    by_cases hnil : batch = []
    · refine ⟨q, List.mem_cons_self, ?_⟩
      have hmin : (⟨0, 0⟩ : SegmentCursor) ≤ q.position := SegmentCursor.origin_le _
      rw [hcons, hnil]
      exact (max_eq_left hmin).symm
    · obtain ⟨r, hr, hpos⟩ := ih hnil
      rcases le_total q.position (batchCursor batch) with hle | hle
      · exact ⟨r, List.mem_cons_of_mem _ hr, by rw [hcons, max_eq_right hle, hpos]⟩
      · exact ⟨q, List.mem_cons_self, by rw [hcons, max_eq_left hle]⟩

/-- The cursor of a batch is one the lane can be marked with. -/
lemma SystemInv.markCursor (h : SystemInv host base s) {batch : List QueuedFrame}
    (hworker : s.worker = .delivered batch) :
    MarkCursor base s.log s.lane (batchCursor batch) := by
  obtain ⟨q, hq, hpos⟩ := batchCursor_mem (h.delivered batch hworker)
  have hbatch : s.worker.batch = batch := by rw [hworker]; rfl
  have hseq : q.segment = (batchCursor batch).seq := by rw [← hpos]; rfl
  rcases h.queued q (Or.inr (Or.inr (hbatch ▸ hq))) with hold | ⟨p, hp, rfl⟩
  · have hbase := h.lane.base_le
    refine ⟨by omega, fun hle => ?_⟩
    omega
  · have hplace : p.place.seq = (batchCursor batch).seq := hseq
    exact ⟨hplace ▸ (h.lane.placed p hp).2.1, fun _ => ⟨p, hp, hpos⟩⟩

lemma SystemInv.beginMark (h : SystemInv host base s) (hok : MarkInOrder s .beginMark)
    (hstep : s.beginMark = some s') : SystemInv host base s' := by
  unfold LaneSystem.beginMark at hstep
  split at hstep
  swap
  · cases hstep
  rename_i batch hworker
  obtain rfl := Option.some.inj hstep
  have hbatch : s.worker.batch = batch := by rw [hworker]; rfl
  have hadv := h.lane.advanceCursor (h.markCursor hworker) (hbatch ▸ hok)
  exact
    { h with
      queued := by
        intro q hq
        rcases hq with hq | hq | hq
        · exact h.queued q (Or.inl hq)
        · exact h.queued q (Or.inr (Or.inl hq))
        · exact h.queued q (Or.inr (Or.inr (hbatch ▸ hq)))
      delivered := by
        intro b hb
        cases hb
      marking := by
        intro b c hb
        obtain ⟨rfl, rfl⟩ : batch = b ∧
            advanceCursor s.dir.segments s.lane (batchCursor batch) = c := by
          simpa using hb
        exact hadv }

/-- A cursor text cut anywhere reads back as no more than the cursor. -/
lemma readCursor_cut_le (cursor : SegmentCursor) (k : ℕ) :
    readCursor (some ((cursorText cursor).take k)) ≤ cursor := by
  rcases readCursor_cut cursor k with hzero | ⟨hseq, hoffset⟩
  · rw [hzero]
    exact SegmentCursor.origin_le _
  · exact SegmentCursor.le_iff.mpr (Or.inr ⟨hseq, hoffset⟩)

lemma readCursor_whole_le (cursor : SegmentCursor) :
    readCursor (some (cursorText cursor)) ≤ cursor := by
  have h := readCursor_cut_le cursor (cursorText cursor).length
  rwa [List.take_length] at h

/-- Writing a cursor, whole or not, leaves the old file or one that reads back as no more. -/
lemma writeCursor_le (file : Option (List Char)) (cursor : SegmentCursor)
    (fault : Option CursorFault) :
    (writeCursor file cursor fault).1 = file ∨
      readCursor (writeCursor file cursor fault).1 ≤ cursor := by
  cases fault with
  | none => exact Or.inr (readCursor_whole_le cursor)
  | some fault =>
    cases fault with
    | openFile error => exact Or.inl rfl
    | writeAll written error => exact Or.inr (readCursor_cut_le cursor written)
    | syncData error => exact Or.inr (readCursor_whole_le cursor)

lemma writeMark_file (dir : LaneDir) (lane : WalLane) (cursor : SegmentCursor) (bytes : ℕ)
    (fault : Option CursorFault) :
    (writeMark dir lane cursor bytes fault).1.cursorFile =
      (writeCursor dir.cursorFile cursor fault).1 := by
  unfold writeMark
  split <;> simp [*]

lemma writeMark_lane (dir : LaneDir) (lane : WalLane) (cursor : SegmentCursor) (bytes : ℕ)
    (fault : Option CursorFault) :
    endCursor (writeMark dir lane cursor bytes fault).2.1 = endCursor lane := by
  unfold writeMark
  split <;> rfl

/-- A mark keeps the invariant of the lane, also when its cursor file is not written. -/
lemma LaneInv.writeMark_fault {log : List Placed} {done : Placed → Prop} {dir : LaneDir}
    {lane : WalLane} (h : LaneInv host base log done dir lane) {cursor : SegmentCursor} {bytes : ℕ}
    (hadv : Advanced base log done lane cursor) (fault : Option CursorFault) :
    LaneInv host base log done (Wal.writeMark dir lane cursor bytes fault).1
      (Wal.writeMark dir lane cursor bytes fault).2.1 := by
  cases fault with
  | none => exact h.writeMark hadv
  | some fault =>
    cases fault with
    | openFile error => exact h.cursorFile _
    | writeAll written error => exact h.cursorFile _
    | syncData error => exact h.cursorFile _

lemma SystemInv.mark (h : SystemInv host base s) {fault : Option CursorFault}
    (hstep : s.mark fault = some s') : SystemInv host base s' := by
  unfold LaneSystem.mark at hstep
  split at hstep
  swap
  · cases hstep
  rename_i batch cursor hworker
  obtain rfl := Option.some.inj hstep
  have hadv := h.marking batch cursor hworker
  have hfile := writeCursor_le s.dir.cursorFile cursor fault
  rw [← writeMark_file s.dir s.lane cursor (batchBytes batch) fault] at hfile
  exact
    { lane := h.lane.writeMark_fault hadv fault
      queued := by
        intro q hq
        rcases hq with hq | hq | hq
        · exact h.queued q (Or.inl hq)
        · exact h.queued q (Or.inr (Or.inl hq))
        · cases hq
      counts := h.counts
      nodup := h.nodup
      file_le := by
        show readCursor (writeMark s.dir s.lane cursor (batchBytes batch) fault).1.cursorFile ≤
          endCursor (writeMark s.dir s.lane cursor (batchBytes batch) fault).2.1
        rw [writeMark_lane]
        rcases hfile with hsame | hle
        · rw [hsame]
          exact h.file_le
        · exact hle.trans (hadv.le_end h.lane)
      file_passed := by
        intro p hp hpos
        rcases hfile with hsame | hle
        · exact h.file_passed p hp (hsame ▸ hpos)
        · exact hadv.passed p hp (hpos.trans hle)
      delivered := by
        intro b hb
        cases hb
      marking := by
        intro b c hb
        cases hb }

lemma SystemInv.failBatch (h : SystemInv host base s) :
    SystemInv host base { s with worker := .collecting [] } :=
  { h with
    queued := by
      intro q hq
      rcases hq with hq | hq | hq
      · exact h.queued q (Or.inl hq)
      · exact h.queued q (Or.inr (Or.inl hq))
      · cases hq
    delivered := by
      intro b hb
      cases hb
    marking := by
      intro b c hb
      cases hb }

theorem SystemInv.step (h : SystemInv host base s) {l : LaneLabel} (hok : MarkInOrder s l)
    (hstep : systemStep host s l = some s') : SystemInv host base s' := by
  cases l with
  | accept id frames =>
    simp only [systemStep] at hstep
    split at hstep
    · rename_i hfree
      obtain rfl := Option.some.inj hstep
      exact h.accept hfree
    · cases hstep
  | reserve id =>
    simp only [systemStep, LaneSystem.reserve] at hstep
    split at hstep
    · rename_i sent frame rest htask
      split_ifs at hstep
      · obtain rfl := Option.some.inj hstep
        exact h.moveTask htask rfl
      · obtain rfl := Option.some.inj hstep
        exact h.failTask htask
    · cases hstep
  | append id => exact h.append hstep
  | send id =>
    simp only [systemStep, LaneSystem.send] at hstep
    split at hstep
    · rename_i sent frame rest htask
      obtain rfl := Option.some.inj hstep
      exact h.send htask
    · cases hstep
  | finish id =>
    simp only [systemStep, LaneSystem.finish] at hstep
    split at hstep
    · rename_i sent htask
      obtain rfl := Option.some.inj hstep
      exact h.finish htask
    · cases hstep
  | abort id =>
    obtain ⟨task, htask, rfl⟩ := Option.map_eq_some_iff.mp hstep
    exact h.failTask htask
  | sealIfDirty =>
    obtain rfl := Option.some.inj hstep
    exact h.sealIfDirty
  | replaySend =>
    simp only [systemStep] at hstep
    split at hstep
    · cases hstep
    · rename_i frame replaying hreplaying
      split_ifs at hstep
      obtain rfl := Option.some.inj hstep
      exact h.replaySend hreplaying
  | receive => exact h.receive hstep
  | deliver => exact h.deliver hstep
  | failBatch =>
    simp only [systemStep] at hstep
    split at hstep
    · obtain rfl := Option.some.inj hstep
      exact h.failBatch
    · cases hstep
  | beginMark => exact h.beginMark hok hstep
  | mark fault => exact h.mark hstep

end Maple.Wal
