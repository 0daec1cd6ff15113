import Maple.WalLane
import Maple.WalSegmentDecode

/-! What the files of a lane hold after the appends and marks made on it. -/

namespace Maple.Wal

open ByteReader FrameStream

/-- A frame that an append returned `Ok` for, and where it landed. -/
structure Placed where
  frame : EncodedFrame
  place : Placement
  deriving DecidableEq

def Placed.position (p : Placed) : SegmentCursor := ⟨p.place.seq, p.place.stop⟩

def placedAt (host : WalHost) (seq start : ℕ) (frame : EncodedFrame) : Placed :=
  ⟨frame, ⟨seq, start, start + (frameBytes host frame).length⟩⟩

def inSegment (log : List Placed) (seq : ℕ) : List Placed :=
  log.filter fun p => decide (p.place.seq = seq)

/-- A segment holds the frames of `log` that landed in it, end to end. -/
structure SegmentHolds (host : WalHost) (log : List Placed) (segments : SeqMap (List UInt8))
    (seq : ℕ) (frames : List EncodedFrame) : Prop where
  fits : ∀ f ∈ frames, f.Fits
  logged : inSegment log seq = framesAt (frameBytes host) (placedAt host seq) 0 frames
  bytes : segments.get seq = some (frames.flatMap (frameBytes host))

/-- What holds of a lane between calls. The segments from `base` on are the ones this lane has
opened itself; a frame the cursor has passed is `done`. -/
structure LaneInv (host : WalHost) (base : ℕ) (log : List Placed) (done : Placed → Prop)
    (dir : LaneDir) (lane : WalLane) : Prop where
  append_seq : lane.appendState.seq = lane.activeSeq
  append_len : lane.appendState.len = fileLen dir.segments lane.activeSeq
  base_le : base ≤ lane.activeSeq
  cursor_le : lane.exportState.cursor.seq ≤ lane.activeSeq
  next_delete : lane.exportState.nextDelete = lane.exportState.cursor.seq
  within : ∀ seq, (dir.segments.get seq).isSome →
    lane.exportState.cursor.seq ≤ seq ∧ seq ≤ lane.activeSeq
  live : lane.liveBytes = dir.segments.weight List.length
  holds : ∀ seq, base ≤ seq → seq ≤ lane.activeSeq → lane.exportState.cursor.seq ≤ seq →
    ∃ frames, SegmentHolds host log dir.segments seq frames
  boundary : base ≤ lane.exportState.cursor.seq → lane.exportState.cursor.offset = 0 ∨
    ∃ p ∈ log, p.position = lane.exportState.cursor
  placed : ∀ p ∈ log, base ≤ p.place.seq ∧ p.place.seq ≤ lane.activeSeq ∧ 0 < p.place.stop
  passed : ∀ p ∈ log, p.position ≤ lane.exportState.cursor → done p

variable {host : WalHost} {base : ℕ} {log : List Placed} {done : Placed → Prop} {dir : LaneDir}
  {lane : WalLane}

lemma mem_inSegment {seq : ℕ} {p : Placed} : p ∈ inSegment log seq ↔ p ∈ log ∧ p.place.seq = seq := by
  simp [inSegment]

lemma frameBytes_pos (host : WalHost) (frame : EncodedFrame) : 0 < (frameBytes host frame).length :=
  List.length_pos_iff.mpr (frameBytes_ne_nil host frame)

/-- Where a frame of the log sits among the bytes of its segment. -/
lemma SegmentHolds.split {segments : SeqMap (List UInt8)} {seq : ℕ} {frames : List EncodedFrame}
    (h : SegmentHolds host log segments seq frames) {p : Placed} (hp : p ∈ log)
    (hseq : p.place.seq = seq) :
    ∃ before after, frames = before ++ p.frame :: after ∧
      p = placedAt host seq (before.flatMap (frameBytes host)).length p.frame := by
  have hmem : p ∈ inSegment log seq := mem_inSegment.mpr ⟨hp, hseq⟩
  rw [h.logged, mem_framesAt] at hmem
  obtain ⟨before, x, after, hsplit, heq⟩ := hmem
  have hx : p.frame = x := by rw [heq]; rfl
  refine ⟨before, after, by rw [hx, hsplit], ?_⟩
  rw [hx, heq, Nat.zero_add]

/-- A frame ends inside its segment's file. -/
lemma SegmentHolds.stop_le {segments : SeqMap (List UInt8)} {seq : ℕ} {frames : List EncodedFrame}
    (h : SegmentHolds host log segments seq frames) {p : Placed} (hp : p ∈ log)
    (hseq : p.place.seq = seq) : p.place.stop ≤ fileLen segments seq := by
  obtain ⟨before, after, hframes, hplace⟩ := h.split hp hseq
  have hlen : fileLen segments seq = (frames.flatMap (frameBytes host)).length := by
    simp [fileLen, h.bytes]
  rw [hlen, hframes, hplace]
  simp only [placedAt, List.flatMap_append, List.flatMap_cons, List.length_append]
  omega

lemma fileLen_eq {segments : SeqMap (List UInt8)} {seq : ℕ} {bytes : List UInt8}
    (h : segments.get seq = some bytes) : fileLen segments seq = bytes.length := by
  simp [fileLen, h]

lemma LaneInv.mono {done' : Placed → Prop} (h : LaneInv host base log done dir lane)
    (hdone : ∀ p ∈ log, done p → done' p) : LaneInv host base log done' dir lane :=
  { h with passed := fun p hp hle => hdone p hp (h.passed p hp hle) }

/-- The invariant does not speak of the cursor file. -/
lemma LaneInv.cursorFile (h : LaneInv host base log done dir lane) (file : Option (List Char)) :
    LaneInv host base log done { dir with cursorFile := file } lane :=
  { h with }

lemma LaneInv.active (h : LaneInv host base log done dir lane) :
    ∃ frames, SegmentHolds host log dir.segments lane.activeSeq frames :=
  h.holds _ h.base_le le_rfl h.cursor_le

/-- In the segment being appended to, the cursor is never past the end. -/
lemma LaneInv.cursor_offset_le (h : LaneInv host base log done dir lane)
    (hseq : lane.exportState.cursor.seq = lane.activeSeq) :
    lane.exportState.cursor.offset ≤ lane.appendState.len := by
  obtain ⟨frames, hframes⟩ := h.active
  have hbase : base ≤ lane.exportState.cursor.seq := hseq ▸ h.base_le
  rcases h.boundary hbase with hzero | ⟨p, hp, hpos⟩
  · omega
  · have hplace : p.place.seq = lane.activeSeq := by
      rw [← hseq, ← hpos]
      rfl
    have hstop : p.place.stop = lane.exportState.cursor.offset := by
      rw [← hpos]
      rfl
    have hle := hframes.stop_le hp hplace
    rw [h.append_len, ← hstop]
    exact hle

lemma inSegment_append_other {p : Placed} {seq : ℕ} (h : p.place.seq ≠ seq) :
    inSegment (log ++ [p]) seq = inSegment log seq := by
  simp [inSegment, h]

lemma inSegment_append_self {p : Placed} {seq : ℕ} (h : p.place.seq = seq) :
    inSegment (log ++ [p]) seq = inSegment log seq ++ [p] := by
  simp [inSegment, h]

/-- A whole frame written at the end of a segment and logged there. -/
lemma SegmentHolds.write {segments : SeqMap (List UInt8)} {seq : ℕ} {frames : List EncodedFrame}
    (h : SegmentHolds host log segments seq frames) {frame : EncodedFrame} (hfit : frame.Fits) :
    SegmentHolds host (log ++ [placedAt host seq (fileLen segments seq) frame])
      (writeSegment segments seq (frameBytes host frame)) seq (frames ++ [frame]) where
  fits := by
    intro f hf
    rcases List.mem_append.mp hf with hf | hf
    · exact h.fits f hf
    · rw [List.mem_singleton.mp hf]
      exact hfit
  logged := by
    have hself : (placedAt host seq (fileLen segments seq) frame).place.seq = seq := rfl
    rw [inSegment_append_self hself, h.logged, framesAt_append, fileLen_eq h.bytes]
    simp [framesAt]
  bytes := by
    simp [writeSegment, h.bytes]

/-- A frame written to one segment leaves what the others hold. -/
lemma SegmentHolds.write_other {segments : SeqMap (List UInt8)} {seq : ℕ}
    {frames : List EncodedFrame} (h : SegmentHolds host log segments seq frames) {p : Placed}
    {bytes : List UInt8} (hne : p.place.seq ≠ seq) :
    SegmentHolds host (log ++ [p]) (writeSegment segments p.place.seq bytes) seq frames where
  fits := h.fits
  logged := by rw [inSegment_append_other hne, h.logged]
  bytes := by
    rw [writeSegment, SeqMap.get_set, if_neg (Ne.symm hne)]
    exact h.bytes

lemma writeSegment_isSome {segments : SeqMap (List UInt8)} {seq k : ℕ} {bytes : List UInt8} :
    ((writeSegment segments seq bytes).get k).isSome ↔ k = seq ∨ (segments.get k).isSome := by
  by_cases hk : k = seq
  · simp [writeSegment, hk]
  · simp [writeSegment, hk]

lemma writeSegment_weight {segments : SeqMap (List UInt8)} {seq : ℕ} {bytes : List UInt8} :
    (writeSegment segments seq bytes).weight List.length =
      segments.weight List.length + bytes.length := by
  have h := SeqMap.weight_set List.length segments seq ((segments.get seq).getD [] ++ bytes)
  cases hget : segments.get seq with
  | none =>
    simp only [hget, Option.elim_none, Option.getD_none, List.nil_append] at h
    simp only [writeSegment, hget, Option.getD_none, List.nil_append]
    omega
  | some old =>
    simp only [hget, Option.elim_some, Option.getD_some, List.length_append] at h
    simp only [writeSegment, hget, Option.getD_some]
    omega

/-- The part of an append between the lane-full check and the seal. -/
lemma LaneInv.write (h : LaneInv host base log done dir lane) {frame : EncodedFrame}
    (hfit : frame.Fits) :
    LaneInv host base (log ++ [placedAt host lane.activeSeq lane.appendState.len frame]) done
      { dir with
        segments := writeSegment dir.segments lane.appendState.seq (frameBytes host frame) }
      (countAppend lane (frameBytes host frame).length) := by
  obtain ⟨frames, hframes⟩ := h.active
  have hpos := frameBytes_pos host frame
  have hwrite := hframes.write hfit
  rw [← h.append_len] at hwrite
  refine
    { append_seq := h.append_seq
      append_len := ?_
      base_le := h.base_le
      cursor_le := h.cursor_le
      next_delete := h.next_delete
      within := ?_
      live := ?_
      holds := ?_
      boundary := ?_
      placed := ?_
      passed := ?_ }
  · show lane.appendState.len + (frameBytes host frame).length = _
    rw [h.append_seq]
    simp only [countAppend, fileLen_eq hwrite.bytes, List.flatMap_append, List.length_append,
      List.flatMap_singleton, h.append_len, fileLen_eq hframes.bytes]
  · intro seq hseq
    rcases writeSegment_isSome.mp hseq with rfl | hseq
    · exact ⟨by rw [h.append_seq]; exact h.cursor_le, by rw [h.append_seq]; exact le_rfl⟩
    · exact h.within seq hseq
  · show lane.liveBytes + _ = _
    rw [writeSegment_weight, h.live]
  · intro seq hbase hactive hcursor
    rw [h.append_seq]
    by_cases hseq : lane.activeSeq = seq
    · subst hseq
      exact ⟨_, hwrite⟩
    · obtain ⟨fs, hfs⟩ := h.holds seq hbase hactive hcursor
      exact ⟨fs, hfs.write_other hseq⟩
  · intro hbase
    rcases h.boundary hbase with hzero | ⟨p, hp, hpos⟩
    · exact Or.inl hzero
    · exact Or.inr ⟨p, List.mem_append_left _ hp, hpos⟩
  · intro p hp
    rcases List.mem_append.mp hp with hp | hp
    · exact h.placed p hp
    · rw [List.mem_singleton.mp hp]
      exact ⟨h.base_le, le_rfl, by simp only [placedAt]; omega⟩
  · intro p hp hle
    rcases List.mem_append.mp hp with hp | hp
    · exact h.passed p hp hle
    · exfalso
      rw [List.mem_singleton.mp hp] at hle
      rcases SegmentCursor.le_iff.mp hle with hlt | ⟨heq, hoff⟩
      · exact absurd h.cursor_le (by simpa [Placed.position, placedAt, countAppend] using hlt)
      · have hoffset := h.cursor_offset_le heq.symm
        simp only [Placed.position, placedAt, countAppend] at hoff
        omega

/-- The next segment does not exist before the seal creates it. -/
lemma LaneInv.next_none (h : LaneInv host base log done dir lane) :
    dir.segments.get (lane.activeSeq + 1) = none := by
  by_contra hsome
  have hle := (h.within _ (Option.isSome_iff_ne_none.mpr hsome)).2
  omega

lemma LaneInv.sealed (h : LaneInv host base log done dir lane) :
    LaneInv host base log done (sealSegment dir lane).1 (sealSegment dir lane).2 := by
  have hnone := h.next_none
  have hopen : openSegment dir.segments (lane.appendState.seq + 1) =
      dir.segments.set (lane.activeSeq + 1) [] := by
    rw [h.append_seq, openSegment, hnone]
  have hempty : inSegment log (lane.activeSeq + 1) = [] := by
    rw [inSegment, List.filter_eq_nil_iff]
    intro p hp
    have hle := (h.placed p hp).2.1
    simp only [decide_eq_true_eq]
    omega
  simp only [sealSegment, hopen]
  rw [h.append_seq]
  exact
    { append_seq := rfl
      append_len := by simp [fileLen]
      base_le := by
        have := h.base_le
        show base ≤ lane.activeSeq + 1
        omega
      cursor_le := by
        have := h.cursor_le
        show lane.exportState.cursor.seq ≤ lane.activeSeq + 1
        omega
      next_delete := h.next_delete
      within := by
        intro seq hseq
        by_cases hnew : seq = lane.activeSeq + 1
        · have := h.cursor_le
          show lane.exportState.cursor.seq ≤ seq ∧ seq ≤ lane.activeSeq + 1
          omega
        · have hold := h.within seq (by simpa [hnew] using hseq)
          show lane.exportState.cursor.seq ≤ seq ∧ seq ≤ lane.activeSeq + 1
          omega
      live := by
        have hweight := SeqMap.weight_set List.length dir.segments (lane.activeSeq + 1) []
        rw [hnone, Option.elim_none, List.length_nil] at hweight
        show lane.liveBytes = (dir.segments.set (lane.activeSeq + 1) []).weight List.length
        rw [h.live]
        omega
      holds := by
        intro seq hbase hactive hcursor
        by_cases hnew : seq = lane.activeSeq + 1
        · refine ⟨[], by simp, ?_, ?_⟩
          · rw [hnew, hempty]
            rfl
          · simp [hnew]
        · have hle : seq ≤ lane.activeSeq := by
            have : seq ≤ lane.activeSeq + 1 := hactive
            omega
          obtain ⟨fs, hfs⟩ := h.holds seq hbase hle hcursor
          exact ⟨fs, hfs.fits, hfs.logged, by simpa [hnew] using hfs.bytes⟩
      boundary := h.boundary
      placed := by
        intro p hp
        obtain ⟨hlow, hhigh, hstop⟩ := h.placed p hp
        exact ⟨hlow, Nat.le_succ_of_le hhigh, hstop⟩
      passed := h.passed }

lemma reclaim_get (segments : SeqMap (List UInt8)) (next count k : ℕ) :
    (reclaim segments next count).1.get k =
      if next ≤ k ∧ k < next + count then none else segments.get k := by
  induction count generalizing segments next with
  | zero =>
    have hk : ¬ (next ≤ k ∧ k < next + 0) := by omega
    simp only [reclaim, if_neg hk]
  | succ count ih =>
    simp only [reclaim, ih, SeqMap.get_erase]
    by_cases hk : k = next
    · have hin : next ≤ k ∧ k < next + (count + 1) := by omega
      simp [hk]
    · by_cases hin : next + 1 ≤ k ∧ k < next + 1 + count
      · have hin' : next ≤ k ∧ k < next + (count + 1) := by omega
        rw [if_pos hin, if_pos hin']
      · have hin' : ¬ (next ≤ k ∧ k < next + (count + 1)) := by omega
        rw [if_neg hin, if_neg hin', if_neg hk]

/-- Deleting segments frees exactly the bytes it reports. -/
lemma reclaim_weight (segments : SeqMap (List UInt8)) (next count : ℕ) :
    (reclaim segments next count).1.weight List.length + (reclaim segments next count).2 =
      segments.weight List.length := by
  induction count generalizing segments next with
  | zero => rfl
  | succ count ih =>
    have herase := SeqMap.weight_erase List.length segments next
    have hrest := ih (segments.erase next) (next + 1)
    simp only [reclaim, fileLen]
    omega

/-- A cursor that a batch of this lane's frames can hand to the exporter. -/
def MarkCursor (base : ℕ) (log : List Placed) (lane : WalLane) (cursor : SegmentCursor) : Prop :=
  cursor.seq ≤ lane.activeSeq ∧ (base ≤ cursor.seq → ∃ p ∈ log, p.position = cursor)

/-- The greater of the batch's cursor and the lane's. -/
lemma LaneInv.max_cursor (h : LaneInv host base log done dir lane) {cursor : SegmentCursor}
    (hmark : MarkCursor base log lane cursor) (hdone : ∀ p ∈ log, p.position ≤ cursor → done p) :
    lane.exportState.cursor ≤ max cursor lane.exportState.cursor ∧
      (max cursor lane.exportState.cursor).seq ≤ lane.activeSeq ∧
      (base ≤ (max cursor lane.exportState.cursor).seq →
        (max cursor lane.exportState.cursor).offset = 0 ∨
          ∃ p ∈ log, p.position = max cursor lane.exportState.cursor) ∧
      ∀ p ∈ log, p.position ≤ max cursor lane.exportState.cursor → done p := by
  refine ⟨le_max_right _ _, ?_⟩
  rcases le_total cursor lane.exportState.cursor with hle | hle
  · rw [max_eq_right hle]
    exact ⟨h.cursor_le, h.boundary, h.passed⟩
  · rw [max_eq_left hle]
    exact ⟨hmark.1, fun hbase => Or.inr (hmark.2 hbase), hdone⟩

/-- A frame at or below a cursor that steps past a finished segment was below the cursor. -/
lemma LaneInv.position_le_of_step (h : LaneInv host base log done dir lane)
    {cursor : SegmentCursor} (hcursor : lane.exportState.cursor ≤ cursor)
    (hlen : fileLen dir.segments cursor.seq ≤ cursor.offset) {p : Placed} (hp : p ∈ log)
    (hle : p.position ≤ ⟨cursor.seq + 1, 0⟩) : p.position ≤ cursor := by
  obtain ⟨hbase, hactive, hstop⟩ := h.placed p hp
  have hseq : p.place.seq ≤ cursor.seq := by
    rcases SegmentCursor.le_iff.mp hle with hlt | ⟨-, hoff⟩
    · simp only [Placed.position] at hlt
      omega
    · simp only [Placed.position] at hoff
      omega
  rcases Nat.lt_or_eq_of_le hseq with hlt | heq
  · exact SegmentCursor.le_iff.mpr (Or.inl hlt)
  · have hfrom : lane.exportState.cursor.seq ≤ p.place.seq :=
      heq ▸ SegmentCursor.seq_le_of_le hcursor
    obtain ⟨frames, hframes⟩ := h.holds _ hbase hactive hfrom
    have hin := hframes.stop_le hp rfl
    rw [heq] at hin
    exact SegmentCursor.le_iff.mpr (Or.inr ⟨heq, hin.trans hlen⟩)

/-- A cursor that a mark may write: not behind the lane's, at a frame boundary, and passing only
frames that are done. -/
structure Advanced (base : ℕ) (log : List Placed) (done : Placed → Prop) (lane : WalLane)
    (cursor : SegmentCursor) : Prop where
  from_le : lane.exportState.cursor.seq ≤ cursor.seq
  le_active : cursor.seq ≤ lane.activeSeq
  boundary : base ≤ cursor.seq → cursor.offset = 0 ∨ ∃ p ∈ log, p.position = cursor
  passed : ∀ p ∈ log, p.position ≤ cursor → done p

lemma LaneInv.advanceCursor (h : LaneInv host base log done dir lane) {cursor : SegmentCursor}
    (hmark : MarkCursor base log lane cursor) (hdone : ∀ p ∈ log, p.position ≤ cursor → done p) :
    Advanced base log done lane (Wal.advanceCursor dir.segments lane cursor) := by
  obtain ⟨hle, hactive, hboundary, hpassed⟩ := h.max_cursor hmark hdone
  have hseq := SegmentCursor.seq_le_of_le hle
  by_cases hstep : (max cursor lane.exportState.cursor).seq < lane.activeSeq ∧
      fileLen dir.segments (max cursor lane.exportState.cursor).seq ≤
        (max cursor lane.exportState.cursor).offset
  · have heq : Wal.advanceCursor dir.segments lane cursor =
        ⟨(max cursor lane.exportState.cursor).seq + 1, 0⟩ := if_pos hstep
    rw [heq]
    refine ⟨by show _ ≤ _ + 1; omega, hstep.1, fun _ => Or.inl rfl, fun p hp hpos => ?_⟩
    exact hpassed p hp (h.position_le_of_step hle hstep.2 hp hpos)
  · have heq : Wal.advanceCursor dir.segments lane cursor =
        max cursor lane.exportState.cursor := if_neg hstep
    rw [heq]
    exact ⟨hseq, hactive, hboundary, hpassed⟩

/-- A mark whose cursor is written keeps the invariant. -/
lemma LaneInv.writeMark (h : LaneInv host base log done dir lane) {cursor : SegmentCursor}
    {bytes : ℕ} (hadv : Advanced base log done lane cursor) :
    LaneInv host base log done (Wal.writeMark dir lane cursor bytes none).1
      (Wal.writeMark dir lane cursor bytes none).2.1 := by
  have hfrom := hadv.from_le
  have hactive := hadv.le_active
  have hget := fun k => reclaim_get dir.segments lane.exportState.cursor.seq
    (cursor.seq - lane.exportState.cursor.seq) k
  have hweight := reclaim_weight dir.segments lane.exportState.cursor.seq
    (cursor.seq - lane.exportState.cursor.seq)
  have hkept : ∀ k, cursor.seq ≤ k → (reclaim dir.segments lane.exportState.cursor.seq
      (cursor.seq - lane.exportState.cursor.seq)).1.get k = dir.segments.get k := by
    intro k hk
    rw [hget, if_neg (by omega)]
  simp only [Wal.writeMark, writeCursor, h.next_delete]
  generalize reclaim dir.segments lane.exportState.cursor.seq
    (cursor.seq - lane.exportState.cursor.seq) = freed at *
  exact
    { append_seq := h.append_seq
      append_len := by
        show lane.appendState.len = _
        rw [h.append_len]
        simp only [fileLen, hkept _ hactive]
      base_le := h.base_le
      cursor_le := hactive
      next_delete := by
        show max _ _ = cursor.seq
        omega
      within := by
        intro seq hseq
        show cursor.seq ≤ seq ∧ seq ≤ lane.activeSeq
        rw [hget] at hseq
        split_ifs at hseq with hdel
        · cases hseq
        · have hold := h.within seq hseq
          omega
      live := by
        show (if 0 < freed.2 then fetchSub lane.liveBytes freed.2 else lane.liveBytes) =
          freed.1.weight List.length
        rw [h.live]
        split_ifs with hpos
        · have hle : freed.2 ≤ dir.segments.weight List.length := by omega
          rw [fetchSub, if_pos hle]
          omega
        · omega
      holds := by
        intro seq hbase hle hcursor
        obtain ⟨fs, hfs⟩ := h.holds seq hbase hle (hfrom.trans hcursor)
        exact ⟨fs, hfs.fits, hfs.logged, by rw [hkept seq hcursor]; exact hfs.bytes⟩
      boundary := hadv.boundary
      placed := h.placed
      passed := hadv.passed }

/-- The lane after a frame has been written and counted, and after the seal when one is due. -/
def appended (host : WalHost) (dir : LaneDir) (lane : WalLane) (frame : EncodedFrame) :
    LaneDir × WalLane :=
  let encoded := frameBytes host frame
  let written := { dir with segments := writeSegment dir.segments lane.appendState.seq encoded }
  let counted := countAppend lane encoded.length
  if lane.config.segmentMaxBytes ≤ lane.appendState.len + encoded.length then
    sealSegment written counted
  else (written, counted)

lemma LaneInv.appended (h : LaneInv host base log done dir lane) {frame : EncodedFrame}
    (hfit : frame.Fits) :
    LaneInv host base (log ++ [placedAt host lane.appendState.seq lane.appendState.len frame]) done
      (Wal.appended host dir lane frame).1 (Wal.appended host dir lane frame).2 := by
  have hwrite := h.write hfit
  rw [← h.append_seq] at hwrite
  simp only [Wal.appended]
  split_ifs with hseal
  · exact hwrite.sealed
  · exact hwrite

/-- The place where the next frame will start. -/
def endCursor (lane : WalLane) : SegmentCursor := ⟨lane.activeSeq, lane.appendState.len⟩

/-- No logged frame ends past the end of the active segment. -/
lemma LaneInv.position_le_end (h : LaneInv host base log done dir lane) {p : Placed}
    (hp : p ∈ log) : p.position ≤ endCursor lane := by
  obtain ⟨-, hactive, -⟩ := h.placed p hp
  rcases Nat.lt_or_eq_of_le hactive with hlt | heq
  · exact SegmentCursor.le_iff.mpr (Or.inl hlt)
  · obtain ⟨frames, hframes⟩ := h.active
    have hstop := hframes.stop_le hp heq
    rw [← h.append_len] at hstop
    exact SegmentCursor.le_iff.mpr (Or.inr ⟨heq, hstop⟩)

lemma Advanced.le_end (h : LaneInv host base log done dir lane) {cursor : SegmentCursor}
    (hadv : Advanced base log done lane cursor) : cursor ≤ endCursor lane := by
  rcases Nat.lt_or_eq_of_le hadv.le_active with hlt | heq
  · exact SegmentCursor.le_iff.mpr (Or.inl hlt)
  · rcases hadv.boundary (heq ▸ h.base_le) with hzero | ⟨p, hp, hpos⟩
    · exact SegmentCursor.le_iff.mpr (Or.inr ⟨heq, by omega⟩)
    · exact hpos ▸ h.position_le_end hp

/-- The frame appended next ends past that place. -/
lemma endCursor_lt_placedAt (h : LaneInv host base log done dir lane) (frame : EncodedFrame) :
    endCursor lane <
      (placedAt host lane.appendState.seq lane.appendState.len frame).position := by
  have hpos := frameBytes_pos host frame
  refine SegmentCursor.lt_iff.mpr (Or.inr ⟨h.append_seq.symm, ?_⟩)
  simp only [endCursor, Placed.position, placedAt]
  omega

lemma endCursor_le_sealed (h : LaneInv host base log done dir lane) :
    endCursor lane ≤ endCursor (sealSegment dir lane).2 := by
  refine SegmentCursor.le_iff.mpr (Or.inl ?_)
  simp only [endCursor, sealSegment, h.append_seq]
  omega

lemma endCursor_le_appended (h : LaneInv host base log done dir lane) (frame : EncodedFrame) :
    endCursor lane ≤ endCursor (Wal.appended host dir lane frame).2 := by
  simp only [Wal.appended]
  split_ifs with hseal
  · refine SegmentCursor.le_iff.mpr (Or.inl ?_)
    simp only [endCursor, sealSegment, countAppend, h.append_seq]
    omega
  · refine SegmentCursor.le_iff.mpr (Or.inr ⟨rfl, ?_⟩)
    simp only [endCursor, countAppend]
    omega

lemma appended_exportState (dir : LaneDir) (lane : WalLane) (frame : EncodedFrame) :
    (appended host dir lane frame).2.exportState = lane.exportState := by
  simp only [appended]
  split_ifs <;> rfl

lemma appended_cursorFile (dir : LaneDir) (lane : WalLane) (frame : EncodedFrame) :
    (appended host dir lane frame).1.cursorFile = dir.cursorFile := by
  simp only [appended]
  split_ifs <;> rfl

/-- An append that meets no fault is refused by the cap, or places its frame. -/
lemma appendBlocking_cases (host : WalHost) (dir : LaneDir) (lane : WalLane)
    (frame : EncodedFrame) (cap : Bool) :
    (∃ e, appendBlocking dir lane (frameBytes host frame) cap none = (dir, lane, .error e)) ∨
    appendBlocking dir lane (frameBytes host frame) cap none =
      ((appended host dir lane frame).1, (appended host dir lane frame).2,
        .ok (placedAt host lane.appendState.seq lane.appendState.len frame).place) := by
  unfold appendBlocking
  by_cases hfull : laneFull lane (frameBytes host frame).length cap
  · exact Or.inl ⟨_, if_pos hfull⟩
  · right
    by_cases hseal : lane.config.segmentMaxBytes ≤
        lane.appendState.len + (frameBytes host frame).length
    · simp [hfull, appended, hseal, placedAt]
    · simp [hfull, appended, hseal, placedAt]

lemma appended_committedBytes (dir : LaneDir) (lane : WalLane) (frame : EncodedFrame) :
    (appended host dir lane frame).2.committedBytes =
      lane.committedBytes + (frameBytes host frame).length := by
  simp only [appended]
  split_ifs <;> rfl

/-- The segment opened next is above everything that survived, and the cursor is not above it. -/
lemma nextSegment_spec (live : SeqMap (List UInt8)) (stored : SegmentCursor) :
    let cursor := resumeCursor live stored
    let next := nextSegment live cursor
    live.get next = none ∧ cursor.seq ≤ next ∧
      (∀ seq, (live.get seq).isSome → cursor.seq ≤ seq ∧ seq < next) ∧
      (next ≤ cursor.seq → cursor.offset = 0) := by
  intro cursor next
  cases hlast : live.keys.getLast? with
  | none =>
    have hnil : live.keys = [] := List.getLast?_eq_none_iff.mp hlast
    have hkey : ∀ seq, ¬ (live.get seq).isSome := by
      intro seq hseq
      have hmem := SeqMap.mem_keys.mpr hseq
      rw [hnil] at hmem
      cases hmem
    have hnext : next = cursor.seq := by simp [next, nextSegment, hlast]
    have hoffset : cursor.offset = 0 := by simp [cursor, resumeCursor, hnil]
    refine ⟨Option.not_isSome_iff_eq_none.mp (hkey _), hnext.ge, ?_, fun _ => hoffset⟩
    intro seq hseq
    exact absurd hseq (hkey seq)
  | some last =>
    have hnext : next = last + 1 := by simp [next, nextSegment, hlast]
    have hmem : last ∈ live.keys := List.mem_of_getLast? hlast
    obtain ⟨first, hfirst⟩ : ∃ first, live.keys.head? = some first := by
      cases hkeys : live.keys with
      | nil => simp [hkeys] at hmem
      | cons x xs => exact ⟨x, rfl⟩
    have hcursor : cursor.seq = first := by
      by_cases hsame : first = stored.seq
      · simp [cursor, resumeCursor, hfirst, hsame]
      · simp [cursor, resumeCursor, hfirst, hsame]
    have hkeys : ∀ seq, (live.get seq).isSome → first ≤ seq ∧ seq ≤ last := fun seq hseq =>
      ⟨SeqMap.head_keys_le hfirst hseq, SeqMap.le_getLast_keys hlast hseq⟩
    have hspan := hkeys last (SeqMap.mem_keys.mp hmem)
    refine ⟨?_, by omega, ?_, by omega⟩
    · by_contra hsome
      have hle := (hkeys _ (Option.isSome_iff_ne_none.mpr hsome)).2
      omega
    · intro seq hseq
      have hin := hkeys seq hseq
      omega

/-- Opening a lane on any directory establishes the invariant, with nothing appended yet. -/
theorem laneInv_openLane (host : WalHost) (config : LaneConfig) (dir : LaneDir)
    (done : Placed → Prop) :
    LaneInv host (openLane config dir).2.activeSeq [] done (openLane config dir).1
      (openLane config dir).2 := by
  obtain ⟨hnone, hcursor, hkeys, hoffset⟩ :=
    nextSegment_spec (liveSegments dir.segments (readCursor dir.cursorFile))
      (readCursor dir.cursorFile)
  simp only [openLane]
  generalize liveSegments dir.segments (readCursor dir.cursorFile) = live at *
  generalize resumeCursor live (readCursor dir.cursorFile) = cursor at *
  generalize nextSegment live cursor = next at *
  have hopen : openSegment live next = live.set next [] := by rw [openSegment, hnone]
  rw [hopen]
  exact
    { append_seq := rfl
      append_len := by simp [fileLen]
      base_le := le_rfl
      cursor_le := hcursor
      next_delete := rfl
      within := by
        intro seq hseq
        show cursor.seq ≤ seq ∧ seq ≤ next
        by_cases hnew : seq = next
        · omega
        · have hold := hkeys seq (by simpa [hnew] using hseq)
          omega
      live := by
        have hweight := SeqMap.weight_set List.length live next []
        rw [hnone, Option.elim_none, List.length_nil] at hweight
        show live.weight List.length = (live.set next []).weight List.length
        omega
      holds := by
        intro seq hbase hactive _
        obtain rfl : seq = next := le_antisymm hactive hbase
        exact ⟨[], by simp, rfl, by simp⟩
      boundary := fun hbase => Or.inl (hoffset hbase)
      placed := by simp
      passed := by simp }

def queuedOf (host : WalHost) (p : Placed) : QueuedFrame :=
  queueDecoded p.place.seq p.place.start (decodedFrame host p.place.start p.frame)

lemma readsBack_queued {seq : ℕ} {frames : List EncodedFrame} (hfit : ∀ f ∈ frames, f.Fits) :
    ReadsBack (readQueuedFrame host seq) (frameBytes host)
      (fun start f => queuedOf host (placedAt host seq start f)) frames := by
  intro f hf
  refine ⟨frameBytes_ne_nil host f, fun start rest => ?_⟩
  rw [readQueuedFrame, readWalFrame_frameBytes host (hfit f hf)]
  rfl

/-- Replaying a segment from a frame boundary gives at least the frames from there on. -/
lemma mem_replaySegment {seq : ℕ} {before frames : List EncodedFrame}
    (hfit : ∀ f ∈ frames, f.Fits) (tail : List UInt8) {p : Placed}
    (hp : p ∈ framesAt (frameBytes host) (placedAt host seq)
      (before.flatMap (frameBytes host)).length frames) :
    queuedOf host p ∈ replaySegment host seq (before.flatMap (frameBytes host)).length
      (before.flatMap (frameBytes host) ++ (frames.flatMap (frameBytes host) ++ tail)) := by
  have hcount : frames.length ≤ (before.flatMap (frameBytes host) ++
      (frames.flatMap (frameBytes host) ++ tail)).length := by
    have hle := length_le_flatMap fun f (_ : f ∈ frames) => frameBytes_ne_nil host f
    simp only [List.length_append]
    omega
  obtain ⟨extra, hextra⟩ := Nat.exists_eq_add_of_le hcount
  rw [replaySegment, List.drop_left' rfl, hextra,
    decodeStream_append (readsBack_queued hfit) (fun _ _ _ => rfl),
    framesAt_map (queuedOf host)]
  exact List.mem_append_left _ (List.mem_map_of_mem hp)

/-- An offset that is zero or the end of a logged frame is a frame boundary. -/
lemma boundary_split {seq offset : ℕ} {frames : List EncodedFrame}
    (hlogged : inSegment log seq = framesAt (frameBytes host) (placedAt host seq) 0 frames)
    (hoffset : offset = 0 ∨ ∃ q ∈ log, q.position = ⟨seq, offset⟩) :
    ∃ before after, frames = before ++ after ∧
      offset = (before.flatMap (frameBytes host)).length := by
  rcases hoffset with rfl | ⟨q, hq, hpos⟩
  · exact ⟨[], frames, rfl, rfl⟩
  · obtain ⟨hseq, hstop⟩ : q.place.seq = seq ∧ q.place.stop = offset := by
      simpa [Placed.position] using hpos
    have hmem : q ∈ inSegment log seq := mem_inSegment.mpr ⟨hq, hseq⟩
    rw [hlogged, mem_framesAt] at hmem
    obtain ⟨before, x, after, rfl, rfl⟩ := hmem
    refine ⟨before ++ [x], after, by simp, ?_⟩
    rw [← hstop]
    simp [placedAt]

/-- Replay from a frame boundary returns every logged frame after the cursor. -/
theorem mem_replayFrom {segments : SeqMap (List UInt8)} {cursor : SegmentCursor} {active : ℕ}
    {frames : List EncodedFrame} {tail : List UInt8} {p : Placed} (hp : p ∈ log)
    (hfit : ∀ f ∈ frames, f.Fits)
    (hlogged : inSegment log p.place.seq =
      framesAt (frameBytes host) (placedAt host p.place.seq) 0 frames)
    (hbytes : segments.get p.place.seq = some (frames.flatMap (frameBytes host) ++ tail))
    (hactive : p.place.seq < active)
    (hboundary : p.place.seq = cursor.seq →
      cursor.offset = 0 ∨ ∃ q ∈ log, q.position = cursor)
    (hafter : ¬ p.position ≤ cursor) : queuedOf host p ∈ replayFrom host segments cursor active := by
  have hlt : cursor < p.position := lt_of_not_ge hafter
  have hseq : cursor.seq ≤ p.place.seq := SegmentCursor.seq_le_of_le hlt.le
  have hmem : p ∈ framesAt (frameBytes host) (placedAt host p.place.seq) 0 frames := by
    rw [← hlogged]
    exact mem_inSegment.mpr ⟨hp, rfl⟩
  have hkey : p.place.seq ∈ segments.keys.filter fun seq =>
      decide (cursor.seq ≤ seq ∧ seq < active) := by
    simp [hbytes, hseq, hactive]
  refine List.mem_flatMap.mpr ⟨_, hkey, ?_⟩
  rw [hbytes, Option.getD_some]
  by_cases hsame : p.place.seq = cursor.seq
  · rw [if_pos hsame]
    have hcursor : cursor = ⟨p.place.seq, cursor.offset⟩ := by rw [hsame]
    obtain ⟨before, after, rfl, hoffset⟩ :=
      boundary_split hlogged (hcursor ▸ hboundary hsame)
    rw [hoffset, List.flatMap_append, List.append_assoc]
    refine mem_replaySegment (fun f hf => hfit f (List.mem_append_right _ hf)) tail ?_
    rw [framesAt_append, Nat.zero_add] at hmem
    rcases List.mem_append.mp hmem with hbefore | hafter
    · exfalso
      obtain ⟨b, x, a, rfl, hx⟩ := mem_framesAt.mp hbefore
      have hstop : cursor.offset < p.place.stop := by
        rcases SegmentCursor.lt_iff.mp hlt with hlt | ⟨-, hlt⟩
        · exact absurd hsame (Nat.ne_of_gt hlt)
        · exact hlt
      rw [hoffset, hx] at hstop
      simp only [placedAt, List.flatMap_append, List.flatMap_cons, List.length_append] at hstop
      omega
    · exact hafter
  · rw [if_neg hsame]
    exact @mem_replaySegment host p.place.seq [] frames hfit tail p hmem

/-- Replaying a lane, the segment being appended to included, returns every frame not done. -/
theorem LaneInv.mem_replay (h : LaneInv host base log done dir lane) {p : Placed} (hp : p ∈ log)
    (hnot : ¬ done p) :
    queuedOf host p ∈
      replayFrom host dir.segments lane.exportState.cursor (lane.activeSeq + 1) := by
  have hafter : ¬ p.position ≤ lane.exportState.cursor := fun hle => hnot (h.passed p hp hle)
  have hseq : lane.exportState.cursor.seq ≤ p.place.seq :=
    SegmentCursor.seq_le_of_le (lt_of_not_ge hafter).le
  obtain ⟨hbase, hactive, -⟩ := h.placed p hp
  obtain ⟨frames, hframes⟩ := h.holds _ hbase hactive hseq
  have hbytes : dir.segments.get p.place.seq =
      some (frames.flatMap (frameBytes host) ++ []) := by
    rw [List.append_nil]
    exact hframes.bytes
  exact mem_replayFrom hp hframes.fits hframes.logged hbytes (Nat.lt_succ_of_le hactive)
    (fun hsame => h.boundary (hsame ▸ hbase)) hafter

end Maple.Wal
