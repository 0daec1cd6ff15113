import Maple.SeqMap
import Maple.WalFrame

/-! One lane of the write-ahead log: its segment files, its cursor file and its counters. -/

namespace Maple.Wal

open ByteReader FrameStream

/-- How far the exporter has drained a lane, ordered by segment and then by offset. -/
structure SegmentCursor where
  seq : ℕ
  offset : ℕ
  deriving DecidableEq, Repr

namespace SegmentCursor

def position (c : SegmentCursor) : ℕ ×ₗ ℕ := toLex (c.seq, c.offset)

lemma position_injective : Function.Injective position := by
  rintro ⟨s, o⟩ ⟨s', o'⟩ h
  have h' : (s, o) = (s', o') := toLex.injective h
  simpa using h'

instance : LinearOrder SegmentCursor := LinearOrder.lift' position position_injective

lemma le_iff {a b : SegmentCursor} :
    a ≤ b ↔ a.seq < b.seq ∨ a.seq = b.seq ∧ a.offset ≤ b.offset :=
  Prod.Lex.le_iff

lemma lt_iff {a b : SegmentCursor} :
    a < b ↔ a.seq < b.seq ∨ a.seq = b.seq ∧ a.offset < b.offset :=
  Prod.Lex.lt_iff

lemma origin_le (c : SegmentCursor) : ⟨0, 0⟩ ≤ c := by
  rw [le_iff]
  show 0 < c.seq ∨ 0 = c.seq ∧ 0 ≤ c.offset
  omega

lemma seq_le_of_le {a b : SegmentCursor} (h : a ≤ b) : a.seq ≤ b.seq := by
  rcases le_iff.mp h with h | ⟨h, -⟩
  · exact h.le
  · exact h.le

end SegmentCursor

/-- The files of a lane directory: segments by sequence number, and the text of `lane.cursor`. -/
structure LaneDir where
  segments : SeqMap (List UInt8)
  cursorFile : Option (List Char)

def fileLen (segments : SeqMap (List UInt8)) (seq : ℕ) : ℕ :=
  (segments.get seq).elim 0 List.length

def segmentPath (dir : String) (seq : ℕ) : String :=
  let digits := toString seq
  dir ++ "/" ++ String.ofList (List.replicate (12 - digits.length) '0') ++ digits ++ ".seg"

/-- Opening a segment creates its file when there is none. -/
def openSegment (segments : SeqMap (List UInt8)) (seq : ℕ) : SeqMap (List UInt8) :=
  match segments.get seq with
  | some _ => segments
  | none => segments.set seq []

/-- Unicode `White_Space`, which `split_whitespace` splits on. -/
def isWhitespace (c : Char) : Bool :=
  (9 ≤ c.toNat && c.toNat ≤ 13) || (0x2000 ≤ c.toNat && c.toNat ≤ 0x200A) ||
    [0x20, 0x85, 0xA0, 0x1680, 0x2028, 0x2029, 0x202F, 0x205F, 0x3000].contains c.toNat

def splitWhitespace (text : List Char) : List (List Char) :=
  (text.splitOnP isWhitespace).filter fun part => !part.isEmpty

/-- `str::parse::<u64>`: digits after an optional plus sign, below the range of the type. -/
def parseU64 (text : List Char) : Option ℕ :=
  let digits := if text.head? = some '+' then text.tail else text
  if digits ≠ [] ∧ digits.all Char.isDigit ∧ Nat.ofDigitChars 10 digits 0 < 2 ^ 64 then
    some (Nat.ofDigitChars 10 digits 0)
  else none

/-- A missing or unparseable cursor file reads as the origin. -/
def readCursor (file : Option (List Char)) : SegmentCursor :=
  match file.map splitWhitespace with
  | some (seq :: offset :: _) =>
    match parseU64 seq, parseU64 offset with
    | some seq, some offset => ⟨seq, offset⟩
    | _, _ => ⟨0, 0⟩
  | _ => ⟨0, 0⟩

def cursorText (cursor : SegmentCursor) : List Char :=
  Nat.toDigits 10 cursor.seq ++ ' ' :: Nat.toDigits 10 cursor.offset

/-- Where `write_cursor` fails, with the text of the I/O error. -/
inductive CursorFault
  | openFile (error : String)
  | writeAll (written : ℕ) (error : String)
  | syncData (error : String)
  deriving DecidableEq, Repr

/-- The file is truncated when it is opened, so a failed write leaves a beginning of the text. -/
def writeCursor (file : Option (List Char)) (cursor : SegmentCursor) :
    Option CursorFault → Option (List Char) × Except String Unit
  | none => (some (cursorText cursor), .ok ())
  | some (.openFile error) => (file, .error s!"open WAL cursor: {error}")
  | some (.writeAll written error) =>
    (some ((cursorText cursor).take written), .error s!"write WAL cursor: {error}")
  | some (.syncData error) => (some (cursorText cursor), .error s!"sync WAL cursor: {error}")

structure LaneConfig where
  dir : String
  maxBytes : ℕ
  segmentMaxBytes : ℕ
  deriving DecidableEq, Repr

structure LaneAppend where
  seq : ℕ
  len : ℕ
  deriving DecidableEq, Repr

structure LaneExport where
  nextDelete : ℕ
  cursor : SegmentCursor
  deriving DecidableEq, Repr

structure WalLane where
  config : LaneConfig
  activeSeq : ℕ
  liveBytes : ℕ
  committedBytes : ℕ
  exportedBytes : ℕ
  appendState : LaneAppend
  exportState : LaneExport
  deriving DecidableEq, Repr

/-- The segments that survive opening: not below the cursor, and not empty. -/
def liveSegments (segments : SeqMap (List UInt8)) (cursor : SegmentCursor) : SeqMap (List UInt8) :=
  segments.filter fun seq bytes => decide (cursor.seq ≤ seq) && !bytes.isEmpty

/-- A stored cursor whose segment is gone resumes at the oldest segment that survived. -/
def resumeCursor (live : SeqMap (List UInt8)) (cursor : SegmentCursor) : SegmentCursor :=
  if live.keys.head? = some cursor.seq then cursor
  else ⟨live.keys.head?.getD cursor.seq, 0⟩

def nextSegment (live : SeqMap (List UInt8)) (cursor : SegmentCursor) : ℕ :=
  match live.keys.getLast? with
  | some last => last + 1
  | none => cursor.seq

def openLane (config : LaneConfig) (dir : LaneDir) : LaneDir × WalLane :=
  let stored := readCursor dir.cursorFile
  let live := liveSegments dir.segments stored
  let cursor := resumeCursor live stored
  let nextSeq := nextSegment live cursor
  let onDisk := live.weight List.length
  ({ dir with segments := openSegment live nextSeq },
    { config := config
      activeSeq := nextSeq
      liveBytes := onDisk
      committedBytes := onDisk - cursor.offset
      exportedBytes := 0
      appendState := ⟨nextSeq, 0⟩
      exportState := ⟨cursor.seq, cursor⟩ })

/-- Where an append fails on the file system, with the text of the I/O error. -/
inductive AppendFault
  | writeAll (written : ℕ) (error : String)
  | syncData (error : String)
  | openNext (error : String)
  deriving DecidableEq, Repr

/-- Where an appended frame landed. -/
structure Placement where
  seq : ℕ
  start : ℕ
  stop : ℕ
  deriving DecidableEq, Repr

def saturatingAdd (a b : ℕ) : ℕ := min (a + b) (2 ^ 64 - 1)

/-- `fetch_sub` on a 64-bit counter wraps below zero. -/
def fetchSub (a b : ℕ) : ℕ := if b ≤ a then a - b else a + 2 ^ 64 - b

/-- Write at the end of a segment; the handle is append-only. -/
def writeSegment (segments : SeqMap (List UInt8)) (seq : ℕ) (bytes : List UInt8) :
    SeqMap (List UInt8) :=
  segments.set seq ((segments.get seq).getD [] ++ bytes)

def sealSegment (dir : LaneDir) (lane : WalLane) : LaneDir × WalLane :=
  let next := lane.appendState.seq + 1
  ({ dir with segments := openSegment dir.segments next },
    { lane with activeSeq := next, appendState := ⟨next, 0⟩ })

/-- The lane after the frame is on disk and counted, before any seal. -/
def countAppend (lane : WalLane) (added : ℕ) : WalLane :=
  { lane with
    liveBytes := lane.liveBytes + added
    committedBytes := lane.committedBytes + added
    appendState := ⟨lane.appendState.seq, lane.appendState.len + added⟩ }

def laneFull (lane : WalLane) (added : ℕ) (enforceCap : Bool) : Bool :=
  enforceCap && decide (lane.config.maxBytes < saturatingAdd lane.liveBytes added)

def appendBlocking (dir : LaneDir) (lane : WalLane) (encoded : List UInt8) (enforceCap : Bool)
    (fault : Option AppendFault) : LaneDir × WalLane × Except String Placement :=
  let added := encoded.length
  let seq := lane.appendState.seq
  if laneFull lane added enforceCap then
    (dir, lane, .error "Telemetry WAL lane is full")
  else
    match fault with
    | some (.writeAll written error) =>
      ({ dir with segments := writeSegment dir.segments seq (encoded.take written) }, lane,
        .error s!"write WAL: {error}")
    | some (.syncData error) =>
      ({ dir with segments := writeSegment dir.segments seq encoded }, lane,
        .error s!"sync WAL: {error}")
    | _ =>
      let written := { dir with segments := writeSegment dir.segments seq encoded }
      let counted := countAppend lane added
      let start := lane.appendState.len
      let placement : Placement := ⟨seq, start, start + added⟩
      if lane.config.segmentMaxBytes ≤ start + added then
        match fault with
        | some (.openNext error) =>
          (written, counted,
            .error s!"open WAL segment {segmentPath lane.config.dir (seq + 1)}: {error}")
        | _ =>
          let (sealedDir, sealedLane) := sealSegment written counted
          (sealedDir, sealedLane, .ok placement)
      else (written, counted, .ok placement)

/-- Delete `count` segments from `next` on, adding up the bytes they held. -/
def reclaim : SeqMap (List UInt8) → ℕ → ℕ → SeqMap (List UInt8) × ℕ
  | segments, _, 0 => (segments, 0)
  | segments, next, count + 1 =>
    let (rest, reclaimed) := reclaim (segments.erase next) (next + 1) count
    (rest, fileLen segments next + reclaimed)

/-- The cursor after a batch, stepped past a sealed segment it has finished. -/
def advanceCursor (segments : SeqMap (List UInt8)) (lane : WalLane) (cursor : SegmentCursor) :
    SegmentCursor :=
  let cursor := max cursor lane.exportState.cursor
  if cursor.seq < lane.activeSeq ∧ fileLen segments cursor.seq ≤ cursor.offset then
    ⟨cursor.seq + 1, 0⟩
  else cursor

/-- The part of a mark after its cursor is settled: write it, then delete what is behind it. -/
def writeMark (dir : LaneDir) (lane : WalLane) (cursor : SegmentCursor) (bytes : ℕ)
    (fault : Option CursorFault) : LaneDir × WalLane × Except String Unit :=
  match writeCursor dir.cursorFile cursor fault with
  | (file, .error error) => ({ dir with cursorFile := file }, lane, .error error)
  | (file, .ok ()) =>
    let next := lane.exportState.nextDelete
    let (segments, reclaimed) := reclaim dir.segments next (cursor.seq - next)
    ({ segments := segments, cursorFile := file },
      { lane with
        exportState := ⟨max next cursor.seq, cursor⟩
        exportedBytes := lane.exportedBytes + bytes
        liveBytes := if 0 < reclaimed then fetchSub lane.liveBytes reclaimed else lane.liveBytes },
      .ok ())

def markExportedBlocking (dir : LaneDir) (lane : WalLane) (cursor : SegmentCursor) (bytes : ℕ)
    (fault : Option CursorFault) : LaneDir × WalLane × Except String Unit :=
  writeMark dir lane (advanceCursor dir.segments lane cursor) bytes fault

/-- A frame on its way from a lane to the exporter. -/
structure QueuedFrame where
  segment : ℕ
  start : ℕ
  stop : ℕ
  orgId : String
  queuedBytes : ℕ
  signal : TelemetrySignal
  destination : ExportDestination
  datasource : String
  rowCount : ℕ
  payload : List UInt8
  deriving DecidableEq

def queueDecoded (segment start : ℕ) (frame : DecodedWalFrame) : QueuedFrame where
  segment := segment
  start := start
  stop := frame.endAt
  orgId := frame.orgId
  queuedBytes := frame.payload.length
  signal := frame.signal
  destination := frame.destination
  datasource := frame.datasource
  rowCount := frame.rowCount
  payload := frame.payload

/-- One turn of the replay loop. -/
def readQueuedFrame (host : WalHost) (segment : ℕ) : FrameReader UInt8 QueuedFrame String :=
  fun start file =>
    (readWalFrame host start file).map fun found =>
      found.map fun p => (queueDecoded segment start p.1, p.2)

def replaySegment (host : WalHost) (segment offset : ℕ) (bytes : List UInt8) : List QueuedFrame :=
  decodeStream (readQueuedFrame host segment) (·.stop) bytes.length offset (bytes.drop offset)

/-- Replay the segments from the cursor up to, and not including, `active`. -/
def replayFrom (host : WalHost) (segments : SeqMap (List UInt8)) (cursor : SegmentCursor)
    (active : ℕ) : List QueuedFrame :=
  (segments.keys.filter fun seq => decide (cursor.seq ≤ seq ∧ seq < active)).flatMap fun seq =>
    replaySegment host seq (if seq = cursor.seq then cursor.offset else 0)
      ((segments.get seq).getD [])

def replayLane (host : WalHost) (dir : LaneDir) (lane : WalLane) : List QueuedFrame :=
  replayFrom host dir.segments lane.exportState.cursor lane.activeSeq

end Maple.Wal
