import Maple.TransitionRun
import Maple.WalLane
import Maple.WalLaneLog

/-! One lane with its accepting calls, its channel and its export worker, up to a crash. -/

namespace Maple.Wal

open TransitionRun

/-- A `commit_frames` call: the frames it has sent, and where it stands with the next one. -/
inductive CommitTask
  | ready (sent : List Placed) (rest : List EncodedFrame)
  | reserved (sent : List Placed) (frame : EncodedFrame) (rest : List EncodedFrame)
  | appended (sent : List Placed) (frame : Placed) (rest : List EncodedFrame)

namespace CommitTask

/-- The frames of a call that are on disk. -/
def placed : CommitTask → List Placed
  | ready sent _ => sent
  | reserved sent _ _ => sent
  | appended sent frame _ => sent ++ [frame]

/-- How often a frame is among those a call has put on disk. -/
def copies (p : Placed) (task : CommitTask) : ℕ := task.placed.count p

/-- A channel slot is held from the reservation to the send. -/
def permits : CommitTask → ℕ
  | ready _ _ => 0
  | reserved _ _ _ => 1
  | appended _ _ _ => 1

end CommitTask

/-- The batch the worker holds: being collected, delivered (or shed, or dropped), being marked. -/
inductive ExportWorker
  | collecting (batch : List QueuedFrame)
  | delivered (batch : List QueuedFrame)
  | marking (batch : List QueuedFrame) (cursor : SegmentCursor)

def ExportWorker.batch : ExportWorker → List QueuedFrame
  | collecting batch => batch
  | delivered batch => batch
  | marking batch _ => batch

structure LaneSystem where
  dir : LaneDir
  lane : WalLane
  capacity : ℕ
  tasks : SeqMap CommitTask
  channel : List QueuedFrame
  replaying : List QueuedFrame
  worker : ExportWorker
  log : List Placed
  accepted : List Placed
  failed : List Placed
  settled : List QueuedFrame

/-- The frame `commit_frames` sends to the channel after its append. -/
def sentFrame (p : Placed) : QueuedFrame where
  segment := p.place.seq
  start := p.place.start
  stop := p.place.stop
  orgId := p.frame.orgId
  queuedBytes := p.frame.payload.length
  signal := p.frame.signal
  destination := p.frame.destination
  datasource := p.frame.datasource
  rowCount := p.frame.rowCount
  payload := p.frame.payload

def QueuedFrame.position (q : QueuedFrame) : SegmentCursor := ⟨q.segment, q.stop⟩

/-- The furthest position of a batch. -/
def batchCursor (batch : List QueuedFrame) : SegmentCursor :=
  (batch.map QueuedFrame.position).foldr max ⟨0, 0⟩

def batchBytes (batch : List QueuedFrame) : ℕ := (batch.map fun q => q.stop - q.start).sum

inductive LaneLabel
  | accept (id : ℕ) (frames : List EncodedFrame)
  | reserve (id : ℕ)
  | append (id : ℕ)
  | send (id : ℕ)
  | finish (id : ℕ)
  | abort (id : ℕ)
  | sealIfDirty
  | replaySend
  | receive
  | deliver
  | failBatch
  | beginMark
  | mark (fault : Option CursorFault)

namespace LaneSystem

def hasCapacity (s : LaneSystem) : Bool :=
  decide (s.channel.length + s.tasks.weight CommitTask.permits < s.capacity)

/-- End a call without `Ok`: refused, failed in the append, or cancelled at an await. -/
def failTask (s : LaneSystem) (id : ℕ) (task : CommitTask) : LaneSystem :=
  { s with tasks := s.tasks.erase id, failed := s.failed ++ task.placed }

def reserve (s : LaneSystem) (id : ℕ) : Option LaneSystem :=
  match s.tasks.get id with
  | some (.ready sent (frame :: rest)) =>
    if s.hasCapacity then some { s with tasks := s.tasks.set id (.reserved sent frame rest) }
    else some (s.failTask id (.ready sent (frame :: rest)))
  | _ => none

def append (host : WalHost) (s : LaneSystem) (id : ℕ) : Option LaneSystem :=
  match s.tasks.get id with
  | some (.reserved sent frame rest) =>
    match encodeWalFrame host frame with
    | .error _ => some (s.failTask id (.reserved sent frame rest))
    | .ok encoded =>
      match appendBlocking s.dir s.lane encoded true none with
      | (_, _, .error _) => some (s.failTask id (.reserved sent frame rest))
      | (dir, lane, .ok place) =>
        some { s with
          dir := dir
          lane := lane
          tasks := s.tasks.set id (.appended sent ⟨frame, place⟩ rest)
          log := s.log ++ [⟨frame, place⟩] }
  | _ => none

def send (s : LaneSystem) (id : ℕ) : Option LaneSystem :=
  match s.tasks.get id with
  | some (.appended sent frame rest) =>
    some { s with
      tasks := s.tasks.set id (.ready (sent ++ [frame]) rest)
      channel := s.channel ++ [sentFrame frame] }
  | _ => none

def finish (s : LaneSystem) (id : ℕ) : Option LaneSystem :=
  match s.tasks.get id with
  | some (.ready sent []) =>
    some { s with tasks := s.tasks.erase id, accepted := s.accepted ++ sent }
  | _ => none

/-- `seal_if_dirty`, as a shutdown does it. -/
def sealIfDirty (s : LaneSystem) : LaneSystem :=
  if s.lane.appendState.len = 0 then s
  else
    let (dir, lane) := sealSegment s.dir s.lane
    { s with dir := dir, lane := lane }

def receive (s : LaneSystem) : Option LaneSystem :=
  match s.worker, s.channel with
  | .collecting batch, frame :: channel =>
    some { s with worker := .collecting (batch ++ [frame]), channel := channel }
  | _, _ => none

def deliver (s : LaneSystem) : Option LaneSystem :=
  match s.worker with
  | .collecting (frame :: batch) =>
    some { s with worker := .delivered (frame :: batch), settled := s.settled ++ frame :: batch }
  | _ => none

def beginMark (s : LaneSystem) : Option LaneSystem :=
  match s.worker with
  | .delivered batch =>
    some { s with
      worker := .marking batch (advanceCursor s.dir.segments s.lane (batchCursor batch)) }
  | _ => none

def mark (s : LaneSystem) (fault : Option CursorFault) : Option LaneSystem :=
  match s.worker with
  | .marking batch cursor =>
    let (dir, lane, _) := writeMark s.dir s.lane cursor (batchBytes batch) fault
    some { s with dir := dir, lane := lane, worker := .collecting [] }
  | _ => none

end LaneSystem

def systemStep (host : WalHost) (s : LaneSystem) : LaneLabel → Option LaneSystem
  | .accept id frames =>
    match s.tasks.get id with
    | none => some { s with tasks := s.tasks.set id (.ready [] frames) }
    | some _ => none
  | .reserve id => s.reserve id
  | .append id => s.append host id
  | .send id => s.send id
  | .finish id => s.finish id
  | .abort id => (s.tasks.get id).map fun task => s.failTask id task
  | .sealIfDirty => some s.sealIfDirty
  | .replaySend =>
    match s.replaying with
    | [] => none
    | frame :: replaying =>
      if s.hasCapacity then
        some { s with replaying := replaying, channel := s.channel ++ [frame] }
      else none
  | .receive => s.receive
  | .deliver => s.deliver
  | .failBatch =>
    match s.worker with
    | .collecting (_ :: _) => some { s with worker := .collecting [] }
    | _ => none
  | .beginMark => s.beginMark
  | .mark fault => s.mark fault

/-- A lane just opened, with the frames it still owes waiting to be replayed. -/
def openSystem (host : WalHost) (config : LaneConfig) (capacity : ℕ) (dir : LaneDir) :
    LaneSystem where
  dir := (openLane config dir).1
  lane := (openLane config dir).2
  capacity := capacity
  tasks := SeqMap.empty
  channel := []
  replaying := replayLane host (openLane config dir).1 (openLane config dir).2
  worker := .collecting []
  log := []
  accepted := []
  failed := []
  settled := []

/-- What a mark in progress has done to the directory. -/
inductive MarkImage (s : LaneSystem) : LaneDir → Prop
  | outside : MarkImage s s.dir
  | writing {batch : List QueuedFrame} {cursor : SegmentCursor}
      (h : s.worker = .marking batch cursor) (k : ℕ) :
      MarkImage s { s.dir with cursorFile := some ((cursorText cursor).take k) }
  | deleting {batch : List QueuedFrame} {cursor : SegmentCursor}
      (h : s.worker = .marking batch cursor) {j : ℕ}
      (hj : j ≤ cursor.seq - s.lane.exportState.nextDelete) :
      MarkImage s ⟨(reclaim s.dir.segments s.lane.exportState.nextDelete j).1,
        some (cursorText cursor)⟩

/-- What an append or a seal in progress has done on top of it. -/
inductive AppendImage (host : WalHost) (s : LaneSystem) (dir : LaneDir) : LaneDir → Prop
  | outside : AppendImage host s dir dir
  | writing {id : ℕ} {sent : List Placed} {frame : EncodedFrame} {rest : List EncodedFrame}
      (htask : s.tasks.get id = some (.reserved sent frame rest)) {encoded : List UInt8}
      (hencoded : encodeWalFrame host frame = .ok encoded) (k : ℕ) :
      AppendImage host s dir
        { dir with segments := writeSegment dir.segments s.lane.appendState.seq (encoded.take k) }
  | opening {id : ℕ} {sent : List Placed} {frame : EncodedFrame} {rest : List EncodedFrame}
      (htask : s.tasks.get id = some (.reserved sent frame rest)) {encoded : List UInt8}
      (hencoded : encodeWalFrame host frame = .ok encoded) :
      AppendImage host s dir
        { dir with
          segments := openSegment (writeSegment dir.segments s.lane.appendState.seq encoded)
            (s.lane.appendState.seq + 1) }
  | sealing : AppendImage host s dir
      { dir with segments := openSegment dir.segments (s.lane.appendState.seq + 1) }

/-- The directories a crash can leave. -/
def CrashImage (host : WalHost) (s : LaneSystem) (crashed : LaneDir) : Prop :=
  ∃ dir, MarkImage s dir ∧ AppendImage host s dir crashed

/-- After a crash and a reopening, replay returns every accepted frame that was not in a
delivered, shed or dropped batch. -/
def NoFrameLost (host : WalHost) (config : LaneConfig) (s : LaneSystem) (crashed : LaneDir) :
    Prop :=
  ∀ p ∈ s.accepted, sentFrame p ∉ s.settled →
    queuedOf host p ∈ replayLane host (openLane config crashed).1 (openLane config crashed).2

end Maple.Wal
