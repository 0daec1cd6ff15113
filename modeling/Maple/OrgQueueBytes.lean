import Maple.TransitionRun
import Maple.WalLaneSystem

/-! The per-organisation queue byte counters, across accepts, boot replay and export. -/

namespace Maple.OrgQueue

open Wal TransitionRun

/-- Queued bytes by organisation; an organisation without an entry counts nothing. -/
abbrev Counters := String → ℕ

/-- Frames without an organisation, or without bytes, are not counted. -/
def Uncounted (orgId : String) (bytes : ℕ) : Prop := orgId = "" ∨ bytes = 0

instance (orgId : String) (bytes : ℕ) : Decidable (Uncounted orgId bytes) :=
  inferInstanceAs (Decidable (_ ∨ _))

def addOrgQueueBytes (counters : Counters) (orgId : String) (bytes : ℕ) : Counters :=
  if Uncounted orgId bytes then counters
  else Function.update counters orgId (counters orgId + bytes)

def releaseOrgQueueBytes (counters : Counters) (orgId : String) (bytes : ℕ) : Counters :=
  if Uncounted orgId bytes then counters
  else Function.update counters orgId (counters orgId - bytes)

/-- The source's sum saturates, which needs more bytes in memory than an address space holds. -/
def reserveOrgBytesIn (limit : ℕ) (counters : Counters) (orgId : String) (bytes : ℕ) :
    Except String Counters :=
  if Uncounted orgId bytes then .ok counters
  else if limit < counters orgId + bytes then
    .error "Telemetry org queue byte limit exceeded"
  else .ok (Function.update counters orgId (counters orgId + bytes))

/-- A `commit_frames` call: between frames, or with the next frame's bytes reserved. -/
inductive AcceptTask
  | idle (rest : List (ℕ × EncodedFrame))
  | reserved (lane : ℕ) (frame : EncodedFrame) (rest : List (ℕ × EncodedFrame))

/-- An export worker: collecting a batch, or releasing the bytes of one it has marked. -/
inductive QueueWorker
  | collecting (batch : List QueuedFrame)
  | releasing (batch : List QueuedFrame)

def QueueWorker.held : QueueWorker → List QueuedFrame
  | collecting batch => batch
  | releasing batch => batch

structure LaneQueue where
  channel : List QueuedFrame
  worker : QueueWorker

structure QueueSystem where
  limit : ℕ
  capacity : ℕ
  counters : Counters
  tasks : SeqMap AcceptTask
  lanes : SeqMap LaneQueue
  replaying : List (ℕ × QueuedFrame)
  sending : Option (ℕ × QueuedFrame)
  replayed : List QueuedFrame

/-- What a frame counts for an organisation. -/
def frameBytesOf (orgId : String) (frame : QueuedFrame) : ℕ :=
  if frame.orgId = orgId then frame.queuedBytes else 0

def bytesOf (orgId : String) (frames : List QueuedFrame) : ℕ :=
  (frames.map (frameBytesOf orgId)).sum

def AcceptTask.reservedBytes (orgId : String) : AcceptTask → ℕ
  | idle _ => 0
  | reserved _ frame _ => if frame.orgId = orgId then frame.payload.length else 0

def AcceptTask.permits (lane : ℕ) : AcceptTask → ℕ
  | idle _ => 0
  | reserved target _ _ => if target = lane then 1 else 0

def LaneQueue.bytes (orgId : String) (queue : LaneQueue) : ℕ :=
  bytesOf orgId queue.channel + bytesOf orgId queue.worker.held

/-- The bytes of an organisation's frames that are reserved, being sent by boot replay, waiting in
a channel, or held by a worker. -/
def heldBytes (orgId : String) (s : QueueSystem) : ℕ :=
  s.tasks.weight (AcceptTask.reservedBytes orgId) + s.lanes.weight (LaneQueue.bytes orgId) +
    bytesOf orgId (s.sending.toList.map Prod.snd)

inductive QueueLabel
  | accept (id : ℕ) (frames : List (ℕ × EncodedFrame))
  | reserve (id : ℕ)
  | appendOk (id : ℕ) (place : Placement)
  | appendErr (id : ℕ)
  | cancel (id : ℕ)
  | finish (id : ℕ)
  | replayAdd
  | replaySend
  | receive (lane : ℕ)
  | exportOk (lane : ℕ)
  | exportErr (lane : ℕ)
  | release (lane : ℕ)
  | resume (lane : ℕ)

namespace QueueSystem

def hasCapacity (s : QueueSystem) (lane : ℕ) (queue : LaneQueue) : Bool :=
  decide (queue.channel.length + s.tasks.weight (AcceptTask.permits lane) < s.capacity)

/-- End a call; the reservation guard it still holds is dropped. -/
def endTask (s : QueueSystem) (id : ℕ) : AcceptTask → QueueSystem
  | .idle _ => { s with tasks := s.tasks.erase id }
  | .reserved _ frame _ =>
    { s with
      tasks := s.tasks.erase id
      counters := releaseOrgQueueBytes s.counters frame.orgId frame.payload.length }

def reserve (s : QueueSystem) (id : ℕ) : Option QueueSystem :=
  match s.tasks.get id with
  | some (.idle ((lane, frame) :: rest)) =>
    match s.lanes.get lane with
    | none => none
    | some queue =>
      if s.hasCapacity lane queue then
        match reserveOrgBytesIn s.limit s.counters frame.orgId frame.payload.length with
        | .error _ => some (s.endTask id (.idle ((lane, frame) :: rest)))
        | .ok counters =>
          some { s with
            counters := counters
            tasks := s.tasks.set id (.reserved lane frame rest) }
      else some (s.endTask id (.idle ((lane, frame) :: rest)))
  | _ => none

/-- The append succeeded: the guard is committed and the frame sent, with no await between. -/
def appendOk (s : QueueSystem) (id : ℕ) (place : Placement) : Option QueueSystem :=
  match s.tasks.get id with
  | some (.reserved lane frame rest) =>
    match s.lanes.get lane with
    | none => none
    | some queue =>
      some { s with
        tasks := s.tasks.set id (.idle rest)
        lanes := s.lanes.set lane
          { queue with channel := queue.channel ++ [sentFrame ⟨frame, place⟩] } }
  | _ => none

def appendErr (s : QueueSystem) (id : ℕ) : Option QueueSystem :=
  match s.tasks.get id with
  | some (.reserved lane frame rest) => some (s.endTask id (.reserved lane frame rest))
  | _ => none

def finish (s : QueueSystem) (id : ℕ) : Option QueueSystem :=
  match s.tasks.get id with
  | some (.idle []) => some (s.endTask id (.idle []))
  | _ => none

/-- Replay counts a frame whatever the limit, then waits for a place in its channel. -/
def replayAdd (s : QueueSystem) : Option QueueSystem :=
  match s.sending, s.replaying with
  | none, (lane, frame) :: replaying =>
    some { s with
      counters := addOrgQueueBytes s.counters frame.orgId frame.queuedBytes
      replaying := replaying
      sending := some (lane, frame)
      replayed := s.replayed ++ [frame] }
  | _, _ => none

def replaySend (s : QueueSystem) : Option QueueSystem :=
  match s.sending with
  | some (lane, frame) =>
    match s.lanes.get lane with
    | none => none
    | some queue =>
      if s.hasCapacity lane queue then
        some { s with
          sending := none
          lanes := s.lanes.set lane { queue with channel := queue.channel ++ [frame] } }
      else none
  | none => none

def withLane (s : QueueSystem) (lane : ℕ) (f : LaneQueue → Option LaneQueue) :
    Option QueueSystem :=
  match s.lanes.get lane with
  | none => none
  | some queue => (f queue).map fun queue' => { s with lanes := s.lanes.set lane queue' }

def receive : LaneQueue → Option LaneQueue
  | ⟨frame :: channel, .collecting batch⟩ => some ⟨channel, .collecting (batch ++ [frame])⟩
  | _ => none

/-- Delivered, shed or dropped, and marked. -/
def exportOk : LaneQueue → Option LaneQueue
  | ⟨channel, .collecting (frame :: batch)⟩ => some ⟨channel, .releasing (frame :: batch)⟩
  | _ => none

/-- A post or the mark failed: `export_and_mark` returns before it releases anything. -/
def exportErr : LaneQueue → Option LaneQueue
  | ⟨channel, .collecting (_ :: _)⟩ => some ⟨channel, .collecting []⟩
  | _ => none

def release (s : QueueSystem) (lane : ℕ) : Option QueueSystem :=
  match s.lanes.get lane with
  | some ⟨channel, .releasing (frame :: batch)⟩ =>
    some { s with
      counters := releaseOrgQueueBytes s.counters frame.orgId frame.queuedBytes
      lanes := s.lanes.set lane ⟨channel, .releasing batch⟩ }
  | _ => none

def resume : LaneQueue → Option LaneQueue
  | ⟨channel, .releasing []⟩ => some ⟨channel, .collecting []⟩
  | _ => none

end QueueSystem

def queueStep (s : QueueSystem) : QueueLabel → Option QueueSystem
  | .accept id frames =>
    match s.tasks.get id with
    | none => some { s with tasks := s.tasks.set id (.idle frames) }
    | some _ => none
  | .reserve id => s.reserve id
  | .appendOk id place => s.appendOk id place
  | .appendErr id => s.appendErr id
  | .cancel id => (s.tasks.get id).map fun task => s.endTask id task
  | .finish id => s.finish id
  | .replayAdd => s.replayAdd
  | .replaySend => s.replaySend
  | .receive lane => s.withLane lane QueueSystem.receive
  | .exportOk lane => s.withLane lane QueueSystem.exportOk
  | .exportErr lane => s.withLane lane QueueSystem.exportErr
  | .release lane => s.release lane
  | .resume lane => s.withLane lane QueueSystem.resume

def idleLanes (n : ℕ) : SeqMap LaneQueue where
  get lane := if lane < n then some ⟨[], .collecting []⟩ else none
  bound := n
  get_bound lane h := if_neg (Nat.not_lt.mpr h)

/-- A pipeline of `n` lanes just booted, with the frames boot replay found for each. -/
def bootQueue (limit capacity n : ℕ) (replaying : List (ℕ × QueuedFrame)) : QueueSystem where
  limit := limit
  capacity := capacity
  counters _ := 0
  tasks := SeqMap.empty
  lanes := idleLanes n
  replaying := replaying
  sending := none
  replayed := []

/-- No call holds a reservation, and no lane or replay holds a frame. -/
def Idle (s : QueueSystem) : Prop :=
  (∀ id task, s.tasks.get id = some task → ∃ rest, task = .idle rest) ∧
    (∀ lane queue, s.lanes.get lane = some queue →
      queue.channel = [] ∧ queue.worker.held = []) ∧ s.sending = none

/-- The counters are exact: they count what is held, are zero when nothing is, and accepts never
lift one above the limit. -/
structure CountersExact (s : QueueSystem) : Prop where
  exact : ∀ orgId, orgId ≠ "" → s.counters orgId = heldBytes orgId s
  idle : Idle s → ∀ orgId, orgId ≠ "" → s.counters orgId = 0
  bounded : ∀ orgId, s.counters orgId ≤ s.limit + bytesOf orgId s.replayed
  accept_bounded : ∀ id s', queueStep s (.reserve id) = some s' →
    ∀ orgId, s'.counters orgId ≤ max s.limit (s.counters orgId)

/-- A failed batch loses no bytes when none of its frames are counted. -/
def NothingLost (s : QueueSystem) : QueueLabel → Prop
  | .exportErr lane => ∀ frame ∈ (s.lanes.get lane).elim [] fun queue => queue.worker.held,
    Uncounted frame.orgId frame.queuedBytes
  | _ => True

instance (s : QueueSystem) : (l : QueueLabel) → Decidable (NothingLost s l)
  | .exportErr _ => inferInstanceAs (Decidable (∀ _ ∈ _, _))
  | .accept _ _ => .isTrue trivial
  | .reserve _ => .isTrue trivial
  | .appendOk _ _ => .isTrue trivial
  | .appendErr _ => .isTrue trivial
  | .cancel _ => .isTrue trivial
  | .finish _ => .isTrue trivial
  | .replayAdd => .isTrue trivial
  | .replaySend => .isTrue trivial
  | .receive _ => .isTrue trivial
  | .exportOk _ => .isTrue trivial
  | .release _ => .isTrue trivial
  | .resume _ => .isTrue trivial

end Maple.OrgQueue
