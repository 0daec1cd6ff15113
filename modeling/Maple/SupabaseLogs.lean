import Maple.PageCursor
import Maple.Json

/-! Polling a project's logs: pages of the logs endpoint are sent to ingest in chunks, and the
project row keeps a millisecond and the ids already sent in it. -/

namespace Maple.SupabaseLogs

def logsPageSize : Nat := 1000
def logsLagMs : Int := 60000
def logsInitialLookbackMs : Int := 5 * 60000
def logsMaxWindowMs : Int := 60 * 60000
def maxQueriesPerProject : Nat := 3
def leaseMs : Int := 3 * 60000
def tickBudgetMs : Int := 40000
def rateLimitHoldMs : Int := 60000
def refusedHoldMs : Int := 60 * 60000
def ingestChunk : Nat := 250

/-! ## Rows -/

structure LogRow where
  id : String
  timestamp : String
  source : String
  eventMessage : Option String
  logAttributes : List (String × Json)
  ms : Int
  unixNano : String

def nullOrString : Option Json → Option (Option String)
  | none => some none
  | some .null => some none
  | some (.string value) => some (some value)
  | some _ => none

def nullOrRecord : Option Json → Option (List (String × Json))
  | none => some []
  | some .null => some []
  | some (.object fields) => some fields
  | some _ => none

/-- The fields of `ROW_TIMESTAMP`: date, time of day and fraction. -/
def rowTimestamp (value : List Char) : Option (List Char × List Char × List Char) :=
  let shape (pattern text : List Char) := pattern.length == text.length &&
    (pattern.zip text).all fun (p, c) => if p = 'd' then c.isDigit else p == c
  let date := value.take 10
  let time := (value.drop 11).take 8
  let rest := value.drop 19
  let fraction := match rest with
    | '.' :: rest => rest.takeWhile Char.isDigit
    | _ => []
  let zone := match rest with
    | '.' :: rest => rest.dropWhile Char.isDigit
    | _ => rest
  if shape "dddd-dd-dd".toList date && (value.getD 10 ' ' == 'T' || value.getD 10 'T' == ' ') &&
      shape "dd:dd:dd".toList time && (rest.head? != some '.' || fraction != []) &&
      decide (fraction.length ≤ 9) &&
      ["", "Z", "+00:00", "+0000"].contains (String.ofList zone) then
    some (date, time, fraction)
  else none

def padEnd (n : Nat) (text : List Char) : List Char := text ++ List.replicate (n - text.length) '0'

def digits (text : List Char) : Nat :=
  text.foldl (fun n c => 10 * n + (c.toNat - '0'.toNat)) 0

section Decode

-- the platform's `timestampMs`: epoch milliseconds of a time text, when it is one
variable (timestampMs : String → Option Int)

def parseRowTimestamp (value : String) : Option (Int × String) :=
  match rowTimestamp value.toList with
  | none => none
  | some (date, time, fraction) =>
    match timestampMs (String.ofList (date ++ 'T' :: time ++ ['Z'])) with
    | none => none
    | some secondsMs =>
      if secondsMs ≤ 0 then none
      else
        let fraction := padEnd 9 fraction
        some (secondsMs + digits (fraction.take 3),
          toString (secondsMs / 1000) ++ String.ofList fraction)

/-- `decodeLogRow` and the row's time. -/
def decodeLogRow : Json → Option LogRow
  | .object fields =>
    match fields.lookup "id", fields.lookup "timestamp", fields.lookup "source",
        nullOrString (fields.lookup "event_message"),
        nullOrRecord (fields.lookup "log_attributes") with
    | some (.string id), some (.string timestamp), some (.string source), some eventMessage,
        some logAttributes =>
      (parseRowTimestamp timestampMs timestamp).map fun (ms, unixNano) =>
        ⟨id, timestamp, source, eventMessage, logAttributes, ms, unixNano⟩
    | _, _, _, _, _ => none
  | _ => none

def decodeLogRows (raw : List Json) : List LogRow := raw.filterMap (decodeLogRow timestampMs)

/-! ## The logs endpoint -/

/-- A row of the `logs` table: its id, its time in nanoseconds, and how the endpoint writes it. -/
structure RawRow where
  id : String
  time : Int
  raw : Json

def RawRow.ms (row : RawRow) : Int := row.time / 1000000

/-- A project's logs, in `(timestamp, id)` order. What decodes carries the row's own id and
time. -/
structure LogStore where
  rows : List RawRow
  sorted : rows.Pairwise fun a b => a.time < b.time ∨ a.time = b.time ∧ a.id < b.id
  distinct : (rows.map RawRow.id).Nodup
  perMs : ∀ ms, (rows.filter fun row => decide (row.ms = ms)).length ≤ logsPageSize
  decoded : ∀ row ∈ rows, ∀ d, decodeLogRow timestampMs row.raw = some d →
    d.id = row.id ∧ d.ms = row.ms

structure LogsWindow where
  startMs : Int
  endMs : Int
deriving Repr, DecidableEq

end Decode

/-- Next window for a project, or none when it is caught up. -/
def nextLogsWindow (watermarkAt : Option Int) (now : Int) : Option LogsWindow :=
  let horizonMs := (now - logsLagMs) / 1000 * 1000
  let startMs := watermarkAt.getD (horizonMs - logsInitialLookbackMs)
  let endMs := min horizonMs (startMs + logsMaxWindowMs)
  if startMs < endMs then some ⟨startMs, endMs⟩ else none

/-- What `logsQuerySql` selects. -/
def queryLogs (rows : List RawRow) (window : LogsWindow) : List Json :=
  ((rows.filter fun row => decide (window.startMs * 1000000 ≤ row.time) &&
    decide (row.time < window.endMs * 1000000)).take logsPageSize).map RawRow.raw

/-! ## Where the watermark moves -/

structure Mark where
  watermarkAt : Int
  boundaryIds : List String
deriving Repr, DecidableEq

def advanceWatermark (window : LogsWindow) (rawCount : Nat) (rows : List LogRow)
    (freshCount : Nat) : Mark :=
  if rawCount < logsPageSize then ⟨window.endMs, []⟩
  else
    match rows.getLast? with
    | none => ⟨window.startMs + 1, []⟩
    | some last =>
      if last.ms ≤ window.startMs ∧ freshCount = 0 then ⟨window.startMs + 1, []⟩
      else ⟨last.ms, (rows.filter fun row => decide (row.ms = last.ms)).map LogRow.id⟩

/-- The rows of a page up to `lastSent`, which is one of them; ids tell rows apart. -/
def throughSent (rows : List LogRow) (lastSent : LogRow) : List LogRow :=
  rows.take (rows.findIdx (fun row => row.id == lastSent.id) + 1)

def acceptedWatermark (rows : List LogRow) (lastSent : LogRow) : Mark :=
  ⟨lastSent.ms,
    ((throughSent rows lastSent).filter fun row => decide (row.ms = lastSent.ms)).map LogRow.id⟩

/-! ## One tick -/

structure Project where
  logsEnabled : Bool
  logsWatermarkAt : Option Int
  logsBoundaryIds : List String
  logsLeaseUntil : Option Int
  logsLastPolledAt : Option Int
  logsError : Option String
deriving Repr, DecidableEq

inductive QueryError
  | rateLimited
  | revoked
  | failed (message : String)
deriving Repr, DecidableEq

structure IngestSendError where
  message : String
  status : Option Nat
deriving Repr, DecidableEq

def isRefusal (error : IngestSendError) : Bool :=
  match error.status with
  | none => false
  | some status => status == 401 || status == 402 || status == 403

/-- What one query of a tick meets: the clock before it, the endpoint's answer, and ingest's
answer to each chunk. -/
structure Query where
  clock : Int
  page : Except QueryError Unit
  ingest : Nat → Except IngestSendError Unit

structure Tick where
  tickStartedAt : Int
  now : Int
  query : Nat → Query

structure ProjectPollResult where
  calls : Nat
  rows : Nat
  error : Option String
  rateLimited : Bool
  revoked : Bool
  refused : Bool
deriving Repr, DecidableEq

def emptyResult : ProjectPollResult := ⟨0, 0, none, false, false, false⟩

/-- The project row, what ingest accepted, and every watermark stored, in order. -/
structure World where
  project : Project
  accepted : List LogRow
  watermarks : List Int

/-- Writes only while this tick still holds the lease and logs are on. -/
def updateClaimed (claimed : Project) (set : Project → Project) (world : World) : World :=
  if world.project.logsEnabled = true ∧ world.project.logsLeaseUntil = claimed.logsLeaseUntil then
    { world with project := set world.project }
  else world

def storeMark (claimed : Project) (mark : Mark) (set : Project → Project) (world : World) :
    World :=
  if world.project.logsEnabled = true ∧ world.project.logsLeaseUntil = claimed.logsLeaseUntil then
    { world with
      project := set { world.project with
        logsWatermarkAt := some mark.watermarkAt, logsBoundaryIds := mark.boundaryIds }
      watermarks := world.watermarks ++ [mark.watermarkAt] }
  else world

def recordError (claimed : Project) (message : String) : World → World :=
  updateClaimed claimed fun project =>
    { project with logsError := some (String.ofList (message.toList.take 500)) }

def chunksOf {α : Type} (size : Nat) (items : List α) : List (List α) :=
  let rec go : Nat → List α → List (List α)
    | 0, _ => []
    | _, [] => []
    | fuel + 1, items => items.take size :: go fuel (items.drop size)
  go items.length items

section Poll

variable (timestampMs : String → Option Int) (store : LogStore timestampMs)

/-- Sends the chunks from `index` on; each accepted one but the last moves the watermark. -/
def sendFrom (claimed : Project) (now : Int) (query : Query) (rows : List LogRow) :
    List (List LogRow) → Nat → Nat → World → World × Nat × Option IngestSendError
  | [], _, delivered, world => (world, delivered, none)
  | chunk :: chunks, index, delivered, world =>
    match query.ingest index with
    | .error failure => (world, delivered, some failure)
    | .ok _ =>
      let sent := { world with accepted := world.accepted ++ chunk }
      let marked :=
        match chunks, chunk.getLast? with
        | _ :: _, some lastSent =>
          storeMark claimed (acceptedWatermark rows lastSent)
            (fun project => { project with logsLastPolledAt := some now }) sent
        | _, _ => sent
      sendFrom claimed now query rows chunks (index + 1) (delivered + chunk.length) marked

/-- One query and its batch, while the project is behind and the tick has budget: `left` is what
`MAX_QUERIES_PER_PROJECT` leaves. -/
def step (claimed : Project) (tick : Tick) :
    Nat → Option Int → List String → ProjectPollResult → World → World × ProjectPollResult
  | left, watermarkAt, boundaryIds, tally, world =>
    match nextLogsWindow watermarkAt tick.now with
    | none => (world, tally)
    | some window =>
      let query := tick.query tally.calls
      if tickBudgetMs ≤ query.clock - tick.tickStartedAt then (world, tally) else
      match left with
      | 0 => (world, tally)
      | left + 1 =>
        let called := { tally with calls := tally.calls + 1 }
        match query.page with
        | .error .rateLimited => (world, { called with rateLimited := true })
        | .error .revoked => (world, { called with revoked := true })
        | .error (.failed message) =>
          (recordError claimed message world, { called with error := some message })
        | .ok _ =>
          let page := queryLogs store.rows window
          let rows := decodeLogRows timestampMs page
          let fresh := rows.filter fun row => decide (row.id ∉ boundaryIds)
          let (sent, delivered, failure) :=
            sendFrom claimed tick.now query rows (chunksOf ingestChunk fresh) 0 0 world
          match failure with
          | some failure =>
            (recordError claimed failure.message sent,
              { called with
                rows := called.rows + delivered, refused := isRefusal failure,
                error := some failure.message })
          | none =>
            let next := advanceWatermark window page.length rows fresh.length
            let stored := storeMark claimed next
              (fun project => { project with
                logsLastPolledAt := some tick.now, logsError := none }) sent
            step claimed tick left (some next.watermarkAt) next.boundaryIds
              { called with rows := called.rows + fresh.length } stored

/-- What `setLogsEnabled` writes when a project's logs are turned on. -/
def enableLogs (project : Project) (now : Int) : Project :=
  if project.logsEnabled then project
  else
    { project with
      logsEnabled := true, logsWatermarkAt := some (now - logsInitialLookbackMs)
      logsBoundaryIds := [], logsError := none, logsLeaseUntil := none }

/-- The lease is free: never taken, run out, or too far ahead to be one of ours. -/
def claimable (project : Project) (now : Int) : Bool :=
  project.logsEnabled &&
    match project.logsLeaseUntil with
    | none => true
    | some lease => decide (lease < now) || decide (now + refusedHoldMs + leaseMs < lease)

def releaseLease (claimed : Project) (holdUntil : Option Int) (world : World) : World :=
  if world.project.logsLeaseUntil = claimed.logsLeaseUntil then
    { world with project := { world.project with logsLeaseUntil := holdUntil } }
  else world

def pollProject (world : World) (tick : Tick) : World :=
  if claimable world.project tick.now then
    let claimed := { world.project with logsLeaseUntil := some (tick.now + leaseMs) }
    let (polled, result) := step timestampMs store claimed tick maxQueriesPerProject
      claimed.logsWatermarkAt claimed.logsBoundaryIds emptyResult { world with project := claimed }
    releaseLease claimed
      (if result.refused then some (tick.now + refusedHoldMs)
        else if result.rateLimited then some (tick.now + rateLimitHoldMs) else none) polled
  else world

end Poll

end Maple.SupabaseLogs
