import Maple.AiSession
import Mathlib.Data.List.Sort

/-! Where one turn of an agent session ends and the next begins. The walks up the parents may meet
missing parents and cycles: they run with as much fuel as there are spans. -/

namespace Maple.AgentSessions

inductive TurnAnchorKind
  | conversation | agentRoot | trace
deriving DecidableEq

structure TurnAnchor where
  span : AiSessionSpan
  kind : TurnAnchorKind
  id : String
  conversationId : Option String := none

structure SessionTurn where
  id : String
  index : ℕ
  anchorKind : TurnAnchorKind
  anchor : AiSessionSpan
  label : Option String
  agentName : Option String
  startMs : ℚ
  endMs : ℚ
  spans : List AiSessionSpan
  failed : Bool
  traceIds : List String

def SETUP_LEAD_MAX_MS : ℚ := 5000

/-! ### Maps -/

/-- A `Map` of these entries: of one key the last value stands. -/
def mapOf {α : Type} (entries : List (String × α)) (key : String) : Option α :=
  entries.reverse.lookup key

def byId (spans : List AiSessionSpan) : String → Option AiSessionSpan :=
  mapOf (spans.map fun span => (span.spanId, span))

def sessionIdsOf (spans : List AiSessionSpan) : List String := spans.filterMap AiSessionSpan.sessionId

/-- The first span of every key, in the order the keys appear. -/
def firstByKey (key : AiSessionSpan → Option String) (spans : List AiSessionSpan) :
    List (String × AiSessionSpan) :=
  spans.foldl
    (fun entries span =>
      match key span with
      | none => entries
      | some k => if (entries.lookup k).isSome then entries else entries ++ [(k, span)]) []

/-! ### Anchors -/

/-- The spans above a span, the nearest first, until a parent is missing or was seen. -/
def ancestors (parents : String → Option AiSessionSpan) :
    ℕ → List String → AiSessionSpan → Option (List AiSessionSpan)
  | 0, seen, span =>
    match parents span.parentSpanId with
    | none => some []
    | some parent => if parent.spanId ∈ seen then some [] else none
  | fuel + 1, seen, span =>
    match parents span.parentSpanId with
    | none => some []
    | some parent =>
      if parent.spanId ∈ seen then some []
      else (ancestors parents fuel (parent.spanId :: seen) parent).map (parent :: ·)

def ancestorsOf (spans : List AiSessionSpan) (span : AiSessionSpan) : Option (List AiSessionSpan) :=
  ancestors (byId spans) spans.length [span.spanId] span

def underAiSpan (ordered : List AiSessionSpan) (span : AiSessionSpan) : Option Bool :=
  (ancestorsOf ordered span).map fun above => above.any AiSessionSpan.isAiSpan

/-- An id that names the session is not a turn key. -/
def conversationKey (sessionIds : List String) (span : AiSessionSpan) : Option String :=
  span.genAi.conversationId.filter fun conversationId => conversationId ∉ sessionIds

/-- An agent span with no AI span above it. -/
def isAgentRoot (host : Host) (ordered : List AiSessionSpan) (span : AiSessionSpan) : Option Bool :=
  if span.isAiSpan && classifyAiSpan host span = .agent &&
      (span.genAi.operationName.getD "") ∉ MEMORY_OPS then
    (underAiSpan ordered span).map fun under => !under
  else some false

/-- The spans a test that may fail to end holds of. -/
def filterSpans (test : AiSessionSpan → Option Bool) :
    List AiSessionSpan → Option (List AiSessionSpan)
  | [] => some []
  | span :: spans =>
    match test span, filterSpans test spans with
    | some kept, some rest => some (if kept then span :: rest else rest)
    | _, _ => none

def conversationAnchor (entry : String × AiSessionSpan) : TurnAnchor :=
  { span := entry.2
    kind := .conversation
    id := "conversation:" ++ entry.1
    conversationId := some entry.1 }

def agentRootAnchor (span : AiSessionSpan) : TurnAnchor :=
  { span, kind := .agentRoot, id := "span:" ++ span.spanId }

def traceAnchor (entry : String × AiSessionSpan) : TurnAnchor :=
  { span := entry.2, kind := .trace, id := "trace:" ++ entry.1 }

def findAnchors (host : Host) (ordered : List AiSessionSpan) : Option (List TurnAnchor) :=
  let byConversation := firstByKey (conversationKey (sessionIdsOf ordered)) ordered
  if 1 < byConversation.length then some (byConversation.map conversationAnchor)
  else
    match filterSpans (isAgentRoot host ordered) ordered with
    | none => none
    | some agentRoots =>
      if agentRoots.isEmpty then
        some ((firstByKey (fun span => some span.traceId) ordered).map traceAnchor)
      else some (agentRoots.map agentRootAnchor)

/-! ### Which turn a span is in -/

abbrev Memo := List (String × Option ℕ)

/-- The turn a span has of its own, or else the one of its parent. A span that is being resolved
stands in the memo without a turn, so a cycle of parents ends there. -/
def resolve (own : AiSessionSpan → Option ℕ) (parents : String → Option AiSessionSpan) :
    ℕ → Memo → AiSessionSpan → Option (Memo × Option ℕ)
  | 0, memo, span => (memo.lookup span.spanId).map fun turn => (memo, turn)
  | fuel + 1, memo, span =>
    match memo.lookup span.spanId with
    | some turn => some (memo, turn)
    | none =>
      let memo := (span.spanId, none) :: memo
      match own span with
      | some turn => some ((span.spanId, some turn) :: memo, some turn)
      | none =>
        match parents span.parentSpanId with
        | none => some ((span.spanId, none) :: memo, none)
        | some parent =>
          match resolve own parents fuel memo parent with
          | none => none
          | some (memo, turn) => some ((span.spanId, turn) :: memo, turn)

def turnByConversation (anchors : List TurnAnchor) : String → Option ℕ :=
  mapOf (anchors.zipIdx.filterMap fun entry => entry.1.conversationId.map fun id => (id, entry.2))

def ownConversationTurn (spans : List AiSessionSpan) (anchors : List TurnAnchor)
    (span : AiSessionSpan) : Option ℕ :=
  (conversationKey (sessionIdsOf spans) span).bind (turnByConversation anchors)

abbrev Resolver := Memo → AiSessionSpan → Option (Memo × Option ℕ)

def conversationTurnResolver (spans : List AiSessionSpan) (anchors : List TurnAnchor) : Resolver :=
  if anchors.all fun anchor => anchor.conversationId.isNone then fun memo _ => some (memo, none)
  else resolve (ownConversationTurn spans anchors) (byId spans) spans.length

def turnByAnchor (anchors : List TurnAnchor) : String → Option ℕ :=
  mapOf (anchors.zipIdx.map fun entry => (entry.1.span.spanId, entry.2))

/-- The outermost run that is open in the span's trace when it starts. -/
def enclosingRun (anchors : List TurnAnchor) (span : AiSessionSpan) : Option ℕ :=
  let runs := anchors.zipIdx.filter fun run =>
    run.1.span.traceId = span.traceId && run.1.span.spanStartMs ≤ span.spanStartMs &&
      span.spanStartMs ≤ run.1.span.spanEndMs
  let outer := runs.foldl
    (fun outer run =>
      match outer with
      | none => some run
      | some found =>
        if run.1.span.spanStartMs < found.1.span.spanStartMs ||
            (run.1.span.spanStartMs = found.1.span.spanStartMs &&
              found.1.span.spanEndMs < run.1.span.spanEndMs) then some run
        else some found)
    (none : Option (TurnAnchor × ℕ))
  outer.map Prod.snd

def agentRootTurnResolver (spans : List AiSessionSpan) (anchors : List TurnAnchor) : Resolver :=
  fun memo span =>
    (resolve (fun span => turnByAnchor anchors span.spanId) (byId spans) spans.length memo span).map
      fun found => (found.1, found.2.orElse fun _ => enclosingRun anchors span)

def turnResolver (spans : List AiSessionSpan) (anchors : List TurnAnchor) : Resolver :=
  if anchors.head?.any fun anchor => anchor.kind = .agentRoot then
    agentRootTurnResolver spans anchors
  else conversationTurnResolver spans anchors

/-! ### Filling the turns -/

/-- Move the cursor past the anchors that have started; the list holds the starts after it. -/
def advance (startMs : ℚ) : ℕ → List ℚ → ℕ × List ℚ
  | cursor, [] => (cursor, [])
  | cursor, next :: starts =>
    if next ≤ startMs then advance startMs (cursor + 1) starts else (cursor, next :: starts)

/-- The turn of each span, in start order: the one it names, or the one the cursor is in. -/
def assignTurns (turnOf : Resolver) :
    Memo → ℕ → List ℚ → List AiSessionSpan → Option (List (AiSessionSpan × ℕ))
  | _, _, _, [] => some []
  | memo, cursor, starts, span :: spans =>
    let moved := advance span.spanStartMs cursor starts
    match turnOf memo span with
    | none => none
    | some (memo, turn) =>
      (assignTurns turnOf memo moved.1 moved.2 spans).map ((span, turn.getD moved.1) :: ·)

def pushSpan (buckets : List (List AiSessionSpan)) (entry : AiSessionSpan × ℕ) :
    List (List AiSessionSpan) :=
  buckets.modify entry.2 (· ++ [entry.1])

def bucketsOf (anchors : List TurnAnchor) (assigned : List (AiSessionSpan × ℕ)) :
    List (List AiSessionSpan) :=
  assigned.foldl pushSpan (anchors.map fun _ => [])

/-! ### Setups -/

/-- Whether the spans open any work. -/
def opened (host : Host) (bucket : List AiSessionSpan) : Bool :=
  bucket.any fun span =>
    classifyAiSpan host span = .inference || classifyAiSpan host span = .tool ||
      spanFailed host span || (lastUserMessageText host span.genAi.inputMessages).isSome

/-- Spans that open no work, right before the next turn, are its setup. -/
def isSetup (host : Host) (bucket next : List AiSessionSpan) : Bool :=
  !opened host bucket &&
    match next.head?, (bucket.map AiSessionSpan.spanEndMs).max? with
    | none, _ => true
    | some _, none => false
    | some first, some endMs => first.spanStartMs - endMs ≤ SETUP_LEAD_MAX_MS

/-- Each setup goes on into the next turn; the first bucket is that of the turn at hand. -/
def joinSetups (host : Host) : List AiSessionSpan → List (List AiSessionSpan) →
    List (List AiSessionSpan)
  | bucket, [] => [bucket]
  | bucket, next :: rest =>
    if isSetup host bucket next then [] :: joinSetups host (bucket ++ next) rest
    else bucket :: joinSetups host next rest

/-- Where the boundary is a guess, and the session has work, setups join the next turn. -/
def joins (host : Host) (anchors : List TurnAnchor) (buckets : List (List AiSessionSpan)) : Bool :=
  !(anchors.head?.any fun anchor => anchor.kind = .conversation) && buckets.any (opened host)

def joinedBuckets (host : Host) (anchors : List TurnAnchor) (buckets : List (List AiSessionSpan)) :
    List (List AiSessionSpan) :=
  if joins host anchors buckets then
    match buckets with
    | [] => []
    | bucket :: rest => joinSetups host bucket rest
  else buckets

/-! ### Turns -/

/-- An AI span of the turn started once this one had ended, and succeeded. -/
def recoveredFrom (host : Host) (failed : AiSessionSpan) (turnSpans : List AiSessionSpan) : Bool :=
  turnSpans.any fun span =>
    span.isAiSpan && failed.spanEndMs ≤ span.spanStartMs && !spanFailed host span

def turnLabel (host : Host) (anchor : AiSessionSpan) (turnSpans : List AiSessionSpan) :
    Option String :=
  let prompts := (turnSpans.filter (isLlmCall host)).map fun span =>
    userMessageTexts host span.genAi.inputMessages
  let modelPrompts := (prompts.find? (· ≠ [])).getD []
  let fromAnchor := (lastUserMessageText host anchor.genAi.inputMessages).filter fun text =>
    text ∉ modelPrompts.dropLast
  fromAnchor.orElse fun _ =>
    modelPrompts.getLast?.orElse fun _ =>
      turnSpans.findSome? fun span => lastUserMessageText host span.genAi.inputMessages

def turnFailed (host : Host) (anchor : TurnAnchor) (turnSpans : List AiSessionSpan) : Bool :=
  let spanIds := turnSpans.map AiSessionSpan.spanId
  (anchor.kind = .agentRoot && spanFailed host anchor.span) ||
    turnSpans.any fun span =>
      span.isAiSpan && spanFailed host span &&
        (span.parentSpanId = "" || span.parentSpanId ∉ spanIds) &&
        !(classifyAiSpan host span = .tool && recoveredFrom host span turnSpans)

def sessionTurn (host : Host) (anchor : TurnAnchor) (turnSpans : List AiSessionSpan) (index : ℕ) :
    SessionTurn :=
  { id := anchor.id
    index := index + 1
    anchorKind := anchor.kind
    anchor := anchor.span
    label := turnLabel host anchor.span turnSpans
    agentName := anchor.span.genAi.agentName.orElse fun _ =>
      turnSpans.findSome? fun span => span.genAi.agentName.filter (· ≠ "")
    startMs := (turnSpans.map AiSessionSpan.spanStartMs).min?.getD 0
    endMs := (turnSpans.map AiSessionSpan.spanEndMs).max?.getD 0
    spans := turnSpans
    failed := turnFailed host anchor turnSpans
    traceIds := (turnSpans.map AiSessionSpan.traceId).eraseDups }

def turnsOf (host : Host) (anchors : List TurnAnchor) (buckets : List (List AiSessionSpan)) :
    List SessionTurn :=
  ((anchors.zip buckets).filter fun entry => !entry.2.isEmpty).mapIdx fun index entry =>
    sessionTurn host entry.1 entry.2 index

def inStartOrder (spans : List AiSessionSpan) : List AiSessionSpan :=
  spans.insertionSort fun a b => a.spanStartMs ≤ b.spanStartMs

/-- The anchors of a session and the spans of their turns, before setups join. -/
def filledBuckets (host : Host) (spans : List AiSessionSpan) :
    Option (List TurnAnchor × List (List AiSessionSpan)) :=
  let ordered := inStartOrder spans
  match findAnchors host ordered with
  | none => none
  | some anchors =>
    let starts := anchors.map fun anchor => anchor.span.spanStartMs
    (assignTurns (turnResolver spans anchors) [] 0 starts.tail ordered).map fun assigned =>
      (anchors, bucketsOf anchors assigned)

/-- No value where a walk does not end. -/
def buildSessionTurns (host : Host) (spans : List AiSessionSpan) : Option (List SessionTurn) :=
  if spans.isEmpty then some []
  else
    (filledBuckets host spans).map fun filled =>
      turnsOf host filled.1 (joinedBuckets host filled.1 filled.2)

end Maple.AgentSessions
