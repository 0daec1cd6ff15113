import Maple.Json
import Mathlib.Data.List.Infix
import Mathlib.Algebra.Order.Ring.Unbundled.Rat

/-! The spans of an agent session, and how one reads: its category, whether it failed, and the user
message it captured. Times are milliseconds. -/

namespace Maple.AgentSessions

structure GenAi where
  operationName : Option String := none
  providerName : Option String := none
  toolName : Option String := none
  agentName : Option String := none
  conversationId : Option String := none
  requestModel : Option String := none
  responseModel : Option String := none
  responseId : Option String := none
  responseStatus : Option String := none
  errorType : Option String := none
  inputMessages : Option Json := none
  /-- The verdicts of the ingest gateway. -/
  mapleLlmCall : Option ℤ := none
  mapleToolCall : Option ℤ := none
  mapleError : Option ℤ := none
  mapleInputTokens : Option ℕ := none
  mapleCacheReadTokens : Option ℕ := none
  mapleCacheWriteTokens : Option ℕ := none
  mapleOutputTokens : Option ℕ := none
  mapleReasoningTokens : Option ℕ := none
  mapleCost : Option ℚ := none
  /-- What the emitter reported. -/
  usageInputTokens : Option ℕ := none
  usageCacheReadInputTokens : Option ℕ := none
  usageCacheCreationInputTokens : Option ℕ := none
  usageOutputTokens : Option ℕ := none
  usageReasoningOutputTokens : Option ℕ := none
  usageCost : Option ℚ := none

structure AiSessionSpan where
  spanId : String
  parentSpanId : String := ""
  traceId : String := ""
  spanName : String := ""
  statusCode : String := ""
  isAiSpan : Bool := false
  sessionId : Option String := none
  vendorId : Option String := none
  /-- The timestamp, parsed. -/
  spanStartMs : ℚ
  durationMs : ℚ := 0
  genAi : GenAi := {}

def AiSessionSpan.spanEndMs (span : AiSessionSpan) : ℚ := span.spanStartMs + span.durationMs

/-- The text functions the spans are read with. -/
structure Host where
  toLowerCase : String → String
  /-- `String(value)`. -/
  stringOf : Json → String
  withoutInjectedBlocks : String → String
  /-- Cut a line of more than 80 code units to the label's length. -/
  elide : String → String

/-! ### Categories -/

inductive AiSpanCategory
  | agent | inference | tool | other
deriving DecidableEq

def INFERENCE_OPS : List String := ["chat", "generate_content", "text_completion", "fetch_response"]
def RETRIEVAL_OPS : List String := ["embeddings", "retrieval"]
def TOOL_OPS : List String := ["execute_tool"]
def AGENT_OPS : List String :=
  ["invoke_agent", "create_agent", "invoke_workflow", "plan", "agent_step"]
def MEMORY_OPS : List String :=
  ["search_memory", "create_memory", "update_memory", "upsert_memory", "delete_memory",
    "create_memory_store", "delete_memory_store"]

def includes (text part : String) : Bool := part.toList <:+: text.toList

/-- Whether `spanModel` names a model. -/
def namesModel (span : AiSessionSpan) : Bool :=
  span.genAi.responseModel.isSome || span.genAi.requestModel.isSome

/-- The rules for an AI span whose operation says nothing. -/
def classifyByName (host : Host) (span : AiSessionSpan) : AiSpanCategory :=
  let name := host.toLowerCase span.spanName
  if span.genAi.toolName.isSome || (span.genAi.operationName.isNone && includes name "tool") then
    .tool
  else if includes name "agent" || includes name "workflow" then .agent
  else if namesModel span || includes name "chat" || includes name "completion" then .inference
  else .agent

def classifyAiSpan (host : Host) (span : AiSessionSpan) : AiSpanCategory :=
  let operation := span.genAi.operationName
  match span.genAi.mapleLlmCall with
  | some call =>
    if call = 1 then .inference
    else if span.genAi.mapleToolCall.isSome then .tool
    else if operation.any (· ∈ RETRIEVAL_OPS) then .inference
    else .agent
  | none =>
    if operation.any fun name => name ∈ INFERENCE_OPS || name ∈ RETRIEVAL_OPS then .inference
    else if operation.any (· ∈ TOOL_OPS) then .tool
    else if operation.any fun name => name ∈ AGENT_OPS || name ∈ MEMORY_OPS then .agent
    else if !span.isAiSpan then .other
    else classifyByName host span

def isLlmCall (host : Host) (span : AiSessionSpan) : Bool :=
  match span.genAi.mapleLlmCall with
  | some call => call = 1
  | none =>
    if span.genAi.operationName.any (· ∈ RETRIEVAL_OPS) then false
    else classifyAiSpan host span = .inference

def FAILED_RESPONSE_STATUSES : List String := ["failed", "error"]

def spanFailed (host : Host) (span : AiSessionSpan) : Bool :=
  if span.genAi.mapleLlmCall.isSome then span.genAi.mapleError = some 1
  else if span.statusCode = "Error" then true
  else if !span.isAiSpan then false
  else if span.genAi.errorType.any (· ≠ "") then true
  else span.genAi.responseStatus.any fun status =>
    host.toLowerCase status ∈ FAILED_RESPONSE_STATUSES

/-! ### User messages -/

/-- White space and line ends, as `trim` and `\s` have them. -/
def isSpace (c : Char) : Bool :=
  (9 ≤ c.toNat && c.toNat ≤ 13) || (0x2000 ≤ c.toNat && c.toNat ≤ 0x200A) ||
    c.toNat ∈ [0x20, 0xA0, 0x1680, 0x2028, 0x2029, 0x202F, 0x205F, 0x3000, 0xFEFF]

/-- A line with its runs of white space made one space, and none at its ends. -/
def squeezed (line : List Char) : List Char :=
  [' '].intercalate ((line.splitOnP isSpace).filter (· ≠ []))

def isLeadIn (line : List Char) : Bool := line.map Char.toLower = "new task:".toList

def proseLine (host : Host) (value : String) : Option String :=
  match ((value.toList.splitOn '\n').map squeezed).filter (· ≠ []) with
  | [] => none
  | [first] => some (host.elide (String.ofList first))
  | first :: second :: _ =>
    some (host.elide (String.ofList (if isLeadIn first then second else first)))

def partText (host : Host) (part : Json) : Option String :=
  let prose (text : String) := proseLine host (host.withoutInjectedBlocks text)
  match part with
  | .string text => prose text
  | .object _ =>
    match part.get? "content", part.get? "text" with
    | some (.string content), _ => prose content
    | _, some (.string text) => prose text
    | _, _ => none
  | _ => none

def messageText (host : Host) : Json → Option String
  | .string text => proseLine host (host.withoutInjectedBlocks text)
  | .array parts => parts.findSome? (partText host)
  | _ => none

/-- The text of an entry, if it is a user's. -/
def userText (host : Host) (entry : Json) : Option String :=
  if (entry.get? "role").any fun role => host.toLowerCase (host.stringOf role) = "user" then
    ((entry.get? "parts").bind (messageText host)).orElse fun _ =>
      (entry.get? "content").bind (messageText host)
  else none

/-- The newest user message with readable text. -/
def lastUserMessageText (host : Host) : Option Json → Option String
  | some (.array entries) => entries.reverse.findSome? (userText host)
  | _ => none

/-- Every user message with readable text, the oldest first. -/
def userMessageTexts (host : Host) : Option Json → List String
  | some (.array entries) => entries.filterMap (userText host)
  | _ => []

end Maple.AgentSessions
