import Mathlib.Data.List.Sort
import Maple.ClockSkewSound
import Maple.ParentLinks

/-! The span tree of a trace, built from a flat list of spans with parent ids. -/

namespace Maple.SpanTree

open RoseTree

inductive BuildError where
  | invalidSpanId (value : String)
  | endless
deriving DecidableEq

def toSpanId (value : String) : Except BuildError SpanId :=
  if h : isMapleId value = true then .ok ⟨value, h⟩ else .error (.invalidSpanId value)

def dedupe (seen : List SpanId) : List Span → List Span
  | [] => []
  | span :: spans =>
    if span.spanId ∈ seen then dedupe seen spans else span :: dedupe (span.spanId :: seen) spans

/-- Also the values of `spanMap`, in the order of its keys. -/
def dedupeBySpanId (spans : List Span) : List Span := dedupe [] spans

section Links

variable (nodes : List Span)

def namesParent (node : Span) : Bool :=
  node.parentSpanId ≠ "" && node.parentSpanId ≠ node.spanId.val

def hasSpan (value : String) : Bool := nodes.any fun node => node.spanId.val = value

def isChild (node : Span) : Bool := namesParent node && hasSpan nodes node.parentSpanId

def isOrphan (node : Span) : Bool := namesParent node && !hasSpan nodes node.parentSpanId

def childrenOf (parent : Span) : List Span :=
  nodes.filter fun node => isChild nodes node && node.parentSpanId = parent.spanId.val

structure MissingParentGroup where
  missingParentId : String
  first : Span
  others : List Span

def MissingParentGroup.children (group : MissingParentGroup) : List Span :=
  group.first :: group.others

def pushGroup (node : Span) : List MissingParentGroup → List MissingParentGroup
  | [] => [⟨node.parentSpanId, node, []⟩]
  | group :: groups =>
    if group.missingParentId = node.parentSpanId then
      { group with others := group.others ++ [node] } :: groups
    else group :: pushGroup node groups

def missingParentGroups : List MissingParentGroup :=
  (nodes.filter (isOrphan nodes)).foldl (fun groups node => pushGroup node groups) []

def freshInfo (span : Span) : NodeInfo := ⟨span, 0, false, none⟩

def placeholder (spanId : SpanId) (first : Span) : NodeInfo :=
  { traceId := first.traceId
    spanId := spanId
    parentSpanId := ""
    spanName := "Missing Span"
    serviceName := "unknown"
    spanKind := "SPAN_KIND_INTERNAL"
    durationMs := 0
    startTime := first.startTime
    statusCode := "Unset"
    statusMessage := ""
    spanAttributes := []
    resourceAttributes := []
    depth := 0
    isMissing := true
    clockSkewMs := none }

/-- The node of a span with everything linked below it. -/
def link : ℕ → Span → Option SpanNode
  | 0, _ => none
  | fuel + 1, span =>
    ((childrenOf nodes span).mapM (link fuel)).map (.node (freshInfo span))

def linkAll (spans : List Span) : Except BuildError (List SpanNode) :=
  match spans.mapM (link nodes nodes.length) with
  | some trees => .ok trees
  | none => .error .endless

def placeholders : List MissingParentGroup → Except BuildError (List SpanNode)
  | [] => .ok []
  | group :: groups => do
    let spanId ← toSpanId group.missingParentId
    let children ← linkAll nodes group.children
    let rest ← placeholders groups
    .ok (.node (placeholder spanId group.first) children :: rest)

end Links

def setDepth (node : SpanNode) (depth : ℕ) : SpanNode :=
  node.inherit (fun depth _ _ => depth + 1) (fun depth info => { info with depth := depth }) depth

section Order

variable (epochOf : String → ℚ)

def startsBefore (a b : SpanNode) : Prop :=
  epochOf a.label.startTime ≤ epochOf b.label.startTime

instance : DecidableRel (startsBefore epochOf) := fun a b =>
  inferInstanceAs (Decidable (epochOf a.label.startTime ≤ epochOf b.label.startTime))

def sortChildren (node : SpanNode) : SpanNode :=
  node.fold fun info cs => .node info (cs.insertionSort (startsBefore epochOf))

def buildSpanTree (spans : List Span) : Except BuildError (List SpanNode) := do
  let nodes := dedupeBySpanId spans
  let roots ← linkAll nodes (nodes.filter fun node => !isChild nodes node && !isOrphan nodes node)
  let missing ← placeholders nodes (missingParentGroups nodes)
  let rootSpans := (roots ++ missing).map fun root => sortChildren epochOf (setDepth root 0)
  .ok (adjustClockSkew epochOf (rootSpans.insertionSort (startsBefore epochOf))).1

end Order

end Maple.SpanTree
