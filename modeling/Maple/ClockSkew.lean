import Mathlib.Algebra.Order.Ring.Abs
import Mathlib.Tactic.Linarith
import Mathlib.Tactic.Ring
import Maple.RoseTree
import Maple.SafeFetch

/-! Span trees and the correction of clock skew between the services of a trace. -/

namespace Maple.SpanTree

open RoseTree

/-- `MapleId`: not empty, without white space at either end. -/
def isMapleId (value : String) : Bool := value ≠ "" && SafeFetch.trim value = value

abbrev TraceId := { value : String // isMapleId value = true }
abbrev SpanId := { value : String // isMapleId value = true }

structure Span where
  traceId : TraceId
  spanId : SpanId
  parentSpanId : String
  spanName : String
  serviceName : String
  spanKind : String
  durationMs : ℚ
  startTime : String
  statusCode : String
  statusMessage : String
  spanAttributes : List (String × String)
  resourceAttributes : List (String × String)
deriving DecidableEq

/-- The fields of a `SpanNode` other than its children. -/
structure NodeInfo extends Span where
  depth : ℕ
  isMissing : Bool
  clockSkewMs : Option ℚ
deriving DecidableEq

abbrev SpanNode := RoseTree NodeInfo

structure Skews where
  adjustedCount : ℕ
  maxSkewMs : ℚ
deriving DecidableEq

namespace Skews

def none : Skews := ⟨0, 0⟩

def note (skews : Skews) (skewMs : ℚ) : Skews :=
  ⟨skews.adjustedCount + 1,
    if |skews.maxSkewMs| < |skewMs| then skewMs else skews.maxSkewMs⟩

end Skews

section Code

/- `epochOf` reads a start time, as `new Date(startTime).getTime()` does. -/
variable (epochOf : String → ℚ)

def spanStartMs (span : NodeInfo) : ℚ :=
  epochOf span.startTime + span.clockSkewMs.getD 0

def shiftSubtree (node : SpanNode) (skewMs : ℚ) : SpanNode :=
  node.map fun info => { info with clockSkewMs := some (info.clockSkewMs.getD 0 + skewMs) }

def weight (node : SpanNode) : ℕ := node.labels.length

def forestWeight (nodes : List SpanNode) : ℕ := (nodes.map weight).sum

lemma weight_node (info : NodeInfo) (cs : List SpanNode) :
    weight (.node info cs) = forestWeight cs + 1 := by
  rw [weight, labels_node, List.length_cons, List.length_flatMap]
  rfl

@[simp] lemma weight_shiftSubtree (node : SpanNode) (skewMs : ℚ) :
    weight (shiftSubtree node skewMs) = weight node := by
  rw [weight, shiftSubtree, labels_map, List.length_map]
  rfl

lemma forestWeight_cons (c : SpanNode) (cs : List SpanNode) :
    forestWeight (c :: cs) = weight c + forestWeight cs := by
  simp [forestWeight]

lemma weight_pos (c : SpanNode) : 0 < weight c := by
  cases c
  rw [weight_node]
  omega

/-- How far a child is moved so that it sits centred in its parent's window, when it is moved. -/
def correction (parent child : NodeInfo) : Option ℚ :=
  if child.serviceName = parent.serviceName then Option.none else
  let parentStart := spanStartMs epochOf parent
  let parentEnd := parentStart + parent.durationMs
  let childStart := spanStartMs epochOf child
  let childEnd := childStart + child.durationMs
  let slackMs := parent.durationMs - child.durationMs
  if ¬(childStart ≥ parentStart ∧ childEnd ≤ parentEnd) ∧ slackMs ≥ 0 then
    some (parentStart + slackMs / 2 - childStart)
  else Option.none

mutual

/-- `visit`: the node with its descendants corrected, and what was noted on the way. -/
def visit (skews : Skews) (node : SpanNode) : SpanNode × Skews :=
  match node with
  | .node parent cs =>
    let (cs, skews) := visitChildren skews parent cs
    (.node parent cs, skews)
  termination_by (weight node, 0)
  decreasing_by
    rw [weight_node]
    exact Prod.Lex.left _ _ (by omega)

def visitChildren (skews : Skews) (parent : NodeInfo) (cs : List SpanNode) :
    List SpanNode × Skews :=
  match cs with
  | [] => ([], skews)
  | c :: cs =>
    match correction epochOf parent c.label with
    | .none =>
      let (c, skews) := visit skews c
      let (cs, skews) := visitChildren skews parent cs
      (c :: cs, skews)
    | some skewMs =>
      let (c, skews) := visit (skews.note skewMs) (shiftSubtree c skewMs)
      let (cs, skews) := visitChildren skews parent cs
      (c :: cs, skews)
  termination_by (forestWeight cs, 1)
  decreasing_by
    all_goals rw [forestWeight_cons]
    all_goals have := weight_pos c
    all_goals try rw [weight_shiftSubtree]
    all_goals first
      | exact Prod.Lex.left _ _ (by omega)
      | (rcases Nat.eq_zero_or_pos (forestWeight cs) with h | h
         · rw [h]; exact Prod.Lex.right _ (by omega)
         · exact Prod.Lex.left _ _ (by omega))

end

def visitRoots : Skews → List SpanNode → List SpanNode × Skews
  | skews, [] => ([], skews)
  | skews, root :: roots =>
    let (root, skews) := visit epochOf skews root
    let (roots, skews) := visitRoots skews roots
    (root :: roots, skews)

def adjustClockSkew (rootSpans : List SpanNode) : List SpanNode × Skews :=
  visitRoots epochOf .none rootSpans

end Code

mutual

def summaryVisit (skews : Skews) (parentSkewMs : ℚ) : SpanNode → Skews
  | .node info cs =>
    let skewMs := info.clockSkewMs.getD 0
    summaryVisitAll (if skewMs ≠ parentSkewMs then skews.note skewMs else skews) skewMs cs

def summaryVisitAll (skews : Skews) (parentSkewMs : ℚ) : List SpanNode → Skews
  | [] => skews
  | c :: cs => summaryVisitAll (summaryVisit skews parentSkewMs c) parentSkewMs cs

end

def summarizeClockSkew (rootSpans : List SpanNode) : Option Skews :=
  let skews := summaryVisitAll .none 0 rootSpans
  if skews.adjustedCount = 0 then Option.none else some skews

end Maple.SpanTree
