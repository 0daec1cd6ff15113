import Maple.PredicateBudget
import Mathlib.Tactic

/-! The guard and the validation of a selector: both report a size exactly when the selector is
too large, which is said once for the tree. -/

namespace Maple.Eventing.Budget
open IngestRules (codeUnits)

variable {R : Type} {limits : Limits} {heap : Heap R}

/-! ### Graphs that decode -/

def DecodesField (heap : Heap R) (field : FieldRef) (value : Raw R) : Prop :=
  ∃ get, record heap value = some get ∧ get "namespace" = .text field.space.name ∧
    get "key" = .text field.key ∧ get "type" = .text field.type.name

/-- The decimal pattern's own length stays part of decoding. -/
def LiteralValue (limits : Limits) (literal : SignalScalar) (value : Raw R) : Prop :=
  match literal with
  | .string text => value = .text text
  | .boolean flag => value = .boolean flag
  | .int64 text => value = .text text ∧ (codeUnits text).length ≤ limits.decimalLength
  | .float64 number => value = .number number
  | .timestamp text => value = .text text
  | .duration text => value = .text text ∧ (codeUnits text).length ≤ limits.decimalLength

def DecodesLiteral (limits : Limits) (heap : Heap R) (literal : SignalScalar) (value : Raw R) :
    Prop :=
  ∃ get, record heap value = some get ∧ get "type" = .text literal.type.name ∧
    LiteralValue limits literal (get "value")

section Decodes
-- what the property `value` of an `exists` node, which no schema reads, may be
variable (limits : Limits) (heap : Heap R) (unread : Raw R → Prop)

mutual

/-- The tree that hangs from a value is this predicate, its size aside. -/
def Decodes : SignalPredicate → Raw R → Prop
  | .all clauses, value => ∃ get items, record heap value = some get ∧ get "op" = .text "all" ∧
      array heap (get "clauses") = some items ∧ DecodesEach clauses items
  | .any clauses, value => ∃ get items, record heap value = some get ∧ get "op" = .text "any" ∧
      array heap (get "clauses") = some items ∧ DecodesEach clauses items
  | .not clause, value => ∃ get, record heap value = some get ∧ get "op" = .text "not" ∧
      Decodes clause (get "clause")
  | .exists field, value => ∃ get, record heap value = some get ∧ get "op" = .text "exists" ∧
      DecodesField heap field (get "field") ∧ unread (get "value")
  | .comparison op field literal, value => ∃ get, record heap value = some get ∧
      get "op" = .text op.name ∧ DecodesField heap field (get "field") ∧
      DecodesLiteral limits heap literal (get "value")
  | .in field literals, value => ∃ get items, record heap value = some get ∧
      get "op" = .text "in" ∧ DecodesField heap field (get "field") ∧
      array heap (get "values") = some items ∧
      List.Forall₂ (DecodesLiteral limits heap) literals items

def DecodesEach : List SignalPredicate → List (Raw R) → Prop
  | [], [] => True
  | clause :: clauses, value :: values => Decodes clause value ∧ DecodesEach clauses values
  | _, _ => False

end

end Decodes

/-! ### The size of a predicate -/

def LiteralFits (limits : Limits) : SignalScalar → Prop
  | .string text => text.length ≤ limits.stringCharacters
  | _ => True

/-- The literals of a node. -/
def LeafFits (limits : Limits) : SignalPredicate → Prop
  | .comparison _ _ literal => LiteralFits limits literal
  | .in _ literals =>
    literals.length ≤ limits.inValues ∧ ∀ literal ∈ literals, LiteralFits limits literal
  | _ => True

mutual

/-- Depth, in-lists and strings. -/
def Fits (limits : Limits) : ℕ → SignalPredicate → Prop
  | depth, .all clauses => depth ≤ limits.depth ∧ FitsEach limits (depth + 1) clauses
  | depth, .any clauses => depth ≤ limits.depth ∧ FitsEach limits (depth + 1) clauses
  | depth, .not clause => depth ≤ limits.depth ∧ Fits limits (depth + 1) clause
  | depth, .exists _ => depth ≤ limits.depth
  | depth, .comparison op field literal =>
    depth ≤ limits.depth ∧ LeafFits limits (.comparison op field literal)
  | depth, .in field literals => depth ≤ limits.depth ∧ LeafFits limits (.in field literals)

def FitsEach (limits : Limits) : ℕ → List SignalPredicate → Prop
  | _, [] => True
  | depth, clause :: clauses => Fits limits depth clause ∧ FitsEach limits depth clauses

end

mutual

/-- The nodes of a tree, by occurrence. -/
def nodeCount : SignalPredicate → ℕ
  | .all clauses => nodeCounts clauses + 1
  | .any clauses => nodeCounts clauses + 1
  | .not clause => nodeCount clause + 1
  | .exists _ => 1
  | .comparison _ _ _ => 1
  | .in _ _ => 1

def nodeCounts : List SignalPredicate → ℕ
  | [] => 0
  | clause :: clauses => nodeCount clause + nodeCounts clauses

end

def children : SignalPredicate → List SignalPredicate
  | .all clauses => clauses
  | .any clauses => clauses
  | .not clause => [clause]
  | _ => []

lemma fits_iff {depth : ℕ} {predicate : SignalPredicate} :
    Fits limits depth predicate ↔ depth ≤ limits.depth ∧ LeafFits limits predicate ∧
      FitsEach limits (depth + 1) (children predicate) := by
  cases predicate <;> simp [Fits, LeafFits, FitsEach, children]

lemma nodeCount_eq (predicate : SignalPredicate) :
    nodeCount predicate = nodeCounts (children predicate) + 1 := by
  cases predicate <;> simp [nodeCount, nodeCounts, children]

lemma nodeCount_pos (predicate : SignalPredicate) : 1 ≤ nodeCount predicate := by
  rw [nodeCount_eq]
  omega

lemma length_le_nodeCounts (clauses : List SignalPredicate) :
    clauses.length ≤ nodeCounts clauses := by
  induction clauses with
  | nil => simp
  | cons clause clauses ih =>
    have hpos := nodeCount_pos clause
    rw [List.length_cons, nodeCounts]
    omega

lemma nodeCounts_eq_sum (clauses : List SignalPredicate) :
    nodeCounts clauses = (clauses.map nodeCount).sum := by
  induction clauses with
  | nil => rfl
  | cons clause clauses ih => rw [nodeCounts, ih, List.map_cons, List.sum_cons]

lemma fitsEach_iff {depth : ℕ} {clauses : List SignalPredicate} :
    FitsEach limits depth clauses ↔ ∀ clause ∈ clauses, Fits limits depth clause := by
  induction clauses with
  | nil => simp [FitsEach]
  | cons clause clauses ih => simp [FitsEach, ih]

/-! ### The guard -/

/-- A turn that goes on counts a node; the guard returns once too many are counted. -/
lemma budgetLoop_returns {turns nodes : ℕ} {stack : List (Raw R × ℕ)}
    (hnodes : nodes ≤ limits.nodes) (hturns : limits.nodes + 2 ≤ turns + nodes) :
    ∃ issue, budgetLoop limits heap turns nodes stack = some issue := by
  induction turns generalizing nodes stack with
  | zero => omega
  | succ turns ih =>
    cases stack with
    | nil => exact ⟨none, rfl⟩
    | cons top stack =>
      obtain ⟨value, depth⟩ := top
      rw [budgetLoop]
      split_ifs with hdepth hfull
      · exact ⟨_, rfl⟩
      · exact ⟨_, rfl⟩
      · cases visitNode limits heap value with
        | issue message => exact ⟨_, rfl⟩
        | push values => exact ih (by omega) (by omega)

lemma budgetLoop_mono {turns more nodes : ℕ} {stack : List (Raw R × ℕ)} {issue : Option String}
    (h : budgetLoop limits heap turns nodes stack = some issue) (hmore : turns ≤ more) :
    budgetLoop limits heap more nodes stack = some issue := by
  induction turns generalizing more nodes stack with
  | zero => cases h
  | succ turns ih =>
    obtain ⟨more, rfl⟩ : ∃ n, more = n + 1 := Nat.exists_eq_succ_of_ne_zero (by omega)
    cases stack with
    | nil => exact h
    | cons top stack =>
      obtain ⟨value, depth⟩ := top
      rw [budgetLoop] at h ⊢
      split_ifs at h ⊢ with hdepth hfull
      · exact h
      · exact h
      · cases hvisit : visitNode limits heap value with
        | issue message =>
          rw [hvisit] at h
          exact h
        | push values =>
          rw [hvisit] at h
          exact ih h (by omega)

lemma literalIssue_none_iff {literal : SignalScalar} {value : Raw R}
    (h : DecodesLiteral limits heap literal value) :
    literalIssue limits heap value = none ↔ LiteralFits limits literal := by
  obtain ⟨get, hrecord, htype, hvalue⟩ := h
  unfold literalIssue
  rw [hrecord]
  dsimp only
  cases literal with
  | string text =>
    rw [LiteralValue] at hvalue
    rw [hvalue, htype, LiteralFits]
    simp [textIssue, SignalScalar.type, SignalScalarType.name]
  | boolean flag =>
    rw [LiteralValue] at hvalue
    simp [hvalue, LiteralFits]
  | int64 text =>
    obtain ⟨htext, hlength⟩ := hvalue
    rw [htext, htype]
    simp [textIssue, SignalScalar.type, SignalScalarType.name, LiteralFits, hlength]
  | float64 number =>
    rw [LiteralValue] at hvalue
    simp [hvalue, LiteralFits]
  | timestamp text =>
    rw [LiteralValue] at hvalue
    rw [hvalue, htype]
    simp [textIssue, SignalScalar.type, SignalScalarType.name, LiteralFits]
  | duration text =>
    obtain ⟨htext, hlength⟩ := hvalue
    rw [htext, htype]
    simp [textIssue, SignalScalar.type, SignalScalarType.name, LiteralFits, hlength]

lemma findSome_none_iff {literals : List SignalScalar} {values : List (Raw R)}
    (h : List.Forall₂ (DecodesLiteral limits heap) literals values) :
    values.findSome? (literalIssue limits heap) = none ↔
      ∀ literal ∈ literals, LiteralFits limits literal := by
  induction h with
  | nil => simp
  | cons hhead _ ih =>
    rw [List.findSome?_cons, List.forall_mem_cons, ← literalIssue_none_iff hhead, ← ih]
    cases literalIssue limits heap _ with
    | none => simp
    | some issue => simp

variable {unread : Raw R → Prop}

lemma decodesEach_forall₂ {clauses : List SignalPredicate} {values : List (Raw R)}
    (h : DecodesEach limits heap unread clauses values) :
    List.Forall₂ (Decodes limits heap unread) clauses values := by
  induction clauses generalizing values with
  | nil =>
    cases values with
    | nil => exact .nil
    | cons value values => exact absurd h (by simp [DecodesEach])
  | cons clause clauses ih =>
    cases values with
    | nil => exact absurd h (by simp [DecodesEach])
    | cons value values =>
      rw [DecodesEach] at h
      exact .cons h.1 (ih h.2)

/-- A node of a tree that decodes pushes its children, unless it is too large by itself. -/
inductive Goes (limits : Limits) (heap : Heap R) (unread : Raw R → Prop)
    (predicate : SignalPredicate) : Visited R → Prop
  | push {values : List (Raw R)} (leaf : LeafFits limits predicate)
      (each : List.Forall₂ (Decodes limits heap unread) (children predicate) values) :
      Goes limits heap unread predicate (.push values)
  | issue {message : String}
      (large : ¬LeafFits limits predicate ∨ limits.nodes < (children predicate).length) :
      Goes limits heap unread predicate (.issue message)

lemma visitClauseList_goes {predicate : SignalPredicate} {value : Raw R} {items : List (Raw R)}
    (hitems : array heap value = some items) (hleaf : LeafFits limits predicate)
    (heach : DecodesEach limits heap unread (children predicate) items) :
    Goes limits heap unread predicate (visitClauseList limits heap value) := by
  have hforall := decodesEach_forall₂ heach
  rw [visitClauseList, hitems]
  dsimp only
  split_ifs with hmany
  · exact .issue (Or.inr (by rw [hforall.length_eq]; exact hmany))
  · exact .push hleaf hforall

lemma visitNode_goes (hunread : ∀ value, unread value → literalIssue limits heap value = none)
    {predicate : SignalPredicate} {value : Raw R}
    (h : Decodes limits heap unread predicate value) :
    Goes limits heap unread predicate (visitNode limits heap value) := by
  cases predicate with
  | all clauses =>
    obtain ⟨get, items, hrecord, hop, hitems, heach⟩ := h
    rw [visitNode, hrecord]
    dsimp only
    rw [hop]
    exact visitClauseList_goes hitems trivial heach
  | any clauses =>
    obtain ⟨get, items, hrecord, hop, hitems, heach⟩ := h
    rw [visitNode, hrecord]
    dsimp only
    rw [hop]
    exact visitClauseList_goes hitems trivial heach
  | not clause =>
    obtain ⟨get, hrecord, hop, hclause⟩ := h
    rw [visitNode, hrecord]
    dsimp only
    rw [hop]
    exact .push trivial (.cons hclause .nil)
  | «exists» field =>
    obtain ⟨get, hrecord, hop, -, hvalue⟩ := h
    rw [visitNode, hrecord]
    dsimp only
    rw [hop]
    rw [visitValue, hunread _ hvalue]
    exact .push trivial .nil
  | comparison op field literal =>
    obtain ⟨get, hrecord, hop, -, hliteral⟩ := h
    have hvisit : visitNode limits heap value = visitValue limits heap (get "value") := by
      rw [visitNode, hrecord]
      dsimp only
      rw [hop]
      cases op <;> rfl
    have hiff := literalIssue_none_iff hliteral
    rw [hvisit, visitValue]
    cases hissue : literalIssue limits heap (get "value") with
    | none => exact .push (hiff.mp hissue) .nil
    | some message =>
      refine .issue (Or.inl fun hfits => ?_)
      rw [hiff.mpr hfits] at hissue
      cases hissue
  | «in» field literals =>
    obtain ⟨get, items, hrecord, hop, -, hitems, heach⟩ := h
    have hiff := findSome_none_iff heach
    rw [visitNode, hrecord]
    dsimp only
    rw [hop]
    rw [visitValues, hitems]
    dsimp only
    split_ifs with hmany
    · refine .issue (Or.inl fun hfits => ?_)
      have hlength := hfits.1
      rw [heach.length_eq] at hlength
      omega
    · cases hissue : items.findSome? (literalIssue limits heap) with
      | none =>
        refine .push ⟨?_, hiff.mp hissue⟩ .nil
        rw [heach.length_eq]
        omega
      | some message =>
        refine .issue (Or.inl fun hfits => ?_)
        rw [hiff.mpr hfits.2] at hissue
        cases hissue

/-- The stack stands for these predicates at their depths. -/
abbrev Stands (limits : Limits) (heap : Heap R) (unread : Raw R → Prop)
    (stack : List (Raw R × ℕ)) (waiting : List (SignalPredicate × ℕ)) : Prop :=
  List.Forall₂ (fun value predicate => value.2 = predicate.2 ∧
    Decodes limits heap unread predicate.1 value.1) stack waiting

lemma stands_children {clauses : List SignalPredicate} {values : List (Raw R)} {depth : ℕ}
    (h : List.Forall₂ (Decodes limits heap unread) clauses values) :
    Stands limits heap unread (values.map (·, depth)).reverse
      (clauses.map (·, depth)).reverse := by
  rw [Stands, List.forall₂_reverse_iff, List.forall₂_map_left_iff, List.forall₂_map_right_iff]
  exact h.flip.imp fun _ _ hdecodes => ⟨rfl, hdecodes⟩

/-- What the guard says of the predicates on its stack. -/
lemma budgetLoop_none_iff
    (hunread : ∀ value, unread value → literalIssue limits heap value = none) {turns nodes : ℕ}
    {stack : List (Raw R × ℕ)} {waiting : List (SignalPredicate × ℕ)} {issue : Option String}
    (hstands : Stands limits heap unread stack waiting) (hnodes : nodes ≤ limits.nodes)
    (h : budgetLoop limits heap turns nodes stack = some issue) :
    issue = none ↔ (∀ entry ∈ waiting, Fits limits entry.2 entry.1) ∧
      nodes + (waiting.map fun entry => nodeCount entry.1).sum ≤ limits.nodes := by
  induction turns generalizing nodes stack waiting with
  | zero => cases h
  | succ turns ih =>
    cases hstands with
    | nil =>
      cases h
      simpa using hnodes
    | @cons top entry stack waiting hhead hrest =>
      obtain ⟨value, depth⟩ := top
      obtain ⟨predicate, at_⟩ := entry
      obtain ⟨rfl, hdecodes⟩ := hhead
      have hpos := nodeCount_pos predicate
      rw [budgetLoop] at h
      rw [List.forall_mem_cons, List.map_cons, List.sum_cons]
      dsimp only
      split_ifs at h with hdepth hfull
      · cases h
        refine iff_of_false (by simp) fun hall => ?_
        have hfits := (fits_iff.mp hall.1.1).1
        omega
      · cases h
        refine iff_of_false (by simp) fun hall => ?_
        omega
      · have hgoes := visitNode_goes hunread hdecodes
        cases hvisit : visitNode limits heap value with
        | issue message =>
          rw [hvisit] at h hgoes
          cases h
          cases hgoes with
          | issue large =>
            refine iff_of_false (by simp) fun hall => ?_
            rcases large with hleaf | hmany
            · exact hleaf (fits_iff.mp hall.1.1).2.1
            · have hlength := length_le_nodeCounts (children predicate)
              dsimp only at hmany
              have hcount := nodeCount_eq predicate
              omega
        | push values =>
          rw [hvisit] at h hgoes
          cases hgoes with
          | push leaf each =>
            have hstack : Stands limits heap unread
                ((values.map (·, depth + 1)).reverse ++ stack)
                (((children predicate).map (·, depth + 1)).reverse ++ waiting) :=
              List.rel_append (stands_children each) hrest
            rw [ih hstack (by omega) h]
            have hsum : ((((children predicate).map (·, depth + 1)).reverse ++ waiting).map
                fun entry => nodeCount entry.1).sum =
                nodeCounts (children predicate) +
                  (waiting.map fun entry => nodeCount entry.1).sum := by
              rw [List.map_append, List.sum_append, List.map_reverse, List.sum_reverse,
                List.map_map, nodeCounts_eq_sum]
              rfl
            have hfits : (∀ entry ∈ ((children predicate).map (·, depth + 1)).reverse ++ waiting,
                Fits limits entry.2 entry.1) ↔
                Fits limits depth predicate ∧ ∀ entry ∈ waiting, Fits limits entry.2 entry.1 := by
              rw [fits_iff, fitsEach_iff]
              simp only [List.mem_append, List.mem_reverse, List.mem_map, or_imp, forall_and]
              constructor
              · rintro ⟨hchildren, hwaiting⟩
                exact ⟨⟨by omega, leaf, fun clause hclause =>
                  hchildren _ ⟨clause, hclause, rfl⟩⟩, hwaiting⟩
              · rintro ⟨⟨-, -, hchildren⟩, hwaiting⟩
                refine ⟨?_, hwaiting⟩
                rintro entry ⟨clause, hclause, rfl⟩
                exact hchildren clause hclause
            rw [hfits, hsum, nodeCount_eq predicate]
            refine and_congr_right fun _ => ?_
            omega

end Maple.Eventing.Budget
