import Maple.PredicateBudgetAgrees

/-! The size issues that validation reports, and the agreement of the guard with them. -/

namespace Maple.Eventing.Budget
open IngestRules (codeUnits)

variable {limits : Limits}

/-- A depth, a node count, an in-list or a string over its limit. -/
def SizeIssue (limits : Limits) (issue : ValidationIssue) : Prop :=
  issue.message = "predicate depth exceeds " ++ toString limits.depth ∨
  issue.message = "predicate exceeds " ++ toString limits.nodes ++ " nodes" ∨
  issue.message = "in exceeds " ++ toString limits.inValues ++ " values" ∨
  issue.message = "string exceeds " ++ toString limits.stringCharacters ++ " Unicode code points"

/-! ### Messages -/

/-- The first characters of a message tell the size issues from the others. -/
def tag (message : String) : List Char := message.toList.take 4

lemma tag_append {start : String} (h : 4 ≤ start.toList.length) (rest : String) :
    tag (start ++ rest) = tag start := by
  rw [tag, tag, String.toList_append, List.take_append_of_le_length h]

def sizeTags : List (List Char) := ["pred".toList, "in e".toList, "stri".toList]

lemma tag_of_sizeIssue {issue : ValidationIssue} (h : SizeIssue limits issue) :
    tag issue.message ∈ sizeTags := by
  rcases h with h | h | h | h
  · rw [h, tag_append (by decide)]
    decide
  · rw [h, String.append_assoc, tag_append (by decide)]
    decide
  · rw [h, String.append_assoc, tag_append (by decide)]
    decide
  · rw [h, String.append_assoc, tag_append (by decide)]
    decide

/-- None of these issues is about a size. -/
def Sizeless (issues : List ValidationIssue) : Prop :=
  ∀ issue ∈ issues, tag issue.message ∉ sizeTags

lemma Sizeless.not {issues : List ValidationIssue} (h : Sizeless issues) :
    ¬∃ issue ∈ issues, SizeIssue limits issue := by
  rintro ⟨issue, hmem, hsize⟩
  exact h issue hmem (tag_of_sizeIssue hsize)

lemma sizeless_nil : Sizeless [] := by
  intro issue hissue
  cases hissue

lemma sizeless_single {issue : ValidationIssue} (h : tag issue.message ∉ sizeTags) :
    Sizeless [issue] := by
  intro other hother
  rwa [List.mem_singleton.mp hother]

lemma Sizeless.append {front back : List ValidationIssue} (hfront : Sizeless front)
    (hback : Sizeless back) : Sizeless (front ++ back) := by
  intro issue hissue
  rcases List.mem_append.mp hissue with hmem | hmem
  · exact hfront issue hmem
  · exact hback issue hmem

lemma sizeless_ite {p : Prop} [Decidable p] {issue : ValidationIssue}
    (h : tag issue.message ∉ sizeTags) : Sizeless (if p then [issue] else []) := by
  split_ifs
  · exact sizeless_single h
  · exact sizeless_nil

lemma sizeless_unless {p : Prop} [Decidable p] {issue : ValidationIssue}
    (h : tag issue.message ∉ sizeTags) : Sizeless (if p then [] else [issue]) := by
  split_ifs
  · exact sizeless_nil
  · exact sizeless_single h

lemma tag_typesMustMatch (path : String) :
    tag (typesMustMatch path).message ∉ sizeTags :=
  (by decide : tag "field and literal types must match" ∉ sizeTags)

section Validate
variable (bigIntFromString : String → Option ℤ)

lemma sizeless_scalar (scalar : SignalScalar) (path : String) :
    Sizeless (validateSignalScalar bigIntFromString scalar path) := by
  cases scalar with
  | string value => exact sizeless_nil
  | boolean value => exact sizeless_nil
  | int64 value => exact sizeless_ite (by dsimp only; decide)
  | float64 value => exact sizeless_unless (by dsimp only; decide)
  | timestamp value => exact sizeless_ite (by dsimp only; decide)
  | duration value => exact sizeless_ite (by dsimp only; decide)

lemma sizeless_ordered {op : ComparisonOp} (h : tag (op.name ++ " is") ∉ sizeTags)
    (hname : 4 ≤ (op.name ++ " is").toList.length) (path : String) (field : FieldRef)
    (value : SignalScalar) :
    Sizeless ((if orderedType field.type then []
        else [⟨path, op.name ++ " is not supported for " ++ field.type.name⟩]) ++
      (if field.type ≠ value.type then [typesMustMatch path] else [])) := by
  refine (sizeless_unless ?_).append (sizeless_ite (tag_typesMustMatch path))
  have hmessage : op.name ++ " is not supported for " ++ field.type.name =
      op.name ++ " is" ++ (" not supported for " ++ field.type.name) := by
    have hsplit : (" is not supported for " : String) = " is" ++ " not supported for " := rfl
    rw [hsplit]
    simp only [String.append_assoc]
  dsimp only
  rw [hmessage, tag_append hname]
  exact h

lemma sizeless_types (path : String) (op : ComparisonOp) (field : FieldRef)
    (value : SignalScalar) : Sizeless (typeIssues path op field value) := by
  cases op with
  | eq => exact sizeless_ite (tag_typesMustMatch path)
  | neq => exact sizeless_ite (tag_typesMustMatch path)
  | contains => exact sizeless_ite (by dsimp only; decide)
  | gt => exact sizeless_ordered (by decide) (by decide) path field value
  | gte => exact sizeless_ordered (by decide) (by decide) path field value
  | lt => exact sizeless_ordered (by decide) (by decide) path field value
  | lte => exact sizeless_ordered (by decide) (by decide) path field value

lemma sizeless_emptyClauses (path name : String) (hname : tag (name ++ " req") ∉ sizeTags)
    (hlength : 4 ≤ (name ++ " req").toList.length) (clauses : List SignalPredicate) :
    Sizeless (emptyClauses path name clauses) := by
  cases clauses with
  | nil =>
    refine sizeless_single ?_
    have hsplit : (" requires at least one clause" : String) = " req" ++ "uires at least one clause"
      := rfl
    dsimp only
    rw [hsplit, ← String.append_assoc, tag_append hlength]
    exact hname
  | cons clause clauses => exact sizeless_nil

/-- Some issue is about a size. -/
def Reports (limits : Limits) (issues : List ValidationIssue) : Prop :=
  ∃ issue ∈ issues, SizeIssue limits issue

lemma reports_append {front back : List ValidationIssue} :
    Reports limits (front ++ back) ↔ Reports limits front ∨ Reports limits back := by
  simp only [Reports, List.mem_append, or_and_right, exists_or]

lemma Sizeless.reports_append {front back : List ValidationIssue} (h : Sizeless front) :
    Reports limits (front ++ back) ↔ Reports limits back := by
  rw [Budget.reports_append]
  exact or_iff_right h.not

lemma reports_single {path message : String} (h : SizeIssue limits ⟨path, message⟩) :
    Reports limits [⟨path, message⟩] := ⟨_, List.mem_singleton_self _, h⟩

lemma literal_reports (literal : SignalScalar) (path : String) :
    Reports limits (validateSignalLiteral bigIntFromString limits literal path) ↔
      ¬LiteralFits limits literal := by
  have hscalar := sizeless_scalar bigIntFromString literal path
  cases literal with
  | string value =>
    rw [validateSignalLiteral, hscalar.reports_append, LiteralFits]
    split_ifs with hlong
    · exact iff_of_true (reports_single (Or.inr (Or.inr (Or.inr rfl)))) (by omega)
    · exact iff_of_false sizeless_nil.not (by omega)
  | boolean value => exact iff_of_false (hscalar.append sizeless_nil).not (not_not.mpr trivial)
  | int64 value => exact iff_of_false (hscalar.append sizeless_nil).not (not_not.mpr trivial)
  | float64 value => exact iff_of_false (hscalar.append sizeless_nil).not (not_not.mpr trivial)
  | timestamp value => exact iff_of_false (hscalar.append sizeless_nil).not (not_not.mpr trivial)
  | duration value => exact iff_of_false (hscalar.append sizeless_nil).not (not_not.mpr trivial)

lemma comparison_reports (path : String) (op : ComparisonOp) (field : FieldRef)
    (literal : SignalScalar) :
    Reports limits (comparisonIssues bigIntFromString limits path op field literal) ↔
      ¬LeafFits limits (.comparison op field literal) := by
  rw [comparisonIssues, (sizeless_types path op field literal).reports_append, literal_reports,
    LeafFits]

lemma values_report (path : String) (field : FieldRef) (literals : List SignalScalar) :
    Reports limits (valueIssues bigIntFromString limits path field literals) ↔
      ∃ literal ∈ literals, ¬LiteralFits limits literal := by
  rw [valueIssues]
  generalize 0 = start
  induction literals generalizing start with
  | nil => simp [Reports]
  | cons literal literals ih =>
    rw [List.zipIdx_cons, List.flatMap_cons, Budget.reports_append, ih]
    dsimp only
    rw [(sizeless_ite (tag_typesMustMatch _)).reports_append, literal_reports]
    simp

lemma in_reports (path : String) (field : FieldRef) (literals : List SignalScalar) :
    Reports limits (inIssues bigIntFromString limits path field literals) ↔
      ¬LeafFits limits (.in field literals) := by
  rw [inIssues, List.append_assoc, (sizeless_ite (by dsimp only; decide)).reports_append,
    Budget.reports_append, values_report, LeafFits, not_and_or, not_le]
  refine or_congr ?_ (by push Not; rfl)
  split_ifs with hmany
  · exact iff_of_true (reports_single (Or.inr (Or.inr (Or.inl rfl)))) hmany
  · exact iff_of_false sizeless_nil.not hmany

/-! ### Visits -/

/-- A visit that makes validation report a size. -/
def Over (limits : Limits) (visit : Visit) : Prop :=
  limits.nodes < visit.1 ∨ Reports limits visit.2

lemma over_push {visit : Visit} {issues : List ValidationIssue} :
    Over limits (visit.push issues) ↔ Over limits visit ∨ Reports limits issues := by
  rw [Over, Over, Visit.push, Budget.reports_append, or_assoc]

mutual

/-- What is too large stays so. -/
lemma visitPredicate_over (predicate : SignalPredicate) (path : String) (depth : ℕ)
    {visit : Visit} (h : Over limits visit) :
    Over limits (visitPredicate bigIntFromString limits predicate path depth visit) := by
  obtain ⟨count, issues⟩ := visit
  have hcounted : Over limits (count + 1, issues) := by
    rcases h with hcount | hissue
    · exact Or.inl (by dsimp only at hcount ⊢; omega)
    · exact Or.inr hissue
  cases predicate with
  | all clauses =>
    rw [visitPredicate]
    split_ifs
    · exact hcounted
    · exact over_push.mpr (Or.inl hcounted)
    · exact visitEach_over clauses path 0 (depth + 1) (over_push.mpr (Or.inl hcounted))
  | any clauses =>
    rw [visitPredicate]
    split_ifs
    · exact hcounted
    · exact over_push.mpr (Or.inl hcounted)
    · exact visitEach_over clauses path 0 (depth + 1) (over_push.mpr (Or.inl hcounted))
  | not clause =>
    rw [visitPredicate]
    split_ifs
    · exact hcounted
    · exact over_push.mpr (Or.inl hcounted)
    · exact visitPredicate_over clause (path ++ ".clause") (depth + 1) hcounted
  | «exists» field =>
    rw [visitPredicate]
    split_ifs
    · exact hcounted
    · exact over_push.mpr (Or.inl hcounted)
    · exact hcounted
  | comparison op field literal =>
    rw [visitPredicate]
    split_ifs
    · exact hcounted
    · exact over_push.mpr (Or.inl hcounted)
    · exact over_push.mpr (Or.inl hcounted)
  | «in» field literals =>
    rw [visitPredicate]
    split_ifs
    · exact hcounted
    · exact over_push.mpr (Or.inl hcounted)
    · exact over_push.mpr (Or.inl hcounted)

lemma visitEach_over (clauses : List SignalPredicate) (path : String) (i depth : ℕ)
    {visit : Visit} (h : Over limits visit) :
    Over limits (visitEach bigIntFromString limits clauses path i depth visit) := by
  cases clauses with
  | nil =>
    rw [visitEach]
    exact h
  | cons clause clauses =>
    rw [visitEach]
    exact visitEach_over clauses path (i + 1) depth
      (visitPredicate_over clause (path ++ ".clauses[" ++ toString i ++ "]") depth h)

end

/-- After what fits a visit has counted its nodes; after anything else it is over. -/
def Counted (limits : Limits) (fits : Prop) (count : ℕ) (before after : Visit) : Prop :=
  (fits ∧ before.1 + count ≤ limits.nodes →
    after.1 = before.1 + count ∧ ¬Over limits after) ∧
  (¬(fits ∧ before.1 + count ≤ limits.nodes) → Over limits after)

/-- A node that is itself within depth and count. -/
lemma counted_node {predicate : SignalPredicate} {depth count : ℕ} {path : String}
    {issues : List ValidationIssue} {after : Visit}
    (h : ¬limits.nodes < count + 1 → ¬limits.depth < depth →
      Counted limits (LeafFits limits predicate ∧ FitsEach limits (depth + 1) (children predicate))
        (nodeCounts (children predicate)) (count + 1, issues) after) :
    Counted limits (Fits limits depth predicate) (nodeCount predicate) (count, issues)
      (if limits.nodes < count + 1 then (count + 1, issues)
        else if limits.depth < depth then
          Visit.push (count + 1, issues) [⟨path, "predicate depth exceeds " ++ toString limits.depth⟩]
        else after) := by
  have hcount := nodeCount_eq predicate
  rw [Counted, fits_iff]
  split_ifs with hfull hdeep
  · exact ⟨fun hall => by dsimp only at hall; omega, fun _ => Or.inl hfull⟩
  · refine ⟨fun hall => by omega, fun _ => over_push.mpr (Or.inr ?_)⟩
    exact reports_single (Or.inl rfl)
  · obtain ⟨hfits, hover⟩ := h hfull hdeep
    dsimp only at hfits hover ⊢
    constructor
    · rintro ⟨⟨-, hall⟩, hsum⟩
      have hafter := hfits ⟨hall, by omega⟩
      exact ⟨by omega, hafter.2⟩
    · intro hnot
      refine hover fun hall => hnot ⟨⟨by omega, hall.1⟩, ?_⟩
      omega

lemma counted_leaf {predicate : SignalPredicate} {count : ℕ} {issues found : List ValidationIssue}
    {depth : ℕ} (hchildren : children predicate = [])
    (hfound : Reports limits found ↔ ¬LeafFits limits predicate)
    (hbefore : ¬Over limits (count, issues)) (hfull : ¬limits.nodes < count + 1) :
    Counted limits (LeafFits limits predicate ∧ FitsEach limits (depth + 1) (children predicate))
      (nodeCounts (children predicate)) (count + 1, issues)
      (Visit.push (count + 1, issues) found) := by
  have hstart : ¬Over limits (count + 1, issues) := by
    rw [Over, not_or] at hbefore ⊢
    exact ⟨hfull, hbefore.2⟩
  rw [Counted, hchildren, nodeCounts, over_push, hfound]
  dsimp only
  constructor
  · rintro ⟨⟨hleaf, -⟩, -⟩
    exact ⟨rfl, not_or.mpr ⟨hstart, not_not.mpr hleaf⟩⟩
  · intro hnot
    refine Or.inr fun hleaf => hnot ⟨⟨hleaf, trivial⟩, ?_⟩
    omega

mutual

lemma visitPredicate_counted (predicate : SignalPredicate) (path : String) (depth : ℕ)
    {visit : Visit} (h : ¬Over limits visit) :
    Counted limits (Fits limits depth predicate) (nodeCount predicate) visit
      (visitPredicate bigIntFromString limits predicate path depth visit) := by
  obtain ⟨count, issues⟩ := visit
  have hissues : ¬Reports limits issues := (not_or.mp h).2
  cases predicate with
  | all clauses =>
    rw [visitPredicate]
    refine counted_node fun hfull _ => ?_
    have hstart : ¬Over limits
        (Visit.push (count + 1, issues) (emptyClauses path "all" clauses)) := by
      rw [over_push, not_or]
      exact ⟨not_or.mpr ⟨hfull, hissues⟩,
        (sizeless_emptyClauses path "all" (by decide) (by decide) clauses).not⟩
    have heach := visitEach_counted clauses path 0 (depth + 1) hstart
    simpa [Counted, children, LeafFits, Visit.push] using heach
  | any clauses =>
    rw [visitPredicate]
    refine counted_node fun hfull _ => ?_
    have hstart : ¬Over limits
        (Visit.push (count + 1, issues) (emptyClauses path "any" clauses)) := by
      rw [over_push, not_or]
      exact ⟨not_or.mpr ⟨hfull, hissues⟩,
        (sizeless_emptyClauses path "any" (by decide) (by decide) clauses).not⟩
    have heach := visitEach_counted clauses path 0 (depth + 1) hstart
    simpa [Counted, children, LeafFits, Visit.push] using heach
  | not clause =>
    rw [visitPredicate]
    refine counted_node fun hfull _ => ?_
    have hstart : ¬Over limits ((count + 1, issues) : Visit) := not_or.mpr ⟨hfull, hissues⟩
    have hclause := visitPredicate_counted clause (path ++ ".clause") (depth + 1) hstart
    simpa [Counted, children, LeafFits, FitsEach, nodeCounts] using hclause
  | «exists» field =>
    rw [visitPredicate]
    refine counted_node fun hfull _ => ?_
    have hfound : Reports limits [] ↔ ¬LeafFits limits (.exists field) :=
      iff_of_false sizeless_nil.not (not_not.mpr trivial)
    have hleaf := @counted_leaf limits (.exists field) count issues [] depth rfl hfound h hfull
    simpa [Visit.push] using hleaf
  | comparison op field literal =>
    rw [visitPredicate]
    exact counted_node fun hfull _ =>
      counted_leaf rfl (comparison_reports bigIntFromString path op field literal) h hfull
  | «in» field literals =>
    rw [visitPredicate]
    exact counted_node fun hfull _ =>
      counted_leaf rfl (in_reports bigIntFromString path field literals) h hfull

lemma visitEach_counted (clauses : List SignalPredicate) (path : String) (i depth : ℕ)
    {visit : Visit} (h : ¬Over limits visit) :
    Counted limits (FitsEach limits depth clauses) (nodeCounts clauses) visit
      (visitEach bigIntFromString limits clauses path i depth visit) := by
  cases clauses with
  | nil =>
    rw [visitEach]
    refine ⟨fun _ => ⟨rfl, h⟩, fun hnot => ?_⟩
    refine absurd ⟨trivial, ?_⟩ hnot
    exact not_lt.mp (not_or.mp h).1
  | cons clause clauses =>
    rw [visitEach, FitsEach, nodeCounts]
    have hhead := visitPredicate_counted clause (path ++ ".clauses[" ++ toString i ++ "]") depth h
    generalize visitPredicate bigIntFromString limits clause
      (path ++ ".clauses[" ++ toString i ++ "]") depth visit = middle at hhead
    by_cases hfits : Fits limits depth clause ∧ visit.1 + nodeCount clause ≤ limits.nodes
    · obtain ⟨hmiddle, hnot⟩ := hhead.1 hfits
      have hrest := visitEach_counted clauses path (i + 1) depth hnot
      constructor
      · rintro ⟨⟨-, hall⟩, hsum⟩
        have hafter := hrest.1 ⟨hall, by omega⟩
        exact ⟨by omega, hafter.2⟩
      · intro hbad
        refine hrest.2 fun hall => hbad ⟨⟨hfits.1, hall.1⟩, ?_⟩
        omega
    · have hover := visitEach_over bigIntFromString clauses path (i + 1) depth (hhead.2 hfits)
      refine ⟨?_, fun _ => hover⟩
      rintro ⟨⟨hclause, -⟩, hsum⟩
      exact absurd ⟨hclause, by omega⟩ hfits

end

lemma validate_reports (predicate : SignalPredicate) :
    Reports limits (validateSignalPredicate bigIntFromString limits predicate) ↔
      ¬(Fits limits 1 predicate ∧ nodeCount predicate ≤ limits.nodes) := by
  have hstart : ¬Over limits ((0, []) : Visit) := by
    rw [Over, not_or]
    exact ⟨by simp, sizeless_nil.not⟩
  have hcounted := visitPredicate_counted bigIntFromString predicate "selector" 1 hstart
  rw [validateSignalPredicate]
  generalize visitPredicate bigIntFromString limits predicate "selector" 1 (0, []) = visit
    at hcounted
  rw [Counted, Nat.zero_add] at hcounted
  have hover : Over limits visit ↔ ¬(Fits limits 1 predicate ∧ nodeCount predicate ≤ limits.nodes) :=
    ⟨fun hover hall => (hcounted.1 hall).2 hover, hcounted.2⟩
  rw [← hover, Over]
  split_ifs with hmany
  · refine iff_of_true (reports_append.mpr (Or.inr ?_)) (Or.inl hmany)
    exact reports_single (Or.inr (Or.inl rfl))
  · rw [or_iff_right hmany]

end Validate

/-! ### The agreement -/

section Agreement
variable {R : Type}

/-- The guard returns on every graph, and on the graphs that decode it reports an issue exactly
when validation reports a size, unless an `exists` node has an oversized literal that no schema
reads. -/
theorem predicateInputBudgetIssue_agrees (limits : Limits) (heap : Heap R) (candidate : Raw R)
    (bigIntFromString : String → Option ℤ) :
    ∃ issue, (∀ turns, limits.nodes + 2 ≤ turns →
        predicateInputBudgetIssue limits heap turns candidate = some issue) ∧
      ∀ predicate, Decodes limits heap (fun value => literalIssue limits heap value = none)
          predicate candidate →
        (issue.isSome ↔
          Reports limits (validateSignalPredicate bigIntFromString limits predicate)) := by
  obtain ⟨issue, hissue⟩ := @budgetLoop_returns R limits heap (limits.nodes + 2) 0
    [(candidate, 1)] (Nat.zero_le _) (le_refl _)
  refine ⟨issue, fun turns hturns => budgetLoop_mono hissue hturns, fun predicate hdecodes => ?_⟩
  have hnone := budgetLoop_none_iff (fun _ h => h)
    (List.Forall₂.cons ⟨rfl, hdecodes⟩ .nil : Stands limits heap
      (fun value => literalIssue limits heap value = none) [(candidate, 1)] [(predicate, 1)])
    (Nat.zero_le limits.nodes) hissue
  rw [validate_reports, ← Option.ne_none_iff_isSome, ne_eq, hnone]
  simp

end Agreement

/-! ### Two selectors -/

def objectOf (entries : List (String × Raw ℕ)) : Cell ℕ :=
  .object fun key => ((entries.find? fun entry => entry.1 = key).map Prod.snd).getD .undefined

def keyField : FieldRef := ⟨.attribute, "message", .string⟩

/-- A `not` of an `exists`, with what the second has under `value`. -/
def selectorHeap (value : Raw ℕ) (text : String) : Heap ℕ
  | 0 => objectOf [("op", .text "not"), ("clause", .ref 1)]
  | 1 => objectOf [("op", .text "exists"), ("field", .ref 2), ("value", value)]
  | 2 => objectOf [("namespace", .text "attribute"), ("key", .text "message"),
      ("type", .text "string")]
  | _ => objectOf [("type", .text "string"), ("value", .text text)]

lemma selectorHeap_decodes {unread : Raw ℕ → Prop} {value : Raw ℕ} {text : String}
    (h : unread value) :
    Decodes codeLimits (selectorHeap value text) unread (.not (.exists keyField)) (.ref 0) :=
  ⟨_, rfl, rfl, _, rfl, rfl, ⟨_, rfl, rfl, rfl, rfl⟩, h⟩

theorem predicateInputBudgetIssue_agrees_sample :
    ∃ issue, (∀ turns, 66 ≤ turns →
        predicateInputBudgetIssue codeLimits (selectorHeap .undefined "") turns (.ref 0) =
          some issue) ∧
      (issue.isSome ↔ Reports codeLimits
        (validateSignalPredicate String.toInt? codeLimits (.not (.exists keyField)))) := by
  obtain ⟨issue, hissue, hagree⟩ := predicateInputBudgetIssue_agrees codeLimits
    (selectorHeap .undefined "") (.ref 0) String.toInt?
  exact ⟨issue, hissue, hagree _ (selectorHeap_decodes rfl)⟩

/-- The guard on a selector whose `exists` node has a text under `value`. -/
lemma budget_of_unread (text : String) (turns : ℕ) (hturns : 66 ≤ turns)
    (hlong : MAX_STRING_LITERAL_CHARACTERS < text.length) :
    predicateInputBudgetIssue codeLimits (selectorHeap (.ref 3) text) turns (.ref 0) =
      some (some "selector string exceeds 1024 Unicode code points") := by
  have hvalue : literalIssue codeLimits (selectorHeap (.ref 3) text) (.ref 3) =
      textIssue codeLimits (.text "string" : Raw ℕ) text := rfl
  have hissue : textIssue codeLimits (.text "string" : Raw ℕ) text =
      some "selector string exceeds 1024 Unicode code points" := if_pos hlong
  have hvisit : visitNode codeLimits (selectorHeap (.ref 3) text) (.ref 1) =
      visitValue codeLimits (selectorHeap (.ref 3) text) (.ref 3) := rfl
  have hturn : budgetLoop codeLimits (selectorHeap (.ref 3) text) 2 0 [(.ref 0, 1)] =
      budgetLoop codeLimits (selectorHeap (.ref 3) text) 1 1 [(.ref 1, 2)] := rfl
  have htwo : budgetLoop codeLimits (selectorHeap (.ref 3) text) 2 0 [(.ref 0, 1)] =
      some (some "selector string exceeds 1024 Unicode code points") := by
    rw [hturn, budgetLoop, hvisit, visitValue, hvalue, hissue]
    rfl
  exact budgetLoop_mono htwo (by omega)

/-- The guard reads the `value` of an `exists` node, which decoding drops. -/
theorem oversized_unread_value :
    ¬∀ (limits : Limits) (heap : Heap ℕ) (candidate : Raw ℕ)
      (bigIntFromString : String → Option ℤ) (predicate : SignalPredicate)
      (issue : Option String),
      (∀ turns, limits.nodes + 2 ≤ turns →
        predicateInputBudgetIssue limits heap turns candidate = some issue) →
      Decodes limits heap (fun _ => True) predicate candidate →
      (issue.isSome ↔
        Reports limits (validateSignalPredicate bigIntFromString limits predicate)) := by
  intro h
  have hlong : MAX_STRING_LITERAL_CHARACTERS < (String.ofList (List.replicate 1025 'x')).length := by
    rw [String.length_ofList, List.length_replicate]
    decide
  have hreports := (h codeLimits (selectorHeap (.ref 3) (String.ofList (List.replicate 1025 'x')))
    (.ref 0) String.toInt? (.not (.exists keyField)) _
    (fun turns hturns => budget_of_unread _ turns hturns hlong)
    (selectorHeap_decodes trivial)).mp rfl
  rw [validate_reports] at hreports
  exact hreports ⟨by simp [Fits, codeLimits, MAX_PREDICATE_DEPTH],
    by simp [nodeCount, codeLimits, MAX_PREDICATE_NODES]⟩

end Maple.Eventing.Budget
