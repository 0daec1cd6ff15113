import Maple.FormulaShunting

/-! When a chart formula means what it says. -/

namespace Maple.Formula

variable {variableValues : String → Option ℚ}

/-- Reading postfix with the values at hand, the last one first. -/
inductive Leaves (variableValues : String → Option ℚ) : List RpnToken → List ℚ → List ℚ → Prop
  | nil (values : List ℚ) : Leaves variableValues [] values values
  | number {rest : List RpnToken} {values after : List ℚ} (value : ℚ)
      (h : Leaves variableValues rest (value :: values) after) :
      Leaves variableValues (.token (.number value) :: rest) values after
  | identifier {rest : List RpnToken} {values after : List ℚ} {name : String} {value : ℚ}
      (hvalue : variableValues name = some value)
      (h : Leaves variableValues rest (value :: values) after) :
      Leaves variableValues (.token (.identifier name) :: rest) values after
  | neg {rest : List RpnToken} {values after : List ℚ} {operand : ℚ}
      (h : Leaves variableValues rest (-operand :: values) after) :
      Leaves variableValues (.unary :: rest) (operand :: values) after
  | binary {rest : List RpnToken} {values after : List ℚ} {op : FormulaOperator}
      {left right value : ℚ}
      (hvalue : (Infix.binary op (.number left) (.number right)).value variableValues = some value)
      (h : Leaves variableValues rest (value :: values) after) :
      Leaves variableValues (.token (.operator op) :: rest) (right :: left :: values) after

lemma applyOperator_ok {op : FormulaOperator} {left right value : ℚ} :
    applyOperator op left right = .ok value ↔
      (Infix.binary op (.number left) (.number right)).value variableValues = some value := by
  cases op with
  | add => simp [applyOperator, Infix.value]
  | sub => simp [applyOperator, Infix.value]
  | mul => simp [applyOperator, Infix.value]
  | div =>
    by_cases hright : right = 0
    · simp [applyOperator, Infix.value, hright]
    · simp [applyOperator, Infix.value, hright]

lemma Leaves.foldlM {rpn : List RpnToken} {values after : List ℚ}
    (h : Leaves variableValues rpn values after) :
    rpn.foldlM (evaluateToken variableValues) values = .ok after := by
  induction h with
  | nil values => rfl
  | number value h ih => exact ih
  | identifier hvalue h ih =>
    rw [List.foldlM_cons]
    simpa [evaluateToken, hvalue, bind, Except.bind] using ih
  | neg h ih => exact ih
  | binary hvalue h ih =>
    rw [List.foldlM_cons]
    simpa [evaluateToken, applyOperator_ok.mpr hvalue, bind, Except.bind, pure, Except.pure] using ih

lemma leaves_of_foldlM {rpn : List RpnToken} {values after : List ℚ}
    (h : rpn.foldlM (evaluateToken variableValues) values = .ok after) :
    Leaves variableValues rpn values after := by
  induction rpn generalizing values with
  | nil =>
    cases h
    exact .nil _
  | cons token rest ih =>
    rw [List.foldlM_cons] at h
    cases token with
    | unary =>
      cases values with
      | nil => cases h
      | cons operand values => exact .neg (ih h)
    | token t =>
      cases t with
      | number value => exact .number value (ih h)
      | identifier name =>
        cases hvalue : variableValues name with
        | none => simp [evaluateToken, hvalue, bind, Except.bind] at h
        | some value =>
          apply Leaves.identifier hvalue
          apply ih
          simpa [evaluateToken, hvalue, bind, Except.bind] using h
      | leftParen => cases h
      | rightParen => cases h
      | operator op =>
        rcases values with _ | ⟨right, _ | ⟨left, values⟩⟩
        · cases h
        · cases h
        · cases hvalue : applyOperator op left right with
          | error e => simp [evaluateToken, hvalue, bind, Except.bind] at h
          | ok value =>
            apply Leaves.binary (applyOperator_ok.mp hvalue)
            apply ih
            simpa [evaluateToken, hvalue, bind, Except.bind, pure, Except.pure] using h

lemma evaluateCompiledFormula_ok {rpn : List RpnToken} {value : ℚ} :
    evaluateCompiledFormula rpn variableValues = .ok value ↔
      Leaves variableValues rpn [] [value] := by
  unfold evaluateCompiledFormula
  constructor
  · intro h
    cases hfold : rpn.foldlM (evaluateToken variableValues) [] with
    | error e => simp [hfold, bind, Except.bind] at h
    | ok values =>
      apply leaves_of_foldlM
      rcases values with _ | ⟨first, _ | ⟨second, rest⟩⟩
      · simp [hfold, bind, Except.bind, throw, throwThe, MonadExceptOf.throw] at h
      · simp only [hfold, bind, Except.bind, pure, Except.pure, Except.ok.injEq] at h
        rw [hfold, h]
      · simp [hfold, bind, Except.bind, throw, throwThe, MonadExceptOf.throw] at h
  · intro h
    simp [h.foldlM, bind, Except.bind, pure, Except.pure]

lemma runFormula_ok {tokens : List FormulaToken} {value : ℚ} :
    runFormula tokens variableValues = .ok value ↔
      ∃ rpn, Loose .sum tokens rpn ∧ Leaves variableValues rpn [] [value] := by
  unfold runFormula
  constructor
  · intro h
    cases hcompiled : compileFormula tokens with
    | error message => simp [hcompiled] at h
    | ok compiled =>
      obtain ⟨rpn, identifiers⟩ := compiled
      simp only [hcompiled] at h
      exact ⟨rpn, (compileFormula_iff tokens rpn).mp ⟨identifiers, hcompiled⟩,
        evaluateCompiledFormula_ok.mp h⟩
  · rintro ⟨rpn, hloose, hleaves⟩
    obtain ⟨identifiers, hcompiled⟩ := (compileFormula_iff tokens rpn).mpr hloose
    simp only [hcompiled]
    exact evaluateCompiledFormula_ok.mpr hleaves

/-- What is compiled is determined. -/
lemma Loose.unique {tokens : List FormulaToken} {rpn rpn' : List RpnToken}
    (h : Loose .sum tokens rpn) (h' : Loose .sum tokens rpn') : rpn = rpn' := by
  obtain ⟨identifiers, hcompiled⟩ := h.compileFormula
  obtain ⟨identifiers', hcompiled'⟩ := h'.compileFormula
  rw [hcompiled] at hcompiled'
  cases hcompiled'
  rfl

/-- Postfix of a formula gives its value to what follows. -/
lemma leaves_postfixed {e : Infix} {rest : List RpnToken} {values after : List ℚ} :
    Leaves variableValues (e.postfixed ++ rest) values after ↔
      ∃ value, e.value variableValues = some value ∧
        Leaves variableValues rest (value :: values) after := by
  induction e generalizing rest values with
  | number value =>
    constructor
    · intro h
      cases h with
      | number _ h => exact ⟨value, rfl, h⟩
    · rintro ⟨_, heq, h⟩
      cases heq
      exact .number value h
  | identifier name =>
    constructor
    · intro h
      cases h with
      | identifier hvalue h => exact ⟨_, hvalue, h⟩
    · rintro ⟨value, hvalue, h⟩
      exact .identifier hvalue h
  | neg operand ih =>
    rw [Infix.postfixed, List.append_assoc, ih]
    constructor
    · rintro ⟨value, hvalue, h⟩
      cases h with
      | neg h => exact ⟨-value, by simp [Infix.value, hvalue], h⟩
    · rintro ⟨value, hvalue, h⟩
      simp only [Infix.value, Option.map_eq_some_iff] at hvalue
      obtain ⟨inner, hinner, rfl⟩ := hvalue
      exact ⟨inner, hinner, .neg h⟩
  | binary op left right ihleft ihright =>
    rw [Infix.postfixed, List.append_assoc, List.append_assoc, ihleft]
    constructor
    · rintro ⟨a, ha, h⟩
      rw [ihright] at h
      obtain ⟨b, hb, h⟩ := h
      cases h with
      | binary hvalue h => exact ⟨_, by simpa [Infix.value, ha, hb] using hvalue, h⟩
    · rintro ⟨value, hvalue, h⟩
      cases ha : left.value variableValues with
      | none => simp [Infix.value, ha] at hvalue
      | some a =>
        refine ⟨a, rfl, ihright.mpr ?_⟩
        cases hb : right.value variableValues with
        | none => simp [Infix.value, ha, hb] at hvalue
        | some b => exact ⟨b, rfl, .binary (by simpa [Infix.value, ha, hb] using hvalue) h⟩

lemma Derives.runFormula {tokens : List FormulaToken} {e : Infix} (h : Derives .sum tokens e)
    (value : ℚ) :
    runFormula tokens variableValues = .ok value ↔ e.value variableValues = some value := by
  have hloose : Loose .sum tokens e.postfixed := h.asLoose
  have hpostfixed : Leaves variableValues e.postfixed [] [value] ↔
      e.value variableValues = some value := by
    have hsplit : Leaves variableValues (e.postfixed ++ []) [] [value] ↔
        ∃ found, e.value variableValues = some found ∧
          Leaves variableValues [] [found] [value] := leaves_postfixed
    rw [List.append_nil] at hsplit
    rw [hsplit]
    constructor
    · rintro ⟨found, hfound, hleaves⟩
      cases hleaves
      exact hfound
    · intro hvalue
      exact ⟨value, hvalue, .nil _⟩
  rw [runFormula_ok]
  constructor
  · rintro ⟨rpn, hrpn, hleaves⟩
    rw [hrpn.unique hloose] at hleaves
    exact hpostfixed.mp hleaves
  · intro hvalue
    exact ⟨e.postfixed, hloose, hpostfixed.mpr hvalue⟩

/-- The tokens give a value exactly when they are a formula that has it, and that one. -/
def MeansWhatItSays (tokens : List FormulaToken) (variableValues : String → Option ℚ) : Prop :=
  ∀ value, runFormula tokens variableValues = .ok value ↔
    ∃ e, Derives .sum tokens e ∧ e.value variableValues = some value

/-- Tokens that are no formula are refused exactly when the wider reading does not leave one value. -/
theorem meansWhatItSays_iff (tokens : List FormulaToken) (variableValues : String → Option ℚ) :
    MeansWhatItSays tokens variableValues ↔
      (∃ e, Derives .sum tokens e) ∨
        ∀ rpn value, Loose .sum tokens rpn → ¬Leaves variableValues rpn [] [value] := by
  constructor
  · intro h
    by_cases hformula : ∃ e, Derives .sum tokens e
    · exact Or.inl hformula
    · right
      intro rpn value hloose hleaves
      obtain ⟨e, hderives, _⟩ := (h value).mp (runFormula_ok.mpr ⟨rpn, hloose, hleaves⟩)
      exact hformula ⟨e, hderives⟩
  · rintro (⟨e, hderives⟩ | hnone) value
    · constructor
      · intro hrun
        exact ⟨e, hderives, (hderives.runFormula value).mp hrun⟩
      · rintro ⟨e', hderives', hvalue⟩
        exact (hderives'.runFormula value).mpr hvalue
    · constructor
      · intro hrun
        obtain ⟨rpn, hloose, hleaves⟩ := runFormula_ok.mp hrun
        exact absurd hleaves (hnone rpn value hloose)
      · rintro ⟨e, hderives, hvalue⟩
        exact (hderives.runFormula value).mpr hvalue

/-- `1 2 +` is no formula and is read as 3. -/
theorem operands_side_by_side :
    ¬MeansWhatItSays [.number 1, .number 2, .operator .add] fun _ => none := by
  intro h
  have hrun : runFormula [.number 1, .number 2, .operator .add] (fun _ => none) = .ok (1 + 2) := rfl
  obtain ⟨e, hderives, _⟩ := (h (1 + 2)).mp hrun
  have hlast := hderives.operandLast
  cases hlast

end Maple.Formula
