import Maple.FormulaGrammar

/-! The operator stack reads exactly the wider grammar: what it compiles, and that it compiles
whatever has matching parentheses. -/

namespace Maple.Formula

/-! ### The stack -/

/-- Waiting operators that an operator of this precedence makes go out. -/
def Pending (limit : ℕ) (stack : List RpnToken) : Prop :=
  ∀ top ∈ stack, top = .unary ∨ ∃ op, top = .token (.operator op) ∧ limit ≤ precedence op

/-- A stack that an operator of this precedence leaves alone. -/
def Stops (limit : ℕ) (stack : List RpnToken) : Prop :=
  ∀ top ∈ stack.head?, top ≠ .unary ∧ ∀ op, top = .token (.operator op) → precedence op < limit

lemma Pending.mono {limit limit' : ℕ} {stack : List RpnToken} (h : Pending limit' stack)
    (hle : limit ≤ limit') : Pending limit stack := by
  intro top htop
  rcases h top htop with rfl | ⟨op, rfl, hop⟩
  · exact Or.inl rfl
  · exact Or.inr ⟨op, rfl, by omega⟩

lemma Stops.mono {limit limit' : ℕ} {stack : List RpnToken} (h : Stops limit stack)
    (hle : limit ≤ limit') : Stops limit' stack := by
  intro top htop
  obtain ⟨hunary, hop⟩ := h top htop
  refine ⟨hunary, fun op heq => ?_⟩
  have := hop op heq
  omega

lemma pending_replicate (limit k : ℕ) : Pending limit (List.replicate k .unary) :=
  fun _ htop => Or.inl (List.eq_of_mem_replicate htop)

lemma Pending.append {limit : ℕ} {stack stack' : List RpnToken} (h : Pending limit stack)
    (h' : Pending limit stack') : Pending limit (stack ++ stack') := by
  intro top htop
  rcases List.mem_append.mp htop with htop | htop
  · exact h top htop
  · exact h' top htop

lemma pending_singleton {limit : ℕ} {op : FormulaOperator} (h : limit ≤ precedence op) :
    Pending limit [.token (.operator op)] := by
  intro top htop
  rw [List.mem_singleton] at htop
  exact Or.inr ⟨op, htop, h⟩

lemma stops_operator {limit : ℕ} {op : FormulaOperator} {stack : List RpnToken}
    (h : precedence op < limit) : Stops limit (.token (.operator op) :: stack) := by
  intro top htop
  obtain rfl : .token (.operator op) = top := by simpa using htop
  refine ⟨by simp, ?_⟩
  rintro op' heq
  cases heq
  exact h

lemma stops_paren (limit : ℕ) (stack : List RpnToken) :
    Stops limit (.token .leftParen :: stack) := by
  intro top htop
  obtain rfl : .token .leftParen = top := by simpa using htop
  exact ⟨by simp, fun op heq => by cases heq⟩

lemma popOperators_stops {limit : ℕ} {stack : List RpnToken} (h : Stops limit stack)
    (output : List RpnToken) : popOperators limit output stack = (output, stack) := by
  cases stack with
  | nil => rfl
  | cons top rest =>
    obtain ⟨hunary, hop⟩ := h top rfl
    cases top with
    | unary => exact absurd rfl hunary
    | token t =>
      cases t with
      | operator op => rw [popOperators, if_pos (hop op rfl)]
      | number value => rfl
      | identifier value => rfl
      | leftParen => rfl
      | rightParen => rfl

lemma popOperators_pending {limit : ℕ} {pend stack : List RpnToken} (hpend : Pending limit pend)
    (hstack : Stops limit stack) (output : List RpnToken) :
    popOperators limit output (pend ++ stack) = (output ++ pend, stack) := by
  induction pend generalizing output with
  | nil => simpa using popOperators_stops hstack output
  | cons top rest ih =>
    have hrest : Pending limit rest := fun t ht => hpend t (List.mem_cons_of_mem _ ht)
    rcases hpend top List.mem_cons_self with rfl | ⟨op, rfl, hop⟩
    · rw [List.cons_append, popOperators, ih hrest]
      simp
    · rw [List.cons_append, popOperators, if_neg (by omega), ih hrest]
      simp

lemma popParen_pending {limit : ℕ} {pend : List RpnToken} (hpend : Pending limit pend)
    (output stack : List RpnToken) :
    popParen output (pend ++ .token .leftParen :: stack) = some (output ++ pend, stack) := by
  induction pend generalizing output with
  | nil => simp [popParen]
  | cons top rest ih =>
    have hrest : Pending limit rest := fun t ht => hpend t (List.mem_cons_of_mem _ ht)
    rcases hpend top List.mem_cons_self with rfl | ⟨op, rfl, _⟩
    · rw [List.cons_append, popParen, ih hrest]
      · simp
      · simp
    · rw [List.cons_append, popParen, ih hrest]
      · simp
      · simp

lemma popRest_pending {limit : ℕ} {pend : List RpnToken} (hpend : Pending limit pend)
    (output : List RpnToken) : popRest output pend = .ok (output ++ pend) := by
  induction pend generalizing output with
  | nil => simp [popRest]
  | cons top rest ih =>
    have hrest : Pending limit rest := fun t ht => hpend t (List.mem_cons_of_mem _ ht)
    rcases hpend top List.mem_cons_self with rfl | ⟨op, rfl, _⟩
    · rw [popRest, if_neg (by simp), ih hrest]
      simp
    · rw [popRest, if_neg (by simp), ih hrest]
      simp

lemma popUnary_stops {limit k : ℕ} {stack : List RpnToken} (h : Stops limit stack)
    (output : List RpnToken) : popUnary output (List.replicate k .unary ++ stack) =
      (output ++ List.replicate k .unary, stack) := by
  induction k generalizing output with
  | zero =>
    cases stack with
    | nil => simp [popUnary]
    | cons top rest =>
      cases top with
      | unary => exact absurd rfl (h .unary rfl).1
      | token t => simp [popUnary]
  | succ k ih =>
    rw [List.replicate_succ, List.cons_append, popUnary, ih]
    simp

/-! ### Reading the wider grammar -/

/-- The lowest precedence of an operator of this level. -/
def LooseLevel.limit : LooseLevel → ℕ
  | .operands _ => 3
  | .factor => 3
  | .term => 2
  | .sum => 1

/-- What the prefix minuses before the operands have put on the stack. -/
def LooseLevel.waiting : LooseLevel → List RpnToken
  | .operands k => List.replicate k .unary
  | _ => []

/-- Where a prefix minus may stand first, the token before must let it. -/
def LooseLevel.Starts : LooseLevel → Option FormulaToken → Prop
  | .operands _, _ => True
  | _, previous => unaryContext previous = true

/-- The tokens compile to the output, some of it still on the stack. -/
def Compiles (level : LooseLevel) (tokens : List FormulaToken) (out : List RpnToken) : Prop :=
  ∀ c base, c.operatorStack = level.waiting ++ base → Stops level.limit base →
    level.Starts c.previousToken →
    ∃ c' done pend, tokens.foldlM Compiling.step c = .ok c' ∧ c'.output = c.output ++ done ∧
      c'.operatorStack = pend ++ base ∧ Pending level.limit pend ∧ done ++ pend = out ∧
      c'.previousToken = tokens.getLast?.or c.previousToken

section
variable {tokens rest : List FormulaToken} {token : FormulaToken} {c c' : Compiling}

lemma foldlM_cons_ok (h : c.step token = .ok c') :
    (token :: tokens).foldlM Compiling.step c = tokens.foldlM Compiling.step c' := by
  rw [List.foldlM_cons, h]
  rfl

lemma foldlM_append_ok (h : tokens.foldlM Compiling.step c = .ok c') :
    (tokens ++ rest).foldlM Compiling.step c = rest.foldlM Compiling.step c' := by
  rw [List.foldlM_append, h]
  rfl

lemma getLast?_or_cons (tokens : List FormulaToken) (token : FormulaToken)
    (previous : Option FormulaToken) :
    tokens.getLast?.or (some token) = (token :: tokens).getLast?.or previous := by
  rw [List.getLast?_cons]
  cases tokens.getLast? <;> rfl

lemma getLast?_or_append_cons (left right : List FormulaToken) (token : FormulaToken)
    (previous : Option FormulaToken) :
    right.getLast?.or (some token) = (left ++ token :: right).getLast?.or previous := by
  rw [List.getLast?_append, List.getLast?_cons]
  cases right.getLast? <;> rfl

/-- Prefix minuses only go on the stack. -/
lemma foldlM_minuses (rest : List FormulaToken) (k : ℕ)
    (hstart : unaryContext c.previousToken = true) :
    ∃ c', (List.replicate k (FormulaToken.operator .sub) ++ rest).foldlM Compiling.step c =
        rest.foldlM Compiling.step c' ∧ c'.output = c.output ∧
      c'.operatorStack = List.replicate k .unary ++ c.operatorStack ∧
      unaryContext c'.previousToken = true ∧
      rest.getLast?.or c'.previousToken =
        (List.replicate k (FormulaToken.operator .sub) ++ rest).getLast?.or c.previousToken := by
  induction k generalizing c with
  | zero => exact ⟨c, rfl, rfl, rfl, hstart, rfl⟩
  | succ k ih =>
    have hstep : c.step (.operator .sub) = .ok { c with
        operatorStack := .unary :: c.operatorStack,
        previousToken := some (.operator .sub) } := by
      simp [Compiling.step, hstart]
    obtain ⟨c', hfold, houtput, hstack, hprevious, hlast⟩ := ih
      (c := { c with
        operatorStack := .unary :: c.operatorStack,
        previousToken := some (.operator .sub) }) rfl
    refine ⟨c', ?_, houtput, ?_, hprevious, ?_⟩
    · rw [List.replicate_succ, List.cons_append, foldlM_cons_ok hstep, hfold]
    · rw [hstack, List.replicate_succ', List.append_assoc]
      rfl
    · rw [hlast, List.replicate_succ, List.cons_append]
      exact getLast?_or_cons _ _ _

end

lemma compiles_mul {left right : List FormulaToken} {out out' : List RpnToken}
    {op : FormulaOperator} {level below : LooseLevel} (hbelow : below.waiting = []) (hlimit : precedence op = level.limit)
    (hnext : level.limit < below.limit) (hfresh : ∀ previous, below.Starts (some (.operator previous)))
    (hminus : op = .sub → unaryContext left.getLast? = false) (ihleft : Compiles level left out)
    (ihright : Compiles below right out') :
    Compiles level (left ++ .operator op :: right) (out ++ (out' ++ [.token (.operator op)])) := by
  intro c base hstack hstops hstart
  obtain ⟨c₁, done₁, pend₁, hfold₁, houtput₁, hstack₁, hpend₁, hout₁, hprevious₁⟩ :=
    ihleft c base hstack hstops hstart
  have hbinary : (op = .sub && unaryContext c₁.previousToken) = false := by
    by_cases hsub : op = .sub
    · have hcontext := hminus hsub
      rw [hprevious₁]
      cases hlast : left.getLast? with
      | none => rw [hlast] at hcontext; cases hcontext
      | some token => rw [hlast] at hcontext; simpa [hsub] using hcontext
    · simp [hsub]
  have hstep : c₁.step (.operator op) = .ok { c₁ with
      output := c₁.output ++ pend₁,
      operatorStack := .token (.operator op) :: base,
      previousToken := some (.operator op) } := by
    simp only [Compiling.step, hbinary, Bool.false_eq_true, if_false, hstack₁, hlimit,
      popOperators_pending hpend₁ hstops]
  obtain ⟨c₂, done₂, pend₂, hfold₂, houtput₂, hstack₂, hpend₂, hout₂, hprevious₂⟩ := ihright
    { c₁ with
      output := c₁.output ++ pend₁,
      operatorStack := .token (.operator op) :: base,
      previousToken := some (.operator op) }
    (.token (.operator op) :: base) (by rw [hbelow]; rfl) (stops_operator (by omega)) (hfresh op)
  refine ⟨c₂, done₁ ++ (pend₁ ++ done₂), pend₂ ++ [.token (.operator op)], ?_, ?_, ?_, ?_, ?_, ?_⟩
  · rw [foldlM_append_ok hfold₁, foldlM_cons_ok hstep, hfold₂]
  · simp [houtput₂, houtput₁]
  · simp [hstack₂]
  · exact (hpend₂.mono hnext.le).append (pending_singleton hlimit.ge)
  · simp [← hout₁, ← hout₂]
  · rw [hprevious₂]
    exact getLast?_or_append_cons _ _ _ _

theorem Loose.compiles {level : LooseLevel} {tokens : List FormulaToken} {out : List RpnToken}
    (h : Loose level tokens out) : Compiles level tokens out := by
  induction h with
  | done k =>
    intro c base hstack hstops hstart
    exact ⟨c, [], List.replicate k .unary, rfl, (List.append_nil _).symm, hstack,
      pending_replicate _ k, rfl, rfl⟩
  | number value h ih =>
    intro c base hstack hstops hstart
    obtain ⟨c', done, pend, hfold, houtput, hstack', hpend, hout, hprevious⟩ :=
      ih { c with
        output := c.output ++ [.token (.number value)],
        previousToken := some (.number value) } base hstack hstops trivial
    refine ⟨c', .token (.number value) :: done, pend, ?_, ?_, hstack', hpend, ?_, ?_⟩
    · exact (foldlM_cons_ok rfl).trans hfold
    · simp [houtput]
    · simp [hout]
    · rw [hprevious]
      exact getLast?_or_cons _ _ _
  | identifier value h ih =>
    intro c base hstack hstops hstart
    obtain ⟨c', done, pend, hfold, houtput, hstack', hpend, hout, hprevious⟩ :=
      ih { c with
        output := c.output ++ [.token (.identifier value)],
        previousToken := some (.identifier value),
        identifiers := addIdentifier c.identifiers value } base hstack hstops trivial
    refine ⟨c', .token (.identifier value) :: done, pend, ?_, ?_, hstack', hpend, ?_, ?_⟩
    · exact (foldlM_cons_ok rfl).trans hfold
    · simp [houtput]
    · simp [hout]
    · rw [hprevious]
      exact getLast?_or_cons _ _ _
  | paren hinner h ihinner ih =>
    rename_i k inner tokens out out'
    intro c base hstack hstops hstart
    obtain ⟨c₁, done₁, pend₁, hfold₁, houtput₁, hstack₁, hpend₁, hout₁, _⟩ := ihinner
      { c with
        operatorStack := .token .leftParen :: c.operatorStack,
        previousToken := some .leftParen }
      (.token .leftParen :: c.operatorStack) rfl (stops_paren _ _) rfl
    have hstep : c₁.step .rightParen = .ok { c₁ with
        output := c₁.output ++ pend₁ ++ List.replicate k .unary,
        operatorStack := base,
        previousToken := some .rightParen } := by
      have hunary := popUnary_stops (k := k) hstops (c₁.output ++ pend₁)
      simp only [LooseLevel.waiting] at hstack
      simp only [Compiling.step, hstack₁, popParen_pending hpend₁, hstack, hunary]
    obtain ⟨c₂, done₂, pend₂, hfold₂, houtput₂, hstack₂, hpend₂, hout₂, hprevious₂⟩ := ih
      { c₁ with
        output := c₁.output ++ pend₁ ++ List.replicate k .unary,
        operatorStack := base,
        previousToken := some .rightParen } base rfl hstops trivial
    refine ⟨c₂, done₁ ++ (pend₁ ++ (List.replicate k .unary ++ done₂)), pend₂, ?_, ?_, hstack₂,
      hpend₂, ?_, ?_⟩
    · have hopen : c.step .leftParen = .ok { c with
          operatorStack := .token .leftParen :: c.operatorStack,
          previousToken := some .leftParen } := rfl
      rw [foldlM_cons_ok hopen, foldlM_append_ok hfold₁, foldlM_cons_ok hstep, hfold₂]
    · simp [houtput₂, houtput₁]
    · simp [← hout₁, ← hout₂]
    · rw [hprevious₂, ← List.cons_append]
      exact getLast?_or_append_cons _ _ _ _
  | factor h ih =>
    rename_i k tokens out
    intro c base hstack hstops hstart
    obtain ⟨c₁, hfold₁, houtput₁, hstack₁, _, hlast₁⟩ := foldlM_minuses tokens k hstart
    obtain ⟨c₂, done, pend, hfold₂, houtput₂, hstack₂, hpend, hout, hprevious₂⟩ :=
      ih c₁ base (by rw [hstack₁, hstack]; rfl) hstops trivial
    refine ⟨c₂, done, pend, hfold₁.trans hfold₂, ?_, hstack₂, hpend, hout, ?_⟩
    · rw [houtput₂, houtput₁]
    · rw [hprevious₂, hlast₁]
  | term h ih =>
    intro c base hstack hstops hstart
    obtain ⟨c', done, pend, hfold, houtput, hstack', hpend, hrest⟩ :=
      ih c base hstack (hstops.mono (by decide)) hstart
    exact ⟨c', done, pend, hfold, houtput, hstack', hpend.mono (by decide), hrest⟩
  | mul hop hleft hright ihleft ihright =>
    refine compiles_mul rfl hop (by decide) ?_ ?_ ihleft ihright
    · exact fun _ => rfl
    · rintro rfl
      cases hop
  | sum h ih =>
    intro c base hstack hstops hstart
    obtain ⟨c', done, pend, hfold, houtput, hstack', hpend, hrest⟩ :=
      ih c base hstack (hstops.mono (by decide)) hstart
    exact ⟨c', done, pend, hfold, houtput, hstack', hpend.mono (by decide), hrest⟩
  | add hop hminus hleft hright ihleft ihright =>
    refine compiles_mul rfl hop (by decide) ?_ hminus ihleft ihright
    exact fun _ => rfl

lemma Loose.compileFormula {tokens : List FormulaToken} {rpn : List RpnToken}
    (h : Loose .sum tokens rpn) :
    ∃ identifiers, compileFormula tokens = .ok ⟨rpn, identifiers⟩ := by
  obtain ⟨c, done, pend, hfold, houtput, hstack, hpend, hout, _⟩ :=
    h.compiles .start [] rfl (fun _ htop => by cases htop) rfl
  refine ⟨c.identifiers, ?_⟩
  have hrest : popRest c.output c.operatorStack = .ok rpn := by
    rw [houtput, hstack, List.append_nil, popRest_pending hpend, ← hout]
    rfl
  simp only [Formula.compileFormula, hfold, bind, Except.bind, hrest, pure, Except.pure]

/-! ### Matching parentheses -/

/-- Tokens whose parentheses match. -/
inductive Balanced : List FormulaToken → Prop
  | nil : Balanced []
  | token {tokens : List FormulaToken} (token : FormulaToken) (hleft : token ≠ .leftParen)
      (hright : token ≠ .rightParen) (h : Balanced tokens) : Balanced (tokens ++ [token])
  | group {tokens inner : List FormulaToken} (h : Balanced tokens) (hinner : Balanced inner) :
      Balanced (tokens ++ .leftParen :: (inner ++ [.rightParen]))

lemma Loose.of_eq {level : LooseLevel} {tokens tokens' : List FormulaToken} {out : List RpnToken}
    (h : Loose level tokens out) (heq : tokens = tokens') : Loose level tokens' out := heq ▸ h

/-- Operands and a group extend what was read before. -/
lemma Loose.append_operand {level : LooseLevel} {tokens operand : List FormulaToken}
    {out : List RpnToken} (hoperand : ∀ k, ∃ out, Loose (.operands k) operand out)
    (h : Loose level tokens out) : ∃ out, Loose level (tokens ++ operand) out := by
  induction h with
  | done k => exact hoperand k
  | number value h ih =>
    obtain ⟨out, hout⟩ := ih
    exact ⟨_, .number value hout⟩
  | identifier value h ih =>
    obtain ⟨out, hout⟩ := ih
    exact ⟨_, .identifier value hout⟩
  | paren hinner h ihinner ih =>
    obtain ⟨out, hout⟩ := ih
    exact ⟨_, (Loose.paren hinner hout).of_eq (by simp)⟩
  | factor h ih =>
    obtain ⟨out, hout⟩ := ih
    exact ⟨_, (Loose.factor hout).of_eq (by simp)⟩
  | term h ih =>
    obtain ⟨out, hout⟩ := ih
    exact ⟨_, .term hout⟩
  | mul hop hleft hright ihleft ihright =>
    obtain ⟨out, hout⟩ := ihright
    exact ⟨_, (Loose.mul hop hleft hout).of_eq (by simp)⟩
  | sum h ih =>
    obtain ⟨out, hout⟩ := ih
    exact ⟨_, .sum hout⟩
  | add hop hminus hleft hright ihleft ihright =>
    obtain ⟨out, hout⟩ := ihright
    exact ⟨_, (Loose.add hop hminus hleft hout).of_eq (by simp)⟩

lemma Loose.nothing : Loose .factor [] [] := .factor (.done 0)

lemma unaryContext_append (left right : List FormulaToken) (op : FormulaOperator) :
    unaryContext (left ++ .operator op :: right).getLast? = unaryContext right.getLast? := by
  rw [List.getLast?_append, List.getLast?_cons]
  cases right.getLast? <;> rfl

lemma Loose.operandsLast {level : LooseLevel} {tokens : List FormulaToken} {out : List RpnToken}
    (h : Loose level tokens out) (k : ℕ) (hlevel : level = .operands k) (hne : tokens ≠ []) :
    unaryContext tokens.getLast? = false := by
  induction h generalizing k with
  | done k => exact absurd rfl hne
  | number value h ih =>
    rename_i j tokens out
    rw [List.getLast?_cons]
    by_cases hnil : tokens = []
    · simp [hnil, unaryContext]
    · have hlast := ih j rfl hnil
      cases htokens : tokens.getLast? with
      | none => rw [htokens] at hlast; cases hlast
      | some token => rwa [htokens] at hlast
  | identifier value h ih =>
    rename_i j tokens out
    rw [List.getLast?_cons]
    by_cases hnil : tokens = []
    · simp [hnil, unaryContext]
    · have hlast := ih j rfl hnil
      cases htokens : tokens.getLast? with
      | none => rw [htokens] at hlast; cases hlast
      | some token => rwa [htokens] at hlast
  | paren hinner h ihinner ih =>
    rename_i j inner tokens out out'
    rw [← List.cons_append, List.getLast?_append, List.getLast?_cons]
    by_cases hnil : tokens = []
    · simp [hnil, unaryContext]
    · have hlast := ih 0 rfl hnil
      cases htokens : tokens.getLast? with
      | none => rw [htokens] at hlast; cases hlast
      | some token => rwa [htokens] at hlast
  | factor h ih => cases hlevel
  | term h ih => cases hlevel
  | mul hop hleft hright ihleft ihright => cases hlevel
  | sum h ih => cases hlevel
  | add hop hminus hleft hright ihleft ihright => cases hlevel

lemma unaryContext_minuses {k : ℕ} {tokens : List FormulaToken} (hne : tokens ≠ []) :
    (List.replicate k (FormulaToken.operator .sub) ++ tokens).getLast? = tokens.getLast? := by
  rw [List.getLast?_append]
  cases hlast : tokens.getLast? with
  | none => exact absurd (List.getLast?_eq_none_iff.mp hlast) hne
  | some token => rfl

/-- A prefix minus where one may stand. -/
lemma Loose.append_minus {level : LooseLevel} {tokens : List FormulaToken} {out : List RpnToken}
    (h : Loose level tokens out) (hlevel : ∀ k, level ≠ .operands k)
    (hcontext : unaryContext tokens.getLast? = true) :
    ∃ out, Loose level (tokens ++ [.operator .sub]) out := by
  induction h with
  | done k => exact absurd rfl (hlevel k)
  | number value h ih => exact absurd rfl (hlevel _)
  | identifier value h ih => exact absurd rfl (hlevel _)
  | paren hinner h ihinner ih => exact absurd rfl (hlevel _)
  | factor h ih =>
    rename_i k tokens out
    by_cases hnil : tokens = []
    · subst hnil
      refine ⟨List.replicate (k + 1) .unary, ?_⟩
      have hfactor := Loose.factor (.done (k + 1))
      rw [List.append_nil] at hfactor ⊢
      exact hfactor.of_eq List.replicate_succ'
    · rw [unaryContext_minuses hnil, h.operandsLast k rfl hnil] at hcontext
      cases hcontext
  | term h ih =>
    obtain ⟨out, hout⟩ := ih (fun k heq => by cases heq) hcontext
    exact ⟨_, .term hout⟩
  | mul hop hleft hright ihleft ihright =>
    rw [unaryContext_append] at hcontext
    obtain ⟨out, hout⟩ := ihright (fun k heq => by cases heq) hcontext
    exact ⟨_, (Loose.mul hop hleft hout).of_eq (by simp)⟩
  | sum h ih =>
    obtain ⟨out, hout⟩ := ih (fun k heq => by cases heq) hcontext
    exact ⟨_, .sum hout⟩
  | add hop hminus hleft hright ihleft ihright =>
    rw [unaryContext_append] at hcontext
    obtain ⟨out, hout⟩ := ihright (fun k heq => by cases heq) hcontext
    exact ⟨_, (Loose.add hop hminus hleft hout).of_eq (by simp)⟩

lemma Loose.append_operator {tokens : List FormulaToken} {out : List RpnToken}
    (op : FormulaOperator) (h : Loose .sum tokens out)
    (hminus : op = .sub → unaryContext tokens.getLast? = false) :
    ∃ out, Loose .sum (tokens ++ [.operator op]) out := by
  have hprecedence : precedence op = 1 ∨ precedence op = 2 := by cases op <;> decide
  rcases hprecedence with hop | hop
  · exact ⟨_, .add hop hminus h (.term .nothing)⟩
  · cases h with
    | sum h => exact ⟨_, .sum (.mul hop h .nothing)⟩
    | add hop' hminus' hleft hright =>
      exact ⟨_, (Loose.add hop' hminus' hleft (.mul hop hright .nothing)).of_eq (by simp)⟩

/-- Whatever has matching parentheses can be read. -/
theorem Balanced.loose {tokens : List FormulaToken} (h : Balanced tokens) :
    ∃ out, Loose .sum tokens out := by
  induction h with
  | nil => exact ⟨_, .sum (.term .nothing)⟩
  | token token hleft hright h ih =>
    rename_i tokens
    obtain ⟨out, hout⟩ := ih
    cases token with
    | number value => exact hout.append_operand fun k => ⟨_, .number value (.done k)⟩
    | identifier value => exact hout.append_operand fun k => ⟨_, .identifier value (.done k)⟩
    | leftParen => exact absurd rfl hleft
    | rightParen => exact absurd rfl hright
    | operator op =>
      by_cases hunary : op = .sub ∧ unaryContext tokens.getLast? = true
      · rw [hunary.1]
        exact hout.append_minus (fun k heq => by cases heq) hunary.2
      · apply hout.append_operator op
        intro hsub
        simpa [hsub] using hunary
  | group h hinner ih ihinner =>
    obtain ⟨out, hout⟩ := ih
    obtain ⟨out', hout'⟩ := ihinner
    exact hout.append_operand fun k => ⟨_, .paren hout' (.done 0)⟩

/-- Tokens with so many parentheses that are still open. -/
inductive Opened : ℕ → List FormulaToken → Prop
  | zero {tokens : List FormulaToken} (h : Balanced tokens) : Opened 0 tokens
  | succ {n : ℕ} {tokens inner : List FormulaToken} (h : Opened n tokens) (hinner : Balanced inner) :
      Opened (n + 1) (tokens ++ .leftParen :: inner)

lemma Opened.append_token {n : ℕ} {tokens : List FormulaToken} (h : Opened n tokens)
    {token : FormulaToken} (hleft : token ≠ .leftParen) (hright : token ≠ .rightParen) :
    Opened n (tokens ++ [token]) := by
  cases h with
  | zero h => exact .zero (.token token hleft hright h)
  | succ h hinner =>
    rw [List.append_assoc, List.cons_append]
    exact .succ h (.token token hleft hright hinner)

lemma Opened.close {n : ℕ} {tokens : List FormulaToken} (h : Opened (n + 1) tokens) :
    Opened n (tokens ++ [.rightParen]) := by
  cases h with
  | succ h hinner =>
    rw [List.append_assoc, List.cons_append]
    cases h with
    | zero h => exact .zero (.group h hinner)
    | succ h houter =>
      rw [List.append_assoc, List.cons_append]
      exact .succ h (.group houter hinner)

def parens (stack : List RpnToken) : ℕ := stack.count (.token .leftParen)

lemma popParen_parens {output stack output' stack' : List RpnToken}
    (h : popParen output stack = some (output', stack')) : parens stack = parens stack' + 1 := by
  induction stack generalizing output with
  | nil => cases h
  | cons top rest ih =>
    by_cases htop : top = .token .leftParen
    · subst htop
      simp only [popParen, Option.some.injEq, Prod.mk.injEq] at h
      simp [parens, h.2]
    · rw [popParen] at h
      · have hrest := ih h
        simpa [parens, List.count_cons_of_ne htop] using hrest
      · exact htop

lemma popUnary_parens (output stack : List RpnToken) :
    parens (popUnary output stack).2 = parens stack := by
  induction stack generalizing output with
  | nil => rfl
  | cons top rest ih =>
    cases top with
    | token t => rfl
    | unary =>
      rw [popUnary, ih]
      simp [parens]

lemma popOperators_parens (limit : ℕ) (output stack : List RpnToken) :
    parens (popOperators limit output stack).2 = parens stack := by
  induction stack generalizing output with
  | nil => rfl
  | cons top rest ih =>
    cases top with
    | unary =>
      rw [popOperators, ih]
      simp [parens]
    | token t =>
      cases t with
      | operator op =>
        rw [popOperators]
        split_ifs with hlimit
        · rfl
        · rw [ih]
          simp [parens]
      | number value => rfl
      | identifier value => rfl
      | leftParen => rfl
      | rightParen => rfl

lemma popRest_parens {output stack rpn : List RpnToken} (h : popRest output stack = .ok rpn) :
    parens stack = 0 := by
  induction stack generalizing output with
  | nil => rfl
  | cons top rest ih =>
    rw [popRest] at h
    split_ifs at h with htop
    have hrest := ih h
    simp only [not_or] at htop
    simpa [parens, List.count_cons_of_ne htop.1] using hrest

lemma step_opened {tokens : List FormulaToken} {token : FormulaToken} {c c' : Compiling}
    (h : Opened (parens c.operatorStack) tokens) (hstep : c.step token = .ok c') :
    Opened (parens c'.operatorStack) (tokens ++ [token]) := by
  cases token with
  | number value =>
    cases hstep
    exact h.append_token (by simp) (by simp)
  | identifier value =>
    cases hstep
    exact h.append_token (by simp) (by simp)
  | leftParen =>
    cases hstep
    simp only [parens, List.count_cons_self]
    exact .succ h .nil
  | rightParen =>
    simp only [Compiling.step] at hstep
    cases hpop : popParen c.output c.operatorStack with
    | none => simp [hpop] at hstep
    | some popped =>
      simp only [hpop, Except.ok.injEq] at hstep
      subst hstep
      rw [popUnary_parens]
      apply Opened.close
      rwa [← popParen_parens hpop]
  | operator op =>
    simp only [Compiling.step] at hstep
    split_ifs at hstep with hunary
    · cases hstep
      have hparens : parens (.unary :: c.operatorStack) = parens c.operatorStack := by simp [parens]
      rw [hparens]
      exact h.append_token (by simp) (by simp)
    · cases hstep
      have hparens : parens (.token (.operator op) ::
          (popOperators (precedence op) c.output c.operatorStack).2) = parens c.operatorStack := by
        rw [← popOperators_parens (precedence op) c.output c.operatorStack]
        simp [parens]
      rw [hparens]
      exact h.append_token (by simp) (by simp)

lemma foldlM_opened {done rest : List FormulaToken} {c c' : Compiling}
    (h : Opened (parens c.operatorStack) done) (hfold : rest.foldlM Compiling.step c = .ok c') :
    Opened (parens c'.operatorStack) (done ++ rest) := by
  induction rest generalizing done c with
  | nil =>
    cases hfold
    rwa [List.append_nil]
  | cons token rest ih =>
    rw [List.foldlM_cons] at hfold
    cases hstep : c.step token with
    | error message =>
      rw [hstep] at hfold
      cases hfold
    | ok next =>
      rw [hstep] at hfold
      have hrest := ih (step_opened h hstep) hfold
      rwa [List.append_assoc] at hrest

lemma balanced_of_compileFormula {tokens : List FormulaToken} {compiled : CompiledFormula}
    (h : compileFormula tokens = .ok compiled) : Balanced tokens := by
  unfold compileFormula at h
  cases hfold : tokens.foldlM Compiling.step .start with
  | error message => simp [hfold, bind, Except.bind] at h
  | ok c =>
    have hstart : Opened (parens Compiling.start.operatorStack) [] := .zero .nil
    have hopened := foldlM_opened hstart hfold
    cases hrest : popRest c.output c.operatorStack with
    | error message => simp [hfold, hrest, bind, Except.bind] at h
    | ok rpn =>
      rw [popRest_parens hrest] at hopened
      cases hopened with
      | zero h => exact h

/-- The operator stack compiles the wider grammar, and nothing else. -/
theorem compileFormula_iff (tokens : List FormulaToken) (rpn : List RpnToken) :
    (∃ identifiers, compileFormula tokens = .ok ⟨rpn, identifiers⟩) ↔ Loose .sum tokens rpn := by
  constructor
  · rintro ⟨identifiers, hcompiled⟩
    obtain ⟨out, hout⟩ := (balanced_of_compileFormula hcompiled).loose
    obtain ⟨identifiers', hcompiled'⟩ := hout.compileFormula
    rw [hcompiled] at hcompiled'
    cases hcompiled'
    exact hout
  · exact fun h => h.compileFormula

end Maple.Formula
