import Maple.EventProjection
import Maple.CanonicalJsonTree

/-! Every projection is evaluated on its own, and when compilation tells duplicates apart. -/

namespace Maple.Eventing

section
variable {Data Config Output Thrown : Type} (host : Host Thrown) (sources : SignalSourceRegistry)
  (projectors : ProjectorRegistry Data Config Output Thrown)

/-! ### What compilation accepts -/

/-- Two specifications of one revision of one projection of one tenant. -/
def SameRevision (a b : SignalProjectionSpec Config) : Prop :=
  a.tenantId = b.tenantId ∧ a.id = b.id ∧ a.revision = b.revision

/-- A specification passes every check but the one for duplicates. -/
def Passes (spec : SignalProjectionSpec Config) : Prop :=
  vet host sources spec = .ok () ∧ ∃ compiled, compileProjection host projectors spec = .ok compiled

/-- Two specifications, in this order, are related, and the checks of the others do not stop
compilation before the second. -/
def Reached (r : SignalProjectionSpec Config → SignalProjectionSpec Config → Prop)
    (specs : List (SignalProjectionSpec Config)) : Prop :=
  ∃ front spec rest, specs = front ++ spec :: rest ∧ (∃ earlier ∈ front, r earlier spec) ∧
    (∀ s ∈ front, Passes host sources projectors s) ∧ vet host sources spec = .ok ()

def Shares (specs : List (SignalProjectionSpec Config)) : Prop :=
  ∃ front spec rest, specs = front ++ spec :: rest ∧ ∃ earlier ∈ front, SameRevision earlier spec

def SameKey (a b : SignalProjectionSpec Config) : Prop := revisionKey a = revisionKey b

variable {host sources projectors}

lemma vet_error {spec : SignalProjectionSpec Config} {error : ProjectionInvalid Thrown}
    (h : vet host sources spec = .error error) (id key : String) : error ≠ .duplicate id key := by
  rintro rfl
  unfold vet at h
  by_cases hschema : spec.schema
  · simp only [hschema, Bool.not_true, Bool.false_eq_true, if_false] at h
    split at h
    · cases h
    · split at h <;> cases h
  · simp only [hschema, Bool.not_false, if_true] at h
    cases h

lemma compileProjection_error {spec : SignalProjectionSpec Config}
    {error : ProjectionInvalid Thrown} (h : compileProjection host projectors spec = .error error)
    (id key : String) : error ≠ .duplicate id key := by
  rintro rfl
  unfold compileProjection at h
  cases henabled : spec.enabled with
  | false => simp [henabled] at h
  | true =>
    simp only [henabled, Bool.not_true, Bool.false_eq_true, if_false] at h
    split at h
    · cases h
    · split at h
      · cases h
      · split at h
        · cases h
        · split at h
          · split at h <;> cases h
          · cases h

/-- A specification that passes its checks is put among the compiled ones, if it is enabled. -/
lemma compileLoop_passes {spec : SignalProjectionSpec Config}
    {specs : List (SignalProjectionSpec Config)} {revisions : List String}
    {buckets : Buckets Data Config Output Thrown}
    {compiled : Option (CompiledProjection Data Config Output Thrown)}
    (hvet : vet host sources spec = .ok ()) (hnew : revisionKey spec ∉ revisions)
    (hcompiled : compileProjection host projectors spec = .ok compiled) :
    compileLoop host sources projectors (spec :: specs) revisions buckets =
      compileLoop host sources projectors specs (revisionKey spec :: revisions)
        (compiled.elim buckets buckets.push) := by
  rw [compileLoop, hvet, refuseDuplicate, if_neg hnew, hcompiled]
  rfl

/-- Compilation reports a duplicate exactly when it reaches a repeated key. -/
lemma compileLoop_duplicate (specs : List (SignalProjectionSpec Config)) (revisions : List String)
    (buckets : Buckets Data Config Output Thrown) :
    (∃ id key, compileLoop host sources projectors specs revisions buckets =
      .error (.duplicate id key)) ↔
      ∃ front spec rest, specs = front ++ spec :: rest ∧
        (revisionKey spec ∈ revisions ∨ ∃ earlier ∈ front, SameKey earlier spec) ∧
        (∀ s ∈ front, Passes host sources projectors s) ∧ vet host sources spec = .ok () := by
  induction specs generalizing revisions buckets with
  | nil => simp [compileLoop]
  | cons spec specs ih =>
    -- Nothing is reached past a specification that fails its own checks.
    have hstop : ¬ (Passes host sources projectors spec) →
        ¬ (revisionKey spec ∈ revisions ∧ vet host sources spec = .ok ()) →
        ¬ ∃ front spec' rest, spec :: specs = front ++ spec' :: rest ∧
          (revisionKey spec' ∈ revisions ∨ ∃ earlier ∈ front, SameKey earlier spec') ∧
          (∀ s ∈ front, Passes host sources projectors s) ∧ vet host sources spec' = .ok () := by
      rintro hfails hfirst ⟨front, spec', rest, hlist, hkey, hfront, hvet⟩
      cases front with
      | nil =>
        obtain ⟨rfl, -⟩ := List.cons.inj hlist
        exact hfirst ⟨hkey.resolve_right (by simp), hvet⟩
      | cons first front =>
        obtain ⟨rfl, -⟩ := List.cons.inj hlist
        exact hfails (hfront _ (by simp))
    cases hvet : vet host sources spec with
    | error error =>
      refine iff_of_false ?_ (hstop ?_ ?_)
      · rintro ⟨id, key, herror⟩
        rw [compileLoop, hvet] at herror
        exact vet_error hvet id key (Except.error.inj herror)
      · rintro ⟨hok, -⟩
        simp [hvet] at hok
      · rintro ⟨-, hok⟩
        simp [hvet] at hok
    | ok unit =>
      by_cases hmem : revisionKey spec ∈ revisions
      · refine iff_of_true ⟨spec.id, revisionKey spec, ?_⟩ ⟨[], spec, specs, rfl, .inl hmem, by simp, hvet⟩
        rw [compileLoop, hvet, refuseDuplicate, if_pos hmem]
        rfl
      · cases hcompiled : compileProjection host projectors spec with
        | error error =>
          refine iff_of_false ?_ (hstop ?_ fun h => hmem h.1)
          · rintro ⟨id, key, herror⟩
            rw [compileLoop, hvet, refuseDuplicate, if_neg hmem, hcompiled] at herror
            exact compileProjection_error hcompiled id key (Except.error.inj herror)
          · rintro ⟨-, compiled, hok⟩
            simp [hcompiled] at hok
        | ok compiled =>
          have hpasses : Passes host sources projectors spec := ⟨hvet, compiled, hcompiled⟩
          rw [compileLoop_passes hvet hmem hcompiled, ih]
          constructor
          · rintro ⟨front, spec', rest, rfl, hkey, hfront, hvet'⟩
            refine ⟨spec :: front, spec', rest, rfl, ?_, List.forall_mem_cons.mpr ⟨hpasses, hfront⟩,
              hvet'⟩
            rcases hkey with hkey | ⟨earlier, hmem', hkey⟩
            · rcases List.mem_cons.mp hkey with hkey | hkey
              · exact .inr ⟨spec, by simp, hkey.symm⟩
              · exact .inl hkey
            · exact .inr ⟨earlier, by simp [hmem'], hkey⟩
          · rintro ⟨front, spec', rest, hlist, hkey, hfront, hvet'⟩
            cases front with
            | nil =>
              obtain ⟨rfl, -⟩ := List.cons.inj hlist
              exact absurd (hkey.resolve_right (by simp)) hmem
            | cons first front =>
              obtain ⟨rfl, rfl⟩ := List.cons.inj hlist
              refine ⟨front, spec', rest, rfl, ?_, fun s hs => hfront s (by simp [hs]), hvet'⟩
              rcases hkey with hkey | ⟨earlier, hmem', hkey⟩
              · exact .inl (by simp [hkey])
              · rcases List.mem_cons.mp hmem' with rfl | hmem'
                · exact .inl (List.mem_cons.mpr (.inl (Eq.symm hkey)))
                · exact .inr ⟨earlier, hmem', hkey⟩

/-! ### What a registry holds -/

/-- The compiled projection of an accepted specification. -/
def compiledOf (host : Host Thrown) (projectors : ProjectorRegistry Data Config Output Thrown)
    (spec : SignalProjectionSpec Config) : Option (CompiledProjection Data Config Output Thrown) :=
  match compileProjection host projectors spec with
  | .ok compiled => compiled
  | .error _ => none

lemma Buckets.get_cons (kind first : String)
    (bucket : List (CompiledProjection Data Config Output Thrown))
    (buckets : Buckets Data Config Output Thrown) :
    Buckets.get ((first, bucket) :: buckets) kind =
      if kind = first then bucket else buckets.get kind := by
  by_cases h : kind = first
  · simp [Buckets.get, List.lookup, h]
  · have hne : (kind == first) = false := by simpa using h
    simp [Buckets.get, List.lookup, hne, h]

lemma Buckets.get_push (buckets : Buckets Data Config Output Thrown)
    (compiled : CompiledProjection Data Config Output Thrown) (kind : String) :
    (buckets.push compiled).get kind = buckets.get kind ++
      if compiled.spec.sourceKind = kind then [compiled] else [] := by
  induction buckets with
  | nil =>
    rw [Buckets.push, Buckets.get_cons]
    by_cases h : compiled.spec.sourceKind = kind
    · simp [h, Buckets.get]
    · simp [h, Ne.symm h, Buckets.get]
  | cons entry buckets ih =>
    obtain ⟨first, bucket⟩ := entry
    unfold Buckets.push
    by_cases hfirst : first = compiled.spec.sourceKind
    · rw [if_pos hfirst, Buckets.get_cons, Buckets.get_cons]
      by_cases hkind : kind = first
      · simp [hkind, hfirst]
      · have hne : compiled.spec.sourceKind ≠ kind := fun h => hkind (h ▸ hfirst.symm)
        simp [hkind, hne]
    · rw [if_neg hfirst, Buckets.get_cons, Buckets.get_cons]
      by_cases hkind : kind = first
      · have hne : compiled.spec.sourceKind ≠ kind := fun h => hfirst (hkind ▸ h.symm)
        simp [hkind] at hne ⊢
        simp [hne]
      · rw [if_neg hkind, if_neg hkind, ih]

/-- The list is accepted: every specification passes, and no key repeats. -/
def Accepted (host : Host Thrown) (sources : SignalSourceRegistry)
    (projectors : ProjectorRegistry Data Config Output Thrown)
    (specs : List (SignalProjectionSpec Config)) : Prop :=
  (∀ spec ∈ specs, Passes host sources projectors spec) ∧ (specs.map revisionKey).Nodup

lemma compileLoop_ok (specs : List (SignalProjectionSpec Config)) (revisions : List String)
    (buckets : Buckets Data Config Output Thrown) :
    (∃ result, compileLoop host sources projectors specs revisions buckets = .ok result) ↔
      Accepted host sources projectors specs ∧ ∀ spec ∈ specs, revisionKey spec ∉ revisions := by
  induction specs generalizing revisions buckets with
  | nil => simp [compileLoop, Accepted]
  | cons spec specs ih =>
    constructor
    · rintro ⟨result, hresult⟩
      cases hvet : vet host sources spec with
      | error error =>
        rw [compileLoop, hvet] at hresult
        cases hresult
      | ok unit =>
        by_cases hmem : revisionKey spec ∈ revisions
        · rw [compileLoop, hvet, refuseDuplicate, if_pos hmem] at hresult
          cases hresult
        · cases hcompiled : compileProjection host projectors spec with
          | error error =>
            rw [compileLoop, hvet, refuseDuplicate, if_neg hmem, hcompiled] at hresult
            cases hresult
          | ok compiled =>
            rw [compileLoop_passes hvet hmem hcompiled] at hresult
            obtain ⟨⟨hpasses, hnodup⟩, hfresh⟩ := (ih _ _).mp ⟨result, hresult⟩
            refine ⟨⟨List.forall_mem_cons.mpr ⟨⟨hvet, compiled, hcompiled⟩, hpasses⟩, ?_⟩,
              List.forall_mem_cons.mpr ⟨hmem, fun s hs h => hfresh s hs (by simp [h])⟩⟩
            rw [List.map_cons, List.nodup_cons]
            refine ⟨fun hkey => ?_, hnodup⟩
            obtain ⟨s, hs, hkey⟩ := List.mem_map.mp hkey
            exact hfresh s hs (by simp [hkey])
    · rintro ⟨⟨hpasses, hnodup⟩, hfresh⟩
      rw [List.forall_mem_cons] at hpasses hfresh
      obtain ⟨⟨hvet, compiled, hcompiled⟩, hpasses⟩ := hpasses
      rw [List.map_cons, List.nodup_cons] at hnodup
      rw [compileLoop_passes hvet hfresh.1 hcompiled]
      refine (ih _ _).mpr ⟨⟨hpasses, hnodup.2⟩, fun s hs hmem => ?_⟩
      rcases List.mem_cons.mp hmem with hkey | hmem
      · exact hnodup.1 (List.mem_map.mpr ⟨s, hs, hkey⟩)
      · exact hfresh.2 s hs hmem

def ofKind (kind : String) (projection : CompiledProjection Data Config Output Thrown) : Bool :=
  projection.spec.sourceKind == kind

/-- A bucket holds the projections of its kind in the order of the specifications. -/
lemma compileLoop_get {specs : List (SignalProjectionSpec Config)} {revisions : List String}
    {buckets result : Buckets Data Config Output Thrown}
    (h : compileLoop host sources projectors specs revisions buckets = .ok result) (kind : String) :
    result.get kind = buckets.get kind ++
      (specs.filterMap (compiledOf host projectors)).filter (ofKind kind) := by
  induction specs generalizing revisions buckets with
  | nil =>
    obtain rfl := Except.ok.inj h
    simp
  | cons spec specs ih =>
    obtain ⟨⟨hpasses, -⟩, hfresh⟩ := (compileLoop_ok _ _ _).mp ⟨result, h⟩
    obtain ⟨hvet, compiled, hcompiled⟩ := hpasses spec (by simp)
    rw [compileLoop_passes hvet (hfresh spec (by simp)) hcompiled] at h
    have hspec : compiledOf host projectors spec = compiled := by rw [compiledOf, hcompiled]
    rw [ih h, List.filterMap_cons, hspec]
    cases compiled with
    | none => rfl
    | some c =>
      simp only [Option.elim_some, Buckets.get_push, List.append_assoc, List.filter_cons, ofKind]
      by_cases hkind : c.spec.sourceKind = kind <;> simp [hkind]

/-! ### What evaluation answers -/

variable (host) in
/-- The projection is of the signal's tenant, active, and selects the signal. -/
def selects (signal : NormalizedSignal Data) (acceptedAtNanos : ℤ)
    (projection : CompiledProjection Data Config Output Thrown) : Bool :=
  projection.spec.tenantId == signal.tenantId && projection.activeFromNanos ≤ acceptedAtNanos &&
    (compiledPredicate host.bigIntFromString signal projection.spec.selector).matched

variable (host) in
/-- The event or the failure a projection is answered with; `none` where its failure has no text. -/
def answer (signal : NormalizedSignal Data)
    (projection : CompiledProjection Data Config Output Thrown) :
    Option (Except ProjectionFailure MapleCloudEvent) :=
  match projectSignal host projection signal with
  | .ok event => some (.ok event)
  | .error failure => (failure.message host).map fun message =>
      .error ⟨projection.spec.id, projection.spec.revision, signal.occurrenceId, message⟩

def events (outcomes : List (Except ProjectionFailure MapleCloudEvent)) : List MapleCloudEvent :=
  outcomes.filterMap Except.toOption

def failures (outcomes : List (Except ProjectionFailure MapleCloudEvent)) :
    List ProjectionFailure :=
  outcomes.filterMap fun
    | .error failure => some failure
    | .ok _ => none

/-- A projection that does not select the signal adds nothing. -/
lemma evaluateProjection_skips {signal : NormalizedSignal Data} {acceptedAtNanos : ℤ}
    (batch : ProjectionBatchResult) {projection : CompiledProjection Data Config Output Thrown}
    (h : selects host signal acceptedAtNanos projection = false) :
    ∃ fields, evaluateProjection host signal acceptedAtNanos batch projection =
      some ⟨batch.events, batch.failures, fields⟩ := by
  unfold evaluateProjection
  by_cases htenant : projection.spec.tenantId = signal.tenantId
  · by_cases hactive : acceptedAtNanos < projection.activeFromNanos
    · exact ⟨batch.typeMismatchFields, by simp [htenant, hactive]⟩
    · have hmatched :
          (compiledPredicate host.bigIntFromString signal projection.spec.selector).matched = false := by
        simpa [selects, htenant, not_lt.mp hactive] using h
      exact ⟨_, by simp [htenant, hactive, hmatched]; rfl⟩
  · exact ⟨batch.typeMismatchFields, by simp [htenant]⟩

/-- One that selects it adds its own answer. -/
lemma evaluateProjection_answers {signal : NormalizedSignal Data} {acceptedAtNanos : ℤ}
    (batch : ProjectionBatchResult) {projection : CompiledProjection Data Config Output Thrown}
    (h : selects host signal acceptedAtNanos projection = true) :
    ∃ fields, evaluateProjection host signal acceptedAtNanos batch projection =
      (answer host signal projection).map fun outcome =>
        ⟨batch.events ++ events [outcome], batch.failures ++ failures [outcome], fields⟩ := by
  simp only [selects, Bool.and_eq_true, beq_iff_eq, decide_eq_true_eq] at h
  obtain ⟨⟨htenant, hactive⟩, hmatched⟩ := h
  refine ⟨(compiledPredicate host.bigIntFromString signal
    projection.spec.selector).typeMismatches.foldl addField batch.typeMismatchFields, ?_⟩
  unfold evaluateProjection answer
  rw [if_neg (not_not.mpr htenant), if_neg (not_lt.mpr hactive)]
  simp only [hmatched, Bool.not_true, Bool.false_eq_true, if_false]
  cases projectSignal host projection signal with
  | ok event => simp [events, failures, Except.toOption]
  | error failure =>
    cases hmessage : failure.message host <;> simp [events, failures, Except.toOption, hmessage]

/-- A run answers each projection that selects the signal, or throws at one that has no answer. -/
lemma evaluate_run (signal : NormalizedSignal Data) (acceptedAtNanos : ℤ)
    (projections : List (CompiledProjection Data Config Output Thrown))
    (batch : ProjectionBatchResult) :
    ∃ fields, projections.foldlM (evaluateProjection host signal acceptedAtNanos) batch =
      ((projections.filter (selects host signal acceptedAtNanos)).mapM
        (answer host signal)).map fun outcomes =>
          ⟨batch.events ++ events outcomes, batch.failures ++ failures outcomes, fields⟩ := by
  induction projections generalizing batch with
  | nil => exact ⟨batch.typeMismatchFields, by simp [events, failures]⟩
  | cons projection projections ih =>
    rw [List.foldlM_cons]
    cases hselects : selects host signal acceptedAtNanos projection with
    | false =>
      obtain ⟨fields, hstep⟩ := evaluateProjection_skips batch hselects
      obtain ⟨fields', hrest⟩ := ih ⟨batch.events, batch.failures, fields⟩
      refine ⟨fields', ?_⟩
      rw [hstep, Option.bind_eq_bind, Option.bind_some, hrest, List.filter_cons_of_neg (by simp [hselects])]
    | true =>
      obtain ⟨fields, hstep⟩ := evaluateProjection_answers batch hselects
      rw [hstep, List.filter_cons_of_pos hselects, List.mapM_cons]
      cases answer host signal projection with
      | none => exact ⟨[], rfl⟩
      | some outcome =>
        obtain ⟨fields', hrest⟩ :=
          ih ⟨batch.events ++ events [outcome], batch.failures ++ failures [outcome], fields⟩
        refine ⟨fields', ?_⟩
        simp only [Option.map_some, Option.bind_eq_bind, Option.bind_some, hrest]
        cases (projections.filter (selects host signal acceptedAtNanos)).mapM
            (answer host signal) with
        | none => rfl
        | some outcomes =>
          simp [events, failures, ← List.filterMap_append]

/-! ### Independence -/

variable (host projectors) in
/-- An enabled specification of the signal's kind and tenant, active at the acceptance, whose
selector matches. -/
def due (signal : NormalizedSignal Data) (acceptedAtNanos : ℤ)
    (spec : SignalProjectionSpec Config) : Bool :=
  spec.enabled && spec.sourceKind == signal.sourceKind && spec.tenantId == signal.tenantId &&
    (timestampToEpochNanos spec.activeFrom.toList).any (· ≤ acceptedAtNanos) &&
    (compiledPredicate host.bigIntFromString signal spec.selector).matched

variable (host projectors) in
/-- What a specification makes of a signal with its own projector alone. -/
def projectionOutcome (signal : NormalizedSignal Data) (spec : SignalProjectionSpec Config) :
    Option (Except (Failure Thrown) MapleCloudEvent) :=
  (compiledOf host projectors spec).map fun projection => projectSignal host projection signal

variable (host projectors) in
/-- The answer to a specification: its event, or its failure with the text of what went wrong. -/
def Answers (signal : NormalizedSignal Data) (spec : SignalProjectionSpec Config) :
    Except ProjectionFailure MapleCloudEvent → Prop
  | .ok event => projectionOutcome host projectors signal spec = some (.ok event)
  | .error row => ∃ failure message, failure.message host = some message ∧
      projectionOutcome host projectors signal spec = some (.error failure) ∧
      row = ⟨spec.id, spec.revision, signal.occurrenceId, message⟩

variable (host sources projectors) in
/-- Lists are refused as duplicates when two specifications are of one revision, each due
specification gets one event or failure, in order and by its own projector alone, and events of
different identities have different identifiers. -/
structure EvaluatesIndependently (specs : List (SignalProjectionSpec Config)) : Prop where
  duplicates : (∃ id key, compile host sources projectors specs = .error (.duplicate id key)) ↔
    Shares specs
  evaluates {buckets : Buckets Data Config Output Thrown} :
    compile host sources projectors specs = .ok buckets →
    ∀ (signal : NormalizedSignal Data) (acceptedAt : String) (nanos : ℤ),
      timestampToEpochNanos acceptedAt.toList = some nanos →
      ∃ outcomes fields, List.Forall₂ (Answers host projectors signal)
          (specs.filter (due host signal nanos)) outcomes ∧
        evaluate host buckets signal acceptedAt =
          some (.ok ⟨events outcomes, failures outcomes, fields⟩)
  identities {a b : EventIdentityInput} {id : String} :
    (∀ x y, identityBytes a = some x → identityBytes b = some y →
      host.sha256 x = host.sha256 y → x = y) →
    makeEventId host.sha256 a = some id → makeEventId host.sha256 b = some id → a = b

lemma compiledOf_some {spec : SignalProjectionSpec Config}
    {projection : CompiledProjection Data Config Output Thrown}
    (h : compiledOf host projectors spec = some projection) :
    spec.enabled = true ∧ projection.spec = spec ∧
      timestampToEpochNanos spec.activeFrom.toList = some projection.activeFromNanos := by
  unfold compiledOf at h
  cases hcompiled : compileProjection host projectors spec with
  | error error => simp [hcompiled] at h
  | ok compiled =>
    obtain rfl : compiled = some projection := by simpa [hcompiled] using h
    unfold compileProjection at hcompiled
    cases henabled : spec.enabled with
    | false => simp [henabled] at hcompiled
    | true =>
      simp only [henabled, Bool.not_true, Bool.false_eq_true, if_false] at hcompiled
      split at hcompiled
      · cases hcompiled
      · split at hcompiled
        · cases hcompiled
        · split at hcompiled
          · cases hcompiled
          · rename_i hactive
            split at hcompiled
            · split at hcompiled
              · cases hcompiled
              · obtain rfl := Option.some.inj (Except.ok.inj hcompiled)
                exact ⟨rfl, rfl, hactive⟩
            · cases hcompiled

lemma compiledOf_none {spec : SignalProjectionSpec Config}
    (hpasses : Passes host sources projectors spec)
    (h : compiledOf host projectors spec = none) : spec.enabled = false := by
  obtain ⟨-, compiled, hcompiled⟩ := hpasses
  obtain rfl : compiled = none := by simpa [compiledOf, hcompiled] using h
  unfold compileProjection at hcompiled
  cases henabled : spec.enabled with
  | false => rfl
  | true =>
    simp only [henabled, Bool.not_true, Bool.false_eq_true, if_false] at hcompiled
    split at hcompiled
    · cases hcompiled
    · split at hcompiled
      · cases hcompiled
      · split at hcompiled
        · cases hcompiled
        · split at hcompiled
          · split at hcompiled <;> cases hcompiled
          · cases hcompiled

/-- The compiled projections that select a signal are those of the due specifications. -/
lemma due_compiled (signal : NormalizedSignal Data) (nanos : ℤ)
    {specs : List (SignalProjectionSpec Config)}
    (hpasses : ∀ spec ∈ specs, Passes host sources projectors spec) :
    List.Forall₂ (fun spec projection => compiledOf host projectors spec = some projection)
      (specs.filter (due host signal nanos))
      (((specs.filterMap (compiledOf host projectors)).filter
        (ofKind signal.sourceKind)).filter (selects host signal nanos)) := by
  induction specs with
  | nil => exact .nil
  | cons spec specs ih =>
    rw [List.forall_mem_cons] at hpasses
    have hrest := ih hpasses.2
    cases hcompiled : compiledOf host projectors spec with
    | none =>
      rw [List.filterMap_cons_none hcompiled]
      have hdisabled := compiledOf_none hpasses.1 hcompiled
      rwa [List.filter_cons_of_neg (by simp [due, hdisabled])]
    | some projection =>
      rw [List.filterMap_cons_some hcompiled]
      obtain ⟨henabled, hspec, hactive⟩ := compiledOf_some hcompiled
      have hdue : due host signal nanos spec = true ↔
          projection.spec.sourceKind = signal.sourceKind ∧
            selects host signal nanos projection = true := by
        simp [due, selects, henabled, hspec, hactive, and_assoc]
      by_cases hkind : projection.spec.sourceKind = signal.sourceKind
      · have hfront : ofKind signal.sourceKind projection = true := by simpa [ofKind] using hkind
        cases hselects : selects host signal nanos projection with
        | true =>
          rw [List.filter_cons_of_pos (hdue.mpr ⟨hkind, hselects⟩), List.filter_cons_of_pos hfront,
            List.filter_cons_of_pos hselects]
          exact .cons hcompiled hrest
        | false =>
          rw [List.filter_cons_of_neg fun h => by simp [(hdue.mp h).2] at hselects,
            List.filter_cons_of_pos hfront, List.filter_cons_of_neg (by simp [hselects])]
          exact hrest
      · rw [List.filter_cons_of_neg fun h => hkind (hdue.mp h).1,
          List.filter_cons_of_neg (by simpa [ofKind] using hkind)]
        exact hrest

lemma compile_get {specs : List (SignalProjectionSpec Config)}
    {buckets : Buckets Data Config Output Thrown}
    (h : compile host sources projectors specs = .ok buckets) (kind : String) :
    buckets.get kind =
      (specs.filterMap (compiledOf host projectors)).filter (ofKind kind) := by
  simpa [Buckets.get] using compileLoop_get h kind

lemma answers_of_answer {signal : NormalizedSignal Data} {spec : SignalProjectionSpec Config}
    {projection : CompiledProjection Data Config Output Thrown}
    {outcome : Except ProjectionFailure MapleCloudEvent}
    (hcompiled : compiledOf host projectors spec = some projection)
    (h : answer host signal projection = some outcome) :
    Answers host projectors signal spec outcome := by
  have houtcome : projectionOutcome host projectors signal spec =
      some (projectSignal host projection signal) := by rw [projectionOutcome, hcompiled]; rfl
  have hspec := (compiledOf_some hcompiled).2.1
  unfold answer at h
  cases hproject : projectSignal host projection signal with
  | ok event =>
    obtain rfl : .ok event = outcome := by simpa [hproject] using h
    rw [Answers, houtcome, hproject]
  | error failure =>
    simp only [hproject] at h
    obtain ⟨message, hmessage, rfl⟩ := Option.map_eq_some_iff.mp h
    exact ⟨failure, message, hmessage, by rw [houtcome, hproject], by rw [hspec]⟩

lemma forall₂_mem {α β : Type} {r : α → β → Prop} {xs : List α} {ys : List β}
    (h : List.Forall₂ r xs ys) :
    (∀ x ∈ xs, ∃ y ∈ ys, r x y) ∧ ∀ y ∈ ys, ∃ x ∈ xs, r x y := by
  induction h with
  | nil => simp
  | @cons x y xs ys hhead _ ih =>
    constructor
    · intro x' hx
      rcases List.mem_cons.mp hx with rfl | hx
      · exact ⟨y, by simp, hhead⟩
      · obtain ⟨y', hy', hr⟩ := ih.1 x' hx
        exact ⟨y', by simp [hy'], hr⟩
    · intro y' hy
      rcases List.mem_cons.mp hy with rfl | hy
      · exact ⟨x, by simp, hhead⟩
      · obtain ⟨x', hx', hr⟩ := ih.2 y' hy
        exact ⟨x', by simp [hx'], hr⟩

lemma forall₂_trans {α β γ : Type} {r : α → β → Prop} {q : β → γ → Prop} {t : α → γ → Prop}
    (ht : ∀ x y z, r x y → q y z → t x z) {xs : List α} {ys : List β} {zs : List γ}
    (hr : List.Forall₂ r xs ys) (hq : List.Forall₂ q ys zs) : List.Forall₂ t xs zs := by
  induction hr generalizing zs with
  | nil =>
    cases hq
    exact .nil
  | cons hhead _ ih =>
    cases hq with
    | cons hhead' hrest => exact .cons (ht _ _ _ hhead hhead') (ih hrest)

/-- A failure of an answered specification has a text. -/
lemma answer_none {signal : NormalizedSignal Data} {spec : SignalProjectionSpec Config}
    {projection : CompiledProjection Data Config Output Thrown}
    (hcompiled : compiledOf host projectors spec = some projection) :
    answer host signal projection = none ↔ ∃ failure,
      projectionOutcome host projectors signal spec = some (.error failure) ∧
        failure.message host = none := by
  simp only [projectionOutcome, hcompiled, Option.map_some, Option.some.injEq, answer]
  cases projectSignal host projection signal with
  | ok event => simp
  | error failure => simp

/-- Evaluation throws exactly at a due specification whose failure has no text. -/
lemma evaluate_answers {specs : List (SignalProjectionSpec Config)}
    {buckets : Buckets Data Config Output Thrown} {signal : NormalizedSignal Data}
    {acceptedAt : String} {nanos : ℤ} (hbuckets : compile host sources projectors specs = .ok buckets)
    (hnanos : timestampToEpochNanos acceptedAt.toList = some nanos) :
    (∃ outcomes fields, List.Forall₂ (Answers host projectors signal)
        (specs.filter (due host signal nanos)) outcomes ∧
      evaluate host buckets signal acceptedAt =
        some (.ok ⟨events outcomes, failures outcomes, fields⟩)) ↔
      ∀ spec ∈ specs, due host signal nanos spec = true → ∀ failure,
        projectionOutcome host projectors signal spec = some (.error failure) →
          failure.message host ≠ none := by
  have hpasses := ((compileLoop_ok specs [] _).mp ⟨buckets, hbuckets⟩).1.1
  have hdue := due_compiled signal nanos hpasses
  rw [← compile_get hbuckets] at hdue
  obtain ⟨fields, hrun⟩ : ∃ fields, (buckets.get signal.sourceKind).foldlM
      (evaluateProjection host signal nanos) ⟨[], [], []⟩ = _ :=
    evaluate_run signal nanos (buckets.get signal.sourceKind) ⟨[], [], []⟩
  have hevaluate : evaluate host buckets signal acceptedAt =
      ((buckets.get signal.sourceKind).foldlM (evaluateProjection host signal nanos)
        ⟨[], [], []⟩).map .ok := by
    rw [evaluate, hnanos]
  rw [hevaluate, hrun]
  generalize (buckets.get signal.sourceKind).filter (selects host signal nanos) = projections at hdue
  cases houtcomes : projections.mapM (answer host signal) with
  | none =>
    refine iff_of_false (by simp) fun htexts => ?_
    have hall : ∀ projection ∈ projections, ∃ outcome, answer host signal projection = some outcome := by
      intro projection hprojection
      obtain ⟨spec, hspec, hcompiled⟩ := (forall₂_mem hdue).2 projection hprojection
      obtain ⟨hspec, hisdue⟩ := List.mem_filter.mp hspec
      refine Option.ne_none_iff_exists'.mp fun hnone => ?_
      obtain ⟨failure, hfailure, htext⟩ := (answer_none hcompiled).mp hnone
      exact htexts spec hspec hisdue failure hfailure htext
    obtain ⟨-, outcomes, hsome⟩ := CanonicalJson.mapM_exists
      (f := fun _ => answer host signal) (fun _ _ _ _ _ h => h)
      (fun projection hprojection => ⟨0, hall projection hprojection⟩)
    simp [houtcomes] at hsome
  | some outcomes =>
    have hanswers := CanonicalJson.mapM_iff_forall₂.mp houtcomes
    refine iff_of_true ⟨outcomes, fields, forall₂_trans (fun _ _ _ => answers_of_answer) hdue hanswers, by simp⟩ ?_
    intro spec hspec hisdue failure hfailure hnone
    obtain ⟨projection, hprojection, hcompiled⟩ :=
      (forall₂_mem hdue).1 spec (List.mem_filter.mpr ⟨hspec, hisdue⟩)
    obtain ⟨outcome, -, houtcome⟩ := (forall₂_mem hanswers).1 projection hprojection
    rw [(answer_none hcompiled).mpr ⟨failure, hfailure, hnone⟩] at houtcome
    cases houtcome

/-- Compilation tells duplicates apart where every repeated revision is reached and every reached
repetition of a key is one of a revision; evaluation returns where no due specification fails
without a text. Otherwise the projections are not independent. -/
theorem evaluatesIndependently_iff (specs : List (SignalProjectionSpec Config)) :
    EvaluatesIndependently host sources projectors specs ↔
      (Shares specs → Reached host sources projectors SameKey specs) ∧
      (Reached host sources projectors SameKey specs → Shares specs) ∧
      (Accepted host sources projectors specs →
        ∀ (signal : NormalizedSignal Data) (acceptedAt : String) (nanos : ℤ),
          timestampToEpochNanos acceptedAt.toList = some nanos →
          ∀ spec ∈ specs, due host signal nanos spec = true → ∀ failure,
            projectionOutcome host projectors signal spec = some (.error failure) →
              failure.message host ≠ none) := by
  have hduplicate : (∃ id key, compile host sources projectors specs = .error (.duplicate id key)) ↔
      Reached host sources projectors SameKey specs := by
    have hloop := @compileLoop_duplicate _ _ _ _ host sources projectors specs [] []
    simpa [Reached, compile] using hloop
  have haccepted : (∃ buckets, compile host sources projectors specs = .ok buckets) ↔
      Accepted host sources projectors specs := by
    have hloop := @compileLoop_ok _ _ _ _ host sources projectors specs [] []
    simpa [compile] using hloop
  constructor
  · intro h
    refine ⟨fun hshares => hduplicate.mp (h.duplicates.mpr hshares),
      fun hreached => h.duplicates.mp (hduplicate.mpr hreached), ?_⟩
    intro hlist signal acceptedAt nanos hnanos
    obtain ⟨buckets, hbuckets⟩ := haccepted.mpr hlist
    exact (evaluate_answers hbuckets hnanos).mp (h.evaluates hbuckets signal acceptedAt nanos hnanos)
  · rintro ⟨hrefused, hshared, htexts⟩
    refine ⟨hduplicate.trans ⟨hshared, hrefused⟩, ?_, fun hcollision => makeEventId_inj hcollision⟩
    intro buckets hbuckets signal acceptedAt nanos hnanos
    exact (evaluate_answers hbuckets hnanos).mpr
      (htexts (haccepted.mp ⟨buckets, hbuckets⟩) signal acceptedAt nanos hnanos)

end

/-! ### Two specifications with one key -/

def plainHost : Host Empty where
  sha256 _ := ""
  bigIntFromString _ := none
  thrownMessage := Empty.elim
  invalidMessage _ := ""

def openSources : SignalSourceRegistry := fun kind =>
  some ⟨kind, fun _ => none, fun _ => some ⟨[.string], [.exists]⟩⟩

def disabledSpec (tenantId id : String) : SignalProjectionSpec Unit where
  id := id
  revision := 1
  enabled := false
  tenantId := tenantId
  sourceKind := "k"
  selector := .exists ⟨.attribute, "f", .string⟩
  projector := ⟨"p", 1, ()⟩
  activeFrom := "2026-01-01T00:00:00Z"

lemma admit_eq_ok {Config Thrown : Type} {host : Host Thrown} {sources : SignalSourceRegistry}
    {spec : SignalProjectionSpec Config} {source : RegisteredSignalSource}
    (hschema : spec.schema = true) (hsource : sources spec.sourceKind = some source)
    (hissues : validateSignalProjectionSpec host spec ++
      validatePredicateAgainstSource spec.selector source = []) :
    vet host sources spec = .ok () := by
  unfold vet
  simp only [hschema, Bool.not_true, Bool.false_eq_true, if_false, hsource, hissues]

/-- Tenant `t:a` with projection `b` and tenant `t` with projection `a:b` are taken for one. -/
theorem colliding_revisions : ¬ @EvaluatesIndependently Unit _ Unit _ plainHost openSources []
    [disabledSpec "t:a" "b", disabledSpec "t" "a:b"] := by
  intro h
  have hfirst : vet plainHost openSources (disabledSpec "t:a" "b") = .ok () :=
    admit_eq_ok (by decide) rfl (by decide)
  have hsecond : vet plainHost openSources (disabledSpec "t" "a:b") = .ok () :=
    admit_eq_ok (by decide) rfl (by decide)
  have hkey : revisionKey (disabledSpec "t:a" "b") = revisionKey (disabledSpec "t" "a:b") := by
    decide
  obtain ⟨front, spec, rest, hlist, earlier, hmem, htenant, -⟩ := h.duplicates.mp <| by
    refine (compileLoop_duplicate _ [] []).mpr
      ⟨[disabledSpec "t:a" "b"], _, [], rfl, .inr ⟨_, List.mem_singleton_self _, hkey⟩, ?_, hsecond⟩
    intro s hs
    obtain rfl := List.mem_singleton.mp hs
    exact ⟨hfirst, none, rfl⟩
  match front, hlist with
  | [], _ => simp at hmem
  | [first], hlist =>
    obtain ⟨rfl, hrest⟩ := List.cons.inj hlist
    obtain ⟨rfl, -⟩ := List.cons.inj hrest
    obtain rfl := List.mem_singleton.mp hmem
    exact absurd htenant (by decide)
  | _ :: _ :: front, hlist => simp at hlist

end Maple.Eventing
