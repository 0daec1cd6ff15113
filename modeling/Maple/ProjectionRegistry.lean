import Maple.ProjectionStore

/-! Compiling a set of projections into the registry that evaluates signals. -/

namespace Maple.Projection

variable {β κ : Type}

/-- The registered sources and projectors: what they say about one projection. -/
structure ProjectionHost (β κ : Type) where
  checkSpec : SignalProjectionSpec β → Except String Unit
  prepare : SignalProjectionSpec β → Except String κ

structure CompiledProjection (β κ : Type) where
  spec : SignalProjectionSpec β
  program : κ
  deriving DecidableEq, Repr

/-- The compiled projections of each source kind, in the order they were compiled. -/
structure CompiledProjectionRegistry (β κ : Type) where
  bySourceKind : String → List (CompiledProjection β κ)

namespace CompiledProjectionRegistry

def empty : CompiledProjectionRegistry β κ := ⟨fun _ => []⟩

def push (registry : CompiledProjectionRegistry β κ) (compiled : CompiledProjection β κ) :
    CompiledProjectionRegistry β κ where
  bySourceKind kind :=
    if kind = compiled.spec.sourceKind then registry.bySourceKind kind ++ [compiled]
    else registry.bySourceKind kind

/-- The loop of `compile`, with the registry and the revisions it has collected. -/
def compileFrom (host : ProjectionHost β κ) (registry : CompiledProjectionRegistry β κ)
    (revisions : List String) :
    List (SignalProjectionSpec β) → Except String (CompiledProjectionRegistry β κ)
  | [] => .ok registry
  | spec :: specs =>
    match host.checkSpec spec with
    | .error message => .error message
    | .ok () =>
      if spec.revisionKey ∈ revisions then
        .error s!"duplicate projection revision: {spec.revisionKey}"
      else if spec.enabled then
        match host.prepare spec with
        | .error message => .error message
        | .ok program =>
          compileFrom host (registry.push ⟨spec, program⟩) (spec.revisionKey :: revisions) specs
      else compileFrom host registry (spec.revisionKey :: revisions) specs

def compile (host : ProjectionHost β κ) (specs : List (SignalProjectionSpec β)) :
    Except String (CompiledProjectionRegistry β κ) :=
  compileFrom host empty [] specs

/-- The same compiled projections for every source kind, in whatever order. -/
def Same (registry registry' : CompiledProjectionRegistry β κ) : Prop :=
  ∀ kind, (registry.bySourceKind kind).Perm (registry'.bySourceKind kind)

/-- Whether a projection passes the checks of `compile` that look at it alone. -/
def Compiles (host : ProjectionHost β κ) (spec : SignalProjectionSpec β) : Prop :=
  host.checkSpec spec = .ok () ∧ (spec.enabled → ∃ program, host.prepare spec = .ok program)

/-- What a projection adds to a registry. -/
def compiledOf (host : ProjectionHost β κ) (spec : SignalProjectionSpec β) :
    Option (CompiledProjection β κ) :=
  if spec.enabled then
    match host.prepare spec with
    | .ok program => some ⟨spec, program⟩
    | .error _ => none
  else none

/-- The compiled projections of one source kind. -/
def compiledFor (host : ProjectionHost β κ) (specs : List (SignalProjectionSpec β))
    (kind : String) : List (CompiledProjection β κ) :=
  (specs.filterMap (compiledOf host)).filter fun c => c.spec.sourceKind = kind

lemma compileFrom_cons {host : ProjectionHost β κ} {spec : SignalProjectionSpec β}
    {specs : List (SignalProjectionSpec β)} {registry registry' : CompiledProjectionRegistry β κ}
    {revisions : List String} :
    compileFrom host registry revisions (spec :: specs) = .ok registry' ↔
      Compiles host spec ∧ spec.revisionKey ∉ revisions ∧
      compileFrom host ((compiledOf host spec).elim registry registry.push)
        (spec.revisionKey :: revisions) specs = .ok registry' := by
  rw [compileFrom]
  unfold Compiles compiledOf
  cases hcheck : host.checkSpec spec with
  | error e => simp
  | ok =>
    by_cases hmem : spec.revisionKey ∈ revisions
    · simp [hmem]
    · by_cases henabled : spec.enabled
      · cases hprepare : host.prepare spec with
        | error e => simp [hmem, henabled]
        | ok program => simp [hmem, henabled]
      · simp [hmem, henabled]

lemma bySourceKind_elim (host : ProjectionHost β κ) (registry : CompiledProjectionRegistry β κ)
    (spec : SignalProjectionSpec β) (specs : List (SignalProjectionSpec β)) (kind : String) :
    ((compiledOf host spec).elim registry registry.push).bySourceKind kind ++
        compiledFor host specs kind =
      registry.bySourceKind kind ++ compiledFor host (spec :: specs) kind := by
  cases hof : compiledOf host spec with
  | none => simp [compiledFor, hof]
  | some compiled =>
    by_cases hkind : kind = compiled.spec.sourceKind
    · simp [compiledFor, hof, push, hkind]
    · simp [compiledFor, hof, push, hkind, Ne.symm hkind]

/-- The loop succeeds iff each projection compiles and no revision comes twice, and appends the
compiled projections. -/
lemma compileFrom_ok (host : ProjectionHost β κ) (specs : List (SignalProjectionSpec β))
    (registry registry' : CompiledProjectionRegistry β κ) (revisions : List String) :
    compileFrom host registry revisions specs = .ok registry' ↔
      (∀ spec ∈ specs, Compiles host spec) ∧
      (specs.map (·.revisionKey)).Nodup ∧
      (∀ spec ∈ specs, spec.revisionKey ∉ revisions) ∧
      ∀ kind, registry'.bySourceKind kind =
        registry.bySourceKind kind ++ compiledFor host specs kind := by
  induction specs generalizing registry revisions with
  | nil =>
    have hiff : registry = registry' ↔
        ∀ kind, registry'.bySourceKind kind = registry.bySourceKind kind := by
      constructor
      · rintro rfl kind
        rfl
      · intro h
        cases registry
        cases registry'
        congr
        funext kind
        exact (h kind).symm
    simpa [compileFrom, compiledFor] using hiff
  | cons spec specs ih =>
    rw [compileFrom_cons, ih]
    simp only [bySourceKind_elim, List.map_cons, List.nodup_cons, List.mem_map, List.mem_cons,
      forall_eq_or_imp, not_or, not_exists, not_and]
    constructor
    · rintro ⟨hspec, hfresh, hall, hnodup, hrevs, hkinds⟩
      exact ⟨⟨hspec, hall⟩, ⟨fun r hr => (hrevs r hr).1, hnodup⟩,
        ⟨hfresh, fun r hr => (hrevs r hr).2⟩, hkinds⟩
    · rintro ⟨⟨hspec, hall⟩, ⟨hne, hnodup⟩, ⟨hfresh, hrevs⟩, hkinds⟩
      exact ⟨hspec, hfresh, hall, hnodup, fun r hr => ⟨hne r hr, hrevs r hr⟩, hkinds⟩

/-- Compiling the same projections in another order gives the same registry. -/
theorem compile_perm {host : ProjectionHost β κ} {specs specs' : List (SignalProjectionSpec β)}
    {registry : CompiledProjectionRegistry β κ} (hperm : specs.Perm specs')
    (h : compile host specs = .ok registry) :
    ∃ registry', compile host specs' = .ok registry' ∧ registry.Same registry' := by
  obtain ⟨hall, hnodup, -, hkinds⟩ := (compileFrom_ok host specs empty registry []).mp h
  refine ⟨⟨compiledFor host specs'⟩, ?_, ?_⟩
  · refine (compileFrom_ok host specs' empty _ []).mpr ⟨?_, ?_, by simp, fun kind => by simp [empty]⟩
    · intro spec hspec
      exact hall spec (hperm.mem_iff.mpr hspec)
    · exact (hperm.map _).nodup_iff.mp hnodup
  · intro kind
    rw [hkinds kind]
    exact (hperm.filterMap _).filter _

end CompiledProjectionRegistry

end Maple.Projection
