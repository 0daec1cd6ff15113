import Maple.CloudEvent

/-! The registry of event projections: the catalog a selector is checked against, the projectors,
compilation of a list of specifications, and the evaluation of a signal. -/

namespace Maple.Eventing

/-! ### Sources -/

inductive SignalLeafOperator
  | exists
  | comparison (op : ComparisonOp)
  | in
deriving DecidableEq, Repr

def SignalLeafOperator.name : SignalLeafOperator → String
  | .exists => "exists"
  | .comparison op => op.name
  | .in => "in"

/-- An entry allows one type or a list of types. -/
structure SignalFieldCatalogEntry where
  types : SignalScalarType ⊕ List SignalScalarType
  operators : List SignalLeafOperator

def catalogEntryTypes (entry : SignalFieldCatalogEntry) : List SignalScalarType :=
  match entry.types with
  | .inl type => [type]
  | .inr types => types

structure OpenFieldNamespacePolicy where
  types : List SignalScalarType
  operators : List SignalLeafOperator

/-- The maps of a registered source as their lookups. -/
structure RegisteredSignalSource where
  sourceKind : String
  fields : String → Option SignalFieldCatalogEntry
  openFields : FieldNamespace → Option OpenFieldNamespacePolicy

abbrev SignalSourceRegistry := String → Option RegisteredSignalSource

structure LeafField where
  field : FieldRef
  operator : SignalLeafOperator
  path : String

mutual

def leafFields : SignalPredicate → String → List LeafField
  | .all clauses, path => leafFieldsOf clauses path 0
  | .any clauses, path => leafFieldsOf clauses path 0
  | .not clause, path => leafFields clause (path ++ ".clause")
  | .exists field, path => [⟨field, .exists, path⟩]
  | .comparison op field _, path => [⟨field, .comparison op, path⟩]
  | .in field _, path => [⟨field, .in, path⟩]

def leafFieldsOf : List SignalPredicate → String → ℕ → List LeafField
  | [], _, _ => []
  | clause :: clauses, path, i =>
    leafFields clause (path ++ ".clauses[" ++ toString i ++ "]") ++ leafFieldsOf clauses path (i + 1)

end

def leafIssues (source : RegisteredSignalSource) (leaf : LeafField) : List ValidationIssue :=
  let key := fieldKey leaf.field.space leaf.field.key
  match source.fields key with
  | some entry =>
    (if (catalogEntryTypes entry).contains leaf.field.type then []
      else [⟨leaf.path ++ ".field.type", "catalog field " ++ key ++ " allows " ++
        ", ".intercalate ((catalogEntryTypes entry).map SignalScalarType.name)⟩]) ++
    (if entry.operators.contains leaf.operator then []
      else [⟨leaf.path ++ ".op", leaf.operator.name ++ " is not allowed for catalog field " ++ key⟩])
  | none =>
    match source.openFields leaf.field.space with
    | none => [⟨leaf.path ++ ".field",
        "unknown field " ++ key ++ " for source " ++ source.sourceKind⟩]
    | some policy =>
      (if policy.types.contains leaf.field.type then []
        else [⟨leaf.path ++ ".field.type", leaf.field.type.name ++ " is not allowed for open " ++
          leaf.field.space.name ++ " fields"⟩]) ++
      (if policy.operators.contains leaf.operator then []
        else [⟨leaf.path ++ ".op", leaf.operator.name ++ " is not allowed for open " ++
          leaf.field.space.name ++ " fields"⟩])

def validatePredicateAgainstSource (predicate : SignalPredicate)
    (source : RegisteredSignalSource) : List ValidationIssue :=
  (leafFields predicate "selector").flatMap (leafIssues source)

/-! ### Projectors -/

section projectors
variable {Data Config Output Thrown : Type}

structure SignalProjector (Data Config Output Thrown Settings : Type) where
  id : String
  version : ℤ
  sourceKinds : List String
  outputType : String
  dataSchema : String
  decodeConfig : Config → Except Thrown Settings
  decodeOutput : Output → Except Thrown Json
  project : NormalizedSignal Data → Settings → Except Thrown (ProjectedEventData Output)

structure ErasedSignalProjector (Data Config Output Thrown : Type) where
  id : String
  version : ℤ
  sourceKinds : List String
  outputType : String
  dataSchema : String
  decodeOutput : Output → Except Thrown Json
  prepare : Config →
    Except Thrown (NormalizedSignal Data → Except Thrown (ProjectedEventData Output))

def SignalProjector.erase {Settings : Type}
    (projector : SignalProjector Data Config Output Thrown Settings) :
    ErasedSignalProjector Data Config Output Thrown where
  id := projector.id
  version := projector.version
  sourceKinds := projector.sourceKinds
  outputType := projector.outputType
  dataSchema := projector.dataSchema
  decodeOutput := projector.decodeOutput
  prepare config :=
    (projector.decodeConfig config).map fun settings signal => projector.project signal settings

abbrev ProjectorRegistry (Data Config Output Thrown : Type) :=
  List (String × ErasedSignalProjector Data Config Output Thrown)

def projectorKey (id : String) (version : ℤ) : String := id ++ "@" ++ String.ofList (decimal version)

def ProjectorRegistry.get (registry : ProjectorRegistry Data Config Output Thrown) (id : String)
    (version : ℤ) : Option (ErasedSignalProjector Data Config Output Thrown) :=
  registry.lookup (projectorKey id version)

def trimmedText (text : String) : Bool := text != "" && SafeFetch.trim text == text

/-- `ProjectorMetadataSchema`. -/
def projectorSchema {Settings : Type}
    (projector : SignalProjector Data Config Output Thrown Settings) : Bool :=
  trimmedText projector.id && positiveInt projector.version && !projector.sourceKinds.isEmpty &&
    projector.sourceKinds.all (· != "") && trimmedText projector.outputType &&
    trimmedText projector.dataSchema

def ProjectorRegistry.register {Settings : Type}
    (registry : ProjectorRegistry Data Config Output Thrown)
    (projector : SignalProjector Data Config Output Thrown Settings) :
    Option (ProjectorRegistry Data Config Output Thrown) :=
  let key := projectorKey projector.id projector.version
  if !projectorSchema projector then none
  else if (registry.lookup key).isSome then none
  else some (registry ++ [(key, projector.erase)])

/-! ### Compilation -/

structure ProjectorRef (Config : Type) where
  id : String
  version : ℤ
  config : Config

structure SignalProjectionSpec (Config : Type) where
  id : String
  revision : ℤ
  enabled : Bool
  tenantId : String
  sourceKind : String
  selector : SignalPredicate
  projector : ProjectorRef Config
  activeFrom : String

/-- `SignalProjectionSpecSchema`. -/
def SignalProjectionSpec.schema (spec : SignalProjectionSpec Config) : Bool :=
  nonEmptyIdentifier spec.id && positiveInt spec.revision && nonEmptyIdentifier spec.tenantId &&
    nonEmptyIdentifier spec.sourceKind && predicateSchema spec.selector &&
    nonEmptyIdentifier spec.projector.id && positiveInt spec.projector.version &&
    rfc3339Timestamp spec.activeFrom

inductive ProjectionInvalid (Thrown : Type)
  | schema
  | unregisteredSource (projectionId : String) (revision : ℤ) (sourceKind : String)
  | issues (projectionId : String) (revision : ℤ) (issues : List ValidationIssue)
  | duplicate (projectionId : String) (revisionKey : String)
  | unregisteredProjector (projectionId : String) (revision : ℤ) (projectorKey : String)
  | sourceNotAccepted (projectionId : String) (projectorKey : String) (sourceKind : String)
  | activeFrom (projectionId : String)
  | predicate (projectionId : String) (issues : List ValidationIssue)
  | config (projectionId : String) (cause : Thrown)
  | acceptanceTime

def issueTexts (issues : List ValidationIssue) : String :=
  "; ".intercalate (issues.map fun issue => issue.path ++ ": " ++ issue.message)

def at_ (id : String) (revision : ℤ) : String := id ++ "@" ++ String.ofList (decimal revision)

/-- The message of an error, except the schema's own. -/
def ProjectionInvalid.message : ProjectionInvalid Thrown → Option String
  | .schema => none
  | .unregisteredSource id revision kind => some ("projection " ++ at_ id revision ++
      " references an unregistered source " ++ kind)
  | .issues id revision found =>
    some ("invalid projection " ++ at_ id revision ++ ": " ++ issueTexts found)
  | .duplicate _ key => some ("duplicate projection revision: " ++ key)
  | .unregisteredProjector id revision key => some ("projection " ++ at_ id revision ++
      " references an unregistered projector " ++ key)
  | .sourceNotAccepted _ key kind => some ("projector " ++ key ++ " does not accept " ++ kind)
  | .activeFrom _ => some "invalid projection activeFrom timestamp"
  | .predicate _ found => some (issueTexts found)
  | .config _ _ => some "invalid projector config"
  | .acceptanceTime => some "projection acceptance time must be a valid instant"

def revisionKey (spec : SignalProjectionSpec Config) : String :=
  spec.tenantId ++ ":" ++ at_ spec.id spec.revision

structure CompiledProjection (Data Config Output Thrown : Type) where
  spec : SignalProjectionSpec Config
  projector : ErasedSignalProjector Data Config Output Thrown
  project : NormalizedSignal Data → Except Thrown (ProjectedEventData Output)
  activeFromNanos : ℤ

/-- What the registry uses of outside: a hash, two decoders, and the texts of failures. A thrown
value has none when it can be neither read as an error nor turned into a string. -/
structure Host (Thrown : Type) where
  sha256 : List UInt8 → String
  bigIntFromString : String → Option ℤ
  thrownMessage : Thrown → Option String
  invalidMessage : CloudEventInvalid → String

variable (host : Host Thrown)

def validateSignalProjectionSpec (spec : SignalProjectionSpec Config) : List ValidationIssue :=
  (if (timestampToEpochNanos spec.activeFrom.toList).isNone then
    [⟨"activeFrom", "must be a valid RFC 3339 instant with an explicit offset"⟩] else []) ++
  validateSignalPredicate host.bigIntFromString spec.selector

/-- The checks before a specification's revision is looked at. -/
def vet (sources : SignalSourceRegistry) (spec : SignalProjectionSpec Config) :
    Except (ProjectionInvalid Thrown) Unit :=
  if !spec.schema then .error .schema else
  match sources spec.sourceKind with
  | none => .error (.unregisteredSource spec.id spec.revision spec.sourceKind)
  | some source =>
    match validateSignalProjectionSpec host spec ++
        validatePredicateAgainstSource spec.selector source with
    | [] => .ok ()
    | issues => .error (.issues spec.id spec.revision issues)

/-- The rest of a specification's checks, and its projection if it is enabled. -/
def compileProjection (projectors : ProjectorRegistry Data Config Output Thrown)
    (spec : SignalProjectionSpec Config) : Except (ProjectionInvalid Thrown)
      (Option (CompiledProjection Data Config Output Thrown)) :=
  let key := projectorKey spec.projector.id spec.projector.version
  if !spec.enabled then .ok none else
  match projectors.get spec.projector.id spec.projector.version with
  | none => .error (.unregisteredProjector spec.id spec.revision key)
  | some projector =>
    if !projector.sourceKinds.contains spec.sourceKind then
      .error (.sourceNotAccepted spec.id (projectorKey projector.id projector.version)
        spec.sourceKind)
    else
      match timestampToEpochNanos spec.activeFrom.toList with
      | none => .error (.activeFrom spec.id)
      | some activeFromNanos =>
        match compileIssues host.bigIntFromString spec.selector with
        | [] =>
          match projector.prepare spec.projector.config with
          | .error cause => .error (.config spec.id cause)
          | .ok project => .ok (some ⟨spec, projector, project, activeFromNanos⟩)
        | issues => .error (.predicate spec.id issues)

/-- The compiled projections by the kind of their source. -/
abbrev Buckets (Data Config Output Thrown : Type) :=
  List (String × List (CompiledProjection Data Config Output Thrown))

def Buckets.push (compiled : CompiledProjection Data Config Output Thrown) :
    Buckets Data Config Output Thrown → Buckets Data Config Output Thrown
  | [] => [(compiled.spec.sourceKind, [compiled])]
  | (kind, bucket) :: buckets =>
    if kind = compiled.spec.sourceKind then (kind, bucket ++ [compiled]) :: buckets
    else (kind, bucket) :: Buckets.push compiled buckets

def Buckets.get (buckets : Buckets Data Config Output Thrown) (kind : String) :
    List (CompiledProjection Data Config Output Thrown) := (buckets.lookup kind).getD []

def refuseDuplicate (revisions : List String) (spec : SignalProjectionSpec Config) :
    Except (ProjectionInvalid Thrown) Unit :=
  if revisionKey spec ∈ revisions then .error (.duplicate spec.id (revisionKey spec)) else .ok ()

def compileLoop (sources : SignalSourceRegistry)
    (projectors : ProjectorRegistry Data Config Output Thrown) :
    List (SignalProjectionSpec Config) → List String → Buckets Data Config Output Thrown →
      Except (ProjectionInvalid Thrown) (Buckets Data Config Output Thrown)
  | [], _, buckets => .ok buckets
  | spec :: specs, revisions, buckets => do
    vet host sources spec
    refuseDuplicate revisions spec
    let compiled ← compileProjection host projectors spec
    compileLoop sources projectors specs (revisionKey spec :: revisions)
      (compiled.elim buckets buckets.push)

/-- `CompiledProjectionRegistry.compile`. -/
def compile (sources : SignalSourceRegistry)
    (projectors : ProjectorRegistry Data Config Output Thrown)
    (specs : List (SignalProjectionSpec Config)) :
    Except (ProjectionInvalid Thrown) (Buckets Data Config Output Thrown) :=
  compileLoop host sources projectors specs [] []

/-! ### Evaluation -/

structure ProjectionFailure where
  projectionId : String
  projectionRevision : ℤ
  occurrenceId : Option String
  message : String

structure ProjectionBatchResult where
  events : List MapleCloudEvent
  failures : List ProjectionFailure
  typeMismatchFields : List String

inductive Failure (Thrown : Type)
  | thrown (value : Thrown)
  | invalid (error : CloudEventInvalid)

def Failure.message : Failure Thrown → Option String
  | .thrown value => host.thrownMessage value
  | .invalid error => some (host.invalidMessage error)

/-- What one projection makes of a signal. -/
def projectSignal (projection : CompiledProjection Data Config Output Thrown)
    (signal : NormalizedSignal Data) : Except (Failure Thrown) MapleCloudEvent :=
  match projection.project signal with
  | .error value => .error (.thrown value)
  | .ok projected =>
    match projection.projector.decodeOutput projected.data with
    | .error value => .error (.thrown value)
    | .ok data =>
      (makeCloudEvent host.sha256
        { signal := signal
          projectionId := projection.spec.id
          projectionRevision := projection.spec.revision
          projectorId := projection.projector.id
          projectorVersion := projection.projector.version
          outputType := projection.projector.outputType
          dataSchema := projection.projector.dataSchema
          subject := projected.subject
          time := projected.time
          data := data }).mapError .invalid

/-- A set in the order of insertion. -/
def addField (fields : List String) (field : FieldRef) : List String :=
  let key := fieldKey field.space field.key
  if key ∈ fields then fields else fields ++ [key]

/-- One turn of the loop over projections; `none` where it throws. -/
def evaluateProjection (signal : NormalizedSignal Data) (acceptedAtNanos : ℤ)
    (batch : ProjectionBatchResult) (projection : CompiledProjection Data Config Output Thrown) :
    Option ProjectionBatchResult :=
  if projection.spec.tenantId ≠ signal.tenantId then some batch
  else if acceptedAtNanos < projection.activeFromNanos then some batch
  else
    let evaluation := compiledPredicate host.bigIntFromString signal projection.spec.selector
    let batch := { batch with
      typeMismatchFields := evaluation.typeMismatches.foldl addField batch.typeMismatchFields }
    if !evaluation.matched then some batch
    else
      match projectSignal host projection signal with
      | .ok event => some { batch with events := batch.events ++ [event] }
      | .error failure =>
        (failure.message host).map fun message => { batch with
          failures := batch.failures ++ [⟨projection.spec.id, projection.spec.revision,
            signal.occurrenceId, message⟩] }

/-- `CompiledProjectionRegistry.evaluate`; `none` where it throws. -/
def evaluate (buckets : Buckets Data Config Output Thrown) (signal : NormalizedSignal Data)
    (acceptedAt : String) : Option (Except (ProjectionInvalid Thrown) ProjectionBatchResult) :=
  match timestampToEpochNanos acceptedAt.toList with
  | none => some (.error .acceptanceTime)
  | some acceptedAtNanos =>
    ((buckets.get signal.sourceKind).foldlM
      (evaluateProjection host signal acceptedAtNanos) ⟨[], [], []⟩).map .ok

end projectors

end Maple.Eventing
