import Maple.MigrationJournal

/-! Local stores and the markers beside them, as the migration coordinator sees them. `D` stands for
a store's data directory. -/

namespace Maple.Migration

inductive StoreActivation
  | active
  | staging
  deriving DecidableEq

def StoreActivation.name : StoreActivation → String
  | .active => "active"
  | .staging => "staging"

structure StoreMigrationStamp where
  id : String
  completedAt : String
  fromVersion : ℤ
  toVersion : ℤ
  deriving DecidableEq

structure StoreMarkerV2 where
  storeId : String
  chdb : String
  maple : String
  createdAt : String
  createdByMaple : String
  schemaVersion : ℤ
  schemaDigest : String
  schema : String
  activation : StoreActivation
  lastMigration : Option StoreMigrationStamp
  deriving DecidableEq

structure LegacyStoreMarker where
  chdb : String
  maple : String
  createdAt : String
  schema : String
  deriving DecidableEq

inductive StoreMarker
  | v2 (marker : StoreMarkerV2)
  | legacy (marker : LegacyStoreMarker)
  deriving DecidableEq

def StoreMarker.chdb : StoreMarker → String
  | .v2 marker => marker.chdb
  | .legacy marker => marker.chdb

/-- A marker's file: JSON with a marker's fields, or anything else. -/
inductive MarkerFile
  | json (marker : StoreMarker)
  | text
  deriving DecidableEq

/-- The build, and what it finds around the store besides the store's own files. -/
structure Host (D : Type) where
  chdbVersion : String
  mapleVersion : String
  currentSchema : LocalSchemaIdentity
  legacySchema : LocalSchemaIdentity
  schemaV1 : LocalSchemaIdentity
  dataDir : Path
  ownsLegacySidecars : Bool
  legacyServerLive : Bool
  livePid : Option ℕ
  checkpointRecoveryPending : Bool
  sameFilesystem : Bool
  hasData : D → Bool
  dateParses : String → Bool

variable {D : Type}

def hexDigit (c : Char) : Bool :=
  c.isDigit || ('a' ≤ c && c ≤ 'f') || ('A' ≤ c && c ≤ 'F')

def fingerprint16 (text : String) : Bool := text.length == 16 && text.toList.all hexDigit

def digest64 (text : String) : Bool := text.length == 64 && text.toList.all hexDigit

def Host.isoOrUnknown (host : Host D) (text : String) : Bool :=
  text == "unknown" || host.dateParses text

def Host.markerFields (host : Host D) : StoreMarker → List (String × Bool)
  | .v2 marker =>
    [("storeId", marker.storeId != ""), ("chdb", marker.chdb != ""),
      ("createdAt", host.isoOrUnknown marker.createdAt),
      ("schemaVersion", decide (0 ≤ marker.schemaVersion)),
      ("schemaDigest", digest64 marker.schemaDigest), ("schema", fingerprint16 marker.schema),
      ("lastMigration", marker.lastMigration.all fun stamp => host.isoOrUnknown stamp.completedAt)]
  | .legacy marker =>
    [("chdb", marker.chdb != ""), ("createdAt", host.isoOrUnknown marker.createdAt)]

/-- An unrecorded creator is the running version. -/
def nameCreator : StoreMarker → StoreMarker
  | .v2 marker =>
    if marker.createdByMaple = "unknown" then .v2 { marker with createdByMaple := marker.maple }
    else .v2 marker
  | .legacy marker => .legacy marker

def Host.parseMarker (host : Host D) : MarkerFile → Except MigrationError StoreMarker
  | .text => .error (.error "marker must contain a non-empty chdb string")
  | .json marker => do
    checkFields (host.markerFields marker)
    return nameCreator marker

inductive MarkerReadState
  | missing
  | malformed (message : String)
  | valid (marker : StoreMarker)
  deriving DecidableEq

def Host.markerState (host : Host D) : Option MarkerFile → MarkerReadState
  | none => .missing
  | some file =>
    match host.parseMarker file with
    | .ok marker => .valid marker
    | .error e => .malformed e.message

def Host.markerIn (host : Host D) (file : Option MarkerFile) : Option StoreMarker :=
  match host.markerState file with
  | .valid marker => some marker
  | _ => none

def identityFromMarker (host : Host D) : StoreMarker → Option LocalSchemaIdentity
  | .v2 marker => some ⟨marker.schemaVersion, marker.schema, marker.schemaDigest, marker.chdb⟩
  | .legacy marker =>
    if marker.schema = host.legacySchema.fingerprint then
      some { host.legacySchema with chdb := marker.chdb }
    else if marker.schema = host.schemaV1.fingerprint then
      some { host.schemaV1 with chdb := marker.chdb }
    else none

def markerMatches (marker : Option StoreMarker) (identity : LocalSchemaIdentity) (storeId : String)
    (activation : StoreActivation) : Bool :=
  match marker with
  | some (.v2 marker) =>
    marker.storeId == storeId && marker.chdb == identity.chdb &&
      marker.schemaVersion == identity.version && marker.schema == identity.fingerprint &&
      marker.schemaDigest == identity.digest && marker.activation == activation
  | _ => false

/-- The marker a new v2 store gets, decoded as a reader would decode it. -/
def Host.makeStoreMarker (host : Host D) (marker : StoreMarkerV2) :
    Except MigrationError StoreMarkerV2 := do
  checkFields (host.markerFields (.v2 marker))
  return marker

/-- The marker a store gets from `ensureStoreMarkerDurable` with a store id and without a migration
stamp, and whether it has to be written. -/
def Host.ensuredMarker (host : Host D) (existing : Option StoreMarker)
    (identity : LocalSchemaIdentity) (now : String) (activation : StoreActivation) (storeId : String) :
    Except MigrationError (StoreMarkerV2 × Bool) :=
  match existing with
  | some (.v2 marker) =>
    if marker.storeId ≠ storeId then
      .error (.error ("store marker identity mismatch: expected store " ++ storeId ++ ", found " ++
        marker.storeId))
    else if marker.activation = .staging ∧ activation ≠ .active ∧
        marker.schemaVersion = identity.version ∧ marker.schemaDigest = identity.digest ∧
        marker.schema = identity.fingerprint then
      .ok (marker, false)
    else
      .ok ({ marker with
        schemaVersion := identity.version
        schemaDigest := identity.digest
        schema := identity.fingerprint
        activation := activation }, true)
  | some (.legacy marker) => do
    let created ← host.makeStoreMarker
      ⟨storeId, host.chdbVersion, host.mapleVersion, marker.createdAt, marker.maple, identity.version,
        identity.digest, identity.fingerprint, activation, none⟩
    return (created, true)
  | none => do
    let created ← host.makeStoreMarker
      ⟨storeId, host.chdbVersion, host.mapleVersion, now, host.mapleVersion, identity.version,
        identity.digest, identity.fingerprint, activation, none⟩
    return (created, true)

/-! ### The stores of one data directory -/

/-- A migration's own directory: the staged target, and the source once it is retained. -/
structure MigrationRoot (D : Type) where
  targetData : Option D
  stagedMarker : Option MarkerFile
  targetOpen : Bool
  sourceData : Option D
  sourceMarker : Option MarkerFile
  sourceOpen : Bool
  deriving DecidableEq

inductive SessionStore
  | active
  | target (migrationId : String)
  deriving DecidableEq

/-- Everything a module's handlers may change: the active store, the migration roots with their
stores, the sentinels of open stores, and the connection the session holds with whether closing it
will succeed. -/
structure Stores (D : Type) where
  activeData : Option D
  activeMarker : Option MarkerFile
  activeOpen : Bool
  roots : String → MigrationRoot D
  session : Option SessionStore
  sessionCloses : Bool

def Stores.setRoot (stores : Stores D) (id : String) (root : MigrationRoot D) : Stores D :=
  { stores with roots := Function.update stores.roots id root }

@[simp] lemma Stores.setRoot_self (stores : Stores D) (id : String) (root : MigrationRoot D) :
    (stores.setRoot id root).roots id = root := by
  simp [Stores.setRoot]

@[simp] lemma Stores.setRoot_activeData (stores : Stores D) (id : String) (root : MigrationRoot D) :
    (stores.setRoot id root).activeData = stores.activeData := rfl

@[simp] lemma Stores.setRoot_activeMarker (stores : Stores D) (id : String)
    (root : MigrationRoot D) : (stores.setRoot id root).activeMarker = stores.activeMarker := rfl

@[simp] lemma Stores.setRoot_activeOpen (stores : Stores D) (id : String) (root : MigrationRoot D) :
    (stores.setRoot id root).activeOpen = stores.activeOpen := rfl

def Host.storeHasData (host : Host D) (data : Option D) : Bool := data.any host.hasData

inductive StoreCompatibility
  | compatible
  | incompatible (found : String) (current : String)
  deriving DecidableEq

def Host.checkStoreCompatible (host : Host D) (stores : Stores D) : StoreCompatibility :=
  if !host.storeHasData stores.activeData then .compatible
  else
    match host.markerState stores.activeMarker with
    | .missing => .incompatible "an unversioned legacy store" host.chdbVersion
    | .malformed _ => .incompatible "a malformed store marker" host.chdbVersion
    | .valid marker =>
      if marker.chdb ≠ host.chdbVersion then .incompatible marker.chdb host.chdbVersion
      else
        match marker with
        | .v2 marker =>
          if marker.activation ≠ .active then
            .incompatible "a staged/incomplete store" "an active store"
          else .compatible
        | .legacy _ => .compatible

/-! ### What a marker's reader sees -/

lemma markerMatches_iff {marker : Option StoreMarker} {identity : LocalSchemaIdentity}
    {storeId : String} {activation : StoreActivation} :
    markerMatches marker identity storeId activation ↔
      ∃ found, marker = some (.v2 found) ∧ found.storeId = storeId ∧ found.chdb = identity.chdb ∧
        found.schemaVersion = identity.version ∧ found.schema = identity.fingerprint ∧
        found.schemaDigest = identity.digest ∧ found.activation = activation := by
  rcases marker with _ | ⟨found⟩ | ⟨found⟩
  · simp [markerMatches]
  · simp [markerMatches, and_assoc]
  · simp [markerMatches]

lemma Host.markerIn_json {host : Host D} {marker : StoreMarker}
    (h : ∀ field ∈ host.markerFields marker, field.2 = true) :
    host.markerIn (some (.json marker)) = some (nameCreator marker) := by
  simp [Host.markerIn, Host.markerState, Host.parseMarker, checkFields_iff.mpr h, bind, Except.bind,
    pure, Except.pure]

lemma nameCreator_v2 (marker : StoreMarkerV2) :
    ∃ creator, nameCreator (.v2 marker) = .v2 { marker with createdByMaple := creator } := by
  by_cases hunknown : marker.createdByMaple = "unknown"
  · exact ⟨marker.maple, if_pos hunknown⟩
  · exact ⟨marker.createdByMaple, if_neg hunknown⟩

lemma nameCreator_fields (host : Host D) (marker : StoreMarker) :
    host.markerFields (nameCreator marker) = host.markerFields marker := by
  cases marker with
  | v2 marker =>
    simp only [nameCreator]
    split_ifs
    · rfl
    · rfl
  | legacy marker => rfl

lemma Host.markerIn_eq_some {host : Host D} {file : Option MarkerFile} {marker : StoreMarker}
    (h : host.markerIn file = some marker) : ∀ field ∈ host.markerFields marker, field.2 = true := by
  unfold Host.markerIn Host.markerState at h
  split at h
  next found hfound =>
    cases h
    split at hfound
    next => cases hfound
    next file =>
      split at hfound
      next decoded hdecoded =>
        cases hfound
        unfold Host.parseMarker at hdecoded
        split at hdecoded
        next => cases hdecoded
        next raw =>
          obtain ⟨hfields, hname⟩ := bind_unit_eq_ok.mp hdecoded
          cases hname
          rw [nameCreator_fields]
          exact checkFields_iff.mp hfields
      next => cases hfound
  next => cases h

end Maple.Migration
