import Maple.SignalPredicate
import Maple.CanonicalJson

/-! The event a projection makes of a signal: its identity, its envelope and its byte budget. -/

namespace Maple.Eventing
open IngestRules (codeUnits bytes)

def MAX_CLOUD_EVENT_BYTES : ℕ := 256 * 1024

/-! ### Identity -/

structure EventIdentityInput where
  tenantId : String
  sourceKind : String
  source : String
  occurrenceId : String
  projectionId : String
  projectionRevision : ℤ
deriving DecidableEq, Repr

/-- `writeUInt32BE`, which throws on a number that does not fit. -/
def uint32BE (n : ℕ) : Option (List UInt8) :=
  if n < 2 ^ 32 then
    some [UInt8.ofNat (n / 2 ^ 24), UInt8.ofNat (n / 2 ^ 16), UInt8.ofNat (n / 2 ^ 8), UInt8.ofNat n]
  else none

/-- The bytes one field adds to the hash. -/
def lengthDelimited (value : String) : Option (List UInt8) :=
  (uint32BE (bytes value).length).map (· ++ bytes value)

def identityFields (input : EventIdentityInput) : List String :=
  ["maple-event-v1", input.tenantId, input.sourceKind, input.source, input.occurrenceId,
    input.projectionId, String.ofList (decimal input.projectionRevision)]

def identityBytes (input : EventIdentityInput) : Option (List UInt8) :=
  ((identityFields input).mapM lengthDelimited).map List.flatten

/-- `sha256` answers the hexadecimal digest of the bytes. -/
def makeEventId (sha256 : List UInt8 → String) (input : EventIdentityInput) : Option String :=
  (identityBytes input).map fun bytes => "sha256:" ++ sha256 bytes

lemma uint32BE_length {n : ℕ} {word : List UInt8} (h : uint32BE n = some word) :
    word.length = 4 := by
  unfold uint32BE at h
  split_ifs at h
  obtain rfl := Option.some.inj h
  rfl

/-- A length is read back from its four bytes. -/
lemma uint32BE_inj {m n : ℕ} {word : List UInt8} (hm : uint32BE m = some word)
    (hn : uint32BE n = some word) : m = n := by
  unfold uint32BE at hm hn
  split_ifs at hm hn with hm' hn'
  have hwords := Option.some.inj (hm.trans hn.symm)
  have hbyte : ∀ k l : ℕ, UInt8.ofNat k = UInt8.ofNat l → k % 256 = l % 256 := fun k l h => by
    simpa using congrArg UInt8.toNat h
  simp only [List.cons.injEq, and_true] at hwords
  obtain ⟨h₃, h₂, h₁, h₀⟩ := hwords
  have := hbyte _ _ h₃
  have := hbyte _ _ h₂
  have := hbyte _ _ h₁
  have := hbyte _ _ h₀
  omega

lemma bytes_inj {a b : String} (h : bytes a = bytes b) : a = b :=
  String.toList_inj.mp (IngestRules.selfSync_utf8.injective h)

/-- A field is read back whatever follows it. -/
lemma lengthDelimited_inj {a b : String} {x y rest rest' : List UInt8}
    (ha : lengthDelimited a = some x) (hb : lengthDelimited b = some y)
    (h : x ++ rest = y ++ rest') : a = b ∧ rest = rest' := by
  obtain ⟨word, hword, rfl⟩ := Option.map_eq_some_iff.mp ha
  obtain ⟨word', hword', rfl⟩ := Option.map_eq_some_iff.mp hb
  rw [List.append_assoc, List.append_assoc] at h
  obtain ⟨rfl, hfield⟩ := List.append_inj h
    ((uint32BE_length hword).trans (uint32BE_length hword').symm)
  obtain ⟨hbytes, hrest⟩ := List.append_inj hfield (uint32BE_inj hword hword')
  exact ⟨bytes_inj hbytes, hrest⟩

lemma fields_inj {as bs : List String} {xs ys : List (List UInt8)}
    (ha : as.mapM lengthDelimited = some xs) (hb : bs.mapM lengthDelimited = some ys)
    (hlength : as.length = bs.length) (h : xs.flatten = ys.flatten) : as = bs := by
  induction as generalizing bs xs ys with
  | nil => exact (List.length_eq_zero_iff.mp hlength.symm).symm
  | cons a as ih =>
    cases bs with
    | nil => simp at hlength
    | cons b bs =>
      simp only [List.mapM_cons, Option.bind_eq_bind, Option.bind_eq_some_iff, Option.pure_def,
        Option.some.injEq] at ha hb
      obtain ⟨x, hx, xs', hxs, rfl⟩ := ha
      obtain ⟨y, hy, ys', hys, rfl⟩ := hb
      rw [List.flatten_cons, List.flatten_cons] at h
      obtain ⟨rfl, hrest⟩ := lengthDelimited_inj hx hy h
      rw [ih hxs hys (by simpa using hlength) hrest]

lemma identityBytes_inj {a b : EventIdentityInput} {word : List UInt8}
    (ha : identityBytes a = some word) (hb : identityBytes b = some word) : a = b := by
  obtain ⟨xs, hxs, hx⟩ := Option.map_eq_some_iff.mp ha
  obtain ⟨ys, hys, hy⟩ := Option.map_eq_some_iff.mp hb
  have hfields := fields_inj hxs hys rfl (hx.trans hy.symm)
  simp only [identityFields, List.cons.injEq, and_true, true_and] at hfields
  obtain ⟨htenant, hkind, hsource, hoccurrence, hprojection, hrevision⟩ := hfields
  have hvalue := congrArg signedValue (String.ofList_injective hrevision)
  rw [signedValue_decimal, signedValue_decimal] at hvalue
  cases a
  cases b
  simp_all

/-- Two identities have one identifier only if their bytes collide. -/
lemma makeEventId_inj {sha256 : List UInt8 → String} {a b : EventIdentityInput} {id : String}
    (hcollision : ∀ x y, identityBytes a = some x → identityBytes b = some y →
      sha256 x = sha256 y → x = y)
    (ha : makeEventId sha256 a = some id) (hb : makeEventId sha256 b = some id) : a = b := by
  obtain ⟨x, hx, rfl⟩ := Option.map_eq_some_iff.mp ha
  obtain ⟨y, hy, hid⟩ := Option.map_eq_some_iff.mp hb
  have hdigest : sha256 x = sha256 y := by
    have htext := congrArg String.toList hid
    rw [String.toList_append, String.toList_append] at htext
    exact (String.toList_inj.mp (List.append_cancel_left htext)).symm
  obtain rfl := hcollision x y hx hy hdigest
  exact identityBytes_inj hx hy

/-! ### The envelope -/

structure MapleCloudEvent where
  id : String
  source : String
  type : String
  subject : Option String
  time : String
  dataschema : String
  tenantid : String
  projectionid : String
  projectionrevision : ℤ
  projectorid : String
  projectorversion : ℤ
  sourceoccurrenceid : String
  identityquality : IdentityQuality
  data : Json

def IdentityQuality.name : IdentityQuality → String
  | .source => "source"
  | .derived => "derived"
  | .none => "none"

/-- The envelope as an object, in the order in which it is written. -/
def MapleCloudEvent.json (event : MapleCloudEvent) : Json :=
  .object ([("specversion", .string "1.0"), ("id", .string event.id),
    ("source", .string event.source), ("type", .string event.type),
    ("time", .string event.time), ("datacontenttype", .string "application/json"),
    ("dataschema", .string event.dataschema), ("tenantid", .string event.tenantid),
    ("projectionid", .string event.projectionid),
    ("projectionrevision", .number (String.ofList (decimal event.projectionrevision))),
    ("projectorid", .string event.projectorid),
    ("projectorversion", .number (String.ofList (decimal event.projectorversion))),
    ("sourceoccurrenceid", .string event.sourceoccurrenceid),
    ("identityquality", .string event.identityquality.name), ("data", event.data)] ++
    (event.subject.map fun subject => ("subject", Json.string subject)).toList)

/-- The order of `left < right` on strings. -/
def unitsLe (a b : String) : Prop := ¬ codeUnits b < codeUnits a

instance (a b : String) : Decidable (unitsLe a b) := inferInstanceAs (Decidable ¬ _)

mutual

def canonicalizeJson : Json → Json
  | .array items => .array (canonicalizeItems items)
  | .object fields => .object (CanonicalJson.fromEntries
      ((canonicalizeFields fields).insertionSort fun a b => unitsLe a.1 b.1))
  | value => value

def canonicalizeItems : List Json → List Json
  | [] => []
  | item :: items => canonicalizeJson item :: canonicalizeItems items

def canonicalizeFields : List (String × Json) → List (String × Json)
  | [] => []
  | (key, child) :: fields => (key, canonicalizeJson child) :: canonicalizeFields fields

end

/-- A positive safe integer. -/
def positiveInt (n : ℤ) : Bool := 0 < n && n ≤ 2 ^ 53 - 1

/-- `MapleCloudEventSchema`. -/
def MapleCloudEvent.schema (event : MapleCloudEvent) : Bool :=
  nonEmptyIdentifier event.id && nonEmptyIdentifier event.source &&
    nonEmptyIdentifier event.type && rfc3339Timestamp event.time &&
    nonEmptyIdentifier event.dataschema && nonEmptyIdentifier event.tenantid &&
    nonEmptyIdentifier event.projectionid && positiveInt event.projectionrevision &&
    nonEmptyIdentifier event.projectorid && positiveInt event.projectorversion &&
    nonEmptyIdentifier event.sourceoccurrenceid

/-- Why there is no event; `length` is the exception of a field whose length does not fit. -/
inductive CloudEventInvalid
  | identity
  | time
  | length
  | schema
  | size
deriving DecidableEq, Repr

def validateMapleCloudEvent (event : MapleCloudEvent) :
    Except CloudEventInvalid MapleCloudEvent :=
  if !event.schema then .error .schema
  else if MAX_CLOUD_EVENT_BYTES <
      (bytes (String.ofList (canonicalizeJson event.json).stringify)).length then
    .error .size
  else .ok event

/-- What a projector makes of a signal. A subject that is not given is the signal's. -/
structure ProjectedEventData (Output : Type) where
  subject : Option (Option String)
  time : Option String
  data : Output

structure EventInput (Data : Type) where
  signal : NormalizedSignal Data
  projectionId : String
  projectionRevision : ℤ
  projectorId : String
  projectorVersion : ℤ
  outputType : String
  dataSchema : String
  subject : Option (Option String)
  time : Option String
  data : Json

/-- The occurrence of a signal with a stable or derived identity. -/
def occurrenceIdentity {Data : Type} (signal : NormalizedSignal Data) : Option String :=
  match signal.occurrenceId with
  | none => none
  | some occurrence =>
    if occurrence ≠ "" ∧ SafeFetch.trim occurrence = occurrence ∧ signal.identityQuality ≠ .none then
      some occurrence
    else none

def makeCloudEvent {Data : Type} (sha256 : List UInt8 → String) (input : EventInput Data) :
    Except CloudEventInvalid MapleCloudEvent :=
  match occurrenceIdentity input.signal with
  | none => .error .identity
  | some occurrenceId =>
    let time := input.time.getD input.signal.occurredAt
    if (timestampToEpochNanos time.toList).isNone then .error .time
    else
      match makeEventId sha256 ⟨input.signal.tenantId, input.signal.sourceKind,
          input.signal.source, occurrenceId, input.projectionId, input.projectionRevision⟩ with
      | none => .error .length
      | some id =>
        validateMapleCloudEvent
          { id := id
            source := input.signal.source
            type := input.outputType
            subject := input.subject.getD input.signal.subject
            time := time
            dataschema := input.dataSchema
            tenantid := input.signal.tenantId
            projectionid := input.projectionId
            projectionrevision := input.projectionRevision
            projectorid := input.projectorId
            projectorversion := input.projectorVersion
            sourceoccurrenceid := occurrenceId
            identityquality := input.signal.identityQuality
            data := input.data }

end Maple.Eventing
