import Maple.ByteReader
import Maple.FrameStream

/-! The write-ahead log frame format: its encoder and the reader used for replay. -/

namespace Maple.Wal

open ByteReader FrameStream

inductive TelemetrySignal
  | traces
  | logs
  | metrics
  | sessionReplays
  | sessionEvents
  | productEvents
  deriving DecidableEq, Repr

inductive ExportDestination
  | tinybird
  | clickHouse
  deriving DecidableEq, Repr

structure EncodedFrame where
  orgId : String
  signal : TelemetrySignal
  destination : ExportDestination
  datasource : String
  rowCount : ℕ
  payload : List UInt8
  deriving DecidableEq

structure DecodedWalFrame where
  endAt : ℕ
  orgId : String
  signal : TelemetrySignal
  destination : ExportDestination
  datasource : String
  rowCount : ℕ
  payload : List UInt8
  deriving DecidableEq

/-- What the format takes from outside: the checksum, and how a UTF-8 error is displayed. -/
structure WalHost where
  crc32 : List UInt8 → UInt32
  utf8Error : List UInt8 → String

/-- One bit of the reflected CRC-32 division. -/
def crcBit (crc : UInt32) : UInt32 :=
  if crc &&& 1 = 1 then (crc >>> 1) ^^^ 0xEDB88320 else crc >>> 1

def crcByte (crc : UInt32) (b : UInt8) : UInt32 :=
  crcBit (crcBit (crcBit (crcBit (crcBit (crcBit (crcBit (crcBit (crc ^^^ b.toUInt32))))))))

/-- The host the service runs on, with the CRC-32 of its checksum crate. -/
def ieeeHost : WalHost where
  crc32 bytes := bytes.foldl crcByte 0xFFFFFFFF ^^^ 0xFFFFFFFF
  utf8Error _ := "invalid utf-8 sequence"

example : ieeeHost.crc32 [49, 50, 51, 52, 53, 54, 55, 56, 57] = 0xCBF43926 := by decide +kernel

def walMagic : List UInt8 := [77, 84, 87, 49]
def walV1HeaderLen : ℕ := 20
def walV2HeaderLen : ℕ := 22
def walV3HeaderLen : ℕ := 23

def signalTag : TelemetrySignal → UInt8
  | .traces => 1
  | .logs => 2
  | .metrics => 3
  | .sessionReplays => 4
  | .sessionEvents => 5
  | .productEvents => 6

def signalFromTag : UInt8 → Option TelemetrySignal
  | 1 => some .traces
  | 2 => some .logs
  | 3 => some .metrics
  | 4 => some .sessionReplays
  | 5 => some .sessionEvents
  | 6 => some .productEvents
  | _ => none

def destinationTag : ExportDestination → UInt8
  | .tinybird => 1
  | .clickHouse => 2

def destinationFromTag : UInt8 → Option ExportDestination
  | 1 => some .tinybird
  | 2 => some .clickHouse
  | _ => none

@[simp] lemma signalFromTag_signalTag (s : TelemetrySignal) :
    signalFromTag (signalTag s) = some s := by
  cases s <;> rfl

@[simp] lemma destinationFromTag_destinationTag (d : ExportDestination) :
    destinationFromTag (destinationTag d) = some d := by
  cases d <;> rfl

def utf8Bytes (s : String) : List UInt8 := s.toByteArray.data.toList

/-- `String::from_utf8`, with the caller's text before the error. -/
def fromUtf8 (host : WalHost) (what : String) (bytes : List UInt8) : Except String String :=
  match String.fromUTF8? bytes.toByteArray with
  | some s => .ok s
  | none => .error s!"{what}: {host.utf8Error bytes}"

/-- The bounds check made by writing `n` into a field of `width` bytes. -/
def tryFrom (width n : ℕ) (err : String) : Except String ℕ :=
  if n < 256 ^ width then .ok n else .error err

def encodeWalFrame (host : WalHost) (frame : EncodedFrame) : Except String (List UInt8) := do
  let datasource := utf8Bytes frame.datasource
  let orgId := utf8Bytes frame.orgId
  let datasourceLen ← tryFrom 2 datasource.length "datasource name too long"
  let orgIdLen ← tryFrom 2 orgId.length "org id too long"
  let payloadLen ← tryFrom 4 frame.payload.length "WAL payload too large"
  let rowCount ← tryFrom 4 frame.rowCount "WAL row count too large"
  let checksum := host.crc32
    ([signalTag frame.signal] ++ [destinationTag frame.destination] ++ orgId ++ datasource ++
      frame.payload)
  return walMagic ++ [3] ++ [signalTag frame.signal] ++ [destinationTag frame.destination] ++
    leBytes 2 datasourceLen ++ leBytes 2 orgIdLen ++ leBytes 4 payloadLen ++ leBytes 4 rowCount ++
    leBytes 4 checksum.toNat ++ orgId ++ datasource ++ frame.payload

/-- The fields that follow the magic, the version and the signal tag. -/
structure WalHeader where
  destination : ExportDestination
  orgIdLen : ℕ
  datasourceLen : ℕ
  payloadLen : ℕ
  rowCount : ℕ
  checksum : ℕ
  headerLen : ℕ
  deriving DecidableEq, Repr

/-- What `read_exact` says when the file ends early. -/
def shortRead : String := "failed to fill whole buffer"

def readWalHeader (version : UInt8) (start : ℕ) : Reader WalHeader :=
  match version with
  | 1 => do
    let rest ← readExact (walV1HeaderLen - 6) s!"read WAL v1 header: {shortRead}"
    return ⟨.tinybird, 0, leField rest 0 2, leField rest 2 4, leField rest 6 4, leField rest 10 4,
      walV1HeaderLen⟩
  | 2 => do
    let rest ← readExact (walV2HeaderLen - 6) s!"read WAL v2 header: {shortRead}"
    return ⟨.tinybird, leField rest 2 2, leField rest 0 2, leField rest 4 4, leField rest 8 4,
      leField rest 12 4, walV2HeaderLen⟩
  | 3 => do
    let rest ← readExact (walV3HeaderLen - 6) s!"read WAL v3 header: {shortRead}"
    match destinationFromTag (rest.headD 0) with
    | none => throw s!"invalid WAL destination tag {rest.headD 0} at offset {start}"
    | some destination =>
      return ⟨destination, leField rest 3 2, leField rest 1 2, leField rest 5 4, leField rest 9 4,
        leField rest 13 4, walV3HeaderLen⟩
  | _ => throw s!"unsupported WAL version {version} at offset {start}"

/-- Which bytes the checksum covers grew with the version. -/
def checksumInput (version : UInt8) (signal : TelemetrySignal) (destination : ExportDestination)
    (orgId datasource payload : List UInt8) : List UInt8 :=
  [signalTag signal] ++ (if 3 ≤ version then [destinationTag destination] else []) ++
    (if 2 ≤ version then orgId else []) ++ datasource ++ payload

/-- Everything after the version and the signal tag have been read. -/
def readWalBody (host : WalHost) (version : UInt8) (signal : TelemetrySignal) (start : ℕ) :
    Reader DecodedWalFrame := do
  let header ← readWalHeader version start
  let orgId ← readExact header.orgIdLen s!"read WAL org id: {shortRead}"
  let datasource ← readExact header.datasourceLen s!"read WAL datasource: {shortRead}"
  let payload ← readExact header.payloadLen s!"read WAL payload: {shortRead}"
  if (host.crc32 (checksumInput version signal header.destination orgId datasource payload)).toNat
      ≠ header.checksum then
    throw s!"WAL checksum mismatch at offset {start}"
  let orgIdText ← fromUtf8 host "WAL org id utf8 error" orgId
  let datasourceText ← fromUtf8 host "WAL datasource utf8 error" datasource
  return {
    endAt := start + header.headerLen + header.orgIdLen + header.datasourceLen + header.payloadLen
    orgId := orgIdText
    signal := signal
    destination := header.destination
    datasource := datasourceText
    rowCount := max header.rowCount 1
    payload := payload }

/-- Read one frame from the front of `file`; `none` at the end or inside a torn first header. -/
def readWalFrame (host : WalHost) : FrameReader UInt8 DecodedWalFrame String := fun start file =>
  if file.length < 6 then .ok none
  else if file.take 4 ≠ walMagic then .error s!"invalid WAL magic at offset {start}"
  else
    match signalFromTag (file.getD 5 0) with
    | none => .error s!"invalid WAL signal tag {file.getD 5 0} at offset {start}"
    | some signal =>
      (readWalBody host (file.getD 4 0) signal start (file.drop 6)).map some

/-- Every frame of a segment's bytes; a torn or corrupt tail ends the list. -/
def decodeSegmentFrames (host : WalHost) (bytes : List UInt8) : List DecodedWalFrame :=
  decodeStream (readWalFrame host) (·.endAt) bytes.length 0 bytes

/-- The frames the format's length fields can hold. -/
def EncodedFrame.Fits (frame : EncodedFrame) : Prop :=
  (utf8Bytes frame.datasource).length < 256 ^ 2 ∧ (utf8Bytes frame.orgId).length < 256 ^ 2 ∧
    frame.payload.length < 256 ^ 4 ∧ frame.rowCount < 256 ^ 4

instance (frame : EncodedFrame) : Decidable frame.Fits := by
  unfold EncodedFrame.Fits
  infer_instance

def frameChecksum (host : WalHost) (frame : EncodedFrame) : UInt32 :=
  host.crc32 (checksumInput 3 frame.signal frame.destination (utf8Bytes frame.orgId)
    (utf8Bytes frame.datasource) frame.payload)

/-- The version 3 header after the magic, the version and the signal tag. -/
def headerBytes (host : WalHost) (frame : EncodedFrame) : List UInt8 :=
  [destinationTag frame.destination] ++ (leBytes 2 (utf8Bytes frame.datasource).length ++
    (leBytes 2 (utf8Bytes frame.orgId).length ++ (leBytes 4 frame.payload.length ++
      (leBytes 4 frame.rowCount ++ leBytes 4 (frameChecksum host frame).toNat))))

def bodyBytes (host : WalHost) (frame : EncodedFrame) : List UInt8 :=
  headerBytes host frame ++ (utf8Bytes frame.orgId ++ (utf8Bytes frame.datasource ++ frame.payload))

def frameBytes (host : WalHost) (frame : EncodedFrame) : List UInt8 :=
  walMagic ++ [3, signalTag frame.signal] ++ bodyBytes host frame

lemma tryFrom_ok {width n m : ℕ} {err : String} :
    tryFrom width n err = .ok m ↔ n < 256 ^ width ∧ m = n := by
  unfold tryFrom
  split_ifs with h
  · simp [h, eq_comm]
  · simp [h]

lemma except_bind_ok {α β : Type} {x : Except String α} {f : α → Except String β} {b : β} :
    (x >>= f) = .ok b ↔ ∃ a, x = .ok a ∧ f a = .ok b := by
  cases x with
  | error e => simp [bind, Except.bind]
  | ok a => simp [bind, Except.bind]

/-- Encoding succeeds exactly on the frames that fit. -/
lemma encodeWalFrame_ok {host : WalHost} {frame : EncodedFrame} {bytes : List UInt8} :
    encodeWalFrame host frame = .ok bytes ↔ frame.Fits ∧ bytes = frameBytes host frame := by
  unfold encodeWalFrame EncodedFrame.Fits
  simp only [except_bind_ok, tryFrom_ok]
  constructor
  · rintro ⟨_, ⟨hd, rfl⟩, _, ⟨ho, rfl⟩, _, ⟨hp, rfl⟩, _, ⟨hr, rfl⟩, hout⟩
    refine ⟨⟨hd, ho, hp, hr⟩, ?_⟩
    rw [← Except.ok.inj hout]
    simp [frameBytes, bodyBytes, headerBytes, frameChecksum, checksumInput]
  · rintro ⟨⟨hd, ho, hp, hr⟩, rfl⟩
    refine ⟨_, ⟨hd, rfl⟩, _, ⟨ho, rfl⟩, _, ⟨hp, rfl⟩, _, ⟨hr, rfl⟩, congrArg Except.ok ?_⟩
    simp [frameBytes, bodyBytes, headerBytes, frameChecksum, checksumInput]

lemma fromUtf8_utf8Bytes (host : WalHost) (what s : String) :
    fromUtf8 host what (utf8Bytes s) = .ok s := by
  have h : (utf8Bytes s).toByteArray = s.toByteArray := by
    ext1
    simp [utf8Bytes]
  have hvalid : String.fromUTF8? s.toByteArray = some s := by
    rw [String.fromUTF8?, dif_pos s.isValidUTF8]
    rfl
  rw [fromUtf8, h, hvalid]

lemma headerBytes_length (host : WalHost) (frame : EncodedFrame) :
    (headerBytes host frame).length = walV3HeaderLen - 6 := by
  simp [headerBytes, walV3HeaderLen]

/-- The frame as the reader gives it back from offset `start`. -/
def decodedFrame (host : WalHost) (start : ℕ) (frame : EncodedFrame) : DecodedWalFrame where
  endAt := start + (frameBytes host frame).length
  orgId := frame.orgId
  signal := frame.signal
  destination := frame.destination
  datasource := frame.datasource
  rowCount := max frame.rowCount 1
  payload := frame.payload

lemma frameBytes_length (host : WalHost) (frame : EncodedFrame) :
    (frameBytes host frame).length = walV3HeaderLen + (utf8Bytes frame.orgId).length +
      (utf8Bytes frame.datasource).length + frame.payload.length := by
  simp [frameBytes, bodyBytes, headerBytes_length, walMagic, walV3HeaderLen]
  omega

/-- The header of a version 3 frame, read back field by field. -/
lemma readWalHeader_headerBytes {host : WalHost} {frame : EncodedFrame} (hfit : frame.Fits)
    (start : ℕ) (rest : List UInt8) :
    readWalHeader 3 start (headerBytes host frame ++ rest) =
      .ok (⟨frame.destination, (utf8Bytes frame.orgId).length,
        (utf8Bytes frame.datasource).length, frame.payload.length, frame.rowCount,
        (frameChecksum host frame).toNat, walV3HeaderLen⟩, rest) := by
  obtain ⟨hd, ho, hp, hr⟩ := hfit
  have hc : (frameChecksum host frame).toNat < 256 ^ 4 := (frameChecksum host frame).toNat_lt
  generalize hh : headerBytes host frame = header
  have hlen : header.length = walV3HeaderLen - 6 := by rw [← hh, headerBytes_length]
  have hdest : header.headD 0 = destinationTag frame.destination := by rw [← hh]; rfl
  have hds : leField header 1 2 = (utf8Bytes frame.datasource).length := by
    rw [← hh, headerBytes, leField_append (by simp) (by simp), ofLeBytes_leBytes hd]
  have horg : leField header 3 2 = (utf8Bytes frame.orgId).length := by
    rw [← hh, headerBytes, ← List.append_assoc, leField_append (by simp) (by simp),
      ofLeBytes_leBytes ho]
  have hpay : leField header 5 4 = frame.payload.length := by
    rw [← hh, headerBytes, ← List.append_assoc, ← List.append_assoc,
      leField_append (by simp) (by simp), ofLeBytes_leBytes hp]
  have hrow : leField header 9 4 = frame.rowCount := by
    rw [← hh, headerBytes, ← List.append_assoc, ← List.append_assoc, ← List.append_assoc,
      leField_append (by simp) (by simp), ofLeBytes_leBytes hr]
  have hcrc : leField header 13 4 = (frameChecksum host frame).toNat := by
    have hnil : leBytes 4 (frameChecksum host frame).toNat =
        leBytes 4 (frameChecksum host frame).toNat ++ [] := by simp
    rw [← hh, headerBytes, ← List.append_assoc, ← List.append_assoc, ← List.append_assoc,
      ← List.append_assoc, hnil, leField_append (by simp) (by simp), ofLeBytes_leBytes hc]
  have hread : readExact (walV3HeaderLen - 6) s!"read WAL v3 header: {shortRead}"
      (header ++ rest) = .ok (header, rest) := readExact_append hlen
  refine bind_ok.mpr ⟨header, rest, hread, ?_⟩
  simp only [hdest, destinationFromTag_destinationTag, hds, horg, hpay, hrow, hcrc]
  rfl

lemma readWalBody_bodyBytes {host : WalHost} {frame : EncodedFrame} (hfit : frame.Fits)
    (start : ℕ) (rest : List UInt8) :
    readWalBody host 3 frame.signal start (bodyBytes host frame ++ rest) =
      .ok (decodedFrame host start frame, rest) := by
  have hbody : bodyBytes host frame ++ rest = headerBytes host frame ++
      (utf8Bytes frame.orgId ++ (utf8Bytes frame.datasource ++ (frame.payload ++ rest))) := by
    simp [bodyBytes]
  rw [hbody]
  refine bind_ok.mpr ⟨_, _, readWalHeader_headerBytes hfit start _, ?_⟩
  refine bind_ok.mpr ⟨_, _, readExact_append rfl, ?_⟩
  refine bind_ok.mpr ⟨_, _, readExact_append rfl, ?_⟩
  refine bind_ok.mpr ⟨_, _, readExact_append rfl, ?_⟩
  have hsum : (host.crc32 (checksumInput 3 frame.signal frame.destination (utf8Bytes frame.orgId)
      (utf8Bytes frame.datasource) frame.payload)).toNat = (frameChecksum host frame).toNat := rfl
  simp only [hsum, ne_eq, not_true_eq_false, if_false, fromUtf8_utf8Bytes]
  have hend : start + walV3HeaderLen + (utf8Bytes frame.orgId).length +
      (utf8Bytes frame.datasource).length + frame.payload.length =
        start + (frameBytes host frame).length := by
    rw [frameBytes_length]
    omega
  simp only [hend]
  rfl

/-- A frame is read back whole, whatever follows it. -/
theorem readWalFrame_frameBytes (host : WalHost) {frame : EncodedFrame} (hfit : frame.Fits)
    (start : ℕ) (rest : List UInt8) :
    readWalFrame host start (frameBytes host frame ++ rest) =
      .ok (some (decodedFrame host start frame, rest)) := by
  have hlen : ¬ (frameBytes host frame ++ rest).length < 6 := by
    rw [List.length_append, frameBytes_length, walV3HeaderLen]
    omega
  have hmagic : (frameBytes host frame ++ rest).take 4 = walMagic := by
    simp [frameBytes, walMagic]
  have hversion : (frameBytes host frame ++ rest).getD 4 0 = 3 := by
    simp [frameBytes, walMagic]
  have hsignal : (frameBytes host frame ++ rest).getD 5 0 = signalTag frame.signal := by
    simp [frameBytes, walMagic]
  have hbody : (frameBytes host frame ++ rest).drop 6 = bodyBytes host frame ++ rest := by
    simp [frameBytes, walMagic]
  rw [readWalFrame, if_neg hlen, if_neg (by simp [hmagic]), hversion, hsignal, hbody,
    signalFromTag_signalTag]
  simp only [readWalBody_bodyBytes hfit]
  rfl

end Maple.Wal
