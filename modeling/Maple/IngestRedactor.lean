import Maple.IngestRecord

/-! The gateway's redactor: one redact rule applied to the values of one record. -/

namespace Maple.IngestGateway
open IngestRules (KeyGlob keyMatches)

/-! ### Detectors -/

def Detector.mask : Detector → String
  | .email => "[REDACTED:email]"
  | .creditCard => "[REDACTED:credit_card]"
  | .jwt => "[REDACTED:jwt]"
  | .apiToken => "[REDACTED:api_token]"
  | .ipv4 => "[REDACTED:ipv4]"
  | .ipv6 => "[REDACTED:ipv6]"
  | .phone => "[REDACTED:phone]"
  | .iban => "[REDACTED:iban]"

def asciiDigit (c : Char) : Bool := '0' ≤ c && c ≤ '9'

def asciiUpper (c : Char) : Bool := 'A' ≤ c && c ≤ 'Z'

def asciiLower (c : Char) : Bool := 'a' ≤ c && c ≤ 'z'

def asciiAlphanumeric (c : Char) : Bool := asciiDigit c || asciiUpper c || asciiLower c

def asciiHexDigit (c : Char) : Bool :=
  asciiDigit c || ('a' ≤ c && c ≤ 'f') || ('A' ≤ c && c ≤ 'F')

/-- The characters right before and after the match are not ASCII letters or digits. -/
def bounded (text : List Char) (start stop : ℕ) : Bool :=
  !(decide (0 < start) && text[start - 1]?.any asciiAlphanumeric) &&
    !text[stop]?.any asciiAlphanumeric

def digitCount (text : List Char) : ℕ := text.countP asciiDigit

def luhn (text : List Char) : Bool :=
  let digits := text.reverse.filter asciiDigit
  let sum := (digits.zipIdx.map fun (c, index) =>
    let digit := c.toNat - 48
    if index % 2 = 1 then if 9 < digit * 2 then digit * 2 - 9 else digit * 2 else digit).sum
  sum % 10 = 0

/-- The remainder after one more character; none for what is no digit and no capital. -/
def ibanStep (remainder : ℕ) (c : Char) : Option ℕ :=
  if asciiDigit c then some ((remainder * 10 + (c.toNat - 48)) % 97)
  else if asciiUpper c then some ((remainder * 100 + (c.toNat - 65) + 10) % 97)
  else none

def ibanMod97 (text : List Char) : Bool :=
  let compact := text.filter (· ≠ ' ')
  if compact.length < 5 then false
  else (compact.drop 4 ++ compact.take 4).foldlM ibanStep 0 = some 1

/-- Non-overlapping occurrences of two colons in a row. -/
def doubleColons : List Char → ℕ
  | ':' :: ':' :: rest => doubleColons rest + 1
  | _ :: rest => doubleColons rest
  | [] => 0

def ipv6Shape (candidate : List Char) : Bool :=
  let colons := candidate.count ':'
  let double := doubleColons candidate
  (double = 1 && colons ≤ 7 || colons = 7 && double = 0) && candidate.any asciiHexDigit

/-- The check a detector's candidate must pass to be redacted. -/
def detectorAccepts (detector : Detector) (text : List Char) (start stop : ℕ) : Bool :=
  let candidate := (text.drop start).take (stop - start)
  match detector with
  | .email | .jwt => true
  | .creditCard =>
    let digits := digitCount candidate
    bounded text start stop && (13 ≤ digits && digits ≤ 19) && luhn candidate
  | .apiToken => bounded text start stop
  | .ipv4 =>
    let beforeDot := decide (0 < start) && text[start - 1]? == some '.'
    let afterDot := text[stop]? == some '.' && text[stop + 1]?.any asciiDigit
    bounded text start stop && !beforeDot && !afterDot
  | .ipv6 =>
    let beforeColon := decide (0 < start) && text[start - 1]? == some ':'
    let afterColon := text[stop]? == some ':'
    bounded text start stop && !beforeColon && !afterColon && ipv6Shape candidate
  | .phone => bounded text start stop && (10 ≤ digitCount candidate && digitCount candidate ≤ 15)
  | .iban => bounded text start stop && ibanMod97 candidate

/-! ### Strings -/

/-- The gateway's own routing and billing stamps. -/
def isProtectedKey (key : String) : Bool :=
  key = "service.name" || key = "org_id" ||
    ("maple_".toList.isPrefixOf key.toList &&
      let rest := key.toList.drop 6
      !rest.isEmpty && rest.all fun c => asciiLower c || asciiDigit c || c = '_')

def MASK : String := "[REDACTED]"

def textBytes (text : List Char) : List UInt8 := text.flatMap String.utf8EncodeChar

def hashText (lib : Libraries) (salt : List UInt8) (text : List Char) : List Char :=
  "hash:".toList ++
    (pushHex ((lib.hmacSha256 salt (textBytes text)).take 8)).map fun byte => Char.ofNat byte.toNat

section Redactor
variable (lib : Libraries) (salt : List UInt8) (redaction : Redaction)

def scansText : Bool := !redaction.detectors.isEmpty || !redaction.patterns.isEmpty

def replacement (label : String) (found : List Char) : List Char :=
  match redaction.method with
  | .hash => hashText lib salt found
  | .mask | .remove => label.toList

/-- The rest of a search from `position`, with the text copied up to `copied`: each accepted match
replaced by the label, a rejected or empty one resumed one character later. -/
def replaceFrom (regex : Regex) (accepts : ℕ → ℕ → Bool) (label : String) (text : List Char)
    (copied position : ℕ) : List Char :=
  if _hin : position ≤ text.length then
    match hfound : regex.findAt text position with
    | none => text.drop copied
    | some (start, stop) =>
      have := regex.within _ _ _ _ hfound
      if _hkept : start < stop ∧ accepts start stop = true then
        (text.drop copied).take (start - copied) ++
          replacement lib salt redaction label ((text.drop start).take (stop - start)) ++
          replaceFrom regex accepts label text stop stop
      else replaceFrom regex accepts label text copied (start + 1)
  else text.drop copied
termination_by text.length + 1 - position

def replaceDetector (detector : Detector) (text : List Char) : List Char :=
  replaceFrom lib salt redaction (lib.detectorRegex detector) (detectorAccepts detector text)
    detector.mask text 0 0

/-- Plain leftmost, non-overlapping replacement; empty matches are ignored. -/
def replacePattern (pattern : Regex) (text : List Char) : List Char :=
  replaceFrom lib salt redaction pattern (fun _ _ => true) MASK text 0 0

/-- Runs detectors, then patterns, over the first `SCAN_BYTES` of the string. -/
def scanString (text : String) : String :=
  if !scansText redaction then text
  else
    let cut := floorCharBoundary text.toList SCAN_BYTES
    let head := redaction.detectors.foldl (fun head detector =>
      replaceDetector lib salt redaction detector head) (text.toList.take cut)
    let head := redaction.patterns.foldl (fun head pattern =>
      replacePattern lib salt redaction pattern head) head
    String.ofList (head ++ text.toList.drop cut)

/-! ### Values and attributes -/

def stringValue (text : String) : Option AnyValue := some (.mk (some (.stringValue text)))

/-- What stands for the value of an entry whose key matches; none when the entry is removed. -/
def keyReplacement (value : Option AnyValue) : Option (Option AnyValue) :=
  match redaction.method with
  | .remove => none
  | .mask => some (stringValue MASK)
  | .hash =>
    match value.bind AnyValue.value with
    | some (.stringValue text) => some (stringValue (String.ofList (hashText lib salt text.toList)))
    | _ => some (stringValue MASK)

mutual

/-- Searches a value recursively; only the entries of a list of entries have keys. -/
def redactValue : AnyValue → AnyValue
  | .mk none => .mk none
  | .mk (some value) => .mk (some (redactSetValue value))

def redactSetValue : Value → Value
  | .stringValue text => .stringValue (scanString lib salt redaction text)
  | .arrayValue values => .arrayValue (redactValues values)
  | .kvlistValue values => .kvlistValue (redactEntries false values)
  | .boolValue flag => .boolValue flag
  | .intValue int => .intValue int
  | .doubleValue bits => .doubleValue bits
  | .bytesValue bytes => .bytesValue bytes

def redactValues : List AnyValue → List AnyValue
  | [] => []
  | value :: values => redactValue value :: redactValues values

/-- Entries in place; protected keys only route and bill at the top level. -/
def redactEntries (topLevel : Bool) : List KeyValue → List KeyValue
  | [] => []
  | .mk key value :: entries =>
    if topLevel && isProtectedKey key then .mk key value :: redactEntries topLevel entries
    else if keyMatches lib.toLowercase redaction.keys key then
      match keyReplacement lib salt redaction value with
      | some value => .mk key value :: redactEntries topLevel entries
      | none => redactEntries topLevel entries
    else .mk key (redactSome value) :: redactEntries topLevel entries

def redactSome : Option AnyValue → Option AnyValue
  | none => none
  | some value => some (redactValue value)

end

/-- Redacts a record's, resource's, event's or exemplar's attributes. -/
def redactAttributes (attributes : List KeyValue) : List KeyValue :=
  redactEntries lib salt redaction true attributes

end Redactor

end Maple.IngestGateway
