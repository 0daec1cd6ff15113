import Mathlib.Data.List.Basic

/-! Which hosts a guarded request may reach: the name blocklist and the rules an IPv4 or IPv6
literal faces, on the text the URL parser hands over. -/

namespace Maple.SafeFetch

def blockedHostnames : List String :=
  ["localhost", "localhost.localdomain", "ip6-localhost", "ip6-loopback", "broadcasthost",
    "metadata", "metadata.google.internal", "metadata.goog", "metadata.azure.com"]

def blockedHostnameSuffixes : List String :=
  ["internal", "local", "localhost", "localdomain", "lan", "home.arpa", "intranet", "corp",
    "cluster.local", "svc"]

def hasBlockedSuffix (name : String) : Bool :=
  blockedHostnameSuffixes.any fun suffix =>
    name == suffix || ("." ++ suffix).toList.isSuffixOf name.toList

/-! ## IPv4 -/

/-- The four octet texts of `IPV4_LITERAL_RE`, when the host is such a literal. -/
def ipv4Octets (host : List Char) : Option (List (List Char)) :=
  let parts := host.splitOn '.'
  if parts.length = 4 ∧ parts.all fun part =>
      part.all Char.isDigit && decide (1 ≤ part.length) && decide (part.length ≤ 3) then
    some parts
  else none

def isIPv4Literal (host : List Char) : Bool := (ipv4Octets host).isSome

/-- One octet of a pattern: its text is one of the alternatives, `\d` written `d`. -/
def octet (alternatives : List String) (text : List Char) : Bool :=
  alternatives.any fun alternative =>
    alternative.toList.length == text.length &&
      (alternative.toList.zip text).all fun (p, c) => if p = 'd' then c.isDigit else p == c

/-- `PRIVATE_IPV4_PATTERNS`: on a dotted quad a prefix pattern ending in `\.` fixes its leading
octets, so each pattern is the list of what these may be. -/
def privateIPv4Patterns : List (List (List String)) :=
  [[["0"]], [["10"]], [["127"]], [["169"], ["254"]],
    [["172"], ["16", "17", "18", "19", "2d", "30", "31"]], [["192"], ["168"]],
    [["100"], ["64", "65", "66", "67", "68", "69", "7d", "8d", "9d", "10d", "11d",
      "120", "121", "122", "123", "124", "125", "126", "127"]],
    [["198"], ["18", "19"]], [["255"], ["255"], ["255"], ["255"]],
    [["192"], ["0"], ["0"]], [["192"], ["0"], ["2"]], [["198"], ["51"], ["100"]],
    [["203"], ["0"], ["113"]],
    [["224", "225", "226", "227", "228", "229", "23d"]],
    [["24d", "250", "251", "252", "253", "254", "255"]]]

def matchesPattern (pattern : List (List String)) (octets : List (List Char)) : Bool :=
  (pattern.zip octets).all fun (alternatives, text) => octet alternatives text

def isPrivateIPv4 (host : List Char) : Bool :=
  match ipv4Octets host with
  | none => false
  | some octets => privateIPv4Patterns.any fun pattern => matchesPattern pattern octets

/-! ## IPv6 -/

def splitDoubleColon : List Char → List (List Char)
  | ':' :: ':' :: rest => [] :: splitDoubleColon rest
  | c :: rest =>
    match splitDoubleColon rest with
    | [] => [[c]]
    | part :: parts => (c :: part) :: parts
  | [] => [[]]

def isHexDigit (c : Char) : Bool :=
  c.isDigit || ('a' ≤ c && c ≤ 'f') || ('A' ≤ c && c ≤ 'F')

def hexValue (c : Char) : Nat :=
  if c.isDigit then c.toNat - '0'.toNat
  else if 'a' ≤ c ∧ c ≤ 'f' then c.toNat - 'a'.toNat + 10
  else c.toNat - 'A'.toNat + 10

def parseHex (text : List Char) : Nat := text.foldl (fun n c => 16 * n + hexValue c) 0

def parseDecimal (text : List Char) : Nat :=
  text.foldl (fun n c => 10 * n + (c.toNat - '0'.toNat)) 0

/-- The text before and with the last colon, and a dotted quad after it. -/
def dottedTail (inner : List Char) : Option (List Char × List Nat) :=
  let tail := (inner.reverse.takeWhile (· ≠ ':')).reverse
  let head := inner.take (inner.length - tail.length)
  if head = [] then none
  else (ipv4Octets tail).map fun octets => (head, octets.map parseDecimal)

def hexTail (quad : List Nat) : List Char :=
  Nat.toDigits 16 (quad.getD 0 0 * 256 + quad.getD 1 0) ++ ':' ::
    Nat.toDigits 16 (quad.getD 2 0 * 256 + quad.getD 3 0)

def parsePart (part : List Char) : List (List Char) :=
  if part = [] then [] else part.splitOn ':'

/-- The eight groups of an IPv6 literal in its hex form. -/
def hexGroups (head : List Char) : Option (List Nat) :=
  let halves := splitDoubleColon head
  if 2 < halves.length then none else
  let left := parsePart (halves.getD 0 [])
  let right := if halves.length = 2 then parsePart (halves.getD 1 []) else []
  let present := left.length + right.length
  if (if halves.length = 2 then 8 ≤ present else present ≠ 8) then none else
  let groups := left ++ List.replicate (8 - present) ['0'] ++ right
  if groups.all fun group =>
      group.all isHexDigit && decide (1 ≤ group.length) && decide (group.length ≤ 4) then
    some (groups.map parseHex)
  else none

def ipv6Groups (inner : List Char) : Option (List Nat) :=
  match dottedTail inner with
  | none => hexGroups inner
  | some (head, quad) =>
    if quad.any (255 < ·) then none else hexGroups (head ++ hexTail quad)

def dottedFrom (hi lo : Nat) : List Char :=
  let text n := Nat.toDigits 10 n
  text (hi >>> 8 &&& 0xff) ++ '.' :: text (hi &&& 0xff) ++ '.' ::
    text (lo >>> 8 &&& 0xff) ++ '.' :: text (lo &&& 0xff)

def zeroed (groups : List Nat) (start stop : Nat) : Bool :=
  ((groups.take stop).drop start).all (· == 0)

def isPrivateIPv6Groups (groups : List Nat) : Bool :=
  let g i := groups.getD i 0
  if zeroed groups 0 6 then true
  else if g 0 &&& 0xfe00 = 0xfc00 ∨ g 0 &&& 0xff00 = 0xff00 then true
  else if g 0 &&& 0xffc0 = 0xfe80 ∨ g 0 &&& 0xffc0 = 0xfec0 then true
  else if zeroed groups 0 4 ∧ g 4 = 0xffff ∧ g 5 = 0 then true
  else if g 0 = 0x64 ∧ g 1 = 0xff9b ∧ g 2 = 1 then true
  else if g 0 = 0x2001 ∧ g 1 = 0 then true
  else if zeroed groups 0 5 ∧ g 5 = 0xffff then isPrivateIPv4 (dottedFrom (g 6) (g 7))
  else if g 0 = 0x64 ∧ g 1 = 0xff9b ∧ zeroed groups 2 6 then
    isPrivateIPv4 (dottedFrom (g 6) (g 7))
  else if g 0 = 0x2002 then isPrivateIPv4 (dottedFrom (g 1) (g 2))
  else false

/-- The text between the brackets of a URL host. -/
def unbracket (host : List Char) : List Char :=
  if host.head? = some '[' ∧ host.getLast? = some ']' then host.tail.dropLast else host

def isPrivateIPv6 (host : List Char) : Bool :=
  let inner := unbracket host
  match ipv6Groups inner with
  | none => host.head? == some '[' || inner.contains ':'
  | some groups => isPrivateIPv6Groups groups

/-! ## Hosts and addresses -/

/-- Lower case, and without the trailing dot of a fully qualified name. -/
def canonicalHostname (hostname : String) : String :=
  let lower := hostname.toLower
  if lower.toList.getLast? = some '.' then String.ofList lower.toList.dropLast else lower

def isPrivateHost (hostname : String) : Bool :=
  let lower := canonicalHostname hostname
  blockedHostnames.contains lower || hasBlockedSuffix lower || isPrivateIPv4 lower.toList ||
    isPrivateIPv6 lower.toList

/-- The host is already an address: nothing is left to resolve. -/
def isLiteralHost (hostname : String) : Bool :=
  let canonical := (canonicalHostname hostname).toList
  isIPv4Literal canonical || canonical.head? == some '['

/-- A resolved address, judged by the same rules as a literal host. -/
def isPrivateAddress (address : String) : Bool :=
  if address.toList.contains ':' then isPrivateIPv6 address.toList
  else !isIPv4Literal address.toList || isPrivateIPv4 address.toList

/-! ## What the text rules mean

An address as a number, and the ranges the rules refuse. -/

inductive Address
  | v4 (octets : List Nat)
  | v6 (groups : List Nat)
deriving Repr, DecidableEq

/-- The address a text in the usual notation stands for: decimal octets without leading zeros, or
the groups of an IPv6 literal. -/
def addressOf (text : List Char) : Option Address :=
  if text.all fun c => isHexDigit c || c == ':' || c == '.' then
    if text.contains ':' then (ipv6Groups text).map .v6
    else
      match ipv4Octets text with
      | none => none
      | some octets =>
        let values := octets.map parseDecimal
        if values.all (· < 256) ∧ values.map (Nat.toDigits 10) = octets then some (.v4 values)
        else none
  else none

/-- The octets each refused IPv4 range allows in its leading places. -/
def privateIPv4Ranges : List (List (List Nat)) :=
  [[[0]], [[10]], [[127]], [[169], [254]], [[172], List.range' 16 16], [[192], [168]],
    [[100], List.range' 64 64], [[198], [18, 19]], [[255], [255], [255], [255]],
    [[192], [0], [0]], [[192], [0], [2]], [[198], [51], [100]], [[203], [0], [113]],
    [List.range' 224 16], [List.range' 240 16]]

/-- The first octets of the address lie in a refused range. -/
def InRange (range : List (List Nat)) (octets : List Nat) : Prop :=
  ∀ place ∈ range.zip octets, place.2 ∈ place.1

/-- The octets whose decimal text one of the alternatives matches. -/
def octetValues (alternatives : List String) : List Nat :=
  (List.range 256).filter fun n => octet alternatives (Nat.toDigits 10 n)

lemma octet_toDigits (alternatives : List String) {n : Nat} (hn : n < 256) :
    octet alternatives (Nat.toDigits 10 n) = true ↔ n ∈ octetValues alternatives := by
  simp [octetValues, hn]

lemma matchesPattern_toDigits (pattern : List (List String)) (octets : List Nat)
    (hn : ∀ n ∈ octets, n < 256) :
    matchesPattern pattern (octets.map (Nat.toDigits 10)) = true ↔
      InRange (pattern.map octetValues) octets := by
  induction pattern generalizing octets with
  | nil => simp [matchesPattern, InRange]
  | cons alternatives pattern ih =>
    cases octets with
    | nil => simp [matchesPattern, InRange]
    | cons n octets =>
      have hrest := ih octets fun m hm => hn m (by simp [hm])
      have hfirst := octet_toDigits alternatives (hn n (by simp))
      simp only [matchesPattern, InRange] at hrest ⊢
      simp only [List.map_cons, List.zip_cons_cons, List.all_cons, Bool.and_eq_true, hfirst,
        hrest, List.forall_mem_cons]

/-- The regular expressions spell out the ranges. -/
lemma privateIPv4Patterns_values :
    privateIPv4Patterns.map (List.map octetValues) = privateIPv4Ranges := by
  decide +kernel

lemma isPrivateIPv4_octets {text : List Char} {octets : List Nat}
    (htext : ipv4Octets text = some (octets.map (Nat.toDigits 10)))
    (hn : ∀ n ∈ octets, n < 256) :
    isPrivateIPv4 text = true ↔ ∃ range ∈ privateIPv4Ranges, InRange range octets := by
  rw [isPrivateIPv4, htext, ← privateIPv4Patterns_values]
  simp only [List.any_eq_true, List.mem_map, exists_exists_and_eq_and]
  exact exists_congr fun pattern =>
    and_congr_right fun _ => matchesPattern_toDigits pattern octets hn

end Maple.SafeFetch
