import Maple.SafeFetchHost

/-! The guarded HTTP client: every hop of a redirect chain is validated, optionally pinned to a
resolved address, and stripped of what a new origin must not see. -/

namespace Maple.SafeFetch

/-! ## Requests -/

/-- Header names are stored in lower case. -/
structure Headers where
  entries : List (String × String)
  lower : ∀ entry ∈ entries, entry.1.toLower = entry.1

def Headers.names (headers : Headers) : List String := headers.entries.map Prod.fst

/-- The headers whose name `keep` accepts. -/
def Headers.filter (headers : Headers) (keep : String → Bool) : Headers where
  entries := headers.entries.filter fun entry => keep entry.1
  lower entry hentry := headers.lower entry (List.mem_of_mem_filter hentry)

def Headers.remove (headers : Headers) (name : String) : Headers :=
  headers.filter fun key => key != name.toLower

def Headers.set (headers : Headers) (name value : String) (hname : name.toLower = name) :
    Headers where
  entries := (headers.remove name).entries ++ [(name, value)]
  lower entry hentry := by
    rcases List.mem_append.mp hentry with h | h
    · exact (headers.remove name).lower entry h
    · simp_all

lemma host_lower : "host".toLower = "host" := by with_unfolding_all decide

inductive HttpBody
  | empty
  | content (bytes : List UInt8)
deriving Repr, DecidableEq

structure Request where
  method : String
  url : String
  urlParams : List (String × String)
  hash : Option String
  headers : Headers
  body : HttpBody

def Request.removeHeader (request : Request) (name : String) : Request :=
  { request with headers := request.headers.remove name }

/-- `HttpClientRequest.setBody` with the empty body, which also drops its description. -/
def Request.clearBody (request : Request) : Request :=
  { request with
    headers := (request.headers.remove "content-type").remove "content-length", body := .empty }

/-- What the runtime's `URL` class and `Url.make` answer. -/
structure UrlApi (Url : Type) where
  /-- `new URL(text)`; `none` where `URL.canParse` is false. -/
  parse : String → Option Url
  /-- `new URL(location, base)`. -/
  parseFrom : String → Url → Option Url
  /-- `Url.make` of a request's address, params and hash. -/
  make : String → List (String × String) → Option String → Option Url
  /-- What `HttpClientRequest.setUrl` stores for a `URL`. -/
  parts : Url → String × List (String × String) × Option String
  /-- The `hostname` setter on a copy. -/
  withHostname : Url → String → Url
  href : Url → String
  protocol : Url → String
  username : Url → String
  password : Url → String
  host : Url → String
  hostname : Url → String
  origin : Url → String

def Request.setUrl {Url : Type} (api : UrlApi Url) (request : Request) (url : Url) : Request :=
  { request with
    url := (api.parts url).1, urlParams := (api.parts url).2.1, hash := (api.parts url).2.2 }

inductive FetchError (E : Type)
  | urlValidation (message : String) (url : Option String)
  | hostResolution (message hostname : String)
  | client (error : E)
deriving Repr, DecidableEq

structure Response where
  status : Nat
  location : Option String
deriving Repr, DecidableEq

/-- What one hop meets outside: the resolver's answer and the server's. -/
structure Answer (E : Type) where
  resolution : Except (String × String) (List String)
  response : Except E Response

structure GuardOptions where
  strictRedirects : Bool := false
  ownHeaders : List String := []

def maxRedirects : Nat := 5

def credentialHeaders : List String := ["authorization", "cookie", "proxy-authorization"]

def withoutCredentialHeaders (request : Request) : Request :=
  credentialHeaders.foldl Request.removeHeader request

def withoutHeaders (request : Request) (keep : List String) : Request :=
  (request.headers.names.filter fun name => !keep.contains name.toLower).foldl
    Request.removeHeader request

def seeOtherStatuses : List Nat := [301, 302, 303]

def strictRedirectRequest (request : Request) (status : Nat) (crossOrigin : Bool) : Request :=
  if !seeOtherStatuses.contains status && !crossOrigin then request
  else if request.method = "HEAD" then request.clearBody
  else { request.clearBody with method := "GET" }

/-! ## Validation -/

/-- The white space and line terminators `String.prototype.trim` removes. -/
def isTrimmed (c : Char) : Bool :=
  ['\t', '\n', '\x0b', '\x0c', '\r', ' ', '\u00a0', '\u1680', '\u2028', '\u2029', '\u202f',
    '\u205f', '\u3000', '\ufeff'].contains c || ('\u2000' ≤ c && c ≤ '\u200a')

/-- The printable ASCII characters but the space. -/
def isVisible (c : Char) : Bool := '!' ≤ c && c ≤ '~'

lemma isTrimmed_of_visible {c : Char} (h : isVisible c) : isTrimmed c = false := by
  rw [Bool.eq_false_iff]
  intro htrim
  simp only [isTrimmed, Bool.or_eq_true, List.contains_iff_mem, List.mem_cons, List.not_mem_nil,
    or_false, Bool.and_eq_true, decide_eq_true_eq] at htrim
  rcases htrim with htrim | ⟨hlow, -⟩
  · rcases htrim with rfl | rfl | rfl | rfl | rfl | rfl | rfl | rfl | rfl | rfl | rfl | rfl |
      rfl | rfl
    all_goals revert h; decide
  · simp only [isVisible, Bool.and_eq_true, decide_eq_true_eq] at h
    exact absurd (Char.le_trans hlow h.2) (by decide)

def trim (text : String) : String :=
  String.ofList ((text.toList.dropWhile isTrimmed).reverse.dropWhile isTrimmed).reverse

section Guard

variable {Url E : Type} (api : UrlApi Url)

def parseExternalUrl (raw : String) : Except (FetchError E) Url :=
  let trimmed := trim raw
  if trimmed = "" then .error (.urlValidation "URL is required" none) else
  match api.parse trimmed with
  | none => .error (.urlValidation ("Invalid URL: " ++ trimmed) (some trimmed))
  | some parsed =>
    if api.protocol parsed ≠ "http:" ∧ api.protocol parsed ≠ "https:" then
      .error (.urlValidation
        ("URL scheme '" ++ api.protocol parsed ++ "' is not allowed; use http or https")
        (some trimmed))
    else if api.hostname parsed = "" then
      .error (.urlValidation "URL must include a hostname" (some trimmed))
    else if api.username parsed ≠ "" ∨ api.password parsed ≠ "" then
      .error (.urlValidation "URL must not embed credentials" (some trimmed))
    else if isPrivateHost (api.hostname parsed) then
      .error (.urlValidation ("URL host '" ++ api.hostname parsed ++
        "' is not allowed (loopback, private, or metadata range)") (some trimmed))
    else .ok parsed

/-- The full URL a request targets. -/
def requestUrl (request : Request) : Except (FetchError E) Url :=
  match api.make request.url request.urlParams request.hash with
  | none => .error (.urlValidation ("Invalid URL: " ++ request.url) (some request.url))
  | some url => .ok url

/-! ## One hop -/

structure Dial where
  request : Request
  serverName : Option String

/-- The text the `hostname` setter is given for an address. -/
def addressHost (address : String) : String :=
  if address.toList.contains ':' then "[" ++ address ++ "]" else address

/-- `pinTo`, on the resolver's answer for this hop. -/
def pinTo (resolution : Except (String × String) (List String)) (request : Request) (url : Url) :
    Except (FetchError E) Dial :=
  let hostname := canonicalHostname (api.hostname url)
  if isLiteralHost (api.hostname url) then .ok ⟨request, none⟩ else
  match resolution with
  | .error (message, name) => .error (.hostResolution message name)
  | .ok addresses =>
    let first := (addresses.find? fun address => !address.toList.contains ':').or addresses.head?
    match first with
    | none => .error (.urlValidation ("URL host '" ++ api.hostname url ++
        "' resolves to a loopback, private, or metadata address") none)
    | some first =>
      if addresses.any isPrivateAddress then
        .error (.urlValidation ("URL host '" ++ api.hostname url ++
          "' resolves to a loopback, private, or metadata address") none)
      else
        let pinned := request.setUrl api (api.withHostname url (addressHost first))
        .ok ⟨{ pinned with headers := pinned.headers.set "host" (api.host url) host_lower },
          some hostname⟩

/-- `guard` sends the request as it is, `guardPinned` resolves its host first. -/
def dial (pinned : Bool) (resolution : Except (String × String) (List String))
    (request : Request) (url : Url) : Except (FetchError E) Dial :=
  if pinned then pinTo api resolution request url else .ok ⟨request, none⟩

/-- What a hop hands the client, with the URL it validated for it. -/
structure Sent (Url : Type) where
  validated : Url
  outgoing : Request
  dialed : Dial
  resolution : Except (String × String) (List String)

structure Chain (Url E : Type) where
  sent : List (Sent Url)
  result : Except (FetchError E) Response

variable (options : GuardOptions) (pinned : Bool)

def ownHeaders : List String := options.ownHeaders.map String.toLower

/-- The request after the strip a change of origin brings. -/
def outgoingRequest (request : Request) (previousOrigin : Option String) (validated : Url) :
    Request :=
  match previousOrigin with
  | none => request
  | some origin =>
    if api.origin validated ≠ origin then
      if options.strictRedirects then withoutHeaders request (ownHeaders options)
      else withoutCredentialHeaders request
    else request

/-- The request the next hop starts from. -/
def nextRequest (outgoing : Request) (status : Nat) (validated target : Url) : Request :=
  (if options.strictRedirects then
    strictRedirectRequest outgoing status (api.origin target != api.origin validated)
  else outgoing).setUrl api target

/-- One hop of a chain that may still follow `left` redirects; `answers` are what the hops meet,
in order. -/
def hop (answers : Nat → Answer E) : Nat → Request → Option String → Chain Url E
  | left, request, previousOrigin =>
    match requestUrl api request with
    | .error e => ⟨[], .error e⟩
    | .ok url =>
    match parseExternalUrl api (api.href url) with
    | .error e => ⟨[], .error e⟩
    | .ok validated =>
    let outgoing := outgoingRequest api options request previousOrigin validated
    let answer := answers (maxRedirects - left)
    match dial api pinned answer.resolution outgoing validated with
    | .error e => ⟨[], .error e⟩
    | .ok dialed =>
    let sent : Sent Url := ⟨validated, outgoing, dialed, answer.resolution⟩
    match answer.response with
    | .error e => ⟨[sent], .error (.client e)⟩
    | .ok response =>
    if response.status < 300 ∨ 400 ≤ response.status then ⟨[sent], .ok response⟩ else
    -- an empty Location resolves to the current URL
    if response.location.getD "" = "" then ⟨[sent], .ok response⟩ else
    match left with
    | 0 => ⟨[sent], .error (.urlValidation "Too many redirects (>5)"
        (some (api.href validated)))⟩
    | left + 1 =>
      match api.parseFrom (response.location.getD "") validated with
      | none => ⟨[sent],
          .error (.urlValidation "Redirect has an invalid Location header" none)⟩
      | some target =>
        let next := nextRequest api options outgoing response.status validated target
        let rest := hop answers left next (some (api.origin validated))
        ⟨sent :: rest.sent, rest.result⟩

end Guard

end Maple.SafeFetch
