import Maple.SafeFetch

/-! Whole chains of guarded hops: every hop is validated and dialed where it may be, and what one
change of origin strips never comes back. -/

namespace Maple.SafeFetch

/-! ## Headers -/

lemma Headers.mem_remove {headers : Headers} {name : String} {entry : String × String} :
    entry ∈ (headers.remove name).entries ↔ entry ∈ headers.entries ∧ entry.1 ≠ name.toLower := by
  simp [Headers.remove, Headers.filter]

lemma Headers.mem_set {headers : Headers} {name value : String} (hname : name.toLower = name)
    {entry : String × String} (h : entry ∈ (headers.set name value hname).entries) :
    entry ∈ headers.entries ∨ entry = (name, value) := by
  rcases List.mem_append.mp h with h | h
  · exact .inl (Headers.mem_remove.mp h).1
  · exact .inr (by simpa using h)

/-- Two requests that may differ in their headers only. -/
def SameBut (request other : Request) : Prop := { request with headers := other.headers } = other

lemma sameBut_foldl_removeHeader (names : List String) (request : Request) :
    SameBut request (names.foldl Request.removeHeader request) := by
  induction names generalizing request with
  | nil => rfl
  | cons name names ih => exact ih (request.removeHeader name)

/-- Removing headers one by one leaves those none of the names removes. -/
lemma mem_foldl_removeHeader (names : List String) (request : Request)
    (entry : String × String) :
    entry ∈ (names.foldl Request.removeHeader request).headers.entries ↔
      entry ∈ request.headers.entries ∧ ∀ name ∈ names, entry.1 ≠ name.toLower := by
  induction names generalizing request with
  | nil => simp
  | cons name names ih =>
    rw [List.foldl_cons, ih]
    simp [Request.removeHeader, Headers.mem_remove, and_assoc]

lemma mem_withoutHeaders {request : Request} {keep : List String} {entry : String × String}
    (h : entry ∈ (withoutHeaders request keep).headers.entries) :
    entry ∈ request.headers.entries ∧ entry.1 ∈ keep := by
  obtain ⟨hentry, hkept⟩ := (mem_foldl_removeHeader _ _ _).mp h
  refine ⟨hentry, ?_⟩
  have hlower := request.headers.lower entry hentry
  by_contra hout
  refine hkept entry.1 (List.mem_filter.mpr ⟨List.mem_map_of_mem hentry, ?_⟩) hlower.symm
  simpa [hlower] using hout

lemma credentialHeaders_lower : ∀ name ∈ credentialHeaders, name.toLower = name := by
  with_unfolding_all decide

lemma mem_withoutCredentialHeaders {request : Request} {entry : String × String}
    (h : entry ∈ (withoutCredentialHeaders request).headers.entries) :
    entry ∈ request.headers.entries ∧ entry.1 ∉ credentialHeaders := by
  obtain ⟨hentry, hkept⟩ := (mem_foldl_removeHeader _ _ _).mp h
  exact ⟨hentry, fun hname => hkept _ hname (credentialHeaders_lower _ hname).symm⟩

lemma mem_clearBody {request : Request} {entry : String × String}
    (h : entry ∈ request.clearBody.headers.entries) : entry ∈ request.headers.entries :=
  (Headers.mem_remove.mp (Headers.mem_remove.mp h).1).1

/-- A strict redirect adds no header. -/
lemma mem_strictRedirectRequest {request : Request} {status : Nat} {crossOrigin : Bool}
    {entry : String × String}
    (h : entry ∈ (strictRedirectRequest request status crossOrigin).headers.entries) :
    entry ∈ request.headers.entries := by
  unfold strictRedirectRequest at h
  split_ifs at h
  · exact h
  · exact mem_clearBody h
  · exact mem_clearBody h

lemma strictRedirectRequest_body (request : Request) (status : Nat) (crossOrigin : Bool)
    (h : crossOrigin = true ∨ request.body = .empty) :
    (strictRedirectRequest request status crossOrigin).body = .empty := by
  unfold strictRedirectRequest
  split_ifs with hkeep
  · simp_all
  · rfl
  · rfl

section Guard

variable {Url E : Type} {api : UrlApi Url} {options : GuardOptions} {pinned : Bool}

/-- What the runtime's URLs guarantee: a URL survives being written and read back, a request built
from it reaches the same origin and host, and an address given to the `hostname` setter of an http
URL becomes its host. -/
structure UrlLaws (api : UrlApi Url) : Prop where
  parse_href : ∀ url, api.parse (trim (api.href url)) = some url
  make_parts : ∀ url made,
    api.make (api.parts url).1 (api.parts url).2.1 (api.parts url).2.2 = some made →
    api.origin made = api.origin url ∧ api.hostname made = api.hostname url
  hostname_address : ∀ url address a, api.protocol url = "http:" ∨ api.protocol url = "https:" →
    addressOf address.toList = some a →
    addressOf (unbracket (api.hostname (api.withHostname url (addressHost address))).toList) =
      some a

/-- What a request carries once it may no longer carry anything of its first origin. -/
structure Stripped (options : GuardOptions) (request : Request) : Prop where
  credentials : ∀ entry ∈ request.headers.entries, entry.1 ∈ credentialHeaders →
    options.strictRedirects = true ∧ entry.1 ∈ ownHeaders options
  own : options.strictRedirects = true →
    ∀ entry ∈ request.headers.entries, entry.1 ∈ ownHeaders options
  body : options.strictRedirects = true → request.body = .empty

/-- The hop of `request` sent `sent`. -/
structure IsHop (api : UrlApi Url) (options : GuardOptions) (pinned : Bool)
    (answers : Nat → Answer E) (request : Request) (previousOrigin : Option String)
    (sent : Sent Url) : Prop where
  requested : ∃ url, requestUrl (E := E) api request = .ok url ∧
    parseExternalUrl (E := E) api (api.href url) = .ok sent.validated
  outgoing : sent.outgoing = outgoingRequest api options request previousOrigin sent.validated
  answered : ∃ i, sent.resolution = (answers i).resolution
  dialed : dial (E := E) api pinned sent.resolution sent.outgoing sent.validated = .ok sent.dialed

variable {answers : Nat → Answer E}

lemma ite_error_eq_ok {ε α : Type} {c : Prop} [Decidable c] {e : ε} {x : Except ε α} {y : α} :
    (if c then .error e else x) = .ok y ↔ ¬ c ∧ x = .ok y := by
  by_cases hc : c <;> simp [hc]

lemma parseExternalUrl_ok {raw : String} {url : Url}
    (h : parseExternalUrl (E := E) api raw = .ok url) :
    api.parse (trim raw) = some url ∧
      (api.protocol url = "http:" ∨ api.protocol url = "https:") := by
  simp only [parseExternalUrl, ite_error_eq_ok] at h
  obtain ⟨-, h⟩ := h
  cases hparsed : api.parse (trim raw) with
  | none => simp only [hparsed, reduceCtorEq] at h
  | some parsed =>
    simp only [hparsed, ite_error_eq_ok, Except.ok.injEq] at h
    obtain ⟨hprotocol, -, -, -, rfl⟩ := h
    exact ⟨rfl, or_iff_not_and_not.mpr hprotocol⟩

/-- A hop validates the URL its request targets, and nothing else. -/
lemma IsHop.url (laws : UrlLaws api) {request : Request} {previousOrigin : Option String}
    {sent : Sent Url} (h : IsHop api options pinned answers request previousOrigin sent) :
    requestUrl (E := E) api request = .ok sent.validated ∧
      parseExternalUrl (E := E) api (api.href sent.validated) = .ok sent.validated := by
  obtain ⟨url, hurl, hvalid⟩ := h.requested
  have hsame : url = sent.validated := by
    have hparse := (parseExternalUrl_ok hvalid).1
    rw [laws.parse_href url] at hparse
    exact Option.some_inj.mp hparse
  rw [hsame] at hurl hvalid
  exact ⟨hurl, hvalid⟩

variable (api options) in
/-- The strip a change of origin brings touches nothing but headers. -/
lemma outgoingRequest_sameBut (request : Request) (previousOrigin : Option String)
    (validated : Url) :
    SameBut request (outgoingRequest api options request previousOrigin validated) := by
  cases previousOrigin with
  | none => rfl
  | some origin =>
    simp only [outgoingRequest]
    split_ifs
    · exact sameBut_foldl_removeHeader _ _
    · exact sameBut_foldl_removeHeader _ _
    · rfl

lemma SameBut.requestUrl {request other : Request} (h : SameBut request other) :
    requestUrl (E := E) api other = requestUrl api request := by
  rw [← h]
  rfl

lemma SameBut.body {request other : Request} (h : SameBut request other) :
    other.body = request.body := by
  rw [← h]

/-- No hop adds a header to what it was handed. -/
lemma mem_outgoingRequest {request : Request} {previousOrigin : Option String} {validated : Url}
    {entry : String × String}
    (h : entry ∈
      (outgoingRequest api options request previousOrigin validated).headers.entries) :
    entry ∈ request.headers.entries := by
  cases previousOrigin with
  | none => exact h
  | some origin =>
    simp only [outgoingRequest] at h
    split_ifs at h
    · exact (mem_withoutHeaders h).1
    · exact (mem_withoutCredentialHeaders h).1
    · exact h

/-! ## Stripped requests stay stripped -/

lemma Stripped.outgoing {request : Request} (h : Stripped options request)
    (previousOrigin : Option String) (validated : Url) :
    Stripped options (outgoingRequest api options request previousOrigin validated) where
  credentials entry hentry := h.credentials entry (mem_outgoingRequest hentry)
  own hstrict entry hentry := h.own hstrict entry (mem_outgoingRequest hentry)
  body hstrict := (outgoingRequest_sameBut api options request previousOrigin validated).body.trans
    (h.body hstrict)

lemma Stripped.next {outgoing : Request} (h : Stripped options outgoing) (status : Nat)
    (validated target : Url) :
    Stripped options (nextRequest api options outgoing status validated target) := by
  by_cases hstrict : options.strictRedirects = true
  · have hnext : nextRequest api options outgoing status validated target =
        (strictRedirectRequest outgoing status
          (api.origin target != api.origin validated)).setUrl api target := by
      simp [nextRequest, hstrict]
    rw [hnext]
    exact ⟨fun entry hentry => h.credentials entry (mem_strictRedirectRequest hentry),
      fun _ entry hentry => h.own hstrict entry (mem_strictRedirectRequest hentry),
      fun _ => strictRedirectRequest_body _ _ _ (.inr (h.body hstrict))⟩
  · have hnext : nextRequest api options outgoing status validated target =
        outgoing.setUrl api target := by
      simp [nextRequest, hstrict]
    rw [hnext]
    exact ⟨h.credentials, h.own, h.body⟩

/-- `validated` is the URL the hop's request targets, and the validation accepted it. -/
def Sent.Accepted (E : Type) (api : UrlApi Url) (s : Sent Url) : Prop :=
  requestUrl (E := E) api s.outgoing = .ok s.validated ∧
    parseExternalUrl (E := E) api (api.href s.validated) = .ok s.validated

/-- What the dialed request carries comes from the outgoing one, but for the pinned host. -/
structure Sent.Carries (pinned : Bool) (s : Sent Url) : Prop where
  headers : ∀ entry ∈ s.dialed.request.headers.entries,
    entry ∈ s.outgoing.headers.entries ∨ pinned = true ∧ entry.1 = "host"
  body : s.dialed.request.body = s.outgoing.body

/-- The resolver answers with addresses. -/
def Resolves (answers : Nat → Answer E) : Prop :=
  ∀ i addresses, (answers i).resolution = .ok addresses →
    ∀ address ∈ addresses, (addressOf address.toList).isSome

lemma IsHop.accepted (laws : UrlLaws api) {request : Request} {previousOrigin : Option String}
    {s : Sent Url} (h : IsHop api options pinned answers request previousOrigin s) :
    s.Accepted E api := by
  have hsame := outgoingRequest_sameBut api options request previousOrigin s.validated
  rw [← h.outgoing] at hsame
  exact ⟨hsame.requestUrl.trans (h.url laws).1, (h.url laws).2⟩

end Guard

/-! ## A sample chain

URLs that are just an https host, which is all the chain below uses. -/

structure SampleUrl where
  host : List Char
  noSlash : '/' ∉ host

def sampleScheme : List Char := ['h', 't', 't', 'p', 's', ':', '/', '/']

def SampleUrl.text (url : SampleUrl) : List Char := sampleScheme ++ url.host ++ ['/']

lemma slash_notMem_takeWhile (text : List Char) : '/' ∉ text.takeWhile (· != '/') := by
  induction text with
  | nil => simp
  | cons c text ih =>
    by_cases hc : c = '/'
    · simp [hc]
    · simp [hc, ih, Ne.symm hc]

def SampleUrl.parse (text : String) : Option SampleUrl :=
  if sampleScheme.isPrefixOf text.toList then
    some ⟨(text.toList.drop 8).takeWhile (· != '/'), slash_notMem_takeWhile _⟩
  else none

/-- What a chain lets each destination see. -/
def Chain.seen {E : Type} (chain : Chain SampleUrl E) : List (String × List String × HttpBody) :=
  chain.sent.map fun s =>
    (s.dialed.request.url, s.dialed.request.headers.names, s.dialed.request.body)

end Maple.SafeFetch
