import MultiClaw.Base.Exec
import MultiClaw.Base.Lines
import MultiClaw.Storage.Schema

/-! The web_fetch tool and the network policy, before a resolver that may change its answers. -/
namespace MultiClaw.WebFetch

open Base

abbrev Url := List Char

/-! Addresses -/

inductive Address where
  | v4 (bits : BitVec 32)
  | v6 (bits : BitVec 128)
  deriving DecidableEq

/-- An IPv4 address that is written as an IPv6 address counts as itself. -/
def Address.unmap : Address → Address
  | v6 bits => if bits >>> 32 = 0xffff then .v4 (bits.truncate 32) else .v6 bits
  | v4 bits => .v4 bits

structure AddressFlags where
  isGlobal : Bool
  isLoopback : Bool
  isPrivate : Bool
  isLinkLocal : Bool
  isUnspecified : Bool
  isReserved : Bool
  isMulticast : Bool
  deriving DecidableEq, Repr

def AddressFlags.isBlocked (flags : AddressFlags) : Bool :=
  !flags.isGlobal || flags.isLoopback || flags.isPrivate || flags.isLinkLocal ||
    flags.isUnspecified || flags.isReserved || flags.isMulticast

structure NetworkPolicy where
  allowPrivateNetworks : Bool := false
  /-- What the host's tables say about an address. -/
  flags : Address → AddressFlags

def NetworkPolicy.isBlockedAddress (policy : NetworkPolicy) (address : Address) : Bool :=
  (policy.flags address.unmap).isBlocked

/-! The world -/

structure SplitUrl where
  scheme : List Char
  username : List Char := []
  password : List Char := []
  hostname : List Char
  /-- The port, if one is written, unless it is no number. -/
  port : Except Unit (Option Nat) := .ok none

structure Target where
  hostname : List Char
  port : Nat
  deriving DecidableEq

structure Response where
  statusCode : Nat
  location : Option Url := none
  body : String := ""

/-- A request of the browser, and the ones that it makes in its course without asking. -/
structure BrowserRequest where
  url : Url
  unrouted : List Url := []

inductive FetchMode where
  | light
  | markdown
  | browser
  | auto
  deriving DecidableEq, Repr

abbrev Result := Except String String

/-- What the libraries and the network answer; the resolver, the servers and the pages may answer
anew at every query. -/
structure World where
  urlsplit : Url → Option SplitUrl
  urlunsplit : SplitUrl → Url
  urljoin : Url → Url → Url
  getaddrinfo : Nat → Target → Option (List (Option Address))
  /-- Where a client that is given the URL connects to. -/
  clientTarget : Url → Target
  respond : Nat → Url → Except String Response
  browserRequests : Nat → Url → List BrowserRequest
  browserResult : Nat → Url → Result
  missing : FetchMode → Option String := fun _ => none
  extract : FetchMode → Url → Response → Result
  needsBrowser : Url → Bool := fun _ => false
  looksEmpty : String → Bool := fun _ => false

structure Connection where
  target : Target
  address : Address
  deriving DecidableEq

/-- The number of queries to the resolver, and the connections that were opened. -/
structure Net where
  queries : Nat := 0
  log : List Connection := []

inductive Failure where
  | policy (message : String)
  | other (message : String)
  deriving DecidableEq, Repr

abbrev Fetch := ExceptT Failure (StateM Net)

variable (world : World)

def resolve (target : Target) : Fetch (Option (List (Option Address))) := do
  let net ← get
  set { net with queries := net.queries + 1 }
  return world.getaddrinfo net.queries target

/-- A client resolves the name for itself, and tries the addresses of the answer. -/
def connect (url : Url) : Fetch Unit := do
  let answer ← resolve world (world.clientTarget url)
  modify fun net => { net with
    log := net.log ++ ((answer.getD []).filterMap id).map (⟨world.clientTarget url, ·⟩) }

/-! The policy -/

def httpSchemes : List (List Char) := ["http".toList, "https".toList]

def explicitNonHttpSchemes : List (List Char) :=
  ["about", "data", "file", "ftp", "ftps", "gopher", "javascript", "mailto", "ssh"].map
    String.toList

variable (host : Host) (policy : NetworkPolicy)

/-- A host and a port, and not a scheme: digits up to the end or the path. -/
def looksLikePort (rest : List Char) : Bool :=
  let digits := rest.takeWhile Char.isDigit
  digits ≠ [] && match rest.drop digits.length with
    | [] => true
    | c :: cs => ['/', '?', '#'].contains c && !cs.contains '\n'

def hasExplicitScheme (url : Url) : Bool :=
  if "://".toList <:+: url then true
  else
    let scheme := url.takeWhile fun c => c.isAlphanum || ['+', '.', '-'].contains c
    match scheme, url.drop scheme.length with
    | first :: _, ':' :: rest =>
      if first.isAlpha then
        let scheme := scheme.map Char.toLower
        httpSchemes.contains scheme || explicitNonHttpSchemes.contains scheme ||
          !looksLikePort rest
      else false
    | _, _ => false

def normalizeUrl (url : Url) : Url :=
  let candidate := strip host.isSpace url
  if candidate = [] then candidate
  else if hasExplicitScheme candidate then candidate
  else "https://".toList ++ candidate

def defaultPort (scheme : List Char) : Nat := if scheme = "http".toList then 80 else 443

def blockedMessage (hostname : List Char) : String :=
  s!"blocked network target: " ++ String.ofList hostname

def unresolvedMessage (hostname : List Char) : String :=
  s!"could not resolve hostname: " ++ String.ofList hostname

def checkAnswer (hostname : List Char) (answer : Option (List (Option Address))) :
    Except Failure Unit :=
  match answer with
  | none => .error (.policy (unresolvedMessage hostname))
  | some infos =>
    if infos = [] ∨ none ∈ infos then .error (.policy (unresolvedMessage hostname))
    else if policy.allowPrivateNetworks then .ok ()
    else if (infos.filterMap id).any policy.isBlockedAddress then
      .error (.policy (blockedMessage hostname))
    else .ok ()

/-- What the policy reads from a URL, before it asks the resolver. -/
def readUrl (url : Url) : Except Failure (SplitUrl × Target) :=
  match world.urlsplit (normalizeUrl host url) with
  | none => .error (.policy "invalid URL")
  | some parsed =>
    let scheme := parsed.scheme.map Char.toLower
    if !httpSchemes.contains scheme then
      .error (.policy ("unsupported URL scheme: " ++
        if scheme = [] then "missing" else String.ofList scheme))
    else if parsed.username ≠ [] ∨ parsed.password ≠ [] then
      .error (.policy "URL credentials are not allowed")
    else if parsed.hostname = [] then .error (.policy "URL hostname is required")
    else match parsed.port with
      | .error _ => .error (.policy "invalid URL")
      | .ok port =>
        -- a port of zero counts as none
        let port := if port.getD 0 = 0 then defaultPort scheme else port.getD 0
        .ok (parsed, ⟨parsed.hostname, port⟩)

def validateUrl (url : Url) : Fetch Url := do
  let (parsed, target) ← ofResult (readUrl world host url)
  let answer ← resolve world target
  ofResult (checkAnswer policy target.hostname answer)
  return world.urlunsplit parsed

/-! The modes -/

def redirectCodes : List Nat := [301, 302, 303, 307, 308]

def Response.redirect (response : Response) : Option Url :=
  if redirectCodes.contains response.statusCode then
    response.location.filter (· ≠ [])
  else none

def clientGet (url : Url) : Fetch Response := do
  connect world url
  let net ← get
  match world.respond net.queries url with
  | .ok response => return response
  | .error e => throw (.other e)

/-- The redirects that are left. -/
def followRedirects : Nat → Url → Fetch (Url × Response)
  | 0, current => do
    let response ← clientGet world current
    match response.redirect with
    | none => return (current, response)
    | some _ => throw (.policy "too many redirects")
  | left + 1, current => do
    let response ← clientGet world current
    match response.redirect with
    | none => return (current, response)
    | some location =>
      let next ← validateUrl world host policy (world.urljoin current location)
      followRedirects left next

def requestWithRedirects (url : Url) : Fetch (Url × Response) := do
  let current ← validateUrl world host policy url
  followRedirects world host policy 5 current

/-- The light and the markdown mode, which differ in what they make of the page. -/
def httpFetch (mode : FetchMode) (name : String) (url : Url) : Fetch Result :=
  match world.missing mode with
  | some e => return .error e
  | none =>
    tryCatch (do
      let (finalUrl, response) ← requestWithRedirects world host policy url
      return world.extract mode finalUrl response)
    fun
      | .policy e => throw (.policy e)
      | .other e => return .error s!"{name} fetch error: {e}"

def lightFetch (url : Url) : Fetch Result := httpFetch world host policy .light "Light" url

def markdownFetch (url : Url) : Fetch Result := httpFetch world host policy .markdown "Markdown" url

/-- Whether the policy accepts a request. -/
def passesPolicy (url : Url) : Fetch Bool :=
  tryCatch (do
      let _ ← validateUrl world host policy url
      return true)
    fun _ => return false

/-- The browser makes the request, and those that follow from it. -/
def continueRoute (request : BrowserRequest) : Fetch Bool := do
  connect world request.url
  request.unrouted.forM (connect world)
  return true

/-- The guard lets a request pass that the policy accepts, and says whether it has. -/
def routeGuard (request : BrowserRequest) : Fetch Bool := do
  if ← passesPolicy world host policy request.url then continueRoute world request
  else return false

def browserFetch (url : Url) : Fetch Result := do
  let url ← validateUrl world host policy url
  match world.missing .browser with
  | some e => return .error e
  | none =>
    let net ← get
    let passed ← (world.browserRequests net.queries url).mapM (routeGuard world host policy)
    match world.browserResult net.queries url with
    | .ok content => return .ok content
    | .error e =>
      return .error (if passed.all id then s!"Browser fetch error: {e}"
        else "Browser fetch error: blocked network target")

/-- The light mode first, and the others where it fails or shows little. -/
def autoHttpFetch (url : Url) : Fetch Result := do
  match ← lightFetch world host policy url with
  | .error _ =>
    match ← markdownFetch world host policy url with
    | .error _ => browserFetch world host policy url
    | .ok content => return .ok content
  | .ok content =>
    if world.looksEmpty content then
      match ← browserFetch world host policy url with
      | .ok shown => return .ok (if shown.length > content.length then shown else content)
      | .error _ => return .ok content
    else return .ok content

def autoFetch (url : Url) : Fetch Result := do
  if world.needsBrowser url then
    match ← browserFetch world host policy url with
    | .ok content => return .ok content
    | .error _ => autoHttpFetch world host policy url
  else autoHttpFetch world host policy url

def fetchIn (mode : FetchMode) (url : Url) : Fetch Result :=
  match mode with
  | .auto => autoFetch world host policy url
  | .light => lightFetch world host policy url
  | .markdown => markdownFetch world host policy url
  | .browser => browserFetch world host policy url

def parseMode : String → Option FetchMode
  | "light" => some .light
  | "markdown" => some .markdown
  | "browser" => some .browser
  | "auto" => some .auto
  | _ => none

def execute (url : Url) (mode : String) : Fetch Result :=
  if strip host.isSpace url = [] then return .error "URL is empty"
  else match parseMode mode with
    | none =>
      return .error (s!"Unknown fetch mode: '{mode}'. " ++ "Valid: light, markdown, browser, auto")
    | some mode =>
      tryCatch (do
        let url ← validateUrl world host policy url
        fetchIn world host policy mode url)
      fun
        | .policy e => return .error s!"Blocked network target: {e}"
        | .other e => throw (.other e)

end MultiClaw.WebFetch
