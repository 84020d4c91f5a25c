import Yuizaki.Events.JobData

/- Permission receipts (`modules/agent/permission_receipt.py`).

   A receipt shows the parameters of a call without what looks like a secret, and names the
   paths where something was taken out. -/
namespace Tool

open Events

/-! ## What looks like a secret -/

/-- The parts of a URL that `urlsplit` finds; the port is none where reading it raises. -/
structure UrlParts where
  scheme : String
  netloc : String
  path : String
  query : String
  fragment : String
  username : Option String
  password : Option String
  hostname : Option String
  port : Option (Option ℕ)

/-- What `urllib.parse` does with URLs and their queries. -/
structure UrlTools where
  urlsplit : String → Option UrlParts
  urlunsplit : String → String → String → String → String → String
  parseQsl : String → List (String × String)
  urlencode : List (String × String) → String

def secretKeyParts : List String :=
  ["api_key", "apikey", "auth", "authorization", "cookie", "credential", "passphrase",
    "password", "private_key", "secret", "token"]

def urlSecretKeys : List String :=
  ["access_token", "api_key", "apikey", "auth", "authorization", "key", "password", "secret",
    "token"]

section Patterns

open Regex

/-- `[^a-z0-9]+` -/
def nonKeyChars : Regex :=
  some1 true (.char (fun c => ¬ ('a' ≤ c ∧ c ≤ 'z') ∧ ¬ ('0' ≤ c ∧ c ≤ '9')))

def isSecretKey (tables : TextTables) (key : String) : Bool :=
  let normalized := PyStr.stripOf "_" (nonKeyChars.sub "_" (PyStr.lower tables.lower key))
  secretKeyParts.any (PyStr.contains normalized)

/-- A letter or digit of ASCII, or one of some other characters. -/
def alnumOr (others : String) : Regex :=
  .char (fun c => c.toNat < 128 ∧ c.isAlphanum = true ∨ c ∈ others.toList)

/-- The same under `re.IGNORECASE`. -/
def alnumOrIgnoreCase (others : String) : Regex :=
  .char (fun c => c.toNat < 128 ∧ c.isAlphanum = true ∨ c ∈ others.toList ∨
    c ∈ [Char.ofNat 0x130, Char.ofNat 0x131, Char.ofNat 0x17F, Char.ofNat 0x212A])

/-- `_BEARER_PATTERN`, from the start of the text. -/
def bearerPattern : Regex :=
  seqs [.many true space, textIgnoreCase "bearer", some1 true space, some1 true nonSpace]

def basicAuthPattern : Regex :=
  seqs [.many true space, textIgnoreCase "basic", some1 true space,
    some1 true (alnumOrIgnoreCase "+/=_-"), .many true space, .atEnd]

def jwtPattern : Regex :=
  seqs [atLeast 8 (alnumOr "_-"), text ".", atLeast 8 (alnumOr "_-"), text ".",
    atLeast 8 (alnumOr "_-"), .atEnd]

def apiKeyPattern : Regex :=
  seqs [alts [textIgnoreCase "sk", textIgnoreCase "pk", textIgnoreCase "rk",
      textIgnoreCase "ghp", textIgnoreCase "github_pat",
      .seq (textIgnoreCase "xox") (oneOfIgnoreCase "baprs"), textIgnoreCase "aiza"],
    atLeast 12 (alnumOrIgnoreCase "-_"), .atEnd]

def pemLine (kind : String) : Regex :=
  seqs [text "-----", textIgnoreCase kind, text " ",
    optional (.seq (some1 true (alnumOrIgnoreCase " ")) (text " ")),
    textIgnoreCase "private", text " ", textIgnoreCase "key", text "-----"]

def pemPrivateKeyPattern : Regex :=
  seqs [pemLine "begin", .many false (.char (fun _ => true)), pemLine "end"]

def looksSecret (tables : TextTables) (value : String) : Bool :=
  let stripped := PyStr.strip value
  (bearerPattern.matchStart stripped).isSome || (basicAuthPattern.matchStart stripped).isSome ||
    jwtPattern.fullMatch stripped || apiKeyPattern.fullMatch stripped ||
    (pemPrivateKeyPattern.search stripped).isSome ||
    (32 ≤ stripped.length && (some1 true (alnumOr "_-")).fullMatch stripped &&
      stripped.toList.any (fun c => tables.isAlnum c && !c.isDigit) &&
      stripped.toList.any Char.isDigit)

end Patterns

/-- `sanitize_pairs`: the pairs of a query, and whether one was redacted. -/
def sanitizePairs (tables : TextTables) (urls : UrlTools) (raw : String) : String × Bool :=
  let pairs := urls.parseQsl raw
  let secret (pair : String × String) : Bool :=
    isSecretKey tables pair.1 || decide (PyStr.lower tables.lower pair.1 ∈ urlSecretKeys) ||
      looksSecret tables pair.2
  (urls.urlencode (pairs.map (fun pair => if secret pair then (pair.1, "[REDACTED]") else pair)),
    pairs.any secret)

/-- `_sanitize_url`: the text, and whether something was taken out. -/
def sanitizeUrl (tables : TextTables) (urls : UrlTools) (value : String) : String × Bool :=
  match urls.urlsplit value with
  | none => (value, false)
  | some parsed =>
    if PyStr.lower tables.lower parsed.scheme ∉ ["http", "https"] ∨ parsed.netloc = "" then
      (value, false)
    else match parsed.port with
      | none => (value, false)
      | some port =>
        let hostname := parsed.hostname.getD ""
        let host := if PyStr.contains hostname ":" ∧ hostname.toList.head? ≠ some '[' then
          "[" ++ hostname ++ "]" else hostname
        let host := match port with
          | some port => host ++ ":" ++ toString port
          | none => host
        let query := sanitizePairs tables urls parsed.query
        let fragment := if PyStr.contains parsed.fragment "=" then
          sanitizePairs tables urls parsed.fragment else (parsed.fragment, false)
        (urls.urlunsplit parsed.scheme host parsed.path query.1 fragment.1,
          parsed.username.isSome || parsed.password.isSome || query.2 || fragment.2)

/-! ## Redaction -/

/-- A redacted value and the paths that were redacted. -/
abbrev Redacted := Json × List String

/-- Whether the entries describe a header that carries a secret. -/
def secretHeader (tables : TextTables) (entries : List (String × Json)) : Bool :=
  match entries.lookup "name" with
  | some (.str name) => isSecretKey tables name && (entries.lookup "value").isSome
  | _ => false

mutual

/-- `visit`. -/
def redact (tables : TextTables) (urls : UrlTools) (path : String) : Json → Redacted
  | .str text =>
    let url := sanitizeUrl tables urls text
    if url.2 then (.str url.1, [path])
    else if looksSecret tables text then (.str "[REDACTED]", [path])
    else (.str text, [])
  | .obj entries =>
    let r := redactEntries tables urls path (secretHeader tables entries) entries
    (.obj r.1, r.2)
  | .arr items =>
    let r := redactItems tables urls path 0 items
    (.arr r.1, r.2)
  | value => (value, [])

/-- `visit` of each entry. -/
def redactEntries (tables : TextTables) (urls : UrlTools) (path : String) (header : Bool) :
    List (String × Json) → List (String × Json) × List String
  | [] => ([], [])
  | (key, item) :: rest =>
    let place := path ++ "." ++ key
    let first := if isSecretKey tables key ∨ header = true ∧
        PyStr.lower tables.lower key = "value" then (.str "[REDACTED]", [place])
      else redact tables urls place item
    let others := redactEntries tables urls path header rest
    ((key, first.1) :: others.1, first.2 ++ others.2)

/-- `visit` of each item. -/
def redactItems (tables : TextTables) (urls : UrlTools) (path : String) :
    ℕ → List Json → List Json × List String
  | _, [] => ([], [])
  | index, item :: rest =>
    let first := redact tables urls (path ++ "[" ++ toString index ++ "]") item
    let others := redactItems tables urls path (index + 1) rest
    (first.1 :: others.1, first.2 ++ others.2)

end

def redactPermissionParameters (tables : TextTables) (urls : UrlTools) (parameters : Json) :
    Redacted := redact tables urls "$" parameters

/-! ## Receipts -/

inductive PermissionDecision where
  | required
  | allowed
  | denied
deriving DecidableEq

def PermissionDecision.text : PermissionDecision → String
  | .required => "required"
  | .allowed => "allowed"
  | .denied => "denied"

structure PermissionReceipt where
  agentRequestId : String
  permissionRequestId : String
  capabilityCallId : String
  decision : PermissionDecision
  reasonCode : String
  retryable : Bool
  permissionScope : String
  capabilityId : String
  capabilityType : String
  capabilityKind : String
  riskLevel : String
  parameters : Json
  redactedPaths : List String
  decidedAt : Option String := none

/-- `build_permission_receipt`, with the ids that are given or drawn. -/
def buildPermissionReceipt (tables : TextTables) (urls : UrlTools) (agentRequestId : String) (decision : PermissionDecision)
    (reasonCode : String) (retryable : Bool) (permissionScope capabilityId capabilityType capabilityKind riskLevel : String)
    (parameters : Json) (permissionRequestId capabilityCallId : String) (decidedAt : Option String) : PermissionReceipt where
  agentRequestId := agentRequestId
  permissionRequestId := permissionRequestId
  capabilityCallId := capabilityCallId
  decision := decision
  reasonCode := reasonCode
  retryable := retryable
  permissionScope := permissionScope
  capabilityId := capabilityId
  capabilityType := capabilityType
  capabilityKind := capabilityKind
  riskLevel := riskLevel
  parameters := (redactPermissionParameters tables urls parameters).1
  redactedPaths := (redactPermissionParameters tables urls parameters).2
  decidedAt := decidedAt

end Tool
