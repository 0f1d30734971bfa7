import VorCommander.Gateway.Interface

/-!
The request handlers of the gateway.

A handler ends early with the answer it gives then: every error of an
operation and every failed check is turned into a response where it occurs.
-/

namespace VorCommander

open Crypto Steps Steps.Program Text

/-- The parts of a URL the gateway looks at. -/
structure ParsedUrl where
  scheme : String
  host : Option String
  username : String
  password : Option String
  fragment : Option String

/-- What a gateway is built with: the URL parser of its library, whether a
tenant store is attached, and the identifier of its device. -/
structure GatewayConfig where
  parseUrl : String → Option ParsedUrl
  tenants : Bool
  deviceId : String

/-! ### Requests -/

structure ClientRegistrationRequest where
  redirectUris : List String
  clientName : Option String
  tokenEndpointAuthMethod : Option String
  grantTypes : Option (List String)
  responseTypes : Option (List String)
  applicationType : Option String

structure AuthorizeQuery where
  responseType : String
  clientId : String
  redirectUri : String
  scope : Option String
  state : Option String
  codeChallenge : String
  codeChallengeMethod : Option String
  resource : Option String

structure AuthorizeForm where
  responseType : String
  clientId : String
  redirectUri : String
  scope : String
  state : String
  codeChallenge : String
  codeChallengeMethod : String
  resource : String
  ownerToken : String

structure TokenForm where
  grantType : String
  code : Option String
  redirectUri : Option String
  clientId : Option String
  codeVerifier : Option String

structure RedeemPairingBody where
  code : String
  actorId : String

structure CreatePairingBody where
  scopes : List String
  pairingTtlSeconds : Option ℕ
  grantTtlSeconds : Option ℕ

structure RevokeGrantBody where
  grantId : String

/-- The requests on the routes that touch grants. `authorization` is the value
of the header, where there is one that is text. -/
inductive GatewayRequest
  | registerClient (body : ClientRegistrationRequest)
  | authorizeGet (query : AuthorizeQuery)
  | authorizePost (form : AuthorizeForm)
  | token (form : TokenForm)
  | redeemPairing (body : RedeemPairingBody)
  | createPairing (authorization : Option String) (body : CreatePairingBody)
  | revokeGrant (authorization : Option String) (body : RevokeGrantBody)
  | info (authorization : Option String)

/-! ### Checks -/

namespace OAuth

def resourceUri : String := "https://mcp.vorcommander.app/mcp"
def accessTtlMs : ℕ := 2592000000
def codeTtlMs : ℕ := 300000

/-- `split_ascii_whitespace`. -/
def splitAsciiWhitespace (s : String) : List String :=
  (splitChars (fun c => c = ' ' || c = '\t' || c = '\n' || c = '\x0c' || c = '\r') s).filter
    fun word => !word.isEmpty

/-- `parse_scopes`. -/
def parseScopes (scope : Option String) : Option (List String) := do
  let scopes ← (splitAsciiWhitespace (scope.getD "mcp gateway.read")).foldlM
    (fun scopes scope =>
      if scope ≠ "mcp" ∧ scope ≠ "gateway.read" then none
      else if scope ∈ scopes then some scopes
      else some (scopes ++ [scope])) []
  if "mcp" ∈ scopes then some scopes else none

/-- `valid_redirect_uri`. -/
def validRedirectUri (parseUrl : String → Option ParsedUrl) (value applicationType : String) :
    Bool :=
  match parseUrl value with
  | none => false
  | some url =>
      if url.fragment.isSome || !url.username.isEmpty || url.password.isSome then false
      else if url.scheme = "https" then url.host.isSome
      else if applicationType = "native" && url.scheme = "http" then
        url.host = some "127.0.0.1" || url.host = some "localhost" || url.host = some "::1"
      else false

/-- `secret_hash`. -/
def secretHash (P : Primitives) (value : String) : String :=
  Base64.encodeUrlSafe (P.sha256 (utf8 value)).toList

/-- A character a code verifier may contain. -/
def isUnreserved (c : Char) : Bool := c.isAlphanum || c = '-' || c = '.' || c = '_' || c = '~'

/-- `verify_pkce`. -/
def verifyPkce (P : Primitives) (verifier expected : String) : Bool :=
  43 ≤ byteLength verifier && byteLength verifier ≤ 128 && verifier.toList.all isUnreserved &&
    Base64.encodeUrlSafe (P.sha256 (utf8 verifier)).toList = expected

/-- `oauth_actor_id`. -/
def oauthActorId (ownerActorId clientId : String) : String := ownerActorId ++ ":oauth:" ++ clientId

end OAuth

/-- `bearer_token`. -/
def bearerToken (authorization : Option String) : Option String :=
  (authorization.bind (stripPrefix · "Bearer ")).filter fun token => !token.isEmpty

/-- `u64::saturating_add` of a time. -/
def saturatingExpiry (nowUnixMs ttlMs : ℕ) : ℕ := min (nowUnixMs + ttlMs) (2 ^ 64 - 1)

/-! ### Handlers -/

namespace Routes

variable (P : Primitives) (config : GatewayConfig)

/-- A program whose errors are all answered the same way. -/
def orAnswer {ε α : Type} (response : Response) (p : GatewayM ε α) : GatewayM Response α :=
  ExceptT.adapt (fun _ => response) p

/-- The clock, or the answer that it is out of its range. -/
def now : GatewayM Response ℕ := orAnswer (.status 500) Gateway.clock

def registerClient (body : ClientRegistrationRequest) : GatewayM Response Response := do
  check (failIf (body.redirectUris = [] ∨ 16 < body.redirectUris.length)
    (.oauthError "invalid_redirect_uri"))
  check (failIf (body.tokenEndpointAuthMethod.any (· ≠ "none"))
    (.oauthError "invalid_client_metadata"))
  let applicationType := body.applicationType.getD "web"
  check (failIf
    (¬ body.redirectUris.all (OAuth.validRedirectUri config.parseUrl · applicationType))
    (.oauthError "invalid_redirect_uri"))
  check (failIf (body.grantTypes.any ("authorization_code" ∉ ·))
    (.oauthError "invalid_client_metadata"))
  check (failIf (body.responseTypes.any ("code" ∉ ·)) (.oauthError "invalid_client_metadata"))
  let clientId ← Gateway.randomSecret
  let clientName := body.clientName.getD "MCP Client"
  let registeredAtUnixMs ← now
  let _ ← orAnswer (.status 500)
    (Gateway.registerOauthClient clientId body.redirectUris clientName registeredAtUnixMs)
  return .registered clientId clientName body.redirectUris (registeredAtUnixMs / 1000)

/-- `validate_authorization`. -/
def validateAuthorization (clientId redirectUri responseType codeChallenge
    codeChallengeMethod : String) (scope resource : Option String) :
    GatewayM Unit (OAuthClientRecord × List String) := do
  check (failIf (responseType ≠ "code" ∨ codeChallengeMethod ≠ "S256" ∨
    byteLength codeChallenge < 32) ())
  check (failIf (resource.any (· ≠ OAuth.resourceUri)) ())
  let found ← ExceptT.adapt (fun _ => ()) (Gateway.oauthClient clientId)
  let client ← check (orFail found ())
  check (failIf (redirectUri ∉ client.redirectUris) ())
  let scopes ← check (orFail (OAuth.parseScopes scope) ())
  return (client, scopes)

/-- The answer to a request for an authorization that is not valid. -/
def invalidAuthorization : Response := .text 400 "invalid OAuth authorization request"

def authorizeGet (query : AuthorizeQuery) : GatewayM Response Response := do
  let (client, scopes) ← orAnswer invalidAuthorization
    (validateAuthorization query.clientId query.redirectUri query.responseType query.codeChallenge
      (query.codeChallengeMethod.getD "") query.scope query.resource)
  return .consent client.clientName scopes

/-- What `authorize_post` remembers of the request for the code it mints. -/
def codeRecord (form : AuthorizeForm) (scopes : List String) (owner : GrantRecord)
    (nowUnixMs : ℕ) : AuthorizationCodeRecord :=
  { clientId := form.clientId
    redirectUri := form.redirectUri
    codeChallenge := form.codeChallenge
    scopes
    actorId := OAuth.oauthActorId owner.actorId form.clientId
    expiresAtUnixMs := saturatingExpiry nowUnixMs OAuth.codeTtlMs }

def authorizePost (form : AuthorizeForm) : GatewayM Response Response := do
  let resource := if form.resource.isEmpty then none else some form.resource
  let (_, scopes) ← orAnswer invalidAuthorization
    (validateAuthorization form.clientId form.redirectUri form.responseType form.codeChallenge
      form.codeChallengeMethod (some form.scope) resource)
  let nowUnixMs ← now
  let owner ← orAnswer (.text 401 "invalid owner bootstrap token")
    (Gateway.validate form.ownerToken "mcp" nowUnixMs)
  check (failIf (owner.actorId ≠ "local-pilot") (.text 403 "owner bootstrap token required"))
  let pairing ← orAnswer (.status 500)
    (Gateway.createPairing scopes OAuth.codeTtlMs OAuth.accessTtlMs nowUnixMs)
  orAnswer (.status 500) (Gateway.insertCode (OAuth.secretHash P pairing.code)
    (codeRecord form scopes owner nowUnixMs) nowUnixMs)
  let _ ← check (orFail (config.parseUrl form.redirectUri) (.status 400))
  return .redirect form.redirectUri pairing.code form.state

/-- `exchange_authorization_code`. -/
def exchangeAuthorizationCode (form : TokenForm) : GatewayM Response Response := do
  let code ← check (orFail form.code (.oauthError "invalid_request"))
  let clientId ← check (orFail form.clientId (.oauthError "invalid_request"))
  let redirectUri ← check (orFail form.redirectUri (.oauthError "invalid_request"))
  let verifier ← check (orFail form.codeVerifier (.oauthError "invalid_request"))
  let nowUnixMs ← now
  let found ← orAnswer (.status 500) (Gateway.removeCode (OAuth.secretHash P code))
  let record ← check (orFail found (.oauthError "invalid_grant"))
  check (failIf (record.expiresAtUnixMs ≤ nowUnixMs ∨ record.clientId ≠ clientId ∨
    record.redirectUri ≠ redirectUri ∨ ¬ OAuth.verifyPkce P verifier record.codeChallenge)
    (.oauthError "invalid_grant"))
  let issued ← orAnswer (.oauthError "invalid_grant")
    (Gateway.redeemPairing code record.actorId nowUnixMs)
  return .accessToken issued.token (OAuth.accessTtlMs / 1000) (" ".intercalate record.scopes)

def token (form : TokenForm) : GatewayM Response Response := do
  check (failIf (form.grantType ≠ "authorization_code") (.oauthError "unsupported_grant_type"))
  exchangeAuthorizationCode P form

def redeemPairing (body : RedeemPairingBody) : GatewayM Response Response := do
  let nowUnixMs ← now
  let issued ← ExceptT.adapt
    (fun error => if error = .unauthorized then .unauthorized else .status 400)
    (Gateway.redeemPairing body.code body.actorId nowUnixMs)
  return .paired issued.record issued.token

/-- `require_grant`, for a route that needs the given scope and role. -/
def requireGrant (authorization : Option String) (requiredScope : String)
    (requiredRole : TenantRole) : GatewayM Response GrantRecord := do
  let token ← check (orFail (bearerToken authorization) .unauthorized)
  let nowUnixMs ← now
  let record ← orAnswer .unauthorized (Gateway.validate token requiredScope nowUnixMs)
  if config.tenants then
    orAnswer .unauthorized (Gateway.verifyContext record requiredRole)
    return record
  else return record

/-- `u64::checked_mul` of a number of seconds. -/
def milliseconds (seconds : ℕ) : Except Response ℕ := do
  failIf (2 ^ 64 ≤ seconds * 1000) (.status 400)
  return seconds * 1000

theorem milliseconds_eq_ok {seconds ms : ℕ} (h : milliseconds seconds = .ok ms) :
    ms = seconds * 1000 := by
  simp only [milliseconds, bind_eq_ok, pure_eq_ok] at h
  obtain ⟨_, _, rfl⟩ := h
  rfl

/-- The handler of `/v1/admin/pairings`, behind `require_grant`. -/
def createPairing (authorization : Option String) (body : CreatePairingBody) :
    GatewayM Response Response := do
  let admin ← requireGrant config authorization "admin" .admin
  let nowUnixMs ← now
  let pairingTtlMs ← check (milliseconds (body.pairingTtlSeconds.getD 300))
  let grantTtlMs ← check (milliseconds (body.grantTtlSeconds.getD 3600))
  let pairing ← orAnswer (.status 400)
    (Gateway.createPairing body.scopes pairingTtlMs grantTtlMs nowUnixMs)
  return .pairing pairing.record admin.actorId pairing.code

/-- The handler of `/v1/admin/revoke`, behind `require_grant`. -/
def revokeGrant (authorization : Option String) (body : RevokeGrantBody) :
    GatewayM Response Response := do
  let admin ← requireGrant config authorization "admin" .admin
  let found ← orAnswer (.status 500) (Gateway.revokeForTenant body.grantId admin.organizationId)
  return if found then .revoked else .status 404

/-- The handler of `/v1/info`, behind `require_grant`. -/
def info (authorization : Option String) : GatewayM Response Response := do
  let grant ← requireGrant config authorization "gateway.read" .viewer
  return .info config.deviceId grant.actorId

/-- The router. -/
def handle : GatewayRequest → GatewayM Response Response
  | .registerClient body => registerClient config body
  | .authorizeGet query => authorizeGet query
  | .authorizePost form => authorizePost P config form
  | .token form => token P form
  | .redeemPairing body => redeemPairing body
  | .createPairing authorization body => createPairing config authorization body
  | .revokeGrant authorization body => revokeGrant config authorization body
  | .info authorization => info config authorization

end Routes

end VorCommander
