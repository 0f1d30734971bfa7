import VorCommander.Auth.Tenants
import VorCommander.Steps.Pool

/-!
The operations a gateway performs for a request.

A request handler works with the store of grants, with the authorization codes
the gateway keeps in memory, and with the clock. Each call of one of them is
one operation. Handlers of other requests come in between two operations, and
the gateway can be restarted, which keeps the file and forgets the codes.
-/

namespace VorCommander

open Crypto Steps Steps.Program Text

structure AuthorizationCodeRecord where
  clientId : String
  redirectUri : String
  codeChallenge : String
  scopes : List String
  actorId : String
  expiresAtUnixMs : ℕ
  deriving DecidableEq

/-! ### Responses -/

/-- What a handler answers, with the members of each answer that carry data. -/
inductive Response
  | status (code : ℕ)
  | text (code : ℕ) (body : String)
  | oauthError (error : String)
  | unauthorized
  | registered (clientId clientName : String) (redirectUris : List String) (issuedAt : ℕ)
  | consent (clientName : String) (scopes : List String)
  | redirect (redirectUri code state : String)
  | accessToken (token : String) (expiresIn : ℕ) (scope : String)
  | paired (record : GrantRecord) (token : String)
  | pairing (record : PairingRecord) (createdBy code : String)
  | revoked
  | info (deviceId actorId : String)
  deriving DecidableEq

/-! ### Operations -/

inductive GatewayOp
  | clock
  | randomSecret
  | registerOauthClient (clientId : String) (redirectUris : List String) (clientName : String)
      (registeredAtUnixMs : ℕ)
  | oauthClient (clientId : String)
  | validate (token requiredScope : String) (nowUnixMs : ℕ)
  | createPairing (scopes : List String) (pairingTtlMs grantTtlMs nowUnixMs : ℕ)
  | redeemPairing (code actorId : String) (nowUnixMs : ℕ)
  | revokeForTenant (grantId organizationId : String)
  | verifyContext (record : GrantRecord) (requiredRole : TenantRole)
  | insertCode (codeHash : String) (record : AuthorizationCodeRecord) (nowUnixMs : ℕ)
  | removeCode (codeHash : String)
  | restart

/-- What each operation replies. A clock or a lock that fails says nothing
more. -/
def GatewayOp.Reply : GatewayOp → Type
  | .clock => Except Unit ℕ
  | .randomSecret => String
  | .registerOauthClient _ _ _ _ => Except AuthError OAuthClientRecord
  | .oauthClient _ => Except AuthError (Option OAuthClientRecord)
  | .validate _ _ _ => Except AuthError GrantRecord
  | .createPairing _ _ _ _ => Except AuthError IssuedPairing
  | .redeemPairing _ _ _ => Except AuthError IssuedGrant
  | .revokeForTenant _ _ => Except AuthError Bool
  | .verifyContext _ _ => Except AuthError Unit
  | .insertCode _ _ _ => Except Unit Unit
  | .removeCode _ => Except Unit (Option AuthorizationCodeRecord)
  | .restart => Unit

/-- The interface of the gateway. -/
abbrev Gateway : Interface := ⟨GatewayOp, GatewayOp.Reply⟩

/-- A program of the gateway that can end early, with the answer it gives
then. -/
abbrev GatewayM (ε α : Type) := ExceptT ε (Program Gateway) α

/-! ### Calls -/

namespace Gateway

def clock : GatewayM Unit ℕ := attempt (perform (I := Gateway) .clock)

def randomSecret {ε : Type} : GatewayM ε String :=
  ExceptT.lift (perform (I := Gateway) .randomSecret)

def registerOauthClient (clientId : String) (redirectUris : List String) (clientName : String)
    (registeredAtUnixMs : ℕ) : GatewayM AuthError OAuthClientRecord :=
  attempt (perform (I := Gateway)
    (.registerOauthClient clientId redirectUris clientName registeredAtUnixMs))

def oauthClient (clientId : String) : GatewayM AuthError (Option OAuthClientRecord) :=
  attempt (perform (I := Gateway) (.oauthClient clientId))

def validate (token requiredScope : String) (nowUnixMs : ℕ) : GatewayM AuthError GrantRecord :=
  attempt (perform (I := Gateway) (.validate token requiredScope nowUnixMs))

def createPairing (scopes : List String) (pairingTtlMs grantTtlMs nowUnixMs : ℕ) :
    GatewayM AuthError IssuedPairing :=
  attempt (perform (I := Gateway) (.createPairing scopes pairingTtlMs grantTtlMs nowUnixMs))

def redeemPairing (code actorId : String) (nowUnixMs : ℕ) : GatewayM AuthError IssuedGrant :=
  attempt (perform (I := Gateway) (.redeemPairing code actorId nowUnixMs))

def revokeForTenant (grantId organizationId : String) : GatewayM AuthError Bool :=
  attempt (perform (I := Gateway) (.revokeForTenant grantId organizationId))

/-- `TenantStore::verify_context` of a grant in its own organisation. The
tenants are in another file, so that the answer can be any. -/
def verifyContext (record : GrantRecord) (requiredRole : TenantRole) : GatewayM AuthError Unit :=
  attempt (perform (I := Gateway) (.verifyContext record requiredRole))

def insertCode (codeHash : String) (record : AuthorizationCodeRecord) (nowUnixMs : ℕ) :
    GatewayM Unit Unit :=
  attempt (perform (I := Gateway) (.insertCode codeHash record nowUnixMs))

def removeCode (codeHash : String) : GatewayM Unit (Option AuthorizationCodeRecord) :=
  attempt (perform (I := Gateway) (.removeCode codeHash))

end Gateway

section Rules

variable {A : History Gateway → Event Gateway → Prop} {G : History Gateway → Gateway.Op → Prop}
  {h : History Gateway}

@[simp] theorem safe_clock {Q : History Gateway → Except Unit ℕ → Prop} :
    Safe A G Q Gateway.clock.run h ↔
      G h .clock ∧ ∀ reply : Except Unit ℕ, A h ⟨.clock, reply⟩ → Q (⟨.clock, reply⟩ :: h) reply :=
  safe_call (I := Gateway) .clock id

@[simp] theorem safe_randomSecret {ε : Type} {Q : History Gateway → Except ε String → Prop} :
    Safe A G Q Gateway.randomSecret.run h ↔
      G h .randomSecret ∧ ∀ reply : String,
        A h ⟨.randomSecret, reply⟩ → Q (⟨.randomSecret, reply⟩ :: h) (.ok reply) :=
  safe_call (I := Gateway) .randomSecret fun reply => (Except.ok reply : Except ε String)

@[simp] theorem safe_registerOauthClient {clientId : String} {redirectUris : List String}
    {clientName : String} {at' : ℕ}
    {Q : History Gateway → Except AuthError OAuthClientRecord → Prop} :
    Safe A G Q (Gateway.registerOauthClient clientId redirectUris clientName at').run h ↔
      G h (.registerOauthClient clientId redirectUris clientName at') ∧
        ∀ reply : Except AuthError OAuthClientRecord,
          A h ⟨.registerOauthClient clientId redirectUris clientName at', reply⟩ →
            Q (⟨.registerOauthClient clientId redirectUris clientName at', reply⟩ :: h) reply :=
  safe_call (I := Gateway) (.registerOauthClient clientId redirectUris clientName at') id

@[simp] theorem safe_oauthClient {clientId : String}
    {Q : History Gateway → Except AuthError (Option OAuthClientRecord) → Prop} :
    Safe A G Q (Gateway.oauthClient clientId).run h ↔
      G h (.oauthClient clientId) ∧ ∀ reply : Except AuthError (Option OAuthClientRecord),
        A h ⟨.oauthClient clientId, reply⟩ → Q (⟨.oauthClient clientId, reply⟩ :: h) reply :=
  safe_call (I := Gateway) (.oauthClient clientId) id

@[simp] theorem safe_validate {token scope : String} {now : ℕ}
    {Q : History Gateway → Except AuthError GrantRecord → Prop} :
    Safe A G Q (Gateway.validate token scope now).run h ↔
      G h (.validate token scope now) ∧ ∀ reply : Except AuthError GrantRecord,
        A h ⟨.validate token scope now, reply⟩ →
          Q (⟨.validate token scope now, reply⟩ :: h) reply :=
  safe_call (I := Gateway) (.validate token scope now) id

@[simp] theorem safe_createPairing {scopes : List String} {pairingTtl grantTtl now : ℕ}
    {Q : History Gateway → Except AuthError IssuedPairing → Prop} :
    Safe A G Q (Gateway.createPairing scopes pairingTtl grantTtl now).run h ↔
      G h (.createPairing scopes pairingTtl grantTtl now) ∧
        ∀ reply : Except AuthError IssuedPairing,
          A h ⟨.createPairing scopes pairingTtl grantTtl now, reply⟩ →
            Q (⟨.createPairing scopes pairingTtl grantTtl now, reply⟩ :: h) reply :=
  safe_call (I := Gateway) (.createPairing scopes pairingTtl grantTtl now) id

@[simp] theorem safe_redeemPairing {code actorId : String} {now : ℕ}
    {Q : History Gateway → Except AuthError IssuedGrant → Prop} :
    Safe A G Q (Gateway.redeemPairing code actorId now).run h ↔
      G h (.redeemPairing code actorId now) ∧ ∀ reply : Except AuthError IssuedGrant,
        A h ⟨.redeemPairing code actorId now, reply⟩ →
          Q (⟨.redeemPairing code actorId now, reply⟩ :: h) reply :=
  safe_call (I := Gateway) (.redeemPairing code actorId now) id

@[simp] theorem safe_revokeForTenant {grantId organizationId : String}
    {Q : History Gateway → Except AuthError Bool → Prop} :
    Safe A G Q (Gateway.revokeForTenant grantId organizationId).run h ↔
      G h (.revokeForTenant grantId organizationId) ∧ ∀ reply : Except AuthError Bool,
        A h ⟨.revokeForTenant grantId organizationId, reply⟩ →
          Q (⟨.revokeForTenant grantId organizationId, reply⟩ :: h) reply :=
  safe_call (I := Gateway) (.revokeForTenant grantId organizationId) id

@[simp] theorem safe_verifyContext {record : GrantRecord} {role : TenantRole}
    {Q : History Gateway → Except AuthError Unit → Prop} :
    Safe A G Q (Gateway.verifyContext record role).run h ↔
      G h (.verifyContext record role) ∧ ∀ reply : Except AuthError Unit,
        A h ⟨.verifyContext record role, reply⟩ →
          Q (⟨.verifyContext record role, reply⟩ :: h) reply :=
  safe_call (I := Gateway) (.verifyContext record role) id

@[simp] theorem safe_insertCode {codeHash : String} {record : AuthorizationCodeRecord} {now : ℕ}
    {Q : History Gateway → Except Unit Unit → Prop} :
    Safe A G Q (Gateway.insertCode codeHash record now).run h ↔
      G h (.insertCode codeHash record now) ∧ ∀ reply : Except Unit Unit,
        A h ⟨.insertCode codeHash record now, reply⟩ →
          Q (⟨.insertCode codeHash record now, reply⟩ :: h) reply :=
  safe_call (I := Gateway) (.insertCode codeHash record now) id

@[simp] theorem safe_removeCode {codeHash : String}
    {Q : History Gateway → Except Unit (Option AuthorizationCodeRecord) → Prop} :
    Safe A G Q (Gateway.removeCode codeHash).run h ↔
      G h (.removeCode codeHash) ∧ ∀ reply : Except Unit (Option AuthorizationCodeRecord),
        A h ⟨.removeCode codeHash, reply⟩ → Q (⟨.removeCode codeHash, reply⟩ :: h) reply :=
  safe_call (I := Gateway) (.removeCode codeHash) id

end Rules

end VorCommander
