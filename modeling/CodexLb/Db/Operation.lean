import CodexLb.Db.Acquire
import CodexLb.Db.Bind
import CodexLb.Db.RouteAction
import CodexLb.Transition.Run

/-!
# Operations and reachable stores

Every writer of `src/db.rs` as one labelled step. Each statement or
transaction commits atomically at a clock reading, so any interleaving of the
daemon's tasks is a sequence of operations.
-/

namespace CodexLb

open Transition

/-- The committed writes of the daemon with their arguments. -/
inductive Op where
  | upsertAccount (newId : Uuid) (encrypted : AccountTokens) (lastRefreshAt : Option Instant)
      (claims : AuthClaims) (label : Option String)
  | updateAccount (id : Uuid) (status label email planType : Option String)
  | deleteAccount (id : Uuid)
  | updateAccountTokens (id : Uuid) (encrypted : AccountTokens) (claims : AuthClaims)
  | cooldownAccount (id : Uuid) (seconds : Int) (reason : String)
  | markAuthFailed (id : Uuid) (reason : String)
  | markUsageError (id : Uuid) (message : String)
  | replaceUsageWindows (id : Uuid) (planType : Option String) (fetchedAt : Instant)
      (windows : List ParsedUsageWindow)
  | insertRequestLog (requestId : String) (id : Option Uuid)
  | insertUsageSnapshot (id : Uuid)
  | pruneHistory (retentionDays : Int)
  | acquireAccountIfAvailable (id : Uuid)
  | acquireSmartAccount (settings : RuntimeSettings) (usageRefreshInterval : Nat)
      (excluded : List Uuid) (selectedAt : Clock)
  | releaseAccountInner (id : Uuid) (updateLastRequest : Bool)
  | resetInflight
  | bindAffinitiesAtEpoch (keys : List SessionRouteKey) (accountId : Uuid)
      (epoch : Option SessionRouteEpoch)
  | applySessionRouteAction (settings : RuntimeSettings) (usageRefreshInterval : Nat)
      (request : SessionRouteActionRequest) (liveAccountIds : List Uuid) (selectedAt : Instant)

variable [UuidText]

/-- The store after an operation that commits at a clock reading. -/
def Op.exec (op : Op) (now : Clock) (s : Store) : Store :=
  match op with
  | .upsertAccount newId encrypted lastRefreshAt claims label =>
    (CodexLb.upsertAccount newId encrypted lastRefreshAt claims label now.instant s).2
  | .updateAccount id status label email planType =>
    (CodexLb.updateAccount id status label email planType s).2
  | .deleteAccount id => (CodexLb.deleteAccount id s).2
  | .updateAccountTokens id encrypted claims =>
    (CodexLb.updateAccountTokens id encrypted claims now.instant s).2
  | .cooldownAccount id seconds reason =>
    (CodexLb.cooldownAccount id seconds reason now.instant s).2
  | .markAuthFailed id reason => (CodexLb.markAuthFailed id reason s).2
  | .markUsageError id message => (CodexLb.markUsageError id message s).2
  | .replaceUsageWindows id planType fetchedAt windows =>
    (CodexLb.replaceUsageWindows id planType fetchedAt windows s).2
  | .insertRequestLog requestId id => (CodexLb.insertRequestLog requestId id now.instant s).2
  | .insertUsageSnapshot id => (CodexLb.insertUsageSnapshot id now.instant s).2
  | .pruneHistory retentionDays => (CodexLb.pruneHistory retentionDays now.instant s).2
  | .acquireAccountIfAvailable id => (CodexLb.acquireAccountIfAvailable id now s).2
  | .acquireSmartAccount settings usageRefreshInterval excluded selectedAt =>
    (CodexLb.acquireSmartAccount settings usageRefreshInterval excluded selectedAt s).2
  | .releaseAccountInner id updateLastRequest =>
    (CodexLb.releaseAccountInner id updateLastRequest now.instant s).2
  | .resetInflight => (CodexLb.resetInflight s).2
  | .bindAffinitiesAtEpoch keys accountId epoch =>
    (CodexLb.bindAffinitiesAtEpoch keys accountId epoch now.instant s).2
  | .applySessionRouteAction settings usageRefreshInterval request liveAccountIds selectedAt =>
    (CodexLb.applySessionRouteAction settings usageRefreshInterval request liveAccountIds
      selectedAt now.instant s).2

/-- One committed operation. -/
def Store.Step (s : Store) (op : Op × Clock) (t : Store) : Prop := op.1.exec op.2 s = t

/-- The stores that the daemon's operations reach from a freshly migrated one. -/
def Store.Reached (s : Store) : Prop := Reachable Store.FreshlyMigrated Store.Step s

end CodexLb
