import OmniviaCore.Gates.Objects

/-!
# Dispatch authority

`authorize_dispatch` of `service/gateway_dispatch_authority.py`: local checks, one question to the resolver
of current permission, checks of its answer, and one audit record of the decision. What the module calls of
the standard library (`str.isprintable`, `str.isspace`, `urlsplit`, `datetime.fromisoformat`) is a parameter,
and nothing is asked of it. Instants are microseconds.
-/

namespace OmniviaCore.Gates.DispatchAuthority

open CanonicalJson Jobs

/-! ## The standard library -/

/-- `SplitResult`, as far as it is read. A `port` that raises `ValueError` is `none`. -/
structure SplitResult where
  scheme : Str
  path : Str
  query : Str
  fragment : Str
  username : Option Str
  password : Option Str
  hostname : Option Str
  port : Option (Option ℕ)

/-- What `fromisoformat` reads: without an offset, or an absolute instant. -/
inductive Moment where
  | naive
  | aware (instant : ℤ)

/-- A `ValueError` of `urlsplit` or `fromisoformat` is `none`. -/
structure Library where
  isPrintable : Str → Bool
  isSpace : CodePoint → Bool
  urlsplit : Str → Option SplitResult
  fromisoformat : Str → Option Moment

/-! ## Values -/

/-- `DispatchContext`. -/
structure DispatchContext where
  processId : Obj
  workerId : Obj
  tenantId : Obj
  projectId : Obj
  runId : Obj
  attemptId : Obj
  transportKind : Obj
  destination : Obj
  ambientDatabaseAuthority : Obj
  ambientSecretAuthority : Obj

/-- `AuthorizedInvocation`, as far as it is read. -/
structure AuthorizedInvocation where
  capabilityId : Obj
  runId : Obj
  bindingId : Obj
  capabilityGrantId : Obj
  policySnapshotId : Obj

/-- `CurrentPermission`. -/
structure CurrentPermission where
  decisionId : Obj
  permissionRevision : Obj
  processId : Obj
  workerId : Obj
  tenantId : Obj
  projectId : Obj
  runId : Obj
  attemptId : Obj
  transportKind : Obj
  destinationOrigin : Obj
  capabilityId : Obj
  capabilityGrantId : Obj
  policySnapshotId : Obj
  bindingId : Obj
  notBefore : Obj
  notAfter : Obj
  allowed : Obj
  revoked : Obj

/-- `now`: no `datetime`, one without a time zone, one whose time zone states no offset, or an instant. -/
inductive Now where
  | other
  | naive
  | offsetless
  | aware (instant : ℤ)

/-- The `REFUSE_*` and `ALLOW_REASON` literals. -/
inductive Reason where
  | malformedContext
  | malformedInvocation
  | instantNotUsable
  | transportNotAuthenticated
  | ambientDatabaseAuthority
  | ambientSecretAuthority
  | destinationNotCanonical
  | permissionUnavailable
  | permissionMalformed
  | permissionNotAllowed
  | permissionRevoked
  | permissionOutOfWindow
  | permissionWindowNotShort
  | permissionMismatch
  | auditUnavailable
  | allow
  deriving DecidableEq

def Reason.text : Reason → String
  | .malformedContext => "malformed_dispatch_context"
  | .malformedInvocation => "malformed_authorized_invocation"
  | .instantNotUsable => "instant_not_usable"
  | .transportNotAuthenticated => "transport_not_authenticated"
  | .ambientDatabaseAuthority => "ambient_database_authority"
  | .ambientSecretAuthority => "ambient_secret_authority"
  | .destinationNotCanonical => "destination_not_canonical_https_origin"
  | .permissionUnavailable => "current_permission_unavailable"
  | .permissionMalformed => "current_permission_malformed"
  | .permissionNotAllowed => "current_permission_not_allowed"
  | .permissionRevoked => "current_permission_revoked"
  | .permissionOutOfWindow => "current_permission_out_of_window"
  | .permissionWindowNotShort => "current_permission_window_not_short"
  | .permissionMismatch => "current_permission_does_not_match_context"
  | .auditUnavailable => "audit_sink_unavailable"
  | .allow => "current_permission_allows_dispatch"

/-- `DispatchAuditRecord`. -/
structure DispatchAuditRecord where
  allowed : Bool
  reason : Reason
  transportKind : Obj
  processId : Obj
  workerId : Obj
  tenantId : Obj
  projectId : Obj
  runId : Obj
  attemptId : Obj
  capabilityId : Obj
  bindingId : Obj
  destinationOrigin : Obj
  decisionId : Obj
  permissionRevision : Obj

/-- `DispatchPermit`. -/
structure DispatchPermit where
  decisionId : Obj
  processId : Obj
  workerId : Obj
  tenantId : Obj
  projectId : Obj
  runId : Obj
  attemptId : Obj
  capabilityId : Obj
  bindingId : Obj
  destinationOrigin : Str
  permissionRevision : Obj
  authorizedAt : Now
  expiresAt : ℤ

/-- How a call fails: `GatewayDispatchRefusal`, or the `TypeError` of a membership test or a comparison. -/
inductive Failure where
  | refusal (reason : Reason)
  | typeError

/-- What a call has done so far: the entries it handed to the sink, and how often it asked the resolver. -/
structure Log where
  records : List DispatchAuditRecord
  asked : ℕ

/-- What a call did, and its answer. -/
structure Outcome extends Log where
  result : Except Failure DispatchPermit

/-! ## Checks -/

def transportLocalIpc : Obj := .ofString "authenticated_local_ipc"

def transportCloudService : Obj := .ofString "authenticated_cloud_service"

/-- `AUTHENTICATED_TRANSPORTS`. -/
def authenticatedTransports : List Obj := [transportLocalIpc, transportCloudService]

/-- A membership test finds a hash to look for: the value's own, or that of the frozenset a `set` is looked
up as. -/
def isSought : Obj → Bool
  | .other hashable => hashable
  | _ => true

/-- `value in AUTHENTICATED_TRANSPORTS`. -/
def inTransports (value : Obj) : Except Failure Bool :=
  if isSought value then .ok (authenticatedTransports.contains value) else .error .typeError

/-- `MAX_PERMISSION_VALIDITY`. -/
def maxPermissionValidity : ℤ := 5 * 60 * 1000000

/-- `MAX_DESTINATION_LENGTH`. -/
def maxDestinationLength : ℕ := 255

def text (s : String) : Str := ofChars s.toList

/-- The origin rebuilt from its parts. -/
def originOf (host : Str) : Option ℕ → Str
  | none => text "https://" ++ host
  | some port => text "https://" ++ host ++ text ":" ++ text (toString port)

/-- `canonical_https_origin`. -/
def canonicalHttpsOrigin (lib : Library) (destination : Obj) : Option Str :=
  match destination with
  | .str s =>
    if s.length < 1 ∨ maxDestinationLength < s.length then none
    else if !lib.isPrintable s || s.any lib.isSpace then none
    else
      match lib.urlsplit s with
      | none => none
      | some parts =>
        if parts.scheme ≠ text "https" ∨ parts.path ≠ [] ∨ parts.query ≠ [] ∨ parts.fragment ≠ [] ∨
            parts.username ≠ none ∨ parts.password ≠ none then none
        else
          match parts.port, parts.hostname with
          | some port, some (c :: host) =>
            if originOf (c :: host) port = s then some s else none
          | _, _ => none
  | _ => none

def isBool : Obj → Bool
  | .bool _ => true
  | _ => false

def isStr : Obj → Bool
  | .str _ => true
  | _ => false

/-- `_well_formed_context`, of an exact `DispatchContext`. -/
def wellFormedContext (context : DispatchContext) : Bool :=
  [context.processId, context.workerId, context.tenantId, context.projectId, context.runId,
      context.attemptId].all (fun value => (safe value).isSome) &&
    isBool context.ambientDatabaseAuthority && isBool context.ambientSecretAuthority &&
    isStr context.transportKind && isStr context.destination

/-- `_well_formed_invocation`, of an exact `AuthorizedInvocation`. -/
def wellFormedInvocation (invocation : AuthorizedInvocation) : Bool :=
  (safeCapability invocation.capabilityId).isSome &&
    [invocation.runId, invocation.bindingId, invocation.capabilityGrantId,
      invocation.policySnapshotId].all fun value => (safe value).isSome

/-- The identities of `_well_formed_permission`, which are read first. -/
def permissionIdentities (permission : CurrentPermission) : Bool :=
  (safeCapability permission.capabilityId).isSome &&
    [permission.decisionId, permission.permissionRevision, permission.processId, permission.workerId,
      permission.tenantId, permission.projectId, permission.runId, permission.attemptId,
      permission.capabilityGrantId, permission.policySnapshotId, permission.bindingId].all
      fun value => (safe value).isSome

/-- `_well_formed_permission`, of an exact `CurrentPermission`. -/
def wellFormedPermission (lib : Library) (permission : CurrentPermission) : Except Failure Bool :=
  if !permissionIdentities permission then .ok false
  else
    (inTransports permission.transportKind).map fun authenticated =>
      authenticated && (canonicalHttpsOrigin lib permission.destinationOrigin).isSome &&
        isBool permission.allowed && isBool permission.revoked

/-- `_instant`. -/
def instantOf (lib : Library) (value : Obj) : Option ℤ :=
  match value with
  | .str s =>
    match lib.fromisoformat s with
    | some (.aware instant) => some instant
    | _ => none
  | _ => none

/-- The window a permission states, when both ends are instants, the later one last. -/
def windowOf (lib : Library) (permission : CurrentPermission) : Option (ℤ × ℤ) :=
  match instantOf lib permission.notBefore, instantOf lib permission.notAfter with
  | some notBefore, some notAfter =>
    if notAfter ≤ notBefore then none else some (notBefore, notAfter)
  | _, _ => none

/-- `not_before <= now < not_after`. -/
def isWithin (notBefore notAfter : ℤ) : Now → Except Failure Bool
  | .aware instant => .ok (decide (notBefore ≤ instant) && decide (instant < notAfter))
  | _ => .error .typeError

/-- `_matches`. -/
def isMatching (permission : CurrentPermission) (context : DispatchContext)
    (invocation : AuthorizedInvocation) (origin : Str) : Bool :=
  permission.processId == context.processId && permission.workerId == context.workerId &&
    permission.tenantId == context.tenantId && permission.projectId == context.projectId &&
    permission.runId == context.runId && permission.attemptId == context.attemptId &&
    permission.transportKind == context.transportKind &&
    permission.destinationOrigin == .str origin && permission.runId == invocation.runId &&
    permission.capabilityId == invocation.capabilityId &&
    permission.capabilityGrantId == invocation.capabilityGrantId &&
    permission.policySnapshotId == invocation.policySnapshotId &&
    permission.bindingId == invocation.bindingId

/-! ## The decision -/

section
variable (lib : Library) (sink : DispatchAuditRecord → Bool)

/-- `_record`, and what the call answers once the entry is recorded. -/
def record (log : Log) (entry : DispatchAuditRecord) (answer : Except Failure DispatchPermit) : Outcome where
  records := log.records ++ [entry]
  asked := log.asked
  result := if sink entry then answer else .error (.refusal .auditUnavailable)

/-- The question to the resolver: `none` when it raised. -/
def ask (resolver : DispatchContext → AuthorizedInvocation → Option (Typed CurrentPermission))
    (context : DispatchContext) (invocation : AuthorizedInvocation) (log : Log) :
    Option (Typed CurrentPermission) × Log :=
  (resolver context invocation, { log with asked := log.asked + 1 })

/-- A field of a value that may be absent, as a record carries it. -/
def carried {α : Type} (read : Obj → Option String) (field : α → Obj) (value : Option α) : Obj :=
  .ofOption (value.bind fun v => read (field v))

/-- The entry of a refusal. -/
def refusalEntry (reason : Reason) (transportKind : Obj) (context : Option DispatchContext)
    (invocation : Option AuthorizedInvocation) (origin : Option Str)
    (permission : Option CurrentPermission) : DispatchAuditRecord where
  allowed := false
  reason := reason
  transportKind := transportKind
  processId := carried safe (·.processId) context
  workerId := carried safe (·.workerId) context
  tenantId := carried safe (·.tenantId) context
  projectId := carried safe (·.projectId) context
  runId := carried safe (·.runId) context
  attemptId := carried safe (·.attemptId) context
  capabilityId := carried safeCapability (·.capabilityId) invocation
  bindingId := carried safe (·.bindingId) invocation
  destinationOrigin := origin.elim .none .str
  decisionId := carried safe (·.decisionId) permission
  permissionRevision := carried safe (·.permissionRevision) permission

/-- The transport kind a refusal carries; the membership test needs a hash. -/
def refusalTransport : Option DispatchContext → Except Failure Obj
  | none => .ok .none
  | some context =>
    (inTransports context.transportKind).map fun authenticated =>
      if authenticated then context.transportKind else .none

/-- `raise _refuse(...)`. -/
def refuse (log : Log) (reason : Reason) (context : Option DispatchContext)
    (invocation : Option AuthorizedInvocation) (origin : Option Str)
    (permission : Option CurrentPermission) : Outcome :=
  match refusalTransport context with
  | .error failure => ⟨log, .error failure⟩
  | .ok transportKind =>
    record sink log (refusalEntry reason transportKind context invocation origin permission)
      (.error (.refusal reason))

/-- The entry of an allowed dispatch. -/
def allowEntry (context : DispatchContext) (invocation : AuthorizedInvocation) (origin : Str)
    (permission : CurrentPermission) : DispatchAuditRecord where
  allowed := true
  reason := .allow
  transportKind := context.transportKind
  processId := context.processId
  workerId := context.workerId
  tenantId := context.tenantId
  projectId := context.projectId
  runId := context.runId
  attemptId := context.attemptId
  capabilityId := invocation.capabilityId
  bindingId := invocation.bindingId
  destinationOrigin := .str origin
  decisionId := permission.decisionId
  permissionRevision := permission.permissionRevision

def permitOf (context : DispatchContext) (invocation : AuthorizedInvocation) (origin : Str)
    (permission : CurrentPermission) (now : Now) (notAfter : ℤ) : DispatchPermit where
  decisionId := permission.decisionId
  processId := context.processId
  workerId := context.workerId
  tenantId := context.tenantId
  projectId := context.projectId
  runId := context.runId
  attemptId := context.attemptId
  capabilityId := invocation.capabilityId
  bindingId := invocation.bindingId
  destinationOrigin := origin
  permissionRevision := permission.permissionRevision
  authorizedAt := now
  expiresAt := notAfter

/-- The checks of a well-formed decision, and its record. -/
def settle (log : Log) (context : DispatchContext) (invocation : AuthorizedInvocation) (origin : Str)
    (now : Now) (permission : CurrentPermission) : Outcome :=
  let refuse reason := refuse sink log reason (some context) (some invocation) (some origin) (some permission)
  if permission.revoked = .bool true then refuse .permissionRevoked
  else if permission.allowed ≠ .bool true then refuse .permissionNotAllowed
  else
    match windowOf lib permission with
    | none => refuse .permissionMalformed
    | some (notBefore, notAfter) =>
      if maxPermissionValidity < notAfter - notBefore then refuse .permissionWindowNotShort
      else
        match isWithin notBefore notAfter now with
        | .error failure => ⟨log, .error failure⟩
        | .ok false => refuse .permissionOutOfWindow
        | .ok true =>
          if !isMatching permission context invocation origin then refuse .permissionMismatch
          else
            record sink log (allowEntry context invocation origin permission)
              (.ok (permitOf context invocation origin permission now notAfter))

/-- What the resolver's answer comes to. -/
def weighAnswer (log : Log) (context : DispatchContext) (invocation : AuthorizedInvocation) (origin : Str)
    (now : Now) (answer : Option (Typed CurrentPermission)) : Outcome :=
  let refuse reason := refuse sink log reason (some context) (some invocation) (some origin) none
  match answer with
  | none => refuse .permissionUnavailable
  | some .other => refuse .permissionMalformed
  | some (.exact permission) =>
    match wellFormedPermission lib permission with
    | .error failure => ⟨log, .error failure⟩
    | .ok false => refuse .permissionMalformed
    | .ok true => settle lib sink log context invocation origin now permission

/-- `not isinstance(now, datetime) or now.tzinfo is None`. -/
def isUnusable : Now → Bool
  | .other => true
  | .naive => true
  | _ => false

/-- The first local check that fails on a well-formed context. -/
def localRefusal (context : DispatchContext) (now : Now) : Option Reason :=
  if isUnusable now then some .instantNotUsable
  else if !authenticatedTransports.contains context.transportKind then some .transportNotAuthenticated
  else if context.ambientDatabaseAuthority = .bool true then some .ambientDatabaseAuthority
  else if context.ambientSecretAuthority = .bool true then some .ambientSecretAuthority
  else none

/-- `authorize_dispatch`. -/
def authorizeDispatch (invocation : Typed AuthorizedInvocation) (context : Typed DispatchContext)
    (resolver : DispatchContext → AuthorizedInvocation → Option (Typed CurrentPermission)) (now : Now) :
    Outcome :=
  let log := ⟨[], 0⟩
  match context with
  | .other => refuse sink log .malformedContext none none none none
  | .exact context =>
    if !wellFormedContext context then refuse sink log .malformedContext (some context) none none none
    else
      match invocation with
      | .other => refuse sink log .malformedInvocation (some context) none none none
      | .exact invocation =>
        if !wellFormedInvocation invocation then
          refuse sink log .malformedInvocation (some context) none none none
        else
          match localRefusal context now with
          | some reason => refuse sink log reason (some context) (some invocation) none none
          | none =>
            match canonicalHttpsOrigin lib context.destination with
            | none => refuse sink log .destinationNotCanonical (some context) (some invocation) none none
            | some origin =>
              let (answer, log) := ask resolver context invocation log
              weighAnswer lib sink log context invocation origin now answer

end

end OmniviaCore.Gates.DispatchAuthority
