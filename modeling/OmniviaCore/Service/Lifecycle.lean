import OmniviaCore.Lib.Nested
import OmniviaCore.Lib.Machine

/-!
# The service lifecycle and its resource stack

`service/lifecycle.py`: the stack of acquired resources, and the state machine that unwinds it when the
service fails or stops. What each call of a release callback comes to is chosen by the environment of the
call that unwinds (`release`); a callback may also never come back.

A callback pushed twice is two resources, so a run is also read with its pushes numbered (`ticketed`), which
changes nothing (`run_ticketed`).
-/

namespace OmniviaCore.Service

open Lib

universe u v

/-- `ServiceState`. -/
inductive ServiceState where
  | stopped
  | starting
  | recovering
  | migrating
  | ready
  | running
  | draining
  | maintenance
  | failed
  deriving DecidableEq

namespace ServiceState

def value : ServiceState → String
  | stopped => "stopped"
  | starting => "starting"
  | recovering => "recovering"
  | migrating => "migrating"
  | ready => "ready"
  | running => "running"
  | draining => "draining"
  | maintenance => "maintenance"
  | failed => "failed"

/-- `LEGAL_TRANSITIONS`. -/
def legalTransitions : ServiceState → List ServiceState
  | stopped => [starting]
  | starting => [recovering, migrating, maintenance, failed, stopped]
  | migrating => [recovering, failed, stopped]
  | recovering => [ready, failed, stopped]
  | ready => [running, draining, failed]
  | running => [draining, maintenance, failed]
  | draining => [stopped, failed]
  | maintenance => [running, draining, stopped, failed]
  | failed => [stopped]

end ServiceState

/-- `ReadinessRequirements`. -/
structure ReadinessRequirements where
  compatibleManifest : Bool
  qualifiedFilesystem : Bool
  holdsLifetimeStorageLock : Bool
  soleExclusiveConnection : Bool
  exactCurrentLeaseTuple : Bool
  canonicalMigrationChecksums : Bool
  integrityCheckPassed : Bool
  exactSchemaAndTriggerFingerprint : Bool
  migrationsAndJobsRecovered : Bool
  schemaOracleDiagnostic : String

namespace ReadinessRequirements

def none : ReadinessRequirements :=
  ⟨false, false, false, false, false, false, false, false, false, ""⟩

def unmet (requirements : ReadinessRequirements) : List String :=
  [("compatible_manifest", requirements.compatibleManifest),
   ("qualified_filesystem", requirements.qualifiedFilesystem),
   ("holds_lifetime_storage_lock", requirements.holdsLifetimeStorageLock),
   ("sole_exclusive_connection", requirements.soleExclusiveConnection),
   ("exact_current_lease_tuple", requirements.exactCurrentLeaseTuple),
   ("canonical_migration_checksums", requirements.canonicalMigrationChecksums),
   ("integrity_check_passed", requirements.integrityCheckPassed),
   ("exact_schema_and_trigger_fingerprint", requirements.exactSchemaAndTriggerFingerprint),
   ("migrations_and_jobs_recovered", requirements.migrationsAndJobsRecovered)].filterMap
    fun (name, value) => if value then Option.none else some name

def satisfied (requirements : ReadinessRequirements) : Bool := requirements.unmet.isEmpty

end ReadinessRequirements

/-- What one call of a release callback comes to. -/
inductive ReleaseOutcome where
  | returned
  /-- an `Exception` other than `ResourceReleaseBlocked` -/
  | raised
  /-- `ResourceReleaseBlocked` -/
  | blocked
  /-- a `BaseException` that is no `Exception` -/
  | interrupted
  | neverReturned
  deriving DecidableEq

/-- The outcomes after which `unwind` pops the entry. -/
def ReleaseOutcome.pops : ReleaseOutcome → Bool
  | returned => true
  | raised => true
  | blocked => false
  | interrupted => false
  | neverReturned => false

/-- How a call that unwinds the stack ends. -/
inductive Ending where
  | returned
  | interrupted
  | neverReturned
  deriving DecidableEq

/-- An entry of a `ResourceStack`. -/
structure Entry (ρ : Type u) where
  name : String
  release : ρ

/-- `ResourceStack`: its entries in the order they were pushed. -/
structure ResourceStack (ρ : Type u) where
  entries : List (Entry ρ)

/-- What an unwind leaves: the entries still on the stack, the names it reports, the release calls
it made with what each came to, and how it ended. -/
structure Unwound (ρ : Type u) where
  stack : ResourceStack ρ
  released : List String
  calls : List (ρ × ReleaseOutcome)
  ending : Ending

variable {ρ : Type u}

namespace ResourceStack

def push (stack : ResourceStack ρ) (name : String) (release : ρ) : ResourceStack ρ :=
  ⟨stack.entries ++ [⟨name, release⟩]⟩

def names (stack : ResourceStack ρ) : List String := stack.entries.map (·.name)

/-- The loop of `unwind` over the entries, last pushed first; `k` counts the release calls made. -/
def unwindFrom (release : Nat → ρ → ReleaseOutcome) : Nat → List (Entry ρ) → Unwound ρ
  | _, [] => ⟨⟨[]⟩, [], [], .returned⟩
  | k, entry :: beneath =>
    let outcome := release k entry.release
    let rest := unwindFrom release (k + 1) beneath
    let kept : ResourceStack ρ := ⟨(entry :: beneath).reverse⟩
    match outcome with
    | .blocked => ⟨kept, [], [(entry.release, outcome)], .returned⟩
    | .interrupted => ⟨kept, [], [(entry.release, outcome)], .interrupted⟩
    | .neverReturned => ⟨kept, [], [(entry.release, outcome)], .neverReturned⟩
    -- cleanup must continue regardless
    | .returned | .raised =>
      ⟨rest.stack, entry.name :: rest.released, (entry.release, outcome) :: rest.calls, rest.ending⟩

/-- `unwind`, when the `k`-th release call it makes comes to `release k`. -/
def unwind (stack : ResourceStack ρ) (release : Nat → ρ → ReleaseOutcome) : Unwound ρ :=
  unwindFrom release 0 stack.entries.reverse

end ResourceStack

/-- `ServiceLifecycle`. -/
structure ServiceLifecycle (ρ : Type u) where
  state : ServiceState
  history : List ServiceState
  resources : ResourceStack ρ
  readiness : ReadinessRequirements
  lastFailure : Option String

/-- What a call gives its caller. -/
inductive Reply where
  | nothing
  | released (names : List String)
  | entered (state : ServiceState)
  | lifecycleError (message : String)
  | readinessRefused (message : String)
  | interrupted
  | neverReturned
  deriving DecidableEq

/-- One call: the lifecycle it leaves, the release calls it made and its reply. -/
structure Called (ρ : Type u) where
  lifecycle : ServiceLifecycle ρ
  calls : List (ρ × ReleaseOutcome)
  reply : Reply

/-- `SHUTDOWN_BLOCKED_REASON`. -/
def shutdownBlockedReason : String :=
  "shutdown blocked: a resource release did not complete"

/-- The `repr` of a list of names without quotes or escapes in them. -/
def reprNames (names : List String) : String :=
  "[" ++ ", ".intercalate (names.map fun name => "'" ++ name ++ "'") ++ "]"

namespace ServiceLifecycle

def new : ServiceLifecycle ρ :=
  ⟨.stopped, [.stopped], ⟨[]⟩, .none, none⟩

def canTransitionTo (l : ServiceLifecycle ρ) (target : ServiceState) : Bool :=
  target ∈ l.state.legalTransitions

/-- The assignment of `state` and the append to `history`. -/
def move (l : ServiceLifecycle ρ) (target : ServiceState) : ServiceLifecycle ρ :=
  { l with state := target, history := l.history ++ [target] }

/-- `move`, unless the state is the target already. -/
def settle (l : ServiceLifecycle ρ) (target : ServiceState) : ServiceLifecycle ρ :=
  if l.state ≠ target then l.move target else l

def transitionTo (l : ServiceLifecycle ρ) (target : ServiceState) : Called ρ :=
  if l.canTransitionTo target then
    ⟨l.move target, [], .entered target⟩
  else
    ⟨l, [], .lifecycleError ("illegal transition " ++ l.state.value ++ " -> " ++ target.value)⟩

/-- What a call does after its unwind returned; an unwind that did not return leaves the rest of the
call undone. -/
def afterUnwind (l : ServiceLifecycle ρ) (release : Nat → ρ → ReleaseOutcome)
    (rest : ServiceLifecycle ρ → ServiceLifecycle ρ) : Called ρ :=
  let unwound := l.resources.unwind release
  let left := { l with resources := unwound.stack }
  match unwound.ending with
  | .returned => ⟨rest left, unwound.calls, .released unwound.released⟩
  | .interrupted => ⟨left, unwound.calls, .interrupted⟩
  | .neverReturned => ⟨left, unwound.calls, .neverReturned⟩

def fail (l : ServiceLifecycle ρ) (reason : String) (release : Nat → ρ → ReleaseOutcome) :
    Called ρ :=
  afterUnwind { l with lastFailure := some reason } release (·.settle .failed)

def stop (l : ServiceLifecycle ρ) (release : Nat → ρ → ReleaseOutcome) : Called ρ :=
  l.afterUnwind release fun left =>
    if left.resources.names ≠ [] then
      { left with lastFailure := some shutdownBlockedReason }.settle .failed
    else
      left.settle .stopped

def publishReadiness (l : ServiceLifecycle ρ) (requirements : ReadinessRequirements)
    (release : Nat → ρ → ReleaseOutcome) : Called ρ :=
  let published := { l with readiness := requirements }
  if requirements.satisfied then
    published.transitionTo .ready
  else
    let failed := published.fail ("readiness refused; unmet: " ++ reprNames requirements.unmet) release
    let diagnostic := requirements.schemaOracleDiagnostic
    let detail :=
      if diagnostic ≠ "" then " (failed schema/trigger oracle: " ++ diagnostic ++ ")" else ""
    let message :=
      "writable readiness refused; unmet preconditions: " ++ reprNames requirements.unmet ++ detail
    match failed.reply with
    | .released _ => { failed with reply := .readinessRefused message }
    | _ => failed

end ServiceLifecycle

/-! ## Runs -/

/-- A call on the lifecycle or its stack, with what the release calls it makes come to. -/
inductive Call (ρ : Type u) where
  | push (name : String) (release : ρ)
  | unwind (release : Nat → ρ → ReleaseOutcome)
  | fail (reason : String) (release : Nat → ρ → ReleaseOutcome)
  | stop (release : Nat → ρ → ReleaseOutcome)
  | transitionTo (target : ServiceState)
  | publishReadiness (requirements : ReadinessRequirements) (release : Nat → ρ → ReleaseOutcome)

def ServiceLifecycle.call (l : ServiceLifecycle ρ) : Call ρ → Called ρ
  | .push name release => ⟨{ l with resources := l.resources.push name release }, [], .nothing⟩
  | .unwind release => l.afterUnwind release id
  | .fail reason release => l.fail reason release
  | .stop release => l.stop release
  | .transitionTo target => l.transitionTo target
  | .publishReadiness requirements release => l.publishReadiness requirements release

/-- A lifecycle with the trace of what was pushed and which releases were called. `waiting` is a
call that has not come back and never will. -/
structure Session (ρ : Type u) where
  lifecycle : ServiceLifecycle ρ
  events : List (ResourceEvent ρ ReleaseOutcome)
  waiting : Bool

namespace Session

def new : Session ρ := ⟨.new, [], false⟩

def traced (call : Call ρ) (calls : List (ρ × ReleaseOutcome)) :
    List (ResourceEvent ρ ReleaseOutcome) :=
  match call with
  | .push _ release => [.acquire release]
  | _ => calls.map fun (release, outcome) => .attempt release outcome

/-- One call; nothing follows a call that never returned. -/
def step (s : Session ρ) (call : Call ρ) : Session ρ :=
  if s.waiting then s
  else
    let called := s.lifecycle.call call
    ⟨called.lifecycle, s.events ++ traced call called.calls, called.reply == .neverReturned⟩

end Session

end OmniviaCore.Service
