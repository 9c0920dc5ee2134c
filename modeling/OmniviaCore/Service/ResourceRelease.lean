import OmniviaCore.Service.Lifecycle

/-!
# Resources are released newest first

Every call that unwinds the stack goes through `ResourceStack.unwindFrom`, whose calls are tried from
the top of the stack down and stop at the first that does not pop its entry (`nested_unwindFrom`). So a
session keeps to the stack discipline over its whole trace (`Kept`), once its pushes are numbered.
-/

namespace OmniviaCore.Service

open Lib

universe u v

variable {ρ : Type u} {ρ' : Type v}

/-! ## Numbering the pushes -/

/-- The callbacks of the entries under `f`. -/
def ResourceStack.map (f : ρ → ρ') (stack : ResourceStack ρ) : ResourceStack ρ' :=
  ⟨stack.entries.map fun entry => ⟨entry.name, f entry.release⟩⟩

def Unwound.map (f : ρ → ρ') (unwound : Unwound ρ) : Unwound ρ' :=
  ⟨unwound.stack.map f, unwound.released, unwound.calls.map fun (r, o) => (f r, o), unwound.ending⟩

def ServiceLifecycle.map (f : ρ → ρ') (l : ServiceLifecycle ρ) : ServiceLifecycle ρ' :=
  ⟨l.state, l.history, l.resources.map f, l.readiness, l.lastFailure⟩

def Called.map (f : ρ → ρ') (called : Called ρ) : Called ρ' :=
  ⟨called.lifecycle.map f, called.calls.map fun (r, o) => (f r, o), called.reply⟩

/-- What an event is about under `f`. -/
def mapEvent (f : ρ → ρ') : ResourceEvent ρ ReleaseOutcome → ResourceEvent ρ' ReleaseOutcome
  | .acquire r => .acquire (f r)
  | .attempt r outcome => .attempt (f r) outcome

def Session.map (f : ρ → ρ') (s : Session ρ) : Session ρ' :=
  ⟨s.lifecycle.map f, s.events.map (mapEvent f), s.waiting⟩

/-- A call whose push, if it is one, is the `n`-th of its session. -/
def Call.ticket (n : Nat) : Call ρ → Call (Nat × ρ)
  | .push name release => .push name (n, release)
  | .unwind release => .unwind fun k r => release k r.2
  | .fail reason release => .fail reason fun k r => release k r.2
  | .stop release => .stop fun k r => release k r.2
  | .transitionTo target => .transitionTo target
  | .publishReadiness requirements release =>
    .publishReadiness requirements fun k r => release k r.2

def ticketedFrom : Nat → List (Call ρ) → List (Call (Nat × ρ))
  | _, [] => []
  | n, call :: calls => call.ticket n :: ticketedFrom (n + 1) calls

def ticketed (calls : List (Call ρ)) : List (Call (Nat × ρ)) := ticketedFrom 0 calls

theorem unwindFrom_map (f : ρ → ρ') (release : Nat → ρ' → ReleaseOutcome) (k : Nat)
    (entries : List (Entry ρ)) :
    (ResourceStack.unwindFrom (fun k r => release k (f r)) k entries).map f =
      ResourceStack.unwindFrom release k (entries.map fun e => ⟨e.name, f e.release⟩) := by
  induction entries generalizing k with
  | nil => rfl
  | cons entry beneath ih =>
    specialize ih (k + 1)
    simp only [List.map_cons, ResourceStack.unwindFrom, ← ih]
    cases release k (f entry.release) <;> simp [Unwound.map, ResourceStack.map]

theorem unwind_map (f : ρ → ρ') (release : Nat → ρ' → ReleaseOutcome) (stack : ResourceStack ρ) :
    (stack.unwind fun k r => release k (f r)).map f = (stack.map f).unwind release := by
  rw [ResourceStack.unwind, unwindFrom_map, ResourceStack.unwind, ResourceStack.map,
    List.map_reverse]

theorem settle_map (f : ρ → ρ') (l : ServiceLifecycle ρ) (target : ServiceState) :
    (l.settle target).map f = (l.map f).settle target := by
  unfold ServiceLifecycle.settle
  rw [apply_ite (ServiceLifecycle.map f)]
  rfl

theorem afterUnwind_map (f : ρ → ρ') (release : Nat → ρ' → ReleaseOutcome)
    (l : ServiceLifecycle ρ) (rest : ServiceLifecycle ρ → ServiceLifecycle ρ)
    (rest' : ServiceLifecycle ρ' → ServiceLifecycle ρ')
    (hrest : ∀ left, (rest left).map f = rest' (left.map f)) :
    (l.afterUnwind (fun k r => release k (f r)) rest).map f = (l.map f).afterUnwind release rest' := by
  have hresources : (l.map f).resources = l.resources.map f := rfl
  unfold ServiceLifecycle.afterUnwind
  rw [hresources, ← unwind_map]
  cases hending : (l.resources.unwind fun k r => release k (f r)).ending with
  | returned =>
    simp only [Unwound.map, hending, Called.map, hrest]
    rfl
  | interrupted =>
    simp only [Unwound.map, hending, Called.map]
    rfl
  | neverReturned =>
    simp only [Unwound.map, hending, Called.map]
    rfl

theorem fail_map (f : ρ → ρ') (release : Nat → ρ' → ReleaseOutcome) (l : ServiceLifecycle ρ)
    (reason : String) :
    (l.fail reason fun k r => release k (f r)).map f = (l.map f).fail reason release := by
  apply afterUnwind_map
  intro left
  exact settle_map f left .failed

theorem stop_map (f : ρ → ρ') (release : Nat → ρ' → ReleaseOutcome) (l : ServiceLifecycle ρ) :
    (l.stop fun k r => release k (f r)).map f = (l.map f).stop release := by
  apply afterUnwind_map
  intro left
  have hnames : (left.map f).resources.names = left.resources.names := by
    simp [ServiceLifecycle.map, ResourceStack.map, ResourceStack.names]
  rw [hnames]
  split
  · exact settle_map f _ .failed
  · exact settle_map f _ .stopped

theorem transitionTo_map (f : ρ → ρ') (l : ServiceLifecycle ρ) (target : ServiceState) :
    (l.transitionTo target).map f = (l.map f).transitionTo target := by
  unfold ServiceLifecycle.transitionTo
  rw [apply_ite (Called.map f)]
  rfl

theorem publishReadiness_map (f : ρ → ρ') (release : Nat → ρ' → ReleaseOutcome)
    (l : ServiceLifecycle ρ) (requirements : ReadinessRequirements) :
    (l.publishReadiness requirements fun k r => release k (f r)).map f =
      (l.map f).publishReadiness requirements release := by
  unfold ServiceLifecycle.publishReadiness
  by_cases hsatisfied : requirements.satisfied = true
  · simp only [hsatisfied, if_true]
    exact transitionTo_map f _ .ready
  · have hfail := fail_map f release { l with readiness := requirements }
      ("readiness refused; unmet: " ++ reprNames requirements.unmet)
    have hleft : ({ l with readiness := requirements } : ServiceLifecycle ρ).map f =
        { l.map f with readiness := requirements } := rfl
    rw [hleft] at hfail
    simp only [hsatisfied, Bool.false_eq_true, if_false]
    rw [← hfail]
    simp only [Called.map]
    split <;> simp_all

theorem call_ticket (n : Nat) (l : ServiceLifecycle (Nat × ρ)) (c : Call ρ) :
    (l.call (c.ticket n)).map Prod.snd = (l.map Prod.snd).call c := by
  cases c with
  | push name release => simp [ServiceLifecycle.call, Call.ticket, Called.map, ServiceLifecycle.map,
      ResourceStack.map, ResourceStack.push]
  | unwind release => exact afterUnwind_map Prod.snd release l id id fun _ => rfl
  | fail reason release => exact fail_map Prod.snd release l reason
  | stop release => exact stop_map Prod.snd release l
  | transitionTo target => exact transitionTo_map Prod.snd l target
  | publishReadiness requirements release =>
    exact publishReadiness_map Prod.snd release l requirements

theorem traced_ticket (n : Nat) (c : Call ρ) (calls : List ((Nat × ρ) × ReleaseOutcome)) :
    (Session.traced (c.ticket n) calls).map (mapEvent Prod.snd) =
      Session.traced c (calls.map fun (r, o) => (r.2, o)) := by
  cases c <;> simp [Session.traced, Call.ticket, mapEvent, Function.comp_def]

theorem step_ticket (n : Nat) (s : Session (Nat × ρ)) (c : Call ρ) :
    (s.step (c.ticket n)).map Prod.snd = (s.map Prod.snd).step c := by
  have hcall := call_ticket n s.lifecycle c
  unfold Session.step
  rw [apply_ite (Session.map Prod.snd)]
  refine if_congr Iff.rfl rfl ?_
  have hlifecycle : (s.map Prod.snd).lifecycle = s.lifecycle.map Prod.snd := rfl
  rw [hlifecycle, ← hcall]
  simp only [Session.map, List.map_append, traced_ticket, Called.map]

theorem run_ticketedFrom (n : Nat) (s : Session (Nat × ρ)) (calls : List (Call ρ)) :
    (run Session.step s (ticketedFrom n calls)).map Prod.snd =
      run Session.step (s.map Prod.snd) calls := by
  induction calls generalizing n s with
  | nil => rfl
  | cons c calls ih =>
    rw [ticketedFrom, run_cons, ih, step_ticket]
    rfl

theorem run_ticketed (calls : List (Call ρ)) :
    (run Session.step .new (ticketed calls)).map Prod.snd = run Session.step .new calls :=
  run_ticketedFrom 0 .new calls

/-! ## The discipline -/

def ResourceStack.newestFirst (stack : ResourceStack ρ) : List ρ :=
  stack.entries.reverse.map (·.release)

def attempts (calls : List (ρ × ReleaseOutcome)) : List (ResourceEvent ρ ReleaseOutcome) :=
  calls.map fun (release, outcome) => .attempt release outcome

theorem acquired_attempts (calls : List (ρ × ReleaseOutcome)) : acquired (attempts calls) = [] := by
  induction calls with
  | nil => rfl
  | cons c calls ih => exact ih

theorem nested_unwindFrom (release : Nat → ρ → ReleaseOutcome) (k : Nat) (entries : List (Entry ρ))
    {events : List (ResourceEvent ρ ReleaseOutcome)}
    (h : Nested ReleaseOutcome.pops events (entries.map (·.release))) :
    let unwound := ResourceStack.unwindFrom release k entries
    Nested ReleaseOutcome.pops (events ++ attempts unwound.calls) unwound.stack.newestFirst := by
  induction entries generalizing k events with
  | nil =>
    simp only [ResourceStack.unwindFrom, attempts, List.map_nil, List.append_nil]
    exact h
  | cons entry beneath ih =>
    rw [List.map_cons] at h
    have hkept : ∀ outcome, outcome.pops = false →
        Nested ReleaseOutcome.pops (events ++ attempts [(entry.release, outcome)])
          (ResourceStack.mk (entry :: beneath).reverse).newestFirst := by
      intro outcome hpops
      rw [ResourceStack.newestFirst, List.reverse_reverse]
      exact h.keep hpops
    have hpopped : ∀ outcome, outcome.pops = true →
        let rest := ResourceStack.unwindFrom release (k + 1) beneath
        Nested ReleaseOutcome.pops (events ++ attempts ((entry.release, outcome) :: rest.calls))
          rest.stack.newestFirst := by
      intro outcome hpops
      have hrest := ih (k + 1) (h.finish hpops)
      dsimp only at hrest ⊢
      rwa [List.append_assoc] at hrest
    dsimp only
    unfold ResourceStack.unwindFrom
    cases houtcome : release k entry.release with
    | returned => exact hpopped _ rfl
    | raised => exact hpopped _ rfl
    | blocked => exact hkept _ rfl
    | interrupted => exact hkept _ rfl
    | neverReturned => exact hkept _ rfl

theorem nested_unwind (release : Nat → ρ → ReleaseOutcome) (stack : ResourceStack ρ)
    {events : List (ResourceEvent ρ ReleaseOutcome)}
    (h : Nested ReleaseOutcome.pops events stack.newestFirst) :
    let unwound := stack.unwind release
    Nested ReleaseOutcome.pops (events ++ attempts unwound.calls) unwound.stack.newestFirst :=
  nested_unwindFrom release 0 stack.entries.reverse h

@[simp] theorem settle_resources (l : ServiceLifecycle ρ) (target : ServiceState) :
    (l.settle target).resources = l.resources := by
  unfold ServiceLifecycle.settle ServiceLifecycle.move
  split <;> rfl

@[simp] theorem settle_state (l : ServiceLifecycle ρ) (target : ServiceState) :
    (l.settle target).state = target := by
  unfold ServiceLifecycle.settle ServiceLifecycle.move
  split
  · rfl
  · next h => exact not_not.mp h

/-- A call made of one unwind and steps that leave the stack alone. -/
theorem nested_afterUnwind (release : Nat → ρ → ReleaseOutcome) (l : ServiceLifecycle ρ)
    {rest : ServiceLifecycle ρ → ServiceLifecycle ρ}
    (hrest : ∀ left, (rest left).resources = left.resources)
    {events : List (ResourceEvent ρ ReleaseOutcome)}
    (h : Nested ReleaseOutcome.pops events l.resources.newestFirst) :
    let called := l.afterUnwind release rest
    Nested ReleaseOutcome.pops (events ++ attempts called.calls)
      called.lifecycle.resources.newestFirst := by
  have hunwind := nested_unwind release l.resources h
  dsimp only at hunwind ⊢
  unfold ServiceLifecycle.afterUnwind
  cases hending : (l.resources.unwind release).ending with
  | returned =>
    simp only [hending, hrest]
    exact hunwind
  | interrupted => simpa only [hending] using hunwind
  | neverReturned => simpa only [hending] using hunwind

theorem nested_fail (release : Nat → ρ → ReleaseOutcome) (l : ServiceLifecycle ρ) (reason : String)
    {events : List (ResourceEvent ρ ReleaseOutcome)}
    (h : Nested ReleaseOutcome.pops events l.resources.newestFirst) :
    let called := l.fail reason release
    Nested ReleaseOutcome.pops (events ++ attempts called.calls)
      called.lifecycle.resources.newestFirst := by
  refine nested_afterUnwind release { l with lastFailure := some reason } ?_ h
  intro left
  exact settle_resources left .failed

theorem nested_stop (release : Nat → ρ → ReleaseOutcome) (l : ServiceLifecycle ρ)
    {events : List (ResourceEvent ρ ReleaseOutcome)}
    (h : Nested ReleaseOutcome.pops events l.resources.newestFirst) :
    let called := l.stop release
    Nested ReleaseOutcome.pops (events ++ attempts called.calls)
      called.lifecycle.resources.newestFirst := by
  refine nested_afterUnwind release l ?_ h
  intro left
  split
  · exact settle_resources _ .failed
  · exact settle_resources _ .stopped

theorem nested_transitionTo (l : ServiceLifecycle ρ) (target : ServiceState)
    {events : List (ResourceEvent ρ ReleaseOutcome)}
    (h : Nested ReleaseOutcome.pops events l.resources.newestFirst) :
    let called := l.transitionTo target
    Nested ReleaseOutcome.pops (events ++ attempts called.calls)
      called.lifecycle.resources.newestFirst := by
  dsimp only
  unfold ServiceLifecycle.transitionTo
  split
  · simpa [attempts, ServiceLifecycle.move] using h
  · simpa [attempts] using h

theorem nested_publishReadiness (release : Nat → ρ → ReleaseOutcome) (l : ServiceLifecycle ρ)
    (requirements : ReadinessRequirements) {events : List (ResourceEvent ρ ReleaseOutcome)}
    (h : Nested ReleaseOutcome.pops events l.resources.newestFirst) :
    let called := l.publishReadiness requirements release
    Nested ReleaseOutcome.pops (events ++ attempts called.calls)
      called.lifecycle.resources.newestFirst := by
  have hfail := nested_fail release { l with readiness := requirements }
    ("readiness refused; unmet: " ++ reprNames requirements.unmet) h
  dsimp only at hfail ⊢
  unfold ServiceLifecycle.publishReadiness
  split
  · exact nested_transitionTo { l with readiness := requirements } .ready h
  · dsimp only
    split
    · exact hfail
    · exact hfail

/-- The discipline of a session in which `n` calls were made, and tickets under which none of the
calls to come pushes. -/
structure Kept (n : Nat) (s : Session (Nat × ρ)) : Prop where
  nested : Nested ReleaseOutcome.pops s.events s.lifecycle.resources.newestFirst
  tickets : ∀ a ∈ acquired s.events, a.1 < n

theorem Kept.attempted {n : Nat} {s : Session (Nat × ρ)} (h : Kept n s)
    {called : Called (Nat × ρ)} {waiting : Bool}
    (hnested : Nested ReleaseOutcome.pops (s.events ++ attempts called.calls)
      called.lifecycle.resources.newestFirst) :
    Kept (n + 1) ⟨called.lifecycle, s.events ++ attempts called.calls, waiting⟩ := by
  refine ⟨hnested, ?_⟩
  intro a ha
  rw [acquired_append, acquired_attempts, List.append_nil] at ha
  have hlt := h.tickets a ha
  omega

theorem Kept.step {n : Nat} {s : Session (Nat × ρ)} (h : Kept n s) (c : Call ρ) :
    Kept (n + 1) (s.step (c.ticket n)) := by
  unfold Session.step
  split
  · refine ⟨h.nested, ?_⟩
    intro a ha
    have hlt := h.tickets a ha
    omega
  · cases c with
    | push name release =>
      have hnew : (n, release) ∉ acquired s.events := by
        intro hmem
        have hlt := h.tickets _ hmem
        omega
      have hfirst : (s.lifecycle.resources.push name (n, release)).newestFirst =
          (n, release) :: s.lifecycle.resources.newestFirst := by
        simp [ResourceStack.push, ResourceStack.newestFirst]
      refine ⟨?_, ?_⟩
      · simp only [Call.ticket, ServiceLifecycle.call, Session.traced, hfirst]
        exact h.nested.acquire hnew
      · intro a ha
        simp only [Call.ticket, Session.traced, acquired_append, acquired, List.mem_append,
          List.mem_singleton] at ha
        cases ha with
        | inl ha =>
          have hlt := h.tickets a ha
          omega
        | inr ha =>
          subst ha
          exact Nat.lt_succ_self n
    | unwind release => exact h.attempted (nested_afterUnwind _ _ (fun _ => rfl) h.nested)
    | fail reason release => exact h.attempted (nested_fail _ _ _ h.nested)
    | stop release => exact h.attempted (nested_stop _ _ h.nested)
    | transitionTo target => exact h.attempted (nested_transitionTo _ _ h.nested)
    | publishReadiness requirements release =>
      exact h.attempted (nested_publishReadiness _ _ _ h.nested)

theorem Kept.run {n : Nat} {s : Session (Nat × ρ)} (h : Kept n s) (calls : List (Call ρ)) :
    Kept (n + calls.length) (run Session.step s (ticketedFrom n calls)) := by
  induction calls generalizing n s with
  | nil => exact h
  | cons c calls ih =>
    have hrest := ih (h.step c)
    rwa [List.length_cons, Nat.add_comm calls.length 1, ← Nat.add_assoc]

theorem kept_ticketed (calls : List (Call ρ)) :
    Kept (0 + calls.length) (run Session.step .new (ticketed calls)) :=
  Kept.run ⟨.start, fun _ h => absurd h List.not_mem_nil⟩ calls

/-! ## What `stop` declares -/

theorem stop_released {l : ServiceLifecycle ρ} {release : Nat → ρ → ReleaseOutcome}
    {names : List String} (h : (l.stop release).reply = .released names) :
    (l.stop release).lifecycle.state = .stopped ↔
      (l.stop release).lifecycle.resources.entries = [] := by
  unfold ServiceLifecycle.stop ServiceLifecycle.afterUnwind at h ⊢
  cases hending : (l.resources.unwind release).ending with
  | interrupted => simp [hending] at h
  | neverReturned => simp [hending] at h
  | returned =>
    by_cases hempty : (l.resources.unwind release).stack.entries = []
    · simp [hending, ResourceStack.names, hempty]
    · simp [hending, ResourceStack.names, hempty]

theorem stop_unreleased {l : ServiceLifecycle ρ} {release : Nat → ρ → ReleaseOutcome}
    (h : ∀ names, (l.stop release).reply ≠ .released names) :
    (l.stop release).lifecycle.state = l.state ∧
      (l.stop release).lifecycle.history = l.history := by
  unfold ServiceLifecycle.stop ServiceLifecycle.afterUnwind at h ⊢
  cases hending : (l.resources.unwind release).ending with
  | returned => simp [hending] at h
  | interrupted => simp [hending]
  | neverReturned => simp [hending]

/-- In every session, with its pushes numbered: a release is called only for the newest resource
not given up, so each is given up once at most, the newest first; the stack records what was pushed
and not given up, in the order of the pushes; and a `stop` that comes back declares `STOPPED` exactly
when the stack is empty. A resource is given up when its release returns or raises an ordinary
exception. -/
theorem resources_released_newest_first [DecidableEq ρ] (calls : List (Call ρ)) :
    let s := run Session.step .new (ticketed calls)
    s.map Prod.snd = run Session.step .new calls ∧
    (∀ before r outcome after, s.events = before ++ .attempt r outcome :: after →
      r ∉ finished ReleaseOutcome.pops before ∧
      ∃ earlier later, acquired before = earlier ++ r :: later ∧
        ∀ r' ∈ later, r' ∈ finished ReleaseOutcome.pops before) ∧
    (acquired s.events).Nodup ∧ (finished ReleaseOutcome.pops s.events).Nodup ∧
    s.lifecycle.resources.entries.map (·.release) =
      (acquired s.events).filter (fun r => r ∉ finished ReleaseOutcome.pops s.events) ∧
    ∀ release, let stopped := s.lifecycle.stop release
      (∀ names, stopped.reply = .released names →
        (stopped.lifecycle.state = .stopped ↔ stopped.lifecycle.resources.entries = [])) ∧
      ((∀ names, stopped.reply ≠ .released names) →
        stopped.lifecycle.state = s.lifecycle.state ∧
        stopped.lifecycle.history = s.lifecycle.history) := by
  have hkept := (kept_ticketed calls).nested
  have hbalanced := hkept.balanced
  refine ⟨run_ticketed calls, ?_, hbalanced.nodup_acquired, hbalanced.nodup_finished, ?_, ?_⟩
  · intro before r outcome after hevents
    rw [hevents] at hkept
    exact hkept.attempt_newest
  · have hrecorded := hbalanced.reverse_held
    rw [ResourceStack.newestFirst, List.map_reverse, List.reverse_reverse] at hrecorded
    rw [hrecorded]
    exact List.filter_congr fun _ _ => decide_eq_decide.mpr Iff.rfl
  · intro release
    exact ⟨fun _ h => stop_released h, fun h => stop_unreleased h⟩

/-- The storage lock and the connection over it, and an unwind in which closing the connection
raises. -/
def raisingClose : List (Call String) :=
  [.push "storage_lock" "unlock", .push "connection" "close",
   .unwind fun _ release => if release = "close" then .raised else .returned]

/-- A release that raises is not recorded as still to be made: the connection whose `close` raised is
off the stack, and the lock beneath it was released. -/
theorem raising_release_forgotten :
    ¬ ∀ calls : List (Call String),
      let s := run Session.step .new (ticketed calls)
      s.lifecycle.resources.entries.map (·.release) =
        (acquired s.events).filter (fun r => r ∉ finished (· == ReleaseOutcome.returned) s.events) := by
  intro h
  exact absurd (h raisingClose) (by decide)

end OmniviaCore.Service
