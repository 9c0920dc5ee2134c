import OmniviaCore.Lib.Machine

/-!
# Cancellation tokens

`CancellationToken` of `deadline.py`. A step of the machine is one locked section of a call, the start or
the end of one callback, or the section that records the failures of a call and returns.

A handle removes the first pending callback equal to its own. The number an entry carries, and what is known
of the run (`registered`, `inTime`, `withdrawn`, `ran`, `raised`, `answers`), are read by no step of the
code.
-/

namespace OmniviaCore.Client.Cancellation

open OmniviaCore.Lib

variable {C E : Type}

/-- A callback in a list of callbacks, with the registration that put it there. -/
structure Entry (C : Type) where
  registration : ℕ
  callback : C

/-- A call of `_run` under way: the callbacks it has still to run, the one it is running, and the
failures collected. `cancels` tells the call made by `cancel` from those of late registrations. -/
structure Runner (C E : Type) where
  cancels : Bool
  todo : List (Entry C)
  running : Option (Entry C)
  failures : List E

structure Token (C E : Type) where
  cancelled : Bool
  callbacks : List (Entry C)
  failures : List E
  runners : List (Runner C E)
  /-- The callbacks registered so far, in order. -/
  registered : List C
  /-- How many of them were registered before the cancellation. -/
  inTime : ℕ
  /-- The registrations whose handle was called before the cancellation. -/
  withdrawn : List ℕ
  /-- The registrations whose callback was started. -/
  ran : List ℕ
  raised : List E
  /-- What the calls of `cancel` returned. -/
  answers : List Bool

/-- How a callback ends: it returns, raises an `Exception`, or raises a `BaseException` that is none. -/
inductive Ending (E : Type) where
  | returned
  | raised (error : E)
  | exited

inductive Label (C E : Type) where
  | cancel
  | register (callback : C)
  | unregister (registration : ℕ)
  | enter (i : ℕ)
  | leave (i : ℕ) (ending : Ending E)
  | record (i : ℕ)

/-- `__init__`. -/
def initial : Token C E where
  cancelled := false
  callbacks := []
  failures := []
  runners := []
  registered := []
  inTime := 0
  withdrawn := []
  ran := []
  raised := []
  answers := []

/-- The locked section of `cancel`. -/
def cancel (s : Token C E) : Token C E :=
  if s.cancelled then { s with answers := s.answers ++ [false] }
  else
    { s with
      cancelled := true
      callbacks := []
      runners := s.runners ++ [⟨true, s.callbacks, none, []⟩]
      inTime := s.registered.length }

/-- The locked section of `register`; a late registration runs its callback inline. -/
def register (s : Token C E) (callback : C) : Token C E :=
  let entry : Entry C := ⟨s.registered.length, callback⟩
  if s.cancelled then
    { s with
      runners := s.runners ++ [⟨false, [entry], none, []⟩]
      registered := s.registered ++ [callback] }
  else
    { s with
      callbacks := s.callbacks ++ [entry]
      registered := s.registered ++ [callback] }

/-- The handle of a registration. `list.remove` takes the first element equal to the callback, and a late
registration was given `_noop`. -/
def unregister (same : C → C → Bool) (s : Token C E) (registration : ℕ) : Token C E :=
  match s.registered[registration]? with
  | none => s
  | some callback =>
    if s.cancelled && decide (s.inTime ≤ registration) then s
    else
      { s with
        callbacks := s.callbacks.eraseP fun entry => same entry.callback callback
        withdrawn := if s.cancelled then s.withdrawn else registration :: s.withdrawn }

/-- `_run` starts its next callback. -/
def enter (s : Token C E) (i : ℕ) : Token C E :=
  match s.runners[i]? with
  | some ⟨cancels, entry :: todo, none, failures⟩ =>
    { s with
      runners := s.runners.set i ⟨cancels, todo, some entry, failures⟩
      ran := s.ran ++ [entry.registration] }
  | _ => s

/-- The running callback ends. A `BaseException` ends the whole call, with what it had collected. -/
def leave (s : Token C E) (i : ℕ) (ending : Ending E) : Token C E :=
  match s.runners[i]? with
  | some ⟨cancels, todo, some _, failures⟩ =>
    match ending with
    | .returned => { s with runners := s.runners.set i ⟨cancels, todo, none, failures⟩ }
    | .raised error =>
      { s with
        runners := s.runners.set i ⟨cancels, todo, none, failures ++ [error]⟩
        raised := s.raised ++ [error] }
    | .exited => { s with runners := s.runners.eraseIdx i }
  | _ => s

/-- `_record`, and the return of the call. -/
def record (s : Token C E) (i : ℕ) : Token C E :=
  match s.runners[i]? with
  | some ⟨cancels, [], none, failures⟩ =>
    { s with
      failures := s.failures ++ failures
      runners := s.runners.eraseIdx i
      answers := if cancels then s.answers ++ [true] else s.answers }
  | _ => s

def step (same : C → C → Bool) (s : Token C E) : Label C E → Token C E
  | .cancel => cancel s
  | .register callback => register s callback
  | .unregister registration => unregister same s registration
  | .enter i => enter s i
  | .leave i ending => leave s i ending
  | .record i => record s i

/-! ## What is asked of a run -/

/-- The condition on a step. Before the cancellation, the entry a handle finds for its callback is its
own; no callback ends in a `BaseException`. -/
def Proper (same : C → C → Bool) (s : Token C E) : Label C E → Prop
  | .unregister registration =>
    s.cancelled = false → ∀ callback, s.registered[registration]? = some callback →
      ∀ entry, s.callbacks.find? (fun entry => same entry.callback callback) = some entry →
        entry.registration = registration
  | .leave _ .exited => False
  | _ => True

/-- The registrations that are not withdrawn. -/
def Token.standing (s : Token C E) : List ℕ :=
  (List.range s.registered.length).filter (· ∉ s.withdrawn)

/-- Those of them made in time, in registration order. -/
def Token.awaited (s : Token C E) : List ℕ :=
  (List.range s.inTime).filter (· ∉ s.withdrawn)

def Runner.queued (R : Runner C E) : List ℕ := R.todo.map (·.registration)

/-- The registrations that calls under way have still to run. -/
def Token.toRun (s : Token C E) : List ℕ := s.runners.flatMap Runner.queued

/-- The failures collected and not recorded yet. -/
def Token.collected (s : Token C E) : List E := s.runners.flatMap (·.failures)

/-- What every reached state shows: one `cancel` answers true; a standing registration has run or will run,
once, and the pending ones run in their order; a withdrawn one does not run; nothing raised is lost. When the
calls have returned, all of it is done. -/
structure RunsOnce (s : Token C E) : Prop where
  answered : s.answers.count true + s.runners.countP (·.cancels) = if s.cancelled then 1 else 0
  idle : s.cancelled = false → s.ran = []
  once : s.cancelled = true →
    ∀ r < s.registered.length, r ∉ s.withdrawn → (s.ran ++ s.toRun).count r = 1
  withdrawn : ∀ r ∈ s.withdrawn, r ∉ s.ran ++ s.toRun
  in_order : s.cancelled = true → s.ran.filter (· < s.inTime) <+: s.awaited
  recorded : s.raised.Perm (s.failures ++ s.collected)
  served : s.cancelled = true → s.runners = [] →
    s.answers.count true = 1 ∧ s.ran.Perm s.standing ∧
      s.ran.filter (· < s.inTime) = s.awaited ∧ s.raised.Perm s.failures

/-- A handle call leaves the entries of the other registrations, and everything else the code keeps. -/
def Isolated (same : C → C → Bool) (s : Token C E) : Label C E → Prop
  | .unregister registration =>
    let s' := unregister same s registration
    s'.callbacks.filter (·.registration ≠ registration) =
        s.callbacks.filter (·.registration ≠ registration) ∧
      s' = { s with callbacks := s'.callbacks, withdrawn := s'.withdrawn }
  | _ => True

/-! ## The invariant -/

/-- Before the cancellation the pending entries are the standing registrations, in order. -/
structure Open (s : Token C E) : Prop where
  entries : ∀ entry ∈ s.callbacks, s.registered[entry.registration]? = some entry.callback
  pending : s.callbacks.map (·.registration) = s.standing
  withdrawn_lt : ∀ r ∈ s.withdrawn, r < s.registered.length
  no_runner : s.runners = []
  no_run : s.ran = []
  no_failure : s.failures = []
  no_raised : s.raised = []
  no_answer : s.answers = []

/-- After it every standing registration has run or waits in one call, and the pending ones run in order. -/
structure Closed (s : Token C E) : Prop where
  no_callback : s.callbacks = []
  inTime_le : s.inTime ≤ s.registered.length
  withdrawn_lt : ∀ r ∈ s.withdrawn, r < s.inTime
  once : (s.ran ++ s.toRun).Perm s.standing
  in_order : ∀ R ∈ s.runners, R.cancels = true →
    s.ran.filter (· < s.inTime) ++ R.queued = s.awaited
  late : ∀ R ∈ s.runners, R.cancels = false → ∀ r ∈ R.queued, s.inTime ≤ r
  served : (∀ R ∈ s.runners, R.cancels = false) → s.ran.filter (· < s.inTime) = s.awaited
  recorded : s.raised.Perm (s.failures ++ s.collected)
  answered : s.answers.count true + s.runners.countP (·.cancels) = 1

/-- The invariant of every run. -/
def Accounted (s : Token C E) : Prop :=
  (s.cancelled = false ∧ Open s) ∨ (s.cancelled = true ∧ Closed s)

theorem Open.accounted {s : Token C E} (hs : Open s) (hopen : s.cancelled = false) : Accounted s :=
  Or.inl ⟨hopen, hs⟩

theorem Closed.accounted {s : Token C E} (hs : Closed s) (hclosed : s.cancelled = true) : Accounted s :=
  Or.inr ⟨hclosed, hs⟩

theorem accounted_initial : Accounted (initial : Token C E) :=
  Open.accounted ⟨by simp [initial], rfl, by simp [initial], rfl, rfl, rfl, rfl, rfl⟩ rfl

/-! ## Steps before the cancellation -/

/-- The next number is not withdrawn, so it is appended to what stands. -/
theorem filter_range_succ {n : ℕ} {withdrawn : List ℕ} (hlt : ∀ r ∈ withdrawn, r < n) :
    (List.range (n + 1)).filter (· ∉ withdrawn) =
      (List.range n).filter (· ∉ withdrawn) ++ [n] := by
  have hn : n ∉ withdrawn := fun hmem => Nat.lt_irrefl n (hlt n hmem)
  rw [List.range_succ, List.filter_append]
  simp [hn]

theorem nodup_standing (s : Token C E) : s.standing.Nodup := List.nodup_range.filter _

theorem mem_standing {s : Token C E} {r : ℕ} :
    r ∈ s.standing ↔ r < s.registered.length ∧ r ∉ s.withdrawn := by
  simp [Token.standing]

theorem Open.register {s : Token C E} (hs : Open s) (hopen : s.cancelled = false) (callback : C) :
    Open (register s callback) := by
  have hnew : (Cancellation.register s callback).standing = s.standing ++ [s.registered.length] := by
    simp only [Token.standing, Cancellation.register, hopen, Bool.false_eq_true, if_false,
      List.length_append, List.length_singleton]
    exact filter_range_succ hs.withdrawn_lt
  refine ⟨?_, ?_, ?_, ?_, ?_, ?_, ?_, ?_⟩
  · intro entry hentry
    simp only [Cancellation.register, hopen, Bool.false_eq_true, if_false, List.mem_append,
      List.mem_singleton] at hentry ⊢
    rcases hentry with hold | rfl
    · have hget := hs.entries entry hold
      have hlt : entry.registration < s.registered.length :=
        (List.getElem?_eq_some_iff.mp hget).1
      rw [List.getElem?_append_left hlt]
      exact hget
    · simp
  · rw [hnew, ← hs.pending]
    simp [Cancellation.register, hopen]
  · intro r hr
    have hlt := hs.withdrawn_lt r (by simpa [Cancellation.register, hopen] using hr)
    simp only [Cancellation.register, hopen, Bool.false_eq_true, if_false, List.length_append,
      List.length_singleton]
    omega
  all_goals
    simp only [Cancellation.register, hopen, Bool.false_eq_true, if_false]
  · exact hs.no_runner
  · exact hs.no_run
  · exact hs.no_failure
  · exact hs.no_raised
  · exact hs.no_answer

/-- What a proper handle call removes: its own entry, if it is still there. -/
theorem map_eraseP_own {same : C → C → Bool} (hrefl : ∀ c, same c c = true) {entries : List (Entry C)}
    {registration : ℕ} {callback : C}
    (hnodup : (entries.map (·.registration)).Nodup)
    (hown : ∀ entry ∈ entries, entry.registration = registration → entry.callback = callback)
    (hfirst : ∀ entry, entries.find? (fun entry => same entry.callback callback) = some entry →
      entry.registration = registration) :
    entries.eraseP (fun entry => same entry.callback callback) =
      entries.filter (·.registration ≠ registration) := by
  induction entries with
  | nil => rfl
  | cons entry entries ih =>
    simp only [List.map_cons, List.nodup_cons] at hnodup
    by_cases hsame : same entry.callback callback = true
    · have hreg : entry.registration = registration := hfirst entry (by simp [hsame])
      have hrest : ∀ other ∈ entries, other.registration ≠ registration := by
        intro other hother heq
        exact hnodup.1 (List.mem_map.mpr ⟨other, hother, heq.trans hreg.symm⟩)
      rw [List.eraseP_cons_of_pos (by simpa using hsame), List.filter_cons_of_neg (by simpa using hreg)]
      exact (List.filter_eq_self.mpr (by simpa using hrest)).symm
    · have hreg : entry.registration ≠ registration := by
        intro heq
        have hcallback := hown entry (by simp) heq
        exact hsame (hcallback ▸ hrefl entry.callback)
      rw [List.eraseP_cons_of_neg (by simpa using hsame), List.filter_cons_of_pos (by simpa using hreg)]
      congr 1
      refine ih hnodup.2 (fun other hother => hown other (by simp [hother])) ?_
      intro other hother
      exact hfirst other (by simpa [hsame] using hother)

/-- A proper handle call before the cancellation takes its own entry away and no other. -/
theorem Open.callbacks_unregister {same : C → C → Bool} (hrefl : ∀ c, same c c = true) {s : Token C E}
    (hs : Open s) {registration : ℕ} {callback : C}
    (hget : s.registered[registration]? = some callback)
    (hfirst : ∀ entry, s.callbacks.find? (fun entry => same entry.callback callback) = some entry →
      entry.registration = registration) :
    s.callbacks.eraseP (fun entry => same entry.callback callback) =
      s.callbacks.filter (·.registration ≠ registration) := by
  have hnodup : (s.callbacks.map (·.registration)).Nodup := by
    rw [hs.pending]
    exact nodup_standing s
  refine map_eraseP_own hrefl hnodup ?_ hfirst
  intro entry hentry heq
  have hentries := hs.entries entry hentry
  rw [heq, hget] at hentries
  exact (Option.some.inj hentries).symm

theorem unregister_eq_of_open {same : C → C → Bool} {s : Token C E} (hopen : s.cancelled = false)
    {registration : ℕ} {callback : C} (hget : s.registered[registration]? = some callback) :
    unregister same s registration =
      { s with
        callbacks := s.callbacks.eraseP fun entry => same entry.callback callback
        withdrawn := registration :: s.withdrawn } := by
  simp [unregister, hget, hopen]

theorem unregister_eq_of_none {same : C → C → Bool} {s : Token C E} {registration : ℕ}
    (hget : s.registered[registration]? = none) : unregister same s registration = s := by
  simp [unregister, hget]

theorem Open.unregister {same : C → C → Bool} (hrefl : ∀ c, same c c = true) {s : Token C E}
    (hs : Open s) (hopen : s.cancelled = false) {registration : ℕ}
    (hproper : Proper same s (.unregister registration)) :
    Open (unregister same s registration) := by
  cases hget : s.registered[registration]? with
  | none => rwa [unregister_eq_of_none hget]
  | some callback =>
    have hrest := hs.callbacks_unregister hrefl hget (hproper hopen callback hget)
    rw [unregister_eq_of_open hopen hget, hrest]
    refine ⟨?_, ?_, ?_, hs.no_runner, hs.no_run, hs.no_failure, hs.no_raised, hs.no_answer⟩
    · intro entry hentry
      exact hs.entries entry (List.mem_filter.mp hentry).1
    · have hmap : (s.callbacks.filter (·.registration ≠ registration)).map (·.registration) =
          (s.callbacks.map (·.registration)).filter (· ≠ registration) := by
        rw [List.filter_map]
        rfl
      rw [hmap, hs.pending]
      simp only [Token.standing, List.filter_filter]
      refine List.filter_congr fun r _ => ?_
      simp
    · intro r hr
      rcases List.mem_cons.mp hr with rfl | hr
      · exact (List.getElem?_eq_some_iff.mp hget).1
      · exact hs.withdrawn_lt r hr

theorem Open.cancel {s : Token C E} (hs : Open s) (hopen : s.cancelled = false) :
    Closed (cancel s) := by
  have heq : Cancellation.cancel s = { s with
      cancelled := true
      callbacks := []
      runners := [⟨true, s.callbacks, none, []⟩]
      inTime := s.registered.length } := by
    simp [Cancellation.cancel, hopen, hs.no_runner]
  rw [heq]
  refine ⟨rfl, le_refl _, hs.withdrawn_lt, ?_, ?_, ?_, ?_, ?_, ?_⟩
  · simp only [Token.toRun, Runner.queued, List.flatMap_cons, List.flatMap_nil, List.append_nil,
      hs.no_run, List.nil_append, hs.pending]
    exact List.Perm.refl _
  · intro R hR _
    rw [List.mem_singleton] at hR
    subst hR
    simp only [Runner.queued, hs.pending, hs.no_run, List.filter_nil, List.nil_append]
    rfl
  · intro R hR hlate
    rw [List.mem_singleton] at hR
    subst hR
    cases hlate
  · intro hnone
    exact absurd (hnone _ (List.mem_singleton.mpr rfl)) (by simp)
  · simp [Token.collected, hs.no_raised, hs.no_failure]
  · simp [hs.no_answer]

/-! ## Steps after the cancellation -/

/-- A runner and the others, with what replacing or ending it leaves. -/
theorem runner_split {runners : List (Runner C E)} {i : ℕ} {R : Runner C E}
    (hget : runners[i]? = some R) :
    runners.Perm (R :: runners.eraseIdx i) ∧
      ∀ R', (runners.set i R').Perm (R' :: runners.eraseIdx i) := by
  obtain ⟨hlt, rfl⟩ := List.getElem?_eq_some_iff.mp hget
  exact ⟨(List.getElem_cons_eraseIdx_perm hlt).symm, fun R' => List.set_perm_cons_eraseIdx hlt R'⟩

theorem Closed.of_perm {s : Token C E} {runners : List (Runner C E)}
    (hs : Closed { s with runners := runners }) (hperm : s.runners.Perm runners) : Closed s where
  no_callback := hs.no_callback
  inTime_le := hs.inTime_le
  withdrawn_lt := hs.withdrawn_lt
  once := ((hperm.flatMap_right _).append_left _).trans hs.once
  in_order R hR := hs.in_order R (hperm.subset hR)
  late R hR := hs.late R (hperm.subset hR)
  served hnone := hs.served fun R hR => hnone R (hperm.symm.subset hR)
  recorded := hs.recorded.trans ((hperm.flatMap_right _).symm.append_left _)
  answered := by
    rw [hperm.countP_eq]
    exact hs.answered

theorem Closed.reorder {s : Token C E} {runners : List (Runner C E)} (hs : Closed s)
    (hperm : runners.Perm s.runners) : Closed { s with runners := runners } := by
  refine Closed.of_perm ?_ hperm
  exact hs

theorem Closed.others_late {s : Token C E} {R : Runner C E} {rest : List (Runner C E)}
    (hs : Closed { s with runners := R :: rest }) (hR : R.cancels = true) :
    ∀ R' ∈ rest, R'.cancels = false := by
  have hcount : s.answers.count true + (R :: rest).countP (·.cancels) = 1 := hs.answered
  simp only [List.countP_cons, hR, if_true] at hcount
  have hnone : rest.countP (·.cancels) = 0 := by omega
  intro R' hmem
  simpa using List.countP_eq_zero.mp hnone R' hmem

/-- A callback of the list `cancel` took is of a registration made in time. -/
theorem Closed.head_lt {s : Token C E} {todo : List (Entry C)} {entry : Entry C}
    {running : Option (Entry C)} {failures : List E} {rest : List (Runner C E)}
    (hs : Closed { s with runners := ⟨true, entry :: todo, running, failures⟩ :: rest }) :
    entry.registration < s.inTime := by
  have horder := hs.in_order _ (List.mem_cons_self) rfl
  have hmem : entry.registration ∈ s.awaited := by
    have hall : entry.registration ∈ s.ran.filter (· < s.inTime) ++
        Runner.queued (⟨true, entry :: todo, running, failures⟩ : Runner C E) := by
      simp [Runner.queued]
    rw [horder] at hall
    exact hall
  simp only [Token.awaited, List.mem_filter, List.mem_range] at hmem
  exact hmem.1

theorem Closed.enter {s : Token C E} {cancels : Bool} {todo : List (Entry C)} {entry : Entry C}
    {failures : List E} {rest : List (Runner C E)}
    (hs : Closed { s with runners := ⟨cancels, entry :: todo, none, failures⟩ :: rest }) :
    Closed { s with
      runners := ⟨cancels, todo, some entry, failures⟩ :: rest
      ran := s.ran ++ [entry.registration] } := by
  cases cancels with
  | true =>
    -- the callback is the next one awaited, and the other calls are of late registrations
    have hlt : entry.registration < s.inTime := hs.head_lt
    have hrest := hs.others_late rfl
    have hran : (s.ran ++ [entry.registration]).filter (· < s.inTime) =
        s.ran.filter (· < s.inTime) ++ [entry.registration] := by
      simp [List.filter_append, hlt]
    refine ⟨hs.no_callback, hs.inTime_le, hs.withdrawn_lt, ?_, ?_, ?_, ?_, hs.recorded, hs.answered⟩
    · have honce := hs.once
      simp only [Token.toRun, Token.standing, Runner.queued, List.flatMap_cons, List.map_cons,
        List.append_assoc, List.cons_append, List.nil_append] at honce ⊢
      exact honce
    · intro R hR hcancels
      rcases List.mem_cons.mp hR with rfl | hR
      · have horder := hs.in_order _ List.mem_cons_self rfl
        simp only [Runner.queued, List.map_cons] at horder ⊢
        rw [hran, List.append_assoc]
        exact horder
      · rw [hrest R hR] at hcancels
        cases hcancels
    · intro R hR hlate
      rcases List.mem_cons.mp hR with rfl | hR
      · cases hlate
      · exact hs.late R (List.mem_cons_of_mem _ hR) hlate
    · intro hnone
      exact absurd (hnone _ List.mem_cons_self) (by simp)
  | false =>
    have hge : s.inTime ≤ entry.registration :=
      hs.late _ List.mem_cons_self rfl _ (by simp [Runner.queued])
    have hran : (s.ran ++ [entry.registration]).filter (· < s.inTime) =
        s.ran.filter (· < s.inTime) := by
      simp [List.filter_append, hge]
    refine ⟨hs.no_callback, hs.inTime_le, hs.withdrawn_lt, ?_, ?_, ?_, ?_, hs.recorded, hs.answered⟩
    · have honce := hs.once
      simp only [Token.toRun, Token.standing, Runner.queued, List.flatMap_cons, List.map_cons,
        List.append_assoc, List.cons_append, List.nil_append] at honce ⊢
      exact honce
    · intro R hR hcancels
      rcases List.mem_cons.mp hR with rfl | hR
      · cases hcancels
      · rw [hran]
        exact hs.in_order R (List.mem_cons_of_mem _ hR) hcancels
    · intro R hR hlate
      rcases List.mem_cons.mp hR with rfl | hR
      · intro r hr
        exact hs.late _ List.mem_cons_self rfl r (List.mem_cons_of_mem _ hr)
      · exact hs.late R (List.mem_cons_of_mem _ hR) hlate
    · intro hnone
      rw [hran]
      refine hs.served fun R hR => ?_
      rcases List.mem_cons.mp hR with rfl | hR
      · rfl
      · exact hnone R (List.mem_cons_of_mem _ hR)

/-- The end of a callback; what was raised waits among the failures of the call. -/
theorem Closed.leave {s : Token C E} {cancels : Bool} {todo : List (Entry C)} {entry : Entry C}
    {failures : List E} {rest : List (Runner C E)} (errors : List E)
    (hs : Closed { s with runners := ⟨cancels, todo, some entry, failures⟩ :: rest }) :
    Closed { s with
      runners := ⟨cancels, todo, none, failures ++ errors⟩ :: rest
      raised := s.raised ++ errors } := by
  refine ⟨hs.no_callback, hs.inTime_le, hs.withdrawn_lt, hs.once, ?_, ?_, ?_, ?_, hs.answered⟩
  · intro R hR hcancels
    rcases List.mem_cons.mp hR with rfl | hR
    · exact hs.in_order ⟨cancels, todo, some entry, failures⟩ List.mem_cons_self hcancels
    · exact hs.in_order R (List.mem_cons_of_mem _ hR) hcancels
  · intro R hR hlate
    rcases List.mem_cons.mp hR with rfl | hR
    · exact hs.late ⟨cancels, todo, some entry, failures⟩ List.mem_cons_self hlate
    · exact hs.late R (List.mem_cons_of_mem _ hR) hlate
  · intro hnone
    refine hs.served fun R hR => ?_
    rcases List.mem_cons.mp hR with rfl | hR
    · exact hnone ⟨cancels, todo, none, failures ++ errors⟩ List.mem_cons_self
    · exact hnone R (List.mem_cons_of_mem _ hR)
  · have hraised := (List.Perm.append_right errors hs.recorded)
    simp only [Token.collected, List.flatMap_cons, List.append_assoc] at hraised ⊢
    refine hraised.trans (List.Perm.append_left _ (List.Perm.append_left _ ?_))
    exact List.perm_append_comm

theorem Closed.record {s : Token C E} {cancels : Bool} {failures : List E} {rest : List (Runner C E)}
    (hs : Closed { s with runners := ⟨cancels, [], none, failures⟩ :: rest }) :
    Closed { s with
      failures := s.failures ++ failures
      runners := rest
      answers := if cancels then s.answers ++ [true] else s.answers } := by
  refine ⟨hs.no_callback, hs.inTime_le, hs.withdrawn_lt, ?_, ?_, ?_, ?_, ?_, ?_⟩
  · exact hs.once
  · intro R hR hcancels
    exact hs.in_order R (List.mem_cons_of_mem _ hR) hcancels
  · intro R hR hlate
    exact hs.late R (List.mem_cons_of_mem _ hR) hlate
  · intro hnone
    cases cancels with
    | true =>
      have horder := hs.in_order _ List.mem_cons_self rfl
      simp only [Runner.queued, List.map_nil, List.append_nil] at horder
      exact horder
    | false =>
      refine hs.served fun R hR => ?_
      rcases List.mem_cons.mp hR with rfl | hR
      · rfl
      · exact hnone R hR
  · simpa [Token.collected] using hs.recorded
  · have hcount : s.answers.count true + (⟨cancels, [], none, failures⟩ :: rest).countP (·.cancels) = 1 :=
      hs.answered
    cases cancels with
    | true =>
      simp only [List.countP_cons, if_true, List.count_append, List.count_singleton_self] at hcount ⊢
      omega
    | false => simpa using hcount

theorem Closed.register {s : Token C E} (hs : Closed s) (callback : C) :
    Closed { s with
      runners := ⟨false, [⟨s.registered.length, callback⟩], none, []⟩ :: s.runners
      registered := s.registered ++ [callback] } := by
  have hlt : ∀ r ∈ s.withdrawn, r < s.registered.length := by
    intro r hr
    have hin := hs.withdrawn_lt r hr
    have hle := hs.inTime_le
    omega
  refine ⟨hs.no_callback, ?_, hs.withdrawn_lt, ?_, ?_, ?_, ?_, ?_, ?_⟩
  · have hle := hs.inTime_le
    simp only [List.length_append, List.length_singleton]
    omega
  · have honce := (List.Perm.append_right [s.registered.length] hs.once)
    simp only [Token.toRun, Token.standing, Runner.queued, List.flatMap_cons, List.map_cons, List.map_nil,
      List.length_append, List.length_singleton, List.append_assoc] at honce ⊢
    rw [filter_range_succ hlt]
    exact (List.Perm.append_left _ List.perm_append_comm).trans honce
  · intro R hR hcancels
    rcases List.mem_cons.mp hR with rfl | hR
    · cases hcancels
    · exact hs.in_order R hR hcancels
  · intro R hR hlate
    rcases List.mem_cons.mp hR with rfl | hR
    · intro r hr
      have hreg : r = s.registered.length := by simpa [Runner.queued] using hr
      have hle := hs.inTime_le
      exact hreg ▸ hle
    · exact hs.late R hR hlate
  · intro hnone
    exact hs.served fun R hR => hnone R (List.mem_cons_of_mem _ hR)
  · simpa [Token.collected] using hs.recorded
  · simpa using hs.answered

/-! ## Every run -/

theorem unregister_eq_of_closed {same : C → C → Bool} {s : Token C E} (hs : Closed s)
    (hclosed : s.cancelled = true) (registration : ℕ) : unregister same s registration = s := by
  unfold unregister
  split
  · rfl
  · split
    · rfl
    · obtain ⟨⟩ := s
      have hnone := hs.no_callback
      simp only at hnone hclosed
      subst hnone hclosed
      rfl

theorem enter_accounted {s : Token C E} (hs : Closed s) (hclosed : s.cancelled = true) (i : ℕ) :
    Accounted (enter s i) := by
  unfold enter
  split
  · next cancels entry todo failures hget =>
    obtain ⟨hsplit, hset⟩ := runner_split hget
    exact (Closed.reorder (hs.reorder hsplit.symm).enter (hset _)).accounted hclosed
  · exact hs.accounted hclosed

theorem leave_accounted {s : Token C E} (hs : Closed s) (hclosed : s.cancelled = true) (i : ℕ)
    {ending : Ending E} (hending : ending ≠ .exited) : Accounted (leave s i ending) := by
  unfold leave
  split
  · next cancels todo entry failures hget =>
    obtain ⟨hsplit, hset⟩ := runner_split hget
    have hhead := hs.reorder hsplit.symm
    cases ending with
    | returned =>
      have hend := (hhead.leave []).reorder (hset ⟨cancels, todo, none, failures ++ []⟩)
      simp only [List.append_nil] at hend
      exact hend.accounted hclosed
    | raised error => exact ((hhead.leave [error]).reorder (hset _)).accounted hclosed
    | exited => exact absurd rfl hending
  · exact hs.accounted hclosed

theorem record_accounted {s : Token C E} (hs : Closed s) (hclosed : s.cancelled = true) (i : ℕ) :
    Accounted (record s i) := by
  unfold record
  split
  · next cancels failures hget =>
    obtain ⟨hsplit, -⟩ := runner_split hget
    exact (hs.reorder hsplit.symm).record.accounted hclosed
  · exact hs.accounted hclosed

theorem Open.no_turn {s : Token C E} (hs : Open s) (i : ℕ) (ending : Ending E) :
    enter s i = s ∧ leave s i ending = s ∧ record s i = s := by
  simp [enter, leave, record, hs.no_runner]

theorem step_accounted {same : C → C → Bool} (hrefl : ∀ c, same c c = true) (s : Token C E)
    (label : Label C E) (hproper : Proper same s label) (hs : Accounted s) :
    Accounted (step same s label) := by
  rcases hs with ⟨hopen, hs⟩ | ⟨hclosed, hs⟩
  · cases label with
    | cancel => exact (hs.cancel hopen).accounted (by simp [cancel, hopen])
    | register callback =>
      exact (hs.register hopen callback).accounted (by simp [register, hopen])
    | unregister registration =>
      refine (hs.unregister hrefl hopen hproper).accounted ?_
      simp only [unregister, hopen]
      split <;> simp [hopen]
    | enter i =>
      simp only [step, (hs.no_turn i .returned).1]
      exact hs.accounted hopen
    | leave i ending =>
      simp only [step, (hs.no_turn i ending).2.1]
      exact hs.accounted hopen
    | record i =>
      simp only [step, (hs.no_turn i .returned).2.2]
      exact hs.accounted hopen
  · cases label with
    | cancel =>
      have heq : step same s .cancel = { s with answers := s.answers ++ [false] } := by
        simp [step, cancel, hclosed]
      rw [heq]
      refine Closed.accounted ⟨hs.no_callback, hs.inTime_le, hs.withdrawn_lt, hs.once, hs.in_order,
        hs.late, hs.served, hs.recorded, ?_⟩ hclosed
      simpa using hs.answered
    | register callback =>
      have heq : step same s (.register callback) = { s with
          runners := s.runners ++ [⟨false, [⟨s.registered.length, callback⟩], none, []⟩]
          registered := s.registered ++ [callback] } := by
        simp [step, register, hclosed]
      rw [heq]
      exact ((hs.register callback).reorder List.perm_append_comm).accounted hclosed
    | unregister registration =>
      simp only [step, unregister_eq_of_closed hs hclosed]
      exact hs.accounted hclosed
    | enter i => exact enter_accounted hs hclosed i
    | leave i ending =>
      refine leave_accounted hs hclosed i ?_
      rintro rfl
      exact hproper
    | record i => exact record_accounted hs hclosed i

theorem Open.runsOnce {s : Token C E} (hs : Open s) (hopen : s.cancelled = false) : RunsOnce s where
  answered := by simp [hs.no_answer, hs.no_runner, hopen]
  idle _ := hs.no_run
  once hclosed := by simp [hopen] at hclosed
  withdrawn r _ := by simp [hs.no_run, hs.no_runner, Token.toRun]
  in_order hclosed := by simp [hopen] at hclosed
  recorded := by simp [hs.no_raised, hs.no_failure, hs.no_runner, Token.collected]
  served hclosed := by simp [hopen] at hclosed

theorem Closed.prefix_awaited {s : Token C E} (hs : Closed s) :
    s.ran.filter (· < s.inTime) <+: s.awaited := by
  by_cases hnone : ∀ R ∈ s.runners, R.cancels = false
  · rw [hs.served hnone]
  · push Not at hnone
    obtain ⟨R, hR, hcancels⟩ := hnone
    exact ⟨R.queued, hs.in_order R hR (by simpa using hcancels)⟩

theorem Closed.runsOnce {s : Token C E} (hs : Closed s) (hclosed : s.cancelled = true) :
    RunsOnce s where
  answered := by simp [hs.answered, hclosed]
  idle hopen := by simp [hclosed] at hopen
  once _ r hlt hstands := by
    rw [hs.once.count_eq]
    exact List.count_eq_one_of_mem (nodup_standing s) (mem_standing.mpr ⟨hlt, hstands⟩)
  withdrawn r hr hmem := (mem_standing.mp (hs.once.subset hmem)).2 hr
  in_order _ := hs.prefix_awaited
  recorded := hs.recorded
  served _ hnone := by
    have hanswered := hs.answered
    have honce := hs.once
    have hrecorded := hs.recorded
    simp only [Token.toRun, Token.collected, hnone, List.flatMap_nil, List.append_nil,
      List.countP_nil] at hanswered honce hrecorded
    exact ⟨hanswered, honce, hs.served (by simp [hnone]), hrecorded⟩

theorem isolated_of_accounted {same : C → C → Bool} (hrefl : ∀ c, same c c = true) (s : Token C E)
    (label : Label C E) (hproper : Proper same s label) (hs : Accounted s) : Isolated same s label := by
  cases label with
  | unregister registration =>
    rcases hs with ⟨hopen, hs⟩ | ⟨hclosed, hs⟩
    · cases hget : s.registered[registration]? with
      | none => simp [Isolated, unregister_eq_of_none hget]
      | some callback =>
        have hrest := hs.callbacks_unregister hrefl hget (hproper hopen callback hget)
        simp [Isolated, unregister_eq_of_open hopen hget, hrest, List.filter_filter]
    · simp [Isolated, unregister_eq_of_closed hs hclosed]
  | _ => trivial

theorem step_cancelled (same : C → C → Bool) (s : Token C E) (label : Label C E) :
    (step same s label).cancelled = true ↔ s.cancelled = true ∨ label = .cancel := by
  cases label with
  | cancel => by_cases h : s.cancelled = true <;> simp [step, cancel, h]
  | register callback => by_cases h : s.cancelled = true <;> simp [step, register, h]
  | unregister registration =>
    simp only [step, unregister, reduceCtorEq, or_false]
    split
    · rfl
    · split <;> rfl
  | enter i =>
    simp only [step, enter, reduceCtorEq, or_false]
    split <;> rfl
  | leave i ending =>
    simp only [step, leave, reduceCtorEq, or_false]
    split
    · cases ending <;> rfl
    · rfl
  | record i =>
    simp only [step, record, reduceCtorEq, or_false]
    split <;> rfl

theorem run_cancelled (same : C → C → Bool) (s : Token C E) (labels : List (Label C E)) :
    (run (step same) s labels).cancelled = true ↔ s.cancelled = true ∨ .cancel ∈ labels := by
  induction labels generalizing s with
  | nil => simp
  | cons label labels ih =>
    rw [run_cons, ih, step_cancelled, List.mem_cons, or_assoc]
    have hcomm : label = .cancel ↔ .cancel = label := eq_comm
    rw [hcomm]

/-- A run whose handle calls find their own entries, and in which no callback ends in a `BaseException`, runs
every standing registration once. -/
theorem callbacks_run_once {same : C → C → Bool} (hrefl : ∀ c, same c c = true)
    {labels : List (Label C E)} (hproper : Along (step same) (Proper same) initial labels) :
    ((run (step same) (initial : Token C E) labels).cancelled = true ↔ .cancel ∈ labels) ∧
      RunsOnce (run (step same) initial labels) ∧
      Along (step same) (Isolated same) initial labels := by
  have hstep := step_accounted (E := E) hrefl
  refine ⟨?_, ?_, ?_⟩
  · rw [run_cancelled]
    simp [initial]
  · rcases run_invariant_along hstep accounted_initial hproper with ⟨hopen, hs⟩ | ⟨hclosed, hs⟩
    · exact hs.runsOnce hopen
    · exact hs.runsOnce hclosed
  · exact along_of_invariant hstep (isolated_of_accounted hrefl) accounted_initial hproper

/-- The first of two registrations of one callback is withdrawn by its own handle, the second runs, and so
does one that comes late. -/
theorem callbacks_run_once_second :
    RunsOnce (run (step fun _ _ : Unit => true) (initial : Token Unit Unit)
      [.register (), .register (), .unregister 0, .cancel, .cancel, .enter 0, .register (),
        .leave 0 (.raised ()), .enter 1, .leave 1 .returned, .record 0, .record 0]) :=
  (callbacks_run_once (fun _ => rfl) (by
    simp only [Along, Proper, and_true, true_and]
    intro _ callback _ entry hentry
    have hfirst : some (⟨0, ()⟩ : Entry Unit) = some entry := hentry
    cases hfirst
    rfl)).2.1

/-- Two registrations of one callback, and the handle of the second called twice: its two calls take both
entries away, and the callback never runs. -/
theorem second_call_withdraws_other :
    ¬ RunsOnce (run (step fun _ _ : Unit => true) (initial : Token Unit Unit)
      [.register (), .register (), .unregister 1, .unregister 1, .cancel, .record 0]) := by
  intro h
  have honce := h.once rfl 0 (by decide) (by decide)
  exact absurd honce (by decide)

end OmniviaCore.Client.Cancellation
