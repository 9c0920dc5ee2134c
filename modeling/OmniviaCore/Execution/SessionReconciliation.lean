import OmniviaCore.Lib.Stateful
import OmniviaCore.Execution.LeaseSafety

/-!
# Reconciliation of session references

`reconcile` answers for an external reference, but the plane keeps a lease a session, and the reference
is looked up as the first session, by name, whose lease names it. `reconcile_state` says what it answers
of the leases that name the reference. The table of its documentation is about the reference alone
(`Exact`), and a run under other session names is the same run (`run_renames`): the answer is the table's,
under every naming, exactly when the leases naming the reference agree (`Agreed`).
-/

namespace OmniviaCore.Execution

open Lib

variable {L : Type}

/-! ## The reference a lease names -/

namespace SessionLease

def Unexpired (now : Int) (lease : SessionLease L) : Prop :=
  lease.state = .held ∧ now < lease.expiresAtUs

instance (now : Int) (lease : SessionLease L) : Decidable (lease.Unexpired now) := by
  unfold Unexpired
  infer_instance

/-- The lease after the expiry loop of `reconcile`. -/
def swept (now : Int) (lease : SessionLease L) : SessionLease L :=
  if lease.overdue now then { lease with state := .expired } else lease

variable {now : Int} {lease : SessionLease L}

@[simp] theorem swept_sessionId : (lease.swept now).sessionId = lease.sessionId := by
  unfold swept
  split <;> rfl

@[simp] theorem swept_externalReference :
    (lease.swept now).externalReference = lease.externalReference := by
  unfold swept
  split <;> rfl

theorem swept_held : (lease.swept now).state = .held ↔ lease.Unexpired now := by
  unfold swept Unexpired
  split
  · next hdue =>
    simp only [overdue, Bool.and_eq_true, decide_eq_true_eq] at hdue
    simp only [reduceCtorEq, false_iff]
    omega
  · next hdue =>
    simp only [overdue, Bool.and_eq_true, decide_eq_true_eq, not_and, not_le] at hdue
    exact ⟨fun hheld => ⟨hheld, hdue hheld⟩, fun h => h.1⟩

@[simp] theorem swept_swept : (lease.swept now).swept now = lease.swept now := by
  unfold swept
  split
  · simp [overdue]
  · rfl

end SessionLease

namespace SessionPlane

variable {p : SessionPlane L} {now : Int} {r : String} {lease : SessionLease L}

/-- The lease is a session's current one and names the reference. -/
def Names (p : SessionPlane L) (r : String) (lease : SessionLease L) : Prop :=
  p.leases.lookup lease.sessionId = some lease ∧ lease.externalReference = r

/-- The plane holds an unexpired lease for the reference. -/
def Holds (p : SessionPlane L) (now : Int) (r : String) : Prop :=
  ∃ lease, p.Names r lease ∧ lease.Unexpired now

theorem mem_sortedIds {id : String} : id ∈ p.sortedIds ↔ (p.leases.lookup id).isSome = true := by
  rw [sortedIds, List.mem_mergeSort, AList.lookup_isSome, AList.mem_keys]

theorem expireOverdue_lookup (first id : String) :
    (p.expireOverdue now first).leases.lookup id =
      if id = first then (p.leases.lookup id).map (·.swept now) else p.leases.lookup id := by
  unfold expireOverdue
  cases hfirst : p.leases.lookup first with
  | none =>
    dsimp only
    split
    · next hid => rw [hid, hfirst, Option.map_none]
    · rfl
  | some c =>
    have hkey := p.keyed first c hfirst
    subst hkey
    dsimp only
    split
    · next hdue =>
      by_cases hid : id = c.sessionId
      · subst hid
        rw [if_pos rfl, hfirst, expire, write_leases, AList.lookup_insert, Option.map_some,
          SessionLease.swept, if_pos hdue]
      · rw [if_neg hid, expire, write_leases, AList.lookup_insert_ne hid]
    · next hdue =>
      split
      · next hid => rw [hid, hfirst, Option.map_some, SessionLease.swept, if_neg hdue]
      · rfl

theorem foldl_expireOverdue_lookup (p : SessionPlane L) (ids : List String) (id : String) :
    (ids.foldl (expireOverdue now) p).leases.lookup id =
      if id ∈ ids then (p.leases.lookup id).map (·.swept now) else p.leases.lookup id := by
  induction ids generalizing p with
  | nil => rfl
  | cons first ids ih =>
    rw [List.foldl_cons, ih, expireOverdue_lookup]
    by_cases hid : id = first
    · subst hid
      cases p.leases.lookup id <;> simp
    · simp [hid]

/-- The expiry loop of `reconcile` sweeps every lease. -/
theorem sweep_lookup (id : String) :
    (p.sortedIds.foldl (expireOverdue now) p).leases.lookup id =
      (p.leases.lookup id).map (·.swept now) := by
  rw [foldl_expireOverdue_lookup]
  split
  · rfl
  · next hid =>
    rw [mem_sortedIds, Option.not_isSome_iff_eq_none] at hid
    rw [hid, Option.map_none]

theorem sweep_names {swept : SessionPlane L}
    (hswept : ∀ id, swept.leases.lookup id = (p.leases.lookup id).map (·.swept now)) :
    swept.Names r lease ↔ ∃ c, p.Names r c ∧ c.swept now = lease := by
  unfold Names
  rw [hswept, Option.map_eq_some_iff]
  constructor
  · rintro ⟨⟨c, hc, rfl⟩, hr⟩
    rw [SessionLease.swept_sessionId] at hc
    exact ⟨c, ⟨hc, by rwa [SessionLease.swept_externalReference] at hr⟩, rfl⟩
  · rintro ⟨c, ⟨hc, hr⟩, rfl⟩
    rw [SessionLease.swept_sessionId, SessionLease.swept_externalReference]
    exact ⟨⟨c, hc, rfl⟩, hr⟩

/-- The first lease naming the reference, by the name of its session. -/
structure First (p : SessionPlane L) (r : String) (first : SessionLease L) : Prop where
  names : p.Names r first
  least : ∀ lease, p.Names r lease → first.sessionId ≤ lease.sessionId

theorem mem_leases :
    lease ∈ p.sortedIds.filterMap p.leases.lookup ↔
      p.leases.lookup lease.sessionId = some lease := by
  rw [List.mem_filterMap]
  constructor
  · rintro ⟨id, -, hid⟩
    rwa [p.keyed id lease hid]
  · intro h
    exact ⟨lease.sessionId, mem_sortedIds.2 (by rw [h, Option.isSome_some]), h⟩

theorem pairwise_leases :
    (p.sortedIds.filterMap p.leases.lookup).Pairwise fun a b => a.sessionId ≤ b.sessionId := by
  rw [List.pairwise_filterMap]
  have hsorted : p.sortedIds.Pairwise fun a b => a ≤ b := by
    have h := @List.pairwise_mergeSort String (fun a b => decide (a ≤ b))
      (fun a b c hab hbc => by simpa using le_trans (by simpa using hab) (by simpa using hbc))
      (fun a b => by simpa using le_total a b) p.leases.keys
    simpa [sortedIds] using h
  refine hsorted.imp fun {a b} hab c hc d hd => ?_
  rw [p.keyed a c hc, p.keyed b d hd]
  exact hab

theorem byExternalReference_eq_none :
    p.byExternalReference r = none ↔ ∀ lease, ¬p.Names r lease := by
  unfold byExternalReference Names
  rw [List.find?_eq_none]
  simp only [mem_leases, decide_eq_true_eq, not_and]

theorem byExternalReference_eq_some (h : p.byExternalReference r = some lease) : p.First r lease := by
  unfold byExternalReference at h
  obtain ⟨hr, before, after, hsplit, hbefore⟩ := List.find?_eq_some_iff_append.1 h
  have hmem : lease ∈ p.sortedIds.filterMap p.leases.lookup := by simp [hsplit]
  refine ⟨⟨mem_leases.1 hmem, by simpa using hr⟩, fun other hother => ?_⟩
  have hsorted := p.pairwise_leases
  have hmem' := mem_leases.2 hother.1
  rw [hsplit] at hsorted hmem'
  rcases List.mem_append.1 hmem' with hmem' | hmem'
  · exact absurd hother.2 (by simpa using hbefore other hmem')
  · rcases List.mem_cons.1 hmem' with rfl | hmem'
    · exact le_rfl
    · exact (List.pairwise_cons.1 (List.pairwise_append.1 hsorted).2.1).1 other hmem'

/-! ## What `reconcile` answers -/

variable {live : List String} {clock : Int} {result : ReconcileResult}

/-- The arguments `reconcile` accepts. -/
def Accepted (r : String) (live : List String) (clock : Int) : Prop :=
  isIdentifier r = true ∧ live.length ≤ MAX_COLLECTION_LENGTH ∧ live.all isIdentifier = true ∧
    live.Nodup ∧ 0 ≤ clock

theorem answers_iff {label : Int × SessionCall L} {a : SessionAnswer L} :
    p.Answers label a ↔ ∃ p', label.2.perform label.1 p = .ok a p' := by
  constructor
  · exact fun h => ⟨_, step_eq_of_answers h⟩
  · rintro ⟨p', h⟩
    unfold Answers
    rw [h]
    rfl

/-- A reference is reconciled exactly when the arguments are accepted, whatever the plane. -/
theorem answers_reconcile_iff :
    (∃ result, p.Answers (clock, .reconcile r live) (.reconciled result)) ↔
      Accepted r live clock := by
  simp only [answers_iff, Accepted, SessionCall.perform, map_returns, Session.reconcile,
    requireIdentifier, requireCollection, bind_returns, demand_returns, Session.now_eq_ok,
    get_returns, set_returns, pure_returns]
  constructor
  · rintro ⟨result, _, _, ⟨_, _, ⟨hr, rfl⟩, _, _, ⟨_, _, ⟨hlength, rfl⟩, _, _, ⟨hall, rfl⟩, hnodup, rfl⟩, _, _,
      ⟨hclock, -⟩, -⟩, -⟩
    exact ⟨hr, hlength, hall, hnodup, hclock⟩
  · rintro ⟨hr, hlength, hall, hnodup, hclock⟩
    exact ⟨_, _, _, ⟨⟨⟩, p, ⟨hr, rfl⟩, ⟨⟩, p, ⟨⟨⟩, p, ⟨hlength, rfl⟩, ⟨⟩, p, ⟨hall, rfl⟩, hnodup, rfl⟩, clock, p,
      ⟨hclock, rfl, rfl⟩, p, p, ⟨rfl, rfl⟩, ⟨⟩, _, rfl, rfl, rfl⟩, rfl⟩

/-- The answer is read off the first lease that names the reference. -/
theorem reconcile_state (h : p.Answers (clock, .reconcile r live) (.reconciled result)) :
    (∃ first, p.First r first ∧ result.state =
      if r ∈ live then (if first.Unexpired clock then .active else .orphaned) else .released) ∨
    ((∀ lease, ¬p.Names r lease) ∧ result.state = if r ∈ live then .orphaned else .unknown) := by
  obtain ⟨p', h⟩ := answers_iff.1 h
  simp only [SessionCall.perform, map_returns, Session.reconcile, requireIdentifier,
    requireCollection, bind_returns, demand_returns, Session.now_eq_ok, get_returns, set_returns,
    pure_returns] at h
  obtain ⟨_, ⟨_, _, ⟨-, rfl⟩, _, _, ⟨_, _, ⟨-, rfl⟩, _, _, ⟨-, rfl⟩, -, rfl⟩, _, _, ⟨-, rfl, rfl⟩, _, _,
    ⟨rfl, rfl⟩, _, _, -, rfl, -⟩, hresult⟩ := h
  cases hresult
  have hlookup : ∀ id, (p.sortedIds.foldl (expireOverdue clock) p).leases.lookup id =
      (p.leases.lookup id).map (·.swept clock) := fun id => p.sweep_lookup id
  generalize p.sortedIds.foldl (expireOverdue clock) p = swept at *
  cases hknown : swept.byExternalReference r with
  | none =>
    rw [byExternalReference_eq_none] at hknown
    refine .inr ⟨fun lease hlease => hknown _ ((sweep_names hlookup).2 ⟨lease, hlease, rfl⟩), ?_⟩
    simp [Session.reconciled]
  | some lease =>
    obtain ⟨hnames, hleast⟩ := byExternalReference_eq_some hknown
    obtain ⟨first, hfirst, rfl⟩ := (sweep_names hlookup).1 hnames
    refine .inl ⟨first, ⟨hfirst, fun other hother => ?_⟩, ?_⟩
    · have := hleast _ ((sweep_names hlookup).2 ⟨other, hother, rfl⟩)
      rwa [SessionLease.swept_sessionId, SessionLease.swept_sessionId] at this
    · simp [Session.reconciled, SessionLease.swept_held]

end SessionPlane

/-! ## The same run under other names -/

/-- Other names for the sessions. -/
structure Renaming where
  perm : Equiv.Perm String
  valid : ∀ id, isIdentifier (perm id) = isIdentifier id

def Renaming.refl : Renaming := ⟨Equiv.refl String, fun _ => rfl⟩

def Renaming.exchange (a b : SessionLease L) : Renaming where
  perm := Equiv.swap a.sessionId b.sessionId
  valid id := by
    rw [Equiv.swap_apply_def]
    split
    · next ha => rw [ha, a.sessionId_valid, b.sessionId_valid]
    · split
      · next hb => rw [hb, a.sessionId_valid, b.sessionId_valid]
      · rfl

variable (ρ : Renaming)

def SessionLease.rename (lease : SessionLease L) : SessionLease L :=
  { lease with
    sessionId := ρ.perm lease.sessionId
    sessionId_valid := (ρ.valid _).trans lease.sessionId_valid }

def SessionSnapshot.rename (taken : SessionSnapshot) : SessionSnapshot :=
  { taken with sessionId := ρ.perm taken.sessionId }

def SessionCall.rename : SessionCall L → SessionCall L
  | .acquire sessionId holder lineage ttlUs externalReference =>
    .acquire (ρ.perm sessionId) holder lineage ttlUs externalReference
  | .inspect sessionId => .inspect (ρ.perm sessionId)
  | .snapshot lease => .snapshot (lease.rename ρ)
  | .transferControl lease newHolder => .transferControl (lease.rename ρ) newHolder
  | .resume taken holder lineage ttlUs => .resume (taken.rename ρ) holder lineage ttlUs
  | .release lease => .release (lease.rename ρ)
  | .reconcile externalReference live => .reconcile externalReference live

def renamed (labels : List (Int × SessionCall L)) : List (Int × SessionCall L) :=
  labels.map fun label => (label.1, label.2.rename ρ)

/-- The leases of the second plane are those of the first under the other names. -/
structure Renames (p q : SessionPlane L) : Prop where
  provider : q.provider = p.provider
  leases : ∀ id, q.leases.lookup (ρ.perm id) = (p.leases.lookup id).map (·.rename ρ)

variable {ρ} {p q : SessionPlane L} {now clock : Int}

theorem SessionLease.construct_rename {sessionId holder : String} {fence expiresAtUs : Int}
    {lineage : L} {externalReference : String} :
    construct (ρ.perm sessionId) holder fence expiresAtUs lineage externalReference =
      (construct sessionId holder fence expiresAtUs lineage externalReference).map (·.rename ρ) := by
  have hvalid := ρ.valid sessionId
  unfold construct
  by_cases h₁ : isIdentifier sessionId = true
  · rw [dif_pos (hvalid.trans h₁), dif_pos h₁]
    split_ifs <;> rfl
  · rw [dif_neg (by rwa [hvalid]), dif_neg h₁]
    rfl

theorem Renames.write (h : Renames ρ p q) (kind : EventKind) (lease : SessionLease L) (atUs : Int) :
    Renames ρ (p.write kind lease atUs) (q.write kind (lease.rename ρ) atUs) where
  provider := h.provider
  leases id := by
    rw [SessionPlane.write_leases, SessionPlane.write_leases]
    by_cases hid : id = lease.sessionId
    · subst hid
      rw [AList.lookup_insert, SessionLease.rename, AList.lookup_insert]
      rfl
    · have hne : ρ.perm id ≠ (lease.rename ρ).sessionId := fun he => hid (ρ.perm.injective he)
      rw [AList.lookup_insert_ne hid, AList.lookup_insert_ne hne]
      exact h.leases id

theorem Renames.record (h : Renames ρ p q) {kind : EventKind} {lease lease' : SessionLease L}
    {atUs : Int} {state : Option SessionState} :
    Renames ρ (p.record kind lease atUs state) (q.record kind lease' atUs state) :=
  ⟨h.provider, h.leases⟩

theorem SessionPlane.foldl_expireOverdue_provider (p : SessionPlane L) (ids : List String) :
    (ids.foldl (expireOverdue now) p).provider = p.provider := by
  induction ids generalizing p with
  | nil => rfl
  | cons first ids ih =>
    rw [List.foldl_cons, ih]
    unfold expireOverdue
    split
    · split <;> rfl
    · rfl

theorem SessionLease.swept_rename (lease : SessionLease L) :
    (lease.rename ρ).swept now = (lease.swept now).rename ρ := by
  have hdue : (lease.rename ρ).overdue now = lease.overdue now := rfl
  unfold swept
  rw [hdue]
  split <;> rfl

/-- The expiry loop goes through the sessions in another order and expires the same. -/
theorem Renames.sweep (h : Renames ρ p q) (now : Int) :
    Renames ρ (p.sortedIds.foldl (SessionPlane.expireOverdue now) p)
      (q.sortedIds.foldl (SessionPlane.expireOverdue now) q) where
  provider := by
    rw [SessionPlane.foldl_expireOverdue_provider, SessionPlane.foldl_expireOverdue_provider,
      h.provider]
  leases id := by
    rw [SessionPlane.sweep_lookup, SessionPlane.sweep_lookup, h.leases]
    cases p.leases.lookup id with
    | none => rfl
    | some lease => simp [SessionLease.swept_rename]

namespace Session

/-- The answer of the second run is the answer of the first under the other names. -/
def Renamed (ρ : Renaming) (a b : SessionLease L) : Prop := b = a.rename ρ

theorem now_coupled : Coupled (Renames (L := L) ρ) Eq (Session.now clock) (Session.now clock) :=
  .bind (.demand Iff.rfl) fun _ _ _ => .pure rfl

theorem requireSuspendResume_coupled : Coupled (Renames (L := L) ρ) (fun _ _ => True)
    Session.requireSuspendResume Session.requireSuspendResume :=
  .bind .get fun p q h => .demand (by rw [h.provider])

theorem checked_coupled {made made' : Except ExecutionError (SessionLease L)}
    (h : made' = made.map (·.rename ρ)) :
    Coupled (Renames ρ) (Renamed ρ) (Session.checked made) (Session.checked made') := by
  subst h
  cases made with
  | ok lease => exact .pure rfl
  | error e => exact .throw

theorem requireFree_coupled (current : SessionLease L) {message message' : String} :
    Coupled (Renames ρ) (Renamed ρ) (Session.requireFree current now message)
      (Session.requireFree (current.rename ρ) now message') := by
  unfold Session.requireFree
  by_cases hheld : current.state = .held
  · rw [if_pos hheld, if_pos (show (current.rename ρ).state = .held from hheld)]
    refine .bind (.demand Iff.rfl) fun _ _ _ => .bind (.modifies fun s t h => ?_) fun _ _ _ => .pure rfl
    exact h.write .expired _ now
  · rw [if_neg hheld, if_neg (show ¬(current.rename ρ).state = .held from hheld)]
    exact .pure rfl

theorem nextFence_coupled (current : Option (SessionLease L)) {message message' : String} :
    Coupled (Renames ρ) Eq (Session.nextFence current now message)
      (Session.nextFence (current.map (·.rename ρ)) now message') := by
  cases current with
  | none => exact .pure rfl
  | some current =>
    refine .bind (requireFree_coupled current) fun a b hab => ?_
    obtain rfl := hab
    exact .pure rfl

theorem active_coupled (lease : SessionLease L) :
    Coupled (Renames ρ) (Renamed ρ) (Session.active lease now)
      (Session.active (lease.rename ρ) now) := by
  refine .bind .get fun p q h => ?_
  have hlookup := h.leases lease.sessionId
  dsimp only [SessionLease.rename] at hlookup ⊢
  cases hp : p.leases.lookup lease.sessionId with
  | none =>
    rw [hp, Option.map_none] at hlookup
    rw [hlookup]
    exact .throw
  | some current =>
    rw [hp, Option.map_some] at hlookup
    rw [hlookup]
    refine .bind (.demand Iff.rfl) fun _ _ _ => .bind (.demand Iff.rfl) fun _ _ _ => ?_
    by_cases hdue : current.expiresAtUs ≤ now
    · rw [if_pos hdue, if_pos hdue]
      exact .bind (.modifies fun s t h => h.write .expired _ now) fun _ _ _ => .throw
    · rw [if_neg hdue, if_neg hdue]
      exact .pure rfl

theorem requireCollection_coupled {S : SessionPlane L → SessionPlane L → Prop} {fieldName : String}
    {values : List String} : Coupled S (fun _ _ => True) (requireCollection fieldName values)
      (requireCollection fieldName values) :=
  .bind (.demand Iff.rfl) fun _ _ _ => .bind (.demand Iff.rfl) fun _ _ _ => .demand Iff.rfl

theorem reconcile_coupled {r : String} {live : List String} :
    Coupled (Renames (L := L) ρ) (fun _ _ => True) (Session.reconcile r live clock)
      (Session.reconcile r live clock) := by
  refine .bind (.demand Iff.rfl) fun _ _ _ => .bind requireCollection_coupled fun _ _ _ =>
    .bind now_coupled fun now _ hnow => .bind .get fun p q h => .bind (.set ?_) fun _ _ _ => .pure trivial
  subst hnow
  have hswept : Renames ρ (p.sortedIds.foldl (SessionPlane.expireOverdue now) p)
      (q.sortedIds.foldl (SessionPlane.expireOverdue now) q) := h.sweep now
  refine ⟨?_, fun id => ?_⟩
  · split <;> split <;> exact hswept.provider
  · split <;> split <;> exact hswept.leases id

theorem perform_coupled (call : SessionCall L) :
    Coupled (Renames ρ) (fun _ _ => True) (call.perform clock) ((call.rename ρ).perform clock) := by
  cases call with
  | acquire sessionId holder lineage ttlUs externalReference =>
    refine .map (R := Renamed ρ) (.bind (.demand (by rw [ρ.valid])) fun _ _ _ => .bind (.demand Iff.rfl) fun _ _ _ =>
      .bind (.demand Iff.rfl) fun _ _ _ => .bind (.demand Iff.rfl) fun _ _ _ => .bind now_coupled fun now _ hnow =>
      .bind .get fun p q h => ?_)
    subst hnow
    rw [h.leases]
    refine .bind (nextFence_coupled _) fun fence _ hfence => ?_
    subst hfence
    refine .bind (checked_coupled SessionLease.construct_rename) fun lease _ hlease => ?_
    obtain rfl := hlease
    exact .bind (.modifies fun s t h => h.write .acquired lease now) fun _ _ _ => .pure rfl
  | inspect sessionId =>
    refine .map (R := fun _ _ => True) (.bind (.demand (by rw [ρ.valid])) fun _ _ _ =>
      .bind .get fun p q h => ?_)
    rw [h.leases]
    cases p.leases.lookup sessionId with
    | none => exact .pure trivial
    | some lease =>
      refine .bind now_coupled fun now _ hnow => ?_
      subst hnow
      have hdue : (lease.rename ρ).overdue now = lease.overdue now := rfl
      dsimp only
      rw [hdue]
      split
      · exact .bind (.modifies fun s t h => h.write .expired _ now) fun _ _ _ => .pure trivial
      · exact .pure trivial
  | snapshot lease =>
    refine .map (R := fun _ _ => True) (.bind requireSuspendResume_coupled fun _ _ _ =>
      .bind now_coupled fun now _ hnow => ?_)
    subst hnow
    exact .bind (active_coupled lease) fun _ _ _ => .bind (.modifies fun s t h => h.record)
      fun _ _ _ => .pure trivial
  | transferControl lease newHolder =>
    refine .map (R := Renamed ρ) (.bind .get fun p q h => .bind (.demand (by rw [h.provider]))
      fun _ _ _ => .bind (.demand Iff.rfl) fun _ _ _ => .bind now_coupled fun now _ hnow => ?_)
    subst hnow
    refine .bind (active_coupled lease) fun current _ hcurrent => ?_
    obtain rfl := hcurrent
    refine .bind (checked_coupled SessionLease.construct_rename) fun made _ hmade => ?_
    obtain rfl := hmade
    exact .bind (.modifies fun s t h => h.write .transferred made now) fun _ _ _ => .pure rfl
  | resume taken holder lineage ttlUs =>
    refine .map (R := Renamed ρ) (.bind requireSuspendResume_coupled fun _ _ _ =>
      .bind (.demand Iff.rfl) fun _ _ _ => .bind (.demand Iff.rfl) fun _ _ _ =>
      .bind now_coupled fun now _ hnow => .bind .get fun p q h => ?_)
    subst hnow
    dsimp only [SessionSnapshot.rename]
    rw [h.leases]
    cases p.leases.lookup taken.sessionId with
    | none => exact .throw
    | some current =>
      refine .bind (requireFree_coupled current) fun free _ hfree => .bind (.demand ?_) fun _ _ _ => ?_
      · obtain rfl := hfree
        exact Iff.rfl
      · obtain rfl := hfree
        refine .bind (checked_coupled SessionLease.construct_rename) fun made _ hmade => ?_
        obtain rfl := hmade
        exact .bind (.modifies fun s t h => h.write .resumed made now) fun _ _ _ => .pure rfl
  | release lease =>
    refine .map (R := Renamed ρ) (.bind now_coupled fun now _ hnow => ?_)
    subst hnow
    refine .bind (active_coupled lease) fun current _ hcurrent => ?_
    obtain rfl := hcurrent
    exact .bind (.modifies fun s t h => h.write .released _ now) fun _ _ _ => .pure rfl
  | reconcile r live => exact .map reconcile_coupled

end Session

namespace SessionPlane

variable {r : String} {live : List String} {result : ReconcileResult}

/-- The run of the renamed history is the renamed run. -/
theorem run_renames (ρ : Renaming) (provider : SessionProvider) (labels : List (Int × SessionCall L)) :
    Renames ρ (run step (fresh provider) labels) (run step (fresh provider) (renamed ρ labels)) := by
  induction labels using List.reverseRecOn with
  | nil => exact ⟨rfl, fun id => by simp [renamed, fresh]⟩
  | append_singleton labels label ih =>
    rw [renamed, List.map_append, List.map_singleton, run_concat, run_concat]
    exact (Session.perform_coupled label.2 _ _ ih).finalState

/-- A lease names the reference under the one naming as its image does under the other. -/
theorem Names.rename {ρ : Renaming} {q : SessionPlane L} (h : Renames ρ p q) {lease : SessionLease L}
    (hlease : p.Names r lease) : q.Names r (lease.rename ρ) := by
  refine ⟨?_, hlease.2⟩
  show q.leases.lookup (ρ.perm lease.sessionId) = _
  rw [h.leases, hlease.1]
  rfl

theorem Names.of_rename {ρ : Renaming} {q : SessionPlane L} (h : Renames ρ p q)
    {lease : SessionLease L} (hlease : q.Names r lease) :
    ∃ c, p.Names r c ∧ lease = c.rename ρ := by
  obtain ⟨hlookup, hr⟩ := hlease
  rw [← ρ.perm.apply_symm_apply lease.sessionId, h.leases, Option.map_eq_some_iff] at hlookup
  obtain ⟨c, hc, rfl⟩ := hlookup
  exact ⟨c, ⟨by rwa [p.keyed _ c hc], hr⟩, rfl⟩

/-! ## The table -/

section Table

variable (provider : SessionProvider) (labels : List (Int × SessionCall L)) (clock : Int) (r : String)
  (live : List String)

abbrev after : SessionPlane L := run step (fresh provider) labels

/-- Some lease of the plane named the reference at some point of the history. -/
def EverNamed : Prop := ∃ before, before <+: labels ∧ ∃ lease, (after provider before).Names r lease

/-- The table of `reconcile`. -/
structure Exact (state : SessionState) : Prop where
  active : state = .active ↔ r ∈ live ∧ (after provider labels).Holds clock r
  orphaned : state = .orphaned ↔ r ∈ live ∧ ¬(after provider labels).Holds clock r
  released : state = .released ↔ r ∉ live ∧ EverNamed provider labels r
  unknown : state = .unknown ↔ r ∉ live ∧ ¬EverNamed provider labels r

/-- The answer is the same under other names of the sessions. -/
def Nameless (state : SessionState) : Prop :=
  ∀ (ρ : Renaming) (result : ReconcileResult),
    (after provider (renamed ρ labels)).Answers (clock, .reconcile r live) (.reconciled result) →
      result.state = state

/-- A live reference is named by unexpired leases only or by none, and one that is not live is still
named when it ever was. -/
structure Agreed : Prop where
  unexpired : r ∈ live → (after provider labels).Holds clock r →
    ∀ lease, (after provider labels).Names r lease → lease.Unexpired clock
  kept : r ∉ live → EverNamed provider labels r → ∃ lease, (after provider labels).Names r lease

variable {provider labels clock r live}

theorem everNamed_of_names {lease : SessionLease L} (h : (after provider labels).Names r lease) :
    EverNamed provider labels r :=
  ⟨labels, List.prefix_rfl, lease, h⟩

/-- Where the leases agree, the answer is one of the two facts, under every naming. -/
theorem Agreed.reconcile_state (h : Agreed provider labels clock r live) (ρ : Renaming)
    (hanswers : (after provider (renamed ρ labels)).Answers (clock, .reconcile r live)
      (.reconciled result)) [Decidable ((after provider labels).Holds clock r)]
    [Decidable (EverNamed provider labels r)] :
    result.state =
      if r ∈ live then (if (after provider labels).Holds clock r then .active else .orphaned)
      else (if EverNamed provider labels r then .released else .unknown) := by
  have hrun := run_renames ρ provider labels
  rcases SessionPlane.reconcile_state hanswers with ⟨first, ⟨hnames, -⟩, hstate⟩ | ⟨hnone, hstate⟩
  · obtain ⟨c, hc, rfl⟩ := hnames.of_rename hrun
    rw [hstate]
    by_cases hlive : r ∈ live
    · rw [if_pos hlive, if_pos hlive]
      by_cases hholds : (after provider labels).Holds clock r
      · rw [if_pos hholds]
        exact if_pos (h.unexpired hlive hholds c hc)
      · rw [if_neg hholds]
        exact if_neg fun hc' => hholds ⟨c, hc, hc'⟩
    · rw [if_neg hlive, if_neg hlive, if_pos (everNamed_of_names hc)]
  · have hnone' : ∀ lease, ¬(after provider labels).Names r lease :=
      fun lease hlease => hnone _ (hlease.rename hrun)
    rw [hstate]
    by_cases hlive : r ∈ live
    · rw [if_pos hlive, if_pos hlive, if_neg]
      rintro ⟨lease, hlease, -⟩
      exact hnone' lease hlease
    · rw [if_neg hlive, if_neg hlive, if_neg]
      intro hever
      obtain ⟨lease, hlease⟩ := h.kept hlive hever
      exact hnone' lease hlease

theorem renamed_refl : renamed .refl labels = labels := by
  refine (List.map_congr_left fun label _ => ?_).trans (List.map_id _)
  obtain ⟨at', call⟩ := label
  cases call <;> rfl

/-- Exchanged with the first lease that names the reference, a lease naming it is the first. -/
theorem First.exchange {first lease first' : SessionLease L} {q : SessionPlane L}
    (hfirst : p.First r first) (hlease : p.Names r lease)
    (hrenames : Renames (.exchange first lease) p q) (hfirst' : q.First r first') :
    first' = lease.rename (.exchange first lease) := by
  obtain ⟨c, hc, rfl⟩ := hfirst'.names.of_rename hrenames
  have hle : Equiv.swap first.sessionId lease.sessionId c.sessionId ≤ first.sessionId := by
    have h := hfirst'.least _ (hlease.rename hrenames)
    change Equiv.swap first.sessionId lease.sessionId c.sessionId ≤
      Equiv.swap first.sessionId lease.sessionId lease.sessionId at h
    rwa [Equiv.swap_apply_right] at h
  have hge : first.sessionId ≤ Equiv.swap first.sessionId lease.sessionId c.sessionId := by
    rw [Equiv.swap_apply_def]
    split
    · exact hfirst.least lease hlease
    · split
      · exact le_rfl
      · exact hfirst.least c hc
  have hid : c.sessionId = lease.sessionId := by
    have heq := (le_antisymm hle hge).trans
      (Equiv.swap_apply_right first.sessionId lease.sessionId).symm
    exact (Equiv.swap first.sessionId lease.sessionId).injective heq
  have hsame := hc.1
  rw [hid, hlease.1] at hsame
  cases hsame
  rfl

/-- The answer to a reconciliation is the table's, and does not depend on the names of the sessions,
exactly when the leases that name the reference agree. -/
theorem session_reconciliation_exact_iff
    (h : (after provider labels).Answers (clock, .reconcile r live) (.reconciled result)) :
    Exact provider labels clock r live result.state ∧
        Nameless provider labels clock r live result.state ↔
      Agreed provider labels clock r live := by
  classical
  constructor
  · rintro ⟨hexact, hnameless⟩
    refine ⟨fun hlive hholds lease hlease => ?_, fun hlive hever => ?_⟩
    · by_contra hexpired
      have hactive := hexact.active.2 ⟨hlive, hholds⟩
      obtain ⟨first, hfirst, -⟩ | ⟨hnone, -⟩ := SessionPlane.reconcile_state h
      · have hrenames := run_renames (.exchange first lease) provider labels
        obtain ⟨result', h'⟩ := (@answers_reconcile_iff L
          (after provider (renamed (.exchange first lease) labels)) r live clock).2
          (answers_reconcile_iff.1 ⟨result, h⟩)
        have hsame := hnameless _ result' h'
        obtain ⟨first', hfirst', hstate⟩ | ⟨hnone, -⟩ := SessionPlane.reconcile_state h'
        · obtain rfl := First.exchange hfirst hlease hrenames hfirst'
          have hexpired' : ¬(lease.rename (.exchange first lease)).Unexpired clock := hexpired
          rw [if_pos hlive, if_neg hexpired'] at hstate
          rw [hstate, hactive] at hsame
          cases hsame
        · exact hnone _ (hlease.rename hrenames)
      · exact hnone lease hlease
    · by_contra hnone
      have hreleased := hexact.released.2 ⟨hlive, hever⟩
      obtain ⟨first, hfirst, -⟩ | ⟨-, hstate⟩ := SessionPlane.reconcile_state h
      · exact hnone ⟨first, hfirst.names⟩
      · rw [if_neg hlive, hreleased] at hstate
        cases hstate
  · intro hagreed
    have hstate := hagreed.reconcile_state .refl (by rwa [renamed_refl])
    refine ⟨?_, fun ρ result' h' => (hagreed.reconcile_state ρ h').trans hstate.symm⟩
    rw [hstate]
    by_cases hlive : r ∈ live
    · by_cases hholds : (after provider labels).Holds clock r <;> constructor <;> simp [hlive, hholds]
    · by_cases hever : EverNamed provider labels r <;> constructor <;> simp [hlive, hever]

end Table

/-! ## Two sessions under one reference -/

/-- The token of a session that was acquired for the reference `page`. -/
def pageLease (sessionId : String) (h : isIdentifier sessionId = true) : SessionLease Unit :=
  ⟨sessionId, "worker", 1, 100, (), "page", .held, h, by decide, by decide, by decide, by decide⟩

/-- Session `s1` is acquired for `page` and released, then session `s2` is acquired for it. -/
def pageHistory : List (Int × SessionCall Unit) :=
  [(0, .acquire "s1" "worker" () 100 "page"), (1, .release (pageLease "s1" (by decide))),
    (2, .acquire "s2" "worker" () 100 "page")]

/-- `s1` as it was given up. -/
def givenUp : SessionLease Unit := { pageLease "s1" (by decide) with state := .released }

/-- `s2` as it was acquired. -/
def taken : SessionLease Unit :=
  { pageLease "s2" (by decide) with expiresAtUs := 102, expiresAtUs_nonneg := by decide }

/-- What the history leaves: `s1` is given up and `s2` is held. -/
theorem pageHistory_leases :
    (after ⟨true, true⟩ pageHistory).leases.keys = ["s2", "s1"] ∧
      (after ⟨true, true⟩ pageHistory).leases.lookup "s1" = some givenUp ∧
      (after ⟨true, true⟩ pageHistory).leases.lookup "s2" = some taken := by
  decide +kernel

/-- The reconciliation of the reference both sessions were acquired for. -/
theorem session_reconciliation_exact_page :
    ∃ result, (after ⟨true, true⟩ pageHistory).Answers (3, .reconcile "page" ["page"])
        (.reconciled result) ∧
      (Exact ⟨true, true⟩ pageHistory 3 "page" ["page"] result.state ∧
        Nameless ⟨true, true⟩ pageHistory 3 "page" ["page"] result.state ↔
      Agreed ⟨true, true⟩ pageHistory 3 "page" ["page"]) := by
  obtain ⟨result, h⟩ := (@answers_reconcile_iff Unit (after ⟨true, true⟩ pageHistory) "page" ["page"] 3).2
    ⟨by decide, by decide, by decide, by decide, by decide⟩
  exact ⟨result, h, session_reconciliation_exact_iff h⟩

/-- Released under `s1` and held under `s2`, the live reference is called orphaned. -/
theorem shared_reference_not_exact :
    ¬∀ (provider : SessionProvider) (labels : List (Int × SessionCall Unit)) (clock : Int) (r : String)
      (live : List String) (result : ReconcileResult),
      (after provider labels).Answers (clock, .reconcile r live) (.reconciled result) →
        Exact provider labels clock r live result.state ∧
          Nameless provider labels clock r live result.state := by
  intro h
  obtain ⟨hkeys, hreleased, hheld⟩ := pageHistory_leases
  have haccepted : Accepted "page" ["page"] 3 := by
    refine ⟨?_, ?_, ?_, ?_, ?_⟩ <;> decide
  obtain ⟨result, hanswers⟩ := (@answers_reconcile_iff Unit (after ⟨true, true⟩ pageHistory) "page"
    ["page"] 3).2 haccepted
  have hactive : result.state = .active :=
    (h _ _ _ _ _ _ hanswers).1.active.2
      ⟨List.mem_singleton_self _, taken, ⟨hheld, rfl⟩, by decide⟩
  obtain ⟨first, ⟨hfirst, hleast⟩, hstate⟩ | ⟨hnone, -⟩ := SessionPlane.reconcile_state hanswers
  · have hmem : first.sessionId ∈ (after ⟨true, true⟩ pageHistory).leases.keys := by
      rw [← AList.mem_keys, ← AList.lookup_isSome, hfirst.1, Option.isSome_some]
    have hle : first.sessionId ≤ "s1" := hleast givenUp ⟨hreleased, rfl⟩
    rw [hkeys] at hmem
    have hid : first.sessionId = "s1" := by
      rcases List.mem_cons.1 hmem with hs2 | hs1
      · rw [hs2] at hle
        exact absurd hle (by decide)
      · exact List.mem_singleton.1 hs1
    have hsame := hfirst.1
    rw [hid, hreleased] at hsame
    cases hsame
    rw [if_pos (List.mem_singleton_self _), if_neg (by decide), hactive] at hstate
    cases hstate
  · exact hnone taken ⟨hheld, rfl⟩

end SessionPlane

end OmniviaCore.Execution
