import OmniviaCore.Execution.SessionLeases

/-!
# What the calls of the session plane do

`Moves` says what one call can do to the lease of one session. One lemma an operation says what it
did when it returned (`acquire_returns`, `resume_returns`, …); `perform_raises` says what a call that
raises leaves. A lease only moves on (`Later`).
-/

namespace OmniviaCore.Execution

open Lib

variable {L : Type} {p p' : SessionPlane L} {clock now : Int} {sessionId : String} {G : Prop}

namespace SessionLease

/-- What can become of a lease. -/
structure Later (c c' : SessionLease L) : Prop where
  fence : c.fence ≤ c'.fence
  same : c'.fence = c.fence → c'.holder = c.holder ∧ c'.expiresAtUs = c.expiresAtUs ∧
    (c.state ≠ .held → c'.state = c.state)

theorem Later.refl (c : SessionLease L) : c.Later c := ⟨le_rfl, fun _ => ⟨rfl, rfl, fun _ => rfl⟩⟩

theorem Later.trans {c c' c'' : SessionLease L} (h : c.Later c') (h' : c'.Later c'') :
    c.Later c'' := by
  refine ⟨h.fence.trans h'.fence, fun hfence => ?_⟩
  have hc := h.fence
  have hc' := h'.fence
  obtain ⟨hholder, hexpires, hstate⟩ := h.same (by omega)
  obtain ⟨hholder', hexpires', hstate'⟩ := h'.same (by omega)
  refine ⟨hholder'.trans hholder, hexpires'.trans hexpires, fun hgiven => ?_⟩
  have hgiven' := hstate hgiven
  rw [hstate' (hgiven' ▸ hgiven), hgiven']

/-- One call, on the lease of one session: it leaves it, expires it when it is overdue, grants a new
one when there is none unexpired, hands it to another holder, or, when the session is given up, releases
it. -/
inductive Moves (now : Int) (givenUp : Prop) : Option (SessionLease L) → Option (SessionLease L) → Prop
  | stays (c : Option (SessionLease L)) : Moves now givenUp c c
  | expires (c : SessionLease L) (due : c.overdue now = true) :
      Moves now givenUp (some c) (some { c with state := .expired })
  | grants (old : Option (SessionLease L)) (new : SessionLease L)
      (free : ∀ c, old = some c → c.state = .held → c.expiresAtUs ≤ now)
      (fence : ∀ c, old = some c → new.fence = c.fence + 1) (held : new.state = .held)
      (deadline : now < new.expiresAtUs) : Moves now givenUp old (some new)
  | transfers (c new : SessionLease L) (unexpired : c.state = .held ∧ now < c.expiresAtUs)
      (fence : new.fence = c.fence + 1) (held : new.state = .held)
      (deadline : new.expiresAtUs = c.expiresAtUs) : Moves now givenUp (some c) (some new)
  | releases (c : SessionLease L) (given : givenUp) (unexpired : c.state = .held ∧ now < c.expiresAtUs) :
      Moves now givenUp (some c) (some { c with state := .released })

theorem Moves.later {c : SessionLease L} {new : Option (SessionLease L)} (h : Moves now G (some c) new) :
    ∃ c', new = some c' ∧ c.Later c' := by
  cases h with
  | stays => exact ⟨c, rfl, .refl c⟩
  | expires _ due =>
    have hheld : c.state = .held := by simp [overdue] at due; exact due.1
    exact ⟨_, rfl, le_rfl, fun _ => ⟨rfl, rfl, fun hgiven => absurd hheld hgiven⟩⟩
  | grants _ new free fence =>
    have hfence := fence c rfl
    exact ⟨new, rfl, by omega, fun hsame => by omega⟩
  | transfers _ new unexpired fence => exact ⟨new, rfl, by omega, fun hsame => by omega⟩
  | releases _ given unexpired =>
    exact ⟨_, rfl, le_rfl, fun _ => ⟨rfl, rfl, fun hgiven => absurd unexpired.1 hgiven⟩⟩

theorem construct_eq_ok {holder : String} {fence expiresAtUs : Int} {lineage : L}
    {externalReference : String} {lease : SessionLease L}
    (h : construct sessionId holder fence expiresAtUs lineage externalReference = .ok lease) :
    lease.sessionId = sessionId ∧ lease.holder = holder ∧ lease.fence = fence ∧
      lease.expiresAtUs = expiresAtUs ∧ lease.state = .held := by
  unfold construct at h
  split_ifs at h
  cases h
  exact ⟨rfl, rfl, rfl, rfl, rfl⟩

end SessionLease

namespace SessionPlane

open SessionLease (Moves Later)

@[simp] theorem write_leases (kind : EventKind) (lease : SessionLease L) (atUs : Int) :
    (p.write kind lease atUs).leases = p.leases.insert lease.sessionId lease := rfl

/-- A lease written is what its session's lease becomes, and no other session's. -/
theorem write_moves {kind : EventKind} {lease : SessionLease L} {atUs : Int}
    (h : Moves now G (p.leases.lookup lease.sessionId) (some lease)) (sessionId : String) :
    Moves now G (p.leases.lookup sessionId) ((p.write kind lease atUs).leases.lookup sessionId) := by
  by_cases hid : sessionId = lease.sessionId
  · subst hid
    rw [write_leases, AList.lookup_insert]
    exact h
  · rw [write_leases, AList.lookup_insert_ne hid]
    exact .stays _

theorem expire_moves {c : SessionLease L} (hc : p.leases.lookup c.sessionId = some c)
    (hdue : c.overdue now = true) (sessionId : String) :
    Moves now G (p.leases.lookup sessionId) ((p.expire c now).leases.lookup sessionId) := by
  have hwritten : Moves now G (p.leases.lookup c.sessionId) (some { c with state := .expired }) :=
    hc ▸ .expires c hdue
  exact write_moves hwritten sessionId

/-- What a call that raises leaves: the plane, or the plane with an overdue lease expired. -/
def Refused (now : Int) (p p' : SessionPlane L) : Prop :=
  p' = p ∨ ∃ c, p.leases.lookup c.sessionId = some c ∧ c.overdue now = true ∧ p' = p.expire c now

theorem Refused.refl (p : SessionPlane L) : Refused now p p := .inl rfl

theorem Refused.expire {c : SessionLease L} (hc : p.leases.lookup sessionId = some c)
    (hdue : c.overdue now = true) : Refused now p (p.expire c now) :=
  .inr ⟨c, by rwa [p.keyed _ c hc], hdue, rfl⟩

theorem Refused.moves (h : Refused now p p') (sessionId : String) :
    Moves now G (p.leases.lookup sessionId) (p'.leases.lookup sessionId) := by
  rcases h with rfl | ⟨c, hc, hdue, rfl⟩
  · exact .stays _
  · exact expire_moves hc hdue sessionId

end SessionPlane

/-! ## What each call does -/

namespace Session

open SessionPlane (Refused)
open SessionLease (Moves)

variable {lease c : SessionLease L} {e : ExecutionError}

theorem now_eq_ok : (Session.now clock : Session L Int) p = .ok now p' ↔
    0 ≤ clock ∧ clock = now ∧ p = p' := by
  simp only [Session.now, bind_returns, demand_returns, pure_returns]
  constructor
  · rintro ⟨_, _, ⟨hclock, rfl⟩, rfl, rfl⟩
    exact ⟨hclock, rfl, rfl⟩
  · rintro ⟨hclock, rfl, rfl⟩
    exact ⟨⟨⟩, _, ⟨hclock, rfl⟩, rfl, rfl⟩

/-- The token of the current, unexpired lease is the one that passes. -/
theorem active_eq_ok : Session.active lease now p = .ok c p' ↔
    (p.leases.lookup lease.sessionId = some c ∧ (c.state = .held ∧ now < c.expiresAtUs) ∧
      lease.fence = c.fence ∧ lease.holder = c.holder) ∧ p' = p := by
  simp only [Session.active, bind_returns, get_returns]
  constructor
  · rintro ⟨_, _, ⟨rfl, rfl⟩, h⟩
    cases hlookup : p.leases.lookup lease.sessionId with
    | none => simp [hlookup, throw_returns] at h
    | some current =>
      simp only [hlookup, bind_returns, demand_returns] at h
      obtain ⟨_, _, ⟨hheld, rfl⟩, _, _, ⟨htoken, rfl⟩, h⟩ := h
      split at h
      · simp [bind_returns, throw_returns] at h
      · next hdue =>
        obtain ⟨rfl, rfl⟩ := pure_returns.1 h
        exact ⟨⟨rfl, ⟨hheld, by omega⟩, htoken⟩, rfl⟩
  · rintro ⟨⟨hlookup, ⟨hheld, hdue⟩, htoken⟩, rfl⟩
    refine ⟨_, _, ⟨rfl, rfl⟩, ?_⟩
    simp only [hlookup, bind_returns, demand_returns]
    refine ⟨⟨⟩, _, ⟨hheld, rfl⟩, ⟨⟩, _, ⟨htoken, rfl⟩, ?_⟩
    rw [if_neg (by omega)]
    exact pure_returns.2 ⟨rfl, rfl⟩

theorem active_eq_error (h : Session.active lease now p = .error e p') : Refused now p p' := by
  simp only [Session.active, bind_raises, get_raises, get_returns, false_or] at h
  obtain ⟨_, _, ⟨rfl, rfl⟩, h⟩ := h
  cases hlookup : p.leases.lookup lease.sessionId with
  | none =>
    simp only [hlookup, throw_raises] at h
    exact .inl h.2.symm
  | some current =>
    simp only [hlookup, bind_raises, demand_raises, demand_returns] at h
    rcases h with ⟨-, -, rfl⟩ | ⟨_, _, ⟨hheld, rfl⟩, ⟨-, -, rfl⟩ | ⟨_, _, ⟨-, rfl⟩, h⟩⟩
    · exact .inl rfl
    · exact .inl rfl
    · split at h
      · next hdue =>
        simp only [bind_raises, modify_raises, modify_returns, throw_raises, false_or] at h
        obtain ⟨_, _, rfl, -, rfl⟩ := h
        exact .expire hlookup (by simp [SessionLease.overdue, hheld, hdue])
      · exact (pure_raises.1 h).elim

/-- The lease a grant may follow, and what is left of it. -/
theorem requireFree_returns {current free : SessionLease L} {message : String}
    (h : Session.requireFree current now message p = .ok free p') :
    (current.state = .held → current.expiresAtUs ≤ now) ∧ free.fence = current.fence ∧
      (p' = p ∧ free = current ∨ current.overdue now = true ∧ p' = p.expire current now) := by
  unfold Session.requireFree at h
  split at h
  · next hheld =>
    simp only [bind_returns, demand_returns, modify_returns, pure_returns] at h
    obtain ⟨_, _, ⟨hdue, rfl⟩, _, _, rfl, rfl, rfl⟩ := h
    exact ⟨fun _ => hdue, rfl, .inr ⟨by simp [SessionLease.overdue, hheld, hdue], rfl⟩⟩
  · next hheld =>
    obtain ⟨rfl, rfl⟩ := pure_returns.1 h
    exact ⟨fun hc => absurd hc hheld, rfl, .inl ⟨rfl, rfl⟩⟩

theorem requireFree_raises {current : SessionLease L} {message : String}
    (h : Session.requireFree current now message p = .error e p') : p' = p := by
  unfold Session.requireFree at h
  split at h
  · simp only [bind_raises, demand_raises, modify_raises, pure_raises, false_or] at h
    obtain ⟨-, -, rfl⟩ | ⟨_, _, -, _, _, -, h⟩ := h
    · rfl
    · exact h.elim
  · exact (pure_raises.1 h).elim

theorem checked_returns {made : Except ExecutionError (SessionLease L)} :
    Session.checked made p = .ok lease p' ↔ made = .ok lease ∧ p = p' := by
  cases made with
  | ok m => simp [Session.checked]
  | error f => simp [Session.checked]

theorem checked_raises {made : Except ExecutionError (SessionLease L)}
    (h : Session.checked made p = .error e p') : p' = p := by
  cases made with
  | ok m => simp [Session.checked] at h
  | error f =>
    simp only [Session.checked, throw_raises] at h
    exact h.2.symm

/-- A lease granted by `acquire` or `resume`: to a session with no unexpired lease. -/
structure Granted (now : Int) (p p' : SessionPlane L) (lease : SessionLease L) : Prop where
  stored : p'.leases.lookup lease.sessionId = some lease
  free : ∀ c, p.leases.lookup lease.sessionId = some c → c.state = .held → c.expiresAtUs ≤ now
  fence : ∀ c, p.leases.lookup lease.sessionId = some c → lease.fence = c.fence + 1
  held : lease.state = .held
  moves : ∀ (G : Prop) id, Moves now G (p.leases.lookup id) (p'.leases.lookup id)

/-- A grant after what is left of the session's lease. -/
theorem granted_write {kind : EventKind} {q : SessionPlane L}
    (hq : q = p ∨ ∃ c, p.leases.lookup lease.sessionId = some c ∧ c.overdue now = true ∧
      q = p.expire c now)
    (hfree : ∀ c, p.leases.lookup lease.sessionId = some c → c.state = .held → c.expiresAtUs ≤ now)
    (hfence : ∀ c, p.leases.lookup lease.sessionId = some c → lease.fence = c.fence + 1)
    (hheld : lease.state = .held) (hdeadline : now < lease.expiresAtUs) :
    Granted now p (q.write kind lease now) lease where
  stored := AList.lookup_insert _
  free := hfree
  fence := hfence
  held := hheld
  moves := by
    intro G id
    by_cases hid : id = lease.sessionId
    · subst hid
      rw [SessionPlane.write_leases, AList.lookup_insert]
      exact .grants _ lease hfree hfence hheld hdeadline
    · rw [SessionPlane.write_leases, AList.lookup_insert_ne hid]
      rcases hq with rfl | ⟨c, hc, -, rfl⟩
      · exact .stays _
      · have hne : id ≠ c.sessionId := by
          rwa [p.keyed _ c hc]
        rw [SessionPlane.expire, SessionPlane.write_leases, AList.lookup_insert_ne hne]
        exact .stays _

theorem nextFence_returns {current : Option (SessionLease L)} {message : String} {fence : Int}
    (h : Session.nextFence current now message p = .ok fence p') :
    (∀ c, current = some c → (c.state = .held → c.expiresAtUs ≤ now) ∧ fence = c.fence + 1) ∧
      (p' = p ∨ ∃ c, current = some c ∧ c.overdue now = true ∧ p' = p.expire c now) := by
  cases current with
  | none =>
    obtain ⟨-, rfl⟩ := pure_returns.1 h
    exact ⟨fun c hc => (Option.some_ne_none c hc.symm).elim, .inl rfl⟩
  | some c =>
    simp only [Session.nextFence, bind_returns, pure_returns] at h
    obtain ⟨free, _, hfree, rfl, rfl⟩ := h
    obtain ⟨hdue, hfence, hq⟩ := requireFree_returns hfree
    refine ⟨fun d hd => ?_, hq.imp (·.1) fun hq => ⟨c, rfl, hq⟩⟩
    cases hd
    exact ⟨hdue, by rw [hfence]⟩

theorem nextFence_raises {current : Option (SessionLease L)} {message : String}
    (h : Session.nextFence current now message p = .error e p') : p' = p := by
  cases current with
  | none => exact (pure_raises.1 h).elim
  | some c =>
    simp only [Session.nextFence, bind_raises, pure_raises] at h
    obtain h | ⟨_, _, -, h⟩ := h
    · exact requireFree_raises h
    · exact h.elim

theorem acquire_returns {holder : String} {lineage : L} {ttlUs : Int} {externalReference : String}
    (h : Session.acquire sessionId holder lineage ttlUs externalReference clock p = .ok lease p') :
    lease.sessionId = sessionId ∧ Granted clock p p' lease := by
  simp only [Session.acquire, Session.requireTtl, requireIdentifier, bind_returns, demand_returns,
    now_eq_ok, get_returns, modify_returns, pure_returns, checked_returns] at h
  obtain ⟨_, _, ⟨-, rfl⟩, _, _, ⟨-, rfl⟩, _, _, ⟨-, rfl⟩, _, _, ⟨⟨httl, -⟩, rfl⟩, _, _, ⟨-, rfl, rfl⟩, _, _,
    ⟨rfl, rfl⟩, fence, q, hfence, made, _, ⟨hmade, rfl⟩, _, _, rfl, rfl, rfl⟩ := h
  obtain ⟨rfl, -, hlease, hexpires, hheld⟩ := SessionLease.construct_eq_ok hmade
  obtain ⟨hfree, hq⟩ := nextFence_returns hfence
  exact ⟨rfl, granted_write hq (fun c hc => (hfree c hc).1)
    (fun c hc => hlease.trans (hfree c hc).2) hheld (by omega)⟩

theorem resume_returns {snapshot : SessionSnapshot} {holder : String} {lineage : L} {ttlUs : Int}
    (h : Session.resume snapshot holder lineage ttlUs clock p = .ok lease p') :
    lease.sessionId = snapshot.sessionId ∧ lease.fence = snapshot.fence + 1 ∧
      (∃ c, p.leases.lookup snapshot.sessionId = some c ∧ c.fence = snapshot.fence) ∧
      Granted clock p p' lease := by
  simp only [Session.resume, Session.requireSuspendResume, Session.requireTtl, requireIdentifier,
    bind_returns, demand_returns, now_eq_ok, get_returns] at h
  obtain ⟨_, _, ⟨_, _, ⟨rfl, rfl⟩, -, rfl⟩, _, _, ⟨-, rfl⟩, _, _, ⟨⟨httl, -⟩, rfl⟩, _, _, ⟨-, rfl, rfl⟩, _, _,
    ⟨rfl, rfl⟩, h⟩ := h
  cases hlookup : p.leases.lookup snapshot.sessionId with
  | none => simp [hlookup] at h
  | some c =>
    simp only [hlookup, bind_returns, demand_returns, modify_returns, pure_returns,
      checked_returns] at h
    obtain ⟨free, q, hfree, _, _, ⟨hsnapshot, rfl⟩, made, _, ⟨hmade, rfl⟩, _, _, rfl, rfl, rfl⟩ := h
    obtain ⟨hdue, hfence, hq⟩ := requireFree_returns hfree
    obtain ⟨hsession, -, hlease, hexpires, hheld⟩ := SessionLease.construct_eq_ok hmade
    have hlookup' : p.leases.lookup made.sessionId = some c := by rw [hsession, hlookup]
    refine ⟨hsession, by omega, ⟨c, rfl, by omega⟩, granted_write ?_ (fun d hd => ?_) (fun d hd => ?_) hheld
      (by omega)⟩
    · exact hq.imp (·.1) fun hq => ⟨c, hlookup', hq⟩
    · cases hlookup'.symm.trans hd
      exact hdue
    · cases hlookup'.symm.trans hd
      omega

/-- A token is accepted when it is the current one of an unexpired lease. -/
def Current (now : Int) (p : SessionPlane L) (token c : SessionLease L) : Prop :=
  p.leases.lookup token.sessionId = some c ∧ (c.state = .held ∧ now < c.expiresAtUs) ∧
    token.fence = c.fence ∧ token.holder = c.holder

variable {token : SessionLease L}

theorem snapshot_returns {taken : SessionSnapshot}
    (h : Session.snapshot token clock p = .ok taken p') :
    ∃ c, Current clock p token c ∧ p'.leases = p.leases ∧ taken.sessionId = token.sessionId ∧
      taken.fence = c.fence := by
  simp only [Session.snapshot, Session.requireSuspendResume, bind_returns, demand_returns, now_eq_ok,
    get_returns, modify_returns, pure_returns] at h
  obtain ⟨_, _, ⟨_, _, ⟨rfl, rfl⟩, -, rfl⟩, _, _, ⟨-, rfl, rfl⟩, c, _, hactive, _, _, rfl, rfl, rfl⟩ := h
  obtain ⟨hcurrent, rfl⟩ := active_eq_ok.1 hactive
  exact ⟨c, hcurrent, rfl, SessionPlane.keyed _ _ c hcurrent.1, rfl⟩

theorem transferControl_returns {newHolder : String}
    (h : Session.transferControl token newHolder clock p = .ok lease p') :
    lease.sessionId = token.sessionId ∧ lease.state = .held ∧
      ∃ c, Current clock p token c ∧ lease.fence = c.fence + 1 ∧
      p'.leases.lookup token.sessionId = some lease ∧
      ∀ (G : Prop) id, Moves clock G (p.leases.lookup id) (p'.leases.lookup id) := by
  simp only [Session.transferControl, requireIdentifier, bind_returns, demand_returns, now_eq_ok,
    get_returns, modify_returns, pure_returns, checked_returns] at h
  obtain ⟨_, _, ⟨rfl, rfl⟩, _, _, ⟨-, rfl⟩, _, _, ⟨-, rfl⟩, _, _, ⟨-, rfl, rfl⟩, c, _, hactive, made, _,
    ⟨hmade, rfl⟩, _, _, rfl, rfl, rfl⟩ := h
  obtain ⟨hcurrent, rfl⟩ := active_eq_ok.1 hactive
  obtain ⟨hsession, -, hfence, hexpires, hheld⟩ := SessionLease.construct_eq_ok hmade
  have hid : c.sessionId = token.sessionId := SessionPlane.keyed _ _ c hcurrent.1
  refine ⟨hsession.trans hid, hheld, c, hcurrent, hfence, ?_, fun G => SessionPlane.write_moves ?_⟩
  · rw [← hid, ← hsession]
    exact AList.lookup_insert _
  · rw [hsession, hid, hcurrent.1]
    exact .transfers c made hcurrent.2.1 hfence hheld hexpires

theorem release_returns (h : Session.release token clock p = .ok lease p') :
    lease.sessionId = token.sessionId ∧ lease.state = .released ∧ ∃ c, Current clock p token c ∧
      lease.fence = c.fence ∧ p'.leases.lookup token.sessionId = some lease ∧
      ∀ (G : Prop) id, (id = token.sessionId → G) →
        Moves clock G (p.leases.lookup id) (p'.leases.lookup id) := by
  simp only [Session.release, bind_returns, now_eq_ok, modify_returns, pure_returns] at h
  obtain ⟨_, _, ⟨-, rfl, rfl⟩, c, _, hactive, _, _, rfl, rfl, rfl⟩ := h
  obtain ⟨hcurrent, hsame⟩ := active_eq_ok.1 hactive
  subst hsame
  have hid : c.sessionId = token.sessionId := SessionPlane.keyed _ _ c hcurrent.1
  have hlookup := hcurrent.1
  rw [← hid] at hlookup ⊢
  refine ⟨rfl, rfl, c, hcurrent, rfl, AList.lookup_insert _, fun G id hgiven => ?_⟩
  by_cases hsession : id = c.sessionId
  · subst hsession
    rw [SessionPlane.write_leases, AList.lookup_insert, hlookup]
    exact .releases c (hgiven rfl) hcurrent.2.1
  · rw [SessionPlane.write_leases, AList.lookup_insert_ne hsession]
    exact .stays _

theorem inspect_returns {found : Option (SessionLease L)}
    (h : Session.inspect sessionId clock p = .ok found p') : Refused clock p p' := by
  simp only [Session.inspect, requireIdentifier, bind_returns, demand_returns, get_returns] at h
  obtain ⟨_, _, ⟨-, rfl⟩, _, _, ⟨rfl, rfl⟩, h⟩ := h
  cases hlookup : p.leases.lookup sessionId with
  | none =>
    simp only [hlookup, pure_returns] at h
    exact .inl h.2.symm
  | some c =>
    simp only [hlookup, bind_returns, now_eq_ok] at h
    obtain ⟨_, _, ⟨-, rfl, rfl⟩, h⟩ := h
    split at h
    · next hdue =>
      simp only [bind_returns, modify_returns, pure_returns] at h
      obtain ⟨_, _, rfl, -, rfl⟩ := h
      exact .expire hlookup hdue
    · exact .inl (pure_returns.1 h).2.symm

/-- Every session's lease stays, or is overdue and expires. -/
def Swept (now : Int) (p p' : SessionPlane L) : Prop :=
  ∀ id, p'.leases.lookup id = p.leases.lookup id ∨
    ∃ c, p.leases.lookup id = some c ∧ c.overdue now = true ∧
      p'.leases.lookup id = some { c with state := .expired }

theorem Swept.moves (h : Swept now p p') (id : String) :
    Moves now G (p.leases.lookup id) (p'.leases.lookup id) := by
  rcases h id with hsame | ⟨c, hc, hdue, hnew⟩
  · rw [hsame]
    exact .stays _
  · rw [hc, hnew]
    exact .expires c hdue

theorem expireOverdue_swept (first : String) : Swept now p (p.expireOverdue now first) := by
  intro id
  unfold SessionPlane.expireOverdue
  cases hlookup : p.leases.lookup first with
  | none => exact .inl rfl
  | some c =>
    dsimp only
    split
    · next hdue =>
      have hkey := p.keyed first c hlookup
      subst hkey
      by_cases hid : id = c.sessionId
      · subst hid
        exact .inr ⟨c, hlookup, hdue, AList.lookup_insert _⟩
      · exact .inl (AList.lookup_insert_ne hid)
    · exact .inl rfl

theorem foldl_swept (p : SessionPlane L) (now : Int) (ids : List String) :
    Swept now p (ids.foldl (SessionPlane.expireOverdue now) p) := by
  induction ids generalizing p with
  | nil => exact fun id => .inl rfl
  | cons first ids ih =>
    intro id
    rw [List.foldl_cons]
    rcases expireOverdue_swept first id with hfirst | ⟨c, hc, hdue, hfirst⟩
    · rcases ih (p.expireOverdue now first) id with hrest | ⟨c, hc, hdue, hrest⟩
      · exact .inl (hrest.trans hfirst)
      · exact .inr ⟨c, hfirst.symm.trans hc, hdue, hrest⟩
    · refine .inr ⟨c, hc, hdue, ?_⟩
      rcases ih (p.expireOverdue now first) id with hrest | ⟨d, hd, hdue', -⟩
      · exact hrest.trans hfirst
      · cases hfirst.symm.trans hd
        simp [SessionLease.overdue] at hdue'

theorem reconcile_returns {externalReference : String} {live : List String}
    {result : ReconcileResult}
    (h : Session.reconcile externalReference live clock p = .ok result p') : Swept clock p p' := by
  simp only [Session.reconcile, requireIdentifier, requireCollection, bind_returns, demand_returns,
    now_eq_ok, get_returns, set_returns, pure_returns] at h
  obtain ⟨_, _, ⟨-, rfl⟩, _, _, ⟨_, _, ⟨-, rfl⟩, _, _, ⟨-, rfl⟩, -, rfl⟩, _, _, ⟨-, rfl, rfl⟩, _, _,
    ⟨rfl, rfl⟩, _, _, htold, -, rfl⟩ := h
  subst htold
  intro id
  have hswept := foldl_swept p clock p.sortedIds id
  split
  · exact hswept
  · exact hswept

/-! ## A call that raises -/

theorem now_reads : Reads (Session.now clock : Session L Int) :=
  .bind .demand fun _ => .pure _

theorem now_raises : Raises (Refused now) (Session.now clock : Session L Int) :=
  .bind .demand (.demand Refused.refl) fun _ => .pure _

/-- After the clock is read, the rest is run at its reading. -/
theorem raises_now {α : Type} {f : Int → Session L α} (hf : 0 ≤ clock → Raises (Refused clock) (f clock)) :
    Raises (Refused clock) (Session.now clock >>= f) := by
  intro p e p' h
  rcases bind_raises.1 h with hfirst | ⟨now, q, hnow, hrest⟩
  · exact now_raises p e p' hfirst
  · obtain ⟨hclock, rfl, rfl⟩ := now_eq_ok.1 hnow
    exact hf hclock p e p' hrest

theorem requireSuspendResume_reads : Reads (Session.requireSuspendResume : Session L PUnit) :=
  .bind .get fun _ => .demand

theorem requireSuspendResume_raises :
    Raises (Refused now) (Session.requireSuspendResume : Session L PUnit) :=
  .bind .get .get fun _ => .demand Refused.refl

theorem requireCollection_reads {fieldName : String} {values : List String} :
    Reads (requireCollection fieldName values : Session L PUnit) :=
  .bind .demand fun _ => .bind .demand fun _ => .demand

theorem requireCollection_raises {fieldName : String} {values : List String} :
    Raises (Refused now) (requireCollection fieldName values : Session L PUnit) :=
  .bind .demand (.demand Refused.refl) fun _ =>
    .bind .demand (.demand Refused.refl) fun _ => .demand Refused.refl

theorem active_reads : Reads (Session.active token now) :=
  fun _ _ _ h => (active_eq_ok.1 h).2

theorem active_raises : Raises (Refused now) (Session.active token now) :=
  fun _ _ _ h => active_eq_error h

theorem checked_quiet {made : Except ExecutionError (SessionLease L)} :
    Raises (fun p p' : SessionPlane L => p' = p) (Session.checked made) :=
  fun _ _ _ h => checked_raises h

theorem checked_reads {made : Except ExecutionError (SessionLease L)} :
    Reads (Session.checked made) :=
  fun _ _ _ h => (checked_returns.1 h).2.symm

theorem acquire_raises {holder : String} {lineage : L} {ttlUs : Int} {externalReference : String} :
    Raises (Refused clock)
      (Session.acquire sessionId holder lineage ttlUs externalReference clock) := by
  refine .bind .demand (.demand Refused.refl) fun _ => .bind .demand (.demand Refused.refl) fun _ =>
    .bind .demand (.demand Refused.refl) fun _ => .bind .demand (.demand Refused.refl) fun _ => ?_
  refine raises_now fun hclock => .bind_get fun p e p' h => raises_written ?_ ?_ ?_ h
  · intro fence q hfence
    obtain ⟨-, rfl | ⟨c, hc, hdue, rfl⟩⟩ := nextFence_returns hfence
    · exact Refused.refl _
    · exact .expire hc hdue
  · exact fun q hq => .inl (nextFence_raises hq)
  · exact fun fence => .bind checked_reads checked_quiet fun made => .bind_modify

theorem resume_raises {snapshot : SessionSnapshot} {holder : String} {lineage : L} {ttlUs : Int} :
    Raises (Refused clock) (Session.resume snapshot holder lineage ttlUs clock) := by
  refine .bind requireSuspendResume_reads requireSuspendResume_raises fun _ =>
    .bind .demand (.demand Refused.refl) fun _ => .bind .demand (.demand Refused.refl) fun _ => ?_
  refine raises_now fun hclock => .bind_get fun p e p' h => ?_
  cases hlookup : p.leases.lookup snapshot.sessionId with
  | none =>
    simp only [hlookup, throw_raises] at h
    exact .inl h.2.symm
  | some c =>
    simp only [hlookup] at h
    refine raises_written (fun free q hfree => ?_) (fun q hq => .inl (requireFree_raises hq)) ?_ h
    · obtain ⟨-, -, ⟨rfl, -⟩ | ⟨hdue, rfl⟩⟩ := requireFree_returns hfree
      · exact Refused.refl _
      · exact .expire hlookup hdue
    · exact fun free => .bind .demand (.demand fun _ => rfl) fun _ =>
        .bind checked_reads checked_quiet fun made => .bind_modify

/-- A call that raises writes nothing, or only that an overdue lease has expired. -/
theorem perform_raises (call : SessionCall L) : Raises (Refused clock) (call.perform clock) := by
  cases call with
  | acquire sessionId holder lineage ttlUs externalReference => exact .map acquire_raises
  | inspect sessionId =>
    refine .map (.bind .demand (.demand Refused.refl) fun _ => .bind_get fun p e p' h => ?_)
    cases hlookup : p.leases.lookup sessionId with
    | none => simp [hlookup] at h
    | some c =>
      simp only [hlookup] at h
      refine Raises.bind now_reads now_raises (fun now => ?_) p e p' h
      split
      · exact .bind_modify
      · exact .pure _
  | snapshot lease =>
    exact .map (.bind requireSuspendResume_reads requireSuspendResume_raises fun _ =>
      raises_now fun hclock => .bind active_reads active_raises fun c => .bind_modify)
  | transferControl lease newHolder =>
    refine .map (.bind .get .get fun p => .bind .demand (.demand Refused.refl) fun _ =>
      .bind .demand (.demand Refused.refl) fun _ => raises_now fun hclock =>
      .bind active_reads active_raises fun c => .bind checked_reads ?_ fun made => .bind_modify)
    exact fun p e p' h => .inl (checked_raises h)
  | resume snapshot holder lineage ttlUs => exact .map resume_raises
  | release lease =>
    exact .map (raises_now fun hclock => .bind active_reads active_raises fun c => .bind_modify)
  | reconcile externalReference live =>
    exact .map (.bind .demand (.demand Refused.refl) fun _ =>
      .bind requireCollection_reads requireCollection_raises fun _ =>
      .bind now_reads now_raises fun now => .bind .get .get fun p => .bind_set)

end Session

end OmniviaCore.Execution
