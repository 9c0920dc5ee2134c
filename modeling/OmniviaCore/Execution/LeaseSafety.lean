import OmniviaCore.Lib.Machine
import OmniviaCore.Execution.SessionCalls

/-!
# Safety of session leases

`step_moves` is the step lemma: a call does to the lease of every session what `Moves` says, whether
it returns or raises. By induction a session's lease only moves on over a run (`run_later`).
-/

namespace OmniviaCore.Execution

open Lib
open SessionLease (Moves)

variable {L : Type} {p p' : SessionPlane L} {sessionId : String}

namespace SessionCall

def token : SessionCall L → Option (SessionLease L)
  | .snapshot lease => some lease
  | .transferControl lease _ => some lease
  | .release lease => some lease
  | _ => none

def grants : SessionCall L → Bool
  | .acquire .. => true
  | .transferControl .. => true
  | .resume .. => true
  | _ => false

end SessionCall

namespace SessionPlane

variable {label : Int × SessionCall L} {token lease : SessionLease L}

def Answers (p : SessionPlane L) (label : Int × SessionCall L) (a : SessionAnswer L) : Prop :=
  answer (label.2.perform label.1 p) = .ok a

def Accepts (p : SessionPlane L) (label : Int × SessionCall L) (token : SessionLease L) : Prop :=
  label.2.token = some token ∧ ∃ a, p.Answers label a

/-- A call acquires, transfers or resumes a session: it answers with the new token. -/
def Grants (p : SessionPlane L) (label : Int × SessionCall L) (lease : SessionLease L) : Prop :=
  label.2.grants = true ∧ p.Answers label (.lease lease)

def Resumes (p : SessionPlane L) (label : Int × SessionCall L) (snapshot : SessionSnapshot) : Prop :=
  ∃ holder lineage ttlUs lease, label.2 = .resume snapshot holder lineage ttlUs ∧
    p.Answers label (.lease lease)

def Releases (p : SessionPlane L) (label : Int × SessionCall L) (sessionId : String) : Prop :=
  ∃ token, label.2 = .release token ∧ token.sessionId = sessionId ∧ ∃ a, p.Answers label a

theorem step_eq_of_answers {a : SessionAnswer L} (h : p.Answers label a) :
    label.2.perform label.1 p = .ok a (p.step label) :=
  answer_eq_ok.1 h

/-- A token that is accepted is the current one of an unexpired lease. -/
theorem Accepts.current (h : p.Accepts label token) :
    ∃ c, Session.Current label.1 p token c := by
  obtain ⟨htoken, a, ha⟩ := h
  obtain ⟨clock, call⟩ := label
  have ha := step_eq_of_answers ha
  cases call with
  | snapshot lease =>
    cases htoken
    obtain ⟨_, h, -⟩ := map_returns.1 ha
    obtain ⟨c, hc, -⟩ := Session.snapshot_returns h
    exact ⟨c, hc⟩
  | transferControl lease newHolder =>
    cases htoken
    obtain ⟨_, h, -⟩ := map_returns.1 ha
    obtain ⟨-, -, c, hc, -⟩ := Session.transferControl_returns h
    exact ⟨c, hc⟩
  | release lease =>
    cases htoken
    obtain ⟨_, h, -⟩ := map_returns.1 ha
    obtain ⟨-, -, c, hc, -⟩ := Session.release_returns h
    exact ⟨c, hc⟩
  | acquire _ _ _ _ _ => cases htoken
  | inspect _ => cases htoken
  | resume _ _ _ _ => cases htoken
  | reconcile _ _ => cases htoken

/-- A token granted is the session's lease afterwards, under a fence above the one before. -/
theorem Grants.granted (h : p.Grants label lease) :
    (p.step label).leases.lookup lease.sessionId = some lease ∧ lease.state = .held ∧
      ∀ c, p.leases.lookup lease.sessionId = some c → lease.fence = c.fence + 1 := by
  obtain ⟨hgrants, ha⟩ := h
  obtain ⟨clock, call⟩ := label
  have ha := step_eq_of_answers ha
  cases call with
  | acquire sessionId holder lineage ttlUs externalReference =>
    obtain ⟨_, h, hlease⟩ := map_returns.1 ha
    cases hlease
    obtain ⟨-, hgranted⟩ := Session.acquire_returns h
    exact ⟨hgranted.stored, hgranted.held, hgranted.fence⟩
  | transferControl token newHolder =>
    obtain ⟨_, h, hlease⟩ := map_returns.1 ha
    cases hlease
    obtain ⟨hid, hheld, c, hc, hfence, hstored, -⟩ := Session.transferControl_returns h
    refine ⟨hid ▸ hstored, hheld, fun d hd => ?_⟩
    rw [hid, hc.1] at hd
    cases hd
    exact hfence
  | resume snapshot holder lineage ttlUs =>
    obtain ⟨_, h, hlease⟩ := map_returns.1 ha
    cases hlease
    obtain ⟨-, -, -, hgranted⟩ := Session.resume_returns h
    exact ⟨hgranted.stored, hgranted.held, hgranted.fence⟩
  | inspect _ => cases hgrants
  | snapshot _ => cases hgrants
  | release _ => cases hgrants
  | reconcile _ _ => cases hgrants

/-- A resumed snapshot was taken under the session's fence. -/
theorem Resumes.resumed {snapshot : SessionSnapshot} (h : p.Resumes label snapshot) :
    (∃ c, p.leases.lookup snapshot.sessionId = some c ∧ c.fence = snapshot.fence) ∧
      ∃ c, (p.step label).leases.lookup snapshot.sessionId = some c ∧
        c.fence = snapshot.fence + 1 := by
  obtain ⟨holder, lineage, ttlUs, lease, hcall, ha⟩ := h
  obtain ⟨clock, call⟩ := label
  subst hcall
  obtain ⟨_, h, hlease⟩ := map_returns.1 (step_eq_of_answers ha)
  cases hlease
  obtain ⟨hid, hfence, hc, hgranted⟩ := Session.resume_returns h
  exact ⟨hc, lease, hid ▸ hgranted.stored, hfence⟩

/-- A snapshot carries the fence of its session's lease. -/
theorem Answers.snapshot {snapshot : SessionSnapshot} (h : p.Answers label (.snapshot snapshot)) :
    ∃ c, p.leases.lookup snapshot.sessionId = some c ∧ c.fence = snapshot.fence := by
  obtain ⟨clock, call⟩ := label
  have ha := step_eq_of_answers h
  cases call with
  | snapshot token =>
    obtain ⟨_, h, hsnapshot⟩ := map_returns.1 ha
    cases hsnapshot
    obtain ⟨c, hc, -, hid, hfence⟩ := Session.snapshot_returns h
    exact ⟨c, hid ▸ hc.1, hfence.symm⟩
  | acquire _ _ _ _ _ => obtain ⟨_, -, h⟩ := map_returns.1 ha; cases h
  | inspect _ => obtain ⟨_, -, h⟩ := map_returns.1 ha; cases h
  | transferControl _ _ => obtain ⟨_, -, h⟩ := map_returns.1 ha; cases h
  | resume _ _ _ _ => obtain ⟨_, -, h⟩ := map_returns.1 ha; cases h
  | release _ => obtain ⟨_, -, h⟩ := map_returns.1 ha; cases h
  | reconcile _ _ => obtain ⟨_, -, h⟩ := map_returns.1 ha; cases h

/-- Every call does to the lease of every session what `Moves` says. -/
theorem step_moves (p : SessionPlane L) (label : Int × SessionCall L) (id : String) :
    Moves label.1 (p.Releases label id) (p.leases.lookup id) ((p.step label).leases.lookup id) := by
  obtain ⟨clock, call⟩ := label
  cases hresult : call.perform clock p with
  | error e p' =>
    have hstep : p.step (clock, call) = p' := by rw [step, hresult, finalState]
    rw [hstep]
    exact (Session.perform_raises call p e p' hresult).moves id
  | ok a p' =>
    have hstep : p.step (clock, call) = p' := by rw [step, hresult, finalState]
    rw [hstep]
    cases call with
    | acquire sessionId holder lineage ttlUs externalReference =>
      obtain ⟨_, h, -⟩ := map_returns.1 hresult
      exact (Session.acquire_returns h).2.moves _ id
    | inspect sessionId =>
      obtain ⟨_, h, -⟩ := map_returns.1 hresult
      exact (Session.inspect_returns h).moves id
    | snapshot token =>
      obtain ⟨_, h, -⟩ := map_returns.1 hresult
      obtain ⟨c, -, hleases, -⟩ := Session.snapshot_returns h
      rw [hleases]
      exact .stays _
    | transferControl token newHolder =>
      obtain ⟨_, h, -⟩ := map_returns.1 hresult
      obtain ⟨-, -, c, -, -, -, hmoves⟩ := Session.transferControl_returns h
      exact hmoves _ id
    | resume snapshot holder lineage ttlUs =>
      obtain ⟨_, h, -⟩ := map_returns.1 hresult
      obtain ⟨-, -, -, hgranted⟩ := Session.resume_returns h
      exact hgranted.moves _ id
    | release token =>
      obtain ⟨_, h, -⟩ := map_returns.1 hresult
      obtain ⟨-, -, c, -, -, -, hmoves⟩ := Session.release_returns h
      refine hmoves _ id fun hid => ⟨token, rfl, hid.symm, a, ?_⟩
      rw [Answers, hresult]
      rfl
    | reconcile externalReference live =>
      obtain ⟨_, h, -⟩ := map_returns.1 hresult
      exact (Session.reconcile_returns h).moves id

theorem run_later {c : SessionLease L} (hc : p.leases.lookup sessionId = some c)
    (labels : List (Int × SessionCall L)) :
    ∃ c', (run step p labels).leases.lookup sessionId = some c' ∧ c.Later c' := by
  induction labels generalizing p c with
  | nil => exact ⟨c, hc, .refl c⟩
  | cons label labels ih =>
    have hmoves := p.step_moves label sessionId
    rw [hc] at hmoves
    obtain ⟨d, hd, hlater⟩ := hmoves.later
    obtain ⟨c', hc', hlater'⟩ := ih hd
    exact ⟨c', hc', hlater.trans hlater'⟩

/-- The calls are made at times that do not go back. -/
def Clocked (labels : List (Int × SessionCall L)) : Prop := (labels.map Prod.fst).Pairwise (· ≤ ·)

/-- What holds of tokens, fences and snapshots in every run. `after` is the plane after some calls. -/
structure LeaseSafety (after : List (Int × SessionCall L) → SessionPlane L) : Prop where
  /-- At one time one holder and fence of a session is accepted. -/
  exclusive : ∀ before a b t t', (after before).Accepts a t → (after before).Accepts b t' →
    t.sessionId = t'.sessionId → t.holder = t'.holder ∧ t.fence = t'.fence
  /-- Fences increase over acquisitions, transfers and resumes. -/
  fences : ∀ before a between b g g', (after before).Grants a g →
    (after (before ++ a :: between)).Grants b g' → g.sessionId = g'.sessionId → g.fence < g'.fence
  /-- What is accepted is below what is granted with it or later. -/
  outdated : ∀ before between a b t g, (after before).Accepts a t →
    (after (before ++ between)).Grants b g → t.sessionId = g.sessionId → t.fence < g.fence
  /-- A token under a lower fence than one granted is refused forever after. -/
  superseded : ∀ before a between b g t, (after before).Grants a g → t.sessionId = g.sessionId →
    t.fence < g.fence → ¬(after (before ++ a :: between)).Accepts b t
  /-- What is accepted is accepted on an unexpired lease, for its holder. -/
  current : ∀ before a t, (after before).Accepts a t → ∃ c, Session.Current a.1 (after before) t c
  /-- No token is accepted at or after the deadline it was granted with. -/
  deadline : ∀ before a between b g t, (after before).Grants a g →
    (after (before ++ a :: between)).Accepts b t → t.sessionId = g.sessionId → t.fence = g.fence →
    t.holder = g.holder ∧ b.1 < g.expiresAtUs
  /-- Before the deadline of a lease another is granted only by its holder's transfer, or after its
  holder gave it up. -/
  handover : ∀ before a between b g g', Clocked (before ++ a :: between ++ [b]) →
    (after before).Grants a g → (after (before ++ a :: between)).Grants b g' →
    g.sessionId = g'.sessionId → g.expiresAtUs ≤ b.1 ∨
      (∃ token newHolder, b.2 = .transferControl token newHolder ∧
        (after (before ++ a :: between)).Accepts b token ∧ token.sessionId = g.sessionId) ∨
      ∃ mid x rest, between = mid ++ x :: rest ∧
        (after (before ++ a :: mid)).Releases x g.sessionId
  /-- A snapshot is resumed only when nothing was granted since it was taken, -/
  snapshots : ∀ before a between b between' c s g, (after before).Answers a (.snapshot s) →
    (after (before ++ a :: between)).Grants b g → g.sessionId = s.sessionId →
    ¬(after (before ++ a :: between ++ b :: between')).Resumes c s
  /-- and once. -/
  resumedOnce : ∀ before a between b s, (after before).Resumes a s →
    ¬(after (before ++ a :: between)).Resumes b s
  /-- A refused call changes nothing but the state of an overdue lease. -/
  refused : ∀ before a e, answer (a.2.perform a.1 (after before)) = .error e →
    Refused a.1 (after before) (after (before ++ [a]))

theorem after_cons (before between : List (Int × SessionCall L)) (a : Int × SessionCall L) :
    run step p (before ++ a :: between) = run step ((run step p before).step a) between := by
  rw [run_append, run_cons]

/-- Until it is given up, the lease of a session keeps its deadline, or the deadline has passed. -/
theorem deadline_kept {expiresAtUs now : Int} (labels : List (Int × SessionCall L))
    (hclock : ∀ x ∈ labels, x.1 ≤ now)
    (hlease : ∃ c, p.leases.lookup sessionId = some c ∧
      (expiresAtUs ≤ now ∨ c.state = .held ∧ c.expiresAtUs = expiresAtUs)) :
    (∃ mid x rest, labels = mid ++ x :: rest ∧ (run step p mid).Releases x sessionId) ∨
      ∃ c, (run step p labels).leases.lookup sessionId = some c ∧
        (expiresAtUs ≤ now ∨ c.state = .held ∧ c.expiresAtUs = expiresAtUs) := by
  induction labels generalizing p with
  | nil => exact .inr hlease
  | cons label labels ih =>
    by_cases hreleases : p.Releases label sessionId
    · exact .inl ⟨[], label, labels, rfl, hreleases⟩
    · obtain ⟨c, hc, hdeadline⟩ := hlease
      have hlabel := hclock label List.mem_cons_self
      have hmoves := p.step_moves label sessionId
      rw [hc] at hmoves
      have hnext : ∃ c', (p.step label).leases.lookup sessionId = some c' ∧
          (expiresAtUs ≤ now ∨ c'.state = .held ∧ c'.expiresAtUs = expiresAtUs) := by
        generalize (p.step label).leases.lookup sessionId = new at hmoves
        rcases hdeadline with hpassed | ⟨hheld, rfl⟩
        · obtain ⟨c', hc', -⟩ := hmoves.later
          exact ⟨c', hc', .inl hpassed⟩
        · cases hmoves with
          | stays => exact ⟨c, rfl, .inr ⟨hheld, rfl⟩⟩
          | expires _ due =>
            simp only [SessionLease.overdue, Bool.and_eq_true, decide_eq_true_eq] at due
            exact ⟨_, rfl, .inl (due.2.trans hlabel)⟩
          | grants _ new free => exact ⟨new, rfl, .inl ((free c rfl hheld).trans hlabel)⟩
          | transfers _ new _ _ held deadline => exact ⟨new, rfl, .inr ⟨held, deadline⟩⟩
          | releases _ given => exact absurd given hreleases
      obtain ⟨mid, x, rest, rfl, hx⟩ | hkept :=
        ih (fun x hx => hclock x (List.mem_cons_of_mem _ hx)) hnext
      · exact .inl ⟨label :: mid, x, rest, rfl, hx⟩
      · exact .inr hkept

/-- A lease granted other than by a transfer meets no unexpired one. -/
theorem Grants.free (h : p.Grants label lease) :
    (∃ token newHolder, label.2 = .transferControl token newHolder ∧ p.Accepts label token ∧
      token.sessionId = lease.sessionId) ∨
    ∀ c, p.leases.lookup lease.sessionId = some c → c.state = .held → c.expiresAtUs ≤ label.1 := by
  obtain ⟨hgrants, hanswers⟩ := h
  obtain ⟨clock, call⟩ := label
  have ha := step_eq_of_answers hanswers
  cases call with
  | acquire sessionId holder lineage ttlUs externalReference =>
    obtain ⟨_, h, hlease⟩ := map_returns.1 ha
    cases hlease
    exact .inr (Session.acquire_returns h).2.free
  | transferControl token newHolder =>
    obtain ⟨_, h, hlease⟩ := map_returns.1 ha
    cases hlease
    exact .inl ⟨token, newHolder, rfl, ⟨rfl, _, hanswers⟩, (Session.transferControl_returns h).1.symm⟩
  | resume snapshot holder lineage ttlUs =>
    obtain ⟨_, h, hlease⟩ := map_returns.1 ha
    cases hlease
    obtain ⟨-, -, -, hgranted⟩ := Session.resume_returns h
    exact .inr hgranted.free
  | inspect _ => cases hgrants
  | snapshot _ => cases hgrants
  | release _ => cases hgrants
  | reconcile _ _ => cases hgrants

theorem session_lease_safety (provider : SessionProvider) :
    LeaseSafety (run step (fresh provider : SessionPlane L)) where
  exclusive before a b t t' h h' hsession := by
    obtain ⟨c, hc⟩ := h.current
    obtain ⟨d, hd⟩ := h'.current
    have hlookup := hc.1
    rw [hsession, hd.1] at hlookup
    cases hlookup
    exact ⟨hc.2.2.2.trans hd.2.2.2.symm, hc.2.2.1.trans hd.2.2.1.symm⟩
  fences before a between b g g' h h' hsession := by
    obtain ⟨hstored, -⟩ := h.granted
    obtain ⟨c, hc, hlater⟩ := run_later hstored between
    rw [after_cons] at h'
    have hfence := h'.granted.2.2 c (hsession ▸ hc)
    have hle := hlater.fence
    omega
  outdated before between a b t g h h' hsession := by
    obtain ⟨c, hc⟩ := h.current
    obtain ⟨d, hd, hlater⟩ := run_later hc.1 between
    rw [run_append] at h'
    have hfence := h'.granted.2.2 d (hsession ▸ hd)
    have hle := hlater.fence
    have htoken := hc.2.2.1
    omega
  superseded before a between b g t h hsession hlt h' := by
    obtain ⟨c, hc, hlater⟩ := run_later h.granted.1 between
    rw [after_cons] at h'
    obtain ⟨d, hd⟩ := h'.current
    have hlookup := hd.1
    rw [hsession, hc] at hlookup
    cases hlookup
    have hle := hlater.fence
    have htoken := hd.2.2.1
    omega
  current before a t h := h.current
  deadline before a between b g t h h' hsession hfence := by
    obtain ⟨c, hc, hlater⟩ := run_later h.granted.1 between
    rw [after_cons] at h'
    obtain ⟨d, hd⟩ := h'.current
    have hlookup := hd.1
    rw [hsession, hc] at hlookup
    cases hlookup
    obtain ⟨hholder, hexpires, -⟩ := hlater.same (hd.2.2.1.symm.trans hfence)
    exact ⟨hd.2.2.2.trans hholder, hexpires ▸ hd.2.1.2⟩
  handover before a between b g g' hclock h h' hsession := by
    have hbefore : ∀ x ∈ between, x.1 ≤ b.1 := by
      intro x hx
      rw [Clocked, List.map_append, List.pairwise_append] at hclock
      exact hclock.2.2 x.1 (List.mem_map_of_mem (by simp [hx])) b.1 (by simp)
    rw [after_cons] at h' ⊢
    obtain ⟨mid, x, rest, rfl, hx⟩ | ⟨c, hc, hdeadline⟩ := deadline_kept between hbefore
      ⟨g, h.granted.1, .inr ⟨h.granted.2.1, rfl⟩⟩
    · refine .inr (.inr ⟨mid, x, rest, rfl, ?_⟩)
      rwa [after_cons]
    · obtain ⟨token, newHolder, hcall, haccepts, hid⟩ | hfree := h'.free
      · exact .inr (.inl ⟨token, newHolder, hcall, haccepts, hid.trans hsession.symm⟩)
      · rcases hdeadline with hpassed | ⟨hheld, hexpires⟩
        · exact .inl hpassed
        · exact .inl (hexpires ▸ hfree c (hsession ▸ hc) hheld)
  snapshots before a between b between' c s g h h' hsession h'' := by
    obtain ⟨d, hd, hfence⟩ := h.snapshot
    obtain ⟨e, he, hlater⟩ := run_later hd (a :: between)
    rw [run_append] at h'
    have hgranted := h'.granted.2.2 e (hsession ▸ he)
    obtain ⟨f, hf, hlater'⟩ := run_later h'.granted.1 between'
    rw [after_cons, run_append] at h''
    obtain ⟨⟨i, hi, htaken⟩, -⟩ := h''.resumed
    rw [hsession] at hf
    cases hf.symm.trans hi
    have hle := hlater.fence
    have hle' := hlater'.fence
    omega
  resumedOnce before a between b s h h' := by
    obtain ⟨-, c, hc, hfence⟩ := h.resumed
    obtain ⟨d, hd, hlater⟩ := run_later hc between
    rw [after_cons] at h'
    obtain ⟨⟨e, he, htaken⟩, -⟩ := h'.resumed
    rw [hd] at he
    cases he
    have hle := hlater.fence
    omega
  refused before a e h := by
    rw [run_concat]
    exact Session.perform_raises a.2 _ e _ (answer_eq_error.1 h)

end SessionPlane

end OmniviaCore.Execution
