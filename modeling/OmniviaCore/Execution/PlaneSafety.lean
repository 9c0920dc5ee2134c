import OmniviaCore.Execution.PlaneFencing

/-!
# Safety of the execution planes

What holds in every run of the planes from their construction, `plane_fencing`. The statements are
about calls made at points of the run: `after` is the planes after some calls, and a call made later is
made after those calls, the call and some more.
-/

namespace OmniviaCore.Execution

open Lib CanonicalJson

variable {sha256 : List UInt8 → String} {p p' : PlaneOwnership} {label : Int × PlaneCall}

def PlaneCall.authority : PlaneCall → Option (String × Int)
  | .revoke leaseId fencingToken => some (leaseId, fencingToken)
  | .dispatch leaseId fencingToken _ _ => some (leaseId, fencingToken)
  | .applyWrite leaseId fencingToken _ => some (leaseId, fencingToken)
  | .deliver leaseId fencingToken _ _ => some (leaseId, fencingToken)
  | .settleDelivery leaseId fencingToken _ => some (leaseId, fencingToken)
  | .reconcile leaseId fencingToken _ _ _ _ => some (leaseId, fencingToken)
  | _ => none

namespace PlaneOwnership

variable (sha256 p label) in
/-- A call presenting the lease and token is accepted. -/
def Accepts (leaseId : String) (fencingToken : Int) : Prop :=
  label.2.authority = some (leaseId, fencingToken) ∧ ∃ a, p.Answers sha256 label a

variable (sha256 p label) in
def Applies (dispatchId : String) (fencingToken : Int) : Prop :=
  ∃ kind outcome, label.2 = .complete dispatchId fencingToken kind ∧
    p.Answers sha256 label (.completion outcome) ∧ outcome.applied = true

theorem Accepts.current {leaseId : String} {fencingToken : Int}
    (h : Accepts sha256 p label leaseId fencingToken) :
    ∃ held, p.Current leaseId fencingToken label.1 held := by
  obtain ⟨hauthority, a, ha⟩ := h
  obtain ⟨tick, call⟩ := label
  have ha := ha.step
  cases call with
  | revoke id token =>
    cases hauthority
    obtain ⟨_, h, -⟩ := map_returns.1 ha
    obtain ⟨held, hcurrent, -⟩ := Plane.revoke_returns h
    exact ⟨held, hcurrent⟩
  | dispatch id token dispatchId payloadDigest =>
    cases hauthority
    obtain ⟨_, h, -⟩ := map_returns.1 ha
    obtain ⟨held, hcurrent, -⟩ := Plane.dispatch_returns h
    exact ⟨held, hcurrent⟩
  | applyWrite id token payloadDigest =>
    cases hauthority
    obtain ⟨_, h, -⟩ := map_returns.1 ha
    exact (Plane.applyWrite_returns h).2
  | deliver id token deliveryId dedupeKey =>
    cases hauthority
    obtain ⟨_, h, -⟩ := map_returns.1 ha
    obtain ⟨held, hcurrent, -⟩ := Plane.deliver_returns h
    exact ⟨held, hcurrent⟩
  | settleDelivery id token dedupeKey =>
    cases hauthority
    obtain ⟨_, h, -⟩ := map_returns.1 ha
    obtain ⟨held, admitted, hcurrent, -⟩ := Plane.settleDelivery_returns h
    exact ⟨held, hcurrent⟩
  | reconcile id token resource observationDigest age maximumAge =>
    cases hauthority
    obtain ⟨_, h, -⟩ := map_returns.1 ha
    exact (Plane.reconcile_returns h).2
  | acquire _ _ _ _ => cases hauthority
  | renew _ _ _ => cases hauthority
  | takeOver _ _ _ _ => cases hauthority
  | complete _ _ _ => cases hauthority

/-- What a grant leaves: the next token, and the lease in force under it. -/
structure Issued (p p' : PlaneOwnership) (g : LeaseGrant) : Prop where
  token : g.fencingToken = p.nextToken
  nextToken : p'.nextToken = p.nextToken + 1
  lease : ∃ l, p'.leases.lookup g.leaseId = some l ∧ l.fencingToken = g.fencingToken ∧
    l.expiresAtTick = g.expiresAtTick
  superseded : ∀ id token, g.superseded = some (id, token) → id ≠ g.leaseId ∧
    ∃ l, p.leases.lookup id = some l ∧ p'.owned.lookup (l.planeRole, l.scope) = some g.leaseId

theorem Sound.issued_of_grant (h : Sound sha256 p) (hsha : Function.Injective sha256) {g : LeaseGrant}
    (hanswers : p.Answers sha256 label (.grant g)) : Issued p (p.step sha256 label) g := by
  obtain ⟨tick, call⟩ := label
  have ha := hanswers.step
  cases call with
  | acquire planeRole scope owner expires =>
    obtain ⟨_, hcall, hg⟩ := map_returns.1 ha
    cases hg
    obtain ⟨-, hgranted, rfl⟩ := Plane.acquire_returns hcall
    exact {
      token := rfl
      nextToken := hgranted.nextToken
      lease := ⟨_, by rw [hgranted.leases, AList.lookup_insert], rfl, rfl⟩
      superseded := fun id token hnone => by cases hnone }
  | renew leaseId owner expires =>
    obtain ⟨_, hcall, hg⟩ := map_returns.1 ha
    cases hg
    obtain ⟨held, hheld, hforce, hstep, rfl⟩ := Plane.renew_returns hcall
    rw [hstep]
    exact {
      token := rfl
      nextToken := rfl
      lease := ⟨_, AList.lookup_insert _, rfl, rfl⟩
      superseded := fun id token hnone => by cases hnone }
  | takeOver planeRole scope owner expires =>
    obtain ⟨_, hcall, hg⟩ := map_returns.1 ha
    cases hg
    obtain ⟨held, ⟨hheld, -, q, hgranted, hsilent⟩, rfl⟩ := Plane.takeOver_returns hcall
    obtain ⟨id₀, howned, hlookup⟩ := Option.bind_eq_some_iff.1 hheld
    obtain ⟨l, hl, hrole, hscope⟩ := h.owned planeRole scope id₀ howned
    cases hlookup.symm.trans hl
    have hkey := h.keyed id₀ held hlookup
    rw [hsilent]
    exact {
      token := rfl
      nextToken := hgranted.nextToken
      lease := ⟨_, by
        show q.leases.lookup _ = _
        rw [hgranted.leases, AList.lookup_insert], rfl, rfl⟩
      superseded := by
        intro id token hsuperseded
        cases hsuperseded
        refine ⟨?_, held, hkey ▸ hlookup, ?_⟩
        · intro (hsame : held.leaseId = (Plane.granted sha256 p planeRole scope owner expires).leaseId)
          have hfresh := h.fresh_id hsha hgranted
          rw [← hsame, hkey, hlookup] at hfresh
          cases hfresh
        · show q.owned.lookup _ = _
          rw [hgranted.owned, hrole, hscope, AList.lookup_insert] }
  | revoke _ _ => obtain ⟨_, -, h⟩ := map_returns.1 ha; cases h
  | dispatch _ _ _ _ => obtain ⟨_, -, h⟩ := map_returns.1 ha; cases h
  | applyWrite _ _ _ => obtain ⟨_, -, h⟩ := map_returns.1 ha; cases h
  | complete _ _ _ => obtain ⟨_, -, h⟩ := map_returns.1 ha; cases h
  | deliver _ _ _ _ => obtain ⟨_, -, h⟩ := map_returns.1 ha; cases h
  | settleDelivery _ _ _ => obtain ⟨_, -, h⟩ := map_returns.1 ha; cases h
  | reconcile _ _ _ _ _ _ => obtain ⟨_, -, h⟩ := map_returns.1 ha; cases h

/-! ## Where dispatches and deliveries come from -/

/-- A dispatch of the step is one there was before, or was made by the call. -/
theorem step_dispatch {dispatchId : String} {s : DispatchState}
    (h : (p.step sha256 label).dispatches.lookup dispatchId = some s) :
    (∃ t, p.dispatches.lookup dispatchId = some t ∧ t.leaseId = s.leaseId ∧
      t.fencingToken = s.fencingToken) ∨
    ∃ r, p.Answers sha256 label (.record r) ∧ r.dispatchId = dispatchId ∧ r.leaseId = s.leaseId ∧
      r.fencingToken = s.fencingToken ∧ ∃ l, p.leases.lookup r.leaseId = some l := by
  have heffect := step_effect sha256 p label
  generalize p.step sha256 label = p' at heffect h
  cases heffect with
  | silent hsilent =>
    rw [hsilent] at h
    exact .inl ⟨s, h, rfl, rfl⟩
  | grants q planeRole scope owner expires hgranted hsilent =>
    rw [hsilent] at h
    exact .inl ⟨s, hgranted.dispatches ▸ h, rfl, rfl⟩
  | renews _ _ _ _ _ => exact .inl ⟨s, h, rfl, rfl⟩
  | revokes _ _ _ => exact .inl ⟨s, h, rfl, rfl⟩
  | dispatches id leaseId payloadDigest token held hheld hnew hanswers =>
    rcases lookup_insert_eq_some.1 h with ⟨rfl, rfl⟩ | ⟨-, h⟩
    · exact .inr ⟨_, hanswers, rfl, rfl, rfl, held, hheld⟩
    · exact .inl ⟨s, h, rfl, rfl⟩
  | completes id state hstate =>
    rcases lookup_insert_eq_some.1 h with ⟨rfl, rfl⟩ | ⟨-, h⟩
    · exact .inl ⟨state, hstate, rfl, rfl⟩
    · exact .inl ⟨s, h, rfl, rfl⟩
  | delivers _ _ _ _ _ _ _ _ _ _ => exact .inl ⟨s, h, rfl, rfl⟩
  | settles _ => exact .inl ⟨s, h, rfl, rfl⟩

/-- A delivery of the step is one there was before, or was admitted by the call. -/
theorem step_delivery {dedupeKey : String} {d : String × String}
    (h : (p.step sha256 label).deliveries.lookup dedupeKey = some d) :
    p.deliveries.lookup dedupeKey = some d ∨
    ∃ leaseId token deliveryId decision l, label.2 = .deliver leaseId token deliveryId dedupeKey ∧
      p.Answers sha256 label (.delivery decision) ∧ decision.disposition = .delivered ∧
      p.leases.lookup leaseId = some l ∧ d.2 = l.scope := by
  have heffect := step_effect sha256 p label
  generalize p.step sha256 label = p' at heffect h
  cases heffect with
  | silent hsilent =>
    rw [hsilent] at h
    exact .inl h
  | grants q planeRole scope owner expires hgranted hsilent =>
    rw [hsilent] at h
    exact .inl (hgranted.deliveries ▸ h)
  | renews _ _ _ _ _ => exact .inl h
  | revokes _ _ _ => exact .inl h
  | dispatches _ _ _ _ _ _ _ _ => exact .inl h
  | completes _ _ _ => exact .inl h
  | delivers leaseId key deliveryId token held hcall hheld hnew hroom hanswers =>
    rcases lookup_insert_eq_some.1 h with ⟨rfl, rfl⟩ | ⟨-, h⟩
    · obtain ⟨decision, hanswers, -, hdelivered⟩ := hanswers
      exact .inr ⟨leaseId, token, deliveryId, decision, held, hcall, hanswers, hdelivered, hheld, rfl⟩
    · exact .inl h
  | settles _ => exact .inl h

theorem after_later (before between : List (Int × PlaneCall)) (a : Int × PlaneCall) :
    run (step sha256) p (before ++ a :: between) =
      run (step sha256) ((run (step sha256) p before).step sha256 a) between := by
  rw [run_append, run_cons]

theorem dispatch_origin {listenerCapacity : Int} {dispatchId : String} {s : DispatchState}
    (labels : List (Int × PlaneCall))
    (h : (run (step sha256) (fresh listenerCapacity) labels).dispatches.lookup dispatchId = some s) :
    ∃ before a between r l, labels = before ++ a :: between ∧
      (run (step sha256) (fresh listenerCapacity) before).Answers sha256 a (.record r) ∧
      r.dispatchId = dispatchId ∧ r.leaseId = s.leaseId ∧ r.fencingToken = s.fencingToken ∧
      (run (step sha256) (fresh listenerCapacity) before).leases.lookup r.leaseId = some l := by
  induction labels using List.reverseRecOn generalizing s with
  | nil => simp [fresh] at h
  | append_singleton labels label ih =>
    rw [run_concat] at h
    rcases step_dispatch h with ⟨t, ht, hlease, htoken⟩ | ⟨r, hanswers, hid, hlease, htoken, l, hl⟩
    · obtain ⟨before, a, between, r, l, rfl, hanswers, hid, hlease', htoken', hl⟩ := ih ht
      exact ⟨before, a, between ++ [label], r, l, by simp, hanswers, hid, hlease'.trans hlease,
        htoken'.trans htoken, hl⟩
    · exact ⟨labels, label, [], r, l, rfl, hanswers, hid, hlease, htoken, hl⟩

/-- Every delivery was admitted by a call of the run. -/
theorem delivery_origin {listenerCapacity : Int} {dedupeKey : String} {d : String × String}
    (labels : List (Int × PlaneCall))
    (h : (run (step sha256) (fresh listenerCapacity) labels).deliveries.lookup dedupeKey = some d) :
    ∃ before a between leaseId token deliveryId decision l, labels = before ++ a :: between ∧
      a.2 = .deliver leaseId token deliveryId dedupeKey ∧
      (run (step sha256) (fresh listenerCapacity) before).Answers sha256 a (.delivery decision) ∧
      decision.disposition = .delivered ∧
      (run (step sha256) (fresh listenerCapacity) before).leases.lookup leaseId = some l ∧
      d.2 = l.scope := by
  induction labels using List.reverseRecOn with
  | nil => simp [fresh] at h
  | append_singleton labels label ih =>
    rw [run_concat] at h
    rcases step_delivery h with h |
      ⟨leaseId, token, deliveryId, decision, l, hcall, hanswers, hdelivered, hl, hscope⟩
    · obtain ⟨before, a, between, leaseId, token, deliveryId, decision, l, rfl, hrest⟩ := ih h
      exact ⟨before, a, between ++ [label], leaseId, token, deliveryId, decision, l, by simp, hrest⟩
    · exact ⟨labels, label, [], leaseId, token, deliveryId, decision, l, rfl, hcall, hanswers,
        hdelivered, hl, hscope⟩

theorem run_capacity (labels : List (Int × PlaneCall)) :
    (run (step sha256) p labels).listenerCapacity = p.listenerCapacity := by
  refine run_invariant (P := fun q : PlaneOwnership => q.listenerCapacity = p.listenerCapacity) ?_ rfl labels
  intro q label hq
  have heffect := step_effect sha256 q label
  generalize q.step sha256 label = q' at heffect
  cases heffect with
  | silent hsilent =>
    rw [hsilent]
    exact hq
  | grants _ _ _ _ _ hgranted hsilent =>
    rw [hsilent]
    exact hgranted.listenerCapacity.trans hq
  | renews _ _ _ _ _ => exact hq
  | revokes _ _ _ => exact hq
  | dispatches _ _ _ _ _ _ _ _ => exact hq
  | completes _ _ _ => exact hq
  | delivers _ _ _ _ _ _ _ _ _ _ => exact hq
  | settles _ => exact hq

theorem Applies.applied {dispatchId : String} {fencingToken : Int}
    (h : Applies sha256 p label dispatchId fencingToken) :
    ∃ state held, p.dispatches.lookup dispatchId = some state ∧ state.completed = false ∧
      state.fencingToken = fencingToken ∧ p.leases.lookup state.leaseId = some held ∧
      p.InForce held state.leaseId label.1 ∧
      ∃ state', (p.step sha256 label).dispatches.lookup dispatchId = some state' ∧
        state'.completed = true := by
  obtain ⟨kind, outcome, hcall, hanswers, happlied⟩ := h
  obtain ⟨tick, call⟩ := label
  subst hcall
  obtain ⟨_, hcompleted, houtcome⟩ := map_returns.1 hanswers.step
  cases houtcome
  obtain ⟨state, hstate, hopen, -, ⟨-, hcompletes, hstep⟩ | ⟨hlate, -⟩⟩ :=
    Plane.complete_returns hcompleted
  · obtain ⟨held, hheld, hforce, htoken⟩ := Plane.completes_iff.1 hcompletes
    refine ⟨state, held, hstate, hopen, htoken, hheld, hforce, { state with completed := true }, ?_, rfl⟩
    rw [hstep]
    exact AList.lookup_insert _
  · rw [happlied] at hlate
    cases hlate

theorem revoked_of_answers {id : String} {token : Int} (hcall : label.2 = .revoke id token)
    (hanswers : p.Answers sha256 label .revoked) :
    ∃ l, (p.step sha256 label).leases.lookup id = some l ∧ l.revoked = true := by
  obtain ⟨tick, call⟩ := label
  subst hcall
  obtain ⟨_, hrevoke, -⟩ := map_returns.1 hanswers.step
  obtain ⟨held, -, hstep⟩ := Plane.revoke_returns hrevoke
  rw [hstep]
  exact ⟨_, AList.lookup_insert _, rfl⟩

theorem delivery_of_answers {d : DeliveryDecision} (h : p.Answers sha256 label (.delivery d)) :
    (d.disposition = .duplicate ∨ p.deliveries.lookup d.dedupeKey = none) ∧
      ∃ admitted, (p.step sha256 label).deliveries.lookup d.dedupeKey = some admitted := by
  obtain ⟨tick, call⟩ := label
  have ha := h.step
  cases call with
  | deliver leaseId token deliveryId dedupeKey =>
    obtain ⟨_, hdeliver, hd⟩ := map_returns.1 ha
    cases hd
    obtain ⟨held, -, -, hkey, ⟨hduplicate, hseen, hstep⟩ | ⟨-, hnew, -, hstep⟩⟩ :=
      Plane.deliver_returns hdeliver
    · rw [hstep, hkey]
      exact ⟨.inl hduplicate, Option.ne_none_iff_exists'.1 hseen⟩
    · rw [hstep, hkey]
      exact ⟨.inr hnew, _, AList.lookup_insert _⟩
  | acquire _ _ _ _ => obtain ⟨_, -, h⟩ := map_returns.1 ha; cases h
  | renew _ _ _ => obtain ⟨_, -, h⟩ := map_returns.1 ha; cases h
  | takeOver _ _ _ _ => obtain ⟨_, -, h⟩ := map_returns.1 ha; cases h
  | revoke _ _ => obtain ⟨_, -, h⟩ := map_returns.1 ha; cases h
  | dispatch _ _ _ _ => obtain ⟨_, -, h⟩ := map_returns.1 ha; cases h
  | applyWrite _ _ _ => obtain ⟨_, -, h⟩ := map_returns.1 ha; cases h
  | complete _ _ _ => obtain ⟨_, -, h⟩ := map_returns.1 ha; cases h
  | settleDelivery _ _ _ => obtain ⟨_, -, h⟩ := map_returns.1 ha; cases h
  | reconcile _ _ _ _ _ _ => obtain ⟨_, -, h⟩ := map_returns.1 ha; cases h

/-! ## Runs -/

/-- What holds in every run. `after` is the planes after some calls. -/
structure Fenced (sha256 : List UInt8 → String) (listenerCapacity : Int)
    (after : List (Int × PlaneCall) → PlaneOwnership) : Prop where
  /-- Every token issued is larger than all issued before. -/
  tokens : ∀ before a between b g g', (after before).Answers sha256 a (.grant g) →
    (after (before ++ a :: between)).Answers sha256 b (.grant g') → g.fencingToken < g'.fencingToken
  /-- At one time one lease and token of a role and scope is accepted. -/
  exclusive : ∀ labels a b id token id' token' l l', Accepts sha256 (after labels) a id token →
    Accepts sha256 (after labels) b id' token' → (after labels).leases.lookup id = some l →
    (after labels).leases.lookup id' = some l' → l.planeRole = l'.planeRole → l.scope = l'.scope →
    id = id' ∧ token = token'
  /-- A lease that was taken over is accepted no more, -/
  takenOver : ∀ before a between b g id token token', (after before).Answers sha256 a (.grant g) →
    g.superseded = some (id, token) → ¬Accepts sha256 (after (before ++ a :: between)) b id token'
  /-- nor one that was revoked, -/
  revoked : ∀ before a between b id token token', a.2 = .revoke id token →
    (after before).Answers sha256 a .revoked →
    ¬Accepts sha256 (after (before ++ a :: between)) b id token'
  /-- nor one with a token it was renewed past, -/
  renewed : ∀ before a between b g token, (after before).Answers sha256 a (.grant g) →
    token < g.fencingToken → ¬Accepts sha256 (after (before ++ a :: between)) b g.leaseId token
  /-- nor at or after the tick its token expires at. -/
  expired : ∀ before a between b g, (after before).Answers sha256 a (.grant g) →
    g.expiresAtTick ≤ b.1 →
    ¬Accepts sha256 (after (before ++ a :: between)) b g.leaseId g.fencingToken
  /-- A dispatch is applied once, -/
  appliedOnce : ∀ before a between b id token token', Applies sha256 (after before) a id token →
    ¬Applies sha256 (after (before ++ a :: between)) b id token'
  /-- under the token it was dispatched with, while the lease that admitted it is in force. -/
  applied : ∀ labels b id token, Applies sha256 (after labels) b id token →
    ∃ before a between r l l', labels = before ++ a :: between ∧
      (after before).Answers sha256 a (.record r) ∧ r.dispatchId = id ∧ r.fencingToken = token ∧
      (after before).leases.lookup r.leaseId = some l ∧
      (after labels).leases.lookup r.leaseId = some l' ∧ l.Later l' ∧
      (after labels).InForce l' r.leaseId b.1
  /-- The listener is never over its capacity. -/
  capacity : ∀ labels, ((after labels).inFlight.card : Int) ≤ listenerCapacity
  /-- A key that was answered is a duplicate ever after. -/
  deliveredOnce : ∀ before a between b d d', (after before).Answers sha256 a (.delivery d) →
    (after (before ++ a :: between)).Answers sha256 b (.delivery d') → d'.dedupeKey = d.dedupeKey →
    d'.disposition = .duplicate
  /-- A delivery is settled under a listener lease in force over the scope that admitted it. -/
  settled : ∀ labels b id token key remaining, b.2 = .settleDelivery id token key →
    (after labels).Answers sha256 b (.settled remaining) →
    ∃ before a between id₀ token₀ deliveryId d l held, labels = before ++ a :: between ∧
      a.2 = .deliver id₀ token₀ deliveryId key ∧ (after before).Answers sha256 a (.delivery d) ∧
      d.disposition = .delivered ∧ (after before).leases.lookup id₀ = some l ∧
      (after labels).Current id token b.1 held ∧ held.planeRole = .listener ∧ held.scope = l.scope

/-- A lease in force and the one presented later are the same lease, moved on. -/
theorem Sound.met (h : Sound sha256 p) (hsha : Function.Injective sha256)
    (labels : List (Int × PlaneCall)) {id : String} {l : PlaneLease} {token tick : Int}
    {held : PlaneLease} (hl : p.leases.lookup id = some l)
    (hcurrent : (run (step sha256) p labels).Current id token tick held) :
    l.Later held ∧ held.fencingToken = token ∧
      (run (step sha256) p labels).InForce held id tick := by
  obtain ⟨l', hl', hlater⟩ := (h.along hsha labels).2.leases id l hl
  cases hl'.symm.trans hcurrent.1
  exact ⟨hlater, hcurrent.2⟩

theorem plane_fencing (hsha : Function.Injective sha256) {listenerCapacity : Int}
    (hcapacity : 1 ≤ listenerCapacity) :
    Fenced sha256 listenerCapacity (run (step sha256) (fresh listenerCapacity)) := by
  have hrun : ∀ labels, Sound sha256 (run (step sha256) (fresh listenerCapacity) labels) :=
    fun labels => ((sound_fresh hcapacity).along hsha labels).1
  -- the planes right after a call of a run
  have hstep : ∀ before a, Sound sha256
      ((run (step sha256) (fresh listenerCapacity) before).step sha256 a) :=
    fun before a => (hrun before).effect hsha (step_effect sha256 _ a)
  constructor
  case tokens =>
    intro before a between b g g' h h'
    rw [after_later] at h'
    have hissued := (hrun before).issued_of_grant hsha h
    obtain ⟨hsound, hlater⟩ := (hstep before a).along hsha between
    have hissued' := hsound.issued_of_grant hsha h'
    have hle := hlater.tokens
    rw [hissued.nextToken] at hle
    rw [hissued.token, hissued'.token]
    omega
  case exclusive =>
    intro labels a b id token id' token' l l' h h' hl hl' hrole hscope
    obtain ⟨held, hheld, rfl, hforce⟩ := h.current
    obtain ⟨held', hheld', rfl, hforce'⟩ := h'.current
    cases hl.symm.trans hheld
    cases hl'.symm.trans hheld'
    have howned := hforce.1
    rw [hrole, hscope, hforce'.1] at howned
    cases howned
    cases hheld.symm.trans hheld'
    exact ⟨rfl, rfl⟩
  case takenOver =>
    intro before a between b g id token token' h hsuperseded h'
    rw [after_later] at h'
    obtain ⟨hne, l, hl, howned⟩ := ((hrun before).issued_of_grant hsha h).superseded id token hsuperseded
    have hlater := (hrun before).later hsha (step_effect sha256 _ a)
    obtain ⟨l₁, hl₁, hlater₁⟩ := hlater.leases id l hl
    have hgone : ((run (step sha256) (fresh listenerCapacity) before).step sha256 a).owned.lookup
        (l₁.planeRole, l₁.scope) ≠ some id := by
      rw [hlater₁.planeRole, hlater₁.scope, howned]
      intro hsame
      exact hne (Option.some.inj hsame).symm
    obtain ⟨held, hcurrent⟩ := h'.current
    obtain ⟨hlater₂, -, hforce⟩ := (hstep before a).met hsha between hl₁ hcurrent
    have hgone' := ((hstep before a).along hsha between).2.superseded id l₁ hl₁ hgone
    rw [← hlater₂.planeRole, ← hlater₂.scope] at hgone'
    exact hgone' hforce.1
  case revoked =>
    intro before a between b id token token' hcall h h'
    rw [after_later] at h'
    obtain ⟨l, hl, hrevoked⟩ := revoked_of_answers hcall h
    obtain ⟨held, hcurrent⟩ := h'.current
    obtain ⟨hlater, -, hforce⟩ := (hstep before a).met hsha between hl hcurrent
    have hinForce := hforce.2.1
    rw [hlater.revoked hrevoked] at hinForce
    cases hinForce
  case renewed =>
    intro before a between b g token h hlt h'
    rw [after_later] at h'
    obtain ⟨l, hl, htoken, -⟩ := ((hrun before).issued_of_grant hsha h).lease
    obtain ⟨held, hcurrent⟩ := h'.current
    obtain ⟨hlater, hpresented, -⟩ := (hstep before a).met hsha between hl hcurrent
    have hle := hlater.token
    omega
  case expired =>
    intro before a between b g h htick h'
    rw [after_later] at h'
    obtain ⟨l, hl, htoken, hexpires⟩ := ((hrun before).issued_of_grant hsha h).lease
    obtain ⟨held, hcurrent⟩ := h'.current
    obtain ⟨hlater, hpresented, hforce⟩ := (hstep before a).met hsha between hl hcurrent
    have hsame := hlater.expires (by omega)
    have hlt := hforce.2.2
    omega
  case appliedOnce =>
    intro before a between b id token token' h h'
    rw [after_later] at h'
    obtain ⟨-, -, -, -, -, -, -, state, hstate, hdone⟩ := h.applied
    obtain ⟨state', hstate', -, -, hdone'⟩ :=
      ((hstep before a).along hsha between).2.dispatches id state hstate
    obtain ⟨t, -, ht, hopen, -⟩ := h'.applied
    cases hstate'.symm.trans ht
    rw [hdone' hdone] at hopen
    cases hopen
  case applied =>
    intro labels b id token h
    obtain ⟨state, held, hstate, -, rfl, hheld, hforce, -⟩ := h.applied
    obtain ⟨before, a, between, r, l, rfl, hanswers, hid, hlease, htoken, hl⟩ :=
      dispatch_origin labels hstate
    obtain ⟨l', hl', hlater⟩ := ((hrun before).along hsha (a :: between)).2.leases r.leaseId l hl
    rw [← run_append, hlease, hheld] at hl'
    cases hl'
    exact ⟨before, a, between, r, l, held, rfl, hanswers, hid, htoken, hl, hlease ▸ hheld, hlater,
      hlease ▸ hforce⟩
  case capacity =>
    intro labels
    have hle := (hrun labels).capacity
    rwa [run_capacity] at hle
  case deliveredOnce =>
    intro before a between b d d' h h' hkey
    rw [after_later] at h'
    obtain ⟨-, admitted, hadmitted⟩ := delivery_of_answers h
    have hseen := ((hstep before a).along hsha between).2.deliveries _ _ hadmitted
    obtain ⟨hduplicate | hnew, -⟩ := delivery_of_answers h'
    · exact hduplicate
    · rw [hkey, hseen] at hnew
      cases hnew
  case settled =>
    intro labels b id token key remaining hcall h
    obtain ⟨tick, call⟩ := b
    cases hcall
    obtain ⟨_, hsettle, -⟩ := map_returns.1 h.step
    obtain ⟨held, admitted, hcurrent, hlistener, hadmitted, hscope, -⟩ :=
      Plane.settleDelivery_returns hsettle
    obtain ⟨before, a, between, id₀, token₀, deliveryId, d, l, rfl, hdeliver, hanswers, hdelivered, hl,
      horigin⟩ := delivery_origin labels hadmitted
    exact ⟨before, a, between, id₀, token₀, deliveryId, d, l, held, rfl, hdeliver, hanswers, hdelivered,
      hl, hcurrent, hlistener, hscope.symm.trans horigin⟩

def sampleSha256 : List UInt8 → String :=
  spelledDigest (joinedParts ["lease", "SCHEDULER", "queue", "worker-1", "1"])
    "862bed077643005ce9730587035991a3d09ba188112591c8f0e26bc733afcef0"

theorem plane_fencing_scheduler :
    Fenced sampleSha256 8 (run (step sampleSha256) (fresh 8)) ∧
      ((run (step sampleSha256) (fresh 8) [(0, .acquire .scheduler "queue" "worker-1" 10)]).leases.lookup
        "sha256:862bed077643005ce9730587035991a3d09ba188112591c8f0e26bc733afcef0").map
          (·.fencingToken) = some 1 :=
  ⟨plane_fencing (spelledDigest_injective (by decide)) (by decide), by decide +kernel⟩

end PlaneOwnership

end OmniviaCore.Execution
