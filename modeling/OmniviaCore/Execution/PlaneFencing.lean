import OmniviaCore.Lib.Machine
import OmniviaCore.Execution.PlaneCalls

/-!
# Fencing of the execution planes

`Effect` is the step lemma: what one call does to the planes, whether it returns or raises
(`step_effect`). Every effect keeps the invariant `Sound`, by which a granted lease id is new when
SHA-256 is injective, and moves the planes on (`Later`): what `plane_fencing` says of a run is read off
the lease that the presented one has become.
-/

namespace OmniviaCore.Execution

open Lib CanonicalJson

variable {sha256 : List UInt8 → String} {p p' q : PlaneOwnership} {tick : Int}
variable {label : Int × PlaneCall}

/-- What can become of a lease. -/
structure PlaneLease.Later (l l' : PlaneLease) : Prop where
  planeRole : l'.planeRole = l.planeRole
  scope : l'.scope = l.scope
  owner : l'.owner = l.owner
  token : l.fencingToken ≤ l'.fencingToken
  expires : l'.fencingToken = l.fencingToken → l'.expiresAtTick = l.expiresAtTick
  revoked : l.revoked = true → l'.revoked = true

theorem PlaneLease.Later.refl (l : PlaneLease) : l.Later l :=
  ⟨rfl, rfl, rfl, le_rfl, fun _ => rfl, id⟩

theorem PlaneLease.Later.trans {l l' l'' : PlaneLease} (h : l.Later l') (h' : l'.Later l'') :
    l.Later l'' where
  planeRole := h'.planeRole.trans h.planeRole
  scope := h'.scope.trans h.scope
  owner := h'.owner.trans h.owner
  token := h.token.trans h'.token
  expires := by
    intro hsame
    have hle := h.token
    have hle' := h'.token
    exact (h'.expires (by omega)).trans (h.expires (by omega))
  revoked := fun hrevoked => h'.revoked (h.revoked hrevoked)

namespace PlaneOwnership

def Answers (sha256 : List UInt8 → String) (p : PlaneOwnership) (label : Int × PlaneCall)
    (a : PlaneAnswer) : Prop :=
  answer (label.2.perform sha256 label.1 p) = .ok a

theorem Answers.step {a : PlaneAnswer} (h : p.Answers sha256 label a) :
    label.2.perform sha256 label.1 p = .ok a (p.step sha256 label) :=
  answer_eq_ok.1 h

/-- What one call does to the planes. -/
inductive Effect (sha256 : List UInt8 → String) (label : Int × PlaneCall) (p : PlaneOwnership) :
    PlaneOwnership → Prop
  | silent {p' : PlaneOwnership} (h : p.Silent p') : Effect sha256 label p p'
  | grants {p' : PlaneOwnership} (q : PlaneOwnership) (planeRole : PlaneRole) (scope owner : String)
      (expiresAtTick : Int)
      (granted : p.Granted sha256 q planeRole scope owner expiresAtTick label.1) (silent : q.Silent p') :
      Effect sha256 label p p'
  | renews (leaseId : String) (held : PlaneLease) (expiresAtTick : Int)
      (hheld : p.leases.lookup leaseId = some held) (hforce : p.InForce held leaseId label.1) :
      Effect sha256 label p { p with
        nextToken := p.nextToken + 1
        leases := p.leases.insert leaseId { held with fencingToken := p.nextToken, expiresAtTick } }
  | revokes (leaseId : String) (held : PlaneLease) (hheld : p.leases.lookup leaseId = some held) :
      Effect sha256 label p
        { p with leases := p.leases.insert leaseId { held with revoked := true } }
  | dispatches (dispatchId leaseId payloadDigest : String) (fencingToken : Int) (held : PlaneLease)
      (hheld : p.leases.lookup leaseId = some held) (hnew : p.dispatches.lookup dispatchId = none)
      (hanswers : p.Answers sha256 label
        (.record ⟨dispatchId, held.planeRole, leaseId, fencingToken, payloadDigest⟩)) :
      Effect sha256 label p { p with
        dispatches :=
          p.dispatches.insert dispatchId ⟨held.planeRole, leaseId, fencingToken, false⟩ }
  | completes (dispatchId : String) (state : DispatchState)
      (hstate : p.dispatches.lookup dispatchId = some state) :
      Effect sha256 label p { p with
        dispatches := p.dispatches.insert dispatchId { state with completed := true } }
  | delivers (leaseId dedupeKey deliveryId : String) (fencingToken : Int) (held : PlaneLease)
      (hcall : label.2 = .deliver leaseId fencingToken deliveryId dedupeKey)
      (hheld : p.leases.lookup leaseId = some held) (hnew : p.deliveries.lookup dedupeKey = none)
      (hroom : (p.inFlight.card : Int) < p.listenerCapacity)
      (hanswers : ∃ decision : DeliveryDecision, p.Answers sha256 label (.delivery decision) ∧
        decision.dedupeKey = dedupeKey ∧ decision.disposition = .delivered) :
      Effect sha256 label p { p with
        deliveries := p.deliveries.insert dedupeKey (deliveryId, held.scope)
        inFlight := insert dedupeKey p.inFlight }
  | settles (dedupeKey : String) :
      Effect sha256 label p { p with inFlight := p.inFlight.erase dedupeKey }

theorem step_effect (sha256 : List UInt8 → String) (p : PlaneOwnership) (label : Int × PlaneCall) :
    Effect sha256 label p (p.step sha256 label) := by
  obtain ⟨tick, call⟩ := label
  cases hresult : call.perform sha256 tick p with
  | error e p' =>
    have hstep : p.step sha256 (tick, call) = p' := by rw [step, hresult, finalState]
    rw [hstep]
    obtain h | ⟨planeRole, scope, owner, expires, held, -, -, q, hgranted, hsilent⟩ :=
      PlaneCall.perform_raises hresult
    · exact .silent h
    · exact .grants q planeRole scope owner expires hgranted hsilent
  | ok a p' =>
    have hanswers : p.Answers sha256 (tick, call) a := by
      rw [Answers, hresult]
      rfl
    have hstep : p.step sha256 (tick, call) = p' := by rw [step, hresult, finalState]
    rw [hstep]
    cases call with
    | acquire planeRole scope owner expires =>
      obtain ⟨_, h, -⟩ := map_returns.1 hresult
      obtain ⟨-, hgranted, -⟩ := Plane.acquire_returns h
      exact .grants p' planeRole scope owner expires hgranted (Silent.refl p')
    | renew leaseId owner expires =>
      obtain ⟨_, h, -⟩ := map_returns.1 hresult
      obtain ⟨held, hheld, hforce, rfl, -⟩ := Plane.renew_returns h
      exact .renews leaseId held expires hheld hforce
    | takeOver planeRole scope owner expires =>
      obtain ⟨_, h, -⟩ := map_returns.1 hresult
      obtain ⟨held, ⟨-, -, q, hgranted, hsilent⟩, -⟩ := Plane.takeOver_returns h
      exact .grants q planeRole scope owner expires hgranted hsilent
    | revoke leaseId fencingToken =>
      obtain ⟨_, h, -⟩ := map_returns.1 hresult
      obtain ⟨held, hcurrent, rfl⟩ := Plane.revoke_returns h
      exact .revokes leaseId held hcurrent.1
    | dispatch leaseId fencingToken dispatchId payloadDigest =>
      obtain ⟨_, h, rfl⟩ := map_returns.1 hresult
      obtain ⟨held, hcurrent, hnew, rfl, rfl⟩ := Plane.dispatch_returns h
      exact .dispatches dispatchId leaseId payloadDigest fencingToken held hcurrent.1 hnew hanswers
    | applyWrite leaseId fencingToken payloadDigest =>
      obtain ⟨_, h, -⟩ := map_returns.1 hresult
      obtain ⟨rfl, -⟩ := Plane.applyWrite_returns h
      exact .silent (Silent.refl _)
    | complete dispatchId fencingToken outcome =>
      obtain ⟨_, h, -⟩ := map_returns.1 hresult
      obtain ⟨state, hstate, -, -, ⟨-, -, rfl⟩ | ⟨-, hsilent⟩⟩ := Plane.complete_returns h
      · exact .completes dispatchId state hstate
      · exact .silent hsilent
    | deliver leaseId fencingToken deliveryId dedupeKey =>
      obtain ⟨decision, h, rfl⟩ := map_returns.1 hresult
      obtain ⟨held, hcurrent, -, hkey, ⟨-, -, rfl⟩ | ⟨hdelivered, hnew, hroom, rfl⟩⟩ :=
        Plane.deliver_returns h
      · exact .silent (Silent.refl _)
      · exact .delivers leaseId dedupeKey deliveryId fencingToken held rfl hcurrent.1 hnew hroom
          ⟨decision, hanswers, hkey, hdelivered⟩
    | settleDelivery leaseId fencingToken dedupeKey =>
      obtain ⟨_, h, -⟩ := map_returns.1 hresult
      obtain ⟨held, admitted, -, -, -, -, rfl⟩ := Plane.settleDelivery_returns h
      exact .settles dedupeKey
    | reconcile leaseId fencingToken resource observationDigest age maximumAge =>
      obtain ⟨_, h, -⟩ := map_returns.1 hresult
      obtain ⟨rfl, -⟩ := Plane.reconcile_returns h
      exact .silent (Silent.refl _)

/-! ## The invariant -/

/-- The id of a lease that began with a token below a bound. -/
def IssuedBelow (sha256 : List UInt8 → String) (bound : Int) (leaseId : String) : Prop :=
  ∃ (planeRole : PlaneRole) (scope owner : String) (token : Int),
    isIdentifier scope = true ∧ isIdentifier owner = true ∧ token < bound ∧
      leaseId = deriveId sha256 ["lease", planeRole.spelling, scope, owner, toString token]

structure Sound (sha256 : List UInt8 → String) (p : PlaneOwnership) : Prop where
  keyed : ∀ id l, p.leases.lookup id = some l → l.leaseId = id
  issued : ∀ id l, p.leases.lookup id = some l → IssuedBelow sha256 p.nextToken id
  tokens : ∀ id l, p.leases.lookup id = some l → l.fencingToken < p.nextToken
  owned : ∀ planeRole scope id, p.owned.lookup (planeRole, scope) = some id →
    ∃ l, p.leases.lookup id = some l ∧ l.planeRole = planeRole ∧ l.scope = scope
  capacity : (p.inFlight.card : Int) ≤ p.listenerCapacity

theorem IssuedBelow.mono {bound bound' : Int} {leaseId : String} (h : IssuedBelow sha256 bound leaseId)
    (hle : bound ≤ bound') : IssuedBelow sha256 bound' leaseId := by
  obtain ⟨planeRole, scope, owner, token, hscope, howner, hlt, rfl⟩ := h
  exact ⟨planeRole, scope, owner, token, hscope, howner, by omega, rfl⟩

theorem spelling_unsplit (planeRole : PlaneRole) : Unsplit planeRole.spelling := by
  cases planeRole <;> decide

theorem Sound.fresh_id {planeRole : PlaneRole} {scope owner : String} {expiresAtTick : Int}
    (h : Sound sha256 p) (hsha : Function.Injective sha256)
    (hgranted : p.Granted sha256 q planeRole scope owner expiresAtTick tick) :
    p.leases.lookup (Plane.granted sha256 p planeRole scope owner expiresAtTick).leaseId = none := by
  by_contra hne
  obtain ⟨l, hl⟩ := Option.ne_none_iff_exists'.1 hne
  obtain ⟨planeRole', scope', owner', token, hscope, howner, hlt, hid⟩ := h.issued _ l hl
  have hparts := deriveId_inj hsha ?_ ?_ (List.cons_ne_nil _ _) (List.cons_ne_nil _ _) hid
  · simp only [List.cons.injEq, and_true, true_and] at hparts
    have htoken : p.nextToken = token := Int.repr_injective hparts.2.2.2
    omega
  · simp only [List.forall_mem_cons]
    exact ⟨by decide, spelling_unsplit _, unsplit_of_isIdentifier hgranted.scope_valid,
      unsplit_of_isIdentifier hgranted.owner_valid, unsplit_toString _, fun _ h => by cases h⟩
  · simp only [List.forall_mem_cons]
    exact ⟨by decide, spelling_unsplit _, unsplit_of_isIdentifier hscope,
      unsplit_of_isIdentifier howner, unsplit_toString _, fun _ h => by cases h⟩

theorem sound_fresh {listenerCapacity : Int} (h : 1 ≤ listenerCapacity) :
    Sound sha256 (fresh listenerCapacity) where
  keyed id l hl := by simp [fresh] at hl
  issued id l hl := by simp [fresh] at hl
  tokens id l hl := by simp [fresh] at hl
  owned planeRole scope id hid := by simp [fresh] at hid
  capacity := by
    show ((∅ : Finset String).card : Int) ≤ listenerCapacity
    simp
    omega

/-- Planes with the same leases, and no more in flight. -/
theorem Sound.congr (h : Sound sha256 p) (hleases : p'.leases = p.leases)
    (howned : p'.owned = p.owned) (hnext : p'.nextToken = p.nextToken)
    (hcapacity : (p'.inFlight.card : Int) ≤ p'.listenerCapacity) : Sound sha256 p' where
  keyed id l hl := h.keyed id l (hleases ▸ hl)
  issued id l hl := hnext ▸ h.issued id l (hleases ▸ hl)
  tokens id l hl := hnext ▸ h.tokens id l (hleases ▸ hl)
  owned planeRole scope id hid := by
    obtain ⟨l, hl, hrest⟩ := h.owned planeRole scope id (howned ▸ hid)
    exact ⟨l, hleases ▸ hl, hrest⟩
  capacity := hcapacity

/-- A lease rewritten under its id, with a token that has been issued. -/
theorem Sound.rewrite (h : Sound sha256 p) {id : String} {l : PlaneLease} (l' : PlaneLease)
    (hl : p.leases.lookup id = some l) (hid : l'.leaseId = l.leaseId)
    (hrole : l'.planeRole = l.planeRole) (hscope : l'.scope = l.scope)
    (htoken : l'.fencingToken < p'.nextToken) (hnext : p.nextToken ≤ p'.nextToken)
    (hleases : p'.leases = p.leases.insert id l') (howned : p'.owned = p.owned)
    (hcapacity : (p'.inFlight.card : Int) ≤ p'.listenerCapacity) : Sound sha256 p' where
  keyed i k hk := by
    rw [hleases, lookup_insert_eq_some] at hk
    rcases hk with ⟨rfl, rfl⟩ | ⟨-, hk⟩
    · exact hid.trans (h.keyed _ l hl)
    · exact h.keyed i k hk
  issued i k hk := by
    rw [hleases, lookup_insert_eq_some] at hk
    rcases hk with ⟨rfl, rfl⟩ | ⟨-, hk⟩
    · exact (h.issued _ l hl).mono hnext
    · exact (h.issued i k hk).mono hnext
  tokens i k hk := by
    rw [hleases, lookup_insert_eq_some] at hk
    rcases hk with ⟨rfl, rfl⟩ | ⟨-, hk⟩
    · exact htoken
    · exact (h.tokens i k hk).trans_le hnext
  owned planeRole scope i hi := by
    rw [howned] at hi
    obtain ⟨k, hk, hplane⟩ := h.owned planeRole scope i hi
    by_cases hsame : i = id
    · subst hsame
      cases hl.symm.trans hk
      exact ⟨l', by rw [hleases, AList.lookup_insert], hrole.trans hplane.1, hscope.trans hplane.2⟩
    · exact ⟨k, by rwa [hleases, AList.lookup_insert_ne hsame], hplane⟩
  capacity := hcapacity

theorem Sound.grant {planeRole : PlaneRole} {scope owner : String} {expiresAtTick : Int}
    (h : Sound sha256 p) (hsha : Function.Injective sha256)
    (hgranted : p.Granted sha256 p' planeRole scope owner expiresAtTick tick) :
    Sound sha256 p' where
  keyed i k hk := by
    rw [hgranted.leases, lookup_insert_eq_some] at hk
    rcases hk with ⟨rfl, rfl⟩ | ⟨-, hk⟩
    · rfl
    · exact h.keyed i k hk
  issued i k hk := by
    rw [hgranted.leases, lookup_insert_eq_some] at hk
    rw [hgranted.nextToken]
    rcases hk with ⟨rfl, rfl⟩ | ⟨-, hk⟩
    · exact ⟨planeRole, scope, owner, p.nextToken, hgranted.scope_valid, hgranted.owner_valid,
        by omega, rfl⟩
    · exact (h.issued i k hk).mono (by omega)
  tokens i k hk := by
    rw [hgranted.leases, lookup_insert_eq_some] at hk
    rw [hgranted.nextToken]
    rcases hk with ⟨rfl, rfl⟩ | ⟨-, hk⟩
    · show p.nextToken < p.nextToken + 1
      omega
    · have hlt := h.tokens i k hk
      omega
  owned role sc i hi := by
    rw [hgranted.owned, lookup_insert_eq_some] at hi
    rw [hgranted.leases]
    rcases hi with ⟨hkey, rfl⟩ | ⟨-, hi⟩
    · cases hkey
      exact ⟨_, AList.lookup_insert _, rfl, rfl⟩
    · obtain ⟨k, hk, hplane⟩ := h.owned role sc i hi
      refine ⟨k, ?_, hplane⟩
      rw [AList.lookup_insert_ne, hk]
      rintro rfl
      rw [h.fresh_id hsha hgranted] at hk
      cases hk
  capacity := by
    rw [hgranted.inFlight, hgranted.listenerCapacity]
    exact h.capacity

theorem Sound.effect (h : Sound sha256 p) (hsha : Function.Injective sha256)
    (he : Effect sha256 label p p') : Sound sha256 p' := by
  cases he with
  | silent hsilent =>
    rw [hsilent]
    exact h.congr rfl rfl rfl h.capacity
  | grants q planeRole scope owner expires hgranted hsilent =>
    have hq := h.grant hsha hgranted
    rw [hsilent]
    exact hq.congr rfl rfl rfl hq.capacity
  | renews id held expires hheld hforce =>
    refine h.rewrite { held with fencingToken := p.nextToken, expiresAtTick := expires } hheld rfl rfl rfl
      ?_ ?_ rfl rfl h.capacity
    · show p.nextToken < p.nextToken + 1
      omega
    · show p.nextToken ≤ p.nextToken + 1
      omega
  | revokes id held hheld =>
    exact h.rewrite { held with revoked := true } hheld rfl rfl rfl (h.tokens id held hheld) le_rfl rfl
      rfl h.capacity
  | dispatches _ _ _ _ _ _ _ _ => exact h.congr rfl rfl rfl h.capacity
  | completes _ _ _ => exact h.congr rfl rfl rfl h.capacity
  | delivers _ dedupeKey deliveryId _ held _ _ hnew hroom _ =>
    refine h.congr rfl rfl rfl ?_
    have hle := Finset.card_insert_le dedupeKey p.inFlight
    show ((insert dedupeKey p.inFlight).card : Int) ≤ p.listenerCapacity
    omega
  | settles dedupeKey =>
    refine h.congr rfl rfl rfl ?_
    have hle := Finset.card_erase_le (a := dedupeKey) (s := p.inFlight)
    have hcapacity := h.capacity
    show ((p.inFlight.erase dedupeKey).card : Int) ≤ p.listenerCapacity
    omega

/-! ## The planes only move on -/

structure Later (p p' : PlaneOwnership) : Prop where
  tokens : p.nextToken ≤ p'.nextToken
  leases : ∀ id l, p.leases.lookup id = some l → ∃ l', p'.leases.lookup id = some l' ∧ l.Later l'
  superseded : ∀ id l, p.leases.lookup id = some l →
    p.owned.lookup (l.planeRole, l.scope) ≠ some id →
    p'.owned.lookup (l.planeRole, l.scope) ≠ some id
  dispatches : ∀ id s, p.dispatches.lookup id = some s → ∃ s', p'.dispatches.lookup id = some s' ∧
    s'.leaseId = s.leaseId ∧ s'.fencingToken = s.fencingToken ∧
    (s.completed = true → s'.completed = true)
  deliveries : ∀ key d, p.deliveries.lookup key = some d → p'.deliveries.lookup key = some d

theorem Later.trans (h : p.Later q) (h' : q.Later p') : p.Later p' where
  tokens := h.tokens.trans h'.tokens
  leases id l hl := by
    obtain ⟨k, hk, hlater⟩ := h.leases id l hl
    obtain ⟨k', hk', hlater'⟩ := h'.leases id k hk
    exact ⟨k', hk', hlater.trans hlater'⟩
  superseded id l hl howned := by
    obtain ⟨k, hk, hlater⟩ := h.leases id l hl
    have hnext := h.superseded id l hl howned
    rw [← hlater.planeRole, ← hlater.scope] at hnext ⊢
    exact h'.superseded id k hk hnext
  dispatches id s hs := by
    obtain ⟨t, ht, hid, htoken, hdone⟩ := h.dispatches id s hs
    obtain ⟨t', ht', hid', htoken', hdone'⟩ := h'.dispatches id t ht
    exact ⟨t', ht', hid'.trans hid, htoken'.trans htoken, fun hc => hdone' (hdone hc)⟩
  deliveries key d hd := h'.deliveries key d (h.deliveries key d hd)

/-- Nothing about leases, dispatches and deliveries changes. -/
theorem Later.congr (hnext : p'.nextToken = p.nextToken) (hleases : p'.leases = p.leases)
    (howned : p'.owned = p.owned) (hdispatches : p'.dispatches = p.dispatches)
    (hdeliveries : p'.deliveries = p.deliveries) : p.Later p' where
  tokens := hnext.ge
  leases _ l hl := ⟨l, hleases ▸ hl, .refl l⟩
  superseded _ _ _ h := howned ▸ h
  dispatches _ s hs := ⟨s, hdispatches ▸ hs, rfl, rfl, fun h => h⟩
  deliveries _ _ hd := hdeliveries ▸ hd

theorem Later.rewrite {id : String} {l : PlaneLease} (l' : PlaneLease) (hl : p.leases.lookup id = some l)
    (hlater : l.Later l') (hnext : p.nextToken ≤ p'.nextToken)
    (hleases : p'.leases = p.leases.insert id l') (howned : p'.owned = p.owned)
    (hdispatches : p'.dispatches = p.dispatches) (hdeliveries : p'.deliveries = p.deliveries) :
    p.Later p' where
  tokens := hnext
  leases i k hk := by
    rw [hleases]
    by_cases hsame : i = id
    · subst hsame
      cases hl.symm.trans hk
      exact ⟨l', AList.lookup_insert _, hlater⟩
    · exact ⟨k, by rwa [AList.lookup_insert_ne hsame], .refl k⟩
  superseded _ _ _ h := howned ▸ h
  dispatches _ s hs := ⟨s, hdispatches ▸ hs, rfl, rfl, fun h => h⟩
  deliveries _ _ hd := hdeliveries ▸ hd

theorem later_dispatch {dispatchId : String} {s : DispatchState}
    (h : ∀ t, p.dispatches.lookup dispatchId = some t → s.leaseId = t.leaseId ∧
      s.fencingToken = t.fencingToken ∧ (t.completed = true → s.completed = true)) :
    p.Later { p with dispatches := p.dispatches.insert dispatchId s } where
  tokens := le_rfl
  leases _ l hl := ⟨l, hl, .refl l⟩
  superseded _ _ _ h := h
  dispatches id t ht := by
    by_cases hid : id = dispatchId
    · subst hid
      exact ⟨s, AList.lookup_insert _, h t ht⟩
    · exact ⟨t, by rwa [AList.lookup_insert_ne hid], rfl, rfl, fun h => h⟩
  deliveries _ _ hd := hd

theorem Sound.later_grant {planeRole : PlaneRole} {scope owner : String} {expiresAtTick : Int}
    (h : Sound sha256 p) (hsha : Function.Injective sha256)
    (hgranted : p.Granted sha256 p' planeRole scope owner expiresAtTick tick) : p.Later p' where
  tokens := by
    rw [hgranted.nextToken]
    omega
  leases i k hk := by
    rw [hgranted.leases]
    refine ⟨k, ?_, .refl k⟩
    rw [AList.lookup_insert_ne, hk]
    rintro rfl
    rw [h.fresh_id hsha hgranted] at hk
    cases hk
  superseded i k hk howned := by
    rw [hgranted.owned, ne_eq, lookup_insert_eq_some]
    rintro (⟨-, rfl⟩ | ⟨-, hsame⟩)
    · rw [h.fresh_id hsha hgranted] at hk
      cases hk
    · exact howned hsame
  dispatches _ s hs := ⟨s, hgranted.dispatches ▸ hs, rfl, rfl, fun h => h⟩
  deliveries _ _ hd := hgranted.deliveries ▸ hd

theorem Sound.later (h : Sound sha256 p) (hsha : Function.Injective sha256)
    (he : Effect sha256 label p p') : p.Later p' := by
  cases he with
  | silent hsilent =>
    rw [hsilent]
    exact .congr rfl rfl rfl rfl rfl
  | grants q planeRole scope owner expires hgranted hsilent =>
    refine (h.later_grant hsha hgranted).trans ?_
    rw [hsilent]
    exact .congr rfl rfl rfl rfl rfl
  | renews id held expires hheld hforce =>
    have htoken := h.tokens id held hheld
    refine .rewrite { held with fencingToken := p.nextToken, expiresAtTick := expires } hheld
      ⟨rfl, rfl, rfl, htoken.le, fun hsame => ?_, fun hrevoked => hrevoked⟩ ?_ rfl rfl rfl rfl
    · have hsame : p.nextToken = held.fencingToken := hsame
      omega
    · show p.nextToken ≤ p.nextToken + 1
      omega
  | revokes id held hheld =>
    exact .rewrite { held with revoked := true } hheld ⟨rfl, rfl, rfl, le_rfl, fun _ => rfl, fun _ => rfl⟩
      le_rfl rfl rfl rfl rfl
  | dispatches dispatchId _ _ _ held hheld hnew _ =>
    exact later_dispatch fun t ht => by
      rw [hnew] at ht
      cases ht
  | completes dispatchId state hstate =>
    exact later_dispatch fun t ht => by
      rw [hstate] at ht
      cases ht
      exact ⟨rfl, rfl, fun _ => rfl⟩
  | delivers _ dedupeKey deliveryId _ held _ _ hnew hroom _ =>
    refine ⟨le_rfl, fun _ l hl => ⟨l, hl, .refl l⟩, fun _ _ _ h => h,
      fun _ s hs => ⟨s, hs, rfl, rfl, fun h => h⟩, fun key d hd => ?_⟩
    rw [AList.lookup_insert_ne, hd]
    rintro rfl
    rw [hnew] at hd
    cases hd
  | settles dedupeKey => exact .congr rfl rfl rfl rfl rfl

/-- The invariant holds along a run, and the planes only move on. -/
theorem Sound.along (h : Sound sha256 p) (hsha : Function.Injective sha256)
    (labels : List (Int × PlaneCall)) :
    Sound sha256 (run (step sha256) p labels) ∧ p.Later (run (step sha256) p labels) := by
  induction labels generalizing p with
  | nil => exact ⟨h, .congr rfl rfl rfl rfl rfl⟩
  | cons label labels ih =>
    have heffect := step_effect sha256 p label
    obtain ⟨hsound, hlater⟩ := ih (h.effect hsha heffect)
    exact ⟨hsound, (h.later hsha heffect).trans hlater⟩

end PlaneOwnership

end OmniviaCore.Execution
