import OmniviaCore.Gates.DispatchAuthority

/-!
# Dispatch authority fails closed

A call that meets no transport kind without a hash, sets apart, and no instant without an offset where
it is compared, writes one record of canonical values, and answers with a permit or a refusal; a permit
rests on a recorded allow and on one answer of the resolver that is about this very call. A call that
meets one of them writes nothing.
-/

namespace OmniviaCore.Gates.DispatchAuthority

open CanonicalJson Jobs

variable {lib : Library} {sink : DispatchAuditRecord → Bool}

/-! ## What is asked of a call -/

/-- A record carries canonical values only. -/
structure Safe (lib : Library) (entry : DispatchAuditRecord) : Prop where
  identities : ∀ value ∈ [entry.processId, entry.workerId, entry.tenantId, entry.projectId, entry.runId,
      entry.attemptId, entry.bindingId, entry.decisionId, entry.permissionRevision],
    value = .none ∨ (safe value).isSome = true
  capability : entry.capabilityId = .none ∨ (safeCapability entry.capabilityId).isSome = true
  transport : entry.transportKind = .none ∨ entry.transportKind ∈ authenticatedTransports
  origin : entry.destinationOrigin = .none ∨
    ∃ host port, host ≠ [] ∧ entry.destinationOrigin = .str (originOf host port) ∧
      canonicalHttpsOrigin lib (.str (originOf host port)) = some (originOf host port)

/-- The decision is current, short and about this call. -/
structure Current (lib : Library) (context : DispatchContext) (invocation : AuthorizedInvocation)
    (origin : Str) (now : Now) (permission : CurrentPermission) : Prop where
  allowed : permission.allowed = .bool true
  unrevoked : permission.revoked = .bool false
  window : ∃ notBefore notAfter instant, windowOf lib permission = some (notBefore, notAfter) ∧
    now = .aware instant ∧ notBefore ≤ instant ∧ instant < notAfter ∧
    notAfter - notBefore ≤ maxPermissionValidity
  identical : isMatching permission context invocation origin = true

/-- The local checks are passed, and the resolver is asked about `origin`. -/
structure Asks (lib : Library) (invocation : Typed AuthorizedInvocation) (context : Typed DispatchContext)
    (now : Now) (c : DispatchContext) (i : AuthorizedInvocation) (origin : Str) : Prop where
  context_eq : context = .exact c
  invocation_eq : invocation = .exact i
  context_ok : wellFormedContext c = true
  invocation_ok : wellFormedInvocation i = true
  local_ok : localRefusal c now = none
  origin_eq : canonicalHttpsOrigin lib c.destination = some origin

/-- One record of canonical values, a permit or a refusal, and a permit only on a recorded allow and a
current decision. -/
structure FailsClosed (lib : Library) (sink : DispatchAuditRecord → Bool)
    (invocation : Typed AuthorizedInvocation) (context : Typed DispatchContext)
    (resolver : DispatchContext → AuthorizedInvocation → Option (Typed CurrentPermission)) (now : Now)
    (outcome : Outcome) : Prop where
  one_record : ∃ entry, outcome.records = [entry] ∧ Safe lib entry
  answered : ∀ failure, outcome.result = .error failure → ∃ reason, failure = .refusal reason
  sound : ∀ permit, outcome.result = .ok permit →
    outcome.asked = 1 ∧
      (∃ entry, outcome.records = [entry] ∧ entry.allowed = true ∧ sink entry = true) ∧
      ∃ c i origin permission, Asks lib invocation context now c i origin ∧
        resolver c i = some (.exact permission) ∧ wellFormedPermission lib permission = .ok true ∧
        Current lib c i origin now permission

/-- No transport kind without a hash is tested, unless it is a set, and no instant without an offset is
compared. -/
structure Answerable (lib : Library) (invocation : Typed AuthorizedInvocation)
    (context : Typed DispatchContext)
    (resolver : DispatchContext → AuthorizedInvocation → Option (Typed CurrentPermission))
    (now : Now) : Prop where
  context_sought : ∀ c, context = .exact c → isSought c.transportKind = true
  permission_sought : ∀ c i origin permission, Asks lib invocation context now c i origin →
    resolver c i = some (.exact permission) → permissionIdentities permission = true →
    isSought permission.transportKind = true
  comparable : ∀ c i origin permission, Asks lib invocation context now c i origin →
    resolver c i = some (.exact permission) → wellFormedPermission lib permission = .ok true →
    permission.revoked = .bool false → permission.allowed = .bool true →
    ∀ notBefore notAfter, windowOf lib permission = some (notBefore, notAfter) →
      notAfter - notBefore ≤ maxPermissionValidity → now ≠ .offsetless

/-! ## Canonical values -/

/-- A canonical origin is the text it was read from, rebuilt from a host and a port. -/
theorem canonicalHttpsOrigin_eq_some {destination : Obj} {origin : Str}
    (h : canonicalHttpsOrigin lib destination = some origin) :
    destination = .str origin ∧ ∃ host port, host ≠ [] ∧ origin = originOf host port := by
  unfold canonicalHttpsOrigin at h
  split at h
  · next s =>
    split at h
    · cases h
    · split at h
      · cases h
      · split at h
        · cases h
        · split at h
          · cases h
          · split at h
            · next port c host _ _ =>
              split at h
              · next hrebuilt =>
                cases h
                exact ⟨rfl, c :: host, port, List.cons_ne_nil _ _, hrebuilt.symm⟩
              · cases h
            · cases h
  · cases h

theorem carried_safe {α : Type} (field : α → Obj) (value : Option α) :
    carried safe field value = .none ∨ (safe (carried safe field value)).isSome = true := by
  cases hread : value.bind fun v => safe (field v) with
  | none => exact Or.inl (by rw [carried, hread]; rfl)
  | some t =>
    right
    obtain ⟨v, -, hv⟩ := Option.bind_eq_some_iff.mp hread
    have husable := (Obj.text_eq_some.mp hv).2
    rw [carried, hread]
    exact Option.isSome_iff_exists.mpr ⟨t, safe_ofString.mpr husable⟩

theorem carried_safeCapability {α : Type} (field : α → Obj) (value : Option α) :
    carried safeCapability field value = .none ∨
      (safeCapability (carried safeCapability field value)).isSome = true := by
  cases hread : value.bind fun v => safeCapability (field v) with
  | none => exact Or.inl (by rw [carried, hread]; rfl)
  | some t =>
    right
    obtain ⟨v, -, hv⟩ := Option.bind_eq_some_iff.mp hread
    have husable := (Obj.text_eq_some.mp hv).2
    rw [carried, hread]
    exact Option.isSome_iff_exists.mpr ⟨t, Obj.text_eq_some.mpr ⟨rfl, husable⟩⟩

theorem inTransports_eq_ok {value : Obj} {authenticated : Bool} :
    inTransports value = .ok authenticated ↔
      isSought value = true ∧ authenticatedTransports.contains value = authenticated := by
  unfold inTransports
  split
  · next h => simp [h]
  · next h => simp [h]

/-- The transport kind a refusal carries is authenticated, if there is one. -/
theorem exists_refusalTransport {context : Option DispatchContext}
    (hhash : ∀ c, context = some c → isSought c.transportKind = true) :
    ∃ kind, refusalTransport context = .ok kind ∧ (kind = .none ∨ kind ∈ authenticatedTransports) := by
  cases context with
  | none => exact ⟨.none, rfl, Or.inl rfl⟩
  | some c =>
    by_cases hmem : c.transportKind ∈ authenticatedTransports
    · have hin := inTransports_eq_ok.mpr ⟨hhash c rfl, List.contains_iff_mem.mpr hmem⟩
      refine ⟨c.transportKind, ?_, Or.inr hmem⟩
      simp only [refusalTransport, hin, Except.map, if_true]
    · have hout : authenticatedTransports.contains c.transportKind = false := by
        simpa using hmem
      have hin := inTransports_eq_ok.mpr ⟨hhash c rfl, hout⟩
      refine ⟨.none, ?_, Or.inl rfl⟩
      simp only [refusalTransport, hin, Except.map, Bool.false_eq_true, if_false]

theorem safe_refusalEntry {reason : Reason} {kind : Obj} {context : Option DispatchContext}
    {invocation : Option AuthorizedInvocation} {origin : Option Str}
    {permission : Option CurrentPermission}
    (hkind : kind = .none ∨ kind ∈ authenticatedTransports)
    (horigin : ∀ o, origin = some o → canonicalHttpsOrigin lib (.str o) = some o) :
    Safe lib (refusalEntry reason kind context invocation origin permission) where
  identities := by
    simp only [refusalEntry, List.mem_cons, List.not_mem_nil, or_false, forall_eq_or_imp, forall_eq]
    exact ⟨carried_safe _ _, carried_safe _ _, carried_safe _ _, carried_safe _ _, carried_safe _ _,
      carried_safe _ _, carried_safe _ _, carried_safe _ _, carried_safe _ _⟩
  capability := carried_safeCapability _ _
  transport := hkind
  origin := by
    cases origin with
    | none => exact Or.inl rfl
    | some o =>
      obtain ⟨-, host, port, hhost, rfl⟩ := canonicalHttpsOrigin_eq_some (horigin o rfl)
      exact Or.inr ⟨host, port, hhost, rfl, horigin _ rfl⟩

section
variable {invocation : Typed AuthorizedInvocation} {context : Typed DispatchContext}
  {resolver : DispatchContext → AuthorizedInvocation → Option (Typed CurrentPermission)} {now : Now}

/-- Every refusal whose transport kind can be tested leaves its record and nothing else. -/
theorem failsClosed_refuse {log : Log} {reason : Reason} {c : Option DispatchContext}
    {i : Option AuthorizedInvocation} {origin : Option Str} {permission : Option CurrentPermission}
    (hlog : log.records = [])
    (hhash : ∀ c', c = some c' → isSought c'.transportKind = true)
    (horigin : ∀ o, origin = some o → canonicalHttpsOrigin lib (.str o) = some o) :
    FailsClosed lib sink invocation context resolver now
      (refuse sink log reason c i origin permission) := by
  obtain ⟨kind, hrefusal, hkind⟩ := exists_refusalTransport hhash
  simp only [refuse, hrefusal, record, hlog, List.nil_append]
  refine ⟨⟨_, rfl, safe_refusalEntry hkind horigin⟩, ?_, ?_⟩
  · intro failure hfailure
    by_cases hsink : sink (refusalEntry reason kind c i origin permission) = true
    · simp only [hsink, if_true, Except.error.injEq] at hfailure
      exact ⟨reason, hfailure.symm⟩
    · simp only [hsink, Bool.false_eq_true, if_false, Except.error.injEq] at hfailure
      exact ⟨.auditUnavailable, hfailure.symm⟩
  · intro permit hpermit
    split at hpermit <;> cases hpermit

/-! ## The allow -/

theorem localRefusal_eq_none {c : DispatchContext} (h : localRefusal c now = none) :
    isUnusable now = false ∧ c.transportKind ∈ authenticatedTransports := by
  unfold localRefusal at h
  split at h
  · cases h
  · split at h
    · cases h
    · next hnow hkind => exact ⟨by simpa using hnow, by simpa using hkind⟩

theorem Asks.transport_mem {c : DispatchContext} {i : AuthorizedInvocation} {origin : Str}
    (h : Asks lib invocation context now c i origin) : c.transportKind ∈ authenticatedTransports :=
  (localRefusal_eq_none h.local_ok).2

theorem isSought_of_mem {value : Obj} (h : value ∈ authenticatedTransports) :
    isSought value = true := by
  simp only [authenticatedTransports, List.mem_cons, List.not_mem_nil, or_false] at h
  rcases h with rfl | rfl <;> rfl

theorem wellFormedPermission_eq_ok {permission : CurrentPermission}
    (h : wellFormedPermission lib permission = .ok true) :
    permissionIdentities permission = true ∧ isBool permission.allowed = true ∧
      isBool permission.revoked = true := by
  unfold wellFormedPermission at h
  split at h
  · cases h
  · next hids =>
    obtain ⟨authenticated, -, hbools⟩ := Lib.except_map_eq_ok.mp h
    simp only [Bool.and_eq_true] at hbools
    exact ⟨by simpa using hids, hbools.1.2, hbools.2⟩

/-- What the entry of an allow carries was checked before it. -/
theorem safe_allowEntry {c : DispatchContext} {i : AuthorizedInvocation} {origin : Str}
    {permission : CurrentPermission} (hasks : Asks lib invocation context now c i origin)
    (hids : permissionIdentities permission = true) :
    Safe lib (allowEntry c i origin permission) := by
  have hcontext := hasks.context_ok
  have hinvocation := hasks.invocation_ok
  simp only [wellFormedContext, Bool.and_eq_true, List.all_cons, List.all_nil] at hcontext
  simp only [wellFormedInvocation, Bool.and_eq_true, List.all_cons, List.all_nil] at hinvocation
  simp only [permissionIdentities, Bool.and_eq_true, List.all_cons, List.all_nil] at hids
  have horigin := hasks.origin_eq
  obtain ⟨hdestination, host, port, hhost, rfl⟩ := canonicalHttpsOrigin_eq_some horigin
  rw [hdestination] at horigin
  refine ⟨?_, Or.inr hinvocation.1, Or.inr hasks.transport_mem, Or.inr ⟨host, port, hhost, rfl, horigin⟩⟩
  obtain ⟨⟨⟨⟨⟨hprocess, hworker, htenant, hproject, hrun, hattempt, -⟩, -⟩, -⟩, -⟩, -⟩ := hcontext
  obtain ⟨-, -, hbinding, -⟩ := hinvocation
  obtain ⟨-, hdecision, hrevision, -⟩ := hids
  simp only [allowEntry, List.mem_cons, List.not_mem_nil, or_false, forall_eq_or_imp, forall_eq]
  exact ⟨Or.inr hprocess, Or.inr hworker, Or.inr htenant, Or.inr hproject, Or.inr hrun, Or.inr hattempt,
    Or.inr hbinding, Or.inr hdecision, Or.inr hrevision⟩

/-- An allow is recorded before it is answered. -/
theorem failsClosed_allow {c : DispatchContext} {i : AuthorizedInvocation} {origin : Str}
    {permission : CurrentPermission} {answer : DispatchPermit}
    (hasks : Asks lib invocation context now c i origin)
    (hanswer : resolver c i = some (.exact permission))
    (hwell : wellFormedPermission lib permission = .ok true)
    (hcurrent : Current lib c i origin now permission) :
    FailsClosed lib sink invocation context resolver now
      (record sink ⟨[], 1⟩ (allowEntry c i origin permission) (.ok answer)) := by
  refine ⟨⟨_, rfl, safe_allowEntry hasks (wellFormedPermission_eq_ok hwell).1⟩, ?_, ?_⟩
  · intro failure hfailure
    simp only [record] at hfailure
    split at hfailure
    · cases hfailure
    · exact ⟨.auditUnavailable, (Except.error.inj hfailure).symm⟩
  · intro permit hpermit
    simp only [record] at hpermit
    split at hpermit
    · next hsink =>
      exact ⟨rfl, ⟨_, rfl, rfl, hsink⟩, c, i, origin, permission, hasks, hanswer, hwell, hcurrent⟩
    · cases hpermit

/-! ## The answer of the resolver -/

theorem bool_of_isBool {value : Obj} (h : isBool value = true) (hne : value ≠ .bool true) :
    value = .bool false := by
  cases value with
  | bool b =>
    cases b with
    | true => exact absurd rfl hne
    | false => rfl
  | str | int | none | set | other => cases h

/-- A refusal after the local checks. -/
theorem Asks.failsClosed_refuse {c : DispatchContext} {i : AuthorizedInvocation} {origin : Str}
    (hasks : Asks lib invocation context now c i origin) {log : Log} {reason : Reason}
    {named : Option AuthorizedInvocation} {permission : Option CurrentPermission} (hlog : log.records = []) :
    FailsClosed lib sink invocation context resolver now
      (refuse sink log reason (some c) named (some origin) permission) := by
  refine DispatchAuthority.failsClosed_refuse hlog ?_ ?_
  · rintro c' ⟨⟩
    exact isSought_of_mem hasks.transport_mem
  · rintro o ⟨⟩
    have horigin := hasks.origin_eq
    rwa [(canonicalHttpsOrigin_eq_some horigin).1] at horigin

theorem failsClosed_settle {c : DispatchContext} {i : AuthorizedInvocation} {origin : Str}
    {permission : CurrentPermission} (hasks : Asks lib invocation context now c i origin)
    (hanswer : resolver c i = some (.exact permission))
    (hwell : wellFormedPermission lib permission = .ok true)
    (hable : Answerable lib invocation context resolver now) :
    FailsClosed lib sink invocation context resolver now
      (settle lib sink ⟨[], 1⟩ c i origin now permission) := by
  obtain ⟨-, -, hrevokedBool⟩ := wellFormedPermission_eq_ok hwell
  unfold settle
  by_cases hrevoked : permission.revoked = .bool true
  · rw [if_pos hrevoked]
    exact hasks.failsClosed_refuse rfl
  rw [if_neg hrevoked]
  have hunrevoked := bool_of_isBool hrevokedBool hrevoked
  by_cases hallowed : permission.allowed = .bool true
  swap
  · rw [if_pos hallowed]
    exact hasks.failsClosed_refuse rfl
  rw [if_neg (not_not.mpr hallowed)]
  cases hwindow : windowOf lib permission with
  | none => exact hasks.failsClosed_refuse rfl
  | some window =>
    obtain ⟨notBefore, notAfter⟩ := window
    by_cases hlong : maxPermissionValidity < notAfter - notBefore
    · simp only [if_pos hlong]
      exact hasks.failsClosed_refuse rfl
    simp only [if_neg hlong]
    have hshort : notAfter - notBefore ≤ maxPermissionValidity := not_lt.mp hlong
    have husable := (localRefusal_eq_none hasks.local_ok).1
    cases now with
    | other => cases husable
    | naive => cases husable
    | offsetless =>
      exact absurd rfl (hable.comparable c i origin permission hasks hanswer hwell hunrevoked hallowed
        notBefore notAfter hwindow hshort)
    | aware instant =>
      by_cases hwithin : notBefore ≤ instant ∧ instant < notAfter
      · simp only [isWithin, hwithin.1, hwithin.2, decide_true, Bool.and_self]
        by_cases hmatch : isMatching permission c i origin = true
        · simp only [hmatch, Bool.not_true, Bool.false_eq_true, if_false]
          exact failsClosed_allow hasks hanswer hwell ⟨hallowed, hunrevoked,
            ⟨notBefore, notAfter, instant, hwindow, rfl, hwithin.1, hwithin.2, hshort⟩, hmatch⟩
        · simp only [hmatch, Bool.not_false, if_true]
          exact hasks.failsClosed_refuse rfl
      · have hout : (decide (notBefore ≤ instant) && decide (instant < notAfter)) = false := by
          simpa using hwithin
        simp only [isWithin, hout]
        exact hasks.failsClosed_refuse rfl

theorem failsClosed_weighAnswer {c : DispatchContext} {i : AuthorizedInvocation} {origin : Str}
    (hasks : Asks lib invocation context now c i origin)
    (hable : Answerable lib invocation context resolver now) :
    FailsClosed lib sink invocation context resolver now
      (weighAnswer lib sink ⟨[], 1⟩ c i origin now (resolver c i)) := by
  unfold weighAnswer
  cases hanswer : resolver c i with
  | none => exact hasks.failsClosed_refuse rfl
  | some answer =>
    cases answer with
    | other => exact hasks.failsClosed_refuse rfl
    | exact permission =>
      simp only
      cases hwell : wellFormedPermission lib permission with
      | error failure =>
        exfalso
        have hids : permissionIdentities permission = true := by
          by_contra hids
          rw [Bool.not_eq_true] at hids
          simp [wellFormedPermission, hids] at hwell
        have hkind := inTransports_eq_ok.mpr
          ⟨hable.permission_sought c i origin permission hasks hanswer hids, rfl⟩
        simp [wellFormedPermission, hids, hkind, Except.map] at hwell
      | ok well =>
        cases well with
        | false => exact hasks.failsClosed_refuse rfl
        | true => exact failsClosed_settle hasks hanswer hwell hable

/-! ## The whole call -/

theorem failsClosed_of_answerable (hable : Answerable lib invocation context resolver now) :
    FailsClosed lib sink invocation context resolver now
      (authorizeDispatch lib sink invocation context resolver now) := by
  have hnone : ∀ o, (none : Option Str) = some o → canonicalHttpsOrigin lib (.str o) = some o := by
    rintro o ⟨⟩
  have hnowhere : ∀ c, (none : Option DispatchContext) = some c → isSought c.transportKind = true := by
    rintro c ⟨⟩
  cases context with
  | other => exact failsClosed_refuse rfl hnowhere hnone
  | exact c =>
    unfold authorizeDispatch
    have hhash : ∀ c', some c = some c' → isSought c'.transportKind = true := by
      rintro c' ⟨⟩
      exact hable.context_sought c rfl
    by_cases hcontext : wellFormedContext c = true
    swap
    · simp only [hcontext, Bool.not_false, if_true]
      exact failsClosed_refuse rfl hhash hnone
    simp only [hcontext, Bool.not_true, Bool.false_eq_true, if_false]
    cases invocation with
    | other => exact failsClosed_refuse rfl hhash hnone
    | exact i =>
      by_cases hinvocation : wellFormedInvocation i = true
      swap
      · simp only [hinvocation, Bool.not_false, if_true]
        exact failsClosed_refuse rfl hhash hnone
      simp only [hinvocation, Bool.not_true, Bool.false_eq_true, if_false]
      cases hlocal : localRefusal c now with
      | some reason => exact failsClosed_refuse rfl hhash hnone
      | none =>
        simp only
        cases horigin : canonicalHttpsOrigin lib c.destination with
        | none => exact failsClosed_refuse rfl hhash hnone
        | some origin =>
          exact failsClosed_weighAnswer ⟨rfl, rfl, hcontext, hinvocation, hlocal, horigin⟩ hable

/-- A call that passes the local checks is decided by the answer. -/
theorem authorizeDispatch_eq_weighAnswer {c : DispatchContext} {i : AuthorizedInvocation} {origin : Str}
    (hasks : Asks lib invocation context now c i origin) :
    authorizeDispatch lib sink invocation context resolver now =
      weighAnswer lib sink ⟨[], 1⟩ c i origin now (resolver c i) := by
  obtain ⟨rfl, rfl, hcontext, hinvocation, hlocal, horigin⟩ := hasks
  simp [authorizeDispatch, ask, hcontext, hinvocation, hlocal, horigin]

/-- `authorize_dispatch` fails closed with one record exactly on the calls that can be answered. -/
theorem authorize_dispatch_fails_closed_iff :
    FailsClosed lib sink invocation context resolver now
        (authorizeDispatch lib sink invocation context resolver now) ↔
      Answerable lib invocation context resolver now := by
  refine ⟨fun h => ?_, failsClosed_of_answerable⟩
  obtain ⟨entry, hone, -⟩ := h.one_record
  refine ⟨?_, ?_, ?_⟩
  · rintro c rfl
    by_contra hhash
    have hmalformed : wellFormedContext c = false := by
      cases hkind : c.transportKind <;> simp_all [isSought, wellFormedContext, isStr]
    simp [authorizeDispatch, hmalformed, refuse, refusalTransport, inTransports, hhash, Except.map] at hone
  · intro c i origin permission hasks hanswer hids
    by_contra hhash
    simp [authorizeDispatch_eq_weighAnswer hasks, weighAnswer, hanswer, wellFormedPermission, hids,
      inTransports, hhash, Except.map] at hone
  · rintro c i origin permission hasks hanswer hwell hrevoked hallowed notBefore notAfter hwindow hshort rfl
    simp [authorizeDispatch_eq_weighAnswer hasks, weighAnswer, hanswer, hwell, settle, hrevoked, hallowed,
      hwindow, not_lt.mpr hshort, isWithin] at hone

end

/-- A context whose transport kind is a list is refused by a `TypeError`, and nothing is recorded. -/
theorem unhashable_transport_unrecorded :
    ¬ FailsClosed ⟨fun _ => true, fun _ => false, fun _ => none, fun _ => none⟩ (fun _ => true) .other
      (.exact ⟨.ofString "p", .ofString "w", .ofString "t", .ofString "j", .ofString "r", .ofString "a",
        .other false, .ofString "https://h", .bool false, .bool false⟩)
      (fun _ _ => none) (.aware 0)
      (authorizeDispatch ⟨fun _ => true, fun _ => false, fun _ => none, fun _ => none⟩ (fun _ => true)
        .other
        (.exact ⟨.ofString "p", .ofString "w", .ofString "t", .ofString "j", .ofString "r",
          .ofString "a", .other false, .ofString "https://h", .bool false, .bool false⟩)
        (fun _ _ => none) (.aware 0)) := by
  intro h
  obtain ⟨entry, hone, -⟩ := h.one_record
  simp [authorizeDispatch, wellFormedContext, isStr, refuse, refusalTransport, inTransports, isSought,
    Except.map] at hone

end OmniviaCore.Gates.DispatchAuthority
