import OmniviaCore.Lib.Check
import OmniviaCore.Knowledge.Manifests
import OmniviaCore.Execution.Autonomy

/-!
# What a resolution can and cannot widen

A resolution is read off the seven contributions: a scope is the intersection of the declared ones, a
bound is the least declared one, the approvals are the union (`resolveAutonomy_eq_ok`). Each is monotone
in the contributions, so replacing sources by narrower ones only narrows. Supplying an absent kind also
takes its default bounds away (`autonomy_narrows`).
-/

namespace OmniviaCore.Execution.Autonomy

open Lib CanonicalJson

variable {sha256 : List UInt8 → String} {sources : List AutonomySource} {granted : Bool}
  {requested : Option RequestedSpend} {result : EffectiveAutonomy}

/-! ## What the sources declare -/

/-- The entries of a dimension every declared scope keeps. -/
def scopeOf (sources : List AutonomySource) (d : ScopeDimension) : Set String :=
  {entry | ∀ source ∈ sources, ∀ declared ∈ source.scope d, entry ∈ declared}

def Declares (sources : List AutonomySource) (d : ScopeDimension) : Prop :=
  ∃ source ∈ sources, (source.scope d).isSome = true

def Supplies (sources : List AutonomySource) (kind : AutonomySourceKind) : Prop :=
  ∃ source ∈ sources, source.sourceKind = kind

/-- The supplied bounds of a dimension, and the defaults of the absent kinds. -/
def boundsOf (sources : List AutonomySource) (d : BoundDimension) : Set ℕ :=
  {b | (∃ source ∈ sources, b ∈ source.bound d) ∨
    (∃ kind, ¬Supplies sources kind) ∧ b = d.defaultMaximum}

def approvalsOf (sources : List AutonomySource) : Set EffectClass :=
  {e | ∃ source ∈ sources, e ∈ source.approvalRequired}

/-- A source that declares the same collections in another order. -/
structure SameUpToOrder (s t : AutonomySource) : Prop where
  sourceKind : s.sourceKind = t.sourceKind
  provenance : s.provenance = t.provenance
  scope : ∀ d, Option.Rel List.Perm (s.scope d) (t.scope d)
  approvalRequired : s.approvalRequired.Perm t.approvalRequired
  bound : s.bound = t.bound

/-- A source with its scopes replaced by subsets, its bounds by smaller ones and its approvals by
supersets. A scope or a bound that is not declared is the widest. -/
structure Narrower (s t : AutonomySource) : Prop where
  sourceKind : s.sourceKind = t.sourceKind
  scope : ∀ d, ∀ wide ∈ t.scope d, ∃ kept ∈ s.scope d, kept ⊆ wide
  bound : ∀ d, ∀ wide ∈ t.bound d, ∃ tight ∈ s.bound d, tight ≤ wide
  approvalRequired : t.approvalRequired ⊆ s.approvalRequired

/-! ## The fold of a scope -/

theorem isSome_foldl_narrow (d : ScopeDimension) (narrowed : Option (Finset String)) :
    (sources.foldl (narrow d) narrowed).isSome = true ↔
      narrowed.isSome = true ∨ Declares sources d := by
  induction sources generalizing narrowed with
  | nil => simp [Declares]
  | cons source sources ih =>
    have hstep : (narrow d narrowed source).isSome = true ↔
        narrowed.isSome = true ∨ (source.scope d).isSome = true := by
      unfold narrow
      split <;> simp_all
    rw [List.foldl_cons, ih, hstep, or_assoc]
    simp [Declares]

theorem mem_foldl_narrow (d : ScopeDimension) (narrowed : Option (Finset String)) {entry : String} :
    (∀ kept ∈ sources.foldl (narrow d) narrowed, entry ∈ kept) ↔
      (∀ kept ∈ narrowed, entry ∈ kept) ∧ entry ∈ scopeOf sources d := by
  induction sources generalizing narrowed with
  | nil => simp [scopeOf]
  | cons source sources ih =>
    have hstep : (∀ kept ∈ narrow d narrowed source, entry ∈ kept) ↔
        (∀ kept ∈ narrowed, entry ∈ kept) ∧ ∀ declared ∈ source.scope d, entry ∈ declared := by
      unfold narrow
      split <;> simp_all
    rw [List.foldl_cons, ih, hstep, and_assoc]
    simp [scopeOf]

theorem resolveScope_eq_ok {d : ScopeDimension} {entries : List String} :
    resolveScope sources d = .ok entries ↔
      Declares sources d ∧ {entry | entry ∈ entries} = scopeOf sources d ∧ entries ≠ [] ∧
        entries.SortedLT := by
  have hsome := @isSome_foldl_narrow sources d none
  have hmem := fun entry => @mem_foldl_narrow sources d none entry
  have hcases : resolveScope sources d = .ok entries ↔
      intersect sources d = some entries ∧ entries ≠ [] := by
    unfold resolveScope
    split
    · next entry rest h =>
      rw [h, pure_eq_ok, Option.some.injEq]
      exact ⟨fun heq => ⟨heq, heq ▸ List.cons_ne_nil _ _⟩, fun h => h.1⟩
    · next h =>
      refine iff_of_false (fun h => by simp at h) fun ⟨heq, hne⟩ => ?_
      obtain ⟨entry, rest, rfl⟩ := List.exists_cons_of_ne_nil hne
      exact h _ _ heq
  rw [hcases, intersect]
  cases hfold : sources.foldl (narrow d) none with
  | none =>
    rw [hfold] at hsome
    simp only [Option.isSome_none, Bool.false_eq_true, false_or, false_iff] at hsome
    exact iff_of_false (fun h => by simp at h) fun h => hsome h.1
  | some kept =>
    rw [hfold] at hsome
    simp only [Option.isSome_some, Option.isSome_none, Bool.false_eq_true, false_or, true_iff] at hsome
    have hkept : {entry | entry ∈ kept.sort (· ≤ ·)} = scopeOf sources d := by
      ext entry
      have hentry := hmem entry
      rw [hfold] at hentry
      simpa using hentry
    rw [Option.map_some, Option.some.injEq]
    constructor
    · rintro ⟨rfl, hne⟩
      exact ⟨hsome, hkept, hne, Finset.sortedLT_sort kept⟩
    · rintro ⟨-, hentries, hne, hsorted⟩
      refine ⟨?_, hne⟩
      have hperm : (kept.sort (· ≤ ·)).Perm entries := by
        rw [List.perm_ext_iff_of_nodup (Finset.sort_nodup _ _) hsorted.nodup]
        intro entry
        exact Set.ext_iff.1 (hkept.trans hentries.symm) entry
      exact hperm.eq_of_pairwise' (Finset.sortedLT_sort kept).pairwise hsorted.pairwise

theorem resolveBound_eq_ok {d : BoundDimension} {b : ℕ} :
    resolveBound sources d = .ok b ↔ IsLeast {b | ∃ source ∈ sources, b ∈ source.bound d} b := by
  have hmem : ∀ b, b ∈ sources.filterMap (·.bound d) ↔ ∃ source ∈ sources, b ∈ source.bound d := by
    simp
  unfold resolveBound
  cases hmin : (sources.filterMap (·.bound d)).min? with
  | none =>
    rw [List.min?_eq_none_iff] at hmin
    refine iff_of_false (fun h => by simp at h) fun h => ?_
    have hb := (hmem b).2 h.1
    rw [hmin] at hb
    cases hb
  | some least =>
    have hleast : IsLeast {b | ∃ source ∈ sources, b ∈ source.bound d} least := by
      obtain ⟨hin, hle⟩ := List.min?_eq_some_iff.1 hmin
      exact ⟨(hmem least).1 hin, fun b hb => hle b ((hmem b).2 hb)⟩
    constructor
    · intro h
      exact pure_eq_ok.1 h ▸ hleast
    · intro h
      exact pure_eq_ok.2 (hleast.unique h)

/-! ## The seven contributions -/

/-- The sources a resolution reads, in the order of the kinds. -/
def contributors (sha256 : List UInt8 → String) (sources : List AutonomySource) : List AutonomySource :=
  AUTONOMY_SOURCE_ORDER.map (contribution sha256 sources)

variable {source : AutonomySource} {kind : AutonomySourceKind}

theorem mem_order (kind : AutonomySourceKind) : kind ∈ AUTONOMY_SOURCE_ORDER := by
  cases kind <;> decide

theorem contribution_of_mem (hnodup : (sources.map (·.sourceKind)).Nodup) (h : source ∈ sources) :
    contribution sha256 sources source.sourceKind = source := by
  have hfound : (sources.find? fun other => other.sourceKind = source.sourceKind).isSome = true :=
    List.find?_isSome.2 ⟨source, h, decide_eq_true rfl⟩
  obtain ⟨other, hother⟩ := Option.isSome_iff_exists.1 hfound
  have hkind : other.sourceKind = source.sourceKind := by simpa using List.find?_some hother
  rw [contribution, hother, Option.getD_some]
  exact List.inj_on_of_nodup_map hnodup (List.mem_of_find?_eq_some hother) h hkind

theorem contribution_of_absent (h : ¬Supplies sources kind) :
    contribution sha256 sources kind = defaultAutonomySource sha256 kind := by
  have hnone : (sources.find? fun other => other.sourceKind = kind) = none := by
    rw [List.find?_eq_none]
    intro other hother heq
    exact h ⟨other, hother, of_decide_eq_true heq⟩
  rw [contribution, hnone, Option.getD_none]

/-- The contributions are the sources, and the defaults of the kinds they lack. -/
theorem mem_contributors (hnodup : (sources.map (·.sourceKind)).Nodup) :
    source ∈ contributors sha256 sources ↔
      source ∈ sources ∨ ∃ kind, ¬Supplies sources kind ∧ source = defaultAutonomySource sha256 kind := by
  rw [contributors, List.mem_map]
  constructor
  · rintro ⟨kind, -, rfl⟩
    by_cases hsupplied : Supplies sources kind
    · obtain ⟨source, hsource, rfl⟩ := hsupplied
      rw [contribution_of_mem hnodup hsource]
      exact .inl hsource
    · exact .inr ⟨kind, hsupplied, contribution_of_absent hsupplied⟩
  · rintro (hsource | ⟨kind, habsent, rfl⟩)
    · exact ⟨source.sourceKind, mem_order _, contribution_of_mem hnodup hsource⟩
    · exact ⟨kind, mem_order kind, contribution_of_absent habsent⟩

theorem scopeOf_contributors (hnodup : (sources.map (·.sourceKind)).Nodup) (d : ScopeDimension) :
    scopeOf (contributors sha256 sources) d = scopeOf sources d := by
  ext entry
  simp only [scopeOf, Set.mem_ofPred_eq, mem_contributors hnodup]
  constructor
  · intro h source hsource
    exact h source (.inl hsource)
  · rintro h source (hsource | ⟨kind, -, rfl⟩)
    · exact h source hsource
    · intro declared hdeclared
      cases hdeclared

theorem declares_contributors (hnodup : (sources.map (·.sourceKind)).Nodup) (d : ScopeDimension) :
    Declares (contributors sha256 sources) d ↔ Declares sources d := by
  simp only [Declares, mem_contributors hnodup]
  constructor
  · rintro ⟨source, hsource | ⟨kind, -, rfl⟩, hdeclared⟩
    · exact ⟨source, hsource, hdeclared⟩
    · cases hdeclared
  · rintro ⟨source, hsource, hdeclared⟩
    exact ⟨source, .inl hsource, hdeclared⟩

theorem bounds_contributors (hnodup : (sources.map (·.sourceKind)).Nodup) (d : BoundDimension) :
    {b | ∃ source ∈ contributors sha256 sources, b ∈ source.bound d} = boundsOf sources d := by
  ext b
  simp only [boundsOf, Set.mem_ofPred_eq, mem_contributors hnodup]
  constructor
  · rintro ⟨source, hsource | ⟨kind, habsent, rfl⟩, hb⟩
    · exact .inl ⟨source, hsource, hb⟩
    · exact .inr ⟨⟨kind, habsent⟩, (Option.some.inj hb).symm⟩
  · rintro (⟨source, hsource, hb⟩ | ⟨⟨kind, habsent⟩, rfl⟩)
    · exact ⟨source, .inl hsource, hb⟩
    · exact ⟨_, .inr ⟨kind, habsent, rfl⟩, rfl⟩

theorem approvals_contributors (hnodup : (sources.map (·.sourceKind)).Nodup) :
    approvalsOf (contributors sha256 sources) = approvalsOf sources := by
  ext e
  simp only [approvalsOf, Set.mem_ofPred_eq, mem_contributors hnodup]
  constructor
  · rintro ⟨source, hsource | ⟨kind, -, rfl⟩, he⟩
    · exact ⟨source, hsource, he⟩
    · cases he
  · rintro ⟨source, hsource, he⟩
    exact ⟨source, .inl hsource, he⟩

/-! ## A resolution -/

def approvalUnion (sources : List AutonomySource) : List EffectClass :=
  sortBy EffectClass.name (sources.flatMap (·.approvalRequired)).dedup

theorem mem_approvalUnion : {e | e ∈ approvalUnion sources} = approvalsOf sources := by
  ext e
  simp [approvalUnion, approvalsOf, mem_sortBy]

theorem EffectClass.name_injective : Function.Injective EffectClass.name := by
  intro a b
  cases a <;> cases b <;> decide

theorem approvalUnion_congr {sources' : List AutonomySource}
    (h : approvalsOf sources = approvalsOf sources') : approvalUnion sources = approvalUnion sources' := by
  refine (sortBy_eq_iff_perm fun a _ b _ heq => EffectClass.name_injective heq).2 ?_
  rw [List.perm_ext_iff_of_nodup (List.nodup_dedup _) (List.nodup_dedup _)]
  intro e
  simpa [approvalsOf] using Set.ext_iff.1 h e

/-- What a resolution of some contributions reads them for. -/
structure ResolvesTo (sha256 : List UInt8 → String) (contributors : List AutonomySource)
    (requested : Option RequestedSpend) (result : EffectiveAutonomy) : Prop where
  scope : ∀ d, resolveScope contributors d = .ok (result.scope d)
  bound : ∀ d, resolveBound contributors d = .ok (result.bound d)
  within : ∀ r ∈ requested, ∀ d, ∀ want ∈ r.spend d, want ≤ result.bound d
  approvalRequired : result.approvalRequired = approvalUnion contributors
  sourceContributions : result.sourceContributions = contributors.map (·.provenance)
  resolutionDigest : canonicalHash sha256 (resolutionDocument result.approvalRequired result.bound
    result.scope result.sourceContributions) = .ok result.resolutionDigest

theorem byScope_eta (scope : ScopeDimension → List String) :
    byScope (scope .action_scope) (scope .resource_scope) (scope .model_scope)
      (scope .knowledge_scope) = scope := by
  funext d
  cases d <;> rfl

theorem byBound_eta (bound : BoundDimension → ℕ) :
    byBound (bound .maximum_wall_clock_ms) (bound .maximum_tokens) (bound .maximum_cost_units)
      (bound .maximum_steps) = bound := by
  funext d
  cases d <;> rfl

theorem resolveAutonomy_eq_ok : resolveAutonomy sha256 sources granted requested = .ok result ↔
    (sources.map (·.sourceKind)).Nodup ∧ granted = true ∧
      ResolvesTo sha256 (contributors sha256 sources) requested result := by
  unfold resolveAutonomy
  simp only [bind_eq_ok, require_eq_ok, exists_unit, pure_eq_ok, forM_eq_ok, requireWithin,
    Option.mem_toList]
  constructor
  · rintro ⟨hnodup, hgranted, _, haction, _, hresource, _, hmodel, _, hknowledge, _, hwall, _, htokens,
      _, hcost, _, hsteps, hwithin, _, hdigest, rfl⟩
    refine ⟨hnodup, hgranted, fun d => ?_, fun d => ?_, fun r hr d => ?_, rfl, rfl, hdigest⟩
    · cases d <;> assumption
    · cases d <;> assumption
    · obtain ⟨hwall, htokens, hcost, hsteps⟩ := hwithin r hr
      cases d <;> assumption
  · rintro ⟨hnodup, hgranted, hscope, hbound, hwithin, happroval, hcontributions, hdigest⟩
    obtain ⟨scope, approval, bound, contributions, digest⟩ := result
    dsimp only at hscope hbound hwithin happroval hcontributions hdigest
    subst happroval hcontributions
    refine ⟨hnodup, hgranted, _, hscope _, _, hscope _, _, hscope _, _, hscope _, _, hbound _, _,
      hbound _, _, hbound _, _, hbound _, fun r hr => ⟨hwithin r hr _, hwithin r hr _, hwithin r hr _,
        hwithin r hr _⟩, digest, ?_, ?_⟩
    · rw [byScope_eta, byBound_eta]
      exact hdigest
    · rw [byScope_eta, byBound_eta]
      rfl

/-- What the sources say of the result of a resolution. -/
structure Resolution (sources : List AutonomySource) (result : EffectiveAutonomy) : Prop where
  declared : ∀ d, Declares sources d
  scope : ∀ d, {entry | entry ∈ result.scope d} = scopeOf sources d
  sorted : ∀ d, (result.scope d).SortedLT
  nonempty : ∀ d, result.scope d ≠ []
  bound : ∀ d, IsLeast (boundsOf sources d) (result.bound d)
  approvalRequired : {e | e ∈ result.approvalRequired} = approvalsOf sources

theorem resolution_of_ok (h : resolveAutonomy sha256 sources granted requested = .ok result) :
    Resolution sources result := by
  obtain ⟨hnodup, -, hresolves⟩ := resolveAutonomy_eq_ok.1 h
  have hscope := fun d => resolveScope_eq_ok.1 (hresolves.scope d)
  refine ⟨fun d => (declares_contributors hnodup d).1 (hscope d).1, fun d => ?_,
    fun d => (hscope d).2.2.2, fun d => (hscope d).2.2.1, fun d => ?_, ?_⟩
  · rw [(hscope d).2.1, scopeOf_contributors hnodup]
  · rw [← bounds_contributors hnodup]
    exact resolveBound_eq_ok.1 (hresolves.bound d)
  · rw [hresolves.approvalRequired, mem_approvalUnion, approvals_contributors hnodup]

theorem narrows_scope {sources' : List AutonomySource} {result' : EffectiveAutonomy}
    (h : Resolution sources result) (h' : Resolution sources' result') (d : ScopeDimension)
    (hsubset : scopeOf sources' d ⊆ scopeOf sources d) : result'.scope d ⊆ result.scope d := by
  rw [← h.scope d, ← h'.scope d] at hsubset
  exact fun entry hentry => hsubset hentry

theorem narrows_approval {sources' : List AutonomySource} {result' : EffectiveAutonomy}
    (h : Resolution sources result) (h' : Resolution sources' result')
    (hsubset : approvalsOf sources ⊆ approvalsOf sources') :
    result.approvalRequired ⊆ result'.approvalRequired := by
  rw [← h.approvalRequired, ← h'.approvalRequired] at hsubset
  exact fun e he => hsubset he

/-! ## Orders -/

/-- The same sources, each with its collections in any order, in any order. -/
def SameSources (sources sources' : List AutonomySource) : Prop :=
  ∃ reordered, List.Forall₂ SameUpToOrder sources reordered ∧ reordered.Perm sources'

variable {sources' : List AutonomySource}

theorem SameUpToOrder.refl (source : AutonomySource) : SameUpToOrder source source where
  sourceKind := rfl
  provenance := rfl
  scope := fun d => by
    cases source.scope d with
    | none => exact .none
    | some declared => exact .some (List.Perm.refl _)
  approvalRequired := List.Perm.refl _
  bound := rfl

theorem narrow_congr {s t : AutonomySource} (h : SameUpToOrder s t) (d : ScopeDimension) :
    (narrow d · s) = (narrow d · t) := by
  funext narrowed
  have hscope := h.scope d
  unfold narrow
  generalize s.scope d = declared at hscope
  generalize t.scope d = declared' at hscope
  cases hscope with
  | none => rfl
  | some hperm =>
    cases narrowed with
    | none => exact congrArg some (List.toFinset_eq_of_perm _ _ hperm)
    | some kept => exact congrArg (fun s => some (kept ∩ s)) (List.toFinset_eq_of_perm _ _ hperm)

theorem intersect_congr (h : List.Forall₂ SameUpToOrder sources sources') (d : ScopeDimension) :
    intersect sources d = intersect sources' d := by
  have hfold : ∀ narrowed,
      sources.foldl (narrow d) narrowed = sources'.foldl (narrow d) narrowed := by
    induction h with
    | nil => exact fun _ => rfl
    | cons hsame _ ih =>
      intro narrowed
      rw [List.foldl_cons, List.foldl_cons, congrFun (narrow_congr hsame d) narrowed, ih]
  rw [intersect, intersect, hfold]

theorem map_congr_of_forall₂ {α : Type} {f : AutonomySource → α}
    (hf : ∀ s t, SameUpToOrder s t → f s = f t) (h : List.Forall₂ SameUpToOrder sources sources') :
    sources.map f = sources'.map f := by
  induction h with
  | nil => rfl
  | cons hsame _ ih => rw [List.map_cons, List.map_cons, hf _ _ hsame, ih]

theorem resolveBound_congr (h : List.Forall₂ SameUpToOrder sources sources') (d : BoundDimension) :
    resolveBound sources d = resolveBound sources' d := by
  have hbounds : sources.filterMap (·.bound d) = sources'.filterMap (·.bound d) := by
    induction h with
    | nil => rfl
    | cons hsame _ ih => rw [List.filterMap_cons, List.filterMap_cons, hsame.bound, ih]
  rw [resolveBound, resolveBound, hbounds]

theorem approvalsOf_congr (h : List.Forall₂ SameUpToOrder sources sources') :
    approvalsOf sources = approvalsOf sources' := by
  ext e
  constructor
  · rintro ⟨source, hsource, he⟩
    obtain ⟨other, hother, hsame⟩ := exists_of_forall₂_left h hsource
    exact ⟨other, hother, hsame.approvalRequired.mem_iff.1 he⟩
  · rintro ⟨source, hsource, he⟩
    obtain ⟨other, hother, hsame⟩ := exists_of_forall₂_right h hsource
    exact ⟨other, hother, hsame.approvalRequired.mem_iff.2 he⟩

/-- A resolution reads its sources up to the order of their collections. -/
theorem resolveAutonomy_congr
    (hkinds : (sources.map (·.sourceKind)).Perm (sources'.map (·.sourceKind)))
    (h : List.Forall₂ SameUpToOrder (contributors sha256 sources) (contributors sha256 sources')) :
    resolveAutonomy sha256 sources granted requested =
      resolveAutonomy sha256 sources' granted requested := by
  have hscope : ∀ d, resolveScope (contributors sha256 sources) d =
      resolveScope (contributors sha256 sources') d := by
    intro d
    rw [resolveScope, resolveScope, intersect_congr h]
  have happroval := approvalUnion_congr (approvalsOf_congr h)
  have hprovenance := map_congr_of_forall₂ (fun s t hsame => hsame.provenance) h
  have hnodup := hkinds.nodup_iff
  unfold contributors at hscope happroval hprovenance h
  unfold approvalUnion at happroval
  unfold resolveAutonomy
  simp only [hnodup, hscope, resolveBound_congr h, happroval, hprovenance]

theorem contribution_congr (hnodup : (sources.map (·.sourceKind)).Nodup)
    (hnodup' : (sources'.map (·.sourceKind)).Nodup) (h : SameSources sources sources')
    (kind : AutonomySourceKind) :
    SameUpToOrder (contribution sha256 sources kind) (contribution sha256 sources' kind) := by
  obtain ⟨reordered, hsame, hperm⟩ := h
  by_cases hsupplied : Supplies sources kind
  · obtain ⟨source, hsource, rfl⟩ := hsupplied
    obtain ⟨other, hother, hsame⟩ := exists_of_forall₂_left hsame hsource
    have hsource' : contribution sha256 sources' other.sourceKind = other :=
      contribution_of_mem hnodup' (hperm.mem_iff.1 hother)
    rw [contribution_of_mem hnodup hsource, hsame.sourceKind, hsource']
    exact hsame
  · have habsent : ¬Supplies sources' kind := by
      rintro ⟨source, hsource, rfl⟩
      obtain ⟨other, hother, hsame⟩ := exists_of_forall₂_right hsame (hperm.mem_iff.2 hsource)
      exact hsupplied ⟨other, hother, hsame.sourceKind⟩
    rw [contribution_of_absent hsupplied, contribution_of_absent habsent]
    exact .refl _

theorem resolveAutonomy_of_sameSources (h : SameSources sources sources') :
    resolveAutonomy sha256 sources granted requested =
      resolveAutonomy sha256 sources' granted requested := by
  have hkinds : (sources.map (·.sourceKind)).Perm (sources'.map (·.sourceKind)) := by
    obtain ⟨reordered, hsame, hperm⟩ := h
    rw [map_congr_of_forall₂ (fun s t hsame => hsame.sourceKind) hsame]
    exact hperm.map _
  by_cases hnodup : (sources.map (·.sourceKind)).Nodup
  · refine resolveAutonomy_congr hkinds ?_
    rw [contributors, contributors, List.forall₂_map_left_iff, List.forall₂_map_right_iff,
      List.forall₂_same]
    exact fun kind _ => contribution_congr hnodup (hkinds.nodup_iff.1 hnodup) h kind
  · have hnodup' := mt hkinds.nodup_iff.2 hnodup
    unfold resolveAutonomy
    rw [require_neg hnodup, require_neg hnodup']
    rfl

/-! ## Narrower sources -/

theorem scopeOf_subset (h : ∀ t ∈ sources', ∃ s ∈ sources, Narrower s t) (d : ScopeDimension) :
    scopeOf sources d ⊆ scopeOf sources' d := by
  intro entry hentry t ht wide hwide
  obtain ⟨s, hs, hnarrower⟩ := h t ht
  obtain ⟨kept, hkept, hsubset⟩ := hnarrower.scope d wide hwide
  exact hsubset (hentry s hs kept hkept)

theorem approvalsOf_subset (h : ∀ t ∈ sources', ∃ s ∈ sources, Narrower s t) :
    approvalsOf sources' ⊆ approvalsOf sources := by
  rintro e ⟨t, ht, he⟩
  obtain ⟨s, hs, hnarrower⟩ := h t ht
  exact ⟨s, hs, hnarrower.approvalRequired he⟩

theorem Narrower.refl (source : AutonomySource) : Narrower source source :=
  ⟨rfl, fun _ wide hwide => ⟨wide, hwide, List.Subset.refl _⟩, fun _ wide hwide => ⟨wide, hwide, le_rfl⟩,
    List.Subset.refl _⟩

theorem supplies_congr (h : List.Forall₂ Narrower sources sources') (kind : AutonomySourceKind) :
    Supplies sources kind ↔ Supplies sources' kind := by
  constructor
  · rintro ⟨s, hs, rfl⟩
    obtain ⟨t, ht, hnarrower⟩ := exists_of_forall₂_left h hs
    exact ⟨t, ht, hnarrower.sourceKind.symm⟩
  · rintro ⟨t, ht, rfl⟩
    obtain ⟨s, hs, hnarrower⟩ := exists_of_forall₂_right h ht
    exact ⟨s, hs, hnarrower.sourceKind⟩

/-- Each bound of the wider sources has a tighter one among the narrower. -/
theorem exists_le_boundsOf (h : List.Forall₂ Narrower sources sources') (d : BoundDimension) :
    ∀ wide ∈ boundsOf sources' d, ∃ tight ∈ boundsOf sources d, tight ≤ wide := by
  rintro wide (⟨t, ht, hwide⟩ | ⟨⟨kind, habsent⟩, rfl⟩)
  · obtain ⟨s, hs, hnarrower⟩ := exists_of_forall₂_right h ht
    obtain ⟨tight, htight, hle⟩ := hnarrower.bound d wide hwide
    exact ⟨tight, .inl ⟨s, hs, htight⟩, hle⟩
  · exact ⟨_, .inr ⟨⟨kind, fun hsupplied => habsent ((supplies_congr h kind).1 hsupplied)⟩, rfl⟩, le_rfl⟩

/-! ## One more source -/

/-- A bound of at most the default remains when a source of an absent kind is added. -/
def DefaultKept (sources : List AutonomySource) (added : AutonomySource) (d : BoundDimension) : Prop :=
  (∃ source ∈ added :: sources, ∃ b ∈ source.bound d, b ≤ d.defaultMaximum) ∨
    ∃ kind, ¬Supplies (added :: sources) kind

theorem bound_le_iff {added : AutonomySource} {d : BoundDimension} {before after : ℕ}
    (habsent : ¬Supplies sources added.sourceKind) (hbefore : IsLeast (boundsOf sources d) before)
    (hafter : IsLeast (boundsOf (added :: sources) d) after) :
    after ≤ before ↔ DefaultKept sources added d := by
  have hdefault : before ≤ d.defaultMaximum := hbefore.2 (.inr ⟨⟨_, habsent⟩, rfl⟩)
  constructor
  · intro hle
    rcases hafter.1 with ⟨source, hsource, hb⟩ | ⟨hkind, -⟩
    · exact .inl ⟨source, hsource, after, hb, hle.trans hdefault⟩
    · exact .inr hkind
  · intro hkept
    have hcapped : after ≤ d.defaultMaximum := by
      rcases hkept with ⟨source, hsource, b, hb, hle⟩ | hkind
      · exact (hafter.2 (.inl ⟨source, hsource, hb⟩)).trans hle
      · exact hafter.2 (.inr ⟨hkind, rfl⟩)
    rcases hbefore.1 with ⟨source, hsource, hb⟩ | ⟨-, heq⟩
    · exact hafter.2 (.inl ⟨source, List.mem_cons_of_mem _ hsource, hb⟩)
    · rw [heq]
      exact hcapped

/-! ## Refusals -/

theorem accepted_resolutionDocument {approval : List EffectClass} {bound : BoundDimension → ℕ}
    {scope : ScopeDimension → List String} {contributions : List (String × String × String)}
    (h : ∀ d, bound d < 2 ^ 53) :
    Accepted 0 (resolutionDocument approval bound scope contributions) := by
  have hnumber : ∀ d, Accepted 2 (.int (bound d)) := by
    intro d
    obtain ⟨x, hx, -⟩ := requireBinary64_natCast (h d)
    exact .int (by decide) hx
  have htexts : ∀ texts : List String, Accepted 2 (.sequence (texts.map textValue)) := fun texts =>
    Knowledge.accepted_sequence_map (by decide) fun text _ => accepted_textValue (by decide) text
  refine (accepted_mappingOf (by simp)).2 ⟨by decide, ?_⟩
  simp only [List.forall_mem_cons]
  refine ⟨?_, ?_, ?_, ?_, fun _ h => absurd h List.not_mem_nil⟩
  · exact Knowledge.accepted_sequence_map (by decide) fun e _ => accepted_textValue (by decide) e.name
  · refine .sequence (by decide) ?_
    simp only [List.forall_mem_cons]
    exact ⟨hnumber _, hnumber _, hnumber _, hnumber _, fun _ h => absurd h List.not_mem_nil⟩
  · refine .sequence (by decide) ?_
    simp only [List.forall_mem_cons]
    exact ⟨htexts _, htexts _, htexts _, htexts _, fun _ h => absurd h List.not_mem_nil⟩
  · refine Knowledge.accepted_sequence_map (by decide) fun entry _ => ?_
    refine .sequence (by decide) ?_
    simp only [List.forall_mem_cons]
    exact ⟨accepted_textValue (by decide) _, accepted_textValue (by decide) _,
      accepted_textValue (by decide) _, fun _ h => absurd h List.not_mem_nil⟩

theorem canonicalHash_raises {p : ExecutionError → Prop} {value : Value} (h : Accepted 0 value) :
    OnlyRaises p (canonicalHash sha256 value) := by
  obtain ⟨hash, hhash⟩ := exists_canonicalHash.2 h
  exact onlyRaises_of_ok hhash

def IsRefusal (error : ExecutionError) : Prop := ∃ message, error = refused message

theorem resolveScope_raises (d : ScopeDimension) : OnlyRaises IsRefusal (resolveScope sources d) := by
  unfold resolveScope
  split
  · exact onlyRaises_pure
  · exact onlyRaises_throw ⟨_, rfl⟩

theorem resolveBound_raises (d : BoundDimension) : OnlyRaises IsRefusal (resolveBound sources d) := by
  unfold resolveBound
  split
  · exact onlyRaises_pure
  · exact onlyRaises_throw ⟨_, rfl⟩

theorem requireWithin_raises (r : RequestedSpend) (bound : BoundDimension → ℕ) (d : BoundDimension) :
    OnlyRaises IsRefusal (requireWithin r bound d) :=
  onlyRaises_require fun _ => ⟨_, rfl⟩

/-- Distinct kinds are refused, when the bounds are numbers that are written exactly. -/
theorem resolveAutonomy_raises (hnodup : (sources.map (·.sourceKind)).Nodup)
    (hsmall : ∀ d b, IsLeast (boundsOf sources d) b → b < 2 ^ 53) :
    OnlyRaises IsRefusal (resolveAutonomy sha256 sources granted requested) := by
  refine (onlyRaises_require fun h => absurd hnodup h).bind fun _ _ => ?_
  refine (onlyRaises_require fun _ => ⟨_, rfl⟩).bind fun _ _ => ?_
  refine (resolveScope_raises _).bind fun _ _ => (resolveScope_raises _).bind fun _ _ =>
    (resolveScope_raises _).bind fun _ _ => (resolveScope_raises _).bind fun _ _ => ?_
  refine (resolveBound_raises _).bind fun wallClock hwall => (resolveBound_raises _).bind fun tokens
    htokens => (resolveBound_raises _).bind fun costUnits hcost => (resolveBound_raises _).bind fun
    steps hsteps => ?_
  have hwithin := requireWithin_raises
  refine (onlyRaises_forM fun r _ => (hwithin r _ _).bind fun _ _ => (hwithin r _ _).bind fun _ _ =>
    (hwithin r _ _).bind fun _ _ => hwithin r _ _).bind fun _ _ => ?_
  have hlt : ∀ d b, resolveBound (contributors sha256 sources) d = .ok b → b < 2 ^ 53 := by
    intro d b h
    rw [resolveBound_eq_ok, bounds_contributors hnodup] at h
    exact hsmall d b h
  refine (canonicalHash_raises (accepted_resolutionDocument fun d => ?_)).bind fun _ _ => onlyRaises_pure
  cases d
  · exact hlt _ _ hwall
  · exact hlt _ _ htokens
  · exact hlt _ _ hcost
  · exact hlt _ _ hsteps

/-! ## What a resolution can and cannot widen -/

/-- A resolution refuses, or intersects the scopes, minimises the bounds and unites the approvals; it does
not depend on any order; sources that are narrower resolve narrower; and one more source narrows the scopes
and the approvals, and a bound exactly when a bound of at most the default remains. -/
theorem autonomy_narrows (sha256 : List UInt8 → String) (sources : List AutonomySource)
    (hnodup : (sources.map (·.sourceKind)).Nodup) (requested : Option RequestedSpend) :
    (∀ result, resolveAutonomy sha256 sources true requested = .ok result →
      Resolution sources result) ∧
    (∀ error, resolveAutonomy sha256 sources true requested = .error error →
      IsRefusal error ∨ ∃ d b, IsLeast (boundsOf sources d) b ∧ 2 ^ 53 ≤ b) ∧
    (∀ sources', SameSources sources sources' →
      resolveAutonomy sha256 sources' true requested = resolveAutonomy sha256 sources true requested) ∧
    (∀ narrower requested' result result', List.Forall₂ Narrower narrower sources →
      resolveAutonomy sha256 sources true requested = .ok result →
      resolveAutonomy sha256 narrower true requested' = .ok result' →
      (∀ d, result'.scope d ⊆ result.scope d) ∧ (∀ d, result'.bound d ≤ result.bound d) ∧
        result.approvalRequired ⊆ result'.approvalRequired) ∧
    (∀ added requested' result result', ¬Supplies sources added.sourceKind →
      resolveAutonomy sha256 sources true requested = .ok result →
      resolveAutonomy sha256 (added :: sources) true requested' = .ok result' →
      (∀ d, result'.scope d ⊆ result.scope d) ∧
        (∀ d, result'.bound d ≤ result.bound d ↔ DefaultKept sources added d) ∧
        result.approvalRequired ⊆ result'.approvalRequired) := by
  refine ⟨fun result h => resolution_of_ok h, fun error h => ?_, fun sources' h => ?_,
    fun narrower requested' result result' hnarrower h h' => ?_,
    fun added requested' result result' habsent h h' => ?_⟩
  · by_cases hlarge : ∃ d b, IsLeast (boundsOf sources d) b ∧ 2 ^ 53 ≤ b
    · exact .inr hlarge
    · refine .inl (resolveAutonomy_raises hnodup (fun d b hb => ?_) error h)
      exact not_le.1 fun hle => hlarge ⟨d, b, hb, hle⟩
  · exact (resolveAutonomy_of_sameSources h).symm
  · have hwide := resolution_of_ok h
    have htight := resolution_of_ok h'
    have hsome : ∀ t ∈ sources, ∃ s ∈ narrower, Narrower s t := fun t ht =>
      exists_of_forall₂_right hnarrower ht
    refine ⟨fun d => ?_, fun d => ?_, ?_⟩
    · exact narrows_scope hwide htight d (scopeOf_subset hsome d)
    · obtain ⟨tight, hmem, hle⟩ := exists_le_boundsOf hnarrower d _ (hwide.bound d).1
      exact ((htight.bound d).2 hmem).trans hle
    · exact narrows_approval hwide htight (approvalsOf_subset hsome)
  · have hwide := resolution_of_ok h
    have htight := resolution_of_ok h'
    have hsome : ∀ t ∈ sources, ∃ s ∈ added :: sources, Narrower s t := fun t ht =>
      ⟨t, List.mem_cons_of_mem _ ht, .refl t⟩
    refine ⟨fun d => ?_, fun d => ?_, ?_⟩
    · exact narrows_scope hwide htight d (scopeOf_subset hsome d)
    · exact bound_le_iff habsent (hwide.bound d) (htight.bound d)
    · exact narrows_approval hwide htight (approvalsOf_subset hsome)

/-! ## Six sources and a seventh -/

/-- A source that declares every scope, and a bound of tokens. -/
def boundedSource (kind : AutonomySourceKind) (tokens : Option ℕ) : AutonomySource where
  sourceKind := kind
  sourceRef := "source"
  snapshotRef := "snapshot"
  snapshotDigest := "sha256:16a0eeb0791b6c92451fd284dd9f599e0a7dbe7f6ebea6e2d2d06c7f74aec112"
  scope := fun _ => some ["read"]
  approvalRequired := []
  bound
    | .maximum_tokens => tokens
    | .maximum_wall_clock_ms => some 60000
    | .maximum_cost_units => some 10
    | .maximum_steps => some 5
  refs_valid := by decide
  scope_valid := by
    rintro _ _ ⟨⟩
    decide
  approvalRequired_nodup := List.nodup_nil

def sixSources : List AutonomySource :=
  [.COMPONENT_IMPLEMENTATION, .WORKFLOW_SETTINGS, .POLICY, .RESOURCE_SCOPE, .MODEL_SCOPE,
    .KNOWLEDGE_SCOPE].map fun kind => boundedSource kind (some 200000)

/-- The bound of tokens six or seven sources resolve to. -/
theorem tokens_of_six : (resolveAutonomy (fun _ => "") sixSources true none).map
    (·.bound .maximum_tokens) = .ok 100000 := by
  decide +kernel

theorem tokens_of_seven : (resolveAutonomy (fun _ => "")
    (boundedSource .APPROVAL_LIMITS none :: sixSources) true none).map
    (·.bound .maximum_tokens) = .ok 200000 := by
  decide +kernel

/-- The seventh kind declares no bound of tokens, and takes the default of 100000 away. -/
theorem seventh_source_doubles_tokens :
    ∃ result result', resolveAutonomy (fun _ => "") sixSources true none = .ok result ∧
      resolveAutonomy (fun _ => "") (boundedSource .APPROVAL_LIMITS none :: sixSources) true none =
        .ok result' ∧
      ¬Supplies sixSources .APPROVAL_LIMITS ∧
      result.bound .maximum_tokens = 100000 ∧ result'.bound .maximum_tokens = 200000 := by
  obtain ⟨result, hresult, hbound⟩ := except_map_eq_ok.1 tokens_of_six
  obtain ⟨result', hresult', hbound'⟩ := except_map_eq_ok.1 tokens_of_seven
  refine ⟨result, result', hresult, hresult', ?_, hbound, hbound'⟩
  simp [Supplies, sixSources, boundedSource]

theorem autonomy_narrows_six :
    (∀ source ∈ sixSources, isDigest source.snapshotDigest = true) ∧
    ∃ result, resolveAutonomy (fun _ => "") sixSources true none = .ok result ∧
      Resolution sixSources result ∧
      resolveAutonomy (fun _ => "") sixSources.reverse true none = .ok result ∧
      ∀ requested' result', resolveAutonomy (fun _ => "") (boundedSource .APPROVAL_LIMITS none :: sixSources)
          true requested' = .ok result' →
        ∀ d, result'.bound d ≤ result.bound d ↔
          DefaultKept sixSources (boundedSource .APPROVAL_LIMITS none) d := by
  obtain ⟨result, hresult, -⟩ := except_map_eq_ok.1 tokens_of_six
  obtain ⟨hresolution, -, horder, -, hadded⟩ := autonomy_narrows (fun _ => "") sixSources (by decide) none
  have hreverse : SameSources sixSources sixSources.reverse :=
    ⟨sixSources, List.forall₂_same.2 fun source _ => .refl source, (List.reverse_perm _).symm⟩
  refine ⟨by decide, result, hresult, hresolution result hresult, (horder _ hreverse).trans hresult,
    fun requested' result' hresult' => (hadded _ requested' result result' ?_ hresult hresult').2.1⟩
  simp [Supplies, sixSources, boundedSource]

end OmniviaCore.Execution.Autonomy
