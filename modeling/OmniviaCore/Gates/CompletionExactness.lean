import OmniviaCore.Gates.Completion

/-!
# What the completion gate decides

A snapshot is read exactly from the object that holds its values (`readAccepted_eq_some` and its siblings),
so the shapes are the existence of snapshots. Over snapshots the loop succeeds when every item proves its
criterion (`foldlM_weigh`). What is left is the constructor of the decision: it asks for bounds that the rule
does not check, and raises outside of them (`gate_exact`).
-/

namespace OmniviaCore.Gates.Completion

open Lib CanonicalJson Jobs

/-! ## Snapshots are read exactly -/

/-- The exception as an object that holds exact values. -/
def rawSelf : Option (String × String) → Option (Typed SelfEvidenceException)
  | none => none
  | some (criterion, attributedTo) => some (.exact ⟨.ofString criterion, .ofString attributedTo⟩)

/-- An accepted completion that holds exact values. -/
def Accepted.raw (a : Accepted) : AcceptedCompletion where
  runId := .ofString a.runId
  candidateId := .ofString a.candidateId
  bindingId := .ofString a.bindingId
  definitionDigest := .ofString a.definitionDigest
  aggregateId := .ofString a.aggregateId
  packageId := .ofString a.packageId
  applicationId := .ofString a.applicationId
  implementerId := .ofString a.implementerId
  criteria := .exact (a.criteria.map .ofString)
  selfEvidence := rawSelf a.selfEvidence

/-- The shapes of an accepted completion. -/
structure Accepted.WellFormed (a : Accepted) : Prop where
  runId : isIdentifier a.runId = true
  candidateId : isIdentifier a.candidateId = true
  bindingId : isIdentifier a.bindingId = true
  definitionDigest : isContentChecksum a.definitionDigest = true
  aggregateId : isIdentifier a.aggregateId = true
  packageId : isIdentifier a.packageId = true
  applicationId : isIdentifier a.applicationId = true
  implementerId : isIdentifier a.implementerId = true
  criteria : ∀ name ∈ a.criteria, isIdentifier name = true
  selfEvidence : ∀ e ∈ a.selfEvidence, isIdentifier e.1 = true ∧ isIdentifier e.2 = true

/-- An item whose criterion and outcome are texts. -/
def Item.raw (item : Item) : EvidenceItem where
  criterion := .ofString item.criterion
  outcome := .str item.outcome
  evidenceId := item.evidenceId
  contentDigest := item.contentDigest
  collectedBy := item.collectedBy
  reviewedBy := item.reviewedBy

/-- The object a text that may be left out is. -/
def rawStated (text : Option String) : Obj := text.elim .none .ofString

/-- A readout that holds exact values. -/
def Observed.raw (o : Observed) : EvidenceReadout where
  workspaceId := .ofString o.workspaceId
  runId := .ofString o.runId
  candidateId := rawStated o.candidateId
  bindingId := rawStated o.bindingId
  definitionDigest := rawStated o.definitionDigest
  aggregateId := rawStated o.aggregateId
  packageId := rawStated o.packageId
  applicationId := rawStated o.applicationId
  fencingGeneration := .int o.fencingGeneration
  complete := .bool o.complete
  items := .exact (o.items.map fun item => .exact item.raw)

/-- The shapes of a readout. -/
structure Observed.WellFormed (o : Observed) : Prop where
  workspaceId : isIdentifier o.workspaceId = true
  runId : isIdentifier o.runId = true
  candidateId : ∀ t ∈ o.candidateId, isIdentifier t = true
  bindingId : ∀ t ∈ o.bindingId, isIdentifier t = true
  definitionDigest : ∀ t ∈ o.definitionDigest, isContentChecksum t = true
  aggregateId : ∀ t ∈ o.aggregateId, isIdentifier t = true
  packageId : ∀ t ∈ o.packageId, isIdentifier t = true
  applicationId : ∀ t ∈ o.applicationId, isIdentifier t = true
  items : ∀ item ∈ o.items, isIdentifier item.criterion = true

/-- Settlement values of their exact types. -/
def Settled.raw (s : Settled) : Settlement where
  workspaceId := .ofString s.workspaceId
  jobId := .ofString s.jobId
  runStepId := .ofString s.runStepId
  runtimeAttemptId := .ofString s.runtimeAttemptId
  applicationAttemptNumber := .int s.applicationAttemptNumber
  fencingGeneration := .int s.fencingGeneration
  settledSequence := .int s.settledSequence

structure Settled.WellFormed (s : Settled) : Prop where
  workspaceId : isIdentifier s.workspaceId = true
  jobId : isIdentifier s.jobId = true
  runStepId : isIdentifier s.runStepId = true
  runtimeAttemptId : isIdentifier s.runtimeAttemptId = true

theorem snapshotSelf_eq_some {raw : Option (Typed SelfEvidenceException)}
    {self : Option (String × String)} :
    snapshotSelf raw = some self ↔
      raw = rawSelf self ∧ ∀ e ∈ self, isIdentifier e.1 = true ∧ isIdentifier e.2 = true := by
  cases raw with
  | none => cases self <;> simp [snapshotSelf, rawSelf]
  | some raw =>
    cases raw with
    | other => cases self <;> simp [snapshotSelf, rawSelf]
    | exact e =>
      obtain ⟨criterion, attributedTo⟩ := e
      simp only [snapshotSelf, Option.bind_eq_bind, Option.bind_eq_some_iff, Obj.text_eq_some,
        Option.some.injEq]
      constructor
      · rintro ⟨c, ⟨rfl, hc⟩, t, ⟨rfl, ht⟩, rfl⟩
        exact ⟨rfl, fun e he => by cases he; exact ⟨hc, ht⟩⟩
      · rintro ⟨hraw, hself⟩
        cases self with
        | none => cases hraw
        | some self =>
          obtain ⟨c, t⟩ := self
          cases hraw
          exact ⟨c, ⟨rfl, (hself _ rfl).1⟩, t, ⟨rfl, (hself _ rfl).2⟩, rfl⟩

/-- Reading every element of a list. -/
theorem optionMapM_eq_some {α β : Type} {f : α → Option β} {g : β → α} {p : β → Prop}
    (h : ∀ a b, f a = some b ↔ a = g b ∧ p b) {l : List α} {bs : List β} :
    l.mapM f = some bs ↔ l = bs.map g ∧ ∀ b ∈ bs, p b := by
  induction l generalizing bs with
  | nil =>
    rw [List.mapM_nil]
    constructor
    · rintro ⟨⟩
      exact ⟨rfl, fun _ h => absurd h List.not_mem_nil⟩
    · rintro ⟨hnil, -⟩
      rw [List.nil_eq, List.map_eq_nil_iff] at hnil
      rw [hnil]
      rfl
  | cons a l ih =>
    simp only [List.mapM_cons, Option.bind_eq_bind, Option.bind_eq_some_iff, h, ih, Option.pure_def,
      Option.some.injEq]
    constructor
    · rintro ⟨b, ⟨rfl, hb⟩, bs, ⟨rfl, hbs⟩, rfl⟩
      exact ⟨rfl, List.forall_mem_cons.2 ⟨hb, hbs⟩⟩
    · rintro ⟨hl, hbs⟩
      cases bs with
      | nil => cases hl
      | cons b bs =>
        obtain ⟨rfl, rfl⟩ := List.cons.inj hl
        rw [List.forall_mem_cons] at hbs
        exact ⟨b, ⟨rfl, hbs.1⟩, bs, ⟨rfl, hbs.2⟩, rfl⟩

theorem readAccepted_eq_some {raw : Typed AcceptedCompletion} {a : Accepted} :
    readAccepted raw = some a ↔ raw = .exact a.raw ∧ a.WellFormed := by
  cases raw with
  | other => simp [readAccepted]
  | exact raw =>
    have hcriteria : ∀ {criteria : Typed (List Obj)} {names : List String},
        snapshotCriteria criteria = some names ↔
          criteria = .exact (names.map .ofString) ∧ ∀ name ∈ names, isIdentifier name = true := by
      intro criteria names
      cases criteria with
      | other => simp [snapshotCriteria]
      | exact criteria =>
        have htext : ∀ (value : Obj) (text : String), Obj.text isIdentifier value = some text ↔
            value = .ofString text ∧ isIdentifier text = true := fun _ _ => Obj.text_eq_some
        rw [snapshotCriteria, optionMapM_eq_some htext, Typed.exact.injEq]
    obtain ⟨_, _, _, _, _, _, _, _, _, _⟩ := raw
    simp only [readAccepted, Option.bind_eq_bind, Option.bind_eq_some_iff, Obj.text_eq_some,
      snapshotSelf_eq_some, hcriteria, Option.some.injEq]
    constructor
    · rintro ⟨_, ⟨rfl, hself⟩, _, ⟨rfl, hrun⟩, _, ⟨rfl, hcandidate⟩, _, ⟨rfl, hbinding⟩, _,
        ⟨rfl, haggregate⟩, _, ⟨rfl, hpackage⟩, _, ⟨rfl, happlication⟩, _, ⟨rfl, himplementer⟩, _,
        ⟨rfl, hdigest⟩, _, ⟨rfl, hnames⟩, rfl⟩
      exact ⟨rfl, hrun, hcandidate, hbinding, hdigest, haggregate, hpackage, happlication, himplementer,
        hnames, hself⟩
    · rintro ⟨hraw, hwell⟩
      cases hraw
      exact ⟨_, ⟨rfl, hwell.selfEvidence⟩, _, ⟨rfl, hwell.runId⟩, _, ⟨rfl, hwell.candidateId⟩, _,
        ⟨rfl, hwell.bindingId⟩, _, ⟨rfl, hwell.aggregateId⟩, _, ⟨rfl, hwell.packageId⟩, _,
        ⟨rfl, hwell.applicationId⟩, _, ⟨rfl, hwell.implementerId⟩, _, ⟨rfl, hwell.definitionDigest⟩, _,
        ⟨rfl, hwell.criteria⟩, rfl⟩

theorem readItem_eq_some (raw : Typed EvidenceItem) (item : Item) :
    readItem raw = some item ↔ raw = .exact item.raw ∧ isIdentifier item.criterion = true := by
  cases raw with
  | other => simp [readItem]
  | exact raw =>
    obtain ⟨_, outcome, _, _, _, _⟩ := raw
    simp only [readItem, Option.bind_eq_bind, Option.bind_eq_some_iff, Obj.text_eq_some]
    cases outcome with
    | str outcome =>
      constructor
      · rintro ⟨_, ⟨rfl, hcriterion⟩, ⟨⟩⟩
        exact ⟨rfl, hcriterion⟩
      · rintro ⟨hraw, hcriterion⟩
        cases hraw
        exact ⟨_, ⟨rfl, hcriterion⟩, rfl⟩
    | int | bool | none | set | other => simp [Item.raw]

theorem readObserved_eq_some {raw : Typed EvidenceReadout} {o : Observed} :
    readObserved raw = some o ↔ raw = .exact o.raw ∧ o.WellFormed := by
  cases raw with
  | other => simp [readObserved]
  | exact raw =>
    have hitems : ∀ {raw : Typed (List (Typed EvidenceItem))} {items : List Item},
        readItems raw = some items ↔ raw = .exact (items.map fun item => .exact item.raw) ∧
          ∀ item ∈ items, isIdentifier item.criterion = true := by
      intro raw items
      cases raw with
      | other => simp [readItems]
      | exact raw => rw [readItems, optionMapM_eq_some readItem_eq_some, Typed.exact.injEq]
    obtain ⟨_, _, _, _, _, _, _, _, _, _, _⟩ := raw
    simp only [readObserved, Option.bind_eq_bind, Option.bind_eq_some_iff, Obj.text_eq_some,
      Obj.stated_eq_some, Obj.exactInt_eq_some, Obj.exactBool_eq_some, hitems, Option.some.injEq]
    constructor
    · rintro ⟨_, ⟨rfl, hworkspace⟩, _, ⟨rfl, hrun⟩, _, ⟨rfl, hcandidate⟩, _, ⟨rfl, hbinding⟩, _,
        ⟨rfl, haggregate⟩, _, ⟨rfl, hpackage⟩, _, ⟨rfl, happlication⟩, _, ⟨rfl, hdigest⟩, _, rfl, _, rfl,
        _, ⟨rfl, hnames⟩, rfl⟩
      exact ⟨rfl, hworkspace, hrun, hcandidate, hbinding, hdigest, haggregate, hpackage, happlication,
        hnames⟩
    · rintro ⟨hraw, hwell⟩
      cases hraw
      exact ⟨_, ⟨rfl, hwell.workspaceId⟩, _, ⟨rfl, hwell.runId⟩, _, ⟨rfl, hwell.candidateId⟩, _,
        ⟨rfl, hwell.bindingId⟩, _, ⟨rfl, hwell.aggregateId⟩, _, ⟨rfl, hwell.packageId⟩, _,
        ⟨rfl, hwell.applicationId⟩, _, ⟨rfl, hwell.definitionDigest⟩, _, rfl, _, rfl, _,
        ⟨rfl, hwell.items⟩, rfl⟩

theorem readSettled_eq_some {raw : Settlement} {s : Settled} :
    readSettled raw = some s ↔ raw = s.raw ∧ s.WellFormed := by
  obtain ⟨_, _, _, _, _, _, _⟩ := raw
  simp only [readSettled, Option.bind_eq_bind, Option.bind_eq_some_iff, Obj.text_eq_some,
    Obj.exactInt_eq_some, Option.some.injEq]
  constructor
  · rintro ⟨_, ⟨rfl, hworkspace⟩, _, ⟨rfl, hjob⟩, _, ⟨rfl, hstep⟩, _, ⟨rfl, hattempt⟩, _, rfl, _, rfl, _,
      rfl, rfl⟩
    exact ⟨rfl, hworkspace, hjob, hstep, hattempt⟩
  · rintro ⟨hraw, hwell⟩
    cases hraw
    exact ⟨_, ⟨rfl, hwell.workspaceId⟩, _, ⟨rfl, hwell.jobId⟩, _, ⟨rfl, hwell.runStepId⟩, _,
      ⟨rfl, hwell.runtimeAttemptId⟩, _, rfl, _, rfl, _, rfl, rfl⟩

/-! ## The rule over snapshots -/

/-- An item proves its criterion with a reference: proven, well formed, reviewed by someone who neither
collected it nor implemented, and collected by the implementer only for the excepted criterion. -/
structure Proves (a : Accepted) (item : Item) (reference : EvidenceReference) : Prop where
  proven : item.outcome = ofChars OUTCOME_PROVEN.toList
  read : readReference item = some reference
  reviewed : reference.collectedBy ≠ reference.reviewedBy
  reviewer : reference.reviewedBy ≠ a.implementerId
  excepted : reference.collectedBy = a.implementerId →
    ∃ attributedTo, a.selfEvidence = some (reference.criterion, attributedTo)

/-- What a run of the loop gathers. -/
structure Gathers (a : Accepted) (before after : Gathered) (references : List EvidenceReference) :
    Prop where
  appended : after.references = before.references ++ references
  attributed : after.attributed = if ∃ r ∈ references, r.collectedBy = a.implementerId
    then a.selfEvidence.map Prod.snd else before.attributed

variable {a : Accepted} {o : Observed} {s : Settled} {item : Item} {before after : Gathered}
  {reference : EvidenceReference}

theorem attribution_eq_ok {attributed result : Option String} :
    attribution a reference attributed = .ok result ↔
      (reference.collectedBy = a.implementerId →
        ∃ attributedTo, a.selfEvidence = some (reference.criterion, attributedTo)) ∧
      result = if reference.collectedBy = a.implementerId then a.selfEvidence.map Prod.snd
        else attributed := by
  unfold attribution
  by_cases hself : reference.collectedBy = a.implementerId
  · rw [if_pos hself, if_pos hself]
    cases hexception : a.selfEvidence with
    | none => simp [hself]
    | some e =>
      obtain ⟨criterion, attributedTo⟩ := e
      dsimp only
      by_cases hcriterion : criterion = reference.criterion
      · rw [if_pos hcriterion, pure_eq_ok]
        exact ⟨fun h => ⟨fun _ => ⟨attributedTo, by rw [hcriterion]⟩, h.symm⟩, fun h => h.2.symm⟩
      · rw [if_neg hcriterion]
        refine iff_of_false (by simp) fun h => ?_
        obtain ⟨_, heq⟩ := h.1 hself
        exact hcriterion (congrArg Prod.fst (Option.some.inj heq))
  · rw [if_neg hself, if_neg hself, pure_eq_ok]
    exact ⟨fun h => ⟨fun h => absurd h hself, h.symm⟩, fun h => h.2.symm⟩

theorem weigh_eq_ok : weigh a before item = .ok after ↔
    ∃ reference, Proves a item reference ∧ Gathers a before after [reference] := by
  have hproven : ofChars OUTCOME_PROVEN.toList ∈ OUTCOMES.map fun name => ofChars name.toList := by
    decide
  unfold weigh
  simp only [bind_eq_ok, require_eq_ok, exists_unit]
  constructor
  · rintro ⟨-, houtcome, h⟩
    cases hread : readReference item with
    | none => simp [hread] at h
    | some reference =>
      simp only [hread, bind_eq_ok, require_eq_ok, exists_unit, attribution_eq_ok, pure_eq_ok] at h
      obtain ⟨⟨hreviewed, hreviewer⟩, attributed, ⟨hexcepted, hattributed⟩, rfl⟩ := h
      exact ⟨reference, ⟨houtcome, hread, hreviewed, hreviewer, hexcepted⟩, rfl, by simpa using hattributed⟩
  · rintro ⟨reference, ⟨houtcome, hread, hreviewed, hreviewer, hexcepted⟩, hreferences, hattributed⟩
    refine ⟨houtcome ▸ hproven, houtcome, ?_⟩
    obtain ⟨attributed, references⟩ := after
    simp only [hread, bind_eq_ok, require_eq_ok, exists_unit, attribution_eq_ok, pure_eq_ok]
    refine ⟨⟨hreviewed, hreviewer⟩, _, ⟨hexcepted, rfl⟩, ?_⟩
    dsimp only at hreferences hattributed
    rw [hreferences, hattributed]
    simp

theorem gathers_nil : Gathers a before after [] ↔ before = after := by
  constructor
  · rintro ⟨hreferences, hattributed⟩
    obtain ⟨attributed, references⟩ := after
    simp only [List.append_nil] at hreferences
    simp only [List.not_mem_nil, false_and, exists_false, if_false] at hattributed
    rw [hreferences, hattributed]
  · rintro rfl
    exact ⟨(List.append_nil _).symm, by simp⟩

theorem gathers_cons {references : List EvidenceReference} :
    Gathers a before after (reference :: references) ↔
      ∃ middle, Gathers a before middle [reference] ∧ Gathers a middle after references := by
  have hmem : (∃ r ∈ reference :: references, r.collectedBy = a.implementerId) ↔
      reference.collectedBy = a.implementerId ∨ ∃ r ∈ references, r.collectedBy = a.implementerId := by
    simp
  have hone : (∃ r ∈ [reference], r.collectedBy = a.implementerId) ↔
      reference.collectedBy = a.implementerId := by
    simp
  constructor
  · rintro ⟨hreferences, hattributed⟩
    refine ⟨⟨if reference.collectedBy = a.implementerId then a.selfEvidence.map Prod.snd
      else before.attributed, before.references ++ [reference]⟩, ⟨rfl, by simp⟩, ?_, ?_⟩
    · rw [hreferences, List.append_assoc]
      rfl
    · rw [hattributed]
      by_cases hself : reference.collectedBy = a.implementerId
      · simp [hself]
      · simp [hself]
  · rintro ⟨middle, ⟨hfirst, hfirst'⟩, hrest, hrest'⟩
    refine ⟨by rw [hrest, hfirst, List.append_assoc]; rfl, ?_⟩
    rw [hrest', hfirst']
    by_cases hself : reference.collectedBy = a.implementerId
    · simp [hself]
    · simp [hself]

/-- The loop succeeds when every item proves its criterion. -/
theorem foldlM_weigh {items : List Item} :
    items.foldlM (weigh a) before = .ok after ↔
      ∃ references, List.Forall₂ (Proves a) items references ∧ Gathers a before after references := by
  induction items generalizing before with
  | nil =>
    rw [List.foldlM_nil, pure_eq_ok]
    constructor
    · intro h
      exact ⟨[], .nil, gathers_nil.2 h⟩
    · rintro ⟨references, hproves, hgathers⟩
      cases hproves
      exact gathers_nil.1 hgathers
  | cons item items ih =>
    rw [List.foldlM_cons, bind_eq_ok]
    simp only [weigh_eq_ok, ih]
    constructor
    · rintro ⟨middle, ⟨reference, hproves, hfirst⟩, references, hall, hrest⟩
      exact ⟨reference :: references, .cons hproves hall, gathers_cons.2 ⟨middle, hfirst, hrest⟩⟩
    · rintro ⟨references, hall, hgathers⟩
      cases hall with
      | cons hproves hall =>
        obtain ⟨middle, hfirst, hrest⟩ := gathers_cons.1 hgathers
        exact ⟨middle, ⟨_, hproves, hfirst⟩, _, hall, hrest⟩

/-! ## What is raised -/

/-- `CompletionRefused`. -/
def IsRefusal (e : Raised) : Prop := ∃ reason message, e = .refused reason message

theorem weigh_raises : OnlyRaises IsRefusal (weigh a before item) := by
  unfold weigh
  refine (onlyRaises_require fun _ => ⟨_, _, rfl⟩).bind fun _ _ => ?_
  refine (onlyRaises_require fun _ => ⟨_, _, rfl⟩).bind fun _ _ => ?_
  split
  · exact onlyRaises_throw ⟨_, _, rfl⟩
  · refine (onlyRaises_require fun _ => ⟨_, _, rfl⟩).bind fun _ _ => ?_
    refine OnlyRaises.bind ?_ fun _ _ => onlyRaises_pure
    unfold attribution
    split
    · split
      · split
        · exact onlyRaises_pure
        · exact onlyRaises_throw ⟨_, _, rfl⟩
      · exact onlyRaises_throw ⟨_, _, rfl⟩
    · exact onlyRaises_pure

theorem foldlM_weigh_raises {items : List Item} :
    OnlyRaises IsRefusal (items.foldlM (weigh a) before) := by
  induction items generalizing before with
  | nil => exact onlyRaises_pure
  | cons item items ih =>
    rw [List.foldlM_cons]
    exact weigh_raises.bind fun _ _ => ih

theorem snapshotAccepted_raises (raw : Typed AcceptedCompletion) :
    OnlyRaises IsRefusal (snapshotAccepted raw) := by
  unfold snapshotAccepted
  split
  · exact onlyRaises_pure
  · exact onlyRaises_throw ⟨_, _, rfl⟩

theorem snapshotReadout_raises (raw : Typed EvidenceReadout) :
    OnlyRaises IsRefusal (snapshotReadout raw) := by
  unfold snapshotReadout
  split
  · exact onlyRaises_pure
  · exact onlyRaises_throw ⟨_, _, rfl⟩

theorem requireSettled_raises (raw : Settlement) : OnlyRaises IsRefusal (requireSettled raw) := by
  unfold requireSettled
  split
  · exact onlyRaises_pure
  · exact onlyRaises_throw ⟨_, _, rfl⟩

/-! ## The conditions -/

/-- What the rule asks of snapshots. -/
structure Proven (a : Accepted) (o : Observed) (s : Settled) : Prop where
  fence : o.fencingGeneration = s.fencingGeneration
  complete : o.complete = true
  identities : NamesIdentities a o s.workspaceId
  covers : CoversCriteria a o
  items : ∀ item ∈ o.items, ∃ reference, Proves a item reference
  independent : ∃ item ∈ o.items, item.collectedBy ≠ .ofString a.implementerId

/-- What the constructor of the decision asks besides. -/
structure InRange (a : Accepted) (s : Settled) : Prop where
  generation : Bounded s.fencingGeneration 1
  attempt : Bounded s.applicationAttemptNumber 1 ∧ s.applicationAttemptNumber ≤ MAX_APPLICATION_ATTEMPT
  sequence : Bounded s.settledSequence 1 ∧ s.settledSequence ≤ MAX_SEQUENCE
  criteria : a.criteria.Pairwise (· < ·)

/-- What the loop gathers from the items of an observation. -/
structure Weighed (a : Accepted) (o : Observed) (gathered : Gathered) : Prop where
  proves : List.Forall₂ (Proves a) (sortBy (·.criterion) o.items) gathered.references
  gathers : Gathers a ⟨none, []⟩ gathered gathered.references

theorem requireSettled_eq_ok {raw : Settlement} :
    requireSettled raw = .ok s ↔ raw = s.raw ∧ s.WellFormed := by
  rw [← readSettled_eq_some]
  unfold requireSettled
  split
  · next h => rw [h, pure_eq_ok, Option.some.injEq]
  · next h => simp [h]

theorem exists_forall₂ {α β : Type} {R : α → β → Prop} {l : List α} (h : ∀ a ∈ l, ∃ b, R a b) :
    ∃ bs, List.Forall₂ R l bs := by
  induction l with
  | nil => exact ⟨[], .nil⟩
  | cons a l ih =>
    rw [List.forall_mem_cons] at h
    obtain ⟨b, hb⟩ := h.1
    obtain ⟨bs, hbs⟩ := ih h.2
    exact ⟨b :: bs, .cons hb hbs⟩

/-- The rule passes exactly on what is proven. -/
theorem applyRule_eq_ok {raw : Settlement} {gathered : Gathered} :
    applyRule a o raw = .ok (s, gathered) ↔
      (raw = s.raw ∧ s.WellFormed) ∧ Proven a o s ∧ Weighed a o gathered := by
  unfold applyRule
  simp only [bind_eq_ok, require_eq_ok, exists_unit, pure_eq_ok, requireSettled_eq_ok, foldlM_weigh,
    Prod.mk.injEq]
  constructor
  · rintro ⟨s, hsettled, hfence, hcomplete, hidentities, hcovers, gathered, ⟨references, hall, hgathers⟩,
      hindependent, rfl, rfl⟩
    have hreferences : gathered.references = references := hgathers.appended
    subst hreferences
    refine ⟨hsettled, ⟨hfence, hcomplete, hidentities, hcovers, fun item hitem => ?_, by
      push Not at hindependent; exact hindependent⟩, hall, hgathers⟩
    obtain ⟨reference, -, hproves⟩ := exists_of_forall₂_left hall (mem_sortBy.2 hitem)
    exact ⟨reference, hproves⟩
  · rintro ⟨hsettled, hproven, hweighed⟩
    refine ⟨s, hsettled, hproven.fence, hproven.complete, hproven.identities, hproven.covers, gathered,
      ⟨_, hweighed.proves, hweighed.gathers⟩, ?_, rfl, rfl⟩
    push Not
    exact hproven.independent

theorem exists_weighed (h : Proven a o s) : ∃ gathered, Weighed a o gathered := by
  obtain ⟨references, hall⟩ := exists_forall₂ (R := Proves a) (l := sortBy (·.criterion) o.items)
    fun item hitem => h.items item (mem_sortBy.1 hitem)
  exact ⟨⟨if ∃ r ∈ references, r.collectedBy = a.implementerId then a.selfEvidence.map Prod.snd
    else none, references⟩, hall, rfl, rfl⟩

theorem applyRule_raises (raw : Settlement) : OnlyRaises IsRefusal (applyRule a o raw) := by
  refine (requireSettled_raises raw).bind fun _ _ => ?_
  refine (onlyRaises_require fun _ => ⟨_, _, rfl⟩).bind fun _ _ => ?_
  refine (onlyRaises_require fun _ => ⟨_, _, rfl⟩).bind fun _ _ => ?_
  refine (onlyRaises_require fun _ => ⟨_, _, rfl⟩).bind fun _ _ => ?_
  refine (onlyRaises_require fun _ => ⟨_, _, rfl⟩).bind fun _ _ => ?_
  refine foldlM_weigh_raises.bind fun _ _ => ?_
  exact (onlyRaises_require fun _ => ⟨_, _, rfl⟩).bind fun _ _ => onlyRaises_pure

/-! ## The constructor accepts what is in range -/

theorem criteria_eq_sortBy {criteria : List String} :
    criteria = sortBy id criteria.dedup ↔ criteria.Pairwise (· < ·) := by
  constructor
  · intro h
    have hnodup : criteria.Nodup := by
      rw [h]
      exact (perm_sortBy _).nodup_iff.2 (List.nodup_dedup _)
    have hle : criteria.Pairwise (· ≤ ·) := by
      have hsorted : (sortBy id criteria.dedup).Pairwise fun x y => id x ≤ id y := pairwise_sortBy _
      rw [← h] at hsorted
      exact hsorted
    exact (List.pairwise_and_iff.2 ⟨hle, hnodup⟩).imp fun h => lt_of_le_of_ne h.1 h.2
  · intro h
    have hnodup : criteria.Nodup := h.imp fun h => h.ne
    rw [hnodup.dedup]
    refine ((perm_sortBy criteria).eq_of_pairwise ?_ (pairwise_sortBy criteria)
      (h.imp fun h => h.le)).symm
    intro x y _ _ hxy hyx
    exact le_antisymm hxy hyx

theorem criterion_of_read (h : readReference item = some reference) :
    reference.criterion = item.criterion ∧ (isIdentifier item.criterion = true →
      reference.isWellFormed = true) := by
  simp only [readReference, Option.bind_eq_bind, Option.bind_eq_some_iff, Obj.text_eq_some,
    Option.some.injEq] at h
  obtain ⟨_, ⟨-, hid⟩, _, ⟨-, hdigest⟩, _, ⟨-, hcollected⟩, _, ⟨-, hreviewed⟩, rfl⟩ := h
  exact ⟨rfl, fun hcriterion => by
    simp [EvidenceReference.isWellFormed, hcriterion, hid, hdigest, hcollected, hreviewed]⟩

theorem map_criterion {items : List Item} {references : List EvidenceReference}
    (h : List.Forall₂ (Proves a) items references) :
    references.map (·.criterion) = items.map (·.criterion) := by
  induction h with
  | nil => rfl
  | cons hproves _ ih => rw [List.map_cons, List.map_cons, ih, (criterion_of_read hproves.read).1]

/-- Sorted items name the criteria in their order. -/
theorem map_criterion_sorted (hcovers : CoversCriteria a o) (hcriteria : a.criteria.Pairwise (· < ·)) :
    (sortBy (·.criterion) o.items).map (·.criterion) = a.criteria := by
  have hperm : (o.items.map (·.criterion)).Perm a.criteria := by
    rw [List.perm_ext_iff_of_nodup hcovers.1 (hcriteria.imp fun h => h.ne)]
    intro name
    have hname := Finset.ext_iff.1 hcovers.2 name
    rwa [List.mem_toFinset, List.mem_toFinset] at hname
  have hmap : (sortBy (·.criterion) o.items).map (·.criterion) = sortBy id (o.items.map (·.criterion)) :=
    @map_sortBy Item String String _ id (·.criterion) o.items
  have hsort : sortBy id (o.items.map (·.criterion)) = sortBy id a.criteria :=
    (sortBy_eq_iff_perm fun _ _ _ _ h => h).2 hperm
  rw [hmap, hsort]
  have hnodup : a.criteria.Nodup := hcriteria.imp fun h => h.ne
  have hsorted := criteria_eq_sortBy.2 hcriteria
  rw [hnodup.dedup] at hsorted
  exact hsorted.symm

theorem postInit_decisionOf {gathered : Gathered} (ha : a.WellFormed) (ho : o.WellFormed)
    (hs : s.WellFormed) (hproven : Proven a o s) (hweighed : Weighed a o gathered) :
    (decisionOf a s gathered).postInit = .ok () ↔ InRange a s := by
  have hidentities : ∀ value ∈ [s.workspaceId, a.runId, s.jobId, s.runStepId, s.runtimeAttemptId,
      a.candidateId, a.bindingId, a.aggregateId, a.packageId, a.applicationId],
      isIdentifier value = true := by
    simp only [List.forall_mem_cons]
    exact ⟨hs.workspaceId, ha.runId, hs.jobId, hs.runStepId, hs.runtimeAttemptId, ha.candidateId,
      ha.bindingId, ha.aggregateId, ha.packageId, ha.applicationId, fun _ h => absurd h List.not_mem_nil⟩
  have hnonempty : a.criteria ≠ [] := by
    obtain ⟨item, hitem, -⟩ := hproven.independent
    intro hnil
    have hname := (Finset.ext_iff.1 hproven.covers.2 item.criterion).1
      (List.mem_toFinset.2 (List.mem_map_of_mem hitem))
    rw [hnil] at hname
    simp at hname
  have hreferences : ∀ reference ∈ gathered.references, reference.isWellFormed = true := by
    intro reference hreference
    obtain ⟨item, hitem, hproves⟩ := exists_of_forall₂_right hweighed.proves hreference
    exact (criterion_of_read hproves.read).2 (ho.items item (mem_sortBy.1 hitem))
  have hattributed : ∀ actor ∈ gathered.attributed, isIdentifier actor = true := by
    intro actor hactor
    rw [hweighed.gathers.attributed] at hactor
    split at hactor
    · obtain ⟨e, he, rfl⟩ := Option.map_eq_some_iff.1 hactor
      exact (ha.selfEvidence e he).2
    · cases hactor
  unfold CompletionDecision.postInit decisionOf
  simp only [bind_eq_ok, require_eq_ok, exists_unit]
  constructor
  · rintro ⟨-, -, hgeneration, hattempt, hsequence, ⟨-, hcriteria⟩, -, -, -⟩
    exact ⟨hgeneration, hattempt, hsequence, criteria_eq_sortBy.1 hcriteria⟩
  · rintro ⟨hgeneration, hattempt, hsequence, hcriteria⟩
    exact ⟨hidentities, ha.definitionDigest, hgeneration, hattempt, hsequence,
      ⟨hnonempty, criteria_eq_sortBy.2 hcriteria⟩,
      (map_criterion hweighed.proves).trans (map_criterion_sorted hproven.covers hcriteria),
      hreferences, hattributed⟩

/-! ## The order of the items -/

/-- The order of the items changes no decision. -/
theorem applyRule_perm {raw : Settlement} {items : List Item} (h : items.Perm o.items) :
    applyRule a { o with items := items } raw = applyRule a o raw := by
  have hnames : (items.map (·.criterion)).Perm (o.items.map (·.criterion)) := h.map _
  have hcovers : CoversCriteria a { o with items := items } ↔ CoversCriteria a o := by
    unfold CoversCriteria
    dsimp only
    rw [hnames.nodup_iff, List.toFinset_eq_of_perm _ _ hnames]
  have hidentities : ∀ workspaceId, NamesIdentities a { o with items := items } workspaceId ↔
      NamesIdentities a o workspaceId := fun _ => Iff.rfl
  have hindependent : (∀ item ∈ items, item.collectedBy = .ofString a.implementerId) ↔
      ∀ item ∈ o.items, item.collectedBy = .ofString a.implementerId :=
    forall_congr' fun item => imp_congr_left h.mem_iff
  unfold applyRule
  by_cases hcovered : CoversCriteria a o
  · have hsort : sortBy (·.criterion) items = sortBy (·.criterion) o.items := by
      refine (sortBy_eq_iff_perm fun x hx y hy heq => ?_).2 h
      exact List.inj_on_of_nodup_map (hnames.nodup_iff.2 hcovered.1) hx hy heq
    simp only [hcovers, hidentities, hindependent, hsort]
  · have hnot : ¬CoversCriteria a { o with items := items } := mt hcovers.1 hcovered
    simp only [require_neg hcovered, require_neg hnot, hidentities]
    rfl

/-- A list of images is the images of a list. -/
theorem exists_map_of_perm {α β : Type} {f : α → β} {l : List β} {m : List α} (h : l.Perm (m.map f)) :
    ∃ m' : List α, m'.Perm m ∧ l = m'.map f := by
  have himages : List.Forall₂ (fun b a => b = f a) (m.map f) m :=
    List.forall₂_map_left_iff.2 (List.forall₂_same.2 fun _ _ => rfl)
  obtain ⟨m', hall, hperm⟩ := List.perm_comp_forall₂ h himages
  refine ⟨m', hperm, ?_⟩
  clear hperm himages h
  induction hall with
  | nil => rfl
  | cons heq _ ih => rw [heq, ih, List.map_cons]

/-- Two readouts that differ in the order of their items alone. -/
inductive Reordered : Typed EvidenceReadout → Typed EvidenceReadout → Prop where
  | items (r : EvidenceReadout) {items items' : List (Typed EvidenceItem)} (h : items.Perm items') :
      Reordered (.exact { r with items := .exact items }) (.exact { r with items := .exact items' })

variable {readout readout' : Typed EvidenceReadout}

theorem Reordered.symm (h : Reordered readout readout') : Reordered readout' readout := by
  cases h with
  | items r h => exact .items r h.symm

theorem readObserved_reordered (h : Reordered readout readout') (hread : readObserved readout = some o) :
    ∃ items, items.Perm o.items ∧ readObserved readout' = some { o with items := items } := by
  obtain ⟨hraw, hwell⟩ := readObserved_eq_some.1 hread
  cases h with
  | items r h =>
    obtain ⟨_, _, _, _, _, _, _, _, _, _, _⟩ := r
    cases hraw
    obtain ⟨items, hperm, rfl⟩ := exists_map_of_perm h.symm
    refine ⟨items, hperm, readObserved_eq_some.2 ⟨rfl, ?_⟩⟩
    exact ⟨hwell.workspaceId, hwell.runId, hwell.candidateId, hwell.bindingId, hwell.definitionDigest,
      hwell.aggregateId, hwell.packageId, hwell.applicationId,
      fun item hitem => hwell.items item (hperm.mem_iff.1 hitem)⟩

theorem decideCompletion_reordered {accepted : Typed AcceptedCompletion} {settlement : Settlement}
    (h : Reordered readout readout') :
    decideCompletion accepted readout' settlement = decideCompletion accepted readout settlement := by
  cases hread : readObserved readout with
  | none =>
    have hread' : readObserved readout' = none := by
      cases hread' : readObserved readout' with
      | none => rfl
      | some o =>
        obtain ⟨items, -, hsome⟩ := readObserved_reordered h.symm hread'
        rw [hread] at hsome
        cases hsome
    rw [decideCompletion, decideCompletion, snapshotReadout, snapshotReadout, hread, hread']
  | some o =>
    obtain ⟨items, hperm, hread'⟩ := readObserved_reordered h hread
    rw [decideCompletion, decideCompletion, snapshotReadout, snapshotReadout, hread, hread']
    refine bind_congr fun a => ?_
    show decideSnapshots a { o with items := items } settlement = decideSnapshots a o settlement
    rw [decideSnapshots, decideSnapshots, applyRule_perm hperm]

/-! ## Exactly what is decided -/

/-- The shapes and the conditions of a completion. -/
def Provable (accepted : Typed AcceptedCompletion) (readout : Typed EvidenceReadout)
    (settlement : Settlement) : Prop :=
  ∃ a o s, (accepted = .exact a.raw ∧ a.WellFormed) ∧ (readout = .exact o.raw ∧ o.WellFormed) ∧
    (settlement = s.raw ∧ s.WellFormed) ∧ Proven a o s

/-- The bounds of the constructor hold of the settlement values and the accepted criteria. -/
def WithinBounds (accepted : Typed AcceptedCompletion) (settlement : Settlement) : Prop :=
  ∀ a s, accepted = .exact a.raw ∧ a.WellFormed → settlement = s.raw ∧ s.WellFormed → InRange a s

/-- The gate decides exactly what is provable, refuses everything else and raises nothing else; a decision
does not depend on the order of the items, carries evidence for exactly the accepted criteria, and is
attributed when it admits an item the implementer collected. -/
structure Exact (accepted : Typed AcceptedCompletion) (readout : Typed EvidenceReadout)
    (settlement : Settlement) : Prop where
  decides : (∃ d, decideCompletion accepted readout settlement = .ok d) ↔
    Provable accepted readout settlement
  refuses : ∀ e, decideCompletion accepted readout settlement = .error e → IsRefusal e
  unordered : ∀ readout', Reordered readout readout' →
    decideCompletion accepted readout' settlement = decideCompletion accepted readout settlement
  evidence : ∀ (d : CompletionDecision) (a : Accepted), decideCompletion accepted readout settlement = .ok d →
    accepted = .exact a.raw → a.WellFormed →
    d.evidence.map (·.criterion) = a.criteria ∧ d.provenCriteria = a.criteria ∧
      (d.selfEvidenceAttributedTo.isSome = true ↔
        ∃ reference ∈ d.evidence, reference.collectedBy = a.implementerId)

variable {accepted : Typed AcceptedCompletion} {settlement : Settlement} {d : CompletionDecision}

theorem snapshotAccepted_eq_ok :
    snapshotAccepted accepted = .ok a ↔ accepted = .exact a.raw ∧ a.WellFormed := by
  rw [← readAccepted_eq_some]
  unfold snapshotAccepted
  split
  · next h => rw [h, pure_eq_ok, Option.some.injEq]
  · next h => simp [h]

theorem snapshotReadout_eq_ok :
    snapshotReadout readout = .ok o ↔ readout = .exact o.raw ∧ o.WellFormed := by
  rw [← readObserved_eq_some]
  unfold snapshotReadout
  split
  · next h => rw [h, pure_eq_ok, Option.some.injEq]
  · next h => simp [h]

/-- What is decided: well formed and proven inputs, within the bounds. -/
theorem decideCompletion_eq_ok : decideCompletion accepted readout settlement = .ok d ↔
    ∃ a o s gathered, (accepted = .exact a.raw ∧ a.WellFormed) ∧
      (readout = .exact o.raw ∧ o.WellFormed) ∧ (settlement = s.raw ∧ s.WellFormed) ∧
      Proven a o s ∧ Weighed a o gathered ∧ InRange a s ∧ d = decisionOf a s gathered := by
  unfold decideCompletion decideSnapshots
  simp only [bind_eq_ok, snapshotAccepted_eq_ok, snapshotReadout_eq_ok, exists_unit, pure_eq_ok,
    Prod.exists, applyRule_eq_ok]
  constructor
  · rintro ⟨a, ha, o, ho, s, gathered, ⟨hs, hproven, hweighed⟩, hinit, rfl⟩
    exact ⟨a, o, s, gathered, ha, ho, hs, hproven, hweighed,
      (postInit_decisionOf ha.2 ho.2 hs.2 hproven hweighed).1 hinit, rfl⟩
  · rintro ⟨a, o, s, gathered, ha, ho, hs, hproven, hweighed, hrange, rfl⟩
    exact ⟨a, ha, o, ho, s, gathered, ⟨hs, hproven, hweighed⟩,
      (postInit_decisionOf ha.2 ho.2 hs.2 hproven hweighed).2 hrange, rfl⟩

/-- What is refused by the gate, or raised on by the constructor of a provable decision. -/
theorem decideCompletion_raises {e : Raised}
    (h : decideCompletion accepted readout settlement = .error e) :
    IsRefusal e ∨ ∃ a o s, (accepted = .exact a.raw ∧ a.WellFormed) ∧
      (readout = .exact o.raw ∧ o.WellFormed) ∧ (settlement = s.raw ∧ s.WellFormed) ∧
      Proven a o s ∧ ¬InRange a s := by
  cases haccepted : snapshotAccepted accepted with
  | error e' =>
    rw [decideCompletion, haccepted] at h
    exact .inl (Except.error.inj h ▸ snapshotAccepted_raises accepted e' haccepted)
  | ok a =>
    cases hreadout : snapshotReadout readout with
    | error e' =>
      rw [decideCompletion, haccepted, ok_bind, hreadout] at h
      exact .inl (Except.error.inj h ▸ snapshotReadout_raises readout e' hreadout)
    | ok o =>
      rw [decideCompletion, haccepted, ok_bind, hreadout, ok_bind, decideSnapshots] at h
      cases hrule : applyRule a o settlement with
      | error e' =>
        rw [hrule] at h
        exact .inl (Except.error.inj h ▸ applyRule_raises settlement e' hrule)
      | ok ruled =>
        obtain ⟨s, gathered⟩ := ruled
        obtain ⟨hs, hproven, hweighed⟩ := applyRule_eq_ok.1 hrule
        have ha := snapshotAccepted_eq_ok.1 haccepted
        have ho := snapshotReadout_eq_ok.1 hreadout
        refine .inr ⟨a, o, s, ha, ho, hs, hproven, fun hrange => ?_⟩
        have hinit := (postInit_decisionOf ha.2 ho.2 hs.2 hproven hweighed).2 hrange
        rw [hrule, ok_bind] at h
        dsimp only at h
        rw [hinit] at h
        cases h

theorem attributed_iff {gathered : Gathered} (hweighed : Weighed a o gathered) :
    gathered.attributed.isSome = true ↔
      ∃ reference ∈ gathered.references, reference.collectedBy = a.implementerId := by
  rw [hweighed.gathers.attributed]
  split
  · next h =>
    refine iff_of_true ?_ h
    obtain ⟨reference, hreference, hself⟩ := h
    obtain ⟨item, -, hproves⟩ := exists_of_forall₂_right hweighed.proves hreference
    obtain ⟨attributedTo, hexception⟩ := hproves.excepted hself
    rw [hexception]
    rfl
  · next h => exact iff_of_false Bool.false_ne_true h

/-- The gate is exact on an input, unless the input is provable and out of the bounds of the constructor. -/
theorem gate_exact (accepted : Typed AcceptedCompletion) (readout : Typed EvidenceReadout)
    (settlement : Settlement) :
    Exact accepted readout settlement ↔
      (Provable accepted readout settlement → WithinBounds accepted settlement) := by
  have hunique : ∀ {a a' : Accepted}, accepted = .exact a.raw ∧ a.WellFormed →
      accepted = .exact a'.raw ∧ a'.WellFormed → a = a' := by
    intro a a' ha ha'
    exact Option.some.inj ((readAccepted_eq_some.2 ha).symm.trans (readAccepted_eq_some.2 ha'))
  have hunique' : ∀ {s s' : Settled}, settlement = s.raw ∧ s.WellFormed →
      settlement = s'.raw ∧ s'.WellFormed → s = s' := by
    intro s s' hs hs'
    exact Option.some.inj ((readSettled_eq_some.2 hs).symm.trans (readSettled_eq_some.2 hs'))
  constructor
  · intro hexact hprovable
    obtain ⟨d, hd⟩ := hexact.decides.2 hprovable
    obtain ⟨a, o, s, gathered, ha, ho, hs, hproven, hweighed, hrange, rfl⟩ := decideCompletion_eq_ok.1 hd
    intro a' s' ha' hs'
    rw [hunique ha' ha, hunique' hs' hs]
    exact hrange
  · intro hbounds
    refine ⟨⟨?_, ?_⟩, fun e he => ?_, fun readout' h => decideCompletion_reordered h,
      fun d a' hd ha' hwell => ?_⟩
    · rintro ⟨d, hd⟩
      obtain ⟨a, o, s, gathered, ha, ho, hs, hproven, -⟩ := decideCompletion_eq_ok.1 hd
      exact ⟨a, o, s, ha, ho, hs, hproven⟩
    · intro hprovable
      have hrange := hbounds hprovable
      obtain ⟨a, o, s, ha, ho, hs, hproven⟩ := hprovable
      obtain ⟨gathered, hweighed⟩ := exists_weighed hproven
      exact ⟨_, decideCompletion_eq_ok.2 ⟨a, o, s, gathered, ha, ho, hs, hproven, hweighed,
        hrange a s ha hs, rfl⟩⟩
    · rcases decideCompletion_raises he with hrefusal | ⟨a, o, s, ha, ho, hs, hproven, hout⟩
      · exact hrefusal
      · exact absurd (hbounds ⟨a, o, s, ha, ho, hs, hproven⟩ a s ha hs) hout
    · obtain ⟨a, o, s, gathered, ha, ho, hs, hproven, hweighed, hrange, rfl⟩ :=
        decideCompletion_eq_ok.1 hd
      obtain rfl := hunique ⟨ha', hwell⟩ ha
      exact ⟨(map_criterion hweighed.proves).trans (map_criterion_sorted hproven.covers hrange.criteria),
        rfl, attributed_iff hweighed⟩

/-! ## The thousandth event -/

def acceptedRelease : Accepted where
  runId := "run-1"
  candidateId := "candidate-1"
  bindingId := "binding-1"
  definitionDigest := "sha256:" ++ String.ofList (List.replicate 64 '0')
  aggregateId := "aggregate-1"
  packageId := "package-1"
  applicationId := "application-1"
  implementerId := "implementer-1"
  criteria := ["tests-pass"]
  selfEvidence := none

def releaseItem : Item where
  criterion := "tests-pass"
  outcome := ofChars "proven".toList
  evidenceId := .ofString "evidence-1"
  contentDigest := .ofString ("sha256:" ++ String.ofList (List.replicate 64 '1'))
  collectedBy := .ofString "collector-1"
  reviewedBy := .ofString "reviewer-1"

def observedRelease : Observed where
  workspaceId := "workspace-1"
  runId := "run-1"
  candidateId := some "candidate-1"
  bindingId := some "binding-1"
  definitionDigest := some ("sha256:" ++ String.ofList (List.replicate 64 '0'))
  aggregateId := some "aggregate-1"
  packageId := some "package-1"
  applicationId := some "application-1"
  fencingGeneration := 7
  complete := true
  items := [releaseItem]

def settledAt (sequence : ℤ) : Settled where
  workspaceId := "workspace-1"
  jobId := "job-1"
  runStepId := "step-1"
  runtimeAttemptId := "attempt-1"
  applicationAttemptNumber := 1
  fencingGeneration := 7
  settledSequence := sequence

/-- The same proof is a decision at one sequence, and at the next an exception that is no refusal. -/
theorem thousandth_event_escapes :
    (decideCompletion (.exact acceptedRelease.raw) (.exact observedRelease.raw)
      (settledAt 999).raw).isOk = true ∧
    decideCompletion (.exact acceptedRelease.raw) (.exact observedRelease.raw) (settledAt 1000).raw =
      .error (.invalid "settled_sequence is outside its closed shape") ∧
    ¬Exact (.exact acceptedRelease.raw) (.exact observedRelease.raw) (settledAt 1000).raw := by
  have hraised : decideCompletion (.exact acceptedRelease.raw) (.exact observedRelease.raw)
      (settledAt 1000).raw = .error (.invalid "settled_sequence is outside its closed shape") := by
    decide +kernel
  refine ⟨by decide +kernel, hraised, fun hexact => ?_⟩
  obtain ⟨reason, message, hrefusal⟩ := hexact.refuses _ hraised
  cases hrefusal

end OmniviaCore.Gates.Completion
