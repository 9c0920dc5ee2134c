import OmniviaCore.Lib.Machine
import OmniviaCore.Lib.Rows

/-!
# The ledger of external effects

Intents, receipts, settlements and the reconciliations that link one settlement of an intent to a later
one, each appended under the keys, the checks and the insert triggers of its relation. Nothing is ever
changed, so the ledger is a machine whose labels are the rows a writer tries to append.

What a trigger asks of other relations (the fence and the lease, the run and its attempt, the grant, the
audit event) is one condition on the label.
-/

namespace OmniviaCore.Effects

open Lib

/-- `omnivia_runtime_effect_settlements.outcome`. -/
inductive SettlementOutcome where
  | committed
  | notCommitted
  | unknown
  deriving DecidableEq

/-- `omnivia_runtime_effect_reconciliations.outcome`. -/
inductive ReconciliationOutcome where
  | applied
  | notApplied
  | partly
  | unknown
  deriving DecidableEq

structure EffectIntent where
  workspaceId : String
  effectIntentId : String
  runId : String
  idempotencyKey : String
  declaredAtUs : Int

structure EffectReceipt where
  workspaceId : String
  effectReceiptId : String
  runId : String
  effectIntentId : String
  observedAtUs : Int

structure EffectSettlement where
  workspaceId : String
  effectSettlementId : String
  runId : String
  effectIntentId : String
  outcome : SettlementOutcome
  effectReceiptId : Option String
  settledAtUs : Int
  deriving DecidableEq

structure EffectReconciliation where
  workspaceId : String
  effectReconciliationId : String
  runId : String
  effectIntentId : String
  sourceEffectSettlementId : String
  outcome : ReconciliationOutcome
  effectReceiptId : Option String
  resultingEffectSettlementId : String
  reconciledAtUs : Int

structure EffectLedger where
  intents : List EffectIntent
  receipts : List EffectReceipt
  settlements : List EffectSettlement
  reconciliations : List EffectReconciliation

/-- A row to append. -/
inductive EffectRow where
  | intent (row : EffectIntent)
  | receipt (row : EffectReceipt)
  | settlement (row : EffectSettlement)
  | reconciliation (row : EffectReconciliation)

/-- A row somebody tries to append, and whether the other relations admit it. -/
structure EffectAppend where
  row : EffectRow
  admittedElsewhere : Bool

/-- The outcome of the settlement a reconciliation results in. -/
def ReconciliationOutcome.settles : ReconciliationOutcome → SettlementOutcome
  | .applied => .committed
  | .notApplied => .notCommitted
  | .partly => .unknown
  | .unknown => .unknown

namespace EffectLedger

variable (ledger : EffectLedger)

def empty : EffectLedger := ⟨[], [], [], []⟩

/-- The intent a receipt, a settlement or a reconciliation belongs to. -/
def hasIntent (workspaceId runId effectIntentId : String) (instantUs : Int) : Prop :=
  ∃ i ∈ ledger.intents, i.workspaceId = workspaceId ∧ i.effectIntentId = effectIntentId ∧
    i.runId = runId ∧ i.declaredAtUs ≤ instantUs

instance (workspaceId runId effectIntentId : String) (instantUs : Int) :
    Decidable (ledger.hasIntent workspaceId runId effectIntentId instantUs) := by
  unfold hasIntent
  infer_instance

/-- The receipt a row names, of its own intent and run. -/
def hasReceipt (workspaceId runId effectIntentId : String) (effectReceiptId : Option String) : Prop :=
  ∃ r ∈ ledger.receipts, r.workspaceId = workspaceId ∧ some r.effectReceiptId = effectReceiptId ∧
    r.effectIntentId = effectIntentId ∧ r.runId = runId

instance (workspaceId runId effectIntentId : String) (effectReceiptId : Option String) :
    Decidable (ledger.hasReceipt workspaceId runId effectIntentId effectReceiptId) := by
  unfold hasReceipt
  infer_instance

def AdmitsIntent (row : EffectIntent) : Prop :=
  0 < row.declaredAtUs ∧
    ∀ i ∈ ledger.intents, (i.workspaceId, i.effectIntentId) ≠ (row.workspaceId, row.effectIntentId) ∧
      (i.workspaceId, i.runId, i.idempotencyKey) ≠ (row.workspaceId, row.runId, row.idempotencyKey)

def AdmitsReceipt (row : EffectReceipt) : Prop :=
  0 < row.observedAtUs ∧
    (∀ r ∈ ledger.receipts,
      (r.workspaceId, r.effectReceiptId) ≠ (row.workspaceId, row.effectReceiptId)) ∧
    ledger.hasIntent row.workspaceId row.runId row.effectIntentId row.observedAtUs

def AdmitsSettlement (row : EffectSettlement) : Prop :=
  0 < row.settledAtUs ∧ (row.outcome = .committed ↔ row.effectReceiptId.isSome) ∧
    (∀ s ∈ ledger.settlements,
      (s.workspaceId, s.effectSettlementId) ≠ (row.workspaceId, row.effectSettlementId)) ∧
    ledger.hasIntent row.workspaceId row.runId row.effectIntentId row.settledAtUs ∧
    (row.outcome = .committed →
      ledger.hasReceipt row.workspaceId row.runId row.effectIntentId row.effectReceiptId)

/-- The source is an unknown settlement of the reconciliation's intent that it does not predate. -/
def IsSourceOf (row : EffectReconciliation) (s : EffectSettlement) : Prop :=
  s.workspaceId = row.workspaceId ∧ s.effectSettlementId = row.sourceEffectSettlementId ∧
    s.runId = row.runId ∧ s.effectIntentId = row.effectIntentId ∧ s.outcome = .unknown ∧
      s.settledAtUs ≤ row.reconciledAtUs

/-- The result is a settlement of the reconciliation's intent, no earlier than it and with its outcome. -/
def IsResultOf (row : EffectReconciliation) (s : EffectSettlement) : Prop :=
  s.workspaceId = row.workspaceId ∧ s.effectSettlementId = row.resultingEffectSettlementId ∧
    s.runId = row.runId ∧ s.effectIntentId = row.effectIntentId ∧ row.reconciledAtUs ≤ s.settledAtUs ∧
      s.outcome = row.outcome.settles ∧ s.effectReceiptId = row.effectReceiptId

instance (row : EffectReconciliation) (s : EffectSettlement) : Decidable (IsSourceOf row s) := by
  unfold IsSourceOf
  infer_instance

instance (row : EffectReconciliation) (s : EffectSettlement) : Decidable (IsResultOf row s) := by
  unfold IsResultOf
  infer_instance

def AdmitsReconciliation (row : EffectReconciliation) : Prop :=
  0 < row.reconciledAtUs ∧ (row.outcome = .applied ↔ row.effectReceiptId.isSome) ∧
    row.sourceEffectSettlementId ≠ row.resultingEffectSettlementId ∧
    (∀ r ∈ ledger.reconciliations,
      (r.workspaceId, r.effectReconciliationId) ≠ (row.workspaceId, row.effectReconciliationId) ∧
        (r.workspaceId, r.resultingEffectSettlementId) ≠
          (row.workspaceId, row.resultingEffectSettlementId)) ∧
    (∃ s ∈ ledger.settlements, IsSourceOf row s) ∧
    (row.outcome = .applied →
      ledger.hasReceipt row.workspaceId row.runId row.effectIntentId row.effectReceiptId) ∧
    ∃ s ∈ ledger.settlements, IsResultOf row s

/-- The keys, checks and triggers of the row's own relations. -/
def Admits : EffectRow → Prop
  | .intent row => ledger.AdmitsIntent row
  | .receipt row => ledger.AdmitsReceipt row
  | .settlement row => ledger.AdmitsSettlement row
  | .reconciliation row => ledger.AdmitsReconciliation row

instance (row : EffectRow) : Decidable (ledger.Admits row) := by
  cases row <;>
    unfold Admits <;>
    simp only [AdmitsIntent, AdmitsReceipt, AdmitsSettlement, AdmitsReconciliation] <;>
    infer_instance

def insert : EffectRow → EffectLedger
  | .intent row => { ledger with intents := ledger.intents ++ [row] }
  | .receipt row => { ledger with receipts := ledger.receipts ++ [row] }
  | .settlement row => { ledger with settlements := ledger.settlements ++ [row] }
  | .reconciliation row => { ledger with reconciliations := ledger.reconciliations ++ [row] }

/-- `INSERT`: a row that is refused leaves the ledger as it was. -/
def append (label : EffectAppend) : EffectLedger :=
  if label.admittedElsewhere ∧ ledger.Admits label.row then ledger.insert label.row else ledger

end EffectLedger

/-! ## The links of a workspace -/

variable {ledger : EffectLedger} {workspaceId : String} {a b c : String}

namespace EffectLedger

/-- A reconciliation supersedes one settlement by another. -/
def Link (ledger : EffectLedger) (workspaceId a b : String) : Prop :=
  ∃ r ∈ ledger.reconciliations, r.workspaceId = workspaceId ∧ r.sourceEffectSettlementId = a ∧
    r.resultingEffectSettlementId = b

/-- One settlement is led to another by superseding links. -/
def Leads (ledger : EffectLedger) (workspaceId : String) : String → String → Prop :=
  Relation.ReflTransGen (ledger.Link workspaceId)

/-- The settlement of a workspace under an id. -/
def Settlement (ledger : EffectLedger) (workspaceId id : String) (s : EffectSettlement) : Prop :=
  s ∈ ledger.settlements ∧ s.workspaceId = workspaceId ∧ s.effectSettlementId = id

/-- A settlement no reconciliation results in. -/
def Unlinked (ledger : EffectLedger) (workspaceId id : String) : Prop :=
  ∀ a, ¬ledger.Link workspaceId a id

/-- A settlement no reconciliation supersedes. -/
def Latest (ledger : EffectLedger) (workspaceId id : String) : Prop :=
  ∀ b, ¬ledger.Link workspaceId id b

/-- What the keys and triggers keep of every ledger: one settlement under an id, one link into a
settlement, and links from an unknown settlement to one of the same intent. -/
structure Sound (ledger : EffectLedger) : Prop where
  settlements : Unique (fun s => (s.workspaceId, s.effectSettlementId)) ledger.settlements
  results : Unique (fun r => (r.workspaceId, r.resultingEffectSettlementId)) ledger.reconciliations
  links : ∀ r ∈ ledger.reconciliations, ∃ s ∈ ledger.settlements, ∃ t ∈ ledger.settlements,
    s.workspaceId = r.workspaceId ∧ s.effectSettlementId = r.sourceEffectSettlementId ∧
      s.outcome = .unknown ∧ t.workspaceId = r.workspaceId ∧
      t.effectSettlementId = r.resultingEffectSettlementId ∧ t.effectIntentId = s.effectIntentId

/-- Every settlement comes from an unlinked one and leads to a latest one. -/
structure Grounded (ledger : EffectLedger) : Prop where
  root : ∀ workspaceId id s, ledger.Settlement workspaceId id s →
    ∃ r, ledger.Unlinked workspaceId r ∧ ledger.Leads workspaceId r id
  latest : ∀ workspaceId id s, ledger.Settlement workspaceId id s →
    ∃ l, ledger.Latest workspaceId l ∧ ledger.Leads workspaceId id l

/-- The append closes a cycle: it is a reconciliation that is admitted although its result already leads to
its source. -/
def Closes (ledger : EffectLedger) (label : EffectAppend) : Prop :=
  (label.admittedElsewhere ∧ ledger.Admits label.row) ∧
    match label.row with
    | .reconciliation row =>
      ledger.Leads row.workspaceId row.resultingEffectSettlementId row.sourceEffectSettlementId
    | _ => False

theorem settlement_unique (h : ledger.Sound) {s t : EffectSettlement}
    (hs : ledger.Settlement workspaceId a s) (ht : ledger.Settlement workspaceId a t) : s = t :=
  List.inj_on_of_nodup_map h.settlements hs.1 ht.1
    (Prod.ext (hs.2.1.trans ht.2.1.symm) (hs.2.2.trans ht.2.2.symm))

/-- A link joins an unknown settlement to a settlement of its intent. -/
theorem Link.ends (h : ledger.Sound) (hlink : ledger.Link workspaceId a b) :
    ∃ s t, ledger.Settlement workspaceId a s ∧ ledger.Settlement workspaceId b t ∧ s.outcome = .unknown ∧
      t.effectIntentId = s.effectIntentId := by
  obtain ⟨r, hr, rfl, rfl, rfl⟩ := hlink
  obtain ⟨s, hs, t, ht, hsw, hsid, hunknown, htw, htid, hintent⟩ := h.links r hr
  exact ⟨s, t, ⟨hs, hsw, hsid⟩, ⟨ht, htw, htid⟩, hunknown, hintent⟩

theorem latest_of_known (h : ledger.Sound) {s : EffectSettlement} (hs : ledger.Settlement workspaceId a s)
    (hknown : s.outcome ≠ .unknown) : ledger.Latest workspaceId a := by
  intro b hlink
  obtain ⟨s', -, hs', -, hunknown, -⟩ := hlink.ends h
  exact hknown (settlement_unique h hs hs' ▸ hunknown)

theorem Leads.settlement (h : ledger.Sound) (hleads : ledger.Leads workspaceId a b) {s : EffectSettlement}
    (hs : ledger.Settlement workspaceId a s) :
    ∃ t, ledger.Settlement workspaceId b t ∧ t.effectIntentId = s.effectIntentId := by
  induction hleads with
  | refl => exact ⟨s, hs, rfl⟩
  | tail _ hlink ih =>
    obtain ⟨t, ht, hintent⟩ := ih
    obtain ⟨t', u, ht', hu, -, hsame⟩ := hlink.ends h
    rw [settlement_unique h ht' ht] at hsame
    exact ⟨u, hu, hsame.trans hintent⟩

theorem Leads.settlement_of (h : ledger.Sound) (hleads : ledger.Leads workspaceId a b)
    {t : EffectSettlement} (ht : ledger.Settlement workspaceId b t) :
    ∃ s, ledger.Settlement workspaceId a s ∧ s.effectIntentId = t.effectIntentId := by
  induction hleads using Relation.ReflTransGen.head_induction_on with
  | refl => exact ⟨t, ht, rfl⟩
  | head hlink _ ih =>
    obtain ⟨s, hs, hintent⟩ := ih
    obtain ⟨u, s', hu, hs', -, hsame⟩ := hlink.ends h
    rw [settlement_unique h hs' hs] at hsame
    exact ⟨u, hu, hsame.symm.trans hintent⟩

theorem Latest.eq (h : ledger.Latest workspaceId a) (hleads : ledger.Leads workspaceId a b) : a = b := by
  rcases Relation.ReflTransGen.cases_head hleads with heq | ⟨c, hlink, -⟩
  · exact heq
  · exact absurd hlink (h c)

/-! ## What an append keeps -/

theorem append_eq_or (ledger : EffectLedger) (label : EffectAppend) :
    ledger.append label = ledger ∨ (label.admittedElsewhere ∧ ledger.Admits label.row) ∧
      ledger.append label = ledger.insert label.row := by
  unfold append
  split
  · next h => exact .inr ⟨h, rfl⟩
  · exact .inl rfl

theorem Sound.append (h : ledger.Sound) (label : EffectAppend) : (ledger.append label).Sound := by
  obtain hsame | ⟨⟨-, hadmits⟩, hinsert⟩ := append_eq_or ledger label
  · rw [hsame]
    exact h
  · rw [hinsert]
    cases hrow : label.row with
    | intent row => exact ⟨h.settlements, h.results, h.links⟩
    | receipt row => exact ⟨h.settlements, h.results, h.links⟩
    | settlement row =>
      rw [hrow] at hadmits
      refine ⟨h.settlements.concat hadmits.2.2.1, h.results, ?_⟩
      intro r hr
      obtain ⟨s, hs, t, ht, hlink⟩ := h.links r hr
      exact ⟨s, List.mem_append_left _ hs, t, List.mem_append_left _ ht, hlink⟩
    | reconciliation row =>
      rw [hrow] at hadmits
      obtain ⟨-, -, -, hkeys, ⟨s, hs, hsource⟩, -, t, ht, hresult⟩ := hadmits
      refine ⟨h.settlements, h.results.concat fun r hr => (hkeys r hr).2, ?_⟩
      intro r hr
      rcases List.mem_append.1 hr with hr | hr
      · exact h.links r hr
      · rw [List.mem_singleton.1 hr]
        obtain ⟨hsw, hsid, -, hsintent, hunknown, -⟩ := hsource
        obtain ⟨htw, htid, -, htintent, -⟩ := hresult
        exact ⟨s, hs, t, ht, hsw, hsid, hunknown, htw, htid, htintent.trans hsintent.symm⟩

/-- A ledger only grows. -/
structure Extends (later earlier : EffectLedger) : Prop where
  settlements : ∀ s ∈ earlier.settlements, s ∈ later.settlements
  reconciliations : ∀ r ∈ earlier.reconciliations, r ∈ later.reconciliations

theorem extends_append (ledger : EffectLedger) (label : EffectAppend) : (ledger.append label).Extends ledger := by
  obtain hsame | ⟨-, hinsert⟩ := append_eq_or ledger label
  · rw [hsame]
    exact ⟨fun _ h => h, fun _ h => h⟩
  · rw [hinsert]
    cases label.row with
    | intent row => exact ⟨fun _ h => h, fun _ h => h⟩
    | receipt row => exact ⟨fun _ h => h, fun _ h => h⟩
    | settlement row => exact ⟨fun _ h => List.mem_append_left _ h, fun _ h => h⟩
    | reconciliation row => exact ⟨fun _ h => h, fun _ h => List.mem_append_left _ h⟩

theorem extends_run (labels : List EffectAppend) : (run append ledger labels).Extends ledger := by
  induction labels generalizing ledger with
  | nil => exact ⟨fun _ h => h, fun _ h => h⟩
  | cons label labels ih =>
    have hrest : (run append ledger (label :: labels)).Extends (ledger.append label) := ih
    have hfirst := extends_append ledger label
    exact ⟨fun s hs => hrest.settlements s (hfirst.settlements s hs),
      fun r hr => hrest.reconciliations r (hfirst.reconciliations r hr)⟩

theorem sound_empty : Sound empty :=
  ⟨unique_nil, unique_nil, fun _ hr => absurd hr List.not_mem_nil⟩

theorem sound_run (labels : List EffectAppend) : (run append empty labels).Sound :=
  run_invariant (P := Sound) (fun _ label h => h.append label) sound_empty labels

/-! ## Links that close no cycle -/

theorem link_reconciliation {row : EffectReconciliation} :
    (ledger.insert (.reconciliation row)).Link workspaceId a b ↔
      ledger.Link workspaceId a b ∨ row.workspaceId = workspaceId ∧ row.sourceEffectSettlementId = a ∧
        row.resultingEffectSettlementId = b := by
  simp only [Link, insert, List.mem_append, List.mem_singleton]
  constructor
  · rintro ⟨r, hr | rfl, hlink⟩
    · exact .inl ⟨r, hr, hlink⟩
    · exact .inr hlink
  · rintro (⟨r, hr, hlink⟩ | hlink)
    · exact ⟨r, .inl hr, hlink⟩
    · exact ⟨row, .inr rfl, hlink⟩

theorem leads_reconciliation {row : EffectReconciliation} (h : ledger.Leads workspaceId a b) :
    (ledger.insert (.reconciliation row)).Leads workspaceId a b :=
  Relation.ReflTransGen.mono (fun _ _ hlink => link_reconciliation.2 (.inl hlink)) _ _ h

theorem Grounded.settlement (hsound : ledger.Sound) (h : ledger.Grounded) {row : EffectSettlement}
    (hadmits : ledger.AdmitsSettlement row) : (ledger.insert (.settlement row)).Grounded := by
  have halone : ∀ a b, ledger.Link row.workspaceId a b →
      a ≠ row.effectSettlementId ∧ b ≠ row.effectSettlementId := by
    intro a b hlink
    obtain ⟨s, t, hs, ht, -, -⟩ := hlink.ends hsound
    constructor
    · rintro rfl
      exact hadmits.2.2.1 s hs.1 (Prod.ext hs.2.1 hs.2.2)
    · rintro rfl
      exact hadmits.2.2.1 t ht.1 (Prod.ext ht.2.1 ht.2.2)
  constructor
  · intro workspaceId id s hs
    obtain ⟨hmem, hworkspace, hid⟩ := hs
    rcases List.mem_append.1 hmem with hmem | hmem
    · exact h.root workspaceId id s ⟨hmem, hworkspace, hid⟩
    · rw [List.mem_singleton] at hmem
      subst hmem hworkspace hid
      exact ⟨s.effectSettlementId, fun a hlink => (halone _ _ hlink).2 rfl, .refl⟩
  · intro workspaceId id s hs
    obtain ⟨hmem, hworkspace, hid⟩ := hs
    rcases List.mem_append.1 hmem with hmem | hmem
    · exact h.latest workspaceId id s ⟨hmem, hworkspace, hid⟩
    · rw [List.mem_singleton] at hmem
      subst hmem hworkspace hid
      exact ⟨s.effectSettlementId, fun b hlink => (halone _ _ hlink).1 rfl, .refl⟩

/-- A link that closes no cycle moves a root back and an end on. -/
theorem Grounded.reconciliation (h : ledger.Grounded) {row : EffectReconciliation}
    (hadmits : ledger.AdmitsReconciliation row)
    (hopen : ¬ledger.Leads row.workspaceId row.resultingEffectSettlementId row.sourceEffectSettlementId) :
    (ledger.insert (.reconciliation row)).Grounded := by
  obtain ⟨-, -, -, hkeys, ⟨source, hsource, hof⟩, -, result, hresult, hto⟩ := hadmits
  have hlink : (ledger.insert (.reconciliation row)).Link row.workspaceId row.sourceEffectSettlementId
      row.resultingEffectSettlementId := link_reconciliation.2 (.inr ⟨rfl, rfl, rfl⟩)
  obtain ⟨r', hr', hfrom⟩ := h.root row.workspaceId _ source ⟨hsource, hof.1, hof.2.1⟩
  obtain ⟨l', hl', honto⟩ := h.latest row.workspaceId _ result ⟨hresult, hto.1, hto.2.1⟩
  constructor
  · intro workspaceId id s hs
    obtain ⟨r, hr, hleads⟩ := h.root workspaceId id s hs
    by_cases hnew : row.workspaceId = workspaceId ∧ row.resultingEffectSettlementId = r
    · obtain ⟨rfl, rfl⟩ := hnew
      refine ⟨r', ?_, ((leads_reconciliation hfrom).tail hlink).trans (leads_reconciliation hleads)⟩
      intro a hin
      rcases link_reconciliation.1 hin with hin | ⟨-, -, heq⟩
      · exact hr' a hin
      · exact hopen (heq ▸ hfrom)
    · refine ⟨r, ?_, leads_reconciliation hleads⟩
      intro a hin
      rcases link_reconciliation.1 hin with hin | ⟨hworkspace, -, heq⟩
      · exact hr a hin
      · exact hnew ⟨hworkspace, heq⟩
  · intro workspaceId id s hs
    obtain ⟨l, hl, hleads⟩ := h.latest workspaceId id s hs
    by_cases hnew : row.workspaceId = workspaceId ∧ row.sourceEffectSettlementId = l
    · obtain ⟨rfl, rfl⟩ := hnew
      refine ⟨l', ?_, ((leads_reconciliation hleads).tail hlink).trans (leads_reconciliation honto)⟩
      intro b hout
      rcases link_reconciliation.1 hout with hout | ⟨-, heq, -⟩
      · exact hl' b hout
      · exact hopen (heq ▸ honto)
    · refine ⟨l, ?_, leads_reconciliation hleads⟩
      intro b hout
      rcases link_reconciliation.1 hout with hout | ⟨hworkspace, heq, -⟩
      · exact hl b hout
      · exact hnew ⟨hworkspace, heq⟩

theorem Grounded.append (hsound : ledger.Sound) (h : ledger.Grounded) {label : EffectAppend}
    (hopen : ¬ledger.Closes label) : (ledger.append label).Grounded := by
  obtain hsame | ⟨hadmits, hinsert⟩ := append_eq_or ledger label
  · rw [hsame]
    exact h
  · rw [hinsert]
    have hopen := fun hcloses => hopen ⟨hadmits, hcloses⟩
    replace hadmits := hadmits.2
    cases hrow : label.row with
    | intent row => exact ⟨h.root, h.latest⟩
    | receipt row => exact ⟨h.root, h.latest⟩
    | settlement row =>
      rw [hrow] at hadmits
      exact h.settlement hsound hadmits
    | reconciliation row =>
      rw [hrow] at hadmits hopen
      exact h.reconciliation hadmits hopen

theorem grounded_run {labels : List EffectAppend}
    (h : Along append (fun ledger label => ¬ledger.Closes label) empty labels) :
    (run append empty labels).Grounded := by
  refine (run_invariant_along (P := fun ledger => ledger.Sound ∧ ledger.Grounded)
    (fun ledger label hopen hledger => ⟨hledger.1.append label, hledger.2.append hledger.1 hopen⟩)
    ⟨sound_empty, ?_⟩ h).2
  exact ⟨fun _ _ s hs => absurd hs.1 List.not_mem_nil, fun _ _ s hs => absurd hs.1 List.not_mem_nil⟩

end EffectLedger

end OmniviaCore.Effects
