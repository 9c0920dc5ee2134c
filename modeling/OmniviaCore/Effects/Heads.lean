import OmniviaCore.Effects.Ledger
import OmniviaCore.Lib.Dict
import OmniviaCore.Lib.Firsts
import OmniviaCore.Lib.SortBy
import OmniviaCore.Lib.Worklist

/-!
# Effect heads

`readEffectHeads` walks the settlements of each intent forward from those no link results in. The rows of a
query come in whatever order.

On a ledger whose links close no cycle the walk meets every settlement, and its ends are the settlements
nothing supersedes: the head is settled exactly when every settlement leads to one answer, and an answer
once given is given again or the chain is branched (`read_effect_heads_exact`).
-/

namespace OmniviaCore.Effects

open Lib

inductive EffectHeadResolution where
  | settled
  | unresolved
  | branched
  deriving DecidableEq

structure EffectHead where
  effectIntentId : String
  resolution : EffectHeadResolution
  effectSettlementId : Option String
  outcome : Option SettlementOutcome
  deriving DecidableEq

/-- What the queries of one read answer: the rows they ask for, in some order. -/
structure EffectReading (ledger : EffectLedger) (workspaceId : String) where
  settlements : List String → List EffectSettlement
  reconciliations : List String → List EffectReconciliation
  settlements_perm : ∀ intents, (settlements intents).Perm (ledger.settlements.filter fun s =>
    s.workspaceId = workspaceId ∧ s.effectIntentId ∈ intents)
  reconciliations_perm : ∀ sources, (reconciliations sources).Perm (ledger.reconciliations.filter fun r =>
    r.workspaceId = workspaceId ∧ r.sourceEffectSettlementId ∈ sources)

/-- The rows in the order they were appended in. -/
def EffectReading.inOrder (ledger : EffectLedger) (workspaceId : String) :
    EffectReading ledger workspaceId where
  settlements intents := ledger.settlements.filter fun s =>
    s.workspaceId = workspaceId ∧ s.effectIntentId ∈ intents
  reconciliations sources := ledger.reconciliations.filter fun r =>
    r.workspaceId = workspaceId ∧ r.sourceEffectSettlementId ∈ sources
  settlements_perm _ := .refl _
  reconciliations_perm _ := .refl _

/-- `_CHUNK`. -/
def CHUNK : ℕ := 256

/-- `_chunks`. -/
def chunks (values : List String) : List (List String) :=
  (List.range ((values.length + CHUNK - 1) / CHUNK)).map fun i => (values.drop (i * CHUNK)).take CHUNK

/-- `SETTLED_EFFECT_OUTCOMES`. -/
def SETTLED_EFFECT_OUTCOMES : List SettlementOutcome := [.committed, .notCommitted]

/-- `sorted(links.get(settlement, set()))`. -/
def successors (links : List (String × String)) (settlement : String) : List String :=
  sortBy id ((links.filter fun link => link.1 = settlement).map Prod.snd)

/-- The settlements the walk of `_resolve` starts from. -/
def roots (outcomes : Dict String SettlementOutcome) (links : List (String × String)) : List String :=
  (sortBy id (outcomes.entries.map Prod.fst)).filter fun settlement => settlement ∉ links.map Prod.snd

/-- The ends of the walk: it takes at most a turn for each root and each link. -/
def endsOf (outcomes : Dict String SettlementOutcome) (links : List (String × String)) : List String :=
  (Worklist.turns (successors links) ((roots outcomes links).length + links.length)
    (Worklist.start (roots outcomes links))).ends

/-- `_resolve`. -/
def resolve (effectIntentId : String) (outcomes : Dict String SettlementOutcome)
    (links : List (String × String)) : EffectHead :=
  if outcomes.entries = [] then ⟨effectIntentId, .unresolved, none, none⟩
  else
    match endsOf outcomes links with
    | [head] =>
      match outcomes.get head with
      | none => ⟨effectIntentId, .branched, none, none⟩
      | some outcome =>
        ⟨effectIntentId, if outcome ∈ SETTLED_EFFECT_OUTCOMES then .settled else .unresolved, some head,
          some outcome⟩
    | _ => ⟨effectIntentId, .branched, none, none⟩

section Read

variable {ledger : EffectLedger} {workspaceId : String} (reading : EffectReading ledger workspaceId)

/-- The rows of the first query. -/
def settlementRows (wanted : List String) : List EffectSettlement :=
  (chunks wanted).flatMap reading.settlements

/-- `outcomes[intent]`. -/
def outcomesOf (rows : List EffectSettlement) (intent : String) : Dict String SettlementOutcome :=
  (Dict.ofList (·.effectSettlementId) (rows.filter (·.effectIntentId = intent))).mapValues (·.outcome)

/-- `links`, each with its source: the rows of the second query. -/
def linksOf (rows : List EffectSettlement) : List (String × String) :=
  let settlements := firstsBy id [] (rows.map (·.effectSettlementId))
  (((chunks settlements).flatMap reading.reconciliations).map fun r =>
    (r.sourceEffectSettlementId, r.resultingEffectSettlementId)).dedup

/-- `read_effect_heads`. -/
def readEffectHeads (effectIntentIds : List String) : Dict String EffectHead :=
  let wanted := firstsBy id [] effectIntentIds
  let rows := settlementRows reading wanted
  Dict.ofList (·.effectIntentId)
    (wanted.map fun intent => resolve intent (outcomesOf rows intent) (linksOf reading rows))

end Read

/-! ## What the queries answer -/

variable {ledger : EffectLedger} {workspaceId : String} {reading : EffectReading ledger workspaceId}
  {wanted : List String} {intent h a b : String} {o : SettlementOutcome}

theorem mem_chunks {values : List String} : (∃ chunk ∈ chunks values, a ∈ chunk) ↔ a ∈ values := by
  simp only [chunks, List.mem_map, List.mem_range, exists_exists_and_eq_and]
  constructor
  · rintro ⟨i, -, hmem⟩
    exact List.mem_of_mem_drop (List.mem_of_mem_take hmem)
  · intro hmem
    obtain ⟨i, hi, rfl⟩ := List.mem_iff_getElem.1 hmem
    have hdiv : i / CHUNK * CHUNK + i % CHUNK = i := Nat.div_add_mod' i CHUNK
    have hmod : i % CHUNK < CHUNK := Nat.mod_lt i (by decide)
    refine ⟨i / CHUNK, ?_, List.mem_iff_getElem.2 ⟨i % CHUNK, ?_, ?_⟩⟩
    · unfold CHUNK
      omega
    · rw [List.length_take, List.length_drop]
      omega
    · rw [List.getElem_take, List.getElem_drop]
      congr 1

theorem mem_settlementRows {s : EffectSettlement} :
    s ∈ settlementRows reading wanted ↔
      s ∈ ledger.settlements ∧ s.workspaceId = workspaceId ∧ s.effectIntentId ∈ wanted := by
  simp only [settlementRows, List.mem_flatMap, (reading.settlements_perm _).mem_iff, List.mem_filter,
    decide_eq_true_eq]
  constructor
  · rintro ⟨chunk, hchunk, hs, hworkspace, hintent⟩
    exact ⟨hs, hworkspace, mem_chunks.1 ⟨chunk, hchunk, hintent⟩⟩
  · rintro ⟨hs, hworkspace, hintent⟩
    obtain ⟨chunk, hchunk, hmem⟩ := mem_chunks.2 hintent
    exact ⟨chunk, hchunk, hs, hworkspace, hmem⟩

theorem get_outcomesOf (hsound : ledger.Sound) (hwanted : intent ∈ wanted) :
    (outcomesOf (settlementRows reading wanted) intent).get a = some o ↔
      ∃ s, ledger.Settlement workspaceId a s ∧ s.effectIntentId = intent ∧ s.outcome = o := by
  have hinj : ∀ s ∈ (settlementRows reading wanted).filter (·.effectIntentId = intent),
      ∀ t ∈ (settlementRows reading wanted).filter (·.effectIntentId = intent),
        s.effectSettlementId = t.effectSettlementId → s = t := by
    intro s hs t ht heq
    have hs := mem_settlementRows.1 (List.mem_of_mem_filter hs)
    have ht := mem_settlementRows.1 (List.mem_of_mem_filter ht)
    exact EffectLedger.settlement_unique hsound ⟨hs.1, hs.2.1, heq⟩ ⟨ht.1, ht.2.1, rfl⟩
  rw [outcomesOf, Dict.get_mapValues, Option.map_eq_some_iff]
  refine exists_congr fun s => ?_
  rw [Dict.get_ofList_of_inj hinj, List.mem_filter, mem_settlementRows, decide_eq_true_eq]
  constructor
  · rintro ⟨⟨⟨⟨hs, hworkspace, -⟩, hintent⟩, hid⟩, houtcome⟩
    exact ⟨⟨hs, hworkspace, hid⟩, hintent, houtcome⟩
  · rintro ⟨⟨hs, hworkspace, hid⟩, hintent, houtcome⟩
    exact ⟨⟨⟨⟨hs, hworkspace, hintent ▸ hwanted⟩, hintent⟩, hid⟩, houtcome⟩

theorem mem_linksOf {rows : List EffectSettlement} :
    (a, b) ∈ linksOf reading rows ↔
      ledger.Link workspaceId a b ∧ a ∈ rows.map (·.effectSettlementId) := by
  simp only [linksOf, List.mem_dedup, List.mem_map, List.mem_flatMap,
    (reading.reconciliations_perm _).mem_iff, List.mem_filter, decide_eq_true_eq, Prod.mk.injEq]
  constructor
  · rintro ⟨r, ⟨chunk, hchunk, hr, hworkspace, hsource⟩, rfl, rfl⟩
    exact ⟨⟨r, hr, hworkspace, rfl, rfl⟩,
      List.mem_map.1 (mem_firstsBy_id.1 (mem_chunks.1 ⟨chunk, hchunk, hsource⟩))⟩
  · rintro ⟨⟨r, hr, hworkspace, rfl, rfl⟩, hrow⟩
    obtain ⟨chunk, hchunk, hmem⟩ := mem_chunks.2 (mem_firstsBy_id.2 (List.mem_map.2 hrow))
    exact ⟨r, ⟨chunk, hchunk, hr, hworkspace, hmem⟩, rfl, rfl⟩

theorem get_readEffectHeads {intents : List String} (hintent : intent ∈ intents) :
    (readEffectHeads reading intents).get intent =
      some (resolve intent (outcomesOf (settlementRows reading (firstsBy id [] intents)) intent)
        (linksOf reading (settlementRows reading (firstsBy id [] intents)))) := by
  have hkey : ∀ i outcomes links, (resolve i outcomes links).effectIntentId = i := by
    intro i outcomes links
    unfold resolve
    split
    · rfl
    · split
      · split <;> rfl
      · rfl
  refine (Dict.get_ofList_of_inj ?_).2
    ⟨List.mem_map.2 ⟨intent, mem_firstsBy_id.2 hintent, rfl⟩, hkey _ _ _⟩
  intro x hx y hy heq
  obtain ⟨i, -, rfl⟩ := List.mem_map.1 hx
  obtain ⟨j, -, rfl⟩ := List.mem_map.1 hy
  rw [hkey, hkey] at heq
  rw [heq]

/-! ## Order -/

theorem mem_keys {outcomes : Dict String SettlementOutcome} :
    a ∈ outcomes.entries.map Prod.fst ↔ ∃ o, outcomes.get a = some o := by
  simp only [List.mem_map, Prod.exists, exists_and_right, exists_eq_right, Dict.get_eq_some]

/-- The walk reads the outcomes and the links of an intent, not the order they came in. -/
theorem resolve_congr {outcomes outcomes' : Dict String SettlementOutcome}
    {links links' : List (String × String)} (houtcomes : ∀ id, outcomes.get id = outcomes'.get id)
    (hlinks : links.Perm links') : resolve intent outcomes links = resolve intent outcomes' links' := by
  have hkeys : (outcomes.entries.map Prod.fst).Perm (outcomes'.entries.map Prod.fst) := by
    refine (List.perm_ext_iff_of_nodup outcomes.nodup outcomes'.nodup).2 fun id => ?_
    rw [mem_keys, mem_keys, houtcomes]
  have hsuccessors : successors links = successors links' := by
    funext settlement
    exact (sortBy_eq_iff_perm fun _ _ _ _ heq => heq).2 ((hlinks.filter _).map _)
  have hroots : roots outcomes links = roots outcomes' links' := by
    have hsorted : sortBy id (outcomes.entries.map Prod.fst) = sortBy id (outcomes'.entries.map Prod.fst) :=
      (sortBy_eq_iff_perm fun _ _ _ _ heq => heq).2 hkeys
    rw [roots, roots, hsorted]
    refine List.filter_congr fun settlement _ => ?_
    exact decide_eq_decide.2 (not_congr (hlinks.map Prod.snd).mem_iff)
  have hempty : outcomes.entries = [] ↔ outcomes'.entries = [] := by
    rw [← List.map_eq_nil_iff (f := Prod.fst), ← List.map_eq_nil_iff (f := Prod.fst)]
    exact ⟨fun h => (h ▸ hkeys).symm.eq_nil, fun h => (h ▸ hkeys).eq_nil⟩
  unfold resolve endsOf
  rw [hroots, hsuccessors, hlinks.length_eq]
  simp only [hempty, houtcomes]

theorem readEffectHeads_order (hsound : ledger.Sound) (reading' : EffectReading ledger workspaceId)
    (intents : List String) : readEffectHeads reading intents = readEffectHeads reading' intents := by
  unfold readEffectHeads
  dsimp only
  congr 1
  refine List.map_congr_left fun intent hintent => ?_
  refine resolve_congr (fun id => Option.ext fun o => ?_) ?_
  · rw [get_outcomesOf hsound hintent, get_outcomesOf hsound hintent]
  · refine (List.perm_ext_iff_of_nodup (List.nodup_dedup _) (List.nodup_dedup _)).2 fun link => ?_
    rw [← linksOf, ← linksOf, mem_linksOf, mem_linksOf]
    simp only [List.mem_map, mem_settlementRows]

/-! ## The ends of the walk -/

theorem mem_successors {links : List (String × String)} : b ∈ successors links a ↔ (a, b) ∈ links := by
  simp only [successors, mem_sortBy, List.mem_map, List.mem_filter, decide_eq_true_eq, Prod.exists,
    exists_eq_right]

theorem mem_roots {outcomes : Dict String SettlementOutcome} {links : List (String × String)} :
    a ∈ roots outcomes links ↔ (∃ o, outcomes.get a = some o) ∧ ∀ b, (b, a) ∉ links := by
  rw [roots, List.mem_filter, mem_sortBy, mem_keys]
  simp only [List.mem_map, Prod.exists, exists_eq_right, decide_eq_true_eq, not_exists]

theorem mem_endsOf {outcomes : Dict String SettlementOutcome} {links : List (String × String)} :
    a ∈ endsOf outcomes links ↔
      (∃ r ∈ roots outcomes links, Worklist.Leads (successors links) r a) ∧ successors links a = [] := by
  refine Worklist.mem_ends_turns (Worklist.turns_pending (links.map Prod.fst).dedup ?_ ?_)
  · intro x hx
    obtain ⟨b, hb⟩ := List.exists_mem_of_ne_nil _ hx
    exact List.mem_dedup.2 (List.mem_map.2 ⟨(x, b), mem_successors.1 hb, rfl⟩)
  · have hcount : ∀ x, (successors links x).length = (links.map Prod.fst).count x := by
      intro x
      rw [successors, (perm_sortBy _).length_eq, List.length_map, List.count, List.countP_map,
        List.countP_eq_length_filter]
      rfl
    have hfilter : ((links.map Prod.fst).dedup).filter (· ∉ (Worklist.start (roots outcomes links)).seen) =
        (links.map Prod.fst).dedup :=
      List.filter_eq_self.2 fun x _ => decide_eq_true List.not_mem_nil
    unfold Worklist.cost
    simp only [hfilter, hcount]
    rw [List.sum_map_count_dedup_eq_length, List.length_map, Worklist.start, List.length_reverse]

theorem nodup_endsOf {outcomes : Dict String SettlementOutcome} {links : List (String × String)} :
    (endsOf outcomes links).Nodup := Worklist.nodup_ends_turns _

/-- Every settlement of the intent is superseded, by links, down to one answer. -/
def EffectLedger.SettledWith (ledger : EffectLedger) (workspaceId intent h : String)
    (o : SettlementOutcome) : Prop :=
  o ≠ .unknown ∧ (∃ s, ledger.Settlement workspaceId h s ∧ s.effectIntentId = intent ∧ s.outcome = o) ∧
    ∀ id s, ledger.Settlement workspaceId id s → s.effectIntentId = intent → ledger.Leads workspaceId id h

/-- The head that names an answer. -/
def settledHead (intent h : String) (o : SettlementOutcome) : EffectHead :=
  ⟨intent, .settled, some h, some o⟩

def branchedHead (intent : String) : EffectHead := ⟨intent, .branched, none, none⟩

/-- The head of an intent, from the rows the read found. -/
def headOf (reading : EffectReading ledger workspaceId) (wanted : List String) (intent : String) :
    EffectHead :=
  resolve intent (outcomesOf (settlementRows reading wanted) intent)
    (linksOf reading (settlementRows reading wanted))

section Grounded

variable (hsound : ledger.Sound) (hground : ledger.Grounded) (hwanted : intent ∈ wanted)

include hwanted

/-- From a settlement of the intent the links read are the ledger's. -/
theorem mem_linksOf_settlement {s : EffectSettlement} (hs : ledger.Settlement workspaceId a s)
    (hintent : s.effectIntentId = intent) :
    (a, b) ∈ linksOf reading (settlementRows reading wanted) ↔ ledger.Link workspaceId a b := by
  rw [mem_linksOf]
  refine and_iff_left (List.mem_map.2 ⟨s, mem_settlementRows.2 ⟨hs.1, hs.2.1, ?_⟩, hs.2.2⟩)
  exact hintent ▸ hwanted

include hsound

theorem leads_of_walk {s : EffectSettlement} (hs : ledger.Settlement workspaceId a s)
    (hintent : s.effectIntentId = intent) :
    Worklist.Leads (successors (linksOf reading (settlementRows reading wanted))) a b ↔
      ledger.Leads workspaceId a b := by
  constructor
  · intro hwalk
    exact Relation.ReflTransGen.mono (fun x y hxy => (mem_linksOf.1 (mem_successors.1 hxy)).1) _ _ hwalk
  · intro hleads
    induction hleads with
    | refl => exact .refl
    | tail hleads hlink ih =>
      obtain ⟨t, ht, hsame⟩ := EffectLedger.Leads.settlement hsound hleads hs
      exact ih.tail (mem_successors.2
        ((mem_linksOf_settlement hwanted ht (hsame.trans hintent)).2 hlink))

include hground

variable (reading) in
/-- The ends are the settlements of the intent that nothing supersedes. -/
theorem mem_ends_iff :
    a ∈ endsOf (outcomesOf (settlementRows reading wanted) intent)
        (linksOf reading (settlementRows reading wanted)) ↔
      (∃ s, ledger.Settlement workspaceId a s ∧ s.effectIntentId = intent) ∧
        ledger.Latest workspaceId a := by
  rw [mem_endsOf]
  constructor
  · rintro ⟨⟨r, hr, hwalk⟩, hnone⟩
    obtain ⟨⟨o, hget⟩, -⟩ := mem_roots.1 hr
    obtain ⟨s, hs, hintent, -⟩ := (get_outcomesOf hsound hwanted).1 hget
    obtain ⟨t, ht, hsame⟩ :=
      ((leads_of_walk hsound hwanted hs hintent).1 hwalk).settlement hsound hs
    refine ⟨⟨t, ht, hsame.trans hintent⟩, fun b hlink => ?_⟩
    have hread : (a, b) ∈ linksOf reading (settlementRows reading wanted) :=
      (mem_linksOf_settlement hwanted ht (hsame.trans hintent)).2 hlink
    have hmem := mem_successors.2 hread
    rw [hnone] at hmem
    exact List.not_mem_nil hmem
  · rintro ⟨⟨t, ht, hintent⟩, hlatest⟩
    obtain ⟨r, hunlinked, hleads⟩ := hground.root workspaceId a t ht
    obtain ⟨s, hs, hsame⟩ := hleads.settlement_of hsound ht
    refine ⟨⟨r, mem_roots.2 ⟨⟨s.outcome, ?_⟩, ?_⟩, ?_⟩, ?_⟩
    · exact (get_outcomesOf hsound hwanted).2 ⟨s, hs, hsame.trans hintent, rfl⟩
    · exact fun b hlink => hunlinked b (mem_linksOf.1 hlink).1
    · exact (leads_of_walk hsound hwanted hs (hsame.trans hintent)).2 hleads
    · refine List.eq_nil_iff_forall_not_mem.2 fun b hb => ?_
      exact hlatest b (mem_linksOf.1 (mem_successors.1 hb)).1

omit hground in
theorem headOf_of_end {s : EffectSettlement} (hs : ledger.Settlement workspaceId h s)
    (hintent : s.effectIntentId = intent) (hknown : s.outcome ≠ .unknown)
    (hends : endsOf (outcomesOf (settlementRows reading wanted) intent)
      (linksOf reading (settlementRows reading wanted)) = [h]) :
    headOf reading wanted intent = settledHead intent h s.outcome := by
  have hget : (outcomesOf (settlementRows reading wanted) intent).get h = some s.outcome :=
    (get_outcomesOf hsound hwanted).2 ⟨s, hs, hintent, rfl⟩
  have hsome : (outcomesOf (settlementRows reading wanted) intent).entries ≠ [] :=
    List.ne_nil_of_mem (Dict.get_eq_some.1 hget)
  have hmem : s.outcome ∈ SETTLED_EFFECT_OUTCOMES := by
    cases houtcome : s.outcome with
    | committed => decide
    | notCommitted => decide
    | unknown => exact absurd houtcome hknown
  unfold headOf resolve
  rw [if_neg hsome, hends]
  dsimp only
  rw [hget]
  dsimp only
  rw [if_pos hmem]
  rfl

/-- An answer that was given stays an end: the head names it, or the chain is branched. -/
theorem headOf_of_known {s : EffectSettlement} (hs : ledger.Settlement workspaceId h s)
    (hintent : s.effectIntentId = intent) (hknown : s.outcome ≠ .unknown) :
    headOf reading wanted intent = settledHead intent h s.outcome ∨
      headOf reading wanted intent = branchedHead intent := by
  have hget : (outcomesOf (settlementRows reading wanted) intent).get h = some s.outcome :=
    (get_outcomesOf hsound hwanted).2 ⟨s, hs, hintent, rfl⟩
  have hsome : (outcomesOf (settlementRows reading wanted) intent).entries ≠ [] :=
    List.ne_nil_of_mem (Dict.get_eq_some.1 hget)
  have hend := (mem_ends_iff reading hsound hground hwanted).2
    ⟨⟨s, hs, hintent⟩, EffectLedger.latest_of_known hsound hs hknown⟩
  by_cases hends : endsOf (outcomesOf (settlementRows reading wanted) intent)
      (linksOf reading (settlementRows reading wanted)) = [h]
  · exact .inl (headOf_of_end hsound hwanted hs hintent hknown hends)
  · refine .inr ?_
    unfold headOf resolve
    rw [if_neg hsome]
    split
    · next head hhead =>
      rw [hhead, List.mem_singleton] at hend
      exact absurd (hend ▸ hhead) hends
    · rfl

/-- The head is settled exactly when every settlement leads to one answer. -/
theorem headOf_eq_settled_iff :
    headOf reading wanted intent = settledHead intent h o ↔
      ledger.SettledWith workspaceId intent h o := by
  constructor
  · intro hhead
    unfold headOf resolve settledHead at hhead
    split at hhead
    · cases hhead
    · split at hhead
      · next head hends =>
        split at hhead
        · cases hhead
        · next outcome hget =>
          split at hhead
          · next hsettled =>
            obtain ⟨rfl, rfl⟩ : head = h ∧ outcome = o := by
              simpa using hhead
            refine ⟨?_, (get_outcomesOf hsound hwanted).1 hget, ?_⟩
            · rintro rfl
              exact absurd hsettled (by decide)
            · intro id s hs hintent
              obtain ⟨l, hlatest, hleads⟩ := hground.latest workspaceId id s hs
              obtain ⟨t, ht, hsame⟩ := hleads.settlement hsound hs
              have hend := (mem_ends_iff reading hsound hground hwanted).2
                ⟨⟨t, ht, hsame.trans hintent⟩, hlatest⟩
              rw [hends, List.mem_singleton] at hend
              exact hend ▸ hleads
          · cases hhead
      · cases hhead
  · rintro ⟨hknown, ⟨s, hs, hintent, rfl⟩, hall⟩
    refine headOf_of_end hsound hwanted hs hintent hknown ?_
    have hend := (mem_ends_iff reading hsound hground hwanted).2
      ⟨⟨s, hs, hintent⟩, EffectLedger.latest_of_known hsound hs hknown⟩
    -- an end leads to the answer and nothing supersedes it
    have honly : ∀ x ∈ endsOf (outcomesOf (settlementRows reading wanted) intent)
        (linksOf reading (settlementRows reading wanted)), x = h := by
      intro x hx
      obtain ⟨⟨t, ht, htintent⟩, hlatest⟩ := (mem_ends_iff reading hsound hground hwanted).1 hx
      exact hlatest.eq (hall x t ht htintent)
    exact List.perm_singleton.1
      ((List.perm_ext_iff_of_nodup nodup_endsOf (List.nodup_singleton h)).2 fun x =>
        ⟨fun hx => List.mem_singleton.2 (honly x hx), fun hx => List.mem_singleton.1 hx ▸ hend⟩)

end Grounded

/-! ## Every ledger whose links close no cycle -/

/-- A head is settled, unresolved or branched, and settled only by naming an answer. -/
theorem headOf_settled (h : (headOf reading wanted intent).resolution = .settled) :
    ∃ id o, headOf reading wanted intent = settledHead intent id o := by
  unfold headOf resolve at h ⊢
  split
  · next hempty =>
    rw [if_pos hempty] at h
    cases h
  · next hempty =>
    rw [if_neg hempty] at h
    split
    · next head hends =>
      rw [hends] at h
      dsimp only at h
      split
      · next hget =>
        rw [hget] at h
        cases h
      · next outcome hget =>
        rw [hget] at h
        dsimp only at h
        refine ⟨head, outcome, ?_⟩
        rw [h]
        rfl
    · next hends =>
      split at h
      · next head hhead => exact absurd hhead (hends head)
      · cases h

/-- What a read owes one intent, and every later one: the head is settled with an answer exactly when every
settlement of the intent leads to it, otherwise it is branched or unresolved, and after more rows it is
the same answer or a branch. -/
def ReadsExactly (ledger : EffectLedger) (workspaceId intent : String) (head laterHead : EffectHead) :
    Prop :=
  (∀ h o, head = settledHead intent h o ↔ ledger.SettledWith workspaceId intent h o) ∧
    ((¬∃ h o, ledger.SettledWith workspaceId intent h o) →
      head.resolution = .branched ∨ head.resolution = .unresolved) ∧
    ∀ h o, head = settledHead intent h o →
      laterHead = settledHead intent h o ∨ laterHead = branchedHead intent

/-- Along every run that closes no cycle, heads are exact and do not depend on the order of rows. -/
theorem read_effect_heads_exact {first second : List EffectAppend}
    (h : Along EffectLedger.append (fun ledger label => ¬ledger.Closes label) .empty (first ++ second))
    (reading reading' : EffectReading (run EffectLedger.append .empty first) workspaceId)
    (later : EffectReading (run EffectLedger.append .empty (first ++ second)) workspaceId)
    {intents intents' : List String} (hintent : intent ∈ intents) (hintent' : intent ∈ intents') :
    readEffectHeads reading intents = readEffectHeads reading' intents ∧
      ∃ head laterHead, (readEffectHeads reading intents).get intent = some head ∧
        (readEffectHeads later intents').get intent = some laterHead ∧
          ReadsExactly (run EffectLedger.append .empty first) workspaceId intent head laterHead := by
  have hsound := EffectLedger.sound_run first
  have hlater := EffectLedger.sound_run (first ++ second)
  have hground := EffectLedger.grounded_run (along_append.1 h).1
  have hlaterGround := EffectLedger.grounded_run h
  have hwanted := mem_firstsBy_id.2 hintent
  have hwanted' := mem_firstsBy_id.2 hintent'
  refine ⟨readEffectHeads_order hsound reading' intents, _, _, get_readEffectHeads hintent,
    get_readEffectHeads hintent', ?_, ?_, ?_⟩
  · exact fun id o => headOf_eq_settled_iff hsound hground hwanted
  · intro hnone
    cases hresolution : (headOf reading (firstsBy id [] intents) intent).resolution with
    | settled =>
      obtain ⟨id, o, hhead⟩ := headOf_settled hresolution
      exact absurd ⟨id, o, (headOf_eq_settled_iff hsound hground hwanted).1 hhead⟩ hnone
    | unresolved => exact .inr hresolution
    | branched => exact .inl hresolution
  · intro id o hhead
    obtain ⟨hknown, ⟨s, hs, hsintent, rfl⟩, -⟩ :=
      (headOf_eq_settled_iff hsound hground hwanted).1 hhead
    have hextends : (run EffectLedger.append .empty (first ++ second)).Extends
        (run EffectLedger.append .empty first) := by
      rw [run_append]
      exact EffectLedger.extends_run second
    exact headOf_of_known hlater hlaterGround hwanted' ⟨hextends.settlements s hs.1, hs.2⟩ hsintent hknown

/-! Rows of one intent `i`, all settled at one instant. -/

def settle (id : String) (outcome : SettlementOutcome) (receipt : Option String) : EffectAppend :=
  ⟨.settlement ⟨"w", id, "run", "i", outcome, receipt, 5⟩, true⟩

def reconcile (id source : String) (outcome : ReconciliationOutcome) (receipt : Option String)
    (result : String) : EffectAppend :=
  ⟨.reconciliation ⟨"w", id, "run", "i", source, outcome, receipt, result, 5⟩, true⟩

/-- An effect that was observed, and committed. -/
def observed : List EffectAppend :=
  [⟨.intent ⟨"w", "i", "run", "key", 1⟩, true⟩, ⟨.receipt ⟨"w", "r", "run", "i", 4⟩, true⟩,
    settle "c" .committed (some "r")]

/-- An effect that was not observed, reconciled to what had happened. -/
def reconciled : List EffectAppend :=
  [settle "u" .unknown none, reconcile "l" "u" .applied (some "r") "c"]

theorem read_effect_heads_exact_reconciled :
    ∃ head laterHead,
      (readEffectHeads (.inOrder (run EffectLedger.append .empty observed) "w") ["i"]).get "i" =
          some head ∧
        (readEffectHeads (.inOrder (run EffectLedger.append .empty (observed ++ reconciled)) "w")
          ["i"]).get "i" = some laterHead ∧
        ReadsExactly (run EffectLedger.append .empty observed) "w" "i" head laterHead := by
  have hlatest : EffectLedger.Latest (run EffectLedger.append .empty (observed ++ reconciled.take 1)) "w"
      "c" := by
    rintro b ⟨r, hr, -⟩
    cases hr
  have hopen : Along EffectLedger.append (fun ledger label => ¬ledger.Closes label) .empty
      (observed ++ reconciled) := by
    refine ⟨fun h => h.2, fun h => h.2, fun h => h.2, fun h => h.2, fun h => ?_, trivial⟩
    exact absurd (hlatest.eq h.2) (by decide)
  exact (read_effect_heads_exact hopen _ (.inOrder _ _) _ (List.mem_singleton.2 rfl)
    (List.mem_singleton.2 rfl)).2

/-- Two unknown settlements that supersede each other, the committed one as the result of one of them, and
an answer on its own. -/
def detached : List EffectAppend :=
  [settle "a" .unknown none, settle "b" .unknown none, reconcile "l1" "a" .unknown none "b",
    reconcile "l2" "b" .unknown none "a", reconcile "l3" "a" .applied (some "r") "c",
    settle "e" .notCommitted none]

/-- A cycle of unknown settlements of one instant is admitted, and turns the answer of a read into its
opposite. -/
theorem detached_cycle_misread :
    (run EffectLedger.append .empty (observed ++ detached)).reconciliations.length = 3 ∧
      (readEffectHeads (.inOrder (run EffectLedger.append .empty observed) "w") ["i"]).get "i" =
        some (settledHead "i" "c" .committed) ∧
      (readEffectHeads (.inOrder (run EffectLedger.append .empty (observed ++ detached)) "w") ["i"]).get
        "i" = some (settledHead "i" "e" .notCommitted) ∧
      ¬(run EffectLedger.append .empty (observed ++ detached)).SettledWith "w" "i" "e" .notCommitted := by
  refine ⟨by decide +kernel, by decide +kernel, by decide +kernel, ?_⟩
  rintro ⟨-, -, hall⟩
  have hleads := hall "a" ⟨"w", "a", "run", "i", .unknown, none, 5⟩
    ⟨by decide +kernel, rfl, rfl⟩ rfl
  rcases Relation.ReflTransGen.cases_tail hleads with heq | ⟨x, -, r, hr, -, -, hresult⟩
  · exact absurd heq (by decide)
  · have hnone : ∀ r ∈ (run EffectLedger.append .empty (observed ++ detached)).reconciliations,
        r.resultingEffectSettlementId ≠ "e" := by decide +kernel
    exact hnone r hr hresult

end OmniviaCore.Effects
