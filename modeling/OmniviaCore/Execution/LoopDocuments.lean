import OmniviaCore.Execution.LoopRecords
import OmniviaCore.CanonicalJson.Documents

/-!
# The canonical document of a ledger

`loop_ledger_document` and `loop_ledger_from_document` of `execution/loop.py`, over the values the
canonicalizer writes and the parser reads. A document is a closed mapping, and every value of it is
built by the constructor a live runner builds it with. A document that was written, in whatever order
its members come back, is read as the ledger it was made of (`loopLedgerFromDocument_reread`).
-/

namespace OmniviaCore.Execution.Loop

open Lib CanonicalJson

/-! ## Values -/

def optionalText : Option String → Value
  | none => .none
  | some s => textValue s

def optionalCount : Option Int → Value
  | none => .none
  | some n => .int n

/-! ## Readers -/

def invalidDocument (message : String) : ExecutionError := .contract "invalid_document" message

/-- `_member`. -/
def member (fields : List (Key × Value)) (key label : String) : Except ExecutionError Value :=
  match lookup fields key.toList with
  | some value => .ok value
  | none => .error (invalidDocument s!"{label} is missing {key}")

def unknownMembers (fields : List (Key × Value)) (allowed : List String) : List String :=
  (fields.filter fun m => m.1 ∉ allowed.map fun key => Key.name (ofChars key.toList)).map
    fun m => Key.spelling m.1

/-- `_document`. -/
def document (value : Value) (label : String) (allowed : List String) :
    Except ExecutionError (List (Key × Value)) :=
  match value with
  | .mapping fields => do
    let unknown := (sortBy id (unknownMembers fields allowed)).map quoted
    let listed := ", ".intercalate unknown
    require (unknown = []) (invalidDocument s!"{label} carries unknown members [{listed}]")
    pure fields
  | _ => .error (invalidDocument s!"{label} is not a mapping")

/-- `_text`. -/
def text (fields : List (Key × Value)) (key label : String) : Except ExecutionError String := do
  match ← member fields key label with
  | .str s => pure (spelling s)
  | _ => .error (invalidDocument s!"{label}.{key} is not a string")

/-- `_optional_text`. -/
def readOptionalText (fields : List (Key × Value)) (key label : String) :
    Except ExecutionError (Option String) := do
  match ← member fields key label with
  | .none => pure none
  | .str s => pure (some (spelling s))
  | _ => .error (invalidDocument s!"{label}.{key} is not a string or null")

/-- `_flag`. -/
def flag (fields : List (Key × Value)) (key label : String) : Except ExecutionError Bool := do
  match ← member fields key label with
  | .bool b => pure b
  | _ => .error (invalidDocument s!"{label}.{key} is not a boolean")

/-- `_count`. -/
def count (fields : List (Key × Value)) (key label : String) : Except ExecutionError Int := do
  match ← member fields key label with
  | .int n => pure n
  | _ => .error (invalidDocument s!"{label}.{key} is not an integer")

/-- `_optional_count`. -/
def readOptionalCount (fields : List (Key × Value)) (key label : String) :
    Except ExecutionError (Option Int) := do
  match ← member fields key label with
  | .none => pure none
  | .int n => pure (some n)
  | _ => .error (invalidDocument s!"{label}.{key} is not an integer or null")

/-- `_array`. -/
def array (fields : List (Key × Value)) (key label : String) : Except ExecutionError (List Value) := do
  match ← member fields key label with
  | .sequence items => pure items
  | _ => .error (invalidDocument s!"{label}.{key} is not an array")

/-- One entry of `_texts`. -/
def textItem (key label : String) (value : Value) (index : Nat) : Except ExecutionError String :=
  match value with
  | .str s => pure (spelling s)
  | _ => .error (invalidDocument s!"{label}.{key}[{index}] is not a string")

/-- What is read of each of some values, with its index. -/
def eachIndexed {α : Type} (read : Value → Nat → Except ExecutionError α) (values : List Value) :
    Except ExecutionError (List α) :=
  values.zipIdx.mapM fun p => read p.1 p.2

/-- `_texts`. -/
def texts (fields : List (Key × Value)) (key label : String) : Except ExecutionError (List String) := do
  let values ← array fields key label
  eachIndexed (textItem key label) values

/-! ## Documents -/

def LOOP_LEDGER_SCHEMA_VERSION : String := "1.0.0"

/-- `_LEDGER_MEMBERS`. -/
def LEDGER_MEMBERS : List String :=
  ["ledgerSchemaVersion", "cancellationRequested", "entries", "lateResults"]

/-- `_ENTRY_MEMBERS`. -/
def ENTRY_MEMBERS : List String :=
  ["iterationIdentity", "ordinal", "inputsDigest", "carryDigest", "schedulingIntents", "outcome",
    "outputsDigest", "failureReason", "settlementSequence", "effectSettlements",
    "cancellationDisposition", "resultingCarryDigest"]

/-- `_SETTLEMENT_MEMBERS`. -/
def SETTLEMENT_MEMBERS : List String :=
  ["effectRequestId", "settlementClass", "completionContribution", "verifiedReceiptRef"]

/-- `_LATE_MEMBERS`. -/
def LATE_MEMBERS : List String := ["iterationIdentity", "evidenceRef", "appliedToRunState"]

def settlementMembers (settlement : EffectSettlement) : List (String × Value) :=
  [("effectRequestId", textValue settlement.val.effectRequestId),
    ("settlementClass", textValue settlement.val.settlementClass.name),
    ("completionContribution", textValue settlement.val.completionContribution),
    ("verifiedReceiptRef", optionalText settlement.val.verifiedReceiptRef)]

/-- `_settlement_document`. -/
def settlementDocument (settlement : EffectSettlement) : Value := mappingOf (settlementMembers settlement)

def entryMembers (entry : IterationLedgerEntry) : List (String × Value) :=
  [("iterationIdentity", textValue entry.val.iterationIdentity),
    ("ordinal", .int entry.val.ordinal),
    ("inputsDigest", textValue entry.val.inputsDigest),
    ("carryDigest", optionalText entry.val.carryDigest),
    ("schedulingIntents", .sequence (entry.val.schedulingIntents.map textValue)),
    ("outcome", optionalText (entry.val.outcome.map IterationOutcome.name)),
    ("outputsDigest", optionalText entry.val.outputsDigest),
    ("failureReason", optionalText entry.val.failureReason),
    ("settlementSequence", optionalCount entry.val.settlementSequence),
    ("effectSettlements", .sequence (entry.val.effectSettlements.map settlementDocument)),
    ("cancellationDisposition", optionalText entry.val.cancellationDisposition),
    ("resultingCarryDigest", optionalText entry.val.resultingCarryDigest)]

/-- `_entry_document`. -/
def entryDocument (entry : IterationLedgerEntry) : Value := mappingOf (entryMembers entry)

def lateMembers (late : LateResult) : List (String × Value) :=
  [("iterationIdentity", textValue late.val.iterationIdentity),
    ("evidenceRef", textValue late.val.evidenceRef),
    ("appliedToRunState", .bool late.val.appliedToRunState)]

def lateDocument (late : LateResult) : Value := mappingOf (lateMembers late)

def ledgerMembers (ledger : LoopLedger) : List (String × Value) :=
  [("ledgerSchemaVersion", textValue LOOP_LEDGER_SCHEMA_VERSION),
    ("cancellationRequested", .bool ledger.cancellationRequested),
    ("entries", .sequence (ledger.entries.map entryDocument)),
    ("lateResults", .sequence (ledger.lateResults.map lateDocument))]

/-- `loop_ledger_document`. -/
def loopLedgerDocument (ledger : LoopLedger) : Value := mappingOf (ledgerMembers ledger)

/-! ## Reading a document -/

/-- `_settlement_from_document`. -/
def settlementFromDocument (value : Value) (label : String) : Except ExecutionError EffectSettlement := do
  let fields ← document value label SETTLEMENT_MEMBERS
  let effectRequestId ← text fields "effectRequestId" label
  let settlementClass ← text fields "settlementClass" label
  let completionContribution ← text fields "completionContribution" label
  let verifiedReceiptRef ← readOptionalText fields "verifiedReceiptRef" label
  EffectSettlement.construct effectRequestId settlementClass completionContribution verifiedReceiptRef

/-- `_late_from_document`. -/
def lateFromDocument (value : Value) (label : String) : Except ExecutionError LateResult := do
  let fields ← document value label LATE_MEMBERS
  let iterationIdentity ← text fields "iterationIdentity" label
  let evidenceRef ← text fields "evidenceRef" label
  let appliedToRunState ← flag fields "appliedToRunState" label
  Validated.build LateMembers.postInit { iterationIdentity, evidenceRef, appliedToRunState }

/-- `_entry_from_document`. -/
def entryFromDocument (value : Value) (label : String) : Except ExecutionError IterationLedgerEntry := do
  let fields ← document value label ENTRY_MEMBERS
  let iterationIdentity ← text fields "iterationIdentity" label
  let ordinal ← count fields "ordinal" label
  let inputsDigest ← text fields "inputsDigest" label
  let carryDigest ← readOptionalText fields "carryDigest" label
  let schedulingIntents ← texts fields "schedulingIntents" label
  let outcome ← readOptionalText fields "outcome" label
  let outputsDigest ← readOptionalText fields "outputsDigest" label
  let failureReason ← readOptionalText fields "failureReason" label
  let settlementSequence ← readOptionalCount fields "settlementSequence" label
  let values ← array fields "effectSettlements" label
  let effectSettlements ← eachIndexed
    (fun value index => settlementFromDocument value s!"{label}.effectSettlements[{index}]") values
  let cancellationDisposition ← readOptionalText fields "cancellationDisposition" label
  let resultingCarryDigest ← readOptionalText fields "resultingCarryDigest" label
  IterationLedgerEntry.construct
    { iterationIdentity, ordinal, inputsDigest, carryDigest, schedulingIntents, outcome := none,
      outputsDigest, failureReason, settlementSequence, effectSettlements, cancellationDisposition,
      resultingCarryDigest } outcome

/-- `loop_ledger_from_document`. -/
def loopLedgerFromDocument (value : Value) : Except ExecutionError LoopLedger := do
  let label := "LoopLedgerDocument"
  let fields ← document value label LEDGER_MEMBERS
  let version ← text fields "ledgerSchemaVersion" label
  require (version = LOOP_LEDGER_SCHEMA_VERSION) (.contract "unsupported_schema_version"
    s!"{label}.ledgerSchemaVersion {quoted version} is not {LOOP_LEDGER_SCHEMA_VERSION}")
  let entryValues ← array fields "entries" label
  let entries ← eachIndexed
    (fun value index => entryFromDocument value s!"{label}.entries[{index}]") entryValues
  let lateValues ← array fields "lateResults" label
  let lateResults ← eachIndexed
    (fun value index => lateFromDocument value s!"{label}.lateResults[{index}]") lateValues
  let cancellationRequested ← flag fields "cancellationRequested" label
  pure { entries, cancellationRequested, lateResults }

/-! ## A document that comes back -/

/-- A mapping in canonical order is closed over the names it was written with, and has the members it
was written with. -/
theorem reread_mapping (members : List (String × Value)) (allowed : List String)
    (nodup : (members.map Prod.fst).Nodup) (hallowed : ∀ m ∈ members, m.1 ∈ allowed) :
    ∃ fields, (∀ label, document (canonicalOrder (mappingOf members)) label allowed = .ok fields) ∧
      ∀ m ∈ members, ∀ label, member fields m.1 label = .ok (canonicalOrder m.2) := by
  rw [mappingOf_eq, canonicalOrder_mapping]
  refine ⟨(sortBy (fun m : List Char × Value => utf16Key m.1)
    (members.map fun m => (m.1.toList, m.2))).map fun m => withName (m.1, canonicalOrder m.2),
    fun label => ?_, fun m hm label => ?_⟩
  · have hunknown : unknownMembers ((sortBy (fun m : List Char × Value => utf16Key m.1)
        (members.map fun m => (m.1.toList, m.2))).map fun m => withName (m.1, canonicalOrder m.2))
          allowed = [] := by
      rw [unknownMembers, List.map_eq_nil_iff, List.filter_eq_nil_iff]
      intro field hfield
      obtain ⟨named, hnamed, rfl⟩ := List.mem_map.1 hfield
      obtain ⟨m, hm, rfl⟩ := List.mem_map.1 (mem_sortBy.1 hnamed)
      rw [decide_eq_true_eq, not_not]
      exact List.mem_map_of_mem (hallowed m hm)
    simp only [document, hunknown]
    rfl
  · rw [member, lookup_canonicalOrder (nodup_toList nodup) (List.mem_map_of_mem hm)]

section Readers

variable {fields : List (Key × Value)} {key label : String}

theorem text_eq_ok {s : String} (h : member fields key label = .ok (canonicalOrder (textValue s))) :
    text fields key label = .ok s := by
  rw [text, h]
  exact congrArg Except.ok (spelling_ofChars s)

theorem readOptionalText_eq_ok {value : Option String}
    (h : member fields key label = .ok (canonicalOrder (optionalText value))) :
    readOptionalText fields key label = .ok value := by
  rw [readOptionalText, h]
  cases value with
  | none => rfl
  | some s => exact congrArg (fun s => Except.ok (some s)) (spelling_ofChars s)

theorem flag_eq_ok {b : Bool} (h : member fields key label = .ok (canonicalOrder (.bool b))) :
    flag fields key label = .ok b := by
  rw [flag, h]
  rfl

theorem count_eq_ok {n : Int} (h : member fields key label = .ok (canonicalOrder (.int n))) :
    count fields key label = .ok n := by
  rw [count, h]
  rfl

theorem readOptionalCount_eq_ok {value : Option Int}
    (h : member fields key label = .ok (canonicalOrder (optionalCount value))) :
    readOptionalCount fields key label = .ok value := by
  rw [readOptionalCount, h]
  cases value <;> rfl

theorem array_eq_ok {items : List Value}
    (h : member fields key label = .ok (canonicalOrder (.sequence items))) :
    array fields key label = .ok (items.map canonicalOrder) := by
  rw [array, h, canonicalOrder, orderItems_eq]
  rfl

/-- What each value is read as, wherever it stands. -/
theorem eachIndexed_eq_ok {α : Type} {read : Value → Nat → Except ExecutionError α} {write : α → Value}
    {values : List α}
    (h : ∀ a ∈ values, ∀ index, read (canonicalOrder (write a)) index = .ok a) :
    eachIndexed read ((values.map write).map canonicalOrder) = .ok values := by
  rw [eachIndexed, mapM_eq_ok]
  have hfrom : ∀ n, List.Forall₂ (fun p a => read p.1 p.2 = .ok a)
      (((values.map write).map canonicalOrder).zipIdx n) values := by
    induction values with
    | nil => exact fun n => .nil
    | cons a values ih =>
      intro n
      exact .cons (h a List.mem_cons_self n) (ih (fun b hb => h b (List.mem_cons_of_mem _ hb)) (n + 1))
  exact hfrom 0

theorem texts_eq_ok {values : List String}
    (h : member fields key label = .ok (canonicalOrder (.sequence (values.map textValue)))) :
    texts fields key label = .ok values := by
  rw [texts, array_eq_ok h]
  exact eachIndexed_eq_ok fun s _ index => congrArg Except.ok (spelling_ofChars s)

end Readers

/-! ### Settlements, late results and entries -/

theorem construct_settlement (settlement : EffectSettlement) :
    EffectSettlement.construct settlement.val.effectRequestId settlement.val.settlementClass.name
      settlement.val.completionContribution settlement.val.verifiedReceiptRef = .ok settlement := by
  have haccepted := settlement.accepted
  simp only [SettlementMembers.postInit, bind_eq_ok, exists_unit] at haccepted
  simp only [EffectSettlement.construct, bind_eq_ok, exists_unit, SettlementClass.require_name,
    Except.ok.injEq, exists_eq_left', Validated.build_eq_ok]
  exact ⟨haccepted.1, trivial⟩

theorem construct_entry (entry : IterationLedgerEntry) :
    IterationLedgerEntry.construct { entry.val with outcome := none }
      (entry.val.outcome.map IterationOutcome.name) = .ok entry := by
  have hshaped := (EntryMembers.postInit_eq_ok.1 entry.accepted).1
  have hoption : (entry.val.outcome.map IterationOutcome.name).mapM (IterationOutcome.require "outcome") =
      .ok entry.val.outcome := by
    cases entry.val.outcome with
    | none => rfl
    | some outcome =>
      show (do let o ← IterationOutcome.require "outcome" outcome.name; pure (some o)) = _
      rw [IterationOutcome.require_name]
      rfl
  simp only [IterationLedgerEntry.construct, bind_eq_ok, exists_unit, hoption, Except.ok.injEq,
    exists_eq_left', Validated.build_eq_ok, and_true]
  exact EntryMembers.checkShape_eq_ok.2 ⟨hshaped.1, hshaped.2, hshaped.3, hshaped.4, hshaped.5,
    hshaped.6, hshaped.7, hshaped.8, hshaped.9, hshaped.10⟩

theorem settlementFromDocument_reread (settlement : EffectSettlement) (label : String) :
    settlementFromDocument (canonicalOrder (settlementDocument settlement)) label = .ok settlement := by
  obtain ⟨fields, hdocument, hmember⟩ := reread_mapping (settlementMembers settlement) SETTLEMENT_MEMBERS
    (show SETTLEMENT_MEMBERS.Nodup by decide) (by simp [settlementMembers, SETTLEMENT_MEMBERS])
  simp only [settlementMembers, List.forall_mem_cons] at hmember
  obtain ⟨hrequest, hclass, hcontribution, hreceipt, -⟩ := hmember
  simp only [settlementFromDocument, settlementDocument, hdocument label, text_eq_ok (hrequest label),
    text_eq_ok (hclass label), text_eq_ok (hcontribution label), readOptionalText_eq_ok (hreceipt label),
    ok_bind]
  exact construct_settlement settlement

theorem lateFromDocument_reread (late : LateResult) (label : String) :
    lateFromDocument (canonicalOrder (lateDocument late)) label = .ok late := by
  obtain ⟨fields, hdocument, hmember⟩ := reread_mapping (lateMembers late) LATE_MEMBERS
    (show LATE_MEMBERS.Nodup by decide) (by simp [lateMembers, LATE_MEMBERS])
  simp only [lateMembers, List.forall_mem_cons] at hmember
  obtain ⟨hidentity, hevidence, happlied, -⟩ := hmember
  simp only [lateFromDocument, lateDocument, hdocument label, text_eq_ok (hidentity label),
    text_eq_ok (hevidence label), flag_eq_ok (happlied label), ok_bind]
  exact Validated.build_accepted late.accepted

theorem entryFromDocument_reread (entry : IterationLedgerEntry) (label : String) :
    entryFromDocument (canonicalOrder (entryDocument entry)) label = .ok entry := by
  obtain ⟨fields, hdocument, hmember⟩ := reread_mapping (entryMembers entry) ENTRY_MEMBERS
    (show ENTRY_MEMBERS.Nodup by decide) (by simp [entryMembers, ENTRY_MEMBERS])
  simp only [entryMembers, List.forall_mem_cons] at hmember
  obtain ⟨hidentity, hordinal, hinputs, hcarry, hintents, houtcome, houtputs, hfailure, hsequence,
    heffects, hdisposition, hresulting, -⟩ := hmember
  have hsettlements : ∀ l : String, eachIndexed
      (fun value index => settlementFromDocument value s!"{l}.effectSettlements[{index}]")
      ((entry.val.effectSettlements.map settlementDocument).map canonicalOrder) =
        .ok entry.val.effectSettlements := fun l =>
    eachIndexed_eq_ok fun settlement _ index => settlementFromDocument_reread settlement _
  simp only [entryFromDocument, entryDocument, hdocument label, text_eq_ok (hidentity label),
    count_eq_ok (hordinal label), text_eq_ok (hinputs label), readOptionalText_eq_ok (hcarry label),
    texts_eq_ok (hintents label), readOptionalText_eq_ok (houtcome label),
    readOptionalText_eq_ok (houtputs label), readOptionalText_eq_ok (hfailure label),
    readOptionalCount_eq_ok (hsequence label), array_eq_ok (heffects label), hsettlements label,
    readOptionalText_eq_ok (hdisposition label), readOptionalText_eq_ok (hresulting label), ok_bind]
  exact construct_entry entry

/-- The document of a ledger that comes back in canonical order is read as the ledger. -/
theorem loopLedgerFromDocument_reread (ledger : LoopLedger) :
    loopLedgerFromDocument (canonicalOrder (loopLedgerDocument ledger)) = .ok ledger := by
  obtain ⟨fields, hdocument, hmember⟩ := reread_mapping (ledgerMembers ledger) LEDGER_MEMBERS
    (show LEDGER_MEMBERS.Nodup by decide) (by simp [ledgerMembers, LEDGER_MEMBERS])
  simp only [ledgerMembers, List.forall_mem_cons] at hmember
  obtain ⟨hversion, hcancelled, hentries, hlate, -⟩ := hmember
  have hentryList : ∀ l : String, eachIndexed
      (fun value index => entryFromDocument value s!"{l}.entries[{index}]")
      ((ledger.entries.map entryDocument).map canonicalOrder) = .ok ledger.entries := fun l =>
    eachIndexed_eq_ok fun entry _ index => entryFromDocument_reread entry _
  have hlateList : ∀ l : String, eachIndexed
      (fun value index => lateFromDocument value s!"{l}.lateResults[{index}]")
      ((ledger.lateResults.map lateDocument).map canonicalOrder) = .ok ledger.lateResults := fun l =>
    eachIndexed_eq_ok fun late _ index => lateFromDocument_reread late _
  simp only [loopLedgerFromDocument, loopLedgerDocument, hdocument, text_eq_ok (hversion _), require_pos,
    array_eq_ok (hentries _), hentryList, array_eq_ok (hlate _), hlateList, flag_eq_ok (hcancelled _),
    ok_bind]
  rfl

end OmniviaCore.Execution.Loop
