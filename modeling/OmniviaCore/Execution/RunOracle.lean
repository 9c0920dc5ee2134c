import OmniviaCore.Lib.Dict
import OmniviaCore.Lib.Machine
import OmniviaCore.Execution.WorkflowMaterialisation

/-!
# Observing a plan

`RunOracle.observe_plan` of `execution/workflow.py` routes the steps of a materialised workflow one by
one, and records each before it looks at the next. A call that returns has recorded exactly the steps
that were not recorded (`observeSteps_returns`), and a repeated call records nothing more. A call that
raises keeps what it recorded before the step it refused, so it leaves the oracle as it was exactly
when it had nothing to record before that step.
-/

namespace OmniviaCore.Execution.Workflow

open Lib CanonicalJson

/-! ## Routing -/

/-- `ROUTES`. -/
inductive Route where
  | agent
  | childWorkflow
  | deterministic
  | effect
  | wait
  deriving DecidableEq

def Route.text : Route → String
  | .agent => "AGENT"
  | .childWorkflow => "CHILD_WORKFLOW"
  | .deterministic => "DETERMINISTIC"
  | .effect => "EFFECT"
  | .wait => "WAIT"

/-- The route an execution class is, under its own name. -/
def ExecutionClass.route : ExecutionClass → Route
  | .agent => .agent
  | .deterministic => .deterministic
  | .effect => .effect
  | .wait => .wait

/-- `RouteDecision`; a proposal, which is never inspected, is a `P`. -/
structure RouteDecision (P : Type) where
  route : Route
  stepId : String
  effectProposal : Option P

variable {P : Type}

def unexpectedEffectProposal : ExecutionError :=
  .contract "unexpected_effect_proposal" "only an EFFECT step may carry an effect proposal"

/-- `StepRouter.route`. -/
def StepRouter.route (step : MaterialisedStep) (effectProposal : Option P) :
    Except ExecutionError (RouteDecision P) :=
  if step.childWorkflow.isSome then do
    require (effectProposal.isNone = true) unexpectedEffectProposal
    pure ⟨.childWorkflow, step.stepId, none⟩
  else if step.executionClass = .effect then
    pure ⟨.effect, step.stepId, effectProposal⟩
  else do
    require (effectProposal.isNone = true) unexpectedEffectProposal
    pure ⟨step.executionClass.route, step.stepId, none⟩

/-! ## The oracle -/

/-- `PlanObservation`. -/
structure PlanObservation where
  runId : String
  workflowHash : String
  stepId : String
  route : Route
  sequenceIndex : Nat

/-- `BranchObservation`. -/
structure BranchObservation where
  runId : String
  stepId : String
  outcome : String
  reason : String

/-- `RunOracle`. -/
structure RunOracle (P : Type) where
  runId : String
  plan : Dict String PlanObservation
  branches : Dict String BranchObservation
  residualEffects : List P
  fence : Nat
  cancelled : Bool

section

variable (sha256 : List UInt8 → String)

/-- `PlanObservation.key`. -/
def PlanObservation.key (observation : PlanObservation) : String :=
  deriveId sha256 ["plan_observation", observation.runId, observation.workflowHash,
    observation.stepId, observation.route.text, toString observation.sequenceIndex]

/-- What is recorded for a step that is not recorded. -/
def RunOracle.record (oracle : RunOracle P) (observation : PlanObservation)
    (decision : RouteDecision P) : RunOracle P :=
  { oracle with
    plan := oracle.plan.set observation.stepId observation
    residualEffects := oracle.residualEffects ++
      (if decision.route = .effect then decision.effectProposal.toList else []) }

def planConflict (stepId : String) : ExecutionError :=
  .refused "plan_conflict" s!"step {quoted stepId} was already planned with a different route"

/-- The body of the loop of `observe_plan`. -/
def observeStep (workflow : MaterialisedWorkflow) (proposals : List (String × P))
    (step : MaterialisedStep) : EStateM ExecutionError (RunOracle P) PlanObservation := do
  let oracle ← get
  let decision ← attempt (StepRouter.route step (proposals.lookup step.stepId))
  let observation : PlanObservation :=
    ⟨oracle.runId, workflow.contentHash, step.stepId, decision.route, step.sequenceIndex⟩
  match oracle.plan.get step.stepId with
  | some recorded => do
    demand (recorded.key sha256 = observation.key sha256) (planConflict step.stepId)
    pure recorded
  | none => do
    modify fun oracle => oracle.record observation decision
    pure observation

/-- The loop of `observe_plan`. -/
def observeSteps (workflow : MaterialisedWorkflow) (proposals : List (String × P)) :
    List MaterialisedStep → EStateM ExecutionError (RunOracle P) (List PlanObservation)
  | [] => pure []
  | step :: steps => do
    let observation ← observeStep sha256 workflow proposals step
    let observations ← observeSteps workflow proposals steps
    pure (observation :: observations)

/-- `RunOracle.observe_plan`. -/
def observePlan (workflow : MaterialisedWorkflow) (effectProposals : List (String × P)) :
    EStateM ExecutionError (RunOracle P) (List PlanObservation) := do
  let oracle ← get
  demand (oracle.cancelled = false) (.refused "run_cancelled" "run has been cancelled")
  attempt (workflow.verify sha256)
  demand (effectProposals.map Prod.fst).Nodup
    (.contract "duplicate_entry" "effect_proposals names the same step twice")
  observeSteps sha256 workflow effectProposals workflow.steps

end

/-! ## What a step records -/

def MaterialisedStep.route (step : MaterialisedStep) : Route :=
  if step.childWorkflow.isSome then .childWorkflow else step.executionClass.route

/-- The observation of a step that is not recorded. -/
def RunOracle.observationOf (oracle : RunOracle P) (workflow : MaterialisedWorkflow)
    (step : MaterialisedStep) : PlanObservation :=
  ⟨oracle.runId, workflow.contentHash, step.stepId, step.route, step.sequenceIndex⟩

def RunOracle.Recorded (oracle : RunOracle P) (step : MaterialisedStep) : Prop :=
  (oracle.plan.get step.stepId).isSome = true

instance (oracle : RunOracle P) (step : MaterialisedStep) : Decidable (oracle.Recorded step) := by
  unfold RunOracle.Recorded
  infer_instance

/-- A step whose loop body raises: it may not carry the proposal it is given, or it is recorded with
another key. -/
def RunOracle.Refuses (sha256 : List UInt8 → String) (oracle : RunOracle P)
    (workflow : MaterialisedWorkflow) (proposals : List (String × P)) (step : MaterialisedStep) : Prop :=
  ((proposals.lookup step.stepId).isSome = true ∧ step.route ≠ .effect) ∨
    ∃ recorded, oracle.plan.get step.stepId = some recorded ∧
      recorded.key sha256 ≠ (oracle.observationOf workflow step).key sha256

def RunOracle.observed (workflow : MaterialisedWorkflow) (proposals : List (String × P))
    (oracle : RunOracle P) (step : MaterialisedStep) : RunOracle P :=
  if oracle.Recorded step then oracle
  else oracle.record (oracle.observationOf workflow step)
    ⟨step.route, step.stepId, proposals.lookup step.stepId⟩

variable {sha256 : List UInt8 → String} {workflow : MaterialisedWorkflow}
  {proposals : List (String × P)} {oracle : RunOracle P} {step other : MaterialisedStep}

theorem ExecutionClass.route_eq_effect {executionClass : ExecutionClass} :
    executionClass.route = .effect ↔ executionClass = .effect := by
  cases executionClass <;> decide

theorem route_eq_ok {proposal : Option P} {decision : RouteDecision P} :
    StepRouter.route step proposal = .ok decision ↔
      ¬(proposal.isSome = true ∧ step.route ≠ .effect) ∧
        decision = ⟨step.route, step.stepId, proposal⟩ := by
  -- Off the route of an effect the proposal has to be absent.
  have hinert : ∀ route : Route, route ≠ .effect →
      ((∃ u : Unit, proposal.isNone = true ∧ (⟨route, step.stepId, none⟩ : RouteDecision P) = decision) ↔
        ¬(proposal.isSome = true ∧ route ≠ .effect) ∧ decision = ⟨route, step.stepId, proposal⟩) := by
    intro route hroute
    cases proposal with
    | none => simp [eq_comm]
    | some proposal => simp [hroute]
  unfold StepRouter.route MaterialisedStep.route
  split
  · simp only [bind_eq_ok, require_eq_ok, pure_eq_ok]
    exact hinert .childWorkflow (by decide)
  · split
    · next heffect =>
      rw [heffect, pure_eq_ok, eq_comm]
      simp [ExecutionClass.route]
    · next heffect =>
      simp only [bind_eq_ok, require_eq_ok, pure_eq_ok]
      exact hinert step.executionClass.route (mt ExecutionClass.route_eq_effect.1 heffect)

theorem route_eq_error {proposal : Option P} :
    (∃ e, StepRouter.route step proposal = .error e) ↔
      proposal.isSome = true ∧ step.route ≠ .effect := by
  cases hroute : StepRouter.route step proposal with
  | error e =>
    refine iff_of_true ⟨e, rfl⟩ (Classical.not_not.1 fun h => ?_)
    rw [route_eq_ok.2 ⟨h, rfl⟩] at hroute
    cases hroute
  | ok decision =>
    exact iff_of_false (fun ⟨_, h⟩ => by cases h) (route_eq_ok.1 hroute).1

theorem observeStep_refused (h : oracle.Refuses sha256 workflow proposals step) :
    ∃ e, observeStep sha256 workflow proposals step oracle = .error e oracle := by
  by_cases hroute : (proposals.lookup step.stepId).isSome = true ∧ step.route ≠ .effect
  · obtain ⟨e, he⟩ := route_eq_error.2 hroute
    refine ⟨e, ?_⟩
    unfold observeStep
    simp only [bind_raises, get_raises, get_returns, false_or]
    exact ⟨_, _, ⟨rfl, rfl⟩, .inl (attempt_raises.2 ⟨he, rfl⟩)⟩
  · obtain ⟨recorded, hrecorded, hkey⟩ := h.resolve_left hroute
    refine ⟨planConflict step.stepId, ?_⟩
    unfold observeStep
    simp only [bind_raises, get_raises, get_returns, false_or]
    refine ⟨_, _, ⟨rfl, rfl⟩, .inr ⟨_, _, attempt_returns.2 ⟨route_eq_ok.2 ⟨hroute, rfl⟩, rfl⟩, ?_⟩⟩
    simp only [hrecorded]
    exact bind_raises.2 (.inl (demand_raises.2 ⟨hkey, rfl, rfl⟩))

theorem observeStep_observed (h : ¬oracle.Refuses sha256 workflow proposals step) :
    observeStep sha256 workflow proposals step oracle =
      .ok ((oracle.plan.get step.stepId).getD (oracle.observationOf workflow step))
        (oracle.observed workflow proposals step) := by
  obtain ⟨hroute, hkey⟩ := not_or.1 h
  have hdecision := route_eq_ok.2 ⟨hroute, rfl⟩
  unfold observeStep
  simp only [bind_returns, get_returns]
  refine ⟨_, _, ⟨rfl, rfl⟩, _, _, attempt_returns.2 ⟨hdecision, rfl⟩, ?_⟩
  cases hrecorded : oracle.plan.get step.stepId with
  | none =>
    have hnew : ¬oracle.Recorded step := by
      rw [RunOracle.Recorded, hrecorded]
      decide
    rw [RunOracle.observed, if_neg hnew, Option.getD_none]
    exact bind_returns.2 ⟨⟨⟩, _, modify_returns.2 rfl, pure_returns.2 ⟨rfl, rfl⟩⟩
  | some recorded =>
    have hold : oracle.Recorded step := by
      rw [RunOracle.Recorded, hrecorded]
      rfl
    have hsame : recorded.key sha256 = (oracle.observationOf workflow step).key sha256 :=
      Classical.not_not.1 fun hne => hkey ⟨recorded, hrecorded, hne⟩
    rw [RunOracle.observed, if_pos hold, Option.getD_some]
    exact bind_returns.2 ⟨⟨⟩, _, demand_returns.2 ⟨hsame, rfl⟩, pure_returns.2 ⟨rfl, rfl⟩⟩

/-! ## What a step leaves to the others -/

@[simp] theorem runId_observed : (oracle.observed workflow proposals step).runId = oracle.runId := by
  unfold RunOracle.observed
  split <;> rfl

@[simp] theorem branches_observed :
    (oracle.observed workflow proposals step).branches = oracle.branches := by
  unfold RunOracle.observed
  split <;> rfl

@[simp] theorem fence_observed : (oracle.observed workflow proposals step).fence = oracle.fence := by
  unfold RunOracle.observed
  split <;> rfl

@[simp] theorem cancelled_observed :
    (oracle.observed workflow proposals step).cancelled = oracle.cancelled := by
  unfold RunOracle.observed
  split <;> rfl

/-- The plan after a step: what was there, or the observation of the step. -/
theorem get_observed (stepId : String) :
    (oracle.observed workflow proposals step).plan.get stepId =
      if stepId = step.stepId ∧ ¬oracle.Recorded step then some (oracle.observationOf workflow step)
      else oracle.plan.get stepId := by
  unfold RunOracle.observed
  by_cases hrecorded : oracle.Recorded step
  · rw [if_pos hrecorded, if_neg fun h => h.2 hrecorded]
  · rw [if_neg hrecorded]
    simp only [hrecorded, not_false_eq_true, and_true]
    exact Dict.get_set _ _ _

theorem residualEffects_observed :
    (oracle.observed workflow proposals step).residualEffects = oracle.residualEffects ++
      if step.route = .effect ∧ ¬oracle.Recorded step then (proposals.lookup step.stepId).toList
      else [] := by
  unfold RunOracle.observed
  by_cases hrecorded : oracle.Recorded step
  · rw [if_pos hrecorded, if_neg fun h => h.2 hrecorded, List.append_nil]
  · rw [if_neg hrecorded]
    simp only [hrecorded, not_false_eq_true, and_true]
    rfl

theorem get_observed_of_ne {stepId : String} (h : stepId ≠ step.stepId) :
    (oracle.observed workflow proposals step).plan.get stepId = oracle.plan.get stepId := by
  rw [get_observed, if_neg fun hsame => h hsame.1]

@[simp] theorem observationOf_observed :
    (oracle.observed workflow proposals step).observationOf workflow other =
      oracle.observationOf workflow other := by
  rw [RunOracle.observationOf, runId_observed, RunOracle.observationOf]

theorem recorded_observed (h : other.stepId ≠ step.stepId) :
    (oracle.observed workflow proposals step).Recorded other ↔ oracle.Recorded other := by
  rw [RunOracle.Recorded, get_observed_of_ne h, RunOracle.Recorded]

theorem refuses_observed (h : other.stepId ≠ step.stepId) :
    (oracle.observed workflow proposals step).Refuses sha256 workflow proposals other ↔
      oracle.Refuses sha256 workflow proposals other := by
  rw [RunOracle.Refuses, get_observed_of_ne h, observationOf_observed, RunOracle.Refuses]

/-! ## What the loop records -/

/-- What steps that are not refused leave, one after the other. -/
def RunOracle.observedAll (workflow : MaterialisedWorkflow) (proposals : List (String × P))
    (oracle : RunOracle P) (steps : List MaterialisedStep) : RunOracle P :=
  run (RunOracle.observed workflow proposals) oracle steps

variable {steps before after : List MaterialisedStep}

theorem observedAll_eq {α : Type} (field : RunOracle P → α)
    (hfield : ∀ (oracle : RunOracle P) (step : MaterialisedStep),
      field (oracle.observed workflow proposals step) = field oracle) :
    field (oracle.observedAll workflow proposals steps) = field oracle :=
  run_invariant (P := fun o => field o = field oracle)
    (fun o step ho => (hfield o step).trans ho) rfl steps

theorem notMem_ids (hids : ((step :: steps).map (·.stepId)).Nodup) (hother : other ∈ steps) :
    other.stepId ≠ step.stepId := by
  intro hsame
  rw [List.map_cons, List.nodup_cons, ← hsame] at hids
  exact hids.1 (List.mem_map_of_mem hother)

theorem get_observedAll (hids : (steps.map (·.stepId)).Nodup) (stepId : String) :
    (oracle.observedAll workflow proposals steps).plan.get stepId =
      match oracle.plan.get stepId with
      | some recorded => some recorded
      | none => (steps.find? fun step => step.stepId = stepId).map (oracle.observationOf workflow) := by
  induction steps generalizing oracle with
  | nil =>
    cases h : oracle.plan.get stepId <;> simpa [RunOracle.observedAll] using h
  | cons step steps ih =>
    change ((oracle.observed workflow proposals step).observedAll workflow proposals steps).plan.get
      stepId = _
    rw [ih (List.nodup_cons.1 hids).2, get_observed]
    by_cases hsame : step.stepId = stepId
    · subst hsame
      have hnone : steps.find? (fun other => other.stepId = step.stepId) = none := by
        rw [List.find?_eq_none]
        exact fun other hother => by simpa using notMem_ids hids hother
      cases hrecorded : oracle.plan.get step.stepId with
      | none =>
        have hnew : ¬oracle.Recorded step := by simp [RunOracle.Recorded, hrecorded]
        simp [hnew]
      | some recorded =>
        have hold : oracle.Recorded step := by simp [RunOracle.Recorded, hrecorded]
        simp [hold]
    · rw [if_neg fun h => hsame h.1.symm, List.find?_cons_of_neg (by simpa using hsame)]
      have hobservations : (oracle.observed workflow proposals step).observationOf workflow =
          oracle.observationOf workflow := funext fun _ => observationOf_observed
      rw [hobservations]

theorem residualEffects_observedAll (hids : (steps.map (·.stepId)).Nodup) :
    (oracle.observedAll workflow proposals steps).residualEffects = oracle.residualEffects ++
      (steps.filter fun step => step.route = .effect ∧ ¬oracle.Recorded step).filterMap
        fun step => proposals.lookup step.stepId := by
  induction steps generalizing oracle with
  | nil => simp [RunOracle.observedAll]
  | cons step steps ih =>
    have hsame : (steps.filter fun other => other.route = .effect ∧
        ¬(oracle.observed workflow proposals step).Recorded other) =
        steps.filter fun other => other.route = .effect ∧ ¬oracle.Recorded other := by
      refine List.filter_congr fun other hother => ?_
      simp only [recorded_observed (notMem_ids hids hother)]
    change ((oracle.observed workflow proposals step).observedAll workflow proposals
      steps).residualEffects = _
    rw [ih (List.nodup_cons.1 hids).2, hsame, residualEffects_observed, List.append_assoc]
    congr 1
    by_cases hnew : step.route = .effect ∧ ¬oracle.Recorded step
    · rw [if_pos hnew, List.filter_cons_of_pos (by simpa using hnew), List.filterMap_cons]
      cases proposals.lookup step.stepId <;> rfl
    · rw [if_neg hnew, List.filter_cons_of_neg (by simpa using hnew), List.nil_append]

theorem observeSteps_returns (hids : (steps.map (·.stepId)).Nodup)
    (h : ∀ step ∈ steps, ¬oracle.Refuses sha256 workflow proposals step) :
    observeSteps sha256 workflow proposals steps oracle =
      .ok (steps.map fun step =>
          (oracle.plan.get step.stepId).getD (oracle.observationOf workflow step))
        (oracle.observedAll workflow proposals steps) := by
  induction steps generalizing oracle with
  | nil => rfl
  | cons step steps ih =>
    have hrest : ∀ other ∈ steps,
        ¬(oracle.observed workflow proposals step).Refuses sha256 workflow proposals other := by
      intro other hother
      rw [refuses_observed (notMem_ids hids hother)]
      exact h other (List.mem_cons_of_mem _ hother)
    have hobservations : (steps.map fun other =>
        ((oracle.observed workflow proposals step).plan.get other.stepId).getD
          ((oracle.observed workflow proposals step).observationOf workflow other)) =
        steps.map fun other =>
          (oracle.plan.get other.stepId).getD (oracle.observationOf workflow other) := by
      refine List.map_congr_left fun other hother => ?_
      rw [get_observed_of_ne (notMem_ids hids hother), observationOf_observed]
    have hsteps := ih (List.nodup_cons.1 hids).2 hrest
    rw [hobservations] at hsteps
    exact bind_returns.2 ⟨_, _, observeStep_observed (h step List.mem_cons_self),
      bind_returns.2 ⟨_, _, hsteps, pure_returns.2 ⟨rfl, rfl⟩⟩⟩

/-- The loop raises at the first step it refuses, and keeps what it recorded before. -/
theorem observeSteps_raises (hids : ((before ++ step :: after).map (·.stepId)).Nodup)
    (hbefore : ∀ earlier ∈ before, ¬oracle.Refuses sha256 workflow proposals earlier)
    (hstep : oracle.Refuses sha256 workflow proposals step) :
    ∃ e, observeSteps sha256 workflow proposals (before ++ step :: after) oracle =
      .error e (oracle.observedAll workflow proposals before) := by
  induction before generalizing oracle with
  | nil =>
    obtain ⟨e, he⟩ := observeStep_refused hstep
    exact ⟨e, bind_raises.2 (.inl he)⟩
  | cons first before ih =>
    have hrest : ∀ earlier ∈ before,
        ¬(oracle.observed workflow proposals first).Refuses sha256 workflow proposals earlier := by
      intro earlier hearlier
      rw [refuses_observed (notMem_ids hids (List.mem_append_left _ hearlier))]
      exact hbefore earlier (List.mem_cons_of_mem _ hearlier)
    have hlater : (oracle.observed workflow proposals first).Refuses sha256 workflow proposals step := by
      rw [refuses_observed (notMem_ids hids (by simp))]
      exact hstep
    obtain ⟨e, he⟩ := ih (List.nodup_cons.1 hids).2 hrest hlater
    exact ⟨e, bind_raises.2 (.inr ⟨_, _, observeStep_observed (hbefore first List.mem_cons_self),
      bind_raises.2 (.inl he)⟩)⟩

/-! ## A call -/

def RunOracle.Admits (sha256 : List UInt8 → String) (oracle : RunOracle P)
    (workflow : MaterialisedWorkflow) (proposals : List (String × P)) : Prop :=
  oracle.cancelled = false ∧ workflow.verify sha256 = .ok () ∧ (proposals.map Prod.fst).Nodup

theorem stepIds_nodup (workflow : MaterialisedWorkflow) : (workflow.steps.map (·.stepId)).Nodup :=
  nodup_of_isCollection workflow.collected

theorem observePlan_admitted (h : oracle.Admits sha256 workflow proposals) :
    observePlan sha256 workflow proposals oracle =
      observeSteps sha256 workflow proposals workflow.steps oracle := by
  obtain ⟨hcancelled, hverify, hnodup⟩ := h
  change (demand (oracle.cancelled = false) _ >>= fun _ => attempt (workflow.verify sha256) >>= fun _ =>
    demand (proposals.map Prod.fst).Nodup _ >>= fun _ => _) oracle = _
  rw [demand, if_pos hcancelled, hverify, demand, if_pos hnodup]
  rfl

theorem observePlan_not_admitted (h : ¬oracle.Admits sha256 workflow proposals) :
    ∃ e, observePlan sha256 workflow proposals oracle = .error e oracle := by
  unfold observePlan
  simp only [bind_raises, get_raises, get_returns, false_or]
  by_cases hcancelled : oracle.cancelled = false
  · by_cases hverify : workflow.verify sha256 = .ok ()
    · have hnodup : ¬(proposals.map Prod.fst).Nodup := fun hnodup => h ⟨hcancelled, hverify, hnodup⟩
      refine ⟨_, _, _, ⟨rfl, rfl⟩, .inr ⟨⟨⟩, _, demand_returns.2 ⟨hcancelled, rfl⟩, .inr ⟨⟨⟩, _,
        attempt_returns.2 ⟨hverify, rfl⟩, .inl (demand_raises.2 ⟨hnodup, rfl, rfl⟩)⟩⟩⟩
    · obtain ⟨e, he⟩ : ∃ e, workflow.verify sha256 = .error e := by
        cases hresult : workflow.verify sha256 with
        | ok => exact absurd hresult hverify
        | error e => exact ⟨e, rfl⟩
      exact ⟨e, _, _, ⟨rfl, rfl⟩, .inr ⟨⟨⟩, _, demand_returns.2 ⟨hcancelled, rfl⟩,
        .inl (attempt_raises.2 ⟨he, rfl⟩)⟩⟩
  · exact ⟨_, _, _, ⟨rfl, rfl⟩, .inl (demand_raises.2 ⟨hcancelled, rfl, rfl⟩)⟩

/-- A call of the loop returns, or has a first step it refuses. -/
theorem refuses_none_or_first (sha256 : List UInt8 → String) (oracle : RunOracle P)
    (workflow : MaterialisedWorkflow) (proposals : List (String × P)) :
    (∀ step ∈ workflow.steps, ¬oracle.Refuses sha256 workflow proposals step) ∨
      ∃ before step after, workflow.steps = before ++ step :: after ∧
        oracle.Refuses sha256 workflow proposals step ∧
        ∀ earlier ∈ before, ¬oracle.Refuses sha256 workflow proposals earlier := by
  classical
  cases hfirst : workflow.steps.find? fun step => oracle.Refuses sha256 workflow proposals step with
  | none => exact .inl fun step hstep => by simpa using List.find?_eq_none.1 hfirst step hstep
  | some step =>
    obtain ⟨hstep, before, after, hsplit, hbefore⟩ := List.find?_eq_some_iff_append.1 hfirst
    exact .inr ⟨before, step, after, hsplit, by simpa using hstep,
      fun earlier hearlier => by simpa using hbefore earlier hearlier⟩

/-- Steps that are recorded leave the oracle as it is. -/
theorem observedAll_of_recorded (h : ∀ step ∈ steps, oracle.Recorded step) :
    oracle.observedAll workflow proposals steps = oracle := by
  induction steps with
  | nil => rfl
  | cons step steps ih =>
    have hstep : oracle.observed workflow proposals step = oracle := by
      rw [RunOracle.observed, if_pos (h step List.mem_cons_self)]
    rw [RunOracle.observedAll, run_cons, hstep]
    exact ih fun step hstep => h step (List.mem_cons_of_mem _ hstep)

/-- A call that finds every step recorded leaves the oracle as it is. -/
theorem finalState_of_recorded (h : ∀ step ∈ workflow.steps, oracle.Recorded step) :
    finalState (observePlan sha256 workflow proposals oracle) = oracle := by
  by_cases hadmits : oracle.Admits sha256 workflow proposals
  · rw [observePlan_admitted hadmits]
    have hids := stepIds_nodup workflow
    rcases refuses_none_or_first sha256 oracle workflow proposals with
      hnone | ⟨before, step, after, hsplit, hstep, hbefore⟩
    · rw [observeSteps_returns hids hnone]
      exact observedAll_of_recorded h
    · rw [hsplit] at hids h ⊢
      obtain ⟨e, he⟩ := observeSteps_raises hids hbefore hstep
      rw [he]
      exact observedAll_of_recorded fun step hstep => h step (List.mem_append_left _ hstep)
  · obtain ⟨e, he⟩ := observePlan_not_admitted hadmits
    rw [he]
    rfl

/-- What a call that returns has done: it answers an observation for each step, which is recorded; the
other steps and what was recorded stay; each step that was not recorded and carries a proposal adds it
to the residuals; and calls after it change nothing. -/
structure Observed (sha256 : List UInt8 → String) (workflow : MaterialisedWorkflow)
    (proposals : List (String × P)) (oracle after : RunOracle P)
    (observations : List PlanObservation) : Prop where
  answered : List.Forall₂ (fun step observation =>
    observation.key sha256 = (oracle.observationOf workflow step).key sha256 ∧
      after.plan.get step.stepId = some observation) workflow.steps observations
  kept : ∀ stepId, (oracle.plan.get stepId).isSome = true ∨
    stepId ∉ workflow.steps.map (·.stepId) → after.plan.get stepId = oracle.plan.get stepId
  residuals : after.residualEffects = oracle.residualEffects ++
    (workflow.steps.filter fun step => step.route = .effect ∧ ¬oracle.Recorded step).filterMap
      fun step => proposals.lookup step.stepId
  branches : after.branches = oracle.branches
  fence : after.fence = oracle.fence ∧ after.cancelled = oracle.cancelled
  replayed : observePlan sha256 workflow proposals after = .ok observations after
  repeated : ∀ calls : List (List (String × P)),
    run (fun oracle proposals => finalState (observePlan sha256 workflow proposals oracle)) after
      calls = after

/-- A call returns and has recorded what was not recorded, or raises and has changed nothing. -/
def ObservesAtomically (sha256 : List UInt8 → String) (oracle : RunOracle P)
    (workflow : MaterialisedWorkflow) (proposals : List (String × P)) : Prop :=
  match observePlan sha256 workflow proposals oracle with
  | .ok observations after => Observed sha256 workflow proposals oracle after observations
  | .error _ after => after.plan = oracle.plan ∧ after.branches = oracle.branches ∧
      after.residualEffects = oracle.residualEffects

/-- Nothing is to be recorded before the first step that is refused. -/
def RunOracle.NothingBefore (sha256 : List UInt8 → String) (oracle : RunOracle P)
    (workflow : MaterialisedWorkflow) (proposals : List (String × P)) : Prop :=
  ∀ before step after, workflow.steps = before ++ step :: after →
    oracle.Refuses sha256 workflow proposals step →
    (∀ earlier ∈ before, ¬oracle.Refuses sha256 workflow proposals earlier) →
    ∀ earlier ∈ before, oracle.Recorded earlier

theorem get_observedAll_mem (hids : (steps.map (·.stepId)).Nodup) (hstep : step ∈ steps) :
    (oracle.observedAll workflow proposals steps).plan.get step.stepId =
      some ((oracle.plan.get step.stepId).getD (oracle.observationOf workflow step)) := by
  rw [get_observedAll hids]
  cases oracle.plan.get step.stepId with
  | some recorded => rfl
  | none =>
    have hfind : steps.find? (fun other => other.stepId = step.stepId) = some step :=
      Unique.find? hids hstep rfl
    simp only [hfind, Option.map_some, Option.getD_none]

/-- A recorded step that is not refused has the key of its observation. -/
theorem key_getD (h : ¬oracle.Refuses sha256 workflow proposals step) :
    ((oracle.plan.get step.stepId).getD (oracle.observationOf workflow step)).key sha256 =
      (oracle.observationOf workflow step).key sha256 := by
  cases hrecorded : oracle.plan.get step.stepId with
  | none => rfl
  | some recorded =>
    by_contra hkey
    exact h (.inr ⟨recorded, hrecorded, hkey⟩)

/-- A call is answered alike when it is made again. -/
theorem replayed_of_recorded (hadmits : oracle.Admits sha256 workflow proposals)
    (hnone : ∀ step ∈ workflow.steps, ¬oracle.Refuses sha256 workflow proposals step)
    (hrecorded : ∀ step ∈ workflow.steps,
      (oracle.observedAll workflow proposals workflow.steps).Recorded step) :
    observePlan sha256 workflow proposals (oracle.observedAll workflow proposals workflow.steps) =
      .ok (workflow.steps.map fun step =>
          (oracle.plan.get step.stepId).getD (oracle.observationOf workflow step))
        (oracle.observedAll workflow proposals workflow.steps) := by
  have hids := stepIds_nodup workflow
  have hobservation : ∀ step, (oracle.observedAll workflow proposals workflow.steps).observationOf
      workflow step = oracle.observationOf workflow step :=
    fun step => observedAll_eq (fun o => o.observationOf workflow step) fun _ _ =>
      observationOf_observed
  have hadmits' : (oracle.observedAll workflow proposals workflow.steps).Admits sha256 workflow
      proposals := by
    rw [RunOracle.Admits, observedAll_eq RunOracle.cancelled fun _ _ => cancelled_observed]
    exact hadmits
  have hnone' : ∀ step ∈ workflow.steps,
      ¬(oracle.observedAll workflow proposals workflow.steps).Refuses sha256 workflow proposals
        step := by
    rintro step hstep (hroute | ⟨recorded, hget, hkey⟩)
    · exact hnone step hstep (.inl hroute)
    · rw [get_observedAll_mem hids hstep, Option.some.injEq] at hget
      subst hget
      rw [hobservation] at hkey
      exact hkey (key_getD (hnone step hstep))
  rw [observePlan_admitted hadmits', observeSteps_returns hids hnone',
    observedAll_of_recorded hrecorded]
  congr 1
  refine List.map_congr_left fun step hstep => ?_
  rw [get_observedAll_mem hids hstep, Option.getD_some]

theorem observed_returns (hadmits : oracle.Admits sha256 workflow proposals)
    (hnone : ∀ step ∈ workflow.steps, ¬oracle.Refuses sha256 workflow proposals step) :
    Observed sha256 workflow proposals oracle
      (oracle.observedAll workflow proposals workflow.steps)
      (workflow.steps.map fun step =>
        (oracle.plan.get step.stepId).getD (oracle.observationOf workflow step)) := by
  have hids := stepIds_nodup workflow
  have hrecorded : ∀ step ∈ workflow.steps,
      (oracle.observedAll workflow proposals workflow.steps).Recorded step := by
    intro step hstep
    rw [RunOracle.Recorded, get_observedAll_mem hids hstep]
    rfl
  refine ⟨?_, ?_, residualEffects_observedAll hids,
    observedAll_eq RunOracle.branches fun _ _ => branches_observed,
    ⟨observedAll_eq RunOracle.fence fun _ _ => fence_observed,
      observedAll_eq RunOracle.cancelled fun _ _ => cancelled_observed⟩, ?_, ?_⟩
  · rw [List.forall₂_map_right_iff, List.forall₂_same]
    exact fun step hstep => ⟨key_getD (hnone step hstep), get_observedAll_mem hids hstep⟩
  · rintro stepId (hold | hother)
    · obtain ⟨recorded, hrecorded⟩ := Option.isSome_iff_exists.1 hold
      rw [get_observedAll hids, hrecorded]
    · have hfind : workflow.steps.find? (fun step => step.stepId = stepId) = none := by
        rw [List.find?_eq_none]
        rintro step hstep hsame
        exact hother (List.mem_map.2 ⟨step, hstep, by simpa using hsame⟩)
      rw [get_observedAll hids, hfind]
      cases oracle.plan.get stepId <;> rfl
  · exact replayed_of_recorded hadmits hnone hrecorded
  · exact fun calls => run_invariant (P := fun o => o = _) (fun o call ho => by
      subst ho
      exact finalState_of_recorded hrecorded) rfl calls

/-- A call is atomic exactly when it is refused before the loop, or has nothing to record before the
first step it refuses. -/
theorem observe_plan_atomic_iff (sha256 : List UInt8 → String) (oracle : RunOracle P)
    (workflow : MaterialisedWorkflow) (proposals : List (String × P)) :
    ObservesAtomically sha256 oracle workflow proposals ↔
      (oracle.Admits sha256 workflow proposals →
        oracle.NothingBefore sha256 workflow proposals) := by
  by_cases hadmits : oracle.Admits sha256 workflow proposals
  · rw [imp_iff_right hadmits, ObservesAtomically, observePlan_admitted hadmits]
    have hids := stepIds_nodup workflow
    constructor
    · intro hatomic before step after hsplit hstep hbefore earlier hearlier
      rw [hsplit] at hids hatomic
      obtain ⟨e, he⟩ := observeSteps_raises hids hbefore hstep
      rw [he] at hatomic
      rw [List.map_append, List.nodup_append] at hids
      -- A step the loop went past is in the plan it leaves, which is the plan before the call.
      rw [RunOracle.Recorded, ← hatomic.1, get_observedAll_mem hids.1 hearlier]
      rfl
    · intro hnothing
      rcases refuses_none_or_first sha256 oracle workflow proposals with
        hnone | ⟨before, step, after, hsplit, hstep, hbefore⟩
      · rw [observeSteps_returns hids hnone]
        exact observed_returns hadmits hnone
      · have hrecorded := hnothing before step after hsplit hstep hbefore
        rw [hsplit] at hids ⊢
        obtain ⟨e, he⟩ := observeSteps_raises hids hbefore hstep
        rw [he, observedAll_of_recorded hrecorded]
        exact ⟨rfl, rfl, rfl⟩
  · obtain ⟨e, he⟩ := observePlan_not_admitted hadmits
    rw [ObservesAtomically, he]
    exact iff_of_true ⟨rfl, rfl, rfl⟩ fun h => absurd h hadmits

/-! ## A call that is refused too late -/

theorem isCollection_nil : isCollection [] = true := by decide

theorem isDigest_zeroth : isDigest ("sha256:" ++ tableEntry 0) = true := by decide +kernel

theorem isDigest_first : isDigest ("sha256:" ++ tableEntry 1) = true := by decide +kernel

def chargeStep : StepDefinition :=
  tabledStep "charge" .effect [] 0 (by decide) isCollection_nil (by decide) isDigest_zeroth

def settleStep : StepDefinition :=
  tabledStep "settle" .deterministic ["charge"] 1 (by decide) (by decide) (by decide) isDigest_first

def chargeDigest : List UInt8 → String :=
  tabledDigest ([chargeStep.canonicalPreimage, settleStep.canonicalPreimage,
    workflowPreimage "billing" "1.0.0" [chargeStep, settleStep]].map payload)

def chargeWorkflow : WorkflowDefinition chargeDigest where
  workflowId := "billing"
  version := "1.0.0"
  steps := [chargeStep, settleStep]
  contentHash := "sha256:" ++ tableEntry 2
  checked := by decide +kernel

def freshOracle : RunOracle Unit where
  runId := "run-1"
  plan := ⟨[], List.nodup_nil⟩
  branches := ⟨[], List.nodup_nil⟩
  residualEffects := []
  fence := 1
  cancelled := false

theorem chargeDigest_unsealed (payload : List UInt8) :
    "sha256:" ++ chargeDigest payload ≠ UNSEALED_CONTENT_HASH :=
  tabledDigest_unsealed _ payload

/-- A proposal for each step: the one of the effect is kept when that of the next step is refused. -/
theorem late_refusal_not_atomic :
    ∃ plan, materialiseWorkflow chargeDigest chargeWorkflow = .ok plan ∧
      ¬ObservesAtomically chargeDigest freshOracle plan [("charge", ()), ("settle", ())] := by
  obtain ⟨plan, hplan, hof⟩ := exists_plan chargeDigest_unsealed
    (show chargeWorkflow.verify = .ok () by decide +kernel)
    (List.Perm.refl [chargeStep, settleStep])
    (show topologicalOrder [chargeStep, settleStep] = .ok ["charge", "settle"] by decide +kernel)
  refine ⟨plan, hplan, fun hatomic => ?_⟩
  have hsteps := hof.steps
  simp only [List.zipIdx_cons, List.zipIdx_nil, List.forall₂_cons_left_iff,
    List.forall₂_nil_left_iff] at hsteps
  obtain ⟨charge, _, hcharge, ⟨settle, _, hsettle, rfl, rfl⟩, hsplit⟩ := hsteps
  rw [(seal_eq_ok hcharge).1, (seal_eq_ok hsettle).1] at hsplit
  have hids := stepIds_nodup plan
  rw [hsplit] at hids
  have hadmits : freshOracle.Admits chargeDigest plan [("charge", ()), ("settle", ())] :=
    ⟨rfl, hof.verified, by decide⟩
  have hcharged : ∀ earlier ∈ [{ chargeStep.placed 0 with contentHash := charge.contentHash }],
      ¬freshOracle.Refuses chargeDigest plan [("charge", ()), ("settle", ())] earlier := by
    simp only [List.forall_mem_singleton]
    rintro (⟨-, hroute⟩ | ⟨recorded, hget, -⟩)
    · exact hroute rfl
    · cases hget
  obtain ⟨e, he⟩ := observeSteps_raises hids hcharged (.inl ⟨rfl, Route.noConfusion⟩)
  rw [ObservesAtomically, observePlan_admitted hadmits, hsplit] at hatomic
  rw [List.singleton_append] at he
  rw [he] at hatomic
  cases hatomic.2.2

end OmniviaCore.Execution.Workflow
