import OmniviaCore.Runtime.Histories

/-!
# Passes of the startup recovery

A pass leaves every run `Recovered`: no superseded wait is left to adopt and no orphaned attempt to recover,
since what the pass touched is claimed under its own generation, queued or ended. A pass over such runs reads
and writes nothing, whatever the clocks say.
-/

namespace OmniviaCore.Runtime

open Lib
open Jobs (Authority)

variable {authority : Authority} {l : StopLedger} {adoptedAtUs recoveredAtUs : Nat} {r r' : Run}

namespace DurableJob

variable {j j' : DurableJob} {requeued : Bool} {nowUs : Nat}

theorem recover_unclaimed (h : j.recover authority nowUs = .ok (j', requeued)) : j'.state ≠ .claimed := by
  simp only [recover, bind_eq_ok, exists_unit] at h
  obtain ⟨-, ended, hended, h⟩ := h
  split at h
  · simp only [requeueInterrupted, insertRecovery, insertEvent, bind_eq_ok, exists_unit, require_eq_ok,
      pure_eq_ok, Prod.mk.injEq] at h
    obtain ⟨_, ⟨_, ⟨-, -, -, -, rfl⟩, -, -, -, -, rfl⟩, rfl, -⟩ := h
    exact fun heq => by cases heq
  · obtain ⟨rfl, -⟩ := Prod.mk.inj (pure_eq_ok.1 h)
    rw [(terminate_state hended).1]
    exact fun heq => by cases heq

end DurableJob

namespace Run

variable {surveyed : Run} {entry entry' : RuntimeJobRecovery}

def Recovered (authority : Authority) (l : StopLedger) (r : Run) : Prop :=
  ∃ pending, l.readUnsettledStopRequest r.runId = .ok pending ∧ ¬r.Adopted authority pending.isSome ∧
    r.classify authority pending.isSome ≠ .orphanAttempt

theorem recovered_of_not_superseded {pending : Option RunStopRequest}
    (hpending : l.readUnsettledStopRequest r.runId = .ok pending) (h : r.superseded authority = false) :
    r.Recovered authority l := by
  refine ⟨pending, hpending, fun hadopted => ?_, fun horphan => ?_⟩
  · rw [hadopted.2] at h
    cases h
  · obtain ⟨-, -, -, -, hsuperseded⟩ := classify_orphanAttempt horphan
    rw [hsuperseded] at h
    cases h

theorem superseded_of_unclaimed (h : r.job.state ≠ .claimed) : r.superseded authority = false := by
  rw [superseded, decide_eq_false h, Bool.false_and]

/-- An adopted wait is claimed under the generation of the pass. -/
theorem adoptOpenWait_superseded (h : r.adoptOpenWait authority adoptedAtUs = .ok r') :
    r'.superseded authority = false := by
  simp only [adoptOpenWait, bind_eq_ok, mapError_eq_ok] at h
  obtain ⟨job, hjob, h⟩ := h
  obtain ⟨-, rfl⟩ := DurableJob.adoptStaleClaim_eq_ok.1 hjob
  split at h
  · cases h
  · obtain ⟨-, rfl⟩ := appendRunEvent_eq_ok.1 h
    simp [superseded, DurableJob.claimed]

theorem recover_superseded (h : r.recover authority recoveredAtUs = .ok r') :
    r'.superseded authority = false := by
  obtain ⟨job, requeued, runStepId, attempt, finished, closed, hjob, -, hfinished, hclosed, lineage, htold⟩ :=
    recover_cases h
  obtain ⟨-, rfl⟩ := appendRunEvent_eq_ok.1 htold
  refine superseded_of_unclaimed ?_
  rw [recordStepStatus_frame hclosed, finishAttempt_frame hfinished]
  exact DurableJob.recover_unclaimed hjob

theorem recovery_recovered (h : r.survey authority l adoptedAtUs = .ok (surveyed, entry))
    (h' : surveyed.recoverFound authority recoveredAtUs entry = .ok (r', entry')) :
    r'.Recovered authority l := by
  obtain ⟨pending, hpending, ⟨-, hadopt⟩ | ⟨-, hrecover⟩ | ⟨hadopted, horphan, rfl⟩⟩ := recovery_cases h h'
  · rw [← (adoptOpenWait_statements hadopt).grows.runId] at hpending
    exact recovered_of_not_superseded hpending (adoptOpenWait_superseded hadopt)
  · rw [← (recover_statements hrecover).grows.runId] at hpending
    exact recovered_of_not_superseded hpending (recover_superseded hrecover)
  · exact ⟨pending, hpending, hadopted, horphan⟩

def Untouched (entry : RuntimeJobRecovery) : Prop :=
  entry.classification ≠ .orphanAttempt ∧
    ¬(entry.classification = .durableOpenWait ∧ entry.superseded = true) ∧ entry.adopted = false ∧
      entry.requeued = none

theorem Recovered.pass (h : r.Recovered authority l) (adoptedAtUs recoveredAtUs : Nat) :
    ∃ entry, r.survey authority l adoptedAtUs = .ok (r, entry) ∧
      r.recoverFound authority recoveredAtUs entry = .ok (r, entry) ∧ Untouched entry := by
  obtain ⟨pending, hpending, hadopted, horphan⟩ := h
  refine ⟨⟨r.runId, r.classify authority pending.isSome, r.superseded authority, false, none⟩, ?_, ?_,
    horphan, hadopted, rfl, rfl⟩
  · rw [survey, stopPending, hpending]
    exact if_neg hadopted
  · exact if_neg horphan

end Run

theorem recoverRuntimeStartup_recovered {runs : List Run} (h : ∀ r ∈ runs, r.Recovered authority l)
    (adoptedAtUs recoveredAtUs : Nat) :
    ∃ entries, recoverRuntimeStartup authority l adoptedAtUs recoveredAtUs runs = .ok (runs.zip entries) ∧
      entries.length = runs.length ∧ ∀ entry ∈ entries, Run.Untouched entry := by
  obtain ⟨entries, hentries⟩ : ∃ entries, List.Forall₂ (fun r entry =>
      r.survey authority l adoptedAtUs = .ok (r, entry) ∧
        r.recoverFound authority recoveredAtUs entry = .ok (r, entry) ∧ Run.Untouched entry) runs entries := by
    induction runs with
    | nil => exact ⟨[], .nil⟩
    | cons r runs ih =>
      rw [List.forall_mem_cons] at h
      obtain ⟨entry, hentry⟩ := h.1.pass adoptedAtUs recoveredAtUs
      obtain ⟨entries, hentries⟩ := ih h.2
      exact ⟨entry :: entries, .cons hentry hentries⟩
  refine ⟨entries, ?_, hentries.length_eq.symm, fun entry hentry => ?_⟩
  · have hsurvey : runs.mapM (fun r => r.survey authority l adoptedAtUs) = .ok (runs.zip entries) := by
      rw [mapM_eq_ok]
      induction hentries with
      | nil => exact .nil
      | cons hentry _ ih => exact .cons hentry.1 (ih fun r hr => h r (List.mem_cons_of_mem _ hr))
    rw [recoverRuntimeStartup, hsurvey, ok_bind, mapM_eq_ok]
    clear hsurvey h
    induction hentries with
    | nil => exact .nil
    | cons hentry _ ih => exact .cons hentry.2.1 ih
  · obtain ⟨r, -, -, -, huntouched⟩ := exists_of_forall₂_right hentries hentry
    exact huntouched

namespace Store

variable {s s' : Store} {found : List RuntimeJobRecovery}

/-- A second pass under the same generation writes no row, and reports no orphaned attempt and no superseded
wait. -/
theorem recoverStartup_idempotent
    (h : s.recoverStartup authority adoptedAtUs recoveredAtUs = .ok (s', found)) (againUs againAtUs : Nat) :
    ∃ entries, s'.recoverStartup authority againUs againAtUs = .ok (s', entries) ∧
      entries.length = s'.runs.length ∧ ∀ entry ∈ entries, Run.Untouched entry := by
  simp only [recoverStartup, bind_eq_ok, pure_eq_ok, Prod.mk.injEq] at h
  obtain ⟨recovered, hrecovered, rfl, -⟩ := h
  have hruns : ∀ r ∈ recovered.map Prod.fst, r.Recovered authority s.ledger := by
    intro r hr
    obtain ⟨p, hp, rfl⟩ := List.mem_map.1 hr
    obtain ⟨r₀, -, surveyed, entry, hsurvey, hfound⟩ := exists_of_forall₂_right (recovered_runs hrecovered) hp
    exact Run.recovery_recovered hsurvey hfound
  obtain ⟨entries, hpass, hlength, huntouched⟩ := recoverRuntimeStartup_recovered hruns againUs againAtUs
  refine ⟨entries, ?_, hlength, huntouched⟩
  rw [recoverStartup]
  dsimp only
  rw [hpass, ok_bind, List.map_fst_zip hlength.ge, List.map_snd_zip hlength.le]
  rfl

/-- A worker is lost: the first pass requeues its run, the second finds nothing. -/
theorem recoverStartup_idempotent_orphan :
    ∃ s found entries, (run step (empty firstHolder)
        (startAndClaim ++ [.takeover ⟨"service-2", 2⟩])).recoverStartup ⟨"service-2", 2⟩ 40 50 =
          .ok (s, found) ∧
      s.recoverStartup ⟨"service-2", 2⟩ 60 70 = .ok (s, entries) := by
  have hpass : ((run step (empty firstHolder)
      (startAndClaim ++ [.takeover ⟨"service-2", 2⟩])).recoverStartup ⟨"service-2", 2⟩ 40 50).isOk = true := by
    decide +kernel
  obtain ⟨⟨s, found⟩, hfirst⟩ := exists_ok_of_isOk hpass
  obtain ⟨entries, hagain, -⟩ := recoverStartup_idempotent hfirst 60 70
  exact ⟨s, found, entries, hfirst, hagain⟩

end Store

end OmniviaCore.Runtime
