import Mathlib

/-!
# Walking a graph from a stack

A walk takes the node on top of its stack, skips it when it was seen, and otherwise notes it: as an end
when nothing follows it, and by putting what follows it on the stack when something does. Whatever the
graph, a walk of as many turns as there are nodes on the stack and edges to follow has an empty stack
(`turns_pending`), and then its ends are the reachable nodes that nothing follows (`mem_ends_turns`).
-/

namespace OmniviaCore.Lib

universe u

variable {α : Type u} [DecidableEq α]

/-- A walk: the stack, top first, and the nodes and ends it has noted. -/
structure Worklist (α : Type u) where
  pending : List α
  seen : List α
  ends : List α

namespace Worklist

variable (succ : α → List α)

def turn (walk : Worklist α) : Worklist α :=
  match walk.pending with
  | [] => walk
  | node :: pending =>
    if node ∈ walk.seen then { walk with pending := pending }
    else
      match succ node with
      | [] => { pending := pending, seen := node :: walk.seen, ends := node :: walk.ends }
      | next => { pending := next.reverse ++ pending, seen := node :: walk.seen, ends := walk.ends }

def turns (n : ℕ) (walk : Worklist α) : Worklist α := (turn succ)^[n] walk

/-- A walk that starts on the nodes of a list, the last of them on top. -/
def start (roots : List α) : Worklist α := ⟨roots.reverse, [], []⟩

def Leads (a b : α) : Prop := Relation.ReflTransGen (fun a b => b ∈ succ a) a b

/-- What holds of a walk from `roots` after every turn. -/
structure Explores (roots : List α) (walk : Worklist α) : Prop where
  closed : ∀ x ∈ walk.seen, ∀ y ∈ succ x, y ∈ walk.seen ∨ y ∈ walk.pending
  reached : ∀ x, x ∈ walk.seen ∨ x ∈ walk.pending → ∃ r ∈ roots, Leads succ r x
  started : ∀ r ∈ roots, r ∈ walk.seen ∨ r ∈ walk.pending
  ends : ∀ x, x ∈ walk.ends ↔ x ∈ walk.seen ∧ succ x = []
  nodup : walk.ends.Nodup

variable {succ} {roots nodes : List α} {walk : Worklist α} {node : α} {pending : List α}

theorem turn_nil (h : walk.pending = []) : turn succ walk = walk := by
  unfold turn
  rw [h]

theorem turn_seen (h : walk.pending = node :: pending) (hseen : node ∈ walk.seen) :
    turn succ walk = { walk with pending := pending } := by
  unfold turn
  rw [h]
  exact if_pos hseen

/-- A new node is noted, and what follows it goes on the stack. -/
theorem turn_new (h : walk.pending = node :: pending) (hseen : node ∉ walk.seen) :
    turn succ walk =
      { pending := (succ node).reverse ++ pending
        seen := node :: walk.seen
        ends := if succ node = [] then node :: walk.ends else walk.ends } := by
  unfold turn
  rw [h]
  simp only [if_neg hseen]
  cases hnext : succ node with
  | nil => rfl
  | cons first next => simp

omit [DecidableEq α] in
theorem explores_start (succ : α → List α) (roots : List α) : Explores succ roots (start roots) where
  closed x hx := absurd hx List.not_mem_nil
  reached x hx := by
    rcases hx with hx | hx
    · exact absurd hx List.not_mem_nil
    · exact ⟨x, List.mem_reverse.1 hx, .refl⟩
  started r hr := .inr (List.mem_reverse.2 hr)
  ends x := by simp [start]
  nodup := List.nodup_nil

theorem Explores.turn (h : Explores succ roots walk) : Explores succ roots (turn succ walk) := by
  cases hpending : walk.pending with
  | nil =>
    rw [turn_nil hpending]
    exact h
  | cons node pending =>
    by_cases hseen : node ∈ walk.seen
    · rw [turn_seen hpending hseen]
      have hstill : ∀ y, y ∈ walk.seen ∨ y ∈ walk.pending → y ∈ walk.seen ∨ y ∈ pending := by
        intro y hy
        rw [hpending, List.mem_cons] at hy
        obtain hy | rfl | hy := hy
        · exact .inl hy
        · exact .inl hseen
        · exact .inr hy
      refine ⟨fun x hx y hy => hstill y (h.closed x hx y hy), fun x hx => h.reached x ?_,
        fun r hr => hstill r (h.started r hr), h.ends, h.nodup⟩
      rw [hpending, List.mem_cons]
      tauto
    · rw [turn_new hpending hseen]
      have hstill : ∀ y, y ∈ walk.seen ∨ y ∈ walk.pending →
          y ∈ node :: walk.seen ∨ y ∈ (succ node).reverse ++ pending := by
        intro y hy
        rw [hpending] at hy
        simp only [List.mem_cons, List.mem_append] at hy ⊢
        tauto
      obtain ⟨r, hr, hnode⟩ := h.reached node (.inr (by rw [hpending]; exact List.mem_cons_self))
      refine ⟨?_, ?_, fun r hr => hstill r (h.started r hr), ?_, ?_⟩
      · intro x hx y hy
        rcases List.mem_cons.1 hx with rfl | hx
        · exact .inr (List.mem_append_left _ (List.mem_reverse.2 hy))
        · exact hstill y (h.closed x hx y hy)
      · intro x hx
        simp only [List.mem_cons, List.mem_append, List.mem_reverse] at hx
        rcases hx with (rfl | hx) | hx | hx
        · exact ⟨r, hr, hnode⟩
        · exact h.reached x (.inl hx)
        · exact ⟨r, hr, hnode.tail hx⟩
        · exact h.reached x (.inr (by rw [hpending]; exact List.mem_cons_of_mem _ hx))
      · intro x
        simp only [List.mem_cons]
        split
        · next hend =>
          rw [List.mem_cons, h.ends x]
          constructor
          · rintro (rfl | hx)
            · exact ⟨.inl rfl, hend⟩
            · exact ⟨.inr hx.1, hx.2⟩
          · tauto
        · next hend =>
          rw [h.ends x]
          constructor
          · tauto
          · rintro ⟨rfl | hx, hnone⟩
            · exact absurd hnone hend
            · exact ⟨hx, hnone⟩
      · split
        · exact List.nodup_cons.2 ⟨fun hmem => hseen ((h.ends node).1 hmem).1, h.nodup⟩
        · exact h.nodup

theorem Explores.turns (h : Explores succ roots walk) (n : ℕ) :
    Explores succ roots (turns succ n walk) := by
  induction n generalizing walk with
  | zero => exact h
  | succ n ih => exact ih h.turn

/-! ## The end of the walk -/

/-- The turns that may be left, where only the nodes of a list are followed by others. -/
def cost (succ : α → List α) (nodes : List α) (walk : Worklist α) : ℕ :=
  walk.pending.length + ((nodes.filter (· ∉ walk.seen)).map fun x => (succ x).length).sum

theorem sum_filter_cons_le {seen : List α} (f : α → ℕ) (hnode : node ∈ nodes) (hseen : node ∉ seen) :
    ((nodes.filter (· ∉ node :: seen)).map f).sum + f node ≤ ((nodes.filter (· ∉ seen)).map f).sum := by
  have hsub : (nodes.filter (· ∉ node :: seen)).Sublist ((nodes.filter (· ∉ seen)).erase node) := by
    have hfilter : nodes.filter (· ∉ node :: seen) = (nodes.filter (· ∉ seen)).filter (· ≠ node) := by
      rw [List.filter_filter]
      refine List.filter_congr fun x _ => ?_
      simp [not_or]
    rw [hfilter]
    have hself : ((nodes.filter (· ∉ seen)).filter (· ≠ node)).erase node =
        (nodes.filter (· ∉ seen)).filter (· ≠ node) :=
      List.erase_of_not_mem (by simp)
    rw [← hself]
    exact (List.filter_sublist).erase node
  have hmem : node ∈ nodes.filter (· ∉ seen) := List.mem_filter.2 ⟨hnode, decide_eq_true hseen⟩
  have hperm := ((List.perm_cons_erase hmem).map f).sum_eq
  rw [List.map_cons, List.sum_cons] at hperm
  have hle := (hsub.map f).sum_le_sum fun _ _ => Nat.zero_le _
  omega

theorem cost_turn (hnodes : ∀ x, succ x ≠ [] → x ∈ nodes) (h : walk.pending ≠ []) :
    cost succ nodes (turn succ walk) + 1 ≤ cost succ nodes walk := by
  obtain ⟨node, pending, hpending⟩ := List.exists_cons_of_ne_nil h
  unfold cost
  by_cases hseen : node ∈ walk.seen
  · rw [turn_seen hpending hseen, hpending, List.length_cons]
    dsimp only
    omega
  · rw [turn_new hpending hseen, hpending, List.length_cons]
    dsimp only
    rw [List.length_append, List.length_reverse]
    by_cases hend : succ node = []
    · have hle : ((nodes.filter (· ∉ node :: walk.seen)).map fun x => (succ x).length).sum ≤
          ((nodes.filter (· ∉ walk.seen)).map fun x => (succ x).length).sum := by
        refine ((List.monotone_filter_right nodes ?_).map _).sum_le_sum fun _ _ => Nat.zero_le _
        intro x hx
        simp only [List.mem_cons, not_or, decide_eq_true_eq] at hx ⊢
        exact hx.2
      rw [hend, List.length_nil]
      omega
    · have hle := sum_filter_cons_le (fun x => (succ x).length) (hnodes node hend) hseen
      omega

theorem turns_nil (h : walk.pending = []) (n : ℕ) : turns succ n walk = walk :=
  Function.iterate_fixed (turn_nil h) n

theorem turns_pending (nodes : List α) (hnodes : ∀ x, succ x ≠ [] → x ∈ nodes) {n : ℕ}
    (hn : cost succ nodes walk ≤ n) : (turns succ n walk).pending = [] := by
  induction n generalizing walk with
  | zero =>
    have hlength : walk.pending.length = 0 := by
      unfold cost at hn
      omega
    exact List.length_eq_zero_iff.1 hlength
  | succ n ih =>
    by_cases hpending : walk.pending = []
    · rw [turns_nil hpending]
      exact hpending
    · have hturn := cost_turn hnodes hpending
      have hcost : cost succ nodes (turn succ walk) ≤ n := by omega
      exact ih hcost

/-- The ends of a walk that came to its end: the reachable nodes that nothing follows. -/
theorem mem_ends_turns {n : ℕ} (h : (turns succ n (start roots)).pending = []) {x : α} :
    x ∈ (turns succ n (start roots)).ends ↔ (∃ r ∈ roots, Leads succ r x) ∧ succ x = [] := by
  have hwalk := (explores_start succ roots).turns n
  rw [hwalk.ends]
  refine and_congr_left fun _ => ⟨fun hx => hwalk.reached x (.inl hx), ?_⟩
  rintro ⟨r, hr, hleads⟩
  have hseen : ∀ y, y ∈ (turns succ n (start roots)).seen ∨ y ∈ (turns succ n (start roots)).pending →
      y ∈ (turns succ n (start roots)).seen := by
    intro y hy
    rw [h] at hy
    simpa using hy
  have hall : ∀ y, Leads succ r y → y ∈ (turns succ n (start roots)).seen := by
    intro y hy
    induction hy with
    | refl => exact hseen r (hwalk.started r hr)
    | tail _ hstep ih => exact hseen _ (hwalk.closed _ ih _ hstep)
  exact hall x hleads

theorem nodup_ends_turns (n : ℕ) : (turns succ n (start roots)).ends.Nodup :=
  ((explores_start succ roots).turns n).nodup

end Worklist

end OmniviaCore.Lib
