import Mathlib

/-!
# Kahn's algorithm with the least ready node first

A finite graph is a list of nodes and, for each node, the list of the nodes it depends on. `Greedy` is what
the order is for: every place holds the least node whose dependencies are all placed. The order the
algorithm ends with is greedy (`finish_greedy`), it has every node exactly when the graph has no cycle
(`finish_length_iff`), and a graph has one greedy order of a length (`Greedy.unique`).
-/

namespace OmniviaCore.Lib

universe u

variable {α : Type u} [LinearOrder α]

/-- The variables of the algorithm. -/
structure Kahn (α : Type u) where
  ready : List α
  remaining : α → Nat
  order : List α

namespace Kahn

/-- One dependent of the node that was placed. -/
def release (s : Kahn α) (dependent : α) : Kahn α where
  order := s.order
  remaining := Function.update s.remaining dependent (s.remaining dependent - 1)
  ready := if s.remaining dependent - 1 = 0 then s.ready ++ [dependent] else s.ready

/-- One turn of the loop, which does nothing when no node is ready. -/
def place (dependents : α → List α) (s : Kahn α) : Kahn α :=
  match s.ready.insertionSort (· ≤ ·) with
  | [] => s
  | current :: ready =>
    (dependents current).foldl release { s with ready, order := s.order ++ [current] }

def turns (dependents : α → List α) : Nat → Kahn α → Kahn α
  | 0, s => s
  | n + 1, s => turns dependents n (s.place dependents)

theorem foldl_release {dependents : List α} (hnodup : dependents.Nodup) (s : Kahn α) :
    dependents.foldl release s =
      { order := s.order
        remaining := fun v => if v ∈ dependents then s.remaining v - 1 else s.remaining v
        ready := s.ready ++ dependents.filter fun v => s.remaining v - 1 = 0 } := by
  induction dependents generalizing s with
  | nil => simp
  | cons d rest ih =>
    obtain ⟨hd, hrest⟩ := List.nodup_cons.1 hnodup
    have hsame : ∀ v ∈ rest, Function.update s.remaining d (s.remaining d - 1) v = s.remaining v :=
      fun v hv => Function.update_of_ne (ne_of_mem_of_not_mem hv hd) _ _
    have hfilter : (rest.filter fun v =>
        (Function.update s.remaining d (s.remaining d - 1) v - 1 = 0 : Bool)) =
          rest.filter fun v => (s.remaining v - 1 = 0 : Bool) :=
      List.filter_congr fun v hv => by rw [hsame v hv]
    rw [List.foldl_cons, ih hrest, Kahn.mk.injEq]
    refine ⟨?_, funext fun v => ?_, rfl⟩
    · refine Eq.trans (congrArg _ hfilter) ?_
      by_cases hzero : s.remaining d - 1 = 0
      · rw [release, if_pos hzero, List.filter_cons_of_pos (by simpa using hzero), List.append_assoc,
          List.singleton_append]
      · rw [release, if_neg hzero, List.filter_cons_of_neg (by simpa using hzero)]
    · by_cases hv : v = d
      · subst hv
        simp [release, hd]
      · simp [release, hv]

end Kahn

/-! ## Greedy orders -/

section Graph

variable (nodes : List α) (deps : α → List α)

/-- The node is next: it is not placed, and what it depends on is. -/
def Next (order : List α) (v : α) : Prop := v ∈ nodes ∧ v ∉ order ∧ ∀ d ∈ deps v, d ∈ order

/-- Every place holds the least node that is next there. -/
def Greedy (order : List α) : Prop :=
  ∀ before v after, order = before ++ v :: after →
    Next nodes deps before v ∧ ∀ u, Next nodes deps before u → v ≤ u

/-- `d` is a dependency of the node `v`. -/
def DependsOn (v d : α) : Prop := v ∈ nodes ∧ d ∈ deps v

/-- No node depends on itself through others. -/
def Acyclic : Prop := ∀ v, ¬Relation.TransGen (DependsOn nodes deps) v v

variable {nodes deps} {order order' : List α} {v : α}

theorem greedy_nil : Greedy nodes deps [] := by
  intro before v after h
  simp at h

theorem greedy_concat (horder : Greedy nodes deps order) (hnext : Next nodes deps order v)
    (hleast : ∀ u, Next nodes deps order u → v ≤ u) : Greedy nodes deps (order ++ [v]) := by
  intro before u after h
  rcases List.eq_nil_or_concat' after with rfl | ⟨after, last, rfl⟩
  · obtain ⟨rfl, hu⟩ := List.append_inj' h rfl
    cases hu
    exact ⟨hnext, hleast⟩
  · rw [← List.cons_append, ← List.append_assoc] at h
    obtain ⟨hinit, -⟩ := List.append_inj' h rfl
    exact horder before u after hinit

theorem Greedy.deps_mem (h : Greedy nodes deps order) (hv : v ∈ order) {d : α} (hd : d ∈ deps v) :
    d ∈ order := by
  obtain ⟨before, after, rfl⟩ := List.append_of_mem hv
  have hbefore := (h before v after rfl).1.2.2 d hd
  simp [hbefore]

theorem Greedy.mem_nodes (h : Greedy nodes deps order) (hv : v ∈ order) : v ∈ nodes := by
  obtain ⟨before, after, rfl⟩ := List.append_of_mem hv
  exact (h before v after rfl).1.1

theorem Greedy.of_append {after : List α} (h : Greedy nodes deps (order ++ after)) :
    Greedy nodes deps order := by
  intro before v rest hsplit
  exact h before v (rest ++ after) (by rw [hsplit, List.append_assoc, List.cons_append])

theorem Greedy.nodup (h : Greedy nodes deps order) : order.Nodup := by
  induction order using List.reverseRecOn with
  | nil => exact List.nodup_nil
  | append_singleton order v ih =>
    have hv := (h order v [] rfl).1.2.1
    rw [List.nodup_append]
    refine ⟨ih h.of_append, List.nodup_singleton v, ?_⟩
    intro a ha b hb
    rw [List.mem_singleton.1 hb]
    exact fun hab => hv (hab ▸ ha)

/-- As many places as there are nodes are the places of all of them. -/
theorem Greedy.perm (h : Greedy nodes deps order) (hlength : nodes.length ≤ order.length) :
    order.Perm nodes :=
  (h.nodup.subperm fun _ hv => h.mem_nodes hv).perm_of_length_le hlength

theorem Greedy.unique (h : Greedy nodes deps order) (h' : Greedy nodes deps order')
    (hlength : order.length = order'.length) : order = order' := by
  induction order using List.reverseRecOn generalizing order' with
  | nil => exact (List.length_eq_zero_iff.1 hlength.symm).symm
  | append_singleton order v ih =>
    rcases List.eq_nil_or_concat' order' with rfl | ⟨init, u, rfl⟩
    · simp at hlength
    · obtain rfl := ih h.of_append h'.of_append (by simpa using hlength)
      obtain ⟨hv, hvleast⟩ := h order v [] rfl
      obtain ⟨hu, huleast⟩ := h' order u [] rfl
      rw [le_antisymm (hvleast u hu) (huleast v hv)]

theorem Greedy.isPrefix (h : Greedy nodes deps order) (h' : Greedy nodes deps order')
    (hlength : order.length ≤ order'.length) : order <+: order' := by
  have hsplit := List.take_append_drop order.length order'
  have htake : Greedy nodes deps (order'.take order.length) := by
    rw [← hsplit] at h'
    exact h'.of_append
  have heq := h.unique htake (by rw [List.length_take, min_eq_left hlength])
  exact ⟨order'.drop order.length, by rw [heq, List.length_take, min_eq_left hlength, hsplit]⟩

/-- Greedy orders that no node can be added to are one order. -/
theorem Greedy.eq_of_ended (h : Greedy nodes deps order) (h' : Greedy nodes deps order')
    (hended : ∀ v, ¬Next nodes deps order v) (hended' : ∀ v, ¬Next nodes deps order' v) :
    order = order' := by
  have hstop : ∀ {short long : List α}, Greedy nodes deps long → short <+: long →
      (∀ v, ¬Next nodes deps short v) → short = long := by
    intro short long hlong hstart hshort
    obtain ⟨rest, rfl⟩ := hstart
    cases rest with
    | nil => exact (List.append_nil short).symm
    | cons v rest => exact absurd (hlong short v rest rfl).1 (hshort v)
  rcases le_total order.length order'.length with hle | hle
  · exact hstop h' (h.isPrefix h' hle) hended
  · exact (hstop h (h'.isPrefix h hle) hended').symm

/-- Graphs with the same nodes and dependencies have the same greedy orders. -/
theorem Greedy.congr {nodes' : List α} {deps' : α → List α} (hnodes : ∀ v, v ∈ nodes ↔ v ∈ nodes')
    (hdeps : ∀ v ∈ nodes, ∀ d, d ∈ deps v ↔ d ∈ deps' v) (h : Greedy nodes deps order) :
    Greedy nodes' deps' order := by
  have hnext : ∀ placed u, Next nodes deps placed u ↔ Next nodes' deps' placed u := by
    intro placed u
    unfold Next
    rw [← hnodes u]
    refine and_congr_right fun hu => and_congr_right fun _ => ?_
    simp only [hdeps u hu]
  intro before v after hsplit
  obtain ⟨hv, hleast⟩ := h before v after hsplit
  exact ⟨(hnext before v).1 hv, fun u hu => hleast u ((hnext before u).2 hu)⟩

/-- What a node of an acyclic graph depends on, through others, ends. -/
theorem Acyclic.exists_next (hacyclic : Acyclic nodes deps) (hclosed : ∀ v ∈ nodes, ∀ d ∈ deps v, d ∈ nodes)
    (hv : v ∈ nodes) (hplaced : v ∉ order) : ∃ u, Next nodes deps order u := by
  by_contra hnone
  push Not at hnone
  let r : α → α → Prop := fun d v => Relation.TransGen (DependsOn nodes deps) v d
  have horder : IsStrictOrder α r :=
    { irrefl := hacyclic, trans := fun _ _ _ hab hbc => hbc.trans hab }
  have hfinite : {u | u ∈ nodes.filter fun u => u ∉ order}.Finite := List.finite_toSet _
  have hmem : ∀ u, u ∈ {u | u ∈ nodes.filter fun u => u ∉ order} ↔ u ∈ nodes ∧ u ∉ order := by
    simp
  have hwf := hfinite.wellFoundedOn (r := r)
  refine hwf.induction (P := fun _ => False) ((hmem v).2 ⟨hv, hplaced⟩) fun u hu ih => ?_
  obtain ⟨hnode, hrest⟩ := (hmem u).1 hu
  -- A node that is not next has a dependency that is not placed either.
  obtain ⟨d, hd, hleft⟩ : ∃ d ∈ deps u, d ∉ order := by
    by_contra hall
    push Not at hall
    exact hnone u ⟨hnode, hrest, hall⟩
  exact ih d ((hmem d).2 ⟨hclosed u hnode d hd, hleft⟩) (.single ⟨hnode, hd⟩)

/-- An order with every node before what depends on it leaves no cycle. -/
theorem Greedy.acyclic (h : Greedy nodes deps order) (hall : ∀ v ∈ nodes, v ∈ order) :
    Acyclic nodes deps := by
  have hbefore : ∀ v d, DependsOn nodes deps v d → order.idxOf d < order.idxOf v := by
    rintro v d ⟨hv, hd⟩
    obtain ⟨before, after, rfl⟩ := List.append_of_mem (hall v hv)
    obtain ⟨⟨-, hplaced, hdeps⟩, -⟩ := h before v after rfl
    rw [List.idxOf_append_of_mem (hdeps d hd), List.idxOf_append_of_notMem hplaced]
    have := List.idxOf_lt_length_of_mem (hdeps d hd)
    omega
  intro v hcycle
  have hlt : ∀ d, Relation.TransGen (DependsOn nodes deps) v d → order.idxOf d < order.idxOf v := by
    intro d hd
    induction hd with
    | single hstep => exact hbefore _ _ hstep
    | tail _ hstep ih => exact (hbefore _ _ hstep).trans ih
  exact absurd (hlt v hcycle) (lt_irrefl _)

/-! ## The algorithm -/

namespace Kahn

/-- What the turns keep: the order is greedy, the nodes that are next are ready, and what remains of a
node is counted. -/
structure Sound (nodes : List α) (deps : α → List α) (s : Kahn α) : Prop where
  greedy : Greedy nodes deps s.order
  ready_nodup : s.ready.Nodup
  ready_iff : ∀ v, v ∈ s.ready ↔ Next nodes deps s.order v
  remaining : ∀ v ∈ nodes, s.remaining v = ((deps v).filter fun d => d ∉ s.order).length

/-- The dependencies of a node are nodes, listed once, and not the node itself; `dependents` lists the
nodes that depend on one. -/
structure Describes (nodes : List α) (deps dependents : α → List α) : Prop where
  nodes_nodup : nodes.Nodup
  deps_nodup : ∀ v ∈ nodes, (deps v).Nodup
  closed : ∀ v ∈ nodes, ∀ d ∈ deps v, d ∈ nodes
  dependents_nodup : ∀ d, (dependents d).Nodup
  mem_dependents : ∀ d v, v ∈ dependents d ↔ v ∈ nodes ∧ d ∈ deps v

def start (nodes : List α) (deps : α → List α) : Kahn α where
  ready := nodes.filter fun v => (deps v).length = 0
  remaining v := (deps v).length
  order := []

variable {dependents : α → List α} {s : Kahn α}

theorem start_sound (h : Describes nodes deps dependents) : Sound nodes deps (start nodes deps) where
  greedy := greedy_nil
  ready_nodup := h.nodes_nodup.filter _
  ready_iff v := by
    simp only [start, List.mem_filter, decide_eq_true_eq, List.length_eq_zero_iff, Next,
      List.not_mem_nil, not_false_eq_true, true_and, imp_false]
    exact and_congr_right fun _ => List.eq_nil_iff_forall_not_mem
  remaining v _ := by simp [start]

theorem length_filter_concat {l : List α} (hl : l.Nodup) {current : α} (hcurrent : current ∉ order) :
    (l.filter fun d => d ∉ order ++ [current]).length =
      (l.filter fun d => d ∉ order).length - if current ∈ l then 1 else 0 := by
  have hsplit : (l.filter fun d => d ∉ order ++ [current]) =
      (l.filter fun d => d ∉ order).erase current := by
    rw [(hl.filter _).erase_eq_filter, List.filter_filter]
    refine List.filter_congr fun d _ => ?_
    rw [Bool.eq_iff_iff]
    simp [and_comm]
  rw [hsplit]
  split
  · next hmem =>
    rw [List.length_erase_of_mem (by simp [hmem, hcurrent])]
  · next hmem =>
    rw [List.erase_of_not_mem (by simp [hmem]), Nat.sub_zero]

theorem length_filter_eq_zero {l : List α} :
    (l.filter fun d => d ∉ order).length = 0 ↔ ∀ d ∈ l, d ∈ order := by
  simp [List.length_eq_zero_iff, List.filter_eq_nil_iff]

/-- One turn keeps what the turns keep, and places a node when one is ready. -/
theorem place_sound (h : Describes nodes deps dependents) (hs : Sound nodes deps s) :
    Sound nodes deps (s.place dependents) ∧
      (s.ready = [] ∧ s.place dependents = s ∨
        (s.place dependents).order.length = s.order.length + 1) := by
  unfold place
  cases hsorted : s.ready.insertionSort (· ≤ ·) with
  | nil =>
    have hnil : s.ready = [] := by
      have hperm := List.perm_insertionSort (· ≤ ·) s.ready
      rw [hsorted] at hperm
      exact hperm.symm.eq_nil
    exact ⟨hs, .inl ⟨hnil, rfl⟩⟩
  | cons current ready =>
    have hperm : (current :: ready).Perm s.ready := hsorted ▸ List.perm_insertionSort (· ≤ ·) s.ready
    have hleast : ∀ u, Next nodes deps s.order u → current ≤ u := by
      intro u hu
      have hmem := hperm.mem_iff.2 ((hs.ready_iff u).2 hu)
      have hpairwise := List.pairwise_insertionSort (· ≤ ·) s.ready
      rw [hsorted, List.pairwise_cons] at hpairwise
      rcases List.mem_cons.1 hmem with rfl | hmem
      · exact le_rfl
      · exact hpairwise.1 u hmem
    have hnext : Next nodes deps s.order current :=
      (hs.ready_iff current).1 (hperm.mem_iff.1 List.mem_cons_self)
    have hnodup : (current :: ready).Nodup := hperm.nodup_iff.2 hs.ready_nodup
    have hready : ∀ v, v ∈ ready ↔ Next nodes deps s.order v ∧ v ≠ current := by
      intro v
      rw [← hs.ready_iff, ← hperm.mem_iff, List.mem_cons]
      have := (List.nodup_cons.1 hnodup).1
      constructor
      · exact fun hv => ⟨.inr hv, fun he => this (he ▸ hv)⟩
      · rintro ⟨rfl | hv, hne⟩
        · exact absurd rfl hne
        · exact hv
    have hgreedy := greedy_concat hs.greedy hnext hleast
    have hwaiting : ∀ v ∈ dependents current, v ∈ nodes ∧ current ∈ deps v ∧ v ∉ s.order ++ [current] := by
      intro v hv
      obtain ⟨hnode, hdep⟩ := (h.mem_dependents current v).1 hv
      refine ⟨hnode, hdep, fun hplaced => ?_⟩
      rcases List.mem_append.1 hplaced with hplaced | hsame
      · exact hnext.2.1 (hs.greedy.deps_mem hplaced hdep)
      · rw [List.mem_singleton.1 hsame] at hdep
        exact hnext.2.1 (hnext.2.2 current hdep)
    have hcount : ∀ v ∈ nodes, ((deps v).filter fun d => d ∉ s.order ++ [current]).length =
        if v ∈ dependents current then s.remaining v - 1 else s.remaining v := by
      intro v hv
      have hdep : v ∈ dependents current ↔ current ∈ deps v := by
        rw [h.mem_dependents, and_iff_right hv]
      rw [length_filter_concat (h.deps_nodup v hv) hnext.2.1, hs.remaining v hv]
      simp only [hdep]
      split <;> rfl
    dsimp only
    rw [foldl_release (h.dependents_nodup current)]
    refine ⟨⟨hgreedy, ?_, fun v => ?_, fun v hv => (hcount v hv).symm⟩, .inr (by simp)⟩
    · rw [List.nodup_append]
      refine ⟨(List.nodup_cons.1 hnodup).2, (h.dependents_nodup current).filter _, ?_⟩
      rintro v hv u hu rfl
      obtain ⟨-, hdep, -⟩ := hwaiting v (List.mem_of_mem_filter hu)
      exact hnext.2.1 (((hready v).1 hv).1.2.2 current hdep)
    · rw [List.mem_append, List.mem_filter, hready, decide_eq_true_eq]
      constructor
      · rintro (⟨⟨hnode, hplaced, hdeps⟩, hne⟩ | ⟨hv, hzero⟩)
        · refine ⟨hnode, by simp [hplaced, hne], fun d hd => ?_⟩
          exact List.mem_append_left _ (hdeps d hd)
        · obtain ⟨hnode, -, hplaced⟩ := hwaiting v hv
          refine ⟨hnode, hplaced, length_filter_eq_zero.1 ?_⟩
          rw [hcount v hnode, if_pos hv]
          exact hzero
      · rintro ⟨hnode, hplaced, hdeps⟩
        rw [List.mem_append, not_or, List.mem_singleton] at hplaced
        by_cases hdep : current ∈ deps v
        · have hv := (h.mem_dependents current v).2 ⟨hnode, hdep⟩
          have hzero := length_filter_eq_zero.2 hdeps
          rw [hcount v hnode, if_pos hv] at hzero
          exact .inr ⟨hv, hzero⟩
        · refine .inl ⟨⟨hnode, hplaced.1, fun d hd => ?_⟩, hplaced.2⟩
          rcases List.mem_append.1 (hdeps d hd) with hd' | hd'
          · exact hd'
          · rw [List.mem_singleton.1 hd'] at hd
            exact absurd hd hdep

theorem turns_of_ready_nil (hnil : s.ready = []) (n : Nat) : turns dependents n s = s := by
  have hplace : s.place dependents = s := by
    unfold place
    rw [hnil]
    rfl
  induction n with
  | zero => rfl
  | succ n ih => rw [turns, hplace, ih]

/-- After so many turns no node is ready, or each has placed a node. -/
theorem turns_sound (h : Describes nodes deps dependents) (n : Nat) (hs : Sound nodes deps s) :
    Sound nodes deps (turns dependents n s) ∧
      ((turns dependents n s).ready = [] ∨
        (turns dependents n s).order.length = s.order.length + n) := by
  induction n generalizing s with
  | zero => exact ⟨hs, .inr rfl⟩
  | succ n ih =>
    obtain ⟨hplace, ⟨hnil, -⟩ | hlength⟩ := place_sound h hs
    · rw [turns_of_ready_nil hnil]
      exact ⟨hs, .inl hnil⟩
    · obtain ⟨hturns, hready | hlength'⟩ := ih hplace
      · exact ⟨hturns, .inl hready⟩
      · refine ⟨hturns, .inr ?_⟩
        rw [turns, hlength', hlength]
        omega

/-- As many turns as there are nodes leave none ready. -/
theorem turns_ready (h : Describes nodes deps dependents) :
    (turns dependents nodes.length (start nodes deps)).ready = [] := by
  obtain ⟨hsound, hnil | hlength⟩ := turns_sound h nodes.length (start_sound h)
  · exact hnil
  · have hperm := hsound.greedy.perm (by rw [hlength]; simp [start])
    rw [List.eq_nil_iff_forall_not_mem]
    intro v hv
    obtain ⟨hnode, hplaced, -⟩ := (hsound.ready_iff v).1 hv
    exact hplaced (hperm.mem_iff.2 hnode)

theorem turns_ended (h : Describes nodes deps dependents) :
    ∀ v, ¬Next nodes deps (turns dependents nodes.length (start nodes deps)).order v := by
  intro v hv
  have hready := ((turns_sound h nodes.length (start_sound h)).1.ready_iff v).2 hv
  rw [turns_ready h] at hready
  exact List.not_mem_nil hready

def finish (nodes : List α) (deps dependents : α → List α) : List α :=
  (turns dependents nodes.length (start nodes deps)).order

theorem finish_greedy (h : Describes nodes deps dependents) :
    Greedy nodes deps (finish nodes deps dependents) :=
  (turns_sound h nodes.length (start_sound h)).1.greedy

/-- Every node is placed exactly when no node depends on itself. -/
theorem finish_length_iff (h : Describes nodes deps dependents) :
    (finish nodes deps dependents).length = nodes.length ↔ Acyclic nodes deps := by
  have hgreedy := finish_greedy h
  constructor
  · intro hlength
    exact hgreedy.acyclic fun v hv => (hgreedy.perm hlength.ge).mem_iff.2 hv
  · intro hacyclic
    have hall : ∀ v ∈ nodes, v ∈ finish nodes deps dependents := by
      intro v hv
      by_contra hplaced
      obtain ⟨u, hu⟩ := hacyclic.exists_next h.closed hv hplaced
      exact turns_ended h u hu
    have hperm := (List.perm_ext_iff_of_nodup hgreedy.nodup h.nodes_nodup).2 fun v =>
      ⟨hgreedy.mem_nodes, hall v⟩
    exact hperm.length_eq

end Kahn

end Graph

end OmniviaCore.Lib
