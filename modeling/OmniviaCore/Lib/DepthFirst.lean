import Mathlib

/-!
# Depth-first search that collects cycles

A successor that is on the stack closes a cycle, and the nodes of the stack from it on are collected;
one that has left it is skipped, wherever it may lead. `DepthFirstPath` says what the paths of the
search are without the search: each step goes to the first successor the destination can still be
reached from. The search collects nothing exactly when the graph has no cycle (`traverse_spec`).
-/

namespace OmniviaCore.Lib.DepthFirst

universe u

variable {α : Type u}

inductive Shade where
  | white | gray | black
  deriving DecidableEq

/-- The variables of the search. -/
structure Walk (α : Type u) where
  shade : α → Shade
  cyclic : List α

section

variable [DecidableEq α] (succ : α → List α)

/-- The successors of the node on top of the stack, in order; `enter` visits one. -/
def scan (enter : α → Walk α → Option (Walk α)) (stack : List α) : List α → Walk α → Option (Walk α)
  | [], walk => some walk
  | next :: rest, walk =>
    match walk.shade next with
    | .gray => scan enter stack rest { walk with cyclic := walk.cyclic ++ stack.dropWhile (· ≠ next) }
    | .white => (enter next walk).bind (scan enter stack rest)
    | .black => scan enter stack rest walk

def Walk.paint (walk : Walk α) (node : α) (shade : Shade) : Walk α :=
  { walk with shade := Function.update walk.shade node shade }

@[simp] theorem Walk.shade_paint (walk : Walk α) (node : α) (shade : Shade) :
    (walk.paint node shade).shade node = shade :=
  Function.update_self ..

theorem Walk.shade_paint_of_ne {walk : Walk α} {node v : α} {shade : Shade} (h : v ≠ node) :
    (walk.paint node shade).shade v = walk.shade v :=
  Function.update_of_ne h ..

/-- A node the search has not met, with the stack below it; `room` bounds how deep the search may go. -/
def visit : ℕ → α → List α → Walk α → Option (Walk α)
  | 0, _, _, _ => none
  | room + 1, node, stack, walk =>
    (scan (fun next walk => visit room next (stack ++ [node]) walk) (stack ++ [node]) (succ node)
      (walk.paint node .gray)).map (·.paint node .black)

def traverse (room : ℕ) (nodes : List α) : Option (Walk α) :=
  scan (fun next walk => visit succ room next [] walk) [] nodes ⟨fun _ => .white, []⟩

end

/-! ## The paths of the search -/

section Paths

variable (succ : α → List α)

/-- A node leads to another along nodes that are not avoided. -/
def Reaches (avoided : List α) (u v : α) : Prop :=
  u ∉ avoided ∧ Relation.ReflTransGen (fun a b => b ∈ succ a ∧ b ∉ avoided) u v

/-- The path the search takes from a node to another, above a stack. -/
inductive DepthFirstPath : List α → α → α → List α → Prop
  | here (stack : List α) (v : α) : DepthFirstPath stack v v [v]
  | down {stack : List α} {u v : α} {before after : List α} {next : α} {path : List α} :
    v ≠ u → succ u = before ++ next :: after → (∀ w ∈ before, ¬Reaches succ (stack ++ [u]) w v) →
    Reaches succ (stack ++ [u]) next v → DepthFirstPath (stack ++ [u]) next v path →
    DepthFirstPath stack u v (u :: path)

/-- A path of the search through the first of some nodes its end can be reached from. -/
def PathVia (stack nodes : List α) (v : α) (path : List α) : Prop :=
  ∃ before next after, nodes = before ++ next :: after ∧ (∀ w ∈ before, ¬Reaches succ stack w v) ∧
    Reaches succ stack next v ∧ DepthFirstPath succ stack next v path

/-- A node of a stack closes a cycle through the nodes from it on. -/
def Closes [DecidableEq α] (stack : List α) (x v : α) : Prop :=
  ∃ y ∈ succ x, y ∈ stack ∧ v ∈ stack.dropWhile (· ≠ y)

variable {succ} {stack nodes path before : List α} {node next u v x : α}

theorem Reaches.tail (h : Reaches succ stack u v) (hstep : x ∈ succ v) (hx : x ∉ stack) :
    Reaches succ stack u x :=
  ⟨h.1, h.2.tail ⟨hstep, hx⟩⟩

theorem not_reaches_of_mem (h : u ∈ stack) : ¬Reaches succ stack u v := fun hreach => hreach.1 h

/-- The way from a node to another is done, or passes it once and goes on from a successor. -/
theorem reaches_iff (hnode : node ∉ stack) :
    Reaches succ stack node v ↔ v = node ∨ ∃ next ∈ succ node, Reaches succ (stack ++ [node]) next v := by
  constructor
  · rintro ⟨-, hpath⟩
    induction hpath with
    | refl => exact .inl rfl
    | @tail b c _ hstep ih =>
      by_cases hc : c = node
      · exact .inl hc
      · have hfree : c ∉ stack ++ [node] := by simp [hstep.2, hc]
        rcases ih with rfl | ⟨next, hnext, hreach⟩
        · exact .inr ⟨c, hstep.1, hfree, .refl⟩
        · exact .inr ⟨next, hnext, hreach.tail hstep.1 hfree⟩
  · rintro (rfl | ⟨next, hnext, hfree, hpath⟩)
    · exact ⟨hnode, .refl⟩
    · have hfree' : next ∉ stack := fun hmem => hfree (List.mem_append_left _ hmem)
      refine ⟨hnode, .head ⟨hnext, hfree'⟩ (Relation.ReflTransGen.mono (fun a b hstep => ?_) _ _ hpath)⟩
      exact ⟨hstep.1, fun hmem => hstep.2 (List.mem_append_left _ hmem)⟩

theorem depthFirstPath_iff :
    DepthFirstPath succ stack node v path ↔ v = node ∧ path = [node] ∨
      v ≠ node ∧ ∃ rest, path = node :: rest ∧ PathVia succ (stack ++ [node]) (succ node) v rest := by
  constructor
  · intro h
    cases h with
    | here => exact .inl ⟨rfl, rfl⟩
    | down hne hsucc hbefore hreach hpath =>
      exact .inr ⟨hne, _, rfl, _, _, _, hsucc, hbefore, hreach, hpath⟩
  · rintro (⟨rfl, rfl⟩ | ⟨hne, rest, rfl, before, next, after, hsucc, hbefore, hreach, hpath⟩)
    · exact .here stack v
    · exact .down hne hsucc hbefore hreach hpath

theorem not_pathVia_nil : ¬PathVia succ stack [] v path := by
  rintro ⟨before, next, after, hnil, -⟩
  simp at hnil

theorem pathVia_concat :
    PathVia succ stack (nodes ++ [next]) v path ↔ PathVia succ stack nodes v path ∨
      (∀ w ∈ nodes, ¬Reaches succ stack w v) ∧ Reaches succ stack next v ∧
        DepthFirstPath succ stack next v path := by
  constructor
  · rintro ⟨before, w, after, hsplit, hbefore, hreach, hpath⟩
    rcases List.eq_nil_or_concat' after with rfl | ⟨after, last, rfl⟩
    · obtain ⟨rfl, hw⟩ := List.append_inj' hsplit rfl
      cases hw
      exact .inr ⟨hbefore, hreach, hpath⟩
    · rw [← List.cons_append, ← List.append_assoc] at hsplit
      obtain ⟨hinit, -⟩ := List.append_inj' hsplit rfl
      exact .inl ⟨before, w, after, hinit, hbefore, hreach, hpath⟩
  · rintro (⟨before, w, after, rfl, hbefore, hreach, hpath⟩ | ⟨hbefore, hreach, hpath⟩)
    · exact ⟨before, w, after ++ [next], by simp, hbefore, hreach, hpath⟩
    · exact ⟨nodes, next, [], rfl, hbefore, hreach, hpath⟩

theorem PathVia.exists_reaches (h : PathVia succ stack nodes v path) :
    ∃ w ∈ nodes, Reaches succ stack w v := by
  obtain ⟨before, next, after, rfl, -, hreach, -⟩ := h
  exact ⟨next, by simp, hreach⟩

theorem DepthFirstPath.reaches (h : DepthFirstPath succ stack u v path) (hu : u ∉ stack) :
    Reaches succ stack u v := by
  rcases depthFirstPath_iff.1 h with ⟨rfl, -⟩ | ⟨-, _, -, hvia⟩
  · exact ⟨hu, .refl⟩
  · exact (reaches_iff hu).2 (.inr hvia.exists_reaches)

theorem DepthFirstPath.chain (h : DepthFirstPath succ stack u v path) :
    path.Pairwise (Relation.ReflTransGen fun a b => b ∈ succ a) ∧
      (∀ a ∈ path, Relation.ReflTransGen (fun a b => b ∈ succ a) u a) ∧
      ∀ a ∈ path, Relation.ReflTransGen (fun a b => b ∈ succ a) a v := by
  induction h with
  | here =>
    refine ⟨List.pairwise_singleton _ _, fun a ha => ?_, fun a ha => ?_⟩
    · rw [List.mem_singleton.1 ha]
    · rw [List.mem_singleton.1 ha]
  | @down stack u v before after next path hne hsucc hbefore hreach hpath ih =>
    obtain ⟨hpair, hfrom, hto⟩ := ih
    have hstep : next ∈ succ u := by simp [hsucc]
    have hdown : ∀ a ∈ path, Relation.ReflTransGen (fun a b => b ∈ succ a) u a :=
      fun a ha => .head hstep (hfrom a ha)
    have hend : Relation.ReflTransGen (fun a b => b ∈ succ a) u v :=
      .head hstep (Relation.ReflTransGen.mono (fun _ _ h => h.1) _ _ hreach.2)
    refine ⟨List.pairwise_cons.2 ⟨hdown, hpair⟩, fun a ha => ?_, fun a ha => ?_⟩
    · rcases List.mem_cons.1 ha with rfl | ha
      · exact .refl
      · exact hdown a ha
    · rcases List.mem_cons.1 ha with rfl | ha
      · exact hend
      · exact hto a ha

theorem PathVia.chain (h : PathVia succ stack nodes v path) :
    path.Pairwise (Relation.ReflTransGen fun a b => b ∈ succ a) ∧
      ∀ a ∈ path, Relation.ReflTransGen (fun a b => b ∈ succ a) a v := by
  obtain ⟨before, next, after, -, -, -, hpath⟩ := h
  exact ⟨hpath.chain.1, hpath.chain.2.2⟩

theorem DepthFirstPath.fresh (h : DepthFirstPath succ stack u v path) (hu : u ∉ stack) :
    (∀ a ∈ path, a ∉ stack) ∧ path.Nodup := by
  induction h with
  | here => simp [hu]
  | @down stack u v before after next path hne hsucc hbefore hreach hpath ih =>
    obtain ⟨hfree, hnodup⟩ := ih hreach.1
    have hrest : ∀ a ∈ path, a ∉ stack ∧ a ≠ u := fun a ha => by simpa using hfree a ha
    refine ⟨fun a ha => ?_, List.nodup_cons.2 ⟨fun hmem => (hrest u hmem).2 rfl, hnodup⟩⟩
    rcases List.mem_cons.1 ha with rfl | ha
    · exact hu
    · exact (hrest a ha).1

theorem PathVia.cycle [DecidableEq α] (h : PathVia succ stack nodes x path) (hcloses : Closes succ path x v) :
    Relation.TransGen (fun a b => b ∈ succ a) v v := by
  obtain ⟨y, hy, hmem, hv⟩ := hcloses
  obtain ⟨hpair, hto⟩ := h.chain
  obtain ⟨before, after, rfl, hbefore⟩ := List.eq_append_cons_of_mem hmem
  have hdrop : (before ++ y :: after).dropWhile (· ≠ y) = y :: after := by
    rw [List.dropWhile_append_of_pos fun a ha => decide_eq_true (ne_of_mem_of_not_mem ha hbefore),
      List.dropWhile_cons_of_neg (by simp)]
  rw [hdrop] at hv
  have hvx : Relation.ReflTransGen (fun a b => b ∈ succ a) v x := hto v (List.mem_append_right _ hv)
  have hyv : Relation.ReflTransGen (fun a b => b ∈ succ a) y v := by
    rcases List.mem_cons.1 hv with rfl | hv
    · exact .refl
    · exact (List.pairwise_cons.1 (List.pairwise_append.1 hpair).2.1).1 v hv
  have hclosed : Relation.TransGen (fun a b => b ∈ succ a) v y := Relation.TransGen.tail' hvx hy
  exact hclosed.trans_left hyv

end Paths

/-! ## What the search does -/

section Search

variable [DecidableEq α] (succ : α → List α)

/-- What holds when the search is above a stack: the gray nodes are on it, what a black node leads to has
been met, and as long as nothing is collected no black node leads back to itself. -/
structure Sound (stack : List α) (walk : Walk α) : Prop where
  gray_iff : ∀ v, walk.shade v = .gray ↔ v ∈ stack
  closed : ∀ v, walk.shade v = .black → ∀ y ∈ succ v, walk.shade y ≠ .white
  settled : walk.cyclic = [] → ∀ v, walk.shade v = .black → Acc (fun y x => y ∈ succ x) v

/-- What visiting a node above a stack changes. -/
structure Visited (room : ℕ) (stack : List α) (node : α) (walk walk' : Walk α) : Prop where
  sound : Sound succ stack walk'
  met_iff : ∀ v, walk'.shade v ≠ .white ↔ walk.shade v ≠ .white ∨ Reaches succ stack node v
  cyclic_iff : ∀ v, v ∈ walk'.cyclic ↔ v ∈ walk.cyclic ∨ ∃ x path, walk.shade x = .white ∧
    DepthFirstPath succ stack node x path ∧ Closes succ (stack ++ path) x v
  length_le : ∀ x path, walk.shade x = .white → DepthFirstPath succ stack node x path →
    path.length ≤ room

/-- What looking at some successors above a stack changes: those nodes are met that one of them leads
to. -/
structure Scanned (room : ℕ) (stack seen : List α) (walk walk' : Walk α) : Prop where
  sound : Sound succ stack walk'
  met_iff : ∀ v, walk'.shade v ≠ .white ↔ walk.shade v ≠ .white ∨ ∃ w ∈ seen, Reaches succ stack w v
  cyclic_iff : ∀ v, v ∈ walk'.cyclic ↔ v ∈ walk.cyclic ∨
    (∃ y ∈ seen, y ∈ stack ∧ v ∈ stack.dropWhile (· ≠ y)) ∨
    ∃ x path, walk.shade x = .white ∧ PathVia succ stack seen x path ∧ Closes succ (stack ++ path) x v
  length_le : ∀ x path, walk.shade x = .white → PathVia succ stack seen x path → path.length ≤ room

variable {succ} {room : ℕ} {stack seen rest : List α} {node next v : α} {walk walk' : Walk α}

theorem Scanned.nil (h : Sound succ stack walk) : Scanned succ room stack [] walk walk where
  sound := h
  met_iff v := by simp
  cyclic_iff v := by simp [not_pathVia_nil]
  length_le x path _ hpath := absurd hpath not_pathVia_nil

omit [DecidableEq α] in
theorem Sound.notMem_of_ne_gray (h : Sound succ stack walk) (hnext : walk.shade next ≠ .gray) :
    next ∉ stack :=
  mt (h.gray_iff next).2 hnext

omit [DecidableEq α] in
/-- A black node leads to no node the search has not met, unless over the stack. -/
theorem Sound.met_of_reaches (h : Sound succ stack walk) (hnext : walk.shade next = .black)
    (hreach : Reaches succ stack next v) : walk.shade v = .black := by
  obtain ⟨-, hpath⟩ := hreach
  induction hpath with
  | refl => exact hnext
  | @tail b c _ hstep ih =>
    have hmet := h.closed b ih c hstep.1
    have hgray : walk.shade c ≠ .gray := fun hc => hstep.2 ((h.gray_iff c).1 hc)
    cases hc : walk.shade c with
    | white => exact absurd hc hmet
    | gray => exact absurd hc hgray
    | black => rfl

theorem Scanned.white_iff (h : Scanned succ room stack seen walk walk') (x : α) :
    walk'.shade x = .white ↔ walk.shade x = .white ∧ ∀ w ∈ seen, ¬Reaches succ stack w x := by
  have hmet := not_congr (h.met_iff x)
  push Not at hmet
  exact hmet

theorem Scanned.gray (h : Scanned succ room stack seen walk walk') (hnext : walk'.shade next = .gray) :
    Scanned succ room stack (seen ++ [next]) walk
      { walk' with cyclic := walk'.cyclic ++ stack.dropWhile (· ≠ next) } := by
  have hmem := (h.sound.gray_iff next).1 hnext
  have hvia : ∀ {x path}, PathVia succ stack (seen ++ [next]) x path ↔ PathVia succ stack seen x path := by
    intro x path
    rw [pathVia_concat]
    exact or_iff_left fun hnew => not_reaches_of_mem hmem hnew.2.1
  refine ⟨⟨h.sound.gray_iff, h.sound.closed, fun hnil v hv => ?_⟩, fun v => ?_, fun v => ?_,
    fun x path hx hpath => h.length_le x path hx (hvia.1 hpath)⟩
  · exact h.sound.settled (List.append_eq_nil_iff.1 hnil).1 v hv
  · rw [h.met_iff]
    simp [not_reaches_of_mem hmem]
  · rw [List.mem_append, h.cyclic_iff]
    constructor
    · rintro ((hv | ⟨y, hy, hv⟩ | ⟨x, path, hx, hpath, hv⟩) | hv)
      · exact .inl hv
      · exact .inr (.inl ⟨y, List.mem_append_left _ hy, hv⟩)
      · exact .inr (.inr ⟨x, path, hx, hvia.2 hpath, hv⟩)
      · exact .inr (.inl ⟨next, List.mem_append_right _ List.mem_cons_self, hmem, hv⟩)
    · rintro (hv | ⟨y, hy, hv⟩ | ⟨x, path, hx, hpath, hv⟩)
      · exact .inl (.inl hv)
      · rcases List.mem_append.1 hy with hy | hy
        · exact .inl (.inr (.inl ⟨y, hy, hv⟩))
        · obtain rfl := List.mem_singleton.1 hy
          exact .inr hv.2
      · exact .inl (.inr (.inr ⟨x, path, hx, hvia.1 hpath, hv⟩))

/-- A successor that has been left leads to nothing new. -/
theorem Scanned.black (h : Scanned succ room stack seen walk walk') (hnext : walk'.shade next = .black) :
    Scanned succ room stack (seen ++ [next]) walk walk' := by
  have hold : ∀ {x}, Reaches succ stack next x → walk'.shade x ≠ .white := by
    intro x hreach hwhite
    have hblack := h.sound.met_of_reaches hnext hreach
    rw [hblack] at hwhite
    cases hwhite
  have hfree := h.sound.notMem_of_ne_gray (by rw [hnext]; exact Shade.noConfusion)
  have hvia : ∀ {x path}, walk.shade x = .white →
      (PathVia succ stack (seen ++ [next]) x path ↔ PathVia succ stack seen x path) := by
    intro x path hx
    rw [pathVia_concat]
    refine or_iff_left fun ⟨hnone, hreach, _⟩ => hold hreach ?_
    exact (h.white_iff x).2 ⟨hx, hnone⟩
  refine ⟨h.sound, fun v => ?_, fun v => ?_, fun x path hx hpath => h.length_le x path hx ((hvia hx).1 hpath)⟩
  · constructor
    · intro hv
      rcases (h.met_iff v).1 hv with hv | ⟨w, hw, hreach⟩
      · exact .inl hv
      · exact .inr ⟨w, List.mem_append_left _ hw, hreach⟩
    · rintro (hv | ⟨w, hw, hreach⟩)
      · exact (h.met_iff v).2 (.inl hv)
      · rcases List.mem_append.1 hw with hw | hw
        · exact (h.met_iff v).2 (.inr ⟨w, hw, hreach⟩)
        · rw [List.mem_singleton.1 hw] at hreach
          exact hold hreach
  · rw [h.cyclic_iff]
    refine or_congr_right (or_congr ?_ ?_)
    · simp only [List.mem_append, List.mem_singleton, or_and_right, exists_or, exists_eq_left, hfree,
        false_and, or_false]
    · refine exists_congr fun x => exists_congr fun path => and_congr_right fun hx => ?_
      rw [hvia hx]

theorem Scanned.white {walk'' : Walk α} (h : Scanned succ room stack seen walk walk')
    (hnext : walk'.shade next = .white) (hvisited : Visited succ room stack next walk' walk'') :
    Scanned succ room stack (seen ++ [next]) walk walk'' := by
  have hfree := h.sound.notMem_of_ne_gray (by rw [hnext]; exact Shade.noConfusion)
  have hvia : ∀ {x path}, walk.shade x = .white →
      (PathVia succ stack (seen ++ [next]) x path ↔ PathVia succ stack seen x path ∨
        walk'.shade x = .white ∧ DepthFirstPath succ stack next x path) := by
    intro x path hx
    rw [pathVia_concat, h.white_iff, iff_true_intro hx, true_and]
    refine or_congr_right ⟨fun hnew => ⟨hnew.1, hnew.2.2⟩, fun hnew => ?_⟩
    exact ⟨hnew.1, hnew.2.reaches hfree, hnew.2⟩
  refine ⟨hvisited.sound, fun v => ?_, fun v => ?_, fun x path hx hpath => ?_⟩
  · rw [hvisited.met_iff, h.met_iff]
    simp only [List.mem_append, List.mem_singleton, or_and_right, exists_or, exists_eq_left]
    exact or_assoc
  · rw [hvisited.cyclic_iff, h.cyclic_iff]
    constructor
    · rintro ((hv | ⟨y, hy, hv⟩ | ⟨x, path, hx, hpath, hv⟩) | ⟨x, path, hx, hpath, hv⟩)
      · exact .inl hv
      · exact .inr (.inl ⟨y, List.mem_append_left _ hy, hv⟩)
      · exact .inr (.inr ⟨x, path, hx, (hvia hx).2 (.inl hpath), hv⟩)
      · have hx' := ((h.white_iff x).1 hx).1
        exact .inr (.inr ⟨x, path, hx', (hvia hx').2 (.inr ⟨hx, hpath⟩), hv⟩)
    · rintro (hv | ⟨y, hy, hmem, hv⟩ | ⟨x, path, hx, hpath, hv⟩)
      · exact .inl (.inl hv)
      · rcases List.mem_append.1 hy with hy | hy
        · exact .inl (.inr (.inl ⟨y, hy, hmem, hv⟩))
        · rw [List.mem_singleton.1 hy] at hmem
          exact absurd hmem hfree
      · rcases (hvia hx).1 hpath with hold | ⟨hx', hnew⟩
        · exact .inl (.inr (.inr ⟨x, path, hx, hold, hv⟩))
        · exact .inr ⟨x, path, hx', hnew, hv⟩
  · rcases (hvia hx).1 hpath with hold | ⟨hx', hnew⟩
    · exact h.length_le x path hx hold
    · exact hvisited.length_le x path hx' hnew

/-- A visit ends, or a path of the search is longer than the room. -/
def Explores (succ : α → List α) (room : ℕ) (stack : List α) (node : α) (walk : Walk α)
    (found : Option (Walk α)) : Prop :=
  (∃ walk', found = some walk' ∧ Visited succ room stack node walk walk') ∨
    found = none ∧ ∃ x path, walk.shade x = .white ∧ DepthFirstPath succ stack node x path ∧
      room < path.length

theorem scan_spec (enter : α → Walk α → Option (Walk α)) (rest : List α)
    (henter : ∀ next walk, Sound succ stack walk → walk.shade next = .white →
      Explores succ room stack next walk (enter next walk))
    (h : Scanned succ room stack seen walk walk') :
    (∃ walk'', scan enter stack rest walk' = some walk'' ∧
        Scanned succ room stack (seen ++ rest) walk walk'') ∨
      scan enter stack rest walk' = none ∧ ∃ x path, walk.shade x = .white ∧
        PathVia succ stack (seen ++ rest) x path ∧ room < path.length := by
  induction rest generalizing seen walk' with
  | nil =>
    rw [List.append_nil]
    exact .inl ⟨walk', rfl, h⟩
  | cons next rest ih =>
    have hsplit : seen ++ next :: rest = (seen ++ [next]) ++ rest := by simp
    rw [hsplit]
    cases hnext : walk'.shade next with
    | gray =>
      simp only [scan, hnext]
      exact ih (h.gray hnext)
    | black =>
      simp only [scan, hnext]
      exact ih (h.black hnext)
    | white =>
      simp only [scan, hnext]
      obtain ⟨walk'', hfound, hvisited⟩ | ⟨hfound, x, path, hx, hpath, hlong⟩ :=
        henter next walk' h.sound hnext
      · rw [hfound, Option.bind_some]
        exact ih (h.white hnext hvisited)
      · rw [hfound, Option.bind_none]
        obtain ⟨hx', hnone⟩ := (h.white_iff x).1 hx
        refine .inr ⟨rfl, x, path, hx', ?_, hlong⟩
        have hfree := h.sound.notMem_of_ne_gray (by rw [hnext]; exact Shade.noConfusion)
        exact ⟨seen, next, rest, by simp, hnone, hpath.reaches hfree, hpath⟩

theorem Sound.enter (h : Sound succ stack walk) (hnode : walk.shade node = .white) :
    Sound succ (stack ++ [node]) (walk.paint node .gray) where
  gray_iff v := by
    by_cases hv : v = node
    · simp [hv]
    · simp [Walk.shade_paint_of_ne hv, hv, h.gray_iff]
  closed v hv y hy := by
    have hvn : v ≠ node := by
      rintro rfl
      simp at hv
    rw [Walk.shade_paint_of_ne hvn] at hv
    by_cases hyn : y = node
    · simp [hyn]
    · rw [Walk.shade_paint_of_ne hyn]
      exact h.closed v hv y hy
  settled hnil v hv := by
    have hvn : v ≠ node := by
      rintro rfl
      simp at hv
    rw [Walk.shade_paint_of_ne hvn] at hv
    exact h.settled hnil v hv

theorem mem_dropWhile_self (h : v ∈ stack) : v ∈ stack.dropWhile (· ≠ v) := by
  obtain ⟨before, after, rfl, hbefore⟩ := List.eq_append_cons_of_mem h
  rw [List.dropWhile_append_of_pos fun a ha => decide_eq_true (ne_of_mem_of_not_mem ha hbefore),
    List.dropWhile_cons_of_neg (by simp)]
  exact List.mem_cons_self

/-- A node is left once its successors have been looked at. -/
theorem Scanned.leave (hnode : walk.shade node = .white) (hfree : node ∉ stack)
    (h : Scanned succ room (stack ++ [node]) (succ node) (walk.paint node .gray) walk') :
    Visited succ (room + 1) stack node walk (walk'.paint node .black) := by
  have hpaint : ∀ {x}, x ≠ node → (walk.paint node .gray).shade x = walk.shade x :=
    fun hx => Walk.shade_paint_of_ne hx
  have hpaint' : ∀ {x}, x ≠ node → (walk'.paint node .black).shade x = walk'.shade x :=
    fun hx => Walk.shade_paint_of_ne hx
  have hself : (walk'.paint node .black).shade node = .black := walk'.shade_paint node .black
  -- A white node other than this one has its path below this one.
  have hpath : ∀ {x path}, walk.shade x = .white → (DepthFirstPath succ stack node x path ↔
      x = node ∧ path = [node] ∨ ∃ rest, path = node :: rest ∧
        (walk.paint node .gray).shade x = .white ∧
        PathVia succ (stack ++ [node]) (succ node) x rest) := by
    intro x path hx
    rw [depthFirstPath_iff]
    refine or_congr_right ⟨?_, ?_⟩
    · rintro ⟨hne, rest, rfl, hvia⟩
      exact ⟨rest, rfl, (hpaint hne).trans hx, hvia⟩
    · rintro ⟨rest, rfl, hwhite, hvia⟩
      refine ⟨?_, rest, rfl, hvia⟩
      rintro rfl
      simp at hwhite
  refine ⟨⟨fun v => ?_, fun v hv y hy => ?_, fun hnil v hv => ?_⟩, fun v => ?_, fun v => ?_,
    fun x path hx hdown => ?_⟩
  · by_cases hv : v = node
    · rw [hv, hself]
      exact iff_of_false Shade.noConfusion hfree
    · rw [hpaint' hv, h.sound.gray_iff]
      simp [hv]
  · by_cases hyn : y = node
    · rw [hyn, hself]
      exact Shade.noConfusion
    · rw [hpaint' hyn]
      by_cases hvn : v = node
      · subst hvn
        by_cases hmem : y ∈ stack ++ [v]
        · rw [(h.sound.gray_iff y).2 hmem]
          exact Shade.noConfusion
        · exact (h.met_iff y).2 (.inr ⟨y, hy, hmem, .refl⟩)
      · rw [hpaint' hvn] at hv
        exact h.sound.closed v hv y hy
  · by_cases hvn : v = node
    · subst hvn
      refine Acc.intro v fun y hy => ?_
      have hmem : y ∉ stack ++ [v] := by
        intro hmem
        have hcollected := (h.cyclic_iff y).2 (.inr (.inl ⟨y, hy, hmem, mem_dropWhile_self hmem⟩))
        have hempty : walk'.cyclic = [] := hnil
        rw [hempty] at hcollected
        exact List.not_mem_nil hcollected
      have hmet := (h.met_iff y).2 (.inr ⟨y, hy, hmem, .refl⟩)
      have hgray := mt (h.sound.gray_iff y).1 hmem
      refine h.sound.settled hnil y ?_
      cases hshade : walk'.shade y with
      | white => exact absurd hshade hmet
      | gray => exact absurd hshade hgray
      | black => rfl
    · rw [hpaint' hvn] at hv
      exact h.sound.settled hnil v hv
  · rw [reaches_iff hfree]
    by_cases hv : v = node
    · rw [hv, hself]
      exact iff_of_true Shade.noConfusion (.inr (.inl rfl))
    · rw [hpaint' hv, h.met_iff, hpaint hv, or_iff_right hv]
  · refine (h.cyclic_iff v).trans (or_congr_right ?_)
    constructor
    · rintro (⟨y, hy, hmem, hv⟩ | ⟨x, path, hx, hvia, hv⟩)
      · exact ⟨node, [node], hnode, .here stack node, y, hy, hmem, hv⟩
      · have hne : x ≠ node := by
          rintro rfl
          simp at hx
        refine ⟨x, node :: path, (hpaint hne).symm.trans hx, ?_, ?_⟩
        · exact (hpath ((hpaint hne).symm.trans hx)).2 (.inr ⟨path, rfl, hx, hvia⟩)
        · rw [List.append_assoc] at hv
          exact hv
    · rintro ⟨x, path, hx, hdown, hv⟩
      rcases (hpath hx).1 hdown with ⟨rfl, rfl⟩ | ⟨rest, rfl, hwhite, hvia⟩
      · exact .inl hv
      · refine .inr ⟨x, rest, hwhite, hvia, ?_⟩
        rw [List.append_assoc]
        exact hv
  · rcases (hpath hx).1 hdown with ⟨rfl, rfl⟩ | ⟨rest, rfl, hwhite, hvia⟩
    · simp
    · have hle := h.length_le x rest hwhite hvia
      rw [List.length_cons]
      omega

/-- A visit takes the paths of the search, unless one of them is longer than the room. -/
theorem visit_spec (hsound : Sound succ stack walk) (hnode : walk.shade node = .white) :
    Explores succ room stack node walk (visit succ room node stack walk) := by
  induction room generalizing node stack walk with
  | zero => exact .inr ⟨rfl, node, [node], hnode, .here stack node, Nat.one_pos⟩
  | succ room ih =>
    have hfree := hsound.notMem_of_ne_gray (by rw [hnode]; exact Shade.noConfusion)
    have hstart : Scanned succ room (stack ++ [node]) [] (walk.paint node .gray) (walk.paint node .gray) :=
      .nil (hsound.enter hnode)
    have hscan := scan_spec (fun next walk => visit succ room next (stack ++ [node]) walk) (succ node)
      (fun next walk hsound hnext => ih hsound hnext) hstart
    rw [List.nil_append] at hscan
    unfold visit
    obtain ⟨walk', hfound, hscanned⟩ | ⟨hfound, x, path, hx, hvia, hlong⟩ := hscan
    · rw [hfound]
      exact .inl ⟨_, rfl, hscanned.leave hnode hfree⟩
    · rw [hfound]
      have hne : x ≠ node := by
        rintro rfl
        simp at hx
      rw [Walk.shade_paint_of_ne hne] at hx
      refine .inr ⟨rfl, x, node :: path, hx, depthFirstPath_iff.2 (.inr ⟨hne, path, rfl, hvia⟩), ?_⟩
      rw [List.length_cons]
      omega

/-! ## The search of all nodes -/

variable {nodes : List α}

theorem traverse_spec (succ : α → List α) (room : ℕ) (nodes : List α) :
    (∃ walk, traverse succ room nodes = some walk ∧
        Scanned succ room [] nodes ⟨fun _ => .white, []⟩ walk) ∨
      traverse succ room nodes = none ∧ ∃ x path, PathVia succ [] nodes x path ∧ room < path.length := by
  have hstart : Sound succ [] ⟨fun _ => .white, []⟩ :=
    ⟨fun v => by simp, fun _ hv => (nomatch hv), fun _ _ hv => (nomatch hv)⟩
  have hscan := scan_spec (fun next walk => visit succ room next [] walk) nodes
    (fun next walk hsound hnext => visit_spec hsound hnext) (.nil hstart)
  rw [List.nil_append] at hscan
  obtain hfound | ⟨hfound, x, path, -, hvia, hlong⟩ := hscan
  · exact .inl hfound
  · exact .inr ⟨hfound, x, path, hvia, hlong⟩

theorem traverse_isSome_iff :
    (traverse succ room nodes).isSome ↔ ∀ x path, PathVia succ [] nodes x path → path.length ≤ room := by
  obtain ⟨walk, hfound, hscanned⟩ | ⟨hfound, x, path, hvia, hlong⟩ := traverse_spec succ room nodes
  · rw [hfound]
    exact iff_of_true rfl fun x path hvia => hscanned.length_le x path rfl hvia
  · rw [hfound]
    refine iff_of_false Bool.false_ne_true fun hshort => ?_
    exact absurd (hshort x path hvia) (Nat.not_le.2 hlong)

theorem traverse_scanned (h : traverse succ room nodes = some walk) :
    Scanned succ room [] nodes ⟨fun _ => .white, []⟩ walk := by
  obtain ⟨walk', hfound, hscanned⟩ | ⟨hfound, -⟩ := traverse_spec succ room nodes
  · rw [hfound] at h
    obtain rfl := Option.some.inj h
    exact hscanned
  · rw [hfound] at h
    cases h

theorem mem_cyclic_iff (h : traverse succ room nodes = some walk) :
    v ∈ walk.cyclic ↔ ∃ x path, PathVia succ [] nodes x path ∧ Closes succ path x v := by
  rw [(traverse_scanned h).cyclic_iff]
  simp

/-- A node that leads to itself, by one step or more. -/
def OnCycle (succ : α → List α) (v : α) : Prop := Relation.TransGen (fun a b => b ∈ succ a) v v

omit [DecidableEq α] in
theorem not_onCycle_of_acc (h : Acc (fun y x => y ∈ succ x) v) : ¬OnCycle succ v := by
  have hacc := h.transGen
  induction hacc with
  | intro v _ ih =>
    intro hcycle
    have hswap : Relation.TransGen (fun y x => y ∈ succ x) v v := by
      rw [← Relation.transGen_swap]
      exact hcycle
    exact ih v hswap (h.inv_of_transGen hswap) hcycle

theorem onCycle_of_mem (h : traverse succ room nodes = some walk) (hv : v ∈ walk.cyclic) :
    OnCycle succ v := by
  obtain ⟨x, path, hvia, hcloses⟩ := (mem_cyclic_iff h).1 hv
  exact hvia.cycle hcloses

/-- Nothing is collected exactly when no node is on a cycle. -/
theorem cyclic_eq_nil_iff (h : traverse succ room nodes = some walk)
    (hsucc : ∀ v, v ∉ nodes → succ v = []) : walk.cyclic = [] ↔ ∀ v, ¬OnCycle succ v := by
  have hscanned := traverse_scanned h
  constructor
  · intro hnil v hcycle
    have hnode : v ∈ nodes := by
      by_contra hnot
      obtain ⟨w, hstep, -⟩ := Relation.TransGen.head'_iff.1 hcycle
      rw [hsucc v hnot] at hstep
      exact List.not_mem_nil hstep
    have hmet := (hscanned.met_iff v).2 (.inr ⟨v, hnode, List.not_mem_nil, .refl⟩)
    have hgray := mt (hscanned.sound.gray_iff v).1 List.not_mem_nil
    refine not_onCycle_of_acc (hscanned.sound.settled hnil v ?_) hcycle
    cases hshade : walk.shade v with
    | white => exact absurd hshade hmet
    | gray => exact absurd hshade hgray
    | black => rfl
  · intro hnone
    exact List.eq_nil_iff_forall_not_mem.2 fun v hv => hnone v (onCycle_of_mem h hv)

end Search

end OmniviaCore.Lib.DepthFirst
