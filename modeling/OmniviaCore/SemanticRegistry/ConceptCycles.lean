import OmniviaCore.SemanticRegistry.Application
import OmniviaCore.SemanticRegistry.Ordering
import OmniviaCore.Lib.DepthFirst

/-!
# Concept cycles

`_concept_cycle_findings` is a depth-first search over the parent edges of the concepts (`Lib.DepthFirst`),
in an interpreter that raises a `RecursionError` when the search goes deeper than there is room for. A
concept is reported only if a path of the search closes a cycle through it, so the report is exact where the
paths of the search cover all cycles (`Covered`), which depends on the order of the mapping and of the parents.
-/

namespace OmniviaCore.SemanticRegistry

open Lib CanonicalJson

def conceptsOf (elements : Elements) : Elements :=
  elements.filterValues fun element => element.kind = .concept

/-- One parent of the concept on top of the stack; `enter` is `visit`. -/
def lookAt (enter : Str → Walk → Option Walk) (stack : List Str) (walk : Walk) (parent : Str) :
    Option Walk :=
  match walk.color.get parent with
  | some .gray => some { walk with cyclic := walk.cyclic ++ stack.dropWhile (· ≠ parent) }
  | some .white => enter parent walk
  | _ => some walk

/-- `visit`, with room for so many calls; `none` is a `RecursionError`. -/
def visitWithin (concepts : Elements) : ℕ → Str → List Str → Walk → Option Walk
  | 0, _, _, _ => none
  | room + 1, node, stack, walk =>
    let stack := stack ++ [node]
    let parents := ((concepts.get node).map parentsOf).getD []
    (parents.foldlM (lookAt (fun parent walk => visitWithin concepts room parent stack walk) stack)
      { walk with color := walk.color.set node .gray }).map fun walk =>
        { walk with color := walk.color.set node .black }

def walkWithin (room : ℕ) (concepts : Elements) : Option Walk :=
  (concepts.entries.map Prod.fst).foldlM (fun walk name =>
    match walk.color.get name with
    | some .white => visitWithin concepts room name [] walk
    | _ => some walk) ⟨concepts.mapValues fun _ => .white, []⟩

/-- `_concept_cycle_findings`, with room for so many calls. -/
def conceptCycleFindingsWithin (room index : ℕ) (elements : Elements) : Option (List ValidationFinding) :=
  (walkWithin room (conceptsOf elements)).map fun walk =>
    (sortBy codePoints walk.cyclic.dedup).map fun name => .conceptParentCycle index name

/-! ## What is reported, and when all of it is -/

def ParentEdge (elements : Elements) (name parent : Str) : Prop :=
  ∃ concept other, elements.get name = some concept ∧ concept.kind = .concept ∧
    parent ∈ parentsOf concept ∧ elements.get parent = some other ∧ other.kind = .concept

/-- A concept on a directed cycle of parent edges. -/
def OnConceptCycle (elements : Elements) (name : Str) : Prop :=
  Relation.TransGen (ParentEdge elements) name name

/-- One finding for each concept on a cycle, and no other. -/
def ReportsCycles (room index : ℕ) (elements : Elements) : Prop :=
  ∃ names : List Str,
    conceptCycleFindingsWithin room index elements = some (names.map (.conceptParentCycle index)) ∧
      names.Nodup ∧ ∀ name, name ∈ names ↔ OnConceptCycle elements name

/-- The parents of a concept that are concepts, in order. -/
def parentEdges (concepts : Elements) (name : Str) : List Str :=
  (((concepts.get name).map parentsOf).getD []).filter fun parent => (concepts.get parent).isSome

/-- The depth-first path to a concept: from the first concept it can be reached from, each step to the
first parent it can still be reached from. -/
def SearchPath (elements : Elements) (name : Str) (path : List Str) : Prop :=
  DepthFirst.PathVia (parentEdges (conceptsOf elements)) [] ((conceptsOf elements).entries.map Prod.fst)
    name path

/-- No depth-first path is longer than there is room for, and each concept on a cycle stands on the path
to a concept that has a parent on it, at or before the concept. -/
structure Covered (room : ℕ) (elements : Elements) : Prop where
  shallow : ∀ name path, SearchPath elements name path → path.length ≤ room
  closed : ∀ name, OnConceptCycle elements name → ∃ last path, SearchPath elements last path ∧
    DepthFirst.Closes (parentEdges (conceptsOf elements)) path last name

def parentsAt (elements : Elements) (name : Str) : Option (List Str) :=
  ((conceptsOf elements).get name).map parentsOf

/-- The concepts of two candidates are the same up to the order of the mapping and of the parents. -/
def SameHierarchy (elements elements' : Elements) : Prop :=
  ∀ name, Option.Rel List.Perm (parentsAt elements name) (parentsAt elements' name)

/-! ## The search is depth-first search -/

section Search

variable {concepts elements elements' : Elements} {room index : ℕ}

def shadeOf : DepthFirst.Shade → Color
  | .white => .white
  | .gray => .gray
  | .black => .black

theorem rel_map {α β γ δ : Type} {R : α → β → Prop} {S : γ → δ → Prop} {f : α → γ} {g : β → δ}
    {a : Option α} {b : Option β} (h : Option.Rel R a b) (hmap : ∀ {x y}, R x y → S (f x) (g y)) :
    Option.Rel S (a.map f) (b.map g) := by
  cases h with
  | none => exact .none
  | some hxy => exact .some (hmap hxy)

theorem isSome_of_rel {α β : Type} {R : α → β → Prop} {a : Option α} {b : Option β}
    (h : Option.Rel R a b) : a.isSome = b.isSome := by
  cases h with
  | none => rfl
  | some _ => rfl

/-- The colours of the concepts are those of the search, and nothing else has one. -/
structure Mirrors (concepts : Elements) (walk : Walk) (search : DepthFirst.Walk Str) : Prop where
  cyclic : walk.cyclic = search.cyclic
  color : ∀ name, walk.color.get name =
    if (concepts.get name).isSome then some (shadeOf (search.shade name)) else none

theorem Mirrors.paint {walk : Walk} {search : DepthFirst.Walk Str} (h : Mirrors concepts walk search)
    {node : Str} (hnode : (concepts.get node).isSome) (shade : DepthFirst.Shade) :
    Mirrors concepts { walk with color := walk.color.set node (shadeOf shade) } (search.paint node shade) := by
  refine ⟨h.cyclic, fun name => ?_⟩
  by_cases hname : name = node
  · subst hname
    rw [Dict.get_set_self, if_pos hnode, DepthFirst.Walk.shade_paint]
  · rw [Dict.get_set_of_ne hname, DepthFirst.Walk.shade_paint_of_ne hname, h.color]

theorem mirrors_scan (enter : Str → Walk → Option Walk)
    (enter' : Str → DepthFirst.Walk Str → Option (DepthFirst.Walk Str)) (stack : List Str)
    (henter : ∀ {next walk search}, (concepts.get next).isSome → Mirrors concepts walk search →
      Option.Rel (Mirrors concepts) (enter next walk) (enter' next search))
    (parents : List Str) {walk : Walk} {search : DepthFirst.Walk Str} (h : Mirrors concepts walk search) :
    Option.Rel (Mirrors concepts) (parents.foldlM (lookAt enter stack) walk)
      (DepthFirst.scan enter' stack (parents.filter fun parent => (concepts.get parent).isSome) search) := by
  induction parents generalizing walk search with
  | nil => exact .some h
  | cons parent parents ih =>
    rw [List.foldlM_cons, lookAt, h.color]
    by_cases hparent : (concepts.get parent).isSome
    · rw [if_pos hparent, List.filter_cons_of_pos (by simpa using hparent), DepthFirst.scan]
      cases hshade : search.shade parent with
      | white =>
        have hrel := henter hparent h
        simp only [shadeOf]
        revert hrel
        generalize enter parent walk = found
        generalize enter' parent search = found'
        intro hrel
        cases hrel with
        | none => exact .none
        | some hwalk => exact ih hwalk
      | gray =>
        simp only [shadeOf]
        exact ih ⟨by rw [h.cyclic], h.color⟩
      | black =>
        simp only [shadeOf]
        exact ih h
    · rw [if_neg hparent, List.filter_cons_of_neg (by simpa using hparent)]
      exact ih h

theorem mirrors_visit (room : ℕ) {node : Str} (stack : List Str) {walk : Walk}
    {search : DepthFirst.Walk Str} (hnode : (concepts.get node).isSome) (h : Mirrors concepts walk search) :
    Option.Rel (Mirrors concepts) (visitWithin concepts room node stack walk)
      (DepthFirst.visit (parentEdges concepts) room node stack search) := by
  induction room generalizing node stack walk search with
  | zero => exact .none
  | succ room ih =>
    have hscan := mirrors_scan (fun parent walk => visitWithin concepts room parent (stack ++ [node]) walk)
      (fun parent search => DepthFirst.visit (parentEdges concepts) room parent (stack ++ [node]) search)
      (stack ++ [node]) (fun hnext hwalk => ih (stack ++ [node]) hnext hwalk)
      (((concepts.get node).map parentsOf).getD []) (h.paint hnode .gray)
    exact rel_map hscan fun hwalk => hwalk.paint hnode .black

theorem mem_names_iff {name : Str} :
    name ∈ concepts.entries.map Prod.fst ↔ (concepts.get name).isSome := by
  rw [Option.isSome_iff_exists, List.mem_map]
  simp only [Dict.get_eq_some]
  constructor
  · rintro ⟨⟨name, element⟩, hentry, rfl⟩
    exact ⟨element, hentry⟩
  · rintro ⟨element, hentry⟩
    exact ⟨_, hentry, rfl⟩

theorem mirrors_start (concepts : Elements) :
    Mirrors concepts ⟨concepts.mapValues fun _ => .white, []⟩ ⟨fun _ => .white, []⟩ := by
  refine ⟨rfl, fun name => ?_⟩
  rw [Dict.get_mapValues]
  cases concepts.get name with
  | none => rfl
  | some _ => rfl

/-- The search of all concepts is the search of the graph of their parent edges. -/
theorem mirrors_walk (room : ℕ) (concepts : Elements) :
    Option.Rel (Mirrors concepts) (walkWithin room concepts)
      (DepthFirst.traverse (parentEdges concepts) room (concepts.entries.map Prod.fst)) := by
  have hscan := mirrors_scan (fun name walk => visitWithin concepts room name [] walk)
    (fun name search => DepthFirst.visit (parentEdges concepts) room name [] search) []
    (fun hnext hwalk => mirrors_visit room [] hnext hwalk) (concepts.entries.map Prod.fst)
    (mirrors_start concepts)
  have hall : (concepts.entries.map Prod.fst).filter (fun parent => (concepts.get parent).isSome) =
      concepts.entries.map Prod.fst :=
    List.filter_eq_self.2 fun name hname => mem_names_iff.1 hname
  have hlook : lookAt (fun name walk => visitWithin concepts room name [] walk) [] =
      fun walk name => match walk.color.get name with
        | some .white => visitWithin concepts room name [] walk
        | _ => some walk := by
    funext walk name
    unfold lookAt
    split
    · next hgray =>
      rw [hgray]
      simp
    · next hwhite => rw [hwhite]
    · next hgray hwhite =>
      split
      · next h => exact absurd h hwhite
      · rfl
  rw [hall, hlook] at hscan
  exact hscan

/-! ## The graph of the parent edges -/

theorem get_conceptsOf (elements : Elements) (name : Str) :
    (conceptsOf elements).get name = (elements.get name).filter fun element => element.kind = .concept :=
  Dict.get_filterValues elements _ name

theorem mem_parentEdges {name parent : Str} :
    parent ∈ parentEdges (conceptsOf elements) name ↔ ParentEdge elements name parent := by
  have hconcept : ∀ {name : Str} {element : Element}, (conceptsOf elements).get name = some element ↔
      elements.get name = some element ∧ element.kind = .concept := by
    intro name element
    rw [get_conceptsOf, Option.filter_eq_some_iff, decide_eq_true_eq]
  unfold parentEdges ParentEdge
  simp only [List.mem_filter, Option.isSome_iff_exists, hconcept]
  cases hget : (conceptsOf elements).get name with
  | none =>
    refine iff_of_false (fun h => List.not_mem_nil h.1) ?_
    rintro ⟨concept, other, hname, hkind, -⟩
    rw [hconcept.2 ⟨hname, hkind⟩] at hget
    cases hget
  | some concept =>
    obtain ⟨hname, hkind⟩ := hconcept.1 hget
    simp only [Option.map_some, Option.getD_some]
    constructor
    · rintro ⟨hparent, other, hother⟩
      exact ⟨concept, other, hname, hkind, hparent, hother⟩
    · rintro ⟨concept', other, hname', -, hparent, hother⟩
      obtain rfl := Option.some.inj (hname.symm.trans hname')
      exact ⟨hparent, other, hother⟩

theorem onConceptCycle_iff {name : Str} :
    DepthFirst.OnCycle (parentEdges (conceptsOf elements)) name ↔ OnConceptCycle elements name := by
  have hedge : (fun a b => b ∈ parentEdges (conceptsOf elements) a) = ParentEdge elements := by
    funext a b
    exact propext mem_parentEdges
  unfold DepthFirst.OnCycle OnConceptCycle
  rw [hedge]

theorem findings_eq_some {findings : List ValidationFinding}
    (h : conceptCycleFindingsWithin room index elements = some findings) :
    ∃ search, DepthFirst.traverse (parentEdges (conceptsOf elements)) room
        ((conceptsOf elements).entries.map Prod.fst) = some search ∧
      findings = (sortBy codePoints search.cyclic.dedup).map (.conceptParentCycle index) := by
  obtain ⟨walk, hwalk, rfl⟩ := Option.map_eq_some_iff.1 h
  have hmirrors := mirrors_walk room (conceptsOf elements)
  rw [hwalk] at hmirrors
  cases hsearch : DepthFirst.traverse (parentEdges (conceptsOf elements)) room
      ((conceptsOf elements).entries.map Prod.fst) with
  | none =>
    rw [hsearch] at hmirrors
    cases hmirrors
  | some search =>
    rw [hsearch] at hmirrors
    cases hmirrors with
    | some hmirrors => exact ⟨search, rfl, by rw [hmirrors.cyclic]⟩

theorem findings_isSome_iff : (conceptCycleFindingsWithin room index elements).isSome ↔
    ∀ name path, SearchPath elements name path → path.length ≤ room := by
  unfold SearchPath
  rw [← DepthFirst.traverse_isSome_iff, conceptCycleFindingsWithin, Option.isSome_map,
    isSome_of_rel (mirrors_walk room (conceptsOf elements))]

/-- A concept is reported exactly when a path of the search closes a cycle through it. -/
theorem mem_reported_iff {search : DepthFirst.Walk Str}
    (h : DepthFirst.traverse (parentEdges (conceptsOf elements)) room
      ((conceptsOf elements).entries.map Prod.fst) = some search) {name : Str} :
    name ∈ sortBy codePoints search.cyclic.dedup ↔ ∃ last path, SearchPath elements last path ∧
      DepthFirst.Closes (parentEdges (conceptsOf elements)) path last name := by
  rw [mem_sortBy, List.mem_dedup, DepthFirst.mem_cyclic_iff h]
  rfl

theorem nodup_reported (search : DepthFirst.Walk Str) : (sortBy codePoints search.cyclic.dedup).Nodup :=
  (perm_sortBy _).nodup_iff.2 (List.nodup_dedup _)

theorem conceptParentCycle_injective (index : ℕ) :
    Function.Injective (ValidationFinding.conceptParentCycle index) := by
  intro a b h
  cases h
  rfl

/-- The report is exact where the paths of the search cover the cycles. -/
theorem reportsCycles_iff : ReportsCycles room index elements ↔ Covered room elements := by
  constructor
  · rintro ⟨names, hfound, -, hnames⟩
    obtain ⟨search, hsearch, hreported⟩ := findings_eq_some hfound
    obtain rfl := List.map_injective_iff.2 (conceptParentCycle_injective index) hreported
    have hsome : (conceptCycleFindingsWithin room index elements).isSome := by
      rw [hfound]
      rfl
    refine ⟨findings_isSome_iff.1 hsome, fun name hcycle => ?_⟩
    exact (mem_reported_iff hsearch).1 ((hnames name).2 hcycle)
  · rintro ⟨hshallow, hclosed⟩
    have hsome : (conceptCycleFindingsWithin room index elements).isSome := findings_isSome_iff.2 hshallow
    obtain ⟨findings, hfound⟩ := Option.isSome_iff_exists.1 hsome
    obtain ⟨search, hsearch, rfl⟩ := findings_eq_some hfound
    refine ⟨_, hfound, nodup_reported search, fun name => ⟨fun hname => ?_, fun hcycle => ?_⟩⟩
    · rw [mem_sortBy, List.mem_dedup] at hname
      exact onConceptCycle_iff.1 (DepthFirst.onCycle_of_mem hsearch hname)
    · exact (mem_reported_iff hsearch).2 (hclosed name hcycle)

theorem findings_agree {room' : ℕ} {findings findings' : List ValidationFinding}
    (h : conceptCycleFindingsWithin room index elements = some findings)
    (h' : conceptCycleFindingsWithin room' index elements = some findings') : findings = findings' := by
  obtain ⟨search, hsearch, rfl⟩ := findings_eq_some h
  obtain ⟨search', hsearch', rfl⟩ := findings_eq_some h'
  have hperm : search.cyclic.dedup.Perm search'.cyclic.dedup := by
    apply (List.perm_ext_iff_of_nodup (List.nodup_dedup _) (List.nodup_dedup _)).2
    intro name
    rw [List.mem_dedup, List.mem_dedup, DepthFirst.mem_cyclic_iff hsearch, DepthFirst.mem_cyclic_iff hsearch']
  rw [(sortBy_eq_iff_perm fun _ _ _ _ heq => codePoints_injective heq).2 hperm]

/-! ## What is reported is on a cycle, and no cycle goes unnoticed -/

theorem reported_onConceptCycle {names : List Str}
    (h : conceptCycleFindingsWithin room index elements = some (names.map (.conceptParentCycle index)))
    {name : Str} (hname : name ∈ names) : OnConceptCycle elements name := by
  obtain ⟨search, hsearch, hreported⟩ := findings_eq_some h
  obtain rfl := List.map_injective_iff.2 (conceptParentCycle_injective index) hreported
  rw [mem_sortBy, List.mem_dedup] at hname
  exact onConceptCycle_iff.1 (DepthFirst.onCycle_of_mem hsearch hname)

theorem findings_eq_nil_iff {findings : List ValidationFinding}
    (h : conceptCycleFindingsWithin room index elements = some findings) :
    findings = [] ↔ ∀ name, ¬OnConceptCycle elements name := by
  obtain ⟨search, hsearch, rfl⟩ := findings_eq_some h
  have hoff : ∀ name, name ∉ (conceptsOf elements).entries.map Prod.fst →
      parentEdges (conceptsOf elements) name = [] := by
    intro name hname
    rw [mem_names_iff, Bool.not_eq_true, Option.isSome_eq_false_iff, Option.isNone_iff_eq_none] at hname
    rw [parentEdges, hname]
    rfl
  have hnil : search.cyclic = [] ↔ ∀ name, ¬OnConceptCycle elements name := by
    simp only [DepthFirst.cyclic_eq_nil_iff hsearch hoff, onConceptCycle_iff]
  rw [← hnil, List.map_eq_nil_iff]
  have hmem : ∀ name, name ∈ sortBy codePoints search.cyclic.dedup ↔ name ∈ search.cyclic := by
    intro name
    rw [mem_sortBy, List.mem_dedup]
  simp only [List.eq_nil_iff_forall_not_mem, hmem]

/-! ## Other orders of the same concepts -/

theorem parentEdge_iff {name parent : Str} : ParentEdge elements name parent ↔
    ∃ parents, parentsAt elements name = some parents ∧ parent ∈ parents ∧
      (parentsAt elements parent).isSome := by
  rw [← mem_parentEdges]
  unfold parentEdges parentsAt
  rw [List.mem_filter, Option.isSome_map]
  cases (conceptsOf elements).get name with
  | none => simp
  | some concept => simp

theorem SameHierarchy.refl (elements : Elements) : SameHierarchy elements elements := by
  intro name
  cases parentsAt elements name with
  | none => exact .none
  | some parents => exact .some (List.Perm.refl parents)

theorem SameHierarchy.parentEdge (h : SameHierarchy elements elements') {name parent : Str} :
    ParentEdge elements' name parent ↔ ParentEdge elements name parent := by
  rw [parentEdge_iff, parentEdge_iff, isSome_of_rel (h parent)]
  have hname := h name
  generalize parentsAt elements name = parents at hname ⊢
  generalize parentsAt elements' name = parents' at hname ⊢
  cases hname with
  | none => simp
  | some hperm => simp [hperm.mem_iff]

theorem SameHierarchy.onConceptCycle (h : SameHierarchy elements elements') (name : Str) :
    OnConceptCycle elements' name ↔ OnConceptCycle elements name := by
  have hedge : ParentEdge elements' = ParentEdge elements := by
    funext a b
    exact propext h.parentEdge
  unfold OnConceptCycle
  rw [hedge]

theorem ReportsCycles.congr (h : SameHierarchy elements elements')
    (hexact : ReportsCycles room index elements) (hexact' : ReportsCycles room index elements') :
    conceptCycleFindingsWithin room index elements' = conceptCycleFindingsWithin room index elements := by
  obtain ⟨names, hfound, -, hnames⟩ := hexact
  obtain ⟨names', hfound', -, hnames'⟩ := hexact'
  obtain ⟨search, -, hreported⟩ := findings_eq_some hfound
  obtain ⟨search', -, hreported'⟩ := findings_eq_some hfound'
  obtain rfl := List.map_injective_iff.2 (conceptParentCycle_injective index) hreported
  obtain rfl := List.map_injective_iff.2 (conceptParentCycle_injective index) hreported'
  have hperm : search'.cyclic.dedup.Perm search.cyclic.dedup := by
    apply (List.perm_ext_iff_of_nodup (List.nodup_dedup _) (List.nodup_dedup _)).2
    intro name
    have hsorted : ∀ {found : List Str}, name ∈ sortBy codePoints found ↔ name ∈ found := mem_sortBy
    rw [← hsorted, hnames', h.onConceptCycle, ← hnames, hsorted]
  rw [hfound, hfound', (sortBy_eq_iff_perm fun _ _ _ _ heq => codePoints_injective heq).2 hperm]

end Search

/-! ## The two models of the search -/

section Fuel

variable {concepts : Elements}

theorem foldl_eq_of_foldlM {α β : Type} {f : α → β → Option α} {g : α → β → α}
    (hstep : ∀ {s x t}, f s x = some t → g s x = t) (xs : List β) {s t : α}
    (h : xs.foldlM f s = some t) : xs.foldl g s = t := by
  induction xs generalizing s with
  | nil => exact Option.some.inj h
  | cons x xs ih =>
    rw [List.foldlM_cons] at h
    obtain ⟨next, hnext, hrest⟩ := Option.bind_eq_some_iff.1 h
    rw [List.foldl_cons, hstep hnext]
    exact ih hrest

theorem visit_of_visitWithin (room : ℕ) {node : Str} {stack : List Str} {walk walk' : Walk}
    (h : visitWithin concepts room node stack walk = some walk') :
    visit concepts room node stack walk = walk' := by
  induction room generalizing node stack walk walk' with
  | zero => cases h
  | succ room ih =>
    obtain ⟨last, hlast, rfl⟩ := Option.map_eq_some_iff.1 h
    refine congrArg (fun walk : Walk => { walk with color := walk.color.set node .black })
      (foldl_eq_of_foldlM (fun {walk parent next} hnext => ?_) _ hlast)
    revert hnext
    unfold lookAt
    rcases walk.color.get parent with _ | _ | _ | _
    · exact Option.some.inj
    · exact ih
    · exact Option.some.inj
    · exact Option.some.inj

theorem SearchPath.length_le {elements : Elements} {name : Str} {path : List Str}
    (h : SearchPath elements name path) : path.length ≤ (conceptsOf elements).entries.length := by
  obtain ⟨before, next, after, hsplit, -, hreach, hpath⟩ := h
  have hnext : next ∈ (conceptsOf elements).entries.map Prod.fst := by simp [hsplit]
  have hnodes : ∀ a, Relation.ReflTransGen (fun a b => b ∈ parentEdges (conceptsOf elements) a) next a →
      a ∈ (conceptsOf elements).entries.map Prod.fst := by
    intro a hreach
    induction hreach with
    | refl => exact hnext
    | tail _ hstep _ => exact mem_names_iff.2 (List.mem_filter.1 hstep).2
  have hsubset : path ⊆ (conceptsOf elements).entries.map Prod.fst :=
    fun a ha => hnodes a (hpath.chain.2.1 a ha)
  have hle := ((hpath.fresh List.not_mem_nil).2.subperm hsubset).length_le
  rwa [List.length_map] at hle

/-- With room for each concept the search is the one of `apply_operations`. -/
theorem conceptCycleFindingsWithin_eq (index : ℕ) (elements : Elements) :
    conceptCycleFindingsWithin (conceptsOf elements).entries.length index elements =
      some (conceptCycleFindings index elements) := by
  have hsome : (conceptCycleFindingsWithin (conceptsOf elements).entries.length index elements).isSome :=
    findings_isSome_iff.2 fun _ _ hpath => hpath.length_le
  obtain ⟨findings, hfound⟩ := Option.isSome_iff_exists.1 hsome
  obtain ⟨walk, hwalk, rfl⟩ := Option.map_eq_some_iff.1 hfound
  have hlast : ((conceptsOf elements).entries.map Prod.fst).foldl (fun walk name =>
      match walk.color.get name with
      | some .white => visit (conceptsOf elements) (conceptsOf elements).entries.length name [] walk
      | _ => walk) ⟨(conceptsOf elements).mapValues fun _ => .white, []⟩ = walk := by
    refine foldl_eq_of_foldlM (fun {walk name next} hnext => ?_) _ hwalk
    split at hnext
    · exact visit_of_visitWithin _ hnext
    · exact Option.some.inj hnext
  rw [hfound, conceptCycleFindings, List.length_map]
  exact congrArg (fun walk : Walk => some ((sortBy codePoints walk.cyclic.dedup).map fun name =>
    ValidationFinding.conceptParentCycle index name)) hlast.symm

/-- A search that ends within the room is the one of `apply_operations`. -/
theorem conceptCycleFindings_of_within {room index : ℕ} {elements : Elements}
    {findings : List ValidationFinding}
    (h : conceptCycleFindingsWithin room index elements = some findings) :
    conceptCycleFindings index elements = findings :=
  findings_agree (conceptCycleFindingsWithin_eq index elements) h

end Fuel

/-- The report is exact precisely where the paths of the search cover the cycles, and for every order of
the concepts and of their parents precisely where they do so for every order. What is reported is on a
cycle in any case, and nothing is reported only of a hierarchy without cycles. -/
theorem concept_cycles_reported_iff (room index : ℕ) (elements : Elements) :
    (ReportsCycles room index elements ↔ Covered room elements) ∧
    (ReportsCycles room index elements ∧
        (conceptCycleFindingsWithin room index elements = some [] ↔
          ∀ name, ¬OnConceptCycle elements name) ∧
        (∀ elements', SameHierarchy elements elements' → conceptCycleFindingsWithin room index elements' =
          conceptCycleFindingsWithin room index elements) ↔
      ∀ elements', SameHierarchy elements elements' → Covered room elements') ∧
    ∀ names : List Str,
      conceptCycleFindingsWithin room index elements = some (names.map (.conceptParentCycle index)) →
      (∀ name ∈ names, OnConceptCycle elements name) ∧
        (names = [] ↔ ∀ name, ¬OnConceptCycle elements name) := by
  refine ⟨reportsCycles_iff, ⟨?_, fun h => ?_⟩, fun names hfound => ?_⟩
  · rintro ⟨⟨names, hfound, hnodup, hnames⟩, -, hfree⟩ elements' hsame
    have hreports : ReportsCycles room index elements' := by
      refine ⟨names, (hfree elements' hsame).trans hfound, hnodup, ?_⟩
      intro name
      rw [hnames, hsame.onConceptCycle]
    exact reportsCycles_iff.1 hreports
  · have hexact : ReportsCycles room index elements := reportsCycles_iff.2 (h elements (.refl elements))
    refine ⟨hexact, ?_, fun elements' hsame => ?_⟩
    · obtain ⟨names, hfound, -⟩ := id hexact
      rw [hfound, Option.some.injEq]
      exact findings_eq_nil_iff hfound
    · exact hexact.congr hsame (reportsCycles_iff.2 (h elements' hsame))
  · refine ⟨fun name hname => reported_onConceptCycle hfound hname, ?_⟩
    rw [← findings_eq_nil_iff hfound, List.map_eq_nil_iff]

/-! ## A cycle through a concept the search has left -/

section Vehicles

/-- The fields of a concept whose identifier is its label. -/
def vehicleFields (name : String) (parents : List String) : Fields :=
  [("element_id", .json (textValue name)), ("label", .json (textValue name)), ("description", .json .none),
    ("parent_concept_ids", .tuple (parents.map textValue)), ("abstract", .json (.bool false)),
    ("classifications", .tuple []), ("lifecycle_state", .lifecycleState .active)]

def vehicle : Element where
  kind := .concept
  fields := vehicleFields "vehicle" ["boat", "car"]
  declared := by decide
  valid := by decide +kernel

def boat : Element where
  kind := .concept
  fields := vehicleFields "boat" ["vehicle"]
  declared := by decide
  valid := by decide +kernel

def car : Element where
  kind := .concept
  fields := vehicleFields "car" ["boat"]
  declared := by decide
  valid := by decide +kernel

/-- The search leaves the boat before it meets the car, whose only parent the boat is. -/
def vehicles : Elements := Dict.ofList Element.elementId [vehicle, boat, car]

theorem vehicles_reported : (walkWithin 1000 (conceptsOf vehicles)).map
    (fun walk => sortBy codePoints walk.cyclic.dedup) =
      some [ofChars "boat".toList, ofChars "vehicle".toList] := by
  decide +kernel

/-- The car is on a cycle and is not reported. -/
theorem car_unreported : ¬ReportsCycles 1000 0 vehicles := by
  rintro ⟨names, hfound, -, hnames⟩
  have hcar : OnConceptCycle vehicles (ofChars "car".toList) := by
    have hboat : ParentEdge vehicles (ofChars "car".toList) (ofChars "boat".toList) :=
      ⟨car, boat, by rfl, rfl, by decide +kernel, by rfl, rfl⟩
    have hvehicle : ParentEdge vehicles (ofChars "boat".toList) (ofChars "vehicle".toList) :=
      ⟨boat, vehicle, by rfl, rfl, by decide +kernel, by rfl, rfl⟩
    have hback : ParentEdge vehicles (ofChars "vehicle".toList) (ofChars "car".toList) :=
      ⟨vehicle, car, by rfl, rfl, by decide +kernel, by rfl, rfl⟩
    exact .tail (.tail (.single hboat) hvehicle) hback
  obtain ⟨walk, hwalk, hnamed⟩ := Option.map_eq_some_iff.1 hfound
  obtain ⟨walk', hwalk', hreported⟩ := Option.map_eq_some_iff.1 vehicles_reported
  obtain rfl := Option.some.inj (hwalk.symm.trans hwalk')
  obtain rfl := List.map_injective_iff.2 (conceptParentCycle_injective 0) hnamed
  have hmem := (hnames _).2 hcar
  rw [hreported] at hmem
  revert hmem
  decide +kernel

end Vehicles

end OmniviaCore.SemanticRegistry
