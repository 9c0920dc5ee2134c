import OmniviaCore.Lib.SortBy

/-!
# Sweeps of an ordered list

A reader goes through an ordered list of keys a page at a time: a page is the first keys past a cursor,
and the cursor is left at the last of them. Where no key is past the cursor, the sweep starts over. The
pages, one after the other, are the list read round and round (`flatMap_sweepPage`).
-/

namespace OmniviaCore.Lib

variable {κ : Type} [LinearOrder κ] {keys : List κ} {limit : ℕ} {after start : Option κ} {r : ℕ}

def past (keys : List κ) (after : Option κ) : List κ := keys.filter fun key => PastCursor after key

def sweepPage (keys : List κ) (limit : ℕ) (after : Option κ) : List κ :=
  if past keys after = [] then keys.take limit else (past keys after).take limit

def sweepCursor (keys : List κ) (limit : ℕ) (start : Option κ) : ℕ → Option κ
  | 0 => start
  | n + 1 => (sweepPage keys limit (sweepCursor keys limit start n)).getLast?

/-- A cursor has the keys from a position on before it. -/
def StandsAt (keys : List κ) (after : Option κ) (r : ℕ) : Prop :=
  past keys after = keys.drop r ∧ r ≤ keys.length

theorem sweepCursor_add (start : Option κ) (m n : ℕ) :
    sweepCursor keys limit start (m + n) = sweepCursor keys limit (sweepCursor keys limit start m) n := by
  induction n with
  | zero => rfl
  | succ n ih => rw [← Nat.add_assoc, sweepCursor, sweepCursor, ih]

/-! ## Positions -/

theorem past_none : past keys none = keys :=
  List.filter_eq_self.2 fun _ _ => decide_eq_true pastCursor_none

theorem past_of_lt {cursor : κ} (h : ∀ key ∈ keys, cursor < key) : past keys (some cursor) = keys :=
  List.filter_eq_self.2 fun key hkey => decide_eq_true (pastCursor_some.2 (h key hkey))

theorem past_of_le {cursor : κ} (h : ∀ key ∈ keys, key ≤ cursor) : past keys (some cursor) = [] := by
  refine List.filter_eq_nil_iff.2 fun key hkey hpast => ?_
  rw [decide_eq_true_eq, pastCursor_some] at hpast
  exact absurd (h key hkey) hpast.not_ge

/-- Every cursor stands at a position, one that was deleted too. -/
theorem exists_standsAt (hsorted : keys.Pairwise (· < ·)) (after : Option κ) : ∃ r, StandsAt keys after r := by
  cases after with
  | none => exact ⟨0, past_none, Nat.zero_le _⟩
  | some cursor =>
    induction keys with
    | nil => exact ⟨0, rfl, le_rfl⟩
    | cons key keys ih =>
      rw [List.pairwise_cons] at hsorted
      by_cases hlt : cursor < key
      · refine ⟨0, past_of_lt fun other hother => ?_, Nat.zero_le _⟩
        rcases List.mem_cons.1 hother with rfl | hother
        · exact hlt
        · exact hlt.trans (hsorted.1 other hother)
      · obtain ⟨r, hpast, hr⟩ := ih hsorted.2
        refine ⟨r + 1, ?_, Nat.succ_le_succ hr⟩
        rw [past, List.filter_cons_of_neg (by simpa [pastCursor_some] using hlt)]
        exact hpast

theorem standsAt_key (hsorted : keys.Pairwise (· < ·)) {i : ℕ} (hi : i < keys.length) :
    StandsAt keys (some keys[i]) (i + 1) := by
  refine ⟨?_, hi⟩
  have hsplit := List.take_append_drop (i + 1) keys
  have hbefore : ∀ key ∈ keys.take (i + 1), key ≤ keys[i] := by
    intro key hkey
    obtain ⟨j, hj, rfl⟩ := List.getElem_of_mem hkey
    rw [List.length_take] at hj
    rw [List.getElem_take]
    have hji : j ≤ i := by omega
    rcases hji.lt_or_eq with hlt | rfl
    · exact (List.pairwise_iff_getElem.1 hsorted j i _ hi hlt).le
    · exact le_rfl
  have hafter : ∀ key ∈ keys.drop (i + 1), keys[i] < key := by
    intro key hkey
    obtain ⟨j, hj, rfl⟩ := List.getElem_of_mem hkey
    rw [List.length_drop] at hj
    rw [List.getElem_drop]
    exact List.pairwise_iff_getElem.1 hsorted i (i + 1 + j) hi (by omega) (by omega)
  calc past keys (some keys[i])
      = past (keys.take (i + 1)) (some keys[i]) ++ past (keys.drop (i + 1)) (some keys[i]) := by
        rw [past, past, past, ← List.filter_append, hsplit]
    _ = keys.drop (i + 1) := by
        rw [past_of_le hbefore, past_of_lt hafter, List.nil_append]

theorem nodup_sweepPage (hnodup : keys.Nodup) (after : Option κ) : (sweepPage keys limit after).Nodup := by
  unfold sweepPage
  split
  · exact hnodup.sublist (List.take_sublist _ _)
  · exact (hnodup.filter _).sublist (List.take_sublist _ _)

/-- How many keys the page at a position has. -/
def pageSize (keys : List κ) (limit r : ℕ) : ℕ :=
  if r < keys.length then min limit (keys.length - r) else min limit keys.length

theorem StandsAt.page (h : StandsAt keys after r) :
    sweepPage keys limit after = if r < keys.length then (keys.drop r).take limit else keys.take limit := by
  rw [sweepPage, h.1]
  by_cases hr : r < keys.length
  · rw [if_neg (by rw [List.drop_eq_nil_iff]; omega), if_pos hr]
  · rw [if_pos (by rw [List.drop_eq_nil_iff]; omega), if_neg hr]

theorem StandsAt.next (hsorted : keys.Pairwise (· < ·)) (hlimit : 0 < limit) (h : StandsAt keys after r) :
    StandsAt keys (sweepPage keys limit after).getLast?
      (if r < keys.length then min (r + limit) keys.length else min limit keys.length) := by
  have hlast : ∀ s, s < keys.length →
      StandsAt keys ((keys.drop s).take limit).getLast? (min (s + limit) keys.length) := by
    intro s hs
    have hlength : ((keys.drop s).take limit).length = min limit (keys.length - s) := by
      rw [List.length_take, List.length_drop]
    have hindex : min (s + limit) keys.length - 1 < keys.length := by omega
    have hget : ((keys.drop s).take limit).getLast? = some keys[min (s + limit) keys.length - 1] := by
      rw [List.getLast?_eq_getElem?, hlength, List.getElem?_take_of_lt (by omega), List.getElem?_drop,
        ← List.getElem?_eq_getElem]
      congr 1
      omega
    have hnext := standsAt_key hsorted hindex
    rw [hget]
    rwa [show min (s + limit) keys.length - 1 + 1 = min (s + limit) keys.length by omega] at hnext
  rw [h.page]
  by_cases hr : r < keys.length
  · rw [if_pos hr, if_pos hr]
    exact hlast r hr
  · rw [if_neg hr, if_neg hr]
    rcases Nat.eq_zero_or_pos keys.length with hzero | hpos
    · rw [List.length_eq_zero_iff] at hzero
      subst hzero
      exact ⟨by rw [past, List.filter_nil, List.drop_nil], by simp⟩
    · have hnext := hlast 0 hpos
      rwa [List.drop_zero, Nat.zero_add] at hnext

/-! ## Every key is read -/

/-- Pages one after the other move the cursor on, as long as there are keys past it. -/
theorem StandsAt.advance (hsorted : keys.Pairwise (· < ·)) (hlimit : 0 < limit) (h : StandsAt keys start r)
    {n : ℕ} (hn : r + n * limit < keys.length + limit) :
    StandsAt keys (sweepCursor keys limit start n) (min (r + n * limit) keys.length) := by
  induction n with
  | zero =>
    rw [Nat.zero_mul, Nat.add_zero, min_eq_left h.2]
    exact h
  | succ n ih =>
    rw [Nat.succ_mul] at hn ⊢
    have hlt : r + n * limit < keys.length := by omega
    have hnext := (ih (by omega)).next hsorted hlimit
    rw [min_eq_left hlt.le, if_pos hlt, Nat.add_assoc] at hnext
    exact hnext

/-- A key is read once the cursor is at most a page before it. -/
theorem StandsAt.mem_page (h : StandsAt keys after r) {i : ℕ} (hi : i < keys.length) (hr : r ≤ i)
    (hlimit : i < r + limit) : keys[i] ∈ sweepPage keys limit after := by
  rw [h.page, if_pos (by omega)]
  refine List.mem_iff_getElem.2 ⟨i - r, ?_, ?_⟩
  · rw [List.length_take, List.length_drop]
    omega
  · rw [List.getElem_take, List.getElem_drop]
    congr 1
    omega

/-- A key past the cursor is read before the sweep ends. -/
theorem StandsAt.mem_ahead (hsorted : keys.Pairwise (· < ·)) (hlimit : 0 < limit) (h : StandsAt keys start r)
    {i : ℕ} (hi : i < keys.length) (hr : r ≤ i) :
    keys[i] ∈ sweepPage keys limit (sweepCursor keys limit start ((i - r) / limit)) := by
  have hle : (i - r) / limit * limit ≤ i - r := Nat.div_mul_le_self _ _
  have hlt : i - r < (i - r) / limit * limit + limit := by
    have hmod := Nat.mod_lt (i - r) hlimit
    have hdiv := Nat.div_add_mod' (i - r) limit
    omega
  have hat := h.advance hsorted hlimit (n := (i - r) / limit) (by omega)
  rw [min_eq_left (by omega)] at hat
  exact hat.mem_page hi (by omega) (by omega)

/-- Every key is in one of any `⌈N / limit⌉ + 1` pages that follow one another. -/
theorem exists_mem_sweepPage (hsorted : keys.Pairwise (· < ·)) (hlimit : 0 < limit) (start : Option κ)
    {key : κ} (hkey : key ∈ keys) :
    ∃ n < (keys.length + limit - 1) / limit + 1, key ∈ sweepPage keys limit (sweepCursor keys limit start n) := by
  obtain ⟨i, hi, rfl⟩ := List.getElem_of_mem hkey
  obtain ⟨r, hr⟩ := exists_standsAt hsorted start
  have hbound : ∀ n, n * limit ≤ keys.length + limit - 1 → n < (keys.length + limit - 1) / limit + 1 :=
    fun n hn => Nat.lt_succ_of_le ((Nat.le_div_iff_mul_le hlimit).2 hn)
  by_cases hri : r ≤ i
  · refine ⟨(i - r) / limit, hbound _ ?_, hr.mem_ahead hsorted hlimit hi hri⟩
    have hle : (i - r) / limit * limit ≤ i - r := Nat.div_mul_le_self _ _
    omega
  -- The sweep ends after `m` pages, and the next one starts over.
  · obtain ⟨m, hm⟩ : ∃ m, m = (keys.length - r + limit - 1) / limit := ⟨_, rfl⟩
    have hmle : m * limit ≤ keys.length - r + limit - 1 := by
      rw [hm]
      exact Nat.div_mul_le_self _ _
    have hmlt : keys.length - r + limit - 1 < m * limit + limit := by
      have hmod := Nat.mod_lt (keys.length - r + limit - 1) hlimit
      have hdiv := Nat.div_add_mod' (keys.length - r + limit - 1) limit
      rw [← hm] at hdiv
      omega
    have hrle := hr.2
    have hend := hr.advance hsorted hlimit (n := m) (by omega)
    rw [min_eq_right (by omega)] at hend
    have hpage : sweepPage keys limit (sweepCursor keys limit start m) = keys.take limit := by
      rw [hend.page, if_neg (lt_irrefl _)]
    have hquotient : i / limit * limit ≤ i := Nat.div_mul_le_self _ _
    refine ⟨m + i / limit, hbound _ ?_, ?_⟩
    · rw [Nat.add_mul]
      omega
    · by_cases hfirst : i < limit
      · rw [Nat.div_eq_of_lt hfirst, Nat.add_zero, hpage]
        refine List.mem_iff_getElem.2 ⟨i, ?_, List.getElem_take⟩
        rw [List.length_take]
        omega
      · have hstart := hend.next hsorted hlimit
        rw [if_neg (lt_irrefl _), min_eq_left (by omega)] at hstart
        have hahead := hstart.mem_ahead hsorted hlimit hi (by omega)
        have hindex : m + i / limit = m + 1 + (i - limit) / limit := by
          rw [Nat.div_eq_sub_div hlimit (not_lt.1 hfirst)]
          omega
        rw [hindex, sweepCursor_add]
        exact hahead

/-! ## The keys round and round -/

def around (keys : List κ) (h : keys ≠ []) (k : ℕ) : κ :=
  keys.get ⟨k % keys.length, Nat.mod_lt _ (List.length_pos_iff.2 h)⟩

omit [LinearOrder κ] in
theorem around_eq_iff (hnodup : keys.Nodup) (h : keys ≠ []) {j k : ℕ} :
    around keys h j = around keys h k ↔ j % keys.length = k % keys.length := by
  unfold around
  rw [hnodup.get_inj_iff, Fin.mk.injEq]

theorem StandsAt.page_eq (h : StandsAt keys after r) (hne : keys ≠ []) :
    sweepPage keys limit after =
      (List.range (pageSize keys limit r)).map fun k => around keys hne (r + k) := by
  have hle := h.2
  rw [h.page, pageSize]
  by_cases hr : r < keys.length
  · rw [if_pos hr, if_pos hr]
    refine List.ext_getElem (by simp) fun k hk _ => ?_
    rw [List.length_take, List.length_drop] at hk
    have hmod : (r + k) % keys.length = r + k := Nat.mod_eq_of_lt (by omega)
    simp only [List.getElem_take, List.getElem_drop, List.getElem_map, List.getElem_range, around, hmod,
      List.get_eq_getElem]
  · rw [if_neg hr, if_neg hr]
    refine List.ext_getElem (by simp) fun k hk _ => ?_
    rw [List.length_take] at hk
    have hmod : (r + k) % keys.length = k := by
      rw [show r = keys.length by omega, Nat.add_mod_left]
      exact Nat.mod_eq_of_lt (by omega)
    simp only [List.getElem_take, List.getElem_map, List.getElem_range, around, hmod, List.get_eq_getElem]

/-- The pages, one after the other, are the keys read round and round from where the first one starts. -/
theorem flatMap_sweepPage (hsorted : keys.Pairwise (· < ·)) (hlimit : 0 < limit) (hne : keys ≠ [])
    (h : StandsAt keys start r) (n : ℕ) :
    ∃ read, (List.range n).flatMap (fun k => sweepPage keys limit (sweepCursor keys limit start k)) =
        (List.range read).map (fun k => around keys hne (r + k)) ∧
      ∃ s, StandsAt keys (sweepCursor keys limit start n) s ∧ s % keys.length = (r + read) % keys.length := by
  induction n with
  | zero => exact ⟨0, rfl, r, h, rfl⟩
  | succ n ih =>
    obtain ⟨read, hread, s, hs, hmod⟩ := ih
    refine ⟨read + pageSize keys limit s, ?_, _, hs.next hsorted hlimit, ?_⟩
    · have hpage : ∀ k, around keys hne (s + k) = around keys hne (r + (read + k)) := by
        intro k
        rw [around_eq_iff (hsorted.imp ne_of_lt), ← Nat.add_assoc, Nat.add_mod, hmod, ← Nat.add_mod]
      rw [List.range_succ, List.flatMap_append, hread, List.flatMap_singleton, hs.page_eq hne, List.range_add,
        List.map_append, List.map_map]
      simp only [hpage]
      rfl
    · have hle := hs.2
      have hposition : (if s < keys.length then min (s + limit) keys.length else min limit keys.length) %
          keys.length = (s + pageSize keys limit s) % keys.length := by
        rw [pageSize]
        split
        next hlt =>
          congr 1
          omega
        next hge =>
          rw [show s = keys.length by omega, Nat.add_mod_left]
      rw [hposition, Nat.add_mod, hmod, ← Nat.add_mod, Nat.add_assoc]

omit [LinearOrder κ] in
/-- Between two readings of a key every other key is read. -/
theorem mem_between (hnodup : keys.Nodup) (hne : keys ≠ []) {read : ℕ} {before between rest : List κ} {key : κ}
    (h : (List.range read).map (fun k => around keys hne (r + k)) =
      before ++ key :: (between ++ key :: rest)) {other : κ} (hother : other ∈ keys) (hdistinct : other ≠ key) :
    other ∈ between := by
  obtain ⟨i, hi, rfl⟩ := List.getElem_of_mem hother
  have hlength := congrArg List.length h
  simp only [List.length_map, List.length_range, List.length_append, List.length_cons] at hlength
  have hget : ∀ k, k < read → (before ++ key :: (between ++ key :: rest))[k]? = some (around keys hne (r + k)) := by
    intro k hk
    rw [← h, List.getElem?_map, List.getElem?_range hk]
    rfl
  have hfirst := hget before.length (by omega)
  have hsecond := hget (before.length + (between.length + 1)) (by omega)
  rw [List.getElem?_append_right le_rfl, Nat.sub_self, List.getElem?_cons_zero, Option.some.injEq] at hfirst
  rw [List.getElem?_append_right (by omega), Nat.add_sub_cancel_left, List.getElem?_cons_succ,
    List.getElem?_append_right le_rfl, Nat.sub_self, List.getElem?_cons_zero, Option.some.injEq] at hsecond
  -- A whole round lies between the two.
  have hround : keys.length ≤ between.length + 1 := by
    have hsame := (around_eq_iff hnodup hne).1 (hfirst.symm.trans hsecond)
    refine Nat.le_of_dvd (Nat.succ_pos _) ?_
    have hdvd := (Nat.modEq_iff_dvd' (by omega)).1 hsame
    rwa [show r + (before.length + (between.length + 1)) - (r + before.length) = between.length + 1 by omega] at hdvd
  have hposition := Nat.mod_lt (r + before.length) (List.length_pos_iff.2 hne)
  obtain ⟨d, hd, hsum⟩ : ∃ d < keys.length, (r + (before.length + d)) % keys.length = i := by
    have hstep : ∀ d < keys.length, (r + (before.length + d)) % keys.length =
        ((r + before.length) % keys.length + d) % keys.length := by
      intro d hd
      rw [← Nat.add_assoc, Nat.add_mod, Nat.mod_eq_of_lt hd]
    rcases le_or_gt ((r + before.length) % keys.length) i with hle | hlt
    · refine ⟨i - (r + before.length) % keys.length, by omega, ?_⟩
      rw [hstep _ (by omega), Nat.add_sub_cancel' hle, Nat.mod_eq_of_lt hi]
    · refine ⟨i + keys.length - (r + before.length) % keys.length, by omega, ?_⟩
      rw [hstep _ (by omega), Nat.add_sub_cancel' (by omega), Nat.add_mod_right, Nat.mod_eq_of_lt hi]
  have haround : around keys hne (r + (before.length + d)) = keys[i] := by
    simp only [around, hsum, List.get_eq_getElem]
  cases d with
  | zero =>
    rw [Nat.add_zero, ← hfirst] at haround
    exact absurd haround.symm hdistinct
  | succ d =>
    have hbetween := hget (before.length + (d + 1)) (by omega)
    rw [List.getElem?_append_right (by omega), Nat.add_sub_cancel_left, List.getElem?_cons_succ,
      List.getElem?_append_left (by omega), haround] at hbetween
    exact List.mem_of_getElem? hbetween

omit [LinearOrder κ] in
/-- The same of the keys a reader picks out of the pages. -/
theorem mem_between_filter (hnodup : keys.Nodup) (hne : keys ≠ []) {read : ℕ} (p : κ → Bool)
    {before between rest : List κ} {key : κ}
    (h : ((List.range read).map fun k => around keys hne (r + k)).filter p =
      before ++ key :: (between ++ key :: rest)) {other : κ} (hother : other ∈ keys) (hp : p other = true)
    (hdistinct : other ≠ key) : other ∈ between := by
  obtain ⟨first, tail, hsplit, rfl, htail⟩ := List.filter_eq_append_iff.1 h
  obtain ⟨skipped, tail', rfl, -, -, htail'⟩ := List.filter_eq_cons_iff.1 htail
  obtain ⟨middle, tail'', rfl, rfl, hrest⟩ := List.filter_eq_append_iff.1 htail'
  obtain ⟨skipped', rest', rfl, hskipped, -, -⟩ := List.filter_eq_cons_iff.1 hrest
  have hread : (List.range read).map (fun k => around keys hne (r + k)) =
      (first ++ skipped) ++ key :: ((middle ++ skipped') ++ key :: rest') := by
    rw [hsplit]
    simp only [List.append_assoc]
  have hmem := mem_between hnodup hne hread hother hdistinct
  rcases List.mem_append.1 hmem with hmem | hmem
  · exact List.mem_filter.2 ⟨hmem, hp⟩
  · exact absurd hp (hskipped other hmem)

end OmniviaCore.Lib
