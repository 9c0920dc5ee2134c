import OmniviaCore.CanonicalJson.Dumps
import OmniviaCore.Lib.Dict

/-!
# Parsing without hooks

`json.loads` alone: of several members of one name the last value stays, in the first one's place; the
literals that are not JSON are read; and a document nested deeper than the interpreter's stack allows is
a `RecursionError`. What the scanner with the hooks accepts within that room is read alike
(`plainLoads_of_loads`).
-/

namespace OmniviaCore.CanonicalJson

open Lib

/-- How `json.loads` fails: `JSONDecodeError`, the bare `ValueError` of an integer with too many digits, or
`RecursionError`. -/
inductive LoadsFailure where
  | jsonDecode
  | valueError
  | recursionError
  deriving DecidableEq

/-- The `dict` of some pairs. -/
def dictOf (pairs : List (Str × Value)) : List (Key × Value) :=
  pairs.foldl (fun entries pair => Dict.setEntries (.name pair.1) pair.2 entries) []

/-- The literals that are not JSON, with what they are read as. -/
def plainConstant (text : List Char) : Except ParseError (Value × List Char) :=
  if "NaN".toList.isPrefixOf text then pure (.float .nan, text.drop 3)
  else if "Infinity".toList.isPrefixOf text then pure (.float (.infinite false), text.drop 8)
  else if "-Infinity".toList.isPrefixOf text then pure (.float (.infinite true), text.drop 9)
  else throw .decode

def plainNumber (text : List Char) : Except ParseError (Value × List Char) :=
  match matchNumber text with
  | some (parts, rest) => do
    let value ← parseNumber parts
    pure (value, rest)
  | none => plainConstant text

def plainObject (scan : List Char → Except ParseError (Value × List Char)) (text : List Char) :
    Except ParseError (Value × List Char) :=
  match skipSpace text with
  | '\x7d' :: rest => pure (.mapping [], rest)
  | start => do
    let (pairs, rest) ← scanMembers scan (start.length + 1) start
    pure (.mapping (dictOf pairs), rest)

/-- A scan with one level less of room; without room it is a `RecursionError`, for which the error of the
hooks, which are not there, is free. -/
def descend (scan : ℕ → List Char → Except ParseError (Value × List Char))
    (within : (List Char → Except ParseError (Value × List Char)) → List Char →
      Except ParseError (Value × List Char)) :
    ℕ → List Char → Except ParseError (Value × List Char)
  | 0, _ => throw .duplicateName
  | room + 1, text => within (scan room) text

/-- `scan_once`, with room for nested documents. -/
def plainOnce : ℕ → ℕ → List Char → Except ParseError (Value × List Char)
  | 0, _, _ => throw .fuel
  | _ + 1, _, [] => throw .decode
  | fuel + 1, room, c :: rest =>
    if c = '"' then do
      let (points, rest) ← scanString rest
      pure (.str points, rest)
    else if c = '\x7b' then descend (plainOnce fuel) plainObject room rest
    else if c = '[' then descend (plainOnce fuel) scanArray room rest
    else if "null".toList.isPrefixOf (c :: rest) then pure (.none, (c :: rest).drop 4)
    else if "true".toList.isPrefixOf (c :: rest) then pure (.bool true, (c :: rest).drop 4)
    else if "false".toList.isPrefixOf (c :: rest) then pure (.bool false, (c :: rest).drop 5)
    else plainNumber (c :: rest)

def plainFailure : ParseError → LoadsFailure
  | .digits => .valueError
  | .duplicateName => .recursionError
  | _ => .jsonDecode

/-- `json.loads`, with room for so many nested documents. -/
def plainLoads (room : ℕ) (text : List Char) : Except LoadsFailure Value := do
  require (text.head? ≠ some '\uFEFF') .jsonDecode
  let start := skipSpace text
  let (value, rest) ← (plainOnce (start.length + 1) room start).mapError plainFailure
  require (skipSpace rest = []) .jsonDecode
  pure value

/-! ## Nesting -/

def Value.Fits : ℕ → Value → Prop
  | 0, .mapping _ => False
  | 0, .sequence _ => False
  | room + 1, .mapping members => ∀ m ∈ members, m.2.Fits room
  | room + 1, .sequence items => ∀ item ∈ items, item.Fits room
  | _, _ => True

/-! ## The values of a scan -/

section Scans

variable {scan scan' : List Char → Except ParseError (Value × List Char)} {P : Value → Prop} {fuel : ℕ}
  {text : List Char}

/-- Where one scan reads values with a property, another that reads those alike reads the members alike. -/
theorem scanMembers_transfer
    (h : ∀ text value rest, scan text = .ok (value, rest) → P value → scan' text = .ok (value, rest))
    {pairs : List (Str × Value)} {rest : List Char} (hscan : scanMembers scan fuel text = .ok (pairs, rest))
    (hpairs : ∀ pair ∈ pairs, P pair.2) : scanMembers scan' fuel text = .ok (pairs, rest) := by
  induction fuel generalizing text pairs rest with
  | zero => cases hscan
  | succ fuel ih =>
    unfold scanMembers at hscan ⊢
    split at hscan
    · cases hscan
    · next fuel' text' heq =>
      cases heq
      obtain ⟨⟨name, afterName⟩, hname, hscan⟩ := bind_eq_ok.mp hscan
      refine bind_eq_ok.mpr ⟨⟨name, afterName⟩, hname, ?_⟩
      dsimp only at hscan ⊢
      split at hscan
      · obtain ⟨⟨item, afterItem⟩, hitem, hscan⟩ := bind_eq_ok.mp hscan
        dsimp only at hscan
        split at hscan
        · next hclose =>
          cases hscan
          refine bind_eq_ok.mpr ⟨⟨item, afterItem⟩, h _ _ _ hitem (hpairs _ List.mem_cons_self), ?_⟩
          dsimp only
          rw [hclose]
          rfl
        · next hcomma =>
          obtain ⟨⟨members, afterMembers⟩, hmembers, hscan⟩ := bind_eq_ok.mp hscan
          cases hscan
          refine bind_eq_ok.mpr ⟨⟨item, afterItem⟩, h _ _ _ hitem (hpairs _ List.mem_cons_self), ?_⟩
          rw [hcomma]
          change (scanMembers scan' fuel _ >>= fun p => pure ((name, item) :: p.1, p.2)) = _
          rw [ih hmembers fun pair hpair => hpairs pair (List.mem_cons_of_mem _ hpair)]
          rfl
        · cases hscan
      · cases hscan
    · cases hscan

theorem scanItems_transfer
    (h : ∀ text value rest, scan text = .ok (value, rest) → P value → scan' text = .ok (value, rest))
    {items : List Value} {rest : List Char} (hscan : scanItems scan fuel text = .ok (items, rest))
    (hitems : ∀ item ∈ items, P item) : scanItems scan' fuel text = .ok (items, rest) := by
  induction fuel generalizing text items rest with
  | zero => cases hscan
  | succ fuel ih =>
    unfold scanItems at hscan ⊢
    obtain ⟨⟨item, afterItem⟩, hitem, hscan⟩ := bind_eq_ok.mp hscan
    dsimp only at hscan
    split at hscan
    · next hclose =>
      cases hscan
      refine bind_eq_ok.mpr ⟨⟨item, afterItem⟩, h _ _ _ hitem (hitems _ List.mem_cons_self), ?_⟩
      dsimp only
      rw [hclose]
      rfl
    · next hcomma =>
      obtain ⟨⟨others, afterItems⟩, hothers, hscan⟩ := bind_eq_ok.mp hscan
      cases hscan
      refine bind_eq_ok.mpr ⟨⟨item, afterItem⟩, h _ _ _ hitem (hitems _ List.mem_cons_self), ?_⟩
      dsimp only
      rw [hcomma]
      change (scanItems scan' fuel _ >>= fun p => pure (item :: p.1, p.2)) = _
      rw [ih hothers fun other hother => hitems other (List.mem_cons_of_mem _ hother)]
      rfl
    · cases hscan

end Scans

/-! ## The members of a `dict` -/

theorem setEntries_of_not_mem {key : Key} {value : Value} {entries : List (Key × Value)}
    (h : key ∉ entries.map Prod.fst) :
    Dict.setEntries key value entries = entries ++ [(key, value)] := by
  induction entries with
  | nil => rfl
  | cons entry entries ih =>
    rw [List.map_cons, List.mem_cons, not_or] at h
    rw [Dict.setEntries, if_neg fun heq => h.1 heq.symm, ih h.2, List.cons_append]

theorem rejectDuplicateMemberNames_eq_ok {pairs : List (Str × Value)} {seen : List Str}
    {members : List (Key × Value)} (h : rejectDuplicateMemberNames seen pairs = .ok members) :
    members = pairs.map (fun pair => (Key.name pair.1, pair.2)) ∧ (pairs.map Prod.fst).Nodup ∧
      ∀ pair ∈ pairs, pair.1 ∉ seen := by
  induction pairs generalizing seen members with
  | nil =>
    cases h
    exact ⟨rfl, List.nodup_nil, fun _ h => absurd h List.not_mem_nil⟩
  | cons pair pairs ih =>
    obtain ⟨name, item⟩ := pair
    simp only [rejectDuplicateMemberNames, bind_eq_ok, require_eq_ok, exists_unit, pure_eq_ok] at h
    obtain ⟨hname, rest, hrest, rfl⟩ := h
    obtain ⟨rfl, hnodup, hseen⟩ := ih hrest
    refine ⟨rfl, List.nodup_cons.mpr ⟨?_, hnodup⟩, ?_⟩
    · intro hmem
      obtain ⟨pair, hpair, heq⟩ := List.mem_map.mp hmem
      exact hseen pair hpair (heq ▸ List.mem_cons_self)
    · intro pair hpair
      rcases List.mem_cons.mp hpair with rfl | hpair
      · exact hname
      · exact fun hmem => hseen pair hpair (List.mem_cons_of_mem _ hmem)

theorem foldl_setEntries_eq {pairs : List (Str × Value)} {entries : List (Key × Value)}
    (hnodup : (pairs.map Prod.fst).Nodup)
    (h : ∀ pair ∈ pairs, Key.name pair.1 ∉ entries.map Prod.fst) :
    pairs.foldl (fun entries pair => Dict.setEntries (.name pair.1) pair.2 entries) entries =
      entries ++ pairs.map fun pair => (Key.name pair.1, pair.2) := by
  induction pairs generalizing entries with
  | nil => rw [List.foldl_nil, List.map_nil, List.append_nil]
  | cons pair pairs ih =>
    rw [List.map_cons, List.nodup_cons] at hnodup
    rw [List.foldl_cons, setEntries_of_not_mem (h pair List.mem_cons_self), ih hnodup.2,
      List.append_assoc, List.map_cons, List.singleton_append]
    intro other hother
    rw [List.map_append, List.mem_append, not_or]
    refine ⟨h other (List.mem_cons_of_mem _ hother), ?_⟩
    rw [List.map_singleton, List.mem_singleton, Key.name.injEq]
    intro heq
    exact hnodup.1 (heq ▸ List.mem_map_of_mem hother)

/-- Without a name twice, the `dict` is made of the pairs. -/
theorem dictOf_eq_of_distinct {pairs : List (Str × Value)} {members : List (Key × Value)}
    (h : rejectDuplicateMemberNames [] pairs = .ok members) : dictOf pairs = members := by
  obtain ⟨rfl, hnodup, -⟩ := rejectDuplicateMemberNames_eq_ok h
  exact foldl_setEntries_eq hnodup fun _ _ => List.not_mem_nil

/-! ## What is read -/

/-- What the scanner with the hooks reads within the room is read alike. -/
theorem plainOnce_of_scanOnce {fuel room : ℕ} {text : List Char} {value : Value} {rest : List Char}
    (h : scanOnce fuel text = .ok (value, rest)) (hfits : value.Fits room) :
    plainOnce fuel room text = .ok (value, rest) := by
  induction fuel generalizing room text value rest with
  | zero => cases h
  | succ fuel ih =>
    cases text with
    | nil => cases h
    | cons c text =>
      unfold scanOnce at h
      unfold plainOnce
      split at h
      · next hc => rw [if_pos hc, h]
      next hc =>
      rw [if_neg hc]
      split at h
      · next hc =>
        rw [if_pos hc]
        unfold scanObject at h
        split at h
        · next hclose =>
          cases h
          cases room with
          | zero => cases hfits
          | succ room =>
            rw [descend, plainObject, hclose]
            rfl
        · next start hopen =>
          obtain ⟨⟨pairs, afterMembers⟩, hpairs, h⟩ := bind_eq_ok.mp h
          obtain ⟨members, hmembers, h⟩ := bind_eq_ok.mp h
          cases h
          cases room with
          | zero => cases hfits
          | succ room =>
            have hread : scanMembers (plainOnce fuel room) _ _ = _ :=
              scanMembers_transfer (fun _ _ _ hscan => ih hscan) hpairs (by
                intro pair hpair
                obtain ⟨hmap, -, -⟩ := rejectDuplicateMemberNames_eq_ok hmembers
                exact hfits (.name pair.1, pair.2) (hmap ▸ List.mem_map_of_mem hpair))
            rw [descend]
            unfold plainObject
            split
            · next hclose => exact absurd hclose (hopen _)
            · rw [hread, ok_bind]
              dsimp only
              rw [dictOf_eq_of_distinct hmembers]
              rfl
      next hc =>
      rw [if_neg hc]
      split at h
      · next hc =>
        rw [if_pos hc]
        unfold scanArray at h
        split at h
        · next hclose =>
          cases h
          cases room with
          | zero => cases hfits
          | succ room =>
            rw [descend, scanArray, hclose]
            rfl
        · next start hopen =>
          obtain ⟨⟨items, afterItems⟩, hitems, h⟩ := bind_eq_ok.mp h
          cases h
          cases room with
          | zero => cases hfits
          | succ room =>
            have hread : scanItems (plainOnce fuel room) _ _ = _ :=
              scanItems_transfer (fun _ _ _ hscan => ih hscan) hitems hfits
            rw [descend]
            unfold scanArray
            split
            · next hclose => exact absurd hclose (hopen _)
            · rw [hread]
              rfl
      next hc =>
      rw [if_neg hc]
      split at h
      · next hc => rw [if_pos hc, h]
      next hc =>
      rw [if_neg hc]
      split at h
      · next hc => rw [if_pos hc, h]
      next hc =>
      rw [if_neg hc]
      split at h
      · next hc => rw [if_pos hc, h]
      next hc =>
      rw [if_neg hc]
      unfold scanNumber at h
      split at h
      · next parts after hnumber =>
        rw [plainNumber, hnumber]
        exact h
      · split at h <;> cases h

theorem plainLoads_of_loads {room : ℕ} {text : List Char} {value : Value} (h : loads text = .ok value)
    (hfits : value.Fits room) : plainLoads room text = .ok value := by
  simp only [loads, bind_eq_ok, require_eq_ok, exists_unit, pure_eq_ok] at h
  obtain ⟨hmark, ⟨read, rest⟩, hread, hrest, rfl⟩ := h
  rw [plainLoads, require_pos hmark, ok_bind]
  dsimp only
  rw [plainOnce_of_scanOnce hread hfits]
  dsimp only [Except.mapError]
  rw [ok_bind]
  dsimp only
  rw [require_pos hrest]
  rfl

end OmniviaCore.CanonicalJson
