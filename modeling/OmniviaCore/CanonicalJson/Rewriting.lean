import OmniviaCore.CanonicalJson.Dumps
import OmniviaCore.CanonicalJson.PlainLoads

/-!
# Canonical text that is read and written again

Every text of the canonicalizer can be read: `reread` is what is read of an accepted value, its members in
the canonical order and its numbers as they were spelled (`plainLoads_canonicalize`). A number without a
point or an exponent is read as an `int`, which the canonicalizer writes again if its digits are exact
(`Exact`).
-/

namespace OmniviaCore.CanonicalJson

open Lib Tree

/-! ## Numbers -/

/-- The canonicalizer writes a decimal as an integer. -/
def IntegerText (d : Decimal) : Prop := d.digits.length ≤ d.point ∧ d.point ≤ 21

instance (d : Decimal) : Decidable (IntegerText d) := inferInstanceAs (Decidable (_ ∧ _))

/-- A decimal's parts, as the canonicalizer places its digits. -/
def placeParts (negative : Bool) (d : Decimal) : NumberParts :=
  if IntegerText d then ⟨negative, trailingZeros d.digits d.point, none, none⟩
  else if 0 < d.point ∧ d.point ≤ 21 then splitParts negative d
  else if -6 < d.point ∧ d.point ≤ 0 then leadingParts negative d
  else scientificParts negative d

/-- What the text of a number is read as. -/
def rereadNumber (negative : Bool) (x : Magnitude) : Value :=
  if h : x.mantissa ≠ 0 then
    if IntegerText (x.shortest h) then
      let magnitude := Nat.ofDigitChars 10 (trailingZeros (x.shortest h).digits (x.shortest h).point) 0
      .int (if negative then -(magnitude : ℤ) else magnitude)
    else .float (.finite negative x)
  else .int 0

/-- The digits of a number that is written as an integer are the number. -/
def Exact (x : Magnitude) : Prop :=
  ∀ h : x.mantissa ≠ 0, IntegerText (x.shortest h) → (x.shortest h).value = x.value

theorem token_placeParts (negative : Bool) (d : Decimal) :
    (placeParts negative d).token 0 = (if negative then ['-'] else []) ++ place d.digits d.point := by
  by_cases hinteger : d.digits.length ≤ d.point ∧ d.point ≤ 21
  · rw [placeParts, if_pos (show IntegerText d from hinteger), place, if_pos hinteger]
    simp [NumberParts.token, NumberParts.fractionText, NumberParts.exponentPart]
  · rw [placeParts, if_neg (show ¬IntegerText d from hinteger), place, if_neg hinteger]
    split
    next => exact token_splitParts negative d 0
    next =>
      split
      next => exact token_leadingParts negative d 0
      next => exact token_scientificParts negative d 0

theorem written_placeParts (negative : Bool) (d : Decimal) : (placeParts negative d).Written := by
  unfold placeParts
  split
  next => exact written_trailingZeros negative d fun digits hdigits => by cases hdigits
  next hinteger =>
    split
    next hsplit =>
      refine written_splitParts negative d hsplit.1 ?_
      unfold IntegerText at hinteger
      omega
    next =>
      split
      next => exact written_leadingParts negative d
      next => exact written_scientificParts negative d

/-- Digits up to the point are few enough for `int`. -/
theorem length_trailingZeros {d : Decimal} (h : IntegerText d) :
    (trailingZeros d.digits d.point).length ≤ MAX_STR_DIGITS := by
  obtain ⟨hge, hle⟩ := h
  rw [trailingZeros, List.length_append, Decimal.zeros, List.length_replicate]
  have hlength : d.digits.length + (d.point - d.digits.length).toNat ≤ 21 := by omega
  exact hlength.trans (by decide)

theorem parseNumber_placeParts (negative : Bool) {x : Magnitude} (h : x.mantissa ≠ 0) :
    parseNumber (placeParts negative (x.shortest h)) = .ok (rereadNumber negative x) := by
  have hnearest := Magnitude.nearest_shortest h
  unfold rereadNumber placeParts
  rw [dif_pos h]
  split
  next hinteger =>
    unfold parseNumber
    dsimp only
    rw [require_pos (length_trailingZeros hinteger)]
    rfl
  next hinteger =>
    unfold IntegerText at hinteger
    split
    next hsplit => exact parseNumber_splitParts negative hsplit.1 (by omega) hnearest
    next =>
      split
      next hleading => exact parseNumber_leadingParts negative hleading.2 hnearest
      next => exact parseNumber_scientificParts negative hnearest

/-- The text of a number is a token that is read as `rereadNumber`. -/
theorem exists_parts_signedText (negative : Bool) (x : Magnitude) :
    ∃ parts : NumberParts, parts.token 0 = signedText negative x ∧ parts.Written ∧
      parseNumber parts = .ok (rereadNumber negative x) := by
  by_cases h : x.mantissa ≠ 0
  · refine ⟨placeParts negative (x.shortest h), ?_, written_placeParts negative _,
      parseNumber_placeParts negative h⟩
    rw [token_placeParts, signedText, serializeMagnitude_eq h]
    cases negative with
    | true => rw [if_pos rfl, if_pos ⟨rfl, h⟩]; rfl
    | false => rw [if_neg Bool.false_ne_true, if_neg (fun hneg => Bool.false_ne_true hneg.1)]; rfl
  · refine ⟨⟨false, ['0'], none, none⟩, ?_, ?_, ?_⟩
    · rw [signedText, if_neg (fun hneg => h hneg.2), serializeMagnitude, dif_neg h]
      rfl
    · exact ⟨isDigit_zero, List.cons_ne_nil _ _, .inl rfl, fun digits hdigits => by cases hdigits⟩
    · rw [rereadNumber, dif_neg h]
      rfl

/-- An exact number is accepted again, and is the same number. -/
theorem Exact.requireBinary64 {x : Magnitude} (h : Exact x) (negative : Bool) :
    ∃ negative' y, requireBinary64 [] (rereadNumber negative x) = .ok (negative', y) ∧
      y.signedValue negative' = x.signedValue negative := by
  unfold rereadNumber
  split
  next hx =>
    split
    next hinteger =>
      have hvalue := ofDigitChars_trailingZeros hinteger.1
      generalize Nat.ofDigitChars 10 (trailingZeros (x.shortest hx).digits (x.shortest hx).point) 0 = n at hvalue
      have hnearest := Magnitude.nearest_shortest hx
      rw [← hvalue] at hnearest
      have hexact : x.value = n := by rw [hvalue, h hx hinteger]
      have hne : n ≠ 0 := by
        rintro rfl
        exact hx (x.value_eq_zero.1 (by rw [hexact, Nat.cast_zero]))
      have habs : (if negative then -(n : ℤ) else n).natAbs = n := by
        cases negative with
        | true => simp
        | false => simp
      have hsign : decide ((if negative then -(n : ℤ) else n) < 0) = negative := by
        cases negative with
        | true => simp; omega
        | false => simp
      refine ⟨negative, x, ?_, rfl⟩
      simp only [CanonicalJson.requireBinary64, habs, hnearest, hexact, Nat.floor_natCast, require_pos,
        ok_bind, hsign]
      rfl
    next => exact ⟨negative, x, rfl, rfl⟩
  next hx =>
    refine ⟨false, .zero, by decide +kernel, ?_⟩
    have hzero : x.value = 0 := x.value_eq_zero.2 (not_not.1 hx)
    have hzero' : Magnitude.zero.value = 0 := Magnitude.value_eq_zero.2 rfl
    rw [Magnitude.signedValue, Magnitude.signedValue, hzero, hzero', neg_zero, ite_self, ite_self]

/-! ## Values -/

/-- What the text of an `int` or a `float` is read as. -/
def rereadToken (value : Value) : Value :=
  match requireBinary64 [] value with
  | .ok (negative, x) => rereadNumber negative x
  | .error _ => value

mutual

/-- What the canonical text of a value is read as. -/
def reread : Value → Value
  | .mapping members => .mapping (sortBy (fun m => utf16Key m.1.chars) (rereadMembers members))
  | .sequence items => .sequence (rereadItems items)
  | .none => .none
  | .bool b => .bool b
  | .int n => rereadToken (.int n)
  | .float x => rereadToken (.float x)
  | .str s => .str s
  | .binary => .binary
  | .other typeName => .other typeName

def rereadMembers : List (Key × Value) → List (Key × Value)
  | [] => []
  | (key, item) :: members => (key, reread item) :: rereadMembers members

def rereadItems : List Value → List Value
  | [] => []
  | item :: items => reread item :: rereadItems items

end

/-- Every number of the value is exact. -/
inductive Rewrites : Value → Prop where
  | none : Rewrites .none
  | bool (b : Bool) : Rewrites (.bool b)
  | int {n : ℤ} (h : ∀ negative x, requireBinary64 [] (.int n) = .ok (negative, x) → Exact x) :
      Rewrites (.int n)
  | float {x : Binary64} (h : ∀ negative y, x = .finite negative y → Exact y) : Rewrites (.float x)
  | str (s : Str) : Rewrites (.str s)
  | binary : Rewrites .binary
  | other (typeName : String) : Rewrites (.other typeName)
  | mapping {members : List (Key × Value)} (h : ∀ m ∈ members, Rewrites m.2) : Rewrites (.mapping members)
  | sequence {items : List Value} (h : ∀ item ∈ items, Rewrites item) : Rewrites (.sequence items)

theorem rereadMembers_eq (members : List (Key × Value)) :
    rereadMembers members = members.map fun m => (m.1, reread m.2) := by
  induction members with
  | nil => rfl
  | cons m members ih => rw [rereadMembers, ih, List.map_cons]

theorem rereadItems_eq (items : List Value) : rereadItems items = items.map reread := by
  induction items with
  | nil => rfl
  | cons item items ih => rw [rereadItems, ih, List.map_cons]

theorem reread_mapping (named : List (List Char × Value)) :
    reread (.mapping (named.map withName)) =
      .mapping ((sortBy (fun m => utf16Key m.1) named).map fun m => withName (m.1, reread m.2)) := by
  have hkey : ∀ m : List Char × Value,
      utf16Key (((fun m : Key × Value => (m.1, reread m.2)) ∘ withName) m).1.chars = utf16Key m.1 :=
    fun m => congrArg utf16Key (chars_withName m)
  rw [reread, rereadMembers_eq, List.map_map, ← map_sortBy]
  simp only [hkey]
  rfl

/-- What an accepted value is written as is read as `reread` of it. -/
theorem Accepted.readsAs {depth : ℕ} {value : Value} (h : Accepted depth value) :
    ReadsAs (tree value) (reread value) := by
  have hnumber : ∀ {value : Value} {negative : Bool} {x : Magnitude},
      requireBinary64 [] value = .ok (negative, x) →
        ReadsAs (.number (numberToken value)) (rereadToken value) := by
    intro value negative x hvalue
    obtain ⟨parts, htoken, hwritten, hparse⟩ := exists_parts_signedText negative x
    rw [numberToken, rereadToken, hvalue]
    dsimp only
    rw [← htoken]
    exact .number hwritten hparse
  induction h with
  | none => exact .null
  | bool _ b => exact .bool b
  | int _ hn => exact hnumber hn
  | float _ negative x => exact @hnumber (.float (.finite negative x)) _ _ rfl
  | str _ chars =>
    rw [tree, toChars_ofChars]
    exact .string chars
  | @mapping _ _ named nodup _ ih =>
    rw [tree_mapping, reread_mapping]
    have hmembers := @ReadsAs.object
      ((sortBy (fun m => utf16Key m.1) named).map fun m => (m.1, tree m.2, reread m.2))
    simp only [List.map_map] at hmembers
    refine hmembers ?_ ?_
    · exact ((perm_sortBy named).map Prod.fst).nodup_iff.2 nodup
    · intro m hm
      obtain ⟨member, hmember, rfl⟩ := List.mem_map.1 hm
      exact ih member (mem_sortBy.1 hmember)
  | @sequence _ _ values _ ih =>
    rw [tree, itemTrees_eq, reread, rereadItems_eq]
    have hitems := @ReadsAs.array (values.map fun item => (tree item, reread item))
    simp only [List.map_map] at hitems
    refine hitems fun p hp => ?_
    obtain ⟨item, hitem, rfl⟩ := List.mem_map.1 hp
    exact ih item hitem

/-- What is read again of an accepted value is no deeper than the canonicalizer goes. -/
theorem Accepted.fits {depth : ℕ} {value : Value} (h : Accepted depth value) :
    ∀ room, JCS_MAX_NESTING_DEPTH < depth + room → (reread value).Fits room := by
  have hnumber : ∀ (room : ℕ) {value : Value} {negative : Bool} {x : Magnitude},
      requireBinary64 [] value = .ok (negative, x) → (rereadToken value).Fits room := by
    intro room value negative x hvalue
    rw [rereadToken, hvalue]
    dsimp only
    rw [rereadNumber]
    split
    · split
      · cases room <;> trivial
      · cases room <;> trivial
    · cases room <;> trivial
  induction h with
  | none => intro room _; cases room <;> trivial
  | bool _ b => intro room _; cases room <;> trivial
  | int _ hn => exact fun room _ => hnumber room hn
  | float _ negative x => exact fun room _ => @hnumber room (.float (.finite negative x)) _ _ rfl
  | str _ chars => intro room _; cases room <;> trivial
  | @mapping depth hdepth named _ _ ih =>
    intro room hroom
    obtain ⟨room, rfl⟩ : ∃ r, room = r + 1 := ⟨room - 1, by omega⟩
    rw [reread_mapping]
    intro m hm
    obtain ⟨n, hn, rfl⟩ := List.mem_map.1 hm
    exact ih n (mem_sortBy.1 hn) room (by omega)
  | @sequence depth hdepth values _ ih =>
    intro room hroom
    obtain ⟨room, rfl⟩ : ∃ r, room = r + 1 := ⟨room - 1, by omega⟩
    rw [reread, rereadItems_eq]
    intro item hitem
    obtain ⟨v, hv, rfl⟩ := List.mem_map.1 hitem
    exact ih v hv room (by omega)

/-- The canonical text of a value is read, without hooks. -/
theorem plainLoads_canonicalize {value : Value} {path : Str} {text : List Char} {room : ℕ}
    (h : canonicalize value path = .ok text) (hroom : JCS_MAX_NESTING_DEPTH < room) :
    plainLoads room text = .ok (reread value) := by
  obtain ⟨haccepted, rfl⟩ := (canonicalizeInto_eq_ok value path 0 _).1 h
  exact plainLoads_of_loads (loads_render haccepted.readsAs) (haccepted.fits room (by omega))

theorem rereadNumber_cases (negative : Bool) (x : Magnitude) :
    (∃ n, rereadNumber negative x = .int n) ∨ rereadNumber negative x = .float (.finite negative x) := by
  unfold rereadNumber
  split
  · split
    · exact .inl ⟨_, rfl⟩
    · exact .inr rfl
  · exact .inl ⟨0, rfl⟩

/-- Exact numbers are accepted again, and what is read of a value is written as the value was. -/
theorem Accepted.tree_reread {depth : ℕ} {value : Value} (h : Accepted depth value) (hw : Rewrites value) :
    Accepted depth (reread value) ∧ tree (reread value) = tree value := by
  have hnumber : ∀ {depth : ℕ} {value : Value} {negative : Bool} {x : Magnitude},
      depth ≤ JCS_MAX_NESTING_DEPTH → requireBinary64 [] value = .ok (negative, x) → Exact x →
        Accepted depth (rereadToken value) ∧ tree (rereadToken value) = .number (numberToken value) := by
    intro depth value negative x hdepth hvalue hexact
    obtain ⟨negative', y, hy, hsame⟩ := hexact.requireBinary64 negative
    have htoken := (numberToken_eq_iff hy hvalue).2 hsame
    have hreread : rereadToken value = rereadNumber negative x := by
      rw [rereadToken, hvalue]
    rw [hreread, ← htoken]
    rcases rereadNumber_cases negative x with ⟨n, hn⟩ | hx
    · rw [hn] at hy ⊢
      exact ⟨.int hdepth hy, rfl⟩
    · rw [hx]
      exact ⟨.float hdepth negative x, rfl⟩
  induction h with
  | none h => exact ⟨.none h, rfl⟩
  | bool h b => exact ⟨.bool h b, rfl⟩
  | int h hn =>
    cases hw with
    | int hw => exact hnumber h hn (hw _ _ hn)
  | float h negative x =>
    cases hw with
    | float hw => exact @hnumber _ (.float (.finite negative x)) _ _ h rfl (hw _ _ rfl)
  | str h chars => exact ⟨.str h chars, rfl⟩
  | @mapping depth h named nodup _ ih =>
    cases hw with
    | mapping hw =>
      have hitems : ∀ m ∈ named, Accepted (depth + 1) (reread m.2) ∧ tree (reread m.2) = tree m.2 :=
        fun m hm => ih m hm (hw (withName m) (List.mem_map_of_mem hm))
      have hmap : (sortBy (fun m => utf16Key m.1) named).map (fun m => withName (m.1, reread m.2)) =
          ((sortBy (fun m => utf16Key m.1) named).map fun m => (m.1, reread m.2)).map withName := by
        rw [List.map_map]
        rfl
      have hsorted : sortBy (fun m => utf16Key m.1)
          ((sortBy (fun m => utf16Key m.1) named).map fun m => (m.1, reread m.2)) =
            (sortBy (fun m => utf16Key m.1) named).map fun m => (m.1, reread m.2) :=
        sortBy_of_pairwise (List.pairwise_map.2 (pairwise_sortBy named))
      rw [reread_mapping, hmap]
      constructor
      · refine .mapping h ?_ fun m hm => ?_
        · rw [List.map_map]
          exact ((perm_sortBy named).map Prod.fst).nodup_iff.2 nodup
        · obtain ⟨n, hn, rfl⟩ := List.mem_map.1 hm
          exact (hitems n (mem_sortBy.1 hn)).1
      · rw [tree_mapping, tree_mapping, hsorted, List.map_map]
        congr 1
        refine List.map_congr_left fun m hm => ?_
        rw [Function.comp_apply, (hitems m (mem_sortBy.1 hm)).2]
  | sequence h _ ih =>
    cases hw with
    | sequence hw =>
      rw [reread, rereadItems_eq]
      constructor
      · refine .sequence h fun item hitem => ?_
        obtain ⟨v, hv, rfl⟩ := List.mem_map.1 hitem
        exact (ih v hv (hw v hv)).1
      · rw [tree, tree, itemTrees_eq, itemTrees_eq, List.map_map]
        congr 1
        refine List.map_congr_left fun v hv => ?_
        exact (ih v hv (hw v hv)).2

theorem exact_of_accepted {depth : ℕ} {negative : Bool} {x : Magnitude}
    (h : Accepted depth (rereadNumber negative x)) : Exact x := by
  intro hx hinteger
  have hvalue := ofDigitChars_trailingZeros hinteger.1
  have hnearest := Magnitude.nearest_shortest hx
  rw [rereadNumber, dif_pos hx, if_pos hinteger] at h
  generalize Nat.ofDigitChars 10 (trailingZeros (x.shortest hx).digits (x.shortest hx).point) 0 = n
    at hvalue h
  rw [← hvalue] at hnearest ⊢
  have habs : (if negative then -(n : ℤ) else n).natAbs = n := by
    cases negative with
    | true => simp
    | false => simp
  cases h with
  | int _ hn =>
    simp only [requireBinary64, habs, hnearest] at hn
    obtain ⟨m, hm⟩ := Magnitude.nearest_natCast hnearest
    by_cases hfloor : ⌊x.value⌋₊ = n
    · rw [hm, Nat.floor_natCast] at hfloor
      rw [hm, hfloor]
    · rw [require, if_neg hfloor] at hn
      cases hn

/-- What is read of a value is accepted only if the numbers of the value are exact. -/
theorem Accepted.rewrites {depth depth' : ℕ} {value : Value} (h : Accepted depth value)
    (hagain : Accepted depth' (reread value)) : Rewrites value := by
  induction h generalizing depth' with
  | none => exact .none
  | bool _ b => exact .bool b
  | str _ chars => exact .str _
  | int _ hn =>
    rw [reread, rereadToken, hn] at hagain
    refine .int fun negative x hx => ?_
    obtain ⟨rfl, rfl⟩ := Prod.mk.inj (Except.ok.inj (hn.symm.trans hx))
    exact exact_of_accepted hagain
  | float _ negative x =>
    refine .float fun negative' y hy => ?_
    obtain ⟨rfl, rfl⟩ : negative = negative' ∧ x = y := by
      cases hy
      exact ⟨rfl, rfl⟩
    exact exact_of_accepted hagain
  | @mapping _ _ named nodup _ ih =>
    rw [reread_mapping] at hagain
    generalize hmembers : (sortBy (fun m => utf16Key m.1) named).map
      (fun m => withName (m.1, reread m.2)) = members at hagain
    cases hagain with
    | @mapping _ _ named' _ hitems =>
      refine .mapping fun m hm => ?_
      obtain ⟨member, hmember, rfl⟩ := List.mem_map.1 hm
      have hmem : withName (member.1, reread member.2) ∈ named'.map withName := by
        rw [← hmembers]
        exact List.mem_map_of_mem (mem_sortBy.2 hmember)
      obtain ⟨member', hmember', hsame⟩ := List.mem_map.1 hmem
      have haccepted := hitems member' hmember'
      have hvalue : member'.2 = reread member.2 := congrArg Prod.snd hsame
      rw [hvalue] at haccepted
      exact ih member hmember haccepted
  | @sequence _ _ values _ ih =>
    rw [reread, rereadItems_eq] at hagain
    cases hagain with
    | sequence _ hitems =>
      exact .sequence fun item hitem => ih item hitem (hitems _ (List.mem_map_of_mem hitem))

/-- A value whose numbers are exact is written, read and written again as one text. -/
theorem canonicalize_reread {value : Value} {path : Str} {text : List Char}
    (h : canonicalize value path = .ok text) (hw : Rewrites value) :
    canonicalize (reread value) path = .ok text := by
  obtain ⟨haccepted, rfl⟩ := (canonicalizeInto_eq_ok value path 0 _).1 h
  obtain ⟨hagain, htree⟩ := haccepted.tree_reread hw
  exact (canonicalizeInto_eq_ok _ path 0 _).2 ⟨hagain, by rw [htree]⟩

end OmniviaCore.CanonicalJson
