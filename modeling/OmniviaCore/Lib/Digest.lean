import Mathlib

/-!
# Digests

An injective digest that has the value of the real one where it is known, and spells every other
argument out.

A chain of records that starts at a record without a parent. A step names the digest of the record it
follows, or keeps the parent and raises a rank. As long as the digest tells the records of the chain
apart, no record comes back.
-/

namespace OmniviaCore.Lib

section

/-- A digest with a known value, which spells every other argument out. -/
def spelledDigest (known : List UInt8) (digest : String) (bytes : List UInt8) : String :=
  if bytes = known then digest else String.ofList ('=' :: bytes.map fun b => Char.ofNat b.toNat)

theorem spelledDigest_injective {known : List UInt8} {digest : String}
    (h : digest.toList.head? ≠ some '=') : Function.Injective (spelledDigest known digest) := by
  have hchar : ∀ n < 256, (Char.ofNat n).toNat = n := by decide +kernel
  have hbyte : Function.Injective fun b : UInt8 => Char.ofNat b.toNat := by
    intro a b hab
    have hnat := congrArg Char.toNat hab
    simp only [hchar _ a.toNat_lt, hchar _ b.toNat_lt] at hnat
    exact UInt8.toNat_inj.1 hnat
  have hne : ∀ l : List Char, digest ≠ String.ofList ('=' :: l) := by
    rintro l rfl
    simp at h
  intro a b hab
  unfold spelledDigest at hab
  split at hab <;> split at hab
  · next ha hb => rw [ha, hb]
  · exact absurd hab (hne _)
  · exact absurd hab.symm (hne _)
  · have hchars := String.ofList_injective hab
    exact List.map_injective_iff.2 hbyte (List.cons.inj hchars).2

/-- The digest of the entry of a table, 64 characters long where there are that many entries. -/
def tableEntry (i : Nat) : String :=
  String.ofList (List.replicate (i + 1) 'a' ++ List.replicate (63 - i) 'b')

/-- A digest that numbers the arguments of a table, and spells every other argument out. -/
def tabledDigest (table : List (List UInt8)) (bytes : List UInt8) : String :=
  match table.idxOf? bytes with
  | some i => tableEntry i
  | none => spelledDigest [] "0" bytes

/-- The last `count` bytes of a number, the greatest first. -/
def bigEndian (count n : ℕ) : List UInt8 :=
  (List.range count).reverse.map fun i => UInt8.ofNat (n / 256 ^ i)

/-- A hash of 32 bytes, known at the messages of a table. -/
def knownHash (table : List (List UInt8 × ℕ)) (message : List UInt8) : List UInt8 :=
  bigEndian 32 ((table.lookup message).getD 0)

theorem tableEntry_injective : Function.Injective tableEntry := by
  intro i j h
  have hcount := congrArg (List.count 'a') (String.ofList_injective h)
  simpa [List.count_append, List.count_replicate] using hcount

theorem head_tableEntry (i : Nat) : (tableEntry i).toList.head? = some 'a' := by
  rw [tableEntry, String.toList_ofList, List.replicate_succ, List.cons_append, List.head?_cons]

theorem head_spelledDigest (bytes : List UInt8) :
    (spelledDigest [] "0" bytes).toList.head? ≠ some 'a' := by
  unfold spelledDigest
  split
  · decide
  · rw [String.toList_ofList, List.head?_cons]
    decide

theorem tabledDigest_injective (table : List (List UInt8)) :
    Function.Injective (tabledDigest table) := by
  intro a b hab
  unfold tabledDigest at hab
  split at hab <;> split at hab
  · next _ i ha _ j hb =>
    obtain rfl := tableEntry_injective hab
    rw [List.idxOf?_eq_some_iff] at ha hb
    obtain ⟨_, ha, -⟩ := ha
    obtain ⟨_, hb, -⟩ := hb
    exact ha.symm.trans hb
  · exact absurd (hab ▸ head_tableEntry _) (head_spelledDigest b)
  · exact absurd (hab ▸ head_tableEntry _) (head_spelledDigest a)
  · exact spelledDigest_injective (by decide) hab

theorem tabledDigest_ne_zeros (table : List (List UInt8)) (bytes : List UInt8) :
    tabledDigest table bytes ≠ String.ofList (List.replicate 64 '0') := by
  unfold tabledDigest
  split
  · next i _ =>
    intro h
    have hhead := head_tableEntry i
    rw [h, String.toList_ofList] at hhead
    exact absurd hhead (by decide)
  · unfold spelledDigest
    split
    · decide
    · intro h
      exact absurd (congrArg List.head? (String.ofList_injective h)) (by simp)

end

/-! ## Hash chains -/

section

variable {α δ : Type} {parent : α → Option δ} {digest : α → δ} {rank : α → Nat}

def Follows (parent : α → Option δ) (digest : α → δ) (rank : α → Nat) (a b : α) : Prop :=
  parent b = some (digest a) ∨ (parent b = parent a ∧ rank a < rank b)

/-- Where the records with the parent of the record at `n` begin. -/
structure Segment (parent : α → Option δ) (digest : α → δ) (rank : α → Nat) (records : Nat → α)
    (start n : Nat) : Prop where
  start_le : start ≤ n
  climbs : ∀ m, start ≤ m → m < n → rank (records m) < rank (records n)
  parent_eq : parent (records n) = parent (records start)
  begins : start = 0 ∨ parent (records start) = some (digest (records (start - 1)))

theorem exists_segment {records : Nat → α} {n : Nat}
    (h : ∀ k < n, Follows parent digest rank (records k) (records (k + 1))) :
    ∃ start, Segment parent digest rank records start n := by
  induction n with
  | zero => exact ⟨0, le_rfl, fun m _ hm => absurd hm (Nat.not_lt_zero m), rfl, .inl rfl⟩
  | succ n ih =>
    obtain ⟨start, hsegment⟩ := ih fun k hk => h k (hk.trans (Nat.lt_succ_self n))
    rcases h n (Nat.lt_succ_self n) with hnamed | ⟨hkept, hraised⟩
    · exact ⟨n + 1, le_rfl, fun m hle hlt => absurd hlt (not_lt.2 hle), rfl, .inr hnamed⟩
    · refine ⟨start, hsegment.start_le.trans (Nat.le_succ n), fun m hle hlt => ?_,
        hkept.trans hsegment.parent_eq, hsegment.begins⟩
      rcases Nat.lt_succ_iff_lt_or_eq.1 hlt with hbefore | rfl
      · exact (hsegment.climbs m hle hbefore).trans hraised
      · exact hraised

/-- No record of a chain from a start without a parent comes back. -/
theorem chain_injective {records : Nat → α} {n : Nat}
    (h : ∀ k < n, Follows parent digest rank (records k) (records (k + 1)))
    (hstart : parent (records 0) = none)
    (hdigest : ∀ i ≤ n, ∀ j ≤ n, digest (records i) = digest (records j) → records i = records j) :
    ∀ i j, i < j → j ≤ n → records i ≠ records j := by
  intro i
  induction i using Nat.strong_induction_on with
  | _ i ih =>
    intro j hij hjn hsame
    obtain ⟨a, ha⟩ := exists_segment fun k hk => h k (hk.trans_le (hij.le.trans hjn))
    obtain ⟨b, hb⟩ := exists_segment fun k hk => h k (hk.trans_le hjn)
    -- Within one segment the rank climbs.
    have hib : i < b := by
      by_contra hle
      have hclimbs := hb.climbs i (not_lt.1 hle) hij
      rw [hsame] at hclimbs
      exact lt_irrefl _ hclimbs
    have hbnamed : parent (records b) = some (digest (records (b - 1))) :=
      hb.begins.resolve_left (by omega)
    have hparent : parent (records a) = parent (records b) := by
      rw [← ha.parent_eq, hsame, hb.parent_eq]
    have hanamed : parent (records a) = some (digest (records (a - 1))) := by
      refine ha.begins.resolve_left ?_
      rintro rfl
      rw [hstart, hbnamed] at hparent
      cases hparent
    have hapos : a ≠ 0 := by
      rintro rfl
      rw [hstart] at hanamed
      cases hanamed
    have hale := ha.start_le
    have hble := hb.start_le
    have hdigests : digest (records (a - 1)) = digest (records (b - 1)) := by
      rw [hanamed, hbnamed] at hparent
      exact Option.some.inj hparent
    have hparents := hdigest (a - 1) (by omega) (b - 1) (by omega) hdigests
    exact ih (a - 1) (by omega) (b - 1) (by omega) (by omega) hparents

end

end OmniviaCore.Lib
