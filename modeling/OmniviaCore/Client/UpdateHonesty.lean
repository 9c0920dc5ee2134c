import OmniviaCore.Client.Updates

/-!
# The update check answers honestly

An answer about versions rests on an admitted channel and a comparison of the five packages, and carries a
candidate when an update is available and at no other time. Two versions are read too widely: one with a
number of too many digits, whose `ValueError` leaves the check, and an installed one with a final newline,
which is compared as if it had none.
-/

namespace OmniviaCore.Client.Updates

open CanonicalJson Connector Lib UpdateTrust

variable {verifier : Option (Bytes → Bytes → Bytes → Bool)} {fetched : Fetched}
  {installed : List (Text × Text)} {checkedAt : Text} {policy : UpdateTrustPolicy}

/-! ## What is asked of an answer -/

def IsDotted (text : Text) : Prop := (text.splitOn '.').all isNumeral = true

def Status.compares : Status → Bool
  | .upToDate => true
  | .updateAvailable => true
  | .aheadOfChannel => true
  | _ => false

/-- The bytes were admitted, and this is what they recommend. -/
structure Recommends (verifier : Option (Bytes → Bytes → Bytes → Bool)) (fetched : Fetched)
    (checkedAt : Text) (policy : UpdateTrustPolicy) (release : ChannelRelease) : Prop where
  admitted : ∃ raw channel members, fetched = .ok raw ∧
    admitChannelDocument verifier raw policy checkedAt = .ok channel ∧ channel.release = some members ∧
    validateRelease (decide (channel.schemaVersion = ENVELOPE_SCHEMA_VERSION)) members = .ok release

/-- Nothing of the installation is newer than the recommendation. -/
def NoneNewer (installed : List (Text × Text)) (release : ChannelRelease) : Prop :=
  ∀ name ∈ FIRST_PARTY_PACKAGES,
    ¬ orderOf (versionOf release.packages name) < orderOf (versionOf installed name)

def NoneOlder (installed : List (Text × Text)) (release : ChannelRelease) : Prop :=
  ∀ name ∈ FIRST_PARTY_PACKAGES,
    ¬ orderOf (versionOf installed name) < orderOf (versionOf release.packages name)

def Status.Holds (installed : List (Text × Text)) (release : ChannelRelease) : Status → Prop
  | .upToDate => ∀ name ∈ FIRST_PARTY_PACKAGES,
      orderOf (versionOf installed name) = orderOf (versionOf release.packages name)
  | .updateAvailable => NoneNewer installed release ∧ ¬ NoneOlder installed release
  | .aheadOfChannel => NoneOlder installed release ∧ ¬ NoneNewer installed release
  | _ => True

/-- An honest result. -/
structure HonestResult (verifier : Option (Bytes → Bytes → Bytes → Bool)) (fetched : Fetched)
    (installed : List (Text × Text)) (checkedAt : Text) (policy : UpdateTrustPolicy)
    (result : UpdateCheckResult) : Prop where
  compared : result.status.compares = true → ∃ release,
    Recommends verifier fetched checkedAt policy release ∧
    (∀ name ∈ FIRST_PARTY_PACKAGES, (installed.lookup name).isSome = true ∧
      IsDotted (versionOf installed name)) ∧ result.status.Holds installed release
  candidate : result.status = .updateAvailable → ∃ release,
    Recommends verifier fetched checkedAt policy release ∧
      result.candidateVersion = some release.version ∧ result.candidatePackages = some release.packages
  no_candidate : result.status ≠ .updateAvailable →
    result.candidateVersion = none ∧ result.candidatePackages = none

def Honest (verifier : Option (Bytes → Bytes → Bytes → Bool)) (fetched : Fetched)
    (installed : List (Text × Text)) (checkedAt : Text) (policy : UpdateTrustPolicy)
    (outcome : Option UpdateCheckResult) : Prop :=
  ∃ result, outcome = some result ∧
    HonestResult verifier fetched installed checkedAt policy result

/-- The versions of the installation are compared with a recommendation. -/
structure Compares (verifier : Option (Bytes → Bytes → Bytes → Bool)) (fetched : Fetched)
    (installed : List (Text × Text)) (checkedAt : Text) (policy : UpdateTrustPolicy)
    (release : ChannelRelease) : Prop where
  no_editable : editable installed = []
  no_missing : missing installed = []
  recommends : Recommends verifier fetched checkedAt policy release

/-- The versions of some packages are read, up to the first installed one outside the ordering, and none of
them has too many digits. -/
def ShortUntil (installed recommended : List (Text × Text)) (names : List Text) : Prop :=
  ∀ before name after, names = before ++ name :: after →
    (∀ earlier ∈ before ++ [name], isVersion (versionOf installed earlier) = true) →
    isShort (versionOf installed name) = true ∧ isShort (versionOf recommended name) = true

/-- The condition: no number that is read has too many digits; and when an answer about versions is given,
no installed version ends in a newline. -/
structure Readable (verifier : Option (Bytes → Bytes → Bytes → Bool)) (fetched : Fetched)
    (installed : List (Text × Text)) (checkedAt : Text) (policy : UpdateTrustPolicy) : Prop where
  short : ∀ release, Compares verifier fetched installed checkedAt policy release →
    ShortUntil installed release.packages FIRST_PARTY_PACKAGES
  plain : ∀ release, Compares verifier fetched installed checkedAt policy release →
    (∀ name ∈ FIRST_PARTY_PACKAGES, isVersion (versionOf installed name) = true) →
    NoneNewer installed release ∨ NoneOlder installed release →
    ∀ name ∈ FIRST_PARTY_PACKAGES, (versionOf installed name).getLast? ≠ some '\n'

/-! ## Versions -/

theorem isDotted_iff_of_plain {text : Text} (h : text.getLast? ≠ some '\n') :
    IsDotted text ↔ isVersion text = true := by
  rw [IsDotted, isVersion, versionParts, versionBody, if_neg h]

theorem isNumeral_digits {part : Text} (h : isNumeral part = true) : ∀ c ∈ part, c.isDigit = true := by
  cases part with
  | nil => cases h
  | cons d rest =>
    unfold isNumeral at h
    split at h
    · cases h
    · next heq =>
      rw [heq]
      intro c hc
      rw [List.mem_singleton.mp hc]
      rfl
    · next heq =>
      simp only [Bool.and_eq_true, List.all_eq_true] at h
      rw [heq]
      intro c hc
      rcases List.mem_cons.mp hc with rfl | hc
      · exact h.1.1
      · exact h.2 c hc

theorem mem_intercalate {parts : List Text} {c : Char} (h : c ∈ ['.'].intercalate parts) :
    c = '.' ∨ ∃ part ∈ parts, c ∈ part := by
  induction parts with
  | nil => cases h
  | cons part parts ih =>
    cases parts with
    | nil =>
      rw [List.intercalate_singleton] at h
      exact Or.inr ⟨part, List.mem_cons_self, h⟩
    | cons next parts =>
      rw [List.intercalate_cons_cons, List.append_assoc, List.mem_append, List.mem_append] at h
      rcases h with h | h | h
      · exact Or.inr ⟨part, List.mem_cons_self, h⟩
      · exact Or.inl (List.mem_singleton.mp h)
      · rcases ih h with h | ⟨other, hother, hc⟩
        · exact Or.inl h
        · exact Or.inr ⟨other, List.mem_cons_of_mem _ hother, hc⟩

theorem getLast?_of_isDotted {text : Text} (h : IsDotted text) : text.getLast? ≠ some '\n' := by
  intro hlast
  have hmem : '\n' ∈ text := List.mem_of_getLast? hlast
  have hparts : ['.'].intercalate (text.splitOn '.') = text := List.intercalate_splitOn '.'
  rw [← hparts] at hmem
  rcases mem_intercalate hmem with heq | ⟨part, hpart, hc⟩
  · cases heq
  · have hdigit := isNumeral_digits (List.all_eq_true.mp h part hpart) _ hc
    cases hdigit

/-! ## The versions of a recommendation -/

theorem isVersion_versionOf {packages : List (Text × Text)}
    (h : ∀ package ∈ packages, isVersion package.2 = true) {name : Text}
    (hname : name ∈ packages.map Prod.fst) : isVersion (versionOf packages name) = true := by
  induction packages with
  | nil => cases hname
  | cons package packages ih =>
    obtain ⟨first, version⟩ := package
    rw [versionOf, List.lookup_cons]
    split
    · exact h (first, version) List.mem_cons_self
    · next hne =>
      apply ih fun other hother => h other (List.mem_cons_of_mem _ hother)
      rcases List.mem_cons.mp hname with rfl | hname
      · simp at hne
      · exact hname

theorem packagesOf_eq_ok {members : List (Key × Value)} {versions : List (Text × Text)}
    (h : packagesOf members = .ok versions) :
    versions.map Prod.fst = members.map (fun m => m.1.chars) ∧
      ∀ package ∈ versions, isVersion package.2 = true := by
  rw [packagesOf, mapM_eq_ok] at h
  induction h with
  | nil => exact ⟨rfl, fun _ hmem => absurd hmem List.not_mem_nil⟩
  | @cons m package members versions hm _ ih =>
    split at hm
    · next version hversion =>
      cases hm
      refine ⟨by rw [List.map_cons, List.map_cons, ih.1], ?_⟩
      intro other hother
      rcases List.mem_cons.mp hother with rfl | hother
      · exact (Option.filter_eq_some_iff.mp hversion).2
      · exact ih.2 other hother
    · cases hm

theorem isVersion_of_validateRelease {signed : Bool} {members : List (Key × Value)}
    {release : ChannelRelease} (h : validateRelease signed members = .ok release) :
    ∀ name ∈ FIRST_PARTY_PACKAGES, isVersion (versionOf release.packages name) = true := by
  simp only [validateRelease, bind_eq_ok, require_eq_ok, pure_eq_ok] at h
  obtain ⟨_, _, _, _, version, _, packages, hpackages, versions, hversions, _, _, _, _, rfl⟩ := h
  obtain ⟨hnames, hall⟩ := packagesOf_eq_ok hversions
  have hcovers : hasMembers packages FIRST_PARTY_PACKAGES = true := by
    unfold packagesMember at hpackages
    split at hpackages
    · split at hpackages
      · next hmembers =>
        cases hpackages
        exact hmembers
      · cases hpackages
    · cases hpackages
  intro name hname
  apply isVersion_versionOf hall
  rw [hnames]
  rw [hasMembers, Bool.and_eq_true] at hcovers
  have hsome := List.all_eq_true.mp hcovers.1 name hname
  rw [lookup, Option.isSome_map, List.find?_isSome] at hsome
  obtain ⟨m, hm, hkey⟩ := hsome
  apply List.mem_map.mpr ⟨m, hm, ?_⟩
  rw [of_decide_eq_true hkey, Key.chars, toChars_ofChars]
  rfl

theorem recommends_iff {release : ChannelRelease} :
    Recommends verifier fetched checkedAt policy release ↔
      ∃ raw, fetched = .ok raw ∧
        validateChannelDocument verifier raw policy checkedAt = .ok (some release) := by
  constructor
  · rintro ⟨raw, channel, members, hfetched, hadmitted, hrelease, hvalid⟩
    refine ⟨raw, hfetched, ?_⟩
    rw [validateChannelDocument, hadmitted]
    simp only [Except.mapError, ok_bind, hrelease, hvalid]
    rfl
  · rintro ⟨raw, hfetched, h⟩
    simp only [validateChannelDocument, bind_eq_ok, mapError_eq_ok] at h
    obtain ⟨channel, hadmitted, h⟩ := h
    split at h
    · cases h
    · next members hrelease =>
      refine ⟨raw, channel, members, hfetched, hadmitted, hrelease, ?_⟩
      obtain ⟨found, hfound, heq⟩ := except_map_eq_ok.mp h
      cases heq
      exact hfound

theorem Recommends.unique {release other : ChannelRelease}
    (h : Recommends verifier fetched checkedAt policy release)
    (hother : Recommends verifier fetched checkedAt policy other) : other = release := by
  obtain ⟨raw, hfetched, hvalid⟩ := recommends_iff.mp h
  obtain ⟨raw', hfetched', hvalid'⟩ := recommends_iff.mp hother
  rw [hfetched] at hfetched'
  cases hfetched'
  rw [hvalid] at hvalid'
  cases hvalid'
  rfl

/-! ## The comparison loop -/

theorem orderKey_of_short {failure : CompareFailure} {text : Text} (hversion : isVersion text = true)
    (hshort : isShort text = true) : orderKey failure text = .ok (orderOf text) := by
  rw [orderKey, require_pos hversion, ok_bind, require_pos hshort]
  rfl

theorem orderKey_of_long {failure : CompareFailure} {text : Text} (hversion : isVersion text = true)
    (hlong : isShort text ≠ true) : orderKey failure text = .error .valueError := by
  rw [orderKey, require_pos hversion, ok_bind, require_neg hlong]
  rfl

variable {recommended : List (Text × Text)} {name : Text} {names : List Text}

theorem comparePackage_of_not_version (h : isVersion (versionOf installed name) ≠ true) :
    comparePackage installed recommended name = .error (.installed (versionOf installed name)) := by
  rw [comparePackage, installedVersionKey, orderKey, require_neg h]
  rfl

theorem comparePackage_of_short (hinstalled : isVersion (versionOf installed name) = true)
    (hrecommended : isVersion (versionOf recommended name) = true)
    (hshort : isShort (versionOf installed name) = true ∧ isShort (versionOf recommended name) = true) :
    comparePackage installed recommended name =
      .ok (comparison (orderOf (versionOf installed name)) (orderOf (versionOf recommended name))) := by
  rw [comparePackage, installedVersionKey, orderKey_of_short hinstalled hshort.1, ok_bind,
    channelVersionKey, orderKey_of_short hrecommended hshort.2]
  rfl

theorem comparePackage_of_long (hinstalled : isVersion (versionOf installed name) = true)
    (hrecommended : isVersion (versionOf recommended name) = true)
    (hlong : ¬ (isShort (versionOf installed name) = true ∧
      isShort (versionOf recommended name) = true)) :
    comparePackage installed recommended name = .error .valueError := by
  by_cases hshort : isShort (versionOf installed name) = true
  · rw [comparePackage, installedVersionKey, orderKey_of_short hinstalled hshort, ok_bind,
      channelVersionKey, orderKey_of_long hrecommended fun h => hlong ⟨hshort, h⟩]
    rfl
  · rw [comparePackage, installedVersionKey, orderKey_of_long hinstalled hshort]
    rfl

theorem shortUntil_nil : ShortUntil installed recommended [] := by
  intro before name after h
  cases before <;> cases h

/-- The loop reads one package and, when its installed version is in the ordering, goes on. -/
theorem shortUntil_cons : ShortUntil installed recommended (name :: names) ↔
    (isVersion (versionOf installed name) = true →
      (isShort (versionOf installed name) = true ∧ isShort (versionOf recommended name) = true) ∧
        ShortUntil installed recommended names) := by
  constructor
  · intro h hversion
    refine ⟨h [] name names rfl (by simpa using hversion), ?_⟩
    intro before other after heq hearlier
    refine h (name :: before) other after (by rw [heq]; rfl) ?_
    intro earlier hmem
    rcases List.mem_cons.mp hmem with rfl | hmem
    · exact hversion
    · exact hearlier earlier hmem
  · intro h before other after heq hearlier
    cases before with
    | nil =>
      cases heq
      exact (h (hearlier name (by simp))).1
    | cons first before =>
      cases heq
      exact (h (hearlier name (by simp))).2 before other after rfl fun earlier hmem =>
        hearlier earlier (List.mem_cons_of_mem _ hmem)

def comparisonsOf (installed recommended : List (Text × Text)) (names : List Text) : List ℤ :=
  names.map fun name =>
    comparison (orderOf (versionOf installed name)) (orderOf (versionOf recommended name))

/-- When no number is too long, the loop stops at an installed version outside the ordering or compares
everything. -/
theorem mapM_comparePackage_of_short
    (hrecommended : ∀ name ∈ names, isVersion (versionOf recommended name) = true)
    (hshort : ShortUntil installed recommended names) :
    ((∀ name ∈ names, isVersion (versionOf installed name) = true) ∧
        names.mapM (comparePackage installed recommended) =
          .ok (comparisonsOf installed recommended names)) ∨
      ((¬ ∀ name ∈ names, isVersion (versionOf installed name) = true) ∧
        ∃ version, names.mapM (comparePackage installed recommended) = .error (.installed version)) := by
  induction names with
  | nil => exact Or.inl ⟨fun _ h => absurd h List.not_mem_nil, rfl⟩
  | cons name names ih =>
    rw [List.mapM_cons]
    by_cases hversion : isVersion (versionOf installed name) = true
    · obtain ⟨hhere, hrest⟩ := shortUntil_cons.mp hshort hversion
      rw [comparePackage_of_short hversion (hrecommended name List.mem_cons_self) hhere, ok_bind]
      rcases ih (fun other h => hrecommended other (List.mem_cons_of_mem _ h)) hrest with
        ⟨hall, heq⟩ | ⟨hnot, version, heq⟩
      · refine Or.inl ⟨?_, by rw [heq]; rfl⟩
        intro other hother
        rcases List.mem_cons.mp hother with rfl | hother
        · exact hversion
        · exact hall other hother
      · refine Or.inr ⟨fun hall => hnot fun other h => hall other (List.mem_cons_of_mem _ h), version, ?_⟩
        rw [heq]
        rfl
    · refine Or.inr ⟨fun hall => hversion (hall name List.mem_cons_self),
        versionOf installed name, ?_⟩
      rw [comparePackage_of_not_version hversion]
      rfl

theorem mapM_comparePackage_of_long
    (hrecommended : ∀ name ∈ names, isVersion (versionOf recommended name) = true)
    (hlong : ¬ ShortUntil installed recommended names) :
    names.mapM (comparePackage installed recommended) = .error .valueError := by
  induction names with
  | nil => exact absurd shortUntil_nil hlong
  | cons name names ih =>
    rw [shortUntil_cons] at hlong
    push Not at hlong
    obtain ⟨hversion, hrest⟩ := hlong
    have hhere := hrecommended name List.mem_cons_self
    rw [List.mapM_cons]
    by_cases hshort : isShort (versionOf installed name) = true ∧
        isShort (versionOf recommended name) = true
    · rw [comparePackage_of_short hversion hhere hshort, ok_bind,
        ih (fun other h => hrecommended other (List.mem_cons_of_mem _ h)) (hrest hshort)]
      rfl
    · rw [comparePackage_of_long hversion hhere hshort]
      rfl

/-! ## The answer -/

theorem comparison_eq_zero_iff {a b : List ℕ} : comparison a b = 0 ↔ a = b := by
  unfold comparison
  rcases lt_trichotomy a b with h | rfl | h
  · rw [if_neg (asymm h), if_pos h]
    exact iff_of_false (by decide) (ne_of_lt h)
  · rw [if_neg (lt_irrefl a)]
    exact iff_of_true rfl rfl
  · rw [if_pos h, if_neg (asymm h)]
    exact iff_of_false (by decide) (ne_of_gt h)

theorem comparison_neg_iff {a b : List ℕ} : comparison a b < 0 ↔ a < b := by
  unfold comparison
  rcases lt_trichotomy a b with h | rfl | h
  · rw [if_neg (asymm h), if_pos h]
    exact iff_of_true (by decide) h
  · rw [if_neg (lt_irrefl a)]
    exact iff_of_false (by decide) (lt_irrefl a)
  · rw [if_pos h, if_neg (asymm h)]
    exact iff_of_false (by decide) (asymm h)

theorem comparison_pos_iff {a b : List ℕ} : 0 < comparison a b ↔ b < a := by
  unfold comparison
  rcases lt_trichotomy a b with h | rfl | h
  · rw [if_neg (asymm h), if_pos h]
    exact iff_of_false (by decide) (asymm h)
  · rw [if_neg (lt_irrefl a)]
    exact iff_of_false (by decide) (lt_irrefl a)
  · rw [if_pos h, if_neg (asymm h)]
    exact iff_of_true (by decide) h

variable {release : ChannelRelease}

theorem any_pos_iff : (comparisonsOf installed release.packages FIRST_PARTY_PACKAGES).any (0 < ·) = true ↔
    ¬ NoneNewer installed release := by
  simp only [comparisonsOf, List.any_map, List.any_eq_true, Function.comp_apply, decide_eq_true_eq,
    comparison_pos_iff, NoneNewer, not_forall, not_not, exists_prop]

theorem any_neg_iff : (comparisonsOf installed release.packages FIRST_PARTY_PACKAGES).any (· < 0) = true ↔
    ¬ NoneOlder installed release := by
  simp only [comparisonsOf, List.any_map, List.any_eq_true, Function.comp_apply, decide_eq_true_eq,
    comparison_neg_iff, NoneOlder, not_forall, not_not, exists_prop]

theorem all_nonneg_iff : (comparisonsOf installed release.packages FIRST_PARTY_PACKAGES).all (0 ≤ ·) = true ↔
    NoneOlder installed release := by
  simp only [comparisonsOf, List.all_map, List.all_eq_true, Function.comp_apply, decide_eq_true_eq,
    ← not_lt, comparison_neg_iff, NoneOlder]

theorem all_zero_iff : (comparisonsOf installed release.packages FIRST_PARTY_PACKAGES).all (· == 0) = true ↔
    Status.Holds installed release .upToDate := by
  simp only [comparisonsOf, List.all_map, List.all_eq_true, Function.comp_apply, beq_iff_eq,
    comparison_eq_zero_iff, Status.Holds]

/-- The comparisons make a status that holds of the versions, or they are mixed. -/
theorem statusOf_comparisonsOf (installed : List (Text × Text)) (release : ChannelRelease) :
    (∃ status, statusOf (comparisonsOf installed release.packages FIRST_PARTY_PACKAGES) = some status ∧
        status.compares = true ∧ status.Holds installed release ∧
        (NoneNewer installed release ∨ NoneOlder installed release)) ∨
      (statusOf (comparisonsOf installed release.packages FIRST_PARTY_PACKAGES) = none ∧
        ¬ (NoneNewer installed release ∨ NoneOlder installed release)) := by
  unfold statusOf
  split
  · next hzero =>
    have heq := all_zero_iff.mp hzero
    refine Or.inl ⟨_, rfl, rfl, heq, Or.inl ?_⟩
    intro name hname
    rw [heq name hname]
    exact lt_irrefl _
  split
  · next hneg =>
    rw [Bool.and_eq_true, Bool.not_eq_true', ← Bool.not_eq_true, any_pos_iff, any_neg_iff, not_not] at hneg
    exact Or.inl ⟨_, rfl, rfl, ⟨hneg.2, hneg.1⟩, Or.inl hneg.2⟩
  split
  · next hpos =>
    rw [Bool.and_eq_true, any_pos_iff, all_nonneg_iff] at hpos
    exact Or.inl ⟨_, rfl, rfl, hpos, Or.inr hpos.1⟩
  · next hzero hneg hpos =>
    rw [Bool.and_eq_true, Bool.not_eq_true', ← Bool.not_eq_true, any_pos_iff, any_neg_iff] at hneg
    rw [Bool.and_eq_true, any_pos_iff, all_nonneg_iff] at hpos
    rw [all_zero_iff] at hzero
    have hequal (hnewer : NoneNewer installed release) (holder : NoneOlder installed release) : False := by
      apply hzero
      intro name hname
      exact le_antisymm (not_lt.mp (hnewer name hname)) (not_lt.mp (holder name hname))
    refine Or.inr ⟨rfl, ?_⟩
    rintro (hnewer | holder)
    · exact hneg ⟨hequal hnewer, not_not.mpr hnewer⟩
    · exact hpos ⟨holder, fun hnewer => hequal hnewer holder⟩

/-! ## The check -/

theorem plainResult_honest {status : Status} {reason : Option Reason} (h : status.compares = false) :
    HonestResult verifier fetched installed checkedAt policy
      (plainResult installed checkedAt status reason) where
  compared hcompares := by
    change status.compares = true at hcompares
    rw [h] at hcompares
    cases hcompares
  candidate havailable := by
    change status = .updateAvailable at havailable
    rw [havailable] at h
    cases h
  no_candidate _ := ⟨rfl, rfl⟩

/-- Without a recommendation to compare with, the check answers nothing about versions. -/
theorem checkForUpdates_of_not_compares
    (h : ∀ release, ¬ Compares verifier fetched installed checkedAt policy release) :
    ∃ status reason, checkForUpdates verifier fetched installed checkedAt policy =
      some (plainResult installed checkedAt status reason) ∧ status.compares = false := by
  unfold checkForUpdates
  split
  · exact ⟨.unsupportedInstall, _, rfl, rfl⟩
  split
  · exact ⟨.unsupportedInstall, _, rfl, rfl⟩
  next heditable hmissing =>
  cases hfetched : fetched with
  | error message => exact ⟨.checkFailed, some (.raised message), rfl, rfl⟩
  | ok raw =>
    simp only
    cases hvalid : validateChannelDocument verifier raw policy checkedAt with
    | error failure =>
      cases failure with
      | refused refusal => exact ⟨.checkFailed, some (.refused refusal), rfl, rfl⟩
      | release defect => exact ⟨.checkFailed, some (.release defect), rfl, rfl⟩
      | valueError => exact ⟨.checkFailed, some (.raised "ValueError"), rfl, rfl⟩
    | ok recommendation =>
      cases recommendation with
      | none => exact ⟨.noRelease, none, rfl, rfl⟩
      | some release =>
        exact absurd ⟨not_not.mp heditable, not_not.mp hmissing,
          recommends_iff.mpr ⟨raw, hfetched, hvalid⟩⟩ (h release)

theorem checkForUpdates_of_compares (h : Compares verifier fetched installed checkedAt policy release) :
    checkForUpdates verifier fetched installed checkedAt policy =
      compareAll installed checkedAt release := by
  obtain ⟨raw, hfetched, hvalid⟩ := recommends_iff.mp h.recommends
  unfold checkForUpdates
  rw [if_neg (not_not.mpr h.no_editable), if_neg (not_not.mpr h.no_missing), hfetched]
  simp only [hvalid]

theorem installed_of_no_missing (h : missing installed = []) :
    ∀ name ∈ FIRST_PARTY_PACKAGES, (installed.lookup name).isSome = true := by
  intro name hname
  by_contra hnone
  have hmem : name ∈ missing installed := by
    unfold missing
    rw [mem_sortBy, List.mem_filter, Option.isNone_iff_eq_none]
    exact ⟨hname, Option.not_isSome_iff_eq_none.mp hnone⟩
  rw [h] at hmem
  cases hmem

theorem compareAll_of_short (hrecommended : ∀ name ∈ FIRST_PARTY_PACKAGES,
      isVersion (versionOf release.packages name) = true)
    (hshort : ShortUntil installed release.packages FIRST_PARTY_PACKAGES) :
    ((∀ name ∈ FIRST_PARTY_PACKAGES, isVersion (versionOf installed name) = true) ∧
        compareAll installed checkedAt release = some (answerOf installed checkedAt release
          (comparisonsOf installed release.packages FIRST_PARTY_PACKAGES))) ∨
      ((¬ ∀ name ∈ FIRST_PARTY_PACKAGES, isVersion (versionOf installed name) = true) ∧
        ∃ reason, compareAll installed checkedAt release =
          some (plainResult installed checkedAt .unsupportedInstall reason)) := by
  rcases mapM_comparePackage_of_short hrecommended hshort with ⟨hall, heq⟩ | ⟨hnot, version, heq⟩
  · refine Or.inl ⟨hall, ?_⟩
    rw [compareAll, heq]
  · refine Or.inr ⟨hnot, some (.installedVersion version), ?_⟩
    rw [compareAll, heq]

theorem answerOf_status {comparisons : List ℤ} {status : Status} (h : statusOf comparisons = some status) :
    (answerOf installed checkedAt release comparisons).status = status := by
  rw [answerOf, h]
  cases status <;> rfl

theorem answerOf_candidate {comparisons : List ℤ} (h : statusOf comparisons = some .updateAvailable) :
    (answerOf installed checkedAt release comparisons).candidateVersion = some release.version ∧
      (answerOf installed checkedAt release comparisons).candidatePackages = some release.packages := by
  rw [answerOf, h]
  exact ⟨rfl, rfl⟩

theorem answerOf_no_candidate {comparisons : List ℤ} (h : statusOf comparisons ≠ some .updateAvailable) :
    (answerOf installed checkedAt release comparisons).candidateVersion = none ∧
      (answerOf installed checkedAt release comparisons).candidatePackages = none := by
  unfold answerOf
  split
  · exact ⟨rfl, rfl⟩
  · next havailable => exact absurd havailable h
  · exact ⟨rfl, rfl⟩

/-- **The check answers honestly exactly when it reads no number of too many digits and takes no installed
version that ends in a newline for one that does not.** -/
theorem check_for_updates_honest_iff :
    Honest verifier fetched installed checkedAt policy
        (checkForUpdates verifier fetched installed checkedAt policy) ↔
      Readable verifier fetched installed checkedAt policy := by
  by_cases hcompares : ∃ release, Compares verifier fetched installed checkedAt policy release
  · obtain ⟨release, hcompares⟩ := hcompares
    have hunique (other : ChannelRelease)
        (h : Compares verifier fetched installed checkedAt policy other) : other = release :=
      hcompares.recommends.unique h.recommends
    obtain ⟨raw, channel, members, _, _, _, hvalid⟩ := hcompares.recommends
    have hrecommended := isVersion_of_validateRelease hvalid
    rw [checkForUpdates_of_compares hcompares]
    constructor
    · rintro ⟨result, hresult, honest⟩
      have hshort : ShortUntil installed release.packages FIRST_PARTY_PACKAGES := by
        by_contra hlong
        rw [compareAll, mapM_comparePackage_of_long hrecommended hlong] at hresult
        cases hresult
      refine ⟨fun other h => hunique other h ▸ hshort, ?_⟩
      intro other h hversions hordered name hname
      rw [hunique other h] at hordered
      rcases compareAll_of_short hrecommended hshort with ⟨_, heq⟩ | ⟨hnot, _⟩
      · rw [heq] at hresult
        cases hresult
        rcases statusOf_comparisonsOf installed release with
          ⟨status, hstatus, hcompared, _⟩ | ⟨_, hmixed⟩
        · obtain ⟨_, _, hdotted, _⟩ := honest.compared (by rw [answerOf_status hstatus]; exact hcompared)
          exact getLast?_of_isDotted (hdotted name hname).2
        · exact absurd hordered hmixed
      · exact absurd hversions hnot
    · intro readable
      rcases compareAll_of_short hrecommended (readable.short release hcompares)
        with ⟨hall, heq⟩ | ⟨_, reason, heq⟩
      · rw [heq]
        refine ⟨_, rfl, ?_⟩
        rcases statusOf_comparisonsOf installed release with
          ⟨status, hstatus, hcompared, hholds, hordered⟩ | ⟨hmixed, _⟩
        · have hplain := readable.plain release hcompares hall hordered
          refine ⟨fun _ => ⟨release, hcompares.recommends, ?_, ?_⟩, ?_, ?_⟩
          · intro name hname
            exact ⟨installed_of_no_missing hcompares.no_missing name hname,
              (isDotted_iff_of_plain (hplain name hname)).mpr (hall name hname)⟩
          · rw [answerOf_status hstatus]
            exact hholds
          · intro havailable
            rw [answerOf_status hstatus] at havailable
            rw [havailable] at hstatus
            exact ⟨release, hcompares.recommends, answerOf_candidate hstatus⟩
          · intro hunavailable
            rw [answerOf_status hstatus] at hunavailable
            apply answerOf_no_candidate
            rw [hstatus]
            intro h
            exact hunavailable (Option.some.inj h)
        · rw [answerOf, hmixed]
          exact plainResult_honest rfl
      · rw [heq]
        exact ⟨_, rfl, plainResult_honest rfl⟩
  · rw [not_exists] at hcompares
    obtain ⟨status, reason, hresult, hstatus⟩ := checkForUpdates_of_not_compares hcompares
    refine iff_of_true ⟨_, hresult, plainResult_honest hstatus⟩ ⟨?_, ?_⟩
    · exact fun release h => absurd h (hcompares release)
    · exact fun release h => absurd h (hcompares release)

/-! ## Two versions read too widely -/

/-- A development channel that recommends version 1 of every package. -/
def developmentChannel : Bytes :=
  ("\x7b\"channel\":\"stable\",\"release\":\x7b\"packages\":\x7b\"omnivia-core\":\"1\"," ++
    "\"omnivia-core-cli\":\"1\",\"omnivia-core-client\":\"1\",\"omnivia-core-mcp\":\"1\"," ++
    "\"omnivia-core-runtime\":\"1\"\x7d,\"release_url\":\"https://x\",\"version\":\"1\"\x7d," ++
    "\"schema_version\":\"omnivia-core-update.v1\"\x7d").toList.map fun c => UInt8.ofNat c.toNat

theorem isProductId_omnivia : isProductId "omnivia-core".toList = true := by decide

theorem isChannel_stable : isChannel "stable".toList = true := by decide

def developmentPolicy : UpdateTrustPolicy where
  trustedKeys := []
  expectedProductId := "omnivia-core".toList
  expectedChannel := "stable".toList
  acceptUnsignedV1 := true
  minimumSequence := none
  versionFloor := []
  productId_valid := isProductId_omnivia
  channel_valid := isChannel_stable
  keyIds_nodup := List.nodup_nil

/-- Five installed packages, the first with this version. -/
def installedWith (version : Text) : List (Text × Text) :=
  FIRST_PARTY_PACKAGES.map fun name =>
    (name, if name = "omnivia-core".toList then version else ['1'])

def checkedNow : Text := "2026-01-01T00:00:00Z".toList

theorem long_version_escapes : (checkForUpdates none (.ok developmentChannel)
    (installedWith (List.replicate 4301 '1')) checkedNow developmentPolicy).isNone = true := by
  decide +kernel

theorem newline_version_up_to_date : (checkForUpdates none (.ok developmentChannel)
    (installedWith "1\n".toList) checkedNow developmentPolicy).map (·.status) = some .upToDate := by
  decide +kernel

theorem newline_version_not_dotted :
    ¬ IsDotted (versionOf (installedWith "1\n".toList) "omnivia-core".toList) := by
  unfold IsDotted
  decide

/-- An installed version of 4301 digits, and one that ends in a newline. -/
theorem long_or_newline_version_not_honest :
    ¬ Honest none (.ok developmentChannel) (installedWith (List.replicate 4301 '1')) checkedNow
        developmentPolicy (checkForUpdates none (.ok developmentChannel)
          (installedWith (List.replicate 4301 '1')) checkedNow developmentPolicy) ∧
      ¬ Honest none (.ok developmentChannel) (installedWith "1\n".toList) checkedNow developmentPolicy
        (checkForUpdates none (.ok developmentChannel) (installedWith "1\n".toList) checkedNow
          developmentPolicy) := by
  constructor
  · rintro ⟨result, hresult, _⟩
    have hescapes := long_version_escapes
    rw [hresult] at hescapes
    cases hescapes
  · rintro ⟨result, hresult, honest⟩
    have hstatus := newline_version_up_to_date
    rw [hresult] at hstatus
    have hcompares : result.status.compares = true := by
      have hsame : result.status = .upToDate := Option.some.inj hstatus
      rw [hsame]
      rfl
    obtain ⟨_, _, hdotted, _⟩ := honest.compared hcompares
    exact newline_version_not_dotted (hdotted _ List.mem_cons_self).2

end OmniviaCore.Client.Updates
