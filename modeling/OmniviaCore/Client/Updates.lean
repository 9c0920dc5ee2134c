import OmniviaCore.Client.UpdateTrust
import OmniviaCore.Lib.SortBy

/-!
# The update check

`check_for_updates` of `updates.py`: the installation is examined, the channel fetched, believed or refused,
its recommendation read, and the versions compared. `$` of the version pattern also matches before a final
newline, and `int` strips that newline and refuses more than `MAX_STR_DIGITS` digits.
-/

namespace OmniviaCore.Client.Updates

open CanonicalJson Connector Lib UpdateTrust

/-- `FIRST_PARTY_PACKAGES`. -/
def FIRST_PARTY_PACKAGES : List Text :=
  ["omnivia-core", "omnivia-core-runtime", "omnivia-core-client", "omnivia-core-cli",
    "omnivia-core-mcp"].map String.toList

/-- The six statuses. -/
inductive Status where
  | upToDate
  | updateAvailable
  | aheadOfChannel
  | noRelease
  | unsupportedInstall
  | checkFailed
  deriving DecidableEq

/-- What `validate_channel_document` finds wrong with a recommendation. -/
inductive ReleaseDefect where
  | malformedMember
  | unexpectedMembers
  | version
  | packages
  | packageVersion (name : Text)
  | releaseUrl
  | bundleSha256

inductive Reason where
  | editable (names : List Text)
  | partialInstall (missing : List Text)
  | refused (refusal : Refusal)
  | release (defect : ReleaseDefect)
  | raised (message : String)
  | installedVersion (version : Text)
  | channelVersion (version : Text)
  | mixed

/-- `ChannelRelease`. -/
structure ChannelRelease where
  version : Text
  releaseUrl : Text
  packages : List (Text × Text)
  bundleSha256 : Option Text
  signed : Bool

/-- `UpdateCheckResult`. -/
structure UpdateCheckResult where
  status : Status
  reason : Option Reason
  installed : List (Text × Text)
  checkedAt : Text
  candidateVersion : Option Text
  releaseUrl : Option Text
  bundleSha256 : Option Text
  candidatePackages : Option (List (Text × Text))

/-! ## Versions -/

/-- A version without its final newline. -/
def versionBody (text : Text) : Text := if text.getLast? = some '\n' then text.dropLast else text

def versionParts (text : Text) : List Text := (versionBody text).splitOn '.'

/-- `_VERSION_RE.match`. -/
def isVersion (text : Text) : Bool := (versionParts text).all isNumeral

def orderOf (text : Text) : List ℕ := (versionParts text).map numeralValue

/-- No number of the version has too many digits. -/
def isShort (text : Text) : Bool := (versionParts text).all fun part => part.length ≤ MAX_STR_DIGITS

/-- How a comparison of versions fails: an installed version, or one of the channel, outside the ordering,
or the `ValueError` of `int`. -/
inductive CompareFailure where
  | installed (version : Text)
  | channel (version : Text)
  | valueError

/-- `_version_key` and `_installed_version_key`, which fail in their own ways. -/
def orderKey (failure : CompareFailure) (text : Text) : Except CompareFailure (List ℕ) := do
  require (isVersion text = true) failure
  require (isShort text = true) .valueError
  pure (orderOf text)

def installedVersionKey (text : Text) : Except CompareFailure (List ℕ) := orderKey (.installed text) text

def channelVersionKey (text : Text) : Except CompareFailure (List ℕ) := orderKey (.channel text) text

/-! ## The recommendation -/

/-- `validate_channel_document` refuses, or fails with an error of another kind. -/
inductive CheckFailure where
  | refused (refusal : Refusal)
  | release (defect : ReleaseDefect)
  | valueError

/-- The packages of a recommendation, with their versions. -/
def packagesOf (members : List (Key × Value)) : Except CheckFailure (List (Text × Text)) :=
  members.mapM fun m =>
    match (textOf m.2).filter isVersion with
    | some version => pure (m.1.chars, version)
    | none => throw (.release (.packageVersion m.1.chars))

/-- `bundle_sha256`, absent or well formed. -/
def bundleOf (release : List (Key × Value)) : Except CheckFailure (Option Text) :=
  match lookup release "bundle_sha256".toList with
  | none => pure none
  | some .none => pure none
  | some value =>
    match (textOf value).filter fun text => Jobs.isContentChecksum (String.ofList text) with
    | some text => pure (some text)
    | none => throw (.release .bundleSha256)

/-- The members a recommendation must have. -/
def requiredMembers (signed : Bool) : List Text :=
  (["version", "release_url", "packages"] ++ if signed then ["bundle_sha256"] else []).map String.toList

def knownMembers : List Text := ["version", "release_url", "packages", "bundle_sha256"].map String.toList

/-- A value of the recommendation, or the defect in its absence. -/
def orDefect {α : Type} (value : Option α) (defect : ReleaseDefect) : Except CheckFailure α :=
  match value with
  | some a => pure a
  | none => throw (.release defect)

/-- The `packages` member, when it covers the first-party packages. -/
def packagesMember (release : List (Key × Value)) : Option (List (Key × Value)) :=
  match lookup release "packages".toList with
  | some (.mapping packages) => if hasMembers packages FIRST_PARTY_PACKAGES then some packages else none
  | _ => none

/-- The part of `validate_channel_document` after admission. -/
def validateRelease (signed : Bool) (release : List (Key × Value)) :
    Except CheckFailure ChannelRelease := do
  require (∀ name ∈ requiredMembers signed, (lookup release name).isSome = true)
    (.release .malformedMember)
  require (∀ m ∈ release, ∃ name ∈ knownMembers, m.1 = .name (ofChars name))
    (.release .unexpectedMembers)
  let version ← orDefect (textMember release "version" isVersion) .version
  let packages ← orDefect (packagesMember release) .packages
  let versions ← packagesOf packages
  let releaseUrl ← orDefect (textMember release "release_url" ("https://".toList).isPrefixOf) .releaseUrl
  let bundleSha256 ← bundleOf release
  pure ⟨version, releaseUrl, versions, bundleSha256, signed⟩

/-- The failure of an admission, as `validate_channel_document` passes it on. -/
def admissionFailure : Failure → CheckFailure
  | .refused refusal => .refused refusal
  | .valueError => .valueError

/-- `validate_channel_document`. -/
def validateChannelDocument (verifier : Option (Bytes → Bytes → Bytes → Bool)) (raw : Bytes)
    (policy : UpdateTrustPolicy) (verifiedAt : Text) : Except CheckFailure (Option ChannelRelease) := do
  let admitted ← (admitChannelDocument verifier raw policy verifiedAt).mapError admissionFailure
  match admitted.release with
  | none => pure none
  | some release =>
    some <$> validateRelease (decide (admitted.schemaVersion = ENVELOPE_SCHEMA_VERSION)) release

/-! ## The check -/

/-- The version of an installed package. -/
def versionOf (packages : List (Text × Text)) (name : Text) : Text := (packages.lookup name).getD []

/-- `(installed_key > recommended_key) - (installed_key < recommended_key)`. -/
def comparison (installed recommended : List ℕ) : ℤ :=
  (if recommended < installed then 1 else 0) - (if installed < recommended then 1 else 0)

def comparePackage (installed recommended : List (Text × Text)) (name : Text) :
    Except CompareFailure ℤ := do
  let installedKey ← installedVersionKey (versionOf installed name)
  let recommendedKey ← channelVersionKey (versionOf recommended name)
  pure (comparison installedKey recommendedKey)

/-- What a fetch gives: the bytes, or the message of a `ClientError`, `OSError` or `ValueError`. -/
abbrev Fetched := Except String Bytes

def plainResult (installed : List (Text × Text)) (checkedAt : Text) (status : Status)
    (reason : Option Reason) : UpdateCheckResult :=
  ⟨status, reason, installed, checkedAt, none, none, none, none⟩

/-- The code points of a name, by which names are sorted. -/
def sortKey (name : Text) : List ℕ := name.map Char.toNat

/-- The installed packages of a source or editable checkout. -/
def editable (installed : List (Text × Text)) : List Text :=
  sortBy sortKey ((installed.filter fun package => "+editable".toList.isSuffixOf package.2).map Prod.fst)

def missing (installed : List (Text × Text)) : List Text :=
  sortBy sortKey (FIRST_PARTY_PACKAGES.filter fun name => (installed.lookup name).isNone)

def failedResult (installed : List (Text × Text)) (checkedAt : Text) : CheckFailure → UpdateCheckResult
  | .refused refusal => plainResult installed checkedAt .checkFailed (some (.refused refusal))
  | .release defect => plainResult installed checkedAt .checkFailed (some (.release defect))
  | .valueError => plainResult installed checkedAt .checkFailed (some (.raised "ValueError"))

/-- The status the comparisons make; none when they are mixed. -/
def statusOf (comparisons : List ℤ) : Option Status :=
  if comparisons.all (· == 0) then some .upToDate
  else if comparisons.any (· < 0) && !comparisons.any (0 < ·) then some .updateAvailable
  else if comparisons.all (0 ≤ ·) && comparisons.any (0 < ·) then some .aheadOfChannel
  else none

def answerOf (installed : List (Text × Text)) (checkedAt : Text) (release : ChannelRelease)
    (comparisons : List ℤ) : UpdateCheckResult :=
  match statusOf comparisons with
  | none => plainResult installed checkedAt .unsupportedInstall (some .mixed)
  | some .updateAvailable =>
    ⟨.updateAvailable, none, installed, checkedAt, some release.version, some release.releaseUrl,
      release.bundleSha256, some release.packages⟩
  | some status => plainResult installed checkedAt status none

/-- The comparison of every package, and its answer; a `ValueError` of `int` is caught by nothing. -/
def compareAll (installed : List (Text × Text)) (checkedAt : Text) (release : ChannelRelease) :
    Option UpdateCheckResult :=
  match FIRST_PARTY_PACKAGES.mapM (comparePackage installed release.packages) with
  | .error (.installed version) =>
    some (plainResult installed checkedAt .unsupportedInstall (some (.installedVersion version)))
  | .error (.channel version) =>
    some (plainResult installed checkedAt .checkFailed (some (.channelVersion version)))
  | .error .valueError => none
  | .ok comparisons => some (answerOf installed checkedAt release comparisons)

/-- `check_for_updates`: none when a `ValueError` leaves it. -/
def checkForUpdates (verifier : Option (Bytes → Bytes → Bytes → Bool)) (fetched : Fetched)
    (installed : List (Text × Text)) (checkedAt : Text) (policy : UpdateTrustPolicy) :
    Option UpdateCheckResult :=
  if editable installed ≠ [] then
    some (plainResult installed checkedAt .unsupportedInstall (some (.editable (editable installed))))
  else if missing installed ≠ [] then
    some (plainResult installed checkedAt .unsupportedInstall
      (some (.partialInstall (missing installed))))
  else
    match fetched with
    | .error message => some (plainResult installed checkedAt .checkFailed (some (.raised message)))
    | .ok raw =>
      match validateChannelDocument verifier raw policy checkedAt with
      | .error failure => some (failedResult installed checkedAt failure)
      | .ok none => some (plainResult installed checkedAt .noRelease none)
      | .ok (some release) => compareAll installed checkedAt release

end OmniviaCore.Client.Updates
