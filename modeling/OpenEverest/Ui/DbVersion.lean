import OpenEverest.Ui.DbType
import OpenEverest.Validation.VersionUpgrade

/-!
# The versions offered for an upgrade

The UI reads three numbers out of each version and offers those that are greater than the
current ones. The server compares whole versions, with what follows their numbers.
-/

namespace OpenEverest.Ui

open Framework GoString Api Validation

inductive WizardMode where
  | new
  | edit
  | restore
  deriving DecidableEq

/-- What the package `semver` makes of a text: a coerced version has three numbers and no more. -/
structure SemVer where
  major : Nat
  minor : Nat
  patch : Nat
  deriving DecidableEq

namespace SemVer

def compare (v w : SemVer) : Ordering :=
  (Ord.compare v.major w.major).then <| (Ord.compare v.minor w.minor).then
    (Ord.compare v.patch w.patch)

def gt (v w : SemVer) : Bool := decide (v.compare w = .gt)

def gte (v w : SemVer) : Bool := decide (v.compare w ≠ .lt)

end SemVer

section Filter

-- The function `coerce` of the package.
variable (coerce : GoString → Option SemVer)

/-- `none` where `gt` or `gte` of `null` throws. -/
def filterAvailableDbVersionsForDbEngineEdition (dbType : DbEngineType)
    (engine : Option (List GoString)) (currentVersion : GoString) (mode : WizardMode) :
    Option (List GoString) :=
  let versions := engine.getD []
  match coerce currentVersion with
  | none => some versions
  | some current => do
    -- Filter out downgrades
    let versions ← filterOption (fun version => (coerce version).map fun v =>
      if mode = .restore then v.gte current else v.gt current) versions
    -- If the engine is PXC or PG, major version upgrades are also ruled out
    let versions := if dbType ∈ [.pxc, .postgresql] then
        versions.filter fun version => (coerce version).all fun v => v.major = current.major
      else versions
    -- Rule out skipping major versions
    let versions := versions.filter fun version =>
      (coerce version).all fun v => (v.major : Int) - current.major ≤ 1
    -- Disallow upgrading from PXC 8.0.x to 8.4.x
    some (if dbType = .pxc then
        versions.filter fun version => !(decide (current.major = 8) && decide (current.minor = 0) &&
          (coerce version).any fun v => v.major = 8 && v.minor = 4)
      else versions)

end Filter

def numbersOf (p : Semver.Parsed) : SemVer :=
  ⟨Semver.numberValue p.major, Semver.numberValue p.minor, Semver.numberValue p.patch⟩

def versionNumbers (version : GoString) : Option SemVer :=
  (Semver.parse (ensureV version)).map numbersOf

def isRelease (major minor : Nat) (version : GoString) : Bool :=
  (versionNumbers version).any fun v => v.major = major && v.minor = minor

/-- What is to be offered: the versions the server accepts, but no PXC 8.4 on PXC 8.0. -/
structure Offerable (dbType : DbEngineType) (currentVersion version : GoString) : Prop where
  differs : version ≠ currentVersion
  accepted : validateDBEngineVersionUpgrade dbType.name version currentVersion = .ok ()
  not_excluded : ¬ (dbType = .pxc ∧ isRelease 8 0 currentVersion ∧ isRelease 8 4 version)

instance (dbType : DbEngineType) (currentVersion version : GoString) :
    Decidable (Offerable dbType currentVersion version) :=
  decidable_of_iff (version ≠ currentVersion ∧
    validateDBEngineVersionUpgrade dbType.name version currentVersion = .ok () ∧
    ¬ (dbType = .pxc ∧ isRelease 8 0 currentVersion ∧ isRelease 8 4 version))
    ⟨fun h => ⟨h.1, h.2.1, h.2.2⟩, fun h => ⟨h.differs, h.accepted, h.not_excluded⟩⟩

def OffersLaw (coerce : GoString → Option SemVer) (dbType : DbEngineType)
    (engine : Option (List GoString)) (currentVersion : GoString) : Prop :=
  filterAvailableDbVersionsForDbEngineEdition coerce dbType engine currentVersion .edit =
    some ((engine.getD []).filter fun version => Offerable dbType currentVersion version)

instance (coerce : GoString → Option SemVer) (dbType : DbEngineType)
    (engine : Option (List GoString)) (currentVersion : GoString) :
    Decidable (OffersLaw coerce dbType engine currentVersion) :=
  inferInstanceAs (Decidable (_ = _))

/-- `Number.MAX_SAFE_INTEGER`. -/
def maxSafeInteger : Nat := 2 ^ 53 - 1

/-- All numbers are of those the package takes. -/
def SemVer.Safe (v : SemVer) : Prop :=
  v.major ≤ maxSafeInteger ∧ v.minor ≤ maxSafeInteger ∧ v.patch ≤ maxSafeInteger

instance (v : SemVer) : Decidable v.Safe := inferInstanceAs (Decidable (_ ∧ _))

/-- The numbers of a version are what the package documents that `coerce` finds in it. -/
def ReadsVersions (coerce : GoString → Option SemVer) : Prop :=
  ∀ version v, versionNumbers version = some v → v.Safe → coerce version = some v

def Readable (version : GoString) : Prop := ∃ v, versionNumbers version = some v ∧ v.Safe

/-- The two versions have the same numbers, and what follows them is not lower. -/
def HigherSuffix (currentVersion version : GoString) : Prop :=
  ∃ p q, Semver.parse (ensureV version) = some p ∧ Semver.parse (ensureV currentVersion) = some q ∧
    numbersOf p = numbersOf q ∧ Semver.comparePrerelease p.prerelease q.prerelease ≠ .lt

/-- The numbers are those of an upgrade that is offered. -/
structure OfferedNumbers (dbType : DbEngineType) (current v : SemVer) : Prop where
  greater : v.compare current = .gt
  same_major : dbType ≠ .psmdb → v.major = current.major
  next_major : v.major ≤ current.major + 1
  not_excluded : ¬ (dbType = .pxc ∧ current.major = 8 ∧ current.minor = 0 ∧ v.major = 8 ∧ v.minor = 4)

instance (dbType : DbEngineType) (current v : SemVer) : Decidable (OfferedNumbers dbType current v) :=
  decidable_of_iff (v.compare current = .gt ∧ (dbType ≠ .psmdb → v.major = current.major) ∧
    v.major ≤ current.major + 1 ∧
    ¬ (dbType = .pxc ∧ current.major = 8 ∧ current.minor = 0 ∧ v.major = 8 ∧ v.minor = 4))
    ⟨fun h => ⟨h.1, h.2.1, h.2.2.1, h.2.2.2⟩,
      fun h => ⟨h.greater, h.same_major, h.next_major, h.not_excluded⟩⟩

/-- The UI and the server see the same in a version. Of two versions the UI can read it sees the
numbers. In a text that is no version it has to find numbers, of no upgrade; and where a
number is too large for it, what it finds has to be of an upgrade if the version is one. -/
structure SeenAlike (coerce : GoString → Option SemVer) (dbType : DbEngineType)
    (currentVersion version : GoString) : Prop where
  readable : Readable version → Readable currentVersion → version ≠ currentVersion →
    ¬ HigherSuffix currentVersion version
  invalid : ¬ ValidVersion version → ∃ current v, coerce currentVersion = some current ∧
    coerce version = some v ∧ ¬ OfferedNumbers dbType current v
  unreadable : ValidVersion version → ¬ (Readable version ∧ Readable currentVersion) →
    (coerce currentVersion = none → Offerable dbType currentVersion version) ∧
      ∀ current, coerce currentVersion = some current → ∃ v, coerce version = some v ∧
        (OfferedNumbers dbType current v ↔ Offerable dbType currentVersion version)

section Offers

variable {coerce : GoString → Option SemVer} {dbType : DbEngineType}
  {engine : Option (List GoString)} {currentVersion version : GoString} {current v w : SemVer}

theorem filter_when (c : Prop) [Decidable c] (p : GoString → Bool) (versions : List GoString) :
    (if c then versions.filter p else versions) = versions.filter fun version => !c || p version := by
  split <;> simp [*]

/-- The rules of the filters, one for each, are those of `OfferedNumbers`. -/
theorem rules_eq (dbType : DbEngineType) (current : SemVer) (hv : coerce version = some v) :
    ((!decide (dbType = .pxc) || !(decide (current.major = 8) && decide (current.minor = 0) &&
        (coerce version).any fun v => decide (v.major = 8) && decide (v.minor = 4))) &&
      ((coerce version).all (fun v => decide ((v.major : Int) - current.major ≤ 1)) &&
        ((!decide (dbType ∈ [.pxc, .postgresql]) ||
          (coerce version).all fun v => decide (v.major = current.major)) &&
          decide ((coerce version).map (fun v =>
            if WizardMode.edit = .restore then v.gte current else v.gt current) = some true)))) =
      (coerce version).any fun v => decide (OfferedNumbers dbType current v) := by
  have hstep : (v.major : Int) - current.major ≤ 1 ↔ v.major ≤ current.major + 1 := by omega
  have hmajor : dbType ∈ [.pxc, .postgresql] ↔ dbType ≠ .psmdb := by cases dbType <;> decide
  rw [Bool.eq_iff_iff]
  simp only [hv, hstep, hmajor, SemVer.gt, Option.any_some, Option.all_some, Option.map_some,
    reduceCtorEq, if_false, Option.some.injEq, Bool.and_eq_true, Bool.or_eq_true,
    Bool.not_eq_true', decide_eq_true_eq, decide_eq_false_iff_not, Bool.and_eq_false_iff]
  constructor
  · rintro ⟨hexcluded, hnext, hsame, hgreater⟩
    exact ⟨hgreater, by tauto, hnext, by tauto⟩
  · rintro ⟨hgreater, hsame, hnext, hexcluded⟩
    exact ⟨by tauto, hnext, by tauto, hgreater⟩

theorem filter_eq_some (hcurrent : coerce currentVersion = some current)
    (offered : List GoString) :
    filterAvailableDbVersionsForDbEngineEdition coerce dbType engine currentVersion .edit =
        some offered ↔
      (∀ version ∈ engine.getD [], (coerce version).isSome) ∧
        offered = (engine.getD []).filter fun version =>
          (coerce version).any fun v => OfferedNumbers dbType current v := by
  simp only [filterAvailableDbVersionsForDbEngineEdition, hcurrent, Option.bind_eq_bind,
    Option.bind_eq_some_iff, filterOption_eq_some, Option.isSome_map, filter_when, Option.some.injEq]
  simp only [List.filter_filter, and_assoc, exists_and_left, exists_eq_left]
  apply and_congr_right
  intro hsome
  have hrules := List.filter_congr (l := engine.getD []) fun version hversion => by
    obtain ⟨v, hv⟩ := Option.isSome_iff_exists.mp (hsome version hversion)
    exact rules_eq dbType current hv
  simp only [Bool.and_assoc] at hrules ⊢
  rw [hrules, eq_comm]

/-- A current version in which `coerce` finds nothing leaves the list as it is. -/
theorem offersLaw_of_none (hcurrent : coerce currentVersion = none) :
    OffersLaw coerce dbType engine currentVersion ↔
      ∀ version ∈ engine.getD [], Offerable dbType currentVersion version := by
  simp only [OffersLaw, filterAvailableDbVersionsForDbEngineEdition, hcurrent, Option.some.injEq]
  rw [eq_comm, List.filter_eq_self]
  simp only [decide_eq_true_eq]

theorem offersLaw_of_some (hcurrent : coerce currentVersion = some current) :
    OffersLaw coerce dbType engine currentVersion ↔ ∀ version ∈ engine.getD [],
      ∃ v, coerce version = some v ∧
        (OfferedNumbers dbType current v ↔ Offerable dbType currentVersion version) := by
  rw [OffersLaw, filter_eq_some hcurrent, filter_eq_filter_iff, ← forall₂_and]
  apply forall₂_congr
  intro version _
  cases coerce version with
  | none => simp
  | some v => simp [iff_comm]

variable {p q : Semver.Parsed}

theorem compare_eq (hp : Semver.parse (ensureV version) = some p)
    (hq : Semver.parse (ensureV currentVersion) = some q) :
    Semver.compareVersion (ensureV version) (ensureV currentVersion) =
      ((numbersOf p).compare (numbersOf q)).then
        (Semver.comparePrerelease p.prerelease q.prerelease) := by
  have hp' := Semver.parse_canonical hp
  have hq' := Semver.parse_canonical hq
  rw [Semver.compareVersion, hp, hq]
  simp only [Semver.compareParsed, SemVer.compare, numbersOf, Ordering.then_assoc,
    hp'.major.compareInt hq'.major, hp'.minor.compareInt hq'.minor, hp'.patch.compareInt hq'.patch]

theorem majorNumber_eq (hp : Semver.parse (ensureV version) = some p) :
    majorNumber version = (numbersOf p).major := by
  simp [majorNumber, numbersOf, Semver.major, hp]

theorem major_eq_iff (hp : Semver.parse (ensureV version) = some p)
    (hq : Semver.parse (ensureV currentVersion) = some q) :
    Semver.major (ensureV version) = Semver.major (ensureV currentVersion) ↔
      (numbersOf p).major = (numbersOf q).major := by
  have hp' := (Semver.parse_canonical hp).major
  have hq' := (Semver.parse_canonical hq).major
  simp only [Semver.major, hp, hq, List.cons.injEq, true_and, numbersOf]
  exact ⟨fun h => by rw [h], hp'.eq_of_value hq'⟩

/-- The server's verdict is on the numbers, and on what follows them where they are the same. -/
theorem accepted_iff (hp : Semver.parse (ensureV version) = some p)
    (hq : Semver.parse (ensureV currentVersion) = some q) (hsafe : (numbersOf q).Safe) :
    validateDBEngineVersionUpgrade dbType.name version currentVersion = .ok () ↔
      ((numbersOf p).compare (numbersOf q)).then
          (Semver.comparePrerelease p.prerelease q.prerelease) ≠ .lt ∧
        (dbType ≠ .psmdb → (numbersOf p).major = (numbersOf q).major) ∧
        (numbersOf p).major ≤ (numbersOf q).major + 1 := by
  have hnew : ValidVersion version := by simp [ValidVersion, Semver.isValid, hp]
  have hold : ValidVersion currentVersion := by simp [ValidVersion, Semver.isValid, hq]
  have hrange : ¬ OutOfRange version currentVersion := by
    have hmajor := hsafe.1
    rw [OutOfRange, majorNumber_eq hq]
    simp only [hold, not_true_eq_false, false_or, not_and_or]
    left
    unfold maxSafeInteger at hmajor
    omega
  rw [upgrade_eq_ok, atoi_step hnew hold, majorNumber_eq hp, majorNumber_eq hq, compare_eq hp hq,
    major_eq_iff hp hq, ne_eq dbType.name, DbEngineType.name_eq_psmdb]
  simp only [hnew, hold, hrange, true_and, or_false, ne_eq]

theorem isRelease_iff (major minor : Nat) (hp : Semver.parse (ensureV version) = some p) :
    isRelease major minor version = true ↔
      (numbersOf p).major = major ∧ (numbersOf p).minor = minor := by
  simp [isRelease, versionNumbers, hp]

theorem SemVer.compare_eq_eq : v.compare w = .eq ↔ v = w := by
  obtain ⟨major, minor, patch⟩ := v
  obtain ⟨major', minor', patch'⟩ := w
  simp [SemVer.compare, Ordering.then_eq_eq]

theorem offerable_iff (hp : Semver.parse (ensureV version) = some p)
    (hq : Semver.parse (ensureV currentVersion) = some q) (hsafe : (numbersOf q).Safe) :
    Offerable dbType currentVersion version ↔ version ≠ currentVersion ∧
      (((numbersOf p).compare (numbersOf q)).then
          (Semver.comparePrerelease p.prerelease q.prerelease) ≠ .lt ∧
        (dbType ≠ .psmdb → (numbersOf p).major = (numbersOf q).major) ∧
        (numbersOf p).major ≤ (numbersOf q).major + 1) ∧
      ¬ (dbType = .pxc ∧ ((numbersOf q).major = 8 ∧ (numbersOf q).minor = 0) ∧
        (numbersOf p).major = 8 ∧ (numbersOf p).minor = 4) := by
  rw [← accepted_iff hp hq hsafe, ← isRelease_iff 8 0 hq, ← isRelease_iff 8 4 hp]
  exact ⟨fun h => ⟨h.differs, h.accepted, h.not_excluded⟩, fun h => ⟨h.1, h.2.1, h.2.2⟩⟩

theorem higherSuffix_iff (hp : Semver.parse (ensureV version) = some p)
    (hq : Semver.parse (ensureV currentVersion) = some q) :
    HigherSuffix currentVersion version ↔ numbersOf p = numbersOf q ∧
      Semver.comparePrerelease p.prerelease q.prerelease ≠ .lt := by
  simp [HigherSuffix, hp, hq]

/-- On versions of which it reads the numbers the UI agrees with the server, unless they are
different versions of the same numbers and the one is not lower. -/
theorem seen_alike (hp : Semver.parse (ensureV version) = some p)
    (hq : Semver.parse (ensureV currentVersion) = some q) (hsafe : (numbersOf q).Safe) :
    (OfferedNumbers dbType (numbersOf q) (numbersOf p) ↔ Offerable dbType currentVersion version) ↔
      (version ≠ currentVersion → ¬ HigherSuffix currentVersion version) := by
  rw [offerable_iff hp hq hsafe, higherSuffix_iff hp hq]
  cases hcompare : (numbersOf p).compare (numbersOf q) with
  | lt =>
    have hnumbers : numbersOf p ≠ numbersOf q := by
      intro h
      rw [SemVer.compare_eq_eq.mpr h] at hcompare
      cases hcompare
    have hoffered : ¬ OfferedNumbers dbType (numbersOf q) (numbersOf p) := by
      intro h
      rw [h.greater] at hcompare
      cases hcompare
    simp [hoffered, hnumbers]
  | eq =>
    have hnumbers := SemVer.compare_eq_eq.mp hcompare
    have hoffered : ¬ OfferedNumbers dbType (numbersOf q) (numbersOf p) := by
      intro h
      rw [h.greater] at hcompare
      cases hcompare
    -- Neither the major numbers nor the releases differ here.
    have hexcluded : ¬ (dbType = .pxc ∧ ((numbersOf q).major = 8 ∧ (numbersOf q).minor = 0) ∧
        (numbersOf q).major = 8 ∧ (numbersOf q).minor = 4) := by
      rintro ⟨-, ⟨-, hzero⟩, -, hfour⟩
      omega
    rw [hnumbers] at hoffered
    simp [hoffered, hnumbers, hexcluded]
  | gt =>
    have hnumbers : numbersOf p ≠ numbersOf q := by
      intro h
      rw [SemVer.compare_eq_eq.mpr h] at hcompare
      cases hcompare
    have hdiffers : version ≠ currentVersion := by
      rintro rfl
      exact hnumbers (by rw [Option.some.inj (hp.symm.trans hq)])
    simp only [hdiffers, hnumbers, Ordering.gt_then, ne_eq, reduceCtorEq, not_false_eq_true,
      true_and, false_and, implies_true, iff_true]
    constructor
    · intro h
      refine ⟨⟨h.same_major, h.next_major⟩, ?_⟩
      rintro ⟨htype, ⟨hmajor, hminor⟩, hmajor', hminor'⟩
      exact h.not_excluded ⟨htype, hmajor, hminor, hmajor', hminor'⟩
    · rintro ⟨⟨hsame, hnext⟩, hexcluded⟩
      refine ⟨hcompare, hsame, hnext, ?_⟩
      rintro ⟨htype, hmajor, hminor, hmajor', hminor'⟩
      exact hexcluded ⟨htype, ⟨hmajor, hminor⟩, hmajor', hminor'⟩

theorem Offerable.valid (h : Offerable dbType currentVersion version) : ValidVersion version :=
  (upgrade_eq_ok.mp h.accepted).1

theorem Readable.parse (h : Readable version) :
    ∃ p, Semver.parse (ensureV version) = some p ∧ (numbersOf p).Safe := by
  obtain ⟨v, hv, hsafe⟩ := h
  obtain ⟨p, hp, rfl⟩ := Option.map_eq_some_iff.mp hv
  exact ⟨p, hp, hsafe⟩

theorem Readable.valid (h : Readable version) : ValidVersion version := by
  obtain ⟨p, hp, -⟩ := h.parse
  simp [ValidVersion, Semver.isValid, hp]

theorem ReadsVersions.eq_some (hreads : ReadsVersions coerce)
    (hp : Semver.parse (ensureV version) = some p) (hsafe : (numbersOf p).Safe) :
    coerce version = some (numbersOf p) :=
  hreads version (numbersOf p) (by simp [versionNumbers, hp]) hsafe

/-- In each of the cases one field of `SeenAlike` says it. -/
theorem seenAlike_iff (hreads : ReadsVersions coerce) (hcurrent : coerce currentVersion = some current) :
    (∃ v, coerce version = some v ∧
        (OfferedNumbers dbType current v ↔ Offerable dbType currentVersion version)) ↔
      SeenAlike coerce dbType currentVersion version := by
  by_cases hvalid : ValidVersion version
  · by_cases hreadable : Readable version ∧ Readable currentVersion
    · obtain ⟨p, hp, hpsafe⟩ := hreadable.1.parse
      obtain ⟨q, hq, hqsafe⟩ := hreadable.2.parse
      obtain rfl := Option.some.inj (hcurrent.symm.trans (hreads.eq_some hq hqsafe))
      rw [hreads.eq_some hp hpsafe]
      simp only [Option.some.injEq, exists_eq_left', seen_alike hp hq hqsafe]
      constructor
      · intro h
        exact ⟨fun _ _ => h, fun hinvalid => absurd hvalid hinvalid,
          fun _ hunreadable => absurd hreadable hunreadable⟩
      · intro h
        exact h.readable hreadable.1 hreadable.2
    · constructor
      · intro h
        refine ⟨fun hversion hcurrent => absurd ⟨hversion, hcurrent⟩ hreadable,
          fun hinvalid => absurd hvalid hinvalid, fun _ _ => ⟨?_, ?_⟩⟩
        · intro hnone
          rw [hcurrent] at hnone
          cases hnone
        · intro current' hcurrent'
          obtain rfl := Option.some.inj (hcurrent.symm.trans hcurrent')
          exact h
      · intro h
        exact (h.unreadable hvalid hreadable).2 current hcurrent
  · have hrefused : ¬ Offerable dbType currentVersion version := fun h => hvalid h.valid
    simp only [hrefused, iff_false]
    constructor
    · rintro ⟨v, hv, hoffered⟩
      exact ⟨fun hreadable => absurd hreadable.valid hvalid,
        fun _ => ⟨current, v, hcurrent, hv, hoffered⟩, fun hversion => absurd hversion hvalid⟩
    · intro h
      obtain ⟨current', v, hcurrent', hv, hoffered⟩ := h.invalid hvalid
      obtain rfl := Option.some.inj (hcurrent.symm.trans hcurrent')
      exact ⟨v, hv, hoffered⟩

theorem seenAlike_iff_of_none (hreads : ReadsVersions coerce) (hcurrent : coerce currentVersion = none) :
    Offerable dbType currentVersion version ↔ SeenAlike coerce dbType currentVersion version := by
  have hunreadable : ¬ Readable currentVersion := by
    intro h
    obtain ⟨q, hq, hsafe⟩ := h.parse
    rw [hreads.eq_some hq hsafe] at hcurrent
    cases hcurrent
  constructor
  · intro h
    refine ⟨fun _ hreadable => absurd hreadable hunreadable, fun hinvalid => absurd h.valid hinvalid,
      fun _ _ => ⟨fun _ => h, ?_⟩⟩
    intro current hsome
    rw [hcurrent] at hsome
    cases hsome
  · intro h
    by_cases hvalid : ValidVersion version
    · exact (h.unreadable hvalid fun hreadable => hunreadable hreadable.2).1 hcurrent
    · obtain ⟨current, -, hsome, -⟩ := h.invalid hvalid
      rw [hcurrent] at hsome
      cases hsome

end Offers

/-- The UI offers what the server accepts just when they see the same in each version listed. -/
theorem offersLaw_iff (coerce : GoString → Option SemVer) (hreads : ReadsVersions coerce)
    (dbType : DbEngineType) (engine : Option (List GoString)) (currentVersion : GoString) :
    OffersLaw coerce dbType engine currentVersion ↔
      ∀ version ∈ engine.getD [], SeenAlike coerce dbType currentVersion version := by
  cases hcurrent : coerce currentVersion with
  | none =>
    rw [offersLaw_of_none hcurrent]
    exact forall₂_congr fun version _ => seenAlike_iff_of_none hreads hcurrent
  | some current =>
    rw [offersLaw_of_some hcurrent]
    exact forall₂_congr fun version _ => seenAlike_iff hreads hcurrent

theorem offersLaw_iff_sample :
    OffersLaw versionNumbers .psmdb (some [ascii "8.0.4-1", ascii "7.0.15-9", ascii "6.0.19-16",
        ascii "6.0.18-15"]) (ascii "6.0.18-15") ∧
      SeenAlike versionNumbers .psmdb (ascii "6.0.18-15") (ascii "7.0.15-9") := by
  have hlaw : OffersLaw versionNumbers .psmdb (some [ascii "8.0.4-1", ascii "7.0.15-9",
      ascii "6.0.19-16", ascii "6.0.18-15"]) (ascii "6.0.18-15") := by decide +kernel
  exact ⟨hlaw, (offersLaw_iff versionNumbers (fun _ _ h _ => h) _ _ _).mp hlaw _ (by decide)⟩

/-- A release of the same numbers is accepted and not offered, and a text without a number makes
the filter throw. -/
theorem offersLaw_broken :
    ReadsVersions versionNumbers ∧
    ¬ OffersLaw versionNumbers .psmdb (some [ascii "7.0.12-8"]) (ascii "7.0.12-7") ∧
    filterAvailableDbVersionsForDbEngineEdition versionNumbers .psmdb (some [ascii "latest"])
      (ascii "7.0.12-7") .edit = none ∧
    ¬ OffersLaw versionNumbers .psmdb (some [ascii "latest"]) (ascii "7.0.12-7") :=
  ⟨fun _ _ h _ => h, by decide +kernel, by decide +kernel, by decide +kernel⟩

end OpenEverest.Ui
