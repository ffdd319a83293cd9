import OpenEverest.Framework.SemverNumbers
import OpenEverest.Validation.DatabaseCluster

/-!
# The check of an engine version

An update is checked for its engine version when it has one and it differs from the stored
one. The check compares major numbers as integers of 64 bits.
-/

namespace OpenEverest.Validation

open Framework GoString Api

def ValidVersion (version : GoString) : Prop := Semver.isValid (ensureV version) = true

instance (version : GoString) : Decidable (ValidVersion version) :=
  inferInstanceAs (Decidable (_ = _))

def majorNumber (version : GoString) : Nat :=
  Semver.numberValue ((Semver.major (ensureV version)).drop 1)

/-- The upgrades that are meant to be accepted. -/
structure UpgradeAllowed (engineType newVersion oldVersion : GoString) : Prop where
  new_valid : ValidVersion newVersion
  old_valid : ValidVersion oldVersion
  not_below : Semver.compareVersion (ensureV newVersion) (ensureV oldVersion) ≠ .lt
  same_major : engineType ≠ databaseEnginePSMDB →
    Semver.major (ensureV newVersion) = Semver.major (ensureV oldVersion)
  next_major : engineType = databaseEnginePSMDB →
    majorNumber newVersion ≤ majorNumber oldVersion + 1

/-- The check does not panic, and accepts what it is meant to accept. -/
structure VersionCheckLaw (engineType newVersion oldVersion : GoString) : Prop where
  no_panic : engineVersionCheck engineType newVersion oldVersion ≠ .error .panic
  accepts : engineVersionCheck engineType newVersion oldVersion = .ok () ↔
    newVersion = [] ∨ newVersion = oldVersion ∨ UpgradeAllowed engineType newVersion oldVersion

/-- The old version is invalid, or its major number is one of the last two integers and the
new one is further ahead than the next. -/
def OutOfRange (newVersion oldVersion : GoString) : Prop :=
  ¬ ValidVersion oldVersion ∨
    2 ^ 63 - 2 ≤ majorNumber oldVersion ∧ majorNumber oldVersion + 2 ≤ majorNumber newVersion

theorem major_canonical {version : GoString} (h : ValidVersion version) :
    ∃ p, Semver.parse (ensureV version) = some p ∧ Semver.Canonical p.major ∧
      Semver.major (ensureV version) = 118 :: p.major := by
  obtain ⟨p, hp⟩ := Option.isSome_iff_exists.mp h
  refine ⟨p, hp, (Semver.parse_canonical hp).major, ?_⟩
  rw [Semver.major, hp]

theorem major_eq_nil_iff {version : GoString} :
    Semver.major (ensureV version) = [] ↔ ¬ ValidVersion version := by
  unfold Semver.major ValidVersion Semver.isValid
  cases Semver.parse (ensureV version) <;> simp

theorem atoi_major {version : GoString} (h : ValidVersion version) :
    atoi ((Semver.major (ensureV version)).drop 1) = min (majorNumber version : Int) (2 ^ 63 - 1) := by
  obtain ⟨p, -, hcanonical, hmajor⟩ := major_canonical h
  rw [majorNumber, hmajor, List.drop_one, List.tail_cons, atoi, hcanonical.parseUint]
  simp only
  split <;> omega

theorem not_below_of_major {newVersion oldVersion : GoString} (hnew : ValidVersion newVersion)
    (hold : ValidVersion oldVersion) (hlt : majorNumber oldVersion < majorNumber newVersion) :
    Semver.compareVersion (ensureV newVersion) (ensureV oldVersion) ≠ .lt := by
  obtain ⟨p, hp, hpmajor, hnewmajor⟩ := major_canonical hnew
  obtain ⟨q, hq, hqmajor, holdmajor⟩ := major_canonical hold
  rw [majorNumber, majorNumber, hnewmajor, holdmajor] at hlt
  have hcompare : Semver.compareInt p.major q.major = .gt := by
    rw [hpmajor.compareInt hqmajor]
    exact Nat.compare_eq_gt.mpr hlt
  rw [Semver.compareVersion, hp, hq]
  simp [Semver.compareParsed, hcompare]

section Check

variable {engineType newVersion oldVersion : GoString}

theorem upgrade_eq_ok :
    validateDBEngineVersionUpgrade engineType newVersion oldVersion = .ok () ↔
      ValidVersion newVersion ∧
      Semver.compareVersion (ensureV newVersion) (ensureV oldVersion) ≠ .lt ∧
      (engineType ≠ databaseEnginePSMDB →
        Semver.major (ensureV newVersion) = Semver.major (ensureV oldVersion)) ∧
      ValidVersion oldVersion ∧
      atoi ((Semver.major (ensureV newVersion)).drop 1) -
        atoi ((Semver.major (ensureV oldVersion)).drop 1) ≤ 1 := by
  simp only [validateDBEngineVersionUpgrade, check_bind_eq_ok, failWhen_eq_ok, ValidVersion,
    Bool.not_eq_false, major_eq_nil_iff, not_and, not_not, not_lt, ne_eq]
  simp only [eq_comm]

theorem failWhen_bind_eq_error {c : Prop} [Decidable c] {e e' : ValidationError}
    {f : Unit → Except ValidationError Unit} :
    (failWhen c e >>= f) = .error e' ↔ (c ∧ e = e') ∨ (¬ c ∧ f () = .error e') := by
  unfold failWhen
  by_cases hc : c <;> simp [hc, bind, Except.bind]

theorem failWhen_eq_error {c : Prop} [Decidable c] {e e' : ValidationError} :
    failWhen c e = .error e' ↔ c ∧ e = e' := by
  unfold failWhen
  by_cases hc : c <;> simp [hc]

theorem upgrade_panics :
    validateDBEngineVersionUpgrade engineType newVersion oldVersion = .error .panic ↔
      engineType = databaseEnginePSMDB ∧ ValidVersion newVersion ∧ ¬ ValidVersion oldVersion := by
  simp only [validateDBEngineVersionUpgrade, failWhen_bind_eq_error, failWhen_eq_error,
    reduceCtorEq, and_false, false_or, or_false, and_true, major_eq_nil_iff]
  constructor
  · rintro ⟨hnew, -, hmajor, hold⟩
    have hvalid : ValidVersion newVersion := by simpa [ValidVersion] using hnew
    refine ⟨?_, hvalid, hold⟩
    by_contra htype
    have hempty := major_eq_nil_iff.mpr hold
    have hnonempty : Semver.major (ensureV newVersion) ≠ [] :=
      fun h => major_eq_nil_iff.mp h hvalid
    exact hmajor ⟨htype, fun h => hnonempty (h.symm.trans hempty)⟩
  · rintro ⟨htype, hvalid, hold⟩
    have hgreater : Semver.compareVersion (ensureV newVersion) (ensureV oldVersion) = .gt := by
      obtain ⟨p, hp, -⟩ := major_canonical hvalid
      have hq : Semver.parse (ensureV oldVersion) = none := by
        simpa [ValidVersion, Semver.isValid] using hold
      rw [Semver.compareVersion, hp, hq]
    refine ⟨by simpa [ValidVersion] using hvalid, ?_, ?_, hold⟩
    · simp [hgreater]
    · simp [htype]

/-- Between valid versions, the difference of the integers is that of the numbers, but for the
last two integers. -/
theorem atoi_step (hnew : ValidVersion newVersion) (hold : ValidVersion oldVersion) :
    atoi ((Semver.major (ensureV newVersion)).drop 1) -
        atoi ((Semver.major (ensureV oldVersion)).drop 1) ≤ 1 ↔
      majorNumber newVersion ≤ majorNumber oldVersion + 1 ∨ OutOfRange newVersion oldVersion := by
  rw [atoi_major hnew, atoi_major hold]
  simp only [OutOfRange, hold, not_true_eq_false, false_or]
  omega

theorem checkWhen_eq_error {c : Bool} {x : Except ValidationError Unit} {e : ValidationError} :
    checkWhen c x = .error e ↔ c = true ∧ x = .error e := by
  cases c <;> simp [checkWhen]

theorem no_panic_iff :
    engineVersionCheck engineType newVersion oldVersion ≠ .error .panic ↔
      ¬ (engineType = databaseEnginePSMDB ∧ newVersion ≠ [] ∧ newVersion ≠ oldVersion ∧
        ValidVersion newVersion ∧ ¬ ValidVersion oldVersion) := by
  rw [engineVersionCheck, ne_eq, checkWhen_eq_error, upgrade_panics, decide_eq_true_iff]
  tauto

/-- Where neither version is beyond what is compared, the check accepts the allowed upgrades. -/
theorem upgrade_accepts (hrange : ValidVersion newVersion → engineType = databaseEnginePSMDB →
      ¬ OutOfRange newVersion oldVersion) :
    validateDBEngineVersionUpgrade engineType newVersion oldVersion = .ok () ↔
      UpgradeAllowed engineType newVersion oldVersion := by
  rw [upgrade_eq_ok]
  constructor
  · rintro ⟨hnew, hbelow, hmajor, hold, hstep⟩
    refine ⟨hnew, hold, hbelow, hmajor, ?_⟩
    intro htype
    exact ((atoi_step hnew hold).mp hstep).resolve_right (hrange hnew htype)
  · intro hallowed
    refine ⟨hallowed.new_valid, hallowed.not_below, hallowed.same_major, hallowed.old_valid, ?_⟩
    by_cases htype : engineType = databaseEnginePSMDB
    · exact (atoi_step hallowed.new_valid hallowed.old_valid).mpr (Or.inl (hallowed.next_major htype))
    · rw [hallowed.same_major htype]
      omega

theorem upgrade_accepts_too_far (hnew : ValidVersion newVersion) (hold : ValidVersion oldVersion)
    (htype : engineType = databaseEnginePSMDB) (hrange : OutOfRange newVersion oldVersion) :
    validateDBEngineVersionUpgrade engineType newVersion oldVersion = .ok () ∧
      ¬ UpgradeAllowed engineType newVersion oldVersion := by
  have hfar := hrange.resolve_left (not_not.mpr hold)
  constructor
  · refine upgrade_eq_ok.mpr ⟨hnew, ?_, fun h => absurd htype h, hold, ?_⟩
    · exact not_below_of_major hnew hold (by omega)
    · exact (atoi_step hnew hold).mpr (Or.inr hrange)
  · intro hallowed
    have hnext := hallowed.next_major htype
    omega

/-- The law holds but for engines PSMDB whose old version is out of range. -/
theorem versionCheckLaw_iff (engineType newVersion oldVersion : GoString) :
    VersionCheckLaw engineType newVersion oldVersion ↔
      ¬ (engineType = databaseEnginePSMDB ∧ newVersion ≠ [] ∧ newVersion ≠ oldVersion ∧
        ValidVersion newVersion ∧ OutOfRange newVersion oldVersion) := by
  constructor
  · rintro hlaw ⟨htype, hne, hdiffer, hnew, hrange⟩
    have hold : ValidVersion oldVersion := by
      by_contra hold
      exact no_panic_iff.mp hlaw.no_panic ⟨htype, hne, hdiffer, hnew, hold⟩
    obtain ⟨haccepted, hnot⟩ := upgrade_accepts_too_far hnew hold htype hrange
    have hok : engineVersionCheck engineType newVersion oldVersion = .ok () := by
      rw [engineVersionCheck, checkWhen_eq_ok]
      exact fun _ => haccepted
    rcases hlaw.accepts.mp hok with hempty | hsame | hallowed
    · exact hne hempty
    · exact hdiffer hsame
    · exact hnot hallowed
  · intro hcondition
    constructor
    · rw [no_panic_iff]
      rintro ⟨htype, hne, hdiffer, hnew, hold⟩
      exact hcondition ⟨htype, hne, hdiffer, hnew, Or.inl hold⟩
    · rw [engineVersionCheck, checkWhen_eq_ok, decide_eq_true_iff]
      by_cases hempty : newVersion = []
      · simp [hempty]
      by_cases hsame : newVersion = oldVersion
      · simp [hsame]
      have haccepts : validateDBEngineVersionUpgrade engineType newVersion oldVersion = .ok () ↔
          UpgradeAllowed engineType newVersion oldVersion :=
        upgrade_accepts fun hnew htype hrange => hcondition ⟨htype, hempty, hsame, hnew, hrange⟩
      rw [haccepts]
      simp [hempty, hsame]

/-- An empty old version makes the check panic, and a major number can be skipped at the end
of the integers. -/
theorem versionCheckLaw_broken :
    ¬ VersionCheckLaw databaseEnginePSMDB (ascii "8.0.4") [] ∧
    ¬ VersionCheckLaw databaseEnginePSMDB (ascii "9223372036854775808.0.0")
      (ascii "9223372036854775806.0.0") := by
  constructor
  · intro hlaw
    exact hlaw.no_panic (by decide +kernel)
  · intro hlaw
    have hok : engineVersionCheck databaseEnginePSMDB (ascii "9223372036854775808.0.0")
        (ascii "9223372036854775806.0.0") = .ok () := by decide +kernel
    rcases hlaw.accepts.mp hok with hempty | hsame | hallowed
    · exact absurd hempty (by decide)
    · exact absurd hsame (by decide)
    · exact absurd (hallowed.next_major rfl) (by decide +kernel)

end Check

end OpenEverest.Validation
