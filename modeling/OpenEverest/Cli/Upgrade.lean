import OpenEverest.Framework.Checks
import OpenEverest.Framework.GoString
import OpenEverest.Framework.Select
import Mathlib.Data.Prod.Lex

/-!
# The version to upgrade Everest to

The upgrade command takes the version asked for, or looks for one in the metadata of the
version service: the latest patch of the next line, and of the current line where there is
no next one. A line is a major and a minor number.
-/

namespace OpenEverest.Cli

open Framework GoString

/-- The package `goversion`: parsing, the order, and the numbers of a version. -/
structure GoVersion (V : Type) where
  newVersion : GoString → Option V
  compare : V → V → Ordering
  segments : V → List Nat

namespace GoVersion

variable {V : Type} (lib : GoVersion V)

def lessThan (v o : V) : Prop := lib.compare v o = .lt

def equal (v o : V) : Prop := lib.compare v o = .eq

def greaterThan (v o : V) : Prop := lib.compare v o = .gt

def greaterThanOrEqual (v o : V) : Prop := lib.compare v o ≠ .lt

instance (v o : V) : Decidable (lib.lessThan v o) := inferInstanceAs (Decidable (_ = _))

instance (v o : V) : Decidable (lib.equal v o) := inferInstanceAs (Decidable (_ = _))

instance : DecidableRel lib.greaterThan := fun _ _ => inferInstanceAs (Decidable (_ = _))

instance (v o : V) : Decidable (lib.greaterThanOrEqual v o) := inferInstanceAs (Decidable (_ ≠ _))

/-- `Segments()[i]`. -/
def segment (v : V) (i : Nat) : Nat := (lib.segments v).getD i 0

def line (v : V) : ℕ ×ₗ ℕ := toLex (lib.segment v 0, lib.segment v 1)

def release (v : V) : (ℕ ×ₗ ℕ) ×ₗ ℕ := toLex (lib.line v, lib.segment v 2)

/-- What the package documents: no version has an empty text or fewer than three numbers,
and the order is one of all versions, the numbers from left to right before anything else. -/
structure Documented : Prop where
  newVersion_nil : lib.newVersion [] = none
  three_segments : ∀ v, 3 ≤ (lib.segments v).length
  order : Std.TransCmp lib.compare
  numbers_first : ∀ v w, lib.release v < lib.release w → lib.compare v w = .lt

end GoVersion

/-- An entry of the metadata: its version, and the constraints of its components. -/
structure MetadataVersion where
  version : GoString
  supported : List (GoString × GoString)
  deriving DecidableEq

inductive UpgradeError (V : Type) where
  | errNoUpdateAvailable
  | errDowngradeNotAllowed
  | errCannotUpgradeByMoreThanOneMinorVersion
  /-- `could not parse version %s`. -/
  | couldNotParse (version : GoString)
  /-- `version '%s' not found in metadata`. -/
  | notFound (version : V)
  /-- The error of the version service. -/
  | metadata (message : GoString)
  deriving DecidableEq

section Upgrade

variable {V : Type} (lib : GoVersion V)

/-! ### A version that is asked for -/

def validateVersionToUpgrade (currentEverestVersion targetEverestVersion : V) :
    Except (UpgradeError V) Unit :=
  if lib.lessThan targetEverestVersion currentEverestVersion then .error .errDowngradeNotAllowed
  else if lib.equal targetEverestVersion currentEverestVersion then .error .errNoUpdateAvailable
  else
    let currentMinor := lib.segment currentEverestVersion 1
    let targetMinor := lib.segment targetEverestVersion 1
    if (targetMinor : Int) - currentMinor > 1 then
      .error .errCannotUpgradeByMoreThanOneMinorVersion
    else .ok ()

def isVersion (upgradeTo : V) (v : MetadataVersion) : Bool :=
  match lib.newVersion v.version with
  | none => false
  | some ver => decide (lib.equal ver upgradeTo)

def handleSpecifiedVersion (versionToUpgrade : GoString) (currentEverestVersion : V)
    (versions : List MetadataVersion) : Except (UpgradeError V) (V × MetadataVersion) := do
  let upgradeTo ← (lib.newVersion versionToUpgrade).elim
    (.error (.couldNotParse versionToUpgrade)) .ok
  validateVersionToUpgrade lib currentEverestVersion upgradeTo
  match versions.find? (isVersion lib upgradeTo) with
  | none => .error (.notFound upgradeTo)
  | some entry => .ok (upgradeTo, entry)

/-! ### The next version -/

def sameLine (v w : V) : Prop :=
  3 ≤ (lib.segments v).length ∧ 3 ≤ (lib.segments w).length ∧
    lib.segment v 0 = lib.segment w 0 ∧ lib.segment v 1 = lib.segment w 1

instance (v w : V) : Decidable (sameLine lib v w) := inferInstanceAs (Decidable (_ ∧ _))

/-- The loop of `findNextMinorVersion`, with what it found so far. -/
def nextMinorVersion (currentEverestVersion : V) :
    Option (V × MetadataVersion) → List MetadataVersion → Option (V × MetadataVersion)
  | found, [] => found
  | found, v :: rest =>
    match lib.newVersion v.version with
    | none => nextMinorVersion currentEverestVersion found rest
    | some ver =>
      if lib.greaterThanOrEqual currentEverestVersion ver then
        nextMinorVersion currentEverestVersion found rest
      else if sameLine lib ver currentEverestVersion then
        nextMinorVersion currentEverestVersion found rest
      else
        match found with
        | none => nextMinorVersion currentEverestVersion (some (ver, v)) rest
        | some (upgradeTo, entry) =>
          if lib.greaterThan upgradeTo ver then
            nextMinorVersion currentEverestVersion (some (ver, v)) rest
          else nextMinorVersion currentEverestVersion (some (upgradeTo, entry)) rest

def findNextMinorVersion (versions : List MetadataVersion) (currentEverestVersion : V) :
    Option (V × MetadataVersion) :=
  nextMinorVersion lib currentEverestVersion none versions

/-- The loop of `versionToUpgradeTo` over the patches of the line it upgrades to. -/
def latestPatch (currentEverestVersion : V) :
    V × Option MetadataVersion → List MetadataVersion → V × Option MetadataVersion
  | found, [] => found
  | (upgradeTo, entry), v :: rest =>
    match lib.newVersion v.version with
    | none => latestPatch currentEverestVersion (upgradeTo, entry) rest
    | some ver =>
      if lib.greaterThanOrEqual currentEverestVersion ver then
        latestPatch currentEverestVersion (upgradeTo, entry) rest
      else if sameLine lib ver upgradeTo then
        if lib.segment ver 2 ≤ lib.segment upgradeTo 2 then
          latestPatch currentEverestVersion (upgradeTo, entry) rest
        else latestPatch currentEverestVersion (ver, some v) rest
      else latestPatch currentEverestVersion (upgradeTo, entry) rest

def patchStart (currentEverestVersion : V) :
    Option (V × MetadataVersion) → V × Option MetadataVersion
  | none => (currentEverestVersion, none)
  | some (upgradeTo, entry) => (upgradeTo, some entry)

/-- `versionToUpgrade` is empty when no version is asked for. -/
def versionToUpgradeTo (versionToUpgrade : GoString)
    (getEverestMetadata : Except (UpgradeError V) (List MetadataVersion))
    (currentEverestVersion : V) : Except (UpgradeError V) (V × MetadataVersion) := do
  let versions ← getEverestMetadata
  if versionToUpgrade ≠ [] then
    handleSpecifiedVersion lib versionToUpgrade currentEverestVersion versions
  else
    let next := findNextMinorVersion lib versions currentEverestVersion
    match latestPatch lib currentEverestVersion (patchStart currentEverestVersion next) versions with
    | (_, none) => .error .errNoUpdateAvailable
    | (upgradeTo, some entry) => .ok (upgradeTo, entry)

/-! ### The loops as selections -/

def newerVersion (currentEverestVersion : V) (v : MetadataVersion) : Option (V × MetadataVersion) :=
  match lib.newVersion v.version with
  | none => none
  | some ver => if lib.greaterThanOrEqual currentEverestVersion ver then none else some (ver, v)

def newerVersions (currentEverestVersion : V) (versions : List MetadataVersion) :
    List (V × MetadataVersion) :=
  versions.filterMap (newerVersion lib currentEverestVersion)

/-- Those of another line. -/
def otherLines (currentEverestVersion : V) (versions : List MetadataVersion) :
    List (V × MetadataVersion) :=
  (newerVersions lib currentEverestVersion versions).filter fun e =>
    ¬ sameLine lib e.1 currentEverestVersion

def smaller (e f : V × MetadataVersion) : Prop := lib.greaterThan e.1 f.1

instance : DecidableRel (smaller lib) := fun e f =>
  inferInstanceAs (Decidable (lib.greaterThan e.1 f.1))

def laterPatch (e f : V × Option MetadataVersion) : Prop :=
  lib.segment e.1 2 < lib.segment f.1 2

instance : DecidableRel (laterPatch lib) := fun _ _ => inferInstanceAs (Decidable (_ < _))

variable {lib}

theorem newerVersion_eq_some {current v : V} {entry e : MetadataVersion} :
    newerVersion lib current e = some (v, entry) ↔
      e = entry ∧ lib.newVersion e.version = some v ∧ lib.compare current v = .lt := by
  unfold newerVersion
  cases hver : lib.newVersion e.version with
  | none => simp
  | some ver =>
    by_cases hold : lib.greaterThanOrEqual current ver
    · simp only [hold, if_true, reduceCtorEq, Option.some.injEq, false_iff]
      rintro ⟨-, rfl, hlt⟩
      exact hold hlt
    · simp only [hold, if_false, Option.some.injEq, Prod.mk.injEq]
      constructor
      · rintro ⟨rfl, rfl⟩
        exact ⟨rfl, rfl, not_not.mp hold⟩
      · rintro ⟨rfl, rfl, -⟩
        exact ⟨rfl, rfl⟩

theorem mem_newerVersions {current v : V} {entry : MetadataVersion}
    {versions : List MetadataVersion} :
    (v, entry) ∈ newerVersions lib current versions ↔
      entry ∈ versions ∧ lib.newVersion entry.version = some v ∧ lib.compare current v = .lt := by
  unfold newerVersions
  rw [List.mem_filterMap]
  constructor
  · intro ⟨e, he, hsome⟩
    obtain ⟨rfl, hver, hnewer⟩ := newerVersion_eq_some.mp hsome
    exact ⟨he, hver, hnewer⟩
  · intro ⟨he, hver, hnewer⟩
    exact ⟨entry, he, newerVersion_eq_some.mpr ⟨rfl, hver, hnewer⟩⟩

theorem nextMinorVersion_eq (current : V) (found : Option (V × MetadataVersion))
    (versions : List MetadataVersion) :
    nextMinorVersion lib current found versions =
      selectFrom (smaller lib) found (otherLines lib current versions) := by
  induction versions generalizing found with
  | nil => cases found <;> rfl
  | cons v rest ih =>
    rw [nextMinorVersion]
    unfold otherLines newerVersions
    rw [List.filterMap_cons, newerVersion]
    cases lib.newVersion v.version with
    | none => exact ih found
    | some ver =>
      by_cases hold : lib.greaterThanOrEqual current ver
      · simp only [hold, if_true]
        exact ih found
      by_cases hsame : sameLine lib ver current
      · simp only [hold, hsame, if_true, if_false, List.filter_cons, not_true_eq_false,
          decide_false, Bool.false_eq_true]
        exact ih found
      simp only [hold, hsame, if_false, List.filter_cons, not_false_eq_true, decide_true, if_true]
      cases found with
      | none => exact ih (some (ver, v))
      | some e =>
        by_cases hgt : smaller lib e (ver, v)
        · rw [selectFrom, select_cons_of hgt]
          simp only [show lib.greaterThan e.1 ver from hgt, if_true]
          exact ih (some (ver, v))
        · rw [selectFrom, select_cons_of_not hgt]
          simp only [show ¬ lib.greaterThan e.1 ver from hgt, if_false]
          exact ih (some e)

theorem findNextMinorVersion_eq (current : V) (versions : List MetadataVersion) :
    findNextMinorVersion lib versions current =
      selectFrom (smaller lib) none (otherLines lib current versions) :=
  nextMinorVersion_eq current none versions

/-- The versions of a line, as what the loop over the patches may find. -/
def patchesOf (lib : GoVersion V) (current upgradeTo : V) (versions : List MetadataVersion) :
    List (V × Option MetadataVersion) :=
  ((newerVersions lib current versions).filter fun e => sameLine lib e.1 upgradeTo).map
    fun e => (e.1, some e.2)

theorem sameLine_congr {u v : V} (h : sameLine lib u v) (w : V) :
    sameLine lib w u ↔ sameLine lib w v := by
  obtain ⟨hu, hv, hmajor, hminor⟩ := h
  unfold sameLine
  rw [hmajor, hminor]
  simp only [hu, hv, true_and]

theorem latestPatch_eq (current : V) (found : V × Option MetadataVersion)
    (versions : List MetadataVersion) :
    latestPatch lib current found versions =
      select (laterPatch lib) found (patchesOf lib current found.1 versions) := by
  induction versions generalizing found with
  | nil => rfl
  | cons v rest ih =>
    obtain ⟨upgradeTo, entry⟩ := found
    rw [latestPatch]
    unfold patchesOf newerVersions
    rw [List.filterMap_cons, newerVersion]
    cases lib.newVersion v.version with
    | none => exact ih _
    | some ver =>
      by_cases hold : lib.greaterThanOrEqual current ver
      · simp only [hold, if_true]
        exact ih _
      by_cases hsame : sameLine lib ver upgradeTo
      · simp only [hold, hsame, if_true, if_false, List.filter_cons, decide_true, List.map_cons]
        by_cases hlater : laterPatch lib (upgradeTo, entry) (ver, some v)
        · rw [select_cons_of hlater, if_neg (not_le.mpr hlater), ih]
          unfold patchesOf newerVersions
          simp only [sameLine_congr hsame]
        · rw [select_cons_of_not hlater, if_pos (not_lt.mp hlater)]
          exact ih _
      · simp only [hold, hsame, if_false, List.filter_cons, decide_false, Bool.false_eq_true]
        exact ih _

namespace GoVersion.Documented

variable (h : lib.Documented)
include h

theorem text_ne_nil {text : GoString} {v : V} (hver : lib.newVersion text = some v) :
    text ≠ [] := by
  intro hnil
  rw [hnil, h.newVersion_nil] at hver
  cases hver

theorem greaterThan_iff {v w : V} : lib.greaterThan v w ↔ lib.lessThan w v := by
  have := h.order
  exact Std.OrientedCmp.gt_iff_lt

theorem equal_symm {v w : V} (hvw : lib.equal v w) : lib.equal w v := by
  have := h.order
  exact Std.OrientedCmp.eq_symm hvw

theorem equal_refl (v : V) : lib.equal v v := by
  have := h.order
  exact Std.ReflCmp.compare_self

theorem lessThan_of_equal {u v w : V} (huv : lib.lessThan u v) (hvw : lib.equal v w) :
    lib.lessThan u w := by
  have := h.order
  exact Std.TransCmp.lt_of_lt_of_eq huv hvw

theorem not_lessThan {v w : V} (hvw : lib.lessThan v w) : ¬ lib.lessThan w v := by
  have := h.order
  exact Std.OrientedCmp.not_lt_of_lt hvw

theorem not_greaterThan_trans {u v w : V} (huv : ¬ lib.greaterThan u v)
    (hvw : ¬ lib.greaterThan v w) : ¬ lib.greaterThan u w := by
  have := h.order
  have huv' : (lib.compare u v).isLE = true := Ordering.isLE_iff_ne_gt.mpr huv
  have hvw' : (lib.compare v w).isLE = true := Ordering.isLE_iff_ne_gt.mpr hvw
  exact Ordering.isLE_iff_ne_gt.mp (Std.TransCmp.isLE_trans huv' hvw')

theorem line_le {v w : V} (hvw : ¬ lib.greaterThan v w) : lib.line v ≤ lib.line w := by
  by_contra hlt
  have hrelease : lib.release w < lib.release v :=
    Prod.Lex.toLex_lt_toLex.mpr (Or.inl (not_le.mp hlt))
  exact hvw (h.greaterThan_iff.mpr (h.numbers_first w v hrelease))

theorem line_eq {v w : V} (hvw : lib.equal v w) : lib.line v = lib.line w := by
  apply le_antisymm
  · apply h.line_le
    rw [greaterThan, show lib.compare v w = .eq from hvw]
    exact Ordering.noConfusion
  · apply h.line_le
    rw [greaterThan, show lib.compare w v = .eq from h.equal_symm hvw]
    exact Ordering.noConfusion

theorem sameLine_iff (v w : V) : sameLine lib v w ↔ lib.line v = lib.line w := by
  simp only [sameLine, h.three_segments, true_and, line, toLex_inj, Prod.mk.injEq]

end GoVersion.Documented

/-! ### What each path accepts -/

theorem validateVersionToUpgrade_eq_ok (h : lib.Documented) (current v : V) :
    validateVersionToUpgrade lib current v = .ok () ↔
      lib.lessThan current v ∧ lib.segment v 1 ≤ lib.segment current 1 + 1 := by
  unfold validateVersionToUpgrade
  split
  · rename_i hdown
    simp only [reduceCtorEq, false_iff]
    exact fun ⟨hup, _⟩ => h.not_lessThan hup hdown
  rename_i hdown
  split
  · rename_i hequal
    simp only [reduceCtorEq, false_iff]
    intro ⟨hup, _⟩
    have hcurrent : lib.compare current v = .eq := h.equal_symm hequal
    rw [GoVersion.lessThan, hcurrent] at hup
    cases hup
  rename_i hequal
  have hup : lib.lessThan current v := by
    rw [← h.greaterThan_iff]
    unfold GoVersion.lessThan GoVersion.equal at *
    unfold GoVersion.greaterThan
    cases hcompare : lib.compare v current <;> simp_all
  dsimp only
  split
  · simp only [reduceCtorEq, false_iff]
    omega
  · simp only [true_iff]
    exact ⟨hup, by omega⟩

theorem isVersion_iff (v : V) (entry : MetadataVersion) :
    isVersion lib v entry = true ↔ ∃ ver, lib.newVersion entry.version = some ver ∧ lib.equal ver v := by
  unfold isVersion
  cases lib.newVersion entry.version with
  | none => simp
  | some ver => simp

theorem versionToUpgradeTo_explicit {text : GoString} (hne : text ≠ []) (current : V)
    (versions : List MetadataVersion) :
    versionToUpgradeTo lib text (.ok versions) current =
      handleSpecifiedVersion lib text current versions := by
  simp [versionToUpgradeTo, bind, Except.bind, hne]

theorem handleSpecifiedVersion_eq_ok {text : GoString} {current v : V}
    {versions : List MetadataVersion} {entry : MetadataVersion} :
    handleSpecifiedVersion lib text current versions = .ok (v, entry) ↔
      lib.newVersion text = some v ∧ validateVersionToUpgrade lib current v = .ok () ∧
        versions.find? (isVersion lib v) = some entry := by
  have hparsed : ∀ ver, (lib.newVersion text).elim
      (.error (.couldNotParse text) : Except (UpgradeError V) V) .ok = .ok ver ↔
        lib.newVersion text = some ver := by
    intro ver
    cases lib.newVersion text <;> simp
  unfold handleSpecifiedVersion
  rw [bind_eq_ok]
  constructor
  · intro ⟨ver, hver, hrest⟩
    obtain ⟨hvalid, hfound⟩ := (check_bind_eq_ok ..).mp hrest
    split at hfound
    · cases hfound
    · rename_i hfind
      cases hfound
      exact ⟨(hparsed v).mp hver, hvalid, hfind⟩
  · intro ⟨hver, hvalid, hfind⟩
    refine ⟨v, (hparsed v).mpr hver, ?_⟩
    rw [check_bind_eq_ok, hfind]
    exact ⟨hvalid, rfl⟩

theorem explicit_accepted (h : lib.Documented) {text : GoString} {current v : V}
    {versions : List MetadataVersion} (hver : lib.newVersion text = some v)
    (hup : lib.lessThan current v) (hminor : lib.segment v 1 ≤ lib.segment current 1 + 1)
    (hlisted : ∃ entry ∈ versions, isVersion lib v entry = true) :
    ∃ entry, versionToUpgradeTo lib text (.ok versions) current = .ok (v, entry) := by
  have hsome : (versions.find? (isVersion lib v)).isSome = true := List.find?_isSome.mpr hlisted
  obtain ⟨entry, hfind⟩ := Option.isSome_iff_exists.mp hsome
  have hvalid := (validateVersionToUpgrade_eq_ok h current v).mpr ⟨hup, hminor⟩
  refine ⟨entry, ?_⟩
  rw [versionToUpgradeTo_explicit (h.text_ne_nil hver)]
  exact handleSpecifiedVersion_eq_ok.mpr ⟨hver, hvalid, hfind⟩

/-- The loop over the patches, from the version of `findNextMinorVersion`. -/
def automatic (lib : GoVersion V) (current : V) (versions : List MetadataVersion) :
    V × Option MetadataVersion :=
  let start := patchStart current (selectFrom (smaller lib) none (otherLines lib current versions))
  select (laterPatch lib) start (patchesOf lib current start.1 versions)

theorem versionToUpgradeTo_automatic {current v : V} {versions : List MetadataVersion}
    {entry : MetadataVersion} :
    versionToUpgradeTo lib [] (.ok versions) current = .ok (v, entry) ↔
      automatic lib current versions = (v, some entry) := by
  simp only [versionToUpgradeTo, bind, Except.bind, ne_eq, not_true_eq_false, if_false,
    findNextMinorVersion_eq, latestPatch_eq]
  split
  · rename_i hfound
    rw [show automatic lib current versions = _ from hfound]
    simp
  · rename_i hfound
    rw [show automatic lib current versions = _ from hfound]
    simp

/-- The loop over the patches keeps what it starts with or finds a listed version of its line. -/
theorem select_patchesOf (h : lib.Documented) {current v : V} {entry : MetadataVersion}
    {start : V × Option MetadataVersion} {versions : List MetadataVersion}
    (hfound : select (laterPatch lib) start (patchesOf lib current start.1 versions) =
      (v, some entry)) :
    start = (v, some entry) ∨
      (v, entry) ∈ newerVersions lib current versions ∧ lib.line v = lib.line start.1 := by
  have hmem := select_mem (R := laterPatch lib) start (patchesOf lib current start.1 versions)
  rw [hfound] at hmem
  rcases List.mem_cons.mp hmem with hstart | hpatch
  · exact Or.inl hstart.symm
  · obtain ⟨e, he, heq⟩ := List.mem_map.mp hpatch
    obtain ⟨hnewer, hsame⟩ := List.mem_filter.mp he
    cases heq
    exact Or.inr ⟨hnewer, (h.sameLine_iff _ _).mp (of_decide_eq_true hsame)⟩

/-- What the automatic path chooses: a listed version greater than the current one, of the
line of the smallest one of another line where there is one, or of the current line. -/
theorem automatic_eq_ok (h : lib.Documented) {current v : V} {versions : List MetadataVersion}
    {entry : MetadataVersion}
    (hok : versionToUpgradeTo lib [] (.ok versions) current = .ok (v, entry)) :
    (v, entry) ∈ newerVersions lib current versions ∧
      (otherLines lib current versions = [] ∧ lib.line v = lib.line current ∨
        ∃ u, selectFrom (smaller lib) none (otherLines lib current versions) = some u ∧
          lib.line v = lib.line u.1) := by
  have hfound := versionToUpgradeTo_automatic.mp hok
  have hpatch := select_patchesOf h hfound
  cases hnext : selectFrom (smaller lib) none (otherLines lib current versions) with
  | none =>
    rw [hnext] at hpatch
    rcases hpatch with hstart | ⟨hnewer, hline⟩
    · cases congrArg Prod.snd hstart
    · exact ⟨hnewer, Or.inl ⟨selectFrom_none_eq_none.mp hnext, hline⟩⟩
  | some u =>
    obtain ⟨next, nextEntry⟩ := u
    rw [hnext] at hpatch
    rcases hpatch with hstart | ⟨hnewer, hline⟩
    · cases hstart
      have hnewer := List.mem_of_mem_filter (selectFrom_none_mem hnext)
      exact ⟨hnewer, Or.inr ⟨_, rfl, rfl⟩⟩
    · exact ⟨hnewer, Or.inr ⟨_, rfl, hline⟩⟩

theorem automatic_chooses {current : V} {versions : List MetadataVersion}
    (hother : otherLines lib current versions ≠ []) :
    ∃ v entry, versionToUpgradeTo lib [] (.ok versions) current = .ok (v, entry) := by
  cases hnext : selectFrom (smaller lib) none (otherLines lib current versions) with
  | none => exact absurd (selectFrom_none_eq_none.mp hnext) hother
  | some u =>
    have hmem := select_mem (R := laterPatch lib) (u.1, some u.2) (patchesOf lib current u.1 versions)
    have hsome : (automatic lib current versions).2.isSome = true := by
      rw [automatic, hnext]
      rcases List.mem_cons.mp hmem with hstart | hpatch
      · exact congrArg (fun found => found.2.isSome) hstart
      · obtain ⟨e, -, heq⟩ := List.mem_map.mp hpatch
        exact congrArg (fun found => found.2.isSome) heq.symm
    obtain ⟨entry, hentry⟩ := Option.isSome_iff_exists.mp hsome
    exact ⟨_, entry, versionToUpgradeTo_automatic.mpr (Prod.ext rfl hentry)⟩

/-! ### One policy for both paths -/

/-- The line itself, the next one of the same major, or the first one of the next major. -/
def AllowedLine (current target : ℕ ×ₗ ℕ) : Prop :=
  target = current ∨ target = toLex ((ofLex current).1, (ofLex current).2 + 1) ∨
    target = toLex ((ofLex current).1 + 1, 0)

instance (current target : ℕ ×ₗ ℕ) : Decidable (AllowedLine current target) :=
  inferInstanceAs (Decidable (_ ∨ _))

/-- What is chosen is accepted when it is asked for, and what is accepted is a listed version
greater than the current one, of an allowed line. -/
structure SameSteps (lib : GoVersion V) (current : V) (versions : List MetadataVersion) :
    Prop where
  chosen_accepted : ∀ v entry, versionToUpgradeTo lib [] (.ok versions) current = .ok (v, entry) →
    ∀ text w, lib.newVersion text = some w → lib.equal w v →
      ∃ entry', versionToUpgradeTo lib text (.ok versions) current = .ok (w, entry')
  accepted_allowed : ∀ text v entry, text ≠ [] →
    versionToUpgradeTo lib text (.ok versions) current = .ok (v, entry) →
      (∃ e ∈ versions, isVersion lib v e = true) ∧ lib.lessThan current v ∧
        AllowedLine (lib.line current) (lib.line v)

/-- The smallest listed version of a later line is at most one minor number ahead, and so
far ahead of the current one there is no listed version of a later major but of its first
line. -/
structure NoGaps (lib : GoVersion V) (current : V) (versions : List MetadataVersion) : Prop where
  next_minor : ∀ u ∈ otherLines lib current versions,
    (∀ w ∈ otherLines lib current versions, ¬ lib.greaterThan u.1 w.1) →
      lib.segment u.1 1 ≤ lib.segment current 1 + 1
  next_major : ∀ u ∈ newerVersions lib current versions,
    lib.segment current 0 < lib.segment u.1 0 →
      lib.segment u.1 1 ≤ lib.segment current 1 + 1 →
        lib.line u.1 = toLex (lib.segment current 0 + 1, 0)

theorem segment_one_of_line {v w : V} (hline : lib.line v = lib.line w) :
    lib.segment v 1 = lib.segment w 1 :=
  congrArg (fun line => (ofLex line).2) hline

/-- A version greater than the current one is of its line, of a later minor or of a later major. -/
theorem allowedLine_iff (h : lib.Documented) {current v : V} (hup : lib.lessThan current v)
    (hminor : lib.segment v 1 ≤ lib.segment current 1 + 1) :
    AllowedLine (lib.line current) (lib.line v) ↔
      (lib.segment current 0 < lib.segment v 0 →
        lib.line v = toLex (lib.segment current 0 + 1, 0)) := by
  have hle : lib.line current ≤ lib.line v := by
    apply h.line_le
    rw [h.greaterThan_iff]
    exact h.not_lessThan hup
  have hle : lib.segment current 0 < lib.segment v 0 ∨
      lib.segment current 0 = lib.segment v 0 ∧ lib.segment current 1 ≤ lib.segment v 1 :=
    Prod.Lex.toLex_le_toLex.mp hle
  simp only [AllowedLine, GoVersion.line, ofLex_toLex, toLex_inj, Prod.mk.injEq]
  omega

theorem chosen_accepted_iff (h : lib.Documented) (current : V) (versions : List MetadataVersion) :
    (∀ v entry, versionToUpgradeTo lib [] (.ok versions) current = .ok (v, entry) →
      ∀ text w, lib.newVersion text = some w → lib.equal w v →
        ∃ entry', versionToUpgradeTo lib text (.ok versions) current = .ok (w, entry')) ↔
      ∀ u ∈ otherLines lib current versions,
        (∀ w ∈ otherLines lib current versions, ¬ lib.greaterThan u.1 w.1) →
          lib.segment u.1 1 ≤ lib.segment current 1 + 1 := by
  have hasymm : ∀ e f : V × MetadataVersion, smaller lib e f → ¬ smaller lib f e := by
    intro e f hef hfe
    exact h.not_lessThan (h.greaterThan_iff.mp hef) (h.greaterThan_iff.mp hfe)
  have htrans : ∀ e f g : V × MetadataVersion, ¬ smaller lib e f → ¬ smaller lib f g →
      ¬ smaller lib e g := fun _ _ _ => h.not_greaterThan_trans
  constructor
  · intro haccepted u hu hleast
    obtain ⟨v, entry, hok⟩ := automatic_chooses (List.ne_nil_of_mem hu)
    obtain ⟨hnewer, hempty | ⟨next, hnext, hline⟩⟩ := automatic_eq_ok h hok
    · rw [hempty.1] at hu
      cases hu
    -- The chosen version is of the line of `u`, since `u` and the one found are both smallest.
    have hfound : lib.line next.1 = lib.line u.1 := by
      apply le_antisymm
      · exact h.line_le (not_replaces_selectFrom_none hasymm htrans hnext u hu)
      · exact h.line_le (hleast next (selectFrom_none_mem hnext))
    obtain ⟨-, hver, -⟩ := mem_newerVersions.mp hnewer
    obtain ⟨entry', hexplicit⟩ := haccepted v entry hok entry.version v hver (h.equal_refl v)
    rw [versionToUpgradeTo_explicit (h.text_ne_nil hver)] at hexplicit
    obtain ⟨-, hvalid, -⟩ := handleSpecifiedVersion_eq_ok.mp hexplicit
    obtain ⟨-, hminor⟩ := (validateVersionToUpgrade_eq_ok h current v).mp hvalid
    rw [← segment_one_of_line (hline.trans hfound)]
    exact hminor
  · intro hnext v entry hok text w hw hequal
    obtain ⟨hnewer, hline⟩ := automatic_eq_ok h hok
    obtain ⟨hlisted, hver, hup⟩ := mem_newerVersions.mp hnewer
    apply explicit_accepted h hw (h.lessThan_of_equal hup (h.equal_symm hequal))
    · rw [segment_one_of_line (h.line_eq hequal)]
      rcases hline with ⟨-, hline⟩ | ⟨next, hsome, hline⟩
      · rw [segment_one_of_line hline]
        exact Nat.le_succ _
      · rw [segment_one_of_line hline]
        exact hnext next (selectFrom_none_mem hsome)
          (not_replaces_selectFrom_none hasymm htrans hsome)
    · exact ⟨entry, hlisted, (isVersion_iff w entry).mpr ⟨v, hver, h.equal_symm hequal⟩⟩

theorem accepted_allowed_iff (h : lib.Documented) (current : V) (versions : List MetadataVersion) :
    (∀ text v entry, text ≠ [] →
      versionToUpgradeTo lib text (.ok versions) current = .ok (v, entry) →
        (∃ e ∈ versions, isVersion lib v e = true) ∧ lib.lessThan current v ∧
          AllowedLine (lib.line current) (lib.line v)) ↔
      ∀ u ∈ newerVersions lib current versions, lib.segment current 0 < lib.segment u.1 0 →
        lib.segment u.1 1 ≤ lib.segment current 1 + 1 →
          lib.line u.1 = toLex (lib.segment current 0 + 1, 0) := by
  constructor
  · intro hallowed u hu hmajor hminor
    obtain ⟨hlisted, hver, hup⟩ := mem_newerVersions.mp hu
    have hself : isVersion lib u.1 u.2 = true :=
      (isVersion_iff u.1 u.2).mpr ⟨u.1, hver, h.equal_refl u.1⟩
    obtain ⟨entry, hok⟩ := explicit_accepted h hver hup hminor ⟨u.2, hlisted, hself⟩
    obtain ⟨-, -, hline⟩ := hallowed u.2.version u.1 entry (h.text_ne_nil hver) hok
    exact (allowedLine_iff h hup hminor).mp hline hmajor
  · intro hmajors text v entry hne hok
    rw [versionToUpgradeTo_explicit hne] at hok
    obtain ⟨-, hvalid, hfind⟩ := handleSpecifiedVersion_eq_ok.mp hok
    obtain ⟨hup, hminor⟩ := (validateVersionToUpgrade_eq_ok h current v).mp hvalid
    have hlisted : entry ∈ versions := List.mem_of_find?_eq_some hfind
    have hentry : isVersion lib v entry = true := List.find?_some hfind
    refine ⟨⟨entry, hlisted, hentry⟩, hup, (allowedLine_iff h hup hminor).mpr ?_⟩
    intro hmajor
    obtain ⟨u, hu, hequal⟩ := (isVersion_iff v entry).mp hentry
    have hline : lib.line u = lib.line v := h.line_eq hequal
    have hmem : (u, entry) ∈ newerVersions lib current versions :=
      mem_newerVersions.mpr ⟨hlisted, hu, h.lessThan_of_equal hup (h.equal_symm hequal)⟩
    have hsegment : lib.segment u 0 = lib.segment v 0 :=
      congrArg (fun line => (ofLex line).1) hline
    rw [← hline]
    apply hmajors (u, entry) hmem
    · rw [hsegment]
      exact hmajor
    · rw [segment_one_of_line hline]
      exact hminor

/-- The two paths allow the same steps if and only if no listed version lies behind a gap. -/
theorem sameSteps_iff_noGaps (h : lib.Documented) (current : V) (versions : List MetadataVersion) :
    SameSteps lib current versions ↔ NoGaps lib current versions := by
  have hchosen := chosen_accepted_iff h current versions
  have hallowed := accepted_allowed_iff h current versions
  constructor
  · intro hsame
    exact ⟨hchosen.mp hsame.chosen_accepted, hallowed.mp hsame.accepted_allowed⟩
  · intro hgaps
    exact ⟨hchosen.mpr hgaps.next_minor, hallowed.mpr hgaps.next_major⟩

end Upgrade

/-! ### Releases of three numbers -/

def parseRelease (text : GoString) : Option ((ℕ ×ₗ ℕ) ×ₗ ℕ) :=
  match split 46 text with
  | [major, minor, patch] => do
    let major ← parseUint major
    let minor ← parseUint minor
    let patch ← parseUint patch
    some (toLex (toLex (major, minor), patch))
  | _ => none

def releases : GoVersion ((ℕ ×ₗ ℕ) ×ₗ ℕ) where
  newVersion := parseRelease
  compare := compare
  segments v := [(ofLex (ofLex v).1).1, (ofLex (ofLex v).1).2, (ofLex v).2]

theorem releases_documented : releases.Documented where
  newVersion_nil := by decide
  three_segments v := le_refl 3
  order := inferInstanceAs (Std.TransCmp compare)
  numbers_first v w h := compare_lt_iff_lt.mpr h

def listed (text : String) : MetadataVersion := ⟨ascii text, []⟩

def currentRelease : (ℕ ×ₗ ℕ) ×ₗ ℕ := toLex (toLex (0, 6), 0)

theorem sameSteps_iff_noGaps_sample :
    SameSteps releases currentRelease
      [listed "0.7.0", listed "latest", listed "0.7.1", listed "0.8.0", listed "1.0.0"] :=
  (sameSteps_iff_noGaps releases_documented currentRelease _).mpr
    ⟨by decide +kernel, by decide +kernel⟩

/-- A version two lines ahead is chosen and then refused, and one two majors ahead is
accepted. -/
theorem gaps_in_steps :
    ¬ SameSteps releases currentRelease [listed "0.8.0"] ∧
    ¬ SameSteps releases currentRelease [listed "0.7.0", listed "2.5.0"] := by
  constructor
  · intro h
    have hchosen : versionToUpgradeTo releases [] (.ok [listed "0.8.0"]) currentRelease =
        .ok (toLex (toLex (0, 8), 0), listed "0.8.0") := by decide +kernel
    have hrefused : versionToUpgradeTo releases (ascii "0.8.0") (.ok [listed "0.8.0"])
        currentRelease = .error .errCannotUpgradeByMoreThanOneMinorVersion := by decide +kernel
    have hparsed : releases.newVersion (ascii "0.8.0") = some (toLex (toLex (0, 8), 0)) := by
      decide +kernel
    obtain ⟨entry, haccepted⟩ := h.chosen_accepted _ _ hchosen (ascii "0.8.0") _ hparsed
      (releases_documented.equal_refl _)
    rw [hrefused] at haccepted
    cases haccepted
  · intro h
    have haccepted : versionToUpgradeTo releases (ascii "2.5.0")
        (.ok [listed "0.7.0", listed "2.5.0"]) currentRelease =
          .ok (toLex (toLex (2, 5), 0), listed "2.5.0") := by decide +kernel
    obtain ⟨-, -, hline⟩ := h.accepted_allowed _ _ _ (by decide) haccepted
    revert hline
    decide +kernel

end OpenEverest.Cli
