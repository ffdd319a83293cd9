import OpenEverest.Framework.Select
import OpenEverest.K8s.UpgradePlan
import Mathlib.Data.Prod.Lex

/-!
# The engine version a target operator asks for

Before an operator is upgraded, the engine version of a cluster is compared with the smallest
supported one whose major number is not below its own. The answer is one about the set of the
supported versions.
-/

namespace OpenEverest.K8s

open Framework GoString Api

variable {V : Type}

namespace VersionLib

variable (lib : VersionLib V)

/-- What the package documents: the order is one of all versions, the major number counts
first, and a version keeps the text it was parsed from. -/
structure Documented : Prop where
  asymm : ∀ v w, lib.lessThan v w → ¬ lib.lessThan w v
  trans : ∀ u v w, ¬ lib.lessThan u v → ¬ lib.lessThan v w → ¬ lib.lessThan u w
  major_first : ∀ v w, lib.major v < lib.major w → lib.lessThan v w
  original_parsed : ∀ text v, lib.newVersion text = some v → lib.original v = text

def equal (v w : V) : Prop := ¬ lib.lessThan v w ∧ ¬ lib.lessThan w v

end VersionLib

def replacesMin (lib : VersionLib V) (min ver : V) : Prop := lib.lessThan ver min

instance (lib : VersionLib V) : DecidableRel (replacesMin lib) :=
  fun min ver => inferInstanceAs (Decidable (lib.lessThan ver min = true))

def versionsFromMajor (lib : VersionLib V) (current : V) (versions : List GoString) : List V :=
  (versions.filterMap lib.newVersion).filter fun ver => ¬ lib.major ver < lib.major current

/-- A supported version of the current major number or of a later one. -/
def Eligible (lib : VersionLib V) (current : V) (versions : List GoString) (ver : V) : Prop :=
  (∃ text ∈ versions, lib.newVersion text = some ver) ∧ lib.major current ≤ lib.major ver

theorem mem_versionsFromMajor {lib : VersionLib V} {current ver : V} {versions : List GoString} :
    ver ∈ versionsFromMajor lib current versions ↔ Eligible lib current versions ver := by
  simp only [versionsFromMajor, Eligible, List.mem_filter, List.mem_filterMap, decide_eq_true_iff,
    not_lt]

/-- The least eligible version, up to equality. -/
structure IsMinimum (lib : VersionLib V) (current : V) (versions : List GoString) (min : V) :
    Prop where
  eligible : Eligible lib current versions min
  least : ∀ ver, Eligible lib current versions ver → ¬ lib.lessThan ver min

theorem IsMinimum.equal {lib : VersionLib V} {current min min' : V} {versions : List GoString}
    (hmin : IsMinimum lib current versions min) (hmin' : IsMinimum lib current versions min') :
    lib.equal min min' :=
  ⟨hmin'.least min hmin.eligible, hmin.least min' hmin'.eligible⟩

theorem Eligible.perm {lib : VersionLib V} {current ver : V} {versions versions' : List GoString}
    (hperm : versions.Perm versions') :
    Eligible lib current versions ver ↔ Eligible lib current versions' ver := by
  simp only [Eligible, hperm.mem_iff]

theorem IsMinimum.perm {lib : VersionLib V} {current min : V} {versions versions' : List GoString}
    (hperm : versions.Perm versions') (hmin : IsMinimum lib current versions min) :
    IsMinimum lib current versions' min where
  eligible := (Eligible.perm hperm).mp hmin.eligible
  least ver hver := hmin.least ver ((Eligible.perm hperm).mpr hver)

section Loop

variable {h : K8sHandler V} {current : V} {versions : List GoString}

theorem minSupportedMajVersion_eq (min : Option V)
    (hparsed : ∀ text ∈ versions, h.goversion.newVersion text ≠ none) :
    minSupportedMajVersion h current min versions =
      .ok (selectFrom (replacesMin h.goversion) min
        (versionsFromMajor h.goversion current versions)) := by
  induction versions generalizing min with
  | nil => cases min <;> rfl
  | cons text rest ih =>
    have hrest : ∀ other ∈ rest, h.goversion.newVersion other ≠ none :=
      fun other hother => hparsed other (List.mem_cons_of_mem _ hother)
    rw [minSupportedMajVersion]
    cases hver : h.goversion.newVersion text with
    | none => exact absurd hver (hparsed text List.mem_cons_self)
    | some ver =>
      simp only [versionsFromMajor, List.filterMap_cons, hver, List.filter_cons,
        decide_eq_true_iff]
      by_cases hmajor : h.goversion.major ver < h.goversion.major current
      · simp only [hmajor, if_true, not_true_eq_false, if_false]
        exact ih min hrest
      · simp only [hmajor, if_false, not_false_eq_true, if_true]
        cases min with
        | none => exact ih (some ver) hrest
        | some m => exact ih _ hrest

theorem minSupportedMajVersion_unparsable {text : GoString} (hmem : text ∈ versions)
    (hnone : h.goversion.newVersion text = none) (min : Option V) :
    minSupportedMajVersion h current min versions = .error .invalidVersion := by
  induction versions generalizing min with
  | nil => cases hmem
  | cons other rest ih =>
    rw [minSupportedMajVersion]
    rcases List.mem_cons.mp hmem with rfl | hmem
    · rw [hnone]
    · cases h.goversion.newVersion other with
      | none => rfl
      | some ver =>
        simp only
        split
        · exact ih hmem min
        · cases min with
          | none => exact ih hmem _
          | some m => exact ih hmem _

theorem selectFrom_isMinimum (horder : h.goversion.Documented) {min : V}
    (hmin : selectFrom (replacesMin h.goversion) none
      (versionsFromMajor h.goversion current versions) = some min) :
    IsMinimum h.goversion current versions min := by
  refine ⟨mem_versionsFromMajor.mp (selectFrom_none_mem hmin), ?_⟩
  intro ver hver
  apply not_replaces_selectFrom_none (R := replacesMin h.goversion) ?_ ?_ hmin ver
    (mem_versionsFromMajor.mpr hver)
  · intro a b hab
    exact horder.asymm b a hab
  · intro a b c hab hbc
    exact horder.trans c b a hbc hab

end Loop

/-- A supported version of the major number of the current one that is not greater. -/
def Reached (lib : VersionLib V) (current : V) (versions : List GoString) : Prop :=
  ∃ text ∈ versions, ∃ ver, lib.newVersion text = some ver ∧
    lib.major ver = lib.major current ∧ ¬ lib.lessThan current ver

/-- What the check has to answer, in terms that do not mention the order of the list. -/
structure PreflightAnswer (lib : VersionLib V) (current : V) (versions : List GoString)
    (result : Except K8sError (Bool × GoString)) : Prop where
  answers : (∀ text ∈ versions, lib.newVersion text ≠ none) →
    (∃ ver, Eligible lib current versions ver) →
      ∃ compatible text min, result = .ok (compatible, text) ∧ text ∈ versions ∧
        lib.newVersion text = some min ∧ IsMinimum lib current versions min ∧
        (compatible = true ↔ Reached lib current versions)
  fails : ((∃ text ∈ versions, lib.newVersion text = none) ∨
    ¬ ∃ ver, Eligible lib current versions ver) → ∃ e, result = .error e

/-- The same answer with equal versions, or none from either. -/
def SameAnswer (lib : VersionLib V) :
    Except K8sError (Bool × GoString) → Except K8sError (Bool × GoString) → Prop
  | .ok (compatible, text), .ok (compatible', text') =>
    compatible = compatible' ∧ ∃ ver ver', lib.newVersion text = some ver ∧
      lib.newVersion text' = some ver' ∧ lib.equal ver ver'
  | .error _, .error _ => True
  | _, _ => False

/-- The least eligible version is reached if and only if one of the current major number is. -/
theorem reached_iff {lib : VersionLib V} (horder : lib.Documented) {current min : V}
    {versions : List GoString} (hmin : IsMinimum lib current versions min) :
    ¬ lib.lessThan current min ↔ Reached lib current versions := by
  constructor
  · intro hreached
    obtain ⟨⟨text, hmem, hver⟩, hmajor⟩ := hmin.eligible
    refine ⟨text, hmem, min, hver, le_antisymm ?_ hmajor, hreached⟩
    by_contra hlater
    exact hreached (horder.major_first current min (not_le.mp hlater))
  · rintro ⟨text, hmem, ver, hver, hmajor, hreached⟩
    have hleast := hmin.least ver ⟨⟨text, hmem, hver⟩, le_of_eq hmajor.symm⟩
    exact horder.trans current ver min hreached hleast

theorem Reached.perm {lib : VersionLib V} {current : V} {versions versions' : List GoString}
    (hperm : versions.Perm versions') :
    Reached lib current versions ↔ Reached lib current versions' := by
  simp only [Reached, hperm.mem_iff]

section Answer

variable {h : K8sHandler V} {database : DatabaseCluster} {engine : DatabaseEngine}
  {targetVersion operator : GoString} {current : V} {versions : List GoString}

theorem preflight_eq (hoperator : engineTypeToOperatorName engine.type = some operator)
    (hsupported : h.getSupportedEngineVersions operator targetVersion = .ok versions)
    (hcurrent : h.goversion.newVersion database.spec.engine.version = some current) :
    preflightCheckDBEngineVersion h database engine targetVersion =
      match minSupportedMajVersion h current none versions with
      | .error e => .error e
      | .ok none => .error (.noMinimumVersion operator)
      | .ok (some min) =>
        .ok (!h.goversion.lessThan current min, h.goversion.original min) := by
  simp only [preflightCheckDBEngineVersion, hoperator, hsupported, hcurrent, bind, Except.bind]
  cases minSupportedMajVersion h current none versions with
  | error e => rfl
  | ok min => cases min <;> rfl

variable (horder : h.goversion.Documented)
  (hoperator : engineTypeToOperatorName engine.type = some operator)
  (hsupported : h.getSupportedEngineVersions operator targetVersion = .ok versions)
  (hcurrent : h.goversion.newVersion database.spec.engine.version = some current)
include horder hoperator hsupported hcurrent

theorem preflight_answers (hparsed : ∀ text ∈ versions, h.goversion.newVersion text ≠ none)
    (heligible : ∃ ver, Eligible h.goversion current versions ver) :
    ∃ compatible text min,
      preflightCheckDBEngineVersion h database engine targetVersion = .ok (compatible, text) ∧
        text ∈ versions ∧ h.goversion.newVersion text = some min ∧
        IsMinimum h.goversion current versions min ∧
        (compatible = true ↔ Reached h.goversion current versions) := by
  have hloop : minSupportedMajVersion h current none versions = _ :=
    minSupportedMajVersion_eq none hparsed
  rw [preflight_eq hoperator hsupported hcurrent, hloop]
  cases hselect : selectFrom (replacesMin h.goversion) none
      (versionsFromMajor h.goversion current versions) with
  | none =>
    obtain ⟨ver, hver⟩ := heligible
    have hmem := mem_versionsFromMajor.mpr hver
    rw [selectFrom_none_eq_none.mp hselect] at hmem
    cases hmem
  | some min =>
    have hmin := selectFrom_isMinimum horder hselect
    obtain ⟨⟨text, hmem, hver⟩, -⟩ := hmin.eligible
    refine ⟨!h.goversion.lessThan current min, text, min, ?_, hmem, hver, hmin, ?_⟩
    · simp only [horder.original_parsed text min hver]
    · rw [← reached_iff horder hmin]
      simp

theorem preflight_fails (hnone : (∃ text ∈ versions, h.goversion.newVersion text = none) ∨
    ¬ ∃ ver, Eligible h.goversion current versions ver) :
    ∃ e, preflightCheckDBEngineVersion h database engine targetVersion = .error e := by
  rw [preflight_eq hoperator hsupported hcurrent]
  by_cases hparsed : ∀ text ∈ versions, h.goversion.newVersion text ≠ none
  · rw [minSupportedMajVersion_eq none hparsed]
    cases hselect : selectFrom (replacesMin h.goversion) none
        (versionsFromMajor h.goversion current versions) with
    | none => exact ⟨_, rfl⟩
    | some min =>
      rcases hnone with ⟨text, hmem, hunparsable⟩ | hineligible
      · exact absurd hunparsable (hparsed text hmem)
      · exact absurd ⟨min, (selectFrom_isMinimum horder hselect).eligible⟩ hineligible
  · simp only [not_forall, not_not] at hparsed
    obtain ⟨text, hmem, hunparsable⟩ := hparsed
    rw [minSupportedMajVersion_unparsable hmem hunparsable]
    exact ⟨_, rfl⟩

theorem preflight_answer : PreflightAnswer h.goversion current versions
    (preflightCheckDBEngineVersion h database engine targetVersion) where
  answers := preflight_answers horder hoperator hsupported hcurrent
  fails := preflight_fails horder hoperator hsupported hcurrent

end Answer

theorem PreflightAnswer.same {lib : VersionLib V} {current : V} {versions versions' : List GoString}
    {result result' : Except K8sError (Bool × GoString)} (hperm : versions.Perm versions')
    (hresult : PreflightAnswer lib current versions result)
    (hresult' : PreflightAnswer lib current versions' result') : SameAnswer lib result result' := by
  by_cases hparsed : ∀ text ∈ versions, lib.newVersion text ≠ none
  · by_cases heligible : ∃ ver, Eligible lib current versions ver
    · have hparsed' : ∀ text ∈ versions', lib.newVersion text ≠ none :=
        fun text htext => hparsed text (hperm.mem_iff.mpr htext)
      have heligible' : ∃ ver, Eligible lib current versions' ver := by
        simpa only [Eligible.perm hperm] using heligible
      obtain ⟨compatible, text, min, rfl, -, hver, hmin, hiff⟩ := hresult.answers hparsed heligible
      obtain ⟨compatible', text', min', rfl, -, hver', hmin', hiff'⟩ :=
        hresult'.answers hparsed' heligible'
      refine ⟨?_, min, min', hver, hver', (hmin.perm hperm).equal hmin'⟩
      rw [← Reached.perm hperm] at hiff'
      exact Bool.eq_iff_iff.mpr (hiff.trans hiff'.symm)
    · obtain ⟨e, rfl⟩ := hresult.fails (Or.inr heligible)
      have heligible' : ¬ ∃ ver, Eligible lib current versions' ver := by
        simpa only [Eligible.perm hperm] using heligible
      obtain ⟨e', rfl⟩ := hresult'.fails (Or.inr heligible')
      trivial
  · simp only [not_forall, not_not] at hparsed
    obtain ⟨text, hmem, hunparsable⟩ := hparsed
    obtain ⟨e, rfl⟩ := hresult.fails (Or.inl ⟨text, hmem, hunparsable⟩)
    obtain ⟨e', rfl⟩ := hresult'.fails (Or.inl ⟨text, hperm.mem_iff.mp hmem, hunparsable⟩)
    trivial

/-- The check answers for the set of the supported versions, whatever their order. -/
theorem preflight_order_free (h h' : K8sHandler V) {database : DatabaseCluster}
    {engine : DatabaseEngine} {targetVersion operator : GoString} {current : V}
    {versions versions' : List GoString} (hlib : h'.goversion = h.goversion)
    (horder : h.goversion.Documented)
    (hoperator : engineTypeToOperatorName engine.type = some operator)
    (hcurrent : h.goversion.newVersion database.spec.engine.version = some current)
    (hsupported : h.getSupportedEngineVersions operator targetVersion = .ok versions)
    (hsupported' : h'.getSupportedEngineVersions operator targetVersion = .ok versions')
    (hperm : versions.Perm versions') :
    PreflightAnswer h.goversion current versions
      (preflightCheckDBEngineVersion h database engine targetVersion) ∧
    SameAnswer h.goversion (preflightCheckDBEngineVersion h database engine targetVersion)
      (preflightCheckDBEngineVersion h' database engine targetVersion) := by
  have hanswer := preflight_answer horder hoperator hsupported hcurrent
  have hanswer' := preflight_answer (hlib ▸ horder) hoperator hsupported' (hlib ▸ hcurrent)
  rw [hlib] at hanswer'
  exact ⟨hanswer, hanswer.same hperm hanswer'⟩

def twoNumberVersions : VersionLib (GoString × (ℕ ×ₗ ℕ)) :=
  let parse (text : GoString) : Option (GoString × (ℕ ×ₗ ℕ)) :=
    match split 46 text with
    | [major, minor] => do
      let major ← parseUint major
      let minor ← parseUint minor
      some (text, toLex (major, minor))
    | _ => none
  { newSemver := parse
    newVersion := parse
    lessThan := fun v w => decide (v.2 < w.2)
    major := fun v => (ofLex v.2).1
    original := fun v => v.1 }

theorem twoNumberVersions_original {text : GoString} {v : GoString × (ℕ ×ₗ ℕ)}
    (hver : twoNumberVersions.newVersion text = some v) : v.1 = text := by
  simp only [twoNumberVersions] at hver
  split at hver
  · simp only [Option.bind_eq_bind, Option.bind_eq_some_iff] at hver
    obtain ⟨major, -, minor, -, hsome⟩ := hver
    exact (congrArg Prod.fst (Option.some.inj hsome)).symm
  · cases hver

theorem twoNumberVersions_documented : twoNumberVersions.Documented where
  asymm v w hvw := by
    simp only [twoNumberVersions, decide_eq_true_iff] at hvw ⊢
    exact lt_asymm hvw
  trans u v w huv hvw := by
    simp only [twoNumberVersions, decide_eq_true_iff, not_lt] at huv hvw ⊢
    exact le_trans hvw huv
  major_first v w hmajor := by
    simp only [twoNumberVersions, Nat.cast_lt, decide_eq_true_iff] at hmajor ⊢
    exact Prod.Lex.toLex_lt_toLex.mpr (Or.inl hmajor)
  original_parsed _ _ := twoNumberVersions_original

def supportingHandler (versions : List GoString) : K8sHandler (GoString × (ℕ ×ₗ ℕ)) :=
  { listDatabaseEngines := fun _ => .ok []
    listDatabaseClusters := fun _ => .ok []
    getNextUpgradeVersion := fun _ => []
    getPendingUpgrade := fun _ _ => none
    goversion := twoNumberVersions
    getSupportedEngineVersions := fun _ _ => .ok versions }

def postgresqlCluster (version : GoString) : DatabaseCluster :=
  { namespaceName := ascii "ns"
    name := ascii "test-db"
    spec :=
      { engine := ⟨databaseEnginePostgresql, version⟩
        backup := ⟨[], ⟨none⟩⟩
        dataSource := none
        monitoring := none
        proxy := ⟨⟨[]⟩⟩
        engineFeatures := none }
    status := ⟨ascii "ready", none⟩ }

def postgresqlEngine : DatabaseEngine :=
  ⟨ascii "ns", ascii "test-engine", databaseEnginePostgresql, ⟨ascii "2.5.0", []⟩⟩

theorem preflight_order_free_sample :
    PreflightAnswer twoNumberVersions (ascii "16.3", toLex (16, 3))
      [ascii "13.16", ascii "16.4", ascii "16.2"]
      (preflightCheckDBEngineVersion
        (supportingHandler [ascii "13.16", ascii "16.4", ascii "16.2"])
        (postgresqlCluster (ascii "16.3")) postgresqlEngine (ascii "2.6.0")) ∧
    SameAnswer twoNumberVersions
      (preflightCheckDBEngineVersion
        (supportingHandler [ascii "13.16", ascii "16.4", ascii "16.2"])
        (postgresqlCluster (ascii "16.3")) postgresqlEngine (ascii "2.6.0"))
      (preflightCheckDBEngineVersion
        (supportingHandler [ascii "16.2", ascii "13.16", ascii "16.4"])
        (postgresqlCluster (ascii "16.3")) postgresqlEngine (ascii "2.6.0")) := by
  have hoperator : engineTypeToOperatorName postgresqlEngine.type = some (ascii "pg-operator") := by
    decide
  have hcurrent : twoNumberVersions.newVersion (ascii "16.3") =
      some (ascii "16.3", toLex (16, 3)) := by
    decide +kernel
  exact preflight_order_free (supportingHandler [ascii "13.16", ascii "16.4", ascii "16.2"])
    (supportingHandler [ascii "16.2", ascii "13.16", ascii "16.4"]) rfl
    twoNumberVersions_documented hoperator hcurrent rfl rfl (by decide +kernel)

end OpenEverest.K8s
