import OpenEverest.Cli.Upgrade

/-!
# The version that is chosen

Where no version is asked for, the set of the listed releases alone fixes the one that is
chosen: the latest patch of the next line, or of the current line where no later line is
listed.
-/

namespace OpenEverest.Cli

open Framework GoString

variable {V : Type}

namespace GoVersion

/-- A release of three numbers. `prerelease` is the method of the package. -/
structure IsRelease (lib : GoVersion V) (prerelease : V → GoString) (v : V) : Prop where
  three_numbers : (lib.segments v).length = 3
  no_prerelease : prerelease v = []

/-- What the package documents: after the numbers only the prerelease counts. -/
structure ReleaseOrder (lib : GoVersion V) (prerelease : V → GoString) : Prop where
  equal_of_release : ∀ v w, lib.IsRelease prerelease v → lib.IsRelease prerelease w →
    lib.release v = lib.release w → lib.equal v w

variable {lib : GoVersion V} {prerelease : V → GoString}

theorem Documented.lessThan_iff_release (h : lib.Documented) (horder : lib.ReleaseOrder prerelease)
    {v w : V} (hv : lib.IsRelease prerelease v) (hw : lib.IsRelease prerelease w) :
    lib.lessThan v w ↔ lib.release v < lib.release w := by
  constructor
  · intro hless
    by_contra hge
    rcases lt_or_eq_of_le (not_lt.mp hge) with hlt | heq
    · exact h.not_lessThan hless (h.numbers_first w v hlt)
    · have hequal : lib.compare v w = .eq := horder.equal_of_release v w hv hw heq.symm
      rw [lessThan, hequal] at hless
      cases hless
  · exact h.numbers_first v w

end GoVersion

def Listed (lib : GoVersion V) (versions : List MetadataVersion) (v : V)
    (entry : MetadataVersion) : Prop :=
  entry ∈ versions ∧ lib.newVersion entry.version = some v

/-- What the choice has to be, in terms that do not mention the order of the list. -/
structure IsTarget (lib : GoVersion V) (current : V) (versions : List MetadataVersion) (v : V)
    (entry : MetadataVersion) : Prop where
  listed : Listed lib versions v entry
  greater : lib.lessThan current v
  next_line : ∀ w e, Listed lib versions w e → lib.line current < lib.line w →
    lib.line current < lib.line v ∧ lib.line v ≤ lib.line w
  same_line : (∀ w e, Listed lib versions w e → ¬ lib.line current < lib.line w) →
    lib.line v = lib.line current
  latest : ∀ w e, Listed lib versions w e → lib.line w = lib.line v → ¬ lib.greaterThan w v

section Target

variable {lib : GoVersion V} {prerelease : V → GoString}

theorem mem_newerVersions_iff {current v : V} {entry : MetadataVersion}
    {versions : List MetadataVersion} :
    (v, entry) ∈ newerVersions lib current versions ↔
      Listed lib versions v entry ∧ lib.lessThan current v := by
  rw [mem_newerVersions, Listed, and_assoc]
  rfl

theorem mem_otherLines_iff (h : lib.Documented) {current v : V} {entry : MetadataVersion}
    {versions : List MetadataVersion} :
    (v, entry) ∈ otherLines lib current versions ↔
      Listed lib versions v entry ∧ lib.line current < lib.line v := by
  rw [otherLines, List.mem_filter, mem_newerVersions_iff, decide_eq_true_iff, h.sameLine_iff]
  constructor
  · rintro ⟨⟨hlisted, hless⟩, hother⟩
    refine ⟨hlisted, lt_of_le_of_ne ?_ fun heq => hother heq.symm⟩
    apply h.line_le
    rw [h.greaterThan_iff]
    exact h.not_lessThan hless
  · rintro ⟨hlisted, hline⟩
    have hrelease : lib.release current < lib.release v :=
      Prod.Lex.toLex_lt_toLex.mpr (Or.inl hline)
    exact ⟨⟨hlisted, h.numbers_first _ _ hrelease⟩, ne_of_gt hline⟩

theorem mem_patchesOf_iff (h : lib.Documented) {current upgradeTo v : V}
    {found : Option MetadataVersion} {versions : List MetadataVersion} :
    (v, found) ∈ patchesOf lib current upgradeTo versions ↔
      ∃ entry, found = some entry ∧ Listed lib versions v entry ∧ lib.lessThan current v ∧
        lib.line v = lib.line upgradeTo := by
  rw [patchesOf, List.mem_map]
  constructor
  · rintro ⟨⟨w, entry⟩, hmem, heq⟩
    cases heq
    obtain ⟨hnewer, hsame⟩ := List.mem_filter.mp hmem
    obtain ⟨hlisted, hless⟩ := mem_newerVersions_iff.mp hnewer
    exact ⟨entry, rfl, hlisted, hless, (h.sameLine_iff _ _).mp (of_decide_eq_true hsame)⟩
  · rintro ⟨entry, rfl, hlisted, hless, hline⟩
    refine ⟨(v, entry), List.mem_filter.mpr ⟨?_, ?_⟩, rfl⟩
    · exact mem_newerVersions_iff.mpr ⟨hlisted, hless⟩
    · exact decide_eq_true ((h.sameLine_iff _ _).mpr hline)

theorem smaller_asymm (h : lib.Documented) (e f : V × MetadataVersion) (hef : smaller lib e f) :
    ¬ smaller lib f e := by
  intro hfe
  exact h.not_lessThan (h.greaterThan_iff.mp hef) (h.greaterThan_iff.mp hfe)

variable (lib) in
theorem patch_le_select (start : V × Option MetadataVersion) {found : V × Option MetadataVersion}
    {patches : List (V × Option MetadataVersion)} (hmem : found ∈ start :: patches) :
    lib.segment found.1 2 ≤ lib.segment (select (laterPatch lib) start patches).1 2 := by
  have hkept := not_replaces_select (R := laterPatch lib) (fun _ _ => Nat.lt_asymm)
    (fun _ _ _ hab hbc => not_lt.mpr (le_trans (not_lt.mp hbc) (not_lt.mp hab))) start patches
  exact not_lt.mp (hkept found hmem)

theorem release_lt_iff {v w : V} (hline : lib.line v = lib.line w) :
    lib.release v < lib.release w ↔ lib.segment v 2 < lib.segment w 2 := by
  rw [GoVersion.release, GoVersion.release, Prod.Lex.toLex_lt_toLex]
  simp [hline]

/-- Every version of the list is a release; an entry may have no version. -/
def Releases (lib : GoVersion V) (prerelease : V → GoString) (versions : List MetadataVersion) :
    Prop :=
  ∀ v entry, Listed lib versions v entry → lib.IsRelease prerelease v

section Choice

variable {current v : V} {versions : List MetadataVersion} {entry : MetadataVersion}

def chosenLine (lib : GoVersion V) (current : V) (versions : List MetadataVersion) :
    V × Option MetadataVersion :=
  patchStart current (selectFrom (smaller lib) none (otherLines lib current versions))

theorem chosenLine_of_no_other (hnone : otherLines lib current versions = []) :
    chosenLine lib current versions = (current, none) := by
  rw [chosenLine, hnone]
  rfl

theorem chosen_line (h : lib.Documented)
    (hok : versionToUpgradeTo lib [] (.ok versions) current = .ok (v, entry)) :
    lib.line v = lib.line (chosenLine lib current versions).1 := by
  obtain ⟨-, ⟨hnone, hline⟩ | ⟨u, hsome, hline⟩⟩ := automatic_eq_ok h hok
  · rw [chosenLine_of_no_other hnone]
    exact hline
  · rw [chosenLine, hsome]
    exact hline

theorem patch_le_chosen (h : lib.Documented) {w : V} {e : MetadataVersion}
    (hok : versionToUpgradeTo lib [] (.ok versions) current = .ok (v, entry))
    (hlisted : Listed lib versions w e) (hless : lib.lessThan current w)
    (hline : lib.line w = lib.line v) : lib.segment w 2 ≤ lib.segment v 2 := by
  have hpatch : (w, some e) ∈ patchesOf lib current (chosenLine lib current versions).1 versions :=
    (mem_patchesOf_iff h).mpr ⟨e, rfl, hlisted, hless, hline.trans (chosen_line h hok)⟩
  have hle := patch_le_select lib (chosenLine lib current versions)
    (List.mem_cons_of_mem _ hpatch)
  have hfound := versionToUpgradeTo_automatic.mp hok
  rw [automatic] at hfound
  rw [chosenLine, hfound] at hle
  exact hle

theorem chosen_next_line (h : lib.Documented) {w : V} {e : MetadataVersion}
    (hok : versionToUpgradeTo lib [] (.ok versions) current = .ok (v, entry))
    (hlisted : Listed lib versions w e) (hlater : lib.line current < lib.line w) :
    lib.line current < lib.line v ∧ lib.line v ≤ lib.line w := by
  have hother : (w, e) ∈ otherLines lib current versions :=
    (mem_otherLines_iff h).mpr ⟨hlisted, hlater⟩
  obtain ⟨-, ⟨hnone, -⟩ | ⟨⟨u, f⟩, hsome, hline⟩⟩ := automatic_eq_ok h hok
  · rw [hnone] at hother
    cases hother
  · obtain ⟨-, hu⟩ := (mem_otherLines_iff h).mp (selectFrom_none_mem hsome)
    have hleast : ¬ lib.greaterThan u w :=
      not_replaces_selectFrom_none (smaller_asymm h)
        (fun _ _ _ => h.not_greaterThan_trans) hsome (w, e) hother
    rw [hline]
    exact ⟨hu, h.line_le hleast⟩

theorem chosen_same_line (h : lib.Documented)
    (hok : versionToUpgradeTo lib [] (.ok versions) current = .ok (v, entry))
    (hnone : ∀ w e, Listed lib versions w e → ¬ lib.line current < lib.line w) :
    lib.line v = lib.line current := by
  have hempty : otherLines lib current versions = [] := by
    apply List.eq_nil_iff_forall_not_mem.mpr
    rintro ⟨w, e⟩ hmem
    obtain ⟨hlisted, hlater⟩ := (mem_otherLines_iff h).mp hmem
    exact hnone w e hlisted hlater
  rw [chosen_line h hok, chosenLine_of_no_other hempty]

variable (h : lib.Documented) (horder : lib.ReleaseOrder prerelease)
  (hcurrent : lib.IsRelease prerelease current) (hreleases : Releases lib prerelease versions)
include h horder hcurrent hreleases

theorem isTarget_of_chosen
    (hok : versionToUpgradeTo lib [] (.ok versions) current = .ok (v, entry)) :
    IsTarget lib current versions v entry := by
  obtain ⟨hlisted, hgreater⟩ := mem_newerVersions_iff.mp (automatic_eq_ok h hok).1
  refine ⟨hlisted, hgreater, ?_, chosen_same_line h hok, ?_⟩
  · intro w e hw hlater
    exact chosen_next_line h hok hw hlater
  · intro w e hw hline hafter
    have hv := hreleases v entry hlisted
    have hvw : lib.release v < lib.release w :=
      (h.lessThan_iff_release horder hv (hreleases w e hw)).mp (h.greaterThan_iff.mp hafter)
    have hcurrentw : lib.lessThan current w := by
      apply (h.lessThan_iff_release horder hcurrent (hreleases w e hw)).mpr
      exact lt_trans ((h.lessThan_iff_release horder hcurrent hv).mp hgreater) hvw
    exact not_lt.mpr (patch_le_chosen h hok hw hcurrentw hline) ((release_lt_iff hline.symm).mp hvw)

theorem chosen_of_newer (hlisted : Listed lib versions v entry) (hless : lib.lessThan current v) :
    ∃ w e, versionToUpgradeTo lib [] (.ok versions) current = .ok (w, e) := by
  by_cases hother : otherLines lib current versions = []
  · have hlt := (h.lessThan_iff_release horder hcurrent (hreleases v entry hlisted)).mp hless
    have hline : lib.line v = lib.line current := by
      rcases Prod.Lex.toLex_lt_toLex.mp hlt with hlater | ⟨hsame, -⟩
      · have hmem := (mem_otherLines_iff h).mpr ⟨hlisted, hlater⟩
        rw [hother] at hmem
        cases hmem
      · exact hsame.symm
    have hpatch : (v, some entry) ∈ patchesOf lib current current versions :=
      (mem_patchesOf_iff h).mpr ⟨entry, rfl, hlisted, hless, hline⟩
    have hkept := patch_le_select lib (current, none)
      (List.mem_cons_of_mem _ hpatch)
    have hautomatic : automatic lib current versions =
        select (laterPatch lib) (current, none) (patchesOf lib current current versions) := by
      rw [automatic, hother]
      rfl
    -- The loop does not end with the current version, since the listed one is a later patch.
    rcases List.mem_cons.mp (select_mem (R := laterPatch lib) (current, none)
      (patchesOf lib current current versions)) with hstart | hfound
    · rw [hstart] at hkept
      exact absurd ((release_lt_iff hline.symm).mp hlt) (not_lt.mpr hkept)
    · obtain ⟨e, hsome, -⟩ := (mem_patchesOf_iff h).mp hfound
      exact ⟨_, e, versionToUpgradeTo_automatic.mpr (hautomatic.trans (Prod.ext rfl hsome))⟩
  · exact automatic_chooses hother

end Choice

variable (lib) in
theorem versionToUpgradeTo_cases (current : V) (versions : List MetadataVersion) :
    versionToUpgradeTo lib [] (.ok versions) current = .error .errNoUpdateAvailable ∨
      ∃ v entry, versionToUpgradeTo lib [] (.ok versions) current = .ok (v, entry) := by
  simp only [versionToUpgradeTo, bind, Except.bind, ne_eq, not_true_eq_false, if_false]
  split
  · exact Or.inl rfl
  · exact Or.inr ⟨_, _, rfl⟩

theorem IsTarget.equal (h : lib.Documented) {current v w : V} {versions : List MetadataVersion}
    {entry e : MetadataVersion} (hv : IsTarget lib current versions v entry)
    (hw : IsTarget lib current versions w e) : lib.equal w v := by
  have hline : lib.line w = lib.line v := by
    by_cases hlater : ∃ u f, Listed lib versions u f ∧ lib.line current < lib.line u
    · obtain ⟨u, f, hu, hcurrent⟩ := hlater
      apply le_antisymm
      · exact (hw.next_line v entry hv.listed (hv.next_line u f hu hcurrent).1).2
      · exact (hv.next_line w e hw.listed (hw.next_line u f hu hcurrent).1).2
    · have hnone : ∀ u f, Listed lib versions u f → ¬ lib.line current < lib.line u :=
        fun u f hu hlt => hlater ⟨u, f, hu, hlt⟩
      rw [hw.same_line hnone, hv.same_line hnone]
  have hwv : ¬ lib.greaterThan w v := hv.latest w e hw.listed hline
  have hvw : ¬ lib.lessThan w v := by
    rw [← h.greaterThan_iff]
    exact hw.latest v entry hv.listed hline.symm
  unfold GoVersion.equal
  cases hcompare : lib.compare w v with
  | lt => exact absurd hcompare hvw
  | eq => rfl
  | gt => exact absurd hcompare hwv

theorem Listed.perm {v : V} {entry : MetadataVersion} {versions versions' : List MetadataVersion}
    (hperm : versions.Perm versions') :
    Listed lib versions v entry ↔ Listed lib versions' v entry := by
  rw [Listed, Listed, hperm.mem_iff]

theorem IsTarget.perm {current v : V} {entry : MetadataVersion}
    {versions versions' : List MetadataVersion} (hperm : versions.Perm versions')
    (ht : IsTarget lib current versions v entry) : IsTarget lib current versions' v entry where
  listed := (Listed.perm hperm).mp ht.listed
  greater := ht.greater
  next_line w e hw := ht.next_line w e ((Listed.perm hperm).mpr hw)
  same_line hnone := ht.same_line fun w e hw => hnone w e ((Listed.perm hperm).mp hw)
  latest w e hw := ht.latest w e ((Listed.perm hperm).mpr hw)

/-- Where no version is asked for, the chosen one is the target, in whatever order the
versions are listed, and there is none exactly when no listed version is greater. -/
structure ChoosesTarget (lib : GoVersion V) (current : V) (versions : List MetadataVersion) :
    Prop where
  chosen : ∀ v entry, versionToUpgradeTo lib [] (.ok versions) current = .ok (v, entry) →
    IsTarget lib current versions v entry
  fails : (∃ e, versionToUpgradeTo lib [] (.ok versions) current = .error e) ↔
    ∀ v entry, Listed lib versions v entry → ¬ lib.lessThan current v
  reordered : ∀ versions', versions.Perm versions' → ∀ v entry,
    versionToUpgradeTo lib [] (.ok versions) current = .ok (v, entry) →
      ∃ v' entry', versionToUpgradeTo lib [] (.ok versions') current = .ok (v', entry') ∧
        lib.equal v' v
  same_entry : (∀ v w e f, Listed lib versions v e → Listed lib versions w f → lib.equal v w →
    e = f) → ∀ versions', versions.Perm versions' →
      versionToUpgradeTo lib [] (.ok versions') current =
        versionToUpgradeTo lib [] (.ok versions) current

theorem reordered_chosen (h : lib.Documented) (horder : lib.ReleaseOrder prerelease)
    {current v : V} (hcurrent : lib.IsRelease prerelease current)
    {versions versions' : List MetadataVersion} {entry : MetadataVersion}
    (hreleases : Releases lib prerelease versions) (hperm : versions.Perm versions')
    (hok : versionToUpgradeTo lib [] (.ok versions) current = .ok (v, entry)) :
    ∃ v' entry', versionToUpgradeTo lib [] (.ok versions') current = .ok (v', entry') ∧
      Listed lib versions v' entry' ∧ lib.equal v' v := by
  have htarget := (isTarget_of_chosen h horder hcurrent hreleases hok).perm hperm
  have hreleases' : Releases lib prerelease versions' :=
    fun w e hw => hreleases w e ((Listed.perm hperm).mpr hw)
  obtain ⟨v', entry', hok'⟩ :=
    chosen_of_newer h horder hcurrent hreleases' htarget.listed htarget.greater
  have htarget' := isTarget_of_chosen h horder hcurrent hreleases' hok'
  exact ⟨v', entry', hok', (Listed.perm hperm).mpr htarget'.listed, htarget.equal h htarget'⟩

theorem choosesTarget (h : lib.Documented) (horder : lib.ReleaseOrder prerelease) {current : V}
    (hcurrent : lib.IsRelease prerelease current) {versions : List MetadataVersion}
    (hreleases : Releases lib prerelease versions) : ChoosesTarget lib current versions := by
  refine ⟨?_, ?_, ?_, ?_⟩
  · intro v entry hok
    exact isTarget_of_chosen h horder hcurrent hreleases hok
  · constructor
    · rintro ⟨e, herror⟩ v entry hlisted hless
      obtain ⟨w, f, hok⟩ := chosen_of_newer h horder hcurrent hreleases hlisted hless
      rw [hok] at herror
      cases herror
    · intro hnone
      rcases versionToUpgradeTo_cases lib current versions with herror | ⟨v, entry, hok⟩
      · exact ⟨_, herror⟩
      · have htarget := isTarget_of_chosen h horder hcurrent hreleases hok
        exact absurd htarget.greater (hnone v entry htarget.listed)
  · intro versions' hperm v entry hok
    obtain ⟨v', entry', hok', -, hequal⟩ :=
      reordered_chosen h horder hcurrent hreleases hperm hok
    exact ⟨v', entry', hok', hequal⟩
  · intro hdistinct versions' hperm
    have hreleases' : Releases lib prerelease versions' :=
      fun w e hw => hreleases w e ((Listed.perm hperm).mpr hw)
    rcases versionToUpgradeTo_cases lib current versions with herror | ⟨v, entry, hok⟩
    · rcases versionToUpgradeTo_cases lib current versions' with herror' | ⟨v, entry, hok⟩
      · rw [herror, herror']
      · obtain ⟨v', entry', hok', -⟩ :=
          reordered_chosen h horder hcurrent hreleases' hperm.symm hok
        rw [herror] at hok'
        cases hok'
    · obtain ⟨v', entry', hok', hlisted', hequal⟩ :=
        reordered_chosen h horder hcurrent hreleases hperm hok
      have hlisted := (isTarget_of_chosen h horder hcurrent hreleases hok).listed
      obtain rfl := hdistinct v' v entry' entry hlisted' hlisted hequal
      have hsame : v' = v := Option.some.inj (hlisted'.2.symm.trans hlisted.2)
      rw [hok, hok', hsame]

theorem releases_order : releases.ReleaseOrder fun _ => [] where
  equal_of_release _ _ _ _ hsame := compare_eq_iff_eq.mpr hsame

theorem choosesTarget_sample :
    ChoosesTarget releases currentRelease
      [listed "1.0.0", listed "0.7.0", listed "latest", listed "0.7.2", listed "0.7.1"] :=
  choosesTarget releases_documented releases_order ⟨rfl, rfl⟩ fun _ _ _ => ⟨rfl, rfl⟩

example : versionToUpgradeTo releases []
    (.ok [listed "1.0.0", listed "0.7.0", listed "latest", listed "0.7.2", listed "0.7.1"])
    currentRelease = .ok (toLex (toLex (0, 7), 2), listed "0.7.2") := by
  decide +kernel

end Target

end OpenEverest.Cli
