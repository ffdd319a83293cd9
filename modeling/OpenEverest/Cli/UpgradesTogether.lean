import OpenEverest.Cli.Together
import OpenEverest.Cli.UpgradeRuns

/-!
# Upgrades at the same time, and one after the other

The release of the custom resource definitions is only written again at its own version. Among
upgrades at the same time it is a lock, which the ones to another version do not get past; and
it is still there when a later version is to be installed.
-/

namespace OpenEverest.Cli

open Framework GoString

def SpinnerState.Succeeded {σ ε : Type} (s : SpinnerState σ ε) : Prop :=
  s.exited = true ∧ s.model.result = some (.ok ())

section AtTheSameTime

variable {u w : Upgrade} {nsList : List GoString} {s t : Installation}

namespace Upgrade

theorem CRDsReady.version_eq (hu : u.legacyCRDs ≠ some true) (hw : w.legacyCRDs ≠ some true)
    (hs : u.CRDsReady s) (hs' : w.CRDsReady s) : u.upgradeToVersion = w.upgradeToVersion := by
  rw [crdsReady_chart hu] at hs
  rw [crdsReady_chart hw] at hs'
  exact Option.some.inj (hs.symm.trans hs')

theorem Writes.releases_kept (hu : u.legacyCRDs ≠ some true) (hw : w.legacyCRDs ≠ some true)
    (h : u.Writes nsList s t) (hs : w.CRDsReady s) {key : NamespacedName}
    (hkey : s.releases key = some w.upgradeToVersion) :
    t.releases key = some w.upgradeToVersion := by
  cases h with
  | none => exact hkey
  | crd o hlegacy => exact absurd hlegacy hu
  | crdRelease hchart hsame =>
    have hversion := hsame _ ((crdsReady_chart hw).mp hs)
    rw [← hversion]
    exact putRelease_keeps hkey
  | dbNamespace ns hdb hcrds hadopted =>
    rw [hcrds.version_eq hu hw hs]
    exact putRelease_keeps hkey
  | everest hcrds hnamespaces hlegacy =>
    rw [hcrds.version_eq hu hw hs]
    exact putRelease_keeps hkey
  | legacy _ hmigrates hcrds hdeletes =>
    cases hdeletes <;> exact hkey

theorem Writes.othersLeave (hu : u.legacyCRDs ≠ some true) (hw : w.legacyCRDs ≠ some true)
    (h : u.Writes nsList s t) : w.OthersLeave nsList s t := by
  refine ⟨fun hlegacy => absurd hlegacy hw, fun hs key => h.releases_kept hu hw hs, ?_, ?_, ?_⟩
  · intro ns _ hns
    cases h with
    | legacy _ hmigrates hcrds hdeletes => cases hdeletes <;> exact hns
    | _ => exact hns
  · intro hs
    cases h with
    | legacy _ hmigrates hcrds hdeletes => exact hdeletes.packageServer hs
    | _ => exact hs
  · intro sub _ hs
    cases h with
    | legacy _ hmigrates hcrds hdeletes => exact hdeletes.subscriptions hs
    | _ => exact hs

theorem compatible {ι : Type} {u : ι → Upgrade} (hchart : ∀ i, (u i).legacyCRDs ≠ some true)
    (nsList : List GoString) (world : Installation) :
    Compatible (fun i => (u i).newUpgradeSteps) (fun i => (u i).OthersLeave nsList)
      (fun i => (u i).Writes nsList) (fun i => (u i).Upgraded nsList) world where
  refl i := OthersLeave.refl (u i) nsList
  trans _ _ _ _ := .trans
  guarantees _ := guarantees_newUpgradeSteps world
  relies i j _ _ _ h := h.othersLeave (hchart i) (hchart j)

end Upgrade

/-- However the calls of any number of upgrades alternate, all that succeed are to one version,
and everything is at it when they have. -/
theorem upgrades_together {ι : Type} [DecidableEq ι] {u : ι → Upgrade} {nsList : List GoString}
    {world : Installation} {s t : ι → SpinnerState Installation UpgradeStepError}
    {ms : List (CommandMove ι Installation)} (hchart : ∀ i, (u i).legacyCRDs ≠ some true)
    (h0 : Starts (fun i => (u i).newUpgradeSteps) world s)
    (hothers : AlongRun (stepTogether fun i => (u i).newUpgradeSteps)
      (OutsideKeeps fun i => (u i).OthersLeave nsList) s ms)
    (h : run (stepTogether fun i => (u i).newUpgradeSteps) s ms = some t) :
    (∀ i, (t i).Succeeded → (u i).Upgraded nsList (t i).world) ∧
      ∀ i j, (t i).Succeeded → (t j).Succeeded →
        (u i).upgradeToVersion = (u j).upgradeToVersion := by
  obtain ⟨hworld, hends⟩ := (Upgrade.compatible hchart nsList world).run h0 hothers h
  have hupgraded : ∀ i, (t i).Succeeded → (u i).Upgraded nsList (t i).world :=
    fun i hi => hends i hi.1 hi.2
  refine ⟨hupgraded, fun i j hi hj => ?_⟩
  have hcrds := (hupgraded j hj).crds
  rw [← hworld i j] at hcrds
  exact (hupgraded i hi).crds.version_eq (hchart i) (hchart j) hcrds

end AtTheSameTime

def sampleUpgrades (first : Bool) : Upgrade :=
  if first then sampleUpgrade else { sampleUpgrade with upgradeToVersion := ascii "1.9.1" }

def sampleStart : SpinnerState Installation UpgradeStepError :=
  ⟨connected sampleInstallation, ⟨0, false, false, none⟩, .waiting 0, [], false, false⟩

/-- The second command is about to write the definitions when the first one runs to its end. -/
theorem upgrades_together_sample :
    ∃ t, run (stepTogether fun i => (sampleUpgrades i).newUpgradeSteps) (fun _ => sampleStart)
        ([.own false .start, .own false (.process .call)] ++
          sampleUpgradeMoves.map (.own true)) = some t ∧
      (t true).Succeeded ∧ (sampleUpgrades true).Upgraded [ascii "db"] (t true).world := by
  let steps (i : Bool) := (sampleUpgrades i).newUpgradeSteps
  have hends : (run (SpinnerState.step (steps true)) sampleStart sampleUpgradeMoves).map
      (fun t => t.exited && decide (t.model.result = some (.ok ()))) = some true := by
    decide +kernel
  obtain ⟨u, hu, hends⟩ := Option.map_eq_some_iff.mp hends
  simp only [Bool.and_eq_true, decide_eq_true_eq] at hends
  have h0 : Starts steps (connected sampleInstallation) fun _ => sampleStart := fun _ => rfl
  obtain ⟨v, hv, hworld, htrue⟩ : ∃ v, run (stepTogether steps)
      (fun _ => sampleStart) [.own false .start, .own false (.process .call)] = some v ∧
        (∀ j, (v j).world = (v true).world) ∧ v true = sampleStart :=
    ⟨_, rfl, fun j => by cases j <;> rfl, rfl⟩
  obtain ⟨t, hown, hend⟩ : ∃ t, run (stepTogether steps) v (sampleUpgradeMoves.map (.own true)) =
      some t ∧ t true = u := by
    refine ⟨_, run_own hworld (fun m hm world hw => ?_) (htrue ▸ hu), if_pos rfl⟩
    subst hw
    simp [sampleUpgradeMoves] at hm
  have ht := (run_append_eq_some ..).mpr ⟨v, hv, hown⟩
  have hsucceeded : (t true).Succeeded := by
    rw [hend]
    exact hends
  have hothers : AlongRun (stepTogether steps)
      (OutsideKeeps fun i => (sampleUpgrades i).OthersLeave [ascii "db"]) (fun _ => sampleStart)
      ([.own false .start, .own false (.process .call)] ++ sampleUpgradeMoves.map (.own true)) := by
    refine AlongRun.imp (P := fun _ m => ∀ world, m ≠ .other world) (fun _ => True)
      (fun _ _ _ _ _ _ => trivial) (fun _ _ _ hm world hw => absurd hw (hm world)) trivial
      (AlongRun.of_forall fun m hm world hw => ?_)
    subst hw
    simp at hm
  have hchart : ∀ i, (sampleUpgrades i).legacyCRDs ≠ some true := by
    intro i
    cases i <;> decide
  exact ⟨t, ht, hsucceeded, (upgrades_together hchart h0 hothers ht).1 true hsucceeded⟩

section Later

variable {V : Type} (lib : GoVersion V) (string : V → GoString)

/-- `CheckConstraint(everestVersion, ">= 1.4.0")`. -/
def helmManaged (v : V) : Bool := decide (toLex (toLex (1, 4), 0) ≤ lib.release v)

/-- What `Run` sets before the steps, from the version that is deployed; `string` is the text of a
version. -/
def Upgrade.plan (versionToUpgrade : GoString)
    (getEverestMetadata : Except (UpgradeError V) (List MetadataVersion))
    (verifyRequirements : MetadataVersion → Except (UpgradeError V) Unit)
    (setupHelmInstaller : GoString → EverestChart) (rounds : Nat) (everestVersion : V) :
    Except (UpgradeError V) Upgrade := do
  let (upgradeEverestTo, metadata) ←
    versionToUpgradeTo lib versionToUpgrade getEverestMetadata everestVersion
  verifyRequirements metadata
  let upgradeToVersion := string upgradeEverestTo
  pure ⟨upgradeToVersion, beforeCRDChart lib upgradeToVersion, helmManaged lib everestVersion,
    setupHelmInstaller upgradeToVersion, rounds⟩

variable {lib string}

theorem versionToUpgradeTo_newer (h : lib.Documented) {versionToUpgrade : GoString}
    {getEverestMetadata : Except (UpgradeError V) (List MetadataVersion)} {current v : V}
    {entry : MetadataVersion}
    (hok : versionToUpgradeTo lib versionToUpgrade getEverestMetadata current = .ok (v, entry)) :
    lib.lessThan current v := by
  cases getEverestMetadata with
  | error e => cases hok
  | ok versions =>
    by_cases hnil : versionToUpgrade = []
    · subst hnil
      exact (mem_newerVersions.mp (automatic_eq_ok h hok).1).2.2
    · rw [versionToUpgradeTo_explicit hnil] at hok
      exact ((validateVersionToUpgrade_eq_ok h current v).mp
        (handleSpecifiedVersion_eq_ok.mp hok).2.1).1

def ReadsBack (lib : GoVersion V) (string : V → GoString) : Prop :=
  ∀ v, ∃ w, lib.newVersion (string v) = some w ∧ lib.equal w v

theorem isDev_isSome {text : GoString} {v : V} (hver : lib.newVersion text = some v) :
    ∃ dev, isDev lib text = some dev := by
  unfold isDev
  split
  · exact ⟨false, rfl⟩
  · exact ⟨_, congrArg (Option.map _) hver⟩

theorem beforeCRDChart_of_not_lessThan {text : GoString} {v limit : V}
    (hver : lib.newVersion text = some v) (hlimit : lib.newVersion (ascii "1.9.0") = some limit)
    (hv : ¬ lib.lessThan v limit) : beforeCRDChart lib text = some false := by
  obtain ⟨dev, hdev⟩ := isDev_isSome hver
  simp [beforeCRDChart, hver, hlimit, hdev, hv]

namespace Upgrade

/-- The version of a plan is greater than the one that is deployed, so its definitions have a
chart from the first such version on. -/
theorem plan_newer (h : lib.Documented) (hstring : ReadsBack lib string)
    {versionToUpgrade : GoString}
    {getEverestMetadata : Except (UpgradeError V) (List MetadataVersion)}
    {verifyRequirements : MetadataVersion → Except (UpgradeError V) Unit}
    {setupHelmInstaller : GoString → EverestChart} {rounds : Nat} {current limit : V} {u : Upgrade}
    (hlimit : lib.newVersion (ascii "1.9.0") = some limit) (hcurrent : ¬ lib.lessThan current limit)
    (hplan : plan lib string versionToUpgrade getEverestMetadata verifyRequirements
      setupHelmInstaller rounds current = .ok u) :
    u.legacyCRDs = some false ∧
      ∃ v, lib.newVersion u.upgradeToVersion = some v ∧ lib.lessThan current v := by
  have := h.order
  unfold plan at hplan
  rw [bind_eq_ok] at hplan
  obtain ⟨⟨target, metadata⟩, htarget, hrest⟩ := hplan
  obtain ⟨-, hrest⟩ := (check_bind_eq_ok ..).mp hrest
  obtain rfl := Except.ok.inj hrest
  obtain ⟨v, hver, hequal⟩ := hstring target
  have hnewer : lib.lessThan current v :=
    h.lessThan_of_equal (versionToUpgradeTo_newer h htarget) (h.equal_symm hequal)
  have hlater : ¬ lib.lessThan v limit :=
    fun hlt => hcurrent (Std.TransCmp.lt_trans hnewer hlt)
  exact ⟨beforeCRDChart_of_not_lessThan hver hlimit hlater, v, hver, hnewer⟩

end Upgrade

def KeepsCRDRelease (installed : GoString) (s t : Installation) : Prop :=
  s.releases everestCRDs = some installed → t.releases everestCRDs = some installed

section Refused

open Process

variable {installed : GoString} {s : Installation}

theorem guarantees_install_refused {i : HelmInstaller} (hkey : i.key = everestCRDs)
    (hversion : i.version ≠ installed) (hs : s.releases everestCRDs = some installed) :
    i.install.Guarantees (KeepsCRDRelease installed) (fun s t => t = s)
      (onSuccess fun _ => False) s := by
  refine guarantees_access (P := fun s => s.releases everestCRDs = some installed)
    (fun _ _ hs h => h hs) (fun _ => trivial) (fun s hs => ⟨rfl, ?_⟩) hs
  simp only [id_eq, hkey, hs, ne_eq, hversion, not_false_eq_true, if_true]
  exact guarantees_error _ _

theorem Upgrade.guarantees_refused {u : Upgrade} (hchart : u.legacyCRDs = some false)
    (hversion : u.upgradeToVersion ≠ installed) (hs : s.releases everestCRDs = some installed) :
    (runSteps u.newUpgradeSteps).Guarantees (KeepsCRDRelease installed) (fun s t => t = s)
      (onSuccess fun _ => False) s := by
  refine guarantees_andThen (P := fun _ => False) (fun _ h => h) ?_ fun _ hfalse => hfalse.elim
  simp only [upgradeCustomResourceDefinitions, hchart]
  let i : HelmInstaller := ⟨everestCRDs.name, everestCRDs.ns, u.upgradeToVersion⟩
  have hinstall (s : Installation) (hs : s.releases everestCRDs = some installed) :
      i.install.Guarantees (KeepsCRDRelease installed) (fun s t => t = s)
        (onSuccess fun _ => False) s := guarantees_install_refused rfl hversion hs
  exact guarantees_init (R := KeepsCRDRelease installed) (G := fun s t => t = s)
    (fun _ _ hs h => h hs) (fun _ => rfl) hinstall hs

end Refused

/-- While the release of the definitions stays, an upgrade to a version after that changes
nothing and fails. -/
theorem later_upgrade_refused (hlib : lib.Documented) (hstring : ReadsBack lib string)
    {versionToUpgrade installed : GoString}
    {getEverestMetadata : Except (UpgradeError V) (List MetadataVersion)}
    {verifyRequirements : MetadataVersion → Except (UpgradeError V) Unit}
    {setupHelmInstaller : GoString → EverestChart} {rounds : Nat} {current limit v : V} {u : Upgrade}
    {world : Installation} {s t : SpinnerState Installation UpgradeStepError}
    {ms : List (SpinnerMove Installation)} (hlimit : lib.newVersion (ascii "1.9.0") = some limit)
    (hcurrent : ¬ lib.lessThan current limit) (hinstalled : lib.newVersion installed = some v)
    (hdeployed : ¬ lib.lessThan current v)
    (hplan : Upgrade.plan lib string versionToUpgrade getEverestMetadata verifyRequirements
      setupHelmInstaller rounds current = .ok u)
    (hrelease : world.releases everestCRDs = some installed)
    (h0 : SpinnerState.init u.newUpgradeSteps world = some s)
    (hothers : AlongRun (SpinnerState.step u.newUpgradeSteps)
      (SpinnerState.OthersKeepTo (KeepsCRDRelease installed)) s ms)
    (h : run (SpinnerState.step u.newUpgradeSteps) s ms = some t) :
    AlongRun (SpinnerState.step u.newUpgradeSteps)
        (SpinnerState.WritesIn u.newUpgradeSteps fun s t => t = s) s ms ∧ ¬ t.Succeeded := by
  obtain ⟨hchart, w, hver, hnewer⟩ := Upgrade.plan_newer hlib hstring hlimit hcurrent hplan
  have hversion : u.upgradeToVersion ≠ installed := by
    intro heq
    rw [heq, hinstalled] at hver
    obtain rfl := Option.some.inj hver
    exact hdeployed hnewer
  have hsteps : (runSteps u.newUpgradeSteps).Guarantees (KeepsCRDRelease installed)
      (fun s t => t = s) (Process.onSuccess fun _ => False) world :=
    Upgrade.guarantees_refused hchart hversion hrelease
  obtain ⟨hwrites, hends⟩ := SpinnerState.run_guarantees (fun _ h => h)
    (fun _ _ _ h h' hs => h' (h hs)) hsteps h0 hothers h
  exact ⟨hwrites, fun hsucceeded => hends hsucceeded.1 hsucceeded.2⟩

end Later

/-- `String()` for versions of three numbers. -/
def releaseText (v : (ℕ ×ₗ ℕ) ×ₗ ℕ) : GoString :=
  join 46 [decimal (ofLex (ofLex v).1).1, decimal (ofLex (ofLex v).1).2, decimal (ofLex v).2]

theorem readsBack_releases : ReadsBack releases releaseText := by
  intro v
  refine ⟨v, ?_, releases_documented.equal_refl v⟩
  have hsplit : split 46 (releaseText v) =
      [decimal (ofLex (ofLex v).1).1, decimal (ofLex (ofLex v).1).2, decimal (ofLex v).2] := by
    refine split_join 46 _ (List.cons_ne_nil _ _) fun p hp => ?_
    have hdecimal : ∃ n, p = decimal n := by
      simp only [List.mem_cons, List.not_mem_nil, or_false] at hp
      rcases hp with hp | hp | hp
      · exact ⟨_, hp⟩
      · exact ⟨_, hp⟩
      · exact ⟨_, hp⟩
    obtain ⟨n, rfl⟩ := hdecimal
    exact decimal_not_mem n 46 (by decide)
  show parseRelease (releaseText v) = some v
  simp only [parseRelease, hsplit, parseUint_decimal]
  rfl

def firstCRDRelease : (ℕ ×ₗ ℕ) ×ₗ ℕ := toLex (toLex (1, 9), 0)

/-- After the upgrade to 1.9.0, the one to 1.9.1. -/
theorem later_upgrade_refused_sample :
    ∃ u s t, Upgrade.plan releases releaseText [] (.ok [listed "1.9.0", listed "1.9.1"])
        (fun _ => .ok ()) (fun _ => sampleChart) 2 firstCRDRelease = .ok u ∧
      run (SpinnerState.step u.newUpgradeSteps) s
        [.start, .process .call, .process .call, .finish, .deliver, .exit] = some t ∧
      t.exited = true ∧ ¬ t.Succeeded := by
  have hplan : Upgrade.plan releases releaseText [] (.ok [listed "1.9.0", listed "1.9.1"])
      (fun _ => .ok ()) (fun _ => sampleChart) 2 firstCRDRelease =
        .ok ⟨releaseText (toLex (toLex (1, 9), 1)), some false, true, sampleChart, 2⟩ := by
    have hchosen : versionToUpgradeTo releases [] (.ok [listed "1.9.0", listed "1.9.1"])
        firstCRDRelease = .ok (toLex (toLex (1, 9), 1), listed "1.9.1") := by decide +kernel
    have hlegacy : beforeCRDChart releases (releaseText (toLex (toLex (1, 9), 1))) = some false := by
      decide +kernel
    have hhelm : helmManaged releases firstCRDRelease = true := by decide +kernel
    simp only [Upgrade.plan, bind, Except.bind, pure, Except.pure, hchosen, hlegacy, hhelm]
  let u : Upgrade := ⟨releaseText (toLex (toLex (1, 9), 1)), some false, true, sampleChart, 2⟩
  let world := sampleInstallation.putRelease everestCRDs (ascii "1.9.0")
  let ms : List (SpinnerMove Installation) :=
    [.start, .process .call, .process .call, .finish, .deliver, .exit]
  have hends : ((SpinnerState.init u.newUpgradeSteps world).bind fun s =>
      (run (SpinnerState.step u.newUpgradeSteps) s ms).map fun t => t.exited) = some true := by
    decide +kernel
  obtain ⟨s, hs, hends⟩ := Option.bind_eq_some_iff.mp hends
  obtain ⟨t, ht, hexited⟩ := Option.map_eq_some_iff.mp hends
  have hlimit : releases.newVersion (ascii "1.9.0") = some firstCRDRelease := by decide +kernel
  have hrelease : world.releases everestCRDs = some (ascii "1.9.0") := by
    simp [world, Installation.putRelease]
  have hothers : AlongRun (SpinnerState.step u.newUpgradeSteps)
      (SpinnerState.OthersKeepTo (KeepsCRDRelease (ascii "1.9.0"))) s ms := by
    refine SpinnerState.othersKeepTo_alone fun m hm world hw => ?_
    subst hw
    simp [ms] at hm
  have hrefused := later_upgrade_refused releases_documented readsBack_releases hlimit
    (by decide +kernel) hlimit (by decide +kernel) hplan hrelease hs hothers ht
  exact ⟨u, s, t, hplan, ht, hexited, hrefused.2⟩

end OpenEverest.Cli
