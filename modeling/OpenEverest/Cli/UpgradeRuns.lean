import OpenEverest.Cli.UpgradeSteps

/-!
# The order of an upgrade

The releases of the database namespaces are brought to the new version only after the custom
resource definitions, and the release of Everest only after both; what is taken over from before
Helm is removed first. Others may change the cluster meanwhile, but what has been brought to the
new version they leave there.
-/

namespace OpenEverest.Cli

open Framework GoString Helm

/-! ### What is at the new version -/

def appliedCRDs (objs : List CRDObject) : ObjectStore GoString Text :=
  objs.foldl (fun crds o => crds.put o.name o.manifest) fun _ => none

/-- The objects are applied; of two with one name the later one. -/
def Installation.Applied (s : Installation) (objs : List CRDObject) : Prop :=
  ∀ name manifest, appliedCRDs objs name = some manifest → s.crds name = some manifest

def legacySubscriptions : List NamespacedName := [everestOperator, victoriaMetricsOperator]

/-- The operators of an installation from before Helm are managed by nobody else any more. -/
structure Installation.LegacyRemoved (s : Installation) : Prop where
  packageServer : s.clusterServiceVersions packageServer = none
  subscriptions : ∀ sub ∈ legacySubscriptions, s.subscriptions sub = none

def everestKey : NamespacedName := ⟨systemNamespace, systemNamespace⟩

namespace Upgrade

variable (u : Upgrade) (nsList : List GoString)

/-- The custom resource definitions are those of the new version. -/
def CRDsReady (s : Installation) : Prop :=
  match u.legacyCRDs with
  | some true => ∀ objs, u.chart.crds = .ok objs → s.Applied objs
  | _ => s.releases everestCRDs = some u.upgradeToVersion

def NamespacesReady (s : Installation) : Prop :=
  ∀ ns ∈ nsList, ns ∈ s.dbNamespaces → s.releases ⟨ns, ns⟩ = some u.upgradeToVersion

structure Upgraded (s : Installation) : Prop where
  crds : u.CRDsReady s
  namespaces : u.NamespacesReady nsList s
  everest : s.releases everestKey = some u.upgradeToVersion
  legacy : u.helmReleaseExists = false → s.LegacyRemoved

/-- The others leave what is at the new version there, do not bring back what was removed, and
make no namespace of the list one for databases. -/
structure OthersLeave (s t : Installation) : Prop where
  crds : u.legacyCRDs = some true → ∀ objs, u.chart.crds = .ok objs → ∀ o ∈ objs,
    s.crds o.name = some o.manifest → t.crds o.name = some o.manifest
  releases : u.CRDsReady s → ∀ key, s.releases key = some u.upgradeToVersion →
    t.releases key = some u.upgradeToVersion
  namespaces : ∀ ns ∈ nsList, ns ∈ t.dbNamespaces → ns ∈ s.dbNamespaces
  packageServer : s.clusterServiceVersions packageServer = none →
    t.clusterServiceVersions packageServer = none
  subscriptions : ∀ sub ∈ legacySubscriptions, s.subscriptions sub = none →
    t.subscriptions sub = none

/-- What is deleted of an installation from before Helm. -/
inductive LegacyDelete (s : Installation) : Installation → Prop
  | clusterServiceVersion (key : NamespacedName) :
    LegacyDelete s (deleteClusterServiceVersion key s)
  | subscription (sub : NamespacedName) (hsub : sub ∈ legacySubscriptions) :
    LegacyDelete s (deleteSubscription sub s)
  | deployment : LegacyDelete s { s with deployments := deleteHeld s.deployments everestServer }
  | catalogSource :
    LegacyDelete s { s with catalogSources := deleteHeld s.catalogSources legacyCatalog }

/-- The changes an upgrade makes, with what holds before each. -/
inductive Writes (s : Installation) : Installation → Prop
  | none : Writes s s
  | crd (o : CRDObject) (legacy : u.legacyCRDs = some true) :
    Writes s (s.putCRD o)
  | crdRelease (chart : u.legacyCRDs = some false)
    (same : ∀ version ∈ s.releases everestCRDs, version = u.upgradeToVersion) :
    Writes s (s.putRelease everestCRDs u.upgradeToVersion)
  | dbNamespace (ns : GoString) (database : ns ∉ [systemNamespace, monitoringNamespace])
    (crds : u.CRDsReady s)
    (adopted : u.helmReleaseExists = false → s.releases everestKey = some u.upgradeToVersion) :
    Writes s (s.putRelease ⟨ns, ns⟩ u.upgradeToVersion)
  | everest (crds : u.CRDsReady s)
    (namespaces : u.helmReleaseExists = true → u.NamespacesReady nsList s)
    (legacy : u.helmReleaseExists = false → s.LegacyRemoved) :
    Writes s (s.putRelease everestKey u.upgradeToVersion)
  | legacy (t : Installation) (migrates : u.helmReleaseExists = false) (crds : u.CRDsReady s)
    (deletes : LegacyDelete s t) : Writes s t

end Upgrade

section Stays

variable {u : Upgrade} {nsList : List GoString} {s t v : Installation}

theorem applied_concat {objs : List CRDObject} {o : CRDObject} (h : s.Applied objs) :
    (s.putCRD o).Applied (objs ++ [o]) := by
  intro name manifest hname
  rw [appliedCRDs, List.foldl_append, List.foldl_cons, List.foldl_nil] at hname
  by_cases heq : name = o.name
  · subst heq
    simpa [Installation.putCRD] using hname
  · rw [ObjectStore.put_of_ne _ _ _ heq] at hname
    simpa [Installation.putCRD, ObjectStore.put_of_ne _ _ _ heq] using h name manifest hname

theorem appliedCRDs_mem {objs : List CRDObject} {name : GoString} {manifest : Text}
    (h : appliedCRDs objs name = some manifest) : ⟨name, manifest⟩ ∈ objs := by
  induction objs using List.reverseRecOn with
  | nil => cases h
  | append_singleton objs o ih =>
    rw [appliedCRDs, List.foldl_append, List.foldl_cons, List.foldl_nil] at h
    by_cases heq : name = o.name
    · subst heq
      rw [ObjectStore.put_self, Option.some.injEq] at h
      subst h
      simp
    · rw [ObjectStore.put_of_ne _ _ _ heq] at h
      exact List.mem_append_left _ (ih h)

theorem putRelease_keeps {key key' : NamespacedName} {version : GoString}
    (h : s.releases key = some version) :
    (s.putRelease key' version).releases key = some version := by
  by_cases heq : key = key'
  · subst heq
    simp [Installation.putRelease]
  · simpa [Installation.putRelease, ObjectStore.put_of_ne _ _ _ heq] using h

namespace Upgrade

theorem crdsReady_legacy (hlegacy : u.legacyCRDs = some true) :
    u.CRDsReady s ↔ ∀ objs, u.chart.crds = .ok objs → s.Applied objs := by
  simp only [CRDsReady, hlegacy]

theorem crdsReady_chart (hchart : u.legacyCRDs ≠ some true) :
    u.CRDsReady s ↔ s.releases everestCRDs = some u.upgradeToVersion := by
  unfold CRDsReady
  split
  · exact absurd ‹_› hchart
  · rfl

theorem OthersLeave.refl (u : Upgrade) (nsList : List GoString) (s : Installation) :
    u.OthersLeave nsList s s :=
  ⟨fun _ _ _ _ _ h => h, fun _ _ h => h, fun _ _ h => h, fun h => h, fun _ _ h => h⟩

theorem OthersLeave.applied (hlegacy : u.legacyCRDs = some true)
    {objs l : List CRDObject} (hobjs : u.chart.crds = .ok objs) (hl : l ⊆ objs)
    (h : u.OthersLeave nsList s t) (hs : s.Applied l) : t.Applied l := by
  intro name manifest hname
  exact h.crds hlegacy objs hobjs ⟨name, manifest⟩ (hl (appliedCRDs_mem hname))
    (hs name manifest hname)

theorem CRDsReady.kept (hs : u.CRDsReady s) (h : u.OthersLeave nsList s t) : u.CRDsReady t := by
  by_cases hlegacy : u.legacyCRDs = some true
  · rw [crdsReady_legacy hlegacy] at hs ⊢
    exact fun objs hobjs => h.applied hlegacy hobjs (List.Subset.refl _) (hs objs hobjs)
  · rw [crdsReady_chart hlegacy]
    exact h.releases hs everestCRDs ((crdsReady_chart hlegacy).mp hs)

theorem CRDsReady.put (hs : u.CRDsReady s) (key : NamespacedName) :
    u.CRDsReady (s.putRelease key u.upgradeToVersion) := by
  by_cases hlegacy : u.legacyCRDs = some true
  · rw [crdsReady_legacy hlegacy] at hs ⊢
    exact hs
  · rw [crdsReady_chart hlegacy] at hs ⊢
    exact putRelease_keeps hs

theorem OthersLeave.trans (h : u.OthersLeave nsList s t) (h' : u.OthersLeave nsList t v) :
    u.OthersLeave nsList s v where
  crds hlegacy objs hobjs o ho hs :=
    h'.crds hlegacy objs hobjs o ho (h.crds hlegacy objs hobjs o ho hs)
  releases hs key hkey := h'.releases (hs.kept h) key (h.releases hs key hkey)
  namespaces ns hns hv := h.namespaces ns hns (h'.namespaces ns hns hv)
  packageServer hs := h'.packageServer (h.packageServer hs)
  subscriptions sub hsub hs := h'.subscriptions sub hsub (h.subscriptions sub hsub hs)

theorem NamespacesReady.kept (hs : u.NamespacesReady nsList s) (hcrds : u.CRDsReady s)
    (h : u.OthersLeave nsList s t) : u.NamespacesReady nsList t :=
  fun ns hns ht => h.releases hcrds _ (hs ns hns (h.namespaces ns hns ht))

theorem legacyRemoved_kept (hs : s.LegacyRemoved) (h : u.OthersLeave nsList s t) :
    t.LegacyRemoved :=
  ⟨h.packageServer hs.packageServer,
    fun sub hsub => h.subscriptions sub hsub (hs.subscriptions sub hsub)⟩

theorem Upgraded.kept (hs : u.Upgraded nsList s) (h : u.OthersLeave nsList s t) :
    u.Upgraded nsList t where
  crds := hs.crds.kept h
  namespaces := hs.namespaces.kept hs.crds h
  everest := h.releases hs.crds everestKey hs.everest
  legacy hmigrates := legacyRemoved_kept (hs.legacy hmigrates) h

end Upgrade

end Stays

section Calls

open Process

variable {R G : Installation → Installation → Prop} {P : Installation → Prop} {i : HelmInstaller}
  {s : Installation}

theorem guarantees_init (hP : ∀ s t, P s → R s t → P t) (hG : ∀ s, G s s) {next : UpgradeProcess}
    {P' : Installation → Prop} (h : ∀ s, P s → next.Guarantees R G (onSuccess P') s) (hs : P s) :
    (i.init next).Guarantees R G (onSuccess P') s :=
  guarantees_access hP (fun _ => trivial) (fun s hs => ⟨hG s, h s hs⟩) hs

section Release

variable (hPT : ∀ s t, P s ∧ s.releases i.key = some i.version → R s t →
  P t ∧ t.releases i.key = some i.version)
include hPT

theorem guarantees_putRelease (hput : P (s.putRelease i.key i.version)) :
    (done (.ok ()) : UpgradeProcess).Guarantees R G
      (onSuccess fun s => P s ∧ s.releases i.key = some i.version)
      (s.putRelease i.key i.version) :=
  guarantees_done hPT (fun _ h => h) ⟨hput, by simp [Installation.putRelease]⟩

theorem guarantees_upgradeRelease (hP : ∀ s t, P s → R s t → P t) (hG : ∀ s, G s s)
    (hwrite : ∀ s, P s →
      G s (s.putRelease i.key i.version) ∧ P (s.putRelease i.key i.version)) (hs : P s) :
    i.upgrade.Guarantees R G (onSuccess fun s => P s ∧ s.releases i.key = some i.version) s := by
  refine guarantees_access hP (fun _ => trivial) (fun s hs => ?_) hs
  cases hkey : s.releases i.key with
  | none =>
    simp only [Option.isSome_none, Bool.false_eq_true, if_false]
    exact ⟨hG s, guarantees_error _ _⟩
  | some version =>
    obtain ⟨hg, hput⟩ := hwrite s hs
    simp only [Option.isSome_some, if_true]
    exact ⟨hg, guarantees_putRelease hPT hput⟩

theorem guarantees_install (hP : ∀ s t, P s → R s t → P t) (hG : ∀ s, G s s)
    (hwrite : ∀ s, P s → (∀ version ∈ s.releases i.key, version = i.version) →
      G s (s.putRelease i.key i.version) ∧ P (s.putRelease i.key i.version)) (hs : P s) :
    i.install.Guarantees R G (onSuccess fun s => P s ∧ s.releases i.key = some i.version) s := by
  refine guarantees_access hP (fun _ => trivial) (fun s hs => ⟨hG s, ?_⟩) hs
  cases hkey : s.releases i.key with
  | none =>
    simp only [id_eq]
    refine guarantees_access hP (fun _ => trivial) (fun s hs => ?_) hs
    cases hkey : s.releases i.key with
    | none =>
      obtain ⟨hg, hput⟩ := hwrite s hs (by simp [hkey])
      simp only [Option.isSome_none, Bool.false_eq_true, if_false]
      exact ⟨hg, guarantees_putRelease hPT hput⟩
    | some version =>
      simp only [Option.isSome_some, if_true]
      exact ⟨hG s, guarantees_error _ _⟩
  | some version =>
    simp only [id_eq]
    split
    · exact guarantees_error _ _
    · rename_i hsame
      obtain rfl : i.version = version := not_not.mp hsame
      -- while it has the version, the others leave it there
      have hupgrade := guarantees_upgradeRelease
        (P := fun s => P s ∧ s.releases i.key = some i.version)
        (fun s t h hr => ⟨hPT s t h.1 hr, (hPT s t h.1 hr).2⟩) hPT hG
        (fun s h => by
          obtain ⟨hg, hput⟩ := hwrite s h.1 fun version hv =>
            Option.some.inj (hv.symm.trans h.2)
          exact ⟨hg, hput, by simp [Installation.putRelease]⟩) ⟨hs, hkey⟩
      exact hupgrade.success fun _ h => h.1

end Release

end Calls

namespace Upgrade

section Steps

open Process

variable {u : Upgrade} {nsList : List GoString} {s : Installation}

theorem guarantees_applyObject (hlegacy : u.legacyCRDs = some true) {objs l : List CRDObject}
    {o : CRDObject} (hobjs : u.chart.crds = .ok objs) (hl : l ++ [o] ⊆ objs)
    (hs : s.Applied l) :
    (applyObject o).Guarantees (u.OthersLeave nsList) (u.Writes nsList)
      (onSuccess fun s => s.Applied (l ++ [o])) s := by
  have hP : ∀ s t, s.Applied l → u.OthersLeave nsList s t → t.Applied l :=
    fun s t hs h => h.applied hlegacy hobjs (List.append_subset.mp hl).1 hs
  have hdone (s : Installation) (hs : s.Applied l) :
      (done (.ok ()) : UpgradeProcess).Guarantees (u.OthersLeave nsList) (u.Writes nsList)
        (onSuccess fun s => s.Applied (l ++ [o])) (s.putCRD o) :=
    guarantees_done (fun s t hs h => h.applied hlegacy hobjs hl hs) (fun _ h => h)
      (applied_concat hs)
  have hcreate (s : Installation) (hs : s.Applied l) :
      (createObject o).Guarantees (u.OthersLeave nsList) (u.Writes nsList)
        (onSuccess fun s => s.Applied (l ++ [o])) s := by
    refine guarantees_access hP (fun _ => trivial) (fun s hs => ?_) hs
    split
    · exact ⟨.none, guarantees_error _ _⟩
    · exact ⟨.crd o hlegacy, hdone s hs⟩
  have hreplace (s : Installation) (hs : s.Applied l) :
      (replaceObject o).Guarantees (u.OthersLeave nsList) (u.Writes nsList)
        (onSuccess fun s => s.Applied (l ++ [o])) s := by
    refine guarantees_access hP (fun _ => trivial) (fun s hs => ?_) hs
    split
    · exact ⟨.crd o hlegacy, hdone s hs⟩
    · exact ⟨.none, guarantees_error _ _⟩
  refine guarantees_access hP (fun _ => trivial) (fun s hs => ⟨.none, ?_⟩) hs
  intro t ht
  have hst := hP s t hs ht
  refine ⟨.none, ?_, hcreate t hst, hcreate t hst⟩
  dsimp only [id_eq]
  split
  · exact hreplace t hst
  · exact hcreate t hst

theorem guarantees_legacyUpgradeCRDs (hlegacy : u.legacyCRDs = some true) (s : Installation) :
    (legacyUpgradeCRDs u.chart).Guarantees (u.OthersLeave nsList) (u.Writes nsList)
      (onSuccess u.CRDsReady) s := by
  refine guarantees_access (P := fun _ => True) (fun _ _ _ _ => trivial) (fun _ => trivial)
    (fun s _ => ⟨.none, ?_⟩) trivial
  cases hobjs : u.chart.crds with
  | error e => exact guarantees_error _ _
  | ok objs =>
    let P (l : List CRDObject) (s : Installation) : Prop := l ⊆ objs ∧ s.Applied l
    have hall : (sequence (objs.map applyObject)).Guarantees (u.OthersLeave nsList)
        (u.Writes nsList) (onSuccess (P objs)) s := by
      refine guarantees_sequence (.refl u nsList)
        (fun l s t hs h => ⟨hs.1, h.applied hlegacy hobjs hs.1 hs.2⟩) (fun l o l' hl s hs => ?_)
        ⟨List.nil_subset _, fun _ _ h => nomatch h⟩
      have hsub : l ++ [o] ⊆ objs := by
        rw [hl, List.append_cons l o l']
        exact List.subset_append_left _ _
      exact (guarantees_applyObject hlegacy hobjs hsub hs.2).success fun _ h => ⟨hsub, h⟩
    refine hall.success fun t h => (crdsReady_legacy hlegacy).mpr fun objs' hobjs' => ?_
    obtain rfl : objs = objs' := Except.ok.inj (hobjs.symm.trans hobjs')
    exact h.2

theorem guarantees_upgradeCustomResourceDefinitions (s : Installation) :
    (upgradeCustomResourceDefinitions u.chart u.legacyCRDs u.upgradeToVersion).Guarantees
      (u.OthersLeave nsList) (u.Writes nsList) (onSuccess u.CRDsReady) s := by
  cases hlegacy : u.legacyCRDs with
  | none => exact guarantees_error _ _
  | some legacy =>
    cases legacy with
    | true => exact guarantees_legacyUpgradeCRDs hlegacy s
    | false =>
      have hchart : u.legacyCRDs ≠ some true := by simp [hlegacy]
      let i : HelmInstaller := ⟨everestCRDs.name, everestCRDs.ns, u.upgradeToVersion⟩
      refine guarantees_init (i := i) (P := fun _ => True) (fun _ _ _ _ => trivial)
        (fun _ => .none) (fun s _ => ?_) trivial
      have hinstall : i.install.Guarantees (u.OthersLeave nsList) (u.Writes nsList)
          (onSuccess fun s => True ∧ s.releases i.key = some i.version) s :=
        guarantees_install
          (fun s t h hr => ⟨trivial, hr.releases ((crdsReady_chart hchart).mpr h.2) _ h.2⟩)
          (fun _ _ _ _ => trivial) (fun _ => .none)
          (fun s _ hsame => ⟨.crdRelease hlegacy hsame, trivial⟩) trivial
      exact hinstall.success fun t h => (crdsReady_chart hchart).mpr h.2

/-! #### Releases -/

/-- The namespaces of the list that are for databases are among those that were listed, of which
the ones before are upgraded; an installation from before Helm has been taken over. -/
structure Listed (u : Upgrade) (nsList listed before : List GoString) (s : Installation) :
    Prop where
  crds : u.CRDsReady s
  listed : ∀ ns ∈ nsList, ns ∈ s.dbNamespaces → ns ∈ listed
  upgraded : ∀ ns ∈ before, s.releases ⟨ns, ns⟩ = some u.upgradeToVersion
  adopted : u.helmReleaseExists = false →
    s.releases everestKey = some u.upgradeToVersion ∧ s.LegacyRemoved

variable {listed before : List GoString}

theorem Listed.kept (s t : Installation) (hs : u.Listed nsList listed before s)
    (h : u.OthersLeave nsList s t) : u.Listed nsList listed before t where
  crds := hs.crds.kept h
  listed ns hns ht := hs.listed ns hns (h.namespaces ns hns ht)
  upgraded ns hns := h.releases hs.crds _ (hs.upgraded ns hns)
  adopted hmigrates :=
    ⟨h.releases hs.crds _ (hs.adopted hmigrates).1, legacyRemoved_kept (hs.adopted hmigrates).2 h⟩

theorem Listed.put (hs : u.Listed nsList listed before s) (key : NamespacedName) :
    u.Listed nsList listed before (s.putRelease key u.upgradeToVersion) where
  crds := hs.crds.put key
  listed := hs.listed
  upgraded ns hns := putRelease_keeps (hs.upgraded ns hns)
  adopted hmigrates :=
    ⟨putRelease_keeps (hs.adopted hmigrates).1, ⟨(hs.adopted hmigrates).2.packageServer,
      (hs.adopted hmigrates).2.subscriptions⟩⟩

theorem Listed.ready (hs : u.Listed nsList listed listed s) : u.NamespacesReady nsList s :=
  fun ns hns h => hs.upgraded ns (hs.listed ns hns h)

theorem Listed.release_kept {key : NamespacedName} (s t : Installation)
    (h : u.Listed nsList listed before s ∧ s.releases key = some u.upgradeToVersion)
    (hr : u.OthersLeave nsList s t) :
    u.Listed nsList listed before t ∧ t.releases key = some u.upgradeToVersion :=
  ⟨h.1.kept s t hr, hr.releases h.1.crds key h.2⟩

theorem mem_dbNamespaces {ns : GoString} (h : ns ∈ s.dbNamespaces) :
    ns ∉ [systemNamespace, monitoringNamespace] := by
  obtain ⟨n, hn, rfl⟩ := List.mem_map.mp h
  have hfilter := (List.mem_filter.mp hn).2
  rw [Bool.and_eq_true] at hfilter
  exact of_decide_eq_true hfilter.2

theorem Listed.write {ns : GoString} (hdb : ns ∉ [systemNamespace, monitoringNamespace])
    (hs : u.Listed nsList listed before s) :
    u.Writes nsList s (s.putRelease ⟨ns, ns⟩ u.upgradeToVersion) ∧
      u.Listed nsList listed before (s.putRelease ⟨ns, ns⟩ u.upgradeToVersion) :=
  ⟨.dbNamespace ns hdb hs.crds fun hmigrates => (hs.adopted hmigrates).1, hs.put _⟩

theorem Listed.concat {ns : GoString} (hs : u.Listed nsList listed before s)
    (hns : s.releases ⟨ns, ns⟩ = some u.upgradeToVersion) :
    u.Listed nsList listed (before ++ [ns]) s where
  crds := hs.crds
  listed := hs.listed
  upgraded ns' hns' := by
    rcases List.mem_append.mp hns' with hbefore | hlast
    · exact hs.upgraded ns' hbefore
    · obtain rfl := List.mem_singleton.mp hlast
      exact hns
  adopted := hs.adopted

theorem guarantees_upgradeDBNamespace {ns : GoString}
    (hdb : ns ∉ [systemNamespace, monitoringNamespace]) (hs : u.Listed nsList listed before s) :
    (upgradeEverestDBNamespaceHelmChart u.upgradeToVersion ns).Guarantees
      (u.OthersLeave nsList) (u.Writes nsList)
      (onSuccess (u.Listed nsList listed (before ++ [ns]))) s := by
  refine guarantees_init (i := dbNamespaceInstaller ns u.upgradeToVersion) Listed.kept
    (fun _ => .none) (fun s hs => ?_) hs
  have hupgrade := guarantees_upgradeRelease (i := dbNamespaceInstaller ns u.upgradeToVersion)
    Listed.release_kept Listed.kept (fun _ => .none) (fun _ hs => hs.write hdb) hs
  exact hupgrade.success fun _ h => h.1.concat h.2

theorem guarantees_adoptDBNamespace {ns : GoString}
    (hdb : ns ∉ [systemNamespace, monitoringNamespace]) (hs : u.Listed nsList listed before s) :
    (helmAdoptDBNamespaces u.upgradeToVersion ns).Guarantees
      (u.OthersLeave nsList) (u.Writes nsList)
      (onSuccess (u.Listed nsList listed (before ++ [ns]))) s := by
  refine guarantees_access Listed.kept (fun _ => trivial) (fun s hs => ⟨.none, ?_⟩) hs
  refine guarantees_init (i := dbNamespaceInstaller ns u.upgradeToVersion) Listed.kept
    (fun _ => .none) (fun s hs => ?_) hs
  have hinstall := guarantees_install (i := dbNamespaceInstaller ns u.upgradeToVersion)
    Listed.release_kept Listed.kept (fun _ => .none) (fun _ hs _ => hs.write hdb) hs
  refine guarantees_andThen (.refl u nsList) (hinstall.mapError _) fun s hs => ?_
  have hupgrade := guarantees_upgradeRelease (i := dbNamespaceInstaller ns u.upgradeToVersion)
    Listed.release_kept Listed.kept (fun _ => .none) (fun _ hs => hs.write hdb) hs.1
  exact hupgrade.success fun _ h => h.1.concat h.2

theorem guarantees_dbNamespaces {f : GoString → UpgradeProcess}
    (hf : ∀ before, ∀ ns ∈ listed, ∀ s, u.Listed nsList listed before s → (f ns).Guarantees
      (u.OthersLeave nsList) (u.Writes nsList)
      (onSuccess (u.Listed nsList listed (before ++ [ns]))) s)
    (hs : u.Listed nsList listed [] s) :
    (sequence (listed.map f)).Guarantees (u.OthersLeave nsList) (u.Writes nsList)
      (onSuccess (u.Listed nsList listed listed)) s :=
  guarantees_sequence (P := u.Listed nsList listed) (.refl u nsList) (fun _ => Listed.kept)
    (fun before ns _ hl s => hf before ns (by simp [hl]) s) hs

theorem Listed.everest (hhelm : u.helmReleaseExists = true)
    (hs : u.Listed nsList listed listed s) :
    u.Writes nsList s (s.putRelease everestKey u.upgradeToVersion) :=
  .everest hs.crds (fun _ => hs.ready) fun hmigrates => by simp [hhelm] at hmigrates

theorem Listed.done (hs : u.Listed nsList listed listed s)
    (heverest : s.releases everestKey = some u.upgradeToVersion) : u.Upgraded nsList s :=
  ⟨hs.crds, hs.ready, heverest, fun hmigrates => (hs.adopted hmigrates).2⟩

theorem guarantees_upgradeReleases (hhelm : u.helmReleaseExists = true) (hs : u.CRDsReady s) :
    (upgradeHelmChart u.rounds true u.upgradeToVersion).Guarantees
      (u.OthersLeave nsList) (u.Writes nsList) (onSuccess (u.Upgraded nsList)) s := by
  have hnamespaces : (upgradeEverestDBNamespaceHelmCharts u.upgradeToVersion).Guarantees
      (u.OthersLeave nsList) (u.Writes nsList)
      (onSuccess fun s => ∃ listed, u.Listed nsList listed listed s) s := by
    refine guarantees_access (fun _ _ hs h => hs.kept h) (fun _ => trivial)
      (fun s hs => ⟨.none, ?_⟩) hs
    have hlisted : u.Listed nsList s.dbNamespaces [] s :=
      ⟨hs, fun _ _ h => h, List.forall_mem_nil _, fun hmigrates => by simp [hhelm] at hmigrates⟩
    exact (guarantees_dbNamespaces (fun _ ns hns _ hs =>
      (guarantees_upgradeDBNamespace (mem_dbNamespaces hns) hs).mapError _) hlisted).success
        fun _ h => ⟨_, h⟩
  refine guarantees_andThen (.refl u nsList) (hnamespaces.mapError _) fun t ht => ?_
  obtain ⟨listed, ht⟩ := ht
  have hupgrade := guarantees_upgradeRelease (i := everestInstaller u.upgradeToVersion)
    Listed.release_kept Listed.kept (fun _ => .none)
    (fun _ hs => ⟨hs.everest hhelm, hs.put everestKey⟩) ht
  exact hupgrade.success fun _ h => h.1.done h.2

/-! #### An installation from before Helm -/

theorem deleteHeld_none {α : Type} {objects : ObjectStore NamespacedName (Held α)}
    {key : NamespacedName} (h : objects key = none) (key' : NamespacedName) :
    deleteHeld objects key' key = none := by
  unfold deleteHeld
  cases hkey : objects key' with
  | none => exact h
  | some o =>
    dsimp only
    split
    · by_cases heq : key = key'
      · subst heq
        simp
      · rwa [ObjectStore.erase_of_ne _ _ heq]
    · exact h

/-- The packaged server is gone, and those of the subscriptions that are in the list. -/
structure Cleaned (u : Upgrade) (subs : List NamespacedName) (s : Installation) : Prop where
  crds : u.CRDsReady s
  packageServer : s.clusterServiceVersions packageServer = none
  subscriptions : ∀ sub ∈ subs, s.subscriptions sub = none

variable {subs : List NamespacedName} {t : Installation}

theorem Cleaned.kept (hsubs : subs ⊆ legacySubscriptions) (s t : Installation)
    (hs : u.Cleaned subs s) (h : u.OthersLeave nsList s t) : u.Cleaned subs t where
  crds := hs.crds.kept h
  packageServer := h.packageServer hs.packageServer
  subscriptions sub hsub := h.subscriptions sub (hsubs hsub) (hs.subscriptions sub hsub)

theorem CRDsReady.deleted (hs : u.CRDsReady s) (h : LegacyDelete s t) : u.CRDsReady t := by
  have hsame : t.releases = s.releases ∧ t.crds = s.crds := by
    cases h <;> exact ⟨rfl, rfl⟩
  unfold CRDsReady Installation.Applied at hs ⊢
  rw [hsame.1, hsame.2]
  exact hs

theorem LegacyDelete.packageServer (h : LegacyDelete s t)
    (hs : s.clusterServiceVersions packageServer = none) :
    t.clusterServiceVersions Cli.packageServer = none := by
  cases h with
  | clusterServiceVersion key => exact deleteHeld_none hs key
  | subscription sub hsub => exact hs
  | deployment => exact hs
  | catalogSource => exact hs

theorem LegacyDelete.subscriptions (h : LegacyDelete s t) {sub : NamespacedName}
    (hs : s.subscriptions sub = none) : t.subscriptions sub = none := by
  cases h with
  | clusterServiceVersion key => exact hs
  | subscription sub' hsub => exact deleteHeld_none hs sub'
  | deployment => exact hs
  | catalogSource => exact hs

theorem Cleaned.deleted (hs : u.Cleaned subs s) (h : LegacyDelete s t) : u.Cleaned subs t where
  crds := hs.crds.deleted h
  packageServer := h.packageServer hs.packageServer
  subscriptions sub hsub := h.subscriptions (hs.subscriptions sub hsub)

section Deletes

variable {R G : Installation → Installation → Prop} {P P' : Installation → Prop}

theorem guarantees_deleteUntilGone {delete : Installation → Installation}
    {gone : Installation → Bool} (hP : ∀ s t, P s → R s t → P t) (hP' : ∀ s t, P' s → R s t → P' t)
    (hdelete : ∀ s, P s → G s (delete s) ∧ P (delete s))
    (hgone : ∀ s, P s → gone s = true → P' (delete s)) (rounds : Nat) (hs : P s) :
    (deleteUntilGone rounds delete gone).Guarantees R G (onSuccess P') s := by
  refine guarantees_poll (P := P) (fun again hagain s hs => ?_) (fun _ => trivial) rounds hs
  refine guarantees_access hP (fun _ => trivial) (fun s hs => ⟨(hdelete s hs).1, ?_⟩) hs
  split
  · rename_i hs'
    exact guarantees_done hP' (fun _ h => h) (hgone s hs hs')
  · exact hagain _ (hdelete s hs).2

/-- The induction is on the rounds that are left; the service version is the one read last. -/
theorem guarantees_deleteSubscription {key : NamespacedName} {next : GoString → UpgradeProcess}
    (hP : ∀ s t, P s → R s t → P t) (hG : ∀ s, G s s)
    (hdelete : ∀ s, P s → G s (deleteSubscription key s) ∧ P (deleteSubscription key s))
    (hnext : ∀ csv s, P s → s.subscriptions key = none →
      (next csv).Guarantees R G (onSuccess P') s) (rounds : Nat) (csv : GoString) (hs : P s) :
    (deleteSubscriptionUntilGone key next rounds csv).Guarantees R G (onSuccess P') s := by
  induction rounds generalizing csv s with
  | zero => exact guarantees_error _ _
  | succ rounds ih =>
    refine guarantees_access hP (fun _ => trivial) (fun s hs => ⟨hG s, ?_⟩) hs
    cases hkey : s.subscriptions key with
    | none => simpa [hkey] using hnext csv s hs hkey
    | some sub =>
      simp only [id_eq]
      refine guarantees_access hP (fun _ => trivial) (fun t ht => ⟨(hdelete t ht).1, ?_⟩) hs
      split
      · exact guarantees_error _ _
      · exact ih sub.value (hdelete t ht).2

end Deletes

theorem guarantees_deletePackageServerCSV (hmigrates : u.helmReleaseExists = false)
    (hs : u.CRDsReady s) :
    (deletePackageServerCSV u.rounds).Guarantees (u.OthersLeave nsList) (u.Writes nsList)
      (onSuccess (u.Cleaned [])) s := by
  have hdelete (s : Installation) : LegacyDelete s (deleteClusterServiceVersion packageServer s) :=
    .clusterServiceVersion packageServer
  refine guarantees_deleteUntilGone (fun _ _ hs h => hs.kept h)
    (Cleaned.kept (List.nil_subset _)) (fun s hs => ?_) (fun s hs hgone => ?_) u.rounds hs
  · exact ⟨.legacy _ hmigrates hs (hdelete s), hs.deleted (hdelete s)⟩
  · exact ⟨hs.deleted (hdelete s),
      (hdelete s).packageServer (Option.isNone_iff_eq_none.mp hgone), List.forall_mem_nil _⟩

theorem guarantees_deleteOLMOperator (hmigrates : u.helmReleaseExists = false)
    {sub : NamespacedName} (hsub : subs ++ [sub] ⊆ legacySubscriptions) (hs : u.Cleaned subs s) :
    (deleteOLMOperator u.rounds sub).Guarantees (u.OthersLeave nsList) (u.Writes nsList)
      (onSuccess (u.Cleaned (subs ++ [sub]))) s := by
  have hbefore : ∀ s t, u.Cleaned subs s → u.OthersLeave nsList s t → u.Cleaned subs t :=
    Cleaned.kept (List.append_subset.mp hsub).1
  have hafter : ∀ s t, u.Cleaned (subs ++ [sub]) s → u.OthersLeave nsList s t →
      u.Cleaned (subs ++ [sub]) t := Cleaned.kept hsub
  have hmem : sub ∈ legacySubscriptions := hsub (by simp)
  refine guarantees_deleteSubscription hbefore (fun _ => .none) (fun s hs => ?_)
    (fun csv s hs hnone => ?_) u.rounds [] hs
  · have hdelete : LegacyDelete s (deleteSubscription sub s) := .subscription sub hmem
    exact ⟨.legacy _ hmigrates hs.crds hdelete, hs.deleted hdelete⟩
  · have hs' : u.Cleaned (subs ++ [sub]) s := by
      refine ⟨hs.crds, hs.packageServer, fun sub' hsub' => ?_⟩
      rcases List.mem_append.mp hsub' with hearlier | hlast
      · exact hs.subscriptions sub' hearlier
      · obtain rfl := List.mem_singleton.mp hlast
        exact hnone
    split
    · refine guarantees_deleteUntilGone hafter hafter (fun s hs => ?_) (fun s hs _ => ?_) u.rounds
        hs'
      · have hdelete : LegacyDelete s (deleteClusterServiceVersion ⟨sub.ns, csv⟩ s) :=
          .clusterServiceVersion _
        exact ⟨.legacy _ hmigrates hs.crds hdelete, hs.deleted hdelete⟩
      · exact hs.deleted (.clusterServiceVersion _)
    · exact guarantees_done hafter (fun _ h => h) hs'

theorem guarantees_cleanupLegacyResources (hmigrates : u.helmReleaseExists = false)
    (hs : u.CRDsReady s) :
    (cleanupLegacyResources u.rounds).Guarantees (u.OthersLeave nsList) (u.Writes nsList)
      (onSuccess (u.Cleaned legacySubscriptions)) s := by
  have hrefl := OthersLeave.refl u nsList
  have hall : ∀ s t, u.Cleaned legacySubscriptions s → u.OthersLeave nsList s t →
      u.Cleaned legacySubscriptions t := Cleaned.kept (List.Subset.refl legacySubscriptions)
  have hdelete {write : Installation → Installation} (hwrite : ∀ s, LegacyDelete s (write s))
      {e : UpgradeStepError} (s : Installation) (hs : u.Cleaned legacySubscriptions s) :
      (access write (fun _ => done (.ok ())) e).Guarantees (u.OthersLeave nsList)
        (u.Writes nsList) (onSuccess (u.Cleaned legacySubscriptions)) s :=
    guarantees_access hall (fun _ => trivial) (fun s hs =>
      ⟨.legacy _ hmigrates hs.crds (hwrite s),
        guarantees_done hall (fun _ h => h) (hs.deleted (hwrite s))⟩) hs
  refine guarantees_andThen hrefl (guarantees_deletePackageServerCSV hmigrates hs) fun s hs => ?_
  refine guarantees_andThen hrefl ((guarantees_deleteOLMOperator hmigrates (by
    simp [legacySubscriptions]) hs).mapError _) fun s hs => ?_
  refine guarantees_andThen hrefl ((guarantees_deleteOLMOperator hmigrates (by
    simp [legacySubscriptions]) hs).mapError _) fun s hs => ?_
  refine guarantees_andThen hrefl (hdelete (fun s => .deployment) s hs) fun s hs => ?_
  refine guarantees_andThen hrefl (hdelete (fun s => .catalogSource) s hs) fun s hs => ?_
  exact guarantees_done hall (fun _ h => h) hs

theorem guarantees_migrateLegacyInstallationToHelm (hmigrates : u.helmReleaseExists = false)
    (hs : u.CRDsReady s) :
    (migrateLegacyInstallationToHelm u.rounds u.upgradeToVersion).Guarantees
      (u.OthersLeave nsList) (u.Writes nsList) (onSuccess (u.Upgraded nsList)) s := by
  have hrefl := OthersLeave.refl u nsList
  have hclean : ∀ s t, u.Cleaned legacySubscriptions s → u.OthersLeave nsList s t →
      u.Cleaned legacySubscriptions t := Cleaned.kept (List.Subset.refl legacySubscriptions)
  refine guarantees_andThen hrefl ((guarantees_cleanupLegacyResources hmigrates hs).mapError _)
    fun s hs => ?_
  have hinstall := guarantees_install (i := everestInstaller u.upgradeToVersion)
    (G := u.Writes nsList)
    (fun s t h hr => ⟨hclean s t h.1 hr, hr.releases h.1.crds _ h.2⟩) hclean (fun _ => .none)
    (fun s hs _ => ⟨.everest hs.crds (fun hhelm => by simp [hmigrates] at hhelm)
      fun _ => ⟨hs.packageServer, hs.subscriptions⟩,
      ⟨hs.crds.put everestKey, hs.packageServer, hs.subscriptions⟩⟩) hs
  refine guarantees_andThen hrefl (hinstall.mapError _) fun s hs => ?_
  refine guarantees_andThen hrefl (P := u.Upgraded nsList) ?_ fun s hs =>
    guarantees_done (fun _ _ hs h => hs.kept h) (fun _ h => h) hs
  refine guarantees_access (P := fun s => u.Cleaned legacySubscriptions s ∧
      s.releases everestKey = some u.upgradeToVersion)
    (fun s t h hr => ⟨hclean s t h.1 hr, hr.releases h.1.crds _ h.2⟩) (fun _ => trivial)
    (fun s hs => ⟨.none, ?_⟩) hs
  have hlisted : u.Listed nsList s.dbNamespaces [] s :=
    ⟨hs.1.crds, fun _ _ h => h, List.forall_mem_nil _,
      fun _ => ⟨hs.2, hs.1.packageServer, hs.1.subscriptions⟩⟩
  exact (guarantees_dbNamespaces (fun _ ns hns _ hs =>
    (guarantees_adoptDBNamespace (mem_dbNamespaces hns) hs).mapError _) hlisted).success
      fun _ h => h.done (h.adopted hmigrates).1

/-! #### Rollouts -/

theorem guarantees_waitForRollout (rounds : Nat) (key : NamespacedName)
    (hs : u.Upgraded nsList s) :
    (waitForRollout rounds key).Guarantees (u.OthersLeave nsList) (u.Writes nsList)
      (onSuccess (u.Upgraded nsList)) s := by
  have hP : ∀ s t, u.Upgraded nsList s → u.OthersLeave nsList s t → u.Upgraded nsList t :=
    fun _ _ hs h => hs.kept h
  refine guarantees_poll (P := u.Upgraded nsList) (fun again hagain s hs => ?_) (fun _ => trivial)
    rounds hs
  refine guarantees_access hP (fun _ => trivial) (fun s hs => ⟨.none, ?_⟩) hs
  split
  · exact hagain _ hs
  · split
    · exact guarantees_error _ _
    · split
      · exact guarantees_done hP (fun _ h => h) hs
      · exact hagain _ hs

theorem guarantees_ensureCatalogSource (rounds : Nat) (chart : EverestChart)
    (hs : u.Upgraded nsList s) :
    (ensureCatalogSource rounds chart).Guarantees (u.OthersLeave nsList) (u.Writes nsList)
      (onSuccess (u.Upgraded nsList)) s := by
  have hP : ∀ s t, u.Upgraded nsList s → u.OthersLeave nsList s t → u.Upgraded nsList t :=
    fun _ _ hs h => hs.kept h
  refine guarantees_access hP (fun _ => trivial) (fun s hs => ⟨.none, ?_⟩) hs
  split
  · exact guarantees_error _ _
  · refine guarantees_poll (P := u.Upgraded nsList) (fun again hagain s hs => ?_)
      (fun _ => trivial) rounds hs
    refine guarantees_access hP (fun _ => trivial) (fun s hs => ⟨.none, ?_⟩) hs
    split
    · exact guarantees_error _ _
    · split
      · exact guarantees_done hP (fun _ h => h) hs
      · exact hagain _ hs

theorem guarantees_upgradeHelmChart (hs : u.CRDsReady s) :
    (upgradeHelmChart u.rounds u.helmReleaseExists u.upgradeToVersion).Guarantees
      (u.OthersLeave nsList) (u.Writes nsList) (onSuccess (u.Upgraded nsList)) s := by
  cases hhelm : u.helmReleaseExists with
  | true => exact guarantees_upgradeReleases hhelm hs
  | false => exact guarantees_migrateLegacyInstallationToHelm hhelm hs

theorem guarantees_newUpgradeSteps (s : Installation) :
    (runSteps u.newUpgradeSteps).Guarantees (u.OthersLeave nsList) (u.Writes nsList)
      (onSuccess (u.Upgraded nsList)) s := by
  have hrefl := OthersLeave.refl u nsList
  refine guarantees_andThen hrefl (guarantees_upgradeCustomResourceDefinitions s) fun s hs => ?_
  refine guarantees_andThen hrefl (guarantees_upgradeHelmChart hs) fun s hs => ?_
  refine guarantees_andThen hrefl (guarantees_waitForRollout u.rounds everestServer hs)
    fun s hs => ?_
  refine guarantees_andThen hrefl (guarantees_waitForRollout u.rounds everestOperator hs)
    fun s hs => ?_
  refine guarantees_andThen hrefl (guarantees_ensureCatalogSource u.rounds u.chart hs)
    fun s hs => ?_
  exact guarantees_done (fun _ _ hs h => hs.kept h) (fun _ h => h) hs

end Steps

end Upgrade

/-! ### Runs -/

/-- Whatever others do meanwhile that leaves what is at the new version there: every write of a
run comes in its turn, and one that succeeds has brought everything to the new version. -/
theorem run_upgrade {u : Upgrade} {nsList : List GoString} {world : Installation}
    {s t : SpinnerState Installation UpgradeStepError} {ms : List (SpinnerMove Installation)}
    (h0 : SpinnerState.init u.newUpgradeSteps world = some s)
    (hothers : AlongRun (SpinnerState.step u.newUpgradeSteps)
      (SpinnerState.OthersKeepTo (u.OthersLeave nsList)) s ms)
    (h : run (SpinnerState.step u.newUpgradeSteps) s ms = some t) :
    AlongRun (SpinnerState.step u.newUpgradeSteps)
      (SpinnerState.WritesIn u.newUpgradeSteps (u.Writes nsList)) s ms ∧
      (t.exited = true → t.model.result = some (.ok ()) → u.Upgraded nsList t.world) := by
  have hsteps : (runSteps u.newUpgradeSteps).Guarantees (u.OthersLeave nsList) (u.Writes nsList)
      (Process.onSuccess (u.Upgraded nsList)) world := Upgrade.guarantees_newUpgradeSteps world
  exact SpinnerState.run_guarantees (Upgrade.OthersLeave.refl u nsList) (fun _ _ _ => .trans)
    hsteps h0 hothers h

def sampleChart : EverestChart where
  dryRun := []
  manifest := "# Source: everest/templates/everest-catalogsource.yaml\nkind: CatalogSource".toList
  unmarshal _ := some "olm".toList
  getObjects _ := none

def sampleUpgrade : Upgrade := ⟨ascii "1.9.0", some false, true, sampleChart, 2⟩

def sampleDeployment : Held Deployment := ⟨⟨2, 2, none, some 1, 1, 1, 1⟩, []⟩

def sampleInstallation : Installation where
  releases := fun key =>
    if key = everestKey ∨ key = ⟨ascii "db", ascii "db"⟩ then some (ascii "1.8.1") else none
  namespaces := [⟨ascii "db", [(managedByLabel, everest)], 4, false⟩]
  crds := fun _ => none
  deployments := fun key =>
    if key = everestServer ∨ key = everestOperator then some sampleDeployment else none
  catalogSources := fun _ => none
  subscriptions := fun _ => none
  clusterServiceVersions := fun _ => none

def connected (s : Installation) : Installation :=
  { s with
    catalogSources := s.catalogSources.put ⟨ascii "olm", everestCatalog⟩ ⟨ascii "READY", []⟩ }

def sampleUpgradeMoves : List (SpinnerMove Installation) :=
  let ran (calls : Nat) : List (SpinnerMove Installation) :=
    .start :: List.replicate calls (.process .call) ++ [.finish, .deliver]
  ran 3 ++ ran 4 ++ ran 1 ++ [.tick] ++ ran 1 ++ ran 2 ++ [.exit]

/-- The catalog source is ready before the upgrade ends. -/
theorem run_upgrade_sample :
    ∃ s t, SpinnerState.init sampleUpgrade.newUpgradeSteps sampleInstallation = some s ∧
      run (SpinnerState.step sampleUpgrade.newUpgradeSteps) s
        (.process (.other (connected sampleInstallation)) :: sampleUpgradeMoves) = some t ∧
      sampleUpgrade.Upgraded [ascii "db"] t.world := by
  let steps := sampleUpgrade.newUpgradeSteps
  let other : SpinnerMove Installation := .process (.other (connected sampleInstallation))
  have hends : ((SpinnerState.init steps sampleInstallation).bind fun s =>
      (run (SpinnerState.step steps) s (other :: sampleUpgradeMoves)).map fun t =>
        t.exited && decide (t.model.result = some (.ok ()))) = some true := by decide +kernel
  obtain ⟨s, hs, hends⟩ := Option.bind_eq_some_iff.mp hends
  obtain ⟨t, ht, hends⟩ := Option.map_eq_some_iff.mp hends
  simp only [Bool.and_eq_true, decide_eq_true_eq] at hends
  obtain ⟨hexited, hresult⟩ := hends
  have hworld : s.world = sampleInstallation := (SpinnerState.init_consistent hs).2.1
  have hothers : AlongRun (SpinnerState.step steps)
      (SpinnerState.OthersKeepTo (sampleUpgrade.OthersLeave [ascii "db"])) s
      (other :: sampleUpgradeMoves) := by
    refine ⟨fun world hw => ?_, fun _ _ => ?_⟩
    · obtain rfl : connected sampleInstallation = world := by simpa [other] using hw
      rw [hworld]
      exact ⟨fun _ _ _ _ _ h => h, fun _ _ h => h, fun _ _ h => h, fun h => h, fun _ _ h => h⟩
    · refine SpinnerState.othersKeepTo_alone fun m hm world hw => ?_
      subst hw
      simp [sampleUpgradeMoves] at hm
  exact ⟨s, t, hs, ht, (run_upgrade hs hothers ht).2 hexited hresult⟩

end OpenEverest.Cli
