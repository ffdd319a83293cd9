import OpenEverest.Cli.NamespaceRemovalRuns
import OpenEverest.Cli.Uninstall

/-!
# The order of an uninstallation

The release of Everest goes only when all namespaces for databases are gone, so that what they
hold is taken apart by the operators, and the custom resource definitions go only when nothing
else is left. The release of the definitions is not found then, as it is kept in the namespace of
Everest, and they are deleted by their label.
-/

namespace OpenEverest.Cli

open Framework GoString

/-- Releases are kept in their namespace: what is gone holds none. -/
def Kube.HoldsReleases (s : Kube) : Prop :=
  s.getNamespace systemNamespace = none → ∀ r ∈ s.releases, r.2 ≠ systemNamespace

/-- All namespaces for databases have been removed. -/
def Emptied (nsList : List GoString) (s : Installed) : Prop :=
  ∀ ns ∈ nsList, Removed ns false s.kube

/-- The release of Everest is gone as well, and namespaces of its own are. -/
structure EverestGone (nsList own : List GoString) (s : Installed) : Prop where
  emptied : Emptied nsList s
  release : everestRelease ∉ s.kube.releases
  own : ∀ ns ∈ own, s.kube.getNamespace ns = none

def ownNamespaces : List GoString := [monitoringNamespace, systemNamespace]

def Installed.liveCRDs (s : Installed) : List CustomResourceDefinition :=
  s.crds.filter fun crd => crd.isEverest && !crd.terminating

structure Uninstalled (nsList : List GoString) (s : Installed) : Prop where
  everest : EverestGone nsList ownNamespaces s
  crds : s.liveCRDs = []

/-- The others install nothing of Everest, and take releases away with their namespace. -/
structure OthersLetGo (nsList : List GoString) (s t : Installed) : Prop where
  listed : OthersKeepAll nsList s.kube t.kube
  own : ∀ ns ∈ ownNamespaces, s.kube.getNamespace ns = none → t.kube.getNamespace ns = none
  release : everestRelease ∉ s.kube.releases → everestRelease ∉ t.kube.releases
  releases : s.kube.HoldsReleases → t.kube.HoldsReleases
  crds : ∀ crd ∈ t.liveCRDs, ∃ crd' ∈ s.liveCRDs, crd'.name = crd.name

/-- The changes an uninstallation makes, with what holds before each. -/
inductive UninstallWrites (nsList : List GoString) (s : Installed) : Installed → Prop
  | none : UninstallWrites nsList s s
  | listed (kube : Kube) (removes : RemovesListed nsList s.kube kube) :
    UninstallWrites nsList s (s.setKube kube)
  | everest (emptied : Emptied nsList s) :
    UninstallWrites nsList s (s.setKube (s.kube.uninstallRelease everestRelease))
  | monitoring (gone : EverestGone nsList [] s) :
    UninstallWrites nsList s (s.setKube (s.kube.deleteNamespace monitoringNamespace))
  | system (gone : EverestGone nsList [monitoringNamespace] s) :
    UninstallWrites nsList s (s.setKube (s.kube.deleteNamespace systemNamespace))
  | crd (name : GoString) (gone : EverestGone nsList ownNamespaces s) :
    UninstallWrites nsList s (s.deleteCRD name)

section Kept

variable {nsList own : List GoString} {s t u : Installed} {k : Kube}

theorem removed_false_iff {ns : GoString} :
    Removed ns false k ↔ k.Cleared ns everyKind ∧ k.getNamespace ns = none := by
  constructor
  · exact fun h => ⟨h.cleared, h.gone rfl⟩
  · exact fun h => ⟨h.1, fun _ => h.2, fun n hn => by simp [h.2] at hn⟩

theorem getNamespace_deleteNamespace (ns ns' : GoString) :
    (k.deleteNamespace ns).getNamespace ns' = none ↔ k.getNamespace ns' = none := by
  have hname (n : KubeNamespace) :
      (if n.name = ns then { n with terminating := true } else n : KubeNamespace).name = n.name := by
    split <;> rfl
  simp only [Kube.getNamespace, Kube.deleteNamespace, List.find?_eq_none, List.forall_mem_map,
    hname]

theorem OthersLetGo.refl (nsList : List GoString) (s : Installed) : OthersLetGo nsList s s :=
  ⟨.refl nsList s.kube, fun _ _ h => h, fun h => h, fun h => h, fun crd h => ⟨crd, h, rfl⟩⟩

theorem OthersLetGo.trans (h : OthersLetGo nsList s t) (h' : OthersLetGo nsList t u) :
    OthersLetGo nsList s u where
  listed := h.listed.trans h'.listed
  own ns hns hs := h'.own ns hns (h.own ns hns hs)
  release hs := h'.release (h.release hs)
  releases hs := h'.releases (h.releases hs)
  crds crd hcrd := by
    obtain ⟨crd', hcrd', hname⟩ := h'.crds crd hcrd
    obtain ⟨crd'', hcrd'', hname'⟩ := h.crds crd' hcrd'
    exact ⟨crd'', hcrd'', hname'.trans hname⟩

theorem Emptied.kept (hs : Emptied nsList s) (h : OthersLetGo nsList s t) : Emptied nsList t :=
  fun ns hns => (h.listed ns hns).removed (hs ns hns)

theorem EverestGone.kept (hown : own ⊆ ownNamespaces) (hs : EverestGone nsList own s)
    (h : OthersLetGo nsList s t) : EverestGone nsList own t :=
  ⟨hs.emptied.kept h, h.release hs.release, fun ns hns => h.own ns (hown hns) (hs.own ns hns)⟩

theorem Emptied.uninstallRelease (hs : Emptied nsList s) (release : GoString × GoString) :
    Emptied nsList (s.setKube (s.kube.uninstallRelease release)) :=
  fun ns hns => ⟨(hs ns hns).cleared, (hs ns hns).gone, (hs ns hns).unmanaged⟩

theorem EverestGone.deleteNamespace (hs : EverestGone nsList own s) (ns : GoString) :
    EverestGone nsList own (s.setKube (s.kube.deleteNamespace ns)) where
  emptied ns' hns' := removed_false_iff.mpr
    ⟨(hs.emptied ns' hns').cleared,
      (getNamespace_deleteNamespace ns ns').mpr ((hs.emptied ns' hns').gone rfl)⟩
  release := hs.release
  own ns' hns' := (getNamespace_deleteNamespace ns ns').mpr (hs.own ns' hns')

theorem UninstallWrites.releases (hlisted : systemNamespace ∉ nsList)
    (h : UninstallWrites nsList s t) (hs : s.kube.HoldsReleases) : t.kube.HoldsReleases := by
  have hdelete (ns : GoString) : (s.kube.deleteNamespace ns).HoldsReleases :=
    fun hnone => hs ((getNamespace_deleteNamespace ns _).mp hnone)
  cases h with
  | none => exact hs
  | listed kube hremoves =>
    obtain ⟨ns, hns, hremoves⟩ := hremoves
    have hne : systemNamespace ≠ ns := fun heq => hlisted (heq ▸ hns)
    intro hnone r hr hsystem
    -- the only release that goes here is one of another namespace
    have hother : r ≠ (ns, ns) := by
      rintro rfl
      exact hne hsystem.symm
    refine hs ?_ r ((hremoves.releases r hother).mp hr) hsystem
    rw [← hremoves.namespaces systemNamespace hne]
    exact hnone
  | everest hemptied => exact fun hnone r hr => hs hnone r (List.mem_of_mem_filter hr)
  | monitoring hgone => exact hdelete monitoringNamespace
  | system hgone => exact hdelete systemNamespace
  | crd name hgone => exact hs

theorem mem_liveCRDs {crd : CustomResourceDefinition} :
    crd ∈ s.liveCRDs ↔ crd ∈ s.crds ∧ crd.isEverest = true ∧ crd.terminating = false := by
  simp [Installed.liveCRDs]

theorem liveCRDs_deleteCRD {name : GoString} {crd : CustomResourceDefinition}
    (h : crd ∈ (s.deleteCRD name).liveCRDs) : crd ∈ s.liveCRDs ∧ crd.name ≠ name := by
  obtain ⟨hmem, hlive⟩ := mem_liveCRDs.mp h
  obtain ⟨crd', hmem', hsome⟩ := List.mem_filterMap.mp hmem
  split at hsome
  -- one of that name is gone, or goes when its objects do
  · split at hsome
    · cases hsome
    · obtain rfl := Option.some.inj hsome
      simp at hlive
  · rename_i hne
    obtain rfl := Option.some.inj hsome
    exact ⟨mem_liveCRDs.mpr ⟨hmem', hlive⟩, hne⟩

end Kept

section Steps

open Process

variable {nsList own : List GoString} {s : Installed}

/-- What holds before a step, with the releases in their namespaces. -/
def Stage (nsList own : List GoString) (s : Installed) : Prop :=
  EverestGone nsList own s ∧ s.kube.HoldsReleases

theorem Stage.kept (hown : own ⊆ ownNamespaces) (s t : Installed) (hs : Stage nsList own s)
    (h : OthersLetGo nsList s t) : Stage nsList own t :=
  ⟨hs.1.kept hown h, h.releases hs.2⟩

theorem guarantees_removal (rounds : Nat) (hnodup : nsList.Nodup)
    (hlisted : systemNamespace ∉ nsList) (hs : s.kube.HoldsReleases) :
    (runSteps ((removalSteps rounds false nsList).map
      (Step.lift Installed.kube (fun k s => s.setKube k) UninstallError.removal))).Guarantees
        (OthersLetGo nsList) (UninstallWrites nsList)
        (onSuccess fun s => Emptied nsList s ∧ s.kube.HoldsReleases) s := by
  rw [runSteps_lift]
  have hlift : ((runSteps (removalSteps rounds false nsList)).lift Installed.kube
      (fun k s => s.setKube k) UninstallError.removal).Guarantees (OthersLetGo nsList)
        (UninstallWrites nsList) (onSuccess (Emptied nsList)) s :=
    Guarantees.lift _ (fun _ _ => rfl) (fun _ _ h => h.listed) (fun _ kube h => .listed kube h)
      (guarantees_removalSteps rounds false hnodup s.kube)
  refine (hlift.frame (F := fun s => s.kube.HoldsReleases) (fun _ _ hs h => h.releases hs)
    (fun _ _ hs h => h.releases hlisted hs) hs).imp (fun _ _ h => h) fun r t h => ?_
  cases r with
  | ok u => exact h
  | error e => trivial

theorem guarantees_uninstallChart {P P' : Installed → Prop} {release : GoString × GoString}
    {newUninstaller : String} {next : Bool → UninstallProcess}
    (hP : ∀ s t, P s → OthersLetGo nsList s t → P t)
    (h : ∀ s, P s →
      UninstallWrites nsList s (s.setKube (s.kube.uninstallRelease release)) ∧
        (next (decide (release ∈ s.kube.releases))).Guarantees (OthersLetGo nsList)
          (UninstallWrites nsList) (onSuccess P') (s.setKube (s.kube.uninstallRelease release)))
    (hs : P s) :
    (uninstallChart release newUninstaller next).Guarantees (OthersLetGo nsList)
      (UninstallWrites nsList) (onSuccess P') s := by
  refine guarantees_access hP (fun _ => trivial) (fun s hs => ⟨.none, ?_⟩) hs
  exact guarantees_access hP (fun _ => trivial) h hs

theorem guarantees_uninstallHelmChart (hs : Emptied nsList s ∧ s.kube.HoldsReleases) :
    uninstallHelmChart.Guarantees (OthersLetGo nsList) (UninstallWrites nsList)
      (onSuccess (Stage nsList [])) s := by
  refine guarantees_uninstallChart (P := fun s => Emptied nsList s ∧ s.kube.HoldsReleases)
    (fun s t hs h => ⟨hs.1.kept h, h.releases hs.2⟩) (fun s hs => ⟨.everest hs.1, ?_⟩) hs
  refine guarantees_done (Stage.kept (List.nil_subset _)) (fun _ h => h) ⟨⟨?_, ?_, ?_⟩, ?_⟩
  · exact hs.1.uninstallRelease everestRelease
  · simp [Installed.setKube, Kube.uninstallRelease]
  · exact List.forall_mem_nil _
  · exact fun hnone r hr => hs.2 hnone r (List.mem_of_mem_filter hr)

theorem guarantees_deleteOwnNamespace (rounds : Nat) {ns : GoString}
    (hown : own ++ [ns] ⊆ ownNamespaces)
    (hwrite : ∀ s, EverestGone nsList own s →
      UninstallWrites nsList s (s.setKube (s.kube.deleteNamespace ns)))
    (hs : Stage nsList own s) :
    (deleteOwnNamespace rounds ns).Guarantees (OthersLetGo nsList) (UninstallWrites nsList)
      (onSuccess (Stage nsList (own ++ [ns]))) s := by
  refine guarantees_poll (P := Stage nsList own) (fun again hagain s hs => ?_) (fun _ => trivial)
    rounds hs
  refine guarantees_access (Stage.kept (List.append_subset.mp hown).1) (fun _ => trivial)
    (fun s hs => ⟨hwrite s hs.1, ?_⟩) hs
  have hdeleted : Stage nsList own (s.setKube (s.kube.deleteNamespace ns)) :=
    ⟨hs.1.deleteNamespace ns, fun hnone => hs.2 ((getNamespace_deleteNamespace ns _).mp hnone)⟩
  cases hns : s.kube.getNamespace ns with
  | some n => exact hagain _ hdeleted
  | none =>
    refine guarantees_done (Stage.kept hown) (fun _ h => h)
      ⟨⟨hdeleted.1.emptied, hdeleted.1.release, fun ns' hns' => ?_⟩, hdeleted.2⟩
    rcases List.mem_append.mp hns' with hbefore | hlast
    · exact hdeleted.1.own ns' hbefore
    · obtain rfl := List.mem_singleton.mp hlast
      exact (getNamespace_deleteNamespace ns' ns').mpr hns

/-- The definitions that are live are among those of the list that are still to be deleted. -/
structure CRDsListed (nsList : List GoString) (listed before : List CustomResourceDefinition)
    (s : Installed) : Prop where
  gone : EverestGone nsList ownNamespaces s
  listed : ∀ crd ∈ s.liveCRDs, crd.name ∈ listed.map (·.name)
  deleted : ∀ crd ∈ s.liveCRDs, crd.name ∉ before.map (·.name)

theorem CRDsListed.kept {listed before : List CustomResourceDefinition} (s t : Installed)
    (hs : CRDsListed nsList listed before s) (h : OthersLetGo nsList s t) :
    CRDsListed nsList listed before t := by
  refine ⟨hs.gone.kept (List.Subset.refl _) h, fun crd hcrd => ?_, fun crd hcrd => ?_⟩
  · obtain ⟨crd', hcrd', hname⟩ := h.crds crd hcrd
    rw [← hname]
    exact hs.listed crd' hcrd'
  · obtain ⟨crd', hcrd', hname⟩ := h.crds crd hcrd
    rw [← hname]
    exact hs.deleted crd' hcrd'

theorem CRDsListed.deleteCRD {listed before : List CustomResourceDefinition}
    (hs : CRDsListed nsList listed before s) (crd : CustomResourceDefinition) :
    CRDsListed nsList listed (before ++ [crd]) (s.deleteCRD crd.name) := by
  refine ⟨⟨hs.gone.emptied, hs.gone.release, hs.gone.own⟩, fun crd' h => ?_, fun crd' h => ?_⟩
  · exact hs.listed crd' (liveCRDs_deleteCRD h).1
  · obtain ⟨hlive, hne⟩ := liveCRDs_deleteCRD h
    simpa [hne] using hs.deleted crd' hlive

theorem guarantees_deleteListedCRD {listed before : List CustomResourceDefinition}
    (crd : CustomResourceDefinition) (hs : CRDsListed nsList listed before s) :
    (deleteListedCRD crd).Guarantees (OthersLetGo nsList) (UninstallWrites nsList)
      (onSuccess (CRDsListed nsList listed (before ++ [crd]))) s := by
  refine guarantees_access CRDsListed.kept (fun _ => trivial)
    (fun s hs => ⟨.crd crd.name hs.gone, ?_⟩) hs
  split
  · exact guarantees_done CRDsListed.kept (fun _ h => h) (hs.deleteCRD crd)
  · exact guarantees_error _ _

theorem guarantees_listAndDeleteEverestCRDs (hs : EverestGone nsList ownNamespaces s) :
    listAndDeleteEverestCRDs.Guarantees (OthersLetGo nsList) (UninstallWrites nsList)
      (onSuccess (Uninstalled nsList)) s := by
  refine guarantees_access (P := EverestGone nsList ownNamespaces)
    (fun _ _ hs h => hs.kept (List.Subset.refl _) h) (fun _ => trivial)
    (fun s hs => ⟨.none, ?_⟩) hs
  have hstart : CRDsListed nsList (s.crds.filter (·.isEverest)) [] s := by
    refine ⟨hs, fun crd hcrd => ?_, fun crd _ => List.not_mem_nil⟩
    obtain ⟨hmem, heverest, -⟩ := mem_liveCRDs.mp hcrd
    exact List.mem_map.mpr ⟨crd, List.mem_filter.mpr ⟨hmem, heverest⟩, rfl⟩
  have hall : (sequence ((s.crds.filter (·.isEverest)).map deleteListedCRD)).Guarantees
      (OthersLetGo nsList) (UninstallWrites nsList)
      (onSuccess (CRDsListed nsList (s.crds.filter (·.isEverest)) (s.crds.filter (·.isEverest)))) s :=
    guarantees_sequence (P := CRDsListed nsList (s.crds.filter (·.isEverest))) (.refl nsList)
      (fun _ => CRDsListed.kept) (fun _ crd _ _ s hs => guarantees_deleteListedCRD crd hs) hstart
  refine hall.success fun t ht => ⟨ht.gone, List.eq_nil_iff_forall_not_mem.mpr fun crd hcrd => ?_⟩
  exact ht.deleted crd hcrd (ht.listed crd hcrd)

theorem guarantees_deleteEverestCRDs (hs : Stage nsList ownNamespaces s) :
    deleteEverestCRDs.Guarantees (OthersLetGo nsList) (UninstallWrites nsList)
      (onSuccess (Uninstalled nsList)) s := by
  refine guarantees_uninstallChart (Stage.kept (List.Subset.refl _)) (fun s hs => ?_) hs
  have hnone : crdRelease ∉ s.kube.releases := fun hmem =>
    hs.2 (hs.1.own systemNamespace (by simp [ownNamespaces])) crdRelease hmem rfl
  have hsame : s.setKube (s.kube.uninstallRelease crdRelease) = s := by
    have hfilter : s.kube.releases.filter (· ≠ crdRelease) = s.kube.releases :=
      List.filter_eq_self.mpr fun r hr => decide_eq_true (ne_of_mem_of_not_mem hr hnone)
    rw [Kube.uninstallRelease, hfilter]
    rfl
  rw [hsame]
  refine ⟨.none, ?_⟩
  simp only [hnone, decide_false, Bool.false_eq_true, if_false]
  exact guarantees_listAndDeleteEverestCRDs hs.1

theorem guarantees_newUninstallSteps (rounds : Nat) (hnodup : nsList.Nodup)
    (hlisted : systemNamespace ∉ nsList) (hs : s.kube.HoldsReleases) :
    (runSteps (newUninstallSteps rounds nsList)).Guarantees (OthersLetGo nsList)
      (UninstallWrites nsList) (onSuccess (Uninstalled nsList)) s := by
  have hrefl := OthersLetGo.refl nsList
  rw [newUninstallSteps, runSteps_append]
  refine guarantees_andThen hrefl (guarantees_removal rounds hnodup hlisted hs) fun s hs => ?_
  refine guarantees_andThen hrefl (guarantees_uninstallHelmChart hs) fun s hs => ?_
  refine guarantees_andThen hrefl (guarantees_deleteOwnNamespace rounds
    (by simp [ownNamespaces]) (fun _ h => .monitoring h) hs) fun s hs => ?_
  refine guarantees_andThen hrefl (guarantees_deleteOwnNamespace rounds
    (by simp [ownNamespaces]) (fun _ h => .system h) hs) fun s hs => ?_
  refine guarantees_andThen hrefl (guarantees_deleteEverestCRDs hs) fun s hs => ?_
  refine guarantees_done (P := Uninstalled nsList) (fun s t hs h => ?_) (fun _ h => h) hs
  refine ⟨hs.everest.kept (List.Subset.refl _) h, ?_⟩
  refine List.eq_nil_iff_forall_not_mem.mpr fun crd hcrd => ?_
  obtain ⟨crd', hcrd', -⟩ := h.crds crd hcrd
  simp [hs.crds] at hcrd'

end Steps

theorem getDBNamespaces_nodup {k : Kube} (hnames : (k.namespaces.map (·.name)).Nodup) :
    k.getDBNamespaces.Nodup :=
  hnames.sublist (List.filter_sublist.map _)

theorem system_not_mem_getDBNamespaces (k : Kube) : systemNamespace ∉ k.getDBNamespaces := by
  intro hmem
  obtain ⟨n, hn, hname⟩ := List.mem_map.mp hmem
  obtain ⟨-, hdb⟩ := List.mem_filter.mp hn
  simp [hname] at hdb

/-- The namespaces are those that a cluster had when the command listed them; `hworld` is of
clusters, which keep a release in its namespace. Every write comes in its turn, and a run that
succeeds leaves nothing behind. -/
theorem run_uninstall {listed : Kube} {rounds : Nat} {world : Installed}
    {s t : SpinnerState Installed UninstallError} {ms : List (SpinnerMove Installed)}
    (hnames : (listed.namespaces.map (·.name)).Nodup) (hworld : world.kube.HoldsReleases)
    (h0 : SpinnerState.init (newUninstallSteps rounds listed.getDBNamespaces) world = some s)
    (hothers : AlongRun
      (SpinnerState.step (newUninstallSteps rounds listed.getDBNamespaces))
      (SpinnerState.OthersKeepTo (OthersLetGo listed.getDBNamespaces)) s ms)
    (h : run (SpinnerState.step (newUninstallSteps rounds listed.getDBNamespaces)) s ms = some t) :
    AlongRun (SpinnerState.step (newUninstallSteps rounds listed.getDBNamespaces))
      (SpinnerState.WritesIn (newUninstallSteps rounds listed.getDBNamespaces)
        (UninstallWrites listed.getDBNamespaces)) s ms ∧
      (t.exited = true → t.model.result = some (.ok ()) →
        Uninstalled listed.getDBNamespaces t.world) := by
  have hsteps : (runSteps (newUninstallSteps rounds listed.getDBNamespaces)).Guarantees
      (OthersLetGo listed.getDBNamespaces) (UninstallWrites listed.getDBNamespaces)
      (Process.onSuccess (Uninstalled listed.getDBNamespaces)) world :=
    guarantees_newUninstallSteps rounds (getDBNamespaces_nodup hnames)
      (system_not_mem_getDBNamespaces listed) hworld
  exact SpinnerState.run_guarantees (OthersLetGo.refl _) (fun _ _ _ => .trans) hsteps h0 hothers h

instance (k : Kube) : Decidable k.HoldsReleases := inferInstanceAs (Decidable (_ → _))

instance (nsList : List GoString) : DecidableRel (OthersLetGo nsList) := fun s t =>
  decidable_of_iff
    (OthersKeepAll nsList s.kube t.kube ∧
      (∀ ns ∈ ownNamespaces, s.kube.getNamespace ns = none → t.kube.getNamespace ns = none) ∧
      ((∀ r ∈ s.kube.releases, r ≠ everestRelease) → ∀ r ∈ t.kube.releases, r ≠ everestRelease) ∧
      (s.kube.HoldsReleases → t.kube.HoldsReleases) ∧
      ∀ crd ∈ t.liveCRDs, ∃ crd' ∈ s.liveCRDs, crd'.name = crd.name)
    ⟨fun h => ⟨h.1, h.2.1, fun hs => List.forall_mem_ne'.mp (h.2.2.1 (List.forall_mem_ne'.mpr hs)),
        h.2.2.2.1, h.2.2.2.2⟩,
      fun h => ⟨h.listed, h.own,
        fun hs => List.forall_mem_ne'.mpr (h.release (List.forall_mem_ne'.mp hs)), h.releases, h.crds⟩⟩

def sampleCRD (name : String) (labels : List (GoString × GoString)) : CustomResourceDefinition :=
  ⟨ascii name, labels, [], false⟩

def sampleInstalled : Installed where
  kube :=
    { objects := []
      namespaces := [⟨ascii "db", [(managedByLabel, everest)], 4, false⟩,
        ⟨monitoringNamespace, [], 2, false⟩, ⟨systemNamespace, [], 1, false⟩]
      releases := [(ascii "db", ascii "db"), everestRelease, crdRelease] }
  crds := [sampleCRD "databaseclusters" [(perconaEverestCRDLabel, ascii "true")],
    sampleCRD "others" []]

def sampleUninstall : List (SpinnerMove Installed) :=
  let without (namespaces releases : Nat) : SpinnerMove Installed :=
    .process (.other (sampleInstalled.setKube
      { objects := []
        namespaces := sampleInstalled.kube.namespaces.drop namespaces
        releases := sampleInstalled.kube.releases.drop releases }))
  let ran (before : Nat) (gone : List (SpinnerMove Installed)) (after : Nat) :
      List (SpinnerMove Installed) :=
    .start :: List.replicate before (.process .call) ++ gone ++
      List.replicate after (.process .call) ++ [.finish, .deliver]
  ran 1 [] 0 ++ ran 1 [] 0 ++ ran 1 [] 0 ++ ran 2 [without 1 1] 1 ++ ran 2 [] 0 ++
    ran 1 [without 2 2] 1 ++ ran 1 [without 3 3, .tick] 1 ++ ran 4 [] 0 ++ [.exit]

theorem run_uninstall_sample :
    ∃ s t, SpinnerState.init (newUninstallSteps 3 sampleInstalled.kube.getDBNamespaces)
        sampleInstalled = some s ∧
      run (SpinnerState.step (newUninstallSteps 3 sampleInstalled.kube.getDBNamespaces)) s
        sampleUninstall = some t ∧
      Uninstalled [ascii "db"] t.world := by
  let steps := newUninstallSteps 3 sampleInstalled.kube.getDBNamespaces
  have hends : ((SpinnerState.init steps sampleInstalled).bind fun s =>
      (run (SpinnerState.step steps) s sampleUninstall).map fun t =>
        decide (AlongRun (SpinnerState.step steps)
          (SpinnerState.OthersKeepTo (OthersLetGo sampleInstalled.kube.getDBNamespaces)) s
          sampleUninstall) &&
        (t.exited && decide (t.model.result = some (.ok ())))) = some true := by decide +kernel
  obtain ⟨s, hs, hends⟩ := Option.bind_eq_some_iff.mp hends
  obtain ⟨t, ht, hends⟩ := Option.map_eq_some_iff.mp hends
  simp only [Bool.and_eq_true, decide_eq_true_eq] at hends
  obtain ⟨hothers, hexited, hresult⟩ := hends
  have hlisted : sampleInstalled.kube.getDBNamespaces = [ascii "db"] := by decide +kernel
  have hrun := run_uninstall (by decide +kernel) (by decide +kernel) hs hothers ht
  rw [← hlisted]
  exact ⟨s, t, hs, ht, hrun.2 hexited hresult⟩

end OpenEverest.Cli
