import OpenEverest.Cli.NamespaceRemoval

/-!
# What the removal of namespaces leaves alone

Other clients create, change and finish the deletion of objects at any time. As long as they
create nothing of a kind that is gone from a namespace, backup storages are deleted when no
database cluster is left that may need them, and a removal that succeeds leaves nothing behind.
-/

namespace OpenEverest.Cli

open Framework GoString

namespace Kube

def Cleared (s : Kube) (ns : GoString) (kinds : List Kind) : Prop :=
  ∀ kind ∈ kinds, s.listMeta kind ns = []

theorem listMeta_eq_nil {s : Kube} {kind : Kind} {ns : GoString} :
    s.listMeta kind ns = [] ↔ ∀ o ∈ s.objects, ¬ (o.kind = kind ∧ o.ns = ns) := by
  simp [listMeta, List.filter_eq_nil_iff]

end Kube

def Kind.before : Kind → List Kind
  | .databaseCluster => []
  | .backupStorage => [.databaseCluster]
  | .monitoringConfig => [.databaseCluster, .backupStorage]

def everyKind : List Kind := [.databaseCluster, .backupStorage, .monitoringConfig]

/-- The others create nothing of a kind that is gone from the namespace, and do not bring the
namespace back or label it again. -/
structure OthersKeep (ns : GoString) (s t : Kube) : Prop where
  cleared : ∀ kind, s.listMeta kind ns = [] → t.listMeta kind ns = []
  gone : s.getNamespace ns = none → t.getNamespace ns = none
  unmanaged : (∀ n ∈ s.getNamespace ns, n.isManagedByEverest = false) →
    ∀ n ∈ t.getNamespace ns, n.isManagedByEverest = false

instance (ns : GoString) (s t : Kube) : Decidable (OthersKeep ns s t) :=
  decidable_of_iff
    ((∀ kind ∈ everyKind, s.listMeta kind ns = [] → t.listMeta kind ns = []) ∧
      (s.getNamespace ns = none → t.getNamespace ns = none) ∧
      ((∀ n ∈ s.getNamespace ns, n.isManagedByEverest = false) →
        ∀ n ∈ t.getNamespace ns, n.isManagedByEverest = false))
    ⟨fun h => ⟨fun kind => h.1 kind (by cases kind <;> simp [everyKind]), h.2.1, h.2.2⟩,
      fun h => ⟨fun kind _ => h.cleared kind, h.gone, h.unmanaged⟩⟩

/-- A write of the removal of a namespace: objects of a kind change when the kinds before are
gone, and the namespace and its release when all are. -/
structure Removes (ns : GoString) (s t : Kube) : Prop where
  objects : ∀ o, o.ns ≠ ns → (o ∈ t.objects ↔ o ∈ s.objects)
  namespaces : ∀ n, n ≠ ns → t.getNamespace n = s.getNamespace n
  releases : ∀ r, r ≠ (ns, ns) → (r ∈ t.releases ↔ r ∈ s.releases)
  ordered : ∀ kind, t.listMeta kind ns ≠ s.listMeta kind ns → s.Cleared ns kind.before
  last : t.getNamespace ns ≠ s.getNamespace ns ∨ t.releases ≠ s.releases → s.Cleared ns everyKind

/-- What a removal of the namespace that succeeds leaves behind. -/
structure Removed (ns : GoString) (keepNs : Bool) (s : Kube) : Prop where
  cleared : s.Cleared ns everyKind
  gone : keepNs = false → s.getNamespace ns = none
  unmanaged : ∀ n ∈ s.getNamespace ns, n.isManagedByEverest = false

section Relations

variable {ns : GoString} {s t u : Kube}

theorem OthersKeep.refl (ns : GoString) (s : Kube) : OthersKeep ns s s :=
  ⟨fun _ h => h, fun h => h, fun h => h⟩

theorem OthersKeep.trans (h : OthersKeep ns s t) (h' : OthersKeep ns t u) : OthersKeep ns s u :=
  ⟨fun kind hk => h'.cleared kind (h.cleared kind hk), fun hg => h'.gone (h.gone hg),
    fun hn => h'.unmanaged (h.unmanaged hn)⟩

theorem OthersKeep.cleared_kinds {kinds : List Kind} (h : OthersKeep ns s t)
    (hs : s.Cleared ns kinds) : t.Cleared ns kinds :=
  fun kind hkind => h.cleared kind (hs kind hkind)

theorem OthersKeep.removed {keepNs : Bool} (h : OthersKeep ns s t) (hs : Removed ns keepNs s) :
    Removed ns keepNs t :=
  ⟨h.cleared_kinds hs.cleared, fun hkeep => h.gone (hs.gone hkeep), h.unmanaged hs.unmanaged⟩

theorem Removes.refl (ns : GoString) (s : Kube) : Removes ns s s where
  objects _ _ := .rfl
  namespaces _ _ := rfl
  releases _ _ := .rfl
  ordered _ h := absurd rfl h
  last h := h.elim (absurd rfl) (absurd rfl)

theorem Removes.removed {ns' : GoString} {keepNs : Bool} (h : Removes ns s t) (hne : ns' ≠ ns)
    (hs : Removed ns' keepNs s) : Removed ns' keepNs t where
  cleared kind hkind := by
    have hnone := Kube.listMeta_eq_nil.mp (hs.cleared kind hkind)
    refine Kube.listMeta_eq_nil.mpr fun o ho hkindns => ?_
    exact hnone o ((h.objects o (hkindns.2 ▸ hne)).mp ho) hkindns
  gone hkeep := by
    rw [h.namespaces ns' hne]
    exact hs.gone hkeep
  unmanaged := by
    rw [h.namespaces ns' hne]
    exact hs.unmanaged

end Relations

section Writes

variable {ns : GoString} {s : Kube}

theorem mem_deleteAllOf {kind : Kind} {o : KubeObject} (h : ¬ (o.kind = kind ∧ o.ns = ns)) :
    o ∈ (s.deleteAllOf kind ns).objects ↔ o ∈ s.objects := by
  simp only [Kube.deleteAllOf, List.mem_filterMap]
  constructor
  · rintro ⟨o', ho', hsome⟩
    split_ifs at hsome with hmatch hfin
    · obtain rfl := Option.some.inj hsome
      exact absurd hmatch h
    · obtain rfl := Option.some.inj hsome
      exact ho'
  · intro ho
    exact ⟨o, ho, if_neg h⟩

theorem listMeta_deleteAllOf {kind kind' : Kind} (h : kind' ≠ kind) :
    (s.deleteAllOf kind ns).listMeta kind' ns = s.listMeta kind' ns := by
  unfold Kube.listMeta Kube.deleteAllOf
  induction s.objects with
  | nil => rfl
  | cons o objects ih =>
    by_cases hmatch : o.kind = kind ∧ o.ns = ns
    · have hother : ¬ (o.kind = kind' ∧ o.ns = ns) := fun hk => h (hk.1.symm.trans hmatch.1)
      have hother' : ¬ kind = kind' := fun hk => h hk.symm
      by_cases hfin : o.finalizers = []
      · simpa [List.filterMap_cons, hmatch, hfin, hother'] using ih
      · simpa [List.filterMap_cons, hmatch, hfin, hother'] using ih
    · simp only [List.filterMap_cons, if_neg hmatch, List.filter_cons, ih]

theorem removes_deleteAllOf {kind : Kind} (hs : s.Cleared ns kind.before) :
    Removes ns s (s.deleteAllOf kind ns) where
  objects o ho := mem_deleteAllOf fun h => ho h.2
  namespaces _ _ := rfl
  releases _ _ := .rfl
  ordered kind' h := by
    by_cases hkind : kind' = kind
    · subst hkind
      exact hs
    · exact absurd (listMeta_deleteAllOf hkind) h
  last h := h.elim (absurd rfl) (absurd rfl)

theorem find_map_other {namespaces : List KubeNamespace} {f : KubeNamespace → KubeNamespace}
    (hname : ∀ n, (f n).name = n.name) (hother : ∀ n, n.name ≠ ns → f n = n) {n : GoString}
    (hn : n ≠ ns) : (namespaces.map f).find? (·.name == n) = namespaces.find? (·.name == n) := by
  induction namespaces with
  | nil => rfl
  | cons m namespaces ih =>
    by_cases hm : m.name = n
    · have hfm : f m = m := hother m (hm ▸ hn)
      simp [hfm, hm]
    · simpa [List.find?_cons, hname, hm] using ih

theorem removes_namespaces {f : KubeNamespace → KubeNamespace} (hname : ∀ n, (f n).name = n.name)
    (hother : ∀ n, n.name ≠ ns → f n = n) (hs : s.Cleared ns everyKind) :
    Removes ns s { s with namespaces := s.namespaces.map f } where
  objects _ _ := .rfl
  namespaces _ hn := find_map_other hname hother hn
  releases _ _ := .rfl
  ordered _ h := absurd rfl h
  last _ := hs

theorem removes_deleteNamespace (hs : s.Cleared ns everyKind) :
    Removes ns s (s.deleteNamespace ns) := by
  refine removes_namespaces (fun _ => ?_) (fun _ hn => if_neg hn) hs
  split <;> rfl

theorem removes_updateNamespace {copy : KubeNamespace} (hcopy : copy.name = ns)
    (hs : s.Cleared ns everyKind) : Removes ns s (s.updateNamespace copy) := by
  refine removes_namespaces (fun _ => ?_) (fun _ hn => if_neg fun h => hn (h.1.trans hcopy)) hs
  split <;> rfl

theorem removes_uninstallRelease (hs : s.Cleared ns everyKind) :
    Removes ns s (s.uninstallRelease (ns, ns)) where
  objects _ _ := .rfl
  namespaces _ _ := rfl
  releases r hr := by simp [Kube.uninstallRelease, hr]
  ordered _ h := absurd rfl h
  last _ := hs

theorem cleared_deleteAllOf {kind : Kind} (hs : s.Cleared ns kind.before) :
    (s.deleteAllOf kind ns).Cleared ns kind.before := by
  intro kind' hkind'
  rw [listMeta_deleteAllOf]
  · exact hs kind' hkind'
  · rintro rfl
    cases kind' <;> simp [Kind.before] at hkind'

theorem getNamespace_name {n : KubeNamespace} (h : s.getNamespace ns = some n) : n.name = ns := by
  have hfound := List.find?_some (p := fun m : KubeNamespace => m.name == ns) h
  simpa using hfound

theorem unmanaged_updateNamespace {n n' copy : KubeNamespace} (h : s.getNamespace ns = some n')
    (hn : (s.updateNamespace copy).getNamespace ns = some n) (hname : copy.name = ns)
    (hversion : n'.resourceVersion = copy.resourceVersion)
    (hcopy : copy.isManagedByEverest = false) : n.isManagedByEverest = false := by
  unfold Kube.getNamespace at h hn
  unfold Kube.updateNamespace at hn
  generalize s.namespaces = namespaces at h hn
  induction namespaces with
  | nil => cases h
  | cons m namespaces ih =>
    by_cases hm : m.name = ns
    · obtain rfl : m = n' := by simpa [hm] using h
      have hwritten : n = { m with
          labels := copy.labels, resourceVersion := m.resourceVersion + 1 } := by
        simpa [hm, hname, hversion, eq_comm] using hn
      rw [hwritten]
      exact hcopy
    · refine ih (by simpa [hm] using h) ?_
      simpa [hm, hname] using hn

end Writes

section Steps

open Process

variable {R : Kube → Kube → Prop} {ns : GoString} {s : Kube}

theorem guarantees_deleteObjects (hR : ∀ s t, R s t → OthersKeep ns s t) (rounds : Nat)
    (kind : Kind) (hs : s.Cleared ns kind.before) :
    (deleteObjects rounds ns kind).Guarantees R (Removes ns)
      (onSuccess fun s => s.Cleared ns (kind.before ++ [kind])) s := by
  have hstable (kinds : List Kind) : ∀ s t, s.Cleared ns kinds → R s t → t.Cleared ns kinds :=
    fun s t h hr => (hR s t hr).cleared_kinds h
  have hempty (s : Kube) (hs : s.Cleared ns kind.before) (hkind : s.listMeta kind ns = []) :
      s.Cleared ns (kind.before ++ [kind]) := by
    intro kind' hkind'
    rcases List.mem_append.mp hkind' with hbefore | hlast
    · exact hs kind' hbefore
    · obtain rfl := List.mem_singleton.mp hlast
      exact hkind
  have hdeleteAll (again : KubeProcess)
      (hagain : ∀ s, s.Cleared ns kind.before → again.Guarantees R (Removes ns)
        (onSuccess fun s => s.Cleared ns (kind.before ++ [kind])) s)
      (s : Kube) (hs : s.Cleared ns kind.before) :
      (access (·.deleteAllOf kind ns) (fun _ => again) .api).Guarantees R (Removes ns)
        (onSuccess fun s => s.Cleared ns (kind.before ++ [kind])) s :=
    guarantees_access (hstable _) (fun _ => trivial)
      (fun s hs => ⟨removes_deleteAllOf hs, hagain _ (cleared_deleteAllOf hs)⟩) hs
  refine guarantees_access (hstable _) (fun _ => trivial) (fun s hs => ⟨.refl ns s, ?_⟩) hs
  split
  · rename_i hkind
    exact guarantees_done (hstable _) (fun _ h => h) (hempty s hs hkind)
  · cases rounds with
    | zero => exact fun _ _ => trivial
    | succ rounds =>
      refine hdeleteAll _ (fun s hs => ?_) s hs
      refine guarantees_poll (P := fun s => s.Cleared ns kind.before) (fun again hagain s hs => ?_)
        (fun _ => trivial) rounds hs
      refine guarantees_access (hstable _) (fun _ => trivial) (fun s hs => ⟨.refl ns s, ?_⟩) hs
      split
      · rename_i hkind
        exact guarantees_done (hstable _) (fun _ h => h) (hempty s hs hkind)
      · exact hdeleteAll again hagain s hs

theorem isManagedByEverest_filter (n : KubeNamespace) :
    KubeNamespace.isManagedByEverest
      { n with labels := n.labels.filter (·.1 ≠ managedByLabel) } = false := by
  have hlookup : (n.labels.filter (·.1 ≠ managedByLabel)).lookup managedByLabel = none := by
    rw [List.lookup_eq_none_iff]
    intro label hlabel
    have hne : label.1 ≠ managedByLabel := of_decide_eq_true (List.mem_filter.mp hlabel).2
    exact bne_iff_ne.mpr hne.symm
  rw [KubeNamespace.isManagedByEverest, hlookup]
  rfl

theorem guarantees_removeEverestLabelFromNamespace (hR : ∀ s t, R s t → OthersKeep ns s t)
    (rounds : Nat) (hs : s.Cleared ns everyKind) :
    (removeEverestLabelFromNamespace rounds ns).Guarantees R (Removes ns)
      (onSuccess fun s => Removed ns true s) s := by
  have hstable : ∀ s t, s.Cleared ns everyKind → R s t → t.Cleared ns everyKind :=
    fun s t h hr => (hR s t hr).cleared_kinds h
  have hremoved : ∀ s t, Removed ns true s → R s t → Removed ns true t :=
    fun s t h hr => (hR s t hr).removed h
  refine guarantees_poll (P := fun s => s.Cleared ns everyKind) (fun again hagain s hs => ?_)
    (fun _ => trivial) rounds hs
  refine guarantees_access hstable (fun _ => trivial) (fun s hs => ⟨.refl ns s, ?_⟩) hs
  cases hn : s.getNamespace ns with
  | none => exact fun _ _ => trivial
  | some n =>
    by_cases hmanaged : n.isManagedByEverest = false
    · have hdone : Removed ns true s := by
        refine ⟨hs, fun h => (by simp at h), fun m hm => ?_⟩
        obtain rfl : n = m := Option.some.inj (hn.symm.trans hm)
        exact hmanaged
      simpa [hn, hmanaged] using guarantees_done hremoved (fun _ h => h) hdone
    · simp only [id_eq, if_neg hmanaged]
      have hname : n.name = ns := getNamespace_name hn
      -- the namespace may have changed since it was read
      refine guarantees_access hstable (fun _ => trivial) (fun t ht => ?_) hs
      refine ⟨removes_updateNamespace hname ht, ?_⟩
      cases hn' : t.getNamespace ns with
      | none => exact fun _ _ => trivial
      | some n' =>
        by_cases hversion : n'.resourceVersion = n.resourceVersion
        · simp only [if_pos hversion]
          refine guarantees_done hremoved (fun _ h => h) ⟨ht, fun h => (by simp at h), ?_⟩
          exact fun m hm => unmanaged_updateNamespace hn' hm hname hversion
            (isManagedByEverest_filter n)
        · simp only [if_neg hversion]
          exact hagain _ ht

theorem guarantees_ensureNamespaceGone (hR : ∀ s t, R s t → OthersKeep ns s t) (rounds : Nat)
    (hs : s.Cleared ns everyKind) :
    (ensureNamespaceGone rounds ns).Guarantees R (Removes ns)
      (onSuccess fun s => Removed ns false s) s := by
  refine guarantees_poll (P := fun s => s.Cleared ns everyKind) (fun again hagain s hs => ?_)
    (fun _ => trivial) rounds hs
  refine guarantees_access (fun s t h hr => (hR s t hr).cleared_kinds h) (fun _ => trivial)
    (fun s hs => ⟨.refl ns s, ?_⟩) hs
  cases hn : s.getNamespace ns with
  | none =>
    have hdone : Removed ns false s := ⟨hs, fun _ => hn, fun m hm => (by simp [hn] at hm)⟩
    simpa [hn] using guarantees_done (fun s t h hr => (hR s t hr).removed h) (fun _ h => h) hdone
  | some n => simpa [hn] using hagain s hs

theorem guarantees_deleteNamespace (hR : ∀ s t, R s t → OthersKeep ns s t)
    (hs : s.Cleared ns everyKind) :
    (deleteNamespace ns).Guarantees R (Removes ns)
      (onSuccess fun s => s.Cleared ns everyKind) s := by
  have hstable : ∀ s t, s.Cleared ns everyKind → R s t → t.Cleared ns everyKind :=
    fun s t h hr => (hR s t hr).cleared_kinds h
  refine guarantees_access hstable (fun _ => trivial)
    (fun s hs => ⟨removes_deleteNamespace hs, ?_⟩) hs
  cases hn : s.getNamespace ns with
  | none => exact fun _ _ => trivial
  | some n => exact guarantees_done hstable (fun _ h => h) hs

theorem guarantees_removeNamespace (hrefl : ∀ s, R s s) (hR : ∀ s t, R s t → OthersKeep ns s t)
    (rounds : Nat) (keepNs : Bool) (hs : s.Cleared ns everyKind) :
    (removeNamespace rounds ns keepNs).Guarantees R (Removes ns)
      (onSuccess fun s => Removed ns keepNs s) s := by
  refine guarantees_access (fun s t h hr => (hR s t hr).cleared_kinds h) (fun _ => trivial)
    (fun s hs => ⟨removes_uninstallRelease hs, ?_⟩) hs
  cases keepNs with
  | true => exact guarantees_removeEverestLabelFromNamespace hR rounds hs
  | false =>
    exact guarantees_andThen hrefl (guarantees_deleteNamespace hR hs)
      fun t ht => guarantees_ensureNamespaceGone hR rounds ht

theorem guarantees_newRemoveNamespaceSteps (hrefl : ∀ s, R s s)
    (hR : ∀ s t, R s t → OthersKeep ns s t) (rounds : Nat) (keepNs : Bool) (s : Kube) :
    (runSteps (newRemoveNamespaceSteps rounds ns keepNs)).Guarantees R (Removes ns)
      (onSuccess fun s => Removed ns keepNs s) s := by
  have hstart : s.Cleared ns Kind.databaseCluster.before := fun kind h => by simp [Kind.before] at h
  refine guarantees_andThen hrefl (guarantees_deleteObjects hR rounds .databaseCluster hstart)
    fun s hs => ?_
  refine guarantees_andThen hrefl (guarantees_deleteObjects hR rounds .backupStorage hs)
    fun s hs => ?_
  refine guarantees_andThen hrefl (guarantees_deleteObjects hR rounds .monitoringConfig hs)
    fun s hs => ?_
  refine guarantees_andThen hrefl (guarantees_removeNamespace hrefl hR rounds keepNs hs)
    fun s hs => ?_
  exact guarantees_done (fun s t h hr => (hR s t hr).removed h) (fun _ h => h) hs

end Steps

section Namespaces

variable {nsList : List GoString} {rounds : Nat} {keepNs : Bool} {s t : Kube}

def OthersKeepAll (nsList : List GoString) (s t : Kube) : Prop := ∀ ns ∈ nsList, OthersKeep ns s t

instance (nsList : List GoString) : DecidableRel (OthersKeepAll nsList) := fun s t =>
  inferInstanceAs (Decidable (∀ ns ∈ nsList, OthersKeep ns s t))

def RemovesListed (nsList : List GoString) (s t : Kube) : Prop := ∃ ns ∈ nsList, Removes ns s t

theorem OthersKeepAll.refl (nsList : List GoString) (s : Kube) : OthersKeepAll nsList s s :=
  fun ns _ => .refl ns s

theorem OthersKeepAll.trans {u : Kube} (h : OthersKeepAll nsList s t)
    (h' : OthersKeepAll nsList t u) : OthersKeepAll nsList s u :=
  fun ns hns => (h ns hns).trans (h' ns hns)

theorem runSteps_removalSteps (rounds : Nat) (keepNs : Bool) (nsList : List GoString) :
    runSteps (removalSteps rounds keepNs nsList) =
      .sequence (nsList.map fun ns => runSteps (newRemoveNamespaceSteps rounds ns keepNs)) := by
  induction nsList with
  | nil => rfl
  | cons ns nsList ih =>
    simp only [runSteps, removalSteps, List.flatMap_cons, List.map_append, Process.sequence_append,
      List.map_cons, Process.sequence] at ih ⊢
    rw [ih]

theorem guarantees_removalSteps (rounds : Nat) (keepNs : Bool) (hnodup : nsList.Nodup) (s : Kube) :
    (runSteps (removalSteps rounds keepNs nsList)).Guarantees (OthersKeepAll nsList)
      (RemovesListed nsList) (Process.onSuccess fun s => ∀ ns ∈ nsList, Removed ns keepNs s) s := by
  rw [runSteps_removalSteps]
  have hrefl := OthersKeepAll.refl nsList
  have hkept (l : List GoString) (hl : l ⊆ nsList) (s t : Kube)
      (h : ∀ ns ∈ l, Removed ns keepNs s) (hr : OthersKeepAll nsList s t) :
      ∀ ns ∈ l, Removed ns keepNs t :=
    fun ns hns => (hr ns (hl hns)).removed (h ns hns)
  let P (l : List GoString) (s : Kube) : Prop := l ⊆ nsList ∧ ∀ ns ∈ l, Removed ns keepNs s
  suffices hall : (Process.sequence (nsList.map fun ns =>
      runSteps (newRemoveNamespaceSteps rounds ns keepNs))).Guarantees (OthersKeepAll nsList)
        (RemovesListed nsList) (Process.onSuccess (P nsList)) s by
    exact hall.success fun _ h => h.2
  refine Process.guarantees_sequence hrefl (fun l s t h hr => ⟨h.1, hkept l h.1 s t h.2 hr⟩)
    (fun l ns l' hl s hs => ?_) ⟨List.nil_subset _, List.forall_mem_nil _⟩
  · have hmem : ns ∈ nsList := by
      rw [hl]
      simp
    have hfresh : ∀ ns' ∈ l, ns' ≠ ns := by
      intro ns' hns' heq
      have hsplit : (l ++ ns :: l').Nodup := by
        rw [← hl]
        exact hnodup
      exact (List.nodup_append.mp hsplit).2.2 ns' hns' ns (by simp) heq
    have hone := (guarantees_newRemoveNamespaceSteps hrefl (fun s t h => h ns hmem) rounds keepNs
      s).frame (F := P l) (fun s t h hr => ⟨h.1, hkept l h.1 s t h.2 hr⟩)
      (fun s t h hg => ⟨h.1, fun ns' hns' => hg.removed (hfresh ns' hns') (h.2 ns' hns')⟩) hs
    refine hone.imp (fun s t hg => ⟨ns, hmem, hg⟩) fun r t h => ?_
    cases r with
    | error e => trivial
    | ok u =>
      refine ⟨List.append_subset.mpr ⟨h.2.1, by simpa using hmem⟩, fun ns' hns' => ?_⟩
      rcases List.mem_append.mp hns' with hbefore | hlast
      · exact h.2.2 ns' hbefore
      · obtain rfl := List.mem_singleton.mp hlast
        exact h.1

end Namespaces

theorem not_reserved {validateRFC1035 : GoString → GoString → Except GoString Unit}
    {nsList : List GoString} (h : validateNamespaceNames validateRFC1035 nsList = .ok ())
    {ns : GoString} (hns : ns ∈ nsList) : ns ∉ reservedNamespaces := by
  have hne : nsList ≠ [] := List.ne_nil_of_mem hns
  simp only [validateNamespaceNames, if_neg hne, check_bind_eq_ok, checkAll_eq_ok] at h
  intro hmem
  have hone := h.2 ns hns
  rw [if_pos hmem] at hone
  cases hone

/-- Whatever the user presses, in whatever order the loop gets its messages and whatever of the
calls fail: the command changes objects of the named namespaces only, none of which is reserved,
deletes backup storages when no database cluster is left and the namespace and its release when
nothing is, and has removed all of the namespaces when it ends without an error. -/
theorem run_removal {validateRFC1035 : GoString → GoString → Except GoString Unit}
    {namespaces : GoString} {rounds : Nat} {keepNs : Bool} {world : Kube}
    {s t : SpinnerState Kube NamespaceError} {ms : List (SpinnerMove Kube)}
    (hvalid : validateNamespaceNames validateRFC1035 (parseNamespaceNames namespaces) = .ok ())
    (h0 : SpinnerState.init
      (removalSteps rounds keepNs (parseNamespaceNames namespaces)) world = some s)
    (hothers : AlongRun
      (SpinnerState.step (removalSteps rounds keepNs (parseNamespaceNames namespaces)))
      (SpinnerState.OthersKeepTo (OthersKeepAll (parseNamespaceNames namespaces))) s ms)
    (h : run (SpinnerState.step (removalSteps rounds keepNs (parseNamespaceNames namespaces))) s
      ms = some t) :
    AlongRun (SpinnerState.step (removalSteps rounds keepNs (parseNamespaceNames namespaces)))
      (SpinnerState.WritesIn (removalSteps rounds keepNs (parseNamespaceNames namespaces))
        fun u v => ∃ ns ∈ parseNamespaceNames namespaces, ns ∉ reservedNamespaces ∧
          Removes ns u v) s ms ∧
      (t.exited = true → t.model.result = some (.ok ()) →
        ∀ ns ∈ parseNamespaceNames namespaces, Removed ns keepNs t.world) := by
  have hsteps : (runSteps (removalSteps rounds keepNs (parseNamespaceNames namespaces))).Guarantees
      (OthersKeepAll (parseNamespaceNames namespaces))
      (fun u v => ∃ ns ∈ parseNamespaceNames namespaces, ns ∉ reservedNamespaces ∧ Removes ns u v)
      (Process.onSuccess fun s => ∀ ns ∈ parseNamespaceNames namespaces, Removed ns keepNs s)
      world := by
    refine (guarantees_removalSteps rounds keepNs (parseNamespaceNames_nodup namespaces)
      world).imp (fun u v hwrite => ?_) fun _ _ hr => hr
    obtain ⟨ns, hns, hremoves⟩ := hwrite
    exact ⟨ns, hns, not_reserved hvalid hns, hremoves⟩
  exact SpinnerState.run_guarantees (OthersKeepAll.refl _) (fun _ _ _ => .trans) hsteps h0 hothers h

def sampleKube : Kube where
  objects := [⟨.databaseCluster, ascii "db", ascii "pg", [ascii "cleanup"], false⟩,
    ⟨.backupStorage, ascii "db", ascii "s3", [], false⟩,
    ⟨.monitoringConfig, ascii "prod", ascii "pmm", [], false⟩]
  namespaces := [⟨ascii "db", [(managedByLabel, everest)], 4, false⟩,
    ⟨ascii "prod", [(managedByLabel, everest)], 5, false⟩]
  releases := [(ascii "db", ascii "db"), (ascii "prod", ascii "prod")]

def sampleRemoval : List (SpinnerMove Kube) :=
  let finalized := { sampleKube with objects := sampleKube.objects.drop 1 }
  let gone := ⟨sampleKube.objects.drop 2, sampleKube.namespaces.drop 1, sampleKube.releases.drop 1⟩
  [.start, .process .call, .process .call, .process (.other finalized), .tick, .process .call,
    .finish, .deliver,
    .start, .process .call, .process .call, .process .call, .finish, .deliver,
    .start, .process .call, .finish, .key false, .deliver,
    .start, .process .call, .process .call, .process .call, .process (.other gone),
    .process .call, .finish, .deliver, .exit]

theorem run_removal_sample :
    ∃ s t, SpinnerState.init
        (removalSteps 3 false (parseNamespaceNames (ascii " db,"))) sampleKube = some s ∧
      run (SpinnerState.step (removalSteps 3 false (parseNamespaceNames (ascii " db,")))) s
        sampleRemoval = some t ∧
      ∀ ns ∈ parseNamespaceNames (ascii " db,"), Removed ns false t.world := by
  let steps := removalSteps 3 false (parseNamespaceNames (ascii " db,"))
  have hends : ((SpinnerState.init steps sampleKube).bind fun s =>
      (run (SpinnerState.step steps) s sampleRemoval).map fun t =>
        decide (AlongRun (SpinnerState.step steps)
          (SpinnerState.OthersKeepTo (OthersKeepAll (parseNamespaceNames (ascii " db,")))) s
          sampleRemoval) &&
        (t.exited && decide (t.model.result = some (.ok ())))) = some true := by decide +kernel
  obtain ⟨s, hs, hends⟩ := Option.bind_eq_some_iff.mp hends
  obtain ⟨t, ht, hends⟩ := Option.map_eq_some_iff.mp hends
  simp only [Bool.and_eq_true, decide_eq_true_eq] at hends
  obtain ⟨hothers, hexited, hresult⟩ := hends
  have hvalid : validateNamespaceNames (fun _ _ => .ok ()) (parseNamespaceNames (ascii " db,")) =
      .ok () := by decide +kernel
  exact ⟨s, t, hs, ht, (run_removal hvalid hs hothers ht).2 hexited hresult⟩

end OpenEverest.Cli
