import OpenEverest.Framework.Interrupted
import OpenEverest.Rbac.Lists

/-!
# Data importers by engine

The importers are listed engine by engine, and then only neighbours of one name are made one.
An importer that supports two of the requested engines is listed twice wherever the walk comes
by another importer in between.
-/

namespace OpenEverest.Rbac

open Framework GoString

structure DataImporter where
  name : GoString
  supportedEngines : List GoString
  deriving DecidableEq

def supports (wantEngine : GoString) (importer : DataImporter) : Bool :=
  importer.supportedEngines.contains wantEngine

/-- `slices.CompactFunc` by name over the importers appended engine by engine. -/
def forEngines (supportedEngines : List GoString) (items : List DataImporter) :
    List DataImporter :=
  (listing supports supportedEngines items).destutter fun a b => a.name ≠ b.name

/-- The handler over the cluster; `list` is what the Kubernetes client lists. -/
def k8sListDataImporters (list : Except Unit (List DataImporter))
    (supportedEngines : List GoString) : Except Unit (List DataImporter) := do
  let items ← list
  if supportedEngines = [] then .ok items else .ok (forEngines supportedEngines items)

def RbacHandler.listDataImporters (h : RbacHandler) (next : Except Unit (List DataImporter)) :
    Except RbacError (List DataImporter) := do
  let items ← fromNext id next
  filterReadable id (fun di => h.enforceGlobalRead resourceDataImporters di.name) items

section Once

variable {ε : Type} (visible : DataImporter → Bool) (supportedEngines : List GoString)
  (items : List DataImporter)

/-- Each visible importer that supports a requested engine is answered once, and no other. -/
def ListsOnce (answer : Except ε (List DataImporter)) : Prop :=
  ∃ result, answer = .ok result ∧ result.Nodup ∧
    ∀ importer, importer ∈ result ↔ importer ∈ items ∧ visible importer = true ∧
      ∃ wantEngine ∈ supportedEngines, supports wantEngine importer = true

/-- No importer is listed between two listings of one that is visible. -/
def Uninterrupted : Prop :=
  ∀ x y, visible x = true → Interrupts supports supportedEngines items x y → y = x

variable {visible supportedEngines items}

theorem forEngines_eq (hnames : (items.map DataImporter.name).Nodup) :
    forEngines supportedEngines items =
      (listing supports supportedEngines items).destutter (· ≠ ·) := by
  have hinj := List.inj_on_of_nodup_map hnames
  have hne : ∀ a ∈ listing supports supportedEngines items,
      ∀ b ∈ listing supports supportedEngines items, a.name ≠ b.name ↔ id a ≠ id b := by
    intro a ha b hb
    have hname := fun heq => hinj (mem_listing.mp ha).1 (mem_listing.mp hb).1 heq
    exact not_congr ⟨hname, congrArg DataImporter.name⟩
  have hmap := List.map_destutter hne
  rw [List.map_id, List.map_id] at hmap
  rw [forEngines, hmap]

theorem listsOnce_filter_iff (hnames : (items.map DataImporter.name).Nodup) :
    ListsOnce visible supportedEngines items
        (.ok ((forEngines supportedEngines items).filter visible) : Except ε _) ↔
      Uninterrupted visible supportedEngines items := by
  have hitems : items.Nodup := hnames.of_map
  have hnodup := nodup_filter_destutter (p := visible)
    (l := listing supports supportedEngines items)
  simp only [triple_sublist_listing hitems, ← forEngines_eq hnames] at hnodup
  constructor
  · intro hlists
    obtain ⟨result, heq, hresult, _⟩ := hlists
    obtain rfl := Except.ok.inj heq
    exact hnodup.mp hresult
  · intro huninterrupted
    refine ⟨_, rfl, hnodup.mpr huninterrupted, ?_⟩
    intro importer
    rw [List.mem_filter, forEngines_eq hnames, mem_destutter_ne, mem_listing, and_assoc,
      and_comm (b := visible importer = true)]

end Once

section Handlers

variable (items : List DataImporter) (supportedEngines : List GoString)

def readableImporter (policy : Policy) (user : User) (importer : DataImporter) : Bool :=
  (user.subject :: user.groups).any
    (policy · resourceDataImporters actionRead (objectName [importer.name]))

theorem isOk_iff (check : Except RbacError Unit) : check.isOk = true ↔ check = .ok () := by
  cases check <;> simp [Except.isOk, Except.toBool]

theorem listDataImporters_policy (policy : Policy) (user : User) :
    (policyHandler policy user).listDataImporters (.ok items) =
      .ok (items.filter (readableImporter policy user)) := by
  have hanswers : ∀ di ∈ items, AnswersOrDenies
      ((policyHandler policy user).enforceGlobalRead resourceDataImporters di.name) := by
    intro di _ e he
    have hdenied := (enforce_policy_eq_error policy user _ _ _ e).mp he
    rw [hdenied.2]
    rfl
  have hfilter := filterReadable_of_answers id items hanswers
  have hcongr : ∀ di ∈ items,
      ((policyHandler policy user).enforceGlobalRead resourceDataImporters di.name).isOk =
        readableImporter policy user di := by
    intro di _
    rw [Bool.eq_iff_iff, isOk_iff, readableImporter, List.any_eq_true]
    exact enforce_policy_eq_ok policy user _ _ _
  rw [List.filter_congr hcongr] at hfilter
  exact hfilter

/-- Each readable importer of a requested engine is answered once exactly where no importer is
listed between two listings of a readable one. -/
theorem listDataImporters_once_iff (hnames : (items.map DataImporter.name).Nodup)
    (hengines : supportedEngines ≠ []) :
    (ListsOnce (fun _ => true) supportedEngines items
        (k8sListDataImporters (.ok items) supportedEngines) ↔
      Uninterrupted (fun _ => true) supportedEngines items) ∧
    ∀ (policy : Policy) (user : User),
      (ListsOnce (readableImporter policy user) supportedEngines items
        ((policyHandler policy user).listDataImporters
          (k8sListDataImporters (.ok items) supportedEngines)) ↔
      Uninterrupted (readableImporter policy user) supportedEngines items) := by
  have hanswer : k8sListDataImporters (.ok items) supportedEngines =
      .ok (forEngines supportedEngines items) := if_neg hengines
  rw [hanswer]
  constructor
  · have hall : ListsOnce (fun _ => true) supportedEngines items
          (.ok ((forEngines supportedEngines items).filter fun _ => true) : Except Unit _) ↔
        Uninterrupted (fun _ => true) supportedEngines items := listsOnce_filter_iff hnames
    rwa [List.filter_true] at hall
  · intro policy user
    rw [listDataImporters_policy]
    exact listsOnce_filter_iff hnames

def sharedImporter : DataImporter := ⟨ascii "dumps", [ascii "pxc", ascii "psmdb"]⟩

/-- The importer of both engines is listed last for the first and first for the second. -/
def neighbours : List DataImporter := [⟨ascii "binlogs", [ascii "pxc"]⟩, sharedImporter]

theorem listDataImporters_once_iff_sample :
    ListsOnce (fun _ => true) [ascii "pxc", ascii "psmdb"] neighbours
      (k8sListDataImporters (.ok neighbours) [ascii "pxc", ascii "psmdb"]) := by
  have honce := listDataImporters_once_iff neighbours [ascii "pxc", ascii "psmdb"]
    (by decide +kernel) (List.cons_ne_nil _ _)
  have hbetween : ∀ x ∈ neighbours, ∀ y ∈ neighbours,
      [x, y, x].Sublist (listing supports [ascii "pxc", ascii "psmdb"] neighbours) → y = x := by
    decide +kernel
  refine honce.1.mpr fun x y _ hinterrupts => ?_
  have hsub := (triple_sublist_listing (by decide +kernel)).mpr hinterrupts
  exact hbetween x (mem_listing.mp (hsub.subset (by simp))).1 y
    (mem_listing.mp (hsub.subset (by simp))).1 hsub

def sharedImporters : List DataImporter :=
  [⟨ascii "dumps", [ascii "pxc", ascii "psmdb"]⟩, ⟨ascii "logs", [ascii "pxc", ascii "psmdb"]⟩]

/-- Both importers are answered twice. -/
theorem sharedImporters_twice :
    ¬ ListsOnce (fun _ => true) [ascii "pxc", ascii "psmdb"] sharedImporters
      (k8sListDataImporters (.ok sharedImporters) [ascii "pxc", ascii "psmdb"]) := by
  intro hlists
  obtain ⟨result, heq, hresult, _⟩ := hlists
  obtain rfl := Except.ok.inj heq
  revert hresult
  decide +kernel

end Handlers

end OpenEverest.Rbac
