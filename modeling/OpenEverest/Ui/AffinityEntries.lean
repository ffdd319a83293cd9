import OpenEverest.Ui.Affinity

/-!
# The entries of a policy

Every kind of term is a weight, a topology key and expressions, some of which it may not have,
and what else the scheduler wants and no rule shows. A policy is looked at as lists of such
entries, one list for each component, kind and priority.
-/

namespace OpenEverest.Ui

open Framework

/-- A requirement of a term that is not among its expressions. -/
inductive Requirement where
  | field (expression : AffinityMatchExpression)
  | label (key value : JsString)
  | podNamespace (name : JsString)
  | namespaceSelector (selector : LabelSelector)
  | matchLabelKey (key : JsString)
  | mismatchLabelKey (key : JsString)
  deriving DecidableEq

/-- Where `expressions` is `none`, a node term has no list and a pod term no label selector. -/
@[ext] structure Entry where
  weight : Option Int := none
  topologyKey : Option JsString := none
  expressions : Option (List AffinityMatchExpression)
  further : List Requirement := []
  deriving DecidableEq

def NodeSelectorTerm.entry (term : NodeSelectorTerm) : Entry :=
  { expressions := term.matchExpressions, further := term.matchFields.map .field }

def PreferredNodeSchedulingTerm.entry (term : PreferredNodeSchedulingTerm) : Entry :=
  { weight := term.weight
    expressions := some term.preference.matchExpressions
    further := term.preference.matchFields.map .field }

def LabelSelector.further (selector : LabelSelector) : List Requirement :=
  selector.matchLabels.map fun label => .label label.1 label.2

def PodAffinityTerm.further (term : PodAffinityTerm) : List Requirement :=
  (term.labelSelector.map LabelSelector.further).getD [] ++
    (term.namespaces.map .podNamespace ++
      (term.namespaceSelector.toList.map .namespaceSelector ++
        (term.matchLabelKeys.map .matchLabelKey ++
          term.mismatchLabelKeys.map .mismatchLabelKey)))

def PodAffinityTerm.entry (term : PodAffinityTerm) : Entry :=
  { topologyKey := term.topologyKey
    expressions := term.labelSelector.map LabelSelector.matchExpressions
    further := term.further }

def PreferredPodSchedulingTerm.entry (term : PreferredPodSchedulingTerm) : Entry :=
  { term.podAffinityTerm.entry with weight := term.weight }

/-- Where entries are: at a component, a kind and a priority. -/
@[ext] structure Place where
  component : AffinityComponent
  type : AffinityType
  priority : AffinityPriority
  deriving DecidableEq

def NodeAffinity.part (affinity : NodeAffinity) : AffinityPriority → Option (List Entry)
  | .preferred => affinity.preferred.map (List.map PreferredNodeSchedulingTerm.entry)
  | .required =>
    affinity.required.map fun term => term.nodeSelectorTerms.map NodeSelectorTerm.entry

def PodAffinity.part (affinity : PodAffinity) : AffinityPriority → Option (List Entry)
  | .preferred => affinity.preferred.map (List.map PreferredPodSchedulingTerm.entry)
  | .required => affinity.required.map (List.map PodAffinityTerm.entry)

/-- The list of a kind and a priority, or `none` where it is absent. -/
def Affinity.part (affinity : Affinity) (type : AffinityType) (priority : AffinityPriority) :
    Option (List Entry) :=
  match type with
  | .nodeAffinity => affinity.nodeAffinity.bind (·.part priority)
  | .podAffinity => affinity.podAffinity.bind (·.part priority)
  | .podAntiAffinity => affinity.podAntiAffinity.bind (·.part priority)

namespace PodSchedulingPolicy

variable {M : Type} (policy : PodSchedulingPolicy M)

def componentsOf (engineType : DbEngineType) : Option ComponentAffinities :=
  policy.spec.affinityConfig.bind fun config => config engineType

def affinityOf (engineType : DbEngineType) (component : AffinityComponent) : Option Affinity :=
  (policy.componentsOf engineType).bind fun components => components component

/-- The affinity of a component, for the engine type of the policy. -/
def affinityAt (component : AffinityComponent) : Option Affinity :=
  policy.affinityOf policy.spec.engineType component

def partAt (place : Place) : Option (List Entry) :=
  (policy.affinityAt place.component).bind (·.part place.type place.priority)

def entriesAt (place : Place) : List Entry := (policy.partAt place).getD []

end PodSchedulingPolicy

def AffinityRule.withoutUid (rule : AffinityRule) : AffinityRule := { rule with uid := [] }

def AffinityRule.place (rule : AffinityRule) : Place := ⟨rule.component, rule.type, rule.priority⟩

def Entry.rule (entry : Entry) (place : Place) : AffinityRule :=
  AffinityRule.showing
    { component := place.component, type := place.type, priority := place.priority
      weight := entry.weight, topologyKey := entry.topologyKey }
    (entry.expressions.getD [])

theorem showing_withoutUid (rule : AffinityRule) (expressions : List AffinityMatchExpression) :
    (rule.showing expressions).withoutUid = rule.withoutUid.showing expressions := by
  cases expressions <;> rfl

@[simp] theorem Entry.rule_place (entry : Entry) (place : Place) :
    (entry.rule place).place = place := by
  rw [Entry.rule]
  cases entry.expressions.getD [] <;> rfl

def prioritiesInOrder : List AffinityPriority := [.preferred, .required]

def typesInOrder : List AffinityType := [.nodeAffinity, .podAffinity, .podAntiAffinity]

def componentsInOrder : List AffinityComponent := [.dbNode, .proxy, .configServer]

def Affinity.rules (affinity : Affinity) (component : AffinityComponent) : List AffinityRule :=
  typesInOrder.flatMap fun type => prioritiesInOrder.flatMap fun priority =>
    ((affinity.part type priority).getD []).map fun entry => entry.rule ⟨component, type, priority⟩

section Rules

variable {M : Type} (policy : PodSchedulingPolicy M)

def PodSchedulingPolicy.rules : List AffinityRule :=
  componentsInOrder.flatMap fun component => ((policy.affinityAt component).getD {}).rules component

end Rules

/-- The rules pushed are the given ones, whatever ids they get. -/
def Pushes (pushed : List (JsString → AffinityRule)) (rules : List AffinityRule) : Prop :=
  List.Forall₂ (fun push rule => ∀ uid, (push uid).withoutUid = rule) pushed rules

theorem Pushes.append {pushed pushed' : List (JsString → AffinityRule)}
    {rules rules' : List AffinityRule} (h : Pushes pushed rules) (h' : Pushes pushed' rules') :
    Pushes (pushed ++ pushed') (rules ++ rules') := List.rel_append h h'

theorem pushes_map {α : Type} {push : α → JsString → AffinityRule} {entry : α → Entry}
    {place : Place} (h : ∀ term uid, (push term uid).withoutUid = (entry term).rule place)
    (terms : List α) : Pushes (terms.map push) ((terms.map entry).map fun e => e.rule place) := by
  induction terms with
  | nil => exact List.Forall₂.nil
  | cons term terms ih => exact List.Forall₂.cons (h term) ih

theorem Pushes.ids {pushed : List (JsString → AffinityRule)} {rules : List AffinityRule}
    (h : Pushes pushed rules) (generateShortUID : Nat → JsString) :
    (pushed.mapIdx fun i push => push (generateShortUID i)).map AffinityRule.withoutUid =
      rules := by
  induction h generalizing generateShortUID with
  | nil => rfl
  | cons hpush _ ih =>
    rw [List.mapIdx_cons, List.map_cons, hpush, ih fun i => generateShortUID (i + 1)]

theorem getD_map_list {α β : Type} (terms : Option (List α)) (f : α → β) :
    (terms.map (List.map f)).getD [] = (terms.getD []).map f := by
  cases terms <;> rfl

theorem preferredNodeRule_withoutUid (component : AffinityComponent)
    (term : PreferredNodeSchedulingTerm) (uid : JsString) :
    (preferredNodeRule component term uid).withoutUid =
      term.entry.rule ⟨component, .nodeAffinity, .preferred⟩ := showing_withoutUid _ _

theorem requiredNodeRule_withoutUid (component : AffinityComponent) (term : NodeSelectorTerm)
    (uid : JsString) :
    (requiredNodeRule component term uid).withoutUid =
      term.entry.rule ⟨component, .nodeAffinity, .required⟩ :=
  showing_withoutUid _ _

theorem PodAffinityTerm.matchExpressions_eq (term : PodAffinityTerm) :
    term.matchExpressions = term.entry.expressions.getD [] := by
  rw [PodAffinityTerm.matchExpressions, PodAffinityTerm.entry]
  cases term.labelSelector <;> rfl

theorem preferredPodRule_withoutUid (component : AffinityComponent) (type : AffinityType)
    (term : PreferredPodSchedulingTerm) (uid : JsString) :
    (preferredPodRule component type term uid).withoutUid =
      term.entry.rule ⟨component, type, .preferred⟩ := by
  rw [preferredPodRule, showing_withoutUid, PodAffinityTerm.matchExpressions_eq]
  rfl

theorem requiredPodRule_withoutUid (component : AffinityComponent) (type : AffinityType)
    (term : PodAffinityTerm) (uid : JsString) :
    (requiredPodRule component type term uid).withoutUid =
      term.entry.rule ⟨component, type, .required⟩ := by
  rw [requiredPodRule, showing_withoutUid, PodAffinityTerm.matchExpressions_eq]
  rfl

theorem flatMap_priorities {α : Type} (f : AffinityPriority → List α) :
    prioritiesInOrder.flatMap f = f .preferred ++ f .required := by
  simp [prioritiesInOrder]

theorem nodeAffinityRules_pushes (component : AffinityComponent) (affinity : NodeAffinity) :
    Pushes (nodeAffinityRules component affinity)
      (prioritiesInOrder.flatMap fun priority => ((affinity.part priority).getD []).map
        fun entry => entry.rule ⟨component, .nodeAffinity, priority⟩) := by
  have hrequired : (affinity.part .required).getD [] =
      (affinity.required.getD ⟨[]⟩).nodeSelectorTerms.map NodeSelectorTerm.entry := by
    rw [NodeAffinity.part]
    cases affinity.required <;> rfl
  rw [flatMap_priorities, hrequired, NodeAffinity.part, getD_map_list]
  exact (pushes_map (preferredNodeRule_withoutUid component) _).append
    (pushes_map (requiredNodeRule_withoutUid component) _)

theorem podAffinityRules_pushes (component : AffinityComponent) (type : AffinityType)
    (affinity : PodAffinity) :
    Pushes (podAffinityRules component type affinity)
      (prioritiesInOrder.flatMap fun priority => ((affinity.part priority).getD []).map
        fun entry => entry.rule ⟨component, type, priority⟩) := by
  rw [flatMap_priorities, PodAffinity.part, PodAffinity.part, getD_map_list, getD_map_list]
  exact (pushes_map (preferredPodRule_withoutUid component type) _).append
    (pushes_map (requiredPodRule_withoutUid component type) _)

theorem rulesIfPresent_pushes {α : Type} {rules : α → List (JsString → AffinityRule)}
    (part : AffinityPriority → α → Option (List Entry)) {component : AffinityComponent}
    {type : AffinityType} (affinity : Option α)
    (h : ∀ affinity, Pushes (rules affinity) (prioritiesInOrder.flatMap fun priority =>
      ((part priority affinity).getD []).map fun entry => entry.rule ⟨component, type, priority⟩)) :
    Pushes (rulesIfPresent rules affinity) (prioritiesInOrder.flatMap fun priority =>
      ((affinity.bind (part priority)).getD []).map
        fun entry => entry.rule ⟨component, type, priority⟩) := by
  cases affinity with
  | none => exact List.Forall₂.nil
  | some affinity => exact h affinity

theorem affinityObjectRules_pushes (component : AffinityComponent) (affinity : Affinity) :
    Pushes (affinityObjectRules component affinity) (affinity.rules component) := by
  rw [affinityObjectRules]
  split
  · rename_i hempty
    obtain ⟨nodeAffinity, podAffinity, podAntiAffinity⟩ := affinity
    simp only [Affinity.isEmpty, Bool.and_eq_true, Option.isNone_iff_eq_none] at hempty
    obtain ⟨⟨rfl, rfl⟩, rfl⟩ := hempty
    exact List.Forall₂.nil
  · have hnode := rulesIfPresent_pushes (fun priority affinity => affinity.part priority)
      affinity.nodeAffinity (nodeAffinityRules_pushes component)
    have hpod := rulesIfPresent_pushes (fun priority affinity => affinity.part priority)
      affinity.podAffinity (podAffinityRules_pushes component .podAffinity)
    have hanti := rulesIfPresent_pushes (fun priority affinity => affinity.part priority)
      affinity.podAntiAffinity (podAffinityRules_pushes component .podAntiAffinity)
    simpa [Affinity.rules, typesInOrder, Affinity.part] using hnode.append (hpod.append hanti)

theorem allAffinities_eq {M : Type} (policy : PodSchedulingPolicy M) :
    allAffinities policy =
      componentsInOrder.map fun component => (component, (policy.affinityAt component).getD {}) := by
  obtain ⟨metadata, engineType, affinityConfig⟩ := policy
  cases affinityConfig <;> rfl

theorem dbPayloadToAffinityRules_perm {M : Type} (generateShortUID : Nat → JsString)
    (policy : PodSchedulingPolicy M) :
    ((dbPayloadToAffinityRules generateShortUID policy).map AffinityRule.withoutUid).Perm
      policy.rules := by
  have hpushes : Pushes ((allAffinities policy).flatMap fun affinity =>
      affinityObjectRules affinity.1 affinity.2) policy.rules := by
    rw [allAffinities_eq, PodSchedulingPolicy.rules]
    induction componentsInOrder with
    | nil => exact List.Forall₂.nil
    | cons component components ih =>
      exact (affinityObjectRules_pushes component _).append ih
  rw [← hpushes.ids generateShortUID]
  exact (List.mergeSort_perm _ _).map AffinityRule.withoutUid

def places : List Place :=
  componentsInOrder.flatMap fun component => typesInOrder.flatMap fun type =>
    prioritiesInOrder.map fun priority => ⟨component, type, priority⟩

theorem nodup_places : places.Nodup := by decide

theorem mem_places (place : Place) : place ∈ places := by
  obtain ⟨component, type, priority⟩ := place
  cases component <;> cases type <;> cases priority <;> decide

theorem PodSchedulingPolicy.part_getD {M : Type} (policy : PodSchedulingPolicy M) (place : Place) :
    ((policy.affinityAt place.component).getD {}).part place.type place.priority =
      policy.partAt place := by
  obtain ⟨component, type, priority⟩ := place
  rw [partAt]
  cases policy.affinityAt component with
  | none => cases type <;> rfl
  | some affinity => rfl

theorem PodSchedulingPolicy.rules_eq {M : Type} (policy : PodSchedulingPolicy M) :
    policy.rules = places.flatMap fun place =>
      (policy.entriesAt place).map fun entry => entry.rule place := by
  have hentries : ∀ component type priority,
      (((policy.affinityAt component).getD {}).part type priority).getD [] =
        policy.entriesAt ⟨component, type, priority⟩ := fun component type priority =>
    congrArg (Option.getD · []) (policy.part_getD ⟨component, type, priority⟩)
  simp only [rules, Affinity.rules, hentries, places, List.flatMap_assoc, List.flatMap_map]

theorem flatMap_more_perm {α β : Type} [DecidableEq α] {keys : List α} (hkeys : keys.Nodup)
    {f g : α → List β} {key : α} (hkey : key ∈ keys) (hother : ∀ k ≠ key, g k = f k)
    (more : List β) (hmore : (g key).Perm (more ++ f key)) :
    (keys.flatMap g).Perm (more ++ keys.flatMap f) := by
  have hsplit := List.perm_cons_erase hkey
  have hrest : (keys.erase key).flatMap g = (keys.erase key).flatMap f :=
    List.flatMap_congr fun k hk => hother k (hkeys.mem_erase_iff.mp hk).1
  calc (keys.flatMap g).Perm (g key ++ (keys.erase key).flatMap g) := hsplit.flatMap_right g
    _ = g key ++ (keys.erase key).flatMap f := by rw [hrest]
    List.Perm _ (more ++ f key ++ (keys.erase key).flatMap f) := hmore.append_right _
    _ = more ++ (f key ++ (keys.erase key).flatMap f) := List.append_assoc ..
    List.Perm _ (more ++ keys.flatMap f) := (hsplit.flatMap_right f).symm.append_left more

theorem PodSchedulingPolicy.rules_more {M N : Type} {policy : PodSchedulingPolicy M}
    {more : PodSchedulingPolicy N} {place : Place} {entry : Entry}
    (hother : ∀ other ≠ place, more.entriesAt other = policy.entriesAt other)
    (hplace : (more.entriesAt place).Perm (entry :: policy.entriesAt place)) :
    more.rules.Perm (entry.rule place :: policy.rules) := by
  rw [rules_eq, rules_eq]
  refine flatMap_more_perm nodup_places (mem_places place) ?_ [entry.rule place] ?_
  · intro other hne
    rw [hother other hne]
  · exact hplace.map _

end OpenEverest.Ui
