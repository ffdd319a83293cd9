import OpenEverest.Ui.AffinityInsert

/-!
# Removing a rule from a policy

The term to remove is found by the first expression of each term. It is spliced out, and then the
containers on the way to it are deleted where they have no keys left.
-/

namespace OpenEverest.Ui

open Framework

/-- The key, the operator and the values of the rule, compared with what is there. -/
def sameExpression (key : Option JsString) (operator : Option AffinityOperator)
    (values : Option JsString) (rule : AffinityRule) : Bool :=
  decide (key = rule.key ∧ operator = rule.operator ∧ values = rule.values)

def AffinityMatchExpression.shows (expression : AffinityMatchExpression) (rule : AffinityRule) :
    Bool :=
  sameExpression expression.key expression.operator (expression.values.map joinValues) rule

/-- `matchExpressions[0].key === rule.key && ...`. -/
def firstExpressionMatches (matchExpressions : List AffinityMatchExpression)
    (rule : AffinityRule) : Except TypeError Bool :=
  match matchExpressions with
  | [] => .error (.reading (js "key"))
  | expression :: _ => .ok (expression.shows rule)

def requiredNodeMatches (rule : AffinityRule) (term : NodeSelectorTerm) :
    Except TypeError Bool :=
  match term.matchExpressions with
  | none => .error (.reading (js "length"))
  | some matchExpressions =>
    if matchExpressions.length = 0 then .ok false
    else firstExpressionMatches matchExpressions rule

def requiredPodMatches (rule : AffinityRule) (term : PodAffinityTerm) : Except TypeError Bool :=
  if term.topologyKey = rule.topologyKey then
    match term.labelSelector with
    -- Each of `labelSelector?.` is `undefined`.
    | none => .ok (sameExpression none none none rule)
    | some labelSelector => firstExpressionMatches labelSelector.matchExpressions rule
  else .ok false

def preferredNodeMatches (rule : AffinityRule) (term : PreferredNodeSchedulingTerm) :
    Except TypeError Bool :=
  if term.weight = rule.weight then
    firstExpressionMatches term.preference.matchExpressions rule
  else .ok false

def preferredPodMatches (rule : AffinityRule) (term : PreferredPodSchedulingTerm) :
    Except TypeError Bool :=
  if term.weight = rule.weight then requiredPodMatches rule term.podAffinityTerm
  else .ok false

def spliceFound {α : Type} (terms : Option (List α)) : Option Nat → Option (List α)
  | none => terms
  | some matchingRuleIdx => nonEmpty ((terms.getD []).eraseIdx matchingRuleIdx)

def removeTerm {α : Type} (p : α → Except TypeError Bool) (terms : Option (List α)) :
    Except TypeError (Option (List α)) :=
  (findIndex p (terms.getD [])).map (spliceFound terms)

def NodeAffinity.removeRule (affinity : NodeAffinity) (rule : AffinityRule) :
    Except TypeError NodeAffinity :=
  match rule.priority with
  | .required =>
    (removeTerm (requiredNodeMatches rule)
        (affinity.required.map RequiredNodeSchedulingTerm.nodeSelectorTerms)).map
      fun terms => { affinity with required := terms.map RequiredNodeSchedulingTerm.mk }
  | .preferred =>
    (removeTerm (preferredNodeMatches rule) affinity.preferred).map
      fun terms => { affinity with preferred := terms }

def PodAffinity.removeRule (affinity : PodAffinity) (rule : AffinityRule) :
    Except TypeError PodAffinity :=
  match rule.priority with
  | .required =>
    (removeTerm (requiredPodMatches rule) affinity.required).map
      fun terms => { affinity with required := terms }
  | .preferred =>
    (removeTerm (preferredPodMatches rule) affinity.preferred).map
      fun terms => { affinity with preferred := terms }

/-- A container that is there, after a removal in it; it is deleted when it has no keys. -/
def removeIn {α : Type} (isEmpty : α → Bool) (remove : α → Except TypeError α) :
    Option α → Except TypeError (Option α)
  | none => .ok none
  | some container => (remove container).map fun container =>
      if !isEmpty container then some container else none

def Affinity.removeRule (affinity : Affinity) (rule : AffinityRule) :
    Except TypeError Affinity :=
  match rule.type with
  | .nodeAffinity =>
    (removeIn NodeAffinity.isEmpty (·.removeRule rule) affinity.nodeAffinity).map
      fun nodeAffinity => { affinity with nodeAffinity }
  | .podAffinity =>
    (removeIn PodAffinity.isEmpty (·.removeRule rule) affinity.podAffinity).map
      fun podAffinity => { affinity with podAffinity }
  | .podAntiAffinity =>
    (removeIn PodAffinity.isEmpty (·.removeRule rule) affinity.podAntiAffinity).map
      fun podAntiAffinity => { affinity with podAntiAffinity }

def isEmptyComponents (components : ComponentAffinities) : Bool :=
  [AffinityComponent.dbNode, .proxy, .configServer].all fun component =>
    (components component).isNone

def isEmptyConfig (affinityConfig : AffinityConfig) : Bool :=
  [DbEngineType.psmdb, .pxc, .postgresql].all fun engineType =>
    (affinityConfig engineType).isNone

def removeFromComponents (components : ComponentAffinities) (rule : AffinityRule) :
    Except TypeError ComponentAffinities :=
  (removeIn Affinity.isEmpty (·.removeRule rule) (components rule.component)).map
    (Function.update components rule.component)

def removeFromConfig (affinityConfig : AffinityConfig) (engineType : DbEngineType)
    (rule : AffinityRule) : Except TypeError AffinityConfig :=
  (removeIn isEmptyComponents (removeFromComponents · rule) (affinityConfig engineType)).map
    (Function.update affinityConfig engineType)

def removeRuleInExistingPolicy {M : Type} (policy : PodSchedulingPolicy M) (rule : AffinityRule) :
    Except TypeError (PodSchedulingPolicy M) :=
  (removeIn isEmptyConfig (removeFromConfig · policy.spec.engineType rule)
      policy.spec.affinityConfig).map
    fun affinityConfig => { policy with spec := { policy.spec with affinityConfig } }

/-- The comparison of a term, whatever its kind and priority, by way of its entry. -/
def Entry.matchesRule (entry : Entry) (rule : AffinityRule) : Except TypeError Bool :=
  if entry.weight = rule.weight ∧ entry.topologyKey = rule.topologyKey then
    match entry.expressions with
    | none =>
      if rule.type = .nodeAffinity then .error (.reading (js "length"))
      else .ok (sameExpression none none none rule)
    | some matchExpressions =>
      if rule.type = .nodeAffinity ∧ rule.priority = .required ∧ matchExpressions = [] then
        .ok false
      else firstExpressionMatches matchExpressions rule
  else .ok false

/-- The fields of a rule that is read: a weight where preferred, a topology key for pods. -/
structure AffinityRule.Listed (rule : AffinityRule) : Prop where
  weight : rule.priority = .required → rule.weight = none
  topologyKey : rule.type = .nodeAffinity → rule.topologyKey = none

section Matches

variable {rule : AffinityRule} (h : rule.Listed)
include h

theorem requiredNodeMatches_eq (htype : rule.type = .nodeAffinity)
    (hpriority : rule.priority = .required) (term : NodeSelectorTerm) :
    requiredNodeMatches rule term = term.entry.matchesRule rule := by
  rw [Entry.matchesRule, if_pos ⟨(h.weight hpriority).symm, (h.topologyKey htype).symm⟩,
    requiredNodeMatches, NodeSelectorTerm.entry]
  cases term.matchExpressions <;> simp [htype, hpriority]

theorem preferredNodeMatches_eq (htype : rule.type = .nodeAffinity)
    (hpriority : rule.priority = .preferred) (term : PreferredNodeSchedulingTerm) :
    preferredNodeMatches rule term = term.entry.matchesRule rule := by
  simp [Entry.matchesRule, preferredNodeMatches, PreferredNodeSchedulingTerm.entry,
    h.topologyKey htype, hpriority]

theorem requiredPodMatches_eq (htype : rule.type ≠ .nodeAffinity)
    (hpriority : rule.priority = .required) (term : PodAffinityTerm) :
    requiredPodMatches rule term = term.entry.matchesRule rule := by
  rw [requiredPodMatches, Entry.matchesRule, PodAffinityTerm.entry]
  cases term.labelSelector <;> simp [h.weight hpriority, htype]

end Matches

theorem preferredPodMatches_eq {rule : AffinityRule} (htype : rule.type ≠ .nodeAffinity)
    (term : PreferredPodSchedulingTerm) :
    preferredPodMatches rule term = term.entry.matchesRule rule := by
  obtain ⟨weight, labelSelector, topologyKey, _, _, _, _⟩ := term
  by_cases hweight : weight = rule.weight <;> cases labelSelector <;>
    simp [preferredPodMatches, requiredPodMatches, Entry.matchesRule,
      PreferredPodSchedulingTerm.entry, PodAffinityTerm.entry, htype, hweight]

theorem spliceFound_map {α β : Type} (f : α → β) (terms : Option (List α)) (found : Option Nat) :
    (spliceFound terms found).map (List.map f) =
      spliceFound (terms.map (List.map f)) found := by
  cases found with
  | none => rfl
  | some i => rw [spliceFound, spliceFound, nonEmpty_map, getD_map_list, List.eraseIdx_map]

/-- The list of entries at the place of a rule, without the one found for the rule. -/
def removeEntry (rule : AffinityRule) (part : Option (List Entry)) :
    Except TypeError (Option (List Entry)) :=
  removeTerm (fun entry => entry.matchesRule rule) part

theorem removeTerm_map {α : Type} {p : α → Except TypeError Bool} {entry : α → Entry}
    {rule : AffinityRule} (h : ∀ a, p a = (entry a).matchesRule rule) (terms : Option (List α)) :
    (removeTerm p terms).map (Option.map (List.map entry)) =
      removeEntry rule (terms.map (List.map entry)) := by
  rw [removeEntry, removeTerm, removeTerm, getD_map_list, findIndex_map, funext h]
  cases findIndex (fun a => (entry a).matchesRule rule) (terms.getD []) with
  | error e => rfl
  | ok found => exact congrArg Except.ok (spliceFound_map entry terms found)

section RemoveIn

variable {α β : Type} {isEmpty : α → Bool} {remove : α → Except TypeError α}

/-- What is looked up in a container is removed from it, or else what is looked up is `none`. -/
theorem removeIn_look {look : α → Option (List Entry)} {rule : AffinityRule}
    (hempty : ∀ a, isEmpty a = true → look a = none)
    (hremove : ∀ a, (remove a).map look = removeEntry rule (look a)) (container : Option α) :
    (removeIn isEmpty remove container).map (·.bind look) =
      removeEntry rule (container.bind look) := by
  cases container with
  | none => rfl
  | some a =>
    rw [Option.bind_some, ← hremove, removeIn]
    cases remove a with
    | error e => rfl
    | ok removed => exact congrArg Except.ok (look_unless_empty removed (hempty removed))

theorem removeIn_frame {look : α → Option β} (hempty : ∀ a, isEmpty a = true → look a = none)
    (hremove : ∀ a removed, remove a = .ok removed → look removed = look a)
    {container removed : Option α} (h : removeIn isEmpty remove container = .ok removed) :
    removed.bind look = container.bind look := by
  cases container with
  | none => rw [← Except.ok.inj h]
  | some a =>
    rw [removeIn] at h
    cases hrest : remove a with
    | error e => simp [hrest, Except.map] at h
    | ok rest =>
      simp only [hrest, Except.map, Except.ok.injEq] at h
      rw [← h, Option.bind_some, ← hremove a rest hrest]
      exact look_unless_empty rest (hempty rest)

end RemoveIn

section Kinds

variable {rule : AffinityRule} (h : rule.Listed)

include h in
theorem NodeAffinity.removeRule_part (htype : rule.type = .nodeAffinity)
    (affinity : NodeAffinity) :
    (affinity.removeRule rule).map (·.part rule.priority) =
      removeEntry rule (affinity.part rule.priority) := by
  rw [NodeAffinity.removeRule]
  cases hpriority : rule.priority with
  | required =>
    have hremove := removeTerm_map (requiredNodeMatches_eq h htype hpriority)
      (affinity.required.map RequiredNodeSchedulingTerm.nodeSelectorTerms)
    rw [Option.map_map] at hremove
    refine Eq.trans ?_ hremove
    cases removeTerm (requiredNodeMatches rule) _ with
    | error e => rfl
    | ok terms => cases terms <;> rfl
  | preferred =>
    have hremove := removeTerm_map (preferredNodeMatches_eq h htype hpriority) affinity.preferred
    refine Eq.trans ?_ hremove
    cases removeTerm (preferredNodeMatches rule) _ <;> rfl

include h in
theorem PodAffinity.removeRule_part (htype : rule.type ≠ .nodeAffinity) (affinity : PodAffinity) :
    (affinity.removeRule rule).map (·.part rule.priority) =
      removeEntry rule (affinity.part rule.priority) := by
  rw [PodAffinity.removeRule]
  cases hpriority : rule.priority with
  | required =>
    refine Eq.trans ?_ (removeTerm_map (requiredPodMatches_eq h htype hpriority) affinity.required)
    cases removeTerm (requiredPodMatches rule) _ <;> rfl
  | preferred =>
    refine Eq.trans ?_ (removeTerm_map (preferredPodMatches_eq htype) affinity.preferred)
    cases removeTerm (preferredPodMatches rule) _ <;> rfl

theorem NodeAffinity.removeRule_frame {affinity removed : NodeAffinity}
    (hremove : affinity.removeRule rule = .ok removed) {other : AffinityPriority}
    (hother : other ≠ rule.priority) : removed.part other = affinity.part other := by
  rw [NodeAffinity.removeRule] at hremove
  cases hpriority : rule.priority with
  | required =>
    rw [hpriority] at hremove hother
    obtain ⟨terms, -, rfl⟩ := Except.map_eq_ok hremove
    cases other with
    | preferred => rfl
    | required => exact absurd rfl hother
  | preferred =>
    rw [hpriority] at hremove hother
    obtain ⟨terms, -, rfl⟩ := Except.map_eq_ok hremove
    cases other with
    | required => rfl
    | preferred => exact absurd rfl hother

theorem PodAffinity.removeRule_frame {affinity removed : PodAffinity}
    (hremove : affinity.removeRule rule = .ok removed) {other : AffinityPriority}
    (hother : other ≠ rule.priority) : removed.part other = affinity.part other := by
  rw [PodAffinity.removeRule] at hremove
  cases hpriority : rule.priority with
  | required =>
    rw [hpriority] at hremove hother
    obtain ⟨terms, -, rfl⟩ := Except.map_eq_ok hremove
    cases other with
    | preferred => rfl
    | required => exact absurd rfl hother
  | preferred =>
    rw [hpriority] at hremove hother
    obtain ⟨terms, -, rfl⟩ := Except.map_eq_ok hremove
    cases other with
    | required => rfl
    | preferred => exact absurd rfl hother

end Kinds

def Affinity.kind (affinity : Affinity) : AffinityType → Option (NodeAffinity ⊕ PodAffinity)
  | .nodeAffinity => affinity.nodeAffinity.map Sum.inl
  | .podAffinity => affinity.podAffinity.map Sum.inr
  | .podAntiAffinity => affinity.podAntiAffinity.map Sum.inr

theorem Affinity.part_kind (affinity : Affinity) (type : AffinityType)
    (priority : AffinityPriority) :
    affinity.part type priority =
      (affinity.kind type).bind (Sum.elim (·.part priority) (·.part priority)) := by
  obtain ⟨nodeAffinity, podAffinity, podAntiAffinity⟩ := affinity
  cases type with
  | nodeAffinity => cases nodeAffinity <;> rfl
  | podAffinity => cases podAffinity <;> rfl
  | podAntiAffinity => cases podAntiAffinity <;> rfl

theorem Affinity.kind_eq_none {affinity : Affinity} (hempty : affinity.isEmpty = true)
    (type : AffinityType) : affinity.kind type = none := by
  obtain ⟨nodeAffinity, podAffinity, podAntiAffinity⟩ := affinity
  simp only [isEmpty, Bool.and_eq_true, Option.isNone_iff_eq_none] at hempty
  obtain ⟨⟨rfl, rfl⟩, rfl⟩ := hempty
  cases type <;> rfl

theorem Affinity.part_eq_none {affinity : Affinity} (hempty : affinity.isEmpty = true)
    (type : AffinityType) (priority : AffinityPriority) : affinity.part type priority = none := by
  rw [part_kind, kind_eq_none hempty, Option.bind_none]

theorem isEmptyComponents_lookup {components : ComponentAffinities}
    (hempty : isEmptyComponents components = true) (component : AffinityComponent) :
    components component = none := by
  simp only [isEmptyComponents, List.all_eq_true, Option.isNone_iff_eq_none] at hempty
  exact hempty component (by cases component <;> decide)

theorem isEmptyConfig_lookup {affinityConfig : AffinityConfig}
    (hempty : isEmptyConfig affinityConfig = true) (engineType : DbEngineType) :
    affinityConfig engineType = none := by
  simp only [isEmptyConfig, List.all_eq_true, Option.isNone_iff_eq_none] at hempty
  exact hempty engineType (by cases engineType <;> decide)

section Levels

variable {rule : AffinityRule}

theorem Affinity.removeRule_part (h : rule.Listed) (affinity : Affinity) :
    (affinity.removeRule rule).map (·.part rule.type rule.priority) =
      removeEntry rule (affinity.part rule.type rule.priority) := by
  rw [Affinity.removeRule]
  cases htype : rule.type with
  | nodeAffinity =>
    refine Eq.trans ?_ (removeIn_look
      (fun _ hempty => NodeAffinity.part_of_isEmpty hempty rule.priority)
      (NodeAffinity.removeRule_part h htype) affinity.nodeAffinity)
    cases removeIn NodeAffinity.isEmpty (·.removeRule rule) affinity.nodeAffinity <;> rfl
  | podAffinity =>
    refine Eq.trans ?_ (removeIn_look
      (fun _ hempty => PodAffinity.part_of_isEmpty hempty rule.priority)
      (PodAffinity.removeRule_part h (by simp [htype])) affinity.podAffinity)
    cases removeIn PodAffinity.isEmpty (·.removeRule rule) affinity.podAffinity <;> rfl
  | podAntiAffinity =>
    refine Eq.trans ?_ (removeIn_look
      (fun _ hempty => PodAffinity.part_of_isEmpty hempty rule.priority)
      (PodAffinity.removeRule_part h (by simp [htype])) affinity.podAntiAffinity)
    cases removeIn PodAffinity.isEmpty (·.removeRule rule) affinity.podAntiAffinity <;> rfl

theorem Affinity.removeRule_kind {affinity removed : Affinity}
    (hremove : affinity.removeRule rule = .ok removed) {type : AffinityType}
    (htype : type ≠ rule.type) : removed.kind type = affinity.kind type := by
  rw [Affinity.removeRule] at hremove
  cases hrule : rule.type with
  | nodeAffinity =>
    rw [hrule] at hremove htype
    obtain ⟨nodeAffinity, -, rfl⟩ := Except.map_eq_ok hremove
    cases type with
    | nodeAffinity => exact absurd rfl htype
    | podAffinity => rfl
    | podAntiAffinity => rfl
  | podAffinity =>
    rw [hrule] at hremove htype
    obtain ⟨podAffinity, -, rfl⟩ := Except.map_eq_ok hremove
    cases type with
    | nodeAffinity => rfl
    | podAffinity => exact absurd rfl htype
    | podAntiAffinity => rfl
  | podAntiAffinity =>
    rw [hrule] at hremove htype
    obtain ⟨podAntiAffinity, -, rfl⟩ := Except.map_eq_ok hremove
    cases type with
    | nodeAffinity => rfl
    | podAffinity => rfl
    | podAntiAffinity => exact absurd rfl htype

theorem Affinity.removeRule_frame {affinity removed : Affinity}
    (hremove : affinity.removeRule rule = .ok removed) {priority : AffinityPriority}
    (hpriority : priority ≠ rule.priority) :
    removed.part rule.type priority = affinity.part rule.type priority := by
  rw [Affinity.removeRule] at hremove
  cases hrule : rule.type with
  | nodeAffinity =>
    rw [hrule] at hremove
    obtain ⟨nodeAffinity, hremoved, rfl⟩ := Except.map_eq_ok hremove
    exact removeIn_frame (fun _ hempty => NodeAffinity.part_of_isEmpty hempty priority)
      (fun _ _ h => NodeAffinity.removeRule_frame h hpriority) hremoved
  | podAffinity =>
    rw [hrule] at hremove
    obtain ⟨podAffinity, hremoved, rfl⟩ := Except.map_eq_ok hremove
    exact removeIn_frame (fun _ hempty => PodAffinity.part_of_isEmpty hempty priority)
      (fun _ _ h => PodAffinity.removeRule_frame h hpriority) hremoved
  | podAntiAffinity =>
    rw [hrule] at hremove
    obtain ⟨podAntiAffinity, hremoved, rfl⟩ := Except.map_eq_ok hremove
    exact removeIn_frame (fun _ hempty => PodAffinity.part_of_isEmpty hempty priority)
      (fun _ _ h => PodAffinity.removeRule_frame h hpriority) hremoved

theorem removeFromComponents_part (h : rule.Listed) (components : ComponentAffinities) :
    (removeFromComponents components rule).map
        (fun components => (components rule.component).bind (·.part rule.type rule.priority)) =
      removeEntry rule ((components rule.component).bind (·.part rule.type rule.priority)) := by
  rw [← removeIn_look (fun _ hempty => Affinity.part_eq_none hempty _ _)
    (Affinity.removeRule_part h), removeFromComponents]
  cases removeIn Affinity.isEmpty (·.removeRule rule) (components rule.component) with
  | error e => rfl
  | ok affinity => simp [Except.map]

theorem removeFromComponents_look {β : Type} {look : Affinity → Option β}
    (hempty : ∀ affinity, affinity.isEmpty = true → look affinity = none)
    (hremove : ∀ affinity removed, affinity.removeRule rule = .ok removed →
      look removed = look affinity)
    {components removed : ComponentAffinities}
    (h : removeFromComponents components rule = .ok removed) :
    (removed rule.component).bind look = (components rule.component).bind look := by
  obtain ⟨affinity, hremoved, rfl⟩ := Except.map_eq_ok h
  rw [Function.update_self]
  exact removeIn_frame hempty hremove hremoved

theorem removeFromComponents_frame {components removed : ComponentAffinities}
    (h : removeFromComponents components rule = .ok removed) {component : AffinityComponent}
    (hcomponent : component ≠ rule.component) : removed component = components component := by
  obtain ⟨affinity, -, rfl⟩ := Except.map_eq_ok h
  exact Function.update_of_ne hcomponent _ _

theorem removeFromConfig_part (h : rule.Listed) (engineType : DbEngineType)
    (affinityConfig : AffinityConfig) :
    (removeFromConfig affinityConfig engineType rule).map
        (fun affinityConfig => (affinityConfig engineType).bind fun components =>
          (components rule.component).bind (·.part rule.type rule.priority)) =
      removeEntry rule ((affinityConfig engineType).bind fun components =>
        (components rule.component).bind (·.part rule.type rule.priority)) := by
  have hempty : ∀ components, isEmptyComponents components = true →
      (components rule.component).bind (·.part rule.type rule.priority) = none := by
    intro components hempty
    rw [isEmptyComponents_lookup hempty]
    rfl
  rw [← removeIn_look hempty (removeFromComponents_part h), removeFromConfig]
  cases removeIn isEmptyComponents (removeFromComponents · rule) (affinityConfig engineType) with
  | error e => rfl
  | ok components => simp [Except.map]

theorem removeFromConfig_look {β : Type} {look : ComponentAffinities → Option β}
    (hempty : ∀ components, isEmptyComponents components = true → look components = none)
    (hremove : ∀ components removed, removeFromComponents components rule = .ok removed →
      look removed = look components)
    {engineType : DbEngineType} {affinityConfig removed : AffinityConfig}
    (h : removeFromConfig affinityConfig engineType rule = .ok removed) :
    (removed engineType).bind look = (affinityConfig engineType).bind look := by
  obtain ⟨components, hremoved, rfl⟩ := Except.map_eq_ok h
  rw [Function.update_self]
  exact removeIn_frame hempty hremove hremoved

theorem removeFromConfig_frame {engineType : DbEngineType} {affinityConfig removed : AffinityConfig}
    (h : removeFromConfig affinityConfig engineType rule = .ok removed) {other : DbEngineType}
    (hother : other ≠ engineType) : removed other = affinityConfig other := by
  obtain ⟨components, -, rfl⟩ := Except.map_eq_ok h
  exact Function.update_of_ne hother _ _

end Levels

section Policy

variable {M : Type} {policy removed : PodSchedulingPolicy M} {rule : AffinityRule}

theorem removeRule_partAt (policy : PodSchedulingPolicy M) (h : rule.Listed) :
    (removeRuleInExistingPolicy policy rule).map (·.partAt rule.place) =
      removeEntry rule (policy.partAt rule.place) := by
  have hlook : ∀ policy : PodSchedulingPolicy M, policy.partAt rule.place =
      policy.spec.affinityConfig.bind fun affinityConfig =>
        (affinityConfig policy.spec.engineType).bind fun components =>
          (components rule.component).bind (·.part rule.type rule.priority) := by
    intro policy
    rw [PodSchedulingPolicy.partAt, PodSchedulingPolicy.affinityAt, PodSchedulingPolicy.affinityOf,
      PodSchedulingPolicy.componentsOf, Option.bind_assoc, Option.bind_assoc]
    rfl
  have hempty : ∀ affinityConfig, isEmptyConfig affinityConfig = true →
      ((affinityConfig policy.spec.engineType).bind fun components =>
        (components rule.component).bind (·.part rule.type rule.priority)) = none := by
    intro affinityConfig hempty
    rw [isEmptyConfig_lookup hempty]
    rfl
  rw [hlook policy, ← removeIn_look hempty (removeFromConfig_part h policy.spec.engineType),
    removeRuleInExistingPolicy]
  cases removeIn isEmptyConfig (removeFromConfig · policy.spec.engineType rule)
      policy.spec.affinityConfig with
  | error e => rfl
  | ok affinityConfig => exact congrArg Except.ok (hlook _)

variable (h : removeRuleInExistingPolicy policy rule = .ok removed)
include h

theorem removeRule_spec :
    removed.metadata = policy.metadata ∧ removed.spec.engineType = policy.spec.engineType := by
  obtain ⟨affinityConfig, -, rfl⟩ := Except.map_eq_ok h
  exact ⟨rfl, rfl⟩

theorem removeRule_config {β : Type} {look : AffinityConfig → Option β}
    (hempty : ∀ affinityConfig, isEmptyConfig affinityConfig = true → look affinityConfig = none)
    (hremove : ∀ affinityConfig removed,
      removeFromConfig affinityConfig policy.spec.engineType rule = .ok removed →
        look removed = look affinityConfig) :
    removed.spec.affinityConfig.bind look = policy.spec.affinityConfig.bind look := by
  obtain ⟨affinityConfig, hremoved, rfl⟩ := Except.map_eq_ok h
  exact removeIn_frame hempty hremove hremoved

theorem removeRule_componentsOf {engineType : DbEngineType}
    (hengine : engineType ≠ policy.spec.engineType) :
    removed.componentsOf engineType = policy.componentsOf engineType :=
  removeRule_config h (fun _ hempty => isEmptyConfig_lookup hempty engineType)
    fun _ _ hremove => removeFromConfig_frame hremove hengine

theorem removeRule_components {β : Type} {look : ComponentAffinities → Option β}
    (hempty : ∀ components, isEmptyComponents components = true → look components = none)
    (hremove : ∀ components removed, removeFromComponents components rule = .ok removed →
      look removed = look components) :
    (removed.componentsOf policy.spec.engineType).bind look =
      (policy.componentsOf policy.spec.engineType).bind look := by
  rw [PodSchedulingPolicy.componentsOf, PodSchedulingPolicy.componentsOf, Option.bind_assoc,
    Option.bind_assoc]
  exact removeRule_config h
    (fun _ hempty => by rw [isEmptyConfig_lookup hempty policy.spec.engineType]; rfl)
    fun _ _ hconfig => removeFromConfig_look hempty hremove hconfig

theorem removeRule_affinityAt {component : AffinityComponent}
    (hcomponent : component ≠ rule.component) :
    removed.affinityAt component = policy.affinityAt component := by
  rw [PodSchedulingPolicy.affinityAt, PodSchedulingPolicy.affinityAt, (removeRule_spec h).2]
  exact removeRule_components h
    (fun _ hempty => isEmptyComponents_lookup hempty component)
    fun _ _ hremove => removeFromComponents_frame hremove hcomponent

theorem removeRule_affinity {β : Type} {look : Affinity → Option β}
    (hempty : ∀ affinity, affinity.isEmpty = true → look affinity = none)
    (hremove : ∀ affinity removed, affinity.removeRule rule = .ok removed →
      look removed = look affinity) :
    (removed.affinityAt rule.component).bind look =
      (policy.affinityAt rule.component).bind look := by
  rw [PodSchedulingPolicy.affinityAt, PodSchedulingPolicy.affinityAt, (removeRule_spec h).2,
    PodSchedulingPolicy.affinityOf, PodSchedulingPolicy.affinityOf, Option.bind_assoc,
    Option.bind_assoc]
  exact removeRule_components h
    (fun _ hempty => by rw [isEmptyComponents_lookup hempty rule.component]; rfl)
    fun _ _ hcomponents => removeFromComponents_look hempty hremove hcomponents

theorem removeRule_kindAt {type : AffinityType} (htype : type ≠ rule.type) :
    (removed.affinityAt rule.component).bind (·.kind type) =
      (policy.affinityAt rule.component).bind (·.kind type) :=
  removeRule_affinity h (fun _ hempty => Affinity.kind_eq_none hempty type)
    fun _ _ hremove => Affinity.removeRule_kind hremove htype

theorem removeRule_others {place : Place} (hplace : place ≠ rule.place) :
    removed.partAt place = policy.partAt place := by
  obtain ⟨component, type, priority⟩ := place
  rw [PodSchedulingPolicy.partAt, PodSchedulingPolicy.partAt]
  by_cases hcomponent : component = rule.component
  · subst hcomponent
    by_cases htype : type = rule.type
    · subst htype
      have hpriority : priority ≠ rule.priority := by
        rintro rfl
        exact hplace rfl
      exact removeRule_affinity h (fun _ hempty => Affinity.part_eq_none hempty _ _)
        fun _ _ hremove => Affinity.removeRule_frame hremove hpriority
    · have hkind := removeRule_kindAt h htype
      simp only [Affinity.part_kind, ← Option.bind_assoc, hkind]
  · rw [removeRule_affinityAt h hcomponent]

end Policy

end OpenEverest.Ui
