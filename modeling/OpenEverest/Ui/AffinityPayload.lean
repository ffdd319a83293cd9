import OpenEverest.Ui.AffinityEntries

/-!
# Rules written and read back

Each rule becomes one entry at its own place, and an entry written from a rule reads back as the
rule, without the fields that do not apply to its kind and priority.
-/

namespace OpenEverest.Ui

open Framework

section Partition

variable {α β : Type} [DecidableEq β]

theorem flatMap_filter_perm (f : α → β) (keys : List β) (hkeys : keys.Nodup) (l : List α)
    (h : ∀ a ∈ l, f a ∈ keys) : (keys.flatMap fun k => l.filter fun a => f a = k).Perm l := by
  induction keys generalizing l with
  | nil =>
    cases l with
    | nil => exact List.Perm.refl _
    | cons a l => exact absurd (h a List.mem_cons_self) List.not_mem_nil
  | cons k keys ih =>
    obtain ⟨hk, hkeys⟩ := List.nodup_cons.mp hkeys
    have hrest : ∀ k' ∈ keys, (l.filter fun a => f a = k') =
        (l.filter fun a => !decide (f a = k)).filter fun a => f a = k' := by
      intro k' hk'
      rw [List.filter_filter]
      apply List.filter_congr
      intro a _
      have hne : k' ≠ k := fun heq => hk (heq ▸ hk')
      by_cases ha : f a = k'
      · simp [ha, hne]
      · simp [ha]
    have hmem : ∀ a ∈ l.filter fun a => !decide (f a = k), f a ∈ keys := by
      intro a ha
      obtain ⟨hal, hak⟩ := List.mem_filter.mp ha
      exact (List.mem_cons.mp (h a hal)).resolve_left (by simpa using hak)
    rw [List.flatMap_cons, List.flatMap_congr hrest]
    exact ((ih hkeys _ hmem).append_left _).trans (List.filter_append_perm _ l)

end Partition

namespace AffinityRule

variable (rule : AffinityRule)

def entry : Entry where
  weight := if rule.priority = .preferred then rule.weight else none
  topologyKey := if rule.type = .nodeAffinity then none else rule.topologyKey
  expressions :=
    if rule.type = .nodeAffinity then some (nodeMatchExpressions rule)
    else (podAffinityTermOf rule).labelSelector.map LabelSelector.matchExpressions

def hasExpression : Bool := decide (rule.type = .nodeAffinity) || truthy rule.key

/-- The rule without the fields that do not apply to its kind, priority and operator. -/
def shown : AffinityRule where
  component := rule.component
  type := rule.type
  priority := rule.priority
  weight := if rule.priority = .preferred then rule.weight else none
  topologyKey := if rule.type = .nodeAffinity then none else rule.topologyKey
  key := if rule.hasExpression then rule.key else none
  operator := if rule.hasExpression then rule.operator else none
  values :=
    if rule.hasExpression && doesAffinityOperatorRequireValues rule.operator then
      some (rule.values.getD [])
    else none

theorem joinValues_valuesListOf : joinValues (valuesListOf rule) = rule.values.getD [] := by
  rw [valuesListOf]
  split
  · exact joinValues_splitValues _
  · rename_i hnil
    rw [not_not.mp hnil]
    rfl

/-- Where values are required, a pod rule with a key has some. -/
def HasValues : Prop :=
  truthy rule.key = true → doesAffinityOperatorRequireValues rule.operator = true →
    truthy rule.values = true

theorem valuesListOf_ne_nil (h : truthy rule.values = true) : 0 < (valuesListOf rule).length := by
  rw [valuesListOf]
  rw [if_pos (of_decide_eq_true h)]
  exact List.length_pos_iff.mpr (List.splitOn_ne_nil 44 _)

theorem entry_rule (hvalues : rule.HasValues) : rule.entry.rule rule.place = rule.shown := by
  by_cases hnode : rule.type = .nodeAffinity
  · have hhas : rule.hasExpression = true := by simp [hasExpression, hnode]
    cases hrequires : doesAffinityOperatorRequireValues rule.operator with
    | false =>
      simp [Entry.rule, entry, hnode, nodeMatchExpressions, AffinityRule.showing, place, shown,
        hhas, hrequires]
    | true =>
      simp [Entry.rule, entry, hnode, nodeMatchExpressions, AffinityRule.showing, place, shown,
        hhas, hrequires, joinValues_valuesListOf]
  · have hhas : rule.hasExpression = truthy rule.key := by simp [hasExpression, hnode]
    cases hkey : truthy rule.key with
    | false =>
      simp [Entry.rule, entry, hnode, podAffinityTermOf, generatePodAffinityTerm, hkey,
        AffinityRule.showing, place, shown, hhas]
    | true =>
      cases hrequires : doesAffinityOperatorRequireValues rule.operator with
      | false =>
        simp [Entry.rule, entry, hnode, podAffinityTermOf, generatePodAffinityTerm, hkey,
          hrequires, AffinityRule.showing, place, shown, hhas]
      | true =>
        have hlength := rule.valuesListOf_ne_nil (hvalues hkey hrequires)
        simp [Entry.rule, entry, hnode, podAffinityTermOf, generatePodAffinityTerm, hkey,
          hrequires, AffinityRule.showing, place, shown, hhas, hlength, joinValues_valuesListOf]

end AffinityRule

@[simp] theorem podAffinityTermOf_further (rule : AffinityRule) : (podAffinityTermOf rule).further = [] := by
  by_cases hkey : truthy rule.key = true <;>
    simp [PodAffinityTerm.further, podAffinityTermOf, generatePodAffinityTerm, hkey,
      LabelSelector.further]

@[simp] theorem podAffinityTermOf_topologyKey (rule : AffinityRule) :
    (podAffinityTermOf rule).topologyKey = rule.topologyKey := rfl

namespace AffinityRulesPayloadMap

variable (map : AffinityRulesPayloadMap)

def entries : AffinityType → AffinityPriority → List Entry
  | .nodeAffinity, .preferred => map.nodeAffinity.preferred.map PreferredNodeSchedulingTerm.entry
  | .nodeAffinity, .required =>
    map.nodeAffinity.required.nodeSelectorTerms.map NodeSelectorTerm.entry
  | .podAffinity, .preferred => map.podAffinity.preferred.map PreferredPodSchedulingTerm.entry
  | .podAffinity, .required => map.podAffinity.required.map PodAffinityTerm.entry
  | .podAntiAffinity, .preferred =>
    map.podAntiAffinity.preferred.map PreferredPodSchedulingTerm.entry
  | .podAntiAffinity, .required => map.podAntiAffinity.required.map PodAffinityTerm.entry

theorem entries_push (rule : AffinityRule) (type : AffinityType) (priority : AffinityPriority) :
    (map.push rule).entries type priority =
      map.entries type priority ++
        if rule.type = type ∧ rule.priority = priority then [rule.entry] else [] := by
  obtain ⟨component, rtype, rpriority, weight, topologyKey, key, operator, values, uid⟩ := rule
  cases rtype <;> cases rpriority <;> cases type <;> cases priority <;>
    simp [push, entries, NodeTerms.push, PodTerms.push, AffinityRule.entry,
      PreferredNodeSchedulingTerm.entry, NodeSelectorTerm.entry,
      PreferredPodSchedulingTerm.entry, PodAffinityTerm.entry]

theorem entries_foldl (rules : List AffinityRule) (type : AffinityType)
    (priority : AffinityPriority) :
    (rules.foldl push map).entries type priority =
      map.entries type priority ++
        (rules.filter fun rule => rule.type = type ∧ rule.priority = priority).map
          AffinityRule.entry := by
  induction rules generalizing map with
  | nil => simp
  | cons rule rules ih =>
    rw [List.foldl_cons, ih, entries_push, List.append_assoc, List.filter_cons]
    by_cases h : rule.type = type ∧ rule.priority = priority
    · simp [h]
    · simp [h]

end AffinityRulesPayloadMap

theorem nonEmpty_map {α β : Type} (f : α → β) (terms : List α) :
    (nonEmpty terms).map (List.map f) = nonEmpty (terms.map f) := by
  cases terms <;> rfl

theorem nonEmpty_getD {α : Type} (terms : List α) : (nonEmpty terms).getD [] = terms := by
  cases terms <;> rfl

theorem NodeTerms.part_toAffinity (terms : NodeTerms) (priority : AffinityPriority) :
    terms.toAffinity.part priority = nonEmpty (match priority with
      | .preferred => terms.preferred.map PreferredNodeSchedulingTerm.entry
      | .required => terms.required.nodeSelectorTerms.map NodeSelectorTerm.entry) := by
  obtain ⟨preferred, ⟨required⟩⟩ := terms
  cases priority with
  | preferred => exact nonEmpty_map _ _
  | required => cases required <;> rfl

theorem PodTerms.part_toAffinity (terms : PodTerms) (priority : AffinityPriority) :
    terms.toAffinity.part priority = nonEmpty (match priority with
      | .preferred => terms.preferred.map PreferredPodSchedulingTerm.entry
      | .required => terms.required.map PodAffinityTerm.entry) := by
  cases priority <;> exact nonEmpty_map _ _

theorem NodeAffinity.part_of_isEmpty {affinity : NodeAffinity} (h : affinity.isEmpty = true)
    (priority : AffinityPriority) : affinity.part priority = none := by
  obtain ⟨preferred, required⟩ := affinity
  cases preferred <;> cases required <;> simp_all [NodeAffinity.isEmpty]
  cases priority <;> rfl

theorem PodAffinity.part_of_isEmpty {affinity : PodAffinity} (h : affinity.isEmpty = true)
    (priority : AffinityPriority) : affinity.part priority = none := by
  obtain ⟨preferred, required⟩ := affinity
  cases preferred <;> cases required <;> simp_all [PodAffinity.isEmpty]
  cases priority <;> rfl

theorem look_unless_empty {α β : Type} (container : α) {isEmpty : α → Bool}
    {look : α → Option β} (h : isEmpty container = true → look container = none) :
    (if !isEmpty container then some container else none).bind look = look container := by
  cases hempty : isEmpty container with
  | false => rfl
  | true => exact (h hempty).symm

/-- The list written for a kind and a priority is of the entries of its rules, in their order. -/
theorem affinityRulesToDbPayload_part (rules : List AffinityRule) (type : AffinityType)
    (priority : AffinityPriority) :
    (affinityRulesToDbPayload rules).part type priority =
      nonEmpty ((rules.filter fun rule => rule.type = type ∧ rule.priority = priority).map
        AffinityRule.entry) := by
  have hentries := ({} : AffinityRulesPayloadMap).entries_foldl rules type priority
  have hnil : ({} : AffinityRulesPayloadMap).entries type priority = [] := by
    cases type <;> cases priority <;> rfl
  rw [hnil, List.nil_append] at hentries
  rw [← hentries, affinityRulesToDbPayload]
  cases type with
  | nodeAffinity =>
    exact (look_unless_empty _ fun h => NodeAffinity.part_of_isEmpty h priority).trans
      ((NodeTerms.part_toAffinity _ _).trans (by cases priority <;> rfl))
  | podAffinity =>
    exact (look_unless_empty _ fun h => PodAffinity.part_of_isEmpty h priority).trans
      ((PodTerms.part_toAffinity _ _).trans (by cases priority <;> rfl))
  | podAntiAffinity =>
    exact (look_unless_empty _ fun h => PodAffinity.part_of_isEmpty h priority).trans
      ((PodTerms.part_toAffinity _ _).trans (by cases priority <;> rfl))

theorem affinityRulesToDbPayload_rules {component : AffinityComponent} {rules : List AffinityRule}
    (hcomponent : ∀ rule ∈ rules, rule.component = component)
    (hvalues : ∀ rule ∈ rules, rule.HasValues) :
    ((affinityRulesToDbPayload rules).rules component).Perm (rules.map AffinityRule.shown) := by
  have hpart : ∀ type priority,
      (((affinityRulesToDbPayload rules).part type priority).getD []).map
          (fun entry => entry.rule ⟨component, type, priority⟩) =
        ((rules.filter fun rule => rule.type = type).filter
          fun rule => rule.priority = priority).map AffinityRule.shown := by
    intro type priority
    rw [affinityRulesToDbPayload_part, nonEmpty_getD, List.map_map, List.filter_filter]
    have hfilter : (rules.filter fun rule => rule.type = type ∧ rule.priority = priority) =
        rules.filter fun rule => rule.priority = priority && rule.type = type := by
      apply List.filter_congr
      intro rule _
      simp [and_comm]
    rw [hfilter]
    apply List.map_congr_left
    intro rule hrule
    simp only [List.mem_filter, Bool.and_eq_true, decide_eq_true_eq] at hrule
    obtain ⟨hmem, hpriority, htype⟩ := hrule
    have hplace : rule.place = ⟨component, type, priority⟩ := by
      rw [AffinityRule.place, hcomponent rule hmem, htype, hpriority]
    exact hplace ▸ rule.entry_rule (hvalues rule hmem)
  have hpriorities : ∀ l : List AffinityRule,
      (prioritiesInOrder.flatMap fun priority => l.filter fun rule => rule.priority = priority).Perm
        l := fun l => flatMap_filter_perm AffinityRule.priority prioritiesInOrder (by decide) l
          fun rule _ => by cases rule.priority <;> decide
  have htypes := flatMap_filter_perm AffinityRule.type typesInOrder (by decide) rules
    fun rule _ => by cases rule.type <;> decide
  rw [Affinity.rules]
  simp only [hpart, ← List.map_flatMap]
  exact ((List.Perm.flatMap_left _ fun type _ => hpriorities _).trans htypes).map _

/-- An empty text stands for an absent one. -/
def filled (s : Option JsString) : Option JsString := if truthy s then s else none

def AffinityRule.plain (rule : AffinityRule) : AffinityRule :=
  { rule with
    topologyKey := filled rule.topologyKey, key := filled rule.key, values := filled rule.values
    uid := [] }

/-- A rule with the fields of its kind and priority, and no others. -/
structure AffinityRule.WellFormed (rule : AffinityRule) : Prop where
  weight : rule.weight.isSome = decide (rule.priority = .preferred)
  topologyKey : truthy rule.topologyKey = decide (rule.type ≠ .nodeAffinity)
  node_key : rule.type = .nodeAffinity → truthy rule.key = true
  operator : rule.operator.isSome = truthy rule.key
  values : truthy rule.values = doesAffinityOperatorRequireValues rule.operator

namespace AffinityRule.WellFormed

variable {rule : AffinityRule}

theorem hasValues (h : rule.WellFormed) : rule.HasValues :=
  fun _ hrequires => h.values.trans hrequires

theorem filled_eq {s : Option JsString} (h : truthy s = true) : filled s = some (s.getD []) := by
  cases s with
  | none => exact absurd h (by decide)
  | some s => rw [filled, if_pos h, Option.getD_some]

theorem filled_eq_none {s : Option JsString} (h : truthy s = false) : filled s = none := by
  rw [filled, h]
  rfl

theorem shown_eq (h : rule.WellFormed) : rule.shown = rule.plain := by
  have hweight : (if rule.priority = .preferred then rule.weight else none) = rule.weight := by
    split
    · rfl
    · rename_i hpriority
      have hnone := h.weight
      simp only [hpriority, decide_false, Option.isSome_eq_false_iff,
        Option.isNone_iff_eq_none] at hnone
      exact hnone.symm
  have htopology : (if rule.type = .nodeAffinity then none else rule.topologyKey) =
      filled rule.topologyKey := by
    by_cases hnode : rule.type = .nodeAffinity <;>
      simp [filled, h.topologyKey, hnode]
  have hhas : rule.hasExpression = truthy rule.key := by
    by_cases hnode : rule.type = .nodeAffinity
    · simp [hasExpression, hnode, h.node_key hnode]
    · simp [hasExpression, hnode]
  have hkey : (if rule.hasExpression = true then rule.key else none) = filled rule.key := by
    rw [hhas, filled]
  have hoperator : (if rule.hasExpression = true then rule.operator else none) =
      rule.operator := by
    rw [hhas, ← h.operator]
    cases rule.operator <;> rfl
  have hvalues : (if (rule.hasExpression && doesAffinityOperatorRequireValues rule.operator) = true
      then some (rule.values.getD []) else none) = filled rule.values := by
    cases hrequires : doesAffinityOperatorRequireValues rule.operator with
    | false => simp [filled_eq_none (h.values.trans hrequires)]
    | true =>
      have hsome : rule.hasExpression = true := by
        rw [hhas, ← h.operator]
        cases hop : rule.operator with
        | none => simp [hop, doesAffinityOperatorRequireValues] at hrequires
        | some _ => rfl
      rw [hsome, filled_eq (h.values.trans hrequires)]
      rfl
  rw [shown, plain, hweight, htopology, hkey, hoperator, hvalues]

end AffinityRule.WellFormed

theorem Affinity.component_of_mem_rules {affinity : Affinity} {component : AffinityComponent}
    {rule : AffinityRule} (h : rule ∈ affinity.rules component) : rule.component = component := by
  simp only [Affinity.rules, List.mem_flatMap, List.mem_map] at h
  obtain ⟨type, _, priority, _, entry, _, rfl⟩ := h
  exact congrArg Place.component (entry.rule_place _)

namespace PodSchedulingPolicy

variable {M : Type} (policy : PodSchedulingPolicy M)

def withAffinity (component : AffinityComponent) (affinity : Affinity) : PodSchedulingPolicy M :=
  let affinityConfig := policy.spec.affinityConfig.getD fun _ => none
  let components := (affinityConfig policy.spec.engineType).getD fun _ => none
  let updated := Function.update components component (some affinity)
  { policy with
    spec := { policy.spec with
      affinityConfig := some (Function.update affinityConfig policy.spec.engineType updated) } }

theorem affinityAt_withAffinity (component : AffinityComponent) (affinity : Affinity)
    (other : AffinityComponent) :
    (policy.withAffinity component affinity).affinityAt other =
      if other = component then some affinity else policy.affinityAt other := by
  have hconfig : (policy.spec.affinityConfig.getD fun _ => none) policy.spec.engineType =
      policy.componentsOf policy.spec.engineType := by
    rw [componentsOf]
    cases policy.spec.affinityConfig <;> rfl
  have hcomponents : (policy.withAffinity component affinity).affinityAt other =
      Function.update ((policy.componentsOf policy.spec.engineType).getD fun _ => none) component
        (some affinity) other := by
    rw [← hconfig]
    simp [affinityAt, affinityOf, componentsOf, withAffinity]
  rw [hcomponents, Function.update_apply]
  split
  · rfl
  · rw [affinityAt, affinityOf]
    cases policy.componentsOf policy.spec.engineType <;> rfl

/-- The rules of the other components stay, and those of the affinity replace the component's. -/
theorem rules_withAffinity (component : AffinityComponent) (affinity : Affinity) :
    (policy.withAffinity component affinity).rules.Perm
      (affinity.rules component ++
        policy.rules.filter fun rule => component ≠ rule.component) := by
  have horder : componentsInOrder.Perm
      (component :: componentsInOrder.filter (component ≠ ·)) := by
    cases component <;> decide
  refine (horder.flatMap_right _).trans ?_
  rw [List.flatMap_cons, affinityAt_withAffinity, if_pos rfl, rules, List.filter_flatMap]
  apply List.Perm.append_left
  have hsplit : (componentsInOrder.flatMap fun other =>
        (((policy.affinityAt other).getD {}).rules other).filter
          fun rule => component ≠ rule.component) =
      (componentsInOrder.filter (component ≠ ·)).flatMap fun other =>
        ((policy.affinityAt other).getD {}).rules other := by
    generalize componentsInOrder = components
    induction components with
    | nil => rfl
    | cons other others ih =>
      rw [List.flatMap_cons, ih, List.filter_cons]
      by_cases hother : component = other
      · have hnil : ((((policy.affinityAt other).getD {}).rules other).filter
            fun rule => component ≠ rule.component) = [] := by
          apply List.filter_eq_nil_iff.mpr
          intro rule hrule
          simp [Affinity.component_of_mem_rules hrule, hother]
        rw [hnil]
        simp [hother]
      · have hall : ((((policy.affinityAt other).getD {}).rules other).filter
            fun rule => component ≠ rule.component) =
              ((policy.affinityAt other).getD {}).rules other := by
          apply List.filter_eq_self.mpr
          intro rule hrule
          simp [Affinity.component_of_mem_rules hrule, hother]
        rw [hall]
        simp [hother]
  rw [hsplit]
  apply List.Perm.of_eq
  apply List.flatMap_congr
  intro other hother
  have hne : other ≠ component := fun heq =>
    (of_decide_eq_true (List.mem_filter.mp hother).2) heq.symm
  rw [affinityAt_withAffinity, if_neg hne]

end PodSchedulingPolicy

/-- Rules written for a component are read back as they were, besides the rules of the other
components. -/
theorem dbPayloadToAffinityRules_written {M : Type}
    (generateShortUID generateShortUID' : Nat → JsString) (policy : PodSchedulingPolicy M)
    {component : AffinityComponent} {affinityRules : List AffinityRule}
    (hcomponent : ∀ rule ∈ affinityRules, rule.component = component)
    (hrules : ∀ rule ∈ affinityRules, rule.WellFormed) :
    ((dbPayloadToAffinityRules generateShortUID
        (policy.withAffinity component (affinityRulesToDbPayload affinityRules))).map
          AffinityRule.withoutUid).Perm
      (affinityRules.map AffinityRule.plain ++
        ((dbPayloadToAffinityRules generateShortUID' policy).map AffinityRule.withoutUid).filter
          fun rule => component ≠ rule.component) := by
  have hplain : affinityRules.map AffinityRule.shown = affinityRules.map AffinityRule.plain :=
    List.map_congr_left fun rule hrule => (hrules rule hrule).shown_eq
  have hwritten := affinityRulesToDbPayload_rules hcomponent
    fun rule hrule => (hrules rule hrule).hasValues
  rw [hplain] at hwritten
  exact (dbPayloadToAffinityRules_perm generateShortUID _).trans
    ((policy.rules_withAffinity component _).trans
      (hwritten.append ((dbPayloadToAffinityRules_perm generateShortUID' policy).symm.filter _)))

def sampleRules : List AffinityRule :=
  [{ component := .proxy, type := .nodeAffinity, priority := .required, key := some (js "zone")
     operator := some .In, values := some (js "a,b") },
    { component := .proxy, type := .podAntiAffinity, priority := .preferred, weight := some 5
      topologyKey := some (js "host"), key := some [], values := some [] }]

def unsetPolicy : PodSchedulingPolicy Unit := ⟨(), ⟨.psmdb, none⟩⟩

theorem dbPayloadToAffinityRules_written_sample :
    ((dbPayloadToAffinityRules (fun _ => js "1") (unsetPolicy.withAffinity .proxy
        (affinityRulesToDbPayload sampleRules))).map AffinityRule.withoutUid).Perm
      (sampleRules.map AffinityRule.plain ++
        ((dbPayloadToAffinityRules (fun _ => js "2") unsetPolicy).map
          AffinityRule.withoutUid).filter fun rule => .proxy ≠ rule.component) := by
  have hrules : ∀ rule ∈ sampleRules, rule.WellFormed := by
    intro rule hrule
    rcases List.mem_cons.mp hrule with rfl | hrule
    · constructor <;> decide +kernel
    · obtain rfl := List.mem_singleton.mp hrule
      constructor <;> decide +kernel
  exact dbPayloadToAffinityRules_written (fun _ => js "1") (fun _ => js "2") unsetPolicy
    (by decide +kernel) hrules

end OpenEverest.Ui
