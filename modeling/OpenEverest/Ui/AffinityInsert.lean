import OpenEverest.Framework.JsArray
import OpenEverest.Ui.AffinityPayload
import OpenEverest.Ui.ResourcesForm

/-!
# Inserting a rule into a policy

The form checks a rule, and the rule is appended to the list of its component, kind and priority,
whose containers are made where they are absent. For a required node rule the list is looked for
in an object that is only made along with node affinity.
-/

namespace OpenEverest.Ui

open Framework

def checkValuesPresenceForOperator (operator : Option AffinityOperator)
    (values : Option JsString) : List Issue :=
  issueWhen (doesAffinityOperatorRequireValues operator = true ∧ truthy values = false)
    "values" "Values is required"

/-- The issues with the data of the form; a weight that is not a number is `none`. -/
def affinityFormSchema (data : AffinityRule) : List Issue :=
  issueWhen (data.priority = .preferred ∧
      ¬ ∃ weight ∈ data.weight, 1 ≤ weight ∧ weight ≤ 100)
    "weight" "weight must be between 1 and 100" ++
  if data.type = .nodeAffinity then
    if truthy data.key = false ∨ data.operator = none then
      issueWhen (truthy data.key = false) "key" "Key is required" ++
        issueWhen (data.operator = none) "operator" "Operator is required"
    else checkValuesPresenceForOperator data.operator data.values
  else
    issueWhen (truthy data.topologyKey = false) "topologyKey" "Topology Key is required" ++
      if truthy data.key = true then
        if data.operator = none then [⟨js "operator", js "Operator is required"⟩]
        else checkValuesPresenceForOperator data.operator data.values
      else []

theorem checkValuesPresenceForOperator_eq_nil (operator : Option AffinityOperator)
    (values : Option JsString) :
    checkValuesPresenceForOperator operator values = [] ↔
      (doesAffinityOperatorRequireValues operator = true → truthy values = true) := by
  rw [checkValuesPresenceForOperator, issueWhen_eq_nil, not_and, Bool.not_eq_false]

theorem hasValues_of_accepted {rule : AffinityRule} (h : affinityFormSchema rule = []) :
    rule.HasValues := by
  intro hkey hrequires
  have hoperator : rule.operator ≠ none := by
    intro hnone
    rw [hnone] at hrequires
    exact absurd hrequires (by decide)
  rw [affinityFormSchema, List.append_eq_nil_iff] at h
  by_cases hnode : rule.type = .nodeAffinity
  · rw [if_pos hnode, if_neg (by simp [hkey, hoperator])] at h
    exact (checkValuesPresenceForOperator_eq_nil _ _).mp h.2 hrequires
  · rw [if_neg hnode, if_pos hkey, if_neg hoperator, List.append_eq_nil_iff] at h
    exact (checkValuesPresenceForOperator_eq_nil _ _).mp h.2.2 hrequires

/-- The node affinity that is appended to, made with the list of the priority if it is absent or
has no keys. -/
def startNodeAffinity (nodeAffinity : Option NodeAffinity) (priority : AffinityPriority) :
    NodeAffinity :=
  let start : NodeAffinity :=
    match priority with
    | .required => { required := some ⟨[]⟩ }
    | .preferred => { preferred := some [] }
  match nodeAffinity with
  | none => start
  | some nodeAffinity => if nodeAffinity.isEmpty then start else nodeAffinity

def startPodAffinity (affinity : Option PodAffinity) (priority : AffinityPriority) :
    PodAffinity :=
  let start : PodAffinity :=
    match priority with
    | .required => { required := some [] }
    | .preferred => { preferred := some [] }
  match affinity with
  | none => start
  | some affinity => if affinity.isEmpty then start else affinity

def insertNodeRule (nodeAffinity formatted : Option NodeAffinity) (priority : AffinityPriority) :
    Except TypeError NodeAffinity :=
  let affinity := startNodeAffinity nodeAffinity priority
  match priority with
  | .required =>
    match affinity.required with
    | none => .error (.reading (js "nodeSelectorTerms"))
    | some required =>
      .ok { affinity with
        required := some ⟨required.nodeSelectorTerms ++
          ((formatted.bind NodeAffinity.required).getD ⟨[]⟩).nodeSelectorTerms⟩ }
  | .preferred =>
    .ok { affinity with
      preferred := some (affinity.preferred.getD [] ++
        (formatted.bind NodeAffinity.preferred).getD []) }

def insertPodRule (podAffinity formatted : Option PodAffinity) (priority : AffinityPriority) :
    PodAffinity :=
  let affinity := startPodAffinity podAffinity priority
  match priority with
  | .required =>
    { affinity with
      required := some (affinity.required.getD [] ++
        (formatted.bind PodAffinity.required).getD []) }
  | .preferred =>
    { affinity with
      preferred := some (affinity.preferred.getD [] ++
        (formatted.bind PodAffinity.preferred).getD []) }

def insertIntoAffinity (affinity : Affinity) (rule : AffinityRule) : Except TypeError Affinity :=
  let formattedRule := affinityRulesToDbPayload [rule]
  match rule.type with
  | .nodeAffinity =>
    (insertNodeRule affinity.nodeAffinity formattedRule.nodeAffinity rule.priority).map
      fun nodeAffinity => { affinity with nodeAffinity := some nodeAffinity }
  | .podAffinity =>
    .ok { affinity with
      podAffinity := some
        (insertPodRule affinity.podAffinity formattedRule.podAffinity rule.priority) }
  | .podAntiAffinity =>
    .ok { affinity with
      podAntiAffinity := some
        (insertPodRule affinity.podAntiAffinity formattedRule.podAntiAffinity rule.priority) }

section Insert

variable {M : Type} (policy : PodSchedulingPolicy M) (rule : AffinityRule)

def insertAffinityRuleToExistingPolicy : Except TypeError (PodSchedulingPolicy M) :=
  (insertIntoAffinity ((policy.affinityAt rule.component).getD {}) rule).map
    (policy.withAffinity rule.component)

end Insert

def requiredTerms (required : Option RequiredNodeSchedulingTerm) : List NodeSelectorTerm :=
  (required.getD ⟨[]⟩).nodeSelectorTerms

theorem startNodeAffinity_preferred (nodeAffinity : Option NodeAffinity)
    (priority : AffinityPriority) :
    (startNodeAffinity nodeAffinity priority).preferred.getD [] =
      (nodeAffinity.bind NodeAffinity.preferred).getD [] := by
  rcases nodeAffinity with _ | ⟨_ | preferred, _ | required⟩ <;> cases priority <;> rfl

theorem startNodeAffinity_required (nodeAffinity : Option NodeAffinity)
    (priority : AffinityPriority) :
    requiredTerms (startNodeAffinity nodeAffinity priority).required =
      requiredTerms (nodeAffinity.bind NodeAffinity.required) := by
  rcases nodeAffinity with _ | ⟨_ | preferred, _ | required⟩ <;> cases priority <;> rfl

theorem startNodeAffinity_part (nodeAffinity : Option NodeAffinity)
    (priority other : AffinityPriority) (h : other ≠ priority) :
    (startNodeAffinity nodeAffinity priority).part other = nodeAffinity.bind (·.part other) := by
  rcases nodeAffinity with _ | ⟨_ | preferred, _ | required⟩ <;> cases priority <;> cases other <;>
    first | rfl | exact absurd rfl h

theorem startPodAffinity_part (podAffinity : Option PodAffinity)
    (priority other : AffinityPriority) (h : other ≠ priority) :
    (startPodAffinity podAffinity priority).part other = podAffinity.bind (·.part other) := by
  rcases podAffinity with _ | ⟨_ | preferred, _ | required⟩ <;> cases priority <;> cases other <;>
    first | rfl | exact absurd rfl h

theorem startPodAffinity_preferred (podAffinity : Option PodAffinity)
    (priority : AffinityPriority) :
    (startPodAffinity podAffinity priority).preferred.getD [] =
      (podAffinity.bind PodAffinity.preferred).getD [] := by
  rcases podAffinity with _ | ⟨_ | preferred, _ | required⟩ <;> cases priority <;> rfl

theorem startPodAffinity_required (podAffinity : Option PodAffinity)
    (priority : AffinityPriority) :
    (startPodAffinity podAffinity priority).required.getD [] =
      (podAffinity.bind PodAffinity.required).getD [] := by
  rcases podAffinity with _ | ⟨_ | preferred, _ | required⟩ <;> cases priority <;> rfl

theorem NodeAffinity.bind_preferred (nodeAffinity : Option NodeAffinity) :
    (nodeAffinity.bind (·.part .preferred)).getD [] =
      ((nodeAffinity.bind NodeAffinity.preferred).getD []).map
        PreferredNodeSchedulingTerm.entry := by
  rcases nodeAffinity with _ | ⟨_ | preferred, required⟩ <;> rfl

theorem NodeAffinity.bind_required (nodeAffinity : Option NodeAffinity) :
    (nodeAffinity.bind (·.part .required)).getD [] =
      (requiredTerms (nodeAffinity.bind NodeAffinity.required)).map
        NodeSelectorTerm.entry := by
  rcases nodeAffinity with _ | ⟨preferred, _ | required⟩ <;> rfl

theorem PodAffinity.bind_preferred (podAffinity : Option PodAffinity) :
    (podAffinity.bind (·.part .preferred)).getD [] =
      ((podAffinity.bind PodAffinity.preferred).getD []).map
        PreferredPodSchedulingTerm.entry := by
  rcases podAffinity with _ | ⟨_ | preferred, required⟩ <;> rfl

theorem PodAffinity.bind_required (podAffinity : Option PodAffinity) :
    (podAffinity.bind (·.part .required)).getD [] =
      ((podAffinity.bind PodAffinity.required).getD []).map PodAffinityTerm.entry := by
  rcases podAffinity with _ | ⟨preferred, _ | required⟩ <;> rfl

theorem insertNodeRule_part {nodeAffinity formatted : Option NodeAffinity}
    {priority : AffinityPriority} {inserted : NodeAffinity}
    (h : insertNodeRule nodeAffinity formatted priority = .ok inserted)
    (other : AffinityPriority) :
    inserted.part other =
      if other = priority then
        some ((nodeAffinity.bind (·.part other)).getD [] ++
          (formatted.bind (·.part other)).getD [])
      else nodeAffinity.bind (·.part other) := by
  cases priority with
  | required =>
    simp only [insertNodeRule] at h
    split at h
    · cases h
    · rename_i required hrequired
      obtain rfl := Except.ok.inj h
      have hterms := startNodeAffinity_required nodeAffinity .required
      rw [hrequired] at hterms
      cases other with
      | preferred => exact startNodeAffinity_part nodeAffinity .required .preferred nofun
      | required =>
        rw [if_pos rfl, NodeAffinity.bind_required, NodeAffinity.bind_required, ← hterms,
          ← List.map_append]
        rfl
  | preferred =>
    obtain rfl := Except.ok.inj h
    cases other with
    | required => exact startNodeAffinity_part nodeAffinity .preferred .required nofun
    | preferred =>
      rw [if_pos rfl, NodeAffinity.bind_preferred, NodeAffinity.bind_preferred,
        ← startNodeAffinity_preferred nodeAffinity .preferred, ← List.map_append]
      rfl

theorem insertPodRule_part (podAffinity formatted : Option PodAffinity)
    (priority other : AffinityPriority) :
    (insertPodRule podAffinity formatted priority).part other =
      if other = priority then
        some ((podAffinity.bind (·.part other)).getD [] ++
          (formatted.bind (·.part other)).getD [])
      else podAffinity.bind (·.part other) := by
  cases priority with
  | required =>
    cases other with
    | preferred => exact startPodAffinity_part podAffinity .required .preferred nofun
    | required =>
      rw [if_pos rfl, PodAffinity.bind_required, PodAffinity.bind_required,
        ← startPodAffinity_required podAffinity .required, ← List.map_append]
      rfl
  | preferred =>
    cases other with
    | required => exact startPodAffinity_part podAffinity .preferred .required nofun
    | preferred =>
      rw [if_pos rfl, PodAffinity.bind_preferred, PodAffinity.bind_preferred,
        ← startPodAffinity_preferred podAffinity .preferred, ← List.map_append]
      rfl

theorem formatted_part (rule : AffinityRule) :
    (affinityRulesToDbPayload [rule]).part rule.type rule.priority = some [rule.entry] := by
  rw [affinityRulesToDbPayload_part]
  simp [nonEmpty]

theorem append_formatted {priority rulePriority : AffinityPriority} {entry : Entry}
    (old formatted : AffinityPriority → Option (List Entry))
    (hformatted : formatted rulePriority = some [entry]) :
    (if priority = rulePriority then some ((old priority).getD [] ++ (formatted priority).getD [])
      else old priority) =
      if priority = rulePriority then some ((old priority).getD [] ++ [entry])
      else old priority := by
  split
  · rename_i hpriority
    rw [hpriority, hformatted]
    rfl
  · rfl

theorem insertIntoAffinity_part {affinity inserted : Affinity} {rule : AffinityRule}
    (h : insertIntoAffinity affinity rule = .ok inserted) (type : AffinityType)
    (priority : AffinityPriority) :
    inserted.part type priority =
      if type = rule.type ∧ priority = rule.priority then
        some ((affinity.part type priority).getD [] ++ [rule.entry])
      else affinity.part type priority := by
  have hformatted := formatted_part rule
  rw [insertIntoAffinity] at h
  cases hrule : rule.type with
  | nodeAffinity =>
    rw [hrule] at h hformatted
    cases hinsert : insertNodeRule affinity.nodeAffinity
        (affinityRulesToDbPayload [rule]).nodeAffinity rule.priority with
    | error e => simp [hinsert, Except.map] at h
    | ok nodeAffinity =>
      simp only [hinsert, Except.map, Except.ok.injEq] at h
      subst h
      cases type with
      | nodeAffinity =>
        simp only [true_and]
        exact (insertNodeRule_part hinsert priority).trans
          (append_formatted (affinity.part .nodeAffinity) _ hformatted)
      | podAffinity => rfl
      | podAntiAffinity => rfl
  | podAffinity =>
    rw [hrule] at h hformatted
    obtain rfl := Except.ok.inj h
    cases type with
    | podAffinity =>
      simp only [true_and]
      exact (insertPodRule_part _ _ _ priority).trans
        (append_formatted (affinity.part .podAffinity) _ hformatted)
    | nodeAffinity => rfl
    | podAntiAffinity => rfl
  | podAntiAffinity =>
    rw [hrule] at h hformatted
    obtain rfl := Except.ok.inj h
    cases type with
    | podAntiAffinity =>
      simp only [true_and]
      exact (insertPodRule_part _ _ _ priority).trans
        (append_formatted (affinity.part .podAntiAffinity) _ hformatted)
    | nodeAffinity => rfl
    | podAffinity => rfl

def NodeAffinity.NoRequired (affinity : NodeAffinity) : Prop :=
  affinity.required = none ∧ affinity.preferred ≠ none

instance (affinity : NodeAffinity) : Decidable affinity.NoRequired :=
  inferInstanceAs (Decidable (_ ∧ _))

/-- Only for a required node rule is a property of `undefined` read. -/
theorem insertIntoAffinity_ok_iff (affinity : Affinity) (rule : AffinityRule) :
    (∃ inserted, insertIntoAffinity affinity rule = .ok inserted) ↔
      ¬ (rule.type = .nodeAffinity ∧ rule.priority = .required ∧
        ∃ nodeAffinity ∈ affinity.nodeAffinity, nodeAffinity.NoRequired) := by
  rw [insertIntoAffinity]
  cases rule.type with
  | podAffinity => simp
  | podAntiAffinity => simp
  | nodeAffinity =>
    cases rule.priority with
    | preferred => simp [insertNodeRule, Except.map]
    | required =>
      rcases affinity.nodeAffinity with _ | ⟨_ | preferred, _ | required⟩ <;>
        simp [insertNodeRule, startNodeAffinity, NodeAffinity.isEmpty, NodeAffinity.NoRequired,
          Except.map]

section Inserted

variable {M : Type}

/-- The node affinity of the component has preferred terms, and a required one is inserted. -/
def Stuck (policy : PodSchedulingPolicy M) (rule : AffinityRule) : Prop :=
  rule.type = .nodeAffinity ∧ rule.priority = .required ∧
    ∃ affinity ∈ policy.affinityAt rule.component,
      ∃ nodeAffinity ∈ affinity.nodeAffinity, nodeAffinity.NoRequired

/-- The rule is added to those that are read, and everything else stays. -/
structure Inserted (policy : PodSchedulingPolicy M) (rule : AffinityRule)
    (inserted : PodSchedulingPolicy M) : Prop where
  rules : ∀ generateShortUID generateShortUID' : Nat → JsString,
    ((dbPayloadToAffinityRules generateShortUID inserted).map AffinityRule.withoutUid).Perm
      (rule.shown ::
        (dbPayloadToAffinityRules generateShortUID' policy).map AffinityRule.withoutUid)
  entries : inserted.entriesAt rule.place = policy.entriesAt rule.place ++ [rule.entry]
  others : ∀ place ≠ rule.place, inserted.partAt place = policy.partAt place
  engineType : inserted.spec.engineType = policy.spec.engineType
  otherEngines : ∀ engineType ≠ policy.spec.engineType,
    inserted.componentsOf engineType = policy.componentsOf engineType
  metadata : inserted.metadata = policy.metadata

theorem PodSchedulingPolicy.componentsOf_withAffinity (policy : PodSchedulingPolicy M)
    (component : AffinityComponent) (affinity : Affinity) {engineType : DbEngineType}
    (h : engineType ≠ policy.spec.engineType) :
    (policy.withAffinity component affinity).componentsOf engineType =
      policy.componentsOf engineType := by
  simp only [componentsOf, withAffinity, Option.bind_some, Function.update_of_ne h]
  cases policy.spec.affinityConfig <;> rfl

theorem partAt_inserted {policy : PodSchedulingPolicy M} {rule : AffinityRule}
    {affinity : Affinity}
    (h : insertIntoAffinity ((policy.affinityAt rule.component).getD {}) rule = .ok affinity)
    (place : Place) :
    (policy.withAffinity rule.component affinity).partAt place =
      if place = rule.place then some (policy.entriesAt place ++ [rule.entry])
      else policy.partAt place := by
  obtain ⟨component, type, priority⟩ := place
  rw [PodSchedulingPolicy.partAt, PodSchedulingPolicy.affinityAt_withAffinity]
  by_cases hcomponent : component = rule.component
  · have hold := policy.part_getD ⟨rule.component, type, priority⟩
    rw [if_pos hcomponent, Option.bind_some, insertIntoAffinity_part h, hold, hcomponent]
    simp only [AffinityRule.place, Place.mk.injEq, true_and]
    rfl
  · rw [if_neg hcomponent, if_neg]
    · rfl
    · exact fun hplace => hcomponent (congrArg Place.component hplace)

theorem inserted_withAffinity {policy : PodSchedulingPolicy M} {rule : AffinityRule}
    {affinity : Affinity} (hvalues : rule.HasValues)
    (h : insertIntoAffinity ((policy.affinityAt rule.component).getD {}) rule = .ok affinity) :
    Inserted policy rule (policy.withAffinity rule.component affinity) := by
  have hpart := partAt_inserted h
  have hentries : (policy.withAffinity rule.component affinity).entriesAt rule.place =
      policy.entriesAt rule.place ++ [rule.entry] := by
    rw [PodSchedulingPolicy.entriesAt, hpart, if_pos rfl, Option.getD_some]
  have hothers : ∀ place ≠ rule.place,
      (policy.withAffinity rule.component affinity).partAt place = policy.partAt place := by
    intro place hplace
    rw [hpart, if_neg hplace]
  refine ⟨?_, hentries, hothers, rfl, ?_, rfl⟩
  · intro generateShortUID generateShortUID'
    have hmore : (policy.withAffinity rule.component affinity).rules.Perm
        (rule.entry.rule rule.place :: policy.rules) :=
      PodSchedulingPolicy.rules_more
        (fun other hother => congrArg (Option.getD · []) (hothers other hother))
        (hentries ▸ List.perm_append_comm)
    rw [rule.entry_rule hvalues] at hmore
    exact (dbPayloadToAffinityRules_perm _ _).trans
      (hmore.trans ((dbPayloadToAffinityRules_perm _ policy).symm.cons _))
  · exact fun engineType hengine => policy.componentsOf_withAffinity _ _ hengine

theorem inserted_of_ok {policy inserted : PodSchedulingPolicy M} {rule : AffinityRule}
    (hvalues : rule.HasValues)
    (h : insertAffinityRuleToExistingPolicy policy rule = .ok inserted) :
    Inserted policy rule inserted := by
  rw [insertAffinityRuleToExistingPolicy] at h
  cases hinsert : insertIntoAffinity ((policy.affinityAt rule.component).getD {}) rule with
  | error e => simp [hinsert, Except.map] at h
  | ok affinity =>
    simp only [hinsert, Except.map, Except.ok.injEq] at h
    exact h ▸ inserted_withAffinity hvalues hinsert

theorem insert_ok_iff (policy : PodSchedulingPolicy M) (rule : AffinityRule) :
    (∃ inserted, insertAffinityRuleToExistingPolicy policy rule = .ok inserted) ↔
      ¬ Stuck policy rule := by
  have hstuck : Stuck policy rule ↔
      (rule.type = .nodeAffinity ∧ rule.priority = .required ∧
        ∃ nodeAffinity ∈ ((policy.affinityAt rule.component).getD {}).nodeAffinity,
          nodeAffinity.NoRequired) := by
    rw [Stuck]
    cases policy.affinityAt rule.component with
    | none => simp
    | some affinity => simp
  rw [hstuck, ← insertIntoAffinity_ok_iff, insertAffinityRuleToExistingPolicy]
  cases insertIntoAffinity ((policy.affinityAt rule.component).getD {}) rule <;>
    simp [Except.map]

/-- Inserting a rule of the form adds it and nothing else, unless it is a required node rule for
node affinity that has preferred terms only. -/
theorem insert_iff (policy : PodSchedulingPolicy M) {rule : AffinityRule}
    (haccepted : affinityFormSchema rule = []) :
    ((∃ inserted, insertAffinityRuleToExistingPolicy policy rule = .ok inserted ∧
        Inserted policy rule inserted) ↔ ¬ Stuck policy rule) ∧
      (rule.WellFormed → rule.shown = rule.plain) := by
  refine ⟨?_, fun h => h.shown_eq⟩
  rw [← insert_ok_iff]
  constructor
  · rintro ⟨inserted, hinsert, -⟩
    exact ⟨inserted, hinsert⟩
  · rintro ⟨inserted, hinsert⟩
    exact ⟨inserted, hinsert, inserted_of_ok (hasValues_of_accepted haccepted) hinsert⟩

end Inserted

def zoneExists : AffinityMatchExpression := ⟨some (js "zone"), some .Exists, none⟩

def preferredPolicy : PodSchedulingPolicy Unit :=
  unsetPolicy.withAffinity .dbNode
    { nodeAffinity := some
        { preferred := some [⟨{ matchExpressions := [zoneExists] }, some 1⟩] } }

def requiredZoneRule : AffinityRule where
  component := .dbNode
  type := .nodeAffinity
  priority := .required
  key := some (js "zone")
  operator := some .Exists

theorem insert_required_throws : affinityFormSchema requiredZoneRule = [] ∧
    insertAffinityRuleToExistingPolicy preferredPolicy requiredZoneRule =
      .error (.reading (js "nodeSelectorTerms")) := by
  refine ⟨by decide +kernel, ?_⟩
  rfl

def preferredDiskRule : AffinityRule where
  component := .dbNode
  type := .nodeAffinity
  priority := .preferred
  weight := some 2
  key := some (js "disk")
  operator := some .In
  values := some (js "ssd,nvme")

/-- A second rule for the same list. -/
theorem insert_preferred_policy :
    ∃ inserted, insertAffinityRuleToExistingPolicy preferredPolicy preferredDiskRule =
        .ok inserted ∧
      Inserted preferredPolicy preferredDiskRule inserted := by
  refine (insert_iff preferredPolicy (by decide +kernel)).1.mpr ?_
  rintro ⟨-, hpriority, -⟩
  cases hpriority

end OpenEverest.Ui
