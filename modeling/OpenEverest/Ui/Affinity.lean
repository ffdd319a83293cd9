import OpenEverest.Framework.JsNumber
import OpenEverest.Ui.DbType

/-!
# Affinity rules

A scheduling policy nests its affinity by engine type, component, kind and priority. The UI shows
it as a flat list of rules and writes rules back into it. An optional field that is absent is
`none`; a `!` of the source asserts nothing at run time, so that the fields it is about may be
absent too.
-/

namespace OpenEverest.Ui

open Framework

inductive AffinityComponent where
  | dbNode
  | proxy
  | configServer
  deriving DecidableEq

inductive AffinityType where
  | podAntiAffinity
  | podAffinity
  | nodeAffinity
  deriving DecidableEq

inductive AffinityPriority where
  | preferred
  | required
  deriving DecidableEq

inductive AffinityOperator where
  | In
  | NotIn
  | Exists
  | DoesNotExist
  deriving DecidableEq

@[ext] structure AffinityRule where
  component : AffinityComponent
  type : AffinityType
  priority : AffinityPriority
  weight : Option Int := none
  topologyKey : Option JsString := none
  key : Option JsString := none
  operator : Option AffinityOperator := none
  values : Option JsString := none
  uid : JsString := []
  deriving DecidableEq

structure AffinityMatchExpression where
  key : Option JsString
  operator : Option AffinityOperator
  values : Option (List JsString)
  deriving DecidableEq

/-- Without its list it could not be read; `matchFields` is never looked at. -/
structure NodeAffinityPreference where
  matchExpressions : List AffinityMatchExpression
  matchFields : List AffinityMatchExpression := []
  deriving DecidableEq

/-- The API leaves an empty list out, and it is read with a default. -/
structure NodeSelectorTerm where
  matchExpressions : Option (List AffinityMatchExpression)
  matchFields : List AffinityMatchExpression := []
  deriving DecidableEq

structure LabelSelector where
  matchExpressions : List AffinityMatchExpression
  matchLabels : List (JsString × JsString) := []
  deriving DecidableEq

/-- Of what the API has, the source looks at the label selector and the topology key. -/
structure PodAffinityTerm where
  labelSelector : Option LabelSelector
  topologyKey : Option JsString
  namespaces : List JsString := []
  namespaceSelector : Option LabelSelector := none
  matchLabelKeys : List JsString := []
  mismatchLabelKeys : List JsString := []
  deriving DecidableEq

structure PreferredNodeSchedulingTerm where
  preference : NodeAffinityPreference
  weight : Option Int
  deriving DecidableEq

structure PreferredPodSchedulingTerm where
  weight : Option Int
  podAffinityTerm : PodAffinityTerm
  deriving DecidableEq

structure RequiredNodeSchedulingTerm where
  nodeSelectorTerms : List NodeSelectorTerm
  deriving DecidableEq

/-- Its fields are `preferredDuringSchedulingIgnoredDuringExecution` and
`requiredDuringSchedulingIgnoredDuringExecution`. -/
structure NodeAffinity where
  preferred : Option (List PreferredNodeSchedulingTerm) := none
  required : Option RequiredNodeSchedulingTerm := none
  deriving DecidableEq

structure PodAffinity where
  preferred : Option (List PreferredPodSchedulingTerm) := none
  required : Option (List PodAffinityTerm) := none
  deriving DecidableEq

structure Affinity where
  nodeAffinity : Option NodeAffinity := none
  podAffinity : Option PodAffinity := none
  podAntiAffinity : Option PodAffinity := none
  deriving DecidableEq

abbrev ComponentAffinities : Type := AffinityComponent → Option Affinity

abbrev AffinityConfig : Type := DbEngineType → Option ComponentAffinities

structure PodSchedulingPolicySpec where
  engineType : DbEngineType
  affinityConfig : Option AffinityConfig

structure PodSchedulingPolicy (M : Type) where
  metadata : M
  spec : PodSchedulingPolicySpec

/-- `Object.keys(affinity).length === 0`. -/
def NodeAffinity.isEmpty (affinity : NodeAffinity) : Bool :=
  affinity.preferred.isNone && affinity.required.isNone

def PodAffinity.isEmpty (affinity : PodAffinity) : Bool :=
  affinity.preferred.isNone && affinity.required.isNone

def Affinity.isEmpty (affinity : Affinity) : Bool :=
  affinity.nodeAffinity.isNone && affinity.podAffinity.isNone && affinity.podAntiAffinity.isNone

/-- `values.join(',')`. -/
def joinValues (values : List JsString) : JsString := [44].intercalate values

/-- `values.split(',')`. -/
def splitValues (values : JsString) : List JsString := values.splitOn 44

theorem joinValues_splitValues (values : JsString) : joinValues (splitValues values) = values :=
  List.intercalate_splitOn 44

/-- The rule with the key, operator and values of the first expression, if there is one. -/
def AffinityRule.showing (rule : AffinityRule) :
    List AffinityMatchExpression → AffinityRule
  | [] => rule
  | e :: _ => { rule with key := e.key, operator := e.operator, values := e.values.map joinValues }

def preferredNodeRule (component : AffinityComponent) (term : PreferredNodeSchedulingTerm)
    (uid : JsString) : AffinityRule :=
  AffinityRule.showing
    { component, type := .nodeAffinity, priority := .preferred, uid, weight := term.weight }
    term.preference.matchExpressions

def requiredNodeRule (component : AffinityComponent) (term : NodeSelectorTerm) (uid : JsString) :
    AffinityRule :=
  AffinityRule.showing { component, type := .nodeAffinity, priority := .required, uid }
    (term.matchExpressions.getD [])

def PodAffinityTerm.matchExpressions (term : PodAffinityTerm) : List AffinityMatchExpression :=
  (term.labelSelector.getD { matchExpressions := [] }).matchExpressions

def preferredPodRule (component : AffinityComponent) (type : AffinityType)
    (term : PreferredPodSchedulingTerm) (uid : JsString) : AffinityRule :=
  AffinityRule.showing
    { component, type, priority := .preferred, uid, weight := term.weight
      topologyKey := term.podAffinityTerm.topologyKey }
    term.podAffinityTerm.matchExpressions

def requiredPodRule (component : AffinityComponent) (type : AffinityType) (term : PodAffinityTerm)
    (uid : JsString) : AffinityRule :=
  AffinityRule.showing
    { component, type, priority := .required, uid, topologyKey := term.topologyKey }
    term.matchExpressions

def nodeAffinityRules (component : AffinityComponent) (nodeAffinity : NodeAffinity) :
    List (JsString → AffinityRule) :=
  (nodeAffinity.preferred.getD []).map (preferredNodeRule component) ++
    (nodeAffinity.required.getD ⟨[]⟩).nodeSelectorTerms.map (requiredNodeRule component)

def podAffinityRules (component : AffinityComponent) (affinityType : AffinityType)
    (affinity : PodAffinity) : List (JsString → AffinityRule) :=
  (affinity.preferred.getD []).map (preferredPodRule component affinityType) ++
    (affinity.required.getD []).map (requiredPodRule component affinityType)

/-- `affinity && ...` with the rules of an affinity that is there. -/
def rulesIfPresent {α : Type} (rules : α → List (JsString → AffinityRule)) :
    Option α → List (JsString → AffinityRule)
  | none => []
  | some affinity => rules affinity

def affinityObjectRules (component : AffinityComponent) (affinityObject : Affinity) :
    List (JsString → AffinityRule) :=
  if affinityObject.isEmpty then []
  else
    rulesIfPresent (nodeAffinityRules component) affinityObject.nodeAffinity ++
      (rulesIfPresent (podAffinityRules component .podAffinity) affinityObject.podAffinity ++
        rulesIfPresent (podAffinityRules component .podAntiAffinity)
          affinityObject.podAntiAffinity)

/-- The place of a value of the enumeration in the order of `localeCompare`. -/
def AffinityComponent.rank : AffinityComponent → Int
  | configServer => 0
  | dbNode => 1
  | proxy => 2

def AffinityType.rank : AffinityType → Int
  | nodeAffinity => 0
  | podAffinity => 1
  | podAntiAffinity => 2

def AffinityPriority.rank : AffinityPriority → Int
  | preferred => 0
  | required => 1

def compareRules (a b : AffinityRule) : Int :=
  if a.component = b.component then
    if a.type = b.type then
      if a.priority = b.priority then b.weight.getD 0 - a.weight.getD 0
      else a.priority.rank - b.priority.rank
    else a.type.rank - b.type.rank
  else a.component.rank - b.component.rank

section Reading

variable {M : Type}

def allAffinities (payload : PodSchedulingPolicy M) : List (AffinityComponent × Affinity) :=
  let affinityConfig := payload.spec.affinityConfig.getD fun _ => none
  let affinityOf (component : AffinityComponent) :=
    ((affinityConfig payload.spec.engineType).bind fun components => components component).getD {}
  [(.dbNode, affinityOf .dbNode), (.proxy, affinityOf .proxy),
    (.configServer, affinityOf .configServer)]

/-- The id of the rule at each index is what `generateShortUID` gives then. -/
def dbPayloadToAffinityRules (generateShortUID : Nat → JsString)
    (payload : PodSchedulingPolicy M) : List AffinityRule :=
  let rules := (allAffinities payload).flatMap fun affinity =>
    affinityObjectRules affinity.1 affinity.2
  (rules.mapIdx fun i rule => rule (generateShortUID i)).mergeSort
    fun a b => compareRules a b ≤ 0

end Reading

def doesAffinityOperatorRequireValues (operator : Option AffinityOperator) : Bool :=
  decide (operator = some .In ∨ operator = some .NotIn)

def truthy (s : Option JsString) : Bool := decide (s.getD [] ≠ [])

def generatePodAffinityTerm (topologyKey : Option JsString) (operator : Option AffinityOperator)
    (values : List JsString) (key : Option JsString) : PodAffinityTerm where
  topologyKey
  labelSelector :=
    if truthy key then
      some
        { matchExpressions := [{
            key, operator
            values := if doesAffinityOperatorRequireValues operator && decide (values.length > 0)
              then some values else none }] }
    else none

def valuesListOf (rule : AffinityRule) : List JsString :=
  let values := rule.values.getD []
  if values ≠ [] then splitValues values else []

def nodeMatchExpressions (rule : AffinityRule) : List AffinityMatchExpression :=
  [{ key := rule.key, operator := rule.operator
     values := if doesAffinityOperatorRequireValues rule.operator then some (valuesListOf rule)
       else none }]

def podAffinityTermOf (rule : AffinityRule) : PodAffinityTerm :=
  generatePodAffinityTerm rule.topologyKey rule.operator (valuesListOf rule) rule.key

structure NodeTerms where
  preferred : List PreferredNodeSchedulingTerm := []
  required : RequiredNodeSchedulingTerm := ⟨[]⟩

structure PodTerms where
  preferred : List PreferredPodSchedulingTerm := []
  required : List PodAffinityTerm := []

structure AffinityRulesPayloadMap where
  nodeAffinity : NodeTerms := {}
  podAffinity : PodTerms := {}
  podAntiAffinity : PodTerms := {}

def PodTerms.push (terms : PodTerms) (rule : AffinityRule) : PodTerms :=
  match rule.priority with
  | .required => { terms with required := terms.required ++ [podAffinityTermOf rule] }
  | .preferred =>
    { terms with preferred := terms.preferred ++ [⟨rule.weight, podAffinityTermOf rule⟩] }

def NodeTerms.push (terms : NodeTerms) (rule : AffinityRule) : NodeTerms :=
  match rule.priority with
  | .required =>
    { terms with
      required := ⟨terms.required.nodeSelectorTerms ++
        [{ matchExpressions := some (nodeMatchExpressions rule) }]⟩ }
  | .preferred =>
    { terms with
      preferred := terms.preferred ++
        [⟨{ matchExpressions := nodeMatchExpressions rule }, rule.weight⟩] }

def AffinityRulesPayloadMap.push (map : AffinityRulesPayloadMap) (rule : AffinityRule) :
    AffinityRulesPayloadMap :=
  match rule.type with
  | .nodeAffinity => { map with nodeAffinity := map.nodeAffinity.push rule }
  | .podAffinity => { map with podAffinity := map.podAffinity.push rule }
  | .podAntiAffinity => { map with podAntiAffinity := map.podAntiAffinity.push rule }

def nonEmpty {α : Type} (terms : List α) : Option (List α) :=
  if terms.length > 0 then some terms else none

def NodeTerms.toAffinity (terms : NodeTerms) : NodeAffinity where
  preferred := nonEmpty terms.preferred
  required := if terms.required.nodeSelectorTerms.length > 0 then some terms.required else none

def PodTerms.toAffinity (terms : PodTerms) : PodAffinity where
  preferred := nonEmpty terms.preferred
  required := nonEmpty terms.required

def affinityRulesToDbPayload (affinityRules : List AffinityRule) : Affinity :=
  let map := affinityRules.foldl AffinityRulesPayloadMap.push {}
  { nodeAffinity := if !map.nodeAffinity.toAffinity.isEmpty then some map.nodeAffinity.toAffinity
      else none
    podAffinity := if !map.podAffinity.toAffinity.isEmpty then some map.podAffinity.toAffinity
      else none
    podAntiAffinity :=
      if !map.podAntiAffinity.toAffinity.isEmpty then some map.podAntiAffinity.toAffinity
      else none }

end OpenEverest.Ui
