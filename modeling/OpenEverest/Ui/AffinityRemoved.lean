import OpenEverest.Ui.AffinityRemove

/-!
# What removing a rule does

The search compares first expressions only and stops at the first term that looks like the rule,
or throws at one whose list of expressions is empty or absent. A removal does what is asked of it
where neither comes in the way of a term that has no more than the expression that is shown.
-/

namespace OpenEverest.Ui

open Framework

/-! ### The search -/

/-- The entry is a node term without a list of expressions. -/
def Entry.NoList (entry : Entry) (rule : AffinityRule) : Prop :=
  rule.type = .nodeAffinity ∧ entry.expressions = none

/-- The search takes the entry for the rule. -/
def Entry.Hit (entry : Entry) (rule : AffinityRule) : Prop :=
  entry.rule rule.place = rule.withoutUid ∧ entry.expressions ≠ some [] ∧ ¬ entry.NoList rule

/-- The search throws at the entry: its list of expressions is absent, or empty, which is checked
for required node terms only, and it has the weight and the topology key of the rule. -/
def Entry.Blocks (entry : Entry) (rule : AffinityRule) : Prop :=
  (entry.NoList rule ∨
    ¬ (rule.type = .nodeAffinity ∧ rule.priority = .required) ∧ entry.expressions = some []) ∧
    entry.weight = rule.weight ∧ entry.topologyKey = rule.topologyKey

instance (entry : Entry) (rule : AffinityRule) : Decidable (entry.NoList rule) :=
  inferInstanceAs (Decidable (_ ∧ _))

instance (entry : Entry) (rule : AffinityRule) : Decidable (entry.Hit rule) :=
  inferInstanceAs (Decidable (_ ∧ _))

instance (entry : Entry) (rule : AffinityRule) : Decidable (entry.Blocks rule) :=
  inferInstanceAs (Decidable (_ ∧ _))

namespace Entry

variable (entry : Entry) (rule : AffinityRule)

theorem rule_eq_iff : entry.rule rule.place = rule.withoutUid ↔
    (entry.weight = rule.weight ∧ entry.topologyKey = rule.topologyKey) ∧
      match entry.expressions.getD [] with
      | [] => sameExpression none none none rule = true
      | expression :: _ => expression.shows rule = true := by
  rw [AffinityRule.ext_iff, Entry.rule]
  cases entry.expressions.getD [] with
  | nil => simp [AffinityRule.showing, AffinityRule.withoutUid, AffinityRule.place, sameExpression,
      and_assoc]
  | cons expression _ =>
    simp [AffinityRule.showing, AffinityRule.withoutUid, AffinityRule.place, sameExpression,
      AffinityMatchExpression.shows, and_assoc]

theorem matchesRule_true : entry.matchesRule rule = .ok true ↔ entry.Hit rule := by
  rw [Hit, rule_eq_iff, matchesRule, NoList]
  by_cases hfields : entry.weight = rule.weight ∧ entry.topologyKey = rule.topologyKey
  · rw [if_pos hfields]
    rcases entry.expressions with _ | ⟨_ | ⟨expression, rest⟩⟩
    · by_cases hnode : rule.type = .nodeAffinity <;> simp [hfields, hnode]
    · by_cases hnode : rule.type = .nodeAffinity ∧ rule.priority = .required <;>
        simp [firstExpressionMatches, hnode]
    · simp [firstExpressionMatches, hfields]
  · simp [hfields]

theorem matchesRule_error : (∃ e, entry.matchesRule rule = .error e) ↔ entry.Blocks rule := by
  rw [Blocks, matchesRule, NoList]
  by_cases hfields : entry.weight = rule.weight ∧ entry.topologyKey = rule.topologyKey
  · rw [if_pos hfields]
    rcases entry.expressions with _ | ⟨_ | ⟨expression, rest⟩⟩
    · by_cases hnode : rule.type = .nodeAffinity <;> simp [hfields, hnode]
    · by_cases hnode : rule.type = .nodeAffinity ∧ rule.priority = .required
      · simp [hnode]
      · simp [firstExpressionMatches, hfields, hnode]
    · simp [firstExpressionMatches]
  · rw [if_neg hfields]
    simp only [reduceCtorEq, exists_false, false_iff]
    exact fun h => hfields h.2

theorem matchesRule_false :
    entry.matchesRule rule = .ok false ↔ ¬ entry.Hit rule ∧ ¬ entry.Blocks rule := by
  rw [← matchesRule_true, ← matchesRule_error]
  rcases entry.matchesRule rule with e | _ | _ <;> simp

end Entry

/-! ### Containers -/

/-- The objects of the configuration, and the lists in them. -/
inductive Container where
  | config
  | components (engineType : DbEngineType)
  | affinity (engineType : DbEngineType) (component : AffinityComponent)
  | kind (engineType : DbEngineType) (component : AffinityComponent) (type : AffinityType)
  | part (engineType : DbEngineType) (place : Place)

def Container.parent : Container → Option Container
  | .config => none
  | .components _ => some .config
  | .affinity engineType _ => some (.components engineType)
  | .kind engineType component _ => some (.affinity engineType component)
  | .part engineType place => some (.kind engineType place.component place.type)

/-- The inner container is the outer one, or in it. -/
def Container.Within (inner outer : Container) : Prop :=
  Relation.ReflTransGen (fun field object => field.parent = some object) inner outer

namespace PodSchedulingPolicy

variable {M : Type} (policy : PodSchedulingPolicy M)

def Has : Container → Prop
  | .config => policy.spec.affinityConfig ≠ none
  | .components engineType => policy.componentsOf engineType ≠ none
  | .affinity engineType component => policy.affinityOf engineType component ≠ none
  | .kind engineType component type =>
    (policy.affinityOf engineType component).bind (·.kind type) ≠ none
  | .part engineType place =>
    (policy.affinityOf engineType place.component).bind (·.part place.type place.priority) ≠ none

variable {policy}

theorem has_parent {container parent : Container} (hparent : container.parent = some parent)
    (h : policy.Has container) : policy.Has parent := by
  cases container with
  | config => cases hparent
  | components engineType =>
    cases hparent
    intro hnone
    exact h (by rw [componentsOf, hnone, Option.bind_none])
  | affinity engineType component =>
    cases hparent
    intro hnone
    exact h (by rw [affinityOf, hnone, Option.bind_none])
  | kind engineType component type =>
    cases hparent
    intro hnone
    exact h (by rw [hnone, Option.bind_none])
  | part engineType place =>
    cases hparent
    intro hnone
    apply h
    simp only [Affinity.part_kind, ← Option.bind_assoc]
    rw [hnone, Option.bind_none]

theorem has_of_within {inner outer : Container} (hwithin : inner.Within outer)
    (h : policy.Has inner) : policy.Has outer := by
  induction hwithin with
  | refl => exact h
  | tail _ hparent ih => exact has_parent hparent ih

end PodSchedulingPolicy

theorem Container.within_iff {engineType : DbEngineType} {place : Place} (container : Container) :
    (Container.part engineType place).Within container ↔
      container = .config ∨ container = .components engineType ∨
        container = .affinity engineType place.component ∨
          container = .kind engineType place.component place.type ∨
            container = .part engineType place := by
  constructor
  · intro h
    induction h with
    | refl => simp
    | tail _ hparent ih =>
      rcases ih with rfl | rfl | rfl | rfl | rfl
      · cases hparent
      all_goals
        cases hparent
        simp
  · have hkind : (Container.part engineType place).Within
        (.kind engineType place.component place.type) := Relation.ReflTransGen.single rfl
    have haffinity := hkind.tail (c := .affinity engineType place.component) rfl
    have hcomponents := haffinity.tail (c := .components engineType) rfl
    have hconfig := hcomponents.tail (c := .config) rfl
    rintro (rfl | rfl | rfl | rfl | rfl)
    · exact hconfig
    · exact hcomponents
    · exact haffinity
    · exact hkind
    · exact Relation.ReflTransGen.refl

section Removed

variable {M : Type}

def PodSchedulingPolicy.expressions (policy : PodSchedulingPolicy M) :
    List (Place × AffinityMatchExpression) :=
  places.flatMap fun place => (policy.entriesAt place).flatMap fun entry =>
    (entry.expressions.getD []).map (Prod.mk place)

def PodSchedulingPolicy.further (policy : PodSchedulingPolicy M) : List (Place × Requirement) :=
  places.flatMap fun place => (policy.entriesAt place).flatMap fun entry =>
    entry.further.map (Prod.mk place)

/-- One entry that reads back as the rule is gone, with the expression that the rule shows and
with the containers that have nothing else. -/
structure Removed (policy : PodSchedulingPolicy M) (rule : AffinityRule)
    (removed : PodSchedulingPolicy M) : Prop where
  entries : ∃ before entry after, policy.entriesAt rule.place = before ++ entry :: after ∧
    removed.entriesAt rule.place = before ++ after ∧ entry.rule rule.place = rule.withoutUid
  others : ∀ place ≠ rule.place, removed.partAt place = policy.partAt place
  rules : ∀ generateShortUID generateShortUID' : Nat → JsString,
    ((dbPayloadToAffinityRules generateShortUID policy).map AffinityRule.withoutUid).Perm
      (rule.withoutUid ::
        (dbPayloadToAffinityRules generateShortUID' removed).map AffinityRule.withoutUid)
  expressions : ∃ shown : List AffinityMatchExpression, shown.length ≤ 1 ∧
    (∀ expression ∈ shown, expression.shows rule = true) ∧
      policy.expressions.Perm (shown.map (Prod.mk rule.place) ++ removed.expressions)
  further : policy.further.Perm removed.further
  containers : ∀ container, policy.Has container → ¬ removed.Has container →
    (∃ entry, policy.entriesAt rule.place = [entry]) ∧
      ∀ inner, policy.Has inner → inner.Within container →
        (Container.part policy.spec.engineType rule.place).Within inner
  engineType : removed.spec.engineType = policy.spec.engineType
  otherEngines : ∀ engineType ≠ policy.spec.engineType,
    removed.componentsOf engineType = policy.componentsOf engineType
  metadata : removed.metadata = policy.metadata

/-- The first entry that the search stops at is one with the shown expression only. -/
def Removable (policy : PodSchedulingPolicy M) (rule : AffinityRule) : Prop :=
  ∃ before entry after, policy.entriesAt rule.place = before ++ entry :: after ∧
    (∀ b ∈ before, ¬ b.Hit rule ∧ ¬ b.Blocks rule) ∧ entry.Hit rule ∧
      (entry.expressions.getD []).length ≤ 1 ∧ entry.further = []

variable {policy removed : PodSchedulingPolicy M} {rule : AffinityRule}

theorem removeRule_found (hlisted : rule.Listed) {found : Option Nat}
    (hfound : findIndex (fun entry => entry.matchesRule rule) (policy.entriesAt rule.place) =
      .ok found) :
    ∃ removed, removeRuleInExistingPolicy policy rule = .ok removed ∧
      removed.partAt rule.place = spliceFound (policy.partAt rule.place) found := by
  have hpart := removeRule_partAt policy hlisted
  rw [removeEntry, removeTerm, ← PodSchedulingPolicy.entriesAt, hfound] at hpart
  obtain ⟨removed, hremoved, hspliced⟩ := Except.map_eq_ok hpart
  exact ⟨removed, hremoved, hspliced⟩

theorem removeRule_ok (hlisted : rule.Listed)
    (h : removeRuleInExistingPolicy policy rule = .ok removed) :
    ∃ found, findIndex (fun entry => entry.matchesRule rule) (policy.entriesAt rule.place) =
        .ok found ∧
      removed.partAt rule.place = spliceFound (policy.partAt rule.place) found := by
  have hpart := removeRule_partAt policy hlisted
  rw [h] at hpart
  obtain ⟨found, hfound, hspliced⟩ := Except.map_eq_ok hpart.symm
  exact ⟨found, hfound, hspliced.symm⟩

theorem entriesAt_of_partAt {place : Place} {entries : List Entry}
    (h : removed.partAt place = nonEmpty entries) : removed.entriesAt place = entries := by
  rw [PodSchedulingPolicy.entriesAt, h, nonEmpty_getD]

theorem spliced_entries {before after : List Entry} {entry : Entry}
    (hentries : policy.entriesAt rule.place = before ++ entry :: after)
    (hspliced : removed.partAt rule.place =
      spliceFound (policy.partAt rule.place) (some before.length)) :
    removed.partAt rule.place = nonEmpty (before ++ after) := by
  rw [hspliced, spliceFound, ← PodSchedulingPolicy.entriesAt, hentries, eraseIdx_before]

theorem entries_more {α : Type} (f : Place → Entry → List α) {entry : Entry}
    (hothers : ∀ other ≠ rule.place, removed.entriesAt other = policy.entriesAt other)
    (hplace : (policy.entriesAt rule.place).Perm (entry :: removed.entriesAt rule.place)) :
    (places.flatMap fun place => (policy.entriesAt place).flatMap (f place)).Perm
      (f rule.place entry ++
        places.flatMap fun place => (removed.entriesAt place).flatMap (f place)) := by
  refine flatMap_more_perm nodup_places (mem_places rule.place) ?_ _ ?_
  · intro other hother
    rw [hothers other hother]
  · exact hplace.flatMap_right _

theorem expressions_more {entry : Entry}
    (hothers : ∀ other ≠ rule.place, removed.entriesAt other = policy.entriesAt other)
    (hplace : (policy.entriesAt rule.place).Perm (entry :: removed.entriesAt rule.place)) :
    policy.expressions.Perm
      ((entry.expressions.getD []).map (Prod.mk rule.place) ++ removed.expressions) :=
  entries_more (fun place entry => (entry.expressions.getD []).map (Prod.mk place)) hothers hplace

theorem further_more {entry : Entry}
    (hothers : ∀ other ≠ rule.place, removed.entriesAt other = policy.entriesAt other)
    (hplace : (policy.entriesAt rule.place).Perm (entry :: removed.entriesAt rule.place)) :
    policy.further.Perm (entry.further.map (Prod.mk rule.place) ++ removed.further) :=
  entries_more (fun place entry => entry.further.map (Prod.mk place)) hothers hplace

theorem removeRule_affinityOf (h : removeRuleInExistingPolicy policy rule = .ok removed)
    {engineType : DbEngineType} {component : AffinityComponent}
    (hoff : ¬ (engineType = policy.spec.engineType ∧ component = rule.component)) :
    removed.affinityOf engineType component = policy.affinityOf engineType component := by
  by_cases hengine : engineType = policy.spec.engineType
  · subst hengine
    have haffinity := removeRule_affinityAt h fun hcomponent => hoff ⟨rfl, hcomponent⟩
    rwa [PodSchedulingPolicy.affinityAt, (removeRule_spec h).2] at haffinity
  · rw [PodSchedulingPolicy.affinityOf, removeRule_componentsOf h hengine]
    rfl

theorem within_of_dropped (h : removeRuleInExistingPolicy policy rule = .ok removed)
    {container : Container} (hhas : policy.Has container) (hdropped : ¬ removed.Has container) :
    (Container.part policy.spec.engineType rule.place).Within container := by
  rw [Container.within_iff]
  by_contra hoff
  simp only [not_or] at hoff
  obtain ⟨hconfig, hcomponents, haffinity, hkind, hpart⟩ := hoff
  apply hdropped
  cases container with
  | config => exact absurd rfl hconfig
  | components engineType =>
    have hengine : engineType ≠ policy.spec.engineType := fun heq => hcomponents (heq ▸ rfl)
    rw [PodSchedulingPolicy.Has, removeRule_componentsOf h hengine]
    exact hhas
  | affinity engineType component =>
    rw [PodSchedulingPolicy.Has, removeRule_affinityOf h]
    · exact hhas
    · rintro ⟨rfl, rfl⟩
      exact haffinity rfl
  | kind engineType component type =>
    rw [PodSchedulingPolicy.Has]
    by_cases hon : engineType = policy.spec.engineType ∧ component = rule.component
    · obtain ⟨rfl, rfl⟩ := hon
      have htype : type ≠ rule.type := by
        rintro rfl
        exact hkind rfl
      have hother := removeRule_kindAt h htype
      rw [PodSchedulingPolicy.affinityAt, (removeRule_spec h).2] at hother
      rw [hother]
      exact hhas
    · rw [removeRule_affinityOf h hon]
      exact hhas
  | part engineType place =>
    rw [PodSchedulingPolicy.Has]
    by_cases hon : engineType = policy.spec.engineType ∧ place.component = rule.component
    · obtain ⟨rfl, -⟩ := hon
      have hother := removeRule_others h fun hplace => hpart (hplace ▸ rfl)
      rw [PodSchedulingPolicy.partAt, PodSchedulingPolicy.affinityAt, (removeRule_spec h).2]
        at hother
      rw [hother]
      exact hhas
    · rw [removeRule_affinityOf h hon]
      exact hhas

/-- Containers are dropped only where the list held nothing but the entry. -/
theorem dropped_single (h : removeRuleInExistingPolicy policy rule = .ok removed)
    {before after : List Entry} {entry : Entry}
    (hentries : policy.entriesAt rule.place = before ++ entry :: after)
    (hpart : removed.partAt rule.place = nonEmpty (before ++ after)) {container : Container}
    (hhas : policy.Has container) (hdropped : ¬ removed.Has container) :
    policy.entriesAt rule.place = [entry] := by
  have hempty : before ++ after = [] := by
    by_contra hleft
    apply hdropped
    refine PodSchedulingPolicy.has_of_within (within_of_dropped h hhas hdropped) ?_
    rw [PodSchedulingPolicy.Has, ← (removeRule_spec h).2]
    have hsome : nonEmpty (before ++ after) = some (before ++ after) :=
      if_pos (List.length_pos_iff.mpr hleft)
    intro hnone
    rw [PodSchedulingPolicy.partAt, PodSchedulingPolicy.affinityAt, hsome] at hpart
    exact Option.some_ne_none _ (hpart.symm.trans hnone)
  obtain ⟨rfl, rfl⟩ := List.append_eq_nil_iff.mp hempty
  exact hentries

/-- The first entry that the search stops at is removed, if it is one for the rule. -/
theorem removed_of_removable (hlisted : rule.Listed) (hremovable : Removable policy rule) :
    ∃ removed, removeRuleInExistingPolicy policy rule = .ok removed ∧
      Removed policy rule removed := by
  obtain ⟨before, entry, after, hentries, hbefore, hhit, hlength, hfurther⟩ := hremovable
  have hfound : findIndex (fun entry => entry.matchesRule rule) (policy.entriesAt rule.place) =
      .ok (some before.length) := by
    rw [hentries]
    exact findIndex_found (fun b hb => (b.matchesRule_false rule).mpr (hbefore b hb))
      ((entry.matchesRule_true rule).mpr hhit)
  obtain ⟨removed, hremoved, hspliced⟩ := removeRule_found hlisted hfound
  have hpart := spliced_entries hentries hspliced
  have hleft := entriesAt_of_partAt hpart
  have hothers : ∀ place ≠ rule.place, removed.partAt place = policy.partAt place :=
    fun _ hplace => removeRule_others hremoved hplace
  have hentriesAt : ∀ place ≠ rule.place, removed.entriesAt place = policy.entriesAt place :=
    fun place hplace => congrArg (Option.getD · []) (hothers place hplace)
  have hmore : (policy.entriesAt rule.place).Perm (entry :: removed.entriesAt rule.place) := by
    rw [hentries, hleft]
    exact List.perm_middle
  refine ⟨removed, hremoved, ⟨before, entry, after, hentries, hleft, hhit.1⟩, hothers, ?_, ?_, ?_, ?_,
    (removeRule_spec hremoved).2, fun _ hengine => removeRule_componentsOf hremoved hengine,
    (removeRule_spec hremoved).1⟩
  · intro generateShortUID generateShortUID'
    have hrules := PodSchedulingPolicy.rules_more
      (fun place hplace => (hentriesAt place hplace).symm) hmore
    rw [hhit.1] at hrules
    exact (dbPayloadToAffinityRules_perm _ policy).trans
      (hrules.trans ((dbPayloadToAffinityRules_perm _ removed).symm.cons _))
  · refine ⟨entry.expressions.getD [], hlength, ?_, expressions_more hentriesAt hmore⟩
    intro expression hmem
    have hshown := ((entry.rule_eq_iff rule).mp hhit.1).2
    cases hexpressions : entry.expressions.getD [] with
    | nil => rw [hexpressions] at hmem; exact absurd hmem List.not_mem_nil
    | cons first rest =>
      rw [hexpressions] at hmem hshown hlength
      obtain rfl : rest = [] := List.length_eq_zero_iff.mp (by simpa using hlength)
      obtain rfl := List.mem_singleton.mp hmem
      exact hshown
  · have hperm := further_more hentriesAt hmore
    rwa [hfurther, List.map_nil, List.nil_append] at hperm
  · intro container hhas hdropped
    refine ⟨⟨entry, dropped_single hremoved hentries hpart hhas hdropped⟩, ?_⟩
    intro inner hinner hwithin
    exact within_of_dropped hremoved hinner
      fun hkept => hdropped (PodSchedulingPolicy.has_of_within hwithin hkept)

theorem removable_of_removed (hlisted : rule.Listed)
    (h : removeRuleInExistingPolicy policy rule = .ok removed)
    (hremoved : Removed policy rule removed) : Removable policy rule := by
  obtain ⟨found, hfound, hspliced⟩ := removeRule_ok hlisted h
  have hlength : (policy.entriesAt rule.place).length =
      (removed.entriesAt rule.place).length + 1 := by
    obtain ⟨before, entry, after, hentries, hleft, -⟩ := hremoved.entries
    rw [hentries, hleft]
    simp only [List.length_append, List.length_cons]
    omega
  cases found with
  | none =>
    have hsame : removed.entriesAt rule.place = policy.entriesAt rule.place :=
      congrArg (Option.getD · []) hspliced
    rw [hsame] at hlength
    omega
  | some i =>
    obtain ⟨before, entry, after, hentries, rfl, hbefore, hentry⟩ := findIndex_eq_some hfound
    have hpart := spliced_entries hentries hspliced
    have hleft := entriesAt_of_partAt hpart
    have hmore : (policy.entriesAt rule.place).Perm (entry :: removed.entriesAt rule.place) := by
      rw [hentries, hleft]
      exact List.perm_middle
    refine ⟨before, entry, after, hentries,
      fun b hb => (b.matchesRule_false rule).mp (hbefore b hb),
      (entry.matchesRule_true rule).mp hentry, ?_⟩
    have hothers : ∀ place ≠ rule.place, removed.entriesAt place = policy.entriesAt place :=
      fun place hplace => congrArg (Option.getD · []) (hremoved.others place hplace)
    -- As many expressions and further requirements are gone as the entry has.
    obtain ⟨shown, hshown, -, hperm⟩ := hremoved.expressions
    have hcount := (expressions_more hothers hmore).symm.trans hperm |>.length_eq
    have hfurther := (further_more hothers hmore).symm.trans hremoved.further |>.length_eq
    simp only [List.length_append, List.length_map] at hcount hfurther
    exact ⟨by omega, List.length_eq_zero_iff.mp (by omega)⟩

theorem removes_iff (hlisted : rule.Listed) :
    (∃ removed, removeRuleInExistingPolicy policy rule = .ok removed ∧
      Removed policy rule removed) ↔ Removable policy rule :=
  ⟨fun ⟨_, h, hremoved⟩ => removable_of_removed hlisted h hremoved,
    removed_of_removable hlisted⟩

end Removed

/-! ### Rules that are listed -/

theorem Affinity.part_listed {affinity : Affinity} {type : AffinityType}
    {priority : AffinityPriority} {entry : Entry}
    (h : entry ∈ (affinity.part type priority).getD []) :
    (priority = .required → entry.weight = none) ∧
      (type = .nodeAffinity → entry.topologyKey = none) := by
  have hpod : ∀ podAffinity : Option PodAffinity,
      entry ∈ (podAffinity.bind (·.part priority)).getD [] →
        priority = .required → entry.weight = none := by
    rintro podAffinity hentry rfl
    rw [PodAffinity.bind_required] at hentry
    obtain ⟨term, -, rfl⟩ := List.mem_map.mp hentry
    rfl
  cases type with
  | nodeAffinity =>
    cases priority with
    | preferred =>
      rw [Affinity.part, NodeAffinity.bind_preferred] at h
      obtain ⟨term, -, rfl⟩ := List.mem_map.mp h
      exact ⟨fun hpriority => absurd hpriority (by decide), fun _ => rfl⟩
    | required =>
      rw [Affinity.part, NodeAffinity.bind_required] at h
      obtain ⟨term, -, rfl⟩ := List.mem_map.mp h
      exact ⟨fun _ => rfl, fun _ => rfl⟩
  | podAffinity => exact ⟨hpod _ h, fun htype => absurd htype (by decide)⟩
  | podAntiAffinity => exact ⟨hpod _ h, fun htype => absurd htype (by decide)⟩

section Listed

variable {M : Type} {policy : PodSchedulingPolicy M} {rule : AffinityRule}

theorem listed_of_mem {generateShortUID : Nat → JsString}
    (h : rule ∈ dbPayloadToAffinityRules generateShortUID policy) : rule.Listed := by
  have hmem := (dbPayloadToAffinityRules_perm generateShortUID policy).mem_iff.mp
    (List.mem_map_of_mem h)
  rw [PodSchedulingPolicy.rules_eq] at hmem
  obtain ⟨place, -, hmem⟩ := List.mem_flatMap.mp hmem
  obtain ⟨entry, hentry, hrule⟩ := List.mem_map.mp hmem
  obtain rfl : place = rule.place := by
    rw [← entry.rule_place place, hrule]
    rfl
  have hfields := ((entry.rule_eq_iff rule).mp hrule).1
  rw [PodSchedulingPolicy.entriesAt, ← policy.part_getD] at hentry
  have hlisted := Affinity.part_listed hentry
  exact ⟨fun h => hfields.1 ▸ hlisted.1 h, fun h => hfields.2 ▸ hlisted.2 h⟩

/-! ### Inserted and removed -/

/-- The same policy up to the order of its lists and up to empty containers. -/
structure Restored (policy restored : PodSchedulingPolicy M) : Prop where
  entries : ∀ place, (restored.entriesAt place).Perm (policy.entriesAt place)
  engineType : restored.spec.engineType = policy.spec.engineType
  otherEngines : ∀ engineType ≠ policy.spec.engineType,
    restored.componentsOf engineType = policy.componentsOf engineType
  metadata : restored.metadata = policy.metadata

/-- The rule is inserted, and removed as it is listed then. -/
def Restores (policy : PodSchedulingPolicy M) (rule : AffinityRule) : Prop :=
  ∃ inserted, insertAffinityRuleToExistingPolicy policy rule = .ok inserted ∧
    ∀ uid, ∃ restored, removeRuleInExistingPolicy inserted { rule.shown with uid } = .ok restored ∧
      Restored policy restored

/-- Of the entries with the inserted one, the first that the search stops at is the inserted one
or an equal one. -/
def InsertedIsFound (policy : PodSchedulingPolicy M) (rule : AffinityRule) : Prop :=
  ∃ before after, policy.entriesAt rule.place ++ [rule.entry] = before ++ rule.entry :: after ∧
    ∀ b ∈ before, ¬ b.Hit rule.shown ∧ ¬ b.Blocks rule.shown

theorem AffinityRule.entry_hit (hvalues : rule.HasValues) : rule.entry.Hit rule.shown := by
  refine ⟨rule.entry_rule hvalues, ?_⟩
  by_cases hnode : rule.type = .nodeAffinity
  · simp [AffinityRule.entry, Entry.NoList, hnode, nodeMatchExpressions]
  · by_cases hkey : truthy rule.key = true <;>
      simp [AffinityRule.entry, Entry.NoList, AffinityRule.shown, hnode, podAffinityTermOf,
        generatePodAffinityTerm, hkey]

theorem AffinityRule.shown_listed (rule : AffinityRule) : rule.shown.Listed :=
  ⟨fun h => if_neg (by rw [show rule.priority = .required from h]; nofun), fun h => if_pos h⟩

theorem restored_of_entries {inserted restored : PodSchedulingPolicy M} {uid : JsString}
    (hinserted : Inserted policy rule inserted)
    (hremove : removeRuleInExistingPolicy inserted { rule.shown with uid } = .ok restored)
    (hentries : (restored.entriesAt rule.place).Perm (policy.entriesAt rule.place)) :
    Restored policy restored := by
  obtain ⟨hmetadata, hengine⟩ := removeRule_spec hremove
  refine ⟨?_, hengine.trans hinserted.engineType, ?_, hmetadata.trans hinserted.metadata⟩
  · intro place
    by_cases hplace : place = rule.place
    · exact hplace ▸ hentries
    · have hothers : restored.partAt place = policy.partAt place :=
        (removeRule_others hremove hplace).trans (hinserted.others place hplace)
      exact List.Perm.of_eq (congrArg (Option.getD · []) hothers)
  · intro engineType hother
    have hinsertedEngine : engineType ≠ inserted.spec.engineType := hinserted.engineType ▸ hother
    exact (removeRule_componentsOf hremove hinsertedEngine).trans
      (hinserted.otherEngines engineType hother)

theorem restores_of_found (hvalues : rule.HasValues) (hstuck : ¬ Stuck policy rule)
    (hfound : InsertedIsFound policy rule) : Restores policy rule := by
  obtain ⟨inserted, hinsert⟩ := (insert_ok_iff policy rule).mpr hstuck
  refine ⟨inserted, hinsert, fun uid => ?_⟩
  have hinserted := inserted_of_ok hvalues hinsert
  obtain ⟨before, after, hentries, hbefore⟩ := hfound
  have hlist : inserted.entriesAt rule.place = before ++ rule.entry :: after :=
    hinserted.entries.trans hentries
  have hsearch : findIndex (fun entry => entry.matchesRule { rule.shown with uid })
      (inserted.entriesAt rule.place) = .ok (some before.length) := by
    rw [hlist]
    exact findIndex_found (fun b hb => (b.matchesRule_false rule.shown).mpr (hbefore b hb))
      ((rule.entry.matchesRule_true rule.shown).mpr (rule.entry_hit hvalues))
  have hlisted : ({ rule.shown with uid } : AffinityRule).Listed :=
    ⟨rule.shown_listed.weight, rule.shown_listed.topologyKey⟩
  obtain ⟨restored, hremove, hspliced⟩ := removeRule_found hlisted hsearch
  refine ⟨restored, hremove, restored_of_entries hinserted hremove ?_⟩
  have hleft : restored.entriesAt rule.place = before ++ after :=
    entriesAt_of_partAt (spliced_entries hlist hspliced)
  rw [hleft]
  have hcons : (rule.entry :: (before ++ after)).Perm (rule.entry :: policy.entriesAt rule.place) :=
    List.perm_middle.symm.trans (hentries ▸ List.perm_append_comm)
  exact hcons.cons_inv

theorem found_of_restores (hvalues : rule.HasValues) (hrestores : Restores policy rule) :
    InsertedIsFound policy rule := by
  obtain ⟨inserted, hinsert, hremoves⟩ := hrestores
  obtain ⟨restored, hremove, hrestored⟩ := hremoves []
  have hinserted := inserted_of_ok hvalues hinsert
  obtain ⟨found, hsearch, hspliced⟩ := removeRule_ok rule.shown_listed hremove
  have hperm := hrestored.entries rule.place
  have hsearch' : findIndex (fun entry => entry.matchesRule rule.shown)
      (policy.entriesAt rule.place ++ [rule.entry]) = .ok found := hinserted.entries ▸ hsearch
  cases found with
  | none =>
    -- Nothing would be removed, and the inserted entry would be left.
    have hsame : restored.entriesAt rule.place = policy.entriesAt rule.place ++ [rule.entry] :=
      (congrArg (Option.getD · []) hspliced).trans hinserted.entries
    have hlength := hperm.length_eq
    rw [hsame, List.length_append, List.length_singleton] at hlength
    omega
  | some i =>
    obtain ⟨before, entry, after, hentries, rfl, hbefore, -⟩ := findIndex_eq_some hsearch'
    have hlist : inserted.entriesAt rule.place = before ++ entry :: after :=
      hinserted.entries.trans hentries
    have hleft : restored.entriesAt rule.place = before ++ after :=
      entriesAt_of_partAt (spliced_entries hlist hspliced)
    rw [hleft] at hperm
    have hcons : ([entry] ++ policy.entriesAt rule.place).Perm
        ([rule.entry] ++ policy.entriesAt rule.place) :=
      calc (entry :: policy.entriesAt rule.place).Perm (entry :: (before ++ after)) :=
            hperm.symm.cons entry
        List.Perm _ (before ++ entry :: after) := List.perm_middle.symm
        _ = policy.entriesAt rule.place ++ [rule.entry] := hentries.symm
        List.Perm _ ([rule.entry] ++ policy.entriesAt rule.place) := List.perm_append_comm
    obtain rfl : entry = rule.entry := by
      simpa using (List.perm_append_right_iff _).mp hcons
    exact ⟨before, after, hentries, fun b hb => (b.matchesRule_false rule.shown).mp (hbefore b hb)⟩

/-- A listed rule is removed as it should be if and only if the search stops at a term for it that
has no further expression; and an inserted rule is removed again if and only if it could be
inserted and the search stops at it, or at an equal one. -/
theorem remove_iff (policy : PodSchedulingPolicy M) :
    (∀ generateShortUID, ∀ rule ∈ dbPayloadToAffinityRules generateShortUID policy,
      ((∃ removed, removeRuleInExistingPolicy policy rule = .ok removed ∧
        Removed policy rule removed) ↔ Removable policy rule)) ∧
    ∀ rule, affinityFormSchema rule = [] →
      (Restores policy rule ↔ ¬ Stuck policy rule ∧ InsertedIsFound policy rule) := by
  refine ⟨fun _ rule hmem => removes_iff (listed_of_mem hmem), fun rule haccepted => ?_⟩
  have hvalues := hasValues_of_accepted haccepted
  constructor
  · intro h
    obtain ⟨inserted, hinsert, -⟩ := id h
    exact ⟨(insert_ok_iff policy rule).mp ⟨inserted, hinsert⟩, found_of_restores hvalues h⟩
  · rintro ⟨hstuck, hfound⟩
    exact restores_of_found hvalues hstuck hfound

end Listed

def emptySelectorPolicy : PodSchedulingPolicy Unit :=
  unsetPolicy.withAffinity .dbNode
    { podAffinity := some
        { required := some
            [{ labelSelector := some { matchExpressions := [] }
               topologyKey := some (js "host") }] } }

def hostRule : AffinityRule where
  component := .dbNode
  type := .podAffinity
  priority := .required
  topologyKey := some (js "host")

def withNodeTerms (terms : List NodeSelectorTerm) : PodSchedulingPolicy Unit :=
  unsetPolicy.withAffinity .dbNode { nodeAffinity := some { required := some ⟨terms⟩ } }

def diskExists : AffinityMatchExpression := ⟨some (js "disk"), some .Exists, none⟩

def twoExpressionsPolicy : PodSchedulingPolicy Unit :=
  withNodeTerms [{ matchExpressions := some [zoneExists, diskExists] }]

def noListPolicy : PodSchedulingPolicy Unit :=
  withNodeTerms [{ matchExpressions := none, matchFields := [diskExists] },
    { matchExpressions := some [zoneExists] }]

/-- A term with an empty list of expressions throws, and so does one without a list; one with two
expressions loses the second. -/
theorem remove_throws_and_loses :
    (hostRule ∈ dbPayloadToAffinityRules (fun _ => []) emptySelectorPolicy ∧
      removeRuleInExistingPolicy emptySelectorPolicy hostRule = .error (.reading (js "key"))) ∧
    (requiredZoneRule ∈ dbPayloadToAffinityRules (fun _ => []) noListPolicy ∧
      removeRuleInExistingPolicy noListPolicy requiredZoneRule =
        .error (.reading (js "length"))) ∧
    requiredZoneRule ∈ dbPayloadToAffinityRules (fun _ => []) twoExpressionsPolicy ∧
      removeRuleInExistingPolicy twoExpressionsPolicy requiredZoneRule = .ok unsetPolicy := by
  refine ⟨⟨List.mem_mergeSort.mpr ?_, rfl⟩, ⟨List.mem_mergeSort.mpr ?_, rfl⟩,
    List.mem_mergeSort.mpr ?_, rfl⟩
  · decide +kernel
  · decide +kernel
  · decide +kernel

def preferredZoneRule : AffinityRule :=
  { requiredZoneRule with priority := .preferred, weight := some 1 }

theorem remove_preferred_policy :
    (∃ removed, removeRuleInExistingPolicy preferredPolicy preferredZoneRule = .ok removed ∧
      Removed preferredPolicy preferredZoneRule removed) ∧
    Restores unsetPolicy requiredZoneRule := by
  have hlisted : preferredZoneRule ∈ dbPayloadToAffinityRules (fun _ => []) preferredPolicy := by
    refine List.mem_mergeSort.mpr ?_
    decide +kernel
  refine ⟨((remove_iff preferredPolicy).1 _ _ hlisted).mpr ?_,
    ((remove_iff unsetPolicy).2 requiredZoneRule (by decide +kernel)).mpr ⟨?_, ?_⟩⟩
  · exact ⟨[], preferredZoneRule.entry, [], by decide +kernel, nofun, by decide +kernel,
      by decide +kernel, rfl⟩
  · rintro ⟨-, -, affinity, haffinity, -⟩
    cases haffinity
  · exact ⟨[], [], by decide +kernel, nofun⟩

end OpenEverest.Ui
