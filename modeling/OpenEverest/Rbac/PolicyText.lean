import OpenEverest.Framework.Checks
import OpenEverest.Framework.GoString

/-!
# Loading a policy

The policy is a text of lines in the RBAC ConfigMap. Each line is read as one
record of comma-separated values and added to the model of Casbin as a rule or
as a role assignment.
-/

namespace OpenEverest.Rbac

open Framework GoString

inductive PolicyError where
  | getConfigMap
  | policyNotFound
  | csvBareQuote
  | csvQuote
  | csvNoRecord
  | invalidPolicyLine
  | invalidPolicyRuleSize
  | invalidPolicyTerm (term : GoString)
  | roleDoesNotExist (role : GoString)
  | unknownResourceName (name : GoString)
  deriving DecidableEq

/-- The leading spaces of `unicode.IsSpace`, in their encoding, are trimmed. -/
def trimLeadingSpace : GoString → GoString
  | 0xC2 :: b :: bs => if b = 0x85 ∨ b = 0xA0 then trimLeadingSpace bs else 0xC2 :: b :: bs
  | 0xE1 :: 0x9A :: 0x80 :: bs => trimLeadingSpace bs
  | 0xE2 :: 0x80 :: b :: bs =>
    if (0x80 ≤ b ∧ b ≤ 0x8A) ∨ b = 0xA8 ∨ b = 0xA9 ∨ b = 0xAF then trimLeadingSpace bs
    else 0xE2 :: 0x80 :: b :: bs
  | 0xE2 :: 0x81 :: 0x9F :: bs => trimLeadingSpace bs
  | 0xE3 :: 0x80 :: 0x80 :: bs => trimLeadingSpace bs
  | b :: bs => if (9 ≤ b ∧ b ≤ 13) ∨ b = 32 then trimLeadingSpace bs else b :: bs
  | [] => []

/-- Where a reader of fields stands; the bytes of the field so far are in order. -/
inductive FieldState where
  | plain (field : GoString)
  | quoted (field : GoString)
  | closed (field : GoString)

def readField : FieldState → GoString → Except PolicyError (GoString × Option GoString)
  | .plain field, [] => .ok (field, none)
  | .plain field, b :: bs =>
    if b = 44 then .ok (field, some bs)
    else if b = 34 then .error .csvBareQuote
    else readField (.plain (field ++ [b])) bs
  | .quoted _, [] => .error .csvQuote
  | .quoted field, b :: bs =>
    if b = 34 then readField (.closed field) bs else readField (.quoted (field ++ [b])) bs
  | .closed field, [] => .ok (field, none)
  | .closed field, b :: bs =>
    if b = 44 then .ok (field, some bs)
    else if b = 34 then readField (.quoted (field ++ [b])) bs
    else .error .csvQuote

def startField : GoString → Except PolicyError (GoString × Option GoString)
  | 34 :: bs => readField (.quoted []) bs
  | bs => readField (.plain []) bs

/-- The fields of a line, of which there are at most as many as its bytes and one. -/
def readFields : Nat → GoString → Except PolicyError (List GoString)
  | 0, _ => .ok []
  | turns + 1, line => do
    let (field, rest) ← startField (trimLeadingSpace line)
    match rest with
    | none => .ok [field]
    | some rest =>
      let fields ← readFields turns rest
      .ok (field :: fields)

section Turns

theorem trimLeadingSpace_length (line : GoString) :
    (trimLeadingSpace line).length ≤ line.length := by
  fun_induction trimLeadingSpace line <;> simp_all <;> omega

theorem readField_length {state : FieldState} {bs field rest : GoString}
    (h : readField state bs = .ok (field, some rest)) : rest.length < bs.length := by
  fun_induction readField state bs <;> simp_all
  all_goals omega

theorem startField_length {line field rest : GoString}
    (h : startField line = .ok (field, some rest)) : rest.length < line.length := by
  unfold startField at h
  split at h
  · have hshort := readField_length h
    rw [List.length_cons]
    omega
  · exact readField_length h

theorem readFields_turns {turns turns' : Nat} (line : GoString) (h : line.length < turns)
    (h' : line.length < turns') : readFields turns line = readFields turns' line := by
  induction turns generalizing turns' line with
  | zero => omega
  | succ turns ih =>
    cases turns' with
    | zero => omega
    | succ turns' =>
      unfold readFields
      cases hfield : startField (trimLeadingSpace line) with
      | error e => rfl
      | ok read =>
        obtain ⟨field, rest⟩ := read
        cases rest with
        | none => rfl
        | some rest =>
          have hshort := startField_length hfield
          have htrim := trimLeadingSpace_length line
          have hrest : readFields turns rest = readFields turns' rest :=
            ih rest (by omega) (by omega)
          simp only [bind, Except.bind, hrest]

end Turns

/-- `csv.Reader.Read` of a text without a line break. -/
def readRecord (line : GoString) : Except PolicyError (List GoString) :=
  let line := trimSuffix line (ascii "\r")
  if line = [] then .error .csvNoRecord else readFields (line.length + 1) line

structure PolicyRule where
  sub : GoString
  res : GoString
  act : GoString
  obj : GoString
  deriving DecidableEq

/-- The terms of a rule joined by commas, by which rules are told apart. -/
def PolicyRule.key (rule : PolicyRule) : GoString := join 44 [rule.sub, rule.res, rule.act, rule.obj]

/-- The rules `p` and the assignments `g`, which may hold more terms than two. -/
structure CasbinModel where
  p : List PolicyRule
  g : List (List GoString)
  deriving DecidableEq

namespace CasbinModel

def empty : CasbinModel := ⟨[], []⟩

/-- A rule that is there already is skipped. -/
def addPolicy (m : CasbinModel) (rule : PolicyRule) : CasbinModel :=
  if rule.key ∈ m.p.map (·.key) then m else { m with p := m.p ++ [rule] }

def addGroupingPolicy (m : CasbinModel) (terms : List GoString) : CasbinModel :=
  if join 44 terms ∈ m.g.map (join 44) then m else { m with g := m.g ++ [terms] }

/-- `buildRoleLinks`: the first two terms of every assignment. -/
def links (m : CasbinModel) : List (GoString × GoString) :=
  m.g.filterMap fun
    | name1 :: name2 :: _ => some (name1, name2)
    | _ => none

/-- `GetAllRoles`. -/
def roles (m : CasbinModel) : List GoString := m.links.map (·.2)

theorem mem_addPolicy {m : CasbinModel} {rule r : PolicyRule} (h : r ∈ (m.addPolicy rule).p) :
    r ∈ m.p ∨ r = rule := by
  unfold addPolicy at h
  split at h
  · exact .inl h
  · simpa using h

theorem subset_addPolicy (m : CasbinModel) (rule : PolicyRule) : m.p ⊆ (m.addPolicy rule).p := by
  unfold addPolicy
  split
  · exact fun _ h => h
  · exact List.subset_append_left ..

@[simp] theorem addPolicy_links (m : CasbinModel) (rule : PolicyRule) :
    (m.addPolicy rule).links = m.links := by
  unfold addPolicy
  split <;> rfl

end CasbinModel

/-- `persist.LoadPolicyArray`, for a key that is `p` or `g`. -/
def loadPolicyArray (tokens : List GoString) (m : CasbinModel) : Except PolicyError CasbinModel :=
  match tokens with
  | [] => .error .invalidPolicyLine
  | key :: rule =>
    if key = ascii "p" then
      match rule with
      | [sub, res, act, obj] => .ok (m.addPolicy ⟨sub, res, act, obj⟩)
      | _ => .error .invalidPolicyRuleSize
    else if rule.length < 2 then .error .invalidPolicyRuleSize
    else .ok (m.addGroupingPolicy rule)

def loadPolicyLine (line : GoString) (m : CasbinModel) : Except PolicyError CasbinModel :=
  if line = [] ∨ line.head? = some 35 then .ok m
  else do
    let tokens ← readRecord line
    if tokens.length < 2 then .error .invalidPolicyLine
    else if tokens.head? ≠ some (ascii "p") ∧ tokens.head? ≠ some (ascii "g") then
      .error .invalidPolicyLine
    else loadPolicyArray tokens m

def loadLines : List GoString → CasbinModel → Except PolicyError CasbinModel
  | [], m => .ok m
  | line :: lines, m => do
    let m ← loadPolicyLine line m
    loadLines lines m

def loadPolicyText (text : GoString) : Except PolicyError CasbinModel :=
  loadLines (split 10 text) .empty

structure ConfigMap where
  policyCsv : Option GoString
  enabled : Option GoString
  deriving DecidableEq

def ConfigMap.isEnabled (cm : ConfigMap) : Bool := decide (cm.enabled.getD [] = ascii "true")

/-- `Adapter.LoadPolicy` of the ConfigMap adapter. -/
def ConfigMap.loadPolicy (cm : ConfigMap) : Except PolicyError CasbinModel :=
  match cm.policyCsv with
  | none => .error .policyNotFound
  | some text => loadPolicyText text

end OpenEverest.Rbac
