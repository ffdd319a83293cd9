import OpenEverest.Framework.GoString

/-!
# Go semantic versions

The Go package `semver`: a version is `v` and up to three numbers, a full one
may carry a pre-release and a build. Invalid versions compare below valid ones
and equal among themselves.
-/

namespace OpenEverest.Framework.Semver

open GoString

structure Parsed where
  major : GoString
  minor : GoString
  patch : GoString
  prerelease : GoString
  build : GoString
  deriving DecidableEq

def isDigit (b : UInt8) : Bool := decide (48 ≤ b ∧ b ≤ 57)

def isIdentChar (b : UInt8) : Bool :=
  decide (65 ≤ b ∧ b ≤ 90 ∨ 97 ≤ b ∧ b ≤ 122 ∨ 48 ≤ b ∧ b ≤ 57 ∨ b = 45)

def isNum (v : GoString) : Bool := v.all isDigit

def isBadNum (v : GoString) : Bool := isNum v && decide (1 < v.length) && decide (v.head? = some 48)

def parseInt (v : GoString) : Option (GoString × GoString) :=
  let t := v.takeWhile isDigit
  if t = [] then none
  else if t.head? = some 48 ∧ t.length ≠ 1 then none
  else some (t, v.dropWhile isDigit)

def idents (suffix : GoString) : List GoString := split 46 (suffix.drop 1)

/-- `-` and identifiers, up to a `+`. -/
def parsePrerelease (v : GoString) : Option (GoString × GoString) :=
  let t := v.takeWhile (· ≠ 43)
  if (idents t).all fun i => i.all isIdentChar && decide (i ≠ []) && !isBadNum i then
    some (t, v.dropWhile (· ≠ 43))
  else none

/-- `+` and identifiers, to the end. -/
def parseBuild (v : GoString) : Option GoString :=
  if (idents v).all fun i => i.all isIdentChar && decide (i ≠ []) then some v else none

def parseSuffixes (major minor patch v : GoString) : Option Parsed := do
  let (prerelease, v) ← if v.head? = some 45 then parsePrerelease v else some ([], v)
  if v = [] then some ⟨major, minor, patch, prerelease, []⟩
  else if v.head? = some 43 then do
    let build ← parseBuild v
    some ⟨major, minor, patch, prerelease, build⟩
  else none

def parse : GoString → Option Parsed
  | 118 :: v => do
    let (major, v) ← parseInt v
    match v with
    | [] => some ⟨major, ascii "0", ascii "0", [], []⟩
    | 46 :: v => do
      let (minor, v) ← parseInt v
      match v with
      | [] => some ⟨major, minor, ascii "0", [], []⟩
      | 46 :: v => do
        let (patch, v) ← parseInt v
        parseSuffixes major minor patch v
      | _ => none
    | _ => none
  | _ => none

def isValid (v : GoString) : Bool := (parse v).isSome

/-- `v` and the major number, empty when the version is invalid. -/
def major (v : GoString) : GoString :=
  match parse v with
  | none => []
  | some p => 118 :: p.major

def compareInt (x y : GoString) : Ordering :=
  if x = y then .eq
  else if x.length < y.length then .lt
  else if y.length < x.length then .gt
  else compare x y

def compareIdent (x y : GoString) : Ordering :=
  if isNum x ≠ isNum y then (if isNum x then .lt else .gt)
  else if isNum x ∧ x.length < y.length then .lt
  else if isNum x ∧ y.length < x.length then .gt
  else compare x y

def compareIdents : List GoString → List GoString → Ordering
  | [], [] => .eq
  | [], _ :: _ => .lt
  | _ :: _, [] => .gt
  | dx :: x, dy :: y => if dx ≠ dy then compareIdent dx dy else compareIdents x y

/-- No pre-release is above every pre-release. -/
def comparePrerelease (x y : GoString) : Ordering :=
  if x = y then .eq
  else if x = [] then .gt
  else if y = [] then .lt
  else compareIdents (idents x) (idents y)

def compareParsed (x y : Parsed) : Ordering :=
  (compareInt x.major y.major).then <| (compareInt x.minor y.minor).then <|
    (compareInt x.patch y.patch).then (comparePrerelease x.prerelease y.prerelease)

def compareVersion (v w : GoString) : Ordering :=
  match parse v, parse w with
  | none, none => .eq
  | none, some _ => .lt
  | some _, none => .gt
  | some x, some y => compareParsed x y

theorem compareInt_eq : compareInt = compareLex (compareOn List.length) compare := by
  funext x y
  unfold compareInt compareLex compareOn
  by_cases hxy : x = y
  · subst hxy
    simp
  · have hne : compare x y ≠ .eq := fun h => hxy (Std.compare_eq_iff_eq.mp h)
    rcases Nat.lt_trichotomy x.length y.length with h | h | h
    · have hc : compare x.length y.length = .lt := Nat.compare_eq_lt.mpr h
      simp [hxy, h, hc]
    · have hc : compare x.length y.length = .eq := Nat.compare_eq_eq.mpr h
      simp [hxy, h]
    · have hc : compare x.length y.length = .gt := Nat.compare_eq_gt.mpr h
      have hn : ¬ x.length < y.length := by omega
      simp [hxy, h, hn, hc]

instance : Std.TransCmp compareInt := by
  rw [compareInt_eq]
  infer_instance

def numLength (x : GoString) : Nat := if isNum x then x.length else 0

theorem compareIdent_eq : compareIdent =
    compareLex (compareOn fun x => !isNum x) (compareLex (compareOn numLength) compare) := by
  funext x y
  unfold compareIdent compareLex compareOn numLength
  have hgt : compare true false = .gt := rfl
  have hlt : compare false true = .lt := rfl
  cases hx : isNum x <;> cases hy : isNum y
  · simp [hx, hy]
  · simp [hx, hy, hgt]
  · simp [hx, hy, hlt]
  · rcases Nat.lt_trichotomy x.length y.length with h | h | h
    · have hc : compare x.length y.length = .lt := Nat.compare_eq_lt.mpr h
      simp [hx, hy, h, hc]
    · have hc : compare x.length y.length = .eq := Nat.compare_eq_eq.mpr h
      simp [hx, hy, h]
    · have hc : compare x.length y.length = .gt := Nat.compare_eq_gt.mpr h
      have hn : ¬ x.length < y.length := by omega
      simp [hx, hy, h, hn, hc]

instance : Std.TransCmp compareIdent := by
  rw [compareIdent_eq]
  infer_instance

theorem compareIdents_eq : compareIdents = List.compareLex compareIdent := by
  funext x y
  induction x generalizing y with
  | nil => cases y <;> rfl
  | cons dx x ih =>
    cases y with
    | nil => rfl
    | cons dy y =>
      rw [compareIdents, List.compareLex_cons_cons]
      by_cases hd : dx = dy
      · subst hd
        simp [ih, Std.ReflCmp.compare_self]
      · have hne : compareIdent dx dy ≠ .eq := by
          rw [compareIdent_eq]
          intro h
          have hc := (compareLex_eq_eq.mp h).2
          exact hd (Std.compare_eq_iff_eq.mp (compareLex_eq_eq.mp hc).2)
        rw [if_pos hd]
        cases hc : compareIdent dx dy with
        | lt => rfl
        | eq => exact absurd hc hne
        | gt => rfl

instance : Std.TransCmp compareIdents := by
  rw [compareIdents_eq]
  infer_instance

theorem comparePrerelease_eq : comparePrerelease =
    compareLex (compareOn fun x => decide (x = [])) fun x y => compareIdents (idents x) (idents y) := by
  funext x y
  unfold comparePrerelease compareLex compareOn
  have hgt : compare true false = .gt := rfl
  have hlt : compare false true = .lt := rfl
  by_cases hxy : x = y
  · subst hxy
    simp [Std.ReflCmp.compare_self]
  · by_cases hx : x = []
    · have hy : y ≠ [] := fun hy => hxy (hx.trans hy.symm)
      simp [hx, hy, hy.symm, hgt]
    · by_cases hy : y = []
      · simp [hx, hy, hlt]
      · simp [hxy, hx, hy]

instance : Std.TransCmp comparePrerelease := by
  have : Std.TransCmp fun x y => compareIdents (idents x) (idents y) :=
    { eq_swap := Std.OrientedCmp.eq_swap
      isLE_trans := Std.TransCmp.isLE_trans }
  rw [comparePrerelease_eq]
  infer_instance

def byField (cmp : GoString → GoString → Ordering) (f : Parsed → GoString) (x y : Parsed) :
    Ordering := cmp (f x) (f y)

instance (cmp : GoString → GoString → Ordering) [Std.TransCmp cmp] (f : Parsed → GoString) :
    Std.TransCmp (byField cmp f) where
  eq_swap := by
    intro x y
    show cmp (f x) (f y) = (cmp (f y) (f x)).swap
    exact Std.OrientedCmp.eq_swap
  isLE_trans := by
    intro x y z hxy hyz
    have hle : (cmp (f x) (f z)).isLE := Std.TransCmp.isLE_trans hxy hyz
    exact hle

instance : Std.TransCmp compareParsed :=
  inferInstanceAs (Std.TransCmp
    (compareLex (byField compareInt Parsed.major)
      (compareLex (byField compareInt Parsed.minor)
        (compareLex (byField compareInt Parsed.patch)
          (byField comparePrerelease Parsed.prerelease)))))

theorem compareVersion_self (v : GoString) : compareVersion v v = .eq := by
  unfold compareVersion
  cases parse v with
  | none => rfl
  | some x => exact (inferInstance : Std.ReflCmp compareParsed).compare_self

theorem compareVersion_isGE_trans {u v w : GoString} (huv : (compareVersion u v).isGE)
    (hvw : (compareVersion v w).isGE) : (compareVersion u w).isGE := by
  unfold compareVersion at huv hvw ⊢
  cases hu : parse u with
  | none =>
    cases hv : parse v with
    | none => simpa [hv] using hvw
    | some y => simp [hu, hv] at huv
  | some x =>
    cases hw : parse w with
    | none => rfl
    | some z =>
      cases hv : parse v with
      | none => simp [hv, hw] at hvw
      | some y =>
        have hxy : (compareParsed x y).isGE := by simpa [hu, hv] using huv
        have hyz : (compareParsed y z).isGE := by simpa [hv, hw] using hvw
        exact Std.TransCmp.isGE_trans hxy hyz

end OpenEverest.Framework.Semver
