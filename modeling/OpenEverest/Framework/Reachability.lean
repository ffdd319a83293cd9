import Mathlib.Data.List.Basic
import Mathlib.Logic.Relation

/-!
# Following links

Two ways to follow a finite list of links: asking whether they lead from one name
to another, and collecting the names they lead to. Cycles are allowed.
-/

namespace OpenEverest.Framework

variable {α : Type*}

abbrev LeadsTo (links : List (α × α)) : α → α → Prop :=
  Relation.ReflTransGen fun a b => (a, b) ∈ links

theorem LeadsTo.mono {links links' : List (α × α)} (h : links ⊆ links') {x y : α}
    (hxy : LeadsTo links x y) : LeadsTo links' x y :=
  hxy.lift id fun _ _ hab => h hab

theorem leadsTo_nil (x y : α) : LeadsTo ([] : List (α × α)) x y ↔ y = x :=
  Relation.reflTransGen_iff_eq fun _ h => List.not_mem_nil h

/-- A way along the links goes past the first link, or through it once. -/
theorem leadsTo_cons (a b : α) (links : List (α × α)) (x y : α) :
    LeadsTo ((a, b) :: links) x y ↔
      LeadsTo links x y ∨ (LeadsTo links x a ∧ LeadsTo links b y) := by
  have htail : links ⊆ (a, b) :: links := List.subset_cons_self ..
  constructor
  · intro h
    induction h with
    | refl => exact .inl .refl
    | tail _ hlink ih =>
      rcases List.mem_cons.mp hlink with heq | hlink
      · obtain ⟨rfl, rfl⟩ := Prod.mk.inj heq
        exact .inr ⟨ih.elim id And.left, .refl⟩
      · exact ih.imp (·.tail hlink) fun h => ⟨h.1, h.2.tail hlink⟩
  · intro h
    rcases h with h | ⟨hxa, hby⟩
    · exact h.mono htail
    · have hab : LeadsTo ((a, b) :: links) a b := .single List.mem_cons_self
      exact (hxa.mono htail).trans (hab.trans (hby.mono htail))

variable [DecidableEq α]

def hasLink : List (α × α) → α → α → Bool
  | [], x, y => decide (x = y)
  | (a, b) :: links, x, y => hasLink links x y || (hasLink links x a && hasLink links b y)

theorem hasLink_iff (links : List (α × α)) (x y : α) :
    hasLink links x y = true ↔ LeadsTo links x y := by
  induction links generalizing x y with
  | nil => rw [leadsTo_nil, hasLink, decide_eq_true_eq, eq_comm]
  | cons link links ih =>
    obtain ⟨a, b⟩ := link
    rw [leadsTo_cons, hasLink, Bool.or_eq_true, Bool.and_eq_true, ih, ih, ih]

@[simp] theorem hasLink_self (links : List (α × α)) (x : α) : hasLink links x x = true :=
  (hasLink_iff ..).mpr .refl

def reached : List (α × α) → List α → List α
  | [], names => names
  | (a, b) :: links, names =>
    let found := reached links names
    if a ∈ found then reached links (b :: found) else found

theorem mem_reached (links : List (α × α)) (names : List α) (y : α) :
    y ∈ reached links names ↔ ∃ x ∈ names, LeadsTo links x y := by
  induction links generalizing names y with
  | nil => simp only [reached, leadsTo_nil, exists_eq_right']
  | cons link links ih =>
    obtain ⟨a, b⟩ := link
    simp only [reached, leadsTo_cons]
    split
    · rename_i ha
      obtain ⟨s, hs, hsa⟩ := (ih names a).mp ha
      rw [ih]
      constructor
      · rintro ⟨x, hx, hxy⟩
        rcases List.mem_cons.mp hx with rfl | hx
        · exact ⟨s, hs, .inr ⟨hsa, hxy⟩⟩
        · obtain ⟨z, hz, hzx⟩ := (ih names x).mp hx
          exact ⟨z, hz, .inl (hzx.trans hxy)⟩
      · rintro ⟨x, hx, hxy | ⟨-, hby⟩⟩
        · exact ⟨x, List.mem_cons_of_mem _ ((ih names x).mpr ⟨x, hx, .refl⟩), hxy⟩
        · exact ⟨b, List.mem_cons_self, hby⟩
    · rename_i ha
      rw [ih]
      constructor
      · rintro ⟨x, hx, hxy⟩
        exact ⟨x, hx, .inl hxy⟩
      · rintro ⟨x, hx, hxy | ⟨hxa, -⟩⟩
        · exact ⟨x, hx, hxy⟩
        · exact absurd ((ih names a).mpr ⟨x, hx, hxa⟩) ha

theorem mem_reached_singleton (links : List (α × α)) (x y : α) :
    y ∈ reached links [x] ↔ hasLink links x y = true := by
  rw [mem_reached, hasLink_iff]
  simp only [List.mem_singleton, exists_eq_left]

end OpenEverest.Framework
