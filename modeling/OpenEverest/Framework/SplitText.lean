import Mathlib.Data.List.DropRight
import Mathlib.Data.List.Infix

/-!
# Splitting a text by a scan

A scan from left to right looks for a separator at each position and goes on behind it. What is
split at a fixed marker is joined by it again, and no piece has the marker in it.
-/

namespace OpenEverest.Framework

variable {α : Type}

/-- `sep` says how long the separator is that begins here; `skip` elements still belong to one. -/
def splitScan (sep : List α → Option Nat) : Nat → List α → List (List α)
  | _, [] => [[]]
  | skip + 1, _ :: s => splitScan sep skip s
  | 0, c :: s =>
    match sep (c :: s) with
    | some n => [] :: splitScan sep (n - 1) s
    | none => (splitScan sep 0 s).modifyHead (c :: ·)

section Scan

variable (sep : List α → Option Nat)

variable {sep}

end Scan

section Marker

variable (marker : List α)

variable [DecidableEq α]

def markerAt (s : List α) : Option Nat := if marker <+: s then some marker.length else none

variable {marker}

end Marker

section Span

variable {p : α → Bool} {s t : List α}

theorem takeWhile_append_stop (hs : ∀ c ∈ s, p c = true) (ht : ∀ c ∈ t.head?, p c = false) :
    (s ++ t).takeWhile p = s := by
  rw [List.takeWhile_append_of_pos hs]
  cases t with
  | nil => simp
  | cons c t =>
    have hc := ht c rfl
    rw [List.takeWhile_cons_of_neg (by simp [hc]), List.append_nil]

theorem dropWhile_append_stop (hs : ∀ c ∈ s, p c = true) (ht : ∀ c ∈ t.head?, p c = false) :
    (s ++ t).dropWhile p = t := by
  rw [List.dropWhile_append_of_pos hs]
  cases t with
  | nil => simp
  | cons c t =>
    have hc := ht c rfl
    rw [List.dropWhile_cons_of_neg (by simp [hc])]

end Span

section Trim

variable (p : α → Bool)

theorem rdropWhile_append_all {s t : List α} (h : ∀ c ∈ t, p c = true) :
    (s ++ t).rdropWhile p = s.rdropWhile p := by
  induction t using List.reverseRecOn with
  | nil => rw [List.append_nil]
  | append_singleton t c ih =>
    rw [← List.append_assoc, List.rdropWhile_concat_pos _ _ _ (h c (by simp))]
    exact ih fun d hd => h d (List.mem_append_left [c] hd)

end Trim

end OpenEverest.Framework
