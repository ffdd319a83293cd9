import OpenEverest.Framework.GoString

/-!
# The default storage class

The names of the storage classes are filled in one by one, and the name of a default class is
swapped to the front. What counts as default there is that the annotation is present, with
whatever value.
-/

namespace OpenEverest.K8s

open Framework

structure StorageClass where
  name : GoString
  annotations : GoString → Option GoString

def annotationStorageClassDefault : GoString :=
  ascii "storageclass.kubernetes.io/is-default-class"

/-- `reflect.Swapper`. -/
def swap (classNames : List GoString) (i j : Nat) : List GoString :=
  (classNames.set i (classNames.getD j [])).set j (classNames.getD i [])

def StorageClass.annotated (storageClass : StorageClass) : Bool :=
  (storageClass.annotations annotationStorageClassDefault).isSome

/-- The loop from the index `i` on. -/
def fillClassNames (classNames : List GoString) (i : Nat) : List StorageClass → List GoString
  | [] => classNames
  | storageClass :: rest =>
    let classNames := classNames.set i storageClass.name
    let classNames :=
      if storageClass.annotated then if i ≠ 0 then swap classNames i 0 else classNames
      else classNames
    fillClassNames classNames (i + 1) rest

def storageClasses (items : List StorageClass) : List GoString :=
  fillClassNames (List.replicate items.length []) 0 items

def placeName (names : List GoString) (storageClass : StorageClass) : List GoString :=
  match names with
  | [] => [storageClass.name]
  | first :: others =>
    if storageClass.annotated then storageClass.name :: (others ++ [first])
    else first :: (others ++ [storageClass.name])

theorem swap_first (first last : GoString) (others blanks : List GoString) :
    swap (first :: (others ++ last :: blanks)) (others.length + 1) 0 =
      last :: (others ++ first :: blanks) := by
  simp [swap]

theorem fillClassNames_cons (names : List GoString) (storageClass : StorageClass)
    (rest : List StorageClass) :
    fillClassNames (names ++ List.replicate (storageClass :: rest).length []) names.length
        (storageClass :: rest) =
      fillClassNames (placeName names storageClass ++ List.replicate rest.length [])
        (placeName names storageClass).length rest := by
  rw [fillClassNames]
  cases names with
  | nil => simp [placeName, List.replicate_succ]
  | cons first others =>
    have hset : (first :: others ++ List.replicate (storageClass :: rest).length []).set
        (first :: others).length storageClass.name =
          first :: (others ++ storageClass.name :: List.replicate rest.length []) := by
      simp [List.replicate_succ]
    rw [hset, List.length_cons, swap_first]
    cases hannotated : storageClass.annotated with
    | false => simp [placeName, hannotated]
    | true => simp [placeName, hannotated]

theorem fillClassNames_eq (names : List GoString) (items : List StorageClass) :
    fillClassNames (names ++ List.replicate items.length []) names.length items =
      items.foldl placeName names := by
  induction items generalizing names with
  | nil => simp [fillClassNames]
  | cons storageClass rest ih => rw [fillClassNames_cons, ih, List.foldl_cons]

theorem storageClasses_eq (items : List StorageClass) :
    storageClasses items = items.foldl placeName [] := fillClassNames_eq [] items

theorem placeName_perm (names : List GoString) (storageClass : StorageClass) :
    (placeName names storageClass).Perm (names ++ [storageClass.name]) := by
  cases names with
  | nil => exact List.Perm.refl _
  | cons first others =>
    simp only [placeName]
    split
    · have hend := List.perm_append_singleton first others
      have hfront := (List.perm_append_singleton storageClass.name (first :: others)).symm
      exact (hend.cons storageClass.name).trans hfront
    · exact List.Perm.refl _

theorem storageClasses_perm (items : List StorageClass) :
    (storageClasses items).Perm (items.map StorageClass.name) := by
  rw [storageClasses_eq]
  induction items using List.reverseRecOn with
  | nil => exact List.Perm.refl _
  | append_singleton items storageClass ih =>
    rw [List.foldl_append, List.map_append]
    exact (placeName_perm _ storageClass).trans (ih.append_right _)

def lastAnnotated (items : List StorageClass) : Option StorageClass :=
  items.reverse.find? StorageClass.annotated

theorem placeName_head (names : List GoString) (storageClass : StorageClass) :
    (placeName names storageClass).head? =
      if storageClass.annotated then some storageClass.name
      else names.head?.or (some storageClass.name) := by
  cases names with
  | nil => simp [placeName]
  | cons first others =>
    simp only [placeName]
    split <;> rfl

theorem lastAnnotated_concat (items : List StorageClass) (storageClass : StorageClass) :
    lastAnnotated (items ++ [storageClass]) =
      if storageClass.annotated then some storageClass else lastAnnotated items := by
  rw [lastAnnotated, List.reverse_append, List.reverse_singleton, List.singleton_append,
    List.find?_cons]
  cases storageClass.annotated <;> rfl

/-- The first name is that of the last class with the annotation, or that of the first class. -/
theorem storageClasses_head (items : List StorageClass) :
    (storageClasses items).head? =
      ((lastAnnotated items).or items.head?).map StorageClass.name := by
  rw [storageClasses_eq]
  induction items using List.reverseRecOn with
  | nil => rfl
  | append_singleton items storageClass ih =>
    rw [List.foldl_append, List.foldl_cons, List.foldl_nil, placeName_head, ih,
      lastAnnotated_concat]
    cases storageClass.annotated with
    | true => rfl
    | false =>
      cases lastAnnotated items with
      | some last => rfl
      | none => cases items <;> rfl

/-- Marked as default: the annotation has the value true. -/
def StorageClass.IsDefault (storageClass : StorageClass) : Prop :=
  storageClass.annotations annotationStorageClassDefault = some (ascii "true")

theorem StorageClass.IsDefault.annotated {storageClass : StorageClass}
    (h : storageClass.IsDefault) : storageClass.annotated = true := by
  rw [StorageClass.annotated, show _ = _ from h]
  rfl

structure DefaultFirst (items : List StorageClass) : Prop where
  perm : (storageClasses items).Perm (items.map StorageClass.name)
  first : (∃ c ∈ items, c.IsDefault) →
    ∃ c ∈ items, c.IsDefault ∧ (storageClasses items).head? = some c.name

/-- The default class comes first exactly where the last class with the annotation is one, or
has the name of one. -/
theorem defaultFirst_iff (items : List StorageClass) :
    DefaultFirst items ↔ ∀ last ∈ lastAnnotated items, (∃ c ∈ items, c.IsDefault) →
      ∃ c ∈ items, c.IsDefault ∧ c.name = last.name := by
  constructor
  · intro h last hlast hdefault
    obtain ⟨c, hc, hcdefault, hhead⟩ := h.first hdefault
    rw [storageClasses_head, hlast] at hhead
    exact ⟨c, hc, hcdefault, (Option.some.inj hhead).symm⟩
  · intro h
    refine ⟨storageClasses_perm items, ?_⟩
    intro hdefault
    obtain ⟨c, hc, hcdefault⟩ := hdefault
    have hsome : (lastAnnotated items).isSome := by
      rw [lastAnnotated, List.find?_isSome]
      exact ⟨c, List.mem_reverse.mpr hc, hcdefault.annotated⟩
    obtain ⟨last, hlast⟩ := Option.isSome_iff_exists.mp hsome
    obtain ⟨d, hd, hddefault, hname⟩ := h last hlast ⟨c, hc, hcdefault⟩
    refine ⟨d, hd, hddefault, ?_⟩
    rw [storageClasses_head, hlast, hname]
    rfl

def markedClass (name value : GoString) : StorageClass :=
  ⟨name, Function.update (fun _ => none) annotationStorageClassDefault (some value)⟩

theorem markedClass_isDefault (name : GoString) : (markedClass name (ascii "true")).IsDefault := by
  simp [StorageClass.IsDefault, markedClass]

/-- A class marked with false behind the default one takes the first place. -/
theorem unmarked_first : ¬ ∀ items, DefaultFirst items := by
  intro h
  obtain ⟨c, hc, hcdefault, hhead⟩ := (h [markedClass (ascii "gp3") (ascii "true"),
    markedClass (ascii "gp2") (ascii "false")]).first
      ⟨_, List.mem_cons_self, markedClass_isDefault _⟩
  rcases List.mem_cons.mp hc with rfl | hc
  · revert hhead
    decide +kernel
  · obtain rfl := List.mem_singleton.mp hc
    revert hcdefault
    unfold StorageClass.IsDefault
    decide +kernel

end OpenEverest.K8s
