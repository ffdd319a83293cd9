import OpenEverest.Ui.ResourcesDetails

/-!
# Limits and requests that the form keeps

A limit and a request of a cluster by what they denote, and what the form makes of them: it reads
both, settles on a size and writes them anew.
-/

namespace OpenEverest.Ui

open Framework JsString

/-! ### What resources denote -/

/-- A limit, and a request where there is one. -/
structure Amount where
  limit : JsString
  request : Option JsString

def amount (field : ResourceRequirements → Option JsString) (flat : Resources → Option JsString)
    (resources : Option Resources) : Amount where
  limit := (resources.bind fun r => (r.limits.bind field).or (flat r)).getD (js "0")
  request := resources.bind fun r => r.requests.bind field

def cpuAmount : Option Resources → Amount := amount (·.cpu) (·.cpu)

def memoryAmount : Option Resources → Amount := amount (·.memory) (·.memory)

def Amount.requestText (a : Amount) : JsString := a.request.getD a.limit

theorem Amount.requestText_some {a : Amount} {request : JsString} (h : a.request = some request) :
    a.requestText = request := by
  rw [requestText, h, Option.getD_some]

theorem Amount.requestText_none {a : Amount} (h : a.request = none) : a.requestText = a.limit := by
  rw [requestText, h, Option.getD_none]

section Same

-- The request that an engine takes for a limit when none is given, if it takes one.
variable (defaultRequest : DbEngineType → ℚ → Option ℚ) (engineType : DbEngineType)

/-- The request in force; the outer `none` is for a text that is no quantity. -/
def Amount.effectiveRequest (a : Amount) : Option (Option ℚ) :=
  match a.request with
  | some request => (quantityValue request).map some
  | none => (quantityValue a.limit).map (defaultRequest engineType)

structure SameAmount (a a' : Amount) : Prop where
  limit : quantityValue a'.limit = quantityValue a.limit
  request : a'.effectiveRequest defaultRequest engineType = a.effectiveRequest defaultRequest engineType

end Same

structure QuantityTexts (r : ResourceRequirements) : Prop where
  cpu : ∀ s ∈ r.cpu, IsQuantity s
  memory : ∀ s ∈ r.memory, IsQuantity s

structure ValidResources (r : Resources) : Prop where
  limits : ∀ limits ∈ r.limits, QuantityTexts limits
  requests : ∀ requests ∈ r.requests, QuantityTexts requests
  cpu : ∀ s ∈ r.cpu, IsQuantity s
  memory : ∀ s ∈ r.memory, IsQuantity s

/-! ### What is kept -/

/-- A resource as the form reads and writes it, and the quantities that survive this. -/
structure ResourceKind where
  read : JsString → JsNumber
  write : JsNumber → JsString
  unit : ℚ
  Exact : Quantity → Prop
  read_text : ∀ Q : Quantity, read Q.text = .nan ∨ ∃ q, read Q.text = .finite q ∧ IsDecimal q
  write_value : ∀ q v, IsDecimal q → 0 ≤ q → quantityValue (write (.finite q)) = some v → v = q * unit
  written : ∀ Q q, read Q.text = .finite q → 0 ≤ q →
    (quantityValue (write (.finite q)) = some Q.value ↔ Exact Q)

def cpuKind : ResourceKind where
  read := cpuParser
  write := JsNumber.toString
  unit := 1
  Exact := CpuExact
  read_text Q := Or.inr (isDecimal_cpuParser Q)
  write_value q v hq hnonneg hv := by
    rw [JsNumber.quantityValue_toString hq hnonneg] at hv
    rw [mul_one, Option.some.inj hv]
  written Q q := cpu_written

def memoryKind : ResourceKind where
  read := memoryValue
  write x := x.toString ++ js "G"
  unit := 10 ^ 9
  Exact := MemoryExact
  read_text Q := by
    rcases memoryValue_text Q with h | ⟨q, h⟩
    · exact Or.inl h
    · exact Or.inr ⟨q, h, isDecimal_memoryValue h⟩
  write_value q v hq hnonneg hv := by
    rw [quantityValue_gigabytes hq hnonneg] at hv
    split at hv
    · exact (Option.some.inj hv).symm
    · cases hv
  written Q q := memory_written

/-- The text is a quantity that is kept. -/
def QuantityKept (Exact : Quantity → Prop) (s : JsString) : Prop := ∃ Q : Quantity, Q.text = s ∧ Exact Q

namespace ResourceKind

variable (k : ResourceKind) (defaultRequest : DbEngineType → ℚ → Option ℚ)
  (engineType : DbEngineType) (synced : Bool) (a : Amount)

/-- The limit is kept, or it is the one that the form chooses. -/
def LimitKept (chosen : Option ℚ) : Prop :=
  match chosen with
  | some q => quantityValue a.limit = some (q * k.unit)
  | none => QuantityKept k.Exact a.limit

/-- A request that is written is one of its own or the limit's; where there was none, it is the
one that the engine has taken. -/
def RequestKept : Prop :=
  match a.request with
  | some request =>
    if synced then quantityValue request = quantityValue a.limit else QuantityKept k.Exact request
  | none => ∀ limit, quantityValue a.limit = some limit →
    if synced then defaultRequest engineType limit = some limit
    else ∀ q, k.read a.limit = .finite q → defaultRequest engineType limit = some (q * k.unit)

end ResourceKind

section Kept

variable (coerce : GoString → Option SemVer) (defaultRequest : DbEngineType → ℚ → Option ℚ)

/-- The limits of a unit are kept, and the requests where they are written. -/
structure UnitsKept (engineType : DbEngineType) (chosen : Option Size) (resources : Option Resources) :
    Prop where
  cpuLimit : cpuKind.LimitKept (cpuAmount resources) (chosen.map (·.cpu))
  memoryLimit : memoryKind.LimitKept (memoryAmount resources) (chosen.map (·.memory))
  requests : omitRequests engineType (some (areResourceRequestsSynced resources)) resources = false →
    cpuKind.RequestKept defaultRequest engineType (areResourceRequestsSynced resources)
      (cpuAmount resources) ∧
    memoryKind.RequestKept defaultRequest engineType (areResourceRequestsSynced resources)
      (memoryAmount resources)

/-- Nothing is limited, and no more requested than without a request. -/
structure NoAmount (engineType : DbEngineType) (a : Amount) : Prop where
  limit : quantityValue a.limit = some 0
  request : ∀ s ∈ a.request, (quantityValue s).map some = some (defaultRequest engineType 0)

def DbClusterResources.chosenSize (c : DbClusterResources) (sizes : Sizes) (size : ResourceSize)
    (resources : Option Resources) : Option Size :=
  if size = .custom then
    sizes.get (c.settledSize coerce size (memoryValue (orZero (extractResourceMemoryValue resources))))
  else none

end Kept

/-! ### One resource -/

def Nonneg (x : JsNumber) : Prop := ∃ q, x = .finite q ∧ 0 ≤ q

section Amount

variable {k : ResourceKind} {defaultRequest : DbEngineType → ℚ → Option ℚ}
  {engineType : DbEngineType} {synced omitted : Bool} {a : Amount}

theorem written_iff {s : JsString} (hs : IsQuantity s) (hread : Nonneg (k.read s)) :
    quantityValue (k.write (k.read s)) = quantityValue s ↔ QuantityKept k.Exact s := by
  obtain ⟨Q, rfl⟩ := hs
  obtain ⟨q, hq, hnonneg⟩ := hread
  rw [hq, quantityValue_text, k.written Q q hq hnonneg]
  constructor
  · intro h
    exact ⟨Q, rfl, h⟩
  · rintro ⟨Q', htext, hexact⟩
    have hq' : k.read Q'.text = .finite q := by rw [htext, hq]
    have h := (k.written Q' q hq' hnonneg).mpr hexact
    rw [← quantityValue_text, htext, quantityValue_text] at h
    exact (k.written Q q hq hnonneg).mp h

theorem write_eq {s : JsString} {q : ℚ} (hs : IsQuantity s) (hread : k.read s = .finite q)
    (hnonneg : Nonneg (.finite q)) (hsame : quantityValue (k.write (.finite q)) = quantityValue s) :
    quantityValue (k.write (.finite q)) = some (q * k.unit) := by
  obtain ⟨Q, rfl⟩ := hs
  obtain ⟨r, hr, hpos⟩ := hnonneg
  obtain rfl := JsNumber.finite.inj hr
  have hdecimal : IsDecimal q := by
    rcases k.read_text Q with h | ⟨r, h, hdecimal⟩
    · rw [h] at hread
      cases hread
    · rwa [JsNumber.finite.inj (h.symm.trans hread)] at hdecimal
  rw [quantityValue_text] at hsame
  rw [hsame, k.write_value q Q.value hdecimal hpos hsame]

theorem limit_iff {chosen : Option ℚ} (hlimit : IsQuantity a.limit)
    (hchosen : ∀ q ∈ chosen, quantityValue (k.write (.finite q)) = some (q * k.unit))
    (hread : Nonneg ((chosen.map JsNumber.finite).getD (k.read a.limit))) :
    quantityValue (k.write ((chosen.map JsNumber.finite).getD (k.read a.limit))) =
      quantityValue a.limit ↔ k.LimitKept a chosen := by
  cases chosen with
  | none => exact written_iff hlimit hread
  | some q =>
    rw [Option.map_some, Option.getD_some, hchosen q rfl, eq_comm]
    rfl

theorem map_some_inj {α : Type} (x y : Option α) : x.map some = y.map some ↔ x = y :=
  (Option.map_injective (Option.some_injective α)).eq_iff

theorem request_iff {l : JsNumber} (hlimit : IsQuantity a.limit)
    (hrequest : ∀ s ∈ a.request, IsQuantity s)
    (hsame : quantityValue (k.write l) = quantityValue a.limit)
    (hread : synced = false → Nonneg (k.read a.requestText))
    (hplain : synced = false → a.request = none → ∀ q, k.read a.limit = .finite q →
      quantityValue (k.write (.finite q)) = some (q * k.unit)) :
    (quantityValue (k.write (if synced then l else k.read a.requestText))).map some =
      a.effectiveRequest defaultRequest engineType ↔
        k.RequestKept defaultRequest engineType synced a := by
  unfold Amount.effectiveRequest ResourceKind.RequestKept
  cases hgiven : a.request with
  | some request =>
    have hquantity : IsQuantity request := hrequest request hgiven
    simp only [map_some_inj]
    cases synced with
    | true =>
      rw [if_pos rfl, if_pos rfl, hsame, eq_comm]
    | false =>
      rw [Amount.requestText_some hgiven] at hread ⊢
      exact written_iff hquantity (hread rfl)
  | none =>
    obtain ⟨Q, hQ⟩ := hlimit
    have hvalue : quantityValue a.limit = some Q.value := by rw [← hQ, quantityValue_text]
    rw [hvalue] at hsame
    simp only [hvalue, Option.map_some, Option.some.injEq, forall_eq']
    cases synced with
    | true =>
      simp only [if_true, hsame, Option.map_some, Option.some.injEq]
      exact eq_comm
    | false =>
      rw [Amount.requestText_none hgiven] at hread ⊢
      obtain ⟨q, hq, -⟩ := hread rfl
      simp only [Bool.false_eq_true, if_false, hq, hplain rfl hgiven q hq,
        Option.map_some, Option.some.injEq, JsNumber.finite.injEq, forall_eq']
      exact eq_comm

/-- A resource is as before exactly when its limit is kept, and its request where it is written. -/
theorem sameAmount_iff {chosen : Option ℚ} {l : JsNumber} (hlimit : IsQuantity a.limit)
    (hrequest : ∀ s ∈ a.request, IsQuantity s)
    (hl : l = (chosen.map JsNumber.finite).getD (k.read a.limit)) (hnonneg : Nonneg l)
    (hchosen : ∀ q ∈ chosen, quantityValue (k.write (.finite q)) = some (q * k.unit))
    (hread : synced = false → Nonneg (k.read a.requestText))
    (hplain : ∀ q, chosen.isSome → 0 ≤ q → k.read a.limit = .finite q →
      quantityValue (k.write (.finite q)) = some (q * k.unit))
    (homitted : omitted = true → a.request = none) :
    SameAmount defaultRequest engineType a
      ⟨k.write l, if omitted then none
        else some (k.write (if synced then l else k.read a.requestText))⟩ ↔
      k.LimitKept a chosen ∧ (omitted = false → k.RequestKept defaultRequest engineType synced a) := by
  have hlimitKept : quantityValue (k.write l) = quantityValue a.limit ↔ k.LimitKept a chosen := by
    subst hl
    exact limit_iff hlimit hchosen hnonneg
  have hsplit : SameAmount defaultRequest engineType a
      ⟨k.write l, if omitted then none
        else some (k.write (if synced then l else k.read a.requestText))⟩ ↔ _ ∧ _ :=
    ⟨fun h => ⟨h.limit, h.request⟩, fun h => ⟨h.1, h.2⟩⟩
  rw [hsplit, ← hlimitKept]
  refine and_congr_right fun hsame => ?_
  cases omitted with
  | true =>
    simp [Amount.effectiveRequest, homitted rfl, hsame]
  | false =>
    rw [imp_iff_right rfl]
    refine request_iff hlimit hrequest hsame hread ?_
    intro hsynced hnone q hq
    cases chosen with
    | some small =>
      have hrequest := hread hsynced
      rw [Amount.requestText_none hnone, hq] at hrequest
      obtain ⟨r, hr, hpos⟩ := hrequest
      rw [JsNumber.finite.inj hr]
      rw [JsNumber.finite.inj hr] at hq
      exact hplain r rfl hpos hq
    | none =>
      rw [Option.map_none, Option.getD_none, hq] at hl
      rw [hl] at hsame hnonneg
      exact write_eq hlimit hq hnonneg hsame

end Amount

section Texts

variable {resources : Option Resources}

structure QuantityAmount (a : Amount) : Prop where
  limit : IsQuantity a.limit
  request : ∀ s ∈ a.request, IsQuantity s

theorem isQuantity_zero : IsQuantity (js "0") := isQuantity_natDigits 0 .one

theorem quantityAmount {field : ResourceRequirements → Option JsString}
    {flat : Resources → Option JsString}
    (hfield : ∀ r, QuantityTexts r → ∀ s ∈ field r, IsQuantity s)
    (hflat : ∀ r, ValidResources r → ∀ s ∈ flat r, IsQuantity s)
    (h : ∀ r ∈ resources, ValidResources r) : QuantityAmount (amount field flat resources) := by
  constructor
  · cases resources with
    | none => exact isQuantity_zero
    | some r =>
      have hr := h r rfl
      rw [amount, Option.bind_some]
      cases hlimit : r.limits.bind field with
      | some s =>
        obtain ⟨limits, hlimits, hs⟩ := Option.bind_eq_some_iff.mp hlimit
        exact hfield limits (hr.limits limits hlimits) s hs
      | none =>
        cases hvalue : flat r with
        | some s => exact hflat r hr s hvalue
        | none => exact isQuantity_zero
  · intro s hs
    obtain ⟨r, hr, hs⟩ := Option.bind_eq_some_iff.mp hs
    obtain ⟨requests, hrequests, hs⟩ := Option.bind_eq_some_iff.mp hs
    exact hfield requests ((h r hr).requests requests hrequests) s hs

theorem quantityAmount_cpu (h : ∀ r ∈ resources, ValidResources r) :
    QuantityAmount (cpuAmount resources) :=
  quantityAmount (fun _ hr => hr.cpu) (fun _ hr => hr.cpu) h

theorem quantityAmount_memory (h : ∀ r ∈ resources, ValidResources r) :
    QuantityAmount (memoryAmount resources) :=
  quantityAmount (fun _ hr => hr.memory) (fun _ hr => hr.memory) h

theorem orZero_eq {value : Option JsString} (h : value.getD (js "0") ≠ []) :
    orZero value = value.getD (js "0") := by
  unfold orZero falsy
  cases value with
  | none => rfl
  | some s => exact if_neg h

theorem requestValue_eq (resources : Option Resources) (field : ResourceRequirements → Option JsString)
    (flat : Resources → Option JsString) :
    (resources.bind fun r => (r.requests.bind field).or ((r.limits.bind field).or (flat r))).getD
      (amount field flat resources).limit = (amount field flat resources).requestText := by
  cases resources with
  | none => rfl
  | some r =>
    simp only [amount, Amount.requestText, Option.bind_some]
    cases r.requests.bind field with
    | some s => rfl
    | none => cases (r.limits.bind field).or (flat r) <;> rfl

theorem QuantityAmount.requestText_ne_nil {a : Amount} (ha : QuantityAmount a) : a.requestText ≠ [] := by
  unfold Amount.requestText
  cases hrequest : a.request with
  | none => exact ha.limit.ne_nil
  | some s => exact (ha.request s hrequest).ne_nil

theorem unitDefaultValues_eq (h : ∀ r ∈ resources, ValidResources r) : unitDefaultValues resources =
    { cpu := cpuParser (cpuAmount resources).limit
      memory := memoryValue (memoryAmount resources).limit
      cpuRequests := if areResourceRequestsSynced resources then cpuParser (cpuAmount resources).limit
        else cpuParser (cpuAmount resources).requestText
      memoryRequests := if areResourceRequestsSynced resources then
          memoryValue (memoryAmount resources).limit
        else memoryValue (memoryAmount resources).requestText
      requestsSynced := areResourceRequestsSynced resources } := by
  have hcpu := quantityAmount_cpu h
  have hmemory := quantityAmount_memory h
  have hcpuLimit : orZero (extractResourceCpuValue resources) = (cpuAmount resources).limit :=
    orZero_eq hcpu.limit.ne_nil
  have hmemoryLimit : orZero (extractResourceMemoryValue resources) = (memoryAmount resources).limit :=
    orZero_eq hmemory.limit.ne_nil
  have hcpuRequest : (extractResourceCpuRequestValue resources).getD (cpuAmount resources).limit =
      (cpuAmount resources).requestText := requestValue_eq resources (·.cpu) (·.cpu)
  have hmemoryRequest : (extractResourceMemoryRequestValue resources).getD (memoryAmount resources).limit =
      (memoryAmount resources).requestText := requestValue_eq resources (·.memory) (·.memory)
  unfold unitDefaultValues
  simp only [hcpuLimit, hmemoryLimit, hcpuRequest, hmemoryRequest]
  have htext : orZero (some (cpuAmount resources).requestText) = (cpuAmount resources).requestText :=
    orZero_eq hcpu.requestText_ne_nil
  rw [htext]

end Texts

/-! ### Sizes -/

def Hundredths (q : ℚ) : Prop := q.den ∣ 100 ∧ 0 ≤ q ∧ JsNumber.IsPlain q

instance (q : ℚ) : Decidable (Hundredths q) := inferInstanceAs (Decidable (_ ∧ _ ∧ _))

theorem Hundredths.isDecimal {q : ℚ} (h : Hundredths q) : IsDecimal q := ⟨2, h.1⟩

def HundredthsSize (size : Size) : Prop := Hundredths size.cpu ∧ Hundredths size.memory

instance (size : Size) : Decidable (HundredthsSize size) := inferInstanceAs (Decidable (_ ∧ _))

def HundredthsSizes (sizes : Sizes) : Prop :=
  HundredthsSize sizes.small ∧ HundredthsSize sizes.medium ∧ HundredthsSize sizes.large

instance (sizes : Sizes) : Decidable (HundredthsSizes sizes) := inferInstanceAs (Decidable (_ ∧ _ ∧ _))

theorem HundredthsSizes.get {sizes : Sizes} (h : HundredthsSizes sizes) {size : ResourceSize} {item : Size}
    (hitem : sizes.get size = some item) : HundredthsSize item := by
  cases size with
  | small => exact Option.some.inj hitem ▸ h.1
  | medium => exact Option.some.inj hitem ▸ h.2.1
  | large => exact Option.some.inj hitem ▸ h.2.2
  | custom => cases hitem

theorem nodesDefaultSizes_hundredths (coerce : GoString → Option SemVer) (dbType : DbType)
    (dbVersion : GoString) : HundredthsSizes (nodesDefaultSizes coerce dbType dbVersion) := by
  unfold nodesDefaultSizes
  cases isVersion84x coerce dbVersion <;> cases dbType <;> decide +kernel

theorem proxiesDefaultSizes_hundredths (dbType : DbType) : HundredthsSizes (proxiesDefaultSizes dbType) := by
  cases dbType <;> decide +kernel

theorem cpuParser_toString {q : ℚ} (hq : IsDecimal q) (hnonneg : 0 ≤ q) :
    cpuParser (JsNumber.toString (.finite q)) = .finite q := by
  have hexact : CpuExact (JsNumber.quantity q) := Or.inr (Or.inl (JsNumber.quantity_bare q).1)
  rw [JsNumber.toString_of_nonneg hnonneg, ← JsNumber.quantity_text, (cpuParser_eq_value _).mpr hexact,
    JsNumber.quantity_value hq hnonneg]

theorem memoryValue_toString {q : ℚ} (hq : IsDecimal q) (hnonneg : 0 ≤ q) :
    memoryValue (JsNumber.toString (.finite q)) = .finite q := by
  obtain ⟨hbare, hsign⟩ := JsNumber.quantity_bare q
  have hunit : ¬ HasUnit (JsNumber.quantity q) := by
    rintro ⟨-, u, hu, hsuffix⟩
    rw [hsuffix] at hbare
    simp [Suffix.Bare, hu] at hbare
  rw [JsNumber.toString_of_nonneg hnonneg, ← JsNumber.quantity_text, memoryValue_of_not_hasUnit hunit,
    (shown_eq_value _).mpr (Or.inr hbare), JsNumber.quantity_value hq hnonneg]

theorem eq_of_equal {x y : JsNumber} (h : x.equal y = true) : x = y := by
  simp only [JsNumber.equal, Bool.and_eq_true, decide_eq_true_eq] at h
  exact h.2

theorem eq_some_of_getD {α : Type} {o : Option α} {d x : α} (h : o.getD d = x) (hne : x ≠ d) :
    o = some x := by
  cases o with
  | none => exact absurd h.symm hne
  | some y => exact congrArg some h

theorem size_of_match {sizes : Sizes} {resources : Option Resources} {size : ResourceSize}
    (hsizes : HundredthsSizes sizes) (hmatch : matchFieldsValueToResourceSize sizes resources = size)
    (hne : size ≠ .custom) : ∃ item, sizes.get size = some item ∧
      cpuParser (cpuAmount resources).limit = .finite item.cpu ∧
      memoryValue (memoryAmount resources).limit = .finite item.memory := by
  have hlimit : ∀ value : Option JsString, ¬ falsy value → value.getD [] = value.getD (js "0") := by
    intro value hvalue
    cases value with
    | none => exact absurd rfl hvalue
    | some s => rfl
  rw [matchFieldsValueToResourceSize] at hmatch
  split at hmatch
  · exact absurd hmatch.symm hne
  · rename_i htruthy
    rw [not_or] at htruthy
    rw [hlimit _ htruthy.1, hlimit _ htruthy.2] at hmatch
    have hfind := eq_some_of_getD hmatch hne
    have hfound := List.find?_some hfind
    rw [Option.any_eq_true] at hfound
    obtain ⟨item, hitem, hfound⟩ := hfound
    rw [Bool.and_eq_true] at hfound
    obtain ⟨hcpu, hmemory⟩ := hsizes.get hitem
    refine ⟨item, hitem, ?_, ?_⟩
    · rw [← cpuParser_toString hcpu.isDecimal hcpu.2.1]
      exact (eq_of_equal hfound.1).symm
    · rw [← memoryValue_toString hmemory.isDecimal hmemory.2.1]
      exact (eq_of_equal hfound.2).symm

/-! ### The values of a unit -/

/-- What the form holds for a unit once it is open. -/
structure UnitRead (chosen : Option Size) (resources : Option Resources) (u : UnitValues) : Prop where
  cpu : u.cpu = ((chosen.map (·.cpu)).map JsNumber.finite).getD (cpuParser (cpuAmount resources).limit)
  memory : u.memory = ((chosen.map (·.memory)).map JsNumber.finite).getD
    (memoryValue (memoryAmount resources).limit)
  cpuRequests : u.cpuRequests = if areResourceRequestsSynced resources then u.cpu
    else cpuParser (cpuAmount resources).requestText
  memoryRequests : u.memoryRequests = if areResourceRequestsSynced resources then u.memory
    else memoryValue (memoryAmount resources).requestText
  requestsSynced : u.requestsSynced = areResourceRequestsSynced resources

/-- A size that is chosen though the limits do not match it is a size for 3 GB. -/
structure ChosenSize (chosen : Option Size) (resources : Option Resources) : Prop where
  hundredths : ∀ size ∈ chosen, HundredthsSize size
  memory : chosen.isSome → memoryValue (memoryAmount resources).limit = .ofInt 3

section Settle

variable {coerce : GoString → Option SemVer} {c : DbClusterResources} {sizes : Sizes}
  {resources : Option Resources}

theorem unitRead_of_get (hvalid : ∀ r ∈ resources, ValidResources r) {size : ResourceSize}
    {chosen : Option Size} (hget : sizes.get size = chosen) :
    UnitRead chosen resources ((unitDefaultValues resources).settle sizes size) := by
  rw [unitDefaultValues_eq hvalid, UnitValues.settle, hget]
  constructor
  · cases chosen <;> rfl
  · cases chosen <;> rfl
  · cases hsynced : areResourceRequestsSynced resources <;> cases chosen <;> rfl
  · cases hsynced : areResourceRequestsSynced resources <;> cases chosen <;> rfl
  · cases chosen <;> rfl

theorem unitRead_of_match (hvalid : ∀ r ∈ resources, ValidResources r) {size : ResourceSize} {item : Size}
    (hget : sizes.get size = some item)
    (hcpu : cpuParser (cpuAmount resources).limit = .finite item.cpu)
    (hmemory : memoryValue (memoryAmount resources).limit = .finite item.memory) :
    UnitRead none resources ((unitDefaultValues resources).settle sizes size) := by
  have h := unitRead_of_get hvalid hget
  exact ⟨h.cpu.trans hcpu.symm, h.memory.trans hmemory.symm, h.cpuRequests, h.memoryRequests,
    h.requestsSynced⟩

theorem settle_read (hsizes : HundredthsSizes sizes) (hvalid : ∀ r ∈ resources, ValidResources r) :
    UnitRead (c.chosenSize coerce sizes (matchFieldsValueToResourceSize sizes resources) resources) resources
      ((unitDefaultValues resources).settle sizes
        (c.settledSize coerce (matchFieldsValueToResourceSize sizes resources)
          (unitDefaultValues resources).memory)) := by
  have hmemory : memoryValue (orZero (extractResourceMemoryValue resources)) =
      (unitDefaultValues resources).memory := rfl
  rw [DbClusterResources.chosenSize, hmemory]
  by_cases hcustom : matchFieldsValueToResourceSize sizes resources = .custom
  · rw [if_pos hcustom]
    exact unitRead_of_get hvalid rfl
  · obtain ⟨item, hitem, hcpu, hmemory⟩ := size_of_match hsizes rfl hcustom
    rw [if_neg hcustom, DbClusterResources.settledSize, if_neg fun h => hcustom h.1]
    exact unitRead_of_match hvalid hitem hcpu hmemory

theorem chosenSize_size (hsizes : HundredthsSizes sizes) (hvalid : ∀ r ∈ resources, ValidResources r)
    (size : ResourceSize) : ChosenSize (c.chosenSize coerce sizes size resources) resources := by
  have hmemory : orZero (extractResourceMemoryValue resources) = (memoryAmount resources).limit :=
    orZero_eq (quantityAmount_memory hvalid).limit.ne_nil
  rw [DbClusterResources.chosenSize, hmemory]
  constructor
  · intro item hitem
    split at hitem
    · exact hsizes.get hitem
    · cases hitem
  · intro hsome
    split at hsome
    · rename_i hcustom
      rw [DbClusterResources.settledSize] at hsome
      split at hsome
      · rename_i hspecial
        exact eq_of_equal hspecial.2.2.2
      · rw [hcustom] at hsome
        cases hsome
    · cases hsome

end Settle

section Units

variable {defaultRequest : DbEngineType → ℚ → Option ℚ} {engineType : DbEngineType}
  {chosen : Option Size} {resources : Option Resources} {u : UnitValues}

/-- The values of a unit have been accepted. -/
structure UnitAccepted (u : UnitValues) : Prop where
  cpu : Nonneg u.cpu
  memory : Nonneg u.memory
  cpuRequests : Nonneg u.cpuRequests
  memoryRequests : Nonneg u.memoryRequests

def unitSpec (engineType : DbEngineType) (resources : Option Resources) (u : UnitValues) : Resources :=
  resourcesSpec JsNumber.toString u.cpu u.memory (some u.cpuRequests) (some u.memoryRequests)
    (omitRequests engineType (some u.requestsSynced) resources)

theorem cpuAmount_unitSpec : cpuAmount (some (unitSpec engineType resources u)) =
    ⟨cpuKind.write u.cpu, if omitRequests engineType (some u.requestsSynced) resources then none
      else some (cpuKind.write u.cpuRequests)⟩ := by
  unfold unitSpec
  cases omitRequests engineType (some u.requestsSynced) resources <;> rfl

theorem memoryAmount_unitSpec : memoryAmount (some (unitSpec engineType resources u)) =
    ⟨memoryKind.write u.memory, if omitRequests engineType (some u.requestsSynced) resources then none
      else some (memoryKind.write u.memoryRequests)⟩ := by
  unfold unitSpec
  cases omitRequests engineType (some u.requestsSynced) resources <;> rfl

theorem cpu_write {q : ℚ} (hq : IsDecimal q) (hnonneg : 0 ≤ q) :
    quantityValue (cpuKind.write (.finite q)) = some (q * cpuKind.unit) := by
  rw [show cpuKind.unit = 1 from rfl, mul_one]
  exact JsNumber.quantityValue_toString hq hnonneg

theorem memory_write {q : ℚ} (h : Hundredths q) :
    quantityValue (memoryKind.write (.finite q)) = some (q * memoryKind.unit) :=
  (quantityValue_gigabytes h.isDecimal h.2.1).trans (if_pos h.2.2)

theorem omitRequests_none {synced : Option Bool} (h : omitRequests engineType synced resources = true)
    (field : ResourceRequirements → Option JsString) (flat : Resources → Option JsString) :
    (amount field flat resources).request = none := by
  simp only [omitRequests, Bool.and_eq_true, Option.isNone_iff_eq_none] at h
  cases resources with
  | none => rfl
  | some r =>
    have hrequests : r.requests = none := h.2
    simp [amount, hrequests]

theorem sameCpu_iff (hvalid : ∀ r ∈ resources, ValidResources r) (hread : UnitRead chosen resources u)
    (hchosen : ChosenSize chosen resources) (haccepted : UnitAccepted u) :
    SameAmount defaultRequest engineType (cpuAmount resources)
        (cpuAmount (some (unitSpec engineType resources u))) ↔
      cpuKind.LimitKept (cpuAmount resources) (chosen.map (·.cpu)) ∧
      (omitRequests engineType (some (areResourceRequestsSynced resources)) resources = false →
        cpuKind.RequestKept defaultRequest engineType (areResourceRequestsSynced resources)
          (cpuAmount resources)) := by
  have hamount := quantityAmount_cpu hvalid
  rw [cpuAmount_unitSpec, hread.cpuRequests, hread.requestsSynced]
  refine sameAmount_iff hamount.limit hamount.request hread.cpu haccepted.cpu ?_ ?_ ?_ ?_
  · intro q hq
    obtain ⟨size, hsize, rfl⟩ := Option.map_eq_some_iff.mp hq
    exact cpu_write (hchosen.hundredths size hsize).1.isDecimal (hchosen.hundredths size hsize).1.2.1
  · intro hsynced
    have h := haccepted.cpuRequests
    rwa [hread.cpuRequests, hsynced] at h
  · intro q _ hnonneg hq
    obtain ⟨Q, hQ⟩ := hamount.limit
    obtain ⟨r, hr, hdecimal⟩ := isDecimal_cpuParser Q
    rw [hQ] at hr
    obtain rfl := JsNumber.finite.inj (hq.symm.trans hr)
    exact cpu_write hdecimal hnonneg
  · intro homitted
    exact omitRequests_none homitted _ _

theorem sameMemory_iff (hvalid : ∀ r ∈ resources, ValidResources r) (hread : UnitRead chosen resources u)
    (hchosen : ChosenSize chosen resources) (haccepted : UnitAccepted u) :
    SameAmount defaultRequest engineType (memoryAmount resources)
        (memoryAmount (some (unitSpec engineType resources u))) ↔
      memoryKind.LimitKept (memoryAmount resources) (chosen.map (·.memory)) ∧
      (omitRequests engineType (some (areResourceRequestsSynced resources)) resources = false →
        memoryKind.RequestKept defaultRequest engineType (areResourceRequestsSynced resources)
          (memoryAmount resources)) := by
  have hamount := quantityAmount_memory hvalid
  rw [memoryAmount_unitSpec, hread.memoryRequests, hread.requestsSynced]
  refine sameAmount_iff hamount.limit hamount.request hread.memory haccepted.memory ?_ ?_ ?_ ?_
  · intro q hq
    obtain ⟨size, hsize, rfl⟩ := Option.map_eq_some_iff.mp hq
    exact memory_write (hchosen.hundredths size hsize).2
  · intro hsynced
    have h := haccepted.memoryRequests
    rwa [hread.memoryRequests, hsynced] at h
  · intro q hsome _ hq
    rw [Option.isSome_map] at hsome
    obtain rfl := JsNumber.finite.inj (hq.symm.trans (hchosen.memory hsome))
    exact memory_write (by decide +kernel)
  · intro homitted
    exact omitRequests_none homitted _ _

theorem sameUnits_iff (hvalid : ∀ r ∈ resources, ValidResources r) (hread : UnitRead chosen resources u)
    (hchosen : ChosenSize chosen resources) (haccepted : UnitAccepted u) :
    SameAmount defaultRequest engineType (cpuAmount resources)
        (cpuAmount (some (unitSpec engineType resources u))) ∧
      SameAmount defaultRequest engineType (memoryAmount resources)
        (memoryAmount (some (unitSpec engineType resources u))) ↔
      UnitsKept defaultRequest engineType chosen resources := by
  rw [sameCpu_iff hvalid hread hchosen haccepted, sameMemory_iff hvalid hread hchosen haccepted]
  constructor
  · rintro ⟨⟨hcpu, hcpuRequest⟩, hmemory, hmemoryRequest⟩
    exact ⟨hcpu, hmemory, fun h => ⟨hcpuRequest h, hmemoryRequest h⟩⟩
  · intro h
    exact ⟨⟨h.cpuLimit, fun homitted => (h.requests homitted).1⟩, h.memoryLimit,
      fun homitted => (h.requests homitted).2⟩

end Units

end OpenEverest.Ui
