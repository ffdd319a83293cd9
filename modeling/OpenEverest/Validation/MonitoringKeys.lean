import OpenEverest.K8s.CredentialRuns

/-!
# API keys of monitoring instances

An update may bring an API key, or a user and a password with which one is created at the
monitoring server. The key is created before the URL of the request is taken over. Where the
key comes from is traced beside the handler.
-/

namespace OpenEverest.Validation

open Framework GoString Api K8s

structure MonitoringUpdateRequest extends MonitoringInstanceUpdateParams where
  type : GoString := []

inductive MonitoringError where
  | errInvalidURL (fieldName : String)
  | pmmKeyRequired (type : GoString)
  | typeNotSupported (type : GoString)
  deriving DecidableEq

/-- `validateHandler.UpdateMonitoringInstance`, up to the next handler. -/
def validateUpdateMonitoringInstance (validateURL : GoString → Bool)
    (req : MonitoringUpdateRequest) : Except MonitoringError Unit :=
  if req.url ≠ [] ∧ validateURL req.url = false then .error (.errInvalidURL "url")
  else if req.type = [] then .ok ()
  else if req.type = ascii "pmm" then
    if req.pmm.isNone then .error (.pmmKeyRequired req.type) else .ok ()
  else .error (.typeNotSupported req.type)

inductive KeyOrigin where
  | supplied
  | createdAt (url : GoString)
  deriving DecidableEq

section Traced

variable (fails : Failures) (ns : NamespaceObjects) (pmm : PMM) (name : GoString)
  (req : MonitoringInstanceUpdateParams)

/-- The key of an update and its origin; without credentials the key is empty. -/
def tracedApiKey (m : MonitoringConfigSpec) : Except HandlerError (GoString × KeyOrigin) :=
  match req.pmm with
  | none => .ok ([], .supplied)
  | some credentials =>
    if credentials.user ≠ [] ∧ credentials.password ≠ [] then
      (pmm.createKey m.pmmURL name credentials req.verifyTLS).map fun apiKey =>
        (apiKey, .createdAt m.pmmURL)
    else .ok (credentials.apiKey, .supplied)

/-- An empty key is not written. -/
def writtenKey (key : GoString × KeyOrigin) : Option (GoString × KeyOrigin) :=
  if key.1 ≠ [] then some key else none

/-- `updateMonitoringInstance`, and the key it writes with its origin. -/
def tracedUpdate : Answer MonitoringConfigSpec × Option (GoString × KeyOrigin) :=
  match ns.getMonitoringConfig fails name with
  | .error e => ((.error (.kube e), ns), none)
  | .ok m =>
    match tracedApiKey pmm name req m with
    | .error e => ((.error e, ns), none)
    | .ok key =>
      match updateMonitoringSecret fails ns name key.1 with
      | .error _ => ((.error (.couldNotUpdateSecret name), ns), none)
      | .ok written =>
        (updateConfigObject fails written name (updatedMonitoringConfig req m), writtenKey key)

theorem tracedApiKey_fst (m : MonitoringConfigSpec) :
    (tracedApiKey pmm name req m).map Prod.fst = updatedApiKey pmm m name req := by
  unfold tracedApiKey updatedApiKey
  cases req.pmm with
  | none => rfl
  | some credentials =>
    simp only
    split
    · cases pmm.createKey m.pmmURL name credentials req.verifyTLS <;> rfl
    · rfl

theorem tracedUpdate_fst :
    (tracedUpdate fails ns pmm name req).1 = updateMonitoringInstance fails ns pmm name req := by
  unfold tracedUpdate updateMonitoringInstance
  cases ns.getMonitoringConfig fails name with
  | error e => rfl
  | ok m =>
    simp only [← tracedApiKey_fst]
    cases tracedApiKey pmm name req m with
    | error e => rfl
    | ok key =>
      simp only [Except.map]
      cases updateMonitoringSecret fails ns name key.1 <;> rfl

def handleMonitoringUpdate (validateURL : GoString → Bool) (req : MonitoringUpdateRequest) :
    Except MonitoringError (Answer MonitoringConfigSpec × Option (GoString × KeyOrigin)) := do
  validateUpdateMonitoringInstance validateURL req
  return tracedUpdate fails ns pmm name req.toMonitoringInstanceUpdateParams

end Traced

def Secret.apiKey (secret : Secret) : GoString := secret.get (ascii "apiKey")

/-- The key of an instance, in the secret that its `credentialsSecretName` names. -/
def storedKey (ns : NamespaceObjects) (name : GoString) : Option GoString :=
  (ns.monitoringConfigs name).bind fun m =>
    (ns.secrets m.credentialsSecretName).map Secret.apiKey

def storedURL (ns : NamespaceObjects) (name : GoString) : Option GoString :=
  (ns.monitoringConfigs name).map (·.pmmURL)

/-- The key stored after an update was supplied with it, or created at the server whose URL
the instance now has, or neither the key nor the URL has changed. -/
inductive KeyLaw (ns t : NamespaceObjects) (name : GoString) (req : MonitoringInstanceUpdateParams)
    (written : Option (GoString × KeyOrigin)) : Prop where
  | supplied (credentials : PMMCredentials) (sent : req.pmm = some credentials)
      (written_eq : written = some (credentials.apiKey, .supplied))
      (key : storedKey t name = some credentials.apiKey)
  | created (apiKey url : GoString) (written_eq : written = some (apiKey, .createdAt url))
      (key : storedKey t name = some apiKey) (current : storedURL t name = some url)
  | kept (key : storedKey t name = storedKey ns name) (url : storedURL t name = storedURL ns name)

/-- The request has an API key that no key created for a user replaces, and the instance's
key is the one in the secret of its own name, or is that key already. -/
def SuppliesKey (ns : NamespaceObjects) (name : GoString) (m : MonitoringConfigSpec)
    (req : MonitoringInstanceUpdateParams) : Prop :=
  ∃ credentials ∈ req.pmm, credentials.apiKey ≠ [] ∧
    ¬ (credentials.user ≠ [] ∧ credentials.password ≠ []) ∧
    (m.credentialsSecretName = name ∨ storedKey ns name = some credentials.apiKey)

section Law

variable {fails : Failures} {ns t : NamespaceObjects} {pmm : PMM} {name : GoString}
  {req : MonitoringInstanceUpdateParams} {m m' : MonitoringConfigSpec}
  {written : Option (GoString × KeyOrigin)}

theorem updatedMonitoringConfig_url :
    (updatedMonitoringConfig req m).pmmURL = m.pmmURL ↔ req.url = [] ∨ req.url = m.pmmURL := by
  rw [updatedMonitoringConfig]
  by_cases hurl : req.url = []
  · simp [hurl]
  · simp [hurl]

theorem storedKey_eq (hstored : ns.monitoringConfigs name = some m) :
    storedKey ns name = (ns.secrets m.credentialsSecretName).map Secret.apiKey := by
  rw [storedKey, hstored, Option.bind_some]

theorem updateMonitoringSecret_ok {apiKey : GoString} {after : NamespaceObjects}
    (h : updateMonitoringSecret fails ns name apiKey = .ok after) (secretName : GoString) :
    (after.secrets secretName).map Secret.apiKey =
      if apiKey ≠ [] ∧ secretName = name then some apiKey
      else (ns.secrets secretName).map Secret.apiKey := by
  rw [updateMonitoringSecret] at h
  by_cases hkey : apiKey ≠ []
  · rw [if_pos hkey] at h
    have hafter := (NamespaceObjects.updateSecret_eq_ok.mp h).2.2
    by_cases hname : secretName = name
    · have hput : after.secrets secretName = some (monitoringConfigSecretData apiKey) := by
        rw [hafter, hname]
        exact ObjectStore.put_self ..
      rw [if_pos ⟨hkey, hname⟩, hput]
      rfl
    · have hput : after.secrets secretName = ns.secrets secretName := by
        rw [hafter]
        exact ObjectStore.put_of_ne (h := hname) .. 
      rw [if_neg fun h => hname h.2, hput]
  · rw [if_neg hkey] at h
    rw [if_neg fun h => hkey h.1, Except.ok.inj h]

theorem tracedUpdate_ok (hstored : ns.monitoringConfigs name = some m)
    (h : tracedUpdate fails ns pmm name req = ((.ok m', t), written)) :
    ∃ key, tracedApiKey pmm name req m = .ok key ∧ written = writtenKey key ∧
      storedKey t name = (if key.1 ≠ [] ∧ m.credentialsSecretName = name then some key.1
        else storedKey ns name) ∧
      storedURL t name = some (updatedMonitoringConfig req m).pmmURL := by
  rw [tracedUpdate] at h
  cases hget : ns.getMonitoringConfig fails name with
  | error e => simp [hget] at h
  | ok stored =>
    have hsame := (NamespaceObjects.getMonitoringConfig_eq_ok.mp hget).2
    obtain rfl : m = stored := Option.some.inj (hstored.symm.trans hsame)
    simp only [hget] at h
    cases hkey : tracedApiKey pmm name req m with
    | error e => simp [hkey] at h
    | ok key =>
      simp only [hkey] at h
      cases hsecret : updateMonitoringSecret fails ns name key.1 with
      | error e => simp [hsecret] at h
      | ok after =>
        simp only [hsecret, Prod.mk.injEq, updateConfigObject] at h
        have hwritten := h.2
        cases hupdate : after.updateMonitoringConfig fails name
            (updatedMonitoringConfig req m) with
        | error e => simp [hupdate] at h
        | ok updated =>
          simp only [hupdate, Prod.mk.injEq] at h
          have hput := (NamespaceObjects.updateMonitoringConfig_eq_ok.mp hupdate).2.2
          have hconfig : t.monitoringConfigs name = some (updatedMonitoringConfig req m) := by
            rw [← h.1.2, hput]
            exact ObjectStore.put_self ..
          have hsecrets : t.secrets = after.secrets := by
            rw [← h.1.2, hput]
            rfl
          refine ⟨key, rfl, hwritten.symm, ?_, ?_⟩
          · rw [storedKey_eq hconfig, storedKey_eq hstored, hsecrets]
            exact updateMonitoringSecret_ok hsecret m.credentialsSecretName
          · rw [storedURL, hconfig, Option.map_some]

variable (ns) in
theorem tracedApiKey_origin {key : GoString × KeyOrigin}
    (h : tracedApiKey pmm name req m = .ok key) :
    (key.2 = .createdAt m.pmmURL ∧ ¬ SuppliesKey ns name m req) ∨
      (key.2 = .supplied ∧ (key.1 = [] → ¬ SuppliesKey ns name m req) ∧
        (key.1 ≠ [] → (∃ credentials, req.pmm = some credentials ∧ key.1 = credentials.apiKey) ∧
          (SuppliesKey ns name m req ↔
            m.credentialsSecretName = name ∨ storedKey ns name = some key.1))) := by
  rw [tracedApiKey] at h
  cases hpmm : req.pmm with
  | none =>
    simp only [hpmm, Except.ok.injEq] at h
    rw [← h]
    simp [SuppliesKey, hpmm]
  | some credentials =>
    simp only [hpmm] at h
    split at h
    · rename_i huser
      obtain ⟨apiKey, -, rfl⟩ := (map_eq_ok ..).mp h
      refine .inl ⟨rfl, ?_⟩
      simp only [SuppliesKey, hpmm, Option.mem_some_iff, exists_eq_left']
      exact fun hsupplies => hsupplies.2.1 huser
    · rename_i huser
      rw [← Except.ok.inj h]
      simp only [SuppliesKey, hpmm, Option.mem_some_iff, exists_eq_left']
      refine .inr ⟨trivial, fun hempty hsupplies => hsupplies.1 hempty, fun hkey => ?_⟩
      refine ⟨⟨credentials, rfl, rfl⟩, fun hsupplies => hsupplies.2.2, fun hsecret => ?_⟩
      exact ⟨hkey, huser, hsecret⟩

theorem KeyLaw.unchanged_of_created {apiKey : GoString} {url : GoString}
    (hlaw : KeyLaw ns t name req (some (apiKey, .createdAt url)))
    (hbefore : storedURL ns name = some url) : storedURL t name = storedURL ns name := by
  cases hlaw with
  | supplied _ _ written_eq => cases written_eq
  | created _ _ written_eq _ current =>
    cases written_eq
    rw [current, hbefore]
  | kept _ url => exact url

theorem tracedUpdate_keyLaw_iff (hstored : ns.monitoringConfigs name = some m)
    (h : tracedUpdate fails ns pmm name req = ((.ok m', t), written)) :
    KeyLaw ns t name req written ↔
      req.url = [] ∨ req.url = m.pmmURL ∨ SuppliesKey ns name m req := by
  obtain ⟨⟨apiKey, origin⟩, hkey, rfl, hstoredKey, hurl⟩ := tracedUpdate_ok hstored h
  have hbefore : storedURL ns name = some m.pmmURL := by rw [storedURL, hstored, Option.map_some]
  have hkept : storedURL t name = storedURL ns name ↔ req.url = [] ∨ req.url = m.pmmURL := by
    rw [hurl, hbefore, Option.some.injEq, updatedMonitoringConfig_url]
  have horigin := tracedApiKey_origin ns hkey
  dsimp only at hstoredKey horigin
  rw [← or_assoc, ← hkept]
  by_cases hempty : apiKey ≠ []
  · rw [writtenKey, if_pos hempty]
    rcases horigin with ⟨rfl, hnot⟩ | ⟨rfl, -, hbrought⟩
    · rw [or_iff_left hnot]
      refine ⟨fun hlaw => hlaw.unchanged_of_created hbefore, fun hsame => ?_⟩
      by_cases hname : m.credentialsSecretName = name
      · rw [if_pos ⟨hempty, hname⟩] at hstoredKey
        exact .created apiKey m.pmmURL rfl hstoredKey (hsame.trans hbefore)
      · rw [if_neg fun h => hname h.2] at hstoredKey
        exact .kept hstoredKey hsame
    · obtain ⟨⟨credentials, hsent, rfl⟩, hsupplies⟩ := hbrought hempty
      have hvalue : storedKey t name = some credentials.apiKey ↔ SuppliesKey ns name m req := by
        rw [hsupplies, hstoredKey]
        by_cases hname : m.credentialsSecretName = name
        · simp [hempty, hname]
        · simp [hname]
      rw [← hvalue]
      constructor
      · intro hlaw
        cases hlaw with
        | supplied other sent written_eq key =>
          obtain rfl : credentials = other := Option.some.inj (hsent.symm.trans sent)
          exact .inr key
        | created _ _ written_eq => cases written_eq
        | kept _ url => exact .inl url
      · rintro (hsame | hstays)
        · by_cases hname : m.credentialsSecretName = name
          · exact .supplied credentials hsent rfl (hvalue.mpr (hsupplies.mpr (.inl hname)))
          · rw [if_neg fun h => hname h.2] at hstoredKey
            exact .kept hstoredKey hsame
        · exact .supplied credentials hsent rfl hstays
  · rw [writtenKey, if_neg hempty]
    rw [if_neg fun h => hempty h.1] at hstoredKey
    have hnot : ¬ SuppliesKey ns name m req := by
      rcases horigin with horigin | horigin
      · exact horigin.2
      · exact horigin.2.1 (not_not.mp hempty)
    rw [or_iff_left hnot]
    constructor
    · intro hlaw
      cases hlaw with
      | supplied _ _ written_eq => cases written_eq
      | created _ _ written_eq => cases written_eq
      | kept _ url => exact url
    · exact fun hsame => .kept hstoredKey hsame

end Law

/-- The law holds of an accepted update exactly where the URL stays or the request supplies
the key. -/
theorem keyLaw_iff (validateURL : GoString → Bool) (fails : Failures) (ns t : NamespaceObjects)
    (pmm : PMM) (name : GoString) (req : MonitoringUpdateRequest) (m m' : MonitoringConfigSpec)
    (written : Option (GoString × KeyOrigin)) (hstored : ns.monitoringConfigs name = some m)
    (h : handleMonitoringUpdate fails ns pmm name validateURL req = .ok ((.ok m', t), written)) :
    KeyLaw ns t name req.toMonitoringInstanceUpdateParams written ↔
      req.url = [] ∨ req.url = m.pmmURL ∨
        SuppliesKey ns name m req.toMonitoringInstanceUpdateParams := by
  rw [handleMonitoringUpdate, check_bind_eq_ok] at h
  exact tracedUpdate_keyLaw_iff hstored (Except.ok.inj h.2)

def oldURL : GoString := ascii "https://old.pmm"

def newURL : GoString := ascii "https://new.pmm"

def monitoredObjects : NamespaceObjects where
  secrets name :=
    if name = ascii "pmm" then some (monitoringConfigSecretData (ascii "old-key")) else none
  backupStorages _ := none
  monitoringConfigs name :=
    if name = ascii "pmm" then some ⟨ascii "pmm", oldURL, ascii "pmm", [], none⟩ else none

def keyServer : PMM where
  newString := ascii "1"
  createPMMApiKey url _ _ _ _ := .ok (ascii "key of " ++ url)

def monitoringUpdate (credentials : Option PMMCredentials) : MonitoringUpdateRequest where
  url := newURL
  pmm := credentials

def updatedObjects (req : MonitoringUpdateRequest) : NamespaceObjects :=
  (tracedUpdate noFailures monitoredObjects keyServer (ascii "pmm")
    req.toMonitoringInstanceUpdateParams).1.2

def updatedConfig : MonitoringConfigSpec := ⟨ascii "pmm", newURL, ascii "pmm", [], none⟩

theorem keyLaw_iff_sample : KeyLaw monitoredObjects
    (updatedObjects (monitoringUpdate (some ⟨ascii "new-key", [], []⟩))) (ascii "pmm")
    (monitoringUpdate (some ⟨ascii "new-key", [], []⟩)).toMonitoringInstanceUpdateParams
    (some (ascii "new-key", .supplied)) := by
  apply (keyLaw_iff (fun _ => true) noFailures monitoredObjects _ keyServer (ascii "pmm")
    (monitoringUpdate (some ⟨ascii "new-key", [], []⟩))
    ⟨ascii "pmm", oldURL, ascii "pmm", [], none⟩ updatedConfig _ rfl rfl).mpr
  exact .inr (.inr ⟨_, rfl, by decide, by decide, .inl rfl⟩)

/-- The key for the user is created at the old server and stored with the new URL. -/
theorem keyLaw_broken : ¬ ∀ (validateURL : GoString → Bool) (fails : Failures)
    (ns t : NamespaceObjects) (pmm : PMM) (name : GoString) (req : MonitoringUpdateRequest)
    (m' : MonitoringConfigSpec) (written : Option (GoString × KeyOrigin)),
    handleMonitoringUpdate fails ns pmm name validateURL req = .ok ((.ok m', t), written) →
      KeyLaw ns t name req.toMonitoringInstanceUpdateParams written := by
  intro hlaw
  let req := monitoringUpdate (some ⟨[], ascii "admin", ascii "secret"⟩)
  have hbroken := hlaw (fun _ => true) noFailures monitoredObjects (updatedObjects req) keyServer
    (ascii "pmm") req updatedConfig
    (some (ascii "key of " ++ oldURL, .createdAt oldURL)) rfl
  cases hbroken with
  | supplied _ _ written_eq => cases (Prod.mk.inj (Option.some.inj written_eq)).2
  | created _ _ written_eq _ current =>
    cases written_eq
    revert current
    decide +kernel
  | kept _ url =>
    revert url
    decide +kernel

end OpenEverest.Validation
