import OpenEverest.Framework.RelyGuarantee
import OpenEverest.Session.ShortToken

/-!
# The block-list secret

The block list is one secret with one comma-joined string of shortened tokens.
Adding a token rewrites the string without the entries that have expired, as
told by their last ten bytes, and the API server guards the write by version.
-/

namespace OpenEverest.Session

open Framework GoString

def sep : UInt8 := 44

def timestampLen : Nat := 10

def maxRetries : Nat := 10

structure BlocklistSecret where
  data : Option GoString
  stringData : Option GoString := none
  deriving DecidableEq

namespace BlocklistSecret

/-- The API server merges the write-only `stringData` into `data`. -/
def stored (s : BlocklistSecret) : BlocklistSecret := ⟨s.stringData <|> s.data, none⟩

def entries (s : BlocklistSecret) : List GoString :=
  match s.data with
  | none => []
  | some list => split sep list

end BlocklistSecret

/-- `getBlockListSecretTemplate("")` once it is created. -/
def emptyBlocklist : BlocklistSecret := ⟨some [], none⟩

/-- The clean-up keeps an entry whose last ten bytes are a time still to come. -/
def keepEntry (now : Int) (shortenedToken : GoString) : Bool :=
  if shortenedToken.length < timestampLen then false
  else
    match parseInt (shortenedToken.drop (shortenedToken.length - 10)) with
    | none => false
    | some ts => decide (now < ts * 10 ^ 9)

def cleanupOld (list : GoString) (now : Int) : List GoString :=
  (split sep list).filter (keepEntry now)

def addDataToSecret (secret : BlocklistSecret) (shortenedToken : GoString) (now : Int) :
    BlocklistSecret :=
  match secret.data with
  | none => { secret with stringData := some shortenedToken }
  | some existingList =>
    { secret with stringData := some (join sep (cleanupOld existingList now ++ [shortenedToken])) }

abbrev BlocklistClient := Client BlocklistSecret (Except SessionError Unit)

/-- `tokenStore.Add`: read, clean and append, and write at the version read. -/
def add (shortenedToken : GoString) : BlocklistClient :=
  .get fun
  | none => .done (.error .api)
  | some secret => .now fun now =>
    .update secret.resourceVersion (addDataToSecret secret.value shortenedToken now).stored fun ok =>
      .done (if ok then .ok () else .error .api)

/-- `tokenStore.Exists` on what `GetSecret` returned. -/
def tokenExists (secret : Option BlocklistSecret) (shortenedToken : GoString) :
    Except SessionError Bool :=
  match secret with
  | none => .error .api
  | some s =>
    match s.data with
    | none => .ok false
    | some list => .ok (contains list shortenedToken)

/-- `blocklist.Block`: `Add` under a backoff of at most ten retries. -/
def block (token : Option Token) : BlocklistClient :=
  match shortenToken token with
  | .error e => .done (.error e)
  | .ok shortenedToken => Client.retry maxRetries (add shortenedToken)

/-- `blocklist.IsBlocked`. -/
def isBlocked (secret : Option BlocklistSecret) (token : Option Token) : Except SessionError Bool :=
  match shortenToken token with
  | .error e => .error (.join e .errShortenToken)
  | .ok shortenedToken => tokenExists secret shortenedToken

/-- The expiry the clean-up reads off an entry, in seconds. -/
def entryExpiry (entry : GoString) : Option Int :=
  if entry.length < timestampLen then none else parseInt (entry.drop (entry.length - 10))

theorem keepEntry_iff (now : Int) (entry : GoString) :
    keepEntry now entry = true ↔ ∃ ts, entryExpiry entry = some ts ∧ now < ts * 10 ^ 9 := by
  unfold keepEntry entryExpiry
  split
  · simp
  · cases parseInt (entry.drop (entry.length - 10)) <;> simp

theorem keepEntry_anti {now now' : Int} (hle : now ≤ now') (entry : GoString)
    (h : keepEntry now' entry = true) : keepEntry now entry = true := by
  obtain ⟨ts, hts, hlt⟩ := (keepEntry_iff now' entry).mp h
  exact (keepEntry_iff now entry).mpr ⟨ts, hts, lt_of_le_of_lt hle hlt⟩

theorem comma_not_mem_entry (s : BlocklistSecret) : ∀ e ∈ s.entries, sep ∉ e := by
  intro e he
  unfold BlocklistSecret.entries at he
  split at he
  · simp at he
  · exact sep_not_mem_of_mem_split sep _ e he

theorem add_data (s : BlocklistSecret) (short : GoString) (now : Int) :
    (addDataToSecret s short now).stored.data =
      some (join sep (s.entries.filter (keepEntry now) ++ [short])) := by
  unfold addDataToSecret BlocklistSecret.entries BlocklistSecret.stored
  cases s.data with
  | none => simp [join]
  | some list => simp [cleanupOld]

/-- Adding keeps the entries still to expire and appends the new one, which is
one entry more for each comma in it. -/
theorem entries_add_split (s : BlocklistSecret) (short : GoString) (now : Int) :
    (addDataToSecret s short now).stored.entries =
      s.entries.filter (keepEntry now) ++ split sep short := by
  have hcomma : ∀ e ∈ s.entries.filter (keepEntry now), sep ∉ e :=
    fun e he => comma_not_mem_entry s e (List.mem_of_mem_filter he)
  rw [BlocklistSecret.entries, add_data]
  exact split_join_concat sep _ short hcomma

theorem entries_add (s : BlocklistSecret) (short : GoString) (now : Int) (hshort : sep ∉ short) :
    (addDataToSecret s short now).stored.entries =
      s.entries.filter (keepEntry now) ++ [short] := by
  rw [entries_add_split, split_of_not_mem sep short hshort]

theorem exec_add (short : GoString) (now : Int) (o : Versioned BlocklistSecret) :
    (add short).exec now o =
      (⟨o.resourceVersion + 1, (addDataToSecret o.value short now).stored⟩, .ok ()) := by
  simp only [add, Client.exec, Versioned.update_current, if_true]

theorem exec_block {token : Option Token} {t : Identity} (ht : identity token = some t) (now : Int)
    (o : Versioned BlocklistSecret) :
    (block token).exec now o =
      (⟨o.resourceVersion + 1, (addDataToSecret o.value t.short now).stored⟩, .ok ()) := by
  rw [block, shortenToken_of_identity ht]
  exact Client.exec_retry_ok now maxRetries (add t.short) o _ () (exec_add t.short now o)

theorem exec_block_refused {token : Option Token} (ht : identity token = none) (now : Int)
    (o : Versioned BlocklistSecret) :
    ∃ e, (block token).exec now o = (o, .error e) := by
  cases hs : shortenToken token with
  | error e => exact ⟨e, by simp only [block, hs, Client.exec]⟩
  | ok s =>
    obtain ⟨t, ht', -⟩ := (shortenToken_eq_ok token s).mp hs
    rw [ht] at ht'
    cases ht'

theorem isBlocked_iff (s : BlocklistSecret) {token : Option Token} {t : Identity}
    (ht : identity token = some t) (hcomma : sep ∉ t.id) :
    isBlocked (some s) token = .ok true ↔ ∃ e ∈ s.entries, t.short <:+: e := by
  rw [isBlocked, shortenToken_of_identity ht]
  simp only [tokenExists, BlocklistSecret.entries]
  cases s.data with
  | none => simp
  | some list =>
    have hfound := contains_join sep (split sep list) t.short (split_ne_nil sep list)
      (t.comma_not_mem_short hcomma)
    rw [join_split] at hfound
    simpa using hfound

theorem isBlocked_emptyBlocklist (token : Option Token) :
    isBlocked (some emptyBlocklist) token ≠ .ok true := by
  cases hs : shortenToken token with
  | error e => simp [isBlocked, hs]
  | ok short =>
    obtain ⟨t, -, rfl⟩ := (shortenToken_eq_ok token short).mp hs
    simp [isBlocked, hs, tokenExists, emptyBlocklist, contains, t.short_ne_nil]

/-- A token the block list was designed for: an id without comma and an expiry
of exactly ten digits. -/
structure Identity.Regular (t : Identity) : Prop where
  comma : sep ∉ t.id
  tenDigits : ∃ n : Nat, t.exp = .ofNat n ∧ 10 ^ 9 ≤ n ∧ n < 10 ^ 10

theorem Identity.Regular.entryExpiry_short {t : Identity} (h : t.Regular) :
    ∃ n : Nat, t.exp = .ofNat n ∧ entryExpiry t.short = some n := by
  obtain ⟨n, hexp, hlo, hhi⟩ := h.tenDigits
  have hlen : (decimal n).length = 10 := decimal_length n 9 hlo hhi
  refine ⟨n, hexp, ?_⟩
  have hshort : t.short = t.id ++ decimal n := by simp [Identity.short, hexp]
  have hdrop : t.short.drop (t.short.length - 10) = decimal n := by
    rw [hshort, List.length_append, hlen, Nat.add_sub_cancel, List.drop_left]
  have hge : ¬ t.short.length < timestampLen := by
    rw [hshort, List.length_append, hlen, timestampLen]
    omega
  rw [entryExpiry, if_neg hge, hdrop]
  exact parseInt_decimal n (by omega)

theorem Identity.Regular.keepEntry_short {t : Identity} (h : t.Regular) (now : Int) :
    keepEntry now t.short = true ↔ t.Alive now := by
  obtain ⟨n, hexp, hts⟩ := h.entryExpiry_short
  rw [keepEntry_iff, hts, Identity.Alive, hexp, Float64.value_ofNat]
  constructor
  · rintro ⟨ts, he, hlt⟩
    obtain rfl := Option.some.inj he
    exact_mod_cast hlt
  · intro hlt
    exact ⟨n, rfl, by exact_mod_cast hlt⟩

def sampleIdentity (b : Bool) : Identity :=
  ⟨ascii (if b then "a" else "b"), .ofNat 1743679478, by cases b <;> decide⟩

theorem sampleIdentity_regular (b : Bool) : (sampleIdentity b).Regular :=
  ⟨by cases b <;> decide, 1743679478, rfl, by norm_num, by norm_num⟩

end OpenEverest.Session
