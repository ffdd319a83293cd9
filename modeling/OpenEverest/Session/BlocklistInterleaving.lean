import OpenEverest.Session.TokenStore

/-!
# Concurrent logouts

Any number of `Block` calls, from any number of API servers, work on the one
block-list secret. A write keeps every entry that has not expired, so an entry
stays from the write that added it until its token's expiry.
-/

namespace OpenEverest.Session

open Framework GoString

/-- A write to the secret drops no entry that is still to expire. -/
def KeepsEntries (now : Int) (old new : BlocklistSecret) : Prop :=
  ∀ e ∈ old.entries, keepEntry now e = true → e ∈ new.entries

/-- A successful call has its entry in the list as long as clean-up would keep it. -/
def Listed (short : GoString) (r : Except SessionError Unit) : Assertion BlocklistSecret :=
  fun o now => r = .ok () → keepEntry now short = true → short ∈ o.value.entries

private theorem listed_stable (short : GoString) (r : Except SessionError Unit) :
    Stable KeepsEntries (Listed short r) := by
  refine ⟨?_, ?_⟩
  · intro o now now' hle h hr hkeep
    exact h hr (keepEntry_anti hle short hkeep)
  · intro o now new h hnew hr hkeep
    exact hnew short (h hr hkeep) hkeep

/-- The write of `Add` keeps what is still to expire, the clock being past the
time the clean-up was computed for. -/
private theorem add_keepsEntries (s : BlocklistSecret) (short : GoString) (hshort : sep ∉ short)
    {t now : Int} (ht : t ≤ now) :
    KeepsEntries now s (addDataToSecret s short t).stored := by
  intro e he hkeep
  rw [entries_add s short t hshort]
  have hkept := List.mem_filter.mpr ⟨he, keepEntry_anti ht e hkeep⟩
  exact List.mem_append_left _ hkept

private theorem add_follows (short : GoString) (hshort : sep ∉ short) :
    Follows KeepsEntries (Listed short) (fun _ _ => True) (add short) := by
  have hfailed (K : Assertion BlocklistSecret) :
      Follows KeepsEntries (Listed short) K (.done (.error .api)) :=
    .done fun _ _ _ h => nomatch h
  refine .get (hfailed _) fun copy => .now fun t => ?_
  refine .update (listed_stable short (.ok ())) ?_ (hfailed _) (.done fun _ _ h => h)
  -- the version is still the one read, so the list rewritten is the stored one
  intro o now h hrv
  obtain ⟨⟨-, hsnap⟩, ht⟩ := h
  rw [hsnap.value_eq hrv.symm]
  refine ⟨add_keepsEntries o.value short hshort ht, fun _ _ => ?_⟩
  simp only [entries_add o.value short t hshort]
  exact List.mem_append_right _ (List.mem_singleton_self short)

theorem block_follows {token : Option Token} {t : Identity} (ht : identity token = some t)
    (hcomma : sep ∉ t.id) :
    Follows KeepsEntries (Listed t.short) (fun _ _ => True) (block token) := by
  rw [block, shortenToken_of_identity ht]
  exact (add_follows t.short (t.comma_not_mem_short hcomma)).retry maxRetries

section Interleaving

variable {ι : Type*} [DecidableEq ι]

/-- Once `Block` has returned success, its token stays an entry of the stored
list at every later moment before its expiry. -/
theorem blocked_token_listed (token : ι → Option Token) (t : ι → Identity)
    (htoken : ∀ i, identity (token i) = some (t i)) (hregular : ∀ i, (t i).Regular)
    (secret : BlocklistSecret) (clock : Int) (before after : List (Move ι BlocklistSecret))
    (s s' : System ι BlocklistSecret (Except SessionError Unit))
    (hbefore : run System.step (System.start secret clock fun i => block (token i)) before = some s)
    (i : ι) (hreturned : s.client i = .done (.ok ()))
    (hafter : run System.step s after = some s') (halive : (t i).Alive s'.clock) :
    (t i).short ∈ s'.store.value.entries := by
  have hrun := (run_append_eq_some ..).mpr ⟨s, hbefore, hafter⟩
  have hfollows j := block_follows (htoken j) (hregular j).comma
  have hlisted := run_follows (fun j => Listed (t j).short) hfollows hrun
    (System.run_done hafter hreturned)
  exact hlisted rfl (((hregular i).keepEntry_short s'.clock).mpr halive)

end Interleaving

def sampleStart : System Bool BlocklistSecret (Except SessionError Unit) :=
  .start emptyBlocklist 0 fun b => block (sampleIdentity b).token

def sampleBefore : List (Move Bool BlocklistSecret) :=
  [.call false, .call true, .call false, .call true, .call false]

def sampleAfter : List (Move Bool BlocklistSecret) :=
  [.call true, .tick 5, .call true, .call true, .call true]

theorem blocked_token_listed_sample :
    ∃ s', run System.step sampleStart (sampleBefore ++ sampleAfter) = some s' ∧
      s'.client true = .done (.ok ()) ∧
      (sampleIdentity false).short ∈ s'.store.value.entries := by
  have hbefore : (run System.step sampleStart sampleBefore).isSome := by decide +kernel
  obtain ⟨s, hs⟩ := Option.isSome_iff_exists.mp hbefore
  have hfirst : ((run System.step sampleStart sampleBefore).bind fun s =>
      (s.client false).result) = some (.ok ()) := by decide +kernel
  have hafter : (run System.step sampleStart (sampleBefore ++ sampleAfter)).isSome := by
    decide +kernel
  obtain ⟨s', hs'⟩ := Option.isSome_iff_exists.mp hafter
  have hend : (run System.step sampleStart (sampleBefore ++ sampleAfter)).map (fun s =>
      (s.clock, (s.client true).result)) = some (5, some (.ok ())) := by decide +kernel
  rw [hs, Option.bind_some, Client.result_eq_some] at hfirst
  rw [hs', Option.map_some, Option.some.injEq, Prod.mk.injEq, Client.result_eq_some] at hend
  obtain ⟨u, hu, hrest⟩ := (run_append_eq_some ..).mp hs'
  obtain rfl : s = u := Option.some.inj (hs.symm.trans hu)
  refine ⟨s', hs', hend.2, ?_⟩
  refine blocked_token_listed (fun b => (sampleIdentity b).token) sampleIdentity
    (fun b => identity_token _) sampleIdentity_regular emptyBlocklist 0 sampleBefore sampleAfter
    s s' hs false hfirst hrest ?_
  norm_num [hend.1, sampleIdentity, Identity.Alive]

end OpenEverest.Session
