import TraceArchive.Proofs.Client.Signals
import TraceArchive.Proofs.Entries

/-!
# Clients that were told to close

Whoever closes the clients empties the cache when all of them are closed.  Until then the clients
that were told to close are still in the cache.

* `lingering`: the clients that were told to close since the cache was last emptied.
* `IsExact`: only lingering clients were handed out after they were told to close.
* `Kept`: the cache holds the lingering clients, and no others that were told to close.
* `Kept.closing`, `Kept.put`, `Kept.emptied`: what is done with the clients of the cache.
-/

set_option autoImplicit false

namespace TraceArchive

/-- A task has closed all clients, and the cache is empty. -/
def CacheObservation.empties : CacheObservation → Bool
  | .ended _ (.ok .nothing) => true
  | _ => false

/-- The client that is told to close. -/
def CacheObservation.told? : CacheObservation → Option ClientId
  | .closing client => some client
  | _ => none

/-- The client that comes with a value. -/
def CacheValue.client? : CacheValue → Option ClientId
  | .nothing => none
  | .client id => some id
  | .store ready => ready.client

/-- The client that is handed out. -/
def CacheObservation.handed? : CacheObservation → Option ClientId
  | .ended _ (.ok value) => value.client?
  | _ => none

namespace ClientCache

/-- What was observed since the cache was last emptied. -/
def recent (journal : List CacheObservation) : List CacheObservation :=
  journal.takeWhile fun entry => !entry.empties

/-- The clients that were told to close since the cache was last emptied. -/
def lingering (journal : List CacheObservation) : List ClientId :=
  (recent journal).filterMap CacheObservation.told?

/-- Whenever a client was handed out, it had been told to close just when it was lingering. -/
def IsExact (journal : List CacheObservation) : Prop :=
  ∀ newer entry older client, journal = newer ++ entry :: older → entry.handed? = some client →
    (.closing client ∈ older ↔ client ∈ lingering older)

section Journals

variable {entry : CacheObservation} {journal : List CacheObservation}

theorem recent_cons (h : entry.empties = false) :
    recent (entry :: journal) = entry :: recent journal :=
  List.takeWhile_cons_of_pos (by simp [h])

theorem lingering_of_empties (h : entry.empties = true) : lingering (entry :: journal) = [] := by
  rw [lingering, recent, List.takeWhile_cons_of_neg (by simp [h])]
  rfl

/-- Whatever else is observed does not change which clients are lingering. -/
theorem lingering_cons
    (hempties : entry.empties = false)
    (htold : entry.told? = none) :
    lingering (entry :: journal) = lingering journal := by
  rw [lingering, recent_cons hempties, List.filterMap_cons, htold, lingering]

theorem lingering_closing (client : ClientId) :
    lingering (.closing client :: journal) = client :: lingering journal := by
  have hempties : (CacheObservation.closing client).empties = false := rfl
  rw [lingering, recent_cons hempties]
  rfl

theorem told_of_lingering
    {client : ClientId}
    (h : client ∈ lingering journal) :
    .closing client ∈ journal := by
  obtain ⟨entry, hmem, htold⟩ := List.mem_filterMap.mp h
  cases entry with
  | closing other =>
      cases htold
      exact (List.takeWhile_sublist _).mem hmem
  | _ => cases htold

theorem isExact_cons
    (h : IsExact journal)
    (hhanded : ∀ client, entry.handed? = some client →
      (.closing client ∈ journal ↔ client ∈ lingering journal)) :
    IsExact (entry :: journal) := by
  intro newer other older client heq hother
  cases newer with
  | nil =>
      obtain ⟨rfl, rfl⟩ := List.cons.inj heq
      exact hhanded client hother
  | cons first rest => exact h rest other older client (List.cons.inj heq).2 hother

end Journals

/-! ### What the cache holds -/

/-- The cache holds the clients that are lingering, and no others that were told to close. -/
structure Kept (cache : ClientCache) : Prop where
  keys : (Entries.keys cache.entries).Nodup
  keyed : ∀ entry ∈ cache.entries, ∃ settings, entry.1 = (Connection.ofSettings settings).key
  numbered : ∀ entry ∈ cache.entries, entry.2 ≤ cache.clients
  told : ∀ client, .closing client ∈ cache.journal → client ≤ cache.clients
  fresh : ∀ entry ∈ cache.entries, .closing entry.2 ∈ cache.journal →
    entry.2 ∈ lingering cache.journal
  cached : ∀ client ∈ lingering cache.journal, ∃ key, (key, client) ∈ cache.entries
  passing : ∀ id client rest, (cache.task id).pass? = some (client, rest) →
    (cache.task id).job = .close ∧ ∀ entry ∈ rest, entry ∈ cache.entries
  handed : IsExact cache.journal

/-- A task is in the middle of closing clients. -/
def IsClosing (cache : ClientCache) : Prop :=
  ∃ id, (cache.task id).pass? ≠ none

/-- A task that was to close all clients has failed since the cache was last emptied. -/
def HasFailed (cache : ClientCache) : Prop :=
  ∃ id failure, .ended id (.error failure) ∈ recent cache.journal ∧ id < cache.tasks.size ∧
    (cache.task id).job = .close

/-- The cache between the turns of its tasks. -/
structure Sound (cache : ClientCache) : Prop extends Guarded cache, Kept cache where
  cause : lingering cache.journal ≠ [] → cache.IsClosing ∨ cache.HasFailed

theorem Kept.congr
    {cache after : ClientCache}
    (h : Kept cache)
    (hentries : after.entries = cache.entries)
    (hclients : cache.clients ≤ after.clients)
    (hjournal : after.journal = cache.journal)
    (hpass : ∀ id pass, (after.task id).pass? = some pass → (cache.task id).pass? = some pass)
    (hjobs : KeepsJobs cache after) :
    Kept after := by
  refine ⟨hentries ▸ h.keys, hentries ▸ h.keyed, ?_, ?_, ?_, ?_, ?_, hjournal ▸ h.handed⟩
  · intro entry hmem
    exact Nat.le_trans (h.numbered entry (hentries ▸ hmem)) hclients
  · intro client hmem
    exact Nat.le_trans (h.told client (hjournal ▸ hmem)) hclients
  · rw [hentries, hjournal]
    exact h.fresh
  · rw [hentries, hjournal]
    exact h.cached
  · intro id client rest hpassing
    have hbefore := hpass id _ hpassing
    obtain ⟨hclose, hrest⟩ := h.passing id client rest hbefore
    have hid : id < cache.tasks.size := lt_size_of_pass (by simp [hbefore])
    exact ⟨(hjobs id hid).2.trans hclose, hentries ▸ hrest⟩

/-- Something was observed that neither tells a client to close nor empties the cache. -/
theorem Kept.note
    {cache : ClientCache}
    {entry : CacheObservation}
    (h : Kept cache)
    (hempties : entry.empties = false)
    (htold : entry.told? = none)
    (hhanded : ∀ client, entry.handed? = some client →
      (.closing client ∈ cache.journal ↔ client ∈ lingering cache.journal)) :
    Kept (cache.note entry) := by
  have hlingering : lingering (cache.note entry).journal = lingering cache.journal :=
    lingering_cons hempties htold
  have hclosing : ∀ client, .closing client ∈ (cache.note entry).journal →
      .closing client ∈ cache.journal := by
    intro client hmem
    rcases List.mem_cons.mp hmem with rfl | hold
    · cases htold
    · exact hold
  refine ⟨h.keys, h.keyed, h.numbered, ?_, ?_, ?_, h.passing, isExact_cons h.handed hhanded⟩
  · exact fun client hmem => h.told client (hclosing client hmem)
  · intro other hmem htold'
    rw [hlingering]
    exact h.fresh other hmem (hclosing _ htold')
  · rw [hlingering]
    exact h.cached

/-- A client of the cache is told to close. -/
theorem Kept.closing
    {cache : ClientCache}
    {key : String}
    {client : ClientId}
    (h : Kept cache)
    (hmem : (key, client) ∈ cache.entries) :
    Kept (cache.note (.closing client)) := by
  have hlingering : lingering (cache.note (.closing client)).journal =
      client :: lingering cache.journal := lingering_closing client
  refine ⟨h.keys, h.keyed, h.numbered, ?_, ?_, ?_, h.passing, isExact_cons h.handed ?_⟩
  · intro other hother
    rcases List.mem_cons.mp hother with heq | hold
    · cases heq
      exact h.numbered _ hmem
    · exact h.told other hold
  · intro entry hentry hother
    rw [hlingering]
    rcases List.mem_cons.mp hother with heq | hold
    · exact CacheObservation.closing.inj heq ▸ List.mem_cons_self
    · exact List.mem_cons_of_mem _ (h.fresh entry hentry hold)
  · intro other hother
    rw [hlingering] at hother
    rcases List.mem_cons.mp hother with rfl | hold
    · exact ⟨key, hmem⟩
    · exact h.cached other hold
  · intro other hother
    cases hother

theorem Kept.log
    {cache : ClientCache}
    (h : Kept cache)
    (level : LogLevel)
    (text : String) :
    Kept (cache.log level text) := by
  unfold ClientCache.log
  split
  · refine h.note rfl rfl fun client hhanded => ?_
    cases hhanded
  · exact h

/-- A new client is put into the cache. -/
theorem Kept.put
    {cache after : ClientCache}
    {settings : Settings}
    (h : Kept cache)
    (hnone : Entries.get? (Connection.ofSettings settings).key cache.entries = none)
    (hentries : after.entries = Entries.put (Connection.ofSettings settings).key
      (cache.clients + 1) cache.entries)
    (hclients : after.clients = cache.clients + 1)
    (hjournal : after.journal = cache.journal)
    (htasks : after.tasks = cache.tasks) :
    Kept after := by
  have hkept : ∀ entry ∈ cache.entries, entry ∈ after.entries := by
    intro entry hmem
    rw [hentries]
    refine Entries.mem_of_get? ?_
    have hne : entry.1 ≠ (Connection.ofSettings settings).key := by
      intro heq
      exact Entries.get?_eq_none_iff.mp hnone (heq ▸ List.mem_map_of_mem hmem)
    rw [Entries.get?_put_of_ne hne]
    exact (Entries.get?_eq_some_iff h.keys).mpr hmem
  have hmem : ∀ entry ∈ after.entries,
      entry = ((Connection.ofSettings settings).key, cache.clients + 1) ∨ entry ∈ cache.entries :=
    fun entry hentry => Entries.mem_put (hentries ▸ hentry)
  refine ⟨hentries ▸ Entries.nodup_keys_put h.keys _ _, ?_, ?_, ?_, ?_, ?_, ?_, hjournal ▸ h.handed⟩
  · intro entry hentry
    rcases hmem entry hentry with rfl | hold
    · exact ⟨settings, rfl⟩
    · exact h.keyed entry hold
  · intro entry hentry
    rw [hclients]
    rcases hmem entry hentry with rfl | hold
    · exact Nat.le_refl _
    · exact Nat.le_succ_of_le (h.numbered entry hold)
  · intro client htold
    rw [hclients]
    exact Nat.le_succ_of_le (h.told client (hjournal ▸ htold))
  · intro entry hentry htold
    rw [hjournal] at htold ⊢
    rcases hmem entry hentry with rfl | hold
    · exact absurd (h.told _ htold) (Nat.not_succ_le_self _)
    · exact h.fresh entry hold htold
  · intro client hlingering
    obtain ⟨key, hold⟩ := h.cached client (hjournal ▸ hlingering)
    exact ⟨key, hkept _ hold⟩
  · intro id client rest hpass
    rw [task_congr htasks] at hpass ⊢
    obtain ⟨hclose, hrest⟩ := h.passing id client rest hpass
    exact ⟨hclose, fun entry hentry => hkept entry (hrest entry hentry)⟩

/-- The cache is emptied. -/
theorem Kept.emptied
    {cache after : ClientCache}
    {id : TaskId}
    (h : Kept cache)
    (hentries : after.entries = [])
    (hclients : after.clients = cache.clients)
    (hjournal : after.journal = .ended id (.ok .nothing) :: cache.journal)
    (hpass : ∀ other, (after.task other).pass? = none) :
    Kept after := by
  have hlingering : lingering after.journal = [] := by
    rw [hjournal]
    exact lingering_of_empties rfl
  have hnone : ∀ entry, entry ∉ after.entries := fun entry => hentries ▸ List.not_mem_nil
  refine ⟨hentries ▸ List.nodup_nil, ?_, ?_, ?_, ?_, ?_, ?_, ?_⟩
  · exact fun entry hmem => absurd hmem (hnone entry)
  · exact fun entry hmem => absurd hmem (hnone entry)
  · intro client hmem
    rw [hjournal] at hmem
    rw [hclients]
    rcases List.mem_cons.mp hmem with heq | hold
    · cases heq
    · exact h.told client hold
  · exact fun entry hmem => absurd hmem (hnone entry)
  · intro client hmem
    rw [hlingering] at hmem
    cases hmem
  · intro other client rest hother
    rw [hpass] at hother
    cases hother
  · rw [hjournal]
    refine isExact_cons h.handed fun client hhanded => ?_
    cases hhanded

end ClientCache
end TraceArchive
