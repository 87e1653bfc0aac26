import TraceArchive.Proofs.Client.Deeds

/-!
# How long the cache keeps its clients

A client that was made for a key stays in the cache until it is closed, and as long as it is there
no other is made for its key.

* `Deeds.cached`, `made_of_deeds`: in a turn nothing cached is lost, and clients are only made for
  keys that were not cached.
* `Keeps`: every client that was made is cached or was closed.
* `keeps_of_isShared`: this holds of every cache whose clients are all shared.
* `one_open_client`: each key has at most one client that is open.
-/

set_option autoImplicit false

namespace TraceArchive
namespace ClientCache

/-! ### What is lost and what is made in a turn -/

/-- What is cached stays so, whatever the running task does with clients. -/
theorem Deed.cached
    {cache after : ClientCache}
    {key : String}
    {client : ClientId}
    (h : Deed cache after)
    (hcached : Entries.get? key cache.entries = some client) :
    Entries.get? key after.entries = some client := by
  cases h with
  | quiet hquiet =>
      rw [hquiet.entries]
      exact hcached
  | @make settings hnone halone =>
      have hne : key ≠ (Connection.ofSettings settings).key := by
        rintro rfl
        cases hnone.symm.trans hcached
      exact (Entries.get?_put_of_ne hne _ _).trans hcached
  | hand => exact hcached
  | close => exact hcached
  | wait => exact hcached

theorem Deeds.cached
    {cache after : ClientCache}
    {key : String}
    {client : ClientId}
    (h : Deeds cache after)
    (hcached : Entries.get? key cache.entries = some client) :
    Entries.get? key after.entries = some client := by
  induction h with
  | refl => exact hcached
  | tail _ hlast ih => exact hlast.cached ih

/-- A client is made only for a key that is not cached, and then is cached itself, or was closed
since. -/
def Makes (cache after : ClientCache) : Prop :=
  ∃ news, after.journal = news ++ cache.journal ∧
    ∀ client connection, .created client connection ∈ news →
      Entries.get? connection.key cache.entries = none ∧
        (Entries.get? connection.key after.entries = some client ∨ .closed client ∈ after.journal)

theorem makes_of_asides
    {cache after : ClientCache}
    {asides : List CacheObservation}
    (hjournal : after.journal = asides ++ cache.journal)
    (hasides : ∀ entry ∈ asides, entry.isAside = true) :
    Makes cache after := by
  refine ⟨asides, hjournal, fun client connection hmem => ?_⟩
  cases hasides _ hmem

theorem Deed.makes
    {cache after : ClientCache}
    (h : Deed cache after) :
    Makes cache after := by
  cases h with
  | quiet hquiet =>
      obtain ⟨asides, hjournal, hasides⟩ := hquiet.journal
      exact makes_of_asides hjournal hasides
  | make hnone halone =>
      refine ⟨[_], rfl, fun client connection hmem => ?_⟩
      cases List.mem_singleton.mp hmem
      exact ⟨hnone, Or.inl (Entries.get?_put_self _ _ _)⟩
  | hand =>
      refine ⟨[_], rfl, fun client connection hmem => ?_⟩
      cases List.mem_singleton.mp hmem
  | close =>
      refine ⟨[_], rfl, fun client connection hmem => ?_⟩
      cases List.mem_singleton.mp hmem
  | wait => exact makes_of_asides (List.nil_append _).symm (List.forall_mem_nil _)

theorem makes_of_deeds
    {cache after : ClientCache}
    (h : Deeds cache after) :
    Makes cache after := by
  induction h with
  | refl => exact makes_of_asides (List.nil_append _).symm (List.forall_mem_nil _)
  | tail hearlier hlast ih =>
      obtain ⟨news, hjournal, hmade⟩ := ih
      obtain ⟨later, hjournal', hmade'⟩ := hlast.makes
      refine ⟨later ++ news, ?_, fun client connection hmem => ?_⟩
      · rw [hjournal', hjournal, List.append_assoc]
      · rcases List.mem_append.mp hmem with hlater | hold
        · obtain ⟨hnone, hkept⟩ := hmade' client connection hlater
          refine ⟨Option.eq_none_iff_forall_ne_some.mpr fun other hother => ?_, hkept⟩
          -- What was cached before still is, for nothing was lost.
          cases (Deeds.cached hearlier hother).symm.trans hnone
        · obtain ⟨hnone, hcached | hclosed⟩ := hmade client connection hold
          · exact ⟨hnone, Or.inl (hlast.cached hcached)⟩
          · exact ⟨hnone, Or.inr (hjournal' ▸ List.mem_append_right later hclosed)⟩

/-- What is cached stays so in a turn, or was closed. -/
theorem Passage.cached
    {cache after : ClientCache}
    {key : String}
    {client : ClientId}
    (h : Passage cache after)
    (hcached : Entries.get? key cache.entries = some client) :
    Entries.get? key after.entries = some client ∨ .closed client ∈ after.journal := by
  obtain ⟨middle, hdeeds, rfl | hempties⟩ := h
  · exact Or.inl (Deeds.cached hdeeds hcached)
  · obtain ⟨last, _, hlast⟩ := hempties.journal
    have hmem := Entries.mem_of_get? (Deeds.cached hdeeds hcached)
    exact Or.inr (hlast ▸ List.mem_cons_of_mem last (hempties.closed _ hmem))

theorem Passage.makes
    {cache after : ClientCache}
    (h : Passage cache after) :
    Makes cache after := by
  obtain ⟨middle, hdeeds, rfl | hempties⟩ := h
  · exact makes_of_deeds hdeeds
  · obtain ⟨news, hjournal, hmade⟩ := makes_of_deeds hdeeds
    obtain ⟨last, haside, hlast⟩ := hempties.journal
    refine ⟨last :: news, ?_, fun client connection hmem => ?_⟩
    · rw [hlast, hjournal, List.cons_append]
    · rcases List.mem_cons.mp hmem with rfl | hold
      · cases haside
      · obtain ⟨hnone, hcached | hclosed⟩ := hmade client connection hold
        · have hclosed := hempties.closed _ (Entries.mem_of_get? hcached)
          exact ⟨hnone, Or.inr (hlast ▸ List.mem_cons_of_mem last hclosed)⟩
        · exact ⟨hnone, Or.inr (hlast ▸ List.mem_cons_of_mem last hclosed)⟩

/-! ### Clients that were made -/

/-- A client was made and has not been closed. -/
def IsOpen (cache : ClientCache) (client : ClientId) (connection : Connection) : Prop :=
  .created client connection ∈ cache.journal ∧ .closed client ∉ cache.journal

/-- Every client that was made is cached for its key, or was closed. -/
def Keeps (cache : ClientCache) : Prop :=
  ∀ client connection, .created client connection ∈ cache.journal →
    Entries.get? connection.key cache.entries = some client ∨ .closed client ∈ cache.journal

theorem Keeps.passage
    {cache after : ClientCache}
    (hkeeps : cache.Keeps)
    (h : Passage cache after) :
    after.Keeps := by
  obtain ⟨news, hjournal, hmade⟩ := h.makes
  intro client connection hmem
  rw [hjournal] at hmem
  rcases List.mem_append.mp hmem with hnew | hold
  · exact (hmade client connection hnew).2
  · rcases hkeeps client connection hold with hcached | hclosed
    · exact h.cached hcached
    · exact Or.inr (hjournal ▸ List.mem_append_right news hclosed)

/-- A cache all of whose clients are shared: it came about by turns only. -/
def IsShared (cache : ClientCache) : Prop :=
  ∃ openings closings, Relation.ReflTransGen Turn (start openings closings) cache

theorem IsShared.sound
    {cache : ClientCache}
    (h : cache.IsShared) :
    Sound cache ∧ cache.Covered := by
  obtain ⟨openings, closings, hturns⟩ := h
  induction hturns with
  | refl => exact ⟨sound_start openings closings, covered_start openings closings⟩
  | tail _ hlast ih =>
      obtain ⟨hsound, hcovered⟩ := ih
      exact ⟨sound_of_turn hsound hlast,
        hcovered.passage (passage_of_turn hsound.toGuarded hcovered hlast)⟩

/-- Every turn in a shared cache does what turns do with clients. -/
theorem IsShared.passage
    {cache after : ClientCache}
    (h : cache.IsShared)
    (hturn : Turn cache after) :
    Passage cache after :=
  passage_of_turn h.sound.1.toGuarded h.sound.2 hturn

theorem keeps_of_isShared
    {cache : ClientCache}
    (h : cache.IsShared) :
    cache.Keeps := by
  obtain ⟨openings, closings, hturns⟩ := h
  induction hturns with
  | refl => exact fun client connection hmem => absurd hmem List.not_mem_nil
  | tail hearlier hlast ih =>
      have hshared : IsShared _ := ⟨openings, closings, hearlier⟩
      exact ih.passage (hshared.passage hlast)

/-- **Each key has at most one open client.**  However tasks ask for clients, close them, fail and
are canceled, a client that was made is cached for its key until it is closed, so that no two open
clients have one key.  In every turn clients are made for keys only that are not cached, and what is
cached stays so or was closed. -/
theorem one_open_client
    {cache : ClientCache}
    (h : cache.IsShared) :
    (∀ client connection other connection',
      cache.IsOpen client connection → cache.IsOpen other connection' →
        connection.key = connection'.key → client = other) ∧
      (∀ client connection, cache.IsOpen client connection →
        Entries.get? connection.key cache.entries = some client) ∧
      ∀ after, Turn cache after →
        (∃ news, after.journal = news ++ cache.journal ∧
          ∀ client connection, .created client connection ∈ news →
            Entries.get? connection.key cache.entries = none) ∧
        ∀ key client, Entries.get? key cache.entries = some client →
          Entries.get? key after.entries = some client ∨ .closed client ∈ after.journal := by
  have hcached : ∀ client connection, cache.IsOpen client connection →
      Entries.get? connection.key cache.entries = some client :=
    fun client connection hopen =>
      (keeps_of_isShared h client connection hopen.1).resolve_right hopen.2
  refine ⟨?_, hcached, fun after hturn => ⟨?_, fun key client => (h.passage hturn).cached⟩⟩
  · intro client connection other connection' hopen hopen' hkey
    have hsame := hcached other connection' hopen'
    rw [← hkey, hcached client connection hopen] at hsame
    exact Option.some.inj hsame
  · obtain ⟨news, hjournal, hmade⟩ := (h.passage hturn).makes
    exact ⟨news, hjournal, fun client connection hmem => (hmade client connection hmem).1⟩

/-- A cache whose only client is slow to close; meanwhile somebody else waits for the lock. -/
def slowlyClosing : ClientCache :=
  ((((start (fun _ => none) fun _ => ⟨some "slow", none⟩).spawn "first"
    (.get (settingsFor .elasticsearch))).spawn "close" .close).spawn "second"
      (.get (settingsFor .opensearch))).step.step.step

theorem isShared_slowlyClosing : slowlyClosing.IsShared := by
  refine ⟨fun _ => none, fun _ => ⟨some "slow", none⟩, ?_⟩
  have hfirst := Relation.ReflTransGen.single (Turn.spawn (start (fun _ => none) fun _ =>
    ⟨some "slow", none⟩) "first" (.get (settingsFor .elasticsearch)))
  have hclose := hfirst.tail (Turn.spawn _ "close" .close)
  have hsecond := hclose.tail (Turn.spawn _ "second" (.get (settingsFor .opensearch)))
  exact ((hsecond.tail (Turn.step _)).tail (Turn.step _)).tail (Turn.step _)

/-- The client is still cached, for it is not closed yet. -/
theorem one_open_client_slowlyClosing :
    slowlyClosing.IsOpen 1 (.ofSettings (settingsFor .elasticsearch)) ∧
      Entries.get? (Connection.ofSettings (settingsFor .elasticsearch)).key
        slowlyClosing.entries = some 1 := by
  have hjournal : slowlyClosing.journal =
      [.closing 1, .logged .info "Closing client elasticsearch:localhost:9200:elastic",
        .ended 0 (.ok (.client 1)), .created 1 (.ofSettings (settingsFor .elasticsearch)),
        .logged .info "Creating elasticsearch client for localhost:9200"] := rfl
  have hopen : slowlyClosing.IsOpen 1 (.ofSettings (settingsFor .elasticsearch)) := by
    rw [IsOpen, hjournal]
    simp
  exact ⟨hopen, (one_open_client isShared_slowlyClosing).2.1 1 _ hopen⟩

end ClientCache
end TraceArchive
