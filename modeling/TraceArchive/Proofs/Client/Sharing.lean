import TraceArchive.Proofs.Client.Deeds

/-!
# Who shares a client

Clients are cached under one text, in which the kind of backend, the host and the user name stand
one after the other with a colon between them.  Whoever gets a client asked for the text that it was
made for, and nothing more: a colon in a host or in a user name may stand for the one between them.

* `Settings.SharesKey`, `Settings.SameBackend`: what settings with one text agree on, and what they
  would have to agree on.
* `Settings.sameBackend_iff`: how far apart the two are.
* `Traced`: every client that is cached or was handed out was made for the text that it goes by.
* `agree_of_handed`: who is handed the same client.
-/

set_option autoImplicit false

namespace TraceArchive

/-! ### Texts with a mark between their parts -/

section Parts

universe u

variable {α : Type u} [DecidableEq α] {mark : α} {front back front' back' : List α}

/-- Nothing stands between two places of a mark when as many marks come after the one as after the
other. -/
theorem eq_nil_of_count_eq
    {between : List α}
    (h : mark :: back = between ++ mark :: back')
    (hcount : back.count mark = back'.count mark) :
    between = [] := by
  cases between with
  | nil => rfl
  | cons first between =>
      have hback : back = between ++ mark :: back' := (List.cons.inj h).2
      rw [hback, List.count_append, List.count_cons_self] at hcount
      omega

/-- Two ways to part a list at a mark are the same when as many marks are left after it. -/
theorem parts_eq_iff (h : front ++ mark :: back = front' ++ mark :: back') :
    front = front' ∧ back = back' ↔ back.count mark = back'.count mark := by
  constructor
  · rintro ⟨-, rfl⟩
    rfl
  · intro hcount
    -- One front is the other and something between; what is between would hold one more mark.
    rcases List.append_eq_append_iff.mp h with ⟨between, rfl, hrest⟩ | ⟨between, rfl, hrest⟩
    · obtain rfl := eq_nil_of_count_eq hrest hcount
      exact ⟨(List.append_nil front).symm, (List.cons.inj hrest).2⟩
    · obtain rfl := eq_nil_of_count_eq hrest hcount.symm
      exact ⟨List.append_nil front', (List.cons.inj hrest).2.symm⟩

end Parts

namespace Settings

/-- The host and the user name in one text. -/
def login (settings : Settings) : String :=
  settings.account.host ++ ":" ++ settings.account.username

/-- Two settings ask for clients under one key. -/
structure SharesKey (settings other : Settings) : Prop where
  engine : settings.engine = other.engine
  login : settings.login = other.login

/-- Two settings ask for clients of one user of one backend. -/
structure SameBackend (settings other : Settings) : Prop where
  engine : settings.engine = other.engine
  host : settings.account.host = other.account.host
  username : settings.account.username = other.account.username

/-- The number of colons in the user name. -/
def colons (settings : Settings) : Nat :=
  settings.account.username.toList.count ':'

theorem toList_login (settings : Settings) :
    settings.login.toList =
      settings.account.host.toList ++ ':' :: settings.account.username.toList := by
  rw [login, String.toList_append, String.toList_append, List.append_assoc]
  rfl

/-- Settings with one key ask for one backend just when their user names have equally many
colons. -/
theorem sameBackend_iff
    {settings other : Settings}
    (h : settings.SharesKey other) :
    settings.SameBackend other ↔ settings.colons = other.colons := by
  have hlogin := congrArg String.toList h.login
  rw [toList_login, toList_login] at hlogin
  rw [colons, colons, ← parts_eq_iff hlogin]
  constructor
  · exact fun hsame => ⟨congrArg String.toList hsame.host, congrArg String.toList hsame.username⟩
  · exact fun hparts =>
      ⟨h.engine, String.toList_injective hparts.1, String.toList_injective hparts.2⟩

/-- The kind of backend is the first word of the key. -/
theorem key_eq_iff {settings other : Settings} :
    (Connection.ofSettings settings).key = (Connection.ofSettings other).key ↔
      settings.SharesKey other := by
  have hkey : ∀ settings : Settings, (Connection.ofSettings settings).key =
      settings.engine.name ++ ":" ++ settings.login := by
    intro settings
    simp only [Connection.key, Connection.keyOf, Connection.ofSettings, login, String.append_assoc]
  rw [hkey, hkey]
  constructor
  · intro h
    have hengine : settings.engine = other.engine := by
      have hfirst := congrArg (fun text => text.toList.head?) h
      revert hfirst
      cases settings.engine <;> cases other.engine <;> simp [Engine.name]
    refine ⟨hengine, ?_⟩
    rw [hengine] at h
    exact String.append_right_inj _ |>.mp h
  · rintro ⟨hengine, hlogin⟩
    rw [hengine, hlogin]

end Settings

namespace ClientCache

/-! ### Where clients come from -/

/-- A task asked for a client that was made for the key of its settings. -/
def Earned (cache : ClientCache) (id : TaskId) (client : ClientId) : Prop :=
  id < cache.tasks.size ∧ ∃ settings connection, (cache.task id).job.asks? = some settings ∧
    .created client connection ∈ cache.journal ∧
      connection.key = (Connection.ofSettings settings).key

/-- Every client was made for one connection, and is cached and handed out under its key. -/
structure Traced (cache : ClientCache) : Prop where
  numbered : ∀ client connection, .created client connection ∈ cache.journal →
    client ≤ cache.clients
  unique : ∀ client connection connection', .created client connection ∈ cache.journal →
    .created client connection' ∈ cache.journal → connection = connection'
  cached : ∀ key client, Entries.get? key cache.entries = some client →
    ∃ connection, .created client connection ∈ cache.journal ∧ connection.key = key
  handed : ∀ id value client, .ended id (.ok value) ∈ cache.journal → value.client? = some client →
    cache.Earned id client

theorem Earned.extend
    {cache after : ClientCache}
    {news : List CacheObservation}
    {id : TaskId}
    {client : ClientId}
    (h : cache.Earned id client)
    (hjournal : after.journal = news ++ cache.journal)
    (hjobs : KeepsJobs cache after) :
    after.Earned id client := by
  obtain ⟨hid, settings, connection, hasks, hmade, hkey⟩ := h
  obtain ⟨hid', hjob⟩ := hjobs id hid
  exact ⟨hid', settings, connection, hjob ▸ hasks, hjournal ▸ List.mem_append_right news hmade,
    hkey⟩

/-- Clients can be traced on while none is made and none is put into the cache. -/
theorem Traced.extend
    {cache after : ClientCache}
    {news : List CacheObservation}
    (h : Traced cache)
    (hclients : after.clients = cache.clients)
    (hjournal : after.journal = news ++ cache.journal)
    (hmade : ∀ client connection, .created client connection ∉ news)
    (hhanded : ∀ id value client, .ended id (.ok value) ∈ news → value.client? = some client →
      after.Earned id client)
    (hentries : ∀ key client, Entries.get? key after.entries = some client →
      Entries.get? key cache.entries = some client)
    (hjobs : KeepsJobs cache after) :
    Traced after := by
  have hmem : ∀ entry, entry ∈ after.journal ↔ entry ∈ news ∨ entry ∈ cache.journal := by
    intro entry
    rw [hjournal, List.mem_append]
  have hold : ∀ client connection, .created client connection ∈ after.journal →
      .created client connection ∈ cache.journal :=
    fun client connection hcreated =>
      ((hmem _).mp hcreated).resolve_left (hmade client connection)
  refine ⟨fun client connection hcreated => ?_, fun client connection connection' hone htwo => ?_,
    fun key client hcached => ?_, fun id value client hended hvalue => ?_⟩
  · exact hclients ▸ h.numbered client connection (hold client connection hcreated)
  · exact h.unique client _ _ (hold _ _ hone) (hold _ _ htwo)
  · obtain ⟨connection, hcreated, hkey⟩ := h.cached key client (hentries key client hcached)
    exact ⟨connection, (hmem _).mpr (Or.inr hcreated), hkey⟩
  · rcases (hmem _).mp hended with hnew | hearlier
    · exact hhanded id value client hnew hvalue
    · exact (h.handed id value client hearlier hvalue).extend hjournal hjobs

/-- Clients can be traced on while nothing is done with them. -/
theorem Traced.asides
    {cache after : ClientCache}
    {asides : List CacheObservation}
    (h : Traced cache)
    (hclients : after.clients = cache.clients)
    (hjournal : after.journal = asides ++ cache.journal)
    (hasides : ∀ entry ∈ asides, entry.isAside = true)
    (hentries : ∀ key client, Entries.get? key after.entries = some client →
      Entries.get? key cache.entries = some client)
    (hjobs : KeepsJobs cache after) :
    Traced after := by
  refine h.extend hclients hjournal ?_ ?_ hentries hjobs
  · intro client connection hmem
    cases hasides _ hmem
  · intro id value client hmem hvalue
    have haside : value.client?.isNone = true := hasides _ hmem
    rw [hvalue] at haside
    cases haside

/-- A client that is made has a new number. -/
theorem Traced.made
    {cache after : ClientCache}
    {connection : Connection}
    (h : Traced cache)
    (hclients : after.clients = cache.clients + 1)
    (hjournal : after.journal = .created (cache.clients + 1) connection :: cache.journal)
    (hentries : ∀ key client, Entries.get? key after.entries = some client →
      Entries.get? key cache.entries = some client ∨
        client = cache.clients + 1 ∧ key = connection.key)
    (hjobs : KeepsJobs cache after) :
    Traced after := by
  have hcreated : ∀ client connection', .created client connection' ∈ after.journal →
      client = cache.clients + 1 ∧ connection' = connection ∨
        client ≤ cache.clients ∧ .created client connection' ∈ cache.journal := by
    intro client connection' hmem
    rw [hjournal] at hmem
    rcases List.mem_cons.mp hmem with hnew | hold
    · cases hnew
      exact Or.inl ⟨rfl, rfl⟩
    · exact Or.inr ⟨h.numbered client connection' hold, hold⟩
  have hkept : ∀ entry ∈ cache.journal, entry ∈ after.journal :=
    fun entry hmem => hjournal ▸ List.mem_cons_of_mem _ hmem
  refine ⟨fun client connection' hmem => ?_, fun client one two hone htwo => ?_,
    fun key client hcached => ?_, fun id value client hended hvalue => ?_⟩
  · rcases hcreated client connection' hmem with ⟨rfl, -⟩ | ⟨hle, -⟩ <;> omega
  · rcases hcreated client one hone with ⟨hnew, rfl⟩ | ⟨hle, hold⟩ <;>
      rcases hcreated client two htwo with ⟨hnew', rfl⟩ | ⟨hle', hold'⟩
    · rfl
    · omega
    · omega
    · exact h.unique client one two hold hold'
  · rcases hentries key client hcached with hold | ⟨rfl, rfl⟩
    · obtain ⟨made, hmade, hkey⟩ := h.cached key client hold
      exact ⟨made, hkept _ hmade, hkey⟩
    · exact ⟨connection, hjournal ▸ List.mem_cons_self, rfl⟩
  · rw [hjournal] at hended
    rcases List.mem_cons.mp hended with hnew | hold
    · cases hnew
    · have hearlier := h.handed id value client hold hvalue
      exact hearlier.extend (hjournal.trans List.singleton_append.symm) hjobs

theorem Traced.deed
    {cache after : ClientCache}
    (h : Traced cache)
    (hdeed : Deed cache after) :
    Traced after := by
  cases hdeed with
  | quiet hquiet =>
      obtain ⟨asides, hjournal, hasides⟩ := hquiet.journal
      exact h.asides hquiet.clients hjournal hasides
        (fun key client hcached => hquiet.entries ▸ hcached) hquiet.jobs
  | @make settings hnone halone =>
      refine h.made rfl rfl (fun key client hcached => ?_) (.of_tasks_eq rfl)
      by_cases hsame : key = (Connection.ofSettings settings).key
      · subst hsame
        have hnew := Option.some.inj ((Entries.get?_put_self _ _ _).symm.trans hcached)
        exact Or.inr ⟨hnew.symm, rfl⟩
      · exact Or.inl ((Entries.get?_put_of_ne hsame _ _).symm.trans hcached)
  | @hand id client value settings hrunning hasks hcached hvalue =>
      have hjobs := keepsJobs_finish cache id (.ok value)
      obtain ⟨connection, hmade, hkey⟩ := h.cached _ client hcached
      have hearned : cache.Earned id client :=
        ⟨lt_size_of_state hrunning (by simp), settings, connection, hasks, hmade, hkey⟩
      have hjournal : (cache.finish id (.ok value)).journal =
          [.ended id (.ok value)] ++ cache.journal := rfl
      refine h.extend rfl hjournal ?_ ?_ (fun _ _ hsame => hsame) hjobs
      · intro other connection' hmem
        cases List.mem_singleton.mp hmem
      · intro other value' client' hmem hvalue'
        cases List.mem_singleton.mp hmem
        obtain rfl := Option.some.inj (hvalue.symm.trans hvalue')
        exact hearned.extend hjournal hjobs
  | close client =>
      have hjournal : (cache.note (.closed client)).journal =
          [.closed client] ++ cache.journal := rfl
      refine h.extend rfl hjournal ?_ ?_ (fun _ _ hsame => hsame) (.of_tasks_eq rfl)
      · intro other connection hmem
        cases List.mem_singleton.mp hmem
      · intro id value other hmem
        cases List.mem_singleton.mp hmem
  | wait =>
      exact h.asides rfl (List.nil_append _).symm (List.forall_mem_nil _) (fun _ _ hsame => hsame)
        (keepsJobs_park _ _ _ _)

theorem Traced.deeds
    {cache after : ClientCache}
    (h : Traced cache)
    (hdeeds : Deeds cache after) :
    Traced after := by
  induction hdeeds with
  | refl => exact h
  | tail _ hlast ih => exact ih.deed hlast

theorem Traced.empties
    {cache after : ClientCache}
    (h : Traced cache)
    (hempties : Empties cache after) :
    Traced after := by
  obtain ⟨entry, haside, hjournal⟩ := hempties.journal
  refine h.asides hempties.clients (hjournal.trans List.singleton_append.symm)
    (List.forall_mem_singleton.mpr haside) (fun key client hcached => ?_) hempties.jobs
  rw [hempties.entries] at hcached
  cases hcached

theorem Traced.passage
    {cache after : ClientCache}
    (h : Traced cache)
    (hpassage : Passage cache after) :
    Traced after := by
  obtain ⟨middle, hdeeds, rfl | hempties⟩ := hpassage
  · exact h.deeds hdeeds
  · exact (h.deeds hdeeds).empties hempties

theorem Traced.create
    {cache : ClientCache}
    (h : Traced cache)
    (connection : Connection) :
    Traced (cache.create connection).2 := by
  rcases create_eq_or cache connection with heq | heq
  · rw [heq]
    exact h.asides rfl (List.nil_append _).symm (List.forall_mem_nil _) (fun _ _ hsame => hsame)
      (.of_tasks_eq rfl)
  · rw [heq]
    exact h.made rfl rfl (fun _ _ hcached => Or.inl hcached) (.of_tasks_eq rfl)

theorem traced_start
    (openings : Nat → Option CacheFailure)
    (closings : ClientId → Closing) :
    Traced (start openings closings) := by
  refine ⟨fun client connection hmem => ?_, fun client connection connection' hmem => ?_,
    fun key client hcached => ?_, fun id value client hmem => ?_⟩
  · cases hmem
  · cases hmem
  · cases hcached
  · cases hmem

theorem traced_of_reachable
    {cache : ClientCache}
    (h : cache.Reachable) :
    Traced cache := by
  have hall : Sound cache ∧ cache.Covered ∧ Traced cache := by
    refine h.induct (motive := fun cache => Sound cache ∧ cache.Covered ∧ Traced cache) ?_ ?_
    · exact fun openings closings => ⟨sound_start openings closings,
        covered_start openings closings, traced_start openings closings⟩
    · rintro cache after ⟨hsound, hcovered, htraced⟩ hmove
      refine ⟨sound_of_move hsound hmove, ?_⟩
      rcases turn_or_create_of_move hmove with hturn | ⟨connection, rfl⟩
      · have hpassage := passage_of_turn hsound.toGuarded hcovered hturn
        exact ⟨hcovered.passage hpassage, htraced.passage hpassage⟩
      · exact ⟨hcovered.create connection, htraced.create connection⟩
  exact hall.2.2

/-! ### Clients that are handed out -/

/-- A task was handed a client. -/
def Handed (cache : ClientCache) (id : TaskId) (client : ClientId) : Prop :=
  ∃ value, .ended id (.ok value) ∈ cache.journal ∧ value.client? = some client

/-- **Who is handed the same client.**  Tasks that are handed the same client asked for the same
kind of backend with the same login, host and user name in one text; they asked for the same user
of the same host just when their user names have equally many colons.  And whoever asks with the
login of a client in the cache is handed that one, whatever his host and his user name are. -/
theorem agree_of_handed
    {cache : ClientCache}
    (h : cache.Reachable) :
    (∀ id other settings settings' client,
      (cache.task id).job.asks? = some settings → (cache.task other).job.asks? = some settings' →
        cache.Handed id client → cache.Handed other client →
          settings.SharesKey settings' ∧
            (settings.SameBackend settings' ↔ settings.colons = settings'.colons)) ∧
      ∀ settings settings' client,
        Entries.get? (Connection.ofSettings settings).key cache.entries = some client →
          settings.SharesKey settings' → ∀ id < cache.tasks.size,
            (cache.task id).state = .ready .start → (cache.task id).job = .get settings' →
              (cache.wake id).journal = .ended id (.ok (.client client)) :: cache.journal := by
  have htraced := traced_of_reachable h
  constructor
  · rintro id other settings settings' client hasks hasks' ⟨value, hended, hvalue⟩
      ⟨value', hended', hvalue'⟩
    obtain ⟨-, asked, connection, hasked, hmade, hkey⟩ :=
      htraced.handed id value client hended hvalue
    obtain ⟨-, asked', connection', hasked', hmade', hkey'⟩ :=
      htraced.handed other value' client hended' hvalue'
    obtain rfl := Option.some.inj (hasks.symm.trans hasked)
    obtain rfl := Option.some.inj (hasks'.symm.trans hasked')
    obtain rfl := htraced.unique client connection connection' hmade hmade'
    have hshares := Settings.key_eq_iff.mp (hkey.symm.trans hkey')
    exact ⟨hshares, Settings.sameBackend_iff hshares⟩
  · intro settings settings' client hcached hshares id hid hstate hjob
    rw [Settings.key_eq_iff.mpr hshares] at hcached
    exact wake_of_cached hid hstate hjob hcached

/-- Settings for an Elasticsearch backend. -/
def settingsOf (host username : String) : Settings :=
  { settingsFor .elasticsearch with elastic := ⟨host, username, "password"⟩ }

/-- Two tasks asked for clients of different users at different hosts, whose logins are the same. -/
def mistaken : ClientCache :=
  (((start (fun _ => none) fun _ => ⟨none, none⟩).spawn "first"
    (.get (settingsOf "localhost:9200:tenant" "a"))).spawn "second"
      (.get (settingsOf "localhost:9200" "tenant:a"))).settle 10

theorem reachable_mistaken : mistaken.Reachable := by
  have hfirst := Relation.ReflTransGen.single (Move.spawn (start (fun _ => none) fun _ =>
    ⟨none, none⟩) "first" (.get (settingsOf "localhost:9200:tenant" "a")))
  have hsecond := hfirst.tail
    (Move.spawn _ "second" (.get (settingsOf "localhost:9200" "tenant:a")))
  exact ⟨_, _, hsecond.trans (run_settle 10 _)⟩

/-- Both are handed the client that was made for the first one. -/
theorem agree_of_handed_mistaken :
    mistaken.Handed 0 1 ∧ mistaken.Handed 1 1 ∧
      ¬(settingsOf "localhost:9200:tenant" "a").SameBackend
        (settingsOf "localhost:9200" "tenant:a") := by
  have hjournal : mistaken.journal = [.ended 1 (.ok (.client 1)), .ended 0 (.ok (.client 1)),
      .created 1 (.ofSettings (settingsOf "localhost:9200:tenant" "a")),
      .logged .info "Creating elasticsearch client for localhost:9200:tenant"] := rfl
  have hfirst : mistaken.Handed 0 1 := ⟨.client 1, by simp [hjournal], rfl⟩
  have hsecond : mistaken.Handed 1 1 := ⟨.client 1, by simp [hjournal], rfl⟩
  have hagree := (agree_of_handed reachable_mistaken).1 0 1 _ _ 1 rfl rfl hfirst hsecond
  refine ⟨hfirst, hsecond, fun hsame => ?_⟩
  exact absurd (hagree.2.mp hsame) (by decide)

end ClientCache
end TraceArchive
