import TraceArchive.Call.Value
import TraceArchive.Proofs.Monadic

/-!
# What reading a response could let through

A response is taken apart by asking values for their members, their elements, the documents and the
trace IDs that they stand for.  Any of this may fail, and each time only some failures are caught
and made a refusal of the response.  `Response.Reading.read` fails with refusals only, so that no
gap between the two can be seen in it.  Here every access has its failure, and every handler names
the failures that it catches; all others go on as they are.

* `AccessFault`, `Access`: the accesses, and how they fail.
* `handling_bind`, `handling_mapM`: a handler around several steps is one around each of them.
* `keysChecked_eq`, `traceIdsChecked_eq`, `documentsChecked_eq`: the handlers catch whatever fails
  below them.
* `readChecked_eq`: reading a response fails with the same refusals, and with nothing else.
-/

set_option autoImplicit false

namespace TraceArchive

/-- How taking a response apart may fail.  A value that is no object is asked for all its members, a
member is not there, a value is of the wrong kind, a text is no trace ID, or a document is not
valid; or the response was refused. -/
inductive AccessFault where
  | noMembers
  | missing (name : String)
  | wrongKind
  | noTraceId
  | invalid (issues : List Issue)
  | refused (error : ResponseError)

/-! ### Accesses -/

namespace Access

/-- The values of all members. -/
def values : Json → Except AccessFault (List Json)
  | .obj members => .ok (members.map Prod.snd)
  | _ => .error .noMembers

/-- One member. -/
def member (name : String) : Json → Except AccessFault Json
  | .obj members =>
      match Entries.get? name members with
      | some value => .ok value
      | none => .error (.missing name)
  | _ => .error .wrongKind

/-- The elements, one after the other. -/
def elements (value : Json) : Except AccessFault (List Json) :=
  match value.elements? with
  | some items => .ok items
  | none => .error .wrongKind

/-- A document. -/
def document {α : Type} (read : Json → Checked α) (source : Json) : Except AccessFault α :=
  match read source with
  | .ok value => .ok value
  | .refused issues => .error (.invalid issues)

/-- A trace ID. -/
def traceId (key : String) : Except AccessFault TraceId :=
  match TraceId.parse? key with
  | some id => .ok id
  | none => .error .noTraceId

end Access

/-! ### Handlers -/

/-- The failures that a handler catches, and the refusals that it makes of them. -/
abbrev Handler := AccessFault → Option ResponseError

/-- A failure becomes a refusal if it is caught, and goes on as it is if it is not. -/
def AccessFault.handledBy (handler : Handler) (fault : AccessFault) : AccessFault :=
  match handler fault with
  | some error => .refused error
  | none => fault

/-- What is done with a handler around it. -/
def handling {α : Type} (handler : Handler) (x : Except AccessFault α) : Except AccessFault α :=
  x.mapError (AccessFault.handledBy handler)

/-- Whatever aggregations fail with. -/
def aggregationsHandler : Handler
  | .noMembers => some (.aggregations .notObject)
  | .missing name => some (.aggregations (.missing name))
  | .wrongKind => some (.aggregations .wrongKind)
  | _ => none

/-- Whatever hits fail with; nobody asks them for all their members. -/
def hitsHandler : Handler
  | .missing name => some (.hits (.missing name))
  | .wrongKind => some (.hits .wrongKind)
  | _ => none

/-- Documents that are not valid. -/
def documentsHandler (record : String) : Handler
  | .invalid issues => some (.undecodable record issues)
  | _ => none

/-- Values that are not as they have to be. -/
def idHandler (key : String) : Handler
  | .noTraceId => some (.invalidTraceId (.str key))
  | .invalid _ => some (.invalidTraceId (.str key))
  | _ => none

section Handling

variable {α β : Type} {handler : Handler}

theorem handling_bind (x : Except AccessFault α) (next : α → Except AccessFault β) :
    handling handler (x >>= next) = handling handler x >>= fun a => handling handler (next a) :=
  mapError_bind x next

theorem handling_mapM (list : List α) (f : α → Except AccessFault β) :
    handling handler (list.mapM f) = list.mapM fun a => handling handler (f a) :=
  mapError_mapM list f

/-- A handler lets refusals go on as they are. -/
theorem handling_refused
    (hnone : ∀ error, handler (.refused error) = none)
    (x : Except ResponseError α) :
    handling handler (x.mapError .refused) = x.mapError .refused := by
  cases x with
  | error error => simp [handling, Except.mapError, AccessFault.handledBy, hnone]
  | ok a => rfl

/-- A handler makes refusals of members that are not there and of values of the wrong kind. -/
structure Handler.Catches (handler : Handler) (error : ShapeFault → ResponseError) : Prop where
  missing : ∀ name, handler (.missing name) = some (error (.missing name))
  wrongKind : handler .wrongKind = some (error .wrongKind)

variable {error : ShapeFault → ResponseError}

theorem Handler.Catches.member
    (h : handler.Catches error)
    (name : String)
    (value : Json) :
    handling handler (Access.member name value) =
      ((value.demand name).mapError error).mapError .refused := by
  cases value with
  | obj members =>
      rw [Access.member, Json.demand]
      cases Entries.get? name members with
      | none => simp [handling, Except.mapError, AccessFault.handledBy, h.missing]
      | some value => rfl
  | _ =>
      simp [handling, Access.member, Json.demand, Except.mapError, AccessFault.handledBy,
        h.wrongKind]

theorem Handler.Catches.elements
    (h : handler.Catches error)
    (value : Json) :
    handling handler (Access.elements value) =
      (value.elements.mapError error).mapError .refused := by
  rw [Access.elements, Json.elements]
  cases value.elements? with
  | none => simp [handling, Except.mapError, AccessFault.handledBy, h.wrongKind]
  | some items => rfl

end Handling

theorem catches_aggregationsHandler : aggregationsHandler.Catches .aggregations :=
  ⟨fun _ => rfl, rfl⟩

theorem catches_hitsHandler : hitsHandler.Catches .hits :=
  ⟨fun _ => rfl, rfl⟩

namespace Response

/-! ### Keys -/

/-- The keys of the buckets of one aggregation. -/
def aggregationChecked (aggregation : Json) : Except AccessFault (List String) := do
  let buckets ← Access.member "buckets" aggregation
  let buckets ← Access.elements buckets
  buckets.mapM fun bucket => do
    let key ← Access.member "key" bucket
    return key.plain

/-- The keys of the buckets of all aggregations, in the order of the response. -/
def aggregationsChecked (aggregations : Json) : Except AccessFault (List String) := do
  let values ← Access.values aggregations
  let keys ← values.mapM aggregationChecked
  return keys.flatten

/-- The keys of the buckets of a response. -/
def keysChecked : Json → Except AccessFault (List String)
  | .obj members =>
      match Entries.get? "aggregations" members with
      | none => .ok []
      | some .null => .ok []
      | some aggregations => handling aggregationsHandler (aggregationsChecked aggregations)
  | body => .error (.refused (.notObject body))

/-- The trace IDs that the buckets stand for, without repeats. -/
def traceIdsChecked (body : Json) : Except AccessFault (List String) := do
  let keys ← keysChecked body
  let keys := keys.eraseDups
  let _ ← keys.mapM fun key => handling (idHandler key) (Access.traceId key)
  return keys

/-- The keys of all buckets, without repeats and sorted by code point. -/
def sortedKeysChecked (body : Json) : Except AccessFault (List String) := do
  let keys ← keysChecked body
  return keys.eraseDups.mergeSort fun a b => !decide (b < a)

theorem handling_aggregationChecked (aggregation : Json) :
    handling aggregationsHandler (aggregationChecked aggregation) =
      ((aggregationKeys aggregation).mapError .aggregations).mapError .refused := by
  have h := catches_aggregationsHandler
  rw [aggregationChecked, aggregationKeys]
  simp only [handling_bind, handling_mapM, mapError_bind, mapError_mapM, h.member, h.elements]
  rfl

theorem handling_aggregationsChecked (aggregations : Json) :
    handling aggregationsHandler (aggregationsChecked aggregations) =
      ((keysOf aggregations).mapError .aggregations).mapError .refused := by
  cases aggregations with
  | obj members =>
      have hvalues : handling aggregationsHandler (Access.values (.obj members)) =
          .ok (members.map Prod.snd) :=
        rfl
      rw [aggregationsChecked, handling_bind, hvalues, ok_bind, handling_bind, handling_mapM,
        List.mapM_map, keysOf, mapError_map, mapError_map, mapError_mapM, mapError_mapM]
      simp only [handling_aggregationChecked]
      rfl
  | _ => rfl

/-- Whatever aggregations fail with is caught. -/
theorem keysChecked_eq (body : Json) :
    keysChecked body = (bucketKeys body).mapError .refused := by
  cases body with
  | obj members =>
      rw [keysChecked, bucketKeys]
      cases Entries.get? "aggregations" members with
      | none => rfl
      | some aggregations =>
          cases aggregations with
          | null => rfl
          | _ => exact handling_aggregationsChecked _
  | _ => rfl

/-- The first key that is no trace ID is caught. -/
theorem mapM_traceId_eq (keys result : List String) :
    (do
      let _ ← keys.mapM fun key => handling (idHandler key) (Access.traceId key)
      return result) =
      Except.mapError .refused
        (match keys.find? fun key => (TraceId.parse? key).isNone with
        | some key => .error (.invalidTraceId (.str key))
        | none => .ok result) := by
  induction keys with
  | nil => rfl
  | cons key rest ih =>
      rw [List.mapM_cons, List.find?_cons, Access.traceId]
      cases TraceId.parse? key with
      | none => rfl
      | some id =>
          show (do
            let _ ← (do
              let ids ← rest.mapM fun key => handling (idHandler key) (Access.traceId key)
              return id :: ids)
            return result) = _
          rw [bind_assoc]
          exact ih

theorem traceIdsChecked_eq (body : Json) :
    traceIdsChecked body = (traceIds body).mapError .refused := by
  rw [traceIdsChecked, traceIds, keysChecked_eq, mapError_bind]
  exact congrArg _ (funext fun keys => mapM_traceId_eq keys.eraseDups keys.eraseDups)

theorem sortedKeysChecked_eq (body : Json) :
    sortedKeysChecked body = (sortedKeys body).mapError .refused := by
  rw [sortedKeysChecked, sortedKeys, keysChecked_eq, mapError_bind]
  rfl

/-! ### Documents -/

section Documents

variable {α : Type} (record : String) (read : Json → Checked α)

/-- The list of hits of a response. -/
def hitsChecked (body : Json) : Except AccessFault (List Json) := do
  let hits ← Access.member "hits" body
  let hits ← Access.member "hits" hits
  Access.elements hits

/-- The document of one hit. -/
def hitChecked (hit : Json) : Except AccessFault α := do
  let source ← handling hitsHandler (Access.member "_source" hit)
  Access.document read source

/-- The documents that were hit. -/
def documentsChecked : Json → Except AccessFault (List α)
  | .obj members => handling (documentsHandler record) do
      let hits ← handling hitsHandler (hitsChecked (.obj members))
      hits.mapM (hitChecked read)
  | body => .error (.refused (.notObject body))

theorem handling_hitsChecked (body : Json) :
    handling hitsHandler (hitsChecked body) =
      ((hitList body).mapError .hits).mapError .refused := by
  have h := catches_hitsHandler
  rw [hitsChecked, hitList]
  simp only [handling_bind, mapError_bind, h.member, h.elements]

theorem handling_hitChecked (hit : Json) :
    handling (documentsHandler record) (hitChecked read hit) =
      (readHit record read hit).mapError .refused := by
  rw [hitChecked, readHit, handling_bind, mapError_bind, catches_hitsHandler.member,
    handling_refused fun _ => rfl]
  refine congrArg _ (funext fun source => ?_)
  rw [Access.document]
  cases read source <;> rfl

/-- Whatever hits fail with is caught, and so is a document that is not valid. -/
theorem documentsChecked_eq (body : Json) :
    documentsChecked record read body = (documents record read body).mapError .refused := by
  cases body with
  | obj members =>
      rw [documentsChecked, documents, handling_bind, mapError_bind, handling_hitsChecked,
        handling_refused fun _ => rfl]
      refine congrArg _ (funext fun hits => ?_)
      simp only [handling_mapM, mapError_mapM, handling_hitChecked]
  | _ => rfl

end Documents

/-- What a response is read as, if nothing goes wrong. -/
def Reading.readChecked : Reading → Json → Except AccessFault Value
  | .traceIds, body => (traceIdsChecked body).map Value.ofTexts
  | .sortedKeys, body => (sortedKeysChecked body).map Value.ofTexts
  | .spans, body => (documentsChecked "Span" Span.read body).map Value.ofSpans
  | .dependencyLinks, body =>
      (documentsChecked "DependencyLink" DependencyLink.read body).map Value.ofLinks

/-- **Nothing but refusals comes out of reading a response.**  Each failure below is caught where it
arises, and becomes the refusal that reading fails with. -/
theorem Reading.readChecked_eq (reading : Reading) (body : Json) :
    reading.readChecked body = (reading.read body).mapError .refused := by
  cases reading with
  | traceIds => rw [readChecked, read, traceIdsChecked_eq, mapError_map]
  | sortedKeys => rw [readChecked, read, sortedKeysChecked_eq, mapError_map]
  | spans => rw [readChecked, read, documentsChecked_eq, mapError_map, Response.spans]
  | dependencyLinks => rw [readChecked, read, documentsChecked_eq, mapError_map,
      Response.dependencyLinks]

end Response
end TraceArchive
