import TraceArchive.Proofs.Matching
import TraceArchive.Proofs.NormalForm

/-!
# Searching for a span by its own names

The service name of a span and the names in criteria are read in lower case, the name of a span is
read as it is spelled.  So a span is always found under the service that its document names, and
under its own name just when that name is spelled without capital letters, or is the one that asks
for nothing.

* `spelledService`, `spelledName`: the names as a document spells them.
* `Span.spelled_of_read`: what they are read as.
* `Criteria.matchesTrace_ownNames_iff`: when a span is found under its own names.
-/

set_option autoImplicit false

namespace TraceArchive

namespace Document

/-- The value of the first of the names that a document has a member for. -/
def valueOf (names : List String) : Json → Option Json
  | .obj members => (find? names members).map Prod.snd
  | _ => none

/-- The local service as a document spells its name. -/
def spelledService (document : Json) : Option String :=
  ((valueOf ["localEndpoint", "local_endpoint"] document).bind
    (valueOf ["serviceName", "service_name"])).bind Json.text?

/-- The name of a span as its document spells it. -/
def spelledName (document : Json) : Option String :=
  (valueOf ["name"] document).bind Json.text?

theorem text_eq_ok {value : Json} {s : String} (h : text value = .ok s) : value = .str s := by
  cases value <;> simp_all [text, Checked.fail]

end Document

open Document

/-! ### The names of a document -/

/-- The service name of an endpoint is the one that its members spell, in lower case. -/
theorem Endpoint.serviceName_of_read
    {value : Json} {endpoint : Endpoint} {service : String}
    (h : Endpoint.read value = .ok endpoint)
    (hservice : endpoint.serviceName = some service) :
    ∃ raw, (valueOf ["serviceName", "service_name"] value).bind Json.text? = some raw ∧
      Text.lower raw = service := by
  cases value with
  | obj members =>
      simp only [Endpoint.read, record, Endpoint.ofMembers, Checked.seq_eq_ok_iff,
        Checked.map_eq_ok_iff] at h
      obtain ⟨_, _, ⟨_, _, ⟨_, _, ⟨name, hname, rfl⟩, -, rfl⟩, -, rfl⟩, -, rfl⟩ := h
      obtain rfl : name = some service := hservice
      obtain ⟨key, found, hfind, hread⟩ := optional_eq_ok_some hname
      obtain ⟨-, raw, rfl, hlower⟩ := loweredName_eq_ok_some_iff.mp hread
      exact ⟨raw, by rw [valueOf, hfind]; rfl, hlower⟩
  | _ => cases h

/-- A span with a local service and a name has a document that spells both, the service up to its
capital letters and the name as it is. -/
theorem Span.spelled_of_read
    {document : Json} {span : Span} {service name : String}
    (h : Span.read document = .ok span)
    (hservice : span.localService = some service)
    (hname : span.name = some name) :
    (∃ raw, spelledService document = some raw ∧ Text.lower raw = service) ∧
      spelledName document = some name := by
  obtain ⟨members, all, rfl, hall, isRead⟩ := Span.read_eq_ok h
  constructor
  · obtain ⟨endpoint, hendpoint, hservice⟩ := Option.bind_eq_some_iff.mp hservice
    obtain ⟨key, value, hfind, hread⟩ := optional_eq_ok_some (hendpoint ▸ isRead.localEndpoint)
    rw [find?_splitTraceId hall (by decide)] at hfind
    obtain ⟨raw, hraw, hlower⟩ := Endpoint.serviceName_of_read (nullable_eq_ok hread) hservice
    exact ⟨raw, by rw [spelledService, valueOf, hfind]; exact hraw, hlower⟩
  · obtain ⟨key, value, hfind, hread⟩ := optional_eq_ok_some (hname ▸ isRead.name)
    rw [find?_splitTraceId hall (by decide)] at hfind
    rw [spelledName, valueOf, hfind, text_eq_ok (nullable_eq_ok hread)]
    rfl

namespace Criteria

/-! ### Criteria that ask for names only -/

/-- A search for the spans of a service with a name, within a window. -/
def byNames (service name : String) (endTs lookback limit : Int) : Json :=
  .obj [
    ("service_name", .str service), ("span_name", .str name),
    ("end_ts", .int endTs), ("lookback", .int lookback), ("limit", .int limit)]

/-- The criteria of a search by names: both in lower case, an empty name and the span name `all` asking
for nothing. -/
def ofNames (service name : String) (endTs lookback limit : Int) : Criteria where
  serviceName := (some (Text.lower service)).filter (· ≠ "")
  spanName := ((some (Text.lower name)).filter (· ≠ "")).filter (· ≠ "all")
  annotationQuery := []
  minDuration := none
  maxDuration := none
  endTs := endTs
  lookback := lookback
  limit := limit

variable {endTs lookback limit : Int}

theorem askedName_blankServiceNames (name : String) :
    askedName blankServiceNames name = (some (Text.lower name)).filter (· ≠ "") := by
  rw [askedName]
  congr
  funext lowered
  simp [blankServiceNames]

theorem askedName_blankSpanNames (name : String) :
    askedName blankSpanNames name =
      ((some (Text.lower name)).filter (· ≠ "")).filter (· ≠ "all") := by
  rw [askedName, Option.filter_filter]
  congr
  funext lowered
  simp [blankSpanNames]

theorem read_byNames
    (service name : String)
    (hendTs : 0 < endTs)
    (hlookback : 0 < lookback)
    (hlimit : 0 < limit) :
    read (byNames service name endTs lookback limit) =
      .ok (ofNames service name endTs lookback limit) := by
  refine read_eq_ok_iff.mpr ⟨_, rfl, ?_⟩
  exact {
    serviceName := optional_of_find? rfl
      ((readName_str _ service).trans (congrArg _ (askedName_blankServiceNames service)))
    spanName := optional_of_find? rfl
      ((readName_str _ name).trans (congrArg _ (askedName_blankSpanNames name)))
    annotationQuery := rfl
    minDuration := rfl
    maxDuration := rfl
    endTs := required_of_find? rfl (integerAbove_int hendTs)
    lookback := required_of_find? rfl (integerAbove_int hlookback)
    limit := required_of_find? rfl (integerAbove_int hlimit)
    durations := nofun }

/-- A search by names asks a single span in its window for its service and its name. -/
theorem matchesTrace_ofNames_iff
    {span : Span} {t : Int} {service name : String}
    (hendTs : 0 < endTs)
    (hlookback : 0 < lookback)
    (hlimit : 0 < limit)
    (starts : span.timestamp = some t)
    (hne : t ≠ 0)
    (hwindow : (endTs - lookback) * 1000 ≤ t ∧ t ≤ endTs * 1000) :
    (ofNames service name endTs lookback limit).matchesTrace [span] = true ↔
      (Text.lower service ≠ "" → span.localService = some (Text.lower service)) ∧
      (Text.lower name ≠ "" → Text.lower name ≠ "all" → span.name = some (Text.lower name)) := by
  have valid := isValid_of_read (fun _ h => by cases h) (read_byNames service name hendTs hlookback hlimit)
  rw [matchesTrace_iff_meets valid, meets_singleton_iff starts hne]
  simp [OfService, ofNames, hwindow, Option.filter_eq_some_iff]

/-- **Which spans are found under their own names.**  A document that is read as a span with a local
service, a name and a timestamp spells both of them.  In every window that the timestamp lies in, a
search by just these two, as they are spelled, is read, and the span satisfies it exactly when its
name has no capital letters or is the one that asks for nothing. -/
theorem matchesTrace_ownNames_iff
    {document : Json} {span : Span} {t : Int}
    (hread : Span.read document = .ok span)
    (hservice : span.localService ≠ none)
    (hname : span.name ≠ none)
    (starts : span.timestamp = some t)
    (hne : t ≠ 0) :
    ∃ service name, spelledService document = some service ∧ spelledName document = some name ∧
      ∀ endTs lookback limit : Int, 0 < endTs → 0 < lookback → 0 < limit →
        (endTs - lookback) * 1000 ≤ t ∧ t ≤ endTs * 1000 →
        ∃ criteria, read (byNames service name endTs lookback limit) = .ok criteria ∧
          (criteria.matchesTrace [span] = true ↔
            Text.lower name = name ∨ Text.lower name = "all") := by
  obtain ⟨service, hservice⟩ := Option.ne_none_iff_exists'.mp hservice
  obtain ⟨name, hname⟩ := Option.ne_none_iff_exists'.mp hname
  obtain ⟨⟨raw, hraw, rfl⟩, hspelled⟩ := Span.spelled_of_read hread hservice hname
  refine ⟨raw, name, hraw, hspelled, fun endTs lookback limit hendTs hlookback hlimit hwindow =>
    ⟨_, read_byNames raw name hendTs hlookback hlimit, ?_⟩⟩
  rw [matchesTrace_ofNames_iff hendTs hlookback hlimit starts hne hwindow, hservice, hname]
  constructor
  · rintro ⟨-, hmatch⟩
    by_cases hempty : Text.lower name = ""
    · rw [hempty]
      exact Or.inl (Text.lower_eq_empty_iff.mp hempty).symm
    · by_cases hall : Text.lower name = "all"
      · exact Or.inr hall
      · exact Or.inl (Option.some.inj (hmatch hempty hall)).symm
  · rintro (hlower | hall)
    · exact ⟨fun _ => rfl, fun _ _ => congrArg some hlower.symm⟩
    · exact ⟨fun _ => rfl, fun _ hne => absurd hall hne⟩

/-- A document that spells its names with capital letters. -/
def capitalNames : Json :=
  .obj [
    ("traceId", .str "a1"), ("id", .str "1"), ("name", .str "GET"),
    ("localEndpoint", .single "serviceName" (.str "FrontEnd")),
    ("timestamp", .int 1699999999000000)]

/-- The span of the document is not found under its own names. -/
theorem not_matchesTrace_capitalNames :
    ∃ span criteria, Span.read capitalNames = .ok span ∧
      spelledService capitalNames = some "FrontEnd" ∧ spelledName capitalNames = some "GET" ∧
      read (byNames "FrontEnd" "GET" 1700000000000 3600000 10) = .ok criteria ∧
      criteria.matchesTrace [span] = false := by
  have hread : Span.read capitalNames = .ok _ := rfl
  obtain ⟨service, name, hservice, hname, hsearch⟩ :=
    matchesTrace_ownNames_iff hread (by decide +kernel) (by decide +kernel) rfl (by decide)
  obtain rfl : "FrontEnd" = service := Option.some.inj hservice
  obtain rfl : "GET" = name := Option.some.inj hname
  obtain ⟨criteria, hcriteria, hmatch⟩ := hsearch 1700000000000 3600000 10 (by decide) (by decide)
    (by decide) (by decide)
  refine ⟨_, criteria, hread, hservice, hname, hcriteria, Bool.eq_false_iff.mpr fun h => ?_⟩
  exact absurd (hmatch.mp h) (by decide +kernel)

end Criteria
end TraceArchive
