import Mathlib.Data.List.Forall2
import TraceArchive.Proofs.Entries
import TraceArchive.Search.Request

/-!
# Reading aggregations back from the body of a request

An aggregation is written as an object: its settings under its kind, and those within it under
`aggs`, each named after its field.  Two aggregations of one field at one level share a name, so the
later one takes the place of the earlier; and an aggregation of the kind `aggs` that holds others
shares the name with them, and loses its settings.  Nothing else is lost.

* `ofJson?`, `ofMembers?`: reading aggregations back.
* `mem_membersOf_iff`: which aggregations of a level are written.
* `AreApart`: aggregations that share no names.
* `ofMembers?_membersOf_iff_areApart`: just those are all read back.
* `SearchRequest.readAggregations?_build_iff`: the same for the body of any request.
-/

set_option autoImplicit false

namespace TraceArchive

namespace Aggregation

/-- What is done with the values of the field. -/
def kind : Aggregation → String
  | .mk kind _ _ _ _ => kind

/-- The aggregations within an aggregation. -/
def inner : Aggregation → List Aggregation
  | .mk _ _ _ _ inner => inner

/-! ### Reading -/

/-- The order among the settings of an aggregation, if it has any. -/
def readOrder? : Option Json → Option (Option (String × Json))
  | none => some none
  | some (.obj [(name, direction)]) => some (some (name, direction))
  | some _ => none

/-- An aggregation from its kind, its settings and the aggregations within it. -/
def ofSettings? (kind : String) (settings : Json) (inner : List Aggregation) :
    Option Aggregation := do
  let field ← (settings.member? "field").bind Json.text?
  let order ← readOrder? (settings.member? "order")
  return .mk kind field (settings.member? "size") order inner

mutual

/-- The aggregation that an object stands for: its first member is the kind with the settings, the
second one, if any, holds the aggregations within it. -/
def ofJson? : Json → Option Aggregation
  | .obj [(kind, settings)] => ofSettings? kind settings []
  | .obj [(kind, settings), ("aggs", .obj members)] =>
      (ofMembers? members).bind (ofSettings? kind settings)
  | _ => none

/-- The aggregations that members stand for, each named after its field. -/
def ofMembers? : List (String × Json) → Option (List Aggregation)
  | [] => some []
  | (name, value) :: rest => do
      let first ← ofJson? value
      let others ← ofMembers? rest
      if first.field = name then some (first :: others) else none

end

/-- Members are read one by one. -/
theorem ofMembers?_eq_some_iff {members : List (String × Json)} {list : List Aggregation} :
    ofMembers? members = some list ↔
      List.Forall₂ (fun member a => ofJson? member.2 = some a ∧ a.field = member.1) members list := by
  induction members generalizing list with
  | nil =>
      cases list with
      | nil => simp [ofMembers?]
      | cons a rest => simp [ofMembers?]
  | cons member rest ih =>
      obtain ⟨name, value⟩ := member
      rw [ofMembers?]
      simp only [bind, Option.bind_eq_some_iff, Option.ite_none_right_eq_some, Option.some.injEq, ih]
      constructor
      · rintro ⟨first, hfirst, others, hothers, hname, rfl⟩
        exact .cons ⟨hfirst, hname⟩ hothers
      · rintro (_ | ⟨⟨hfirst, hname⟩, hothers⟩)
        exact ⟨_, hfirst, _, hothers, hname, rfl⟩

/-- The settings are read as they were written. -/
theorem ofSettings?_settings
    (kind field : String) (size : Option Json) (order : Option (String × Json))
    (inner : List Aggregation) :
    ofSettings? kind (settings field size order) inner = some (.mk kind field size order inner) := by
  cases size <;> cases order <;> rfl

theorem inner_of_ofSettings?
    {kind : String} {settings : Json} {inner : List Aggregation} {a : Aggregation}
    (h : ofSettings? kind settings inner = some a) :
    a.inner = inner := by
  simp only [ofSettings?, bind, Option.bind_eq_some_iff, pure, Option.some.injEq] at h
  obtain ⟨_, -, _, -, rfl⟩ := h
  rfl

/-! ### Writing -/

/-- The member that an aggregation is written as. -/
def entry (a : Aggregation) : String × Json :=
  (a.field, a.toJson)

theorem membersOf_eq (list : List Aggregation) :
    membersOf list [] = Entries.ofList (list.map entry) := by
  have hfold : ∀ members, membersOf list members =
      (list.map entry).foldl (fun members pair => Entries.put pair.1 pair.2 members) members := by
    induction list with
    | nil => exact fun _ => by rw [membersOf]; rfl
    | cons a rest ih => exact fun members => by rw [membersOf, ih]; rfl
  exact hfold []

/-- Of the aggregations of one field at one level, the last one is written. -/
theorem mem_membersOf_iff {list : List Aggregation} {member : String × Json} :
    member ∈ membersOf list [] ↔
      ∃ before a after, list = before ++ a :: after ∧ a.entry = member ∧
        ∀ later ∈ after, later.field ≠ a.field := by
  rw [membersOf_eq, Entries.mem_ofList_iff]
  constructor
  · rintro ⟨front, back, hsplit, hlater⟩
    obtain ⟨before, rest, rfl, rfl, hrest⟩ := List.map_eq_append_iff.mp hsplit
    obtain ⟨a, after, rfl, rfl, rfl⟩ := List.map_eq_cons_iff.mp hrest
    exact ⟨before, a, after, rfl, rfl, fun later hmem => hlater _ (List.mem_map_of_mem hmem)⟩
  · rintro ⟨before, a, after, rfl, rfl, hlater⟩
    refine ⟨before.map entry, after.map entry, by simp, fun pair hmem => ?_⟩
    obtain ⟨later, hlaterMem, rfl⟩ := List.mem_map.mp hmem
    exact hlater later hlaterMem

/-! ### Reading what was written -/

/-- Aggregations of one level are all read back just when their fields differ and each of them is. -/
theorem ofMembers?_membersOf_iff {list : List Aggregation} :
    ofMembers? (membersOf list []) = some list ↔
      (list.map field).Nodup ∧ ∀ a ∈ list, ofJson? a.toJson = some a := by
  have hkeys : Entries.keys (list.map entry) = list.map field := by
    rw [Entries.keys, List.map_map]
    rfl
  have heach : List.Forall₂ (fun member a => ofJson? member.2 = some a ∧ a.field = member.1)
      (list.map entry) list ↔ ∀ a ∈ list, ofJson? a.toJson = some a := by
    rw [List.forall₂_map_left_iff, List.forall₂_same]
    exact forall₂_congr fun a _ => and_iff_left rfl
  rw [ofMembers?_eq_some_iff, membersOf_eq]
  constructor
  · intro hread
    -- what is read has the names of the members, and those are never repeated
    have hnames : list.map field = Entries.keys (Entries.ofList (list.map entry)) := by
      rw [Entries.keys]
      exact (List.forall₂_eq_eq_eq ▸ List.forall₂_map_left_iff.mpr
        (List.forall₂_map_right_iff.mpr (hread.imp fun _ _ h => h.2.symm)) : _ = _).symm
    have hnodup : (list.map field).Nodup := hnames ▸ Entries.nodup_keys_ofList _
    rw [Entries.ofList_of_nodup (hkeys ▸ hnodup)] at hread
    exact ⟨hnodup, heach.mp hread⟩
  · rintro ⟨hnodup, hall⟩
    rw [Entries.ofList_of_nodup (hkeys ▸ hnodup)]
    exact heach.mpr hall

/-- An aggregation is read back just when those within it are, and do not take the place of its
settings. -/
theorem ofJson?_toJson_iff {a : Aggregation} :
    ofJson? a.toJson = some a ↔
      (a.kind = "aggs" → a.inner = []) ∧ ofMembers? (membersOf a.inner []) = some a.inner := by
  obtain ⟨kind, field, size, order, inner⟩ := a
  cases inner with
  | nil =>
      simp [toJson, ofJson?, ofSettings?_settings, Aggregation.inner, membersOf, ofMembers?]
  | cons first rest =>
      have hwritten : (mk kind field size order (first :: rest)).toJson = .obj (Entries.put "aggs"
          (.obj (membersOf (first :: rest) [])) [(kind, settings field size order)]) := by
        rw [toJson]
      by_cases hkind : kind = "aggs"
      · -- the settings are gone, and what stands in their place holds nothing within it
        subst hkind
        have halone : ofJson? (mk "aggs" field size order (first :: rest)).toJson =
            ofSettings? "aggs" (.obj (membersOf (first :: rest) [])) [] := by
          rw [hwritten]
          rfl
        refine iff_of_false (fun h => ?_) fun h => List.cons_ne_nil _ _ (h.1 rfl)
        rw [halone] at h
        have hinner := inner_of_ofSettings? h
        exact List.cons_ne_nil _ _ hinner
      · have hboth : ofJson? (mk kind field size order (first :: rest)).toJson =
            (ofMembers? (membersOf (first :: rest) [])).bind
              (ofSettings? kind (settings field size order)) := by
          rw [hwritten, Entries.put, if_neg (by simpa using hkind), Entries.put, ofJson?]
        rw [hboth, Option.bind_eq_some_iff]
        constructor
        · rintro ⟨list, hlist, hread⟩
          have hinner : first :: rest = list := inner_of_ofSettings? hread
          exact ⟨fun h => absurd h hkind, hinner ▸ hlist⟩
        · rintro ⟨-, hlist⟩
          exact ⟨_, hlist, ofSettings?_settings _ _ _ _ _⟩

/-! ### Names that are shared -/

/-- Aggregations of one level that share no names, with all that is within them: their fields
differ, and none of the kind `aggs` holds others. -/
inductive AreApart : List Aggregation → Prop where
  | intro {list : List Aggregation}
      (fields : (list.map field).Nodup)
      (kinds : ∀ a ∈ list, a.kind = "aggs" → a.inner = [])
      (within : ∀ a ∈ list, AreApart a.inner) :
      AreApart list

/-- What is within an aggregation of a level is smaller than the level. -/
theorem sizeOf_inner_lt {a : Aggregation} {list : List Aggregation} (h : a ∈ list) :
    sizeOf a.inner < sizeOf list := by
  have hmem := List.sizeOf_lt_of_mem h
  obtain ⟨kind, field, size, order, inner⟩ := a
  rw [Aggregation.mk.sizeOf_spec] at hmem
  simp only [Aggregation.inner]
  omega

/-- What passes from all levels below a level to that level holds at every level. -/
@[elab_as_elim]
theorem levels_induct {motive : List Aggregation → Prop}
    (level : ∀ list, (∀ a ∈ list, motive a.inner) → motive list)
    (list : List Aggregation) :
    motive list :=
  level list fun a hmem =>
    have := sizeOf_inner_lt hmem
    levels_induct level a.inner
termination_by sizeOf list

/-- Just the aggregations that share no names are all read back. -/
theorem ofMembers?_membersOf_iff_areApart (list : List Aggregation) :
    ofMembers? (membersOf list []) = some list ↔ AreApart list := by
  induction list using levels_induct with
  | level list hwithin =>
      rw [ofMembers?_membersOf_iff]
      simp only [ofJson?_toJson_iff]
      constructor
      · rintro ⟨hfields, heach⟩
        exact ⟨hfields, fun a hmem => (heach a hmem).1, fun a hmem =>
          (hwithin a hmem).mp (heach a hmem).2⟩
      · rintro ⟨hfields, hkinds, hinner⟩
        exact ⟨hfields, fun a hmem => ⟨hkinds a hmem, (hwithin a hmem).mpr (hinner a hmem)⟩⟩

end Aggregation

namespace SearchRequest

open Aggregation

/-- The aggregation that a step adds, if it adds one. -/
def Part.aggregation? : Part → Option Aggregation
  | .aggregation a => some a
  | _ => none

/-- The aggregations that steps add, in their order. -/
def added (parts : List Part) : List Aggregation :=
  parts.filterMap Part.aggregation?

theorem aggregations_build (indices : List String) (parts : List Part) :
    (build indices parts).aggregations = added parts := by
  have hfold : ∀ request : SearchRequest,
      (parts.foldl add request).aggregations = request.aggregations ++ added parts := by
    induction parts with
    | nil => exact fun _ => (List.append_nil _).symm
    | cons part rest ih =>
        intro request
        rw [List.foldl_cons, ih]
        cases part with
        | aggregation a => exact List.append_assoc _ _ _
        | filters clauses => rfl
        | term field value => rfl
        | terms field values => rfl
  exact hfold (ofIndices indices)

/-- The aggregations that the body of a request asks for. -/
def readAggregations? (body : Json) : Option (List Aggregation) :=
  match body.member? "aggs" with
  | none => some []
  | some (.obj members) => ofMembers? members
  | some _ => none

theorem readAggregations?_toJson (request : SearchRequest) (maxHits : Json) :
    readAggregations? (request.toJson maxHits) =
      ofMembers? (membersOf request.aggregations []) := by
  obtain ⟨indices, query, aggregations⟩ := request
  cases query <;> cases aggregations <;> rfl

/-- The aggregations that were added in building a request can be read back from its body just
when they share no names; of those that do share one the last is written, at any depth. -/
theorem readAggregations?_build_iff (indices : List String) (parts : List Part) (maxHits : Json) :
    (readAggregations? ((build indices parts).toJson maxHits) = some (added parts) ↔
      AreApart (added parts)) ∧
    ∀ (level : List Aggregation) (member : String × Json),
      member ∈ membersOf level [] ↔
        ∃ before a after, level = before ++ a :: after ∧ a.entry = member ∧
          ∀ later ∈ after, later.field ≠ a.field := by
  rw [readAggregations?_toJson, aggregations_build]
  exact ⟨ofMembers?_membersOf_iff_areApart _, fun _ _ => mem_membersOf_iff⟩

/-- Of two aggregations of one field, only the one that was added last can be read back. -/
theorem not_readBack_twoOfOneField :
    readAggregations? ((build ["i"]
      [.aggregation (.terms "name" 10), .aggregation (.least "name")]).toJson (.int 5)) ≠
        some [.terms "name" 10, .least "name"] := by
  intro h
  obtain ⟨hfields, -, -⟩ := (readAggregations?_build_iff ["i"]
    [.aggregation (.terms "name" 10), .aggregation (.least "name")] (.int 5)).1.mp h
  exact absurd hfields (by decide)

end SearchRequest
end TraceArchive
