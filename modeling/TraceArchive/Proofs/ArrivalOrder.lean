import Mathlib.Data.List.Perm.Basic
import TraceArchive.Proofs.Grouping
import TraceArchive.Proofs.Matching

/-!
# Whether it matters in which order spans arrive

What criteria decide about the spans of a trace does not depend on their order, as long as no two
roots compete for the timestamp of the trace.  Whether a trace is held to the criteria at all does:
its first span tells, and when the high halves of trace IDs are ignored the spans of one trace may
differ in them.

* `Criteria.matchesTrace_eq_of_perm`: what criteria decide does not depend on the order of spans.
* `Trace.group_of_common_key`: spans of one key are one trace.
* `Trace.kept_iff_kept_of_perm`: when permuted spans make a trace that is kept just as well.
-/

set_option autoImplicit false

namespace TraceArchive

/-! ### Matching -/

/-- At most one root among the spans has a timestamp. -/
def AtMostOneRoot (spans : List Span) : Prop :=
  spans.countP (fun span => decide span.IsStartedRoot) ≤ 1

instance (spans : List Span) : Decidable (AtMostOneRoot spans) :=
  inferInstanceAs (Decidable (_ ≤ _))

/-- Without a second root the timestamp of a trace does not depend on the order of its spans. -/
theorem IsTraceTimestamp.of_perm
    {spans spans' : List Span} {t : Int}
    (h : IsTraceTimestamp spans t)
    (hperm : spans.Perm spans')
    (hroots : AtMostOneRoot spans) :
    IsTraceTimestamp spans' t := by
  cases h with
  | root before span after hsplit hfirst hisRoot hstarts =>
      have hroot : span.IsStartedRoot := ⟨hisRoot, by simp [hstarts]⟩
      have hmem : span ∈ spans' := hperm.mem_iff.mp (hsplit ▸ by simp)
      obtain ⟨before', after', hsplit'⟩ := List.append_of_mem hmem
      refine .root before' span after' hsplit' (fun earlier hearlier hother => ?_) hisRoot hstarts
      -- an earlier root would be a second one
      have hcount := hperm.countP_eq fun span => decide span.IsStartedRoot
      have hpos : 0 < before'.countP fun span => decide span.IsStartedRoot :=
        List.countP_pos_iff.mpr ⟨earlier, hearlier, decide_eq_true hother⟩
      rw [hsplit', List.countP_append, List.countP_cons, if_pos (decide_eq_true hroot)] at hcount
      unfold AtMostOneRoot at hroots
      omega
  | earliest hnoRoot hstarts hleast =>
      obtain ⟨span, hmem, hstarts⟩ := hstarts
      exact .earliest (fun other hother => hnoRoot other (hperm.mem_iff.mpr hother))
        ⟨span, hperm.mem_iff.mp hmem, hstarts⟩
        fun other hother => hleast other (hperm.mem_iff.mpr hother)

theorem AtMostOneRoot.of_perm
    {spans spans' : List Span}
    (h : AtMostOneRoot spans)
    (hperm : spans.Perm spans') :
    AtMostOneRoot spans' := by
  rw [AtMostOneRoot, ← hperm.countP_eq]
  exact h

namespace Criteria

variable {criteria : Criteria} {spans spans' : List Span}

theorem Meets.of_perm
    (h : criteria.Meets spans)
    (hperm : spans.Perm spans')
    (hroots : AtMostOneRoot spans) :
    criteria.Meets spans' := by
  have hsame : ∀ {p : Span → Prop}, (∃ span ∈ spans, p span) → ∃ span ∈ spans', p span :=
    fun ⟨span, hmem, hspan⟩ => ⟨span, hperm.mem_iff.mp hmem, hspan⟩
  obtain ⟨t, htimestamp, hbounds⟩ := h.window
  exact ⟨⟨t, htimestamp.of_perm hperm hroots, hbounds⟩, hsame h.service,
    fun name hname => hsame (h.spanName name hname),
    fun key hkey => hsame (h.presence key hkey),
    fun key value hkey hvalue => hsame (h.tagValue key value hkey hvalue),
    fun least hleast => hsame (h.duration least hleast)⟩

/-- What valid criteria decide does not depend on the order of the spans. -/
theorem matchesTrace_eq_of_perm
    (valid : criteria.IsValid)
    (hperm : spans.Perm spans')
    (hroots : AtMostOneRoot spans) :
    criteria.matchesTrace spans = criteria.matchesTrace spans' := by
  rw [Bool.eq_iff_iff, matchesTrace_iff_meets valid, matchesTrace_iff_meets valid]
  exact ⟨fun h => h.of_perm hperm hroots, fun h => h.of_perm hperm.symm (hroots.of_perm hperm)⟩

end Criteria

/-! ### Keeping -/

namespace Trace

variable {criteria : Criteria} {strict : Bool}

/-- Spans of one key are one trace. -/
theorem group_of_common_key
    {first : Span} {rest : List Span}
    (hkey : ∀ span ∈ rest, span.traceId.key strict = first.traceId.key strict) :
    group strict (first :: rest) = [first :: rest] := by
  have hothers : (rest.map fun span => span.traceId.key strict).filter
      (fun key => !key == first.traceId.key strict) = [] := by
    simpa [List.filter_eq_nil_iff] using hkey
  have hkeys : keys strict (first :: rest) = [first.traceId.key strict] := by
    rw [keys, List.map_cons, List.eraseDups_cons, hothers]
    rfl
  have hall : ofKey strict (first :: rest) (first.traceId.key strict) = first :: rest := by
    rw [ofKey, List.filter_cons_of_pos (by simp)]
    exact congrArg _ (List.filter_eq_self.mpr fun span hspan => decide_eq_true (hkey span hspan))
  rw [group_eq, hkeys, List.map_singleton, hall]

/-- What is left of a single trace. -/
theorem verify_singleton (criteria : Criteria) (first : Span) (rest : List Span) :
    verify criteria [first :: rest] =
      .ok (if keeps criteria (first :: rest) then [first :: rest] else []) := by
  rw [verify_of_ne_nil criteria (by simp)]
  split
  · rename_i hkept
    rw [List.filter_cons_of_pos hkept, List.filter_nil]
  · rename_i hdropped
    rw [List.filter_cons_of_neg hdropped, List.filter_nil]

/-- **When permuted spans make a trace that is kept just as well.**  When the high halves of trace
IDs are ignored, spans with one low half are one trace in whatever order they arrive, and it is kept
in both of two orders or in neither, unless the criteria are not met and only one of the orders
starts with a span that has no high half. -/
theorem kept_iff_kept_of_perm
    {low : Int} {first first' : Span} {rest rest' : List Span}
    (valid : criteria.IsValid)
    (hlow : ∀ span ∈ first :: rest, span.traceId.low = low)
    (hroots : AtMostOneRoot (first :: rest))
    (hperm : (first :: rest).Perm (first' :: rest')) :
    group false (first :: rest) = [first :: rest] ∧
      group false (first' :: rest') = [first' :: rest'] ∧
      ∃ kept kept' : Bool,
        verify criteria (group false (first :: rest)) =
          .ok (if kept then [first :: rest] else []) ∧
        verify criteria (group false (first' :: rest')) =
          .ok (if kept' then [first' :: rest'] else []) ∧
        (kept = kept' ↔
          (first.traceId.high = 0 ↔ first'.traceId.high = 0) ∨
            criteria.matchesTrace (first :: rest) = true) := by
  have hone : ∀ {first rest}, (∀ span ∈ first :: rest, span.traceId.low = low) →
      group false (first :: rest) = [first :: rest] := by
    intro first rest hall
    refine group_of_common_key fun span hspan => ?_
    rw [TraceId.key_lenient, TraceId.key_lenient, hall span (List.mem_cons_of_mem first hspan),
      hall first List.mem_cons_self]
  have hgroup := hone hlow
  have hgroup' := hone fun span hspan => hlow span (hperm.mem_iff.mpr hspan)
  have hmatches := Criteria.matchesTrace_eq_of_perm valid hperm hroots
  refine ⟨hgroup, hgroup', keeps criteria (first :: rest), keeps criteria (first' :: rest'),
    hgroup ▸ verify_singleton criteria first rest,
    hgroup' ▸ verify_singleton criteria first' rest', ?_⟩
  simp only [keeps, ← hmatches]
  cases criteria.matchesTrace (first :: rest) <;> simp

/-- Criteria for the spans of one service. -/
def ofService (service : String) : Json :=
  .obj [("service_name", .str service), ("end_ts", .int 1700000000000), ("lookback", .int 3600000),
    ("limit", .int 10)]

/-- The root of a trace, recorded with both halves of its ID. -/
def wideRoot : Span :=
  ⟨⟨0x463ac35c9f6413ad, 0x48485a3953bb6124⟩, "a", none, none, none, some 1699999999000000, none,
    some ⟨some "frontend", none, none, none⟩, none, [], [], none, none⟩

/-- A span of the same trace, recorded with the low half alone. -/
def narrowChild : Span :=
  ⟨⟨0, 0x48485a3953bb6124⟩, "b", some "a", none, none, some 1699999999000001, none,
    some ⟨some "frontend", none, none, none⟩, none, [], [], none, none⟩

/-- When the criteria are met, both orders are kept. -/
theorem kept_wideRoot_narrowChild :
    ∃ criteria, Criteria.read (ofService "frontend") = .ok criteria ∧
      verify criteria (group false [wideRoot, narrowChild]) = .ok [[wideRoot, narrowChild]] ∧
      verify criteria (group false [narrowChild, wideRoot]) = .ok [[narrowChild, wideRoot]] := by
  have hread : Criteria.read (ofService "frontend") = .ok _ := rfl
  have valid := Criteria.isValid_of_read (by rintro members ⟨⟩) hread
  obtain ⟨-, -, kept, kept', hwide, hnarrow, hsame⟩ :=
    @kept_iff_kept_of_perm _ 0x48485a3953bb6124 wideRoot narrowChild [narrowChild] [wideRoot] valid
      (by decide) (by decide) (List.Perm.swap narrowChild wideRoot [])
  obtain rfl := hsame.mpr (Or.inr (by decide))
  cases kept with
  | true => exact ⟨_, hread, hwide, hnarrow⟩
  | false => cases hnarrow

/-- The order decides about a trace that does not meet the criteria and whose spans differ in their
high halves. -/
theorem kept_narrowChild_first :
    ∃ criteria, Criteria.read (ofService "backend") = .ok criteria ∧
      (∀ span ∈ [wideRoot, narrowChild], span.traceId.low = 0x48485a3953bb6124) ∧
      AtMostOneRoot [wideRoot, narrowChild] ∧
      [wideRoot, narrowChild].Perm [narrowChild, wideRoot] ∧
      verify criteria (group false [wideRoot, narrowChild]) = .ok [] ∧
      verify criteria (group false [narrowChild, wideRoot]) = .ok [[narrowChild, wideRoot]] :=
  ⟨_, rfl, by decide, by decide, List.Perm.swap narrowChild wideRoot [], rfl, rfl⟩

end Trace
end TraceArchive
