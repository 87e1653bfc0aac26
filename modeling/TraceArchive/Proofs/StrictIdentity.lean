import TraceArchive.Proofs.Assembly
import TraceArchive.Proofs.TraceId
import TraceArchive.Proofs.Validation

/-!
# Strict identity and the text of trace IDs

Strictly, spans are of one trace when their trace IDs have the same halves, whatever integers these
are.  The text of a trace ID shows the halves as numbers of 64 bits.  So spans with one text are of
one trace just when the same multiples of two to the power of 64 are cut off of their halves, and an
ID of which anything is cut off is never one that a listed text stands for.

* `TraceId.overflow`: what is cut off when a trace ID is written.
* `TraceId.eq_iff_hex`, `TraceId.exists_parse?_iff_hex`: trace IDs by their texts.
* `Trace.together_group_iff`, `Trace.isSome_rank_iff`: which spans are grouped, and which traces
  count as listed.
* `Trace.strict_iff_hex`: strict identity in terms of texts.
-/

set_option autoImplicit false

namespace TraceArchive

namespace TraceId

variable {id other : TraceId}

/-- The multiples of two to the power of 64 that are cut off of the halves when a trace ID is
written. -/
def overflow (id : TraceId) : TraceId :=
  ⟨id.high / 2 ^ 64, id.low / 2 ^ 64⟩

theorem ext_iff_halves : id = other ↔ id.high = other.high ∧ id.low = other.low := by
  cases id
  cases other
  exact TraceId.mk.injEq .. ▸ Iff.rfl

/-- Trace IDs have one text just when their halves are the same numbers of 64 bits. -/
theorem hex_inj :
    id.hex = other.hex ↔
      unsigned id.high = unsigned other.high ∧ unsigned id.low = unsigned other.low := by
  constructor
  · intro h
    have hread := parse?_hex id
    rw [h, parse?_hex other, Option.some.injEq, ext_iff_halves] at hread
    exact ⟨Int.ofNat.inj hread.1.symm, Int.ofNat.inj hread.2.symm⟩
  · rintro ⟨hhigh, hlow⟩
    rw [hex, hex, hexDigits, hexDigits, hhigh, hlow]

/-- A trace ID is determined by its text and by what is cut off of it. -/
theorem eq_iff_hex : id = other ↔ id.hex = other.hex ∧ id.overflow = other.overflow := by
  have hhalf : ∀ a b : Int, a = b ↔ unsigned a = unsigned b ∧ a / 2 ^ 64 = b / 2 ^ 64 := by
    intro a b
    rw [← Int.natCast_inj, natCast_unsigned, natCast_unsigned]
    omega
  rw [hex_inj, overflow, overflow, TraceId.mk.injEq, ext_iff_halves, hhalf id.high, hhalf id.low]
  exact and_and_and_comm

/-- Nothing is cut off of halves that are numbers of 64 bits. -/
theorem overflow_of_parse? {text : String} (h : parse? text = some id) : id.overflow = ⟨0, 0⟩ := by
  obtain ⟨htext, rfl⟩ := parse?_eq_some_iff.mp h
  obtain ⟨hhigh, hlow⟩ := ofDigits_bounds htext
  rw [overflow, TraceId.mk.injEq]
  omega

/-- A trace ID is one that texts stand for just when one of them is read as an ID of the same text,
and nothing is cut off of it. -/
theorem exists_parse?_iff_hex {texts : List String} :
    (∃ text ∈ texts, parse? text = some id) ↔
      (∃ text ∈ texts, ∃ read, parse? text = some read ∧ read.hex = id.hex) ∧
        id.overflow = ⟨0, 0⟩ := by
  constructor
  · rintro ⟨text, hmem, hread⟩
    exact ⟨⟨text, hmem, id, hread, rfl⟩, overflow_of_parse? hread⟩
  · rintro ⟨⟨text, hmem, read, hread, hhex⟩, hwhole⟩
    obtain rfl : read = id := eq_iff_hex.mpr ⟨hhex, (overflow_of_parse? hread).trans hwhole.symm⟩
    exact ⟨text, hmem, hread⟩

end TraceId

namespace Trace

/-- Two spans are in one of the traces. -/
def Together (traces : List Trace) (a b : Span) : Prop :=
  ∃ trace ∈ traces, a ∈ trace ∧ b ∈ trace

/-- Spans are grouped together just when they have the same key. -/
theorem together_group_iff
    {strict : Bool} {spans : List Span} {a b : Span}
    (ha : a ∈ spans)
    (hb : b ∈ spans) :
    Together (group strict spans) a b ↔ a.traceId.key strict = b.traceId.key strict := by
  have hofKey : ∀ {span : Span} {key : TraceId},
      span ∈ ofKey strict spans key ↔ span ∈ spans ∧ span.traceId.key strict = key := by
    simp [ofKey, List.mem_filter]
  rw [group_eq]
  constructor
  · rintro ⟨trace, hmem, hfirst, hsecond⟩
    obtain ⟨key, -, rfl⟩ := List.mem_map.mp hmem
    exact (hofKey.mp hfirst).2.trans (hofKey.mp hsecond).2.symm
  · intro hkey
    have hmem : a.traceId.key strict ∈ keys strict spans := mem_keys.mpr ⟨a, ha, rfl⟩
    exact ⟨_, List.mem_map_of_mem hmem, hofKey.mpr ⟨ha, rfl⟩, hofKey.mpr ⟨hb, hkey.symm⟩⟩

/-- A key has a rank just when it is that of a listed ID. -/
theorem isSome_rank_iff
    {strict : Bool} {listed : List TraceId} {key : TraceId} :
    (Entries.get? key (ranks strict 0 [] listed)).isSome ↔
      key ∈ listed.map (TraceId.key strict) := by
  rw [get?_ranks, Entries.get?_nil, Option.none_or, Option.isSome_map, List.isSome_idxOf?]

/-- **Strict identity in terms of texts.**  Spans are grouped together exactly when their trace IDs
have one text and the same is cut off of both.  A trace counts as listed, in that its ID has a rank,
exactly when a listed text is read as an ID of the same text as that of its first span and nothing is
cut off of the latter.  Nothing is cut off where a document has the text alone and no halves. -/
theorem strict_iff_hex
    {texts : List String} {listed : List TraceId}
    (hread : (texts.map Json.str).mapM readId = .ok listed)
    (spans : List Span) :
    (∀ a ∈ spans, ∀ b ∈ spans, Together (group true spans) a b ↔
      a.traceId.hex = b.traceId.hex ∧ a.traceId.overflow = b.traceId.overflow) ∧
    (∀ first : Span,
      (Entries.get? (first.traceId.key true) (ranks true 0 [] listed)).isSome ↔
        (∃ text ∈ texts, ∃ id, TraceId.parse? text = some id ∧ id.hex = first.traceId.hex) ∧
          first.traceId.overflow = ⟨0, 0⟩) ∧
    ∀ members span, Span.read (.obj members) = .ok span →
      Entries.get? "trace_id" members = none → Entries.get? "trace_id_high" members = none →
        span.traceId.overflow = ⟨0, 0⟩ := by
  refine ⟨fun a ha b hb => ?_, fun first => ?_, fun members span h hlow hhigh => ?_⟩
  · rw [together_group_iff ha hb, TraceId.key_strict, TraceId.key_strict, TraceId.eq_iff_hex]
  · have hkeys : listed.map (TraceId.key true) = listed := List.map_id listed
    rw [isSome_rank_iff, hkeys, TraceId.key_strict, mapM_readId_eq_ok hread, List.mem_filterMap,
      TraceId.exists_parse?_iff_hex]
  · obtain ⟨text, -, hparse⟩ := Span.traceId_of_read hlow hhigh h
    exact TraceId.overflow_of_parse? hparse

/-- A span of which nothing but the low half of its trace ID is known. -/
def spanOfLow (low : Int) : Span :=
  ⟨⟨0, low⟩, "1", none, none, none, none, none, none, none, [], [], none, none⟩

/-- A half of minus one has the same text as the greatest one of 64 bits, but their spans are of two
traces, and the one is not listed by that text. -/
theorem not_together_negativeHalf :
    (spanOfLow (-1)).traceId.hex = "ffffffffffffffff" ∧
    (spanOfLow (2 ^ 64 - 1)).traceId.hex = "ffffffffffffffff" ∧
    ¬ Together (group true [spanOfLow (-1), spanOfLow (2 ^ 64 - 1)])
      (spanOfLow (-1)) (spanOfLow (2 ^ 64 - 1)) ∧
    ∃ listed, [Json.str "ffffffffffffffff"].mapM readId = .ok listed ∧
      Entries.get? (spanOfLow (-1)).traceId (ranks true 0 [] listed) = none := by
  have hread : (["ffffffffffffffff"].map Json.str).mapM readId = .ok _ :=
    mapM_readId_of_isSome (by decide)
  obtain ⟨htogether, hlisted, -⟩ :=
    strict_iff_hex hread [spanOfLow (-1), spanOfLow (2 ^ 64 - 1)]
  refine ⟨by decide, by decide, fun h => ?_, _, hread, ?_⟩
  · exact absurd ((htogether _ (by decide) _ (by decide)).mp h).2 (by decide)
  · rw [← Option.not_isSome_iff_eq_none]
    exact fun h => absurd ((hlisted (spanOfLow (-1))).mp h).2 (by decide)

end Trace
end TraceArchive
