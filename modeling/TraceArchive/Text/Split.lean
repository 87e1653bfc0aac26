/-!
# Cutting a text at a mark

* `cut?_eq_some`: a cut loses nothing but one occurrence of the mark.
* `splitOn_of_cut?`, `splitOn_of_no_cut?`: the pieces of a text, one cut at a time.
-/

set_option autoImplicit false

namespace TraceArchive
namespace Text

/-- The texts before and after the first occurrence of the mark. -/
def cut? (mark : List Char) : List Char → Option (List Char × List Char)
  | [] => if mark.isEmpty then some ([], []) else none
  | c :: rest =>
      if mark.isPrefixOf (c :: rest) then some ([], (c :: rest).drop mark.length)
      else (cut? mark rest).map fun sides => (c :: sides.1, sides.2)

/-- A cut loses nothing but one occurrence of the mark. -/
theorem cut?_eq_some
    {mark text before after : List Char}
    (h : cut? mark text = some (before, after)) :
    text = before ++ mark ++ after := by
  induction text generalizing before with
  | nil =>
    cases mark <;> simp_all [cut?]
  | cons c rest ih =>
    rw [cut?] at h
    split at h
    · next hp =>
      obtain ⟨tail, htail⟩ := List.isPrefixOf_iff_prefix.1 hp
      simp only [Option.some.injEq, Prod.mk.injEq] at h
      obtain ⟨rfl, rfl⟩ := h
      simp [← htail]
    · obtain ⟨⟨b, a⟩, hs, he⟩ := Option.map_eq_some_iff.1 h
      simp only [Prod.mk.injEq] at he
      obtain ⟨rfl, rfl⟩ := he
      simp [ih hs]

theorem cut?_length_lt
    {mark text before after : List Char}
    (hm : mark ≠ [])
    (h : cut? mark text = some (before, after)) :
    after.length < text.length := by
  have := congrArg List.length (cut?_eq_some h)
  have := List.length_pos_iff.2 hm
  simp at *
  omega

/-- The pieces between the occurrences of a non-empty mark, found from left to right. -/
def splitOn
    (mark : List Char)
    (hm : mark ≠ [])
    (text : List Char) :
    List (List Char) :=
  match _h : cut? mark text with
  | none => [text]
  | some (before, after) => before :: splitOn mark hm after
termination_by text.length
decreasing_by exact cut?_length_lt hm _h

theorem splitOn_of_no_cut?
    {mark text : List Char}
    (hm : mark ≠ [])
    (h : cut? mark text = none) :
    splitOn mark hm text = [text] := by
  rw [splitOn]
  split <;> simp_all

theorem splitOn_of_cut?
    {mark text before after : List Char}
    (hm : mark ≠ [])
    (h : cut? mark text = some (before, after)) :
    splitOn mark hm text = before :: splitOn mark hm after := by
  rw [splitOn]
  split <;> simp_all

end Text
end TraceArchive
