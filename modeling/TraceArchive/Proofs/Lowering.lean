import TraceArchive.Text.Lower

/-!
# Lower-casing settles a text

A code point that no run of the table maps is its own lower-case form.  No run leads into another
one, so a lower-case form is made of such code points, and lower-casing a text twice changes
nothing more.

* `CaseRun.not_covers_of_avoids`: what keeps the forms of one run apart from another run.
* `caseRuns_avoid`: no run of the table leads into a run of the table.
* `settled_of_mem_lowerBetween`: a lower-case form is made of settled code points.
* `lower_lower`: lower-casing is idempotent.
* `lower_eq_empty_iff`: only the empty text has an empty lower-case form.
-/

set_option autoImplicit false

namespace TraceArchive
namespace Text

/-! ### Runs that do not lead into one another -/

/-- The forms that `run` gives lie apart from the code points that `other` maps: all below them,
all above them, or in the gaps of its stride. -/
def CaseRun.avoids (run other : CaseRun) : Bool :=
  decide (run.last + run.shift < other.first) || decide (other.last < run.first + run.shift) ||
    (run.stride % other.stride == 0 || run.first == run.last) &&
      (run.first + run.shift - other.first) % other.stride != 0

/-- The capital I with a dot, the one code point with a lower-case form of two. -/
def dottedCapital : CaseRun :=
  ⟨0x130, 0x130, 1, 0⟩

theorem CaseRun.not_covers_of_avoids
    {run other : CaseRun}
    {code form : Nat}
    (avoids : run.avoids other = true)
    (covers : run.covers code = true)
    (hform : (form : Int) = code + run.shift) :
    other.covers form = false := by
  simp only [CaseRun.covers, Bool.and_eq_true, decide_eq_true_eq, beq_iff_eq] at covers
  obtain ⟨⟨above, below⟩, onStride⟩ := covers
  refine Bool.eq_false_iff.2 fun covered => ?_
  simp only [CaseRun.covers, Bool.and_eq_true, decide_eq_true_eq, beq_iff_eq] at covered
  obtain ⟨⟨formAbove, formBelow⟩, formOnStride⟩ := covered
  simp only [CaseRun.avoids, Bool.or_eq_true, Bool.and_eq_true, decide_eq_true_eq, beq_iff_eq,
    bne_iff_ne, ne_eq] at avoids
  rcases avoids with (before | after) | ⟨aligned, gap⟩
  · omega
  · omega
  · -- both distances are multiples of the other stride, so the distance of the two starts is
    have hform' : (other.stride : Int) ∣ form - other.first := by
      obtain ⟨k, hk⟩ := Nat.dvd_of_mod_eq_zero formOnStride
      exact ⟨k, by omega⟩
    have hcode : (other.stride : Int) ∣ code - run.first := by
      rcases aligned with divides | single
      · obtain ⟨k, hk⟩ :=
          Nat.dvd_trans (Nat.dvd_of_mod_eq_zero divides) (Nat.dvd_of_mod_eq_zero onStride)
        exact ⟨k, by omega⟩
      · exact ⟨0, by omega⟩
    refine gap (Int.emod_eq_zero_of_dvd ?_)
    have hsum : (run.first : Int) + run.shift - other.first =
        (form - other.first) - (code - run.first) := by omega
    rw [hsum]
    exact Int.dvd_sub hform' hcode

/-- No run of the table leads below zero, into a run of the table, or to the dotted capital. -/
theorem caseRuns_avoid :
    ∀ run ∈ caseRuns, 0 ≤ run.first + run.shift ∧
      ∀ other ∈ dottedCapital :: caseRuns, run.avoids other = true := by
  have checked : caseRuns.all (fun run => decide (0 ≤ run.first + run.shift) &&
      (dottedCapital :: caseRuns).all fun other => run.avoids other) = true := by
    decide +kernel
  simpa only [List.all_eq_true, Bool.and_eq_true, decide_eq_true_eq] using checked

/-! ### Settled code points -/

/-- Neither a run of the table nor the dotted capital maps this code point. -/
def Settled (c : Char) : Prop :=
  ∀ run ∈ dottedCapital :: caseRuns, run.covers c.toNat = false

instance (c : Char) : Decidable (Settled c) :=
  inferInstanceAs (Decidable (∀ run ∈ dottedCapital :: caseRuns, run.covers c.toNat = false))

theorem Settled.ne_dottedCapital
    {c : Char}
    (settled : Settled c) :
    c ≠ 'İ' := by
  rintro rfl
  exact absurd (settled dottedCapital List.mem_cons_self) (by decide)

theorem Settled.ne_sigma
    {c : Char}
    (settled : Settled c) :
    c ≠ 'Σ' := by
  rintro rfl
  exact absurd settled (by decide +kernel)

theorem Settled.lowerChar
    {c : Char}
    (settled : Settled c) :
    lowerChar c = [c] := by
  have unmapped : caseRuns.find? (·.covers c.toNat) = none := by
    simpa using fun run mem => settled run (List.mem_cons_of_mem _ mem)
  simp [Text.lowerChar, settled.ne_dottedCapital, unmapped]

/-- A text of settled code points is its own lower-case form. -/
theorem lowerFrom_of_settled
    {chars : List Char}
    (settled : ∀ c ∈ chars, Settled c)
    (before : List Char) :
    lowerFrom before chars = chars := by
  induction chars generalizing before with
  | nil => rfl
  | cons c rest ih =>
    have head := settled c List.mem_cons_self
    rw [lowerFrom, lowerBetween_of_ne head.ne_sigma, head.lowerChar,
      ih fun d mem => settled d (List.mem_cons_of_mem _ mem)]
    rfl

/-! ### Lower-case forms -/

theorem settled_ofNat
    {form : Nat}
    (settled : ∀ run ∈ dottedCapital :: caseRuns, run.covers form = false) :
    Settled (Char.ofNat form) := by
  by_cases valid : form.isValidChar
  · have code : (Char.ofNat form).toNat = form := by
      rw [Char.ofNat, dif_pos valid]
      rfl
    rwa [Settled, code]
  · rw [Char.ofNat, dif_neg valid]
    decide +kernel

/-- A lower-case form is made of settled code points. -/
theorem settled_of_mem_lowerChar
    {c form : Char}
    (mem : form ∈ lowerChar c) :
    Settled form := by
  unfold lowerChar at mem
  split at mem
  · have cases : form = 'i' ∨ form = '\u0307' := by simpa using mem
    rcases cases with rfl | rfl <;> decide +kernel
  · rename_i undotted
    split at mem
    · rename_i run found
      obtain rfl := List.mem_singleton.1 mem
      have covers := List.find?_some found
      obtain ⟨nonneg, avoid⟩ := caseRuns_avoid run (List.mem_of_find?_eq_some found)
      have above : run.first ≤ c.toNat := by
        simp only [CaseRun.covers, Bool.and_eq_true, decide_eq_true_eq] at covers
        exact covers.1.1
      refine settled_ofNat fun other memOther => ?_
      exact CaseRun.not_covers_of_avoids (avoid other memOther) covers
        (Int.toNat_of_nonneg (by omega))
    · rename_i unmapped
      obtain rfl := List.mem_singleton.1 mem
      rintro run (_ | ⟨_, memRun⟩)
      · refine Bool.eq_false_iff.2 fun covered => undotted (Char.toNat_inj.1 ?_)
        rw [CaseRun.covers, dottedCapital, Bool.and_eq_true, Bool.and_eq_true] at covered
        exact Nat.le_antisymm (of_decide_eq_true covered.1.2) (of_decide_eq_true covered.1.1)
      · simpa using List.find?_eq_none.1 unmapped run memRun

theorem settled_of_mem_lowerBetween
    {before after : List Char}
    {c form : Char}
    (mem : form ∈ lowerBetween before c after) :
    Settled form := by
  unfold lowerBetween at mem
  split at mem
  · obtain rfl := List.mem_singleton.1 mem
    split <;> decide +kernel
  · exact settled_of_mem_lowerChar mem

theorem settled_of_mem_lowerFrom
    {chars : List Char}
    {before : List Char}
    {form : Char}
    (mem : form ∈ lowerFrom before chars) :
    Settled form := by
  induction chars generalizing before with
  | nil => cases mem
  | cons c rest ih =>
    rcases List.mem_append.1 mem with here | later
    · exact settled_of_mem_lowerBetween here
    · exact ih later

/-- **Lower-casing is idempotent.** -/
theorem lower_lower (text : String) :
    lower (lower text) = lower text := by
  simp only [lower, String.toList_ofList,
    lowerFrom_of_settled fun _ mem => settled_of_mem_lowerFrom mem]

theorem lowerBetween_ne_nil (before after : List Char) (c : Char) :
    lowerBetween before c after ≠ [] := by
  unfold lowerBetween
  split
  · exact List.cons_ne_nil _ _
  · unfold lowerChar
    repeat' split
    all_goals exact List.cons_ne_nil _ _

/-- Lower-casing loses no text as a whole. -/
theorem lower_eq_empty_iff {text : String} :
    lower text = "" ↔ text = "" := by
  refine ⟨fun h => ?_, fun h => h ▸ lower_empty⟩
  have hchars : lowerFrom [] text.toList = [] := by
    rw [← String.toList_ofList (l := lowerFrom [] text.toList)]
    exact String.toList_eq_nil_iff.mpr h
  cases htext : text.toList with
  | nil => exact String.toList_eq_nil_iff.mp htext
  | cons c rest =>
    rw [htext, lowerFrom, List.append_eq_nil_iff] at hchars
    exact absurd hchars.1 (lowerBetween_ne_nil [] rest c)

end Text
end TraceArchive
