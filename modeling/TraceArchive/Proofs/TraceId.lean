import TraceArchive.Proofs.Numeral
import TraceArchive.TraceId

/-!
# Laws of the text of trace IDs

Writing a trace ID and reading it gives back its halves as numbers of 64 bits; reading a text and
writing it brings the text into the one form of sixteen or thirty-two digits.

* `parse?_eq_some_iff`: which texts are read, and as what.
* `parse?_hex`: a trace ID that was written is read back.
* `ofDigits_inj`: texts of one ID differ in their leading zeros only.
* `hexDigits_ofDigits`: the form that a text is brought into.
* `hex_parse?_canonical`: all of this together.
-/

set_option autoImplicit false

namespace TraceArchive
namespace TraceId

open Text

/-! ### Halves -/

theorem halfCount_eq : halfCount = 16 ^ 16 := by
  decide

theorem natCast_unsigned (half : Int) : (unsigned half : Int) = half % 2 ^ 64 := by
  simp only [unsigned, halfCount]
  omega

theorem unsigned_lt_pow (half : Int) : unsigned half < 16 ^ 16 :=
  halfCount_eq ▸ unsigned_lt half

/-- The number of digits that a trace ID is written with. -/
def width (id : TraceId) : Nat :=
  if id.high = 0 then 16 else 32

/-! ### Which texts are read -/

/-- A text that is read: one to thirty-two hexadecimal digits. -/
structure IsText (digits : List Char) : Prop where
  pos : 0 < digits.length
  le : digits.length ≤ 32
  isLowerHex : IsLowerHex digits

theorem isText_iff {digits : List Char} : IsText digits ↔ isHexText digits = true := by
  simp only [isHexText, Bool.and_eq_true, Bool.not_eq_true', List.isEmpty_eq_false_iff,
    decide_eq_true_eq, List.all_eq_true, ← List.length_pos_iff, and_assoc]
  exact ⟨fun h => ⟨h.pos, h.le, h.isLowerHex⟩, fun h => ⟨h.1, h.2.1, h.2.2⟩⟩

theorem isText_iff_mem {digits : List Char} :
    IsText digits ↔
      1 ≤ digits.length ∧ digits.length ≤ 32 ∧ ∀ c ∈ digits, c ∈ "0123456789abcdef".toList := by
  have hsigns : "0123456789abcdef".toList = (List.range 16).map Nat.digitChar := by decide
  have hdigit : ∀ c, isLowerHexDigit c = true ↔ c ∈ "0123456789abcdef".toList := by
    intro c
    rw [hsigns, isLowerHexDigit_iff]
    simp [eq_comm]
  constructor
  · exact fun h => ⟨h.pos, h.le, fun c hc => (hdigit c).mp (h.isLowerHex c hc)⟩
  · exact fun h => ⟨h.1, h.2.1, fun c hc => (hdigit c).mpr (h.2.2 c hc)⟩

theorem parse?_eq_some_iff {text : String} {id : TraceId} :
    parse? text = some id ↔ IsText text.toList ∧ ofDigits text.toList = id := by
  rw [parse?, isText_iff]
  split
  · rename_i h
    simp [h]
  · rename_i h
    simp [h]

/-! ### The halves of a text -/

theorem ofDigits_append
    (first : List Char)
    {last : List Char}
    (h : last.length = 16) :
    ofDigits (first ++ last) = ⟨digitsValue 16 first, digitsValue 16 last⟩ := by
  have hlength : (first ++ last).length - 16 = first.length := by
    rw [List.length_append, h, Nat.add_sub_cancel]
  rw [ofDigits, hlength]
  simp

theorem ofDigits_of_length_le
    {digits : List Char}
    (h : digits.length ≤ 16) :
    ofDigits digits = ⟨0, digitsValue 16 digits⟩ := by
  rw [ofDigits, Nat.sub_eq_zero_of_le h]
  simp

/-- A text has at most sixteen digits, or ends in sixteen of them. -/
theorem length_le_or_exists_append (digits : List Char) :
    digits.length ≤ 16 ∨ ∃ first last, digits = first ++ last ∧ last.length = 16 := by
  by_cases hle : digits.length ≤ 16
  · exact Or.inl hle
  · refine Or.inr ⟨digits.take (digits.length - 16), digits.drop (digits.length - 16), ?_, ?_⟩
    · exact (List.take_append_drop _ _).symm
    · rw [List.length_drop]
      omega

/-- The halves of a text are what the number that it stands for is made of. -/
theorem ofDigits_eq_div_mod
    {digits : List Char}
    (h : IsLowerHex digits) :
    ofDigits digits =
      ⟨(digitsValue 16 digits / 16 ^ 16 : Nat), (digitsValue 16 digits % 16 ^ 16 : Nat)⟩ := by
  rcases length_le_or_exists_append digits with hle | ⟨first, last, rfl, hlast⟩
  · have hlt : digitsValue 16 digits < 16 ^ 16 :=
      Nat.lt_of_lt_of_le (digitsValue_lt h) (Nat.pow_le_pow_right (by decide) hle)
    rw [ofDigits_of_length_le hle, Nat.div_eq_of_lt hlt, Nat.mod_eq_of_lt hlt]
    rfl
  · have hlt : digitsValue 16 last < 16 ^ 16 :=
      hlast ▸ digitsValue_lt (List.forall_mem_append.mp h).2
    rw [ofDigits_append first hlast, digitsValue_append, hlast, Nat.mul_add_div (by decide),
      Nat.mul_add_mod, Nat.div_eq_of_lt hlt, Nat.mod_eq_of_lt hlt, Nat.add_zero]

/-- What a text stands for, made of its halves again. -/
theorem digitsValue_eq_of_ofDigits
    {digits : List Char}
    (h : IsLowerHex digits) :
    (digitsValue 16 digits : Int) =
      16 ^ 16 * (ofDigits digits).high + (ofDigits digits).low := by
  rw [ofDigits_eq_div_mod h]
  dsimp only
  exact_mod_cast (Nat.div_add_mod _ _).symm

/-- Both halves of a text are numbers of 64 bits. -/
theorem ofDigits_bounds
    {digits : List Char}
    (h : IsText digits) :
    (0 ≤ (ofDigits digits).high ∧ (ofDigits digits).high < 2 ^ 64) ∧
      0 ≤ (ofDigits digits).low ∧ (ofDigits digits).low < 2 ^ 64 := by
  have hvalue : digitsValue 16 digits < 16 ^ 32 :=
    Nat.lt_of_lt_of_le (digitsValue_lt h.isLowerHex) (Nat.pow_le_pow_right (by decide) h.le)
  rw [ofDigits_eq_div_mod h.isLowerHex]
  dsimp only
  omega

/-- Two texts are read as one ID just when they differ in their leading zeros only. -/
theorem ofDigits_inj
    {digits others : List Char}
    (hdigits : IsLowerHex digits)
    (hothers : IsLowerHex others) :
    ofDigits digits = ofDigits others ↔ significant digits = significant others := by
  constructor
  · intro h
    have hvalue : digitsValue 16 digits = digitsValue 16 others := by
      have hcast := digitsValue_eq_of_ofDigits hdigits
      rw [h, ← digitsValue_eq_of_ofDigits hothers] at hcast
      exact_mod_cast hcast
    -- As long as the longer of the two, both are the same digits.
    have hpadded : padZeros (max digits.length others.length) digits =
        padZeros (max digits.length others.length) others :=
      digitsValue_inj (isLowerHex_padZeros hdigits _) (isLowerHex_padZeros hothers _)
        (by rw [length_padZeros, length_padZeros]; omega) (by simpa using hvalue)
    rw [← significant_padZeros, hpadded, significant_padZeros]
  · intro h
    rw [ofDigits_eq_div_mod hdigits, ofDigits_eq_div_mod hothers, ← digitsValue_significant, h,
      digitsValue_significant]

/-! ### Writing and reading -/

theorem hexDigits_eq (id : TraceId) :
    id.hexDigits =
      (if unsigned id.high = 0 then [] else lowerHex 16 (unsigned id.high)) ++
        lowerHex 16 (unsigned id.low) := by
  rw [hexDigits]
  split <;> rfl

theorem length_lowerHex_unsigned (half : Int) : (lowerHex 16 (unsigned half)).length = 16 :=
  length_lowerHex (by decide) (unsigned_lt_pow half)

theorem isText_hexDigits (id : TraceId) : IsText id.hexDigits := by
  have hlow := length_lowerHex_unsigned id.low
  have hhigh := length_lowerHex_unsigned id.high
  rw [hexDigits]
  split
  · exact ⟨by omega, by omega, isLowerHex_lowerHex _ _⟩
  · refine ⟨?_, ?_, (isLowerHex_lowerHex _ _).append (isLowerHex_lowerHex _ _)⟩ <;>
      rw [List.length_append] <;> omega

theorem ofDigits_hexDigits (id : TraceId) :
    ofDigits id.hexDigits = ⟨unsigned id.high, unsigned id.low⟩ := by
  have hlow := length_lowerHex_unsigned id.low
  rw [hexDigits_eq, ofDigits_append _ hlow, digitsValue_lowerHex]
  split
  · rename_i hhigh
    rw [hhigh]
    rfl
  · rw [digitsValue_lowerHex]

/-- A trace ID that was written is read back, with the halves as numbers of 64 bits. -/
theorem parse?_hex (id : TraceId) :
    parse? id.hex = some ⟨unsigned id.high, unsigned id.low⟩ := by
  rw [parse?_eq_some_iff, hex, String.toList_ofList]
  exact ⟨isText_hexDigits id, ofDigits_hexDigits id⟩

/-! ### Reading and writing -/

theorem length_hexDigits (id : TraceId) :
    id.hexDigits.length = if unsigned id.high = 0 then 16 else 32 := by
  have hlow := length_lowerHex_unsigned id.low
  have hhigh := length_lowerHex_unsigned id.high
  rw [hexDigits]
  split
  · exact hlow
  · rw [List.length_append, hhigh, hlow]

theorem unsigned_of_bounds {half : Int} (h : 0 ≤ half ∧ half < 2 ^ 64) :
    (unsigned half : Int) = half := by
  rw [natCast_unsigned, Int.emod_eq_of_lt h.1 h.2]

/-- A text that is read and written is brought to sixteen digits, or to thirty-two when it has a high
half. -/
theorem hexDigits_ofDigits
    {digits : List Char}
    (h : IsText digits) :
    (ofDigits digits).hexDigits.length = width (ofDigits digits) ∧
      (ofDigits digits).hexDigits = padZeros (width (ofDigits digits)) (significant digits) := by
  obtain ⟨hhigh, hlow⟩ := ofDigits_bounds h
  have hlength : (ofDigits digits).hexDigits.length = width (ofDigits digits) := by
    rw [length_hexDigits, width]
    congr 1
    rw [← Int.natCast_eq_zero, unsigned_of_bounds hhigh]
  have hread : ofDigits (ofDigits digits).hexDigits = ofDigits digits := by
    rw [ofDigits_hexDigits, unsigned_of_bounds hhigh, unsigned_of_bounds hlow]
  have hsame : significant (ofDigits digits).hexDigits = significant digits :=
    (ofDigits_inj (isText_hexDigits _).isLowerHex h.isLowerHex).mp hread
  refine ⟨hlength, ?_⟩
  rw [← hsame, padZeros_significant hlength.le, padZeros, hlength, Nat.sub_self]
  rfl

/-- Just the texts of sixteen digits, and those of thirty-two with a high half, are written as they
were read. -/
theorem hexDigits_ofDigits_eq_self_iff
    {digits : List Char}
    (h : IsText digits) :
    (ofDigits digits).hexDigits = digits ↔
      digits.length = 16 ∨ digits.length = 32 ∧ (ofDigits digits).high ≠ 0 := by
  obtain ⟨hlength, hwritten⟩ := hexDigits_ofDigits h
  constructor
  · intro hself
    rw [hself, width] at hlength
    split at hlength
    · exact Or.inl hlength
    · rename_i hhigh
      exact Or.inr ⟨hlength, hhigh⟩
  · intro hdigits
    have hwidth : digits.length = width (ofDigits digits) := by
      rcases hdigits with hshort | ⟨hlong, hhigh⟩
      · rw [width, if_pos, hshort]
        rw [ofDigits_of_length_le hshort.le]
      · rw [width, if_neg hhigh, hlong]
    rw [hwritten, padZeros_significant hwidth.le, padZeros, hwidth, Nat.sub_self]
    rfl

theorem hex_eq_iff {id : TraceId} {text : String} :
    id.hex = text ↔ id.hexDigits = text.toList := by
  rw [hex, ← String.toList_inj, String.toList_ofList]

/-- **The text of trace IDs.**  Whatever halves are written are read back as numbers of 64 bits.
A text is read just when it is one to thirty-two digits of lower-case hexadecimal; its halves are
numbers of 64 bits then, and two texts have the same ones just when they agree but for their leading
zeros.  Reading a text and writing it brings it, with other leading zeros, to sixteen digits, or to
thirty-two when it has a high half; that is the text itself just when it is that long. -/
theorem hex_parse?_canonical (id : TraceId) (text other : String) :
    parse? id.hex = some ⟨id.high % 2 ^ 64, id.low % 2 ^ 64⟩ ∧
    ((parse? text).isSome ↔
      1 ≤ text.length ∧ text.length ≤ 32 ∧ ∀ c ∈ text.toList, c ∈ "0123456789abcdef".toList) ∧
    (∀ read read', parse? text = some read → parse? other = some read' →
      (read = read' ↔ significant text.toList = significant other.toList)) ∧
    ∀ read, parse? text = some read →
      ((0 ≤ read.high ∧ read.high < 2 ^ 64) ∧ 0 ≤ read.low ∧ read.low < 2 ^ 64) ∧
      read.hex.toList = padZeros (width read) (significant text.toList) ∧
      (text.length ≤ width read → read.hex.toList = padZeros (width read) text.toList) ∧
      (read.hex = text ↔ text.length = 16 ∨ text.length = 32 ∧ read.high ≠ 0) := by
  refine ⟨?_, ?_, ?_, ?_⟩
  · rw [parse?_hex, natCast_unsigned, natCast_unsigned]
  · rw [parse?_isSome_iff, ← isText_iff, isText_iff_mem, String.length_toList]
  · intro read read' hread hread'
    obtain ⟨htext, rfl⟩ := parse?_eq_some_iff.mp hread
    obtain ⟨hother, rfl⟩ := parse?_eq_some_iff.mp hread'
    exact ofDigits_inj htext.isLowerHex hother.isLowerHex
  · intro read hread
    obtain ⟨htext, rfl⟩ := parse?_eq_some_iff.mp hread
    have hwritten := (hexDigits_ofDigits htext).2
    rw [hex_eq_iff, hex, String.toList_ofList, hexDigits_ofDigits_eq_self_iff htext]
    refine ⟨ofDigits_bounds htext, hwritten, fun hle => ?_, Iff.rfl⟩
    rw [hwritten, padZeros_significant hle]

/-- Seventeen digits with a one at the end are read like that one digit, and written with sixteen. -/
theorem hex_parse?_canonical_seventeenDigits :
    parse? (hex ⟨-1, 2 ^ 64 + 161⟩) = some ⟨2 ^ 64 - 1, 161⟩ ∧
    parse? "00000000000000001" = some ⟨0, 1⟩ ∧ parse? "1" = some ⟨0, 1⟩ ∧
      significant "00000000000000001".toList = significant "1".toList ∧
      (hex ⟨0, 1⟩).toList = padZeros 16 "1".toList ∧ hex ⟨0, 1⟩ ≠ "00000000000000001" := by
  have hlong : parse? "00000000000000001" = some ⟨0, 1⟩ := by decide
  have hshort : parse? "1" = some ⟨0, 1⟩ := by decide
  obtain ⟨hwritten, -, hsame, -⟩ :=
    hex_parse?_canonical ⟨-1, 2 ^ 64 + 161⟩ "00000000000000001" "1"
  obtain ⟨-, -, -, hread⟩ := hex_parse?_canonical ⟨0, 1⟩ "1" "1"
  obtain ⟨-, -, -, hreadLong⟩ := hex_parse?_canonical ⟨0, 1⟩ "00000000000000001" "1"
  refine ⟨hwritten, hlong, hshort, (hsame _ _ hlong hshort).mp rfl, ?_, ?_⟩
  · exact (hread _ hshort).2.2.1 (by decide)
  · rw [Ne, (hreadLong _ hlong).2.2.2]
    decide

end TraceId
end TraceArchive
