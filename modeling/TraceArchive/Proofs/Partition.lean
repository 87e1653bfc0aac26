import TraceArchive.Partition.Cover
import TraceArchive.Proofs.Calendar
import TraceArchive.Proofs.Numeral

/-!
# Which partitions a list of entries stands for

An entry of a list of partitions is the name of one, or a pattern for all names with one start.  The
entries for a range of days stand for the partitions of exactly these days, and for each of them
once.

* `Block.holds_iff`: the days of a block.
* `Naming.entryMatches`: what an entry stands for.
* `Naming.entryMatches_ofBlock`: the entry of a block stands for the partitions of its days.
* `Partition.blocksFrom_spec`, `Partition.spec_of_blocksFrom`: the blocks of a range hold each of its
  days once.
* `Naming.ofRange_covers`: the entries of a range stand for each of its partitions once.
-/

set_option autoImplicit false

namespace TraceArchive

/-- A block holds the day of a date. -/
def Block.holds : Block → Date → Bool
  | .day date, other => other = date
  | .month y m, other => other.year = y ∧ other.month = m
  | .year y, other => other.year = y

/-- The days of a block lie in the years 1 to 9999. -/
def Block.InCalendar : Block → Prop
  | .day date => date.InCalendar
  | .month y m => 1 ≤ y ∧ y ≤ 9999 ∧ 0 < m ∧ m ≤ 12
  | .year y => 1 ≤ y ∧ y ≤ 9999

/-! ### The days of a block -/

namespace Block

open Calendar

/-- The day on which a block starts. -/
def start : Block → Int
  | .day date => date.toDay
  | .month y m => Date.toDay ⟨y, m, 1⟩
  | .year y => Date.toDay ⟨y, 1, 1⟩

/-- The number of days of a block. -/
def length : Block → Nat
  | .day _ => 1
  | .month y m => monthLength y m
  | .year y => yearLength y

theorem length_pos (block : Block) : 0 < block.length := by
  cases block with
  | day date => exact Nat.one_pos
  | month y m => exact monthLength_pos y m
  | year y => exact yearLength_pos y

theorem toDay_newYear (year : Int) :
    Date.toDay ⟨year, 1, 1⟩ + epoch = daysBeforeYear year := by
  simp only [Date.toDay, daysBeforeMonth, Nat.sub_self, List.take_zero, List.foldl_nil]
  omega

/-- A block holds the days from its start on, as many as its length. -/
theorem holds_iff
    {block : Block} {date : Date}
    (hblock : block.InCalendar)
    (valid : date.IsValid) :
    block.holds date = true ↔ block.start ≤ date.toDay ∧ date.toDay < block.start + block.length := by
  cases block with
  | day day =>
      have hday : date.toDay = day.toDay ↔ date = day := Date.toDay_inj valid hblock.toIsValid
      rw [holds, decide_eq_true_iff, ← hday, start, length]
      omega
  | month year month =>
      obtain ⟨-, -, hpos, hle⟩ := hblock
      rw [holds, decide_eq_true_iff, Date.month_eq_iff valid hpos hle, start, length]
  | year year =>
      have hstart := toDay_newYear year
      rw [holds, decide_eq_true_iff, Date.year_eq_iff valid, daysBeforeYear_succ, start, length]
      omega

end Block

/-! ### Names -/

namespace Naming

/-- An entry stands for a partition: an entry that ends in an asterisk for every name that starts
with what is before it, any other entry for the name itself. -/
def entryMatches (entry name : String) : Bool :=
  if entry.toList.getLast? = some '*' then entry.toList.dropLast.isPrefixOf name.toList
  else entry = name

theorem entryMatches_pattern (start name : String) :
    entryMatches (start ++ "*") name = true ↔ start.toList <+: name.toList := by
  simp [entryMatches]

/-- Texts of one length at the start are told apart before what follows them. -/
theorem append_prefix_append_iff {a b x y : List Char} (h : a.length = b.length) :
    a ++ x <+: b ++ y ↔ a = b ∧ x <+: y := by
  constructor
  · rintro ⟨rest, hrest⟩
    rw [List.append_assoc] at hrest
    obtain ⟨rfl, rfl⟩ := List.append_inj hrest h
    exact ⟨rfl, List.prefix_append x rest⟩
  · rintro ⟨rfl, hprefix⟩
    exact (List.prefix_append_right_inj a).mpr hprefix

variable (naming : Naming) (docType : String)

theorem toList_ofDate (date : Date) :
    (naming.ofDate docType date).toList =
      (naming.stem docType).toList ++ (Text.decimal 4 date.year.toNat ++
        (naming.separator.toList ++ (Text.decimal 2 date.month ++
          (naming.separator.toList ++ Text.decimal 2 date.day)))) := by
  simp [ofDate, padded, List.append_assoc]

theorem length_year {year : Int} (hle : year ≤ 9999) :
    (Text.decimal 4 year.toNat).length = 4 :=
  Text.length_decimal (by decide) (by omega)

theorem length_month {month : Nat} (hle : month ≤ 12) : (Text.decimal 2 month).length = 2 :=
  Text.length_decimal (by decide) (by omega)

theorem year_eq_of_decimal
    {a b : Int}
    (ha : 1 ≤ a)
    (hb : 1 ≤ b) :
    Text.decimal 4 a.toNat = Text.decimal 4 b.toNat ↔ a = b := by
  rw [Text.decimal_inj]
  omega

/-- Partitions of different dates have different names. -/
theorem ofDate_inj
    {a b : Date}
    (ha : a.InCalendar)
    (hb : b.InCalendar) :
    naming.ofDate docType a = naming.ofDate docType b ↔ a = b := by
  refine ⟨fun h => ?_, fun h => h ▸ rfl⟩
  have hlist := congrArg String.toList h
  rw [toList_ofDate, toList_ofDate] at hlist
  have hrest := List.append_cancel_left hlist
  obtain ⟨hyear, hrest⟩ := List.append_inj hrest
    ((length_year ha.year_le).trans (length_year hb.year_le).symm)
  obtain ⟨hmonth, hrest⟩ := List.append_inj (List.append_cancel_left hrest)
    ((length_month ha.month_le).trans (length_month hb.month_le).symm)
  have hday := List.append_cancel_left hrest
  show (⟨a.year, a.month, a.day⟩ : Date) = ⟨b.year, b.month, b.day⟩
  rw [(year_eq_of_decimal ha.year_pos hb.year_pos).mp hyear, Text.decimal_inj.mp hmonth,
    Text.decimal_inj.mp hday]

/-- The name of a partition ends in a digit. -/
theorem getLast?_ofDate_ne (date : Date) :
    (naming.ofDate docType date).toList.getLast? ≠ some '*' := by
  intro h
  have hlast := List.getLast?_eq_some_getLast (Text.decimal_ne_nil 2 date.day)
  rw [toList_ofDate] at h
  simp only [List.getLast?_append, hlast, Option.some_or, Option.some.injEq] at h
  have hdigit := Text.isDigit_of_mem_decimal (List.mem_of_getLast? hlast)
  rw [h] at hdigit
  exact absurd hdigit (by decide)

/-- The entry of a block stands for the partitions of its days. -/
theorem entryMatches_ofBlock
    {block : Block} {date : Date}
    (hblock : block.InCalendar)
    (hdate : date.InCalendar) :
    entryMatches (naming.ofBlock docType block) (naming.ofDate docType date) =
      block.holds date := by
  rw [Bool.eq_iff_iff]
  cases block with
  | day day =>
      have hne := getLast?_ofDate_ne naming docType day
      simp only [ofBlock, entryMatches, if_neg hne, decide_eq_true_iff, Block.holds,
        ofDate_inj naming docType hblock hdate]
      exact eq_comm
  | month year month =>
      obtain ⟨hpos, hle, -, hmonth⟩ := hblock
      rw [ofBlock, entryMatches_pattern, toList_ofDate]
      simp only [padded, String.toList_append, String.toList_ofList, List.append_assoc,
        List.prefix_append_right_inj]
      rw [append_prefix_append_iff ((length_year hle).trans (length_year hdate.year_le).symm),
        List.prefix_append_right_inj, append_prefix_append_iff
          ((length_month hmonth).trans (length_month hdate.month_le).symm),
        year_eq_of_decimal hpos hdate.year_pos, Text.decimal_inj, Block.holds, decide_eq_true_iff]
      exact and_congr eq_comm ((and_iff_left (List.prefix_append _ _)).trans eq_comm)
  | year year =>
      obtain ⟨hpos, hle⟩ := hblock
      rw [ofBlock, entryMatches_pattern, toList_ofDate]
      simp only [padded, String.toList_append, String.toList_ofList, List.append_assoc,
        List.prefix_append_right_inj]
      rw [append_prefix_append_iff ((length_year hle).trans (length_year hdate.year_le).symm),
        year_eq_of_decimal hpos hdate.year_pos, Block.holds, decide_eq_true_iff]
      exact (and_iff_left (List.prefix_append _ _)).trans eq_comm

end Naming

/-! ### Blocks -/

namespace Partition

open Calendar

/-- The block that is taken at a day ends within the range. -/
theorem largestBlock_end_le
    {day last : Int}
    (hle : day ≤ last) :
    day + (largestBlock day last).2.1 ≤ last + 1 := by
  simp only [largestBlock]
  split
  · dsimp only
    omega
  · split <;> dsimp only <;> omega

/-- The block that is taken at a day starts on it. -/
theorem start_largestBlock (day last : Int) : (largestBlock day last).1.start = day := by
  have hstart := Date.toDay_ofDay day
  simp only [largestBlock]
  generalize Date.ofDay day = date at hstart ⊢
  obtain ⟨year, month, first⟩ := date
  split
  · rename_i hyear
    obtain ⟨rfl, rfl, -⟩ := hyear
    exact hstart
  · split
    · rename_i hmonth
      obtain ⟨rfl, -⟩ := hmonth
      exact hstart
    · exact hstart

theorem length_largestBlock (day last : Int) :
    (largestBlock day last).1.length = (largestBlock day last).2.1 := by
  simp only [largestBlock]
  split
  · rfl
  · split <;> rfl

theorem inCalendar_largestBlock
    {day last : Int}
    (hfirst : firstDay ≤ day)
    (hlast : day ≤ lastDay) :
    (largestBlock day last).1.InCalendar := by
  have hdate := inCalendar_ofDay hfirst hlast
  simp only [largestBlock]
  split
  · exact ⟨hdate.year_pos, hdate.year_le⟩
  · split
    · exact ⟨hdate.year_pos, hdate.year_le, hdate.month_pos, hdate.month_le⟩
    · exact hdate

/-- The block that is taken at a day holds just the days of its length from that day on. -/
theorem holds_largestBlock_iff
    {day last : Int} {date : Date}
    (hfirst : firstDay ≤ day)
    (hlast : day ≤ lastDay)
    (valid : date.IsValid) :
    (largestBlock day last).1.holds date = true ↔
      day ≤ date.toDay ∧ date.toDay < day + (largestBlock day last).2.1 := by
  rw [Block.holds_iff (inCalendar_largestBlock hfirst hlast) valid, start_largestBlock,
    length_largestBlock]

/-- The blocks of a range that ends before the last day of the calendar hold each day of the range
once and no other day, and there are none only when the range is empty. -/
theorem blocksFrom_spec
    (day last : Int)
    (hfirst : firstDay ≤ day)
    (hlast : last < lastDay) :
    ∃ blocks, blocksFrom day last = .ok blocks ∧
      (∀ block ∈ blocks, block.InCalendar) ∧
      (∀ date : Date, date.IsValid →
        blocks.countP (·.holds date) = if day ≤ date.toDay ∧ date.toDay ≤ last then 1 else 0) ∧
      (blocks = [] ↔ last < day) := by
  rw [blocksFrom]
  split
  · rename_i hle
    have hend := largestBlock_end_le hle
    have hday : day ≤ lastDay := by omega
    have hpos := largestBlock_length_pos day last
    obtain ⟨blocks, hrest, hblocks, hcount, -⟩ :=
      blocksFrom_spec (day + (largestBlock day last).2.1) last (by omega) hlast
    refine ⟨(largestBlock day last).1 :: blocks, ?_, ?_, fun date valid => ?_, ?_⟩
    · rw [if_neg (by omega), hrest]
      rfl
    · exact List.forall_mem_cons.mpr ⟨inCalendar_largestBlock hfirst hday, hblocks⟩
    · simp only [List.countP_cons, hcount date valid, holds_largestBlock_iff hfirst hday valid]
      split <;> split <;> split <;> omega
    · simp only [List.cons_ne_nil, false_iff]
      omega
  · rename_i hgt
    refine ⟨[], rfl, by simp, fun date _ => ?_, by simp; omega⟩
    rw [if_neg (by omega)]
    rfl
termination_by (last + 1 - day).toNat

/-- Blocks that hold each day of a range once hold the days of the range. -/
theorem exists_holds_iff
    {first final : Int} {blocks : List Block} {date : Date}
    (hcount : blocks.countP (·.holds date) =
      if first ≤ date.toDay ∧ date.toDay ≤ final then 1 else 0) :
    (∃ block ∈ blocks, block.holds date = true) ↔ first ≤ date.toDay ∧ date.toDay ≤ final := by
  rw [← List.countP_pos_iff, hcount]
  split <;> simp [*]

/-- After the block that is taken at a day come the blocks of the days that are left. -/
theorem exists_rest_of_blocksFrom
    {day last : Int} {blocks : List Block}
    (h : blocksFrom day last = .ok blocks)
    (hle : day ≤ last) :
    ∃ rest, blocks = (largestBlock day last).1 :: rest ∧
      blocksFrom (day + (largestBlock day last).2.1) last = .ok rest ∧
      day + (largestBlock day last).2.1 ≤ lastDay := by
  rw [blocksFrom, if_pos hle] at h
  dsimp only at h
  split at h
  · cases h
  · rename_i hnext
    cases hrest : blocksFrom (day + (largestBlock day last).2.1) last with
    | error error =>
        rw [hrest] at h
        cases h
    | ok rest =>
        rw [hrest] at h
        cases h
        exact ⟨rest, rfl, rfl, by omega⟩

theorem eq_nil_of_blocksFrom
    {day last : Int} {blocks : List Block}
    (h : blocksFrom day last = .ok blocks)
    (hlt : last < day) :
    blocks = [] := by
  rw [blocksFrom, if_neg (by omega)] at h
  cases h
  rfl

/-- A range that has blocks at all ends before the last day of the calendar, unless it is empty. -/
theorem lt_lastDay_of_blocksFrom
    {day last : Int} {blocks : List Block}
    (h : blocksFrom day last = .ok blocks)
    (hle : day ≤ last) :
    last < lastDay := by
  have hpos := largestBlock_length_pos day last
  obtain ⟨rest, -, hrest, hnext⟩ := exists_rest_of_blocksFrom h hle
  by_cases hmore : day + (largestBlock day last).2.1 ≤ last
  · exact lt_lastDay_of_blocksFrom hrest hmore
  · omega
termination_by (last + 1 - day).toNat

/-- Whenever a range has blocks, they hold each day of the range once and no other day. -/
theorem spec_of_blocksFrom
    {day last : Int} {blocks : List Block}
    (hfirst : firstDay ≤ day)
    (h : blocksFrom day last = .ok blocks) :
    (∀ block ∈ blocks, block.InCalendar) ∧
      ∀ date : Date, date.IsValid →
        blocks.countP (·.holds date) = if day ≤ date.toDay ∧ date.toDay ≤ last then 1 else 0 := by
  by_cases hle : day ≤ last
  · obtain ⟨found, hfound, hcalendar, hcount, -⟩ :=
      blocksFrom_spec day last hfirst (lt_lastDay_of_blocksFrom h hle)
    cases hfound.symm.trans h
    exact ⟨hcalendar, hcount⟩
  · cases eq_nil_of_blocksFrom h (by omega)
    refine ⟨by simp, fun date _ => ?_⟩
    rw [if_neg (by omega)]
    rfl

end Partition

namespace Naming

open Calendar

/-- The entries of a range of instants with dates are those of the blocks of its days. -/
theorem ofRange_of_hasDate
    (naming : Naming) (docType : String)
    {begin last : Int}
    (hbegin : HasDate begin)
    (hlast : HasDate last) :
    naming.ofRange docType begin last =
      (Partition.blocksFrom (begin / 86400000) (last / 86400000)).map
        (·.map (naming.ofBlock docType)) := by
  simp only [ofRange, ofInstants, Millis.day, hbegin.dayOfMillis_eq_ok, hlast.dayOfMillis_eq_ok,
    bind, Except.bind]
  cases Partition.blocksFrom (begin / 86400000) (last / 86400000) <;> rfl

theorem ofRange_of_blocksFrom
    (naming : Naming) (docType : String)
    {begin last : Int} {blocks : List Block}
    (hbegin : firstDay ≤ begin / 86400000)
    (hbegin' : begin / 86400000 ≤ lastDay)
    (hlast : firstDay ≤ last / 86400000)
    (hlast' : last / 86400000 ≤ lastDay)
    (hblocks : Partition.blocksFrom (begin / 86400000) (last / 86400000) = .ok blocks) :
    naming.ofRange docType begin last = .ok (blocks.map (naming.ofBlock docType)) := by
  rw [ofRange_of_hasDate naming docType (hasDate_iff.mpr ⟨hbegin, hbegin'⟩)
    (hasDate_iff.mpr ⟨hlast, hlast'⟩), hblocks]
  rfl

/-- The entries of a range that ends before the last day of the calendar are those of blocks that
hold each of its days once. -/
theorem ofRange_spec
    (naming : Naming) (docType : String)
    (begin last : Int)
    (hbegin : firstDay ≤ begin / 86400000)
    (hbegin' : begin / 86400000 ≤ lastDay)
    (hlast : firstDay ≤ last / 86400000)
    (hlast' : last / 86400000 < lastDay) :
    ∃ blocks : List Block,
      naming.ofRange docType begin last = .ok (blocks.map (naming.ofBlock docType)) ∧
      (∀ block ∈ blocks, block.InCalendar) ∧
      (∀ date : Date, date.IsValid → blocks.countP (·.holds date) =
        if begin / 86400000 ≤ date.toDay ∧ date.toDay ≤ last / 86400000 then 1 else 0) ∧
      (blocks = [] ↔ last / 86400000 < begin / 86400000) := by
  obtain ⟨blocks, hblocks, hspec⟩ :=
    Partition.blocksFrom_spec _ (last / 86400000) hbegin hlast'
  exact ⟨blocks, naming.ofRange_of_blocksFrom docType hbegin hbegin' hlast (Int.le_of_lt hlast')
    hblocks, hspec⟩

/-- **An exact cover without overlap.**  For a range of instants that ends before the last day of
the calendar there is a list of entries.  Among them exactly one stands for the partition of a date
within the range and none for any other, and the list is empty only when the range is. -/
theorem ofRange_covers
    (naming : Naming) (docType : String)
    (begin last : Int)
    (hbegin : firstDay ≤ begin / 86400000)
    (hbegin' : begin / 86400000 ≤ lastDay)
    (hlast : firstDay ≤ last / 86400000)
    (hlast' : last / 86400000 < lastDay) :
    ∃ entries, naming.ofRange docType begin last = .ok entries ∧
      (∀ date : Date, date.InCalendar →
        entries.countP (entryMatches · (naming.ofDate docType date)) =
          if begin / 86400000 ≤ date.toDay ∧ date.toDay ≤ last / 86400000 then 1 else 0) ∧
      (entries = [] ↔ last / 86400000 < begin / 86400000) := by
  obtain ⟨blocks, hentries, hcalendar, hcount, hempty⟩ :=
    naming.ofRange_spec docType begin last hbegin hbegin' hlast hlast'
  refine ⟨_, hentries, fun date hdate => ?_, ?_⟩
  · rw [List.countP_map, ← hcount date hdate.toIsValid]
    refine List.countP_congr fun block hblock => ?_
    simp only [Function.comp, entryMatches_ofBlock naming docType (hcalendar block hblock) hdate]
  · rw [List.map_eq_nil_iff, hempty]

/-- From the next to last day of 2015 to the first of February 2017, with no mark between the parts
of a date: the leap day of 2016 is meant once and the day after the range is not. -/
theorem ofRange_covers_leapYear :
    ∃ entries, Naming.ofRange ⟨"zipkin", ""⟩ "span" 1451433600000 1485907200000 = .ok entries ∧
      entries.countP (entryMatches · (ofDate ⟨"zipkin", ""⟩ "span" ⟨2016, 2, 29⟩)) = 1 ∧
      entries.countP (entryMatches · (ofDate ⟨"zipkin", ""⟩ "span" ⟨2017, 2, 2⟩)) = 0 ∧
      entries ≠ [] := by
  obtain ⟨entries, hentries, hcount, hempty⟩ :=
    ofRange_covers ⟨"zipkin", ""⟩ "span" 1451433600000 1485907200000
      (by decide) (by decide) (by decide) (by decide)
  refine ⟨entries, hentries, ?_, ?_, fun hnil => absurd (hempty.mp hnil) (by decide)⟩
  · rw [hcount _ ⟨⟨by decide, by decide, by decide, by decide⟩, by decide, by decide⟩]
    decide
  · rw [hcount _ ⟨⟨by decide, by decide, by decide, by decide⟩, by decide, by decide⟩]
    decide

end Naming
end TraceArchive
