import Mathlib
import TraceArchive.Proofs.Partition

/-!
# No shorter list of entries

The blocks of a range are taken one after the other, each as large as possible.  Two blocks that
share a day lie one within the other, so whatever starts within the block that is taken, and stays
within the range, ends within it.  A list of blocks for the days that are left therefore needs all
blocks that start later, and no list for the whole range is shorter than the one that is taken.

* `Block.end_le_or_start_eq`: a block that starts within another one ends within it, unless they
  start together.
* `Partition.length_le_largestBlock`: the block that is taken is the longest.
* `Partition.length_blocksFrom_le`: no list of blocks for a range is shorter.
* `Naming.ofRange_isShortest`: no list of entries for a range is shorter, and its entries are in the
  order of the days.
-/

set_option autoImplicit false

namespace TraceArchive

open Calendar

namespace Block

/-- The year in which the days of a block lie. -/
def inYear : Block → Int
  | .day date => date.year
  | .month y _ => y
  | .year y => y

variable {block other : Block} {date : Date}

theorem holds_month_iff {y : Int} {m : Nat} :
    (Block.month y m).holds date = true ↔ date.year = y ∧ date.month = m :=
  decide_eq_true_iff

theorem holds_year_iff {y : Int} : (Block.year y).holds date = true ↔ date.year = y :=
  decide_eq_true_iff

theorem year_of_holds (h : block.holds date = true) : date.year = block.inYear := by
  cases block with
  | day day => exact congrArg Date.year (of_decide_eq_true h)
  | month y m => exact (holds_month_iff.mp h).1
  | year y => exact holds_year_iff.mp h

/-- The dates that a block of the calendar holds are in the calendar. -/
theorem InCalendar.of_holds
    (hblock : block.InCalendar)
    (valid : date.IsValid)
    (h : block.holds date = true) :
    date.InCalendar := by
  have hyear := year_of_holds h
  cases block with
  | day day => exact of_decide_eq_true h ▸ hblock
  | month y m => exact ⟨valid, hyear ▸ hblock.1, hyear ▸ hblock.2.1⟩
  | year y => exact ⟨valid, hyear ▸ hblock.1, hyear ▸ hblock.2⟩

/-- A block holds the days from its start on, as many as its length. -/
theorem holds_ofDay_iff (hblock : block.InCalendar) (day : Int) :
    block.holds (Date.ofDay day) = true ↔
      block.start ≤ day ∧ day < block.start + block.length := by
  rw [holds_iff hblock (Date.isValid_ofDay day), Date.toDay_ofDay]

theorem holds_start (hblock : block.InCalendar) :
    block.holds (Date.ofDay block.start) = true := by
  have hpos := block.length_pos
  exact (holds_ofDay_iff hblock _).mpr ⟨Int.le_refl _, by omega⟩

theorem ofDay_start_month {y : Int} {m : Nat} (hpos : 0 < m) (hle : m ≤ 12) :
    Date.ofDay (Block.month y m).start = ⟨y, m, 1⟩ :=
  Date.ofDay_toDay ⟨hpos, hle, Nat.one_pos, monthLength_pos y m⟩

theorem ofDay_start_year (y : Int) : Date.ofDay (Block.year y).start = ⟨y, 1, 1⟩ :=
  ofDay_start_month Nat.one_pos (Nat.le_add_left 1 11)

/-- A block that starts within another one ends within it, unless they start together. -/
theorem end_le_or_start_eq
    (hblock : block.InCalendar)
    (hother : other.InCalendar)
    (hle : other.start ≤ block.start)
    (hlt : block.start < other.start + other.length) :
    block.start + block.length ≤ other.start + other.length ∨ block.start = other.start := by
  have hstart := holds_start hblock
  have hshared := (holds_ofDay_iff hother _).mpr ⟨hle, hlt⟩
  cases other with
  | day date =>
      simp only [length] at hlt
      omega
  | year y =>
      -- the last day of the block lies in the year in which its first day lies
      have hpos := block.length_pos
      have hlast := (holds_ofDay_iff hblock (block.start + block.length - 1)).mpr
        ⟨by omega, by omega⟩
      have hyear : (Date.ofDay (block.start + block.length - 1)).year = y :=
        (year_of_holds hlast).trans ((year_of_holds hstart).symm.trans (year_of_holds hshared))
      have hend := (holds_ofDay_iff hother _).mp (holds_year_iff.mpr hyear)
      omega
  | month y m =>
      obtain ⟨hyear, hmonth⟩ := holds_month_iff.mp hshared
      cases block with
      | day date =>
          simp only [length] at hlt ⊢
          omega
      | month y' m' =>
          obtain ⟨hyear', hmonth'⟩ := holds_month_iff.mp hstart
          obtain rfl : y' = y := hyear'.symm.trans hyear
          obtain rfl : m' = m := hmonth'.symm.trans hmonth
          exact Or.inr rfl
      | year y' =>
          -- a month in which a year starts is its first one
          rw [ofDay_start_year] at hyear hmonth
          obtain rfl : y' = y := hyear
          obtain rfl : 1 = m := hmonth
          exact Or.inr rfl

end Block

namespace Partition

variable {day last : Int} {block : Block} {cover : List Block}

/-- Of the blocks that start on a day and end within the range, the one that is taken is the
longest. -/
theorem length_le_largestBlock
    (hblock : block.InCalendar)
    (hstart : block.start = day)
    (hend : block.start + block.length ≤ last + 1) :
    block.length ≤ (largestBlock day last).2.1 := by
  cases block with
  | day date => exact largestBlock_length_pos day last
  | month y m =>
      have hdate : Date.ofDay (Block.month y m).start = ⟨y, m, 1⟩ :=
        Block.ofDay_start_month hblock.2.2.1 hblock.2.2.2
      rw [hstart] at hdate hend
      simp only [Block.length] at hend ⊢
      simp only [largestBlock, hdate]
      split
      · -- no month is longer than its year
        simp only [monthLength, yearLength]
        repeat' split
        all_goals omega
      · rw [if_pos ⟨trivial, by omega⟩]
  | year y =>
      have hdate := Block.ofDay_start_year y
      rw [hstart] at hdate hend
      simp only [Block.length] at hend ⊢
      simp only [largestBlock, hdate]
      rw [if_pos ⟨trivial, trivial, by omega⟩]

/-- What starts within the block that is taken, and ends within the range, ends within the block. -/
theorem end_le_largestBlock
    (hfirst : firstDay ≤ day)
    (hlast : day ≤ lastDay)
    (hblock : block.InCalendar)
    (hle : day ≤ block.start)
    (hlt : block.start < day + (largestBlock day last).2.1)
    (hend : block.start + block.length ≤ last + 1) :
    block.start + block.length ≤ day + (largestBlock day last).2.1 := by
  have htaken : (largestBlock day last).1.InCalendar := inCalendar_largestBlock hfirst hlast
  have hnested := Block.end_le_or_start_eq hblock htaken
  rw [start_largestBlock, length_largestBlock] at hnested
  rcases hnested hle hlt with hinside | hsame
  · exact hinside
  · have hlength := length_le_largestBlock hblock hsame hend
    omega

/-- Blocks hold the days of a range, however often, and no other day. -/
structure Covers (first last : Int) (blocks : List Block) : Prop where
  inCalendar : ∀ block ∈ blocks, block.InCalendar
  holds : ∀ date : Date, date.InCalendar →
    ((∃ block ∈ blocks, block.holds date = true) ↔ first ≤ date.toDay ∧ date.toDay ≤ last)

/-- The blocks lie within the range. -/
theorem Covers.within
    (h : Covers day last cover)
    (hmem : block ∈ cover) :
    day ≤ block.start ∧ block.start + block.length ≤ last + 1 := by
  have hblock := h.inCalendar block hmem
  have hpos := block.length_pos
  have hdays : ∀ other, block.start ≤ other → other < block.start + block.length →
      day ≤ other ∧ other ≤ last := by
    intro other hle hlt
    have hheld := (Block.holds_ofDay_iff hblock other).mpr ⟨hle, hlt⟩
    have hwithin := (h.holds _ (hblock.of_holds (Date.isValid_ofDay other) hheld)).mp
      ⟨block, hmem, hheld⟩
    rwa [Date.toDay_ofDay] at hwithin
  have hstart := hdays block.start (Int.le_refl _) (by omega)
  have hend := hdays (block.start + block.length - 1) (by omega) (by omega)
  omega

/-- The blocks that start after the one that is taken hold the days that are left. -/
theorem Covers.left
    (h : Covers day last cover)
    (hfirst : firstDay ≤ day)
    (hlast : day ≤ lastDay) :
    Covers (day + (largestBlock day last).2.1) last
      (cover.filter fun block => day + (largestBlock day last).2.1 ≤ block.start) where
  inCalendar block hmem := h.inCalendar block (List.mem_filter.mp hmem).1
  holds date hdate := by
    constructor
    · rintro ⟨block, hmem, hholds⟩
      obtain ⟨hmem, hlate⟩ := List.mem_filter.mp hmem
      have hblock := h.inCalendar block hmem
      have hstart := ((Block.holds_iff hblock hdate.toIsValid).mp hholds).1
      exact ⟨Int.le_trans (of_decide_eq_true hlate) hstart,
        ((h.holds date hdate).mp ⟨block, hmem, hholds⟩).2⟩
    · rintro ⟨hlate, hend⟩
      have hpos := largestBlock_length_pos day last
      obtain ⟨block, hmem, hholds⟩ := (h.holds date hdate).mpr ⟨by omega, hend⟩
      refine ⟨block, List.mem_filter.mpr ⟨hmem, decide_eq_true ?_⟩, hholds⟩
      -- a block that starts before ends before
      have hblock := h.inCalendar block hmem
      obtain ⟨hle, hwithin⟩ := h.within hmem
      have hdays := (Block.holds_iff hblock hdate.toIsValid).mp hholds
      by_contra hearly
      have := end_le_largestBlock hfirst hlast hblock hle (by omega) hwithin
      omega

/-- No list of blocks for a range is shorter than the one that is taken. -/
theorem length_blocksFrom_le
    {day last : Int} {blocks cover : List Block}
    (hfirst : firstDay ≤ day)
    (h : blocksFrom day last = .ok blocks)
    (hcover : Covers day last cover) :
    blocks.length ≤ cover.length := by
  by_cases hle : day ≤ last
  · have hlast := lt_lastDay_of_blocksFrom h hle
    have hpos := largestBlock_length_pos day last
    obtain ⟨rest, rfl, hrest, -⟩ := exists_rest_of_blocksFrom h hle
    have hleft := length_blocksFrom_le (by omega) hrest (hcover.left hfirst (by omega))
    -- the first day has a block of its own
    have hdate := inCalendar_ofDay hfirst (Int.le_trans hle (Int.le_of_lt hlast))
    obtain ⟨block, hmem, hholds⟩ := (hcover.holds _ hdate).mpr (by rw [Date.toDay_ofDay]; omega)
    have hstart := ((Block.holds_ofDay_iff (hcover.inCalendar block hmem) day).mp hholds).1
    have hfewer : (cover.filter fun block =>
        day + (largestBlock day last).2.1 ≤ block.start).length < cover.length :=
      List.length_filter_lt_length_iff_exists.mpr ⟨block, hmem, by simp; omega⟩
    rw [List.length_cons]
    omega
  · rw [eq_nil_of_blocksFrom h (by omega)]
    exact Nat.zero_le _
termination_by (last + 1 - day).toNat

/-- The blocks of a range start one after the other. -/
theorem pairwise_start_blocksFrom
    {day last : Int} {blocks : List Block}
    (h : blocksFrom day last = .ok blocks) :
    (∀ block ∈ blocks, day ≤ block.start) ∧
      blocks.Pairwise fun a b => a.start < b.start := by
  by_cases hle : day ≤ last
  · have hpos := largestBlock_length_pos day last
    obtain ⟨rest, rfl, hrest, -⟩ := exists_rest_of_blocksFrom h hle
    obtain ⟨hlater, hpairwise⟩ := pairwise_start_blocksFrom hrest
    have hstart := start_largestBlock day last
    refine ⟨List.forall_mem_cons.mpr ⟨by omega, fun block hmem => ?_⟩,
      List.pairwise_cons.mpr ⟨fun block hmem => ?_, hpairwise⟩⟩
    · have := hlater block hmem
      omega
    · have := hlater block hmem
      omega
  · rw [eq_nil_of_blocksFrom h (by omega)]
    exact ⟨by simp, .nil⟩
termination_by (last + 1 - day).toNat

end Partition

namespace Naming

variable {naming : Naming} {docType : String} {first last : Int}

/-- The entry of a day, a month or a year of the calendar. -/
def IsEntry (naming : Naming) (docType entry : String) : Prop :=
  ∃ block : Block, block.InCalendar ∧ naming.ofBlock docType block = entry

/-- Entries that stand for the partitions of the days of a range, however often, and for no other
partition. -/
structure CoversDays
    (naming : Naming) (docType : String)
    (first last : Int)
    (entries : List String) : Prop where
  isEntry : ∀ entry ∈ entries, naming.IsEntry docType entry
  matchesDays : ∀ date : Date, date.InCalendar →
    ((∃ entry ∈ entries, entryMatches entry (naming.ofDate docType date) = true) ↔
      first ≤ date.toDay ∧ date.toDay ≤ last)

/-- The first of the days whose partitions an entry stands for. -/
def IsFirstDay (naming : Naming) (docType entry : String) (day : Int) : Prop :=
  IsLeast {day | ∃ date : Date, date.InCalendar ∧
    entryMatches entry (naming.ofDate docType date) = true ∧ date.toDay = day} day

/-- The entries of blocks stand for the partitions of the days of a range just when the blocks hold
these days. -/
theorem coversDays_map_ofBlock_iff
    {blocks : List Block}
    (hcalendar : ∀ block ∈ blocks, block.InCalendar) :
    naming.CoversDays docType first last (blocks.map (naming.ofBlock docType)) ↔
      Partition.Covers first last blocks := by
  have hmatches : ∀ date : Date, date.InCalendar →
      ((∃ entry ∈ blocks.map (naming.ofBlock docType),
        entryMatches entry (naming.ofDate docType date) = true) ↔
          ∃ block ∈ blocks, block.holds date = true) := by
    intro date hdate
    simp only [List.mem_map, exists_exists_and_eq_and]
    refine exists_congr fun block => and_congr_right fun hmem => ?_
    rw [entryMatches_ofBlock naming docType (hcalendar block hmem) hdate]
  constructor
  · exact fun h => ⟨hcalendar, fun date hdate =>
      (hmatches date hdate).symm.trans (h.matchesDays date hdate)⟩
  · refine fun h => ⟨fun entry hmem => ?_, fun date hdate =>
      (hmatches date hdate).trans (h.holds date hdate)⟩
    obtain ⟨block, hblock, rfl⟩ := List.mem_map.mp hmem
    exact ⟨block, hcalendar block hblock, rfl⟩

/-- Such entries are those of blocks of the calendar. -/
theorem CoversDays.exists_blocks
    {entries : List String}
    (h : naming.CoversDays docType first last entries) :
    ∃ blocks : List Block, blocks.map (naming.ofBlock docType) = entries ∧
      ∀ block ∈ blocks, block.InCalendar := by
  choose blockOf hcalendar hentry using h.isEntry
  refine ⟨entries.attach.map fun entry => blockOf entry.1 entry.2, ?_, ?_⟩
  · rw [List.map_map]
    exact (List.map_congr_left fun entry _ => hentry entry.1 entry.2).trans
      (List.attach_map_subtype_val entries)
  · intro block hmem
    obtain ⟨entry, -, rfl⟩ := List.mem_map.mp hmem
    exact hcalendar entry.1 entry.2

/-- The first day of the entry of a block is the one on which the block starts. -/
theorem isFirstDay_ofBlock
    {block : Block}
    (hblock : block.InCalendar) :
    naming.IsFirstDay docType (naming.ofBlock docType block) block.start := by
  have hstart := Block.holds_start hblock
  have hdate := hblock.of_holds (Date.isValid_ofDay block.start) hstart
  refine ⟨⟨_, hdate, ?_, Date.toDay_ofDay _⟩, ?_⟩
  · rw [entryMatches_ofBlock naming docType hblock hdate, hstart]
  · rintro day ⟨date, hdate, hmatches, rfl⟩
    rw [entryMatches_ofBlock naming docType hblock hdate] at hmatches
    exact ((Block.holds_iff hblock hdate.toIsValid).mp hmatches).1

/-- **A shortest list, in the order of the days.**  For a range of days that ends before the last
day of the calendar there is a list of entries for the partitions of these days.  No other list of
the names of days and the patterns of months and years that stands for just these partitions is
shorter, and each entry stands for a day before the first one of those that come after it. -/
theorem ofRange_isShortest
    (naming : Naming) (docType : String)
    (begin last : Int)
    (hbegin : firstDay ≤ begin / 86400000)
    (hle : begin / 86400000 ≤ last / 86400000)
    (hlast : last / 86400000 < lastDay) :
    ∃ entries, naming.ofRange docType begin last = .ok entries ∧
      naming.CoversDays docType (begin / 86400000) (last / 86400000) entries ∧
      (∀ others, naming.CoversDays docType (begin / 86400000) (last / 86400000) others →
        entries.length ≤ others.length) ∧
      ∃ days : List Int, List.Forall₂ (naming.IsFirstDay docType) entries days ∧
        days.Pairwise (· < ·) := by
  obtain ⟨blocks, hblocks, hcalendar, hcount, -⟩ :=
    Partition.blocksFrom_spec _ (last / 86400000) hbegin hlast
  have hcovers : Partition.Covers (begin / 86400000) (last / 86400000) blocks :=
    ⟨hcalendar, fun date hdate => Partition.exists_holds_iff (hcount date hdate.toIsValid)⟩
  refine ⟨blocks.map (naming.ofBlock docType), ?_, ?_, fun others hothers => ?_, ?_⟩
  · exact naming.ofRange_of_blocksFrom docType hbegin (by omega) (by omega) (by omega) hblocks
  · exact (coversDays_map_ofBlock_iff hcalendar).mpr hcovers
  · obtain ⟨cover, rfl, hcover⟩ := hothers.exists_blocks
    rw [List.length_map, List.length_map]
    exact Partition.length_blocksFrom_le hbegin hblocks
      ((coversDays_map_ofBlock_iff hcover).mp hothers)
  · refine ⟨blocks.map Block.start, ?_, ?_⟩
    · rw [List.forall₂_map_left_iff, List.forall₂_map_right_iff]
      exact List.forall₂_same.mpr fun block hmem => isFirstDay_ofBlock (hcalendar block hmem)
    · exact List.pairwise_map.mpr (Partition.pairwise_start_blocksFrom hblocks).2

/-- From the next to last day of 2015 to the first of February 2017: the year and the month between
them have one entry each, and fewer than five entries do not do. -/
theorem ofRange_isShortest_leapYear :
    Naming.ofRange ⟨"zipkin", "-"⟩ "span" 1451433600000 1485907200000 =
        .ok ["zipkin-span-2015-12-30", "zipkin-span-2015-12-31", "zipkin-span-2016-*",
          "zipkin-span-2017-01-*", "zipkin-span-2017-02-01"] ∧
      ∀ others, CoversDays ⟨"zipkin", "-"⟩ "span" 16799 17198 others → 5 ≤ others.length := by
  have hentries : Naming.ofRange ⟨"zipkin", "-"⟩ "span" 1451433600000 1485907200000 =
      .ok ["zipkin-span-2015-12-30", "zipkin-span-2015-12-31", "zipkin-span-2016-*",
        "zipkin-span-2017-01-*", "zipkin-span-2017-02-01"] := by cbv
  obtain ⟨entries, hfound, -, hshortest, -⟩ :=
    ofRange_isShortest ⟨"zipkin", "-"⟩ "span" 1451433600000 1485907200000
      (by decide) (by decide) (by decide)
  cases hentries.symm.trans hfound
  exact ⟨hentries, hshortest⟩

end Naming

end TraceArchive
