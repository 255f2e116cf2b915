import Raml.Proofs.Source.Names
import Raml.Text.Excerpt

/-! Excerpts are the lines whose numbers lie within a distance from that of one of them, as long as
the number of the last line that may be shown is a word. Else the bound wraps and nothing is shown.
-/

namespace Raml.Text

-----------------------------------------------------------------------------------------
-- Lines
-----------------------------------------------------------------------------------------

/-- The lines that a text is made of, with a line break between each of them and the next. -/
structure MadeOf (text : String) (all : List String) : Prop where
  joined : "\n".intercalate all = text
  unbroken : ∀ line ∈ all, '\n' ∉ line.toList
  some : all ≠ []

/-- There is one way only to make a text of lines. -/
theorem MadeOf.lines_eq {text : String} {all : List String} (h : MadeOf text all)
    : lines text = all := by
  have unbroken : ∀ line ∈ all.map String.toList, '\n' ∉ line := by simpa using h.unbroken
  rw [lines, ← h.joined, String.toList_intercalate, show "\n".toList = ['\n'] from rfl,
    List.splitOn_intercalate '\n' unbroken (by simpa using h.some), List.map_map]
  simp

/-- The lines whose numbers, counted from one, lie between two others or are one of them. -/
def numbered (first last : Nat) (all : List String) : List String :=
  ((all.zipIdx 1).filter fun line => first ≤ line.2 ∧ line.2 ≤ last).map Prod.fst

/-- Items that are counted from a number on are picked by a range of numbers. -/
theorem map_filter_zipIdx {α : Type} (items : List α) (start first last : Nat)
    : ((items.zipIdx start).filter fun item => first ≤ item.2 ∧ item.2 ≤ last).map Prod.fst
      = (items.take (last + 1 - start)).drop (first - start) := by
  induction items generalizing start with
  | nil => simp
  | cons item items ih =>
      have later := ih (start + 1)
      rw [List.zipIdx_cons, List.filter_cons]
      by_cases past : last < start
      · have none : last + 1 - start = 0 := by omega
        have none' : last + 1 - (start + 1) = 0 := by omega
        rw [none', List.take_zero, List.drop_nil] at later
        rw [if_neg (by simp; omega), later, none, List.take_zero, List.drop_nil]
      · have some : last + 1 - start = (last + 1 - (start + 1)) + 1 := by omega
        rw [some, List.take_succ_cons]
        by_cases before : start < first
        · have skipped : first - start = (first - (start + 1)) + 1 := by omega
          rw [if_neg (by simp; omega), later, skipped, List.drop_succ_cons]
        · have reached : first - start = 0 := by omega
          have reached' : first - (start + 1) = 0 := by omega
          rw [reached', List.drop_zero] at later
          rw [if_pos (by simp; omega), List.map_cons, later, reached, List.drop_zero]

/-- They stand one after the other. -/
theorem numbered_eq (first last : Nat) (all : List String)
    : numbered first last all = (all.take last).drop (first - 1) := by
  rw [numbered, map_filter_zipIdx, Nat.add_sub_cancel]

-----------------------------------------------------------------------------------------
-- Bounds
-----------------------------------------------------------------------------------------

/-- How many of some lines come up to the end of an excerpt. -/
def stop (count line : Nat) (distance : Int64) : Nat :=
  clamp (min (Int64.ofNat line + distance) (Int64.ofNat count))

/-- How many of some lines come before an excerpt. -/
def start (count line : Nat) (distance : Int64) : Nat :=
  min (clamp (Int64.ofNat line - distance - 1)) (stop count line distance)

theorem excerpt_def (text : String) (line : Nat) (distance : Int64)
    : excerpt text line distance
      = "\n".intercalate (((lines text).take (stop (lines text).length line distance)).drop
          (start (lines text).length line distance)) :=
  rfl

/-- The largest word. -/
def largest : Nat := 2 ^ 63 - 1

variable {count line : Nat} {distance : Int64}

/-- The smaller of two bounds is the same before and after. -/
theorem clamp_min (a b : Int64) : clamp (min a b) = min (clamp a) (clamp b) := by
  have step : min a b = if a ≤ b then a else b := rfl
  rw [step, clamp, clamp, clamp]
  split
  · next le =>
      rw [Int64.le_iff_toInt_le] at le
      omega
  · next le =>
      rw [Int64.le_iff_toInt_le] at le
      omega

/-- A number that is a word is not clamped. -/
theorem clamp_ofNat (h : count ≤ largest) : clamp (Int64.ofNat count) = count := by
  rw [clamp, Int64.toInt_ofNat_of_lt (by simp only [largest] at h; omega), Int.toNat_natCast]

/-- The bounds are those of a part of the lines, whatever is asked for. -/
theorem bounds_le (h : count ≤ largest)
    : start count line distance ≤ stop count line distance ∧ stop count line distance ≤ count := by
  refine ⟨Nat.min_le_right _ _, ?_⟩
  rw [stop, clamp_min, clamp_ofNat h]
  exact Nat.min_le_right _ _

/-- No bound wraps. -/
structure Exact (line : Nat) (distance : Int64) : Prop where
  behind : (Int64.ofNat line + distance).toInt = line + distance.toInt
  before : (Int64.ofNat line - distance - 1).toInt = line - distance.toInt - 1

/-- The bound in front never wraps. -/
theorem toInt_before (positive : 1 ≤ line) (within : line ≤ largest) (h : 0 ≤ distance)
    : (Int64.ofNat line - distance - 1).toInt = line - distance.toInt - 1 := by
  have number : (Int64.ofNat line).toInt = line :=
    Int64.toInt_ofNat_of_lt (by simp only [largest] at within; omega)
  have upper := distance.toInt_lt
  rw [Int64.le_iff_toInt_le, Int64.toInt_zero] at h
  simp only [largest] at within
  have first : (Int64.ofNat line - distance).toInt = line - distance.toInt := by
    rw [Int64.toInt_sub, number, Int.bmod_eq_of_le] <;> omega
  rw [Int64.toInt_sub, first, Int64.toInt_one, Int.bmod_eq_of_le] <;> omega

/-- The bounds are exact if and only if the number of the last line that may be shown is a word. -/
theorem exact_iff (positive : 1 ≤ line) (h : 0 ≤ distance)
    : Exact line distance ↔ line + distance.toInt ≤ largest := by
  constructor
  · intro exact
    have upper := (Int64.ofNat line + distance).toInt_lt
    have := exact.behind
    simp only [largest]
    omega
  · intro fits
    have lower := h
    rw [Int64.le_iff_toInt_le, Int64.toInt_zero] at lower
    refine ⟨?_, toInt_before positive (by omega) h⟩
    simp only [largest] at fits
    rw [Int64.toInt_add, Int64.toInt_ofNat_of_lt (by omega), Int.bmod_eq_of_le] <;> omega

/-- Exact bounds are those of the lines within the distance. -/
theorem bounds_of_exact (h : count ≤ largest) (lower : 0 ≤ distance) (exact : Exact line distance)
    : stop count line distance = min count (line + distance.toInt.toNat)
      ∧ start count line distance
        = min (line - distance.toInt.toNat - 1) (stop count line distance) := by
  rw [Int64.le_iff_toInt_le, Int64.toInt_zero] at lower
  have behind : clamp (Int64.ofNat line + distance) = line + distance.toInt.toNat := by
    rw [clamp, exact.behind]
    omega
  have before : clamp (Int64.ofNat line - distance - 1) = line - distance.toInt.toNat - 1 := by
    rw [clamp, exact.before]
    omega
  exact ⟨by rw [stop, clamp_min, clamp_ofNat h, behind, Nat.min_comm], by rw [start, before]⟩

/-- A sum that is no word is taken for a negative number. -/
theorem stop_of_wrapped (within : line ≤ largest) (wraps : largest < line + distance.toInt)
    : stop count line distance = 0 := by
  have upper := distance.toInt_lt
  simp only [largest] at within wraps
  have negative : (Int64.ofNat line + distance).toInt = line + distance.toInt - 2 ^ 64 := by
    rw [Int64.toInt_add, Int64.toInt_ofNat_of_lt (by omega), Int.bmod_eq_emod]
    split <;> omega
  have none : clamp (Int64.ofNat line + distance) = 0 := by
    rw [clamp, negative]
    omega
  rw [stop, clamp_min, none, Nat.zero_min]

-----------------------------------------------------------------------------------------
-- Excerpts
-----------------------------------------------------------------------------------------

variable {text : String} {all : List String}

/-- Between exact bounds, the lines within the distance are shown. -/
theorem excerpt_of_exact (made : MadeOf text all) (short : all.length ≤ largest) (h : 0 ≤ distance)
    (exact : Exact line distance)
    : excerpt text line distance
      = "\n".intercalate (numbered (max 1 (line - distance.toInt.toNat))
          (min all.length (line + distance.toInt.toNat)) all) := by
  obtain ⟨last, first⟩ := bounds_of_exact short h exact
  have skipped : max 1 (line - distance.toInt.toNat) - 1 = line - distance.toInt.toNat - 1 := by
    omega
  rw [excerpt_def, made.lines_eq, numbered_eq, first, last, skipped]
  congr 1
  -- Where the first line lies behind the last one, either bound leaves no line.
  generalize line - distance.toInt.toNat - 1 = before
  generalize min all.length (line + distance.toInt.toNat) = behind
  rcases Nat.le_total before behind with within | past
  · rw [Nat.min_eq_left within]
  · rw [Nat.min_eq_right past, List.drop_eq_nil_of_le, List.drop_eq_nil_of_le]
    · exact (List.length_take_le _ _).trans past
    · exact List.length_take_le _ _

/-- If the bound behind wraps, nothing is shown. -/
theorem excerpt_of_wrapped (within : line ≤ largest) (wraps : largest < line + distance.toInt)
    : excerpt text line distance = "" := by
  rw [excerpt_def, stop_of_wrapped within wraps, List.take_zero, List.drop_nil]
  rfl

/-- An excerpt is made of the lines from `distance` before a line to `distance` behind it, as far as
there are any, if no bound wraps, which is so exactly if the number of the last line that may be
shown is a word. Else nothing is shown. The bounds are those of a part of the lines in either case.
-/
theorem excerpt_eq_numbered (made : MadeOf text all) (short : all.length ≤ largest)
    (positive : 1 ≤ line) (h : 0 ≤ distance)
    : (Exact line distance ↔ line + distance.toInt ≤ largest)
      ∧ (Exact line distance → excerpt text line distance
        = "\n".intercalate (numbered (max 1 (line - distance.toInt.toNat))
            (min all.length (line + distance.toInt.toNat)) all))
      ∧ (line ≤ largest → ¬Exact line distance → excerpt text line distance = "")
      ∧ start all.length line distance ≤ stop all.length line distance
      ∧ stop all.length line distance ≤ all.length := by
  refine ⟨exact_iff positive h, excerpt_of_exact made short h, fun within wraps => ?_,
    bounds_le short⟩
  rw [exact_iff positive h, Int.not_le] at wraps
  exact excerpt_of_wrapped within wraps

/-- The sum of the largest word and one is none. -/
theorem wrapped_maxValue : largest < ((1 : Nat) : Int) + Int64.maxValue.toInt := by
  rw [Int64.toInt_maxValue]
  simp [largest]

/-- The last line is out of sight from the first one, and so is everything at the largest distance.
-/
theorem excerpt_eq_numbered_shelf
    : MadeOf "title: t\nitems: [a, b\nnext: 1" ["title: t", "items: [a, b", "next: 1"]
      ∧ excerpt "title: t\nitems: [a, b\nnext: 1" 1 1 = "title: t\nitems: [a, b"
      ∧ excerpt "title: t\nitems: [a, b\nnext: 1" 1 Int64.maxValue = "" := by
  have made : MadeOf "title: t\nitems: [a, b\nnext: 1" ["title: t", "items: [a, b", "next: 1"] :=
    ⟨rfl, by decide, by simp⟩
  have short : ["title: t", "items: [a, b", "next: 1"].length ≤ largest := by simp [largest]
  have one : (0 : Int64) ≤ 1 := by decide
  have most : 0 ≤ Int64.maxValue := by decide
  have near := excerpt_eq_numbered made short (Nat.le_refl 1) one
  have far := excerpt_eq_numbered made short (Nat.le_refl 1) most
  refine ⟨made, ?_, far.2.2.1 (by simp [largest]) fun exact => ?_⟩
  · rw [near.2.1 (near.1.mpr (by simp [largest])), numbered_eq]
    rfl
  · exact absurd (far.1.mp exact) (Int.not_le.mpr wrapped_maxValue)

/-- At the largest distance there is, the lines of a text are not shown. -/
theorem not_excerpt_eq_numbered
    : ¬∀ (text : String) (all : List String) (line : Nat) (distance : Int64), MadeOf text all
        → all.length ≤ largest → 1 ≤ line → 0 ≤ distance → excerpt text line distance
          = "\n".intercalate (numbered (max 1 (line - distance.toInt.toNat))
              (min all.length (line + distance.toInt.toNat)) all) := by
  intro claimed
  have made : MadeOf "title: t" ["title: t"] := ⟨rfl, by decide, by simp⟩
  have shown := claimed "title: t" ["title: t"] 1 Int64.maxValue made (by simp [largest])
    (Nat.le_refl 1) (by decide)
  rw [excerpt_of_wrapped (by simp [largest]) wrapped_maxValue, numbered_eq] at shown
  exact absurd shown (by decide)

end Raml.Text
