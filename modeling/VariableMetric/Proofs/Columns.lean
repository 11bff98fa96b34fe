import VariableMetric.Proofs.Printed
import VariableMetric.Report.Figures

/-!
# The rows of the table

A line of the table is made of columns of fixed sizes, with two blanks between them. Texts that fit
their columns end where the headings do, and are found again by splitting the line at blanks.

* `Text.words`: **a text split at blanks**; `Text.Word`: one piece.
* `Report.Cell`: a text that fits its column, `Report.line`: a line of them.
* `Report.EndsAt`: where a text ends in a line.
* `Report.words_line`, `Report.endsAt_line`: **the texts of a line are its words, each at its
  place**.
* `Report.Tabulated`: what a row has to be, `Report.Figures.tabulated_row`: it is so.
-/

namespace VariableMetric

namespace Text

/-- **The words of a text**: it is split at blanks, and empty pieces are dropped. -/
def words (cs : List Char) : List (List Char) := (cs.splitOnP isBlank).filter (· ≠ [])

/-- Not empty, and without a blank. -/
structure Word (cs : List Char) : Prop where
  ne_nil : cs ≠ []
  not_blank : ∀ c ∈ cs, isBlank c = false

/-- **Words split at a blank.** -/
theorem words_append_blank {c : Char} (hc : isBlank c = true) (cs ds : List Char) :
    words (cs ++ c :: ds) = words cs ++ words ds := by
  unfold words
  rw [List.splitOnP_append_cons cs ds hc, List.filter_append]

theorem Word.words {cs : List Char} (h : Word cs) : words cs = [cs] := by
  unfold Text.words
  rw [List.splitOnP_eq_singleton h.not_blank]
  simp [h.ne_nil]

/-- Blanks in front of a text belong to no word. -/
theorem words_replicate_append (k : ℕ) (cs : List Char) :
    words (List.replicate k ' ' ++ cs) = words cs := by
  induction k with
  | zero => rfl
  | succ k ih =>
    have hsplit := words_append_blank (c := ' ') (by decide) [] (List.replicate k ' ' ++ cs)
    rw [List.replicate_succ, List.cons_append]
    exact hsplit.trans ih

end Text

namespace Report

open Text (isBlank words Word)

/-! ### Lines -/

/-- A text that fits its column. -/
structure Cell where
  size : ℕ
  text : String
  fits : text.length ≤ size

/-- The text at the right end of its column. -/
def Cell.padded (c : Cell) : List Char := (Decimal.padLeft c.size c.text).toList

theorem Cell.padded_eq (c : Cell) :
    c.padded = List.replicate (c.size - c.text.length) ' ' ++ c.text.toList := by
  rw [padded, Decimal.padLeft, String.toList_append, String.toList_ofList]

/-- A column has its size. -/
@[simp] theorem Cell.length_padded (c : Cell) : c.padded.length = c.size := by
  rw [padded_eq, List.length_append, List.length_replicate, String.length_toList]
  exact Nat.sub_add_cancel c.fits

/-- Columns with two blanks between them. -/
def line (cells : List Cell) : List Char := [' ', ' '].intercalate (cells.map Cell.padded)

/-- Where the columns of a line end that have the given sizes, the first at `start`. -/
def ends (start : ℕ) : List ℕ → List ℕ
  | [] => []
  | size :: sizes => (start + size) :: ends (start + size + 2) sizes

theorem line_cons_cons (c d : Cell) (cells : List Cell) :
    line (c :: d :: cells) = c.padded ++ ' ' :: ' ' :: line (d :: cells) := by
  simp [line, List.intercalate_cons_cons]

theorem line_singleton (c : Cell) : line [c] = c.padded := List.intercalate_singleton

/-- **Lines of columns of the same sizes** are of the same length. -/
theorem length_line (cells : List Cell) :
    (line cells).length = (cells.map Cell.size).sum + 2 * (cells.length - 1) := by
  induction cells with
  | nil => rfl
  | cons c cells ih =>
    cases cells with
    | nil => simp [line_singleton]
    | cons d cells =>
      rw [line_cons_cons, List.length_append, List.length_cons, List.length_cons, ih]
      simp only [Cell.length_padded, List.map_cons, List.sum_cons, List.length_cons]
      omega

/-- **The words of a line** are its texts. -/
theorem words_line {cells : List Cell} (h : ∀ c ∈ cells, Word c.text.toList) :
    words (line cells) = cells.map (·.text.toList) := by
  have hpadded {c : Cell} (hc : Word c.text.toList) : words c.padded = [c.text.toList] := by
    rw [c.padded_eq, Text.words_replicate_append, hc.words]
  induction cells with
  | nil => rfl
  | cons c cells ih =>
    have hc := hpadded (h c List.mem_cons_self)
    cases cells with
    | nil => rw [line_singleton, hc]; rfl
    | cons d cells =>
      have hrest := ih fun c hc => h c (List.mem_cons_of_mem _ hc)
      have hblank : isBlank ' ' = true := by decide
      have hskip := Text.words_replicate_append 1 (line (d :: cells))
      rw [line_cons_cons, Text.words_append_blank hblank, hc]
      exact congrArg (c.text.toList :: ·) (hskip.trans hrest)

/-! ### Places -/

/-- **A text ends at a place of a line**, with nothing or a blank on either side. -/
def EndsAt (line text : List Char) (place : ℕ) : Prop :=
  ∃ before after, line = before ++ text ++ after ∧ (before ++ text).length = place ∧
    (∀ c ∈ before.getLast?, isBlank c = true) ∧ ∀ c ∈ after.head?, isBlank c = true

/-- A column ends where it should, whatever stands before and after it. -/
theorem Cell.endsAt (c : Cell) (before after : List Char)
    (hbefore : ∀ d ∈ before.getLast?, isBlank d = true)
    (hafter : ∀ d ∈ after.head?, isBlank d = true) :
    EndsAt (before ++ (c.padded ++ after)) c.text.toList (before.length + c.size) := by
  refine ⟨before ++ List.replicate (c.size - c.text.length) ' ', after, ?_, ?_, ?_, hafter⟩
  · simp [c.padded_eq]
  · rw [List.append_assoc, ← c.padded_eq, List.length_append, c.length_padded]
  · -- the last character before the text is a blank of the column, or stood before the column
    intro d hd
    rw [List.getLast?_append, List.getLast?_replicate] at hd
    split at hd
    · exact hbefore d hd
    · cases hd
      decide

/-- **The texts of a line end** where its columns do. -/
theorem endsAt_line (cells : List Cell) (before : List Char)
    (hbefore : ∀ c ∈ before.getLast?, isBlank c = true) :
    List.Forall₂ (EndsAt (before ++ line cells)) (cells.map (·.text.toList))
      (ends before.length (cells.map Cell.size)) := by
  -- by induction on the columns; what stands before them grows by one and the two blanks after it
  induction cells generalizing before with
  | nil => exact .nil
  | cons c cells ih =>
    cases cells with
    | nil =>
      have hlast := c.endsAt before [] hbefore (by simp)
      rw [List.append_nil] at hlast
      rw [line_singleton]
      exact .cons hlast .nil
    | cons d cells =>
      have hblank : isBlank ' ' = true := by decide
      have hfirst := c.endsAt before (' ' :: ' ' :: line (d :: cells)) hbefore (by simpa)
      have hrest := ih (before ++ c.padded ++ [' ', ' ']) (by simpa)
      have hlength : (before ++ c.padded ++ [' ', ' ']).length = before.length + c.size + 2 := by
        simp [Nat.add_assoc]
      have hline : before ++ c.padded ++ [' ', ' '] ++ line (d :: cells) =
          before ++ (c.padded ++ ' ' :: ' ' :: line (d :: cells)) := by
        simp
      rw [hlength, hline] at hrest
      rw [line_cons_cons]
      exact .cons hfirst hrest

/-! ### Rows -/

/-- The headings of the columns. -/
def headings : List String := ["Iters", "Fval", "Fval.ch", "1st-ord norm", "backtracks"]

/-- Where the columns of the table end. -/
def columnEnds : List ℕ := ends 0 [7, 15, 15, 15, 10]

example : columnEnds = [7, 24, 41, 58, 70] := by decide

/-- Five texts that fit the columns of the table. -/
structure Fitting (iteration value change gradNorm backtracks : String) : Prop where
  iteration : iteration.length ≤ 7
  value : value.length ≤ 15
  change : change.length ≤ 15
  gradNorm : gradNorm.length ≤ 15
  backtracks : backtracks.length ≤ 10

section Fitting

variable {iteration value change gradNorm backtracks : String}

/-- The columns of the table, with texts that fit them. -/
def Fitting.cells (h : Fitting iteration value change gradNorm backtracks) : List Cell :=
  [⟨7, iteration, h.iteration⟩, ⟨15, value, h.value⟩, ⟨15, change, h.change⟩,
    ⟨15, gradNorm, h.gradNorm⟩, ⟨10, backtracks, h.backtracks⟩]

theorem Fitting.toList_columns (h : Fitting iteration value change gradNorm backtracks) :
    (columns iteration value change gradNorm backtracks).toList = line h.cells := by
  rw [columns, String.toList_intercalate]
  rfl

/-- **Five texts that fit** make a line of seventy characters, each ending at its place. -/
theorem Fitting.columns (h : Fitting iteration value change gradNorm backtracks) :
    (columns iteration value change gradNorm backtracks).length = 70 ∧
      List.Forall₂ (EndsAt (columns iteration value change gradNorm backtracks).toList)
        ([iteration, value, change, gradNorm, backtracks].map String.toList) columnEnds := by
  have hlength : (line h.cells).length = 70 := by
    rw [length_line]
    rfl
  have hends := endsAt_line h.cells [] (by simp)
  rw [List.nil_append] at hends
  rw [← String.length_toList, h.toList_columns]
  exact ⟨hlength, hends⟩

end Fitting

theorem fitting_headings : Fitting "Iters" "Fval" "Fval.ch" "1st-ord norm" "backtracks" :=
  ⟨by decide, by decide, by decide, by decide, by decide⟩

/-- The headings end at the places of their columns. -/
theorem header_columns :
    header.length = 70 ∧
      List.Forall₂ (EndsAt header.toList) (headings.map String.toList) columnEnds :=
  fitting_headings.columns

/-! ### Fields -/

/-- A natural number in decimal is a word, of no more characters than it has digits. -/
theorem word_toString {n : ℤ} {k : ℕ} (hk : 0 < k) (hn : 0 ≤ n) (h : n < 10 ^ k) :
    Word (toString n).toList ∧ (toString n).length ≤ k := by
  obtain ⟨m, rfl⟩ := Int.eq_ofNat_of_zero_le hn
  have htext : toString (m : ℤ) = String.ofList (Nat.toDigits 10 m) := rfl
  have hm : m < 10 ^ k := by exact_mod_cast h
  rw [htext, String.toList_ofList, String.length_ofList]
  refine ⟨⟨?_, fun c hc => ?_⟩, Decimal.width_le hk hm⟩
  · exact List.ne_nil_of_length_pos Nat.length_toDigits_pos
  · exact Decimal.Plain.not_blank
      (.inl (Nat.isDigit_of_mem_toDigits (by decide) (by decide) hc))

/-- **A field that stands for a double**: if the double is finite, the field is a numeral, and at
most half a unit of the sixth significant digit away from the exact value. -/
def StandsFor (field : String) (x : Float) : Prop :=
  Scalar.isFinite x = true → ∃ v w, Double.exactValue? x = some v ∧
    Decimal.numeral? field = some w ∧ |w - v| ≤ Decimal.lastUnit 6 v / 2

/-- Six significant digits are one word of at most thirteen characters that stands for the
double. -/
theorem sixDigits_spec (x : Float) :
    Word (sixDigits x).toList ∧ (sixDigits x).length ≤ 13 ∧ StandsFor (sixDigits x) x := by
  have hprinted : Decimal.Printed 6 x (sixDigits x) := Decimal.printed_general (by decide) x
  obtain ⟨hne, hblank⟩ := hprinted.word (by decide)
  refine ⟨⟨hne, hblank⟩, hprinted.length_le (by decide), fun hfinite => ?_⟩
  rw [← Double.isSome_exactValue?] at hfinite
  obtain ⟨v, hv⟩ := Option.isSome_iff_exists.1 hfinite
  obtain ⟨w, hw, hclose⟩ := hprinted.numeral? (by decide) hv
  exact ⟨v, w, hv, hw, hclose⟩

/-- **What a row of figures has to be**: as wide as the header, with five fields at the places of
their headings that are found by splitting it at blanks. -/
structure Tabulated (f : Figures) (row : String) : Prop where
  width : row.length = header.length
  fields : ∃ value change gradNorm : String,
    words row.toList =
      [toString f.iteration, value, change, gradNorm, toString f.backtracks].map String.toList ∧
    List.Forall₂ (EndsAt row.toList)
      ([toString f.iteration, value, change, gradNorm, toString f.backtracks].map String.toList)
      columnEnds ∧
    StandsFor value f.value ∧ StandsFor change f.change ∧ StandsFor gradNorm f.gradNorm

/-- **Every row is what it has to be**, as long as the two counts fit their columns. -/
theorem Figures.tabulated_row (f : Figures) (hiteration : 0 ≤ f.iteration)
    (hiteration' : f.iteration < 10 ^ 7) (hbacktracks : 0 ≤ f.backtracks)
    (hbacktracks' : f.backtracks < 10 ^ 10) : Tabulated f f.row := by
  obtain ⟨hword, hlength⟩ := word_toString (by decide) hiteration hiteration'
  obtain ⟨hword', hlength'⟩ := word_toString (by decide) hbacktracks hbacktracks'
  obtain ⟨hvalue, hvalueLength, hvalueStands⟩ := sixDigits_spec f.value
  obtain ⟨hchange, hchangeLength, hchangeStands⟩ := sixDigits_spec f.change
  obtain ⟨hnorm, hnormLength, hnormStands⟩ := sixDigits_spec f.gradNorm
  have hfit : Fitting (toString f.iteration) (sixDigits f.value) (sixDigits f.change)
      (sixDigits f.gradNorm) (toString f.backtracks) :=
    ⟨hlength, by omega, by omega, by omega, hlength'⟩
  obtain ⟨hwidth, hends⟩ := hfit.columns
  have hwords : ∀ c ∈ hfit.cells, Word c.text.toList := by
    simp only [Fitting.cells, List.forall_mem_cons, List.not_mem_nil, false_imp_iff, implies_true,
      and_true]
    exact ⟨hword, hvalue, hchange, hnorm, hword'⟩
  refine ⟨hwidth.trans header_columns.1.symm, _, _, _, ?_, hends, hvalueStands, hchangeStands,
    hnormStands⟩
  rw [row, hfit.toList_columns, words_line hwords]
  rfl

/-- A value that is rounded up to the next power of ten, no change, and the smallest double. -/
example : (⟨12, 999999.5, Binary.nan, 5e-324, 7⟩ : Figures).row =
    "     12            1e+06              nan     4.94066e-324           7" := by
  decide +kernel

end Report

end VariableMetric
