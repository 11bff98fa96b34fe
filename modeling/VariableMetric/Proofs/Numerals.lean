import Mathlib.Tactic.IntervalCases
import VariableMetric.Decimal.Printer
import VariableMetric.Decimal.Reader
import VariableMetric.Proofs.Significant

/-!
# Numerals

A number in the general form is a numeral: digits, perhaps with a point among them, and perhaps an
exponent. Read exactly, it is the number that its digits were rounded to.

* `unsigned?`, `numeral?`: **the exact number that a numeral stands for**.
* `Spells`: digits, perhaps with a point, that stand for a number.
* `Spells.trimZeros`: zeros at the end change nothing.
* `unsigned?_generalForm`: **the general form is read as the digits found**.
* `length_generalForm_le`: how long it is at most.
* `plain_generalForm`: it starts with a digit, and no blank is in it.
-/

namespace VariableMetric.Decimal

/-- The exact number that a numeral without a sign stands for. -/
def unsigned? (cs : List Char) : Option ℚ :=
  let whole := cs.takeWhile Char.isDigit
  let (fraction, rest) := match cs.dropWhile Char.isDigit with
    | '.' :: rest => (rest.takeWhile Char.isDigit, rest.dropWhile Char.isDigit)
    | rest => ([], rest)
  if whole.isEmpty && fraction.isEmpty then none
  else (readExponent? rest).map fun e : ℤ =>
    (natOfDigits (whole ++ fraction) : ℚ) * 10 ^ (e - fraction.length)

/-- A number with a sign. -/
def signedBy (negative : Bool) (v : ℚ) : ℚ := if negative then -v else v

/-- **The exact number that a numeral stands for**, `none` if the text is not one. -/
def numeral? (text : String) : Option ℚ :=
  let (negative, body) := signed text.toList
  (unsigned? body).map (signedBy negative)

@[simp] theorem abs_signedBy (negative : Bool) (v : ℚ) : |signedBy negative v| = |v| := by
  unfold signedBy
  split
  · exact abs_neg v
  · rfl

theorem signedBy_sub (negative : Bool) (v w : ℚ) :
    signedBy negative v - signedBy negative w = signedBy negative (v - w) := by
  unfold signedBy
  split
  · ring
  · rfl

/-! ### Digits -/

/-- Nothing but digits. -/
def Digits (cs : List Char) : Prop := ∀ c ∈ cs, c.isDigit = true

theorem Digits.append {cs ds : List Char} (hc : Digits cs) (hd : Digits ds) :
    Digits (cs ++ ds) := by
  intro c h
  rcases List.mem_append.1 h with h | h
  · exact hc c h
  · exact hd c h

theorem digits_replicate_zero (k : ℕ) : Digits (List.replicate k '0') := by
  intro c h
  rw [List.eq_of_mem_replicate h]
  rfl

theorem isDigit_digits (size n : ℕ) : Digits (digits size n) :=
  (digits_replicate_zero _).append fun _ h =>
    Nat.isDigit_of_mem_toDigits (by decide) (by decide) h

theorem length_digits (size n : ℕ) : (digits size n).length = max size (width n) := by
  rw [digits, List.length_append, List.length_replicate]
  change size - width n + width n = _
  omega

theorem natOfDigits_eq (cs : List Char) : natOfDigits cs = Nat.ofDigitChars 10 cs 0 := rfl

/-- **Digits with zeros in front** stand for the number. -/
theorem natOfDigits_digits (size n : ℕ) : natOfDigits (digits size n) = n := by
  rw [natOfDigits_eq, digits, Nat.ofDigitChars_append, Nat.ofDigitChars_replicate_zero, mul_zero,
    Nat.ofDigitChars_ten_toDigits]

/-- One more digit at the end. -/
theorem natOfDigits_concat (cs : List Char) (c : Char) :
    natOfDigits (cs ++ [c]) = 10 * natOfDigits cs + (c.toNat - '0'.toNat) := by
  rw [natOfDigits_eq, Nat.ofDigitChars_append, Nat.ofDigitChars_cons, Nat.ofDigitChars_nil]
  rfl

/-! ### Digits with a point -/

/-- **Digits that stand for a number**, perhaps with a point among them. -/
inductive Spells : List Char → ℚ → Prop
  | whole {ds : List Char} (hne : ds ≠ []) (hds : Digits ds) : Spells ds (natOfDigits ds)
  | pointed {ds fs : List Char} (hne : ds ≠ []) (hds : Digits ds) (hfs : Digits fs) :
      Spells (ds ++ '.' :: fs) (natOfDigits (ds ++ fs) * 10 ^ (-(fs.length : ℤ)))

/-- What can follow digits: nothing at all, or an exponent. -/
def Tail (cs : List Char) : Prop := cs = [] ∨ ∃ rest, cs = 'e' :: rest

theorem Tail.takeWhile {cs : List Char} (h : Tail cs) : cs.takeWhile Char.isDigit = [] := by
  rcases h with rfl | ⟨rest, rfl⟩ <;> rfl

theorem Tail.dropWhile {cs : List Char} (h : Tail cs) : cs.dropWhile Char.isDigit = cs := by
  rcases h with rfl | ⟨rest, rfl⟩ <;> rfl

/-- **Digits are read** up to what follows them. -/
theorem Spells.unsigned? {cs tail : List Char} {v : ℚ} (h : Spells cs v) (ht : Tail tail) :
    unsigned? (cs ++ tail) = (readExponent? tail).map fun e : ℤ => v * 10 ^ e := by
  cases h with
  | whole hne hds =>
    have hpoint : (match cs ++ tail |>.dropWhile Char.isDigit with
        | '.' :: rest => (rest.takeWhile Char.isDigit, rest.dropWhile Char.isDigit)
        | rest => ([], rest)) = ([], tail) := by
      rw [List.dropWhile_append_of_pos hds, ht.dropWhile]
      rcases ht with rfl | ⟨rest, rfl⟩ <;> rfl
    unfold Decimal.unsigned?
    simp only [hpoint, List.takeWhile_append_of_pos hds, ht.takeWhile, List.append_nil]
    simp [hne]
  | @pointed ds fs hne hds hfs =>
    have hwhole : (ds ++ '.' :: fs ++ tail).takeWhile Char.isDigit = ds := by
      rw [List.append_assoc, List.takeWhile_append_of_pos hds]
      simp
    have hrest : (ds ++ '.' :: fs ++ tail).dropWhile Char.isDigit = '.' :: (fs ++ tail) := by
      rw [List.append_assoc, List.dropWhile_append_of_pos hds]
      rfl
    have hmap : (fun e : ℤ => (natOfDigits (ds ++ fs) : ℚ) * 10 ^ (e - fs.length)) =
        fun e : ℤ => (natOfDigits (ds ++ fs) : ℚ) * 10 ^ (-(fs.length : ℤ)) * 10 ^ e := by
      funext e
      rw [mul_assoc, ← zpow_add₀ (by norm_num), neg_add_eq_sub]
    unfold Decimal.unsigned?
    simp only [hwhole, hrest, List.takeWhile_append_of_pos hfs, List.dropWhile_append_of_pos hfs,
      ht.takeWhile, ht.dropWhile, List.append_nil, hmap]
    simp [hne]

/-- **Zeros at the end** change nothing, and the point before them neither. -/
theorem Spells.trimZeros {ds fs : List Char} (hne : ds ≠ []) (hds : Digits ds) (hfs : Digits fs) :
    Spells (trimZeros (ds ++ '.' :: fs)) (natOfDigits (ds ++ fs) * 10 ^ (-(fs.length : ℤ))) := by
  -- by induction on the digits after the point, from the last one back
  induction fs using List.reverseRecOn with
  | nil =>
    have htrim : Decimal.trimZeros (ds ++ ['.']) = ds := by simp [Decimal.trimZeros]
    rw [htrim]
    simpa using Spells.whole hne hds
  | append_singleton fs c ih =>
    have hfs' : Digits fs := fun d hd => hfs d (List.mem_append_left _ hd)
    have hc : c.isDigit = true := hfs c (by simp)
    by_cases hzero : c = '0'
    · have htrim : Decimal.trimZeros (ds ++ '.' :: (fs ++ [c])) =
          Decimal.trimZeros (ds ++ '.' :: fs) := by
        simp [Decimal.trimZeros, hzero]
      have hvalue : (natOfDigits (ds ++ (fs ++ [c])) : ℚ) * 10 ^ (-((fs ++ [c]).length : ℤ)) =
          natOfDigits (ds ++ fs) * 10 ^ (-(fs.length : ℤ)) := by
        rw [← List.append_assoc, natOfDigits_concat, hzero, List.length_append]
        push_cast
        rw [neg_add, zpow_add₀ (by norm_num)]
        norm_num
        ring
      rw [htrim, hvalue]
      exact ih hfs'
    · have hpoint : c ≠ '.' := by
        rintro rfl
        cases hc
      have htrim : Decimal.trimZeros (ds ++ '.' :: (fs ++ [c])) = ds ++ '.' :: (fs ++ [c]) := by
        simp [Decimal.trimZeros, hzero, hpoint]
      rw [htrim]
      exact .pointed hne hds hfs

theorem length_trimZeros_le (cs : List Char) : (trimZeros cs).length ≤ cs.length := by
  have hdrop := (List.dropWhile_sublist (· = '0') (l := cs.reverse)).length_le
  rw [List.length_reverse] at hdrop
  unfold trimZeros
  dsimp only
  split
  · rw [List.length_reverse, List.length_drop]
    omega
  · rwa [List.length_reverse]

/-- The digits of the general form before any exponent. -/
def mantissa (places : ℕ) (ds : List Char) : List Char :=
  if places = 0 then ds else trimZeros (pointed false places ds)

theorem spells_mantissa {places : ℕ} {ds : List Char} (hds : Digits ds) (h : places < ds.length) :
    Spells (mantissa places ds) (natOfDigits ds * 10 ^ (-(places : ℤ))) := by
  unfold mantissa
  by_cases hplaces : places = 0
  · have hne : ds ≠ [] := List.ne_nil_of_length_pos (by omega)
    rw [if_pos hplaces, hplaces]
    simpa using Spells.whole hne hds
  · have hpointed : pointed false places ds =
        ds.take (ds.length - places) ++ '.' :: ds.drop (ds.length - places) := by
      simp [pointed, hplaces]
    have hne : ds.take (ds.length - places) ≠ [] := by
      refine List.ne_nil_of_length_pos ?_
      rw [List.length_take]
      omega
    have hlength : (ds.drop (ds.length - places)).length = places := by
      rw [List.length_drop]
      omega
    have hwhole : Digits (ds.take (ds.length - places)) :=
      fun c hc => hds c (List.mem_of_mem_take hc)
    have hfraction : Digits (ds.drop (ds.length - places)) :=
      fun c hc => hds c (List.mem_of_mem_drop hc)
    have htrim := Spells.trimZeros hne hwhole hfraction
    rw [List.take_append_drop, hlength] at htrim
    rwa [if_neg hplaces, hpointed]

theorem length_mantissa_le {places : ℕ} {ds : List Char} (h : places < ds.length) :
    (mantissa places ds).length ≤ ds.length + 1 := by
  unfold mantissa
  by_cases hplaces : places = 0
  · rw [if_pos hplaces]
    omega
  · rw [if_neg hplaces]
    refine (length_trimZeros_le _).trans ?_
    simp only [pointed, hplaces, decide_false, Bool.false_and, Bool.false_eq_true, if_false,
      List.length_append, List.length_take, List.length_cons, List.length_drop]
    omega

/-! ### Exponents -/

/-- **An exponent is read** as it was written. -/
theorem readExponent?_exponentText (e : ℤ) : readExponent? (exponentText e) = some e := by
  have hne : (digits 2 e.natAbs).isEmpty = false := by
    rw [List.isEmpty_eq_false_iff, ← List.length_pos_iff, length_digits]
    omega
  have hall : (digits 2 e.natAbs).all Char.isDigit = true :=
    List.all_eq_true.2 (isDigit_digits 2 _)
  rcases lt_or_ge e 0 with he | he
  · have htext : exponentText e = 'e' :: '-' :: digits 2 e.natAbs := by
      rw [exponentText, if_pos he]
    simp [htext, readExponent?, signed, hne, hall, natOfDigits_digits, abs_of_neg he]
  · have htext : exponentText e = 'e' :: '+' :: digits 2 e.natAbs := by
      rw [exponentText, if_neg he.not_gt]
    simp [htext, readExponent?, signed, hne, hall, natOfDigits_digits, abs_of_nonneg he]

theorem length_exponentText_le {e : ℤ} (h : e.natAbs < 1000) : (exponentText e).length ≤ 5 := by
  have hwidth : width e.natAbs ≤ 3 := width_le (by decide) h
  simp only [exponentText, List.length_cons, length_digits]
  omega

theorem tail_exponentText (e : ℤ) : Tail (exponentText e) := .inr ⟨_, rfl⟩

/-! ### The general form -/

variable {count c : ℕ} {e : ℤ}

/-- The general form of digits that are found already. -/
def generalForm (count c : ℕ) (e : ℤ) : List Char :=
  if e < -4 ∨ (count : ℤ) ≤ e then mantissa (count - 1) (digits count c) ++ exponentText e
  else
    let places := ((count : ℤ) - 1 - e).toNat
    mantissa places (digits (places + 1) c)

theorem generalDigits_eq (hcount : 0 < count) (num den : ℕ) :
    generalDigits false count num den =
      generalForm count (leading count num den).1 (leading count num den).2 := by
  have hmax : max count 1 = count := by omega
  have hmantissa (places : ℕ) (ds : List Char) :
      (if (false || decide (places = 0)) = true then pointed false places ds
        else trimZeros (pointed false places ds)) = mantissa places ds := by
    simp only [Bool.false_or, decide_eq_true_eq, mantissa]
    split
    · simp [pointed, *]
    · rfl
  unfold generalDigits generalForm
  simp only [hmax, hmantissa]

/-- **The general form is digits**, with an exponent after them or not. -/
theorem generalForm_spells (hcount : 0 < count) (c : ℕ) (e : ℤ) :
    ∃ cs, Spells cs (c * 10 ^ (-((count - 1 : ℕ) : ℤ))) ∧
        generalForm count c e = cs ++ exponentText e ∨
      Spells cs (c * 10 ^ (e - (count - 1 : ℕ))) ∧ generalForm count c e = cs := by
  unfold generalForm
  split
  · have hlength : count - 1 < (digits count c).length := by
      rw [length_digits]
      omega
    have hspells := spells_mantissa (isDigit_digits count c) hlength
    rw [natOfDigits_digits] at hspells
    exact ⟨_, .inl ⟨hspells, rfl⟩⟩
  · have hplaces : -((((count : ℤ) - 1 - e).toNat : ℕ) : ℤ) = e - ((count - 1 : ℕ) : ℤ) := by omega
    have hlength : ((count : ℤ) - 1 - e).toNat <
        (digits (((count : ℤ) - 1 - e).toNat + 1) c).length := by
      rw [length_digits]
      omega
    have hspells := spells_mantissa (isDigit_digits _ c) hlength
    rw [natOfDigits_digits, hplaces] at hspells
    exact ⟨_, .inr ⟨hspells, rfl⟩⟩

/-- **The general form is read** as the digits that it was made of. -/
theorem unsigned?_generalForm (hcount : 0 < count) (c : ℕ) (e : ℤ) :
    unsigned? (generalForm count c e) = some ((c : ℚ) * 10 ^ (e - (count - 1 : ℕ))) := by
  obtain ⟨cs, ⟨hspells, htext⟩ | ⟨hspells, htext⟩⟩ := generalForm_spells hcount c e
  · rw [htext, hspells.unsigned? (tail_exponentText e), readExponent?_exponentText,
      Option.map_some, mul_assoc, ← zpow_add₀ (by norm_num), neg_add_eq_sub]
  · have hread := hspells.unsigned? (show Tail [] from .inl rfl)
    rw [List.append_nil] at hread
    rw [htext, hread]
    simp [readExponent?]

/-- **How long the general form is**: with an exponent of three digits it is the longest. -/
theorem length_generalForm_le (hcount : 0 < count) (hc : c < 10 ^ count) (he : e.natAbs < 1000) :
    (generalForm count c e).length ≤ count + 6 := by
  have hwidth : width c ≤ count := width_le hcount hc
  unfold generalForm
  split
  · have hlength : (digits count c).length = max count (width c) := length_digits count c
    have hmantissa := length_mantissa_le (show count - 1 < (digits count c).length by omega)
    have hexponent := length_exponentText_le he
    rw [List.length_append]
    omega
  · dsimp only
    set places := ((count : ℤ) - 1 - e).toNat with hplaces
    have hlength : (digits (places + 1) c).length = max (places + 1) (width c) := length_digits _ c
    have hmantissa := length_mantissa_le (show places < (digits (places + 1) c).length by omega)
    omega

/-! ### Characters -/

/-- The characters of numerals. -/
def Plain (c : Char) : Prop := c.isDigit = true ∨ c ∈ ['.', 'e', '+', '-']

theorem Plain.not_blank {c : Char} (h : Plain c) : Text.isBlank c = false := by
  rcases h with hdigit | hother
  · have hrange : 48 ≤ c.toNat ∧ c.toNat ≤ 57 := by
      simpa [Char.isDigit, UInt32.le_iff_toNat_le] using hdigit
    unfold Text.isBlank
    generalize c.toNat = k at hrange
    obtain ⟨hlow, hhigh⟩ := hrange
    interval_cases k <;> decide
  · revert hother
    simp only [List.mem_cons, List.not_mem_nil, or_false]
    rintro (rfl | rfl | rfl | rfl) <;> decide

theorem Spells.plain {cs : List Char} {v : ℚ} (h : Spells cs v) : ∀ c ∈ cs, Plain c := by
  cases h with
  | whole _ hds => exact fun c hc => .inl (hds c hc)
  | pointed _ hds hfs =>
    intro c hc
    rcases List.mem_append.1 hc with hc | hc
    · exact .inl (hds c hc)
    · rcases List.mem_cons.1 hc with rfl | hc
      · exact .inr (by simp)
      · exact .inl (hfs c hc)

theorem Spells.exists_cons {cs : List Char} {v : ℚ} (h : Spells cs v) :
    ∃ d ds, cs = d :: ds ∧ d.isDigit = true := by
  have hfirst {ds : List Char} (hne : ds ≠ []) (hds : Digits ds) :
      ∃ d rest, ds = d :: rest ∧ d.isDigit = true := by
    obtain ⟨d, rest, rfl⟩ := List.exists_cons_of_ne_nil hne
    exact ⟨d, rest, rfl, hds d List.mem_cons_self⟩
  cases h with
  | whole hne hds => exact hfirst hne hds
  | pointed hne hds _ =>
    obtain ⟨d, rest, rfl, hd⟩ := hfirst hne hds
    exact ⟨d, _, rfl, hd⟩

theorem plain_exponentText (e : ℤ) : ∀ c ∈ exponentText e, Plain c := by
  intro c hc
  unfold exponentText at hc
  rcases List.mem_cons.1 hc with rfl | hc
  · exact .inr (by simp)
  rcases List.mem_cons.1 hc with rfl | hc
  · split
    · exact .inr (by simp)
    · exact .inr (by simp)
  · exact .inl (isDigit_digits 2 _ c hc)

/-- **The general form** starts with a digit, and no blank is in it. -/
theorem plain_generalForm (hcount : 0 < count) (c : ℕ) (e : ℤ) :
    (∃ d ds, generalForm count c e = d :: ds ∧ d.isDigit = true) ∧
      ∀ d ∈ generalForm count c e, Plain d := by
  obtain ⟨cs, ⟨hspells, htext⟩ | ⟨hspells, htext⟩⟩ := generalForm_spells hcount c e
  · rw [htext]
    obtain ⟨d, ds, rfl, hd⟩ := hspells.exists_cons
    refine ⟨⟨d, _, rfl, hd⟩, fun d hd => ?_⟩
    rcases List.mem_append.1 hd with hd | hd
    · exact hspells.plain d hd
    · exact plain_exponentText e d hd
  · rw [htext]
    exact ⟨hspells.exists_cons, hspells.plain⟩

/-- The sign before digits is taken off. -/
theorem signed_digits (negative : Bool) {d : Char} (hd : d.isDigit = true) (ds : List Char) :
    signed (if negative then '-' :: d :: ds else d :: ds) = (negative, d :: ds) := by
  cases negative with
  | true => rfl
  | false =>
    rw [if_neg (by decide)]
    unfold signed
    split
    · rename_i h
      cases h
      cases hd
    · rename_i h
      cases h
      cases hd
    · rfl

end VariableMetric.Decimal
