import VariableMetric.Proofs.Validity

/-!
# Values by name

Options are told by name, no name twice. Two sets of values by name are merged with those of the
second winning, and the order in which the names first appeared is kept.

* `OptionName.text`: the names that options go by, and `OptionName.ofText?_eq_some_iff`: there are
  no others.
* `NamedValues`: values by name; `NamedValues.value?` and `NamedValues.names`.
* `NamedValues.merge`: **values over others**, with `value?_merge`, `names_merge` and `merge_assoc`.
* `Entries.ofNamed`: the same values as entries of a dictionary; `foldl_put_ofNamed`: to put values
  one after the other is to merge them.
-/

namespace VariableMetric

/-! ### The names of options -/

namespace OptionName

/-- The name that an option goes by. -/
def text : OptionName → String
  | maxiter => "maxiter"
  | tolx => "tolx"
  | tolfun => "tolfun"
  | backtrack => "backtrack"
  | display => "display"
  | minStep => "min_step"
  | curvatureTol => "curvature_tol"

theorem ofText?_eq_some_iff {s : String} {n : OptionName} : ofText? s = some n ↔ s = n.text := by
  constructor
  · intro h
    unfold ofText? at h
    split at h <;> cases h <;> rfl
  · rintro rfl
    cases n <;> rfl

/-- A text names no option if it is none of their names. -/
theorem isNone_ofText?_iff {s : String} :
    (ofText? s).isNone = true ↔ ∀ n : OptionName, s ≠ n.text := by
  rw [Option.isNone_iff_eq_none, Option.eq_none_iff_forall_ne_some]
  exact forall_congr' fun n => not_congr ofText?_eq_some_iff

theorem text_injective : Function.Injective text := by
  intro m n h
  have hm : ofText? m.text = some m := ofText?_eq_some_iff.2 rfl
  rw [h, ofText?_eq_some_iff.2 rfl] at hm
  exact (Option.some.inj hm).symm

end OptionName

/-! ### Values -/

/-- **Values by name**, in the order in which they are given. No name is given twice. -/
structure NamedValues where
  entries : List (String × Datum)
  nodup : (entries.map (·.1)).Nodup

namespace NamedValues

variable {a b c : NamedValues} {name : String}

theorem ext (h : a.entries = b.entries) : a = b := by
  cases a
  cases b
  cases h
  rfl

/-- The names. -/
def names (a : NamedValues) : List String := a.entries.map (·.1)

/-- The value of a name, if one is given. -/
def value? (a : NamedValues) (name : String) : Option Datum := a.entries.lookup name

/-- Nothing is given. -/
def empty : NamedValues := ⟨[], List.nodup_nil⟩

theorem mem_names : name ∈ a.names ↔ ∃ e ∈ a.entries, e.1 = name := List.mem_map

theorem value?_eq_none_iff : a.value? name = none ↔ name ∉ a.names := by
  simp only [value?, List.lookup_eq_none_iff, mem_names, bne_iff_ne]
  constructor
  · rintro h ⟨e, he, rfl⟩
    exact h e he rfl
  · intro h e he heq
    exact h ⟨e, he, heq.symm⟩

/-- What stands over `a` in `b`: the names of `a`, with the values that `b` has for them. -/
def overlaid (a b : NamedValues) : List (String × Datum) :=
  a.entries.map fun e => (e.1, (b.value? e.1).getD e.2)

/-- What is new in `b`. -/
def added (a b : NamedValues) : List (String × Datum) :=
  b.entries.filter fun e => e.1 ∉ a.names

theorem names_overlaid (a b : NamedValues) : (a.overlaid b).map (·.1) = a.names := by
  rw [overlaid, List.map_map]
  rfl

theorem names_added (a b : NamedValues) :
    (a.added b).map (·.1) = b.names.filter fun name => name ∉ a.names := by
  have hfilter : b.names.filter (fun name => name ∉ a.names) =
      (b.entries.filter fun e => e.1 ∉ a.names).map (·.1) := List.filter_map
  rw [hfilter, added]

/-- **Values over others**: a name in both has the value of the second. -/
def merge (a b : NamedValues) : NamedValues where
  entries := a.overlaid b ++ a.added b
  nodup := by
    rw [List.map_append, names_overlaid, names_added]
    refine List.nodup_append.2 ⟨a.nodup, b.nodup.filter _, ?_⟩
    rintro name hname _ hother rfl
    rw [List.mem_filter, decide_eq_true_eq] at hother
    exact hother.2 hname

theorem names_merge (a b : NamedValues) :
    (a.merge b).names = a.names ++ b.names.filter fun name => name ∉ a.names := by
  rw [names, merge, List.map_append, names_overlaid, names_added]

theorem mem_names_merge : name ∈ (a.merge b).names ↔ name ∈ a.names ∨ name ∈ b.names := by
  rw [names_merge, List.mem_append, List.mem_filter, decide_eq_true_eq]
  by_cases h : name ∈ a.names <;> simp [h]

/-- **The values of a merge**: those of the second win. -/
theorem value?_merge (a b : NamedValues) (name : String) :
    (a.merge b).value? name = (b.value? name).or (a.value? name) := by
  have hoverlaid : (a.overlaid b).lookup name =
      (a.value? name).map fun d => (b.value? name).getD d := by
    unfold overlaid value?
    induction a.entries with
    | nil => rfl
    | cons e l ih =>
      rw [List.map_cons, List.lookup_cons, List.lookup_cons, ih]
      by_cases h : name = e.1
      · simp [h]
      · simp [beq_eq_false_iff_ne.2 h]
  have hadded : name ∉ a.names → (a.added b).lookup name = b.value? name := by
    intro hnew
    unfold added value?
    induction b.entries with
    | nil => rfl
    | cons e l ih =>
      by_cases h : name = e.1
      · rw [List.filter_cons_of_pos (by rw [← h]; exact decide_eq_true hnew), h,
          List.lookup_cons_self, List.lookup_cons_self]
      · rw [List.lookup_cons, beq_eq_false_iff_ne.2 h, ← ih]
        by_cases hold : e.1 ∈ a.names
        · rw [List.filter_cons_of_neg (by simp [hold])]
        · rw [List.filter_cons_of_pos (by simp [hold]), List.lookup_cons,
            beq_eq_false_iff_ne.2 h]
  rw [value?, merge, List.lookup_append, hoverlaid]
  by_cases hname : name ∈ a.names
  · obtain ⟨d, hd⟩ := Option.ne_none_iff_exists'.1 fun h => value?_eq_none_iff.1 h hname
    rw [hd]
    cases b.value? name <;> rfl
  · rw [value?_eq_none_iff.2 hname, hadded hname]
    cases b.value? name <;> rfl

/-- One value. -/
def single (name : String) (d : Datum) : NamedValues := ⟨[(name, d)], List.pairwise_singleton _ _⟩

theorem empty_merge (a : NamedValues) : empty.merge a = a := by
  refine ext ?_
  change [] ++ a.entries.filter (fun _ => true) = a.entries
  rw [List.nil_append, List.filter_true]

/-- One value in front of others, whose names are not its own. -/
theorem single_merge {d : Datum} (h : name ∉ a.names) :
    ((single name d).merge a).entries = (name, d) :: a.entries := by
  have hoverlaid : (single name d).overlaid a = [(name, d)] := by
    change [(name, (a.value? name).getD d)] = [(name, d)]
    rw [value?_eq_none_iff.2 h]
    rfl
  have hadded : (single name d).added a = a.entries := by
    refine List.filter_eq_self.2 fun e he => decide_eq_true fun hmem => h ?_
    have heq : e.1 = name := List.mem_singleton.1 hmem
    exact heq ▸ List.mem_map_of_mem he
  change (single name d).overlaid a ++ (single name d).added a = _
  rw [hoverlaid, hadded]
  rfl

/-- One value over others: in the place of its name, or at the end. -/
theorem merge_single (a : NamedValues) (name : String) (d : Datum) :
    (a.merge (single name d)).entries =
      a.entries.map (fun e => if e.1 = name then (e.1, d) else e) ++
        if name ∈ a.names then [] else [(name, d)] := by
  have hoverlaid : a.overlaid (single name d) =
      a.entries.map fun e => if e.1 = name then (e.1, d) else e := by
    refine List.map_congr_left fun e _ => ?_
    by_cases h : e.1 = name
    · simp [value?, single, h]
    · simp [value?, single, List.lookup_cons, beq_eq_false_iff_ne.2 h, h]
  have hadded : a.added (single name d) = if name ∈ a.names then [] else [(name, d)] := by
    by_cases h : name ∈ a.names <;> simp [added, single, h]
  change a.overlaid (single name d) ++ a.added (single name d) = _
  rw [hoverlaid, hadded]

/-- **To merge is associative**, the order of the names included. -/
theorem merge_assoc (a b c : NamedValues) : (a.merge b).merge c = a.merge (b.merge c) := by
  have hover : ((a.overlaid b).map fun e => (e.1, (c.value? e.1).getD e.2)) =
      a.overlaid (b.merge c) := by
    rw [overlaid, overlaid, List.map_map]
    refine List.map_congr_left fun e _ => ?_
    rw [value?_merge, Function.comp_apply]
    cases c.value? e.1 <;> rfl
  have hnew : ((a.added b).map fun e => (e.1, (c.value? e.1).getD e.2)) =
      (b.overlaid c).filter fun e => e.1 ∉ a.names := by
    rw [added, overlaid, List.filter_map]
    rfl
  have hnewest : (a.merge b).added c = (b.added c).filter fun e => e.1 ∉ a.names := by
    rw [added, added, List.filter_filter]
    refine List.filter_congr fun e _ => ?_
    simp only [mem_names_merge, not_or, Bool.decide_and]
  refine ext ?_
  calc ((a.merge b).merge c).entries
      = (a.overlaid b ++ a.added b).map (fun e => (e.1, (c.value? e.1).getD e.2)) ++
          (a.merge b).added c := rfl
    _ = a.overlaid (b.merge c) ++
          ((b.overlaid c ++ b.added c).filter fun e => e.1 ∉ a.names) := by
        rw [List.map_append, hover, hnew, hnewest, List.filter_append, List.append_assoc]
    _ = (a.merge (b.merge c)).entries := rfl

end NamedValues

/-! ### Values by name as entries -/

/-- Values by name as entries of a dictionary. -/
def Entries.ofNamed (l : List (String × Datum)) : Entries := l.map fun e => (.text e.1, e.2)

namespace Entries

open NamedValues

/-- **To put a value** under a name is to merge it. -/
theorem put_ofNamed (a : NamedValues) (name : String) (d : Datum) :
    Entries.put (ofNamed a.entries) (.text name) d =
      ofNamed (a.merge (single name d)).entries := by
  obtain ⟨l, hl⟩ := a
  induction l with
  | nil => rfl
  | cons e l ih =>
    have hcons : (e.1 :: l.map (·.1)).Nodup := hl
    obtain ⟨hnew, hl'⟩ := List.nodup_cons.1 hcons
    have hput : Entries.put (ofNamed (e :: l)) (.text name) d =
        if e.1 = name then (.text e.1, d) :: ofNamed l
        else (.text e.1, e.2) :: Entries.put (ofNamed l) (.text name) d := by
      change (if (e.1 == name) = true then _ else _) = _
      simp only [beq_iff_eq]
      rfl
    rw [hput, merge_single]
    by_cases h : e.1 = name
    · -- the name is found here, and nowhere else
      have hrest : l.map (fun e' => if e'.1 = name then (e'.1, d) else e') = l := by
        refine (List.map_congr_left fun e' he' => if_neg fun heq => hnew ?_).trans (List.map_id _)
        rw [h, ← heq]
        exact List.mem_map_of_mem he'
      have hmem : name ∈ (⟨e :: l, hl⟩ : NamedValues).names := h ▸ List.mem_cons_self
      rw [if_pos h, if_pos hmem, List.map_cons, if_pos h, hrest, List.append_nil]
      rfl
    · have hmem : name ∈ (⟨e :: l, hl⟩ : NamedValues).names ↔
          name ∈ (⟨l, hl'⟩ : NamedValues).names := by
        refine List.mem_cons.trans (or_iff_right fun heq => h heq.symm)
      rw [if_neg h, ih hl', merge_single, List.map_cons, if_neg h]
      simp only [hmem]
      rfl

/-- **To put values** one after the other is to merge them. -/
theorem foldl_put_ofNamed (a b : NamedValues) :
    b.entries.foldl (fun es e => Entries.put es (.text e.1) e.2) (ofNamed a.entries) =
      ofNamed (a.merge b).entries := by
  obtain ⟨l, hl⟩ := b
  induction l generalizing a with
  | nil =>
    have hnil : (a.merge ⟨[], hl⟩).entries = a.entries := by
      change a.entries.map (fun e => (e.1, e.2)) ++ [] = a.entries
      rw [List.append_nil, List.map_id']
    rw [hnil]
    rfl
  | cons e l ih =>
    have hcons : (e.1 :: l.map (·.1)).Nodup := hl
    obtain ⟨hnew, hl'⟩ := List.nodup_cons.1 hcons
    have hsplit : (single e.1 e.2).merge ⟨l, hl'⟩ = ⟨e :: l, hl⟩ := ext (single_merge hnew)
    rw [List.foldl_cons, put_ofNamed, ih _ hl', merge_assoc, hsplit]

end Entries

end VariableMetric
