import VariableMetric.Proofs.Thresholds

/-!
# The level that loggers obey

Whether a message comes out depends on what its logger decides, by its own level or that of the
nearest logger above that has one, on what it decided before, and on its handler. Where the package
alone sets up loggers, all of this comes down to the level that was set last.

* `Registry.Clear`: **only loggers handed out have levels**, and the root has that of warnings;
  `Registry.Clear.act`.
* `Registry.Clear.effectiveLevel_eq`: the level that decides is the one that was set, and that of
  the root if zero was set.
* `Registry.Obeys`: **the level set last is obeyed**, in decisions made already too;
  `Registry.Clear.obeys` and `Registry.Obeys.act`.
* `Registry.Obeys.log_eq`: what comes of a message.
* `render?_default`: the default template shows every record.
* `level_obeyed`: **after a level is set**, whatever was done before.
-/

namespace VariableMetric.Logging

/-- No handler is attached from outside. -/
def Deed.Inside : Deed → Prop
  | .attach _ _ => False
  | _ => True

/-- No level is set and no handler replaced. -/
def Deed.Quiet : Deed → Prop
  | .command (.get _) => True
  | .message _ _ _ => True
  | _ => False

/-- **The level that decides** where one is set: that of the root, warnings, if it is zero. -/
def decisive (level : Level) : Level := if level = 0 then warning else level

/-- A message of level `m` is taken where this level is set. -/
def taken (level m : Level) : Bool := 0 < m && decisive level ≤ m

/-- A logger that has decided once more. -/
def Logger.remember (e : Level × Bool) (l : Logger) : Logger :=
  { l with decisions := e :: l.decisions }

/-- The loggers on the way up are those of the tree, with the root at the end. -/
theorem Tree.lineage_eq (t : Tree) (root : Logger) (limit : Nat) (name : Option String) :
    ∃ ls, t.lineage root limit name = ls ++ [root] ∧
      ∀ l ∈ ls, ∃ above, t.logger? above = some l := by
  induction limit generalizing name with
  | zero => exact ⟨[], by simp [lineage], by simp⟩
  | succ limit ih =>
    cases name with
    | none => exact ⟨[], by simp [lineage], by simp⟩
    | some name =>
      cases hl : t.logger? name with
      | none => exact ⟨[], by simp [lineage, hl], by simp⟩
      | some l =>
        obtain ⟨ls, hls, hall⟩ := ih l.parent
        refine ⟨l :: ls, by simp [lineage, hl, hls], fun l' hmem => ?_⟩
        rcases List.mem_cons.1 hmem with rfl | hmem
        · exact ⟨name, hl⟩
        · exact hall l' hmem

namespace Registry

variable {r r' : Registry} {c : Command} {outcome : Outcome} {d : Deed} {level m : Level}
  {full name : String}

section Changes

/-- Of the loggers below the root, one is changed at most. -/
theorem logger_modify (r : Registry) (name : String) (f : Logger → Logger) {other : String}
    (hroot : isRoot other = false) :
    (r.modify name f).logger other = r.logger other ∨
      name = other ∧ (r.modify name f).logger other = f (r.logger other) := by
  unfold modify
  split
  · left
    simp only [logger, hroot, Bool.false_eq_true, if_false]
  · cases hl : r.tree.logger? name with
    | none => exact .inl rfl
    | some l =>
      simp only [logger, hroot, Bool.false_eq_true, if_false]
      rw [Tree.logger?_put]
      by_cases ho : name = other
      · subst ho
        rw [if_pos rfl, hl]
        exact .inr ⟨rfl, rfl⟩
      · rw [if_neg ho]
        exact .inl rfl

/-- What changes nothing that is set up of a logger changes it of none. -/
theorem outfit_modify_same {f : Logger → Logger} (hf : ∀ l, (f l).outfit = l.outfit)
    (r : Registry) (name other : String) : (r.modify name f).outfit other = r.outfit other := by
  cases hroot : isRoot other with
  | false =>
    rcases logger_modify r name f hroot with h | ⟨-, h⟩
    · exact congrArg Logger.outfit h
    · exact (congrArg Logger.outfit h).trans (hf _)
  | true =>
    rw [outfit_of_root hroot, outfit_of_root hroot]
    unfold modify
    split
    · exact hf _
    · split <;> rfl

theorem decisions_forget (r : Registry) (name : String) :
    (r.forget.logger name).decisions = [] := by
  unfold logger forget
  dsimp only
  split
  · rfl
  · rw [Tree.logger?_mapLoggers]
    cases r.tree.logger? name <;> rfl

/-- To change the loggers handed out makes them forget. -/
theorem decisions_mapCached (hr : r.Placed) {f : Logger → Logger}
    (hf : ∀ l, (f l).decisions = l.decisions) (hmem : full ∈ r.cached) :
    ((r.mapCached f).logger full).decisions = [] := by
  obtain ⟨hroot, l, hl⟩ := hr full hmem
  have hne : r.cached.isEmpty = false := by
    rw [← Bool.not_eq_true, List.isEmpty_iff]
    rintro hempty
    rw [hempty] at hmem
    cases hmem
  -- what was decided goes before `f` comes, which adds nothing to it
  have hforget := decisions_forget r full
  unfold mapCached
  unfold logger at hforget ⊢
  simp only [hne, hroot, Bool.false_eq_true, if_false] at hforget ⊢
  rw [Tree.logger?_mapLoggers]
  cases hfl : r.forget.tree.logger? full with
  | none => rfl
  | some l' =>
    rw [hfl] at hforget
    simp only [Option.map_some, Option.getD_some, List.contains_iff_mem.2 hmem, if_true, hf]
    exact hforget

/-- A logger that is there is not made again. -/
theorem create_of_place (h : ∃ l, r.tree.logger? full = some l) : r.create full = r := by
  obtain ⟨l, hl⟩ := h
  have htree : r.tree.create full = r.tree := by
    unfold Tree.create
    rw [Tree.logger?_eq_some_iff.1 hl]
  unfold create
  rw [htree]
  split <;> rfl

/-- **How a logger decides**: as it decided before on that level, or by the levels. -/
theorem decide_cases (r : Registry) (name : String) (m : Level) :
    (∃ e ∈ (r.logger name).decisions, e.1 = m ∧ r.decide name m = (r, e.2)) ∨
      ∃ t : Bool, t = (0 < m && r.effectiveLevel name ≤ m) ∧
        r.decide name m = (r.modify name (Logger.remember (m, t)), t) := by
  unfold decide
  split
  · rename_i l found hfound
    have hlevel := List.find?_some hfound
    rw [decide_eq_true_eq] at hlevel
    exact .inl ⟨_, List.mem_of_find?_eq_some hfound, hlevel, rfl⟩
  · exact .inr ⟨_, rfl, rfl⟩

theorem alike_decide (r : Registry) (name : String) (m : Level) : r.Alike (r.decide name m).1 := by
  rcases decide_cases r name m with ⟨e, -, -, h⟩ | ⟨t, -, h⟩
  · rw [h]
    exact .rfl
  · rw [h]
    exact ⟨cached_modify r name _, fallback_modify r name _,
      outfit_modify_same (f := Logger.remember (m, t)) (fun _ => rfl) r name⟩

theorem alike_create (r : Registry) (name : String) : r.Alike (r.create name) :=
  ⟨cached_create r name, fallback_create r name, outfit_create r name⟩

/-- **A message** changes nothing that counts. -/
theorem alike_log (r : Registry) (name : String) (level message : Datum) :
    r.Alike (r.log name level message).1 := by
  have hcreate := alike_create r name
  unfold log
  dsimp only
  split
  · exact hcreate
  · rename_i l _
    have hdecide := alike_decide (r.create name) (if isRoot name then rootName else name) l
    exact ⟨hdecide.cached_eq.trans hcreate.cached_eq, hdecide.fallback_eq.trans hcreate.fallback_eq,
      fun other => (hdecide.outfit_eq other).trans (hcreate.outfit_eq other)⟩

end Changes

/-- **Only loggers handed out have levels.** The root has that of warnings, and no other place. -/
structure Clear (r : Registry) : Prop where
  kept : r.Kept
  root_eq : (r.outfit rootName).level = warning
  rootless : ∀ name, isRoot name = true → r.tree.logger? name = none
  unset : ∀ name, isRoot name = false → name ∉ r.cached → (r.outfit name).level = 0

theorem clear_start (setting : Option String) : (start setting).Clear where
  kept :=
    { nodup := List.nodup_nil
      named := fun _ hmem => absurd hmem List.not_mem_nil
      inStep := fun _ hmem => absurd hmem List.not_mem_nil
      fresh := fun name _ => by
        rw [outfit_of_not_root (isRoot_normalize name)]
        rfl }
  root_eq := rfl
  rootless _ _ := rfl
  unset name hroot _ := by
    rw [outfit_of_not_root hroot]
    rfl

/-- A command leaves the loggers that are not handed out as they are. -/
theorem Effect.outfit_eq (h : Effect r c r' outcome) (hnew : name ∉ r'.cached) :
    name ∉ r.cached ∧ r'.outfit name = r.outfit name := by
  cases h with
  | refused h => exact ⟨h.cached_eq ▸ hnew, h.outfit_eq name⟩
  | found _ _ => exact ⟨hnew, rfl⟩
  | made _ _ hcached _ hothers _ =>
    rw [hcached, List.mem_append, List.mem_singleton, not_or] at hnew
    exact ⟨hnew.1, hothers name (Ne.symm hnew.2)⟩
  | levelled h => exact ⟨h.cached_eq ▸ hnew, h.others name (h.cached_eq ▸ hnew)⟩
  | configured _ h => exact ⟨h.cached_eq ▸ hnew, h.others name (h.cached_eq ▸ hnew)⟩

theorem Clear.effect (h : r.Clear) (he : Effect r c r' outcome) (hs : r.tree.Stays r'.tree) :
    r'.Clear := by
  have hkept := he.kept h.kept
  have hroot : rootName ∉ r'.cached := by
    intro hmem
    cases (hkept.placed rootName hmem).1
  refine ⟨hkept, ?_, fun name hname => hs.rootless name hname (h.rootless name hname),
    fun name hname hnew => ?_⟩
  · rw [(he.outfit_eq hroot).2]
    exact h.root_eq
  · rw [(he.outfit_eq hnew).2]
    exact h.unset name hname (he.outfit_eq hnew).1

/-- What changes nothing that counts is like a command that fails. -/
theorem Clear.alike (h : r.Clear) (ha : r.Alike r') (hs : r.tree.Stays r'.tree) : r'.Clear :=
  h.effect (Effect.refused (c := .get .nothing) (e := .noAxis) ha) hs

/-- **Whatever is done from inside**, only loggers handed out have levels. -/
theorem Clear.act (h : r.Clear) (hd : d.Inside) : (r.act d).Clear := by
  have hs := stays_act r d
  cases d with
  | command c => exact h.effect (perform_effect h.kept c) hs
  | attach name handler => exact hd.elim
  | message name level message => exact h.alike (alike_log r name level message) hs

theorem Clear.actAll (h : r.Clear) {deeds : List Deed} (hdeeds : ∀ d ∈ deeds, d.Inside) :
    (r.actAll deeds).Clear :=
  actAll_of_act (fun _ _ hd h => h.act hd) hdeeds h

/-- What is set up of a logger handed out: this level, one handler with it, nothing passed on. -/
theorem Clear.outfit_eq (h : r.Clear) (hl : r.fallback = .level level) (hmem : full ∈ r.cached) :
    ∃ template stream, r.outfit full = ⟨level, [⟨level, template, stream⟩], false⟩ := by
  obtain ⟨style, level', hl', houtfit⟩ := h.kept.inStep full hmem
  cases hl.symm.trans hl'
  exact ⟨style.1, style.2, houtfit⟩

/-- A logger in the tree has the level of the loggers handed out, or none. -/
theorem Clear.level_eq (h : r.Clear) (hl : r.fallback = .level level) {l : Logger}
    (hplace : r.tree.logger? name = some l) : l.level = if name ∈ r.cached then level else 0 := by
  have hroot : isRoot name = false := by
    rw [Bool.eq_false_iff]
    intro hname
    rw [h.rootless name hname] at hplace
    cases hplace
  have hself : r.outfit name = l.outfit := by
    rw [outfit_of_not_root hroot, Tree.outfit?, hplace]
    rfl
  have hlevel : l.level = (r.outfit name).level := congrArg Outfit.level hself.symm
  split
  · rename_i hmem
    obtain ⟨template, stream, houtfit⟩ := h.outfit_eq hl hmem
    rw [hlevel, houtfit]
  · rename_i hnew
    rw [hlevel, h.unset name hroot hnew]

/-- The loggers from one that is handed out on upwards. -/
theorem Clear.lineage_eq (h : r.Clear) (hmem : full ∈ r.cached) :
    ∃ l ls, r.tree.logger? full = some l ∧ r.lineage full = l :: (ls ++ [r.root]) ∧
      ∀ l ∈ ls, ∃ above, r.tree.logger? above = some l := by
  obtain ⟨hroot, l, hl⟩ := h.kept.placed full hmem
  obtain ⟨ls, hls, hall⟩ := r.tree.lineage_eq r.root full.length l.parent
  refine ⟨l, ls, hl, ?_, hall⟩
  unfold lineage Tree.lineage
  simp only [hroot, hl, hls, Bool.false_eq_true, if_false]

/-- **The level that decides** is the one that was set. If that is zero, no logger on the way up has
one, up to the root. -/
theorem Clear.effectiveLevel_eq (h : r.Clear) (hl : r.fallback = .level level)
    (hmem : full ∈ r.cached) : r.effectiveLevel full = decisive level := by
  obtain ⟨l, ls, hplace, hlineage, hall⟩ := h.lineage_eq hmem
  have hown : l.level = level := by rw [h.level_eq hl hplace, if_pos hmem]
  unfold effectiveLevel decisive
  rw [hlineage]
  by_cases hzero : level = 0
  · have hroot : r.root.level = warning := h.root_eq
    -- no logger below the root has a level then
    have hnone : (l :: ls).find? (·.level ≠ 0) = none := by
      rw [List.find?_eq_none]
      intro l' hl'
      have hzero' : l'.level = 0 := by
        rcases List.mem_cons.1 hl' with rfl | hl'
        · rw [hown, hzero]
        · obtain ⟨above, habove⟩ := hall l' hl'
          rw [h.level_eq hl habove, hzero, ite_self]
      simp [hzero']
    rw [if_pos hzero, ← List.cons_append, List.find?_append, hnone]
    simp [hroot, warning]
  · rw [if_neg hzero]
    simp [hown, hzero]

/-- **The level set last is obeyed** by every logger handed out, in what it decided already as
well. -/
structure Obeys (r : Registry) (level : Level) : Prop where
  clear : r.Clear
  fallback_eq : r.fallback = .level level
  decided : ∀ full ∈ r.cached, ∀ e ∈ (r.logger full).decisions, e.2 = taken level e.1

/-- What a logger decides. -/
theorem Obeys.decide_eq (h : r.Obeys level) (hmem : full ∈ r.cached) (m : Level) :
    (r.decide full m).2 = taken level m := by
  rcases decide_cases r full m with ⟨e, he, rfl, hdecide⟩ | ⟨t, ht, hdecide⟩
  · rw [hdecide]
    exact h.decided full hmem e he
  · rw [hdecide, ht, h.clear.effectiveLevel_eq h.fallback_eq hmem]
    rfl

/-- A decision is made by the level that was set. -/
theorem Obeys.decide (h : r.Obeys level) (name : String) (m : Level) :
    (r.decide name m).1.Obeys level := by
  have halike := alike_decide r name m
  refine ⟨h.clear.alike halike (stays_decide r name m), halike.fallback_eq.trans h.fallback_eq,
    fun full hmem e he => ?_⟩
  rw [halike.cached_eq] at hmem
  rcases decide_cases r name m with ⟨e, -, -, hdecide⟩ | ⟨t, ht, hdecide⟩
  · rw [hdecide] at he
    exact h.decided full hmem _ he
  · rw [hdecide] at he
    rcases logger_modify r name _ (h.clear.kept.placed full hmem).1 with hsame | ⟨rfl, hnew⟩
    · rw [hsame] at he
      exact h.decided full hmem e he
    · rw [hnew] at he
      rcases List.mem_cons.1 he with rfl | he
      · -- the decision that is new
        show t = _
        rw [ht, h.clear.effectiveLevel_eq h.fallback_eq hmem]
        rfl
      · exact h.decided name hmem e he

/-- What a message leads to at a logger with one handler that passes nothing on. -/
theorem deliver_eq {h : Handler} {l : Logger} {ls : List Logger} (record : Record)
    (hlineage : r.lineage record.name = l :: ls) (hl : l.outfit = ⟨level, [h], false⟩) :
    r.deliver record = (h.write record).toList := by
  have hpropagate : l.propagate = false := congrArg Outfit.propagate hl
  have hhandlers : l.handlers = [h] := congrArg Outfit.handlers hl
  have hpath : path (r.lineage record.name) = [l] := by
    rw [hlineage, path, hpropagate]
    rfl
  unfold deliver
  rw [hpath, List.flatMap_singleton, hhandlers]
  cases hwrite : h.write record <;> simp [hwrite]

/-- **What comes of a message** to a logger handed out, where a level is obeyed. -/
theorem Obeys.log_eq (h : r.Obeys level) (hmem : full ∈ r.cached) (m : Level) (message : Datum) :
    ∃ template stream, (r.logger full).handlers = [⟨level, template, stream⟩] ∧
      (r.log full (.int m) message).2 = .ok
        (if taken level m then
          (Handler.write ⟨level, template, stream⟩ ⟨full, m, message, false⟩).toList else []) := by
  obtain ⟨template, stream, houtfit⟩ := h.clear.outfit_eq h.fallback_eq hmem
  obtain ⟨hroot, hplace⟩ := h.clear.kept.placed full hmem
  have h' := h.decide full m
  have halike := alike_decide r full m
  have hmem' : full ∈ (r.decide full m).1.cached := halike.cached_eq ▸ hmem
  -- the registry in which the message is delivered has one more decision, and is else the same
  obtain ⟨l, ls, hl, hlineage, -⟩ := h'.clear.lineage_eq hmem'
  have hout : l.outfit = ⟨level, [⟨level, template, stream⟩], false⟩ := by
    rw [← houtfit, ← halike.outfit_eq full, outfit_of_not_root hroot, Tree.outfit?, hl]
    rfl
  have hdeliver := deliver_eq ⟨full, m, message, false⟩ hlineage hout
  refine ⟨template, stream, congrArg Outfit.handlers houtfit, ?_⟩
  unfold log
  rw [create_of_place hplace]
  simp only [sentLevel?, hroot, Bool.false_eq_true, if_false, send]
  rw [h.decide_eq hmem m]
  show Except.ok (if taken level m then _ else _) = _
  rw [← hdeliver]
  rfl

/-- **A level that is set is obeyed**: every logger handed out forgets what it decided. -/
theorem Clear.obeys (h : r.Clear) {v : Datum} (hc : c.Asks v)
    (hv : Threshold.parse v = .ok (.level level)) :
    ∃ r', r.perform c = (r', .ok none) ∧ r'.Obeys level := by
  have hplaced := h.kept.placed
  have hclear : (r.perform c).1.Clear := h.effect (perform_effect h.kept c) (stays_perform r c)
  obtain ⟨r', hperform, hset⟩ := perform_level hplaced hc hv
  obtain ⟨f, g, hchanges, hall⟩ := perform_asks hc hv
  rw [hperform] at hclear
  refine ⟨r', hperform, hclear, hset.fallback_eq, fun full hmem e he => ?_⟩
  rw [hset.cached_eq] at hmem
  have hr' : (r.setAll (.level level) f).1 = r' := by
    rw [← congrArg Prod.fst (hall r), hperform]
  have hnone : (r'.logger full).decisions = [] := by
    rw [← hr']
    exact decisions_mapCached hplaced (hchanges.decisions level) hmem
  rw [hnone] at he
  cases he

/-- A new logger is made after every other one has forgotten what it decided. -/
theorem get_of_new (h : r.Kept) (hl : r.fallback = .level level) {name : Option String}
    (hnew : normalize name ∉ r.cached) :
    ∃ (before : Registry) (f : Logger → Logger), (∀ l, (f l).decisions = l.decisions) ∧
      (r.get name).1 = before.forget.modify (normalize name) f := by
  have hnone : ((r.create (normalize name)).logger (normalize name)).handlers = [] :=
    (congrArg Outfit.handlers (outfit_create r _ _)).trans (h.fresh name hnew)
  have hlevel : (r.create (normalize name)).fallback.toLevel = .ok level := by
    rw [fallback_create, hl]
    rfl
  unfold get
  simp only [mt List.contains_iff_mem.1 hnew, Bool.false_eq_true, if_false, hnone, List.isEmpty_nil,
    Bool.not_true, hlevel]
  refine ⟨_, _, ?_, rfl⟩
  intro l
  rfl

theorem Effect.fallback_get {v : Datum} (h : Effect r (.get v) r' outcome) :
    r'.fallback = r.fallback := by
  cases h with
  | refused h => exact h.fallback_eq
  | found _ _ => rfl
  | made _ _ _ hfallback _ _ => exact hfallback

/-- **To hand out a logger** leaves the level obeyed. -/
theorem Obeys.get (h : r.Obeys level) {v : Datum} {name : Option String}
    (hname : nameOf v = .ok name) : (r.get name).1.Obeys level := by
  by_cases hmem : normalize name ∈ r.cached
  · have hsame : (r.get name).1 = r := by
      unfold Registry.get
      simp only [List.contains_iff_mem.2 hmem, if_true]
    rw [hsame]
    exact h
  · have heffect := get_effect h.clear.kept hname
    have hclear := h.clear.effect heffect (stays_get r name)
    refine ⟨hclear, heffect.fallback_get.trans h.fallback_eq, fun full hfull e he => ?_⟩
    obtain ⟨before, f, hf, hget⟩ := get_of_new h.clear.kept h.fallback_eq hmem
    have hnone : ((r.get name).1.logger full).decisions = [] := by
      rw [hget]
      rcases logger_modify before.forget (normalize name) f (hclear.kept.placed full hfull).1 with
        hsame | ⟨-, hnew⟩
      · rw [hsame, decisions_forget]
      · rw [hnew, hf, decisions_forget]
    rw [hnone] at he
    cases he

theorem Obeys.create (h : r.Obeys level) (name : String) : (r.create name).Obeys level := by
  have halike := alike_create r name
  refine ⟨h.clear.alike halike (stays_create r name), halike.fallback_eq.trans h.fallback_eq,
    fun full hfull e he => ?_⟩
  have hsame := seen_create (g := Logger.decisions) (fun _ _ => rfl) r name full
  rw [hsame] at he
  exact h.decided full (halike.cached_eq ▸ hfull) e he

/-- **The level stays obeyed** where loggers are handed out and messages sent. -/
theorem Obeys.act (h : r.Obeys level) (hd : d.Quiet) : (r.act d).Obeys level := by
  cases d with
  | command c =>
    cases c with
    | get v =>
      unfold Registry.act
      cases hname : nameOf v with
      | error e =>
        simp only [perform, hname]
        exact h
      | ok name =>
        simp only [perform, hname]
        exact h.get hname
    | setLevel v => exact hd.elim
    | configure v template stream => exact hd.elim
  | attach name handler => exact hd.elim
  | message name v message =>
    unfold Registry.act
    cases hv : sentLevel? v with
    | none =>
      simp only [log, hv]
      exact h.create name
    | some l =>
      simp only [log, hv]
      exact (h.create name).decide _ l

theorem Obeys.actAll (h : r.Obeys level) {deeds : List Deed} (hdeeds : ∀ d ∈ deeds, d.Quiet) :
    (r.actAll deeds).Obeys level :=
  actAll_of_act (P := (Obeys · level)) (fun _ _ hd h => h.act hd) hdeeds h

end Registry

/-- The default template cut into pieces. -/
def defaultPieces : List Piece :=
  [.plain '[', .field { key := some "levelname" }, .plain ']', .plain ' ',
    .field { key := some "name" }, .plain ':', .plain ' ', .field { key := some "message" }]

theorem pieces?_default : Template.pieces? defaultTemplate = some defaultPieces := rfl

/-- **The default template** shows every record. -/
theorem render?_default (record : Record) :
    Template.render? defaultTemplate record =
      some ("[" ++ record.shownLevel ++ "] " ++ record.name ++ ": " ++ record.text) := by
  have hnamed : Template.named defaultPieces = true := rfl
  have hshow (s key : String) : Field.show? { key := some key } (.text s) = some s.toList := by
    simp [Field.show?, Field.showText, Datum.plain, Field.align]
  have hlevel : record.property? "levelname" = some (.text record.shownLevel) := rfl
  have hname : record.property? "name" = some (.text record.name) := rfl
  have hmessage : record.property? "message" = some (.text record.text) := rfl
  have hfill : defaultPieces.mapM (Template.fill? record) =
      some [['['], record.shownLevel.toList, [']'], [' '], record.name.toList, [':'], [' '],
        record.text.toList] := by
    simp [defaultPieces, Template.fill?, hlevel, hname, hmessage, hshow]
  unfold Template.render?
  rw [pieces?_default]
  simp only [Option.bind_eq_bind, Option.bind_some, hnamed, if_true, hfill]
  refine congrArg some (String.toList_inj.1 ?_)
  simp [String.toList_append]

/-- **The level that is set is obeyed.** Let commands be performed and messages sent, and then a
level be set, by either command that does that. It is set without fail. Whatever loggers are handed
out and messages sent after that, a message of a positive level to a logger handed out leads to
nothing below the level that was set, and from it on to one line, in the template and on the stream
of its handler, if the template can show the message. The default template always can. If zero was
set, the level of the root decides. -/
theorem level_obeyed {setting : Option String} {before after : List Deed} {c : Command}
    {level : Level} (hbefore : ∀ d ∈ before, d.Inside) (hc : c.Asks (.int level))
    (hafter : ∀ d ∈ after, d.Quiet) :
    ∃ r, ((Registry.start setting).actAll before).perform c = (r, .ok none) ∧
      ∀ full ∈ (r.actAll after).cached, ∀ (m : Level) (message : Datum), 1 ≤ m →
        ∃ template stream lines,
          ((r.actAll after).logger full).handlers = [⟨level, template, stream⟩] ∧
          ((r.actAll after).log full (.int m) message).2 = .ok lines ∧
          (m < (if level = 0 then warning else level) → lines = []) ∧
          ((if level = 0 then warning else level) ≤ m → ∀ text,
            Template.render? template ⟨full, m, message, false⟩ = some text →
              lines = [⟨stream, text ++ "\n"⟩]) ∧
          (template = defaultTemplate →
            (Template.render? template ⟨full, m, message, false⟩).isSome) := by
  obtain ⟨r, hperform, hobeys⟩ := ((Registry.clear_start setting).actAll hbefore).obeys hc rfl
  refine ⟨r, hperform, fun full hmem m message hm => ?_⟩
  obtain ⟨template, stream, hhandlers, hlog⟩ := (hobeys.actAll hafter).log_eq hmem m message
  refine ⟨template, stream, _, hhandlers, hlog, fun hlt => ?_, fun hle text htext => ?_,
    fun htemplate => ?_⟩
  · have hdropped : taken level m = false := by
      have hnot : ¬ decisive level ≤ m := Int.not_le.2 hlt
      simp [taken, hnot]
    rw [hdropped]
    rfl
  · have htaken : taken level m = true := by
      have hpos : 0 < m := hm
      have hdecisive : decisive level ≤ m := hle
      simp [taken, hpos, hdecisive]
    have hown : ¬ m < level := by
      rw [Int.not_lt]
      split at hle
      · rename_i hzero
        exact hzero ▸ Int.le_trans Int.one_nonneg hm
      · exact hle
    rw [htaken, Handler.write, if_neg hown, htext]
    rfl
  · rw [htemplate, render?_default]
    rfl

/-- A logger that dropped a message of level 20 before takes it when that level is set. -/
theorem level_obeyed_configured :
    ∃ r, ((Registry.start none).actAll
          [.command (.get (.text "a")), .message "bfgsmin.a" (.int 20) (.text "early")]).perform
        (.configure (.int 20) (.text "%(levelname)s %(message)s") (some "file")) = (r, .ok none) ∧
      ((r.actAll [.command (.get (.text "a.b"))]).log "bfgsmin.a" (.int 20) (.text "late")).2 =
        .ok [⟨"file", "INFO late\n"⟩] := by
  have hasks : Command.Asks (.int 20)
      (.configure (.int 20) (.text "%(levelname)s %(message)s") (some "file")) :=
    .configure (show templateOf _ = .ok "%(levelname)s %(message)s" from rfl) _
  obtain ⟨r, hperform, hobeyed⟩ := @level_obeyed none
    [.command (.get (.text "a")), .message "bfgsmin.a" (.int 20) (.text "early")]
    [.command (.get (.text "a.b"))] _ 20 (by simp [Deed.Inside]) hasks (by simp [Deed.Quiet])
  have hr := congrArg Prod.fst hperform
  subst hr
  obtain ⟨template, stream, lines, hhandlers, hlog, -, hline, -⟩ :=
    hobeyed "bfgsmin.a" (by decide +kernel) 20 (.text "late") (by decide)
  have hstyle : (⟨20, template, stream⟩ : Handler) = ⟨20, "%(levelname)s %(message)s", "file"⟩ :=
    List.singleton_inj.1 (hhandlers.symm.trans (by decide +kernel))
  cases hstyle
  refine ⟨_, hperform, ?_⟩
  rw [hlog, hline (by decide) "INFO late" (by decide +kernel)]
  rfl

/-- Where zero is set a message below warnings is dropped, and where a template shows texts as
numbers a line is lost. -/
theorem message_dropped_at_zero :
    let silent := (Registry.start none).actAll
      [.command (.get (.text "a")), .command (.setLevel (.int 0))]
    let garbled := (Registry.start none).actAll
      [.command (.get (.text "a")),
        .command (.configure (.int 10) (.text "%(message)d") (some "file"))]
    silent.cached = ["bfgsmin.a"] ∧ silent.fallback = .level 0 ∧
      (silent.log "bfgsmin.a" (.int 10) (.text "hello")).2 = .ok [] ∧
      garbled.cached = ["bfgsmin.a"] ∧ garbled.fallback = .level 10 ∧
      (garbled.log "bfgsmin.a" (.int 20) (.text "hello")).2 = .ok [] := by
  refine ⟨by decide +kernel, by decide +kernel, ?_, by decide +kernel, by decide +kernel, ?_⟩
  · rfl
  · rfl

end VariableMetric.Logging
