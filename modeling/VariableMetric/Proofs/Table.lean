import VariableMetric.Proofs.Adapters
import VariableMetric.Proofs.Columns
import VariableMetric.Proofs.Interruption
import VariableMetric.Proofs.LockStep
import VariableMetric.Proofs.Replies

/-!
# The progress table

A run that displays its iterations, and is handed no observers, prints a table: the headings once, a
row for each record, and the closing line.

* `Objective.measure_leaves`, `Objective.measureBoth_leaves`: requests to the objective leave what
  is seen as it is.
* `Outcome.lines`: **the lines that a run prints**.
* `Page`: whether the headings stand printed, and the lines; `Page.take`: a request put down on it.
* `Setup.answer_shows`: **every answer** puts its request down, `Setup.replies_shows`: so does a
  course.
* `Page.after_eq`: what a course without a result puts down.
* `progress_table`: **what a run prints, and what every row is**.
-/

namespace VariableMetric

open Report (Figures Observer Output)

/-! ### Requests to the objective -/

section Leaving

variable {σ κ α ν β : Type} {n : ℕ} {view : σ → κ}

namespace Objective

variable {note : Call → Talk σ Unit}

/-- Notes of calls are not seen. -/
abbrev LeavesNotes (view : σ → κ) (note : Call → Talk σ Unit) : Prop :=
  ∀ c, Talk.Leaves view (note c)

theorem invoke_leaves (h : LeavesNotes view note) (c : Call) (answer : Except Fault β) :
    Talk.Leaves view (invoke note c answer) :=
  (h c).bind fun _ => .ofExcept answer

variable [Reading ν α]

theorem invokeJoint_leaves (h : LeavesNotes view note) (fg : Callable α ν) (x : NdArray α) :
    Talk.Leaves view (invokeJoint note fg x) :=
  (invoke_leaves h .joint (fg x)).bind fun v => .ofExcept (Reading.unpack v)

theorem readJoint_leaves (h : LeavesNotes view note) (fg : Callable α ν) (x : NdArray α) :
    Talk.Leaves view (readJoint note fg x) :=
  (invokeJoint_leaves h fg x).bind fun v =>
    .bind (.ofExcept (Reading.scalar v.1)) fun a =>
      .bind (.ofExcept (Reading.array v.2)) fun g => .pure (a, g)

omit [Reading ν α] in
theorem recordAt_leaves (h : LeavesNotes view note) (c : Call) (record : Recording α)
    (p : Precision α) (x : NdArray α) : Talk.Leaves view (recordAt note c record p x) :=
  (invoke_leaves h c (record (x.map p.round))).bind fun r => .ofExcept r.toScalar

theorem value_leaves (h : LeavesNotes view note) (o : Objective α ν) (x : NdArray α) :
    Talk.Leaves view (o.value note x) := by
  cases o with
  | apart f g =>
    exact (invoke_leaves h .value (f x)).bind fun v =>
      .bind (.ofExcept (Reading.scalar v)) fun a => .pure _
  | joint fg f =>
    cases f with
    | none => exact (readJoint_leaves h fg x).bind fun v => .pure _
    | some f =>
      exact (invoke_leaves h .value (f x)).bind fun v =>
        .bind (.ofExcept (Reading.scalar v)) fun a => .pure _
  | custom fg f =>
    cases f with
    | none => exact (invokeJoint_leaves h fg x).bind fun v => .pure _
    | some f => exact (invoke_leaves h .value (f x)).bind fun v => .pure _
  | tracked record p => exact (recordAt_leaves h .untracked record p x).bind fun g => .pure _

theorem both_leaves [Elementary α] (h : LeavesNotes view note) (o : Objective α ν)
    (x : NdArray α) : Talk.Leaves view (o.both note x) := by
  cases o with
  | apart f g =>
    exact (invoke_leaves h .value (f x)).bind fun v =>
      .bind (.ofExcept (Reading.scalar v)) fun a =>
        (invoke_leaves h .gradient (g x)).bind fun w =>
          .bind (.ofExcept (Reading.array w)) fun g => .pure _
  | joint fg f => exact (readJoint_leaves h fg x).bind fun v => .pure _
  | custom fg f => exact (invokeJoint_leaves h fg x).bind fun v => .pure _
  | tracked record p =>
    refine (recordAt_leaves h .tracked record p x).bind fun g => ?_
    split
    · exact .pure _
    · exact .ofExcept (.error _)

/-- **A request for the value** is not seen, where notes of calls are not, -/
theorem measure_leaves (h : LeavesNotes view note) (o : Objective α ν) (x : Vec α n) :
    Talk.Leaves view (o.measure note x) :=
  (value_leaves h o _).bind fun answer => .ofExcept answer.toScalar

/-- nor one for value and gradient. -/
theorem measureBoth_leaves [Elementary α] (h : LeavesNotes view note) (o : Objective α ν)
    (x : Vec α n) : Talk.Leaves view (o.measureBoth note x) :=
  (both_leaves h o _).bind fun answer => .ofExcept (answer.toJet n)

end Objective

end Leaving

/-! ### What is printed -/

/-- The line that is printed, if that is what happens. -/
def Happening.line? : Happening → Option String
  | .output (.printed line) => some line
  | _ => none

/-- **The lines that a run prints**, in order. -/
def Outcome.lines (r : Outcome) : List String := r.happenings.filterMap Happening.line?

namespace World

/-- The lines printed so far. -/
def lines (w : World) : List String := w.past.reverse.filterMap Happening.line?

/-- What is seen on paper: the observers as they are, and the lines that they have printed. -/
def paper (w : World) : List Observer × List String := (w.observers, w.lines)

theorem lines_add (w : World) (h : Happening) : (w.add h).lines = w.lines ++ h.line?.toList := by
  rw [lines, add, List.reverse_cons, List.filterMap_append]
  cases hline : h.line? <;> simp [lines, hline]

/-- What prints nothing is not seen on paper. -/
theorem add_leaves {h : Happening} (hh : h.line? = none) :
    Talk.Leaves paper (modify (·.add h)) := by
  intro w
  change ((w.add h).observers, (w.add h).lines) = _
  rw [lines_add, hh, Option.toList_none, List.append_nil]
  rfl

/-- What an observer puts out is on paper, if it is printed. -/
theorem paper_outputs (outputs : List Output) (w : World) :
    (outputs.foldl (fun w o => w.add (.output o)) w).paper =
      (w.observers, w.lines ++ outputs.filterMap fun o => (Happening.output o).line?) := by
  induction outputs generalizing w with
  | nil => simp [paper]
  | cons o os ih =>
    rw [List.foldl_cons, ih, lines_add, List.filterMap_cons]
    cases (Happening.output o).line? <;> simp [add]

end World

/-- What stands printed: whether the headings do, and the lines. -/
structure Page where
  shown : Bool
  lines : List String

variable {n : ℕ}

namespace Page

/-- The headings, if they are still to be printed. -/
def headings (p : Page) : List String := if p.shown then [] else [Report.header]

/-- The page after a request is answered. -/
def take (p : Page) : Request Float n → Page
  | .record r => ⟨true, p.lines ++ p.headings ++ [(Figures.ofRecord r).row]⟩
  | .finish r => ⟨p.shown, p.lines ++ [Report.closing r.ending.status]⟩
  | _ => p

/-- The page after a course. -/
def after (p : Page) (c : Course Float n) : Page := c.foldl (fun p e => p.take e.question) p

theorem after_cons (p : Page) (e : Exchange (Request Float n) Request.Answer) (c : Course Float n) :
    p.after (e :: c) = (p.take e.question).after c := rfl

theorem after_append (p : Page) (c c' : Course Float n) :
    p.after (c ++ c') = (p.after c).after c' := List.foldl_append

end Page

/-- The table stands printed as on a page, and nobody else is told. -/
def World.Shows (w : World) (p : Page) : Prop := w.paper = ([.table true p.shown], p.lines)

namespace Setup

variable {s : Setup} {o : Objective Float Datum} {threshold : Float} {w v : World} {p : Page}

/-- **The table reacts**: what it puts out is printed, and it remembers the headings. -/
theorem react_shows {hear : Observer → Report.Reaction} {p' : Page} {outputs : List Output}
    (hw : w.Shows p) (hhear : hear (.table true p.shown) = ⟨.table true p'.shown, outputs, .ok ()⟩)
    (hlines : p'.lines = p.lines ++ outputs.filterMap fun o => (Happening.output o).line?) :
    ∃ v, (World.react 0 hear).run.run w = (.ok (), v) ∧ v.Shows p' := by
  obtain ⟨hobservers, hprinted⟩ := Prod.mk.inj hw
  rw [World.react_run, hobservers]
  simp only [List.getElem?_cons_zero, hhear]
  refine ⟨_, rfl, ?_⟩
  rw [World.Shows, World.paper_outputs, hlines, ← hprinted]
  rfl

/-- The table takes note of an iteration, -/
theorem record_shows (hw : w.Shows p) (r : Record Float n) :
    ∃ v, ((World.listener 0).record n r).run.run w = (.ok (), v) ∧
      v.Shows (p.take (.record r)) := by
  have hhear : Observer.hearIteration (.ok (some (r.iteration : ℤ))) (.ok (Figures.ofRecord r))
      (.table true p.shown) =
      ⟨.table true true, p.headings.map Output.printed ++ [.printed (Figures.ofRecord r).row],
        .ok ()⟩ := by
    rw [Page.headings]
    cases p.shown <;> rfl
  have hlines : (p.headings.map Output.printed ++
      [Output.printed (Figures.ofRecord r).row]).filterMap
      (fun o => (Happening.output o).line?) = p.headings ++ [(Figures.ofRecord r).row] := by
    rw [Page.headings]
    cases p.shown <;> rfl
  refine react_shows hw hhear ?_
  rw [hlines, ← List.append_assoc]
  rfl

/-- and of the result. -/
theorem finish_shows (hw : w.Shows p) (r : Result Float n) :
    ∃ v, ((World.listener 0).finish n r).run.run w = (.ok (), v) ∧
      v.Shows (p.take (.finish r)) :=
  react_shows hw rfl rfl

/-- Whether to stop is asked off the page, -/
theorem stop_leaves : Talk.Leaves World.paper (s.partners o threshold 1).stop := by
  simp only [Setup.partners]
  split
  · exact .pure false
  · exact .pure false
  · exact .ofExcept (.error _)
  · exact (World.add_leaves rfl).bind fun _ _ => rfl

/-- and so is the callback told. -/
theorem callback_leaves (r : Record Float n) :
    Talk.Leaves World.paper ((s.partners o threshold 1).callback n r) := by
  simp only [Setup.partners]
  split
  · exact .pure ()
  · exact .ofExcept (.error _)
  · exact (World.add_leaves rfl).bind fun _ => .ofExcept _

/-- One observer is told alone. -/
theorem tell_run {act : Listener World Float → Talk World Unit} {l : Listener World Float}
    (h : (act l).run.run w = (.ok (), v)) : (Partners.tell act [l]).run.run w = (.ok (), v) := by
  rw [Partners.tell, Talk.run_bind, h]
  rfl

/-- What is not told to the table leaves it as it is. -/
theorem shows_of_leaves {β : Type} {t : Talk World β} {b : β} (hw : w.Shows p)
    (ht : t.Leaves World.paper) (hrun : t.run.run w = (.ok b, v)) : v.Shows p := by
  have hpaper := ht w
  rw [hrun] at hpaper
  exact hpaper.trans hw

/-- **Every answer** puts its request down on the page. -/
theorem answer_shows (hw : w.Shows p) {q : Request Float n} {a : q.Answer}
    (h : ((s.partners o threshold 1).answer q).run.run w = (.ok a, v)) : v.Shows (p.take q) := by
  have hnotes : Objective.LeavesNotes World.paper (s.partners o threshold 1).note :=
    fun c => World.add_leaves rfl
  cases q with
  | value x => exact shows_of_leaves hw (Objective.measure_leaves hnotes o x) h
  | gradient x => exact shows_of_leaves hw (Objective.measureBoth_leaves hnotes o x) h
  | stop => exact shows_of_leaves hw stop_leaves h
  | remark r => exact shows_of_leaves hw (World.add_leaves rfl) h
  | record r =>
    obtain ⟨u, hu, hshows⟩ := record_shows hw r
    change (Partners.tell (fun l => l.record n r) [World.listener 0] >>= fun _ =>
      (s.partners o threshold 1).callback n r).run.run w = _ at h
    rw [Talk.run_bind, tell_run hu] at h
    -- the callback is told after the table, and is not seen
    exact shows_of_leaves hshows (callback_leaves r) h
  | finish r =>
    obtain ⟨u, hu, hshows⟩ := finish_shows hw r
    change (Partners.tell (fun l => l.finish n r) [World.listener 0]).run.run w = _ at h
    rw [tell_run hu] at h
    cases h
    exact hshows

/-- **A course** puts its requests down one after the other. -/
theorem replies_shows {c : Course Float n} (hw : w.Shows p)
    (h : Dialogue.Replies (s.partners o threshold 1).answer w c v) :
    v.Shows (p.after c) := by
  induction c generalizing w p with
  | nil =>
    obtain rfl : w = v := h
    exact hw
  | cons e c ih =>
    obtain ⟨u, hu, h'⟩ := h
    exact ih (answer_shows hw hu) h'

end Setup

namespace Page

open Course

/-- **What a course without a result puts down**: the headings before the first record if they are
still to be printed, and a row for each. -/
theorem after_eq {c : Course Float n} (h : ∀ e ∈ c, ∀ r, e.question ≠ .finish r) (p : Page) :
    p.after c =
      if records c = [] then p
      else ⟨true, p.lines ++ p.headings ++ (records c).map fun q => (Figures.ofRecord q).row⟩ := by
  -- the headings are printed with the first record, and the rest of the course finds them there
  induction c generalizing p with
  | nil => rfl
  | cons e c ih =>
    rw [List.forall_mem_cons] at h
    obtain ⟨q, a⟩ := e
    rw [after_cons, ih h.2]
    cases q with
    | finish r => exact absurd rfl (h.1 r)
    | record r =>
      have hrecords : records (⟨.record r, a⟩ :: c) = r :: records c := rfl
      rw [hrecords, if_neg (List.cons_ne_nil _ _)]
      split
      · rename_i hnone
        rw [hnone]
        rfl
      · simp [take, headings]
    | value | gradient | stop | remark => rfl

/-- **What a run that returns puts down.** -/
theorem after_returns {s : Settings Float} {x0 : Vec Float n} {c c₂ : Course Float n}
    {st : State Float n} {e : Option Ending} {ending : Ending} (hat : AtHead s x0 c st e)
    (hleave : Leaving s st e c₂ ending) :
    after ⟨false, []⟩ (c ++ c₂ ++ finishing st ending) =
      ⟨true, Report.header :: (records c).map (fun q => (Figures.ofRecord q).row) ++
        [Report.closing ending.status]⟩ := by
  have hunfinished : ∀ e ∈ c ++ c₂, ∀ r, e.question ≠ .finish r := by
    refine List.forall_mem_append.2 ⟨hat.unfinished, ?_⟩
    cases hleave <;> simp
  have hrecords : records (c ++ c₂) = records c := by
    have hquiet : records c₂ = [] := by cases hleave <;> rfl
    rw [records_append, hquiet, List.append_nil]
  have hne : records c ≠ [] := by
    intro hnil
    have hnumbers := hat.numbers_eq
    rw [hnil, List.range_succ] at hnumbers
    simp at hnumbers
  rw [after_append, after_eq hunfinished, hrecords, if_neg hne]
  rfl

end Page

/-! ### Runs -/

namespace Setup

open Course

variable {s : Setup} {o : Objective Float Datum} {options : Options} {start : Point}
  {r : Result Float start.dim}

/-- No observers are handed over among the overrides. -/
def Unobserved (s : Setup) : Prop := ∀ d, s.override? "observers" = some d → d = .nothing

/-- **The records of a run** from a starting point to its result, in order: those that it asks its
partners to take note of, while they answer all that it asks. -/
def Tells (s : Setup) (o : Objective Float Datum) (options : Options) (start : Point)
    (observers : List Observer) (r : Result Float start.dim)
    (rs : List (Record Float start.dim)) : Prop :=
  ∃ threshold c w, options.curvatureTol.toFloat = .ok threshold ∧
    (minimize (options.settings (s.history.getD false)) start.entries).Comes c (.done r) ∧
    Dialogue.Replies (s.partners o threshold observers.length).answer ⟨[], observers, 0⟩ c w ∧
    rs = records c

/-- **A run with a table** that returns prints the headings, a row for each record and the closing
line. -/
theorem lines_of_play
    (h : (s.play o options start [.table true false]).result = .ok ⟨start.dim, r⟩) :
    ∃ rs, s.Tells o options start [.table true false] r rs ∧
      rs.map Record.iteration = List.range (r.nit + 1) ∧
      (s.play o options start [.table true false]).lines =
        Report.header :: rs.map (fun q => (Figures.ofRecord q).row) ++
          [Report.closing r.ending.status] := by
  cases hthreshold : options.curvatureTol.toFloat with
  | error e =>
    rw [play, hthreshold] at h
    cases h
  | ok threshold =>
    rw [play_eq hthreshold] at h ⊢
    rcases hrun : ((s.partners o threshold 1).play (options.settings (s.history.getD false))
      start.entries).run.run ⟨[], [.table true false], 0⟩ with ⟨result, w⟩
    simp only [List.length_singleton, hrun] at h ⊢
    cases result with
    | error e => cases h
    | ok r' =>
      cases h
      -- the page is followed along the course, whose records all come before the last head
      obtain ⟨c, hc, hreplies⟩ := Dialogue.exists_replies hrun
      have hblank : World.Shows ⟨[], [.table true false], 0⟩ ⟨false, []⟩ := rfl
      have hpage := replies_shows hblank hreplies
      obtain ⟨c₁, st, e, c₂, ending, hat, hleave, rfl, rfl⟩ := heads_of_minimize hc
      rw [Page.after_returns hat hleave] at hpage
      refine ⟨records c₁, ⟨threshold, _, w, hthreshold, hc, hreplies, hleave.told.1.symm⟩,
        hat.numbers_eq, congrArg Prod.snd hpage⟩

/-- The result of a run has the dimension of its starting point. -/
theorem dim_of_play {observers : List Observer} {out : (n : ℕ) × Result Float n}
    (h : (s.play o options start observers).result = .ok out) :
    ∃ r : Result Float start.dim, out = ⟨start.dim, r⟩ := by
  have hmap {result : Except Fault (Result Float start.dim)}
      (h : result.map (fun r => (⟨start.dim, r⟩ : (n : ℕ) × Result Float n)) = .ok out) :
      ∃ r : Result Float start.dim, out = ⟨start.dim, r⟩ := by
    cases result with
    | error e => cases h
    | ok r => exact ⟨r, (Except.ok.inj h).symm⟩
  unfold play at h
  split at h
  · cases h
  · exact hmap h

/-- A run that displays its iterations, without observers of the caller's own, prints a table. -/
theorem run_displaying (hprepare : s.prepare = .ok (o, options, start))
    (hdisplay : options.display = .iter) (hobservers : s.Unobserved) :
    s.run none = s.settle.play o options start [.table true false] := by
  have htaking : s.observersFor options none = .ok [.table true false] := by
    unfold observersFor
    cases hd : s.override? "observers" with
    | none => rw [hdisplay]; rfl
    | some d =>
      rw [hobservers d hd, hdisplay]
      rfl
  unfold run
  simp only [hprepare, bind, Except.bind, htaking]
  rfl

end Setup

/-- **The progress table.** A run that returns, with iterations displayed and no observers of the
caller's own, prints the headings once, a row for each of its records, which are numbered from zero
to the number of iterations, and the closing line. And whatever the three doubles of a record are,
as long as its two counts fit their columns: its row is as wide as the headings, each of its five
fields ends where the heading does, they are found by splitting the row at blanks, the counts are
there in decimal, and the doubles, as far as they are finite, to six significant digits. -/
theorem progress_table :
    (∀ (s : Setup) (o : Objective Float Datum) (options : Options) (start : Point)
      (r : Result Float start.dim), s.prepare = .ok (o, options, start) →
      options.display = .iter → s.Unobserved → (s.run none).result = .ok ⟨start.dim, r⟩ →
      ∃ rs, s.settle.Tells o options start [.table true false] r rs ∧
        rs.map Record.iteration = List.range (r.nit + 1) ∧
        (s.run none).lines = Report.header :: rs.map (fun q => (Figures.ofRecord q).row) ++
          [Report.closing r.ending.status]) ∧
    List.Forall₂ (Report.EndsAt Report.header.toList) (Report.headings.map String.toList)
      Report.columnEnds ∧
    ∀ f : Figures, 0 ≤ f.iteration → f.iteration < 10 ^ 7 → 0 ≤ f.backtracks →
      f.backtracks < 10 ^ 10 → Report.Tabulated f f.row := by
  refine ⟨fun s o options start r hprepare hdisplay hobservers h => ?_, Report.header_columns.2,
    Figures.tabulated_row⟩
  rw [Setup.run_displaying hprepare hdisplay hobservers] at h ⊢
  exact Setup.lines_of_play h

/-- Half the square of a number, from three: the full step leads to the minimum, and the next stays
there. And a row with a carry, without a change, and with the smallest double. -/
theorem progress_table_halfSquare :
    let s : Setup := ⟨.objective (.apart (fun x => .ok (.float (dot x.entries x.entries / 2)))
      fun x => .ok (.array x)), .list [.float 3], .nothing, [("display", .text "iter")],
      .value .nothing, none, none⟩
    let f : Figures := ⟨12, 999999.5, Binary.nan, 5e-324, 7⟩
    (∃ o options start, ∃ r : Result Float start.dim, s.prepare = .ok (o, options, start) ∧
      options.display = .iter ∧ s.Unobserved ∧ (s.run none).result = .ok ⟨start.dim, r⟩ ∧
      ∃ rs : List (Record Float start.dim), rs.map Record.iteration = [0, 1, 2] ∧
        (s.run none).lines = Report.header :: rs.map (fun q => (Figures.ofRecord q).row) ++
          ["bfgs terminated with exit status 1 (converged)"]) ∧
    0 ≤ f.iteration ∧ f.iteration < 10 ^ 7 ∧ 0 ≤ f.backtracks ∧ f.backtracks < 10 ^ 10 ∧
      Report.Tabulated f f.row := by
  intro s f
  have hdisplay : s.prepare.toOption.map (fun p => p.2.1.display) = some .iter := by
    decide +kernel
  have hending : (s.run none).result.toOption.map (fun r => (r.2.nit, r.2.ending)) =
      some (2, .converged) := by decide +kernel
  have hunobserved : s.Unobserved := by
    intro d hd
    have hnone : s.override? "observers" = none := by decide +kernel
    rw [hnone] at hd
    cases hd
  obtain ⟨htable, -, hrows⟩ := progress_table
  refine ⟨?_, by decide, by decide, by decide, by decide,
    hrows f (by decide) (by decide) (by decide) (by decide)⟩
  cases hprepare : s.prepare with
  | error e =>
    rw [hprepare] at hdisplay
    cases hdisplay
  | ok p =>
    obtain ⟨o, options, start⟩ := p
    have hiter : options.display = .iter := by
      rw [hprepare] at hdisplay
      exact Option.some.inj hdisplay
    cases hresult : (s.run none).result with
    | error e =>
      rw [hresult] at hending
      cases hending
    | ok out =>
      have hplay := hresult
      rw [Setup.run_displaying hprepare hiter hunobserved] at hplay
      obtain ⟨r, rfl⟩ := Setup.dim_of_play hplay
      rw [hresult] at hending
      obtain ⟨hnit, hconverged⟩ := Prod.mk.inj (Option.some.inj hending)
      obtain ⟨rs, -, hnumbers, hlines⟩ :=
        htable s o options start r hprepare hiter hunobserved hresult
      refine ⟨o, options, start, r, rfl, hiter, hunobserved, rfl, rs, ?_, ?_⟩
      · rw [hnumbers, hnit]
        rfl
      · rw [hlines, hconverged]
        rfl

end VariableMetric
