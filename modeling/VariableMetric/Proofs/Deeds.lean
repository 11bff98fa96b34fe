import VariableMetric.Proofs.Registry

/-!
# What is done with a registry

Callers perform commands on a registry, and they send messages to loggers and attach handlers to
them by their names, past the package. Whatever they do, no logger goes away.

* `Deed`, `Registry.act`, `Registry.actAll`: what is done, one thing after the other.
* `Tree.Stays`: no logger goes away, and the root gets no second place.
* `Registry.stays_act`: **loggers stay**, whatever is done.
* `Registry.Placed.act`, `Registry.Placed.actAll`: **every logger handed out has its place**.
-/

namespace VariableMetric.Logging

/-- **What is done with a registry**: a command, a handler attached from outside, or a message. -/
inductive Deed where
  | command (c : Command)
  | attach (name : String) (h : Handler)
  | message (name : String) (level message : Datum)

namespace Tree

variable {t t' t'' : Tree} {name : String}

/-- **Loggers stay.** Each one keeps its place in the tree, and none gets a place there under a name
of the root. -/
structure Stays (t t' : Tree) : Prop where
  places : ∀ name, (∃ l, t.logger? name = some l) → ∃ l, t'.logger? name = some l
  rootless : ∀ name, Registry.isRoot name = true → t.logger? name = none → t'.logger? name = none

theorem Stays.rfl : t.Stays t := ⟨fun _ h => h, fun _ _ h => h⟩

theorem Stays.trans (h : t.Stays t') (h' : t'.Stays t'') : t.Stays t'' where
  places name hname := h'.places name (h.places name hname)
  rootless name hroot hname := h'.rootless name hroot (h.rootless name hroot hname)

/-- Loggers stay where one name at most is given a logger, and that name is not the root's. -/
theorem stays_of_isSome (hroot : Registry.isRoot name = false)
    (h : ∀ other, (t'.logger? other).isSome =
      if name = other then true else (t.logger? other).isSome) : t.Stays t' := by
  refine ⟨fun other hother => ?_, fun other hother hnone => ?_⟩
  · rw [← Option.isSome_iff_exists] at hother ⊢
    rw [h, hother, ite_self]
  · have hne : name ≠ other := by
      rintro rfl
      rw [hroot] at hother
      cases hother
    rw [← Option.not_isSome_iff_eq_none] at hnone ⊢
    rwa [h, if_neg hne]

theorem stays_create (hroot : Registry.isRoot name = false) (t : Tree) :
    t.Stays (t.create name) := by
  refine stays_of_isSome hroot fun other => ?_
  have hcreate := seen?_create (g := fun _ => ()) (fun _ _ => Eq.refl ()) t name other
  have hseen := congrArg Option.isSome hcreate
  rw [seen?, Option.isSome_map] at hseen
  rw [hseen]
  split
  · exact Eq.refl true
  · exact Option.isSome_map

theorem stays_put (hroot : Registry.isRoot name = false) (t : Tree) (l : Logger) :
    t.Stays (t.put name (.logger l)) := by
  refine stays_of_isSome hroot fun other => ?_
  rw [logger?_put]
  split <;> rfl

theorem stays_mapLoggers (t : Tree) (f : String → Logger → Logger) :
    t.Stays (t.mapLoggers f) := by
  refine ⟨fun name hname => ?_, fun name _ hname => ?_⟩
  · obtain ⟨l, hl⟩ := hname
    rw [logger?_mapLoggers, hl]
    exact ⟨_, Eq.refl _⟩
  · rw [logger?_mapLoggers, hname]
    exact Eq.refl none

end Tree

namespace Registry

variable {r r' : Registry}

/-- The registry after something is done. -/
def act (r : Registry) : Deed → Registry
  | .command c => (r.perform c).1
  | .attach name h => r.attach name h
  | .message name level message => (r.log name level message).1

/-- The registry after one thing is done after the other. -/
def actAll (r : Registry) (deeds : List Deed) : Registry := deeds.foldl act r

/-- **By induction over what is done**: what each thing keeps, all of them keep. -/
theorem actAll_of_act {P : Registry → Prop} {Q : Deed → Prop}
    (hact : ∀ r d, Q d → P r → P (r.act d)) {deeds : List Deed} (hdeeds : ∀ d ∈ deeds, Q d)
    (h : P r) : P (r.actAll deeds) := by
  induction deeds generalizing r with
  | nil => exact h
  | cons d deeds ih =>
    rw [List.forall_mem_cons] at hdeeds
    exact ih hdeeds.2 (hact r d hdeeds.1 h)

section Stays

variable (r)

theorem stays_create (name : String) : r.tree.Stays (r.create name).tree := by
  unfold create
  split
  · exact .rfl
  · rename_i hroot
    exact Tree.stays_create (Bool.eq_false_iff.2 hroot) r.tree

theorem stays_modify (name : String) (f : Logger → Logger) :
    r.tree.Stays (r.modify name f).tree := by
  unfold modify
  split
  · exact .rfl
  · rename_i hroot
    split
    · exact Tree.stays_put (Bool.eq_false_iff.2 hroot) r.tree _
    · exact .rfl

theorem stays_forget : r.tree.Stays r.forget.tree := by
  unfold forget
  dsimp only
  exact r.tree.stays_mapLoggers _

theorem stays_mapCached (f : Logger → Logger) : r.tree.Stays (r.mapCached f).tree := by
  unfold mapCached
  split
  · exact .rfl
  · refine (stays_forget r).trans ?_
    dsimp only
    exact r.forget.tree.stays_mapLoggers _

theorem stays_get (name : Option String) : r.tree.Stays (r.get name).1.tree := by
  have hcreate := stays_create r (normalize name)
  unfold get
  dsimp only
  split
  · exact .rfl
  · split
    · exact hcreate
    · split
      · exact hcreate
      · refine Tree.Stays.trans ?_ (stays_modify _ _ _)
        exact hcreate.trans (stays_forget _)

theorem stays_setAll (t : Threshold) (f : Level → Logger → Logger) :
    r.tree.Stays (r.setAll t f).1.tree := by
  unfold setAll
  split
  · exact stays_mapCached r _
  · split <;> exact .rfl

theorem stays_decide (name : String) (m : Level) : r.tree.Stays (r.decide name m).1.tree := by
  unfold decide
  split
  · exact .rfl
  · exact stays_modify r name _

theorem stays_log (name : String) (level message : Datum) :
    r.tree.Stays (r.log name level message).1.tree := by
  have hcreate := stays_create r name
  unfold log
  dsimp only
  split
  · exact hcreate
  · exact hcreate.trans (stays_decide _ _ _)

theorem stays_perform (c : Command) : r.tree.Stays (r.perform c).1.tree := by
  cases c with
  | get d =>
    cases hname : nameOf d with
    | error e =>
      simp only [perform, hname]
      exact .rfl
    | ok name =>
      simp only [perform, hname]
      exact stays_get r name
  | setLevel d =>
    cases hd : Threshold.parse d with
    | error e =>
      simp only [perform, setLevel, hd]
      exact .rfl
    | ok t =>
      simp only [perform, setLevel, hd]
      exact stays_setAll r t _
  | configure d template stream =>
    simp only [perform, configure]
    split
    · exact .rfl
    · exact stays_setAll r _ _

/-- **No logger goes away**, whatever is done. -/
theorem stays_act (d : Deed) : r.tree.Stays (r.act d).tree := by
  cases d with
  | command c => exact stays_perform r c
  | attach name h => exact (stays_create r name).trans (stays_modify _ _ _)
  | message name level message => exact stays_log r name level message

end Stays

section Places

variable {r : Registry}

theorem Placed.of_stays (hr : r.Placed) (h : r.tree.Stays r'.tree)
    (hcached : r'.cached = r.cached) : r'.Placed := by
  intro full hmem
  obtain ⟨hroot, hplace⟩ := hr full (hcached ▸ hmem)
  exact ⟨hroot, h.places full hplace⟩

/-- A logger that is handed out has its place. -/
theorem Placed.get (hr : r.Placed) (name : Option String) : (r.get name).1.Placed := by
  have hcreate := stays_create r (normalize name)
  have hnew := exists_logger_create (isRoot_normalize name) r
  -- the registry with the new logger, and whatever comes of it
  have hadded {r' : Registry} (h : (r.create (normalize name)).tree.Stays r'.tree)
      (hcached : r'.cached = (r.create (normalize name)).cached ++ [normalize name]) :
      r'.Placed := by
    intro full hmem
    rw [hcached, cached_create, List.mem_append, List.mem_singleton] at hmem
    rcases hmem with hmem | rfl
    · exact ⟨(hr full hmem).1, h.places full (hcreate.places full (hr full hmem).2)⟩
    · exact ⟨isRoot_normalize name, h.places _ hnew⟩
  unfold Registry.get
  dsimp only
  split
  · exact hr
  · split
    · exact hadded .rfl rfl
    · split
      · exact hr.of_stays hcreate (cached_create r _)
      · refine hadded ?_ (cached_modify _ _ _)
        refine Tree.Stays.trans ?_ (stays_modify _ _ _)
        exact stays_forget _

theorem cached_setAll (r : Registry) (t : Threshold) (f : Level → Logger → Logger) :
    (r.setAll t f).1.cached = r.cached := by
  unfold setAll
  split
  · exact cached_mapCached r _
  · split <;> rfl

theorem Placed.perform (hr : r.Placed) (c : Command) : (r.perform c).1.Placed := by
  have hstays := stays_perform r c
  cases c with
  | get d =>
    cases hname : nameOf d with
    | error e =>
      simp only [Registry.perform, hname]
      exact hr
    | ok name =>
      simp only [Registry.perform, hname]
      exact hr.get name
  | setLevel d =>
    refine hr.of_stays hstays ?_
    cases hd : Threshold.parse d with
    | error e => simp only [Registry.perform, setLevel, hd]
    | ok t =>
      simp only [Registry.perform, setLevel, hd]
      exact cached_setAll r t _
  | configure d template stream =>
    refine hr.of_stays hstays ?_
    simp only [Registry.perform, configure]
    split
    · rfl
    · exact cached_setAll r _ _

theorem cached_decide (r : Registry) (name : String) (m : Level) :
    (r.decide name m).1.cached = r.cached := by
  unfold decide
  split
  · rfl
  · exact cached_modify r name _

theorem cached_log (r : Registry) (name : String) (level message : Datum) :
    (r.log name level message).1.cached = r.cached := by
  unfold log
  dsimp only
  split
  · exact cached_create r name
  · exact (cached_decide _ _ _).trans (cached_create r name)

/-- **Every logger handed out keeps its place**, whatever is done. -/
theorem Placed.act (hr : r.Placed) (d : Deed) : (r.act d).Placed := by
  have hstays := stays_act r d
  cases d with
  | command c => exact hr.perform c
  | attach name h => exact hr.of_stays hstays ((cached_modify _ _ _).trans (cached_create r name))
  | message name level message => exact hr.of_stays hstays (cached_log r name level message)

/-- **Every logger handed out has its place** after anything that was done. -/
theorem Placed.actAll (hr : r.Placed) (deeds : List Deed) : (r.actAll deeds).Placed :=
  actAll_of_act (Q := fun _ => True) (fun _ d _ h => h.act d) (fun _ _ => trivial) hr

/-- No logger is handed out at the start. -/
theorem placed_start (setting : Option String) : (start setting).Placed :=
  fun _ hmem => absurd hmem List.not_mem_nil

end Places

end Registry

end VariableMetric.Logging
