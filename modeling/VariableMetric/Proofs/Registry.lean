import Mathlib.Data.List.Basic
import VariableMetric.Logging.Command

/-!
# What a registry of loggers keeps

Whatever commands are performed on a registry, in whatever order and whether or not they fail, the
loggers that it has handed out stay in step with each other.

* `normalize_normalize`, `isRoot_normalize`: the full names of loggers.
* `Tree.seen?_create`: to make a logger changes of the others nothing but where they stand.
* `Outfit`: what is set up of a logger; nothing that happens in the tree but for a command changes
  it (`Tree.outfit?_create`, `Registry.outfit_forget`).
* `Registry.Effect`: **all that a command can do**, and `Registry.perform_effect`.
* `Registry.Kept`: the invariant, kept by every command (`Effect.kept`) and every run of them
  (`Kept.performAll`).
* `registry_invariant`: **what holds after any commands**.
-/

namespace VariableMetric.Logging

section Names

theorem normalize_packageName : normalize (some packageName) = packageName := by
  rw [normalize, if_pos (Or.inl rfl)]

/-- A name under that of the package is left as it is. -/
theorem normalize_of_inside {name : String}
    (h : (packageName ++ ".").toList <+: name.toList) : normalize (some name) = name :=
  if_pos (.inr (List.isPrefixOf_iff_prefix.2 h))

/-- A name outside of the package is put under it. -/
theorem normalize_of_outside {name : String} (hne : name ≠ packageName)
    (h : ¬ (packageName ++ ".").toList <+: name.toList) :
    normalize (some name) = packageName ++ "." ++ name := by
  refine if_neg ?_
  rw [not_or]
  exact ⟨hne, fun hp => h (List.isPrefixOf_iff_prefix.1 hp)⟩

/-- A full name is that of the package, or one under it. -/
theorem normalize_cases (name : Option String) :
    normalize name = packageName ∨ (packageName ++ ".").toList <+: (normalize name).toList := by
  cases name with
  | none => exact .inl rfl
  | some name =>
    by_cases hne : name = packageName
    · rw [hne]
      exact .inl normalize_packageName
    · right
      by_cases hp : (packageName ++ ".").toList <+: name.toList
      · rw [normalize_of_inside hp]
        exact hp
      · have hunder : (packageName ++ "." ++ name).toList =
            (packageName ++ ".").toList ++ name.toList := String.toList_append
        rw [normalize_of_outside hne hp, hunder]
        exact List.prefix_append _ _

/-- **A full name is the full name of itself.** -/
theorem normalize_normalize (name : Option String) :
    normalize (some (normalize name)) = normalize name := by
  rcases normalize_cases name with h | h
  · rw [h]
    exact normalize_packageName
  · exact normalize_of_inside h

/-- **The full names**: of no name, of names of the package, and of others. -/
theorem normalize_spec :
    normalize none = packageName ∧ ∀ name : String,
      (name = packageName ∨ (packageName ++ ".").toList <+: name.toList →
        normalize (some name) = name) ∧
      (name ≠ packageName → ¬ (packageName ++ ".").toList <+: name.toList →
        normalize (some name) = packageName ++ "." ++ name) := by
  refine ⟨rfl, fun name => ⟨?_, normalize_of_outside⟩⟩
  rintro (rfl | h)
  · exact normalize_packageName
  · exact normalize_of_inside h

/-- The root is not under the package. -/
theorem isRoot_normalize (name : Option String) : Registry.isRoot (normalize name) = false := by
  have hhead : (normalize name).toList.head? = some 'b' := by
    rcases normalize_cases name with h | ⟨rest, h⟩
    · rw [h]
      decide
    · rw [← h]
      rfl
  have hne {s : String} (hs : s.toList.head? ≠ some 'b') : normalize name ≠ s := by
    rintro rfl
    exact hs hhead
  rw [Registry.isRoot, Bool.or_eq_false_iff, beq_eq_false_iff_ne, beq_eq_false_iff_ne]
  exact ⟨hne (by decide), hne (by decide)⟩

end Names

/-- **What is set up of a logger.** -/
structure Outfit where
  level : Level
  handlers : List Handler
  propagate : Bool

/-- What is set up of this logger. -/
def Logger.outfit (l : Logger) : Outfit := ⟨l.level, l.handlers, l.propagate⟩

namespace Tree

/-- What is set up of the logger of a name, if there is one. -/
def outfit? (t : Tree) (name : String) : Option Outfit := (t.logger? name).map Logger.outfit

theorem find?_cons (t : Tree) (n name : String) (k : Node) :
    Tree.find? ((n, k) :: t) name = if n = name then some k else t.find? name := by
  by_cases h : n = name <;> simp [find?, h]

theorem find?_put (t : Tree) (name other : String) (node : Node) :
    (t.put name node).find? other = if name = other then some node else t.find? other := by
  induction t with
  | nil => exact find?_cons [] name other node
  | cons entry t ih =>
    obtain ⟨n, k⟩ := entry
    unfold put
    by_cases hn : n = name
    · rw [if_pos hn, find?_cons, find?_cons, hn]
      split <;> rfl
    · rw [if_neg hn, find?_cons, find?_cons, ih]
      by_cases ho : n = other
      · rw [if_pos ho, if_pos ho, if_neg fun h => hn (ho.trans h.symm)]
      · rw [if_neg ho, if_neg ho]

theorem logger?_eq_some_iff {t : Tree} {name : String} {l : Logger} :
    t.logger? name = some l ↔ t.find? name = some (.logger l) := by
  unfold logger?
  cases t.find? name with
  | none => simp
  | some node => cases node <;> simp

theorem logger?_put (t : Tree) (name other : String) (l : Logger) :
    (t.put name (.logger l)).logger? other = if name = other then some l else t.logger? other := by
  unfold logger?
  rw [find?_put]
  by_cases ho : name = other
  · rw [if_pos ho, if_pos ho]
  · rw [if_neg ho, if_neg ho]

section Seen

variable {β : Type} {g : Logger → β}

/-- What is seen of the logger of a name, if there is one. -/
def seen? (g : Logger → β) (t : Tree) (name : String) : Option β := (t.logger? name).map g

theorem seen?_eq_none {t : Tree} {name : String} (h : ∀ l, t.find? name ≠ some (.logger l)) :
    t.seen? g name = none := by
  rw [seen?, Option.map_eq_none_iff, Option.eq_none_iff_forall_ne_some]
  exact fun l hl => h l (logger?_eq_some_iff.1 hl)

theorem seen?_put_logger (g : Logger → β) (t : Tree) (name other : String) (l : Logger) :
    (t.put name (.logger l)).seen? g other =
      if name = other then some (g l) else t.seen? g other := by
  unfold seen?
  rw [logger?_put]
  split <;> rfl

/-- A name without a logger can be given names that wait. -/
theorem seen?_put_waiting {t : Tree} {name : String} (h : ∀ l, t.find? name ≠ some (.logger l))
    (below : List String) (other : String) :
    (t.put name (.waiting below)).seen? g other = t.seen? g other := by
  by_cases ho : name = other
  · subst ho
    rw [seen?_eq_none h, seen?, logger?, find?_put, if_pos rfl]
    rfl
  · unfold seen? logger?
    rw [find?_put, if_neg ho]

theorem seen?_climb (name other : String) (above : List String) (t : Tree) :
    (t.climb name above).1.seen? g other = t.seen? g other := by
  induction above generalizing t with
  | nil => rfl
  | cons a above ih =>
    unfold climb
    split
    · rfl
    · rename_i below h
      rw [ih]
      exact seen?_put_waiting (fun l hl => by rw [h] at hl; cases hl) _ _
    · rename_i h
      rw [ih]
      exact seen?_put_waiting (fun l hl => by rw [h] at hl; cases hl) _ _

theorem seen?_place (hg : ∀ l parent, g { l with parent } = g l) (t : Tree) (name other : String) :
    (create.place name t).seen? g other =
      if name = other then some (g {}) else t.seen? g other := by
  unfold create.place
  rw [seen?_put_logger, hg {}]
  split
  · rfl
  · rename_i ho
    rw [seen?_climb, seen?_put_logger, if_neg ho]

/-- Where loggers stand says nothing of the rest. -/
theorem seen?_foldl_adopt (hg : ∀ l parent, g { l with parent } = g l) (name other : String)
    (below : List String) (t : Tree) :
    (below.foldl (adopt name) t).seen? g other = t.seen? g other := by
  have hadopt (t : Tree) (child : String) :
      (adopt name t child).seen? g other = t.seen? g other := by
    unfold adopt
    split
    · rename_i c hc
      split
      · rfl
      · rw [seen?_put_logger, hg c]
        split
        · rename_i ho
          rw [← ho, seen?, hc]
          rfl
        · rfl
    · rfl
  induction below generalizing t with
  | nil => rfl
  | cons child below ih => rw [List.foldl_cons, ih, hadopt]

/-- **A new logger** is as loggers are made; every other one is left as it is, but for its place. -/
theorem seen?_create (hg : ∀ l parent, g { l with parent } = g l) (t : Tree) (name other : String) :
    (t.create name).seen? g other =
      if name = other then some ((t.seen? g name).getD (g {})) else t.seen? g other := by
  have hnone (h : ∀ l, t.find? name ≠ some (.logger l)) : t.seen? g name = none := seen?_eq_none h
  unfold create
  split
  · rename_i l h
    split
    · rename_i ho
      rw [← ho, seen?, logger?_eq_some_iff.2 h]
      rfl
    · rfl
  · rename_i below h
    rw [seen?_place hg, seen?_foldl_adopt hg, hnone fun l hl => by rw [h] at hl; cases hl]
    rfl
  · rename_i h
    rw [seen?_place hg, hnone fun l hl => by rw [h] at hl; cases hl]
    rfl

end Seen

theorem outfit?_put_logger (t : Tree) (name other : String) (l : Logger) :
    (t.put name (.logger l)).outfit? other =
      if name = other then some l.outfit else t.outfit? other :=
  seen?_put_logger Logger.outfit t name other l

/-- **A new logger has nothing set up**; every other one is left as it is. -/
theorem outfit?_create (t : Tree) (name other : String) :
    (t.create name).outfit? other =
      if name = other then some ((t.outfit? name).getD (Logger.outfit {})) else t.outfit? other :=
  seen?_create (fun _ _ => rfl) t name other

theorem logger?_mapLoggers (t : Tree) (f : String → Logger → Logger) (name : String) :
    (t.mapLoggers f).logger? name = (t.logger? name).map (f name) := by
  induction t with
  | nil => rfl
  | cons entry t ih =>
    obtain ⟨n, k⟩ := entry
    unfold logger? at ih ⊢
    rw [mapLoggers, List.map_cons, find?_cons, find?_cons]
    by_cases hn : n = name
    · rw [if_pos hn, if_pos hn, hn]
      cases k <;> rfl
    · rw [if_neg hn, if_neg hn]
      exact ih

end Tree

namespace Registry

variable {r r' : Registry} {c : Command} {outcome : Outcome}

/-- What is set up of the logger of a name. -/
def outfit (r : Registry) (name : String) : Outfit := (r.logger name).outfit

theorem outfit_of_not_root {name : String} (h : isRoot name = false) :
    r.outfit name = (r.tree.outfit? name).getD (Logger.outfit {}) := by
  unfold outfit logger Tree.outfit?
  rw [if_neg (Bool.eq_false_iff.1 h)]
  cases r.tree.logger? name <;> rfl

theorem outfit_of_root {name : String} (h : isRoot name = true) :
    r.outfit name = r.root.outfit := by
  unfold outfit logger
  rw [if_pos h]

/-- A registry with the same loggers set up the same. -/
theorem outfit_congr (htree : ∀ name, r'.tree.outfit? name = r.tree.outfit? name)
    (hroot : r'.root.outfit = r.root.outfit) (name : String) : r'.outfit name = r.outfit name := by
  cases h : isRoot name with
  | true => rw [outfit_of_root h, outfit_of_root h, hroot]
  | false => rw [outfit_of_not_root h, outfit_of_not_root h, htree]

/-- **To make a logger** changes nothing but where loggers stand. -/
theorem seen_create {β : Type} {g : Logger → β} (hg : ∀ l parent, g { l with parent } = g l)
    (r : Registry) (name other : String) :
    g ((r.create name).logger other) = g (r.logger other) := by
  have hseen (t : Tree) : g ((t.logger? other).getD {}) = (t.seen? g other).getD (g {}) := by
    unfold Tree.seen?
    cases t.logger? other <;> rfl
  unfold create
  split
  · rfl
  · unfold logger
    split
    · rfl
    · rw [hseen, hseen, Tree.seen?_create hg]
      split
      · rename_i ho
        rw [ho]
        rfl
      · rfl

/-- **To make a logger** sets nothing up. -/
theorem outfit_create (r : Registry) (name other : String) :
    (r.create name).outfit other = r.outfit other :=
  seen_create (fun _ _ => rfl) r name other

theorem exists_logger_create {name : String} (h : isRoot name = false) (r : Registry) :
    ∃ l, (r.create name).tree.logger? name = some l := by
  have hsome : ((r.create name).tree.outfit? name).isSome := by
    unfold create
    rw [if_neg (Bool.eq_false_iff.1 h), Tree.outfit?_create, if_pos rfl]
    rfl
  rw [Tree.outfit?, Option.isSome_map] at hsome
  exact Option.isSome_iff_exists.1 hsome

/-- **To forget decisions** changes nothing that is set up. -/
theorem outfit_forget (r : Registry) (name : String) : r.forget.outfit name = r.outfit name := by
  refine @outfit_congr r r.forget (fun name => ?_) rfl name
  unfold forget Tree.outfit?
  rw [Tree.logger?_mapLoggers, Option.map_map]
  rfl

theorem exists_logger_forget {name : String} (h : ∃ l, r.tree.logger? name = some l) :
    ∃ l, r.forget.tree.logger? name = some l := by
  obtain ⟨l, hl⟩ := h
  unfold forget
  rw [Tree.logger?_mapLoggers, hl]
  exact ⟨_, rfl⟩

/-- To change one logger leaves the others as they are. -/
theorem outfit_modify {name : String} (hroot : isRoot name = false)
    (h : ∃ l, r.tree.logger? name = some l) {f : Logger → Logger} {o : Outfit}
    (hf : ∀ l, (f l).outfit = o) (other : String) :
    (r.modify name f).outfit other = if name = other then o else r.outfit other := by
  obtain ⟨l, hl⟩ := h
  unfold modify
  rw [if_neg (Bool.eq_false_iff.1 hroot), hl]
  cases ho : isRoot other with
  | true =>
    rw [outfit_of_root ho, outfit_of_root ho, if_neg]
    rintro rfl
    rw [hroot] at ho
    cases ho
  | false =>
    rw [outfit_of_not_root ho, outfit_of_not_root ho, Tree.outfit?_put_logger, hf]
    split <;> rfl

/-- Every logger handed out has its place in the tree. -/
def Placed (r : Registry) : Prop :=
  ∀ name ∈ r.cached, isRoot name = false ∧ ∃ l, r.tree.logger? name = some l

/-- **To change the loggers handed out** leaves the others as they are. -/
theorem outfit_mapCached (hr : r.Placed) {f : Logger → Logger} {g : Outfit → Outfit}
    (hf : ∀ l, (f l).outfit = g l.outfit) (name : String) :
    (r.mapCached f).outfit name = if name ∈ r.cached then g (r.outfit name) else r.outfit name := by
  unfold mapCached
  split
  · rename_i hempty
    rw [List.isEmpty_iff.1 hempty, if_neg List.not_mem_nil]
  by_cases hmem : name ∈ r.cached
  · obtain ⟨hroot, l, hl⟩ := hr name hmem
    rw [if_pos hmem, outfit_of_not_root hroot, outfit_of_not_root hroot]
    unfold Tree.outfit? forget
    rw [Tree.logger?_mapLoggers, Tree.logger?_mapLoggers, hl]
    simp [hmem, hf]
    rfl
  · rw [if_neg hmem, ← outfit_forget r name]
    cases hroot : isRoot name with
    | true => rw [outfit_of_root hroot, outfit_of_root hroot]
    | false =>
      rw [outfit_of_not_root hroot, outfit_of_not_root hroot]
      unfold Tree.outfit?
      rw [Tree.logger?_mapLoggers]
      cases r.forget.tree.logger? name <;> simp [hmem]

theorem cached_mapCached (r : Registry) (f : Logger → Logger) :
    (r.mapCached f).cached = r.cached := by
  unfold mapCached
  split <;> rfl

end Registry

/-- All levels changed. -/
def Outfit.levelled (level : Level) (o : Outfit) : Outfit :=
  { o with level, handlers := o.handlers.map fun h => { h with level } }

/-- The handlers replaced by one, and the level changed. -/
def Outfit.renewed (template : String) (stream : Stream) (level : Level) (o : Outfit) : Outfit :=
  { o with level, handlers := [⟨level, template, stream⟩] }

/-- The template and the stream of a handler. -/
def Handler.style (h : Handler) : String × Stream := (h.template, h.stream)

/-- The template and the stream of a handler that nothing is said of. -/
def defaultStyle : String × Stream := (defaultTemplate, standardError)

/-- **What a command that succeeded configured**, if it did. -/
def configured? : Command × Outcome → Option (String × Stream)
  | (.configure _ template stream, .ok _) =>
    (templateOf template).toOption.map fun text => (text, stream.getD standardError)
  | _ => none

namespace Registry

variable {r r' : Registry} {c : Command} {outcome : Outcome}

/-- **The logger is in step**, with one handler of this style: it, its handler, and loggers to come
have one level, and it passes nothing on. -/
def InStep (r : Registry) (full : String) (style : String × Stream) : Prop :=
  ∃ level, r.fallback = .level level ∧
    r.outfit full = ⟨level, [⟨level, style.1, style.2⟩], false⟩

/-- **The invariant.** Every logger handed out is in step, and those not handed out have no handlers
yet. -/
structure Kept (r : Registry) : Prop where
  nodup : r.cached.Nodup
  named : ∀ full ∈ r.cached, ∃ name, full = normalize name
  inStep : ∀ full ∈ r.cached, ∃ style, r.InStep full style
  fresh : ∀ name, normalize name ∉ r.cached → (r.outfit (normalize name)).handlers = []

/-- **Only the package touches its loggers**: none is handed out yet, none has a handler, and there
is a level for those to come. -/
structure Untouched (r : Registry) : Prop where
  cached_eq : r.cached = []
  fallback_eq : ∃ level, r.fallback = .level level
  handlers_eq : ∀ name, (r.outfit (normalize name)).handlers = []

theorem Untouched.kept (h : r.Untouched) : r.Kept where
  nodup := by rw [h.cached_eq]; exact List.nodup_nil
  named := by rw [h.cached_eq]; exact fun _ hmem => absurd hmem List.not_mem_nil
  inStep := by rw [h.cached_eq]; exact fun _ hmem => absurd hmem List.not_mem_nil
  fresh name _ := h.handlers_eq name

/-- A registry under a setting that names a level is untouched. -/
theorem untouched_start {setting : Option String} {level : Level}
    (h : Threshold.ofName (setting.getD "WARNING") = .level level) : (start setting).Untouched where
  cached_eq := rfl
  fallback_eq := ⟨level, h⟩
  handlers_eq name := by
    rw [outfit_of_not_root (isRoot_normalize name)]
    rfl

/-- A logger in step has its place in the tree. -/
theorem Kept.placed (h : r.Kept) : r.Placed := by
  intro full hmem
  obtain ⟨name, rfl⟩ := h.named full hmem
  obtain ⟨style, level, -, houtfit⟩ := h.inStep _ hmem
  refine ⟨isRoot_normalize name, Option.ne_none_iff_exists'.1 fun hnone => ?_⟩
  rw [outfit_of_not_root (isRoot_normalize name), Tree.outfit?, hnone] at houtfit
  cases houtfit

/-- Nothing that counts is changed. -/
structure Alike (r r' : Registry) : Prop where
  cached_eq : r'.cached = r.cached
  fallback_eq : r'.fallback = r.fallback
  outfit_eq : ∀ name, r'.outfit name = r.outfit name

/-- **A threshold for all loggers**, with what is set up at its level of those handed out. -/
structure Reset (r : Registry) (t : Threshold) (g : Level → Outfit → Outfit) (r' : Registry) :
    Prop where
  cached_eq : r'.cached = r.cached
  fallback_eq : r'.fallback = t
  others : ∀ name ∉ r.cached, r'.outfit name = r.outfit name
  changed : ∀ name ∈ r.cached, ∃ level, t = .level level ∧ r'.outfit name = g level (r.outfit name)

/-- **All that a command can do** to a registry, and what comes back from it. -/
inductive Effect (r : Registry) : Command → Registry → Outcome → Prop
  /-- It fails, and changes nothing that counts. -/
  | refused {c : Command} {r' : Registry} {e : Fault} (h : r.Alike r') : Effect r c r' (.error e)
  /-- A logger is handed out again. -/
  | found {d : Datum} {name : Option String} (hname : nameOf d = .ok name)
      (hmem : normalize name ∈ r.cached) : Effect r (.get d) r (.ok (some (normalize name)))
  /-- A logger is made, and handed out. -/
  | made {d : Datum} {name : Option String} {r' : Registry} (hname : nameOf d = .ok name)
      (hnew : normalize name ∉ r.cached) (hcached : r'.cached = r.cached ++ [normalize name])
      (hfallback : r'.fallback = r.fallback)
      (hothers : ∀ other, normalize name ≠ other → r'.outfit other = r.outfit other)
      (hready : r'.InStep (normalize name) defaultStyle) :
      Effect r (.get d) r' (.ok (some (normalize name)))
  /-- All levels are set. -/
  | levelled {d : Datum} {t : Threshold} {r' : Registry} (hreset : r.Reset t Outfit.levelled r') :
      Effect r (.setLevel d) r' (.ok none)
  /-- All handlers are replaced. -/
  | configured {d template : Datum} {stream : Option Stream} {t : Threshold} {text : String}
      {r' : Registry} (htext : templateOf template = .ok text)
      (hreset : r.Reset t (Outfit.renewed text (stream.getD standardError)) r') :
      Effect r (.configure d template stream) r' (.ok none)

theorem Alike.rfl : r.Alike r := ⟨Eq.refl _, Eq.refl _, fun _ => Eq.refl _⟩

theorem toLevel_eq_ok {t : Threshold} {level : Level} (h : t.toLevel = .ok level) :
    t = .level level := by
  cases t with
  | level l =>
    cases h
    rfl
  | text s => cases h
  | styles => cases h

/-- To set all loggers fails with nothing changed, or sets them all. -/
theorem setAll_cases (hr : r.Placed) (t : Threshold) {f : Level → Logger → Logger}
    {g : Level → Outfit → Outfit} (hf : ∀ level l, (f level l).outfit = g level l.outfit) :
    (∃ e, r.setAll t f = (r, .error e)) ∨
      ∃ r', r.setAll t f = (r', .ok ()) ∧ r.Reset t g r' := by
  unfold setAll
  cases h : t.toLevel with
  | ok level =>
    have houtfit (name : String) := outfit_mapCached hr (hf level) name
    refine .inr ⟨_, rfl, cached_mapCached r (f level), rfl, fun name hmem => ?_,
      fun name hmem => ?_⟩
    · exact (houtfit name).trans (if_neg hmem)
    · exact ⟨level, toLevel_eq_ok h, (houtfit name).trans (if_pos hmem)⟩
  | error e =>
    by_cases hempty : r.cached.isEmpty = true
    · have hnone : ∀ name, name ∉ r.cached := fun name => by
        rw [List.isEmpty_iff.1 hempty]
        exact List.not_mem_nil
      simp only [hempty, if_true]
      exact .inr ⟨_, rfl, rfl, rfl, fun _ _ => rfl, fun name hmem => absurd hmem (hnone name)⟩
    · simp only [hempty]
      exact .inl ⟨e, rfl⟩

theorem cached_create (r : Registry) (name : String) : (r.create name).cached = r.cached := by
  unfold create
  split <;> rfl

theorem fallback_create (r : Registry) (name : String) :
    (r.create name).fallback = r.fallback := by
  unfold create
  split <;> rfl

theorem cached_modify (r : Registry) (name : String) (f : Logger → Logger) :
    (r.modify name f).cached = r.cached := by
  unfold modify
  split
  · rfl
  · split <;> rfl

theorem fallback_modify (r : Registry) (name : String) (f : Logger → Logger) :
    (r.modify name f).fallback = r.fallback := by
  unfold modify
  split
  · rfl
  · split <;> rfl

/-- **To hand out a logger**: one that is handed out already, or a new one, if there is a level for
it. -/
theorem get_effect (h : r.Kept) {d : Datum} {name : Option String} (hname : nameOf d = .ok name) :
    Effect r (.get d) (r.get name).1 ((r.get name).2.map some) := by
  unfold get
  by_cases hmem : normalize name ∈ r.cached
  · simp only [List.contains_iff_mem.2 hmem, if_true]
    exact .found hname hmem
  have hroot := isRoot_normalize name
  -- the new logger has nothing set up
  have hnone : ((r.create (normalize name)).logger (normalize name)).handlers = [] :=
    (congrArg Outfit.handlers (outfit_create r _ _)).trans (h.fresh name hmem)
  simp only [mt List.contains_iff_mem.1 hmem, Bool.false_eq_true, if_false]
  simp only [hnone, List.isEmpty_nil, Bool.not_true, Bool.false_eq_true, if_false]
  cases hlevel : (r.create (normalize name)).fallback.toLevel with
  | error e =>
    exact .refused ⟨cached_create r _, fallback_create r _, fun other => outfit_create r _ other⟩
  | ok level =>
    set handedOut : Registry := { r.create (normalize name) with
      cached := (r.create (normalize name)).cached ++ [normalize name] }
    set ready : Logger → Logger := fun l => { l with
      level
      handlers := [⟨level, defaultTemplate, standardError⟩]
      propagate := false }
    have hready (l : Logger) :
        (ready l).outfit = ⟨level, [⟨level, defaultTemplate, standardError⟩], false⟩ := rfl
    have hplace : ∃ l, handedOut.forget.tree.logger? (normalize name) = some l :=
      exists_logger_forget (r := handedOut) (exists_logger_create hroot r)
    have houtfit := outfit_modify hroot hplace hready
    have hfallback : (handedOut.forget.modify (normalize name) ready).fallback = r.fallback :=
      (fallback_modify _ _ _).trans (fallback_create r _)
    refine .made hname hmem ?_ hfallback (fun other hne => ?_) ⟨level, ?_, ?_⟩
    · rw [cached_modify]
      exact congrArg (· ++ [normalize name]) (cached_create r _)
    · rw [houtfit, if_neg hne, outfit_forget]
      exact outfit_create r _ other
    · rw [hfallback, ← fallback_create r (normalize name)]
      exact toLevel_eq_ok hlevel
    · rw [houtfit, if_pos rfl]
      rfl

/-- To set the level of all loggers fails with nothing changed, or sets them all. -/
theorem setLevel_cases (hr : r.Placed) (d : Datum) :
    (∃ e, r.setLevel d = (r, .error e)) ∨
      ∃ t r', r.setLevel d = (r', .ok ()) ∧ r.Reset t Outfit.levelled r' := by
  unfold setLevel
  cases Threshold.parse d with
  | error e => exact .inl ⟨e, rfl⟩
  | ok t =>
    have hlevelled (level : Level) (l : Logger) : Logger.outfit { l with
        level
        handlers := l.handlers.map fun h => { h with level } } = l.outfit.levelled level := rfl
    exact (setAll_cases hr t hlevelled).imp_right fun ⟨r', h⟩ => ⟨t, r', h⟩

/-- To replace all handlers fails with nothing changed, or replaces them all. -/
theorem configure_cases (hr : r.Placed) (d template : Datum) (stream : Stream) :
    (∃ e, r.configure d template stream = (r, .error e)) ∨
      ∃ t text r', r.configure d template stream = (r', .ok ()) ∧
        templateOf template = .ok text ∧ r.Reset t (Outfit.renewed text stream) r' := by
  unfold configure
  cases Threshold.parse d with
  | error e => exact .inl ⟨e, rfl⟩
  | ok t =>
    cases htext : templateOf template with
    | error e => exact .inl ⟨e, rfl⟩
    | ok text =>
      have hrenewed (level : Level) (l : Logger) : Logger.outfit { l with
          level
          handlers := [⟨level, text, stream⟩] } = l.outfit.renewed text stream level := rfl
      exact (setAll_cases hr t hrenewed).imp_right fun ⟨r', h, hreset⟩ =>
        ⟨t, text, r', h, rfl, hreset⟩

/-- **What a command does** where the invariant holds. -/
theorem perform_effect (h : r.Kept) (c : Command) :
    Effect r c (r.perform c).1 (r.perform c).2 := by
  cases c with
  | get d =>
    cases hname : nameOf d with
    | error e =>
      simp only [perform, hname]
      exact .refused .rfl
    | ok name =>
      simp only [perform, hname]
      exact get_effect h hname
  | setLevel d =>
    rcases setLevel_cases h.placed d with ⟨e, hset⟩ | ⟨t, r', hset, hreset⟩
    · simp only [perform, hset]
      exact .refused .rfl
    · simp only [perform, hset]
      exact .levelled hreset
  | configure d template stream =>
    rcases configure_cases h.placed d template (stream.getD standardError) with
      ⟨e, hset⟩ | ⟨t, text, r', hset, htext, hreset⟩
    · simp only [perform, hset]
      exact .refused .rfl
    · simp only [perform, hset]
      exact .configured htext hreset

/-- A logger stays in step where nothing that counts is changed. -/
theorem InStep.alike {full : String} {style : String × Stream} (h : r.InStep full style)
    (hfallback : r'.fallback = r.fallback) (houtfit : r'.outfit full = r.outfit full) :
    r'.InStep full style := by
  obtain ⟨level, hlevel, hfull⟩ := h
  exact ⟨level, hfallback.trans hlevel, houtfit.trans hfull⟩

/-- **A logger handed out stays in step**, and has the style that a command configures. -/
theorem Effect.inStep (h : Effect r c r' outcome) {full : String} (hmem : full ∈ r.cached)
    {style : String × Stream} (hstep : r.InStep full style) :
    full ∈ r'.cached ∧ r'.InStep full ((configured? (c, outcome)).getD style) := by
  cases h with
  | refused h =>
    have hnone (c : Command) (e : Fault) : configured? (c, .error e) = none := by cases c <;> rfl
    rw [hnone]
    exact ⟨h.cached_eq ▸ hmem, hstep.alike h.fallback_eq (h.outfit_eq full)⟩
  | found hname _ => exact ⟨hmem, hstep⟩
  | made hname hnew hcached hfallback hothers _ =>
    rw [hcached]
    refine ⟨List.mem_append_left _ hmem, hstep.alike hfallback (hothers full ?_)⟩
    rintro rfl
    exact hnew hmem
  | levelled h =>
    obtain ⟨level, ht, houtfit⟩ := h.changed full hmem
    obtain ⟨_, -, hold⟩ := hstep
    refine ⟨h.cached_eq ▸ hmem, level, h.fallback_eq.trans ht, ?_⟩
    rw [houtfit, hold]
    rfl
  | @configured d template stream t text r' htext h =>
    obtain ⟨level, ht, houtfit⟩ := h.changed full hmem
    obtain ⟨_, -, hold⟩ := hstep
    have hstyle : configured? (.configure d template stream, .ok none) =
        some (text, stream.getD standardError) := by
      rw [configured?, htext]
      rfl
    refine ⟨h.cached_eq ▸ hmem, level, h.fallback_eq.trans ht, ?_⟩
    rw [houtfit, hold, hstyle]
    rfl

/-- **Every command keeps the invariant.** -/
theorem Effect.kept (h : Effect r c r' outcome) (hr : r.Kept) : r'.Kept := by
  have hin (full : String) (hmem : full ∈ r.cached) : ∃ style, r'.InStep full style := by
    obtain ⟨style, hstep⟩ := hr.inStep full hmem
    exact ⟨_, (h.inStep hmem hstep).2⟩
  -- where no logger is handed out anew those that are not stay without handlers
  have hsame (hcached : r'.cached = r.cached)
      (hothers : ∀ name ∉ r.cached, r'.outfit name = r.outfit name) : r'.Kept := by
    refine ⟨hcached ▸ hr.nodup, hcached ▸ hr.named, hcached ▸ hin, fun name hnew => ?_⟩
    rw [hcached] at hnew
    rw [hothers _ hnew]
    exact hr.fresh name hnew
  cases h with
  | refused h => exact hsame h.cached_eq fun name _ => h.outfit_eq name
  | found _ _ => exact hr
  | @made d name r' hname hnew hcached hfallback hothers hready =>
    refine ⟨?_, ?_, ?_, fun other hother => ?_⟩
    · rw [hcached]
      exact List.nodup_append.2 ⟨hr.nodup, List.pairwise_singleton _ _,
        fun full hmem other hother heq => hnew (List.mem_singleton.1 hother ▸ heq ▸ hmem)⟩
    · rw [hcached, List.forall_mem_append, List.forall_mem_singleton]
      exact ⟨hr.named, name, rfl⟩
    · rw [hcached, List.forall_mem_append, List.forall_mem_singleton]
      exact ⟨hin, _, hready⟩
    · rw [hcached, List.mem_append, List.mem_singleton, not_or] at hother
      rw [hothers _ (Ne.symm hother.2)]
      exact hr.fresh other hother.1
  | levelled h => exact hsame h.cached_eq h.others
  | configured _ h => exact hsame h.cached_eq h.others

theorem performAll_cons (r : Registry) (c : Command) (cs : List Command) :
    r.performAll (c :: cs) =
      (((r.perform c).1.performAll cs).1,
        (c, (r.perform c).2) :: ((r.perform c).1.performAll cs).2) := rfl

/-- **Any commands keep the invariant**: by induction over them. -/
theorem Kept.performAll (h : r.Kept) (cs : List Command) : (r.performAll cs).1.Kept := by
  induction cs generalizing r with
  | nil => exact h
  | cons c cs ih => exact ih ((perform_effect h c).kept h)

/-- **A logger handed out stays in step** through any commands, with the style configured last. -/
theorem InStep.performAll {full : String} {style : String × Stream} (hstep : r.InStep full style)
    (h : r.Kept) (hmem : full ∈ r.cached) (cs : List Command) :
    full ∈ (r.performAll cs).1.cached ∧
      (r.performAll cs).1.InStep full
        (((r.performAll cs).2.filterMap configured?).getLast?.getD style) := by
  induction cs generalizing r style with
  | nil => exact ⟨hmem, hstep⟩
  | cons c cs ih =>
    have heffect := perform_effect h c
    obtain ⟨hmem', hstep'⟩ := heffect.inStep hmem hstep
    obtain ⟨hlast, hrest⟩ := ih hstep' (heffect.kept h) hmem'
    rw [performAll_cons, List.filterMap_cons]
    refine ⟨hlast, ?_⟩
    -- what is configured later counts, and what this command configures if nothing is
    cases hc : configured? (c, (r.perform c).2) with
    | none =>
      rw [hc] at hrest
      exact hrest
    | some style' =>
      rw [hc] at hrest
      rw [List.getLast?_cons]
      exact hrest

/-- What a command hands out is the logger of the full name. -/
theorem Effect.get_eq {d : Datum} {full : String} (h : Effect r (.get d) r' (.ok (some full))) :
    full ∈ r'.cached ∧ ∃ name, nameOf d = .ok name ∧ full = normalize name := by
  cases h with
  | found hname hmem => exact ⟨hmem, _, hname, rfl⟩
  | made hname _ hcached _ _ _ =>
    rw [hcached]
    exact ⟨List.mem_append_right _ (List.mem_singleton_self _), _, hname, rfl⟩

/-- A new logger is in step, with the default style. -/
theorem Effect.get_new {d : Datum} {full : String} (h : Effect r (.get d) r' (.ok (some full)))
    (hnew : full ∉ r.cached) : r'.InStep full defaultStyle := by
  cases h with
  | found _ hmem => exact absurd hmem hnew
  | made _ _ _ _ _ hready => exact hready

/-- **Every logger handed out** by any commands stays handed out, and is that of a full name. -/
theorem Kept.handedOut (h : r.Kept) (cs : List Command) {d : Datum} {full : String}
    (hget : (.get d, .ok (some full)) ∈ (r.performAll cs).2) :
    full ∈ (r.performAll cs).1.cached ∧ ∃ name, nameOf d = .ok name ∧ full = normalize name := by
  induction cs generalizing r with
  | nil => exact absurd hget List.not_mem_nil
  | cons c cs ih =>
    have heffect := perform_effect h c
    have hkept := heffect.kept h
    rw [performAll_cons, List.mem_cons] at hget
    rw [performAll_cons]
    rcases hget with hget | hget
    · obtain ⟨hc, hout⟩ := Prod.mk.inj hget
      subst hc
      rw [← hout] at heffect
      obtain ⟨hmem, hname⟩ := heffect.get_eq
      obtain ⟨style, hstep⟩ := hkept.inStep full hmem
      exact ⟨(hstep.performAll hkept hmem cs).1, hname⟩
    · exact ih hkept hget

/-- To set the level changes no style. -/
theorem styles_setLevel (h : r.Kept) (d : Datum) (full : String) :
    ((r.setLevel d).1.outfit full).handlers.map Handler.style =
      (r.outfit full).handlers.map Handler.style := by
  rcases setLevel_cases h.placed d with ⟨e, hset⟩ | ⟨t, r', hset, hreset⟩
  · rw [hset]
  · rw [hset]
    by_cases hmem : full ∈ r.cached
    · obtain ⟨level, -, houtfit⟩ := hreset.changed full hmem
      rw [houtfit, Outfit.levelled, List.map_map]
      rfl
    · rw [hreset.others full hmem]

end Registry

/-- **The registry invariant.** Let a registry be touched by commands only. After any of them, some
of which may have failed, every logger handed out has one handler, passes nothing on, and has with
its handler the level of the loggers to come. Names are handed one logger exactly if their full
names are the same. A logger that is made then has, after any more commands, the template and the
stream configured last, or the default ones. To set the level changes neither for any logger, and a
command that fails changes nothing. -/
theorem registry_invariant {r₀ r : Registry} {before : List Command} {history : History}
    (h₀ : r₀.Untouched) (hrun : r₀.performAll before = (r, history)) :
    (∀ full ∈ r.cached, ∃ level template stream, r.fallback = .level level ∧
      (r.logger full).level = level ∧ (r.logger full).handlers = [⟨level, template, stream⟩] ∧
      (r.logger full).propagate = false) ∧
    (∀ d d' full full', (.get d, .ok (some full)) ∈ history →
      (.get d', .ok (some full')) ∈ history →
      full ∈ r.cached ∧ ∃ name name', nameOf d = .ok name ∧ nameOf d' = .ok name' ∧
        (full = full' ↔ normalize name = normalize name')) ∧
    (normalize none = packageName ∧ ∀ name : String,
      (name = packageName ∨ (packageName ++ ".").toList <+: name.toList →
        normalize (some name) = name) ∧
      (name ≠ packageName → ¬ (packageName ++ ".").toList <+: name.toList →
        normalize (some name) = packageName ++ "." ++ name)) ∧
    (∀ name, normalize (some (normalize name)) = normalize name) ∧
    (∀ d full r₁, full ∉ r.cached → r.perform (.get d) = (r₁, .ok (some full)) →
      ∀ later r₂ history₂, r₁.performAll later = (r₂, history₂) →
        full ∈ r₂.cached ∧ (r₂.logger full).handlers.map Handler.style =
          [(history₂.filterMap configured?).getLast?.getD defaultStyle]) ∧
    (∀ d full, ((r.setLevel d).1.logger full).handlers.map Handler.style =
      (r.logger full).handlers.map Handler.style) ∧
    (∀ c r₁ e, r.perform c = (r₁, .error e) → r₁.cached = r.cached ∧ r₁.fallback = r.fallback ∧
      ∀ full, (r₁.logger full).outfit = (r.logger full).outfit) := by
  have hkept := h₀.kept.performAll before
  have hhanded {d : Datum} {full : String} :=
    @Registry.Kept.handedOut _ h₀.kept before d full
  rw [hrun] at hkept hhanded
  refine ⟨fun full hmem => ?_, fun d d' full full' hget hget' => ?_, normalize_spec,
    normalize_normalize, fun d full r₁ hnew hget later r₂ history₂ hlater => ?_,
    fun d full => Registry.styles_setLevel hkept d full, fun c r₁ e hfail => ?_⟩
  · obtain ⟨style, level, hlevel, houtfit⟩ := hkept.inStep full hmem
    exact ⟨level, style.1, style.2, hlevel, congrArg Outfit.level houtfit,
      congrArg Outfit.handlers houtfit, congrArg Outfit.propagate houtfit⟩
  · obtain ⟨hmem, name, hname, rfl⟩ := hhanded hget
    obtain ⟨-, name', hname', rfl⟩ := hhanded hget'
    exact ⟨hmem, name, name', hname, hname', Iff.rfl⟩
  · have heffect := Registry.perform_effect hkept (.get d)
    rw [hget] at heffect
    obtain ⟨hmem, hlast⟩ := (heffect.get_new hnew).performAll (heffect.kept hkept)
      heffect.get_eq.1 later
    rw [hlater] at hmem hlast
    obtain ⟨level, -, houtfit⟩ := hlast
    refine ⟨hmem, ?_⟩
    exact congrArg (fun o : Outfit => o.handlers.map Handler.style) houtfit
  · have heffect := Registry.perform_effect hkept c
    rw [hfail] at heffect
    cases heffect with
    | refused h => exact ⟨h.cached_eq, h.fallback_eq, h.outfit_eq⟩

/-- Two loggers, one made before and one after handlers are replaced, and a command that fails. -/
theorem registry_invariant_reconfigured :
    ∃ r history, (Registry.start none).performAll
        [.get .nothing, .configure (.int 10) (.text "%(message)s") (some "file"),
          .configure (.int 50) (.text "no field") none, .get (.text "solver")] = (r, history) ∧
      r.cached = ["bfgsmin", "bfgsmin.solver"] ∧ r.fallback = .level 10 ∧
      ∀ full ∈ r.cached, (r.logger full).level = 10 ∧ (r.logger full).propagate = false := by
  have huntouched : (Registry.start none).Untouched :=
    Registry.untouched_start (show Threshold.ofName _ = .level warning by decide +kernel)
  have hinvariant := registry_invariant huntouched
    (show (Registry.start none).performAll
      [.get .nothing, .configure (.int 10) (.text "%(message)s") (some "file"),
        .configure (.int 50) (.text "no field") none, .get (.text "solver")] = (_, _) from rfl)
  refine ⟨_, _, rfl, by decide +kernel, by decide +kernel, fun full hmem => ?_⟩
  obtain ⟨level, template, stream, hlevel, hown, -, hpropagate⟩ := hinvariant.1 full hmem
  have hten : (.level level : Threshold) = .level 10 := hlevel.symm.trans (by decide +kernel)
  cases hten
  exact ⟨hown, hpropagate⟩

end VariableMetric.Logging
