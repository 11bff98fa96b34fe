import VariableMetric.Proofs.Deeds

/-!
# Thresholds by name

A threshold is told by a level's name in any case, and a text that names no level stands for
warnings. There are two exceptions, texts that stand for something that is no level: they are
refused where there are loggers, and are taken for the threshold of loggers to come where there are
none.

* `inCapitals`, `levelNames`: names in capitals, and the levels that they name.
* `Threshold.ofName_eq`: **what a text stands for**.
* `Command.Asks`: the commands that ask for a threshold; `Registry.perform_asks`: each of them sets
  all loggers.
* `Registry.SetTo`: all loggers, their handlers and those to come at one level.
* `levels_by_name`: **what comes of a text**, after anything that was done.
-/

namespace VariableMetric.Logging

section Names

/-- A name in capitals. -/
def inCapitals (s : String) : String := String.ofList (s.toList.flatMap capitals)

/-- **The levels by their names.** -/
def levelNames : List (String × Level) :=
  [("CRITICAL", 50), ("FATAL", 50), ("ERROR", 40), ("WARN", 30), ("WARNING", 30), ("INFO", 20),
    ("DEBUG", 10), ("NOTSET", 0)]

theorem namedLevel?_eq_lookup (key : String) : namedLevel? key = levelNames.lookup key := by
  by_cases hmem : key ∈ levelNames.map (·.1)
  · have hall : ∀ k ∈ levelNames.map (·.1), namedLevel? k = levelNames.lookup k := by decide
    exact hall key hmem
  · have hnone : levelNames.lookup key = none := by
      rw [List.lookup_eq_none_iff]
      intro e he
      rw [bne_iff_ne]
      rintro rfl
      exact hmem (List.mem_map_of_mem he)
    simp only [levelNames, List.map_cons, List.map_nil, List.mem_cons, List.not_mem_nil, or_false,
      not_or] at hmem
    rw [hnone]
    simp [namedLevel?, hmem]

/-- **What a text stands for**: the level that it names, warnings if it names none. -/
theorem Threshold.ofName_eq {s : String} (htemplate : inCapitals s ≠ templateName)
    (hstyles : inCapitals s ≠ stylesName) :
    ofName s = .level ((levelNames.lookup (inCapitals s)).getD warning) := by
  unfold inCapitals at htemplate hstyles ⊢
  unfold ofName
  dsimp only
  rw [← namedLevel?_eq_lookup, if_neg htemplate, if_neg hstyles]
  cases namedLevel? (String.ofList (s.toList.flatMap capitals)) <;> rfl

theorem Threshold.ofName_template {s : String} (h : inCapitals s = templateName) :
    ofName s = .text templateText := by
  unfold inCapitals at h
  unfold ofName
  rw [h]
  rfl

theorem Threshold.ofName_styles {s : String} (h : inCapitals s = stylesName) :
    ofName s = .styles := by
  unfold inCapitals at h
  unfold ofName
  rw [h]
  rfl

end Names

/-- A logger with all its levels changed. -/
def Logger.levelled (level : Level) (l : Logger) : Logger :=
  { l with level, handlers := l.handlers.map fun h => { h with level } }

/-- A logger with its handlers replaced by one, and its level changed. -/
def Logger.renewed (template : String) (stream : Stream) (level : Level) (l : Logger) : Logger :=
  { l with level, handlers := [⟨level, template, stream⟩] }

/-- What is set up is at a level, handlers and all. -/
def Outfit.AtLevel (level : Level) (o : Outfit) : Prop :=
  o.level = level ∧ ∀ h ∈ o.handlers, h.level = level

theorem Outfit.atLevel_levelled (level : Level) (o : Outfit) :
    (o.levelled level).AtLevel level := by
  refine ⟨rfl, fun h hmem => ?_⟩
  obtain ⟨h', -, rfl⟩ := List.mem_map.1 hmem
  rfl

theorem Outfit.atLevel_renewed (template : String) (stream : Stream) (level : Level) (o : Outfit) :
    (o.renewed template stream level).AtLevel level := by
  refine ⟨rfl, fun h hmem => ?_⟩
  rw [List.mem_singleton.1 hmem]

/-- **A command asks for a threshold** by a value: to set the level, or to replace the handlers. The
template has to be one then. -/
inductive Command.Asks (d : Datum) : Command → Prop
  | setLevel : Asks d (.setLevel d)
  | configure {template : Datum} {text : String} (htext : templateOf template = .ok text)
      (stream : Option Stream) : Asks d (.configure d template stream)

namespace Registry

variable {r r' : Registry} {t : Threshold} {c : Command} {d : Datum} {level : Level}

/-- **A level for all loggers** is never refused. -/
theorem setAll_level (hr : r.Placed) {f : Level → Logger → Logger} {g : Level → Outfit → Outfit}
    (hf : ∀ level l, (f level l).outfit = g level l.outfit) (level : Level) :
    ∃ r', r.setAll (.level level) f = (r', .ok ()) ∧ r.Reset (.level level) g r' := by
  rcases setAll_cases hr (.level level) hf with ⟨e, h⟩ | h
  · cases congrArg Prod.snd h
  · exact h

/-- **What is no level** is refused if there are loggers, and goes unseen if there are none. -/
theorem setAll_error {e : Fault} (ht : t.toLevel = .error e) (f : Level → Logger → Logger) :
    r.setAll t f = if r.cached = [] then ({ r with fallback := t }, .ok ()) else (r, .error e) := by
  unfold setAll
  rw [ht]
  simp only [List.isEmpty_iff]

/-- How a command changes each of the loggers, at a level. -/
structure Changes (f : Level → Logger → Logger) (g : Level → Outfit → Outfit) : Prop where
  outfit : ∀ level l, (f level l).outfit = g level l.outfit
  decisions : ∀ level l, (f level l).decisions = l.decisions
  atLevel : ∀ level o, (g level o).AtLevel level

/-- **A command that asks for a threshold** sets all loggers to it. -/
theorem perform_asks (hc : c.Asks d) (hd : Threshold.parse d = .ok t) :
    ∃ f g, Changes f g ∧
      ∀ r : Registry, r.perform c = ((r.setAll t f).1, (r.setAll t f).2.map fun _ => none) := by
  cases hc with
  | setLevel =>
    refine ⟨Logger.levelled, Outfit.levelled,
      ⟨fun _ _ => rfl, fun _ _ => rfl, Outfit.atLevel_levelled⟩, fun r => ?_⟩
    simp only [perform, setLevel, hd]
    rfl
  | @configure template text htext stream =>
    refine ⟨Logger.renewed text (stream.getD standardError),
      Outfit.renewed text (stream.getD standardError),
      ⟨fun _ _ => rfl, fun _ _ => rfl, Outfit.atLevel_renewed text _⟩, fun r => ?_⟩
    simp only [perform, configure, hd, htext]
    rfl

/-- **All loggers are set to a level**, with their handlers, and so are those to come. -/
structure SetTo (r : Registry) (level : Level) (r' : Registry) : Prop where
  cached_eq : r'.cached = r.cached
  fallback_eq : r'.fallback = .level level
  loggers : ∀ full ∈ r.cached, (r'.logger full).level = level ∧
    ∀ h ∈ (r'.logger full).handlers, h.level = level

/-- A command that asks for a level sets all loggers to it. -/
theorem perform_level (hr : r.Placed) (hc : c.Asks d)
    (hd : Threshold.parse d = .ok (.level level)) :
    ∃ r', r.perform c = (r', .ok none) ∧ r.SetTo level r' := by
  obtain ⟨f, g, hchanges, hperform⟩ := perform_asks hc hd
  obtain ⟨r', hset, hreset⟩ := setAll_level hr hchanges.outfit level
  have hok : r.perform c = (r', .ok none) := by
    rw [hperform, hset]
    rfl
  refine ⟨r', hok, hreset.cached_eq, hreset.fallback_eq, fun full hmem => ?_⟩
  obtain ⟨level', heq, houtfit⟩ := hreset.changed full hmem
  cases heq
  have hlevel := hchanges.atLevel level (r.outfit full)
  rw [← houtfit] at hlevel
  exact hlevel

/-- A command that asks for what is no level. -/
theorem perform_error {e : Fault} (hc : c.Asks d) (hd : Threshold.parse d = .ok t)
    (ht : t.toLevel = .error e) :
    r.perform c =
      if r.cached = [] then ({ r with fallback := t }, .ok none) else (r, .error e) := by
  obtain ⟨f, g, -, hperform⟩ := perform_asks hc hd
  rw [hperform, setAll_error ht]
  split <;> rfl

end Registry

/-- **Levels by name.** After anything that was done, each of the commands that ask for a threshold
by a text sets all loggers, their handlers and those to come to the level that the text names in
capitals, and to warnings if it names none. Two texts are neither: where there are loggers they are
refused as a wrong value and as a value of a wrong type, with nothing changed, and where there are
none they become, unseen, the threshold of those to come. -/
theorem levels_by_name (setting : Option String) (deeds : List Deed) (s : String) :
    let r := (Registry.start setting).actAll deeds
    (inCapitals s ≠ templateName ∧ inCapitals s ≠ stylesName → ∀ c : Command, c.Asks (.text s) →
      ∃ r', r.perform c = (r', .ok none) ∧
        r.SetTo ((levelNames.lookup (inCapitals s)).getD warning) r') ∧
    (inCapitals s = templateName → ∀ c : Command, c.Asks (.text s) →
      (Fault.unknownLevel templateText).kind = .value ∧
      r.perform c = if r.cached = [] then ({ r with fallback := .text templateText }, .ok none)
        else (r, .error (.unknownLevel templateText))) ∧
    (inCapitals s = stylesName → ∀ c : Command, c.Asks (.text s) →
      Fault.levelIsStyles.kind = .type ∧
      r.perform c = if r.cached = [] then ({ r with fallback := .styles }, .ok none)
        else (r, .error .levelIsStyles)) := by
  intro r
  have hplaced : r.Placed := (Registry.placed_start setting).actAll deeds
  have hparse {t : Threshold} (h : Threshold.ofName s = t) :
      Threshold.parse (.text s) = .ok t := congrArg Except.ok h
  refine ⟨fun ⟨htemplate, hstyles⟩ c hc => ?_, fun htemplate c hc => ?_, fun hstyles c hc => ?_⟩
  · exact Registry.perform_level hplaced hc (hparse (Threshold.ofName_eq htemplate hstyles))
  · exact ⟨rfl, Registry.perform_error hc (hparse (Threshold.ofName_template htemplate)) rfl⟩
  · exact ⟨rfl, Registry.perform_error hc (hparse (Threshold.ofName_styles hstyles)) rfl⟩

/-- The name of a text that is no level, in small letters: the logger stays at the level that it had
before, and does not go to that of warnings. -/
theorem level_refused_by_name :
    let r := (Registry.start none).actAll
      [.command (.get (.text "a")), .command (.setLevel (.text "DEBUG"))]
    levelNames.lookup (inCapitals "basic_format") = none ∧
      r.perform (.setLevel (.text "basic_format")) = (r, .error (.unknownLevel templateText)) ∧
      r.cached = ["bfgsmin.a"] ∧ (r.logger "bfgsmin.a").level = 10 ∧
      (r.logger "bfgsmin.a").handlers.map (·.level) = [10] ∧ r.fallback = .level 10 := by
  intro r
  have hname : inCapitals "basic_format" = templateName := by decide
  have hcached : r.cached = ["bfgsmin.a"] := by decide +kernel
  have hparse : Threshold.parse (.text "basic_format") = .ok (.text templateText) :=
    congrArg Except.ok (Threshold.ofName_template hname)
  have hperform := Registry.perform_error (r := r) .setLevel hparse rfl
  rw [hcached, if_neg (List.cons_ne_nil _ _)] at hperform
  exact ⟨by decide, hperform, hcached, by decide +kernel, by decide +kernel, by decide +kernel⟩

end VariableMetric.Logging
