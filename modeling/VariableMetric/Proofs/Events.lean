import Mathlib.Data.List.Nodup
import VariableMetric.Objective.Basic
import VariableMetric.Proofs.Tally

/-!
# What a request means to the partners of a run

A run talks to its partners by requests. Each of them means calls of callables, or notices to
observers and to the callback.

* `Make`, `Objective.make`: the makes of objectives, and the calls that each answers a request by.
* `Event`, `Event.ofRequest`: what partners are put through, and by which request.
* `Course.events`: **the events of a course**; what of them are calls (`count_calls_events`),
  reports to the callback (`reports_events`), notices to one observer (`notices_events`), and
  notices to anyone (`filter_isNotice_events`).
-/

namespace VariableMetric

variable {α ν : Type} {n : ℕ}

/-- The makes of objectives. A joint or a custom one may have a callable for the value alone. -/
inductive Make where
  | apart
  | joint (alone : Bool)
  | custom (alone : Bool)
  | tracked
  deriving DecidableEq

namespace Make

/-- The calls that answer a request for a value. -/
def valueCalls : Make → List Call
  | .apart | .joint true | .custom true => [.value]
  | .joint false | .custom false => [.joint]
  | .tracked => [.untracked]

/-- The calls that answer a request for a value and a gradient. -/
def gradientCalls : Make → List Call
  | .apart => [.value, .gradient]
  | .joint _ | .custom _ => [.joint]
  | .tracked => [.tracked]

end Make

/-- The make of an objective. -/
def Objective.make : Objective α ν → Make
  | .apart .. => .apart
  | .joint _ f => .joint f.isSome
  | .custom _ f => .custom f.isSome
  | .tracked .. => .tracked

/-- **What the partners of a run are put through.** -/
inductive Event (α : Type) where
  /-- A callable of the objective is called. -/
  | called (c : Call)
  /-- Observer `i` is told of an iteration. -/
  | told (i n : ℕ) (q : Record α n)
  /-- The callback is told of an iteration. -/
  | reported (n : ℕ) (q : Record α n)
  /-- Observer `i` is told of the result. -/
  | finished (i n : ℕ) (r : Result α n)

/-- The events of a request, where the objective is of make `m` and there are `count` observers. -/
def Event.ofRequest (m : Make) (count : ℕ) : Request α n → List (Event α)
  | .value _ => m.valueCalls.map .called
  | .gradient _ => m.gradientCalls.map .called
  | .stop | .remark _ => []
  | .record q => (List.range' 0 count).map (.told · n q) ++ [.reported n q]
  | .finish r => (List.range' 0 count).map (.finished · n r)

namespace Event

/-- The call, if the event is one. -/
def call? : Event α → Option Call
  | .called c => some c
  | _ => none

/-- The callback is told of an iteration. -/
def isReport : Event α → Bool
  | .reported .. => true
  | _ => false

/-- Observer `i` is told of an iteration or of the result. -/
def isTo (i : ℕ) : Event α → Bool
  | .told j _ _ | .finished j _ _ => j == i
  | _ => false

/-- Someone is told of an iteration or of the result. -/
def isNotice : Event α → Bool
  | .called _ => false
  | _ => true

/-- What `count` observers and the callback are told of an iteration, in this order. -/
def ofRecord (count : ℕ) (q : Record α n) : List (Event α) :=
  (List.range' 0 count).map (.told · n q) ++ [.reported n q]

/-- What observer `i` is told by a request. -/
def noticesTo (i : ℕ) : Request α n → List (Event α)
  | .record q => [.told i n q]
  | .finish r => [.finished i n r]
  | _ => []

end Event

namespace Course

/-- **The events of a course.** -/
def events (m : Make) (count : ℕ) (c : Course α n) : List (Event α) :=
  c.flatMap fun e => Event.ofRequest m count e.question

/-- **The calls of a course**, by how many values were asked for without and with a gradient. -/
theorem count_calls_events (m : Make) (count : ℕ) (c : Course α n) (k : Call) :
    ((events m count c).filterMap Event.call?).count k =
      (asked c).1 * m.valueCalls.count k + (asked c).2 * m.gradientCalls.count k := by
  have hcalls (ks : List Call) :
      (ks.map (Event.called (α := α))).filterMap Event.call? = ks := by
    rw [List.filterMap_map]
    exact List.filterMap_some
  have hnone {f : ℕ → Event α} (hf : ∀ i, (f i).call? = none) (is : List ℕ) :
      (is.map f).filterMap Event.call? = [] := by
    rw [List.filterMap_map, List.filterMap_eq_nil_iff]
    exact fun i _ => hf i
  rw [events, List.filterMap_flatMap]
  induction c with
  | nil => simp [asked]
  | cons e c ih =>
    rw [List.flatMap_cons, List.count_append, ih, ← List.singleton_append, asked_append]
    obtain ⟨q, a⟩ := e
    cases q with
    | value x =>
      have hone : asked [(⟨.value x, a⟩ : Exchange (Request α n) _)] = (1, 0) := rfl
      rw [Event.ofRequest, hcalls, hone, Prod.fst_add, Prod.snd_add, Nat.add_mul, Nat.zero_add,
        Nat.one_mul, Nat.add_assoc]
    | gradient x =>
      have hone : asked [(⟨.gradient x, a⟩ : Exchange (Request α n) _)] = (0, 1) := rfl
      rw [Event.ofRequest, hcalls, hone, Prod.fst_add, Prod.snd_add, Nat.add_mul 1, Nat.zero_add,
        Nat.one_mul]
      omega
    | stop | remark r =>
      have hzero : asked [(⟨_, a⟩ : Exchange (Request α n) _)] = (0, 0) := rfl
      rw [hzero, Prod.fst_add, Prod.snd_add, Nat.zero_add, Nat.zero_add]
      exact Nat.zero_add _
    | record q =>
      have hzero : asked [(⟨.record q, a⟩ : Exchange (Request α n) _)] = (0, 0) := rfl
      rw [Event.ofRequest, List.filterMap_append, hnone fun _ => rfl, hzero, Prod.fst_add,
        Prod.snd_add, Nat.zero_add, Nat.zero_add]
      exact Nat.zero_add _
    | finish r =>
      have hzero : asked [(⟨.finish r, a⟩ : Exchange (Request α n) _)] = (0, 0) := rfl
      rw [Event.ofRequest, hnone fun _ => rfl, hzero, Prod.fst_add, Prod.snd_add, Nat.zero_add,
        Nat.zero_add]
      exact Nat.zero_add _

/-- **The reports of a course** are its records. -/
theorem reports_events (m : Make) (count : ℕ) (c : Course α n) :
    (events m count c).filter Event.isReport = (records c).map (Event.reported n) := by
  have hnone {β : Type} {f : β → Event α} (hf : ∀ b, (f b).isReport = false) (bs : List β) :
      (bs.map f).filter Event.isReport = [] := by
    rw [List.filter_eq_nil_iff]
    rintro _ hb
    obtain ⟨b, -, rfl⟩ := List.mem_map.1 hb
    simp only [hf, Bool.false_eq_true, not_false_eq_true]
  rw [events, List.filter_flatMap]
  induction c with
  | nil => rfl
  | cons e c ih =>
    rw [List.flatMap_cons, ih, ← List.singleton_append, records_append, List.map_append]
    congr 1
    obtain ⟨q, a⟩ := e
    cases q with
    | value x => exact hnone (fun _ => rfl) _
    | gradient x => exact hnone (fun _ => rfl) _
    | stop => rfl
    | remark r => rfl
    | record q =>
      rw [Event.ofRequest, List.filter_append, hnone fun _ => rfl]
      rfl
    | finish r => exact hnone (fun _ => rfl) _

/-- **The notices to an observer** are one for each request that tells of something. -/
theorem notices_events (m : Make) {count i : ℕ} (hi : i < count) (c : Course α n) :
    (events m count c).filter (Event.isTo i) = c.flatMap fun e => Event.noticesTo i e.question := by
  have hone {f : ℕ → Event α} (hf : ∀ j, (f j).isTo i = (j == i)) :
      ((List.range' 0 count).map f).filter (Event.isTo i) = [f i] := by
    have hcount : (List.range' 0 count).count i = 1 :=
      List.count_eq_one_of_mem List.nodup_range' (List.mem_range'_1.2 ⟨Nat.zero_le i, by omega⟩)
    have hcomp : Event.isTo i ∘ f = fun j => j == i := funext hf
    rw [List.filter_map, hcomp, List.filter_beq, hcount]
    rfl
  have hnone (ks : List Call) : (ks.map (Event.called (α := α))).filter (Event.isTo i) = [] := by
    rw [List.filter_eq_nil_iff]
    rintro _ hk
    obtain ⟨k, -, rfl⟩ := List.mem_map.1 hk
    exact Bool.false_ne_true
  rw [events, List.filter_flatMap]
  congr 1
  funext e
  obtain ⟨q, a⟩ := e
  cases q with
  | value x => exact hnone _
  | gradient x => exact hnone _
  | stop => rfl
  | remark r => rfl
  | record q =>
    rw [Event.ofRequest, List.filter_append, hone fun _ => rfl]
    rfl
  | finish r => exact hone fun _ => rfl

/-- Before the result, an observer is told of the records. -/
theorem notices_eq_told {c : Course α n} (h : ∀ q ∈ c, ∀ r, q.question ≠ .finish r) (i : ℕ) :
    (c.flatMap fun e => Event.noticesTo i e.question) = (records c).map (.told i n) := by
  induction c with
  | nil => rfl
  | cons e c ih =>
    obtain ⟨he, hc⟩ := List.forall_mem_cons.1 h
    rw [List.flatMap_cons, ih hc, ← List.singleton_append, records_append, List.map_append]
    congr 1
    obtain ⟨q, a⟩ := e
    cases q with
    | finish r => exact absurd rfl (he r)
    | value | gradient | stop | remark | record => rfl

/-- **Before the result, all notices** are those of the records. -/
theorem filter_isNotice_events (m : Make) (count : ℕ) {c : Course α n}
    (h : ∀ q ∈ c, ∀ r, q.question ≠ .finish r) :
    (events m count c).filter Event.isNotice = (records c).flatMap (Event.ofRecord count) := by
  have hcalls (ks : List Call) : (ks.map (Event.called (α := α))).filter Event.isNotice = [] := by
    rw [List.filter_eq_nil_iff]
    rintro _ hk
    obtain ⟨k, -, rfl⟩ := List.mem_map.1 hk
    exact Bool.false_ne_true
  have hrecord (q : Record α n) :
      (Event.ofRecord count q).filter Event.isNotice = Event.ofRecord count q := by
    rw [Event.ofRecord, List.filter_eq_self, List.forall_mem_append, List.forall_mem_singleton]
    refine ⟨fun e he => ?_, rfl⟩
    obtain ⟨i, -, rfl⟩ := List.mem_map.1 he
    rfl
  induction c with
  | nil => rfl
  | cons e c ih =>
    obtain ⟨he, hc⟩ := List.forall_mem_cons.1 h
    rw [events, List.flatMap_cons, List.filter_append, ← events, ih hc, ← List.singleton_append,
      records_append, List.flatMap_append]
    congr 1
    obtain ⟨q, a⟩ := e
    cases q with
    | finish r => exact absurd rfl (he r)
    | value x => exact hcalls _
    | gradient x => exact hcalls _
    | record q => exact (hrecord q).trans (List.append_nil _).symm
    | stop | remark r => rfl

end Course

end VariableMetric
