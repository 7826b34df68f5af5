import Polaris.Store.Value

/-!
# The discovery statistics of `discoverlocal`

`DiscoverCallStatis` keeps, per service (name and namespace), the time of the last discovery
call: `add` writes `statis[service] = dc.time`, and `log` writes one line per entry, in the
order `range` visits the map, to a buffer it hands to `logger.Info`, then starts an empty
map; on an empty map it does nothing.

A Go map is modelled by its entries, each key once (`DiscoverCallStatis` carries that as a
field); `range` visits them in the order `visit` gives, and `time.Format` is the parameter
`format`.  `log` returns what it passes to `logger.Info`, if anything.

The statistics are an accumulator between two reports.  What a report should say is stated
on the calls alone: `sinceLastLog` is the calls made since the last `log`, and
`lastTime calls service` the time of the last of them for `service`.

Principal results:

* `represents_run` — after any sequence of calls and reports, the map holds, for each
  service, the time of its last call since the last report, and nothing else;
* `log_reports_calls_since_last_log` — so every report is the lines `reportLine` of the
  services called since the previous one, each exactly once and with the time of its last
  call, in whatever order `range` visits the map; a report with no call since the previous
  one writes nothing.
-/

set_option autoImplicit false

namespace Polaris

/-- `Service`, the key of the statistics map. -/
structure Service where
  name : Bytes
  ns : Bytes
  deriving DecidableEq, Repr

/-- `DiscoverCall`. -/
structure DiscoverCall where
  service : Bytes
  ns : Bytes
  time : Time
  deriving DecidableEq, Repr

/-- The key `add` files a call under. -/
def DiscoverCall.key (dc : DiscoverCall) : Service := ⟨dc.service, dc.ns⟩

/-- `DiscoverCallStatis`, by its map `statis`: its entries, each service once. -/
structure DiscoverCallStatis where
  statis : List (Service × Time)
  keys_nodup : (statis.map Prod.fst).Nodup

/-- `make(map[Service]time.Time)`. -/
def DiscoverCallStatis.empty : DiscoverCallStatis := ⟨[], List.nodup_nil⟩

/-- `statis[k]`, `none` for a key the map lacks. -/
def DiscoverCallStatis.get (d : DiscoverCallStatis) (k : Service) : Option Time :=
  (d.statis.find? fun e => e.1 = k).map Prod.snd

/-- `statis[k] = t`. -/
def DiscoverCallStatis.set (d : DiscoverCallStatis) (k : Service) (t : Time) :
    DiscoverCallStatis where
  statis := d.statis.filter (fun e => e.1 ≠ k) ++ [(k, t)]
  keys_nodup := by
    rw [List.map_append, List.nodup_append]
    refine ⟨d.keys_nodup.sublist ((List.filter_sublist _).map _), List.nodup_singleton _, ?_⟩
    simp [List.disjoint_singleton]

/-- `add(dc)`. -/
def DiscoverCallStatis.add (d : DiscoverCallStatis) (dc : DiscoverCall) : DiscoverCallStatis :=
  d.set dc.key dc.time

/-- The `WriteString` calls of `log`'s loop for one entry. -/
def writeEntry (format : Time → Bytes) (buffer : Bytes) (e : Service × Time) : Bytes :=
  buffer ++ ascii "service=" ++ e.1.name ++ ascii ";" ++ ascii "namespace=" ++ e.1.ns ++
    ascii ";" ++ ascii "visitTime=" ++ format e.2 ++ ascii "\n"

/-- `log()`: the text it passes to `logger.Info`, if any, and the statistics after it. -/
def DiscoverCallStatis.log (format : Time → Bytes)
    (visit : List (Service × Time) → List (Service × Time)) (d : DiscoverCallStatis) :
    Option Bytes × DiscoverCallStatis :=
  if d.statis.length = 0 then (none, d)
  else (some ((visit d.statis).foldl (writeEntry format) []), DiscoverCallStatis.empty)

/-- A call of the statistics: a discovery call recorded, or a report. -/
inductive StatisEvent where
  | add (dc : DiscoverCall)
  | log

section Run

variable (format : Time → Bytes) (visit : List (Service × Time) → List (Service × Time))

/-- The statistics after one call. -/
def StatisEvent.apply (d : DiscoverCallStatis) : StatisEvent → DiscoverCallStatis
  | .add dc => d.add dc
  | .log => (d.log format visit).2

/-- The statistics after a sequence of calls, from an empty map. -/
def runStatis (events : List StatisEvent) : DiscoverCallStatis :=
  events.foldl (StatisEvent.apply format visit) DiscoverCallStatis.empty

end Run

/-! ## What a report should say -/

/-- The calls since the last report, oldest first. -/
def sinceStep (calls : List DiscoverCall) : StatisEvent → List DiscoverCall
  | .add dc => calls ++ [dc]
  | .log => []

/-- The calls made since the last report. -/
def sinceLastLog (events : List StatisEvent) : List DiscoverCall := events.foldl sinceStep []

/-- The line of a report for a service and the time of its last call:
`service=<name>;namespace=<namespace>;visitTime=<time>`, then a line break. -/
def reportLine (format : Time → Bytes) (e : Service × Time) : Bytes :=
  ascii "service=" ++ e.1.name ++ ascii ";namespace=" ++ e.1.ns ++ ascii ";visitTime=" ++
    format e.2 ++ ascii "\n"

/-- The time of the last of `calls` for `k`. -/
def lastTime (calls : List DiscoverCall) (k : Service) : Option Time :=
  calls.foldl (fun o dc => if dc.key = k then some dc.time else o) none

/-! ## The map -/

namespace DiscoverCallStatis

@[simp] theorem get_empty (k : Service) : empty.get k = none := rfl

@[simp] theorem get_set (d : DiscoverCallStatis) (k : Service) (t : Time) (k' : Service) :
    (d.set k t).get k' = if k = k' then some t else d.get k' := by
  unfold get set
  by_cases h : k = k'
  · subst h
    simp
  · simp only [List.find?_append, List.find?_filter, List.find?_singleton, decide_eq_true_eq, h,
      if_false, Option.or_none]
    congr 2
    funext e
    by_cases he : e.1 = k' <;> simp [he, Ne.symm h]

/-- With each key once, an entry is in the map exactly when `get` finds it. -/
theorem mem_statis_iff (d : DiscoverCallStatis) (k : Service) (t : Time) :
    (k, t) ∈ d.statis ↔ d.get k = some t := by
  unfold get
  constructor
  · intro hkt
    have hs : (d.statis.find? fun e => e.1 = k).isSome :=
      List.find?_isSome.mpr ⟨(k, t), hkt, by simp⟩
    obtain ⟨e, he⟩ := Option.isSome_iff_exists.mp hs
    have hek : e.1 = k := by simpa using List.find?_some he
    rw [he, List.inj_on_of_nodup_map d.keys_nodup (List.mem_of_find?_eq_some he) hkt hek]
    rfl
  · intro h
    obtain ⟨e, he, rfl⟩ := Option.map_eq_some'.mp h
    have hek : e.1 = k := by simpa using List.find?_some he
    rw [← hek]
    exact List.mem_of_find?_eq_some he

theorem statis_eq_nil_iff (d : DiscoverCallStatis) : d.statis = [] ↔ ∀ k, d.get k = none := by
  constructor
  · intro h k
    simp [get, h]
  · intro h
    match hs : d.statis with
    | [] => rfl
    | e :: _ =>
      have := (mem_statis_iff d e.1 e.2).mp (hs ▸ List.mem_cons_self _ _)
      rw [h] at this
      cases this

end DiscoverCallStatis

/-! ## The calls since the last report -/

theorem lastTime_append (calls : List DiscoverCall) (dc : DiscoverCall) (k : Service) :
    lastTime (calls ++ [dc]) k = if dc.key = k then some dc.time else lastTime calls k := by
  simp [lastTime, List.foldl_append]

theorem lastTime_eq_none (calls : List DiscoverCall) (k : Service) :
    lastTime calls k = none ↔ ∀ dc ∈ calls, dc.key ≠ k := by
  induction calls using List.reverseRecOn with
  | nil => simp [lastTime]
  | append_singleton calls dc ih =>
    rw [lastTime_append, List.forall_mem_append, List.forall_mem_singleton, ← ih]
    by_cases h : dc.key = k <;> simp [h]

/-- `log`'s loop writes the report's lines, one per entry visited. -/
theorem foldl_writeEntry (format : Time → Bytes) (l : List (Service × Time)) (buffer : Bytes) :
    l.foldl (writeEntry format) buffer = buffer ++ (l.map (reportLine format)).flatten := by
  induction l generalizing buffer with
  | nil => simp
  | cons e l ih =>
    have h₁ : ascii ";" ++ ascii "namespace=" = ascii ";namespace=" := by decide
    have h₂ : ascii ";" ++ ascii "visitTime=" = ascii ";visitTime=" := by decide
    rw [List.foldl_cons, ih, List.map_cons, List.flatten_cons]
    simp only [writeEntry, reportLine, ← h₁, ← h₂, List.append_assoc]

/-- The statistics represent `calls`: each service's entry is the time of its last call among
them, and a service without a call has none. -/
def Represents (d : DiscoverCallStatis) (calls : List DiscoverCall) : Prop :=
  ∀ k, d.get k = lastTime calls k

section Run

variable (format : Time → Bytes) (visit : List (Service × Time) → List (Service × Time))

theorem represents_add {d : DiscoverCallStatis} {calls : List DiscoverCall}
    (h : Represents d calls) (dc : DiscoverCall) : Represents (d.add dc) (calls ++ [dc]) :=
  fun k => by rw [DiscoverCallStatis.add, DiscoverCallStatis.get_set, lastTime_append, h k]

theorem statis_eq_nil_iff_calls {d : DiscoverCallStatis} {calls : List DiscoverCall}
    (h : Represents d calls) : d.statis = [] ↔ calls = [] := by
  have h' : ∀ k, d.get k = lastTime calls k := h
  rw [DiscoverCallStatis.statis_eq_nil_iff]
  simp only [h', lastTime_eq_none]
  constructor
  · intro hk
    cases calls with
    | nil => rfl
    | cons dc _ => exact absurd rfl (hk dc.key dc (List.mem_cons_self _ _))
  · rintro rfl _ _ ⟨⟩

/-- **A report**, from statistics that represent `calls`: it empties the map, writes nothing
when there was no call, and otherwise writes one line for each service called, with the time
of its last call. -/
theorem log_of_represents (hvisit : ∀ l, (visit l).Perm l) {d : DiscoverCallStatis}
    {calls : List DiscoverCall} (h : Represents d calls) :
    (d.log format visit).2.statis = [] ∧ (calls = [] → (d.log format visit).1 = none) ∧
      ∃ l : List (Service × Time), (l.map Prod.fst).Nodup ∧
        (∀ k t, (k, t) ∈ l ↔ lastTime calls k = some t) ∧
        (calls ≠ [] → (d.log format visit).1 = some (l.map (reportLine format)).flatten) := by
  have hnil := statis_eq_nil_iff_calls h
  refine ⟨?_, fun hc => ?_, visit d.statis,
    ((hvisit d.statis).map Prod.fst).nodup_iff.mpr d.keys_nodup,
    fun k t => by rw [(hvisit d.statis).mem_iff, d.mem_statis_iff, h k], fun hc => ?_⟩
  · unfold DiscoverCallStatis.log
    split_ifs with hl
    · exact List.length_eq_zero.mp hl
    · rfl
  · unfold DiscoverCallStatis.log
    rw [if_pos (List.length_eq_zero.mpr (hnil.mpr hc))]
  · unfold DiscoverCallStatis.log
    rw [if_neg (mt List.length_eq_zero.mp (mt hnil.mp hc)), foldl_writeEntry, List.nil_append]

theorem represents_log (d : DiscoverCallStatis) : Represents (d.log format visit).2 [] := by
  unfold DiscoverCallStatis.log
  split_ifs with hl
  · exact (DiscoverCallStatis.statis_eq_nil_iff d).mp (List.length_eq_zero.mp hl)
  · exact fun _ => rfl

/-- **The run lemma**: after any sequence of calls and reports, the statistics represent the
calls made since the last report. -/
theorem represents_run (events : List StatisEvent) :
    Represents (runStatis format visit events) (sinceLastLog events) := by
  suffices ∀ (d : DiscoverCallStatis) (calls : List DiscoverCall), Represents d calls →
      Represents (events.foldl (StatisEvent.apply format visit) d) (events.foldl sinceStep calls)
    from this _ _ fun _ => rfl
  induction events with
  | nil => exact fun _ _ h => h
  | cons ev rest ih =>
    intro d calls h
    cases ev with
    | add dc => exact ih _ _ (represents_add h dc)
    | log => exact ih _ _ (represents_log format visit d)

/-- **Every report lists the calls since the previous one**: after any sequence of discovery
calls and reports, the next report empties the statistics, writes nothing if no call came
since the previous report, and otherwise writes one line for each service called since then,
each exactly once and with the time of its last call, in whatever order `range` visits the
map. -/
theorem log_reports_calls_since_last_log (hvisit : ∀ l, (visit l).Perm l)
    (events : List StatisEvent) :
    ((runStatis format visit events).log format visit).2.statis = [] ∧
      (sinceLastLog events = [] → ((runStatis format visit events).log format visit).1 = none) ∧
      ∃ l : List (Service × Time), (l.map Prod.fst).Nodup ∧
        (∀ k t, (k, t) ∈ l ↔ lastTime (sinceLastLog events) k = some t) ∧
        (sinceLastLog events ≠ [] →
          ((runStatis format visit events).log format visit).1 =
            some (l.map (reportLine format)).flatten) :=
  log_of_represents format visit hvisit (represents_run format visit events)

end Run

/-- Three calls of one service, a report after the first: the next report has its last. -/
theorem log_reports_calls_since_last_log_three_calls :
    let events : List StatisEvent := [.add ⟨ascii "s", ascii "ns", ⟨1⟩⟩, .log,
      .add ⟨ascii "s", ascii "ns", ⟨2⟩⟩, .add ⟨ascii "s", ascii "ns", ⟨3⟩⟩]
    (∀ l : List (Service × Time), (id l).Perm l) ∧
    ((runStatis (fun _ => ascii "t") id events).log (fun _ => ascii "t") id).2.statis = [] ∧
      (sinceLastLog events = [] →
        ((runStatis (fun _ => ascii "t") id events).log (fun _ => ascii "t") id).1 = none) ∧
      ∃ l : List (Service × Time), (l.map Prod.fst).Nodup ∧
        (∀ k t, (k, t) ∈ l ↔ lastTime (sinceLastLog events) k = some t) ∧
        (sinceLastLog events ≠ [] →
          ((runStatis (fun _ => ascii "t") id events).log (fun _ => ascii "t") id).1 =
            some (l.map (reportLine fun _ => ascii "t")).flatten) :=
  ⟨fun l => .refl l, log_reports_calls_since_last_log (fun _ => ascii "t") id (fun l => .refl l)
    _⟩

end Polaris
