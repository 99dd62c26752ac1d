import Mathlib.Data.List.Induction
import Mathlib.Data.List.Nodup
import Mathlib.Data.List.TakeWhile
import Minimization.Proofs.Log.Meaning

/-!
# What the settings of loggers come to

The level, the layout and the stream of a logger are kept in several places: those of the loggers that are known
in the loggers and their handlers, those of the loggers still to be made in the registry. `Registry.Reflects` says
what all of them have to be after some requests: the level that was asked for last, and the layout and the stream
that were asked for last since the logger was first handed out. Every request keeps it so
(`Reflects.serve`), and by induction it holds after all requests. What a logger writes follows from it, since a
logger with one handler of its level that does not propagate is alone with its records (`Registry.write_of_alone`).

A request that is refused is not one that asked for anything, and leaves everything as it is.
-/

namespace Minimization.Log

/-! ## Requests -/

/-- What is asked of the library's loggers: one of them, a level, or a level with a layout and a stream. -/
inductive Request where
  | obtain (name : Option String)
  | setLevel (level : Value)
  | configure (level layout : Value) (stream : Option Nat)

/-- A stream that is handed over, or the console. -/
def Sink.of : Option Nat → Sink
  | none => console
  | some number => stream number

theorem Sink.of_ne_nowhere (stream : Option Nat) : Sink.of stream ≠ nowhere := by
  cases stream with
  | none => exact nofun
  | some number => exact nofun

namespace Request

/-- Whether a level that is asked for means one. -/
def IsProper : Request → Prop
  | obtain _ => True
  | setLevel level => ∃ n, Level.Means level n
  | configure level _ _ => ∃ n, Level.Means level n

/-- Whether the request is one for the logger of a full name. -/
def obtains (name : String) : Request → Bool
  | obtain m => fullName m == name
  | _ => false

/-- The level that is asked for. -/
def level? : Request → Option Level
  | obtain _ => none
  | setLevel level => (Level.ofValue level).toOption
  | configure level layout _ => (do let _ ← layoutOf layout; Level.ofValue level : Except Failure Level).toOption

/-- The layout and the stream that are asked for. -/
def output? : Request → Option (String × Sink)
  | configure _ layout stream => (layoutOf layout).toOption.map fun layout => (layout, Sink.of stream)
  | _ => none

/-- The last of the things that requests ask for. -/
def last {β : Type} (asked : Request → Option β) (default : β) (requests : List Request) : β :=
  (requests.filterMap asked).getLast?.getD default

theorem last_append {β : Type} (asked : Request → Option β) (default : β) (requests : List Request)
    (q : Request) :
    last asked default (requests ++ [q]) = (asked q).getD (last asked default requests) := by
  rw [last, List.filterMap_append, List.filterMap_cons]
  cases asked q with
  | none => rw [List.filterMap_nil, List.append_nil]; rfl
  | some b => rw [List.filterMap_nil, List.getLast?_concat]; rfl

/-- What is asked for last is asked for by some request, if it is at all. -/
theorem last_cases {β : Type} (asked : Request → Option β) (default : β) (requests : List Request) :
    last asked default requests = default ∨
      ∃ q ∈ requests, asked q = some (last asked default requests) := by
  rcases hlast : (requests.filterMap asked).getLast? with - | b
  · exact .inl (by rw [last, hlast]; rfl)
  · obtain ⟨q, hq, hb⟩ := List.mem_filterMap.mp (List.mem_of_getLast? hlast)
    refine .inr ⟨q, hq, ?_⟩
    rw [last, hlast]
    exact hb

variable {q : Request}

theorem IsProper.level_pos {n : Level} (h : q.IsProper) (hn : q.level? = some n) : 0 < n := by
  cases q with
  | obtain => cases hn
  | setLevel v =>
    obtain ⟨n', hv⟩ := h
    rw [level?, hv.ofValue_eq] at hn
    exact Option.some.inj hn ▸ hv.pos
  | configure v layout stream =>
    obtain ⟨n', hv⟩ := h
    rw [level?, hv.ofValue_eq] at hn
    rcases hlayout : layoutOf layout with e | text
    · rw [hlayout] at hn
      cases hn
    · rw [hlayout] at hn
      exact Option.some.inj hn ▸ hv.pos

theorem output_ne_nowhere {output : String × Sink} (h : q.output? = some output) : output.2 ≠ .nowhere := by
  cases q with
  | obtain => cases h
  | setLevel => cases h
  | configure v layout stream =>
    obtain ⟨text, -, rfl⟩ := Option.map_eq_some_iff.mp h
    exact Sink.of_ne_nowhere stream

theorem exists_obtains_append (requests : List Request) (q : Request) (name : String) :
    (∃ q' ∈ requests ++ [q], q'.obtains name) ↔ (∃ q' ∈ requests, q'.obtains name) ∨ q.obtains name := by
  simp only [List.mem_append, List.mem_singleton, or_and_right, exists_or, exists_eq_left]

end Request

/-- The level that was asked for last; warnings if none was. -/
def currentLevel (requests : List Request) : Level := Request.last Request.level? Level.warning requests

/-- The layout and the stream that were asked for last since a logger was first handed out. -/
def currentOutput (requests : List Request) (name : String) : String × Sink :=
  Request.last Request.output? (defaultLayout, .console) (requests.dropWhile fun q => !q.obtains name)

/-- What the logger of a full name has to be after some requests. -/
def settled (requests : List Request) (name : String) : Logger where
  level := currentLevel requests
  handlers := [⟨currentLevel requests, (currentOutput requests name).2, (currentOutput requests name).1⟩]
  propagates := false

theorem currentLevel_append (requests : List Request) (q : Request) :
    currentLevel (requests ++ [q]) = q.level?.getD (currentLevel requests) :=
  Request.last_append ..

section Output

variable {requests : List Request} {q : Request} {name : String}

/-- Once a logger is handed out, requests count for it. -/
theorem currentOutput_append (h : ∃ q ∈ requests, q.obtains name) (q : Request) :
    currentOutput (requests ++ [q]) name = q.output?.getD (currentOutput requests name) := by
  have hsome : (requests.dropWhile fun q => !q.obtains name) ≠ [] := by
    intro hnil
    obtain ⟨q, hq, hobtains⟩ := h
    have hnot := List.dropWhile_eq_nil_iff.mp hnil q hq
    rw [hobtains] at hnot
    cases hnot
  rw [currentOutput, List.dropWhile_append, if_neg (mt List.isEmpty_iff.mp hsome), Request.last_append]
  rfl

/-- Nothing counts for a logger that is handed out for the first time. -/
theorem currentOutput_append_first (h : ¬ ∃ q ∈ requests, q.obtains name) (hq : q.obtains name) :
    currentOutput (requests ++ [q]) name = (q.output?).getD (defaultLayout, .console) := by
  have hnone : (requests.dropWhile fun q => !q.obtains name) = [] := by
    rw [List.dropWhile_eq_nil_iff]
    intro q hq
    rw [Bool.not_eq_true', Bool.eq_false_iff]
    exact fun hobtains => h ⟨q, hq, hobtains⟩
  rw [currentOutput, List.dropWhile_append, hnone, if_pos List.isEmpty_nil,
    List.dropWhile_cons_of_neg (by rw [hq]; decide), ← List.nil_append [q], Request.last_append]
  rfl

end Output

namespace Registry

/-- The registry after a request; one that is refused leaves it as it is. -/
def serve (r : Registry) : Request → Registry
  | .obtain name => (r.obtain (fullName name)).2
  | .setLevel level => (r.setLevel level).toOption.getD r
  | .configure level layout stream => (r.configure level layout (Sink.of stream)).toOption.getD r

/-- The registry after some requests. -/
def after (r : Registry) (requests : List Request) : Registry := requests.foldl serve r

/-! ### Changes of loggers -/

variable {r : Registry} {name other : String} {f : Logger → Logger}

theorem logger_change_self : (r.change name f).logger name = f (r.logger name) := by
  rw [logger, change, Fields.get?_set_self]
  rfl

theorem logger_change_of_ne (h : other ≠ name) : (r.change name f).logger other = r.logger other := by
  rw [logger, change, Fields.get?_set_of_ne _ _ h]
  rfl

/-- The loggers of distinct names are changed once each. -/
theorem logger_foldl_change {names : List String} (h : names.Nodup) (name : String) :
    (names.foldl (fun r name => r.change name f) r).logger name
      = if name ∈ names then f (r.logger name) else r.logger name := by
  induction names generalizing r with
  | nil => rfl
  | cons first names ih =>
    obtain ⟨hfirst, hnames⟩ := List.nodup_cons.mp h
    rw [List.foldl_cons, ih hnames]
    by_cases hname : name = first
    · subst hname
      rw [if_neg hfirst, if_pos (List.mem_cons_self ..), logger_change_self]
    · rw [logger_change_of_ne hname]
      simp only [List.mem_cons, hname, false_or]

theorem known_foldl_change (names : List String) :
    (names.foldl (fun r name => r.change name f) r).known = r.known := by
  induction names generalizing r with
  | nil => rfl
  | cons first names ih => exact ih

/-- Setting a level and more changes the known loggers, and the level of those still to be made. -/
theorem setting_eq_ok (h : r.known.Nodup) (n : Level) (f : Level → Logger → Logger) :
    ∃ r', r.setting (.ok n) f = .ok r' ∧ r'.level = .ok n ∧ r'.known = r.known ∧
      ∀ name, r'.logger name = if name ∈ r.known then f n (r.logger name) else r.logger name := by
  refine ⟨_, rfl, rfl, known_foldl_change r.known, fun name => ?_⟩
  exact logger_foldl_change h name

/-! ### What requests come to -/

/-- The registry is what some requests have made of it. -/
structure Reflects (requests : List Request) (r : Registry) : Prop where
  level_eq : r.level = .ok (currentLevel requests)
  nodup : r.known.Nodup
  mem_known : ∀ name, name ∈ r.known ↔ ∃ q ∈ requests, q.obtains name
  known : ∀ name ∈ r.known, r.logger name = settled requests name
  unknown : ∀ name ∉ r.known, r.logger name = .bare

variable {requests : List Request} {q : Request} {n : Level}

theorem reflects_empty : Reflects [] empty where
  level_eq := rfl
  nodup := List.nodup_nil
  mem_known _ := iff_of_false List.not_mem_nil fun ⟨_, hq, _⟩ => absurd hq List.not_mem_nil
  known _ hname := absurd hname List.not_mem_nil
  unknown _ _ := rfl

theorem obtain_of_known (h : name ∈ r.known) : r.obtain name = (.ok (), r) := by
  rw [obtain, if_pos (List.contains_iff_mem.mpr h)]

/-- A logger that nobody has set up is made. -/
theorem obtain_of_bare (h : name ∉ r.known) (hbare : r.logger name = .bare) (hlevel : r.level = .ok n) :
    ∃ r', r.obtain name = (.ok (), r') ∧ r'.level = .ok n ∧ r'.known = r.known ++ [name] ∧
      r'.logger name = ⟨n, [⟨n, .console, defaultLayout⟩], false⟩ ∧
      ∀ other ≠ name, r'.logger other = r.logger other := by
  let made : Logger := ⟨n, [⟨n, .console, defaultLayout⟩], false⟩
  have hmade : ((r.change name id).change name fun _ => made).logger name = made := logger_change_self
  refine ⟨{ (r.change name id).change name fun _ => made with known := r.known ++ [name] }, ?_, hlevel, rfl,
    hmade, fun other hother => ?_⟩
  · rw [obtain, if_neg (mt List.contains_iff_mem.mp h), hbare]
    dsimp only [Logger.bare, List.isEmpty_nil, Bool.not_true]
    rw [hlevel]
    rfl
  · have hothers : ((r.change name id).change name fun _ => made).logger other = r.logger other :=
      (logger_change_of_ne hother).trans (logger_change_of_ne hother)
    exact hothers

theorem settled_append_obtain (h : ∃ q ∈ requests, q.obtains name) (m : Option String) :
    settled (requests ++ [.obtain m]) name = settled requests name := by
  rw [settled, currentLevel_append, currentOutput_append h]
  rfl

/-- Handing out a logger. -/
theorem Reflects.obtain (h : Reflects requests r) (m : Option String) :
    ∃ r', r.obtain (fullName m) = (.ok (), r') ∧ Reflects (requests ++ [.obtain m]) r' := by
  by_cases hknown : fullName m ∈ r.known
  · refine ⟨r, obtain_of_known hknown, ?_, h.nodup, fun name => ?_, fun name hname => ?_, h.unknown⟩
    · rw [currentLevel_append]
      exact h.level_eq
    · rw [Request.exists_obtains_append, ← h.mem_known]
      exact ⟨.inl, fun hname => hname.elim id fun heq => beq_iff_eq.mp heq ▸ hknown⟩
    · rw [settled_append_obtain ((h.mem_known name).mp hname)]
      exact h.known name hname
  · obtain ⟨r', hr', hlevel, hknown', hmade, hothers⟩ :=
      obtain_of_bare hknown (h.unknown _ hknown) h.level_eq
    refine ⟨r', hr', ?_, ?_, fun name => ?_, fun name hname => ?_, fun name hname => ?_⟩
    · rw [currentLevel_append]
      exact hlevel
    · rw [hknown', ← List.concat_eq_append]
      exact h.nodup.concat hknown
    · rw [hknown', Request.exists_obtains_append, ← h.mem_known, List.mem_append, List.mem_singleton]
      exact or_congr_right (beq_iff_eq.trans eq_comm).symm
    · by_cases hname' : name = fullName m
      · subst hname'
        rw [hmade, settled, currentLevel_append,
          currentOutput_append_first (mt (h.mem_known _).mpr hknown) (beq_self_eq_true _)]
        rfl
      · have hbefore : name ∈ r.known := by
          rw [hknown', List.mem_append, List.mem_singleton] at hname
          exact hname.resolve_right hname'
        rw [hothers name hname', settled_append_obtain ((h.mem_known name).mp hbefore)]
        exact h.known name hbefore
    · rw [hknown', List.mem_append, List.mem_singleton, not_or] at hname
      rw [hothers name hname.2]
      exact h.unknown name hname.1

/-- A request for a level, and whatever else it asks for, is settled for all loggers at once. -/
theorem Reflects.setting (h : Reflects requests r) (hq : ∀ name, q.obtains name = false)
    (hlevel : q.level? = some n) (f : Level → Logger → Logger)
    (hf : ∀ name, (∃ q ∈ requests, q.obtains name) →
      f n (settled requests name) = ⟨n, [⟨n, (currentOutput (requests ++ [q]) name).2,
        (currentOutput (requests ++ [q]) name).1⟩], false⟩) :
    ∃ r', r.setting (.ok n) f = .ok r' ∧ Reflects (requests ++ [q]) r' := by
  obtain ⟨r', hr', hlevel', hknown, hlogger⟩ := setting_eq_ok h.nodup n f
  have hcurrent : currentLevel (requests ++ [q]) = n := by
    rw [currentLevel_append, hlevel]
    rfl
  refine ⟨r', hr', ?_, hknown ▸ h.nodup, fun name => ?_, fun name hname => ?_, fun name hname => ?_⟩
  · rw [hcurrent, hlevel']
  · rw [hknown, h.mem_known, Request.exists_obtains_append, hq]
    exact (or_iff_left Bool.false_ne_true).symm
  · rw [hknown] at hname
    rw [hlogger, if_pos hname, h.known name hname, hf name ((h.mem_known name).mp hname), settled, hcurrent]
  · rw [hknown] at hname
    rw [hlogger, if_neg hname]
    exact h.unknown name hname

theorem Reflects.setLevel (h : Reflects requests r) {v : Value} (hv : Level.Means v n) :
    ∃ r', r.setLevel v = .ok r' ∧ Reflects (requests ++ [.setLevel v]) r' := by
  rw [Registry.setLevel, hv.ofValue_eq]
  refine h.setting (fun _ => rfl) ?_ _ fun name hname => ?_
  · rw [Request.level?, hv.ofValue_eq]
    rfl
  · rw [currentOutput_append hname]
    rfl

/-- A layout that is refused leaves everything as it is. -/
theorem configure_eq_error {layout : Value} {e : Failure} (hlayout : layoutOf layout = .error e)
    (r : Registry) (v : Value) (sink : Sink) : r.configure v layout sink = .error e := by
  rw [configure, hlayout]
  rfl

theorem Reflects.configure (h : Reflects requests r) {v layout : Value} {text : String}
    (hv : Level.Means v n) (hlayout : layoutOf layout = .ok text) (stream : Option Nat) :
    ∃ r', r.configure v layout (Sink.of stream) = .ok r' ∧
      Reflects (requests ++ [.configure v layout stream]) r' := by
  rw [Registry.configure, hlayout]
  show ∃ r', r.setting (Level.ofValue v) _ = .ok r' ∧ _
  rw [hv.ofValue_eq]
  refine h.setting (fun _ => rfl) ?_ _ fun name hname => ?_
  · rw [Request.level?, hlayout, hv.ofValue_eq]
    rfl
  · rw [currentOutput_append hname, Request.output?, hlayout]
    rfl

/-- A request that asks for nothing, since it is refused. -/
theorem Reflects.ignore (h : Reflects requests r) (hq : ∀ name, q.obtains name = false)
    (hlevel : q.level? = none) (houtput : q.output? = none) : Reflects (requests ++ [q]) r := by
  have hcurrent : currentLevel (requests ++ [q]) = currentLevel requests := by
    rw [currentLevel_append, hlevel]
    rfl
  refine ⟨hcurrent ▸ h.level_eq, h.nodup, fun name => ?_, fun name hname => ?_, h.unknown⟩
  · rw [h.mem_known, Request.exists_obtains_append, hq]
    exact (or_iff_left Bool.false_ne_true).symm
  · rw [h.known name hname, settled, settled, hcurrent, currentOutput_append ((h.mem_known name).mp hname),
      houtput]
    rfl

/-- One request. -/
theorem Reflects.serve (h : Reflects requests r) (hq : q.IsProper) :
    Reflects (requests ++ [q]) (r.serve q) := by
  cases q with
  | obtain m =>
    obtain ⟨r', hr', hreflects⟩ := h.obtain m
    rw [Registry.serve, hr']
    exact hreflects
  | setLevel v =>
    obtain ⟨n, hv⟩ := hq
    obtain ⟨r', hr', hreflects⟩ := h.setLevel hv
    rw [Registry.serve, hr']
    exact hreflects
  | configure v layout stream =>
    obtain ⟨n, hv⟩ := hq
    rcases hlayout : layoutOf layout with e | text
    · rw [Registry.serve, configure_eq_error hlayout]
      refine h.ignore (fun _ => rfl) ?_ ?_
      · rw [Request.level?, hlayout]
        rfl
      · rw [Request.output?, hlayout]
        rfl
    · obtain ⟨r', hr', hreflects⟩ := h.configure hv hlayout stream
      rw [Registry.serve, hr']
      exact hreflects

/-- All requests, from a registry without loggers. -/
theorem reflects_after (h : ∀ q ∈ requests, q.IsProper) : Reflects requests (empty.after requests) := by
  induction requests using List.reverseRecOn with
  | nil => exact reflects_empty
  | append_singleton requests q ih =>
    rw [after, List.foldl_append, ← after]
    exact (ih fun q' hq' => h q' (List.mem_append_left _ hq')).serve
      (h q (List.mem_append_right _ (List.mem_singleton_self q)))

/-! ### What loggers write -/

/-- A logger with one handler of its level, which does not propagate, is alone with its records: each of them makes
one line or none. -/
theorem write_of_alone {sink : Sink} {layout : String}
    (hlogger : r.logger name = ⟨n, [⟨n, sink, layout⟩], false⟩) (hn : 0 < n) (hsink : sink ≠ .nowhere)
    (record : Record) :
    r.write name record = if n ≤ record.level then
      (lineOf layout name record).toOption.toList.map fun text => ⟨sink, text ++ "\n"⟩ else [] := by
  have hlineage : r.lineage name = ⟨n, [⟨n, sink, layout⟩], false⟩ ::
      ((beginnings name.toList).filterMap r.loggers.get? ++ [r.top]) := by
    rw [lineage, hlogger]
    rfl
  have heffective : effectiveLevel (r.lineage name) = n := by
    rw [hlineage, effectiveLevel]
    exact if_neg (Int.ne_of_gt hn)
  have hreached : reached (r.lineage name) = [⟨n, sink, layout⟩] := by
    rw [hlineage, reached]
    rfl
  rw [write, heffective, hreached]
  by_cases hlevel : n ≤ record.level
  · have hpositive : ¬ record.level ≤ 0 := Int.not_le.mpr (Int.lt_of_lt_of_le hn hlevel)
    have habove : ¬ record.level < n := Int.not_lt.mpr hlevel
    rw [decide_eq_false hpositive, decide_eq_false habove, if_pos hlevel, List.filterMap_cons,
      List.filterMap_nil, decide_eq_false habove, decide_eq_false hsink]
    dsimp only [Bool.or_self, Bool.false_eq_true, if_false]
    rcases lineOf layout name record with e | text
    · rfl
    · rfl
  · have hbelow : record.level < n := Int.not_le.mp hlevel
    rw [decide_eq_true hbelow, Bool.or_true, if_pos rfl, if_neg hlevel]

/-- The registry does what the last requests of each kind asked for. -/
structure Obeys (requests : List Request) (r : Registry) : Prop where
  /-- A logger that was handed out has one handler, and both have the current level. -/
  logger_eq : ∀ m, .obtain m ∈ requests → r.logger (fullName m) = ⟨currentLevel requests,
    [⟨currentLevel requests, (currentOutput requests (fullName m)).2,
      (currentOutput requests (fullName m)).1⟩], false⟩
  /-- It writes nothing below this level. -/
  silent : ∀ m, .obtain m ∈ requests → ∀ record, record.level < currentLevel requests →
    r.write (fullName m) record = []
  /-- Everything else it writes once, if the layout can be filled. -/
  written : ∀ m, .obtain m ∈ requests → ∀ record, currentLevel requests ≤ record.level →
    ∀ text, lineOf (currentOutput requests (fullName m)).1 (fullName m) record = .ok text →
      r.write (fullName m) record = [⟨(currentOutput requests (fullName m)).2, text ++ "\n"⟩]
  /-- What no line can be made of is not written. -/
  unwritten : ∀ m, .obtain m ∈ requests → ∀ record e,
    lineOf (currentOutput requests (fullName m)).1 (fullName m) record = .error e →
      r.write (fullName m) record = []
  /-- Every name has a logger. -/
  obtained : ∀ m, (r.obtain (fullName m)).1 = .ok ()
  /-- Every level can be set. -/
  set : ∀ v n, Level.Means v n → Level.ofValue v = .ok n ∧ ∃ r', r.setLevel v = .ok r'
  /-- Only a layout can be refused. -/
  configured : ∀ v n layout stream, Level.Means v n →
    ((∃ r', r.configure v layout (Sink.of stream) = .ok r') ↔ ∃ text, layoutOf layout = .ok text)

/-- The current level is not one that would make a logger follow its ancestors. -/
theorem currentLevel_pos (h : ∀ q ∈ requests, q.IsProper) : 0 < currentLevel requests := by
  rcases Request.last_cases Request.level? Level.warning requests with hnone | ⟨q, hq, hlevel⟩
  · rw [currentLevel, hnone]
    exact (by decide : (0 : Int) < 30)
  · exact (h q hq).level_pos hlevel

theorem currentOutput_ne_nowhere (requests : List Request) (name : String) :
    (currentOutput requests name).2 ≠ .nowhere := by
  rcases Request.last_cases Request.output? (defaultLayout, .console)
    (requests.dropWhile fun q => !q.obtains name) with hnone | ⟨q, -, houtput⟩
  · rw [currentOutput, hnone]
    exact nofun
  · exact Request.output_ne_nowhere houtput

/-- The loggers follow what was asked for last, whatever was asked for before. -/
theorem Reflects.obeys (hr : Reflects requests r) (h : ∀ q ∈ requests, q.IsProper) : r.Obeys requests := by
  have hlogger (m : Option String) (hm : .obtain m ∈ requests) :
      r.logger (fullName m) = settled requests (fullName m) :=
    hr.known _ ((hr.mem_known _).mpr ⟨.obtain m, hm, beq_self_eq_true _⟩)
  have hwrite (m : Option String) (hm : .obtain m ∈ requests) (record : Record) :=
    write_of_alone (hlogger m hm) (currentLevel_pos h) (currentOutput_ne_nowhere _ _) record
  refine ⟨hlogger, fun m hm record hbelow => ?_, fun m hm record habove text htext => ?_,
    fun m hm record e he => ?_, fun m => ?_, fun v n hv => ⟨hv.ofValue_eq, ?_⟩, fun v n layout stream hv => ?_⟩
  · rw [hwrite m hm, if_neg (Int.not_le.mpr hbelow)]
  · rw [hwrite m hm, if_pos habove, htext]
    rfl
  · rw [hwrite m hm, he]
    exact ite_self _
  · obtain ⟨r', hr', -⟩ := hr.obtain m
    rw [hr']
  · obtain ⟨r', hr', -⟩ := hr.setLevel hv
    exact ⟨r', hr'⟩
  · constructor
    · rintro ⟨r', hr'⟩
      rcases hlayout : layoutOf layout with e | text
      · rw [configure_eq_error hlayout] at hr'
        cases hr'
      · exact ⟨text, rfl⟩
    · rintro ⟨text, hlayout⟩
      obtain ⟨r', hr', -⟩ := hr.configure hv hlayout stream
      exact ⟨r', hr'⟩

/-- Whatever is asked of the library's loggers, in whatever order: each is what the last requests that were not
refused make of it, two names are those of one logger only if one is short for the other, and in the layout of
handlers that are not given one every record makes a line. -/
theorem after_obeys (h : ∀ q ∈ requests, q.IsProper) :
    (empty.after requests).Obeys requests ∧
      (∀ m n, fullName m = fullName n ↔ m = n ∨ Abbreviates m n ∨ Abbreviates n m) ∧
      ∀ name record, lineOf defaultLayout name record
        = .ok ("[" ++ record.level.name ++ "] " ++ name ++ ": " ++ record.message) :=
  ⟨(reflects_after h).obeys h, fun _ _ => fullName_eq_iff, lineOf_defaultLayout⟩

/-- A logger that is first handed out after the loggers were given a stream writes to the console, from the level
on that is set later. -/
theorem after_obeys_handed_out_later :
    let requests : List Request :=
      [.configure (.text "info") .null (some 0), .obtain (some "a"), .setLevel (.int 25)]
    (∀ q ∈ requests, q.IsProper) ∧
      (empty.after requests).write (fullName (some "a")) ⟨30, "odd", []⟩
        = [⟨.console, "[WARNING] descent.a: odd\n"⟩] := by
  intro requests
  have hproper : ∀ q ∈ requests, q.IsProper := by
    refine List.forall_mem_cons.mpr ⟨⟨Level.info, .named (by decide) (by decide)⟩, ?_⟩
    refine List.forall_mem_cons.mpr ⟨trivial, ?_⟩
    exact List.forall_mem_singleton.mpr ⟨25, .number (by decide)⟩
  refine ⟨hproper, ?_⟩
  obtain ⟨hobeys, -, hline⟩ := after_obeys hproper
  have hname : fullName (some "a") = "descent.a" := fullName_of_short (by decide) (by decide)
  have hunknown : ¬ ∃ q ∈ [Request.configure (.text "info") .null (some 0)],
      q.obtains (fullName (some "a")) := by
    rintro ⟨q, hq, hobtains⟩
    obtain rfl := List.mem_singleton.mp hq
    cases hobtains
  have hfirst : currentOutput ([.configure (.text "info") .null (some 0)] ++ [.obtain (some "a")])
      (fullName (some "a")) = (defaultLayout, .console) :=
    currentOutput_append_first hunknown (beq_self_eq_true _)
  have houtput : currentOutput requests (fullName (some "a")) = (defaultLayout, .console) :=
    (currentOutput_append ⟨.obtain (some "a"), by simp, beq_self_eq_true _⟩ (.setLevel (.int 25))).trans hfirst
  have hlevel : currentLevel requests = 25 := rfl
  have hwritten := hobeys.written (some "a") (by simp [requests]) ⟨30, "odd", []⟩ (by rw [hlevel]; decide)
  rw [houtput] at hwritten
  rw [hwritten _ (hline _ _), hname]
  rfl

/-- A level that is asked for together with a layout that is refused is not set, and a layout that is taken but
cannot be filled loses what is logged. -/
theorem after_configure_layout :
    (let requests : List Request := [.obtain (some "a"), .configure (.text "DEBUG") (.text "plain") none];
      (∀ q ∈ requests, q.IsProper) ∧ Level.Means (.text "DEBUG") Level.debug ∧
        ((empty.after requests).logger (fullName (some "a"))).level ≠ Level.debug) ∧
    (let requests : List Request := [.obtain none, .configure (.text "DEBUG") (.text "%(nosuch)s") none];
      (∀ q ∈ requests, q.IsProper) ∧ (empty.after requests).write (fullName none) ⟨50, "lost", []⟩ = []) := by
  have hdebug : Level.Means (.text "DEBUG") Level.debug := .named (by decide) (by decide)
  have hproper (m : Option String) (layout : Value) :
      ∀ q ∈ [.obtain m, .configure (.text "DEBUG") layout none], Request.IsProper q :=
    List.forall_mem_cons.mpr ⟨trivial, List.forall_mem_singleton.mpr ⟨Level.debug, hdebug⟩⟩
  have hrefused := (reflects_after (hproper (some "a") (.text "plain"))).obeys (hproper _ _)
  have hunfilled := (reflects_after (hproper none (.text "%(nosuch)s"))).obeys (hproper _ _)
  refine ⟨⟨hproper _ _, hdebug, ?_⟩, hproper _ _, ?_⟩
  · rw [hrefused.logger_eq (some "a") (by simp)]
    decide
  · exact hunfilled.unwritten none (by simp) _ .absent rfl

end Registry

end Minimization.Log
