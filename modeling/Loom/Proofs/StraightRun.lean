import Loom.Proofs.CoreStep
import Loom.Proofs.PlacidBlocks
import Loom.Proofs.Wakeup

/-! A run of straight lines on an agenda of its own. Every call that is fired executes the next
instruction of the queue and defers the next call by the rate, until the last instruction leaves nothing
to do and nothing waiting. -/
namespace Loom

namespace Settings

variable {rate breakpoints timeSlice history : Value} {s : Settings}

/-- What was accepted passed its own check. -/
lemma check_parts (hs : check rate breakpoints timeSlice history = .ok s) :
    checkRate rate = .ok s.rate ∧ checkTimeSlice timeSlice = .ok s.timeSlice ∧
      s.breakpoints = breakpoints := by
  unfold check at hs
  rcases hr : checkRate rate with f | r <;> rw [hr] at hs
  · cases hs
  · rcases hq : checkTimeSlice timeSlice with f | q <;> rw [hq] at hs
    · cases hs
    · rcases hn : checkHistory history with f | n <;> rw [hn] at hs
      · cases hs
      · cases hs
        exact ⟨rfl, rfl, rfl⟩

/-- Accepted settings have a time slice of at least one step. -/
lemma timeSlice_pos (hs : check rate breakpoints timeSlice history = .ok s) : 1 ≤ s.timeSlice := by
  obtain ⟨-, hslice, -⟩ := check_parts hs
  have hpos {f : Fault} {n : Int} (hn : (if n < 1 then .error f else .ok n.toNat : Except Fault Nat) =
      .ok s.timeSlice) : 1 ≤ s.timeSlice := by
    split_ifs at hn
    have heq := Except.ok.inj hn
    omega
  unfold checkTimeSlice at hslice
  split at hslice
  · cases hslice
  · rcases hn : timeSlice.toInt with f | n <;> rw [hn] at hslice
    · cases hslice
    · exact hpos hslice

lemma clamp_of_isPositive {x : Binary64} (hx : x.isPositive = true) : Agenda.clamp x = x := by
  unfold Binary64.isPositive at hx
  split at hx
  · simp [Agenda.clamp, Binary64.max, Binary64.zero, Binary64.lt, Binary64.signed]
  · cases hx

/-- A number above zero is a rate as it stands. -/
lemma checkRate_float {x : Binary64} (hzero : (Value.float x).same (.int 0) = false)
    (hx : x.isPositive = true) : checkRate (.float x) = .ok x := by
  have hrate : Rate.check (.float x) =
      if x.isPositive then .ok x else .error ((Value.float x).refusal .rateRejected) := rfl
  unfold checkRate
  rw [hzero, hrate, hx]
  rfl

/-- The defaults pass the checks, and do so whatever is said of breakpoints. -/
lemma check_breakpoints (breakpoints : Value) :
    check (.float .zero) breakpoints (.int 1) (.int 1024) = .ok { breakpoints } := by
  have hrate : checkRate (.float .zero) = .ok .zero := by
    unfold checkRate
    rw [if_pos (by decide +kernel)]
  unfold check
  rw [hrate]
  rfl

lemma check_defaults : check (.float .zero) (.bool false) (.int 1) (.int 1024) = .ok {} :=
  check_breakpoints (.bool false)

/-- An accepted rate is a delay as it stands. -/
lemma clamp_rate (hs : check rate breakpoints timeSlice history = .ok s) :
    Agenda.clamp s.rate = s.rate := by
  obtain ⟨hrate, -, -⟩ := check_parts hs
  unfold checkRate Rate.check at hrate
  split_ifs at hrate
  · rw [← Except.ok.inj hrate]
    rfl
  · split at hrate
    · cases hrate
    · split at hrate
      · split_ifs at hrate with hpositive
        rw [← Except.ok.inj hrate]
        exact clamp_of_isPositive hpositive
      · cases hrate
      · cases hrate

end Settings

namespace World

variable {D : Dialect} {h : Host D} {P : D.Memory → Prop} {agenda : D.Clock → Agenda Ticket}
  {fit : D.Clock → Prop} {q used : Nat} {queue : List (Nat × List D.Instr)} {w : World D}

/-- A run with a queue of straight lines, whose next step waits on the agenda. -/
structure Rolling (agenda : D.Clock → Agenda Ticket) (fit : D.Clock → Prop) (h : Host D)
    (P : D.Memory → Prop) (q : Nat) (w : World D) (used : Nat) (queue : List (Nat × List D.Instr)) :
    Prop where
  started : w.engine.started = true
  running : w.engine.phase = .running
  free : w.engine.breaking = false
  lines : w.core.Lines h P q used queue
  waits : ∃ n, w.engine.pending = some n ∧ Scheduler.Books agenda fit w.clock (some (n, w.ticket))

/-- A run that has come to its end. -/
structure Rested (agenda : D.Clock → Agenda Ticket) (fit : D.Clock → Prop) (w : World D) : Prop where
  halted : w.engine.phase = .halted
  live : w.engine.live = []
  pending : w.engine.pending = none
  books : Scheduler.Books agenda fit w.clock none

section

variable (hs : h.scheduler.OnAgenda agenda fit)

include hs

/-- Deferring a step puts it on the agenda. -/
lemma deferred_onAgenda (hw : Scheduler.Books agenda fit w.clock none)
    (hp : w.engine.pending = none) (delay : Binary64) :
    ∃ n clock, w.deferred h.scheduler delay = (.ok (), w.armed h.scheduler n clock) ∧
      Scheduler.Books agenda fit clock (some (n, (w.disarmed h.scheduler).ticket)) ∧
      (agenda clock).delays = (agenda w.clock).delays ++ [Agenda.clamp delay] := by
  have hclock : (w.disarmed h.scheduler).clock = w.clock := by
    rw [disarmed_clock, hp]
    rfl
  obtain ⟨clock, harm, hfit, hagenda⟩ := hs.arm delay (w.disarmed h.scheduler).ticket hw.1
  refine ⟨(agenda w.clock).calls.size, clock, ?_, ⟨hfit, hagenda ▸ hw.2.push delay _⟩, ?_⟩
  · unfold deferred
    rw [hclock, harm]
  · rw [hagenda, Agenda.delays_push]

variable (rounds depth : Nat)

/-- A step of a queue of straight lines, up to its end. -/
lemma executeStep_lines {sid : Nat} {i : D.Instr} {is : List D.Instr} (hq : 1 ≤ q)
    (hstarted : w.engine.started = true) (hrun : w.engine.phase = .running)
    (hfree : w.engine.breaking = false) (hc : fit w.clock)
    (hlines : w.core.Lines h P q used ((sid, i :: is) :: queue))
    (fire : Ticket → Act (World D) Unit) :
    ∃ u : World D, u.control = w.control ∧ u.dials = w.dials.counted ∧
      u.completions = w.completions ++ [(sid, i)] ∧
      u.core.Lines h P q (Queue.served q used sid is queue).1 (Queue.served q used sid is queue).2 ∧
      (executeStep h (runScript (serve h rounds (depth + 1))) fire false).outcome w =
        match u.wound h false with
        | (.error f, v) => (.error f, v)
        | (.ok (), v) => (.ok (v.report w.engine.nextSeq 1 (some sid) is.head?.isSome), v) := by
  obtain ⟨strand, m, hcourse, hm, hnext⟩ := hlines.step hq
  have hl : w.engine.live ≠ [] := List.ne_nil_of_mem hcourse.mem
  have hconsult : (consult h (runScript (serve h rounds (depth + 1))) sid (some i) false).outcome
      w.turned = (.ok false, w.turned) := by
    rw [consult_outcome]
    simp [hfree]
  have hsound : is.head?.filter h.wellFormed = is.head? := by
    obtain ⟨-, hstraight⟩ := (hlines.onLine _ List.mem_cons_self).straight
    cases is with
    | nil => rfl
    | cons j is => simp [hstraight.1.wellFormed]
  obtain ⟨u, hcore, hcontrol, hdials, hcompletions, hproceed⟩ := proceed_course (w := w.turned)
    hs.defers rounds depth hcourse hcourse.mem hsound (core_turned w) (by simpa using hc)
    (by simpa using hstarted) (.inl (by simpa using hrun)) fire w.engine.nextSeq (some i) false
  refine ⟨u, ?_, ?_, ?_, hcore ▸ hnext, ?_⟩
  · rw [hcontrol, control_turned]
  · rw [hdials]
    simp [dials]
  · rw [hcompletions]
    exact congrArg (· ++ _) (tell_turned Deed.completion? (fun _ => rfl) w)
  · rw [executeStep_outcome h _ fire w false hl hcourse.chosen (cursor_of_course hcourse), hconsult]
    exact hproceed

/-- The end of a step after which instructions are left: the next step waits, deferred by the rate. -/
lemma wound_rolling (hstarted : w.engine.started = true) (hrun : w.engine.phase = .running)
    (hfree : w.engine.breaking = false) (hlines : w.core.Lines h P q used queue) (hmore : queue ≠ [])
    (hbooks : Scheduler.Books agenda fit w.clock none) (hp : w.engine.pending = none) :
    ∃ v, w.wound h false = (.ok (), v) ∧ v.completions = w.completions ∧ v.dials = w.dials ∧
      Rolling agenda fit h P q v used queue ∧
      (agenda v.clock).delays = (agenda w.clock).delays ++ [Agenda.clamp w.engine.rate] := by
  have hl : w.engine.live ≠ [] := fun hl => hmore (hlines.live_eq_nil_iff.1 hl)
  obtain ⟨n, clock, hdeferred, hclock, hdelays⟩ := deferred_onAgenda hs hbooks hp w.engine.rate
  refine ⟨w.armed h.scheduler n clock, ?_, by simp [Deed.completion?], rfl, ?_, hdelays⟩
  · unfold wound
    rw [if_neg fun hend => hl hend.2, if_pos ⟨hrun, rfl⟩, hdeferred]
  · exact ⟨hstarted, hrun, hfree, hlines, n, rfl, hclock⟩

omit hs in
/-- The end of the last step. -/
lemma wound_rested (hrun : w.engine.phase = .running) (hl : w.engine.live = [])
    (hbooks : Scheduler.Books agenda fit w.clock none) (hp : w.engine.pending = none) :
    ∃ v, w.wound h false = (.ok (), v) ∧ v.completions = w.completions ∧ v.dials = w.dials ∧
      Rested agenda fit v ∧ v.clock = w.clock := by
  have hclock : ((w.disarmed h.scheduler).entered .halted "no live strands").clock = w.clock := by
    rw [entered_clock, disarmed_clock, hp]
    rfl
  refine ⟨(w.disarmed h.scheduler).entered .halted "no live strands", ?_, by simp [Deed.completion?], rfl,
    ⟨rfl, hl, rfl, hclock ▸ hbooks⟩, hclock⟩
  unfold wound
  rw [if_pos ⟨.inl hrun, hl⟩]

/-- Firing what waits executes the first instruction of the queue. Either instructions are left and the
next step waits, deferred by the rate, or the run has come to its end. -/
lemma runNext_rolling {sid : Nat} {i : D.Instr} {is : List D.Instr} (hq : 1 ≤ q)
    (hw : Rolling agenda fit h P q w used ((sid, i :: is) :: queue)) :
    ∃ v, (runNext h.scheduler fun t => discard (serve h rounds (depth + 2) (.fire t))).outcome w =
        (.ok true, v) ∧
      v.completions = w.completions ++ [(sid, i)] ∧ v.dials = w.dials.counted ∧
      ((Queue.served q used sid is queue).2 ≠ [] ∧
          Rolling agenda fit h P q v (Queue.served q used sid is queue).1
            (Queue.served q used sid is queue).2 ∧
          (agenda v.clock).delays = (agenda w.clock).delays ++ [Agenda.clamp w.engine.rate] ∨
        (Queue.served q used sid is queue).2 = [] ∧ Rested agenda fit v ∧
          (agenda v.clock).delays = (agenda w.clock).delays) := by
  obtain ⟨n, -, hbooks⟩ := hw.waits
  obtain ⟨clock, hnext, hclock, hdelays⟩ := hs.next_some hbooks
  generalize ht : ((w.atClock clock).altered (·.unarmed)) = t
  have hparts : t.engine.started = true ∧ t.engine.phase = .running ∧ t.engine.breaking = false ∧
      t.clock = clock ∧ t.core = w.core ∧ t.engine.pending = none ∧ t.dials = w.dials ∧
      t.completions = w.completions := by
    rw [← ht]
    exact ⟨hw.started, hw.running, hw.free, rfl, rfl, rfl, rfl, rfl⟩
  obtain ⟨hstarted, hrun, hfree, htclock, htcore, htpending, htdials, htcompletions⟩ := hparts
  obtain ⟨u, hcontrol, hdials, hcompletions, hlines, hexecute⟩ := executeStep_lines hs rounds depth hq
    hstarted hrun hfree (htclock ▸ hclock.1) (htcore ▸ hw.lines)
    fun t => discard (serve h rounds (depth + 1) (.fire t))
  have hurun : u.engine.phase = .running := (congrArg Control.phase hcontrol).trans hrun
  have hupending : u.engine.pending = none := (congrArg Control.pending hcontrol).trans htpending
  have huclock : u.clock = clock := (congrArg Control.clock hcontrol).trans htclock
  have hurate : u.engine.rate = w.engine.rate := by
    have hrate := congrArg Dials.rate hdials
    rw [htdials] at hrate
    exact hrate
  have hfire {v : World D} (hv : u.wound h false = (.ok (), v)) :
      (runNext h.scheduler fun t => discard (serve h rounds (depth + 2) (.fire t))).outcome w =
        (.ok true, v) := by
    have hserve : (serve h rounds (depth + 2) (.fire w.ticket)).outcome (w.atClock clock) =
        (.ok .nothing, v) := by
      have hticket := fire_running (w := w.atClock clock) h rounds (depth + 1) hw.running
      rw [ht, hexecute, hv] at hticket
      exact hticket
    rw [runNext_outcome, hnext]
    simp only [Act.outcome_discard, hserve]
    rfl
  have hubooks : Scheduler.Books agenda fit u.clock none := huclock ▸ hclock
  have hudelays : (agenda u.clock).delays = (agenda w.clock).delays := huclock ▸ hdelays
  rw [htcompletions] at hcompletions
  rw [htdials] at hdials
  by_cases hmore : (Queue.served q used sid is queue).2 = []
  · obtain ⟨v, hv, hvcompletions, hvdials, hrested, hvclock⟩ := wound_rested hurun
      (hlines.live_eq_nil_iff.2 hmore) hubooks hupending
    exact ⟨v, hfire hv, hvcompletions.trans hcompletions, hvdials.trans hdials,
      .inr ⟨hmore, hrested, hvclock ▸ hudelays⟩⟩
  · have hustarted : u.engine.started = true := (congrArg Control.started hcontrol).trans hstarted
    have hufree : u.engine.breaking = false := (congrArg Dials.breaking hdials).trans hw.free
    obtain ⟨v, hv, hvcompletions, hvdials, hrolling, hvdelays⟩ := wound_rolling hs hustarted hurun hufree
      hlines hmore hubooks hupending
    rw [hudelays, hurate] at hvdelays
    exact ⟨v, hfire hv, hvcompletions.trans hcompletions, hvdials.trans hdials,
      .inl ⟨hmore, hrolling, hvdelays⟩⟩

lemma runNext_rested (fire : Ticket → Act (World D) Unit) (hw : Rested agenda fit w) :
    (runNext h.scheduler fire).outcome w = (.ok false, w) := by
  rw [runNext_outcome, hs.next_none hw.books]

/-- Firing all that waits executes the whole schedule, every instruction by a call of its own, and comes
to its end. -/
theorem runAll_rolling (hq : 1 ≤ q) (hmore : queue ≠ []) (hw : Rolling agenda fit h P q w used queue)
    {fuel : Nat} (hfuel : Queue.load queue < fuel) (count : Nat) :
    ∃ v, (Act.repeatWhile (runNext h.scheduler fun t => discard (serve h rounds (depth + 2) (.fire t)))
        none fuel count).outcome w = (.ok (count + Queue.load queue), v) ∧
      v.completions = w.completions ++ Queue.remaining q hq used queue ∧
      v.engine.totalSteps = w.engine.totalSteps + Queue.load queue ∧
      (agenda v.clock).delays = (agenda w.clock).delays ++
        List.replicate (Queue.load queue - 1) (Agenda.clamp w.engine.rate) ∧
      Rested agenda fit v := by
  -- The number of instructions left goes down with every round, and the rounds with it.
  induction fuel generalizing w used queue count with
  | zero => omega
  | succ fuel ih =>
    obtain ⟨⟨sid, is⟩, queue, rfl⟩ := List.exists_cons_of_ne_nil hmore
    obtain ⟨i, is, rfl⟩ := List.exists_cons_of_ne_nil (hw.lines.onLine _ List.mem_cons_self).ne_nil
    obtain ⟨v, hround, hcompletions, hdials, hcases⟩ := runNext_rolling hs rounds depth hq hw
    have hload : Queue.load (Queue.served q used sid is queue).2 = is.length + Queue.load queue :=
      Queue.load_served
    have htotal : v.engine.totalSteps = w.engine.totalSteps + 1 := congrArg Dials.totalSteps hdials
    rw [Queue.load_cons, List.length_cons] at hfuel ⊢
    rw [Queue.remaining_cons hq (hw.lines.used_lt hq)]
    unfold Act.repeatWhile
    simp only [Option.any_none, Bool.false_eq_true, if_false, Act.outcome_bind, hround, if_true]
    rcases hcases with ⟨hleft, hrolling, hdelays⟩ | ⟨hend, hrested, hdelays⟩
    · obtain ⟨u, hloop, hucompletions, hutotal, hudelays, hurested⟩ := ih hleft hrolling (by omega)
        (count + 1)
      have hrate : v.engine.rate = w.engine.rate := congrArg Dials.rate hdials
      refine ⟨u, ?_, ?_, ?_, ?_, hurested⟩
      · rw [hloop, hload]
        congr 2
        omega
      · rw [hucompletions, hcompletions, List.append_assoc]
        rfl
      · rw [hutotal, htotal, hload]
        omega
      · obtain ⟨left, hleft⟩ : ∃ n, is.length + Queue.load queue = n + 1 := by
          have hpos := hrolling.lines.load_pos hleft
          exact ⟨is.length + Queue.load queue - 1, by omega⟩
        have hone : is.length + 1 + Queue.load queue - 1 = left + 1 := by omega
        rw [hudelays, hdelays, hload, hleft, hrate, hone, List.replicate_succ, List.append_assoc]
        rfl
    · rw [hend, Queue.load_nil] at hload
      obtain ⟨fuel, rfl⟩ : ∃ n, fuel = n + 1 := ⟨fuel - 1, by omega⟩
      refine ⟨v, ?_, ?_, ?_, ?_, hrested⟩
      · unfold Act.repeatWhile
        simp only [Option.any_none, Bool.false_eq_true, if_false, Act.outcome_bind,
          runNext_rested hs _ hrested, Act.outcome_pure]
        congr 2
        omega
      · rw [hcompletions, hend]
        rfl
      · rw [htotal]
        omega
      · have hlast : is.length + 1 + Queue.load queue - 1 = 0 := by omega
        rw [hdelays, hlast]
        simp

end

/-- A run with lines for its strands, before the first step. -/
structure Assembled (agenda : D.Clock → Agenda Ticket) (fit : D.Clock → Prop) (h : Host D)
    (P : D.Memory → Prop) (q : Nat) (rate : Binary64) (w : World D) (lines : List (List D.Instr)) :
    Prop where
  rolling : Rolling agenda fit h P q w 0 (Queue.ofLines lines)
  size : w.engine.strands.size = lines.length
  index : w.engine.index = 0
  sliceUsed : w.engine.sliceUsed = 0
  totalSteps : w.engine.totalSteps = 0
  rate : w.engine.rate = rate
  completions : w.completions = []
  delays : (agenda w.clock).delays = [.zero]

section

variable (hs : h.scheduler.OnAgenda agenda fit) (hq : 1 ≤ q)
  (hinstall : ∀ {m} n contents, P m → P (h.install m n contents))

include hs hq hinstall

/-- The start on the first line. -/
lemma start_assembled {run : Nat} {s : Settings} (hmake : Engine.make run s = .ok w.engine)
    (hslice : s.timeSlice = q) (hoff : s.breakpoints.truthy = false) (hc : fit w.clock)
    (hagenda : agenda w.clock = {}) (hdeeds : w.deeds = #[]) (hm : P w.memory) {entry : Option D.Instr}
    {i : D.Instr} {is : List D.Instr} {contents : D.Scope}
    (hroot : w.root h entry = .ok (some i, contents)) (hline : h.Straight P (i :: is))
    (fire : Ticket → Act (World D) Unit) :
    (start h fire entry).Ensures w fun _ v => Assembled agenda fit h P q s.rate v [i :: is] := by
  have hfresh : w.engine =
      { run
        breaking := false
        rate := s.rate
        timeSlice := q
        historySize := s.historySize } := by
    rw [Engine.eq_of_make hmake, hoff, hslice]
  have hbooks : Scheduler.Books agenda fit (w.sought h entry).clock none := by
    rw [sought_clock]
    exact ⟨hc, hagenda ▸ Agenda.holds_empty⟩
  obtain ⟨n, clock, hdeferred, hclock, hdelays⟩ := deferred_onAgenda hs hbooks
    (by rw [sought_engine, hfresh]) .zero
  have hstart := start_outcome h w fire entry (by rw [hfresh]) (postpones_of_fit hs.defers hc fire)
  rw [hroot] at hstart
  simp only [hfresh, hdeferred, Bool.false_eq_true, if_false] at hstart
  refine Act.ensures_of_outcome hstart ?_
  generalize hv : (w.sought h entry).armed h.scheduler n clock = v
  have hengine : v.engine =
      { run
        breaking := false
        rate := s.rate
        timeSlice := q
        historySize := s.historySize
        token := 1
        pending := some n } := by
    rw [← hv, armed_engine, sought_engine, hfresh]
    rfl
  have hparts : v.clock = clock ∧ v.memory = w.memory ∧ v.completions = [] := by
    rw [← hv]
    refine ⟨rfl, sought_memory w h entry, ?_⟩
    simp only [completions, armed_deeds, Deed.tell_push, sought_deeds, hdeeds]
    rfl
  obtain ⟨hvclock, hvmemory, hvcompletions⟩ := hparts
  have hlines : (v.begun h (some i) contents).core.Lines h P q 0 (Queue.ofLines [i :: is]) := by
    -- The root strand joins a core without strands.
    have hempty : Core.Lines h P q ⟨#[], [], 0, 0, q, w.memory⟩ 0 [] :=
      ⟨rfl, by simp, by simp, by simp, nofun, hm⟩
    have hroot := hempty.spawned hq rfl rfl hline (.given contents) (hinstall 0 contents hm)
    rw [core_begun, hengine, hvmemory]
    exact hroot
  have hticket : (v.begun h (some i) contents).ticket = ((w.sought h entry).disarmed h.scheduler).ticket := by
    rw [← hv]
    rfl
  have hbegun : (v.begun h (some i) contents).clock = clock := hvclock
  refine ⟨⟨rfl, rfl, ?_, hlines, n, ?_, hbegun ▸ hticket ▸ hclock⟩, ?_, rfl, rfl, ?_, ?_, ?_, ?_⟩
  · exact congrArg Engine.breaking hengine
  · exact congrArg Engine.pending hengine
  · have hstrands := congrArg Core.strands (core_begun v h (some i) contents)
    rw [core_strands, hengine] at hstrands
    rw [hstrands]
    rfl
  · exact congrArg Engine.totalSteps hengine
  · exact congrArg Engine.rate hengine
  · rw [← hvcompletions]
    simp [begun, Deed.completion?]
  · rw [hbegun, hdelays, sought_clock, hagenda]
    rfl

/-- A further strand on the next line. -/
lemma spawn_assembled {rate : Binary64} {lines : List (List D.Instr)}
    (hw : Assembled agenda fit h P q rate w lines) {i : D.Instr} {is : List D.Instr}
    (hline : h.Straight P (i :: is)) (scope : ScopeChoice D) (fire : Ticket → Act (World D) Unit) :
    (spawn h fire (some i) scope).Ensures w fun _ v =>
      Assembled agenda fit h P q rate v (lines ++ [i :: is]) := by
  have hrolling := hw.rolling
  obtain ⟨n, hpending, hbooks⟩ := hrolling.waits
  have hentry : derivedEntry h (some i) = .ok i := by
    simp only [derivedEntry, checkEntry, hline.1.wellFormed, if_true]
    rfl
  have hspawn := spawn_outcome h w fire (some i) scope (postpones_of_fit hs.defers hbooks.1 fire)
  simp only [Engine.refusal, hrolling.started, hrolling.running, hentry, hpending, if_true, if_false,
    reduceCtorEq, false_and, and_false] at hspawn
  refine Act.ensures_of_outcome hspawn ?_
  have hmemory : P (w.core.furnished h scope) := by
    cases scope with
    | fresh => exact hinstall _ _ hrolling.lines.memory
    | given contents => exact hinstall _ _ hrolling.lines.memory
    | shared other => exact hrolling.lines.memory
  have hlines := hrolling.lines.spawned hq hw.index hw.sliceUsed hline scope hmemory
  rw [← core_spawned, core_strands, hw.size, ← Queue.ofLines_concat] at hlines
  refine ⟨⟨hrolling.started, hrolling.running, hrolling.free, hlines, n, hpending, hbooks⟩, ?_, hw.index,
    hw.sliceUsed, hw.totalSteps, hw.rate, ?_, hw.delays⟩
  · simp [hw.size]
  · have hsame : (w.spawned h i scope).completions = w.completions := by simp [Deed.completion?]
    rw [hsame, hw.completions]

/-- Further strands on all the other lines. -/
lemma driven_assembled {rate : Binary64} {lines : List (List D.Instr)}
    (hw : Assembled agenda fit h P q rate w lines) (rounds depth : Nat)
    {others : List (List D.Instr × ScopeChoice D)}
    (hothers : ∀ x ∈ others, x.1 ≠ [] ∧ h.Straight P x.1) :
    Assembled agenda fit h P q rate
      (w.driven h rounds depth (others.map fun x => .spawn x.1.head? x.2)) (lines ++ others.map (·.1)) := by
  induction others generalizing w lines with
  | nil =>
    rw [List.map_nil, List.map_nil, List.append_nil]
    exact hw
  | cons x others ih =>
    obtain ⟨hne, hline⟩ := hothers x List.mem_cons_self
    obtain ⟨i, is, hx⟩ := List.exists_cons_of_ne_nil hne
    have hspawn : (serve h rounds (depth + 2) (.spawn x.1.head? x.2)).Ensures w fun _ v =>
        Assembled agenda fit h P q rate v (lines ++ [x.1]) := by
      rw [hx] at hline ⊢
      exact (spawn_assembled hs hq hinstall hw hline x.2 _).bind (fun _ _ hv => hv) fun _ _ hv => hv
    have hrest := ih hspawn fun y hy => hothers y (List.mem_cons_of_mem x hy)
    rw [List.append_assoc] at hrest
    exact hrest

end

/-- A run of straight lines on an agenda of its own is round robin and complete: it executes the
reference schedule, every instruction once and by a call of its own, the first without a delay and the
others after the rate, and ends with nothing in play and nothing waiting. -/
theorem round_robin_complete (hs : h.scheduler.OnAgenda agenda fit)
    (hinstall : ∀ {m} n contents, P m → P (h.install m n contents))
    {rate breakpoints timeSlice history : Value} {s : Settings} {run : Nat}
    (hcheck : Settings.check rate breakpoints timeSlice history = .ok s)
    (hoff : breakpoints.truthy = false) (hmake : Engine.make run s = .ok w.engine)
    (hw : Fresh fit P w) (hagenda : agenda w.clock = {}) (first : List D.Instr)
    (others : List (List D.Instr × ScopeChoice D))
    (hlines : ∀ is ∈ first :: others.map (·.1), is ≠ [] ∧ h.Straight P is)
    (hdistinct : (first :: others.map (·.1)).flatten.Nodup) {entry : Option D.Instr}
    {contents : D.Scope} (hroot : w.root h entry = .ok (first.head?, contents)) (rounds depth : Nat)
    (hrounds : (first :: others.map (·.1)).flatten.length < rounds) :
    let lines := first :: others.map (·.1)
    let ready := w.driven h rounds (depth + 1)
      (.start entry :: others.map fun x => .spawn x.1.head? x.2)
    let o := (serve h rounds (depth + 3) (.runAll none)).outcome ready
    o.1 = .ok (.count lines.flatten.length) ∧
      o.2.completions = Queue.roundRobin s.timeSlice (Settings.timeSlice_pos hcheck)
        (Queue.ofLines lines) ∧
      (∀ i, (o.2.completions.map (·.2)).count i = if i ∈ lines.flatten then 1 else 0) ∧
      o.2.engine.totalSteps = lines.flatten.length ∧
      (agenda o.2.clock).delays = .zero :: List.replicate (lines.flatten.length - 1) s.rate ∧
      o.2.engine.phase = .halted ∧ o.2.engine.live = [] ∧ o.2.engine.pending = none ∧
      (agenda o.2.clock).pending = 0 := by
  intro lines ready o
  have hq := Settings.timeSlice_pos hcheck
  obtain ⟨i, is, rfl⟩ := List.exists_cons_of_ne_nil (hlines first List.mem_cons_self).1
  have hready : Assembled agenda fit h P s.timeSlice s.rate ready lines := by
    have hfirst : (serve h rounds (depth + 3) (.start entry)).Ensures w fun _ v =>
        Assembled agenda fit h P s.timeSlice s.rate v [i :: is] := by
      refine Act.Ensures.reply (start_assembled hs hq hinstall hmake rfl ?_ hw.clock hagenda hw.deeds
        hw.memory hroot (hlines _ List.mem_cons_self).2 _)
      rw [(Settings.check_parts hcheck).2.2]
      exact hoff
    exact driven_assembled hs hq hinstall hfirst rounds (depth + 1) fun x hx =>
      hlines x.1 (List.mem_cons_of_mem _ (List.mem_map_of_mem hx))
  have hload : Queue.load (Queue.ofLines lines) = lines.flatten.length := Queue.load_ofLines lines
  obtain ⟨v, hloop, hcompletions, htotal, hdelays, hrested⟩ := runAll_rolling hs rounds depth hq
    (by simp [lines, Queue.ofLines]) hready.rolling (hload ▸ hrounds) 0
  have ho : o = (.ok (.count lines.flatten.length), v) := by
    change (Act.repeatWhile _ none rounds 0 >>= fun n => pure (Reply.count n)).outcome ready = _
    rw [Act.outcome_bind, hloop, Nat.zero_add, hload]
    rfl
  rw [hready.completions, Queue.remaining_zero, List.nil_append] at hcompletions
  rw [hready.totalSteps, Nat.zero_add, hload] at htotal
  rw [hready.delays, hready.rate, hload, Settings.clamp_rate hcheck] at hdelays
  rw [ho]
  refine ⟨rfl, hcompletions, ?_, htotal, hdelays, hrested.halted, hrested.live, hrested.pending, ?_⟩
  · intro j
    rw [hcompletions, (Queue.roundRobin_ofLines_perm hq lines).count_eq, hdistinct.count]
  · exact hrested.books.2.pending

/-- Three rows of blocks in slices of two, five milliseconds apart. -/
theorem relay_round_robin :
    let r := Block.relayRun
    let others : List (List Nat × ScopeChoice Block.dialect) := [([3], .fresh), ([4, 5], .fresh)]
    let depth := 0
    ((serve r.host 7 (depth + 3) (.runAll none)).outcome (r.world.driven r.host 7 (depth + 1)
        (.start none :: others.map fun x => .spawn x.1.head? x.2))).1 = .ok (.count 6) ∧
      ((serve r.host 7 (depth + 3) (.runAll none)).outcome (r.world.driven r.host 7 (depth + 1)
        (.start none :: others.map fun x => .spawn x.1.head? x.2))).2.completions =
          Queue.roundRobin 2 (by decide) [(0, [0, 1, 2]), (1, [3]), (2, [4, 5])] := by
  intro r others depth
  have hcheck : Settings.check (.float Block.relayRate) (.bool false) (.int 2) (.int 1024) =
      .ok { rate := Block.relayRate, timeSlice := 2 } := by
    have hrate : Settings.checkRate (.float Block.relayRate) = .ok Block.relayRate :=
      Settings.checkRate_float (by decide +kernel) (by decide +kernel)
    unfold Settings.check
    rw [hrate]
    rfl
  have hmake : Engine.make 0 { rate := Block.relayRate, timeSlice := 2 } = .ok r.world.engine := rfl
  have hfresh : Fresh (fun c : Clockwork => c.refusal = none ∧ c.keeps = false)
      (Block.Memory.LinkedAs Block.relay) r.world := ⟨⟨0, _, hmake⟩, rfl, ⟨rfl, rfl⟩, rfl⟩
  have hlines : ∀ is ∈ [0, 1, 2] :: others.map (·.1), is ≠ [] ∧
      r.host.Straight (Block.Memory.LinkedAs Block.relay) is := by
    obtain ⟨h0, h1, h2⟩ := Block.relay_straight r.scope
    intro is his
    simp only [others, List.map_cons, List.map_nil, List.mem_cons, List.not_mem_nil, or_false] at his
    rcases his with rfl | rfl | rfl
    · exact ⟨by simp, h0⟩
    · exact ⟨by simp, h1⟩
    · exact ⟨by simp, h2⟩
  have hroot : r.world.root r.host none = .ok (some 0, .copied []) := rfl
  obtain ⟨hcount, hcompletions, -⟩ := round_robin_complete (h := r.host) Scheduler.clockwork_onAgenda
    Block.install_linked hcheck rfl hmake hfresh rfl [0, 1, 2] others hlines (by decide) hroot 7 depth
    (by decide)
  exact ⟨hcount, hcompletions⟩

end World
end Loom
