import Loom.Proofs.StepCoherence

/-! The roster of a world: its phase, its strands in play, and the events told so far. Whatever a program
asks for, whatever the scheduler does and however deep requests nest, a roster changes only in a few ways,
each with the event that tells of it; so what every one of these changes keeps, the engine keeps. -/
namespace Loom

/-- What a deed tells to those who listen. -/
def Deed.happening? : Deed D → Option Happening
  | emitted e => some e.what
  | _ => none

/-- Events that tell of no change of the roster. -/
def Happening.IsPassing : Happening → Prop
  | rotated .. | stopped .. | failed .. => True
  | _ => False

/-- A program that can come without a first instruction. -/
def Host.IsEmpty (h : Host D) : Prop := ∃ source m, h.source = some source ∧ source.first m = .ok none

/-- The part of a world that its events tell about. -/
@[ext] structure Roster where
  started : Bool
  phase : Phase
  live : List Nat
  /-- The number of strands ever made. -/
  made : Nat
  log : List Happening

namespace Roster

@[simps] def told (r : Roster) (what : Happening) : Roster := { r with log := r.log ++ [what] }

@[simps] def inPhase (r : Roster) (phase : Phase) : Roster := { r with phase }

/-- A roster set going with a root strand, or with none in play when there is no instruction. -/
@[simps] def launched (r : Roster) (root : Option Nat) : Roster :=
  { r with started := true, live := root.toList, made := r.made + 1 }

@[simps] def joined (r : Roster) : Roster := { r with live := r.live ++ [r.made], made := r.made + 1 }

@[simps] def without (r : Roster) (sid : Nat) : Roster := { r with live := r.live.erase sid }

@[simps] def emptied (r : Roster) : Roster := { r with live := [] }

/-- One change of a roster and the events that tell of it. Only an `empty` program starts without a strand,
and no step is told of the strands that are `late`. -/
inductive Change (empty : Prop) (late : Nat → Prop) : Roster → Roster → Prop
  | enter {r} (new : Phase) (reason : String) (hidle : r.phase ≠ .idle) (hnew : new ≠ .terminated)
      (hmay : World.mayFollow r.phase new = true) :
      Change empty late r ((r.inPhase new).told (.phase r.phase new reason))
  | startEmpty {r} (reason : String) (hs : r.started = false) (he : empty) :
      Change empty late r (((r.launched none).inPhase .running).told (.phase r.phase .running reason))
  | start {r} (reason label : String) (hs : r.started = false) :
      Change empty late r ((((r.launched (some r.made)).inPhase .running).told
        (.phase r.phase .running reason)).told (.spawned r.made label))
  | spawn {r} (label : String) (hs : r.started = true) :
      Change empty late r (r.joined.told (.spawned r.made label))
  | retire {r} {sid : Nat} (steps : Nat) (hs : sid ∈ r.live) :
      Change empty late r ((r.without sid).told (.retired sid steps))
  | finish {r} (reason : String) (hs : r.started = true)
      (hmay : World.mayFollow r.phase .terminated = true) :
      Change empty late r ((r.emptied.inPhase .terminated).told (.phase r.phase .terminated reason))
  | pass {r} (what : Happening) (hw : what.IsPassing) : Change empty late r (r.told what)
  | step {r} {sid : Nat} (label : String) (next : Option String) (hasNext : Bool) (steps : Nat)
      (hs : ¬ late sid) : Change empty late r (r.told (.stepped sid label next hasNext steps))

/-- A property of rosters that every change keeps. Strands in play are never late. -/
structure Closed (empty : Prop) (late : Nat → Prop) (R : Roster → Prop) : Prop where
  change : ∀ {r r'}, R r → Change empty late r r' → R r'
  started_iff : ∀ {r}, R r → (r.started = true ↔ r.phase ≠ .idle)
  timely : ∀ {r sid}, R r → sid ∈ r.live → ¬ late sid

end Roster

/-- Every request but two: telling an event of the host's own, and reaching for the strands in play. -/
def Request.IsLogged : Request D → Prop
  | emit .. | forget _ => False
  | _ => True

/-- A script that, on memories with `P`, asks only for what satisfies `p`, however it ends. -/
abbrev Script.Asks (P : D.Memory → Prop) (p : Request D → Prop) (s : Script D α) : Prop :=
  s.Heeds P p fun _ => True

/-- A program whose code, on memories with `P`, asks only for what satisfies `p`. -/
structure Host.Asks (h : Host D) (P : D.Memory → Prop) (p : Request D → Prop) : Prop where
  code : ∀ i scope, (h.code i scope).Asks P p
  breaks : ∀ i, (h.breaks i).Asks P p
  farewell : ∀ f, (h.farewell f).Asks P p
  install : ∀ {m} n contents, P m → P (h.install m n contents)

namespace World

variable {D : Dialect}

/-- What the engine has told so far, in order. -/
@[simp] def log (w : World D) : List Happening := Deed.tell Deed.happening? w.deeds

/-- The part of a world that its events tell about. -/
@[simps] def roster (w : World D) : Roster where
  started := w.engine.started
  phase := w.engine.phase
  live := w.engine.live
  made := w.engine.strands.size
  log := w.log

section Parts

variable (w : World D)

@[simp] lemma roster_emitted (what : Happening) : (w.emitted what).roster = w.roster.told what := by
  simp [roster, Roster.told, Deed.happening?, event]

@[simp] lemma roster_noted (level : LogLevel) (source : LogSource) (text : String) :
    (w.noted level source text).roster = w.roster := rfl

@[simp] lemma roster_withMemory (memory : D.Memory) : (w.withMemory memory).roster = w.roster := rfl

@[simp] lemma roster_atClock (clock : D.Clock) : (w.atClock clock).roster = w.roster := rfl

lemma roster_recorded {deed : Deed D} (hd : deed.happening? = none) : (w.recorded deed).roster = w.roster := by
  simp [roster, hd]

@[simp] lemma roster_completed (sid : Nat) (i : D.Instr) : (w.completed sid i).roster = w.roster := by
  simp [roster, Engine.stepped, Engine.updateStrand, Deed.happening?]

@[simp] lemma roster_movedTo (sid : Nat) (cursor : Option D.Instr) :
    (w.altered (·.movedTo sid cursor)).roster = w.roster := by
  simp [roster, Engine.movedTo, Engine.updateStrand]

@[simp] lemma roster_followed (h : Host D) (sid : Nat) (i : D.Instr) :
    (w.followed h sid i).2.roster = w.roster := by
  unfold followed
  split
  · rfl
  · exact roster_movedTo w sid none
  · split_ifs <;> exact roster_movedTo w sid _

@[simp] lemma followed_memory (h : Host D) (sid : Nat) (i : D.Instr) :
    (w.followed h sid i).2.memory = w.memory := by
  unfold followed
  split
  · rfl
  · rfl
  · split_ifs <;> rfl

@[simp] lemma roster_disarmed (s : Scheduler D.Clock) : (w.disarmed s).roster = w.roster := rfl

@[simp] lemma roster_turned : w.turned.roster =
    if w.engine.timeSlice ≤ w.engine.sliceUsed ∧ 1 < w.engine.live.length then
      w.roster.told (.rotated (w.engine.live.getD w.engine.seat 0) w.engine.turned.atTurn)
    else w.roster := by
  unfold turned emittedIf
  by_cases hc : w.engine.timeSlice ≤ w.engine.sliceUsed ∧ 1 < w.engine.live.length
  · simp only [hc, decide_true, if_true, roster_emitted, and_self]
    rfl
  · simp only [hc, decide_false, Bool.false_eq_true, if_false]
    rfl

@[simp] lemma roster_entered (phase : Phase) (reason : String) : (w.entered phase reason).roster =
    (w.roster.inPhase phase).told (.phase w.engine.phase phase reason) := by
  simp [entered]
  rfl

@[simp] lemma roster_retired (sid : Nat) : (w.retired sid).roster =
    (w.roster.without sid).told (.retired sid (w.engine.steps sid)) := by
  simp [retired]
  rfl

@[simp] lemma roster_spawned (h : Host D) (i : D.Instr) (scope : ScopeChoice D) :
    (w.spawned h i scope).roster =
      w.roster.joined.told (.spawned w.engine.strands.size (h.label i)) := by
  simp [spawned, roster, Roster.joined, Roster.told, Deed.happening?, event]

@[simp] lemma roster_ended (s : Scheduler D.Clock) : (w.ended s).roster =
    (w.roster.emptied.inPhase .terminated).told (.phase w.engine.phase .terminated "terminate") := by
  simp [ended]
  rfl

@[simp] lemma roster_sought (h : Host D) (entry : Option D.Instr) : (w.sought h entry).roster = w.roster := by
  simp [roster]

lemma roster_begun (h : Host D) (cursor : Option D.Instr) (contents : D.Scope) :
    (w.begun h cursor contents).roster = match cursor with
      | none => ((w.roster.launched none).inPhase .running).told (.phase w.engine.phase .running "start")
      | some i => (((w.roster.launched (some w.engine.strands.size)).inPhase .running).told
          (.phase w.engine.phase .running "start")).told (.spawned w.engine.strands.size (h.label i)) := by
  cases cursor <;>
    simp [begun, roster, Roster.launched, Roster.inPhase, Roster.told, Deed.happening?, phaseEvent, event]

end Parts

/-- A property of the roster together with one of the memory. -/
structure Held (P : D.Memory → Prop) (R : Roster → Prop) (w : World D) : Prop where
  roster : R w.roster
  memory : P w.memory

/-- A computation that keeps a property of the roster and one of the memory, however it ends. -/
def Keeps (P : D.Memory → Prop) (R : Roster → Prop) (a : Act (World D) α) : Prop :=
  ∀ w, Held P R w → a.Ensures w fun _ v => Held P R v

variable {P : D.Memory → Prop} {R : Roster → Prop}

lemma Held.of_same {w v : World D} (hw : Held P R w) (hr : v.roster = w.roster)
    (hm : v.memory = w.memory) : Held P R v := ⟨hr ▸ hw.roster, hm ▸ hw.memory⟩

lemma Held.change {w v : World D} {empty : Prop} {late : Nat → Prop} (hw : Held P R w)
    (hR : Roster.Closed empty late R) (hr : Roster.Change empty late w.roster v.roster)
    (hm : P v.memory) : Held P R v := ⟨hR.change hw.roster hr, hm⟩

namespace Keeps

variable {a : Act (World D) α} {f : α → Act (World D) β}

lemma bind (ha : Keeps P R a) (hf : ∀ x, Keeps P R (f x)) : Keeps P R (a >>= f) := fun w hw =>
  (ha w hw).bind (fun x v hv => hf x v hv) fun _ _ hv => hv

/-- What leaves the roster and the memory as they are keeps everything. -/
lemma of_same (ha : ∀ w, (a.outcome w).2.roster = w.roster ∧ (a.outcome w).2.memory = w.memory) :
    Keeps P R a := fun w hw => hw.of_same (ha w).1 (ha w).2

lemma get_bind {f : World D → Act (World D) β}
    (hf : ∀ w, Held P R w → (f w).Ensures w fun _ v => Held P R v) : Keeps P R (get >>= f) :=
  fun w hw => hf w hw

lemma pure (x : α) : Keeps P R (Pure.pure x : Act (World D) α) := fun _ hw => hw

lemma throw (f : Fault) : Keeps P R (MonadExcept.throw f : Act (World D) α) := fun _ hw => hw

lemma ofExcept (r : Except Fault α) : Keeps P R (Act.ofExcept r : Act (World D) α) := fun _ hw => hw

lemma discard (ha : Keeps P R a) : Keeps P R (discard a) := by
  intro w hw
  unfold Act.Ensures
  rw [Act.outcome_discard]
  exact ha w hw

end Keeps

lemma keeps_modifyEngine {f : Engine D → Engine D}
    (hf : ∀ w : World D, (w.altered f).roster = w.roster) : Keeps P R (modifyEngine f) :=
  .of_same fun w => ⟨hf w, rfl⟩

lemma keeps_note (level : LogLevel) (source : LogSource) (text : String) :
    Keeps P R (note level source text) := .of_same fun _ => ⟨rfl, rfl⟩

lemma keeps_disarm (s : Scheduler D.Clock) : Keeps P R (disarm s) := by
  refine .of_same fun w => ?_
  rw [disarm_outcome]
  exact ⟨roster_disarmed w s, rfl⟩

lemma keeps_requireLive (operation : String) : Keeps P R (requireLive operation) := by
  refine .of_same fun w => ?_
  rw [requireLive_outcome]
  exact ⟨rfl, rfl⟩

lemma keeps_result (mark executed : Nat) (strand : Option Nat) (hasNext : Bool) :
    Keeps P R (result mark executed strand hasNext) := .of_same fun _ => ⟨rfl, rfl⟩

/-- Deferring a step changes the roster only by firing it at once. -/
lemma arm_keeps (s : Scheduler D.Clock) {fire : Ticket → Act (World D) Unit}
    (hfire : ∀ t, Keeps P R (fire t)) (delay : Binary64) : Keeps P R (arm s fire delay) := by
  refine Keeps.bind (keeps_disarm s) fun _ => Keeps.get_bind fun w hw => ?_
  generalize (⟨w.engine.run, w.engine.token⟩ : Ticket) = t
  have hput (r : Except Fault Arming) (clock : D.Clock) :
      Held P R ((w.recorded (.deferred t r.isOk)).atClock clock) :=
    hw.of_same (roster_recorded w rfl) rfl
  have hwait (handle : Nat) :
      Keeps P R (modifyEngine (D := D) fun e => { e with pending := some handle }) :=
    keeps_modifyEngine fun _ => rfl
  have hrest (arming : Arming) : Keeps P R (if arming.immediate then
      fire t >>= fun _ => modifyEngine fun e => { e with pending := some arming.handle }
      else modifyEngine fun e => { e with pending := some arming.handle }) := by
    split_ifs
    · exact Keeps.bind (hfire t) fun _ => hwait arming.handle
    · exact hwait arming.handle
  exact Keeps.bind (Keeps.ofExcept (s.arm w.clock delay t).1) hrest _ (hput _ (s.arm w.clock delay t).2)

section Changes

variable {h : Host D} {late : Nat → Prop} (hR : Roster.Closed h.IsEmpty late R)

include hR

/-- Telling of what is no change. -/
lemma pass_keeps {what : Happening} (hwhat : what.IsPassing) :
    Keeps (D := D) P R (discard (emit what)) := by
  refine Keeps.discard fun w hw => ?_
  obtain ⟨r, hr, -⟩ := emit_plain w what
  refine Act.ensures_of_outcome hr (hw.change hR ?_ hw.memory)
  rw [roster_emitted]
  exact .pass what hwhat

/-- A change of phase other than the start and the end. -/
lemma transition_ensures {w : World D} (hw : Held P R w) {new : Phase} (reason : String)
    (hnew : new ≠ .terminated) (hidle : w.engine.phase ≠ .idle ∨ new ≠ .running) :
    (transition new reason).Ensures w fun _ v => Held P R v := by
  rcases transition_cases w new reason with ⟨hmay, hout⟩ | ⟨-, hout⟩ | ⟨-, -, hout⟩ <;>
    refine Act.ensures_of_outcome hout ?_
  · have hphase : w.engine.phase ≠ .idle := hidle.elim id fun hrun hp =>
      hrun (eq_running_of_mayFollow (hp ▸ hmay))
    refine hw.change hR ?_ hw.memory
    rw [roster_entered]
    exact .enter new reason hphase hnew hmay
  · exact hw
  · exact hw

lemma transition_keeps {new : Phase} (reason : String) (hnew : new ≠ .terminated)
    (hrun : new ≠ .running) : Keeps (D := D) P R (transition new reason) :=
  fun _ hw => transition_ensures hR hw reason hnew (.inr hrun)

lemma halt_keeps (s : Scheduler D.Clock) : Keeps P R (halt s) :=
  Keeps.bind (keeps_disarm s) fun _ => transition_keeps hR _ (by simp) (by simp)

lemma retire_keeps (sid : Nat) : Keeps P R (retire h sid) := by
  intro w hw
  by_cases hs : sid ∈ w.engine.live
  · refine Act.ensures_of_outcome (retire_outcome h w hs) (hw.change hR ?_ hw.memory)
    rw [roster_retired]
    exact .retire _ hs
  · unfold Act.Ensures retire
    simpa [hs] using hw

lemma stop_keeps (mark sid : Nat) (i : D.Instr) : Keeps P R (stop h mark sid i) := by
  refine Keeps.bind (keeps_modifyEngine fun _ => rfl) fun _ => ?_
  refine Keeps.bind (keeps_disarm _) fun _ => ?_
  refine Keeps.bind (transition_keeps hR _ (by simp) (by simp)) fun _ => ?_
  refine Keeps.bind (keeps_note _ _ _) fun _ => ?_
  exact Keeps.bind (pass_keeps hR trivial) fun _ => keeps_result _ _ _ _

lemma stumble_keeps : Keeps P R (stumble h) := by
  refine Keeps.get_bind fun w hw => ?_
  dsimp only
  split_ifs
  · exact halt_keeps hR _ w hw
  · exact transition_keeps hR _ (by simp) (by simp) w hw
  · exact hw

lemma recover_keeps (sid before : Nat) (cursor : Option D.Instr) (f : Fault) :
    Keeps P R (recover h sid before cursor f) := by
  refine Keeps.bind (keeps_note _ _ _) fun _ => ?_
  refine Keeps.bind (keeps_disarm _) fun _ => ?_
  refine Keeps.bind (keeps_modifyEngine fun _ => rfl) fun _ => ?_
  refine Keeps.bind (.ofExcept _) fun _ => ?_
  refine Keeps.bind (pass_keeps hR trivial) fun _ => ?_
  refine Keeps.get_bind fun w hw => ?_
  split_ifs
  · refine Keeps.get_bind (fun w hw => ?_) w hw
    dsimp only
    split_ifs
    · exact Keeps.bind (retire_keeps hR sid) (fun _ => stumble_keeps hR) w hw
    · exact stumble_keeps hR w hw
  · exact hw

end Changes

section Step

variable {h : Host D} {late : Nat → Prop} (hR : Roster.Closed h.IsEmpty late R)
  {run : {α : Type} → Script D α → Act (World D) α} {fire : Ticket → Act (World D) Unit}
  (hcode : ∀ i scope, Keeps P R (run (h.code i scope))) (hbreaks : ∀ i, Keeps P R (run (h.breaks i)))
  (hfire : ∀ t, Keeps P R (fire t))

include hR hfire in
lemma windUp_keeps (manual : Bool) : Keeps P R (windUp h fire manual) := by
  refine Keeps.get_bind fun w hw => ?_
  dsimp only
  split_ifs
  · exact halt_keeps hR _ w hw
  · exact arm_keeps _ hfire _ w hw
  · exact hw

include hcode in
lemma advance_keeps (slot : Nat) (sid : Int) (manual : Bool) :
    Keeps P R (advance h run slot sid manual) := by
  intro w hw
  unfold Act.Ensures
  rw [advance_outcome]
  rcases w.engine.strand? slot with _ | strand
  · exact hw
  · rcases hc : strand.cursor with _ | i
    · simpa only [hc] using hw
    · have hran := hcode i strand.scope (w.recorded (.began slot i w.engine.phase manual))
        (hw.of_same (roster_recorded w rfl) rfl)
      unfold Act.Ensures at hran
      simp only [hc]
      rcases hrun : (run (h.code i strand.scope)).outcome
        (w.recorded (.began slot i w.engine.phase manual)) with ⟨f | _, v⟩ <;> rw [hrun] at hran
      · exact hran
      · exact hran.of_same (by simp) (by simp)

include hbreaks in
lemma consult_keeps (sid : Nat) (cursor : Option D.Instr) (manual : Bool) :
    Keeps P R (consult h run sid cursor manual) := by
  intro w hw
  exact consult_ensures hw fun _ _ i _ _ => hbreaks i w hw

include hR hfire in
lemma conclude_keeps (mark : Nat) {sid : Nat} (hs : ¬ late sid) (cursor : Option D.Instr)
    (hasNext manual : Bool) : Keeps P R (conclude h fire mark sid cursor hasNext manual) := by
  refine Keeps.bind (keeps_modifyEngine fun _ => rfl) fun _ => ?_
  refine Keeps.bind (keeps_note _ _ _) fun _ => ?_
  refine Keeps.get_bind fun w hw => ?_
  refine Keeps.bind (Keeps.discard fun w hw => ?_) (fun _ => ?_) w hw
  · refine Act.ensures_of_outcome (emit_own w (.stepped ..) trivial) (hw.change hR ?_ hw.memory)
    rw [roster_emitted]
    exact .step _ _ _ _ hs
  · refine Keeps.get_bind fun w hw => ?_
    have hend : Keeps P R (windUp h fire manual >>= fun _ => result mark 1 (some sid) hasNext) :=
      Keeps.bind (windUp_keeps hR hfire manual) fun _ => keeps_result _ _ _ _
    dsimp only
    split_ifs
    · exact Keeps.bind (retire_keeps hR sid) (fun _ => hend) w hw
    · exact hend w hw
    · exact hw

include hR hcode hfire in
lemma proceed_keeps (mark : Nat) {sid : Nat} (hs : ¬ late sid) (cursor : Option D.Instr)
    (manual : Bool) : Keeps P R (proceed h run fire mark sid cursor manual) := by
  intro w hw
  have hadvance := advance_keeps hcode sid sid manual
    ((w.altered (·.passing none)).altered (·.inStep true)) (hw.of_same rfl rfl)
  refine proceed_ensures hadvance (fun hasNext v hv => ?_) (fun f v _ hv => ?_) fun _ _ _ hv => hv.of_same rfl rfl
  · exact conclude_keeps hR hfire mark hs cursor hasNext manual (v.altered (·.inStep false)) (hv.of_same rfl rfl)
  · exact (recover_keeps hR sid (w.engine.steps sid) cursor f v hv).bind (fun _ _ hu => hu.of_same rfl rfl)
      fun _ _ hu => hu.of_same rfl rfl

include hR hcode hbreaks hfire in
/-- The strand at the turn is in play when the step begins, whatever becomes of it in the step. -/
lemma executeStep_keeps (manual : Bool) : Keeps P R (executeStep h run fire manual) := by
  intro w hw
  have hturned : Held P R w.turned := by
    refine ⟨?_, by simpa using hw.memory⟩
    rw [roster_turned]
    split_ifs
    · exact hR.change hw.roster (.pass _ trivial)
    · exact hw.roster
  refine executeStep_asks (fun _ => ?_) (consult_keeps hbreaks _ _ manual w.turned hturned) (fun _ _ hv => hv)
    (fun i v _ hv => stop_keeps hR _ _ i v hv) fun _ v hlive hv => ?_
  · exact Keeps.bind (halt_keeps hR h.scheduler) (fun _ => keeps_result _ 0 none false) w hw
  · exact proceed_keeps hR hcode hfire _ (hR.timely hw.roster (atTurn_mem hlive)) _ manual v hv

include hR hcode hbreaks hfire in
lemma honour_keeps (t : Ticket) : Keeps P R (honour h run fire t) := by
  refine Keeps.get_bind fun w hw => ?_
  dsimp only
  split_ifs
  · refine Keeps.bind (keeps_modifyEngine fun _ => rfl) (fun _ => ?_) w hw
    exact Keeps.discard (executeStep_keeps hR hcode hbreaks hfire false)
  · exact hw.of_same rfl rfl
  · exact keeps_note _ _ _ w hw

end Step

section Operations

variable {h : Host D} {late : Nat → Prop} (hR : Roster.Closed h.IsEmpty late R)
  (hinstall : ∀ {m} n contents, P m → P (h.install m n contents)) {fire : Ticket → Act (World D) Unit}

lemma root_isEmpty {w : World D} {entry : Option D.Instr} {contents : D.Scope}
    (hr : w.root h entry = .ok (none, contents)) : h.IsEmpty := by
  obtain ⟨source, hsource, hfirst⟩ := (root_ok hr).2 rfl
  exact ⟨source, w.memory, hsource, hfirst⟩

include hR hinstall in
/-- A start from the moment at which its first step is deferred. -/
lemma begun_held {w : World D} (hw : Held P R w) (hs : w.engine.started = false)
    {u : World D} {entry : Option D.Instr} {cursor : Option D.Instr} {contents : D.Scope}
    (hr : u.root h entry = .ok (cursor, contents)) : Held P R (w.begun h cursor contents) := by
  refine hw.change hR ?_ ?_
  · rw [roster_begun]
    cases cursor with
    | none => exact .startEmpty _ hs (root_isEmpty hr)
    | some i => exact .start _ _ hs
  · rw [begun_memory]
    exact newMemory_kept _ hinstall _ hw.memory

include hR hinstall in
/-- A step that is fired in the middle of a start finds nothing to do. -/
lemma start_keeps (hfire : ∀ t (r : Roster), r.phase ≠ .running → Keeps P (· = r) (fire t))
    (entry : Option D.Instr) : Keeps P R (start h fire entry) := by
  intro w hw
  rcases hs : w.engine.started with _ | _
  · have hidle : w.engine.phase = .idle := idle_of_unstarted (hR.started_iff hw.roster) hs
    have hsought : Held P R (w.sought h entry) := hw.of_same (by simp) (by simp)
    have harm := arm_keeps h.scheduler (fun t => hfire t w.roster (by simp [hidle])) .zero
      (w.sought h entry) ⟨roster_sought w h entry, hsought.memory⟩
    refine start_ensures hs (fun _ _ => hsought) harm (fun _ v hv => ⟨hv.roster ▸ hw.roster, hv.memory⟩)
      fun cursor contents v hr hv => ?_
    have hstarted : v.engine.started = false := (congrArg Roster.started hv.roster).trans hs
    exact ⟨(congrArg Roster.phase hv.roster).trans hidle,
      begun_held hR hinstall ⟨hv.roster ▸ hw.roster, hv.memory⟩ hstarted hr⟩
  · exact Act.ensures_of_outcome (start_again h fire entry hs) hw

include hR in
lemma resume_keeps (hfire : ∀ t, Keeps P R (fire t)) : Keeps P R (resume h fire) := by
  refine Keeps.bind (keeps_requireLive _) fun _ => Keeps.get_bind fun w hw => ?_
  split_ifs
  · exact keeps_note _ _ _ w hw
  · refine Keeps.bind (arm_keeps _ hfire _) (fun _ => Keeps.get_bind fun w hw => ?_) w hw
    split_ifs with hp
    · exact transition_ensures hR hw _ (by simp) (.inl (by simp [hp]))
    · exact hw

include hR in
lemma pause_keeps : Keeps P R (pause h) := by
  refine Keeps.bind (keeps_requireLive _) fun _ => ?_
  refine Keeps.bind (keeps_disarm _) fun _ => Keeps.get_bind fun w hw => ?_
  split_ifs
  · exact transition_keeps hR _ (by simp) (by simp) w hw
  · exact hw

lemma setRate_keeps (given : Option Value) : Keeps P R (setRate given) := by
  refine Keeps.of_same fun w => ?_
  rw [setRate_outcome]
  split_ifs
  · exact ⟨rfl, rfl⟩
  · split <;> exact ⟨rfl, rfl⟩

include hR in
lemma terminate_keeps : Keeps P R (terminate h) := by
  intro w hw
  rcases terminate_cases h w (hR.started_iff hw.roster).1 with ⟨f, -, hout⟩ | ⟨hs, hmay, hout⟩
  · exact Act.ensures_of_outcome hout hw
  · refine Act.ensures_of_outcome hout (hw.change hR ?_ hw.memory)
    rw [roster_ended]
    exact .finish _ hs hmay

include hR hinstall in
lemma spawn_keeps (hfire : ∀ t, Keeps P R (fire t)) (entry : Option D.Instr) (scope : ScopeChoice D) :
    Keeps P R (spawn h fire entry scope) := by
  intro w hw
  unfold Act.Ensures spawn
  rw [requireLive_bind]
  rcases hr : w.engine.refusal "spawn" with _ | f
  · by_cases hp : w.engine.phase = .halted
    · simpa [hp] using hw
    · rcases derivedEntry h entry with f | i
      · simpa [hp] using hw
      · have hspawned : Held P R (w.spawned h i scope) := by
          refine hw.change hR ?_ (newMemory_kept _ hinstall scope hw.memory)
          rw [roster_spawned]
          exact .spawn _ (started_of_refusal hr).1
        have hjoin : ((w.peopled h (some i) scope).altered fun e =>
            { e with live := e.live ++ [w.engine.strands.size] }).emitted
              (.spawned w.engine.strands.size (h.label i)) = w.spawned h i scope := rfl
        have harm := Keeps.bind (arm_keeps h.scheduler hfire .zero)
          (fun _ => Keeps.pure w.engine.strands.size) _ hspawned
        unfold Act.Ensures at harm
        simp only [hp, Act.outcome_bind, Act.outcome_get, Act.outcome_ofExcept, addStrand_outcome,
          modifyEngine_outcome, Act.outcome_discard, emit_own _ (.spawned ..) trivial,
          Act.except_map_ok, if_false, hjoin]
        split_ifs
        · exact harm
        · exact hspawned
  · exact hw

include hR in
lemma step_keeps {run : {α : Type} → Script D α → Act (World D) α}
    (hcode : ∀ i scope, Keeps P R (run (h.code i scope))) (hbreaks : ∀ i, Keeps P R (run (h.breaks i)))
    (hfire : ∀ t, Keeps P R (fire t)) : Keeps P R (step h run fire) := by
  intro w hw
  exact step_ensures (fun _ _ => hw) (fun _ => hw) fun _ _ =>
    executeStep_keeps hR hcode hbreaks hfire true w hw

end Operations

section Requests

variable {h : Host D} {late : Nat → Prop}

lemma runNext_keeps (s : Scheduler D.Clock) {fire : Ticket → Act (World D) Unit}
    (hfire : ∀ t, Keeps P R (fire t)) : Keeps P R (runNext s fire) := by
  intro w hw
  unfold Act.Ensures
  rw [runNext_outcome]
  rcases s.next w.clock with _ | ⟨t, clock⟩
  · exact hw
  · exact hfire t (w.atClock clock) (hw.of_same rfl rfl)

lemma pump_keeps (rounds : Nat) : Keeps (D := D) P R (pump rounds) := by
  refine Keeps.get_bind fun w hw => ?_
  rcases w.bus with _ | bus
  · exact hw
  · exact hw.of_same rfl rfl

lemma runScript_keeps {serve : Request D → Act (World D) Reply} {p : Request D → Prop}
    (hserve : ∀ r, p r → Keeps P R (serve r)) {s : Script D α} (hs : s.Asks P p) :
    Keeps P R (runScript serve s) := by
  intro w hw
  have hrun := runScript_ensures serve (I := Held P R) (F := fun _ _ => True)
    (fun _ hv => hv.memory) (fun _ _ hm hv => ⟨⟨hv.roster, hm⟩, fun _ _ => trivial⟩) ?_ hs hw
    fun _ _ => trivial
  · exact hrun.mono fun _ _ hv => hv.1
  · intro r v hr hv
    exact (hserve r hr v hv).mono fun _ _ hu => ⟨hu, fun _ _ => trivial, fun _ _ => trivial⟩

variable {p : Request D → Prop} (hR : Roster.Closed h.IsEmpty late R) (hh : h.Asks P p)

include hR hh

/-- A logged request keeps what the requests that the program may ask for and the firing of a step keep. -/
lemma perform_keeps (rounds : Nat) {serve : Request D → Act (World D) Reply} (hp : ∀ t, p (.fire t))
    (hserve : ∀ r, p r → Keeps P R (serve r))
    (hstill : ∀ t (r : Roster), r.phase ≠ .running → Keeps P (· = r) (serve (.fire t))) {r : Request D}
    (hr : r.IsLogged) : Keeps P R (perform h rounds serve r) := by
  have hcode (i : D.Instr) (scope : Nat) : Keeps P R (runScript serve (h.code i scope)) :=
    runScript_keeps hserve (hh.code i scope)
  have hbreaks (i : D.Instr) : Keeps P R (runScript serve (h.breaks i)) :=
    runScript_keeps hserve (hh.breaks i)
  have hfire (t : Ticket) : Keeps P R (discard (serve (.fire t))) := Keeps.discard (hserve _ (hp t))
  have hnext : Keeps P R (runNext h.scheduler fun t => discard (serve (.fire t))) := runNext_keeps _ hfire
  have hreply {α : Type} {a : Act (World D) α} {k : α → Reply} (ha : Keeps P R a) :
      Keeps P R (a >>= fun x => pure (k x)) := Keeps.bind ha fun _ => Keeps.pure _
  cases r with
  | start entry =>
    exact hreply (start_keeps hR hh.install (fun t r hp => Keeps.discard (hstill t r hp)) entry)
  | pause => exact hreply (pause_keeps hR)
  | resume => exact hreply (resume_keeps hR hfire)
  | rate given => exact hreply (setRate_keeps given)
  | terminate farewell =>
    refine Keeps.bind (terminate_keeps hR) fun _ => ?_
    cases farewell with
    | none => exact Keeps.pure _
    | some f => exact hreply (runScript_keeps hserve (hh.farewell f))
  | breakpoints on => exact hreply (keeps_modifyEngine fun _ => rfl)
  | spawn entry scope =>
    refine Keeps.bind (spawn_keeps hR hh.install hfire entry scope) fun _ => ?_
    exact Keeps.get_bind fun _ hw => hw
  | step => exact hreply (step_keeps hR hcode hbreaks hfire)
  | info => exact Keeps.get_bind fun _ hw => hw
  | current => exact Keeps.get_bind fun _ hw => hw
  | events limit => exact Keeps.get_bind fun _ hw => hw
  | emit type strand data => exact hr.elim
  | fire t => exact hreply (honour_keeps hR hcode hbreaks hfire t)
  | fireIssued n =>
    refine Keeps.get_bind fun w hw => ?_
    rcases h.scheduler.issued w.clock n with _ | t
    · exact hw
    · exact hreply (honour_keeps hR hcode hbreaks hfire t) w hw
  | runNext => exact hreply hnext
  | runAll limit =>
    refine hreply fun w hw => ?_
    exact Act.repeatWhile_ensures (I := Held P R) (fun v hv => hnext v hv) limit rounds 0 hw
  | refuse on => exact hreply (Keeps.of_same fun _ => ⟨rfl, rfl⟩)
  | pump => exact hreply (pump_keeps rounds)
  | timeSlice n => exact hreply (keeps_modifyEngine fun _ => rfl)
  | forget position => exact hr.elim
  | blank sid => exact hreply (keeps_modifyEngine fun w => roster_movedTo w sid none)

omit hR hh in
/-- Firing a step while the engine does not run leaves the roster as it is. -/
lemma fire_still (h : Host D) (rounds depth : Nat) (t : Ticket) {r : Roster} (hr : r.phase ≠ .running) :
    Keeps P (· = r) (serve h rounds depth (.fire t)) := by
  cases depth with
  | zero => exact Keeps.throw _
  | succ depth =>
    intro w hw
    have hp : w.engine.phase ≠ .running := by
      rw [← hw.roster] at hr
      exact hr
    exact fire_ensures (fun _ hrun => absurd hrun hp) (fun _ _ => hw.of_same rfl rfl)
      fun _ => hw.of_same rfl rfl

/-- Whatever is asked for at whatever depth, the roster changes only in the ways that are told, and by
the requests that are not logged. -/
lemma serve_keeps_of (rounds depth : Nat) (hp : ∀ t, p (.fire t))
    (hforeign : ∀ (serve : Request D → Act (World D) Reply) r, p r → ¬ r.IsLogged →
      Keeps P R (perform h rounds serve r)) {r : Request D} (hr : p r) :
    Keeps P R (serve h rounds depth r) := by
  induction depth generalizing r with
  | zero => exact Keeps.throw _
  | succ depth ih =>
    by_cases hlogged : r.IsLogged
    · exact perform_keeps hR hh rounds hp (fun _ => ih) (fun t _ => fire_still h rounds depth t) hlogged
    · exact hforeign _ r hr hlogged

omit hh in
/-- Where only logged requests are made, the roster changes only in the ways that are told. -/
theorem serve_keeps (hh : h.Asks P Request.IsLogged) (rounds depth : Nat) {r : Request D}
    (hr : r.IsLogged) : Keeps P R (serve h rounds depth r) :=
  serve_keeps_of hR hh rounds depth (fun _ => trivial) (fun _ _ hr hforeign => absurd hr hforeign) hr

end Requests

end World
end Loom
