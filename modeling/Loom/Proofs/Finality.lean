import Loom.Proofs.Refusal

/-! The end of a run is final. A run ends for good at most once; from then on nothing is executed, nothing
is deferred and nothing is announced but what the host announces itself, whoever asks for what and
whichever ticket is fired. Only the step that is in the middle of an instruction when the end comes has
still to tell how the instruction came out. -/
namespace Loom

/-- The request to announce an event of the host's own. -/
def Request.Tells : Request D → Prop
  | emit .. => True
  | _ => False

/-- Events of the host's own do not tell of the end. -/
lemma Happening.isEnding_of_not_own {what : Happening} (h : ¬ what.IsOwn) : what.isEnding = false := by
  cases what <;> first | rfl | exact absurd trivial h

/-- The callback for the end of a run, if there is one. -/
def Host.goodbye (h : Host D) : Option D.Farewell → Script D Unit
  | none => .done ()
  | some f => h.farewell f

namespace World

variable {D : Dialect}

/-- A run that has ended for good. -/
structure Ended (w : World D) : Prop where
  mortal : w.Mortal
  phase : w.engine.phase = .terminated

lemma Ended.started {w : World D} (hw : w.Ended) : w.engine.started = true :=
  hw.mortal.started_iff.mpr (by simp [hw.phase])

/-- What a world that has ended for good may still go through: nothing that counts, and of all deeds only
announcements of the host, if it makes any. -/
structure Lingers (tells : Prop) (w v : World D) : Prop where
  started : v.engine.started = w.engine.started
  phase : v.engine.phase = w.engine.phase
  live : v.engine.live = w.engine.live
  counts : v.engine.strands.map (·.steps) = w.engine.strands.map (·.steps)
  totalSteps : v.engine.totalSteps = w.engine.totalSteps
  rate : v.engine.rate = w.engine.rate
  pending : v.engine.pending = w.engine.pending ∨ v.engine.pending = none
  deeds : ∃ told : List Event, v.deeds.toList = w.deeds.toList ++ told.map .emitted ∧
    (∀ e ∈ told, ¬ e.what.IsOwn) ∧ (told ≠ [] → tells)
  silent : ¬ tells → v.engine.history = w.engine.history ∧ v.engine.nextSeq = w.engine.nextSeq

namespace Lingers

variable {tells : Prop} {w v u : World D}

lemma refl (w : World D) : Lingers tells w w where
  started := rfl
  phase := rfl
  live := rfl
  counts := rfl
  totalSteps := rfl
  rate := rfl
  pending := .inl rfl
  deeds := ⟨[], by simp, by simp, by simp⟩
  silent _ := ⟨rfl, rfl⟩

lemma trans (h : Lingers tells w v) (h' : Lingers tells v u) : Lingers tells w u where
  started := h'.started.trans h.started
  phase := h'.phase.trans h.phase
  live := h'.live.trans h.live
  counts := h'.counts.trans h.counts
  totalSteps := h'.totalSteps.trans h.totalSteps
  rate := h'.rate.trans h.rate
  pending := by
    rcases h'.pending with hp | hp
    · rw [hp]
      exact h.pending
    · exact .inr hp
  deeds := by
    obtain ⟨told, hdeeds, hown, htells⟩ := h.deeds
    obtain ⟨told', hdeeds', hown', htells'⟩ := h'.deeds
    refine ⟨told ++ told', by rw [hdeeds', hdeeds]; simp, List.forall_mem_append.mpr ⟨hown, hown'⟩, ?_⟩
    intro hne
    by_cases ht : told = []
    · exact htells' (by simpa [ht] using hne)
    · exact htells ht
  silent ht := ⟨(h'.silent ht).1.trans (h.silent ht).1, (h'.silent ht).2.trans (h.silent ht).2⟩

lemma mono {tells' : Prop} (h : Lingers tells w v) (ht : tells → tells') : Lingers tells' w v := by
  obtain ⟨told, hdeeds, hown, htells⟩ := h.deeds
  exact { h with
    deeds := ⟨told, hdeeds, hown, fun hne => ht (htells hne)⟩
    silent := fun hs => h.silent (mt ht hs) }

lemma log (h : Lingers tells w v) :
    ∃ told, v.log = w.log ++ told ∧ (∀ what ∈ told, ¬ what.IsOwn) ∧ (told ≠ [] → tells) := by
  obtain ⟨told, hdeeds, hown, htells⟩ := h.deeds
  refine ⟨told.map (·.what), ?_, by simpa using hown, fun hne => htells (by simpa using hne)⟩
  simp [Deed.tell, hdeeds, Deed.happening?, List.filterMap_map, Function.comp_def]

/-- What is not announced is not done. -/
lemma tell_eq (h : Lingers tells w v) {f : Deed D → Option β} (hf : ∀ e, f (.emitted e) = none) :
    Deed.tell f v.deeds = Deed.tell f w.deeds := by
  obtain ⟨told, hdeeds, -⟩ := h.deeds
  simp [Deed.tell, hdeeds, List.filterMap_map, hf]

/-- Nobody tells of the end again. -/
lemma ended (h : Lingers tells w v) (hw : w.Ended) : v.Ended := by
  obtain ⟨told, hlog, hown, -⟩ := h.log
  have hnone : Log.endings told = 0 :=
    List.countP_eq_zero.mpr fun what hwhat => by simp [Happening.isEnding_of_not_own (hown what hwhat)]
  have hendings : Log.endings v.log = Log.endings w.log := by
    rw [hlog, Log.endings, List.countP_append]
    exact congrArg _ hnone
  have hphase : v.engine.phase = .terminated := h.phase.trans hw.phase
  refine ⟨⟨?_, ?_⟩, hphase⟩
  · simp [h.started, hw.started, hphase]
  · have hone : Log.endings w.log = if w.engine.phase = .terminated then 1 else 0 := hw.mortal.endings
    rw [roster_log, roster_phase, hendings, hone, h.phase]

lemma deeds_eq (h : Lingers tells w v) (ht : ¬ tells) : v.deeds = w.deeds := by
  obtain ⟨told, hdeeds, -, htells⟩ := h.deeds
  have hnone : told = [] := by_contra fun hne => ht (htells hne)
  rw [hnone, List.map_nil, List.append_nil] at hdeeds
  exact Array.toList_inj.mp hdeeds

lemma quiet (h : Quietly w v) : Lingers tells w v := by
  rw [h]
  exact { (refl w : Lingers tells w w) with }

lemma withMemory (w : World D) (m : D.Memory) : Lingers tells w (w.withMemory m) :=
  { (refl w : Lingers tells w w) with }

lemma atClock (w : World D) (clock : D.Clock) : Lingers tells w (w.atClock clock) :=
  { (refl w : Lingers tells w w) with }

/-- The host announces an event of its own. -/
lemma announced (w : World D) (type strand : Value) (data : Table) :
    Lingers True w (w.emitted (.announced type strand data)) :=
  { (refl w : Lingers True w w) with
    deeds := ⟨[w.event (.announced type strand data)], by simp, by simp [event, Happening.IsOwn],
      fun _ => trivial⟩
    silent := fun ht => absurd trivial ht }

end Lingers

/-- Moving a strand changes no count. -/
lemma steps_movedTo (e : Engine D) (sid : Nat) (cursor : Option D.Instr) :
    (e.movedTo sid cursor).strands.map (·.steps) = e.strands.map (·.steps) := by
  refine Array.ext (by simp [Engine.movedTo, Engine.updateStrand]) fun n _ _ => ?_
  simp only [Engine.movedTo, Engine.updateStrand, Array.getElem_map, Array.getElem_modify]
  split_ifs <;> rfl

/-- Once a run has ended, every lifecycle operation but the switch of breakpoints is objected to. -/
lemma Ended.objected {w : World D} (hw : w.Ended) (h : Host D) {r : Request D} (hr : r.IsLifecycle)
    (hb : ∀ on, r ≠ .breakpoints on) : ∃ f, objection h w r = some f := by
  have hlife {r : Request D} (hr : r.NeedsLife) : ∃ f, objection h w r = some f := by
    obtain ⟨f, hf, -⟩ := (objection_life h hr).2.1 hw.started hw.phase
    exact ⟨f, hf⟩
  cases r with
  | start entry => exact ⟨_, if_pos hw.started⟩
  | rate given => exact ⟨_, if_pos hw.phase⟩
  | breakpoints on => exact absurd rfl (hb on)
  | pause | resume | terminate | spawn | step => exact hlife trivial
  | _ => exact hr.elim

/-- A ticket that is fired after the end leaves a note, or is forgotten. -/
lemma honour_lingers (h : Host D) (run : {α : Type} → Script D α → Act (World D) α)
    (fire : Ticket → Act (World D) Unit) (t : Ticket) {w : World D} (hw : w.Ended) :
    (honour h run fire t).Ensures w fun _ v => Lingers False w v := by
  have hrefl : Lingers False w w := .refl w
  unfold Act.Ensures
  rw [honour_outcome]
  split_ifs with ht hp
  · rw [hw.phase] at hp
    cases hp
  · exact { hrefl with pending := .inr rfl }
  · exact { hrefl with }

lemma runNext_lingers (s : Scheduler D.Clock) {fire : Ticket → Act (World D) Unit}
    (hfire : ∀ t (w : World D), w.Ended → (fire t).Ensures w fun _ v => Lingers False w v)
    {w : World D} (hw : w.Ended) : (runNext s fire).Ensures w fun _ v => Lingers False w v := by
  unfold Act.Ensures
  rw [runNext_outcome]
  rcases s.next w.clock with _ | ⟨t, clock⟩
  · exact .refl w
  · have hclock : Lingers False w (w.atClock clock) := .atClock w clock
    exact hclock.trans (hfire t (w.atClock clock) (hclock.ended hw))

/-- Handing out messages is no matter of the engine. -/
lemma pump_lingers (rounds : Nat) (w : World D) :
    (pump rounds).Ensures w fun _ v => Lingers False w v := by
  have hrefl : Lingers False w w := .refl w
  unfold Act.Ensures pump
  rcases hb : w.bus with _ | bus <;> simp only [Act.outcome_bind, Act.outcome_get, hb]
  · exact hrefl
  · exact { hrefl with }

lemma forget_lingers (position : Int) {w : World D} (hw : w.engine.live = []) :
    (forget position).Ensures w fun _ v => Lingers False w v := by
  have hrefl : Lingers False w w := .refl w
  unfold Act.Ensures forget
  rw [modifyEngine_outcome]
  dsimp only [altered]
  generalize (if position < 0 then position + w.engine.live.length else position) = p
  split_ifs
  · exact hrefl
  · exact { hrefl with live := by simp [hw] }

/-- Whatever is asked for after the end, only the host's own announcements come of it. Only reaching for
the strands in play could change them, if there were any. -/
theorem serve_lingers (h : Host D) (rounds depth : Nat) {w : World D} (hw : w.Ended) {r : Request D}
    (hr : w.engine.live = [] ∨ ∀ position, r ≠ .forget position) :
    (serve h rounds depth r).Ensures w fun _ v => Lingers r.Tells w v := by
  induction depth generalizing w r with
  | zero => exact .refl w
  | succ depth ih =>
    have hdeclined {r : Request D} (hl : r.IsLifecycle) (hb : ∀ on, r ≠ .breakpoints on) :
        (serve h rounds (depth + 1) r).Ensures w fun _ v => Lingers r.Tells w v := by
      obtain ⟨f, hf⟩ := hw.objected h hl hb
      obtain ⟨v, hout, hquiet⟩ := declined rounds depth hw.mortal hl hf
      exact Act.ensures_of_outcome hout (.quiet hquiet)
    have hfire (t : Ticket) (v : World D) (hv : v.Ended) :
        (discard (serve h rounds depth (.fire t))).Ensures v fun _ u => Lingers False v u := by
      unfold Act.Ensures
      rw [Act.outcome_discard]
      exact ih (r := .fire t) hv (.inr fun _ => nofun)
    have hrefl : Lingers False w w := .refl w
    cases r with
    | start | pause | resume | rate | terminate | spawn | step => exact hdeclined trivial nofun
    | breakpoints on => exact { hrefl with }
    | info | current | events => exact hrefl
    | emit type strand data => exact announce_ensures (fun _ _ => .refl w) fun _ _ => .announced w _ _ _
    | fire t => exact (honour_lingers h _ _ t hw).reply
    | fireIssued n =>
      unfold Act.Ensures serve perform
      dsimp only
      rw [Act.outcome_bind, Act.outcome_get]
      dsimp only
      split
      · exact hrefl
      · exact (honour_lingers h _ _ _ hw).reply
    | runNext => exact (runNext_lingers h.scheduler hfire hw).reply
    | runAll limit =>
      refine Act.Ensures.reply (Act.repeatWhile_ensures (I := Lingers False w) (fun v hv => ?_) limit
        rounds 0 hrefl)
      exact (runNext_lingers h.scheduler hfire (hv.ended hw)).mono fun _ _ hu => hv.trans hu
    | refuse on => exact { hrefl with }
    | pump => exact (pump_lingers rounds w).reply
    | timeSlice n => exact { hrefl with }
    | forget position =>
      have hlive : w.engine.live = [] := hr.resolve_right fun hne => hne position rfl
      exact (forget_lingers position hlive).reply
    | blank sid => exact { hrefl with counts := steps_movedTo w.engine sid none }

/-- A script that goes on after the end gets nothing done but its own announcements. -/
lemma runScript_lingers (h : Host D) (rounds depth : Nat) {tells : Prop} {s : Script D α}
    (hs : s.Asks (fun _ => True) fun r => r.Tells → tells) {w : World D} (hw : w.Ended)
    (hlive : w.engine.live = []) :
    (runScript (serve h rounds depth) s).Ensures w fun _ v => Lingers tells w v := by
  refine (runScript_ensures (serve h rounds depth) (I := Lingers tells w) (F := fun _ _ => True)
    (fun _ _ => trivial) (fun v m _ hv => ⟨hv.trans (.withMemory v m), fun _ _ => trivial⟩)
    (fun r v hr hv => ?_) hs (.refl w) fun _ _ => trivial).mono fun _ _ hv => hv.1
  have hserved := serve_lingers h rounds depth (hv.ended hw) (r := r) (.inl (hv.live.trans hlive))
  exact hserved.mono fun _ u hu => ⟨hv.trans (hu.mono hr), fun _ _ => trivial, fun _ _ => trivial⟩

/-- What a script may ask for, the rest of it may. -/
lemma Reaches.asks {serve : Request D → Act (World D) Reply} {s s' : Script D α} {w w' : World D}
    {p : Request D → Prop} (h : Reaches serve s w s' w') (hs : s.Asks (fun _ => True) p) :
    s'.Asks (fun _ => True) p := by
  induction h with
  | here => exact hs
  | look _ ih =>
    cases hs with
    | look hnext => exact ih (hnext _ trivial)
  | store _ ih =>
    cases hs with
    | store _ hnext => exact ih hnext
  | ask _ _ ih =>
    cases hs with
    | ask _ hnext => exact ih ((hnext _).mono fun _ _ => trivial)

section

variable {h : Host D} {rounds depth : Nat} {w : World D}

lemma after_lingers (hw : w.Ended) {m : Move D} (hm : ∀ position, m ≠ .operate (.forget position))
    {tells : Prop} (ht : ∀ r, m = .operate r → r.Tells → tells) :
    Lingers tells w (w.after h rounds depth m) := by
  cases m with
  | operate r =>
    have hr (position : Int) : r ≠ .forget position := fun heq => hm position (heq ▸ rfl)
    exact Lingers.mono (serve_lingers h rounds (depth + 1) hw (.inr hr)) (ht r rfl)
  | fire t =>
    exact Lingers.mono (serve_lingers h rounds (depth + 1) hw (r := .fire t) (.inr fun _ => nofun)) nofun
  | drift clock => exact .atClock w clock

/-- Nothing more comes of a run that has ended, whatever is asked for and whichever ticket is fired. -/
theorem replay_lingers (hw : w.Ended) {moves : List (Move D)}
    (hm : ∀ position, .operate (.forget position) ∉ moves) {tells : Prop}
    (ht : ∀ r, .operate r ∈ moves → r.Tells → tells) :
    Lingers tells w (w.replay h rounds depth moves) := by
  induction moves generalizing w with
  | nil => exact .refl w
  | cons m moves ih =>
    have hfirst : Lingers tells w (w.after h rounds depth m) :=
      after_lingers hw (fun position heq => hm position (by simp [heq]))
        fun r heq => ht r (by simp [heq])
    exact hfirst.trans (ih (hfirst.ended hw) (fun position hmem => hm position (.tail m hmem))
      fun r hmem => ht r (.tail m hmem))

end

/-- Nothing is left of a run: no strand in play, no step deferred, no stop to be passed. -/
structure Bereft (w : World D) : Prop where
  phase : w.engine.phase = .terminated
  live : w.engine.live = []
  pending : w.engine.pending = none
  skip : w.engine.skip = none

lemma bereft_ended (w : World D) (s : Scheduler D.Clock) : (w.ended s).Bereft := ⟨rfl, rfl, rfl, rfl⟩

/-- What a request to end a run comes to. It is refused without effect unless the run is under way.
Otherwise the run ends, and its callback is run once, when nothing is left of the run; however the callback
comes out, it gets nothing more done than to announce events of its own. -/
structure EndsOnce (h : Host D) (rounds depth : Nat) (farewell : Option D.Farewell) (w : World D) :
    Prop where
  refused : w.engine.started = false ∨ w.engine.phase = .terminated →
    ∃ f, (serve h rounds (depth + 1) (.terminate farewell)).outcome w = (.error f, w)
  runs : w.engine.started = true → w.engine.phase ≠ .terminated →
    (serve h rounds (depth + 1) (.terminate farewell)).outcome w =
      (runScript (serve h rounds depth) (h.goodbye farewell) >>= fun _ => pure .self).outcome
        (w.ended h.scheduler)
  bereft : (w.ended h.scheduler).Bereft
  log : (w.ended h.scheduler).log = w.log ++ [.phase w.engine.phase .terminated "terminate"]
  lingers : w.engine.started = true → w.engine.phase ≠ .terminated →
    ∀ tells, (h.goodbye farewell).Asks (fun _ => True) (fun r => r.Tells → tells) →
      Lingers tells (w.ended h.scheduler)
        ((serve h rounds (depth + 1) (.terminate farewell)).outcome w).2

section

variable {h : Host D} {rounds depth : Nat} {w : World D}

/-- The world in which a run has just ended. -/
lemma Mortal.ended (hw : w.Mortal) (hs : w.engine.started = true) (hp : w.engine.phase ≠ .terminated) :
    (w.ended h.scheduler).Ended := by
  have hmay : mayFollow w.roster.phase .terminated = true := mayFollow_terminated (hw.started_iff.mp hs) hp
  have hfinish : Roster.Change True (fun _ => True) w.roster (w.ended h.scheduler).roster := by
    rw [roster_ended]
    exact .finish "terminate" hs hmay
  exact ⟨Roster.Mortal.change hw hfinish, rfl⟩

lemma Mortal.endsOnce (hw : w.Mortal) (farewell : Option D.Farewell) :
    EndsOnce h rounds depth farewell w := by
  have hruns (hs : w.engine.started = true) (hp : w.engine.phase ≠ .terminated) :
      (serve h rounds (depth + 1) (.terminate farewell)).outcome w =
        (runScript (serve h rounds depth) (h.goodbye farewell) >>= fun _ => pure .self).outcome
          (w.ended h.scheduler) := by
    have hout : (terminate h).outcome w = (.ok (), w.ended h.scheduler) := by
      rcases terminate_judged (h := h) hw farewell with ⟨f, hf, -⟩ | ⟨-, hout⟩
      · simp [objection, hs, hp] at hf
      · exact hout
    unfold serve perform
    dsimp only
    rw [Act.outcome_bind, hout]
    cases farewell <;> rfl
  refine ⟨fun hw' => ?_, hruns, bereft_ended w _, ?_, fun hs hp tells htells => ?_⟩
  · rcases terminate_judged (h := h) hw farewell with ⟨f, -, hout⟩ | ⟨hnone, -⟩
    · refine ⟨f, ?_⟩
      unfold serve perform
      dsimp only
      rw [Act.outcome_bind, hout]
    · rcases hw' with hs | hp
      · simp [objection, hs] at hnone
      · have hs : w.engine.started = true := hw.started_iff.mpr (by simp [hp])
        simp [objection, hs, hp] at hnone
  · simp [Deed.happening?, phaseEvent, event]
  · rw [hruns hs hp]
    exact (runScript_lingers h rounds depth htells (hw.ended hs hp) rfl).reply

end

/-- The last words of a step during whose instruction the run ended, and how many instructions are counted with
them at most. An exit or an interrupt is passed on without a word; a fault that cannot be worded ends in that of
its wording. -/
inductive LastWords (sid : Nat) : Except Fault α → List Happening → Nat → Prop
  | stepped (x : α) (label : String) (next : Option String) (hasNext : Bool) (steps : Nat) :
      LastWords sid (.ok x) [.stepped sid label next hasNext steps] 1
  | failed {f : Fault} {text : String} (hf : f.isOrdinary = true) (htext : f.message = .ok text) :
      LastWords sid (.error f) [.failed sid text f.kind.name] 1
  | wordless {f g : Fault} (hf : f.isOrdinary = true) (hg : f.message = .error g) :
      LastWords sid (.error g) [] 1
  | none {f : Fault} (hf : f.isOrdinary = false) : LastWords sid (.error f) [] 0

/-- What comes of a step after its run has ended: besides the announcements of the host, its last words, and no
more instructions counted than go with them. -/
structure Unwinds (tells : Prop) (last : List Happening) (counted : Nat) (w v : World D) : Prop where
  phase : v.engine.phase = w.engine.phase
  live : v.engine.live = w.engine.live
  rate : v.engine.rate = w.engine.rate
  attempts : v.attempts = w.attempts
  tickets : v.tickets = w.tickets
  totalSteps : w.engine.totalSteps ≤ v.engine.totalSteps ∧
    v.engine.totalSteps ≤ w.engine.totalSteps + counted
  log : ∃ told, v.log = w.log ++ told ++ last ∧ (∀ what ∈ told, ¬ what.IsOwn) ∧ (told ≠ [] → tells)

lemma Lingers.unwinds {tells : Prop} {w v : World D} (h : Lingers tells w v) :
    Unwinds tells [] 0 w v where
  phase := h.phase
  live := h.live
  rate := h.rate
  attempts := h.tell_eq fun _ => rfl
  tickets := h.tell_eq fun _ => rfl
  totalSteps := by simp [h.totalSteps]
  log := by simpa only [List.append_nil] using h.log

namespace Unwinds

variable {tells : Prop} {last last' : List Happening} {counted counted' : Nat} {w v u : World D}

lemma trans (h : Unwinds tells last counted w v) (h' : Unwinds False last' counted' v u) :
    Unwinds tells (last ++ last') (counted + counted') w u where
  phase := h'.phase.trans h.phase
  live := h'.live.trans h.live
  rate := h'.rate.trans h.rate
  attempts := h'.attempts.trans h.attempts
  tickets := h'.tickets.trans h.tickets
  totalSteps := by
    have hv := h.totalSteps
    have hu := h'.totalSteps
    omega
  log := by
    obtain ⟨told, hlog, hown, htells⟩ := h.log
    obtain ⟨told', hlog', -, hnone⟩ := h'.log
    have htold : told' = [] := by simpa using hnone
    exact ⟨told, by rw [hlog', htold, hlog]; simp, hown, htells⟩

lemma inStep (w : World D) (stepping : Bool) : Unwinds False [] 0 w (w.altered (·.inStep stepping)) :=
  ⟨rfl, rfl, rfl, rfl, rfl, by simp, [], by simp⟩

lemma completed (w : World D) (sid : Nat) (i : D.Instr) : Unwinds False [] 0 w (w.completed sid i) :=
  ⟨rfl, rfl, rfl, by simp [Deed.attempt?], by simp [Deed.ticket?], by simp, [],
    by simp [Deed.happening?]⟩

lemma followed (h : Host D) (w : World D) (sid : Nat) (i : D.Instr) :
    Unwinds False [] 0 w (w.followed h sid i).2 := by
  have hmoved (cursor : Option D.Instr) : Unwinds False [] 0 w (w.altered (·.movedTo sid cursor)) :=
    ⟨rfl, rfl, rfl, rfl, rfl, by simp, [], by simp⟩
  unfold World.followed
  split
  · exact ⟨rfl, rfl, rfl, rfl, rfl, by simp, [], by simp⟩
  · exact hmoved _
  · split_ifs <;> exact hmoved _

lemma announced (w : World D) (h : Host D) (sid : Nat) (cursor : Option D.Instr) (hasNext : Bool) :
    Unwinds False [.stepped sid ((cursor.map h.label).getD "None") ((w.engine.cursor sid).map h.label)
      hasNext (w.engine.steps sid)] 1 w (w.announced h sid cursor hasNext) :=
  ⟨rfl, rfl, rfl, by simp [Deed.attempt?], by simp [Deed.ticket?], by simp, [],
    by simp [Deed.happening?, event]⟩

lemma reckoned (w : World D) (h : Host D) (sid before : Nat) (cursor : Option D.Instr) :
    Unwinds False [] 1 w (w.reckoned h sid before cursor) := by
  refine ⟨rfl, rfl, rfl, by simp, by simp, ?_, [], by simp⟩
  simp only [reckoned_engine, Engine.recounted_totalSteps, Engine.disarmed_totalSteps]
  split_ifs <;> omega

lemma emitted (w : World D) (what : Happening) : Unwinds False [what] 0 w (w.emitted what) :=
  ⟨rfl, rfl, rfl, by simp [Deed.attempt?], by simp [Deed.ticket?], by simp, [], by simp [Deed.happening?, event]⟩

end Unwinds

section

variable {h : Host D} {rounds depth : Nat} {tells : Prop} {w v b x : World D} {sid : Nat} {i : D.Instr}
  {scope : Nat} {manual : Bool} {rest : Script D Unit}

/-- How a strand executes its instruction within a step. -/
lemma advance_executing (h : Host D) (run : Script D Unit → Act (World D) Unit)
    (hstrand : ∃ n, w.engine.strand? sid = some ⟨some i, scope, n⟩) :
    (advance h run sid sid manual).outcome ((w.altered (·.passing none)).altered (·.inStep true)) =
      match (run (h.code i scope)).outcome (w.executing sid i manual) with
      | (.error f, v) => (.error f, v)
      | (.ok (), v) => (v.completed sid i).followed h sid i := by
  obtain ⟨n, hstrand⟩ := hstrand
  have hfound : ((w.altered (·.passing none)).altered (·.inStep true)).engine.strand? sid =
      some ⟨some i, scope, n⟩ := hstrand
  rw [advance_outcome, hfound]
  rfl

/-- An instruction that goes on after the end only comes out one way or the other. -/
lemma advance_unwinds (hstrand : ∃ n, w.engine.strand? sid = some ⟨some i, scope, n⟩)
    (hs : Reaches (serve h rounds depth) (h.code i scope) (w.executing sid i manual) rest x)
    (hb : b.Ended) (hlive : b.engine.live = []) (hx : Lingers tells b x)
    (ht : (h.code i scope).Asks (fun _ => True) fun r => r.Tells → tells) :
    (advance h (fun s => runScript (serve h rounds depth) s) sid sid manual).Ensures
      ((w.altered (·.passing none)).altered (·.inStep true)) fun _ v => Unwinds tells [] 0 b v := by
  have hrest := runScript_lingers h rounds depth (hs.asks ht) (hx.ended hb) (hx.live.trans hlive)
  rw [Act.Ensures, ← hs.outcome] at hrest
  unfold Act.Ensures
  rw [advance_executing h _ hstrand]
  rcases hcode : (runScript (serve h rounds depth) (h.code i scope)).outcome (w.executing sid i manual)
    with ⟨f | _, v⟩ <;> rw [hcode] at hrest
  · exact (hx.trans hrest).unwinds
  · exact ((hx.trans hrest).unwinds.trans (.completed v sid i)).trans (.followed h _ sid i)

/-- So does the step that executes it. -/
lemma proceed_unwinds (fire : Ticket → Act (World D) Unit) (mark : Nat) (cursor : Option D.Instr)
    (hstrand : ∃ n, w.engine.strand? sid = some ⟨some i, scope, n⟩)
    (hs : Reaches (serve h rounds depth) (h.code i scope) (w.executing sid i manual) rest x)
    (hb : b.Ended) (hlive : b.engine.live = []) (hx : Lingers tells b x)
    (ht : (h.code i scope).Asks (fun _ => True) fun r => r.Tells → tells) :
    (proceed h (fun s => runScript (serve h rounds depth) s) fire mark sid cursor manual).Ensures w
      fun o v => ∃ last counted, LastWords sid o last counted ∧ Unwinds tells last counted b v := by
  have hadvance := advance_unwinds hstrand hs hb hlive hx ht
  unfold Act.Ensures at hadvance ⊢
  rw [proceed_outcome]
  rcases hout : (advance h (fun s => runScript (serve h rounds depth) s) sid sid manual).outcome
    ((w.altered (·.passing none)).altered (·.inStep true)) with ⟨f | hasNext, v⟩ <;>
    rw [hout] at hadvance
  · have hv : v.engine.phase = .terminated := hadvance.phase.trans hb.phase
    rcases hf : f.isOrdinary with _ | _
    · simp only [hf, Bool.false_eq_true, if_false]
      exact ⟨[], 0, .none hf, hadvance.trans (.inStep v false)⟩
    · have hreckoned := hadvance.trans (.reckoned v h sid (w.engine.steps sid) cursor)
      simp only [hf, if_true, recover_outcome h v sid _ cursor f (.inl hv), recovered, hv]
      rcases hmessage : f.message with g | text
      · exact ⟨_, _, .wordless hf hmessage, hreckoned.trans (.inStep _ false)⟩
      · exact ⟨_, _, .failed hf hmessage, (hreckoned.trans (.emitted _ _)).trans (.inStep _ false)⟩
  · have hv : (v.altered (·.inStep false)).engine.phase = .terminated := hadvance.phase.trans hb.phase
    simp only [conclude_announced, hv, ne_eq, not_true_eq_false, if_false]
    exact ⟨_, _, .stepped _ _ _ _ _, (hadvance.trans (.inStep v false)).trans (.announced _ h sid cursor _)⟩

/-- A step comes to execute an instruction of the strand at the turn, in a given world. -/
structure Executes (h : Host D) (rounds depth : Nat) (w : World D) (manual : Bool) (sid : Nat)
    (i : D.Instr) (scope : Nat) (v : World D) : Prop where
  live : w.engine.live ≠ []
  turn : w.engine.turned.atTurn = sid
  passes : (consult h (fun s => runScript (serve h rounds depth) s) sid (w.engine.cursor sid)
    manual).outcome w.turned = (.ok false, v)
  strand : (v.engine.strand? sid).map (fun s => (s.cursor, s.scope)) = some (some i, scope)

lemma Executes.found (he : Executes h rounds depth w manual sid i scope v) :
    ∃ n, v.engine.strand? sid = some ⟨some i, scope, n⟩ := by
  obtain ⟨⟨cursor, place, n⟩, hs, hparts⟩ := Option.map_eq_some_iff.mp he.strand
  cases hparts
  exact ⟨n, hs⟩

lemma Executes.outcome (he : Executes h rounds depth w manual sid i scope v)
    (fire : Ticket → Act (World D) Unit) :
    (executeStep h (fun s => runScript (serve h rounds depth) s) fire manual).outcome w =
      (proceed h (fun s => runScript (serve h rounds depth) s) fire w.engine.nextSeq sid
        (w.engine.cursor sid) manual).outcome v := by
  rw [executeStep_outcome h _ fire w manual he.live he.turn rfl, he.passes]

/-- Up to its instruction a step tells of no end that did not come. -/
lemma Executes.mortal (he : Executes h rounds depth w manual sid i scope v) (hw : w.Mortal) :
    v.Mortal := by
  have hbreaks (i : D.Instr) : Keeps (fun _ => True) Roster.Mortal
      (runScript (serve h rounds depth) (h.breaks i)) :=
    runScript_keeps (p := fun _ => True)
      (fun r _ u hu => (serve_mortal h rounds depth r hu.roster).mono fun _ _ hv => ⟨hv, trivial⟩)
      (Script.asks_anything _)
  have hconsult : Keeps (fun _ => True) Roster.Mortal
      (consult h (fun s => runScript (serve h rounds depth) s) sid (w.engine.cursor sid) manual) :=
    @consult_keeps D _ _ h (fun s => runScript (serve h rounds depth) s) hbreaks sid _ manual
  have hv := hconsult w.turned ⟨hw.turned, trivial⟩
  rw [Act.Ensures, he.passes] at hv
  exact hv.roster

lemma Reaches.trans {serve : Request D → Act (World D) Reply} {s s' s'' : Script D α}
    {w w' w'' : World D} (h : Reaches serve s w s' w') (h' : Reaches serve s' w' s'' w'') :
    Reaches serve s w s'' w'' := by
  induction h with
  | here => exact h'
  | look _ ih => exact .look (ih h')
  | store _ ih => exact .store (ih h')
  | ask hr _ ih => exact .ask hr (ih h')

/-- A step whose instruction ends the run has nothing left to do but to tell how the instruction came
out. -/
lemma Executes.unwinds (he : Executes h rounds (depth + 1) w manual sid i scope v) (hw : w.Mortal)
    {farewell : Option D.Farewell} {next : Except Fault Reply → Script D Unit} {u : World D}
    (hs : Reaches (serve h rounds (depth + 1)) (h.code i scope) (v.executing sid i manual)
      (.ask (.terminate farewell) next) u)
    (hstarted : u.engine.started = true) (hphase : u.engine.phase ≠ .terminated)
    (hcode : (h.code i scope).Asks (fun _ => True) fun r => r.Tells → tells)
    (hbye : (h.goodbye farewell).Asks (fun _ => True) fun r => r.Tells → tells)
    (fire : Ticket → Act (World D) Unit) :
    (executeStep h (fun s => runScript (serve h rounds (depth + 1)) s) fire manual).Ensures w
      fun o y => ∃ last counted, LastWords sid o last counted ∧
        Unwinds tells last counted (u.ended h.scheduler) y := by
  have hu : u.Mortal := hs.mortal ((he.mortal hw).executing sid i manual)
  have honce : EndsOnce h rounds depth farewell u := hu.endsOnce farewell
  have hlingers := honce.lingers hstarted hphase tells hbye
  rcases hout : (serve h rounds (depth + 1) (.terminate farewell)).outcome u with ⟨o, x⟩
  rw [hout] at hlingers
  unfold Act.Ensures
  rw [he.outcome fire]
  exact proceed_unwinds fire _ _ he.found (hs.trans (.ask hout (.here _ x))) (hu.ended hstarted hphase)
    rfl hlingers hcode

end

/-- The end of a run is final and announced once. -/
theorem termination_is_final (h : Host D) (rounds depth : Nat) :
    (∀ (fit : D.Clock → Prop) (P : D.Memory → Prop) (w : World D), Fresh fit P w → ∀ moves,
      (w.replay h rounds depth moves).Mortal ∧ Log.endings (w.replay h rounds depth moves).log =
        if (w.replay h rounds depth moves).engine.phase = .terminated then 1 else 0) ∧
    (∀ (α : Type) (s rest : Script D α) (w v : World D), w.Mortal →
      Reaches (serve h rounds depth) s w rest v → v.Mortal) ∧
    (∀ w : World D, w.Mortal → ∀ farewell, EndsOnce h rounds depth farewell w) ∧
    (∀ w : World D, w.Ended → ∀ moves, (∀ position, .operate (.forget position) ∉ moves) →
      Lingers (∃ type strand data, .operate (.emit type strand data) ∈ moves) w
        (w.replay h rounds depth moves)) ∧
    ∀ (w v u : World D) (manual : Bool) (sid : Nat) (i : D.Instr) (scope : Nat)
      (farewell : Option D.Farewell) (next : Except Fault Reply → Script D Unit) (tells : Prop)
      (fire : Ticket → Act (World D) Unit), w.Mortal →
      Executes h rounds (depth + 1) w manual sid i scope v →
      Reaches (serve h rounds (depth + 1)) (h.code i scope) (v.executing sid i manual)
        (.ask (.terminate farewell) next) u →
      u.engine.started = true → u.engine.phase ≠ .terminated →
      (h.code i scope).Asks (fun _ => True) (fun r => r.Tells → tells) →
      (h.goodbye farewell).Asks (fun _ => True) (fun r => r.Tells → tells) →
      (executeStep h (fun s => runScript (serve h rounds (depth + 1)) s) fire manual).Ensures w
        fun o y => ∃ last counted, LastWords sid o last counted ∧
          Unwinds tells last counted (u.ended h.scheduler) y := by
  refine ⟨fun _ _ w hw moves => ?_, fun _ _ _ _ _ hw hs => hs.mortal hw,
    fun _ hw farewell => hw.endsOnce farewell,
    fun w hw moves hm => replay_lingers hw hm fun r hr htells => ?_, ?_⟩
  · have hmortal : (w.replay h rounds depth moves).Mortal := replay_mortal moves hw.mortal
    exact ⟨hmortal, hmortal.endings⟩
  · cases r with
    | emit type strand data => exact ⟨type, strand, data, hr⟩
    | _ => exact htells.elim
  · exact fun w v u _ _ _ _ _ _ tells fire hw he hs hstarted hphase hcode hbye =>
      he.unwinds hw hs hstarted hphase hcode hbye fire

end World

namespace Block

/-- One block that ends its own run, with a callback that asks for the end once more. -/
def leaving : Program where
  nodes := #[{ id := "leave", name := .str "leave", actions := [.call (.terminate (some .again))] }]
  links := #[none]
  entry := .program (some 0) []

def leavingRun : Run where
  program := leaving
  scope := []
  world := {
    engine := { breaking := false, rate := .zero, timeSlice := 1, historySize := 1024 }
    clock := { kind := .manual }
    memory := { links := leaving.links, firstLinks := leaving.links } }

lemma leavingRun_prepared : Run.prepare leaving {} .manual none none .zero = .ok leavingRun := rfl

lemma leavingRun_fresh : World.Fresh (fun _ => True) Memory.Calm leavingRun.world :=
  Run.prepare_fresh leavingRun_prepared nofun trivial

end Block

namespace World

/-- A run whose only block ends it, stepped by hand: the end is told once, the step has its last words, and
nothing is done afterwards. -/
theorem leaving_ends_once :
    let r := Block.leavingRun
    let w := r.world.replay r.host 1 5 [.operate (.start none), .operate .pause]
    let v := r.world.replay r.host 1 5 [.operate (.start none), .operate .pause, .operate .step]
    (executeStep r.host (fun s => runScript (serve r.host 1 5) s)
      (fun t => discard (serve r.host 1 5 (.fire t))) true).Ensures w (fun o y => ∃ last counted,
        LastWords 0 o last counted ∧
          Unwinds True last counted ((w.turned.executing 0 0 true).ended r.host.scheduler) y) ∧
      v.engine.phase = .terminated ∧ Log.endings v.log = 1 ∧
      (v.replay r.host 1 5 [.operate .resume, .fire ⟨0, 1⟩, .operate (.terminate none)]).deeds =
        v.deeds := by
  intro r w v
  have hfresh : Fresh (fun _ => True) Block.Memory.Calm r.world := Block.leavingRun_fresh
  obtain ⟨hmortal, -, -, hlingers, -⟩ := termination_is_final r.host 1 5
  obtain ⟨hv, hendings⟩ := hmortal _ _ r.world hfresh
    [.operate (.start none), .operate .pause, .operate .step]
  have hphase : v.engine.phase = .terminated := by decide +kernel
  refine ⟨?_, hphase, by rw [hendings, if_pos hphase], ?_⟩
  · obtain ⟨-, -, -, -, hunwinds⟩ := termination_is_final r.host 1 4
    have hw : w.Mortal := (hmortal _ _ r.world hfresh _).1
    have hexecutes : Executes r.host 1 5 w true 0 0 0 w.turned :=
      ⟨by decide +kernel, by decide +kernel, rfl, by decide +kernel⟩
    have htells {α : Type} (s : Script Block.dialect α) :
        s.Asks (fun _ => True) fun r => r.Tells → True :=
      s.asks_anything.weaken (fun _ _ _ => trivial) fun _ => id
    exact hunwinds w w.turned (w.turned.executing 0 0 true) true 0 0 0 (some .again) _ True _ hw hexecutes
      (.here _ _) (by decide +kernel) (by decide +kernel) (htells _) (htells _)
  · exact (hlingers v ⟨hv, hphase⟩ _ (by simp)).deeds_eq (by simp)

end World
end Loom
