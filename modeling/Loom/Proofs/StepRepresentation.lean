import Loom.Proofs.Representation

/-! A step leaves the books of an engine in order, whatever its instruction did in between and whichever way
the step ends. While the instruction is executed its strand may lose its cursor; then the strand is taken
out of play before the step is over. -/
namespace Loom

/-- What one step executes: nothing, or an instruction that fails, or one that returns. -/
inductive Stage.Single {D : Dialect} : List (Stage D) → Prop where
  | nothing : Single []
  | begun (sid : Nat) (i : D.Instr) : Single [.begun sid i]
  | whole (sid : Nat) (i : D.Instr) : Single [.begun sid i, .returned sid i]

namespace World

variable {D : Dialect} {h : Host D} {P : D.Memory → Prop} {q : Fault → Prop}
  {books : D.Clock → Option (Nat × Ticket) → Prop} {reliable : Prop} {lapsed : Option Nat}
  {past : List (Stage D)} {w v : World D}

/-- After the attempt at a strand's instruction the books are in order, unless the strand has lost its cursor,
which is told by the outcome. -/
structure Advanced (h : Host D) (q : Fault → Prop) (past : List (Stage D)) (sid : Nat)
    (o : Except Fault Bool) (v : World D) : Prop where
  parted : (v.core.without sid).Ordered h 0
  whole : v.core.Ordered h 1 ∨ v.engine.live ≠ [] ∧ v.engine.cursor sid = none ∧
    (o = .ok false ∨ ∃ f, o = .error f ∧ f.isOrdinary = true ∧ f.IsTold)
  asleep : ¬ v.engine.phase.IsAwake → v.engine.live = []
  blameless : Blameless q o
  single : ∃ now, Stage.Single now ∧ v.executions = past ++ now

lemma cursor_movedTo_none (w : World D) (sid : Nat) :
    (w.altered (·.movedTo sid none)).engine.cursor sid = none := by
  simp [Engine.cursor, Engine.strand?, Engine.movedTo, Engine.updateStrand, Array.getElem?_modify]

/-- What becomes of the strand once its instruction was completed. -/
lemma followed_advanced (hq : h.Raises P q) (hm : P w.memory) {sid : Nat} {i : D.Instr}
    (hw : w.Intact h 1 (past ++ [.begun sid i])) :
    Advanced h q past sid ((w.completed sid i).followed h sid i).1
      ((w.completed sid i).followed h sid i).2 := by
  have hordered : (w.completed sid i).core.Ordered h 1 :=
    hw.ordered.updated sid (f := fun s => { s with steps := s.steps + 1 }) fun s j hj hwf => ⟨j, hj, hwf⟩
  have hsingle : ∃ now, Stage.Single now ∧ (w.completed sid i).executions = past ++ now := by
    refine ⟨_, .whole sid i, ?_⟩
    have hpast := hw.executions
    simp at hpast
    simp [Deed.stage?, hpast]
  have hapart := Core.Apart.refl sid (w.completed sid i).core
  have hlost {o : Except Fault Bool}
      (ho : o = .ok false ∨ ∃ f, o = .error f ∧ f.isOrdinary = true ∧ f.IsTold) (hb : Blameless q o) :
      Advanced h q past sid o ((w.completed sid i).altered (·.movedTo sid none)) := by
    have hcleared := hapart.updated fun s => { s with cursor := none }
    refine ⟨hordered.parted hcleared, ?_, hw.asleep, hb, hsingle⟩
    by_cases hl : w.engine.live = []
    · exact .inl (hordered.bare hcleared hl)
    · exact .inr ⟨hl, cursor_movedTo_none _ sid, ho⟩
  unfold followed
  rcases hn : h.next (w.completed sid i).memory i with f | _ | j
  · exact ⟨hordered.parted hapart, .inl hordered, hw.asleep, .own (hq.next i f hm hn), hsingle⟩
  · exact hlost (.inl rfl) (.ok _)
  · by_cases hj : h.wellFormed j = true
    · simp only [hj, if_true]
      have hmoved := hapart.updated fun s => { s with cursor := some j }
      refine ⟨hordered.parted hmoved, .inl ?_, hw.asleep, .ok _, hsingle⟩
      exact hordered.updated sid (f := fun s => { s with cursor := some j }) fun s i _ _ => ⟨j, rfl, hj⟩
    · have hplain := refusal_isPlain h .successor j
      simp only [hj]
      exact hlost (.inr ⟨_, rfl, hplain.ordinary, hplain.told⟩) (.plain hplain.sound)

theorem advance_tidy (hs : h.scheduler.Keeps books reliable) (hh : h.Tame P) (hq : h.Raises P q)
    (rounds depth : Nat) (hc : w.control.Coherent books reliable (h.Tells P) lapsed) (hm : P w.memory)
    (hw : w.Intact h 1 past) (hstarted : w.engine.started = true) (hp : w.engine.phase.IsAwake)
    {sid : Nat} (hsid : sid ∈ w.engine.live) (manual : Bool) :
    (advance h (runScript (serve h rounds depth)) sid sid manual).Ensures w
      (Advanced h q past sid) := by
  obtain ⟨i, hcursor, -⟩ := hw.ordered.listed sid hsid
  obtain ⟨strand, hstrand, hcursor⟩ := Option.bind_eq_some_iff.1 hcursor
  have hslot : w.engine.strand? sid = some strand := hstrand
  generalize hu : w.recorded (.began sid i w.engine.phase manual) = u
  have huc : u.control.Coherent books reliable (h.Tells P) lapsed := by
    rw [← hu]
    simpa [control, Deed.ticket?] using hc
  have hum : P u.memory := by rw [← hu]; exact hm
  have hustarted : u.engine.started = true := by rw [← hu]; exact hstarted
  have hupast : u.Intact h 1 (past ++ [.begun sid i]) := by
    rw [← hu]
    refine .busy hw.ordered hp (List.ne_nil_of_mem hsid) ?_
    have hpast := hw.executions
    simp at hpast
    simp [Deed.stage?, hpast]
  have hcode := (code_sound hs hh rounds depth huc hum hustarted i strand.scope).and
    (code_tidy hs hq hh rounds depth huc hum hupast i strand.scope)
  unfold Act.Ensures at hcode ⊢
  rw [advance_outcome]
  simp only [hslot, hcursor, hu]
  rcases hrun : (runScript (serve h rounds depth) (h.code i strand.scope)).outcome u with ⟨f | _, v⟩ <;>
    rw [hrun] at hcode
  · obtain ⟨-, hv⟩ := hcode
    exact ⟨hv.intact.ordered.parted (.refl sid _), .inl hv.intact.ordered, hv.intact.asleep,
      hv.blameless.rethrow, _, .begun sid i, hv.intact.executions⟩
  · obtain ⟨hsound, hv⟩ := hcode
    exact followed_advanced hq (hsound.meddled.memory hum) hv.intact

/-- The end of a step in good order. -/
lemma wound_tidy (hq : h.Raises P q) (hcore : w.core.Ordered h 0) (hp : w.engine.phase.IsAwake)
    (hpast : w.executions = past) (manual : Bool) :
    Tidy h q 0 past (w.wound h manual).1 (w.wound h manual).2 := by
  unfold wound
  split_ifs with hempty hrun
  · refine ⟨.atEnd hcore (.inl rfl) hempty.2 ?_, .ok ()⟩
    rw [← hpast]
    simp [Deed.stage?]
  · have hlive : w.engine.live ≠ [] := fun hl => hempty ⟨hp, hl⟩
    exact deferred_tidy hq (.busy hcore hp hlive hpast) w.engine.rate
  · have hlive : w.engine.live ≠ [] := fun hl => hempty ⟨hp, hl⟩
    exact ⟨.busy hcore hp hlive hpast, .ok ()⟩

/-- The end of a step that failed. -/
lemma stumbled_intact (hcore : w.core.Ordered h 0) (hp : w.engine.phase.IsAwake)
    (hpast : w.executions = past) : (w.stumbled h).Intact h 0 past := by
  unfold stumbled
  split_ifs with hl hrun
  · refine .atEnd hcore (.inl rfl) hl ?_
    rw [← hpast]
    simp [Deed.stage?]
  · refine .busy hcore (.inr rfl) hl ?_
    rw [← hpast]
    simp [Deed.stage?]
  · exact .busy hcore hp hl hpast

/-- Where a strand is while its instruction is executed: in play, unless the run has ended for good. -/
def Placed (sid : Nat) (w : World D) : Prop :=
  w.engine.phase = .terminated ∨ w.engine.phase.IsAwake ∧ sid ∈ w.engine.live

namespace Advanced

variable {sid : Nat}

lemma of_terminated {o : Except Fault Bool} (hw : Advanced h q past sid o w)
    (ht : w.engine.phase = .terminated) : w.engine.live = [] ∧ w.core.Ordered h 1 := by
  have hl : w.engine.live = [] := hw.asleep (by simp [ht, Phase.IsAwake])
  exact ⟨hl, hw.whole.resolve_right fun hlost => hlost.1 hl⟩

/-- After an instruction that returned. -/
lemma conclude {hasNext : Bool} (hs : h.scheduler.Keeps books reliable) (hq : h.Raises P q)
    (hc : w.control.Coherent books reliable (h.Tells P) lapsed) (hw : Advanced h q past sid (.ok hasNext) w)
    (hp : Placed sid w) (fire : Ticket → Act (World D) Unit) (mark : Nat) (cursor : Option D.Instr)
    (manual : Bool) : (World.conclude h fire mark sid cursor hasNext manual).Ensures w fun o v =>
      ∃ now, Stage.Single now ∧ Tidy h q 0 (past ++ now) o v := by
  obtain ⟨now, hsingle, hpast⟩ := hw.single
  refine Act.Ensures.mono (P := Tidy h q 0 (past ++ now)) ?_ fun _ _ hv => ⟨now, hsingle, hv⟩
  have hannounced : (w.announced h sid cursor hasNext).executions = past ++ now := by
    rw [← hpast]
    simp [Deed.stage?]
  unfold Act.Ensures
  rw [conclude_outcome h fire w mark sid cursor hasNext manual (hp.imp_right And.right)
    (postpones_of_keeps hs hc fire)]
  split_ifs with ht
  · obtain ⟨hl, hordered⟩ := hw.of_terminated ht
    exact ⟨.atEnd hordered.counted (.inr ht) hl hannounced, .ok _⟩
  · obtain ⟨hawake, -⟩ := hp.resolve_left ht
    have hcore : ((w.announced h sid cursor hasNext).kept sid hasNext).core.Ordered h 0 := by
      rw [core_kept_announced]
      cases hasNext
      · exact hw.parted
      · exact (hw.whole.resolve_right (by simp)).counted
    have hkept : ((w.announced h sid cursor hasNext).kept sid hasNext).executions = past ++ now := by
      rw [← hannounced]
      cases hasNext <;> simp [kept, Deed.stage?]
    have hphase : ((w.announced h sid cursor hasNext).kept sid hasNext).engine.phase.IsAwake := by
      cases hasNext <;> exact hawake
    have hend := wound_tidy hq hcore hphase hkept manual
    rcases hv : ((w.announced h sid cursor hasNext).kept sid hasNext).wound h manual with ⟨f | _, v⟩ <;>
      rw [hv] at hend
    · exact hend.error
    · exact hend.ok _

/-- After an instruction that failed. -/
lemma recovered {f : Fault} (hw : Advanced h q past sid (.error f) w) (hp : Placed sid w) (before : Nat)
    (cursor : Option D.Instr) (text : String) :
    ∃ now, Stage.Single now ∧ (w.recovered h sid before cursor f text).Intact h 0 (past ++ now) := by
  obtain ⟨now, hsingle, hpast⟩ := hw.single
  refine ⟨now, hsingle, ?_⟩
  have hlamented : (w.lamented h sid before cursor f text).executions = past ++ now := by
    rw [← hpast]
    simp [Deed.stage?]
  unfold World.recovered
  dsimp only
  split_ifs with ht
  · obtain ⟨hl, hordered⟩ := hw.of_terminated ht
    exact .atEnd hordered.unspared (.inr ht) hl hlamented
  · obtain ⟨hawake, -⟩ := hp.resolve_left ht
    apply stumbled_intact
    · rw [core_kept_lamented]
      split_ifs with hsome
      · exact (hw.whole.resolve_right fun hlost => by simp [hlost.2.1] at hsome).unspared
      · exact hw.parted
    · cases (w.engine.cursor sid).isSome <;> exact hawake
    · rw [← hlamented]
      cases (w.engine.cursor sid).isSome <;> simp [kept, Deed.stage?]

/-- After an instruction that failed and is not cleaned up behind: its strand has kept its cursor. -/
lemma uncleaned {f : Fault} (hw : Advanced h q past sid (.error f) w) (hp : Placed sid w)
    (hf : f.isOrdinary = true → ¬ f.IsTold) (hcore : v.core = w.core)
    (hphase : v.engine.phase = w.engine.phase) (hexecutions : v.executions = w.executions) :
    ∃ now, Stage.Single now ∧ v.Intact h 0 (past ++ now) := by
  obtain ⟨now, hsingle, hpast⟩ := hw.single
  have hlive : v.engine.live = w.engine.live := congrArg Core.live hcore
  have hkept : w.core.Ordered h 1 := hw.whole.resolve_right fun ⟨_, _, hlost⟩ => by
    obtain ⟨g, hg, hordinary, htold⟩ := hlost.resolve_left (by simp)
    cases hg
    exact hf hordinary htold
  have hordered : v.core.Ordered h 0 := hcore ▸ hkept.unspared
  refine ⟨now, hsingle, ?_⟩
  rcases hp with ht | ⟨hawake, hmem⟩
  · exact .atEnd hordered (.inr (hphase.trans ht)) (hlive.trans (hw.of_terminated ht).1)
      (hexecutions.trans hpast)
  · exact .busy hordered (hphase ▸ hawake) (hlive ▸ List.ne_nil_of_mem hmem) (hexecutions.trans hpast)

end Advanced

theorem proceed_tidy (hs : h.scheduler.Keeps books reliable) (hh : h.Tame P) (hq : h.Raises P q)
    (rounds depth : Nat) (hc : w.control.Coherent books reliable (h.Tells P) lapsed) (hm : P w.memory)
    (hw : w.Intact h 1 past) (hstarted : w.engine.started = true) (hp : w.engine.phase.IsAwake)
    (fire : Ticket → Act (World D) Unit) (mark : Nat) {sid : Nat} (hsid : sid ∈ w.engine.live)
    (cursor : Option D.Instr) (manual : Bool) :
    (proceed h (runScript (serve h rounds depth)) fire mark sid cursor manual).Ensures w fun o v =>
      ∃ now, Stage.Single now ∧ Tidy h q 0 (past ++ now) o v := by
  generalize hin : (w.altered (·.passing none)).altered (·.inStep true) = u
  have hengine : u.engine = (w.engine.passing none).inStep true := by rw [← hin]; rfl
  have huc : u.control.Coherent books reliable (h.Tells P) lapsed := by rw [← hin]; exact hc
  have hum : P u.memory := by rw [← hin]; exact hm
  have hu : u.Intact h 1 past := by rw [← hin]; exact hw.carry rfl (.inl rfl) rfl rfl
  have hustarted : u.engine.started = true := by rw [hengine]; exact hstarted
  have hup : u.engine.phase.IsAwake := by rw [hengine]; exact hp
  have husid : sid ∈ u.engine.live := by rw [hengine]; exact hsid
  have hadvance := (advance_sound hs hh rounds depth huc hum hustarted sid sid manual).and
    (advance_tidy hs hh hq rounds depth huc hum hu hustarted hup husid manual)
  unfold Act.Ensures at hadvance ⊢
  rw [proceed_outcome, hin]
  rcases hrun : (advance h (runScript (serve h rounds depth)) sid sid manual).outcome u with ⟨o, v⟩
  rw [hrun] at hadvance
  obtain ⟨⟨x, hx, hsound⟩, hv⟩ := hadvance
  have hplaced : Placed sid v := by
    apply hsound.whereabouts <;> rw [hx.parts.1]
    · exact hustarted
    · rcases hup with hup | hup <;> simp [hup]
    · exact husid
  cases o with
  | ok hasNext =>
    have hout : Advanced h q past sid (.ok hasNext) (v.altered (·.inStep false)) :=
      ⟨hv.parted, hv.whole, hv.asleep, hv.blameless, hv.single⟩
    exact hout.conclude (w := v.altered (·.inStep false)) hs hq hsound.coherent hplaced fire mark cursor
      manual
  | error f =>
    dsimp only
    split_ifs with hf
    · rw [recover_outcome h v sid (w.engine.steps sid) cursor f hplaced]
      rcases hm : f.message with g | text
      · have huntold : ¬ f.IsTold := by simp [Fault.IsTold, hm]
        obtain ⟨now, hsingle, hend⟩ := hv.uncleaned
          (v := (v.reckoned h sid (w.engine.steps sid) cursor).altered (·.inStep false)) hplaced
          (fun _ => huntold) rfl rfl rfl
        exact ⟨now, hsingle, hend, cause_blameless hq hv.blameless hm⟩
      · obtain ⟨now, hsingle, hend⟩ := hv.recovered hplaced (w.engine.steps sid) cursor text
        exact ⟨now, hsingle, hend.carry rfl (.inl rfl) rfl rfl, hv.blameless.rethrow⟩
    · obtain ⟨now, hsingle, hend⟩ := hv.uncleaned (v := v.altered (·.inStep false)) hplaced
        (fun hordinary => absurd hordinary hf) rfl rfl rfl
      exact ⟨now, hsingle, hend, hv.blameless.rethrow⟩

/-- The choice of a strand leaves the books in order, with one strand set apart for the step. -/
lemma Intact.consulted (hw : w.Intact h 0 past) (hp : w.engine.phase.IsAwake) (hv : w.Consulted P v) :
    v.Intact h 1 past := by
  have hcore : v.core.Ordered h 1 := by
    obtain ⟨m, rfl, -⟩ := hv.turned
    have hturned := (hw.ordered.turned hv.busy).withMemory m
    rwa [← core_turned] at hturned
  have hpast : v.executions = past := (hv.tell_eq fun _ => rfl).trans hw.executions
  exact .busy hcore (hv.phase ▸ hp) (hv.live ▸ hv.busy) hpast

theorem executeStep_tidy (hs : h.scheduler.Keeps books reliable) (hh : h.Tame P) (hq : h.Raises P q)
    (rounds depth : Nat) (hc : w.control.Coherent books reliable (h.Tells P) lapsed) (hm : P w.memory)
    (hw : w.Intact h 0 past) (fire : Ticket → Act (World D) Unit) {manual : Bool}
    (hp : Poised lapsed manual w) :
    (executeStep h (runScript (serve h rounds depth)) fire manual).Ensures w fun o v =>
      ∃ now, Stage.Single now ∧ Tidy h q 0 (past ++ now) o v := by
  refine executeStep_ensures hh (serve h rounds depth) hm fire hp (fun hl _ => ?_)
    (fun v hv hrun _ sid i => ?_) fun v hv sid hsid cursor => ?_
  · refine ⟨[], .nothing, .atEnd hw.ordered (.inl rfl) hl ?_, .ok _⟩
    rw [List.append_nil, ← hw.executions]
    simp [Deed.stage?]
  · refine ⟨[], .nothing, ?_, .ok _⟩
    rw [List.append_nil]
    exact ((hw.consulted hp.awake hv).stopped (.inl hrun) sid i).unspared
  · exact proceed_tidy hs hh hq rounds depth (hv.control ▸ hc) hv.memory (hw.consulted hp.awake hv)
      (hv.started.trans hp.started) (hv.phase ▸ hp.awake) fire w.engine.nextSeq hsid cursor manual

section Moves

variable (hs : h.scheduler.Keeps books reliable) (hh : h.Tame P) (hq : h.Raises P q) (rounds depth : Nat)
  (hc : w.control.Coherent books reliable (h.Tells P) none) (hm : P w.memory) (hw : w.Intact h 0 past)

include hs hh hq hc hm hw

/-- A manual step. -/
lemma step_tidy : (serve h rounds depth .step).Ensures w fun o v =>
    ∃ now, Stage.Single now ∧ Tidy h q 0 (past ++ now) o v := by
  have hsame {o : Except Fault StepResult} (ho : Blameless q o) :
      ∃ now, Stage.Single now ∧ Tidy h q 0 (past ++ now) o w :=
    ⟨[], .nothing, (past.append_nil).symm ▸ hw, ho⟩
  cases depth with
  | zero => exact ⟨[], .nothing, (past.append_nil).symm ▸ hw, .plain rfl⟩
  | succ depth =>
    have hstep : (step h (runScript (serve h rounds depth)) fun t =>
        discard (serve h rounds depth (.fire t))).Ensures w fun o v =>
          ∃ now, Stage.Single now ∧ Tidy h q 0 (past ++ now) o v := by
      refine step_ensures (fun f hf => hsame (.plain (stepRefusal_plain hf).sound))
        (fun _ => hsame (.ok _)) fun hstarted hphase => ?_
      have hpaused := hphase.resolve_left (hc.started_iff.1 hstarted)
      exact executeStep_tidy hs hh hq rounds depth hc hm hw _ ⟨hstarted, hpaused, fun _ => rfl, nofun⟩
    refine hstep.bind ?_ ?_
    · rintro r v ⟨now, hsingle, hv⟩
      exact ⟨now, hsingle, hv.ok _⟩
    · rintro f v ⟨now, hsingle, hv⟩
      exact ⟨now, hsingle, hv.error⟩

/-- Every operation keeps the books in order and executes one instruction at most. -/
theorem operation_tidy {r : Request D} (hr : r.IsOperation) :
    (serve h rounds depth r).Ensures w fun o v =>
      ∃ now, Stage.Single now ∧ Tidy h q 0 (past ++ now) o v := by
  rcases hr.step_or_inner with rfl | hinner
  · exact step_tidy hs hh hq rounds depth hc hm hw
  · refine (serve_tidy hs hq rounds depth hc hm hw hinner).mono fun o v hv => ⟨[], .nothing, ?_⟩
    rw [List.append_nil]
    exact hv

/-- So does the firing of a ticket. -/
theorem fire_tidy (t : Ticket) (hk : books w.clock none) :
    (serve h rounds (depth + 1) (.fire t)).Ensures w fun o v =>
      ∃ now, Stage.Single now ∧ Tidy h q 0 (past ++ now) o v := by
  have hnothing {v : World D} (hv : v.Intact h 0 past) :
      ∃ now, Stage.Single now ∧ Tidy h q 0 (past ++ now) (.ok Reply.nothing) v :=
    ⟨[], .nothing, by rwa [List.append_nil], .ok _⟩
  refine fire_ensures (fun _ hp => ?_) (fun _ _ => hnothing (hw.carry rfl (.inl rfl) rfl rfl))
    fun _ => hnothing (hw.carry rfl (.inl rfl) rfl rfl)
  obtain ⟨now, hsingle, hv⟩ := executeStep_tidy (w := w.altered (·.unarmed)) hs hh hq rounds
    depth (hc.lapse hp hk) hm (hw.carry rfl (.inl rfl) rfl rfl)
    (fun t => discard (serve h rounds depth (.fire t))) (poised_fired hc hp)
  exact ⟨now, hsingle, hv.intact, hv.blameless.map _⟩

end Moves

end World
end Loom
