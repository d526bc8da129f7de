import Loom.Proofs.Breakpoint

/-! What the operations of an instruction leave alone. They may pause, resume and end the run, change its
settings and bring further strands into play; but no strand is moved or taken out, the turn is not taken on,
and nothing is executed, counted or told to have failed. -/
namespace Loom

/-- What an event tells of an instruction that failed. -/
def Happening.failure? : Happening → Option (Nat × String × String)
  | failed sid message kind => some (sid, message, kind)
  | _ => none

def Deed.failure? : Deed D → Option (Nat × String × String)
  | emitted e => e.what.failure?
  | _ => none

/-- More strands come into play behind those that are there; those and the turn stay. -/
structure Engine.Widened (e e' : Engine D) : Prop where
  timeSlice : e'.timeSlice = e.timeSlice
  sliceUsed : e'.sliceUsed = e.sliceUsed
  skip : e'.skip = e.skip
  index : e'.index = e.index
  strands : e.strands.toList <+: e'.strands.toList
  live : ∃ more, e'.live = e.live ++ more ∧ ∀ sid ∈ more, e.strands.size ≤ sid

namespace Engine.Widened

variable {D : Dialect} {e e' e'' : Engine D}

lemma of_eq (h : (e'.timeSlice, e'.sliceUsed, e'.skip, e'.index, e'.live, e'.strands) =
    (e.timeSlice, e.sliceUsed, e.skip, e.index, e.live, e.strands)) : e.Widened e' := by
  simp only [Prod.mk.injEq] at h
  obtain ⟨htime, hused, hskip, hindex, hlive, hstrands⟩ := h
  exact ⟨htime, hused, hskip, hindex, hstrands ▸ List.prefix_refl _, [], by rw [hlive, List.append_nil], nofun⟩

lemma size (h : e.Widened e') : e.strands.size ≤ e'.strands.size := h.strands.length_le

lemma trans (h : e.Widened e') (h' : e'.Widened e'') : e.Widened e'' := by
  refine ⟨h'.timeSlice.trans h.timeSlice, h'.sliceUsed.trans h.sliceUsed, h'.skip.trans h.skip,
    h'.index.trans h.index, h.strands.trans h'.strands, ?_⟩
  obtain ⟨more, hlive, hmore⟩ := h.live
  obtain ⟨more', hlive', hmore'⟩ := h'.live
  refine ⟨more ++ more', by rw [hlive', hlive, List.append_assoc], List.forall_mem_append.2 ⟨hmore, ?_⟩⟩
  exact fun sid hsid => h.size.trans (hmore' sid hsid)

lemma strand? (h : e.Widened e') {sid : Nat} (hsid : sid < e.strands.size) : e'.strand? sid = e.strand? sid := by
  obtain ⟨more, hmore⟩ := h.strands
  unfold Engine.strand?
  rw [← Array.getElem?_toList, ← Array.getElem?_toList, ← hmore, List.getElem?_append_left (by simpa using hsid)]

lemma cursor (h : e.Widened e') {sid : Nat} (hsid : sid < e.strands.size) : e'.cursor sid = e.cursor sid := by
  unfold Engine.cursor
  rw [h.strand? hsid]

lemma steps (h : e.Widened e') {sid : Nat} (hsid : sid < e.strands.size) : e'.steps sid = e.steps sid := by
  unfold Engine.steps
  rw [h.strand? hsid]

/-- When a strand is taken out, those that have joined stay behind the others, and none of them is it. -/
lemma erase (h : e.Widened e') {sid : Nat} (hsid : sid ∈ e.live) (hnodup : e.live.Nodup)
    (hsize : sid < e.strands.size) :
    sid ∈ e'.live ∧ ∃ more, e'.live.erase sid = e.live.erase sid ++ more ∧
      (∀ n ∈ more, e.strands.size ≤ n) ∧ sid ∉ e.live.erase sid ++ more := by
  obtain ⟨more, hmore, hnew⟩ := h.live
  rw [hmore]
  refine ⟨List.mem_append_left more hsid, more, List.erase_append_left _ hsid, hnew, ?_⟩
  rw [List.mem_append, not_or]
  exact ⟨hnodup.not_mem_erase, fun hmem => absurd (hnew sid hmem) (Nat.not_le.2 hsize)⟩

lemma keepsTurn (h : e.Widened e') : e.KeepsTurn e' where
  timeSlice := h.timeSlice
  sliceUsed := h.sliceUsed
  skip := h.skip
  index := h.index
  live := by
    obtain ⟨more, hlive, -⟩ := h.live
    exact ⟨more, hlive.symm⟩
  cursor sid i hcursor := (h.cursor (Engine.lt_size_of_cursor hcursor)).trans hcursor

end Engine.Widened

namespace World

variable {D : Dialect}

open Act (Abides Kept)

/-- The failures that were told, in order. -/
@[simp] def failures (w : World D) : List (Nat × String × String) := Deed.tell Deed.failure? w.deeds

/-- Started, and at work or paused unless it has ended. -/
structure Lively (w : World D) : Prop where
  started : w.engine.started = true
  awake : w.engine.phase ≠ .terminated → w.engine.phase.IsAwake

/-- What the operations of an instruction leave alone. -/
structure Spared (w v : World D) : Prop where
  lively : v.Lively
  final : w.engine.phase = .terminated → v.engine.phase = .terminated
  attempts : v.attempts = w.attempts
  completions : v.completions = w.completions
  failures : v.failures = w.failures
  totalSteps : v.engine.totalSteps = w.engine.totalSteps
  size : w.engine.strands.size ≤ v.engine.strands.size
  steps : ∀ sid < w.engine.strands.size, v.engine.steps sid = w.engine.steps sid
  widened : v.engine.phase ≠ .terminated → w.engine.Widened v.engine

namespace Spared

variable {h : Host D} {w v u : World D}

lemma refl (hw : w.Lively) : w.Spared w :=
  ⟨hw, id, rfl, rfl, rfl, rfl, Nat.le_refl _, fun _ _ => rfl, fun _ => .of_eq rfl⟩

lemma trans (h : w.Spared v) (h' : v.Spared u) : w.Spared u where
  lively := h'.lively
  final hp := h'.final (h.final hp)
  attempts := h'.attempts.trans h.attempts
  completions := h'.completions.trans h.completions
  failures := h'.failures.trans h.failures
  totalSteps := h'.totalSteps.trans h.totalSteps
  size := h.size.trans h'.size
  steps sid hsid := (h'.steps sid (hsid.trans_le h.size)).trans (h.steps sid hsid)
  widened hp := (h.widened fun hend => hp (h'.final hend)).trans (h'.widened hp)

/-- Nothing is done that counts, and the phase stays or the engine is awake. -/
lemma of_widened (hw : w.Lively) (hstarted : v.engine.started = w.engine.started)
    (hdone : (v.attempts, v.completions, v.failures) = (w.attempts, w.completions, w.failures))
    (htotal : v.engine.totalSteps = w.engine.totalSteps) (hwide : w.engine.Widened v.engine)
    (hphase : v.engine.phase = w.engine.phase ∨ w.engine.phase ≠ .terminated ∧ v.engine.phase.IsAwake) :
    w.Spared v := by
  simp only [Prod.mk.injEq] at hdone
  refine ⟨⟨hstarted.trans hw.started, fun hp => ?_⟩, fun hp => ?_, hdone.1, hdone.2.1, hdone.2.2, htotal,
    hwide.size,
    fun sid hsid => hwide.steps hsid, fun _ => hwide⟩
  · rcases hphase with hsame | ⟨-, hawake⟩
    · exact hsame ▸ hw.awake (hsame ▸ hp)
    · exact hawake
  · rcases hphase with hsame | ⟨hlasts, -⟩
    · exact hsame.trans hp
    · exact absurd hp hlasts

lemma noted (hw : w.Lively) (level : LogLevel) (source : LogSource) (text : String) :
    w.Spared (w.noted level source text) := of_widened hw rfl rfl rfl (.of_eq rfl) (.inl rfl)

lemma told (hw : w.Lively) {what : Happening} (hwhat : what.failure? = none) : w.Spared (w.emitted what) := by
  refine of_widened hw rfl ?_ rfl (.of_eq rfl) (.inl rfl)
  simp [Deed.attempt?, Deed.completion?, Deed.failure?, event, hwhat]

lemma withMemory (hw : w.Lively) (m : D.Memory) : w.Spared (w.withMemory m) :=
  of_widened hw rfl rfl rfl (.of_eq rfl) (.inl rfl)

lemma disarmed (hw : w.Lively) (s : Scheduler D.Clock) : w.Spared (w.disarmed s) :=
  of_widened hw rfl rfl rfl (.of_eq rfl) (.inl rfl)

lemma deferred (hw : w.Lively) (s : Scheduler D.Clock) (delay : Binary64) : w.Spared (w.deferred s delay).2 := by
  unfold World.deferred
  split
  · exact of_widened hw rfl (by simp [Deed.attempt?, Deed.completion?, Deed.failure?]) rfl (.of_eq rfl) (.inl rfl)
  · exact of_widened hw rfl (by simp [Deed.attempt?, Deed.completion?, Deed.failure?]) rfl (.of_eq rfl) (.inl rfl)

lemma entered (hw : w.Lively) {new : Phase} (reason : String) (hlasts : w.engine.phase ≠ .terminated)
    (hnew : new.IsAwake) : w.Spared (w.entered new reason) := by
  refine of_widened hw rfl ?_ rfl (.of_eq rfl) (.inr ⟨hlasts, hnew⟩)
  simp [Deed.attempt?, Deed.completion?, Deed.failure?, Happening.failure?, phaseEvent, event]

lemma spawned (hw : w.Lively) (h : Host D) (i : D.Instr) (scope : ScopeChoice D) :
    w.Spared (w.spawned h i scope) := by
  refine of_widened hw rfl ?_ rfl ⟨rfl, rfl, rfl, rfl, ?_, [w.engine.strands.size], rfl, by simp⟩ (.inl rfl)
  · simp [Deed.attempt?, Deed.completion?, Deed.failure?, Happening.failure?, event]
  · simp

/-- The run ends. -/
lemma ended (hw : w.Lively) (s : Scheduler D.Clock) : w.Spared (w.ended s) where
  lively := ⟨hw.started, fun hp => absurd rfl hp⟩
  final _ := rfl
  attempts := by simp [Deed.attempt?]
  completions := by simp [Deed.completion?]
  failures := by simp [Deed.failure?, Happening.failure?, phaseEvent, event]
  totalSteps := rfl
  size := Nat.le_refl _
  steps _ _ := rfl
  widened hp := absurd rfl hp

/-- After the end nothing more comes of it. -/
lemma lingers {tells : Prop} (hw : w.Lively) (hend : w.engine.phase = .terminated) (hv : Lingers tells w v) :
    w.Spared v := by
  have hphase : v.engine.phase = .terminated := hv.phase.trans hend
  have hsize : v.engine.strands.size = w.engine.strands.size := by
    simpa using congrArg Array.size hv.counts
  refine ⟨⟨hv.started.trans hw.started, fun hp => absurd hphase hp⟩, fun _ => hphase, hv.tell_eq fun _ => rfl,
    hv.tell_eq fun _ => rfl, ?_, hv.totalSteps, hsize.ge, fun sid _ => ?_, fun hp => absurd hphase hp⟩
  · obtain ⟨told, hdeeds, hown, -⟩ := hv.deeds
    have hnone : (told.map Deed.emitted).filterMap (Deed.failure? (D := D)) = [] := by
      refine List.filterMap_eq_nil_iff.2 fun d hd => ?_
      obtain ⟨e, he, rfl⟩ := List.mem_map.1 hd
      have hnot := hown e he
      change e.what.failure? = none
      revert hnot
      cases e.what <;> simp [Happening.failure?, Happening.IsOwn]
    simp only [World.failures, Deed.tell, hdeeds, List.filterMap_append, hnone, List.append_nil]
  · have hcount := congrArg (·[sid]?) hv.counts
    simp only [Array.getElem?_map] at hcount
    simp only [Engine.steps, Engine.strand?, hcount]

end Spared

section Operations

variable {h : Host D} {fit : D.Clock → Prop} {P : D.Memory → Prop} {x : Option (Nat × D.Instr)}
  {marks : List (Mark D)} {w : World D}

lemma pause_spared (hl : w.Lively) : (pause h).Ensures w fun _ v => w.Spared v := by
  have hdisarmed := Spared.disarmed hl h.scheduler
  refine pause_ensures (fun _ _ => .refl hl) (fun _ hrun => ?_) fun _ _ => hdisarmed
  exact hdisarmed.trans (.entered hdisarmed.lively "pause" (by simp [hrun]) (.inr rfl))

lemma resume_spared (hl : w.Lively) {fire : Ticket → Act (World D) Unit}
    (hlater : w.Postpones h fire) : (resume h fire).Ensures w fun _ v => w.Spared v := by
  refine resume_ensures (A := fun _ v => w.Spared v) hlater (fun _ _ => .refl hl) (fun _ => .noted hl _ _ _)
    (.deferred hl h.scheduler .zero) (fun _ _ => id) (fun v hv hp => ?_) fun _ => id
  exact hv.trans (.entered hv.lively "resume" (by simp [hp]) (.inl rfl))

lemma setRate_spared (hl : w.Lively) (given : Option Value) :
    (setRate given).Ensures w fun _ v => w.Spared v :=
  setRate_ensures (fun _ _ => .refl hl) fun _ => .of_widened hl rfl rfl rfl (.of_eq rfl) (.inl rfl)

lemma spawn_spared (hl : w.Lively) {fire : Ticket → Act (World D) Unit} (hlater : w.Postpones h fire)
    (entry : Option D.Instr) (scope : ScopeChoice D) :
    (spawn h fire entry scope).Ensures w fun _ v => w.Spared v := by
  refine spawn_ensures hlater (fun _ _ => .refl hl) fun i _ _ _ _ => ?_
  have hspawned := Spared.spawned hl h i scope
  exact ⟨fun _ => hspawned.trans (.deferred hspawned.lively h.scheduler .zero), hspawned⟩

/-- What is said in farewell is said after the end. -/
lemma terminate_spared (h : Host D) (rounds depth : Nat) (hw : w.Mortal) (hl : w.Lively)
    (farewell : Option D.Farewell) :
    (serve h rounds (depth + 1) (.terminate farewell)).Ensures w fun _ v => w.Spared v := by
  rcases terminate_cases h w hw.started_iff.1 with ⟨f, -, hout⟩ | ⟨hstarted, hmay, hout⟩
  · have hdeclined : (terminate h).Ensures w fun o v => o = .error f ∧ w.Spared v :=
      Act.ensures_of_outcome hout ⟨rfl, .refl hl⟩
    exact hdeclined.bind (fun _ _ hv => nomatch hv.1) fun _ _ hv => hv.2
  · have hlasts : w.engine.phase ≠ .terminated := (ne_of_mayFollow hmay).symm
    have hended := Spared.ended hl h.scheduler
    have hover : (w.ended h.scheduler).Ended := hw.ended hstarted hlasts
    refine Act.Ensures.bind (Act.ensures_of_outcome (Q := fun _ v => v = w.ended h.scheduler) hout rfl) ?_ ?_
    · rintro _ _ rfl
      cases farewell with
      | none => exact hended
      | some f =>
        have hsaid : (runScript (serve h rounds depth) (h.farewell f)).Ensures (w.ended h.scheduler)
            fun _ v => Lingers True (w.ended h.scheduler) v := runScript_lingers h rounds depth
          ((h.farewell f).asks_anything.weaken (fun _ _ _ => trivial) fun _ => id) hover rfl
        exact Act.Ensures.reply (hsaid.mono fun _ _ hv => hended.trans (.lingers hended.lively rfl hv))
    · rintro _ _ rfl
      exact hended

variable (hs : h.scheduler.Defers fit)

include hs

/-- Whatever an instruction asks for spares the others and the turn. -/
theorem serve_spared (rounds depth : Nat) {r : Request D} (hr : r.IsInner) (hw : w.Guarded fit P x marks)
    (hl : w.Lively) : (serve h rounds depth r).Ensures w fun _ v => w.Spared v := by
  by_cases hend : w.engine.phase = .terminated
  · have hlingers := serve_lingers h rounds depth (r := r) ⟨hw.mortal, hend⟩ (.inr ?_)
    · exact hlingers.mono fun _ _ hv => .lingers hl hend hv
    · rintro position rfl
      exact hr.elim
  · cases depth with
    | zero => exact .refl hl
    | succ depth =>
      have hlater := hw.postpones hs hend fun t => discard (serve h rounds depth (.fire t))
      cases r with
      | step | fire | fireIssued | runNext | runAll | refuse | pump | timeSlice | forget | blank => exact hr.elim
      | start entry => exact Act.Ensures.reply (Act.ensures_of_outcome (start_again h _ entry hl.started) (.refl hl))
      | pause => exact Act.Ensures.reply (pause_spared hl)
      | resume => exact Act.Ensures.reply (resume_spared hl hlater)
      | rate given => exact Act.Ensures.reply (setRate_spared hl given)
      | terminate farewell => exact terminate_spared h rounds depth hw.mortal hl farewell
      | breakpoints on => exact .of_widened hl rfl rfl rfl (.of_eq rfl) (.inl rfl)
      | spawn entry scope =>
        exact (spawn_spared hl hlater entry scope).bind (fun _ _ hv => hv) fun _ _ hv => hv
      | emit type strand data => exact announce_ensures (fun _ _ => .refl hl) fun _ _ => .told hl rfl
      | info | current | events => exact .refl hl

/-- So does its code as a whole, whichever way it ends. -/
theorem code_spared (hh : h.Mannered P) (rounds depth : Nat) (hw : w.Guarded fit P none marks) (hl : w.Lively)
    (i : D.Instr) (scope : Nat) :
    (runScript (serve h rounds depth) (h.code i scope)).Ensures w fun _ v =>
      v.Guarded fit P none marks ∧ w.Spared v := by
  have hserve := ((Guarded.practice hs hh none marks).serve rounds depth).1
  have hrun : (runScript (serve h rounds depth) (h.code i scope)).Ensures w
      (Kept (fun v => v.Guarded fit P none marks ∧ w.Spared v) fun _ => True) :=
    runScript_abides (·.1.memory)
      (fun hv hm => ⟨hv.1.unstopped rfl hm rfl rfl rfl rfl, hv.2.trans (.withMemory hv.2.lively _)⟩)
      (fun r hr v hv => ?_) (hh.code i scope) w ⟨hw, .refl hl⟩
  · exact hrun.mono fun _ _ hv => hv.state
  · have hspared := serve_spared hs rounds depth hr hv.1 hv.2.lively
    exact ((hserve r hr v hv.1).and hspared).mono fun _ _ hu =>
      ⟨⟨hu.1.state, hv.2.trans hu.2⟩, fun _ _ => trivial⟩

end Operations

end World

/-- The strands in play are listed in the order of their numbers. -/
structure Roster.Lined (r : Roster) : Prop where
  started_iff : r.started = true ↔ r.phase ≠ .idle
  ascending : r.live.Pairwise (· < ·)
  listed : ∀ sid ∈ r.live, sid < r.made

namespace Roster.Lined

variable {r r' : Roster}

lemma sublist (h : r.Lined) (hsame : (r'.started, r'.phase, r'.made) = (r.started, r.phase, r.made))
    (hlive : r'.live.Sublist r.live) : r'.Lined := by
  simp only [Prod.mk.injEq] at hsame
  obtain ⟨hstarted, hphase, hmade⟩ := hsame
  exact ⟨by rw [hstarted, hphase]; exact h.started_iff, h.ascending.sublist hlive,
    fun sid hsid => hmade ▸ h.listed sid (hlive.subset hsid)⟩

lemma tell (h : r.Lined) (what : Happening) : (r.told what).Lined := h.sublist rfl (.refl _)

lemma change {empty : Prop} {late : Nat → Prop} (h : r.Lined) (hc : Change empty late r r') : r'.Lined := by
  cases hc with
  | enter new reason hidle hnew hmay =>
    have hnew' : new ≠ .idle := World.ne_idle_of_mayFollow hmay
    exact ⟨by simp [hnew', h.started_iff.2 hidle], h.ascending, h.listed⟩
  | startEmpty reason hs _ => exact ⟨by simp, by simp, by simp⟩
  | start reason label hs => exact ⟨by simp, by simp, by simp⟩
  | spawn label hs =>
    have hjoined : r.joined.Lined := by
      refine ⟨h.started_iff, List.pairwise_append.2 ⟨h.ascending, by simp, by simpa using h.listed⟩, ?_⟩
      simp only [joined_live, joined_made, List.mem_append, List.mem_singleton]
      rintro sid (hsid | rfl)
      · exact (h.listed sid hsid).trans (Nat.lt_succ_self _)
      · exact Nat.lt_succ_self _
    exact hjoined.tell _
  | @retire sid steps _ => exact h.sublist rfl List.erase_sublist
  | finish reason hs hmay => exact ⟨by simp [hs], by simp, by simp⟩
  | pass what _ => exact h.tell what
  | step => exact h.tell _

lemma closed (empty : Prop) : Closed empty (fun _ => False) Lined where
  change := change
  started_iff h := h.started_iff
  timely _ _ := id

end Roster.Lined

namespace World

variable {D : Dialect} {w : World D}

/-- Whatever is asked for, by whom and how deep, the strands in play stay in the order of their numbers. -/
theorem serve_lined (h : Host D) (rounds depth : Nat) (r : Request D) (hw : w.roster.Lined) :
    (serve h rounds depth r).Ensures w fun _ v => v.roster.Lined := by
  have hkeeps : Keeps (fun _ => True) Roster.Lined (serve h rounds depth r) := by
    refine serve_keeps_of (Roster.Lined.closed h.IsEmpty) h.asks_anything rounds depth (fun _ => trivial)
      (fun serve r _ hr => ?_) trivial
    cases r with
    | emit type strand data =>
      refine Keeps.bind (fun v hv => ?_) fun what => Keeps.bind (fun v hv => ?_) fun e => Keeps.pure _
      · exact hv
      · obtain ⟨o, hout, -⟩ := emit_plain v what
        refine Act.ensures_of_outcome (Q := fun _ u => Held (fun _ => True) Roster.Lined u) hout ⟨?_, trivial⟩
        rw [roster_emitted]
        exact hv.roster.tell what
    | forget position =>
      refine Keeps.bind (fun v hv => ⟨?_, trivial⟩) fun _ => Keeps.pure _
      unfold forget
      rw [modifyEngine_outcome]
      dsimp only [altered]
      split_ifs
      all_goals first | exact hv.roster | exact hv.roster.sublist rfl (List.eraseIdx_sublist _ _)
    | _ => exact absurd trivial hr
  exact (hkeeps w ⟨hw, trivial⟩).mono fun _ _ hv => hv.roster

lemma Fresh.lined {fit : D.Clock → Prop} {P : D.Memory → Prop} (hw : Fresh fit P w) : w.roster.Lined := by
  obtain ⟨run, settings, hmake⟩ := hw.engine
  have hengine := Engine.eq_of_make hmake
  exact ⟨by simp [hengine], by simp [hengine], by simp [hengine]⟩

lemma replay_lined (h : Host D) (rounds depth : Nat) (moves : List (Move D)) (hw : w.roster.Lined) :
    (w.replay h rounds depth moves).roster.Lined :=
  replay_keeps (I := fun v => v.roster.Lined) (G := fun _ => True) rounds depth
    (fun r _ hv => (serve_lined h rounds (depth + 1) r hv).mono fun _ _ hu => ⟨hu, fun _ _ => trivial⟩)
    (fun _ _ _ => id) hw

end World
end Loom
