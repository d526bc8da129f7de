import Loom.Proofs.Practice

/-! What an engine does to its world comes down to a few kinds of change: something is noted, stored or
told, the engine turns to another strand or phase, a step is deferred, called off or fired. A property of
worlds that each of these keeps holds after every request, whatever the program asks for, whatever the
scheduler does and however deep requests nest. -/
namespace Loom

namespace Act

variable {σ : Type}

/-- A computation that keeps a property of the state, however it ends. -/
def Upholds (I : σ → Prop) (a : Act σ α) : Prop := ∀ s, I s → a.Ensures s fun _ t => I t

namespace Upholds

variable {I : σ → Prop} {a : Act σ α} {f : α → Act σ β}

lemma bind (ha : Upholds I a) (hf : ∀ x, Upholds I (f x)) : Upholds I (a >>= f) := fun s hs =>
  (ha s hs).bind (fun x t ht => hf x t ht) fun _ _ ht => ht

lemma get_bind {f : σ → Act σ β} (hf : ∀ s, I s → (f s).Ensures s fun _ t => I t) :
    Upholds I (get >>= f) := fun s hs => hf s hs

lemma attempt_bind {f : Except Fault α → Act σ β} (ha : Upholds I a) (hf : ∀ r, Upholds I (f r)) :
    Upholds I (a.attempt >>= f) := fun s hs => (ha s hs).attempt_bind fun r t ht => hf r t ht

lemma pure (x : α) : Upholds I (Pure.pure x : Act σ α) := fun _ hs => hs

lemma throw (f : Fault) : Upholds I (MonadExcept.throw f : Act σ α) := fun _ hs => hs

lemma ofExcept (r : Except Fault α) : Upholds I (Act.ofExcept r : Act σ α) := fun _ hs => hs

lemma modify {g : σ → σ} (hg : ∀ s, I s → I (g s)) : Upholds I (modify g : Act σ Unit) := hg

lemma discard (ha : Upholds I a) : Upholds I (discard a) := by
  intro s hs
  unfold Ensures
  rw [outcome_discard]
  exact ha s hs

lemma reply (ha : Upholds I a) {k : α → β} : Upholds I (a >>= fun x => Pure.pure (k x)) :=
  bind ha fun _ => pure _

lemma repeatWhile {round : Act σ Bool} (hround : Upholds I round) (limit : Option Int)
    (rounds count : Nat) : Upholds I (repeatWhile round limit rounds count) := fun _ hs =>
  repeatWhile_ensures hround limit rounds count hs

/-- Where any fault will do, keeping the property is all that is asked. -/
lemma abides (ha : Upholds I a) : Abides I (Fault.Passes False) a := fun s hs =>
  ⟨ha s hs, fun f _ => f.passes_any⟩

end Upholds

lemma Abides.upholds {I : σ → Prop} {G : Fault → Prop} {a : Act σ α} (ha : Abides I G a) : Upholds I a :=
  fun s hs => (ha s hs).state

end Act

/-- An engine that differs from another at most in what has no part in deferring steps. -/
structure Engine.Alike (e e' : Engine D) : Prop where
  run : e'.run = e.run
  token : e'.token = e.token
  pending : e'.pending = e.pending
  phase : e'.phase = e.phase
  started : e'.started = e.started

lemma Engine.alike_updateStrand (e : Engine D) (sid : Nat) (f : Strand D → Strand D) :
    e.Alike (e.updateStrand sid f) := ⟨rfl, rfl, rfl, rfl, rfl⟩

/-- The small changes of an engine have no part in deferring steps. -/
lemma Engine.Shift.alike {p : Request D → Prop} {steps : Prop} {e e' : Engine D} (h : e.Shift p steps e') :
    e.Alike e' := by
  cases h with
  | winding _ h => cases h <;> exact ⟨rfl, rfl, rfl, rfl, rfl⟩
  | blanked => exact e.alike_updateStrand _ _
  | _ => exact ⟨rfl, rfl, rfl, rfl, rfl⟩

namespace World

variable {D : Dialect}

open Act (Upholds Abides)

/-- A property of worlds that everything keeps which an engine does, as long as only requests with `p`
are made. Tickets are fired out of turn only if that is `free`. Deferring a step, starting and ending are
each one change: half way through the property need not hold. -/
structure Conduct (h : Host D) (P : D.Memory → Prop) (p : Request D → Prop) (free : Prop)
    (I : World D → Prop) : Prop where
  memory : ∀ {w}, I w → P w.memory
  stored : ∀ {w m}, I w → P m → I (w.withMemory m)
  noted : ∀ {w} level source text, I w → I (w.noted level source text)
  acted : ∀ {w} {d : Deed D}, d.happening? = none → d.ticket? = none → I w → I (w.recorded d)
  told : ∀ {w} {what : Happening}, what.IsOwn → I w → I (w.emitted what)
  announced : ∀ {w} type strand data, p (.emit type strand data) → I w →
    I (w.emitted (.announced type strand data))
  altered : ∀ {w} {f : Engine D → Engine D}, w.engine.Alike (f w.engine) → I w → I (w.altered f)
  moved : ∀ {w} {new : Phase}, w.engine.phase ≠ .idle → new ≠ .terminated →
    mayFollow w.engine.phase new = true → I w → I (w.altered (·.inPhase new))
  disarmed : ∀ {w}, I w → I (w.disarmed h.scheduler)
  arm : ∀ {w fire} delay, (free → ∀ t, Upholds I (fire t)) →
    w.engine.started = true ∨ w.engine.phase = .running → w.engine.phase ≠ .terminated → I w →
    (arm h.scheduler fire delay).Ensures w fun _ v => I v
  start : ∀ {fire} entry, (free → ∀ t, Upholds I (fire t)) → Upholds I (start h fire entry)
  terminate : Upholds I (terminate h)
  freely : ∀ {r}, p r → r.Fires → free
  lapsed : ∀ {w}, free → I w → I (w.altered (·.unarmed))
  popped : ∀ {w t clock}, h.scheduler.next w.clock = some (t, clock) → I w →
    I (w.atClock clock) ∧ I ((w.atClock clock).altered (·.unarmed))
  refused : ∀ {w} on, p (.refuse on) → I w → I (w.atClock (h.scheduler.refuse w.clock on))
  pumped : ∀ rounds, Upholds I (pump (D := D) rounds)

namespace Conduct

variable {h : Host D} {P : D.Memory → Prop} {p : Request D → Prop} {free : Prop} {I : World D → Prop}
  (hI : Conduct h P p free I)

include hI

/-- What every request of a script keeps, the script keeps. -/
lemma runScript {serve : Request D → Act (World D) Reply}
    (hserve : ∀ r, p r → Abides I (Fault.Passes False) (serve r)) {s : Script D α} (hs : s.Asks P p) :
    Abides I (Fault.Passes False) (runScript serve s) :=
  runScript_abides hI.memory hI.stored hserve (hs.mono fun f _ => f.passes_any)

lemma followed {w : World D} {sid : Nat} {i : D.Instr} (hw : I w) :
    I ((w.completed sid i).followed h sid i).2 := by
  have hcompleted : I (w.completed sid i) :=
    hI.acted rfl rfl (hI.altered (w.engine.alike_updateStrand sid _) hw)
  have hmoved (cursor : Option D.Instr) : I ((w.completed sid i).altered (·.movedTo sid cursor)) :=
    hI.altered (Engine.alike_updateStrand _ _ _) hcompleted
  unfold World.followed
  split
  · exact hcompleted
  · exact hmoved none
  · split_ifs
    · exact hmoved _
    · exact hmoved none

/-- A property that is kept by the kinds of change is kept change by change. -/
lemma practice (hh : h.Asks P p) : Practice h p True free False I where
  noted := hI.noted
  told hwhat := hI.told hwhat.isOwn
  stopped _ _ _ := hI.told trivial
  announced := hI.announced
  shifted hshift := hI.altered hshift.alike
  entered _ _ hidle hnew hmay hw := hI.told trivial (hI.noted _ _ _ (hI.moved hidle hnew hmay hw))
  peopled {w} i scope hw := by
    have hstored : I (w.withMemory (w.newMemory h scope)) :=
      hI.stored hw (newMemory_kept w hh.install scope (hI.memory hw))
    exact hI.altered (f := (·.withStrand (w.newStrand (some i) scope))) ⟨rfl, rfl, rfl, rfl, rfl⟩ hstored
  disarmed := hI.disarmed
  arm delay hfire hlive hp hw :=
    ⟨hI.arm delay (fun hfree t => (hfire hfree t).upholds) hlive hp hw, fun f _ => f.passes_any⟩
  start _ hfire := (hI.start _ fun hfree t => (hfire hfree t).discard.upholds).abides
  terminate _ := hI.terminate.abides
  advance sid manual _ hserve _ hw :=
    ⟨advance_abides (J := fun _ _ => I) (fun _ _ => hI.acted rfl rfl)
      (fun _ i scope => hI.runScript hserve (hh.code i scope)) id (fun _ => hI.followed) sid sid manual _ hw,
      False.elim⟩
  breaks i _ hserve hw := ⟨hI.runScript hserve (hh.breaks i) _ hw, fun _ _ => False.elim⟩
  farewell _ _ hserve hw := hI.runScript hserve (hh.farewell _) _ hw
  awake := False.elim
  stepping _ _ := trivial
  freely := hI.freely
  eagerly _ := trivial
  lapsed := hI.lapsed
  popped _ := hI.popped
  refused := hI.refused
  pumped rounds := (hI.pumped rounds).abides

/-- Whatever is asked for at whatever depth, an engine keeps the property. -/
theorem serve (hh : h.Asks P p) (rounds depth : Nat) (r : Request D) (hr : p r) :
    Upholds I (serve h rounds depth r) := (((hI.practice hh).serve rounds depth).1 r hr).upholds

end Conduct

/-- A property of worlds that does not look at the engine or at the scheduler. -/
structure Blind (h : Host D) (P : D.Memory → Prop) (p : Request D → Prop) (I : World D → Prop) :
    Prop where
  memory : ∀ {w}, I w → P w.memory
  stored : ∀ {w m}, I w → P m → I (w.withMemory m)
  noted : ∀ {w} level source text, I w → I (w.noted level source text)
  recorded : ∀ {w} {d : Deed D}, d.happening? = none → I w → I (w.recorded d)
  told : ∀ {w} {what : Happening}, what.IsOwn → I w → I (w.emitted what)
  announced : ∀ {w} type strand data, p (.emit type strand data) → I w →
    I (w.emitted (.announced type strand data))
  altered : ∀ {w} (f : Engine D → Engine D), I w → I (w.altered f)
  atClock : ∀ {w} clock, I w → I (w.atClock clock)
  pumped : ∀ rounds, Upholds I (pump (D := D) rounds)
  install : ∀ {m} n contents, P m → P (h.install m n contents)

namespace Blind

variable {h : Host D} {P : D.Memory → Prop} {p : Request D → Prop} {I : World D → Prop}
  (hI : Blind h P p I)

include hI

lemma loose : Loose h I where
  noted := hI.noted
  told := hI.told
  disarmed hw := hI.atClock _ (hI.altered (·.disarmed) hw)
  deferred _ _ hw := hI.atClock _ (hI.recorded rfl hw)
  aside _ hw := hI.altered _ hw
  peopled {w} cursor scope hw := hI.altered (·.withStrand (w.newStrand cursor scope))
    (hI.stored hw (newMemory_kept w hI.install scope (hI.memory hw)))

/-- Then it does not matter when tickets are fired, nor what the scheduler does. -/
lemma conduct : Conduct h P p True I where
  memory := hI.memory
  stored := hI.stored
  noted := hI.noted
  acted hd _ hw := hI.recorded hd hw
  told := hI.told
  announced := hI.announced
  altered _ hw := hI.altered _ hw
  moved _ _ _ hw := hI.altered _ hw
  disarmed := hI.loose.disarmed
  arm delay hfire _ _ hw := (hI.loose.arm (fun t => (hfire trivial t).abides) delay).upholds _ hw
  start entry hfire := (hI.loose.start (hI.loose.arm fun t => (hfire trivial t).abides) entry).upholds
  terminate := hI.loose.terminate.upholds
  freely _ _ := trivial
  lapsed _ hw := hI.altered _ hw
  popped _ hw := ⟨hI.atClock _ hw, hI.altered _ (hI.atClock _ hw)⟩
  refused _ _ hw := hI.atClock _ hw
  pumped := hI.pumped

end Blind

end World

end Loom
