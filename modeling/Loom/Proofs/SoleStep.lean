import Loom.Proofs.Conduct
import Loom.Proofs.Wakeup

/-! The only step that waits with a scheduler is the one that an engine has deferred. This holds whatever a
program asks for, so that an engine which is not started or has ended leaves nothing behind. -/
namespace Loom

/-- Whether a scheduler takes every step is of no account here. -/
lemma Scheduler.Keeps.unreliable {s : Scheduler κ} {books : κ → Option (Nat × Ticket) → Prop}
    {reliable : Prop} (hs : s.Keeps books reliable) : s.Keeps books False where
  taken := hs.taken
  refused hc ha := ⟨(hs.refused hc ha).1, id⟩
  cancelled := hs.cancelled

/-- Going behind the scheduler's back: firing a step out of turn, or telling the scheduler to refuse. -/
def Request.Meddles : Request D → Prop
  | fire _ | fireIssued _ | refuse _ => True
  | _ => False

lemma Request.Fires.meddles {r : Request D} (hr : r.Fires) : r.Meddles := by
  cases r <;> simp_all [Fires, Meddles]

lemma Request.IsOperation.not_meddles {r : Request D} (hr : r.IsOperation) : ¬ r.Meddles := by
  cases r <;> simp_all [IsOperation, Meddles]

/-- A scheduler that keeps books on what is deferred with it. They also stay right when a call is cancelled
that does not wait any more, when the call that waits is taken out, and, if that is `free`, when somebody
goes behind its back. -/
structure Scheduler.Tends (s : Scheduler κ) (books : κ → Option (Nat × Ticket) → Prop) (free : Prop) :
    Prop where
  keeps : s.Keeps books False
  idle : ∀ {c} n, books c none → books (s.cancel c n) none
  next : ∀ {c waiting t c'}, books c waiting → s.next c = some (t, c') → books c' none
  refuse : ∀ {c waiting} on, free → books c waiting → books (s.refuse c on) waiting
  lapse : ∀ {c waiting}, free → books c waiting → books c none

lemma Scheduler.Stays.tends {s : Scheduler κ} {fit : κ → Prop} (hs : s.Stays fit) :
    s.Tends (fun c _ => fit c) True where
  keeps := hs.defers.keeps.unreliable
  idle n hc := hs.defers.cancel n hc
  next hc hnext := hs.next hc hnext
  refuse on _ hc := hs.refuse on hc
  lapse _ hc := hc

namespace Agenda

variable {α : Type}

/-- Cancelling a call where none waits. -/
lemma Holds.cancel_idle {a : Agenda α} (h : a.Holds none) (n : Nat) : (a.cancel n).Holds none := by
  refine ⟨?_, ?_, nofun⟩
  · simpa [Agenda.cancel] using h.made
  · change a.queue.filter (a.cancel n).isLive = []
    refine List.filter_eq_nil_iff.2 fun i hi hlive => ?_
    have hdead : ¬ a.isLive i = true := List.filter_eq_nil_iff.1 h.live i hi
    apply hdead
    unfold isLive Agenda.cancel at *
    rw [Array.getElem?_modify] at hlive
    split_ifs at hlive with hin
    · rcases hc : a.calls[i]? with _ | c <;> simp [hc] at hlive
    · exact hlive

end Agenda

/-- On an agenda the books tell the one call that waits, as long as nobody goes behind its back. -/
lemma Scheduler.OnAgenda.tends {s : Scheduler κ} {agenda : κ → Agenda Ticket} {fit : κ → Prop}
    (hs : s.OnAgenda agenda fit) : s.Tends (Scheduler.Books agenda fit) False where
  keeps := hs.keeps.unreliable
  idle n hc := by
    obtain ⟨hfit, hagenda⟩ := hs.cancel n hc.1
    exact ⟨hfit, hagenda ▸ hc.2.cancel_idle n⟩
  next {c waiting t c'} hc hnext := by
    rcases waiting with _ | ⟨n, u⟩
    · rw [hs.next_none hc] at hnext
      cases hnext
    · obtain ⟨c'', hnext', hbooks, -⟩ := hs.next_some hc
      cases hnext.symm.trans hnext'
      exact hbooks
  refuse _ := nofun
  lapse := nofun

/-- An engine that was never started or has ended, and waits for nothing. -/
structure Engine.Over (e : Engine D) : Prop where
  still : e.started = false ∨ e.phase = .terminated
  pending : e.pending = none

namespace World

variable {D : Dialect}

/-- Nothing waits with the scheduler but the step that the engine has deferred, and it defers one only in
its lifetime. -/
structure Sole (books : D.Clock → Option (Nat × Ticket) → Prop) (P : D.Memory → Prop) (w : World D) :
    Prop where
  books : books w.clock none ∨ books w.clock (w.engine.pending.map (·, w.ticket))
  armed : w.engine.pending.isSome → w.engine.started = true ∧ w.engine.phase ≠ .terminated
  started_iff : w.engine.started = true ↔ w.engine.phase ≠ .idle
  memory : P w.memory

namespace Sole

variable {books : D.Clock → Option (Nat × Ticket) → Prop} {P : D.Memory → Prop} {h : Host D}
  {free : Prop} {w v : World D}

lemma of_alike (hw : w.Sole books P) (he : w.engine.Alike v.engine) (hc : v.clock = w.clock)
    (hm : P v.memory) : v.Sole books P where
  books := by
    have hticket : v.ticket = w.ticket := by rw [ticket, ticket, he.run, he.token]
    rw [hc, he.pending, hticket]
    exact hw.books
  armed := by
    rw [he.pending, he.started, he.phase]
    exact hw.armed
  started_iff := by
    rw [he.started, he.phase]
    exact hw.started_iff
  memory := hm

lemma heard (hw : w.Sole books P) (what : Happening) : (w.emitted what).Sole books P :=
  hw.of_alike ⟨rfl, rfl, rfl, rfl, rfl⟩ rfl hw.memory

/-- An engine that waits for nothing leaves nothing with the scheduler. -/
lemma idle (hw : w.Sole books P) (hp : w.engine.pending = none) : books w.clock none := by
  have hbooks := hw.books
  rw [hp] at hbooks
  exact hbooks.elim id id

lemma books_disarmed (hw : w.Sole books P) (hs : h.scheduler.Tends books free) :
    books (w.disarmed h.scheduler).clock none := by
  rw [disarmed_clock]
  rcases hp : w.engine.pending with _ | handle
  · exact hw.idle hp
  · have hbooks := hw.books
    rw [hp] at hbooks
    exact hbooks.elim (hs.idle handle) fun hwaiting => hs.keeps.cancelled hwaiting

lemma disarmed (hw : w.Sole books P) (hs : h.scheduler.Tends books free) :
    (w.disarmed h.scheduler).Sole books P :=
  ⟨.inl (hw.books_disarmed hs), by simp, hw.started_iff, hw.memory⟩

lemma postpones (hw : w.Sole books P) (hs : h.scheduler.Tends books free)
    (fire : Ticket → Act (World D) Unit) : w.Postpones h fire :=
  postpones_of_later w h fire fun _ _ _ _ ha => (hs.keeps.taken (hw.books_disarmed hs) ha).1

/-- A step that the scheduler refuses does not wait; one that it takes waits alone. -/
lemma deferred (hw : w.Sole books P) (hs : h.scheduler.Tends books free) (delay : Binary64) :
    (∃ f clock, w.deferred h.scheduler delay = (.error f, w.refused h.scheduler clock) ∧
      (w.refused h.scheduler clock).Sole books P) ∨
    ∃ handle clock, w.deferred h.scheduler delay = (.ok (), w.armed h.scheduler handle clock) ∧
      books clock (some (handle, (w.disarmed h.scheduler).ticket)) := by
  unfold World.deferred
  rcases ha : h.scheduler.arm (w.disarmed h.scheduler).clock delay (w.disarmed h.scheduler).ticket
    with ⟨f | a, clock⟩
  · have hbooks := (hs.keeps.refused (hw.books_disarmed hs) ha).1
    exact .inl ⟨f, clock, rfl, .inl hbooks, by simp, hw.started_iff, hw.memory⟩
  · exact .inr ⟨a.handle, clock, rfl, (hs.keeps.taken (hw.books_disarmed hs) ha).2⟩

lemma armed_of_live (hw : w.Sole books P) (hs : w.engine.started = true)
    (hp : w.engine.phase ≠ .terminated) {handle : Nat} {clock : D.Clock}
    (hbooks : books clock (some (handle, (w.disarmed h.scheduler).ticket))) :
    (w.armed h.scheduler handle clock).Sole books P :=
  ⟨.inr hbooks, fun _ => ⟨hs, hp⟩, hw.started_iff, hw.memory⟩

/-- A step that was deferred first waits alone once the engine is under way. -/
lemma begun (hw : w.Sole books P) {handle : Nat} {clock : D.Clock}
    (hbooks : books clock (some (handle, (w.disarmed h.scheduler).ticket))) (cursor : Option D.Instr)
    (contents : D.Scope)
    (hinstall : ∀ {m} n contents, P m → P (h.install m n contents)) :
    ((w.armed h.scheduler handle clock).begun h cursor contents).Sole books P := by
  have hmemory : P ((w.armed h.scheduler handle clock).begun h cursor contents).memory := by
    rw [begun_memory]
    exact newMemory_kept _ hinstall _ hw.memory
  have hphase : Phase.running ≠ .terminated := by decide
  cases cursor <;> exact ⟨.inr hbooks, fun _ => ⟨rfl, hphase⟩, by simp [World.begun], hmemory⟩

lemma started (hw : w.Sole books P) (hs : h.scheduler.Tends books free)
    (hinstall : ∀ {m} n contents, P m → P (h.install m n contents)) (fire : Ticket → Act (World D) Unit)
    (entry : Option D.Instr) : (start h fire entry).Ensures w fun _ v => v.Sole books P := by
  rcases hstarted : w.engine.started with _ | _
  · have hsought : (w.sought h entry).Sole books P :=
      hw.of_alike (by rw [sought_engine]; exact ⟨rfl, rfl, rfl, rfl, rfl⟩) (sought_clock w h entry)
        (by rw [sought_memory]; exact hw.memory)
    unfold Act.Ensures
    rw [start_outcome h w fire entry (idle_of_unstarted hw.started_iff hstarted) (hw.postpones hs fire)]
    simp only [hstarted]
    rcases w.root h entry with f | ⟨cursor, contents⟩
    · exact hsought
    · dsimp only
      rcases hsought.deferred hs .zero with ⟨f, clock, hd, hv⟩ | ⟨handle, clock, hd, hbooks⟩ <;> rw [hd]
      · exact hv
      · exact hsought.begun hbooks cursor contents hinstall
  · exact Act.ensures_of_outcome (start_again h fire entry hstarted) hw

lemma ended (hw : w.Sole books P) (hs : h.scheduler.Tends books free)
    (hstarted : w.engine.started = true) : (w.ended h.scheduler).Sole books P :=
  ⟨.inl (hw.books_disarmed hs), by simp, by simp [World.ended, hstarted], hw.memory⟩

lemma terminated (hw : w.Sole books P) (hs : h.scheduler.Tends books free) :
    (terminate h).Ensures w fun _ v => v.Sole books P := by
  rcases terminate_cases h w hw.started_iff.1 with ⟨f, -, hout⟩ | ⟨hstarted, -, hout⟩
  · exact Act.ensures_of_outcome hout hw
  · exact Act.ensures_of_outcome hout (hw.ended hs hstarted)

lemma deferring (hw : w.Sole books P) (hs : h.scheduler.Tends books free)
    (fire : Ticket → Act (World D) Unit) (delay : Binary64)
    (hlive : w.engine.started = true ∨ w.engine.phase = .running) (hp : w.engine.phase ≠ .terminated) :
    (arm h.scheduler fire delay).Ensures w fun _ v => v.Sole books P := by
  have hstarted : w.engine.started = true := hlive.elim id fun hrun => hw.started_iff.2 (by simp [hrun])
  unfold Act.Ensures
  rw [hw.postpones hs fire w rfl rfl delay]
  rcases hw.deferred hs delay with ⟨f, clock, hd, hv⟩ | ⟨handle, clock, hd, hbooks⟩ <;> rw [hd]
  · exact hv
  · exact hw.armed_of_live hstarted hp hbooks

/-- However an engine is driven, nothing waits but the step that it has deferred. -/
lemma conduct (hs : h.scheduler.Tends books free)
    (hinstall : ∀ {m} n contents, P m → P (h.install m n contents)) :
    Conduct h P (fun r => r.Meddles → free) free (Sole books P) where
  memory hw := hw.memory
  stored hw hm := hw.of_alike ⟨rfl, rfl, rfl, rfl, rfl⟩ rfl hm
  noted _ _ _ hw := hw.of_alike ⟨rfl, rfl, rfl, rfl, rfl⟩ rfl hw.memory
  acted _ _ hw := hw.of_alike ⟨rfl, rfl, rfl, rfl, rfl⟩ rfl hw.memory
  told _ hw := hw.heard _
  announced _ _ _ _ hw := hw.heard _
  altered hf hw := hw.of_alike hf rfl hw.memory
  moved {w new} hidle hnew hmay hw := by
    have hnew' : new ≠ .idle := ne_idle_of_mayFollow hmay
    have hstarted : w.engine.started = true := hw.started_iff.2 hidle
    exact ⟨hw.books, fun _ => ⟨hstarted, hnew⟩, by simp [hstarted, hnew'], hw.memory⟩
  disarmed hw := hw.disarmed hs
  arm delay _ hlive hp hw := hw.deferring hs _ delay hlive hp
  start entry _ _ hw := hw.started hs hinstall _ entry
  terminate _ hw := hw.terminated hs
  freely hr hfires := hr hfires.meddles
  lapsed hfree hw :=
    ⟨hw.books.elim .inl fun hbooks => .inl (hs.lapse hfree hbooks), by simp, hw.started_iff, hw.memory⟩
  popped hnext hw := by
    have hbooks := hw.books.elim (hs.next · hnext) (hs.next · hnext)
    exact ⟨⟨.inl hbooks, hw.armed, hw.started_iff, hw.memory⟩,
      ⟨.inl hbooks, by simp, hw.started_iff, hw.memory⟩⟩
  refused on hfree hw :=
    ⟨hw.books.imp (hs.refuse on (hfree trivial)) (hs.refuse on (hfree trivial)), hw.armed, hw.started_iff,
      hw.memory⟩
  pumped rounds := by
    refine Act.Upholds.get_bind fun w hw => ?_
    rcases w.bus with _ | bus
    · exact hw
    · exact hw.of_alike ⟨rfl, rfl, rfl, rfl, rfl⟩ rfl hw.memory

/-- An engine that is never started, or ended, leaves nothing behind. -/
lemma leaves_nothing (hw : w.Sole books P) (hstill : w.engine.started = false ∨ w.engine.phase = .terminated) :
    w.engine.Over ∧ books w.clock none := by
  have hpending : w.engine.pending = none := by
    by_contra hp
    obtain ⟨hs, hp'⟩ := hw.armed (Option.isSome_iff_ne_none.2 hp)
    rcases hstill with hstill | hstill
    · simp [hs] at hstill
    · exact hp' hstill
  exact ⟨⟨hstill, hpending⟩, hw.idle hpending⟩

end Sole

end World

end Loom
