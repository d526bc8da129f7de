import Loom.Proofs.StepCoherence

/-! Runs of an engine under an adversarial scheduler. Between two steps the owner of the run may ask for
any operation, the scheduler may fire any ticket that was ever put to it, taken or refused, called off or
not, and as often as it likes, and its own state may drift. Whatever the order, the control stays
coherent, so that of all those tickets only one can ever matter. -/
namespace Loom

/-- In a fit state a scheduler does not fire a step while taking it, and it stays fit. -/
structure Scheduler.Defers (s : Scheduler κ) (fit : κ → Prop) : Prop where
  later : ∀ {c delay t a c'}, fit c → s.arm c delay t = (.ok a, c') → a.immediate = false
  arm : ∀ {c} delay t, fit c → fit (s.arm c delay t).2
  cancel : ∀ {c} n, fit c → fit (s.cancel c n)

/-- A fit scheduler stays fit whatever it is asked for. -/
structure Scheduler.Stays (s : Scheduler κ) (fit : κ → Prop) : Prop where
  defers : s.Defers fit
  next : ∀ {c t c'}, fit c → s.next c = some (t, c') → fit c'
  refuse : ∀ {c} on, fit c → fit (s.refuse c on)

/-- In a fit state a scheduler takes every step. -/
def Scheduler.Accepts (s : Scheduler κ) (fit : κ → Prop) : Prop :=
  ∀ c delay t, fit c → (s.arm c delay t).1.isOk = true

lemma Scheduler.Defers.keeps {s : Scheduler κ} {fit : κ → Prop} (hs : s.Defers fit) :
    s.Keeps (fun c _ => fit c) (s.Accepts fit) where
  taken {c delay t a c'} hc ha := by
    have hfit := hs.arm delay t hc
    rw [ha] at hfit
    exact ⟨hs.later hc ha, hfit⟩
  refused {c delay t f c'} hc ha := by
    have hfit := hs.arm delay t hc
    rw [ha] at hfit
    refine ⟨hfit, fun haccept => ?_⟩
    have hok := haccept c delay t hc
    rw [ha] at hok
    cases hok
  cancelled {c n t} hc := hs.cancel n hc

lemma Engine.eq_of_make {run : Nat} {s : Settings} {e : Engine D} (he : make run s = .ok e) :
    e =
      { run
        breaking := s.breakpoints.truthy
        rate := s.rate
        timeSlice := s.timeSlice
        historySize := s.historySize } := by
  unfold make at he
  split_ifs at he
  exact (Except.ok.inj he).symm

/-- What may happen between two steps. -/
inductive Move (D : Dialect) where
  | operate (r : Request D)
  | fire (t : Ticket)
  /-- The scheduler's state changes of itself. -/
  | drift (clock : D.Clock)

namespace World

variable {D : Dialect}

/-- The tickets that the scheduler ever took. -/
def taken (w : World D) : List Ticket := (w.tickets.filter (·.2)).map (·.1)

/-- Operations are up to the owner; a ticket can be fired once the scheduler has seen it. -/
def Admits (fit : D.Clock → Prop) (w : World D) : Move D → Prop
  | .operate r => r.IsOperation
  | .fire t => t ∈ w.tickets.map (·.1)
  | .drift clock => fit clock

lemma admits_fire {fit : D.Clock → Prop} {w : World D} {t : Ticket} (ht : t ∈ w.tickets.map (·.1)) :
    w.Admits fit (.fire t) := ht

section

variable (h : Host D) (rounds depth : Nat)

/-- The world after a move. -/
def after (w : World D) : Move D → World D
  | .operate r => ((serve h rounds (depth + 1) r).outcome w).2
  | .fire t => ((serve h rounds (depth + 1) (.fire t)).outcome w).2
  | .drift clock => w.atClock clock

/-- The world after a sequence of moves. -/
def replay (w : World D) (moves : List (Move D)) : World D := moves.foldl (after h rounds depth) w

/-- Every move of a sequence is possible when its turn comes. -/
def Plays (fit : D.Clock → Prop) : World D → List (Move D) → Prop
  | _, [] => True
  | w, m :: moves => w.Admits fit m ∧ Plays fit (w.after h rounds depth m) moves

/-- The number of instructions that a move begins. -/
def begins (w : World D) (m : Move D) : Nat :=
  (w.after h rounds depth m).attempts.length - w.attempts.length

/-- The number of instructions that the firings of one ticket begin in a sequence of moves. -/
def beginsBy (t : Ticket) : World D → List (Move D) → Nat
  | _, [] => 0
  | w, m :: moves =>
    (match m with
      | .fire t' => if t' = t then w.begins h rounds depth m else 0
      | _ => 0) + beginsBy t (w.after h rounds depth m) moves

/-- Nothing but the journal differs. -/
def Quietly (w v : World D) : Prop := v = { w with journal := v.journal }

/-- A ticket can still have an effect: some moves on, firing it does more than leave a note. -/
def CanMatter (fit : D.Clock → Prop) (w : World D) (t : Ticket) : Prop :=
  ∃ moves, Plays h rounds depth fit w moves ∧
    ¬ Quietly (w.replay h rounds depth moves)
      ((w.replay h rounds depth moves).after h rounds depth (.fire t))

end

/-- A world in which nothing has happened yet. -/
structure Fresh (fit : D.Clock → Prop) (P : D.Memory → Prop) (w : World D) : Prop where
  engine : ∃ run settings, Engine.make run settings = .ok w.engine
  deeds : w.deeds = #[]
  clock : fit w.clock
  memory : P w.memory

/-- What holds between any two moves. -/
structure Steady (h : Host D) (fit : D.Clock → Prop) (P : D.Memory → Prop) (w : World D) : Prop where
  coherent : w.control.Coherent (fun c _ => fit c) (h.scheduler.Accepts fit) (h.Tells P) none
  memory : P w.memory

variable {h : Host D} {fit : D.Clock → Prop} {P : D.Memory → Prop} {w v : World D}

lemma Fresh.coherent (hw : Fresh fit P w) {books : D.Clock → Option (Nat × Ticket) → Prop}
    {reliable told : Prop} (hb : books w.clock none) : w.control.Coherent books reliable told none := by
  obtain ⟨run, settings, hmake⟩ := hw.engine
  unfold control tickets
  rw [hw.deeds, Engine.eq_of_make hmake]
  exact ⟨hb, by simp, by simp, by simp, by simp, by simp, by simp, by simp, nofun⟩

lemma Fresh.steady (hw : Fresh fit P w) : Steady h fit P w := ⟨hw.coherent hw.clock, hw.memory⟩

/-- A ticket other than the one that counts leaves a note. -/
lemma after_stale (rounds depth : Nat) {t : Ticket} (ht : t ≠ w.ticket) :
    w.after h rounds depth (.fire t) = w.noted .debug .process "stale step callback ignored" :=
  congrArg Prod.snd (fire_stale h rounds depth ht)

/-- The ticket that counts does nothing while the engine is not running. -/
lemma after_idle (rounds depth : Nat) (hw : Steady h fit P w) (hp : w.engine.phase ≠ .running) :
    w.after h rounds depth (.fire w.ticket) = w :=
  congrArg Prod.snd (fire_idle h rounds depth hw.coherent hp)

lemma begins_stale (rounds depth : Nat) {t : Ticket} (ht : t ≠ w.ticket) :
    w.begins h rounds depth (.fire t) = 0 := by
  unfold begins
  rw [after_stale rounds depth ht]
  exact Nat.sub_self _

lemma ne_ticket_of_lt {t : Ticket} (ht : t.token < w.engine.token) : t ≠ w.ticket := by
  rintro rfl
  exact Nat.lt_irrefl _ ht

section

variable (hs : h.scheduler.Defers fit) (hh : h.Tame P) (rounds depth : Nat)

include hs hh

/-- Firing the ticket that counts while running begins at most one instruction and moves the token. -/
lemma fire_overtakes (hw : Steady h fit P w) (hp : w.engine.phase = .running) :
    Stepped P (fun c _ => fit c) (h.scheduler.Accepts fit) (h.Tells P) (some w.engine.token) w
      (w.after h rounds depth (.fire w.ticket)) :=
  fire_current hs.keeps hh rounds depth hw.coherent hw.memory hp hw.coherent.books

/-- What one move brings about. -/
theorem after_stepped (hw : Steady h fit P w) {m : Move D} (hm : w.Admits fit m) :
    Stepped P (fun c _ => fit c) (h.scheduler.Accepts fit) (h.Tells P) none w (w.after h rounds depth m) := by
  cases m with
  | operate r => exact operation_stepped hs.keeps hh rounds (depth + 1) hw.coherent hw.memory hm
  | fire t =>
    by_cases ht : t = w.ticket
    · subst ht
      by_cases hp : w.engine.phase = .running
      · have hstep := fire_overtakes hs hh rounds depth hw hp
        exact ⟨hstep.coherent.settle hstep.overtaken, nofun, hstep.token, hstep.attempts, hstep.memory⟩
      · rw [after_idle rounds depth hw hp]
        exact .refl hw.coherent hw.memory
    · rw [after_stale rounds depth ht]
      exact ⟨hw.coherent, nofun, Nat.le_refl _, ⟨[], by simp, by simp⟩, hw.memory⟩
  | drift clock =>
    have hc := hw.coherent
    exact ⟨⟨hm, hc.own, hc.sorted, hc.armed, hc.unarmed, hc.started_iff, hc.granted, hc.answered, nofun⟩,
      nofun, Nat.le_refl _, ⟨[], by simp [after], by simp⟩, hw.memory⟩

lemma after_steady (hw : Steady h fit P w) {m : Move D} (hm : w.Admits fit m) :
    Steady h fit P (w.after h rounds depth m) := by
  have hstep := after_stepped hs hh rounds depth hw hm
  exact ⟨hstep.coherent, hstep.memory⟩

/-- What a whole run brings about: it stays steady, and the token only moves on. -/
theorem replay_steady (hw : Steady h fit P w) {moves : List (Move D)}
    (hm : Plays h rounds depth fit w moves) :
    Steady h fit P (w.replay h rounds depth moves) ∧
      w.engine.token ≤ (w.replay h rounds depth moves).engine.token := by
  induction moves generalizing w with
  | nil => exact ⟨hw, Nat.le_refl _⟩
  | cons m moves ih =>
    obtain ⟨hmove, hrest⟩ := hm
    obtain ⟨hsteady, htoken⟩ := ih (after_steady hs hh rounds depth hw hmove) hrest
    exact ⟨hsteady, Nat.le_trans (after_stepped hs hh rounds depth hw hmove).token htoken⟩

lemma begins_le_one (hw : Steady h fit P w) {m : Move D} (hm : w.Admits fit m) :
    w.begins h rounds depth m ≤ 1 := by
  obtain ⟨begun, hbegun, hle⟩ := (after_stepped hs hh rounds depth hw hm).attempts
  unfold begins
  rw [hbegun, List.length_append]
  omega

/-- Once the token has moved past it, a ticket begins nothing any more. -/
lemma beginsBy_overtaken (hw : Steady h fit P w) {t : Ticket} (ht : t.token < w.engine.token)
    {moves : List (Move D)} (hm : Plays h rounds depth fit w moves) :
    beginsBy h rounds depth t w moves = 0 := by
  induction moves generalizing w with
  | nil => rfl
  | cons m moves ih =>
    obtain ⟨hmove, hrest⟩ := hm
    have htoken := (after_stepped hs hh rounds depth hw hmove).token
    have hlater := ih (after_steady hs hh rounds depth hw hmove) (by omega) hrest
    have hnow (t' : Ticket) (ht' : t' = t) : w.begins h rounds depth (.fire t') = 0 :=
      begins_stale rounds depth (ht' ▸ ne_ticket_of_lt ht)
    unfold beginsBy
    rw [hlater]
    cases m with
    | operate r => rfl
    | drift clock => rfl
    | fire t' =>
      by_cases ht' : t' = t
      · simp [ht', hnow t rfl]
      · simp [ht']

/-- Over a whole run all the firings of one ticket together begin at most one instruction. -/
theorem beginsBy_le_one (hw : Steady h fit P w) (t : Ticket) {moves : List (Move D)}
    (hm : Plays h rounds depth fit w moves) : beginsBy h rounds depth t w moves ≤ 1 := by
  induction moves generalizing w with
  | nil => exact Nat.zero_le 1
  | cons m moves ih =>
    obtain ⟨hmove, hrest⟩ := hm
    have hsteady := after_steady hs hh rounds depth hw hmove
    have hlater := ih hsteady hrest
    unfold beginsBy
    cases m with
    | operate r => simpa using hlater
    | drift clock => simpa using hlater
    | fire t' =>
      by_cases ht : t' = t
      · subst ht
        have hle := begins_le_one hs hh rounds depth hw hmove
        by_cases hcurrent : t' = w.ticket
        · subst hcurrent
          by_cases hp : w.engine.phase = .running
          · have hover := (fire_overtakes hs hh rounds depth hw hp).overtaken _ rfl
            have hnone := beginsBy_overtaken hs hh rounds depth hsteady (t := w.ticket) hover hrest
            simp only [if_true, hnone]
            omega
          · have hnone : w.begins h rounds depth (.fire w.ticket) = 0 := by
              unfold begins
              rw [after_idle rounds depth hw hp]
              exact Nat.sub_self _
            simp only [if_true, hnone]
            omega
        · simp only [if_true, begins_stale rounds depth hcurrent]
          omega
      · simpa [ht] using hlater

/-- Of the tickets put to the scheduler only the one with the current token can still matter. -/
lemma eq_ticket_of_canMatter (hw : Steady h fit P w) {t : Ticket} (ht : t ∈ w.tickets.map (·.1))
    (hc : CanMatter h rounds depth fit w t) : t = w.ticket := by
  obtain ⟨⟨t, b⟩, hmem, rfl⟩ := List.mem_map.1 ht
  obtain ⟨hrun, hle⟩ := hw.coherent.own _ hmem
  obtain ⟨moves, hplays, hmatter⟩ := hc
  by_contra hne
  have hlt : t.token < w.engine.token := by
    refine Nat.lt_of_le_of_ne hle fun heq => hne ?_
    cases t
    cases hrun
    cases heq
    rfl
  obtain ⟨-, htoken⟩ := replay_steady hs hh rounds depth hw hplays
  have hstale : t ≠ (w.replay h rounds depth moves).ticket := ne_ticket_of_lt (by omega)
  apply hmatter
  rw [after_stale rounds depth hstale]
  rfl

omit hs hh in
/-- A ticket that begins an instruction matters. -/
lemma canMatter_of_attempts {t : Ticket}
    (ht : (w.after h rounds depth (.fire t)).attempts ≠ w.attempts) : CanMatter h rounds depth fit w t := by
  refine ⟨[], trivial, fun hquiet => ht ?_⟩
  have hsame : w.after h rounds depth (.fire t) =
      { w with journal := (w.after h rounds depth (.fire t)).journal } := hquiet
  rw [hsame]
  rfl

/-- While the engine runs the ticket that counts does matter: firing it moves the token. -/
lemma canMatter_ticket (hw : Steady h fit P w) (hp : w.engine.phase = .running) :
    CanMatter h rounds depth fit w w.ticket := by
  refine ⟨[], trivial, fun hquiet => ?_⟩
  have hover := (fire_overtakes hs hh rounds depth hw hp).overtaken _ rfl
  have hsame := congrArg (fun v => v.engine.token) hquiet
  change (w.after h rounds depth (.fire w.ticket)).engine.token = w.engine.token at hsame
  omega

end

lemma getLast?_of_pairwise {α : Type} {f : α → Nat} {l : List α} {x : α}
    (hl : l.Pairwise fun a b => f a < f b) (hx : x ∈ l) (hmax : ∀ y ∈ l, f y ≤ f x) :
    l.getLast? = some x := by
  obtain ⟨front, y, rfl⟩ := List.eq_nil_or_concat l |>.resolve_left (List.ne_nil_of_mem hx)
  rw [List.concat_eq_append] at hl hx hmax ⊢
  rcases List.mem_append.1 hx with hfront | hlast
  · have hlt := (List.pairwise_append.1 hl).2.2 x hfront y (by simp)
    have hle := hmax y (by simp)
    omega
  · rw [List.mem_singleton.1 hlast]
    simp

/-- The current ticket is the last that was put to the scheduler. -/
lemma Steady.getLast?_ticket (hw : Steady h fit P w) {b : Bool} (hb : (w.ticket, b) ∈ w.tickets) :
    w.tickets.getLast? = some (w.ticket, b) :=
  getLast?_of_pairwise (f := fun x => x.1.token) hw.coherent.sorted hb fun x hx =>
    (hw.coherent.own x hx).2

lemma mem_taken {t : Ticket} : t ∈ w.taken ↔ (t, true) ∈ w.tickets := by
  simp [taken]

/-- The ticket that counts is the one taken last. -/
lemma taken_getLast? (hw : Steady h fit P w) (ht : w.ticket ∈ w.taken) :
    w.taken.getLast? = some w.ticket := by
  have hsorted : w.taken.Pairwise fun a b => a.token < b.token :=
    List.pairwise_map.2 (hw.coherent.sorted.filter _)
  refine getLast?_of_pairwise (f := Ticket.token) hsorted ht fun t ht => ?_
  exact (hw.coherent.own _ (mem_taken.1 ht)).2

end World
end Loom
