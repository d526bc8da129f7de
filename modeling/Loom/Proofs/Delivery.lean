import Loom.Proofs.Conduct
import Loom.Proofs.EventLog
import Loom.Proofs.Mailbox
import Loom.Proofs.TypedImage

/-! From the engine to the mailbox. When an engine is the only one to publish on its bus, a mailbox that
was opened before the start and has not overflowed holds, with what it handed out before, exactly the
images of the events that its filter wants, in the order of the log. -/
namespace Loom

namespace Mailbox

/-- The filter of a mailbox, by the type and the strand of an event before it is read. -/
def wants (m : Mailbox) (e : Event) : Bool :=
  (m.categories.all fun cs => cs.any (·.same e.what.type)) &&
    match m.strand with
    | .none => true
    | v => e.what.strand.same v

/-- A new mailbox was offered nothing yet. -/
lemma offered_of_make {categories strand size : Value} {m : Mailbox}
    (hm : make categories strand size = .ok m) : m.offered = [] := by
  obtain ⟨cs, n, rfl, -⟩ := make_opens hm
  rfl

/-- A mailbox accepts the images of the events that it wants. -/
lemma accepts_image (m : Mailbox) {e : Event} (h : e.what.IsOwn) : m.accepts e.image = m.wants e := by
  unfold accepts wants acceptsType acceptsStrand
  rw [Event.type_eq h, Event.strand_eq h]
  rfl

end Mailbox

namespace Bus

/-- Changes that bring no event to a mailbox. -/
def Change.IsQuiet : Change → Prop
  | opened _ | closed _ | taken _ => True
  | offered .. | published _ => False

/-- A relation between the events of an engine and its bus that lasts while nobody else publishes. -/
structure Lasts (J : List Event → Bus → Prop) : Prop where
  quietly : ∀ {events b c}, J events b → c.IsSound → c.IsQuiet → J events (b.after c)
  publish : ∀ {events b} {e : Event}, J events b → e.what.IsOwn → J (events ++ [e]) (b.deliver e.image)

lemma lasts_lawful : Lasts fun _ b => b.Lawful where
  quietly h hc _ := h.after hc
  publish h _ := h.after (c := .published _) trivial

/-- While it is open, a mailbox with the settings of `m` was offered the images of those events that `m`
wants. -/
structure Relays (m : Mailbox) (i : Nat) (events : List Event) (b : Bus) : Prop where
  lawful : b.Lawful
  box : ∃ box, b.boxes[i]? = some box ∧ box.categories = m.categories ∧ box.strand = m.strand ∧
    (i ∈ b.listeners → box.offered = (events.filter m.wants).map Event.image)

variable {m : Mailbox} {i : Nat} {events : List Event} {b : Bus}

/-- A mailbox stays listed only if it was. -/
lemma listed_before {c : Change} {box : Mailbox} (hbox : b.boxes[i]? = some box)
    (hi : i ∈ (b.after c).listeners) : i ∈ b.listeners := by
  rcases b.after_frame c with ⟨n, rfl⟩ | ⟨-, hlisteners⟩
  · have hlt : i < b.boxes.size := (Array.getElem?_eq_some_iff.1 hbox).1
    have hmem : i ∈ b.listeners ∨ i = b.boxes.size := by simpa [after, subscribe] using hi
    exact hmem.resolve_right (Nat.ne_of_lt hlt)
  · exact hlisteners.subset hi

lemma Relays.quietly (h : b.Relays m i events) {c : Change} (hc : c.IsSound) (hq : c.IsQuiet) :
    (b.after c).Relays m i events := by
  obtain ⟨box, hbox, hcategories, hstrand, hoffered⟩ := h.box
  obtain ⟨box', hbox', hchange⟩ := after_box h.lawful.distinct c hbox
  have hsame : box'.categories = box.categories ∧ box'.strand = box.strand ∧
      box'.offered = box.offered := by
    rcases hchange with rfl | ⟨e, -, rfl | ⟨rfl, -⟩⟩ | ⟨e, htake, -⟩
    · exact ⟨rfl, rfl, rfl⟩
    · exact hq.elim
    · exact hq.elim
    · obtain ⟨-, hfollows, -, -, hsame⟩ := (h.lawful.balanced i box hbox).take htake
      exact ⟨hfollows.categories, hfollows.strand, hsame⟩
  refine ⟨h.lawful.after hc, box', hbox', hsame.1.trans hcategories, hsame.2.1.trans hstrand, ?_⟩
  intro hi
  rw [hsame.2.2]
  exact hoffered (listed_before hbox hi)

/-- Publishing the image of an event relays it. -/
lemma Relays.publish (h : b.Relays m i events) {e : Event} (he : e.what.IsOwn) :
    (b.deliver e.image).Relays m i (events ++ [e]) := by
  obtain ⟨box, hbox, hcategories, hstrand, hoffered⟩ := h.box
  have hlawful : (b.after (.published e.image)).Lawful := h.lawful.after trivial
  have hmatches : box.Matches e.image ↔ m.wants e = true := by
    rw [← Mailbox.accepts_iff, Mailbox.accepts_image box he]
    unfold Mailbox.wants
    rw [hcategories, hstrand]
  obtain ⟨haccepted, hpassed⟩ := deliver_boxes h.lawful.distinct e.image i hbox
  by_cases hwanted : i ∈ b.listeners ∧ box.Matches e.image
  · refine ⟨hlawful, box.offer e.image, haccepted hwanted, hcategories, hstrand, fun _ => ?_⟩
    have hw : m.wants e = true := hmatches.1 hwanted.2
    change box.offered ++ [e.image] = _
    simp [hoffered hwanted.1, List.filter_append, hw]
  · refine ⟨hlawful, box, hpassed hwanted, hcategories, hstrand, fun hi => ?_⟩
    have hopen : i ∈ b.listeners := listed_before (c := .published e.image) hbox hi
    have hw : ¬ m.wants e = true := fun hw => hwanted ⟨hopen, hmatches.2 hw⟩
    simp [hoffered hopen, List.filter_append, hw]

lemma lasts_relays (m : Mailbox) (i : Nat) : Lasts (Relays m i) :=
  ⟨fun h hc hq => h.quietly hc hq, fun h he => h.publish he⟩

/-- A mailbox that is just opened has missed nothing if nothing was told. -/
lemma relays_opened (hb : b.Lawful) (hm : m.Balanced) (hnew : m.offered = []) :
    (b.after (.opened m)).Relays m b.boxes.size [] :=
  ⟨hb.after hm, m, by simp [after, subscribe], rfl, rfl, fun _ => hnew⟩

/-- A mailbox that has not overflowed has lost nothing of what it was offered. -/
lemma Relays.received (h : b.Relays m i events) {box : Mailbox} (hbox : b.boxes[i]? = some box)
    (hi : i ∈ b.listeners) (hdropped : box.dropped = 0) :
    box.handed ++ box.queue = (events.filter m.wants).map Event.image := by
  obtain ⟨box', hbox', -, -, hoffered⟩ := h.box
  cases hbox.symm.trans hbox'
  have hbalanced := h.lawful.balanced i box hbox
  rw [← hoffered hi]
  refine hbalanced.ordered.eq_of_length ?_
  rw [List.length_append, hbalanced.conserved, hdropped, Nat.add_zero]

end Bus

namespace PostOffice

open Act (Upholds)

variable {μ : Type} {handlers : Handlers μ} {J : Bus → Prop}

/-- Handlers that do nothing leave a property alone that taking events out of mailboxes keeps. -/
lemma handOne_upholds (hquiet : ∀ i e memory, (handlers i e memory).1 = .done)
    (hJ : ∀ b i, J b → J (b.after (.taken i))) (i : Nat) :
    Upholds (fun p : PostOffice μ => J p.bus) (handOne handlers i) := by
  refine Upholds.get_bind fun p hp => ?_
  have htaken : J (((p.bus.take i).map (·.2)).getD p.bus) := hJ p.bus i hp
  rcases htake : p.bus.take i with _ | ⟨e, bus⟩
  · exact hp
  · rw [htake] at htaken
    have hreact : react (handlers i e p.memory).1 = (pure () : Act (PostOffice μ) Unit) := by
      rw [hquiet]
      rfl
    dsimp only
    rw [hreact]
    exact htaken

lemma pump_upholds (hquiet : ∀ i e memory, (handlers i e memory).1 = .done)
    (hJ : ∀ b i, J b → J (b.after (.taken i))) (rounds : Nat) :
    Upholds (fun p : PostOffice μ => J p.bus) (pump handlers rounds) := by
  have hall (boxes : List Nat) :
      Upholds (fun p : PostOffice μ => J p.bus) (drainAll handlers rounds boxes) := by
    induction boxes with
    | nil => exact .pure _
    | cons i rest ih =>
      refine Upholds.bind ((handOne_upholds hquiet hJ i).repeatWhile none rounds 0) fun n => ?_
      exact ih.reply
  exact Upholds.get_bind fun p hp => hall _ p hp

end PostOffice

/-- The event that a deed tells. -/
def Deed.event? : Deed D → Option Event
  | emitted e => some e
  | _ => none

/-- Announcing an event of the host's own. -/
def Request.IsEmit : Request D → Prop
  | emit .. => True
  | _ => False

namespace World

variable {D : Dialect}

/-- The complete log of an engine: every event it ever told, in order. -/
@[simp] def events (w : World D) : List Event := Deed.tell Deed.event? w.deeds

lemma events_recorded (w : World D) {d : Deed D} (hd : d.happening? = none) :
    (w.recorded d).events = w.events := by
  cases d with
  | emitted => cases hd
  | _ => simp [Deed.event?]

/-- Every event on the log is the engine's own, and the bus goes with the log. -/
structure Posts (J : List Event → Bus → Prop) (w : World D) : Prop where
  own : ∀ e ∈ w.events, e.what.IsOwn
  bus : ∃ b, w.bus = some b ∧ J w.events b

variable {h : Host D} {P : D.Memory → Prop} {J : List Event → Bus → Prop}

lemma Posts.of_same {w v : World D} (hw : w.Posts J) (hevents : v.events = w.events)
    (hbus : v.bus = w.bus) : v.Posts J := by
  constructor
  · rw [hevents]
    exact hw.own
  · rw [hevents, hbus]
    exact hw.bus

/-- An event of the engine's own goes on the log and to the bus. -/
lemma Posts.emitted (hJ : Bus.Lasts J) {w : World D} (hw : w.Posts J) {what : Happening}
    (hwhat : what.IsOwn) : (w.emitted what).Posts J := by
  obtain ⟨b, hb, hposts⟩ := hw.bus
  have hevents : (w.emitted what).events = w.events ++ [w.event what] := by simp [Deed.event?]
  have hbus : (w.emitted what).bus = some (b.deliver (w.event what).image) := by
    unfold World.emitted
    rw [hb, Event.read_image (w.event what) hwhat]
    rfl
  constructor
  · rw [hevents]
    intro e he
    rcases List.mem_append.1 he with he | he
    · exact hw.own e he
    · rw [List.mem_singleton.1 he]
      exact hwhat
  · rw [hevents]
    exact ⟨_, hbus, hJ.publish hposts hwhat⟩

lemma Posts.pump (hJ : Bus.Lasts J) (rounds : Nat) :
    Act.Upholds (fun w => w.Posts J ∧ P w.memory) (World.pump (D := D) rounds) := by
  refine Act.Upholds.get_bind fun w hw => ?_
  obtain ⟨b, hb, hposts⟩ := hw.1.bus
  rw [hb]
  let quiet : Handlers Unit := fun _ _ m => (.done, m)
  have hquiet : ∀ i e m, (quiet i e m).1 = .done := fun _ _ _ => rfl
  have hpump := PostOffice.pump_upholds (J := J w.events) hquiet
    (fun b j hj => hJ.quietly (c := .taken j) hj trivial trivial) rounds { bus := b, memory := () } hposts
  exact ⟨⟨hw.1.own, _, rfl, hpump⟩, hw.2⟩

/-- What becomes of the bus has nothing to do with how the engine is driven. -/
lemma Posts.blind (hJ : Bus.Lasts J) (hinstall : ∀ {m} n contents, P m → P (h.install m n contents)) :
    Blind h P (fun r => ¬ r.IsEmit) fun w => w.Posts J ∧ P w.memory where
  memory hw := hw.2
  stored hw hm := ⟨hw.1.of_same rfl rfl, hm⟩
  noted _ _ _ hw := ⟨hw.1.of_same rfl rfl, hw.2⟩
  recorded hd hw := ⟨hw.1.of_same (events_recorded _ hd) rfl, hw.2⟩
  told hwhat hw := ⟨hw.1.emitted hJ hwhat, hw.2⟩
  announced _ _ _ hp := absurd trivial hp
  altered _ hw := ⟨hw.1.of_same rfl rfl, hw.2⟩
  atClock _ hw := ⟨hw.1.of_same rfl rfl, hw.2⟩
  pumped := Posts.pump hJ
  install := hinstall

end World

namespace Roster

/-- A run that was never started has nothing to tell. -/
structure Unborn (r : Roster) : Prop where
  started : r.started = false
  phase : r.phase = .idle
  log : r.log = []

/-- A run that was started has left its first phase. -/
structure Born (r : Roster) : Prop where
  started : r.started = true
  phase : r.phase ≠ .idle

lemma Born.tell {r : Roster} (h : r.Born) (what : Happening) : (r.told what).Born := ⟨h.started, h.phase⟩

lemma closed_born (empty : Prop) : Closed empty (fun _ => False) Born where
  change {r r'} h hc := by
    cases hc with
    | enter new reason hidle hnew hmay => exact ⟨h.started, World.ne_idle_of_mayFollow hmay⟩
    | startEmpty reason hs _ => simp [h.started] at hs
    | start reason label hs => simp [h.started] at hs
    | spawn => exact ⟨h.started, h.phase⟩
    | retire => exact ⟨h.started, h.phase⟩
    | finish reason hs hmay => exact ⟨h.started, fun hidle => by cases hidle⟩
    | pass what hw => exact h.tell what
    | step => exact h.tell _
  started_iff h := ⟨fun _ => h.phase, fun _ => h.started⟩
  timely _ _ := id

end Roster

namespace World

variable {D : Dialect} {h : Host D}

/-- A run that was started stays so. -/
lemma serve_born (h : Host D) (rounds depth : Nat) (r : Request D) :
    Keeps (fun _ => True) Roster.Born (serve h rounds depth r) := by
  refine serve_keeps_of (Roster.closed_born h.IsEmpty) h.asks_anything rounds depth
    (fun _ => trivial) (fun serve r _ hr => ?_) trivial
  cases r with
  | emit type strand data =>
    refine Keeps.bind (.ofExcept _) fun what => Keeps.bind (fun w hw => ?_) fun _ => Keeps.pure _
    obtain ⟨o, ho, -⟩ := emit_plain w what
    refine Act.ensures_of_outcome ho ⟨?_, trivial⟩
    rw [roster_emitted]
    exact hw.roster.tell what
  | forget position =>
    refine Keeps.bind (fun w hw => ⟨?_, trivial⟩) fun _ => Keeps.pure _
    have hborn := hw.roster
    unfold forget
    rw [modifyEngine_outcome]
    dsimp only [altered]
    split_ifs <;> exact ⟨hborn.started, hborn.phase⟩
  | _ => exact absurd trivial hr

section Before

variable {w : World D} (hw : w.roster.Unborn)

include hw

lemma refusal_unborn (operation : String) : w.engine.refusal operation = some (.notStarted operation) := by
  have hs : w.engine.started = false := hw.started
  simp [Engine.refusal, hs]

/-- What only makes sense for a started run is refused to another. -/
lemma requireLive_unborn (operation : String) (f : Unit → Act (World D) α) :
    (requireLive operation >>= f).Ensures w fun _ v => v.roster.Born ∨ v.roster.Unborn := by
  unfold Act.Ensures
  rw [requireLive_bind, refusal_unborn hw]
  exact .inr hw

lemma Keeps.unborn {a : Act (World D) α} (ha : Keeps (fun _ => True) (· = w.roster) a) :
    a.Ensures w fun _ v => v.roster.Born ∨ v.roster.Unborn :=
  (ha w ⟨rfl, trivial⟩).mono fun _ _ hv => .inr (hv.roster ▸ hw)

/-- Even a scheduler that fires the first step at once fires it before the start. -/
lemma start_unborn {fire : Ticket → Act (World D) Unit}
    (hfire : ∀ t, Keeps (fun _ => True) (· = w.roster) (fire t)) (entry : Option D.Instr) :
    (start h fire entry).Ensures w fun _ v => v.roster.Born ∨ v.roster.Unborn := by
  have hs : w.engine.started = false := hw.started
  have harm := arm_keeps h.scheduler hfire .zero (w.sought h entry) ⟨roster_sought w h entry, trivial⟩
  refine start_ensures hs (fun _ _ => .inr ?_) harm (fun _ _ hv => .inr (hv.roster ▸ hw))
    fun cursor contents v _ hv => ⟨(congrArg Roster.phase hv.roster).trans hw.phase, .inl ?_⟩
  · rw [roster_sought]
    exact hw
  · rw [roster_begun]
    cases cursor <;> exact ⟨rfl, nofun⟩

/-- Before the start only the start itself tells anything. -/
lemma serve_unborn (rounds depth : Nat) {r : Request D} (hr : ¬ r.IsEmit) :
    (serve h rounds depth r).Ensures w fun _ v => v.roster.Born ∨ v.roster.Unborn := by
  have hphase : w.roster.phase ≠ .running := by
    rw [hw.phase]
    simp
  have hstill (depth : Nat) (t : Ticket) :
      Keeps (fun _ => True) (· = w.roster) (serve h rounds depth (.fire t)) :=
    fire_still h rounds depth t hphase
  cases depth with
  | zero => exact .inr hw
  | succ depth =>
    have hfire (t : Ticket) : Keeps (fun _ => True) (· = w.roster) (discard (serve h rounds depth (.fire t))) :=
      (hstill depth t).discard
    have hnext := runNext_keeps h.scheduler hfire
    cases r with
    | start entry => exact (start_unborn hw hfire entry).reply
    | pause => exact (requireLive_unborn hw _ _).reply
    | resume => exact (requireLive_unborn hw _ _).reply
    | spawn entry scope => exact (requireLive_unborn hw _ _).bind (fun _ _ hv => hv) fun _ _ hv => hv
    | step => exact (requireLive_unborn hw _ _).reply
    | rate given => exact Keeps.unborn hw ((setRate_keeps given).bind fun _ => .pure _)
    | terminate farewell =>
      have hs : w.engine.started = false := hw.started
      have hout : (serve h rounds (depth + 1) (.terminate farewell)).outcome w =
          (.error (.notStarted "terminate"), w) := by
        simp [serve, perform, terminate, hs]
      exact Act.ensures_of_outcome hout (.inr hw)
    | breakpoints on =>
      exact Keeps.unborn hw ((keeps_modifyEngine fun _ => rfl).bind fun _ => .pure _)
    | info => exact .inr hw
    | current => exact .inr hw
    | events limit => exact .inr hw
    | emit type strand data => exact absurd trivial hr
    | fire t => exact Keeps.unborn hw (hstill (depth + 1) t)
    | fireIssued n =>
      refine Keeps.unborn hw (Keeps.get_bind fun v hv => ?_)
      rcases h.scheduler.issued v.clock n with _ | t
      · exact hv
      · exact hstill (depth + 1) t v hv
    | runNext => exact Keeps.unborn hw (hnext.bind fun _ => .pure _)
    | runAll limit =>
      refine Keeps.unborn hw (Keeps.bind (fun v hv => ?_) fun _ => .pure _)
      exact Act.repeatWhile_ensures (fun u hu => hnext u hu) limit rounds 0 hv
    | refuse on => exact Keeps.unborn hw (.of_same fun _ => ⟨rfl, rfl⟩)
    | pump => exact Keeps.unborn hw ((pump_keeps rounds).bind fun _ => .pure _)
    | timeSlice n =>
      exact Keeps.unborn hw ((keeps_modifyEngine fun _ => rfl).bind fun _ => .pure _)
    | forget position =>
      refine Act.Ensures.reply ?_
      unfold Act.Ensures forget
      rw [modifyEngine_outcome]
      dsimp only [altered]
      split_ifs <;> exact .inr ⟨hw.started, hw.phase, hw.log⟩
    | blank sid =>
      exact Keeps.unborn hw ((keeps_modifyEngine fun v => roster_movedTo v sid none).bind fun _ => .pure _)

end Before

end World

/-- What may happen around an engine: a move, a change of the bus, or the passing of time. -/
inductive Occasion (D : Dialect) where
  | move (m : Move D)
  | bus (c : Bus.Change)
  | time (wall : Binary64)

/-- An occasion at which nobody but the engine publishes. -/
def Occasion.IsPrivate : Occasion D → Prop
  | move (.operate r) => ¬ r.IsEmit
  | move _ | time _ => True
  | bus c => c.IsSound ∧ c.IsQuiet

namespace World

variable {D : Dialect}

section Occasions

variable (h : Host D) (rounds depth : Nat)

/-- The world after an occasion. -/
def past (w : World D) : Occasion D → World D
  | .move m => w.after h rounds depth m
  | .bus c => { w with bus := w.bus.map (·.after c) }
  | .time wall => { w with wall }

/-- The world after a sequence of occasions. -/
def lived (w : World D) (os : List (Occasion D)) : World D := os.foldl (past h rounds depth) w

end Occasions

variable {h : Host D} {P : D.Memory → Prop} {J : List Event → Bus → Prop} {w : World D}

/-- What an occasion leaves of a world before the start. -/
lemma past_unborn (rounds depth : Nat) {o : Occasion D} (ho : o.IsPrivate)
    (hw : w.roster.Born ∨ w.roster.Unborn) :
    (w.past h rounds depth o).roster.Born ∨ (w.past h rounds depth o).roster.Unborn := by
  have hserve (r : Request D) (hr : ¬ r.IsEmit) :
      (serve h rounds (depth + 1) r).Ensures w fun _ v => v.roster.Born ∨ v.roster.Unborn := by
    rcases hw with hborn | hunborn
    · exact (serve_born h rounds (depth + 1) r w ⟨hborn, trivial⟩).mono fun _ _ hv => .inl hv.roster
    · exact serve_unborn hunborn rounds (depth + 1) hr
  cases o with
  | move m =>
    cases m with
    | operate r => exact hserve r ho
    | fire t => exact hserve (.fire t) id
    | drift clock => exact hw
  | bus c => exact hw
  | time wall => exact hw

/-- What an occasion leaves of a bus that goes with the log. -/
lemma past_posts (hh : h.Asks P fun r => ¬ r.IsEmit) (hJ : Bus.Lasts J) (rounds depth : Nat)
    {o : Occasion D} (ho : o.IsPrivate) (hw : w.Posts J ∧ P w.memory) :
    (w.past h rounds depth o).Posts J ∧ P (w.past h rounds depth o).memory := by
  have hserve := (Posts.blind hJ hh.install).conduct.serve hh rounds (depth + 1)
  cases o with
  | move m =>
    cases m with
    | operate r => exact hserve r ho w hw
    | fire t => exact hserve (.fire t) id w hw
    | drift clock => exact ⟨hw.1.of_same rfl rfl, hw.2⟩
  | bus c =>
    obtain ⟨b, hb, hposts⟩ := hw.1.bus
    refine ⟨⟨hw.1.own, b.after c, ?_, hJ.quietly hposts ho.1 ho.2⟩, hw.2⟩
    simp [past, hb]
  | time wall => exact ⟨hw.1.of_same rfl rfl, hw.2⟩

lemma lived_unborn (rounds depth : Nat) {os : List (Occasion D)} (hos : ∀ o ∈ os, o.IsPrivate)
    (hw : w.roster.Born ∨ w.roster.Unborn) :
    (w.lived h rounds depth os).roster.Born ∨ (w.lived h rounds depth os).roster.Unborn := by
  induction os generalizing w with
  | nil => exact hw
  | cons o os ih =>
    obtain ⟨ho, hrest⟩ := List.forall_mem_cons.1 hos
    exact ih hrest (past_unborn rounds depth ho hw)

lemma lived_posts (hh : h.Asks P fun r => ¬ r.IsEmit) (hJ : Bus.Lasts J) (rounds depth : Nat)
    {os : List (Occasion D)} (hos : ∀ o ∈ os, o.IsPrivate) (hw : w.Posts J ∧ P w.memory) :
    (w.lived h rounds depth os).Posts J ∧ P (w.lived h rounds depth os).memory := by
  induction os generalizing w with
  | nil => exact hw
  | cons o os ih =>
    obtain ⟨ho, hrest⟩ := List.forall_mem_cons.1 hos
    exact ih hrest (past_posts hh hJ rounds depth ho hw)

lemma log_eq_map (w : World D) : w.log = w.events.map Event.what := by
  unfold log events Deed.tell
  rw [List.map_filterMap]
  congr 1
  funext d
  cases d <;> rfl

lemma Fresh.unborn {fit : D.Clock → Prop} (hw : Fresh fit P w) : w.roster.Unborn := by
  obtain ⟨run, settings, hmake⟩ := hw.engine
  constructor <;> simp [roster, log, hw.deeds, Engine.eq_of_make hmake]

/-- End to end: every event of an engine reads as an image that keeps all it tells, and a mailbox that was
opened before the start and lost nothing holds, after what it handed out, the images of exactly those
events that its filter wants, in the order in which they were told. -/
theorem events_delivered (hh : h.Asks P fun r => ¬ r.IsEmit) (rounds depth : Nat)
    (hw : Fresh (fun _ => True) P w) {b : Bus} (hb : w.bus = some b) (hlawful : b.Lawful)
    {before after : List (Occasion D)} (hbefore : ∀ o ∈ before, o.IsPrivate)
    (hafter : ∀ o ∈ after, o.IsPrivate)
    (hunstarted : (w.lived h rounds depth before).engine.started = false)
    {categories strand size : Value} {m : Mailbox} (hm : Mailbox.make categories strand size = .ok m) :
    let u := w.lived h rounds depth before
    let v := u.lived h rounds depth (.bus (.opened m) :: after)
    (∀ e ∈ v.events, TypedEvent.read e.table = .ok e.image ∧ e.Kept e.image) ∧
      ∃ old new box, u.bus = some old ∧ v.bus = some new ∧ new.boxes[old.boxes.size]? = some box ∧
        (old.boxes.size ∈ new.listeners → box.dropped = 0 →
          box.handed ++ box.queue = (v.events.filter m.wants).map Event.image) := by
  intro u v
  have hfresh : w.Posts (fun _ b => b.Lawful) := by
    refine ⟨?_, b, hb, hlawful⟩
    simp [hw.deeds]
  have hu : u.Posts (fun _ b => b.Lawful) ∧ P u.memory :=
    lived_posts hh Bus.lasts_lawful rounds depth hbefore ⟨hfresh, hw.memory⟩
  have hsilent : u.events = [] := by
    have hlog : u.log = [] := by
      rcases lived_unborn (h := h) rounds depth hbefore (.inr hw.unborn) with hborn | hunborn
      · have hstarted : u.engine.started = true := hborn.started
        simp [u, hunstarted] at hstarted
      · exact hunborn.log
    rw [log_eq_map] at hlog
    exact List.map_eq_nil_iff.1 hlog
  obtain ⟨old, hold, hposted⟩ := hu.1.bus
  have hopened : (u.past h rounds depth (.bus (.opened m))).Posts (Bus.Relays m old.boxes.size) := by
    have hrelays := Bus.relays_opened hposted (Mailbox.make_balanced hm).1 (Mailbox.offered_of_make hm)
    refine ⟨hu.1.own, old.after (.opened m), by simp [past, hold], ?_⟩
    have hevents : (u.past h rounds depth (.bus (.opened m))).events = [] := hsilent
    rwa [hevents]
  have hv : v.Posts (Bus.Relays m old.boxes.size) :=
    (lived_posts hh (Bus.lasts_relays m _) rounds depth hafter ⟨hopened, hu.2⟩).1
  refine ⟨fun e he => ⟨e.read_image (hv.own e he), e.image_kept (hv.own e he)⟩, ?_⟩
  obtain ⟨new, hnew, hrelays⟩ := hv.bus
  obtain ⟨box, hbox, -⟩ := hrelays.box
  exact ⟨old, new, box, hold, hnew, hbox, fun hopen hdropped => hrelays.received hbox hopen hdropped⟩

/-- A block that takes a step in the middle of itself tells of two steps. A mailbox for the steps of strand
0, drained once, has handed out the first and holds the second. -/
theorem nesting_delivered :
    let r := Block.nestingRun
    let w := { r.world with bus := some {} }
    let m : Mailbox := { categories := some [.str "step"], strand := .int 0, capacity := 4 }
    let u := w.lived r.host 1 5 [.time (.finite false 3), .move (.operate (.rate none))]
    let v := u.lived r.host 1 5 [.bus (.opened m), .move (.operate (.start none)), .move (.fire ⟨0, 1⟩),
      .bus (.taken 0)]
    u.engine.started = false ∧
      (∀ e ∈ v.events, TypedEvent.read e.table = .ok e.image ∧ e.Kept e.image) ∧
      ∃ box, v.bus.bind (·.boxes[0]?) = some box ∧
        box.handed ++ box.queue = (v.events.filter m.wants).map Event.image ∧
        box.handed.map (·.header.seq) = [4] ∧ box.queue.map (·.header.seq) = [7] := by
  intro r w m u v
  have hw : Fresh (fun _ => True) Block.Memory.Calm r.world := Block.nestingRun_fresh trivial
  have hasks : r.host.Asks Block.Memory.Calm fun r => ¬ r.IsEmit :=
    (Block.nesting_asks r.scope).weaken fun r hr hemit => by cases r <;> trivial
  have hmake : Mailbox.make (.list [.str "step"]) (.int 0) (.int 4) = .ok m := rfl
  have hbefore : ∀ o ∈ ([.time (.finite false 3), .move (.operate (.rate none))] :
      List (Occasion Block.dialect)), o.IsPrivate := by simp [Occasion.IsPrivate, Request.IsEmit]
  have hafter : ∀ o ∈ ([.move (.operate (.start none)), .move (.fire ⟨0, 1⟩), .bus (.taken 0)] :
      List (Occasion Block.dialect)), o.IsPrivate := by
    simp [Occasion.IsPrivate, Request.IsEmit, Bus.Change.IsSound, Bus.Change.IsQuiet]
  have hstarted : u.engine.started = false := by decide +kernel
  obtain ⟨hread, old, new, box, hold, hnew, hbox, hreceived⟩ :=
    events_delivered hasks 1 5 (w := w) ⟨hw.engine, hw.deeds, hw.clock, hw.memory⟩ rfl Bus.lawful_empty
      hbefore hafter hstarted hmake
  have hsize : old.boxes.size = 0 := by
    have hu : u.bus.map (·.boxes.size) = some 0 := by decide +kernel
    simpa [u, hold] using hu
  rw [hsize] at hbox hreceived
  have hv : v.bus = some new := hnew
  have hbox' : v.bus.bind (·.boxes[0]?) = some box := by
    rw [hv]
    exact hbox
  have hopen : 0 ∈ new.listeners := by
    have hlisted : v.bus.map (·.listeners) = some [0] := by decide +kernel
    rw [hv] at hlisted
    simp [Option.some.inj hlisted]
  have hcounts : (v.bus.bind (·.boxes[0]?)).map (fun b =>
      (b.dropped, b.handed.map (·.header.seq), b.queue.map (·.header.seq))) = some (0, [4], [7]) := by
    decide +kernel
  rw [hbox', Option.map_some, Option.some.injEq, Prod.mk.injEq, Prod.mk.injEq] at hcounts
  obtain ⟨hdropped, hhanded, hqueue⟩ := hcounts
  exact ⟨hstarted, hread, box, hbox', hreceived hopen hdropped, hhanded, hqueue⟩

end World

end Loom
