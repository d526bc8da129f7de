import Loom.Block.Run
import Loom.Proofs.Interleaving
import Loom.Proofs.Roster

/-! Programs of blocks as tame hosts. An orderly program's blocks ask for any operation but a step and
raise faults of one kind or another, such as ordinary ones or ones that can be worded; its breakpoints are
marked on the blocks, or decided by a predicate that just answers. Running such a program never makes it
disorderly. -/
namespace Loom.Block

/-- A predicate that just answers. -/
def Predicate.IsCalm : Predicate → Prop
  | labels _ | constant _ => True
  | raise _ | after .. => False

/-- A memory in which breakpoints are a matter of looking. -/
def Memory.Calm (m : Memory) : Prop := ∀ q, m.predicate = some q → q.IsCalm

/-- The commands that a block of an orderly program may give. -/
def Command.IsOrderly : Command → Prop
  | step | fire _ | runNext | runAll _ | refuse _ | pump | timeSlice _ | drop _ | cut _ => False
  | predicate q => ∀ q', q = some q' → q'.IsCalm
  | _ => True

mutual

/-- The actions that a block of an orderly program may take, if the faults it raises are of `q`. -/
def Action.IsOrderly (q : Fault → Prop) : Action → Prop
  | .raise f => q f
  | .whenBelow _ _ actions => actionsOrderly q actions
  | .call c => c.IsOrderly
  | .attempt c => c.IsOrderly
  | _ => True

def actionsOrderly (q : Fault → Prop) : List Action → Prop
  | [] => True
  | a :: rest => a.IsOrderly q ∧ actionsOrderly q rest

end

/-- Every block acts orderly, and asking for a successor fails with faults of `q` only. -/
def Program.IsOrderly (q : Fault → Prop) (p : Program) : Prop :=
  ∀ n ∈ p.nodes, actionsOrderly q n.actions ∧ ∀ f, n.successorFault = some f → q f

namespace Memory

/-- A memory that differs from another in what scopes hold, not in its links or its predicate. -/
structure Framed (m m' : Memory) : Prop where
  links : m'.links = m.links
  predicate : m'.predicate = m.predicate

lemma keep_framed (m : Memory) (v : Value) : m.Framed (m.keep v).2 := by
  cases v <;> exact ⟨rfl, rfl⟩

lemma put_framed (m : Memory) (n : Nat) (name : String) (v : Value) : m.Framed (m.put n name v) :=
  ⟨(keep_framed m v).links, (keep_framed m v).predicate⟩

@[simp] lemma put_links (m : Memory) (n : Nat) (name : String) (v : Value) :
    (m.put n name v).links = m.links := (put_framed m n name v).links

@[simp] lemma put_predicate (m : Memory) (n : Nat) (name : String) (v : Value) :
    (m.put n name v).predicate = m.predicate := (put_framed m n name v).predicate

lemma make_framed (m : Memory) (t : Table) : m.Framed (m.make t).2 := by
  suffices hfold : ∀ s : Scope, m.Framed (t.foldl (fun x kv =>
      (x.1 ++ [(kv.1, (x.2.keep kv.2).1)], (x.2.keep kv.2).2)) (s, m)).2 from hfold []
  induction t generalizing m with
  | nil => exact fun s => ⟨rfl, rfl⟩
  | cons kv t ih =>
    intro s
    have hkeep := keep_framed m kv.2
    have hrest := ih (m.keep kv.2).2 (s ++ [(kv.1, (m.keep kv.2).1)])
    exact ⟨hrest.links.trans hkeep.links, hrest.predicate.trans hkeep.predicate⟩

lemma install_framed (m : Memory) (n : Nat) (contents : Contents) : m.Framed (m.install n contents) := by
  cases contents with
  | copied s => exact ⟨rfl, rfl⟩
  | made t => exact ⟨(make_framed m t).links, (make_framed m t).predicate⟩

lemma Calm.of_eq {m m' : Memory} (hm : m.Calm) (h : m'.predicate = m.predicate) : m'.Calm := by
  unfold Calm
  rw [h]
  exact hm

end Memory

lemma addInt_plain (v : Value) (n : Int) : FailsPlainly (v.addInt n) := by
  fun_cases Value.addInt v n
  · exact .ok _
  · exact .ok _
  · exact .ok _
  · exact .error ⟨rfl, rfl, _, rfl⟩
  · exact .error ⟨rfl, rfl, _, rfl⟩
  · exact .error ⟨rfl, rfl, _, rfl⟩
  · exact .error ⟨rfl, rfl, _, rfl⟩

/-- A new memory in which breakpoints are as before, or a plain fault. -/
def Mild (m : Memory) (r : Except Fault Memory) : Prop :=
  FailsPlainly r ∧ ∀ m', r = .ok m' → m'.predicate = m.predicate

namespace Mild

lemma ok {m m' : Memory} (h : m'.predicate = m.predicate) : Mild m (.ok m') := by
  refine ⟨.ok _, fun m'' h' => ?_⟩
  cases h'
  exact h

lemma error {m : Memory} {f : Fault} (h : f.IsPlain) : Mild m (.error f) :=
  ⟨.error h, fun m' h' => by cases h'⟩

lemma bind {m : Memory} {x : Except Fault α} {k : α → Except Fault Memory} (hx : FailsPlainly x)
    (hk : ∀ a, Mild m (k a)) : Mild m (x >>= k) := by
  cases x with
  | error f => exact .error (hx f rfl)
  | ok a => exact hk a

lemma chain {m : Memory} {x : Except Fault Memory} {k : Memory → Except Fault Memory} (hx : Mild m x)
    (hk : ∀ m', m'.predicate = m.predicate → Mild m (k m')) : Mild m (x >>= k) := by
  cases x with
  | error f => exact .error (hx.1 f rfl)
  | ok m' => exact hk m' (hx.2 m' rfl)

lemma heeds {f : Memory → Except Fault Memory} (hf : ∀ m, Mild m (f m))
    {p : Request dialect → Prop} {q : Fault → Prop} (hq : ∀ {e : Fault}, e.IsPlain → q e) :
    (Script.update f : Code Unit).Heeds Memory.Calm p q :=
  .update (fun m m' hm h => hm.of_eq ((hf m).2 m' h)) fun m e _ h => hq ((hf m).1 e h)

end Mild

section Memory

variable (m : Memory) (scope : Nat) (name : String)

lemma mild_log (v : Value) : Mild m (m.log scope v) := by
  unfold Memory.log
  rcases Memory.slot? (m.scope scope) "log" with _ | w | c
  · exact .ok (by simp)
  · exact .error ⟨rfl, rfl, _, rfl⟩
  · exact .ok rfl

lemma mild_logVariable : Mild m (match m.get? scope name with
    | some v => m.log scope v
    | none => .error (.missingKey (.str name))) := by
  rcases m.get? scope name with _ | v
  · exact .error ⟨rfl, rfl, _, rfl⟩
  · exact mild_log m scope v

lemma mild_increase (amount : Int) : Mild m (m.increase scope name amount) := by
  unfold Memory.increase
  rcases m.get? scope name with _ | v
  · exact .error ⟨rfl, rfl, _, rfl⟩
  · exact .bind (addInt_plain v amount) fun u => .ok (by simp)

lemma mild_countUp : Mild m (m.countUp scope name) :=
  .bind (addInt_plain _ 1) fun u => .ok (by simp)

lemma mild_delete : Mild m (m.delete scope name) := by
  unfold Memory.delete
  split_ifs
  · exact .ok rfl
  · exact .error ⟨rfl, rfl, _, rfl⟩

lemma isBelow_plain (bound : Int) : FailsPlainly (m.isBelow scope name bound) := by
  unfold Memory.isBelow Value.ltInt
  rcases ((m.get? scope name).getD (.int 0)).number? with _ | n
  · exact .error ⟨rfl, rfl, _, rfl⟩
  · exact .ok _

end Memory

lemma heeds_showLive {q : Fault → Prop} : showLive.Heeds Memory.Calm Request.IsInner q := by
  refine .ask trivial fun o => ?_
  split
  · exact .modify fun m hm => hm
  · exact .done ()

lemma heeds_showStrand (r : Reply) {q : Fault → Prop} :
    (showStrand r).Heeds Memory.Calm Request.IsInner q := by
  unfold showStrand
  split
  · exact .modify fun m hm => hm
  · exact .done ()

/-- A command has no faults but those of its requests. -/
lemma heeds_command (p : Program) {c : Command} (hc : c.IsOrderly) {q : Fault → Prop} :
    (c.script p).Heeds Memory.Calm Request.IsInner q := by
  cases c with
  | start entry =>
    exact .bind (.request trivial) fun r => .bind heeds_showLive fun _ => .done r
  | spawn entry scope =>
    exact .bind (.request trivial) fun r => .bind (heeds_showStrand r) fun _ => .done r
  | link node target => exact .bind (.modify fun m hm => hm) fun _ => .done _
  | predicate q => exact .bind (.modify fun m _ => hc) fun _ => .done _
  | step | fire | runNext | runAll | refuse | pump | timeSlice | drop | cut => exact hc.elim
  | _ => exact .request trivial

lemma heeds_attempt {P : Memory → Prop} {p : Request dialect → Prop} {q : Fault → Prop} {s : Code α}
    (hs : s.Heeds P p q) : (attempt s).Heeds P p q := by
  induction hs with
  | done a => exact .done _
  | fail hf =>
    unfold attempt
    split_ifs
    · exact .done _
    · exact .fail hf
  | look _ ih => exact .look ih
  | store hm _ ih => exact .store hm ih
  | ask hr _ ih => exact .ask hr ih

mutual

/-- An orderly action asks for no step, and its faults are of `q` as long as plain ones are. -/
theorem heedful_action {q : Fault → Prop} (hq : ∀ {f : Fault}, f.IsPlain → q f) (p : Program)
    (self scope : Nat) (a : Action) (ha : a.IsOrderly q) :
    (a.script p self scope).Heeds Memory.Calm Request.IsInner q := by
  cases a with
  | log v => exact Mild.heeds (fun m => mild_log m scope v) hq
  | logVariable name => exact Mild.heeds (fun m => mild_logVariable m scope name) hq
  | set name v => exact .modify fun m hm => hm.of_eq (by simp)
  | increase name amount => exact Mild.heeds (fun m => mild_increase m scope name amount) hq
  | delete name => exact Mild.heeds (fun m => mild_delete m scope name) hq
  | raise f => exact .fail ha
  | link node target => exact (heeds_command p (c := .link node target) trivial).discard
  | loop name bound target =>
    refine Mild.heeds (fun m => (mild_countUp m scope name).chain fun m' hm' => ?_) hq
    refine .bind (isBelow_plain m' scope name bound) fun goes => ?_
    exact .ok hm'
  | whenBelow name bound actions =>
    refine .look fun m hm => ?_
    rcases hb : m.isBelow scope name bound with f | _ | _
    · exact .fail (hq (isBelow_plain m scope name bound f hb))
    · exact .done ()
    · exact .bind (Mild.heeds (fun m => mild_countUp m scope name) hq) fun _ =>
        heedful_actions hq p self scope actions ha
  | call c => exact (heeds_command p ha).discard
  | attempt c =>
    exact .bind (heeds_attempt (heeds_command p ha)) fun o => Mild.heeds (fun m => mild_log m scope _) hq

theorem heedful_actions {q : Fault → Prop} (hq : ∀ {f : Fault}, f.IsPlain → q f) (p : Program)
    (self scope : Nat) (actions : List Action) (ha : actionsOrderly q actions) :
    (actionsScript p self scope actions).Heeds Memory.Calm Request.IsInner q := by
  cases actions with
  | nil => exact .done ()
  | cons a rest =>
    exact .bind (heedful_action hq p self scope a ha.1) fun _ => heedful_actions hq p self scope rest ha.2

end

lemma quiet_stops (p : Program) (i : Nat) : (stops p i).Quiet Memory.Calm := by
  refine .look fun m hm => ?_
  rcases hq : m.predicate with _ | q
  · exact .done _
  · have hcalm := hm q hq
    cases q with
    | labels names => exact .done _
    | constant v => exact .done _
    | raise f => exact hcalm.elim
    | after c v => exact hcalm.elim

lemma heeds_parting {P : Memory → Prop} (hP : ∀ {m : Memory} endings, P m → P { m with endings })
    {r : Request dialect → Prop} {q : Fault → Prop} (hinfo : r .info) (hend : r (.terminate none))
    (hq : q (.raised .runtime "done failed")) (parting : Parting) :
    (partingScript parting).Heeds P r q := by
  refine .ask hinfo fun o => ?_
  split
  · refine .bind (.modify fun m hm => hP _ hm) fun _ => ?_
    cases parting with
    | record => exact .done _
    | raise => exact .fail (.inl hq)
    | again => exact (Script.Heeds.request hend).discard
  · exact .done ()
  · exact .fail (.inr rfl)

lemma install_calm {m : Memory} (n : Nat) (contents : Contents) (hm : m.Calm) :
    (m.install n contents).Calm := hm.of_eq (Memory.install_framed m n contents).predicate

/-- What the actions of every block heed, the code of the program heeds. -/
lemma heeds_code {p : Program} {P : Memory → Prop} {r : Request dialect → Prop} {q : Fault → Prop}
    (hp : ∀ n ∈ p.nodes, ∀ self scope, (actionsScript p self scope n.actions).Heeds P r q) (s : Scope)
    (i scope : Nat) : ((host p s).code i scope).Heeds P r q := by
  change (actionsScript p i scope (((p.node? i).map (·.actions)).getD [])).Heeds P r q
  rcases hn : p.node? i with _ | n
  · exact .done ()
  · exact hp n (Array.mem_of_getElem? hn) i scope

/-- Looking for a successor fails with the faults of the program's blocks. -/
lemma successor_error {p : Program} {q : Fault → Prop} (hp : p.IsOrderly q) {m : Memory} {i : Nat} {f : Fault}
    (hf : successor p m i = .error f) : q f := by
  unfold successor at hf
  rcases hn : p.node? i with _ | n <;> rw [hn] at hf
  · cases hf
  · rcases hfault : n.successorFault with _ | g <;> simp only [Option.bind_some, hfault] at hf <;> cases hf
    exact (hp n (Array.mem_of_getElem? hn)).2 f hfault

/-- An orderly program whose faults are ordinary is a tame host. -/
theorem host_tame {p : Program} (hp : p.IsOrderly fun f => f.isOrdinary = true) (scope : Scope) :
    (host p scope).Tame Memory.Calm where
  code := heeds_code (fun n hn self scope => heedful_actions Fault.IsPlain.ordinary p self scope n.actions
    (hp n hn).1) scope
  next _ _ _ hf := successor_error hp hf
  breaks := quiet_stops p
  farewell := heeds_parting (fun _ hm => hm) trivial trivial trivial
  install := install_calm

/-- A clockwork refuses a step with a plain fault. -/
lemma clockwork_refuses {c c' : Clockwork} {delay : Binary64} {t : Ticket} {f : Fault}
    (ha : Scheduler.clockwork.arm c delay t = (.error f, c')) : f.IsPlain := by
  simp only [Scheduler.clockwork, Clockwork.arm] at ha
  split at ha
  next hrefusal =>
    cases ha
    unfold Clockwork.refusal at hrefusal
    split at hrefusal
    · split_ifs at hrefusal
      cases hrefusal
      exact ⟨rfl, rfl, _, rfl⟩
    · cases hrefusal
      exact ⟨rfl, rfl, _, rfl⟩
    · cases hrefusal
  next => cases ha

/-- An orderly program whose faults can be worded tells all of them. -/
theorem host_tells {p : Program} (hp : p.IsOrderly Fault.IsTold) (scope : Scope) :
    (host p scope).Tells Memory.Calm where
  code := heeds_code (fun n hn self scope => heedful_actions Fault.IsPlain.told p self scope n.actions
    (hp n hn).1) scope
  next _ _ _ hf := successor_error hp hf
  arm ha := (clockwork_refuses ha).told

/-- A clockwork of any kind but the eager one fires nothing while taking a step. -/
lemma clockwork_defers : Scheduler.clockwork.Defers (·.kind ≠ .eager) where
  later {c delay t a c'} hc ha := by
    simp only [Scheduler.clockwork, Clockwork.arm] at ha
    split at ha
    · cases ha
    · cases ha
      simpa using hc
  arm {c} delay t hc := by
    simp only [Scheduler.clockwork, Clockwork.arm]
    split
    · exact hc
    · exact hc
  cancel {c} n hc := by
    simp only [Scheduler.clockwork, Clockwork.cancel]
    split_ifs
    · exact hc
    · exact hc

lemma clockwork_stays : Scheduler.clockwork.Stays (·.kind ≠ .eager) where
  defers := clockwork_defers
  next {c t c'} hc hnext := by
    simp only [Scheduler.clockwork, Clockwork.next] at hnext
    split_ifs at hnext
    obtain ⟨⟨t, agenda⟩, -, hnext⟩ := Option.map_eq_some_iff.1 hnext
    cases hnext
    exact hc
  refuse _ hc := hc

/-- A run that was set up with a calm predicate is a fresh world. -/
lemma Run.prepare_fresh {p : Program} {settings : Settings} {kind : ClockKind}
    {mailboxes : Option (List MailboxSpec)} {predicate : Option Predicate} {wall : Binary64} {r : Run}
    (hr : prepare p settings kind mailboxes predicate wall = .ok r)
    (hq : ∀ q, predicate = some q → q.IsCalm) {fit : Clockwork → Prop} (hfit : fit { kind }) :
    World.Fresh fit Memory.Calm r.world := by
  unfold prepare at hr
  rcases hbus : mailboxes.mapM openMailboxes with f | bus <;> simp only [hbus] at hr
  · cases hr
  · rcases hengine : Engine.make (D := dialect) 0 settings with f | engine <;>
      simp only [hengine] at hr <;> cases hr
    exact ⟨⟨0, settings, hengine⟩, rfl, hfit, hq⟩

/-- Two blocks in a row: the first pauses its own run and resumes it, the second fails. -/
def restless : Program where
  nodes := #[{ id := "nap", name := .str "nap", actions := [.call .pause, .call .resume] },
    { id := "trip", name := .str "trip", actions := [.raise (.raised .runtime "tripped")] }]
  links := #[some 1, none]
  entry := .program (some 0) []

lemma restless_orderly {q : Fault → Prop} (hq : ∀ {f : Fault}, f.IsPlain → q f) : restless.IsOrderly q := by
  intro n hn
  simp only [restless, List.mem_toArray, List.mem_cons, List.not_mem_nil, or_false] at hn
  rcases hn with rfl | rfl
  · exact ⟨⟨trivial, trivial, trivial⟩, nofun⟩
  · exact ⟨⟨hq ⟨rfl, rfl, _, rfl⟩, trivial⟩, nofun⟩

def restlessRun (kind : ClockKind) : Run where
  program := restless
  scope := []
  world := {
    engine := { breaking := false, rate := .zero, timeSlice := 1, historySize := 1024 }
    clock := { kind }
    memory := { links := restless.links, firstLinks := restless.links } }

lemma restlessRun_prepared (kind : ClockKind) :
    Run.prepare restless {} kind none none .zero = .ok (restlessRun kind) := rfl

lemma restlessRun_fresh (kind : ClockKind) {fit : Clockwork → Prop} (hfit : fit { kind }) :
    World.Fresh fit Memory.Calm (restlessRun kind).world :=
  Run.prepare_fresh (restlessRun_prepared kind) nofun hfit

/-- The restless blocks ask for little. -/
lemma restless_asks (kind : ClockKind) {p : Request dialect → Prop} (hpause : p .pause)
    (hresume : p .resume) (hinfo : p .info) (hend : p (.terminate none)) :
    (restlessRun kind).host.Asks Memory.Calm p where
  code := by
    refine heeds_code (fun n hn self scope => ?_) _
    simp only [restlessRun, restless, List.mem_toArray, List.mem_cons, List.not_mem_nil, or_false] at hn
    rcases hn with rfl | rfl
    · exact .bind (Script.Heeds.request hpause).discard fun _ =>
        .bind (Script.Heeds.request hresume).discard fun _ => .done ()
    · exact .bind (.fail trivial) fun _ => .done ()
  breaks i := (quiet_stops restless i).weaken (fun _ => False.elim) fun _ _ => trivial
  farewell := heeds_parting (fun _ hm => hm) hinfo hend trivial
  install := install_calm

/-- Two blocks in a row: the first pauses its run, sends a further strand to the second and resumes; the
second fails. -/
def unruly : Program where
  nodes := #[{
      id := "fork"
      name := .str "fork"
      actions := [.call .pause, .call (.spawn (some 1) .fresh), .call .resume] },
    { id := "trip", name := .str "trip", actions := [.raise (.raised .runtime "tripped")] }]
  links := #[some 1, none]
  entry := .program (some 0) []

lemma unruly_orderly {q : Fault → Prop} (hq : ∀ {f : Fault}, f.IsPlain → q f) : unruly.IsOrderly q := by
  intro n hn
  simp only [unruly, List.mem_toArray, List.mem_cons, List.not_mem_nil, or_false] at hn
  rcases hn with rfl | rfl
  · exact ⟨⟨trivial, trivial, trivial, trivial⟩, nofun⟩
  · exact ⟨⟨hq ⟨rfl, rfl, _, rfl⟩, trivial⟩, nofun⟩

def unrulyRun (kind : ClockKind) : Run where
  program := unruly
  scope := []
  world := {
    engine := { breaking := false, rate := .zero, timeSlice := 1, historySize := 1024 }
    clock := { kind }
    memory := { links := unruly.links, firstLinks := unruly.links } }

lemma unrulyRun_prepared (kind : ClockKind) :
    Run.prepare unruly {} kind none none .zero = .ok (unrulyRun kind) := rfl

lemma unrulyRun_fresh (kind : ClockKind) {fit : Clockwork → Prop} (hfit : fit { kind }) :
    World.Fresh fit Memory.Calm (unrulyRun kind).world :=
  Run.prepare_fresh (unrulyRun_prepared kind) nofun hfit

/-- One block that pauses its own run and takes a step in the middle of itself, the first time. -/
def nesting : Program where
  nodes := #[{
    id := "nest"
    name := .str "nest"
    actions := [.whenBelow "k" 1 [.call .pause, .call .step]] }]
  links := #[none]
  entry := .program (some 0) []

def nestingRun : Run where
  program := nesting
  scope := []
  world := {
    engine := { breaking := false, rate := .zero, timeSlice := 1, historySize := 1024 }
    clock := { kind := .manual }
    memory := { links := nesting.links, firstLinks := nesting.links } }

lemma nestingRun_prepared : Run.prepare nesting {} .manual none none .zero = .ok nestingRun := rfl

lemma nestingRun_fresh {fit : Clockwork → Prop} (hfit : fit { kind := .manual }) :
    World.Fresh fit Memory.Calm nestingRun.world :=
  Run.prepare_fresh nestingRun_prepared nofun hfit

/-- One block that misses an entry under a number too long to be written, a fault that cannot be worded. -/
def speechless : Program where
  nodes := #[{
    id := "gasp"
    name := .str "gasp"
    actions := [.raise (.missingKey (.int (Nat.pow 10 5000)))] }]
  links := #[none]
  entry := .program (some 0) []

lemma speechless_orderly : speechless.IsOrderly fun f => f.isOrdinary = true := by
  intro n hn
  simp only [speechless, List.mem_toArray, List.mem_cons, List.not_mem_nil, or_false] at hn
  subst hn
  exact ⟨⟨rfl, trivial⟩, nofun⟩

def speechlessRun : Run where
  program := speechless
  scope := []
  world := {
    engine := { breaking := false, rate := .zero, timeSlice := 1, historySize := 1024 }
    clock := { kind := .manual }
    memory := { links := speechless.links, firstLinks := speechless.links } }

lemma speechlessRun_prepared : Run.prepare speechless {} .manual none none .zero = .ok speechlessRun := rfl

/-- One block that fails the first time, after it resumed its run and had the next step fired in the middle of
itself. -/
def overlapping : Program where
  nodes := #[{
    id := "rush"
    name := .str "rush"
    actions := [.whenBelow "k" 1 [.call .resume, .call .runNext, .raise (.raised .value "boom")]] }]
  links := #[none]
  entry := .program (some 0) []

def overlappingRun : Run where
  program := overlapping
  scope := []
  world := {
    engine := { breaking := false, rate := .zero, timeSlice := 1, historySize := 1024 }
    clock := { kind := .manual }
    memory := { links := overlapping.links, firstLinks := overlapping.links } }

lemma overlappingRun_prepared : Run.prepare overlapping {} .manual none none .zero = .ok overlappingRun := rfl

/-- One instruction that returns, and then fails to tell what comes next. -/
def balking : Program where
  nodes := #[{
    id := "balk"
    kind := .custom
    name := .str "balk"
    actions := [.log (.int 1)]
    successorFault := some (.raised .value "boom") }]
  links := #[none]
  entry := .program (some 0) []

def balkingRun : Run where
  program := balking
  scope := []
  world := {
    engine := { breaking := false, rate := .zero, timeSlice := 1, historySize := 1024 }
    clock := { kind := .manual }
    memory := { links := balking.links, firstLinks := balking.links } }

lemma balkingRun_prepared : Run.prepare balking {} .manual none none .zero = .ok balkingRun := rfl

end Loom.Block
