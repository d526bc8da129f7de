import Mathlib.Data.List.Induction
import Loom.Proofs.Mailbox

/-! A dispatcher at work. Between its start and its stop events are published and it pumps, in any
order; stopping pumps once more. A pump serves the open mailboxes one after the other and ends with the
first handler that fails, and the dispatcher ends with it: as long as no pump fails nothing is missed,
and after one that failed nothing is handed out at all, to whichever mailbox. -/
namespace Loom

namespace Mailbox

/-- Hand out the oldest events. -/
def handOut (m : Mailbox) (n : Nat) : Mailbox :=
  { m with queue := m.queue.drop n, handed := m.handed ++ m.queue.take n }

@[simp] lemma handOut_zero (m : Mailbox) : m.handOut 0 = m := by simp [handOut]

lemma handOut_handOut (m : Mailbox) (n k : Nat) : (m.handOut n).handOut k = m.handOut (n + k) := by
  simp [handOut, List.take_add]

/-- Nothing more can be had from a mailbox that handed out all it had. -/
lemma handOut_all (m : Mailbox) (k : Nat) :
    (m.handOut m.queue.length).handOut k = m.handOut m.queue.length := by
  simp [handOut]

lemma take_eq_handOut {m m' : Mailbox} {e : TypedEvent} (h : m.take = some (e, m')) :
    m' = m.handOut 1 ∧ ∃ rest, m.queue = e :: rest := by
  unfold take at h
  rcases hqueue : m.queue with _ | ⟨e, rest⟩ <;> rw [hqueue] at h <;> cases h
  exact ⟨by simp [handOut, hqueue], rest, rfl⟩

end Mailbox

namespace Bus

/-- Mailboxes handed out some of their oldest events, how many depending on the mailbox; nothing else
happened. -/
structure HandsOut (count : Nat → Mailbox → Nat) (b b' : Bus) : Prop where
  boxes : ∀ j : Nat, b'.boxes[j]? = b.boxes[j]?.map fun m => m.handOut (count j m)
  listeners : b'.listeners = b.listeners
  running : b'.running = b.running

lemma handsOut_none {count : Nat → Mailbox → Nat} {b : Bus}
    (h : ∀ (j : Nat) (m : Mailbox), b.boxes[j]? = some m → count j m = 0) : HandsOut count b b := by
  refine ⟨fun j => ?_, rfl, rfl⟩
  rcases hm : b.boxes[j]? with _ | m
  · rfl
  · simp [h j m hm]

/-- Two times in a row. -/
lemma HandsOut.trans {count count' total : Nat → Mailbox → Nat} {b b' b'' : Bus}
    (h : HandsOut count b b') (h' : HandsOut count' b' b'')
    (htotal : ∀ (j : Nat) (m : Mailbox), b.boxes[j]? = some m →
      (m.handOut (count j m)).handOut (count' j (m.handOut (count j m))) = m.handOut (total j m)) :
    HandsOut total b b'' := by
  refine ⟨fun j => ?_, h'.listeners.trans h.listeners, h'.running.trans h.running⟩
  rw [h'.boxes, h.boxes]
  rcases hm : b.boxes[j]? with _ | m
  · rfl
  · simp [htotal j m hm]

lemma handsOut_take {b b' : Bus} {i : Nat} {e : TypedEvent} (h : b.take i = some (e, b')) :
    HandsOut (fun j _ => if j = i then 1 else 0) b b' ∧
      ∃ m rest, b.boxes[i]? = some m ∧ m.queue = e :: rest := by
  obtain ⟨m, m', hm, htake, hb', hboxes⟩ := take_boxes h
  obtain ⟨rfl, rest, hqueue⟩ := Mailbox.take_eq_handOut htake
  refine ⟨⟨fun j => ?_, by rw [hb'], by rw [hb']⟩, m, rest, hm, hqueue⟩
  rw [hboxes]
  by_cases hij : j = i
  · simp [hij, hm]
  · simp [hij]

lemma take_eq_none {b : Bus} {i : Nat} (h : b.take i = none) {m : Mailbox}
    (hm : b.boxes[i]? = some m) : m.queue = [] := by
  rcases hqueue : m.queue with _ | ⟨e, rest⟩
  · rfl
  · simp [take, hm, Mailbox.take, hqueue] at h

/-- No mailbox holds more than a drain can hand out. -/
def Within (rounds : Nat) (b : Bus) : Prop :=
  ∀ (j : Nat) (m : Mailbox), b.boxes[j]? = some m → m.capacity ≤ rounds

lemma within_of_all {rounds : Nat} {b : Bus} (h : ∀ m ∈ b.boxes.toList, m.capacity ≤ rounds) :
    b.Within rounds :=
  fun _ m hm => h m (Array.mem_toList_iff.mpr (Array.mem_of_getElem? hm))

lemma Within.handsOut {rounds : Nat} {count : Nat → Mailbox → Nat} {b b' : Bus} (hb : b.Within rounds)
    (h : HandsOut count b b') : b'.Within rounds := by
  intro j m' hm'
  rw [h.boxes] at hm'
  obtain ⟨m, hm, rfl⟩ := Option.map_eq_some_iff.mp hm'
  exact hb j m hm

lemma deliver_running (b : Bus) (e : TypedEvent) : (b.deliver e).running = b.running :=
  List.foldlRecOn (motive := fun b' : Bus => b'.running = b.running)
    (b.listeners.filter (b.accepts · e)) (fun (b : Bus) i => b.offer i e) rfl fun _ h _ _ => h

/-- Delivering an event changes in a mailbox only what queueing it changes. -/
lemma deliver_keeps {α : Type} {get : Mailbox → α} (hget : ∀ m e, get (m.offer e) = get m) (b : Bus)
    (e : TypedEvent) (j : Nat) : (b.deliver e).boxes[j]?.map get = b.boxes[j]?.map get := by
  refine List.foldlRecOn (motive := fun b' : Bus => b'.boxes[j]?.map get = b.boxes[j]?.map get)
    (b.listeners.filter (b.accepts · e)) (fun (b : Bus) i => b.offer i e) rfl fun b' h i _ => ?_
  rw [offer_boxes, ← h]
  split_ifs
  · rw [Option.map_map]
    exact congrArg (b'.boxes[j]?.map ·) (funext fun m => hget m e)
  · rfl

/-- A bus whose books are right, with these mailboxes open, none of them too large to be drained. -/
structure InOrder (rounds : Nat) (listeners : List Nat) (b : Bus) : Prop where
  lawful : b.Lawful
  within : b.Within rounds
  listeners : b.listeners = listeners

lemma InOrder.switch {rounds : Nat} {listeners : List Nat} {b : Bus} (h : b.InOrder rounds listeners)
    (running : Bool) : ({ b with running } : Bus).InOrder rounds listeners :=
  ⟨⟨h.lawful.balanced, h.lawful.distinct, h.lawful.known⟩, h.within, h.listeners⟩

lemma InOrder.deliver {rounds : Nat} {listeners : List Nat} {b : Bus} (h : b.InOrder rounds listeners)
    (e : TypedEvent) : (b.deliver e).InOrder rounds listeners := by
  refine ⟨h.lawful.after (c := .published e) trivial, fun j m' hm' => ?_,
    (foldl_offer_frame e _ b).1.trans h.listeners⟩
  have hcapacity : (b.deliver e).boxes[j]?.map Mailbox.capacity = b.boxes[j]?.map Mailbox.capacity :=
    b.deliver_keeps (fun _ _ => rfl) e j
  rw [hm', Option.map_some, eq_comm, Option.map_eq_some_iff] at hcapacity
  obtain ⟨m, hm, hsame⟩ := hcapacity
  exact hsame ▸ h.within j m hm

end Bus

namespace PostOffice

variable {μ : Type} {handlers : Handlers μ}

/-- Handlers that do nothing to the bus: they take note of an event, or fail. -/
def Secluded (handlers : Handlers μ) : Prop :=
  ∀ i e memory, (handlers i e memory).1 = .done ∨ ∃ f, (handlers i e memory).1 = .fail f

/-- A drain hands out all that its mailbox has queued, up to the first event its handler fails on. -/
def Drains (handlers : Handlers μ) (i : Nat) (b b' : Bus) : Except Fault Nat → Prop
  | .ok _ => b.HandsOut (fun j m => if j = i then m.queue.length else 0) b'
  | .error f => ∃ m n e memory, b.boxes[i]? = some m ∧ m.queue[n]? = some e ∧
      (handlers i e memory).1 = .fail f ∧ b.HandsOut (fun j _ => if j = i then n + 1 else 0) b'

/-- A round drains mailboxes in turn, up to the first event whose handler fails: that event is gone, and
the mailboxes behind are not served. -/
def Serves (handlers : Handlers μ) (boxes : List Nat) (b b' : Bus) : Except Fault Nat → Prop
  | .ok _ => b.HandsOut (fun j m => if j ∈ boxes then m.queue.length else 0) b'
  | .error f => ∃ before i after m n e memory, boxes = before ++ i :: after ∧ i ∉ before ∧
      b.boxes[i]? = some m ∧ m.queue[n]? = some e ∧ (handlers i e memory).1 = .fail f ∧
      b.HandsOut (fun j m => if j ∈ before then m.queue.length else if j = i then n + 1 else 0) b'

/-! ### One pump -/

lemma handOne_secluded (hsecluded : Secluded handlers) {i : Nat} {p : PostOffice μ} {e : TypedEvent}
    {bus : Bus} (htake : p.bus.take i = some (e, bus)) :
    ∃ memory, (handOne handlers i).outcome p = (.ok true, { bus, memory }) ∨
      ∃ f, (handlers i e p.memory).1 = .fail f ∧
        (handOne handlers i).outcome p = (.error f, { bus, memory }) := by
  refine ⟨(handlers i e p.memory).2, ?_⟩
  unfold handOne
  simp only [Act.outcome_bind, Act.outcome_get, htake, Act.outcome_set]
  rcases hsecluded i e p.memory with hdone | ⟨f, hfail⟩
  · exact .inl (by simp [hdone, react])
  · exact .inr ⟨f, hfail, by simp [hfail, react]⟩

/-- A drain that goes on after one event. -/
lemma Drains.after_take {i : Nat} {b b' b'' : Bus} {e : TypedEvent} (htake : b.take i = some (e, b'))
    {r : Except Fault Nat} (h : Drains handlers i b' b'' r) : Drains handlers i b b'' r := by
  obtain ⟨hone, m, rest, hm, hqueue⟩ := Bus.handsOut_take htake
  have hnext : b'.boxes[i]? = some (m.handOut 1) := by simp [hone.boxes, hm]
  cases r with
  | ok count =>
    refine hone.trans h fun j n hn => ?_
    by_cases hij : j = i
    · subst hij
      obtain rfl := Option.some.inj (hm.symm.trans hn)
      simp [Mailbox.handOut, hqueue]
    · simp [hij]
  | error f =>
    obtain ⟨m', n, e', memory, hm', he', hfail, hhands⟩ := h
    obtain rfl := Option.some.inj (hnext.symm.trans hm')
    refine ⟨m, n + 1, e', memory, hm, by simpa [Mailbox.handOut, hqueue] using he', hfail,
      hone.trans hhands fun j k _ => ?_⟩
    by_cases hij : j = i
    · simp [hij, Mailbox.handOut_handOut, Nat.add_comm]
    · simp [hij]

lemma drain_drains (hsecluded : Secluded handlers) (i rounds count : Nat) (p : PostOffice μ)
    (hrounds : ∀ m, p.bus.boxes[i]? = some m → m.queue.length ≤ rounds) :
    (Act.repeatWhile (handOne handlers i) none rounds count).Ensures p fun r q =>
      Drains handlers i p.bus q.bus r := by
  induction rounds generalizing count p with
  | zero =>
    refine Bus.handsOut_none fun j m hm => ?_
    split_ifs with hij
    · exact Nat.le_zero.mp (hrounds m (hij ▸ hm))
    · rfl
  | succ rounds ih =>
    unfold Act.repeatWhile Act.Ensures
    simp only [Option.any_none, Bool.false_eq_true, if_false, Act.outcome_bind]
    rcases htake : p.bus.take i with _ | ⟨e, bus⟩
    · have hout : (handOne handlers i).outcome p = (.ok false, p) := by simp [handOne, htake]
      rw [hout]
      refine Bus.handsOut_none fun j m hm => ?_
      split_ifs with hij
      · rw [Bus.take_eq_none htake (hij ▸ hm), List.length_nil]
      · rfl
    · obtain ⟨hone, m, rest, hm, hqueue⟩ := Bus.handsOut_take htake
      obtain ⟨memory, hout | ⟨f, hfail, hout⟩⟩ := handOne_secluded hsecluded htake <;> rw [hout]
      · refine (ih (count + 1) { bus, memory } fun m' hm' => ?_).mono fun r q hq => hq.after_take htake
        simp only [hone.boxes, hm, if_true, Option.map_some, Option.some.injEq] at hm'
        have hlength := hrounds m hm
        simp only [← hm', Mailbox.handOut, hqueue, List.length_cons, List.drop_one, List.tail_cons]
          at hlength ⊢
        omega
      · exact ⟨m, 0, e, p.memory, hm, by simp [hqueue], hfail, hone⟩

/-- Behind a mailbox that is drained the round goes on. -/
lemma Serves.cons {i : Nat} {boxes : List Nat} {b b' b'' : Bus} {count : Nat} {r : Except Fault Nat}
    (hfirst : Drains handlers i b b' (.ok count)) (h : Serves handlers boxes b' b'' r) :
    Serves handlers (i :: boxes) b b'' r := by
  cases r with
  | ok count' =>
    refine hfirst.trans h fun j m _ => ?_
    by_cases hij : j = i
    · simp [hij, Mailbox.handOut_all]
    · simp [hij]
  | error f =>
    obtain ⟨before, k, after, m', n, e, memory, rfl, hk, hm', he, hfail, hhands⟩ := h
    rw [hfirst.boxes] at hm'
    obtain ⟨m, hm, rfl⟩ := Option.map_eq_some_iff.mp hm'
    -- The mailbox in front has nothing left to fail on.
    have hki : k ≠ i := by
      rintro rfl
      simp [Mailbox.handOut] at he
    refine ⟨i :: before, k, after, m, n, e, memory, rfl, by simp [hki, hk], hm,
      by simpa [hki] using he, hfail, hfirst.trans hhands fun j m _ => ?_⟩
    by_cases hij : j = i
    · simp [hij, Mailbox.handOut_all]
    · simp [hij]

lemma drainAll_serves (hsecluded : Secluded handlers) {rounds : Nat} (boxes : List Nat)
    {p : PostOffice μ}
    (hrounds : ∀ (j : Nat) (m : Mailbox), p.bus.boxes[j]? = some m → m.queue.length ≤ rounds) :
    (drainAll handlers rounds boxes).Ensures p fun r q => Serves handlers boxes p.bus q.bus r := by
  induction boxes generalizing p with
  | nil => exact Bus.handsOut_none fun _ _ _ => rfl
  | cons i rest ih =>
    refine (drain_drains hsecluded i rounds 0 p (hrounds i)).bind (fun n q hq => ?_) fun f q hq => ?_
    · have hrest : ∀ (j : Nat) (m : Mailbox), q.bus.boxes[j]? = some m → m.queue.length ≤ rounds := by
        intro j m' hm'
        rw [hq.boxes] at hm'
        obtain ⟨m, hm, rfl⟩ := Option.map_eq_some_iff.mp hm'
        exact (List.drop_suffix _ m.queue).length_le.trans (hrounds j m hm)
      exact (ih hrest).bind (fun m v hv => hv.cons hq) fun f v hv => hv.cons hq
    · obtain ⟨m, n, e, memory, hm, he, hfail, hhands⟩ := hq
      exact ⟨[], i, rest, m, n, e, memory, rfl, by simp, hm, he, hfail, by simpa using hhands⟩

lemma pump_serves (hsecluded : Secluded handlers) {rounds : Nat} {p : PostOffice μ}
    (hp : p.bus.Lawful) (hrounds : p.bus.Within rounds) :
    (pump handlers rounds).Ensures p fun r q => Serves handlers p.bus.listeners p.bus q.bus r :=
  drainAll_serves hsecluded p.bus.listeners fun j m hm =>
    (hp.balanced j m hm).bounded.trans (hrounds j m hm)

lemma Serves.handsOut {boxes : List Nat} {b b' : Bus} {r : Except Fault Nat}
    (h : Serves handlers boxes b b' r) : ∃ count, b.HandsOut count b' := by
  cases r with
  | ok n => exact ⟨_, h⟩
  | error f =>
    obtain ⟨before, i, after, m, n, e, memory, -, -, -, -, -, hhands⟩ := h
    exact ⟨_, hhands⟩

/-! ### The life of a dispatcher -/

/-- What happens while a dispatcher is at work. -/
inductive Moment where
  | published (event : Table)
  | woken

def Moment.perform (handlers : Handlers μ) (rounds : Nat) : Moment → Act (PostOffice μ) Unit
  | published event => discard (PostOffice.publish event)
  | woken => wake handlers rounds

/-- The post office when a dispatcher was started and these moments have passed. -/
def atWork (handlers : Handlers μ) (rounds : Nat) (p : PostOffice μ) (moments : List Moment) :
    PostOffice μ :=
  moments.foldl (fun p moment => ((moment.perform handlers rounds).outcome p).2) (start.outcome p).2

/-- The post office when the dispatcher was stopped after these moments. -/
def retired (handlers : Handlers μ) (rounds : Nat) (p : PostOffice μ) (moments : List Moment) :
    PostOffice μ :=
  ((stop handlers rounds).outcome (atWork handlers rounds p moments)).2

/-- No pump failed so far. -/
def Unharmed (handlers : Handlers μ) (rounds : Nat) (p : PostOffice μ) (moments : List Moment) : Prop :=
  ∀ past, past ++ [.woken] <+: moments →
    ∃ n, ((pump handlers rounds).outcome (atWork handlers rounds p past)).1 = .ok n

variable {rounds : Nat} {p : PostOffice μ}

lemma atWork_concat (moments : List Moment) (moment : Moment) :
    atWork handlers rounds p (moments ++ [moment]) =
      ((moment.perform handlers rounds).outcome (atWork handlers rounds p moments)).2 :=
  List.foldl_concat ..

/-- The dispatcher pumps when it is at work, and a failing pump ends it. -/
lemma wake_outcome (handlers : Handlers μ) (rounds : Nat) (p : PostOffice μ) :
    (wake handlers rounds).outcome p = (.ok (),
      if p.bus.running then
        match (pump handlers rounds).outcome p with
        | (.ok _, q) => q
        | (.error _, q) => { q with bus.running := false }
      else p) := by
  unfold wake
  rw [Act.outcome_bind, Act.outcome_get]
  dsimp only
  split_ifs
  · rw [Act.outcome_bind, Act.outcome_attempt]
    rcases (pump handlers rounds).outcome p with ⟨f | n, q⟩ <;> rfl
  · rfl

lemma retired_eq (moments : List Moment) :
    retired handlers rounds p moments =
      { atWork handlers rounds p (moments ++ [.woken]) with
        bus.running := false } := by
  rw [retired, stop, atWork_concat, Moment.perform, Act.outcome_bind, wake_outcome]
  rfl

lemma pump_inOrder (hsecluded : Secluded handlers) {listeners : List Nat}
    (hp : p.bus.InOrder rounds listeners) :
    (pump handlers rounds).Ensures p fun _ q =>
      q.bus.InOrder rounds listeners ∧ q.bus.running = p.bus.running := by
  refine ((pump_serves hsecluded hp.lawful hp.within).and (pump_ends handlers rounds p)).mono ?_
  rintro r q ⟨hserves, hends⟩
  obtain ⟨count, hhands⟩ := hserves.handsOut
  exact ⟨⟨hp.lawful.leads hends.leads, hp.within.handsOut hhands, hhands.listeners.trans hp.listeners⟩,
    hhands.running⟩

/-- A moment leaves the bus in order. The dispatcher stays at work unless it pumped and failed. -/
lemma Moment.perform_inOrder (hsecluded : Secluded handlers) {listeners : List Nat}
    (hp : p.bus.InOrder rounds listeners) (moment : Moment) :
    (moment.perform handlers rounds).Ensures p fun _ q => q.bus.InOrder rounds listeners ∧
      (q.bus.running = true ↔ p.bus.running = true ∧
        (moment = .woken → ∃ n, ((pump handlers rounds).outcome p).1 = .ok n)) := by
  unfold Act.Ensures
  cases moment with
  | published event =>
    rw [perform, Act.outcome_discard, publish_outcome]
    rcases TypedEvent.read event with f | e
    · exact ⟨hp, by simp⟩
    · exact ⟨hp.deliver e, by simp [Bus.deliver_running]⟩
  | woken =>
    have hpump := pump_inOrder hsecluded hp
    rw [perform, wake_outcome]
    unfold Act.Ensures at hpump
    split_ifs with hrunning
    · rcases hout : (pump handlers rounds).outcome p with ⟨f | n, q⟩ <;> rw [hout] at hpump
      · exact ⟨hpump.1.switch false, by simp⟩
      · have hstill : q.bus.running = true := hpump.2.trans hrunning
        exact ⟨hpump.1, by simp [hstill, hrunning]⟩
    · exact ⟨hp, by simp [hrunning]⟩

lemma unharmed_concat (moments : List Moment) (moment : Moment) :
    Unharmed handlers rounds p (moments ++ [moment]) ↔ Unharmed handlers rounds p moments ∧
      (moment = .woken →
        ∃ n, ((pump handlers rounds).outcome (atWork handlers rounds p moments)).1 = .ok n) := by
  unfold Unharmed
  simp only [List.prefix_concat_iff, or_imp, forall_and]
  rw [and_comm]
  refine and_congr_right fun _ => ⟨fun h hmoment => h moments (hmoment ▸ rfl), fun h past hpast => ?_⟩
  obtain ⟨rfl, hmoment⟩ := List.append_inj' hpast rfl
  exact h (List.singleton_inj.mp hmoment).symm

/-- The dispatcher is at work as long as no pump failed. -/
lemma atWork_inOrder (hsecluded : Secluded handlers) {listeners : List Nat}
    (hp : p.bus.InOrder rounds listeners) (moments : List Moment) :
    (atWork handlers rounds p moments).bus.InOrder rounds listeners ∧
      ((atWork handlers rounds p moments).bus.running = true ↔ Unharmed handlers rounds p moments) := by
  induction moments using List.reverseRecOn with
  | nil => exact ⟨hp.switch true, by simp [atWork, Unharmed, start]⟩
  | append_singleton past moment ih =>
    obtain ⟨horder, hrunning⟩ := ih
    obtain ⟨horder', hrunning'⟩ := moment.perform_inOrder hsecluded horder
    rw [atWork_concat, unharmed_concat, ← hrunning]
    exact ⟨horder', hrunning'⟩

/-- Without a dispatcher events are queued and nothing is handed out. -/
lemma Moment.perform_idle (handlers : Handlers μ) (rounds : Nat) (hp : p.bus.running = false)
    (moment : Moment) :
    (moment.perform handlers rounds).Ensures p fun _ q => q.bus.running = false ∧
      ∀ j : Nat, q.bus.boxes[j]?.map (·.handed) = p.bus.boxes[j]?.map (·.handed) := by
  unfold Act.Ensures
  cases moment with
  | published event =>
    rw [perform, Act.outcome_discard, publish_outcome]
    rcases TypedEvent.read event with f | e
    · exact ⟨hp, fun _ => rfl⟩
    · exact ⟨(p.bus.deliver_running e).trans hp, p.bus.deliver_keeps (fun _ _ => rfl) e⟩
  | woken =>
    rw [perform, wake_outcome, hp]
    exact ⟨hp, fun _ => rfl⟩

lemma atWork_idle {past : List Moment} (hp : (atWork handlers rounds p past).bus.running = false)
    (rest : List Moment) :
    (atWork handlers rounds p (past ++ rest)).bus.running = false ∧
      ∀ j : Nat, (atWork handlers rounds p (past ++ rest)).bus.boxes[j]?.map (·.handed) =
        (atWork handlers rounds p past).bus.boxes[j]?.map (·.handed) := by
  induction rest using List.reverseRecOn with
  | nil => simpa using hp
  | append_singleton rest moment ih =>
    obtain ⟨hidle, hsame⟩ := moment.perform_idle handlers rounds ih.1
    rw [← List.append_assoc, atWork_concat]
    exact ⟨hidle, fun j => (hsame j).trans (ih.2 j)⟩

/-- No pump fails when no handler of an open mailbox does. -/
lemma unharmed_of_done (hsecluded : Secluded handlers) {listeners : List Nat}
    (hp : p.bus.InOrder rounds listeners)
    (hdone : ∀ i ∈ listeners, ∀ e memory, (handlers i e memory).1 = .done) (moments : List Moment) :
    Unharmed handlers rounds p moments := by
  intro past _
  obtain ⟨horder, -⟩ := atWork_inOrder hsecluded hp past
  have hserves := pump_serves hsecluded horder.lawful horder.within
  unfold Act.Ensures at hserves
  rcases hr : ((pump handlers rounds).outcome (atWork handlers rounds p past)).1 with f | n
  · rw [hr, horder.listeners] at hserves
    obtain ⟨before, i, after, m, n, e, memory, rfl, -, -, -, hfail, -⟩ := hserves
    rw [hdone i (by simp) e memory] at hfail
    cases hfail
  · exact ⟨n, rfl⟩

/-- When no pump failed, nothing is left in the open mailboxes. -/
lemma retired_delivered (hsecluded : Secluded handlers) {listeners : List Nat}
    (hp : p.bus.InOrder rounds listeners) {moments : List Moment}
    (hunharmed : Unharmed handlers rounds p (moments ++ [.woken])) {j : Nat} (hj : j ∈ listeners) :
    ∃ m, (retired handlers rounds p moments).bus.boxes[j]? = some m ∧ m.queue = [] ∧
      m.handed.Sublist m.offered ∧ m.offered.length = m.handed.length + m.dropped := by
  obtain ⟨hbefore, n, hr⟩ := (unharmed_concat moments .woken).mp hunharmed |>.imp_right (· rfl)
  obtain ⟨horder, hrunning⟩ := atWork_inOrder hsecluded hp moments
  obtain ⟨horder', -⟩ := atWork_inOrder hsecluded hp (moments ++ [.woken])
  have hserves := pump_serves hsecluded horder.lawful horder.within
  rcases hout : (pump handlers rounds).outcome (atWork handlers rounds p moments) with ⟨r, q⟩
  obtain rfl : r = .ok n := by rw [hout] at hr; exact hr
  rw [Act.Ensures, hout] at hserves
  have hlast : atWork handlers rounds p (moments ++ [.woken]) = q := by
    rw [atWork_concat, Moment.perform, wake_outcome, if_pos (hrunning.mpr hbefore), hout]
  obtain ⟨m, hm⟩ : ∃ m, (atWork handlers rounds p moments).bus.boxes[j]? = some m :=
    ⟨_, Array.getElem?_eq_getElem (horder.lawful.known j (horder.listeners ▸ hj))⟩
  have hbox : q.bus.boxes[j]? = some (m.handOut m.queue.length) := by
    rw [hserves.boxes, hm, horder.listeners, Option.map_some, if_pos hj]
  have hbooks := (hlast ▸ horder').lawful.balanced j _ hbox
  have hempty : (m.handOut m.queue.length).queue = [] := by simp [Mailbox.handOut]
  refine ⟨m.handOut m.queue.length, by rw [retired_eq, hlast]; exact hbox, hempty, ?_, ?_⟩
  · simpa [hempty] using hbooks.ordered
  · simpa [hempty] using hbooks.conserved

/-- After the first pump that fails nothing is handed out. -/
lemma retired_after_failure (hsecluded : Secluded handlers) {listeners : List Nat}
    (hp : p.bus.InOrder rounds listeners) {moments past : List Moment} {f : Fault} {q : PostOffice μ}
    (hpast : past ++ [.woken] <+: moments ++ [.woken]) (hunharmed : Unharmed handlers rounds p past)
    (hout : (pump handlers rounds).outcome (atWork handlers rounds p past) = (.error f, q)) :
    Serves handlers listeners (atWork handlers rounds p past).bus q.bus (.error f) ∧
      ∀ j : Nat, (retired handlers rounds p moments).bus.boxes[j]?.map (·.handed) =
        q.bus.boxes[j]?.map (·.handed) := by
  obtain ⟨horder, hrunning⟩ := atWork_inOrder hsecluded hp past
  have hserves := pump_serves hsecluded horder.lawful horder.within
  rw [Act.Ensures, hout, horder.listeners] at hserves
  refine ⟨hserves, fun j => ?_⟩
  have hlast : atWork handlers rounds p (past ++ [.woken]) = { q with bus.running := false } := by
    rw [atWork_concat, Moment.perform, wake_outcome, if_pos (hrunning.mpr hunharmed), hout]
  obtain ⟨rest, hrest⟩ := hpast
  have hdead : (atWork handlers rounds p (past ++ [.woken])).bus.running = false := by rw [hlast]
  have hidle := (atWork_idle hdead rest).2 j
  rw [hrest, hlast] at hidle
  rw [retired_eq]
  exact hidle

lemma serveAll_lawful (handlers : Handlers μ) (memory : μ) (services : List (Service μ)) :
    (Service.serveAll handlers services { memory }).bus.Lawful := by
  obtain ⟨cs, hcs, hallowed⟩ := Service.serveAll_leads handlers services { memory }
  rw [hcs]
  refine Bus.lawful_empty.through fun c hc => ?_
  obtain ⟨s, -, hs⟩ := hallowed c hc
  exact hs.isSound

/-- What a dispatcher delivers between its start and its stop, with handlers that may fail on any event
but neither publish nor close a mailbox. It is at work exactly as long as no pump failed, so for good if
no handler of an open mailbox ever fails. If also the pump of the stop succeeds, then every event
offered to an open mailbox was handed out or counted as given up. The first pump that fails serves the
mailboxes in front of the failing handler's, takes out the event it failed on, and is the last time that
anything is handed out from any mailbox. -/
theorem dispatcher_delivers_until_failure {handlers : Handlers μ} (hsecluded : Secluded handlers)
    {memory : μ} {services : List (Service μ)} {p : PostOffice μ}
    (hp : p = Service.serveAll handlers services { memory }) {rounds : Nat}
    (hrounds : p.bus.Within rounds) (moments : List Moment) :
    ((∀ i ∈ p.bus.listeners, ∀ e memory, (handlers i e memory).1 = .done) →
      Unharmed handlers rounds p (moments ++ [.woken])) ∧
    ((atWork handlers rounds p moments).bus.running = true ↔ Unharmed handlers rounds p moments) ∧
    (Unharmed handlers rounds p (moments ++ [.woken]) → ∀ j ∈ p.bus.listeners,
      ∃ m, (retired handlers rounds p moments).bus.boxes[j]? = some m ∧ m.queue = [] ∧
        m.handed.Sublist m.offered ∧ m.offered.length = m.handed.length + m.dropped) ∧
    ∀ past f q, past ++ [.woken] <+: moments ++ [.woken] → Unharmed handlers rounds p past →
      (pump handlers rounds).outcome (atWork handlers rounds p past) = (.error f, q) →
      Serves handlers p.bus.listeners (atWork handlers rounds p past).bus q.bus (.error f) ∧
      ∀ j : Nat, (retired handlers rounds p moments).bus.boxes[j]?.map (·.handed) =
        q.bus.boxes[j]?.map (·.handed) := by
  have horder : p.bus.InOrder rounds p.bus.listeners :=
    ⟨hp ▸ serveAll_lawful handlers memory services, hrounds, rfl⟩
  exact ⟨fun hdone => unharmed_of_done hsecluded horder hdone _,
    (atWork_inOrder hsecluded horder moments).2,
    fun hunharmed j hj => retired_delivered hsecluded horder hunharmed hj,
    fun past f q hpast hunharmed hout => retired_after_failure hsecluded horder hpast hunharmed hout⟩

/-- Mailboxes that accept every event, with room for four each. -/
def roomy (count : Nat) : List (Service Unit) :=
  List.replicate count (.subscribe .none .none (.int 4) id)

/-- An event by its number. -/
def numbered (seq : Int) : Moment := .published [(.str "seq", .int seq)]

/-- The handler of the second mailbox fails on the second event. -/
def tripping : Handlers Unit := fun i e _ =>
  (if i = 1 ∧ e.header.seq = 2 then .fail .outOfRange else .done, ())

lemma tripping_secluded : Secluded tripping := by
  intro i e memory
  unfold tripping
  split_ifs
  · exact .inr ⟨.outOfRange, rfl⟩
  · exact .inl rfl

/-- The pump in which the second of three handlers fails serves the first mailbox, and the last. Neither
the second event nor the third gets to the handler behind. -/
theorem tripping_dispatcher_delivers :
    let p := Service.serveAll tripping (roomy 3) { memory := () }
    let moments := [numbered 1, .woken, numbered 2, .woken, numbered 3]
    Service.tally (retired tripping 4 p moments) =
      [([1, 2], [3], 0), ([1, 2], [3], 0), ([1], [2, 3], 0)] ∧
    (atWork tripping 4 p moments).bus.running = false ∧
    (atWork tripping 4 p (moments.take 3)).bus.running = true ∧
    ∃ f q, (pump tripping 4).outcome (atWork tripping 4 p (moments.take 3)) = (.error f, q) ∧
      Serves tripping [0, 1, 2] (atWork tripping 4 p (moments.take 3)).bus q.bus (.error f) ∧
      ∀ j : Nat, (retired tripping 4 p moments).bus.boxes[j]?.map (·.handed) =
        q.bus.boxes[j]?.map (·.handed) := by
  intro p moments
  have hwithin : p.bus.Within 4 := Bus.within_of_all (by decide +kernel)
  have hrunning : (atWork tripping 4 p (moments.take 3)).bus.running = true := by decide +kernel
  have hlisteners : p.bus.listeners = [0, 1, 2] := by decide +kernel
  have hfails : ((pump tripping 4).outcome (atWork tripping 4 p (moments.take 3))).1.toBool = false := by
    decide +kernel
  have htally : Service.tally (retired tripping 4 p moments) =
      [([1, 2], [3], 0), ([1, 2], [3], 0), ([1], [2, 3], 0)] := by decide +kernel
  have hended : (atWork tripping 4 p moments).bus.running = false := by decide +kernel
  have hp : p = Service.serveAll tripping (roomy 3) { memory := () } := rfl
  obtain ⟨-, hlife, -⟩ :=
    dispatcher_delivers_until_failure tripping_secluded hp hwithin (moments.take 3)
  obtain ⟨-, -, -, hlast⟩ := dispatcher_delivers_until_failure tripping_secluded hp hwithin moments
  refine ⟨htally, hended, hrunning, ?_⟩
  rcases hout : (pump tripping 4).outcome (atWork tripping 4 p (moments.take 3)) with ⟨f | n, q⟩
  · have hserved := hlast (moments.take 3) f q ⟨[numbered 3, .woken], rfl⟩ (hlife.mp hrunning) hout
    exact ⟨f, q, rfl, hlisteners ▸ hserved⟩
  · rw [hout] at hfails
    cases hfails

/-- The handler of the first mailbox fails on every event. -/
def jammed : Handlers Unit := fun i _ _ => (if i = 0 then .fail .outOfRange else .done, ())

/-- A handler that always fails ends the dispatcher, and a mailbox whose handler never fails is left with
both its events, neither handed out nor given up. -/
theorem jammed_dispatcher_starves_neighbour :
    let p := Service.serveAll jammed (roomy 2) { memory := () }
    let moments := [numbered 1, .woken, numbered 2]
    Secluded jammed ∧ (∀ e memory, (jammed 1 e memory).1 = .done) ∧ p.bus.listeners = [0, 1] ∧
      (atWork jammed 4 p moments).bus.running = false ∧
      Service.tally (retired jammed 4 p moments) = [([1], [2], 0), ([], [1, 2], 0)] := by
  refine ⟨fun i e memory => ?_, fun _ _ => rfl, by decide +kernel, by decide +kernel, by decide +kernel⟩
  unfold jammed
  split_ifs
  · exact .inr ⟨.outOfRange, rfl⟩
  · exact .inl rfl

end PostOffice

end Loom
