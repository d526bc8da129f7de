import Mathlib.Data.List.Infix
import Mathlib.Logic.Relation
import Loom.Mailbox
import Loom.Proofs.Act

/-! The books of a mailbox. Whatever is asked of a post office, and whatever its handlers do during a
delivery, the bus goes through a sequence of elementary changes: a mailbox is opened or closed, an event
is offered to one mailbox or published to all, the oldest event of a mailbox is taken out. Each change
keeps the books of every mailbox, so they are right at every moment, also half way through a delivery
that fails. -/
namespace Loom

namespace Mailbox

/-- The books of a mailbox: every event offered was handed out, is queued or was given up, and the
queue holds the latest events, oldest first. -/
structure Balanced (m : Mailbox) : Prop where
  roomy : 1 ≤ m.capacity
  conserved : m.offered.length = m.handed.length + m.queue.length + m.dropped
  bounded : m.queue.length ≤ m.capacity
  latest : m.queue <:+ m.offered
  ordered : (m.handed ++ m.queue).Sublist m.offered

/-- The filter of a mailbox, by the type and the strand of an event. -/
def Matches (m : Mailbox) (e : TypedEvent) : Prop :=
  (∀ cs, m.categories = some cs → ∃ c ∈ cs, c.same (.str e.header.type)) ∧
    (m.strand ≠ .none → (Value.ofOption .int e.header.strand).same m.strand)

/-- A later state of a mailbox: the settings are the same and its history goes on. -/
structure Follows (m m' : Mailbox) : Prop where
  categories : m'.categories = m.categories
  strand : m'.strand = m.strand
  capacity : m'.capacity = m.capacity
  offered : m.offered <+: m'.offered
  handed : m.handed <+: m'.handed

/-- A mailbox handed out the events `lost` and queued what it was offered since. Of the events it had
queued, only `lost` and those that newer events pushed out, each of them counted, are gone. -/
def Loses (lost : List TypedEvent) (m m' : Mailbox) : Prop :=
  ∃ kept since, m.queue = lost ++ kept ∧ m'.handed = m.handed ++ lost ∧
    m'.offered = m.offered ++ since ∧ m'.queue <:+ kept ++ since ∧
    m'.queue.length + m'.dropped = kept.length + since.length + m.dropped

lemma accepts_iff (m : Mailbox) (e : TypedEvent) : m.accepts e ↔ m.Matches e := by
  unfold accepts Matches acceptsType acceptsStrand
  rw [Bool.and_eq_true]
  refine and_congr ?_ ?_
  · cases m.categories <;> simp
  · cases m.strand <;> simp

lemma follows_refl (m : Mailbox) : m.Follows m :=
  ⟨rfl, rfl, rfl, List.prefix_rfl, List.prefix_rfl⟩

lemma Follows.trans {m m' m'' : Mailbox} (h : m.Follows m') (h' : m'.Follows m'') :
    m.Follows m'' where
  categories := h'.categories.trans h.categories
  strand := h'.strand.trans h.strand
  capacity := h'.capacity.trans h.capacity
  offered := h.offered.trans h'.offered
  handed := h.handed.trans h'.handed

/-- The capacity is the size that was asked for, and a size below one is refused. -/
lemma size_of_checkCapacity {size : Value} {n : Nat} (hsize : size.ltInt 1 = .ok false)
    (hn : checkCapacity size = .ok n) : 1 ≤ n ∧ size.number? = some (.whole n) := by
  cases size with
  | bool b =>
    cases b
    · simp [Value.ltInt, Value.number?, Value.Number.lt] at hsize
    · cases hn
      exact ⟨le_rfl, rfl⟩
  | int k =>
    have hk : 1 ≤ k := by
      simpa [Value.ltInt, Value.number?, Value.Number.lt] using hsize
    simp only [checkCapacity] at hn
    split_ifs at hn
    cases hn
    refine ⟨by omega, ?_⟩
    rw [Value.number?, Int.toNat_of_nonneg (by omega)]
  | _ => cases hn

/-- A mailbox opens empty and with the size asked for. -/
lemma make_opens {categories strand size : Value} {m : Mailbox}
    (hm : make categories strand size = .ok m) :
    ∃ cs n, m = { categories := cs, strand, capacity := n } ∧ 1 ≤ n ∧ size.number? = some (.whole n) := by
  unfold make at hm
  rcases hlt : size.ltInt 1 with f | _ | _ <;> rw [hlt] at hm
  · cases hm
  · rcases hcats : checkCategories categories with f | cs <;> rw [hcats] at hm
    · cases hm
    · rcases hcap : checkCapacity size with f | n <;> rw [hcap] at hm
      · cases hm
      · exact ⟨cs, n, (Except.ok.inj hm).symm, size_of_checkCapacity hlt hcap⟩
  · cases hm

/-- Its books are empty. -/
lemma make_balanced {categories strand size : Value} {m : Mailbox}
    (hm : make categories strand size = .ok m) :
    m.Balanced ∧ size.number? = some (.whole m.capacity) := by
  obtain ⟨cs, n, rfl, hn, hnumber⟩ := make_opens hm
  exact ⟨⟨hn, rfl, Nat.zero_le _, List.suffix_rfl, List.Sublist.refl _⟩, hnumber⟩

/-! ### One change of one mailbox -/

lemma offer_follows (m : Mailbox) (e : TypedEvent) : m.Follows (m.offer e) :=
  ⟨rfl, rfl, rfl, List.prefix_append _ _, List.prefix_rfl⟩

/-- What is left in the queue when room is made for one more. -/
lemma room {m : Mailbox} (h : m.Balanced) :
    ∃ kept, (m.offer e).queue = kept ++ [e] ∧ kept <:+ m.queue ∧ kept.length + 1 ≤ m.capacity ∧
      kept.length + (m.offer e).dropped = m.queue.length + m.dropped := by
  unfold offer
  by_cases hfull : m.queue.length = m.capacity
  · obtain ⟨q, kept, hq⟩ := List.exists_cons_of_length_pos (Nat.lt_of_lt_of_eq h.roomy hfull.symm)
    rw [hq, List.length_cons] at hfull
    refine ⟨kept, by simp [hq, hfull], by simp [hq], by omega, ?_⟩
    simp only [hq, hfull, List.length_cons, beq_self_eq_true, if_true]
    omega
  · have hlt := Nat.lt_of_le_of_ne h.bounded hfull
    refine ⟨m.queue, ?_, List.suffix_rfl, hlt, ?_⟩ <;> simp [hfull]

lemma Balanced.offer {m : Mailbox} (h : m.Balanced) (e : TypedEvent) : (m.offer e).Balanced := by
  obtain ⟨kept, hqueue, hkept, hroom, hcount⟩ := room (e := e) h
  refine ⟨h.roomy, ?_, ?_, ?_, ?_⟩
  · have hold := h.conserved
    have hlength : (m.offer e).queue.length = kept.length + 1 := by simp [hqueue]
    change (m.offered ++ [e]).length = m.handed.length + _ + _
    simp only [List.length_append, List.length_singleton]
    omega
  · change (m.offer e).queue.length ≤ m.capacity
    simpa [hqueue] using hroom
  · rw [hqueue]
    obtain ⟨front, hfront⟩ := hkept.trans h.latest
    exact ⟨front, by rw [← List.append_assoc, hfront]; rfl⟩
  · rw [hqueue, ← List.append_assoc]
    have hfront : (m.handed ++ kept).Sublist m.offered :=
      (List.Sublist.append_left hkept.sublist m.handed).trans h.ordered
    exact hfront.append (List.Sublist.refl [e])

lemma Balanced.take {m m' : Mailbox} {e : TypedEvent} (h : m.Balanced)
    (htake : m.take = some (e, m')) :
    m'.Balanced ∧ m.Follows m' ∧ m.Loses [e] m' ∧ m'.handed ++ m'.queue = m.handed ++ m.queue ∧
      m'.offered = m.offered := by
  unfold Mailbox.take at htake
  rcases hqueue : m.queue with _ | ⟨e, rest⟩ <;> rw [hqueue] at htake <;> cases htake
  have hsuffix : rest <:+ m.queue := ⟨[e], by rw [hqueue]; rfl⟩
  refine ⟨⟨h.roomy, ?_, ?_, hsuffix.trans h.latest, ?_⟩,
    ⟨rfl, rfl, rfl, List.prefix_rfl, List.prefix_append _ _⟩,
    ⟨rest, [], hqueue, rfl, by simp, by simp, by simp⟩, by simp, rfl⟩
  · have hold := h.conserved
    simp only [hqueue, List.length_cons, List.length_append, List.length_nil] at hold ⊢
    omega
  · exact hsuffix.length_le.trans h.bounded
  · have hsame : m.handed ++ [e] ++ rest = m.handed ++ m.queue := by simp [hqueue]
    exact hsame ▸ h.ordered

/-- Further events push out only what they must. -/
lemma Loses.offer {lost : List TypedEvent} {m m' : Mailbox} (h : m.Loses lost m')
    (hm' : m'.Balanced) (e : TypedEvent) : m.Loses lost (m'.offer e) := by
  obtain ⟨kept, since, hqueue, hhanded, hoffered, hsuffix, hcount⟩ := h
  obtain ⟨kept', hqueue', hkept', -, hcount'⟩ := room (e := e) hm'
  refine ⟨kept, since ++ [e], hqueue, hhanded, ?_, ?_, ?_⟩
  · change m'.offered ++ [e] = _
    rw [hoffered, List.append_assoc]
  · rw [hqueue']
    obtain ⟨front, hfront⟩ := hkept'.trans hsuffix
    exact ⟨front, by rw [← List.append_assoc, hfront, List.append_assoc]⟩
  · simp only [hqueue', List.length_append, List.length_singleton]
    omega

lemma loses_nil (m : Mailbox) : m.Loses [] m := ⟨m.queue, [], rfl, by simp, by simp, by simp, by simp⟩

end Mailbox

namespace Bus

/-- What can happen to a bus at a time. -/
inductive Change where
  | opened (m : Mailbox)
  | offered (box : Nat) (e : TypedEvent)
  | published (e : TypedEvent)
  | closed (box : Nat)
  | taken (box : Nat)

namespace Change

/-- What a handler can bring about. -/
def IsReaction : Change → Prop
  | published _ => True
  | closed _ => True
  | _ => False

/-- What a delivery can bring about. -/
def IsDelivery : Change → Prop
  | taken _ => True
  | c => c.IsReaction

/-- Only mailboxes with their books right are opened. -/
def IsSound : Change → Prop
  | opened m => m.Balanced
  | _ => True

lemma IsDelivery.isSound {c : Change} (h : c.IsDelivery) : c.IsSound := by
  cases c <;> trivial

lemma IsReaction.isDelivery {c : Change} (h : c.IsReaction) : c.IsDelivery := by
  cases c <;> first | exact h | exact trivial

end Change

def after (b : Bus) : Change → Bus
  | .opened m => (b.subscribe m).2
  | .offered i e => b.offer i e
  | .published e => b.deliver e
  | .closed i => b.close i
  | .taken i => ((b.take i).map (·.2)).getD b

/-- The bus after a sequence of changes. -/
def through (b : Bus) (cs : List Change) : Bus := cs.foldl after b

@[simp] lemma through_nil (b : Bus) : b.through [] = b := rfl

@[simp] lemma through_cons (b : Bus) (c : Change) (cs : List Change) :
    b.through (c :: cs) = (b.after c).through cs := rfl

@[simp] lemma through_append (b : Bus) (cs ds : List Change) :
    b.through (cs ++ ds) = (b.through cs).through ds := List.foldl_append

/-- Every mailbox has its books right, and the open ones are listed once each. -/
structure Lawful (b : Bus) : Prop where
  balanced : ∀ (i : Nat) (m : Mailbox), b.boxes[i]? = some m → m.Balanced
  distinct : b.listeners.Nodup
  known : ∀ i ∈ b.listeners, i < b.boxes.size

lemma lawful_empty : ({} : Bus).Lawful := ⟨by simp, by simp, by simp⟩

/-! ### One change of the bus -/

lemma offer_boxes (b : Bus) (i j : Nat) (e : TypedEvent) :
    (b.offer i e).boxes[j]? = if j = i then b.boxes[j]?.map (·.offer e) else b.boxes[j]? := by
  simp only [offer, Array.getElem?_modify]
  by_cases hij : j = i
  · simp [hij]
  · simp [hij, Ne.symm hij]

lemma foldl_offer_boxes (e : TypedEvent) {targets : List Nat} (hnodup : targets.Nodup) (b : Bus)
    (j : Nat) :
    (targets.foldl (fun b i => b.offer i e) b).boxes[j]? =
      if j ∈ targets then b.boxes[j]?.map (·.offer e) else b.boxes[j]? := by
  induction targets generalizing b with
  | nil => rfl
  | cons i rest ih =>
    obtain ⟨hi, hrest⟩ := List.nodup_cons.mp hnodup
    rw [List.foldl_cons, ih hrest, offer_boxes]
    by_cases hij : j = i
    · simp [hij, hi]
    · simp [hij]

lemma foldl_offer_frame (e : TypedEvent) (targets : List Nat) (b : Bus) :
    (targets.foldl (fun b i => b.offer i e) b).listeners = b.listeners ∧
      (targets.foldl (fun b i => b.offer i e) b).boxes.size = b.boxes.size := by
  induction targets generalizing b with
  | nil => exact ⟨rfl, rfl⟩
  | cons i rest ih =>
    obtain ⟨hlisteners, hsize⟩ := ih (b.offer i e)
    exact ⟨hlisteners, hsize.trans (by simp [offer])⟩

/-- An event is offered, once, to the open mailboxes whose filter it passes, and to no other. -/
lemma deliver_boxes {b : Bus} (hb : b.listeners.Nodup) (e : TypedEvent) (j : Nat) {m : Mailbox}
    (hm : b.boxes[j]? = some m) :
    (j ∈ b.listeners ∧ m.Matches e → (b.deliver e).boxes[j]? = some (m.offer e)) ∧
      (¬ (j ∈ b.listeners ∧ m.Matches e) → (b.deliver e).boxes[j]? = some m) := by
  have hmem : j ∈ b.listeners.filter (b.accepts · e) ↔ j ∈ b.listeners ∧ m.Matches e := by
    rw [List.mem_filter, ← Mailbox.accepts_iff]
    simp [accepts, hm]
  unfold deliver
  rw [foldl_offer_boxes e (hb.filter _), hm]
  exact ⟨fun h => by rw [if_pos (hmem.mpr h)]; rfl, fun h => by rw [if_neg (mt hmem.mp h)]⟩

lemma take_boxes {b b' : Bus} {i : Nat} {e : TypedEvent} (h : b.take i = some (e, b')) :
    ∃ m m', b.boxes[i]? = some m ∧ m.take = some (e, m') ∧
      b' = { b with boxes := b.boxes.setIfInBounds i m' } ∧
      ∀ j : Nat, b'.boxes[j]? = if j = i then some m' else b.boxes[j]? := by
  unfold take at h
  rcases hm : b.boxes[i]? with _ | m <;> rw [hm] at h
  · cases h
  · rcases htake : m.take with _ | ⟨e', m'⟩ <;> simp [htake] at h
    obtain ⟨rfl, rfl⟩ := h
    have hi : i < b.boxes.size := (Array.getElem?_eq_some_iff.mp hm).1
    refine ⟨m, m', rfl, htake, rfl, fun j => ?_⟩
    by_cases hij : j = i
    · simp [hij, hi]
    · simp [hij, Ne.symm hij]

/-- What a change does to one mailbox: nothing, or it is offered an event, directly or because an event
it is open to is published, or its oldest event is taken. -/
lemma after_box {b : Bus} (hb : b.listeners.Nodup) (c : Change) {j : Nat} {m : Mailbox}
    (hm : b.boxes[j]? = some m) :
    ∃ m', (b.after c).boxes[j]? = some m' ∧ (m' = m ∨
      (∃ e, m' = m.offer e ∧ (c = .offered j e ∨ c = .published e ∧ j ∈ b.listeners)) ∨
      ∃ e, m.take = some (e, m') ∧ c = .taken j) := by
  cases c with
  | opened n =>
    have hj : j < b.boxes.size := (Array.getElem?_eq_some_iff.mp hm).1
    refine ⟨m, ?_, .inl rfl⟩
    simp only [after, subscribe, Array.getElem?_push, hm, Nat.ne_of_lt hj, if_false]
  | offered i e =>
    by_cases hij : j = i
    · subst hij
      exact ⟨m.offer e, by simp [after, offer_boxes, hm], .inr (.inl ⟨e, rfl, .inl rfl⟩)⟩
    · exact ⟨m, by simp [after, offer_boxes, hm, hij], .inl rfl⟩
  | published e =>
    by_cases hj : j ∈ b.listeners ∧ m.Matches e
    · exact ⟨m.offer e, (deliver_boxes hb e j hm).1 hj, .inr (.inl ⟨e, rfl, .inr ⟨rfl, hj.1⟩⟩)⟩
    · exact ⟨m, (deliver_boxes hb e j hm).2 hj, .inl rfl⟩
  | closed i => exact ⟨m, hm, .inl rfl⟩
  | taken i =>
    rcases htake : b.take i with _ | ⟨e, b'⟩
    · exact ⟨m, by simp [after, htake, hm], .inl rfl⟩
    · obtain ⟨n, n', hn, hntake, -, hboxes⟩ := take_boxes htake
      simp only [after, htake, Option.map_some, Option.getD_some, hboxes]
      by_cases hij : j = i
      · subst hij
        cases hn.symm.trans hm
        exact ⟨n', by simp, .inr (.inr ⟨e, hntake, rfl⟩)⟩
      · exact ⟨m, by simp [hij, hm], .inl rfl⟩

/-- Mailboxes come to the bus by being opened, and are listed until they are closed. -/
lemma after_frame (b : Bus) (c : Change) :
    (∃ m, c = .opened m) ∨ (b.after c).boxes.size = b.boxes.size ∧
      (b.after c).listeners.Sublist b.listeners := by
  cases c with
  | opened m => exact .inl ⟨m, rfl⟩
  | offered i e => exact .inr ⟨by simp [after, offer], List.Sublist.refl _⟩
  | published e =>
    obtain ⟨hlisteners, hsize⟩ := foldl_offer_frame e (b.listeners.filter (b.accepts · e)) b
    refine .inr ⟨hsize, ?_⟩
    rw [after, deliver, hlisteners]
  | closed i => exact .inr ⟨rfl, List.filter_sublist⟩
  | taken i =>
    rcases htake : b.take i with _ | ⟨e, b'⟩
    · exact .inr ⟨by simp [after, htake], by simp [after, htake]⟩
    · obtain ⟨n, n', -, -, rfl, -⟩ := take_boxes htake
      exact .inr ⟨by simp [after, htake], by simp [after, htake]⟩

/-- A mailbox is listed with the bus when it is opened, and until it is closed. -/
lemma mem_listeners_after (b : Bus) (c : Change) (i : Nat) :
    i ∈ (b.after c).listeners ↔
      i ∈ b.listeners ∧ c ≠ .closed i ∨ (∃ m, c = .opened m) ∧ b.boxes.size = i := by
  cases c with
  | opened m => simp [after, subscribe, eq_comm]
  | offered j e => simp [after, offer]
  | published e =>
    have hlisteners := (foldl_offer_frame e (b.listeners.filter (b.accepts · e)) b).1
    simp [after, deliver, hlisteners]
  | closed j =>
    have hother : Change.closed j ≠ .closed i ↔ i ≠ j := by rw [ne_eq, Change.closed.injEq, eq_comm]
    simp [after, close, hother]
  | taken j =>
    rcases htake : b.take j with _ | ⟨e, b'⟩
    · simp [after, htake]
    · obtain ⟨n, n', -, -, rfl, -⟩ := take_boxes htake
      simp [after, htake]

/-- Among the changes of a bus a mailbox was opened under a number and has not been closed since. -/
def Registered (i : Nat) (cs : List Change) : Prop :=
  ∃ before m since, cs = before ++ .opened m :: since ∧ (through {} before).boxes.size = i ∧
    .closed i ∉ since

lemma registered_concat (i : Nat) (cs : List Change) (c : Change) :
    Registered i (cs ++ [c]) ↔
      Registered i cs ∧ c ≠ .closed i ∨ (∃ m, c = .opened m) ∧ (through {} cs).boxes.size = i := by
  constructor
  · rintro ⟨before, m, since, hcs, hi, hopen⟩
    rcases List.eq_nil_or_concat since with rfl | ⟨since, last, rfl⟩
    · obtain ⟨rfl, hc⟩ := List.append_inj' hcs rfl
      exact .inr ⟨⟨m, (List.singleton_inj.mp hc)⟩, hi⟩
    · rw [List.concat_eq_append, ← List.cons_append, ← List.append_assoc] at hcs
      obtain ⟨rfl, hc⟩ := List.append_inj' hcs rfl
      obtain rfl : c = last := List.singleton_inj.mp hc
      rw [List.concat_eq_append, List.mem_append, not_or, List.mem_singleton] at hopen
      exact .inl ⟨⟨before, m, since, rfl, hi, hopen.1⟩, fun hc => hopen.2 hc.symm⟩
  · rintro (⟨⟨before, m, since, rfl, hi, hopen⟩, hc⟩ | ⟨⟨m, rfl⟩, hi⟩)
    · refine ⟨before, m, since ++ [c], by simp, hi, ?_⟩
      rw [List.mem_append, not_or, List.mem_singleton]
      exact ⟨hopen, Ne.symm hc⟩
    · exact ⟨cs, m, [], rfl, hi, by simp⟩

/-- The mailboxes listed with a bus are those that were opened and not closed since. -/
theorem mem_listeners_iff (i : Nat) (cs : List Change) :
    i ∈ (through {} cs).listeners ↔ Registered i cs := by
  induction cs using List.reverseRecOn with
  | nil => simp [Registered]
  | append_singleton cs c ih =>
    rw [registered_concat, ← ih, through_append]
    exact mem_listeners_after _ c i

/-- A change keeps the books right. -/
lemma Lawful.after {b : Bus} (hb : b.Lawful) {c : Change} (hc : c.IsSound) : (b.after c).Lawful := by
  rcases b.after_frame c with ⟨n, rfl⟩ | ⟨hsize, hlisteners⟩
  · have hfresh : b.boxes.size ∉ b.listeners := fun hmem => lt_irrefl _ (hb.known _ hmem)
    refine ⟨fun i m hm => ?_, ?_, fun i hi => ?_⟩
    · simp only [Bus.after, subscribe, Array.getElem?_push] at hm
      split_ifs at hm
      · cases hm
        exact hc
      · exact hb.balanced i m hm
    · exact List.nodup_append.mpr ⟨hb.distinct, by simp, by
        simpa using fun i hi => ne_of_mem_of_not_mem hi hfresh⟩
    · simp only [Bus.after, subscribe, List.mem_append, List.mem_singleton, Array.size_push] at hi ⊢
      rcases hi with hi | rfl
      · exact (hb.known i hi).trans (Nat.lt_succ_self _)
      · exact Nat.lt_succ_self _
  · refine ⟨fun i m' hm' => ?_, hb.distinct.sublist hlisteners,
      fun i hi => hsize ▸ hb.known i (hlisteners.subset hi)⟩
    have hi : i < b.boxes.size := hsize ▸ (Array.getElem?_eq_some_iff.mp hm').1
    have hm : b.boxes[i]? = some b.boxes[i] := Array.getElem?_eq_getElem hi
    have hold := hb.balanced i _ hm
    obtain ⟨n, hn, rfl | ⟨e, rfl, -⟩ | ⟨e, htake, -⟩⟩ := after_box hb.distinct c hm <;>
      cases hn.symm.trans hm'
    · exact hold
    · exact hold.offer e
    · exact (hold.take htake).1

/-- The books are right after any sequence of changes. -/
lemma Lawful.through {b : Bus} (hb : b.Lawful) {cs : List Change} (hcs : ∀ c ∈ cs, c.IsSound) :
    (b.through cs).Lawful := by
  induction cs generalizing b with
  | nil => exact hb
  | cons c cs ih =>
    obtain ⟨hc, hrest⟩ := List.forall_mem_cons.mp hcs
    exact ih (hb.after hc) hrest

/-- A mailbox stays, with its settings, and its history goes on. -/
lemma Lawful.follows {b : Bus} (hb : b.Lawful) {cs : List Change} (hcs : ∀ c ∈ cs, c.IsSound)
    {j : Nat} {m : Mailbox} (hm : b.boxes[j]? = some m) :
    ∃ m', (b.through cs).boxes[j]? = some m' ∧ m.Follows m' := by
  induction cs generalizing b m with
  | nil => exact ⟨m, hm, m.follows_refl⟩
  | cons c cs ih =>
    obtain ⟨hc, hrest⟩ := List.forall_mem_cons.mp hcs
    obtain ⟨n, hn, hstep⟩ := after_box hb.distinct c hm
    have hfollows : m.Follows n := by
      rcases hstep with rfl | ⟨e, rfl, -⟩ | ⟨e, htake, -⟩
      · exact n.follows_refl
      · exact m.offer_follows e
      · exact ((hb.balanced j m hm).take htake).2.1
    obtain ⟨m', hm', hrest'⟩ := ih (hb.after hc) hrest hn
    exact ⟨m', hm', hfollows.trans hrest'⟩

/-- A mailbox that is not listed is never listed again, and is offered nothing, except directly: what it
hands out from then on was queued already. -/
lemma Lawful.closed {b : Bus} (hb : b.Lawful) {cs : List Change} (hcs : ∀ c ∈ cs, c.IsSound)
    {j : Nat} {m : Mailbox} (hm : b.boxes[j]? = some m) (hj : j ∉ b.listeners)
    (hdirect : ∀ e, .offered j e ∉ cs) :
    j ∉ (b.through cs).listeners ∧ ∃ m', (b.through cs).boxes[j]? = some m' ∧ m'.offered = m.offered ∧
      m'.handed ++ m'.queue = m.handed ++ m.queue := by
  induction cs generalizing b m with
  | nil => exact ⟨hj, m, hm, rfl, rfl⟩
  | cons c cs ih =>
    obtain ⟨hc, hrest⟩ := List.forall_mem_cons.mp hcs
    have hsize : j < b.boxes.size := (Array.getElem?_eq_some_iff.mp hm).1
    have hj' : j ∉ (b.after c).listeners := by
      rw [mem_listeners_after]
      rintro (⟨hmem, -⟩ | ⟨-, hnew⟩)
      · exact hj hmem
      · exact absurd hnew (Nat.ne_of_gt hsize)
    obtain ⟨n, hn, hstep⟩ := after_box hb.distinct c hm
    have hsame : n.offered = m.offered ∧ n.handed ++ n.queue = m.handed ++ m.queue := by
      rcases hstep with rfl | ⟨e, rfl, rfl | ⟨-, hmem⟩⟩ | ⟨e, htake, -⟩
      · exact ⟨rfl, rfl⟩
      · exact absurd (List.mem_cons_self) (hdirect e)
      · exact absurd hmem hj
      · obtain ⟨-, -, -, hsum, hoffered⟩ := (hb.balanced j m hm).take htake
        exact ⟨hoffered, hsum⟩
    obtain ⟨hout, m', hm', hoffered, hsum⟩ :=
      ih (hb.after hc) hrest hn hj' fun e he => hdirect e (List.mem_cons_of_mem _ he)
    exact ⟨hout, m', hm', hoffered.trans hsame.1, hsum.trans hsame.2⟩

/-- What a handler brings about takes nothing out of a mailbox but what newer events push out. -/
lemma Lawful.loses {b : Bus} (hb : b.Lawful) {cs : List Change} (hcs : ∀ c ∈ cs, c.IsReaction)
    {j : Nat} {m n : Mailbox} {lost : List TypedEvent} (hm : b.boxes[j]? = some m)
    (hlost : n.Loses lost m) :
    ∃ m', (b.through cs).boxes[j]? = some m' ∧ n.Loses lost m' := by
  induction cs generalizing b m with
  | nil => exact ⟨m, hm, hlost⟩
  | cons c cs ih =>
    obtain ⟨hc, hrest⟩ := List.forall_mem_cons.mp hcs
    have hsound : c.IsSound := by cases c <;> trivial
    obtain ⟨m', hm', hstep⟩ := after_box hb.distinct c hm
    have hlost' : n.Loses lost m' := by
      rcases hstep with rfl | ⟨e, rfl, -⟩ | ⟨e, -, rfl⟩
      · exact hlost
      · exact hlost.offer (hb.balanced j m hm) e
      · exact hc.elim
    exact ih (hb.after hsound) hrest hm' hlost'

/-- No handler brings a closed mailbox back. -/
lemma not_mem_listeners_through {b : Bus} {cs : List Change} (hcs : ∀ c ∈ cs, c.IsReaction) {i : Nat}
    (hi : i ∉ b.listeners) : i ∉ (b.through cs).listeners := by
  induction cs generalizing b with
  | nil => exact hi
  | cons c cs ih =>
    obtain ⟨hc, hrest⟩ := List.forall_mem_cons.mp hcs
    refine ih hrest ?_
    rw [mem_listeners_after]
    rintro (⟨hmem, -⟩ | ⟨⟨m, rfl⟩, -⟩)
    · exact hi hmem
    · exact hc

/-- One bus comes from another by changes of a kind. -/
def Leads (P : Change → Prop) (b b' : Bus) : Prop := ∃ cs, b' = b.through cs ∧ ∀ c ∈ cs, P c

lemma leads_refl (P : Change → Prop) (b : Bus) : Leads P b b := ⟨[], rfl, by simp⟩

lemma Leads.trans {P : Change → Prop} {b b' b'' : Bus} (h : Leads P b b') (h' : Leads P b' b'') :
    Leads P b b'' := by
  obtain ⟨cs, rfl, hcs⟩ := h
  obtain ⟨ds, rfl, hds⟩ := h'
  exact ⟨cs ++ ds, by simp, List.forall_mem_append.mpr ⟨hcs, hds⟩⟩

lemma Leads.mono {P Q : Change → Prop} {b b' : Bus} (h : Leads P b b') (hPQ : ∀ c, P c → Q c) :
    Leads Q b b' := by
  obtain ⟨cs, hb', hcs⟩ := h
  exact ⟨cs, hb', fun c hc => hPQ c (hcs c hc)⟩

lemma Lawful.leads {b b' : Bus} (hb : b.Lawful) (h : Leads Change.IsDelivery b b') : b'.Lawful := by
  obtain ⟨cs, rfl, hcs⟩ := h
  exact hb.through fun c hc => (hcs c hc).isSound

lemma leads_after {P : Change → Prop} (b : Bus) {c : Change} (hc : P c) : Leads P b (b.after c) :=
  ⟨[c], rfl, by simpa using hc⟩

end Bus

/-- Whatever comes of the events it publishes, a reaction gets to close a mailbox. -/
def Reaction.Closes (i : Nat) : Reaction → Prop
  | done | fail _ => False
  | publish _ next => ∀ o, (next o).Closes i
  | close j next => j = i ∨ next.Closes i

namespace PostOffice

variable {μ : Type}

/-- What can be asked of a post office. Opening a mailbox may tell the handlers' memory about it. A
drain or pump is cut off after a number of hand-overs per mailbox, so that it can be looked at half way. -/
inductive Service (μ : Type) where
  | subscribe (categories strand size : Value) (settle : μ → μ)
  | publish (event : Table)
  | offer (box : Nat) (e : TypedEvent)
  | drain (rounds box : Nat)
  | pump (rounds : Nat)
  | close (box : Nat)

namespace Service

def perform (handlers : Handlers μ) : Service μ → Act (PostOffice μ) Unit
  | subscribe categories strand size settle => do
    let m ← Act.ofExcept (Mailbox.make categories strand size)
    modify fun p => { p with bus := (p.bus.subscribe m).2, memory := settle p.memory }
  | publish event => discard (PostOffice.publish event)
  | offer i e => modify fun p => { p with bus := p.bus.offer i e }
  | drain rounds i => discard (PostOffice.drain handlers rounds i)
  | pump rounds => discard (PostOffice.pump handlers rounds)
  | close i => modify fun p => { p with bus := p.bus.close i }

/-- The post office after a sequence of services, whether they fail or not. -/
def serveAll (handlers : Handlers μ) (services : List (Service μ)) (p : PostOffice μ) :
    PostOffice μ :=
  services.foldl (fun p s => ((s.perform handlers).outcome p).2) p

/-- The changes that a service may bring about. -/
def Allows : Service μ → Bus.Change → Prop
  | subscribe categories strand size _, .opened m => Mailbox.make categories strand size = .ok m
  | publish event, .published e => TypedEvent.read event = .ok e
  | offer i e, .offered j e' => j = i ∧ e' = e
  | drain _ _, c => c.IsDelivery
  | pump _, c => c.IsDelivery
  | close i, .closed j => j = i
  | _, _ => False

lemma Allows.isSound {s : Service μ} {c : Bus.Change} (h : s.Allows c) : c.IsSound := by
  cases c with
  | opened m =>
    cases s with
    | subscribe categories strand size settle => exact (Mailbox.make_balanced h).1
    | _ => cases h
  | _ => trivial

/-- An event is offered directly only when that is asked for. -/
lemma Allows.eq_offer {s : Service μ} {i : Nat} {e : TypedEvent} (h : s.Allows (.offered i e)) :
    s = .offer i e := by
  cases s with
  | offer j e' =>
    obtain ⟨rfl, rfl⟩ := h
    rfl
  | _ => exact h.elim

end Service

/-! ### Deliveries -/

lemma publish_outcome (p : PostOffice μ) (event : Table) :
    (publish event).outcome p = match TypedEvent.read event with
      | .ok e => (.ok e, { p with bus := p.bus.deliver e })
      | .error f => (.error f, p) := by
  simp only [publish, Act.outcome_bind, Act.outcome_get, Act.outcome_ofExcept, Bus.publish]
  cases TypedEvent.read event <;> rfl

/-- A handler publishes and closes. -/
lemma react_leads (r : Reaction) (p : PostOffice μ) :
    (react r).Ensures p fun _ q => Bus.Leads Bus.Change.IsReaction p.bus q.bus := by
  induction r generalizing p with
  | done => exact Bus.leads_refl _ _
  | fail f => exact Bus.leads_refl _ _
  | publish event next ih =>
    have hpublish : (publish event).Ensures p fun _ q =>
        Bus.Leads Bus.Change.IsReaction p.bus q.bus := by
      unfold Act.Ensures
      rw [publish_outcome]
      cases TypedEvent.read event with
      | error f => exact Bus.leads_refl _ _
      | ok e => exact Bus.leads_after (c := .published e) p.bus trivial
    exact hpublish.attempt_bind fun r q hq => (ih r q).mono fun _ _ => hq.trans
  | close i next ih =>
    have hclose := Bus.leads_after (c := .closed i) (P := Bus.Change.IsReaction) p.bus trivial
    exact (ih { p with bus := p.bus.close i }).mono fun _ _ => hclose.trans

/-- A reaction that comes to close a mailbox leaves it closed. -/
lemma react_closes {i : Nat} {r : Reaction} (hr : r.Closes i) (p : PostOffice μ) :
    (react r).Ensures p fun _ q => i ∉ q.bus.listeners := by
  induction r generalizing p with
  | done => exact hr.elim
  | fail f => exact hr.elim
  | publish event next ih =>
    exact Act.Ensures.attempt_bind (P := fun _ _ => True) trivial fun o q _ => ih o (hr o) q
  | close j next ih =>
    rcases hr with rfl | hr
    · have hclosed : j ∉ (p.bus.close j).listeners := by simp [Bus.close]
      have hrest : (react next).Ensures { p with bus := p.bus.close j } fun _ q => j ∉ q.bus.listeners := by
        refine (react_leads next _).mono ?_
        rintro _ q ⟨cs, hq, hcs⟩
        rw [hq]
        exact Bus.not_mem_listeners_through hcs hclosed
      exact hrest
    · exact ih hr { p with bus := p.bus.close j }

/-- Handing out an event takes it out of the queue and lets the handler react. -/
lemma handOne_cases (handlers : Handlers μ) (i : Nat) (p : PostOffice μ) :
    (p.bus.take i = none ∧ (handOne handlers i).outcome p = (.ok false, p)) ∨
      ∃ e bus, p.bus.take i = some (e, bus) ∧ ∃ r q, (handOne handlers i).outcome p = (r, q) ∧
        r ≠ .ok false ∧ Bus.Leads Bus.Change.IsReaction bus q.bus := by
  unfold handOne
  rcases htake : p.bus.take i with _ | ⟨e, bus⟩
  · exact .inl ⟨rfl, by simp [htake]⟩
  · refine .inr ⟨e, bus, rfl, ?_⟩
    have hreact := react_leads (handlers i e p.memory).1
      { p with bus, memory := (handlers i e p.memory).2 }
    simp only [Act.outcome_bind, Act.outcome_get, htake, Act.outcome_set, Act.outcome_pure]
    unfold Act.Ensures at hreact
    rcases houtcome : (react (handlers i e p.memory).1).outcome
        { p with bus, memory := (handlers i e p.memory).2 } with ⟨f | _, q⟩ <;>
      rw [houtcome] at hreact <;> exact ⟨_, q, rfl, nofun, hreact⟩

lemma handOne_leads (handlers : Handlers μ) (i : Nat) (p : PostOffice μ) :
    (handOne handlers i).Ensures p fun _ q => Bus.Leads Bus.Change.IsDelivery p.bus q.bus := by
  rcases handOne_cases handlers i p with ⟨-, hout⟩ | ⟨e, bus, htake, r, q, hout, -, hleads⟩
  · exact Act.ensures_of_outcome hout (Bus.leads_refl _ _)
  · have hbus : p.bus.after (.taken i) = bus := by simp [Bus.after, htake]
    have htaken := Bus.leads_after (c := .taken i) (P := Bus.Change.IsDelivery) p.bus trivial
    rw [hbus] at htaken
    exact Act.ensures_of_outcome hout
      (htaken.trans (hleads.mono fun _ hc => hc.isDelivery))

/-- Handing out an event costs its mailbox that event and no mailbox another one. -/
lemma handOne_loses (handlers : Handlers μ) {i : Nat} {p q : PostOffice μ} {r : Except Fault Bool}
    (hp : p.bus.Lawful) (hout : (handOne handlers i).outcome p = (r, q)) (hr : r ≠ .ok false) :
    ∃ e, ∀ (j : Nat) (m : Mailbox), p.bus.boxes[j]? = some m →
      ∃ m', q.bus.boxes[j]? = some m' ∧ m.Loses (if j = i then [e] else []) m' := by
  rcases handOne_cases handlers i p with ⟨-, hout'⟩ | ⟨e, bus, htake, r', q', hout', -, hleads⟩ <;>
    cases hout.symm.trans hout'
  · exact absurd rfl hr
  · obtain ⟨cs, hq, hcs⟩ := hleads
    have hbus : p.bus.after (.taken i) = bus := by simp [Bus.after, htake]
    have hlawful : bus.Lawful := hbus ▸ hp.after (c := .taken i) trivial
    obtain ⟨n, n', hn, hntake, -, hboxes⟩ := Bus.take_boxes htake
    refine ⟨e, fun j m hm => hq ▸ ?_⟩
    by_cases hij : j = i
    · subst hij
      cases hn.symm.trans hm
      have hlost := ((hp.balanced j n hn).take hntake).2.2.1
      have hbox : bus.boxes[j]? = some n' := by simp [hboxes]
      exact hlawful.loses hcs hbox (by simpa using hlost)
    · have hbox : bus.boxes[j]? = some m := by simp [hboxes, hij, hm]
      exact hlawful.loses hcs hbox (by simpa [hij] using m.loses_nil)

/-- One hand-over that succeeds. -/
def Hands (handlers : Handlers μ) (p q : PostOffice μ) : Prop :=
  ∃ i, (handOne handlers i).outcome p = (.ok true, q)

/-- A series of hand-overs ends, after some that succeed, by itself or with one that fails. -/
def Ends (handlers : Handlers μ) (p : PostOffice μ) (r : Except Fault Nat) (q : PostOffice μ) : Prop :=
  ∃ w, Relation.ReflTransGen (Hands handlers) p w ∧
    match r with
    | .ok _ => q = w
    | .error f => ∃ i, (handOne handlers i).outcome w = (.error f, q)

lemma Ends.after {handlers : Handlers μ} {p w q : PostOffice μ} {r : Except Fault Nat}
    (h : Ends handlers w r q) (hw : Relation.ReflTransGen (Hands handlers) p w) :
    Ends handlers p r q := by
  obtain ⟨w', hw', hr⟩ := h
  exact ⟨w', hw.trans hw', hr⟩

lemma drain_ends (handlers : Handlers μ) (i rounds count : Nat) (p : PostOffice μ) :
    (Act.repeatWhile (handOne handlers i) none rounds count).Ensures p (Ends handlers p) := by
  induction rounds generalizing count p with
  | zero => exact ⟨p, .refl, rfl⟩
  | succ rounds ih =>
    unfold Act.repeatWhile Act.Ensures
    simp only [Option.any_none, Bool.false_eq_true, if_false, Act.outcome_bind]
    rcases hout : (handOne handlers i).outcome p with ⟨f | _ | _, q⟩
    · exact ⟨p, .refl, i, hout⟩
    · rcases handOne_cases handlers i p with ⟨-, hout'⟩ | ⟨e, bus, -, r, q', hout', hr, -⟩ <;>
        cases hout.symm.trans hout'
      · exact ⟨p, .refl, rfl⟩
      · exact absurd rfl hr
    · exact (ih (count + 1) q).after (.single ⟨i, hout⟩)

lemma drainAll_ends (handlers : Handlers μ) (rounds : Nat) (boxes : List Nat) (p : PostOffice μ) :
    (drainAll handlers rounds boxes).Ensures p (Ends handlers p) := by
  induction boxes generalizing p with
  | nil => exact ⟨p, .refl, rfl⟩
  | cons i rest ih =>
    refine (drain_ends handlers i rounds 0 p).bind (fun n q hq => ?_) fun f q hq => hq
    obtain ⟨w, hw, rfl⟩ := hq
    refine (ih q).bind (fun m v hv => ?_) fun f v hv => hv.after hw
    obtain ⟨w', hw', rfl⟩ := hv
    exact ⟨v, hw.trans hw', rfl⟩

lemma pump_ends (handlers : Handlers μ) (rounds : Nat) (p : PostOffice μ) :
    (pump handlers rounds).Ensures p (Ends handlers p) :=
  drainAll_ends handlers rounds p.bus.listeners p

/-- Handing out to handlers that only take note succeeds. -/
lemma pump_quiet {handlers : Handlers μ} (hquiet : ∀ i e memory, (handlers i e memory).1 = .done)
    (rounds : Nat) (p : PostOffice μ) : (pump handlers rounds).Ensures p fun o _ => ∀ f, o ≠ .error f := by
  refine (pump_ends handlers rounds p).mono ?_
  rintro o q ⟨w, -, hr⟩ f rfl
  obtain ⟨i, hout⟩ := hr
  unfold handOne at hout
  rw [Act.outcome_bind, Act.outcome_get] at hout
  dsimp only at hout
  split at hout
  · cases hout
  · simp [hquiet, react] at hout

lemma Hands.leads {handlers : Handlers μ} {p q : PostOffice μ} (h : Hands handlers p q) :
    Bus.Leads Bus.Change.IsDelivery p.bus q.bus := by
  obtain ⟨i, hout⟩ := h
  have hleads := handOne_leads handlers i p
  rwa [Act.Ensures, hout] at hleads

lemma leads_of_hands {handlers : Handlers μ} {p q : PostOffice μ}
    (h : Relation.ReflTransGen (Hands handlers) p q) :
    Bus.Leads Bus.Change.IsDelivery p.bus q.bus := by
  induction h with
  | refl => exact Bus.leads_refl _ _
  | tail _ hstep ih => exact ih.trans hstep.leads

lemma Ends.leads {handlers : Handlers μ} {p q : PostOffice μ} {r : Except Fault Nat}
    (h : Ends handlers p r q) : Bus.Leads Bus.Change.IsDelivery p.bus q.bus := by
  obtain ⟨w, hw, hr⟩ := h
  cases r with
  | ok n => exact hr ▸ leads_of_hands hw
  | error f =>
    obtain ⟨i, hout⟩ := hr
    have hlast := handOne_leads handlers i w
    rw [Act.Ensures, hout] at hlast
    exact (leads_of_hands hw).trans hlast

/-! ### Services -/

namespace Service

/-- A service proceeds by the changes it allows. -/
lemma perform_leads (handlers : Handlers μ) (s : Service μ) (p : PostOffice μ) :
    (s.perform handlers).Ensures p fun _ q => Bus.Leads s.Allows p.bus q.bus := by
  unfold Act.Ensures
  cases s with
  | subscribe categories strand size settle =>
    simp only [perform, Act.outcome_bind, Act.outcome_ofExcept]
    rcases hm : Mailbox.make categories strand size with f | m
    · exact Bus.leads_refl _ _
    · exact Bus.leads_after (c := .opened m) p.bus hm
  | publish event =>
    simp only [perform, Act.outcome_discard, publish_outcome]
    rcases he : TypedEvent.read event with f | e
    · exact Bus.leads_refl _ _
    · exact Bus.leads_after (c := .published e) p.bus he
  | offer i e => exact Bus.leads_after (c := .offered i e) p.bus ⟨rfl, rfl⟩
  | drain rounds i =>
    simp only [perform, Act.outcome_discard]
    exact Ends.leads (drain_ends handlers i rounds 0 p)
  | pump rounds =>
    simp only [perform, Act.outcome_discard]
    exact Ends.leads (pump_ends handlers rounds p)
  | close i => exact Bus.leads_after (c := .closed i) p.bus rfl

/-- A service that fails was refused, or a handler failed in the middle of it. -/
lemma perform_fails (handlers : Handlers μ) {s : Service μ} {p q : PostOffice μ} {f : Fault}
    (hout : (s.perform handlers).outcome p = (.error f, q)) :
    q = p ∨ ∃ w i, Relation.ReflTransGen (Hands handlers) p w ∧
      (handOne handlers i).outcome w = (.error f, q) := by
  have hends : ∀ {a : Act (PostOffice μ) Nat}, a.Ensures p (Ends handlers p) →
      (discard a).outcome p = (.error f, q) → ∃ w i, Relation.ReflTransGen (Hands handlers) p w ∧
        (handOne handlers i).outcome w = (.error f, q) := by
    intro a ha hdiscard
    rw [Act.outcome_discard] at hdiscard
    unfold Act.Ensures at ha
    rcases hr : a.outcome p with ⟨g | n, v⟩ <;> rw [hr] at ha hdiscard <;> cases hdiscard
    obtain ⟨w, hw, i, hi⟩ := ha
    exact ⟨w, i, hw, hi⟩
  cases s with
  | subscribe categories strand size settle =>
    simp only [perform, Act.outcome_bind, Act.outcome_ofExcept] at hout
    rcases hm : Mailbox.make categories strand size with g | m <;> rw [hm] at hout <;> cases hout
    exact .inl rfl
  | publish event =>
    simp only [perform, Act.outcome_discard, publish_outcome] at hout
    rcases he : TypedEvent.read event with g | e <;> rw [he] at hout <;> cases hout
    exact .inl rfl
  | offer i e => cases hout
  | drain rounds i => exact .inr (hends (drain_ends handlers i rounds 0 p) hout)
  | pump rounds => exact .inr (hends (pump_ends handlers rounds p) hout)
  | close i => cases hout

/-- A sequence of services is a sequence of changes that they allow. -/
lemma serveAll_leads (handlers : Handlers μ) (services : List (Service μ)) (p : PostOffice μ) :
    Bus.Leads (fun c => ∃ s ∈ services, s.Allows c) p.bus (serveAll handlers services p).bus := by
  induction services generalizing p with
  | nil => exact Bus.leads_refl _ _
  | cons s rest ih =>
    have hfirst : Bus.Leads s.Allows p.bus ((s.perform handlers).outcome p).2.bus :=
      perform_leads handlers s p
    refine (hfirst.mono fun c hc => ⟨s, List.mem_cons_self, hc⟩).trans ((ih _).mono ?_)
    rintro c ⟨s', hs', hc⟩
    exact ⟨s', List.mem_cons_of_mem _ hs', hc⟩

/-- A handler that publishes another event and fails when it is handed the second one. -/
def brittle : Handlers Unit := fun _ e _ =>
  if e.header.seq = 2 then (.publish [(.str "seq", .int 9)] fun _ => .fail .outOfRange, ())
  else (.done, ())

/-- Two mailboxes with room for two events, and three events for both. -/
def crowding : List (Service Unit) :=
  [.subscribe .none .none (.int 2) id, .subscribe .none .none (.int 2) id,
    .publish [(.str "seq", .int 1)], .publish [(.str "seq", .int 2)],
    .publish [(.str "seq", .int 3)]]

/-- By mailbox, the numbers of the events handed out and queued, and how many were given up. -/
def tally (p : PostOffice μ) : List (List Int × List Int × Nat) :=
  p.bus.boxes.toList.map fun m =>
    (m.handed.map (·.header.seq), m.queue.map (·.header.seq), m.dropped)

end Service

end PostOffice

end Loom
