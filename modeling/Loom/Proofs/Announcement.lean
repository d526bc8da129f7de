import Loom.Engine.Basic
import Loom.Proofs.Act

/-! Announcing never gets in the engine's way. Every event of the engine's own making has a typed
image, so publishing it cannot fail; a host's own event may fail to have one, and then fails with an
ordinary fault after it was entered. -/
namespace Loom

/-- A computation that gives a result or fails with an ordinary fault. -/
def FailsOrdinarily (r : Except Fault α) : Prop := ∀ f, r = .error f → f.isOrdinary = true

namespace FailsOrdinarily

lemma ok (a : α) : FailsOrdinarily (.ok a) := by
  intro f h
  cases h

lemma error {f : Fault} (h : f.isOrdinary = true) :
    FailsOrdinarily (.error f : Except Fault α) := by
  intro g hg
  cases hg
  exact h

end FailsOrdinarily

namespace Fault

/-- A fault that can be worded. -/
def IsTold (f : Fault) : Prop := ∃ text, f.message = .ok text

/-- The wording of a fault fails for want of a text that a value can have, or with the cause that the program
gives. -/
lemma of_message_error {f g : Fault} (h : f.message = .error g) : g = .unwritable ∨ ∃ kind, f = .untold kind g := by
  cases f with
  | untold kind cause => exact .inr ⟨kind, by cases h; rfl⟩
  | missingKey key =>
    simp only [message, Value.display] at h
    split_ifs at h
    exact .inl (Except.error.inj h).symm
  | _ => cases h

/-- Signs of a broken engine: a change of phase, a strand or a position that its own books rule out. A fault
that cannot be worded gives the signs that its cause gives. -/
def isInternal : Fault → Bool
  | illegalTransition .. | strandHalted _ | strandNotListed _ | outOfRange => true
  | untold _ cause => cause.isInternal
  | _ => false

/-- An ordinary fault that is no sign of a broken engine and can be worded. -/
structure IsPlain (f : Fault) : Prop where
  ordinary : f.isOrdinary = true
  sound : f.isInternal = false
  told : f.IsTold

end Fault

lemma Value.plain_of_writable {v : Value} (hv : v.isWritable = true) : v.plain = .ok v.prose := if_pos hv

lemma Value.plain_of_unwritable {v : Value} (hv : v.isWritable = false) : v.plain = .error .unwritable := by
  simp [plain, hv]

/-- A refusal shows the value that it refuses. -/
lemma Value.refusal_of_writable {given : Value} (why : String → Fault) (hgiven : given.isWritable = true) :
    given.refusal why = why given.spelling := by
  simp [refusal, display, hgiven]

lemma Value.refusal_of_unwritable {given : Value} (why : String → Fault) (hgiven : given.isWritable = false) :
    given.refusal why = .unwritable := by
  simp [refusal, display, hgiven]

/-- A refusal is a plain fault whether or not the value that it refuses can be shown. -/
lemma Value.refusal_isPlain (given : Value) {why : String → Fault} (hwhy : ∀ shown, (why shown).IsPlain) :
    (given.refusal why).IsPlain := by
  rcases hgiven : given.isWritable with _ | _
  · exact given.refusal_of_unwritable why hgiven ▸ ⟨rfl, rfl, _, rfl⟩
  · exact given.refusal_of_writable why hgiven ▸ hwhy _

/-- A computation that gives a result or fails with a plain fault. -/
def FailsPlainly (r : Except Fault α) : Prop := ∀ f, r = .error f → f.IsPlain

namespace FailsPlainly

lemma ok (a : α) : FailsPlainly (.ok a) := by
  intro f h
  cases h

lemma error {f : Fault} (h : f.IsPlain) : FailsPlainly (.error f : Except Fault α) := by
  intro g hg
  cases hg
  exact h

lemma bind {x : Except Fault α} {k : α → Except Fault β} (hx : FailsPlainly x)
    (hk : ∀ a, FailsPlainly (k a)) : FailsPlainly (x >>= k) := by
  cases x with
  | error f => exact .error (hx f rfl)
  | ok a => exact hk a

end FailsPlainly

/-- What the engine itself announces. -/
def Happening.IsOwn : Happening → Prop
  | announced .. => False
  | _ => True

namespace TypedEvent

lemma stamp_float (x : Binary64) : ∃ y, stamp (.float x) = .ok y := by
  unfold stamp Value.orElse
  split_ifs <;> exact ⟨_, rfl⟩

lemma optionalInt_strand (what : Happening) (h : what.IsOwn) :
    ∃ n, optionalInt what.strand = .ok n := by
  cases what with
  | announced => exact h.elim
  | _ => exact ⟨_, rfl⟩

lemma plain_orElse_str (text : String) : ((Value.str text).orElse (.str "")).plain = .ok text := by
  unfold Value.orElse
  split_ifs with h
  · rfl
  · have hempty : text = "" := by simpa [Value.truthy] using h
    rw [hempty]
    rfl

lemma readDetail_own (what : Happening) (h : what.IsOwn) (type : String) (ht : what.type = .str type) :
    ∃ detail, readDetail type what.data = .ok detail := by
  cases what with
  | announced => exact h.elim
  | failed sid error kind =>
    cases ht
    have hfind : (Happening.failed sid error kind).data.find "error" = .str error := rfl
    exact ⟨.error error _, by simp only [readDetail, hfind, plain_orElse_str]; rfl⟩
  | _ => cases ht; exact ⟨_, rfl⟩

lemma type_own (what : Happening) (h : what.IsOwn) : ∃ type, what.type = .str type := by
  cases what with
  | announced => exact h.elim
  | _ => exact ⟨_, rfl⟩

lemma data_own (data : Table) : ((Value.dict data).orElse (.dict [])).toTable = .ok data := by
  cases data <;> rfl

/-- Every event of the engine's own making has a typed image. -/
theorem read_own (e : Event) (h : e.what.IsOwn) : ∃ t, read e.table = .ok t := by
  obtain ⟨ts, hts⟩ := stamp_float e.ts
  obtain ⟨strand, hstrand⟩ := optionalInt_strand e.what h
  obtain ⟨type, htype⟩ := type_own e.what h
  obtain ⟨detail, hdetail⟩ := readDetail_own e.what h type htype
  have hseq : optionalInt (.int e.seq) = .ok (some (e.seq : Int)) := rfl
  have hheader : readHeader e.table =
      .ok { seq := e.seq, ts, type, strand, data := e.what.data } := by
    change (do
      let ts ← stamp (.float e.ts)
      let seq ← optionalInt (.int e.seq)
      let type ← (e.what.type.orElse (.str "")).plain
      let strand ← optionalInt e.what.strand
      let data ← ((Value.dict e.what.data).orElse (.dict [])).toTable
      .ok { seq := seq.getD 0, ts, type, strand, data } : Except Fault EventHeader) = _
    rw [hts, hseq, hstrand, data_own, htype, plain_orElse_str]
    rfl
  refine ⟨{ header := { seq := e.seq, ts, type, strand, data := e.what.data }, detail }, ?_⟩
  unfold read
  rw [hheader]
  change (do let detail ← readDetail type e.what.data; .ok _ : Except Fault TypedEvent) = _
  rw [hdetail]
  rfl

lemma wholeOfText_plain (text : String) : FailsPlainly (Value.wholeOfText text) := by
  unfold Value.wholeOfText
  split
  · exact .ok _
  · exact .error ⟨rfl, rfl, _, rfl⟩
  · exact .error ⟨rfl, rfl, _, rfl⟩

lemma toInt_plain (v : Value) : FailsPlainly v.toInt := by
  fun_cases Value.toInt v <;>
    first | exact .ok _ | exact .error ⟨rfl, rfl, _, rfl⟩ | exact wholeOfText_plain _

lemma toFloat_plain (v : Value) : FailsPlainly v.toFloat := by
  fun_cases Value.toFloat v <;> first | exact .ok _ | exact .error ⟨rfl, rfl, _, rfl⟩

lemma optionalInt_plain (v : Value) : FailsPlainly (optionalInt v) := by
  unfold optionalInt
  split
  · exact .ok _
  · exact .ok _
  · split
    · exact .ok _
    next hf =>
      split_ifs
      · exact .error (toInt_plain _ _ hf)
      · exact .ok _

lemma stamp_plain (v : Value) : FailsPlainly (stamp v) := by
  unfold stamp
  split
  · exact .ok _
  next hf =>
    split_ifs
    · exact .error (toFloat_plain _ _ hf)
    · exact .ok _

lemma plain_plain (v : Value) : FailsPlainly v.plain := by
  unfold Value.plain
  split_ifs
  · exact .ok _
  · exact .error ⟨rfl, rfl, _, rfl⟩

lemma tableOfPairs_plain (n : Nat) (t : Table) (vs : List Value) :
    FailsPlainly (Value.tableOfPairs n t vs) := by
  fun_induction Value.tableOfPairs n t vs with
  | case1 => exact .ok _
  | case2 => exact .error ⟨rfl, rfl, _, rfl⟩
  | case3 _ _ _ _ _ _ _ _ ih => exact ih
  | case4 => exact .error ⟨rfl, rfl, _, rfl⟩
  | case5 => exact .error ⟨rfl, rfl, _, rfl⟩

lemma toTable_plain (v : Value) : FailsPlainly v.toTable := by
  unfold Value.toTable Value.items
  split
  · exact .ok _
  · refine FailsPlainly.bind ?_ fun vs => tableOfPairs_plain 0 [] vs
    split
    · exact .ok _
    · exact .error ⟨rfl, rfl, _, rfl⟩

lemma readDetail_plain (type : String) (data : Table) : FailsPlainly (readDetail type data) := by
  unfold readDetail
  split
  · exact .ok _
  · exact .bind (optionalInt_plain _) fun _ => .ok _
  · exact .ok _
  · exact .bind (optionalInt_plain _) fun _ => .bind (optionalInt_plain _) fun _ => .ok _
  · exact .ok _
  · exact .bind (plain_plain _) fun _ => .ok _
  · exact .ok _

/-- An event without a typed image fails with a plain fault. -/
theorem read_plain (event : Table) : FailsPlainly (read event) :=
  .bind (.bind (stamp_plain _) fun _ => .bind (optionalInt_plain _) fun _ => .bind (plain_plain _) fun _ =>
    .bind (optionalInt_plain _) fun _ => .bind (toTable_plain _) fun _ => .ok _)
    fun _ => .bind (readDetail_plain _ _) fun _ => .ok _

end TypedEvent

/-- A host's own event is turned down with a plain fault. -/
lemma Happening.announce_plain (type strand : Value) (data : Table) :
    FailsPlainly (announce type strand data) := by
  unfold announce
  split_ifs
  · exact .error ⟨rfl, rfl, _, rfl⟩
  · split
    · exact .error ⟨rfl, rfl, _, rfl⟩
    · split
      · exact .error ⟨rfl, rfl, _, rfl⟩
      · exact .ok _

/-- What the host announces is an event of its own. -/
lemma Happening.announce_eq {type strand : Value} {data : Table} {what : Happening}
    (h : announce type strand data = .ok what) : what = .announced type strand data := by
  unfold announce at h
  split_ifs at h
  split at h
  · cases h
  · split at h
    · cases h
    · exact (Except.ok.inj h).symm

namespace World

variable {D : Dialect}

/-- The event that an announcement makes. -/
def event (w : World D) (what : Happening) : Event := ⟨w.engine.nextSeq, w.wall, what⟩

/-- The world after an announcement. -/
def emitted (w : World D) (what : Happening) : World D :=
  { w with
    engine := { w.engine with nextSeq := w.engine.nextSeq + 1 }.remember (w.event what)
    deeds := w.deeds.push (.emitted (w.event what))
    bus := w.bus.map fun bus =>
      match TypedEvent.read (w.event what).table with
      | .ok e => bus.deliver e
      | .error _ => bus }

lemma publish_outcome (w : World D) (e : Event) :
    (publish e).outcome w = match w.bus, TypedEvent.read e.table with
      | none, _ => (.ok (), w)
      | some bus, .ok t => (.ok (), { w with bus := some (bus.deliver t) })
      | some _, .error f => (.error f, w) := by
  unfold publish Bus.publish
  rcases hb : w.bus with _ | bus
  · simp [hb]
  · rcases hr : TypedEvent.read e.table with f | t <;> simp [hb]

lemma emit_outcome (w : World D) (what : Happening) :
    (emit what).outcome w =
      (match w.bus, TypedEvent.read (w.event what).table with
        | some _, .error f => .error f
        | _, _ => .ok (w.event what), w.emitted what) := by
  unfold emit enter emitted
  rcases hb : w.bus with _ | bus
  · simp [publish_outcome, hb, event]
  · rcases hr : TypedEvent.read (w.event what).table with f | t <;>
      simp_all [publish_outcome, event]

/-- The engine's own announcements succeed. -/
theorem emit_own (w : World D) (what : Happening) (h : what.IsOwn) :
    (emit what).outcome w = (.ok (w.event what), w.emitted what) := by
  obtain ⟨t, ht⟩ := TypedEvent.read_own (w.event what) h
  rw [emit_outcome, ht]
  cases w.bus <;> rfl

/-- Any announcement is entered; if it fails it does so with a plain fault. -/
theorem emit_plain (w : World D) (what : Happening) :
    ∃ r, (emit what).outcome w = (r, w.emitted what) ∧ FailsPlainly r := by
  refine ⟨_, emit_outcome w what, ?_⟩
  split
  next hr => exact .error (TypedEvent.read_plain _ _ hr)
  next => exact .ok _

/-- What holds after the host announced an event of its own: it was turned down, or entered. -/
theorem announce_ensures {type strand : Value} {data : Table} {w : World D}
    {Q : Except Fault Reply → World D → Prop} (hrefused : ∀ f : Fault, f.IsPlain → Q (.error f) w)
    (hentered : ∀ r, FailsPlainly r → Q r (w.emitted (.announced type strand data))) :
    (Act.ofExcept (Happening.announce type strand data) >>= fun what =>
      emit what >>= fun e => pure (Reply.event e)).Ensures w Q := by
  unfold Act.Ensures
  rw [Act.outcome_bind, Act.outcome_ofExcept]
  rcases hwhat : Happening.announce type strand data with f | what
  · exact hrefused f (Happening.announce_plain type strand data f hwhat)
  · obtain ⟨r, hout, hr⟩ := emit_plain w what
    dsimp only
    rw [Act.outcome_bind, hout, Happening.announce_eq hwhat]
    cases r with
    | error f => exact hentered (.error f) (.error (hr f rfl))
    | ok e => exact hentered (.ok (.event e)) (.ok _)

end World
end Loom
