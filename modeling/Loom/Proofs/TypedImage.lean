import Loom.Proofs.Announcement

/-! The typed image of an event of the engine's own, said without the reader. The image has the event's
number, time, type, strand and data, its class goes with the type, and the further fields of its class
are the data entries of the same meaning; so the event can be told from its image. -/
namespace Loom

namespace Happening

/-- The name of a type of events. -/
def typeName : Happening → String
  | phase .. => "process_state"
  | spawned .. | retired .. => "strand"
  | rotated .. => "scheduler"
  | stopped .. => "debug_break"
  | stepped .. => "step"
  | failed .. => "error"
  | announced type _ _ => type.prose

/-- The number of the strand that an event is about. -/
def sid? : Happening → Option Nat
  | spawned sid _ | retired sid _ | rotated _ sid | stopped sid _ | failed sid _ _ => some sid
  | stepped sid .. => some sid
  | phase .. | announced .. => none

/-- What the image of an event has besides the header. -/
def detail : Happening → EventDetail
  | phase old new reason => .state (.str old.name) (.str new.name) (.str reason)
  | spawned _ instruction => .strand (.str "spawned") (.str instruction)
  | retired .. => .strand (.str "halted") .none
  | rotated old new => .rotation (some old) (some new) (.str "rotate")
  | stopped _ instruction => .stop (.str instruction) (.str "breakpoint")
  | stepped _ instruction next hasNext steps =>
    .step (.str instruction) (.ofOption .str next) hasNext (some steps)
  | failed _ error kind => .error error (.str kind)
  | announced .. => .plain

end Happening

/-- The class of an image, by the type of the event. -/
def EventDetail.classes : List (String × String) :=
  [("process_state", "ProcessStateEvent"), ("step", "StepEvent"), ("strand", "StrandEvent"),
    ("scheduler", "SchedulerEvent"), ("debug_break", "DebugBreakEvent"), ("error", "ErrorEvent")]

/-- The data entry that a field of an image shows. -/
def EventDetail.entry (field : String) : String := if field = "next_instruction" then "next" else field

/-- The event that a header tells of. -/
def EventHeader.table (h : EventHeader) : Table :=
  Table.ofNamed [("seq", .int h.seq), ("ts", .float h.ts), ("type", .str h.type),
    ("strand", .ofOption .int h.strand), ("data", .dict h.data)]

namespace Event

/-- The typed image of an event of the engine's own. A time of zero has no sign. -/
def image (e : Event) : TypedEvent where
  header := {
    seq := e.seq
    ts := if e.ts.isZero then .zero else e.ts
    type := e.what.typeName
    strand := e.what.sid?.map (↑)
    data := e.what.data }
  detail := e.what.detail

/-- An image that keeps everything that its event tells. -/
structure Kept (e : Event) (t : TypedEvent) : Prop where
  seq : t.header.seq = e.seq
  ts : t.header.ts = e.ts ∨ t.header.ts = .finite false 0 ∧ e.ts = .finite true 0
  type : .str t.header.type = e.what.type
  strand : .ofOption .int t.header.strand = e.what.strand
  data : t.header.data = e.what.data
  named : EventDetail.classes.lookup t.header.type = some t.className
  fields : ∀ x ∈ TypedEvent.detailFields t.detail, x.2 = e.what.data.find (EventDetail.entry x.1)
  table : e.ts ≠ .finite true 0 → t.header.table = e.table

lemma strand_eq {what : Happening} (h : what.IsOwn) :
    what.strand = .ofOption .int (what.sid?.map ((↑) : Nat → Int)) := by
  cases what with
  | announced => exact h.elim
  | _ => rfl

lemma type_eq {what : Happening} (h : what.IsOwn) : what.type = .str what.typeName := by
  cases what with
  | announced => exact h.elim
  | _ => rfl

lemma image_ts (e : Event) : e.image.header.ts = e.ts ∨
    e.image.header.ts = .finite false 0 ∧ e.ts = .finite true 0 := by
  change (if e.ts.isZero then Binary64.zero else e.ts) = e.ts ∨
    (if e.ts.isZero then Binary64.zero else e.ts) = _ ∧ _
  match e.ts with
  | .nan | .infinite _ | .finite _ (_ + 1) => exact .inl rfl
  | .finite false 0 => exact .inl rfl
  | .finite true 0 => exact .inr ⟨rfl, rfl⟩

lemma lookup_class {what : Happening} (h : what.IsOwn) (header : EventHeader) :
    EventDetail.classes.lookup what.typeName =
      some (TypedEvent.className ⟨header, what.detail⟩) := by
  cases what with
  | announced => exact h.elim
  | _ => rfl

lemma detailFields_eq {what : Happening} (h : what.IsOwn) : TypedEvent.detailFields what.detail =
    (TypedEvent.detailFields what.detail).map fun x => (x.1, what.data.find (EventDetail.entry x.1)) := by
  cases what with
  | announced => exact h.elim
  | _ => rfl

/-- An empty text counts as none, and none is read as an empty text. -/
lemma plain_text (s : String) : ((Value.str s).orElse (.str "")).plain = .ok s := by
  unfold Value.orElse Value.truthy
  split_ifs with h
  · rfl
  · have hempty : s = "" := by simpa using h
    rw [hempty]
    rfl

lemma readDetail_eq {what : Happening} (h : what.IsOwn) :
    TypedEvent.readDetail what.typeName what.data = .ok what.detail := by
  cases what with
  | announced => exact h.elim
  | stepped sid instruction next hasNext steps => cases next <;> rfl
  | failed sid error kind =>
    change (do
      let text ← ((Value.str error).orElse (.str "")).plain
      .ok (.error text (.str kind)) : Except Fault EventDetail) = _
    rw [plain_text]
    rfl
  | _ => rfl

lemma image_kept (e : Event) (h : e.what.IsOwn) : e.Kept e.image where
  seq := rfl
  ts := e.image_ts
  type := (type_eq h).symm
  strand := (strand_eq h).symm
  data := rfl
  named := lookup_class h _
  fields x hx := by
    change x ∈ TypedEvent.detailFields e.what.detail at hx
    rw [detailFields_eq h, List.mem_map] at hx
    obtain ⟨y, -, rfl⟩ := hx
    rfl
  table hts := by
    have hsame : e.image.header.ts = e.ts := e.image_ts.resolve_right fun hzero => hts hzero.2
    unfold EventHeader.table table
    rw [hsame, type_eq h, strand_eq h]
    rfl

lemma stamp_eq (e : Event) : TypedEvent.stamp (.float e.ts) = .ok e.image.header.ts := by
  have htruthy : (Value.float e.ts).truthy = !e.ts.isZero := rfl
  unfold TypedEvent.stamp Value.orElse image
  rw [htruthy]
  cases e.ts.isZero <;> rfl

lemma optionalInt_eq {what : Happening} (h : what.IsOwn) :
    TypedEvent.optionalInt what.strand = .ok (what.sid?.map (↑)) := by
  cases what with
  | announced => exact h.elim
  | _ => rfl

lemma readHeader_eq (e : Event) (h : e.what.IsOwn) :
    TypedEvent.readHeader e.table = .ok e.image.header := by
  change (do
    let ts ← TypedEvent.stamp (.float e.ts)
    let seq ← TypedEvent.optionalInt (.int e.seq)
    let type ← (e.what.type.orElse (.str "")).plain
    let strand ← TypedEvent.optionalInt e.what.strand
    let data ← ((Value.dict e.what.data).orElse (.dict [])).toTable
    .ok { seq := seq.getD 0, ts, type, strand, data } : Except Fault EventHeader) = _
  rw [stamp_eq, optionalInt_eq h, TypedEvent.data_own, type_eq h, plain_text]
  rfl

/-- Every event of the engine's own reads as its image. -/
theorem read_image (e : Event) (h : e.what.IsOwn) : TypedEvent.read e.table = .ok e.image := by
  unfold TypedEvent.read
  rw [readHeader_eq e h]
  change (do
    let detail ← TypedEvent.readDetail e.what.typeName e.what.data
    .ok { header := e.image.header, detail } : Except Fault TypedEvent) = _
  rw [readDetail_eq h]
  rfl

end Event

end Loom
