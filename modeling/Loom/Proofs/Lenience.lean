import Loom.Proofs.Announcement
import Loom.Proofs.Conversion

/-! Reading events of any origin. A header is read whatever its entries are: numbers that cannot be read are
left out, and a time that cannot be read counts as zero. There are two exceptions. One is a number out of
range: a whole number is not made of an infinite one, nor a time of a whole number beyond all times. The other
is a type or an error that no text can show. -/
namespace Loom

namespace Value

/-- The whole number that a value gives; nothing and truth values give none. -/
def whole? : Value → Option Int
  | .none | .bool _ => Option.none
  | v => v.toInt.toOption

/-- The time that a value gives; what counts as false or cannot be read is time zero. -/
def moment (v : Value) : Binary64 := if v.truthy then v.toFloat.toOption.getD .zero else .zero

end Value

namespace TypedEvent

open Value (IsInfinite IsHuge)

lemma optionalInt_of_isInfinite {v : Value} (hv : v.IsInfinite) :
    optionalInt v = .error .infinityToWhole := by
  obtain ⟨negative, rfl⟩ := hv
  rfl

lemma optionalInt_eq {v : Value} (hv : ¬ v.IsInfinite) : optionalInt v = .ok v.whole? := by
  cases v with
  | none | bool | int | list | dict => rfl
  | float x =>
    cases x with
    | nan | finite => rfl
    | infinite negative => exact absurd ⟨negative, rfl⟩ hv
  | str s =>
    unfold optionalInt Value.whole?
    dsimp only
    cases h : (Value.str s).toInt with
    | ok n => rfl
    | error f => exact if_neg (Value.toInt_mismatch hv h).ne_overflow

lemma stamp_of_isHuge {v : Value} (hv : v.IsHuge) : stamp v = .error .wholeTooLarge := by
  unfold stamp Value.orElse
  rw [if_pos hv.truthy, Value.toFloat_of_isHuge hv]
  rfl

lemma stamp_eq {v : Value} (hv : ¬ v.IsHuge) : stamp v = .ok v.moment := by
  unfold stamp Value.orElse Value.moment
  split_ifs
  · cases h : v.toFloat with
    | ok x => rfl
    | error f => exact if_neg (Value.toFloat_mismatch hv h).ne_overflow
  · rfl

/-- The data entries that are read as whole numbers, by the type of an event. -/
def wholes (type : String) : List String :=
  match type with
  | "step" => ["steps"]
  | "scheduler" => ["prev_strand", "next_strand"]
  | _ => []

/-- The value that the text of an error is made of. -/
def errorValue (data : Table) : Value := (data.find "error").orElse (.str "")

/-- What the type of an event calls for, as far as it can be read. -/
def detailOf (type : String) (data : Table) : EventDetail :=
  match type with
  | "process_state" => .state (data.find "prev_state") (data.find "new_state") (data.find "reason")
  | "step" =>
    .step (data.find "instruction") (data.find "next") (data.find "has_next").truthy
      (data.find "steps").whole?
  | "strand" => .strand (data.find "action") (data.find "instruction")
  | "scheduler" =>
    .rotation (data.find "prev_strand").whole? (data.find "next_strand").whole? (data.find "reason")
  | "debug_break" => .stop (data.find "instruction") (data.find "reason")
  | "error" => .error (errorValue data).prose (data.find "kind")
  | _ => .plain

lemma readDetail_eq {type : String} {data : Table}
    (hdata : ∀ name ∈ wholes type, ¬ (data.find name).IsInfinite)
    (htext : type = "error" → (errorValue data).isWritable = true) :
    readDetail type data = .ok (detailOf type data) := by
  unfold readDetail
  split
  · rfl
  · rw [optionalInt_eq (hdata "steps" (by simp [wholes]))]
    rfl
  · rfl
  · rw [optionalInt_eq (hdata "prev_strand" (by simp [wholes])),
      optionalInt_eq (hdata "next_strand" (by simp [wholes]))]
    rfl
  · rfl
  · change (do let text ← (errorValue data).plain; .ok _ : Except Fault EventDetail) = _
    rw [Value.plain_of_writable (htext rfl)]
    rfl
  · simp [detailOf, *]

/-- A number of the wrong size makes the reader fail. -/
lemma readDetail_overflow {type : String} {data : Table}
    (hdata : ∃ name ∈ wholes type, (data.find name).IsInfinite) :
    readDetail type data = .error .infinityToWhole := by
  obtain ⟨name, hname, hinfinite⟩ := hdata
  unfold wholes at hname
  split at hname
  · obtain rfl : name = "steps" := by simpa using hname
    change (do let steps ← optionalInt (data.find "steps"); .ok _ : Except Fault EventDetail) = _
    rw [optionalInt_of_isInfinite hinfinite]
    rfl
  · change (do
      let previous ← optionalInt (data.find "prev_strand")
      let next ← optionalInt (data.find "next_strand")
      .ok (.rotation previous next (data.find "reason")) : Except Fault EventDetail) = _
    by_cases hprevious : (data.find "prev_strand").IsInfinite
    · rw [optionalInt_of_isInfinite hprevious]
      rfl
    · obtain rfl : name = "next_strand" := by
        rcases List.mem_pair.mp hname with rfl | rfl
        · exact absurd hinfinite hprevious
        · rfl
      rw [optionalInt_eq hprevious, optionalInt_of_isInfinite hinfinite]
      rfl
  · cases hname

lemma readDetail_unsaid {data : Table} (hdata : (errorValue data).isWritable = false) :
    readDetail "error" data = .error .unwritable := by
  change (do let text ← (errorValue data).plain; .ok _ : Except Fault EventDetail) = _
  rw [Value.plain_of_unwritable hdata]
  rfl

/-- The value that the text of an event's type is made of. -/
def typeValue (event : Table) : Value := (event.find "type").orElse (.str "")

/-- The text of an event's type. -/
def typeText (event : Table) : String := (typeValue event).prose

/-- An event as far as it can be read. -/
def lenient (event data : Table) : TypedEvent where
  header := {
    seq := (event.find "seq").whole?.getD 0
    ts := (event.find "ts").moment
    type := typeText event
    strand := (event.find "strand").whole?
    data }
  detail := detailOf (typeText event) data

/-- An event with a number out of range where one is read. -/
def OutOfRange (event data : Table) : Prop :=
  (event.find "ts").IsHuge ∨ (event.find "seq").IsInfinite ∨ (event.find "strand").IsInfinite ∨
    ∃ name ∈ wholes (typeText event), (data.find name).IsInfinite

/-- An event of a type, or with an error, that no text can show. -/
def Unsayable (event data : Table) : Prop :=
  (typeValue event).isWritable = false ∨ typeText event = "error" ∧ (errorValue data).isWritable = false

/-- How an event is refused. -/
def RefusedWith (event data : Table) (f : Fault) : Prop :=
  OutOfRange event data ∧ f.kind = .overflow ∨ Unsayable event data ∧ f = .unwritable

/-- What goes wrong with the header itself. -/
def HeaderUnread (event : Table) : Prop :=
  (event.find "ts").IsHuge ∨ (event.find "seq").IsInfinite ∨ (typeValue event).isWritable = false ∨
    (event.find "strand").IsInfinite

/-- What goes wrong with the details that the type calls for. -/
def DetailUnread (event data : Table) : Prop :=
  (∃ name ∈ wholes (typeText event), (data.find name).IsInfinite) ∨
    typeText event = "error" ∧ (errorValue data).isWritable = false

lemma unread_iff {event data : Table} :
    OutOfRange event data ∨ Unsayable event data ↔ HeaderUnread event ∨ DetailUnread event data := by
  simp only [OutOfRange, Unsayable, HeaderUnread, DetailUnread, or_assoc, or_left_comm]

lemma readHeader_eq {event data : Table} (h : ¬ HeaderUnread event)
    (hdata : ((event.find "data").orElse (.dict [])).toTable = .ok data) :
    readHeader event = .ok (lenient event data).header := by
  simp only [HeaderUnread, not_or, Bool.not_eq_false] at h
  obtain ⟨hts, hseq, htype, hstrand⟩ := h
  unfold readHeader
  rw [stamp_eq hts, optionalInt_eq hseq, optionalInt_eq hstrand, hdata]
  change (do let type ← (typeValue event).plain; .ok _ : Except Fault EventHeader) = _
  rw [Value.plain_of_writable htype]
  rfl

lemma readHeader_refused {event : Table} (data : Table) (h : HeaderUnread event) :
    ∃ f, readHeader event = .error f ∧ RefusedWith event data f := by
  unfold readHeader
  by_cases hts : (event.find "ts").IsHuge
  · rw [stamp_of_isHuge hts]
    exact ⟨_, rfl, .inl ⟨.inl hts, rfl⟩⟩
  rw [stamp_eq hts]
  by_cases hseq : (event.find "seq").IsInfinite
  · rw [optionalInt_of_isInfinite hseq]
    exact ⟨_, rfl, .inl ⟨.inr (.inl hseq), rfl⟩⟩
  rw [optionalInt_eq hseq]
  rcases htype : (typeValue event).isWritable with _ | _
  · have hplain : ((event.find "type").orElse (.str "")).plain = .error .unwritable :=
      Value.plain_of_unwritable htype
    rw [hplain]
    exact ⟨_, rfl, .inr ⟨.inl htype, rfl⟩⟩
  · have hplain : ((event.find "type").orElse (.str "")).plain = .ok (typeText event) :=
      Value.plain_of_writable htype
    have hstrand : (event.find "strand").IsInfinite :=
      ((h.resolve_left hts).resolve_left hseq).resolve_left (by simp [htype])
    rw [hplain, optionalInt_of_isInfinite hstrand]
    exact ⟨_, rfl, .inl ⟨.inr (.inr (.inl hstrand)), rfl⟩⟩

lemma readDetail_refused {event data : Table} (h : DetailUnread event data) :
    ∃ f, readDetail (typeText event) data = .error f ∧ RefusedWith event data f := by
  rcases h with hinfinite | ⟨htype, herror⟩
  · exact ⟨_, readDetail_overflow hinfinite, .inl ⟨.inr (.inr (.inr hinfinite)), rfl⟩⟩
  · exact ⟨_, htype ▸ readDetail_unsaid herror, .inr ⟨.inr ⟨htype, herror⟩, rfl⟩⟩

/-- An event whose data are a table, or nothing, is read whatever else its header holds, unless a number is
out of range or its type or its error is too long to be written, which is refused. -/
theorem any_header_read (event data : Table)
    (hdata : event.find "data" = .dict data ∨ event.find "data" = .none ∧ data = []) :
    (¬ OutOfRange event data → ¬ Unsayable event data → read event = .ok (lenient event data)) ∧
      (OutOfRange event data ∨ Unsayable event data →
        ∃ f, read event = .error f ∧ RefusedWith event data f) := by
  have htable : ((event.find "data").orElse (.dict [])).toTable = .ok data := by
    rcases hdata with hdata | ⟨hdata, rfl⟩ <;> rw [hdata]
    · exact data_own data
    · rfl
  have hread (hheader : ¬ HeaderUnread event) :
      read event = (do
        let detail ← readDetail (typeText event) data
        .ok { lenient event data with detail }) := by
    unfold read
    rw [readHeader_eq hheader htable]
    rfl
  constructor
  · intro hrange hsay
    obtain ⟨hheader, hdetail⟩ := not_or.mp fun h => (unread_iff.mpr h).elim hrange hsay
    have hwholes : ∀ name ∈ wholes (typeText event), ¬ (data.find name).IsInfinite :=
      fun name hname hv => hdetail (.inl ⟨name, hname, hv⟩)
    have htext : typeText event = "error" → (errorValue data).isWritable = true := fun htype =>
      Bool.not_eq_false _ ▸ fun herror => hdetail (.inr ⟨htype, herror⟩)
    rw [hread hheader, readDetail_eq hwholes htext]
    rfl
  · intro h
    by_cases hheader : HeaderUnread event
    · obtain ⟨f, hf, hrefused⟩ := readHeader_refused data hheader
      refine ⟨f, ?_, hrefused⟩
      unfold read
      rw [hf]
      rfl
    · obtain ⟨f, hf, hrefused⟩ := readDetail_refused ((unread_iff.mp h).resolve_left hheader)
      refine ⟨f, ?_, hrefused⟩
      rw [hread hheader, hf]
      rfl

/-- A header of which nothing can be read, one with an infinite number among its data, and an error that is a
number too long to be written. -/
theorem unreadable_header_read :
    let data : Table := Table.ofNamed [("steps", .str "many"), ("next", .list [])]
    let event : Table := Table.ofNamed [("seq", .float .nan), ("ts", .str "noon"), ("type", .str "step"),
      ("strand", .dict []), ("data", .dict data)]
    let endless : Table := Table.ofNamed [("type", .str "scheduler"),
      ("data", .dict [(.str "next_strand", .float (.infinite true))])]
    let long : Table := Table.ofNamed [("type", .str "error"),
      ("data", .dict [(.str "error", .int (10 ^ 5000))])]
    read event = .ok {
      header := { seq := 0, ts := .zero, type := "step", strand := none, data }
      detail := .step .none (.list []) false none } ∧
    (∃ f, read endless = .error f ∧ f.kind = .overflow) ∧ ∃ f, read long = .error f ∧ f.kind = .value := by
  intro data event endless long
  have hrange : ¬ OutOfRange event data := by
    rintro (⟨n, hn, -⟩ | ⟨_, h⟩ | ⟨_, h⟩ | ⟨name, hname, _, h⟩)
    · exact nomatch (show Value.str "noon" = .int n from hn)
    · exact nomatch (show Value.float .nan = .float (.infinite _) from h)
    · exact nomatch (show Value.dict [] = .float (.infinite _) from h)
    · obtain rfl : name = "steps" := List.mem_singleton.mp (show name ∈ ["steps"] from hname)
      exact nomatch (show Value.str "many" = .float (.infinite _) from h)
  have hsay : ¬ Unsayable event data := by
    rintro (h | ⟨h, -⟩)
    · exact nomatch (show (Value.str "step").isWritable = false from h)
    · exact absurd (show "step" = "error" from h) (by decide)
  have hendless : OutOfRange endless [(.str "next_strand", .float (.infinite true))] :=
    .inr (.inr (.inr ⟨"next_strand", show "next_strand" ∈ ["prev_strand", "next_strand"] by simp, true, rfl⟩))
  have hlong : Unsayable long [(.str "error", .int (10 ^ 5000))] := .inr ⟨rfl, by decide +kernel⟩
  obtain ⟨f, hf, ⟨-, hkind⟩ | ⟨hunsayable, -⟩⟩ := (any_header_read endless _ (.inl rfl)).2 (.inl hendless)
  · obtain ⟨g, hg, ⟨hinfinite, -⟩ | ⟨-, rfl⟩⟩ := (any_header_read long _ (.inl rfl)).2 (.inr hlong)
    · rcases hinfinite with ⟨n, hn, -⟩ | ⟨_, h⟩ | ⟨_, h⟩ | ⟨name, hname, -⟩
      · exact nomatch (show Value.none = .int n from hn)
      · exact nomatch (show Value.none = .float (.infinite _) from h)
      · exact nomatch (show Value.none = .float (.infinite _) from h)
      · exact nomatch (show name ∈ [] from hname)
    · exact ⟨(any_header_read event data (.inl rfl)).1 hrange hsay, ⟨f, hf, hkind⟩, _, hg, rfl⟩
  · rcases hunsayable with h | ⟨h, -⟩
    · exact nomatch (show (Value.str "scheduler").isWritable = false from h)
    · exact absurd (show "scheduler" = "error" from h) (by decide)

/-- Numbers out of range are refused, in an event without data; so is a type that is a number too long to be
written. -/
theorem endless_number_refused :
    read (Table.ofNamed [("seq", .float (.infinite false))]) = .error .infinityToWhole ∧
      read (Table.ofNamed [("ts", .int (2 ^ 1024))]) = .error .wholeTooLarge ∧
      read (Table.ofNamed [("type", .int (10 ^ 5000))]) = .error .unwritable := by
  refine ⟨rfl, ?_, ?_⟩
  · have hfind : Table.find (Table.ofNamed [("ts", .int (2 ^ 1024))]) "ts" = .int (2 ^ 1024) := rfl
    unfold read readHeader
    rw [hfind, stamp_of_isHuge Value.isHuge_two_pow]
    rfl
  · have hread (v : Value) (hv : (v.orElse (.str "")).isWritable = false) :
        read (Table.ofNamed [("type", v)]) = .error .unwritable := by
      have hplain : ((Table.find (Table.ofNamed [("type", v)]) "type").orElse (.str "")).plain =
          .error .unwritable := Value.plain_of_unwritable hv
      unfold read readHeader
      rw [hplain]
      rfl
    exact hread _ (by decide +kernel)

end TypedEvent

end Loom
