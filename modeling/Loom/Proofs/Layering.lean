import Loom.Debugger.Launch
import Loom.Proofs.Acceptance
import Loom.Proofs.Filing

/-! Settings from the environment. An override counts before its variable, and a variable before the default;
a variable that is overridden need only be readable. Whatever the environment and the command line say, every
failure is a refusal, and settings that were accepted are accepted again as they stand. -/
namespace Loom

lemma Value.same_str_iff {v : Value} {s : String} : v.same (.str s) = true ↔ v = .str s := by
  unfold Value.same Value.eqTo
  cases v <;> simp [Value.number?]

namespace Table

lemma get?_cons (k w : Value) (t : Table) (key : String) :
    get? ((k, w) :: t) (.str key) = if k.same (.str key) then some w else get? t (.str key) := by
  unfold get?
  rw [List.find?_cons]
  dsimp only
  cases k.same (.str key) <;> rfl

/-- Exchanging the value under a name. -/
lemma get?_map (t : Table) (name key : String) (v : Value) :
    get? (t.map fun (k, w) => if k.same (.str name) then (k, v) else (k, w)) (.str key) =
      (get? t (.str key)).map fun w => if name = key then v else w := by
  induction t with
  | nil => rfl
  | cons e t ih =>
    obtain ⟨k, w⟩ := e
    rw [List.map_cons, get?_cons]
    dsimp only
    by_cases hkey : k = .str key
    · by_cases hname : name = key
      · simp [get?_cons, Value.same_str_iff, hkey, hname]
      · simp [get?_cons, Value.same_str_iff, hkey, hname, Ne.symm hname]
    · by_cases hname : k = .str name
      · have hne : name ≠ key := fun h => hkey (h ▸ hname)
        simp [get?_cons, Value.same_str_iff, hname, hne, ih]
      · simp [get?_cons, Value.same_str_iff, hname, hkey, ih]

lemma get?_append_single (t : Table) (name key : String) (v : Value) :
    get? (t ++ [(.str name, v)]) (.str key) =
      (get? t (.str key)).or (if name = key then some v else none) := by
  induction t with
  | nil => by_cases h : name = key <;> simp [get?, Value.same_str_iff, h]
  | cons e t ih =>
    obtain ⟨k, w⟩ := e
    rw [List.cons_append, get?_cons, get?_cons, ih]
    split_ifs <;> simp

lemma get?_put (t : Table) (name key : String) (v : Value) :
    (t.put (.str name) v).get? (.str key) = if name = key then some v else t.get? (.str key) := by
  have hhas : (t.any fun (k, _) => k.same (.str name)) = (t.get? (.str name)).isSome := by
    unfold get?
    rw [Option.isSome_map, List.isSome_find?]
  unfold put
  rw [hhas]
  by_cases hname : name = key
  · subst hname
    cases h : t.get? (.str name) with
    | none => simp [get?_append_single, h]
    | some w =>
      rw [Option.isSome_some, if_pos rfl, if_pos rfl, get?_map, h, Option.map_some, if_pos rfl]
  · split_ifs
    · rw [get?_map]
      simp [hname]
    · rw [get?_append_single]
      simp [hname]

/-- An entry for a value, if there is one. -/
def entry (name : String) (v : Option Value) : Table := (v.map fun v => (.str name, v)).toList

lemma get?_entry_append (t : Table) (name key : String) (v : Option Value) :
    get? (entry name v ++ t) (.str key) = (if name = key then v else none).or (t.get? (.str key)) := by
  cases v with
  | none => simp [entry]
  | some v =>
    change get? ((.str name, v) :: t) (.str key) = _
    rw [get?_cons]
    by_cases h : name = key <;> simp [Value.same_str_iff, h]

lemma get?_entry (name key : String) (v : Option Value) :
    get? (entry name v) (.str key) = if name = key then v else none := by
  rw [← List.append_nil (entry name v), get?_entry_append]
  exact Option.or_none

/-- A table with one more value put under a name, if there is one. -/
def layer (t : Table) (name : String) (v : Option Value) : Table := v.elim t (t.put (.str name))

lemma get?_layer (t : Table) (name key : String) (v : Option Value) :
    (t.layer name v).get? (.str key) = (if name = key then v else none).or (t.get? (.str key)) := by
  cases v with
  | none => simp [layer]
  | some v =>
    change (t.put (.str name) v).get? (.str key) = _
    rw [get?_put]
    by_cases h : name = key <;> simp [h]

/-- The keys of a table are among the given names. -/
def NamedIn (names : List String) (t : Table) : Prop := ∀ e ∈ t, ∃ name ∈ names, e.1 = .str name

variable {names : List String} {t : Table}

lemma NamedIn.append {u : Table} (ht : t.NamedIn names) (hu : u.NamedIn names) : NamedIn names (t ++ u) :=
  fun e he => (List.mem_append.1 he).elim (ht e) (hu e)

lemma namedIn_entry {name : String} (h : name ∈ names) (v : Option Value) : (entry name v).NamedIn names := by
  intro e he
  obtain ⟨w, -, rfl⟩ := Option.map_eq_some_iff.1 (Option.mem_toList.1 he)
  exact ⟨name, h, rfl⟩

lemma NamedIn.put (ht : t.NamedIn names) {name : String} (h : name ∈ names) (v : Value) :
    (t.put (.str name) v).NamedIn names := by
  unfold Table.put
  split_ifs
  · intro e he
    obtain ⟨⟨k, w⟩, hk, rfl⟩ := List.mem_map.1 he
    obtain ⟨name', hname', hkey⟩ := ht _ hk
    refine ⟨name', hname', ?_⟩
    dsimp only
    split_ifs <;> exact hkey
  · exact ht.append fun e he => ⟨name, h, congrArg Prod.fst (List.mem_singleton.1 he)⟩

lemma NamedIn.layer (ht : t.NamedIn names) {name : String} (h : name ∈ names) (v : Option Value) :
    (t.layer name v).NamedIn names := by
  cases v with
  | none => exact ht
  | some v => exact ht.put h v

lemma NamedIn.names?_eq (ht : t.NamedIn names) :
    ∃ keys, t.names? = some keys ∧ ∀ key ∈ keys, key ∈ names := by
  induction t with
  | nil => exact ⟨[], rfl, nofun⟩
  | cons e t ih =>
    obtain ⟨name, hname, hkey⟩ := ht e List.mem_cons_self
    obtain ⟨keys, hkeys, hknown⟩ := ih fun e he => ht e (List.mem_cons_of_mem _ he)
    have hcons : names? (e :: t) = (do let key ← e.1.text?; let rest ← names? t; some (key :: rest)) :=
      List.mapM_cons
    refine ⟨name :: keys, ?_, List.forall_mem_cons.2 ⟨hname, hknown⟩⟩
    rw [hcons, hkey, hkeys]
    rfl

end Table

namespace Settings

/-- Keys that are among the four names pass the check of names. -/
lemma checkNames_of_namedIn {t : Table} (ht : t.NamedIn names) : checkNames t = .ok () := by
  obtain ⟨keys, hkeys, hknown⟩ := ht.names?_eq
  have hnone : keys.find? (!names.contains ·) = none :=
    List.find?_eq_none.2 fun k hk => by simp [hknown k hk]
  unfold checkNames
  rw [hkeys]
  dsimp only
  rw [hnone]

/-- Overrides as the command line gives them. -/
structure Overrides where
  rate : Option Binary64 := none
  breakpoints : Bool := false
  timeSlice : Option Int := none

/-- The time slice that is asked for is too small, and too long to be shown when it is refused. -/
def Overrides.Unshown (o : Overrides) : Prop := ∃ n ∈ o.timeSlice, n < 1 ∧ (Value.int n).isWritable = false

/-- What variables say; none for those that are not set. -/
structure Reading where
  rate : Option Binary64 := none
  breakpoints : Option Bool := none
  timeSlice : Option Int := none
  history : Option Int := none

/-- The overrides by name, where nothing stands for those not given. -/
def Overrides.table (o : Overrides) : Table :=
  Table.ofNamed [("rate_ms", (o.rate.map .float).getD .none),
    ("breakpoints", if o.breakpoints then .bool true else .none),
    ("time_slice", (o.timeSlice.map .int).getD .none)]

/-- Each variable that is set can be read. An empty one counts as set only for breakpoints. -/
structure Environment.Says (env : Environment) (r : Reading) : Prop where
  rate : (env.filled? "STRANDS_RATE_MS").mapM (readNumber "STRANDS_RATE_MS") = .ok r.rate
  breakpoints : (env.get? "STRANDS_BREAKPOINTS").mapM (readBoolean "STRANDS_BREAKPOINTS") = .ok r.breakpoints
  timeSlice : (env.filled? "STRANDS_TIME_SLICE").mapM (readInteger "STRANDS_TIME_SLICE") = .ok r.timeSlice
  history : (env.filled? "STRANDS_HISTORY").mapM (readInteger "STRANDS_HISTORY") = .ok r.history

/-- Empty breakpoints are off. -/
lemma readBoolean_empty (name : String) : readBoolean name "" = .ok false := by
  have htrim : Text.trim "" = "" := rfl
  have hword : (Text.trim "").map Char.toLower = "" := by simp [htrim]
  unfold readBoolean
  rw [hword]
  rfl

lemma Environment.Says.empty_breakpoints {env : Environment} {r : Reading} (hr : env.Says r)
    (h : env.get? "STRANDS_BREAKPOINTS" = some "") : r.breakpoints = some false := by
  have hread := hr.breakpoints
  rw [h, Option.mapM_some, readBoolean_empty] at hread
  exact (Except.ok.inj hread).symm

namespace Reading

/-- What was read, by name. -/
def table (r : Reading) : Table :=
  Table.entry "rate_ms" (r.rate.map .float) ++ Table.entry "breakpoints" (r.breakpoints.map .bool) ++
    Table.entry "time_slice" (r.timeSlice.map .int) ++ Table.entry "history_size" (r.history.map .int)

lemma table_namedIn (r : Reading) : r.table.NamedIn names :=
  (((Table.namedIn_entry (by decide) _).append (Table.namedIn_entry (by decide) _)).append
    (Table.namedIn_entry (by decide) _)).append (Table.namedIn_entry (by decide) _)

/-- The values to be checked, layer by layer. -/
def under (r : Reading) (o : Overrides) : Values where
  rate := .float ((o.rate.or r.rate).getD .zero)
  breakpoints := .bool (o.breakpoints || r.breakpoints.getD false)
  timeSlice := .int ((o.timeSlice.or r.timeSlice).getD 1)
  history := .int (r.history.getD 1024)

/-- What was read with the overrides put on top. -/
def overlaid (r : Reading) (o : Overrides) : Table :=
  ((r.table.layer "rate_ms" (o.rate.map .float)).layer "breakpoints"
    (if o.breakpoints then some (.bool true) else none)).layer "time_slice" (o.timeSlice.map .int)

lemma overlaid_eq (r : Reading) (o : Overrides) :
    (o.table.filter fun (_, v) => match v with | .none => false | _ => true).foldl
      (fun t (k, v) => Table.put t k v) r.table = r.overlaid o := by
  -- There are three overrides, each of them given or not, and the filter and the fold are computed.
  obtain ⟨rate, breakpoints, timeSlice⟩ := o
  cases rate <;> cases breakpoints <;> cases timeSlice <;> rfl

lemma overlaid_namedIn (r : Reading) (o : Overrides) : (r.overlaid o).NamedIn names :=
  ((r.table_namedIn.layer (by decide) _).layer (by decide) _).layer (by decide) _

/-- The overrides count first, then what was read. -/
lemma overlaid_values (r : Reading) (o : Overrides) : Values.ofTable (r.overlaid o) = r.under o := by
  -- A key is looked up from the topmost layer down.
  have hkeys (key : String) : (r.overlaid o).get? (.str key) =
      (if "time_slice" = key then o.timeSlice.map .int else none).or
        ((if "breakpoints" = key then if o.breakpoints then some (.bool true) else none else none).or
          ((if "rate_ms" = key then o.rate.map .float else none).or (r.table.get? (.str key)))) := by
    unfold overlaid
    rw [Table.get?_layer, Table.get?_layer, Table.get?_layer]
  have htable (key : String) : r.table.get? (.str key) =
      (if "rate_ms" = key then r.rate.map .float else none).or
        ((if "breakpoints" = key then r.breakpoints.map .bool else none).or
          ((if "time_slice" = key then r.timeSlice.map .int else none).or
            (if "history_size" = key then r.history.map .int else none))) := by
    unfold table
    rw [List.append_assoc, List.append_assoc, Table.get?_entry_append, Table.get?_entry_append,
      Table.get?_entry_append, Table.get?_entry]
  unfold Values.ofTable under
  congr 1 <;> rw [hkeys, htable] <;> simp
  cases o.breakpoints <;> simp

end Reading

/-- Whole numbers that are read can be written again. -/
lemma readInteger_writable {name text : String} {n : Int} (h : readInteger name text = .ok n) :
    (Value.int n).isWritable = true := by
  unfold readInteger at h
  split at h <;> cases h
  next hn => exact Value.wholeOfText_writable hn

lemma Environment.Says.writable {env : Environment} {r : Reading} (hr : env.Says r) :
    (∀ n ∈ r.timeSlice, (Value.int n).isWritable = true) ∧
      ∀ n ∈ r.history, (Value.int n).isWritable = true := by
  have hread {name : String} {text : Option String} {n : Int}
      (h : text.mapM (readInteger name) = .ok (some n)) : (Value.int n).isWritable = true := by
    cases text with
    | none => cases h
    | some text =>
      rw [Option.mapM_some] at h
      rcases hm : readInteger name text with f | m <;> rw [hm] at h <;> cases h
      exact readInteger_writable hm
  exact ⟨fun n hn => hread (hr.timeSlice.trans (congrArg Except.ok hn)),
    fun n hn => hread (hr.history.trans (congrArg Except.ok hn))⟩

/-- A failure to read is a refusal. -/
lemma readNumber_error {name text : String} {f : Fault} (h : readNumber name text = .error f) :
    f.kind = .invalidArgument := by
  unfold readNumber at h
  split at h <;> cases h
  rfl

lemma readBoolean_error {name text : String} {f : Fault} (h : readBoolean name text = .error f) :
    f.kind = .invalidArgument := by
  unfold readBoolean at h
  dsimp only at h
  split_ifs at h
  cases h
  rfl

lemma readInteger_error {name text : String} {f : Fault} (h : readInteger name text = .error f) :
    f.kind = .invalidArgument := by
  unfold readInteger at h
  split at h <;> cases h
  rfl

section Variable

variable {α : Type} {read : String → String → Except Fault α} {wrap : α → Value} {name setting : String}
  {text : Option String}

lemma reading_ok_iff {t : Table} : reading read wrap name setting text = .ok t ↔
    ∃ x, text.mapM (read name) = .ok x ∧ t = Table.entry setting (x.map wrap) := by
  cases text with
  | none =>
    constructor
    · intro h
      cases h
      exact ⟨none, rfl, rfl⟩
    · rintro ⟨x, hx, rfl⟩
      cases hx
      rfl
  | some text =>
    have hread : reading read wrap name setting (some text) =
      (read name text >>= fun x => .ok [(.str setting, wrap x)]) := rfl
    have hmap : (some text).mapM (read name) = (read name text >>= fun x => .ok (some x)) := rfl
    rw [hread, hmap]
    cases read name text with
    | error f => exact iff_of_false nofun fun ⟨x, hx, _⟩ => nomatch hx
    | ok x =>
      constructor
      · intro h
        cases h
        exact ⟨some x, rfl, rfl⟩
      · rintro ⟨y, hy, rfl⟩
        cases hy
        rfl

lemma reading_error (hread : ∀ text f, read name text = .error f → f.kind = .invalidArgument) {f : Fault}
    (h : reading read wrap name setting text = .error f) : f.kind = .invalidArgument := by
  cases text with
  | none => cases h
  | some text =>
    rcases bind_eq_error.1 h with h | ⟨x, -, h⟩
    · exact hread text f h
    · cases h

end Variable

lemma readEnvironment_ok_iff {env : Environment} {t : Table} :
    readEnvironment env = .ok t ↔ ∃ r : Reading, env.Says r ∧ t = r.table := by
  unfold readEnvironment
  simp only [bind_eq_ok, reading_ok_iff]
  constructor
  · rintro ⟨_, ⟨rate, hrate, rfl⟩, _, ⟨breakpoints, hbreakpoints, rfl⟩, _, ⟨timeSlice, htime, rfl⟩,
      _, ⟨history, hhistory, rfl⟩, h⟩
    cases h
    exact ⟨⟨rate, breakpoints, timeSlice, history⟩, ⟨hrate, hbreakpoints, htime, hhistory⟩, rfl⟩
  · rintro ⟨r, hr, rfl⟩
    exact ⟨_, ⟨_, hr.rate, rfl⟩, _, ⟨_, hr.breakpoints, rfl⟩, _, ⟨_, hr.timeSlice, rfl⟩, _,
      ⟨_, hr.history, rfl⟩, rfl⟩

lemma readEnvironment_error {env : Environment} {f : Fault} (h : readEnvironment env = .error f) :
    f.kind = .invalidArgument := by
  unfold readEnvironment at h
  rcases bind_eq_error.1 h with h | ⟨rate, -, h⟩
  · exact reading_error (fun _ _ => readNumber_error) h
  rcases bind_eq_error.1 h with h | ⟨breakpoints, -, h⟩
  · exact reading_error (fun _ _ => readBoolean_error) h
  rcases bind_eq_error.1 h with h | ⟨timeSlice, -, h⟩
  · exact reading_error (fun _ _ => readInteger_error) h
  rcases bind_eq_error.1 h with h | ⟨history, -, h⟩
  · exact reading_error (fun _ _ => readInteger_error) h
  cases h

/-- Settings made of the overrides first, then of what was read, then of the defaults. Any zero counts as no
delay. -/
structure IsLayered (o : Overrides) (r : Reading) (s : Settings) : Prop where
  rate : s.rate = if ((o.rate.or r.rate).getD .zero).isZero then .zero else (o.rate.or r.rate).getD .zero
  breakpoints : s.breakpoints = .bool (o.breakpoints || r.breakpoints.getD false)
  timeSlice : (s.timeSlice : Int) = (o.timeSlice.or r.timeSlice).getD 1
  history : (s.historySize : Int) = r.history.getD 1024
  valid : s.IsValid

variable {o : Overrides} {r : Reading} {s : Settings}

/-- Values that are layered are accepted if they are valid. -/
lemma under_give_iff : (r.under o).Give s ↔ s.IsLayered o r := by
  constructor
  · intro h
    refine ⟨?_, h.breakpoints, (Except.ok.inj h.timeSlice).symm, (Except.ok.inj h.history).symm, h.isValid⟩
    have hrate := h.rate
    change if (Value.float _).same (.int 0) then _ else _ at hrate
    rw [Value.float_same_zero] at hrate
    split_ifs at hrate ⊢
    · exact hrate
    · exact (Except.ok.inj hrate.2.1).symm
  · intro h
    refine ⟨?_, h.breakpoints, nofun, congrArg _ h.timeSlice.symm, h.valid.timeSlice, congrArg _ h.history.symm⟩
    have hrate := h.rate
    have hvalid := h.valid.rate.zero_or_positive
    change if (Value.float _).same (.int 0) then _ else _
    rw [Value.float_same_zero]
    split_ifs at hrate ⊢ with hzero
    · exact hrate
    · rw [hrate, if_neg hzero] at hvalid
      exact ⟨nofun, congrArg _ hrate.symm, hrate ▸ hvalid⟩

/-- Layered values are refused, unless it is the time slice asked for that is at fault and cannot be shown. -/
lemma check_under_error {env : Environment} (hr : env.Says r) {f : Fault}
    (h : check (r.under o).rate (r.under o).breakpoints (r.under o).timeSlice (r.under o).history = .error f) :
    f.kind = .invalidArgument ∨ f = .unwritable ∧ o.Unshown := by
  have hshown {v : Value} {why : String → Fault} (hv : v.isWritable = true)
      (hwhy : ∀ shown, (why shown).kind = .invalidArgument) : (v.refusal why).kind = .invalidArgument := by
    rw [Value.refusal_of_writable why hv]
    exact hwhy _
  have hwritable {given : Option Int} {n : Int} (hgiven : ∀ m ∈ given, (Value.int m).isWritable = true)
      (hn : (Value.int n).isWritable = true) : (Value.int (given.getD n)).isWritable = true := by
    cases given with
    | none => exact hn
    | some m => exact hgiven m rfl
  unfold check at h
  rcases hrate : checkRate (r.under o).rate with g | x <;> rw [hrate] at h
  · cases h
    rcases checkRate_error hrate with rfl | ⟨⟨n, hn, -⟩, -⟩
    · exact .inl (hshown rfl fun _ => rfl)
    · exact nomatch (show Value.float _ = .int n from hn)
  rcases htime : checkTimeSlice (r.under o).timeSlice with g | n <;> rw [htime] at h
  · cases h
    change checkTimeSlice (.int ((o.timeSlice.or r.timeSlice).getD 1)) = _ at htime
    rw [checkTimeSlice_int] at htime
    split_ifs at htime with hsmall
    cases htime
    rcases hlong : (Value.int ((o.timeSlice.or r.timeSlice).getD 1)).isWritable with _ | _
    · -- What the variable says can be shown, so it is the override.
      refine .inr ⟨Value.refusal_of_unwritable _ hlong, ?_⟩
      rcases ho : o.timeSlice with _ | n
      · rw [ho, Option.none_or] at hlong
        exact nomatch (hwritable hr.writable.1 (by decide +kernel)).symm.trans hlong
      · rw [ho] at hsmall hlong
        exact ⟨n, ho, hsmall, hlong⟩
    · exact .inl (hshown hlong fun _ => rfl)
  rcases hhistory : checkHistory (r.under o).history with g | m <;> rw [hhistory] at h
  · cases h
    rcases checkHistory_error hhistory with rfl | hf
    · exact .inl (hshown (hwritable hr.writable.2 (by decide +kernel)) fun _ => rfl)
    · exact nomatch hf
  · cases h

/-- Settings from an environment that can be read. -/
lemma ofEnvironment_eq {env : Environment} (hr : env.Says r) : ofEnvironment env o.table =
    check (r.under o).rate (r.under o).breakpoints (r.under o).timeSlice (r.under o).history := by
  have hnames : checkOverrides o.table = .ok () := rfl
  have hread : readEnvironment env = .ok r.table := readEnvironment_ok_iff.2 ⟨r, hr, rfl⟩
  unfold ofEnvironment
  rw [hnames, hread, ← r.overlaid_values o, ← ofTable_eq (checkNames_of_namedIn (r.overlaid_namedIn o)),
    ← r.overlaid_eq o]
  rfl

/-- An environment that cannot be read is refused whatever is overridden. -/
lemma says_or_refused (env : Environment) (o : Overrides) : (∃ r : Reading, env.Says r) ∨
    ∃ f, ofEnvironment env o.table = .error f ∧ f.kind = .invalidArgument := by
  cases hread : readEnvironment env with
  | error f =>
    have hnames : checkOverrides o.table = .ok () := rfl
    refine .inr ⟨f, ?_, readEnvironment_error hread⟩
    unfold ofEnvironment
    rw [hnames, hread]
    rfl
  | ok t =>
    obtain ⟨r, hr, -⟩ := readEnvironment_ok_iff.1 hread
    exact .inl ⟨r, hr⟩

/-- Settings from an environment are settings from named values. -/
lemma ofTable_of_ofEnvironment {env : Environment} {overrides : Table}
    (h : ofEnvironment env overrides = .ok s) : ∃ given, ofTable given = .ok s := by
  obtain ⟨_, -, h⟩ := bind_eq_ok.1 h
  obtain ⟨t, -, h⟩ := bind_eq_ok.1 h
  exact ⟨_, h⟩

/-- Valid settings are accepted as they stand. -/
lemma ofTable_toTable (hs : s.IsValid) : ofTable s.toTable = .ok s := by
  have hnames : checkNames s.toTable = .ok () := rfl
  have hvalues : Values.ofTable s.toTable =
      ⟨.float s.rate, s.breakpoints, .int s.timeSlice, .int s.historySize⟩ := rfl
  rw [ofTable_eq hnames, hvalues, Values.check_ok_iff]
  refine ⟨?_, rfl, nofun, rfl, hs.timeSlice, rfl⟩
  dsimp only
  rw [Value.float_same_zero]
  have hrate := hs.rate.zero_or_positive
  split_ifs at hrate ⊢
  · exact hrate
  · exact ⟨nofun, rfl, hrate⟩

/-- What the command line gives under the key of an option is read as the option says. -/
lemma given_option {args : List String} {given : Arguments.Given} (h : Session.launchForm.read args = .ok given)
    {key : String} (reading : Arguments.Reading)
    (hkey : ∀ s ∈ Session.launchForm.switches, key = s.key → s.effect = .value reading) {v : Value}
    (hv : given.last? key = some v) : ∃ text, reading.read? text = some v := by
  obtain ⟨s, hs, hfiled, hvalue⟩ := (Arguments.Form.read_files h _ (Arguments.Given.last?_mem hv)).resolve_right
    fun ⟨o, ho, _⟩ => nomatch ho
  have heffect : s.effect = .value reading := hkey s hs hfiled
  rcases hvalue with ⟨hflag, -⟩ | ⟨-, text, htext⟩
  · cases heffect.symm.trans hflag
  · refine ⟨text, ?_⟩
    have hreading : s.reading = reading := by
      unfold Arguments.Switch.reading
      rw [heffect]
    rwa [← hreading]

/-- The options of the command line override as numbers and switches. -/
lemma overrides_eq_table {args : List String} {given : Arguments.Given}
    (h : Session.launchForm.read args = .ok given) :
    ∃ o : Overrides, Session.overrides given = o.table ∧ ¬ o.Unshown := by
  have hrate : ∃ x : Option Binary64, given.last? "rate" = x.map .float := by
    cases hv : given.last? "rate" with
    | none => exact ⟨none, rfl⟩
    | some v =>
      obtain ⟨text, htext⟩ := given_option h .number (by decide) hv
      obtain ⟨x, -, rfl⟩ := Option.map_eq_some_iff.1 htext
      exact ⟨some x, rfl⟩
  have htime : ∃ n : Option Int, given.last? "time_slice" = n.map .int ∧
      ∀ m ∈ n, (Value.int m).isWritable = true := by
    cases hv : given.last? "time_slice" with
    | none => exact ⟨none, rfl, nofun⟩
    | some v =>
      obtain ⟨text, htext⟩ := given_option h .whole (by decide) hv
      obtain ⟨n, hn, rfl⟩ := Option.map_eq_some_iff.1 htext
      refine ⟨some n, rfl, ?_⟩
      rintro _ ⟨⟩
      rcases hread : Value.wholeOfText text with f | m <;> rw [hread] at hn <;> cases hn
      exact Value.wholeOfText_writable hread
  obtain ⟨rate, hrate⟩ := hrate
  obtain ⟨timeSlice, htime, hwritable⟩ := htime
  refine ⟨⟨rate, given.has "breakpoints", timeSlice⟩, ?_, fun ⟨n, hn, _, hlong⟩ => ?_⟩
  · unfold Session.overrides Overrides.table
    rw [hrate, htime]
  · exact nomatch (hwritable n hn).symm.trans hlong

end Settings
end Loom
