import Loom.Proofs.Accord
import Loom.Proofs.Conversion

/-! Which values are accepted as a rate and as settings, and how the others are refused. A refusal shows the
value that is at fault. Beyond refusals there are only faults that the checks do not catch: of a rate that is
too large a whole number, of a time slice or a history size that gives no whole number, and of a value at
fault that no text can show. -/
namespace Loom

lemma Binary64.eqInt_zero (x : Binary64) : x.eqInt 0 = x.isZero := by
  match x with
  | .nan | .infinite _ => rfl
  | .finite negative units =>
    have hof : (finite negative units).eqInt 0 = (signed negative units == 0 * (unit : Int)) := rfl
    rw [hof, Int.zero_mul]
    cases negative <;> cases units <;> simp [signed, isZero] <;> omega

lemma Value.float_same_zero (x : Binary64) : (Value.float x).same (.int 0) = x.isZero := by
  rw [← Binary64.eqInt_zero]
  unfold Value.same Value.eqTo
  rfl

namespace Rate

variable {v : Value} {x : Binary64}

/-- A valid rate that is any zero is the plain zero. -/
lemma IsValid.zero_or_positive (hx : IsValid x) : if x.isZero then x = .zero else x.isPositive = true := by
  rcases hx with rfl | hx
  · exact (if_pos rfl).mpr rfl
  · match x, hx with
    | .finite false (_ + 1), hx => exact (if_neg Bool.false_ne_true).mpr hx

/-- A value that gives a delay: no truth value, and finite and above zero as a number. -/
def Denotes (v : Value) (x : Binary64) : Prop :=
  (∀ b, v ≠ .bool b) ∧ v.toFloat = .ok x ∧ x.isPositive = true

lemma check_eq (hv : ∀ b, v ≠ .bool b) : check v = match v.toFloat with
    | .ok x => if x.isPositive then .ok x else .error (v.refusal .rateRejected)
    | .error .wholeTooLarge => .error .wholeTooLarge
    | .error _ => .error (v.refusal .rateRejected) := by
  unfold check
  split
  · next b => exact absurd rfl (hv b)
  · rfl

lemma check_ok_iff : check v = .ok x ↔ Denotes v x := by
  constructor
  · intro h
    have hv : ∀ b, v ≠ .bool b := by
      rintro b rfl
      cases h
    rw [check_eq hv] at h
    split at h
    · next y hy =>
      split_ifs at h with hpositive
      cases h
      exact ⟨hv, hy, hpositive⟩
    · cases h
    · cases h
  · rintro ⟨hv, hx, hpositive⟩
    rw [check_eq hv, hx]
    exact if_pos hpositive

lemma check_of_isHuge (hv : v.IsHuge) : check v = .error .wholeTooLarge := by
  have hbool : ∀ b, v ≠ .bool b := by
    rintro b rfl
    obtain ⟨n, hn, -⟩ := hv
    cases hn
  rw [check_eq hbool, Value.toFloat_of_isHuge hv]

lemma check_error (hv : ¬ v.IsHuge) {f : Fault} (h : check v = .error f) : f = v.refusal .rateRejected := by
  by_cases hbool : ∃ b, v = .bool b
  · obtain ⟨b, rfl⟩ := hbool
    cases h
    rfl
  · rw [check_eq (not_exists.1 hbool)] at h
    split at h
    · split_ifs at h
      cases h
      rfl
    · next hlarge => exact absurd rfl (Value.toFloat_mismatch hv hlarge).ne_overflow
    · cases h
      rfl

end Rate

namespace Settings

/-- Settings as they can be: a valid rate and a time slice of one step or more. -/
structure IsValid (s : Settings) : Prop where
  rate : Rate.IsValid s.rate
  timeSlice : 1 ≤ s.timeSlice

/-- The values that settings are made of. -/
structure Values where
  rate : Value
  breakpoints : Value
  timeSlice : Value
  history : Value

namespace Values

/-- The values that a table names, and defaults for the others. -/
def ofTable (given : Table) : Values where
  rate := (given.get? (.str "rate_ms")).getD (.float .zero)
  breakpoints := (given.get? (.str "breakpoints")).getD (.bool false)
  timeSlice := (given.get? (.str "time_slice")).getD (.int 1)
  history := (given.get? (.str "history_size")).getD (.int 1024)

/-- What the values come to as settings, where any zero stands for no delay. -/
structure Give (v : Values) (s : Settings) : Prop where
  rate : if v.rate.same (.int 0) then s.rate = .zero else Rate.Denotes v.rate s.rate
  breakpoints : s.breakpoints = v.breakpoints
  notBool : ∀ b, v.timeSlice ≠ .bool b
  timeSlice : v.timeSlice.toInt = .ok s.timeSlice
  positive : 1 ≤ s.timeSlice
  history : v.history.toInt = .ok s.historySize

/-- A refusal of one of these values, which shows it. -/
inductive Rejects (v : Values) : Fault → Prop
  | rate (hv : v.rate.isWritable = true) : Rejects v (.rateRejected v.rate.spelling)
  | timeSlice (hv : v.timeSlice.isWritable = true) : Rejects v (.timeSliceRejected v.timeSlice.spelling)
  | history (hv : v.history.isWritable = true) : Rejects v (.historyRejected v.history.spelling)

/-- A fault of a conversion behind the checks, or of showing one of the values. -/
inductive Escapes (v : Values) : Fault → Prop
  | rate (hv : v.rate.IsHuge) : Escapes v .wholeTooLarge
  | timeSlice {f : Fault} (hv : ∀ b, v.timeSlice ≠ .bool b) (hf : v.timeSlice.toInt = .error f) : Escapes v f
  | history {f : Fault} (hf : v.history.toInt = .error f) : Escapes v f
  | unshown (hv : v.rate.isWritable = false ∨ v.timeSlice.isWritable = false ∨ v.history.isWritable = false) :
      Escapes v .unwritable

lemma Rejects.kind {v : Values} {f : Fault} (hf : v.Rejects f) : f.kind = .invalidArgument := by
  cases hf <;> rfl

/-- What escapes is never of the family of refusals. -/
lemma Escapes.kind {v : Values} {f : Fault} (hf : v.Escapes f) : f.kind ≠ .invalidArgument := by
  have hwhole {w : Value} (h : w.toInt = .error f) : f.kind ≠ .invalidArgument := by
    by_cases hw : w.IsInfinite
    · cases (Value.toInt_of_isInfinite hw).symm.trans h
      decide
    · rcases Value.toInt_mismatch hw h with hkind | hkind <;> rw [hkind] <;> decide
  cases hf with
  | rate => decide
  | timeSlice _ h => exact hwhole h
  | history h => exact hwhole h
  | unshown => decide

section Refused

variable (v : Values)

lemma rate_refused : v.Rejects (v.rate.refusal .rateRejected) ∨ v.Escapes (v.rate.refusal .rateRejected) := by
  rcases hv : v.rate.isWritable with _ | _
  · exact .inr (Value.refusal_of_unwritable _ hv ▸ .unshown (.inl hv))
  · exact .inl (Value.refusal_of_writable _ hv ▸ .rate hv)

lemma timeSlice_refused : v.Rejects (v.timeSlice.refusal .timeSliceRejected) ∨
    v.Escapes (v.timeSlice.refusal .timeSliceRejected) := by
  rcases hv : v.timeSlice.isWritable with _ | _
  · exact .inr (Value.refusal_of_unwritable _ hv ▸ .unshown (.inr (.inl hv)))
  · exact .inl (Value.refusal_of_writable _ hv ▸ .timeSlice hv)

lemma history_refused : v.Rejects (v.history.refusal .historyRejected) ∨
    v.Escapes (v.history.refusal .historyRejected) := by
  rcases hv : v.history.isWritable with _ | _
  · exact .inr (Value.refusal_of_unwritable _ hv ▸ .unshown (.inr (.inr hv)))
  · exact .inl (Value.refusal_of_writable _ hv ▸ .history hv)

end Refused

end Values

variable {given : Value} {s : Settings}

lemma checkRate_ok_iff {x : Binary64} :
    checkRate given = .ok x ↔ if given.same (.int 0) then x = .zero else Rate.Denotes given x := by
  unfold checkRate
  split_ifs
  · exact ⟨fun h => (Except.ok.inj h).symm, fun h => congrArg _ h.symm⟩
  · exact Rate.check_ok_iff

lemma checkRate_zero : checkRate (.float .zero) = .ok .zero :=
  checkRate_ok_iff.2 (by rw [Value.float_same_zero]; rfl)

lemma checkRate_error {f : Fault} (h : checkRate given = .error f) :
    f = given.refusal .rateRejected ∨ given.IsHuge ∧ f = .wholeTooLarge := by
  unfold checkRate at h
  split_ifs at h
  by_cases hhuge : given.IsHuge
  · rw [Rate.check_of_isHuge hhuge] at h
    cases h
    exact .inr ⟨hhuge, rfl⟩
  · exact .inl (Rate.check_error hhuge h)

/-- A whole number that must not lie below a bound. -/
lemma atLeast_ok_iff {k : Nat} {f : Fault} {r : Except Fault Int} {n : Nat} :
    (do let m ← r; if m < k then .error f else .ok m.toNat : Except Fault Nat) = .ok n ↔
      r = .ok (n : Int) ∧ k ≤ n := by
  rcases r with g | m
  · exact iff_of_false nofun nofun
  · change (if m < k then .error f else .ok m.toNat : Except Fault Nat) = .ok n ↔ _
    rw [Except.ok.injEq]
    split_ifs with hm
    · exact iff_of_false nofun (by omega)
    · rw [Except.ok.injEq]
      omega

lemma atLeast_error {k : Nat} {f g : Fault} {r : Except Fault Int}
    (h : (do let m ← r; if m < k then .error f else .ok m.toNat : Except Fault Nat) = .error g) :
    g = f ∨ r = .error g := by
  rcases r with g' | m
  · exact .inr (congrArg Except.error (Except.error.inj h))
  · change (if m < k then .error f else .ok m.toNat : Except Fault Nat) = .error g at h
    split_ifs at h
    exact .inl (Except.error.inj h).symm

lemma checkTimeSlice_eq (hgiven : ∀ b, given ≠ .bool b) : checkTimeSlice given = (do
    let m ← given.toInt
    if m < (1 : Nat) then .error (given.refusal .timeSliceRejected) else .ok m.toNat) := by
  unfold checkTimeSlice
  split
  · next b => exact absurd rfl (hgiven b)
  · rfl

lemma checkTimeSlice_ok_iff {n : Nat} :
    checkTimeSlice given = .ok n ↔ (∀ b, given ≠ .bool b) ∧ given.toInt = .ok (n : Int) ∧ 1 ≤ n := by
  by_cases hbool : ∃ b, given = .bool b
  · obtain ⟨b, rfl⟩ := hbool
    exact iff_of_false nofun fun h => h.1 b rfl
  · rw [checkTimeSlice_eq (not_exists.1 hbool), atLeast_ok_iff, and_iff_right (not_exists.1 hbool)]

lemma checkTimeSlice_error {f : Fault} (h : checkTimeSlice given = .error f) :
    f = given.refusal .timeSliceRejected ∨ (∀ b, given ≠ .bool b) ∧ given.toInt = .error f := by
  by_cases hbool : ∃ b, given = .bool b
  · obtain ⟨b, rfl⟩ := hbool
    exact .inl (Except.error.inj h).symm
  · rw [checkTimeSlice_eq (not_exists.1 hbool)] at h
    exact (atLeast_error h).imp_right fun hf => ⟨not_exists.1 hbool, hf⟩

lemma checkTimeSlice_int (n : Int) : checkTimeSlice (.int n) =
    if n < 1 then .error ((Value.int n).refusal .timeSliceRejected) else .ok n.toNat := rfl

lemma checkHistory_ok_iff {n : Nat} : checkHistory given = .ok n ↔ given.toInt = .ok (n : Int) :=
  (atLeast_ok_iff (k := 0)).trans (and_iff_left (Nat.zero_le n))

lemma checkHistory_error {f : Fault} (h : checkHistory given = .error f) :
    f = given.refusal .historyRejected ∨ given.toInt = .error f := atLeast_error (k := 0) h

namespace Values

variable {v : Values}

/-- Settings are made of values that pass the three checks. -/
lemma check_ok_iff :
    check v.rate v.breakpoints v.timeSlice v.history = .ok s ↔ v.Give s := by
  have hparts : check v.rate v.breakpoints v.timeSlice v.history = .ok s ↔
      checkRate v.rate = .ok s.rate ∧ s.breakpoints = v.breakpoints ∧
        checkTimeSlice v.timeSlice = .ok s.timeSlice ∧ checkHistory v.history = .ok s.historySize := by
    unfold check
    rcases checkRate v.rate with f | x
    · exact iff_of_false nofun nofun
    rcases checkTimeSlice v.timeSlice with f | n
    · exact iff_of_false nofun nofun
    rcases checkHistory v.history with f | m
    · exact iff_of_false nofun nofun
    constructor
    · intro h
      cases h
      exact ⟨rfl, rfl, rfl, rfl⟩
    · rintro ⟨hrate, hbreakpoints, htime, hhistory⟩
      cases hrate
      cases htime
      cases hhistory
      rw [← hbreakpoints]
      rfl
  rw [hparts, checkRate_ok_iff, checkTimeSlice_ok_iff, checkHistory_ok_iff]
  exact ⟨fun ⟨hrate, hbreakpoints, ⟨hbool, htime, hpos⟩, hhistory⟩ =>
    ⟨hrate, hbreakpoints, hbool, htime, hpos, hhistory⟩,
    fun h => ⟨h.rate, h.breakpoints, ⟨h.notBool, h.timeSlice, h.positive⟩, h.history⟩⟩

lemma check_error {f : Fault} (h : check v.rate v.breakpoints v.timeSlice v.history = .error f) :
    v.Rejects f ∨ v.Escapes f := by
  unfold check at h
  rcases hrate : checkRate v.rate with g | x <;> rw [hrate] at h
  · cases h
    rcases checkRate_error hrate with rfl | ⟨hhuge, rfl⟩
    · exact v.rate_refused
    · exact .inr (.rate hhuge)
  rcases htime : checkTimeSlice v.timeSlice with g | n <;> rw [htime] at h
  · cases h
    rcases checkTimeSlice_error htime with rfl | ⟨hbool, hf⟩
    · exact v.timeSlice_refused
    · exact .inr (.timeSlice hbool hf)
  rcases hhistory : checkHistory v.history with g | m <;> rw [hhistory] at h
  · cases h
    rcases checkHistory_error hhistory with rfl | hf
    · exact v.history_refused
    · exact .inr (.history hf)
  · cases h

lemma Give.isValid (h : v.Give s) : s.IsValid := by
  refine ⟨?_, h.positive⟩
  have hrate := h.rate
  split_ifs at hrate
  · exact .inl hrate
  · exact .inr hrate.2.2

end Values

lemma ofTable_eq {given : Table} (hnames : checkNames given = .ok ()) :
    ofTable given = check (Values.ofTable given).rate (Values.ofTable given).breakpoints
      (Values.ofTable given).timeSlice (Values.ofTable given).history := by
  unfold ofTable
  rw [hnames]
  rfl

lemma ofTable_isValid {given : Table} {s : Settings} (h : ofTable given = .ok s) : s.IsValid := by
  cases hnames : checkNames given with
  | error f =>
    unfold ofTable at h
    rw [hnames] at h
    cases h
  | ok =>
    rw [ofTable_eq hnames] at h
    exact (Values.check_ok_iff.1 h).isValid

end Settings

namespace World

variable {D : Dialect} {v : Value} {w : World D}

/-- An accepted rate is set, and nothing else about the engine changes. -/
lemma setRate_accepted (hlive : w.engine.phase ≠ .terminated) {x : Binary64} (hx : Rate.check v = .ok x) :
    ∃ w', (setRate (some v)).outcome w = (.ok (), w') ∧ w'.engine = { w.engine with rate := x } := by
  refine ⟨(w.altered (·.atRate x)).noted .debug .process s!"rate set to {x.text}ms", ?_, rfl⟩
  rw [setRate_outcome, if_neg hlive, Option.map_some, hx]
  rfl

lemma setRate_refused (hlive : w.engine.phase ≠ .terminated) {f : Fault} (hf : Rate.check v = .error f) :
    (setRate (some v)).outcome w = (.error f, w) := by
  rw [setRate_outcome, if_neg hlive, Option.map_some, hf]
  rfl

end World

namespace Settings

/-- Exactly the values that give a delay are accepted as a rate, and all others are refused as such, but for
whole numbers that are too large and for what no text can show. Named values give valid settings, or one of
them is refused, or a conversion or the wording of the refusal fails with a fault of its own. An engine that
is not terminated takes the rates that are accepted, and is left as it was by all others. -/
theorem accepted_or_refused {D : Dialect} (v : Value) (given : Table) (w : World D) :
    ((∀ x, Rate.check v = .ok x ↔ Rate.Denotes v x) ∧
      (¬ v.IsHuge → (∀ x, ¬ Rate.Denotes v x) →
        (v.isWritable = true → Rate.check v = .error (.rateRejected v.spelling) ∧
          (Fault.rateRejected v.spelling).kind = .invalidArgument) ∧
        (v.isWritable = false → Rate.check v = .error .unwritable)) ∧
      (v.IsHuge → Rate.check v = .error .wholeTooLarge)) ∧
    (checkNames given = .ok () →
      (∀ s, ofTable given = .ok s ↔ (Values.ofTable given).Give s) ∧
      ((∃ s, ofTable given = .ok s ∧ s.IsValid) ∨ ∃ f, ofTable given = .error f ∧
        ((Values.ofTable given).Rejects f ∧ f.kind = .invalidArgument ∨
          (Values.ofTable given).Escapes f ∧ f.kind ≠ .invalidArgument))) ∧
    (∀ x, Rate.check v = .ok x → w.engine.phase ≠ .terminated →
      ∃ w', (World.setRate (some v)).outcome w = (.ok (), w') ∧ w'.engine = { w.engine with rate := x }) ∧
    (∀ f, Rate.check v = .error f → w.engine.phase ≠ .terminated →
      (World.setRate (some v)).outcome w = (.error f, w)) ∧
    (w.engine.phase = .terminated → (World.setRate (some v)).outcome w = (.error .rateAfterTermination, w)) := by
  refine ⟨⟨fun x => Rate.check_ok_iff, fun hhuge hnone => ?_, Rate.check_of_isHuge⟩, fun hnames => ?_,
    fun x hx hlive => World.setRate_accepted hlive hx, fun f hf hlive => World.setRate_refused hlive hf,
    fun hover => ?_⟩
  · have hrefused : Rate.check v = .error (v.refusal .rateRejected) := by
      rcases h : Rate.check v with f | x
      · rw [Rate.check_error hhuge h]
      · exact absurd (Rate.check_ok_iff.1 h) (hnone x)
    rw [hrefused]
    exact ⟨fun hv => ⟨congrArg _ (v.refusal_of_writable _ hv), rfl⟩,
      fun hv => congrArg _ (v.refusal_of_unwritable _ hv)⟩
  · rw [ofTable_eq hnames]
    refine ⟨fun s => Values.check_ok_iff, ?_⟩
    rcases h : check (Values.ofTable given).rate (Values.ofTable given).breakpoints
      (Values.ofTable given).timeSlice (Values.ofTable given).history with f | s
    · exact .inr ⟨f, rfl, (Values.check_error h).imp (fun hf => ⟨hf, hf.kind⟩) fun hf => ⟨hf, hf.kind⟩⟩
    · exact .inl ⟨s, rfl, (Values.check_ok_iff.1 h).isValid⟩
  · rw [World.setRate_outcome, if_pos hover]

/-- A fresh engine refuses an empty list as a rate and accepts the least number above zero; settings with a
table for a rate are refused. -/
theorem least_rate_accepted :
    let w := (Block.unrulyRun .manual).world
    let least : Binary64 := .finite false 1
    let given : Table := Table.ofNamed [("rate_ms", .dict []), ("time_slice", .float least)]
    (World.setRate (some (.list []))).outcome w = (.error (.rateRejected "[]"), w) ∧
      (∃ w', (World.setRate (some (.float least))).outcome w = (.ok (), w') ∧ w'.engine.rate = least) ∧
      ∃ f, ofTable given = .error f ∧ f.kind = .invalidArgument := by
  intro w least given
  have hlive : w.engine.phase ≠ .terminated := by decide +kernel
  have hlist : ¬ (Value.list []).IsHuge := fun ⟨n, hn, _⟩ => nomatch hn
  have hnone : ∀ x, ¬ Rate.Denotes (.list []) x := fun x hx => nomatch hx.2.1
  have hleast : Rate.Denotes (.float least) least := ⟨nofun, rfl, rfl⟩
  have hnames : checkNames given = .ok () := rfl
  obtain ⟨⟨-, hrejected, -⟩, -, -, hrefused, -⟩ := accepted_or_refused (.list []) given w
  obtain ⟨⟨haccepted, -, -⟩, hsettings, hset, -, -⟩ := accepted_or_refused (.float least) given w
  obtain ⟨w', hw', hengine⟩ := hset least ((haccepted least).2 hleast) hlive
  obtain ⟨hshown, -⟩ := (hrejected hlist hnone).1 rfl
  refine ⟨hrefused _ hshown hlive, ⟨w', hw', by rw [hengine]⟩, ?_⟩
  obtain ⟨hgive, ⟨s, hs, -⟩ | ⟨f, hf, ⟨-, hkind⟩ | ⟨hescapes, -⟩⟩⟩ := hsettings hnames
  · exact nomatch ((hgive s).1 hs).rate.2.1
  · exact ⟨f, hf, hkind⟩
  · rcases hescapes with ⟨n, hn, -⟩ | ⟨-, htime⟩ | hhistory | hunshown
    · exact nomatch (show Value.dict [] = .int n from hn)
    · exact nomatch htime
    · exact nomatch hhistory
    · rcases hunshown with hrate | htime | hhistory
      · exact nomatch hrate
      · exact nomatch htime
      · have hwritable : (Values.ofTable given).history.isWritable = true := by decide +kernel
        exact nomatch hwritable.symm.trans hhistory

/-- A rate that is too large, and a time slice that is no number, fail in the conversion; a time slice too long to
be written fails when its refusal is worded. -/
theorem conversions_escape :
    let huge : Value := .int (2 ^ 1024)
    let given : Table := Table.ofNamed [("time_slice", .str "x")]
    Rate.check huge = .error .wholeTooLarge ∧ Fault.wholeTooLarge.kind = .overflow ∧
      ofTable given = .error (.notWhole "x") ∧ (Fault.notWhole "x").kind = .value ∧
      checkTimeSlice (.int (-10 ^ 5000)) = .error .unwritable ∧ Fault.unwritable.kind = .value := by
  intro huge given
  refine ⟨Rate.check_of_isHuge Value.isHuge_two_pow, rfl, ?_, rfl, ?_, rfl⟩
  · have hnames : checkNames given = .ok () := rfl
    have hrate : checkRate (Values.ofTable given).rate = .ok .zero := checkRate_zero
    have htime : checkTimeSlice (Values.ofTable given).timeSlice = .error (.notWhole "x") := rfl
    rw [ofTable_eq hnames]
    unfold check
    rw [hrate, htime]
    rfl
  · have hsmall : (-10 ^ 5000 : Int) < 1 := by decide +kernel
    have hlong : (Value.int (-10 ^ 5000)).isWritable = false := by decide +kernel
    exact (checkTimeSlice_int _).trans ((if_pos hsmall).trans
      (congrArg Except.error (Value.refusal_of_unwritable _ hlong)))

end Settings
end Loom
