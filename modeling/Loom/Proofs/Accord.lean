import Loom.Proofs.Setback

/-! The settings of a session. The rate and the breakpoints are kept twice: among the settings, for engines to
come, and by the current engine. Commands change them in both places, engines are replaced, steps fire. As
long as the program itself leaves them alone the two agree, and they are what the last successful command has
set. -/
namespace Loom

/-- Changing a setting of an engine. -/
def Request.Sets : Request D → Prop
  | rate _ | breakpoints _ => True
  | _ => False

lemma Request.IsDebugging.not_sets {r : Request D} (hr : r.IsDebugging) : ¬ r.Sets := by
  cases r <;> simp_all [IsDebugging, Sets]

/-- The rate that an argument asks for; without one there is no delay. -/
def Rate.read (given : Option Value) : Except Fault Binary64 := (given.map Rate.check).getD (.ok .zero)

/-- A rate that can be set: none, or a finite delay above zero. -/
def Rate.IsValid (rate : Binary64) : Prop := rate = .zero ∨ rate.isPositive = true

lemma Rate.check_valid {given : Value} {rate : Binary64} (h : Rate.check given = .ok rate) :
    Rate.IsValid rate := by
  unfold Rate.check at h
  split at h
  · cases h
  · split at h
    · split_ifs at h with hpositive
      cases h
      exact .inr hpositive
    · cases h
    · cases h

lemma Rate.read_valid {given : Option Value} {rate : Binary64} (h : Rate.read given = .ok rate) :
    Rate.IsValid rate := by
  cases given with
  | none =>
    cases h
    exact .inl rfl
  | some v => exact Rate.check_valid h

lemma Settings.checkRate_valid {given : Value} {rate : Binary64} (h : checkRate given = .ok rate) :
    Rate.IsValid rate := by
  unfold checkRate at h
  split_ifs at h
  · cases h
    exact .inl rfl
  · exact Rate.check_valid h

lemma Settings.check_valid {rate breakpoints timeSlice history : Value} {s : Settings}
    (h : check rate breakpoints timeSlice history = .ok s) : Rate.IsValid s.rate := by
  unfold check at h
  rcases hrate : checkRate rate with f | x
  · simp [hrate] at h
  · rcases htime : checkTimeSlice timeSlice with f | n
    · simp [hrate, htime] at h
    · rcases hhistory : checkHistory history with f | m <;> simp [hrate, htime, hhistory] at h
      rw [← h]
      exact checkRate_valid hrate

/-- A command that was carried out: its verb, its arguments as far as they fit, and the code it returned. -/
structure Carried where
  verb : Option Verb
  given : Option Arguments.Given
  code : Option Int

namespace Carried

/-- The rate that a command has set. -/
def rate? (c : Carried) : Option Binary64 :=
  if c.verb = some .rate ∧ c.code = some 0 then
    c.given.bind fun given => (Rate.read (given.last? "ms")).toOption
  else none

/-- Whether a command has switched breakpoints on or off. -/
def breakpoints? (c : Carried) : Option Bool :=
  if c.verb = some .breakpoints ∧ c.code = some 0 then
    c.given.bind fun given => (given.last? "mode").map (·.same (.str "on"))
  else none

lemma rate_valid {c : Carried} {x : Binary64} (h : c.rate? = some x) : Rate.IsValid x := by
  unfold rate? at h
  split_ifs at h
  obtain ⟨given, -, hread⟩ := Option.bind_eq_some_iff.1 h
  rcases hr : Rate.read (given.last? "ms") with f | y <;> rw [hr] at hread <;> cases hread
  exact Rate.read_valid hr

end Carried

namespace Settings

/-- Settings after a command. -/
def under (s : Settings) (c : Carried) : Settings :=
  { s with rate := c.rate?.getD s.rate, breakpoints := (c.breakpoints?.map .bool).getD s.breakpoints }

variable (s : Settings)

/-- Commands that fail, and all but two, leave the settings as they are. -/
lemma under_eq {c : Carried} (hc : c.code = some 0 → c.verb ≠ some .rate ∧ c.verb ≠ some .breakpoints) :
    s.under c = s := by
  have hrate : c.rate? = none := if_neg fun h => (hc h.2).1 h.1
  have hbreakpoints : c.breakpoints? = none := if_neg fun h => (hc h.2).2 h.1
  unfold under
  rw [hrate, hbreakpoints]
  rfl

/-- After a sequence of commands the last one to set something counts. -/
lemma foldl_under (cs : List Carried) :
    (cs.foldl under s).rate = ((cs.filterMap (·.rate?)).getLast?).getD s.rate ∧
      (cs.foldl under s).breakpoints =
        (((cs.filterMap (·.breakpoints?)).getLast?).map .bool).getD s.breakpoints := by
  induction cs using List.reverseRecOn with
  | nil => exact ⟨rfl, rfl⟩
  | append_singleton cs c ih =>
    rw [List.foldl_append, List.filterMap_append, List.filterMap_append]
    constructor
    · rcases hc : c.rate? with _ | x <;> simp [under, hc, ih.1]
    · rcases hc : c.breakpoints? with _ | on <;> simp [under, hc, ih.2]

/-- The rates that commands set are valid. -/
lemma foldl_under_valid {s : Settings} (hs : Rate.IsValid s.rate) (cs : List Carried) :
    Rate.IsValid (cs.foldl under s).rate := by
  induction cs generalizing s with
  | nil => exact hs
  | cons c cs ih =>
    refine ih ?_
    rcases hc : c.rate? with _ | x
    · simpa [under, hc] using hs
    · simpa [under, hc] using Carried.rate_valid hc

end Settings

namespace Value

/-- A value that is written as it stands. -/
def IsWritten (v : Value) : Prop := ∀ fuel level, ∃ text, v.documentTo fuel level = .ok text

lemma isWritten_str (s : String) : (str s).IsWritten := fun fuel level => ⟨jsonText s, by simp [documentTo]⟩

lemma isWritten_bool (b : Bool) : (bool b).IsWritten := fun fuel level => ⟨_, by simp [documentTo]; rfl⟩

lemma isWritten_float (x : Binary64) : (float x).IsWritten := fun fuel level =>
  ⟨jsonFloat x, by simp [documentTo]⟩

/-- Two entries under texts are put in order and written. -/
lemma documentTo_pair {s t : String} {v w : Value} {fuel : Nat} (level : Nat)
    (hv : ∀ level, ∃ text, v.documentTo fuel level = .ok text)
    (hw : ∀ level, ∃ text, w.documentTo fuel level = .ok text) :
    ∃ text, documentTo (fuel + 1) level (.dict (Table.ofNamed [(s, v), (t, w)])) = .ok text := by
  obtain ⟨x, hx⟩ := hv (level + 1)
  obtain ⟨y, hy⟩ := hw (level + 1)
  by_cases hlt : t < s <;>
    simp [Table.ofNamed, documentTo, sortEntries, leadingRun, lt, hlt, entriesTo, jsonKey, hx, hy]

end Value

/-- A report succeeds if its items can be written. -/
lemma Report.result_writes (json : Bool) (message : String) {items : Table}
    (hitems : ∀ fuel level, ∃ text, (Value.dict items).documentTo (fuel + 1) level = .ok text) :
    ∃ text, Report.result json message (some items) = .ok text := by
  cases json with
  | false => exact ⟨_, rfl⟩
  | true =>
    have hreport (fuel : Nat) : ∃ text, Value.documentTo (fuel + 2) 0
        (.dict (Table.ofNamed [("status", .str "ok"), ("result", .dict items)])) = .ok text :=
      Value.documentTo_pair 0 (Value.isWritten_str "ok" (fuel + 1)) (hitems fuel)
    obtain ⟨text, htext⟩ := hreport _
    exact ⟨line text, congrArg (fun r : Except Fault String => r >>= fun t => .ok (line t)) htext⟩

/-- A report with one further item succeeds. -/
lemma Report.result_written (json : Bool) (message what key : String) {v : Value} (hv : v.IsWritten) :
    ∃ text, Report.result json message (some (Table.ofNamed [("result", .str what), (key, v)])) = .ok text :=
  result_writes json message fun fuel level =>
    Value.documentTo_pair level (Value.isWritten_str what fuel) (hv fuel)

namespace Engine.Shift

variable {D : Dialect} {steps : Prop} {e e' : Engine D}

lemma rate_of_not_sets (h : e.Shift (fun r => ¬ r.Sets) steps e') : e'.rate = e.rate := by
  cases h with
  | winding _ h => cases h <;> rfl
  | rate _ hp => exact absurd trivial hp
  | _ => rfl

lemma breaking_of_not_sets (h : e.Shift (fun r => ¬ r.Sets) steps e') : e'.breaking = e.breaking := by
  cases h with
  | winding _ h => cases h <;> rfl
  | breaking hp => exact absurd trivial hp
  | _ => rfl

end Engine.Shift

namespace World

variable {D : Dialect} {h : Host D} {P : D.Memory → Prop} {x : Binary64} {on : Bool}

open Act (Upholds Abides)

/-- An engine with a given rate, and with breakpoints on or off. -/
structure Tuned (x : Binary64) (on : Bool) (P : D.Memory → Prop) (w : World D) : Prop where
  rate : w.engine.rate = x
  breaking : w.engine.breaking = on
  memory : P w.memory

lemma Tuned.easy (hh : h.Asks P fun r => ¬ r.Sets) : Easy h P (Tuned x on P) where
  noted _ _ _ hw := ⟨hw.rate, hw.breaking, hw.memory⟩
  told _ hw := ⟨hw.rate, hw.breaking, hw.memory⟩
  disarmed hw := ⟨hw.rate, hw.breaking, hw.memory⟩
  deferred _ _ hw := ⟨hw.rate, hw.breaking, hw.memory⟩
  aside hf hw := ⟨hf.rate.trans hw.rate, hf.breaking.trans hw.breaking, hw.memory⟩
  peopled {w} _ scope hw := ⟨hw.rate, hw.breaking, newMemory_kept w hh.install scope hw.memory⟩
  memory hw := hw.memory
  stored hw hm := ⟨hw.rate, hw.breaking, hm⟩
  announced _ _ _ hw := ⟨hw.rate, hw.breaking, hw.memory⟩
  popped _ hw := ⟨hw.rate, hw.breaking, hw.memory⟩
  refused _ hw := ⟨hw.rate, hw.breaking, hw.memory⟩
  delivered _ hw := ⟨hw.rate, hw.breaking, hw.memory⟩

lemma Tuned.followed {w : World D} (hw : w.Tuned x on P) (slot : Nat) (i : D.Instr) :
    ((w.completed slot i).followed h slot i).2.Tuned x on P := by
  unfold World.followed
  split
  · exact ⟨hw.rate, hw.breaking, hw.memory⟩
  · exact ⟨hw.rate, hw.breaking, hw.memory⟩
  · split_ifs <;> exact ⟨hw.rate, hw.breaking, hw.memory⟩

/-- An engine keeps its settings as long as nobody asks for others. -/
lemma Tuned.serve (hh : h.Asks P fun r => ¬ r.Sets) (rounds depth : Nat) {r : Request D} (hr : ¬ r.Sets) :
    Upholds (Tuned x on P) (serve h rounds depth r) := by
  have heasy : Easy h P (Tuned x on P) := Tuned.easy hh
  have hpractice : Practice h (fun r => ¬ r.Sets) True True False (Tuned x on P) :=
    heasy.practice (fun hf hw => ⟨hf.rate_of_not_sets.trans hw.rate, hf.breaking_of_not_sets.trans hw.breaking,
      hw.memory⟩) hh trivial fun sid manual hserve =>
        advance_abides (J := fun _ _ => Tuned x on P) (fun _ _ hw => ⟨hw.rate, hw.breaking, hw.memory⟩)
          (fun _ i scope => heasy.runScript hserve (hh.code i scope)) id (fun _ hw => hw.followed _ _) sid sid manual
  exact ((hpractice.serve rounds depth).1 r hr).upholds

end World

namespace Session

variable {D : Dialect}

open Act (Upholds)

/-- The current engine is set as the settings say, and the program leaves that alone. -/
structure Attuned (P : D.Memory → Prop) (settings : Settings) (s : Session D) : Prop where
  chosen : s.settings = settings
  program : ∀ h ∈ s.program, h.Asks P fun r => ¬ r.Sets
  loaded : s.engine.isSome → s.program.isSome
  engine : ∀ e ∈ s.engine, e.rate = settings.rate ∧ e.breaking = settings.breakpoints.truthy
  memory : P s.memory

section

variable {b : Bench D} {P : D.Memory → Prop} {settings : Settings} {s : Session D}

lemma mute_attuned : Mute (Attuned (D := D) P settings) where
  printed _ _ hs := ⟨hs.chosen, hs.program, hs.loaded, hs.engine, hs.memory⟩

/-- A command that sets nothing leaves what is chosen. -/
lemma Attuned.under (hs : s.Attuned P settings) {c : Carried}
    (hc : c.code = some 0 → c.verb ≠ some .rate ∧ c.verb ≠ some .breakpoints) :
    s.Attuned P (settings.under c) := by
  rwa [Settings.under_eq settings hc]

lemma Attuned.world (hs : s.Attuned P settings) {e : Engine D} (he : s.engine = some e) :
    (s.world e).Tuned settings.rate settings.breakpoints.truthy P :=
  ⟨(hs.engine e he).1, (hs.engine e he).2, hs.memory⟩

lemma Attuned.absorb (hs : s.Attuned P settings) (hsome : s.program.isSome) {w : World D}
    (hw : w.Tuned settings.rate settings.breakpoints.truthy P) : (Session.absorb w s).Attuned P settings where
  chosen := hs.chosen
  program := hs.program
  loaded _ := hsome
  engine := by
    rintro _ ⟨⟩
    exact ⟨hw.rate, hw.breaking⟩
  memory := hw.memory

/-- The current engine may be asked for anything but other settings. -/
lemma ask_attuned (b : Bench D) {r : Request D} (hr : ¬ r.Sets) : Upholds (Attuned P settings) (ask b r) := by
  intro s hs
  rcases he : s.engine with _ | e
  · exact Act.ensures_of_outcome (ask_vacant b r he) hs
  · have hsome := hs.loaded (by rw [he]; rfl)
    obtain ⟨h, hp⟩ := Option.isSome_iff_exists.1 hsome
    have hserve := World.Tuned.serve (hs.program h hp) b.rounds b.depth hr _ (hs.world he)
    exact Act.ensures_of_outcome (ask_outcome b r hp he) (hs.absorb hsome hserve)

lemma endEngine_attuned (b : Bench D) (e : Engine D) : Upholds (Attuned P settings) (endEngine b e) := by
  unfold endEngine
  split_ifs
  · exact .discard (ask_attuned b nofun)
  · exact .pure _

variable (hload : ∀ reference h, b.load reference = .ok h → h.Asks P fun r => ¬ r.Sets)

include hload

lemma loadProgram_attuned (hs : s.Attuned P settings) :
    (loadProgram b).Ensures s fun o v => v.Attuned P settings ∧ (o = .ok () → v.program.isSome) := by
  rcases loadProgram_cases b s with ⟨h, hp, hout⟩ | ⟨hp, ⟨f, hout⟩ | ⟨h, hl, hout⟩⟩
  · exact Act.ensures_of_outcome hout ⟨hs, fun _ => by simp [hp]⟩
  · exact Act.ensures_of_outcome hout ⟨hs, nofun⟩
  · refine Act.ensures_of_outcome hout ⟨⟨hs.chosen, ?_, fun _ => rfl, hs.engine, hs.memory⟩, fun _ => rfl⟩
    rintro _ ⟨⟩
    exact hload _ h hl

/-- A new engine begins with the settings of the session. -/
lemma make_attuned (hs : s.Attuned P settings) :
    (makeEngine b).Ensures s fun _ v => v.Attuned P settings := by
  refine makeEngine_ensures (loadProgram_attuned hload hs) (fun _ _ ht => ht.1) (fun _ _ ht _ => ht.1)
    fun e t ht he => ⟨ht.1.chosen, ht.1.program, fun _ => ht.2 rfl, ?_, ht.1.memory⟩
  rintro _ ⟨⟩
  rw [Engine.eq_of_make he, ht.1.chosen]
  exact ⟨rfl, rfl⟩

lemma renew_attuned : Upholds (Attuned P settings) (renew b) := by
  refine Upholds.get_bind fun s hs => ?_
  rcases he : s.engine with _ | e
  · exact make_attuned hload hs
  · exact Act.Ensures.bind (endEngine_attuned b e s hs) (fun _ u hu => make_attuned hload hu) fun _ _ hu => hu

/-- What changes no setting leaves the engine set as the settings say. -/
lemma routine_attuned : Routine b (Attuned P settings) where
  mute := mute_attuned
  posted _ _ hs := ⟨hs.chosen, hs.program, hs.loaded, hs.engine, hs.memory⟩
  asked hr := ask_attuned b hr.not_sets
  renew := renew_attuned hload
  disconnect := by
    refine Upholds.get_bind fun s hs => ?_
    rcases he : s.engine with _ | e
    · exact hs
    · refine Act.Ensures.bind (endEngine_attuned b e s hs) (fun _ u hu => ?_) fun _ _ hu => hu
      have hleft : Attuned P settings { u with engine := none, past := u.engine.toList ++ u.past } :=
        ⟨hu.chosen, hu.program, by simp, by simp, hu.memory⟩
      exact hleft

end

section Setting

variable {b : Bench D} {P : D.Memory → Prop} {settings : Settings} {s : Session D}

/-- A report with one further item is printed. -/
lemma Mute.announce_written {I : Session D → Prop} (hI : Mute I) (hs : I s) (message what key : String)
    {v : Value} (hv : v.IsWritten) :
    (Session.announce message (Table.ofNamed [("result", .str what), (key, v)])).Ensures s fun o u =>
      o = .ok () ∧ I u := by
  obtain ⟨text, htext⟩ := Report.result_written s.json message what key hv
  unfold Act.Ensures Session.announce
  rw [Act.outcome_get_bind, htext]
  exact ⟨rfl, hI.printed _ s.err hs⟩

lemma Mute.complain_fails {I : Session D → Prop} (hI : Mute I) (hs : I s) (message : String) (details : Table) :
    (do
      Session.complain message details
      pure 1 : Act (Session D) Int).Ensures s fun o v => o ≠ .ok 0 ∧ I v :=
  Act.Ensures.bind (hI.complain message details s hs) (fun _ _ hv => ⟨nofun, hv⟩) fun _ _ hv => ⟨nofun, hv⟩

/-- A fault is told, or cannot be told. -/
lemma Mute.tell_fails {I : Session D → Prop} (hI : Mute I) (hs : I s) (what : String) (f : Fault) (details : Table) :
    (do
      let text ← Act.ofExcept f.message
      Session.complain (what ++ text) details
      pure 1 : Act (Session D) Int).Ensures s fun o v => o ≠ .ok 0 ∧ I v := by
  unfold Act.Ensures
  rw [Act.outcome_bind, Act.outcome_ofExcept]
  rcases f.message with g | text
  · exact ⟨nofun, hs⟩
  · exact hI.complain_fails hs (what ++ text) details

/-- The engine takes the rate that is asked for, or nothing changes. -/
lemma ask_rate_attuned (hdepth : 0 < b.depth) (hs : s.Attuned P settings) (given : Option Value) :
    (discard (ask b (.rate given))).Ensures s fun o v =>
      (∃ f, o = .error f) ∧ v.Attuned P settings ∨
        o = .ok () ∧ ∃ rate, Rate.read given = .ok rate ∧ v.engine.map (·.rate) = some rate ∧
          Attuned P { settings with rate } { v with settings.rate := rate } := by
  obtain ⟨depth, hdepth⟩ := Nat.exists_eq_succ_of_ne_zero hdepth.ne'
  unfold Act.Ensures
  rw [Act.outcome_discard]
  rcases he : s.engine with _ | e
  · rw [ask_vacant b _ he]
    exact .inl ⟨⟨_, rfl⟩, hs⟩
  · have hsome := hs.loaded (by rw [he]; rfl)
    obtain ⟨h, hp⟩ := Option.isSome_iff_exists.1 hsome
    have hsame : (Session.absorb (s.world e) s).Attuned P settings := hs.absorb hsome (hs.world he)
    rw [ask_outcome b _ hp he, hdepth]
    unfold World.serve World.perform
    dsimp only
    rw [Act.outcome_bind, World.setRate_outcome]
    split_ifs with hend
    · exact .inl ⟨⟨_, rfl⟩, hsame⟩
    · rcases hread : Rate.read given with f | rate <;> unfold Rate.read at hread <;> rw [hread]
      · exact .inl ⟨⟨f, rfl⟩, hsame⟩
      · refine .inr ⟨rfl, rate, rfl, rfl, ?_, hs.program, fun _ => hsome, ?_, hs.memory⟩
        · exact congrArg (fun t : Settings => { t with rate }) hs.chosen
        · rintro _ ⟨⟩
          exact ⟨rfl, (hs.engine e he).2⟩

/-- `rate` sets the rate that it is given in both places, or fails and sets it in none. -/
lemma performRate_attuned (hload : ∀ reference h, b.load reference = .ok h → h.Asks P fun r => ¬ r.Sets)
    (hdepth : 0 < b.depth) (hs : s.Attuned P settings) (given : Option Value) :
    (performRate b given).Ensures s fun o v =>
      o ≠ .ok 0 ∧ v.Attuned P settings ∨
        o = .ok 0 ∧ ∃ rate, Rate.read given = .ok rate ∧ v.Attuned P { settings with rate } := by
  have hwork : (do
      ensure b
      discard (ask b (.rate given)) : Act (Session D) Unit).Ensures s fun o v =>
        (∃ f, o = .error f) ∧ v.Attuned P settings ∨
          o = .ok () ∧ ∃ rate, Rate.read given = .ok rate ∧ v.engine.map (·.rate) = some rate ∧
            Attuned P { settings with rate } { v with settings.rate := rate } :=
    Act.Ensures.bind (upholds_ensure (renew_attuned hload) s hs)
      (fun _ u hu => ask_rate_attuned hdepth hu given) fun f u hu => .inl ⟨⟨f, rfl⟩, hu⟩
  refine Act.Ensures.attempt_bind hwork ?_
  rintro _ v (⟨⟨f, rfl⟩, hv⟩ | ⟨rfl, rate, hread, hrate, hv⟩)
  · dsimp only
    split_ifs
    · exact (mute_attuned.tell_fails hv "rate failed: " f []).mono fun _ _ => .inl
    · exact .inl ⟨nofun, hv⟩
  · have hreport := mute_attuned.announce_written hv
      ("Rate set to " ++ if rate.eqInt 0 then "unlimited" else rate.compact ++ "ms") "rate" "rate_ms"
      (Value.isWritten_float rate)
    refine Act.Ensures.bind (hreport.of_same ?_) ?_ ?_
    · rw [Act.outcome_get_bind, hrate]
      rfl
    · exact fun _ u hu => .inr ⟨rfl, rate, hread, hu.2⟩
    · exact fun _ _ hu => absurd hu.1 nofun

/-- Switching breakpoints on or off does so in both places. -/
lemma setBreakpoints_attuned (hdepth : 0 < b.depth) (hs : s.Attuned P settings) (on : Bool) :
    (setBreakpoints b on).Ensures s fun o v =>
      o = .ok () ∧ v.Attuned P { settings with breakpoints := .bool on } := by
  obtain ⟨depth, hdepth⟩ := Nat.exists_eq_succ_of_ne_zero hdepth.ne'
  have hchosen : { s.settings with breakpoints := .bool on } = { settings with breakpoints := .bool on } := by
    rw [hs.chosen]
  have hset : (setBreakpoints b on).outcome s = (if s.engine.isSome then discard (ask b (.breakpoints on))
      else pure () : Act (Session D) Unit).outcome { s with settings.breakpoints := .bool on } := rfl
  unfold Act.Ensures
  rw [hset]
  by_cases hengine : s.engine.isSome
  · obtain ⟨e, he⟩ := Option.isSome_iff_exists.1 hengine
    obtain ⟨h, hp⟩ := Option.isSome_iff_exists.1 (hs.loaded hengine)
    have hout := ask_outcome (s := { s with settings.breakpoints := .bool on }) b (.breakpoints on) hp he
    rw [if_pos hengine, Act.outcome_discard, hout, hdepth]
    refine ⟨rfl, hchosen, hs.program, fun _ => hs.loaded hengine, ?_, hs.memory⟩
    rintro _ ⟨⟩
    exact ⟨(hs.engine e he).1, rfl⟩
  · rw [if_neg hengine]
    exact ⟨rfl, hchosen, hs.program, hs.loaded, fun e he => absurd (Option.isSome_of_mem he) hengine, hs.memory⟩

/-- Showing whether breakpoints are on changes nothing. -/
lemma showBreakpoints_attuned (hs : s.Attuned P settings) (hsettings : settings.breakpoints.IsWritten) :
    (performBreakpoints b none).Ensures s fun o v => o = .ok 0 ∧ v.Attuned P settings := by
  refine Act.Ensures.of_same ?_ (Act.outcome_get_bind _ s)
  refine Act.Ensures.bind (mute_attuned.announce_written hs _ _ _ ?_) (fun _ _ hv => ⟨rfl, hv.2⟩)
    fun _ _ hv => absurd hv.1 (by simp)
  rcases s.engine with _ | e
  · rwa [hs.chosen]
  · exact Value.isWritten_bool _

/-- The commands of a line that are carried out: up to an unknown one, or the first that does not succeed. -/
def carried (b : Bench D) (r : Registry) : List (List String) → Session D → List Carried
  | [], _ => []
  | [] :: rest, s => carried b r rest s
  | (name :: args) :: rest, s =>
    match r.find? name with
    | none => []
    | some c =>
      let (o, v) := (runCommand b (some r) c args).outcome s
      let first : Carried := ⟨c.verb, (c.form.read args).toOption, o.toOption⟩
      if o.toOption = some 0 then first :: carried b r rest v else [first]

/-- The commands that are carried out when something happens to a session. -/
def Doing.carried (b : Bench D) (r : Registry) (s : Session D) : Doing D → List Carried
  | .line text =>
    match CommandLine.commands text with
    | .ok commands => Session.carried b r commands s
    | .error _ => []
  | _ => []

/-- The commands that are carried out in the course of a sequence of doings. -/
def chronicle (b : Bench D) (r : Registry) : List (Doing D) → Session D → List Carried
  | [], _ => []
  | d :: rest, s => d.carried b r s ++ chronicle b r rest ((d.act b r).outcome s).2

variable (hload : ∀ reference h, b.load reference = .ok h → h.Asks P fun r => ¬ r.Sets) (hdepth : 0 < b.depth)

include hload hdepth

/-- A verb changes the settings as its command says, and the engine's along with them. -/
lemma perform_attuned (hs : s.Attuned P settings) (r : Option Registry) (given : Arguments.Given) (verb : Verb) :
    (perform b r given verb).Ensures s fun o v =>
      v.Attuned P (settings.under ⟨some verb, some given, o.toOption⟩) := by
  by_cases hrate : verb = .rate
  · subst hrate
    refine (performRate_attuned hload hdepth hs _).mono ?_
    rintro o v (⟨ho, hv⟩ | ⟨rfl, rate, hread, hv⟩)
    · refine hv.under fun hcode => absurd ?_ ho
      cases o <;> simp_all [Except.toOption]
    · have hset : Carried.rate? ⟨some .rate, some given, some 0⟩ = some rate := by
        simp [Carried.rate?, hread, Except.toOption]
      have hother : Carried.breakpoints? ⟨some .rate, some given, some 0⟩ = none := by simp [Carried.breakpoints?]
      simpa [Settings.under, Except.toOption, hset, hother] using hv
  · by_cases hbreakpoints : verb = .breakpoints
    · subst hbreakpoints
      rcases hmode : given.last? "mode" with _ | mode
      · have hsame (o : Except Fault Int) :
            settings.under ⟨some .breakpoints, some given, o.toOption⟩ = settings := by
          simp [Settings.under, Carried.rate?, Carried.breakpoints?, hmode]
        have hshow : Upholds (Attuned P settings) (performBreakpoints b none) :=
          .get_then fun _ => .bind (mute_attuned.announce _ _) fun _ => .pure _
        unfold perform
        rw [hmode]
        exact (hshow s hs).mono fun o v hv => by rwa [hsame]
      · have hset : settings.under ⟨some .breakpoints, some given, some 0⟩ =
            { settings with breakpoints := .bool (mode.same (.str "on")) } := by
          simp [Settings.under, Carried.rate?, Carried.breakpoints?, hmode]
        unfold perform
        rw [hmode]
        refine Act.Ensures.bind (setBreakpoints_attuned hdepth hs (mode.same (.str "on"))) (fun _ u hu => ?_)
          fun _ _ hu => absurd hu.1 (by simp)
        have hshow := showBreakpoints_attuned (b := b) hu.2 (Value.isWritten_bool _)
        refine hshow.mono ?_
        rintro _ v ⟨rfl, hv⟩
        exact hset ▸ hv
    · have hroutine := (routine_attuned hload).perform r given hrate hbreakpoints s hs
      exact hroutine.mono fun o v hv => hv.under fun _ => by simp [hrate, hbreakpoints]

lemma runCommand_attuned (hs : s.Attuned P settings) (r : Option Registry) (c : DebugCommand)
    (args : List String) :
    (runCommand b r c args).Ensures s fun o v =>
      v.Attuned P (settings.under ⟨c.verb, (c.form.read args).toOption, o.toOption⟩) := by
  have hroutine : Routine b (Attuned P settings) := routine_attuned hload
  unfold runCommand
  split
  · rename_i hverb
    rw [hverb]
    exact (Upholds.throw _ s hs).mono fun o v hv => hv.under fun _ => by simp
  · rename_i hverb
    rw [hverb]
    exact (hroutine.performExit s hs).mono fun o v hv => hv.under fun _ => by simp
  · rename_i verb _ hverb
    rw [hverb]
    rcases hread : c.form.read args with stop | given
    · refine Act.Ensures.bind (readArguments_misfit hread) (fun given v hv => ?_) ?_
      · obtain ⟨out, err, rfl⟩ := hv.1
        cases given with
        | none => exact (mute_attuned.printed out err hs).under nofun
        | some given => exact absurd rfl (hv.2 given)
      · rintro f v ⟨⟨out, err, rfl⟩, -⟩
        exact (mute_attuned.printed out err hs).under nofun
    · have hperform := perform_attuned hload hdepth hs r given verb
      unfold Act.Ensures
      rw [Act.outcome_bind, readArguments_fit hread]
      exact hperform

/-- A line's commands change the settings one after the other. -/
lemma runCommands_attuned (r : Registry) (commands : List (List String)) (hs : s.Attuned P settings) :
    (runCommands b r commands).Ensures s fun _ v =>
      v.Attuned P ((carried b r commands s).foldl Settings.under settings) := by
  induction commands generalizing s settings with
  | nil => exact hs
  | cons command rest ih =>
    rcases command with _ | ⟨name, args⟩
    · exact ih hs
    · unfold runCommands carried
      rcases r.find? name with _ | c
      · exact (mute_attuned.complain_fails hs _ _).mono fun _ _ hv => hv.2
      · have hfirst := runCommand_attuned hload hdepth hs (some r) c args
        unfold Act.Ensures at hfirst ⊢
        dsimp only
        rw [Act.outcome_bind]
        rcases hout : (runCommand b (some r) c args).outcome s with ⟨f | code, v⟩ <;> rw [hout] at hfirst
        · exact hfirst
        · by_cases hcode : code = 0
          · subst hcode
            exact ih hfirst
          · have hfailed : (Except.ok code : Except Fault Int).toOption ≠ some 0 := by simpa [Except.toOption]
            dsimp only
            rw [if_neg hcode, if_neg hfailed]
            exact hfirst

/-- Whatever happens, only the commands carried out change the settings. -/
lemma act_attuned (r : Registry) (d : Doing D) (hs : s.Attuned P settings) :
    (d.act b r).Ensures s fun _ v => v.Attuned P ((d.carried b r s).foldl Settings.under settings) := by
  have hroutine : Routine b (Attuned P settings) := routine_attuned hload
  cases d with
  | line text =>
    unfold Doing.act Act.Ensures dispatch Doing.carried
    rw [Act.outcome_discard]
    dsimp only
    rcases CommandLine.commands text with f | commands
    · exact (mute_attuned.tell_fails hs "parse error: " f []).2
    · exact runCommands_attuned hload hdepth r commands hs
  | fireNext => exact Upholds.discard hroutine.fireNext s hs
  | fireAll limit => exact Upholds.discard (hroutine.fireAll limit) s hs
  | fire t => exact Upholds.discard (ask_attuned b (r := .fire t) id) s hs
  | drift clock => exact ⟨hs.chosen, hs.program, hs.loaded, hs.engine, hs.memory⟩
  | pump => exact Upholds.discard hroutine.pump s hs
  | ensure => exact upholds_ensure hroutine.renew s hs
  | renew => exact hroutine.renew s hs
  | disconnect => exact hroutine.disconnect s hs

lemma after_attuned (r : Registry) (doings : List (Doing D)) (hs : s.Attuned P settings) :
    (s.after b r doings).Attuned P ((chronicle b r doings s).foldl Settings.under settings) := by
  induction doings generalizing s settings with
  | nil => exact hs
  | cons d rest ih =>
    have hfirst := act_attuned hload hdepth r d hs
    unfold chronicle
    rw [List.foldl_append]
    exact ih hfirst

end Setting

/-- The settings of a session stay coherent. Whatever was typed, with whatever success, and whatever fired in
between: the current engine has the rate and the breakpoints that the settings say; these are what the last
successful command has set, across any number of engines, or what the session began with; and the rate is
none or a finite delay above zero. The program must not change settings itself; the scheduler may do what it
likes. -/
theorem settings_in_accord (b : Bench D) (r : Registry) (hdepth : 0 < b.depth) (P : D.Memory → Prop)
    (hload : ∀ reference h, b.load reference = .ok h → h.Asks P fun r => ¬ r.Sets) (s : Session D)
    (hs : s.Unused fun _ => True) (hm : P s.memory) (rate breakpoints timeSlice history : Value)
    (hsettings : Settings.check rate breakpoints timeSlice history = .ok s.settings)
    (doings : List (Doing D)) :
    let v := s.after b r doings
    let carried := chronicle b r doings s
    (∀ e ∈ v.engine, e.rate = v.settings.rate ∧ e.breaking = v.settings.breakpoints.truthy) ∧
      v.settings.rate = ((carried.filterMap (·.rate?)).getLast?).getD s.settings.rate ∧
      v.settings.breakpoints =
        (((carried.filterMap (·.breakpoints?)).getLast?).map .bool).getD s.settings.breakpoints ∧
      Rate.IsValid v.settings.rate := by
  intro v carried
  have hattuned : s.Attuned P s.settings :=
    ⟨rfl, by simp [hs.program], by simp [hs.engine], by simp [hs.engine], hm⟩
  have hv : v.Attuned P (carried.foldl Settings.under s.settings) :=
    after_attuned hload hdepth r doings hattuned
  rw [hv.chosen]
  obtain ⟨hrate, hbreakpoints⟩ := Settings.foldl_under s.settings carried
  exact ⟨hv.engine, hrate, hbreakpoints, Settings.foldl_under_valid (Settings.check_valid hsettings) carried⟩

end Session

lemma Settings.check_default : check (.float .zero) (.bool false) (.int 1) (.int 1024) = .ok {} := by
  have hzero : (Value.float .zero).same (.int 0) = true := by decide +kernel
  unfold check checkRate
  rw [if_pos hzero]
  rfl

/-- A rate and breakpoints set before the first run, a bad rate in its course, and another run. -/
theorem Session.restless_accord :
    let s := restlessSession
    let doings : List (Doing Block.dialect) := [.line "rate 5; break on", .line "start", .fireNext,
      .line "rate abc; break off", .line "terminate", .line "start"]
    let v := s.after restlessBench .standard doings
    let carried := chronicle restlessBench .standard doings s
    (v.past.length = 1 ∧ v.engine.map (fun e => (e.rate.text, e.breaking)) = some ("5.0", true)) ∧
      (∀ e ∈ v.engine, e.rate = v.settings.rate ∧ e.breaking = v.settings.breakpoints.truthy) ∧
      v.settings.rate = ((carried.filterMap (·.rate?)).getLast?).getD s.settings.rate ∧
      v.settings.breakpoints =
        (((carried.filterMap (·.breakpoints?)).getLast?).map .bool).getD s.settings.breakpoints ∧
      Rate.IsValid v.settings.rate := by
  intro s doings v carried
  have hload : ∀ reference h, restlessBench.load reference = .ok h →
      h.Asks Block.Memory.Calm fun r => ¬ r.Sets := by
    rintro reference h ⟨⟩
    exact Block.restless_asks .refusing id id id id
  have haccord := settings_in_accord restlessBench .standard (by decide) Block.Memory.Calm hload s
    ⟨rfl, rfl, rfl, trivial⟩ nofun (.float .zero) (.bool false) (.int 1) (.int 1024) Settings.check_default doings
  with_reducible exact ⟨by decide +kernel, haccord⟩

end Loom
