import Mathlib.Tactic.Common
import Loom.Arguments.Read

/-! What is read from arguments. Every entry is filed under the key of a switch or of the operand of the form,
and its value is what that switch or operand reads from a text. -/
namespace Loom

section Bind

variable {ε α β : Type} {x : Except ε α} {f : α → Except ε β}

/-- A sequence of computations that may fail succeeds if both do. -/
lemma bind_eq_ok {b : β} : (x >>= f) = .ok b ↔ ∃ a, x = .ok a ∧ f a = .ok b := by
  cases x with
  | error e => exact iff_of_false nofun fun ⟨a, ha, _⟩ => nomatch ha
  | ok a => exact ⟨fun h => ⟨a, rfl, h⟩, fun ⟨a', ha, h⟩ => Except.ok.inj ha ▸ h⟩

lemma bind_eq_error {e : ε} : (x >>= f) = .error e ↔ x = .error e ∨ ∃ a, x = .ok a ∧ f a = .error e := by
  cases x with
  | error e' =>
    exact ⟨fun h => .inl (congrArg Except.error (Except.error.inj h)),
      fun h => h.elim (fun h => congrArg Except.error (Except.error.inj h)) fun ⟨a, ha, _⟩ => nomatch ha⟩
  | ok a =>
    exact ⟨fun h => .inr ⟨a, rfl, h⟩, fun h => h.elim nofun fun ⟨a', ha, h⟩ => Except.ok.inj ha ▸ h⟩

end Bind

namespace Arguments

/-- An entry as a switch files it. -/
def Switch.Files (s : Switch) (e : String × Value) : Prop :=
  e.1 = s.key ∧
    (s.effect = .flag ∧ e.2 = .bool true ∨ s.takesValue = true ∧ ∃ t, s.reading.read? t = some e.2)

namespace Form

variable {f : Form}

/-- An entry as the form files it. -/
def Files (f : Form) (e : String × Value) : Prop :=
  (∃ s ∈ f.switches, s.Files e) ∨ ∃ o ∈ f.operand, e.1 = o.key ∧ ∃ t, o.reading.read? t = some e.2

/-- A mark whose switch, if it has one, belongs to the form. -/
def Knows (f : Form) : Mark → Prop
  | .switch _ (some call) => call.switch ∈ f.switches
  | _ => True

lemma switch?_mem {name : String} {s : Switch} (h : f.switch? name = some s) : s ∈ f.switches :=
  List.mem_of_find?_eq_some h

lemma named_mem {e : String × Switch} (h : e ∈ f.named) : e.2 ∈ f.switches := by
  obtain ⟨s, hs, he⟩ := List.mem_flatMap.1 h
  obtain ⟨name, -, rfl⟩ := List.mem_map.1 he
  exact hs

lemma guesses_mem {text : String} {g : String × Call} (h : g ∈ f.guesses text) :
    g.2.switch ∈ f.switches := by
  unfold guesses at h
  dsimp only at h
  split at h
  · obtain ⟨e, he, hg⟩ := List.mem_filterMap.1 h
    split_ifs at hg
    cases hg
    exact named_mem he
  · obtain ⟨e, he, hg⟩ := List.mem_filterMap.1 h
    split_ifs at hg <;> cases hg <;> exact named_mem he

lemma markDashed_knows {text : String} {m : Mark} (h : f.markDashed text = .ok m) : f.Knows m := by
  unfold markDashed at h
  dsimp only at h
  split at h
  · next e s hs =>
    obtain ⟨e', -, hmap⟩ := Option.bind_eq_some_iff.1 hs
    obtain ⟨s', hs', heq⟩ := Option.map_eq_some_iff.1 hmap
    cases heq
    cases h
    exact switch?_mem hs'
  · split at h
    · next name call hg =>
      cases h
      exact guesses_mem (hg ▸ List.mem_singleton_self (name, call))
    · split_ifs at h <;> cases h <;> trivial
    · cases h

lemma mark_knows {text : String} {m : Mark} (h : f.mark text = .ok m) : f.Knows m := by
  unfold mark at h
  split at h
  · split at h
    · next s hs =>
      cases h
      exact switch?_mem hs
    · split_ifs at h
      · cases h
        trivial
      · exact markDashed_knows h
  · cases h
    trivial

lemma marks_know {texts : List String} {ms : List Mark} (h : f.marks texts = .ok ms) :
    ∀ m ∈ ms, f.Knows m := by
  induction texts generalizing ms with
  | nil =>
    cases h
    nofun
  | cons text rest ih =>
    unfold marks at h
    split_ifs at h
    · cases h
      intro m hm
      rcases List.mem_cons.1 hm with rfl | hm
      · trivial
      · obtain ⟨t, -, rfl⟩ := List.mem_map.1 hm
        trivial
    · obtain ⟨m, hm, h⟩ := bind_eq_ok.1 h
      obtain ⟨ms', hms, h⟩ := bind_eq_ok.1 h
      cases h
      exact List.forall_mem_cons.2 ⟨mark_knows hm, ih hms⟩

/-- A text taken apart into switches of the form. -/
structure Parts (f : Form) (b : Bundle) : Prop where
  calls : ∀ c ∈ b.calls, c.1 ∈ f.switches
  waiting : ∀ s ∈ b.waiting, s ∈ f.switches

lemma Parts.lead {b : Bundle} {s : Switch} (hb : f.Parts b) (hs : s ∈ f.switches) : f.Parts (b.lead s) :=
  ⟨List.forall_mem_cons.2 ⟨hs, hb.calls⟩, hb.waiting⟩

/-- One switch of the form, with or without a value. -/
lemma parts_single {s : Switch} (hs : s ∈ f.switches) (text unknown : Option String) :
    f.Parts { calls := [(s, text)], unknown } :=
  ⟨fun _ hc => List.mem_singleton.1 hc ▸ hs, nofun⟩

lemma unbundle_parts {s : Switch} {short joined : Bool} {cs : List Char} {b : Bundle}
    (hs : s ∈ f.switches) (h : f.unbundle s short joined cs = .ok b) : f.Parts b := by
  -- The recursion goes on with the next switch of a bundle, which is one of the form as well.
  have hjoined {s : Switch} {r : Except Complaint Bundle} {b : Bundle} (hs : s ∈ f.switches)
      (hr : ∀ {b}, r = .ok b → f.Parts b) (h : r.map (·.lead s) = .ok b) : f.Parts b := by
    cases r with
    | error c => cases h
    | ok b' =>
      cases h
      exact (hr rfl).lead hs
  fun_induction f.unbundle s short joined cs generalizing b with
  | case1 | case3 | case5 =>
    cases h
    exact parts_single hs _ _
  | case2 | case4 => cases h
  | case6 s short joined c _ _ next hnext =>
    cases h
    refine ⟨(parts_single hs none none).calls, ?_⟩
    rintro _ ⟨⟩
    exact switch?_mem hnext
  | case7 s short joined c _ _ next hnext value ih =>
    exact hjoined hs (ih (switch?_mem hnext)) h
  | case8 s short joined c _ _ next hnext d more _ ih =>
    exact hjoined hs (ih (switch?_mem hnext)) h

lemma bundle_parts {c : Call} {b : Bundle} (hc : c.switch ∈ f.switches) (h : f.bundle c = .ok b) :
    f.Parts b := by
  unfold bundle at h
  split at h
  · cases h
    exact ⟨nofun, fun s hs => Option.mem_some.1 hs ▸ hc⟩
  · exact unbundle_parts hc h

/-- All that has been filed so far is filed by the form. -/
def Filed (f : Form) (p : Progress) : Prop := ∀ e ∈ p.given, f.Files e

variable {p p' : Progress}

lemma Filed.file (hp : f.Filed p) {key : String} {v : Value} (h : f.Files (key, v)) :
    f.Filed (p.file key v) := by
  intro e he
  rcases List.mem_append.1 he with he | he
  · exact hp e he
  · exact List.mem_singleton.1 he ▸ h

lemma Filed.applySwitch (hp : f.Filed p) {s : Switch} (hs : s ∈ f.switches) {text : Option String}
    (h : p.applySwitch s text = .ok p') : f.Filed p' := by
  unfold Progress.applySwitch at h
  split at h
  · cases h
  · next hflag =>
    cases h
    exact hp.file (.inl ⟨s, hs, rfl, .inl ⟨hflag, rfl⟩⟩)
  · cases h
  · next t hhelp hflag =>
    have htakes : s.takesValue = true := by
      unfold Switch.takesValue
      split <;> simp_all
    split at h
    · next v hv =>
      cases h
      exact hp.file (.inl ⟨s, hs, rfl, .inr ⟨htakes, t, hv⟩⟩)
    · cases h

lemma Filed.applyAll {calls : List (Switch × Option String)} (hcalls : ∀ c ∈ calls, c.1 ∈ f.switches)
    (hp : f.Filed p) (h : p.applyAll calls = .ok p') : f.Filed p' := by
  unfold Progress.applyAll at h
  induction calls generalizing p with
  | nil =>
    cases h
    exact hp
  | cons c calls ih =>
    rw [List.foldlM_cons] at h
    obtain ⟨q, hq, h⟩ := bind_eq_ok.1 h
    obtain ⟨hc, hcalls⟩ := List.forall_mem_cons.1 hcalls
    exact ih hcalls (hp.applySwitch hc hq) h

lemma Filed.takeOperand (hp : f.Filed p) {o : Operand} (ho : o ∈ f.operand) {text : String}
    (h : p.takeOperand o text = .ok p') : f.Filed p' := by
  unfold Progress.takeOperand at h
  split at h
  · cases h
  · next v hv =>
    split_ifs at h
    cases h
    exact hp.file (.inr ⟨o, ho, rfl, text, hv⟩)

/-- Taking marks files only what the form files. -/
lemma Filed.take {ms : List Mark} (hms : ∀ m ∈ ms, f.Knows m) (hp : f.Filed p)
    (h : f.take ms p = .ok p') : f.Filed p' := by
  have hrest {m : Mark} {rest : List Mark} (h : ∀ m' ∈ m :: rest, f.Knows m') : ∀ m' ∈ rest, f.Knows m' :=
    (List.forall_mem_cons.1 h).2
  fun_induction f.take ms p with
  | case1 p | case3 p | case4 rest p =>
    cases h
    exact hp
  | case2 p o _ ho t rest =>
    obtain ⟨q, hq, h⟩ := bind_eq_ok.1 h
    cases h
    exact (show f.Filed q from hp.takeOperand ho hq)
  | case5 t rest p o _ ho ih =>
    obtain ⟨q, hq, h⟩ := bind_eq_ok.1 h
    have hfiled : f.Filed q := hp.takeOperand ho hq
    split at h
    · cases h
      exact hfiled
    · next hplain =>
      have ih := ih q
      split at ih
      · exact absurd rfl (hplain _)
      · exact ih (hrest hms) hfiled h
  | case6 t rest p _ ih | case7 t rest p ih => exact ih (hrest hms) hp h
  | case8 | case10 => cases h
  | case9 text call p b hb s v rest hwaiting ih =>
    obtain ⟨q, hq, h⟩ := bind_eq_ok.1 h
    have hparts : f.Parts b := bundle_parts (hms _ List.mem_cons_self) hb
    refine ih q (hrest (hrest hms)) (hp.applyAll ?_ hq) h
    intro c hc
    rcases List.mem_append.1 hc with hc | hc
    · exact hparts.calls c hc
    · rw [List.mem_singleton.1 hc]
      exact hparts.waiting s (Option.filter_eq_some_iff.1 hwaiting).1
  | case11 text call p b hb rest hwaiting ih =>
    obtain ⟨q, hq, h⟩ := bind_eq_ok.1 h
    have hparts : f.Parts b := bundle_parts (hms _ List.mem_cons_self) hb
    refine ih q (hrest hms) (Filed.applyAll (p := p.addExtras _) ?_ hp hq) h
    intro c hc
    rcases List.mem_append.1 hc with hc | hc
    · exact hparts.calls c hc
    · obtain ⟨s, hs, rfl⟩ := List.mem_map.1 hc
      exact hparts.waiting s (Option.mem_toList.1 hs)

/-- Every entry read from arguments is filed by a switch or by the operand of the form. -/
theorem read_files {texts : List String} {given : Given} (h : f.read texts = .ok given) :
    ∀ e ∈ given, f.Files e := by
  unfold read at h
  split at h
  · cases h
  · next ms hms =>
    obtain ⟨p, hp, h⟩ := bind_eq_ok.1 h
    split_ifs at h
    cases h
    exact Filed.take (marks_know hms) (p := { awaits := f.operand.isSome }) nofun hp

end Form

/-- The last value under a key is one of those given. -/
lemma Given.last?_mem {g : Given} {key : String} {v : Value} (h : g.last? key = some v) : (key, v) ∈ g := by
  obtain ⟨e, he, rfl⟩ := Option.map_eq_some_iff.1 h
  have hkey : e.1 = key := by simpa using List.find?_some he
  rw [← hkey]
  exact List.mem_reverse.1 (List.mem_of_find?_eq_some he)

end Arguments
end Loom
