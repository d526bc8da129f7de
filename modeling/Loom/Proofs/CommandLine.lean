import Loom.Block.Host
import Loom.Debugger.Perform
import Loom.Proofs.Act

/-! Joining command lines. A semicolon brings the reader of a line without comments to where it can read
on as if from the beginning, whatever the line ends in; so the commands of the joined line are those of
the one line and then those of the other, and so are their effects on a session. -/
namespace Loom.CommandLine

namespace Reader

/-- A reader with tokens from before. -/
def behind (r : Reader) (earlier : List String) : Reader := { r with tokens := r.tokens ++ earlier }

lemma enter_behind (r : Reader) (earlier : List String) (c : Char) :
    (r.behind earlier).enter c = (r.enter c).behind earlier := by
  unfold enter behind
  split_ifs <;> rfl

lemma feed_behind (r : Reader) (earlier : List String) (c : Char) :
    (r.behind earlier).feed c = (r.feed c).behind earlier := by
  have henter : ∀ m, ((r.behind earlier).close m).enter c = ((r.close m).enter c).behind earlier :=
    fun m => enter_behind (r.close m) earlier c
  obtain ⟨mode, token, ts⟩ := r
  cases mode with
  | between => exact enter_behind _ _ _
  | comment | separator | quote | word =>
    simp only [feed, behind] at henter ⊢
    split_ifs <;> first | rfl | exact henter _
  | escape inside =>
    cases inside with
    | none => rfl
    | some q =>
      simp only [feed, behind]
      split_ifs <;> rfl

/-- Tokens from before stay, whatever is read. -/
lemma foldl_behind (r : Reader) (earlier : List String) (line : List Char) :
    line.foldl feed (r.behind earlier) = (line.foldl feed r).behind earlier := by
  induction line generalizing r with
  | nil => rfl
  | cons c line ih => rw [List.foldl_cons, feed_behind, ih, List.foldl_cons]

lemma finish_behind (r : Reader) (earlier : List String) :
    (r.behind earlier).finish = r.finish.map (earlier.reverse ++ ·) := by
  obtain ⟨mode, token, ts⟩ := r
  cases mode <;> simp [finish, behind, close, Except.map]

/-- What holds of a reader that has met no comment: a run of semicolons is one. -/
structure Plain (r : Reader) : Prop where
  mode : r.mode ≠ .comment
  run : r.mode = .separator → ∃ n, r.token = List.replicate (n + 1) ';'

lemma plain_of_mode {r : Reader} (hcomment : r.mode ≠ .comment) (hrun : r.mode ≠ .separator) : r.Plain :=
  ⟨hcomment, fun h => absurd h hrun⟩

lemma enter_plain (r : Reader) {c : Char} (hc : c ≠ '#') : (r.enter c).Plain := by
  unfold enter
  split_ifs with hspace hhash hescape hsemi
  · exact plain_of_mode nofun nofun
  · exact absurd (by simpa using hhash) hc
  · exact plain_of_mode nofun nofun
  · exact ⟨nofun, fun _ => ⟨0, by simpa using hsemi⟩⟩
  · exact plain_of_mode nofun nofun
  · exact plain_of_mode nofun nofun

lemma Plain.feed {r : Reader} (hr : r.Plain) {c : Char} (hc : c ≠ '#') : (r.feed c).Plain := by
  have hhash : (c == '#') = false := by simpa using hc
  obtain ⟨mode, token, ts⟩ := r
  cases mode with
  | between => exact enter_plain _ hc
  | comment => exact absurd rfl hr.mode
  | word =>
    simp only [Reader.feed, hhash]
    split_ifs with _ hfalse
    · exact plain_of_mode nofun nofun
    · cases hfalse
    · exact plain_of_mode nofun nofun
    · exact plain_of_mode nofun nofun
    · exact enter_plain _ hc
    · exact plain_of_mode nofun nofun
  | separator =>
    obtain ⟨n, rfl⟩ := hr.run rfl
    simp only [Reader.feed]
    split_ifs with hsemi
    · exact ⟨nofun, fun _ => ⟨n + 1, by rw [eq_of_beq hsemi]; rfl⟩⟩
    · exact enter_plain _ hc
  | quote q =>
    simp only [Reader.feed]
    split_ifs <;> exact plain_of_mode nofun nofun
  | escape inside =>
    cases inside with
    | none => exact plain_of_mode nofun nofun
    | some q =>
      simp only [Reader.feed]
      split_ifs <;> exact plain_of_mode nofun nofun

lemma Plain.foldl {r : Reader} (hr : r.Plain) {line : List Char} (hline : '#' ∉ line) :
    (line.foldl Reader.feed r).Plain := by
  induction line generalizing r with
  | nil => exact hr
  | cons c line ih =>
    obtain ⟨hc, hline⟩ := not_or.mp (mt List.mem_cons.mpr hline)
    exact ih (hr.feed (Ne.symm hc)) hline

/-- A reader in the run of semicolons behind some tokens. -/
def atRun (n : Nat) (earlier : List String) : Reader :=
  { mode := .separator, token := List.replicate (n + 1) ';', tokens := earlier }

end Reader

lemma isSeparator_run (n : Nat) : isSeparator (String.ofList (List.replicate (n + 1) ';')) = true := by
  simp [isSeparator]

lemma group_cons (current : List String) (t : String) (ts : List String) :
    group current (t :: ts) =
      if isSeparator t then group current [] ++ group [] ts else group (t :: current) ts := by
  cases current <;> simp [group]

/-- A separator ends a command. -/
lemma group_separator {s : String} (hs : isSeparator s) (current before after : List String) :
    group current (before ++ s :: after) = group current before ++ group [] after := by
  induction before generalizing current with
  | nil => rw [List.nil_append, group_cons, if_pos hs]
  | cons t before ih =>
    rw [List.cons_append, group_cons, group_cons]
    split_ifs
    · rw [ih, List.append_assoc]
    · exact ih _

/-- No command is empty. -/
lemma group_ne_nil (current ts : List String) : ∀ c ∈ group current ts, c ≠ [] := by
  induction ts generalizing current with
  | nil => cases current <;> simp [group]
  | cons t ts ih =>
    rw [group_cons]
    split_ifs
    · refine List.forall_mem_append.mpr ⟨?_, ih []⟩
      cases current <;> simp [group]
    · exact ih _

lemma commands_ne_nil {line : String} {cs : List (List String)} (h : commands line = .ok cs) :
    ∀ c ∈ cs, c ≠ [] := by
  unfold commands at h
  cases hts : tokens line with
  | error f => simp [hts] at h
  | ok ts =>
    rw [hts, Act.except_map_ok] at h
    cases h
    exact group_ne_nil [] ts

/-- From within a run of semicolons a line is read as from the beginning. -/
lemma commands_after_run (n : Nat) (earlier : List String) (line : List Char) :
    (line.foldl Reader.feed (.atRun n earlier)).finish.map (group []) =
      ((line.foldl Reader.feed {}).finish.map (group [])).map (group [] earlier.reverse ++ ·) := by
  induction line generalizing n earlier with
  | nil =>
    have hgroup := group_separator (isSeparator_run n) [] earlier.reverse []
    simpa [Reader.atRun, Reader.finish, Reader.close, group] using hgroup
  | cons c line ih =>
    by_cases hc : c = ';'
    · subst hc
      have hmore : (Reader.atRun n earlier).feed ';' = .atRun (n + 1) earlier := rfl
      have hfirst : ({} : Reader).feed ';' = .atRun 0 [] := rfl
      rw [List.foldl_cons, List.foldl_cons, hmore, hfirst, ih, ih]
      cases (line.foldl Reader.feed {}).finish <;> simp [group]
    · -- the run is closed, and the character is read as the first of a line behind it
      have hclosed : (Reader.atRun n earlier).feed c =
          (({} : Reader).feed c).behind (String.ofList (List.replicate (n + 1) ';') :: earlier) := by
        have hsemi : (c == ';') = false := by simpa using hc
        rw [← Reader.feed_behind]
        simp [Reader.feed, Reader.atRun, hsemi, Reader.close, Reader.behind]
      rw [List.foldl_cons, List.foldl_cons, hclosed, Reader.foldl_behind, Reader.finish_behind]
      cases (line.foldl Reader.feed (Reader.feed {} c)).finish with
      | error f => rfl
      | ok ts => simp [group_separator (isSeparator_run n)]

/-- A semicolon closes what a plain line has come to, unless it is protected. -/
lemma Reader.Plain.semicolon {r : Reader} (hr : r.Plain) {ts : List String} (hts : r.finish = .ok ts) :
    ∃ n earlier, r.feed ';' = .atRun n earlier ∧ group [] earlier.reverse = group [] ts := by
  obtain ⟨mode, token, earlier⟩ := r
  cases mode with
  | between =>
    cases hts
    exact ⟨0, earlier, rfl, rfl⟩
  | word =>
    cases hts
    exact ⟨0, _, rfl, rfl⟩
  | separator =>
    obtain ⟨n, rfl⟩ := hr.run rfl
    cases hts
    refine ⟨n + 1, earlier, rfl, ?_⟩
    have hgroup := group_separator (isSeparator_run n) [] earlier.reverse []
    rw [Reader.close, List.reverse_cons, List.reverse_replicate, hgroup]
    simp [group]
  | comment => exact absurd rfl hr.mode
  | quote q => cases hts
  | escape inside => cases hts

/-- The commands of a line that does not end within a comment, and then those of the line joined to it. -/
lemma commands_joined {first second : String} (hr : (first.toList.foldl Reader.feed {}).Plain)
    {cs : List (List String)} (hfirst : commands first = .ok cs) :
    commands (first ++ ";" ++ second) = (commands second).map (cs ++ ·) := by
  unfold commands tokens at hfirst ⊢
  cases hts : (first.toList.foldl Reader.feed {}).finish with
  | error f => simp [hts] at hfirst
  | ok ts =>
    rw [hts, Act.except_map_ok] at hfirst
    cases hfirst
    obtain ⟨n, earlier, hrun, hearlier⟩ := hr.semicolon hts
    have hsemi : (";" : String).toList = [';'] := rfl
    rw [String.toList_append, String.toList_append, hsemi, List.foldl_append, List.foldl_append,
      List.foldl_cons, List.foldl_nil, hrun, commands_after_run, hearlier]

lemma commands_append {first second : String} (hplain : '#' ∉ first.toList) {cs : List (List String)}
    (hfirst : commands first = .ok cs) :
    commands (first ++ ";" ++ second) = (commands second).map (cs ++ ·) :=
  commands_joined (Reader.Plain.foldl (Reader.plain_of_mode (by decide) (by decide)) hplain) hfirst

end Loom.CommandLine

namespace Loom.Session

variable {D : Dialect}

/-- Commands in a row are carried out up to the first that fails. -/
lemma runCommands_append (b : Bench D) (r : Registry) (first second : List (List String)) :
    runCommands b r (first ++ second) = (do
      let code ← runCommands b r first
      if code = 0 then runCommands b r second else pure code) := by
  induction first with
  | nil => simp [runCommands]
  | cons c first ih =>
    cases c with
    | nil => exact ih
    | cons name args =>
      simp only [List.cons_append, runCommands]
      cases r.find? name with
      | none => simp
      | some c =>
        simp only [bind_assoc]
        refine bind_congr fun code => ?_
        split_ifs
        · exact ih
        · simp [*]

/-- Joining lines with a semicolon puts their commands in a row. A fault of the second line's is one of
the joined line, no command is empty, and carrying out the joined line is carrying out the first, and
then the second if the first succeeded. -/
theorem joined_line_in_sequence (first second : String) (hplain : '#' ∉ first.toList)
    (cs : List (List String)) (hfirst : CommandLine.commands first = .ok cs) (b : Bench D) (r : Registry) :
    CommandLine.commands (first ++ ";" ++ second) = (CommandLine.commands second).map (cs ++ ·) ∧
    (∀ f, CommandLine.commands (first ++ ";" ++ second) = .error f ↔
      CommandLine.commands second = .error f) ∧
    (∀ line ds, CommandLine.commands line = .ok ds → ∀ c ∈ ds, c ≠ []) ∧
    ((∃ ds, CommandLine.commands second = .ok ds) →
      dispatch b r (first ++ ";" ++ second) = (do
        let code ← dispatch b r first
        if code = 0 then dispatch b r second else pure code)) := by
  have hjoin : CommandLine.commands (first ++ ";" ++ second) =
      (CommandLine.commands second).map (cs ++ ·) := CommandLine.commands_append hplain hfirst
  refine ⟨hjoin, fun f => ?_, fun _ _ => CommandLine.commands_ne_nil, ?_⟩
  · rw [hjoin]
    cases CommandLine.commands second <;> simp
  · rintro ⟨ds, hsecond⟩
    unfold dispatch
    rw [hjoin, hsecond, hfirst]
    exact runCommands_append b r cs ds

/-- A line that ends in a run of semicolons, joined to one that begins with one. -/
theorem rate_before_help :
    let b : Bench Block.dialect := { load := fun _ => .error .noProgram, rounds := 0, depth := 0 }
    CommandLine.commands ("rate '5';;" ++ ";" ++ "; help # end") = .ok [["rate", "5"], ["help"]] ∧
    dispatch b .standard ("rate '5';;" ++ ";" ++ "; help # end") = (do
      let code ← dispatch b .standard "rate '5';;"
      if code = 0 then dispatch b .standard "; help # end" else pure code) := by
  intro b
  have hfirst : CommandLine.commands "rate '5';;" = .ok [["rate", "5"]] := by rfl
  have hsecond : CommandLine.commands "; help # end" = .ok [["help"]] := by rfl
  have hplain : '#' ∉ "rate '5';;".toList := by decide
  obtain ⟨hcommands, -, -, hdispatch⟩ :=
    joined_line_in_sequence "rate '5';;" "; help # end" hplain [["rate", "5"]] hfirst b .standard
  rw [hsecond] at hcommands
  exact ⟨hcommands, hdispatch ⟨_, hsecond⟩⟩

end Loom.Session
