import Loom.Proofs.CommandLine

/-! Written command lines. A token in single quotes is read back whatever its characters are, and tokens
with blanks of any kind and number between them are read back as they were written, with a comment behind
them or without. Commands, however, are told apart by the tokens: one that is made of semicolons alone
separates commands even when it was quoted. So reading a written line gives the commands again, each cut at
such tokens. -/
namespace Loom.CommandLine

/-- What may stand between two tokens: one blank or several. -/
structure Gap where
  text : String
  nonempty : text ≠ ""
  blank : ∀ c ∈ text.toList, isSpace c = true

/-- Quoted tokens in a row; the gaps between them are numbered. -/
def spread (gap : Nat → Gap) : List String → String
  | [] => ""
  | [t] => quoteToken t
  | t :: u :: ts => quoteToken t ++ (gap 0).text ++ spread (fun n => gap (n + 1)) (u :: ts)

/-- A single blank. -/
def Gap.single : Gap := ⟨" ", by decide, by simp [isSpace]⟩

/-- A written command is its tokens with single blanks between them. -/
lemma writeCommand_eq_spread (command : List String) :
    writeCommand command = spread (fun _ => .single) command := by
  induction command with
  | nil => rfl
  | cons t command ih =>
    cases command with
    | nil => rfl
    | cons u command =>
      have hwrite : writeCommand (t :: u :: command) = quoteToken t ++ " " ++ writeCommand (u :: command) :=
        String.intercalate_cons_cons
      rw [hwrite, ih]
      rfl

namespace Reader

/-- A reader between tokens that has read the given ones. -/
def atBlank (ts : List String) : Reader := { tokens := ts.reverse }

/-- A reader that has come to the end of the last of the given tokens. -/
structure HasRead (r : Reader) (ts : List String) : Prop where
  mode : r.mode = .word
  tokens : String.ofList r.token.reverse :: r.tokens = ts.reverse

lemma HasRead.blank {r : Reader} {ts : List String} (hr : r.HasRead ts) {c : Char}
    (hc : isSpace c = true) : r.feed c = atBlank ts := by
  obtain ⟨mode, token, earlier⟩ := r
  obtain ⟨rfl, htokens⟩ := hr
  simp only [feed, hc, if_true, close, atBlank]
  rw [htokens]

lemma HasRead.finish {r : Reader} {ts : List String} (hr : r.HasRead ts) : r.finish = .ok ts := by
  obtain ⟨mode, token, earlier⟩ := r
  obtain ⟨rfl, htokens⟩ := hr
  simp only [Reader.finish, close]
  rw [htokens, List.reverse_reverse]

lemma HasRead.plain {r : Reader} {ts : List String} (hr : r.HasRead ts) : r.Plain :=
  plain_of_mode (by rw [hr.mode]; nofun) (by rw [hr.mode]; nofun)

/-- Within single quotes a protected character stands for itself, the quote included. -/
lemma foldl_protect (token : List Char) (earlier : List String) (c : Char) :
    (protect c).foldl feed { mode := .quote '\'', token, tokens := earlier } =
      { mode := .quote '\'', token := c :: token, tokens := earlier } := by
  by_cases hc : c = '\''
  · subst hc
    rfl
  · have hquote : (c == '\'') = false := by simpa using hc
    simp [protect, hquote, feed, keep]

lemma foldl_protected (token : List Char) (earlier : List String) (cs : List Char) :
    (cs.flatMap protect).foldl feed { mode := .quote '\'', token, tokens := earlier } =
      { mode := .quote '\'', token := cs.reverse ++ token, tokens := earlier } := by
  induction cs generalizing token with
  | nil => rfl
  | cons c cs ih =>
    rw [List.flatMap_cons, List.foldl_append, foldl_protect, ih, List.reverse_cons, List.append_assoc]
    rfl

/-- A quoted token is read as it is, from between tokens. -/
lemma hasRead_quoteToken (ts : List String) (t : String) :
    ((quoteToken t).toList.foldl feed (atBlank ts)).HasRead (ts ++ [t]) := by
  have hopen : (atBlank ts).feed '\'' = { mode := .quote '\'', tokens := ts.reverse } := rfl
  rw [quoteToken, String.toList_ofList, List.foldl_cons, hopen, List.foldl_append, foldl_protected]
  exact ⟨rfl, by simp [feed]⟩

/-- Further blanks make no difference. -/
lemma foldl_blank (ts : List String) {cs : List Char} (hcs : ∀ c ∈ cs, isSpace c = true) :
    cs.foldl feed (atBlank ts) = atBlank ts := by
  induction cs with
  | nil => rfl
  | cons c cs ih =>
    obtain ⟨hc, hrest⟩ := List.forall_mem_cons.mp hcs
    have hstay : (atBlank ts).feed c = atBlank ts := by simp [feed, atBlank, enter, hc]
    rw [List.foldl_cons, hstay, ih hrest]

/-- A gap ends a token. -/
lemma HasRead.gap {r : Reader} {ts : List String} (hr : r.HasRead ts) (gap : Gap) :
    gap.text.toList.foldl feed r = atBlank ts := by
  obtain ⟨c, cs, hgap⟩ := List.exists_cons_of_ne_nil (mt String.toList_eq_nil_iff.mp gap.nonempty)
  have hblank := gap.blank
  rw [hgap] at hblank ⊢
  obtain ⟨hc, hcs⟩ := List.forall_mem_cons.mp hblank
  rw [List.foldl_cons, hr.blank hc, foldl_blank ts hcs]

/-- Quoted tokens are read from between tokens as a continuation of what was read. -/
lemma hasRead_spread (gap : Nat → Gap) (ts : List String) (t : String) (command : List String) :
    ((spread gap (t :: command)).toList.foldl feed (atBlank ts)).HasRead (ts ++ t :: command) := by
  induction command generalizing gap ts t with
  | nil => exact hasRead_quoteToken ts t
  | cons u command ih =>
    rw [spread, String.toList_append, String.toList_append, List.foldl_append, List.foldl_append,
      (hasRead_quoteToken ts t).gap]
    simpa using ih (fun n => gap (n + 1)) (ts ++ [t]) u

lemma hasRead_writeCommand (ts : List String) (t : String) (command : List String) :
    ((writeCommand (t :: command)).toList.foldl feed (atBlank ts)).HasRead (ts ++ t :: command) := by
  rw [writeCommand_eq_spread]
  exact hasRead_spread _ ts t command

/-- A comment goes on to the end of the line. -/
lemma foldl_comment {r : Reader} (hr : r.mode = .comment) {cs : List Char} (hcs : '\n' ∉ cs) :
    cs.foldl feed r = r := by
  induction cs with
  | nil => rfl
  | cons c cs ih =>
    obtain ⟨hc, hrest⟩ := not_or.mp (mt List.mem_cons.mpr hcs)
    have hstay : r.feed c = r := by simp [feed, hr, Ne.symm hc]
    rw [List.foldl_cons, hstay, ih hrest]

/-- A comment behind a token ends it and adds none. -/
lemma HasRead.comment {r : Reader} {ts : List String} (hr : r.HasRead ts) {cs : List Char}
    (hcs : '\n' ∉ cs) : (('#' :: cs).foldl feed r).finish = .ok ts := by
  obtain ⟨mode, token, earlier⟩ := r
  obtain ⟨rfl, htokens⟩ := hr
  have hhash : feed { mode := .word, token, tokens := earlier } '#' =
      { mode := .comment, tokens := ts.reverse } := by
    rw [← htokens]
    rfl
  rw [List.foldl_cons, hhash, foldl_comment rfl hcs]
  exact congrArg Except.ok ts.reverse_reverse

end Reader

/-- Quoted tokens with gaps between them are read as they are, and a comment behind them changes nothing:
empty tokens are kept, and no character of a token is lost, means anything or ends up in another token. -/
theorem spread_tokens_read (gap : Nat → Gap) (ts : List String) (remark : String)
    (hremark : '\n' ∉ remark.toList) :
    tokens (spread gap ts) = .ok ts ∧ tokens (spread gap ts ++ "#" ++ remark) = .ok ts := by
  have hhash : ("#" : String).toList = ['#'] := rfl
  unfold tokens
  rw [String.toList_append, String.toList_append, hhash, List.foldl_append, List.foldl_append,
    ← List.foldl_append, List.singleton_append]
  cases ts with
  | nil =>
    have hcomment : ('#' :: remark.toList).foldl Reader.feed {} = { mode := .comment } :=
      Reader.foldl_comment rfl hremark
    refine ⟨rfl, ?_⟩
    rw [spread, String.toList_empty, List.foldl_nil, hcomment]
    rfl
  | cons t ts =>
    have hread := Reader.hasRead_spread gap [] t ts
    exact ⟨hread.finish, hread.comment hremark⟩

/-- An apostrophe, an empty token, and one that holds what is otherwise a comment, a separator, an escape
and a line break. -/
theorem awkward_tokens_read :
    let gap (n : Nat) : Gap := if n = 0 then ⟨"\t\n ", by decide, by simp [isSpace]⟩ else .single
    let ts := ["it's", "", "#; \\\"\n"]
    spread gap ts = "'it'\"'\"'s'\t\n '' '#; \\\"\n'" ∧
      tokens (spread gap ts) = .ok ts ∧ tokens (spread gap ts ++ "#" ++ " 'open") = .ok ts := by
  intro gap ts
  exact ⟨rfl, spread_tokens_read gap ts " 'open" (by decide)⟩

/-- What reading makes of a written command: it is cut at the tokens that separate commands. -/
def cut (command : List String) : List (List String) :=
  (command.splitOnP isSeparator).filter (· ≠ [])

lemma group_eq (current ts : List String) :
    group current ts =
      ((ts.splitOnP isSeparator).modifyHead (current.reverse ++ ·)).filter (· ≠ []) := by
  induction ts generalizing current with
  | nil => cases current <;> simp [group]
  | cons t ts ih =>
    rw [group_cons, List.splitOnP_cons_eq_if_modifyHead]
    split_ifs
    · have hrest : group [] ts = (ts.splitOnP isSeparator).filter (· ≠ []) := by
        rw [ih []]
        exact congrArg _ (congrFun List.modifyHead_id _)
      rw [hrest]
      cases current <;> simp [group]
    · rw [ih, List.modifyHead_modifyHead]
      simp [Function.comp_def]

lemma group_nil_eq (ts : List String) : group [] ts = cut ts := by
  rw [group_eq]
  exact congrArg _ (congrFun List.modifyHead_id _)

lemma mem_of_mem_group_nil {current c : List String} (hc : c ∈ group current []) {t : String}
    (ht : t ∈ c) : t ∈ current := by
  cases current with
  | nil => simp [group] at hc
  | cons u current =>
    have hlast : c = (u :: current).reverse := List.mem_singleton.mp hc
    rwa [hlast, List.mem_reverse] at ht

/-- No separator is left in a command. -/
lemma group_isSeparator {current : List String} (hcurrent : ∀ t ∈ current, isSeparator t = false)
    (ts : List String) : ∀ c ∈ group current ts, ∀ t ∈ c, isSeparator t = false := by
  induction ts generalizing current with
  | nil => exact fun c hc t ht => hcurrent t (mem_of_mem_group_nil hc ht)
  | cons t ts ih =>
    rw [group_cons]
    split_ifs with ht
    · exact List.forall_mem_append.mpr
        ⟨fun c hc t ht => hcurrent t (mem_of_mem_group_nil hc ht), ih nofun⟩
    · exact ih (List.forall_mem_cons.mpr ⟨by simpa using ht, hcurrent⟩)

/-- A command without separators stays whole. -/
lemma cut_eq_singleton {command : List String} (hne : command ≠ [])
    (hwhole : ∀ t ∈ command, isSeparator t = false) : cut command = [command] := by
  rw [cut, List.splitOnP_eq_singleton hwhole]
  simp [hne]

/-- A written command does not end within a comment. -/
lemma plain_writeCommand (command : List String) :
    ((writeCommand command).toList.foldl Reader.feed {}).Plain := by
  cases command with
  | nil => exact Reader.plain_of_mode nofun nofun
  | cons t command => exact (Reader.hasRead_writeCommand [] t command).plain

lemma commands_writeCommand (command : List String) :
    commands (writeCommand command) = .ok (cut command) := by
  cases command with
  | nil => rfl
  | cons t command =>
    rw [← group_nil_eq]
    exact congrArg (Except.map (group [])) (Reader.hasRead_writeCommand [] t command).finish

lemma commands_writeLine (cs : List (List String)) : commands (writeLine cs) = .ok (cs.flatMap cut) := by
  induction cs with
  | nil => rfl
  | cons c cs ih =>
    cases cs with
    | nil => simpa [writeLine] using commands_writeCommand c
    | cons d cs =>
      have hwrite : writeLine (c :: d :: cs) = writeCommand c ++ ";" ++ writeLine (d :: cs) :=
        String.intercalate_cons_cons
      rw [hwrite, commands_joined (plain_writeCommand c) (commands_writeCommand c), ih]
      rfl

/-- A written line is read as its commands, each cut at its separators, so it is read as it was written
exactly if no command is empty and no token of it is made of semicolons alone. Blanks, quotes,
backslashes, signs of comments, line breaks and semicolons beside other characters do no harm, nor do
empty tokens. -/
theorem written_line_read (cs : List (List String)) :
    commands (writeLine cs) = .ok (cs.flatMap cut) ∧
      (commands (writeLine cs) = .ok cs ↔
        ∀ c ∈ cs, c ≠ [] ∧ ∀ t ∈ c, isSeparator t = false) := by
  have hread := commands_writeLine cs
  refine ⟨hread, fun hsame c hc => ?_, fun hwhole => ?_⟩
  · have hcut : cs.flatMap cut = cs := Except.ok.inj (hread.symm.trans hsame)
    rw [← hcut, List.mem_flatMap] at hc
    obtain ⟨d, -, hc⟩ := hc
    rw [← group_nil_eq] at hc
    exact ⟨group_ne_nil [] d c hc, group_isSeparator (by simp) d c hc⟩
  · have hcut : ∀ c ∈ cs, cut c = [c] := fun c hc => cut_eq_singleton (hwhole c hc).1 (hwhole c hc).2
    rw [hread, List.flatMap_def, List.map_congr_left hcut, ← List.flatMap_def, List.flatMap_singleton']

/-- A quoted semicolon that is a token by itself separates commands. -/
theorem lone_semicolon_separates :
    writeLine [["rate", ";", "5"]] = "'rate' ';' '5'" ∧
      commands (writeLine [["rate", ";", "5"]]) = .ok [["rate"], ["5"]] ∧
      commands (writeLine [["rate", ";", "5"]]) ≠ .ok [["rate", ";", "5"]] :=
  ⟨rfl, rfl, fun h => absurd (Except.ok.inj h) (by decide)⟩

end Loom.CommandLine
