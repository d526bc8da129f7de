import Loom.Arguments.Basic

/-! Reading arguments. Each text is first marked as a switch or as plain; everything behind the divider
`--` is plain. Then the marks are taken in order. -/
namespace Loom.Arguments

/-- A switch as it was called. -/
structure Call where
  switch : Switch
  /-- Whether it was called by a name of one dash. -/
  short : Bool
  /-- The value in the same text, and whether an equals sign leads it. -/
  explicit : Option (List Char) := none
  joined : Bool := false

inductive Mark where
  | plain (text : String)
  | divider
  /-- A switch, which the form may not have. -/
  | switch (text : String) (call : Option Call)

/-- A sign and digits, or a sign and a decimal fraction. One line break may follow. -/
def isNegativeNumber (cs : List Char) : Bool :=
  let isDigit (c : Char) : Bool := (Literal.digitValue? c).isSome
  match cs with
  | '-' :: rest =>
    let whole := rest.takeWhile isDigit
    match rest.dropWhile isDigit with
    | [] | ['\n'] => !whole.isEmpty
    | '.' :: fraction =>
      !(fraction.takeWhile isDigit).isEmpty &&
        (fraction.dropWhile isDigit == [] || fraction.dropWhile isDigit == ['\n'])
    | _ => false
  | _ => false

/-- The part before the first equals sign, and the part behind it if there is one. -/
def splitAtEquals (cs : List Char) : List Char × Option (List Char) :=
  match cs.dropWhile (· != '=') with
  | [] => (cs, none)
  | _ :: rest => (cs.takeWhile (· != '='), some rest)

/-- All names of a form with their switches. -/
def Form.named (f : Form) : List (String × Switch) :=
  f.switches.flatMap fun s => s.names.map ((·, s))

/-- The calls that an abbreviated or bundled text may stand for, with the names they are called by. -/
def Form.guesses (f : Form) (text : String) : List (String × Call) :=
  let cs := text.toList
  match cs with
  | '-' :: '-' :: _ =>
    let (stem, explicit) := splitAtEquals cs
    f.named.filterMap fun (name, switch) =>
      if stem.isPrefixOf name.toList then
        some (name, { switch, short := false, explicit, joined := explicit.isSome })
      else none
  | _ =>
    f.named.filterMap fun (name, switch) =>
      if name.toList = cs.take 2 then
        some (name, { switch, short := true, explicit := some (cs.drop 2) })
      else if cs.isPrefixOf name.toList then some (name, { switch, short := true })
      else none

/-- Mark a text that starts with a dash and is no full name: a name with a value, an abbreviation, a
bundle, a plain text after all, or an unknown switch. -/
def Form.markDashed (f : Form) (text : String) : Except Complaint Mark :=
  let cs := text.toList
  let (stem, explicit) := splitAtEquals cs
  match explicit.bind fun e => (f.switch? (String.ofList stem)).map ((e, ·)) with
  | some (e, switch) =>
    .ok (.switch text (some { switch, short := stem.getD 1 '-' != '-', explicit := some e, joined := true }))
  | none =>
    match f.guesses text with
    | [(_, call)] => .ok (.switch text (some call))
    | [] =>
      if isNegativeNumber cs || cs.contains ' ' then .ok (.plain text) else .ok (.switch text none)
    | several => .error (.ambiguous text (several.map (·.1)))

def Form.mark (f : Form) (text : String) : Except Complaint Mark :=
  match text.toList with
  | '-' :: rest =>
    match f.switch? text with
    | some switch => .ok (.switch text (some { switch, short := rest.head? != some '-' }))
    | none => if rest.isEmpty then .ok (.plain text) else f.markDashed text
  | _ => .ok (.plain text)

def Form.marks (f : Form) : List String → Except Complaint (List Mark)
  | [] => .ok []
  | text :: rest =>
    if text == "--" then .ok (.divider :: rest.map .plain)
    else do
      let m ← f.mark text
      let ms ← f.marks rest
      .ok (m :: ms)

/-- What has been read so far. -/
structure Progress where
  given : Given := []
  /-- Whether the operand is yet to come. -/
  awaits : Bool
  extras : List String := []

namespace Progress

def addExtras (p : Progress) (texts : List String) : Progress := { p with extras := p.extras ++ texts }

def file (p : Progress) (key : String) (v : Value) : Progress := { p with given := p.given ++ [(key, v)] }

/-- Act on a switch with its value. -/
def applySwitch (p : Progress) (s : Switch) (text : Option String) : Except Stop Progress :=
  match s.effect, text with
  | .help, _ => .error .help
  | .flag, _ => .ok (p.file s.key (.bool true))
  | _, none => .error (.complaint (.valueMissing s.title))
  | _, some t =>
    match s.reading.read? t with
    | some v => .ok (p.file s.key v)
    | none => .error (.complaint (.unreadable s.title s.reading t))

/-- Act on switches in order. -/
def applyAll (p : Progress) (calls : List (Switch × Option String)) : Except Stop Progress :=
  calls.foldlM (fun p (s, t) => p.applySwitch s t) p

/-- Take the operand. -/
def takeOperand (p : Progress) (o : Operand) (text : String) : Except Stop Progress :=
  match o.reading.read? text with
  | none => .error (.complaint (.unreadable o.key o.reading text))
  | some v =>
    if o.choices.isEmpty || o.choices.contains text then .ok { p.file o.key v with awaits := false }
    else .error (.complaint (.notChoice o.key text o.choices))

end Progress

/-- A text taken apart: the switches in it with their values, then a switch that waits for its value
in the next text, and a rest that is unknown. -/
structure Bundle where
  calls : List (Switch × Option String) := []
  waiting : Option Switch := none
  unknown : Option String := none

/-- Put a switch without a value in front. -/
def Bundle.lead (b : Bundle) (s : Switch) : Bundle := { b with calls := (s, none) :: b.calls }

/-- Take apart a switch and the text that follows it. A switch of one dash that takes no value is
followed by further ones. -/
def Form.unbundle (f : Form) (s : Switch) (short joined : Bool) :
    List Char → Except Complaint Bundle
  | [] =>
    if s.takesValue then .ok { calls := [(s, some "")] } else .error (.valueIgnored s.title "")
  | c :: rest =>
    if s.takesValue then .ok { calls := [(s, some (String.ofList (c :: rest)))] }
    else if !short || joined || c == '-' then
      .error (.valueIgnored s.title (String.ofList (c :: rest)))
    else
      match f.switch? (String.ofList ['-', c]) with
      | none => .ok { calls := [(s, none)], unknown := some (String.ofList ('-' :: c :: rest)) }
      | some next =>
        match rest with
        | [] => .ok { calls := [(s, none)], waiting := some next }
        | '=' :: value => (f.unbundle next true true value).map (·.lead s)
        | d :: more => (f.unbundle next true false (d :: more)).map (·.lead s)

def Form.bundle (f : Form) (c : Call) : Except Complaint Bundle :=
  match c.explicit with
  | none => .ok { waiting := some c.switch }
  | some text => f.unbundle c.switch c.short c.joined text

/-- The raw text of a mark. -/
def Mark.text : Mark → String
  | .plain t => t
  | .divider => "--"
  | .switch t _ => t

/-- Take marks in order. A divider goes with the operand if it stands next to it. -/
def Form.take (f : Form) : List Mark → Progress → Except Stop Progress
  | [], p => .ok p
  | .divider :: rest, p =>
    match f.operand, p.awaits with
    | some o, true =>
      match rest with
      | .plain t :: rest => do
        let p ← p.takeOperand o t
        .ok (p.addExtras (rest.map (·.text)))
      | rest => .ok (p.addExtras (rest.map (·.text)))
    | _, _ => .ok (p.addExtras ("--" :: rest.map (·.text)))
  | .plain t :: rest, p =>
    match f.operand, p.awaits with
    | some o, true => do
      let p ← p.takeOperand o t
      match rest with
      | .divider :: rest => .ok (p.addExtras (rest.map (·.text)))
      | rest => f.take rest p
    | _, _ => f.take rest (p.addExtras [t])
  | .switch t none :: rest, p => f.take rest (p.addExtras [t])
  | .switch _ (some call) :: rest, p =>
    match f.bundle call with
    | .error c => .error (.complaint c)
    | .ok b => do
      match b.waiting.filter (·.takesValue), rest with
      | some s, .plain v :: rest => do
        let p ← p.applyAll (b.calls ++ [(s, some v)])
        f.take rest p
      | some s, _ => .error (.complaint (.valueMissing s.title))
      | none, rest => do
        let p ← (p.addExtras b.unknown.toList).applyAll (b.calls ++ b.waiting.toList.map ((·, none)))
        f.take rest p

/-- Read arguments. -/
def Form.read (f : Form) (texts : List String) : Except Stop Given :=
  match f.marks texts with
  | .error c => .error (.complaint c)
  | .ok marks => do
    let p ← f.take marks { awaits := f.operand.isSome }
    if p.extras.isEmpty then .ok p.given else .error (.complaint (.unrecognized p.extras))

end Loom.Arguments
