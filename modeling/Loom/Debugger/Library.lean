import Loom.Fault

/-! Finding programs by name. A reference `module:member.member` names something inside a module: a
program, an instruction, or a builder of either. -/
namespace Loom

/-- What something found in a module is good for. -/
inductive ItemRole (π : Type) where
  | program (p : π)
  /-- An instruction, with the program that starts there. -/
  | instruction (p : π)
  | other

/-- Something found in a module, with what is found in it in turn. -/
inductive Item (π : Type) where
  | object (role : ItemRole π) (members : List (String × Item π))
  /-- What can be called without arguments, and the outcome. -/
  | builder (result : Except Fault (Item π))

namespace Item

/-- Nothing to run, and nothing inside. -/
def junk : Item π := .object .other []

def member? : Item π → String → Option (Item π)
  | .object _ members, name => (members.find? (·.1 == name)).map (·.2)
  | .builder _, _ => none

/-- Follow a path of names. -/
def follow? (item : Item π) (path : List String) : Option (Item π) :=
  path.foldlM member? item

/-- The program that an item is or starts. -/
def program? : Item π → Option π
  | .object (.program p) _ => some p
  | .object (.instruction p) _ => some p
  | _ => none

end Item

structure Module (π : Type) where
  name : String
  /-- Whether other modules may lie within it. -/
  isPackage : Bool := false
  members : List (String × Item π) := []

/-- The modules at hand. -/
abbrev Library (π : Type) := List (Module π)

namespace Library

def find? (l : Library π) (name : String) : Option (Module π) := List.find? (·.name == name) l

/-- Find a module, given the parts of its name from the last to the first. The modules around it are
found first. -/
def locate (l : Library π) : List String → Except String (Module π)
  | [] => .error "No module named ''"
  | [part] =>
    match l.find? part with
    | some m => .ok m
    | none => .error s!"No module named {Text.quoted part}"
  | part :: parent :: outer =>
    let name := ".".intercalate (part :: parent :: outer).reverse
    match l.find? name with
    | some m => .ok m
    | none => do
      let around ← l.locate (parent :: outer)
      if around.isPackage then .error s!"No module named {Text.quoted name}"
      else .error s!"No module named {Text.quoted name}; {Text.quoted around.name} is not a package"

/-- Split a reference at its first colon; both parts must say something. -/
def splitReference? (reference : String) : Option (String × String) :=
  let cs := reference.toList
  let name := cs.takeWhile (· != ':')
  match cs.dropWhile (· != ':') with
  | _ :: path =>
    if name.isEmpty || path.isEmpty then none else some (String.ofList name, String.ofList path)
  | [] => none

/-- The program that a reference names. -/
def load (l : Library π) (reference : String) : Except Fault π :=
  match splitReference? reference with
  | none => .error (.badReference reference)
  | some (name, path) =>
    if name.startsWith "." then .error (.relativeImport name)
    else
      match l.locate (name.splitOn ".").reverse with
      | .error reason => .error (.cannotImport name reason)
      | .ok m => do
        let target ← match (Item.object .other m.members).follow? (path.splitOn ".") with
          | none => .error (.noAttribute name path)
          | some (.builder result) => result
          | some item => .ok item
        match target.program? with
        | some p => .ok p
        | none => .error (.notProgram reference)

end Library

end Loom
