import Loom.Fault

/-! Computations that change a state and may fail. What was changed before a failure stays changed. -/
namespace Loom

/-- A stateful computation with faults; a fault comes with the state it leaves behind. -/
abbrev Act (σ : Type) (α : Type) := ExceptT Fault (StateM σ) α

namespace Act

/-- Run to an outcome and a final state. -/
def outcome (a : Act σ α) (s : σ) : Except Fault α × σ := StateT.run (ExceptT.run a) s

/-- Turn a fault into a value. -/
def attempt (a : Act σ α) : Act σ (Except Fault α) :=
  ExceptT.mk (fun s => let (r, s) := outcome a s; (.ok r, s))

/-- A pure outcome. -/
def ofExcept (r : Except Fault α) : Act σ α := ExceptT.mk (pure r)

/-- Work on a part of the state. -/
def focus (get : σ → τ) (set : τ → σ → σ) (a : Act τ α) : Act σ α :=
  ExceptT.mk fun s => let (r, t) := outcome a (get s); (r, set t s)

/-- Repeat until nothing is left to do or the limit is reached; the result counts the rounds. A count
of rounds that can never be exceeded bounds the repetition when there is no limit. -/
def repeatWhile (round : Act σ Bool) (limit : Option Int) : Nat → Nat → Act σ Nat
  | 0, count => pure count
  | fuel + 1, count => do
    if limit.any (· ≤ (count : Int)) then pure count
    else if ← round then repeatWhile round limit fuel (count + 1) else pure count

end Act

end Loom
