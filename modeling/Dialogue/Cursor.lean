/-!
# Cursors

A cursor stands for one way out of a line on show: its main exit or one of its choices. It carries
a stamp of the engine and of the activation it was issued for, so that it can be told from every
other.
-/
namespace Dialogue

inductive Slot where
  | main
  | choice (index : Nat)
  deriving DecidableEq, Repr

/-- Which engine issued a cursor, and in which epoch. Neither number ever runs out. -/
structure Stamp where
  engine : Nat
  epoch : Nat
  deriving DecidableEq, Repr

structure Cursor where
  stamp : Stamp
  slot : Slot
  origin : Nat
  text : String
  jump : Option String
  message : Option String
  deriving DecidableEq, Repr

/-- The cursors of the line on show. -/
structure CurrentLine where
  main : Cursor
  choices : List Cursor
  deriving DecidableEq, Repr

namespace CurrentLine

def index (l : CurrentLine) : Nat := l.main.origin
def texts (l : CurrentLine) : List String := l.choices.map (·.text)
def branches (l : CurrentLine) : Bool := !l.choices.isEmpty

def cursor? (l : CurrentLine) : Slot → Option Cursor
  | .main => some l.main
  | .choice k => l.choices[k]?

/-- All cursors, the main one first. -/
def cursors (l : CurrentLine) : List Cursor := l.main :: l.choices

theorem mem_cursors {l : CurrentLine} {c : Cursor} :
    c ∈ l.cursors ↔ ∃ s, l.cursor? s = some c := by
  constructor
  · intro h
    rcases List.mem_cons.mp h with rfl | h
    · exact ⟨.main, rfl⟩
    · obtain ⟨k, hk⟩ := List.getElem?_of_mem h
      exact ⟨.choice k, hk⟩
  · rintro ⟨s | k, h⟩
    · exact List.mem_cons.mpr (.inl (Option.some.inj h).symm)
    · exact List.mem_cons.mpr (.inr (List.mem_of_getElem? h))

end CurrentLine

end Dialogue
