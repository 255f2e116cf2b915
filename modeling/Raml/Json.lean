import Raml.Keyed

/-! JSON values. Members keep their order, and whole numbers are kept apart from the others. -/

namespace Raml

inductive Json where
  | null
  | bool (b : Bool)
  | int (i : Int)
  | float (x : Float)
  | str (s : String)
  | arr (items : List Json)
  | obj (members : List (String × Json))
  deriving Inhabited

namespace Json

/-- The member of an object under a key. -/
def get? : Json → String → Option Json
  | .obj members, key => Keyed.get? members key
  | _, _ => none

mutual

/-- Keeps of several members with one key the last one, at the place of the first. -/
def collapse : Json → Json
  | .arr items => .arr (collapseItems items)
  | .obj members => .obj (Keyed.ofPairs (collapseMembers members))
  | j => j

def collapseItems : List Json → List Json
  | [] => []
  | j :: js => j.collapse :: collapseItems js

def collapseMembers : List (String × Json) → List (String × Json)
  | [] => []
  | (k, j) :: ms => (k, j.collapse) :: collapseMembers ms

end

/-- How much of a value is read, where `Part` tells kinds of parts apart. What is not read has to be
well-formed and is left out. -/
structure Selection (Part : Type) where
  /-- What the member under a key is a part as, if it is read. -/
  member? : Part → String → Option Part
  /-- What the item at a place in a list is a part as. -/
  item : Part → Nat → Part
  /-- Whether keys are taken as they are written, with escapes left as they are. -/
  keysAsWritten : Part → Bool

/-- The selection of all parts. -/
def Selection.all : Selection Unit :=
  { member? := fun _ _ => some (), item := fun _ _ => (), keysAsWritten := fun _ => false }

end Json

end Raml
