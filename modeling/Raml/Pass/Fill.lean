import Raml.Pass
import Raml.Resolution

/-! Passes that fill in what is declared elsewhere. -/

namespace Raml

/-- Links annotations, which all have to have declarations in a library. -/
def Annotations.linkDeclared (library : Library) (annotations : Annotations)
    : Except Error Annotations :=
  annotations.mapM fun (name, a) => do return (name, ← a.linkDeclared library)

/-- Links annotations as far as they have declarations in a library. -/
def Annotations.link (library : Library) (annotations : Annotations) : Annotations :=
  annotations.map fun (name, a) => (name, a.link library)

/-- The declaration that the use of a trait stands for, under the name of the use. Declared traits
use no other traits. -/
def Trait.fill (library : Library) (t : Trait) : Except Error (Option Trait) :=
  if t.reference.isEmpty then .ok none
  else
    match library.getTrait? t.reference with
    | none => .error (.traitUndefined t.reference)
    | some declared =>
        .ok (some { declared with
          method := { declared.method with is := [] }
          reference := t.reference })

/-- Behind the first place where a property fails there is less than before. -/
theorem length_lt_of_dropWhile_eq {p : Char → Bool} {cs after : List Char} {c : Char}
    (h : cs.dropWhile p = c :: after)
    : after.length < cs.length := by
  have shorter := (List.dropWhile_suffix (l := cs) p).length_le
  rw [h, List.length_cons] at shorter
  omega

/-- The names between braces in the key of a resource, from left to right. A name is as long as it
can be and not empty. -/
def bracedNames (key : List Char) : List String :=
  match key with
  | [] => []
  | c :: rest =>
      if c = '{' then
        let name := rest.takeWhile (· ≠ '}')
        match _h : rest.dropWhile (· ≠ '}') with
        | [] => []
        | _ :: after =>
            if name.isEmpty then bracedNames rest else String.ofList name :: bracedNames after
      else bracedNames rest
termination_by key.length
decreasing_by
  · exact Nat.lt_succ_self _
  · exact Nat.lt_succ_of_lt (length_lt_of_dropWhile_eq _h)
  · exact Nat.lt_succ_self _

/-- A parameter that a key asks for and nothing else declares. -/
def Property.undeclared (name : String) : Property :=
  let p := Property.ofName name ""
  { p with type := { p.type with resolved := true } }

/-- Adds the parameters that the key of a resource asks for and that are not declared. -/
def Properties.addBraced (key : String) (parameters : Properties) : Properties :=
  (bracedNames key.toList).foldl (fun ps name =>
    if Keyed.has ps name then ps else ps ++ [(name, .undeclared name)]) parameters

namespace Pass

/-- Links every annotation to its declaration. -/
def linkHooks (scope : Scope) : TypeHooks :=
  { annotations := fun _ => Annotations.linkDeclared scope.library }

/-- Every type inherits from its base, and every annotation is linked to its declaration. The
declared types have been resolved. -/
def fillTypes : Pass :=
  { type := fun scope targets t => do
      (← t.fill scope.library).visit (linkHooks scope) targets
    properties := fun scope ps => ps.mapM fun (key, p) => do
      let type ← p.type.fill scope.library
      return (key, { p with type := ← type.visit (linkHooks scope) [.typeDeclaration] })
    annotations := fun scope _ => Annotations.linkDeclared scope.library }

/-- Every use of a trait becomes the trait's declaration. -/
def fillTraits : Pass := { trait := fun scope => Trait.fill scope.library }

/-- The parameters in the keys of resources are declared. -/
def fillUriParameters : Pass := { uriParameters := Properties.addBraced }

end Pass

end Raml
