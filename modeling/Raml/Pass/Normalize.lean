import Raml.Keyed
import Raml.Pass

/-! Passes that bring what can be written in several ways into one form. -/

namespace Raml

/-- The name of a property whose key may end with a question mark, and whether it does. -/
def Property.splitOptional (key : String) : String × Bool :=
  match key.toList.reverse with
  | '?' :: rest => (String.ofList rest.reverse, true)
  | _ => (key, false)

namespace Properties

/-- Takes properties in order; `done` are those that have been taken, in order. -/
def normalizeFrom (done : Properties) : Properties → Except Error Properties
  | [] => .ok done
  | (key, p) :: properties =>
      let (name, optional) := Property.splitOptional key
      if Keyed.has done name then .error (.duplicateProperty name)
      else
        normalizeFrom (done ++ [(name, { p with required := p.required && !optional, name })])
          properties

/-- Names properties by their keys. -/
def nameByKeys (properties : Properties) : Properties :=
  properties.map fun (key, p) => (key, { p with name := key })

/-- Whether some key ends with a question mark. -/
def hasOptionalKeys (properties : Properties) : Bool :=
  properties.any fun (key, _) => (Property.splitOptional key).2

/-- Names properties by their keys. A question mark at the end of a key says that the property is
not required, and belongs to no name. Where no key ends with one, all keys stay as they are. -/
def normalize (properties : Properties) : Except Error Properties :=
  if properties.hasOptionalKeys then normalizeFrom [] properties else .ok properties.nameByKeys

end Properties

/-- Puts the body that was declared without a media type under each of the media types that has none
of its own. -/
def Bodies.underMediaTypes (mediaTypes : List String) (bodies : Bodies) : Except Error Bodies :=
  match Keyed.get? bodies "" with
  | none => .ok bodies
  | some body =>
      if mediaTypes.isEmpty then .error .missingMediaType
      else
        .ok (mediaTypes.foldl (fun bodies name =>
          if Keyed.has bodies name then bodies else bodies ++ [(name, body)])
          (Keyed.erase bodies ""))

/-- Annotations without a value have the value null. -/
def Annotations.withValues (annotations : Annotations) : Annotations :=
  annotations.map fun (key, a) => (key, { a with value := some (a.value.getD .null) })

/-- Names annotations by their keys, without brackets. -/
def Annotations.withoutBrackets (annotations : Annotations) : Annotations :=
  Keyed.ofPairs (annotations.map fun (key, a) =>
    let name := Annotation.stripBrackets key
    (name, { a with name }))

/-- Declarations of annotations that name no type are declarations of strings. -/
def AnnotationTypes.withTypes (types : AnnotationTypes) : AnnotationTypes :=
  types.map fun (name, a) =>
    (name, if a.type.typeName.isEmpty then { a with type := a.type.setName "string" } else a)

namespace Pass

/-- Properties are named by their keys, and marks of optional ones are taken off. -/
def normalizeProperties : Pass := ofHooks fun _ => { properties := Properties.normalize }

/-- Every body has a media type; a library alone has none to give. -/
def applyMediaTypes (mediaTypes : Option (List String)) : Pass :=
  match mediaTypes with
  | some names => { bodies := Bodies.underMediaTypes names }
  | none => {}

/-- Every annotation has a value, and every declaration of one a type. -/
def completeAnnotations : Pass :=
  { ofHooks fun _ => { annotations := fun _ a => .ok a.withValues } with
    annotationTypes := AnnotationTypes.withTypes }

/-- Annotations are named without brackets. -/
def nameAnnotations : Pass := ofHooks fun _ => { annotations := fun _ a => .ok a.withoutBrackets }

end Pass

end Raml
