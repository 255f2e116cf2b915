import Raml.Check
import Raml.Settings
import Raml.Site

/-! The checks that a document has to pass once everything in it has been filled in. -/

namespace Raml.Review

/-- Methods and traits have no keys that are unknown. -/
def unknownKey : Site → Except Error Unit
  | .method m => reject m "method"
  | .trait _ t => reject t.method "trait"
  | _ => .ok ()
where
  reject (m : Method) (node : String) : Except Error Unit :=
    match m.unexpected with
    | [] => .ok ()
    | key :: _ => .error (.typo key node)

/-- Annotations are applied only where their declarations allow it. -/
def annotationTargets : Site → Except Error Unit
  | .annotations _ targets annotations => annotations.forM fun (_, a) =>
      match a.declared with
      | some declared =>
          if declared.allowsAny targets then .ok ()
          else .error (.annotationNotAllowed a.name targets)
      | none => .ok ()
  | _ => .ok ()

/-- The full names of the annotations applied at a place. -/
def annotationsUsed : Site → List String
  | .annotations lead _ annotations => annotations.map fun (_, a) => lead ++ a.name
  | _ => []

/-- The full names of the traits used at a place. -/
def traitsUsed : Site → List String
  | .trait lead t => if t.reference.isEmpty then [] else [lead ++ t.reference]
  | _ => []

/-- The full names of what a library and those nested in it declare, where `own` gives the names
that one library declares. -/
def declaredNames (own : Library → List String) (l : Library) : List String :=
  own l ++ l.nested.flatMap fun (lead, nested) => (own nested).map (lead ++ ·)

/-- The declared names that are not used, in order and once each. -/
def unused (declared used : List String) : List String :=
  ((declared.filter fun name => !used.contains name).mergeSort (· ≤ ·)).eraseDups

/-- Strict examples conform to their types. -/
def examples (o : CheckOptions) : Site → Except Error Unit
  | .typeNode t => t.allExamples.forM fun e =>
      match e.strict, e.value with
      | true, some v => t.check v o
      | _, _ => .ok ()
  | _ => .ok ()

/-- All checks of a document, whose library counts as `target`, one after the other. -/
def run (s : Settings) (target : Target) (d : Document) : Except Error Unit := do
  let sites := d.sites target
  sites.forM unknownKey
  sites.forM annotationTargets
  let annotations :=
    unused (declaredNames (fun l => Keyed.keys l.annotationTypes) d.library)
      (sites.flatMap annotationsUsed)
  if !annotations.isEmpty && !s.ignoreUnusedAnnotations then throw (.unusedAnnotations annotations)
  let traits :=
    unused (declaredNames (fun l => Keyed.keys l.traits) d.library) (sites.flatMap traitsUsed)
  if !traits.isEmpty && !s.ignoreUnusedTraits then throw (.unusedTraits traits)
  sites.forM (examples s.check)

end Raml.Review
