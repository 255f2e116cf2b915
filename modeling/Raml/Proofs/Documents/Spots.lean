import Raml.Pass
import Raml.Proofs.References

/-! Where types stand in a document, and what is demanded of them there.

A position says from which directory a library reads its files, and how far what stands there is
passed on: what a library shares can end up in every library around it.
-/

namespace Raml

-----------------------------------------------------------------------------------------
-- Positions
-----------------------------------------------------------------------------------------

/-- How far something is passed on. -/
inductive Role where
  /-- It stays where it stands. -/
  | own
  /-- A declared type: it stays, but its properties are inherited by others. -/
  | declared
  /-- It can be taken over by whatever refers to it, in the library or around it. -/
  | shared

/-- The role of properties in what has a role. -/
def Role.inner : Role → Role
  | .own => .own
  | .declared | .shared => .shared

structure Position where
  /-- The directory of the library in which something stands. -/
  directory : Path
  /-- The directories of the libraries around that one, innermost first. -/
  outer : List Path
  role : Role

namespace Position

def inRole (pos : Position) (role : Role) : Position := { pos with role }

/-- The position of the properties of what has a position. -/
def inner (pos : Position) : Position := pos.inRole pos.role.inner

/-- The position of a library that is used at a position. -/
def enter (pos : Position) (used : Library) : Position :=
  { directory := used.location.getD pos.directory
    outer := pos.directory :: pos.outer
    role := .own }

/-- The directories of all libraries that what has a position may end up in. -/
def reach (pos : Position) : List Path :=
  match pos.role with
  | .own | .declared => [pos.directory]
  | .shared => pos.directory :: pos.outer

/-- The directory of the library in which something stands, and those of all libraries around. -/
def chain (pos : Position) : List Path := pos.directory :: pos.outer

/-- Once inside properties, being further inside changes no role. -/
theorem inner_inner (pos : Position) : pos.inner.inner = pos.inner := by
  obtain ⟨directory, outer, role⟩ := pos
  cases role <;> rfl

/-- Whatever has a position may end up in its own library. -/
theorem directory_mem_reach (pos : Position) : pos.directory ∈ pos.reach := by
  obtain ⟨directory, outer, role⟩ := pos
  cases role <;> simp [reach]

/-- Nothing ends up anywhere but in the libraries around. -/
theorem reach_subset_chain (pos : Position) : pos.reach ⊆ pos.chain := by
  obtain ⟨directory, outer, role⟩ := pos
  cases role <;> simp [reach, chain]

end Position

-----------------------------------------------------------------------------------------
-- Spots
-----------------------------------------------------------------------------------------

/-- What can stand somewhere: a type, or a list of properties. -/
inductive Part where
  | type (t : TypeNode)
  | properties (properties : Properties)

def Bodies.parts (bodies : Bodies) : List Part := bodies.map fun (_, t) => .type t

def Response.parts (r : Response) : List Part := .properties r.headers :: Bodies.parts r.bodies

mutual

/-- The parts of a method, or of what a trait has in common with methods. -/
def Method.parts : Method → List Part
  | ⟨_, _, _, queryParameters, headers, _, responses, bodies, _, is, _, _⟩ =>
      .properties queryParameters :: .properties headers :: traitParts is ++ Bodies.parts bodies
        ++ responses.flatMap fun (_, r) => r.parts

def Trait.parts : Trait → List Part
  | ⟨_, method, _, _, _, _, _⟩ => method.parts

def traitParts : List Trait → List Part
  | [] => []
  | t :: traits => t.parts ++ traitParts traits

end

mutual

/-- The parts of a resource and of those below it. -/
def Resource.parts : Resource → List Part
  | ⟨_, _, _, methods, is, _, _, uriParameters, resources⟩ =>
      .properties uriParameters :: traitParts is ++ methods.flatMap (fun (_, m) => m.parts)
        ++ resourceParts resources

def resourceParts : List (String × Resource) → List Part
  | [] => []
  | (_, r) :: resources => r.parts ++ resourceParts resources

end

/-- A part of a document, and where it stands. -/
structure Spot where
  pos : Position
  part : Part

mutual

/-- The spots in a library and in those nested in it. -/
def Library.spots (pos : Position) : Library → List Spot
  | ⟨_, _, types, traits, _, annotationTypes, _, _, uses, _⟩ =>
      types.map (fun (_, t) => ⟨pos.inRole .declared, .type t⟩)
        ++ traits.flatMap (fun (_, t) => t.parts.map (⟨pos.inRole .shared, ·⟩))
        ++ annotationTypes.map (fun (_, a) => ⟨pos.inRole .own, .type a.type⟩)
        ++ useSpots pos uses

def Use.spots (pos : Position) : Use → List Spot
  | .external _ => []
  | .loaded library => library.spots (pos.enter library)

def useSpots (pos : Position) : List (String × Use) → List Spot
  | [] => []
  | (_, use) :: uses => use.spots pos ++ useSpots pos uses

end

/-- What stands in a library has roles of its own. -/
theorem Library.spots_inRole (pos : Position) (role : Role) (l : Library)
    : l.spots (pos.inRole role) = l.spots pos := by
  have used (uses : Uses) : useSpots (pos.inRole role) uses = useSpots pos uses := by
    induction uses with
    | nil => rfl
    | cons entry uses ih =>
        obtain ⟨name, use⟩ := entry
        have same : use.spots (pos.inRole role) = use.spots pos := by cases use <;> rfl
        rw [useSpots, useSpots, same, ih]
  obtain ⟨_, _, types, traits, _, annotationTypes, _, _, uses, _⟩ := l
  simp only [Library.spots, used]
  rfl

/-- Spots in a library in use are spots in all of them. -/
theorem mem_useSpots {pos : Position} {uses : Uses} {name : String} {use : Use}
    (h : (name, use) ∈ uses) {spot : Spot} (member : spot ∈ use.spots pos)
    : spot ∈ useSpots pos uses := by
  induction uses with
  | nil => cases h
  | cons entry uses ih =>
      rcases List.mem_cons.mp h with rfl | later
      · exact List.mem_append_left _ member
      · exact List.mem_append_right _ (ih later)

/-- Paths have no spots, so libraries are all there is to look at. -/
theorem forall_mem_useSpots {P : Spot → Prop} {pos : Position} {uses : Uses}
    (each : ∀ name used, (name, Use.loaded used) ∈ uses
      → ∀ spot ∈ used.spots (pos.enter used), P spot)
    : ∀ spot ∈ useSpots pos uses, P spot := by
  induction uses with
  | nil => simp [useSpots]
  | cons entry uses ih =>
      obtain ⟨name, use⟩ := entry
      have rest := ih fun name used later => each name used (List.mem_cons_of_mem _ later)
      refine List.forall_mem_append.mpr ⟨?_, rest⟩
      cases use with
      | external => simp [Use.spots]
      | loaded used => exact each name used List.mem_cons_self

namespace Library

variable {pos : Position} {l : Library} {name : String}

theorem spots_eq (pos : Position) (l : Library)
    : l.spots pos
      = l.types.map (fun (_, t) => ⟨pos.inRole .declared, .type t⟩)
        ++ l.traits.flatMap (fun (_, t) => t.parts.map (⟨pos.inRole .shared, ·⟩))
        ++ l.annotationTypes.map (fun (_, a) => ⟨pos.inRole .own, .type a.type⟩)
        ++ useSpots pos l.uses := by
  cases l
  rfl

/-- The roles of what a library declares: types stay and lend their properties, traits are shared,
and declarations of annotations are its own. -/
theorem forall_spots_iff {P : Spot → Prop}
    : (∀ spot ∈ l.spots pos, P spot)
      ↔ (∀ entry ∈ l.types, P ⟨pos.inRole .declared, .type entry.2⟩)
        ∧ (∀ entry ∈ l.traits, ∀ part ∈ entry.2.parts, P ⟨pos.inRole .shared, part⟩)
        ∧ (∀ entry ∈ l.annotationTypes, P ⟨pos.inRole .own, .type entry.2.type⟩)
        ∧ ∀ spot ∈ useSpots pos l.uses, P spot := by
  simp only [spots_eq, List.forall_mem_append, List.forall_mem_map, List.forall_mem_flatMap,
    and_assoc]

/-- The spots in a library that is used are spots in those that use it. -/
theorem mem_spots_of_use {used : Library} (h : (name, Use.loaded used) ∈ l.uses) {spot : Spot}
    (member : spot ∈ used.spots (pos.enter used))
    : spot ∈ l.spots pos := by
  rw [spots_eq]
  exact List.mem_append_right _ (mem_useSpots h member)

end Library

/-- The position of a document's own nodes. -/
def Document.position (d : Document) : Position :=
  { directory := d.directory, outer := [], role := .own }

/-- The spots in a document. -/
def Document.spots (d : Document) : List Spot :=
  d.library.spots d.position ++ (resourceParts d.resources).map (⟨d.position, ·⟩)
    ++ [⟨d.position, .properties d.baseUriParameters⟩]

/-- What stands in resources has the position of the document. -/
theorem Document.forall_spots_iff {d : Document} {P : Spot → Prop}
    : (∀ spot ∈ d.spots, P spot)
      ↔ (∀ spot ∈ d.library.spots d.position, P spot)
        ∧ (∀ part ∈ resourceParts d.resources, P ⟨d.position, part⟩)
        ∧ P ⟨d.position, .properties d.baseUriParameters⟩ := by
  simp only [spots, List.forall_mem_append, List.forall_mem_map, List.forall_mem_singleton,
    and_assoc]

-----------------------------------------------------------------------------------------
-- Demands
-----------------------------------------------------------------------------------------

/-- What is demanded of the examples at a position, and of every list of properties. -/
structure Demands where
  ofExample : Position → Example → Prop
  ofProperties : Properties → Prop

namespace Demands

/-- Demands that passes do not get in the way of: they are not about annotations nor about the types
of properties, and whoever reaches further demands more. -/
structure Lasting (M : Demands) : Prop where
  annotations {pos : Position} {e : Example} (annotations : Annotations) (h : M.ofExample pos e)
    : M.ofExample pos { e with annotations }
  types {properties : Properties} (types : List TypeNode) (h : M.ofProperties properties)
    : M.ofProperties (properties.withTypes types)
  nearer {pos further : Position} {e : Example} (within : pos.reach ⊆ further.reach)
    (h : M.ofExample further e) : M.ofExample pos e
  nil : M.ofProperties []
  more {properties : Properties} {name : String} {p : Property} (h : M.ofProperties properties)
    (new : Keyed.has properties name = false) (named : p.name = name)
    : M.ofProperties (properties ++ [(name, p)])

/-- Demands on examples alone. -/
def ofExamples (P : Position → Example → Prop) : Demands where
  ofExample := P
  ofProperties _ := True

/-- Demands on examples last if annotations do not matter, and if what is demanded further away is
demanded here as well. -/
theorem lasting_ofExamples {P : Position → Example → Prop}
    (annotations : ∀ pos e annotations, P pos e → P pos { e with annotations })
    (nearer : ∀ pos further e, pos.reach ⊆ further.reach → P further e → P pos e)
    : (ofExamples P).Lasting where
  annotations _ h := annotations _ _ _ h
  types _ _ := trivial
  nearer within h := nearer _ _ _ within h
  nil := trivial
  more _ _ _ := trivial

end Demands

/-- The demands are met by a type and by the types of its properties, at every depth. -/
inductive TypeNode.Meets (M : Demands) : Position → TypeNode → Prop where
  | intro {pos : Position} {t : TypeNode}
      (examples : ∀ e ∈ t.allExamples, M.ofExample pos e)
      (properties : M.ofProperties t.properties)
      (inside : ∀ key p, (key, p) ∈ t.properties → Meets M pos.inner p.type)
      : Meets M pos t

/-- The type itself, the types of its properties, and so on. -/
inductive TypeNode.Within : TypeNode → TypeNode → Prop where
  | self (t : TypeNode) : Within t t
  | property {t u : TypeNode} {key : String} {p : Property} (h : (key, p) ∈ t.properties)
      (inside : Within u p.type) : Within u t

/-- The demands are met by what stands at a position. -/
def Part.Meets (M : Demands) (pos : Position) : Part → Prop
  | .type t => t.Meets M pos
  | .properties ps => M.ofProperties ps ∧ ∀ key p, (key, p) ∈ ps → p.type.Meets M pos.inner

abbrev Spot.Meets (M : Demands) (spot : Spot) : Prop := spot.part.Meets M spot.pos

/-- The type stands in a part, at some depth. -/
def Part.Has (t : TypeNode) : Part → Prop
  | .type u => t.Within u
  | .properties ps => ∃ key p, (key, p) ∈ ps ∧ t.Within p.type

/-- The type stands somewhere in a document. -/
def Document.Has (d : Document) (t : TypeNode) : Prop := ∃ spot ∈ d.spots, spot.part.Has t

/-- Types stand where they are declared. -/
theorem Document.has_of_get? {d : Document} {name : String} {t : TypeNode}
    (h : Keyed.get? d.library.types name = some t)
    : d.Has t := by
  have declared : ⟨d.position.inRole .declared, .type t⟩ ∈ d.library.spots d.position :=
    (Library.forall_spots_iff.mp fun _ member => member).1 _ (Keyed.mem_of_get? h)
  exact ⟨_, List.mem_append_left _ (List.mem_append_left _ declared), .self t⟩

/-- Every type inside meets the demands at some position, by induction on the way to it. -/
theorem TypeNode.Meets.within {M : Demands} {pos : Position} {t u : TypeNode}
    (meets : t.Meets M pos) (inside : u.Within t)
    : ∃ pos, u.Meets M pos := by
  induction inside generalizing pos with
  | self => exact ⟨pos, meets⟩
  | property member _ ih =>
      obtain ⟨-, -, types⟩ := meets
      exact ih (types _ _ member)

/-- If every spot meets the demands, every type in the document does. -/
theorem Document.Has.meets {M : Demands} {d : Document} {t : TypeNode} (stands : d.Has t)
    (h : ∀ spot ∈ d.spots, spot.Meets M)
    : ∃ pos, t.Meets M pos := by
  obtain ⟨⟨pos, part⟩, member, inside⟩ := stands
  have meets : part.Meets M pos := h _ member
  cases part with
  | type u => exact meets.within inside
  | properties ps =>
      obtain ⟨key, p, declared, inside⟩ := inside
      exact (meets.2 key p declared).within inside

-----------------------------------------------------------------------------------------
-- Examples
-----------------------------------------------------------------------------------------

/-- The example belongs, at a place, to a type that stands somewhere or to one of the types of its
properties, at every depth. -/
inductive TypeNode.HasExample (e : Example) (place : Position) : Position → TypeNode → Prop where
  | own {t : TypeNode} (member : e ∈ t.allExamples) : HasExample e place place t
  | property {pos : Position} {t : TypeNode} {key : String} {p : Property}
      (member : (key, p) ∈ t.properties) (inside : HasExample e place pos.inner p.type)
      : HasExample e place pos t

def Part.HasExample (e : Example) (place pos : Position) : Part → Prop
  | .type t => t.HasExample e place pos
  | .properties ps => ∃ key p, (key, p) ∈ ps ∧ p.type.HasExample e place pos.inner

/-- An example stands in a document at a place. -/
def Document.HasExample (d : Document) (e : Example) (place : Position) : Prop :=
  ∃ spot ∈ d.spots, spot.part.HasExample e place spot.pos

/-- An example meets what is demanded where it stands in the type. -/
theorem TypeNode.Meets.ofExample {M : Demands} {pos place : Position} {t : TypeNode} {e : Example}
    (meets : t.Meets M pos) (h : t.HasExample e place pos)
    : M.ofExample place e := by
  induction h with
  | own member =>
      obtain ⟨examples, -, -⟩ := meets
      exact examples e member
  | property member _ ih =>
      obtain ⟨-, -, inside⟩ := meets
      exact ih (inside _ _ member)

/-- If nothing is demanded of properties, examples are all there is to look at. -/
theorem TypeNode.meets_of_examples {M : Demands} (properties : ∀ ps, M.ofProperties ps)
    {pos : Position} {t : TypeNode}
    (h : ∀ e place, t.HasExample e place pos → M.ofExample place e)
    : t.Meets M pos := by
  induction t using TypeNode.induct generalizing pos with
  | step t ih =>
      refine .intro (fun e member => h e pos (.own member)) (properties _) fun key p member => ?_
      exact ih key p member fun e place inside => h e place (.property member inside)

/-- Demands are met in a document if they are met by each example. -/
theorem Document.meets_of_examples {M : Demands} (properties : ∀ ps, M.ofProperties ps)
    {d : Document} (h : ∀ e place, d.HasExample e place → M.ofExample place e)
    : ∀ spot ∈ d.spots, spot.Meets M := by
  rintro ⟨pos, part⟩ member
  cases part with
  | type t =>
      exact TypeNode.meets_of_examples properties fun e place inside =>
        h e place ⟨_, member, inside⟩
  | properties ps =>
      refine ⟨properties ps, fun key p declared => ?_⟩
      exact TypeNode.meets_of_examples properties fun e place inside =>
        h e place ⟨_, member, key, p, declared, inside⟩

/-- If every spot meets the demands, every example in the document does. -/
theorem Document.HasExample.meets {M : Demands} {d : Document} {e : Example} {place : Position}
    (stands : d.HasExample e place) (h : ∀ spot ∈ d.spots, spot.Meets M)
    : M.ofExample place e := by
  obtain ⟨⟨pos, part⟩, member, inside⟩ := stands
  have meets : part.Meets M pos := h _ member
  cases part with
  | type t => exact meets.ofExample inside
  | properties ps =>
      obtain ⟨key, p, declared, inside⟩ := inside
      exact (meets.2 key p declared).ofExample inside

/-- Demands that everything meets are met wherever something stands. -/
theorem Spot.meets_of_forall {M : Demands} (examples : ∀ pos e, M.ofExample pos e)
    (properties : ∀ ps, M.ofProperties ps) (spot : Spot)
    : spot.Meets M := by
  have all (t : TypeNode) : ∀ pos, t.Meets M pos := by
    induction t using TypeNode.induct with
    | step t ih =>
        exact fun pos => .intro (fun e _ => examples pos e) (properties _)
          fun key p member => ih key p member _
  obtain ⟨pos, part⟩ := spot
  cases part with
  | type t => exact all t pos
  | properties ps => exact ⟨properties ps, fun key p _ => all p.type _⟩

end Raml
