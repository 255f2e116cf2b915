import Raml.Proofs.Resolution.Lookup

/-! Linking annotations to their declarations, which comes before types are resolved.

It changes nothing that resolution goes by: names, references and the order of types stay the same.
-/

namespace Raml

open Resolver

namespace TypeNode

theorem linkProperties_eq (l : Library) (properties : Properties)
    : linkProperties l properties = properties.mapTypes (linkAnnotations l) := by
  induction properties with
  | nil => rfl
  | cons entry properties ih =>
      obtain ⟨key, type, required, name⟩ := entry
      simp only [linkProperties, Property.linkAnnotations, ih]
      rfl

/-- Linking changes annotations only, those of the type and those of its properties. -/
theorem linkAnnotations_eq (l : Library) (t : TypeNode)
    : t.linkAnnotations l = { t with
        declaration := { t.declaration with
          annotations := Keyed.mapValues (·.link l) t.declaration.annotations }
        object := { t.object with properties := t.properties.mapTypes (linkAnnotations l) } } := by
  rw [← linkProperties_eq]
  obtain ⟨_, ⟨_, _, _, _, _, _⟩, _, _, _, _, _, _, _, _⟩ := t
  rfl

/-- The types of properties have their annotations linked as well. -/
theorem properties_linkAnnotations (l : Library) (t : TypeNode)
    : (t.linkAnnotations l).properties = t.properties.mapTypes (linkAnnotations l) := by
  rw [linkAnnotations_eq]
  rfl

/-- Linking annotations resolves nothing. -/
theorem resolved_linkAnnotations (l : Library) (t : TypeNode)
    : (t.linkAnnotations l).resolved = t.resolved := by
  rw [linkAnnotations_eq]

/-- The base that has to be looked up is the same. -/
theorem base?_linkAnnotations (l : Library) (t : TypeNode)
    : (t.linkAnnotations l).base? = t.base? := by
  rw [linkAnnotations_eq]
  rfl

/-- The kind is the same. -/
theorem kind_linkAnnotations (l : Library) (t : TypeNode)
    : (t.linkAnnotations l).kind = t.kind := by
  rw [linkAnnotations_eq]

/-- The references are the same, by induction on the type. -/
theorem references_linkAnnotations (l : Library) (t : TypeNode)
    : (t.linkAnnotations l).references = t.references := by
  induction t using induct with
  | step t ih =>
      rw [references_def, references_def, resolved_linkAnnotations, base?_linkAnnotations,
        properties_linkAnnotations, propertyReferences_eq, propertyReferences_eq]
      have same : (t.properties.mapTypes (linkAnnotations l)).flatMap (fun e => e.2.type.references)
          = t.properties.flatMap fun e => e.2.type.references := by
        rw [Properties.mapTypes, Keyed.mapValues, List.flatMap_map]
        exact List.flatMap_congr fun e member => ih e.1 e.2 member
      rw [same]

end TypeNode

namespace Library

/-- The declared types, their annotations linked as seen from the library. -/
def linkedTypes (l : Library) : Types := Keyed.mapValues (TypeNode.linkAnnotations l) l.types

variable (l : Library)

/-- The declared names are the same, in the same order. -/
theorem keys_linkedTypes : Keyed.keys l.linkedTypes = Keyed.keys l.types :=
  Keyed.keys_mapValues _ _

/-- What a name stands for is the type with its annotations linked. -/
theorem own?_linkedTypes (name : String)
    : own? l.linkedTypes name = (own? l.types name).map (TypeNode.linkAnnotations l) := by
  unfold own?
  split
  · rfl
  · exact Keyed.get?_mapValues _ _ _

/-- The same types refer to each other. -/
theorem refers_linkedTypes {name other : String}
    : Refers l.linkedTypes name other ↔ Refers l.types name other := by
  simp only [Refers, own?_linkedTypes, Option.map_eq_some_iff]
  constructor
  · rintro ⟨_, ⟨t, found, rfl⟩, mentioned⟩
    exact ⟨t, found, by rwa [TypeNode.references_linkAnnotations] at mentioned⟩
  · rintro ⟨t, found, mentioned⟩
    exact ⟨_, ⟨t, found, rfl⟩, by rwa [TypeNode.references_linkAnnotations]⟩

/-- The same types are bases of others. -/
theorem baseLink_linkedTypes {name base : String}
    : BaseLink l.linkedTypes name base ↔ BaseLink l.types name base := by
  simp only [BaseLink, own?_linkedTypes, Option.map_eq_some_iff]
  constructor
  · rintro ⟨_, ⟨t, found, rfl⟩, base?⟩
    exact ⟨t, found, by rwa [TypeNode.base?_linkAnnotations] at base?⟩
  · rintro ⟨t, found, base?⟩
    exact ⟨_, ⟨t, found, rfl⟩, by rwa [TypeNode.base?_linkAnnotations]⟩

/-- The same types are reached from themselves by base links. -/
theorem onBaseCycle_linkedTypes {name : String}
    : OnBaseCycle l.linkedTypes name ↔ OnBaseCycle l.types name := by
  have same : BaseLink l.linkedTypes = BaseLink l.types :=
    funext fun _ => funext fun _ => propext l.baseLink_linkedTypes
  rw [OnBaseCycle, OnBaseCycle, same]

/-- Types are completed in the same order, and behind the same trails. -/
theorem order_linkedTypes : order l.linkedTypes = order l.types := by
  have same : references l.linkedTypes = references l.types := by
    funext name
    rw [references, references, own?_linkedTypes, Option.map_map]
    congr 2
    exact funext fun t => t.references_linkAnnotations l
  rw [order, order, same, keys_linkedTypes]

end Library

end Raml
