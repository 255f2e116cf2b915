import Raml.Proofs.Decoding
import Raml.Proofs.Documents.Rules

/-! What is decoded is sound at every leaf, and its examples have yet to be read.
-/

namespace Raml

open Yaml (Node)

namespace Responses

/-- Inserting a response adds it at most. -/
theorem mem_insert {responses : Responses} {status : UInt16} {r : Response}
    {entry : UInt16 × Response} (h : entry ∈ responses.insert status r)
    : entry = (status, r) ∨ entry ∈ responses := by
  induction responses with
  | nil => exact Or.inl (List.mem_singleton.mp h)
  | cons first responses ih =>
      obtain ⟨s, q⟩ := first
      rw [Responses.insert] at h
      split at h
      · next same =>
          subst same
          rcases List.mem_cons.mp h with new | later
          · exact Or.inl new
          · exact Or.inr (List.mem_cons_of_mem _ later)
      · rcases List.mem_cons.mp h with new | later
        · exact Or.inr (new ▸ List.mem_cons_self)
        · exact (ih later).imp_right (List.mem_cons_of_mem _)

/-- The response of a status takes the place of the one that is there. -/
theorem nodup_insert {responses : Responses} (status : UInt16) (r : Response)
    (unique : (responses.map (·.1)).Nodup)
    : ((responses.insert status r).map (·.1)).Nodup := by
  induction responses with
  | nil => exact List.nodup_singleton _
  | cons first responses ih =>
      obtain ⟨s, q⟩ := first
      obtain ⟨new, unique⟩ := List.nodup_cons.mp unique
      rw [Responses.insert]
      split
      · exact List.nodup_cons.mpr ⟨new, unique⟩
      · next other =>
          refine List.nodup_cons.mpr ⟨fun member => ?_, ih unique⟩
          obtain ⟨entry, inside, same⟩ := List.mem_map.mp member
          rcases mem_insert inside with rfl | earlier
          · exact other same.symm
          · exact new (List.mem_map.mpr ⟨entry, earlier, same⟩)

end Responses

/-- So responses stay as they should be. -/
theorem Rules.all_insert {R : Rules} {responses : Responses} (h : R.All (Responses.leaves responses))
    (status : UInt16) {r : Response} (new : R.All r.leaves)
    : R.All (Responses.leaves (responses.insert status r)) := by
  obtain ⟨unique, each⟩ := all_responses.mp h
  refine all_responses.mpr ⟨Responses.nodup_insert status r unique, fun entry member => ?_⟩
  rcases Responses.mem_insert member with rfl | earlier
  · exact new
  · exact each entry earlier

namespace Decode

open Rules

variable {node : Node}

-----------------------------------------------------------------------------------------
-- Values
-----------------------------------------------------------------------------------------

/-- A fragment is the JSON of a value. -/
theorem fragment_sound (node : Node) (path : String)
    : Yields (fragment node path) fun j => (Leaf.fragment (some j)).Sound := by
  refine Yields.map fun v value => ?_
  intro j same
  cases same
  exact ⟨v, Value.regular_ofNode node v value, rfl⟩

theorem fragmentField_sound (f : Fields node) (key : String)
    : Yields (f.fragment key) fun fragment => (Leaf.fragment fragment).Sound := by
  unfold Fields.fragment
  split
  · exact Yields.ok nofun
  · exact Yields.ok nofun
  · exact Yields.map (fragment_sound _ _)

/-- Annotations are decoded under keys of their own kind, and with regular values. -/
theorem annotations_sound (f : Fields node)
    : Yields f.annotations fun annotations => written.All (Annotations.leaves annotations) := by
  intro annotations collected
  have regular := collect_keyed (P := fun _ (a : Annotation) => ∀ v ∈ a.value, v.Regular) f
    Annotation.isKey (fun key inner path => ?_) annotations collected
  · obtain ⟨unique, each⟩ := regular
    have keys := collect_wanted f Annotation.isKey annotations collected
    exact all_annotations.mpr ⟨unique, fun entry member => ⟨each entry member, keys entry member⟩⟩
  · split
    · apply Yields.ok
      rintro _ ⟨⟩
    · refine Yields.map fun v value => ?_
      rintro _ ⟨⟩
      exact Value.regular_ofNode _ v value

/-- The items of a list are values like any other. -/
theorem enumeration_regular (node : Node) (path : String)
    : Yields (enumeration node path) fun values => ∀ v ∈ values, v.Regular := by
  refine Yields.bind (Value.regular_ofNode node) fun value regular => ?_
  split
  · exact Yields.ok (Value.regular_array_iff.mp regular)
  · exact Yields.ok (by simp)
  · exact Yields.ok (List.forall_mem_singleton.mpr regular)

-----------------------------------------------------------------------------------------
-- Examples
-----------------------------------------------------------------------------------------

/-- An example that has been decoded, of a type of whatever kind. -/
def SoundExample (e : Example) : Prop := ∀ kind, written.All (e.leaves kind)

/-- An example is sound if its value and its annotations are, and a file is only named. -/
theorem soundExample_of {e : Example} (value : ∀ v ∈ e.value, v.Regular)
    (origin : e.included = true → e.loaded = false ∧ ∃ path, e.value = some (.string path))
    (annotations : written.All (Annotations.leaves e.annotations))
    : SoundExample e :=
  fun _ => all_example.mpr ⟨⟨value, origin⟩, annotations⟩

theorem soundExample_empty : SoundExample .empty := soundExample_of nofun nofun all_noAnnotations

theorem soundExample_ofPath (path : String) : SoundExample (.ofPath path) :=
  soundExample_of (by simp [Example.ofPath]) (fun _ => ⟨rfl, path, rfl⟩) all_noAnnotations

theorem soundExample_ofValue {v : Value} (regular : v.Regular) : SoundExample (.ofValue v) :=
  soundExample_of (by simpa [Example.ofValue] using regular) nofun all_noAnnotations

/-- The value of an example is in a field, or it is all there is. -/
theorem exampleValue_sound (f : Fields node) : Yields (exampleValue f) SoundExample := by
  unfold exampleValue
  split
  · exact Yields.ok soundExample_empty
  · exact Yields.ok soundExample_empty
  · refine Yields.skip fun included => ?_
    split
    · exact Yields.ok (soundExample_ofPath _)
    · exact Yields.bind (Value.regular_ofNode _) fun v regular =>
        Yields.ok (soundExample_ofValue regular)

/-- An example that is a value by itself. -/
theorem plainExample_sound (node : Node) (path : String)
    : Yields (do
        match ← includedPath? node path with
        | some file => return some (.ofPath file)
        | none => return some (.ofValue (← Value.ofNode node)))
      fun e? : Option Example => ∀ e ∈ e?, SoundExample e := by
  refine Yields.skip fun included => ?_
  split
  · exact Yields.ok (by simpa using soundExample_ofPath _)
  · refine Yields.bind (Value.regular_ofNode _) fun v regular => Yields.ok ?_
    simpa using soundExample_ofValue regular

theorem example?_sound (node : Node) (path : String)
    : Yields (example? node path) fun e? => ∀ e ∈ e?, SoundExample e := by
  have plain := plainExample_sound node path
  unfold example?
  split
  · exact Yields.ok (by simp)
  · split
    · refine Yields.skip fun f => Yields.bind (exampleValue_sound f) fun e sound => ?_
      refine Yields.skip fun displayName => Yields.skip fun description => ?_
      refine Yields.skip fun strict => Yields.bind (annotations_sound f) fun annotations applied => ?_
      refine Yields.ok ?_
      rintro _ ⟨⟩
      exact fun kind => all_example.mpr ⟨(all_example.mp (sound kind)).1, applied⟩
    · exact plain
  · exact plain

theorem examples_sound (node : Node) (path : String)
    : Yields (examples node path) fun examples => ∀ kind,
        written.All (Examples.leaves kind examples) := by
  refine Yields.skip fun f => ?_
  have each : ∀ entry ∈ f.entries, Yields (do
      return (entry.1, ← example? entry.2.1 (fieldPath path entry.1)))
      fun pair : String × Option Example => ∀ e ∈ pair.2, SoundExample e :=
    fun entry _ => Yields.bind (example?_sound _ _) fun e? sound => Yields.ok sound
  refine Yields.bind (Yields.mapM each) fun pairs all => Yields.ok fun kind => ?_
  refine all_examples.mpr ⟨Keyed.nodup_ofPairs _, fun entry member => ?_⟩
  obtain ⟨⟨name, e?⟩, inside, same⟩ := List.mem_filterMap.mp (Keyed.mem_of_mem_ofPairs member)
  obtain ⟨e, found, rfl⟩ := Option.map_eq_some_iff.mp same
  exact all _ inside e found kind

-----------------------------------------------------------------------------------------
-- Types
-----------------------------------------------------------------------------------------

/-- A declaration is decoded without a name, which its type is given later. -/
theorem declaration_sound (f : Fields node)
    : Yields (declaration f) fun d =>
        d.typeName = "" ∧ ∀ kind, written.OfDeclaration kind d := by
  refine Yields.bind (fragmentField_sound f _) fun default? ofDefault => ?_
  refine Yields.bind (fragmentField_sound f _) fun schema ofSchema => ?_
  have single := orElse_yields (P := fun e? => ∀ e ∈ e?, SoundExample e) f "example"
    (r := example?) (b := none) nofun fun inner path => example?_sound inner.1 path
  have named := orElse_yields f "examples" (r := examples) (b := [])
    (fun _ => all_noExamples) fun inner path => examples_sound inner.1 path
  refine Yields.bind single fun e? single => Yields.bind named fun examples named => ?_
  refine Yields.skip fun displayName => Yields.skip fun description => ?_
  refine Yields.bind (annotations_sound f) fun annotations applied => ?_
  refine Yields.bind (fragmentField_sound f _) fun facets ofFacets => ?_
  refine Yields.bind (fragmentField_sound f _) fun xml ofXml => Yields.ok ⟨rfl, fun kind => ?_⟩
  exact ⟨ofDefault, ofSchema, fun e member => single e member kind, named kind, applied, ofFacets,
    ofXml⟩

theorem objectFacets_sound (f : Fields node) (properties : Properties)
    : Yields (objectFacets f properties) fun object =>
        object.properties = properties ∧ (Leaf.fragment object.discriminatorValue).Sound := by
  refine Yields.skip fun minProperties => Yields.skip fun maxProperties => ?_
  refine Yields.skip fun additionalProperties => Yields.skip fun discriminator => ?_
  exact Yields.bind (fragmentField_sound f _) fun value sound => Yields.ok ⟨rfl, sound⟩

theorem arrayFacets_sound (f : Fields node)
    : Yields (arrayFacets f) fun array => (Leaf.fragment array.items).Sound := by
  refine Yields.skip fun uniqueItems => Yields.bind (fragmentField_sound f _) fun items sound => ?_
  exact Yields.skip fun minItems => Yields.skip fun maxItems => Yields.ok sound

/-- A type that is put together is as sound as its parts, and named as it says. -/
theorem typeWithProperties_sound (f : Fields node) (name : String) {declaration : Declaration}
    (unnamed : declaration.typeName = "")
    (declared : ∀ kind, written.OfDeclaration kind declaration) {properties : Properties}
    (inside : written.OfProperties properties)
    : Yields (typeWithProperties f name declaration properties) fun t => written.All t.leaves := by
  refine Yields.bind (objectFacets_sound f properties) fun object ⟨same, sound⟩ => ?_
  have values := orElse_yields (P := fun values => ∀ v ∈ values, v.Regular) f "enum"
    (r := enumeration) (b := []) (by simp) fun inner path => enumeration_regular inner.1 path
  refine Yields.bind values fun values regular => Yields.skip fun pattern => ?_
  refine Yields.bind (arrayFacets_sound f) fun array items => Yields.skip fun fileTypes => ?_
  refine Yields.skip fun minLength => Yields.skip fun maxLength => Yields.ok ?_
  subst same
  generalize (if name.isEmpty && !object.properties.isEmpty then "object" else name) = called
  have own (string : StringFacets) (file : FileFacets) : written.OfType
      { TypeNode.empty with declaration, object, scalar := ⟨values⟩, string, array, file } :=
    ⟨(congrArg TypeName.splitArray unnamed).trans (ofType_empty (R := written)).name, rfl,
      fun _ => (ofType_empty (R := written)).inPlace (by decide), declared _, regular, sound, items⟩
  split
  · exact all_type.mpr ⟨(own _ _).setName (kindFree_pending _) called, inside⟩
  · exact all_type.mpr ⟨(own _ _).setName (kindFree_pending _) called, inside⟩

abbrev SoundProperties (node : Node) : Prop :=
  ∀ path, Yields (properties node path) written.OfProperties

/-- By induction, the types of properties are decoded first. -/
theorem typeFields_sound (f : Fields node) (inside : ∀ inner : Inside node, SoundProperties inner.1)
    : Yields (typeFields node f) fun t => written.All t.leaves := by
  rw [typeFields]
  refine Yields.skip fun name => ?_
  refine Yields.bind (declaration_sound f) fun declaration sound => ?_
  obtain ⟨unnamed, declared⟩ := sound
  split
  · exact Yields.bind (inside _ _) fun properties sound =>
      typeWithProperties_sound f name unnamed declared sound
  · exact typeWithProperties_sound f name unnamed declared ofProperties_nil

theorem sound_of_text (node : Node) (path : String)
    : Yields ((text node path).map TypeNode.ofName) fun t => written.All t.leaves :=
  Yields.map fun name _ => all_ofName (kindFree_pending _) name

theorem typeNode_sound_of_inside (node : Node) (path : String)
    (inside : ∀ inner : Inside node, SoundProperties inner.1)
    : Yields (typeNode node path) fun t => written.All t.leaves := by
  cases node with
  | null =>
      rw [typeNode]
      exact Yields.ok (all_type.mpr ⟨ofType_empty, ofProperties_nil⟩)
  | map entries =>
      rw [typeNode]
      exact Yields.skip fun f => typeFields_sound f inside
  | bool b =>
      rw [typeNode]
      exact sound_of_text _ _
  | num n =>
      rw [typeNode]
      exact sound_of_text _ _
  | str s =>
      rw [typeNode]
      exact sound_of_text _ _
  | seq nodes => simpa [typeNode] using Yields.error _
  | tagged tag content => simpa [typeNode] using Yields.error _

theorem property_sound_of_inside (name : String) (node : Node) (path : String)
    (inside : ∀ inner : Inside node, SoundProperties inner.1)
    : Yields (property name node path) fun p => p.name = name ∧ written.All p.type.leaves := by
  unfold property
  split
  · refine Yields.skip fun f => Yields.skip fun required => ?_
    exact Yields.bind (typeFields_sound f inside) fun type sound => Yields.ok ⟨rfl, sound⟩
  · exact Yields.bind (typeNode_sound_of_inside node path inside) fun type sound =>
      Yields.ok ⟨rfl, sound⟩

/-- By induction on the size of nodes, from the properties inside a node to the properties in it. -/
theorem properties_sound (node : Node) : SoundProperties node := by
  induction size : sizeOf node using Nat.strongRecOn generalizing node with
  | ind n ih =>
      intro path
      rw [properties]
      refine Yields.skip fun f => ?_
      refine collect_keyed (P := fun key (p : Property) => p.name = key ∧ written.All p.type.leaves) f _
        fun key inner path => ?_
      refine property_sound_of_inside key inner.1 path fun deeper => ?_
      exact ih _ (size ▸ Nat.lt_trans deeper.2 inner.2) deeper.1 rfl

/-- Every type that is decoded is sound, by induction on the size of nodes. -/
theorem typeNode_sound (node : Node) (path : String)
    : Yields (typeNode node path) fun t => written.All t.leaves :=
  typeNode_sound_of_inside node path fun inner => properties_sound inner.1

/-- Properties in a field of their own are sound as well. What follows goes through all other parts
of a document. -/
theorem propertiesField_sound (f : Fields node) (key : String)
    : Yields (f.properties key) written.OfProperties :=
  orElse_yields f key ofProperties_nil fun inner path => properties_sound inner.1 path

theorem annotationType_sound (node : Node) (path : String)
    : Yields (annotationType node path) fun a => written.All a.leaves := by
  unfold annotationType
  split
  · refine Yields.skip fun f => Yields.skip fun allowed => ?_
    refine Yields.bind (typeFields_sound f fun inner => properties_sound inner.1) fun type sound => ?_
    exact Yields.ok (all_annotationType.mpr sound)
  · exact Yields.bind (typeNode_sound node path) fun type sound =>
      Yields.ok (all_annotationType.mpr sound)

-----------------------------------------------------------------------------------------
-- Methods
-----------------------------------------------------------------------------------------

theorem bodies_sound (node : Node) (path : String)
    : Yields (bodies node path) fun bodies => written.All (Bodies.leaves bodies) := by
  have single : Yields (do return [("", ← typeNode node path)])
      fun bodies : Bodies => written.All (Bodies.leaves bodies) := by
    refine Yields.bind (typeNode_sound node path) fun t sound => Yields.ok ?_
    exact all_bodies.mpr ⟨List.nodup_singleton _, List.forall_mem_singleton.mpr sound⟩
  unfold bodies
  split
  · exact Yields.ok all_noBodies
  · exact single
  · exact single
  · exact single
  · refine Yields.skip fun f => ?_
    split
    · intro bodies collected
      obtain ⟨unique, each⟩ := collect_yields f _ (fun _ inner path => typeNode_sound inner.1 path)
        bodies collected
      exact all_bodies.mpr ⟨unique, fun entry member => each _ _ member⟩
    · exact single
  · exact Yields.error _

theorem bodiesField_sound (f : Fields node) (key : String)
    : Yields (f.orElse key bodies []) fun bodies => written.All (Bodies.leaves bodies) :=
  orElse_yields f key all_noBodies fun inner path => bodies_sound inner.1 path

theorem response_sound (node : Node) (path : String)
    : Yields (response node path) fun r => written.All r.leaves := by
  refine Yields.skip fun f => Yields.skip fun description => ?_
  refine Yields.bind (annotations_sound f) fun annotations applied => ?_
  refine Yields.bind (propertiesField_sound f _) fun headers ofHeaders => ?_
  refine Yields.bind (bodiesField_sound f _) fun bodies ofBodies => Yields.ok ?_
  exact all_response.mpr ⟨applied, ofHeaders, ofBodies⟩

theorem responses_sound (node : Node) (path : String)
    : Yields (responses node path) fun responses => written.All (Responses.leaves responses) := by
  refine Yields.skip fun f => Yields.foldlM all_noResponses fun found entry sound => ?_
  dsimp only
  split
  · exact Yields.error _
  · exact Yields.bind (response_sound _ _) fun r new => Yields.ok (all_insert sound _ new)

theorem traitUse_sound (node : Node) (path : String)
    : Yields (traitUse node path) fun t => written.All t.leaves := by
  unfold traitUse
  split
  · exact Yields.map fun name _ => all_trait.mpr ofMethod_empty
  · exact Yields.map fun name _ => all_trait.mpr ofMethod_empty
  · exact Yields.map fun name _ => all_trait.mpr ofMethod_empty
  · exact Yields.map fun name _ => all_trait.mpr ofMethod_empty
  · exact Yields.error _

theorem traitUses_sound (node : Node) (path : String)
    : Yields (traitUses node path) fun traits => written.All (traitLeaves traits) := by
  unfold traitUses
  split
  · exact Yields.ok all_nil
  · intro traits read
    exact all_traits.mpr (Yields.mapM (fun entry _ => traitUse_sound entry.1 _) traits read)
  · refine Yields.bind (traitUse_sound _ _) fun t sound => Yields.ok ?_
    exact all_traits.mpr (List.forall_mem_singleton.mpr sound)

theorem traitUsesField_sound (f : Fields node) (key : String)
    : Yields (f.orElse key traitUses []) fun traits => written.All (traitLeaves traits) :=
  orElse_yields f key all_nil fun inner path => traitUses_sound inner.1 path

/-- A method and the declaration of a trait have the same fields. -/
theorem methodFields_sound (f : Fields node) (ownKeys : List String)
    : Yields (methodFields f ownKeys) written.OfMethod := by
  refine Yields.skip fun displayName => Yields.skip fun description => ?_
  refine Yields.bind (annotations_sound f) fun annotations applied => ?_
  refine Yields.bind (propertiesField_sound f _) fun queryParameters ofQuery => ?_
  refine Yields.bind (propertiesField_sound f _) fun headers ofHeaders => ?_
  refine Yields.bind (fragmentField_sound f _) fun queryString ofQueryString => ?_
  refine Yields.skip fun protocols => ?_
  refine Yields.bind (fragmentField_sound f _) fun securedBy ofSecuredBy => ?_
  have answers := orElse_yields f "responses" (r := responses) (b := []) all_noResponses
    fun inner path => responses_sound inner.1 path
  refine Yields.bind answers fun responses answered => ?_
  refine Yields.bind (bodiesField_sound f _) fun bodies ofBodies => ?_
  refine Yields.bind (traitUsesField_sound f _) fun is ofTraits => Yields.ok ?_
  exact ⟨applied, ofQuery, ofHeaders, ofQueryString, answered, ofBodies, ofTraits, ofSecuredBy⟩

theorem method_sound (node : Node) (path : String)
    : Yields (method node path) fun m => written.All m.leaves := by
  unfold method
  split
  · exact Yields.ok (all_method.mpr ofMethod_empty)
  · exact Yields.skip fun f m read => all_method.mpr (methodFields_sound f [] m read)
  · exact Yields.error _

theorem traitDeclaration_sound (node : Node) (path : String)
    : Yields (traitDeclaration node path) fun t => written.All t.leaves := by
  have bare := all_trait (R := written) (t := .empty) |>.mpr ofMethod_empty
  unfold traitDeclaration
  split
  · exact Yields.ok bare
  · exact Yields.map fun _ _ => bare
  · exact Yields.map fun _ _ => bare
  · exact Yields.map fun _ _ => bare
  · refine Yields.skip fun f => Yields.skip fun usage => Yields.skip fun resourcePath => ?_
    refine Yields.skip fun resourcePathName => Yields.skip fun methodName => ?_
    refine Yields.bind (methodFields_sound f traitKeys) fun m sound => Yields.ok ?_
    exact all_trait.mpr sound
  · exact Yields.error _
  · refine Yields.skip fun included => ?_
    split
    · exact Yields.ok bare
    · exact Yields.error _

-----------------------------------------------------------------------------------------
-- Resources
-----------------------------------------------------------------------------------------

theorem methods_sound (f : Fields node)
    : Yields (methods f) fun methods => written.All (methodLeaves methods) :=
  (methods_yields method_sound f).mono fun _ table =>
    all_methods.mpr ⟨table.1, fun _ member => table.2 _ _ member⟩

/-- By induction on the size of nodes, from the resources below to the one above. -/
theorem resource_sound (node : Node) (path : String)
    : Yields (resource node path) fun r => written.All r.leaves := by
  induction size : sizeOf node using Nat.strongRecOn generalizing node path with
  | ind n ih =>
      rw [resource]
      refine Yields.skip fun f => Yields.skip fun displayName => Yields.skip fun description => ?_
      refine Yields.bind (annotations_sound f) fun annotations applied => ?_
      refine Yields.bind (fragmentField_sound f _) fun type ofType => ?_
      refine Yields.bind (fragmentField_sound f _) fun securedBy ofSecuredBy => ?_
      refine Yields.bind (propertiesField_sound f _) fun uriParameters ofParameters => ?_
      refine Yields.bind (methods_sound f) fun methods ofMethods => ?_
      refine Yields.bind (traitUsesField_sound f _) fun is ofTraits => ?_
      have inside := collect_yields f isResourceKey fun _ inner path =>
        ih _ (size ▸ inner.2) inner.1 path rfl
      refine Yields.bind inside fun resources table => Yields.ok ?_
      have below := all_resources.mpr ⟨table.1, fun entry member => table.2 _ _ member⟩
      exact all_resource.mpr ⟨applied, ofMethods, ofTraits, ofType, ofSecuredBy, ofParameters, below⟩

theorem resources_sound (f : Fields node)
    : Yields (resources f) fun resources => written.All (Resources.leaves resources) := by
  intro found collected
  obtain ⟨unique, each⟩ :=
    collect_yields f isResourceKey (fun _ inner path => resource_sound inner.1 path) found collected
  exact all_resources.mpr ⟨unique, fun entry member => each _ _ member⟩

-----------------------------------------------------------------------------------------
-- Libraries and documents
-----------------------------------------------------------------------------------------

/-- A table of declarations, whose leaves are those of its values. -/
theorem declarations_sound {α : Type} {leaves : α → List Leaf} (f : Fields node) (key : String)
    {read : Node → String → Except Error α}
    (each : ∀ node path, Yields (read node path) fun a => written.All (leaves a))
    : Yields (declarations f key read) fun entries =>
        written.All (.keys (Keyed.keys entries) :: entries.flatMap fun (_, a) => leaves a) := by
  intro entries declared
  obtain ⟨unique, all⟩ := declarations_yields f key each entries declared
  exact all_table.mpr ⟨unique, fun entry member => all _ _ member⟩

/-- What fields declare is sound, whether they are those of a library or of a document. -/
theorem libraryFields_sound (f : Fields node) : Yields (libraryFields node f) written.OfLibrary := by
  have named (node : Node) (path : String) : Yields (uses node path) (Table fun _ => True) := by
    rw [uses]
    exact each_yields node path fun _ _ _ _ _ => trivial
  rw [libraryFields]
  refine Yields.skip fun usage => ?_
  refine Yields.bind (fragmentField_sound f _) fun schemas ofSchemas => ?_
  refine Yields.bind (fragmentField_sound f _) fun resourceTypes ofResourceTypes => ?_
  refine Yields.bind (fragmentField_sound f _) fun securitySchemes ofSchemes => ?_
  refine Yields.bind (annotations_sound f) fun annotations applied => ?_
  refine Yields.bind (declarations_sound f _ typeNode_sound) fun types ofTypes => ?_
  refine Yields.bind (declarations_sound f _ traitDeclaration_sound) fun traits ofTraits => ?_
  refine Yields.bind (declarations_sound f _ annotationType_sound) fun declared ofDeclared => ?_
  split
  · refine Yields.bind (named _ _) fun uses table => Yields.ok ?_
    exact ⟨ofSchemas, ofTypes, ofTraits, ofResourceTypes, ofDeclared, applied, ofSchemes, table.1⟩
  · exact Yields.ok ⟨ofSchemas, ofTypes, ofTraits, ofResourceTypes, ofDeclared, applied, ofSchemes,
      List.nodup_nil⟩

end Decode

end Raml
