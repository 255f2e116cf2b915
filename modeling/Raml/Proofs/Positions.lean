import Raml.Decode.Documents
import Raml.Proofs.Checking.Failures

/-! Where the nodes are that have the wrong shape.

Decoders go down from the root of a document, and each is given a node and the way to it. So the
way that an error names leads to the node that was refused.
-/

namespace Raml

open Yaml (Node)

namespace Yaml

-----------------------------------------------------------------------------------------
-- Positions
-----------------------------------------------------------------------------------------

/-- A step from a node to a part of it. -/
inductive Step where
  | key (text : String)
  | item (index : Nat)

/-- A step as it is written behind others. -/
def Step.text : Step → String
  | .key text => "." ++ text
  | .item index => "[" ++ toString index ++ "]"

/-- The spelling of a position: keys joined by points, positions in lists in brackets. -/
def spell : List Step → String
  | [] => ""
  | .key text :: steps => text ++ String.join (steps.map Step.text)
  | steps => String.join (steps.map Step.text)

/-- Steps lead from the root to a node. -/
inductive Node.At (root : Node) : List Step → Node → Prop
  | root : At root [] root
  | key {steps : List Step} {entries : List (Node × Node)} {key node : Node} {text : String}
    (outer : At root steps (.map entries)) (member : (key, node) ∈ entries)
    (named : key.keyText = .ok text)
    : At root (steps ++ [.key text]) node
  | item {steps : List Step} {items : List Node} {node : Node} {index : Nat}
    (outer : At root steps (.seq items)) (member : items[index]? = some node)
    : At root (steps ++ [.item index]) node

/-- A position in a list is added in brackets. -/
theorem spell_item (steps : List Step) (index : Nat)
    : spell (steps ++ [.item index]) = Decode.itemPath (spell steps) index := by
  have written (path : String) : Decode.itemPath path index = path ++ (Step.item index).text := by
    simp [Decode.itemPath, Step.text, ToString.toString, String.append_assoc]
  rw [written]
  cases steps with
  | nil => simp [spell]
  | cons step steps => cases step <;> simp [spell, String.append_assoc]

/-- A key is added behind a point, unless nothing comes before it. -/
theorem spell_key {steps : List Step} (text : String) (h : steps = [] ∨ spell steps ≠ "")
    : spell (steps ++ [.key text]) = Decode.fieldPath (spell steps) text := by
  cases steps with
  | nil => simp [spell, Decode.fieldPath]
  | cons step steps =>
      have inner : spell (step :: steps) ≠ "" := h.resolve_left (List.cons_ne_nil _ _)
      have written : Decode.fieldPath (spell (step :: steps)) text
          = spell (step :: steps) ++ (Step.key text).text := by
        simp [Decode.fieldPath, inner, Step.text, String.append_assoc]
      rw [written]
      cases step <;> simp [spell, String.append_assoc]

-----------------------------------------------------------------------------------------
-- Refusal
-----------------------------------------------------------------------------------------

end Yaml

/-- The shapes of which nodes are taken wherever this is expected. -/
def Expected.Takes : Expected → Yaml.Shape → Prop
  | .mapping, shape | .method, shape => shape = .null ∨ shape = .mapping
  | .scalar, shape => shape = .null ∨ shape = .scalar
  | .strings, shape => shape = .null ∨ shape = .scalar ∨ shape = .sequence
  | .typeDeclaration, shape | .traitDeclaration, shape | .body, shape =>
      shape = .null ∨ shape = .scalar ∨ shape = .mapping
  | .traitName, shape => shape = .scalar
  | .libraryPath, shape => shape = .scalar ∨ shape = .mapping

/-- A node is refused for its shape. Of a node that includes a file, the path may be refused. -/
inductive Expected.Refuses (expected : Expected) : Node → Yaml.Shape → Prop
  | itself {node : Node} (wrong : ¬expected.Takes node.shape) : Refuses expected node node.shape
  | included {tag : String} {content : Node} (includes : Yaml.bareTag tag = "include")
    (wrong : ¬expected.Takes content.shape)
    : Refuses expected (.tagged tag content) content.shape

/-- If the error is about the shape of a node, it names the way from the root to a node that was
refused. -/
def Error.Located (root : Node) : Error → Prop
  | .wrongShape path expected found =>
      ∃ steps node, root.At steps node ∧ Yaml.spell steps = path ∧ expected.Refuses node found
  | _ => True

namespace Decode

variable {root node : Node} {path key : String} {α : Type}

/-- The path leads from the root to the node, which is not the root. -/
def Placed (root node : Node) (path : String) : Prop :=
  (∃ steps, root.At steps node ∧ Yaml.spell steps = path) ∧ path ≠ ""

/-- The fields are at the paths that are given for them. -/
def Fields.Placed (root : Node) (f : Fields node) : Prop :=
  ∀ key inner, (key, inner) ∈ f.entries → key ≠ "" ∨ f.path ≠ ""
    → Decode.Placed root inner.1 (fieldPath f.path key)

/-- The decoder fails for nodes that it places. -/
abbrev Locates (root : Node) (x : Except Error α) : Prop := Fails (Error.Located root) x

/-- A node that is refused at its own path is located. -/
theorem Placed.refuses {expected : Expected} (placed : Placed root node path)
    (wrong : ¬expected.Takes node.shape)
    : (Error.wrongShape path expected node.shape).Located root := by
  obtain ⟨⟨steps, leads, rfl⟩, -⟩ := placed
  exact ⟨steps, node, leads, rfl, .itself wrong⟩

-----------------------------------------------------------------------------------------
-- Steps
-----------------------------------------------------------------------------------------

/-- The path of a field is empty only for a field of the root without a name. -/
theorem fieldPath_ne_empty (h : key ≠ "" ∨ path ≠ "") : fieldPath path key ≠ "" := by
  unfold fieldPath
  split
  · rename_i empty
    exact h.resolve_right fun inside => inside empty
  · simp_all [String.append_eq_empty_iff]

/-- An item of a list is placed behind its position. -/
theorem Placed.item {items : List Node} {inner : Node} {index : Nat}
    (placed : Placed root (.seq items) path) (member : items[index]? = some inner)
    : Placed root inner (itemPath path index) := by
  obtain ⟨⟨steps, leads, rfl⟩, inside⟩ := placed
  refine ⟨⟨_, leads.item member, Yaml.spell_item steps index⟩, ?_⟩
  simp [itemPath, ToString.toString, String.append_eq_empty_iff]

theorem located_of_keys : (Error.decode "<key>" .keyNotScalar).Located root := trivial

/-- The entries of a mapping that is the root, or placed below it. -/
theorem entries_placed {steps : List Yaml.Step} {entries : List (Node × Node)}
    (leads : root.At steps (.map entries)) (h : steps = [] ∨ Yaml.spell steps ≠ "")
    : Alike (Error.Located root) (fields (.map entries) (Yaml.spell steps))
        (fields (.map entries) (Yaml.spell steps))
        fun f => f.path = Yaml.spell steps ∧ f.Placed root := by
  refine Alike.bind (P := fun found => ∀ entry ∈ found, entry.1 ≠ "" ∨ Yaml.spell steps ≠ ""
      → Placed root entry.2.1 (fieldPath (Yaml.spell steps) entry.1))
    (Alike.mapM fun entry _ => ?_)
    fun found each => Alike.ok ⟨rfl, fun key inner => each (key, inner)⟩
  obtain ⟨⟨key, inner⟩, member⟩ := entry
  refine (key.keyText_fails located_of_keys).known.bind fun text named => Alike.ok fun inside => ?_
  refine ⟨⟨_, leads.key member named, Yaml.spell_key text h⟩, fieldPath_ne_empty inside⟩

/-- The fields of a node that is the root, or placed below it. -/
theorem fields_located {steps : List Yaml.Step} (leads : root.At steps node)
    (h : steps = [] ∨ Yaml.spell steps ≠ "")
    : Alike (Error.Located root) (fields node (Yaml.spell steps)) (fields node (Yaml.spell steps))
        fun f => f.path = Yaml.spell steps ∧ f.Placed root := by
  cases node with
  | null => exact Alike.ok ⟨rfl, by simp [Fields.Placed]⟩
  | map entries => exact entries_placed leads h
  | _ => exact Alike.fail ⟨steps, _, leads, rfl, .itself (by simp [Expected.Takes, Node.shape])⟩

/-- The fields of a node that is placed are placed, whichever mapping it is. -/
theorem fields_placed (placed : Placed root node path)
    : Alike (Error.Located root) (fields node path) (fields node path)
        fun f => f.path = path ∧ f.Placed root := by
  obtain ⟨⟨steps, leads, rfl⟩, inside⟩ := placed
  exact fields_located leads (Or.inr inside)

-----------------------------------------------------------------------------------------
-- Fields
-----------------------------------------------------------------------------------------

section Fields

variable {f : Fields node}

/-- A field that is found is placed behind its key. -/
theorem Fields.Placed.get (placed : f.Placed root) {inner : Inside node}
    (found : f.get? key = some inner) (named : key ≠ "")
    : Decode.Placed root inner.1 (fieldPath f.path key) :=
  placed key inner (Keyed.mem_of_get? found) (Or.inl named)

/-- A field may be left out. If it is there, it is read at its own path. -/
theorem optional_located (placed : f.Placed root) (named : key ≠ "")
    {read : Node → String → Except Error α}
    (each : ∀ {inner path}, Decode.Placed root inner path → Locates root (read inner path))
    : Locates root (f.optional key read) := by
  unfold Fields.optional
  cases found : f.get? key with
  | none => exact Alike.ok trivial
  | some inner =>
      rw [Option.mapM_some]
      exact (each (placed.get found named)).map

/-- The same with a default. -/
theorem orElse_located (placed : f.Placed root) (named : key ≠ "")
    {read : Node → String → Except Error α} {default : α}
    (each : ∀ {inner path}, Decode.Placed root inner path → Locates root (read inner path))
    : Locates root (f.orElse key read default) :=
  (optional_located placed named each).map

/-- Entries are read one by one, each at the path of its key. -/
theorem collect_located (placed : f.Placed root) {wanted : String → Bool}
    {read : String → Inside node → String → Except Error α}
    (inside : ∀ key, wanted key = true → key ≠ "" ∨ f.path ≠ "")
    (each
      : ∀ {key inner path}, Decode.Placed root inner.1 path → Locates root (read key inner path))
    : Locates root (f.collect wanted read) := by
  refine (Fails.mapM fun entry member => ?_).seq fun found => Alike.ok trivial
  obtain ⟨member, want⟩ := List.mem_filter.mp member
  exact (each (placed entry.1 entry.2 member (inside entry.1 want))).seq fun _ => Alike.ok trivial

end Fields

/-- The entries of a mapping are placed behind their keys. -/
theorem each_located (placed : Placed root node path)
    {read : String → Inside node → String → Except Error α}
    (each : ∀ {key inner path}, Placed root inner.1 path → Locates root (read key inner path))
    : Locates root (Decode.each node path read) := by
  refine (fields_placed placed).bind fun f read => ?_
  obtain ⟨same, inner⟩ := read
  exact collect_located inner (fun _ _ => Or.inr (same ▸ placed.2)) each

-----------------------------------------------------------------------------------------
-- Leaves
-----------------------------------------------------------------------------------------

/-- Values have any shape, so no error is about that. -/
theorem value_located (node : Node) : Locates root (Value.ofNode node) :=
  Value.ofNode_fails located_of_keys node

/-- A text is refused where it stands. -/
theorem text_located (placed : Placed root node path) : Locates root (text node path) := by
  cases node with
  | seq | map | tagged => exact Alike.fail (placed.refuses (by simp [Expected.Takes, Node.shape]))
  | _ => exact Alike.ok trivial

theorem flag_located : Locates root (flag node path) := by
  unfold flag
  split
  · exact Alike.ok trivial
  · exact Alike.fail trivial

theorem whole_located {word? : Int → Option α} {expected : String}
    : Locates root (whole word? expected node path) := by
  unfold whole
  split
  · split
    · exact Alike.ok trivial
    · exact Alike.fail trivial
  · exact Alike.fail trivial

theorem string_located : Locates root (string node path) := by
  unfold string
  split
  · exact Alike.ok trivial
  · exact Alike.fail trivial

theorem strings_located (placed : Placed root node path) : Locates root (strings node path) := by
  cases node with
  | null => exact Alike.ok trivial
  | bool | num | str =>
      rw [strings]
      exact (text_located placed).map
  | seq nodes => exact Fails.mapM fun _ _ => string_located
  | map | tagged => exact Alike.fail (placed.refuses (by simp [Expected.Takes, Node.shape]))

/-- The path of a file is refused at the place of the node that includes it. -/
theorem includedPath_located (placed : Placed root node path)
    : Locates root (includedPath? node path) := by
  obtain ⟨⟨steps, leads, rfl⟩, -⟩ := placed
  cases node with
  | tagged tag content =>
      rw [includedPath?]
      split
      · rename_i includes
        refine Fails.map ?_
        cases content with
        | seq | map | tagged =>
            refine Alike.fail ⟨steps, _, leads, rfl, .included includes ?_⟩
            simp [Expected.Takes, Node.shape]
        | _ => exact Alike.ok trivial
      · exact Alike.ok trivial
  | _ => exact Alike.ok trivial

section Fields

variable {f : Fields node}

theorem textField_located (placed : f.Placed root) (named : key ≠ "") : Locates root (f.text key) :=
  orElse_located placed named text_located

theorem stringsField_located (placed : f.Placed root) (named : key ≠ "")
    : Locates root (f.strings key) :=
  orElse_located placed named strings_located

theorem fragment_located : Locates root (fragment node path) :=
  (value_located node).map

theorem fragmentField_located : Locates root (f.fragment key) := by
  unfold Fields.fragment
  split
  · exact Alike.ok trivial
  · exact Alike.ok trivial
  · exact fragment_located.map

theorem annotations_located : Locates root f.annotations := by
  refine (Fails.mapM fun entry _ => ?_).seq fun _ => Alike.ok trivial
  refine Fails.seq ?_ fun _ => Alike.ok trivial
  dsimp only
  split
  · exact Alike.ok trivial
  · exact (value_located _).map

end Fields

-----------------------------------------------------------------------------------------
-- Types
-----------------------------------------------------------------------------------------

/-- Where a file is named, it is the path that may be refused. -/
theorem exampleValue_located {f : Fields node} (placed : f.Placed root)
    : Locates root (exampleValue f) := by
  unfold exampleValue
  split
  · exact Alike.ok trivial
  · exact Alike.ok trivial
  · rename_i inner _ found
    refine (includedPath_located (placed.get found (by decide))).seq fun included => ?_
    split
    · exact Alike.ok trivial
    · exact (value_located _).seq fun _ => Alike.ok trivial

theorem example_located (placed : Placed root node path) : Locates root (example? node path) := by
  unfold example?
  split
  · exact Alike.ok trivial
  · split
    · refine (fields_placed placed).bind fun f read => ?_
      obtain ⟨-, inner⟩ := read
      refine (exampleValue_located inner).seq fun e => ?_
      refine (textField_located inner (by decide)).seq fun displayName => ?_
      refine (textField_located inner (by decide)).seq fun description => ?_
      refine (orElse_located inner (by decide) fun _ => flag_located).seq fun strict => ?_
      exact annotations_located.seq fun annotations => Alike.ok trivial
    · refine (includedPath_located placed).seq fun included => ?_
      split
      · exact Alike.ok trivial
      · exact (value_located _).seq fun _ => Alike.ok trivial
  · refine (includedPath_located placed).seq fun included => ?_
    split
    · exact Alike.ok trivial
    · exact (value_located _).seq fun _ => Alike.ok trivial

theorem examples_located (placed : Placed root node path) : Locates root (examples node path) := by
  refine (fields_placed placed).bind fun f read => ?_
  obtain ⟨same, inner⟩ := read
  refine (Fails.mapM fun entry member => ?_).seq fun _ => Alike.ok trivial
  have place := inner entry.1 entry.2 member (Or.inr (same ▸ placed.2))
  exact (example_located (same ▸ place)).seq fun _ => Alike.ok trivial

theorem typeName_located (placed : Placed root node path) : Locates root (typeName node path) := by
  cases node with
  | seq | map => exact fragment_located.map
  | tagged => exact Alike.fail (placed.refuses (by simp [Expected.Takes, Node.shape]))
  | _ => exact text_located placed

/-- The fields of a declaration come one after the other. -/
theorem declaration_located {f : Fields node} (placed : f.Placed root)
    : Locates root (declaration f) := by
  refine fragmentField_located.seq fun default? => fragmentField_located.seq fun schema => ?_
  refine (orElse_located placed (by decide) example_located).seq fun single => ?_
  refine (orElse_located placed (by decide) examples_located).seq fun examples => ?_
  refine (textField_located placed (by decide)).seq fun displayName => ?_
  refine (textField_located placed (by decide)).seq fun description => ?_
  refine annotations_located.seq fun annotations => ?_
  exact fragmentField_located.seq fun facets => fragmentField_located.seq fun xml =>
    Alike.ok trivial

theorem objectFacets_located {f : Fields node} (placed : f.Placed root) (properties : Properties)
    : Locates root (objectFacets f properties) := by
  refine (optional_located placed (by decide) fun _ => whole_located).seq fun minProperties => ?_
  refine (optional_located placed (by decide) fun _ => whole_located).seq fun maxProperties => ?_
  refine (orElse_located placed (by decide) fun _ => flag_located).seq fun additional => ?_
  refine (optional_located placed (by decide) text_located).seq fun discriminator => ?_
  exact fragmentField_located.seq fun discriminatorValue => Alike.ok trivial

theorem enumeration_located : Locates root (enumeration node path) := by
  refine (value_located node).seq fun value => ?_
  split <;> exact Alike.ok trivial

theorem arrayFacets_located {f : Fields node} (placed : f.Placed root)
    : Locates root (arrayFacets f) := by
  refine (orElse_located placed (by decide) fun _ => flag_located).seq fun uniqueItems => ?_
  refine fragmentField_located.seq fun items => ?_
  refine (orElse_located placed (by decide) fun _ => whole_located).seq fun minItems => ?_
  exact (orElse_located placed (by decide) fun _ => whole_located).seq fun maxItems =>
    Alike.ok trivial

theorem typeWithProperties_located {f : Fields node} (placed : f.Placed root) (name : String)
    (declaration : Declaration) (properties : Properties)
    : Locates root (typeWithProperties f name declaration properties) := by
  refine (objectFacets_located placed properties).seq fun object => ?_
  refine (orElse_located placed (by decide) fun _ => enumeration_located).seq fun values => ?_
  refine (textField_located placed (by decide)).seq fun pattern => ?_
  refine (arrayFacets_located placed).seq fun array => ?_
  refine (stringsField_located placed (by decide)).seq fun fileTypes => ?_
  refine (orElse_located placed (by decide) fun _ => whole_located).seq fun minLength => ?_
  exact (orElse_located placed (by decide) fun _ => whole_located).seq fun maxLength =>
    Alike.ok trivial

/-- The properties inside a node fail for nodes that they place. -/
def InnerProperties (root node : Node) : Prop :=
  ∀ inner : Inside node, ∀ path, Placed root inner.1 path → Locates root (properties inner.1 path)

/-- The properties in a type are left to induction. -/
theorem typeFields_located_of_inside {f : Fields node} (placed : f.Placed root)
    (inside : InnerProperties root node)
    : Locates root (typeFields node f) := by
  rw [typeFields]
  refine (orElse_located placed (by decide) typeName_located).seq fun name => ?_
  refine (declaration_located placed).seq fun declaration => ?_
  split
  · rename_i inner found
    refine (inside inner _ (placed.get found (by decide))).seq fun properties => ?_
    exact typeWithProperties_located placed name declaration properties
  · exact typeWithProperties_located placed name declaration []

theorem typeNode_located_of_inside (placed : Placed root node path)
    (inside : InnerProperties root node)
    : Locates root (typeNode node path) := by
  cases node with
  | null =>
      rw [typeNode]
      exact Alike.ok trivial
  | map entries =>
      rw [typeNode]
      refine (fields_placed placed).bind fun f read => ?_
      obtain ⟨-, inner⟩ := read
      exact typeFields_located_of_inside inner inside
  | bool | num | str =>
      rw [typeNode]
      exact (text_located placed).map
  | seq | tagged =>
      rw [typeNode]
      · exact Alike.fail (placed.refuses (by simp [Expected.Takes, Node.shape]))
      all_goals simp

theorem property_located_of_inside {name : String} (placed : Placed root node path)
    (inside : InnerProperties root node)
    : Locates root (property name node path) := by
  unfold property
  split
  · refine (fields_placed placed).bind fun f read => ?_
    obtain ⟨-, inner⟩ := read
    refine (orElse_located inner (by decide) fun _ => flag_located).seq fun required => ?_
    exact (typeFields_located_of_inside inner inside).seq fun type => Alike.ok trivial
  · exact (typeNode_located_of_inside placed inside).seq fun type => Alike.ok trivial

/-- By induction on the size of nodes, from the properties inside a node to the properties in it. -/
theorem properties_located (placed : Placed root node path)
    : Locates root (properties node path) := by
  induction size : sizeOf node using Nat.strongRecOn generalizing node path with
  | ind n ih =>
      rw [properties]
      refine each_located placed fun {key inner path} placed => ?_
      refine property_located_of_inside placed fun deeper path placed => ?_
      exact ih _ (size ▸ Nat.lt_trans deeper.2 inner.2) placed rfl

/-- By induction on the size of the node: properties are inside. -/
theorem typeNode_located (placed : Placed root node path) : Locates root (typeNode node path) :=
  typeNode_located_of_inside placed fun _ _ => properties_located

theorem typeFields_located {f : Fields node} (placed : f.Placed root)
    : Locates root (typeFields node f) :=
  typeFields_located_of_inside placed fun _ _ => properties_located

theorem propertiesField_located {f : Fields node} (placed : f.Placed root) (named : key ≠ "")
    : Locates root (f.properties key) :=
  orElse_located placed named properties_located

theorem targets_located (placed : Placed root node path) : Locates root (targets node path) := by
  refine (strings_located placed).seq fun names => Fails.mapM fun name _ => ?_
  split
  · exact Alike.ok trivial
  · exact Alike.fail trivial

theorem annotationType_located (placed : Placed root node path)
    : Locates root (annotationType node path) := by
  unfold annotationType
  split
  · refine (fields_placed placed).bind fun f read => ?_
    obtain ⟨-, inner⟩ := read
    refine (orElse_located inner (by decide) targets_located).seq fun allowedTargets => ?_
    exact (typeFields_located inner).seq fun type => Alike.ok trivial
  · exact (typeNode_located placed).seq fun type => Alike.ok trivial

-----------------------------------------------------------------------------------------
-- Methods
-----------------------------------------------------------------------------------------

theorem bodies_located (placed : Placed root node path) : Locates root (bodies node path) := by
  have single {node : Node} (placed : Placed root node path)
      : Locates root (α := Bodies) (do return [("", ← typeNode node path)]) :=
    (typeNode_located placed).seq fun type => Alike.ok trivial
  cases node with
  | null => exact Alike.ok trivial
  | bool | num | str => exact single placed
  | map entries =>
      refine (fields_placed placed).bind fun f read => ?_
      obtain ⟨same, inner⟩ := read
      split
      · exact collect_located inner (fun _ _ => Or.inr (same ▸ placed.2)) typeNode_located
      · exact single placed
  | seq | tagged => exact Alike.fail (placed.refuses (by simp [Expected.Takes, Node.shape]))

/-- The fields of a response come one after the other. -/
theorem response_located (placed : Placed root node path) : Locates root (response node path) := by
  refine (fields_placed placed).bind fun f read => ?_
  obtain ⟨-, inner⟩ := read
  refine (textField_located inner (by decide)).seq fun description => ?_
  refine annotations_located.seq fun annotations => ?_
  refine (propertiesField_located inner (by decide)).seq fun headers => ?_
  exact (orElse_located inner (by decide) bodies_located).seq fun bodies => Alike.ok trivial

theorem responses_located (placed : Placed root node path)
    : Locates root (responses node path) := by
  refine (fields_placed placed).bind fun f read => ?_
  obtain ⟨same, inner⟩ := read
  refine Fails.foldlM fun found entry member => ?_
  have place := inner entry.1 entry.2 member (Or.inr (same ▸ placed.2))
  dsimp only
  split
  · exact Alike.fail trivial
  · exact (response_located (same ▸ place)).seq fun response => Alike.ok trivial

theorem traitUse_located (placed : Placed root node path) : Locates root (traitUse node path) := by
  unfold traitUse
  split
  · exact (text_located placed).map
  · exact (text_located placed).map
  · exact (text_located placed).map
  · exact (Node.keyText_fails located_of_keys _).map
  · rename_i notBool notNum notStr notSingle
    refine Alike.fail (placed.refuses ?_)
    cases node <;> simp_all [Expected.Takes, Node.shape]

theorem traitUses_located (placed : Placed root node path)
    : Locates root (traitUses node path) := by
  unfold traitUses
  split
  · exact Alike.ok trivial
  · refine Fails.mapM fun entry member => traitUse_located (placed.item ?_)
    exact List.mem_zipIdx_iff_getElem?.mp member
  · exact (traitUse_located placed).seq fun use => Alike.ok trivial

/-- The fields of a method come one after the other. -/
theorem methodFields_located {f : Fields node} (placed : f.Placed root) (ownKeys : List String)
    : Locates root (methodFields f ownKeys) := by
  refine (textField_located placed (by decide)).seq fun displayName => ?_
  refine (textField_located placed (by decide)).seq fun description => ?_
  refine annotations_located.seq fun annotations => ?_
  refine (propertiesField_located placed (by decide)).seq fun queryParameters => ?_
  refine (propertiesField_located placed (by decide)).seq fun headers => ?_
  refine fragmentField_located.seq fun queryString => ?_
  refine (stringsField_located placed (by decide)).seq fun protocols => ?_
  refine fragmentField_located.seq fun securedBy => ?_
  refine (orElse_located placed (by decide) responses_located).seq fun responses => ?_
  refine (orElse_located placed (by decide) bodies_located).seq fun bodies => ?_
  exact (orElse_located placed (by decide) traitUses_located).seq fun is => Alike.ok trivial

theorem method_located (placed : Placed root node path) : Locates root (method node path) := by
  cases node with
  | null => exact Alike.ok trivial
  | map entries =>
      exact (fields_placed placed).bind fun f read => methodFields_located read.2 []
  | _ => exact Alike.fail (placed.refuses (by simp [Expected.Takes, Node.shape]))

theorem traitDeclaration_located (placed : Placed root node path)
    : Locates root (traitDeclaration node path) := by
  cases node with
  | null => exact Alike.ok trivial
  | bool | num | str =>
      rw [traitDeclaration]
      exact (text_located placed).map
  | map entries =>
      refine (fields_placed placed).bind fun f read => ?_
      obtain ⟨-, inner⟩ := read
      refine (textField_located inner (by decide)).seq fun usage => ?_
      refine (textField_located inner (by decide)).seq fun resourcePath => ?_
      refine (textField_located inner (by decide)).seq fun resourcePathName => ?_
      refine (textField_located inner (by decide)).seq fun methodName => ?_
      exact (methodFields_located inner traitKeys).seq fun method => Alike.ok trivial
  | seq => exact Alike.fail (placed.refuses (by simp [Expected.Takes, Node.shape]))
  | tagged tag content =>
      refine (includedPath_located placed).seq fun included => ?_
      split
      · exact Alike.ok trivial
      · exact Alike.fail (placed.refuses (by simp [Expected.Takes, Node.shape]))

-----------------------------------------------------------------------------------------
-- Documents
-----------------------------------------------------------------------------------------

theorem methods_located {f : Fields node} (placed : f.Placed root) : Locates root (methods f) := by
  refine (Fails.mapM fun name member => ?_).seq fun found => Alike.ok trivial
  have named : name ≠ "" := by
    rintro rfl
    exact absurd member (by decide)
  exact (optional_located placed named method_located).seq fun method => Alike.ok trivial

/-- The key of a resource starts with a slash. -/
theorem ne_empty_of_isResourceKey (h : isResourceKey key = true) : key ≠ "" := by
  rintro rfl
  exact absurd h (by decide)

/-- By induction on the size of the node: resources are inside each other. -/
theorem resource_located (placed : Placed root node path) : Locates root (resource node path) := by
  induction size : sizeOf node using Nat.strongRecOn generalizing node path with
  | ind n ih =>
      rw [resource]
      refine (fields_placed placed).bind fun f read => ?_
      obtain ⟨-, inner⟩ := read
      refine (textField_located inner (by decide)).seq fun displayName => ?_
      refine (textField_located inner (by decide)).seq fun description => ?_
      refine annotations_located.seq fun annotations => ?_
      refine fragmentField_located.seq fun type => fragmentField_located.seq fun securedBy => ?_
      refine (propertiesField_located inner (by decide)).seq fun uriParameters => ?_
      refine (methods_located inner).seq fun methods => ?_
      refine (orElse_located inner (by decide) traitUses_located).seq fun is => ?_
      refine Fails.seq ?_ fun resources => Alike.ok trivial
      refine collect_located inner (fun _ named => Or.inl (ne_empty_of_isResourceKey named)) ?_
      exact fun {_ deeper _} placed => ih _ (size ▸ deeper.2) placed rfl

theorem resources_located {f : Fields node} (placed : f.Placed root)
    : Locates root (resources f) :=
  collect_located placed (fun _ named => Or.inl (ne_empty_of_isResourceKey named)) resource_located

theorem declarations_located {f : Fields node} (placed : f.Placed root) (named : key ≠ "")
    {read : Node → String → Except Error α}
    (each : ∀ {inner path}, Placed root inner path → Locates root (read inner path))
    : Locates root (declarations f key read) :=
  orElse_located placed named fun placed => each_located placed each

/-- The libraries that are used inside a node fail for nodes that they place. -/
def InnerUses (root node : Node) : Prop :=
  ∀ inner : Inside node, ∀ path, Placed root inner.1 path → Locates root (uses inner.1 path)

/-- The libraries in use are left to induction. -/
theorem libraryFields_located_of_inside {f : Fields node} (placed : f.Placed root)
    (inside : InnerUses root node)
    : Locates root (libraryFields node f) := by
  rw [libraryFields]
  refine (textField_located placed (by decide)).seq fun usage => ?_
  refine fragmentField_located.seq fun schemas => fragmentField_located.seq fun resourceTypes => ?_
  refine fragmentField_located.seq fun securitySchemes => ?_
  refine annotations_located.seq fun annotations => ?_
  refine (declarations_located placed (by decide) typeNode_located).seq fun types => ?_
  refine (declarations_located placed (by decide) traitDeclaration_located).seq fun traits => ?_
  refine (declarations_located placed (by decide) annotationType_located).seq fun declared => ?_
  split
  · rename_i inner found
    exact (inside inner _ (placed.get found (by decide))).seq fun uses => Alike.ok trivial
  · exact Alike.ok trivial

theorem use_located_of_inside (placed : Placed root node path) (inside : InnerUses root node)
    : Locates root (use node path) := by
  cases node with
  | bool | num | str =>
      rw [use]
      exact (text_located placed).map
  | map entries =>
      rw [use]
      refine (fields_placed placed).bind fun f read => ?_
      obtain ⟨-, inner⟩ := read
      exact (libraryFields_located_of_inside inner inside).seq fun l => Alike.ok trivial
  | tagged tag content =>
      rw [use]
      refine (includedPath_located placed).seq fun included => ?_
      split
      · exact Alike.ok trivial
      · exact Alike.fail (placed.refuses (by simp [Expected.Takes, Node.shape]))
  | null | seq =>
      rw [use]
      · exact Alike.fail (placed.refuses (by simp [Expected.Takes, Node.shape]))
      all_goals simp

/-- By induction on the size of the node: libraries are inside each other. -/
theorem uses_located (placed : Placed root node path) : Locates root (uses node path) := by
  induction size : sizeOf node using Nat.strongRecOn generalizing node path with
  | ind n ih =>
      rw [uses]
      refine each_located placed fun {key inner path} placed => ?_
      refine use_located_of_inside placed fun deeper path placed => ?_
      exact ih _ (size ▸ Nat.lt_trans deeper.2 inner.2) placed rfl

/-- Documentation is not placed, and has errors of its own. -/
theorem documentationFields_located {item : DocumentationItem} {seen : List String}
    (entries : List (Node × Node))
    : Locates root (documentationFields path item seen entries) := by
  induction entries generalizing item seen with
  | nil => exact Alike.ok trivial
  | cons entry entries ih =>
      obtain ⟨key, inner⟩ := entry
      rw [documentationFields]
      split
      · split
        · exact Fails.when trivial (string_located.seq fun text => ih)
        · exact ih
      · exact Alike.fail trivial

theorem documentationItem_located : Locates root (documentationItem node path) := by
  unfold documentationItem
  split
  · exact Alike.ok trivial
  · exact documentationFields_located _
  · exact Alike.fail trivial

theorem documentation_located : Locates root (documentation node path) := by
  unfold documentation
  split
  · exact Alike.ok trivial
  · exact Fails.mapM fun _ _ => documentationItem_located
  · exact Alike.fail trivial

/-- The root has no path, and it is refused without one. -/
theorem document_located (root : Node) : Locates root (document root) := by
  refine (fields_located .root (Or.inl rfl)).bind fun f read => ?_
  obtain ⟨-, placed⟩ := read
  refine (textField_located placed (by decide)).seq fun title => ?_
  refine (textField_located placed (by decide)).seq fun description => ?_
  refine (textField_located placed (by decide)).seq fun version => ?_
  refine (textField_located placed (by decide)).seq fun baseUri => ?_
  refine (propertiesField_located placed (by decide)).seq fun baseUriParameters => ?_
  refine (stringsField_located placed (by decide)).seq fun protocols => ?_
  refine (stringsField_located placed (by decide)).seq fun mediaType => ?_
  refine fragmentField_located.seq fun securedBy => ?_
  refine (orElse_located placed (by decide) fun _ => documentation_located).seq fun docs => ?_
  refine (libraryFields_located_of_inside placed fun _ _ => uses_located).seq fun library => ?_
  exact (resources_located placed).seq fun resources => Alike.ok trivial

/-- The path of a document's error about a shape is the spelling of a position, and at that position
is a node that was refused for the shape that the error names. -/
theorem refused_of_document {path : String} {expected : Expected} {found : Yaml.Shape}
    (h : document root = .error (.wrongShape path expected found))
    : ∃ steps node, root.At steps node ∧ Yaml.spell steps = path
        ∧ expected.Refuses node found :=
  (document_located root).error _ h

/-- The title of the document is a list where a text is expected. -/
theorem refused_of_document_title
    : ∃ steps node, Node.At (.map [(.str "title", .seq [])]) steps node
        ∧ Yaml.spell steps = "title" ∧ Expected.scalar.Refuses node .sequence :=
  refused_of_document (show document (.map [(.str "title", .seq [])]) = _ by rfl)

end Decode

end Raml
