import Raml.Proofs.Documents.Rejected
import Raml.Proofs.Loading.Pending
import Raml.Proofs.Mappings

/-! Keys that are unknown: what is parsed has none of them, and one that is left over in a text is
what parsing fails for.

Which mappings are methods and which are declarations of traits is said of the nodes that texts
spell, be it the text of the document or those of the files that it names. Entries of one key are
several mappings, and only the last of them is decoded: the others may have any keys.
-/

namespace Raml

open Yaml (Node)

-----------------------------------------------------------------------------------------
-- Methods and traits among the nodes of texts
-----------------------------------------------------------------------------------------

namespace Decode

/-- The last entry of a key stands for the key. -/
def Kept (node : Node) (key : String) (inner : Node) : Prop := last? node key = some inner

/-- Each entry of a key stands for the key. -/
def Stated (node : Node) (key : String) (inner : Node) : Prop := (key, inner) ∈ entriesOf node

variable (stands : Node → String → Node → Prop)

/-- A method of a resource in a mapping, or of one below it. -/
inductive DeclaresMethod : Node → Node → Prop where
  | own {node resource method : Node} {key name : String} (isKey : isResourceKey key = true)
      (below : stands node key resource) (known : name ∈ Resource.methodNames)
      (has : first? resource name = some method)
      : DeclaresMethod node method
  | nested {node resource method : Node} {key : String} (isKey : isResourceKey key = true)
      (below : stands node key resource) (inside : DeclaresMethod resource method)
      : DeclaresMethod node method

variable (settings : Settings) (source : Source)

/-- A library that a mapping uses, at any depth, in the mapping itself or in files. Each library
names its files as seen from a directory. -/
inductive BringsIn : Path → Node → Path → Node → Prop where
  | self (directory : Path) (node : Node) : BringsIn directory node directory node
  | written {directory there : Path} {node uses used library : Node} {name : String}
      (has : first? node "uses" = some uses) (names : stands uses name used)
      (here : namedPath? used = none) (inside : BringsIn directory used there library)
      : BringsIn directory node there library
  | file {directory there : Path} {node uses named used library : Node} {name file : String}
      {bytes : Bytes} (has : first? node "uses" = some uses) (names : stands uses name named)
      (path : namedPath? named = some file)
      (read : source.readFile (directory.join ⟨file⟩) = .ok bytes)
      (spelled : settings.readNode bytes = .ok used)
      (inside : BringsIn ((directory.join ⟨file⟩).parent?.getD directory) used there library)
      : BringsIn directory node there library

/-- The declaration of a trait of a library, or what stands in the file that it names. -/
inductive DeclaresTrait (directory : Path) (library : Node) : Node → Prop where
  | written {traits declaration : Node} {name : String}
      (has : first? library "traits" = some traits) (names : stands traits name declaration)
      (here : namedPath? declaration = none)
      : DeclaresTrait directory library declaration
  | file {traits named declaration : Node} {name file : String} {bytes : Bytes}
      (has : first? library "traits" = some traits) (names : stands traits name named)
      (path : namedPath? named = some file)
      (read : source.readFile (directory.join ⟨file⟩) = .ok bytes)
      (spelled : settings.readNode bytes = .ok declaration)
      : DeclaresTrait directory library declaration

/-- The methods and the declarations of traits that a document leads to, what they are called and
the keys that they may have. -/
inductive Presents (directory : Path) (root : Node) : String → List String → Node → Prop where
  | method {m : Node} (h : DeclaresMethod stands root m)
    : Presents directory root "method" methodKeys m
  | trait {there : Path} {library t : Node}
      (leads : BringsIn stands settings source directory root there library)
      (h : DeclaresTrait stands settings source there library t)
    : Presents directory root "trait" (traitKeys ++ methodKeys) t

/-- What is known of methods and of traits is listed once. -/
theorem Presents.nodup {stands settings source} {directory : Path} {root mapping : Node}
    {label : String} {known : List String}
    (h : Presents stands settings source directory root label known mapping)
    : known.Nodup := by
  cases h with
  | method => decide
  | trait => decide

variable {stands settings source}

-----------------------------------------------------------------------------------------
-- What they are decoded into
-----------------------------------------------------------------------------------------

variable {node : Node} {f : Fields node} {path : String} {α : Type}

/-- All keys that are not read are kept, in their order. -/
theorem unexpected_of_methodFields (ofNode : fields node path = .ok f) (ownKeys : List String)
    {m : Method} (h : methodFields f ownKeys = .ok m)
    : m.unexpected = unknownKeysOf (ownKeys ++ methodKeys) node :=
  (methodFields_parts f ownKeys m h).2.trans (unknownKeys_of_fields ofNode _)

/-- A method knows its own keys only. -/
theorem unexpected_of_method {m : Method} (h : method node path = .ok m)
    : m.unexpected = unknownKeysOf methodKeys node := by
  cases node with
  | null =>
      cases h
      rfl
  | map entries =>
      obtain ⟨f, ofNode, h⟩ := bind_eq_ok_iff.mp h
      exact unexpected_of_methodFields ofNode [] h
  | bool | num | str | seq | tagged => cases h

/-- A trait knows the keys of methods and some of its own. -/
theorem unexpected_of_traitDeclaration (node : Node) (path : String)
    : Yields (traitDeclaration node path) fun t =>
        t.method.unexpected = unknownKeysOf (traitKeys ++ methodKeys) node := by
  unfold traitDeclaration
  split
  · exact Yields.ok rfl
  · exact Yields.map fun file _ => rfl
  · exact Yields.map fun file _ => rfl
  · exact Yields.map fun file _ => rfl
  · refine Yields.keep fun f ofNode => Yields.skip fun usage => Yields.skip fun resourcePath => ?_
    refine Yields.skip fun resourcePathName => Yields.skip fun methodName => ?_
    refine Yields.keep fun method read => Yields.ok ?_
    exact unexpected_of_methodFields ofNode traitKeys read
  · exact Yields.error _
  · refine Yields.skip fun included => ?_
    split
    · exact Yields.ok rfl
    · exact Yields.error _

/-- A field that may be left out is read from the first entry of its key. -/
theorem rel_of_optional (ofNode : fields node path = .ok f) {key : String}
    {r : Node → String → Except Error α} {found : Option α} (h : f.optional key r = .ok found)
    : Option.Rel (fun inner a => r inner (fieldPath path key) = .ok a) (first? node key) found := by
  rw [← first?_of_fields ofNode]
  rw [Fields.optional, path_of_fields ofNode] at h
  cases there : f.get? key with
  | none =>
      rw [there] at h
      cases h
      exact .none
  | some inner =>
      rw [there, Option.mapM_some] at h
      obtain ⟨a, read, rfl⟩ := map_eq_ok_iff.mp h
      exact .some read

/-- Methods stand under their names. -/
theorem methods_parts (ofNode : fields node path = .ok f) {found : List (String × Method)}
    (h : methods f = .ok found)
    : (∀ name m, (name, m) ∈ found → name ∈ Resource.methodNames
        ∧ ∃ inner, first? node name = some inner ∧ m.unexpected = unknownKeysOf methodKeys inner)
      ∧ ∀ name inner, name ∈ Resource.methodNames → first? node name = some inner
        → ∃ m, (name, m) ∈ found ∧ m.unexpected = unknownKeysOf methodKeys inner := by
  obtain ⟨read, each, same⟩ := bind_eq_ok_iff.mp h
  cases same
  have each := forall₂_of_mapM each
  constructor
  · intro name m member
    obtain ⟨_, inside, rfl⟩ := List.mem_filterMap.mp member
    obtain ⟨_, known, one⟩ := exists_left_of_forall₂ each inside
    obtain ⟨found, there, same⟩ := bind_eq_ok_iff.mp one
    have stands := rel_of_optional ofNode there
    cases found with
    | none => cases same
    | some m =>
        cases same
        generalize first? node name = inner? at stands ⊢
        cases stands with
        | some decoded => exact ⟨known, _, rfl, unexpected_of_method decoded⟩
  · intro name inner known has
    obtain ⟨_, inside, one⟩ := exists_right_of_forall₂ each known
    obtain ⟨found, there, same⟩ := bind_eq_ok_iff.mp one
    have stands := rel_of_optional ofNode there
    rw [has] at stands
    cases stands with
    | @some _ m decoded =>
        cases same
        exact ⟨m, List.mem_filterMap.mpr ⟨_, inside, rfl⟩, unexpected_of_method decoded⟩

/-- The methods of resources are those that the mapping declares: by induction on the size of nodes,
from the resources below to those above. -/
theorem mem_unexpected_of_resources (ofNode : fields node path = .ok f) {found : Resources}
    (h : resources f = .ok found) {keys : List String}
    : keys ∈ (resourceMethods found).map Method.unexpected
      ↔ ∃ m, DeclaresMethod Kept node m ∧ keys = unknownKeysOf methodKeys m := by
  induction size : sizeOf node using Nat.strongRecOn generalizing node path found with
  | ind n ih =>
      obtain ⟨back, forth⟩ := collect_parts ofNode h
      simp only [resourceMethods_eq, List.mem_map, List.mem_flatMap]
      constructor
      · rintro ⟨m, ⟨⟨key, r⟩, member, inside⟩, rfl⟩
        obtain ⟨isKey, inner, last, decoded⟩ := back key r member
        obtain ⟨f', ofInner, own, -, below⟩ := resource_parts _ _ r decoded
        rw [r.allMethods_eq, List.mem_append] at inside
        rcases inside with named | deeper
        · obtain ⟨⟨name, _⟩, member, rfl⟩ := List.mem_map.mp named
          obtain ⟨known, m, has, same⟩ := (methods_parts ofInner own).1 _ _ member
          exact ⟨m, .own isKey last known has, same⟩
        · have smaller := sizeOf_lt_of_mem_entriesOf (mem_entriesOf_of_last? last)
          obtain ⟨m, inside, same⟩ := (ih _ (size ▸ smaller) ofInner below rfl).mp
            (List.mem_map_of_mem deeper)
          exact ⟨m, .nested isKey last inside, same⟩
      · rintro ⟨m, declares, rfl⟩
        cases declares with
        | @own _ inner _ key name isKey last known has =>
            obtain ⟨r, member, decoded⟩ := forth key inner isKey last
            obtain ⟨f', ofInner, own, -⟩ := resource_parts _ _ r decoded
            obtain ⟨m, inside, same⟩ := (methods_parts ofInner own).2 name _ known has
            refine ⟨m, ⟨_, member, ?_⟩, same⟩
            rw [r.allMethods_eq]
            exact List.mem_append_left _ (List.mem_map_of_mem inside)
        | @nested _ inner _ key isKey last inside =>
            obtain ⟨r, member, decoded⟩ := forth key inner isKey last
            obtain ⟨f', ofInner, -, -, below⟩ := resource_parts _ _ r decoded
            have smaller := sizeOf_lt_of_mem_entriesOf (mem_entriesOf_of_last? last)
            obtain ⟨m, deeper, same⟩ := List.mem_map.mp
              ((ih _ (size ▸ smaller) ofInner below rfl).mpr ⟨_, inside, rfl⟩)
            refine ⟨m, ⟨_, member, ?_⟩, same⟩
            rw [r.allMethods_eq]
            exact List.mem_append_right _ deeper

-----------------------------------------------------------------------------------------
-- Libraries
-----------------------------------------------------------------------------------------

/-- The node spells what is in a library, wherever this was read from. -/
def Means (node : Node) (l : Library) : Prop :=
  ∃ path f m, fields node path = .ok f ∧ libraryFields node f = .ok m ∧ l.traits = m.traits
    ∧ l.uses = m.uses

/-- Of the mapping in a field, the last entry of each key is read. -/
theorem entries_parts (ofNode : fields node path = .ok f) {key : String}
    {r : Node → String → Except Error α} {found : List (String × α)}
    (h : declarations f key r = .ok found)
    : (∀ name a, (name, a) ∈ found → ∃ inner v path, first? node key = some inner
        ∧ last? inner name = some v ∧ r v path = .ok a)
      ∧ ∀ inner name v, first? node key = some inner → last? inner name = some v
        → ∃ a path, (name, a) ∈ found ∧ r v path = .ok a := by
  obtain ⟨read, there, rfl⟩ := map_eq_ok_iff.mp h
  have stands := rel_of_optional ofNode there
  revert stands
  cases first? node key with
  | none =>
      intro stands
      cases stands
      exact ⟨nofun, nofun⟩
  | some inner =>
      intro stands
      cases stands with
      | some each =>
          obtain ⟨f', ofInner, collected⟩ := bind_eq_ok_iff.mp each
          obtain ⟨back, forth⟩ := collect_parts ofInner collected
          constructor
          · intro name a member
            obtain ⟨-, v, last, result⟩ := back name a member
            exact ⟨inner, v, _, rfl, last, result⟩
          · rintro _ name v ⟨⟩ last
            obtain ⟨a, member, result⟩ := forth name v rfl last
            exact ⟨a, _, member, result⟩

/-- What is used is spelled in place, or it is a path. -/
theorem use_parts (node : Node) (path : String)
    : Yields (use node path) fun use =>
        (namedPath? node = none ∧ ∃ l, use = .loaded l ∧ Means node l ∧ l.location = none)
          ∨ ∃ file, namedPath? node = some file ∧ use = .external file := by
  unfold use
  split
  · exact Yields.ok (.inr ⟨_, rfl, rfl⟩)
  · exact Yields.ok (.inr ⟨_, rfl, rfl⟩)
  · exact Yields.ok (.inr ⟨_, rfl, rfl⟩)
  · refine Yields.keep fun f ofNode => Yields.keep fun l read => Yields.ok (.inl ⟨rfl, l, rfl, ?_⟩)
    obtain ⟨-, -, -, -, location⟩ := libraryFields_parts f l read
    exact ⟨⟨path, f, l, ofNode, read, rfl, rfl⟩, location⟩
  · refine Yields.keep fun included found => ?_
    split
    · exact Yields.ok (.inr ⟨_, namedPath?_of_included found, rfl⟩)
    · exact Yields.error _
  · exact Yields.error _

/-- Libraries in use are read like declarations. -/
theorem uses_eq (f : Fields node) : f.orElse "uses" uses [] = declarations f "uses" use := by
  have same : uses = fun node path => each node path fun _ inner path => use inner.1 path := by
    funext node path
    rw [uses]
  rw [declarations, same]

/-- Libraries in use are read from the last entries of their names. -/
theorem Means.uses {l : Library} (means : Means node l)
    : (∀ name u, (name, u) ∈ l.uses → ∃ inner named path, first? node "uses" = some inner
        ∧ last? inner name = some named ∧ use named path = .ok u)
      ∧ ∀ inner name named, first? node "uses" = some inner → last? inner name = some named
        → ∃ u path, (name, u) ∈ l.uses ∧ use named path = .ok u := by
  obtain ⟨path, f, m, ofNode, read, -, uses⟩ := means
  obtain ⟨-, -, -, ofUses⟩ := declared read
  rw [uses_eq, ← uses] at ofUses
  exact entries_parts ofNode ofUses

/-- Traits are read from the last entries of their names. -/
theorem Means.traits {l : Library} (means : Means node l)
    : (∀ name t, (name, t) ∈ l.traits → ∃ inner named path, first? node "traits" = some inner
        ∧ last? inner name = some named ∧ traitDeclaration named path = .ok t)
      ∧ ∀ inner name named, first? node "traits" = some inner → last? inner name = some named
        → ∃ t path, (name, t) ∈ l.traits ∧ traitDeclaration named path = .ok t := by
  obtain ⟨path, f, m, ofNode, read, traits, -⟩ := means
  obtain ⟨-, ofTraits, -, -⟩ := declared read
  rw [← traits] at ofTraits
  exact entries_parts ofNode ofTraits

variable {settings : Settings} {source : Source} {directory there : Path}

/-- A library in a file is spelled by the text of that file. -/
theorem read_parts {path : Path} {l : Library} (h : Library.read settings source path = .ok l)
    : ∃ bytes text, source.readFile path = .ok bytes ∧ settings.readNode bytes = .ok text
        ∧ Means text l ∧ l.location = path.parent? := by
  obtain ⟨bytes, contents, h⟩ := bind_eq_ok_iff.mp h
  obtain ⟨text, spelled, h⟩ := bind_eq_ok_iff.mp h
  obtain ⟨m, decoded, same⟩ := bind_eq_ok_iff.mp h
  cases same
  obtain ⟨f, ofText, read⟩ := bind_eq_ok_iff.mp decoded
  exact ⟨bytes, text, contents, spelled, ⟨"", f, m, ofText, read, rfl, rfl⟩, rfl⟩

/-- The libraries that a library leads to are those that its text brings in. -/
theorem exists_bringsIn {l m : Library} {namespaces : List String} (means : Means node l)
    (leads : l.LeadsTo settings source directory namespaces there m)
    : ∃ library, BringsIn Kept settings source directory node there library ∧ Means library m := by
  induction leads generalizing node with
  | self directory l => exact ⟨node, .self directory node, means⟩
  | @used directory there l used m name u namespaces member holds _ ih =>
      obtain ⟨inner, named, path, has, names, decoded⟩ := means.uses.1 name u member
      rcases use_parts named path u decoded with ⟨here, l, rfl, means, location⟩ | ⟨file, path, rfl⟩
      · cases holds
        rw [location] at ih
        obtain ⟨library, inside, means⟩ := ih means
        exact ⟨library, .written has names here inside, means⟩
      · cases holds with
        | external found =>
            obtain ⟨bytes, text, contents, spelled, means, location⟩ := read_parts found
            rw [location] at ih
            obtain ⟨library, inside, means⟩ := ih means
            exact ⟨library, .file has names path contents spelled inside, means⟩

/-- Where libraries are loaded, what a text brings in is what its library leads to. -/
theorem exists_leadsTo {library : Node} {l l' : Library} (means : Means node l)
    (loads : l.Loads settings source directory l')
    (brings : BringsIn Kept settings source directory node there library)
    : ∃ namespaces m, l.LeadsTo settings source directory namespaces there m
        ∧ Means library m := by
  induction brings generalizing l l' with
  | self directory node => exact ⟨[], l, .self directory l, means⟩
  | @written directory there node inner named library name has names here _ ih =>
      obtain ⟨u, path, member, decoded⟩ := means.uses.2 inner name named has names
      rcases use_parts named path u decoded with ⟨-, m, rfl, means, location⟩ | ⟨file, path, -⟩
      · obtain ⟨_, -, _, m', ⟨⟩, loads, -⟩ := loads.parts.uses.forward member
        rw [location] at loads
        obtain ⟨namespaces, n, leads, means⟩ := ih means loads
        exact ⟨name :: namespaces, n, .used member (.loaded m) (location ▸ leads), means⟩
      · cases here.symm.trans path
  | @file directory there node inner named text library name file bytes has names path contents
        spelled _ ih =>
      obtain ⟨u, path', member, decoded⟩ := means.uses.2 inner name named has names
      rcases use_parts named path' u decoded with ⟨here, -⟩ | ⟨_, same, rfl⟩
      · cases here.symm.trans path
      · cases path.symm.trans same
        obtain ⟨_, -, m, m', holds, loads, -⟩ := loads.parts.uses.forward member
        cases holds with
        | external found =>
            obtain ⟨_, _, again, same, means, location⟩ := read_parts found
            cases contents.symm.trans again
            cases spelled.symm.trans same
            rw [location] at loads
            obtain ⟨namespaces, n, leads, means⟩ := ih means loads
            exact ⟨name :: namespaces, n, .used member (.external found) (location ▸ leads), means⟩

-----------------------------------------------------------------------------------------
-- Traits
-----------------------------------------------------------------------------------------

/-- A trait that is loaded has the keys that are left over in its declaration, be it in a file. -/
theorem exists_declaration {named : Node} {path : String} {t t' : Trait}
    (decoded : traitDeclaration named path = .ok t)
    (loaded : t.load settings source directory = .ok t')
    : (namedPath? named = none
        ∧ t'.method.unexpected = unknownKeysOf (traitKeys ++ methodKeys) named)
      ∨ ∃ file bytes declaration, namedPath? named = some file
          ∧ source.readFile (directory.join ⟨file⟩) = .ok bytes
          ∧ settings.readNode bytes = .ok declaration
          ∧ t'.method.unexpected = unknownKeysOf (traitKeys ++ methodKeys) declaration := by
  have names := source_of_traitDeclaration named path t decoded
  unfold Trait.load at loaded
  split at loaded
  · rename_i own
    cases loaded
    exact .inl ⟨names.symm.trans own, unexpected_of_traitDeclaration named path t decoded⟩
  · rename_i file own
    obtain ⟨bytes, contents, loaded⟩ := bind_eq_ok_iff.mp loaded
    obtain ⟨declaration, spelled, loaded⟩ := bind_eq_ok_iff.mp loaded
    obtain ⟨t, decoded, same⟩ := bind_eq_ok_iff.mp loaded
    cases same
    exact .inr ⟨file, bytes, declaration, names.symm.trans own, contents, spelled,
      unexpected_of_traitDeclaration declaration file t decoded⟩

/-- The traits of a library, once they are loaded, have the keys that are left over in what its text
declares. -/
theorem mem_unexpected_of_traits {m m' : Library} (means : Means node m)
    (loads : m.Loads settings source directory m') {keys : List String}
    : (∃ key t', (key, t') ∈ m'.traits ∧ t'.method.unexpected = keys)
      ↔ ∃ declaration, DeclaresTrait Kept settings source directory node declaration
          ∧ keys = unknownKeysOf (traitKeys ++ methodKeys) declaration := by
  constructor
  · rintro ⟨key, t', member, rfl⟩
    obtain ⟨t, member, loaded⟩ := loads.parts.traits.backward member
    obtain ⟨inner, named, path, has, names, decoded⟩ := means.traits.1 key t member
    rcases exists_declaration decoded loaded with
      ⟨here, same⟩ | ⟨file, bytes, declaration, path, contents, spelled, same⟩
    · exact ⟨named, .written has names here, same⟩
    · exact ⟨declaration, .file has names path contents spelled, same⟩
  · rintro ⟨declaration, declares, rfl⟩
    cases declares with
    | @written inner _ name has names here =>
        obtain ⟨t, path, member, decoded⟩ := means.traits.2 inner name declaration has names
        obtain ⟨t', member', loaded⟩ := loads.parts.traits.forward member
        rcases exists_declaration decoded loaded with ⟨-, same⟩ | ⟨file, _, _, path, -⟩
        · exact ⟨name, t', member', same⟩
        · cases here.symm.trans path
    | @file inner named _ name file bytes has names path contents spelled =>
        obtain ⟨t, path', member, decoded⟩ := means.traits.2 inner name named has names
        obtain ⟨t', member', loaded⟩ := loads.parts.traits.forward member
        rcases exists_declaration decoded loaded with ⟨here, -⟩ | ⟨_, _, _, same, again, also, keys⟩
        · cases here.symm.trans path
        · cases path.symm.trans same
          cases contents.symm.trans again
          cases spelled.symm.trans also
          exact ⟨name, t', member', keys⟩

end Decode

-----------------------------------------------------------------------------------------
-- Documents
-----------------------------------------------------------------------------------------

namespace Parser

open Decode

variable {p : Parser} {root : Node} {directory : Path} {d₀ d n f s d' : Document}

/-- Once a document is loaded, the keys without a place in it are those that are left over in the
texts that it was written in. -/
theorem unexpected_iff (decoded : Decode.document root = .ok d₀)
    (loads : p.Loads { d₀ with directory } d) {label : String} {keys : List String}
    : d.Unexpected label keys
      ↔ ∃ known mapping, Presents Kept p.settings p.source directory root label known mapping
          ∧ keys = unknownKeysOf known mapping := by
  obtain ⟨l', loaded, rfl⟩ := loads
  have loads := Library.loads_of_load loaded
  obtain ⟨f, ofRoot, -, read, below⟩ := Decode.document_parts root d₀ decoded
  have means : Means root d₀.library := ⟨"", f, _, ofRoot, read, rfl, rfl⟩
  have methods : keys ∈ (resourceMethods d₀.resources).map Method.unexpected
      ↔ ∃ m, DeclaresMethod Kept root m ∧ keys = unknownKeysOf methodKeys m :=
    mem_unexpected_of_resources ofRoot below
  constructor
  · intro unexpected
    cases unexpected with
    | method has =>
        obtain ⟨m, declares, same⟩ := methods.mp (List.mem_map_of_mem has)
        exact ⟨_, m, .method declares, same⟩
    | trait reaches has =>
        obtain ⟨there, m, leads, inside⟩ := loads.backward reaches
        obtain ⟨library, brings, means⟩ := exists_bringsIn means leads
        obtain ⟨declaration, declares, same⟩ :=
          (mem_unexpected_of_traits means inside).mp ⟨_, _, has, rfl⟩
        exact ⟨_, declaration, .trait brings declares, same⟩
  · rintro ⟨known, mapping, presents, rfl⟩
    cases presents with
    | method declares => exact Document.unexpected_of_mem (methods.mpr ⟨mapping, declares, rfl⟩)
    | trait brings declares =>
        obtain ⟨namespaces, m, leads, means⟩ := exists_leadsTo means loads brings
        obtain ⟨m', reaches, inside⟩ := loads.forward leads
        obtain ⟨key, t', member, same⟩ :=
          (mem_unexpected_of_traits means inside).mpr ⟨mapping, declares, rfl⟩
        exact same ▸ .trait reaches.reaches member

/-- What parsing makes of a text is what it makes of the document in it. -/
theorem document_eq {bytes : Bytes} (spelled : p.settings.readNode bytes = .ok root)
    (decoded : Decode.document root = .ok d₀)
    : p.document bytes directory
      = p.resolve .api (some d₀.mediaType) { d₀ with directory } := by
  rw [Parser.document, spelled, ok_bind, decoded, ok_bind]

/-- In what is parsed, the methods of resources and the declarations of traits have no keys but
those that are known, once each, and annotations, wherever they are written: in the document, in the
libraries that it leads to and in the files of traits. What has another key is not parsed. If it
comes to the review, parsing fails for the first key that is left over in one of these mappings. -/
theorem no_unknown_keys (p : Parser) (bytes : Bytes) (directory : Path) (root : Node)
    (spelled : p.settings.readNode bytes = .ok root)
    : (∀ d, p.document bytes directory = .ok d → ∀ label known mapping,
        Presents Kept p.settings p.source directory root label known mapping
          → ∀ key ∈ (entriesOf mapping).keys, Annotation.isKey key = true
              ∨ key ∈ known ∧ (entriesOf mapping).keys.count key = 1)
      ∧ (∀ label known mapping,
        Presents Kept p.settings p.source directory root label known mapping
          → unknownKeysOf known mapping ≠ [] → ∃ e, p.document bytes directory = .error e)
      ∧ ∀ d₀ d n f s d', Decode.document root = .ok d₀ → p.Loads { d₀ with directory } d
        → p.Phases .api (some d₀.mediaType) d n f s d'
        → ((∃ key label, p.document bytes directory = .error (.typo key label))
            ↔ ∃ label known mapping,
                Presents Kept p.settings p.source directory root label known mapping
                  ∧ unknownKeysOf known mapping ≠ [])
          ∧ ∀ key label, p.document bytes directory = .error (.typo key label)
            → ∃ known mapping keys,
                Presents Kept p.settings p.source directory root label known mapping
                  ∧ unknownKeysOf known mapping = key :: keys := by
  have none (d : Document) (parsed : p.document bytes directory = .ok d) (label : String)
      (known : List String) (mapping : Node)
      (presents : Presents Kept p.settings p.source directory root label known mapping)
      : unknownKeysOf known mapping = [] := by
    obtain ⟨_, again, parsed⟩ := bind_eq_ok_iff.mp parsed
    cases spelled.symm.trans again
    obtain ⟨d₀, decoded, resolved⟩ := bind_eq_ok_iff.mp parsed
    obtain ⟨loaded, loads⟩ := exists_loads resolved
    exact not_unexpected_of_resolve (.document decoded directory) loads resolved
      ((unexpected_iff decoded loads).mpr ⟨known, mapping, presents, rfl⟩)
  refine ⟨fun d parsed label known mapping presents => ?_, ?_, ?_⟩
  · exact (unknownKeysOf_eq_nil_iff presents.nodup).mp (none d parsed label known mapping presents)
  · intro label known mapping presents some
    cases parsed : p.document bytes directory with
    | ok d => exact absurd (none d parsed label known mapping presents) some
    | error e => exact ⟨e, rfl⟩
  · intro d₀ d n f s d' decoded loads phases
    have refused := phases.typo_iff (.document decoded directory) loads
    rw [document_eq spelled decoded]
    simp only [unexpected_iff decoded loads] at refused
    refine ⟨refused.1.trans ⟨?_, ?_⟩, fun key label failed => ?_⟩
    · rintro ⟨label, key, keys, known, mapping, presents, same⟩
      exact ⟨label, known, mapping, presents, same ▸ List.cons_ne_nil key keys⟩
    · rintro ⟨label, known, mapping, presents, some⟩
      obtain ⟨key, keys, same⟩ := List.exists_cons_of_ne_nil some
      exact ⟨label, key, keys, known, mapping, presents, same.symm⟩
    · obtain ⟨keys, known, mapping, presents, same⟩ := refused.2 key label failed
      exact ⟨known, mapping, keys, presents, same.symm⟩

/-- A document in which the field of a method is misspelt. -/
def misspelt : Bytes :=
  Bytes.ofText "title: Shelf\n/books:\n  get:\n    responces:\n"

/-- The misspelt key is what parsing fails for. -/
theorem no_unknown_keys_misspelt
    : ∃ root m, ({} : Parser).settings.readNode misspelt = .ok root
        ∧ Presents Kept {} .empty ⟨""⟩ root "method" methodKeys m
        ∧ unknownKeysOf methodKeys m = ["responces"]
        ∧ ∃ key label, ({} : Parser).document misspelt ⟨""⟩ = .error (.typo key label) := by
  have found : ((({} : Parser).settings.readNode misspelt).toOption.any fun root =>
      ((last? root "/books").any fun books => (first? books "get").any fun m =>
          unknownKeysOf methodKeys m = ["responces"])
        && (({} : Parser).normal? root).any fun start =>
          start.1.directory = ⟨""⟩ && (({} : Parser).rest? start.2.2).isSome) = true := by
    rw [misspelt, Bytes.ofText_ofList]
    decide +kernel
  obtain ⟨root, spelled, found⟩ := (Option.any_eq_true _ _).mp found
  obtain ⟨found, phases⟩ := Bool.and_eq_true_iff.mp found
  obtain ⟨books, below, found⟩ := (Option.any_eq_true _ _).mp found
  obtain ⟨m, has, left⟩ := (Option.any_eq_true _ _).mp found
  have left := of_decide_eq_true left
  have spelled := ok_of_toOption spelled
  have presents : Presents Kept {} .empty ⟨""⟩ root "method" methodKeys m :=
    .method (.own (by decide +kernel) below (by decide) has)
  obtain ⟨⟨d₀, d, n⟩, normal, phases⟩ := (Option.any_eq_true _ _).mp phases
  obtain ⟨own, phases⟩ := Bool.and_eq_true_iff.mp phases
  obtain ⟨⟨f, s, d'⟩, rest⟩ := Option.isSome_iff_exists.mp phases
  have same : { d₀ with directory := ⟨""⟩ } = d₀ := by rw [← of_decide_eq_true own]
  have decoded := decoded_of_normal? normal
  obtain ⟨-, loads, normal⟩ := normal_of_normal? normal
  have reached := (no_unknown_keys {} misspelt ⟨""⟩ root spelled).2.2 d₀ d n f s d' decoded
    (same.symm ▸ loads) (phases_of_rest? normal rest)
  exact ⟨root, m, spelled, presents, left,
    reached.1.mpr ⟨_, _, m, presents, left ▸ List.cons_ne_nil _ _⟩⟩

/-- A document in which a trait is declared under the number and under the string `1`. -/
def declaredTwice : Bytes :=
  Bytes.ofText "title: Shelf\ntraits:\n  1:\n    nothing:\n  \"1\":\n/books:\n  is: \"1\"\n"

/-- The first of two mappings under one key may have any keys. -/
theorem not_no_unknown_keys
    : ¬∀ (p : Parser) (bytes : Bytes) (directory : Path) (root : Node) (d : Document),
        p.settings.readNode bytes = .ok root → p.document bytes directory = .ok d
        → ∀ label known mapping,
          Presents Stated p.settings p.source directory root label known mapping
          → unknownKeysOf known mapping = [] := by
  intro none
  have found : ((({} : Parser).settings.readNode declaredTwice).toOption.any fun root =>
      (first? root "traits").any fun traits => (first? traits "1").any fun declaration =>
        unknownKeysOf (traitKeys ++ methodKeys) declaration = ["nothing"]
          ∧ namedPath? declaration = Option.none) = true := by
    rw [declaredTwice, Bytes.ofText_ofList]
    decide +kernel
  have parsed : (({} : Parser).document declaredTwice ⟨"."⟩).toOption.isSome = true := by
    rw [declaredTwice, Bytes.ofText_ofList]
    decide +kernel
  obtain ⟨root, spelled, found⟩ := (Option.any_eq_true _ _).mp found
  obtain ⟨traits, has, found⟩ := (Option.any_eq_true _ _).mp found
  obtain ⟨declaration, names, found⟩ := (Option.any_eq_true _ _).mp found
  obtain ⟨left, here⟩ := of_decide_eq_true found
  obtain ⟨d, parsed⟩ := Option.isSome_iff_exists.mp parsed
  have presents
      : Presents Stated {} .empty ⟨"."⟩ root "trait" (traitKeys ++ methodKeys) declaration :=
    .trait (.self _ root) (.written has (Keyed.mem_of_get? names) here)
  have nothing := none {} declaredTwice ⟨"."⟩ root d (ok_of_toOption spelled)
    (ok_of_toOption parsed) _ _ declaration presents
  cases left.symm.trans nothing

end Parser

end Raml
