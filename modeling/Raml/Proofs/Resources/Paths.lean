import Raml.Proofs.Decoding

/-! Paths of resources: the keys that lead to a resource, one after the other.

Keys may have several slashes in them, and one may be the beginning of another. A path can then be
taken apart in more than one way, and looking it up has to find the way that the keys have it.
-/

namespace Raml

-----------------------------------------------------------------------------------------
-- Keys that lead to resources
-----------------------------------------------------------------------------------------

namespace Resources

/-- The keys lead, from one resource to the next, from the outermost resources to one of those below
them. -/
inductive Leads : Resources → List String → Resource → Prop where
  | here {resources : Resources} {key : String} {r : Resource} (h : (key, r) ∈ resources)
      : Leads resources [key] r
  | under {resources : Resources} {key : String} {r s : Resource} {keys : List String}
      (h : (key, r) ∈ resources) (rest : Leads r.resources keys s)
      : Leads resources (key :: keys) s

/-- The keys of resources, and of those below them, begin with a slash. -/
def Slashed (resources : Resources) : Prop :=
  ∀ keys r, Leads resources keys r → ∀ key ∈ keys, Decode.isResourceKey key = true

variable {resources : Resources} {keys : List String} {key : String} {r s : Resource}

/-- Keys below begin with a slash as well. -/
theorem Slashed.inside (slashed : Slashed resources) (member : (key, r) ∈ resources)
    : Slashed r.resources :=
  fun _ _ leads key inside => slashed _ _ (.under member leads) key (.tail _ inside)

theorem Slashed.tail (slashed : Slashed ((key, r) :: resources)) : Slashed resources := by
  intro keys s leads
  cases leads with
  | here member => exact slashed _ _ (.here (.tail _ member))
  | under member rest => exact slashed _ _ (.under (.tail _ member) rest)

/-- It is enough to look at the outermost keys and inside each resource. -/
theorem Slashed.of_each (head : ∀ entry ∈ resources, Decode.isResourceKey entry.1 = true)
    (inside : ∀ entry ∈ resources, Slashed entry.2.resources)
    : Slashed resources := by
  intro keys r leads
  cases leads with
  | here member => exact List.forall_mem_singleton.mpr (head _ member)
  | under member rest =>
      exact List.forall_mem_cons.mpr ⟨head _ member, inside _ member _ _ rest⟩

end Resources

-----------------------------------------------------------------------------------------
-- The order of declaration
-----------------------------------------------------------------------------------------

mutual

/-- The resource under a key and those below it, each with the keys that lead to it. What stands
below a resource comes behind it, and before the next one. -/
def Resource.chains (key : String) : Resource → List (List String × Resource)
  | r@⟨_, _, _, _, _, _, _, _, resources⟩ =>
      ([key], r) :: (resourceChains resources).map fun (keys, s) => (key :: keys, s)

def resourceChains : List (String × Resource) → List (List String × Resource)
  | [] => []
  | (key, r) :: resources => r.chains key ++ resourceChains resources

end

theorem Resource.chains_eq (key : String) (r : Resource)
    : r.chains key
      = ([key], r) :: (resourceChains r.resources).map fun (keys, s) => (key :: keys, s) := by
  cases r
  rw [Resource.chains]

mutual

/-- A chain starts with the key of the resource, and goes on below it. -/
theorem Resource.mem_chains_iff {key : String} {keys : List String} {s : Resource}
    : ∀ {r : Resource}, (keys, s) ∈ r.chains key
        ↔ keys = [key] ∧ s = r ∨ ∃ rest, keys = key :: rest ∧ Resources.Leads r.resources rest s
  | ⟨_, _, _, _, _, _, _, _, resources⟩ => by
      simp only [Resource.chains, List.mem_cons, List.mem_map, Prod.mk.injEq, Prod.exists]
      refine or_congr Iff.rfl ⟨?_, ?_⟩
      · rintro ⟨rest, _, inside, rfl, rfl⟩
        exact ⟨rest, rfl, mem_resourceChains_iff.mp inside⟩
      · rintro ⟨rest, rfl, leads⟩
        exact ⟨rest, s, mem_resourceChains_iff.mpr leads, rfl, rfl⟩

/-- The list has each resource that keys lead to, with these keys. -/
theorem mem_resourceChains_iff {keys : List String} {s : Resource}
    : ∀ {resources : List (String × Resource)}, (keys, s) ∈ resourceChains resources
        ↔ Resources.Leads resources keys s
  | [] => by
      refine ⟨nofun, ?_⟩
      rintro (⟨⟨⟩⟩ | ⟨⟨⟩, _⟩)
  | (key, r) :: resources => by
      have others : (keys, s) ∈ resourceChains resources ↔ Resources.Leads resources keys s :=
        mem_resourceChains_iff
      rw [resourceChains, List.mem_append, Resource.mem_chains_iff, others]
      constructor
      · rintro ((⟨rfl, rfl⟩ | ⟨rest, rfl, leads⟩) | later)
        · exact .here (.head _)
        · exact .under (.head _) leads
        · cases later with
          | here member => exact .here (.tail _ member)
          | under member leads => exact .under (.tail _ member) leads
      · rintro (member | ⟨member, leads⟩)
        · rcases List.mem_cons.mp member with same | later
          · cases same
            exact Or.inl (Or.inl ⟨rfl, rfl⟩)
          · exact Or.inr (.here later)
        · rcases List.mem_cons.mp member with same | later
          · cases same
            exact Or.inl (Or.inr ⟨_, rfl, leads⟩)
          · exact Or.inr (.under later leads)

end

-----------------------------------------------------------------------------------------
-- Look-up
-----------------------------------------------------------------------------------------

/-- The resource behind the first chain of keys that make up a path. -/
def firstAlong (path : List Char) (chains : List (List String × Resource)) : Option Resource :=
  (chains.find? fun chain => (String.join chain.1).toList = path).map (·.2)

section FirstAlong

variable {path rest : List Char} {key : String} {chains : List (List String × Resource)}

/-- Chains in front come first. -/
theorem firstAlong_append (path : List Char) (chains more : List (List String × Resource))
    : firstAlong path (chains ++ more) = (firstAlong path chains).or (firstAlong path more) := by
  rw [firstAlong, List.find?_append, Option.map_or, firstAlong, firstAlong]

/-- No chain makes up the path. -/
theorem firstAlong_eq_none (h : ∀ chain ∈ chains, (String.join chain.1).toList ≠ path)
    : firstAlong path chains = none := by
  rw [firstAlong, List.find?_eq_none.mpr, Option.map_none]
  exact fun chain member => by simpa using h chain member

/-- Behind a key that all chains begin with, they have to make up the rest of the path. -/
theorem firstAlong_map_cons (split : key.toList ++ rest = path)
    : firstAlong path (chains.map fun (keys, s) => (key :: keys, s)) = firstAlong rest chains := by
  subst split
  simp [firstAlong, List.find?_map, Function.comp_def]

end FirstAlong

namespace Resource

variable {key : String}

/-- The key of a resource begins with a slash. -/
theorem toList_of_isResourceKey (h : Decode.isResourceKey key = true)
    : ∃ chars, key.toList = '/' :: chars := by
  obtain ⟨chars, split⟩ := String.startsWith_string_iff.mp h
  exact ⟨chars, split.symm⟩

/-- Keys make up a text that begins with a slash. -/
theorem head?_join {resources : Resources} {keys : List String} {s : Resource}
    (slashed : Resources.Slashed resources) (leads : Resources.Leads resources keys s)
    : (String.join keys).toList.head? = some '/' := by
  have each := slashed keys s leads
  cases leads with
  | here | under =>
      obtain ⟨chars, first⟩ := toList_of_isResourceKey (each _ (.head _))
      simp [first]

/-- A key that is the beginning of the path leads on if a slash follows. -/
theorem findAt_eq_ite (key : String) (path : List Char) (r : Resource)
    : r.findAt key path
      = if key.toList = path then some r
        else if key.toList.isPrefixOf path then
          if (path.drop key.toList.length).head? = some '/'
          then find (path.drop key.toList.length) r.resources
          else none
        else none := by
  cases r
  rw [findAt]

/-- Where keys begin with a slash, no find is lost for a path being followed only to where a slash
comes next. -/
theorem findAt_of_find {path : List Char} {r : Resource} (slashed : Resources.Slashed r.resources)
    (below : ∀ rest, find rest r.resources = firstAlong rest (resourceChains r.resources))
    : r.findAt key path = firstAlong path (r.chains key) := by
  rw [findAt_eq_ite, chains_eq]
  by_cases whole : key.toList = path
  · simp [whole, firstAlong]
  · have other : firstAlong path [([key], r)] = none := by simp [firstAlong, whole]
    rw [if_neg whole, ← List.singleton_append, firstAlong_append, other, Option.none_or]
    by_cases front : key.toList <+: path
    · obtain ⟨rest, rfl⟩ := front
      rw [firstAlong_map_cons rfl, List.drop_left, below,
        if_pos (List.isPrefixOf_iff_prefix.mpr (List.prefix_append _ _))]
      split
      · rfl
      · next noSlash =>
          refine (firstAlong_eq_none fun chain member same => noSlash ?_).symm
          exact same ▸ head?_join slashed (mem_resourceChains_iff.mp member)
    · rw [if_neg (mt List.isPrefixOf_iff_prefix.mp front), firstAlong_eq_none]
      intro chain member same
      obtain ⟨⟨keys, s⟩, -, rfl⟩ := List.mem_map.mp member
      exact front ⟨(String.join keys).toList, by simpa using same⟩

mutual

/-- By induction on the resource: where the key does not fit, no chain behind it makes up the path.
-/
theorem findAt_eq (key : String) (path : List Char)
    : ∀ r : Resource, Resources.Slashed r.resources
        → r.findAt key path = firstAlong path (r.chains key)
  | ⟨_, _, _, _, _, _, _, _, resources⟩, slashed =>
      findAt_of_find slashed fun rest => find_eq rest resources slashed

/-- The first find is that at the end of the first chain of keys that make up the path. -/
theorem find_eq (path : List Char)
    : ∀ resources : List (String × Resource), Resources.Slashed resources
        → find path resources = firstAlong path (resourceChains resources)
  | [], _ => rfl
  | (key, r) :: resources, slashed => by
      have first := findAt_eq key path r (slashed.inside (.head _))
      have others := find_eq path resources slashed.tail
      rw [find, resourceChains, firstAlong_append, first, others]

end

end Resource

-----------------------------------------------------------------------------------------
-- Documents
-----------------------------------------------------------------------------------------

namespace Decode

open Yaml (Node)

variable {node : Node}

/-- Resources are collected under keys that begin with a slash. -/
theorem collect_slashed (f : Fields node)
    {read : String → Inside node → String → Except Error Resource}
    (each : ∀ key inner path, Yields (read key inner path) fun r => Resources.Slashed r.resources)
    : Yields (f.collect isResourceKey read) Resources.Slashed := by
  intro found collected
  have inside := (collect_yields f isResourceKey each found collected).2
  exact .of_each (collect_wanted f isResourceKey found collected)
    fun entry member => inside entry.1 entry.2 member

/-- By induction on the size of the node, with the resources below. -/
theorem resource_slashed (node : Node) (path : String)
    : Yields (resource node path) fun r => Resources.Slashed r.resources := by
  induction size : sizeOf node using Nat.strongRecOn generalizing node path with
  | ind n ih =>
      intro r decoded
      obtain ⟨f, -, -, -, below⟩ := resource_parts node path r decoded
      have inside := collect_slashed f fun _ inner path => ih _ (size ▸ inner.2) inner.1 path rfl
      exact inside r.resources below

/-- In whatever is decoded, the keys of resources begin with a slash. -/
theorem document_slashed (node : Node)
    : Yields (document node) fun d => Resources.Slashed d.resources := by
  intro d decoded
  obtain ⟨f, -, -, -, below⟩ := document_parts node d decoded
  exact collect_slashed f (fun _ inner path => resource_slashed inner.1 path) d.resources below

end Decode

namespace Document

/-- In a document that has been read, the keys of all resources begin with a slash. Where they do, a
full path leads to a resource exactly if it is made up of keys that lead there, one after the other.
Of several chains of keys that make up the path the first one counts, in the order of declaration,
what stands below a resource coming before the next one. -/
theorem findResource?_eq_first
    : (∀ node, Yields (Decode.document node) fun d => Resources.Slashed d.resources)
      ∧ ∀ d : Document, Resources.Slashed d.resources → ∀ path,
        ((d.findResource? path).isSome
          ↔ ∃ keys r, Resources.Leads d.resources keys r ∧ String.join keys = path)
        ∧ d.findResource? path
          = ((resourceChains d.resources).find? fun chain => String.join chain.1 = path).map
              (·.2) := by
  refine ⟨Decode.document_slashed, fun d slashed path => ?_⟩
  have found : d.findResource? path
      = ((resourceChains d.resources).find? fun chain => String.join chain.1 = path).map (·.2) := by
    simp only [findResource?, Resource.find_eq _ _ slashed, firstAlong, String.toList_inj]
  refine ⟨?_, found⟩
  rw [found, Option.isSome_map, List.find?_isSome]
  constructor
  · rintro ⟨⟨keys, r⟩, member, whole⟩
    exact ⟨keys, r, mem_resourceChains_iff.mp member, of_decide_eq_true whole⟩
  · rintro ⟨keys, r, leads, whole⟩
    exact ⟨(keys, r), mem_resourceChains_iff.mpr leads, decide_eq_true whole⟩

/-- One path, which the keys have twice, and which begins with the key of a resource that it does
not lead into. -/
def crossing : Document :=
  { resources := [
      ("/users", { Resource.empty with resources := [("/{id}", .empty)] }),
      ("/users/groups", { Resource.empty with
        resources := [("/all", { Resource.empty with displayName := "in two steps" })] }),
      ("/users/groups/all", { Resource.empty with displayName := "at once" })] }

/-- The first chain along the path takes two steps. -/
theorem crossing_findResource?_eq_first
    : Resources.Slashed crossing.resources
      ∧ (crossing.findResource? "/users/groups/all").map (·.displayName) = some "in two steps"
      ∧ crossing.findResource? "/users/{id}/all" = none := by
  have slashed : Resources.Slashed crossing.resources := by
    intro keys r leads
    have each : ∀ chain ∈ resourceChains crossing.resources,
        ∀ key ∈ chain.1, Decode.isResourceKey key = true := by
      decide +kernel
    exact each (keys, r) (mem_resourceChains_iff.mpr leads)
  have found := fun path => (findResource?_eq_first.2 crossing slashed path).2
  refine ⟨slashed, ?_, ?_⟩
  · rw [found]
    decide +kernel
  · rw [found, Option.map_eq_none_iff]
    decide +kernel

end Document

end Raml
