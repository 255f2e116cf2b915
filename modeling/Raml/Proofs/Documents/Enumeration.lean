import Raml.Proofs.Documents.Namespaces

/-! Libraries listed and looked up.

A list of the libraries below a library joins namespaces on the way down, and looking a name up takes
it apart from the left. Where namespaces have no points in them the two agree: each library stands in
the list once for every chain of namespaces that leads to it, and what it declares is found behind
these namespaces.
-/

namespace Raml

open Raml.TypeName (leadFrom)

namespace Library

-----------------------------------------------------------------------------------------
-- Namespaces without points
-----------------------------------------------------------------------------------------

variable {l m : Library} {path : List String} {name : String}

/-- In a library and wherever it leads, each namespace stands once and has no point in it. -/
structure Namespaced (l : Library) : Prop where
  once {path : List String} {m : Library} (h : l.Reaches path m) : (Keyed.keys m.uses).Nodup
  undotted {path : List String} {m : Library} (h : l.Reaches path m)
    : ∀ name ∈ Keyed.keys m.uses, '.' ∉ name.toList

/-- Libraries are well named from the inside out. -/
theorem Namespaced.of_uses (once : (Keyed.keys l.uses).Nodup)
    (undotted : ∀ name ∈ Keyed.keys l.uses, '.' ∉ name.toList)
    (inside : ∀ name used, (name, Use.loaded used) ∈ l.uses → used.Namespaced)
    : l.Namespaced where
  once
    | .self _ => once
    | .used member rest => (inside _ _ member).once rest
  undotted
    | .self _ => undotted
    | .used member rest => (inside _ _ member).undotted rest

/-- What a well named library uses is well named. -/
theorem Namespaced.inside {used : Library} (plain : l.Namespaced)
    (member : (name, Use.loaded used) ∈ l.uses)
    : used.Namespaced :=
  ⟨fun h => plain.once (.used member h), fun h => plain.undotted (.used member h)⟩

theorem Namespaced.key {used : Library} (plain : l.Namespaced)
    (member : (name, Use.loaded used) ∈ l.uses)
    : '.' ∉ name.toList :=
  plain.undotted (.self l) name (List.mem_map_of_mem member)

/-- Namespaces that lead somewhere have no points in them. -/
theorem Namespaced.chain (plain : l.Namespaced) (reaches : l.Reaches path m)
    : ∀ name ∈ path, '.' ∉ name.toList := by
  induction reaches with
  | self => exact nofun
  | used member _ ih => exact List.forall_mem_cons.mpr ⟨plain.key member, ih (plain.inside member)⟩

-----------------------------------------------------------------------------------------
-- Names that are looked up
-----------------------------------------------------------------------------------------

/-- Along such namespaces looking up leads where they lead: none is found twice. -/
theorem Namespaced.descend? (plain : l.Namespaced) (reaches : l.Reaches path m)
    : l.descend? path = some m := by
  induction reaches with
  | self => rfl
  | @used l used _ name _ member _ ih =>
      have found : l.namespace? name = some used := by
        rw [namespace?, Keyed.get?_of_mem (plain.once (.self l)) member]
      rw [Library.descend?, found]
      exact ih (plain.inside member)

/-- Two chains of namespaces are followed one after the other. -/
theorem descend?_append (l : Library) (path more : List String)
    : l.descend? (path ++ more) = (l.descend? path).bind (·.descend? more) := by
  induction path generalizing l with
  | nil => rfl
  | cons name path ih =>
      rw [List.cons_append, descend?, descend?, Option.bind_assoc]
      exact congrArg _ (funext fun used => ih used)

/-- A name without points, behind the namespaces of a library, denotes what that library calls by
the name. -/
theorem Namespaced.qualified? (plain : l.Namespaced) (reaches : l.Reaches path m)
    (undotted : '.' ∉ name.toList)
    : l.qualified? (leadFrom "" path ++ name) = some (m, name) := by
  have own : TypeName.parts name = [name] :=
    parts_of_unqualified (by simpa [Resolver.isQualified] using undotted)
  rw [Library.qualified?, TypeName.parts_leadFrom_append (plain.chain reaches), own]
  simp [plain.descend? reaches]

/-- Behind a namespace that is not loaded where it is looked up, names denote nothing. -/
theorem Namespaced.qualified?_eq_none (plain : l.Namespaced) (reaches : l.Reaches path m)
    (undotted : '.' ∉ name.toList) (unloaded : ∀ used, (name, Use.loaded used) ∉ m.uses)
    (rest : String)
    : l.qualified? (leadFrom "" (path ++ [name]) ++ rest) = none := by
  have chain : ∀ other ∈ path ++ [name], '.' ∉ other.toList :=
    List.forall_mem_append.mpr ⟨plain.chain reaches, by simpa using undotted⟩
  have missing : m.namespace? name = none :=
    Option.eq_none_iff_forall_ne_some.mpr fun used found =>
      unloaded used (mem_uses_of_namespace? found)
  have stuck : l.descend? (path ++ [name]) = none := by
    rw [descend?_append, plain.descend? reaches]
    simp [Library.descend?, missing]
  have some : TypeName.parts rest ≠ [] := by simp [TypeName.parts, List.splitOn_ne_nil]
  rw [Library.qualified?, TypeName.parts_leadFrom_append chain,
    List.dropLast_append_of_ne_nil some, descend?_append, stuck]
  rfl

-----------------------------------------------------------------------------------------
-- Libraries that are listed
-----------------------------------------------------------------------------------------

/-- Libraries are listed use by use. -/
theorem nestedUses_eq_flatMap (lead : String) (uses : Uses)
    : nestedUses lead uses
      = uses.flatMap fun (name, use) => nestedUse (lead ++ name ++ ".") use := by
  induction uses with
  | nil => rfl
  | cons entry uses ih => rw [nestedUses, ih, List.flatMap_cons]

/-- What is listed for one of the libraries that are used stands behind its namespace. -/
theorem mem_keys_nestedUse {lead full : String} {use : Use}
    (member : full ∈ Keyed.keys (nestedUse (lead ++ name ++ ".") use))
    : ∃ used path m, use = .loaded used ∧ used.Reaches path m
        ∧ full = leadFrom lead (name :: path) := by
  obtain ⟨⟨_, m⟩, listed, rfl⟩ := List.mem_map.mp member
  cases use with
  | external => cases listed
  | loaded used =>
      rcases List.mem_cons.mp listed with here | below
      · cases here
        exact ⟨m, [], m, rfl, .self m, rfl⟩
      · obtain ⟨next, path, reaches, rfl⟩ := mem_nestedFrom_iff.mp below
        exact ⟨used, next :: path, m, rfl, reaches, rfl⟩

/-- What is listed for one library differs from what is listed for another one. -/
theorem Namespaced.disjoint_nestedUse (plain : l.Namespaced) (lead : String) {other : String}
    {use use' : Use} (member : (name, use) ∈ l.uses) (member' : (other, use') ∈ l.uses)
    (apart : name ≠ other)
    : (Keyed.keys (nestedUse (lead ++ name ++ ".") use)).Disjoint
        (Keyed.keys (nestedUse (lead ++ other ++ ".") use')) := by
  intro full here there
  obtain ⟨used, path, m, rfl, reaches, rfl⟩ := mem_keys_nestedUse here
  obtain ⟨used', path', m', rfl, reaches', same⟩ := mem_keys_nestedUse there
  rw [TypeName.leadFrom_eq_append lead, TypeName.leadFrom_eq_append lead,
    String.append_right_inj] at same
  have chains := TypeName.leadFrom_inj (plain.chain (.used member reaches))
    (plain.chain (.used member' reaches')) same
  exact apart (List.cons.inj chains).1

/-- What is listed below a library stands behind more namespaces than the library itself. -/
theorem self_notMem_keys_nestedFrom (lead : String) (l : Library)
    : lead ∉ Keyed.keys (nestedFrom lead l) := by
  intro member
  obtain ⟨⟨_, m⟩, listed, same⟩ := List.mem_map.mp member
  obtain ⟨name, path, -, rfl⟩ := mem_nestedFrom_iff.mp listed
  have length := congrArg (fun text => text.toList.length) same
  simp [TypeName.toList_leadFrom] at length

/-- No chain of namespaces is listed twice. -/
theorem Namespaced.nodup_nestedFrom (plain : l.Namespaced) (lead : String)
    : (Keyed.keys (nestedFrom lead l)).Nodup := by
  induction l using induct generalizing lead with
  | step l ih =>
      rw [nestedFrom_eq, nestedUses_eq_flatMap, Keyed.keys, List.map_flatMap, List.nodup_flatMap]
      constructor
      · rintro ⟨name, _ | used⟩ member
        · exact List.nodup_nil
        · exact List.nodup_cons.mpr ⟨self_notMem_keys_nestedFrom _ used,
            ih name used member (plain.inside member) _⟩
      · refine (List.pairwise_map.mp (plain.once (.self l))).imp_of_mem ?_
        exact fun member member' apart => plain.disjoint_nestedUse lead member member' apart

-----------------------------------------------------------------------------------------
-- The list and the look-up
-----------------------------------------------------------------------------------------

/-- Where namespaces have no points in them, the list of nested libraries and the look-up of names
agree. Each library is listed once for every chain of namespaces that leads to it, behind that chain.
Behind a chain that is listed a name denotes what the library there calls so, and behind a namespace
that is unknown or not loaded it denotes nothing. -/
theorem nested_agrees (plain : l.Namespaced)
    : (∀ lead m, (lead, m) ∈ l.nested
        ↔ ∃ path, path ≠ [] ∧ l.Reaches path m ∧ lead = leadFrom "" path)
      ∧ (Keyed.keys l.nested).Nodup
      ∧ (∀ path path' m m', l.Reaches path m → l.Reaches path' m'
          → leadFrom "" path = leadFrom "" path' → path = path' ∧ m = m')
      ∧ (∀ lead m name, (lead, m) ∈ l.nested → '.' ∉ name.toList
          → l.getType? (lead ++ name) = Keyed.get? m.types name
            ∧ l.getTrait? (lead ++ name) = Keyed.get? m.traits name
            ∧ l.getAnnotationType? (lead ++ name) = Keyed.get? m.annotationTypes name)
      ∧ (∀ path m name rest, l.Reaches path m → '.' ∉ name.toList
          → (∀ used, (name, Use.loaded used) ∉ m.uses)
          → l.getType? (leadFrom "" (path ++ [name]) ++ rest) = none
            ∧ l.getTrait? (leadFrom "" (path ++ [name]) ++ rest) = none
            ∧ l.getAnnotationType? (leadFrom "" (path ++ [name]) ++ rest) = none) := by
  refine ⟨fun lead m => ?_, plain.nodup_nestedFrom "", ?_, ?_, ?_⟩
  · refine mem_nestedFrom_iff.trans ⟨?_, ?_⟩
    · rintro ⟨name, path, reaches, rfl⟩
      exact ⟨name :: path, nofun, reaches, rfl⟩
    · rintro ⟨_ | ⟨name, path⟩, some, reaches, rfl⟩
      · exact absurd rfl some
      · exact ⟨name, path, reaches, rfl⟩
  · intro path path' m m' reaches reaches' same
    have chains := TypeName.leadFrom_inj (plain.chain reaches) (plain.chain reaches') same
    subst chains
    exact ⟨rfl, Option.some.inj ((plain.descend? reaches).symm.trans (plain.descend? reaches'))⟩
  · intro lead m name listed undotted
    obtain ⟨first, path, reaches, rfl⟩ := mem_nestedFrom_iff.mp listed
    have denotes := plain.qualified? reaches undotted
    simp [getType?, getTrait?, getAnnotationType?, denotes]
  · intro path m name rest reaches undotted unloaded
    have nothing := plain.qualified?_eq_none reaches undotted unloaded rest
    simp [getType?, getTrait?, getAnnotationType?, nothing]

/-- Orders, and the pages of a library below; a further library is named but not loaded. -/
def assets (paging : Library) : Library :=
  { empty with
    types := [("Order", .ofName "object")]
    uses := [("paging", .loaded paging), ("legacy", .external "legacy.raml")] }

def paging : Library := { empty with types := [("Page", .ofName "object")] }

def storefront : Library := { empty with uses := [("assets", .loaded (assets paging))] }

/-- Its namespaces stand once and have no points in them. -/
theorem storefront_namespaced : storefront.Namespaced := by
  refine .of_uses (by decide) (by decide) fun _ used member => ?_
  obtain ⟨-, rfl⟩ : _ ∧ used = assets paging := by simpa [storefront] using member
  refine .of_uses (by decide) (by decide) fun _ used member => ?_
  obtain ⟨-, rfl⟩ : _ ∧ used = paging := by simpa [assets] using member
  exact .of_uses (by decide) (by decide) nofun

/-- The pages of the library below are found through both namespaces, and nothing is found through
the one that is not loaded. -/
theorem storefront_nested_agrees
    : storefront.Namespaced ∧ (Keyed.keys storefront.nested).Nodup
      ∧ ("assets.paging.", paging) ∈ storefront.nested
      ∧ storefront.getType? ("assets.paging." ++ "Page") = some (.ofName "object")
      ∧ storefront.getTrait? ("assets." ++ "Order") = none
      ∧ storefront.getType? ("assets.legacy." ++ "Page") = none := by
  have plain := storefront_namespaced
  obtain ⟨listed, once, -, found, nothing⟩ := nested_agrees plain
  have reaches : storefront.Reaches ["assets"] (assets paging) := .used (.head _) (.self _)
  have outer := (listed "assets." _).mpr ⟨["assets"], nofun, reaches, by decide⟩
  have inner := (listed "assets.paging." paging).mpr
    ⟨["assets", "paging"], nofun, .used (.head _) (.used (.head _) (.self _)), by decide⟩
  refine ⟨plain, once, inner, ?_, ?_, ?_⟩
  · exact (found _ _ "Page" inner (by decide)).1.trans (by simp [paging])
  · exact (found _ _ "Order" outer (by decide)).2.1.trans rfl
  · exact (nothing _ _ "legacy" "Page" reaches (by decide) (by simp [assets])).1

end Library

end Raml
