import Raml.Resolution
import Raml.Proofs.References
import Mathlib.Data.List.Chain
import Mathlib.Data.List.TakeWhile
import Mathlib.Logic.Relation

/-! Links between declared types, and the chains of types under resolution.

A base link goes from a type to its base, any other link goes through a property. A chain follows
such links and remembers which ones go through a property.
-/

namespace Raml.Resolver

open Relation (TransGen ReflTransGen)

/-- The declared type that a name stands for in the library that declares it. A name with a point in
it stands for a type of another library. -/
def own? (types : Types) (name : String) : Option TypeNode :=
  if isQualified name then none else Keyed.get? types name

/-- The names that the declared type of a name refers to. -/
def references (types : Types) (name : String) : List String :=
  ((own? types name).map TypeNode.references).getD []

/-- The declared type of `name` has `base` as its base. -/
def BaseLink (types : Types) (name base : String) : Prop :=
  ∃ t, own? types name = some t ∧ t.base? = some base

/-- The declared type of `name` refers to `other`, as its base or through properties. -/
def Refers (types : Types) (name other : String) : Prop :=
  ∃ t, own? types name = some t ∧ other ∈ t.references

/-- The type of `name` is reached from itself by base links alone. -/
def OnBaseCycle (types : Types) (name : String) : Prop := TransGen (BaseLink types) name name

variable {types : Types}

/-- A library's own types are declared under names without points. -/
theorem own?_eq_some {name : String} {t : TypeNode}
    : own? types name = some t ↔ isQualified name = false ∧ Keyed.get? types name = some t := by
  unfold own?
  split <;> simp_all

/-- Without a point, the name is looked up among declared types. -/
theorem own?_of_unqualified {name : String} (h : isQualified name = false)
    : own? types name = Keyed.get? types name := by
  simp [own?, h]

/-- A name with a point stands for no type of the library's own. -/
theorem own?_of_qualified {name : String} (h : isQualified name = true)
    : own? types name = none := by
  simp [own?, h]

theorem references_of_own? {name : String} {t : TypeNode} (h : own? types name = some t)
    : references types name = t.references := by
  simp [references, h]

/-- A base link is a reference. -/
theorem BaseLink.refers {name base : String} (h : BaseLink types name base)
    : Refers types name base := by
  obtain ⟨t, found, base⟩ := h
  exact ⟨t, found, TypeNode.mem_references_of_base? base⟩

/-- A type has one base at most. -/
theorem BaseLink.unique {name base other : String} (h : BaseLink types name base)
    (h' : BaseLink types name other)
    : base = other := by
  obtain ⟨t, found, base⟩ := h
  obtain ⟨_, same, other⟩ := h'
  cases found.symm.trans same
  exact Option.some.inj (base.symm.trans other)

/-- The base of a type on a base cycle is on one as well. -/
theorem OnBaseCycle.base {name base : String} (h : OnBaseCycle types name)
    (link : BaseLink types name base)
    : OnBaseCycle types base := by
  obtain ⟨next, first, rest⟩ := TransGen.head'_iff.mp h
  cases link.unique first
  exact TransGen.tail' rest link

/-- A type on a base cycle has a base. -/
theorem OnBaseCycle.base? {name : String} (h : OnBaseCycle types name)
    : ∃ t base, own? types name = some t ∧ t.base? = some base := by
  obtain ⟨base, ⟨t, found, base?⟩, -⟩ := TransGen.head'_iff.mp h
  exact ⟨t, base, found, base?⟩

/-- Whatever is on the way to a name reaches it. -/
theorem reaches_of_path {names : List String} {name last : String}
    (path : (names ++ [last]).IsChain (Refers types)) (member : name ∈ names)
    : TransGen (Refers types) name last := by
  have ordered := (path.imp fun _ _ => TransGen.single).pairwise
  exact (List.pairwise_append.mp ordered).2.2 name member last (List.mem_singleton_self _)

/-- Whatever refers to something is declared. -/
theorem isSome_of_reaches {name other : String} (h : TransGen (Refers types) name other)
    : (own? types name).isSome := by
  obtain ⟨_, ⟨t, found, -⟩, -⟩ := TransGen.head'_iff.mp h
  simp [found]

/-- A chain of base links that comes back to its first name is a base cycle. -/
theorem onBaseCycle_of_links {names : List String} {name : String}
    (links : names.IsChain (BaseLink types)) (first : names.head? = some name)
    (last : names.getLast? = some name) (proper : 1 < names.length)
    : OnBaseCycle types name := by
  have ordered := (links.imp fun _ _ => TransGen.single).pairwise
  obtain ⟨rest, rfl⟩ := List.head?_eq_some_iff.mp first
  cases rest with
  | nil => simp at proper
  | cons second rest =>
      rw [List.getLast?_cons_cons] at last
      exact (List.pairwise_cons.mp ordered).1 name (List.mem_of_getLast? last)

-----------------------------------------------------------------------------------------
-- Chains
-----------------------------------------------------------------------------------------

/-- One type under resolution leads to the next one: as a base, or through a property. -/
def Leads (types : Types) (a b : Link) : Prop :=
  ∃ t, own? types a.name = some t ∧ t.resolved = false
    ∧ if b.viaProperty then b.name ∈ propertyReferences t.properties else t.base? = some b.name

/-- What leads from one type to the next is a reference. -/
theorem Leads.refers {a b : Link} (h : Leads types a b) : Refers types a.name b.name := by
  obtain ⟨t, found, unresolved, step⟩ := h
  refine ⟨t, found, ?_⟩
  rw [TypeNode.references_eq unresolved]
  split at step
  · exact List.mem_append_right _ step
  · simp [step]

/-- What does not lead through a property is a base link. -/
theorem Leads.baseLink {a b : Link} (h : Leads types a b) (direct : b.viaProperty = false)
    : BaseLink types a.name b.name := by
  obtain ⟨t, found, -, step⟩ := h
  rw [direct] at step
  exact ⟨t, found, step⟩

/-- How a look-up comes about: `chain` leads to the name that is looked up, and from a type on a
base cycle only by base links. -/
structure Chain (types : Types) (chain : List Link) (link : Link) : Prop where
  leads : (chain ++ [link]).IsChain (Leads types)
  declared : chain = [] → (own? types link.name).isSome
  bases : (chain ++ [link]).Pairwise fun a b => OnBaseCycle types a.name → b.viaProperty = false

variable {chain : List Link} {link : Link}

/-- The names of a chain refer to each other in turn. -/
theorem Chain.path (h : Chain types chain link)
    : (chain.map Link.name ++ [link.name]).IsChain (Refers types) := by
  have mapped := List.isChain_map_of_isChain Link.name (fun _ _ step => Leads.refers step) h.leads
  simpa using mapped

/-- Each type under resolution is declared. -/
theorem Chain.isSome (h : Chain types chain link) {name : String}
    (member : name ∈ chain.map Link.name)
    : (own? types name).isSome :=
  isSome_of_reaches (reaches_of_path h.path member)

/-- Whatever is looked up is declared or referred to. -/
theorem Chain.referred (h : Chain types chain link) (missing : own? types link.name = none)
    : ∃ name, Refers types name link.name := by
  rcases List.eq_nil_or_concat chain with rfl | ⟨front, last, rfl⟩
  · simpa [missing] using h.declared rfl
  · have leads := h.leads
    rw [List.concat_eq_append, List.append_assoc] at leads
    exact ⟨last.name, (List.isChain_pair.mp leads.right_of_append).refers⟩

/-- From a type on a base cycle only base links lead on, so what they lead to is on it. -/
theorem onBaseCycle_of_leads {links : List Link} (leads : links.IsChain (Leads types))
    (bases : links.Pairwise fun a b => OnBaseCycle types a.name → b.viaProperty = false)
    {a last : Link} (member : a ∈ links) (cyclic : OnBaseCycle types a.name)
    (isLast : links.getLast? = some last)
    : OnBaseCycle types last.name := by
  induction links generalizing a with
  | nil => cases member
  | cons first links ih =>
      cases links with
      | nil =>
          cases List.mem_singleton.mp member
          cases isLast
          exact cyclic
      | cons second links =>
          obtain ⟨step, rest⟩ := List.isChain_cons_cons.mp leads
          obtain ⟨direct, others⟩ := List.pairwise_cons.mp bases
          rw [List.getLast?_cons_cons] at isLast
          rcases List.mem_cons.mp member with rfl | later
          · have base := step.baseLink (direct second List.mem_cons_self cyclic)
            exact ih rest others List.mem_cons_self (cyclic.base base) isLast
          · exact ih rest others later cyclic isLast

/-- A chain with a type on a base cycle leads to a type on a base cycle. -/
theorem Chain.onBaseCycle (h : Chain types chain link) {a : Link} (member : a ∈ chain)
    (cyclic : OnBaseCycle types a.name)
    : OnBaseCycle types link.name :=
  onBaseCycle_of_leads h.leads h.bases (List.mem_append_left _ member) cyclic (by simp)

/-- A chain goes on to the base of the type that it leads to. -/
theorem Chain.base (h : Chain types chain link) {t : TypeNode} {base : String}
    (found : own? types link.name = some t) (base? : t.base? = some base)
    : Chain types (chain ++ [link]) ⟨base, false⟩ where
  leads := by
    rw [List.append_assoc]
    exact List.isChain_append_cons_cons.mpr
      ⟨h.leads, ⟨t, found, TypeNode.unresolved_of_base? base?, base?⟩, List.isChain_singleton _⟩
  declared empty := by simp at empty
  bases := by
    refine List.pairwise_append.mpr ⟨h.bases, List.pairwise_singleton _ _, ?_⟩
    intro a _ b last _
    cases List.mem_singleton.mp last
    rfl

/-- A chain goes on at a property, unless its last type is on a base cycle. -/
theorem Chain.property (h : Chain types chain link) {t : TypeNode} {name : String}
    (found : own? types link.name = some t) (unresolved : t.resolved = false)
    (member : name ∈ propertyReferences t.properties) (acyclic : ¬OnBaseCycle types link.name)
    : Chain types (chain ++ [link]) ⟨name, true⟩ where
  leads := by
    rw [List.append_assoc]
    exact List.isChain_append_cons_cons.mpr
      ⟨h.leads, ⟨t, found, unresolved, member⟩, List.isChain_singleton _⟩
  declared empty := by simp at empty
  bases := by
    refine List.pairwise_append.mpr ⟨h.bases, List.pairwise_singleton _ _, ?_⟩
    intro a inside b _ cyclic
    rcases List.mem_append.mp inside with earlier | last
    · exact absurd (h.onBaseCycle earlier cyclic) acyclic
    · cases List.mem_singleton.mp last
      exact absurd cyclic acyclic

-----------------------------------------------------------------------------------------
-- Names that are under resolution
-----------------------------------------------------------------------------------------

/-- What is left of a chain from a name on is its end. -/
theorem chainFrom_suffix (name : String) (chain : List Link) : chainFrom name chain <:+ chain :=
  List.dropWhile_suffix _

/-- Nothing is left if the name is not on the chain. -/
theorem chainFrom_eq_nil {name : String}
    : chainFrom name chain = [] ↔ name ∉ chain.map Link.name := by
  simp [chainFrom, List.dropWhile_eq_nil_iff]

/-- What is left begins with the name. -/
theorem name_of_chainFrom {name : String} {first : Link} {after : List Link}
    (h : chainFrom name chain = first :: after)
    : first.name = name := by
  induction chain with
  | nil => cases h
  | cons a chain ih =>
      by_cases same : a.name = name
      · simp only [chainFrom, List.dropWhile_cons, same, ne_eq, not_true, decide_false] at h
        cases h
        exact same
      · simp only [chainFrom, List.dropWhile_cons, ne_eq, same, not_false_eq_true, decide_true] at h
        exact ih h

/-- A chain that comes back to a name without properties in between consists of base links. -/
theorem Chain.baseLinks (h : Chain types chain link) {first : Link} {after : List Link}
    (again : chainFrom link.name chain = first :: after) (direct : link.viaProperty = false)
    (afterwards : after.any Link.viaProperty = false)
    : ((first :: after).map Link.name ++ [link.name]).IsChain (BaseLink types) := by
  have tail : (first :: (after ++ [link])).IsChain (Leads types) := by
    obtain ⟨front, whole⟩ := chainFrom_suffix link.name chain
    rw [again] at whole
    have leads := h.leads
    rw [← whole, List.append_assoc] at leads
    exact leads.right_of_append
  have bases : ∀ b ∈ after ++ [link], b.viaProperty = false := by
    intro b member
    rcases List.mem_append.mp member with inside | last
    · simpa using List.any_eq_false.mp afterwards b inside
    · cases List.mem_singleton.mp last
      exact direct
  have links : (first :: (after ++ [link])).IsChain fun a b => BaseLink types a.name b.name :=
    tail.imp_of_mem_tail_imp fun a b _ member step => step.baseLink (bases b member)
  simpa using List.isChain_map_of_isChain Link.name (fun _ _ step => step) links

end Raml.Resolver
