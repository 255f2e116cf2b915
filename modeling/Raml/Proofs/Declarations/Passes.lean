import Raml.Proofs.Declarations.Kept
import Raml.Proofs.Documents.Prepared
import Raml.Proofs.Documents.Resolved

/-! What each pass keeps of the types that a document declares.
-/

namespace Raml

open Rules

-----------------------------------------------------------------------------------------
-- Lists side by side
-----------------------------------------------------------------------------------------

/-- Each property has its new name and its new type. -/
theorem Properties.forall₂_withTypes {R : String → String → Prop} {S : TypeNode → TypeNode → Prop}
    {ps renamed : Properties} {types : List TypeNode}
    (names : List.Forall₂ (fun entry entry' => R entry.1 entry'.1) ps renamed)
    (each : List.Forall₂ (fun entry t => S entry.2.type t) ps types)
    : List.Forall₂ (fun entry entry' => R entry.1 entry'.1 ∧ S entry.2.type entry'.2.type) ps
        (renamed.withTypes types) := by
  induction names generalizing types with
  | nil => exact .nil
  | cons first _ ih =>
      cases each with
      | cons type rest => exact .cons ⟨first, type⟩ (ih rest)

-----------------------------------------------------------------------------------------
-- Hooks
-----------------------------------------------------------------------------------------

namespace TypeNode

variable {load : Include} {t t' : TypeNode}

/-- Reading examples replaces each by what is read of it, and changes nothing else. -/
theorem related_of_materialize (h : t.materialize load = .ok t')
    : ∃ example? examples, t' = t.withExamples example? examples
      ∧ Option.Rel (Example.ReadFrom load t.kind) t.declaration.example? example?
      ∧ Keyed.Related (Example.ReadFrom load t.kind) t.declaration.examples examples :=
  mapExamplesM_related (fun _ _ => Example.readFrom_of_materialize) t' h

/-- No example is derived where there are some. -/
theorem eq_of_addDerived {declared : String → Option TypeNode} {names : List String} {added : Bool}
    (h : t.addDerived load declared names = .ok (t', added)) (set : t.hasExamples = true)
    : t' = t := by
  rw [addDerived, if_pos set] at h
  cases h
  rfl

end TypeNode

/-- Annotations are kept, each under its new key. -/
def Annotations.Keeps (c : Change) (g g' : Annotations) : Prop :=
  ∀ key a, Keyed.get? g key = some a → ∃ a', Keyed.get? g' (c.annotation key) = some a'
    ∧ a'.value = c.value a.value

namespace TypeHooks

variable {P : Annotations → Prop} {c : Change} {h : TypeHooks}

/-- Hooks that keep what types set, as long as annotations satisfy `P`. -/
structure KeepsTypes (P : Annotations → Prop) (c : Change) (h : TypeHooks) : Prop where
  /-- Types by themselves may get examples. -/
  node (t : TypeNode) : Yields (h.node t) fun t' => ∃ example? examples,
    t' = t.withExamples example? examples ∧ t.KeepsOwn { ofExample := c.ofExample } t'
  properties (ps : Properties) : Yields (h.properties ps) fun ps' =>
    List.Forall₂ (fun entry entry' => entry'.1 = c.property entry.1) ps ps'
  annotations (targets : List Target) {g : Annotations} (holds : P g)
    : Yields (h.annotations targets g) (Annotations.Keeps c g)
  same {kind : Kind} {e e' e'' : Example} (first : c.ofExample kind e e') (second : e'.Same e'')
    : c.ofExample kind e e''

namespace KeepsTypes

/-- Hooks that keep what a type sets keep it when they are applied to the type alone. -/
theorem apply (keeps : h.KeepsTypes P c) (targets : List Target) {t : TypeNode}
    (holds : P t.declaration.annotations)
    : Yields (h.apply targets t) fun t' =>
        t'.properties = t.properties ∧ t'.kind = t.kind ∧ t.KeepsOwn c t' := by
  refine Yields.bind (keeps.node t) fun u made => ?_
  obtain ⟨example?, examples, given, own⟩ := made
  have holds : P u.declaration.annotations := given ▸ holds
  refine Yields.bind (keeps.annotations targets holds) fun g kept => ?_
  refine (TypeNode.mapExamplesM_related (E := Example.Same) fun e => ?_).mono ?_
  · exact Yields.skip fun annotations => Yields.ok ⟨annotations, rfl⟩
  · rintro t' ⟨single, named, rfl, ofSingle, ofNamed⟩
    refine ⟨by rw [given]; rfl, by rw [given]; rfl, ?_⟩
    exact {
      typeName := own.typeName
      default? := own.default?
      schema := own.schema
      displayName := own.displayName
      description := own.description
      facets := own.facets
      xml := own.xml
      scalar := own.scalar
      string := own.string
      array := own.array
      file := own.file
      object := own.object
      examples := fun set => by
        obtain ⟨single', named'⟩ := own.examples set
        refine ⟨rel_trans single' ofSingle fun _ _ _ => keeps.same, ?_⟩
        refine (named'.trans ofNamed).mono fun e e'' related => ?_
        obtain ⟨e', first, second⟩ := related
        exact keeps.same first second
      annotations := fun set => kept _ _ (given ▸ set) }

/-- By induction on types. -/
theorem visit (keeps : h.KeepsTypes P c) (targets : List Target) {t : TypeNode}
    (holds : t.Throughout fun u => P u.declaration.annotations)
    : Yields (t.visit h targets) fun t' => t'.kind = t.kind ∧ t.Keeps c t' := by
  induction t using TypeNode.induct generalizing targets with
  | step t ih =>
      obtain ⟨here, properties⟩ := TypeNode.throughout_iff.mp holds
      rw [TypeNode.visit_eq]
      refine Yields.bind (keeps.apply targets here) fun visited kept => ?_
      obtain ⟨same, kind, own⟩ := kept
      refine Yields.bind (keeps.properties t.properties) fun renamed names => ?_
      refine Yields.keep fun types visits => Yields.ok ?_
      have inside : List.Forall₂ (fun entry u => entry.2.type.Keeps c u) t.properties types := by
        rw [visitTypes_eq_mapM] at visits
        refine forall₂_mono_of_mem (forall₂_of_mapM visits) fun entry member u visited => ?_
        exact (ih entry.1 entry.2 member _ (properties entry.1 entry.2 member) u visited).2
      refine ⟨kind, TypeNode.keeps_iff.mpr ⟨?_, fun _ =>
        Properties.forall₂_withTypes (R := fun key key' => key' = c.property key) names inside⟩⟩
      exact { own with
        object := fun set => by
          show ({ visited.object with properties := renamed.withTypes types } : ObjectFacets)
            = { t.object with properties := renamed.withTypes types }
          rw [own.object set] }

end KeepsTypes

end TypeHooks

-----------------------------------------------------------------------------------------
-- Normal forms
-----------------------------------------------------------------------------------------

/-- A property comes to stand under its name. -/
theorem Properties.forall₂_normalize {ps ps' : Properties} (h : ps.normalize = .ok ps')
    : List.Forall₂ (fun entry entry' => entry'.1 = (Property.splitOptional entry.1).1) ps ps' := by
  rw [eq_normals_of_normalize h, normals, List.forall₂_map_right_iff, List.forall₂_same]
  exact fun _ _ => rfl

/-- Annotations as they are written: each key stands once, a name between brackets. -/
def Annotations.Bracketed (g : Annotations) : Prop :=
  (Keyed.keys g).Nodup ∧ ∀ entry ∈ g, Annotation.isKey entry.1 = true

/-- A key of an annotation is its name between brackets. -/
theorem Annotation.toList_of_isKey {key : String} (h : isKey key = true)
    : key.toList = '(' :: (stripBrackets key).toList ++ [')'] := by
  simp only [isKey, Bool.and_eq_true, decide_eq_true_eq] at h
  obtain ⟨⟨-, opens⟩, closes⟩ := h
  have front : ['('] <+: key.toList := by simpa using String.startsWith_string_iff.mp opens
  have back : [')'] <:+ key.toList := by
    simpa [String.endsWith] using String.Slice.endsWith_string_iff.mp closes
  obtain ⟨rest, front⟩ := front
  obtain ⟨inner, back⟩ := back
  cases inner with
  | nil =>
      rw [← back] at front
      cases front
  | cons c inner =>
      rw [← back] at front
      cases front
      rw [stripBrackets, ← back]
      simp

/-- So different keys stay different without brackets. -/
theorem Annotation.stripBrackets_injective {key key' : String} (h : isKey key = true)
    (h' : isKey key' = true) (same : stripBrackets key = stripBrackets key')
    : key = key' := by
  rw [← String.toList_inj, toList_of_isKey h, toList_of_isKey h', same]

/-- No two annotations come to have the same name. -/
theorem Annotations.keeps_withoutBrackets {g : Annotations} (h : g.Bracketed)
    : g.Keeps { annotation := Annotation.stripBrackets } g.withoutBrackets := by
  obtain ⟨unique, bracketed⟩ := h
  let rename (entry : String × Annotation) : String × Annotation :=
    let name := Annotation.stripBrackets entry.1
    (name, { entry.2 with name })
  let named : Annotations := g.map rename
  have keys : Keyed.keys named = (Keyed.keys g).map Annotation.stripBrackets := by
    simp [named, rename, Keyed.keys, Function.comp_def]
  have apart : (Keyed.keys named).Nodup := by
    rw [keys]
    refine unique.map_on fun key member key' member' same => ?_
    obtain ⟨entry, inside, rfl⟩ := List.mem_map.mp member
    obtain ⟨entry', inside', rfl⟩ := List.mem_map.mp member'
    exact Annotation.stripBrackets_injective (bracketed entry inside) (bracketed entry' inside')
      same
  intro key a found
  have member : rename (key, a) ∈ named := List.mem_map_of_mem (Keyed.mem_of_get? found)
  have same : g.withoutBrackets = named := Keyed.ofPairs_of_nodup apart
  rw [same]
  exact ⟨_, Keyed.get?_of_mem apart member, rfl⟩

/-- Annotations keep their keys where only values are changed. -/
theorem Annotations.keeps_mapValues {f : Annotation → Annotation}
    {value : Option Value → Option Value} (each : ∀ a, (f a).value = value a.value) (g : Annotations)
    : g.Keeps { value } (Keyed.mapValues f g) := by
  intro key a found
  refine ⟨f a, ?_, each a⟩
  show Keyed.get? (Keyed.mapValues f g) key = some (f a)
  rw [Keyed.get?_mapValues, found]
  rfl

-----------------------------------------------------------------------------------------
-- Inheritance
-----------------------------------------------------------------------------------------

namespace TypeNode

variable {find : String → Option TypeNode} {t : TypeNode}

/-- A change that changes nothing may be made twice. -/
theorem composes_none : Change.Composes {} {} {} where
  property _ := rfl
  annotation _ := rfl
  value _ := rfl
  ofExample h h' := Example.Same.trans h h'

/-- Properties are kept one by one where their types are. -/
theorem forall₂_mapTypes {f : TypeNode → TypeNode} {ps : Properties}
    (each : ∀ key p, (key, p) ∈ ps → p.type.Keeps {} (f p.type))
    : List.Forall₂ (EntryKeeps {}) ps (ps.mapTypes f) :=
  List.forall₂_map_right_iff.mpr <| List.forall₂_same.mpr fun entry member =>
    ⟨rfl, each entry.1 entry.2 member⟩

/-- What a type sets it keeps when it is filled, whatever the bases are. -/
theorem keeps_fillFrom (find : String → Option TypeNode) (t : TypeNode)
    : t.Keeps {} (t.fillFrom find) := by
  induction t using TypeNode.induct with
  | step t ih =>
      cases resolved : t.resolved with
      | true =>
          rw [fillFrom_of_resolved resolved]
          exact .refl t
      | false =>
          have inside := forall₂_mapTypes ih
          rw [fillFrom_eq resolved]
          cases t.base?.bind find with
          | none =>
              rw [filled_none]
              refine keeps_iff.mpr ⟨{ KeepsOwn.refl t with object := fun _ => rfl }, fun _ => inside⟩
          | some base =>
              rw [filled_some]
              refine keeps_iff.mpr ⟨?_, fun set => ?_⟩
              · exact {
                  typeName := rfl
                  default? := .or _ _
                  schema := .or _ _
                  displayName := .ite _ _
                  description := .ite _ _
                  facets := .or _ _
                  xml := .or _ _
                  scalar := .ite _ _
                  string := .ite _ _
                  array := fun set => by simp [inherit, set]
                  file := .ite _ _
                  object := fun set => by simp [set]; rfl
                  examples := (KeepsOwn.refl t).examples
                  annotations := fun {key a} set => by
                    refine ⟨a, ?_, rfl⟩
                    show Keyed.get? (Keyed.addMissing _ _) key = some a
                    rw [Keyed.get?_addMissing, set]
                    rfl }
              · simpa [TypeNode.properties, set] using inside

/-- Links add something that a declaration does not set. -/
theorem keeps_linkAnnotations (l : Library) (t : TypeNode) : t.Keeps {} (t.linkAnnotations l) := by
  induction t using TypeNode.induct with
  | step t ih =>
      rw [linkAnnotations_eq]
      refine keeps_iff.mpr ⟨?_, fun _ => forall₂_mapTypes ih⟩
      have link (a : Annotation) : (a.link l).value = a.value := a.value_link l
      exact { KeepsOwn.refl t with
        object := fun _ => rfl
        annotations := fun set => Annotations.keeps_mapValues link _ _ _ set }

end TypeNode

/-- What a run has come to keeps what was declared, entry by entry. -/
theorem Resolver.Run.keeps {outer : String → Option TypeNode} {declared types : Types}
    {done : Traversal.Completed} (run : Run outer declared done types)
    : Keyed.Related (TypeNode.Keeps {}) declared types :=
  run.related .refl fun _ _ t _ => t.keeps_fillFrom _

/-- Resolution fills types and changes nothing that they set. -/
theorem Library.keeps_of_resolve {l r : Library} (h : l.resolve = .ok r)
    : Keyed.Related (TypeNode.Keeps {}) l.types r.types := by
  have linked : Keyed.Related (TypeNode.Keeps {}) l.types (l.withUses r.uses).linkedTypes :=
    Keyed.related_of_map (TypeNode.keeps_linkAnnotations _) l.types
  refine (linked.trans (resolution_of_resolve h).linkedRun.keeps).mono fun t t'' kept => ?_
  obtain ⟨t', first, second⟩ := kept
  exact first.trans TypeNode.composes_none second

-----------------------------------------------------------------------------------------
-- Passes
-----------------------------------------------------------------------------------------

namespace Pass

variable {P : Annotations → Prop} {c : Path → Change} {p : Pass}

/-- A pass keeps what types set, as long as annotations satisfy `P`. What it changes may depend on
the directory that files are read from. -/
def KeepsTypes (P : Annotations → Prop) (c : Path → Change) (p : Pass) : Prop :=
  ∀ s targets t, t.Throughout (fun u => P u.declaration.annotations)
    → Yields (p.type s targets t) (t.Keeps (c s.directory))

theorem keepsTypes_of_idle (idle : ∀ s targets t, p.type s targets t = .ok t)
    : p.KeepsTypes P fun _ => {} := by
  intro s targets t _
  rw [idle]
  exact Yields.ok (.refl t)

/-- A pass keeps what its hooks keep, wherever they are applied. -/
theorem keepsTypes_ofHooks {hooks : Scope → TypeHooks}
    (keeps : ∀ s, (hooks s).KeepsTypes P (c s.directory))
    : (ofHooks hooks).KeepsTypes P c :=
  fun s targets _ holds => ((keeps s).visit targets holds).mono fun _ kept => kept.2

/-- Properties lose the marks in their keys. -/
theorem normalizeProperties_keepsTypes
    : normalizeProperties.KeepsTypes P fun _ =>
        { property := fun key => (Property.splitOptional key).1 } := by
  refine keepsTypes_ofHooks fun s => ?_
  exact {
    node := fun t => Yields.ok ⟨_, _, t.withExamples_self.symm, .refl t⟩
    properties := fun ps ps' normal => Properties.forall₂_normalize normal
    annotations := fun _ g _ => Yields.ok fun key a found => ⟨a, found, rfl⟩
    same := Example.Same.trans }

/-- The passes that change annotations only. -/
theorem annotations_keepsTypes {c : Change} {change : Annotations → Annotations}
    (property : c.property = id) (ofExample : c.ofExample = fun _ => Example.Same)
    (each : ∀ g, P g → g.Keeps c (change g))
    : (ofHooks fun _ => { annotations := fun _ g => .ok (change g) }).KeepsTypes P fun _ => c := by
  refine keepsTypes_ofHooks fun s => ?_
  exact {
    node := fun t => by
      rw [ofExample]
      exact Yields.ok ⟨_, _, t.withExamples_self.symm, .refl t⟩
    properties := fun ps => by
      rw [property]
      exact Yields.ok (List.forall₂_same.mpr fun _ _ => rfl)
    annotations := fun _ g holds => Yields.ok (each g holds)
    same := by
      rw [ofExample]
      exact Example.Same.trans }

theorem applyMediaTypes_keepsTypes (mediaTypes : Option (List String))
    : (applyMediaTypes mediaTypes).KeepsTypes P fun _ => {} := by
  refine keepsTypes_of_idle fun s targets t => ?_
  cases mediaTypes <;> rfl

/-- Annotations without a value are given one. -/
theorem completeAnnotations_keepsTypes
    : completeAnnotations.KeepsTypes P fun _ => { value := fun v => some (v.getD .null) } :=
  annotations_keepsTypes rfl rfl fun g _ =>
    Annotations.keeps_mapValues (f := fun a => { a with value := some (a.value.getD .null) })
      (fun _ => rfl) g

/-- Annotations lose the brackets of their keys. -/
theorem nameAnnotations_keepsTypes
    : nameAnnotations.KeepsTypes Annotations.Bracketed fun _ =>
        { annotation := Annotation.stripBrackets } :=
  annotations_keepsTypes rfl rfl fun _ bracketed => Annotations.keeps_withoutBrackets bracketed

/-- Types are filled where they set nothing. -/
theorem fillTypes_keepsTypes : fillTypes.KeepsTypes (fun _ => True) fun _ => {} := by
  intro s targets t _
  show Yields (do (← t.fill s.library).visit (linkHooks s) targets) _
  have links : (linkHooks s).KeepsTypes (fun _ => True) {} := {
    node := fun t => Yields.ok ⟨_, _, t.withExamples_self.symm, .refl t⟩
    properties := fun ps => Yields.ok (List.forall₂_same.mpr fun _ _ => rfl)
    annotations := fun _ g _ => by
      rcases g.linkDeclared_cases s.library with ⟨ok, -⟩ | ⟨e, error, -⟩
      · show Yields (g.linkDeclared s.library) _
        rw [ok]
        exact Yields.ok (Annotations.keeps_mapValues (fun a => a.value_link s.library) g)
      · show Yields (g.linkDeclared s.library) _
        rw [error]
        exact Yields.error _
    same := Example.Same.trans }
  rcases t.fill_cases s.library with ⟨ok, -⟩ | ⟨name, -, -, error⟩
  · rw [ok, ok_bind]
    refine (links.visit targets fun _ _ => trivial).mono fun t' visited => ?_
    exact (TypeNode.keeps_fillFrom _ t).trans TypeNode.composes_none visited.2
  · rw [error]
    exact Yields.error _

/-- Types that set examples get no others, and the files of theirs are read. -/
theorem keepsTypes_exampleOf (source : Source) (s : Scope)
    : TypeHooks.KeepsTypes (fun _ => True)
        { ofExample := Example.ReadFrom (source.include s.directory) }
        { node := exampleOf source s } where
  node t t' ok := by
    obtain ⟨u, read, ok⟩ := bind_eq_ok_iff.mp ok
    obtain ⟨⟨u', added⟩, derived, ok⟩ := bind_eq_ok_iff.mp ok
    cases ok
    obtain ⟨_, _, rfl, single, named⟩ := TypeNode.related_of_materialize read
    obtain ⟨_, _, same⟩ := TypeNode.withExamples_of_addDerived derived
    refine ⟨_, _, same, ?_⟩
    have examples (set : t.hasExamples = true) := TypeNode.eq_of_addDerived derived <|
      TypeNode.hasExamples_of_related set single named
    subst same
    exact { TypeNode.KeepsOwn.refl t with
      object := fun _ => t.object_self.symm
      examples := fun set => by
        have same := congrArg TypeNode.declaration (examples set)
        exact ⟨by rw [same]; exact single, by rw [same]; exact named⟩ }
  properties ps := Yields.ok (List.forall₂_same.mpr fun _ _ => rfl)
  annotations _ g _ := Yields.ok fun key a found => ⟨a, found, rfl⟩
  same := Example.ReadFrom.same

/-- Examples that have been read are not read again. -/
theorem keeps_of_materialize {source : Source} {s : Scope} {targets : List Target}
    {t u t' : TypeNode} (read : t.materialize (source.include s.directory) = .ok u)
    (filled : (fillExamples source).type s targets u = .ok t')
    : t.Keeps { ofExample := Example.ReadFrom (source.include s.directory) } t' := by
  have any : u.Throughout fun _ => True := fun _ _ => trivial
  obtain ⟨kind, kept⟩ := (keepsTypes_exampleOf source s).visit targets any t' filled
  obtain ⟨_, _, rfl, single, named⟩ := TypeNode.related_of_materialize read
  obtain ⟨own, properties⟩ := TypeNode.keeps_iff.mp kept
  refine TypeNode.keeps_iff.mpr ⟨{ own with examples := fun set => ?_ }, properties⟩
  obtain ⟨single', named'⟩ := own.examples (TypeNode.hasExamples_of_related set single named)
  have same : t'.kind = t.kind := kind
  rw [same] at single' named' ⊢
  refine ⟨rel_trans single single' fun _ _ _ => .trans, ?_⟩
  refine (named.trans named').mono fun e e'' related => ?_
  obtain ⟨e', first, second⟩ := related
  exact first.trans second

end Pass

end Raml
