import Raml.Proofs.Annotations.Kept
import Raml.Proofs.Annotations.Origins
import Raml.Proofs.Annotations.Written
import Raml.Proofs.Checking.Unused
import Raml.Proofs.Traits.Written

/-! Annotations that are declared and never applied: parsing names those, but for declarations whose
names the copies of other annotations happen to have.
-/

namespace Raml

open Raml.TypeName (leadFrom)
open Yaml (Node)

-----------------------------------------------------------------------------------------
-- Full names
-----------------------------------------------------------------------------------------

namespace TypeName

/-- A lead through two chains of namespaces is one through the first and then the second. -/
theorem leadFrom_append (lead : String) (path more : List String)
    : leadFrom lead (path ++ more) = leadFrom (leadFrom lead path) more :=
  List.foldl_append

/-- What stands before a chain of namespaces stays before it. -/
theorem leadFrom_eq (lead : String) (path : List String)
    : leadFrom lead path = lead ++ leadFrom "" path := by
  apply String.toList_injective
  rw [String.toList_append, toList_leadFrom, toList_leadFrom]
  simp

end TypeName

/-- A name that is written in a library denotes the declaration under a key of the library that the
namespaces in the name lead to. -/
structure Library.Denotes (l : Library) (name : String) (more : List String) (key : String) : Prop
    where
  parts : more = (TypeName.parts name).dropLast ∧ key = (TypeName.parts name).getLastD ""
  declared : ∃ m, l.descend? more = some m ∧ key ∈ Keyed.keys m.annotationTypes

namespace Library.Denotes

variable {l : Library} {name key : String} {more : List String}

/-- A declaration is found where the name denotes one. -/
theorem of_getAnnotationType? (h : l.getAnnotationType? name ≠ none)
    : ∃ more key, l.Denotes name more key := by
  obtain ⟨w, found⟩ := Option.ne_none_iff_exists'.mp h
  rw [getAnnotationType?_eq] at found
  obtain ⟨m, descended, found⟩ := Option.bind_eq_some_iff.mp found
  refine ⟨_, _, ⟨rfl, rfl⟩, m, descended, ?_⟩
  exact Keyed.get?_isSome_iff.mp (Option.isSome_of_mem found)

/-- Its full name is the name as seen from the document. -/
theorem fullName (h : l.Denotes name more key) (path : List String)
    : leadFrom "" (path ++ more) ++ key = leadFrom "" path ++ name := by
  obtain ⟨rfl, rfl⟩ := h.parts
  rw [TypeName.leadFrom_append, TypeName.leadFrom_eq (leadFrom "" path), String.append_assoc,
    TypeName.leadFrom_parts]

end Library.Denotes

namespace Document

/-- An annotation is declared in a document or in one of its libraries, under its full name. -/
def DeclaresAnnotation (d : Document) (name : String) : Prop :=
  ∃ path l key, d.library.Reaches path l ∧ key ∈ Keyed.keys l.annotationTypes
    ∧ name = leadFrom "" path ++ key

/-- An annotation in a document or in one of its libraries denotes a declaration of the full name. -/
def Annotates (target : Target) (d : Document) (name : String) : Prop :=
  ∃ path l here x more key, d.Applies target path l here x ∧ l.Denotes x.name more key
    ∧ name = leadFrom "" (path ++ more) ++ key

/-- An annotation in a document or in one of its libraries has the name as its own, as seen from the
document. -/
def Mentions (target : Target) (d : Document) (name : String) : Prop :=
  ∃ path l here x, d.Applies target path l here x ∧ name = leadFrom "" path ++ x.name

/-- The copy of an annotation that is written in one library stands in another library, where its
name is taken for one of that library. -/
def Strikes (target : Target) (n d' : Document) (name : String) : Prop :=
  ∃ path more m place x l' here r, more ≠ [] ∧ n.Applies target (path ++ more) m place x
    ∧ d'.Applies target path l' here (x.link r) ∧ name = leadFrom "" path ++ x.name

/-- The names of annotations that are in use are those of all that stand in the document. -/
theorem mem_annotationsUsed_iff {target : Target} {d : Document} {name : String}
    : name ∈ (d.sites target).flatMap Review.annotationsUsed ↔ d.Mentions target name := by
  have used (path : List String) (l : Library)
      : (∃ site ∈ d.sitesIn target path l, name ∈ Review.annotationsUsed site)
        ↔ ∃ here x, (here, x) ∈ Site.appliedOf (d.sitesIn target path l)
          ∧ name = leadFrom "" path ++ x.name := by
    rw [← List.mem_flatMap, d.annotationsUsed_sitesIn]
    simp [eq_comm]
  simp only [List.mem_flatMap, mem_sites_iff]
  constructor
  · rintro ⟨site, ⟨path, l, reaches, inside⟩, here⟩
    obtain ⟨here, x, member, same⟩ := (used path l).mp ⟨site, inside, here⟩
    exact ⟨path, l, here, x, ⟨reaches, member⟩, same⟩
  · rintro ⟨path, l, here, x, applies, same⟩
    obtain ⟨site, inside, here⟩ := (used path l).mpr ⟨here, x, applies.member, same⟩
    exact ⟨site, ⟨path, l, applies.reaches, inside⟩, here⟩

end Document

-----------------------------------------------------------------------------------------
-- From phase to phase
-----------------------------------------------------------------------------------------

/-- A copy is that of something written, in the library itself or in one that it leads to. -/
theorem Document.written_of_copied {target : Target} {n : Document} {path : List String}
    {l : Library} {here : List Target} {a : Annotation} (reaches : n.library.Reaches path l)
    (h : l.Copied here a)
    : ∃ more m place x, n.Applies target (path ++ more) m place x ∧ ∃ r, a = x.link r := by
  cases h with
  | inherited writes _ _ links =>
      exact ⟨_, _, _, _, applies_of_writes reaches writes, links.exists_link⟩
  | ofExample writes _ links =>
      exact ⟨_, _, _, _, applies_of_writes reaches writes, links.exists_link⟩

namespace Parser.Phases

variable {p : Parser} {target : Target} {mediaTypes : Option (List String)}
variable {d₀ d n f s d' : Document} {path : List String} {here : List Target} {a x : Annotation}

/-- Where types are filled in, everything that is written denotes a declaration. -/
theorem annotates_iff_mentions (phases : p.Phases target mediaTypes d n f s d')
    (loose : n.Loose target) {name : String}
    : n.Annotates target name ↔ n.Mentions target name := by
  constructor
  · rintro ⟨path, l, here, x, more, key, applies, denotes, same⟩
    exact ⟨path, l, here, x, applies, same.trans (denotes.fullName path)⟩
  · rintro ⟨path, l, here, x, applies, same⟩
    have defined := Document.defined_of_fill phases.filled applies
    rw [x.declared_link (loose.applied applies)] at defined
    obtain ⟨more, key, denotes⟩ := Library.Denotes.of_getAnnotationType? defined
    exact ⟨path, l, here, x, more, key, applies, denotes, same.trans (denotes.fullName path).symm⟩

/-- What is written stands in the complete document. -/
theorem applies_of_written (phases : p.Phases target mediaTypes d n f s d')
    (bare : f.BareUses target) {l : Library} (h : n.Applies target path l here x)
    : ∃ l' r, d'.Applies target path l' here (x.link r) := by
  obtain ⟨f', reached, -, fills⟩ := (Document.becomes_of_fill phases.filled).forward h.reaches
  obtain ⟨l', stands, -, gains⟩ := (phases.gains bare).forward reached
  obtain ⟨a, member, links, -⟩ := fills.forward here x h.member
  obtain ⟨r, rfl⟩ := links.exists_link
  exact ⟨l', r, ⟨stands, (Site.gains_iff.mp gains).1 member⟩⟩

/-- All that stands in the complete document is what is written, or copied, in the same library or
in one that it leads to. -/
theorem written_of_applies (phases : p.Phases target mediaTypes d n f s d')
    (bare : f.BareUses target) {l' : Library} (h : d'.Applies target path l' here a)
    : ∃ more m place x, n.Applies target (path ++ more) m place x ∧ ∃ r, a = x.link r := by
  obtain ⟨l, reached, -, gains⟩ := (phases.gains bare).backward h.reaches
  have stands : ∃ between m, f.Applies target (path ++ between) m here a := by
    rcases (Site.gains_iff.mp gains).2 here a h.member with own | shared
    · exact ⟨[], l, by rwa [List.append_nil], by rwa [List.append_nil]⟩
    · exact Document.applies_of_shares reached shared
  obtain ⟨between, m, reached, member⟩ := stands
  obtain ⟨k, reaches, -, fills⟩ := (Document.becomes_of_fill phases.filled).backward reached
  rcases fills.backward here a member with ⟨x, written, links, -⟩ | ⟨copied, -⟩
  · exact ⟨between, k, here, x, ⟨reaches, written⟩, links.exists_link⟩
  · obtain ⟨more, m, place, x, written, same⟩ := Document.written_of_copied reaches copied
    exact ⟨between ++ more, m, place, x, by rwa [← List.append_assoc], same⟩

/-- The names in use are those of what is written, and those that copies strike. -/
theorem mentions_iff (phases : p.Phases target mediaTypes d n f s d') (bare : f.BareUses target)
    {name : String}
    : d'.Mentions target name ↔ n.Mentions target name ∨ n.Strikes target d' name := by
  constructor
  · rintro ⟨path, l', here, a, applies, same⟩
    obtain ⟨more, m, place, x, written, r, rfl⟩ := phases.written_of_applies bare applies
    rw [x.name_link] at same
    by_cases own : more = []
    · subst own
      rw [List.append_nil] at written
      exact Or.inl ⟨path, m, place, x, written, same⟩
    · exact Or.inr ⟨path, more, m, place, x, l', here, r, own, written, applies, same⟩
  · intro used
    rcases used with ⟨path, l, here, x, written, same⟩ | strikes
    · obtain ⟨l', r, applies⟩ := phases.applies_of_written bare written
      exact ⟨path, l', here, x.link r, applies, x.name_link r ▸ same⟩
    · obtain ⟨path, _, _, _, x, l', here, r, -, -, applies, same⟩ := strikes
      exact ⟨path, l', here, x.link r, applies, x.name_link r ▸ same⟩

/-- The same annotations are declared from phase to phase. -/
theorem declaresAnnotation_iff (phases : p.Phases target mediaTypes d n f s d')
    (bare : f.BareUses target) {name : String}
    : d'.DeclaresAnnotation name ↔ n.DeclaresAnnotation name := by
  have filled := Document.KeepsTraits.of_fill phases.filled
  have completed := (filled.uses.trans (.of_fillTraits bare phases.substituted)).trans
    (Document.KeepsTraits.of_finish phases.finished).uses
  constructor
  · rintro ⟨path, l', key, reaches, declared, same⟩
    obtain ⟨l, reaches, names, -⟩ := completed.backward reaches
    exact ⟨path, l, key, reaches, names.2 ▸ declared, same⟩
  · rintro ⟨path, l, key, reaches, declared, same⟩
    obtain ⟨l', reaches, names, -⟩ := completed.forward reaches
    exact ⟨path, l', key, reaches, names.2.symm ▸ declared, same⟩

end Parser.Phases

-----------------------------------------------------------------------------------------
-- What parsing names
-----------------------------------------------------------------------------------------

namespace Parser

variable {p : Parser} {target : Target} {mediaTypes : Option (List String)}
variable {d₀ d n f s d' : Document}

/-- What is left unused when a document is reviewed are the full names of the annotations that are
declared somewhere in it or in its libraries, and that nothing written in them denotes, but for
those that copies strike. Parsing fails for these names, in order and once each, if there are any
and they are not ignored. -/
theorem resolve_unusedAnnotations_iff (written : d₀.Written) (loads : p.Loads d₀ d)
    (phases : p.Phases target mediaTypes d n f s d')
    (reaches : Review.ReachesAnnotations target d')
    : (∀ name, name ∈ Review.unusedAnnotations target d'
        ↔ n.DeclaresAnnotation name ∧ ¬n.Annotates target name ∧ ¬n.Strikes target d' name)
      ∧ (Review.unusedAnnotations target d').Pairwise (· < ·)
      ∧ ∀ names, p.resolve target mediaTypes d₀ = .error (.unusedAnnotations names)
        ↔ p.settings.ignoreUnusedAnnotations = false ∧ names ≠ []
          ∧ Review.unusedAnnotations target d' = names := by
  have bare := phases.bareUses written loads
  have loose : n.Loose target := (written.loose loads).of_normalize phases.normal
  refine ⟨fun name => ?_, Review.pairwise_unused, fun names => ?_⟩
  · have declared : name ∈ Review.declaredNames (fun l => Keyed.keys l.annotationTypes) d'.library
        ↔ n.DeclaresAnnotation name :=
      Library.mem_declaredNames_iff.trans (phases.declaresAnnotation_iff bare)
    rw [Review.unusedAnnotations, Review.mem_unused_iff, declared,
      Document.mem_annotationsUsed_iff, phases.mentions_iff bare,
      phases.annotates_iff_mentions loose, not_or]
  · exact (phases.resolve_error_iff loads).trans (Review.run_unusedAnnotations_iff reaches)

/-- A document of two annotations, one of which is applied. -/
def card : Node :=
  .map [(.str "title", .str "Card"),
    (.str "annotationTypes", .map [(.str "note", .null), (.str "tag", .null)]),
    (.str "(tag)", .str "x")]

/-- The annotation that is declared and not applied is reported, and the other one is not. -/
theorem resolve_unusedAnnotations_card
    : ∃ d₀ d n f s d' : Document, d₀.Written ∧ ({} : Parser).Loads d₀ d
        ∧ ({} : Parser).Phases .api (some d₀.mediaType) d n f s d'
        ∧ Review.ReachesAnnotations .api d'
        ∧ ({} : Parser).resolve .api (some d₀.mediaType) d₀ = .error (.unusedAnnotations ["note"])
        ∧ ∀ name, name = "note"
          ↔ n.DeclaresAnnotation name ∧ ¬n.Annotates .api name ∧ ¬n.Strikes .api d' name := by
  obtain ⟨d₀, d, n, f, s, d', written, loads, phases, checked⟩ := by
    apply exists_phases (p := {}) card fun _ d' =>
      decide (Review.ReachesAnnotations .api d' ∧ Review.unusedAnnotations .api d' = ["note"])
    decide +kernel
  obtain ⟨reaches, unused⟩ := of_decide_eq_true checked
  obtain ⟨names, -, fails⟩ := resolve_unusedAnnotations_iff written loads phases reaches
  refine ⟨d₀, d, n, f, s, d', written, loads, phases, reaches, ?_, fun name => ?_⟩
  · exact (fails ["note"]).mpr ⟨rfl, List.cons_ne_nil _ _, unused⟩
  · rw [← names name, unused, List.mem_singleton]

/-- A document with a type from a library, which has an annotation that the document declares as
well. -/
def atlas : Node :=
  .map [(.str "title", .str "Atlas"),
    (.str "annotationTypes", .map [(.str "tag", .str "string")]),
    (.str "uses", .map [(.str "lib", .map [
      (.str "annotationTypes", .map [(.str "tag", .str "string")]),
      (.str "types", .map [(.str "Word",
        .map [(.str "type", .str "string"), (.str "(tag)", .str "x")])])])]),
    (.str "types", .map [(.str "Entry", .str "lib.Word")])]

/-- The document's own declaration is denoted by nothing that is written, and still it does not count
as unused. -/
theorem not_resolve_unusedAnnotations_iff
    : ¬∀ d₀ d n f s d' : Document, d₀.Written → ({} : Parser).Loads d₀ d
        → ({} : Parser).Phases .api (some d₀.mediaType) d n f s d'
        → Review.ReachesAnnotations .api d'
        → ∀ name, name ∈ Review.unusedAnnotations .api d'
          ↔ n.DeclaresAnnotation name ∧ ¬n.Annotates .api name := by
  intro only
  obtain ⟨d₀, d, n, f, s, d', written, loads, phases, checked⟩ := by
    apply exists_phases (p := {}) atlas fun n d' =>
      decide (Review.ReachesAnnotations .api d' ∧ Review.unusedAnnotations .api d' = []
        ∧ "tag" ∈ Review.declaredNames (fun l => Keyed.keys l.annotationTypes) n.library
        ∧ "tag" ∉ (n.sites .api).flatMap Review.annotationsUsed)
    decide +kernel
  obtain ⟨reaches, none, declared, unused⟩ := of_decide_eq_true checked
  have loose : n.Loose .api := (written.loose loads).of_normalize phases.normal
  rw [Document.mem_annotationsUsed_iff, ← phases.annotates_iff_mentions loose] at unused
  have member := (only d₀ d n f s d' written loads phases reaches "tag").mpr
    ⟨Library.mem_declaredNames_iff.mp declared, unused⟩
  rw [none] at member
  cases member

end Parser

end Raml
