import Raml.Proofs.Text.Base64
import Raml.Proofs.Values

/-! What becomes of a value that is written as JSON and read again.

Its lists and objects stay as they are, and so does every place in them. Binary content comes back as
the text that stands for it, and a number that is not finite as null. All else is kept.
-/

namespace Raml.Value

-----------------------------------------------------------------------------------------
-- Leaves
-----------------------------------------------------------------------------------------

/-- A value that is no list and no object. -/
def IsLeaf : Value → Prop
  | .array _ | .object _ => False
  | _ => True

mutual

/-- The leaves of a value, in order. -/
def leaves : Value → List Value
  | .array items => itemLeaves items
  | .object members => memberLeaves members
  | v => [v]

def itemLeaves : List Value → List Value
  | [] => []
  | v :: vs => v.leaves ++ itemLeaves vs

def memberLeaves : List (String × Value) → List Value
  | [] => []
  | (_, v) :: members => v.leaves ++ memberLeaves members

end

mutual

/-- The value with others in place of its leaves. -/
def mapLeaves (f : Value → Value) : Value → Value
  | .array items => .array (mapItemLeaves f items)
  | .object members => .object (mapMemberLeaves f members)
  | v => f v

def mapItemLeaves (f : Value → Value) : List Value → List Value
  | [] => []
  | v :: vs => v.mapLeaves f :: mapItemLeaves f vs

def mapMemberLeaves (f : Value → Value) : List (String × Value) → List (String × Value)
  | [] => []
  | (key, v) :: members => (key, v.mapLeaves f) :: mapMemberLeaves f members

end

variable {f : Value → Value}

theorem mapItemLeaves_eq (f : Value → Value) (vs : List Value)
    : mapItemLeaves f vs = vs.map (mapLeaves f) := by
  induction vs with
  | nil => rfl
  | cons v vs ih => rw [mapItemLeaves, ih, List.map_cons]

theorem mapMemberLeaves_eq (f : Value → Value) (members : List (String × Value))
    : mapMemberLeaves f members = Keyed.mapValues (mapLeaves f) members := by
  induction members with
  | nil => rfl
  | cons m members ih => simp [mapMemberLeaves, ih, Keyed.mapValues]

mutual

/-- A value stays the same exactly if all its leaves do. -/
theorem mapLeaves_eq_self_iff : ∀ v : Value, v.mapLeaves f = v ↔ ∀ leaf ∈ v.leaves, f leaf = leaf
  | .null | .boolean _ | .integer _ | .number _ | .string _ | .binary _ => by
      simp [mapLeaves, leaves]
  | .array items => by
      rw [mapLeaves, leaves, array.injEq]
      exact mapItemLeaves_eq_self_iff items
  | .object members => by
      rw [mapLeaves, leaves, object.injEq]
      exact mapMemberLeaves_eq_self_iff members

/-- A list stays the same if no leaf in it changes. -/
theorem mapItemLeaves_eq_self_iff
    : ∀ vs : List Value, mapItemLeaves f vs = vs ↔ ∀ leaf ∈ itemLeaves vs, f leaf = leaf
  | [] => by simp [mapItemLeaves, itemLeaves]
  | v :: vs => by
      rw [mapItemLeaves, itemLeaves, List.forall_mem_append, List.cons.injEq,
        mapLeaves_eq_self_iff v, mapItemLeaves_eq_self_iff vs]

/-- Members stay the same if no leaf in them changes. -/
theorem mapMemberLeaves_eq_self_iff
    : ∀ members : List (String × Value),
      mapMemberLeaves f members = members ↔ ∀ leaf ∈ memberLeaves members, f leaf = leaf
  | [] => by simp [mapMemberLeaves, memberLeaves]
  | (key, v) :: members => by
      rw [mapMemberLeaves, memberLeaves, List.forall_mem_append, List.cons.injEq, Prod.mk.injEq,
        mapLeaves_eq_self_iff v, mapMemberLeaves_eq_self_iff members]
      simp

end

-----------------------------------------------------------------------------------------
-- Places
-----------------------------------------------------------------------------------------

/-- One step into a value. -/
inductive Step where
  | item (index : Nat)
  | member (key : String)

/-- What a step leads to. -/
def child? : Value → Step → Option Value
  | .array items, .item index => items[index]?
  | .object members, .member key => Keyed.get? members key
  | _, _ => none

/-- What is found at a place in a value. -/
def at? (v : Value) : List Step → Option Value
  | [] => some v
  | step :: path => (v.child? step).bind fun inner => inner.at? path

/-- What is put in place of leaves holds nothing. -/
def KeepsLeaves (f : Value → Value) : Prop := ∀ v step, v.IsLeaf → (f v).child? step = none

/-- The same steps can be taken. -/
theorem child?_mapLeaves (keeps : KeepsLeaves f) (v : Value) (step : Step)
    : (v.mapLeaves f).child? step = (v.child? step).map (mapLeaves f) := by
  cases v with
  | array items =>
      rw [mapLeaves, mapItemLeaves_eq]
      cases step with
      | item index => exact List.getElem?_map
      | member key => rfl
  | object members =>
      rw [mapLeaves, mapMemberLeaves_eq]
      cases step with
      | item index => rfl
      | member key => exact Keyed.get?_mapValues _ _ _
  | null | boolean _ | integer _ | number _ | string _ | binary _ => exact keeps _ step trivial

/-- The same places are there. -/
theorem at?_mapLeaves (keeps : KeepsLeaves f) (path : List Step) (v : Value)
    : (v.mapLeaves f).at? path = (v.at? path).map (mapLeaves f) := by
  induction path generalizing v with
  | nil => rfl
  | cons step path ih =>
      rw [at?, at?, child?_mapLeaves keeps]
      cases v.child? step with
      | none => rfl
      | some inner => exact ih inner

-----------------------------------------------------------------------------------------
-- Rereading
-----------------------------------------------------------------------------------------

/-- What a leaf is read as where it was written. -/
def rereadLeaf : Value → Value
  | .binary bytes => .string (Base64.encode bytes)
  | .number x => if x.isFinite then .number x else .null
  | v => v

/-- A leaf that JSON has a form for. -/
def InJson : Value → Prop
  | .binary _ => False
  | .number x => x.isFinite = true
  | _ => True

/-- A leaf is read as it was if JSON has a form for it. -/
theorem rereadLeaf_eq_self_iff (v : Value) : v.rereadLeaf = v ↔ v.InJson := by
  cases v with
  | number x => cases finite : x.isFinite <;> simp [rereadLeaf, InJson, finite]
  | _ => simp [rereadLeaf, InJson]

/-- No leaf is read as a list or as an object. -/
theorem keepsLeaves_rereadLeaf : KeepsLeaves rereadLeaf := by
  intro v step leaf
  cases v with
  | array items => exact leaf.elim
  | object members => exact leaf.elim
  | number x => cases finite : x.isFinite <;> simp [rereadLeaf, finite, child?]
  | null | boolean _ | integer _ | string _ | binary _ => rfl

mutual

/-- By induction on the value: only leaves change. -/
theorem reread_eq : ∀ v : Value, v.reread = v.mapLeaves rereadLeaf
  | .null | .boolean _ | .string _ | .binary _ => rfl
  | .integer i => by
      have word : int64? i.toInt = some i := int64?_eq_some_iff.mpr rfl
      simp [reread, toJson, ofJson, ofInt, word, mapLeaves, rereadLeaf]
  | .number x => by
      cases finite : x.isFinite <;> simp [reread, toJson, ofJson, finite, mapLeaves, rereadLeaf]
  | .array items => congrArg array (rereadItems_eq items)
  | .object members => congrArg object (rereadMembers_eq members)

theorem rereadItems_eq
    : ∀ vs : List Value, ofJsonItems (toJsonItems vs) = mapItemLeaves rereadLeaf vs
  | [] => rfl
  | v :: vs => congrArg₂ List.cons (reread_eq v) (rereadItems_eq vs)

theorem rereadMembers_eq
    : ∀ members : List (String × Value),
      ofJsonMembers (toJsonMembers members) = mapMemberLeaves rereadLeaf members
  | [] => rfl
  | (key, v) :: members =>
      congrArg₂ (fun v members => (key, v) :: members) (reread_eq v) (rereadMembers_eq members)

end

/-- A value that is written and read again has nothing but its leaves replaced, by what JSON has for
them. It is the same value exactly if JSON has a form for each leaf. What is written of it is what
was written of the first one, and wherever that one holds binary content, this one holds a text that
stands for the same bytes. -/
theorem reread_leaves (v : Value)
    : v.reread = v.mapLeaves rereadLeaf
      ∧ (v.reread = v ↔ ∀ leaf ∈ v.leaves, leaf.InJson)
      ∧ v.reread.toJson = v.toJson
      ∧ ∀ path bytes, v.at? path = some (.binary bytes)
        → (v.reread.at? path).bind decodeBinary? = some (.binary bytes) := by
  refine ⟨reread_eq v, ?_, toJson_reread v, fun path bytes found => ?_⟩
  · simp only [reread_eq, mapLeaves_eq_self_iff, rereadLeaf_eq_self_iff]
  · rw [reread_eq, at?_mapLeaves keepsLeaves_rereadLeaf, found]
    show (Base64.decode? (Base64.encode bytes)).bind _ = _
    rw [Base64.decode?_encode]
    rfl

example
    : (object [("logo", .binary [0, 1, 2, 255]), ("size", .integer 3)]).reread
      = object [("logo", .string "AAEC/w=="), ("size", .integer 3)] := by
  rfl

end Raml.Value
