import BlockCanvas.Text.Blank
import BlockCanvas.Text.Utf8
import BlockCanvas.Xml.Basic
import BlockCanvas.Xml.Names
import Mathlib.Data.List.Basic

/-!
What is relied on of a package for XML (`Xml.Codec.Lawful`): it gives back the elements that a document may have,
without the runs of white space between them.
-/
namespace BlockCanvas.Xml

/-! ### Names and texts -/

def IsName (s : String) : Prop :=
  (s.toList.head?.any isNameStart && s.toList.all isNameChar) = true

instance (s : String) : Decidable (IsName s) :=
  inferInstanceAs (Decidable (_ = true))

def Allowed (s : String) : Prop :=
  ∀ c ∈ s.toList, isChar false c = true

instance (s : String) : Decidable (Allowed s) :=
  List.decidableBAll _ s.toList

structure IsTag (name : String) (attributes : List (String × String)) : Prop where
  name : IsName name
  names : ∀ a ∈ attributes, IsName a.1 ∧ a.1 ≠ "xmlns"
  distinct : (attributes.map Prod.fst).Nodup
  values : ∀ a ∈ attributes, Allowed a.2

theorem IsTag.of_keys {name : String} {attributes : List (String × String)} {keys : List String}
    (hname : IsName name) (hkeys : keys.Nodup ∧ ∀ key ∈ keys, IsName key ∧ key ≠ "xmlns")
    (hsublist : (attributes.map Prod.fst).Sublist keys) (hvalues : ∀ a ∈ attributes, Allowed a.2) :
    IsTag name attributes :=
  ⟨hname, fun _ ha => hkeys.2 _ (hsublist.subset (List.mem_map_of_mem ha)), hsublist.nodup hkeys.1,
    hvalues⟩

/-! ### Elements -/

mutual
def Node.pruned : Node → Node
  | .text s => .text s
  | .element name attributes children => .element name attributes (prunedAll children)
def Node.prunedAll : List Node → List Node
  | [] => []
  | .text s :: nodes =>
    if s.toList.all Text.isSpacing then prunedAll nodes else .text s :: prunedAll nodes
  | .element name attributes children :: nodes =>
    pruned (.element name attributes children) :: prunedAll nodes
end

def withText (text : String) (nodes : List Node) : List Node :=
  if text.isEmpty then nodes else .text text :: nodes

def unlessBlank (text : String) : String :=
  if text.toList.all Text.isSpacing then "" else text

/-- An element that a document may have. What text it holds stands before its elements. -/
inductive Written : Node → Prop
  | element {name : String} {attributes : List (String × String)} {text : String} {children : List Node}
      (htag : IsTag name attributes) (htext : Allowed text)
      (hchildren : ∀ n ∈ children, Written n) : Written (.element name attributes (withText text children))

theorem Written.of_elements {name : String} {attributes : List (String × String)} {children : List Node}
    (htag : IsTag name attributes) (hchildren : ∀ n ∈ children, Written n) :
    Written (.element name attributes children) :=
  @Written.element name attributes "" children htag (by decide) hchildren

theorem Node.prunedAll_cons {k : Node} (h : Written k) (nodes : List Node) :
    prunedAll (k :: nodes) = k.pruned :: prunedAll nodes := by
  cases h
  rfl

theorem Node.prunedAll_eq {children : List Node} (h : ∀ k ∈ children, Written k) :
    prunedAll children = children.map pruned := by
  induction children with
  | nil => rfl
  | cons k children ih =>
    obtain ⟨hk, h⟩ := List.forall_mem_cons.1 h
    rw [prunedAll_cons hk, ih h, List.map_cons]

theorem withText_unlessBlank (text : String) (nodes : List Node) :
    withText (unlessBlank text) nodes =
      if text.toList.all Text.isSpacing then nodes else .text text :: nodes := by
  rw [unlessBlank]
  split
  · rfl
  · next h =>
    have hne : text ≠ "" := by
      rintro rfl
      exact h rfl
    rw [withText, if_neg (by simpa using hne)]

theorem Node.prunedAll_withText (text : String) {children : List Node} (h : ∀ k ∈ children, Written k) :
    prunedAll (withText text children) = withText (unlessBlank text) (children.map pruned) := by
  rw [withText_unlessBlank, withText]
  split
  · next hempty =>
    obtain rfl := String.isEmpty_iff.1 hempty
    exact prunedAll_eq h
  · rw [prunedAll, prunedAll_eq h]

/-! ### Packages -/

structure Codec.Lawful (xml : Codec) : Prop where
  reads {root : Node} : Written root → xml.read (Text.utf8 (xml.write root)) = some root.pruned

end BlockCanvas.Xml
