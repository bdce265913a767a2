import BlockCanvas.Json.Basic
import Mathlib.Algebra.Ring.Int.Defs
import Mathlib.Data.String.Basic

/-!
What is relied on of a package for JSON (`Json.Codec.Lawful`). It gives back every value that has numbers
of JSON and keys in order, except that a double may come back as another one, and it refuses what has more than
`Json.maxDepth` containers open at once.
-/
namespace BlockCanvas

/-! ### Numbers -/

namespace Binary

def isFinite : Binary → Bool
  | .finite .. => true
  | _ => false

end Binary

def Json.Writes (x : Float) : Prop :=
  (Binary.ofFloat x).isFinite = true

instance (x : Float) : Decidable (Json.Writes x) :=
  inferInstanceAs (Decidable (_ = true))

namespace Json

/-! ### Keys -/

variable {key : String} {value : Json} {members : List (String × Json)}

def Ascending (members : List (String × Json)) : Prop :=
  members.Pairwise fun m m' => m.1 < m'.1

theorem Ascending.nodup (h : Ascending members) : (members.map Prod.fst).Nodup :=
  List.pairwise_map.2 (h.imp fun hlt => ne_of_lt hlt)

theorem mem_insertMember {m : String × Json} (h : m ∈ insertMember key value members) :
    m = (key, value) ∨ m ∈ members := by
  induction members with
  | nil => exact Or.inl (List.mem_singleton.1 h)
  | cons first rest ih =>
    obtain ⟨k, v⟩ := first
    rw [insertMember] at h
    split_ifs at h
    · exact List.mem_cons.1 h
    · exact (List.mem_cons.1 h).imp_right (List.mem_cons_of_mem _)
    · rcases List.mem_cons.1 h with rfl | h
      · exact Or.inr List.mem_cons_self
      · exact (ih h).imp_right (List.mem_cons_of_mem _)

theorem ascending_insertMember (h : Ascending members) : Ascending (insertMember key value members) := by
  induction members with
  | nil => exact List.pairwise_singleton _ _
  | cons first rest ih =>
    obtain ⟨k, v⟩ := first
    obtain ⟨hfirst, hrest⟩ := List.pairwise_cons.1 h
    rw [insertMember]
    split_ifs with hlt heq
    · refine List.pairwise_cons.2 ⟨fun m hm => ?_, h⟩
      rcases List.mem_cons.1 hm with rfl | hm
      · exact hlt
      · exact hlt.trans (hfirst m hm)
    · obtain rfl := eq_of_beq heq
      exact List.pairwise_cons.2 ⟨hfirst, hrest⟩
    · refine List.pairwise_cons.2 ⟨fun m hm => ?_, ih hrest⟩
      rcases mem_insertMember hm with rfl | hm
      · exact lt_of_le_of_ne (not_lt.1 hlt) fun he => heq (beq_iff_eq.2 he.symm)
      · exact hfirst m hm

inductive Keyed : Json → Prop
  | scalar {value : Json} : value.items? = none → value.members? = none → Keyed value
  | array {items : List Json} : (∀ item ∈ items, Keyed item) → Keyed (.array items)
  | object {members : List (String × Json)} :
      Ascending members → (∀ m ∈ members, Keyed m.2) → Keyed (.object members)

theorem Keyed.of_array {items : List Json} (h : Keyed (.array items)) : ∀ item ∈ items, item.Keyed := by
  cases h with
  | scalar hitems _ => cases hitems
  | array hall => exact hall

theorem Keyed.of_object (h : Keyed (.object members)) : Ascending members ∧ ∀ m ∈ members, m.2.Keyed := by
  cases h with
  | scalar _ hmembers => cases hmembers
  | object hasc hall => exact ⟨hasc, hall⟩

/-! ### Values -/

mutual
def depth : Json → ℕ
  | .array items => itemsDepth items + 1
  | .object members => membersDepth members + 1
  | _ => 0
def itemsDepth : List Json → ℕ
  | [] => 0
  | v :: vs => max (depth v) (itemsDepth vs)
def membersDepth : List (String × Json) → ℕ
  | [] => 0
  | (_, v) :: vs => max (depth v) (membersDepth vs)
end

mutual
/-- A value as its text is read, each double as the one that its own text is read as. -/
def reread (returned : Float → Float) : Json → Json
  | .real x => .real (returned x)
  | .array items => .array (rereadItems returned items)
  | .object members => .object (rereadMembers returned members)
  | value => value
def rereadItems (returned : Float → Float) : List Json → List Json
  | [] => []
  | v :: vs => reread returned v :: rereadItems returned vs
def rereadMembers (returned : Float → Float) : List (String × Json) → List (String × Json)
  | [] => []
  | (k, v) :: vs => (k, reread returned v) :: rereadMembers returned vs
end

theorem rereadItems_eq (returned : Float → Float) (items : List Json) :
    rereadItems returned items = items.map (reread returned) := by
  induction items with
  | nil => rfl
  | cons v vs ih => rw [rereadItems, ih, List.map_cons]

theorem rereadMembers_eq (returned : Float → Float) (members : List (String × Json)) :
    rereadMembers returned members = members.map fun m => (m.1, m.2.reread returned) := by
  induction members with
  | nil => rfl
  | cons m members ih => rw [rereadMembers, ih, List.map_cons]

theorem itemsDepth_le_iff {items : List Json} {n : ℕ} : itemsDepth items ≤ n ↔ ∀ v ∈ items, v.depth ≤ n := by
  induction items with
  | nil => simp [itemsDepth]
  | cons v vs ih => simp [itemsDepth, ih]

theorem membersDepth_le_iff {members : List (String × Json)} {n : ℕ} :
    membersDepth members ≤ n ↔ ∀ m ∈ members, m.2.depth ≤ n := by
  induction members with
  | nil => simp [membersDepth]
  | cons m members ih => simp [membersDepth, ih]

inductive Legible : Json → Prop
  | null : Legible .null
  | bool (b : Bool) : Legible (.bool b)
  | int {n : ℤ} : -2 ^ 63 ≤ n → n < 2 ^ 64 → Legible (.int n)
  | real {x : Float} : Writes x → Legible (.real x)
  | string (s : String) : Legible (.string s)
  | array {items : List Json} : (∀ v ∈ items, Legible v) → Legible (.array items)
  | object {members : List (String × Json)} :
      Ascending members → (∀ m ∈ members, Legible m.2) → Legible (.object members)

theorem Legible.keyed (h : value.Legible) : value.Keyed := by
  induction h with
  | null | bool | int | real | string => exact .scalar rfl rfl
  | array _ ih => exact .array ih
  | object hasc _ ih => exact .object hasc ih

/-! ### Packages -/

/-- The promises of a package: what it reads are values that can be written, and of the text of such a value it
makes the value again. -/
structure Codec.Lawful (json : Codec) (returned : Float → Float) : Prop where
  legible {text : String} {v : Json} : json.read text = some v → v.Legible
  finite {x : Float} : Writes x → Writes (returned x)
  reads {v : Json} : v.Legible →
    json.read (json.write v) = if v.depth ≤ maxDepth then some (v.reread returned) else none

end Json
end BlockCanvas
