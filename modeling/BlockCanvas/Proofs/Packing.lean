import BlockCanvas.Proofs.Drawing
import Mathlib.Data.List.Pairwise
import Mathlib.Data.Rat.Cast.Order
import Mathlib.Data.Set.Basic
import Mathlib.Tactic.Tauto

/-!
How a tree is packed, with whole numbers for sizes and places. While a block is drawn the pen moves right and down
only, so what is drawn ahead of it is apart from what it has passed (`Pen.Past.apart`). It follows for every site
that its slots are apart and in the rectangle of its block, and that what is in a slot is stacked in it
(`Site.packed`).
-/
namespace BlockCanvas

namespace Rect
variable {a b a' b' c : Rect ℤ}

def Inside (a b : Rect ℤ) : Prop :=
  b.x ≤ a.x ∧ a.x + a.width ≤ b.x + b.width ∧ b.y ≤ a.y ∧ a.y + a.height ≤ b.y + b.height

def Over (a b : Rect ℤ) : Prop :=
  a.y + a.height ≤ b.y

def Stacked (a b : Rect ℤ) : Prop :=
  a.x = b.x ∧ a.Over b

def Apart (a b : Rect ℤ) : Prop :=
  a.Over b ∨ b.Over a ∨ a.x + a.width ≤ b.x ∨ b.x + b.width ≤ a.x

def Solid (r : Rect ℤ) : Prop :=
  0 < r.width ∧ 0 < r.height

def interior (r : Rect ℤ) : Set (Point ℚ) :=
  {p | r.x < p.x ∧ p.x < (r.x + r.width : ℤ) ∧ r.y < p.y ∧ p.y < (r.y + r.height : ℤ)}

theorem Inside.refl (a : Rect ℤ) : a.Inside a :=
  ⟨le_rfl, le_rfl, le_rfl, le_rfl⟩

theorem Inside.trans (h : a.Inside b) (h' : b.Inside c) : a.Inside c :=
  ⟨h'.1.trans h.1, h.2.1.trans h'.2.1, h'.2.2.1.trans h.2.2.1, h.2.2.2.trans h'.2.2.2⟩

theorem Over.mono (h : a.Over b) (ha : a'.Inside a) (hb : b'.Inside b) : a'.Over b' :=
  ha.2.2.2.trans (le_trans h hb.2.2.1)

theorem Solid.mono (h : a.Solid) (hab : a.Inside b) : b.Solid := by
  unfold Solid Inside at *
  omega

theorem Over.apart (h : a.Over b) : a.Apart b :=
  Or.inl h

theorem Apart.symm (h : a.Apart b) : b.Apart a := by
  unfold Apart at *
  tauto

theorem Apart.mono (h : a.Apart b) (ha : a'.Inside a) (hb : b'.Inside b) : a'.Apart b' := by
  unfold Apart Over Inside at *
  omega

theorem Apart.of_pairwise {β : Type} {f : β → Rect ℤ} {xs : List β} (h : xs.Pairwise fun x y => (f x).Apart (f y))
    {x y : β} (hx : x ∈ xs) (hy : y ∈ xs) (hne : x ≠ y) : (f x).Apart (f y) :=
  have : Std.Symm fun x y => (f x).Apart (f y) := ⟨fun _ _ h => h.symm⟩
  h.forall hx hy hne

theorem Apart.inter_interior (h : a.Apart b) : a.interior ∩ b.interior = ∅ := by
  rw [Set.eq_empty_iff_forall_notMem]
  rintro p ⟨⟨hax, hax', hay, hay'⟩, hbx, hbx', hby, hby'⟩
  rcases h with h | h | h | h
  · exact absurd (hay'.trans_le (Int.cast_le.2 h)) (lt_asymm hby)
  · exact absurd (hby'.trans_le (Int.cast_le.2 h)) (lt_asymm hay)
  · exact absurd (hax'.trans_le (Int.cast_le.2 h)) (lt_asymm hbx)
  · exact absurd (hbx'.trans_le (Int.cast_le.2 h)) (lt_asymm hax)

end Rect

theorem Geometry.larger_eq_max (a b : ℤ) : Geometry.larger a b = max a b := by
  unfold Geometry.larger
  split_ifs <;> omega

theorem Geometry.le_larger_left (a b : ℤ) : a ≤ larger a b :=
  (le_max_left a b).trans (larger_eq_max a b).ge

theorem Geometry.le_larger_right (a b : ℤ) : b ≤ larger a b :=
  (le_max_right a b).trans (larger_eq_max a b).ge

structure Metrics.Roomy (m : Metrics ℤ) : Prop where
  labelWidth : 0 ≤ m.labelWidth
  valueWidth : 0 < m.valueWidth
  inset : 0 ≤ m.inset
  rowHeight : m.inset + m.inset < m.rowHeight
  gap : 0 ≤ m.gap
  indent : 0 ≤ m.indent
  emptyBodyHeight : 0 < m.emptyBodyHeight
  minBlockWidth : m.indent < m.minBlockWidth

theorem Metrics.roomy_standard : (Metrics.standard Int.ofNat).Roomy := by
  constructor <;> decide

/-! ### The pen -/

namespace Pen
variable {pen pen' : Pen ℤ} {origin : Point ℤ} {a b : Rect ℤ}

def reach (pen : Pen ℤ) : ℤ :=
  pen.y + (pen.row.elim 0 Row.height)

def Past (pen : Pen ℤ) (a : Rect ℤ) : Prop :=
  a.y + a.height ≤ pen.y ∨
    ∃ row, pen.row = some row ∧ a.x + a.width ≤ row.cursor ∧ a.y + a.height ≤ pen.y + row.height

/-- The rectangle is not over the open row, and behind the cursor or below the row. -/
def Ahead (pen : Pen ℤ) (b : Rect ℤ) : Prop :=
  pen.y ≤ b.y ∧ ∀ row, pen.row = some row → row.cursor ≤ b.x ∨ pen.y + row.height ≤ b.y

theorem Past.apart (ha : pen.Past a) (hb : pen.Ahead b) : a.Apart b := by
  obtain ⟨hy, hrow⟩ := hb
  rcases ha with ha | ⟨row, hpen, hx, ha⟩
  · exact Or.inl (ha.trans hy)
  · rcases hrow row hpen with hb | hb
    · exact Or.inr (Or.inr (Or.inl (hx.trans hb)))
    · exact Or.inl (ha.trans hb)

structure Ready (origin : Point ℤ) (pen : Pen ℤ) : Prop where
  y : origin.y ≤ pen.y
  row : ∀ row, pen.row = some row → row.top = pen.y ∧ origin.x ≤ row.cursor ∧ 0 ≤ row.height

structure Draws (origin : Point ℤ) (pen pen' : Pen ℤ) (rect : Rect ℤ) : Prop where
  ready : pen'.Ready origin
  width : pen.width ≤ pen'.width
  reach : pen.reach ≤ pen'.reach
  past : ∀ a, pen.Past a → pen'.Past a
  ahead : ∀ b, pen'.Ahead b → pen.Ahead b
  drawnAhead : pen.Ahead rect
  drawnPast : pen'.Past rect
  left : origin.x ≤ rect.x
  right : rect.x + rect.width ≤ origin.x + pen'.width
  top : origin.y ≤ rect.y
  bottom : rect.y + rect.height ≤ pen'.reach

open Geometry

variable {m : Metrics ℤ}

theorem openRow_ready (hm : m.Roomy) (hpen : pen.Ready origin) :
    (openRow m origin pen).top = pen.y ∧ origin.x ≤ (openRow m origin pen).cursor ∧
      pen.reach ≤ pen.y + (openRow m origin pen).height ∧ 0 ≤ (openRow m origin pen).height ∧
      ∀ row, pen.row = some row → row = openRow m origin pen := by
  obtain ⟨y, width, _ | row⟩ := pen
  · have hlabel := hm.labelWidth
    have hheight := hm.rowHeight
    have hinset := hm.inset
    refine ⟨rfl, ?_, ?_, ?_, nofun⟩
    · change origin.x ≤ origin.x + m.labelWidth
      omega
    · change y + 0 ≤ y + m.rowHeight
      omega
    · change 0 ≤ m.rowHeight
      omega
  · obtain ⟨htop, hcursor, hheight⟩ := hpen.row row rfl
    exact ⟨htop, hcursor, le_rfl, hheight, fun _ he => (Option.some.inj he).symm⟩

theorem draws_pastValue (hm : m.Roomy) (hpen : pen.Ready origin) {rect : Rect ℤ}
    (hx : rect.x = (openRow m origin pen).cursor) (hy : rect.y = (openRow m origin pen).top + m.inset)
    (hsize : rect.Solid) :
    pen.Draws origin (pastValue m origin pen (openRow m origin pen) rect) rect := by
  obtain ⟨htop, hcursor, hreach, hheight, hopen⟩ := openRow_ready hm hpen
  obtain ⟨hwide, hhigh⟩ := hsize
  have hinset := hm.inset
  have hgap := hm.gap
  have horigin := hpen.y
  generalize openRow m origin pen = row at *
  -- the row after the slot, and what of it the pen shows
  let next : Row ℤ := ⟨row.cursor + rect.width + m.gap, row.top,
    larger row.height (rect.height + (m.inset + m.inset))⟩
  have hnext : next.cursor = row.cursor + rect.width + m.gap := rfl
  have htaller : next.height = max row.height (rect.height + (m.inset + m.inset)) := larger_eq_max _ _
  have hwider : (pastValue m origin pen row rect).width = max pen.width (next.cursor - origin.x) :=
    larger_eq_max _ _
  have hpast : (pastValue m origin pen row rect).Past rect :=
    Or.inr ⟨next, rfl, by omega, (by omega : rect.y + rect.height ≤ pen.y + next.height)⟩
  refine
    { ready := ⟨horigin, fun r hr => ?_⟩
      width := by omega
      reach := (by omega : pen.reach ≤ pen.y + next.height)
      past := fun a ha => ?_
      ahead := fun b hb => ?_
      drawnAhead := ⟨by omega, fun r hr => Or.inl (by rw [hopen r hr, hx])⟩
      drawnPast := hpast
      left := by omega
      right := by omega
      top := by omega
      bottom := (by omega : rect.y + rect.height ≤ pen.y + next.height) }
  · obtain rfl := Option.some.inj hr
    exact ⟨htop, (by omega : origin.x ≤ next.cursor), (by omega : 0 ≤ next.height)⟩
  · rcases ha with ha | ⟨r, hr, hax, hay⟩
    · exact Or.inl ha
    · obtain rfl := hopen r hr
      exact Or.inr ⟨next, rfl, by omega, (by omega : a.y + a.height ≤ pen.y + next.height)⟩
  · obtain ⟨hby, hbrow⟩ := hb
    refine ⟨hby, fun r hr => ?_⟩
    obtain rfl := hopen r hr
    rcases hbrow next rfl with hb | hb
    · exact Or.inl (by omega)
    · exact Or.inr (by change pen.y + next.height ≤ b.y at hb; omega)

theorem reach_le_bodyTop (hm : m.Roomy) (index : ℕ) (pen : Pen ℤ) : pen.reach ≤ bodyTop m index pen := by
  have hheight := hm.rowHeight
  have hinset := hm.inset
  obtain ⟨y, width, _ | row⟩ := pen
  · change y + 0 ≤ if index = 0 then y + m.rowHeight else y
    split_ifs <;> omega
  · exact le_rfl

theorem y_le_reach (hpen : pen.Ready origin) : pen.y ≤ pen.reach := by
  obtain ⟨y, width, _ | row⟩ := pen
  · exact (add_zero y).ge
  · exact le_add_of_nonneg_right (hpen.row row rfl).2.2

theorem Past.bottom_le_reach (hpen : pen.Ready origin) (ha : pen.Past a) : a.y + a.height ≤ pen.reach := by
  rcases ha with ha | ⟨row, hrow, -, ha⟩
  · exact ha.trans (y_le_reach hpen)
  · rwa [reach, hrow]

theorem ahead_of_reach_le (hpen : pen.Ready origin) (hb : pen.reach ≤ b.y) : pen.Ahead b :=
  ⟨(y_le_reach hpen).trans hb, fun row hrow => Or.inr (by rwa [reach, hrow] at hb)⟩

theorem draws_body (hm : m.Roomy) (hpen : pen.Ready origin) (index : ℕ) {width height : ℤ} (hheight : 0 ≤ height) :
    pen.Draws origin ⟨bodyTop m index pen + height, larger pen.width (m.indent + width), none⟩
      ⟨origin.x + m.indent, bodyTop m index pen, width, height⟩ := by
  have htop := reach_le_bodyTop hm index pen
  have hy := y_le_reach hpen
  have horigin := hpen.y
  have hindent := hm.indent
  have hwider := larger_eq_max pen.width (m.indent + width)
  -- no row is open after a body, so all that was drawn before is over it
  have hreach : (⟨bodyTop m index pen + height, larger pen.width (m.indent + width), none⟩ : Pen ℤ).reach =
      bodyTop m index pen + height := add_zero _
  refine
    { ready := ⟨(by omega : origin.y ≤ bodyTop m index pen + height), nofun⟩
      width := (by omega : pen.width ≤ larger pen.width (m.indent + width))
      reach := by omega
      past := fun a ha => Or.inl ?_
      ahead := fun b hb => ahead_of_reach_le hpen ?_
      drawnAhead := ahead_of_reach_le hpen htop
      drawnPast := Or.inl le_rfl
      left := (by omega : origin.x ≤ origin.x + m.indent)
      right := (by omega : origin.x + m.indent + width ≤ origin.x + larger pen.width (m.indent + width))
      top := (by omega : origin.y ≤ bodyTop m index pen)
      bottom := hreach.ge }
  · exact (ha.bottom_le_reach hpen).trans (by change pen.reach ≤ bodyTop m index pen + height; omega)
  · have hby : bodyTop m index pen + height ≤ b.y := hb.1
    omega

end Pen

/-! ### Bodies, chains and slots -/

namespace Geometry
variable {m : Metrics ℤ}

theorem origin_ofChain (origin : Point ℤ) (depth : ℕ) (group : Rect ℤ) (ts : List Tree) :
    (ofChain m origin depth group ts).1.x = group.x ∧ (ofChain m origin depth group ts).1.y = group.y := by
  induction ts generalizing group with
  | nil => exact ⟨rfl, rfl⟩
  | cons t ts ih => exact ih _

end Geometry

theorem Site.group_x (m : Metrics ℤ) (s : Site ℤ) : (s.group m).x = s.origin.x := by
  rw [group_eq]
  exact (Geometry.origin_ofChain _ _ _ _).1

theorem Site.group_y (m : Metrics ℤ) (s : Site ℤ) : (s.group m).y = s.origin.y := by
  rw [group_eq]
  exact (Geometry.origin_ofChain _ _ _ _).2

namespace Geometry
variable {m : Metrics ℤ}

theorem entries_packed (hm : m.Roomy) {x : ℤ} {depth : ℕ} {y : ℤ} (width : ℤ) {entries : List (Entry Tree)}
    (hsolid : ∀ k ∈ entrySites m x depth y entries, (k.group m).Solid) :
    let body := ofEntries m x depth y width entries
    y ≤ body.1 ∧ width ≤ body.2.1 ∧
      (∀ k ∈ entrySites m x depth y entries, k.origin.x = x ∧ y ≤ (k.group m).y ∧
        (k.group m).y + (k.group m).height ≤ body.1 ∧ (k.group m).width ≤ body.2.1) ∧
      (entrySites m x depth y entries).Pairwise fun j k => (j.group m).Stacked (k.group m) := by
  induction entries generalizing y width with
  | nil => exact ⟨le_rfl, le_rfl, nofun, .nil⟩
  | cons entry entries ih =>
    cases entry with
    | line text =>
      have hheight : y ≤ y + m.rowHeight := by
        have := hm.rowHeight
        have := hm.inset
        omega
      obtain ⟨hy, hwidth, hrest, hstacked⟩ := ih (larger width m.valueWidth) hsolid
      refine ⟨hheight.trans hy, (le_larger_left _ _).trans hwidth, fun k hk => ?_, hstacked⟩
      obtain ⟨hx, htop, hbottom⟩ := hrest k hk
      exact ⟨hx, hheight.trans htop, hbottom⟩
    | block t =>
      let s : Site ℤ := ⟨⟨x, y⟩, depth + 1, t⟩
      obtain ⟨hs, hsolid⟩ := List.forall_mem_cons.1 hsolid
      have hgx : (s.group m).x = x := Site.group_x m s
      have hgy : (s.group m).y = y := Site.group_y m s
      have hheight : y ≤ y + (s.group m).height := by
        have : 0 < (s.group m).height := hs.2
        omega
      obtain ⟨hy, hwidth, hrest, hstacked⟩ := ih (larger width (s.group m).width) hsolid
      refine ⟨hheight.trans hy, (le_larger_left _ _).trans hwidth, List.forall_mem_cons.2 ⟨?_, fun k hk => ?_⟩,
        List.pairwise_cons.2 ⟨fun k hk => ?_, hstacked⟩⟩
      · exact ⟨rfl, hgy.ge, (congrArg (· + (s.group m).height) hgy).trans_le hy, (le_larger_right _ _).trans hwidth⟩
      · obtain ⟨hx, htop, hbottom⟩ := hrest k hk
        exact ⟨hx, hheight.trans htop, hbottom⟩
      · obtain ⟨hx, htop, -⟩ := hrest k hk
        exact ⟨hgx.trans (hx.symm.trans (Site.group_x m k).symm), (congrArg (· + (s.group m).height) hgy).trans_le htop⟩

theorem chain_packed {origin : Point ℤ} {depth : ℕ} {group : Rect ℤ} {ts : List Tree} (hx : group.x = origin.x)
    (hgroup : 0 ≤ group.height)
    (hsolid : ∀ k ∈ chainSites m origin depth group ts, (k.group m).Solid) :
    let whole := (ofChain m origin depth group ts).1
    group.Inside whole ∧ (∀ k ∈ chainSites m origin depth group ts, (k.group m).Inside whole ∧
        group.Stacked (k.group m)) ∧
      (chainSites m origin depth group ts).Pairwise fun j k => (j.group m).Stacked (k.group m) := by
  induction ts generalizing group with
  | nil => exact ⟨.refl _, nofun, .nil⟩
  | cons t ts ih =>
    let s : Site ℤ := ⟨⟨origin.x, group.y + group.height⟩, depth, t⟩
    let grown : Rect ℤ :=
      ⟨group.x, group.y, larger group.width (s.group m).width, group.height + (s.group m).height⟩
    obtain ⟨hs, hsolid⟩ := List.forall_mem_cons.1 hsolid
    have hgx : (s.group m).x = origin.x := Site.group_x m s
    have hgy : (s.group m).y = group.y + group.height := Site.group_y m s
    have hheight : 0 < (s.group m).height := hs.2
    -- the rest is drawn under the group and the first connector, taken together
    obtain ⟨hinside, hrest, hstacked⟩ := @ih grown hx (add_nonneg hgroup hheight.le) hsolid
    have hold : group.Inside grown :=
      ⟨le_rfl, Int.add_le_add_left (le_larger_left _ _) _, le_rfl,
        Int.add_le_add_left (le_add_of_nonneg_right hheight.le) _⟩
    have hfirst : (s.group m).Inside grown := by
      refine ⟨(hgx.trans hx.symm).ge, ?_, (le_add_of_nonneg_right hgroup).trans hgy.ge, ?_⟩
      · exact (congrArg (· + (s.group m).width) (hgx.trans hx.symm)).trans_le
          (Int.add_le_add_left (le_larger_right _ _) _)
      · exact ((congrArg (· + (s.group m).height) hgy).trans (add_assoc _ _ _)).le
    refine ⟨hold.trans hinside, List.forall_mem_cons.2 ⟨⟨hfirst.trans hinside, ?_⟩, fun k hk => ?_⟩,
      List.pairwise_cons.2 ⟨fun k hk => ?_, hstacked⟩⟩
    · exact ⟨hx.trans hgx.symm, hgy.ge⟩
    · obtain ⟨hk', hkx, hky⟩ := hrest k hk
      exact ⟨hk', hkx, hky.mono hold (.refl _)⟩
    · obtain ⟨-, hkx, hky⟩ := hrest k hk
      exact ⟨hgx.trans (hx.symm.trans hkx), hky.mono hfirst (.refl _)⟩

end Geometry

structure Bay.Packed (m : Metrics ℤ) (bay : Bay ℤ) : Prop where
  solid : bay.box.rect.Solid
  inside : ∀ k ∈ bay.sites, (k.group m).Inside bay.box.rect
  stacked : bay.sites.Pairwise fun j k => (j.group m).Stacked (k.group m)

namespace Geometry
variable {m : Metrics ℤ} {origin : Point ℤ} {pen : Pen ℤ}

theorem drawSlot_packed (hm : m.Roomy) (hpen : pen.Ready origin) (host : BlockId) (depth index : ℕ)
    (slot : Slot Tree)
    (hsolid : ∀ k ∈ (drawSlot m host origin depth index pen slot).2.sites, (k.group m).Solid) :
    let drawn := drawSlot m host origin depth index pen slot
    pen.Draws origin drawn.1 drawn.2.box.rect ∧ drawn.2.Packed m := by
  obtain ⟨name, ⟨child, literal⟩ | entries⟩ := slot
  · cases child with
    | none =>
      have hsize : Rect.Solid ⟨(openRow m origin pen).cursor, (openRow m origin pen).top + m.inset, m.valueWidth,
          m.rowHeight - (m.inset + m.inset)⟩ := ⟨hm.valueWidth, Int.sub_pos_of_lt hm.rowHeight⟩
      exact ⟨Pen.draws_pastValue hm hpen rfl rfl hsize, hsize, nofun, .nil⟩
    | some t =>
      have hsize := hsolid _ (List.mem_singleton_self _)
      refine ⟨Pen.draws_pastValue hm hpen (Site.group_x m _) (Site.group_y m _) hsize, hsize, ?_,
        List.pairwise_singleton _ _⟩
      intro k hk
      rw [List.mem_singleton.1 hk]
      exact .refl _
  · let top := bodyTop m index pen
    let body := ofEntries m (origin.x + m.indent) depth top (m.minBlockWidth - m.indent) entries
    -- a body is as large as what is stacked in it, and no smaller than an empty one
    have hheight := larger_eq_max (body.1 - top) m.emptyBodyHeight
    have hempty := hm.emptyBodyHeight
    have hwide := hm.minBlockWidth
    obtain ⟨hy, hwidth, hinside, hstacked⟩ := entries_packed hm (m.minBlockWidth - m.indent) hsolid
    refine ⟨Pen.draws_body hm hpen index (hempty.le.trans (le_larger_right _ _)), ⟨?_, ?_⟩, fun k hk => ?_, hstacked⟩
    · exact lt_of_lt_of_le (by omega) hwidth
    · change 0 < larger (body.1 - top) m.emptyBodyHeight
      omega
    · obtain ⟨hx, htop, hbottom, hright⟩ := hinside k hk
      have hkx := Site.group_x m k
      refine ⟨(hkx.trans hx).ge, ?_, htop, ?_⟩
      · rw [hkx, hx]
        exact Int.add_le_add_left hright _
      · change (k.group m).y + (k.group m).height ≤ top + larger (body.1 - top) m.emptyBodyHeight
        change _ ≤ body.1 at hbottom
        omega

theorem bays_packed (hm : m.Roomy) (hpen : pen.Ready origin) (host : BlockId) (depth index : ℕ)
    {slots : List (Slot Tree)}
    (hsolid : ∀ bay ∈ bays m host origin depth index pen slots, ∀ k ∈ bay.sites, (k.group m).Solid) :
    let last := penAfter m host origin depth index pen slots
    last.Ready origin ∧ pen.width ≤ last.width ∧ pen.reach ≤ last.reach ∧
      (∀ bay ∈ bays m host origin depth index pen slots, bay.Packed m ∧ pen.Ahead bay.box.rect ∧
        bay.box.rect.Inside ⟨origin.x, origin.y, last.width, last.reach - origin.y⟩) ∧
      (bays m host origin depth index pen slots).Pairwise fun a b => a.box.rect.Apart b.box.rect := by
  induction slots generalizing index pen with
  | nil => exact ⟨hpen, le_rfl, le_rfl, nofun, .nil⟩
  | cons slot slots ih =>
    obtain ⟨hfirst, hsolid⟩ := List.forall_mem_cons.1 hsolid
    obtain ⟨hdraws, hpacked⟩ := drawSlot_packed hm hpen host depth index slot hfirst
    obtain ⟨hready, hwidth, hreach, hrest, happart⟩ := ih hdraws.ready (index + 1) hsolid
    refine ⟨hready, hdraws.width.trans hwidth, hdraws.reach.trans hreach,
      List.forall_mem_cons.2 ⟨⟨hpacked, hdraws.drawnAhead, hdraws.left, ?_, hdraws.top, ?_⟩, fun bay hbay => ?_⟩,
      List.pairwise_cons.2 ⟨fun bay hbay => ?_, happart⟩⟩
    · exact hdraws.right.trans (Int.add_le_add_left hwidth _)
    · exact (hdraws.bottom.trans hreach).trans (add_sub_cancel _ _).ge
    · obtain ⟨hbay, hahead, hinside⟩ := hrest bay hbay
      exact ⟨hbay, hdraws.ahead _ hahead, hinside⟩
    · exact hdraws.drawnPast.apart (hrest bay hbay).2.1

end Geometry

/-! ### Sites -/

/-- A tree with its block, the slots of the block and the connectors below it all in their places. -/
structure Site.Packed (m : Metrics ℤ) (s : Site ℤ) : Prop where
  solid : (s.rect m).Solid
  inside : (s.rect m).Inside (s.group m)
  bays : ∀ bay ∈ s.bays m, bay.Packed m ∧ bay.box.rect.Inside (s.rect m)
  apart : (s.bays m).Pairwise fun a b => a.box.rect.Apart b.box.rect
  connectors : ∀ k ∈ s.connectors m, (k.group m).Inside (s.group m) ∧ (s.rect m).Stacked (k.group m)
  stacked : (s.connectors m).Pairwise fun j k => (j.group m).Stacked (k.group m)

namespace Site
variable {m : Metrics ℤ}

theorem reach_le_bottom (hm : m.Roomy) (slots : List (Slot Tree)) (pen : Pen ℤ) :
    pen.reach ≤ Geometry.bottom m slots pen := by
  have hheight := hm.rowHeight
  have hinset := hm.inset
  obtain ⟨y, width, _ | row⟩ := pen
  · change y + 0 ≤ if slots.isEmpty then y + m.rowHeight else y
    split_ifs <;> omega
  · exact le_rfl

theorem packed (hm : m.Roomy) (s : Site ℤ) : s.Packed m := by
  induction s using Site.induction m with
  | step s ih =>
    have hsolid : ∀ k ∈ s.below m, (k.group m).Solid := fun k hk => (ih k hk).solid.mono (ih k hk).inside
    have hstart : (⟨s.origin.y, m.minBlockWidth, none⟩ : Pen ℤ).Ready s.origin := ⟨le_rfl, nofun⟩
    obtain ⟨hready, hwidth, hreach, hbays, hapart⟩ := Geometry.bays_packed hm hstart s.tree.id s.depth 0
      fun bay hbay k hk => hsolid k (mem_below_of_mem_bay m hbay hk)
    change m.minBlockWidth ≤ (s.pen m).width at hwidth
    change s.origin.y + 0 ≤ (s.pen m).reach at hreach
    have hend := reach_le_bottom hm s.tree.slots (s.pen m)
    have hinside : ∀ bay ∈ s.bays m, bay.Packed m ∧ bay.box.rect.Inside (s.rect m) := fun bay hbay =>
      ⟨(hbays bay hbay).1, (hbays bay hbay).2.2.trans
        ⟨le_rfl, le_rfl, le_rfl, Int.add_le_add_left (Int.sub_le_sub_right hend _) _⟩⟩
    -- a block without slots is a row high, and any other has its first slot in it
    have hrect : (s.rect m).Solid := by
      cases hslots : s.tree.slots with
      | nil =>
        have hrow := hm.rowHeight
        have hinset := hm.inset
        have hindent := hm.indent
        have hblock := hm.minBlockWidth
        have hempty : s.rect m = ⟨s.origin.x, s.origin.y, m.minBlockWidth, s.origin.y + m.rowHeight - s.origin.y⟩ := by
          rw [rect, pen, hslots]
          rfl
        rw [hempty]
        exact ⟨by change 0 < m.minBlockWidth; omega, by change 0 < s.origin.y + m.rowHeight - s.origin.y; omega⟩
      | cons slot slots =>
        obtain ⟨bay, hbay, -⟩ := exists_bay m (show s.tree.slots[0]? = some slot by rw [hslots]; rfl)
        have hbay := hinside bay (List.mem_of_getElem? hbay)
        exact hbay.1.solid.mono hbay.2
    obtain ⟨hown, hconnectors, hstacked⟩ := Geometry.chain_packed (show (s.rect m).x = s.origin.x from rfl)
      hrect.2.le fun k (hk : k ∈ s.connectors m) => hsolid k (mem_below_of_mem_connectors m hk)
    rw [← group_eq] at hown hconnectors
    exact ⟨hrect, hown, hinside, hapart, hconnectors, hstacked⟩

/-! ### The trees below a site -/

theorem inside_of_mem_bay (hm : m.Roomy) {s k : Site ℤ} {bay : Bay ℤ} (hbay : bay ∈ s.bays m) (hk : k ∈ bay.sites) :
    (k.group m).Inside (s.rect m) := by
  obtain ⟨hpacked, hinside⟩ := (s.packed hm).bays bay hbay
  exact (hpacked.inside k hk).trans hinside

theorem inside_of_mem_below (hm : m.Roomy) {s k : Site ℤ} (hk : k ∈ s.below m) :
    (k.group m).Inside (s.group m) := by
  rcases List.mem_append.1 hk with hbays | hchain
  · obtain ⟨bay, hbay, hk⟩ := List.mem_flatMap.1 hbays
    exact (inside_of_mem_bay hm hbay hk).trans (s.packed hm).inside
  · exact ((s.packed hm).connectors k hchain).1

theorem pairwise_below (hm : m.Roomy) (s : Site ℤ) :
    (s.below m).Pairwise fun j k => (j.group m).Apart (k.group m) := by
  have hpacked := s.packed hm
  refine List.pairwise_append.2 ⟨List.pairwise_flatMap.2 ⟨fun bay hbay => ?_, ?_⟩, ?_, fun j hj k hk => ?_⟩
  · exact (hpacked.bays bay hbay).1.stacked.imp fun hjk => hjk.2.apart
  · refine hpacked.apart.imp_of_mem fun {a b} ha hb hab j hj k hk => ?_
    exact hab.mono ((hpacked.bays a ha).1.inside j hj) ((hpacked.bays b hb).1.inside k hk)
  · exact hpacked.stacked.imp fun hjk => hjk.2.apart
  · obtain ⟨bay, hbay, hj⟩ := List.mem_flatMap.1 hj
    exact (hpacked.connectors k hk).2.2.apart.mono (inside_of_mem_bay hm hbay hj) (.refl _)

theorem slots_inside (hm : m.Roomy) (s : Site ℤ) :
    ∀ box ∈ (s.geometry m).slots, box.rect.Inside (s.group m) := by
  induction s using Site.induction m with
  | step s ih =>
    intro box hbox
    rcases List.mem_append.1 ((slots_geometry m s).mem_iff.1 hbox) with hbox | hbox
    · obtain ⟨bay, hbay, rfl⟩ := List.mem_map.1 hbox
      exact ((s.packed hm).bays bay hbay).2.trans (s.packed hm).inside
    · obtain ⟨k, hk, hbox⟩ := List.mem_flatMap.1 hbox
      exact (ih k hk box hbox).trans (inside_of_mem_below hm hk)

end Site
end BlockCanvas
