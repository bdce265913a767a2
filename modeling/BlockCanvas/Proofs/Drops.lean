import BlockCanvas.Proofs.FreeBlocks

/-!
When a drop is refused. What the pointer is asked for, a slot or an `if` outside of what is dragged, leaves an
edit little to refuse: of all refusals a drop knows four, and each of them exactly if the hand or the canvas is
as the refusal says.
-/
namespace BlockCanvas

theorem eq_or_mem_of_foldl_pick {α : Type} {P : α → Prop} {pick : Option α → α → Option α}
    (hpick : ∀ best x, pick best x = best ∨ pick best x = some x ∧ P x) {xs : List α} {best : Option α} {y : α}
    (h : xs.foldl pick best = some y) : best = some y ∨ y ∈ xs ∧ P y := by
  induction xs generalizing best with
  | nil => exact Or.inl h
  | cons x xs ih =>
    rcases ih h with hx | ⟨hm, hy⟩
    · rcases hpick best x with hb | ⟨hb, hP⟩
      · exact Or.inl (hb.symm.trans hx)
      · obtain rfl := Option.some.inj (hb.symm.trans hx)
        exact Or.inr ⟨List.mem_cons_self, hP⟩
    · exact Or.inr ⟨List.mem_cons_of_mem x hm, hy⟩

theorem mem_of_foldl_pick {α : Type} {P : α → Prop} {pick : Option α → α → Option α}
    (hpick : ∀ best x, pick best x = best ∨ pick best x = some x ∧ P x) {xs : List α} {y : α}
    (h : xs.foldl pick none = some y) : y ∈ xs ∧ P y :=
  (eq_or_mem_of_foldl_pick hpick h).resolve_left nofun

theorem Geometry.skip_of_slotAt? {g : Geometry Float} {p : Point Float} {skip : SlotId → Bool}
    {slot : SlotId} (h : g.slotAt? p skip = some slot) : skip slot = false := by
  obtain ⟨box, hbox, rfl⟩ := Option.map_eq_some_iff.1 h
  refine (mem_of_foldl_pick (P := fun box => skip box.slot = false) (fun best box => ?_) hbox).2
  split
  · exact Or.inl rfl
  · rename_i hopen
    have hskip : skip box.slot = false := by simp_all
    split
    · exact Or.inr ⟨rfl, hskip⟩
    · split
      · exact Or.inr ⟨rfl, hskip⟩
      · exact Or.inl rfl

namespace Transfer

def moving : Transfer → Option BlockId
  | existing id => some id
  | template _ => none

def kind? (c : Canvas) : Transfer → Option Kind
  | existing id => c.kind? id
  | template kind => some kind

theorem kind?_of_moving {c : Canvas} {t : Transfer} {kind : Kind} (hkind : t.kind? c = some kind)
    {id : BlockId} (hid : t.moving = some id) : c.kind? id = some kind := by
  cases t with
  | template k => cases hid
  | existing x =>
    obtain rfl := Option.some.inj hid
    exact hkind

end Transfer

namespace Canvas
variable {c : Canvas}

theorem nearestChain?_eq_some {g : Geometry Float} {p : Point Float} {moving : Option BlockId}
    {head : BlockId} (h : c.nearestChain? g p moving = some head) :
    c.kind? head = some .ifBranch ∧ ∀ id, moving = some id → c.isWithin head id = false := by
  obtain ⟨⟨x, d⟩, hx, rfl⟩ := Option.map_eq_some_iff.1 h
  have hm := (mem_of_foldl_pick (P := fun _ => True) (fun best next => ?_) hx).1
  · obtain ⟨y, -, hy⟩ := List.mem_filterMap.1 hm
    split at hy
    · cases hy
    · rename_i hopen
      obtain ⟨rect, -, he⟩ := Option.map_eq_some_iff.1 hy
      obtain rfl : y = x := congrArg Prod.fst he
      simp only [Bool.or_eq_true, bne_iff_ne, ne_eq, not_or, Decidable.not_not,
        Bool.not_eq_true] at hopen
      refine ⟨hopen.1, ?_⟩
      rintro id rfl
      exact hopen.2
  · split
    · exact Or.inr ⟨rfl, trivial⟩
    · split
      · exact Or.inr ⟨rfl, trivial⟩
      · exact Or.inl rfl

def IsOpen (c : Canvas) (p : Point Float) : Prop :=
  c.bounds.contains p = true ∧ c.discardZone.any (fun zone => zone.contains p) = false

def under? (c : Canvas) (moving : Option BlockId) (p : Point Float) : Option SlotId :=
  c.geometry.slotAt? p fun slot => moving.any (c.isWithin slot.host)

def Untaken (c : Canvas) (kind : Kind) (moving : Option BlockId) (p : Point Float) : Prop :=
  ∀ slot place, c.under? moving p = some slot → c.place slot = .ok place →
    canNest place (.block kind) = false

/-- A chain has an else, and it is not the block that is moved. -/
def HasOtherElse (c : Canvas) (moving : Option BlockId) (head : BlockId) : Prop :=
  ∃ b, c.block? head = some b ∧ ∃ k ∈ b.chain, some k ≠ moving ∧ c.kind? k = some .elseBranch

theorem checkConnector_of_outside (kind : Kind) {moving : Option BlockId} {head : BlockId}
    (hif : c.kind? head = some .ifBranch) (hw : ∀ id, moving = some id → c.isWithin head id = false) :
    c.checkConnector kind moving head = .ok () ∧ ¬ (kind = .elseBranch ∧ c.HasOtherElse moving head) ∨
      c.checkConnector kind moving head = .error (.duplicateElse head) ∧ kind = .elseBranch ∧
        c.HasOtherElse moving head := by
  obtain ⟨b, hb, hkind⟩ := Option.map_eq_some_iff.1 hif
  have hmoving : moving.filter (c.isWithin head) = none := by
    cases moving with
    | none => rfl
    | some id => simp [Option.filter, hw id rfl]
  have helse : (kind == .elseBranch && b.chain.any fun k => some k != moving && c.isElse k) = true ↔
      kind = .elseBranch ∧ c.HasOtherElse moving head := by
    simp [HasOtherElse, hb, isElse]
  rw [← helse]
  simp only [checkConnector, hb, hkind, hmoving, bne_self_eq_false, Bool.false_eq_true, if_false]
  split
  · rename_i h
    exact Or.inr ⟨rfl, h⟩
  · rename_i h
    exact Or.inl ⟨rfl, h⟩

inductive Refused (c : Canvas) (p : Point Float) : Option Transfer → Refusal → Prop
  | nothing : Refused c p none .nothingDragged
  | gone {id : BlockId} : c.kind? id = none → Refused c p (some (.existing id)) (.unknownBlock id)
  | another {t : Transfer} {head : BlockId} : c.IsOpen p → t.kind? c = some .elseBranch →
      c.nearestChain? c.geometry p t.moving = some head → c.HasOtherElse t.moving head →
      Refused c p (some t) (.duplicateElse head)
  | astray {t : Transfer} : c.IsOpen p → t.kind? c = some .operation →
      c.Untaken .operation t.moving p →
      Refused c p (some t) (.rejected .operation .canvas)

end Canvas

namespace Drag
open Canvas
variable {c : Canvas} {kind : Kind} {moving : Option BlockId} {id : BlockId} {p : Point Float}

/-! ### The ends, once the pointer has been asked -/

theorem nest_of_place (h : c.Sound none) {slot : SlotId} {place : Place} (hp : c.place slot = .ok place)
    (hfits : canNest place (.block kind) = true)
    (hmoving : ∀ id, moving = some id → c.kind? id = some kind ∧ c.isWithin slot.host id = false) :
    ∃ evicted, (nest c kind moving slot).2 = .nested (moving.getD c.nextId) slot evicted := by
  cases moving with
  | none =>
    rw [nest_none, instantiateInto_eq hp hfits, attach_of_ok (checkAttach_hatched h hp hfits _)]
    exact ⟨_, rfl⟩
  | some id =>
    obtain ⟨hk, hw⟩ := hmoving id rfl
    obtain ⟨host, s, hh, hs, rfl⟩ := place_eq_ok_iff.1 hp
    rw [nest_some, attach_of_ok (checkAttach_eq_ok_iff.2 ⟨kind, host, s, hk, hh, hs, hfits, hw⟩)]
    exact ⟨_, rfl⟩

theorem connect_of_check (h : c.Sound none) (hconn : kind.isConnector = true) {head : BlockId}
    (hcheck : c.checkConnector kind moving head = .ok ())
    (hmoving : ∀ id, moving = some id → c.kind? id = some kind) :
    (connect c kind moving head).2 = .connected (moving.getD c.nextId) head := by
  cases moving with
  | none =>
    obtain ⟨c', hr⟩ := attachConnector_instantiate h hconn hcheck (c.standing head)
    rw [connect_none hcheck, hr]
    rfl
  | some id =>
    rw [connect_some hcheck, attachConnector_of_ok (hmoving id rfl) hconn hcheck]
    rfl

theorem connect_of_error {head : BlockId} {e : Refusal}
    (hcheck : c.checkConnector kind moving head = .error e) :
    connect c kind moving head = (c, .rejected e) := by
  simp [connect, hcheck]

theorem placeFree_of_fits (hfits : canNest .canvas (.block kind) = true)
    (hmoving : ∀ id, moving = some id → c.kind? id = some kind) :
    (placeFree c kind moving p).2 = .freed (moving.getD c.nextId) p := by
  cases moving with
  | none =>
    simp only [placeFree, hfits, Bool.not_true, Bool.false_eq_true, if_false]
    rfl
  | some id =>
    obtain ⟨b, hb, rfl⟩ := Option.map_eq_some_iff.1 (hmoving id rfl)
    rw [placeFree_some hfits]
    simp [detachToFree, hb, hfits, answered]

theorem placeFree_operation (c : Canvas) (moving : Option BlockId) (p : Point Float) :
    placeFree c .operation moving p = (c, .rejected (.rejected .operation .canvas)) :=
  rfl

inductive Settled (c : Canvas) (kind : Kind) (moving : Option BlockId) (p : Point Float) : Outcome → Prop
  | nested {slot : SlotId} {place : Place} {evicted : Option BlockId} : c.place slot = .ok place →
      canNest place (.block kind) = true → (∀ id, moving = some id → c.isWithin slot.host id = false) →
      Settled c kind moving p (.nested (moving.getD c.nextId) slot evicted)
  | connected {head : BlockId} : kind.isConnector = true → c.kind? head = some .ifBranch →
      (∀ id, moving = some id → c.isWithin head id = false) →
      Settled c kind moving p (.connected (moving.getD c.nextId) head)
  | freed : Settled c kind moving p (.freed (moving.getD c.nextId) p)
  | another {head : BlockId} : kind = .elseBranch → c.nearestChain? c.geometry p moving = some head →
      c.HasOtherElse moving head → Settled c kind moving p (.rejected (.duplicateElse head))
  | astray : kind = .operation → c.Untaken kind moving p →
      Settled c kind moving p (.rejected (.rejected .operation .canvas))

theorem settled_placeFree (hmoving : ∀ id, moving = some id → c.kind? id = some kind)
    (hnone : kind = .operation → c.Untaken kind moving p) :
    Settled c kind moving p (placeFree c kind moving p).2 := by
  cases hfits : canNest .canvas (.block kind) with
  | true =>
    rw [placeFree_of_fits hfits hmoving]
    exact .freed
  | false =>
    obtain rfl := Kind.isStatement_eq_false_iff.1 hfits
    rw [placeFree_operation]
    exact .astray rfl (hnone rfl)

theorem settle_of_untaken (hconn : kind.isConnector = false) (hnone : c.Untaken kind moving p) :
    settle c kind moving p = placeFree c kind moving p := by
  simp only [settle, hconn, Bool.false_eq_true, if_false]
  split
  · rename_i slot hunder
    split
    · rename_i place hplace
      rw [if_neg]
      simp [hnone slot place hunder hplace]
    · rfl
  · rfl

theorem settled_settle (h : c.Sound none) (hmoving : ∀ id, moving = some id → c.kind? id = some kind) :
    Settled c kind moving p (settle c kind moving p).2 := by
  cases hconn : kind.isConnector with
  | true =>
    cases hnear : c.nearestChain? c.geometry p moving with
    | none =>
      simp only [settle, hconn, hnear, if_true]
      exact settled_placeFree hmoving fun he => absurd he (Kind.ne_operation_of_isConnector hconn)
    | some head =>
      obtain ⟨hif, hw⟩ := nearestChain?_eq_some hnear
      simp only [settle, hconn, hnear, if_true]
      rcases checkConnector_of_outside kind hif hw with ⟨hok, -⟩ | ⟨herror, helse, hother⟩
      · rw [connect_of_check h hconn hok hmoving]
        exact .connected hconn hif hw
      · rw [connect_of_error herror]
        exact .another helse hnear hother
  | false =>
    by_cases hnone : c.Untaken kind moving p
    · rw [settle_of_untaken hconn hnone]
      exact settled_placeFree hmoving fun _ => hnone
    · simp only [Untaken, not_forall, Bool.not_eq_false] at hnone
      obtain ⟨slot, place, hunder, hplace, hfits⟩ := hnone
      -- the search passed over the slots of what is moved, so none of the checks of `attach` can fail
      have hw : ∀ id, moving = some id → c.isWithin slot.host id = false := by
        rintro id rfl
        simpa using Geometry.skip_of_slotAt? hunder
      obtain ⟨evicted, hnest⟩ := nest_of_place h hplace hfits fun id hid => ⟨hmoving id hid, hw id hid⟩
      have hsettle : settle c kind moving p = nest c kind moving slot := by
        unfold under? at hunder
        simp only [settle, hconn, hunder, hplace, hfits, Bool.false_eq_true, if_false, if_true]
      rw [hsettle, hnest]
      exact .nested hplace hfits hw

/-! ### The drop -/

theorem discard_of_kind? (h : c.kind? id = some kind) :
    (discard c id).2 = .discarded (c.subtree id) := by
  obtain ⟨b, hb, -⟩ := Option.map_eq_some_iff.1 h
  simp [discard, Canvas.discard, hb]

theorem drop_of_isOpen {t : Transfer} (hkind : t.kind? c = some kind) (hp : c.IsOpen p) :
    drop c (some t) p = settle c kind t.moving p := by
  obtain ⟨hin, hzone⟩ := hp
  cases t with
  | existing id =>
    have hid : c.kind? id = some kind := hkind
    simp [drop, hid, hin, hzone, Transfer.moving]
  | template k =>
    obtain rfl := Option.some.inj hkind
    simp [drop, hin, hzone, Transfer.moving]

theorem drop_of_not_isOpen {t : Transfer} (hkind : t.kind? c = some kind) (hp : ¬ c.IsOpen p) :
    (drop c (some t) p).2 = .abandoned ∨ ∃ removed, (drop c (some t) p).2 = .discarded removed := by
  cases hin : c.bounds.contains p with
  | false =>
    cases t with
    | existing id =>
      have hid : c.kind? id = some kind := hkind
      exact Or.inl (by simp [drop, hid, hin])
    | template k => exact Or.inl (by simp [drop, hin])
  | true =>
    have hzone : c.discardZone.any (fun zone => zone.contains p) = true :=
      Bool.of_not_eq_false fun hzone => hp ⟨hin, hzone⟩
    cases t with
    | existing id =>
      have hid : c.kind? id = some kind := hkind
      refine Or.inr ⟨c.subtree id, ?_⟩
      simp only [drop, hid, hin, hzone, Bool.not_true, Bool.false_eq_true, if_false, if_true]
      exact discard_of_kind? hid
    | template k => exact Or.inl (by simp [drop, hin, hzone])

theorem drop_of_refused {carried : Option Transfer} {e : Refusal} (h : c.Refused p carried e) :
    (drop c carried p).2 = .rejected e := by
  cases h with
  | nothing => rfl
  | gone hid => simp [drop, hid]
  | another hp hkind hnear hother =>
    obtain ⟨hif, hw⟩ := nearestChain?_eq_some hnear
    rw [drop_of_isOpen hkind hp]
    rcases checkConnector_of_outside .elseBranch hif hw with ⟨-, hnot⟩ | ⟨herror, -⟩
    · exact absurd ⟨rfl, hother⟩ hnot
    · simp [settle, Kind.isConnector, hnear, connect_of_error herror]
  | astray hp hkind hnone =>
    rw [drop_of_isOpen hkind hp, settle_of_untaken rfl hnone, placeFree_operation]

end Drag

namespace Canvas
variable {c : Canvas}

/-- What a drop may come to. A fresh block has the next id, and so nothing is part of it yet. -/
structure Dropped (c : Canvas) (p : Point Float) (carried : Option Transfer) (outcome : Outcome) :
    Prop where
  refused : ∀ e, outcome = .rejected e ↔ c.Refused p carried e
  nested : ∀ block slot evicted, outcome = .nested block slot evicted →
    ∃ t kind host s, carried = some t ∧ t.kind? c = some kind ∧ block = t.moving.getD c.nextId ∧
      c.kind? slot.host = some host ∧ c.slot? slot = some s ∧
      canNest (.slot host s.shape) (.block kind) = true ∧
      ∀ id, t.moving = some id → slot.host ∉ c.subtree id
  connected : ∀ block head, outcome = .connected block head →
    ∃ t kind, carried = some t ∧ t.kind? c = some kind ∧ block = t.moving.getD c.nextId ∧
      kind.isConnector = true ∧ c.kind? head = some .ifBranch ∧
      ∀ id, t.moving = some id → head ∉ c.subtree id

theorem Sound.dropped_open (h : c.Sound none) {t : Transfer} {kind : Kind} (hkind : t.kind? c = some kind)
    {p : Point Float} (hp : c.IsOpen p) : c.Dropped p (some t) (Drag.drop c (some t) p).2 := by
  have hback : ∀ e, c.Refused p (some t) e → (Drag.drop c (some t) p).2 = .rejected e :=
    fun _ => Drag.drop_of_refused
  have hmoving : ∀ id, t.moving = some id → c.kind? id = some kind := fun _ => Transfer.kind?_of_moving hkind
  have houtside {x : BlockId} (hw : ∀ id, t.moving = some id → c.isWithin x id = false) (id : BlockId)
      (hid : t.moving = some id) : x ∉ c.subtree id := by
    obtain ⟨b, hb, -⟩ := Option.map_eq_some_iff.1 (hmoving id hid)
    exact (isWithin_eq_false_iff h.toLinked hb).1 (hw id hid)
  rw [Drag.drop_of_isOpen hkind hp] at hback ⊢
  have hs := Drag.settled_settle (p := p) h hmoving
  generalize (Drag.settle c kind t.moving p).2 = outcome at hs hback
  refine ⟨fun e => ⟨?refused, hback e⟩, ?nested, ?connected⟩
  case refused =>
    rintro rfl
    cases hs with
    | another helse hnear hother => exact .another hp (helse ▸ hkind) hnear hother
    | astray hop hnone =>
      subst hop
      exact .astray hp hkind hnone
  case nested =>
    rintro block slot evicted rfl
    cases hs with
    | nested hplace hfits hw =>
      obtain ⟨host, s, hh, hslot, rfl⟩ := place_eq_ok_iff.1 hplace
      exact ⟨t, kind, host, s, rfl, hkind, rfl, hh, hslot, hfits, houtside hw⟩
  case connected =>
    rintro block head rfl
    cases hs with
    | connected hconn hif hw => exact ⟨t, kind, rfl, hkind, rfl, hconn, hif, houtside hw⟩

theorem dropped_of_unplaced {p : Point Float} {carried : Option Transfer} {outcome : Outcome}
    (hrefused : ∀ e, outcome = .rejected e ↔ c.Refused p carried e)
    (hnested : ∀ block slot evicted, outcome ≠ .nested block slot evicted)
    (hconnected : ∀ block head, outcome ≠ .connected block head) : c.Dropped p carried outcome :=
  ⟨hrefused, fun _ _ _ he => (hnested _ _ _ he).elim, fun _ _ he => (hconnected _ _ he).elim⟩

theorem dropped_of_refused {p : Point Float} {carried : Option Transfer} {refusal : Refusal}
    (hrefused : c.Refused p carried refusal) : c.Dropped p carried (Drag.drop c carried p).2 := by
  have hback : ∀ e, c.Refused p carried e → (Drag.drop c carried p).2 = .rejected e :=
    fun _ => Drag.drop_of_refused
  have hdrop := hback refusal hrefused
  rw [hdrop] at hback ⊢
  refine dropped_of_unplaced (fun e => ⟨?_, hback e⟩) nofun nofun
  rintro ⟨⟩
  exact hrefused

/-- Whatever is dropped anywhere on a canvas that edits lead to, only what `Refused` lists is refused, and
what is nested or connected goes to where it fits and to no part of itself. -/
theorem Reachable.dropped (h : c.Reachable) (hand : Hand) (p : Point Float) :
    c.Dropped p hand.carried (hand.drop c p).2.2 := by
  change c.Dropped p hand.carried (Drag.drop c hand.carried p).2
  cases hand.carried with
  | none => exact dropped_of_refused .nothing
  | some t =>
    cases hkind : t.kind? c with
    | none =>
      cases t with
      | template kind => cases hkind
      | existing id => exact dropped_of_refused (.gone hkind)
    | some kind =>
      by_cases hp : c.IsOpen p
      · exact h.sound.dropped_open hkind hp
      · have hback : ∀ e, c.Refused p (some t) e → (Drag.drop c (some t) p).2 = .rejected e :=
          fun _ => Drag.drop_of_refused
        rcases Drag.drop_of_not_isOpen hkind hp with hr | ⟨removed, hr⟩
        · rw [hr] at hback ⊢
          exact dropped_of_unplaced (fun e => ⟨nofun, hback e⟩) nofun nofun
        · rw [hr] at hback ⊢
          exact dropped_of_unplaced (fun e => ⟨nofun, hback e⟩) nofun nofun

theorem dropped_branching :
    let c := Edit.run empty
      [.instantiate .ifBranch ⟨100, 100⟩, .instantiate .elseBranch .origin, .attachConnector 2 1]
    let fresh : Hand := ⟨some (.template .elseBranch)⟩
    let own : Hand := ⟨some (.existing 2)⟩
    c.Reachable ∧ (fresh.drop c ⟨500, 500⟩).2.2.notice? = some (Refusal.duplicateElse 1).message ∧
      (own.drop c ⟨500, 500⟩).2.2.isCommitted = true ∧
      c.Dropped ⟨500, 500⟩ fresh.carried (fresh.drop c ⟨500, 500⟩).2.2 ∧
      c.Dropped ⟨500, 500⟩ own.carried (own.drop c ⟨500, 500⟩).2.2 := by
  intro c fresh own
  have hc : c.Reachable := Reachable.run (.start _) _
  exact ⟨hc, by decide +kernel, by decide +kernel, Reachable.dropped hc fresh _, Reachable.dropped hc own _⟩

end Canvas
end BlockCanvas
