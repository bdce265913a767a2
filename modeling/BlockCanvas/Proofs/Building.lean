import BlockCanvas.Proofs.Filling

/-!
Building is editing: a canvas that is built from a document is one that edits lead to, whatever the
document holds. What a document that is built was built by is told once, step by step
(`fillSlots_cons_eq_ok` and the lemmas beside it).
-/
namespace BlockCanvas.Document
variable {c c' : Canvas} {id : BlockId} {α β : Type}

theorem bind_eq_ok {ε : Type} {x : Except ε α} {f : α → Except ε β} {b : β} (h : x >>= f = .ok b) :
    ∃ a, x = .ok a ∧ f a = .ok b := by
  cases x with
  | error e => cases h
  | ok a => exact ⟨a, rfl, h⟩

theorem demand_eq_ok {r : Canvas × Except Refusal α} {a : α} (h : demand r = .ok (c, a)) :
    r = (c, .ok a) := by
  obtain ⟨c', e | a'⟩ := r
  · cases h
  · cases h
    rfl

/-! ### What building comes to, one step at a time -/

theorem fill_eq_ok {given : Caption} {slots : List (Slot Outline)} {chain : List Outline}
    (h : fill c id (.node given slots chain) = .ok c') :
    ∃ c₁ c₂, caption c id given = .ok c₁ ∧ fillSlots c₁ id given.kind slots = .ok c₂ ∧
      fillChain c₂ id given.position chain = .ok c' := by
  simp only [fill] at h
  obtain ⟨c₁, hcaption, h⟩ := bind_eq_ok h
  obtain ⟨c₂, hslots, hchain⟩ := bind_eq_ok h
  exact ⟨c₁, c₂, hcaption, hslots, hchain⟩

/-- The ways in which a slot takes what is given for it. A body takes an empty text, and stays as it is. -/
inductive Takes (c : Canvas) (slot : SlotId) : Shape → Content Outline → Canvas → Prop
  | literal {text : String} {c₁ : Canvas} (hset : c.setLiteral slot text = (c₁, .ok ())) :
      Takes c slot .value (.value none text) c₁
  | nothing : Takes c slot .statement (.value none "") c
  | block {o : Outline} {literal : String} {c₁ c₂ c₃ : Canvas} {k : BlockId} {evicted : Option BlockId}
      (hset : c.setLiteral slot literal = (c₁, .ok ()))
      (hinto : c₁.instantiateInto o.kind slot = (c₂, .ok (k, evicted))) (hchild : fill c₂ k o = .ok c₃) :
      Takes c slot .value (.value (some o) literal) c₃
  | body {entries : List (Entry Outline)} {c₁ : Canvas} (hentries : fillBody c slot entries = .ok c₁) :
      Takes c slot .statement (.body entries) c₁

theorem fillSlots_cons_eq_ok {kind : Kind} {name : String} {content : Content Outline}
    {slots : List (Slot Outline)} (h : fillSlots c id kind (⟨name, content⟩ :: slots) = .ok c') :
    ∃ slot shape c₁, slotFor c id kind name = .ok (slot, shape) ∧ Takes c slot shape content c₁ ∧
      fillSlots c₁ id kind slots = .ok c' := by
  cases content with
  | value child literal =>
    cases child with
    | none =>
      simp only [fillSlots] at h
      obtain ⟨⟨slot, shape⟩, hslot, htakes⟩ := bind_eq_ok h
      cases shape with
      | value =>
        obtain ⟨⟨c₁, u⟩, hset, hrest⟩ := bind_eq_ok htakes
        exact ⟨slot, .value, c₁, hslot, .literal (demand_eq_ok hset), hrest⟩
      | statement =>
        dsimp only at htakes
        split at htakes
        · next hempty =>
          obtain rfl : literal = "" := by simpa using hempty
          exact ⟨slot, .statement, c, hslot, .nothing, htakes⟩
        · cases htakes
    | some o =>
      simp only [fillSlots] at h
      obtain ⟨⟨slot, shape⟩, hslot, h⟩ := bind_eq_ok h
      cases shape with
      | value =>
        obtain ⟨⟨c₁, u⟩, hset, h⟩ := bind_eq_ok h
        obtain ⟨⟨c₂, k, evicted⟩, hinto, h⟩ := bind_eq_ok h
        obtain ⟨c₃, hchild, hrest⟩ := bind_eq_ok h
        exact ⟨slot, .value, c₃, hslot, .block (demand_eq_ok hset) (demand_eq_ok hinto) hchild, hrest⟩
      | statement => cases h
  | body entries =>
    simp only [fillSlots] at h
    obtain ⟨⟨slot, shape⟩, hslot, h⟩ := bind_eq_ok h
    cases shape with
    | value => cases h
    | statement =>
      obtain ⟨c₁, hentries, hrest⟩ := bind_eq_ok h
      exact ⟨slot, .statement, c₁, hslot, .body hentries, hrest⟩

theorem fillBody_block_eq_ok {slot : SlotId} {o : Outline} {entries : List (Entry Outline)}
    (h : fillBody c slot (.block o :: entries) = .ok c') :
    ∃ c₁ k evicted c₂, c.instantiateInto o.kind slot = (c₁, .ok (k, evicted)) ∧ fill c₁ k o = .ok c₂ ∧
      fillBody c₂ slot entries = .ok c' := by
  simp only [fillBody] at h
  obtain ⟨⟨c₁, k, evicted⟩, hinto, h⟩ := bind_eq_ok h
  obtain ⟨c₂, hchild, hrest⟩ := bind_eq_ok h
  exact ⟨c₁, k, evicted, c₂, demand_eq_ok hinto, hchild, hrest⟩

theorem fillBody_line_eq_ok {slot : SlotId} {text : String} {entries : List (Entry Outline)}
    (h : fillBody c slot (.line text :: entries) = .ok c') :
    ∃ c₁ n, c.pushLine slot text = (c₁, .ok n) ∧ fillBody c₁ slot entries = .ok c' := by
  simp only [fillBody] at h
  obtain ⟨⟨c₁, n⟩, hpush, hrest⟩ := bind_eq_ok h
  exact ⟨c₁, n, demand_eq_ok hpush, hrest⟩

theorem fillChain_cons_eq_ok {p : Point Float} {o : Outline} {chain : List Outline}
    (h : fillChain c id p (o :: chain) = .ok c') :
    o.kind.isConnector = true ∧ ∃ c₁ c₂,
      (c.instantiate o.kind p).1.attachConnector c.nextId id = (c₁, .ok ()) ∧
        fill c₁ c.nextId o = .ok c₂ ∧ fillChain c₂ id p chain = .ok c' := by
  simp only [fillChain] at h
  split at h
  · cases h
  · next hconn =>
    obtain ⟨⟨c₁, u⟩, hattach, h⟩ := bind_eq_ok h
    obtain ⟨c₂, hchild, hrest⟩ := bind_eq_ok h
    exact ⟨by simpa using hconn, c₁, c₂, demand_eq_ok hattach, hchild, hrest⟩

theorem placeAll_cons_eq_ok {o : Outline} {os : List Outline} (h : placeAll c (o :: os) = .ok c') :
    o.kind.isStatement = true ∧ ∃ c₁,
      fill (c.instantiate o.kind o.caption.position).1 c.nextId o = .ok c₁ ∧ placeAll c₁ os = .ok c' := by
  simp only [placeAll] at h
  split at h
  · cases h
  · next hstatement =>
    obtain ⟨c₁, hfill, hrest⟩ := bind_eq_ok h
    exact ⟨by simpa using hstatement, c₁, hfill, hrest⟩

/-! ### Each step is an edit -/

theorem reachable_of_edit {r : Canvas × Except Refusal α} {a : α} (h : c.Reachable) (e : Canvas.Edit)
    (hr : r = (c', .ok a)) (he : (e.apply c).1 = r.1) : c'.Reachable := by
  have hs := Canvas.Reachable.edit e h
  rwa [he, hr] at hs

theorem reachable_retouch {given : Option α} {edit : α → Face → Face} (h : c.Reachable)
    (e : α → Canvas.Edit) (he : ∀ a, ((e a).apply c).1 = (c.editFace id (edit a)).1)
    (hr : Canvas.retouch id given edit c = .ok c') : c'.Reachable := by
  cases given with
  | none =>
    obtain rfl := Except.ok.inj hr
    exact h
  | some a =>
    rw [Canvas.retouch] at hr
    cases hd : demand (c.editFace id (edit a)) with
    | error e =>
      rw [hd] at hr
      cases hr
    | ok r =>
      rw [hd] at hr
      obtain rfl := Except.ok.inj hr
      exact reachable_of_edit h (e a) (demand_eq_ok hd) (he a)

theorem reachable_caption (h : c.Reachable) {given : Caption} (hc : caption c id given = .ok c') :
    c'.Reachable := by
  rw [Canvas.caption_eq] at hc
  obtain ⟨c₁, h₁, hc⟩ := bind_eq_ok hc
  obtain ⟨c₂, h₂, h₃⟩ := bind_eq_ok hc
  have hc₁ := reachable_retouch h (fun name => .setName id name) (fun _ => rfl) h₁
  have hc₂ := reachable_retouch hc₁ (fun op => .setOperator id op) (fun _ => rfl) h₂
  exact reachable_retouch hc₂ (fun text => .setOverride id (some text)) (fun _ => rfl) h₃

mutual
theorem reachable_fill {c c' : Canvas} {id : BlockId} (h : c.Reachable) :
    ∀ o, fill c id o = .ok c' → c'.Reachable
  | .node given slots chain, hfill => by
    obtain ⟨c₁, c₂, hcaption, hslots, hchain⟩ := fill_eq_ok hfill
    exact reachable_fillChain (reachable_fillSlots (reachable_caption h hcaption) slots hslots) chain hchain
theorem reachable_fillSlots {c c' : Canvas} {id : BlockId} {kind : Kind} (h : c.Reachable) :
    ∀ slots, fillSlots c id kind slots = .ok c' → c'.Reachable
  | [], hfill => by
    obtain rfl := Except.ok.inj hfill
    exact h
  | ⟨name, .value none literal⟩ :: slots, hfill => by
    obtain ⟨slot, shape, c₁, -, htakes, hrest⟩ := fillSlots_cons_eq_ok hfill
    cases htakes with
    | literal hset =>
      exact reachable_fillSlots (reachable_of_edit h (.setLiteral slot literal) hset rfl) slots hrest
    | nothing => exact reachable_fillSlots h slots hrest
  | ⟨name, .value (some o) literal⟩ :: slots, hfill => by
    obtain ⟨slot, shape, c₃, -, htakes, hrest⟩ := fillSlots_cons_eq_ok hfill
    cases htakes with
    | block hset hinto hchild =>
      have h₁ := reachable_of_edit h (.setLiteral slot literal) hset rfl
      have h₂ := reachable_of_edit h₁ (.instantiateInto o.kind slot) hinto rfl
      exact reachable_fillSlots (reachable_fill h₂ o hchild) slots hrest
  | ⟨name, .body entries⟩ :: slots, hfill => by
    obtain ⟨slot, shape, c₁, -, htakes, hrest⟩ := fillSlots_cons_eq_ok hfill
    cases htakes with
    | body hentries => exact reachable_fillSlots (reachable_fillBody h entries hentries) slots hrest
theorem reachable_fillBody {c c' : Canvas} {slot : SlotId} (h : c.Reachable) :
    ∀ entries, fillBody c slot entries = .ok c' → c'.Reachable
  | [], hfill => by
    obtain rfl := Except.ok.inj hfill
    exact h
  | .block o :: entries, hfill => by
    obtain ⟨c₁, k, evicted, c₂, hinto, hchild, hrest⟩ := fillBody_block_eq_ok hfill
    have h₁ := reachable_of_edit h (.instantiateInto o.kind slot) hinto rfl
    exact reachable_fillBody (reachable_fill h₁ o hchild) entries hrest
  | .line text :: entries, hfill => by
    obtain ⟨c₁, n, hpush, hrest⟩ := fillBody_line_eq_ok hfill
    exact reachable_fillBody (reachable_of_edit h (.pushLine slot text) hpush rfl) entries hrest
theorem reachable_fillChain {c c' : Canvas} {id : BlockId} {p : Point Float} (h : c.Reachable) :
    ∀ chain, fillChain c id p chain = .ok c' → c'.Reachable
  | [], hfill => by
    obtain rfl := Except.ok.inj hfill
    exact h
  | o :: chain, hfill => by
    obtain ⟨-, c₁, c₂, hattach, hchild, hrest⟩ := fillChain_cons_eq_ok hfill
    have h₁ : (c.instantiate o.kind p).1.Reachable := Canvas.Reachable.edit (.instantiate o.kind p) h
    have h₂ := reachable_of_edit h₁ (.attachConnector c.nextId id) hattach rfl
    exact reachable_fillChain (reachable_fill h₂ o hchild) chain hrest
end

theorem reachable_placeAll (h : c.Reachable) {os : List Outline} (hp : placeAll c os = .ok c') :
    c'.Reachable := by
  induction os generalizing c with
  | nil =>
    obtain rfl := Except.ok.inj hp
    exact h
  | cons o os ih =>
    obtain ⟨-, c₁, hfill, hrest⟩ := placeAll_cons_eq_ok hp
    exact ih (reachable_fill (Canvas.Reachable.edit (.instantiate o.kind o.caption.position) h) o hfill)
      hrest

theorem reachable_build {d : Document} (h : d.build = .ok c) : c.Reachable := by
  rw [build_eq] at h
  obtain ⟨c₁, hplace, h⟩ := bind_eq_ok h
  obtain rfl := Except.ok.inj h
  exact .drain (reachable_placeAll (.frame _ _ (.start _)) hplace)

end BlockCanvas.Document
