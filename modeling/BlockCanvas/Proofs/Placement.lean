import BlockCanvas.Proofs.Detachment

/-!
The steps that settle a loose block: making it free, linking it into a slot, hanging it off a chain.
-/
namespace BlockCanvas

namespace Block

theorem Typed.moved {kindOf : BlockId → Option Kind} {b : Block} (h : b.Typed kindOf) (o : Owner)
    (p : Point Float) : Typed kindOf { b with owner := o, position := p } :=
  ⟨h.slots, h.operator, h.nests, h.heads, h.connectors, h.elseLast⟩

theorem Typed.reslot {kindOf : BlockId → Option Kind} {b : Block} (h : b.Typed kindOf) {index : Nat}
    {s : Slot BlockId} {f : Content BlockId → Content BlockId} (hs : b.slots[index]? = some s)
    (hshape : (f s.content).shape = s.shape)
    (hnests : ∀ k ∈ (f s.content).children, ∃ kind, kindOf k = some kind ∧
      canNest (.slot b.kind s.shape) (.block kind) = true) :
    (b.reslot index f).Typed kindOf where
  slots := by
    refine Eq.trans (List.ext_getElem? fun i => ?_) h.slots
    simp only [Block.reslot, List.getElem?_map, List.getElem?_modify]
    by_cases hi : index = i
    · subst hi
      simp [hs, Slot.signature, Slot.shape, hshape]
    · cases b.slots[i]? <;> simp [hi]
  operator := h.operator
  nests t' hmem k hm := by
    obtain ⟨i, hi⟩ := List.getElem?_of_mem hmem
    simp only [Block.reslot, List.getElem?_modify, Option.map_eq_map, Option.map_eq_some_iff] at hi
    obtain ⟨t, ht, rfl⟩ := hi
    by_cases hi : index = i
    · subst hi
      obtain rfl : s = t := Option.some.inj (hs.symm.trans ht)
      simp only [if_true, Slot.children, Slot.shape, hshape] at hm ⊢
      exact hnests k hm
    · simp only [hi, if_false] at hm ⊢
      exact h.nests t (List.mem_of_getElem? ht) k hm
  heads := h.heads
  connectors := h.connectors
  elseLast := h.elseLast

theorem Typed.reslot_link {kindOf : BlockId → Option Kind} {b : Block} (h : b.Typed kindOf)
    {id : BlockId} {index : Nat} {s : Slot BlockId} {kind : Kind} (hs : b.slots[index]? = some s)
    (hk : kindOf id = some kind) (hfits : canNest (.slot b.kind s.shape) (.block kind) = true)
    (hroom : s.shape = .value → s.children = []) :
    (b.reslot index (Content.link id)).Typed kindOf := by
  refine h.reslot hs (Content.shape_link id s.content) fun k hm => ?_
  rw [Content.children_link hroom] at hm
  rcases List.mem_append.1 hm with hm | hm
  · exact h.nests s (List.mem_of_getElem? hs) k hm
  · obtain rfl := List.mem_singleton.1 hm
    exact ⟨kind, hk, hfits⟩

end Block

namespace Canvas
variable {c c' : Canvas} {id x : BlockId} {loose : Option BlockId}

/-! ### What a change of one block does to the views -/

theorem listed_congr (hb : c'.blocks = c.blocks) (hr : c'.roots = c.roots) (o : Owner) :
    c'.listed o = c.listed o := by
  cases o <;> simp only [listed, slot?, block?, hb, hr]

theorem Linked.of_views (h : c.Linked loose)
    (hids : c'.blocks.map Block.id = c.blocks.map Block.id) (hnext : c'.nextId = c.nextId)
    (howner : c'.owner? = c.owner?) (hlisted : ∀ o, c'.listed o = c.listed o) :
    c'.Linked loose := by
  refine ⟨ascending_of_ids hids h.ascending, fun b hb => ?fresh, fun o => hlisted o ▸ h.nodup o,
    fun o x => ?link, howner ▸ h.out, fun b hb => ?grounded⟩
  case fresh =>
    obtain ⟨a, ha, he⟩ := exists_mem_of_ids hids hb
    exact hnext ▸ he ▸ h.fresh a ha
  case link =>
    rw [hlisted, howner]
    exact h.link o x
  case grounded =>
    obtain ⟨a, ha, he⟩ := exists_mem_of_ids hids hb
    exact he ▸ (h.grounded a ha).mono fun y => Or.inl (congrFun howner y)

theorem Sound.congr (h : c.Sound loose) (hb : c'.blocks = c.blocks) (hr : c'.roots = c.roots)
    (hn : c'.nextId = c.nextId) : c'.Sound loose := by
  have howner : c'.owner? = c.owner? := by
    funext x
    simp only [owner?, block?, hb]
  have hkind : c'.kind? = c.kind? := by
    funext x
    simp only [kind?, block?, hb]
  refine ⟨h.toLinked.of_views (by rw [hb]) hn howner (listed_congr hb hr), fun b hm => ?_⟩
  exact hkind ▸ h.typed b (hb ▸ hm)

theorem owner?_modify_of_ne {f : Block → Block} (hf : ∀ b, (f b).id = b.id) (hx : x ≠ id) :
    (c.modify id f).owner? x = c.owner? x := by
  rw [owner?, block?_modify_of_ne hf hx, owner?]

theorem owner?_modify_owner {f : Block → Block} {o : Owner} (hf : ∀ b, (f b).id = b.id)
    (ho : ∀ b, (f b).owner = o) (hid : (c.owner? id).isSome) (y : BlockId) :
    (c.modify id f).owner? y = if y = id then some o else c.owner? y := by
  by_cases hy : y = id
  · subst hy
    obtain ⟨b, hb⟩ : ∃ b, c.block? y = some b := by simpa [owner?, Option.isSome_iff_exists] using hid
    simp [owner?, block?_modify_self hf, hb, ho]
  · rw [owner?_modify_of_ne hf hy, if_neg hy]

theorem owner?_modify {f : Block → Block} (hf : ∀ b, (f b).id = b.id)
    (ho : ∀ b, (f b).owner = b.owner) (id : BlockId) : (c.modify id f).owner? = c.owner? := by
  funext x
  rw [owner?, block?_modify hf, owner?, Option.map_map]
  congr 1
  funext b
  simp only [Function.comp]
  split <;> simp [ho]

theorem kind?_modify {f : Block → Block} (hf : ∀ b, (f b).id = b.id)
    (hk : ∀ b, (f b).kind = b.kind) (id : BlockId) : (c.modify id f).kind? = c.kind? := by
  funext x
  rw [kind?, block?_modify hf, kind?, Option.map_map]
  congr 1
  funext b
  simp only [Function.comp]
  split <;> simp [hk]

theorem listed_modify {f : Block → Block} (hf : ∀ b, (f b).id = b.id)
    (hs : ∀ b, (f b).slots = b.slots) (hc : ∀ b, (f b).chain = b.chain) (id : BlockId) (o : Owner) :
    (c.modify id f).listed o = c.listed o := by
  cases o with
  | free => rfl
  | slot place =>
    rw [listed, slot?, block?_modify hf, listed, slot?]
    cases c.block? place.host with
    | none => rfl
    | some b => by_cases hb : b.id = id <;> simp [hb, hs]
  | chain head =>
    rw [listed, block?_modify hf, listed]
    cases c.block? head with
    | none => rfl
    | some b => by_cases hb : b.id = id <;> simp [hb, hc]

theorem typed_modify {f : Block → Block} {kindOf : BlockId → Option Kind}
    (h : c.blocks.Pairwise fun a b => a.id < b.id) (ht : ∀ b ∈ c.blocks, b.Typed kindOf)
    (hb : ∀ b, c.block? id = some b → b.Typed kindOf → (f b).Typed kindOf) :
    ∀ b ∈ (c.modify id f).blocks, b.Typed kindOf := by
  intro b hm
  obtain ⟨a, ha, rfl⟩ := List.mem_map.1 hm
  by_cases he : a.id = id
  · simpa [he] using hb a (he ▸ block?_of_mem h ha) (ht a ha)
  · simpa [he] using ht a ha

theorem ascending_modify {f : Block → Block} (hf : ∀ b, (f b).id = b.id)
    (h : c.blocks.Pairwise fun a b => a.id < b.id) :
    (c.modify id f).blocks.Pairwise fun a b => a.id < b.id :=
  ascending_map (fun b => by split <;> simp [hf]) h

/-! ### Making a block free -/

theorem Sound.makeFree (h : c.Sound (some id)) (p : Point Float) :
    (c.makeFree id p).Sound none := by
  let f : Block → Block := fun b => { b with owner := .free, position := p }
  have hroots : c.roots.contains id = false := by
    rw [← Bool.not_eq_true, List.contains_iff_mem]
    exact fun hm => ((h.link .free id).1 hm).2 rfl
  have heq : c.makeFree id p = { c.modify id f with roots := c.roots ++ [id] } := by
    have hr : (c.modify id f).roots.contains id = false := hroots
    rw [Canvas.makeFree]
    simp only [f, hr]
    rfl
  rw [heq]
  constructor
  · refine h.toLinked.settle .free (ids_modify (f := f) (fun _ => rfl) id) rfl (.refl _) ?_ ?_ ?_
    · intro o ho
      have := listed_modify (c := c) (f := f) (fun _ => rfl) (fun _ => rfl) (fun _ => rfl) id o
      cases o with
      | free => exact absurd rfl ho
      | slot place => exact this
      | chain head => exact this
    · exact owner?_modify_owner (f := f) (fun _ => rfl) (fun _ => rfl) (by simp [h.out id rfl])
    · intro host hh
      cases hh
  · have hk : (c.modify id f).kind? = c.kind? := kind?_modify (f := f) (fun _ => rfl) (fun _ => rfl) id
    intro b hb
    have ht := typed_modify (f := f) h.ascending h.typed (fun b _ ht => ht.moved .free p) b hb
    exact hk ▸ ht

/-! ### Giving a block to a host -/

theorem Sound.give (h : c.Sound (some id)) {o : Owner} {head : BlockId} {host : Block} {g : Block → Block}
    (hid : ∀ b, (g b).id = b.id) (howner : ∀ b, (g b).owner = b.owner) (hkind : ∀ b, (g b).kind = b.kind)
    (hhead : o.host? = some head) (hb : c.block? head = some host) {ks : List BlockId}
    (hlisted : ∀ o', (c.modify head g).listed o' = if o' = o then ks else c.listed o')
    (hperm : ks.Perm (c.listed o ++ [id])) (htyped : host.Typed c.kind? → (g host).Typed c.kind?)
    (hout : ¬ c.Within head id) :
    ((c.modify head g).modify id fun b => { b with owner := o }).Sound none := by
  let f : Block → Block := fun b => { b with owner := o }
  have hlists : ∀ o', ((c.modify head g).modify id f).listed o' =
      if o' = o then ks else c.listed o' := fun o' =>
    (listed_modify (f := f) (fun _ => rfl) (fun _ => rfl) (fun _ => rfl) id o').trans (hlisted o')
  have howners : (c.modify head g).owner? = c.owner? := owner?_modify hid howner head
  have hkinds : ((c.modify head g).modify id f).kind? = c.kind? :=
    (kind?_modify (f := f) (fun _ => rfl) (fun _ => rfl) id).trans (kind?_modify hid hkind head)
  constructor
  · refine h.toLinked.settle o ?_ rfl ?_ (fun o' ho => ?_) (fun y => ?_) fun x hx => ?_
    · exact (ids_modify (f := f) (fun _ => rfl) id).trans (ids_modify hid head)
    · rw [hlists, if_pos rfl]
      exact hperm
    · rw [hlists, if_neg ho]
    · rw [owner?_modify_owner (f := f) (fun _ => rfl) (fun _ => rfl) (by simp [howners, h.out id rfl]),
        howners]
    · obtain rfl : head = x := Option.some.inj (hhead.symm.trans hx)
      exact ⟨h.grounded_of_block? hb, hout⟩
  · rw [hkinds]
    refine typed_modify (f := f) (ascending_modify hid h.ascending) ?_ fun b _ ht => ht.moved o b.position
    refine typed_modify h.ascending h.typed fun b hb' ht => ?_
    obtain rfl : host = b := Option.some.inj (hb.symm.trans hb')
    exact htyped ht

/-! ### Linking a block into a slot -/

theorem listed_modifySlot {slot : SlotId} {s : Slot BlockId}
    (hs : c.slot? slot = some s) (f : Content BlockId → Content BlockId) (o : Owner) :
    (c.modifySlot slot f).listed o = if o = .slot slot then (f s.content).children else c.listed o := by
  obtain ⟨b, hb, hi⟩ := exists_of_slot? hs
  have hself : (c.modifySlot slot f).block? slot.host = some (b.reslot slot.index f) := by
    rw [modifySlot_eq, block?_modify_self (f := Block.reslot slot.index f) (fun _ => rfl), hb,
      Option.map_some]
  have hother : ∀ x, x ≠ slot.host → (c.modifySlot slot f).block? x = c.block? x := fun x hx =>
    block?_modify_of_ne (f := Block.reslot slot.index f) (fun _ => rfl) hx
  cases o with
  | free => rfl
  | slot place =>
    by_cases hp : place.host = slot.host
    · by_cases hidx : place.index = slot.index
      · obtain rfl : place = slot := by
          cases place; cases slot; simp_all
        simp [listed, slot?, hself, Block.reslot, hi, Slot.children]
      · have hne : place ≠ slot := fun he => hidx (he ▸ rfl)
        simp [listed, slot?, hp, hself, hb, Block.reslot, Ne.symm hidx, hne]
    · have hne : place ≠ slot := fun he => hp (he ▸ rfl)
      simp [listed, slot?, hother _ hp, hne]
  | chain head =>
    by_cases hp : head = slot.host
    · simp [listed, hp, hself, hb, Block.reslot]
    · simp [listed, hother _ hp]

theorem Sound.linkSlot (h : c.Sound (some id)) {slot : SlotId} {s : Slot BlockId} {host : Block}
    {kind : Kind} (hb : c.block? slot.host = some host) (hs : host.slots[slot.index]? = some s)
    (hkind : c.kind? id = some kind) (hfits : canNest (.slot host.kind s.shape) (.block kind) = true)
    (hroom : s.shape = .value → s.children = []) (hout : ¬ c.Within slot.host id) :
    (c.link id slot).Sound none := by
  have hslot : c.slot? slot = some s := by simpa [slot?, hb] using hs
  refine h.give (g := Block.reslot slot.index (Content.link id)) (fun _ => rfl) (fun _ => rfl)
    (fun _ => rfl) rfl hb (listed_modifySlot hslot (Content.link id)) ?_
    (fun ht => ht.reslot_link hs hkind hfits hroom) hout
  rw [Content.children_link hroom, listed, hslot]
  exact .refl _

/-! ### Hanging a block off a chain -/

theorem elseLast_perm (c : Canvas) (ks : List BlockId) : (c.elseLast ks).Perm ks :=
  List.perm_append_comm.trans (List.filter_append_perm c.isElse ks)

theorem elseLast_pairwise {ks : List BlockId}
    (hks : ks.Pairwise fun k _ => c.kind? k ≠ some .elseBranch)
    (hone : c.isElse id = true → ∀ k ∈ ks, c.isElse k = false) :
    (c.elseLast (ks ++ [id])).Pairwise fun k _ => c.kind? k ≠ some .elseBranch := by
  have hnot : ∀ k ∈ (ks ++ [id]).filter (fun k => !c.isElse k), c.kind? k ≠ some .elseBranch := by
    intro k hk he
    have := (List.mem_filter.1 hk).2
    simp [isElse, he] at this
  rw [elseLast, List.pairwise_append]
  refine ⟨List.pairwise_of_forall_mem_list fun a ha _ _ => hnot a ha, ?_, fun a ha _ _ => hnot a ha⟩
  rw [List.filter_append]
  by_cases hid : c.isElse id = true
  · have hempty : ks.filter c.isElse = [] := by
      rw [List.filter_eq_nil_iff]
      intro k hk
      simp [hone hid k hk]
    simp [hempty, hid]
  · simpa [hid] using hks.filter c.isElse

theorem listed_modify_chain {head : BlockId} {host : Block} (hb : c.block? head = some host)
    (f : List BlockId → List BlockId) (o : Owner) :
    (c.modify head fun b => { b with chain := f b.chain }).listed o =
      if o = .chain head then f host.chain else c.listed o := by
  let g : Block → Block := fun b => { b with chain := f b.chain }
  have hself : (c.modify head g).block? head = some (g host) := by
    rw [block?_modify_self (f := g) (fun _ => rfl), hb, Option.map_some]
  have hother : ∀ x, x ≠ head → (c.modify head g).block? x = c.block? x := fun x hx =>
    block?_modify_of_ne (f := g) (fun _ => rfl) hx
  change (c.modify head g).listed o = _
  cases o with
  | free => rfl
  | slot place =>
    by_cases hp : place.host = head
    · simp [listed, slot?, hp, hself, hb, g]
    · simp [listed, slot?, hother _ hp]
  | chain x =>
    by_cases hx : x = head
    · simp [listed, hx, hself, g]
    · simp [listed, hother _ hx, hx]

theorem Sound.linkChain (h : c.Sound (some id)) {head : BlockId} {host : Block} {kind : Kind}
    (hb : c.block? head = some host) (hif : host.kind = .ifBranch) (hkind : c.kind? id = some kind)
    (hconn : kind.isConnector = true)
    (hone : kind = .elseBranch → ∀ k ∈ host.chain, c.isElse k = false) (hout : ¬ c.Within head id) :
    ((c.modify head fun b => { b with chain := c.elseLast (b.chain ++ [id]) }).modify id fun b =>
      { b with owner := .chain head }).Sound none := by
  have hperm := c.elseLast_perm (host.chain ++ [id])
  refine h.give (g := fun b => { b with chain := c.elseLast (b.chain ++ [id]) }) (fun _ => rfl)
    (fun _ => rfl) (fun _ => rfl) rfl hb (listed_modify_chain hb fun ks => c.elseLast (ks ++ [id])) ?_
    (fun ht => ⟨ht.slots, ht.operator, ht.nests, fun _ => hif, fun k hk => ?_, ?_⟩) hout
  · rw [listed, hb]
    exact hperm
  · rcases List.mem_append.1 (hperm.mem_iff.1 hk) with hk | hk
    · exact ht.connectors k hk
    · obtain rfl := List.mem_singleton.1 hk
      exact ⟨kind, hkind, hconn⟩
  · -- where an else joins there was none
    refine elseLast_pairwise ht.elseLast fun he => hone ?_
    simpa [isElse, hkind] using he

end Canvas
end BlockCanvas
