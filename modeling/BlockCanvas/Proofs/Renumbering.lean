import BlockCanvas.Proofs.LegalTree
import BlockCanvas.Proofs.Planting
import BlockCanvas.Proofs.TreeFold
import Mathlib.Data.List.Induction

/-!
What a document says of a tree, and what is planted from that. A document lists the slots of a block in
an order of its own, so the blocks are read in that order; a function that counts them along it turns the
tree into the one that is planted (`Tree.Listing.replants`). One kind of document sorts the slots by their
names (`Tree.outlined`, read along `Tree.reading`).
-/
namespace BlockCanvas

variable {β γ : Type}

namespace Slot

def insert (s : Slot β) : List (Slot β) → List (Slot β)
  | [] => [s]
  | s' :: slots =>
    if s.name < s'.name then s :: s' :: slots
    else if s.name == s'.name then s :: slots
    else s' :: insert s slots

def sort (slots : List (Slot β)) : List (Slot β) :=
  slots.foldl (fun sorted s => insert s sorted) []

theorem sort_append_singleton (slots : List (Slot β)) (s : Slot β) :
    sort (slots ++ [s]) = insert s (sort slots) := by
  simp [sort, List.foldl_append]

theorem insert_perm {s : Slot β} {slots : List (Slot β)} (h : s.name ∉ slots.map Slot.name) :
    (insert s slots).Perm (s :: slots) := by
  induction slots with
  | nil => rfl
  | cons s' slots ih =>
    rw [List.map_cons, List.mem_cons, not_or] at h
    rw [insert, if_neg (by simpa using h.1 : ¬ (s.name == s'.name) = true)]
    split
    · rfl
    · exact ((ih h.2).cons s').trans (.swap s s' slots)

theorem sort_perm {slots : List (Slot β)} (h : (slots.map Slot.name).Nodup) :
    (sort slots).Perm slots := by
  induction slots using List.reverseRecOn with
  | nil => rfl
  | append_singleton slots s ih =>
    rw [List.map_append, List.map_singleton, List.nodup_append] at h
    have hp := ih h.1
    have hn : s.name ∉ (sort slots).map Slot.name := by
      rw [(hp.map Slot.name).mem_iff]
      exact fun hm => h.2.2 _ hm _ (List.mem_singleton_self _) rfl
    rw [sort_append_singleton]
    exact (insert_perm hn).trans ((hp.cons s).trans (List.perm_append_singleton s slots).symm)

theorem map_insert (f : β → γ) (s : Slot β) (slots : List (Slot β)) :
    (insert s slots).map (Slot.map f) = insert (s.map f) (slots.map (Slot.map f)) := by
  induction slots with
  | nil => rfl
  | cons s' slots ih =>
    rw [List.map_cons, insert, insert, apply_ite (List.map (Slot.map f)),
      apply_ite (List.map (Slot.map f)), List.map_cons, List.map_cons, List.map_cons, List.map_cons, ih]
    rfl

theorem map_sort (f : β → γ) (slots : List (Slot β)) :
    (sort slots).map (Slot.map f) = sort (slots.map (Slot.map f)) := by
  induction slots using List.reverseRecOn with
  | nil => rfl
  | append_singleton slots s ih =>
    rw [sort_append_singleton, map_insert, ih, List.map_append, List.map_singleton,
      sort_append_singleton]

end Slot

namespace Template

theorem nodup_names_of_signature {kind : Kind} {slots : List (Slot β)}
    (h : slots.map Slot.signature = (Template.slots (β := β) kind).map Slot.signature) :
    (slots.map Slot.name).Nodup := by
  have he := congrArg (List.map Prod.fst) h
  rw [List.map_map, List.map_map] at he
  exact he ▸ nodup_names β kind

theorem arranged_of_perm {kind : Kind} {slots given : List (Slot β)}
    (hslots : slots.map Slot.signature = (Template.slots (β := β) kind).map Slot.signature)
    (hp : given.Perm slots) : arranged kind given = slots := by
  have hnames : (given.map Slot.name).Nodup :=
    (hp.map Slot.name).nodup_iff.2 (nodup_names_of_signature hslots)
  have hfind : ∀ {g s : Slot β}, g ∈ slots → g.signature = s.signature → s.filled given = g := by
    intro g s hg hs
    have hg' := hp.mem_iff.2 hg
    have hsome : (given.find? fun g => g.signature == s.signature).isSome :=
      List.find?_isSome.2 ⟨g, hg', by simpa using hs⟩
    obtain ⟨g', he⟩ := Option.isSome_iff_exists.1 hsome
    have hsig : g'.signature = s.signature := by simpa using List.find?_some he
    have hname : g'.name = g.name := congrArg Prod.fst (hsig.trans hs.symm)
    obtain rfl := List.inj_on_of_nodup_map hnames (List.mem_of_find?_eq_some he) hg' hname
    rw [Slot.filled, he]
    exact congrArg (fun name => (⟨name, g'.content⟩ : Slot β)) (congrArg Prod.fst hs).symm
  have hlen : (Template.slots (β := β) kind).length = slots.length := by
    simpa using congrArg List.length hslots.symm
  refine List.ext_getElem (by rw [arranged, List.length_map, hlen]) fun i hi hi' => ?_
  have hsig := congrArg (fun l => l[i]?) hslots
  simp only [List.getElem?_map, List.getElem?_eq_getElem hi', Option.map_some,
    List.getElem?_eq_getElem (hlen ▸ hi')] at hsig
  simp only [arranged, List.getElem_map]
  exact hfind (List.getElem_mem hi') (Option.some.inj hsig)

end Template

namespace Face

/-- A document does not say that a name is empty: where a fresh block has a name, it gets that. -/
def restored (face : Face) : Face :=
  if face.name.isEmpty && (face.kind == .assignment || face.kind == .forLoop) then
    { face with name := (Template.face face.kind).name }
  else face

theorem kind_restored (face : Face) : face.restored.kind = face.kind := by
  rw [restored]
  split <;> rfl

def caption (face : Face) (position : Point Float) : Caption :=
  ⟨face.kind, if face.name.isEmpty then none else some face.name, face.operator, face.override, position⟩

theorem kind_caption (face : Face) (position : Point Float) : (face.caption position).kind = face.kind :=
  rfl

theorem face_caption {face : Face} (h : face.kind = .operation → face.operator ≠ none)
    (position : Point Float) : (face.caption position).face = face.restored := by
  obtain ⟨kind, name, operator, override⟩ := face
  by_cases hname : name = ""
  · subst hname
    cases kind <;> cases operator <;> cases override <;>
      first | rfl | exact absurd rfl (h rfl)
  · cases kind <;> cases operator <;> cases override <;>
      first
        | simp [caption, Caption.face, Template.face, restored, hname]; done
        | exact absurd rfl (h rfl)

end Face

/-! ### Counting along a list -/

def Counts (f : BlockId → BlockId) (n : BlockId) (ids : List BlockId) : Prop :=
  ids.map f = List.range' n ids.length

theorem counts_cons {f : BlockId → BlockId} {n x : BlockId} {ids : List BlockId} :
    Counts f n (x :: ids) ↔ f x = n ∧ Counts f (n + 1) ids := by
  simp [Counts, List.range'_succ]

theorem counts_append {f : BlockId → BlockId} {n : BlockId} {ids ids' : List BlockId} :
    Counts f n (ids ++ ids') ↔ Counts f n ids ∧ Counts f (n + ids.length) ids' := by
  induction ids generalizing n with
  | nil => simp [Counts]
  | cons x ids ih =>
    have he : n + 1 + ids.length = n + (x :: ids).length := by
      rw [List.length_cons, Nat.add_assoc, Nat.add_comm 1]
    rw [List.cons_append, counts_cons, counts_cons, ih, and_assoc, he]

theorem counts_idxOf {ids : List BlockId} (h : ids.Nodup) (n : BlockId) :
    Counts (fun x => n + ids.idxOf x) n ids := by
  refine List.ext_getElem (by simp) fun i hi _ => ?_
  have hi' : i < ids.length := by simpa using hi
  simp [h.idxOf_getElem i hi']

namespace Tree

def recast (f : BlockId → BlockId) (g : Face → Face) : Tree → Tree :=
  fold fun id face slots chain => .node (f id) (g face) slots chain

def reading : Tree → List BlockId :=
  fold fun id _ slots chain =>
    id :: ((Slot.sort slots).flatMap (fun s => s.children.flatten) ++ chain.flatten)

def outlined : Tree → Outline :=
  fold fun _ face slots chain => .node (face.caption .origin) (Slot.sort slots) chain

variable {f : BlockId → BlockId} {t : Tree} {n : BlockId}

theorem kind_recast (t : Tree) : (t.recast f Face.restored).kind = t.kind := by
  obtain ⟨id, face, slots, chain⟩ := t
  rw [recast, fold_node]
  exact face.kind_restored

theorem kind_outlined (t : Tree) : t.outlined.kind = t.kind := by
  obtain ⟨id, face, slots, chain⟩ := t
  rw [outlined, fold_node]
  rfl

theorem reading_node (id : BlockId) (face : Face) (slots : List (Slot Tree)) (chain : List Tree) :
    (node id face slots chain).reading =
      id :: (((Slot.sort slots).flatMap Slot.children).flatMap reading ++ chain.flatMap reading) := by
  rw [reading, fold_node, ← Slot.map_sort, List.flatMap_map, List.flatMap_assoc]
  simp only [Slot.children_map, ← List.flatMap_def]

theorem outlined_node (id : BlockId) (face : Face) (slots : List (Slot Tree)) (chain : List Tree) :
    (node id face slots chain).outlined =
      .node (face.caption .origin) ((Slot.sort slots).map (Slot.map outlined)) (chain.map outlined) := by
  rw [outlined, fold_node, Slot.map_sort]

theorem recast_node (g : Face → Face) (id : BlockId) (face : Face) (slots : List (Slot Tree))
    (chain : List Tree) :
    (node id face slots chain).recast f g =
      .node (f id) (g face) (slots.map (Slot.map (recast f g))) (chain.map (recast f g)) :=
  fold_node ..

theorem elseLast_cons {ts : List Tree} (h : t.isElse = false) :
    elseLast (t :: ts) = t :: elseLast ts := by
  simp [elseLast, h]

theorem elseLast_eq_self {ts : List Tree} (h : ts.Pairwise fun t _ => t.kind ≠ .elseBranch) :
    elseLast ts = ts := by
  induction ts with
  | nil => rfl
  | cons t ts ih =>
    obtain ⟨ht, hts⟩ := List.pairwise_cons.1 h
    cases ts with
    | nil => cases he : t.isElse <;> simp [elseLast, he]
    | cons t' ts => rw [elseLast_cons (by simpa [isElse] using ht t' List.mem_cons_self), ih hts]

/-! ### What is planted -/

/-- A way to list trees: of a block its slots in some order, then its chain. The blocks are read in that
order. -/
structure Listing (out : Tree → Outline) (read : Tree → List BlockId) : Prop where
  kind : ∀ t, (out t).kind = t.kind
  exists_given : ∀ (id : BlockId) (face : Face) {slots : List (Slot Tree)} (chain : List Tree),
    (slots.map Slot.name).Nodup → ∃ given : List (Slot Tree), given.Perm slots ∧
      out (.node id face slots chain) =
        .node (face.caption .origin) (given.map (Slot.map out)) (chain.map out) ∧
      read (.node id face slots chain) =
        id :: ((given.flatMap Slot.children).flatMap read ++ chain.flatMap read)

theorem listing_outlined : Listing outlined reading where
  kind := kind_outlined
  exists_given _ _ _ _ hn := ⟨_, Slot.sort_perm hn, outlined_node .., reading_node ..⟩

theorem Legal.nodup_names {id : BlockId} {face : Face} {slots : List (Slot Tree)} {chain : List Tree}
    (h : (Tree.node id face slots chain).Legal) : (slots.map Slot.name).Nodup := by
  cases h with
  | node hslots => exact Template.nodup_names_of_signature hslots

theorem perm_children (id : BlockId) (face : Face) {slots given : List (Slot Tree)}
    {chain : List Tree} (hp : given.Perm slots) :
    (given.flatMap Slot.children ++ chain).Perm (Tree.node id face slots chain).children :=
  (hp.flatMap_right _).append_right chain

section Listing
variable {out : Tree → Outline} {read : Tree → List BlockId}

/-- Where the function counts along the tree, the tree is planted again under the numbers it is counted
by. -/
def Replants (out : Tree → Outline) (read : Tree → List BlockId) (f : BlockId → BlockId) (t : Tree) :
    Prop :=
  ∀ n, Counts f n (read t) →
    (out t).plant n (n + 1) = (t.recast f Face.restored, n + (read t).length)

theorem plantBody_listed {entries : List (Entry Tree)}
    (h : ∀ k ∈ entries.filterMap Entry.block?, Replants out read f k)
    (hc : Counts f n ((entries.filterMap Entry.block?).flatMap read)) :
    Outline.plantBody n (entries.map (Entry.map out)) =
      (entries.map (Entry.map (recast f Face.restored)),
        n + ((entries.filterMap Entry.block?).flatMap read).length) := by
  induction entries generalizing n with
  | nil => rfl
  | cons e entries ih =>
    cases e with
    | line text => simp only [List.map_cons, Entry.map, Outline.plantBody, ih h hc]; rfl
    | block t =>
      have hcons : (Entry.block t :: entries).filterMap Entry.block? =
          t :: entries.filterMap Entry.block? := rfl
      rw [hcons, List.flatMap_cons] at hc ⊢
      rw [counts_append] at hc
      have ht := h t (hcons ▸ List.mem_cons_self) n hc.1
      have hrest := ih (fun k hk => h k (hcons ▸ List.mem_cons_of_mem _ hk)) hc.2
      simp only [List.map_cons, Entry.map, Outline.plantBody, ht, hrest, List.length_append,
        Nat.add_assoc]

theorem plantSlots_listed {slots : List (Slot Tree)}
    (h : ∀ k ∈ slots.flatMap Slot.children, Replants out read f k)
    (hc : Counts f n ((slots.flatMap Slot.children).flatMap read)) :
    Outline.plantSlots n (slots.map (Slot.map out)) =
      (slots.map (Slot.map (recast f Face.restored)),
        n + ((slots.flatMap Slot.children).flatMap read).length) := by
  induction slots generalizing n with
  | nil => rfl
  | cons s slots ih =>
    rw [List.flatMap_cons, List.flatMap_append] at hc ⊢
    rw [counts_append] at hc
    have hown : ∀ k ∈ s.children, Replants out read f k := fun k hk =>
      h k (by rw [List.flatMap_cons]; exact List.mem_append_left _ hk)
    have hrest := ih (fun k hk => h k (by rw [List.flatMap_cons]; exact List.mem_append_right _ hk)) hc.2
    obtain ⟨name, content⟩ := s
    cases content with
    | value child literal =>
      cases child with
      | none =>
        simp only [List.map_cons, Slot.map, Content.map, Option.map_none, Outline.plantSlots]
        exact congrArg (fun p : List (Slot Tree) × BlockId => (_ :: p.1, p.2)) hrest
      | some t =>
        have hchild : (Slot.mk name (.value (some t) literal)).children.flatMap read = read t :=
          List.flatMap_singleton ..
        rw [hchild] at hc hrest ⊢
        have ht := hown t (List.mem_singleton_self t) n hc.1
        simp only [List.map_cons, Slot.map, Content.map, Option.map_some, Outline.plantSlots, ht, hrest,
          List.length_append, Nat.add_assoc]
    | body entries =>
      have hchildren : (Slot.mk name (.body entries)).children = entries.filterMap Entry.block? := rfl
      rw [hchildren] at hc hrest hown ⊢
      have hbody := plantBody_listed hown hc.1
      simp only [List.map_cons, Slot.map, Content.map, Outline.plantSlots, hbody, hrest,
        List.length_append, Nat.add_assoc]

theorem plantChain_listed {chain : List Tree} (h : ∀ k ∈ chain, Replants out read f k)
    (hc : Counts f n (chain.flatMap read)) :
    Outline.plantChain n (chain.map out) =
      (chain.map (recast f Face.restored), n + (chain.flatMap read).length) := by
  induction chain generalizing n with
  | nil => rfl
  | cons t ts ih =>
    rw [List.flatMap_cons, counts_append] at hc
    have ht := h t List.mem_cons_self n hc.1
    have hrest := ih (fun k hk => h k (List.mem_cons_of_mem _ hk)) hc.2
    simp only [List.map_cons, Outline.plantChain, ht, hrest, List.flatMap_cons, List.length_append,
      Nat.add_assoc]

namespace Listing

theorem reading_perm (hl : Listing out read) (h : t.Legal) : (read t).Perm t.ids := by
  induction t using Tree.induction with
  | step t ih =>
    obtain ⟨id, face, slots, chain⟩ := t
    obtain ⟨given, hp, -, hread⟩ := hl.exists_given id face chain h.nodup_names
    rw [hread, ids_eq, ← List.flatMap_append]
    refine .cons _ (((perm_children id face hp).flatMap_right _).trans ?_)
    exact List.Perm.flatMap_left _ fun k hk => ih k hk (h.of_mem_children hk)

theorem replants (hl : Listing out read) (h : t.Legal) : Replants out read f t := by
  induction t using Tree.induction with
  | step t ih =>
    obtain ⟨id, face, slots, chain⟩ := t
    obtain ⟨given, hp, hout, hread⟩ := hl.exists_given id face chain h.nodup_names
    intro n hc
    have hown : ∀ k ∈ given.flatMap Slot.children ++ chain, Replants out read f k := fun k hk =>
      have hk' := (perm_children id face hp).mem_iff.1 hk
      ih k hk' (h.of_mem_children hk')
    rw [hread, counts_cons, counts_append] at hc
    obtain ⟨hid, hcs, hcc⟩ := hc
    have hslots := plantSlots_listed (fun k hk => hown k (List.mem_append_left _ hk)) hcs
    have hchain := plantChain_listed (fun k hk => hown k (List.mem_append_right _ hk)) hcc
    cases h with
    | node hsig hop _ _ _ hlast _ _ =>
      have harranged : Template.arranged (face.caption .origin).kind
          (given.map (Slot.map (recast f Face.restored))) =
            slots.map (Slot.map (recast f Face.restored)) := by
        refine Template.arranged_of_perm ?_ (hp.map _)
        rw [Face.kind_caption, List.map_map, ← hsig]
        exact List.map_congr_left fun s _ => Slot.signature_map _ s
      have helse : elseLast (chain.map (recast f Face.restored)) =
          chain.map (recast f Face.restored) := by
        refine elseLast_eq_self (List.pairwise_map.2 (hlast.imp fun hne => ?_))
        rwa [kind_recast]
      rw [hout, recast_node, hread]
      simp only [Outline.plant, hslots, hchain, Face.face_caption hop, harranged, helse, hid]
      simp only [List.length_cons, List.length_append, Nat.add_assoc, Nat.add_comm 1]

theorem legal (hl : Listing out read) (h : t.Legal) : (out t).Legal := by
  induction t using Tree.induction with
  | step t ih =>
    obtain ⟨id, face, slots, chain⟩ := t
    obtain ⟨given, hp, hout, -⟩ := hl.exists_given id face chain h.nodup_names
    have hnames := h.nodup_names
    have hown : ∀ k ∈ (Tree.node id face slots chain).children, (out k).Legal := fun k hk =>
      ih k hk (h.of_mem_children hk)
    -- what is listed are the slots in another order, so each listed one stands for a slot
    have hslot : ∀ s ∈ given.map (Slot.map out), ∃ s' ∈ slots, s = s'.map out := by
      intro s hs
      obtain ⟨s', hs', rfl⟩ := List.mem_map.1 hs
      exact ⟨s', hp.mem_iff.1 hs', rfl⟩
    cases h with
    | node hsig hop hnest hheads hconn hlast _ _ =>
      rw [hout]
      refine .node ?_ ?_ ?_ ?_ ?_ ?_ ?_
      · rw [List.map_map]
        exact (hp.map Slot.name).nodup_iff.2 hnames
      · intro s hs
        obtain ⟨s', hs', rfl⟩ := hslot s hs
        refine .content ?_ fun o ho => ?_
        · rw [Slot.signature_map, Template.signature_eq BlockId Tree, Face.kind_caption, ← hsig]
          exact List.mem_map_of_mem hs'
        · rw [Slot.children_map] at ho
          obtain ⟨k, hk, rfl⟩ := List.mem_map.1 ho
          rw [Slot.shape_map, hl.kind]
          exact hnest s' hs' k hk
      · exact fun hne => hheads fun he => hne (by rw [he, List.map_nil])
      · intro o ho
        obtain ⟨k, hk, rfl⟩ := List.mem_map.1 ho
        rw [hl.kind]
        exact hconn k hk
      · refine List.pairwise_map.2 (hlast.imp fun hne => ?_)
        rw [hl.kind]
        exact fun he => hne he.1
      · intro s hs o ho
        obtain ⟨s', hs', rfl⟩ := hslot s hs
        rw [Slot.children_map] at ho
        obtain ⟨k, hk, rfl⟩ := List.mem_map.1 ho
        exact hown k (mem_children.2 (Or.inl ⟨s', hs', hk⟩))
      · intro o ho
        obtain ⟨k, hk, rfl⟩ := List.mem_map.1 ho
        exact hown k (mem_children.2 (Or.inr hk))

end Listing
end Listing

end Tree

/-! ### Whole documents -/

def Outline.moved (position : Point Float) : Outline → Outline
  | .node given slots chain => .node { given with position } slots chain

namespace Root
variable {out : Tree → Outline} {read : Tree → List BlockId}

def listed (out : Tree → Outline) (place : Point Float → Point Float) (r : Root) : Outline :=
  (out r.tree).moved (place r.position)

theorem kind_listed (hl : Tree.Listing out read) (place : Point Float → Point Float) (r : Root) :
    (r.listed out place).kind = r.tree.kind := by
  rw [← hl.kind, listed]
  cases out r.tree
  rfl

theorem legal_listed (hl : Tree.Listing out read) (place : Point Float → Point Float) {r : Root}
    (h : r.tree.Legal) : (r.listed out place).Legal := by
  have ho := hl.legal h
  rw [listed]
  generalize out r.tree = o at ho ⊢
  cases ho with
  | node hnames hfits hheads hconn hone hslots hchain =>
    exact .node hnames hfits hheads hconn hone hslots hchain

theorem plantAll_listed (hl : Tree.Listing out read) (place : Point Float → Point Float)
    {f : BlockId → BlockId} {roots : List Root} (h : ∀ r ∈ roots, r.tree.Legal) {n : BlockId}
    (hc : Counts f n (roots.flatMap fun r => read r.tree)) :
    Outline.plantAll n (roots.map (listed out place)) =
      roots.map fun r => ⟨place r.position, r.tree.recast f Face.restored⟩ := by
  induction roots generalizing n with
  | nil => rfl
  | cons r roots ih =>
    rw [List.flatMap_cons, counts_append] at hc
    have hplant : (r.listed out place).plant n (n + 1) =
        (r.tree.recast f Face.restored, n + (read r.tree).length) := by
      rw [← hl.replants (h r List.mem_cons_self) n hc.1, listed]
      cases out r.tree
      rfl
    have hposition : (r.listed out place).caption.position = place r.position := by
      rw [listed]
      cases out r.tree
      rfl
    have hrest := ih (fun r hr => h r (List.mem_cons_of_mem _ hr)) hc.2
    simp only [List.map_cons, Outline.plantAll, hplant, hposition, hrest]

end Root
end BlockCanvas
