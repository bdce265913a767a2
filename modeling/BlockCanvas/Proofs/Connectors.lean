import BlockCanvas.Proofs.Attachment
import BlockCanvas.Proofs.FreeBlocks
import BlockCanvas.Proofs.Growth
import Mathlib.Data.List.Dedup

/-!
The chain of an `if`. A connector that joins a chain leaves where it was and stands behind the elifs that are
there, and an else behind all (`Joined`), be it new to the chain or back in it. No other edit adds to a chain
or changes its order, so after a run of edits the elifs of an `if` stand, and are written, in the order in
which they joined last, and then the else (`Canvas.Reachable.branch_order`).
-/
namespace BlockCanvas

namespace Canvas
variable {c c' c'' : Canvas} {id head x : BlockId} {slot : SlotId} {moved : List BlockId}

def elifs (c : Canvas) (head : BlockId) : List BlockId :=
  (c.listed (.chain head)).filter fun k => !c.isElse k

def else? (c : Canvas) (head : BlockId) : Option BlockId :=
  (c.listed (.chain head)).find? c.isElse

/-! ### Chains -/

section Order
variable {ks : List BlockId} (hks : ks.Pairwise fun k _ => c.kind? k ≠ some .elseBranch)
include hks

theorem eq_elifs_append_else : ks = (ks.filter fun k => !c.isElse k) ++ (ks.find? c.isElse).toList := by
  induction ks with
  | nil => rfl
  | cons k ks ih =>
    obtain ⟨hk, hks⟩ := List.pairwise_cons.1 hks
    cases helse : c.isElse k with
    | false =>
      rw [List.filter_cons_of_pos (by simp [helse]), List.find?_cons_of_neg (by simp [helse]),
        List.cons_append, ← ih hks]
    | true =>
      have hnil : ks = [] :=
        List.eq_nil_iff_forall_not_mem.2 fun k' hk' => hk k' hk' (by simpa [isElse] using helse)
      rw [hnil, List.find?_cons_of_pos helse]
      simp [helse]

theorem filter_isElse : ks.filter c.isElse = (ks.find? c.isElse).toList := by
  have helse : ∀ k ∈ (ks.find? c.isElse).toList, c.isElse k = true := fun k hk =>
    List.find?_some (Option.mem_toList.1 hk)
  have helifs : (ks.filter fun k => !c.isElse k).filter c.isElse = [] := by
    simp
  have hsplit := congrArg (List.filter c.isElse) (eq_elifs_append_else hks)
  rwa [List.filter_append, helifs, List.filter_eq_self.2 helse, List.nil_append] at hsplit

theorem elseLast_join (hone : c.isElse id = true → ∀ k ∈ ks, k ≠ id → c.isElse k = false) :
    c.elseLast (ks.filter (· != id) ++ [id]) = (ks.filter fun k => !c.isElse k).filter (· != id) ++
      (if c.isElse id then [id] else id :: (ks.find? c.isElse).toList) := by
  have hcomm : (ks.filter (· != id)).filter (fun k => !c.isElse k) =
      (ks.filter fun k => !c.isElse k).filter (· != id) := by
    rw [List.filter_filter, List.filter_filter]
    exact List.filter_congr fun k _ => Bool.and_comm ..
  rw [elseLast, List.filter_append, List.filter_append, hcomm]
  cases helse : c.isElse id with
  | true =>
    have hnone : (ks.filter (· != id)).filter c.isElse = [] := by
      refine List.filter_eq_nil_iff.2 fun k hk => ?_
      obtain ⟨hmem, hne⟩ := List.mem_filter.1 hk
      simp [hone helse k hmem (by simpa using hne)]
    simp [hnone, helse]
  | false =>
    have hkept : (ks.filter (· != id)).filter c.isElse = (ks.find? c.isElse).toList := by
      rw [← filter_isElse hks, List.filter_filter]
      refine List.filter_congr fun k _ => ?_
      by_cases hk : k = id
      · simp [hk, helse]
      · simp [hk]
    simp [hkept, helse]

end Order

theorem Sound.pairwise_chain (h : c.Sound none) (head : BlockId) :
    (c.listed (.chain head)).Pairwise fun k _ => c.kind? k ≠ some .elseBranch := by
  rw [listed]
  cases hb : c.block? head with
  | none => exact .nil
  | some b => exact (h.typed b (mem_of_block? hb)).elseLast

theorem Sound.listed_chain (h : c.Sound none) (head : BlockId) :
    c.listed (.chain head) = c.elifs head ++ (c.else? head).toList :=
  eq_elifs_append_else (h.pairwise_chain head)

/-! ### Joining a chain -/

/-- What there is after a connector has joined a chain. -/
structure Joined (c : Canvas) (id head : BlockId) (c' : Canvas) : Prop where
  chain : c'.listed (.chain head) =
    (c.elifs head).filter (· != id) ++ (if c.isElse id then [id] else id :: (c.else? head).toList)
  otherChains : ∀ other, other ≠ head →
    c'.listed (.chain other) = (c.listed (.chain other)).filter (· != id)
  slots : ∀ place, c'.slot? place = (c.slot? place).map (Slot.without id)
  roots : c'.roots = c.roots.filter (· != id)
  owners : ∀ x, c'.owner? x = if x = id then some (.chain head) else c.owner? x
  positions : ∀ x, (c'.block? x).map Block.position = (c.block? x).map Block.position
  register : c'.register = c.register
  setting : c'.setting = (c.revision + 1, c.events ++ [.connected id head], c.bounds, c.discardZone)

section Join
variable (h : c.Sound none) (hok : c.attachConnector id head = (c', .ok ()))
include h hok

theorem Sound.listed_joined (o : Owner) :
    c'.listed o = if o = .chain head then
      (c.elifs head).filter (· != id) ++ (if c.isElse id then [id] else id :: (c.else? head).toList)
      else (c.listed o).filter (· != id) := by
  obtain ⟨b, hb, -, hcheck, rfl⟩ := attachConnector_eq_ok hok
  obtain ⟨host, hh, -, -, hone⟩ := checkConnector_eq_ok_iff.1 hcheck
  let g : Block → Block := fun b => { b with owner := .chain head }
  -- sorting asks for kinds only, which are the same once the block has left its owner
  have hsort : (c.detach id).elseLast = c.elseLast := by
    have hisElse : (c.detach id).isElse = c.isElse := by
      funext k
      rw [isElse, kind?_detach h.toLinked hb, isElse]
    funext ks
    rw [elseLast, hisElse, elseLast]
  have hhost : (c.detach id).block? head = some (host.without id) := by
    rw [detach_eq_without h.toLinked hb, block?_without, hh, Option.map_some]
  have hchain : c.listed (.chain head) = host.chain := by
    rw [listed, hh]
    rfl
  have hjoin : c.elseLast ((host.without id).chain ++ [id]) = (c.elifs head).filter (· != id) ++
      (if c.isElse id then [id] else id :: (c.else? head).toList) := by
    rw [elifs, else?, hchain]
    refine elseLast_join (hchain ▸ h.pairwise_chain head) fun helse k hk hne => ?_
    exact hone (by simpa [isElse, kind?, hb] using helse) k hk (by simpa using hne)
  have hcommit : ∀ d : Canvas, (d.commit (.connected id head)).listed o = d.listed o :=
    fun _ => listed_congr rfl rfl o
  rw [hcommit, listed_modify (f := g) (fun _ => rfl) (fun _ => rfl) (fun _ => rfl),
    listed_modify_chain hhost (fun ks => (c.detach id).elseLast (ks ++ [id])), hsort, hjoin,
    detach_eq_without h.toLinked hb, listed_without]

theorem Sound.slot?_joined (place : SlotId) : c'.slot? place = (c.slot? place).map (Slot.without id) := by
  obtain ⟨b, hb, -, -, rfl⟩ := attachConnector_eq_ok hok
  let f : Block → Block := fun b => { b with chain := (c.detach id).elseLast (b.chain ++ [id]) }
  let g : Block → Block := fun b => { b with owner := .chain head }
  refine (slot?_modify (f := g) (fun _ => rfl) (fun _ => rfl) id place).trans ?_
  refine (slot?_modify (f := f) (fun _ => rfl) (fun _ => rfl) head place).trans ?_
  exact slot?_detach h.toLinked hb place

theorem Sound.position_joined (x : BlockId) :
    (c'.block? x).map Block.position = (c.block? x).map Block.position := by
  obtain ⟨b, hb, -, -, rfl⟩ := attachConnector_eq_ok hok
  let f : Block → Block := fun b => { b with chain := (c.detach id).elseLast (b.chain ++ [id]) }
  let g : Block → Block := fun b => { b with owner := .chain head }
  refine (map_block?_modify (f := g) (fun _ => rfl) (fun _ => rfl) id x).trans ?_
  refine (map_block?_modify (f := f) (fun _ => rfl) (fun _ => rfl) head x).trans ?_
  rw [detach_eq_without h.toLinked hb, block?_without, Option.map_map]
  rfl

theorem Sound.joined : c.Joined id head c' := by
  have hlisted := h.listed_joined hok
  have hledger := h.ledger_attachConnector hok
  have hregister := register_attachConnector hok
  refine ⟨?chain, ?otherChains, h.slot?_joined hok, ?roots, ?owners, h.position_joined hok, hregister,
    ?setting⟩
  case chain => rw [hlisted, if_pos rfl]
  case otherChains =>
    intro other hne
    rw [hlisted, if_neg (by simpa using hne)]
  case roots => exact (hlisted .free).trans (if_neg (by simp))
  case owners =>
    intro x
    exact (congrFun (congrArg Ledger.owner hledger) x).trans (Ledger.owner_move ..)
  case setting =>
    obtain ⟨-, -, -, -, rfl⟩ := attachConnector_eq_ok hok
    have hset := setting_detach c id
    simp only [Canvas.setting, Prod.mk.injEq] at hset ⊢
    obtain ⟨hrev, hevents, hbounds, hzone⟩ := hset
    exact ⟨congrArg (· + 1) hrev, congrArg (· ++ [_]) hevents, hbounds, hzone⟩

theorem Sound.isElse_joined : c'.isElse = c.isElse := by
  funext k
  rw [isElse, (h.undisturbed_attachConnector hok).kind? (ids_attachConnector hok), isElse]

theorem Sound.elifs_joined (other : BlockId) :
    (c'.elifs other).Sublist ((c.elifs other).filter (· != id) ++ [id]) := by
  have hkept : ((c.elifs other).filter (· != id)).filter (fun k => !c.isElse k) =
      (c.elifs other).filter (· != id) :=
    List.filter_eq_self.2 fun k hk => (List.mem_filter.1 (List.mem_filter.1 hk).1).2
  have hdropped : (c.else? head).toList.filter (fun k => !c.isElse k) = [] := by
    refine List.filter_eq_nil_iff.2 fun k hk => ?_
    have helse : c.isElse k = true := List.find?_some (Option.mem_toList.1 hk)
    simp [helse]
  rw [elifs, h.listed_joined hok, h.isElse_joined hok]
  split
  · next hhead =>
    obtain rfl : other = head := by simpa using hhead
    rw [List.filter_append, hkept]
    refine List.Sublist.append_left ?_ _
    split
    · exact List.filter_sublist
    · next helse => rw [List.filter_cons_of_pos (by simpa using helse), hdropped]
  · rw [List.filter_filter, List.filter_congr fun k _ => Bool.and_comm .., ← List.filter_filter]
    exact List.sublist_append_left _ _

end Join

theorem Sound.exists_joined_iff (h : c.Sound none) (id head : BlockId) :
    (∃ c', c.attachConnector id head = (c', .ok ())) ↔
      ∃ kind, c.kind? id = some kind ∧ kind.isConnector = true ∧ c.kind? head = some .ifBranch ∧
        head ∉ c.subtree id ∧
          (kind = .elseBranch → ∀ k ∈ c.listed (.chain head), k ≠ id → c.isElse k = false) := by
  have hbelow : ∀ kind, c.kind? id = some kind → (c.isWithin head id = false ↔ head ∉ c.subtree id) := by
    intro kind hk
    obtain ⟨b, hb, -⟩ := Option.map_eq_some_iff.1 hk
    exact isWithin_eq_false_iff h.toLinked hb
  constructor
  · rintro ⟨c', hok⟩
    obtain ⟨b, hb, hconn, hcheck, -⟩ := attachConnector_eq_ok hok
    obtain ⟨host, hh, hif, hw, hone⟩ := checkConnector_eq_ok_iff.1 hcheck
    have hk : c.kind? id = some b.kind := by rw [kind?, hb, Option.map_some]
    refine ⟨b.kind, hk, hconn, by rw [kind?, hh, Option.map_some, hif], (hbelow _ hk).1 (hw id rfl), ?_⟩
    intro helse k hmem hne
    exact hone helse k ((mem_listed_chain hh).1 hmem) (by simpa using hne)
  · rintro ⟨kind, hk, hconn, hhead, hw, hone⟩
    obtain ⟨host, hh, hif⟩ := Option.map_eq_some_iff.1 hhead
    refine ⟨_, attachConnector_of_ok hk hconn (checkConnector_eq_ok_iff.2 ⟨host, hh, hif, ?_, ?_⟩)⟩
    · intro k hk'
      exact Option.some.inj hk' ▸ (hbelow kind hk).2 hw
    · intro helse k hmem hne
      exact hone helse k ((mem_listed_chain hh).2 hmem) (by simpa using hne)

/-! ### Other edits -/

structure Thinned (c c' : Canvas) : Prop where
  chains : ∀ head, (c'.listed (.chain head)).Sublist (c.listed (.chain head))
  kinds : ∀ head, ∀ k ∈ c'.listed (.chain head), c'.kind? k = c.kind? k

namespace Thinned

theorem refl (c : Canvas) : c.Thinned c :=
  ⟨fun _ => .refl _, fun _ _ _ => rfl⟩

theorem trans (h : c.Thinned c') (h' : c'.Thinned c'') : c.Thinned c'' where
  chains head := (h'.chains head).trans (h.chains head)
  kinds head k hk := (h'.kinds head k hk).trans (h.kinds head k ((h'.chains head).subset hk))

theorem elifs (h : c.Thinned c') (head : BlockId) : (c'.elifs head).Sublist (c.elifs head) := by
  have hsame : c'.elifs head = (c'.listed (.chain head)).filter fun k => !c.isElse k :=
    List.filter_congr fun k hk => by rw [isElse, h.kinds head k hk, isElse]
  rw [hsame]
  exact (h.chains head).filter _

theorem of_undisturbed (hc' : c'.Linked none) (h : c.Undisturbed moved c') (hids : c'.ids = c.ids)
    (hout : ∀ k ∈ moved, ∀ head, c'.owner? k ≠ some (.chain head)) : c.Thinned c' where
  chains head := by
    cases hb : c.block? head with
    | none =>
      have hnone : c'.block? head = none := by
        rw [Option.eq_none_iff_forall_ne_some]
        intro b' hb'
        obtain ⟨b, hsome⟩ := mem_ids_iff.1 (hids ▸ mem_ids_iff.2 ⟨b', hb'⟩)
        exact nomatch hb.symm.trans hsome
      rw [listed, hnone]
      exact List.nil_sublist _
    | some b =>
      obtain ⟨b', hb', hapart⟩ := h.blocks hb
      have hchain := (Block.kept_of_apart hapart).chain
      have hstay : b'.chain.filter (· ∉ moved) = b'.chain := by
        refine List.filter_eq_self.2 fun k hk => ?_
        have howner := hc'.owner?_of_mem_listed ((mem_listed_chain hb').2 hk)
        simpa using fun hm => hout k hm head howner
      rw [listed, listed, hb, hb', Option.map_some, Option.map_some, Option.getD_some, Option.getD_some,
        ← hstay, hchain]
      exact List.filter_sublist
  kinds head k _ := by rw [h.kind? hids]

theorem of_views (hchain : ∀ head, (c'.block? head).map Block.chain = (c.block? head).map Block.chain)
    (hkind : c'.kind? = c.kind?) : c.Thinned c' where
  chains head := by rw [listed, listed, hchain]
  kinds _ _ _ := by rw [hkind]

theorem spawn (h : c.Linked none) (kind : Kind) (p : Point Float) : c.Thinned (c.spawn kind p) := by
  have hlisted : ∀ head, (c.spawn kind p).listed (.chain head) = c.listed (.chain head) := fun head => by
    rw [listed_spawn h, if_neg (by simp)]
  refine ⟨fun head => hlisted head ▸ .refl _, fun head k hk => kind?_spawn_of_ne h kind p ?_⟩
  rintro rfl
  obtain ⟨b, hb, -⟩ := Linked.exists_block_of_owner? (h.owner?_of_mem_listed (hlisted head ▸ hk))
  exact nomatch h.block?_nextId.symm.trans hb

theorem of_step {α : Type} {r : Canvas × Except Refusal α} (h : c.Step r)
    (hok : ∀ c' a, r = (c', .ok a) → c.Thinned c') : c.Thinned r.1 := by
  cases h with
  | refused e => exact .refl c
  | committed a first more => exact hok _ a rfl

end Thinned

theorem Retyped.thinned (h : c.Retyped slot c') : c.Thinned c' := by
  cases h with
  | refused => exact .refl c
  | rewritten content =>
    let g : Block → Block := Block.reslot slot.index fun _ => content
    exact .of_views (map_block?_modify (f := g) (fun _ => rfl) (fun _ => rfl) slot.host)
      (kind?_modify (f := g) (fun _ => rfl) (fun _ => rfl) slot.host)

section Edits
variable (h : c.Sound none)
include h

theorem Sound.thinned_attach {evicted : Option BlockId} (hok : c.attach id slot = (c', .ok evicted)) :
    c.Thinned c' := by
  have howner := h.owner?_of_attach hok
  refine .of_undisturbed (hok ▸ h.attach id slot).of_ok.1.toLinked (h.undisturbed_attach hok) (ids_attach hok)
    fun k hk head => ?_
  rw [howner]
  by_cases hid : k = id
  · simp [hid]
  · have hevicted : evicted = some k := by simpa [hid, Option.mem_toList] using hk
    simp [hid, hevicted]

theorem Sound.thinned_instantiateInto {kind : Kind} {evicted : Option BlockId}
    (hok : c.instantiateInto kind slot = (c', .ok (id, evicted))) : c.Thinned c' := by
  obtain ⟨rfl, hattach⟩ := instantiateInto_eq_ok hok
  have hspawn := Thinned.spawn h.toLinked kind (c.standing slot.host)
  have hhatched : c.Thinned (c.hatched kind (c.standing slot.host)) := ⟨hspawn.chains, hspawn.kinds⟩
  exact hhatched.trans ((h.hatched kind _).thinned_attach hattach)

theorem Sound.thinned_detachToFree {p : Point Float} (hok : c.detachToFree id p = (c', .ok ())) :
    c.Thinned c' := by
  have hledger := congrFun (congrArg Ledger.owner (h.ledger_detachToFree hok)) id
  have hfree : c'.owner? id = some .free := by
    refine hledger.trans ?_
    rw [Ledger.apply]
    split
    · next hroot => exact h.owner?_of_mem_listed (o := .free) hroot
    · rw [Ledger.owner_release, if_pos rfl]
  refine .of_undisturbed (hok ▸ h.detachToFree id p).of_ok.1.toLinked (h.undisturbed_detachToFree hok)
    (ids_detachToFree hok) fun k hk head => ?_
  rw [List.mem_singleton.1 hk, hfree]
  simp

theorem Sound.thinned_discard {removed : List BlockId} (hok : c.discard id = (c', .ok removed)) :
    c.Thinned c' := by
  obtain ⟨b, hb, -, rfl⟩ := discard_eq_ok hok
  have hprune : c.Thinned (c.prune id) := by
    refine ⟨fun head => ?_, fun head k hk => ?_⟩
    · by_cases hw : c.Within head id
      · rw [listed_prune_of_within h.toLinked hb (o := .chain head) rfl hw]
        exact List.nil_sublist _
      · rw [listed_prune h.toLinked hb (o := .chain head) fun host hh => Option.some.inj hh ▸ hw]
        exact List.filter_sublist
    · exact kind?_prune_of_not_within h.toLinked hb ((mem_listed_prune h.toLinked hb (.chain head)).1 hk).2
  exact ⟨hprune.chains, hprune.kinds⟩

end Edits

theorem thinned_editFace (c : Canvas) (id : BlockId) {f : Face → Face}
    (hkind : ∀ face, (f face).kind = face.kind) : c.Thinned (c.editFace id f).1 := by
  let g : Block → Block := fun b => { b with toFace := f b.toFace }
  unfold editFace
  split
  · exact .refl c
  · exact .of_views (map_block?_modify (f := g) (fun _ => rfl) (fun _ => rfl) id)
      (kind?_modify (f := g) (fun _ => rfl) (fun b => hkind b.toFace) id)

def Edit.joining? (c : Canvas) : Edit → Option BlockId
  | .attachConnector id head =>
    match (c.attachConnector id head).2 with
    | .ok () => some id
    | .error _ => none
  | _ => none

theorem Edit.exists_joined (e : Edit) (he : e.joining? c = some id) :
    ∃ head, e = .attachConnector id head ∧ ∃ c', c.attachConnector id head = (c', .ok ()) := by
  cases e with
  | attachConnector k head =>
    rw [joining?] at he
    split at he
    · next hok =>
      obtain rfl := Option.some.inj he
      exact ⟨head, rfl, _, Prod.ext rfl hok⟩
    · exact nomatch he
  | _ => exact nomatch he

theorem Edit.thinned (h : c.Sound none) (e : Edit) (he : e.joining? c = none) : c.Thinned (e.apply c).1 := by
  cases e with
  | instantiate kind p =>
    have hspawn := Thinned.spawn h.toLinked kind p
    exact ⟨hspawn.chains, hspawn.kinds⟩
  | instantiateInto kind slot =>
    have hthinned : c.Thinned (c.instantiateInto kind slot).1 :=
      .of_step (h.instantiateInto kind slot) fun c' a hok => h.thinned_instantiateInto hok
    exact hthinned
  | attach id slot =>
    have hthinned : c.Thinned (c.attach id slot).1 :=
      .of_step (h.attach id slot) fun c' a hok => h.thinned_attach hok
    exact hthinned
  | detachToFree id p => exact .of_step (h.detachToFree id p) fun c' a hok => h.thinned_detachToFree hok
  | attachConnector id head =>
    have hthinned : c.Thinned (c.attachConnector id head).1 := by
      refine .of_step (h.attachConnector id head) fun c' a hok => ?_
      rw [joining?, hok] at he
      exact nomatch he
    exact hthinned
  | discard id =>
    have hthinned : c.Thinned (c.discard id).1 :=
      .of_step (h.discard id) fun c' a hok => h.thinned_discard hok
    exact hthinned
  | setLiteral slot text => exact (c.retyped_setLiteral slot text).thinned
  | pushLine slot text => exact (c.retyped_pushLine slot text).thinned
  | removeLine slot index => exact (c.retyped_removeLine slot index).thinned
  | setName id name => exact thinned_editFace c id fun _ => rfl
  | setOperator id op => exact thinned_editFace c id fun _ => rfl
  | setOverride id text => exact thinned_editFace c id fun _ => rfl

/-! ### Runs -/

def joins (c : Canvas) : List Edit → List BlockId
  | [] => []
  | e :: edits => (e.joining? c).toList ++ joins (e.apply c).1 edits

/-- Of equal entries only the last is left, so an entry that comes again moves to the end. -/
theorem dedup_concat (ks : List BlockId) (k : BlockId) :
    (ks ++ [k]).dedup = ks.dedup.filter (· != k) ++ [k] := by
  induction ks with
  | nil => rfl
  | cons a ks ih =>
    by_cases hmem : a ∈ ks
    · rw [List.cons_append, List.dedup_cons_of_mem (by simp [hmem]), ih, List.dedup_cons_of_mem hmem]
    · rw [List.cons_append, List.dedup_cons_of_notMem hmem]
      by_cases hk : a = k
      · rw [List.dedup_cons_of_mem (by simp [hk]), ih, List.filter_cons_of_neg (by simp [hk])]
      · rw [List.dedup_cons_of_notMem (by simp [hmem, hk]), ih, List.filter_cons_of_pos (by simpa using hk)]
        rfl

theorem Sound.elifs_edit (h : c.Sound none) (e : Edit) {joined : List BlockId}
    (hjoined : (c.elifs head).Sublist joined.dedup) :
    ((e.apply c).1.elifs head).Sublist (joined ++ (e.joining? c).toList).dedup := by
  cases he : e.joining? c with
  | none =>
    rw [Option.toList_none, List.append_nil]
    exact ((e.thinned h he).elifs head).trans hjoined
  | some id =>
    obtain ⟨other, rfl, c', hok⟩ := e.exists_joined he
    have happly : ((Edit.attachConnector id other).apply c).1 = c' := congrArg Prod.fst hok
    rw [happly, Option.toList_some, dedup_concat]
    exact (h.elifs_joined hok head).trans ((hjoined.filter _).append_right _)

theorem Sound.elifs_run (h : c.Sound none) (edits : List Edit) {joined : List BlockId}
    (hjoined : (c.elifs head).Sublist joined.dedup) :
    ((Edit.run c edits).elifs head).Sublist (joined ++ c.joins edits).dedup := by
  induction edits generalizing c joined with
  | nil => rwa [joins, List.append_nil]
  | cons e edits ih =>
    rw [joins, ← List.append_assoc]
    exact ih ((e.step h).sound h) (h.elifs_edit e hjoined)

/-! ### Written branches -/

/-- Lines that are the branches of connectors, one after another: of each its header and its own suite, in the
scope that it stands in. -/
inductive InTurn (c : Canvas) (o : Python.Options) (level : Nat) : List BlockId → List Python.Line → Prop
  | nil : InTurn c o level [] []
  | orElse {k : BlockId} {ks : List BlockId} {t : Tree} {rest : List Python.Line} (s : Python.Scope) :
      c.tree? k = some t → c.isElse k = true → InTurn c o level ks rest →
        InTurn c o level (k :: ks) (⟨level, "else:"⟩ ::
          Python.orPass (level + 1) (Python.bodyLines o (level + 1) s t.slots).2 ++ rest)
  | orIf {k : BlockId} {ks : List BlockId} {t : Tree} {rest : List Python.Line} (s : Python.Scope) :
      c.tree? k = some t → c.isElse k = false → InTurn c o level ks rest →
        InTurn c o level (k :: ks) (⟨level, "elif " ++ (Python.condition s t.slots).2 ++ ":"⟩ ::
          Python.orPass (level + 1)
            (Python.bodyLines o (level + 1) (Python.condition s t.slots).1 t.slots).2 ++ rest)

theorem inTurn_branches (h : c.Linked none) (o : Python.Options) (level : Nat) (s : Python.Scope)
    {ks : List BlockId} (hks : ∀ k ∈ ks, ∃ kind, c.kind? k = some kind ∧ kind.isConnector = true) :
    c.InTurn o level ks (Python.branches o level s (ks.filterMap c.tree?)).2 := by
  induction ks generalizing s with
  | nil =>
    rw [List.filterMap_nil, Python.branches]
    exact .nil
  | cons k ks ih =>
    obtain ⟨⟨kind, hk, hconn⟩, hks⟩ := List.forall_mem_cons.1 hks
    obtain ⟨b, hb, rfl⟩ := Option.map_eq_some_iff.1 hk
    have ht := tree?_eq h k
    rw [hb, Option.map_some] at ht
    rw [List.filterMap_cons_some ht, Python.branches]
    have hface : b.toFace.kind = b.kind := rfl
    let slots := b.slots.map (Slot.filterMap c.tree?)
    by_cases helif : b.kind = .elifBranch
    · have helse : c.isElse k = false := by simp [isElse, hk, helif]
      have hcons := InTurn.orIf s ht helse
        (ih (Python.bodyLines o (level + 1) (Python.condition s slots).1 slots).1 hks)
      simpa [hface, helif, slots, Tree.slots] using hcons
    · have helse : c.isElse k = true := by
        have hkind : b.kind = .elseBranch := by simpa [Kind.isConnector, helif] using hconn
        simp [isElse, hk, hkind]
      have hcons := InTurn.orElse s ht helse (ih (Python.bodyLines o (level + 1) s slots).1 hks)
      simpa [hface, helif, slots, Tree.slots] using hcons

theorem Sound.inTurn_statement (h : c.Sound none) {t : Tree} (ht : c.tree? head = some t)
    (hkind : t.kind = .ifBranch) (o : Python.Options) (level : Nat) (s : Python.Scope) :
    ∃ rest, (Python.statement o level s t).2 =
      ⟨level, "if " ++ (Python.condition s t.slots).2 ++ ":"⟩ ::
        Python.orPass (level + 1)
          (Python.bodyLines o (level + 1) (Python.condition s t.slots).1 t.slots).2 ++ rest ∧
      c.InTurn o level (c.listed (.chain head)) rest := by
  obtain ⟨b, hb, rfl⟩ := exists_block_of_tree? h.toLinked ht
  have hface : b.toFace.kind = .ifBranch := hkind
  have hchain : c.listed (.chain head) = b.chain := by
    rw [listed, hb]
    rfl
  have hconnectors := (h.typed b (mem_of_block? hb)).connectors
  rw [Python.statement, hchain]
  simp only [hface]
  exact ⟨_, rfl, inTurn_branches h.toLinked o level _ hconnectors⟩

/-- A connector joins a chain exactly if both are there, the chain is that of an `if` that is not below it,
and it is no second else; and then the canvas is that of `Joined`. After a run of edits the branches of an
`if` are its elifs in the order in which they joined last, those that were there first, and then its else. -/
theorem Reachable.branch_order (h : c.Reachable) :
    (∀ id head, ((∃ c', c.attachConnector id head = (c', .ok ())) ↔
        ∃ kind, c.kind? id = some kind ∧ kind.isConnector = true ∧ c.kind? head = some .ifBranch ∧
          head ∉ c.subtree id ∧
            (kind = .elseBranch → ∀ k ∈ c.listed (.chain head), k ≠ id → c.isElse k = false)) ∧
      ∀ c', c.attachConnector id head = (c', .ok ()) → c.Joined id head c') ∧
    ∀ edits c', Edit.run c edits = c' → ∀ head,
      (c'.elifs head).Sublist (c.elifs head ++ c.joins edits).dedup ∧
      ∀ t, c'.tree? head = some t → t.kind = .ifBranch → ∀ o level s,
        ∃ rest, (Python.statement o level s t).2 =
          ⟨level, "if " ++ (Python.condition s t.slots).2 ++ ":"⟩ ::
            Python.orPass (level + 1)
              (Python.bodyLines o (level + 1) (Python.condition s t.slots).1 t.slots).2 ++ rest ∧
          c'.InTurn o level (c'.elifs head ++ (c'.else? head).toList) rest := by
  refine ⟨fun id head => ⟨h.sound.exists_joined_iff id head, fun c' hok => h.sound.joined hok⟩, ?_⟩
  rintro edits c' rfl head
  have hrun : (Edit.run c edits).Sound none := (h.run edits).sound
  refine ⟨h.sound.elifs_run edits ?_, fun t ht hkind o level s => ?_⟩
  · have hnodup : (c.elifs head).Nodup := (h.sound.nodup (.chain head)).filter _
    rw [hnodup.dedup]
  · rw [← hrun.listed_chain head]
    exact hrun.inTurn_statement ht hkind o level s

theorem branch_order_rejoined :
    let c := Edit.run empty [.instantiate .ifBranch .origin, .instantiate .elifBranch .origin,
      .instantiate .elifBranch .origin, .instantiate .elseBranch .origin, .attachConnector 4 1,
      .attachConnector 2 1, .attachConnector 3 1]
    let edits : List Edit := [.attachConnector 2 1, .attachConnector 4 1, .instantiateInto .ifBranch ⟨2, 1⟩,
      .attachConnector 3 5, .attachConnector 3 1, .instantiate .elifBranch .origin, .attachConnector 6 1,
      .detachToFree 2 .origin, .discard 4]
    c.Reachable ∧ c.listed (.chain 1) = [2, 3, 4] ∧
      (∃ c', c.attachConnector 2 1 = (c', .ok ()) ∧ c.Joined 2 1 c' ∧ c'.listed (.chain 1) = [3, 2, 4]) ∧
      (Edit.run c edits).listed (.chain 1) = [3, 6] ∧ c.joins edits = [2, 4, 3, 3, 6] ∧
      ((Edit.run c edits).elifs 1).Sublist (c.elifs 1 ++ c.joins edits).dedup := by
  intro c edits
  have hc : c.Reachable := Reachable.run (.start _) _
  have horder := Reachable.branch_order hc
  have ho : (c.attachConnector 2 1).2 = .ok () := by decide
  have hok : c.attachConnector 2 1 = ((c.attachConnector 2 1).1, .ok ()) := by rw [← ho]
  exact ⟨hc, by decide, ⟨_, hok, (horder.1 2 1).2 _ hok, by decide⟩, by decide, by decide,
    (horder.2 edits _ rfl 1).1⟩

end Canvas
end BlockCanvas
