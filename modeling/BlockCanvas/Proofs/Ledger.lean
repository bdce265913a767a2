import BlockCanvas.Proofs.Reachable
import Mathlib.Logic.Function.Basic

/-!
The events of a canvas are a log of ownership. Who knows the owners and the free blocks before a run, and
hears nothing but the events of the run, knows the owners and the free blocks after it.
-/
namespace BlockCanvas

@[ext]
structure Ledger where
  owner : BlockId → Option Owner
  roots : List BlockId

namespace Ledger
variable {l : Ledger} {id : BlockId}

def release (l : Ledger) (id : BlockId) : Ledger :=
  ⟨Function.update l.owner id (some .free), l.roots ++ [id]⟩

def move (l : Ledger) (id : BlockId) (o : Owner) : Ledger :=
  ⟨Function.update l.owner id (some o), l.roots.filter (· != id)⟩

def forget (l : Ledger) (ids : List BlockId) : Ledger :=
  ⟨fun x => if x ∈ ids then none else l.owner x, l.roots.filter (· ∉ ids)⟩

theorem owner_release (l : Ledger) (id x : BlockId) :
    (l.release id).owner x = if x = id then some .free else l.owner x :=
  Function.update_apply ..

theorem owner_move (l : Ledger) (id : BlockId) (o : Owner) (x : BlockId) :
    (l.move id o).owner x = if x = id then some o else l.owner x :=
  Function.update_apply ..

def apply (l : Ledger) : Event → Ledger
  | .created id => l.release id
  | .nested id slot evicted => (evicted.elim l l.release).move id (.slot slot)
  | .connected id head => l.move id (.chain head)
  | .freed id => if id ∈ l.roots then l else l.release id
  | .discarded ids => l.forget ids
  | .literalEdited _ | .attributeEdited _ => l

def replay (l : Ledger) (events : List Event) : Ledger :=
  events.foldl apply l

theorem replay_append (l : Ledger) (events more : List Event) :
    l.replay (events ++ more) = (l.replay events).replay more :=
  List.foldl_append

theorem move_release (h : id ∉ l.roots) : (l.move id .free).release id = l.release id := by
  simp only [release, move, Function.update_idem, List.filter_bne_eq_self_of_not_mem h]

end Ledger

namespace Canvas
variable {c c' c'' : Canvas} {id x : BlockId} {slot : SlotId} {event : Event}

def ledger (c : Canvas) : Ledger :=
  ⟨c.owner?, c.roots⟩

/-! ### Ownership after the elementary changes -/

theorem ledger_detach (h : c.Linked none) {b : Block} (hb : c.block? id = some b) :
    (c.detach id).ledger = c.ledger.move id .free := by
  rw [detach_eq_without h hb]
  refine Ledger.ext (funext fun x => ?_) rfl
  change (c.without id).owner? x = Function.update c.owner? id (some .free) x
  by_cases hx : x = id
  · subst hx
    rw [owner?_without_self hb, Function.update_self]
  · rw [owner?_without_of_ne c hx, Function.update_of_ne hx]

theorem ledger_modify_owner {f : Block → Block} {o : Owner} (hf : ∀ b, (f b).id = b.id)
    (ho : ∀ b, (f b).owner = o) (hid : (c.owner? id).isSome) :
    (c.modify id f).ledger = ⟨Function.update c.owner? id (some o), c.roots⟩ := by
  refine Ledger.ext (funext fun x => ?_) rfl
  change (c.modify id f).owner? x = Function.update c.owner? id (some o) x
  rw [owner?_modify_owner hf ho hid, Function.update_apply]

theorem ledger_modify {f : Block → Block} (hf : ∀ b, (f b).id = b.id)
    (ho : ∀ b, (f b).owner = b.owner) (id : BlockId) : (c.modify id f).ledger = c.ledger :=
  Ledger.ext (owner?_modify hf ho id) rfl

theorem ledger_makeFree (hid : (c.owner? id).isSome) (hroot : id ∉ c.roots) (p : Point Float) :
    (c.makeFree id p).ledger = c.ledger.release id := by
  let f : Block → Block := fun b => { b with owner := .free, position := p }
  have howner := congrArg Ledger.owner
    (ledger_modify_owner (f := f) (fun _ => rfl) (fun _ => rfl) hid)
  have hr : (c.modify id f).roots.contains id = false := by
    rw [← Bool.not_eq_true, List.contains_iff_mem]
    exact hroot
  simp only [makeFree, f] at hr ⊢
  rw [hr]
  exact Ledger.ext howner rfl

theorem ledger_spawn (h : c.Linked none) (kind : Kind) (p : Point Float) :
    (c.spawn kind p).ledger = c.ledger.release c.nextId := by
  refine Ledger.ext (funext fun x => ?_) rfl
  change (c.spawn kind p).owner? x = Function.update c.owner? c.nextId (some .free) x
  rw [owner?_spawn h, Function.update_apply]

theorem ledger_detach_modify (h : c.Linked none) {b : Block} (hb : c.block? id = some b)
    {f : Block → Block} {o : Owner} (hf : ∀ b, (f b).id = b.id) (ho : ∀ b, (f b).owner = o)
    (hc : c'.ledger = (c.detach id).ledger) : (c'.modify id f).ledger = c.ledger.move id o := by
  rw [ledger_detach h hb] at hc
  have howner : c'.owner? = Function.update c.owner? id (some .free) := congrArg Ledger.owner hc
  have hroots : c'.roots = c.roots.filter (· != id) := congrArg Ledger.roots hc
  rw [ledger_modify_owner hf ho (by simp [howner]), howner, hroots, Function.update_idem]
  rfl

theorem ledger_detach_link (h : c.Linked none) {b : Block} (hb : c.block? id = some b)
    (slot : SlotId) : ((c.detach id).link id slot).ledger = c.ledger.move id (.slot slot) := by
  let g : Block → Block := Block.reslot slot.index (Content.link id)
  refine ledger_detach_modify h hb (f := fun b => { b with owner := .slot slot }) (fun _ => rfl)
    (fun _ => rfl) ?_
  exact ledger_modify (f := g) (fun _ => rfl) (fun _ => rfl) slot.host

theorem ledger_lift (h : c.Linked none) {b : Block} (hb : c.block? id = some b)
    (hroot : id ∉ c.roots) (p : Point Float) :
    ((c.detach id).makeFree id p).ledger = c.ledger.release id := by
  have hl := ledger_detach h hb
  have hid : ((c.detach id).owner? id).isSome := by
    have howner : (c.detach id).owner? = Function.update c.owner? id (some .free) :=
      congrArg Ledger.owner hl
    rw [howner, Function.update_self]
    rfl
  have hout : id ∉ (c.detach id).roots := by
    have hroots : (c.detach id).roots = c.roots.filter (· != id) := congrArg Ledger.roots hl
    simp [hroots]
  rw [ledger_makeFree hid hout, hl, Ledger.move_release hroot]

theorem notMem_roots_of_owner? (h : c.Linked none) {o : Owner} (ho : c.owner? id = some o)
    (hne : o ≠ .free) : id ∉ c.roots := by
  intro hm
  have hfree := h.owner?_of_mem_listed (o := .free) hm
  exact hne (Option.some.inj (ho.symm.trans hfree))

theorem ledger_roomy (h : c.Linked none) (id : BlockId) (slot : SlotId) :
    (c.roomy id slot).ledger = (c.occupant? id slot).elim c.ledger c.ledger.release := by
  unfold roomy
  cases ho : c.occupant? id slot with
  | none => rfl
  | some child =>
    have hown := owner?_of_occupant? h ho
    obtain ⟨b, hb, -⟩ := Linked.exists_block_of_owner? hown
    exact ledger_lift h hb (notMem_roots_of_owner? h hown (by simp)) _

theorem ledger_prune (h : c.Linked none) {b : Block} (hb : c.block? id = some b) :
    (c.prune id).ledger = c.ledger.forget (c.subtree id) := by
  refine Ledger.ext (funext fun x => ?_) ?_
  · change (c.prune id).owner? x = if x ∈ c.subtree id then none else c.owner? x
    by_cases hx : x ∈ c.subtree id
    · rw [if_pos hx, owner?_prune_of_within h hb ((mem_subtree_iff h hb).1 hx)]
    · rw [if_neg hx, owner?_prune_of_not_within h hb (mt (mem_subtree_iff h hb).2 hx)]
  · have hroots := listed_prune h hb (o := .free) (fun host hh => nomatch hh)
    refine hroots.trans (List.filter_congr fun r hr => ?_)
    -- of the free blocks only the discarded one itself can be below it
    have hiff : r ∈ c.subtree id ↔ r = id := by
      rw [mem_subtree_iff h hb]
      refine ⟨fun hw => ?_, fun he => he ▸ within_self c r⟩
      exact (eq_of_within_free (h.owner?_of_mem_listed (o := .free) hr) hw).symm
    rw [Bool.eq_iff_iff]
    simp [hiff]

/-! ### What is queued tells what happened -/

def Logged (c c' : Canvas) : Prop :=
  ∃ more, c'.events = c.events ++ more ∧ c'.ledger = c.ledger.replay more

namespace Logged

theorem refl (c : Canvas) : c.Logged c :=
  ⟨[], (List.append_nil _).symm, rfl⟩

theorem trans (h : c.Logged c') (h' : c'.Logged c'') : c.Logged c'' := by
  obtain ⟨more, he, hl⟩ := h
  obtain ⟨more', he', hl'⟩ := h'
  refine ⟨more ++ more', ?_, ?_⟩
  · rw [he', he, List.append_assoc]
  · rw [hl', hl, Ledger.replay_append]

theorem commit (he : c'.setting = c.setting) (hl : c'.ledger = c.ledger.apply event) :
    c.Logged (c'.commit event) := by
  simp only [setting, Prod.mk.injEq] at he
  exact ⟨[event], congrArg (· ++ [event]) he.2.1, hl⟩

theorem modify {f : Block → Block} (hf : ∀ b, (f b).id = b.id) (ho : ∀ b, (f b).owner = b.owner)
    (id : BlockId) (hevent : c.ledger.apply event = c.ledger) :
    c.Logged ((c.modify id f).commit event) :=
  .commit rfl ((ledger_modify hf ho id).trans hevent.symm)

end Logged

theorem Sound.ledger_attach (h : c.Sound none) {evicted : Option BlockId}
    (hok : c.attach id slot = (c', .ok evicted)) :
    c'.ledger = (evicted.elim c.ledger c.ledger.release).move id (.slot slot) := by
  obtain ⟨hcheck, rfl, rfl⟩ := attach_eq_ok hok
  obtain ⟨kind, host, s, hk, -, hs, -, -⟩ := checkAttach_eq_ok_iff.1 hcheck
  have hr := h.roomy hs id
  obtain ⟨b, hb⟩ := hr.exists_block hk
  rw [← ledger_roomy h.toLinked]
  exact ledger_detach_link hr.sound.toLinked hb slot

theorem Sound.logged_attach (h : c.Sound none) (id : BlockId) (slot : SlotId) :
    c.Logged (c.attach id slot).1 := by
  cases hcheck : c.checkAttach id slot with
  | error e =>
    rw [attach_of_error hcheck]
    exact .refl c
  | ok _ =>
    obtain ⟨kind, host, s, -, -, hs, -, -⟩ := checkAttach_eq_ok_iff.1 hcheck
    have hledger := h.ledger_attach (attach_of_ok hcheck)
    rw [attach_of_ok hcheck]
    exact .commit ((setting_detach _ _).trans (h.roomy hs id).setting) hledger

theorem Sound.logged_instantiate (h : c.Sound none) (kind : Kind) (p : Point Float) :
    c.Logged (c.instantiate kind p).1 :=
  .commit rfl (ledger_spawn h.toLinked kind p)

theorem Sound.logged_instantiateInto (h : c.Sound none) (kind : Kind) (slot : SlotId) :
    c.Logged (c.instantiateInto kind slot).1 := by
  cases hp : c.place slot with
  | error e =>
    rw [Canvas.instantiateInto, hp]
    exact .refl c
  | ok place =>
    cases hfits : canNest place (.block kind) with
    | false =>
      simp only [Canvas.instantiateInto, hp, hfits, Bool.not_false, if_true]
      exact .refl c
    | true =>
      have hcreated : c.Logged (c.hatched kind (c.standing slot.host)) :=
        ⟨[.created c.nextId], rfl, ledger_spawn h.toLinked kind _⟩
      have hattached :=
        (h.hatched kind (c.standing slot.host)).logged_attach c.nextId slot
      have hok := attach_of_ok (checkAttach_hatched h hp hfits (c.standing slot.host))
      rw [hok] at hattached
      rw [instantiateInto_eq hp hfits, hok]
      exact hcreated.trans hattached

theorem Sound.ledger_detachToFree (h : c.Sound none) {p : Point Float}
    (hok : c.detachToFree id p = (c', .ok ())) : c'.ledger = c.ledger.apply (.freed id) := by
  obtain ⟨b, hb, -, rfl⟩ := detachToFree_eq_ok hok
  have hown : c.owner? id = some b.owner := by rw [owner?, hb, Option.map_some]
  cases hfree : b.isFree with
  | true =>
    have hroot : id ∈ c.roots := by
      refine h.mem_listed_of_owner? (o := .free) ?_
      simpa [Block.isFree, hown] using hfree
    exact (ledger_modify (f := fun b => { b with position := p }) (fun _ => rfl) (fun _ => rfl) id).trans
      (if_pos hroot).symm
  | false =>
    have hroot : id ∉ c.roots :=
      notMem_roots_of_owner? h.toLinked hown (by simpa [Block.isFree] using hfree)
    exact (ledger_lift h.toLinked hb hroot p).trans (if_neg hroot).symm

theorem Sound.logged_detachToFree (h : c.Sound none) (id : BlockId) (p : Point Float) :
    c.Logged (c.detachToFree id p).1 := by
  have hstep := h.detachToFree id p
  rcases hr : c.detachToFree id p with ⟨c', e | _⟩
  · rw [hr] at hstep
    cases hstep with
    | refused => exact .refl c
  · refine ⟨[.freed id], ?_, h.ledger_detachToFree hr⟩
    obtain ⟨b, hb, -, rfl⟩ := detachToFree_eq_ok hr
    refine congrArg (· ++ [Event.freed id]) ?_
    split
    · rfl
    · exact congrArg (·.2.1) ((setting_makeFree _ _ _).trans (setting_detach c id))

theorem Sound.ledger_attachConnector (h : c.Sound none) {head : BlockId}
    (hok : c.attachConnector id head = (c', .ok ())) : c'.ledger = c.ledger.move id (.chain head) := by
  obtain ⟨b, hb, -, -, rfl⟩ := attachConnector_eq_ok hok
  let g : Block → Block := fun b => { b with chain := (c.detach id).elseLast (b.chain ++ [id]) }
  refine ledger_detach_modify h.toLinked hb (f := fun b => { b with owner := .chain head })
    (fun _ => rfl) (fun _ => rfl) ?_
  exact ledger_modify (f := g) (fun _ => rfl) (fun _ => rfl) head

theorem Sound.logged_attachConnector (h : c.Sound none) (id head : BlockId) :
    c.Logged (c.attachConnector id head).1 := by
  have hstep := h.attachConnector id head
  rcases hr : c.attachConnector id head with ⟨c', e | _⟩
  · rw [hr] at hstep
    cases hstep with
    | refused => exact .refl c
  · have hledger := h.ledger_attachConnector hr
    obtain ⟨b, hb, -, -, rfl⟩ := attachConnector_eq_ok hr
    exact .commit (setting_detach _ _) hledger

theorem Sound.logged_discard (h : c.Sound none) (id : BlockId) : c.Logged (c.discard id).1 := by
  cases hb : c.block? id with
  | none =>
    rw [Canvas.discard, hb]
    exact .refl c
  | some b =>
    rw [Canvas.discard, hb]
    exact .commit (setting_detach _ _) (ledger_prune h.toLinked hb)

theorem Retyped.logged (h : c.Retyped slot c') : c.Logged c' := by
  cases h with
  | refused => exact .refl c
  | rewritten content =>
    exact .modify (f := Block.reslot slot.index fun _ => content) (fun _ => rfl) (fun _ => rfl) slot.host rfl

theorem logged_editFace (c : Canvas) (id : BlockId) (f : Face → Face) :
    c.Logged (c.editFace id f).1 := by
  unfold editFace
  split
  · exact .refl c
  · exact .modify (f := fun b => { b with toFace := f b.toFace }) (fun _ => rfl) (fun _ => rfl) id rfl

theorem Edit.logged (h : c.Sound none) (e : Edit) : c.Logged (e.apply c).1 := by
  cases e with
  | instantiate kind p => exact h.logged_instantiate kind p
  | instantiateInto kind slot => exact h.logged_instantiateInto kind slot
  | attach id slot => exact h.logged_attach id slot
  | detachToFree id p => exact h.logged_detachToFree id p
  | attachConnector id head => exact h.logged_attachConnector id head
  | discard id => exact h.logged_discard id
  | setLiteral slot text => exact (c.retyped_setLiteral slot text).logged
  | pushLine slot text => exact (c.retyped_pushLine slot text).logged
  | removeLine slot index => exact (c.retyped_removeLine slot index).logged
  | setName id name => exact logged_editFace c id _
  | setOperator id op => exact logged_editFace c id _
  | setOverride id text => exact logged_editFace c id _

/-! ### Runs -/

inductive Call where
  | edit (e : Edit)
  | drain
  | frame (bounds : Rect Float) (discardZone : Option (Rect Float))

/-- The canvas after a run of calls, and all events there were: those that were taken on the way, then
those that are still queued. -/
def watch (c : Canvas) : List Call → Canvas × List Event
  | [] => (c, c.events)
  | .edit e :: calls => (e.apply c).1.watch calls
  | .drain :: calls =>
    let (taken, c) := c.drainEvents
    let (after, later) := c.watch calls
    (after, taken ++ later)
  | .frame bounds discardZone :: calls => { c with bounds, discardZone }.watch calls

theorem Sound.watch (h : c.Sound none) (calls : List Call) :
    (c.watch calls).1.Sound none ∧ ∃ log, (c.watch calls).2 = c.events ++ log ∧
      (c.watch calls).1.ledger = c.ledger.replay log := by
  induction calls generalizing c with
  | nil => exact ⟨h, [], (List.append_nil _).symm, rfl⟩
  | cons call calls ih =>
    cases call with
    | edit e =>
      obtain ⟨more, he, hl⟩ := e.logged h
      obtain ⟨hs, log, hlog, hledger⟩ := ih ((e.step h).sound h)
      refine ⟨hs, more ++ log, hlog.trans ?_, hledger.trans ?_⟩
      · rw [he, List.append_assoc]
      · rw [hl, Ledger.replay_append]
    | drain =>
      obtain ⟨hs, log, hlog, hledger⟩ := ih (c := c.drainEvents.2) (h.congr rfl rfl rfl)
      exact ⟨hs, log, congrArg (c.events ++ ·) hlog, hledger⟩
    | frame bounds discardZone =>
      exact ih (c := { c with bounds, discardZone }) (h.congr rfl rfl rfl)

theorem isSome_owner?_iff (h : c.Linked none) : (c.owner? x).isSome ↔ ∃ b ∈ c.blocks, b.id = x := by
  rw [owner?, Option.isSome_map, Option.isSome_iff_exists]
  exact exists_congr fun b => h.block?_iff

/-- The events that a run queues, taken one by one by somebody who knows the owners and the free blocks
before the run, tell the blocks, their owners and the free blocks after it. -/
theorem Reachable.replay_log (h : c.Reachable) (calls : List Call) :
    ∃ log, (c.watch calls).2 = c.events ++ log ∧
      (∀ x, ((c.ledger.replay log).owner x).isSome ↔ ∃ b ∈ (c.watch calls).1.blocks, b.id = x) ∧
      (∀ b ∈ (c.watch calls).1.blocks, (c.ledger.replay log).owner b.id = some b.owner) ∧
      (c.ledger.replay log).roots = (c.watch calls).1.roots := by
  obtain ⟨hs, log, hlog, hledger⟩ := h.sound.watch calls
  refine ⟨log, hlog, ?_⟩
  rw [← hledger]
  refine ⟨fun x => isSome_owner?_iff hs.toLinked, fun b hb => ?_, rfl⟩
  change (c.watch calls).1.owner? b.id = some b.owner
  rw [owner?, block?_of_mem hs.ascending hb, Option.map_some]

theorem replay_log_branching :
    let calls : List Call :=
      [.edit (.instantiate .print .origin), .edit (.instantiateInto .operation ⟨1, 0⟩),
        .edit (.instantiateInto .operation ⟨2, 0⟩), .edit (.attach 3 ⟨1, 0⟩), .drain,
        .edit (.instantiate .ifBranch .origin), .edit (.instantiate .elseBranch .origin),
        .edit (.attachConnector 5 4), .edit (.attach 1 ⟨4, 1⟩), .edit (.detachToFree 5 .origin),
        .edit (.detachToFree 5 .origin), .edit (.discard 4)]
    (empty.watch calls).1.roots = [2, 5] ∧ (empty.watch calls).2.length = 13 ∧ empty.Reachable ∧
      ∃ log, (empty.watch calls).2 = empty.events ++ log ∧
        (∀ x, ((empty.ledger.replay log).owner x).isSome ↔
          ∃ b ∈ (empty.watch calls).1.blocks, b.id = x) ∧
        (∀ b ∈ (empty.watch calls).1.blocks, (empty.ledger.replay log).owner b.id = some b.owner) ∧
        (empty.ledger.replay log).roots = (empty.watch calls).1.roots := by
  intro calls
  have hempty : empty.Reachable := Reachable.start _
  exact ⟨by decide, by decide, hempty, Reachable.replay_log hempty calls⟩

end Canvas
end BlockCanvas
