import BlockCanvas.Proofs.Population

/-!
What each edit comes to. An edit is refused, and nothing has changed, or it is committed: the canvas is
sound again, one revision on, and has an event more in its queue. `Step` says so once, and every edit of
a sound canvas is a step.
-/
namespace BlockCanvas

namespace Content

theorem children_eraseIdx {entries : List (Entry BlockId)} {index : Nat} {text : String}
    (h : entries[index]? = some (.line text)) :
    (Content.body (entries.eraseIdx index)).children = (Content.body entries).children := by
  simp only [children]
  induction entries generalizing index with
  | nil => rfl
  | cons e entries ih =>
    cases index with
    | zero =>
      obtain rfl : e = .line text := by simpa using h
      rfl
    | succ index =>
      simp only [List.eraseIdx_cons_succ, List.filterMap_cons]
      rw [ih (by simpa using h)]

end Content

namespace Block

theorem Typed.reface {kindOf : BlockId → Option Kind} {b : Block} (h : b.Typed kindOf)
    {f : Face → Face} (hkind : ∀ face, (f face).kind = face.kind)
    (hop : ∀ face, face.operator ≠ none → (f face).operator ≠ none) :
    Typed kindOf { b with toFace := f b.toFace } where
  slots := by simpa only [hkind] using h.slots
  operator hk := hop b.toFace (h.operator ((hkind b.toFace).symm.trans hk))
  nests := by simpa only [hkind] using h.nests
  heads hne := (hkind b.toFace).trans (h.heads hne)
  connectors := h.connectors
  elseLast := h.elseLast

end Block

namespace Canvas
variable {c c' : Canvas} {id x : BlockId} {slot : SlotId} {α : Type}

def setting (c : Canvas) : Nat × List Event × Rect Float × Option (Rect Float) :=
  (c.revision, c.events, c.bounds, c.discardZone)

inductive Step (c : Canvas) : Canvas × Except Refusal α → Prop
  | refused (e : Refusal) : Step c (c, .error e)
  | committed {c' : Canvas} (a : α) (first : Event) (more : List Event) : c'.Sound none →
      c'.setting = (c.revision + 1, c.events ++ first :: more, c.bounds, c.discardZone) →
      c.nextId ≤ c'.nextId → Step c (c', .ok a)

def settled (r : Canvas × Except Refusal α) : Canvas × Except Refusal Unit :=
  (r.1, r.2.map fun _ => ())

namespace Step

theorem settled {r : Canvas × Except Refusal α} (h : c.Step r) : c.Step (settled r) := by
  cases h with
  | refused e => exact .refused e
  | committed a first more hs hset hn => exact .committed () first more hs hset hn

theorem sound {r : Canvas × Except Refusal α} (hc : c.Sound none) (h : c.Step r) :
    r.1.Sound none := by
  cases h with
  | refused e => exact hc
  | committed a first more hs _ _ => exact hs

theorem of_ok {a : α} (h : c.Step (c', .ok a)) : c'.Sound none ∧ c.nextId ≤ c'.nextId ∧
    ∃ first more,
      c'.setting = (c.revision + 1, c.events ++ first :: more, c.bounds, c.discardZone) := by
  cases h with
  | committed _ first more hs hset hn => exact ⟨hs, hn, first, more, hset⟩

theorem commit {event : Event} {a : α} (h : c'.Sound none) (hs : c'.setting = c.setting)
    (hn : c.nextId ≤ c'.nextId) : c.Step (c'.commit event, .ok a) := by
  simp only [setting, Prod.mk.injEq] at hs
  obtain ⟨hr, he, hb, hz⟩ := hs
  refine .committed a event [] (h.congr rfl rfl rfl) ?_ hn
  simp [setting, Canvas.commit, hr, he, hb, hz]

end Step

/-! ### What moving blocks leaves alone -/

theorem setting_detach (c : Canvas) (id : BlockId) : (c.detach id).setting = c.setting := by
  unfold detach
  cases (c.block? id).map Block.owner with
  | none => rfl
  | some o => cases o <;> rfl

theorem nextId_detach (c : Canvas) (id : BlockId) : (c.detach id).nextId = c.nextId := by
  unfold detach
  cases (c.block? id).map Block.owner with
  | none => rfl
  | some o => cases o <;> rfl

theorem setting_makeFree (c : Canvas) (id : BlockId) (p : Point Float) :
    (c.makeFree id p).setting = c.setting := by
  simp only [makeFree]
  split <;> rfl

theorem nextId_makeFree (c : Canvas) (id : BlockId) (p : Point Float) :
    (c.makeFree id p).nextId = c.nextId := by
  simp only [makeFree]
  split <;> rfl

theorem kind?_detach (h : c.Linked none) {b : Block} (hb : c.block? id = some b) :
    (c.detach id).kind? = c.kind? := by
  rw [detach_eq_without h hb, kind?_without]

theorem slot?_detach (h : c.Linked none) {b : Block} (hb : c.block? id = some b) (slot : SlotId) :
    (c.detach id).slot? slot = (c.slot? slot).map (Slot.without id) := by
  rw [detach_eq_without h hb, slot?_without]

theorem owner?_detach (h : c.Linked none) {b : Block} (hb : c.block? id = some b) (x : BlockId) :
    (c.detach id).owner? x = c.owner? x ∨ (c.detach id).owner? x = some .free := by
  rw [detach_eq_without h hb]
  by_cases hx : x = id
  · subst hx
    exact Or.inr (owner?_without_self hb)
  · exact Or.inl (owner?_without_of_ne c hx)

theorem block?_makeFree (c : Canvas) (id : BlockId) (p : Point Float) (x : BlockId) :
    (c.makeFree id p).block? x = (c.block? x).map fun b =>
      if b.id = id then { b with owner := .free, position := p } else b := by
  let f : Block → Block := fun b => { b with owner := .free, position := p }
  have hb : (c.makeFree id p).blocks = (c.modify id f).blocks := by
    simp only [makeFree]
    split <;> rfl
  rw [block?, hb]
  exact block?_modify (f := f) (fun _ => rfl) id x

theorem isSome_block?_makeFree (c : Canvas) (id : BlockId) (p : Point Float) (x : BlockId) :
    ((c.makeFree id p).block? x).isSome = (c.block? x).isSome := by
  rw [block?_makeFree, Option.isSome_map]

theorem isSome_block?_detach (c : Canvas) (id x : BlockId) :
    ((c.detach id).block? x).isSome = (c.block? x).isSome := by
  refine (isSome_block?_modify (f := fun b => { b with owner := .free }) (fun _ => rfl) id x).trans ?_
  cases (c.block? id).map Block.owner with
  | none => rfl
  | some o =>
    cases o with
    | free => rfl
    | slot slot => exact isSome_block?_modify (by exact fun _ => rfl) slot.host x
    | chain head => exact isSome_block?_modify (by exact fun _ => rfl) head x

theorem kind?_makeFree (c : Canvas) (id : BlockId) (p : Point Float) :
    (c.makeFree id p).kind? = c.kind? := by
  funext x
  rw [kind?, block?_makeFree, kind?, Option.map_map]
  congr 1
  funext b
  by_cases hb : b.id = id <;> simp [hb]

theorem slot?_makeFree (c : Canvas) (id : BlockId) (p : Point Float) (slot : SlotId) :
    (c.makeFree id p).slot? slot = c.slot? slot := by
  rw [slot?, block?_makeFree, slot?]
  cases c.block? slot.host with
  | none => rfl
  | some b => by_cases hb : b.id = id <;> simp [hb]

theorem owner?_makeFree (c : Canvas) (id : BlockId) (p : Point Float) (x : BlockId) :
    (c.makeFree id p).owner? x = c.owner? x ∨ (c.makeFree id p).owner? x = some .free := by
  rw [owner?, block?_makeFree, owner?]
  cases c.block? x with
  | none => exact Or.inl rfl
  | some b => by_cases hb : b.id = id <;> simp [hb]

/-! ### The checks -/

theorem place_eq_ok_iff {place : Place} : c.place slot = .ok place ↔
    ∃ host s, c.kind? slot.host = some host ∧ c.slot? slot = some s ∧
      place = .slot host s.shape := by
  unfold Canvas.place kind? slot?
  cases c.block? slot.host with
  | none => simp
  | some b => cases hs : b.slots[slot.index]? <;> simp [hs, eq_comm]

theorem checkAttach_eq_ok_iff : c.checkAttach id slot = .ok () ↔
    ∃ kind host s, c.kind? id = some kind ∧ c.kind? slot.host = some host ∧
      c.slot? slot = some s ∧ canNest (.slot host s.shape) (.block kind) = true ∧
      c.isWithin slot.host id = false := by
  unfold checkAttach
  cases hk : c.kind? id with
  | none => simp
  | some kind =>
    cases hp : c.place slot with
    | error e =>
      simp only [reduceCtorEq, false_iff]
      rintro ⟨_, host, s, -, hh, hs, -, -⟩
      simp [place_eq_ok_iff.2 ⟨host, s, hh, hs, rfl⟩] at hp
    | ok place =>
      obtain ⟨host, s, hh, hs, rfl⟩ := place_eq_ok_iff.1 hp
      cases hn : canNest (.slot host s.shape) (.block kind) <;> simp [hh, hs, hn]

theorem checkConnector_eq_ok_iff {kind : Kind} {moving : Option BlockId} {head : BlockId} :
    c.checkConnector kind moving head = .ok () ↔
      ∃ b, c.block? head = some b ∧ b.kind = .ifBranch ∧
        (∀ id, moving = some id → c.isWithin head id = false) ∧
        (kind = .elseBranch → ∀ k ∈ b.chain, some k ≠ moving → c.isElse k = false) := by
  unfold checkConnector
  cases hb : c.block? head with
  | none => simp
  | some b =>
    by_cases hif : b.kind = .ifBranch
    · cases moving with
      | none => cases kind <;> simp [hif]
      | some id =>
        cases hw : c.isWithin head id <;> cases kind <;> simp [hif, Option.filter, hw]
    · simp [hif]

/-! ### Attaching -/

theorem isSome_block?_roomy (c : Canvas) (id : BlockId) (slot : SlotId) (x : BlockId) :
    ((c.roomy id slot).block? x).isSome = (c.block? x).isSome := by
  unfold roomy
  cases c.occupant? id slot with
  | none => rfl
  | some child => exact (isSome_block?_makeFree _ child _ x).trans (isSome_block?_detach c child x)

/-- What passed the checks is attached: neither making room nor taking the block out of its place loses
the host. -/
theorem attach_of_ok (h : c.checkAttach id slot = .ok ()) :
    c.attach id slot =
      ((((c.roomy id slot).detach id).link id slot).commit (.nested id slot (c.occupant? id slot)),
        .ok (c.occupant? id slot)) := by
  obtain ⟨-, host, -, -, hh, -⟩ := checkAttach_eq_ok_iff.1 h
  have hthere : (((c.roomy id slot).detach id).block? slot.host).isSome := by
    rw [isSome_block?_detach, isSome_block?_roomy, ← Option.isSome_map]
    exact Option.isSome_of_mem hh
  obtain ⟨b, hb⟩ := Option.isSome_iff_exists.1 hthere
  simp only [attach, h, hb]

theorem attach_of_error {e : Refusal} (h : c.checkAttach id slot = .error e) :
    c.attach id slot = (c, .error e) := by
  rw [attach, h]

theorem attach_eq_ok {evicted : Option BlockId} (h : c.attach id slot = (c', .ok evicted)) :
    c.checkAttach id slot = .ok () ∧ evicted = c.occupant? id slot ∧
      c' = (((c.roomy id slot).detach id).link id slot).commit (.nested id slot evicted) := by
  cases hcheck : c.checkAttach id slot with
  | error e => simp [attach_of_error hcheck] at h
  | ok _ =>
    rw [attach_of_ok hcheck] at h
    obtain ⟨rfl, he⟩ := Prod.mk.inj h
    obtain rfl := Except.ok.inj he
    exact ⟨rfl, rfl, rfl⟩

theorem occupant?_eq_some {s : Slot BlockId} {child : BlockId} (hs : c.slot? slot = some s)
    (ho : c.occupant? id slot = some child) : s.shape = .value ∧ s.children = [child] := by
  obtain ⟨name, content⟩ := s
  cases content with
  | body entries => simp [occupant?, hs] at ho
  | value held literal =>
    cases held with
    | none => simp [occupant?, hs] at ho
    | some k =>
      obtain ⟨-, rfl⟩ : k ≠ id ∧ k = child := by simpa [occupant?, hs] using ho
      exact ⟨rfl, rfl⟩

theorem owner?_of_occupant? (h : c.Linked none) {k : BlockId} (ho : c.occupant? id slot = some k) :
    c.owner? k = some (.slot slot) := by
  obtain ⟨s, hs⟩ : ∃ s, c.slot? slot = some s := by
    refine Option.ne_none_iff_exists'.1 fun hn => ?_
    simp [occupant?, hn] at ho
  obtain ⟨-, hc⟩ := occupant?_eq_some hs ho
  exact h.owner?_of_mem_listed (o := .slot slot) (by simp [listed, hs, hc])

theorem occupant?_eq_none {s : Slot BlockId} (hs : c.slot? slot = some s)
    (ho : c.occupant? id slot = none) (hv : s.shape = .value) : ∀ k ∈ s.children, k = id := by
  obtain ⟨name, content⟩ := s
  cases content with
  | body entries => simp [Slot.shape, Content.shape] at hv
  | value held literal =>
    cases held with
    | none => simp [Slot.children, Content.children]
    | some k => simpa [occupant?, hs, Slot.children, Content.children] using ho

structure Roomy (c c' : Canvas) (id : BlockId) (slot : SlotId) (s : Slot BlockId) : Prop where
  sound : c'.Sound none
  setting : c'.setting = c.setting
  nextId : c'.nextId = c.nextId
  kind? : c'.kind? = c.kind?
  owner? : ∀ x, c'.owner? x = c.owner? x ∨ c'.owner? x = some .free
  slot? : ∃ s', c'.slot? slot = some s' ∧ s'.shape = s.shape ∧
    (s.shape = .value → ∀ k ∈ s'.children, k = id)

theorem Roomy.exists_block {s : Slot BlockId} (hr : c.Roomy c' id slot s) {kind : Kind}
    (hk : c.kind? id = some kind) : ∃ b, c'.block? id = some b := by
  obtain ⟨b, hb, -⟩ := Option.map_eq_some_iff.1 ((congrFun hr.kind? id).trans hk)
  exact ⟨b, hb⟩

theorem Sound.evict (h : c.Sound none) {b : Block} (hb : c.block? id = some b) (host : BlockId) :
    (c.evict id host).Sound none :=
  (h.detach hb).makeFree _

theorem Sound.roomy (h : c.Sound none) {s : Slot BlockId} (hs : c.slot? slot = some s)
    (id : BlockId) : c.Roomy (c.roomy id slot) id slot s := by
  unfold Canvas.roomy
  cases ho : c.occupant? id slot with
  | none =>
    exact ⟨h, rfl, rfl, rfl, fun _ => Or.inl rfl, s, hs, rfl, occupant?_eq_none hs ho⟩
  | some child =>
    obtain ⟨-, hc⟩ := occupant?_eq_some hs ho
    obtain ⟨b, hb, -⟩ := Linked.exists_block_of_owner? (owner?_of_occupant? h.toLinked ho)
    refine ⟨h.evict hb _, ?_, ?_, ?_, fun x => ?_, s.without child, ?_, ?_, fun _ => ?_⟩
    · exact (setting_makeFree _ _ _).trans (setting_detach _ _)
    · exact (nextId_makeFree _ _ _).trans (nextId_detach _ _)
    · exact (kind?_makeFree _ _ _).trans (kind?_detach h.toLinked hb)
    · rcases owner?_makeFree (c.detach child) child _ x with he | he
      · rcases owner?_detach h.toLinked hb x with hd | hd
        · exact Or.inl (he.trans hd)
        · exact Or.inr (he.trans hd)
      · exact Or.inr he
    · refine (slot?_makeFree _ _ _ _).trans ?_
      rw [slot?_detach h.toLinked hb, hs, Option.map_some]
    · exact Content.shape_unlink child s.content
    · simp [hc]

theorem Sound.attach (h : c.Sound none) (id : BlockId) (slot : SlotId) :
    c.Step (c.attach id slot) := by
  cases hcheck : c.checkAttach id slot with
  | error e =>
    rw [attach_of_error hcheck]
    exact .refused e
  | ok _ =>
    obtain ⟨kind, host, s, hk, hh, hs, hfits, hw⟩ := checkAttach_eq_ok_iff.1 hcheck
    have hr := h.roomy hs id
    obtain ⟨s', hs', hshape, hroom⟩ := hr.slot?
    obtain ⟨b, hb⟩ := hr.exists_block hk
    have hsound := hr.sound.detach hb
    have hkind := kind?_detach hr.sound.toLinked hb
    have hslot := (slot?_detach hr.sound.toLinked hb slot).trans (congrArg _ hs')
    obtain ⟨a, ha, hi⟩ := exists_of_slot? hslot
    have hhost : a.kind = host := by
      have := ((congrFun hkind slot.host).trans (congrFun hr.kind? slot.host)).trans hh
      simpa [Canvas.kind?, ha] using this
    have hid := ((congrFun hkind id).trans (congrFun hr.kind? id)).trans hk
    have hsame : (s'.without id).shape = s.shape :=
      (Content.shape_unlink id s'.content).trans hshape
    rw [attach_of_ok hcheck]
    refine .commit (hsound.linkSlot ha hi hid ?_ (fun hv => ?_) fun hin => ?_) ?_ ?_
    · rwa [hsame, hhost]
    · rw [Slot.children_without, List.filter_eq_nil_iff]
      simpa using hroom (hsame ▸ hv)
    · -- no step of the edit adds a way up, so the check on the old canvas is enough
      have hin := (hin.mono (owner?_detach hr.sound.toLinked hb)).mono hr.owner?
      simp [(isWithin_iff h.toLinked).2 hin] at hw
    · exact (setting_detach _ _).trans hr.setting
    · exact Nat.le_of_eq ((nextId_detach _ _).trans hr.nextId).symm

/-! ### Creating -/

theorem Sound.instantiate (h : c.Sound none) (kind : Kind) (p : Point Float) :
    c.Step (settled ((c.instantiate kind p).1, .ok ())) :=
  .commit (h.spawn kind p) rfl (Nat.le_succ _)

theorem not_within_nextId (h : c.Linked none) {b : Block} (hx : c.block? x = some b) :
    ¬ c.Within x c.nextId := by
  intro hw
  rcases Relation.ReflTransGen.cases_tail hw with he | ⟨y, -, hy⟩
  · simp [← he, h.block?_nextId] at hx
  · obtain ⟨a, ha, -⟩ := h.exists_of_above hy
    simp [h.block?_nextId] at ha

theorem not_within_spawn (h : c.Linked none) {b : Block} (hx : c.block? x = some b) (kind : Kind)
    (p : Point Float) : ¬ (c.spawn kind p).Within x c.nextId := by
  intro hw
  refine not_within_nextId h hx (hw.mono fun y => ?_)
  rw [owner?_spawn h]
  split
  · exact Or.inr rfl
  · exact Or.inl rfl

/-- The canvas on which a fresh block is put into a slot: its creation is queued, not yet committed. -/
def hatched (c : Canvas) (kind : Kind) (p : Point Float) : Canvas :=
  let created := c.spawn kind p
  { created with events := created.events ++ [Event.created c.nextId] }

def standing (c : Canvas) (id : BlockId) : Point Float :=
  ((c.block? id).map Block.position).getD Point.origin

theorem block?_hatched (c : Canvas) (kind : Kind) (p : Point Float) :
    (c.hatched kind p).block? = (c.spawn kind p).block? :=
  rfl

theorem Sound.hatched (h : c.Sound none) (kind : Kind) (p : Point Float) :
    (c.hatched kind p).Sound none :=
  (h.spawn kind p).congr rfl rfl rfl

/-- What was checked for a kind holds of a fresh block of the kind: the second check never fails. -/
theorem checkAttach_hatched (h : c.Sound none) {kind : Kind} {place : Place}
    (hp : c.place slot = .ok place) (hfits : canNest place (.block kind) = true) (p : Point Float) :
    (c.hatched kind p).checkAttach c.nextId slot = .ok () := by
  obtain ⟨host, s, hh, hs, rfl⟩ := place_eq_ok_iff.1 hp
  obtain ⟨b, hb, rfl⟩ : ∃ b, c.block? slot.host = some b ∧ b.kind = host := by
    simpa [Canvas.kind?] using hh
  have hne : slot.host ≠ c.nextId := by
    intro he
    rw [he, h.block?_nextId] at hb
    cases hb
  have hold : (c.hatched kind p).block? slot.host = some b := by
    rw [block?_hatched, block?_spawn h.toLinked, if_neg hne, hb]
  have hnew : (c.hatched kind p).block? c.nextId = some (c.newborn kind p) := by
    rw [block?_hatched, block?_spawn h.toLinked, if_pos rfl]
  refine checkAttach_eq_ok_iff.2 ⟨kind, b.kind, s, ?_, ?_, ?_, hfits, ?_⟩
  · rw [Canvas.kind?, hnew, Option.map_some, newborn, Template.kind_face]
  · rw [Canvas.kind?, hold, Option.map_some]
  · rw [slot?, hold, ← hb]
    exact hs
  · rw [← Bool.not_eq_true, isWithin_iff (h.hatched kind p).toLinked]
    exact not_within_spawn h.toLinked hb kind p

theorem instantiateInto_eq {kind : Kind} {place : Place} (hp : c.place slot = .ok place)
    (hfits : canNest place (.block kind) = true) :
    c.instantiateInto kind slot =
      match (c.hatched kind (c.standing slot.host)).attach c.nextId slot with
      | (after, .ok evicted) => (after, .ok (c.nextId, evicted))
      | (after, .error e) => (after, .error e) := by
  simp only [instantiateInto, hp, hfits, Bool.not_true, Bool.false_eq_true, if_false]
  rfl

theorem instantiateInto_eq_ok {kind : Kind} {evicted : Option BlockId}
    (h : c.instantiateInto kind slot = (c', .ok (id, evicted))) :
    id = c.nextId ∧
      (c.hatched kind (c.standing slot.host)).attach c.nextId slot = (c', .ok evicted) := by
  cases hp : c.place slot with
  | error e => simp [instantiateInto, hp] at h
  | ok place =>
    cases hfits : canNest place (.block kind) with
    | false => simp [instantiateInto, hp, hfits] at h
    | true =>
      rw [instantiateInto_eq hp hfits] at h
      rcases hr : (c.hatched kind (c.standing slot.host)).attach c.nextId slot with ⟨after, e | occ⟩
      · simp [hr] at h
      · rw [hr] at h
        simp only [Prod.mk.injEq, Except.ok.injEq] at h
        obtain ⟨rfl, rfl, rfl⟩ := h
        exact ⟨rfl, rfl⟩

theorem Sound.instantiateInto (h : c.Sound none) (kind : Kind) (slot : SlotId) :
    c.Step (c.instantiateInto kind slot) := by
  cases hp : c.place slot with
  | error e =>
    rw [Canvas.instantiateInto, hp]
    exact .refused e
  | ok place =>
    cases hfits : canNest place (.block kind) with
    | false =>
      have : c.instantiateInto kind slot = (c, .error (.rejected kind place)) := by
        simp [Canvas.instantiateInto, hp, hfits]
      rw [this]
      exact .refused _
    | true =>
      have hok := attach_of_ok (checkAttach_hatched h hp hfits (c.standing slot.host))
      have hstep := (h.hatched kind (c.standing slot.host)).attach c.nextId slot
      rw [hok] at hstep
      obtain ⟨hs, hn, first, more, hset⟩ := hstep.of_ok
      rw [instantiateInto_eq hp hfits, hok]
      refine .committed _ (.created c.nextId) (first :: more) hs ?_ (Nat.le_trans (Nat.le_succ _) hn)
      rw [hset]
      simp [Canvas.hatched, Canvas.spawn]

/-! ### Moving and removing -/

theorem Sound.detachToFree (h : c.Sound none) (id : BlockId) (p : Point Float) :
    c.Step (c.detachToFree id p) := by
  cases hb : c.block? id with
  | none =>
    rw [Canvas.detachToFree, hb]
    exact .refused _
  | some b =>
    cases hfits : canNest .canvas (.block b.kind) with
    | false =>
      have : c.detachToFree id p = (c, .error (.rejected b.kind .canvas)) := by
        simp [Canvas.detachToFree, hb, hfits]
      rw [this]
      exact .refused _
    | true =>
      let f : Block → Block := fun b => { b with position := p }
      have heq : c.detachToFree id p =
          ((if b.isFree then c.modify id f else (c.detach id).makeFree id p).commit (.freed id),
            .ok ()) := by
        simp [Canvas.detachToFree, hb, hfits, f]
      rw [heq]
      -- a free block keeps its place among the free ones; any other becomes the last of them
      cases hfree : b.isFree with
      | true =>
        refine .commit ⟨h.toLinked.of_views (ids_modify (f := f) (fun _ => rfl) id) rfl ?_ ?_, ?_⟩ rfl
          (Nat.le_refl _)
        · exact owner?_modify (f := f) (fun _ => rfl) (fun _ => rfl) id
        · exact listed_modify (f := f) (fun _ => rfl) (fun _ => rfl) (fun _ => rfl) id
        · have hk := kind?_modify (c := c) (f := f) (fun _ => rfl) (fun _ => rfl) id
          simp only [if_true, hk]
          exact typed_modify (f := f) h.ascending h.typed fun b _ ht => ht.moved b.owner p
      | false =>
        refine .commit ((h.detach hb).makeFree p) ?_ ?_
        · exact (setting_makeFree _ _ _).trans (setting_detach _ _)
        · exact Nat.le_of_eq ((nextId_makeFree _ _ _).trans (nextId_detach _ _)).symm

theorem detachToFree_eq_ok {p : Point Float} (h : c.detachToFree id p = (c', .ok ())) :
    ∃ b, c.block? id = some b ∧ canNest .canvas (.block b.kind) = true ∧
      c' = (if b.isFree then c.modify id fun b => { b with position := p }
        else (c.detach id).makeFree id p).commit (.freed id) := by
  cases hb : c.block? id with
  | none => simp [detachToFree, hb] at h
  | some b =>
    cases hfits : canNest .canvas (.block b.kind) with
    | false => simp [detachToFree, hb, hfits] at h
    | true =>
      simp only [detachToFree, hb, hfits, Bool.not_true, Bool.false_eq_true, if_false,
        Prod.mk.injEq, and_true] at h
      exact ⟨b, rfl, hfits, h.symm⟩

theorem attachConnector_of_ok {kind : Kind} {head : BlockId} (hk : c.kind? id = some kind)
    (hconn : kind.isConnector = true) (hcheck : c.checkConnector kind (some id) head = .ok ()) :
    c.attachConnector id head =
      ((((c.detach id).modify head fun b =>
          { b with chain := (c.detach id).elseLast (b.chain ++ [id]) }).modify id fun b =>
            { b with owner := .chain head }).commit (.connected id head), .ok ()) := by
  simp only [attachConnector, hk, hconn, hcheck, Bool.not_true, Bool.false_eq_true, if_false]

theorem attachConnector_of_error {kind : Kind} {head : BlockId} {e : Refusal}
    (hk : c.kind? id = some kind) (hconn : kind.isConnector = true)
    (hcheck : c.checkConnector kind (some id) head = .error e) :
    c.attachConnector id head = (c, .error e) := by
  simp only [attachConnector, hk, hconn, hcheck, Bool.not_true, Bool.false_eq_true, if_false]

theorem attachConnector_eq_ok {head : BlockId} (h : c.attachConnector id head = (c', .ok ())) :
    ∃ b, c.block? id = some b ∧ b.kind.isConnector = true ∧
      c.checkConnector b.kind (some id) head = .ok () ∧
      c' = (((c.detach id).modify head fun b =>
          { b with chain := (c.detach id).elseLast (b.chain ++ [id]) }).modify id fun b =>
            { b with owner := .chain head }).commit (.connected id head) := by
  cases hb : c.block? id with
  | none => simp [attachConnector, kind?, hb] at h
  | some b =>
    have hk : c.kind? id = some b.kind := by rw [kind?, hb, Option.map_some]
    cases hconn : b.kind.isConnector with
    | false => simp [attachConnector, hk, hconn] at h
    | true =>
      cases hcheck : c.checkConnector b.kind (some id) head with
      | error e => simp [attachConnector_of_error hk hconn hcheck] at h
      | ok _ =>
        rw [attachConnector_of_ok hk hconn hcheck] at h
        exact ⟨b, rfl, hconn, hcheck, (congrArg Prod.fst h).symm⟩

theorem Sound.attachConnector (h : c.Sound none) (id head : BlockId) :
    c.Step (c.attachConnector id head) := by
  cases hk : c.kind? id with
  | none =>
    rw [Canvas.attachConnector, hk]
    exact .refused _
  | some kind =>
    cases hconn : kind.isConnector with
    | false =>
      have : c.attachConnector id head = (c, .error (.notAConnector id)) := by
        simp [Canvas.attachConnector, hk, hconn]
      rw [this]
      exact .refused _
    | true =>
      cases hcheck : c.checkConnector kind (some id) head with
      | error e =>
        rw [attachConnector_of_error hk hconn hcheck]
        exact .refused e
      | ok _ =>
        obtain ⟨host, hh, hif, hw, hone⟩ := checkConnector_eq_ok_iff.1 hcheck
        obtain ⟨b, hb, -⟩ : ∃ b, c.block? id = some b ∧ b.kind = kind := by simpa [Canvas.kind?] using hk
        have hkind := kind?_detach h.toLinked hb
        have hhost : (c.detach id).block? head = some (host.without id) := by
          rw [detach_eq_without h.toLinked hb, block?_without, hh, Option.map_some]
        rw [attachConnector_of_ok hk hconn hcheck]
        refine .commit ((h.detach hb).linkChain hhost hif ((congrFun hkind id).trans hk) hconn ?_ ?_)
          (setting_detach _ _) (Nat.le_of_eq (nextId_detach _ _).symm)
        · -- the block itself has left the chain, so another else there would have failed the check
          intro he k hm
          have hm := List.mem_filter.1 hm
          rw [isElse, hkind]
          exact hone he k hm.1 (by simpa using hm.2)
        · intro hin
          have hin := hin.mono (owner?_detach h.toLinked hb)
          simp [(isWithin_iff h.toLinked).2 hin] at hw

theorem discard_eq_ok {removed : List BlockId} (h : c.discard id = (c', .ok removed)) :
    ∃ b, c.block? id = some b ∧ removed = c.subtree id ∧
      c' = (c.prune id).commit (.discarded removed) := by
  cases hb : c.block? id with
  | none => simp [discard, hb] at h
  | some b =>
    simp only [discard, hb, Prod.mk.injEq, Except.ok.injEq] at h
    obtain ⟨rfl, rfl⟩ := h
    exact ⟨b, rfl, rfl, rfl⟩

theorem Sound.discard (h : c.Sound none) (id : BlockId) : c.Step (c.discard id) := by
  cases hb : c.block? id with
  | none =>
    rw [Canvas.discard, hb]
    exact .refused _
  | some b =>
    have heq : c.discard id =
        ((c.prune id).commit (.discarded (c.subtree id)), .ok (c.subtree id)) := by
      rw [Canvas.discard, hb]
      rfl
    rw [heq]
    exact .commit (h.prune hb) (setting_detach _ _) (Nat.le_of_eq (nextId_detach _ _).symm)

/-! ### Editing in place -/

theorem Sound.rewrite (h : c.Sound none) {s : Slot BlockId} (content : Content BlockId)
    (hs : c.slot? slot = some s) (hshape : content.shape = s.shape)
    (hchildren : content.children = s.children) :
    (c.modifySlot slot fun _ => content).Sound none := by
  let g : Block → Block := Block.reslot slot.index fun _ => content
  obtain ⟨b, hb, hi⟩ := exists_of_slot? hs
  refine ⟨h.toLinked.of_views (ids_modify (f := g) (fun _ => rfl) slot.host) rfl ?_ fun o => ?_, ?_⟩
  · exact owner?_modify (f := g) (fun _ => rfl) (fun _ => rfl) slot.host
  · rw [listed_modifySlot hs]
    split
    · rename_i ho
      simp [ho, listed, hs, hchildren]
    · rfl
  · have hk : (c.modify slot.host g).kind? = c.kind? :=
      kind?_modify (f := g) (fun _ => rfl) (fun _ => rfl) slot.host
    rw [modifySlot_eq, hk]
    refine typed_modify (f := g) h.ascending h.typed fun b' hb' ht => ?_
    obtain rfl : b = b' := Option.some.inj (hb.symm.trans hb')
    exact ht.reslot hi hshape fun k hk => ht.nests s (List.mem_of_getElem? hi) k (hchildren ▸ hk)

inductive Retyped (c : Canvas) (slot : SlotId) : Canvas → Prop
  | refused : Retyped c slot c
  | rewritten (content : Content BlockId) :
      Retyped c slot ((c.modifySlot slot fun _ => content).commit (.literalEdited slot))

theorem retyped_setLiteral (c : Canvas) (slot : SlotId) (text : String) :
    c.Retyped slot (c.setLiteral slot text).1 := by
  unfold setLiteral
  split
  · exact .refused
  · exact .refused
  · exact .rewritten _

theorem retyped_pushLine (c : Canvas) (slot : SlotId) (text : String) :
    c.Retyped slot (c.pushLine slot text).1 := by
  unfold pushLine
  split
  · exact .refused
  · split
    · exact .refused
    · split
      · exact .rewritten _
      · exact .refused
      · exact .refused

theorem retyped_removeLine (c : Canvas) (slot : SlotId) (index : Nat) :
    c.Retyped slot (c.removeLine slot index).1 := by
  unfold removeLine
  split
  · exact .refused
  · exact .refused
  · split
    · exact .rewritten _
    · exact .refused

theorem Sound.setLiteral (h : c.Sound none) (slot : SlotId) (text : String) :
    c.Step (c.setLiteral slot text) := by
  unfold Canvas.setLiteral
  cases hs : c.slot? slot with
  | none => exact .refused _
  | some s =>
    obtain ⟨name, content⟩ := s
    cases content with
    | body entries => exact .refused _
    | value child literal =>
      exact .commit (h.rewrite (.value child text) hs rfl rfl) rfl (Nat.le_refl _)

theorem Sound.pushLine (h : c.Sound none) (slot : SlotId) (text : String) :
    c.Step (c.pushLine slot text) := by
  unfold Canvas.pushLine
  cases hp : c.place slot with
  | error e => exact .refused e
  | ok place =>
    obtain ⟨host, s, -, hs, rfl⟩ := place_eq_ok_iff.1 hp
    obtain ⟨name, content⟩ := s
    cases hfits : canNest (.slot host content.shape) .typed with
    | false =>
      simp only [Slot.shape, hfits, Bool.not_false, if_true]
      exact .refused _
    | true =>
      simp only [Slot.shape, hfits, Bool.not_true, Bool.false_eq_true, if_false, hs,
        Option.map_some]
      cases content with
      | value child literal => exact .refused _
      | body entries =>
        refine .commit (h.rewrite _ hs rfl ?_) rfl (Nat.le_refl _)
        simp [Slot.children, Content.children, List.filterMap_append]

theorem Sound.removeLine (h : c.Sound none) (slot : SlotId) (index : Nat) :
    c.Step (c.removeLine slot index) := by
  unfold Canvas.removeLine
  cases hs : c.slot? slot with
  | none => exact .refused _
  | some s =>
    obtain ⟨name, content⟩ := s
    cases content with
    | value child literal => exact .refused _
    | body entries =>
      simp only [Option.map_some]
      split
      · rename_i text he
        exact .commit (h.rewrite _ hs rfl (Content.children_eraseIdx he)) rfl (Nat.le_refl _)
      · exact .refused _

theorem Sound.editFace (h : c.Sound none) (id : BlockId) {f : Face → Face}
    (hkind : ∀ face, (f face).kind = face.kind)
    (hop : ∀ face, face.operator ≠ none → (f face).operator ≠ none) :
    c.Step (c.editFace id f) := by
  let g : Block → Block := fun b => { b with toFace := f b.toFace }
  unfold Canvas.editFace
  cases hb : c.block? id with
  | none => exact .refused _
  | some b =>
    refine .commit ⟨h.toLinked.of_views (ids_modify (f := g) (fun _ => rfl) id) rfl ?_ ?_, ?_⟩ rfl
      (Nat.le_refl _)
    · exact owner?_modify (f := g) (fun _ => rfl) (fun _ => rfl) id
    · exact listed_modify (f := g) (fun _ => rfl) (fun _ => rfl) (fun _ => rfl) id
    · have hk : (c.modify id g).kind? = c.kind? :=
        kind?_modify (f := g) (fun _ => rfl) (fun b => hkind b.toFace) id
      rw [hk]
      exact typed_modify (f := g) h.ascending h.typed fun b _ ht => ht.reface hkind hop

/-! ### A connector right after its creation -/

theorem sound_instantiate (h : c.Sound none) (kind : Kind) (p : Point Float) :
    (c.instantiate kind p).1.Sound none :=
  (h.spawn kind p).congr rfl rfl rfl

theorem block?_instantiate (h : c.Linked none) (kind : Kind) (p : Point Float) (x : BlockId) :
    (c.instantiate kind p).1.block? x =
      if x = c.nextId then some (c.newborn kind p) else c.block? x :=
  block?_spawn h kind p x

theorem checkConnector_instantiate (h : c.Sound none) {kind : Kind} {head : BlockId}
    (hcheck : c.checkConnector kind none head = .ok ()) (p : Point Float) :
    (c.instantiate kind p).1.checkConnector kind (some c.nextId) head = .ok () := by
  obtain ⟨b, hb, hif, -, hone⟩ := checkConnector_eq_ok_iff.1 hcheck
  have hlive : ∀ {x : BlockId} {a : Block}, c.block? x = some a → x ≠ c.nextId := by
    rintro x a ha rfl
    simp [h.block?_nextId] at ha
  refine checkConnector_eq_ok_iff.2 ⟨b, ?_, hif, ?_, fun he k hk _ => ?_⟩
  · rw [block?_instantiate h.toLinked, if_neg (hlive hb), hb]
  · rintro id ⟨⟩
    rw [← Bool.not_eq_true, isWithin_iff (sound_instantiate h kind p).toLinked]
    exact not_within_spawn h.toLinked hb kind p
  · obtain ⟨a, ha⟩ := h.exists_block_of_mem_owned hb (Block.mem_owned.2 (Or.inr hk))
    have hk' := hone he k hk (by simp)
    rw [isElse, kind?] at hk' ⊢
    rwa [block?_instantiate h.toLinked, if_neg (hlive ha)]

theorem attachConnector_instantiate (h : c.Sound none) {kind : Kind} {head : BlockId}
    (hconn : kind.isConnector = true) (hcheck : c.checkConnector kind none head = .ok ())
    (p : Point Float) :
    ∃ c', (c.instantiate kind p).1.attachConnector c.nextId head = (c', .ok ()) := by
  have hk : (c.instantiate kind p).1.kind? c.nextId = some kind := by
    rw [kind?, block?_instantiate h.toLinked, if_pos rfl, Option.map_some, newborn,
      Template.kind_face]
  exact ⟨_, attachConnector_of_ok hk hconn (checkConnector_instantiate h hcheck p)⟩

/-! ### All edits -/

inductive Edit where
  | instantiate (kind : Kind) (position : Point Float)
  | instantiateInto (kind : Kind) (slot : SlotId)
  | attach (id : BlockId) (slot : SlotId)
  | detachToFree (id : BlockId) (position : Point Float)
  | attachConnector (id head : BlockId)
  | discard (id : BlockId)
  | setLiteral (slot : SlotId) (text : String)
  | pushLine (slot : SlotId) (text : String)
  | removeLine (slot : SlotId) (index : Nat)
  | setName (id : BlockId) (name : String)
  | setOperator (id : BlockId) (op : Operator)
  | setOverride (id : BlockId) (text : Option String)

namespace Edit

def apply (c : Canvas) : Edit → Canvas × Except Refusal Unit
  | .instantiate kind p => ((c.instantiate kind p).1, .ok ())
  | .instantiateInto kind slot => settled (c.instantiateInto kind slot)
  | .attach id slot => settled (c.attach id slot)
  | .detachToFree id p => c.detachToFree id p
  | .attachConnector id head => c.attachConnector id head
  | .discard id => settled (c.discard id)
  | .setLiteral slot text => c.setLiteral slot text
  | .pushLine slot text => settled (c.pushLine slot text)
  | .removeLine slot index => settled (c.removeLine slot index)
  | .setName id name => c.setName id name
  | .setOperator id op => c.setOperator id op
  | .setOverride id text => c.setOverride id text

theorem step {c : Canvas} (h : c.Sound none) (e : Edit) : c.Step (e.apply c) := by
  cases e with
  | instantiate kind p => exact h.instantiate kind p
  | instantiateInto kind slot => exact (h.instantiateInto kind slot).settled
  | attach id slot => exact (h.attach id slot).settled
  | detachToFree id p => exact h.detachToFree id p
  | attachConnector id head => exact h.attachConnector id head
  | discard id => exact (h.discard id).settled
  | setLiteral slot text => exact h.setLiteral slot text
  | pushLine slot text => exact (h.pushLine slot text).settled
  | removeLine slot index => exact (h.removeLine slot index).settled
  | setName id name =>
    exact h.editFace (f := fun face => { face with name }) id (fun _ => rfl) fun _ hop => hop
  | setOperator id op =>
    refine h.editFace (f := fun face => { face with operator := some op }) id (fun _ => rfl) ?_
    exact fun _ _ => Option.some_ne_none op
  | setOverride id text =>
    exact h.editFace (f := fun face => { face with override := text }) id (fun _ => rfl)
      fun _ hop => hop

end Edit

end Canvas
end BlockCanvas
