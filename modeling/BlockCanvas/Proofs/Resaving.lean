import BlockCanvas.Proofs.JsonText
import BlockCanvas.Proofs.Loading
import BlockCanvas.Proofs.SavedForm
import BlockCanvas.Proofs.Utf8

/-!
Saving what was loaded. The text of a loaded canvas is loaded again if and only if no more of its containers
are open at once than the reader allows, and so is what is saved and loaded from then on
(`Canvas.ofJsonText_toJsonText`). A text in which slots are written short has fewer containers than what
its canvas is saved as, so it can be loaded where that cannot.
-/
namespace BlockCanvas

/-! ### Frames -/

namespace Json
variable {members : List (String × Json)} {value : Json} {x : Float}

theorem Legible.of_object (h : (Json.object members).Legible) : ∀ m ∈ members, m.2.Legible := by
  cases h with
  | object _ hall => exact hall

theorem Legible.of_member? (h : value.Legible) {key : String} {v : Json} (hv : value.member? key = some v) :
    v.Legible := by
  obtain ⟨members, hmembers, hfind⟩ := Option.bind_eq_some_iff.1 hv
  obtain ⟨m, hm, rfl⟩ := Option.map_eq_some_iff.1 hfind
  cases value with
  | object ms =>
    obtain rfl := Option.some.inj hmembers
    exact h.of_object m (List.mem_of_find?_eq_some hm)
  | _ => cases hmembers

/-- Whatever number is read, JSON has it: none is as large as the first that rounds to infinity. -/
theorem Legible.writes (h : value.Legible) (hx : value.float? = some x) : Writes x := by
  cases h with
  | int hlow hhigh =>
    obtain rfl := Option.some.inj hx
    exact writes_ofInt (by omega)
  | real hreal =>
    obtain rfl := Option.some.inj hx
    exact hreal
  | _ => cases hx

end Json

namespace Document
open Json
variable {value : Json} {d : Document}

theorem writes_field (h : value.Legible) {name : String} {x : Float} (hx : field value name = .ok x) :
    Writes x := by
  rw [field] at hx
  split at hx
  · next hsome =>
    obtain rfl := Except.ok.inj hx
    obtain ⟨v, hv, hfloat⟩ := Option.bind_eq_some_iff.1 hsome
    exact (h.of_member? hv).writes hfloat
  · cases hx

theorem writable_rectOf (h : value.Legible) {r : Rect Float} (hr : rectOf value = .ok r) : r.Writable := by
  rw [rectOf] at hr
  obtain ⟨x, hx, hr⟩ := bind_eq_ok hr
  obtain ⟨y, hy, hr⟩ := bind_eq_ok hr
  obtain ⟨width, hwidth, hr⟩ := bind_eq_ok hr
  obtain ⟨height, hheight, hr⟩ := bind_eq_ok hr
  obtain rfl := Except.ok.inj hr
  exact ⟨writes_field h hx, writes_field h hy, writes_field h hwidth, writes_field h hheight⟩

theorem exists_of_find? {name : String} {members : List (String × Json)} {v : Json} {o : Option (Rect Float)}
    {r : Rect Float} (ho : o = some r) (h : (rectOf v).map some = .ok o) (hv : find? name members = some v) :
    ∃ name v, (Json.object members).member? name = some v ∧ rectOf v = .ok r := by
  cases hr : rectOf v with
  | error e =>
    rw [hr] at h
    cases h
  | ok r' =>
    rw [hr] at h
    obtain rfl := Option.some.inj ((Except.ok.inj h).trans ho)
    exact ⟨name, v, hv, hr⟩

theorem exists_rectOf (h : ofJson value = .ok d) {r : Rect Float}
    (hr : d.bounds = some r ∨ d.discardZone = some r) :
    ∃ name v, value.member? name = some v ∧ rectOf v = .ok r := by
  cases value with
  | object members =>
    simp only [ofJson, bind, Except.bind] at h
    -- whatever is said of the version, a rectangle is left out or is that of its member
    repeat' split at h
    all_goals cases h
    all_goals rcases hr with hr | hr
    all_goals first
      | cases hr; done
      | apply exists_of_find? hr <;> assumption
  | _ => cases h

theorem writable_ofJson (hv : value.Legible) (h : ofJson value = .ok d) {r : Rect Float}
    (hr : d.bounds = some r ∨ d.discardZone = some r) : r.Writable := by
  obtain ⟨name, v, hmember, hrect⟩ := exists_rectOf h hr
  exact writable_rectOf (hv.of_member? hmember) hrect

end Document

theorem Outline.isStatement_plantAll {os : List Outline} (h : ∀ o ∈ os, o.kind.isStatement = true) (n : BlockId) :
    ∀ r ∈ plantAll n os, r.tree.kind.isStatement = true := by
  induction os generalizing n with
  | nil => exact List.forall_mem_nil _
  | cons o os ih =>
    obtain ⟨ho, hos⟩ := List.forall_mem_cons.1 h
    refine List.forall_mem_cons.2 ⟨?_, ih hos _⟩
    rwa [kind_plant]

/-! ### What is loaded -/

namespace Canvas
variable {c c' : Canvas} {text : String} {json : Json.Codec} {f : Float → Float}

structure Loaded (c : Canvas) : Prop where
  sound : c.Sound none
  placed : c.Placeable
  frame : c.FrameWritable

theorem ofJsonText_eq_ok (h : ofJsonText json text = .ok c) :
    ∃ value d, json.read text = some value ∧ Document.ofJson value = .ok d ∧ d.build = .ok c := by
  rw [ofJsonText] at h
  split at h
  · cases h
  · next value hparse =>
    obtain ⟨d, hd, hbuild⟩ := Document.bind_eq_ok h
    exact ⟨value, d, hparse, hd, hbuild⟩

theorem loaded_ofJsonText (hjson : json.Lawful f) (h : ofJsonText json text = .ok c) : c.Loaded := by
  obtain ⟨value, d, hparse, hd, hbuild⟩ := ofJsonText_eq_ok h
  have hlegible := hjson.legible hparse
  have hdistinct := Document.distinct_ofJson hlegible.keyed hd
  have hmirrors := Document.mirrors_of_build hdistinct (Document.legal_of_build hdistinct hbuild) hbuild
  have hrect : ∀ r, d.bounds = some r ∨ d.discardZone = some r → r.Writable := fun _ =>
    Document.writable_ofJson hlegible hd
  have hsound := (Document.reachable_build hbuild).sound
  refine ⟨hsound, hsound.isStatement_forest_iff.1 ?_, ?_, ?_⟩
  · rw [hmirrors.forest]
    exact Outline.isStatement_plantAll (Document.isStatement_of_build hbuild) 1
  · rw [hmirrors.bounds]
    cases hbounds : d.bounds with
    | none => decide
    | some r => exact hrect r (Or.inl hbounds)
  · rw [hmirrors.discardZone]
    exact fun zone hzone => hrect zone (Or.inr hzone)

/-! ### Loading again -/

theorem ofJsonText_toJsonText_eq (hjson : json.Lawful f) (c : Canvas) :
    ofJsonText json (c.toJsonText json) =
      if c.toJson.depth ≤ Json.maxDepth then ofJson (c.toJson.reread f) else .error .notJson := by
  rw [ofJsonText, read_toJsonText hjson]
  by_cases hdepth : c.toJson.depth ≤ Json.maxDepth
  · rw [if_pos hdepth, if_pos hdepth]
  · rw [if_neg hdepth, if_neg hdepth]

theorem depth_toJson_recast {g : BlockId → BlockId} (h : ∀ r ∈ c.forest, r.tree.Legal)
    (hforest : c'.forest = (c.forest.map (Root.returned f)).map (Root.recast g)) :
    c'.toJson.depth = c.toJson.depth := by
  rw [depth_toJson, depth_toJson, hforest, List.map_map, List.map_map]
  exact congrArg (· + 2) (Json.itemsDepth_congr fun r hr => Tree.depth_recast g Face.restored _ _ (h r hr))

theorem Loaded.depth_reload (hjson : json.Lawful f) (h : c.Loaded)
    (hc' : ofJsonText json (c.toJsonText json) = .ok c') : c'.toJson.depth = c.toJson.depth := by
  obtain ⟨c'', hread, hforest⟩ := h.sound.exists_reread hjson.finite h.frame h.placed
  rw [ofJsonText_toJsonText_eq hjson] at hc'
  split at hc'
  · obtain rfl := Except.ok.inj (hread.symm.trans hc')
    exact depth_toJson_recast (fun r hr => h.sound.legal_of_mem_forest hr) hforest
  · cases hc'

theorem Loaded.exists_reload_iff (hjson : json.Lawful f) (h : c.Loaded) :
    (∃ c', ofJsonText json (c.toJsonText json) = .ok c') ↔ c.toJson.depth ≤ Json.maxDepth := by
  obtain ⟨c', hread, -⟩ := h.sound.exists_reread hjson.finite h.frame h.placed
  rw [ofJsonText_toJsonText_eq hjson]
  by_cases hdepth : c.toJson.depth ≤ Json.maxDepth
  · rw [if_pos hdepth]
    exact iff_of_true ⟨c', hread⟩ hdepth
  · rw [if_neg hdepth]
    refine iff_of_false ?_ hdepth
    rintro ⟨c', h⟩
    cases h

/-- What is saved of a canvas that was loaded is accepted if and only if no more than `Json.maxDepth` of its
containers are open at once, as where at most 41 blocks are placed in each other; else it is no JSON to the
reader. Once it was accepted, so is what is saved of it. -/
theorem ofJsonText_toJsonText (hjson : json.Lawful f) (h : ofJsonText json text = .ok c) :
    ((∃ c', ofJsonText json (c.toJsonText json) = .ok c') ↔ c.toJson.depth ≤ Json.maxDepth) ∧
      (¬(∃ c', ofJsonText json (c.toJsonText json) = .ok c') →
        ofJsonText json (c.toJsonText json) = .error .notJson) ∧
      ((∀ r ∈ c.forest, r.tree.height ≤ 41) → ∃ c', ofJsonText json (c.toJsonText json) = .ok c') ∧
      ∀ c', ofJsonText json (c.toJsonText json) = .ok c' →
        ∃ c'', ofJsonText json (c'.toJsonText json) = .ok c'' := by
  have hloaded := loaded_ofJsonText hjson h
  have hreload := hloaded.exists_reload_iff hjson
  refine ⟨hreload, fun hrefused => ?_, fun hheight => ?_, fun c' hc' => ?_⟩
  · rw [ofJsonText_toJsonText_eq hjson, if_neg (mt hreload.2 hrefused)]
  · exact hreload.2 ((depth_toJson_le hheight).trans (by decide))
  · rw [(loaded_ofJsonText hjson hc').exists_reload_iff hjson, hloaded.depth_reload hjson hc']
    exact hreload.1 ⟨c', hc'⟩

theorem ofJsonText_toJsonText_operator :
    let text := "\x7b\"blocks\":[\x7b\"kind\":\"print\",\"slots\":\x7b\"value\":\x7b\"kind\":\"operator\"\x7d\x7d\x7d]\x7d"
    let json := Library.standard.json
    ∃ c, ofJsonText json text = .ok c ∧ c.blocks.length = 2 ∧ (∀ r ∈ c.forest, r.tree.height = 2) ∧
      json.Lawful Json.returned ∧
      ∃ c', ofJsonText json (c.toJsonText json) = .ok c' ∧
        ∃ c'', ofJsonText json (c'.toJsonText json) = .ok c'' := by
  intro text json
  have hload : (ofJsonText json text).toOption.any (fun c =>
      decide (c.blocks.length = 2) && c.forest.all fun r => decide (r.tree.height = 2)) = true := by
    simp only [json, Library.standard, ofJsonText, Json.parse?, Text.toList_eq]
    decide +kernel
  cases hc : ofJsonText json text with
  | error e => simp [hc, Except.toOption] at hload
  | ok c =>
    have hshown : c.blocks.length = 2 ∧ ∀ r ∈ c.forest, r.tree.height = 2 := by
      simpa [hc, Except.toOption] using hload
    obtain ⟨-, -, hshallow, hagain⟩ := ofJsonText_toJsonText Json.lawful_standard hc
    obtain ⟨c', hc'⟩ := hshallow fun r hr => (hshown.2 r hr).trans_le (by decide)
    exact ⟨c, rfl, hshown.1, hshown.2, Json.lawful_standard, c', hc', hagain c' hc'⟩

def brief (kind slot : String) (content : Json) : Json :=
  .object [("kind", .string kind), ("slots", .object [(slot, content)])]

theorem legible_brief (kind slot : String) {content : Json} (h : content.Legible) :
    (brief kind slot content).Legible := by
  have hslots : (Json.object [(slot, content)]).Legible :=
    .object (List.pairwise_singleton _ _) (List.forall_mem_singleton.2 h)
  refine .object (List.pairwise_pair.2 (show "kind" < "slots" by decide +kernel)) ?_
  exact List.forall_mem_cons.2 ⟨.string kind, List.forall_mem_singleton.2 hslots⟩

def printing (operators : ℕ) : Json :=
  .object [("blocks", .array [brief "print" "value" ((brief "operator" "left")^[operators] .null)])]

theorem legible_printing (operators : ℕ) : (printing operators).Legible := by
  have hnested : ((brief "operator" "left")^[operators] .null).Legible := by
    induction operators with
    | zero => exact .null
    | succ n ih =>
      rw [Function.iterate_succ_apply']
      exact legible_brief _ _ ih
  exact .object (List.pairwise_singleton _ _)
    (List.forall_mem_singleton.2 (.array (List.forall_mem_singleton.2 (legible_brief _ _ hnested))))

theorem depth_printing (operators : ℕ) : (printing operators).depth = 2 * operators + 4 := by
  have hnested : ((brief "operator" "left")^[operators] .null).depth = 2 * operators := by
    induction operators with
    | zero => rfl
    | succ n ih =>
      rw [Function.iterate_succ_apply']
      simp only [brief, Json.depth, Json.membersDepth, ih]
      omega
  simp only [printing, brief, Json.depth, Json.membersDepth, Json.itemsDepth, hnested]
  omega

theorem ofJsonText_printing {operators : ℕ} (h : operators ≤ 61) :
    ofJsonText Library.standard.json (printing operators).pretty =
      ofJson ((printing operators).reread Json.returned) := by
  have hdepth : (printing operators).depth ≤ Json.maxDepth := by
    rw [depth_printing, Json.maxDepth]
    omega
  have hread : Library.standard.json.read (printing operators).pretty =
      some ((printing operators).reread Json.returned) :=
    (Json.lawful_standard.reads (legible_printing operators)).trans (if_pos hdepth)
  rw [ofJsonText, hread]

theorem shown_printing :
    (ofJson ((printing 42).reread Json.returned)).toOption.map
      (fun c => (c.blocks.length, c.toJson.depth)) = some (43, 130) := by
  decide +kernel

/-- The text of a print of 42 operators has 88 containers open at once. It is loaded, and the canvas is saved
with 130. -/
theorem ofJsonText_toJsonText_nested :
    let json := Library.standard.json
    ∃ c, ofJsonText json (printing 42).pretty = .ok c ∧ c.blocks.length = 43 ∧ c.toJson.depth = 130 ∧
      ¬∃ c', ofJsonText json (c.toJsonText json) = .ok c' := by
  intro json
  have hload := ofJsonText_printing (show 42 ≤ 61 by decide)
  have hshown := shown_printing
  generalize ofJson ((printing 42).reread Json.returned) = loaded at hload hshown
  cases loaded with
  | error e => cases hshown
  | ok c =>
    obtain ⟨hblocks, hdepth⟩ := Prod.mk.inj (Option.some.inj hshown)
    refine ⟨c, hload, hblocks, hdepth, ?_⟩
    rw [ofJsonText_toJsonText_eq Json.lawful_standard, if_neg (by rw [hdepth]; decide)]
    rintro ⟨c', h⟩
    cases h

end Canvas
end BlockCanvas
