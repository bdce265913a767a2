import BlockCanvas.Proofs.Building
import BlockCanvas.Proofs.Verdict
import Mathlib.Data.List.Induction

/-!
Which of the kinds asked for a canvas lacks. A report lists, in the order and the spelling of the requirements,
the name at which each missing kind is asked for first (`Grading.wanting`). What the program prints, what it
should print and how it is generated have no part in it (`Grading.Reachable.check_kinds`).
-/
namespace BlockCanvas

namespace Canvas

def Shows (c : Canvas) (kind : Kind) : Prop :=
  ∃ id ∈ c.traverse, c.kind? id = some kind

instance (c : Canvas) (kind : Kind) : Decidable (c.Shows kind) :=
  inferInstanceAs (Decidable (∃ id ∈ c.traverse, c.kind? id = some kind))

theorem Sound.mem_kindsPresent_iff {c : Canvas} (h : c.Sound none) {kind : Kind} :
    kind ∈ c.kindsPresent ↔ c.Shows kind := by
  have hkind : ∀ {b : Block}, b ∈ c.blocks → c.kind? b.id = some b.kind := fun hb => by
    rw [kind?, block?_of_mem h.ascending hb, Option.map_some]
  rw [Canvas.mem_kindsPresent_iff]
  constructor
  · rintro ⟨b, hb, rfl⟩
    exact ⟨b.id, (mem_traverse_iff h.toLinked).2 ⟨b, hb, rfl⟩, hkind hb⟩
  · rintro ⟨_, hid, hk⟩
    obtain ⟨b, hb, rfl⟩ := (mem_traverse_iff h.toLinked).1 hid
    exact ⟨b, hb, Option.some.inj ((hkind hb).symm.trans hk)⟩

end Canvas

namespace Grading

/-! ### Names and kinds -/

namespace Requirements

theorem resolveNames_eq (names : List String) :
    resolveNames names =
      match names.find? fun name => (Kind.ofText? name).isNone with
      | some name => .error (.unknownKind name)
      | none => .ok (names.filterMap fun name => (Kind.ofText? name).map (·, name)) := by
  induction names with
  | nil => rfl
  | cons name names ih =>
    cases hkind : Kind.ofText? name with
    | none => simp [resolveNames, hkind]
    | some kind =>
      simp only [resolveNames, hkind, ih, List.find?_cons, Option.isNone_some, List.filterMap_cons,
        Option.map_some]
      cases names.find? fun name => (Kind.ofText? name).isNone <;> rfl

theorem valid_iff {r : Requirements} :
    r.Valid ↔ r.kinds.find? (fun name => (Kind.ofText? name).isNone) = none := by
  simp only [Valid, List.find?_eq_none, Bool.not_eq_true, Option.isNone_eq_false_iff]

theorem resolved_of_valid {r : Requirements} (h : r.Valid) :
    r.resolved = .ok (r.kinds.filterMap fun name => (Kind.ofText? name).map (·, name)) := by
  rw [resolved, resolveNames_eq, valid_iff.1 h]

theorem valid_of_resolved {r : Requirements} {required : List (Kind × String)}
    (h : r.resolved = .ok required) : r.Valid := by
  rw [resolved, resolveNames_eq] at h
  rw [valid_iff]
  cases hfind : r.kinds.find? fun name => (Kind.ofText? name).isNone with
  | none => rfl
  | some name =>
    rw [hfind] at h
    cases h

theorem valid_of_ofText {json : Json.Codec} {text : String} {r : Requirements}
    (h : ofText json text = .ok r) : r.Valid := by
  rw [ofText] at h
  split at h
  · cases h
  · next value _ =>
    cases value with
    | object members =>
      obtain ⟨given, -, h⟩ := Document.bind_eq_ok h
      obtain ⟨expected, -, h⟩ := Document.bind_eq_ok (show _ >>= _ = _ from h)
      split at h
      · cases h
      · obtain ⟨items, -, h⟩ := Document.bind_eq_ok h
        obtain ⟨kinds, -, h⟩ := Document.bind_eq_ok h
        obtain ⟨required, hresolved, h⟩ := Document.bind_eq_ok h
        obtain rfl := Except.ok.inj h
        exact valid_of_resolved hresolved
      · cases h
    | null | bool _ | int _ | real _ | string _ | array _ => cases h

end Requirements

/-! ### What is missing -/

/-- A name that asks for a kind that is not there, as none of the names before it does. -/
def Wants (c : Canvas) (before : List String) (name : String) : Prop :=
  (∀ kind ∈ Kind.ofText? name, ¬ c.Shows kind) ∧ ∀ other ∈ before, Kind.ofText? other ≠ Kind.ofText? name

instance (c : Canvas) (before : List String) (name : String) : Decidable (Wants c before name) :=
  inferInstanceAs (Decidable (_ ∧ _))

def wanting (c : Canvas) (names : List String) : List String :=
  (names.zipIdx.filter fun p => Wants c (names.take p.2) p.1).map Prod.fst

theorem wanting_concat (c : Canvas) (names : List String) (name : String) :
    wanting c (names ++ [name]) = wanting c names ++ if Wants c names name then [name] else [] := by
  have hbefore : ∀ p ∈ names.zipIdx, (names ++ [name]).take p.2 = names.take p.2 := fun p hp =>
    List.take_append_of_le_length (Nat.le_of_lt (by simpa using List.snd_lt_of_mem_zipIdx hp))
  have hkept : (names.zipIdx.filter fun p => Wants c ((names ++ [name]).take p.2) p.1) =
      names.zipIdx.filter fun p => Wants c (names.take p.2) p.1 :=
    List.filter_congr fun p hp => by rw [hbefore p hp]
  rw [wanting, List.zipIdx_append, List.filter_append, List.map_append, hkept, wanting]
  refine congrArg _ ?_
  rw [List.zipIdx_singleton, Nat.zero_add, List.filter_singleton, List.take_left]
  by_cases h : Wants c names name <;> simp [h]

theorem missing_concat (present reported : List Kind) (required : List (Kind × String)) (p : Kind × String) :
    missing present reported (required ++ [p]) = missing present reported required ++
      if p.1 ∉ present ∧ p.1 ∉ reported ∧ ∀ other ∈ required, other.1 ≠ p.1 then [p.2] else [] := by
  induction required generalizing reported with
  | nil =>
    obtain ⟨kind, name⟩ := p
    by_cases hpresent : kind ∈ present <;> by_cases hreported : kind ∈ reported <;>
      simp [missing, hpresent, hreported]
  | cons first required ih =>
    obtain ⟨kind, name⟩ := first
    rw [List.cons_append, missing, missing]
    split
    · next hseen =>
      -- a kind that is passed over is there or was asked for before, so it makes no difference for the last
      have hdone : kind ∈ present ∨ kind ∈ reported := by simpa using hseen
      have hiff : (p.1 ∉ present ∧ p.1 ∉ reported ∧ ∀ other ∈ (kind, name) :: required, other.1 ≠ p.1) ↔
          p.1 ∉ present ∧ p.1 ∉ reported ∧ ∀ other ∈ required, other.1 ≠ p.1 := by
        rw [List.forall_mem_cons]
        constructor
        · exact fun h => ⟨h.1, h.2.1, h.2.2.2⟩
        · refine fun h => ⟨h.1, h.2.1, ?_, h.2.2⟩
          rintro rfl
          exact hdone.elim h.1 h.2.1
      rw [ih, if_congr hiff rfl rfl]
    · have hiff : (p.1 ∉ present ∧ p.1 ∉ kind :: reported ∧ ∀ other ∈ required, other.1 ≠ p.1) ↔
          p.1 ∉ present ∧ p.1 ∉ reported ∧ ∀ other ∈ (kind, name) :: required, other.1 ≠ p.1 := by
        rw [List.forall_mem_cons, List.mem_cons, not_or, ← ne_eq, ne_comm]
        tauto
      rw [ih, if_congr hiff rfl rfl, List.cons_append]

theorem missing_eq_wanting {c : Canvas} (h : c.Sound none) {names : List String}
    (hnames : ∀ name ∈ names, (Kind.ofText? name).isSome) :
    missing c.kindsPresent [] (names.filterMap fun name => (Kind.ofText? name).map (·, name)) =
      wanting c names := by
  induction names using List.reverseRecOn with
  | nil => rfl
  | append_singleton names name ih =>
    obtain ⟨hbefore, hname⟩ := List.forall_mem_append.1 hnames
    obtain ⟨kind, hkind⟩ := Option.isSome_iff_exists.1 (hname name (List.mem_singleton_self name))
    have hwants : (kind ∉ c.kindsPresent ∧ kind ∉ ([] : List Kind) ∧
        ∀ other ∈ names.filterMap (fun name => (Kind.ofText? name).map (·, name)), other.1 ≠ kind) ↔
          Wants c names name := by
      rw [h.mem_kindsPresent_iff, Wants, hkind]
      simp only [Option.mem_def, Option.some.injEq, forall_eq', List.not_mem_nil, not_false_eq_true, true_and,
        List.mem_filterMap, Option.map_eq_some_iff]
      refine and_congr_right fun _ => ⟨fun hothers other hother hsame => ?_, ?_⟩
      · exact hothers _ ⟨other, hother, kind, hsame, rfl⟩ rfl
      · rintro hothers _ ⟨other, hother, _, hsame, rfl⟩ rfl
        exact hothers other hother hsame
    have hlast : [name].filterMap (fun name => (Kind.ofText? name).map (·, name)) = [(kind, name)] := by
      simp [hkind]
    rw [List.filterMap_append, hlast, wanting_concat, ← ih hbefore, missing_concat]
    exact congrArg _ (if_congr hwants rfl rfl)

structure Covers (c : Canvas) (names : List String) (report : Report) : Prop where
  missingNodes : report.missingNodes = wanting c names
  passedNodes : report.passedNodes = true ↔
    ∀ name ∈ names, ∃ kind, Kind.ofText? name = some kind ∧ c.Shows kind

theorem covers_report {c : Canvas} (h : c.Sound none) {names : List String}
    (hnames : ∀ name ∈ names, (Kind.ofText? name).isSome) (expected : Option String) (source : String)
    (output : Capture) :
    Covers c names (report c expected (names.filterMap fun name => (Kind.ofText? name).map (·, name)) source
      output) where
  missingNodes := missing_eq_wanting h hnames
  passedNodes := by
    rw [passedNodes_report]
    constructor
    · intro hall name hname
      obtain ⟨kind, hkind⟩ := Option.isSome_iff_exists.1 (hnames name hname)
      refine ⟨kind, hkind, h.mem_kindsPresent_iff.1 (hall (kind, name) ?_)⟩
      exact List.mem_filterMap.2 ⟨name, hname, by rw [hkind, Option.map_some]⟩
    · intro hall p hp
      obtain ⟨name, hname, hp⟩ := List.mem_filterMap.1 hp
      obtain ⟨kind, hkind, hshows⟩ := hall name hname
      rw [hkind, Option.map_some] at hp
      obtain rfl := Option.some.inj hp
      exact h.mem_kindsPresent_iff.2 hshows

/-- The first name that names no kind ends a check before the program is run. Without one the program is run, and
whatever comes of it, the report tells the kinds that are missing, each by the first name it was asked for by.
Requirements that were read, by whatever package for JSON, hold no such name. -/
theorem check_covers {m : Type → Type} [Monad m] [LawfulMonad m] {c : Canvas} (h : c.Reachable)
    (r : Requirements) (run : Interpreter m) (o : Python.Options) :
    (match r.kinds.find? fun name => (Kind.ofText? name).isNone with
      | some name => check c r run o = pure (.error (.unknownKind name))
      | none => ∃ grade : Capture → Report,
        check c r run o =
            (fun answer => (answer.mapError CheckError.interpreter).map grade) <$> run (c.program o).source ∧
          ∀ output, Covers c r.kinds (grade output)) ∧
      ∀ (json : Json.Codec) (text : String), Requirements.ofText json text = .ok r →
        r.kinds.find? (fun name => (Kind.ofText? name).isNone) = none := by
  refine ⟨?_, fun _ _ hread => Requirements.valid_iff.1 (Requirements.valid_of_ofText hread)⟩
  cases hfind : r.kinds.find? fun name => (Kind.ofText? name).isNone with
  | some name =>
    have hresolved : r.resolved = .error (.unknownKind name) := by
      rw [Requirements.resolved, Requirements.resolveNames_eq, hfind]
    change check c r run o = _
    rw [check, hresolved]
  | none =>
    have hvalid : r.Valid := Requirements.valid_iff.2 hfind
    exact ⟨_, check_of_resolved c (Requirements.resolved_of_valid hvalid) run o,
      covers_report h.sound hvalid r.expected _⟩

theorem check_covers_nested :
    let edits : List Canvas.Edit :=
      [.instantiate .ifBranch .origin, .instantiate .elseBranch .origin, .attachConnector 2 1,
        .instantiateInto .print ⟨2, 0⟩]
    let c := Canvas.Edit.run .empty edits
    let run : Interpreter (StateM (List String)) := fun source => do
      modify (source :: ·)
      return .ok { stdout := "1" }
    let names := ["dowhile", " Else", "var", "PRINT", "Do-While"]
    c.Reachable ∧
      (∃ report, check c ⟨none, names⟩ run {} [] = (.ok report, [(c.program {}).source]) ∧
        report.missingNodes = ["dowhile", "var"] ∧ report.passedNodes = false) ∧
      check c ⟨none, "loop" :: names ++ ["lop"]⟩ run {} [] = (.error (.unknownKind "loop"), []) := by
  intro edits c run names
  have hc : c.Reachable := Canvas.Reachable.run (.start _) _
  have hknown : names.find? (fun name => (Kind.ofText? name).isNone) = none := by decide +kernel
  have hunknown : ("loop" :: names ++ ["lop"]).find? (fun name => (Kind.ofText? name).isNone) = some "loop" := by
    decide +kernel
  have hmissing : wanting c names = ["dowhile", "var"] := by decide +kernel
  have hchecked := (check_covers hc ⟨none, names⟩ run {}).1
  have hrefused := (check_covers hc ⟨none, "loop" :: names ++ ["lop"]⟩ run {}).1
  rw [hknown] at hchecked
  rw [hunknown] at hrefused
  obtain ⟨grade, hcheck, hcovers⟩ := hchecked
  refine ⟨hc, ⟨grade { stdout := "1" }, by rw [hcheck]; rfl, (hcovers _).missingNodes.trans hmissing, ?_⟩,
    by rw [hrefused]; rfl⟩
  refine Bool.eq_false_iff.2 fun hpassed => ?_
  obtain ⟨kind, hkind, hshows⟩ := (hcovers _).passedNodes.1 hpassed "var" (by decide)
  obtain rfl : kind = .assignment := Option.some.inj (hkind.symm.trans (by decide +kernel))
  exact absurd hshows (by decide +kernel)

end Grading
end BlockCanvas
