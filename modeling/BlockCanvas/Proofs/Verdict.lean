import BlockCanvas.Proofs.Reachable
import BlockCanvas.Grading.Report

/-!
The verdict of a check. It is read off what the program printed and the kinds of the blocks there are. That
the run was stopped, or that its output was cut off, is in the report and does not enter the verdict.
-/
namespace BlockCanvas

theorem Canvas.mem_kindsPresent_iff {c : Canvas} {kind : Kind} :
    kind ∈ c.kindsPresent ↔ ∃ b ∈ c.blocks, b.kind = kind := by
  have hall : kind ∈ Kind.all := by cases kind <;> decide
  simp [kindsPresent, hall]

namespace Grading

theorem missing_eq_nil_iff {present reported : List Kind} {required : List (Kind × String)} :
    missing present reported required = [] ↔
      ∀ p ∈ required, p.1 ∈ present ∨ p.1 ∈ reported := by
  induction required generalizing reported with
  | nil => simp [missing]
  | cons p rest ih =>
    obtain ⟨kind, name⟩ := p
    by_cases hseen : kind ∈ present ∨ kind ∈ reported
    · have hcond : (present.contains kind || reported.contains kind) = true := by simpa using hseen
      rw [missing, if_pos hcond, ih, List.forall_mem_cons]
      exact ⟨fun h => ⟨hseen, h⟩, And.right⟩
    · have hcond : ¬ (present.contains kind || reported.contains kind) = true := by simpa using hseen
      rw [missing, if_neg hcond, List.forall_mem_cons]
      exact ⟨fun h => absurd h (List.cons_ne_nil _ _), fun h => absurd h.1 hseen⟩

namespace Requirements

def Valid (r : Requirements) : Prop :=
  ∀ name ∈ r.kinds, (Kind.ofText? name).isSome

instance (r : Requirements) : Decidable r.Valid :=
  inferInstanceAs (Decidable (∀ name ∈ r.kinds, (Kind.ofText? name).isSome))

def Met (r : Requirements) (c : Canvas) (stdout : String) : Prop :=
  (∀ text, r.expected = some text → normalOutput stdout = normalOutput text) ∧
    ∀ name ∈ r.kinds, ∃ b ∈ c.blocks, Kind.ofText? name = some b.kind

theorem resolveNames_eq_ok {names : List String} (h : ∀ name ∈ names, (Kind.ofText? name).isSome) :
    ∃ required, resolveNames names = .ok required ∧
      ∀ present : Kind → Prop, (∀ p ∈ required, present p.1) ↔
        ∀ name ∈ names, ∃ kind, Kind.ofText? name = some kind ∧ present kind := by
  induction names with
  | nil => exact ⟨[], rfl, by simp⟩
  | cons name names ih =>
    obtain ⟨hname, hnames⟩ := List.forall_mem_cons.1 h
    obtain ⟨kind, hkind⟩ := Option.isSome_iff_exists.1 hname
    obtain ⟨required, hr, hiff⟩ := ih hnames
    refine ⟨(kind, name) :: required, by simp [resolveNames, hkind, hr, Except.map], fun present => ?_⟩
    rw [List.forall_mem_cons, List.forall_mem_cons, hiff present, hkind]
    simp

end Requirements

structure Verdict (c : Canvas) (r : Requirements) (output : Capture) (report : Report) : Prop where
  timedOut : report.timedOut = output.timedOut
  truncated : report.truncated = output.truncated
  stopped : output.timedOut = true →
    "The program did not finish before the time limit." ∈ report.diagnostics
  cutOff : output.truncated = true →
    "The program printed too much; the captured output was cut off." ∈ report.diagnostics
  passed : report.passed = true ↔ r.Met c output.stdout

theorem passedOutput_report (c : Canvas) (expected : Option String) (required : List (Kind × String))
    (source : String) (output : Capture) :
    (report c expected required source output).passedOutput = true ↔
      ∀ text, expected = some text → normalOutput output.stdout = normalOutput text := by
  cases expected with
  | none => simp [report]
  | some text => simp [report]

theorem passedNodes_report (c : Canvas) (expected : Option String) (required : List (Kind × String))
    (source : String) (output : Capture) :
    (report c expected required source output).passedNodes = true ↔
      ∀ p ∈ required, p.1 ∈ c.kindsPresent := by
  simp [report, missing_eq_nil_iff]

theorem verdict_report (c : Canvas) {r : Requirements} {required : List (Kind × String)}
    (hiff : ∀ present : Kind → Prop, (∀ p ∈ required, present p.1) ↔
      ∀ name ∈ r.kinds, ∃ kind, Kind.ofText? name = some kind ∧ present kind)
    (source : String) (output : Capture) :
    Verdict c r output (report c r.expected required source output) where
  timedOut := rfl
  truncated := rfl
  stopped h := by simp [report, diagnose, h]
  cutOff h := by simp [report, diagnose, h]
  passed := by
    have hnodes : (report c r.expected required source output).passedNodes = true ↔
        ∀ name ∈ r.kinds, ∃ b ∈ c.blocks, Kind.ofText? name = some b.kind := by
      rw [passedNodes_report, hiff (· ∈ c.kindsPresent)]
      refine forall₂_congr fun name _ => ?_
      simp only [Canvas.mem_kindsPresent_iff]
      constructor
      · rintro ⟨_, hkind, b, hb, rfl⟩
        exact ⟨b, hb, hkind⟩
      · rintro ⟨b, hb, hkind⟩
        exact ⟨b.kind, hkind, b, hb, rfl⟩
    rw [Report.passed, Bool.and_eq_true, passedOutput_report, hnodes]
    rfl

theorem check_of_resolved {m : Type → Type} [Monad m] [LawfulMonad m] (c : Canvas) {r : Requirements}
    {required : List (Kind × String)} (hr : r.resolved = .ok required) (run : Interpreter m)
    (o : Python.Options) :
    check c r run o =
      (fun answer => (answer.mapError CheckError.interpreter).map
        (report c r.expected required (c.program o).source)) <$> run (c.program o).source := by
  rw [check, hr, map_eq_pure_bind]
  refine congrArg (run (c.program o).source >>= ·) (funext fun answer => ?_)
  cases answer <;> rfl

/-- A submission that requires known kinds is always graded once the interpreter answers, and it passes just
if the requirements are met by what was printed, whether or not the run was stopped or cut off. -/
theorem check_verdict {m : Type → Type} [Monad m] [LawfulMonad m] (c : Canvas) {r : Requirements}
    (h : r.Valid) (run : Interpreter m) (o : Python.Options) :
    ∃ grade : Capture → Report,
      check c r run o =
        (fun answer => (answer.mapError CheckError.interpreter).map grade) <$> run (c.program o).source ∧
      ∀ output, Verdict c r output (grade output) := by
  obtain ⟨required, hr, hiff⟩ := Requirements.resolveNames_eq_ok h
  exact ⟨report c r.expected required (c.program o).source, check_of_resolved c hr run o,
    verdict_report c hiff _⟩

theorem check_verdict_stopped :
    let c := Canvas.Edit.run .empty [.instantiate .print .origin, .setLiteral ⟨1, 0⟩ "Hello!"]
    let r : Requirements := ⟨some "Hello!", ["Print"]⟩
    let output : Capture := { stdout := "Hello!\nHello!\n", timedOut := true, truncated := true }
    r.Valid ∧ ∃ grade : Capture → Report,
      check (m := Id) c r (fun _ => .ok output) {} = .ok (grade output) ∧
        Verdict c r output (grade output) ∧ (grade output).passed = false := by
  intro c r output
  have hr : r.Valid := by decide +kernel
  obtain ⟨grade, hcheck, hverdict⟩ := check_verdict (m := Id) c hr (fun _ => .ok output) {}
  refine ⟨hr, grade, hcheck, hverdict output, Bool.eq_false_iff.2 fun hpassed => ?_⟩
  have hsame := ((hverdict output).passed.1 hpassed).1 "Hello!" rfl
  exact absurd hsame (by decide +kernel)

theorem stopped_run_passes :
    let c := Canvas.Edit.run .empty [.instantiate .print .origin, .setLiteral ⟨1, 0⟩ "Hello!"]
    let r : Requirements := ⟨some "Hello!", ["print"]⟩
    let output : Capture := { stdout := "Hello!\n", timedOut := true, truncated := true }
    c.Reachable ∧ r.Valid ∧ ∃ report, check (m := Id) c r (fun _ => .ok output) {} = .ok report ∧
      report.timedOut = true ∧ report.truncated = true ∧ report.passed = true := by
  intro c r output
  have hkind : Kind.ofText? "print" = some .print := by decide +kernel
  have hresolved : r.resolved = .ok [(.print, "print")] := by
    simp [r, Requirements.resolved, Requirements.resolveNames, hkind, Except.map]
  refine ⟨Canvas.Reachable.run (.start _) _, by decide +kernel, _,
    check_of_resolved (m := Id) c hresolved _ _, rfl, rfl, by decide +kernel⟩

end Grading
end BlockCanvas
