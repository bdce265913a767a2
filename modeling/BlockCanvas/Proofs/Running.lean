import BlockCanvas.CommandLine.Job
import Mathlib.Data.List.Basic

/-!
Programs that are run, on any system. Of each stream the first bytes are kept, up to the limit, and a run counts
as truncated if and only if there is one more (`Interpreter.keep_spec`). A program that is not started leaves
the files alone (`Interpreter.files_execute`), and a job runs none that was not asked to
(`CommandLine.perform_of_not_run`).
-/
namespace BlockCanvas.Host

/-! ### Streams -/

namespace Flow

def byte? (f : Flow) (k : ℕ) : Option UInt8 :=
  f.data[k]?.or <|
    match f.rest with
    | .cycle block => block[(k - f.data.length) % block.length]?
    | _ => none

variable {f : Flow} {n k : ℕ}

theorem length_rounds (block : Bytes) (n : ℕ) : (rounds block n).length = n * block.length := by
  rw [rounds, List.length_flatten, List.map_replicate, List.sum_replicate_nat]

theorem getElem?_rounds {block : Bytes} (h : k < n * block.length) :
    (rounds block n)[k]? = block[k % block.length]? := by
  induction n generalizing k with
  | zero => omega
  | succ n ih =>
    rw [rounds, List.replicate_succ, List.flatten_cons]
    by_cases hk : k < block.length
    · rw [List.getElem?_append_left hk, Nat.mod_eq_of_lt hk]
    · rw [Nat.add_mul, Nat.one_mul] at h
      rw [List.getElem?_append_right (Nat.not_lt.1 hk), Nat.mod_eq_sub_mod (Nat.not_lt.1 hk)]
      exact ih (by omega)

theorem getElem?_unroll (h : k < n) : (f.unroll n).data[k]? = f.byte? k := by
  obtain ⟨data, rest⟩ := f
  cases rest with
  | ended => simp [unroll, byte?]
  | silent => simp [unroll, byte?]
  | cycle block =>
    cases hblock : block with
    | nil => simp [unroll, byte?]
    | cons b bytes =>
      rw [← hblock]
      have hpos : 0 < block.length := by simp [hblock]
      have hempty : block.isEmpty = false := by simp [hblock]
      simp only [unroll, byte?, hempty, Bool.false_eq_true, if_false]
      by_cases hk : k < data.length
      · rw [List.getElem?_append_left hk, List.getElem?_eq_getElem hk]
        rfl
      · have hround : k - data.length < ((n - data.length) / block.length + 1) * block.length := by
          have hdiv := Nat.lt_div_mul_add (a := n - data.length) hpos
          rw [Nat.add_mul, Nat.one_mul]
          omega
        rw [List.getElem?_append_right (Nat.not_lt.1 hk), getElem?_rounds hround,
          List.getElem?_eq_none (Nat.not_lt.1 hk), Option.none_or]

end Flow

/-! ### Interpreters -/

namespace Interpreter
variable {i : Interpreter} {system : System} {source : String} {files : Files} {e : Execution}

/-- The bytes that are kept are the first of the stream, and there are more if and only if the stream has a byte
at the limit. -/
theorem keep_spec (limit : ℕ) (f : Flow) :
    (keep limit f).1.length ≤ limit ∧ (∀ k < limit, (keep limit f).1[k]? = f.byte? k) ∧
      ((keep limit f).2 = true ↔ (f.byte? limit).isSome) := by
  refine ⟨List.length_take_le _ _, fun k hk => ?_, ?_⟩
  · rw [keep, List.getElem?_take_of_lt hk, Flow.getElem?_unroll (by omega)]
  · rw [keep, decide_eq_true_iff, ← Flow.getElem?_unroll (Nat.lt_succ_self limit), isSome_getElem?]

theorem capture_eq {timedOut : Bool} {out err : Flow} (htime : e.timedOut = .ok timedOut)
    (hout : e.stdout = .ok out) (herr : e.stderr = .ok err) :
    ∃ capture, i.capture e = .ok capture ∧ capture.timedOut = timedOut ∧
      capture.stdout = Text.lossy (keep i.limit out).1 ∧
      (capture.truncated = true ↔ (out.byte? i.limit).isSome ∨ (err.byte? i.limit).isSome) ∧
      (timedOut = false → capture.stderr = Text.lossy (keep i.limit err).1) ∧
      (timedOut = true → capture.stderr = withStopNotice i.timeout (Text.lossy (keep i.limit err).1)) := by
  refine ⟨_, by rw [capture, htime, hout, herr]; rfl, rfl, rfl, ?_, fun h => ?_, fun h => ?_⟩
  · exact (Bool.or_eq_true _ _).to_iff.trans (or_congr (keep_spec i.limit out).2.2 (keep_spec i.limit err).2.2)
  · exact if_neg (by simp [h])
  · exact if_pos h

theorem withStopNotice_eq (timeout : ℕ) (stderr : String) :
    ∃ before, withStopNotice timeout stderr = before ++ stopNotice timeout ∧
      (before = stderr ∨ before = stderr ++ "\n") ∧ (before = "" ∨ ∃ line, before = line ++ "\n") := by
  rw [withStopNotice]
  split
  · next h =>
    rw [Bool.or_eq_true, String.isEmpty_iff, String.endsWith_char_iff_exists_append] at h
    exact ⟨stderr, rfl, Or.inl rfl, h⟩
  · exact ⟨stderr ++ "\n", rfl, Or.inr rfl, Or.inr ⟨stderr, rfl⟩⟩

theorem files_execute :
    ((i.execute system source).run files).2 = files ∨
      ∃ directory prepared e, system.run i.program (i.arguments (directory ++ ["main.py"])) directory i.timeout
        prepared = .ok e ∧ ((i.execute system source).run files).2 = e.files.remove directory := by
  simp only [execute, StateT.run_bind, StateT.run_get, pure_bind]
  cases hscratch : system.scratch files with
  | error t => exact Or.inl rfl
  | ok made =>
    obtain ⟨directory, prepared⟩ := made
    dsimp only
    cases hwrite : prepared.write [] (Files.written (directory ++ ["main.py"])) (Text.utf8 source) false with
    | error t => exact Or.inl rfl
    | ok prepared =>
      dsimp only
      cases hrun : system.run i.program (i.arguments (directory ++ ["main.py"])) directory i.timeout prepared with
      | error t => exact Or.inl rfl
      | ok e =>
        refine Or.inr ⟨directory, prepared, e, hrun, ?_⟩
        cases hcapture : i.capture e <;> simp [hcapture] <;> rfl

end Interpreter
end BlockCanvas.Host

namespace BlockCanvas.CommandLine
open Host

/-! ### Jobs -/

namespace Job
variable {α β : Type} {x : Job α} {f : α → Job β} {k n : ℕ}

def Begins (x : Job α) (n : ℕ) : Prop :=
  ∀ d a d', x.run.run d = (.ok a, d') → d'.stage = d.stage + n

def Answers (x : Job α) (P : α → Prop) : Prop :=
  ∀ d a d', x.run.run d = (.ok a, d') → P a

theorem exists_run_of_bind {d d' : Desk} {b : β} (h : (x >>= f).run.run d = (.ok b, d')) :
    ∃ a d₁, x.run.run d = (.ok a, d₁) ∧ (f a).run.run d₁ = (.ok b, d') := by
  rw [ExceptT.run_bind, StateT.run_bind] at h
  cases hrun : x.run.run d with
  | mk result d₁ =>
    rw [hrun] at h
    cases result with
    | error e => cases h
    | ok a => exact ⟨a, d₁, rfl, h⟩

theorem Answers.bind {P : β → Prop} (hf : ∀ a, (f a).Answers P) : (x >>= f).Answers P := by
  intro d b d' h
  obtain ⟨a, d₁, -, hb⟩ := exists_run_of_bind h
  exact hf a d₁ b d' hb

theorem Begins.bind_of {P : α → Prop} (hx : x.Begins n) (hP : x.Answers P) (hf : ∀ a, P a → (f a).Begins k) :
    (x >>= f).Begins (n + k) := by
  intro d b d' h
  obtain ⟨a, d₁, ha, hb⟩ := exists_run_of_bind h
  rw [hf a (hP d a d₁ ha) d₁ b d' hb, hx d a d₁ ha, Nat.add_assoc]

theorem Begins.bind (hx : x.Begins n) (hf : ∀ a, (f a).Begins k) : (x >>= f).Begins (n + k) :=
  hx.bind_of (P := fun _ => True) (fun _ _ _ _ => trivial) fun a _ => hf a

theorem begins_pure (a : α) : (pure a : Job α).Begins 0 := by
  rintro d a d' ⟨⟩
  rfl

theorem begins_throw (e : Failure) : (throw e : Job α).Begins n := by
  rintro d a d' ⟨⟩

theorem begins_modify {change : Desk → Desk} (h : ∀ d, (change d).stage = d.stage) :
    (modify change : Job Unit).Begins 0 := by
  rintro d a d' ⟨⟩
  exact h d

theorem begins_get {g : Desk → Job α} (h : ∀ d a d', (g d).run.run d = (.ok a, d') → d'.stage = d.stage + n) :
    (get >>= g).Begins n :=
  fun d a d' hrun => h d a d' hrun

theorem begins_print (text : String) : (print text).Begins 0 :=
  begins_modify fun _ => rfl

theorem begins_printError (text : String) : (printError text).Begins 0 :=
  begins_modify fun _ => rfl

theorem begins_announce (total : ℕ) (label : String) : (announce total label).Begins 1 := by
  rintro d a d' ⟨⟩
  rfl

theorem begins_write (path : String) (data : Bytes) (failure : Failure) : (write path data failure).Begins 0 := by
  refine begins_get fun d a d' h => ?_
  split at h <;> cases h
  rfl

theorem begins_locate (path : String) : (locate path).Begins 0 := by
  refine begins_get fun d => ?_
  split
  · exact begins_pure _ d
  · exact begins_pure _ d
  · exact begins_throw _ d

theorem begins_load (library : Library) (path : Path) : (load library path).Begins 0 := by
  refine begins_get fun d => ?_
  repeat' split
  all_goals first | exact begins_pure _ d | exact begins_throw _ d

theorem begins_requirements (library : Library) (o : Options) : (requirements library o).Begins 0 := by
  rw [requirements]
  split
  · exact begins_pure _
  · refine begins_get fun d => ?_
    repeat' split
    all_goals first | exact begins_pure _ d | exact begins_throw _ d

theorem begins_grade (library : Library) (system : System) (o : Options) (canvas : Canvas) :
    (grade library system o canvas).Begins 0 := by
  refine (begins_requirements library o).bind (k := 0) fun r => begins_get fun d a d' h => ?_
  split at h
  next result files _ =>
    cases result <;> cases h
    rfl

theorem begins_writeBundle (library : Library) (path : String) (canvas : Canvas) (report : Option Grading.Report) :
    (writeBundle library path canvas report).Begins 0 := by
  refine begins_get fun d a d' h => ?_
  split at h
  · cases h
  · next files _ => exact begins_write _ _ _ { d with files } _ _ h

variable {library : Library} {system : System} {o : Options}

theorem begins_emitSource (source : String) :
    (emitSource o source).Begins (if o.emit.isSome then 1 else 0) := by
  rw [emitSource]
  split
  · next path he =>
    rw [he]
    exact (begins_announce _ _).bind fun _ => begins_write _ _ _
  · next he =>
    rw [he]
    split
    · exact begins_print _
    · exact begins_pure _

theorem begins_gradeIfAsked (canvas : Canvas) :
    (gradeIfAsked library system o canvas).Begins (if o.run then 1 else 0) := by
  rw [gradeIfAsked]
  split
  · exact (begins_announce _ _).bind fun _ => (begins_grade _ _ _ _).bind fun _ => begins_pure _
  · exact begins_pure _

theorem answers_gradeIfAsked (canvas : Canvas) :
    (gradeIfAsked library system o canvas).Answers fun report => report.isSome = o.run := by
  rw [gradeIfAsked]
  split
  · next hrun =>
    refine .bind fun _ => .bind fun graded => ?_
    rintro d a d' ⟨⟩
    exact hrun.symm
  · next hrun =>
    rintro d a d' ⟨⟩
    exact (eq_false_of_ne_true hrun).symm

theorem begins_writeReport {report : Option Grading.Report} (h : o.reportJson.isSome → report.isSome) :
    (writeReport library o report).Begins (if o.reportJson.isSome then 1 else 0) := by
  cases hpath : o.reportJson with
  | none =>
    simp only [writeReport, hpath]
    exact begins_pure _
  | some path =>
    cases report with
    | none => simp [hpath] at h
    | some graded =>
      simp only [writeReport, hpath]
      exact (begins_announce _ _).bind fun _ => begins_write _ _ _

theorem begins_bundleIfAsked (canvas : Canvas) (report : Option Grading.Report) :
    (bundleIfAsked library o canvas report).Begins (if o.bundle.isSome then 1 else 0) := by
  rw [bundleIfAsked]
  split
  · next path he =>
    rw [he]
    exact (begins_announce _ _).bind fun _ => begins_writeBundle _ _ _ _
  · next he =>
    rw [he]
    exact begins_pure _

theorem run_of_conflict? (h : conflict? o = none) (hreport : o.reportJson.isSome) : o.run = true := by
  by_contra hrun
  rw [Bool.not_eq_true] at hrun
  simp [conflict?, hreport, hrun] at h

theorem begins_steps : (steps library system o).Begins (stages o) := by
  have hstages : stages o = 1 + (0 + (1 + (0 + (1 + ((if o.emit.isSome then 1 else 0) +
      ((if o.run then 1 else 0) + ((if o.reportJson.isSome then 1 else 0) +
        ((if o.bundle.isSome then 1 else 0) + 0)))))))) := by
    rw [stages]
    omega
  rw [steps]
  split
  · exact begins_throw _
  · next hconflict =>
    rw [hstages]
    refine (begins_announce _ _).bind fun _ => (begins_locate _).bind fun path => ?_
    refine (begins_announce _ _).bind fun _ => (begins_load _ _).bind fun canvas => ?_
    refine (begins_announce _ _).bind fun _ => (begins_emitSource _).bind fun _ => ?_
    refine (begins_gradeIfAsked canvas).bind_of (answers_gradeIfAsked canvas) fun report hreport => ?_
    refine (begins_writeReport fun hpath => hreport.trans (run_of_conflict? hconflict hpath)).bind fun _ => ?_
    refine (begins_bundleIfAsked canvas report).bind fun _ => ?_
    split
    · exact begins_throw _
    · exact begins_pure _

end Job

variable {library : Library} {system : System} {o : Options} {files : Files} {directory : Path}

/-- A job that ends well has begun all its stages, and no more. -/
theorem stage_perform (h : (perform library system o files directory).1 = none) :
    (perform library system o files directory).2.stage = Job.stages o := by
  rw [perform] at h ⊢
  cases hrun : (Job.steps library system o).run { files, directory } with
  | mk result desk =>
    rw [hrun] at h
    cases result with
    | error e => cases h
    | ok _ => exact (Job.begins_steps _ _ _ hrun).trans (Nat.zero_add _)

theorem perform_of_conflict {failure : Failure} (h : Job.conflict? o = some failure) :
    perform library system o files directory = (some failure, { files, directory }) := by
  rw [perform, Job.steps, h]
  rfl

/-- Nothing is run unless that is asked for: the system does not matter. -/
theorem perform_of_not_run (h : o.run = false) (system' : System) :
    perform library system o files directory = perform library system' o files directory := by
  have hgrade : ∀ canvas, Job.gradeIfAsked library system o canvas = Job.gradeIfAsked library system' o canvas := by
    intro canvas
    simp only [Job.gradeIfAsked, h, Bool.false_eq_true, if_false]
  simp only [perform, Job.steps, hgrade]

end BlockCanvas.CommandLine
