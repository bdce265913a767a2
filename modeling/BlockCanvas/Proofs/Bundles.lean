import BlockCanvas.Bundle.Submission
import BlockCanvas.Proofs.Archives
import BlockCanvas.Proofs.Preview
import BlockCanvas.Proofs.Resaving

/-!
Bundles are read back. What a document leaves out of a canvas decides which ones are: a canvas that opens too
many containers is no JSON to the reader, an operator block that lies about cannot be placed again, and a name
that is empty comes back as the one of the palette.
-/
namespace BlockCanvas

variable {library : Library} {f : Float → Float}

/-! ### Manifests and reports -/

namespace Json

theorem legible_ofStrings (items : List String) : (ofStrings items).Legible :=
  .array (List.forall_mem_map.2 fun s _ => .string s)

theorem depth_ofStrings_le (items : List String) : (ofStrings items).depth ≤ 1 :=
  Nat.succ_le_succ (itemsDepth_le_iff.2 (List.forall_mem_map.2 fun _ _ => Nat.le_refl 0))

theorem reread_ofStrings (f : Float → Float) (items : List String) :
    (ofStrings items).reread f = ofStrings items := by
  rw [ofStrings, reread, rereadItems_eq, List.map_map]
  rfl

end Json

namespace Submission
open Json
variable {c c' : Canvas} {report : Option Grading.Report} {archive : Zip.Archive}

theorem legible_manifest (hcount : c.size < 2 ^ 64) (program : Python.Program) (hasReport : Bool) :
    (manifest library c program hasReport).Legible := by
  have hblocks : (Json.int c.size).Legible := .int (by omega) (by omega)
  have hversion : (Json.int version).Legible := .int (by decide) (by decide)
  refine .object (List.pairwise_map.1 (?_ :
    ["blocks", "digest", "format", "has_report", "variables", "version"].Pairwise (· < ·))) ?_
  · decide +kernel
  · simp [hblocks, hversion, legible_ofStrings, Legible.string, Legible.bool]

theorem legible_report (r : Grading.Report) : r.toJson.Legible := by
  refine .object (List.pairwise_map.1 (?_ :
    ["diagnostics", "missingNodes", "passed", "passedNodes", "passedOutput", "source", "stderr", "stdout",
      "timedOut", "truncated"].Pairwise (· < ·))) ?_
  · decide +kernel
  · simp [legible_ofStrings, Legible.string, Legible.bool]

theorem read_manifest (hjson : library.json.Lawful f) (hcount : c.size < 2 ^ 64) (program : Python.Program)
    (hasReport : Bool) :
    library.json.read (library.json.write (manifest library c program hasReport)) =
      some (manifest library c program hasReport) := by
  have hnames := depth_ofStrings_le program.names
  have hdepth : (manifest library c program hasReport).depth ≤ maxDepth := by
    simp only [manifest, depth, membersDepth, maxDepth]
    omega
  rw [hjson.reads (legible_manifest hcount program hasReport), if_pos hdepth]
  simp only [manifest, reread, rereadMembers, reread_ofStrings]

theorem read_report (hjson : library.json.Lawful f) (r : Grading.Report) :
    library.json.read (library.json.write r.toJson) = some r.toJson := by
  have hdiagnostics := depth_ofStrings_le r.diagnostics
  have hmissing := depth_ofStrings_le r.missingNodes
  have hdepth : r.toJson.depth ≤ maxDepth := by
    simp only [Grading.Report.toJson, depth, membersDepth, maxDepth]
    omega
  rw [hjson.reads (legible_report r), if_pos hdepth]
  simp only [Grading.Report.toJson, reread, rereadMembers, reread_ofStrings]

/-! ### What a bundle gives back -/

/-- What the packages underneath are relied on for. The blocks have to be few enough to be counted by a number
that JSON is read with. -/
structure Kept (library : Library) (f : Float → Float) (c : Canvas) (report : Option Grading.Report) :
    Prop where
  json : library.json.Lawful f
  zip : library.zip.Keeps (pack library c report)
  counted : c.size < 2 ^ 64

theorem entry?_pack (library : Library) (c : Canvas) (report : Option Grading.Report) :
    ∀ e ∈ pack library c report, Zip.entry? (pack library c report) e.1 = some e.2 := by
  cases report <;>
    simp [pack, entries, Zip.entry?, List.lookup_cons, manifestName, canvasName, sourceName, reportName]

theorem kept_standard {report : Option Grading.Report} (h : Zip.Fits (pack Library.standard c report))
    (hcount : c.size < 2 ^ 64) : Kept Library.standard Json.returned c report :=
  ⟨Json.lawful_standard, Zip.keeps_standard h (entry?_pack _ _ _), hcount⟩

theorem textOf_of_mem (h : ∀ e ∈ pack library c report, Zip.entry? archive e.1 = some e.2) {name text : String}
    (he : (name, text) ∈ entries library c report) : textOf archive name = .ok text := by
  have hentry := h (name, Text.utf8 text) (List.mem_map_of_mem (f := fun e => (e.1, Text.utf8 e.2)) he)
  simp only [textOf, hentry, Text.strict?_utf8]

theorem digestOf_manifest (c : Canvas) (program : Python.Program) (hasReport : Bool) :
    digestOf (manifest library c program hasReport) = .ok (library.digest program.source) := by
  have hversion : (Json.int version).nat? = some version := by decide
  simp [digestOf, manifest, Json.member?, Json.members?, Json.find?, Json.string?, hversion]

theorem reportOf_manifest (program : Python.Program)
    (hread : ∀ r, report = some r → ∃ text, textOf archive reportName = .ok text ∧
      library.json.read text = some r.toJson) :
    reportOf library archive (manifest library c program report.isSome) =
      .ok (report.map Grading.Report.toJson) := by
  cases report with
  | none => simp [reportOf, manifest, Json.member?, Json.members?, Json.find?, Json.bool?]
  | some r =>
    obtain ⟨text, htext, hparse⟩ := hread r rfl
    simp [reportOf, manifest, Json.member?, Json.members?, Json.find?, Json.bool?, htext, hparse, bind,
      Except.bind, pure, Except.pure]

theorem ofBytes_toBytes (h : Kept library f c report) :
    ofBytes library (toBytes library c report) =
      if c.toJson.depth ≤ maxDepth then
        match Canvas.ofJson (c.toJson.reread f) with
        | .error e => .error (.invalidCanvas e)
        | .ok c' =>
          if (c'.program {}).source != (c.program {}).source then .error .sourceMismatch
          else .ok ⟨c', (c.program {}).source, library.digest (c.program {}).source,
            report.map Grading.Report.toJson⟩
      else .error (.invalidCanvas .notJson) := by
  obtain ⟨archive, hdecode, hstored⟩ := h.zip
  have hmanifest : textOf archive manifestName =
      .ok (library.json.write (manifest library c (c.program {}) report.isSome)) :=
    textOf_of_mem hstored (by simp [entries])
  have hcanvas : textOf archive canvasName = .ok (c.toJsonText library.json) :=
    textOf_of_mem hstored (by simp [entries])
  have hsource : textOf archive sourceName = .ok (c.program {}).source :=
    textOf_of_mem hstored (by simp [entries])
  have hreport : reportOf library archive (manifest library c (c.program {}) report.isSome) =
      .ok (report.map Grading.Report.toJson) := by
    refine reportOf_manifest _ fun r hr => ?_
    subst hr
    exact ⟨_, textOf_of_mem hstored (by simp [entries]), read_report h.json r⟩
  have hread := read_manifest h.json h.counted (c.program {}) report.isSome
  simp only [ofBytes, toBytes, hdecode, unpack, hmanifest, hcanvas, hsource, hread, digestOf_manifest,
    Canvas.ofJsonText_toJsonText_eq h.json, hreport, bind, Except.bind, pure, Except.pure]
  by_cases hdepth : c.toJson.depth ≤ maxDepth
  · simp only [if_pos hdepth]
    cases Canvas.ofJson (c.toJson.reread f) with
    | error e => simp
    | ok c' => by_cases hsame : (c'.program {}).source = (c.program {}).source <;> simp [hsame]
  · simp [hdepth]

theorem ofBytes_eq_ok_iff (hs : c.Sound none) (hframe : c.FrameWritable) (h : Kept library f c report)
    (s : Submission) :
    ofBytes library (toBytes library c report) = .ok s ↔
      c.toJson.depth ≤ maxDepth ∧ c.Placeable ∧ (c.restored.program {}).source = (c.program {}).source ∧
        Canvas.ofJson (c.toJson.reread f) = .ok s.canvas ∧ s.source = (c.program {}).source ∧
        s.digest = library.digest (c.program {}).source ∧ s.report = report.map Grading.Report.toJson := by
  obtain ⟨canvas, source, digest, json⟩ := s
  rw [ofBytes_toBytes h]
  by_cases hdepth : c.toJson.depth ≤ maxDepth
  · by_cases hplace : c.Placeable
    · obtain ⟨c', hc', hforest⟩ := hs.exists_reread h.json.finite hframe hplace
      have hprogram := congrArg Python.Program.source (Canvas.program_reread hforest {})
      rw [hc']
      by_cases hsame : (c.restored.program {}).source = (c.program {}).source
      · simp [hdepth, hplace, hprogram, hsame, eq_comm]
      · simp [hdepth, hprogram, hsame]
    · cases hc' : Canvas.ofJson (c.toJson.reread f) with
      | error e => simp [hdepth, hplace]
      | ok c' => exact absurd (hs.placeable_of_reread h.json.finite hframe hc') hplace
  · simp [hdepth]

/-! ### Sessions from scratch -/

theorem follows_empty (o : Python.Options) (ops : List Session.Operation) :
    (Session.start .empty o).Follows ((Session.start .empty o).run ops) := by
  have hempty : Canvas.empty.Reachable := .start _
  exact (Session.coherent_start hempty o).run ops

theorem frameWritable_run (o : Python.Options) (ops : List Session.Operation) :
    ((Session.start .empty o).run ops).canvas.FrameWritable := by
  have hrun := follows_empty o ops
  have hbounds : Canvas.empty.bounds.Writable := by decide
  have hzone : ((Session.start .empty o).run ops).canvas.discardZone = none := hrun.discardZone
  refine ⟨?_, fun zone hz => ?_⟩
  · rw [hrun.bounds]
    exact hbounds
  · rw [hzone] at hz
    cases hz

/-- What is made in a session from scratch is read back from its bundle if and only if no more than
`Json.maxDepth` containers of its document are open at once, as where at most 41 blocks are placed in each
other, no operator block lies about, and the names that come back do not show in the program. Then the bundle
holds the program of the canvas, its digest and the report. -/
theorem unpack_session (library : Library) (f : Float → Float) (o : Python.Options)
    (ops : List Session.Operation) (report : Option Grading.Report)
    (h : Kept library f ((Session.start .empty o).run ops).canvas report) :
    let c := ((Session.start .empty o).run ops).canvas
    ((∃ s, ofBytes library (toBytes library c report) = .ok s) ↔
        c.toJson.depth ≤ maxDepth ∧ c.Placeable ∧
          (c.restored.program {}).source = (c.program {}).source) ∧
      (∀ s, ofBytes library (toBytes library c report) = .ok s →
        s.source = (c.program {}).source ∧ s.digest = library.digest (c.program {}).source ∧
          s.report = report.map Grading.Report.toJson) ∧
      ((∀ r ∈ c.forest, r.tree.height ≤ 41) → c.toJson.depth ≤ maxDepth) ∧
      ((∀ b ∈ c.blocks, b.kind = .assignment ∨ b.kind = .forLoop → b.name ≠ "") →
        (c.restored.program {}).source = (c.program {}).source) := by
  intro c
  have hs : c.Sound none := (follows_empty o ops).coherent.reachable.sound
  have hframe : c.FrameWritable := frameWritable_run o ops
  have hiff := ofBytes_eq_ok_iff hs hframe h
  refine ⟨⟨?_, ?_⟩, fun s hread => ((hiff s).1 hread).2.2.2.2, fun hheight => ?_, fun hnamed => ?_⟩
  · rintro ⟨s, hread⟩
    obtain ⟨hdepth, hplace, hsame, -⟩ := (hiff s).1 hread
    exact ⟨hdepth, hplace, hsame⟩
  · rintro ⟨hdepth, hplace, hsame⟩
    obtain ⟨c', hc', -⟩ := hs.exists_reread h.json.finite hframe hplace
    exact ⟨⟨c', _, _, _⟩, (hiff _).2 ⟨hdepth, hplace, hsame, hc', rfl, rfl, rfl⟩⟩
  · exact (Canvas.depth_toJson_le hheight).trans (by decide)
  · rw [Canvas.restored_eq_self hnamed]

theorem unpack_session_named :
    let ops : List Session.Operation :=
      [.beginTransfer (.template .assignment), .drop ⟨100, 100⟩, .setName 1 "größe 2",
        .setLiteral ⟨1, 0⟩ "\"½\\\""]
    let c := ((Session.start .empty {}).run ops).canvas
    let report : Grading.Report := ⟨true, true, [], "½\n", "", "", false, true, []⟩
    let library := Library.standard
    Kept library Json.returned c (some report) ∧
      ∃ s, ofBytes library (toBytes library c (some report)) = .ok s ∧
        s.source = "größe_2 = \"½\\\\\"\n" ∧ s.report = some report.toJson := by
  intro ops c report library
  have hkept : Kept library Json.returned c (some report) :=
    kept_standard ⟨by decide, by decide +kernel, by decide +kernel⟩ (by decide +kernel)
  have hdepth : ∀ r ∈ c.forest, r.tree.height ≤ 41 := by decide +kernel
  have hplace : c.Placeable := by decide +kernel
  have hnamed : ∀ b ∈ c.blocks, b.kind = .assignment ∨ b.kind = .forLoop → b.name ≠ "" := by
    decide +kernel
  have hsource : (c.program {}).source = "größe_2 = \"½\\\\\"\n" := by decide +kernel
  obtain ⟨hiff, hfaithful, hshallow, hshown⟩ := unpack_session library Json.returned {} ops (some report) hkept
  obtain ⟨s, hs⟩ := hiff.2 ⟨hshallow hdepth, hplace, hshown hnamed⟩
  exact ⟨hkept, s, hs, (hfaithful s hs).1.trans hsource, (hfaithful s hs).2.2⟩

theorem unpack_unnamed :
    let ops : List Session.Operation :=
      [.beginTransfer (.template .assignment), .drop ⟨100, 100⟩, .setName 1 ""]
    let c := ((Session.start .empty {}).run ops).canvas
    let library := Library.standard
    Kept library Json.returned c none ∧
      ofBytes library (toBytes library c none) = .error .sourceMismatch := by
  intro ops c library
  have hkept : Kept library Json.returned c none :=
    kept_standard ⟨by decide, by decide +kernel, by decide +kernel⟩ (by decide +kernel)
  have hs : c.Sound none := (follows_empty {} ops).coherent.reachable.sound
  have hplace : c.Placeable := by decide +kernel
  have hdepth : c.toJson.depth ≤ maxDepth := by decide +kernel
  obtain ⟨c', hc', hforest⟩ := hs.exists_reread hkept.json.finite (frameWritable_run {} ops) hplace
  have hsource : (c.program {}).source = "var = None\n" := by decide +kernel
  have hrestored : (c'.program {}).source = "x = None\n" := by
    rw [Canvas.program_reread hforest]
    decide +kernel
  refine ⟨hkept, ?_⟩
  rw [ofBytes_toBytes hkept, if_pos hdepth, hc']
  dsimp only
  rw [hrestored, hsource]
  exact if_pos (by decide)

end Submission
end BlockCanvas
