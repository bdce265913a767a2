import BlockCanvas.Proofs.CanonicalOutput
import BlockCanvas.Proofs.Quotation
import Mathlib.Data.List.ModifyLast

/-!
Values between commas. Joined again, the parts of a text are the text; what is left of them without their quoted
runs is what the commas of the text separate once its quoted runs are taken out (`map_outside_splitFrom`); and
white space around the text belongs to its first and its last part alone (`splitFrom_trim`).
-/
namespace BlockCanvas.Python
open Text

variable {c q : Char} {cs : List Char}

/-! ### Quoted runs -/

/-- A text without its quoted runs. A quote opens a run, which only the same character closes; a run that is
never closed is all the rest. -/
def outside : List Char → List Char
  | [] => []
  | c :: cs => if isQuote c then outside (cs.dropWhile (· != c)).tail else c :: outside cs
  termination_by cs => cs.length
  decreasing_by
    · have hdrop := (List.dropWhile_suffix (p := (· != c)) (l := cs)).length_le
      simp only [List.length_tail, List.length_cons]
      omega
    · simp

theorem outside_quote (hq : isQuote q = true) (cs : List Char) :
    outside (q :: cs) = outside (cs.dropWhile (· != q)).tail := by
  rw [outside, if_pos hq]

theorem outside_plain (hc : isQuote c = false) (cs : List Char) : outside (c :: cs) = c :: outside cs := by
  rw [outside, if_neg (Bool.eq_false_iff.1 hc)]

theorem run_cases (q : Char) (cs : List Char) :
    q ∉ cs ∧ cs.dropWhile (· != q) = [] ∨
      ∃ run after, q ∉ run ∧ cs = run ++ q :: after ∧ cs.dropWhile (· != q) = q :: after := by
  induction cs with
  | nil => exact Or.inl ⟨List.not_mem_nil, rfl⟩
  | cons c cs ih =>
    by_cases hc : c = q
    · subst hc
      exact Or.inr ⟨[], cs, List.not_mem_nil, rfl, List.dropWhile_cons_of_neg (by simp)⟩
    · rw [List.dropWhile_cons_of_pos (by simpa using hc)]
      rcases ih with ⟨hnone, hdrop⟩ | ⟨run, after, hrun, hcs, hdrop⟩
      · exact Or.inl ⟨List.not_mem_cons_of_ne_of_not_mem (Ne.symm hc) hnone, hdrop⟩
      · exact Or.inr ⟨c :: run, after, List.not_mem_cons_of_ne_of_not_mem (Ne.symm hc) hrun, by rw [hcs]; rfl,
          hdrop⟩

theorem outside_run (hq : isQuote q = true) {run : List Char} (hrun : q ∉ run) (after : List Char) :
    outside (q :: (run ++ q :: after)) = outside after := by
  have hskip : ∀ c ∈ run, (c != q) = true := fun c hc => bne_iff_ne.2 fun he => hrun (he ▸ hc)
  rw [outside_quote hq, List.dropWhile_append_of_pos hskip, List.dropWhile_cons_of_neg (by simp), List.tail_cons]

/-! ### The parts of a text -/

theorem splitFrom_quote (hq : isQuote q = true) (cs : List Char) :
    splitFrom none (q :: cs) = consHead q (splitFrom (some q) cs) := by
  rcases isQuote_cases hq with rfl | rfl <;> rfl

theorem splitFrom_plain (hc : isQuote c = false) (hcomma : c ≠ ',') (cs : List Char) :
    splitFrom none (c :: cs) = consHead c (splitFrom none cs) := by
  have hafter : quoteAfter none c = none := if_neg (Bool.eq_false_iff.1 hc)
  rw [splitFrom, hafter, if_neg (by simpa using hcomma)]

theorem splitFrom_within {run : List Char} (hrun : q ∉ run) (cs : List Char) :
    splitFrom (some q) (run ++ cs) = (splitFrom (some q) cs).modifyHead (run ++ ·) := by
  induction run with
  | nil =>
    obtain ⟨part, parts, hparts⟩ := List.exists_cons_of_ne_nil (splitFrom_ne_nil (some q) cs)
    rw [List.nil_append, hparts]
    rfl
  | cons c run ih =>
    have hc : c ≠ q := (List.ne_of_not_mem_cons hrun).symm
    have hafter : quoteAfter (some q) c = some q := if_neg (by simpa using hc)
    obtain ⟨part, parts, hparts⟩ := List.exists_cons_of_ne_nil (splitFrom_ne_nil (some q) cs)
    rw [List.cons_append, splitFrom, hafter, ih (List.not_mem_of_not_mem_cons hrun), hparts]
    rfl

theorem splitFrom_run (hq : isQuote q = true) {run : List Char} (hrun : q ∉ run) (after : List Char) :
    splitFrom none (q :: (run ++ q :: after)) = (splitFrom none after).modifyHead ((q :: run ++ [q]) ++ ·) := by
  have hclose : splitFrom (some q) (q :: after) = consHead q (splitFrom none after) := by
    have hafter : quoteAfter (some q) q = none := if_pos (beq_self_eq_true q)
    rw [splitFrom, hafter]
    rfl
  obtain ⟨part, parts, hparts⟩ := List.exists_cons_of_ne_nil (splitFrom_ne_nil none after)
  rw [splitFrom_quote hq, splitFrom_within hrun, hclose, hparts]
  simp [consHead]

theorem splitFrom_unclosed (hq : isQuote q = true) (hcs : q ∉ cs) : splitFrom none (q :: cs) = [q :: cs] := by
  have hrest := splitFrom_within hcs []
  rw [List.append_nil] at hrest
  rw [splitFrom_quote hq, hrest]
  simp [splitFrom, consHead]

/-- Taking quoted runs out of the parts leaves what all commas separate that are left of the text without its
quoted runs. -/
theorem map_outside_splitFrom (cs : List Char) :
    (splitFrom none cs).map outside = (outside cs).splitOn ',' := by
  induction cs using outside.induct with
  | case1 => simp [splitFrom, outside]
  | case2 q cs hq ih =>
    rcases run_cases q cs with ⟨hnone, hdrop⟩ | ⟨run, after, hrun, hcs, hdrop⟩
    · rw [splitFrom_unclosed hq hnone, List.map_singleton, outside_quote hq, hdrop, List.tail_nil, outside,
        List.splitOn_nil]
    · rw [hdrop, List.tail_cons] at ih
      obtain ⟨part, parts, hparts⟩ := List.exists_cons_of_ne_nil (splitFrom_ne_nil none after)
      have hpart : outside ((q :: run ++ [q]) ++ part) = outside part := by
        simpa using outside_run hq hrun part
      rw [hparts] at ih
      rw [hcs, splitFrom_run hq hrun, outside_run hq hrun, ← ih, hparts, List.modifyHead_cons, List.map_cons,
        hpart, List.map_cons]
  | case3 c cs hc ih =>
    have hc : isQuote c = false := Bool.eq_false_iff.2 hc
    rw [outside_plain hc, List.splitOn_cons_eq_if_modifyHead, ← ih]
    by_cases hcomma : c = ','
    · rw [if_pos (by simpa using hcomma), hcomma]
      simp [splitFrom, outside]
    · obtain ⟨part, parts, hparts⟩ := List.exists_cons_of_ne_nil (splitFrom_ne_nil none cs)
      rw [if_neg (by simpa using hcomma), splitFrom_plain hc hcomma, hparts, consHead, List.map_cons,
        outside_plain hc, List.map_cons, List.modifyHead_cons]

theorem intercalate_splitFrom (quote : Option Char) (cs : List Char) :
    [','].intercalate (splitFrom quote cs) = cs := by
  induction cs generalizing quote with
  | nil => rfl
  | cons c cs ih =>
    obtain ⟨part, parts, hparts⟩ := List.exists_cons_of_ne_nil (splitFrom_ne_nil none cs)
    rw [splitFrom]
    split
    · next hcomma =>
      obtain ⟨-, hcomma⟩ := Bool.and_eq_true_iff.1 hcomma
      rw [hparts, List.intercalate_cons_cons, ← hparts, ih none, beq_iff_eq.1 hcomma]
      rfl
    · have hrest := ih (quoteAfter quote c)
      obtain ⟨part, parts, hparts⟩ := List.exists_cons_of_ne_nil (splitFrom_ne_nil (quoteAfter quote c) cs)
      rw [hparts] at hrest
      rw [hparts, consHead, ← hrest]
      cases parts with
      | nil => simp
      | cons next parts => rw [List.intercalate_cons_cons, List.intercalate_cons_cons]; rfl

/-! ### White space around a text -/

theorem splitFrom_trimStart (cs : List Char) :
    splitFrom none (trimStart cs) = (splitFrom none cs).modifyHead trimStart := by
  induction cs with
  | nil => rfl
  | cons c cs ih =>
    obtain ⟨part, parts, hparts⟩ := List.exists_cons_of_ne_nil (splitFrom_ne_nil none cs)
    cases hc : isBlank c with
    | true =>
      have hskip : ∀ cs, trimStart (c :: cs) = trimStart cs := fun cs => List.dropWhile_cons_of_pos hc
      rw [hskip, ih, splitFrom_blank (q := none) hc nofun, hparts, consHead, List.modifyHead_cons, List.modifyHead_cons, hskip]
    | false =>
      have hkeep : ∀ cs, trimStart (c :: cs) = c :: cs :=
        fun cs => List.dropWhile_cons_of_neg (Bool.eq_false_iff.1 hc)
      rw [hkeep, splitFrom]
      split
      · rfl
      · obtain ⟨part, parts, hparts⟩ := List.exists_cons_of_ne_nil (splitFrom_ne_nil (quoteAfter none c) cs)
        rw [hparts, consHead, List.modifyHead_cons, hkeep]

theorem trimEnd_of_suffix {before part : List Char} (h : trimEnd (before ++ part) = before ++ part) :
    trimEnd part = part := by
  rw [trimEnd_eq, List.rdropWhile_eq_self_iff] at h ⊢
  intro hpart
  have hlast := h (List.append_ne_nil_of_right_ne_nil before hpart)
  rwa [List.getLast_append_of_ne_nil _ hpart] at hlast

theorem splitFrom_trimEnd (cs : List Char) :
    splitFrom none (trimEnd cs) = (splitFrom none cs).modifyLast trimEnd := by
  obtain ⟨space, hcs, hspace⟩ := exists_eq_trimEnd_append cs
  obtain ⟨parts, part, htrimmed, hwhole⟩ := exists_splitFrom_append hspace (trimEnd cs) (q := none) nofun
  -- the last part of the trimmed text stands at its end, where nothing is left to trim
  have hpart : trimEnd part = part := by
    have hjoin := intercalate_splitFrom none (trimEnd cs)
    rw [htrimmed] at hjoin
    have hbefore : ∃ before, trimEnd cs = before ++ part := by
      rw [← hjoin]
      by_cases hnil : parts = []
      · exact ⟨[], by simp [hnil]⟩
      · exact ⟨[','].intercalate parts ++ [','], by rw [Grading.intercalate_concat hnil]; simp⟩
    obtain ⟨before, hbefore⟩ := hbefore
    exact trimEnd_of_suffix (hbefore ▸ trimEnd_trimEnd cs)
  rw [← hcs] at hwhole
  rw [htrimmed, hwhole, List.modifyLast_concat, trimEnd_append_blank hspace, hpart]

theorem splitFrom_trim (cs : List Char) :
    splitFrom none (trim cs) = ((splitFrom none cs).modifyHead trimStart).modifyLast trimEnd := by
  rw [trim, splitFrom_trimEnd, splitFrom_trimStart]

/-! ### Printed values -/

def trimmedStart (part : String) : String :=
  String.ofList (trimStart part.toList)

def trimmedEnd (part : String) : String :=
  String.ofList (trimEnd part.toList)

theorem toList_intercalate_splitCommas (text : String) : ",".intercalate (splitCommas text) = text := by
  rw [← String.toList_inj, String.toList_intercalate, splitCommas, List.map_map]
  simpa [Function.comp_def] using intercalate_splitFrom none text.toList

theorem map_outside_splitCommas (text : String) :
    (splitCommas text).map (fun part => outside part.toList) = (outside text.toList).splitOn ',' := by
  rw [← map_outside_splitFrom, splitCommas, List.map_map]
  simp [Function.comp_def]

theorem splitCommas_trimmed (text : String) :
    splitCommas (trimmed text) = ((splitCommas text).modifyHead trimmedStart).modifyLast trimmedEnd := by
  have hhead : ∀ parts : List (List Char), (parts.map String.ofList).modifyHead trimmedStart =
      (parts.modifyHead trimStart).map String.ofList := by
    rintro (_ | ⟨part, parts⟩)
    · rfl
    · simp [trimmedStart]
  have hlast : ∀ parts : List (List Char), (parts.map String.ofList).modifyLast trimmedEnd =
      (parts.modifyLast trimEnd).map String.ofList := by
    intro parts
    rcases List.eq_nil_or_concat parts with rfl | ⟨parts, part, rfl⟩
    · rfl
    · simp [trimmedEnd, List.modifyLast_concat]
  rw [splitCommas, trimmed, String.toList_ofList, splitFrom_trim, splitCommas, hhead, hlast]

theorem length_splitOn (c : Char) (cs : List Char) : (cs.splitOn c).length = cs.count c + 1 := by
  induction cs with
  | nil => rfl
  | cons d cs ih =>
    rw [List.splitOn_cons_eq_if_modifyHead, List.count_cons]
    split
    · rw [List.length_cons, ih]
    · rw [List.length_modifyHead, ih, Nat.add_zero]

/-- Splitting a text at its commas loses nothing of it and splits at no comma in quotes. A print block prints the
same for a text and for the trimmed text, typed into its slot or given as its override. -/
theorem splitCommas_lossless (text : String) :
    ",".intercalate (splitCommas text) = text ∧
      (splitCommas text).length = (outside text.toList).count ',' + 1 ∧
      (∀ part ∈ splitCommas text, ',' ∉ outside part.toList) ∧
      splitCommas (trimmed text) = ((splitCommas text).modifyHead trimmedStart).modifyLast trimmedEnd ∧
      ∀ (s : Scope) (face : Face), arguments s (trimmed text) = arguments s text ∧
        (∀ child, printArguments s face [⟨"value", .value child (trimmed text)⟩] =
          printArguments s face [⟨"value", .value child text⟩]) ∧
        ∀ slots, printArguments s { face with override := some (trimmed text) } slots =
          printArguments s { face with override := some text } slots := by
  have hpieces := map_outside_splitCommas text
  have htrim : trim (trimmed text).toList = trim text.toList := trim_trimmed text
  refine ⟨toList_intercalate_splitCommas text, ?_, ?_, splitCommas_trimmed text, fun s face => ⟨?_, ?_, ?_⟩⟩
  · rw [← length_splitOn, ← hpieces, List.length_map]
  · intro part hpart
    exact Grading.notMem_of_mem_splitOn (hpieces ▸ List.mem_map_of_mem hpart)
  · exact arguments_congr s htrim
  · intro child
    cases child with
    | some t => rfl
    | none =>
      have htext : ∀ text, printArguments s face [⟨"value", .value none text⟩] =
          (s, arguments s (if allBlank text then face.override.getD "" else text)) := fun _ => rfl
      rw [htext, htext, allBlank_congr htrim]
      split
      · rfl
      · rw [arguments_congr s htrim]
  · intro slots
    have htext : trim (printedText { face with override := some (trimmed text) } slots).toList =
        trim (printedText { face with override := some text } slots).toList := by
      rw [printedText, printedText]
      split
      · split
        · exact htrim
        · rfl
      · exact htrim
    rw [printArguments, printArguments, arguments_congr s htext]

theorem splitCommas_lossless_quoted :
    let text := " x, 'a, \"b', \"c, "
    splitCommas text = [" x", " 'a, \"b'", " \"c, "] ∧ splitCommas (trimmed text) = ["x", " 'a, \"b'", " \"c,"] ∧
      (outside text.toList).count ',' = 2 ∧ " 'a, \"b'" ∈ splitCommas text ∧ ',' ∉ outside " 'a, \"b'".toList := by
  intro text
  have hparts : splitCommas text = [" x", " 'a, \"b'", " \"c, "] := by decide
  obtain ⟨-, hlength, hpart, htrimmed, -⟩ := splitCommas_lossless text
  have hmem : " 'a, \"b'" ∈ splitCommas text := by simp [hparts]
  refine ⟨hparts, ?_, ?_, hmem, hpart _ hmem⟩
  · rw [htrimmed, hparts]
    decide
  · rw [hparts] at hlength
    exact (Nat.succ.inj hlength).symm

end BlockCanvas.Python
