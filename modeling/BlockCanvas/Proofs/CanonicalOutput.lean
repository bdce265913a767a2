import BlockCanvas.Grading.Output
import Mathlib.Data.List.DropRight
import Mathlib.Data.List.Induction
import Mathlib.Logic.Relation

/-!
The form in which outputs are compared. It keeps of a text its lines without the white space behind them, less the
empty ones at either end (`Grading.significant`), and nothing else. So two texts have the same form just if the one
comes of the other by changes that do not count: line ends, white space behind lines, blank lines at the ends
(`Grading.Slack`).
-/
namespace BlockCanvas.Text
variable {cs ds : List Char} {c : Char}

theorem trimEnd_eq (cs : List Char) : trimEnd cs = cs.rdropWhile isBlank :=
  rfl

theorem trimEnd_eq_nil_iff : trimEnd cs = [] ↔ ∀ c ∈ cs, isBlank c = true := by
  rw [trimEnd_eq]
  exact List.rdropWhile_eq_nil_iff

theorem trimEnd_trimEnd (cs : List Char) : trimEnd (trimEnd cs) = trimEnd cs := by
  rw [trimEnd_eq, trimEnd_eq]
  exact List.rdropWhile_idempotent _ _

theorem trimEnd_cons_congr (h : trimEnd cs = trimEnd ds) (c : Char) : trimEnd (c :: cs) = trimEnd (c :: ds) := by
  have hreverse : cs.reverse.dropWhile isBlank = ds.reverse.dropWhile isBlank := List.reverse_injective h
  rw [trimEnd, trimEnd, List.reverse_cons, List.reverse_cons, List.dropWhile_append, List.dropWhile_append,
    hreverse]

theorem exists_eq_trimEnd_append (cs : List Char) :
    ∃ space, cs = trimEnd cs ++ space ∧ ∀ c ∈ space, isBlank c = true :=
  ⟨cs.rtakeWhile isBlank, List.rdropWhile_append_rtakeWhile.symm, fun _ hc => List.mem_rtakeWhile_imp hc⟩

end BlockCanvas.Text

namespace BlockCanvas.Grading
open Text

/-! ### The lines that count -/

/-- What stands between line feeds, without the white space at its end. -/
def bareLines (text : List Char) : List (List Char) :=
  (text.splitOn '\n').map trimEnd

def core (lines : List (List Char)) : List (List Char) :=
  (lines.dropWhile List.isEmpty).rdropWhile List.isEmpty

def significant (text : List Char) : List (List Char) :=
  core (bareLines text)

theorem bareLines_newline (text : List Char) : bareLines ('\n' :: text) = [] :: bareLines text := by
  rw [bareLines, List.splitOn_cons_eq_if_modifyHead, if_pos (beq_self_eq_true _)]
  rfl

theorem exists_splitOn (text : List Char) : ∃ line lines, text.splitOn '\n' = line :: lines :=
  List.exists_cons_of_ne_nil (List.splitOn_ne_nil _ _)

theorem splitOn_cons {c : Char} (hc : c ≠ '\n') {text line : List Char} {lines : List (List Char)}
    (h : text.splitOn '\n' = line :: lines) : (c :: text).splitOn '\n' = (c :: line) :: lines := by
  rw [List.splitOn_cons_eq_if_modifyHead, if_neg (by simpa using hc), h, List.modifyHead_cons]

theorem bareLines_cons_congr {text text' : List Char} (h : bareLines text = bareLines text') (c : Char) :
    bareLines (c :: text) = bareLines (c :: text') := by
  by_cases hc : c = '\n'
  · rw [hc, bareLines_newline, bareLines_newline, h]
  · obtain ⟨line, lines, hlines⟩ := exists_splitOn text
    obtain ⟨line', lines', hlines'⟩ := exists_splitOn text'
    rw [bareLines, bareLines, hlines, hlines', List.map_cons, List.map_cons] at h
    obtain ⟨hline, hrest⟩ := List.cons.inj h
    rw [bareLines, bareLines, splitOn_cons hc hlines, splitOn_cons hc hlines', List.map_cons, List.map_cons,
      trimEnd_cons_congr hline, hrest]

theorem bareLines_append_congr {text text' : List Char} (h : bareLines text = bareLines text')
    (before : List Char) : bareLines (before ++ text) = bareLines (before ++ text') := by
  induction before with
  | nil => exact h
  | cons c before ih => exact bareLines_cons_congr ih c

theorem bareLines_cons_blank {c : Char} (hblank : isBlank c = true) (hc : c ≠ '\n') {text : List Char}
    (h : (bareLines text).head? = some []) : bareLines (c :: text) = bareLines text := by
  obtain ⟨line, lines, hlines⟩ := exists_splitOn text
  rw [bareLines, hlines, List.map_cons, List.head?_cons, Option.some.injEq, trimEnd_eq_nil_iff] at h
  have hempty : trimEnd line = [] := trimEnd_eq_nil_iff.2 h
  have hempty' : trimEnd (c :: line) = [] := trimEnd_eq_nil_iff.2 (List.forall_mem_cons.2 ⟨hblank, h⟩)
  rw [bareLines, bareLines, splitOn_cons hc hlines, hlines, List.map_cons, List.map_cons, hempty, hempty']

theorem core_cons_nil (lines : List (List Char)) : core ([] :: lines) = core lines :=
  rfl

theorem core_concat_nil (lines : List (List Char)) : core (lines ++ [[]]) = core lines := by
  rw [core, core, List.dropWhile_append]
  split
  · next h => rw [List.isEmpty_iff.1 h]; rfl
  · exact List.rdropWhile_concat_pos _ _ _ rfl

/-! ### The lines that are kept -/

theorem bareLines_unixLineEnds (text : List Char) : bareLines (unixLineEnds text) = bareLines text := by
  induction text using unixLineEnds.induct with
  | case1 cs ih =>
    have hreturn : bareLines ('\r' :: '\n' :: cs) = bareLines ('\n' :: cs) :=
      bareLines_cons_blank (by decide) (by decide) (by rw [bareLines_newline]; rfl)
    rw [unixLineEnds, hreturn]
    exact bareLines_cons_congr ih _
  | case2 c cs hreturn ih =>
    rw [unixLineEnds]
    · exact bareLines_cons_congr ih _
    · exact hreturn
  | case3 => rfl

theorem exists_bareLines (text : List Char) :
    ∃ rest, (rest = [] ∨ rest = [[]]) ∧ bareLines text = (endedLines text).map trimEnd ++ rest := by
  induction text using endedLines.induct with
  | case1 => exact ⟨[[]], Or.inr rfl, rfl⟩
  | case2 cs ih =>
    obtain ⟨rest, hrest, h⟩ := ih
    exact ⟨rest, hrest, by rw [bareLines_newline, h]; rfl⟩
  | case3 cs ih =>
    obtain ⟨rest, hrest, h⟩ := ih
    have hreturn : bareLines ('\r' :: '\n' :: cs) = bareLines ('\n' :: cs) :=
      bareLines_cons_blank (by decide) (by decide) (by rw [bareLines_newline]; rfl)
    exact ⟨rest, hrest, by rw [hreturn, bareLines_newline, h]; rfl⟩
  | case4 c cs hc hreturn ih =>
    obtain ⟨rest, hrest, h⟩ := ih
    obtain ⟨line, lines, hlines⟩ := exists_splitOn cs
    rw [bareLines, hlines, List.map_cons] at h
    rw [endedLines, bareLines, splitOn_cons hc hlines, List.map_cons]
    · -- the character stands in the first line of what follows, be that ended or not
      cases hended : endedLines cs with
      | nil =>
        rw [hended, List.map_nil, List.nil_append] at h
        obtain rfl := hrest.resolve_left (h ▸ List.cons_ne_nil _ _)
        obtain ⟨hline, hnil⟩ := List.cons.inj h
        have hblank : trimEnd line = trimEnd [] := hline
        exact ⟨[], Or.inl rfl, by rw [hnil, trimEnd_cons_congr hblank c]; rfl⟩
      | cons line' lines' =>
        rw [hended] at h
        obtain ⟨hline, htail⟩ := List.cons.inj h
        exact ⟨rest, hrest, by rw [htail, trimEnd_cons_congr hline c]; rfl⟩
    · exact hc
    · exact hreturn

theorem core_trimmedLines (text : List Char) : core (trimmedLines text) = significant text := by
  obtain ⟨rest, hrest, h⟩ := exists_bareLines (unixLineEnds text)
  rw [significant, ← bareLines_unixLineEnds, h]
  rcases hrest with rfl | rfl
  · rw [List.append_nil, trimmedLines]
  · exact (core_concat_nil _).symm

theorem rdropWhile_isEmpty (lines : List (List Char)) :
    lines.rdropWhile List.isEmpty = lines.take (lines.length - lines.reverse.findIdx isFilled) := by
  rw [List.rdropWhile, List.dropWhile_eq_drop_findIdx_not, List.reverse_drop, List.reverse_reverse,
    List.length_reverse]
  rfl

theorem core_eq_drop_take (lines : List (List Char)) :
    core lines = (lines.take (lines.length - lines.reverse.findIdx isFilled)).drop (firstFilled lines) := by
  have hdrop : lines.dropWhile List.isEmpty = lines.drop (firstFilled lines) :=
    List.dropWhile_eq_drop_findIdx_not
  rw [core, hdrop, rdropWhile_isEmpty, List.reverse_drop, List.findIdx_take, List.length_drop, List.drop_take]
  congr 1
  omega

theorem filledRange_eq_core (lines : List (List Char)) :
    (firstFilled lines ≤ pastFilled lines ∧ pastFilled lines ≤ lines.length) ∧
      filledRange lines = core lines := by
  rw [filledRange, core_eq_drop_take, pastFilled]
  cases hlast : lines.reverse.findIdx? isFilled with
  | none =>
    have hnone : ∀ line ∈ lines, isFilled line = false := fun line hline =>
      List.findIdx?_eq_none_iff.1 hlast line (List.mem_reverse.2 hline)
    have hfirst : firstFilled lines = lines.length := List.findIdx_eq_length_of_false hnone
    refine ⟨⟨le_refl _, hfirst.le⟩, ?_⟩
    rw [List.drop_eq_nil_of_le (by rw [List.length_take, hfirst]; omega),
      List.drop_eq_nil_of_le (by rw [List.length_take, hfirst]; omega)]
  | some fromEnd =>
    obtain ⟨hlt, hfrom⟩ := List.findIdx?_eq_some_iff_findIdx_eq.1 hlast
    rw [List.length_reverse] at hlt
    refine ⟨⟨?_, Nat.sub_le _ _⟩, by rw [hfrom]⟩
    -- the last filled line is not before the first
    have hfilled : isFilled lines[lines.length - 1 - fromEnd] = true := by
      have hin : lines.reverse.findIdx isFilled < lines.reverse.length := by
        rwa [hfrom, List.length_reverse]
      have hget : isFilled lines.reverse[lines.reverse.findIdx isFilled] = true := List.findIdx_getElem
      rwa [List.getElem_reverse, getElem_congr_idx (by rw [hfrom])] at hget
    have hle : firstFilled lines ≤ lines.length - 1 - fromEnd :=
      not_lt.1 fun h => Bool.false_ne_true ((List.not_of_lt_findIdx h).symm.trans hfilled)
    change firstFilled lines ≤ lines.length - fromEnd
    omega

/-! ### The form of a text -/

theorem toList_normalOutput (text : String) :
    (normalOutput text).toList = ['\n'].intercalate (significant text.toList) := by
  rw [normalOutput, String.toList_ofList, (filledRange_eq_core _).2, core_trimmedLines]

structure Settled (lines : List (List Char)) : Prop where
  unbroken : ∀ line ∈ lines, '\n' ∉ line
  bare : ∀ line ∈ lines, trimEnd line = line
  head : lines.head? ≠ some []
  last : lines.getLast? ≠ some []

theorem notMem_of_mem_splitOn {c : Char} {text line : List Char} (h : line ∈ text.splitOn c) : c ∉ line := by
  induction text generalizing line with
  | nil =>
    rw [List.splitOn_nil, List.mem_singleton] at h
    exact h ▸ List.not_mem_nil
  | cons d text ih =>
    rw [List.splitOn_cons_eq_if_modifyHead] at h
    split at h
    · rcases List.mem_cons.1 h with rfl | h
      · exact List.not_mem_nil
      · exact ih h
    · next hd =>
      obtain ⟨first, rest, hsplit⟩ := List.exists_cons_of_ne_nil (List.splitOn_ne_nil c text)
      rw [hsplit, List.modifyHead_cons] at h
      rcases List.mem_cons.1 h with rfl | h
      · rintro (_ | ⟨_, hmem⟩)
        · exact hd (beq_self_eq_true _)
        · exact ih (hsplit ▸ List.mem_cons_self) hmem
      · exact ih (hsplit ▸ List.mem_cons_of_mem _ h)

theorem mem_of_mem_core {lines : List (List Char)} {line : List Char} (h : line ∈ core lines) : line ∈ lines :=
  (List.dropWhile_sublist _).subset ((List.rdropWhile_prefix _ _).subset h)

theorem settled_significant (text : List Char) : Settled (significant text) where
  unbroken line hline := by
    obtain ⟨line, hmem, rfl⟩ := List.mem_map.1 (mem_of_mem_core hline)
    exact fun hc => notMem_of_mem_splitOn hmem ((List.rdropWhile_prefix _ _).subset hc)
  bare line hline := by
    obtain ⟨line, -, rfl⟩ := List.mem_map.1 (mem_of_mem_core hline)
    exact trimEnd_trimEnd line
  head h := by
    obtain ⟨rest, hcore⟩ := List.head?_eq_some_iff.1 h
    obtain ⟨more, hprefix⟩ : core (bareLines text) <+: (bareLines text).dropWhile List.isEmpty :=
      List.rdropWhile_prefix _ _
    have hnot := List.head?_dropWhile_not List.isEmpty (bareLines text)
    rw [← hprefix, show core (bareLines text) = [] :: rest from hcore] at hnot
    exact Bool.noConfusion hnot
  last h := by
    obtain ⟨hne, hlast⟩ := List.mem_getLast?_eq_getLast h
    have hnot := List.rdropWhile_last_not List.isEmpty ((bareLines text).dropWhile List.isEmpty) hne
    exact hnot (List.isEmpty_iff.2 hlast.symm)

theorem Settled.core_eq {lines : List (List Char)} (h : Settled lines) : core lines = lines := by
  have hdrop : lines.dropWhile List.isEmpty = lines := by
    cases lines with
    | nil => rfl
    | cons line lines =>
      refine List.dropWhile_cons_of_neg fun hempty => h.head ?_
      rw [List.head?_cons, List.isEmpty_iff.1 hempty]
  rw [core, hdrop, List.rdropWhile_eq_self_iff]
  intro hne hempty
  exact h.last (by rw [List.getLast?_eq_some_getLast hne, List.isEmpty_iff.1 hempty])

theorem significant_intercalate {lines : List (List Char)} (h : Settled lines) :
    significant (['\n'].intercalate lines) = lines := by
  cases lines with
  | nil => rfl
  | cons line lines =>
    have hsplit := List.splitOn_intercalate '\n' h.unbroken (List.cons_ne_nil _ _)
    have hbare : (line :: lines).map trimEnd = line :: lines :=
      (List.map_congr_left h.bare).trans (List.map_id' _)
    rw [significant, bareLines, hsplit, hbare, h.core_eq]

theorem significant_normalOutput (text : String) :
    significant (normalOutput text).toList = significant text.toList := by
  rw [toList_normalOutput, significant_intercalate (settled_significant _)]

theorem normalOutput_eq_iff (a b : String) :
    normalOutput a = normalOutput b ↔ significant a.toList = significant b.toList := by
  constructor
  · intro h
    rw [← significant_normalOutput a, h, significant_normalOutput]
  · intro h
    rw [← String.toList_inj, toList_normalOutput, toList_normalOutput, h]

/-! ### Changes that do not count -/

def IsMargin (space : List Char) : Prop :=
  ∀ c ∈ space, isBlank c = true ∧ c ≠ '\n'

instance (space : List Char) : Decidable (IsMargin space) :=
  List.decidableBAll _ space

/-- A change of a text that adds to it nothing but white space behind a line or a blank line at an end. -/
inductive Slack : List Char → List Char → Prop
  | lineEnd (before after : List Char) : Slack (before ++ '\n' :: after) (before ++ '\r' :: '\n' :: after)
  | margin (before : List Char) {space after : List Char} (hspace : IsMargin space)
      (hafter : ∀ c ∈ after.takeWhile (· != '\n'), isBlank c = true) :
      Slack (before ++ after) (before ++ space ++ after)
  | above {space : List Char} (hspace : IsMargin space) (text : List Char) : Slack text (space ++ '\n' :: text)
  | below (text : List Char) {space : List Char} (hspace : IsMargin space) : Slack text (text ++ '\n' :: space)

theorem head?_bareLines (text : List Char) :
    (bareLines text).head? = some (trimEnd (text.takeWhile (· != '\n'))) := by
  have hhead : (text.splitOn '\n').head? = some (text.takeWhile (· != '\n')) := by
    induction text with
    | nil => rfl
    | cons c text ih =>
      rw [List.splitOn_cons_eq_if_modifyHead]
      by_cases hc : c = '\n'
      · simp [hc]
      · simp [hc, List.head?_modifyHead, ih]
  rw [bareLines, List.head?_map, hhead, Option.map_some]

theorem bareLines_margin {space after : List Char} (hspace : IsMargin space)
    (hafter : ∀ c ∈ after.takeWhile (· != '\n'), isBlank c = true) :
    bareLines (space ++ after) = bareLines after := by
  have hhead : (bareLines after).head? = some [] := by
    rw [head?_bareLines, trimEnd_eq_nil_iff.2 hafter]
  induction space with
  | nil => rfl
  | cons c space ih =>
    obtain ⟨⟨hblank, hc⟩, hspace⟩ := List.forall_mem_cons.1 hspace
    have hrest := ih hspace
    exact (bareLines_cons_blank hblank hc (hrest ▸ hhead)).trans hrest

theorem bareLines_of_isMargin {space : List Char} (hspace : IsMargin space) : bareLines space = [[]] := by
  have hmargin : bareLines (space ++ []) = bareLines [] := bareLines_margin hspace (List.forall_mem_nil _)
  rwa [List.append_nil] at hmargin

theorem Slack.significant_eq {a b : List Char} (h : Slack a b) : significant a = significant b := by
  cases h with
  | lineEnd before after =>
    have hreturn : IsMargin ['\r'] := by decide
    exact congrArg core (bareLines_append_congr (bareLines_margin hreturn (by simp)).symm before)
  | margin before hspace hafter =>
    rw [List.append_assoc]
    exact congrArg core (bareLines_append_congr (bareLines_margin hspace hafter).symm before)
  | @above space hspace _ =>
    have hlines : bareLines (space ++ '\n' :: a) = [] :: bareLines a := by
      rw [bareLines_margin hspace (by simp), bareLines_newline]
    rw [significant, significant, hlines, core_cons_nil]
  | @below _ space hspace =>
    have hlines : bareLines (a ++ '\n' :: space) = bareLines a ++ [[]] := by
      rw [bareLines, List.splitOn_append_cons_self, List.map_append]
      exact congrArg _ (bareLines_of_isMargin hspace)
    rw [significant, significant, hlines, core_concat_nil]

theorem slack_trimEnd {lines : List (List Char)} (h : ∀ line ∈ lines, '\n' ∉ line) (before : List Char) :
    Relation.EqvGen Slack (before ++ ['\n'].intercalate lines)
      (before ++ ['\n'].intercalate (lines.map trimEnd)) := by
  induction lines generalizing before with
  | nil => exact .refl _
  | cons line lines ih =>
    obtain ⟨hline, hlines⟩ := List.forall_mem_cons.1 h
    obtain ⟨space, heq, hblank⟩ := exists_eq_trimEnd_append line
    have hspace : IsMargin space := fun c hc =>
      ⟨hblank c hc, fun hn => hline (by rw [heq, ← hn]; exact List.mem_append_right _ hc)⟩
    have htrim : ∀ after : List Char, (∀ c ∈ after.takeWhile (· != '\n'), isBlank c = true) →
        Relation.EqvGen Slack (before ++ (line ++ after)) (before ++ (trimEnd line ++ after)) := by
      intro after hafter
      have hstep := Slack.margin (before ++ trimEnd line) hspace hafter
      have hline' : before ++ trimEnd line ++ space ++ after = before ++ (line ++ after) := by
        conv_rhs => rw [heq]
        simp only [List.append_assoc]
      rw [hline', List.append_assoc] at hstep
      exact .symm _ _ (.rel _ _ hstep)
    cases lines with
    | nil => simpa using htrim [] (List.forall_mem_nil _)
    | cons next lines =>
      have hfirst := htrim (['\n'] ++ ['\n'].intercalate (next :: lines)) (by simp)
      have hrest := ih hlines (before ++ (trimEnd line ++ ['\n']))
      simp only [List.map_cons, List.intercalate_cons_cons, List.append_assoc] at hfirst hrest ⊢
      exact .trans _ _ _ hfirst hrest

theorem slack_dropWhile (lines : List (List Char)) :
    Relation.EqvGen Slack (['\n'].intercalate lines) (['\n'].intercalate (lines.dropWhile List.isEmpty)) := by
  induction lines with
  | nil => exact .refl _
  | cons line lines ih =>
    cases line with
    | cons c line => exact .refl _
    | nil =>
      refine .trans _ _ _ ?_ ih
      cases lines with
      | nil => exact .refl _
      | cons next lines =>
        rw [List.intercalate_cons_cons]
        have hspace : IsMargin [] := List.forall_mem_nil _
        exact .symm _ _ (.rel _ _ (.above hspace _))

theorem intercalate_concat {c : Char} {lines : List (List Char)} (h : lines ≠ []) (line : List Char) :
    [c].intercalate (lines ++ [line]) = [c].intercalate lines ++ c :: line := by
  induction lines with
  | nil => exact absurd rfl h
  | cons first lines ih =>
    cases lines with
    | nil => simp
    | cons next lines =>
      have hrest := ih (List.cons_ne_nil _ _)
      simp only [List.cons_append, List.intercalate_cons_cons] at hrest ⊢
      rw [hrest, List.append_assoc, List.append_assoc, List.append_assoc]

theorem slack_rdropWhile (lines : List (List Char)) :
    Relation.EqvGen Slack (['\n'].intercalate lines) (['\n'].intercalate (lines.rdropWhile List.isEmpty)) := by
  induction lines using List.reverseRecOn with
  | nil => exact .refl _
  | append_singleton lines line ih =>
    cases line with
    | cons c line =>
      rw [List.rdropWhile_concat_neg _ _ _ (by simp)]
      exact .refl _
    | nil =>
      rw [List.rdropWhile_concat_pos _ _ _ rfl]
      refine .trans _ _ _ ?_ ih
      cases lines with
      | nil => exact .refl _
      | cons first lines =>
        rw [intercalate_concat (List.cons_ne_nil _ _)]
        exact .symm _ _ (.rel _ _ (.below _ (List.forall_mem_nil _)))

theorem slack_intercalate_significant (text : List Char) :
    Relation.EqvGen Slack text (['\n'].intercalate (significant text)) := by
  have hunbroken : ∀ line ∈ text.splitOn '\n', '\n' ∉ line := fun _ => notMem_of_mem_splitOn
  have htrim := slack_trimEnd hunbroken []
  rw [List.nil_append, List.nil_append, List.intercalate_splitOn] at htrim
  exact .trans _ _ _ htrim (.trans _ _ _ (slack_dropWhile _) (slack_rdropWhile _))

theorem significant_eq_iff (a b : List Char) : significant a = significant b ↔ Relation.EqvGen Slack a b := by
  constructor
  · intro h
    have hb := slack_intercalate_significant b
    rw [← h] at hb
    exact .trans _ _ _ (slack_intercalate_significant a) (.symm _ _ hb)
  · intro h
    induction h with
    | rel a b hstep => exact hstep.significant_eq
    | refl a => rfl
    | symm a b _ ih => exact ih.symm
    | trans a b c _ _ hab hbc => exact hab.trans hbc

/-- Outputs are compared by a canonical form: two of them are equal just if the lines are that count, which is if
nothing was changed that counts. A form is its own form; no line of it ends in white space, and the first and the
last are not empty, unless all is. The range of lines that it is made of always lies in the list. -/
theorem normalOutput_canonical (a b : String) :
    (normalOutput a = normalOutput b ↔ significant a.toList = significant b.toList) ∧
      (normalOutput a = normalOutput b ↔ Relation.EqvGen Slack a.toList b.toList) ∧
      normalOutput (normalOutput a) = normalOutput a ∧
      (∀ line ∈ (normalOutput a).toList.splitOn '\n', trimEnd line = line) ∧
      (normalOutput a = "" ∨ (((normalOutput a).toList.splitOn '\n').head? ≠ some [] ∧
        ((normalOutput a).toList.splitOn '\n').getLast? ≠ some [])) ∧
      firstFilled (trimmedLines a.toList) ≤ pastFilled (trimmedLines a.toList) ∧
      pastFilled (trimmedLines a.toList) ≤ (trimmedLines a.toList).length := by
  have hsettled := settled_significant a.toList
  have hempty : significant a.toList = [] → normalOutput a = "" := fun hnil =>
    String.toList_inj.1 (by rw [toList_normalOutput, hnil]; rfl)
  have hlines : significant a.toList ≠ [] → (normalOutput a).toList.splitOn '\n' = significant a.toList :=
    fun hne => by rw [toList_normalOutput, List.splitOn_intercalate _ hsettled.unbroken hne]
  refine ⟨normalOutput_eq_iff a b, (normalOutput_eq_iff a b).trans (significant_eq_iff _ _),
    (normalOutput_eq_iff _ _).2 (significant_normalOutput a), ?_, ?_, (filledRange_eq_core _).1⟩
  · by_cases hnil : significant a.toList = []
    · rw [hempty hnil]
      decide
    · rw [hlines hnil]
      exact hsettled.bare
  · by_cases hnil : significant a.toList = []
    · exact Or.inl (hempty hnil)
    · rw [hlines hnil]
      exact Or.inr ⟨hsettled.head, hsettled.last⟩

theorem normalOutput_canonical_spaced :
    let a := "\r\n\nHello!  \r\r\nworld\t\n\n \n"
    normalOutput a = "Hello!\nworld" ∧ normalOutput (normalOutput a) = normalOutput a ∧
      Relation.EqvGen Slack a.toList "Hello!\nworld".toList ∧
      ¬ Relation.EqvGen Slack a.toList "Hello!\n world".toList := by
  intro a
  have hform : normalOutput a = "Hello!\nworld" := by decide +kernel
  have hplain := normalOutput_canonical a "Hello!\nworld"
  have hspaced := normalOutput_canonical a "Hello!\n world"
  refine ⟨hform, hplain.2.2.1, hplain.2.1.1 (hform.trans (by decide +kernel)), fun h => ?_⟩
  exact absurd (hspaced.2.1.2 h) (by decide +kernel)

end BlockCanvas.Grading
