import BlockCanvas.Proofs.Spelling
import Mathlib.Data.List.Chain
import Mathlib.Data.List.Induction

/-!
Lines and how indentation nests them. `linesOf` reads the lines of a text back, `nestsOf` reads back what
hangs off which line, and `Indented` is what a reader may rely on in the lines of nests in good order.
-/
namespace BlockCanvas.Python

/-! ### The lines of a text -/

def rows (source : String) : List (List Char) :=
  (source.toList.splitOn '\n').dropLast

def margin (row : List Char) : Nat :=
  (row.takeWhile (· == ' ')).length

def lineOf (width : Nat) (row : List Char) : Line :=
  ⟨margin row / width, String.ofList (row.dropWhile (· == ' '))⟩

def linesOf (width : Nat) (source : String) : List Line :=
  (rows source).map (lineOf width)

section Rendering
variable {o : Options} {lines : List Line} {line : Line}

theorem toList_render (o : Options) (line : Line) :
    (line.render o).toList = List.replicate (line.level * o.indentWidth) ' ' ++ line.text.toList := by
  simp [Line.render]

theorem margin_render (h : Readable line.text.toList) :
    margin (line.render o).toList = line.level * o.indentWidth ∧
      (line.render o).toList.dropWhile (· == ' ') = line.text.toList := by
  have hspaces : ∀ c ∈ List.replicate (line.level * o.indentWidth) ' ', (c == ' ') = true := by
    simp +contextual [List.mem_replicate]
  obtain ⟨c, cs, hcs⟩ := List.exists_cons_of_ne_nil h.ne_nil
  have hc : (c == ' ') = false := by
    have := h.start
    rw [hcs] at this
    simpa using this
  rw [margin, toList_render, List.takeWhile_append_of_pos hspaces,
    List.dropWhile_append_of_pos hspaces, hcs]
  simp [hc]

theorem intercalate_newline (row : List Char) (rows : List (List Char)) :
    ['\n'].intercalate (row :: rows) ++ ['\n'] = (row :: rows).flatMap fun row => row ++ ['\n'] := by
  induction rows generalizing row with
  | nil => simp
  | cons row' rows ih =>
    rw [List.intercalate_cons_cons, List.append_assoc, ih, List.append_assoc]
    simp

theorem toList_render_lines (hne : ∀ line ∈ lines, line.text.toList ≠ []) :
    (render o lines).toList = lines.flatMap fun line => (line.render o).toList ++ ['\n'] := by
  cases lines with
  | nil => simp [render]
  | cons line lines =>
    have htext : ("\n".intercalate ((line :: lines).map (Line.render o))).toList ++ ['\n'] =
        (line :: lines).flatMap fun line => (line.render o).toList ++ ['\n'] := by
      rw [String.toList_intercalate, List.map_map, List.map_cons]
      exact (intercalate_newline _ _).trans (by rw [← List.map_cons, List.flatMap_map]; rfl)
    have hfull : ("\n".intercalate ((line :: lines).map (Line.render o))).isEmpty = false := by
      refine Bool.eq_false_iff.2 fun he => ?_
      have hlength := congrArg List.length htext
      have hrow : (line.render o).toList ≠ [] := by
        rw [toList_render]
        exact List.append_ne_nil_of_right_ne_nil _ (hne line List.mem_cons_self)
      have hpos := List.length_pos_iff.2 hrow
      rw [String.isEmpty_iff.1 he, List.flatMap_cons] at hlength
      simp only [String.toList_empty, List.nil_append, List.length_append, List.length_singleton] at hlength
      omega
    rw [render]
    simp only [hfull, Bool.false_eq_true, if_false]
    rw [String.toList_append]
    exact htext

theorem rows_render (hne : ∀ line ∈ lines, line.text.toList ≠ [])
    (hunbroken : ∀ line ∈ lines, '\n' ∉ line.text.toList) :
    rows (render o lines) = lines.map fun line => (line.render o).toList := by
  have hsplit : (lines.flatMap fun line => (line.render o).toList ++ ['\n']).splitOn '\n' =
      (lines.map fun line => (line.render o).toList) ++ [[]] := by
    clear hne
    induction lines with
    | nil => simp
    | cons line lines ih =>
      obtain ⟨hline, hrest⟩ := List.forall_mem_cons.1 hunbroken
      have hrow : '\n' ∉ (line.render o).toList := by simp [toList_render, hline]
      rw [List.flatMap_cons, List.append_assoc, List.singleton_append, List.splitOn_append_cons_self,
        ih hrest, List.splitOn_eq_singleton hrow, List.singleton_append, List.map_cons, List.cons_append]
  rw [rows, toList_render_lines hne, hsplit, List.dropLast_concat]

theorem linesOf_render (hw : 0 < o.indentWidth) (h : ∀ line ∈ lines, Readable line.text.toList) :
    linesOf o.indentWidth (render o lines) = lines := by
  rw [linesOf, rows_render (fun line hl => (h line hl).ne_nil) fun line hl => (h line hl).unbroken,
    List.map_map]
  refine (List.map_congr_left fun line hl => ?_).trans (List.map_id lines)
  obtain ⟨hmargin, htext⟩ := margin_render (o := o) (h line hl)
  simp only [Function.comp_apply, lineOf, hmargin, htext, Nat.mul_div_cancel _ hw, String.ofList_toList]
  rfl

end Rendering

/-! ### Nests -/

inductive Nest where
  | node (text : String) (body : List Nest)

namespace Nest

def text : Nest → String
  | .node text _ => text

def body : Nest → List Nest
  | .node _ body => body

mutual
def lines (level : Nat) : Nest → List Line
  | .node text body => ⟨level, text⟩ :: listLines (level + 1) body
def listLines (level : Nat) : List Nest → List Line
  | [] => []
  | n :: ns => lines level n ++ listLines level ns
end

theorem lines_eq (level : Nat) (n : Nest) :
    n.lines level = ⟨level, n.text⟩ :: n.body.flatMap (lines (level + 1)) := by
  have hbody : ∀ ns, listLines (level + 1) ns = ns.flatMap (lines (level + 1)) := by
    intro ns
    induction ns with
    | nil => rfl
    | cons n ns ih => rw [listLines, ih, List.flatMap_cons]
  obtain ⟨text, body⟩ := n
  rw [lines, hbody]
  rfl

@[elab_as_elim]
theorem induction {P : Nest → Prop} (step : ∀ n, (∀ m ∈ n.body, P m) → P n) (n : Nest) : P n :=
  @Nest.rec P (fun ns => ∀ m ∈ ns, P m) (fun text body ih => step (.node text body) ih)
    (fun _ hm => nomatch hm) (fun _ _ h hs => List.forall_mem_cons.2 ⟨h, hs⟩) n

end Nest

/-- Puts a line in front of nests with their levels: those right after it that are deeper hang off it. -/
def adopt (line : Line) (after : List (Nat × Nest)) : List (Nat × Nest) :=
  (line.level, .node line.text ((after.takeWhile fun n => line.level < n.1).map Prod.snd)) ::
    after.dropWhile fun n => line.level < n.1

def nestsOf (lines : List Line) : List Nest :=
  (lines.foldr adopt []).map Prod.snd

theorem foldr_adopt_lines (n : Nest) (level : Nat) {after : List (Nat × Nest)}
    (h : ∀ a ∈ after.head?, a.1 ≤ level) : (n.lines level).foldr adopt after = (level, n) :: after := by
  induction n using Nest.induction generalizing level after with
  | step n ih =>
    have hbody : ∀ ns ⊆ n.body, ∀ l, (∀ a ∈ after.head?, a.1 ≤ l) →
        (ns.flatMap (Nest.lines l)).foldr adopt after = ns.map (Prod.mk l) ++ after := by
      -- each nest that hangs off the line is read in front of those after it
      intro ns
      induction ns with
      | nil => exact fun _ _ _ => rfl
      | cons m ns ihs =>
        intro hsub l hl
        rw [List.flatMap_cons, List.foldr_append, ihs (List.subset_of_cons_subset hsub) l hl]
        refine ih m (hsub List.mem_cons_self) l fun a ha => ?_
        cases ns with
        | nil => exact hl a ha
        | cons m' ns =>
          obtain rfl : (l, m') = a := Option.some.inj ha
          exact Nat.le_refl l
    have hdeeper : ∀ a ∈ n.body.map (Prod.mk (level + 1)), decide (level < a.1) = true := by
      simp
    -- what comes after is no deeper than the line, so nothing of it hangs off the line
    have hstop : after.takeWhile (fun n => decide (level < n.1)) = [] ∧
        after.dropWhile (fun n => decide (level < n.1)) = after := by
      cases after with
      | nil => exact ⟨rfl, rfl⟩
      | cons a after =>
        have ha : ¬ level < a.1 := Nat.not_lt.2 (h a rfl)
        simp [ha]
    rw [Nest.lines_eq, List.foldr_cons,
      hbody n.body (List.Subset.refl _) (level + 1) fun a ha => Nat.le_succ_of_le (h a ha)]
    rw [adopt]
    simp only [List.takeWhile_append_of_pos hdeeper, List.dropWhile_append_of_pos hdeeper, hstop,
      List.append_nil, List.map_map]
    obtain ⟨text, body⟩ := n
    have hid : (Prod.snd ∘ Prod.mk (level + 1) : Nest → Nest) = id := rfl
    rw [hid, List.map_id]
    rfl

theorem nestsOf_lines (ns : List Nest) (level : Nat) :
    nestsOf (ns.flatMap (Nest.lines level)) = ns := by
  have hfold : (ns.flatMap (Nest.lines level)).foldr adopt [] = ns.map (Prod.mk level) := by
    induction ns with
    | nil => rfl
    | cons n ns ih =>
      rw [List.flatMap_cons, List.foldr_append, ih, foldr_adopt_lines n level, List.map_cons]
      intro a ha
      cases ns with
      | nil => exact nomatch ha
      | cons m ns =>
        obtain rfl : (level, m) = a := Option.some.inj ha
        exact Nat.le_refl level
  rw [nestsOf, hfold, List.map_map]
  exact List.map_id ns

/-! ### Good order -/

namespace Mark

def isBranch : Mark → Bool
  | .block kind => kind.isConnector
  | _ => false

def isTest : Mark → Bool
  | .block .ifBranch | .block .elifBranch => true
  | _ => false

end Mark

def Line.mark (line : Line) : Mark :=
  Python.mark line.text.toList

namespace Nest

def mark (n : Nest) : Mark :=
  Python.mark n.text.toList

def Orderly (ns : List Nest) : Prop :=
  (∀ n ∈ ns.head?, n.mark.isBranch = false) ∧
    ns.IsChain fun n m => m.mark.isBranch = true → n.mark.isTest = true

/-- Headers have something hanging off them, other lines have not, and branches are in order. -/
inductive Legal : Nest → Prop
  | node {n : Nest} : Readable n.text.toList → (isHeader n.text.toList = true ↔ n.body ≠ []) →
      Orderly n.body → (∀ m ∈ n.body, Legal m) → Legal n

end Nest

/-- The last of the lines that is no deeper than the level is the header of an `if` or an `elif`. -/
def EndsInTest (level : Nat) (lines : List Line) : Prop :=
  ∃ earlier head inner, lines = earlier ++ head :: inner ∧ head.level = level ∧
    head.mark.isTest = true ∧ ∀ l ∈ inner, level < l.level

structure Indented (level : Nat) (lines : List Line) : Prop where
  first : ∀ l ∈ lines.head?, l.level = level
  deep : ∀ l ∈ lines, level ≤ l.level
  next : lines.IsChain fun a b =>
    b.level ≤ a.level + 1 ∧ (b.level = a.level + 1 ↔ isHeader a.text.toList = true)
  last : ∀ l ∈ lines.getLast?, isHeader l.text.toList = false
  branch : ∀ before line after, lines = before ++ line :: after → line.mark.isBranch = true →
    EndsInTest line.level before

theorem Indented.append_cons {level : Nat} {old own : List Line} {text : String}
    (hold : Indented level old) (hown : Indented (level + 1) own)
    (hheader : isHeader text.toList = true ↔ own ≠ [])
    (hself : (mark text.toList).isBranch = true → EndsInTest level old) :
    Indented level (old ++ ⟨level, text⟩ :: own) := by
  refine ⟨?first, ?deep, ?next, ?last, ?branch⟩
  case first =>
    intro l hl
    cases old with
    | nil =>
      obtain rfl := Option.some.inj hl
      rfl
    | cons a old => exact hold.first l hl
  case deep =>
    exact List.forall_mem_append.2 ⟨hold.deep, List.forall_mem_cons.2
      ⟨Nat.le_refl level, fun l hl => Nat.le_of_succ_le (hown.deep l hl)⟩⟩
  case next =>
    refine List.isChain_append.2 ⟨hold.next, List.isChain_cons.2 ⟨fun b hb => ?_, hown.next⟩, ?_⟩
    · have hlevel := hown.first b hb
      have hne : own ≠ [] := by
        rintro rfl
        exact nomatch hb
      exact ⟨Nat.le_of_eq hlevel, fun _ => hheader.2 hne, fun _ => hlevel⟩
    · intro a ha b hb
      obtain rfl : (⟨level, text⟩ : Line) = b := Option.some.inj hb
      have hle := hold.deep a (List.mem_of_getLast? ha)
      refine ⟨Nat.le_succ_of_le hle, fun he => ?_, fun he => ?_⟩
      · simp only at he
        omega
      · simp [hold.last a ha] at he
  case last =>
    intro l hl
    rw [List.getLast?_append_of_ne_nil _ (List.cons_ne_nil _ _)] at hl
    cases own with
    | nil =>
      obtain rfl : (⟨level, text⟩ : Line) = l := Option.some.inj hl
      simpa using hheader
    | cons b own => exact hown.last l (by simpa using hl)
  case branch =>
    intro before line after hsplit hline
    -- The line is one of the old ones, the line itself, or one that hangs off it.
    rcases List.append_eq_append_iff.1 hsplit with ⟨more, rfl, hmore⟩ | ⟨more, rfl, hmore⟩
    · cases more with
      | nil =>
        obtain ⟨rfl, -⟩ := List.cons.inj hmore
        rw [List.append_nil]
        exact hself hline
      | cons x more =>
        obtain ⟨rfl, hrest⟩ := List.cons.inj hmore
        obtain ⟨earlier, head, inner, rfl, htest⟩ := hown.branch more line after hrest hline
        exact ⟨old ++ ⟨level, text⟩ :: earlier, head, inner, by simp, htest⟩
    · cases more with
      | nil =>
        obtain ⟨rfl, -⟩ := List.cons.inj hmore
        rw [List.append_nil] at hself
        exact hself hline
      | cons x more =>
        obtain ⟨rfl, -⟩ := List.cons.inj hmore
        exact hold.branch before line more rfl hline

namespace Nest

theorem flatMap_lines_eq_nil_iff (ns : List Nest) (level : Nat) :
    ns.flatMap (lines level) = [] ↔ ns = [] := by
  cases ns with
  | nil => simp
  | cons n ns => simp [lines_eq]

theorem endsInTest {ns : List Nest} {n : Nest} (ho : Orderly (ns ++ [n])) {level : Nat}
    (hdeep : ∀ m ∈ ns, ∀ l ∈ m.body.flatMap (lines (level + 1)), level < l.level)
    (hn : n.mark.isBranch = true) : EndsInTest level (ns.flatMap (lines level)) := by
  rcases List.eq_nil_or_concat ns with rfl | ⟨ms, m, rfl⟩
  · have hfirst := ho.1 n rfl
    simp [hfirst] at hn
  · have htest := (List.isChain_append.1 ho.2).2.2 m (by simp) n rfl hn
    refine ⟨ms.flatMap (lines level), ⟨level, m.text⟩, m.body.flatMap (lines (level + 1)), ?_, rfl,
      htest, hdeep m (by simp)⟩
    rw [List.concat_eq_append, List.flatMap_append, List.flatMap_singleton, lines_eq]

theorem indented_flatMap {ns : List Nest} (ho : Orderly ns)
    (hheader : ∀ n ∈ ns, isHeader n.text.toList = true ↔ n.body ≠ [])
    (hbody : ∀ n ∈ ns, ∀ level, Indented level (n.body.flatMap (lines level))) (level : Nat) :
    Indented level (ns.flatMap (lines level)) := by
  induction ns using List.reverseRecOn with
  | nil => exact ⟨nofun, nofun, .nil, nofun, by simp⟩
  | append_singleton ns n ih =>
    have hmem : n ∈ ns ++ [n] := by simp
    have hfirst : ∀ m ∈ ns.head?, m.mark.isBranch = false := fun m hm =>
      ho.1 m (by cases ns <;> simp_all)
    have hold := ih ⟨hfirst, (List.isChain_append.1 ho.2).1⟩
      (fun m hm => hheader m (List.mem_append_left _ hm))
      (fun m hm => hbody m (List.mem_append_left _ hm))
    have hown := hheader n hmem
    rw [ne_eq, ← flatMap_lines_eq_nil_iff n.body (level + 1)] at hown
    rw [List.flatMap_append, List.flatMap_singleton, lines_eq]
    exact hold.append_cons (hbody n hmem (level + 1)) hown fun hn => endsInTest ho
      (fun m hm l hl => (hbody m (List.mem_append_left _ hm) (level + 1)).deep l hl) hn

theorem Legal.indented {n : Nest} (h : n.Legal) (level : Nat) :
    Indented level (n.body.flatMap (lines level)) := by
  induction h generalizing level with
  | node _ _ ho hbody ih =>
    refine indented_flatMap ho (fun m hm => ?_) (fun m hm => ih m hm) level
    cases hbody m hm with
    | node _ hheader _ _ => exact hheader

theorem Legal.readable {n : Nest} (h : n.Legal) (level : Nat) :
    ∀ line ∈ n.lines level, Readable line.text.toList := by
  induction h generalizing level with
  | node htext _ _ _ ih =>
    rw [lines_eq]
    refine List.forall_mem_cons.2 ⟨htext, fun line hline => ?_⟩
    obtain ⟨m, hm, hline⟩ := List.mem_flatMap.1 hline
    exact ih m hm (level + 1) line hline

theorem indented {ns : List Nest} (ho : Orderly ns) (h : ∀ n ∈ ns, n.Legal) (level : Nat) :
    Indented level (ns.flatMap (lines level)) := by
  refine indented_flatMap ho (fun n hn => ?_) (fun n hn => (h n hn).indented) level
  cases h n hn with
  | node _ hheader _ _ => exact hheader

end Nest
end BlockCanvas.Python
