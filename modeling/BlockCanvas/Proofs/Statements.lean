import BlockCanvas.Proofs.Indentation

/-!
Statements and the lines that read as them. `statementsOf` reads statements off nests of lines; `Yields`
says of lines that they read as a suite, and is put together the way a suite is.
-/
namespace BlockCanvas.Python

variable {α : Type}

inductive Statement (α : Type) where
  | node (mark : Mark) (line : α) (suite branches : List (Statement α))

namespace Statement

def mark : Statement α → Mark
  | .node mark _ _ _ => mark

def isBranch (s : Statement α) : Bool :=
  s.mark.isBranch

def attach (s : Statement α) (after : List (Statement α)) : List (Statement α) :=
  match s with
  | .node (.block .ifBranch) line suite _ =>
    .node (.block .ifBranch) line suite (after.takeWhile isBranch) :: after.dropWhile isBranch
  | s => s :: after

def leaf (mark : Mark) (line : α) : Statement α :=
  .node mark line [] []

mutual
def decEq [DecidableEq α] : (s t : Statement α) → Decidable (s = t)
  | .node m line suite branches, .node m' line' suite' branches' =>
    haveI := decEqAll suite suite'
    haveI := decEqAll branches branches'
    decidable_of_iff (m = m' ∧ line = line' ∧ suite = suite' ∧ branches = branches') (by simp)
def decEqAll [DecidableEq α] : (ss ts : List (Statement α)) → Decidable (ss = ts)
  | [], [] => isTrue rfl
  | [], _ :: _ => isFalse nofun
  | _ :: _, [] => isFalse nofun
  | s :: ss, t :: ts =>
    haveI := decEq s t
    haveI := decEqAll ss ts
    decidable_of_iff (s = t ∧ ss = ts) (by simp)
end

instance [DecidableEq α] : DecidableEq (Statement α) :=
  decEq

end Statement

/-- A loop without an end that is left by its last line is a do-while loop. -/
def markWith (text : String) (suite : List (Statement String)) : Mark :=
  if text == "while True:" && suite.getLast?.any fun s => s.mark == .leave then .block .doWhileLoop
  else mark text.toList

mutual
def statementOf : Nest → Statement String
  | .node text body => .node (markWith text (statementsOf body)) text (statementsOf body) []
def statementsOf : List Nest → List (Statement String)
  | [] => []
  | n :: ns => (statementOf n).attach (statementsOf ns)
end

open Statement

/-! ### Reading statements off nests -/

theorem statementOf_eq (n : Nest) :
    statementOf n = .node (markWith n.text (statementsOf n.body)) n.text (statementsOf n.body) [] := by
  obtain ⟨text, body⟩ := n
  rw [statementOf]
  rfl

theorem mark_forever : mark "while True:".toList = .block .whileLoop := by decide +kernel

theorem markWith_of_ne {text : String} {header : Bool} {m : Mark} (h : Marked text header m)
    (hne : m ≠ .block .whileLoop) (suite : List (Statement String)) : markWith text suite = m := by
  rw [markWith, h.mark_eq]
  split
  · next hf =>
    simp only [Bool.and_eq_true, beq_iff_eq] at hf
    exact absurd (h.mark_eq.symm.trans (hf.1 ▸ mark_forever)) hne
  · rfl

theorem isBranch_statementOf (n : Nest) : (statementOf n).isBranch = n.mark.isBranch := by
  rw [statementOf_eq, isBranch, Statement.mark, markWith, Nest.mark]
  split
  · next h =>
    simp only [Bool.and_eq_true, beq_iff_eq] at h
    rw [h.1, mark_forever]
    rfl
  · rfl

theorem exists_attach (s : Statement α) (after : List (Statement α)) :
    ∃ s' rest, s.attach after = s' :: rest ∧ s'.mark = s.mark := by
  rw [attach.eq_def]
  split
  · exact ⟨_, _, rfl, rfl⟩
  · exact ⟨_, _, rfl, rfl⟩

theorem attach_nil (m : Mark) (line : α) (suite : List (Statement α)) :
    (Statement.node m line suite []).attach [] = [.node m line suite []] := by
  rw [attach.eq_def]
  split
  · next heq =>
    cases heq
    rfl
  · rfl

theorem attach_append {s : Statement α} {after others : List (Statement α)}
    (h : ∀ s ∈ others.head?, s.isBranch = false) :
    s.attach (after ++ others) = s.attach after ++ others := by
  have hsplit : (after ++ others).takeWhile isBranch = after.takeWhile isBranch ∧
      (after ++ others).dropWhile isBranch = after.dropWhile isBranch ++ others := by
    induction after with
    | nil =>
      cases others with
      | nil => exact ⟨rfl, rfl⟩
      | cons s' others => simp [h s' rfl]
    | cons s' after ih => cases hs : s'.isBranch <;> simp [hs, ih]
  rw [attach.eq_def, attach.eq_def]
  split
  · rw [hsplit.1, hsplit.2, List.cons_append]
  · rfl

theorem head?_statementsOf {ns : List Nest} (h : ∀ n ∈ ns.head?, n.mark.isBranch = false) :
    ∀ s ∈ (statementsOf ns).head?, s.isBranch = false := by
  cases ns with
  | nil => exact nofun
  | cons n ns =>
    obtain ⟨s', rest, heq, hmark⟩ := exists_attach (statementOf n) (statementsOf ns)
    intro s hs
    rw [statementsOf, heq] at hs
    obtain rfl := Option.some.inj hs
    rw [isBranch, hmark]
    exact (isBranch_statementOf n).trans (h n rfl)

theorem statementsOf_append (ns : List Nest) {ms : List Nest}
    (h : ∀ m ∈ ms.head?, m.mark.isBranch = false) :
    statementsOf (ns ++ ms) = statementsOf ns ++ statementsOf ms := by
  induction ns with
  | nil => rfl
  | cons n ns ih =>
    rw [List.cons_append, statementsOf, ih, attach_append (head?_statementsOf h), statementsOf]

theorem statementsOf_eq_nil_iff (ns : List Nest) : statementsOf ns = [] ↔ ns = [] := by
  cases ns with
  | nil => simp [statementsOf]
  | cons n ns =>
    obtain ⟨s', rest, heq, -⟩ := exists_attach (statementOf n) (statementsOf ns)
    simp [statementsOf, heq]

/-! ### Lines that say something -/

def Yields (level : Nat) (lines : List Line) (suite : List (Statement String)) : Prop :=
  ∃ ns, lines = ns.flatMap (Nest.lines level) ∧ Nest.Orderly ns ∧ (∀ n ∈ ns, n.Legal) ∧
    statementsOf ns = suite

namespace Yields
variable {level : Nat} {lines lines' : List Line} {suite suite' : List (Statement String)}

theorem nil : Yields level [] [] :=
  ⟨[], rfl, ⟨nofun, .nil⟩, nofun, rfl⟩

theorem append (h : Yields level lines suite) (h' : Yields level lines' suite') :
    Yields level (lines ++ lines') (suite ++ suite') := by
  obtain ⟨ns, rfl, ho, hlegal, rfl⟩ := h
  obtain ⟨ms, rfl, ho', hlegal', rfl⟩ := h'
  refine ⟨ns ++ ms, List.flatMap_append.symm, ⟨?_, ?_⟩, List.forall_mem_append.2 ⟨hlegal, hlegal'⟩,
    statementsOf_append ns ho'.1⟩
  · intro n hn
    cases ns with
    | nil => exact ho'.1 n hn
    | cons m ns => exact ho.1 n hn
  · refine List.isChain_append.2 ⟨ho.2, ho'.2, fun n _ m hm hbranch => ?_⟩
    simp [ho'.1 m hm] at hbranch

theorem eq_nil_iff (h : Yields level lines suite) : lines = [] ↔ suite = [] := by
  obtain ⟨ns, rfl, -, -, rfl⟩ := h
  rw [Nest.flatMap_lines_eq_nil_iff, statementsOf_eq_nil_iff]

theorem line {text : String} {m : Mark} (h : Marked text false m) (hbranch : m.isBranch = false) :
    Yields level [⟨level, text⟩] [leaf m text] := by
  have hmark : Nest.mark (.node text []) = m := h.mark_eq
  refine ⟨[.node text []], by simp [Nest.lines_eq, Nest.text, Nest.body], ⟨?_, .singleton _⟩, ?_, ?_⟩
  · intro n hn
    obtain rfl := Option.some.inj hn
    exact hmark ▸ hbranch
  · refine List.forall_mem_singleton.2 (.node h.readable ?_ ⟨nofun, .nil⟩ nofun)
    simp [Nest.text, Nest.body, h.isHeader_eq]
  · have hwith : markWith text [] = m := by simp [markWith, h.mark_eq]
    rw [statementsOf, statementOf_eq, Nest.text, Nest.body, statementsOf, hwith, attach_nil, leaf]

theorem exists_nest {text : String} {m : Mark} (h : Marked text true m)
    (hsuite : Yields (level + 1) lines suite) (hne : suite ≠ []) :
    ∃ n : Nest, n.mark = m ∧ n.lines level = ⟨level, text⟩ :: lines ∧ n.Legal ∧
      statementOf n = .node (markWith text suite) text suite [] := by
  obtain ⟨ns, rfl, ho, hlegal, rfl⟩ := hsuite
  have hbody : ns ≠ [] := fun he => hne ((statementsOf_eq_nil_iff ns).2 he)
  exact ⟨.node text ns, h.mark_eq, Nest.lines_eq _ _,
    .node h.readable ⟨fun _ => hbody, fun _ => h.isHeader_eq⟩ ho hlegal, statementOf_eq _⟩

theorem header {text : String} {m : Mark} (h : Marked text true m) (hbranch : m.isBranch = false)
    (hsuite : Yields (level + 1) lines suite) (hne : suite ≠ []) :
    Yields level (⟨level, text⟩ :: lines) [.node (markWith text suite) text suite []] := by
  obtain ⟨n, rfl, hlines, hlegal, hstatement⟩ := exists_nest h hsuite hne
  refine ⟨[n], by rw [List.flatMap_singleton, hlines], ⟨?_, .singleton _⟩,
    List.forall_mem_singleton.2 hlegal, ?_⟩
  · intro m hm
    obtain rfl := Option.some.inj hm
    exact hbranch
  · rw [statementsOf, hstatement, statementsOf, attach_nil]

end Yields

/-- Lines that read as branches, the last of them at most an `else`. -/
def Branches (level : Nat) (lines : List Line) (branches : List (Statement String)) : Prop :=
  ∃ ns : List Nest, lines = ns.flatMap (Nest.lines level) ∧ (∀ n ∈ ns, n.mark.isBranch = true) ∧
    (ns.IsChain fun n _ => n.mark.isTest = true) ∧ (∀ n ∈ ns, n.Legal) ∧ ns.map statementOf = branches

theorem Branches.cons {level : Nat} {text : String} {m : Mark} {lines lines' : List Line}
    {suite branches : List (Statement String)} (h : Marked text true m) (hbranch : m.isBranch = true)
    (hsuite : Yields (level + 1) lines suite) (hne : suite ≠ []) (hrest : Branches level lines' branches)
    (htest : branches ≠ [] → m.isTest = true) :
    Branches level (⟨level, text⟩ :: lines ++ lines') (.node m text suite [] :: branches) := by
  have hwith : markWith text suite = m := markWith_of_ne h (by rintro rfl; exact nomatch hbranch) suite
  obtain ⟨n, rfl, hlines, hlegal, hstatement⟩ := hsuite.exists_nest h hne
  obtain ⟨ns, rfl, hall, hchain, hlegals, rfl⟩ := hrest
  refine ⟨n :: ns, by rw [List.flatMap_cons, hlines], List.forall_mem_cons.2 ⟨hbranch, hall⟩,
    List.isChain_cons.2 ⟨fun m hm => ?_, hchain⟩, List.forall_mem_cons.2 ⟨hlegal, hlegals⟩, ?_⟩
  · refine htest fun he => ?_
    rw [List.map_eq_nil_iff.1 he] at hm
    exact nomatch hm
  · rw [List.map_cons, hstatement, hwith]

theorem statementsOf_branches {ns : List Nest} (h : ∀ n ∈ ns, n.mark.isBranch = true) :
    statementsOf ns = ns.map statementOf := by
  induction ns with
  | nil => rfl
  | cons n ns ih =>
    rw [statementsOf, ih fun m hm => h m (List.mem_cons_of_mem _ hm), List.map_cons, attach.eq_def]
    split
    · next suite branches heq =>
      have hbranch := (isBranch_statementOf n).trans (h n List.mem_cons_self)
      rw [heq] at hbranch
      exact nomatch hbranch
    · rfl

theorem Yields.ifBranch {level : Nat} {text : String} {lines lines' : List Line}
    {suite branches : List (Statement String)} (h : Marked text true (.block .ifBranch))
    (hsuite : Yields (level + 1) lines suite) (hne : suite ≠ [])
    (hbranches : Branches level lines' branches) :
    Yields level (⟨level, text⟩ :: lines ++ lines') [.node (.block .ifBranch) text suite branches] := by
  obtain ⟨n, hmark, hlines, hlegal, hstatement⟩ := hsuite.exists_nest h hne
  obtain ⟨ns, rfl, hall, hchain, hlegals, rfl⟩ := hbranches
  refine ⟨n :: ns, by rw [List.flatMap_cons, hlines], ⟨?_, List.isChain_cons.2 ⟨?_, ?_⟩⟩,
    List.forall_mem_cons.2 ⟨hlegal, hlegals⟩, ?_⟩
  · intro m hm
    obtain rfl := Option.some.inj hm
    rw [hmark]
    rfl
  · intro m _ _
    rw [hmark]
    rfl
  · exact hchain.imp fun _ _ h _ => h
  · have hall' : ∀ s ∈ ns.map statementOf, s.isBranch = true := by
      intro s hs
      obtain ⟨m, hmem, rfl⟩ := List.mem_map.1 hs
      exact (isBranch_statementOf m).trans (hall m hmem)
    rw [statementsOf, hstatement, markWith_of_ne h (by decide), statementsOf_branches hall, attach]
    rw [List.takeWhile_eq_self_iff.2 hall', List.dropWhile_eq_nil_iff.2 hall']

end BlockCanvas.Python
