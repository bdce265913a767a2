import BlockCanvas.Python.Program
import Mathlib.Data.List.TakeWhile

/-!
White space around typed text does not show in a program: what a token means depends on the trimmed text
alone, and so do the arguments that it is split into.
-/
namespace BlockCanvas.Text

theorem takeWhile_dropWhile {p : Char → Bool} {xs rest : List Char} (hxs : ∀ c ∈ xs, p c = true)
    (hrest : ∀ c ∈ rest.head?, ¬ p c = true) :
    (xs ++ rest).takeWhile p = xs ∧ (xs ++ rest).dropWhile p = rest := by
  rw [List.takeWhile_append_of_pos hxs, List.dropWhile_append_of_pos hxs]
  cases rest with
  | nil => simp
  | cons c cs =>
    have hc := hrest c rfl
    rw [List.takeWhile_cons_of_neg hc, List.dropWhile_cons_of_neg hc, List.append_nil]
    exact ⟨rfl, rfl⟩

theorem isBlank_of_isSpacing {c : Char} (h : isSpacing c = true) : isBlank c = true := by
  simp only [isSpacing, Bool.or_eq_true, beq_iff_eq] at h
  rcases h with ((rfl | rfl) | rfl) | rfl <;> rfl

theorem trim_blank_append {a : List Char} (ha : ∀ c ∈ a, isBlank c = true) (cs : List Char) :
    trim (a ++ cs) = trim cs := by
  rw [trim, trimStart, List.dropWhile_append_of_pos ha, trim, trimStart]

theorem trimEnd_append_blank {b : List Char} (hb : ∀ c ∈ b, isBlank c = true) (cs : List Char) :
    trimEnd (cs ++ b) = trimEnd cs := by
  rw [trimEnd, List.reverse_append,
    List.dropWhile_append_of_pos fun c hc => hb c (List.mem_reverse.1 hc), trimEnd]

theorem trim_append_blank {b : List Char} (hb : ∀ c ∈ b, isBlank c = true) (cs : List Char) :
    trim (cs ++ b) = trim cs := by
  induction cs with
  | nil => simpa using trim_blank_append hb []
  | cons c cs ih =>
    cases hc : isBlank c with
    | true => simpa [trim, trimStart, hc] using ih
    | false =>
      have htrim : ∀ cs, trim (c :: cs) = trimEnd (c :: cs) := fun cs => by simp [trim, trimStart, hc]
      rw [List.cons_append, htrim, htrim, ← List.cons_append, trimEnd_append_blank hb]

theorem exists_margins (cs : List Char) :
    ∃ a b, cs = a ++ trim cs ++ b ∧ (∀ c ∈ a, isBlank c = true) ∧ ∀ c ∈ b, isBlank c = true := by
  refine ⟨cs.takeWhile isBlank, ((trimStart cs).reverse.takeWhile isBlank).reverse, ?_, ?_, ?_⟩
  · rw [List.append_assoc, trim, trimEnd, ← List.reverse_append, List.takeWhile_append_dropWhile,
      List.reverse_reverse, trimStart, List.takeWhile_append_dropWhile]
  · exact fun c hc => List.mem_takeWhile_imp hc
  · exact fun c hc => List.mem_takeWhile_imp (List.mem_reverse.1 hc)

theorem trim_trim (cs : List Char) : trim (trim cs) = trim cs := by
  obtain ⟨a, b, hcs, ha, hb⟩ := exists_margins cs
  calc trim (trim cs) = trim (a ++ trim cs ++ b) := by rw [trim_append_blank hb, trim_blank_append ha]
    _ = trim cs := by rw [← hcs]

theorem trim_trimmed (s : String) : trim (trimmed s).toList = trim s.toList := by
  rw [trimmed, String.toList_ofList, trim_trim]

theorem trim_eq_self {cs : List Char} (h : ∀ c ∈ cs, isBlank c = false) : trim cs = cs := by
  obtain ⟨a, b, hcs, ha, hb⟩ := exists_margins cs
  have hnil : ∀ margin : List Char, (∀ c ∈ margin, isBlank c = true) → margin ⊆ cs → margin = [] :=
    fun margin hblank hsub => List.eq_nil_iff_forall_not_mem.2 fun c hc =>
      Bool.noConfusion ((h c (hsub hc)).symm.trans (hblank c hc))
  have ha' : a = [] := hnil a ha fun c hc => by
    rw [hcs]
    exact List.mem_append_left _ (List.mem_append_left _ hc)
  have hb' : b = [] := hnil b hb fun c hc => by
    rw [hcs]
    exact List.mem_append_right _ hc
  rw [ha', hb', List.nil_append, List.append_nil] at hcs
  exact hcs.symm

theorem trim_eq_nil_iff {cs : List Char} : trim cs = [] ↔ ∀ c ∈ cs, isBlank c = true := by
  constructor
  · intro h
    obtain ⟨a, b, hcs, ha, hb⟩ := exists_margins cs
    rw [hcs, h, List.append_nil]
    exact fun c hc => (List.mem_append.1 hc).elim (ha c) (hb c)
  · exact fun h => trim_append_blank h []

theorem allBlank_iff {s : String} : allBlank s = true ↔ trim s.toList = [] := by
  rw [trim_eq_nil_iff, allBlank, List.all_eq_true]

theorem allBlank_congr {s s' : String} (h : trim s.toList = trim s'.toList) : allBlank s = allBlank s' := by
  rw [Bool.eq_iff_iff, allBlank_iff, allBlank_iff, h]

end BlockCanvas.Text

namespace BlockCanvas.Python
open Text

variable {raw raw' : String}

/-! ### Tokens -/

theorem reference?_congr (s : Scope) (h : trim raw.toList = trim raw'.toList) :
    s.reference? raw = s.reference? raw' := by
  rw [Scope.reference?, Scope.reference?, h]

theorem literalText_congr (h : trim raw.toList = trim raw'.toList) : literalText raw = literalText raw' := by
  rw [literalText, literalText, Literal.infer, Literal.infer, h]

theorem token_congr (s : Scope) (h : trim raw.toList = trim raw'.toList) : token s raw = token s raw' := by
  rw [token, token, reference?_congr s h, literalText_congr h]

/-! ### Values between commas -/

theorem splitFrom_ne_nil (quote : Option Char) (cs : List Char) : splitFrom quote cs ≠ [] := by
  cases cs with
  | nil => exact List.cons_ne_nil _ _
  | cons c cs =>
    rw [splitFrom]
    split
    · exact List.cons_ne_nil _ _
    · cases splitFrom (quoteAfter quote c) cs <;> exact List.cons_ne_nil _ _

theorem quoteAfter_blank {c : Char} (hc : isBlank c = true) {q : Option Char}
    (hq : ∀ mark ∈ q, isBlank mark = false) : quoteAfter q c = q := by
  cases q with
  | none =>
    have hne : c ≠ '"' ∧ c ≠ '\'' := ⟨(by rintro rfl; cases hc), (by rintro rfl; cases hc)⟩
    simp [quoteAfter, hne]
  | some mark =>
    have hne : c ≠ mark := by
      rintro rfl
      cases (hq c rfl).symm.trans hc
    simp [quoteAfter, hne]

theorem splitFrom_blank {c : Char} (hc : isBlank c = true) {q : Option Char}
    (hq : ∀ mark ∈ q, isBlank mark = false) (cs : List Char) :
    splitFrom q (c :: cs) = consHead c (splitFrom q cs) := by
  have hcomma : c ≠ ',' := by
    rintro rfl
    cases hc
  rw [splitFrom, if_neg (by simp [hcomma]), quoteAfter_blank hc hq]

theorem trim_splitFrom_blank_append {a : List Char} (ha : ∀ c ∈ a, isBlank c = true) (cs : List Char) :
    (splitFrom none (a ++ cs)).map trim = (splitFrom none cs).map trim := by
  induction a with
  | nil => rfl
  | cons c a ih =>
    obtain ⟨hc, ha⟩ := List.forall_mem_cons.1 ha
    obtain ⟨part, rest, hparts⟩ := List.exists_cons_of_ne_nil (splitFrom_ne_nil none (a ++ cs))
    have htrim : trim (c :: part) = trim part := trim_blank_append (a := [c]) (by simpa using hc) part
    rw [List.cons_append, splitFrom_blank (q := none) hc nofun, ← ih ha, hparts, consHead, List.map_cons, htrim,
      List.map_cons]

/-- White space at the end goes to the last part, whichever quotes are open there. -/
theorem exists_splitFrom_append {b : List Char} (hb : ∀ c ∈ b, isBlank c = true) (cs : List Char)
    {q : Option Char} (hq : ∀ mark ∈ q, isBlank mark = false) :
    ∃ parts part, splitFrom q cs = parts ++ [part] ∧
      splitFrom q (cs ++ b) = parts ++ [part ++ b] := by
  induction cs generalizing q with
  | nil =>
    refine ⟨[], [], rfl, ?_⟩
    induction b with
    | nil => rfl
    | cons c b ih =>
      obtain ⟨hc, hb⟩ := List.forall_mem_cons.1 hb
      rw [List.nil_append, splitFrom_blank hc hq, ← List.nil_append b, ih hb]
      rfl
  | cons c cs ih =>
    rw [List.cons_append, splitFrom, splitFrom]
    split
    · obtain ⟨parts, part, h, h'⟩ := ih (q := none) nofun
      exact ⟨[] :: parts, part, by rw [h]; rfl, by rw [h']; rfl⟩
    · -- a quote is no white space, so white space neither opens nor closes a run
      have hafter : ∀ mark ∈ quoteAfter q c, isBlank mark = false := by
        cases q with
        | none =>
          intro mark hc
          simp only [quoteAfter, Option.mem_def, Option.ite_none_right_eq_some, Bool.or_eq_true,
            beq_iff_eq] at hc
          obtain ⟨rfl | rfl, ⟨⟩⟩ := hc <;> rfl
        | some mark' =>
          intro mark hc
          simp only [quoteAfter, Option.mem_def, Option.ite_none_left_eq_some] at hc
          exact hq mark hc.2
      obtain ⟨parts, part, h, h'⟩ := ih hafter
      rw [h, h']
      cases parts with
      | nil => exact ⟨[], c :: part, rfl, rfl⟩
      | cons first parts => exact ⟨(c :: first) :: parts, part, rfl, rfl⟩

theorem trim_splitFrom_append_blank {b : List Char} (hb : ∀ c ∈ b, isBlank c = true) (cs : List Char) :
    (splitFrom none (cs ++ b)).map trim = (splitFrom none cs).map trim := by
  obtain ⟨parts, part, h, h'⟩ := exists_splitFrom_append hb cs (q := none) nofun
  rw [h, h', List.map_append, List.map_append, List.map_singleton, List.map_singleton,
    trim_append_blank hb]

theorem trim_splitFrom_congr {cs cs' : List Char} (h : trim cs = trim cs') :
    (splitFrom none cs).map trim = (splitFrom none cs').map trim := by
  have hsame : ∀ cs, (splitFrom none cs).map trim = (splitFrom none (trim cs)).map trim := by
    intro cs
    obtain ⟨a, b, hcs, ha, hb⟩ := exists_margins cs
    calc (splitFrom none cs).map trim
        = (splitFrom none (a ++ trim cs ++ b)).map trim := by rw [← hcs]
      _ = (splitFrom none (trim cs)).map trim := by
        rw [trim_splitFrom_append_blank hb, trim_splitFrom_blank_append ha]
  rw [hsame cs, hsame cs', h]

theorem map_splitCommas_congr {α : Type} {g : String → α}
    (hg : ∀ {s s' : String}, trim s.toList = trim s'.toList → g s = g s')
    (h : trim raw.toList = trim raw'.toList) :
    (splitCommas raw).map g = (splitCommas raw').map g := by
  have htrim : ∀ text, (splitCommas text).map g =
      ((splitFrom none text.toList).map trim).map fun cs => g (String.ofList cs) := by
    intro text
    rw [splitCommas, List.map_map, List.map_map]
    refine List.map_congr_left fun cs _ => hg ?_
    rw [String.toList_ofList, String.toList_ofList, trim_trim]
  rw [htrim, htrim, trim_splitFrom_congr h]

theorem arguments_congr (s : Scope) (h : trim raw.toList = trim raw'.toList) :
    arguments s raw = arguments s raw' := by
  have htokens := map_splitCommas_congr (token_congr s) h
  have hnamed := map_splitCommas_congr (g := fun p => (s.reference? p).isSome)
    (fun he => congrArg Option.isSome (reference?_congr s he)) h
  have hlength : (splitCommas raw).length = (splitCommas raw').length := by
    simpa using congrArg List.length htokens
  have hany : (splitCommas raw).any (fun p => (s.reference? p).isSome) =
      (splitCommas raw').any fun p => (s.reference? p).isSome := by
    simpa [List.any_map] using congrArg (fun bs : List Bool => bs.any id) hnamed
  rw [arguments, arguments, allBlank_congr h, token_congr s h]
  simp only [htokens, hlength, hany]

end BlockCanvas.Python
