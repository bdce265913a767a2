import BlockCanvas.Json.Parser
import BlockCanvas.Proofs.Formula
import Mathlib.Algebra.Ring.Parity

/-!
Quoted text means what was typed. A reader of string literals, who knows the quotes and the escapes and not
how they were chosen, finds in a literal exactly the text that it was made of (`denoted?_quoted`), so no two
texts are written alike. Typed text that is no number, truth value or nothing comes out as the text itself,
less the quotes around it (`Literal.text_means`).
-/
namespace BlockCanvas.Python

/-! ### What a literal denotes -/

def escaped? : Char → Option Char
  | '\\' => some '\\'
  | '"' => some '"'
  | '\'' => some '\''
  | 'n' => some '\n'
  | 'r' => some '\r'
  | 't' => some '\t'
  | _ => none

def numbered? (high low : Char) : Option Char := do
  let h ← Json.hexValue? high
  let l ← Json.hexValue? low
  some (Char.ofNat (16 * h + l))

/-- What the text between two quotes of a kind denotes. That quote needs a backslash, and no line may end. -/
def contents? (q : Char) : List Char → Option (List Char)
  | [] => some []
  | '\\' :: 'x' :: high :: low :: cs =>
    (numbered? high low).bind fun c => (contents? q cs).map (c :: ·)
  | '\\' :: e :: cs => (escaped? e).bind fun c => (contents? q cs).map (c :: ·)
  | c :: cs =>
    if c == '\\' || c == q || c == '\n' || c == '\r' then none else (contents? q cs).map (c :: ·)

def denoted? : List Char → Option (List Char)
  | [] => none
  | q :: cs => if isQuote q && cs.getLast? == some q then contents? q cs.dropLast else none

/-- An escape by number has two digits, so it takes nothing of what comes after it. -/
theorem contents?_hexByte (q : Char) {c : Char} (hc : Text.isControl c = true) (rest : List Char) :
    contents? q ('\\' :: 'x' :: Text.hexByte c.toNat ++ rest) = (contents? q rest).map (c :: ·) := by
  have hbyte : ∀ n < 0xA0, (Text.hexByte n).length = 2 ∧
      numbered? ((Text.hexByte n).headD '0') ((Text.hexByte n).getLastD '0') = some (Char.ofNat n) := by
    decide +kernel
  obtain ⟨hlength, hnumber⟩ := hbyte c.toNat (lt_of_isControl hc)
  obtain ⟨high, low, hdigits⟩ := List.length_eq_two.1 hlength
  have hchar : numbered? high low = some c := by simpa [hdigits, Char.ofNat_toNat] using hnumber
  rw [hdigits, List.cons_append, List.cons_append, List.cons_append, List.cons_append, List.nil_append,
    contents?, hchar, Option.bind_some]

theorem contents?_plain {q c : Char} (hslash : c ≠ '\\') (hc : c ≠ q) (hcontrol : Text.isControl c = false)
    (rest : List Char) : contents? q (c :: rest) = (contents? q rest).map (c :: ·) := by
  have hline : c ≠ '\n' ∧ c ≠ '\r' := by
    constructor <;> rintro rfl <;> exact absurd hcontrol (by decide)
  rw [contents?.eq_def]
  simp [hslash, hc, hline]

section Quotes
variable {q : Char} (hq : isQuote q = true)
include hq

theorem isQuote_cases : q = '"' ∨ q = '\'' := by
  simpa [isQuote] using hq

theorem contents?_quotedChar (c : Char) (rest : List Char) :
    contents? q (Literal.quotedChar q c ++ rest) = (contents? q rest).map (c :: ·) := by
  rw [Literal.quotedChar]
  split
  · next hc =>
    obtain rfl := eq_of_beq hc
    rcases isQuote_cases hq with rfl | rfl <;> rfl
  · next hc =>
    rw [Literal.escapeChar]
    split_ifs with hslash hnewline hreturn htab hcontrol
    · obtain rfl := eq_of_beq hslash
      rfl
    · obtain rfl := eq_of_beq hnewline
      rfl
    · obtain rfl := eq_of_beq hreturn
      rfl
    · obtain rfl := eq_of_beq htab
      rfl
    · exact contents?_hexByte q hcontrol rest
    · exact contents?_plain (by simpa using hslash) (by simpa using hc) (Bool.eq_false_iff.2 hcontrol) rest

theorem denoted?_quoted (text : List Char) : denoted? (Literal.quoted q text) = some text := by
  have hinner : contents? q (text.flatMap (Literal.quotedChar q)) = some text := by
    induction text with
    | nil => rfl
    | cons c cs ih => rw [List.flatMap_cons, contents?_quotedChar hq, ih, Option.map_some]
  rw [Literal.quoted, List.cons_append, denoted?, List.getLast?_concat, hq, List.dropLast_concat, hinner]
  simp

theorem quoted_injective : Function.Injective (Literal.quoted q) := by
  intro xs ys h
  exact Option.some.inj (by rw [← denoted?_quoted hq, h, denoted?_quoted hq])

end Quotes

/-! ### Quotes inside -/

def EndsOddly (text : List Char) : Prop :=
  ∃ start n, text = start ++ List.replicate n '\\' ∧ start.getLast? ≠ some '\\' ∧ Odd n

namespace EndsOddly

theorem single : EndsOddly ['\\'] :=
  ⟨[], 1, rfl, by simp, odd_one⟩

theorem cons {c : Char} {cs : List Char} (hc : c ≠ '\\') (h : EndsOddly cs) : EndsOddly (c :: cs) := by
  obtain ⟨start, n, rfl, hstart, hn⟩ := h
  refine ⟨c :: start, n, rfl, ?_, hn⟩
  cases start with
  | nil => simpa using hc
  | cons d ds => rwa [List.getLast?_cons_cons]

theorem escape {c : Char} {cs : List Char} (h : EndsOddly cs) : EndsOddly ('\\' :: c :: cs) := by
  obtain ⟨start, n, rfl, hstart, hn⟩ := h
  cases start with
  | cons d ds =>
    have hlast : ('\\' :: c :: d :: ds).getLast? = (d :: ds).getLast? := by
      rw [List.getLast?_cons_cons, List.getLast?_cons_cons]
    exact ⟨'\\' :: c :: d :: ds, n, rfl, hlast ▸ hstart, hn⟩
  | nil =>
    by_cases hc : c = '\\'
    · exact ⟨[], n + 2, by rw [hc]; rfl, hstart, hn.add_even even_two⟩
    · exact ⟨['\\', c], n, rfl, by simpa using hc, hn⟩

end EndsOddly

theorem closing?_self {q : Char} (hslash : q ≠ '\\') (rest : List Char) :
    closing? q (q :: rest) = some ([q], rest) := by
  rw [closing?.eq_def]
  simp [hslash]

theorem endsOddly_of_closing? {q : Char} (hq : q ≠ '\\') {after : List Char} (hafter : after ≠ [])
    {text inner : List Char} (h : closing? q (text ++ q :: after) = some (inner, [])) : EndsOddly text := by
  induction text using closing?.induct q generalizing inner with
  | case1 =>
    rw [List.nil_append, closing?_self hq] at h
    exact absurd (congrArg Prod.snd (Option.some.inj h)) hafter
  | case2 c cs ih =>
    rw [List.cons_append, List.cons_append, closing?, Option.map_eq_some_iff] at h
    obtain ⟨⟨inner', rest⟩, hrest, heq⟩ := h
    obtain ⟨-, rfl⟩ := Prod.mk.inj heq
    exact (ih hrest).escape
  | case3 c cs _ hc =>
    obtain rfl := eq_of_beq hc
    rw [List.cons_append, closing?_self hq] at h
    exact absurd (congrArg Prod.snd (Option.some.inj h)) (by simp)
  | case4 c cs hescape hc ih =>
    by_cases hslash : c = '\\'
    · -- A backslash that escapes nothing in the text escapes the quote.
      cases cs with
      | nil => exact hslash ▸ .single
      | cons d ds => exact (hescape d ds hslash rfl).elim
    · rw [List.cons_append, closing?_cons hslash (by simpa using hc), Option.map_eq_some_iff] at h
      obtain ⟨⟨inner', rest⟩, hrest, heq⟩ := h
      obtain ⟨-, rfl⟩ := Prod.mk.inj heq
      exact (ih hrest).cons hslash

/-! ### Typed text -/

structure Means (q : Char) (literal text : List Char) : Prop where
  denoted : denoted? literal = some text
  guarded : ∀ inner after, literal = q :: inner ++ q :: after → after ≠ [] → EndsOddly inner
  visible : ∀ c ∈ literal, Text.isControl c = false

theorem means_quoted {q : Char} (hq : isQuote q = true) (text : List Char) :
    Means q (Literal.quoted q text) text := by
  have hquote := isQuote_cases hq
  refine ⟨denoted?_quoted hq text, fun inner after heq hafter => ?_, (tame_quoted hquote text).visible⟩
  have hinner : text.flatMap (Literal.quotedChar q) ++ [q] = inner ++ q :: after := (List.cons.inj heq).2
  have hclosing := closing?_quoted hq text []
  rw [hinner] at hclosing
  have hslash : q ≠ '\\' := by rcases hquote with rfl | rfl <;> decide
  exact endsOddly_of_closing? hslash hafter hclosing

def unwrapped (text : List Char) : List Char :=
  if 2 ≤ text.length ∧ text.head?.any isQuote ∧ text.getLast? = text.head? then text.tail.dropLast else text

theorem unwrapped_eq (text : List Char) : unwrapped text = (Literal.unquoted? text).getD text := by
  cases text with
  | nil => rfl
  | cons q cs =>
    cases cs with
    | nil => simp [unwrapped, Literal.unquoted?]
    | cons c cs =>
      simp only [unwrapped, Literal.unquoted?, isQuote, List.length_cons, List.head?_cons, List.tail_cons,
        List.getLast?_cons_cons, Option.any_some, Bool.and_eq_true, beq_iff_eq]
      split_ifs with hends hquoted hquoted
      · rfl
      · exact absurd hends.2 hquoted
      · exact absurd ⟨by omega, hquoted⟩ hends
      · rfl

theorem infer_str_or_char {raw : List Char}
    (h : (∃ text, Literal.infer raw = .str text) ∨ ∃ c, Literal.infer raw = .char c) :
    Literal.infer raw = .str (unwrapped (Text.trim raw)) ∨
      ∃ c, Literal.infer raw = .char c ∧ unwrapped (Text.trim raw) = [c] := by
  rw [unwrapped_eq]
  revert h
  rw [Literal.infer]
  split_ifs with hempty hint hfloat htrue hfalse
  · simp
  · simp
  · simp
  · simp
  · simp
  · intro _
    cases hinner : Literal.unquoted? (Text.trim raw) with
    | some inner => exact .inl rfl
    | none =>
      simp only [Option.getD_none]
      split
      · next c htoken => exact .inr ⟨c, rfl, htoken⟩
      · exact .inl rfl

namespace Literal

/-- Text and characters are written so that a reader of literals finds them again, no two texts alike, and
what is typed comes out as itself. -/
theorem text_means :
    (∀ text, Means '"' (str text).text text) ∧ (∀ c, Means '\'' (char c).text [c]) ∧
      Function.Injective (fun text => (str text).text) ∧
      ∀ raw, ((∃ text, infer raw = .str text) ∨ ∃ c, infer raw = .char c) →
        denoted? (infer raw).text = some (unwrapped (Text.trim raw)) := by
  refine ⟨means_quoted rfl, fun c => means_quoted rfl [c], quoted_injective rfl, fun raw h => ?_⟩
  rcases infer_str_or_char h with hraw | ⟨c, hraw, hc⟩
  · rw [hraw]
    exact denoted?_quoted rfl _
  · rw [hraw, hc]
    exact denoted?_quoted rfl _

theorem text_means_hostile :
    let typed := [' ', '\'', '\x01', 'f', '"', '\\', '\'']
    infer typed = .str ['\x01', 'f', '"', '\\'] ∧
      (infer typed).text = ['"', '\\', 'x', '0', '1', 'f', '\\', '"', '\\', '\\', '"'] ∧
      denoted? (infer typed).text = some ['\x01', 'f', '"', '\\'] := by
  intro typed
  have hinfer : infer typed = .str ['\x01', 'f', '"', '\\'] := by decide
  have hunwrapped : unwrapped (Text.trim typed) = ['\x01', 'f', '"', '\\'] := by decide
  exact ⟨hinfer, by decide, hunwrapped ▸ text_means.2.2.2 typed (.inl ⟨_, hinfer⟩)⟩

end Literal
end BlockCanvas.Python
