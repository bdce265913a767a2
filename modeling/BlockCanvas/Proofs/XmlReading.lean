import BlockCanvas.Library
import BlockCanvas.Proofs.Utf8
import BlockCanvas.Proofs.XmlLaws
import Mathlib.Data.List.TakeWhile

/-!
Elements that are written are read back (`parse?_renderDocument`), but for runs of white space between
their marks. Every piece of the written text has its lemma: from the piece and whatever follows it the
reader takes what was written and leaves what follows. Each token takes at least one character, so fuel
for twice the text is always enough.
-/
namespace BlockCanvas.Xml

variable {n : Nat} {c : Char} (rest : List Char)

/-! ### Tokens -/

theorem next_plain {cs : List Char} (hopen : c ≠ '<') (hempty : c = '/' → cs.head? ≠ some '>')
    (hsection : c = ']' → cs.take 2 ≠ [']', '>']) :
    Lexer.next { text := c :: cs } = some (Lexer.plain c, { text := cs }) := by
  have hcontent : ∀ l : Lexer, l.mode = .content → l.next = l.nextInContent := by
    intro l hl
    rw [Lexer.next, hl]
  rw [hcontent _ rfl, Lexer.nextInContent]
  split
  · next h => cases h
  · next h => exact absurd (List.cons.inj h).1 hopen
  · next h =>
    obtain ⟨rfl, rfl⟩ := List.cons.inj h
    exact absurd rfl (hempty rfl)
  · next h =>
    obtain ⟨rfl, rfl⟩ := List.cons.inj h
    exact absurd rfl (hsection rfl)
  · next h =>
    obtain ⟨rfl, rfl⟩ := List.cons.inj h
    rfl

theorem ne_of_isNameChar (h : isNameChar c = true) {d : Char} (hd : isNameChar d = false) : c ≠ d := by
  rintro rfl
  cases h.symm.trans hd

theorem isSpacing_nameChar (h : isNameChar c = true) : Text.isSpacing c = false := by
  have hne := @ne_of_isNameChar c h
  simp [Text.isSpacing, hne (d := ' ') rfl, hne (d := '\t') rfl, hne (d := '\n') rfl,
    hne (d := '\r') rfl]

theorem next_nameChar (h : isNameChar c = true) (cs : List Char) :
    Lexer.next { text := c :: cs } = some (.char c, { text := cs }) := by
  have hne := @ne_of_isNameChar c h
  rw [next_plain (hne rfl) (fun he => absurd he (hne rfl)) fun he => absurd he (hne rfl), Lexer.plain]
  simp [hne (d := '>') rfl, hne (d := '=') rfl, hne (d := '"') rfl, hne (d := '\'') rfl,
    hne (d := '&') rfl, hne (d := ';') rfl]

theorem next_open (h : isNameChar c = true) (cs : List Char) :
    Lexer.next { text := '<' :: c :: cs } = some (.tagOpen, { text := c :: cs }) := by
  have hne := @ne_of_isNameChar c h
  have hmarkup : ∀ l : Lexer, l.markup (c :: cs) = some (.tagOpen, (l.past 1 (c :: cs)).home) := by
    intro l
    rw [Lexer.markup]
    · simp [h]
    · exact hne rfl
    · exact hne rfl
    · exact hne rfl
  exact hmarkup _

/-! ### Names -/

theorem isNameChar_of_isNameStart (h : isNameStart c = true) : isNameChar c = true := by
  simp [isNameChar, h]

theorem IsName.letters {s : String} (h : IsName s) : ∀ c ∈ s.toList, isNameChar c = true := by
  rw [IsName, Bool.and_eq_true, List.all_eq_true] at h
  exact h.2

theorem IsName.exists_letters {s : String} (h : IsName s) :
    ∃ c cs, s.toList = c :: cs ∧ isNameStart c = true ∧ ∀ d ∈ cs, isNameChar d = true := by
  have hchars := h.letters
  rw [IsName, Bool.and_eq_true] at h
  cases hs : s.toList with
  | nil => simp [hs] at h
  | cons c cs =>
    rw [hs] at h hchars
    exact ⟨c, cs, rfl, h.1, (List.forall_mem_cons.1 hchars).2⟩

theorem readLetters_append {seen cs : List Char} (hseen : seen ≠ [])
    (hcs : ∀ c ∈ cs, isNameChar c = true) {t : Token} {l : Lexer}
    (hnext : Lexer.next { text := rest } = some (t, l)) (hstop : ∀ c, t = .char c → c = ' ')
    (hn : cs.length < n) :
    readLetters n seen { text := cs ++ rest } = some (seen.reverse ++ cs, t, l) := by
  induction cs generalizing n seen with
  | nil =>
    obtain ⟨n, rfl⟩ := Nat.exists_eq_succ_of_ne_zero (Nat.ne_zero_of_lt hn)
    rw [readLetters, List.nil_append, hnext, List.append_nil]
    cases t with
    | char c =>
      obtain rfl := hstop c rfl
      have hno : continues seen ' ' = false := by simp [continues, hseen, isNameChar, isNameStart]
      simp [hno]
    | _ => rfl
  | cons c cs ih =>
    obtain ⟨n, rfl⟩ := Nat.exists_eq_succ_of_ne_zero (Nat.ne_zero_of_lt hn)
    obtain ⟨hc, hcs⟩ := List.forall_mem_cons.1 hcs
    have hcolon : c ≠ ':' := ne_of_isNameChar hc rfl
    have hgoes : continues seen c = true := by simp [continues, hseen, hcolon, hc]
    rw [readLetters, List.cons_append, next_nameChar hc]
    simp only [hgoes, if_true]
    rw [ih (List.cons_ne_nil c seen) hcs (Nat.lt_of_succ_lt_succ hn), List.reverse_cons,
      List.append_assoc]
    rfl

theorem readLetters_name {s : String} (h : IsName s) {t : Token} {l : Lexer}
    (hnext : Lexer.next { text := rest } = some (t, l)) (hstop : ∀ c, t = .char c → c = ' ')
    (hn : s.toList.length < n) :
    readLetters n [] { text := s.toList ++ rest } = some (s.toList, t, l) := by
  obtain ⟨c, cs, hs, hc, hcs⟩ := h.exists_letters
  rw [hs] at hn ⊢
  obtain ⟨n, rfl⟩ := Nat.exists_eq_succ_of_ne_zero (Nat.ne_zero_of_lt hn)
  have hchar := isNameChar_of_isNameStart hc
  have hcolon : c ≠ ':' := ne_of_isNameChar hchar rfl
  have hgoes : continues [] c = true := by simp [continues, hcolon, hc]
  rw [readLetters, List.cons_append, next_nameChar hchar]
  simp only [hgoes, if_true]
  exact readLetters_append _ (List.cons_ne_nil c []) hcs hnext hstop (Nat.lt_of_succ_lt_succ hn)

theorem nameOf?_name {s : String} (h : IsName s) : nameOf? s.toList = some ⟨none, s⟩ := by
  have hcolon : ∀ c ∈ s.toList, (c != ':') = true := fun c hc => by
    simpa using ne_of_isNameChar (h.letters c hc) (d := ':') rfl
  have hdrop : s.toList.dropWhile (· != ':') = [] := List.dropWhile_eq_nil_iff.2 hcolon
  have htake : s.toList.takeWhile (· != ':') = s.toList := List.takeWhile_eq_self_iff.2 hcolon
  obtain ⟨c, cs, hs, -⟩ := h.exists_letters
  have hne : s.toList.isEmpty = false := by rw [hs]; rfl
  simp only [nameOf?, hdrop, htake, hne, Bool.false_eq_true, if_false, String.ofList_toList]

/-! ### References -/

def references : List (List Char × Char) :=
  [(['l', 't', ';'], '<'), (['g', 't', ';'], '>'), (['a', 'm', 'p', ';'], '&'),
    (['q', 'u', 'o', 't', ';'], '"'), (['a', 'p', 'o', 's', ';'], '\''), (['#', 'x', 'A', ';'], '\n'),
    (['#', 'x', 'D', ';'], '\r')]

theorem readReference_of_mem {word : List Char} (h : (word, c) ∈ references) (hn : 5 ≤ n) :
    readReference {} n [] { text := word ++ rest } = some (.char c, { text := rest }) := by
  obtain ⟨n, rfl⟩ := Nat.exists_eq_add_of_le' hn
  simp only [references, List.mem_cons, Prod.mk.injEq, List.not_mem_nil, or_false] at h
  rcases h with ⟨rfl, rfl⟩ | ⟨rfl, rfl⟩ | ⟨rfl, rfl⟩ | ⟨rfl, rfl⟩ | ⟨rfl, rfl⟩ | ⟨rfl, rfl⟩ | ⟨rfl, rfl⟩ <;>
    rfl

def Escapes (escape : Char → List Char) : Prop :=
  ∀ c, (escape c = [c] ∧ c ≠ '<' ∧ c ≠ '>' ∧ c ≠ '&') ∨
    ∃ word, escape c = '&' :: word ∧ (word, c) ∈ references

theorem escapes_escapeText : Escapes escapeText := by
  intro c
  by_cases hlt : c = '<'
  · subst hlt
    exact Or.inr ⟨_, rfl, by decide⟩
  by_cases hgt : c = '>'
  · subst hgt
    exact Or.inr ⟨_, rfl, by decide⟩
  by_cases hamp : c = '&'
  · subst hamp
    exact Or.inr ⟨_, rfl, by decide⟩
  exact Or.inl ⟨by simp [escapeText, hlt, hgt, hamp], hlt, hgt, hamp⟩

theorem escapeAttribute_quote : escapeAttribute '"' ≠ ['"'] := by
  decide

theorem escapes_escapeAttribute : Escapes escapeAttribute := by
  intro c
  by_cases hquot : c = '"'
  · subst hquot
    exact Or.inr ⟨_, rfl, by decide⟩
  by_cases hapos : c = '\''
  · subst hapos
    exact Or.inr ⟨_, rfl, by decide⟩
  by_cases hline : c = '\n'
  · subst hline
    exact Or.inr ⟨_, rfl, by decide⟩
  by_cases hreturn : c = '\r'
  · subst hreturn
    exact Or.inr ⟨_, rfl, by decide⟩
  have hescape : escapeAttribute c = escapeText c := by
    simp [escapeAttribute, hquot, hapos, hline, hreturn]
  rw [hescape]
  exact escapes_escapeText c

section Escapes
variable {escape : Char → List Char}

theorem Escapes.notMem (h : Escapes escape) (c : Char) : '>' ∉ escape c := by
  rcases h c with ⟨hc, -, hne, -⟩ | ⟨word, hc, hword⟩
  · rw [hc, List.mem_singleton]
    exact hne.symm
  · have hnone : ∀ r ∈ references, '>' ∉ '&' :: r.1 := by decide
    rw [hc]
    exact hnone _ hword

theorem Escapes.length_le (h : Escapes escape) (cs : List Char) :
    cs.length ≤ (cs.flatMap escape).length := by
  induction cs with
  | nil => exact Nat.zero_le _
  | cons c cs ih =>
    have hc : 1 ≤ (escape c).length := by
      rcases h c with ⟨hc, -⟩ | ⟨word, hc, -⟩ <;> simp [hc]
    rw [List.flatMap_cons, List.length_append, List.length_cons]
    omega

/-- Neither an empty tag nor a section can end in written text. -/
theorem Escapes.not_closing (h : Escapes escape) (cs : List Char) {d : Char} (hd : d ≠ '>' ∧ d ≠ ']') :
    (cs.flatMap escape ++ d :: rest).head? ≠ some '>' ∧
      (cs.flatMap escape ++ d :: rest).take 2 ≠ [']', '>'] := by
  have hnone : '>' ∉ cs.flatMap escape := by
    rw [List.mem_flatMap]
    rintro ⟨c, -, hc⟩
    exact h.notMem c hc
  generalize cs.flatMap escape = text at hnone ⊢
  rcases text with _ | ⟨a, _ | ⟨b, bs⟩⟩
  · simp [hd]
  · have ha : a ≠ '>' := by
      rintro rfl
      exact hnone (by simp)
    simp [ha, hd]
  · have ha : a ≠ '>' ∧ b ≠ '>' := ⟨(by rintro rfl; exact hnone (by simp)),
      (by rintro rfl; exact hnone (by simp))⟩
    simp [ha]

end Escapes

/-! ### Attributes -/

theorem isLiteralChar_eq (c : Char) : isLiteralChar false c = isChar false c := by
  simp [isLiteralChar]

section
variable {setting : Setting} {mark : Char} {seen : List Char} {l l' l'' : Lexer}

-- The readers are opened by `whnf`: their equation lemmas hold statements about all characters, which the
-- instance for finite types would decide by going through every one.
theorem readValue_char (hnext : l.next = some (.char c, l')) (hc : isLiteralChar setting.eleven c = true) :
    readValue setting mark (n + 1) seen l = readValue setting mark n (c :: seen) l' := by
  conv => lhs; whnf
  simp only [hnext, hc, if_true]

theorem readValue_reference (hnext : l.next = some (.ampersand, l'))
    (hreference : readReference setting n [] l' = some (.char c, l'')) :
    readValue setting mark (n + 1) seen l = readValue setting mark n (c :: seen) l'' := by
  conv => lhs; whnf
  simp only [hnext, hreference]

end

theorem readValue_plain (hc : c ≠ '<' ∧ c ≠ '>' ∧ c ≠ '&') (hquote : c ≠ '"') (hchar : isChar false c = true)
    {cs : List Char} (hcs : cs.head? ≠ some '>' ∧ cs.take 2 ≠ [']', '>']) (seen : List Char) :
    readValue {} '"' (n + 1) seen { text := c :: cs } = readValue {} '"' n (c :: seen) { text := cs } := by
  have hnext := next_plain hc.1 (fun _ => hcs.1) fun _ => hcs.2
  by_cases heq : c = '='
  · subst heq
    rfl
  by_cases hapos : c = '\''
  · subst hapos
    rfl
  by_cases hsemi : c = ';'
  · subst hsemi
    rfl
  have hplain : Lexer.plain c = .char c := by
    simp [Lexer.plain, hc, heq, hquote, hapos, hsemi]
  rw [hplain] at hnext
  exact readValue_char hnext ((isLiteralChar_eq c).trans hchar)

theorem readValue_escaped {cs : List Char} (hcs : ∀ c ∈ cs, isChar false c = true)
    (hn : cs.length + 5 ≤ n) (seen : List Char) :
    readValue {} '"' n seen { text := cs.flatMap escapeAttribute ++ '"' :: rest } =
      some (seen.reverse ++ cs, { text := rest }) := by
  induction cs generalizing n seen with
  | nil =>
    obtain ⟨n, rfl⟩ := Nat.exists_eq_add_of_le' hn
    rw [List.append_nil]
    rfl
  | cons c cs ih =>
    obtain ⟨n, rfl⟩ := Nat.exists_eq_add_of_le' (Nat.one_le_of_lt hn)
    obtain ⟨hc, hcs⟩ := List.forall_mem_cons.1 hcs
    rw [List.length_cons] at hn
    have hrest := ih hcs (n := n) (by omega) (c :: seen)
    rw [List.reverse_cons, List.append_assoc, List.singleton_append] at hrest
    rw [← hrest, List.flatMap_cons, List.append_assoc]
    rcases escapes_escapeAttribute c with ⟨hescape, hplain⟩ | ⟨word, hescape, hword⟩
    · have hquote : c ≠ '"' := by
        rintro rfl
        exact escapeAttribute_quote hescape
      rw [hescape]
      exact readValue_plain hplain hquote hc (escapes_escapeAttribute.not_closing _ cs (by decide)) seen
    · have hamp : ∀ cs, Lexer.next { text := '&' :: cs } = some (.ampersand, { text := cs }) :=
        fun _ => rfl
      rw [hescape, List.cons_append]
      exact readValue_reference (hamp _) (readReference_of_mem _ hword (by omega : 5 ≤ n))

def attributeChars (a : String × String) : List Char :=
  ' ' :: (a.1.toList ++ '=' :: '"' :: (a.2.toList.flatMap escapeAttribute ++ ['"']))

theorem toList_attributeText (a : String × String) : (attributeText a).toList = attributeChars a := by
  simp [attributeText, attributeChars]

theorem readAssigned_escaped {value : String} (hvalue : Allowed value)
    (hn : value.toList.length + 5 ≤ n) :
    readAssigned {} n .equals
        { text := '"' :: (value.toList.flatMap escapeAttribute ++ '"' :: rest) } =
      some (value, { text := rest }) := by
  obtain ⟨m, rfl⟩ := Nat.exists_eq_add_of_le' (by omega : 1 ≤ n)
  have hskip : ∀ cs, skipSpacing (m + 1) { text := '"' :: cs } = some (.quote '"', { text := cs }) :=
    fun _ => rfl
  have hread := readValue_escaped rest hvalue hn []
  simp only [readAssigned, Token.isSpacing, Bool.false_eq_true, if_false, bne_self_eq_false, hskip,
    Option.bind_eq_bind, Option.bind_some, hread, Option.map_some, List.reverse_nil, List.nil_append,
    String.ofList_toList]

theorem readAttributes_cons {name value : String} (hname : IsName name) (hxmlns : name ≠ "xmlns")
    (hvalue : Allowed value) {seen : List (Name × String)} (hnew : ∀ a ∈ seen, a.1 ≠ ⟨none, name⟩)
    (hn : name.toList.length + value.toList.length + 6 ≤ n) :
    readAttributes {} (n + 1) seen (.char ' ')
        { text := name.toList ++ '=' :: '"' :: (value.toList.flatMap escapeAttribute ++ '"' :: rest) } =
      (Lexer.next { text := rest }).bind fun r =>
        readAttributes {} n ((⟨none, name⟩, value) :: seen) r.1 r.2 := by
  have hnameOf := nameOf?_name hname
  obtain ⟨c, cs, hs, hc, hcs⟩ := hname.exists_letters
  rw [hs] at hn hnameOf ⊢
  rw [List.length_cons] at hn
  have hchar := isNameChar_of_isNameStart hc
  obtain ⟨m, rfl⟩ := Nat.exists_eq_add_of_le' (by omega : 1 ≤ n)
  have hskip : ∀ cs, skipSpacing (m + 1) { text := c :: cs } = some (.char c, { text := cs }) := by
    intro cs
    rw [skipSpacing, next_nameChar hchar]
    simp [Token.isSpacing, isSpacing_nameChar hchar]
  have hletters : ∀ tail, readLetters (m + 1) [c] { text := cs ++ '=' :: tail } =
      some (c :: cs, .equals, { text := tail }) := fun tail =>
    readLetters_append _ (List.cons_ne_nil c []) hcs rfl nofun (by omega)
  have hdeclares : declared? ⟨none, name⟩ = none := by simp [declared?, hxmlns]
  have hfresh : (seen.any fun a => a.1 == ⟨none, name⟩) = false := by simpa using hnew
  have hassigned := readAssigned_escaped rest hvalue (by omega : _ ≤ m + 1)
  have hblank : (Token.char ' ').isSpacing = true := rfl
  rw [readAttributes]
  · simp only [hblank, Bool.not_true, Bool.false_eq_true, if_false, List.cons_append, hskip, hc, hletters,
      hnameOf, hdeclares, Option.isNone_none, Bool.true_and, hfresh, hassigned]
    cases Lexer.next { text := rest } <;> rfl
  · nofun
  · nofun

def tagEnd (isEmpty : Bool) : List Char :=
  if isEmpty then [' ', '/', '>'] else ['>']

theorem readAttributes_nil (isEmpty : Bool) (hn : 2 ≤ n) (seen : List (Name × String)) :
    (Lexer.next { text := tagEnd isEmpty ++ rest }).bind (fun r => readAttributes {} n seen r.1 r.2) =
      some (seen.reverse, isEmpty, { text := rest }) := by
  obtain ⟨n, rfl⟩ := Nat.exists_eq_add_of_le' hn
  cases isEmpty <;> rfl

theorem readAttributes_written {attributes : List (String × String)}
    (hnames : ∀ a ∈ attributes, IsName a.1 ∧ a.1 ≠ "xmlns") (hvalues : ∀ a ∈ attributes, Allowed a.2)
    (hdistinct : (attributes.map Prod.fst).Nodup) (isEmpty : Bool) (seen : List (Name × String))
    (hnew : ∀ a ∈ seen, ∀ b ∈ attributes, a.1 ≠ ⟨none, b.1⟩)
    (hn : (attributes.flatMap attributeChars).length + 3 ≤ n) :
    (Lexer.next { text := attributes.flatMap attributeChars ++ (tagEnd isEmpty ++ rest) }).bind
        (fun r => readAttributes {} n seen r.1 r.2) =
      some (seen.reverse ++ attributes.map (fun a => (⟨none, a.1⟩, a.2)), isEmpty, { text := rest }) := by
  induction attributes generalizing n seen with
  | nil => simpa using readAttributes_nil rest isEmpty (by omega : 2 ≤ n) seen
  | cons a attributes ih =>
    obtain ⟨⟨hname, hxmlns⟩, hnames⟩ := List.forall_mem_cons.1 hnames
    obtain ⟨hvalue, hvalues⟩ := List.forall_mem_cons.1 hvalues
    obtain ⟨hfirst, hdistinct⟩ := List.nodup_cons.1 hdistinct
    obtain ⟨n, rfl⟩ := Nat.exists_eq_add_of_le' (by omega : 1 ≤ n)
    have hlength := escapes_escapeAttribute.length_le a.2.toList
    simp only [List.flatMap_cons, List.length_append, attributeChars, List.length_cons,
      List.length_nil] at hn
    have hcons := readAttributes_cons
      (attributes.flatMap attributeChars ++ (tagEnd isEmpty ++ rest)) hname hxmlns hvalue
      (fun a ha => hnew a ha _ List.mem_cons_self) (by omega : _ ≤ n)
    have hrest := ih hnames hvalues hdistinct (n := n) ((⟨none, a.1⟩, a.2) :: seen)
      (List.forall_mem_cons.2 ⟨?_, fun a ha b hb => hnew a ha b (List.mem_cons_of_mem _ hb)⟩) (by omega)
    · rw [hrest, List.reverse_cons, List.append_assoc] at hcons
      simp only [List.flatMap_cons, attributeChars, List.cons_append, List.append_assoc, List.nil_append]
      exact hcons
    · intro b hb he
      exact hfirst (List.mem_map.2 ⟨b, hb, (Name.mk.inj he).2.symm⟩)

/-! ### Tags -/

theorem putAttribute_of_notMem {attributes : List (String × String)} {name : String}
    (h : name ∉ attributes.map Prod.fst) (value : String) :
    putAttribute attributes name value = attributes ++ [(name, value)] := by
  have hkeep : attributes.filter (fun a => a.1 != name) = attributes := by
    refine List.filter_eq_self.2 fun a ha => ?_
    simpa using fun he => h (List.mem_map.2 ⟨a, ha, he⟩)
  rw [putAttribute, hkeep]

theorem foldl_putAttribute {attributes : List (String × String)} (seen : List (String × String))
    (h : ((seen ++ attributes).map Prod.fst).Nodup) :
    (attributes.map fun a => ((⟨none, a.1⟩ : Name), a.2)).foldl
      (fun seen a => putAttribute seen a.1.part a.2) seen = seen ++ attributes := by
  induction attributes generalizing seen with
  | nil => exact (List.append_nil seen).symm
  | cons a attributes ih =>
    have hnew : a.1 ∉ seen.map Prod.fst := by
      rw [List.map_append, List.nodup_append] at h
      exact fun hm => h.2.2 _ hm _ (List.mem_map_of_mem List.mem_cons_self) rfl
    rw [← List.singleton_append, ← List.append_assoc] at h
    rw [List.map_cons, List.foldl_cons, putAttribute_of_notMem hnew, ih _ h, List.append_assoc]
    rfl

def tagChars (name : String) (attributes : List (String × String)) (isEmpty : Bool) : List Char :=
  name.toList ++ (attributes.flatMap attributeChars ++ tagEnd isEmpty)

theorem length_tagEnd_lt {name : String} {attributes : List (String × String)} (h : IsTag name attributes)
    (isEmpty : Bool) : (tagEnd isEmpty).length < (tagChars name attributes isEmpty).length := by
  obtain ⟨c, cs, hname, -⟩ := h.name.exists_letters
  rw [tagChars, hname, List.length_append, List.length_append, List.length_cons]
  omega

theorem next_after_name (attributes : List (String × String)) (isEmpty : Bool) :
    ∃ t l, Lexer.next { text := attributes.flatMap attributeChars ++ (tagEnd isEmpty ++ rest) } =
      some (t, l) ∧ ∀ c, t = .char c → c = ' ' := by
  have hblank : ∀ cs, Lexer.next { text := ' ' :: cs } = some (.char ' ', { text := cs }) := fun _ => rfl
  cases attributes with
  | nil =>
    cases isEmpty with
    | false => exact ⟨_, _, rfl, nofun⟩
    | true => exact ⟨_, _, hblank _, fun c hc => (Token.char.inj hc).symm⟩
  | cons a attributes => exact ⟨_, _, hblank _, fun c hc => (Token.char.inj hc).symm⟩

theorem readStartTag_written {name : String} {attributes : List (String × String)}
    (h : IsTag name attributes) (isEmpty : Bool) (bound : List String)
    (hn : (tagChars name attributes isEmpty).length + 3 ≤ n) :
    readStartTag {} n bound { text := tagChars name attributes isEmpty ++ rest } =
      some (⟨⟨none, name⟩, attributes, bound, isEmpty⟩, { text := rest }) := by
  rw [tagChars, List.length_append, List.length_append] at hn
  obtain ⟨t, l, hnext, hstop⟩ := next_after_name rest attributes isEmpty
  have hletters := readLetters_name _ h.name hnext hstop (by omega : _ < n)
  have hattributes := readAttributes_written rest h.names h.values h.distinct isEmpty [] nofun (by omega : _ ≤ n)
  rw [hnext, Option.bind_some, List.reverse_nil, List.nil_append] at hattributes
  have hdeclared : ∀ a ∈ attributes, declared? ⟨none, a.1⟩ = none := fun a ha => by
    simp [declared?, (h.names a ha).2]
  have hnone : (attributes.map fun a => ((⟨none, a.1⟩ : Name), a.2)).filterMap
      (fun a => (declared? a.1).map fun label => (label, a.2)) = [] := by
    refine List.filterMap_eq_nil_iff.2 (List.forall_mem_map.2 fun a ha => ?_)
    rw [hdeclared a ha]
    rfl
  have hall : (attributes.map fun a => ((⟨none, a.1⟩ : Name), a.2)).filter
      (fun a => (declared? a.1).isNone) = attributes.map fun a => (⟨none, a.1⟩, a.2) := by
    refine List.filter_eq_self.2 (List.forall_mem_map.2 fun a ha => ?_)
    rw [hdeclared a ha]
    rfl
  have hfold := foldl_putAttribute [] h.distinct
  rw [tagChars, List.append_assoc, List.append_assoc]
  simp [readStartTag, hletters, nameOf?_name h.name, hattributes, hnone, hall, hfold]

theorem readEndTag_written {name : String} (h : IsName name) (hn : name.toList.length < n) :
    readEndTag n { text := name.toList ++ '>' :: rest } = some (⟨none, name⟩, { text := rest }) := by
  have hnext : Lexer.next { text := '>' :: rest } = some (.tagClose, { text := rest }) := rfl
  have hletters := readLetters_name _ h hnext nofun hn
  simp [readEndTag, hletters, nameOf?_name h, Token.isSpacing]

/-! ### Content -/

section
variable {setting : Setting} {bound : List String} {name : Name} {seen : List Node} {text : List Char}
  {blank : Bool} {l l' l'' : Lexer}

theorem readContent_char (hnext : l.next = some (.char c, l'))
    (hc : isLiteralChar setting.eleven c = true) :
    readContent setting (n + 1) bound name seen text blank l =
      readContent setting n bound name seen (c :: text) (blank && Text.isSpacing c) l' := by
  conv => lhs; whnf
  simp only [hnext, hc, if_true]

theorem readContent_reference (hnext : l.next = some (.ampersand, l'))
    (hreference : readReference setting n [] l' = some (.char c, l'')) :
    readContent setting (n + 1) bound name seen text blank l =
      readContent setting n bound name seen (c :: text) (blankAfterReference blank (c :: text)) l'' := by
  conv => lhs; whnf
  simp only [hnext, hreference]

theorem readContent_element {node : Node} (hnext : l.next = some (.tagOpen, l'))
    (helement : readElement setting n bound l' = some (node, l'')) :
    readContent setting (n + 1) bound name seen text blank l =
      readContent setting n bound name (node :: flush text blank seen) [] true l'' := by
  conv => lhs; whnf
  simp only [hnext, helement]

theorem readContent_endTag (hnext : l.next = some (.endTagOpen, l'))
    (htag : readEndTag n l' = some (name, l'')) :
    readContent setting (n + 1) bound name seen text blank l = some ((flush text blank seen).reverse, l'') := by
  conv => lhs; whnf
  simp only [hnext, htag, beq_self_eq_true, if_true]

end

section Content
variable (bound : List String) (name : Name) (seen : List Node)

theorem readContent_plain (hc : c ≠ '<' ∧ c ≠ '>' ∧ c ≠ '&') (hchar : isChar false c = true)
    {cs : List Char} (hcs : cs.head? ≠ some '>' ∧ cs.take 2 ≠ [']', '>']) (text : List Char) :
    readContent {} (n + 1) bound name seen text (text.all Text.isSpacing) { text := c :: cs } =
      readContent {} n bound name seen (c :: text) ((c :: text).all Text.isSpacing) { text := cs } := by
  have hnext := next_plain hc.1 (fun _ => hcs.1) fun _ => hcs.2
  by_cases heq : c = '='
  · subst heq
    rfl
  by_cases hquot : c = '"'
  · subst hquot
    rfl
  by_cases hapos : c = '\''
  · subst hapos
    rfl
  by_cases hsemi : c = ';'
  · subst hsemi
    rfl
  have hplain : Lexer.plain c = .char c := by
    simp [Lexer.plain, hc, heq, hquot, hapos, hsemi]
  rw [hplain] at hnext
  rw [readContent_char hnext ((isLiteralChar_eq c).trans hchar), List.all_cons, Bool.and_comm]

theorem readContent_escaped {cs : List Char} (hcs : ∀ c ∈ cs, isChar false c = true) (hn : 5 ≤ n)
    (text : List Char) :
    readContent {} (n + cs.length) bound name seen text (text.all Text.isSpacing)
        { text := cs.flatMap escapeText ++ '<' :: rest } =
      readContent {} n bound name seen (cs.reverse ++ text) ((cs.reverse ++ text).all Text.isSpacing)
        { text := '<' :: rest } := by
  induction cs generalizing text with
  | nil => rfl
  | cons c cs ih =>
    obtain ⟨hc, hcs⟩ := List.forall_mem_cons.1 hcs
    have hrest := ih hcs (c :: text)
    rw [List.reverse_cons, List.append_assoc, List.singleton_append, ← hrest, List.length_cons,
      ← Nat.add_assoc, List.flatMap_cons, List.append_assoc]
    rcases escapes_escapeText c with ⟨hescape, hplain⟩ | ⟨word, hescape, hword⟩
    · rw [hescape]
      exact readContent_plain _ _ _ hplain hc (escapes_escapeText.not_closing _ cs (by decide)) text
    · have hamp : ∀ cs, Lexer.next { text := '&' :: cs } = some (.ampersand, { text := cs }) :=
        fun _ => rfl
      have hblank : blankAfterReference (text.all Text.isSpacing) (c :: text) =
          (c :: text).all Text.isSpacing := by
        simp [blankAfterReference]
      rw [hescape, List.cons_append,
        readContent_reference (hamp _) (readReference_of_mem _ hword (by omega : 5 ≤ n + cs.length)), hblank]

end Content

/-! ### Elements -/

def Node.inside : Node → List Char
  | .text _ => []
  | .element name attributes [] => tagChars name attributes true
  | .element name attributes (child :: children) =>
    tagChars name attributes false ++
      ((renderAll (child :: children)).toList ++ '<' :: '/' :: (name.toList ++ ['>']))

theorem toList_openTag (name : String) (attributes : List (String × String)) :
    (openTag name attributes).toList = '<' :: (name.toList ++ attributes.flatMap attributeChars) := by
  simp [openTag, String.toList_join, List.flatMap_map, toList_attributeText]

theorem toList_render (name : String) (attributes : List (String × String)) (children : List Node) :
    (render (.element name attributes children)).toList =
      '<' :: (Node.element name attributes children).inside := by
  cases children with
  | nil => simp [render, toList_openTag, Node.inside, tagChars, tagEnd]
  | cons child children => simp [render, renderAll, toList_openTag, Node.inside, tagChars, tagEnd]

theorem toList_renderAll_withText (text : String) (nodes : List Node) :
    (renderAll (withText text nodes)).toList =
      text.toList.flatMap escapeText ++ (renderAll nodes).toList := by
  rw [withText]
  split
  · next h =>
    rw [String.isEmpty_iff] at h
    subst h
    rfl
  · simp [renderAll, render]

theorem Written.exists_inside {node : Node} (h : Written node) :
    (render node).toList = '<' :: node.inside ∧ ∃ c cs, node.inside = c :: cs ∧ isNameChar c = true := by
  cases h with
  | @element name attributes text children htag =>
    refine ⟨toList_render .., ?_⟩
    obtain ⟨c, cs, hname, hc, -⟩ := htag.name.exists_letters
    have hinside : ∀ isEmpty cs, ∃ tail, tagChars name attributes isEmpty ++ cs = c :: tail := by
      intro isEmpty cs
      rw [tagChars, hname]
      exact ⟨_, rfl⟩
    cases hnodes : withText text children with
    | nil =>
      obtain ⟨tail, htail⟩ := hinside true []
      exact ⟨c, tail, (List.append_nil _).symm.trans htail, isNameChar_of_isNameStart hc⟩
    | cons child children =>
      obtain ⟨tail, htail⟩ := hinside false _
      exact ⟨c, tail, htail, isNameChar_of_isNameStart hc⟩

def ReadsBack (node : Node) : Prop :=
  ∀ (n : Nat) (bound : List String) (rest : List Char), 2 * (node.inside ++ rest).length ≤ n →
    readElement {} n bound { text := node.inside ++ rest } = some (node.pruned, { text := rest })

theorem readContent_children {name : String} (hname : IsName name) (bound : List String)
    {children : List Node} (hwritten : ∀ k ∈ children, Written k) (h : ∀ k ∈ children, ReadsBack k)
    (seen : List Node) (text : List Char) (blank : Bool)
    (hn : 2 * ((renderAll children).toList ++ '<' :: '/' :: (name.toList ++ '>' :: rest)).length ≤ n) :
    readContent {} n bound ⟨none, name⟩ seen text blank
        { text := (renderAll children).toList ++ '<' :: '/' :: (name.toList ++ '>' :: rest) } =
      some ((flush text blank seen).reverse ++ children.map Node.pruned, { text := rest }) := by
  induction children generalizing n seen text blank with
  | nil =>
    have hclose : ∀ cs, Lexer.next { text := '<' :: '/' :: cs } = some (.endTagOpen, { text := cs }) :=
      fun _ => rfl
    simp only [renderAll, String.toList_empty, List.nil_append, List.length_cons, List.length_append]
      at hn ⊢
    obtain ⟨n, rfl⟩ := Nat.exists_eq_add_of_le' (by omega : 1 ≤ n)
    have htag := readEndTag_written rest hname (by omega : _ < n)
    rw [readContent_endTag (hclose _) htag, List.map_nil, List.append_nil]
  | cons k children ih =>
    obtain ⟨hk, hwritten⟩ := List.forall_mem_cons.1 hwritten
    obtain ⟨hread, h⟩ := List.forall_mem_cons.1 h
    obtain ⟨hrender, c, cs, hinside, hc⟩ := hk.exists_inside
    rw [renderAll, String.toList_append, hrender, List.cons_append, List.cons_append,
      List.append_assoc] at hn ⊢
    obtain ⟨n, rfl⟩ := Nat.exists_eq_add_of_le' (by simp only [List.length_cons] at hn; omega : 1 ≤ n)
    have hopen := next_open hc
      (cs ++ ((renderAll children).toList ++ '<' :: '/' :: (name.toList ++ '>' :: rest)))
    rw [← List.cons_append, ← hinside] at hopen
    rw [List.length_cons] at hn
    have hchild := hread n bound
      ((renderAll children).toList ++ '<' :: '/' :: (name.toList ++ '>' :: rest)) (by omega)
    rw [List.length_append] at hn
    have hrest := ih hwritten h (n := n) (k.pruned :: flush text blank seen) [] true (by omega)
    -- the text before the child is put away with it, so what follows starts with none
    have hflush : ∀ nodes, flush [] true nodes = nodes := fun _ => rfl
    rw [hflush, List.reverse_cons, List.append_assoc, List.singleton_append] at hrest
    rw [readContent_element hopen hchild, hrest, List.map_cons]

theorem reverse_flush (text : String) (nodes : List Node) :
    (flush text.toList.reverse (text.toList.reverse.all Text.isSpacing) []).reverse ++ nodes =
      withText (unlessBlank text) nodes := by
  rw [withText_unlessBlank, flush, List.reverse_reverse, List.all_reverse, String.ofList_toList]
  cases hblank : text.toList.all Text.isSpacing with
  | true => simp
  | false =>
    have hne : text.toList ≠ [] := by
      intro hnil
      simp [hnil] at hblank
    simp [hne]

theorem readContent_written {name : String} (hname : IsName name) (bound : List String) {text : String}
    (htext : Allowed text) {children : List Node} (hwritten : ∀ k ∈ children, Written k)
    (h : ∀ k ∈ children, ReadsBack k)
    (hn : 2 * ((renderAll (withText text children)).toList ++
      '<' :: '/' :: (name.toList ++ '>' :: rest)).length ≤ n) :
    readContent {} n bound ⟨none, name⟩ [] [] true
        { text := (renderAll (withText text children)).toList ++
          '<' :: '/' :: (name.toList ++ '>' :: rest) } =
      some (Node.prunedAll (withText text children), { text := rest }) := by
  rw [toList_renderAll_withText, List.append_assoc] at hn ⊢
  obtain ⟨marked, hmarked⟩ : ∃ cs, (renderAll children).toList ++
      '<' :: '/' :: (name.toList ++ '>' :: rest) = '<' :: cs := by
    cases children with
    | nil => exact ⟨_, rfl⟩
    | cons k children =>
      rw [renderAll, String.toList_append, (hwritten k List.mem_cons_self).exists_inside.1]
      exact ⟨_, rfl⟩
  have hclose : 3 ≤ ((renderAll children).toList ++
      '<' :: '/' :: (name.toList ++ '>' :: rest)).length := by
    simp only [List.length_append, List.length_cons]
    omega
  have hlength := escapes_escapeText.length_le text.toList
  rw [List.length_append] at hn
  obtain ⟨n, rfl⟩ := Nat.exists_eq_add_of_le' (by omega : text.toList.length ≤ n)
  have hrun := readContent_escaped marked bound ⟨none, name⟩ [] htext (by omega : 5 ≤ n) []
  have hcontent := readContent_children rest hname bound hwritten h [] text.toList.reverse
    (text.toList.reverse.all Text.isSpacing) (by omega : _ ≤ n)
  rw [← hmarked, List.append_nil, hcontent, reverse_flush, ← Node.prunedAll_withText text hwritten] at hrun
  exact hrun

theorem Written.readsBack {node : Node} (h : Written node) : ReadsBack node := by
  induction h with
  | @element name attributes text children htag htext hwritten ih =>
    intro n bound rest hn
    rw [Node.pruned]
    cases hnodes : withText text children with
    | nil =>
      rw [hnodes, Node.inside, List.length_append] at hn
      have hend : 3 < (tagChars name attributes true).length := length_tagEnd_lt htag true
      obtain ⟨n, rfl⟩ := Nat.exists_eq_add_of_le' (by omega : 1 ≤ n)
      have hread := readStartTag_written rest htag true bound (by omega : _ ≤ n)
      rw [readElement, Node.inside, hread]
      rfl
    | cons child nodes =>
      rw [hnodes] at hn
      rw [Node.inside, ← hnodes] at hn ⊢
      simp only [List.append_assoc, List.cons_append, List.nil_append] at hn ⊢
      rw [List.length_append] at hn
      have hend : 1 < (tagChars name attributes false).length := length_tagEnd_lt htag false
      have hclose : 3 ≤ ((renderAll (withText text children)).toList ++
          '<' :: '/' :: (name.toList ++ '>' :: rest)).length := by
        simp only [List.length_append, List.length_cons]
        omega
      obtain ⟨n, rfl⟩ := Nat.exists_eq_add_of_le' (by omega : 1 ≤ n)
      have hread := readStartTag_written ((renderAll (withText text children)).toList ++
        '<' :: '/' :: (name.toList ++ '>' :: rest)) htag false bound (by omega : _ ≤ n)
      have hcontent := readContent_written rest htag.name bound htext hwritten ih
        (by omega : _ ≤ n)
      rw [readElement, hread]
      simp only [Bool.false_eq_true, if_false, hcontent]

/-! ### Documents -/

def declarationText : String :=
  "<?xml version=\"1.0\" encoding=\"UTF-8\"?>"

theorem readDeclaration_written (hn : 40 ≤ n) :
    readDeclaration n { text := declarationText.toList ++ rest } =
      some (⟨false, some "UTF-8"⟩, { text := rest }) := by
  obtain ⟨n, rfl⟩ := Nat.exists_eq_add_of_le' hn
  rfl

theorem utf8_append (s t : String) : Text.utf8 (s ++ t) = Text.utf8 s ++ Text.utf8 t := by
  simp only [Text.utf8_eq, String.toList_append, List.flatMap_append]

theorem le_tokenBound (size : Nat) : 2 * size + 40 ≤ tokenBound size := by
  have hdepth : (Lexer.maxDepth + 1) * (size + 2) = 11 * (size + 2) := rfl
  have hmul : 2 * (11 * (size + 2)) ≤ (size + 2) * (11 * (size + 2)) :=
    Nat.mul_le_mul_right _ (Nat.le_add_left 2 size)
  rw [tokenBound, hdepth]
  omega

theorem readOutside_element {setting : Setting} {typed : Bool} {root : Option Node} {node : Node}
    {l l' l'' : Lexer} (hnext : l.next = some (.tagOpen, l'))
    (helement : readElement setting n ["", "xml", "xmlns"] l' = some (node, l'')) :
    readOutside (n + 1) setting typed root l = readOutside n setting true (root.or (some node)) l'' := by
  conv => lhs; whnf
  simp only [hnext, helement]

theorem readDocument_written {root : Node} (h : Written root) :
    readDocument false (render root).toList = some root.pruned := by
  obtain ⟨hrender, c, cs, hinside, hc⟩ := h.exists_inside
  have hopen := next_open hc cs
  rw [← hinside] at hopen
  have hbound := le_tokenBound (render root).toList.length
  obtain ⟨n, hn⟩ := Nat.exists_eq_add_of_le' (by omega : 2 ≤ tokenBound (render root).toList.length)
  rw [hn, hrender, List.length_cons] at hbound
  have hread := h.readsBack (n + 1) ["", "xml", "xmlns"] [] (by rw [List.append_nil]; omega)
  rw [List.append_nil] at hread
  rw [readDocument, hn, hrender, readOutside_element hopen hread]
  rfl

/-- Text that begins with a mark is UTF-8 unless its declaration says otherwise. -/
theorem parse?_utf8 {head tail : String} {cs : List Char} (hmark : (head ++ tail).toList = '<' :: cs)
    {d : Declaration}
    (hdeclaration : readDeclaration (tokenBound (head ++ tail).toList.length)
      { text := (head ++ tail).toList } = some (d, { text := tail.toList }))
    (hencoding : d.encoding.elim (some .utf8) Encoding.ofName? = some .utf8) :
    parse? (Text.utf8 (head ++ tail)) = readDocument d.eleven tail.toList := by
  have hunmarked : marked? (Text.utf8 (head ++ tail)) = none := by
    rw [Text.utf8_eq, hmark]
    rfl
  have hvalid : validUtf8 (Text.utf8 (head ++ tail)) = (head ++ tail).toList := by
    have hsome : ∀ x ∈ (head ++ tail).toList.map some, x.isSome = true :=
      List.forall_mem_map.2 fun _ _ => rfl
    rw [validUtf8, Text.decoded_utf8, List.takeWhile_eq_self_iff.2 hsome, List.filterMap_map,
      Function.id_comp, List.filterMap_some]
  have htake : (head ++ tail).toList.take ((head ++ tail).toList.length - tail.toList.length) =
      head.toList := by
    rw [String.toList_append, List.length_append, Nat.add_sub_cancel, List.take_left]
  have hdrop : (Text.utf8 (head ++ tail)).drop (Text.utf8 head).length = Text.utf8 tail := by
    rw [utf8_append, List.drop_left]
  rw [parse?, hunmarked]
  simp only [readUnmarked, hvalid, hdeclaration, Option.bind_eq_bind, Option.bind_some, htake,
    String.ofList_toList, hdrop]
  obtain ⟨eleven, _ | name⟩ := d
  · simp only [Encoding.decode?, Text.strict?_utf8, Option.map_some, Option.bind_some]
  · have hname : Encoding.ofName? name = some .utf8 := hencoding
    simp only [hname, Encoding.decode?, Text.strict?_utf8, Option.map_some, Option.bind_some]

theorem parse?_utf8_undeclared {s : String}
    (h : ∃ c cs, s.toList = '<' :: c :: cs ∧ isNameChar c = true) :
    parse? (Text.utf8 s) = readDocument false s.toList := by
  obtain ⟨c, cs, hs, hc⟩ := h
  have hs' : ("" ++ s).toList = '<' :: c :: cs := by rw [String.empty_append, hs]
  have hdeclaration : readDeclaration (tokenBound ("" ++ s).toList.length)
      { text := ("" ++ s).toList } = some ({}, { text := s.toList }) := by
    rw [readDeclaration, hs', next_open hc, hs]
  have hparse := parse?_utf8 hs' hdeclaration rfl
  rwa [String.empty_append] at hparse

/-- A document that is written is read back without the runs of white space in it. -/
theorem parse?_renderDocument {root : Node} (h : Written root) :
    parse? (Text.utf8 (renderDocument root)) = some root.pruned := by
  have hdeclaration := readDeclaration_written (render root).toList
    (Nat.le_of_add_left_le (le_tokenBound (declarationText ++ render root).toList.length))
  rw [← String.toList_append] at hdeclaration
  have hdocument : renderDocument root = declarationText ++ render root := rfl
  obtain ⟨cs, hmark⟩ : ∃ cs, (declarationText ++ render root).toList = '<' :: cs := by
    rw [String.toList_append]
    exact ⟨_, rfl⟩
  rw [hdocument, parse?_utf8 hmark hdeclaration (by decide), readDocument_written h]

theorem lawful_standard : Library.standard.xml.Lawful :=
  ⟨parse?_renderDocument⟩

end BlockCanvas.Xml
